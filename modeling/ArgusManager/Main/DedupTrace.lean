/-
  ArgusManager.Main.DedupTrace
  ────────────────────────────
  **The deduplicator as a filter of a whole sequence of directives.**

  After any inputs the deduplicator's two fields are those of the last
  directive it let through (`exec_holding`), so what it lets through is the
  greedy selection of directives that are `Apart` from the one selected before
  (`emissions_eq_destutter`).

    • `trace_law` — what is suppressed, what is emitted, and that a suppressed
      input leaves no trace in the rest of the output.
-/
import ArgusManager.Main.Dedup
import Mathlib.Data.List.Destutter
import Mathlib.Data.List.ReduceOption

namespace ArgusManager

/-! ## §1. The specification. -/

/-- `b` may follow `a`: its commands differ, or the cooldown is over. -/
def Apart (cooldown : ℚ) (a b : TimedDirective) : Prop :=
  SameCommands a b → cooldown ≤ b.time - a.time

instance (cooldown : ℚ) : DecidableRel (Apart cooldown) := fun a b =>
  inferInstanceAs (Decidable
    ((a.directive.commands == b.directive.commands) = true → _))

/-- `x` has the commands of the last emission, less than the cooldown later. -/
def Repeats (cooldown : ℚ) (last : Option TimedDirective)
    (x : TimedDirective) : Prop :=
  ∃ l, last = some l ∧ SameCommands l x ∧ x.time - l.time < cooldown

theorem repeats_some_iff (cooldown : ℚ) (l x : TimedDirective) :
    Repeats cooldown (some l) x ↔ ¬ Apart cooldown l x := by
  unfold Repeats Apart
  constructor
  · intro ⟨l', hl, hsame, hgap⟩ hapart
    injection hl with hl
    subst hl
    exact absurd (hapart hsame) (not_le.mpr hgap)
  · intro h
    rw [Classical.not_imp, not_le] at h
    exact ⟨l, rfl, h⟩

theorem not_repeats_none (cooldown : ℚ) (x : TimedDirective) :
    ¬ Repeats cooldown none x := by
  intro ⟨l, hl, _⟩
  exact absurd hl (by simp)

/-! ## §2. The deduplicator as a machine. -/

namespace DirectiveDeduplicator

/-- `process`, fed one timed directive after the other. -/
def machine :
    Mealy DirectiveDeduplicator TimedDirective (Option TimedDirective) where
  step d x :=
    let (d, out) := d.process x.directive x.time
    (d, out.map (TimedDirective.mk x.time))

/-- The state in which the last emission is `last`. -/
def holding (cooldown : ℚ) (last : Option TimedDirective) :
    DirectiveDeduplicator where
  lastCommands := last.map fun l => l.directive.commands
  lastSentAt := last.map TimedDirective.time
  cooldownSecs := cooldown

@[simp] theorem holding_none (cooldown : ℚ) :
    holding cooldown none = withCooldown cooldown := rfl

/-- **One step**: a repeat is swallowed and leaves the state alone, anything
else is emitted and remembered. -/
theorem step_holding (cooldown : ℚ) (last : Option TimedDirective)
    (x : TimedDirective) :
    (Repeats cooldown last x
        ∧ machine.step (holding cooldown last) x
          = (holding cooldown last, none))
    ∨ (¬ Repeats cooldown last x
        ∧ machine.step (holding cooldown last) x
          = (holding cooldown (some x), some x)) := by
  obtain ⟨hproc, commands, hcommands, hsame, hgap⟩ | ⟨hproc, hfree⟩ :=
    process_cases (holding cooldown last) x.directive x.time
  · left
    obtain ⟨l, rfl, rfl⟩ := Option.map_eq_some_iff.mp hcommands
    refine ⟨⟨l, rfl, hsame, hgap l.time rfl⟩, ?_⟩
    show (let (d, out) := (holding cooldown (some l)).process x.directive x.time
      (d, out.map (TimedDirective.mk x.time))) = _
    rw [hproc]
    rfl
  · right
    constructor
    · intro ⟨l, hl, hsame, hgap⟩
      subst hl
      obtain ⟨t, ht, hle⟩ := hfree l.directive.commands rfl hsame
      injection ht with ht
      subst ht
      exact absurd hgap (not_lt.mpr hle)
    · show (let (d, out) := (holding cooldown last).process x.directive x.time
        (d, out.map (TimedDirective.mk x.time))) = _
      rw [hproc]
      rfl

/-- The state after a run is that of its last emission. -/
theorem exec_holding (cooldown : ℚ) (xs : List TimedDirective)
    (last : Option TimedDirective) :
    machine.exec (holding cooldown last) xs
      = holding cooldown
          ((machine.outs (holding cooldown last) xs).reduceOption.getLast?.or
            last) := by
  induction xs generalizing last with
  | nil => rfl
  | cons x xs ih =>
      obtain ⟨_, hstep⟩ | ⟨_, hstep⟩ := step_holding cooldown last x
      · rw [Mealy.exec_cons, Mealy.outs_cons, hstep,
          List.reduceOption_cons_of_none]
        exact ih last
      · rw [Mealy.exec_cons, Mealy.outs_cons, hstep,
          List.reduceOption_cons_of_some, ih (some x), List.getLast?_cons]
        -- the run after `x` ends with its own last emission, or with `x`
        cases (machine.outs (holding cooldown (some x)) xs).reduceOption.getLast?
          with
        | none => rfl
        | some l => rfl

/-- What follows a remembered emission is Mathlib's greedy selection. -/
theorem outs_holding_some (cooldown : ℚ) (xs : List TimedDirective)
    (l : TimedDirective) :
    l :: (machine.outs (holding cooldown (some l)) xs).reduceOption
      = xs.destutter' (Apart cooldown) l := by
  induction xs generalizing l with
  | nil => rfl
  | cons x xs ih =>
      obtain ⟨hrep, hstep⟩ | ⟨hrep, hstep⟩ :=
        step_holding cooldown (some l) x
      · rw [repeats_some_iff] at hrep
        rw [Mealy.outs_cons, hstep, List.reduceOption_cons_of_none,
          List.destutter'_cons_neg xs hrep]
        exact ih l
      · rw [repeats_some_iff, not_not] at hrep
        rw [Mealy.outs_cons, hstep, List.reduceOption_cons_of_some,
          List.destutter'_cons_pos xs hrep, ← ih x]

/-! ## §3. The trace law. -/

/-- The answer to each input of a sequence, from a new deduplicator on:
`none` where the input is suppressed. -/
def outputs (cooldown : ℚ) (xs : List TimedDirective) :
    List (Option TimedDirective) :=
  machine.outs (withCooldown cooldown) xs

/-- A suppressed input has no output at its position. -/
def Suppressed (cooldown : ℚ) (xs : List TimedDirective) (i : ℕ) : Prop :=
  (outputs cooldown xs)[i]? = some none

/-- The directives let through, in order. -/
def emissions (cooldown : ℚ) (xs : List TimedDirective) : List TimedDirective :=
  (outputs cooldown xs).reduceOption

/-- The last directive let through before an input. -/
def lastEmitted (cooldown : ℚ) (xs : List TimedDirective) (i : ℕ) :
    Option TimedDirective :=
  ((outputs cooldown xs).take i).reduceOption.getLast?

/-- Before each input the deduplicator holds the last emission. -/
theorem exec_take (cooldown : ℚ) (xs : List TimedDirective) (i : ℕ) :
    machine.exec (withCooldown cooldown) (xs.take i)
      = holding cooldown (lastEmitted cooldown xs i) := by
  unfold lastEmitted outputs
  rw [Mealy.outs_take, ← holding_none, exec_holding, Option.or_none]

/-- What is let through is the greedy selection of directives that are apart
from the one selected before. -/
theorem emissions_eq_destutter (cooldown : ℚ) (xs : List TimedDirective) :
    emissions cooldown xs = xs.destutter (Apart cooldown) := by
  unfold emissions outputs
  cases xs with
  | nil => rfl
  | cons x xs =>
      obtain ⟨hrep, _⟩ | ⟨_, hstep⟩ := step_holding cooldown none x
      · exact absurd hrep (not_repeats_none cooldown x)
      · rw [← holding_none, Mealy.outs_cons, hstep,
          List.reduceOption_cons_of_some, outs_holding_some,
          List.destutter_cons']

/-- An input is answered with itself or suppressed, and suppressed exactly
when it repeats the last emission; then it leaves the state alone. -/
theorem outputs_getElem? (cooldown : ℚ) {xs : List TimedDirective} {i : ℕ}
    {x : TimedDirective} (hx : xs[i]? = some x) :
    (Repeats cooldown (lastEmitted cooldown xs i) x
        ∧ (outputs cooldown xs)[i]? = some none
        ∧ (machine.step (machine.exec (withCooldown cooldown) (xs.take i)) x).1
          = machine.exec (withCooldown cooldown) (xs.take i))
    ∨ (¬ Repeats cooldown (lastEmitted cooldown xs i) x
        ∧ (outputs cooldown xs)[i]? = some (some x)) := by
  unfold outputs
  rw [Mealy.outs_getElem?, hx, Option.map_some, exec_take]
  obtain ⟨hrep, hstep⟩ | ⟨hrep, hstep⟩ :=
    step_holding cooldown (lastEmitted cooldown xs i) x
  · left
    rw [hstep]
    exact ⟨hrep, rfl, rfl⟩
  · right
    rw [hstep]
    exact ⟨hrep, rfl⟩

theorem suppressed_iff (cooldown : ℚ) {xs : List TimedDirective} {i : ℕ}
    {x : TimedDirective} (hx : xs[i]? = some x) :
    Suppressed cooldown xs i
      ↔ Repeats cooldown (lastEmitted cooldown xs i) x := by
  unfold Suppressed
  obtain ⟨hrep, hout, _⟩ | ⟨hrep, hout⟩ := outputs_getElem? cooldown hx
  · rw [hout]
    exact iff_of_true rfl hrep
  · rw [hout]
    exact iff_of_false (by simp) hrep

/-- Deleting a suppressed input deletes its own output and no other. -/
theorem outputs_eraseIdx (cooldown : ℚ) {xs : List TimedDirective} {i : ℕ}
    (h : Suppressed cooldown xs i) :
    outputs cooldown (xs.eraseIdx i) = (outputs cooldown xs).eraseIdx i := by
  refine Mealy.outs_eraseIdx machine _ xs i ?_
  intro x hx
  obtain ⟨_, _, hstate⟩ | ⟨hrep, _⟩ := outputs_getElem? cooldown hx
  · exact hstate
  · exact absurd ((suppressed_iff cooldown hx).mp h) hrep

end DirectiveDeduplicator

open DirectiveDeduplicator

/-- **The trace law**, over every sequence of timed directives: an input comes
out as it went in unless it is suppressed; it is suppressed exactly when it
repeats the last emission within the cooldown, so never the first; what comes
out is a subsequence whose neighbours with equal commands are the cooldown
apart; and deleting a suppressed input changes nothing in the rest of the
output. -/
theorem trace_law (cooldown : ℚ) (xs : List TimedDirective) :
    (∀ i x, xs[i]? = some x →
        (Suppressed cooldown xs i
          ↔ ∃ last, lastEmitted cooldown xs i = some last
              ∧ SameCommands last x ∧ x.time - last.time < cooldown)
        ∧ (¬ Suppressed cooldown xs i →
            (outputs cooldown xs)[i]? = some (some x)))
      ∧ ¬ Suppressed cooldown xs 0
      ∧ (emissions cooldown xs).Sublist xs
      ∧ Spaced cooldown (emissions cooldown xs)
      ∧ ∀ i, Suppressed cooldown xs i →
          outputs cooldown (xs.eraseIdx i)
            = (outputs cooldown xs).eraseIdx i := by
  refine ⟨?_, ?_, ?_, ?_, ?_⟩
  · intro i x hx
    refine ⟨suppressed_iff cooldown hx, ?_⟩
    intro hsup
    obtain ⟨hrep, _⟩ | ⟨_, hout⟩ := outputs_getElem? cooldown hx
    · exact absurd ((suppressed_iff cooldown hx).mpr hrep) hsup
    · exact hout
  · -- nothing precedes the first
    cases xs with
    | nil =>
        intro h
        cases h
    | cons x xs =>
        rw [suppressed_iff cooldown (x := x) rfl]
        exact not_repeats_none cooldown x
  · rw [emissions_eq_destutter]
    exact List.destutter_sublist _ xs
  · rw [emissions_eq_destutter]
    exact List.isChain_destutter (Apart cooldown) xs
  · intro i hi
    exact outputs_eraseIdx cooldown hi

end ArgusManager
