/-
  ArgusManager.Lib.Schmitt
  ────────────────────────
  **Comparators with hysteresis, over any readings.**

  A Schmitt trigger is switched on by a reading that `rises` and stays on
  while readings `hold`.  What it shows after a history has a closed form, and
  that is all a controller with an enter and an exit threshold ever computes.

    • `run_iff`       — on after a history exactly if some reading rose and
                        every later one held,
    • `step_step`     — the same reading twice changes nothing,
    • `run_mono`      — worse readings never switch it off,
    • `step_bracket`  — after each reading it lies between the two thresholds.
-/
import Mathlib.Data.List.Induction

/-- A comparator with an enter and an exit condition; what enters stays. -/
structure Schmitt (α : Type*) where
  rises : α → Bool
  holds : α → Bool
  holds_of_rises : ∀ x, rises x = true → holds x = true

namespace Schmitt

variable {α : Type*} (c : Schmitt α)

/-! ## §1. Runs. -/

/-- The next position: what is on stays on while the reading holds. -/
def step (on : Bool) (x : α) : Bool := if on then c.holds x else c.rises x

/-- The position after a history, off at first. -/
def run (xs : List α) : Bool := xs.foldl c.step false

@[simp] theorem run_nil : c.run [] = false := rfl

@[simp] theorem run_concat (xs : List α) (x : α) :
    c.run (xs ++ [x]) = c.step (c.run xs) x := by
  unfold run
  rw [List.foldl_append]
  rfl

/-- A reading that rises switches it on, one that holds keeps it on. -/
theorem step_eq_true {on : Bool} {x : α} :
    c.step on x = true
      ↔ c.rises x = true ∨ (on = true ∧ c.holds x = true) := by
  unfold step
  cases on with
  | false => simp
  | true =>
      have := c.holds_of_rises x
      simp only [if_true, true_and]
      exact ⟨.inr, fun h => h.elim this id⟩

/-- **After each reading the comparator lies between its two thresholds.** -/
theorem step_bracket (on : Bool) (x : α) :
    (c.rises x = true → c.step on x = true)
      ∧ (c.step on x = true → c.holds x = true) := by
  refine ⟨fun h => c.step_eq_true.mpr (.inl h), ?_⟩
  intro h
  rcases c.step_eq_true.mp h with h | ⟨_, h⟩
  · exact c.holds_of_rises x h
  · exact h

/-- The same reading twice changes nothing. -/
theorem step_step (on : Bool) (x : α) :
    c.step (c.step on x) x = c.step on x := by
  obtain ⟨hrise, hhold⟩ := c.step_bracket on x
  rw [Bool.eq_iff_iff]
  constructor
  · intro h
    rcases c.step_eq_true.mp h with h | ⟨h, _⟩
    · exact hrise h
    · exact h
  · intro h
    exact c.step_eq_true.mpr (.inr ⟨h, hhold h⟩)

/-! ## §2. Histories. -/

/-- Some reading of the history rose, and every later one held. -/
def Latched (rises holds : α → Prop) (xs : List α) : Prop :=
  ∃ before x after, xs = before ++ x :: after ∧ rises x ∧ ∀ y ∈ after, holds y

theorem latched_nil {rises holds : α → Prop} :
    ¬ Latched rises holds ([] : List α) := by
  rintro ⟨before, x, after, h, _⟩
  exact absurd h (by simp)

/-- One more reading rises itself, or holds what was latched. -/
theorem latched_concat {rises holds : α → Prop} {xs : List α} {x : α} :
    Latched rises holds (xs ++ [x])
      ↔ rises x ∨ (Latched rises holds xs ∧ holds x) := by
  constructor
  · rintro ⟨before, y, after, h, hy, hafter⟩
    rcases List.eq_nil_or_concat after with rfl | ⟨after, z, rfl⟩
    · have := List.append_inj_right' h rfl
      injection this with hx _
      exact .inl (hx ▸ hy)
    · rw [List.concat_eq_append, ← List.cons_append, ← List.append_assoc] at h
      have hz := List.append_inj_right' h rfl
      injection hz with hz _
      refine .inr ⟨⟨before, y, after, List.append_inj_left' h rfl, hy, ?_⟩, ?_⟩
      · intro w hw
        exact hafter w (by simp [hw])
      · rw [hz]
        exact hafter z (by simp)
  · rintro (hx | ⟨⟨before, y, after, rfl, hy, hafter⟩, hx⟩)
    · exact ⟨xs, x, [], rfl, hx, by simp⟩
    · refine ⟨before, y, after ++ [x], by simp, hy, ?_⟩
      intro w hw
      rcases List.mem_append.mp hw with hw | hw
      · exact hafter w hw
      · rw [List.mem_singleton.mp hw]
        exact hx

theorem latched_congr {rises rises' holds holds' : α → Prop} {xs : List α}
    (hrises : ∀ x, rises x ↔ rises' x) (hholds : ∀ x, holds x ↔ holds' x) :
    Latched rises holds xs ↔ Latched rises' holds' xs := by
  unfold Latched
  simp only [hrises, hholds]

/-- **The closed form of a run.** -/
theorem run_iff (xs : List α) :
    c.run xs = true
      ↔ Latched (fun x => c.rises x = true) (fun x => c.holds x = true) xs := by
  induction xs using List.reverseRecOn with
  | nil => exact iff_of_false (by simp) latched_nil
  | append_singleton xs x ih =>
      rw [run_concat, step_eq_true, latched_concat, ih]

/-- **Worse readings never switch a comparator off.** -/
theorem run_mono {R : α → α → Prop} {xs ys : List α}
    (hrises : ∀ x y, R x y → c.rises x = true → c.rises y = true)
    (hholds : ∀ x y, R x y → c.holds x = true → c.holds y = true)
    (h : List.Forall₂ R xs ys) : c.run xs = true → c.run ys = true := by
  -- from any two positions of which the second is on if the first is
  have hgen : ∀ on on' : Bool, (on = true → on' = true) →
      xs.foldl c.step on = true → ys.foldl c.step on' = true := by
    induction h with
    | nil => exact fun _ _ hon => hon
    | cons hxy _ ih =>
        intro on on' hon
        refine ih _ _ ?_
        rw [step_eq_true, step_eq_true]
        rintro (h | ⟨hx, h⟩)
        · exact .inl (hrises _ _ hxy h)
        · exact .inr ⟨hon hx, hholds _ _ hxy h⟩
  exact hgen false false id

end Schmitt
