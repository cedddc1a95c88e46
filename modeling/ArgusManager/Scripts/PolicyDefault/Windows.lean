/-
  ArgusManager.Scripts.PolicyDefault.Windows
  ──────────────────────────────────────────
  **The relief windows of the default script, over whole runs.**

  Two layers.  Seen from outside, the script is a ratchet over its 14 budget
  levels: `decide_accepted` shows that the abstract acceptor follows every
  call, so every run's windows have the shape the library proves.  Seen from
  inside, `Consistent` ties the two locals together: a budget is in force
  exactly while some axis is flagged, so no window can be lost.

    • `budget_ratchet` — the windows of every run,
    • `no_latched_budget` — the locals never drift apart, and a quiet call
      always gives the cache back.
-/
import ArgusManager.Lib.Ratchet
import ArgusManager.Scripts.PolicyDefault
import Mathlib.Tactic.NormNum

namespace ArgusManager.PolicyDefault

/-! ## §1. The budget levels. -/

/-- **Every budget is one of the 14 levels** `0.25, 0.30, …, 0.90`. -/
theorem B_kv_level (pressure : ℚ) (axis : Axis) :
    ∃ k : ℤ, 5 ≤ k ∧ k ≤ 18 ∧ B_kv pressure axis = k * 0.05 := by
  obtain ⟨n, hn⟩ : ∃ n : ℤ, B_kv pressure axis
      = min (max ((n : ℚ) * 0.05) 0.25) 0.90 := ⟨_, rfl⟩
  rw [hn]
  -- the clamp decides below 0.25 and above 0.90, the quantum in between
  by_cases hlo : n < 5
  · have hq : (n : ℚ) < 5 := by exact_mod_cast hlo
    refine ⟨5, by norm_num, by norm_num, ?_⟩
    rw [max_eq_right (by linarith), min_eq_left (by norm_num)]
    norm_num
  · have hge : (5 : ℚ) ≤ n := by exact_mod_cast not_lt.mp hlo
    by_cases hhi : 18 < n
    · have hq : (18 : ℚ) < n := by exact_mod_cast hhi
      refine ⟨18, by norm_num, by norm_num, ?_⟩
      rw [max_eq_left (by linarith), min_eq_right (by linarith)]
      norm_num
    · have hle : (n : ℚ) ≤ 18 := by exact_mod_cast not_lt.mp hhi
      refine ⟨n, not_lt.mp hlo, not_lt.mp hhi, ?_⟩
      rw [max_eq_left (by linarith), min_eq_left (by linarith)]

/-- The levels as a set. -/
def levels : Finset ℚ :=
  (Finset.range 14).image fun i : ℕ => ((i : ℚ) + 5) * 0.05

theorem card_levels_le : levels.card ≤ 14 := by
  unfold levels
  exact Finset.card_image_le.trans (by rw [Finset.card_range])

theorem mem_levels {b : ℚ} :
    b ∈ levels ↔ ∃ k : ℤ, 5 ≤ k ∧ k ≤ 18 ∧ b = k * 0.05 := by
  unfold levels
  rw [Finset.mem_image]
  constructor
  · rintro ⟨i, hi, rfl⟩
    have hlt : i < 14 := Finset.mem_range.mp hi
    refine ⟨(i : ℤ) + 5, by omega, by omega, ?_⟩
    push_cast
    rfl
  · rintro ⟨k, h5, h18, rfl⟩
    obtain ⟨i, rfl⟩ : ∃ i : ℕ, k = i + 5 := ⟨(k - 5).toNat, by omega⟩
    refine ⟨i, Finset.mem_range.mpr (by omega), ?_⟩
    push_cast
    rfl

theorem wanted_mem_levels (ctx : Ctx) : wanted ctx ∈ levels :=
  mem_levels.mpr (B_kv_level _ _)

/-- A level is a budget the parser accepts. -/
theorem levels_bounds {b : ℚ} (hb : b ∈ levels) : 0.25 ≤ b ∧ b ≤ 0.90 := by
  obtain ⟨k, h5, h18, rfl⟩ := mem_levels.mp hb
  have h5' : (5 : ℚ) ≤ k := by exact_mod_cast h5
  have h18' : (k : ℚ) ≤ 18 := by exact_mod_cast h18
  constructor <;> linarith

/-! ## §2. The script is a ratchet. -/

/-- An action as a letter of the ratchet. -/
def Action.toAct : Action → Ratchet.Act ℚ
  | .kvCompress b => .tighten b
  | .restoreDefaults => .release

/-- What a run returned, calls without an action left out. -/
def actions (calls : List Ctx) : List Action :=
  (machine.outs State.fresh calls).filterMap id

/-- A call without an action leaves the budget in force. -/
theorem decide_quiet {s : State} {ctx : Ctx} (h : (decide s ctx).2 = none) :
    (decide s ctx).1.applied = s.applied := by
  have hspec := decide_spec s ctx
  generalize hs' : (decide s ctx).1 = s' at *
  rw [h] at hspec
  cases hspec with
  | unseen _ => rfl
  | headroom _ _ _ => rfl
  | held _ _ b happ _ => exact happ.symm

/-- **The ratchet accepts every action of the script**, with the budget in
force as its state. -/
theorem decide_accepted {s : State} {ctx : Ctx} {a : Action}
    (h : (decide s ctx).2 = some a) :
    Ratchet.accept s.applied a.toAct = some (decide s ctx).1.applied := by
  have hspec := decide_spec s ctx
  generalize hs' : (decide s ctx).1 = s' at *
  rw [h] at hspec
  cases hspec with
  | released _ happ _ =>
      obtain ⟨b, hb⟩ := Option.ne_none_iff_exists'.mp happ
      rw [hb]
      rfl
  | tightened _ _ hlt =>
      cases happ : s.applied with
      | none => rfl
      | some b => exact if_pos (hlt b happ)

theorem actions_accepted (calls : List Ctx) :
    Mealy.acceptAll Ratchet.accept none ((actions calls).map Action.toAct)
      = some (machine.exec State.fresh calls).applied := by
  have := Mealy.acceptAll_outs (m := machine) Ratchet.accept State.applied
    (fun o => o.map Action.toAct) (I := fun _ => True) (fun _ _ _ => trivial)
    (fun s ctx _ h => decide_quiet (Option.map_eq_none_iff.mp h))
    (fun s ctx a _ h => by
      obtain ⟨act, hact, rfl⟩ := Option.map_eq_some_iff.mp h
      exact decide_accepted hact)
    calls State.fresh trivial
  rw [actions, List.map_filterMap]
  exact this

/-- A returned budget is a level. -/
theorem decide_level {s : State} {ctx : Ctx} {b : ℚ}
    (h : (decide s ctx).2 = some (.kvCompress b)) : b ∈ levels := by
  have hspec := decide_spec s ctx
  generalize (decide s ctx).1 = s' at hspec
  rw [h] at hspec
  cases hspec with
  | tightened _ _ _ => exact wanted_mem_levels ctx

theorem actions_level {calls : List Ctx} {b : ℚ}
    (h : Action.kvCompress b ∈ actions calls) : b ∈ levels := by
  obtain ⟨o, ho, rfl⟩ := List.mem_filterMap.mp h
  obtain ⟨s, ctx, hout⟩ := machine.mem_outs ho
  exact decide_level hout.symm

/-- **The budget ratchet**: cut what any run returned at its releases.  Every
window strictly decreases over the 14 levels, and no release closes an empty
one. -/
theorem budget_ratchet (calls : List Ctx) :
    let w := Ratchet.windows ((actions calls).map Action.toAct)
    (∀ u ∈ w.closed ++ [w.current],
      u.Pairwise (· > ·)
        ∧ (∀ b ∈ u, 0.25 ≤ b ∧ b ≤ 0.90 ∧ ∃ k : ℤ, b = k * 0.05)
        ∧ u.length ≤ 14)
      ∧ ∀ u ∈ w.closed, u ≠ [] := by
  intro w
  have hcut : Ratchet.WellCut _ w :=
    Ratchet.acceptAll_wellCut (actions_accepted calls)
  -- whatever stands in a window was said, and whatever is said is a level
  have hlevel : ∀ u ∈ w.closed ++ [w.current], ∀ b ∈ u, b ∈ levels := by
    refine Ratchet.mem_windows ?_
    intro b hb
    obtain ⟨a, ha, hab⟩ := List.mem_map.mp hb
    cases a with
    | kvCompress c =>
        injection hab with hab
        exact actions_level (hab ▸ ha)
    | restoreDefaults => exact absurd hab (by simp [Action.toAct])
  refine ⟨?_, hcut.closed_nonempty⟩
  intro u hu
  have hdec : u.Pairwise (· > ·) := by
    rcases List.mem_append.mp hu with h | h
    · exact hcut.closed_decreasing u h
    · exact List.mem_singleton.mp h ▸ hcut.current_decreasing
  refine ⟨hdec, ?_, ?_⟩
  · intro b hb
    obtain ⟨k, _, _, hk⟩ := mem_levels.mp (hlevel u hu b hb)
    obtain ⟨hlo, hhi⟩ := levels_bounds (hlevel u hu b hb)
    exact ⟨hlo, hhi, k, hk⟩
  · exact (Ratchet.length_le_card hdec (hlevel u hu)).trans card_levels_le

/-! ## §3. The two locals never drift apart. -/

/-- A budget is in force exactly while some axis is flagged. -/
def Consistent (s : State) : Prop :=
  s.applied ≠ none ↔ ∃ a, s.relieving a = true

theorem consistent_fresh : Consistent State.fresh := by
  simp [Consistent, State.fresh]

/-- Every call keeps the locals consistent. -/
theorem decide_consistent {s : State} {ctx : Ctx} (hs : Consistent s) :
    Consistent (decide s ctx).1 := by
  have hspec := decide_spec s ctx
  generalize (decide s ctx).1 = s' at hspec
  generalize (decide s ctx).2 = out at hspec
  cases hspec with
  | unseen _ => exact hs
  | released _ _ _ => exact consistent_fresh
  | headroom _ hopen _ =>
      -- the sweep may close windows, but not the last one under a budget
      refine ⟨hopen, ?_⟩
      rintro ⟨a, ha⟩
      exact hs.mpr ⟨a, (swept_eq_true.mp ha).1⟩
  | held _ _ b _ _ => exact ⟨fun _ => ⟨worst ctx, by simp⟩, by simp⟩
  | tightened _ _ _ => exact ⟨fun _ => ⟨worst ctx, by simp⟩, by simp⟩

theorem exec_consistent (calls : List Ctx) :
    Consistent (machine.exec State.fresh calls) :=
  Mealy.exec_of_steps consistent_fresh
    (fun _ _ hs => decide_consistent hs) calls

/-- A call on which every flagged axis is below its exit closes the window. -/
theorem decide_releases {s : State} {ctx : Ctx} (happ : s.applied ≠ none)
    (hseen : ctx.engine.seen = true)
    (hexit : ∀ a, s.relieving a = true →
      normalize ctx.pressure a < EXIT a) :
    decide s ctx = (State.fresh, some .restoreDefaults) := by
  have hclosed : ∀ a, s.open ctx a = false :=
    fun a => swept_eq_false.mpr (hexit a)
  have hspec := decide_spec s ctx
  generalize hr : decide s ctx = r at hspec
  obtain ⟨s', out⟩ := r
  cases hspec with
  | unseen h => exact absurd (hseen.symm.trans h) (by simp)
  | released _ _ _ => rfl
  | headroom _ hopen _ =>
      obtain ⟨a, ha⟩ := hopen happ
      exact absurd ((hclosed a).symm.trans ha) (by simp)
  | held _ hopen _ _ _ =>
      obtain ⟨a, ha⟩ := hopen happ
      exact absurd ((hclosed a).symm.trans ha) (by simp)
  | tightened _ hopen _ =>
      obtain ⟨a, ha⟩ := hopen happ
      exact absurd ((hclosed a).symm.trans ha) (by simp)

/-- **No spike latches a budget**: in every reachable state the two locals
agree, and while a budget is in force every call made with the engine seen
and every flagged axis below its exit gives the cache back and leaves the
script as freshly loaded. -/
theorem no_latched_budget (calls : List Ctx) :
    ((machine.exec State.fresh calls).applied ≠ none
      ↔ ∃ a, (machine.exec State.fresh calls).relieving a = true)
    ∧ ((machine.exec State.fresh calls).applied ≠ none →
        ∀ ctx : Ctx, ctx.engine.seen = true →
          (∀ a, (machine.exec State.fresh calls).relieving a = true →
            normalize ctx.pressure a < EXIT a) →
          decide (machine.exec State.fresh calls) ctx
            = (State.fresh, some .restoreDefaults)) := by
  refine ⟨exec_consistent calls, ?_⟩
  intro happ ctx hseen hexit
  exact decide_releases happ hseen hexit

/-- A memory spike that has passed: the next quiet call releases. -/
theorem no_latched_budget_after_spike :
    decide (machine.exec State.fresh [seenAt 0.9 0 0 0]) (seenAt 0.5 0 0 0)
      = (State.fresh, some .restoreDefaults) := by
  refine (no_latched_budget [seenAt 0.9 0 0 0]).2 (by decide +kernel) _ rfl ?_
  intro a _
  cases a <;> norm_num [seenAt, buildCtx, normalize, EXIT]

end ArgusManager.PolicyDefault
