/-
  ArgusManager.Lib.Lag
  ────────────────────
  **First-order lags over an ordered field.**

  One step moves a value towards a target by what a decay factor leaves of
  the way: with decay 0 it arrives, with decay 1 it stays.

    • `toward_mem_Icc`, `toward_mono` — a step stays between its ends and
                                        keeps the order of two lags,
    • `chase_mem_Icc`, `chase_mono`   — the same for a run after any targets,
    • `toward_iterate`                — towards one target the distance decays
                                        geometrically,
    • `toward_toward`, `foldl_toward` — and steps make one step, by the product
                                        of their decays,
    • `toward_add_toward`             — two values that lag after each other
                                        keep their sum.
-/
import Mathlib.Algebra.BigOperators.Group.List.Basic
import Mathlib.Algebra.Order.Field.Basic
import Mathlib.Algebra.Order.Group.Unbundled.Abs
import Mathlib.Order.Interval.Set.UnorderedInterval
import Mathlib.Tactic.Linarith
import Mathlib.Tactic.Ring

namespace Lag

variable {F : Type*} [Field F]

/-! ## §1. One step. -/

/-- One step of a lag. -/
def toward (decay current target : F) : F :=
  current + (target - current) * (1 - decay)

/-- What is left of the distance. -/
theorem toward_eq (decay current target : F) :
    toward decay current target = target + (current - target) * decay := by
  unfold toward
  ring

@[simp] theorem toward_zero (current target : F) :
    toward 0 current target = target := by
  unfold toward
  ring

/-- **Towards one target the distance decays geometrically.** -/
theorem toward_iterate (decay current target : F) (n : ℕ) :
    (fun x => toward decay x target)^[n] current
      = target + (current - target) * decay ^ n := by
  induction n with
  | zero =>
      rw [Function.iterate_zero, id, pow_zero]
      ring
  | succ n ih =>
      rw [Function.iterate_succ_apply', ih, toward_eq, pow_succ]
      ring

/-- **Two steps towards one target are one**, by the product of the decays. -/
theorem toward_toward (d e current target : F) :
    toward e (toward d current target) target
      = toward (d * e) current target := by
  simp only [toward_eq]
  ring

/-- And so are any number. -/
theorem foldl_toward (decays : List F) (current target : F) :
    decays.foldl (fun x d => toward d x target) current
      = toward decays.prod current target := by
  induction decays generalizing current with
  | nil =>
      show current = toward 1 current target
      unfold toward
      ring
  | cons d decays ih =>
      rw [List.foldl_cons, ih, List.prod_cons, toward_toward]

/-- **Two values that lag after each other keep their sum.** -/
theorem toward_add_toward (decay x y : F) :
    toward decay x y + toward decay y x = x + y := by
  unfold toward
  ring

/-- And their gap shrinks, or turns around. -/
theorem toward_sub_toward (decay x y : F) :
    toward decay x y - toward decay y x = (x - y) * (2 * decay - 1) := by
  unfold toward
  ring

/-! ## §2. Order. -/

variable [LinearOrder F] [IsStrictOrderedRing F]

/-- A step stays in every interval with both its ends. -/
theorem toward_mem_Icc {decay current target lo hi : F} (h0 : 0 ≤ decay)
    (h1 : decay ≤ 1) (hc : current ∈ Set.Icc lo hi)
    (ht : target ∈ Set.Icc lo hi) :
    toward decay current target ∈ Set.Icc lo hi := by
  have hleft : 0 ≤ 1 - decay := sub_nonneg.mpr h1
  -- a step is a mean of its ends
  have hsplit : ∀ b : F, toward decay current target - b
      = (current - b) * decay + (target - b) * (1 - decay) := by
    intro b
    unfold toward
    ring
  constructor
  · have hc' := mul_nonneg (sub_nonneg.mpr hc.1) h0
    have ht' := mul_nonneg (sub_nonneg.mpr ht.1) hleft
    linarith [hsplit lo]
  · have hc' := mul_nonneg (sub_nonneg.mpr hc.2) h0
    have ht' := mul_nonneg (sub_nonneg.mpr ht.2) hleft
    linarith [hsplit hi]

/-- A step keeps the order of two lags. -/
theorem toward_mono {decay x x' t t' : F} (h0 : 0 ≤ decay) (h1 : decay ≤ 1)
    (hx : x ≤ x') (ht : t ≤ t') : toward decay x t ≤ toward decay x' t' := by
  have hx' := mul_le_mul_of_nonneg_right hx h0
  have ht' := mul_le_mul_of_nonneg_right ht (sub_nonneg.mpr h1)
  unfold toward
  linarith

/-- A step stays between the value and the target. -/
theorem toward_mem_uIcc {decay : F} (h0 : 0 ≤ decay) (h1 : decay ≤ 1)
    (current target : F) :
    toward decay current target ∈ Set.uIcc current target :=
  toward_mem_Icc h0 h1 Set.left_mem_uIcc Set.right_mem_uIcc

/-- **A step does not lead away from the target.** -/
theorem abs_toward_sub_le {decay : F} (h0 : 0 ≤ decay) (h1 : decay ≤ 1)
    (current target : F) :
    |toward decay current target - target| ≤ |current - target| := by
  have hleft : toward decay current target - target
      = (current - target) * decay := by
    rw [toward_eq]
    ring
  rw [hleft, abs_mul, abs_of_nonneg h0]
  exact mul_le_of_le_one_right (abs_nonneg _) h1

/-- **Two values that lag after each other do not part.** -/
theorem abs_toward_sub_toward_le {decay : F} (h0 : 0 ≤ decay)
    (h1 : decay ≤ 1) (x y : F) :
    |toward decay x y - toward decay y x| ≤ |x - y| := by
  have hturn : |2 * decay - 1| ≤ 1 := abs_le.mpr ⟨by linarith, by linarith⟩
  rw [toward_sub_toward, abs_mul]
  exact mul_le_of_le_one_right (abs_nonneg _) hturn

/-- Decays from 0 to 1 make one. -/
theorem prod_mem_Icc {decays : List F} (h : ∀ d ∈ decays, d ∈ Set.Icc 0 1) :
    decays.prod ∈ Set.Icc 0 1 := by
  induction decays with
  | nil =>
      show (1 : F) ∈ Set.Icc 0 1
      exact ⟨zero_le_one, le_rfl⟩
  | cons d decays ih =>
      obtain ⟨hd, hrest⟩ := List.forall_mem_cons.mp h
      have hprod := ih hrest
      rw [List.prod_cons]
      exact ⟨mul_nonneg hd.1 hprod.1, mul_le_one₀ hd.2 hprod.1 hprod.2⟩

/-! ## §3. Runs. -/

/-- A lag after a sequence of targets. -/
def chase (decay current : F) (targets : List F) : F :=
  targets.foldl (toward decay) current

/-- **A run stays in every interval with its start and its targets.** -/
theorem chase_mem_Icc {decay lo hi : F} (h0 : 0 ≤ decay) (h1 : decay ≤ 1)
    {targets : List F} (ht : ∀ t ∈ targets, t ∈ Set.Icc lo hi) {current : F}
    (hc : current ∈ Set.Icc lo hi) :
    chase decay current targets ∈ Set.Icc lo hi := by
  induction targets generalizing current with
  | nil => exact hc
  | cons t targets ih =>
      obtain ⟨hfirst, hrest⟩ := List.forall_mem_cons.mp ht
      exact ih hrest (toward_mem_Icc h0 h1 hc hfirst)

/-- **Runs keep the order** of their starts if their targets are in it. -/
theorem chase_mono {decay : F} (h0 : 0 ≤ decay) (h1 : decay ≤ 1)
    {targets targets' : List F} (ht : List.Forall₂ (· ≤ ·) targets targets')
    {x x' : F} (hx : x ≤ x') :
    chase decay x targets ≤ chase decay x' targets' := by
  induction ht generalizing x x' with
  | nil => exact hx
  | cons hfirst _ ih => exact ih (toward_mono h0 h1 hx hfirst)

end Lag
