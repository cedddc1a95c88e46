/-
  ArgusManager.Lib.Rounding
  ─────────────────────────
  **Rounding to a binary floating-point format**: to the nearest value, at a
  tie to the even one.  A format has a precision and a least exponent, so a
  value is rounded to a multiple of a power of two that depends on how large it
  is.

    • `nearest`          — to a whole number,
    • `round`            — to a value of the format,
    • `round_natCast`    — whole numbers within the precision stay,
    • `abs_round_sub_le` — how far a value can move.
-/
import Mathlib.Data.Int.Log
import Mathlib.Data.Rat.Floor
import Mathlib.Tactic.FieldSimp
import Mathlib.Tactic.Linarith
import Mathlib.Tactic.Positivity
import Mathlib.Tactic.Ring

namespace Rounding

/-! ## §1. To a whole number. -/

/-- The nearest whole number, at a tie the even one. -/
def nearest (x : ℚ) : ℤ :=
  if Int.fract x < 1 / 2 ∨ Int.fract x = 1 / 2 ∧ Even ⌊x⌋ then ⌊x⌋
  else ⌊x⌋ + 1

@[simp] theorem nearest_intCast (n : ℤ) : nearest n = n := by
  unfold nearest
  rw [Int.fract_intCast, if_pos (.inl (by norm_num)), Int.floor_intCast]

theorem abs_nearest_sub_le (x : ℚ) : |(nearest x : ℚ) - x| ≤ 1 / 2 := by
  have hsplit : x = ⌊x⌋ + Int.fract x := (Int.floor_add_fract x).symm
  have hnonneg := Int.fract_nonneg x
  have hlt := Int.fract_lt_one x
  unfold nearest
  split
  next h =>
    -- down, by at most a half
    have hhalf : Int.fract x ≤ 1 / 2 := by
      rcases h with h | ⟨h, _⟩
      · exact h.le
      · exact h.le
    rw [abs_le]
    constructor
    · linarith
    · linarith
  next h =>
    have hhalf : 1 / 2 ≤ Int.fract x := not_lt.mp fun hlow => h (.inl hlow)
    rw [abs_le]
    push_cast
    constructor
    · linarith
    · linarith

/-! ## §2. To a format. -/

/-- A binary format, without its upper end. -/
structure Format where
  /-- Digits of a significand. -/
  precision : Nat
  /-- The exponent of the least positive value. -/
  least : ℤ

namespace Format

variable (F : Format)

/-- The distance of the values of the format around this one. -/
def quantum (x : ℚ) : ℚ :=
  2 ^ max (Int.log 2 |x| + 1 - F.precision) F.least

def round (x : ℚ) : ℚ := nearest (x / F.quantum x) * F.quantum x

theorem quantum_pos (x : ℚ) : 0 < F.quantum x := zpow_pos two_pos _

/-- Multiples of their quantum are values of the format. -/
theorem round_of_multiple {x : ℚ} {n : ℤ} (h : x = n * F.quantum x) :
    F.round x = x := by
  have hq := (F.quantum_pos x).ne'
  have hdiv : x / F.quantum x = n := by
    rw [div_eq_iff hq]
    exact h
  unfold round
  rw [hdiv, nearest_intCast]
  exact h.symm

@[simp] theorem round_zero : F.round 0 = 0 :=
  F.round_of_multiple (n := 0) (by simp)

/-- **Whole numbers within the precision are not rounded.** -/
theorem round_natCast {n : Nat} (hn : n < 2 ^ F.precision)
    (hleast : F.least ≤ 0) : F.round n = n := by
  rcases Nat.eq_zero_or_pos n with rfl | hpos
  · rw [Nat.cast_zero, round_zero]
  have hlog : Int.log 2 |(n : ℚ)| + 1 - F.precision ≤ 0 := by
    have hdigits := Nat.log_lt_of_lt_pow hpos.ne' hn
    rw [abs_of_nonneg (Nat.cast_nonneg n), Int.log_natCast]
    omega
  -- the quantum is one over a whole number
  obtain ⟨k, hk⟩ := Int.eq_ofNat_of_zero_le
    (neg_nonneg.mpr (max_le hlog hleast))
  have hquantum : F.quantum n = (2 ^ k)⁻¹ := by
    show (2 : ℚ) ^ max (Int.log 2 |(n : ℚ)| + 1 - F.precision) F.least = _
    rw [← zpow_natCast, ← zpow_neg, ← hk, neg_neg]
  refine F.round_of_multiple (n := n * 2 ^ k) ?_
  rw [hquantum]
  push_cast
  field_simp

/-- **Rounding error**: half a unit of the precision, and half the least
value where the format runs out of exponents. -/
theorem abs_round_sub_le (x : ℚ) :
    |F.round x - x| ≤ |x| / 2 ^ F.precision + 2 ^ F.least / 2 := by
  have hq := F.quantum_pos x
  have hhalf : |F.round x - x| ≤ F.quantum x / 2 := by
    have hfactor : F.round x - x
        = (nearest (x / F.quantum x) - x / F.quantum x) * F.quantum x := by
      unfold round
      rw [sub_mul, div_mul_cancel₀ _ hq.ne']
    rw [hfactor, abs_mul, abs_of_pos hq]
    have hnear := mul_le_mul_of_nonneg_right
      (abs_nearest_sub_le (x / F.quantum x)) hq.le
    linarith
  rcases eq_or_ne x 0 with rfl | hx
  · rw [round_zero, sub_zero, abs_zero, zero_div, zero_add]
    exact (half_pos (zpow_pos two_pos _)).le
  · have hlog : (2 : ℚ) ^ Int.log 2 |x| ≤ |x| :=
      Int.zpow_log_le_self one_lt_two (abs_pos.mpr hx)
    have hunit : (2 : ℚ) ^ (Int.log 2 |x| + 1 - F.precision)
        ≤ 2 * (|x| / 2 ^ F.precision) := by
      rw [zpow_sub₀ two_ne_zero, zpow_add₀ two_ne_zero, zpow_one, zpow_natCast,
        ← mul_div_assoc, mul_comm 2]
      gcongr
    -- the quantum is one of the two powers, so at most their sum
    have hsum : F.quantum x
        ≤ 2 ^ (Int.log 2 |x| + 1 - F.precision) + 2 ^ F.least := by
      have hone : (0 : ℚ) < 2 ^ (Int.log 2 |x| + 1 - F.precision) :=
        zpow_pos two_pos _
      have htwo : (0 : ℚ) < 2 ^ F.least := zpow_pos two_pos _
      unfold quantum
      rcases max_cases (Int.log 2 |x| + 1 - F.precision) F.least with
        ⟨heq, _⟩ | ⟨heq, _⟩
      · rw [heq]
        linarith
      · rw [heq]
        linarith
    linarith

end Format

end Rounding
