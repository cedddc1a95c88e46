/-
  ArgusManager.Float.Round
  ────────────────────────
  `f64` and `f32` as they round, for the few places where the last digit
  decides: the other modules compute exactly.
-/
import ArgusManager.Float
import ArgusManager.Lib.Rounding
import Mathlib.Tactic.NormNum

namespace ArgusManager.FloatVal

def binary32 : Rounding.Format := ⟨24, -149⟩
def binary64 : Rounding.Format := ⟨53, -1074⟩

/-- A value of the format, or an infinity from the power of two at its top
on. -/
def rounded (F : Rounding.Format) (top : Nat) : FloatVal → FloatVal
  | .fin x =>
      if 2 ^ top ≤ |F.round x| then signed (F.round x) else .fin (F.round x)
  | x => x

def toF32 (x : FloatVal) : FloatVal := x.rounded binary32 128
def toF64 (x : FloatVal) : FloatVal := x.rounded binary64 1024

/-- Rounding makes no NaN. -/
theorem rounded_ne_nan (F : Rounding.Format) (top : Nat) {x : FloatVal}
    (h : x ≠ .nan) : x.rounded F top ≠ .nan := by
  cases x with
  | nan => exact absurd rfl h
  | negInf => exact FloatVal.noConfusion
  | posInf => exact FloatVal.noConfusion
  | fin q =>
      show (if 2 ^ top ≤ |F.round q| then signed (F.round q)
        else .fin (F.round q)) ≠ .nan
      split
      next hlarge =>
        -- what is too large has a sign
        have hpos : 0 < |F.round q| := lt_of_lt_of_le (by positivity) hlarge
        rcases lt_or_gt_of_ne (abs_pos.mp hpos) with hneg | hpos
        · rw [signed_neg hneg]
          exact FloatVal.noConfusion
        · rw [signed_pos hpos]
          exact FloatVal.noConfusion
      next => exact FloatVal.noConfusion

/-- What does not come out below a bound was not below it when rounded. -/
theorem le_round_of_not_lt {F : Rounding.Format} {top : Nat} {x c : ℚ}
    (hc : c ≤ 2 ^ top)
    (h : ¬ (FloatVal.fin x).rounded F top < FloatVal.fin c) :
    c ≤ F.round x := by
  change ¬ (if 2 ^ top ≤ |F.round x| then signed (F.round x)
    else .fin (F.round x)) < FloatVal.fin c at h
  split at h
  next hlarge =>
    have htop : (0 : ℚ) < 2 ^ top := by positivity
    rcases le_or_gt 0 (F.round x) with hpos | hneg
    · rw [abs_of_nonneg hpos] at hlarge
      exact hc.trans hlarge
    · rw [signed_neg hneg] at h
      exact absurd rfl h
  next => exact not_lt.mp fun hlt => h (decide_eq_true hlt)

/-- Whole numbers of fewer than 54 binary digits are `f64` values. -/
theorem toF64_natCast {n : Nat} (hn : n < 2 ^ 53) :
    (FloatVal.fin n).toF64 = .fin n := by
  have hround : binary64.round n = n :=
    binary64.round_natCast hn (by decide)
  show (if 2 ^ 1024 ≤ |binary64.round n| then signed (binary64.round n)
    else .fin (binary64.round n)) = _
  rw [hround, if_neg]
  rw [abs_of_nonneg (Nat.cast_nonneg n), not_le]
  have hsmall : (n : ℚ) < 2 ^ 53 := by exact_mod_cast hn
  exact hsmall.trans_le (pow_le_pow_right₀ one_le_two (by decide))

end ArgusManager.FloatVal
