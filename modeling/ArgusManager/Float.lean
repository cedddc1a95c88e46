/-
  ArgusManager.Float
  ──────────────────
  Arithmetic of `f64`, exact on finite values: nothing is rounded and nothing
  overflows, there is one zero, and the cases with an infinity or a NaN are
  those of IEEE 754.

    • `add`, `mul` — commutative and associative, infinities and NaN included,
    • `max`, `min` — a NaN gives way to the other argument,
    • `clamp`      — `none` where `f64::clamp` panics.
-/
import ArgusManager.Shared
import Mathlib.Algebra.Order.Ring.Rat
import Mathlib.Data.Rat.Floor
import Mathlib.Tactic.Ring
import Mathlib.Tactic.Linarith

namespace ArgusManager.FloatVal

/-! ## §1. Operations. -/

protected def neg : FloatVal → FloatVal
  | .nan => .nan
  | .negInf => .posInf
  | .fin x => .fin (-x)
  | .posInf => .negInf

protected def add : FloatVal → FloatVal → FloatVal
  | .nan, _ => .nan
  | _, .nan => .nan
  | .fin x, .fin y => .fin (x + y)
  | .negInf, .posInf => .nan
  | .posInf, .negInf => .nan
  | .negInf, _ => .negInf
  | _, .negInf => .negInf
  | .posInf, _ => .posInf
  | _, .posInf => .posInf

/-- An infinity times a finite factor. -/
def signed (x : ℚ) : FloatVal :=
  if x = 0 then .nan else if 0 < x then .posInf else .negInf

protected def mul : FloatVal → FloatVal → FloatVal
  | .nan, _ => .nan
  | _, .nan => .nan
  | .fin x, .fin y => .fin (x * y)
  | .fin x, .posInf => signed x
  | .fin x, .negInf => signed (-x)
  | .posInf, .fin y => signed y
  | .negInf, .fin y => signed (-y)
  | .posInf, .posInf => .posInf
  | .negInf, .negInf => .posInf
  | .posInf, .negInf => .negInf
  | .negInf, .posInf => .negInf

/-- A finite dividend over zero is an infinity of its sign, `0 / 0` a NaN. -/
protected def div : FloatVal → FloatVal → FloatVal
  | .nan, _ => .nan
  | _, .nan => .nan
  | .fin x, .fin y => if y = 0 then signed x else .fin (x / y)
  | .fin _, _ => .fin 0
  | .posInf, .fin y => if y < 0 then .negInf else .posInf
  | .negInf, .fin y => if y < 0 then .posInf else .negInf
  | _, _ => .nan

instance : Neg FloatVal := ⟨FloatVal.neg⟩
instance : Add FloatVal := ⟨FloatVal.add⟩
instance : Sub FloatVal := ⟨fun x y => x + -y⟩
instance : Mul FloatVal := ⟨FloatVal.mul⟩
instance : Div FloatVal := ⟨FloatVal.div⟩

/-- `f64::max`. -/
protected def max : FloatVal → FloatVal → FloatVal
  | .nan, y => y
  | x, .nan => x
  | x, y => if lt x y then y else x

/-- `f64::min`. -/
protected def min : FloatVal → FloatVal → FloatVal
  | .nan, y => y
  | x, .nan => x
  | x, y => if lt y x then y else x

/-- `f64::clamp`; it panics unless `lo <= hi`. -/
def clamp (x lo hi : FloatVal) : Option FloatVal :=
  if le lo hi then
    some (if lt x lo then lo else if lt hi x then hi else x)
  else none

/-- `iter().sum()`. -/
def sum (xs : List FloatVal) : FloatVal := xs.foldl (· + ·) (.fin 0)

/-- `iter().product()`. -/
def product (xs : List FloatVal) : FloatVal := xs.foldl (· * ·) (.fin 1)

/-- `as u64` and the like: towards zero, saturating, a NaN to 0. -/
def toUnsigned (bits : Nat) : FloatVal → Nat
  | .nan => 0
  | .negInf => 0
  | .fin x => min ⌊x⌋.toNat (2 ^ bits - 1)
  | .posInf => 2 ^ bits - 1

/-- The functions of the mathematical library that the simulator calls. -/
structure Libm where
  exp : FloatVal → FloatVal
  powf : FloatVal → FloatVal → FloatVal

/-- A library for examples, right at `exp(0)` and at powers of one. -/
def Libm.flat : Libm := ⟨fun _ => .fin 1, fun _ _ => .fin 1⟩

/-- IEEE `<` and `<=` as relations. -/
instance : LT FloatVal := ⟨fun x y => lt x y = true⟩
instance : LE FloatVal := ⟨fun x y => le x y = true⟩
instance : DecidableLT FloatVal := fun x y =>
  inferInstanceAs (Decidable (lt x y = true))
instance : DecidableLE FloatVal := fun x y =>
  inferInstanceAs (Decidable (le x y = true))

/-! ## §2. Finite values. -/

@[simp] theorem fin_add (x y : ℚ) : FloatVal.fin x + .fin y = .fin (x + y) :=
  rfl

@[simp] theorem fin_mul (x y : ℚ) : FloatVal.fin x * .fin y = .fin (x * y) :=
  rfl

@[simp] theorem neg_fin (x : ℚ) : -FloatVal.fin x = .fin (-x) := rfl

@[simp] theorem fin_sub (x y : ℚ) : FloatVal.fin x - .fin y = .fin (x - y) := by
  show FloatVal.fin (x + -y) = .fin (x - y)
  rw [sub_eq_add_neg]

theorem fin_div (x : ℚ) {y : ℚ} (h : y ≠ 0) :
    FloatVal.fin x / .fin y = .fin (x / y) :=
  if_neg h

@[simp] theorem lt_fin (x y : ℚ) : lt (.fin x) (.fin y) = decide (x < y) := rfl

@[simp] theorem le_fin (x y : ℚ) : le (.fin x) (.fin y) = decide (x ≤ y) := by
  unfold le
  rw [lt_fin, Bool.eq_iff_iff]
  show (decide (x < y) || (x == y)) = true ↔ _
  rw [Bool.or_eq_true, decide_eq_true_iff, decide_eq_true_iff, beq_iff_eq,
    le_iff_lt_or_eq]

/-- Nothing is less than itself. -/
protected theorem lt_irrefl (x : FloatVal) : lt x x = false := by
  cases x with
  | fin a => simp
  | nan => rfl
  | negInf => rfl
  | posInf => rfl

/-- A sum is finite exactly if both terms are. -/
theorem isFinite_add (x y : FloatVal) :
    (x + y).isFinite = (x.isFinite && y.isFinite) := by
  cases x <;> cases y <;> rfl

/-- Up to the largest value a cast is the floor, a negative one giving 0. -/
theorem toUnsigned_fin {x : ℚ} {bits : Nat} (h : x ≤ 2 ^ bits - 1) :
    (FloatVal.fin x).toUnsigned bits = ⌊x⌋₊ := by
  show min ⌊x⌋.toNat (2 ^ bits - 1) = ⌊x⌋₊
  rw [Int.floor_toNat]
  refine Nat.min_eq_left (Nat.floor_le_of_le ?_)
  rwa [Nat.cast_sub Nat.one_le_two_pow, Nat.cast_pow, Nat.cast_ofNat,
    Nat.cast_one]

theorem toUnsigned_large {x : ℚ} {bits : Nat} (h : 2 ^ bits - 1 ≤ x) :
    (FloatVal.fin x).toUnsigned bits = 2 ^ bits - 1 := by
  show min ⌊x⌋.toNat (2 ^ bits - 1) = 2 ^ bits - 1
  rw [Int.floor_toNat]
  refine Nat.min_eq_right (Nat.le_floor ?_)
  rwa [Nat.cast_sub Nat.one_le_two_pow, Nat.cast_pow, Nat.cast_ofNat,
    Nat.cast_one]

/-- A whole number is cast as it is, or to the largest value. -/
theorem toUnsigned_natCast (bits n : Nat) :
    (FloatVal.fin (n : ℚ)).toUnsigned bits = min n (2 ^ bits - 1) := by
  show min ⌊(n : ℚ)⌋.toNat (2 ^ bits - 1) = min n (2 ^ bits - 1)
  rw [Int.floor_natCast, Int.toNat_natCast]

theorem toUnsigned_lt (bits : Nat) (x : FloatVal) :
    x.toUnsigned bits < 2 ^ bits := by
  have hpos := Nat.two_pow_pos bits
  cases x with
  | fin x =>
      show min ⌊x⌋.toNat (2 ^ bits - 1) < 2 ^ bits
      omega
  | nan => exact hpos
  | negInf => exact hpos
  | posInf => exact Nat.sub_lt hpos Nat.one_pos

/-! ## §3. Laws. -/

protected theorem add_comm (x y : FloatVal) : x + y = y + x := by
  cases x with
  | fin a =>
      cases y with
      | fin b => exact congrArg FloatVal.fin (add_comm a b)
      | nan => rfl
      | negInf => rfl
      | posInf => rfl
  | nan => cases y <;> rfl
  | negInf => cases y <;> rfl
  | posInf => cases y <;> rfl

protected theorem add_assoc (x y z : FloatVal) : x + y + z = x + (y + z) := by
  cases x with
  | fin a =>
      cases y with
      | fin b =>
          cases z with
          | fin c => exact congrArg FloatVal.fin (add_assoc a b c)
          | nan => rfl
          | negInf => rfl
          | posInf => rfl
      | nan => rfl
      | negInf => cases z <;> rfl
      | posInf => cases z <;> rfl
  | nan => rfl
  | negInf => cases y <;> cases z <;> rfl
  | posInf => cases y <;> cases z <;> rfl

@[simp] theorem add_zero (x : FloatVal) : x + .fin 0 = x := by
  cases x with
  | fin a => exact congrArg FloatVal.fin (Rat.add_zero a)
  | nan => rfl
  | negInf => rfl
  | posInf => rfl

theorem signed_zero : signed 0 = .nan := if_pos rfl

theorem signed_pos {x : ℚ} (h : 0 < x) : signed x = .posInf := by
  unfold signed
  rw [if_neg h.ne', if_pos h]

theorem signed_neg {x : ℚ} (h : x < 0) : signed x = .negInf := by
  unfold signed
  rw [if_neg h.ne, if_neg h.not_gt]

/-- Every value is finite or has a sign, a NaN that of zero. -/
theorem finite_or_signed (x : FloatVal) :
    (∃ a, x = .fin a) ∨ ∃ a, x = signed a := by
  cases x with
  | fin a => exact .inl ⟨a, rfl⟩
  | nan => exact .inr ⟨0, signed_zero.symm⟩
  | negInf => exact .inr ⟨-1, (signed_neg (by norm_num)).symm⟩
  | posInf => exact .inr ⟨1, (signed_pos (by norm_num)).symm⟩

protected theorem mul_comm (x y : FloatVal) : x * y = y * x := by
  cases x with
  | fin a =>
      cases y with
      | fin b => exact congrArg FloatVal.fin (mul_comm a b)
      | nan => rfl
      | negInf => rfl
      | posInf => rfl
  | nan => cases y <;> rfl
  | negInf => cases y <;> rfl
  | posInf => cases y <;> rfl

/-- Signs multiply. -/
theorem signed_mul_fin (x y : ℚ) : signed x * .fin y = signed (x * y) := by
  rcases lt_trichotomy x 0 with hx | rfl | hx
  · rw [signed_neg hx]
    show signed (-y) = _
    rcases lt_trichotomy y 0 with hy | rfl | hy
    · rw [signed_pos (neg_pos.mpr hy),
        signed_pos (mul_pos_of_neg_of_neg hx hy)]
    · rw [neg_zero, mul_zero]
    · rw [signed_neg (neg_lt_zero.mpr hy),
        signed_neg (mul_neg_of_neg_of_pos hx hy)]
  · rw [zero_mul, signed_zero]
    rfl
  · rw [signed_pos hx]
    show signed y = _
    rcases lt_trichotomy y 0 with hy | rfl | hy
    · rw [signed_neg hy, signed_neg (mul_neg_of_pos_of_neg hx hy)]
    · rw [mul_zero]
    · rw [signed_pos hy, signed_pos (mul_pos hx hy)]

theorem fin_mul_signed (x y : ℚ) : .fin x * signed y = signed (x * y) := by
  rw [FloatVal.mul_comm, signed_mul_fin, mul_comm]

theorem signed_mul_signed (x y : ℚ) : signed x * signed y = signed (x * y) := by
  rcases lt_trichotomy x 0 with hx | rfl | hx
  · rw [signed_neg hx]
    rcases lt_trichotomy y 0 with hy | rfl | hy
    · rw [signed_neg hy, signed_pos (mul_pos_of_neg_of_neg hx hy)]
      rfl
    · rw [mul_zero, signed_zero]
      rfl
    · rw [signed_pos hy, signed_neg (mul_neg_of_neg_of_pos hx hy)]
      rfl
  · rw [zero_mul, signed_zero]
    rfl
  · rw [signed_pos hx]
    rcases lt_trichotomy y 0 with hy | rfl | hy
    · rw [signed_neg hy, signed_neg (mul_neg_of_pos_of_neg hx hy)]
      rfl
    · rw [mul_zero, signed_zero]
      rfl
    · rw [signed_pos hy, signed_pos (mul_pos hx hy)]
      rfl

protected theorem mul_assoc (x y z : FloatVal) : x * y * z = x * (y * z) := by
  rcases finite_or_signed x with ⟨a, rfl⟩ | ⟨a, rfl⟩
  all_goals rcases finite_or_signed y with ⟨b, rfl⟩ | ⟨b, rfl⟩
  all_goals rcases finite_or_signed z with ⟨c, rfl⟩ | ⟨c, rfl⟩
  all_goals
    simp only [fin_mul, signed_mul_fin, fin_mul_signed, signed_mul_signed,
      mul_assoc]

instance : RightCommutative fun x y : FloatVal => x + y where
  right_comm x y z := by
    rw [FloatVal.add_assoc, FloatVal.add_comm y, FloatVal.add_assoc]

instance : RightCommutative fun x y : FloatVal => x * y where
  right_comm x y z := by
    rw [FloatVal.mul_assoc, FloatVal.mul_comm y, FloatVal.mul_assoc]

/-- A sum does not depend on the order of its terms. -/
theorem sum_perm {xs ys : List FloatVal} (h : xs.Perm ys) : sum xs = sum ys :=
  h.foldl_eq _

theorem product_perm {xs ys : List FloatVal} (h : xs.Perm ys) :
    product xs = product ys :=
  h.foldl_eq _

/-! ## §4. Greatest and least. -/

/-- `iter().cloned().fold(f64::NEG_INFINITY, f64::max)`. -/
def maximum (xs : List FloatVal) : FloatVal := xs.foldl FloatVal.max .negInf

/-- `iter().cloned().fold(f64::INFINITY, f64::min)`. -/
def minimum (xs : List FloatVal) : FloatVal := xs.foldl FloatVal.min .posInf

@[simp] theorem max_fin (x y : ℚ) :
    FloatVal.max (.fin x) (.fin y) = .fin (max x y) := by
  show (if decide (x < y) = true then FloatVal.fin y else .fin x) = _
  by_cases h : x < y
  · rw [if_pos (decide_eq_true h), max_eq_right h.le]
  · rw [if_neg (by simpa using h), max_eq_left (not_lt.mp h)]

@[simp] theorem max_nan_left (x : FloatVal) : FloatVal.max .nan x = x := rfl

@[simp] theorem max_nan_right (x : FloatVal) : FloatVal.max x .nan = x := by
  cases x <;> rfl

@[simp] theorem max_negInf_left (x : FloatVal) (h : x ≠ .nan) :
    FloatVal.max .negInf x = x := by
  cases x <;> first | rfl | exact absurd rfl h

@[simp] theorem max_negInf_right (x : FloatVal) (h : x ≠ .nan) :
    FloatVal.max x .negInf = x := by
  cases x <;> first | rfl | exact absurd rfl h

@[simp] theorem max_posInf_left (x : FloatVal) :
    FloatVal.max .posInf x = .posInf := by
  cases x <;> rfl

@[simp] theorem max_posInf_right (x : FloatVal) :
    FloatVal.max x .posInf = .posInf := by
  cases x <;> rfl

@[simp] theorem min_fin (x y : ℚ) :
    FloatVal.min (.fin x) (.fin y) = .fin (min x y) := by
  show (if decide (y < x) = true then FloatVal.fin y else .fin x) = _
  by_cases h : y < x
  · rw [if_pos (decide_eq_true h), min_eq_right h.le]
  · rw [if_neg (by simpa using h), min_eq_left (not_lt.mp h)]

@[simp] theorem min_nan_left (x : FloatVal) : FloatVal.min .nan x = x := rfl

@[simp] theorem min_nan_right (x : FloatVal) : FloatVal.min x .nan = x := by
  cases x <;> rfl

@[simp] theorem min_posInf_left (x : FloatVal) (h : x ≠ .nan) :
    FloatVal.min .posInf x = x := by
  cases x <;> first | rfl | exact absurd rfl h

@[simp] theorem min_posInf_right (x : FloatVal) (h : x ≠ .nan) :
    FloatVal.min x .posInf = x := by
  cases x <;> first | rfl | exact absurd rfl h

@[simp] theorem min_negInf_left (x : FloatVal) :
    FloatVal.min .negInf x = .negInf := by
  cases x <;> rfl

@[simp] theorem min_negInf_right (x : FloatVal) :
    FloatVal.min x .negInf = .negInf := by
  cases x <;> rfl

instance : RightCommutative FloatVal.max where
  right_comm x y z := by
    cases x <;> cases y <;> cases z <;>
      simp [max_comm, max_left_comm]

instance : RightCommutative FloatVal.min where
  right_comm x y z := by
    cases x <;> cases y <;> cases z <;>
      simp [min_comm, min_left_comm]

theorem maximum_perm {xs ys : List FloatVal} (h : xs.Perm ys) :
    maximum xs = maximum ys :=
  h.foldl_eq _

theorem minimum_perm {xs ys : List FloatVal} (h : xs.Perm ys) :
    minimum xs = minimum ys :=
  h.foldl_eq _

end ArgusManager.FloatVal
