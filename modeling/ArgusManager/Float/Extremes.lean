/-
  ArgusManager.Float.Extremes
  ───────────────────────────
  The greatest and the least of a list of floats, NaN and the infinities
  included: a NaN gives way to anything, and a list of NaNs has the
  infinity that the fold starts from.
-/
import ArgusManager.Float

namespace ArgusManager.FloatVal

/-! ## §1. The order of numbers. -/

protected theorem le_refl {x : FloatVal} (h : x ≠ .nan) : le x x = true := by
  cases x with
  | nan => exact absurd rfl h
  | fin a => simp
  | negInf => rfl
  | posInf => rfl

protected theorem le_of_lt {x y : FloatVal} (h : lt x y = true) :
    le x y = true := by
  unfold le
  rw [h, Bool.true_or]

/-- Numbers are in one order or the other. -/
protected theorem le_of_not_lt {x y : FloatVal} (hx : x ≠ .nan)
    (hy : y ≠ .nan) (h : lt x y = false) : le y x = true := by
  cases x with
  | nan => exact absurd rfl hx
  | fin a =>
      cases y with
      | nan => exact absurd rfl hy
      | fin b => simpa using h
      | negInf => rfl
      | posInf => cases h
  | negInf => cases y <;> first | rfl | exact absurd rfl hy | cases h
  | posInf => cases y <;> first | rfl | exact absurd rfl hy

protected theorem le_trans {x y z : FloatVal} (h : le x y = true)
    (h' : le y z = true) : le x z = true := by
  cases x with
  | nan => cases y <;> cases h
  | fin a =>
      cases y with
      | fin b =>
          cases z with
          | fin c =>
              rw [le_fin, decide_eq_true_iff] at h h' ⊢
              exact h.trans h'
          | posInf => rfl
          | nan => cases h'
          | negInf => cases h'
      | posInf => cases z <;> first | rfl | cases h'
      | nan => cases h
      | negInf => cases h
  | negInf =>
      cases z with
      | nan => cases y <;> cases h'
      | _ => rfl
  | posInf =>
      cases y with
      | posInf => exact h'
      | _ => cases h

protected theorem le_antisymm {x y : FloatVal} (h : le x y = true)
    (h' : le y x = true) : x = y := by
  cases x with
  | fin a =>
      cases y with
      | fin b =>
          rw [le_fin, decide_eq_true_iff] at h h'
          exact congrArg FloatVal.fin (h.antisymm h')
      | posInf => cases h'
      | nan => cases h
      | negInf => cases h
  | nan => cases y <;> cases h
  | negInf => cases y <;> first | rfl | cases h'
  | posInf => cases y <;> first | rfl | cases h

/-- The greater of two numbers, written out. -/
theorem max_eq {x : FloatVal} (hx : x ≠ .nan) (y : FloatVal) :
    FloatVal.max x y = if lt x y then y else x := by
  cases x <;> cases y <;> first | rfl | exact absurd rfl hx

theorem min_eq {x : FloatVal} (hx : x ≠ .nan) (y : FloatVal) :
    FloatVal.min x y = if lt y x then y else x := by
  cases x <;> cases y <;> first | rfl | exact absurd rfl hx

/-! ## §2. Folds that pick the outermost. -/

/-- An operation that picks the outer of two numbers and passes over a
NaN. -/
structure Picks (pick : FloatVal → FloatVal → FloatVal)
    (outside : FloatVal → FloatVal → Prop) : Prop where
  nan_right : ∀ x, pick x .nan = x
  refl : ∀ x, x ≠ .nan → outside x x
  left : ∀ x y, x ≠ .nan → y ≠ .nan → outside x (pick x y)
  right : ∀ x y, x ≠ .nan → y ≠ .nan → outside y (pick x y)
  either : ∀ x y, x ≠ .nan → y ≠ .nan → pick x y = x ∨ pick x y = y
  trans : ∀ x y z, outside x y → outside y z → outside x z
  antisymm : ∀ x y, outside x y → outside y x → x = y

variable {pick : FloatVal → FloatVal → FloatVal}
  {outside : FloatVal → FloatVal → Prop}

/-- **A fold is the start or a value**, and lies outside the start and every
number in the list. -/
theorem Picks.foldl (h : Picks pick outside) (vs : List FloatVal)
    {start : FloatVal} (hstart : start ≠ .nan) :
    vs.foldl pick start ≠ .nan
      ∧ outside start (vs.foldl pick start)
      ∧ (∀ v ∈ vs, v ≠ .nan → outside v (vs.foldl pick start))
      ∧ (vs.foldl pick start = start ∨ vs.foldl pick start ∈ vs) := by
  induction vs generalizing start with
  | nil => exact ⟨hstart, h.refl start hstart, by simp, .inl rfl⟩
  | cons v vs ih =>
      rw [List.foldl_cons]
      by_cases hv : v = .nan
      · -- a NaN is passed over
        rw [hv, h.nan_right]
        obtain ⟨hnan, hout, hall, hmem⟩ := ih hstart
        refine ⟨hnan, hout, fun w hw hw' => ?_, hmem.imp_right fun hm =>
          List.mem_cons_of_mem _ hm⟩
        exact hall w ((List.mem_cons.mp hw).resolve_left hw') hw'
      · have hpick : pick start v ≠ .nan := by
          rcases h.either start v hstart hv with heq | heq <;> rw [heq] <;>
            assumption
        obtain ⟨hnan, hout, hall, hmem⟩ := ih hpick
        refine ⟨hnan, h.trans _ _ _ (h.left start v hstart hv) hout,
          fun w hw hw' => ?_, ?_⟩
        · rcases List.mem_cons.mp hw with rfl | hw
          · exact h.trans _ _ _ (h.right start w hstart hv) hout
          · exact hall w hw hw'
        · -- the rest picks what this step picked, or a value of its own
          rcases hmem with heq | hm
          · rw [heq]
            rcases h.either start v hstart hv with heq | heq
            · exact .inl heq
            · rw [heq]
              exact .inr List.mem_cons_self
          · exact .inr (List.mem_cons_of_mem _ hm)

/-- Picking by a comparison. -/
theorem picks_of_lt {beats : FloatVal → FloatVal → Bool}
    (hnan : ∀ x, pick x .nan = x)
    (hpick : ∀ x, x ≠ .nan → ∀ y, pick x y = if beats x y then y else x)
    (hbeats : ∀ x y, x ≠ .nan → y ≠ .nan → beats x y = true → outside x y)
    (hnot : ∀ x y, x ≠ .nan → y ≠ .nan → beats x y = false → outside y x)
    (hrefl : ∀ x, x ≠ .nan → outside x x)
    (htrans : ∀ x y z, outside x y → outside y z → outside x z)
    (hantisymm : ∀ x y, outside x y → outside y x → x = y) :
    Picks pick outside where
  nan_right := hnan
  refl := hrefl
  left x y hx hy := by
    rw [hpick x hx]
    split
    next h => exact hbeats x y hx hy h
    next => exact hrefl x hx
  right x y hx hy := by
    rw [hpick x hx]
    split
    next => exact hrefl y hy
    next h => exact hnot x y hx hy (Bool.not_eq_true _ ▸ h)
  either x y hx hy := by
    rw [hpick x hx]
    split
    next => exact .inr rfl
    next => exact .inl rfl
  trans := htrans
  antisymm := hantisymm

theorem picks_max : Picks FloatVal.max fun x y => le x y = true :=
  picks_of_lt max_nan_right (fun _ => max_eq)
    (fun _ _ _ _ => FloatVal.le_of_lt) (fun _ _ => FloatVal.le_of_not_lt)
    (fun _ => FloatVal.le_refl) (fun _ _ _ => FloatVal.le_trans)
    fun _ _ => FloatVal.le_antisymm

theorem picks_min : Picks FloatVal.min fun x y => le y x = true :=
  picks_of_lt min_nan_right (fun _ => min_eq)
    (fun _ _ _ _ => FloatVal.le_of_lt)
    (fun _ _ hx hy => FloatVal.le_of_not_lt hy hx)
    (fun _ => FloatVal.le_refl) (fun _ _ _ h h' => FloatVal.le_trans h' h)
    fun _ _ h h' => FloatVal.le_antisymm h' h

/-! ## §3. Where the greatest is the least. -/

/-- All numbers of the list are this one. -/
def OnlyNumber (vs : List FloatVal) (x : FloatVal) : Prop :=
  x ≠ .nan ∧ x ∈ vs ∧ ∀ v ∈ vs, v = x ∨ v = .nan

/-- A fold that starts inside of everything picks the only number. -/
theorem Picks.foldl_only (h : Picks pick outside) {start : FloatVal}
    (hstart : start ≠ .nan) (hinside : ∀ x, x ≠ .nan → outside start x)
    {vs : List FloatVal} {x : FloatVal} (honly : OnlyNumber vs x) :
    vs.foldl pick start = x := by
  obtain ⟨hx, hmem, hall⟩ := honly
  obtain ⟨hnan, _, hout, heither⟩ := h.foldl vs hstart
  rcases heither with heq | hin
  · -- the start is picked only where it is the number
    rw [heq] at hout ⊢
    exact h.antisymm _ _ (hinside x hx) (hout x hmem hx)
  · exact (hall _ hin).resolve_right hnan

theorem maximum_of_only {vs : List FloatVal} {x : FloatVal}
    (h : OnlyNumber vs x) : maximum vs = x := by
  refine picks_max.foldl_only (nofun : FloatVal.negInf ≠ .nan)
    (fun y hy => ?_) h
  cases y <;> first | rfl | exact absurd rfl hy

theorem minimum_of_only {vs : List FloatVal} {x : FloatVal}
    (h : OnlyNumber vs x) : minimum vs = x := by
  refine picks_min.foldl_only (nofun : FloatVal.posInf ≠ .nan)
    (fun y hy => ?_) h
  cases y <;> first | rfl | exact absurd rfl hy

/-- **The greatest is the least** exactly if there is only one number. -/
theorem maximum_eq_minimum_iff (vs : List FloatVal) :
    maximum vs = minimum vs ↔ ∃ x, OnlyNumber vs x := by
  constructor
  · intro heq
    have hmax := picks_max.foldl vs (nofun : FloatVal.negInf ≠ .nan)
    have hmin := picks_min.foldl vs (nofun : FloatVal.posInf ≠ .nan)
    change maximum vs ≠ _ ∧ _ ∧ (∀ v ∈ vs, _ → le v (maximum vs) = true)
      ∧ (maximum vs = _ ∨ maximum vs ∈ vs) at hmax
    change minimum vs ≠ _ ∧ _ ∧ (∀ v ∈ vs, _ → le (minimum vs) v = true)
      ∧ (minimum vs = _ ∨ minimum vs ∈ vs) at hmin
    rw [← heq] at hmin
    obtain ⟨hnan, _, habove, hgreatest⟩ := hmax
    obtain ⟨_, _, hbelow, hleast⟩ := hmin
    refine ⟨maximum vs, hnan, ?_, fun v hv => ?_⟩
    · -- it cannot be both infinities
      rcases hgreatest with hneg | hin
      · rcases hleast with hpos | hin
        · rw [hneg] at hpos
          cases hpos
        · exact hin
      · exact hin
    · -- what lies between two equal numbers is that number
      by_cases hv' : v = .nan
      · exact .inr hv'
      · exact .inl (FloatVal.le_antisymm (habove v hv hv') (hbelow v hv hv'))
  · rintro ⟨x, h⟩
    rw [maximum_of_only h, minimum_of_only h]

end ArgusManager.FloatVal
