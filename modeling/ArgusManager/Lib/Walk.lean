/-
  ArgusManager.Lib.Walk
  ─────────────────────
  **Walks along a partial function that remember where they were.**

    • `nth`       — where a walk is after so many steps, if it gets there,
    • `Hits`      — the walk comes to a place it was at, or that was seen
                    before it began,
    • `Visits`    — the walk comes to a place before any that was seen,
    • `hits_step` — one step of a walk moves its start to what was seen.
-/
import Mathlib.Data.Set.Insert

namespace Walk

variable {α : Type*} (next : α → Option α)

/-- Where the walk from `a` is after `n` steps. -/
def nth (a : α) : ℕ → Option α
  | 0 => some a
  | n + 1 => (nth a n).bind next

@[simp] theorem nth_zero (a : α) : nth next a 0 = some a := rfl

/-- The first step first. -/
theorem nth_succ (a : α) (n : ℕ) :
    nth next a (n + 1) = (next a).bind fun b => nth next b n := by
  induction n with
  | zero => cases h : next a <;> simp [nth, h]
  | succ n ih =>
      rw [nth, ih]
      cases next a <;> rfl

theorem nth_succ_of_next {a b : α} (h : next a = some b) (n : ℕ) :
    nth next a (n + 1) = nth next b n := by
  rw [nth_succ, h]
  rfl

theorem nth_succ_of_end {a : α} (h : next a = none) (n : ℕ) :
    nth next a (n + 1) = none := by
  rw [nth_succ, h]
  rfl

/-- The walk comes back to a place, or to one seen before. -/
def Hits (seen : Set α) (a : α) : Prop :=
  ∃ n x, nth next a n = some x
    ∧ (x ∈ seen ∨ ∃ i < n, nth next a i = some x)

variable {next}

theorem hits_of_mem {seen : Set α} {a : α} (h : a ∈ seen) :
    Hits next seen a :=
  ⟨0, a, rfl, .inl h⟩

/-- A walk that ends at once hits nothing else. -/
theorem not_hits_of_end {seen : Set α} {a : α} (hend : next a = none)
    (h : a ∉ seen) : ¬ Hits next seen a := by
  rintro ⟨n, x, hx, hseen⟩
  cases n with
  | zero =>
      rw [nth_zero] at hx
      rcases hseen with hmem | ⟨i, hi, _⟩
      · exact h (Option.some.inj hx ▸ hmem)
      · exact absurd hi (by omega)
  | succ n =>
      rw [nth_succ_of_end next hend] at hx
      cases hx

/-- **One step of a walk**: its start is now one of the places seen. -/
theorem hits_step {seen : Set α} {a b : α} (hstep : next a = some b)
    (h : a ∉ seen) : Hits next seen a ↔ Hits next (insert a seen) b := by
  constructor
  · rintro ⟨n, x, hx, hseen⟩
    cases n with
    | zero =>
        -- the start was not seen, and nothing comes before it
        rw [nth_zero] at hx
        rcases hseen with hmem | ⟨i, hi, _⟩
        · exact absurd (Option.some.inj hx ▸ hmem) h
        · exact absurd hi (by omega)
    | succ n =>
        rw [nth_succ_of_next next hstep] at hx
        refine ⟨n, x, hx, ?_⟩
        rcases hseen with hmem | ⟨i, hi, hix⟩
        · exact .inl (Set.mem_insert_of_mem a hmem)
        · cases i with
          | zero =>
              -- the walk is back at its start, which is seen by now
              rw [nth_zero] at hix
              exact .inl (Option.some.inj hix ▸ Set.mem_insert a seen)
          | succ i =>
              rw [nth_succ_of_next next hstep] at hix
              exact .inr ⟨i, by omega, hix⟩
  · rintro ⟨n, x, hx, hseen⟩
    refine ⟨n + 1, x, (nth_succ_of_next next hstep n).trans hx, ?_⟩
    rcases hseen with hmem | ⟨i, hi, hix⟩
    · rcases Set.mem_insert_iff.mp hmem with rfl | hmem
      · exact .inr ⟨0, by omega, rfl⟩
      · exact .inl hmem
    · exact .inr ⟨i + 1, by omega, (nth_succ_of_next next hstep i).trans hix⟩

/-- The walk comes to `x`, and to nothing seen on the way. -/
def Visits (next : α → Option α) (seen : Set α) (a x : α) : Prop :=
  ∃ n, nth next a n = some x
    ∧ ∀ i ≤ n, ∀ y, nth next a i = some y → y ∉ seen

theorem visits_start {seen : Set α} {a : α} (h : a ∉ seen) :
    Visits next seen a a := by
  refine ⟨0, rfl, fun i hi y hy => ?_⟩
  obtain rfl := Nat.le_zero.mp hi
  rw [nth_zero] at hy
  exact Option.some.inj hy ▸ h

/-- What the rest of a walk visits, the walk does. -/
theorem visits_step {seen : Set α} {a b x : α} (hstep : next a = some b)
    (h : a ∉ seen) (hvisit : Visits next (insert a seen) b x) :
    Visits next seen a x := by
  obtain ⟨n, hx, hfresh⟩ := hvisit
  refine ⟨n + 1, (nth_succ_of_next next hstep n).trans hx, ?_⟩
  intro i hi y hy
  cases i with
  | zero =>
      rw [nth_zero] at hy
      exact Option.some.inj hy ▸ h
  | succ i =>
      rw [nth_succ_of_next next hstep] at hy
      exact fun hmem =>
        hfresh i (by omega) y hy (Set.mem_insert_of_mem a hmem)

end Walk
