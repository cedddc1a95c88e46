/-
  ArgusManager.Lib.Changes
  ────────────────────────
  **The changes of a sequence, over any values.**

  A recorder that writes down a value whenever it differs from the one before
  writes the changes of what it sees, each with the value it replaces.

    • `changes`         — them, after a value that may be missing,
    • `changes_concat`  — one more value is one more change or none,
    • `changes_isChain` — each starts where the one before it ended,
    • `changes_getLast` — and the last ends where the sequence does.
-/
import Mathlib.Data.List.Chain
import Mathlib.Data.List.Infix

namespace Changes

variable {α : Type*}

/-- The value after the sequence. -/
def latest (prev : Option α) (xs : List α) : Option α := xs.getLast?.or prev

@[simp] theorem latest_nil (prev : Option α) : latest prev [] = prev := rfl

theorem latest_cons (prev : Option α) (x : α) (xs : List α) :
    latest prev (x :: xs) = latest (some x) xs := by
  unfold latest
  rw [List.getLast?_cons]
  cases xs.getLast? with
  | none => rfl
  | some y => rfl

variable [DecidableEq α]

/-- The changes of a sequence that comes after `prev`. -/
def changes : Option α → List α → List (Option α × α)
  | _, [] => []
  | prev, x :: xs =>
      if prev = some x then changes prev xs
      else (prev, x) :: changes (some x) xs

theorem changes_cons (prev : Option α) (x : α) (xs : List α) :
    changes prev (x :: xs)
      = if prev = some x then changes prev xs
        else (prev, x) :: changes (some x) xs := rfl

theorem changes_append (prev : Option α) (xs ys : List α) :
    changes prev (xs ++ ys)
      = changes prev xs ++ changes (latest prev xs) ys := by
  induction xs generalizing prev with
  | nil => rfl
  | cons x xs ih =>
      rw [List.cons_append, latest_cons, changes_cons, changes_cons]
      by_cases hx : prev = some x
      · rw [if_pos hx, if_pos hx, ih, hx]
      · rw [if_neg hx, if_neg hx, ih, List.cons_append]

/-- **One more value is one more change, unless it is the last one again.** -/
theorem changes_concat (xs : List α) (x : α) :
    changes none (xs ++ [x])
      = changes none xs
        ++ if xs.getLast? = some x then [] else [(xs.getLast?, x)] := by
  rw [changes_append]
  unfold latest
  rw [Option.or_none]
  rfl

/-- A change is one. -/
theorem changes_ne {prev : Option α} {xs : List α} {c : Option α × α}
    (h : c ∈ changes prev xs) : c.1 ≠ some c.2 := by
  induction xs generalizing prev with
  | nil => exact absurd h List.not_mem_nil
  | cons x xs ih =>
      rw [changes_cons] at h
      split at h
      next => exact ih h
      next hx =>
        rcases List.mem_cons.mp h with rfl | h
        · exact hx
        · exact ih h

/-- The first change starts from what was before. -/
theorem changes_head {prev : Option α} {xs : List α} {c : Option α × α}
    (h : (changes prev xs).head? = some c) : c.1 = prev := by
  induction xs with
  | nil => exact absurd h nofun
  | cons x xs ih =>
      rw [changes_cons] at h
      split at h
      next => exact ih h
      next => exact (Option.some.inj h) ▸ rfl

/-- **Each change starts where the one before it ended.** -/
theorem changes_isChain (prev : Option α) (xs : List α) :
    (changes prev xs).IsChain fun c d => d.1 = some c.2 := by
  induction xs generalizing prev with
  | nil => exact List.IsChain.nil
  | cons x xs ih =>
      rw [changes_cons]
      split
      next => exact ih prev
      next =>
        refine List.isChain_cons.mpr ⟨?_, ih (some x)⟩
        intro d hd
        exact changes_head hd

/-- **The last change ends where the sequence does.** -/
theorem changes_getLast (prev : Option α) (xs : List α) :
    ((changes prev xs).getLast?.map Prod.snd).or prev = latest prev xs := by
  induction xs generalizing prev with
  | nil => rfl
  | cons x xs ih =>
      rw [latest_cons, changes_cons]
      split
      next hx => rw [ih prev, hx]
      next =>
        rw [← ih (some x), List.getLast?_cons]
        cases (changes (some x) xs).getLast? with
        | none => rfl
        | some c => rfl

end Changes
