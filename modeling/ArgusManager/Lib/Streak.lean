/-
  ArgusManager.Lib.Streak
  ───────────────────────
  **Letters in a row.**

  A counter that a good letter resets and a bad letter increments knows how
  long a run of bad letters the word ends in; a latch set when the counter
  reaches a threshold knows whether the word ever held such a run.

    • `trailing`     — the run a word ends in,
    • `Holds`        — the word holds `k` such letters in a row somewhere,
    • `holds_concat` — and when one more letter makes it so.
-/
import Mathlib.Data.List.Infix

namespace Streak

variable {α : Type*} (p : α → Bool)

/-- How many letters with `p` the word ends in. -/
def trailing (w : List α) : Nat :=
  w.foldl (fun n a => if p a then n + 1 else 0) 0

/-- The word holds `k` letters with `p` in a row. -/
def Holds (k : Nat) (w : List α) : Prop :=
  ∃ r, r <:+: w ∧ r.length = k ∧ ∀ a ∈ r, p a = true

@[simp] theorem trailing_nil : trailing p ([] : List α) = 0 := rfl

theorem trailing_concat (w : List α) (a : α) :
    trailing p (w ++ [a]) = if p a then trailing p w + 1 else 0 := by
  unfold trailing
  rw [List.foldl_append]
  rfl

theorem holds_nil {k : Nat} : ¬ Holds p (k + 1) ([] : List α) := by
  rintro ⟨r, hr, hlen, _⟩
  rw [List.eq_nil_of_infix_nil hr] at hlen
  exact absurd hlen (by simp)

variable {p}

/-- A suffix of letters with `p` extends over one more such letter. -/
private theorem suffix_run_concat {k : Nat} {w : List α} {a : α} :
    (∃ r, r <:+ w ++ [a] ∧ r.length = k + 1 ∧ ∀ b ∈ r, p b = true)
      ↔ p a = true ∧ ∃ r, r <:+ w ∧ r.length = k ∧ ∀ b ∈ r, p b = true := by
  constructor
  · rintro ⟨r, hr, hlen, hall⟩
    rcases List.suffix_concat_iff.mp hr with rfl | ⟨r, rfl, hw⟩
    · exact absurd hlen (by simp)
    · refine ⟨hall a (by simp), r, hw, by simpa using hlen, ?_⟩
      intro b hb
      exact hall b (List.mem_append_left _ hb)
  · rintro ⟨ha, r, hr, hlen, hall⟩
    refine ⟨r ++ [a], List.suffix_concat_iff.mpr (.inr ⟨r, rfl, hr⟩),
      by simp [hlen], ?_⟩
    intro b hb
    rcases List.mem_append.mp hb with hb | hb
    · exact hall b hb
    · rw [List.mem_singleton.mp hb]
      exact ha

/-- The counter knows the run the word ends in. -/
theorem le_trailing_iff {k : Nat} {w : List α} :
    k ≤ trailing p w ↔ ∃ r, r <:+ w ∧ r.length = k ∧ ∀ a ∈ r, p a = true := by
  induction w using List.reverseRecOn generalizing k with
  | nil =>
      constructor
      · intro h
        exact ⟨[], List.suffix_refl _, (Nat.le_zero.mp h).symm, by simp⟩
      · rintro ⟨r, hr, hlen, _⟩
        rw [List.eq_nil_of_suffix_nil hr] at hlen
        exact hlen ▸ Nat.le_refl 0
  | append_singleton w a ih =>
      rw [trailing_concat]
      cases k with
      | zero => exact iff_of_true (Nat.zero_le _) ⟨[], by simp⟩
      | succ k =>
          rw [suffix_run_concat, ← ih]
          by_cases ha : p a = true
          · simp [ha]
          · simp [ha]

/-- **One more letter completes a run** exactly when it extends a trailing run
that was one short. -/
theorem holds_concat {k : Nat} {w : List α} {a : α} :
    Holds p (k + 1) (w ++ [a])
      ↔ Holds p (k + 1) w ∨ (p a = true ∧ k ≤ trailing p w) := by
  rw [le_trailing_iff, ← suffix_run_concat]
  unfold Holds
  constructor
  · rintro ⟨r, hr, h⟩
    rcases List.infix_concat_iff.mp hr with hr | hr
    · exact .inr ⟨r, hr, h⟩
    · exact .inl ⟨r, hr, h⟩
  · rintro (⟨r, hr, h⟩ | ⟨r, hr, h⟩)
    · exact ⟨r, List.infix_concat_iff.mpr (.inr hr), h⟩
    · exact ⟨r, hr.isInfix, h⟩

end Streak
