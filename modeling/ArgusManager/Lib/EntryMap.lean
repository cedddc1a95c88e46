/-
  ArgusManager.Lib.EntryMap
  ─────────────────────────
  **Maps that keep the order of insertion, as lists of entries.**

    • `upsert`     — rewrite the value of a key in place, or append an entry,
    • `swapRemove` — drop the entry of a key and move the last one there,
    • `Distinct`   — no key has two entries; both operations keep it.
-/
import Mathlib.Data.List.Nodup
import Mathlib.Data.List.Perm.Basic

namespace EntryMap

variable {κ α : Type*}

/-! ## §1. Operations. -/

def keys (es : List (κ × α)) : List κ := es.map Prod.fst

/-- No key has two entries. -/
def Distinct (es : List (κ × α)) : Prop := (keys es).Nodup

variable [DecidableEq κ]

instance (es : List (κ × α)) : Decidable (Distinct es) :=
  inferInstanceAs (Decidable (List.Nodup _))

/-- Rewrite the value of a key, or append it. -/
def upsert (k : κ) (occupied : α → α) (vacant : α) :
    List (κ × α) → List (κ × α)
  | [] => [(k, vacant)]
  | (j, old) :: es =>
      if j = k then (j, occupied old) :: es
      else (j, old) :: upsert k occupied vacant es

/-- Drop the entry of a key; the last entry takes its place. -/
def swapRemove (k : κ) : List (κ × α) → List (κ × α)
  | [] => []
  | (j, a) :: es =>
      if j = k then
        match es.getLast? with
        | some last => last :: es.dropLast
        | none => []
      else (j, a) :: swapRemove k es

/-! ## §2. Lookups. -/

theorem lookup_eq_none {es : List (κ × α)} {k : κ} :
    es.lookup k = none ↔ k ∉ keys es := by
  induction es with
  | nil => simp [keys]
  | cons e es ih =>
      obtain ⟨j, a⟩ := e
      unfold keys at ih ⊢
      rw [List.lookup_cons, List.map_cons, List.mem_cons]
      by_cases hj : k = j
      · simp [hj]
      · rw [beq_false_of_ne hj, ih]
        simp [hj]

/-- An entry is what the lookup of its key finds. -/
theorem lookup_eq_some {es : List (κ × α)} (h : Distinct es) {k : κ} {a : α} :
    es.lookup k = some a ↔ (k, a) ∈ es := by
  induction es with
  | nil => simp
  | cons e es ih =>
      obtain ⟨j, b⟩ := e
      obtain ⟨hj, hes⟩ := List.nodup_cons.mp h
      rw [List.lookup_cons, List.mem_cons, Prod.mk.injEq]
      by_cases hk : k = j
      · subst hk
        rw [beq_self_eq_true]
        constructor
        · intro heq
          exact .inl ⟨rfl, (Option.some.inj heq).symm⟩
        · rintro (⟨_, rfl⟩ | hmem)
          · rfl
          · exact absurd (List.mem_map_of_mem (f := Prod.fst) hmem) hj
      · rw [beq_false_of_ne hk]
        exact (ih hes).trans (by simp [hk])

@[simp] theorem lookup_upsert (k : κ) (f : α → α) (v : α)
    (es : List (κ × α)) (i : κ) :
    (upsert k f v es).lookup i
      = if i = k then some ((es.lookup k).elim v f) else es.lookup i := by
  induction es with
  | nil =>
      rw [upsert, List.lookup_cons]
      by_cases hi : i = k
      · simp [hi]
      · simp [hi, beq_false_of_ne hi]
  | cons e es ih =>
      obtain ⟨j, a⟩ := e
      rw [upsert]
      by_cases hj : j = k
      · subst hj
        rw [if_pos rfl, List.lookup_cons, List.lookup_cons, List.lookup_cons,
          beq_self_eq_true]
        by_cases hi : i = j
        · simp [hi]
        · simp [hi, beq_false_of_ne hi]
      · rw [if_neg hj, List.lookup_cons, List.lookup_cons, List.lookup_cons, ih,
          beq_false_of_ne (Ne.symm hj)]
        by_cases hi : i = j
        · subst hi
          simp [hj]
        · rw [beq_false_of_ne hi]

/-! ## §3. Entries. -/

theorem keys_upsert (k : κ) (f : α → α) (v : α) (es : List (κ × α)) :
    keys (upsert k f v es)
      = if k ∈ keys es then keys es else keys es ++ [k] := by
  induction es with
  | nil => simp [keys, upsert]
  | cons e es ih =>
      obtain ⟨j, a⟩ := e
      unfold keys at ih ⊢
      rw [upsert, List.map_cons]
      by_cases hj : j = k
      · simp [hj]
      · rw [if_neg hj, List.map_cons, ih]
        by_cases hk : k ∈ es.map Prod.fst
        · simp [hk]
        · simp [hk, Ne.symm hj]

theorem Distinct.upsert {es : List (κ × α)} (h : Distinct es) (k : κ)
    (f : α → α) (v : α) : Distinct (upsert k f v es) := by
  unfold Distinct
  rw [keys_upsert]
  by_cases hk : k ∈ keys es
  · rw [if_pos hk]
    exact h
  · rw [if_neg hk]
    exact List.nodup_append'.mpr ⟨h, List.nodup_singleton k, by simpa using hk⟩

/-- An entry afterwards was one before, or is the entry of the key. -/
theorem mem_upsert {k : κ} {f : α → α} {v : α} {es : List (κ × α)}
    {e : κ × α} (h : e ∈ upsert k f v es) :
    e ∈ es ∨ e.2 = v ∨ ∃ old, (k, old) ∈ es ∧ e.2 = f old := by
  induction es with
  | nil =>
      rw [List.mem_singleton.mp h]
      exact .inr (.inl rfl)
  | cons x es ih =>
      obtain ⟨j, a⟩ := x
      rw [upsert] at h
      by_cases hj : j = k
      · subst hj
        rw [if_pos rfl] at h
        rcases List.mem_cons.mp h with rfl | h
        · exact .inr (.inr ⟨a, List.mem_cons_self, rfl⟩)
        · exact .inl (List.mem_cons_of_mem _ h)
      · rw [if_neg hj] at h
        rcases List.mem_cons.mp h with rfl | h
        · exact .inl List.mem_cons_self
        · rcases ih h with h | h | ⟨old, hmem, h⟩
          · exact .inl (List.mem_cons_of_mem _ h)
          · exact .inr (.inl h)
          · exact .inr (.inr ⟨old, List.mem_cons_of_mem _ hmem, h⟩)

/-- Rewriting a value to itself changes nothing. -/
theorem upsert_of_fixed {k : κ} {f : α → α} {v old : α} {es : List (κ × α)}
    (h : es.lookup k = some old) (hf : f old = old) :
    upsert k f v es = es := by
  induction es with
  | nil => cases h
  | cons e es ih =>
      obtain ⟨j, a⟩ := e
      rw [upsert]
      rw [List.lookup_cons] at h
      by_cases hj : j = k
      · subst hj
        rw [beq_self_eq_true] at h
        rw [if_pos rfl, Option.some.inj h, hf]
      · rw [beq_false_of_ne (Ne.symm hj)] at h
        rw [if_neg hj, ih h]

theorem upsert_of_vacant {k : κ} {f : α → α} {v : α} {es : List (κ × α)}
    (h : k ∉ keys es) : upsert k f v es = es ++ [(k, v)] := by
  induction es with
  | nil => rfl
  | cons e es ih =>
      obtain ⟨j, a⟩ := e
      unfold keys at ih h
      rw [List.map_cons, List.mem_cons, not_or] at h
      rw [upsert, if_neg (Ne.symm h.1), ih h.2, List.cons_append]

/-- **What is removed is one entry**, whatever the order of the others. -/
theorem swapRemove_perm {k : κ} {a : α} {es : List (κ × α)}
    (h : es.lookup k = some a) : es.Perm ((k, a) :: swapRemove k es) := by
  induction es with
  | nil => cases h
  | cons e es ih =>
      obtain ⟨j, b⟩ := e
      rw [List.lookup_cons] at h
      rw [swapRemove]
      by_cases hj : j = k
      · subst hj
        rw [beq_self_eq_true] at h
        rw [if_pos rfl, Option.some.inj h]
        refine List.Perm.cons _ ?_
        -- the last entry comes first now
        rcases List.eq_nil_or_concat es with rfl | ⟨init, last, rfl⟩
        · exact .nil
        · rw [List.concat_eq_append, List.getLast?_append, List.dropLast_concat]
          exact List.perm_append_singleton last init
      · rw [beq_false_of_ne (Ne.symm hj)] at h
        rw [if_neg hj]
        exact ((ih h).cons _).trans (List.Perm.swap ..)

theorem swapRemove_of_absent {k : κ} {es : List (κ × α)}
    (h : es.lookup k = none) : swapRemove k es = es := by
  induction es with
  | nil => rfl
  | cons e es ih =>
      obtain ⟨j, b⟩ := e
      rw [List.lookup_cons] at h
      by_cases hj : k = j
      · subst hj
        rw [beq_self_eq_true] at h
        cases h
      · rw [beq_false_of_ne hj] at h
        rw [swapRemove, if_neg (Ne.symm hj), ih h]

theorem Distinct.swapRemove {es : List (κ × α)} (h : Distinct es) (k : κ) :
    Distinct (swapRemove k es) := by
  cases hk : es.lookup k with
  | none =>
      rw [swapRemove_of_absent hk]
      exact h
  | some a =>
      exact (List.nodup_cons.mp
        (((swapRemove_perm hk).map Prod.fst).nodup_iff.mp h)).2

theorem mem_of_mem_swapRemove {k : κ} {es : List (κ × α)} {e : κ × α}
    (h : e ∈ swapRemove k es) : e ∈ es := by
  cases hk : es.lookup k with
  | none =>
      rw [swapRemove_of_absent hk] at h
      exact h
  | some a =>
      exact (swapRemove_perm hk).mem_iff.mpr (List.mem_cons_of_mem _ h)

/-- **A removed key is gone**, and every other one stays. -/
theorem lookup_swapRemove {es : List (κ × α)} (h : Distinct es) (k j : κ) :
    (swapRemove k es).lookup j = if j = k then none else es.lookup j := by
  by_cases hj : j = k
  · subst hj
    rw [if_pos rfl, lookup_eq_none]
    cases hk : es.lookup j with
    | none =>
        rw [swapRemove_of_absent hk]
        exact lookup_eq_none.mp hk
    | some a =>
        exact (List.nodup_cons.mp
          (((swapRemove_perm hk).map Prod.fst).nodup_iff.mp h)).1
  · rw [if_neg hj]
    refine Option.ext fun a => ?_
    rw [lookup_eq_some (h.swapRemove k), lookup_eq_some h]
    constructor
    · exact mem_of_mem_swapRemove
    · intro hmem
      cases hk : es.lookup k with
      | none =>
          rw [swapRemove_of_absent hk]
          exact hmem
      | some b =>
          -- an entry with another key is not the one removed
          rcases List.mem_cons.mp ((swapRemove_perm hk).mem_iff.mp hmem) with
            heq | hmem
          · exact absurd (congrArg Prod.fst heq) hj
          · exact hmem

end EntryMap
