/-
  ArgusManager.Lib.Relaxed
  ────────────────────────
  **An atomic variable under relaxed memory order**, with one thread that
  stores to it and one that loads it.

  Relaxed order promises coherence and no more: the stores have one order, and
  a later load never reads an earlier store than the load before it.  Loads of
  two variables may disagree about which store came first.  How many stores a
  load looks ahead is part of the input, so a theorem about every input is a
  theorem about every execution in which a load reads a store made before it.

    • `after_mem`  — behind the initial value a load reads a store,
    • `Sampled`    — a sequence of loads reads stores in their order,
    • `load_fresh` — a load that looks far enough reads the latest.
-/
import Mathlib.Data.List.GetD
import Mathlib.Order.Nat

/-- The stores so far, and how many of them the loads have got past. -/
structure Relaxed (α : Type*) where
  initial : α
  stores : List α
  seen : Nat
  seen_le : seen ≤ stores.length

namespace Relaxed

variable {α : Type*}

/-! ## §1. The operations. -/

def new (v : α) : Relaxed α := ⟨v, [], 0, Nat.le_refl 0⟩

/-- The value after so many stores. -/
def after (c : Relaxed α) (i : Nat) : α :=
  (c.initial :: c.stores).getD i c.initial

def store (v : α) (c : Relaxed α) : Relaxed α where
  initial := c.initial
  stores := c.stores ++ [v]
  seen := c.seen
  seen_le := by
    rw [List.length_append]
    exact Nat.le_add_right_of_le c.seen_le

/-- A load that looks so many stores ahead, or as many as there are. -/
def load (ahead : Nat) (c : Relaxed α) : Relaxed α × α :=
  let i := min (c.seen + ahead) c.stores.length
  ({ c with seen := i, seen_le := Nat.min_le_right _ _ }, c.after i)

@[simp] theorem store_stores (v : α) (c : Relaxed α) :
    (c.store v).stores = c.stores ++ [v] := rfl
@[simp] theorem store_seen (v : α) (c : Relaxed α) :
    (c.store v).seen = c.seen := rfl
@[simp] theorem load_stores (ahead : Nat) (c : Relaxed α) :
    (c.load ahead).1.stores = c.stores := rfl
@[simp] theorem load_after (ahead : Nat) (c : Relaxed α) :
    (c.load ahead).1.after = c.after := rfl
theorem load_value (ahead : Nat) (c : Relaxed α) :
    (c.load ahead).2 = c.after (c.load ahead).1.seen := rfl

theorem after_zero (c : Relaxed α) : c.after 0 = c.initial := rfl

/-- Later stores leave the earlier values. -/
theorem after_store {c : Relaxed α} (v : α) {i : Nat}
    (h : i ≤ c.stores.length) : (c.store v).after i = c.after i := by
  show (c.initial :: (c.stores ++ [v])).getD i c.initial
    = (c.initial :: c.stores).getD i c.initial
  rw [← List.cons_append]
  refine List.getD_append _ _ _ _ ?_
  rw [List.length_cons]
  omega

theorem after_mem {c : Relaxed α} {i : Nat} (hi : 0 < i)
    (h : i ≤ c.stores.length) : c.after i ∈ c.stores := by
  obtain ⟨k, rfl⟩ : ∃ k, i = k + 1 := ⟨i - 1, by omega⟩
  show c.stores.getD k c.initial ∈ c.stores
  rw [List.getD_eq_getElem _ _ (by omega)]
  exact List.getElem_mem _

/-- The value after all stores is the last one. -/
theorem getLast?_stores {c : Relaxed α} (h : 0 < c.stores.length) :
    c.stores.getLast? = some (c.after c.stores.length) := by
  obtain ⟨k, hk⟩ : ∃ k, c.stores.length = k + 1 :=
    ⟨c.stores.length - 1, by omega⟩
  rw [List.getLast?_eq_getElem?, hk]
  show c.stores[k]? = some (c.stores.getD k c.initial)
  rw [List.getD_eq_getElem _ _ (by omega)]
  exact List.getElem?_eq_getElem (by omega)

/-- Loads do not go back. -/
theorem le_load (ahead : Nat) (c : Relaxed α) :
    c.seen ≤ (c.load ahead).1.seen :=
  Nat.le_min.mpr ⟨Nat.le_add_right _ _, c.seen_le⟩

/-- A load that looks far enough has seen all stores. -/
theorem load_fresh {ahead : Nat} {c : Relaxed α}
    (h : c.stores.length ≤ ahead) :
    (c.load ahead).1.seen = c.stores.length := by
  show min (c.seen + ahead) c.stores.length = _
  omega

/-! ## §2. A sequence of loads. -/

/-- These loads have read stores in their order. -/
def Sampled (c : Relaxed α) (vs : List α) : Prop :=
  ∃ is : List Nat, is.Pairwise (· ≤ ·) ∧ (∀ i ∈ is, i ≤ c.seen)
    ∧ vs = is.map c.after

theorem sampled_nil (c : Relaxed α) : Sampled c [] :=
  ⟨[], .nil, fun _ h => absurd h List.not_mem_nil, rfl⟩

theorem Sampled.store {c : Relaxed α} {vs : List α} (h : Sampled c vs)
    (v : α) : Sampled (c.store v) vs := by
  obtain ⟨is, hsorted, hle, rfl⟩ := h
  refine ⟨is, hsorted, hle, ?_⟩
  refine List.map_congr_left fun i hi => ?_
  exact (after_store v ((hle i hi).trans c.seen_le)).symm

theorem Sampled.load {c : Relaxed α} {vs : List α} (h : Sampled c vs)
    (ahead : Nat) :
    Sampled (c.load ahead).1 (vs ++ [(c.load ahead).2]) := by
  obtain ⟨is, hsorted, hle, rfl⟩ := h
  have hmono := le_load ahead c
  refine ⟨is ++ [(c.load ahead).1.seen], ?_, ?_, ?_⟩
  · rw [List.pairwise_append]
    refine ⟨hsorted, List.pairwise_singleton _ _, ?_⟩
    intro i hi j hj
    rw [List.mem_singleton.mp hj]
    exact (hle i hi).trans hmono
  · intro i hi
    rcases List.mem_append.mp hi with hi | hi
    · exact (hle i hi).trans hmono
    · exact (List.mem_singleton.mp hi).le
  · rw [List.map_append, load_after, load_value]
    rfl

end Relaxed
