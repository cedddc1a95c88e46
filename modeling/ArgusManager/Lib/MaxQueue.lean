/-
  ArgusManager.Lib.MaxQueue
  ─────────────────────────
  **Priority queues by contract.**

  A `MaxQueue` is any implementation of a priority queue whose `peek` and
  `pop` give a maximum of what it holds; the contract speaks of the multiset
  of its items and of nothing else.

    • `popWhile_spec` — popping as long as the maximum satisfies an upward
                        closed predicate takes exactly the items that satisfy
                        it, in descending order,
    • `ofList`        — an implementation: an unsorted list.
-/
import Mathlib.Data.Multiset.Filter
import Mathlib.Data.Multiset.AddSub

/-- A priority queue: `peek` and `pop` give a maximum under `cmp`. -/
structure MaxQueue (α : Type) (cmp : α → α → Ordering) where
  Carrier : Type
  empty : Carrier
  push : α → Carrier → Carrier
  peek : Carrier → Option α
  pop : Carrier → Option (α × Carrier)
  len : Carrier → Nat
  /-- What the queue holds. -/
  items : Carrier → Multiset α
  items_empty : items empty = 0
  items_push : ∀ x q, items (push x q) = x ::ₘ items q
  len_eq : ∀ q, len q = (items q).card
  peek_none : ∀ q, peek q = none → items q = 0
  peek_max : ∀ q x, peek q = some x →
    x ∈ items q ∧ ∀ y ∈ items q, (cmp y x).isLE
  pop_none : ∀ q, pop q = none → items q = 0
  pop_max : ∀ q x q', pop q = some (x, q') →
    items q = x ::ₘ items q' ∧ ∀ y ∈ items q, (cmp y x).isLE

namespace MaxQueue

section Loop

variable {α : Type} {cmp : α → α → Ordering} (Q : MaxQueue α cmp)

/-- `while let Some(x) = peek() { if p(x) { result.push(pop().unwrap()) } else
{ break } }`, at most `fuel` times. -/
def popWhile (p : α → Bool) : Nat → Q.Carrier → List α × Q.Carrier
  | 0, q => ([], q)
  | fuel + 1, q =>
      match Q.peek q with
      | none => ([], q)
      | some x =>
          if p x then
            match Q.pop q with
            | some (y, q') =>
                (y :: (popWhile p fuel q').1, (popWhile p fuel q').2)
            | none => ([], q)  -- nothing is peeked at in an empty queue
          else ([], q)

/-- **The loop takes exactly what satisfies `p`**, greatest first, in as many
passes as the queue has items. -/
theorem popWhile_spec {p : α → Bool}
    (hp : ∀ x y, (cmp x y).isLE → p x = true → p y = true) :
    ∀ (fuel : Nat) (q : Q.Carrier), (Q.items q).card ≤ fuel →
      ((Q.popWhile p fuel q).1 : Multiset α)
          = (Q.items q).filter (fun x => p x = true)
        ∧ Q.items (Q.popWhile p fuel q).2
          = (Q.items q).filter (fun x => ¬ p x = true)
        ∧ (Q.popWhile p fuel q).1.Pairwise (fun x y => (cmp y x).isLE) := by
  -- a loop that takes nothing is right if nothing satisfies `p`
  have hstop : ∀ q : Q.Carrier, (∀ x ∈ Q.items q, ¬ p x = true) →
      (([] : List α) : Multiset α) = (Q.items q).filter (fun x => p x = true)
        ∧ Q.items q = (Q.items q).filter (fun x => ¬ p x = true)
        ∧ ([] : List α).Pairwise (fun x y => (cmp y x).isLE) := by
    intro q hq
    refine ⟨?_, ?_, List.Pairwise.nil⟩
    · exact (Multiset.filter_eq_nil.mpr hq).symm
    · exact (Multiset.filter_eq_self.mpr hq).symm
  have hempty : ∀ q : Q.Carrier, Q.items q = 0 →
      ∀ x ∈ Q.items q, ¬ p x = true := by
    intro q hq x hx
    rw [hq] at hx
    exact absurd hx (Multiset.notMem_zero x)
  intro fuel
  induction fuel with
  | zero =>
      intro q hcard
      exact hstop q (hempty q (Multiset.card_eq_zero.mp
        (Nat.le_zero.mp hcard)))
  | succ fuel ih =>
      intro q hcard
      unfold popWhile
      cases hpeek : Q.peek q with
      | none => exact hstop q (hempty q (Q.peek_none q hpeek))
      | some x =>
          obtain ⟨hx, hmax⟩ := Q.peek_max q x hpeek
          dsimp only
          by_cases hpx : p x = true
          · rw [if_pos hpx]
            cases hpop : Q.pop q with
            | none => exact hstop q (hempty q (Q.pop_none q hpop))
            | some r =>
                obtain ⟨y, q'⟩ := r
                obtain ⟨hitems, hy⟩ := Q.pop_max q y q' hpop
                have hpy : p y = true := hp x y (hy x hx) hpx
                have hcard' : (Q.items q').card ≤ fuel := by
                  rw [hitems, Multiset.card_cons] at hcard
                  omega
                obtain ⟨htaken, hleft, hdesc⟩ := ih q' hcard'
                refine ⟨?_, ?_, ?_⟩
                · rw [hitems, Multiset.filter_cons_of_pos
                    (p := fun x => p x = true) _ hpy, ← htaken]
                  rfl
                · rw [hitems, Multiset.filter_cons_of_neg
                    (p := fun x => ¬ p x = true) _ (not_not.mpr hpy)]
                  exact hleft
                · refine List.pairwise_cons.mpr ⟨?_, hdesc⟩
                  intro z hz
                  -- what is taken later was in the queue all along
                  have hz' : z ∈ (Q.items q').filter
                      (fun x => p x = true) := by
                    rw [← htaken]
                    exact hz
                  refine hy z ?_
                  rw [hitems]
                  exact Multiset.mem_cons_of_mem
                    (Multiset.mem_of_mem_filter hz')
          · rw [if_neg hpx]
            refine hstop q ?_
            intro z hz hpz
            exact hpx (hp z x (hmax z hz) hpz)

end Loop

/-! ## An implementation. -/

section OfList

variable {α : Type} (cmp : α → α → Ordering)

/-- A maximum of a list and the rest of it. -/
def extractMax : List α → Option (α × List α)
  | [] => none
  | x :: xs =>
      match extractMax xs with
      | none => some (x, xs)
      | some (y, ys) =>
          if (cmp x y).isLE then some (y, x :: ys) else some (x, xs)

theorem extractMax_none {xs : List α} (h : extractMax cmp xs = none) :
    xs = [] := by
  cases xs with
  | nil => rfl
  | cons x xs =>
      unfold extractMax at h
      split at h
      next => cases h
      next => split at h <;> cases h

theorem extractMax_spec [Std.TransCmp cmp] :
    ∀ {xs : List α} {x : α} {ys : List α},
      extractMax cmp xs = some (x, ys) →
      xs.Perm (x :: ys) ∧ ∀ y ∈ xs, (cmp y x).isLE
  | [], _, _, h => by cases h
  | z :: xs, x, ys, h => by
      have hself : (cmp z z).isLE := by
        have heq : cmp z z = .eq := Std.ReflCmp.compare_self
        rw [heq]
        rfl
      unfold extractMax at h
      split at h
      next hnone =>
        obtain ⟨rfl, rfl⟩ := Prod.mk.inj (Option.some.inj h)
        rw [extractMax_none cmp hnone]
        refine ⟨.refl _, ?_⟩
        intro y hy
        rw [List.mem_singleton.mp hy]
        exact hself
      next w ws hsome =>
        obtain ⟨hperm, hmax⟩ := extractMax_spec hsome
        split at h
        next hle =>
          obtain ⟨rfl, rfl⟩ := Prod.mk.inj (Option.some.inj h)
          -- the maximum of the rest is one of all
          refine ⟨(hperm.cons z).trans (List.Perm.swap _ _ _), ?_⟩
          intro y hy
          rcases List.mem_cons.mp hy with rfl | hy
          · exact hle
          · exact hmax y hy
        next hle =>
          obtain ⟨rfl, rfl⟩ := Prod.mk.inj (Option.some.inj h)
          refine ⟨.refl _, ?_⟩
          intro y hy
          have hwz : (cmp w z).isLE := by
            have hswap : cmp w z = (cmp z w).swap := Std.OrientedCmp.eq_swap
            rw [hswap]
            cases hzw : cmp z w with
            | lt => exact absurd (by rw [hzw]; rfl) hle
            | eq => exact absurd (by rw [hzw]; rfl) hle
            | gt => rfl
          rcases List.mem_cons.mp hy with rfl | hy
          · exact hself
          · exact Std.TransCmp.isLE_trans (hmax y hy) hwz

/-- An unsorted list as a queue. -/
def ofList [Std.TransCmp cmp] : MaxQueue α cmp where
  Carrier := List α
  empty := []
  push := List.cons
  peek xs := (extractMax cmp xs).map Prod.fst
  pop := extractMax cmp
  len := List.length
  items xs := xs
  items_empty := rfl
  items_push _ _ := rfl
  len_eq _ := rfl
  peek_none xs h := by
    rw [extractMax_none cmp (Option.map_eq_none_iff.mp h)]
    rfl
  peek_max xs x h := by
    obtain ⟨⟨y, ys⟩, hsome, rfl⟩ := Option.map_eq_some_iff.mp h
    obtain ⟨hperm, hmax⟩ := extractMax_spec cmp hsome
    exact ⟨hperm.mem_iff.mpr List.mem_cons_self, hmax⟩
  pop_none xs h := by
    rw [extractMax_none cmp h]
    rfl
  pop_max xs x ys h := by
    obtain ⟨hperm, hmax⟩ := extractMax_spec cmp h
    exact ⟨Multiset.coe_eq_coe.mpr hperm, hmax⟩

end OfList

end MaxQueue
