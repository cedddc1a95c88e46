/-
  ArgusManager.Lib.Agenda
  ───────────────────────
  **Agendas: lists kept in the order of a key, first come first served.**

  An entry is put behind all entries with the same key, so an agenda is a
  priority queue that breaks ties by age.

    • `filter_insertAll`  — a part of an agenda is the agenda of that part,
    • `due_eq`, `rest_eq` — what is due at a time, and what is not,
    • `instants`          — the members of an arithmetic progression up to a
                            bound; cut at a time they are two such lists
                            (`instants_until`, `instants_after`).
-/
import Mathlib.Data.List.Sort
import Mathlib.Data.List.Range
import Mathlib.Order.Basic

namespace Agenda

/-! ## §1. Insertion. -/

section Insertion

variable {α τ : Type*} [LinearOrder τ] (key : α → τ)

/-- In the order of the key. -/
def Sorted (q : List α) : Prop := q.Pairwise fun x y => key x ≤ key y

/-- Put an entry behind those with the same key. -/
def insert (x : α) (q : List α) : List α :=
  q.orderedInsert (fun x y => key x < key y) x

def insertAll (q xs : List α) : List α :=
  xs.foldl (fun q x => insert key x q) q

theorem insert_before {x y : α} (h : key x < key y) (q : List α) :
    insert key x (y :: q) = x :: y :: q :=
  List.orderedInsert_cons_of_le (fun x y => key x < key y) q h

theorem insert_behind {x y : α} (h : ¬ key x < key y) (q : List α) :
    insert key x (y :: q) = y :: insert key x q :=
  List.orderedInsert_of_not_le (fun x y => key x < key y) q h

@[simp] theorem insertAll_nil (q : List α) : insertAll key q [] = q := rfl

@[simp] theorem insertAll_cons (q : List α) (x : α) (xs : List α) :
    insertAll key q (x :: xs) = insertAll key (insert key x q) xs := rfl

theorem perm_insert (x : α) (q : List α) : (insert key x q).Perm (x :: q) :=
  List.perm_orderedInsert _ x q

theorem perm_insertAll (q xs : List α) :
    (insertAll key q xs).Perm (q ++ xs) := by
  induction xs generalizing q with
  | nil =>
      rw [List.append_nil]
      exact .refl _
  | cons x xs ih =>
      refine (ih (insert key x q)).trans ?_
      exact ((perm_insert key x q).append_right xs).trans
        List.perm_middle.symm

theorem sorted_insert (x : α) {q : List α} (h : Sorted key q) :
    Sorted key (insert key x q) := by
  induction q with
  | nil => exact List.pairwise_singleton _ _
  | cons y q ih =>
      obtain ⟨hy, hq⟩ := List.pairwise_cons.mp h
      by_cases hxy : key x < key y
      · rw [insert_before key hxy]
        refine List.pairwise_cons.mpr ⟨?_, h⟩
        intro z hz
        rcases List.mem_cons.mp hz with rfl | hz
        · exact le_of_lt hxy
        · exact le_of_lt (lt_of_lt_of_le hxy (hy z hz))
      · rw [insert_behind key hxy]
        refine List.pairwise_cons.mpr ⟨?_, ih hq⟩
        intro z hz
        rcases (List.mem_orderedInsert _).mp hz with rfl | hz
        · exact not_lt.mp hxy
        · exact hy z hz

/-- An entry that comes before a whole agenda goes to its front. -/
theorem insert_front {x : α} {q : List α} (h : ∀ y ∈ q, key x < key y) :
    insert key x q = x :: q := by
  cases q with
  | nil => rfl
  | cons y q =>
      exact insert_before key (h y List.mem_cons_self) q

/-- **A part of an agenda is the agenda of that part.** -/
theorem filter_insert (p : α → Bool) (x : α) {q : List α}
    (h : Sorted key q) :
    (insert key x q).filter p
      = if p x then insert key x (q.filter p) else q.filter p := by
  induction q with
  | nil => cases hx : p x <;> simp [insert, hx]
  | cons y q ih =>
      obtain ⟨hy, hq⟩ := List.pairwise_cons.mp h
      have ih := ih hq
      by_cases hxy : key x < key y
      · rw [insert_before key hxy, List.filter_cons]
        split
        next =>
          -- everything kept comes later than `x`
          refine (insert_front key ?_).symm
          intro z hz
          rcases List.mem_cons.mp (List.mem_filter.mp hz).1 with rfl | hz
          · exact hxy
          · exact lt_of_lt_of_le hxy (hy z hz)
        next => rfl
      · rw [insert_behind key hxy]
        cases hpy : p y with
        | true =>
            rw [List.filter_cons_of_pos hpy, List.filter_cons_of_pos hpy, ih]
            split
            next => rw [insert_behind key hxy]
            next => rfl
        | false =>
            have hpy' : ¬ p y = true := by
              rw [hpy]
              simp
            rw [List.filter_cons_of_neg hpy', List.filter_cons_of_neg hpy',
              ih]

theorem filter_insertAll (p : α → Bool) (xs : List α) {q : List α}
    (h : Sorted key q) :
    (insertAll key q xs).filter p
      = insertAll key (q.filter p) (xs.filter p) := by
  induction xs generalizing q with
  | nil => rfl
  | cons x xs ih =>
      rw [insertAll_cons, ih (sorted_insert key x h), filter_insert key p x h,
        List.filter_cons]
      split
      next => rfl
      next => rfl

/-! ## §2. What is due. -/

/-- The entries that are due at `t`. -/
def due (t : τ) (q : List α) : List α := q.takeWhile fun x => key x ≤ t

/-- The entries that are not. -/
def rest (t : τ) (q : List α) : List α := q.dropWhile fun x => key x ≤ t

theorem due_eq (t : τ) {q : List α} (h : Sorted key q) :
    due key t q = q.filter fun x => key x ≤ t := by
  unfold due
  induction q with
  | nil => rfl
  | cons x q ih =>
      obtain ⟨hx, hq⟩ := List.pairwise_cons.mp h
      by_cases hxt : key x ≤ t
      · rw [List.takeWhile_cons_of_pos (by simpa using hxt), ih hq,
          List.filter_cons_of_pos (by simpa using hxt)]
      · rw [List.takeWhile_cons_of_neg (by simpa using hxt),
          List.filter_cons_of_neg (by simpa using hxt)]
        refine (List.filter_eq_nil_iff.mpr ?_).symm
        intro y hy
        have hlt := lt_of_lt_of_le (not_le.mp hxt) (hx y hy)
        simpa using hlt

theorem rest_eq (t : τ) {q : List α} (h : Sorted key q) :
    rest key t q = q.filter fun x => t < key x := by
  unfold rest
  induction q with
  | nil => rfl
  | cons x q ih =>
      obtain ⟨hx, hq⟩ := List.pairwise_cons.mp h
      by_cases hxt : key x ≤ t
      · rw [List.dropWhile_cons_of_pos (by simpa using hxt), ih hq,
          List.filter_cons_of_neg (by simpa using hxt)]
      · rw [List.dropWhile_cons_of_neg (by simpa using hxt)]
        refine (List.filter_eq_self.mpr ?_).symm
        intro y hy
        have hlt := not_le.mp hxt
        rcases List.mem_cons.mp hy with rfl | hy
        · simpa using hlt
        · simpa using lt_of_lt_of_le hlt (hx y hy)

end Insertion

/-! ## §3. Periodic instants. -/

/-- `first, first + period, …`, as far as `bound`. -/
def instants (first period bound : Nat) : List Nat :=
  if first ≤ bound then
    (List.range ((bound - first) / period + 1)).map fun k =>
      first + k * period
  else []

variable {first period bound : Nat}

theorem mem_instants (hp : 0 < period) {t : Nat} :
    t ∈ instants first period bound
      ↔ t ≤ bound ∧ ∃ k, t = first + k * period := by
  unfold instants
  by_cases hf : first ≤ bound
  · rw [if_pos hf, List.mem_map]
    constructor
    · rintro ⟨k, hk, rfl⟩
      have hk := Nat.lt_succ_iff.mp (List.mem_range.mp hk)
      have hmul := (Nat.le_div_iff_mul_le hp).mp hk
      exact ⟨by omega, k, rfl⟩
    · rintro ⟨hle, k, rfl⟩
      refine ⟨k, List.mem_range.mpr (Nat.lt_succ_of_le ?_), rfl⟩
      exact (Nat.le_div_iff_mul_le hp).mpr (by omega)
  · rw [if_neg hf]
    refine iff_of_false List.not_mem_nil ?_
    rintro ⟨hle, k, rfl⟩
    omega

theorem instants_sorted (hp : 0 < period) :
    (instants first period bound).Pairwise (· < ·) := by
  unfold instants
  split
  next =>
    refine List.pairwise_map.mpr (List.pairwise_lt_range.imp ?_)
    intro j k hjk
    have := Nat.mul_lt_mul_of_pos_right hjk hp
    omega
  next => exact List.Pairwise.nil

/-- Increasing lists with the same members are the same. -/
theorem eq_of_increasing {xs ys : List Nat} (hx : xs.Pairwise (· < ·))
    (hy : ys.Pairwise (· < ·)) (h : ∀ t, t ∈ xs ↔ t ∈ ys) : xs = ys := by
  have hperm : xs.Perm ys :=
    (List.perm_ext_iff_of_nodup (hx.imp fun h => Nat.ne_of_lt h)
      (hy.imp fun h => Nat.ne_of_lt h)).mpr h
  exact hperm.eq_of_pairwise (fun a b _ _ hab hba => by omega) hx hy

/-- The first member of the progression after `t`. -/
def nextAfter (first period t : Nat) : Nat :=
  if t < first then first else first + ((t - first) / period + 1) * period

theorem lt_nextAfter (hp : 0 < period) (t : Nat) :
    t < nextAfter first period t := by
  unfold nextAfter
  split
  next h => exact h
  next h =>
    have := Nat.lt_mul_div_succ (t - first) hp
    rw [Nat.mul_comm] at this
    omega

/-- **The members after `t` are the progression from the first of them.** -/
theorem after_iff (hp : 0 < period) {t u : Nat} :
    (t < u ∧ ∃ k, u = first + k * period)
      ↔ ∃ k, u = nextAfter first period t + k * period := by
  have hnext : t < nextAfter first period t := lt_nextAfter hp t
  unfold nextAfter at hnext ⊢
  split at hnext
  next h =>
    rw [if_pos h]
    constructor
    · exact fun hu => hu.2
    · rintro ⟨k, rfl⟩
      exact ⟨by omega, k, rfl⟩
  next h =>
    rw [if_neg h]
    constructor
    · rintro ⟨hlt, k, rfl⟩
      -- the multiple lies past the quotient
      have hk : (t - first) / period + 1 ≤ k := by
        refine Nat.succ_le_of_lt ((Nat.div_lt_iff_lt_mul hp).mpr ?_)
        omega
      refine ⟨k - ((t - first) / period + 1), ?_⟩
      rw [Nat.add_assoc, ← Nat.add_mul]
      rw [Nat.add_sub_of_le hk]
    · rintro ⟨k, rfl⟩
      refine ⟨by omega, (t - first) / period + 1 + k, ?_⟩
      rw [Nat.add_mul _ k, Nat.add_assoc]

theorem instants_until (hp : 0 < period) {t : Nat} (h : t ≤ bound) :
    (instants first period bound).filter (· ≤ t)
      = instants first period t := by
  refine eq_of_increasing ((instants_sorted hp).filter _) (instants_sorted hp)
    fun u => ?_
  rw [List.mem_filter, mem_instants hp, mem_instants hp, decide_eq_true_iff]
  constructor
  · rintro ⟨⟨_, hk⟩, hu⟩
    exact ⟨hu, hk⟩
  · rintro ⟨hu, hk⟩
    exact ⟨⟨Nat.le_trans hu h, hk⟩, hu⟩

theorem instants_after (hp : 0 < period) (t : Nat) :
    (instants first period bound).filter (t < ·)
      = instants (nextAfter first period t) period bound := by
  refine eq_of_increasing ((instants_sorted hp).filter _) (instants_sorted hp)
    fun u => ?_
  rw [List.mem_filter, mem_instants hp, mem_instants hp, decide_eq_true_iff,
    ← after_iff hp]
  constructor
  · rintro ⟨⟨hb, hk⟩, ht⟩
    exact ⟨hb, ht, hk⟩
  · rintro ⟨hb, ht, hk⟩
    exact ⟨⟨hb, hk⟩, ht⟩

/-- Two progressions of one period have the same members as far as a bound
exactly if they start together or both start past it. -/
theorem instants_inj (hp : 0 < period) {first' : Nat} :
    instants first period bound = instants first' period bound
      ↔ first = first' ∨ (bound < first ∧ bound < first') := by
  -- the first member is the least
  have hmem : ∀ f, f ≤ bound → f ∈ instants f period bound := fun f hf =>
    (mem_instants hp).mpr ⟨hf, 0, by simp⟩
  have hleast : ∀ f, ∀ t ∈ instants f period bound, f ≤ t := by
    intro f t ht
    obtain ⟨_, k, rfl⟩ := (mem_instants hp).mp ht
    exact Nat.le_add_right _ _
  constructor
  · intro h
    by_cases hf : first ≤ bound
    · have h1 := hleast first' first (h ▸ hmem first hf)
      have h2 := hleast first first' (h ▸ hmem first' (Nat.le_trans h1 hf))
      exact .inl (Nat.le_antisymm h2 h1)
    · by_cases hf' : first' ≤ bound
      · have h2 := hleast first first' (h ▸ hmem first' hf')
        omega
      · exact .inr ⟨Nat.not_le.mp hf, Nat.not_le.mp hf'⟩
  · rintro (rfl | ⟨hf, hf'⟩)
    · rfl
    · unfold instants
      rw [if_neg (Nat.not_le.mpr hf), if_neg (Nat.not_le.mpr hf')]

section Loop

variable {α : Type*}

/-- `while t <= bound { s = f(k, t, s); k += 1; t += period }`, at most `fuel`
times. -/
def loop (f : Nat → Nat → α → α) (period bound : Nat) :
    Nat → Nat → Nat → α → α
  | 0, _, _, s => s
  | fuel + 1, k, t, s =>
      if t ≤ bound then loop f period bound fuel (k + 1) (t + period) (f k t s)
      else s

/-- **The loop visits the members of the progression**, and ends. -/
theorem loop_eq (f : Nat → Nat → α → α) (hp : 0 < period) (s : α) :
    loop f period bound ((bound - first) / period + 2) 0 first s
      = (instants first period bound).zipIdx.foldl
          (fun s x => f x.2 x.1 s) s := by
  -- as many passes as there are members, and one that ends the loop
  have hloop : ∀ (n k t : Nat) (s : α),
      t + n * period ≤ bound → bound < t + (n + 1) * period →
      loop f period bound (n + 2) k t s
        = (((List.range (n + 1)).map fun j => t + j * period).zipIdx
            k).foldl (fun s x => f x.2 x.1 s) s := by
    intro n
    induction n with
    | zero =>
        intro k t s ht hlast
        rw [loop, if_pos (by omega), loop, if_neg (by omega)]
        simp
    | succ n ih =>
        intro k t s ht hlast
        have h1 := Nat.add_mul n 1 period
        have h2 := Nat.add_mul (n + 1) 1 period
        rw [loop, if_pos (by omega),
          ih (k + 1) (t + period) _ (by omega) (by omega)]
        rw [List.range_succ_eq_map (n := n + 1), List.map_cons, List.map_map,
          List.zipIdx_cons, List.foldl_cons, Nat.zero_mul, Nat.add_zero]
        congr 2
        refine List.map_congr_left fun j _ => ?_
        show t + period + j * period = t + (j + 1) * period
        rw [Nat.add_mul j, Nat.one_mul, Nat.add_assoc, Nat.add_comm period]
  unfold instants
  by_cases hf : first ≤ bound
  · have hdiv := Nat.div_mul_le_self (bound - first) period
    have hnext := Nat.lt_mul_div_succ (bound - first) hp
    rw [Nat.mul_comm] at hnext
    rw [if_pos hf]
    exact hloop _ 0 first s (by omega) (by omega)
  · rw [if_neg hf, loop, if_neg hf]
    rfl

end Loop

end Agenda
