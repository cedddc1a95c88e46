/-
  ArgusManager.Sim.Delivery
  ─────────────────────────
  **Exactly-once delivery of the virtual clock**, over any sequence of its
  operations.

  A history of operations is a ledger: a schedule posts events, a drain
  collects the pending ones that are due at its target.  The heap always
  holds exactly what the ledger has pending (`recorded`), so what the ledger
  says of single entries holds of the events.
-/
import ArgusManager.Sim.Heap

namespace ArgusManager.HeapClock

/-! ## §1. Operations. -/

/-- A call of one of the clock's methods; a period is positive. -/
inductive ClockOp where
  | schedule (kind : EventKind) (dueAt : Nat)
  | schedulePeriodic (kindFn : Nat → EventKind) (first period bound : Nat)
      (positive : 0 < period)
  | drainUntil (target : Nat)
  | advance (dt : Nat)

namespace ClockOp

/-- The events the operation schedules, if the next id is `nextId`. -/
def scheduled (nextId : Nat) : ClockOp → List ScheduledEvent
  | schedule kind dueAt => [⟨dueAt, nextId, kind⟩]
  | schedulePeriodic kindFn first period bound _ =>
      stamp nextId (periodicEntries kindFn first period bound)
  | drainUntil _ => []
  | advance _ => []

/-- The operation is a drain whose target the event does not lie past. -/
def reaches (ev : ScheduledEvent) : ClockOp → Bool
  | drainUntil target => ev.dueAt ≤ target
  | _ => false

def isDrain : ClockOp → Bool
  | drainUntil _ => true
  | _ => false

end ClockOp

variable (H : BinaryHeap)

/-- The clock as a machine; the answer is the list of events returned. -/
def machine : Mealy (HeapClock H) ClockOp (List ScheduledEvent) where
  step c
    | .schedule kind dueAt => ((c.schedule kind dueAt).2, [])
    | .schedulePeriodic kindFn first period bound _ =>
        (c.schedulePeriodic kindFn first period bound, [])
    | .drainUntil target =>
        ((c.drainUntil target).2, (c.drainUntil target).1)
    | .advance dt => (c.advance dt, [])

abbrev ClockStep : Type :=
  Mealy.Step (HeapClock H) ClockOp (List ScheduledEvent)

variable {H}

/-- The events a step schedules. -/
def posts (e : ClockStep H) : List ScheduledEvent :=
  e.input.scheduled e.pre.nextId

/-- The step is a drain that reaches the event. -/
def claims (e : ClockStep H) (ev : ScheduledEvent) : Bool :=
  e.input.reaches ev

/-- Everything scheduled in some steps, in order. -/
def scheduledIn (h : List (ClockStep H)) : List ScheduledEvent :=
  Ledger.added posts h

/-- Everything returned in some steps, in order. -/
def returnedIn (h : List (ClockStep H)) : List ScheduledEvent :=
  h.flatMap Mealy.Step.output

theorem claims_posts {e : ClockStep H} {ev : ScheduledEvent}
    (h : ev ∈ posts e) : claims e ev = false := by
  unfold posts ClockOp.scheduled at h
  unfold claims ClockOp.reaches
  cases hop : e.input with
  | drainUntil target =>
      rw [hop] at h
      exact absurd h List.not_mem_nil
  | schedule kind dueAt => rfl
  | schedulePeriodic kindFn first period bound positive => rfl
  | advance dt => rfl

/-! ## §2. One operation. -/

/-- The next ids go to the events an operation schedules. -/
theorem step_ids (c : HeapClock H) (op : ClockOp) :
    (op.scheduled c.nextId).map ScheduledEvent.id
        = List.range' c.nextId (op.scheduled c.nextId).length
      ∧ ((machine H).step c op).1.nextId
        = c.nextId + (op.scheduled c.nextId).length := by
  cases op with
  | schedule kind dueAt => exact ⟨rfl, rfl⟩
  | schedulePeriodic kindFn first period bound positive =>
      have hids := stamp_ids c.nextId
        (periodicEntries kindFn first period bound)
      have hlen := congrArg List.length hids
      rw [List.length_map, List.length_range'] at hlen
      obtain ⟨_, hid, _⟩ :=
        scheduleAll_spec (periodicEntries kindFn first period bound) c
      rw [← schedulePeriodic_eq kindFn positive, ← hlen] at hid
      refine ⟨?_, hid⟩
      rw [← hlen] at hids
      exact hids
  | drainUntil target => exact ⟨rfl, rfl⟩
  | advance dt => exact ⟨rfl, rfl⟩

/-- An operation that is no drain returns nothing and keeps everything. -/
theorem step_posts (c : HeapClock H) {op : ClockOp}
    (h : op.isDrain = false) :
    ((machine H).step c op).2 = []
      ∧ ((machine H).step c op).1.items
        = c.items + (op.scheduled c.nextId : Multiset ScheduledEvent) := by
  cases op with
  | schedule kind dueAt =>
      refine ⟨rfl, ?_⟩
      have hpush : (c.schedule kind dueAt).2.items
          = ⟨dueAt, c.nextId, kind⟩ ::ₘ c.items := H.items_push _ _
      refine hpush.trans ?_
      unfold ClockOp.scheduled
      rw [← Multiset.cons_coe, Multiset.add_cons, Multiset.coe_nil,
        Multiset.add_zero]
  | schedulePeriodic kindFn first period bound positive =>
      obtain ⟨hitems, _, _⟩ :=
        scheduleAll_spec (periodicEntries kindFn first period bound) c
      rw [← schedulePeriodic_eq kindFn positive] at hitems
      exact ⟨rfl, hitems⟩
  | drainUntil target => cases h
  | advance dt => exact ⟨rfl, (Multiset.add_zero _).symm⟩

theorem reaches_isDrain {op : ClockOp} (h : op.isDrain = false)
    (ev : ScheduledEvent) : op.reaches ev = false := by
  cases op with
  | drainUntil target => cases h
  | schedule kind dueAt => rfl
  | schedulePeriodic kindFn first period bound positive => rfl
  | advance dt => rfl

/-- **What one operation does**: of what it finds and what it schedules, it
returns, in order, the events that it reaches, and keeps the others. -/
theorem step_spec (c : HeapClock H) (op : ClockOp) :
    (((machine H).step c op).2 : Multiset ScheduledEvent)
        = (c.items + (op.scheduled c.nextId : Multiset ScheduledEvent)).filter
            (fun ev => op.reaches ev = true)
      ∧ ((machine H).step c op).1.items
        = (c.items + (op.scheduled c.nextId : Multiset ScheduledEvent)).filter
            (fun ev => ¬ op.reaches ev = true)
      ∧ ((machine H).step c op).2.Pairwise
          (fun a b => (ScheduledEvent.cmp a b).isLE) := by
  cases hop : op.isDrain with
  | false =>
      obtain ⟨hnone, hall⟩ := step_posts c hop
      have hreach : ∀ ev, ¬ op.reaches ev = true := fun ev =>
        Bool.eq_false_iff.mp (reaches_isDrain hop ev)
      rw [hnone, hall]
      refine ⟨?_, ?_, List.Pairwise.nil⟩
      · exact (Multiset.filter_eq_nil.mpr fun ev _ => hreach ev).symm
      · exact (Multiset.filter_eq_self.mpr fun ev _ => hreach ev).symm
  | true =>
      cases op with
      | drainUntil target =>
          obtain ⟨htaken, hleft, hsorted⟩ := drainUntil_spec target c
          unfold ClockOp.scheduled
          rw [Multiset.coe_nil, Multiset.add_zero]
          refine ⟨htaken.trans ?_, hleft.trans ?_, hsorted⟩
          · exact Multiset.filter_congr fun ev _ => decide_eq_true_iff.symm
          · exact Multiset.filter_congr fun ev _ =>
              not_congr decide_eq_true_iff.symm
      | schedule kind dueAt => cases hop
      | schedulePeriodic kindFn first period bound positive => cases hop
      | advance dt => cases hop

/-! ## §3. Histories. -/

/-- The clock holds what the ledger has pending, and ids count the events
scheduled. -/
structure Recorded (h : List (ClockStep H)) (c : HeapClock H) : Prop where
  items : c.items = Ledger.pending posts claims h
  ids : (scheduledIn h).map ScheduledEvent.id = List.range c.nextId
  balance : (Ledger.pending posts claims h ++ returnedIn h).Perm
    (scheduledIn h)

theorem Recorded.nodup {h : List (ClockStep H)} {c : HeapClock H}
    (hr : Recorded h c) : (scheduledIn h).Nodup := by
  refine List.Nodup.of_map ScheduledEvent.id ?_
  rw [hr.ids]
  exact List.nodup_range

/-- A step returns what it collects from the ledger. -/
theorem Recorded.output {h : List (ClockStep H)} {c : HeapClock H}
    (hr : Recorded h c) (op : ClockOp) :
    ((machine H).step c op).2.Perm
      (Ledger.taken posts claims h ((machine H).stepAt c op)) := by
  obtain ⟨hout, _, _⟩ := step_spec c op
  rw [hr.items, Multiset.coe_add, Multiset.filter_coe] at hout
  refine (Multiset.coe_eq_coe.mp hout).trans (List.Perm.of_eq ?_)
  refine List.filter_congr fun ev _ => ?_
  exact Bool.decide_eq_true

/-- **Every operation keeps the books.** -/
theorem recorded_step {h : List (ClockStep H)} {c : HeapClock H}
    (hr : Recorded h c) (op : ClockOp) :
    Recorded (h ++ [(machine H).stepAt c op]) ((machine H).step c op).1 := by
  obtain ⟨hids, hnext⟩ := step_ids c op
  have hscheduled : scheduledIn (h ++ [(machine H).stepAt c op])
      = scheduledIn h ++ op.scheduled c.nextId := by
    unfold scheduledIn
    rw [Ledger.added_append, Ledger.added_cons, Ledger.added_nil,
      List.append_nil]
    rfl
  refine ⟨?_, ?_, ?_⟩
  · obtain ⟨_, hleft, _⟩ := step_spec c op
    rw [hr.items, Multiset.coe_add, Multiset.filter_coe] at hleft
    rw [hleft, Ledger.pending_concat]
    refine congrArg _ (List.filter_congr fun ev _ => ?_)
    show decide (¬ op.reaches ev = true) = !op.reaches ev
    cases op.reaches ev <;> rfl
  · rw [hscheduled, List.map_append, hr.ids, hids, hnext,
      List.range_eq_range', List.range_eq_range', ← List.range'_append_1]
    rw [Nat.zero_add]
  · have hreturned : returnedIn (h ++ [(machine H).stepAt c op])
        = returnedIn h ++ ((machine H).step c op).2 := by
      unfold returnedIn
      rw [List.flatMap_append, List.flatMap_singleton]
      rfl
    have hbooks : (Ledger.pending posts claims
          (h ++ [(machine H).stepAt c op])
        ++ ((machine H).step c op).2).Perm
        (Ledger.pending posts claims h ++ op.scheduled c.nextId) :=
      ((hr.output op).append_left _).trans
        (Ledger.perm_balance posts claims h ((machine H).stepAt c op))
    rw [hscheduled, hreturned]
    -- what was returned before goes to the front and back
    refine (List.perm_append_comm.append_left _).trans ?_
    rw [← List.append_assoc]
    refine (hbooks.append_right _).trans ?_
    rw [List.append_assoc]
    refine (List.perm_append_comm.append_left _).trans ?_
    rw [← List.append_assoc]
    exact hr.balance.append_right _

theorem recorded (ops : List ClockOp) :
    Recorded ((machine H).trace (new H) ops)
      ((machine H).exec (new H) ops) := by
  refine Mealy.history_of_steps ?_ ?_ ops
  · exact ⟨items_new, rfl, .refl _⟩
  · intro h c op hr
    exact recorded_step hr op

/-- The state of the books before any step of a run. -/
theorem recorded_before {ops : List ClockOp} {h t : List (ClockStep H)}
    {e : ClockStep H} (htr : (machine H).trace (new H) ops = h ++ e :: t) :
    ∃ c op, e = (machine H).stepAt c op ∧ Recorded h c
      ∧ Recorded (h ++ [e]) e.post := by
  obtain ⟨ys, op, _, _, rfl, rfl⟩ := Mealy.trace_split _ htr
  have hr : Recorded _ _ := recorded (H := H) ys
  exact ⟨_, op, rfl, hr, recorded_step hr op⟩

/-! ## §4. Exactly once. -/

/-- An event is not returned before or when it is scheduled. -/
theorem Recorded.not_returned {h : List (ClockStep H)} {e : ClockStep H}
    {c : HeapClock H} (hr : Recorded (h ++ [e]) c) {ev : ScheduledEvent}
    (hev : ev ∈ posts e) : ev ∉ returnedIn (h ++ [e]) := by
  have hpending : ev ∈ Ledger.pending posts claims (h ++ [e]) :=
    (Ledger.mem_pending hev (claims_posts hev) hr.nodup).mpr
      fun d hd => absurd hd List.not_mem_nil
  have hnd := hr.balance.nodup_iff.mpr hr.nodup
  intro hret
  exact (List.nodup_append.mp hnd).2.2 ev hpending ev hret rfl

/-- What is returned was scheduled by an earlier step. -/
theorem Recorded.returns_scheduled {h : List (ClockStep H)} {c : HeapClock H}
    (hr : Recorded h c) (op : ClockOp) {ev : ScheduledEvent}
    (hev : ev ∈ ((machine H).step c op).2) : ev ∈ scheduledIn h := by
  obtain ⟨hmem, hclaim⟩ := List.mem_filter.mp ((hr.output op).mem_iff.mp hev)
  rcases List.mem_append.mp hmem with hmem | hmem
  · exact (Ledger.pending_sublist posts claims h).subset hmem
  · rw [claims_posts hmem] at hclaim
    cases hclaim

/-- **Events come back in the order of their times**, and of their ids within
equal times. -/
theorem Recorded.output_sorted {h : List (ClockStep H)} {c : HeapClock H}
    (hr : Recorded h c) (op : ClockOp) :
    ((machine H).step c op).2.Pairwise ScheduledEvent.Before := by
  obtain ⟨_, _, hle⟩ := step_spec c op
  have hids : (((machine H).step c op).2.map ScheduledEvent.id).Nodup := by
    refine ((hr.output op).map _).nodup_iff.mpr ?_
    refine ((Ledger.taken_sublist posts claims h _).map _).nodup ?_
    have := (recorded_step hr op).ids
    unfold scheduledIn at this
    rw [this]
    exact List.nodup_range
  refine hle.imp₂ ?_ (List.pairwise_map.mp hids)
  intro a b hab hne
  have hab := ScheduledEvent.cmp_isLE.mp hab
  unfold ScheduledEvent.Before
  omega

/-- What is pending is what was scheduled and not returned. -/
theorem Recorded.pending_eq {h : List (ClockStep H)} {c : HeapClock H}
    (hr : Recorded h c) :
    c.pending
      = ((scheduledIn h).filter fun ev => ev ∉ returnedIn h).length := by
  have hnd := hr.balance.nodup_iff.mpr hr.nodup
  obtain ⟨_, _, hdisj⟩ := List.nodup_append.mp hnd
  rw [HeapClock.pending_eq, hr.items, Multiset.coe_card]
  refine List.Perm.length_eq ?_
  refine List.Perm.trans ?_ (hr.balance.filter _)
  rw [List.filter_append, List.filter_eq_self.mpr, List.filter_eq_nil_iff.mpr,
    List.append_nil]
  · intro ev hev
    simpa using hev
  · intro ev hev
    refine decide_eq_true fun hret => ?_
    exact hdisj ev hev ev hret rfl

/-- **Exactly-once delivery.**  An event is not returned before it is
scheduled; from then on the first drain that reaches it returns it once, and
no other step does.  Every drain returns scheduled events in the order of
their times and ids, ids count the events scheduled, and what is pending is
what was scheduled and not returned. -/
theorem exactly_once (H : BinaryHeap) (ops : List ClockOp) :
    (∀ h e t, (machine H).trace (new H) ops = h ++ e :: t →
      (∀ ev ∈ posts e, ev ∉ returnedIn (h ++ [e])
        ∧ ∀ t₁ d t₂, t = t₁ ++ d :: t₂ →
          d.output.count ev
            = if claims d ev = true ∧ ∀ d' ∈ t₁, claims d' ev = false
              then 1 else 0)
      ∧ (∀ ev ∈ e.output, ev ∈ scheduledIn h)
      ∧ e.output.Pairwise ScheduledEvent.Before
      ∧ (e.input.isDrain = true → e.post.now = e.pre.now))
    ∧ (scheduledIn ((machine H).trace (new H) ops)).map ScheduledEvent.id
      = List.range ((machine H).exec (new H) ops).nextId
    ∧ ((machine H).exec (new H) ops).pending
      = ((scheduledIn ((machine H).trace (new H) ops)).filter fun ev =>
          ev ∉ returnedIn ((machine H).trace (new H) ops)).length := by
  refine ⟨?_, (recorded ops).ids, (recorded ops).pending_eq⟩
  intro h e t htr
  obtain ⟨c, op, rfl, hr, hr'⟩ := recorded_before htr
  refine ⟨?_, fun ev hev => hr.returns_scheduled op hev, hr.output_sorted op,
    ?_⟩
  · intro ev hev
    refine ⟨hr'.not_returned hev, ?_⟩
    rintro t₁ d t₂ rfl
    -- the books as they stand before the later step
    have htr' : (machine H).trace (new H) ops
        = (h ++ (machine H).stepAt c op :: t₁) ++ d :: t₂ := by
      rw [htr, List.append_assoc]
      rfl
    obtain ⟨c', op', rfl, hd, hd'⟩ := recorded_before htr'
    exact ((hd.output op').count_eq ev).trans
      (Ledger.count_taken hev (claims_posts hev) hd'.nodup)
  · intro hdrain
    cases op with
    | drainUntil target => rfl
    | schedule kind dueAt => cases hdrain
    | schedulePeriodic kindFn first period bound positive => cases hdrain
    | advance dt => cases hdrain

/-- A late event, two at one time, and one at the very target. -/
example :
    (machine (.ofList ScheduledEvent.revCmp)).outs (new _)
      [.schedule .signalEnergy 5, .advance 3, .schedule .heartbeat 5,
        .drainUntil 4, .schedule .signalMemory 1, .drainUntil 5,
        .drainUntil 9]
      = [[], [], [], [], [],
        [⟨1, 2, .signalMemory⟩, ⟨5, 0, .signalEnergy⟩, ⟨5, 1, .heartbeat⟩],
        []] := by
  decide

end ArgusManager.HeapClock
