/-
  ArgusManager.Sim.Clock
  ──────────────────────
  The simulator's virtual clock and its event queue (`src/sim/clock.rs`).

  The source's binary heap is kept here as the list of its events in the order
  they are popped: by due time, then by id.  Ids are handed out in ascending
  order, so a new event goes behind those due at the same time, and the queue
  is an agenda (`agenda_schedule`).  A `Duration` is its number of
  nanoseconds; adding two does not overflow.
-/
import ArgusManager.Float.Round
import ArgusManager.Lib.Agenda
import Mathlib.Data.Rat.Defs

namespace ArgusManager

/-! ## §1. Events. -/

/-- `Duration::from_secs`. -/
def fromSecs (secs : Nat) : Nat := secs * 1000000000

/-- `Duration::as_secs_f64`, exact. -/
def asSecs (nanos : Nat) : ℚ := (nanos : ℚ) / 1000000000

/-- `Duration::as_secs_f64` as it rounds. -/
def asSecsF64 (nanos : Nat) : FloatVal :=
  let secs : Nat := nanos / 1000000000
  let subsec : Nat := nanos % 1000000000
  ((FloatVal.fin secs).toF64 + (FloatVal.fin (subsec / 1000000000)).toF64).toF64

theorem asSecsF64_fromSecs {secs : Nat} (h : secs < 2 ^ 53) :
    asSecsF64 (fromSecs secs) = .fin secs := by
  have hsecs : fromSecs secs / 1000000000 = secs :=
    Nat.mul_div_cancel secs (by decide)
  have hsubsec : fromSecs secs % 1000000000 = 0 := Nat.mul_mod_left _ _
  have hzero : (FloatVal.fin 0).toF64 = .fin 0 := by
    exact_mod_cast FloatVal.toF64_natCast (n := 0) (by decide)
  unfold asSecsF64
  rw [hsecs, hsubsec]
  dsimp only
  rw [Nat.cast_zero, zero_div, hzero, FloatVal.add_zero,
    FloatVal.toF64_natCast h, FloatVal.toF64_natCast h]

inductive EventKind where
  | heartbeat
  | signalMemory
  | signalCompute
  | signalThermal
  | signalEnergy
  /-- The observation of an action, some time after it. -/
  | observationDue (action : String) (recordedAt : Nat)
  | externalInjectionStart (idx : Nat)
  | externalInjectionEnd (idx : Nat)
  | custom (name : String)
  deriving DecidableEq, Repr

/-- Observations are scheduled by directives, everything else by a preload. -/
def EventKind.isObservation : EventKind → Bool
  | .observationDue _ _ => true
  | _ => false

/-- An event to fire at `dueAt`. -/
structure ScheduledEvent where
  dueAt : Nat
  id : Nat
  kind : EventKind
  deriving DecidableEq, Repr

namespace ScheduledEvent

/-- `Ord for ScheduledEvent`. -/
def Before (a b : ScheduledEvent) : Prop :=
  a.dueAt < b.dueAt ∨ (a.dueAt = b.dueAt ∧ a.id < b.id)

instance : DecidableRel Before := fun a b =>
  inferInstanceAs (Decidable (a.dueAt < b.dueAt ∨
    (a.dueAt = b.dueAt ∧ a.id < b.id)))

theorem Before.trans {a b c : ScheduledEvent} (hab : Before a b)
    (hbc : Before b c) : Before a c := by
  unfold Before at *
  omega

/-- When and what, without the id. -/
def entry (e : ScheduledEvent) : Nat × EventKind := (e.dueAt, e.kind)

end ScheduledEvent

/-! ## §2. The clock. -/

/-- The clock; its events are in the order they are popped, and every id was
issued. -/
structure VirtualClock where
  now : Nat
  events : List ScheduledEvent
  nextId : Nat
  sorted : events.Pairwise ScheduledEvent.Before
  issued : ∀ e ∈ events, e.id < nextId

/-- A new event in its place. -/
def pushEvent (e : ScheduledEvent) (events : List ScheduledEvent) :
    List ScheduledEvent :=
  events.orderedInsert ScheduledEvent.Before e

theorem mem_pushEvent {e x : ScheduledEvent} {events : List ScheduledEvent} :
    x ∈ pushEvent e events ↔ x = e ∨ x ∈ events :=
  List.mem_orderedInsert _

theorem pushEvent_sorted {e : ScheduledEvent} :
    ∀ {events : List ScheduledEvent},
      events.Pairwise ScheduledEvent.Before → (∀ x ∈ events, x.id < e.id) →
      (pushEvent e events).Pairwise ScheduledEvent.Before
  | [], _, _ => List.pairwise_singleton _ _
  | x :: events, h, hid => by
      obtain ⟨hx, hevents⟩ := List.pairwise_cons.mp h
      have hxid := hid x List.mem_cons_self
      unfold pushEvent
      by_cases hex : e.Before x
      · rw [List.orderedInsert_cons_of_le _ _ hex]
        refine List.pairwise_cons.mpr ⟨?_, h⟩
        intro y hy
        rcases List.mem_cons.mp hy with rfl | hy
        · exact hex
        · exact hex.trans (hx y hy)
      · rw [List.orderedInsert_of_not_le _ _ hex]
        refine List.pairwise_cons.mpr ⟨?_, pushEvent_sorted hevents
          fun y hy => hid y (List.mem_cons_of_mem _ hy)⟩
        intro y hy
        rcases mem_pushEvent.mp hy with rfl | hy
        · unfold ScheduledEvent.Before at hex ⊢
          omega
        · exact hx y hy

namespace VirtualClock

def new : VirtualClock where
  now := 0
  events := []
  nextId := 0
  sorted := List.Pairwise.nil
  issued _ h := absurd h List.not_mem_nil

def schedule (kind : EventKind) (dueAt : Nat) (c : VirtualClock) :
    VirtualClock where
  now := c.now
  events := pushEvent ⟨dueAt, c.nextId, kind⟩ c.events
  nextId := c.nextId + 1
  sorted := pushEvent_sorted c.sorted c.issued
  issued e he := by
    rcases mem_pushEvent.mp he with rfl | he
    · exact Nat.lt_succ_self _
    · exact Nat.lt_succ_of_lt (c.issued e he)

/-- `while t <= until { schedule(t); t += period }`, so many passes. -/
def schedulePeriodicLoop (kind : EventKind) (period bound : Nat) :
    Nat → Nat → VirtualClock → VirtualClock
  | 0, _, c => c
  | fuel + 1, t, c =>
      if t ≤ bound then
        schedulePeriodicLoop kind period bound fuel (t + period)
          (c.schedule kind t)
      else c

/-- `schedule_periodic`.  The loop ends after at most as many passes as
periods fit, if the period is positive (`schedulePeriodic_eq`). -/
def schedulePeriodic (kind : EventKind) (first period bound : Nat)
    (c : VirtualClock) : VirtualClock :=
  schedulePeriodicLoop kind period bound ((bound - first) / period + 2) first c

/-- Pop everything that is due at `target`. -/
def drainUntil (target : Nat) (c : VirtualClock) :
    List ScheduledEvent × VirtualClock :=
  (c.events.takeWhile fun e => e.dueAt ≤ target,
    { c with
      events := c.events.dropWhile fun e => e.dueAt ≤ target
      sorted := c.sorted.sublist (List.dropWhile_sublist _)
      issued := fun e he =>
        c.issued e ((List.dropWhile_sublist _).mem he) })

def advance (dt : Nat) (c : VirtualClock) : VirtualClock :=
  { c with now := c.now + dt }

/-! ## §3. The queue as an agenda. -/

/-- The queue without ids. -/
def agenda (c : VirtualClock) : List (Nat × EventKind) :=
  c.events.map ScheduledEvent.entry

/-- Schedule a list of entries. -/
def scheduleAll (xs : List (Nat × EventKind)) (c : VirtualClock) :
    VirtualClock :=
  xs.foldl (fun c x => c.schedule x.2 x.1) c

theorem scheduleAll_append (xs ys : List (Nat × EventKind))
    (c : VirtualClock) :
    c.scheduleAll (xs ++ ys) = (c.scheduleAll xs).scheduleAll ys :=
  List.foldl_append

@[simp] theorem schedule_now (kind : EventKind) (dueAt : Nat)
    (c : VirtualClock) : (c.schedule kind dueAt).now = c.now := rfl

@[simp] theorem scheduleAll_now (xs : List (Nat × EventKind))
    (c : VirtualClock) : (c.scheduleAll xs).now = c.now := by
  induction xs generalizing c with
  | nil => rfl
  | cons x xs ih => exact ih (c.schedule x.2 x.1)

theorem agenda_sorted (c : VirtualClock) :
    Agenda.Sorted Prod.fst c.agenda := by
  refine List.pairwise_map.mpr (c.sorted.imp ?_)
  intro a b hab
  unfold ScheduledEvent.Before at hab
  show a.dueAt ≤ b.dueAt
  omega

/-- **A new event goes behind those due at the same time**: ids only say in
which order events were scheduled. -/
theorem agenda_schedule (kind : EventKind) (dueAt : Nat)
    (c : VirtualClock) :
    (c.schedule kind dueAt).agenda
      = Agenda.insert Prod.fst (dueAt, kind) c.agenda := by
  have hpush : ∀ events : List ScheduledEvent,
      (∀ e ∈ events, e.id < c.nextId) →
      (pushEvent ⟨dueAt, c.nextId, kind⟩ events).map ScheduledEvent.entry
        = Agenda.insert Prod.fst (dueAt, kind)
            (events.map ScheduledEvent.entry) := by
    intro events
    induction events with
    | nil => intro _; rfl
    | cons e events ih =>
        intro hid
        have he := hid e List.mem_cons_self
        have ih := ih fun x hx => hid x (List.mem_cons_of_mem _ hx)
        unfold pushEvent at ih ⊢
        rw [List.map_cons]
        by_cases hlt : dueAt < e.dueAt
        · have hbefore : ScheduledEvent.Before ⟨dueAt, c.nextId, kind⟩ e :=
            .inl hlt
          rw [List.orderedInsert_cons_of_le _ _ hbefore,
            Agenda.insert_before Prod.fst (x := (dueAt, kind)) hlt]
          rfl
        · have hbehind : ¬ ScheduledEvent.Before ⟨dueAt, c.nextId, kind⟩ e := by
            unfold ScheduledEvent.Before
            dsimp only
            omega
          rw [List.orderedInsert_of_not_le _ _ hbehind,
            Agenda.insert_behind Prod.fst (x := (dueAt, kind)) hlt,
            List.map_cons, ih]
  exact hpush c.events c.issued

theorem agenda_scheduleAll (xs : List (Nat × EventKind))
    (c : VirtualClock) :
    (c.scheduleAll xs).agenda = Agenda.insertAll Prod.fst c.agenda xs := by
  induction xs generalizing c with
  | nil => rfl
  | cons x xs ih =>
      rw [Agenda.insertAll_cons, ← agenda_schedule]
      exact ih (c.schedule x.2 x.1)

/-- **A drain takes what is due**, in order, and leaves the rest. -/
theorem agenda_drainUntil (target : Nat) (c : VirtualClock) :
    (c.drainUntil target).1.map ScheduledEvent.entry
        = c.agenda.filter (fun x => x.1 ≤ target)
      ∧ (c.drainUntil target).2.agenda
        = c.agenda.filter (fun x => target < x.1) := by
  rw [← Agenda.due_eq Prod.fst target c.agenda_sorted,
    ← Agenda.rest_eq Prod.fst target c.agenda_sorted]
  unfold Agenda.due Agenda.rest agenda drainUntil
  rw [List.takeWhile_map, List.dropWhile_map]
  exact ⟨rfl, rfl⟩

@[simp] theorem drainUntil_now (target : Nat) (c : VirtualClock) :
    (c.drainUntil target).2.now = c.now := rfl

/-- The loop is the library's; it does not count its passes. -/
theorem schedulePeriodicLoop_eq (kind : EventKind) (period bound : Nat) :
    ∀ (fuel k t : Nat) (c : VirtualClock),
      schedulePeriodicLoop kind period bound fuel t c
        = Agenda.loop (fun _ t c => c.schedule kind t) period bound fuel k t c
      := by
  intro fuel
  induction fuel with
  | zero =>
      intro k t c
      rfl
  | succ fuel ih =>
      intro k t c
      rw [schedulePeriodicLoop, Agenda.loop]
      split
      next => exact ih (k + 1) (t + period) (c.schedule kind t)
      next => rfl

/-- **The periodic loop schedules the members of the progression.** -/
theorem schedulePeriodic_eq (kind : EventKind) {period : Nat}
    (hp : 0 < period) (first bound : Nat) (c : VirtualClock) :
    c.schedulePeriodic kind first period bound
      = c.scheduleAll
          ((Agenda.instants first period bound).map (·, kind)) := by
  have hmap : ((Agenda.instants first period bound).zipIdx.map Prod.fst).map
      (·, kind) = (Agenda.instants first period bound).map (·, kind) := by
    rw [List.zipIdx_map_fst]
  unfold schedulePeriodic scheduleAll
  rw [schedulePeriodicLoop_eq kind period bound _ 0, Agenda.loop_eq _ hp,
    ← hmap, List.foldl_map, List.foldl_map]

end VirtualClock

end ArgusManager
