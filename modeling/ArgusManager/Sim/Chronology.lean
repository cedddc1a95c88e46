/-
  ArgusManager.Sim.Chronology
  ───────────────────────────
  **The trajectory is in the order of time.**

  A tick records what it drains, in the order of due times, and then its own
  end.  What stays pending lies past the end, and an observation scheduled
  meanwhile is due 3 s after the start, so with ticks of at most 3 s nothing
  is recorded before what stands already, as long as no call preloads such an
  event (`Timely`): a first instant cut to 64 bits may lie in the past, and
  so may the events of a tick that failed.

  In every run whose calls are all timely the times never decrease
  (`times_ordered`), hence `last_at_s` is the greatest and
  `first_directive_at_or_after` the least that qualifies.
-/
import ArgusManager.Sim.Instants

namespace ArgusManager

/-! ## §1. Times of a trajectory. -/

/-- `entry_at_s`. -/
def TrajectoryEntry.atS {ψ : Type} : TrajectoryEntry ψ → ℚ
  | .stateSnapshot atS _ _ => atS
  | .heartbeat atS _ => atS
  | .signal atS _ => atS
  | .directive atS _ _ => atS
  | .observationDue atS _ _ => atS
  | .injectionEvent atS _ _ => atS
  | .custom atS _ => atS
  | .observationOverrun atS _ => atS
  | .levelTransition atS _ _ _ _ => atS

/-- When a directive was issued, if this is its record. -/
def TrajectoryEntry.directive? {ψ : Type} : TrajectoryEntry ψ → Option ℚ
  | .directive atS _ _ => some atS
  | _ => none

namespace Trajectory

variable {ψ : Type}

def times (t : Trajectory ψ) : List ℚ := t.map TrajectoryEntry.atS

/-- `last_at_s`. -/
def lastAtS (t : Trajectory ψ) : Option ℚ :=
  (t.reverse.map TrajectoryEntry.atS).head?

def directiveTimes (t : Trajectory ψ) : List ℚ :=
  t.filterMap TrajectoryEntry.directive?

/-- `first_directive_at_or_after`. -/
def firstDirectiveAtOrAfter (tS : FloatVal) (t : Trajectory ψ) : Option ℚ :=
  (t.filterMap fun entry =>
    match entry with
    | .directive atS _ _ => if FloatVal.le tS (.fin atS) then some atS else none
    | _ => none).head?

theorem directiveTimes_sublist (t : Trajectory ψ) :
    t.directiveTimes.Sublist t.times := by
  unfold directiveTimes times
  induction t with
  | nil => exact .refl _
  | cons entry t ih =>
      cases entry with
      | directive atS trigger dir => exact ih.cons_cons atS
      | stateSnapshot atS state engine => exact ih.cons atS
      | heartbeat atS message => exact ih.cons atS
      | signal atS signal => exact ih.cons atS
      | observationDue atS action recordedAtS => exact ih.cons atS
      | injectionEvent atS idx started => exact ih.cons atS
      | custom atS name => exact ih.cons atS
      | observationOverrun atS total => exact ih.cons atS
      | levelTransition atS kind fromLevel toLevel state => exact ih.cons atS

theorem firstDirective_eq (tS : FloatVal) (t : Trajectory ψ) :
    t.firstDirectiveAtOrAfter tS
      = (t.directiveTimes.filter fun r => FloatVal.le tS (.fin r)).head? := by
  unfold firstDirectiveAtOrAfter directiveTimes
  refine congrArg List.head? ?_
  induction t with
  | nil => rfl
  | cons entry t ih =>
      cases entry with
      | directive atS trigger dir =>
          show List.filterMap _ (_ :: t) = List.filter _ (atS :: _)
          rw [List.filterMap_cons, List.filter_cons, ih]
          by_cases hle : FloatVal.le tS (.fin atS) = true
          · simp only [hle]
            rfl
          · simp only [hle]
            rfl
      | stateSnapshot atS state engine => exact ih
      | heartbeat atS message => exact ih
      | signal atS signal => exact ih
      | observationDue atS action recordedAtS => exact ih
      | injectionEvent atS idx started => exact ih
      | custom atS name => exact ih
      | observationOverrun atS total => exact ih
      | levelTransition atS kind fromLevel toLevel state => exact ih

/-- **In an ordered trajectory the last time is the greatest.** -/
theorem lastAtS_iff {t : Trajectory ψ} (h : t.times.Pairwise (· ≤ ·)) {r : ℚ} :
    t.lastAtS = some r ↔ IsGreatest {q | q ∈ t.times} r := by
  have hlast : t.lastAtS = t.times.reverse.head? := by
    unfold lastAtS times
    rw [List.map_reverse]
  rw [hlast]
  cases hrev : t.times.reverse with
  | nil =>
      refine iff_of_false (by simp) ?_
      rintro ⟨hr, _⟩
      rw [List.reverse_eq_nil_iff.mp hrev] at hr
      exact absurd hr List.not_mem_nil
  | cons x xs =>
      have htimes : t.times = xs.reverse ++ [x] := by
        rw [← List.reverse_reverse t.times, hrev, List.reverse_cons]
      have hx : IsGreatest {q | q ∈ t.times} x := by
        rw [htimes] at h ⊢
        obtain ⟨_, _, hlast⟩ := List.pairwise_append.mp h
        refine ⟨by simp, ?_⟩
        intro q hq
        rcases List.mem_append.mp hq with hq | hq
        · exact hlast q hq x (List.mem_singleton_self x)
        · exact (List.mem_singleton.mp hq).le
      constructor
      · intro hr
        exact Option.some.inj hr ▸ hx
      · intro hr
        exact congrArg some (hx.unique hr)

/-- **In an ordered trajectory the first directive that qualifies is the
earliest.** -/
theorem firstDirective_iff {t : Trajectory ψ} (h : t.times.Pairwise (· ≤ ·))
    {tS : FloatVal} {r : ℚ} :
    t.firstDirectiveAtOrAfter tS = some r
      ↔ IsLeast {q | q ∈ t.directiveTimes
          ∧ FloatVal.le tS (.fin q) = true} r := by
  rw [firstDirective_eq]
  have hsorted := (h.sublist t.directiveTimes_sublist).filter
    fun r => FloatVal.le tS (.fin r)
  have hmem : ∀ q, (q ∈ t.directiveTimes ∧ FloatVal.le tS (.fin q) = true)
      ↔ q ∈ t.directiveTimes.filter fun r => FloatVal.le tS (.fin r) :=
    fun q => by rw [List.mem_filter]
  simp only [hmem]
  cases hcut : t.directiveTimes.filter fun r => FloatVal.le tS (.fin r) with
  | nil =>
      refine iff_of_false (by simp) ?_
      rintro ⟨hr, _⟩
      exact absurd hr List.not_mem_nil
  | cons x xs =>
      rw [hcut] at hsorted
      have hx : IsLeast {q | q ∈ x :: xs} x := by
        refine ⟨List.mem_cons_self, ?_⟩
        intro q hq
        rcases List.mem_cons.mp hq with rfl | hq
        · exact le_refl _
        · exact (List.pairwise_cons.mp hsorted).1 q hq
      constructor
      · intro hr
        exact Option.some.inj hr ▸ hx
      · intro hr
        exact congrArg some (hx.unique hr)

end Trajectory

namespace Simulator

variable {π ψ σ ρ κ : Type} (env : Scenario π ψ σ ρ κ)

/-! ## §2. What a tick records. -/

/-- From `a` to `b` the time stands, only observations were scheduled, and
everything recorded is of time `t`. -/
structure Notes (t : ℚ) (a b : Simulator π ψ σ ρ κ) : Prop where
  now : b.clock.now = a.clock.now
  agenda : ∀ x ∈ b.clock.agenda,
    x ∈ a.clock.agenda ∨ x.1 = a.clock.now + OBSERVATION_DELAY
  times : ∃ n, b.trajectory.times = a.trajectory.times ++ List.replicate n t

variable {env}

theorem Notes.trans {t : ℚ} {a b c : Simulator π ψ σ ρ κ}
    (hab : Notes t a b) (hbc : Notes t b c) : Notes t a c where
  now := hbc.now.trans hab.now
  agenda x hx := by
    rcases hbc.agenda x hx with hx | hx
    · exact hab.agenda x hx
    · exact .inr (by rw [hx, hab.now])
  times := by
    obtain ⟨m, hm⟩ := hab.times
    obtain ⟨n, hn⟩ := hbc.times
    refine ⟨m + n, ?_⟩
    rw [hn, hm, List.append_assoc, List.replicate_append_replicate]

/-- Nothing was scheduled. -/
theorem Notes.of_clock {t : ℚ} {a b : Simulator π ψ σ ρ κ}
    (hclock : b.clock = a.clock)
    (htimes : ∃ n, b.trajectory.times
      = a.trajectory.times ++ List.replicate n t) : Notes t a b where
  now := congrArg VirtualClock.now hclock
  agenda _ hx := .inl (hclock ▸ hx)
  times := htimes

theorem times_concat (t : Trajectory ψ) (entry : TrajectoryEntry ψ) :
    Trajectory.times (t ++ [entry])
      = t.times ++ List.replicate 1 entry.atS :=
  List.map_append

theorem notes_none {t : ℚ} {a b : Simulator π ψ σ ρ κ}
    (hclock : b.clock = a.clock) (htraj : b.trajectory = a.trajectory) :
    Notes t a b :=
  .of_clock hclock ⟨0, by rw [htraj]; exact (List.append_nil _).symm⟩

theorem notes_record (entry : TrajectoryEntry ψ)
    (sim : Simulator π ψ σ ρ κ) : Notes entry.atS sim (sim.record entry) :=
  .of_clock rfl ⟨1, times_concat sim.trajectory entry⟩

theorem notes_applyDirective (t : ℚ) (dir : EngineDirective)
    (sim : Simulator π ψ σ ρ κ) : Notes t sim (sim.applyDirective dir) := by
  refine ⟨(VirtualClock.scheduleObservations_frame dir.commands sim.clock).1,
    ?_, 0, (List.append_nil _).symm⟩
  -- one command after the other, the time standing still
  have hfold : ∀ (cmds : List EngineCommand) (c : VirtualClock),
      ∀ x ∈ (cmds.foldl scheduleObservation c).agenda,
        x ∈ c.agenda ∨ x.1 = c.now + OBSERVATION_DELAY := by
    intro cmds
    induction cmds with
    | nil => exact fun c x hx => .inl hx
    | cons cmd cmds ih =>
        intro c x hx
        have hnow : (scheduleObservation c cmd).now = c.now :=
          (VirtualClock.scheduleObservations_frame [cmd] c).1
        rcases ih (scheduleObservation c cmd) x hx with hx | hx
        · unfold scheduleObservation at hx
          split at hx
          next =>
            rw [VirtualClock.agenda_schedule] at hx
            have hx := (Agenda.perm_insert Prod.fst _ _).mem_iff.mp hx
            rcases List.mem_cons.mp hx with rfl | hx
            · exact .inr rfl
            · exact .inl hx
          next => exact .inl hx
        · exact .inr (by rw [hx, hnow])
  exact hfold dir.commands sim.clock

variable (env)

theorem notes_noteLevel (dueAt : Nat) (dump : SignalDump)
    (sim : Simulator π ψ σ ρ κ) :
    Notes (asSecs dueAt) sim (noteLevel env dueAt dump sim) := by
  unfold noteLevel
  dsimp only
  split
  next => exact .of_clock rfl ⟨1, times_concat sim.trajectory _⟩
  next => exact notes_none rfl rfl

theorem notes_consultPolicy (dueAt : Nat) (sig : SystemSignal)
    (sim : Simulator π ψ σ ρ κ) :
    Notes (asSecs dueAt) sim (consultPolicy env dueAt sig sim) := by
  unfold consultPolicy
  dsimp only
  split
  next => exact notes_none rfl rfl
  next policy dir _ =>
    split
    next dedup dir' _ =>
      have hset : Notes (asSecs dueAt) sim
          { sim with policy := policy, dedup := dedup } := notes_none rfl rfl
      exact (hset.trans (notes_applyDirective _ dir' _)).trans
        (notes_record (.directive (asSecs dueAt) _ _) _)
    next => exact notes_none rfl rfl

theorem notes_processSignal (dueAt : Nat) (kind : EventKind)
    (sim : Simulator π ψ σ ρ κ) :
    Notes (asSecs dueAt) sim (processSignal env dueAt kind sim) := by
  unfold processSignal
  split
  next => exact notes_none rfl rfl
  next rng sig _ =>
    have hset : Notes (asSecs dueAt) sim { sim with rng := rng } :=
      notes_none rfl rfl
    exact ((hset.trans (notes_noteLevel env dueAt _ _)).trans
      (notes_consultPolicy env dueAt sig _)).trans
      (notes_record (.signal (asSecs dueAt) _) _)

/-- **An event is recorded under its due time.** -/
theorem notes_processEvent (event : ScheduledEvent)
    (sim : Simulator π ψ σ ρ κ) :
    Notes (asSecs event.dueAt) sim (processEvent env sim event) := by
  unfold processEvent
  cases event.kind with
  | heartbeat => exact .of_clock rfl ⟨1, times_concat sim.trajectory _⟩
  | signalMemory => exact notes_processSignal env _ _ sim
  | signalCompute => exact notes_processSignal env _ _ sim
  | signalThermal => exact notes_processSignal env _ _ sim
  | signalEnergy => exact notes_processSignal env _ _ sim
  | observationDue action recordedAt =>
      exact notes_record (.observationDue (asSecs event.dueAt) _ _) sim
  | externalInjectionStart idx =>
      exact notes_record (.injectionEvent (asSecs event.dueAt) _ _) sim
  | externalInjectionEnd idx =>
      exact notes_record (.injectionEvent (asSecs event.dueAt) _ _) sim
  | custom name => exact notes_record (.custom (asSecs event.dueAt) _) sim

theorem notes_noteOverruns (tickEnd : Nat) (sim : Simulator π ψ σ ρ κ) :
    Notes (asSecs tickEnd) sim (noteOverruns env tickEnd sim) := by
  unfold noteOverruns
  dsimp only
  split
  next => exact .of_clock rfl ⟨1, times_concat sim.trajectory _⟩
  next => exact notes_none rfl rfl

/-- From `a` to `b` the times in `ts` were recorded, and only observations
scheduled. -/
structure Records (ts : List ℚ) (a b : Simulator π ψ σ ρ κ) : Prop where
  now : b.clock.now = a.clock.now
  agenda : ∀ x ∈ b.clock.agenda,
    x ∈ a.clock.agenda ∨ x.1 = a.clock.now + OBSERVATION_DELAY
  times : b.trajectory.times = a.trajectory.times ++ ts

variable {env} in
theorem Records.trans {ts us : List ℚ} {a b c : Simulator π ψ σ ρ κ}
    (hab : Records ts a b) (hbc : Records us b c) :
    Records (ts ++ us) a c where
  now := hbc.now.trans hab.now
  agenda x hx := by
    rcases hbc.agenda x hx with hx | hx
    · exact hab.agenda x hx
    · exact .inr (by rw [hx, hab.now])
  times := by rw [hbc.times, hab.times, List.append_assoc]

theorem Notes.records {t : ℚ} {a b : Simulator π ψ σ ρ κ} (h : Notes t a b) :
    ∃ n, Records (List.replicate n t) a b := by
  obtain ⟨n, hn⟩ := h.times
  exact ⟨n, h.now, h.agenda, hn⟩

/-- **Events in the order of time are recorded in the order of time.** -/
theorem records_events {events : List ScheduledEvent}
    (h : events.Pairwise fun a b => a.dueAt ≤ b.dueAt)
    (sim : Simulator π ψ σ ρ κ) :
    ∃ ts, Records ts sim (events.foldl (processEvent env) sim)
      ∧ ts.Pairwise (· ≤ ·)
      ∧ ∀ r ∈ ts, ∃ e ∈ events, r = asSecs e.dueAt := by
  induction events generalizing sim with
  | nil =>
      refine ⟨[], ⟨rfl, fun x hx => .inl hx, (List.append_nil _).symm⟩,
        List.Pairwise.nil, ?_⟩
      intro r hr
      exact absurd hr List.not_mem_nil
  | cons e events ih =>
      obtain ⟨he, hevents⟩ := List.pairwise_cons.mp h
      obtain ⟨n, hn⟩ := (notes_processEvent env e sim).records
      obtain ⟨ts, hrec, hsorted, hfrom⟩ := ih hevents (processEvent env sim e)
      refine ⟨List.replicate n (asSecs e.dueAt) ++ ts, hn.trans hrec, ?_, ?_⟩
      · refine List.pairwise_append.mpr ⟨?_, hsorted, ?_⟩
        · exact List.pairwise_replicate.mpr (.inr (le_refl _))
        · intro r hr q hq
          rw [List.eq_of_mem_replicate hr]
          obtain ⟨f, hf, rfl⟩ := hfrom q hq
          exact asSecs_le.mpr (he f hf)
      · intro r hr
        rcases List.mem_append.mp hr with hr | hr
        · exact ⟨e, List.mem_cons_self, List.eq_of_mem_replicate hr⟩
        · obtain ⟨f, hf, hrf⟩ := hfrom r hr
          exact ⟨f, List.mem_cons_of_mem _ hf, hrf⟩

/-- The end of a tick records at most one snapshot, and schedules nothing. -/
theorem finishTick_records (tickEnd : Nat) (sim : Simulator π ψ σ ρ κ) :
    ∃ n, (finishTick env tickEnd sim).1.trajectory.times
        = sim.trajectory.times ++ List.replicate n (asSecs tickEnd)
      ∧ (finishTick env tickEnd sim).1.clock.agenda = sim.clock.agenda
      ∧ sim.clock.now ≤ (finishTick env tickEnd sim).1.clock.now := by
  unfold finishTick
  split
  next => exact ⟨0, (List.append_nil _).symm, rfl, Nat.le_refl _⟩
  next =>
    exact ⟨1, times_concat sim.trajectory _, rfl, Nat.le_add_right _ _⟩

/-- **What a tick records**: times in order, of events that were pending, and
of its end. -/
theorem tick_records (sim : Simulator π ψ σ ρ κ) :
    ∃ ts, (tick env sim).sim.trajectory.times = sim.trajectory.times ++ ts
      ∧ ts.Pairwise (· ≤ ·)
      ∧ (∀ r ∈ ts, r ≤ asSecs (sim.clock.now + env.tickDt)
          ∧ (r = asSecs (sim.clock.now + env.tickDt)
            ∨ ∃ x ∈ sim.clock.agenda, r = asSecs x.1))
      ∧ (∀ x ∈ (tick env sim).sim.clock.agenda,
          (x ∈ sim.clock.agenda ∧ sim.clock.now + env.tickDt < x.1)
          ∨ x.1 = sim.clock.now + OBSERVATION_DELAY)
      ∧ sim.clock.now ≤ (tick env sim).sim.clock.now := by
  obtain ⟨hdue, hleft⟩ :=
    sim.clock.agenda_drainUntil (sim.clock.now + env.tickDt)
  -- the drained events come in the order of time, all by the end
  have hevent : ∀ e ∈ (sim.clock.drainUntil (sim.clock.now + env.tickDt)).1,
      e.entry ∈ sim.clock.agenda
        ∧ e.dueAt ≤ sim.clock.now + env.tickDt := by
    intro e he
    have hmem := List.mem_map_of_mem (f := ScheduledEvent.entry) he
    rw [hdue] at hmem
    obtain ⟨hmem, hle⟩ := List.mem_filter.mp hmem
    exact ⟨hmem, of_decide_eq_true hle⟩
  have hsorted : (sim.clock.drainUntil (sim.clock.now + env.tickDt)).1.Pairwise
      fun a b => a.dueAt ≤ b.dueAt := by
    have hfires := sim.clock.agenda_sorted.filter
      fun x => decide (x.1 ≤ sim.clock.now + env.tickDt)
    rw [← hdue] at hfires
    exact (List.pairwise_map (f := ScheduledEvent.entry)).mp hfires
  obtain ⟨ts, hevents, hts, hfrom⟩ := records_events env hsorted
    { sim with
      clock := (sim.clock.drainUntil (sim.clock.now + env.tickDt)).2 }
  obtain ⟨n, hover⟩ := (notes_noteOverruns env (sim.clock.now + env.tickDt)
    _).records
  have hall := hevents.trans hover
  obtain ⟨m, hm, hagenda, hnow⟩ := finishTick_records env
    (sim.clock.now + env.tickDt) (noteOverruns env (sim.clock.now + env.tickDt)
      ((sim.clock.drainUntil (sim.clock.now + env.tickDt)).1.foldl
        (processEvent env) { sim with
          clock := (sim.clock.drainUntil (sim.clock.now + env.tickDt)).2 }))
  refine ⟨ts ++ List.replicate n (asSecs (sim.clock.now + env.tickDt))
    ++ List.replicate m (asSecs (sim.clock.now + env.tickDt)), ?_, ?_, ?_, ?_,
    ?_⟩
  · exact hm.trans (by rw [hall.times, List.append_assoc])
  · rw [List.append_assoc, List.replicate_append_replicate]
    refine List.pairwise_append.mpr ⟨hts, ?_, ?_⟩
    · exact List.pairwise_replicate.mpr (.inr (le_refl _))
    · intro r hr q hq
      obtain ⟨e, he, rfl⟩ := hfrom r hr
      rw [List.eq_of_mem_replicate hq]
      exact asSecs_le.mpr (hevent e he).2
  · intro r hr
    rw [List.append_assoc, List.replicate_append_replicate] at hr
    rcases List.mem_append.mp hr with hr | hr
    · obtain ⟨e, he, rfl⟩ := hfrom r hr
      exact ⟨asSecs_le.mpr (hevent e he).2, .inr ⟨_, (hevent e he).1, rfl⟩⟩
    · rw [List.eq_of_mem_replicate hr]
      exact ⟨le_refl _, .inl rfl⟩
  · intro x hx
    have hx : x ∈ VirtualClock.agenda _ := hagenda ▸ hx
    rcases hall.agenda x hx with hx | hx
    · left
      have hx : x ∈ VirtualClock.agenda
          (sim.clock.drainUntil (sim.clock.now + env.tickDt)).2 := hx
      rw [hleft] at hx
      obtain ⟨hx, hlt⟩ := List.mem_filter.mp hx
      exact ⟨hx, of_decide_eq_true hlt⟩
    · exact .inr hx
  · exact Nat.le_trans (Nat.le_of_eq hall.now.symm) hnow

/-! ## §3. Runs. -/

/-- The trajectory is in order, and nothing pending comes before it. -/
structure Ordered (sim : Simulator π ψ σ ρ κ) : Prop where
  sorted : sim.trajectory.times.Pairwise (· ≤ ·)
  reached : ∀ r ∈ sim.trajectory.times,
    r ≤ asSecs (sim.clock.now + env.tickDt)
  pending : ∀ r ∈ sim.trajectory.times, ∀ x ∈ sim.clock.agenda,
    r ≤ asSecs x.1

variable {env}

/-- **A tick of at most 3 s keeps the order.** -/
theorem ordered_tick (hdt : env.tickDt ≤ OBSERVATION_DELAY)
    {sim : Simulator π ψ σ ρ κ} (h : Ordered env sim) :
    Ordered env (tick env sim).sim := by
  obtain ⟨ts, htimes, hsorted, hfrom, hagenda, hnow⟩ := tick_records env sim
  have hend : ∀ r ∈ (tick env sim).sim.trajectory.times,
      r ≤ asSecs (sim.clock.now + env.tickDt) := by
    intro r hr
    rw [htimes] at hr
    rcases List.mem_append.mp hr with hr | hr
    · exact h.reached r hr
    · exact (hfrom r hr).1
  refine ⟨?_, ?_, ?_⟩
  · rw [htimes]
    refine List.pairwise_append.mpr ⟨h.sorted, hsorted, ?_⟩
    intro r hr q hq
    -- a new record is of the tick's end or of an event that was pending
    rcases (hfrom q hq).2 with rfl | ⟨x, hx, rfl⟩
    · exact h.reached r hr
    · exact h.pending r hr x hx
  · intro r hr
    exact (hend r hr).trans (asSecs_le.mpr (Nat.add_le_add_right hnow _))
  · intro r hr x hx
    refine (hend r hr).trans (asSecs_le.mpr ?_)
    -- what was pending is after the tick, an observation 3 s after its start
    rcases hagenda x hx with ⟨_, hlt⟩ | hx
    · omega
    · omega

theorem ordered_ticks (hdt : env.tickDt ≤ OBSERVATION_DELAY) (n : Nat)
    {sim : Simulator π ψ σ ρ κ} (h : Ordered env sim) :
    Ordered env (ticks env n sim).sim := by
  induction n generalizing sim with
  | zero => exact h
  | succ n ih =>
      rw [ticks_succ]
      cases hresult : (tick env sim).result with
      | error e =>
          rw [andThen_error hresult]
          exact ordered_tick hdt h
      | ok u =>
          rw [andThen_ok hresult]
          exact ih (ordered_tick hdt h)

/-- Nothing that a call preloads as far as `bound` comes before a record. -/
def Timely (env : Scenario π ψ σ ρ κ) (sim : Simulator π ψ σ ρ κ)
    (bound : Nat) : Prop :=
  ∀ r ∈ sim.trajectory.times,
    ∀ x ∈ preloaded env.cfg sim.clock.now bound, r ≤ asSecs x.1

theorem ordered_preload {sim : Simulator π ψ σ ρ κ} {bound : Nat}
    (h : Ordered env sim) (ht : Timely env sim bound) :
    Ordered env (preload env bound sim) := by
  refine ⟨h.sorted, ?_, ?_⟩
  · rw [preload_now]
    exact h.reached
  · intro r hr x hx
    unfold preload at hx
    rw [preloadEvents_eq, VirtualClock.agenda_scheduleAll] at hx
    have hx := (Agenda.perm_insertAll Prod.fst _ _).mem_iff.mp hx
    rcases List.mem_append.mp hx with hx | hx
    · exact h.pending r hr x hx
    · exact ht r hr x hx

/-- **A timely call keeps the order.** -/
theorem ordered_call (hdt : env.tickDt ≤ OBSERVATION_DELAY)
    {sim : Simulator π ψ σ ρ κ} (c : SimCall π ψ σ ρ κ)
    (h : Ordered env sim) (ht : Timely env sim (c.horizon sim.clock.now)) :
    Ordered env (call env sim c).sim := by
  obtain ⟨n, hsim, _⟩ := call_ticks env sim c
  rw [hsim]
  exact ordered_ticks hdt n (ordered_preload h ht)

/-- **Trajectory time order**, in every run whose calls are all timely: the
times never decrease, the last is the greatest, and the first directive at or
after a time is the earliest. -/
theorem times_ordered (env : Scenario π ψ σ ρ κ)
    (hdt : env.tickDt ≤ fromSecs 3) (state : π) (engine : EngineStateModel)
    (policy : σ) (rng : ρ) (ctx : κ) (cooldown : ℚ)
    (calls : List (SimCall π ψ σ ρ κ))
    (h : (machine env).Along (fresh state engine policy rng ctx cooldown) calls
      fun _ e => Timely env e.pre (e.input.horizon e.pre.clock.now)) :
    let t := ((machine env).exec
      (fresh state engine policy rng ctx cooldown) calls).trajectory
    t.times.Pairwise (· ≤ ·)
    ∧ (∀ r, t.lastAtS = some r ↔ IsGreatest {q | q ∈ t.times} r)
    ∧ ∀ tS r, t.firstDirectiveAtOrAfter tS = some r
      ↔ IsLeast {q | q ∈ t.directiveTimes ∧ FloatVal.le tS (.fin q) = true}
        r := by
  intro t
  have hordered : Ordered env ((machine env).exec
      (fresh state engine policy rng ctx cooldown) calls) := by
    refine h.invariant (I := fun _ sim => Ordered env sim) ?_ ?_
    · exact ⟨List.Pairwise.nil, fun r hr => absurd hr List.not_mem_nil,
        fun r hr => absurd hr List.not_mem_nil⟩
    · intro hist sim c ht hinv
      exact ordered_call hdt c hinv ht
  have hsorted : t.times.Pairwise (· ≤ ·) := hordered.sorted
  exact ⟨hsorted, fun r => Trajectory.lastAtS_iff hsorted,
    fun tS r => Trajectory.firstDirective_iff hsorted⟩

/-- Two seconds, then one more, with heartbeats every second. -/
theorem times_ordered_idle :
    ((machine (idleScenario (fromSecs 1))).exec (fresh () idleEngine () () () 60)
      [.runFor (fromSecs 2), .runFor (fromSecs 1)]).trajectory.times.Pairwise
      (· ≤ ·) := by
  refine (times_ordered (idleScenario (fromSecs 1)) (by decide) () idleEngine
    () () () 60 [.runFor (fromSecs 2), .runFor (fromSecs 1)] ?_).1
  intro h e t htr
  cases h with
  | nil =>
      injection htr with he _
      subst he
      exact fun r hr => absurd hr List.not_mem_nil
  | cons f h =>
      injection htr with _ htr
      cases h with
      | nil =>
          injection htr with he _
          subst he
          -- two seconds are recorded, and the third is preloaded
          intro r hr x hx
          change r ∈ [asSecs (fromSecs 1), asSecs (fromSecs 1),
            asSecs (fromSecs 2), asSecs (fromSecs 2)] at hr
          change x ∈ [(fromSecs 3, EventKind.heartbeat)] at hx
          rw [List.mem_singleton.mp hx]
          simp only [List.mem_cons, List.not_mem_nil, or_false] at hr
          rcases hr with rfl | rfl | rfl | rfl
          all_goals exact asSecs_le.mpr (by decide)
      | cons g h =>
          injection htr with _ hnil
          exact absurd hnil (by simp)

/-- A heartbeat interval of 18446744074.75 s: the second call preloads the
heartbeat at 1.04 s once more, and records it behind the snapshot at 2 s. -/
theorem heartbeat_in_the_past :
    ¬ ((machine (idleScenario 18446744074750000000)).exec
      (fresh () idleEngine () () () 60)
      [.runFor (fromSecs 2), .runFor (fromSecs 1)]).trajectory.times.Pairwise
      (· ≤ ·) := by
  intro h
  change [asSecs (fromSecs 1), asSecs 1040448384, asSecs (fromSecs 2),
    asSecs 1040448384, asSecs (fromSecs 3)].Pairwise (· ≤ ·) at h
  have hback : asSecs (fromSecs 2) ≤ asSecs 1040448384 := by
    simp only [List.pairwise_cons] at h
    exact h.2.2.1 _ List.mem_cons_self
  exact absurd (asSecs_le.mp hback) (by decide)

end Simulator

end ArgusManager
