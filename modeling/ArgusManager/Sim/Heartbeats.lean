/-
  ArgusManager.Sim.Heartbeats
  ───────────────────────────
  What a heartbeat of the simulator reports.

    • `heartbeatsIn`           — the simulators of a run, each as a heartbeat
                                 is derived from it,
    • `tick_beats`             — a tick records the heartbeats derived from
                                 these, and no others,
    • `heartbeats_project_iff` — when they report the simulated state: only
                                 where it is the one state that every heartbeat
                                 shows.
-/
import ArgusManager.Sim.Ticked

/-! ## §1. The heartbeats of a run. -/

namespace ArgusManager.Simulator

variable {π ψ σ ρ κ : Type} (env : Scenario π ψ σ ρ κ)

/-- The simulator, if the event makes a heartbeat from it. -/
def heartbeatFrom (event : ScheduledEvent) (sim : Simulator π ψ σ ρ κ) :
    List (Simulator π ψ σ ρ κ) :=
  match event.kind with
  | .heartbeat => [sim]
  | _ => []

/-- The simulators that the heartbeats among the events are derived from. -/
def heartbeatsAmong :
    List ScheduledEvent → Simulator π ψ σ ρ κ → List (Simulator π ψ σ ρ κ)
  | [], _ => []
  | event :: events, sim =>
      heartbeatFrom event sim
        ++ heartbeatsAmong events (processEvent env sim event)

/-- Those of one tick. -/
def heartbeatsAt (sim : Simulator π ψ σ ρ κ) : List (Simulator π ψ σ ρ κ) :=
  let (events, clock) := sim.clock.drainUntil (sim.clock.now + env.tickDt)
  heartbeatsAmong env events { sim with clock }

/-- Those of some calls, one after the other. -/
def heartbeatsIn (sim : Simulator π ψ σ ρ κ)
    (calls : List (SimCall π ψ σ ρ κ)) : List (Simulator π ψ σ ρ κ) :=
  (tickedIn env sim calls).flatMap (heartbeatsAt env)

/-- The message that the policy gets there. -/
def heartbeatOf (sim : Simulator π ψ σ ρ κ) : EngineMessage :=
  (env.plant.deriveHeartbeat sim.state sim.engine sim.rng).2

/-! ## §2. They are the ones recorded. -/

end ArgusManager.Simulator

namespace ArgusManager

/-- The message of a heartbeat's record. -/
def TrajectoryEntry.beat? {ψ : Type} :
    TrajectoryEntry ψ → Option EngineMessageDump
  | .heartbeat _ message => some message
  | _ => none

def Trajectory.beats {ψ : Type} (t : Trajectory ψ) : List EngineMessageDump :=
  t.filterMap TrajectoryEntry.beat?

theorem Trajectory.beats_concat {ψ : Type} (t : Trajectory ψ)
    {entry : TrajectoryEntry ψ} (h : entry.beat? = none) :
    Trajectory.beats (t ++ [entry]) = t.beats := by
  unfold beats
  rw [List.filterMap_append, List.filterMap_cons_none h, List.filterMap_nil,
    List.append_nil]

namespace Simulator

variable {π ψ σ ρ κ : Type} (env : Scenario π ψ σ ρ κ)

theorem noteLevel_beats (dueAt : Nat) (dump : SignalDump)
    (sim : Simulator π ψ σ ρ κ) :
    (noteLevel env dueAt dump sim).trajectory.beats = sim.trajectory.beats := by
  unfold noteLevel
  dsimp only
  split
  next => exact Trajectory.beats_concat sim.trajectory rfl
  next => rfl

theorem consultPolicy_beats (dueAt : Nat) (sig : SystemSignal)
    (sim : Simulator π ψ σ ρ κ) :
    (consultPolicy env dueAt sig sim).trajectory.beats
      = sim.trajectory.beats := by
  unfold consultPolicy
  dsimp only
  split
  next => rfl
  next =>
    split
    next => exact Trajectory.beats_concat sim.trajectory rfl
    next => rfl

theorem processSignal_beats (dueAt : Nat) (kind : EventKind)
    (sim : Simulator π ψ σ ρ κ) :
    (processSignal env dueAt kind sim).trajectory.beats
      = sim.trajectory.beats := by
  unfold processSignal
  split
  next => rfl
  next rng sig _ =>
    refine (Trajectory.beats_concat _ rfl).trans ?_
    rw [consultPolicy_beats, noteLevel_beats]

/-- An event adds a record of its heartbeat, or none. -/
theorem processEvent_beats (event : ScheduledEvent)
    (sim : Simulator π ψ σ ρ κ) :
    (processEvent env sim event).trajectory.beats
      = sim.trajectory.beats
        ++ (heartbeatFrom event sim).map
          fun t => .fromMsg (heartbeatOf env t) := by
  unfold processEvent heartbeatFrom
  cases event.kind with
  | heartbeat =>
      show Trajectory.beats (sim.trajectory ++ [_]) = _
      unfold Trajectory.beats
      rw [List.filterMap_append]
      rfl
  | signalMemory =>
      exact (processSignal_beats env _ _ sim).trans (List.append_nil _).symm
  | signalCompute =>
      exact (processSignal_beats env _ _ sim).trans (List.append_nil _).symm
  | signalThermal =>
      exact (processSignal_beats env _ _ sim).trans (List.append_nil _).symm
  | signalEnergy =>
      exact (processSignal_beats env _ _ sim).trans (List.append_nil _).symm
  | observationDue action recordedAt =>
      exact (Trajectory.beats_concat _ rfl).trans (List.append_nil _).symm
  | externalInjectionStart idx =>
      exact (Trajectory.beats_concat _ rfl).trans (List.append_nil _).symm
  | externalInjectionEnd idx =>
      exact (Trajectory.beats_concat _ rfl).trans (List.append_nil _).symm
  | custom name =>
      exact (Trajectory.beats_concat _ rfl).trans (List.append_nil _).symm

theorem processEvents_beats (events : List ScheduledEvent)
    (sim : Simulator π ψ σ ρ κ) :
    (events.foldl (processEvent env) sim).trajectory.beats
      = sim.trajectory.beats
        ++ (heartbeatsAmong env events sim).map
          fun t => .fromMsg (heartbeatOf env t) := by
  induction events generalizing sim with
  | nil => exact (List.append_nil _).symm
  | cons event events ih =>
      rw [List.foldl_cons, ih, processEvent_beats, List.append_assoc,
        ← List.map_append]
      rfl

/-- **A tick records the heartbeats derived in it.** -/
theorem tick_beats (sim : Simulator π ψ σ ρ κ) :
    (tick env sim).sim.trajectory.beats
      = sim.trajectory.beats
        ++ (heartbeatsAt env sim).map fun t =>
          .fromMsg (heartbeatOf env t) := by
  have hfinish : ∀ (t : Nat) (a : Simulator π ψ σ ρ κ),
      (finishTick env t a).1.trajectory.beats = a.trajectory.beats := by
    intro t a
    unfold finishTick
    split
    next => rfl
    next => exact Trajectory.beats_concat a.trajectory rfl
  have hovers : ∀ (t : Nat) (a : Simulator π ψ σ ρ κ),
      (noteOverruns env t a).trajectory.beats = a.trajectory.beats := by
    intro t a
    unfold noteOverruns
    dsimp only
    split
    next => exact Trajectory.beats_concat a.trajectory rfl
    next => rfl
  -- neither the physics nor the overruns record a heartbeat
  have hsim := congrArg Prod.fst (tick_eq env sim)
  dsimp only at hsim
  rw [hsim, hfinish]
  unfold afterEvents
  dsimp only
  rw [hovers]
  exact processEvents_beats env _ _

/-- A heartbeat among the events shows the physical state before them. -/
theorem heartbeatsAmong_due {event : ScheduledEvent}
    (hkind : event.kind = .heartbeat) {events : List ScheduledEvent}
    (hevent : event ∈ events) (sim : Simulator π ψ σ ρ κ) :
    ∃ t ∈ heartbeatsAmong env events sim, t.state = sim.state := by
  induction events generalizing sim with
  | nil => exact absurd hevent List.not_mem_nil
  | cons e events ih =>
      rcases List.mem_cons.mp hevent with rfl | hevent
      · refine ⟨sim, List.mem_append_left _ ?_, rfl⟩
        unfold heartbeatFrom
        rw [hkind]
        exact List.mem_singleton_self sim
      · obtain ⟨t, ht, hstate⟩ := ih hevent (processEvent env sim e)
        exact ⟨t, List.mem_append_right _ ht,
          hstate.trans (samePhysics_processEvent env e sim).state⟩

/-- A tick makes the heartbeats that are due. -/
theorem heartbeatsAt_due {sim : Simulator π ψ σ ρ κ} {dueAt : Nat}
    (hmem : (dueAt, EventKind.heartbeat) ∈ sim.clock.agenda)
    (hdue : dueAt ≤ sim.clock.now + env.tickDt) :
    ∃ t ∈ heartbeatsAt env sim, t.state = sim.state := by
  have hfired : (dueAt, EventKind.heartbeat)
      ∈ (sim.clock.drainUntil (sim.clock.now + env.tickDt)).1.map
        ScheduledEvent.entry := by
    rw [(VirtualClock.agenda_drainUntil _ _).1]
    exact List.mem_filter.mpr ⟨hmem, decide_eq_true hdue⟩
  obtain ⟨event, hevent, hentry⟩ := List.mem_map.mp hfired
  exact heartbeatsAmong_due env (congrArg Prod.snd hentry) hevent _

end Simulator

/-! ## §3. What they report. -/

namespace Sim

/-- The name of a phase in the engine model. -/
def phaseName : Phase → String
  | .idle => "idle"
  | .prefill => "prefill"
  | .decode => "decode"

/-- The lifecycle that goes with a phase. -/
def lifecycle (engine : EngineStateModel) : EngineState :=
  if engine.phase = "idle" then .idle else .running

/-- The status reports the simulated state; sizes and counts are cut to 64
bits. -/
structure Reports (status : EngineStatus) (s : PhysicalState)
    (engine : EngineStateModel) : Prop where
  kvCacheBytes : status.kvCacheBytes = (s.num .kvCacheBytes).toUnsigned 64
  kvCacheBudgetBytes :
    status.kvCacheBudgetBytes = (s.num .kvCacheCapacityBytes).toUnsigned 64
  kvCacheTokens : status.kvCacheTokens = (s.num .kvCacheTokens).toUnsigned 64
  tbtMs : status.tbtMs = s.num .tbtMs
  phase : phaseName status.phase = engine.phase
  state : status.state = lifecycle engine

/-- The message is a heartbeat that does. -/
def ReportsState (msg : EngineMessage) (s : PhysicalState)
    (engine : EngineStateModel) : Prop :=
  ∃ status, msg = .heartbeat status ∧ Reports status s engine

/-- The one state that heartbeats show: 1 KiB of 4 KiB in 32 tokens, 12.5 ms
a token, decoding. -/
structure Placeholder (s : PhysicalState) (engine : EngineStateModel) :
    Prop where
  kvCacheBytes : (s.num .kvCacheBytes).toUnsigned 64 = 1024
  kvCacheCapacityBytes : (s.num .kvCacheCapacityBytes).toUnsigned 64 = 4096
  kvCacheTokens : (s.num .kvCacheTokens).toUnsigned 64 = 32
  tbtMs : s.num .tbtMs = .fin (25 / 2)
  phase : engine.phase = "decode"

/-- A heartbeat reports the state it is derived from only if this is the
placeholder. -/
theorem reportsState_iff {ρ : Type} (noise : ρ → ρ) (s : PhysicalState)
    (engine : EngineStateModel) (rng : ρ) :
    ReportsState (deriveHeartbeat noise s engine rng).2 s engine
      ↔ Placeholder s engine := by
  constructor
  · rintro ⟨status, hmsg, h⟩
    obtain rfl : heartbeatStatus = status := EngineMessage.heartbeat.inj hmsg
    exact ⟨h.kvCacheBytes.symm, h.kvCacheBudgetBytes.symm,
      h.kvCacheTokens.symm, h.tbtMs.symm, h.phase.symm⟩
  · intro h
    refine ⟨heartbeatStatus, rfl, h.kvCacheBytes.symm,
      h.kvCacheCapacityBytes.symm, h.kvCacheTokens.symm, h.tbtMs.symm,
      h.phase.symm, ?_⟩
    unfold lifecycle
    rw [h.phase]
    rfl

/-- **When the heartbeats of a run report the simulated state.** -/
theorem heartbeats_project_iff {ρ σ : Type} (u : Setup ρ σ) (sim : u.Machine)
    (calls : List (Simulator.SimCall PhysicalState PhysicalStateSnapshot σ ρ
      ExprContext)) :
    (∀ t ∈ Simulator.heartbeatsIn u.scenario sim calls,
        ReportsState (Simulator.heartbeatOf u.scenario t) t.state t.engine)
      ↔ ∀ t ∈ Simulator.heartbeatsIn u.scenario sim calls,
        Placeholder t.state t.engine := by
  refine forall_congr' fun t => forall_congr' fun _ => ?_
  exact reportsState_iff u.proj.heartbeatNoise t.state t.engine t.rng

/-- One second of a scenario that stands still, in one tick. -/
def beatSetup : Setup Unit Unit :=
  .idle .still rfl rfl (fromSecs 1) second_pos

/-- Its one heartbeat does not report the 1000 bytes that are in the cache. -/
theorem heartbeat_reports_placeholder :
    ScenarioConfig.still.Accepted
      ∧ ¬ ∀ t ∈ Simulator.heartbeatsIn beatSetup.scenario
          (beatSetup.start () ()) [.runFor (fromSecs 1)],
        ReportsState (Simulator.heartbeatOf beatSetup.scenario t) t.state
          t.engine := by
  refine ⟨⟨by decide, rfl⟩, ?_⟩
  intro h
  let start := beatSetup.start () ()
  have hticked := Simulator.first_ticked beatSetup.scenario start
    (d := fromSecs 1) (by decide)
  have hmem : (fromSecs 1, EventKind.heartbeat) ∈ (Simulator.preload
      beatSetup.scenario (start.clock.now + fromSecs 1) start).clock.agenda :=
    Simulator.mem_preload (List.mem_append_left _
      (List.mem_flatMap.mpr ⟨_, List.mem_cons_self,
        mem_periodicEntries.mpr ⟨by decide, rfl, by decide, 0, by decide⟩⟩))
  have hbeat := Simulator.heartbeatsAt_due beatSetup.scenario hmem
    (by rw [Simulator.preload_now]; decide)
  obtain ⟨t, ht, hstate⟩ := hbeat
  have hreports := h t (List.mem_flatMap.mpr ⟨_, hticked, ht⟩)
  have hplaceholder := ((reportsState_iff _ _ _ _).mp hreports).kvCacheBytes
  rw [hstate] at hplaceholder
  change FloatVal.toUnsigned 64 (.fin (1000 : Nat)) = 1024 at hplaceholder
  unfold FloatVal.toUnsigned at hplaceholder
  dsimp only at hplaceholder
  rw [Int.floor_natCast] at hplaceholder
  exact absurd hplaceholder (by decide)

end Sim

end ArgusManager
