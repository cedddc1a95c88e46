/-
  ArgusManager.Sim.Harness
  ────────────────────────
  The simulator (`src/sim/harness.rs`): preloading of events, one tick, and
  the two drivers `run_for` and `run_until`.

    1. drain what is due by the end of the tick
    2. process the events
    3. note observation overruns
    4. physics step
    5. record a state snapshot
    6. advance the clock

  What the scenario computes with floats is a `Plant`: any functions that read
  and write what the source's do.  A policy may read the virtual clock, so its
  trait methods are given per instant (`SimPolicy`).
-/
import ArgusManager.Pipeline
import ArgusManager.Sim.Clock
import ArgusManager.Sim.Trajectory

namespace ArgusManager

/-- `action` is observed so long after it. -/
def OBSERVATION_DELAY : Nat := fromSecs 3

/-- How far ahead `run_until` preloads at most. -/
def HORIZON : Nat := fromSecs 60

/-! ## §1. The scenario. -/

structure ExternalInjection where
  tStart : Nat
  duration : Nat

/-- The intervals of a scenario, after `Duration::from_secs_f64`; nothing
validates them. -/
structure ScenarioConfig where
  heartbeatInterval : Nat
  memoryPoll : Nat
  computePoll : Nat
  thermalPoll : Nat
  energyPoll : Nat
  externalInjections : List ExternalInjection

/-- The scenario's arithmetic: `derive_heartbeat`, the four signal projections
and `physics::step`, over physical states `π`, their snapshots `ψ`, the noise
generator `ρ` and the expression context `κ`. -/
structure Plant (π ψ ρ κ : Type) where
  snapshot : π → ψ
  deriveHeartbeat : π → EngineStateModel → ρ → ρ × EngineMessage
  deriveMemorySignal : π → ρ → ρ × SystemSignal
  deriveComputeSignal : π → ρ → ρ × SystemSignal
  deriveThermalSignal : π → ρ → ρ × SystemSignal
  deriveEnergySignal : π → ρ → ρ × SystemSignal
  /-- On an error the state may be half updated. -/
  step : EngineStateModel → (now dt : Nat) → π → κ →
    (π × κ) × Except String Unit

/-- `derive_signal`. -/
def Plant.deriveSignal {π ψ ρ κ : Type} (plant : Plant π ψ ρ κ)
    (kind : EventKind) (state : π) (rng : ρ) : ρ × Option SystemSignal :=
  match kind with
  | .signalMemory => (plant.deriveMemorySignal state rng).map id some
  | .signalCompute => (plant.deriveComputeSignal state rng).map id some
  | .signalThermal => (plant.deriveThermalSignal state rng).map id some
  | .signalEnergy => (plant.deriveEnergySignal state rng).map id some
  | _ => (rng, none)

/-- A deterministic policy: what the trait's methods do when the virtual clock
shows this instant. -/
structure SimPolicy (σ : Type) where
  strategy : Nat → PolicyStrategy σ Unit
  getObservationOverrunCount : Nat → σ → σ × Nat

/-- What does not change during a simulation. -/
structure Scenario (π ψ σ ρ κ : Type) where
  cfg : ScenarioConfig
  plant : Plant π ψ ρ κ
  policy : SimPolicy σ
  tickDt : Nat
  tickDt_pos : 0 < tickDt

inductive SimError where
  | physics (err : String)
  | maxDurationExceeded
  deriving DecidableEq, Repr

/-! ## §2. The simulator. -/

structure Simulator (π ψ σ ρ κ : Type) where
  clock : VirtualClock
  state : π
  engine : EngineStateModel
  policy : σ
  trajectory : Trajectory ψ
  rng : ρ
  ctx : κ
  /-- The cumulative overrun count at the last tick. -/
  lastOverrunCount : Nat
  dedup : DirectiveDeduplicator
  /-- The last level of each kind of signal. -/
  lastSignalLevels : String → Option String

/-- How a tick or a call ends: the simulator, what fired, and the result. -/
structure Outcome (π ψ σ ρ κ : Type) where
  sim : Simulator π ψ σ ρ κ
  fired : List ScheduledEvent
  result : Except SimError Unit

/-- `?`: go on unless there was an error. -/
def Outcome.andThen {π ψ σ ρ κ : Type} (o : Outcome π ψ σ ρ κ)
    (next : Simulator π ψ σ ρ κ → Outcome π ψ σ ρ κ) : Outcome π ψ σ ρ κ :=
  match o.result with
  | .error _ => o
  | .ok () =>
      { sim := (next o.sim).sim
        fired := o.fired ++ (next o.sim).fired
        result := (next o.sim).result }

/-- `schedule_periodic_from`'s first instant; `first_nanos as u64` keeps the
low 64 bits. -/
def firstInstant (now period : Nat) : Nat :=
  (now / period + 1) * period % 2 ^ 64

def schedulePeriodicFrom (kind : EventKind) (now period bound : Nat)
    (clock : VirtualClock) : VirtualClock :=
  if period = 0 then clock
  else clock.schedulePeriodic kind (firstInstant now period) period bound

/-- The loop over `external_injections`. -/
def preloadInjections (now bound : Nat) :
    Nat → List ExternalInjection → VirtualClock → VirtualClock
  | _, [], clock => clock
  | idx, inj :: rest, clock =>
      let tStart := inj.tStart
      let tEnd := inj.tStart + inj.duration
      let clock :=
        if now < tStart ∧ tStart ≤ bound then
          clock.schedule (.externalInjectionStart idx) tStart
        else clock
      let clock :=
        if now < tEnd ∧ tEnd ≤ bound then
          clock.schedule (.externalInjectionEnd idx) tEnd
        else clock
      preloadInjections now bound (idx + 1) rest clock

/-- `preload_events`, as far as `bound`; what is scheduled already is not
looked at. -/
def preloadEvents (cfg : ScenarioConfig) (bound : Nat) (clock : VirtualClock) :
    VirtualClock :=
  let now := clock.now
  let clock :=
    schedulePeriodicFrom .heartbeat now cfg.heartbeatInterval bound clock
  let clock := schedulePeriodicFrom .signalMemory now cfg.memoryPoll bound clock
  let clock :=
    schedulePeriodicFrom .signalCompute now cfg.computePoll bound clock
  let clock :=
    schedulePeriodicFrom .signalThermal now cfg.thermalPoll bound clock
  let clock := schedulePeriodicFrom .signalEnergy now cfg.energyPoll bound clock
  preloadInjections now bound 0 cfg.externalInjections clock

/-- `observable_action_name`. -/
def observableActionName : EngineCommand → Option String
  | .kvCompress _ => some "kv.compress"
  | .restoreDefaults => none
  | .suspend => none
  | .resume => none
  | .gpuYield _ => none
  | .gpuOffload _ => none

/-- One pass of `apply_directive`'s loop. -/
def scheduleObservation (clock : VirtualClock) (cmd : EngineCommand) :
    VirtualClock :=
  match observableActionName cmd with
  | some action =>
      clock.schedule (.observationDue action clock.now)
        (clock.now + OBSERVATION_DELAY)
  | none => clock

namespace Simulator

variable {π ψ σ ρ κ : Type}

/-- `Simulator::new`: a fresh clock, an empty trajectory and a deduplicator
with a cooldown of 60 s. -/
def new (state : π) (engine : EngineStateModel) (policy : σ) (rng : ρ)
    (ctx : κ) : Simulator π ψ σ ρ κ where
  clock := .new
  state := state
  engine := engine
  policy := policy
  trajectory := []
  rng := rng
  ctx := ctx
  lastOverrunCount := 0
  dedup := .withCooldown 60
  lastSignalLevels := fun _ => none

def withDedupCooldown (secs : ℚ) (sim : Simulator π ψ σ ρ κ) :
    Simulator π ψ σ ρ κ :=
  { sim with dedup := .withCooldown secs }

def record (entry : TrajectoryEntry ψ) (sim : Simulator π ψ σ ρ κ) :
    Simulator π ψ σ ρ κ :=
  { sim with trajectory := sim.trajectory ++ [entry] }

def applyDirective (dir : EngineDirective) (sim : Simulator π ψ σ ρ κ) :
    Simulator π ψ σ ρ κ :=
  { sim with
    engine := sim.engine.applyDirective dir
    clock := dir.commands.foldl scheduleObservation sim.clock }

variable (env : Scenario π ψ σ ρ κ)

/-! ## §3. One event. -/

def processHeartbeat (dueAt : Nat) (sim : Simulator π ψ σ ρ κ) :
    Simulator π ψ σ ρ κ :=
  let (rng, msg) := env.plant.deriveHeartbeat sim.state sim.engine sim.rng
  let strategy := env.policy.strategy sim.clock.now
  let sim :=
    { sim with rng, policy := strategy.updateEngineState msg sim.policy }
  sim.record (.heartbeat (asSecs dueAt) (.fromMsg msg))

/-- A level that differs from the last one of its kind is recorded. -/
def noteLevel (dueAt : Nat) (dump : SignalDump)
    (sim : Simulator π ψ σ ρ κ) : Simulator π ψ σ ρ κ :=
  let prev := sim.lastSignalLevels dump.kind
  if prev ≠ some dump.level then
    { sim with
      trajectory := sim.trajectory ++
        [.levelTransition (asSecs dueAt) dump.kind prev dump.level
          (env.plant.snapshot sim.state)]
      lastSignalLevels :=
        Function.update sim.lastSignalLevels dump.kind (some dump.level) }
  else sim

/-- The policy's answer to a signal, through the deduplicator. -/
def consultPolicy (dueAt : Nat) (sig : SystemSignal)
    (sim : Simulator π ψ σ ρ κ) : Simulator π ψ σ ρ κ :=
  let strategy := env.policy.strategy sim.clock.now
  match strategy.processSignal () sig sim.policy with
  | (policy, none) => { sim with policy }
  | (policy, some dir) =>
      match sim.dedup.process dir (asSecs dueAt) with
      | (dedup, some dir) =>
          ({ sim with policy, dedup }.applyDirective dir).record
            (.directive (asSecs dueAt) (.fromSignal sig) (.fromDirective dir))
      | (dedup, none) =>
          { sim with dedup, policy := strategy.cancelLastObservation policy }

def processSignal (dueAt : Nat) (kind : EventKind)
    (sim : Simulator π ψ σ ρ κ) : Simulator π ψ σ ρ κ :=
  match env.plant.deriveSignal kind sim.state sim.rng with
  | (rng, none) => { sim with rng }
  | (rng, some sig) =>
      let sim := noteLevel env dueAt (.fromSignal sig) { sim with rng }
      let sim := consultPolicy env dueAt sig sim
      sim.record (.signal (asSecs dueAt) (.fromSignal sig))

def processEvent (sim : Simulator π ψ σ ρ κ) (event : ScheduledEvent) :
    Simulator π ψ σ ρ κ :=
  match event.kind with
  | .heartbeat => processHeartbeat env event.dueAt sim
  | .signalMemory => processSignal env event.dueAt event.kind sim
  | .signalCompute => processSignal env event.dueAt event.kind sim
  | .signalThermal => processSignal env event.dueAt event.kind sim
  | .signalEnergy => processSignal env event.dueAt event.kind sim
  | .observationDue action recordedAt =>
      sim.record
        (.observationDue (asSecs event.dueAt) action (asSecs recordedAt))
  | .externalInjectionStart idx =>
      sim.record (.injectionEvent (asSecs event.dueAt) idx true)
  | .externalInjectionEnd idx =>
      sim.record (.injectionEvent (asSecs event.dueAt) idx false)
  | .custom name => sim.record (.custom (asSecs event.dueAt) name)

/-! ## §4. One tick. -/

/-- A count of overruns larger than the last one is recorded. -/
def noteOverruns (tickEnd : Nat) (sim : Simulator π ψ σ ρ κ) :
    Simulator π ψ σ ρ κ :=
  let (policy, total) :=
    env.policy.getObservationOverrunCount sim.clock.now sim.policy
  let sim := { sim with policy }
  if total > sim.lastOverrunCount then
    ({ sim with lastOverrunCount := total }).record
      (.observationOverrun (asSecs tickEnd) total)
  else sim

/-- `physics::step`, and the end of the tick if it succeeds. -/
def finishTick (tickEnd : Nat) (sim : Simulator π ψ σ ρ κ) :
    Simulator π ψ σ ρ κ × Except SimError Unit :=
  match env.plant.step sim.engine sim.clock.now env.tickDt sim.state sim.ctx
    with
  | ((state, ctx), .error err) =>
      -- the clock is not advanced
      ({ sim with state, ctx }, .error (.physics err))
  | ((state, ctx), .ok ()) =>
      let sim := { sim with state, ctx }
      let sim := sim.record (.stateSnapshot (asSecs tickEnd)
        (env.plant.snapshot sim.state) (.fromEngine sim.engine))
      ({ sim with clock := sim.clock.advance env.tickDt }, .ok ())

def tick (sim : Simulator π ψ σ ρ κ) : Outcome π ψ σ ρ κ :=
  let tickEnd := sim.clock.now + env.tickDt
  let (events, clock) := sim.clock.drainUntil tickEnd
  let sim := events.foldl (processEvent env) { sim with clock }
  let sim := noteOverruns env tickEnd sim
  let (sim, result) := finishTick env tickEnd sim
  { sim := sim, fired := events, result := result }

/-! ## §5. The drivers. -/

/-- `while now < end { tick()?; }`, so many passes. -/
def runForLoop (endAt : Nat) :
    Nat → Simulator π ψ σ ρ κ → Outcome π ψ σ ρ κ
  | 0, sim => { sim := sim, fired := [], result := .ok () }
  | fuel + 1, sim =>
      if sim.clock.now < endAt then
        (tick env sim).andThen (runForLoop endAt fuel)
      else { sim := sim, fired := [], result := .ok () }

/-- The passes that fit a duration, and one. -/
def passes (duration : Nat) : Nat := duration / env.tickDt + 1

def runFor (duration : Nat) (sim : Simulator π ψ σ ρ κ) :
    Outcome π ψ σ ρ κ :=
  let endAt := sim.clock.now + duration
  let sim := { sim with clock := preloadEvents env.cfg endAt sim.clock }
  runForLoop env endAt (passes env duration) sim

/-- The loop of `run_until`; the predicate is called for the `calls`-th
time. -/
def runUntilLoop (predicate : Nat → Simulator π ψ σ ρ κ → Bool)
    (endAt : Nat) :
    Nat → Nat → Simulator π ψ σ ρ κ → Outcome π ψ σ ρ κ
  | 0, calls, sim =>
      if predicate calls sim then { sim := sim, fired := [], result := .ok () }
      else { sim := sim, fired := [], result := .error .maxDurationExceeded }
  | fuel + 1, calls, sim =>
      if predicate calls sim then { sim := sim, fired := [], result := .ok () }
      else if sim.clock.now ≥ endAt then
        { sim := sim, fired := [], result := .error .maxDurationExceeded }
      else
        (tick env sim).andThen (runUntilLoop predicate endAt fuel (calls + 1))

def runUntil (predicate : Nat → Simulator π ψ σ ρ κ → Bool) (max : Nat)
    (sim : Simulator π ψ σ ρ κ) : Outcome π ψ σ ρ κ :=
  let bound := sim.clock.now + min max HORIZON
  let endAt := sim.clock.now + max
  let sim := { sim with clock := preloadEvents env.cfg bound sim.clock }
  runUntilLoop env predicate endAt (passes env max) 0 sim

end Simulator

end ArgusManager
