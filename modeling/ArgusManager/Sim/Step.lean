/-
  ArgusManager.Sim.Step
  ─────────────────────
  One physics step (`src/sim/physics.rs`), the heartbeat the simulator derives
  from a state (`src/sim/signal.rs`), and the two as the plant of a simulated
  scenario.

  The four signals and the noise generator are parameters (`Projections`);
  they do not touch the physical state.
-/
import ArgusManager.Sim.Compose
import ArgusManager.Sim.Derived
import ArgusManager.Sim.Harness

namespace ArgusManager.Sim

variable (m : FloatVal.Libm)

/-! ## §1. The step. -/

/-- The third phase after the first two; `none` if DVFS panics. -/
def physicalPhases (cfg : ScenarioConfig) (engine : EngineStateModel)
    (nowS dtS : FloatVal) (s : PhysicalState) : Option PhysicalState := do
  let s ← dvfsUpdate m cfg dtS s
  return externalInjectionApply m cfg nowS dtS
    (passiveDynamics m cfg engine dtS s)

/-- `step`. -/
def step (cfg : ScenarioConfig) (engine : EngineStateModel)
    (nowS dtS : FloatVal) (s : PhysicalState) (ctx : ExprContext) : Stepped :=
  match physicalPhases m cfg engine nowS dtS s with
  | none => ((s, ctx), .error .panic)
  | some s =>
      let r := applyActions m cfg engine dtS s ctx
      evaluate m cfg engine r.1 r.2

/-! ## §2. The heartbeat. -/

/-- The status in every heartbeat: `derive_heartbeat` computes levels, loads
and the engine's state, and uses none of them. -/
def heartbeatStatus : EngineStatus where
  kvCacheBytes := 1024
  kvCacheBudgetBytes := 4096
  kvCacheTokens := 32
  tbtMs := .fin (25 / 2)
  phase := .decode
  state := .running

/-- `derive_heartbeat`; `noise` is what its draws leave of the generator. -/
def deriveHeartbeat {ρ : Type} (noise : ρ → ρ) (_ : PhysicalState)
    (_ : EngineStateModel) (rng : ρ) : ρ × EngineMessage :=
  (noise rng, .heartbeat heartbeatStatus)

/-! ## §3. The plant. -/

structure PhysicalStateSnapshot where
  kvCacheBytes : FloatVal
  kvCacheTokens : FloatVal
  kvDtype : String
  deviceMemoryUsedMb : FloatVal
  deviceMemoryTotalMb : FloatVal
  memoryBwUtilizationPct : FloatVal
  engineCpuPct : FloatVal
  engineGpuPct : FloatVal
  cpuFreqMhz : FloatVal
  gpuFreqMhz : FloatVal
  thermalC : FloatVal
  cpuClusterThermalC : FloatVal
  gpuClusterThermalC : FloatVal
  throughputTps : FloatVal
  tbtMs : FloatVal

/-- `from_state`. -/
def PhysicalStateSnapshot.fromState (s : PhysicalState) :
    PhysicalStateSnapshot where
  kvCacheBytes := s.num .kvCacheBytes
  kvCacheTokens := s.num .kvCacheTokens
  kvDtype := s.kvDtype
  deviceMemoryUsedMb := s.num .deviceMemoryUsedMb
  deviceMemoryTotalMb := s.num .deviceMemoryTotalMb
  memoryBwUtilizationPct := s.num .memoryBwUtilizationPct
  engineCpuPct := s.num .engineCpuPct
  engineGpuPct := s.num .engineGpuPct
  cpuFreqMhz := s.num .cpuFreqMhz
  gpuFreqMhz := s.num .gpuFreqMhz
  thermalC := s.num .thermalC
  cpuClusterThermalC := s.num .cpuClusterThermalC
  gpuClusterThermalC := s.num .gpuClusterThermalC
  throughputTps := s.num .throughputTps
  tbtMs := s.num .tbtMs

/-- How the other signals are projected, and what a heartbeat leaves of the
noise generator. -/
structure Projections (ρ : Type) where
  memory : PhysicalState → ρ → ρ × SystemSignal
  compute : PhysicalState → ρ → ρ × SystemSignal
  thermal : PhysicalState → ρ → ρ × SystemSignal
  energy : PhysicalState → ρ → ρ × SystemSignal
  heartbeatNoise : ρ → ρ

/-- The text of `SimError::Expr`, without that of its cause; a panic carries
none. -/
def Stop.text : Stop → String
  | .expr location _ => s!"Expression evaluation error at {location}"
  | .panic => ""

def plant {ρ : Type} (cfg : ScenarioConfig) (proj : Projections ρ) :
    Plant PhysicalState PhysicalStateSnapshot ρ ExprContext where
  snapshot := .fromState
  deriveHeartbeat := deriveHeartbeat proj.heartbeatNoise
  deriveMemorySignal := proj.memory
  deriveComputeSignal := proj.compute
  deriveThermalSignal := proj.thermal
  deriveEnergySignal := proj.energy
  step engine now dt s ctx :=
    let r := step m cfg engine (asSecsF64 now) (.fin (asSecs dt)) s ctx
    (r.1, r.2.mapError Stop.text)

/-! ## §4. The scenario. -/

/-- The start and the duration of an injection as durations; the sum is its
end. -/
def ExternalInjection.timing (inj : ExternalInjection) :
    Option ArgusManager.ExternalInjection := do
  let tStart ← fromSecsF64 inj.tStart
  let duration ← fromSecsF64 inj.duration
  let _ ← addDuration tStart duration
  return { tStart, duration }

/-- The durations that `preload_events` takes from the scenario; `none` if
one of them panics. -/
def ScenarioConfig.timing (cfg : ScenarioConfig) :
    Option ArgusManager.ScenarioConfig := do
  let heartbeatInterval ← fromSecsF64 cfg.observation.heartbeat.intervalS
  let memoryPoll ← fromSecsF64 cfg.observation.signals.memory.pollIntervalS
  let computePoll ← fromSecsF64 cfg.observation.signals.compute.pollIntervalS
  let thermalPoll ← fromSecsF64 cfg.observation.signals.thermal.pollIntervalS
  let energyPoll ← fromSecsF64 cfg.observation.signals.energy.pollIntervalS
  let externalInjections ←
    cfg.externalInjections.mapM ExternalInjection.timing
  return { heartbeatInterval, memoryPoll, computePoll, thermalPoll,
           energyPoll, externalInjections }

/-- A scenario with its durations known. -/
structure Setup (ρ σ : Type) where
  m : FloatVal.Libm
  cfg : ScenarioConfig
  timing : ArgusManager.ScenarioConfig
  timing_eq : cfg.timing = some timing
  proj : Projections ρ
  policy : SimPolicy σ
  tickDt : Nat
  tickDt_pos : 0 < tickDt

namespace Setup

variable {ρ σ : Type}

/-- The scenario as the harness runs it. -/
def scenario (u : Setup ρ σ) :
    Scenario PhysicalState PhysicalStateSnapshot σ ρ ExprContext where
  cfg := u.timing
  plant := plant u.m u.cfg u.proj
  policy := u.policy
  tickDt := u.tickDt
  tickDt_pos := u.tickDt_pos

/-- A simulator of such a scenario. -/
abbrev Machine (_ : Setup ρ σ) : Type :=
  Simulator PhysicalState PhysicalStateSnapshot σ ρ ExprContext

/-- `Simulator::new`. -/
def start (u : Setup ρ σ) (policy : σ) (rng : ρ) : u.Machine :=
  .new (.fromConfig u.cfg.initialState) (engineFromConfig u.cfg.initialState)
    policy rng .new

end Setup

end ArgusManager.Sim
