/-
  ArgusManager.Sim.Trajectory
  ───────────────────────────
  The simulated engine's intent (`EngineStateModel`, `src/sim/state.rs`) and
  the simulator's record of a run (`src/sim/trajectory.rs`).

  A physical state is recorded as a snapshot of type `ψ`; times are seconds,
  exact.  Commands are kept as they are where the source keeps their debug
  text.
-/
import ArgusManager.Shared
import ArgusManager.Signal

namespace ArgusManager

/-! ## §1. The engine model. -/

/-- What the engine was told; the physical effects are the plant's. -/
structure EngineStateModel where
  activeDevice : String
  activeActions : List String
  phase : String
  partitionRatio : FloatVal
  throttleDelayMs : FloatVal
  tbtTargetMs : FloatVal
  skipRatio : FloatVal
  kvQuantBits : Option Nat
  lastEvictRatio : Option FloatVal
  lastSwitchDevice : Option String
  deriving Repr

namespace EngineStateModel

def applyCommand (e : EngineStateModel) : EngineCommand → EngineStateModel
  -- one-shot, so not an active action
  | .kvCompress budget => { e with lastEvictRatio := some budget }
  | .restoreDefaults =>
      { e with
        activeActions := []
        throttleDelayMs := .fin 0
        skipRatio := .fin 0
        partitionRatio := .fin 0
        lastEvictRatio := none }
  | .suspend => e
  | .resume => e
  | .gpuYield _ => e
  | .gpuOffload _ => e

def applyDirective (e : EngineStateModel) (dir : EngineDirective) :
    EngineStateModel :=
  dir.commands.foldl applyCommand e

end EngineStateModel

/-! ## §2. Dumps. -/

/-- `EngineStateSnapshot`. -/
structure EngineStateSnapshot where
  activeDevice : String
  activeActions : List String
  phase : String
  partitionRatio : FloatVal
  throttleDelayMs : FloatVal
  skipRatio : FloatVal
  deriving Repr

def EngineStateSnapshot.fromEngine (e : EngineStateModel) :
    EngineStateSnapshot where
  activeDevice := e.activeDevice
  activeActions := e.activeActions
  phase := e.phase
  partitionRatio := e.partitionRatio
  throttleDelayMs := e.throttleDelayMs
  skipRatio := e.skipRatio

def Phase.debug : Phase → String
  | .idle => "Idle"
  | .prefill => "Prefill"
  | .decode => "Decode"

structure EngineMessageDump where
  kind : String
  tbtMs : Option FloatVal
  kvCacheBytes : Option Nat
  kvCacheBudgetBytes : Option Nat
  kvCacheTokens : Option Nat
  phase : Option String
  deriving Repr

def EngineMessageDump.fromMsg : EngineMessage → EngineMessageDump
  | .heartbeat status =>
      { kind := "heartbeat"
        tbtMs := some status.tbtMs
        kvCacheBytes := some status.kvCacheBytes
        kvCacheBudgetBytes := some status.kvCacheBudgetBytes
        kvCacheTokens := some status.kvCacheTokens
        phase := some status.phase.debug }
  | .response _ =>
      { kind := "other"
        tbtMs := none
        kvCacheBytes := none
        kvCacheBudgetBytes := none
        kvCacheTokens := none
        phase := none }

def Level.debug : Level → String
  | .normal => "Normal"
  | .warning => "Warning"
  | .critical => "Critical"
  | .emergency => "Emergency"

/-- The JSON object a signal dump carries. -/
inductive SignalDetail where
  | memory (availableBytes totalBytes reclaimTargetBytes : Nat)
  | compute (cpuUsagePct gpuUsagePct : ℚ)
  | thermal (temperatureMc : Int) (throttlingActive : Bool)
  | energy (powerBudgetMw : Nat)
  deriving Repr

structure SignalDump where
  kind : String
  level : String
  detail : SignalDetail
  deriving Repr

def SignalDump.fromSignal : SystemSignal → SignalDump
  | .memoryPressure level available total reclaim =>
      { kind := "memory_pressure"
        level := level.debug
        detail := .memory available total reclaim }
  | .computeGuidance level _ _ cpu gpu =>
      { kind := "compute_guidance"
        level := level.debug
        detail := .compute cpu gpu }
  | .thermalAlert level temperature throttling _ =>
      { kind := "thermal_alert"
        level := level.debug
        detail := .thermal temperature throttling }
  | .energyConstraint level _ budget =>
      { kind := "energy_constraint"
        level := level.debug
        detail := .energy budget }

/-- `DirectiveDump`, its commands not yet turned into text. -/
structure DirectiveDump where
  seqId : Nat
  commands : List EngineCommand
  deriving Repr

def DirectiveDump.fromDirective (dir : EngineDirective) : DirectiveDump where
  seqId := dir.seqId
  commands := dir.commands

/-! ## §3. Entries. -/

/-- One record of a run. -/
inductive TrajectoryEntry (ψ : Type) where
  | stateSnapshot (atS : ℚ) (state : ψ) (engine : EngineStateSnapshot)
  | heartbeat (atS : ℚ) (message : EngineMessageDump)
  | signal (atS : ℚ) (signal : SignalDump)
  | directive (atS : ℚ) (trigger : SignalDump) (directive : DirectiveDump)
  | observationDue (atS : ℚ) (action : String) (recordedAtS : ℚ)
  | injectionEvent (atS : ℚ) (idx : Nat) (started : Bool)
  | custom (atS : ℚ) (name : String)
  | observationOverrun (atS : ℚ) (totalCount : Nat)
  | levelTransition (atS : ℚ) (signalKind : String)
      (fromLevel : Option String) (toLevel : String) (state : ψ)

/-- When an event other than an observation fired, if this is its record. -/
def TrajectoryEntry.firing? {ψ : Type} : TrajectoryEntry ψ → Option ℚ
  | .heartbeat atS _ => some atS
  | .signal atS _ => some atS
  | .injectionEvent atS _ _ => some atS
  | .custom atS _ => some atS
  | _ => none

abbrev Trajectory (ψ : Type) := List (TrajectoryEntry ψ)

/-- When the recorded events fired, in the order of the records. -/
def Trajectory.firings {ψ : Type} (t : Trajectory ψ) : List ℚ :=
  t.filterMap TrajectoryEntry.firing?

end ArgusManager
