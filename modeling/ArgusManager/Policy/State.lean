/-
  ArgusManager.Policy.State
  ─────────────────────────
  The policy's view of the platform (`src/policy/common/state.rs`): the latest
  readings, their normalization to pressures, the TBT tracker, and the
  enter/exit hysteresis behind the trigger flags.

  Arithmetic is exact.  `warmupCount` keeps its 32 bits; a wrap needs 2³²
  heartbeats.
-/
import ArgusManager.Config
import ArgusManager.Shared
import Mathlib.Algebra.Order.Field.Rat

namespace ArgusManager

/-- `x.clamp(lo, hi)` for `lo ≤ hi`. -/
def clamp (x lo hi : ℚ) : ℚ := if x < lo then lo else if hi < x then hi else x

/-! ## §1. Readings and pressures. -/

/-- Per-axis pressure, as handed to the script. -/
structure Pressure6D where
  gpu : ℚ
  cpu : ℚ
  memory : ℚ
  thermal : ℚ
  latency : ℚ
  mainApp : ℚ
  deriving Repr

/-- The latest reading of every axis. -/
structure SignalState where
  cpuPct : ℚ
  gpuPct : ℚ
  memAvailable : Nat
  memTotal : Nat
  tempMc : Int
  throttling : Bool
  deriving Repr

namespace SignalState

/-- `SignalState::default()`. -/
def default : SignalState where
  cpuPct := 0
  gpuPct := 0
  memAvailable := 0
  memTotal := 0
  tempMc := 0
  throttling := false

def updateCompute (s : SignalState) (cpuPct gpuPct : ℚ) : SignalState :=
  { s with cpuPct, gpuPct }

def updateMemory (s : SignalState) (available total : Nat) : SignalState :=
  { s with memAvailable := available, memTotal := total }

def updateThermal (s : SignalState) (tempMc : Int) (throttling : Bool) :
    SignalState :=
  { s with tempMc, throttling }

/-- Normalize the readings; `latencyRatio` is the TBT degradation once a
baseline exists. -/
def pressureWithThermal (s : SignalState) (tempSafeC tempCriticalC : ℚ)
    (latencyRatio : Option ℚ) : Pressure6D :=
  let memPressure : ℚ :=
    if s.memTotal > 0 then 1 - (s.memAvailable : ℚ) / (s.memTotal : ℚ) else 0
  let tempC : ℚ := (s.tempMc : ℚ) / 1000
  let tempRange := tempCriticalC - tempSafeC
  let thermal :=
    if tempRange > 0 then clamp ((tempC - tempSafeC) / tempRange) 0 1 else 0
  { gpu := clamp (s.gpuPct / 100) 0 1
    cpu := clamp (s.cpuPct / 100) 0 1
    memory := clamp memPressure 0 1
    thermal := thermal
    latency := latencyRatio.getD 0
    mainApp := 0 }

end SignalState

/-! ## §2. Time between tokens. -/

/-- The EWMA of the heartbeat's TBT and the baseline taken after warm-up. -/
structure TbtTracker where
  ewma : ℚ
  baseline : Option ℚ
  warmupCount : UInt32
  warmupTarget : UInt32
  deriving Repr

namespace TbtTracker

def new (warmupTarget : UInt32) : TbtTracker where
  ewma := 0
  baseline := none
  warmupCount := 0
  warmupTarget := warmupTarget

def observe (t : TbtTracker) (tbtMs : ℚ) : TbtTracker :=
  let ewma :=
    if t.warmupCount = 0 then tbtMs else 0.875 * t.ewma + 0.125 * tbtMs
  let warmupCount := t.warmupCount + 1
  let baseline :=
    if t.baseline.isNone && decide (warmupCount ≥ t.warmupTarget)
    then some ewma else t.baseline
  { t with ewma, warmupCount, baseline }

def degradationRatio (t : TbtTracker) : Option ℚ :=
  t.baseline.map fun b => if b > 0 then (t.ewma - b) / b else 0

end TbtTracker

/-! ## §3. Trigger flags. -/

structure TriggerState where
  tbtDegraded : Bool
  memLow : Bool
  tempHigh : Bool
  deriving Repr, DecidableEq

/-- Enter/exit hysteresis: a raised flag falls below `exit`, a lowered one
rises above `enter`. -/
def hysteresis (flag : Bool) (x enter exit : ℚ) : Bool :=
  if flag then (if x < exit then false else true)
  else if x > enter then true else false

structure TriggerEngine where
  config : TriggerConfig
  tbt : TbtTracker
  trigger : TriggerState

namespace TriggerEngine

def new (config : TriggerConfig) : TriggerEngine where
  config := config
  tbt := TbtTracker.new config.tbtWarmupTokens
  trigger := { tbtDegraded := false, memLow := false, tempHigh := false }

/-- Feed a heartbeat's TBT; NaN, infinite and non-positive values are no
observation. -/
def updateTbtMs (e : TriggerEngine) : FloatVal → TriggerEngine
  | .fin tbtMs =>
      if tbtMs ≤ 0 then e
      else
        let tbt := e.tbt.observe tbtMs
        match tbt.degradationRatio with
        | none => { e with tbt }
        | some ratio =>
            { e with
              tbt
              trigger := { e.trigger with
                tbtDegraded := hysteresis e.trigger.tbtDegraded ratio
                  e.config.tbtEnter e.config.tbtExit } }
  | _ => e

def updateMem (e : TriggerEngine) (pressure : ℚ) : TriggerEngine :=
  { e with
    trigger := { e.trigger with
      memLow := hysteresis e.trigger.memLow pressure
        e.config.memEnter e.config.memExit } }

def updateTemp (e : TriggerEngine) (normalized : ℚ) : TriggerEngine :=
  { e with
    trigger := { e.trigger with
      tempHigh := hysteresis e.trigger.tempHigh normalized
        e.config.tempEnter e.config.tempExit } }

def state (e : TriggerEngine) : TriggerState := e.trigger

def tbtDegradationRatio (e : TriggerEngine) : Option ℚ :=
  e.tbt.degradationRatio

end TriggerEngine

end ArgusManager
