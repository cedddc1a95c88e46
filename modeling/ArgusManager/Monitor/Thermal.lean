/-
  ArgusManager.Monitor.Thermal
  ────────────────────────────
  The thermal monitor (`src/monitor/thermal.rs`) from what the thermal zones
  say on, and the stateless level that the simulator shares.  The monitor
  counts in millidegrees, the simulator in degrees.
-/
import ArgusManager.Config
import ArgusManager.Evaluator
import Mathlib.Algebra.Order.Ring.Rat

namespace ArgusManager

/-- `thermal_level_from_temp_c`: the default thresholds in degrees, no
hysteresis. -/
def thermalLevelFromTempC (tempC : ℚ) : Level :=
  let cfg := ThermalMonitorConfig.default
  let warningC : ℚ := (cfg.warningMc : ℚ) / 1000
  let criticalC : ℚ := (cfg.criticalMc : ℚ) / 1000
  let emergencyC : ℚ := (cfg.emergencyMc : ℚ) / 1000
  if tempC ≥ emergencyC then .emergency
  else if tempC ≥ criticalC then .critical
  else if tempC ≥ warningC then .warning
  else .normal

def throttleRatioFromLevel : Level → ℚ
  | .normal => 1
  | .warning => 1
  | .critical => 0.7
  | .emergency => 0.3

/-- What `read_thermal_state` finds: the hottest monitored zone, and whether a
cooling device is active. -/
structure ThermalReading where
  maxTempMc : Int
  throttling : Bool
  deriving Repr, DecidableEq

structure ThermalMonitor where
  evaluator : ThresholdEvaluator ℚ
  lastTempMc : Int
  lastThrottling : Bool

namespace ThermalMonitor

def thresholds (config : ThermalMonitorConfig) : Thresholds ℚ where
  warning := config.warningMc
  critical := config.criticalMc
  emergency := config.emergencyMc
  hysteresis := config.hysteresisMc

def new (config : ThermalMonitorConfig) : ThermalMonitor where
  evaluator := .new .ascending (thresholds config)
  lastTempMc := 25000
  lastThrottling := false

def buildSignal (m : ThermalMonitor) : SystemSignal :=
  .thermalAlert m.evaluator.level m.lastTempMc m.lastThrottling
    (throttleRatioFromLevel m.evaluator.level)

/-- One round of `run`; `none` is a failed read, which is only logged. -/
def poll (m : ThermalMonitor) : Option ThermalReading →
    ThermalMonitor × Option SystemSignal
  | some reading =>
      let m : ThermalMonitor :=
        { evaluator := (m.evaluator.evaluate (reading.maxTempMc : ℚ)).1
          lastTempMc := reading.maxTempMc
          lastThrottling := reading.throttling }
      (m, some m.buildSignal)
  | none => (m, none)

/-- The monitor over its rounds. -/
def machine : Mealy ThermalMonitor (Option ThermalReading)
    (Option SystemSignal) :=
  ⟨poll⟩

end ThermalMonitor

end ArgusManager
