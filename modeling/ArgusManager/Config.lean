/-
  ArgusManager.Config
  ───────────────────
  The part of the configuration the monitors and the policy layer read
  (`src/config.rs`), with the source's defaults.
-/
import Mathlib.Data.Rat.Defs

namespace ArgusManager

/-! ## §1. Monitors. -/

/-- Thresholds of the available memory in percent: lower is worse. -/
structure MemoryMonitorConfig where
  warningPct : ℚ
  criticalPct : ℚ
  emergencyPct : ℚ
  hysteresisPct : ℚ

/-- `impl Default for MemoryMonitorConfig`. -/
def MemoryMonitorConfig.default : MemoryMonitorConfig where
  warningPct := 40
  criticalPct := 20
  emergencyPct := 10
  hysteresisPct := 5

/-- Thresholds in millidegrees Celsius. -/
structure ThermalMonitorConfig where
  warningMc : Int
  criticalMc : Int
  emergencyMc : Int
  hysteresisMc : Int

/-- `impl Default for ThermalMonitorConfig`. -/
def ThermalMonitorConfig.default : ThermalMonitorConfig where
  warningMc := 60000
  criticalMc := 75000
  emergencyMc := 85000
  hysteresisMc := 5000

/-- Thresholds of the usage in percent; there is none for `Emergency`. -/
structure ComputeMonitorConfig where
  warningPct : ℚ
  criticalPct : ℚ
  hysteresisPct : ℚ

/-- `impl Default for ComputeMonitorConfig`. -/
def ComputeMonitorConfig.default : ComputeMonitorConfig where
  warningPct := 70
  criticalPct := 90
  hysteresisPct := 5

/-- Thresholds of the battery charge in percent: lower is worse. -/
structure EnergyMonitorConfig where
  warningPct : ℚ
  criticalPct : ℚ
  emergencyPct : ℚ
  warningPowerBudgetMw : Nat
  criticalPowerBudgetMw : Nat
  emergencyPowerBudgetMw : Nat
  ignoreWhenCharging : Bool

/-- `impl Default for EnergyMonitorConfig`. -/
def EnergyMonitorConfig.default : EnergyMonitorConfig where
  warningPct := 30
  criticalPct := 15
  emergencyPct := 5
  warningPowerBudgetMw := 3000
  criticalPowerBudgetMw := 1500
  emergencyPowerBudgetMw := 500
  ignoreWhenCharging := true

/-! ## §2. The policy. -/

/-- Enter/exit thresholds of the Rust-side trigger flags. -/
structure TriggerConfig where
  tbtEnter : ℚ
  tbtExit : ℚ
  tbtWarmupTokens : UInt32
  memEnter : ℚ
  memExit : ℚ
  tempEnter : ℚ
  tempExit : ℚ

/-- `impl Default for TriggerConfig`. -/
def TriggerConfig.default : TriggerConfig where
  tbtEnter := 0.30
  tbtExit := 0.10
  tbtWarmupTokens := 20
  memEnter := 0.80
  memExit := 0.60
  tempEnter := 0.70
  tempExit := 0.50

structure AdaptationConfig where
  tempSafeC : ℚ
  tempCriticalC : ℚ
  trigger : TriggerConfig
  dedupCooldownSecs : ℚ

/-- `impl Default for AdaptationConfig`. -/
def AdaptationConfig.default : AdaptationConfig where
  tempSafeC := 35
  tempCriticalC := 50
  trigger := TriggerConfig.default
  dedupCooldownSecs := 60

end ArgusManager
