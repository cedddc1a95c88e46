/-
  ArgusManager.Signal
  ───────────────────
  The monitor-to-policy vocabulary (`src/signal.rs`): four kinds of resource
  signal, each with the severity level its monitor computed.
-/
import Mathlib.Data.Rat.Defs
import Mathlib.Order.Lattice

namespace ArgusManager

/-- Severity, from least to most. -/
inductive Level where
  | normal
  | warning
  | critical
  | emergency
  deriving Repr, DecidableEq

/-- The position of a level in the source's order. -/
def Level.severity : Level → Nat
  | .normal => 0
  | .warning => 1
  | .critical => 2
  | .emergency => 3

/-- `PartialOrd` and `Ord` of `Level`. -/
instance : LinearOrder Level :=
  LinearOrder.lift' Level.severity fun a b h => by
    cases a <;> cases b <;> first | rfl | exact absurd h (by decide)

theorem Level.le_iff {a b : Level} : a ≤ b ↔ a.severity ≤ b.severity := Iff.rfl

theorem Level.lt_iff {a b : Level} : a < b ↔ a.severity < b.severity := Iff.rfl

inductive RecommendedBackend where
  | cpu
  | gpu
  | any
  deriving Repr, DecidableEq

inductive ComputeReason where
  | cpuBottleneck
  | gpuBottleneck
  | cpuAvailable
  | gpuAvailable
  | bothLoaded
  | balanced
  deriving Repr, DecidableEq

inductive EnergyReason where
  | batteryLow
  | batteryCritical
  | powerLimit
  | thermalPower
  | charging
  | none
  deriving Repr, DecidableEq

/-- What a monitor reports. -/
inductive SystemSignal where
  | memoryPressure (level : Level) (availableBytes totalBytes
      reclaimTargetBytes : Nat)
  | computeGuidance (level : Level) (recommendedBackend : RecommendedBackend)
      (reason : ComputeReason) (cpuUsagePct gpuUsagePct : ℚ)
  | thermalAlert (level : Level) (temperatureMc : Int)
      (throttlingActive : Bool) (throttleRatio : ℚ)
  | energyConstraint (level : Level) (reason : EnergyReason)
      (powerBudgetMw : Nat)
  deriving Repr

end ArgusManager
