/-
  ArgusManager.Monitor.Compute
  ────────────────────────────
  The compute monitor (`src/monitor/compute.rs`) from the two usages on, and
  the stateless level that the simulator shares.
-/
import ArgusManager.Config
import ArgusManager.Evaluator
import Mathlib.Algebra.Order.Ring.Rat

namespace ArgusManager

/-- `f64::MAX`. -/
def F64_MAX : ℚ := (2 ^ 53 - 1) * 2 ^ 971

/-- `compute_level_from_pcts`: the default thresholds, no hysteresis. -/
def computeLevelFromPcts (cpuPct gpuPct : ℚ) : Level :=
  let cfg := ComputeMonitorConfig.default
  let worst := max cpuPct gpuPct
  if worst ≥ cfg.criticalPct then .critical
  else if worst ≥ cfg.warningPct then .warning
  else .normal

/-- `compute_recommendation`. -/
def computeRecommendation (cpu gpu warningPct : ℚ) :
    RecommendedBackend × ComputeReason :=
  let cpuHot := decide (cpu ≥ warningPct)
  let gpuHot := decide (gpu ≥ warningPct)
  match cpuHot, gpuHot with
  | true, true => (.any, .bothLoaded)
  | true, false => (.gpu, .cpuBottleneck)
  | false, true => (.cpu, .gpuBottleneck)
  | false, false =>
      if |cpu - gpu| < 10 then (.any, .balanced)
      else if cpu < gpu then (.cpu, .cpuAvailable)
      else (.gpu, .gpuAvailable)

/-- What `read_once` finds once there is a delta. -/
structure Usage where
  cpu : ℚ
  gpu : ℚ
  deriving Repr, DecidableEq

structure ComputeMonitor where
  evaluator : ThresholdEvaluator ℚ
  warningUsagePct : ℚ
  lastCpu : ℚ
  lastGpu : ℚ
  recommended : RecommendedBackend
  reason : ComputeReason

namespace ComputeMonitor

/-- The guidance has no `Emergency` level: its threshold is `f64::MAX`. -/
def thresholds (config : ComputeMonitorConfig) : Thresholds ℚ where
  warning := config.warningPct
  critical := config.criticalPct
  emergency := F64_MAX
  hysteresis := config.hysteresisPct

def new (config : ComputeMonitorConfig) : ComputeMonitor where
  evaluator := .new .ascending (thresholds config)
  warningUsagePct := config.warningPct
  lastCpu := 0
  lastGpu := 0
  recommended := .any
  reason := .balanced

def buildSignal (m : ComputeMonitor) : SystemSignal :=
  .computeGuidance m.evaluator.level m.recommended m.reason m.lastCpu m.lastGpu

/-- One round of `run`; `none` is the first snapshot or a failed read. -/
def poll (m : ComputeMonitor) : Option Usage →
    ComputeMonitor × Option SystemSignal
  | some usage =>
      let worst := max usage.cpu usage.gpu
      let (recommended, reason) :=
        computeRecommendation usage.cpu usage.gpu m.warningUsagePct
      let m : ComputeMonitor :=
        { m with
          evaluator := (m.evaluator.evaluate worst).1
          lastCpu := usage.cpu
          lastGpu := usage.gpu
          recommended
          reason }
      (m, some m.buildSignal)
  | none => (m, none)

/-- The monitor over its rounds. -/
def machine : Mealy ComputeMonitor (Option Usage) (Option SystemSignal) :=
  ⟨poll⟩

end ComputeMonitor

end ArgusManager
