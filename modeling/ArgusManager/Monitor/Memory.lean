/-
  ArgusManager.Monitor.Memory
  ───────────────────────────
  The memory monitor (`src/monitor/memory.rs`) from what `/proc/meminfo` says
  on, and the stateless level that the simulator shares.
-/
import ArgusManager.Config
import ArgusManager.Evaluator
import Mathlib.Algebra.Order.Ring.Rat
import Mathlib.Data.Rat.Floor

namespace ArgusManager

/-- `memory_level_from_available_pct`: the default thresholds, no
hysteresis. -/
def memoryLevelFromAvailablePct (availablePct : ℚ) : Level :=
  let cfg := MemoryMonitorConfig.default
  if availablePct ≤ cfg.emergencyPct then .emergency
  else if availablePct ≤ cfg.criticalPct then .critical
  else if availablePct ≤ cfg.warningPct then .warning
  else .normal

/-- Total and available bytes. -/
structure Meminfo where
  total : Nat
  available : Nat
  deriving Repr, DecidableEq

/-- The percentage that is evaluated; nothing in total counts as free. -/
def Meminfo.pct (info : Meminfo) : ℚ :=
  if info.total = 0 then 100
  else (info.available : ℚ) / (info.total : ℚ) * 100

structure MemoryMonitor where
  evaluator : ThresholdEvaluator ℚ
  lastTotal : Nat
  lastAvailable : Nat

namespace MemoryMonitor

def thresholds (config : MemoryMonitorConfig) : Thresholds ℚ where
  warning := config.warningPct
  critical := config.criticalPct
  emergency := config.emergencyPct
  hysteresis := config.hysteresisPct

def new (config : MemoryMonitorConfig) : MemoryMonitor where
  evaluator := .new .descending (thresholds config)
  lastTotal := 0
  lastAvailable := 0

def buildSignal (m : MemoryMonitor) : SystemSignal :=
  let reclaim := match m.evaluator.level with
    | .normal => 0
    | .warning => ⌊(m.lastTotal : ℚ) * 0.05⌋.toNat
    | .critical => ⌊(m.lastTotal : ℚ) * 0.10⌋.toNat
    | .emergency => ⌊(m.lastTotal : ℚ) * 0.20⌋.toNat
  .memoryPressure m.evaluator.level m.lastAvailable m.lastTotal reclaim

/-- One round of `run`; `none` is a failed read, which is only logged. -/
def poll (m : MemoryMonitor) : Option Meminfo →
    MemoryMonitor × Option SystemSignal
  | some info =>
      let m : MemoryMonitor :=
        { evaluator := (m.evaluator.evaluate info.pct).1
          lastTotal := info.total
          lastAvailable := info.available }
      (m, some m.buildSignal)
  | none => (m, none)

/-- The monitor over its rounds. -/
def machine : Mealy MemoryMonitor (Option Meminfo) (Option SystemSignal) :=
  ⟨poll⟩

end MemoryMonitor

end ArgusManager
