/-
  ArgusManager.Sim.Config
  ───────────────────────
  The scenario schema and its validation (`src/sim/config.rs`), after the
  YAML has been parsed.

  A hash map is the list of its entries in the order in which this map is
  iterated; maps with the same entries in another order are the same map.
-/
import ArgusManager.Lib.EntryMap
import ArgusManager.Sim.Expr
import Mathlib.Data.List.Nodup

namespace ArgusManager.Sim

/-! ## §1. Maps. -/

/-- A `HashMap<String, α>` and the order it is iterated in. -/
structure StrMap (α : Type) where
  entries : List (String × α)
  nodup : (entries.map Prod.fst).Nodup

namespace StrMap

variable {α : Type}

def empty : StrMap α := ⟨[], List.nodup_nil⟩

def single (key : String) (a : α) : StrMap α :=
  ⟨[(key, a)], List.nodup_singleton key⟩

def get (key : String) (m : StrMap α) : Option α := m.entries.lookup key

/-- The same map, iterated in another order. -/
def Same (m m' : StrMap α) : Prop := m.entries.Perm m'.entries

theorem get_eq_some {m : StrMap α} {key : String} {a : α} :
    m.get key = some a ↔ (key, a) ∈ m.entries :=
  EntryMap.lookup_eq_some m.nodup

/-- What a map holds does not depend on the order of its entries. -/
theorem get_perm {m m' : StrMap α} (h : m.Same m') (key : String) :
    m.get key = m'.get key := by
  refine Option.ext fun a => ?_
  rw [get_eq_some, get_eq_some]
  exact h.mem_iff

end StrMap

/-! ## §2. Actions. -/

/-- An effect's value: a number, an expression, or a text that is none. -/
inductive ExprOrValue where
  | literal (x : FloatVal)
  | expr (e : CompiledExpr)
  | stringLiteral (s : String)

/-- What an action does to one dimension. -/
inductive Effect where
  | set (value : ExprOrValue) (tauS : FloatVal)
  | scale (factor : ExprOrValue) (tauS : FloatVal)
  | add (value : ExprOrValue) (tauS : FloatVal)
  | setTau (value : FloatVal)

structure ActionSpec where
  /-- When the action applies; always, if there is none. -/
  guard : Option CompiledExpr
  effects : StrMap Effect

inductive CompositionOp where
  | multiply
  | add
  | addDelta
  | max
  | min
  deriving DecidableEq, Repr

structure Composition where
  default : CompositionOp
  perDimension : StrMap CompositionOp

/-- Effects of several actions together. -/
structure InteractionTerm where
  actions : List String
  effects : StrMap Effect

/-! ## §3. Dynamics. -/

structure ClusterThermalDynamics where
  baseline : FloatVal
  tauS : FloatVal
  heating : StrMap FloatVal

structure ThermalCoupling where
  cpuToGpu : FloatVal
  gpuToCpu : FloatVal

structure KvCacheGrowth where
  /-- Bytes for each token, by dtype. -/
  growthPerToken : StrMap Nat
  /-- When growth applies. -/
  appliesWhen : CompiledExpr

structure DerivedExpr where
  expr : CompiledExpr
  tauS : FloatVal

structure PassiveDynamics where
  cpuClusterThermalC : ClusterThermalDynamics
  gpuClusterThermalC : ClusterThermalDynamics
  thermalCoupling : ThermalCoupling
  thermalC : DerivedExpr
  memoryBwUtilizationPct : DerivedExpr
  kvCacheBytes : KvCacheGrowth

structure DvfsCluster where
  softThresholdC : FloatVal
  hardThresholdC : FloatVal
  kThermal : FloatVal
  tauS : FloatVal

structure DvfsConfig where
  cpu : DvfsCluster
  gpu : DvfsCluster

structure ExternalInjection where
  tStart : FloatVal
  duration : FloatVal
  var : String
  op : String
  delta : Option FloatVal
  deltaMb : Option FloatVal
  tauS : FloatVal

/-! ## §4. Observation. -/

structure HeartbeatObservation where
  intervalS : FloatVal

structure SignalSourceConfig where
  pollIntervalS : FloatVal

structure SignalsObservation where
  memory : SignalSourceConfig
  compute : SignalSourceConfig
  thermal : SignalSourceConfig
  energy : SignalSourceConfig

/-- The intervals; the noise only reaches the generator. -/
structure ObservationConfig where
  heartbeat : HeartbeatObservation
  signals : SignalsObservation

/-! ## §5. The initial state. -/

structure InitialState where
  kvCacheBytes : Nat
  kvCacheCapacityBytes : Nat
  kvCacheTokens : Nat
  kvCacheTokenCapacity : Nat
  kvDtype : String
  deviceMemoryTotalMb : Nat
  deviceMemoryUsedMb : Nat
  memoryBwUtilizationPct : FloatVal
  engineCpuPct : FloatVal
  externalCpuPct : FloatVal
  cpuFreqMhz : Nat
  cpuMaxFreqMhz : Nat
  cpuMinFreqMhz : Nat
  engineGpuPct : FloatVal
  externalGpuPct : FloatVal
  gpuFreqMhz : Nat
  gpuMaxFreqMhz : Nat
  gpuMinFreqMhz : Nat
  thermalC : FloatVal
  cpuClusterThermalC : FloatVal
  gpuClusterThermalC : FloatVal
  throttleThresholdC : FloatVal
  phase : String
  baseTpsDecodeGpu : FloatVal
  baseTpsDecodeCpu : FloatVal
  baseTpsDecodePartition : FloatVal
  baseTpsPrefillGpu : FloatVal
  activeDevice : String
  activeActions : List String
  partitionRatio : FloatVal
  throttleDelayMs : FloatVal
  tbtTargetMs : FloatVal

/-- `validate_kv_cache_capacity`, `validate_device_memory` and
`validate_kv_token_capacity`, by the code of the error each gives. -/
def InitialState.validate (s : InitialState) : List String :=
  (if s.kvCacheBytes > s.kvCacheCapacityBytes then
    ["kv_cache_bytes_exceeds_capacity"] else [])
  ++ (if s.deviceMemoryUsedMb > s.deviceMemoryTotalMb then
    ["memory_used_exceeds_total"] else [])
  ++ (if s.kvCacheTokens > s.kvCacheTokenCapacity then
    ["kv_tokens_exceeds_capacity"] else [])

/-! ## §6. The scenario. -/

structure ScenarioConfig where
  initialState : InitialState
  actions : StrMap ActionSpec
  composition : Composition
  interactions : List InteractionTerm
  passiveDynamics : PassiveDynamics
  dvfs : DvfsConfig
  derived : StrMap DerivedExpr
  externalInjections : List ExternalInjection
  observation : ObservationConfig

/-- `check_expr_node`: one of the three evaluations has to succeed; the error
is the one of the first. -/
def checkExprNode (ctx : ExprContext) (expr : CompiledExpr)
    (location : String) : List (String × EvalexprError) :=
  match expr.evalFloat ctx with
  | .ok _ => []
  | .error err =>
      match expr.evalBoolean ctx with
      | .ok _ => []
      | .error _ =>
          match expr.evalString ctx with
          | .ok _ => []
          | .error _ => [(location, err)]

/-- `check_effect_exprs`. -/
def checkEffectExprs (ctx : ExprContext) (effect : Effect)
    (location : String) : List (String × EvalexprError) :=
  match effect with
  | .set (.expr e) _ => checkExprNode ctx e location
  | .add (.expr e) _ => checkExprNode ctx e location
  | .scale (.expr e) _ => checkExprNode ctx e location
  | _ => []

/-- `validate_expressions`: the places whose expression fails in the dry run,
and how. -/
def ScenarioConfig.validateExpressions (cfg : ScenarioConfig) :
    List (String × EvalexprError) :=
  let ctx := makeDryRunContext
  checkExprNode ctx cfg.passiveDynamics.thermalC.expr
      "passive_dynamics.thermal_c"
    ++ checkExprNode ctx cfg.passiveDynamics.memoryBwUtilizationPct.expr
      "passive_dynamics.memory_bw_utilization_pct"
    ++ checkExprNode ctx cfg.passiveDynamics.kvCacheBytes.appliesWhen
      "passive_dynamics.kv_cache_bytes.applies_when"
    ++ cfg.derived.entries.flatMap (fun d =>
      checkExprNode ctx d.2.expr s!"derived.{d.1}")
    ++ cfg.actions.entries.flatMap (fun a =>
      (match a.2.guard with
        | some guard => checkExprNode ctx guard s!"actions.{a.1}.when"
        | none => [])
      ++ a.2.effects.entries.flatMap fun e =>
        checkEffectExprs ctx e.2 s!"actions.{a.1}.{e.1}")
    ++ cfg.interactions.zipIdx.flatMap fun term =>
      term.1.effects.entries.flatMap fun e =>
        checkEffectExprs ctx e.2 s!"interactions[{term.2}].{e.1}"

/-- `load_scenario` accepts the scenario. -/
def ScenarioConfig.Accepted (cfg : ScenarioConfig) : Prop :=
  cfg.initialState.validate = [] ∧ cfg.validateExpressions = []

/-! ## §7. Durations. -/

/-- The nearest integer, a tie to the even one. -/
def roundTiesEven (x : ℚ) : Int :=
  let low := ⌊x⌋
  if x - low < 1 / 2 then low
  else if 1 / 2 < x - low then low + 1
  else if low % 2 = 0 then low else low + 1

/-- `Duration::from_secs_f64`, in nanoseconds; it panics on a negative number,
on one that does not fit and on what is not finite. -/
def fromSecsF64 : FloatVal → Option Nat
  | .fin x =>
      if x < 0 ∨ 2 ^ 64 * 1000000000 ≤ (roundTiesEven (x * 1000000000)).toNat
      then none
      else some (roundTiesEven (x * 1000000000)).toNat
  | _ => none

/-- `Duration + Duration`; it panics on overflow. -/
def addDuration (a b : Nat) : Option Nat :=
  if a + b < 2 ^ 64 * 1000000000 then some (a + b) else none

theorem roundTiesEven_natCast (n : Nat) : roundTiesEven (n : ℚ) = n := by
  have hfloor : ⌊(n : ℚ)⌋ = (n : Int) := Int.floor_natCast n
  unfold roundTiesEven
  dsimp only
  rw [hfloor, if_pos]
  norm_num

/-- Whole seconds. -/
theorem fromSecsF64_natCast {n : Nat} (h : n < 2 ^ 64) :
    fromSecsF64 (.fin n) = some (n * 1000000000) := by
  have hround : roundTiesEven ((n : ℚ) * 1000000000)
      = ((n * 1000000000 : Nat) : Int) := by
    rw [← roundTiesEven_natCast (n * 1000000000)]
    push_cast
    rfl
  unfold fromSecsF64
  dsimp only
  rw [hround, Int.toNat_natCast, if_neg]
  rintro (hneg | hbig)
  · exact absurd hneg (not_lt.mpr (Nat.cast_nonneg n))
  · omega

/-! ## §8. A scenario. -/

/-- A scenario in which nothing moves, for examples to declare one thing
more. -/
def ScenarioConfig.still : ScenarioConfig where
  initialState :=
    { kvCacheBytes := 1000
      kvCacheCapacityBytes := 4000
      kvCacheTokens := 10
      kvCacheTokenCapacity := 40
      kvDtype := "f16"
      deviceMemoryTotalMb := 8000
      deviceMemoryUsedMb := 2000
      memoryBwUtilizationPct := .fin 0
      engineCpuPct := .fin 0
      externalCpuPct := .fin 0
      cpuFreqMhz := 2000
      cpuMaxFreqMhz := 2000
      cpuMinFreqMhz := 1000
      engineGpuPct := .fin 0
      externalGpuPct := .fin 0
      gpuFreqMhz := 800
      gpuMaxFreqMhz := 800
      gpuMinFreqMhz := 400
      thermalC := .fin 40
      cpuClusterThermalC := .fin 40
      gpuClusterThermalC := .fin 40
      throttleThresholdC := .fin 80
      phase := "idle"
      baseTpsDecodeGpu := .fin 20
      baseTpsDecodeCpu := .fin 8
      baseTpsDecodePartition := .fin 12
      baseTpsPrefillGpu := .fin 100
      activeDevice := "opencl"
      activeActions := []
      partitionRatio := .fin 0
      throttleDelayMs := .fin 0
      tbtTargetMs := .fin 100 }
  actions := .empty
  composition := ⟨.multiply, .empty⟩
  interactions := []
  passiveDynamics :=
    { cpuClusterThermalC := ⟨.fin 30, .fin 0, .empty⟩
      gpuClusterThermalC := ⟨.fin 30, .fin 0, .empty⟩
      thermalCoupling := ⟨.fin 0, .fin 0⟩
      thermalC := ⟨.literal "40.0" (.fin 40), .fin 0⟩
      memoryBwUtilizationPct := ⟨.literal "0.0" (.fin 0), .fin 0⟩
      kvCacheBytes := ⟨.empty, .flag false⟩ }
  dvfs :=
    ⟨⟨.fin 70, .fin 80, .fin 1, .fin 0⟩, ⟨.fin 70, .fin 80, .fin 1, .fin 0⟩⟩
  derived := .empty
  externalInjections := []
  observation :=
    ⟨⟨.fin 1⟩, ⟨⟨.fin 1⟩, ⟨.fin 1⟩, ⟨.fin 1⟩, ⟨.fin 1⟩⟩⟩

end ArgusManager.Sim
