/-
  ArgusManager.Sim.Expr
  ─────────────────────
  Expressions and their context (`src/sim/expr.rs`).

  Operator trees and how they evaluate are evalexpr's: an expression is its
  source text and any function from contexts to results.  A context does not
  let a variable change its type, and four names only ever hold strings, so
  the context is one map for floats and one for those four.
-/
import ArgusManager.Float
import Mathlib.Logic.Function.Basic

namespace ArgusManager.Sim

/-! ## §1. Values. -/

/-- `evalexpr::Value`. -/
inductive Value where
  | string (s : String)
  | float (x : FloatVal)
  | int (n : Int)
  | boolean (b : Bool)
  | tuple (values : List Value)
  | empty

/-- `evalexpr::EvalexprError`, as far as the simulator tells them apart. -/
inductive EvalexprError where
  | expectedFloat (actual : Value)
  | expectedBoolean (actual : Value)
  | expectedString (actual : Value)
  | variableIdentifierNotFound (name : String)
  | other (message : String)

/-! ## §2. The context. -/

/-- The names that hold strings. -/
inductive StrVar where
  | kvDtype
  | activeDevice
  | phase
  | device
  deriving DecidableEq, Repr

namespace StrVar

def name : StrVar → String
  | kvDtype => "kv_dtype"
  | activeDevice => "active_device"
  | phase => "phase"
  | device => "device"

def ofName? (name : String) : Option StrVar :=
  [kvDtype, activeDevice, phase, device].find? fun v => v.name == name

@[simp] theorem ofName?_name (v : StrVar) : ofName? v.name = some v := by
  cases v <;> rfl

end StrVar

structure ExprContext where
  num : String → Option FloatVal
  str : StrVar → Option String

namespace ExprContext

def new : ExprContext := ⟨fun _ => none, fun _ => none⟩

/-- `set_f64`; it panics on a name that holds a string. -/
def setF64 (name : String) (x : FloatVal) (ctx : ExprContext) :
    Option ExprContext :=
  match StrVar.ofName? name with
  | some _ => none
  | none => some { ctx with num := Function.update ctx.num name (some x) }

def setStr (v : StrVar) (s : String) (ctx : ExprContext) : ExprContext :=
  { ctx with str := Function.update ctx.str v (some s) }

/-- Floats under names that hold no strings; the names differ, so the order of
the assignments does not matter. -/
def bindNums (xs : List (String × FloatVal)) (ctx : ExprContext) :
    ExprContext :=
  { ctx with num := fun name => (xs.lookup name).or (ctx.num name) }

/-- What an identifier stands for. -/
def get (name : String) (ctx : ExprContext) : Option Value :=
  match StrVar.ofName? name with
  | some v => (ctx.str v).map .string
  | none => (ctx.num name).map .float

end ExprContext

/-! ## §3. Expressions. -/

structure CompiledExpr where
  source : String
  /-- `eval_with_context`. -/
  eval : ExprContext → Except EvalexprError Value

namespace CompiledExpr

/-- `eval_float_with_context`; an integer is not a float. -/
def evalFloat (ctx : ExprContext) (e : CompiledExpr) :
    Except EvalexprError FloatVal :=
  match e.eval ctx with
  | .ok (.float x) => .ok x
  | .ok actual => .error (.expectedFloat actual)
  | .error err => .error err

/-- `eval_boolean_with_context`. -/
def evalBoolean (ctx : ExprContext) (e : CompiledExpr) :
    Except EvalexprError Bool :=
  match e.eval ctx with
  | .ok (.boolean b) => .ok b
  | .ok actual => .error (.expectedBoolean actual)
  | .error err => .error err

/-- `eval_string_with_context`. -/
def evalString (ctx : ExprContext) (e : CompiledExpr) :
    Except EvalexprError String :=
  match e.eval ctx with
  | .ok (.string s) => .ok s
  | .ok actual => .error (.expectedString actual)
  | .error err => .error err

/-- The expression that is one identifier. -/
def ident (name : String) : CompiledExpr where
  source := name
  eval ctx :=
    match ctx.get name with
    | some value => .ok value
    | none => .error (.variableIdentifierNotFound name)

/-- The expression that is one float literal. -/
def literal (source : String) (x : FloatVal) : CompiledExpr where
  source := source
  eval _ := .ok (.float x)

/-- The expression that is one boolean literal. -/
def flag (b : Bool) : CompiledExpr where
  source := if b then "true" else "false"
  eval _ := .ok (.boolean b)

end CompiledExpr

/-! ## §4. The context of a dry run. -/

/-- The initial state's numbers, and the parameters of actions. -/
def dryRunNumericFields : List String :=
  ["kv_cache_bytes", "kv_cache_capacity_bytes", "kv_cache_tokens",
    "kv_cache_token_capacity", "device_memory_total_mb",
    "device_memory_used_mb", "memory_bw_utilization_pct", "engine_cpu_pct",
    "external_cpu_pct", "cpu_freq_mhz", "cpu_max_freq_mhz",
    "cpu_min_freq_mhz", "engine_gpu_pct", "external_gpu_pct", "gpu_freq_mhz",
    "gpu_max_freq_mhz", "gpu_min_freq_mhz", "thermal_c",
    "cpu_cluster_thermal_c", "gpu_cluster_thermal_c", "throttle_threshold_c",
    "base_tps_decode_gpu", "base_tps_decode_cpu",
    "base_tps_decode_partition", "base_tps_prefill_gpu", "partition_ratio",
    "throttle_delay_ms", "tbt_target_ms", "skip_ratio", "target_ratio",
    "delay_ms", "ratio", "bits"]

def dryRunDerivedFields : List String :=
  ["throughput_tps", "tbt_ms", "latency_degradation", "skip_ratio"]

/-- `make_dry_run_context`. -/
def makeDryRunContext : ExprContext where
  num name :=
    if name ∈ dryRunNumericFields ++ dryRunDerivedFields then some (.fin 0)
    else none
  str
    | .phase => some "idle"
    | .activeDevice => some "opencl"
    | .kvDtype => some "f16"
    | .device => some "opencl"

end ArgusManager.Sim
