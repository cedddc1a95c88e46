/-
  ArgusManager.Shared
  ───────────────────
  The vocabulary of the manager ↔ engine contract (`argus_shared`), as far as
  the manager reads and writes it, and the floating-point values it carries.

  A float is a rational or one of the three non-finite values: the arithmetic
  of the model is exact, the non-finite cases are kept because the source
  tests for them.  Equality of commands is the derived Rust `PartialEq`, under
  which a NaN differs from itself.
-/
import Mathlib.Data.Rat.Defs

namespace ArgusManager

/-! ## §1. Floating-point values. -/

/-- An `f32` or `f64`, its finite part taken exactly. -/
inductive FloatVal where
  | nan
  | negInf
  | fin (q : ℚ)
  | posInf
  deriving Repr, Inhabited

namespace FloatVal

def isFinite : FloatVal → Bool
  | .fin _ => true
  | _ => false

/-- IEEE `==`: a NaN differs from everything. -/
def eq : FloatVal → FloatVal → Bool
  | .fin x, .fin y => x == y
  | .negInf, .negInf => true
  | .posInf, .posInf => true
  | _, _ => false

/-- IEEE `<`: false as soon as a NaN is involved. -/
def lt : FloatVal → FloatVal → Bool
  | .fin x, .fin y => decide (x < y)
  | .fin _, .posInf => true
  | .negInf, .fin _ => true
  | .negInf, .posInf => true
  | _, _ => false

def le (x y : FloatVal) : Bool := lt x y || eq x y

instance : BEq FloatVal := ⟨eq⟩

@[simp] theorem fin_beq_fin (x y : ℚ) :
    ((FloatVal.fin x : FloatVal) == .fin y) = decide (x = y) :=
  rfl

end FloatVal

/-! ## §2. Manager → engine. -/

/-- One command of a directive. -/
inductive EngineCommand where
  /-- Keep this fraction of the uncompressed KV cache. -/
  | kvCompress (budget : FloatVal)
  | restoreDefaults
  | suspend
  | resume
  | gpuYield (every : Nat)
  | gpuOffload (on : Bool)
  deriving Repr, BEq, Inhabited

/-- A numbered batch of commands. -/
structure EngineDirective where
  seqId : Nat
  commands : List EngineCommand
  deriving Repr, Inhabited

/-- What the manager puts on the wire to an engine. -/
inductive ManagerMessage where
  | directive (d : EngineDirective)
  deriving Repr

/-! ## §3. Engine → manager. -/

inductive Phase where
  | idle
  | prefill
  | decode
  deriving Repr, DecidableEq

inductive EngineState where
  | idle
  | running
  | suspended
  deriving Repr, DecidableEq

/-- The body of a heartbeat. -/
structure EngineStatus where
  kvCacheBytes : Nat
  kvCacheBudgetBytes : Nat
  kvCacheTokens : Nat
  tbtMs : FloatVal
  phase : Phase
  state : EngineState
  deriving Repr

inductive CommandResult where
  | ok
  | partially (achieved : FloatVal) (reason : String)
  | rejected (reason : String)
  deriving Repr

structure CommandResponse where
  seqId : Nat
  results : List CommandResult
  deriving Repr

inductive EngineMessage where
  | heartbeat (status : EngineStatus)
  | response (resp : CommandResponse)
  deriving Repr

end ArgusManager
