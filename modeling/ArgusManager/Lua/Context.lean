/-
  ArgusManager.Lua.Context
  ────────────────────────
  The `ctx` table handed to `decide(ctx)` (`src/lua/context.rs`): pressures
  and trigger flags, what the heartbeat reported, and the raw readings.
-/
import ArgusManager.Policy.State

namespace ArgusManager

/-- `ctx.engine`.  Every field but `seen` is absent before the first
heartbeat; `kvFill` also while the denominator is unknown. -/
structure EngineTable where
  seen : Bool
  kvCacheBytes : Option Nat
  kvCacheBudgetBytes : Option Nat
  kvCacheTokens : Option Nat
  tbtMs : Option FloatVal
  phase : Option String
  state : Option String
  kvFill : Option ℚ
  deriving Repr

/-- `ctx.signal`, the raw readings behind the pressures. -/
structure SignalTable where
  available : Nat
  total : Nat
  cpuPct : ℚ
  gpuPct : ℚ
  tempC : ℚ
  throttling : Bool
  deriving Repr

structure Ctx where
  pressure : Pressure6D
  trigger : TriggerState
  engine : EngineTable
  signal : SignalTable
  deriving Repr

/-- The heartbeat, or an explicit "nothing heard yet". -/
def engineTable : Option EngineStatus → EngineTable
  | some st =>
      { seen := true
        kvCacheBytes := some st.kvCacheBytes
        kvCacheBudgetBytes := some st.kvCacheBudgetBytes
        kvCacheTokens := some st.kvCacheTokens
        tbtMs := some st.tbtMs
        phase := some (match st.phase with
          | .idle => "idle"
          | .prefill => "prefill"
          | .decode => "decode")
        state := some (match st.state with
          | .idle => "idle"
          | .running => "running"
          | .suspended => "suspended")
        kvFill :=
          if st.kvCacheBudgetBytes > 0
          then some ((st.kvCacheBytes : ℚ) / (st.kvCacheBudgetBytes : ℚ))
          else none }
  | none =>
      { seen := false
        kvCacheBytes := none
        kvCacheBudgetBytes := none
        kvCacheTokens := none
        tbtMs := none
        phase := none
        state := none
        kvFill := none }

@[simp] theorem engineTable_seen (engine : Option EngineStatus) :
    (engineTable engine).seen = engine.isSome := by
  cases engine <;> rfl

/-- Build the `ctx` table for one `decide` call. -/
def buildCtx (pressure : Pressure6D) (trigger : TriggerState)
    (signals : SignalState) (engine : Option EngineStatus) : Ctx where
  pressure := pressure
  trigger := trigger
  engine := engineTable engine
  signal :=
    { available := signals.memAvailable
      total := signals.memTotal
      cpuPct := signals.cpuPct
      gpuPct := signals.gpuPct
      tempC := (signals.tempMc : ℚ) / 1000
      throttling := signals.throttling }

end ArgusManager
