/-
  ArgusManager.LuaPolicy
  ──────────────────────
  The Lua-scripted policy (`src/lua_policy.rs`): signals are normalized to
  pressures and trigger flags, handed to the script's `decide(ctx)`, and the
  value it returns is parsed into commands.

  The VM is a type parameter `V`.  What a VM call does is an argument of the
  call that makes it (`Invoke`), and so is what loading a script finds
  (`Loader`): both are the outside world's answers.
-/
import ArgusManager.Lua.Context
import ArgusManager.Lua.Fallback
import ArgusManager.Lua.Value
import ArgusManager.Pipeline

namespace ArgusManager

/-! ## §1. Parsing what the script returned. -/

/-- Why an entry cannot be expressed as a command. -/
inductive ActionError where
  | conversion (field : String)
  | budgetOutOfRange (budget : FloatVal)
  | yieldNotAnInterval (every : LuaValue)
  | offloadNotABoolean (on : LuaValue)
  | unknownType (actionType : String)

/-- `u32::try_from(i)`, for an integer that is one. -/
def u32OfInteger (i : Int) : Option Nat :=
  if 0 ≤ i ∧ i < 2 ^ 32 then some i.toNat else none

/-- An integral float in the range of `u32`. -/
def u32OfNumber : FloatVal → Option Nat
  | .fin n =>
      if n.isInt ∧ 0 ≤ n ∧ n ≤ 2 ^ 32 - 1 then some n.num.toNat else none
  | _ => none

/-- One action table. -/
def parseSingleAction (x : Bindings) (field : String → LuaValue) :
    Except ActionError EngineCommand :=
  match x.toStr (field "type") with
  | none => .error (.conversion "type")
  | some "kv.compress" =>
      match x.toF32 (field "budget") with
      | none => .error (.conversion "budget")
      | some budget =>
          if budget.isFinite && FloatVal.lt (.fin 0) budget
              && budget.le (.fin 1) then
            .ok (.kvCompress budget)
          else .error (.budgetOutOfRange budget)
  | some "restore_defaults" => .ok .restoreDefaults
  | some "suspend" => .ok .suspend
  | some "resume" => .ok .resume
  | some "gpu.yield" =>
      let every := match field "every" with
        | .integer i => u32OfInteger i
        | .number n => u32OfNumber n
        | _ => none
      match every.filter (fun e => decide (e ≤ x.gpuYieldEveryMax)) with
      | some every => .ok (.gpuYield every)
      | none => .error (.yieldNotAnInterval (field "every"))
  | some "gpu.offload" =>
      match field "on" with
      | .boolean on => .ok (.gpuOffload on)
      | other => .error (.offloadNotABoolean other)
  | some unknown => .error (.unknownType unknown)

/-- One entry of an action array: it must itself be a table. -/
def parseEntry (x : Bindings) : LuaValue → Except ActionError EngineCommand
  | .table field _ => parseSingleAction x field
  | _ => .error (.conversion "entry")

/-- `decide`'s return value as commands, and the count of dropped entries. -/
def parseActions (x : Bindings) (value : LuaValue) (dropped : Nat) :
    List EngineCommand × Nat :=
  match value with
  | .nil => ([], dropped)
  | .table field seq =>
      -- a single action table has a `type`, an array of them does not
      if !(field "type").isNil then
        match parseSingleAction x field with
        | .ok cmd => ([cmd], dropped)
        | .error _ => ([], dropped + 1)
      else
        seq.foldl
          (fun (acc : List EngineCommand × Nat) entry =>
            match parseEntry x entry with
            | .ok cmd => (acc.1 ++ [cmd], acc.2)
            | .error _ => (acc.1, acc.2 + 1))
          ([], dropped)
  | _ => ([], dropped + 1)

/-! ## §2. The policy's state. -/

structure PolicyMeta where
  name : String
  version : String
  deriving Repr, DecidableEq

/-- Consecutive whole-VM failures before the policy stops calling Lua. -/
def FALLBACK_ERROR_THRESHOLD : Nat := 3

/-- `struct LuaPolicy`.  The process-wide `SEQ_COUNTER` is kept with it: the
policy is what draws from it. -/
structure LuaPolicy (V : Type) where
  lua : V
  scriptPath : Path
  policyMeta : Option PolicyMeta
  signalState : SignalState
  triggerEngine : TriggerEngine
  engineState : Option EngineStatus
  adaptationConfig : AdaptationConfig
  consecutiveErrors : Nat
  permanentFallback : Bool
  droppedActions : Nat
  seqCounter : UInt64

/-- What one call of the script's `decide` does: the VM afterwards, and the
value it returned or the error it failed with. -/
abbrev Invoke (V : Type) := V → Ctx → V × Except String LuaValue

namespace LuaPolicy

variable {V : Type}

/-- Per-axis pressure from the latest readings. -/
def pressure (p : LuaPolicy V) : Pressure6D :=
  p.signalState.pressureWithThermal p.adaptationConfig.tempSafeC
    p.adaptationConfig.tempCriticalC p.triggerEngine.tbtDegradationRatio

/-- The `ctx` the next `decide` call is handed. -/
def ctx (p : LuaPolicy V) : Ctx :=
  buildCtx p.pressure p.triggerEngine.state p.signalState p.engineState

/-- Call `decide(ctx)`, falling back on a VM-level failure; the third failure
in a row latches the fallback. -/
def callDecide (x : Bindings) (invoke : Invoke V) (p : LuaPolicy V)
    (signal : SystemSignal) : LuaPolicy V × List EngineCommand :=
  if p.permanentFallback then (p, fallbackDecide signal)
  else
    match invoke p.lua p.ctx with
    | (lua, .ok value) =>
        let (cmds, droppedActions) := parseActions x value p.droppedActions
        ({ p with lua, droppedActions, consecutiveErrors := 0 }, cmds)
    | (lua, .error _) =>
        let consecutiveErrors := p.consecutiveErrors + 1
        ({ p with
            lua
            consecutiveErrors
            permanentFallback :=
              if consecutiveErrors ≥ FALLBACK_ERROR_THRESHOLD then true
              else p.permanentFallback }, fallbackDecide signal)

/-- Fold a signal into the readings and the trigger flags. -/
def observe (p : LuaPolicy V) : SystemSignal → LuaPolicy V
  | .memoryPressure _ availableBytes totalBytes _ =>
      let signalState := p.signalState.updateMemory availableBytes totalBytes
      let pr : ℚ :=
        if totalBytes > 0 then 1 - (availableBytes : ℚ) / (totalBytes : ℚ)
        else 0
      { p with signalState, triggerEngine := p.triggerEngine.updateMem pr }
  | .computeGuidance _ _ _ cpuUsagePct gpuUsagePct =>
      { p with
        signalState := p.signalState.updateCompute cpuUsagePct gpuUsagePct }
  | .thermalAlert _ temperatureMc throttlingActive _ =>
      let p := { p with
        signalState :=
          p.signalState.updateThermal temperatureMc throttlingActive }
      { p with
        triggerEngine := p.triggerEngine.updateTemp p.pressure.thermal }
  | .energyConstraint .. => p

/-- `PolicyStrategy::process_signal`. -/
def processSignal (x : Bindings) (invoke : Invoke V) (signal : SystemSignal)
    (p : LuaPolicy V) : LuaPolicy V × Option EngineDirective :=
  let (p, commands) := (p.observe signal).callDecide x invoke signal
  if commands.isEmpty then (p, none)
  else
    ({ p with seqCounter := p.seqCounter + 1 },
      some { seqId := p.seqCounter.toNat, commands })

/-- Issuing the commands of a call touches the sequence counter only. -/
theorem processSignal_of_callDecide {x : Bindings} {invoke : Invoke V}
    {signal : SystemSignal} {p p' : LuaPolicy V} {commands : List EngineCommand}
    (h : (p.observe signal).callDecide x invoke signal = (p', commands)) :
    ∃ n, p.processSignal x invoke signal
      = ({ p' with seqCounter := n },
          if commands.isEmpty then none
          else some { seqId := p'.seqCounter.toNat, commands }) := by
  unfold processSignal
  rw [h]
  dsimp only
  by_cases hempty : commands.isEmpty = true
  · rw [if_pos hempty, if_pos hempty]
    exact ⟨p'.seqCounter, rfl⟩
  · rw [if_neg hempty, if_neg hempty]
    exact ⟨p'.seqCounter + 1, rfl⟩

/-- `PolicyStrategy::update_engine_state`; responses are only logged. -/
def updateEngineState : EngineMessage → LuaPolicy V → LuaPolicy V
  | .heartbeat status, p =>
      { p with
        triggerEngine := p.triggerEngine.updateTbtMs status.tbtMs
        engineState := some status }
  | .response _, p => p

/-- `PolicyStrategy::mode`. -/
def mode (p : LuaPolicy V) : OperatingMode :=
  let t := p.triggerEngine.state
  -- memory is the axis with a hard floor under it
  if t.memLow then .critical
  else if t.tempHigh || t.tbtDegraded then .warning
  else .normal

/-! ## §3. Loading a script. -/

/-- What loading a script takes from the file system and from `mlua`. -/
structure Loader (V : Type) where
  readToString : String → Except String String
  /-- The sandboxed VM with its memory limit. -/
  newVm : V
  registerSysHelpers : V → Except String V
  exec : V → String → Except String V
  getDecide : V → Except String LuaValue
  logPolicyMeta : V → Option PolicyMeta

/-- `load_script`: evaluate the file and require a global `decide`. -/
def loadScript (l : Loader V) (lua : V) (scriptPath : String) :
    Except String V := do
  let script ← (l.readToString scriptPath).mapError fun e =>
    s!"Failed to read Lua script {scriptPath}: {e}"
  let lua ← (l.exec lua script).mapError fun e =>
    s!"Failed to evaluate Lua script {scriptPath}: {e}"
  let decide ← (l.getDecide lua).mapError fun e =>
    s!"Failed to get 'decide' global: {e}"
  if decide.isFunction then .ok lua
  else
    .error s!"Lua script {scriptPath} must define a global `decide(ctx)` function"

/-- A sandboxed VM with the `sys` helpers registered. -/
def freshVm (l : Loader V) : Except String V :=
  (l.registerSysHelpers l.newVm).mapError fun e =>
    s!"Failed to register sys helpers: {e}"

/-- The policy around a VM whose script has just been loaded. -/
def fresh (lua : V) (scriptPath : String) (policyMeta : Option PolicyMeta)
    (config : AdaptationConfig) : LuaPolicy V where
  lua := lua
  scriptPath := .utf8 scriptPath
  policyMeta := policyMeta
  signalState := SignalState.default
  triggerEngine := TriggerEngine.new config.trigger
  engineState := none
  adaptationConfig := config
  consecutiveErrors := 0
  permanentFallback := false
  droppedActions := 0
  seqCounter := 1

/-- `LuaPolicy::new_with_gpu`. -/
def new (l : Loader V) (scriptPath : String) (config : AdaptationConfig) :
    Except String (LuaPolicy V) := do
  let lua ← freshVm l
  let lua ← loadScript l lua scriptPath
  return fresh lua scriptPath (l.logPolicyMeta lua) config

/-- The fresh VM a reload builds before it touches the policy. -/
def loadFresh (l : Loader V) (path : Path) : Except String V :=
  match path.toStr with
  | none => .error "non-UTF-8 script path"
  | some pathStr => do
      let lua ← freshVm l
      loadScript l lua pathStr

/-- `ReloadablePolicy::reload_script`: swap the script only if the new one
loads cleanly. -/
def reloadScript (l : Loader V) (path : Path) (p : LuaPolicy V) :
    LuaPolicy V × Except String Unit :=
  match loadFresh l path with
  | .error e => (p, .error e)
  | .ok lua =>
      ({ p with
          policyMeta := l.logPolicyMeta lua
          lua
          scriptPath := path
          consecutiveErrors := 0
          permanentFallback := false }, .ok ())

/-! ## §4. The trait. -/

/-- The world's answers to one call on a Lua policy. -/
structure World (V : Type) where
  invoke : Invoke V
  loader : Loader V

/-- `impl PolicyStrategy for LuaPolicy`. -/
def strategy (x : Bindings) : PolicyStrategy (LuaPolicy V) (World V) where
  processSignal w signal p := p.processSignal x w.invoke signal
  updateEngineState := updateEngineState
  cancelLastObservation p := p
  asReloadable := some
    { reloadScript := fun w path p => p.reloadScript w.loader path
      scriptPath := fun p => some p.scriptPath }

end LuaPolicy

end ArgusManager
