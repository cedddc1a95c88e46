/-
  ArgusManager.LuaPolicy.Runs
  ───────────────────────────
  **Runs of a Lua policy, over any VM.**

  A run is any sequence of the three calls the manager makes on a
  `LuaPolicy`, each with what the VM and the file system answer to it.

    • `callDecide_cases`, `reloadScript_cases` — everything the two calls that
      depend on an answer can do,
    • `observe_frame`, `updateEngineState_frame` — what the two halves of the
      bookkeeping leave alone.
-/
import ArgusManager.Lib.Mealy
import ArgusManager.LuaPolicy

namespace ArgusManager.LuaPolicy

variable {V : Type}

/-! ## §1. Operations. -/

/-- One call on a Lua policy, with the outside world's answer to it. -/
inductive PolicyOp (V : Type) where
  | processSignal (invoke : Invoke V) (signal : SystemSignal)
  | updateEngineState (msg : EngineMessage)
  | reloadScript (loader : Loader V) (path : Path)

/-- What the caller gets back. -/
inductive PolicyOutput where
  | decided (directive : Option EngineDirective)
  | updated
  | reloaded (result : Except String Unit)

namespace PolicyOutput

def directive? : PolicyOutput → Option EngineDirective
  | .decided directive => directive
  | _ => none

/-- A reload that swapped the script. -/
def isReload : PolicyOutput → Bool
  | .reloaded (.ok _) => true
  | _ => false

end PolicyOutput

def apply (x : Bindings) (p : LuaPolicy V) :
    PolicyOp V → LuaPolicy V × PolicyOutput
  | .processSignal invoke signal =>
      let (p, directive) := p.processSignal x invoke signal
      (p, .decided directive)
  | .updateEngineState msg => (p.updateEngineState msg, .updated)
  | .reloadScript loader path =>
      let (p, result) := p.reloadScript loader path
      (p, .reloaded result)

def machine (V : Type) (x : Bindings) :
    Mealy (LuaPolicy V) (PolicyOp V) PolicyOutput := ⟨apply x⟩

/-- A file system and a VM on which every script loads. -/
def Loader.loadsAlways : Loader Unit where
  readToString _ := .ok ""
  newVm := ()
  registerSysHelpers _ := .ok ()
  exec _ _ := .ok ()
  getDecide _ := .ok .function
  logPolicyMeta _ := none

/-! ## §2. What each call can do. -/

/-- **The three ways a decision is made**: by the latched fallback, by the
script, or by the fallback after the VM failed. -/
theorem callDecide_cases (x : Bindings) (invoke : Invoke V)
    (p : LuaPolicy V) (signal : SystemSignal) :
    (p.permanentFallback = true
      ∧ p.callDecide x invoke signal = (p, fallbackDecide signal))
    ∨ (p.permanentFallback = false
      ∧ ∃ lua value, invoke p.lua p.ctx = (lua, .ok value)
        ∧ p.callDecide x invoke signal
          = ({ p with
                lua
                droppedActions := (parseActions x value p.droppedActions).2
                consecutiveErrors := 0 },
              (parseActions x value p.droppedActions).1))
    ∨ (p.permanentFallback = false
      ∧ ∃ lua e, invoke p.lua p.ctx = (lua, .error e)
        ∧ p.callDecide x invoke signal
          = ({ p with
                lua
                consecutiveErrors := p.consecutiveErrors + 1
                permanentFallback := decide
                  (FALLBACK_ERROR_THRESHOLD ≤ p.consecutiveErrors + 1) },
              fallbackDecide signal)) := by
  unfold callDecide
  cases hlatch : p.permanentFallback with
  | true => exact .inl ⟨rfl, by simp⟩
  | false =>
      rcases hinv : invoke p.lua p.ctx with ⟨lua, e | value⟩
      · refine .inr (.inr ⟨rfl, lua, e, rfl, ?_⟩)
        by_cases h : FALLBACK_ERROR_THRESHOLD ≤ p.consecutiveErrors + 1
        · simp [h]
        · simp [h]
      · exact .inr (.inl ⟨rfl, lua, value, rfl, by simp⟩)

/-- A policy is made around a VM on which the script has just loaded. -/
theorem new_ok {l : Loader V} {scriptPath : String}
    {config : AdaptationConfig} {p : LuaPolicy V}
    (hnew : new l scriptPath config = .ok p) :
    ∃ lua, p = fresh lua scriptPath (l.logPolicyMeta lua) config := by
  unfold new at hnew
  change Except.bind (freshVm l) _ = _ at hnew
  cases hvm : freshVm l with
  | error e =>
      rw [hvm] at hnew
      exact absurd hnew (by simp [Except.bind])
  | ok vm =>
      rw [hvm] at hnew
      change Except.bind (loadScript l vm scriptPath) _ = _ at hnew
      cases hload : loadScript l vm scriptPath with
      | error e =>
          rw [hload] at hnew
          exact absurd hnew (by simp [Except.bind])
      | ok lua =>
          rw [hload] at hnew
          injection hnew with hnew
          exact ⟨lua, hnew.symm⟩

/-- What a reload reads off its answers: the fresh VM, or why there is
none. -/
theorem reloadScript_cases (l : Loader V) (path : Path) (p : LuaPolicy V) :
    (∃ e, loadFresh l path = .error e ∧ p.reloadScript l path = (p, .error e))
    ∨ (∃ lua, loadFresh l path = .ok lua
      ∧ p.reloadScript l path
        = ({ p with
              policyMeta := l.logPolicyMeta lua
              lua
              scriptPath := path
              consecutiveErrors := 0
              permanentFallback := false }, .ok ())) := by
  unfold reloadScript
  cases h : loadFresh l path with
  | error e => exact .inl ⟨e, rfl, rfl⟩
  | ok lua => exact .inr ⟨lua, rfl, rfl⟩

/-- Folding a signal in touches the readings and the trigger engine only. -/
theorem observe_frame (p : LuaPolicy V) (signal : SystemSignal) :
    (p.observe signal).lua = p.lua
      ∧ (p.observe signal).engineState = p.engineState
      ∧ (p.observe signal).adaptationConfig = p.adaptationConfig
      ∧ (p.observe signal).consecutiveErrors = p.consecutiveErrors
      ∧ (p.observe signal).permanentFallback = p.permanentFallback
      ∧ (p.observe signal).droppedActions = p.droppedActions
      ∧ (p.observe signal).seqCounter = p.seqCounter := by
  cases signal <;> exact ⟨rfl, rfl, rfl, rfl, rfl, rfl, rfl⟩

/-- A message from the engine touches the trigger engine and the stored
status only. -/
theorem updateEngineState_frame (p : LuaPolicy V) (msg : EngineMessage) :
    (p.updateEngineState msg).lua = p.lua
      ∧ (p.updateEngineState msg).signalState = p.signalState
      ∧ (p.updateEngineState msg).adaptationConfig = p.adaptationConfig
      ∧ (p.updateEngineState msg).consecutiveErrors = p.consecutiveErrors
      ∧ (p.updateEngineState msg).permanentFallback = p.permanentFallback
      ∧ (p.updateEngineState msg).droppedActions = p.droppedActions
      ∧ (p.updateEngineState msg).seqCounter = p.seqCounter := by
  cases msg <;> exact ⟨rfl, rfl, rfl, rfl, rfl, rfl, rfl⟩

end ArgusManager.LuaPolicy
