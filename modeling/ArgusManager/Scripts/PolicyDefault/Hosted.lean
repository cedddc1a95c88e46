/-
  ArgusManager.Scripts.PolicyDefault.Hosted
  ─────────────────────────────────────────
  **The default script inside `LuaPolicy`.**

  A VM running `policy_default.lua` is the script's two locals.  An `Oracle`
  says what the host meets on one operation: whether the call of `decide`
  fails at VM level, and whether the script file can be read.  A call that
  fails leaves the locals alone; loading the script sets them afresh.

    • `parseActions_toValue` — the parser reads back what the script meant,
    • `processSignal_spec` — everything one signal can do: the script moves and
      answers, or the fallback answers and the script stays,
    • `reloadScript_spec` — everything a reload can do.
-/
import ArgusManager.LuaPolicy
import ArgusManager.Scripts.PolicyDefault.Windows

namespace ArgusManager

/-- A policy whose world is read off a smaller one. -/
def PolicyStrategy.comap {σ ω ω' : Type} (f : ω' → ω)
    (P : PolicyStrategy σ ω) : PolicyStrategy σ ω' where
  processSignal w := P.processSignal (f w)
  updateEngineState := P.updateEngineState
  cancelLastObservation := P.cancelLastObservation
  asReloadable := P.asReloadable.map fun r =>
    { reloadScript := fun w => r.reloadScript (f w)
      scriptPath := r.scriptPath }

namespace PolicyDefault

/-! ## §1. The host. -/

/-- What the host meets on one operation. -/
structure Oracle where
  callError : Option String
  readError : Option String
  deriving DecidableEq, Repr

/-- Everything works. -/
def Oracle.fine : Oracle where
  callError := none
  readError := none

def POLICY_META : PolicyMeta where
  name := "argus_default"
  version := "3.0.0"

/-- One VM call of the script's `decide`. -/
def invoke (o : Oracle) : Invoke State := fun s ctx =>
  match o.callError with
  | some e => (s, .error e)
  | none => ((decide s ctx).1, .ok (Action.toValue (decide s ctx).2))

/-- Loading the script: its chunk sets both locals. -/
def loader (o : Oracle) : LuaPolicy.Loader State where
  readToString _ :=
    match o.readError with
    | some e => .error e
    | none => .ok "policy_default.lua"
  newVm := State.fresh
  registerSysHelpers := .ok
  exec _ _ := .ok State.fresh
  getDecide _ := .ok .function
  logPolicyMeta _ := some POLICY_META

def world (o : Oracle) : LuaPolicy.World State where
  invoke := invoke o
  loader := loader o

/-- The manager's policy, running the default script. -/
def strategy : PolicyStrategy (LuaPolicy State) Oracle :=
  (LuaPolicy.strategy Bindings.exact).comap world

/-- The policy as `LuaPolicy::new` builds it. -/
def hosted (scriptPath : String) (config : AdaptationConfig) :
    LuaPolicy State :=
  LuaPolicy.fresh State.fresh scriptPath (some POLICY_META) config

example (scriptPath : String) (config : AdaptationConfig) :
    LuaPolicy.new (loader .fine) scriptPath config
      = .ok (hosted scriptPath config) := rfl

/-! ## §2. Parsing what the script returns. -/

/-- An action as the command it is sent as. -/
def Action.toCommand : Action → EngineCommand
  | .kvCompress budget => .kvCompress (.fin budget)
  | .restoreDefaults => .restoreDefaults

/-- Equal commands come from equal actions. -/
theorem Action.toCommand_beq {a b : Action}
    (h : ([a.toCommand] == [b.toCommand]) = true) : a = b := by
  have hcmd : (a.toCommand == b.toCommand) = true := by
    simpa using h
  cases a with
  | kvCompress x =>
      cases b with
      | kvCompress y =>
          have hxy : Decidable.decide (x = y) = true := hcmd
          rw [of_decide_eq_true hxy]
      | restoreDefaults => exact Bool.noConfusion hcmd
  | restoreDefaults =>
      cases b with
      | kvCompress y => exact Bool.noConfusion hcmd
      | restoreDefaults => rfl

/-- A budget the script can return passes the parser's range check. -/
theorem parseActions_kvCompress {b : ℚ} (hb : b ∈ levels) (dropped : Nat) :
    parseActions Bindings.exact (Action.toValue (some (.kvCompress b))) dropped
      = ([.kvCompress (.fin b)], dropped) := by
  obtain ⟨hlo, hhi⟩ := levels_bounds hb
  have hpos : FloatVal.lt (.fin 0) (.fin b) = true := by
    show Decidable.decide ((0 : ℚ) < b) = true
    exact decide_eq_true (by linarith)
  have hle : FloatVal.le (.fin b) (.fin 1) = true := by
    show (Decidable.decide (b < 1) || _) = true
    rw [decide_eq_true (show b < 1 by linarith), Bool.true_or]
  have hsingle : parseSingleAction Bindings.exact
      (fun key => ((([("type", .string "kv.compress"),
        ("budget", .number (.fin b))] : List (String × LuaValue)).lookup
          key).getD .nil))
      = .ok (.kvCompress (.fin b)) := by
    show (if FloatVal.isFinite (.fin b) && FloatVal.lt (.fin 0) (.fin b)
        && FloatVal.le (.fin b) (.fin 1) then _ else _) = _
    rw [hpos, hle]
    rfl
  unfold parseActions Action.toValue LuaValue.record
  dsimp only
  rw [hsingle]
  rfl

/-- **The parser reads back what the script meant.** -/
theorem parseActions_toValue {s : State} {ctx : Ctx} (dropped : Nat) :
    parseActions Bindings.exact (Action.toValue (decide s ctx).2) dropped
      = ((decide s ctx).2.toList.map Action.toCommand, dropped) := by
  cases hout : (decide s ctx).2 with
  | none => rfl
  | some a =>
      cases a with
      | kvCompress b =>
          exact parseActions_kvCompress (decide_level hout) dropped
      | restoreDefaults => rfl

/-! ## §3. One operation. -/

/-- The VM is called on this operation and the call succeeds. -/
def Succeeds (p : LuaPolicy State) (o : Oracle) : Prop :=
  p.permanentFallback = false ∧ o.callError = none

instance (p : LuaPolicy State) (o : Oracle) : Decidable (Succeeds p o) :=
  inferInstanceAs (Decidable (_ ∧ _))

/-- The `ctx` the script is handed on a signal. -/
def ctxOf (p : LuaPolicy State) (signal : SystemSignal) : Ctx :=
  (p.observe signal).ctx

/-- Observing a signal touches the readings and the flags only. -/
theorem observe_frame (p : LuaPolicy State) (signal : SystemSignal) :
    (p.observe signal).lua = p.lua
      ∧ (p.observe signal).permanentFallback = p.permanentFallback
      ∧ (p.observe signal).engineState = p.engineState := by
  cases signal <;> exact ⟨rfl, rfl, rfl⟩

@[simp] theorem ctxOf_seen (p : LuaPolicy State) (signal : SystemSignal) :
    (ctxOf p signal).engine.seen = p.engineState.isSome := by
  rw [← (observe_frame p signal).2.2]
  exact engineTable_seen _

/-- **Everything one signal can do** to a hosted script. -/
inductive Answers (p : LuaPolicy State) (o : Oracle) (signal : SystemSignal)
    (p' : LuaPolicy State) (d : Option EngineDirective) : Prop where
  /-- The script moves, and its action is the directive. -/
  | script
      (hsucc : Succeeds p o)
      (hlua : p'.lua = (decide p.lua (ctxOf p signal)).1)
      (hlive : p'.permanentFallback = false)
      (hengine : p'.engineState = p.engineState)
      (hd : d.map EngineDirective.commands
        = (decide p.lua (ctxOf p signal)).2.map fun a => [a.toCommand])
  /-- The fallback speaks in its place. -/
  | fallback
      (hfail : ¬ Succeeds p o)
      (hlua : p'.lua = p.lua)
      (hengine : p'.engineState = p.engineState)
      (hd : d.map EngineDirective.commands
        = if (fallbackDecide signal).isEmpty then none
          else some (fallbackDecide signal))

/-- A call that is made and succeeds: the script moves and its action is read
back. -/
theorem callDecide_of_succeeds {p : LuaPolicy State} {o : Oracle}
    (h : Succeeds p o) (signal : SystemSignal) :
    ∃ p', p.callDecide Bindings.exact (invoke o) signal
        = (p', (decide p.lua p.ctx).2.toList.map Action.toCommand)
      ∧ p'.lua = (decide p.lua p.ctx).1
      ∧ p'.permanentFallback = false
      ∧ p'.engineState = p.engineState := by
  obtain ⟨hlive, hcall⟩ := h
  have hinv : invoke o p.lua p.ctx
      = ((decide p.lua p.ctx).1,
          .ok (Action.toValue (decide p.lua p.ctx).2)) := by
    unfold invoke
    rw [hcall]
  unfold LuaPolicy.callDecide
  rw [hlive, hinv]
  dsimp only
  -- nothing is dropped on the way
  rw [parseActions_toValue]
  exact ⟨_, rfl, rfl, rfl, rfl⟩

/-- Any other call leaves the script alone and answers with the fallback. -/
theorem callDecide_of_not_succeeds {p : LuaPolicy State} {o : Oracle}
    (h : ¬ Succeeds p o) (signal : SystemSignal) :
    ∃ p', p.callDecide Bindings.exact (invoke o) signal
        = (p', fallbackDecide signal)
      ∧ p'.lua = p.lua
      ∧ p'.engineState = p.engineState := by
  unfold LuaPolicy.callDecide
  by_cases hlive : p.permanentFallback = true
  · -- latched: the VM is not called at all
    rw [if_pos hlive]
    exact ⟨p, rfl, rfl, rfl⟩
  · rw [if_neg hlive]
    have hlive' : p.permanentFallback = false := by simpa using hlive
    obtain ⟨e, he⟩ := Option.ne_none_iff_exists'.mp fun hc => h ⟨hlive', hc⟩
    have hinv : invoke o p.lua p.ctx = (p.lua, .error e) := by
      unfold invoke
      rw [he]
    rw [hinv]
    exact ⟨_, rfl, rfl, rfl⟩

/-- **The step lemma** of a hosted script. -/
theorem processSignal_spec (p : LuaPolicy State) (o : Oracle)
    (signal : SystemSignal) :
    Answers p o signal (strategy.processSignal o signal p).1
      (strategy.processSignal o signal p).2 := by
  show Answers p o signal
    (p.processSignal Bindings.exact (invoke o) signal).1
    (p.processSignal Bindings.exact (invoke o) signal).2
  obtain ⟨hlua, hlive, hengine⟩ := observe_frame p signal
  by_cases h : Succeeds p o
  · have h' : Succeeds (p.observe signal) o := ⟨hlive.trans h.1, h.2⟩
    obtain ⟨p', hcall, hp', hlive', hengine'⟩ :=
      callDecide_of_succeeds h' signal
    obtain ⟨n, hq⟩ := LuaPolicy.processSignal_of_callDecide hcall
    rw [hq]
    rw [hlua] at hp'
    refine .script h hp' hlive' (hengine'.trans hengine) ?_
    rw [hlua]
    show _ = (decide p.lua (p.observe signal).ctx).2.map _
    cases (decide p.lua (p.observe signal).ctx).2 <;> rfl
  · have h' : ¬ Succeeds (p.observe signal) o :=
      fun hs => h ⟨hlive.symm.trans hs.1, hs.2⟩
    obtain ⟨p', hcall, hp', hengine'⟩ := callDecide_of_not_succeeds h' signal
    obtain ⟨n, hq⟩ := LuaPolicy.processSignal_of_callDecide hcall
    rw [hq]
    refine .fallback h (hp'.trans hlua) (hengine'.trans hengine) ?_
    split <;> rfl

/-- Before the first heartbeat no signal moves the script. -/
theorem processSignal_unseen {p : LuaPolicy State} (h : p.engineState = none)
    (o : Oracle) (signal : SystemSignal) :
    (strategy.processSignal o signal p).1.lua = p.lua
      ∧ (strategy.processSignal o signal p).1.engineState = none := by
  have hspec := processSignal_spec p o signal
  generalize (strategy.processSignal o signal p).1 = p' at *
  generalize (strategy.processSignal o signal p).2 = d at *
  cases hspec with
  | script _ hlua _ hengine _ =>
      have hunseen : (ctxOf p signal).engine.seen = false := by
        rw [ctxOf_seen, h]
        rfl
      rw [decide_unseen p.lua hunseen] at hlua
      exact ⟨hlua, hengine.trans h⟩
  | fallback _ hlua hengine _ => exact ⟨hlua, hengine.trans h⟩

/-- A successful call never latches the fallback. -/
theorem processSignal_live {p : LuaPolicy State} {o : Oracle}
    (h : Succeeds p o) (signal : SystemSignal) :
    (strategy.processSignal o signal p).1.permanentFallback = false := by
  have hspec := processSignal_spec p o signal
  generalize (strategy.processSignal o signal p).1 = p' at *
  generalize (strategy.processSignal o signal p).2 = d at *
  cases hspec with
  | script _ _ hlive _ _ => exact hlive
  | fallback hfail _ _ _ => exact absurd h hfail

/-- A reload fails without a trace, or leaves a freshly loaded script. -/
theorem reloadScript_spec (o : Oracle) (path : Path) (p : LuaPolicy State) :
    (∃ e, p.reloadScript (loader o) path = (p, .error e))
    ∨ ∃ p', p.reloadScript (loader o) path = (p', .ok ())
        ∧ p'.lua = State.fresh ∧ p'.engineState = p.engineState := by
  unfold LuaPolicy.reloadScript
  cases hload : LuaPolicy.loadFresh (loader o) path with
  | error e => exact .inl ⟨e, rfl⟩
  | ok lua =>
      right
      refine ⟨_, rfl, ?_, rfl⟩
      show lua = State.fresh
      cases path with
      | nonUtf8 bytes =>
          exact absurd hload (by simp [LuaPolicy.loadFresh, Path.toStr])
      | utf8 str =>
          cases hread : o.readError with
          | some e =>
              simp [LuaPolicy.loadFresh, Path.toStr, LuaPolicy.freshVm,
                LuaPolicy.loadScript, loader, hread, Except.mapError, bind,
                Except.bind] at hload
          | none =>
              simp [LuaPolicy.loadFresh, Path.toStr, LuaPolicy.freshVm,
                LuaPolicy.loadScript, loader, hread, Except.mapError, bind,
                Except.bind, LuaValue.isFunction] at hload
              exact hload.symm

end PolicyDefault

end ArgusManager
