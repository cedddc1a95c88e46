/-
  ArgusManager.Scripts.PolicyDefault.Failover
  ───────────────────────────────────────────
  **What a run says about the default script's locals.**

  Three voices answer the engine: the script, the fallback when a call fails,
  and the loader, which resets the script without a word.  The script knows
  only of its own answers.  `HostInv` reads its locals off the history of all
  three.

    • `host_inv` — the invariant holds after every run,
    • `budget_in_sync_iff` — when a script that says nothing still knows what
      the engine was last told.
-/
import ArgusManager.Scripts.PolicyDefault.Hosted

namespace ArgusManager.PolicyDefault

/-! ## §1. Runs of the hosted policy. -/

/-- The calls `main` makes on the policy. -/
inductive HostOp where
  | signal (o : Oracle) (signal : SystemSignal)
  | engine (msg : EngineMessage)
  | reload (o : Oracle) (path : Path)

inductive HostOutput where
  | directive (d : Option EngineDirective)
  | heard
  | reload (result : Except String Unit)

def hostStep (p : LuaPolicy State) : HostOp → LuaPolicy State × HostOutput
  | .signal o signal =>
      let (p, d) := strategy.processSignal o signal p
      (p, .directive d)
  | .engine msg => (strategy.updateEngineState msg p, .heard)
  | .reload o path =>
      let (p, result) := p.reloadScript (loader o) path
      (p, .reload result)

def host : Mealy (LuaPolicy State) HostOp HostOutput := ⟨hostStep⟩

abbrev HostTrace := List (Mealy.Step (LuaPolicy State) HostOp HostOutput)

/-- Who spoke on one step. -/
inductive Voice where
  | script (commands : List EngineCommand)
  | fallback (signal : SystemSignal)
  | reloaded
  | silent

def voice (e : Mealy.Step (LuaPolicy State) HostOp HostOutput) : Voice :=
  match e.input, e.output with
  | .signal o signal, .directive (some d) =>
      if Succeeds e.pre o then .script d.commands else .fallback signal
  | .reload _ _, .reload (.ok _) => .reloaded
  | _, _ => .silent

def isKvCompress : EngineCommand → Bool
  | .kvCompress _ => true
  | _ => false

/-- The script's own last action since it was last loaded is a
`kv.compress`. -/
def windowOpen (h : HostTrace) : Bool :=
  h.foldl
    (fun w e =>
      match voice e with
      | .script commands => commands.any isKvCompress
      | .reloaded => false
      | .fallback _ => w
      | .silent => w)
    false

/-- The last signal the fallback answered with commands since the script's
own last action. -/
def overriding (h : HostTrace) : Option SystemSignal :=
  h.foldl
    (fun w e =>
      match voice e with
      | .script _ => none
      | .fallback signal => some signal
      | .reloaded => w
      | .silent => w)
    none

theorem windowOpen_concat (h : HostTrace)
    (e : Mealy.Step (LuaPolicy State) HostOp HostOutput) :
    windowOpen (h ++ [e]) =
      match voice e with
      | .script commands => commands.any isKvCompress
      | .reloaded => false
      | .fallback _ => windowOpen h
      | .silent => windowOpen h := by
  unfold windowOpen
  rw [List.foldl_append, List.foldl_cons, List.foldl_nil]

theorem overriding_concat (h : HostTrace)
    (e : Mealy.Step (LuaPolicy State) HostOp HostOutput) :
    overriding (h ++ [e]) =
      match voice e with
      | .script _ => none
      | .fallback signal => some signal
      | .reloaded => overriding h
      | .silent => overriding h := by
  unfold overriding
  rw [List.foldl_append, List.foldl_cons, List.foldl_nil]

def HostOutput.commands : HostOutput → Option (List EngineCommand)
  | .directive d => d.map EngineDirective.commands
  | _ => none

/-- The last commands `process_signal` returned. -/
def lastReturned (h : HostTrace) : Option (List EngineCommand) :=
  (Mealy.said HostOutput.commands h).getLast?

theorem lastReturned_concat (h : HostTrace)
    (e : Mealy.Step (LuaPolicy State) HostOp HostOutput) :
    lastReturned (h ++ [e]) = e.output.commands.or (lastReturned h) := by
  unfold lastReturned
  rw [Mealy.said_concat, List.getLast?_append]
  cases e.output.commands <;> rfl

/-! ## §2. What a history says about the locals. -/

/-- **What a run's history says about the script's locals**: the two agree, a
budget is in force exactly while the script's window is open, and the last
commands returned are the script's own or the fallback's over it. -/
structure HostInv (h : HostTrace) (p : LuaPolicy State) : Prop where
  consistent : Consistent p.lua
  window : p.lua.applied ≠ none ↔ windowOpen h = true
  returned : ∀ b, p.lua.applied = some b →
    lastReturned h =
      match overriding h with
      | none => some [.kvCompress (.fin b)]
      | some signal => some (fallbackDecide signal)

theorem hostInv_nil {p : LuaPolicy State} (h : p.lua = State.fresh) :
    HostInv [] p := by
  refine ⟨?_, ?_, ?_⟩ <;> rw [h]
  · exact consistent_fresh
  · exact ⟨fun h => absurd rfl h, fun h => absurd h (by decide)⟩
  · intro b hb
    exact absurd hb (by simp [State.fresh])

/-- A step on which nobody speaks and the script stays keeps the invariant. -/
theorem HostInv.silent {h : HostTrace} {p : LuaPolicy State}
    {e : Mealy.Step (LuaPolicy State) HostOp HostOutput}
    (hinv : HostInv h p) (hcons : Consistent e.post.lua)
    (happ : e.post.lua.applied = p.lua.applied) (hv : voice e = .silent)
    (hout : e.output.commands = none) : HostInv (h ++ [e]) e.post := by
  have hwin : windowOpen (h ++ [e]) = windowOpen h := by
    rw [windowOpen_concat, hv]
  have hover : overriding (h ++ [e]) = overriding h := by
    rw [overriding_concat, hv]
  have hlast : lastReturned (h ++ [e]) = lastReturned h := by
    rw [lastReturned_concat, hout, Option.none_or]
  refine ⟨hcons, ?_, ?_⟩
  · rw [happ, hwin]
    exact hinv.window
  · rw [happ, hover, hlast]
    exact hinv.returned

/-- What the script's own action does to the history. -/
theorem HostInv.script {h : HostTrace}
    {e : Mealy.Step (LuaPolicy State) HostOp HostOutput} {a : Action}
    (hcons : Consistent e.post.lua)
    (hv : voice e = .script [a.toCommand])
    (hout : e.output.commands = some [a.toCommand])
    (happ : match a with
      | .kvCompress b => e.post.lua.applied = some b
      | .restoreDefaults => e.post.lua.applied = none) :
    HostInv (h ++ [e]) e.post := by
  have hwin : windowOpen (h ++ [e]) = isKvCompress a.toCommand := by
    rw [windowOpen_concat, hv]
    exact Bool.or_false _
  have hover : overriding (h ++ [e]) = none := by
    rw [overriding_concat, hv]
  have hlast : lastReturned (h ++ [e]) = some [a.toCommand] := by
    rw [lastReturned_concat, hout, Option.some_or]
  refine ⟨hcons, ?_, ?_⟩
  · rw [hwin]
    cases a with
    | kvCompress b => simp [happ, isKvCompress, Action.toCommand]
    | restoreDefaults => simp [happ, isKvCompress, Action.toCommand]
  · intro b hb
    rw [hover, hlast]
    cases a with
    | kvCompress c =>
        rw [happ] at hb
        injection hb with hb
        rw [hb]
        rfl
    | restoreDefaults =>
        rw [happ] at hb
        exact absurd hb (by simp)

/-- The fallback speaks: the script's locals stay, its answer is recorded. -/
theorem HostInv.fallback {h : HostTrace} {p : LuaPolicy State}
    {e : Mealy.Step (LuaPolicy State) HostOp HostOutput}
    (signal : SystemSignal) (hinv : HostInv h p) (hlua : e.post.lua = p.lua)
    (hv : voice e = .fallback signal)
    (hout : e.output.commands = some (fallbackDecide signal)) :
    HostInv (h ++ [e]) e.post := by
  have hwin : windowOpen (h ++ [e]) = windowOpen h := by
    rw [windowOpen_concat, hv]
  have hover : overriding (h ++ [e]) = some signal := by
    rw [overriding_concat, hv]
  have hlast : lastReturned (h ++ [e]) = some (fallbackDecide signal) := by
    rw [lastReturned_concat, hout, Option.some_or]
  refine ⟨?_, ?_, ?_⟩
  · rw [hlua]
    exact hinv.consistent
  · rw [hlua, hwin]
    exact hinv.window
  · intro b _
    rw [hover, hlast]

/-- A successful reload closes the script's window in silence. -/
theorem HostInv.reloaded {h : HostTrace}
    {e : Mealy.Step (LuaPolicy State) HostOp HostOutput}
    (hlua : e.post.lua = State.fresh) (hv : voice e = .reloaded) :
    HostInv (h ++ [e]) e.post := by
  have hwin : windowOpen (h ++ [e]) = false := by
    rw [windowOpen_concat, hv]
  refine ⟨?_, ?_, ?_⟩ <;> rw [hlua]
  · exact consistent_fresh
  · rw [hwin]
    simp [State.fresh]
  · intro b hb
    exact absurd hb (by simp [State.fresh])

/-- A signal keeps the invariant. -/
theorem signal_hostInv {h : HostTrace} {p : LuaPolicy State}
    (o : Oracle) (signal : SystemSignal) (hinv : HostInv h p) :
    HostInv (h ++ [host.stepAt p (.signal o signal)])
      (host.step p (.signal o signal)).1 := by
  have hspec := processSignal_spec p o signal
  generalize hr : strategy.processSignal o signal p = r at hspec
  obtain ⟨p', d⟩ := r
  have hstep : host.stepAt p (.signal o signal)
      = ⟨p, .signal o signal, .directive d, p'⟩ := by
    show Mealy.Step.mk p (HostOp.signal o signal)
      (HostOutput.directive (strategy.processSignal o signal p).2)
      (strategy.processSignal o signal p).1 = _
    rw [hr]
  have hpost : (host.step p (.signal o signal)).1 = p' :=
    congrArg Mealy.Step.post hstep
  rw [hpost, hstep]
  cases hspec with
  | script hsucc hlua _ _ hd =>
      have hcons : Consistent p'.lua := by
        rw [hlua]
        exact decide_consistent hinv.consistent
      cases hout : (decide p.lua (ctxOf p signal)).2 with
      | none =>
          -- the script says nothing and keeps its budget
          rw [hout, Option.map_none, Option.map_eq_none_iff] at hd
          subst hd
          have happ : p'.lua.applied = p.lua.applied := by
            rw [hlua]
            exact decide_quiet hout
          exact hinv.silent hcons happ rfl rfl
      | some a =>
          rw [hout, Option.map_some] at hd
          obtain ⟨d', rfl, hcmds⟩ := Option.map_eq_some_iff.mp hd
          refine HostInv.script (a := a) hcons ?_ ?_ ?_
          · show (if Succeeds p o then _ else _) = _
            rw [if_pos hsucc, hcmds]
          · exact congrArg some hcmds
          · -- the ratchet says what is in force after the action
            have hacc := decide_accepted hout
            rw [← hlua] at hacc
            cases a with
            | kvCompress b => exact (Ratchet.accept_tighten hacc).1
            | restoreDefaults => exact (Ratchet.accept_release hacc).1
  | fallback hfail hlua _ hd =>
      by_cases hempty : (fallbackDecide signal).isEmpty = true
      · -- only the memory axis has a fallback answer
        rw [if_pos hempty, Option.map_eq_none_iff] at hd
        subst hd
        have hcons : Consistent p'.lua := by
          rw [hlua]
          exact hinv.consistent
        exact hinv.silent hcons (congrArg State.applied hlua) rfl rfl
      · rw [if_neg hempty] at hd
        obtain ⟨d', rfl, hcmds⟩ := Option.map_eq_some_iff.mp hd
        refine HostInv.fallback signal hinv hlua ?_ ?_
        · show (if Succeeds p o then _ else _) = _
          rw [if_neg hfail]
        · exact congrArg some hcmds

/-- **The host's step lemma**: every operation keeps the invariant. -/
theorem hostStep_inv {h : HostTrace} {p : LuaPolicy State} (op : HostOp)
    (hinv : HostInv h p) :
    HostInv (h ++ [host.stepAt p op]) (host.step p op).1 := by
  cases op with
  | signal o signal => exact signal_hostInv o signal hinv
  | engine msg =>
      have hlua : (host.step p (.engine msg)).1.lua = p.lua := by
        cases msg <;> rfl
      refine hinv.silent (e := host.stepAt p (.engine msg)) ?_
        (congrArg State.applied hlua) rfl rfl
      rw [Mealy.stepAt_post, hlua]
      exact hinv.consistent
  | reload o path =>
      have hstep : host.stepAt p (.reload o path)
          = ⟨p, .reload o path, .reload (p.reloadScript (loader o) path).2,
              (p.reloadScript (loader o) path).1⟩ := rfl
      rcases reloadScript_spec o path p with ⟨e, he⟩ | ⟨p', hp', hlua, _⟩
      · rw [he] at hstep
        rw [show (host.step p (.reload o path)).1 = p from
          congrArg Mealy.Step.post hstep, hstep]
        exact hinv.silent hinv.consistent rfl rfl rfl
      · rw [hp'] at hstep
        rw [show (host.step p (.reload o path)).1 = p' from
          congrArg Mealy.Step.post hstep, hstep]
        exact HostInv.reloaded hlua rfl

/-- **The host's run lemma.** -/
theorem host_inv (scriptPath : String) (config : AdaptationConfig)
    (ops : List HostOp) :
    HostInv (host.trace (hosted scriptPath config) ops)
      (host.exec (hosted scriptPath config) ops) :=
  Mealy.history_of_steps (hostInv_nil rfl)
    (fun _ _ op hinv => hostStep_inv op hinv) ops

/-! ## §3. A script that says nothing. -/

/-- The call is made, succeeds, and returns nil with this budget in force. -/
def NilWithBudget (e : Mealy.Step (LuaPolicy State) HostOp HostOutput)
    (b : ℚ) : Prop :=
  ∃ o signal, e.input = .signal o signal ∧ Succeeds e.pre o
    ∧ e.output = .directive none ∧ e.post.lua.applied = some b

/-- A call that returns nil found its budget in force. -/
theorem applied_of_nilWithBudget {p : LuaPolicy State} {op : HostOp} {b : ℚ}
    (h : NilWithBudget (host.stepAt p op) b) : p.lua.applied = some b := by
  obtain ⟨o, signal, hin, hsucc, hout, happ⟩ := h
  rw [Mealy.stepAt_input] at hin
  subst hin
  have hspec := processSignal_spec p o signal
  change HostOutput.directive (strategy.processSignal o signal p).2 = _ at hout
  change (strategy.processSignal o signal p).1.lua.applied = _ at happ
  generalize (strategy.processSignal o signal p).1 = p' at *
  generalize (strategy.processSignal o signal p).2 = d at *
  injection hout with hd
  subst hd
  cases hspec with
  | script _ hlua _ _ hd =>
      have hnil : (decide p.lua (ctxOf p signal)).2 = none :=
        Option.map_eq_none_iff.mp hd.symm
      rw [← happ, hlua]
      exact (decide_quiet hnil).symm
  | fallback hfail _ _ _ => exact absurd hsucc hfail

/-- **When the script and the engine stay in step**: over every run, a script
that says nothing with a budget in force was last spoken for by a compression
at least as tight, exactly when no fallback answer since its own last action
was a looser one. -/
theorem budget_in_sync_iff (scriptPath : String) (config : AdaptationConfig)
    (ops : List HostOp) :
    (host.Along (hosted scriptPath config) ops fun h e =>
      ∀ b, NilWithBudget e b →
        ∃ b' ≤ b, lastReturned h = some [.kvCompress (.fin b')])
    ↔ host.Along (hosted scriptPath config) ops fun h e =>
        ∀ b, NilWithBudget e b → ∀ signal, overriding h = some signal →
          ∃ b' ≤ b, fallbackDecide signal = [.kvCompress (.fin b')] := by
  refine Mealy.along_congr (Mealy.along_of_steps (I := HostInv)
    (hostInv_nil rfl) (fun _ _ op hinv => hostStep_inv op hinv) ?_ _)
  intro h p op hinv
  refine forall₂_congr fun b hnil => ?_
  have hret := hinv.returned b (applied_of_nilWithBudget hnil)
  cases hover : overriding h with
  | none =>
      -- nobody spoke after the script: what it said is what was returned
      rw [hover] at hret
      refine iff_of_true ⟨b, le_refl b, hret⟩ ?_
      intro signal hsignal
      exact absurd hsignal (by simp)
  | some signal =>
      rw [hover] at hret
      dsimp only at hret
      rw [hret]
      constructor
      · rintro ⟨b', hle, hb'⟩ signal' hsignal
        injection hsignal with hsignal
        injection hb' with hb'
        exact ⟨b', hle, hsignal ▸ hb'⟩
      · intro hall
        obtain ⟨b', hle, hb'⟩ := hall signal rfl
        exact ⟨b', hle, congrArg some hb'⟩

/-- An engine that is running. -/
def running : EngineStatus where
  kvCacheBytes := 1024
  kvCacheBudgetBytes := 4096
  kvCacheTokens := 32
  tbtMs := .fin 12.5
  phase := .decode
  state := .running

/-- A reading of 48 °C. -/
def hot : HostOp := .signal .fine (.thermalAlert .normal 48000 false 1)

/-- Heat opens a window; then the call on a quiet memory reading fails. -/
def failedInWindow : List HostOp :=
  [.engine (.heartbeat running), hot,
    .signal { callError := some "timeout", readError := none }
      (.memoryPressure .normal 8 10 0)]

/-- The state the failed call leaves. -/
def afterFailure : LuaPolicy State :=
  host.exec (hosted "policy_default.lua" AdaptationConfig.default)
    failedInWindow

/-- The fallback releases inside the script's window: the script goes on
believing in its budget. -/
theorem fallback_releases_in_window :
    ¬ ∀ (scriptPath : String) (config : AdaptationConfig) (ops : List HostOp),
        host.Along (hosted scriptPath config) ops fun h e =>
          ∀ b, NilWithBudget e b →
            ∃ b' ≤ b, lastReturned h = some [.kvCompress (.fin b')] := by
  intro h
  have hlast := (h "policy_default.lua" AdaptationConfig.default
    (failedInWindow ++ hot :: [])).at_step
  have hnone : (strategy.processSignal .fine
      (.thermalAlert .normal 48000 false 1) afterFailure).2 = none :=
    Option.isNone_iff_eq_none.mp (by decide +kernel)
  have hnil : NilWithBudget (host.stepAt afterFailure hot) 0.6 :=
    ⟨.fine, .thermalAlert .normal 48000 false 1, rfl, by decide +kernel,
      congrArg HostOutput.directive hnone, by decide +kernel⟩
  obtain ⟨b', _, hb'⟩ := hlast 0.6 hnil
  have hreleased : (lastReturned
      (host.trace (hosted "policy_default.lua" AdaptationConfig.default)
        failedInWindow) == some [.restoreDefaults]) = true := by
    decide +kernel
  rw [hb'] at hreleased
  exact Bool.noConfusion hreleased

end ArgusManager.PolicyDefault
