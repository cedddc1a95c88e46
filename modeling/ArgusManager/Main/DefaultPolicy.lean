/-
  ArgusManager.Main.DefaultPolicy
  ───────────────────────────────
  **The manager running the default script.**

  Three machines move together: the script's locals, the action parser inside
  `LuaPolicy`, and the deduplicator.  While every call succeeds and nothing is
  reloaded they are in lockstep, because the script is a ratchet: an accepted
  action never repeats the last one, so the deduplicator has nothing to
  suppress.  A reload breaks the lockstep: the script forgets its budget, the
  engine does not.

    • `dedup_lockstep` — the budget in force and the deduplicator's memory
      determine each other after every faultless run,
    • `orphan_free_iff` — when a quiet call releases what was last emitted.
-/
import ArgusManager.Main.Dedup
import ArgusManager.Scripts.PolicyDefault.Failover
import ArgusManager.Scripts.PolicyDefault.Stress

namespace ArgusManager.PolicyDefault

open SocketChannel (byteCodec)

variable {kind : ChannelKind}

/-! ## §1. The launch. -/

/-- The manager started on the default script. -/
def defaultLaunch (scriptPath : String) (config : AdaptationConfig)
    (transport : SocketChannel kind) (initial : List (SignalCall Oracle))
    (start : ℚ) : Launch (LuaPolicy State) Oracle kind where
  policy := hosted scriptPath config
  transport := transport
  initial := initial
  start := start
  cooldownSecs := config.dedupCooldownSecs

section Launch

variable (codec : Codec) (scriptPath : String) (config : AdaptationConfig)
  (transport : SocketChannel kind) (initial : List (SignalCall Oracle))
  (start : ℚ)

/-- No engine is heard before the loop, so the script enters it as loaded. -/
theorem launch_fresh :
    ((defaultLaunch scriptPath config transport initial start).manager
      strategy codec).policy.lua = State.fresh := by
  have hinv := Mealy.exec_of_steps (m := startup strategy codec)
    (s := (hosted scriptPath config, transport))
    (I := fun m => m.1.lua = State.fresh ∧ m.1.engineState = none)
    ⟨rfl, rfl⟩
    (fun m call hm => by
      -- without a heartbeat the script returns before it touches a local
      obtain ⟨hlua, hengine⟩ :=
        processSignal_unseen hm.2 call.world call.signal
      show (startupStep strategy codec m call).1.1.lua = _
        ∧ (startupStep strategy codec m call).1.1.engineState = _
      rw [startupStep_policy]
      exact ⟨hlua.trans hm.1, hengine⟩)
    initial
  exact hinv.1

/-- Initial calls that succeed latch nothing. -/
theorem launch_live (hinit : ∀ call ∈ initial, call.world.callError = none) :
    ((defaultLaunch scriptPath config transport initial start).manager
      strategy codec).policy.permanentFallback = false :=
  Mealy.exec_invariant (m := startup strategy codec)
    (A := fun call => call.world.callError = none)
    (s := (hosted scriptPath config, transport))
    (I := fun m => m.1.permanentFallback = false) rfl
    (fun m call hcall hm => by
      show (startupStep strategy codec m call).1.1.permanentFallback = _
      rw [startupStep_policy]
      exact processSignal_live ⟨hm, hcall⟩ call.signal)
    hinit

end Launch

/-! ## §2. Lockstep with the deduplicator. -/

/-- The budget in force and the last recorded commands determine each
other. -/
structure InStep (applied : Option ℚ) (last : Option (List EngineCommand)) :
    Prop where
  tight : ∀ b, applied = some b ↔ last = some [.kvCompress (.fin b)]
  idle : applied = none ↔ last = none ∨ last = some [.restoreDefaults]

theorem inStep_fresh : InStep none none :=
  ⟨fun b => by simp, by simp⟩

/-- An action the ratchet accepts is not the last one recorded, and recording
it keeps the two in step. -/
theorem InStep.accept {applied applied' : Option ℚ}
    {last : Option (List EngineCommand)} {a : Action} (hs : InStep applied last)
    (hacc : Ratchet.accept applied a.toAct = some applied') :
    (∀ commands, last = some commands →
      ¬ (commands == [a.toCommand]) = true)
    ∧ InStep applied' (some [a.toCommand]) := by
  constructor
  · intro commands hlast hdup
    cases happ : applied with
    | none =>
        rcases hs.idle.mp happ with h | h
        · exact absurd (hlast.symm.trans h) (by simp)
        · -- the last command was a release, and only a held budget is released
          have hcmds := Option.some.inj (hlast.symm.trans h)
          rw [hcmds] at hdup
          have ha : Action.restoreDefaults = a := Action.toCommand_beq hdup
          subst ha
          exact (Ratchet.accept_release hacc).2 happ
    | some b =>
        -- the last command was this budget, and the next one is below it
        have hcmds := Option.some.inj (hlast.symm.trans ((hs.tight b).mp happ))
        rw [hcmds] at hdup
        have ha : Action.kvCompress b = a := Action.toCommand_beq hdup
        subst ha
        exact lt_irrefl b ((Ratchet.accept_tighten hacc).2 b happ)
  · cases a with
    | kvCompress b =>
        rw [(Ratchet.accept_tighten hacc).1]
        exact ⟨fun c => by simp [Action.toCommand], by simp [Action.toCommand]⟩
    | restoreDefaults =>
        rw [(Ratchet.accept_release hacc).1]
        exact ⟨fun c => by simp [Action.toCommand], by simp [Action.toCommand]⟩

/-- **The lockstep invariant**, over what was emitted and what the policy
returned. -/
structure Lockstep (es : List Emission) (rs : List TimedDirective)
    (m : Manager (LuaPolicy State) kind) : Prop where
  live : m.policy.permanentFallback = false
  inStep : InStep m.policy.lua.applied m.dedup.lastCommands
  recorded : m.dedup.lastCommands
    = rs.getLast?.map fun d => d.directive.commands
  emitted : es.map Emission.toTimedDirective = rs
  chain : rs.IsChain fun a b => ¬ SameCommands a b

/-- No fault on this event: a call that succeeds, and no reload. -/
def Faultless : LoopEvent Oracle → Prop
  | .signal call => call.world.callError = none
  | .sighup _ => False
  | _ => True

/-- A signal whose call succeeds keeps the lockstep. -/
theorem handleSignal_lockstep (codec : Codec) (start : ℚ)
    {es : List Emission} {rs : List TimedDirective}
    {m : Manager (LuaPolicy State) kind} (call : SignalCall Oracle)
    (hcall : call.world.callError = none) (hinv : Lockstep es rs m) :
    Lockstep
      (es ++ (handleSignal strategy codec start call m).2.emitted.toList)
      (rs ++ (handleSignal strategy codec start call m).2.returned.toList)
      (handleSignal strategy codec start call m).1 := by
  have hspec := handleSignal_spec strategy codec start call m
  have hans := processSignal_spec m.policy call.world call.signal
  generalize (handleSignal strategy codec start call m).1 = m' at *
  generalize (handleSignal strategy codec start call m).2 = o at *
  obtain ⟨hlive, hstep, hrec, hemi, hchain⟩ := hinv
  have hsucc : Succeeds m.policy call.world := ⟨hlive, hcall⟩
  cases hspec with
  | silent policy hpolicy =>
      rw [hpolicy] at hans
      cases hans with
      | fallback hfail _ _ _ => exact absurd hsucc hfail
      | script _ hlua hlive' _ hd =>
          -- a call without an action leaves the budget where it is
          have hnone := Option.map_eq_none_iff.mp hd.symm
          have happ : policy.lua.applied = m.policy.lua.applied := by
            rw [hlua]
            exact decide_quiet hnone
          rw [Option.toList_none, List.append_nil, Option.toList_none,
            List.append_nil]
          refine ⟨hlive', ?_, hrec, hemi, hchain⟩
          rw [happ]
          exact hstep
  | suppressed policy d hpolicy last hlast hdup _ =>
      rw [hpolicy] at hans
      cases hans with
      | fallback hfail _ _ _ => exact absurd hsucc hfail
      | script _ _ _ _ hd =>
          -- impossible: the ratchet accepts no repetition
          obtain ⟨a, hout, hcmds⟩ := Option.map_eq_some_iff.mp hd.symm
          rw [← hcmds] at hdup
          exact absurd hdup ((hstep.accept (decide_accepted hout)).1 last hlast)
  | emitted policy d hpolicy _ =>
      rw [hpolicy] at hans
      cases hans with
      | fallback hfail _ _ _ => exact absurd hsucc hfail
      | script _ hlua hlive' _ hd =>
          obtain ⟨a, hout, hcmds⟩ := Option.map_eq_some_iff.mp hd.symm
          obtain ⟨hnew, hstep'⟩ := hstep.accept (decide_accepted hout)
          rw [← hlua, hcmds] at hstep'
          rw [hcmds] at hnew
          rw [Option.toList_some, Option.toList_some]
          refine ⟨hlive', hstep', ?_, ?_, ?_⟩
          · rw [List.getLast?_concat]
            rfl
          · rw [List.map_append, hemi]
            rfl
          · refine List.IsChain.append hchain (.singleton _) ?_
            intro x hx y hy
            injection hy with hy
            subst hy
            rw [hx] at hrec
            exact hnew _ hrec

/-- An event that is no signal and no SIGHUP leaves the script alone. -/
theorem loopStep_script (codec : Codec) (start : ℚ)
    (m : Manager (LuaPolicy State) kind) {e : LoopEvent Oracle}
    (hsignal : ∀ call, e ≠ .signal call) (hsighup : ∀ o, e ≠ .sighup o) :
    (loopStep strategy codec start m e).1.policy.lua = m.policy.lua
      ∧ (loopStep strategy codec start m e).1.policy.permanentFallback
        = m.policy.permanentFallback := by
  cases e with
  | signal call => exact absurd rfl (hsignal call)
  | sighup o => exact absurd rfl (hsighup o)
  | connect => exact ⟨rfl, rfl⟩
  | tryRecv poll =>
      unfold loopStep
      dsimp only
      split
      next transport msg _ => cases msg <;> exact ⟨rfl, rfl⟩
      next transport _ => exact ⟨rfl, rfl⟩

/-- **The loop's step lemma** for the lockstep. -/
theorem loopStep_lockstep (codec : Codec) (start : ℚ)
    {es : List Emission} {rs : List TimedDirective}
    {m : Manager (LuaPolicy State) kind} (e : LoopEvent Oracle)
    (he : Faultless e) (hinv : Lockstep es rs m) :
    Lockstep (es ++ (loopStep strategy codec start m e).2.emitted.toList)
      (rs ++ (loopStep strategy codec start m e).2.returned.toList)
      (loopStep strategy codec start m e).1 := by
  by_cases hs : ∃ call, e = .signal call
  · obtain ⟨call, rfl⟩ := hs
    exact handleSignal_lockstep codec start call he hinv
  · have hsignal : ∀ call, e ≠ .signal call := fun call hc => hs ⟨call, hc⟩
    have hsighup : ∀ o, e ≠ .sighup o := by
      rintro o rfl
      exact he
    obtain ⟨hdedup, hret, hemi⟩ :=
      loopStep_frame strategy codec start m hsignal
    obtain ⟨hlua, hlive⟩ := loopStep_script codec start m hsignal hsighup
    rw [hret, hemi, Option.toList_none, List.append_nil, Option.toList_none,
      List.append_nil]
    refine ⟨hlive.trans hinv.live, ?_, ?_, hinv.emitted, hinv.chain⟩
    · rw [hlua, hdedup]
      exact hinv.inStep
    · rw [hdedup]
      exact hinv.recorded

/-- **Script and deduplicator agree** after every faultless run: the budget in
force is exactly the one last recorded, the deduplicator suppresses nothing,
and no two consecutive directives carry equal commands. -/
theorem dedup_lockstep (codec : Codec) (scriptPath : String)
    (config : AdaptationConfig) (transport : SocketChannel kind)
    (initial : List (SignalCall Oracle)) (start : ℚ)
    (events : List (LoopEvent Oracle))
    (hinit : ∀ call ∈ initial, call.world.callError = none)
    (hevents : ∀ e ∈ events, Faultless e) :
    let l := defaultLaunch scriptPath config transport initial start
    let m :=
      (loop strategy codec l.start).exec (l.manager strategy codec) events
    let run := l.run strategy codec events
    ((∀ b, m.policy.lua.applied = some b
        ↔ m.dedup.lastCommands = some [.kvCompress (.fin b)])
      ∧ (m.policy.lua.applied = none
        ↔ m.dedup.lastCommands = none
          ∨ m.dedup.lastCommands = some [.restoreDefaults]))
    ∧ (returned run).IsChain (fun a b => ¬ SameCommands a b)
    ∧ (emitted run).map Emission.toTimedDirective = returned run := by
  intro l m run
  have hinv : Lockstep (emitted run) (returned run) m := by
    refine Mealy.history_invariant
      (I := fun h m => Lockstep (emitted h) (returned h) m) ?_ ?_ events hevents
    · refine ⟨launch_live codec scriptPath config transport initial start hinit,
        ?_, rfl, rfl, .nil⟩
      rw [launch_fresh codec scriptPath config transport initial start]
      exact inStep_fresh
    · intro h m e he hinv
      rw [emitted_concat, returned_concat]
      exact loopStep_lockstep codec l.start e he hinv
  exact ⟨⟨hinv.inStep.tight, hinv.inStep.idle⟩, hinv.chain, hinv.emitted⟩

/-- A transport whose client connected during the first wait. -/
def attached : UnixSocketChannel :=
  (SocketChannel.new.waitForClient [⟨1, false, ⟨false, false⟩, false⟩]).1

/-- The default configuration, with nothing to report initially. -/
def idleLaunch : Launch (LuaPolicy State) Oracle .unix :=
  defaultLaunch "policy_default.lua" AdaptationConfig.default attached [] 0

/-- A memory reading, handled at an instant. -/
def memoryAt (time : ℚ) (availableBytes totalBytes : Nat) :
    LoopEvent Oracle :=
  .signal
    { world := .fine
      signal := .memoryPressure .normal availableBytes totalBytes 0
      time := time
      io := .allOk }

/-- A heartbeat, then memory at 90 %: a window opens. -/
def spike : List (LoopEvent Oracle) :=
  [.tryRecv (.message (.heartbeat running)), memoryAt 1 1 10]

/-- The budget of an open window is the one the deduplicator recorded. -/
theorem dedup_lockstep_spike :
    ((loop strategy byteCodec 0).exec
        (idleLaunch.manager strategy byteCodec) spike).dedup.lastCommands
      = some [.kvCompress (.fin 0.6)] := by
  have hlock := dedup_lockstep byteCodec "policy_default.lua"
    AdaptationConfig.default attached [] 0 spike (by simp)
    (by simp [spike, memoryAt, Faultless, Oracle.fine])
  exact (hlock.1.1 0.6).mp (by decide +kernel)

/-! ## §3. Reloads. -/

/-- The operation on the policy that a step of the loop made, as a step of the
hosted policy. -/
def hostStepOf
    (e : Mealy.Step (Manager (LuaPolicy State) kind) (LoopEvent Oracle)
      LoopOutput) :
    Option (Mealy.Step (LuaPolicy State) HostOp HostOutput) :=
  match e.input, e.output with
  | .signal call, _ =>
      some (host.stepAt e.pre.policy (.signal call.world call.signal))
  | .tryRecv _, .received (some msg) =>
      some (host.stepAt e.pre.policy (.engine msg))
  | .sighup o, _ =>
      some (host.stepAt e.pre.policy (.reload o e.pre.policy.scriptPath))
  | _, _ => none

/-- What the hosted policy went through in these steps. -/
def hostHistory (h : LoopTrace (LuaPolicy State) Oracle kind) : HostTrace :=
  h.filterMap hostStepOf

/-- **The loop moves its policy as the host does.** -/
theorem loopStep_host (codec : Codec) (start : ℚ)
    (m : Manager (LuaPolicy State) kind) (e : LoopEvent Oracle) :
    match hostStepOf ((loop strategy codec start).stepAt m e) with
    | some s =>
        ∃ op, s = host.stepAt m.policy op
          ∧ (loopStep strategy codec start m e).1.policy = s.post
    | none => (loopStep strategy codec start m e).1.policy = m.policy := by
  cases e with
  | connect => rfl
  | signal call =>
      refine ⟨_, rfl, ?_⟩
      have hspec := handleSignal_spec strategy codec start call m
      show (handleSignal strategy codec start call m).1.policy
        = (strategy.processSignal call.world call.signal m.policy).1
      generalize (handleSignal strategy codec start call m).1 = m' at *
      generalize (handleSignal strategy codec start call m).2 = o at *
      cases hspec with
      | silent policy hpolicy => rw [hpolicy]
      | suppressed policy d hpolicy _ _ _ _ =>
          -- a Lua policy has no observation to cancel
          rw [hpolicy]
          rfl
      | emitted policy d hpolicy _ => rw [hpolicy]
  | sighup o =>
      refine ⟨_, rfl, ?_⟩
      show (handleSighup strategy o m).1.policy
        = (m.policy.reloadScript (loader o) m.policy.scriptPath).1
      have hreload : strategy.asReloadable
          = some { reloadScript := fun o path p =>
                     p.reloadScript (loader o) path
                   scriptPath := fun p => some p.scriptPath } := rfl
      unfold handleSighup
      rw [hreload]
      dsimp only
      rcases m.policy.reloadScript (loader o) m.policy.scriptPath with
        ⟨policy, e | _⟩ <;> rfl
  | tryRecv poll =>
      show match hostStepOf ⟨m, .tryRecv poll,
          (loopStep strategy codec start m (.tryRecv poll)).2,
          (loopStep strategy codec start m (.tryRecv poll)).1⟩ with
        | some s => _
        | none => _
      unfold loopStep
      dsimp only
      rcases m.transport.tryRecv poll with ⟨transport, _ | msg⟩
      · rfl
      · exact ⟨.engine msg, rfl, rfl⟩

/-- The host's invariant holds along the loop. -/
theorem loopStep_hostInv (codec : Codec) (start : ℚ)
    {h : LoopTrace (LuaPolicy State) Oracle kind}
    {m : Manager (LuaPolicy State) kind} (e : LoopEvent Oracle)
    (hinv : HostInv (hostHistory h) m.policy) :
    HostInv (hostHistory (h ++ [(loop strategy codec start).stepAt m e]))
      ((loop strategy codec start).step m e).1.policy := by
  have hhost := loopStep_host codec start m e
  have happ : hostHistory (h ++ [(loop strategy codec start).stepAt m e])
      = hostHistory h
        ++ (hostStepOf ((loop strategy codec start).stepAt m e)).toList := by
    unfold hostHistory
    rw [List.filterMap_append]
    cases hs : hostStepOf ((loop strategy codec start).stepAt m e) with
    | none => rw [List.filterMap_cons_none hs]; rfl
    | some s => rw [List.filterMap_cons_some hs]; rfl
  rw [happ]
  cases hs : hostStepOf ((loop strategy codec start).stepAt m e) with
  | none =>
      rw [hs] at hhost
      rw [Option.toList_none, List.append_nil]
      rw [show ((loop strategy codec start).step m e).1.policy = m.policy
        from hhost]
      exact hinv
  | some s =>
      rw [hs] at hhost
      obtain ⟨op, rfl, hpost⟩ := hhost
      rw [show ((loop strategy codec start).step m e).1.policy
        = (host.stepAt m.policy op).post from hpost]
      exact hostStep_inv op hinv

/-- The last directive emitted compresses. -/
def compressed (es : List Emission) : Bool :=
  match es.getLast? with
  | some last =>
      match last.directive.commands with
      | [.kvCompress _] => true
      | _ => false
  | none => false

/-- A successful call made with the engine seen and every axis below its
exit. -/
def QuietCall
    (e : Mealy.Step (Manager (LuaPolicy State) kind) (LoopEvent Oracle)
      LoopOutput) : Prop :=
  ∃ call, e.input = .signal call ∧ Succeeds e.pre.policy call.world
    ∧ (ctxOf e.pre.policy call.signal).engine.seen = true
    ∧ ∀ a, normalize (ctxOf e.pre.policy call.signal).pressure a < EXIT a

/-- A quiet call releases exactly when a budget is in force. -/
theorem quietCall_releases_iff (codec : Codec) (start : ℚ)
    {m : Manager (LuaPolicy State) kind} {e : LoopEvent Oracle}
    (hquiet : QuietCall ((loop strategy codec start).stepAt m e)) :
    ((loop strategy codec start).stepAt m e).output.returned.map
        (fun d => d.directive.commands) = some [.restoreDefaults]
      ↔ m.policy.lua.applied ≠ none := by
  obtain ⟨call, hin, hsucc, hseen, hexit⟩ := hquiet
  rw [Mealy.stepAt_input] at hin
  subst hin
  have hret := handleSignal_returned strategy codec start call m
  have hans := processSignal_spec m.policy call.world call.signal
  show (handleSignal strategy codec start call m).2.returned.map _ = _ ↔ _
  rw [hret, Option.map_map]
  generalize (strategy.processSignal call.world call.signal m.policy).1 = p'
    at *
  generalize (strategy.processSignal call.world call.signal m.policy).2 = d
    at *
  cases hans with
  | fallback hfail _ _ _ => exact absurd hsucc hfail
  | script _ _ _ _ hd =>
      show d.map EngineDirective.commands = _ ↔ _
      rw [hd]
      constructor
      · -- only one action becomes this command
        intro hrel
        obtain ⟨a, hout, ha⟩ := Option.map_eq_some_iff.mp hrel
        have hact : a = .restoreDefaults := by
          cases a with
          | kvCompress b => exact absurd ha (by simp [Action.toCommand])
          | restoreDefaults => rfl
        rw [hact] at hout
        exact (decide_restores_iff.mp hout).2.1
      · intro happ
        have hout : (decide m.policy.lua (ctxOf m.policy call.signal)).2
            = some .restoreDefaults :=
          decide_restores_iff.mpr ⟨hseen, happ, fun a _ => hexit a⟩
        rw [hout]
        rfl

/-- **When no compression is orphaned**: over every run of the loop, reloads
and failing calls included, each quiet call with a compression last emitted
releases it, exactly when at each of them the script's own last action since
it was last loaded was a `kv.compress`. -/
theorem orphan_free_iff (codec : Codec) (scriptPath : String)
    (config : AdaptationConfig) (transport : SocketChannel kind)
    (initial : List (SignalCall Oracle)) (start : ℚ)
    (events : List (LoopEvent Oracle)) :
    let l := defaultLaunch scriptPath config transport initial start
    ((loop strategy codec l.start).Along (l.manager strategy codec) events
      fun h e =>
        compressed (l.startupEmissions strategy codec ++ emitted h) = true →
          QuietCall e →
          e.output.returned.map (fun d => d.directive.commands)
            = some [.restoreDefaults])
    ↔ (loop strategy codec l.start).Along (l.manager strategy codec) events
        fun h e =>
          compressed (l.startupEmissions strategy codec ++ emitted h) = true →
            QuietCall e → windowOpen (hostHistory h) = true := by
  intro l
  refine Mealy.along_congr (Mealy.along_of_steps
    (I := fun h m => HostInv (hostHistory h) m.policy)
    (hostInv_nil (launch_fresh codec scriptPath config transport initial start))
    (fun _ _ e hinv => loopStep_hostInv codec l.start e hinv) ?_ _)
  intro h m e hinv
  refine imp_congr_right fun _ => forall_congr' fun hquiet => ?_
  rw [quietCall_releases_iff codec l.start hquiet]
  exact hinv.window

/-- A spike and a reload. -/
def spikeReloaded : List (LoopEvent Oracle) := spike ++ [.sighup .fine]

/-- The manager after them. -/
def afterReload : Manager (LuaPolicy State) .unix :=
  (loop strategy byteCodec 0).exec
    (idleLaunch.manager strategy byteCodec) spikeReloaded

/-- The pressure passes after the reload: nothing is released. -/
theorem reload_orphans_compression :
    ¬ ∀ (kind : ChannelKind) (codec : Codec) (scriptPath : String)
        (config : AdaptationConfig) (transport : SocketChannel kind)
        (initial : List (SignalCall Oracle)) (start : ℚ)
        (events : List (LoopEvent Oracle)),
        let l := defaultLaunch scriptPath config transport initial start
        (loop strategy codec l.start).Along (l.manager strategy codec) events
          fun h e =>
            compressed (l.startupEmissions strategy codec ++ emitted h) = true →
              QuietCall e →
              e.output.returned.map (fun d => d.directive.commands)
                = some [.restoreDefaults] := by
  intro h
  have hlast := (h .unix byteCodec "policy_default.lua"
    AdaptationConfig.default attached [] 0
    (spikeReloaded ++ memoryAt 2 8 10 :: [])).at_step
  -- 20 % memory pressure, and nothing else was ever reported
  have hquiet : QuietCall
      ((loop strategy byteCodec 0).stepAt afterReload (memoryAt 2 8 10)) := by
    refine ⟨_, rfl, by decide +kernel, by decide +kernel, ?_⟩
    intro a
    cases a <;> decide +kernel
  have hrel := (quietCall_releases_iff byteCodec 0 hquiet).mp
    (hlast (by decide +kernel) hquiet)
  exact absurd hrel (by decide +kernel)

end ArgusManager.PolicyDefault
