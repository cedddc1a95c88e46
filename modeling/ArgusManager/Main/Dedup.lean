/-
  ArgusManager.Main.Dedup
  ───────────────────────
  **What the deduplicator guarantees over whole runs of the manager.**

  In the loop the deduplicator remembers exactly the last directive handed to
  `emit_directive` (`Remembers`).  It is created when the loop starts, so it
  knows nothing of what the initial evaluation emitted; and it remembers a
  directive whatever became of it on the wire.

    • `emission_spacing_iff` — the whole run is spaced exactly when the
      policy's initial directives and its first one in the loop are,
    • `suppression_sound` — what a suppressed directive repeats was written in
      full to the engine that is attached, if one is.
-/
import ArgusManager.LuaPolicy
import ArgusManager.Main.EventLoop
import Mathlib.Data.List.Chain
import Mathlib.Tactic.Linarith

namespace ArgusManager

open SocketChannel (byteCodec)

variable {σ ω : Type} {kind : ChannelKind}

/-! ## §1. What the deduplicator remembers. -/

/-- The commands are equal. -/
def SameCommands (a b : TimedDirective) : Prop :=
  (a.directive.commands == b.directive.commands) = true

/-- No two neighbours with equal commands less than the cooldown apart. -/
def Spaced (cooldown : ℚ) (ds : List TimedDirective) : Prop :=
  ds.IsChain fun a b => SameCommands a b → cooldown ≤ b.time - a.time

/-- The deduplicator's two fields are those of the last emission. -/
structure Remembers (d : DirectiveDeduplicator) (start : ℚ)
    (last : Option Emission) : Prop where
  commands : d.lastCommands = last.map fun e => e.directive.commands
  sentAt : d.lastSentAt = last.map fun e => e.time - start

/-- **The loop's invariant**, over what was emitted and what the policy
returned: the deduplicator remembers the last emission, emissions are spaced,
and the first directive returned was emitted. -/
structure DedupInv (start cooldown : ℚ) (es : List Emission)
    (rs : List TimedDirective) (d : DirectiveDeduplicator) : Prop where
  cooldownSecs : d.cooldownSecs = cooldown
  remembers : Remembers d start es.getLast?
  spaced : Spaced cooldown (es.map Emission.toTimedDirective)
  first : es.head?.map Emission.toTimedDirective = rs.head?

section Loop

variable (P : PolicyStrategy σ ω) (codec : Codec) (start cooldown : ℚ)

/-- A signal keeps the invariant. -/
theorem handleSignal_dedupInv {es : List Emission} {rs : List TimedDirective}
    {m : Manager σ kind} (call : SignalCall ω)
    (hinv : DedupInv start cooldown es rs m.dedup) :
    DedupInv start cooldown
      (es ++ (handleSignal P codec start call m).2.emitted.toList)
      (rs ++ (handleSignal P codec start call m).2.returned.toList)
      (handleSignal P codec start call m).1.dedup := by
  have hspec := handleSignal_spec P codec start call m
  obtain ⟨hcool, ⟨hcmds, hsent⟩, hspaced, hfirst⟩ := hinv
  generalize (handleSignal P codec start call m).1 = m' at *
  generalize (handleSignal P codec start call m).2 = o at *
  cases hspec with
  | silent policy _ =>
      rw [Option.toList_none, List.append_nil, Option.toList_none,
        List.append_nil]
      exact ⟨hcool, ⟨hcmds, hsent⟩, hspaced, hfirst⟩
  | suppressed policy d _ last hlast _ _ =>
      rw [Option.toList_none, List.append_nil]
      refine ⟨hcool, ⟨hcmds, hsent⟩, hspaced, ?_⟩
      -- something was emitted before, so the first directive is an old one
      have hne : es ≠ [] := by
        intro hnil
        rw [hnil, hlast] at hcmds
        exact absurd hcmds (by simp)
      obtain ⟨e, es', rfl⟩ := List.exists_cons_of_ne_nil hne
      rw [List.head?_append, ← hfirst]
      rfl
  | emitted policy d _ hfree =>
      rw [Option.toList_some, Option.toList_some]
      refine ⟨hcool, ?_, ?_, ?_⟩
      · rw [List.getLast?_concat]
        exact ⟨rfl, rfl⟩
      · rw [List.map_append]
        refine List.IsChain.append hspaced (.singleton _) ?_
        -- the deduplicator let it pass, and it remembers the last emission
        intro a ha b hb hsame
        rw [List.getLast?_map] at ha
        obtain ⟨last, hlast, rfl⟩ := Option.map_eq_some_iff.mp ha
        injection hb with hb
        subst hb
        rw [hlast] at hcmds hsent
        obtain ⟨t, ht, hle⟩ := hfree _ hcmds hsame
        rw [hsent] at ht
        injection ht with ht
        rw [← ht, hcool] at hle
        show cooldown ≤ call.time - last.time
        linarith
      · rw [List.head?_append, List.head?_append, ← hfirst]
        cases es.head? <;> rfl

/-- Every event keeps the invariant. -/
theorem loopStep_dedupInv {es : List Emission} {rs : List TimedDirective}
    {m : Manager σ kind} (e : LoopEvent ω)
    (hinv : DedupInv start cooldown es rs m.dedup) :
    DedupInv start cooldown
      (es ++ (loopStep P codec start m e).2.emitted.toList)
      (rs ++ (loopStep P codec start m e).2.returned.toList)
      (loopStep P codec start m e).1.dedup := by
  by_cases he : ∃ call, e = .signal call
  · obtain ⟨call, rfl⟩ := he
    exact handleSignal_dedupInv P codec start cooldown call hinv
  · have he' : ∀ call, e ≠ .signal call :=
      fun call hc => he ⟨call, hc⟩
    obtain ⟨hd, hr, hem⟩ := loopStep_frame P codec start m he'
    rw [hd, hr, hem, Option.toList_none, List.append_nil, Option.toList_none,
      List.append_nil]
    exact hinv

/-- **The loop's run lemma.** -/
theorem loop_dedupInv (m : Manager σ kind)
    (hm : m.dedup = DirectiveDeduplicator.withCooldown cooldown)
    (events : List (LoopEvent ω)) :
    DedupInv start cooldown
      (emitted ((loop P codec start).trace m events))
      (returned ((loop P codec start).trace m events))
      ((loop P codec start).exec m events).dedup := by
  refine Mealy.history_of_steps
    (I := fun h m => DedupInv start cooldown (emitted h) (returned h) m.dedup)
    ?_ ?_ events
  · rw [hm]
    exact ⟨rfl, ⟨rfl, rfl⟩, .nil, rfl⟩
  · intro h m e hinv
    rw [emitted_concat, returned_concat]
    exact loopStep_dedupInv P codec start cooldown e hinv

end Loop

/-! ## §2. Spacing over the whole run. -/

namespace Launch

variable (l : Launch σ ω kind) (P : PolicyStrategy σ ω) (codec : Codec)

/-- The run of the main loop on these events. -/
def run (events : List (LoopEvent ω)) : LoopTrace σ ω kind :=
  (loop P codec l.start).trace (l.manager P codec) events

/-- Everything handed to `emit_directive`, from start-up on. -/
def emissions (events : List (LoopEvent ω)) : List Emission :=
  l.startupEmissions P codec ++ emitted (l.run P codec events)

/-- The directives the policy returned during the initial evaluation. -/
def startupReturned : List TimedDirective :=
  (l.startupOutcomes P codec).filterMap SignalOutcome.returned

/-- The initial evaluation emits what the policy returns. -/
theorem startupEmissions_eq :
    (l.startupEmissions P codec).map Emission.toTimedDirective
      = l.startupReturned P codec := by
  unfold startupEmissions startupReturned
  rw [List.map_filterMap]
  refine List.filterMap_congr fun o ho => ?_
  obtain ⟨m, call, rfl⟩ := (startup P codec).mem_outs ho
  show (startupStep P codec m call).2.emitted.map _
    = (startupStep P codec m call).2.returned
  unfold startupStep
  split <;> rfl

end Launch

/-- A spaced word continues a word exactly when its first letter does. -/
theorem spaced_append_iff {cooldown : ℚ} {xs ys zs : List TimedDirective}
    (hys : Spaced cooldown ys) (hhead : ys.head? = zs.head?) :
    Spaced cooldown (xs ++ ys) ↔ Spaced cooldown (xs ++ zs.take 1) := by
  -- a word of one letter has no neighbours
  have hone : Spaced cooldown (zs.take 1) := by
    cases zs with
    | nil => exact .nil
    | cons z zs => exact .singleton z
  have htake : (zs.take 1).head? = zs.head? := by
    cases zs <;> rfl
  unfold Spaced at *
  -- the two sides differ at the seam only, and there they agree
  rw [List.isChain_append, List.isChain_append, htake, hhead]
  simp only [hys, hone, true_and]

/-- **Whole-run spacing**: what reaches `emit_directive` over a whole run is
spaced exactly when the directives the policy returns in the initial
evaluation, followed by the first one it returns in the loop, are. -/
theorem emission_spacing_iff (P : PolicyStrategy σ ω) (codec : Codec)
    (l : Launch σ ω kind) (events : List (LoopEvent ω)) :
    Spaced l.cooldownSecs
        ((l.emissions P codec events).map Emission.toTimedDirective)
      ↔ Spaced l.cooldownSecs
          (l.startupReturned P codec
            ++ (returned (l.run P codec events)).take 1) := by
  obtain ⟨_, _, hspaced, hfirst⟩ := loop_dedupInv P codec l.start
    l.cooldownSecs (l.manager P codec) rfl events
  unfold Launch.emissions
  rw [List.map_append, l.startupEmissions_eq P codec]
  refine spaced_append_iff hspaced ?_
  rw [List.head?_map]
  exact hfirst

/-- A script that releases on every signal, whatever it is handed. -/
def releasing : LuaPolicy.World Unit where
  invoke := fun lua _ =>
    (lua, .ok (.record [("type", .string "restore_defaults")]))
  loader :=
    { readToString := fun _ => .ok "function decide(ctx) ... end"
      newVm := ()
      registerSysHelpers := .ok
      exec := fun lua _ => .ok lua
      getDecide := fun _ => .ok .function
      logPolicyMeta := fun _ => none }

/-- A quiet reading of the memory monitor, handled at an instant. -/
def quietMemory (time : ℚ) : SignalCall (LuaPolicy.World Unit) where
  world := releasing
  signal := .memoryPressure .normal 8 10 0
  time := time
  io := .allOk

/-- The manager running `releasing` on a transport, with these initial
signals. -/
def releasingLaunch (transport : UnixSocketChannel)
    (initial : List (SignalCall (LuaPolicy.World Unit))) :
    Launch (LuaPolicy Unit) (LuaPolicy.World Unit) .unix where
  policy := LuaPolicy.fresh () "policy.lua" none AdaptationConfig.default
  transport := transport
  initial := initial
  start := 0
  cooldownSecs := 60

/-- Two initial signals: the same directive goes out twice at once. -/
theorem startup_repeats_directive :
    ¬ ∀ (σ ω : Type) (kind : ChannelKind) (P : PolicyStrategy σ ω)
        (codec : Codec) (l : Launch σ ω kind) (events : List (LoopEvent ω)),
        Spaced l.cooldownSecs
          ((l.emissions P codec events).map Emission.toTimedDirective) := by
  intro h
  have hrun : Spaced 60
      [⟨0, ⟨1, [.restoreDefaults]⟩⟩, ⟨0, ⟨2, [.restoreDefaults]⟩⟩] :=
    h _ _ .unix (LuaPolicy.strategy Bindings.exact) byteCodec
      (releasingLaunch .new [quietMemory 0, quietMemory 0]) []
  have hgap : (60 : ℚ) ≤ 0 - 0 := (List.isChain_cons_cons.mp hrun).1 rfl
  norm_num at hgap

/-! ## §3. What a suppressed directive repeats. -/

/-- The last emission was written in full to the client now attached, and is
the last thing that client was handed. -/
def Attached (codec : Codec) (es : List Emission) (ch : SocketChannel kind) :
    Prop :=
  ∀ c, ch.state = .connected c → ∀ last, es.getLast? = some last →
    last.report = .written c
      ∧ frame (codec.message (.directive last.directive)) <:+ ch.wire c

/-- After an emit it holds, whatever was the case before. -/
theorem attached_emit (codec : Codec) (es : List Emission) (time : ℚ)
    (d : EngineDirective) (io : EmitIo) (ch : SocketChannel kind) :
    Attached codec
      (es ++ [⟨⟨time, d⟩, (ch.emitDirective codec d io).2⟩])
      (ch.emitDirective codec d io).1 := by
  intro c hc last hlast
  rw [List.getLast?_concat] at hlast
  injection hlast with hlast
  subst hlast
  exact SocketChannel.emitBytes_attached hc

theorem startupStep_attached (P : PolicyStrategy σ ω) (codec : Codec)
    {es : List Emission} {m : σ × SocketChannel kind} (call : SignalCall ω)
    (hinv : Attached codec es m.2) :
    Attached codec (es ++ (startupStep P codec m call).2.emitted.toList)
      (startupStep P codec m call).1.2 := by
  unfold startupStep
  split
  next =>
    rw [Option.toList_none, List.append_nil]
    exact hinv
  next => exact attached_emit codec es _ _ _ _

/-- Only a signal can attach a client, and then by an emit. -/
theorem loopStep_attached (P : PolicyStrategy σ ω) (codec : Codec) (start : ℚ)
    {es : List Emission} {m : Manager σ kind} (e : LoopEvent ω)
    (hinv : Attached codec es m.transport) :
    Attached codec (es ++ (loopStep P codec start m e).2.emitted.toList)
      (loopStep P codec start m e).1.transport := by
  by_cases he : ∃ call, e = .signal call
  · obtain ⟨call, rfl⟩ := he
    have hspec := handleSignal_spec P codec start call m
    show Attached codec
      (es ++ (handleSignal P codec start call m).2.emitted.toList)
      (handleSignal P codec start call m).1.transport
    generalize (handleSignal P codec start call m).1 = m' at *
    generalize (handleSignal P codec start call m).2 = o at *
    cases hspec with
    | silent policy _ =>
        rw [Option.toList_none, List.append_nil]
        exact hinv
    | suppressed policy d _ _ _ _ _ =>
        rw [Option.toList_none, List.append_nil]
        exact hinv
    | emitted policy d _ _ => exact attached_emit codec es _ _ _ _
  · have he' : ∀ call, e ≠ .signal call := fun call hc => he ⟨call, hc⟩
    obtain ⟨_, _, hemi⟩ := loopStep_frame P codec start m he'
    obtain ⟨hwire, hstate⟩ := loopStep_transport P codec start m he'
    rw [hemi, Option.toList_none, List.append_nil]
    intro c hc last hlast
    rw [hwire]
    exact hinv c (hstate c hc) last hlast

theorem startup_attached (P : PolicyStrategy σ ω) (codec : Codec)
    (l : Launch σ ω kind) :
    Attached codec (l.startupEmissions P codec)
      (l.manager P codec).transport := by
  unfold Launch.startupEmissions Launch.startupOutcomes
  rw [Mealy.outs_filterMap]
  refine Mealy.history_of_steps (m := startup P codec)
    (I := fun h s => Attached codec (Mealy.said SignalOutcome.emitted h) s.2)
    (s := (l.policy, l.transport)) ?_ ?_ l.initial
  · -- nothing has been emitted yet
    intro _ _ last hlast
    exact absurd hlast (by simp)
  · intro h m call hinv
    rw [Mealy.said_concat]
    exact startupStep_attached P codec call hinv

/-- A suppressed directive repeats the last emission of the loop, less than
the cooldown later. -/
theorem suppressed_repeats (P : PolicyStrategy σ ω) (codec : Codec)
    {start cooldown : ℚ} {es : List Emission} {rs : List TimedDirective}
    {m : Manager σ kind} {e : LoopEvent ω} {d : TimedDirective}
    (hinv : DedupInv start cooldown es rs m.dedup)
    (hret : (loopStep P codec start m e).2.returned = some d)
    (hemi : (loopStep P codec start m e).2.emitted = none) :
    ∃ last, es.getLast? = some last ∧ SameCommands last.toTimedDirective d
      ∧ d.time - last.time < cooldown := by
  by_cases he : ∃ call, e = .signal call
  · obtain ⟨call, rfl⟩ := he
    have hspec := handleSignal_spec P codec start call m
    change (handleSignal P codec start call m).2.returned = some d at hret
    change (handleSignal P codec start call m).2.emitted = none at hemi
    generalize (handleSignal P codec start call m).1 = m' at *
    generalize (handleSignal P codec start call m).2 = o at *
    -- returned and not emitted leaves the suppressed outcome
    cases hspec with
    | silent policy _ => exact absurd hret (by simp)
    | emitted policy d _ _ => exact absurd hemi (by simp)
    | suppressed policy d' _ commands hcommands hdup hrecent =>
        injection hret with hret
        subst hret
        obtain ⟨hcool, ⟨hcmds, hsent⟩, _, _⟩ := hinv
        rw [hcmds] at hcommands
        obtain ⟨last, hlast, rfl⟩ := Option.map_eq_some_iff.mp hcommands
        refine ⟨last, hlast, hdup, ?_⟩
        rw [hlast] at hsent
        have hgap := hrecent _ hsent
        rw [hcool] at hgap
        show call.time - last.time < cooldown
        linarith
  · have he' : ∀ call, e ≠ .signal call := fun call hc => he ⟨call, hc⟩
    have hnone := (loopStep_frame P codec start m he').2.1
    exact absurd (hnone.symm.trans hret) (by simp)

/-- **Suppression is sound towards the attached engine**: a suppressed
directive repeats the last emission, less than the cooldown later, and
whenever an engine is attached that emission was written to it in full. -/
theorem suppression_sound (P : PolicyStrategy σ ω) (codec : Codec)
    (l : Launch σ ω kind) (events : List (LoopEvent ω)) :
    (loop P codec l.start).Along (l.manager P codec) events fun h e =>
      ∀ d, e.output.returned = some d → e.output.emitted = none →
        ∃ last, (l.startupEmissions P codec ++ emitted h).getLast? = some last
          ∧ SameCommands last.toTimedDirective d
          ∧ d.time - last.time < l.cooldownSecs
          ∧ ∀ c, e.pre.transport.state = .connected c →
              last.report = .written c
                ∧ frame (codec.message (.directive last.directive))
                    <:+ e.pre.transport.wire c := by
  refine Mealy.along_of_steps
    (I := fun h m =>
      DedupInv l.start l.cooldownSecs (emitted h) (returned h) m.dedup
        ∧ Attached codec (l.startupEmissions P codec ++ emitted h) m.transport)
    ?_ ?_ ?_ _
  · refine ⟨⟨rfl, ⟨rfl, rfl⟩, .nil, rfl⟩, ?_⟩
    rw [emitted_nil, List.append_nil]
    exact startup_attached P codec l
  · intro h m e ⟨hdedup, hatt⟩
    rw [emitted_concat, returned_concat, ← List.append_assoc]
    exact ⟨loopStep_dedupInv P codec l.start l.cooldownSecs e hdedup,
      loopStep_attached P codec l.start e hatt⟩
  · intro h m e ⟨hdedup, hatt⟩ d hret hemi
    obtain ⟨last, hlast, hsame, hgap⟩ :=
      suppressed_repeats P codec hdedup hret hemi
    -- the last emission of the loop is the last one of the whole run
    have hall : (l.startupEmissions P codec ++ emitted h).getLast?
        = some last := by
      rw [List.getLast?_append, hlast]
      rfl
    refine ⟨last, hall, hsame, hgap, ?_⟩
    intro c hc
    exact hatt c hc last hall

/-- A unix transport whose wait for a client timed out. -/
def nobody : UnixSocketChannel :=
  (SocketChannel.new.waitForClient [⟨0, false, ⟨false, false⟩, true⟩]).1

example : createTransport .unix 60 [⟨0, false, ⟨false, false⟩, true⟩] false
    = some (.ok nobody) := rfl

/-- The second of two quiet readings with nobody attached. -/
def repeated : Mealy.Step (Manager (LuaPolicy Unit) .unix)
    (LoopEvent (LuaPolicy.World Unit)) LoopOutput :=
  let strategy := LuaPolicy.strategy Bindings.exact
  let l := releasingLaunch nobody []
  (loop strategy byteCodec l.start).stepAt
    ((loop strategy byteCodec l.start).exec (l.manager strategy byteCodec)
      [.signal (quietMemory 1)])
    (.signal (quietMemory 2))

/-- No client ever connects: the first directive is dropped, and its repeat is
suppressed though nobody was sent anything. -/
theorem suppressed_with_nobody_attached :
    ¬ ∀ (σ ω : Type) (P : PolicyStrategy σ ω) (codec : Codec)
        (l : Launch σ ω .unix) (events : List (LoopEvent ω)),
        (loop P codec l.start).Along (l.manager P codec) events fun h e =>
          ∀ d, e.output.returned = some d → e.output.emitted = none →
            ∃ c, e.pre.transport.state = .connected c
              ∧ ∃ sent ∈ l.startupEmissions P codec ++ emitted h,
                  SameCommands sent.toTimedDirective d
                    ∧ d.time - sent.time < l.cooldownSecs
                    ∧ sent.report = .written c := by
  intro h
  have hlast := (h _ _ (LuaPolicy.strategy Bindings.exact) byteCodec
    (releasingLaunch nobody [])
    ([.signal (quietMemory 1)] ++ .signal (quietMemory 2) :: [])).at_step
  have hrepeat : repeated.output.returned.isSome = true
      ∧ repeated.output.emitted.isNone = true := by decide +kernel
  obtain ⟨d, hd⟩ := Option.isSome_iff_exists.mp hrepeat.1
  obtain ⟨c, hc, _⟩ := hlast d hd (Option.isNone_iff_eq_none.mp hrepeat.2)
  have hl : repeated.pre.transport.state = .listening := by decide +kernel
  exact absurd (hl.symm.trans hc) (by simp)

end ArgusManager
