/-
  ArgusManager.Main.EndToEnd
  ──────────────────────────
  **From the policy to the engine.**

  The manager's `main` at one end of a socket, `run_protocol` of the mock
  engine (`src/bin/mock_engine.rs`) at the other.  In between the bytes arrive
  in chunks of any size, and the engine's read timeout strikes anywhere.

    • `Drove`      — every run of `main` is a run of its channel, in which each
                     emission ends the way `main` is told,
    • `answered_eq` — the engine answers what polling its line delivers, up to
                     the first failure,
    • `engine_runs_written_only` — so the engine never executes a directive
                     that was not written to it, nor one twice or out of turn,
    • `engine_runs_all_written` — and with timeouts between frames only, it
                     executes them all.
-/
import ArgusManager.Bin.MockEngine
import ArgusManager.Bin.MockPeer
import ArgusManager.Channel.Framing
import ArgusManager.Main.Dedup

namespace ArgusManager

open SocketChannel (EmitReport machine reported writtenOn failedOn)
open MockPeer (recvMessage tokens bytes Open)

variable {σ ω : Type} {kind : ChannelKind}

/-! ## §1. A run of the manager is a run of its channel. -/

/-- The directives whose emission ended so. -/
def withReport (report : EmitReport) (es : List Emission) :
    List EngineDirective :=
  es.filterMap fun e => if e.report = report then some e.directive else none

/-- The text of a directive. -/
def Codec.text (codec : Codec) (d : EngineDirective) : List UInt8 :=
  codec.message (.directive d)

theorem withReport_concat (report : EmitReport) (es : List Emission)
    (e : Emission) :
    withReport report (es ++ [e])
      = withReport report es
        ++ if e.report = report then [e.directive] else [] := by
  unfold withReport
  rw [List.filterMap_append]
  congr 1
  by_cases h : e.report = report <;> simp [h]

/-- The channel has come to where it is by operations whose emits are these
emissions, with these reports. -/
def Drove (codec : Codec) (es : List Emission) (ch : SocketChannel kind) :
    Prop :=
  ∃ ops, (machine kind codec).exec .new ops = ch
    ∧ ∀ report, ((machine kind codec).trace .new ops).filterMap
        (reported codec report) = (withReport report es).map codec.text

/-- An operation that emits nothing. -/
theorem Drove.quiet {codec : Codec} {es : List Emission}
    {ch : SocketChannel kind} (h : Drove codec es ch)
    {op : SocketChannel.ChannelOp} (hop : op.payload codec = none) :
    Drove codec es (ch.apply codec op).1 := by
  obtain ⟨ops, rfl, hreports⟩ := h
  refine ⟨ops ++ [op], ?_, fun report => ?_⟩
  · rw [Mealy.exec_append]
    rfl
  · rw [Mealy.trace_append]
    show (_ ++ [(machine kind codec).stepAt _ op]).filterMap _ = _
    rw [SocketChannel.filterMap_reported_concat,
      SocketChannel.reported_quiet hop, hreports]
    exact List.append_nil _

/-- A call of `emit_directive`. -/
theorem Drove.emit {codec : Codec} {es : List Emission}
    {ch : SocketChannel kind} (h : Drove codec es ch) (time : ℚ)
    (d : EngineDirective) (io : EmitIo) :
    Drove codec (es ++ [⟨⟨time, d⟩, (ch.emitDirective codec d io).2⟩])
      (ch.emitDirective codec d io).1 := by
  obtain ⟨ops, rfl, hreports⟩ := h
  have hop : (SocketChannel.ChannelOp.emitDirective d io).payload codec
      = some (codec.text d, io) := rfl
  refine ⟨ops ++ [.emitDirective d io], ?_, fun report => ?_⟩
  · rw [Mealy.exec_append]
    rfl
  · rw [Mealy.trace_append]
    show (_ ++ [(machine kind codec).stepAt _ _]).filterMap _ = _
    rw [SocketChannel.filterMap_reported_concat,
      SocketChannel.reported_emit hop, hreports, withReport_concat,
      List.map_append]
    congr 1
    -- both sides ask whether this emit ended so
    show Option.toList (if (SocketChannel.emitBytes (codec.text d) io _).2
        = report then _ else _)
      = List.map _ (if (SocketChannel.emitBytes (codec.text d) io _).2
          = report then [d] else [])
    split <;> rfl

/-- The wait in `create_transport` emits nothing. -/
theorem createTransport_drove (codec : Codec) {clientTimeout : Nat}
    {polls : List SocketChannel.WaitPoll} {shutdown : Bool}
    {channel : SocketChannel kind}
    (h : createTransport kind clientTimeout polls shutdown
      = some (.ok channel)) : Drove codec [] channel := by
  have hnew : Drove codec [] (.new : SocketChannel kind) :=
    ⟨[], rfl, fun _ => rfl⟩
  have hop : (SocketChannel.ChannelOp.waitForClient polls).payload codec
      = none := rfl
  have hwait := hnew.quiet hop
  change Drove codec []
    ((SocketChannel.new : SocketChannel kind).waitForClient polls).1 at hwait
  unfold createTransport at h
  generalize (SocketChannel.new : SocketChannel kind).waitForClient polls = r
    at h hwait
  obtain ⟨ch, _ | _ | _⟩ := r
  · exact absurd h (by simp)
  · cases shutdown with
    | true => exact absurd h (by simp)
    | false =>
        cases kind with
        | unix =>
            injection h with h
            injection h with h
            exact h ▸ hwait
        | tcp => exact absurd h (by simp)
  · injection h with h
    injection h with h
    exact h ▸ hwait

section Manager

variable (P : PolicyStrategy σ ω) (codec : Codec)

theorem startupStep_drove {es : List Emission} {m : σ × SocketChannel kind}
    (call : SignalCall ω) (h : Drove codec es m.2) :
    Drove codec (es ++ (startupStep P codec m call).2.emitted.toList)
      (startupStep P codec m call).1.2 := by
  unfold startupStep
  split
  next =>
    rw [Option.toList_none, List.append_nil]
    exact h
  next => exact h.emit _ _ _

theorem loopStep_drove (start : ℚ) {es : List Emission} {m : Manager σ kind}
    (e : LoopEvent ω) (h : Drove codec es m.transport) :
    Drove codec (es ++ (loopStep P codec start m e).2.emitted.toList)
      (loopStep P codec start m e).1.transport := by
  cases e with
  | sighup world =>
      show Drove codec (es ++ []) (handleSighup P world m).1.transport
      rw [(handleSighup_frame P world m).2, List.append_nil]
      exact h
  | connect =>
      show Drove codec (es ++ []) _
      rw [List.append_nil]
      have hop : SocketChannel.ChannelOp.connect.payload codec = none := rfl
      exact h.quiet hop
  | tryRecv poll =>
      have hop : (SocketChannel.ChannelOp.tryRecv poll).payload codec
          = none := rfl
      have hrecv := h.quiet hop
      change Drove codec es (m.transport.tryRecv poll).1 at hrecv
      unfold loopStep
      dsimp only
      split
      next transport msg heq =>
        rw [heq] at hrecv
        show Drove codec (es ++ []) _
        rw [List.append_nil]
        exact hrecv
      next transport heq =>
        rw [heq] at hrecv
        show Drove codec (es ++ []) _
        rw [List.append_nil]
        exact hrecv
  | signal call =>
      have hspec := handleSignal_spec P codec start call m
      show Drove codec
        (es ++ (handleSignal P codec start call m).2.emitted.toList)
        (handleSignal P codec start call m).1.transport
      generalize (handleSignal P codec start call m).1 = m' at *
      generalize (handleSignal P codec start call m).2 = o at *
      cases hspec with
      | silent policy _ =>
          rw [Option.toList_none, List.append_nil]
          exact h
      | suppressed policy d _ _ _ _ _ =>
          rw [Option.toList_none, List.append_nil]
          exact h
      | emitted policy d _ _ => exact h.emit _ _ _

/-- **Over a whole run of `main`** what happened on the channel is what was
emitted. -/
theorem Launch.drove (l : Launch σ ω kind) {clientTimeout : Nat}
    {polls : List SocketChannel.WaitPoll} {shutdown : Bool}
    (hl : createTransport kind clientTimeout polls shutdown
      = some (.ok l.transport))
    (events : List (LoopEvent ω)) :
    Drove codec (l.emissions P codec events)
      ((loop P codec l.start).exec (l.manager P codec) events).transport := by
  have hstart : Drove codec (l.startupEmissions P codec)
      (l.manager P codec).transport := by
    unfold Launch.startupEmissions Launch.startupOutcomes
    rw [Mealy.outs_filterMap]
    refine Mealy.history_of_steps (m := startup P codec)
      (I := fun h s => Drove codec (Mealy.said SignalOutcome.emitted h) s.2)
      (s := (l.policy, l.transport)) (createTransport_drove codec hl) ?_
      l.initial
    intro h m call hinv
    rw [Mealy.said_concat]
    exact startupStep_drove P codec call hinv
  refine Mealy.history_of_steps (m := loop P codec l.start)
    (I := fun h m => Drove codec (l.startupEmissions P codec ++ emitted h)
      m.transport) (s := l.manager P codec) ?_ ?_ events
  · rw [emitted_nil, List.append_nil]
    exact hstart
  · intro h m e hinv
    rw [emitted_concat, ← List.append_assoc]
    exact loopStep_drove P codec l.start e hinv

end Manager

/-- **The bytes of a connection**: the frames of what was written to it, and
at most the beginning of one that failed. -/
theorem Drove.wire {codec : Codec} {es : List Emission}
    {ch : SocketChannel kind} (h : Drove codec es ch) (s : Stream) :
    ∃ tail, ch.wire s
        = bigEndian.stream codec.text (withReport (.written s) es) ++ tail
      ∧ (tail = [] ∨ ∃ d ∈ withReport (.failed s) es,
          tail <+: frame (codec.text d) ∧ tail ≠ frame (codec.text d)) := by
  obtain ⟨ops, rfl, hreports⟩ := h
  obtain ⟨tail, hwire, htail⟩ :=
    ((SocketChannel.framed_run codec ops).2 s).wire
  refine ⟨tail, ?_, ?_⟩
  · rw [hwire]
    unfold writtenOn LengthPrefix.stream
    rw [hreports, List.flatMap_map]
    rfl
  · rcases htail with hnil | ⟨_, json, hjson, hpre, hne⟩
    · exact .inl hnil
    · unfold failedOn at hjson
      rw [hreports] at hjson
      obtain ⟨d, hd, rfl⟩ := List.mem_map.mp hjson
      exact .inr ⟨d, hd, hpre, hne⟩

theorem mem_of_withReport {report : EmitReport} {es : List Emission}
    {d : EngineDirective} (h : d ∈ withReport report es) :
    ∃ e ∈ es, e.directive = d := by
  obtain ⟨e, he, hif⟩ := List.mem_filterMap.mp h
  refine ⟨e, he, ?_⟩
  split at hif
  · exact Option.some.inj hif
  · exact absurd hif (by simp)

/-! ## §2. The engine on its line. -/

namespace MockEngine

/-- The pass gets as far as the read. -/
def Loop.reads (args : Args) (env : Surroundings) (s : Loop) : Bool :=
  s.running && env.testAt < args.durationSecs * 1000
    && (s.beat args env).1.running

/-- `run_protocol` on its socket: each pass that gets so far calls
`recv_message` on what has yet to arrive. -/
def protocolOn (args : Args) (decode : List UInt8 → Option ManagerMessage) :
    Mealy (Loop × List Arrival) Surroundings Report where
  step := fun (s, a) env =>
    let (rest, received) := MockEngine.recvMessage decode a
    let (s', report) := s.pass args { env with received }
    ((s', if s.reads args env then rest else a), report)

/-- The directive that a pass executed. -/
def Report.directive (report : Report) : Option EngineDirective :=
  report.answered.map Prod.fst

/-- The directives executed in these passes. -/
def executed
    (h : List (Mealy.Step (Loop × List Arrival) Surroundings Report)) :
    List EngineDirective :=
  Mealy.said Report.directive h

/-- A pass that does not read leaves the loop. -/
theorem pass_unread (args : Args) (env : Surroundings) (s : Loop)
    (h : s.reads args env = false) :
    (s.pass args env).1.running = false
      ∧ (s.pass args env).2.answered = none := by
  unfold Loop.reads at h
  unfold Loop.pass
  by_cases hgo : (s.running && decide (env.testAt < args.durationSecs * 1000))
    = true
  · rw [hgo, Bool.true_and] at h
    rw [if_pos hgo]
    dsimp only
    rw [if_neg (by rw [h]; exact Bool.false_ne_true)]
    exact ⟨h, rfl⟩
  · rw [if_neg hgo]
    exact ⟨rfl, rfl⟩

/-- A pass that reads does with the message what `receive` does. -/
theorem pass_read (args : Args) (env : Surroundings) (s : Loop)
    (h : s.reads args env = true) :
    (s.pass args env).1 = ((s.beat args env).1.receive env).1
      ∧ (s.pass args env).2.answered
        = ((s.beat args env).1.receive env).2.answered := by
  unfold Loop.reads at h
  obtain ⟨hgo, hbeat⟩ := Bool.and_eq_true_iff.mp h
  unfold Loop.pass
  rw [if_pos hgo]
  dsimp only
  rw [if_pos hbeat]
  exact ⟨rfl, rfl⟩

/-- The clock has not run out, and the heartbeat can be written. -/
def Prompt (args : Args) (env : Surroundings) : Prop :=
  env.testAt < args.durationSecs * 1000 ∧ env.beatWritten = true

theorem reads_of_prompt {args : Args} {env : Surroundings} {s : Loop}
    (hs : s.running = true) (h : Prompt args env) :
    s.reads args env = true := by
  obtain ⟨htest, hbeat⟩ := h
  have hrun : (s.beat args env).1.running = true := by
    unfold Loop.beat
    split <;> exact hs
  unfold Loop.reads
  rw [hs, hrun, decide_eq_true htest]
  rfl

def Report.message (report : Report) : Option ManagerMessage :=
  report.directive.map .directive

/-- **A pass on the line** leaves the loop without an answer, or takes one poll
and answers what it delivers. -/
theorem protocolOn_step (args : Args)
    (decode : List UInt8 → Option ManagerMessage) (s : Loop)
    (env : Surroundings) (a : List Arrival) (hopen : Open a) :
    (((protocolOn args decode).step (s, a) env).1.1.running = false
        ∧ ((protocolOn args decode).step (s, a) env).2.answered = none
        ∧ (s.running = true → Prompt args env →
            (bigEndian.poll decode (tokens a)).1 = none))
      ∨ (bigEndian.poll decode (tokens a)).1
            = some ((protocolOn args decode).step (s, a) env).2.message
        ∧ (bigEndian.poll decode (tokens a)).2
            = tokens ((protocolOn args decode).step (s, a) env).1.2
        ∧ Open ((protocolOn args decode).step (s, a) env).1.2
        ∧ ((protocolOn args decode).step (s, a) env).1.1.running = true := by
  obtain ⟨hrest, hpoll⟩ :=
    MockPeer.recvMessage_refines "ManagerMessage" decode a hopen
  unfold protocolOn MockEngine.recvMessage
  dsimp only
  rw [hpoll]
  generalize MockPeer.recvMessage "ManagerMessage" decode a = found at hrest
  obtain ⟨rest, received⟩ := found
  by_cases hreads : s.reads args env = true
  · obtain ⟨hloop, hanswer⟩ := pass_read args { env with received } s hreads
    have hbeat : (s.beat args env).1.running = true :=
      (Bool.and_eq_true_iff.mp hreads).2
    change (s.pass args { env with received }).1
      = ((s.beat args env).1.receive { env with received }).1 at hloop
    change (s.pass args { env with received }).2.answered
      = ((s.beat args env).1.receive { env with received }).2.answered
      at hanswer
    unfold Report.message Report.directive
    dsimp only
    rw [if_pos hreads, hloop, hanswer]
    unfold Loop.receive
    -- the pass is over, or goes on with or without a message
    cases received with
    | error e => exact .inl ⟨rfl, rfl, fun _ _ => rfl⟩
    | ok msg =>
        right
        cases msg with
        | none => exact ⟨rfl, rfl, hrest, hbeat⟩
        | some msg =>
            obtain ⟨d⟩ := msg
            exact ⟨rfl, rfl, hrest, hbeat⟩
  · obtain ⟨hstop, hnone⟩ := pass_unread args { env with received } s
      (Bool.not_eq_true _ ▸ hreads)
    exact .inl ⟨hstop, hnone,
      fun hs hprompt => absurd (reads_of_prompt hs hprompt) hreads⟩

/-- A loop that was left answers nothing any more. -/
theorem outs_stopped (args : Args)
    (decode : List UInt8 → Option ManagerMessage)
    (envs : List Surroundings) {s : Loop} (hs : s.running = false)
    (a : List Arrival) :
    ((protocolOn args decode).outs (s, a) envs).filterMap Report.message
      = [] := by
  induction envs generalizing s a with
  | nil => rfl
  | cons env envs ih =>
      obtain ⟨hstop, hnone⟩ := pass_unread args
        { env with received := (recvMessage decode a).2 } s
        (by unfold Loop.reads; rw [hs]; rfl)
      have hmessage : ((protocolOn args decode).step (s, a) env).2.message
          = none := by
        unfold Report.message Report.directive
        rw [show ((protocolOn args decode).step (s, a) env).2.answered = none
          from hnone]
        rfl
      rw [Mealy.outs_cons, List.filterMap_cons_none hmessage]
      exact ih hstop _

/-- **The engine answers what polling its line delivers**: up to the first
failure at most, and up to there if nothing else keeps it from reading. -/
theorem answered_eq (args : Args)
    (decode : List UInt8 → Option ManagerMessage)
    (envs : List Surroundings) (s : Loop) (a : List Arrival)
    (hopen : Open a) :
    ∃ k ≤ envs.length, none ∉ bigEndian.answers decode k (tokens a)
      ∧ ((protocolOn args decode).outs (s, a) envs).filterMap Report.message
          = LengthPrefix.delivered (bigEndian.answers decode k (tokens a))
      ∧ (s.running = true → (∀ env ∈ envs, Prompt args env) →
          k < envs.length →
          none ∈ bigEndian.answers decode (k + 1) (tokens a)) := by
  induction envs generalizing s a with
  | nil =>
      exact ⟨0, Nat.le_refl _, List.not_mem_nil, rfl,
        fun _ _ h => absurd h (Nat.lt_irrefl 0)⟩
  | cons env envs ih =>
      rw [Mealy.outs_cons]
      rcases protocolOn_step args decode s env a hopen with
        ⟨hstop, hnone, hfails⟩ | ⟨hr, hrest, hopen', hrun⟩
      · -- the loop is left here
        refine ⟨0, Nat.zero_le _, List.not_mem_nil, ?_, ?_⟩
        · have hmessage : ((protocolOn args decode).step (s, a) env).2.message
              = none := by
            unfold Report.message Report.directive
            rw [hnone]
            rfl
          rw [List.filterMap_cons_none hmessage]
          exact outs_stopped args decode envs hstop _
        · intro hs hprompt _
          have hfail := hfails hs (hprompt env List.mem_cons_self)
          rw [bigEndian.answers_succ, hfail]
          exact List.mem_cons_self
      · obtain ⟨k, hk, hok, heq, hmore⟩ := ih _ _ hopen'
        rw [← hrest] at hok heq hmore
        refine ⟨k + 1, Nat.succ_le_succ hk, ?_, ?_, ?_⟩
        · rw [bigEndian.answers_succ, hr]
          simpa using hok
        · rw [bigEndian.answers_succ, hr]
          show _ = List.filterMap Option.join (some _ :: _)
          cases hm : ((protocolOn args decode).step (s, a) env).2.message with
          | none =>
              rw [List.filterMap_cons_none hm]
              exact heq
          | some msg =>
              rw [List.filterMap_cons_some hm]
              exact congrArg (msg :: ·) heq
        · intro _ hprompt hlt
          rw [bigEndian.answers_succ]
          exact List.mem_cons_of_mem _ (hmore hrun
            (fun e he => hprompt e (List.mem_cons_of_mem _ he))
            (Nat.lt_of_succ_lt_succ hlt))

theorem executed_eq (args : Args)
    (decode : List UInt8 → Option ManagerMessage)
    (envs : List Surroundings) (s : Loop) (a : List Arrival)
    (hopen : Open a) :
    ∃ k ≤ envs.length, none ∉ bigEndian.answers decode k (tokens a)
      ∧ (executed ((protocolOn args decode).trace (s, a) envs)).map
            ManagerMessage.directive
          = LengthPrefix.delivered (bigEndian.answers decode k (tokens a))
      ∧ (s.running = true → (∀ env ∈ envs, Prompt args env) →
          k < envs.length →
          none ∈ bigEndian.answers decode (k + 1) (tokens a)) := by
  obtain ⟨k, hk, hok, heq, hmore⟩ :=
    answered_eq args decode envs s a hopen
  refine ⟨k, hk, hok, ?_, hmore⟩
  rw [← heq]
  unfold executed
  rw [← Mealy.outs_filterMap, List.map_filterMap]
  rfl

/-- The engine is what executing those directives makes of it, its token count
apart. -/
theorem engine_of_executed (args : Args)
    (decode : List UInt8 → Option ManagerMessage)
    (envs : List Surroundings) (s : Loop) (a : List Arrival) :
    ((protocolOn args decode).exec (s, a) envs).1.engine.untimed
      = (s.engine.applyAll
          ((executed ((protocolOn args decode).trace (s, a) envs)).flatMap
            EngineDirective.commands)).1.untimed := by
  refine Mealy.history_of_steps (m := protocolOn args decode)
    (I := fun h m => m.1.engine.untimed
      = (s.engine.applyAll
          ((executed h).flatMap EngineDirective.commands)).1.untimed)
    (s := (s, a)) rfl ?_ envs
  intro h m env hinv
  obtain ⟨s', a'⟩ := m
  unfold executed at hinv ⊢
  rw [Mealy.said_concat, List.flatMap_append]
  have hspec := pass_spec args
    { env with received := (recvMessage decode a').2 } s'
  change Passes _ s' ((protocolOn args decode).step (s', a') env).1.1
    ((protocolOn args decode).step (s', a') env).2 at hspec
  change s'.engine.untimed = _ at hinv
  show ((protocolOn args decode).step (s', a') env).1.1.engine.untimed
    = (s.engine.applyAll (_ ++ ((protocolOn args decode).step
        (s', a') env).2.directive.toList.flatMap _)).1.untimed
  generalize ((protocolOn args decode).step (s', a') env).1.1 = next at hspec ⊢
  generalize ((protocolOn args decode).step (s', a') env).2 = report
    at hspec ⊢
  cases hspec with
  | quiet statuses hengine =>
      rw [hengine, hinv]
      exact congrArg (fun cmds => (s.engine.applyAll cmds).1.untimed)
        (List.append_nil _).symm
  | @answered d _ statuses e he hread hengine =>
      -- the heartbeat counted a token, which no command looks at
      have hafter : (e.applyAll d.commands).1.untimed
          = (e.untimed.applyAll d.commands).1 :=
        (congrArg Prod.fst (e.applyAll_untimed d.commands)).symm
      rw [hengine, hafter, he, hinv, Engine.applyAll_untimed,
        Engine.applyAll_append]
      show _ = ((Engine.applyAll _ (d.commands ++ [])).1).untimed
      rw [List.append_nil]

end MockEngine

/-! ## §3. From one end to the other. -/

open MockEngine (protocolOn executed Prompt)

/-- Every directive emitted is one that the engine can decode. -/
def Decodes (codec : Codec) (decode : List UInt8 → Option ManagerMessage)
    (es : List Emission) : Prop :=
  ∀ e ∈ es, decode (codec.text e.directive) = some (.directive e.directive)

theorem stream_map_directive (codec : Codec) (ds : List EngineDirective) :
    bigEndian.stream codec.message (ds.map ManagerMessage.directive)
      = bigEndian.stream codec.text ds := by
  unfold LengthPrefix.stream
  rw [List.flatMap_map]
  rfl

theorem directive_injective : Function.Injective ManagerMessage.directive := by
  intro d d' h
  injection h

theorem sublist_of_map {α β : Type} {f : α → β} (hf : Function.Injective f)
    {xs ys : List α} (h : (xs.map f).Sublist (ys.map f)) : xs.Sublist ys := by
  obtain ⟨zs, hzs, heq⟩ := List.sublist_map_iff.mp h
  rw [List.map_injective_iff.mpr hf heq]
  exact hzs

/-- What the peer has of the wire is the beginning of the frames of what was
written to the connection, or of these and one that failed. -/
theorem Drove.stream {codec : Codec} {es : List Emission}
    {ch : SocketChannel kind} (h : Drove codec es ch) {s : Stream}
    {got : List UInt8} (hgot : got <+: ch.wire s) :
    ∃ ds missing, (∀ d ∈ ds, ∃ e ∈ es, e.directive = d)
      ∧ got ++ missing = bigEndian.stream codec.text ds
      ∧ (ds = withReport (.written s) es
        ∨ missing ≠ [] ∧ ds.dropLast = withReport (.written s) es) := by
  obtain ⟨more, hmore⟩ := hgot
  obtain ⟨tail, hwire, htail⟩ := h.wire s
  rcases htail with rfl | ⟨d, hd, ⟨rest, hrest⟩, hne⟩
  · refine ⟨_, more, fun d hd => mem_of_withReport hd, ?_, .inl rfl⟩
    rw [hmore, hwire, List.append_nil]
  · -- the frame that failed has lost something
    have hlost : more ++ rest ≠ [] := by
      intro hnil
      obtain ⟨_, rfl⟩ := List.append_eq_nil_iff.mp hnil
      rw [List.append_nil] at hrest
      exact hne hrest
    refine ⟨withReport (.written s) es ++ [d], more ++ rest, ?_, ?_,
      .inr ⟨hlost, List.dropLast_concat⟩⟩
    · intro d' hd'
      rcases List.mem_append.mp hd' with hd' | hd'
      · exact mem_of_withReport hd'
      · rw [List.mem_singleton.mp hd']
        exact mem_of_withReport hd
    · rw [← List.append_assoc, hmore, hwire, List.append_assoc, hrest]
      unfold LengthPrefix.stream
      rw [List.flatMap_append, List.flatMap_singleton, bigEndian_frame]

/-- **The engine executes nothing but what `main` wrote to it**, each directive
at most once and in order, and is what executing these makes of it: whatever
becomes of the reads and writes at either end, however much of what was written
has arrived, in whatever chunks and with timeouts anywhere. -/
theorem engine_runs_written_only (P : PolicyStrategy σ ω) (codec : Codec)
    (decode : List UInt8 → Option ManagerMessage) (l : Launch σ ω kind)
    {clientTimeout : Nat} {polls : List SocketChannel.WaitPoll}
    {shutdown : Bool}
    (hl : createTransport kind clientTimeout polls shutdown
      = some (.ok l.transport))
    (events : List (LoopEvent ω))
    (hround : Decodes codec decode (l.emissions P codec events))
    (hsize : ∀ e ∈ l.emissions P codec events,
      MockPeer.ProtocolSized (codec.text e.directive))
    (hnul : ∀ text, 0 ∈ text → decode text = none)
    (s : Stream) (a : List Arrival) (hopen : Open a)
    (hgot : bytes a <+: ((loop P codec l.start).exec (l.manager P codec)
      events).transport.wire s)
    (args : MockEngine.Args) (envs : List MockEngine.Surroundings) :
    let run := (protocolOn args decode).trace (.start args, a) envs
    (executed run).Sublist
        (withReport (.written s) (l.emissions P codec events))
      ∧ ((protocolOn args decode).exec (.start args, a) envs).1.engine.untimed
        = ((MockEngine.Engine.new args.kvOccupancy args.device).applyAll
            ((executed run).flatMap EngineDirective.commands)).1.untimed := by
  intro run
  refine ⟨?_, MockEngine.engine_of_executed args decode envs (.start args) a⟩
  obtain ⟨ds, missing, hds, hstream, hwritten⟩ :=
    (l.drove P codec hl events).stream hgot
  -- every message of the stream is a directive that was emitted
  have hmsgs : ∀ m ∈ ds.map ManagerMessage.directive,
      decode (codec.message m) = some m
        ∧ MockPeer.ProtocolSized (codec.message m) := by
    intro m hm
    obtain ⟨d, hd, rfl⟩ := List.mem_map.mp hm
    obtain ⟨e, he, rfl⟩ := hds d hd
    exact ⟨hround e he, hsize e he⟩
  have hoff := MockPeer.offFrame_refused (fun m hm => (hmsgs m hm).2)
    (fun m hm => (hmsgs m hm).1) hnul
  have hlen : ∀ m ∈ ds.map ManagerMessage.directive,
      (codec.message m).length < bigEndian.limit := by
    intro m hm
    have hlt := (hmsgs m hm).2.2
    show _ < 2 ^ 32
    omega
  obtain ⟨k, _, hok, heq, _⟩ :=
    MockEngine.executed_eq args decode envs (.start args) a hopen
  obtain ⟨hsub, hdrop⟩ := bigEndian.delivered_sublist hoff hlen
    (fun m hm => (hmsgs m hm).1) k (t := [])
    (List.Subset.refl _) (.inl rfl)
    (by rw [List.nil_append, stream_map_directive]; exact hstream) hok
  rw [← heq] at hsub hdrop
  rcases hwritten with rfl | ⟨hlost, hwritten⟩
  · exact sublist_of_map directive_injective hsub
  · rw [← hwritten]
    refine sublist_of_map directive_injective ?_
    rw [List.map_dropLast]
    exact hdrop hlost

/-- These directives arrive as whole frames, with timeouts between them only,
and behind them at most a frame cut short. -/
def OnTime (codec : Codec) (ds : List EngineDirective) (a : List Arrival) :
    Prop :=
  ∃ (ts : List (Option UInt8)) (tail : List UInt8),
    tokens a = ts ++ tail.map some
      ∧ bigEndian.Whole codec.message (ds.map ManagerMessage.directive) ts

/-- **With timeouts between frames only the engine executes everything that
`main` wrote to it**, once it has made enough passes in time. -/
theorem engine_runs_all_written (P : PolicyStrategy σ ω) (codec : Codec)
    (decode : List UInt8 → Option ManagerMessage) (l : Launch σ ω kind)
    {clientTimeout : Nat} {polls : List SocketChannel.WaitPoll}
    {shutdown : Bool}
    (hl : createTransport kind clientTimeout polls shutdown
      = some (.ok l.transport))
    (events : List (LoopEvent ω))
    (hround : Decodes codec decode (l.emissions P codec events))
    (hlen : ∀ e ∈ l.emissions P codec events,
      (codec.text e.directive).length < 2 ^ 32)
    (s : Stream) (a : List Arrival) (hopen : Open a)
    (hgot : bytes a = ((loop P codec l.start).exec (l.manager P codec)
      events).transport.wire s)
    (hontime : OnTime codec
      (withReport (.written s) (l.emissions P codec events)) a)
    (args : MockEngine.Args) :
    ∃ n, ∀ envs : List MockEngine.Surroundings, n ≤ envs.length →
      (∀ env ∈ envs, Prompt args env) →
      executed ((protocolOn args decode).trace (.start args, a) envs)
        = withReport (.written s) (l.emissions P codec events) := by
  obtain ⟨ts, tail, hts, hwhole⟩ := hontime
  obtain ⟨cut, hwire, hcut⟩ := (l.drove P codec hl events).wire s
  -- what follows the whole frames is the frame that failed
  have htail : tail = cut := by
    have hbytes : ts.reduceOption ++ tail
        = bigEndian.stream codec.text
            (withReport (.written s) (l.emissions P codec events)) ++ cut := by
      rw [← hwire, ← hgot]
      unfold bytes
      rw [hts, List.reduceOption_append]
      simp [List.reduceOption]
    rw [hwhole.letters, stream_map_directive] at hbytes
    exact List.append_cancel_left hbytes
  have hnext : bigEndian.next tail = none := by
    rw [htail]
    rcases hcut with rfl | ⟨d, hd, hpre, hne⟩
    · exact bigEndian.next_nil
    · obtain ⟨e, he, rfl⟩ := mem_of_withReport hd
      exact bigEndian.next_of_cut (hlen e he) hpre hne
  have hmsgs : ∀ m ∈ (withReport (.written s)
      (l.emissions P codec events)).map ManagerMessage.directive,
      (codec.message m).length < 2 ^ 32
        ∧ decode (codec.message m) = some m := by
    intro m hm
    obtain ⟨d, hd, rfl⟩ := List.mem_map.mp hm
    obtain ⟨e, he, rfl⟩ := mem_of_withReport hd
    exact ⟨hlen e he, hround e he⟩
  obtain ⟨hpre, n, hok, hall⟩ := bigEndian.delivered_whole_cut hwhole
    (fun m hm => (hmsgs m hm).1) (fun m hm => (hmsgs m hm).2) hnext
  rw [← hts] at hpre hok hall
  refine ⟨n, fun envs hn hprompt => ?_⟩
  obtain ⟨k, hk, _, heq, hmore⟩ :=
    MockEngine.executed_eq args decode envs (.start args) a hopen
  -- the engine has polled at least so often
  have hnk : n ≤ k := by
    by_contra hlt
    have hfail := hmore rfl hprompt (by omega)
    exact hok ((bigEndian.answers_prefix (by omega) _).subset hfail)
  have hmap : (executed ((protocolOn args decode).trace
      (.start args, a) envs)).map ManagerMessage.directive
      = (withReport (.written s) (l.emissions P codec events)).map
          ManagerMessage.directive := by
    rw [heq]
    refine (hpre k).eq_of_length_le ?_
    rw [← hall]
    exact ((bigEndian.answers_prefix hnk _).filterMap _).length_le
  exact List.map_injective_iff.mpr directive_injective hmap

/-! ## §4. One directive over a slow line. -/

/-- The manager with one client, and a policy that releases. -/
def attachedLaunch :
    Launch (LuaPolicy Unit) (LuaPolicy.World Unit) .unix :=
  releasingLaunch
    (SocketChannel.new.waitForClient [⟨1, false, ⟨false, false⟩, false⟩]).1 []

theorem attachedLaunch_created :
    createTransport .unix 60 [⟨1, false, ⟨false, false⟩, false⟩] false
      = some (.ok attachedLaunch.transport) := rfl

/-- A codec for the one directive that is sent. -/
def nullCodec : Codec where
  message := fun _ => nullText
  signal := fun _ => nullText

/-- The directive of a quiet reading. -/
def released : EngineDirective := { seqId := 1, commands := [.restoreDefaults] }

/-- A pass of the engine's loop in which every call succeeds. -/
def pass (testAt : Nat) : MockEngine.Surroundings where
  testAt := testAt
  checkAt := testAt
  beatAt := testAt
  beatWritten := true
  responseWritten := true
  received := .ok none

/-- What the manager emits on one quiet reading. -/
theorem attachedLaunch_emissions :
    attachedLaunch.emissions (LuaPolicy.strategy Bindings.exact) nullCodec
      [.signal (quietMemory 1)] = [⟨⟨1, released⟩, .written 0⟩] := rfl

/-- A timeout in the length prefix: the rest of the frame is refused. -/
theorem engine_runs_written_only_torn :
    (executed ((protocolOn ⟨1000, .fin (1/2), "cpu", 10⟩
        (onlyMessage (.directive released))).trace
      (.start ⟨1000, .fin (1/2), "cpu", 10⟩,
        [.data [0, 0], .timeout, .data ([0, 4] ++ nullText)])
      [pass 1, pass 2])).Sublist [released] := by
  have hall : ∀ e ∈ attachedLaunch.emissions
      (LuaPolicy.strategy Bindings.exact) nullCodec [.signal (quietMemory 1)],
      e = ⟨⟨1, released⟩, .written 0⟩ := by
    rw [attachedLaunch_emissions]
    exact fun e he => List.mem_singleton.mp he
  exact (engine_runs_written_only (LuaPolicy.strategy Bindings.exact) nullCodec
    (onlyMessage (.directive released)) attachedLaunch
    attachedLaunch_created [.signal (quietMemory 1)]
    (fun e he => by rw [hall e he]; rfl)
    (fun e he => by rw [hall e he]; exact ⟨by decide, by decide⟩)
    (fun text h0 => by
      unfold onlyMessage
      rw [if_neg]
      rintro rfl
      exact absurd h0 (by decide))
    0 [.data [0, 0], .timeout, .data ([0, 4] ++ nullText)]
    (by unfold Open; decide) ⟨[], rfl⟩
    ⟨1000, .fin (1/2), "cpu", 10⟩ [pass 1, pass 2]).1

/-- In two chunks with timeouts around them, the directive is executed. -/
theorem engine_runs_all_written_chunked :
    ∃ n, ∀ envs : List MockEngine.Surroundings, n ≤ envs.length →
      (∀ env ∈ envs, Prompt ⟨1000, .fin (1/2), "cpu", 10⟩ env) →
      executed ((protocolOn ⟨1000, .fin (1/2), "cpu", 10⟩
          (onlyMessage (.directive released))).trace
        (.start ⟨1000, .fin (1/2), "cpu", 10⟩,
          [.timeout, .data [0, 0, 0], .data (4 :: nullText), .timeout]) envs)
        = [released] := by
  have hall : ∀ e ∈ attachedLaunch.emissions
      (LuaPolicy.strategy Bindings.exact) nullCodec [.signal (quietMemory 1)],
      e = ⟨⟨1, released⟩, .written 0⟩ := by
    rw [attachedLaunch_emissions]
    exact fun e he => List.mem_singleton.mp he
  exact engine_runs_all_written (LuaPolicy.strategy Bindings.exact) nullCodec
    (onlyMessage (.directive released)) attachedLaunch
    attachedLaunch_created [.signal (quietMemory 1)]
    (fun e he => by rw [hall e he]; rfl)
    (fun e he => by rw [hall e he]; decide)
    0 [.timeout, .data [0, 0, 0], .data (4 :: nullText), .timeout]
    (by unfold Open; decide) rfl
    ⟨none :: ((bigEndian.frame nullText).map some ++ [none]), [], rfl,
      .timeout (.frame (.timeout .nil))⟩
    ⟨1000, .fin (1/2), "cpu", 10⟩

end ArgusManager
