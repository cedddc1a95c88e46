/-
  ArgusManager.Main.Telemetry
  ───────────────────────────
  **From the engine to main.**

  `run_protocol` of the mock engine (`src/bin/mock_engine.rs`) writes
  heartbeats and responses to its socket; at the other end a reader thread
  puts them into the inbox from which main takes them.  The socket takes so
  many bytes, and fails every write from then on.

    • `engine_heard_in_order` — main is returned nothing but what the engine
                                wrote whole, each message once and in order,
                                in every interleaving and however much has
                                arrived,
    • `engine_heard_all`      — and, once everything has arrived, all of it:
                                neither a full inbox nor a cut frame strands a
                                message.
-/
import ArgusManager.Bin.MockEngine
import ArgusManager.Channel.Framing
import ArgusManager.Channel.Inbound

namespace ArgusManager

/-! ## §1. What the engine puts on its line. -/

namespace MockEngine

/-- The engine's end of its connection: what was put on it, and how many more
bytes it takes. -/
structure Line where
  bytes : List UInt8
  room : Option Nat

/-- `send_message`, and whether it succeeded. -/
def Line.send (encode : EngineMessage → List UInt8) (msg : EngineMessage)
    (l : Line) : Line × Bool :=
  let (taken, ok) := writeAll (sendMessage encode msg) l.room
  ({ bytes := l.bytes ++ taken
     room := l.room.map (· - taken.length) }, ok)

/-- The pass sends a heartbeat, or tries to. -/
def Loop.beats (args : Args) (env : Surroundings) (s : Loop) : Bool :=
  s.running && decide (env.testAt < args.durationSecs * 1000)
    && decide (env.checkAt - s.lastHeartbeat ≥ args.heartbeatMs)

/-- The heartbeat of a pass, on the line. -/
def Loop.sendBeat (args : Args) (encode : EngineMessage → List UInt8)
    (env : Surroundings) (s : Loop) (l : Line) : Line × Bool :=
  if s.beats args env then l.send encode (.heartbeat s.engine.status)
  else (l, env.beatWritten)

/-- The response of a pass, on the line. -/
def sendResponse (encode : EngineMessage → List UInt8) (env : Surroundings)
    (answered : Option (EngineDirective × CommandResponse)) (l : Line) :
    Line × Bool :=
  match answered with
  | some (_, response) => l.send encode (.response response)
  | none => (l, env.responseWritten)

/-- `run_protocol` on its socket: the line decides which writes succeed. -/
def protocolTo (args : Args) (encode : EngineMessage → List UInt8) :
    Mealy (Loop × Line) Surroundings Report where
  step := fun (s, l) env =>
    let (l, beatWritten) := s.sendBeat args encode env l
    let answered := (s.pass args { env with beatWritten }).2.answered
    let (l, responseWritten) := sendResponse encode env answered l
    let (s, report) := s.pass args { env with beatWritten, responseWritten }
    ((s, l), report)

abbrev LineStep := Mealy.Step (Loop × Line) Surroundings Report

/-- The messages written whole in these passes. -/
def sent (h : List LineStep) : List EngineMessage :=
  h.flatMap fun e => e.output.sent

/-- The messages a pass may write. -/
def attempts (e : LineStep) : List EngineMessage :=
  .heartbeat e.pre.1.engine.status
    :: e.output.answered.toList.map fun (_, response) => .response response

/-! ## §2. Whole frames, and at most one cut short. -/

/-- What a line has carried: these messages, and once it is full at most the
beginning of one more. -/
structure Carried (encode : EngineMessage → List UInt8)
    (msgs : List EngineMessage) (l : Line) : Prop where
  frames : ∃ tail, l.bytes = msgs.flatMap (sendMessage encode) ++ tail
    ∧ bigEndian.next tail = none
    ∧ (l.room ≠ some 0 → tail = [])

theorem sendMessage_eq (encode : EngineMessage → List UInt8)
    (msg : EngineMessage) :
    sendMessage encode msg = bigEndian.frame (encode msg) := rfl

theorem sendMessage_pos (encode : EngineMessage → List UInt8)
    (msg : EngineMessage) : 0 < (sendMessage encode msg).length := by
  rw [sendMessage_eq, bigEndian.frame_length]
  have := bigEndian.width_pos
  omega

/-- **One write** puts the whole message on the line, or fills the line. -/
theorem Carried.send {encode : EngineMessage → List UInt8}
    {msgs : List EngineMessage} {l : Line} (h : Carried encode msgs l)
    {msg : EngineMessage} (hlen : (encode msg).length < 2 ^ 32) :
    Carried encode (msgs ++ if (l.send encode msg).2 then [msg] else [])
      (l.send encode msg).1 := by
  obtain ⟨tail, hbytes, hcut, hfull⟩ := h.frames
  have hpos := sendMessage_pos encode msg
  unfold Line.send
  dsimp only
  by_cases hok : (writeAll (sendMessage encode msg) l.room).2 = true
  · -- a line that takes a whole frame was not full
    have htail : tail = [] := by
      refine hfull fun hroom => ?_
      rw [hroom] at hok
      unfold writeAll at hok
      dsimp only at hok
      rw [if_pos hpos] at hok
      exact absurd hok (by simp)
    subst htail
    rw [if_pos hok, writeAll_complete hok, hbytes]
    refine ⟨[], ?_, hcut, fun _ => rfl⟩
    rw [List.append_nil, List.append_nil, List.flatMap_append,
      List.flatMap_singleton]
  · obtain ⟨hpre, hne⟩ := SocketChannel.writeAll_cut (Bool.not_eq_true _ ▸ hok)
    rw [if_neg hok, List.append_nil]
    unfold writeAll at hok hpre hne ⊢
    cases hroom : l.room with
    | none =>
        rw [hroom] at hok
        exact absurd rfl hok
    | some n =>
        rw [hroom] at hok hpre hne
        dsimp only at hok hpre hne ⊢
        by_cases hn : n < (sendMessage encode msg).length
        · rw [if_pos hn] at hpre hne ⊢
          have hlen' : ((sendMessage encode msg).take n).length = n := by
            rw [List.length_take]
            omega
          dsimp only at hpre hne ⊢
          rw [Option.map_some, hlen', Nat.sub_self]
          refine ⟨tail ++ (sendMessage encode msg).take n, ?_, ?_,
            fun h0 => absurd rfl h0⟩
          · rw [hbytes, List.append_assoc]
          · -- a line that was full before takes nothing
            by_cases hzero : n = 0
            · rw [hzero, List.take_zero, List.append_nil]
              exact hcut
            · rw [hfull (by rw [hroom]; simpa using hzero), List.nil_append]
              exact bigEndian.next_of_cut hlen hpre hne
        · rw [if_neg hn] at hok
          exact absurd rfl hok

/-- What a pass writes whole: its heartbeat, then its response. -/
theorem pass_sent (args : Args) (env : Surroundings) (s : Loop) :
    (s.pass args env).2.sent
      = (if s.beats args env && env.beatWritten
          then [.heartbeat s.engine.status] else [])
        ++ (s.pass args env).2.answered.toList.flatMap
            fun (_, response) => env.answer response := by
  unfold Loop.pass Loop.beats
  by_cases hgo : (s.running && decide (env.testAt < args.durationSecs * 1000))
    = true
  · rw [if_pos hgo, hgo, Bool.true_and]
    have hrun : s.running = true := (Bool.and_eq_true_iff.mp hgo).1
    unfold Loop.beat
    by_cases hdue : env.checkAt - s.lastHeartbeat ≥ args.heartbeatMs
    · rw [if_pos hdue, decide_eq_true hdue, Bool.true_and]
      cases hbeat : env.beatWritten with
      | false => rfl
      | true =>
          dsimp only
          rw [if_pos rfl, if_pos hrun]
          unfold Loop.receive
          split <;> simp [Surroundings.answer, Engine.status]
    · rw [if_neg hdue, decide_eq_false hdue, Bool.false_and]
      dsimp only
      rw [if_pos hrun]
      unfold Loop.receive
      split <;> simp [Surroundings.answer]
  · rw [if_neg hgo, Bool.eq_false_of_not_eq_true hgo]
    rfl

/-- What a pass answers is settled before its response is written. -/
theorem pass_answered (args : Args) (env : Surroundings) (s : Loop)
    (responseWritten : Bool) :
    (s.pass args { env with responseWritten }).2.answered
      = (s.pass args env).2.answered := by
  unfold Loop.pass Loop.receive
  split
  · have hbeat : s.beat args { env with responseWritten } = s.beat args env :=
      rfl
    rw [hbeat]
    dsimp only
    split
    · split <;> rfl
    · rfl
  · rfl

/-- **A pass on the line** carries on what the line has carried. -/
theorem Carried.pass {args : Args} {encode : EngineMessage → List UInt8}
    {msgs : List EngineMessage} {s : Loop} {l : Line}
    (h : Carried encode msgs l) (env : Surroundings)
    (hlen : ∀ msg ∈ attempts ((protocolTo args encode).stepAt (s, l) env),
      (encode msg).length < 2 ^ 32) :
    Carried encode
      (msgs ++ ((protocolTo args encode).step (s, l) env).2.sent)
      ((protocolTo args encode).step (s, l) env).1.2 := by
  unfold attempts at hlen
  rw [Mealy.stepAt_output, Mealy.stepAt_pre] at hlen
  unfold protocolTo at hlen ⊢
  dsimp only at hlen ⊢
  have hbeat : Carried encode
      (msgs ++ if s.beats args env && (s.sendBeat args encode env l).2
        then [.heartbeat s.engine.status] else [])
      (s.sendBeat args encode env l).1 := by
    unfold Loop.sendBeat
    cases s.beats args env with
    | true => exact h.send (hlen _ List.mem_cons_self)
    | false =>
        show Carried encode (msgs ++ []) l
        rw [List.append_nil]
        exact h
  generalize s.sendBeat args encode env l = beaten at hbeat hlen ⊢
  obtain ⟨l₁, beatWritten⟩ := beaten
  dsimp only at hbeat hlen ⊢
  generalize hfound : (s.pass args { env with beatWritten }).2.answered = found
    at hlen ⊢
  have hsame := fun written =>
    (pass_answered args { env with beatWritten } s written).trans hfound
  rw [pass_sent, hsame]
  rw [hsame] at hlen
  cases found with
  | none =>
      show Carried encode (msgs ++ (_ ++ [])) l₁
      rw [List.append_nil]
      exact hbeat
  | some answer =>
      obtain ⟨d, response⟩ := answer
      have hsend := hbeat.send
        (hlen (.response response)
          (List.mem_cons_of_mem _ List.mem_cons_self))
      rw [List.append_assoc] at hsend
      show Carried encode (msgs ++ (_ ++ (_ ++ [])))
        (l₁.send encode (.response response)).1
      rw [List.append_nil]
      exact hsend

theorem sent_concat (h : List LineStep) (e : LineStep) :
    sent (h ++ [e]) = sent h ++ e.output.sent := by
  unfold sent
  rw [List.flatMap_append, List.flatMap_singleton]

/-- What a pass wrote is something it tried to write. -/
theorem mem_attempts {args : Args} {encode : EngineMessage → List UInt8}
    (s : Loop × Line) (env : Surroundings) {msg : EngineMessage}
    (h : msg ∈ ((protocolTo args encode).stepAt s env).output.sent) :
    msg ∈ attempts ((protocolTo args encode).stepAt s env) := by
  unfold attempts
  rw [Mealy.stepAt_output] at h ⊢
  rw [Mealy.stepAt_pre]
  unfold protocolTo at h ⊢
  dsimp only at h ⊢
  rw [pass_sent] at h
  rcases List.mem_append.mp h with h | h
  · -- the heartbeat
    split at h
    · rw [List.mem_singleton.mp h]
      exact List.mem_cons_self
    · exact absurd h List.not_mem_nil
  · obtain ⟨⟨d, response⟩, hanswer, hmsg⟩ := List.mem_flatMap.mp h
    refine List.mem_cons_of_mem _ (List.mem_map.mpr ⟨_, hanswer, ?_⟩)
    dsimp only at hmsg ⊢
    unfold Surroundings.answer at hmsg
    split at hmsg
    · exact (List.mem_singleton.mp hmsg).symm
    · exact absurd hmsg List.not_mem_nil

theorem sent_attempts {args : Args} {encode : EngineMessage → List UInt8}
    {s : Loop × Line} {envs : List Surroundings} {msg : EngineMessage}
    (h : msg ∈ sent ((protocolTo args encode).trace s envs)) :
    ∃ e ∈ (protocolTo args encode).trace s envs, msg ∈ attempts e := by
  obtain ⟨e, he, hmsg⟩ := List.mem_flatMap.mp h
  obtain ⟨h₁, t, htr⟩ := Mealy.mem_trace_split _ he
  obtain ⟨xs, env, ys, _, _, rfl⟩ := Mealy.trace_split _ htr
  exact ⟨_, he, mem_attempts _ env hmsg⟩

/-- **Over a whole run** the line carries what was written whole, and at most
one message cut short. -/
theorem protocolTo_carries (args : Args)
    (encode : EngineMessage → List UInt8) (room : Option Nat)
    (envs : List Surroundings)
    (hlen : ∀ e ∈ (protocolTo args encode).trace (.start args, ⟨[], room⟩) envs,
      ∀ msg ∈ attempts e, (encode msg).length < 2 ^ 32) :
    Carried encode
      (sent ((protocolTo args encode).trace (.start args, ⟨[], room⟩) envs))
      ((protocolTo args encode).exec (.start args, ⟨[], room⟩) envs).2 := by
  refine Mealy.Along.invariant (m := protocolTo args encode)
    (I := fun h s => Carried encode (sent h) s.2)
    (P := fun _ e => ∀ msg ∈ attempts e, (encode msg).length < 2 ^ 32)
    ?_ ?_ ?_
  · intro h₁ e t heq
    refine hlen e ?_
    rw [heq]
    exact List.mem_append_right h₁ List.mem_cons_self
  · exact ⟨[], rfl, bigEndian.next_nil, fun _ => rfl⟩
  · intro h s env hstep hcarried
    obtain ⟨s, l⟩ := s
    rw [sent_concat]
    exact hcarried.pass env hstep

end MockEngine

namespace Inbound

variable {kind : ChannelKind}

/-! ## §3. From one end to the other. -/

/-- What the wire brings back as a message is the message that was sent. -/
theorem acceptPayload_round {decode : Decode}
    {encode : EngineMessage → List UInt8} {msg : EngineMessage}
    (h : decode (encode msg) = some msg) (msg' : EngineMessage)
    (haccept : acceptPayload decode (encode msg) = some msg') :
    msg' = msg := by
  unfold acceptPayload at haccept
  split at haccept
  next => exact absurd haccept (by simp)
  next =>
    rw [h] at haccept
    exact (Option.some.inj haccept).symm

/-- What main was returned is a prefix of what the line carried. -/
theorem returned_prefix (decode : Decode) (events : List InboundEvent)
    (s : Stream) {encode : EngineMessage → List UInt8}
    {msgs : List EngineMessage} {l : MockEngine.Line}
    (hcarried : MockEngine.Carried encode msgs l)
    (hlen : ∀ msg ∈ msgs, (encode msg).length < 2 ^ 32)
    (hround : ∀ msg ∈ msgs, decode (encode msg) = some msg)
    (hgot : ((machine kind decode).trace new events).flatMap (arrived s)
      <+: l.bytes) :
    ((machine kind decode).trace new events).flatMap (returned s)
      <+: msgs := by
  have hok := ((@accounted_run kind decode events).2 s).2
  obtain ⟨tail, hbytes, hcut, _⟩ := hcarried.frames
  refine hok.inOrder.trans (hok.enqueued_prefix.trans ?_)
  rw [delivered_eq]
  refine bigEndian.readAll_of_sent hlen
    (fun msg hmsg => acceptPayload_round (hround msg hmsg)) hcut ?_
  rw [hbytes] at hgot
  exact hgot

/-! ## §4. Nothing is stranded. -/

/-- Two steps of the reader and a call of `try_recv`. -/
def round (s : Stream) : List InboundEvent :=
  [.reader s false, .reader s false, .tryRecv]

def rounds (s : Stream) (n : Nat) : List InboundEvent :=
  (List.replicate n (round s)).flatten

/-- The message in the reader's hands; one that has ended has read all. -/
inductive InHand : ReaderState → List EngineMessage → List (List UInt8) → Prop
  | reading (payloads : List (List UInt8)) : InHand .reading [] payloads
  | sending (msg : EngineMessage) (payloads : List (List UInt8)) :
      InHand (.sending msg) [msg] payloads
  | exited : InHand .exited [] []

/-- These messages are on their way to main: in the inbox, in the reader's
hands, and in the buffer. -/
structure Pending (decode : Decode) (s : Stream) (sys : Inbound kind)
    (todo : List EngineMessage) : Prop where
  attached : sys.channel.state = .connected s
  onTheWay : ∃ (held : List EngineMessage) (payloads : List (List UInt8))
      (tail : List UInt8),
    todo = (sys.link s).inbox
        ++ (held ++ payloads.filterMap (acceptPayload decode))
      ∧ (sys.link s).buffer = payloads.flatMap frame ++ tail
      ∧ bigEndian.next tail = none
      ∧ (∀ p ∈ payloads, (acceptPayload decode p).isSome)
      ∧ InHand (sys.link s).reader held payloads

/-- A message is in the inbox, or in the reader's hands. -/
def Near (l : Link) : Prop := l.inbox ≠ [] ∨ ∃ msg, l.reader = .sending msg

theorem setLink_link (sys : Inbound kind) (s : Stream) (l : Link) :
    (sys.setLink s l).link s = l := by
  unfold setLink
  dsimp only
  rw [Function.update_self]

theorem inbox_bound_pos : 0 < INBOX_BOUND := by
  unfold INBOX_BOUND
  omega

/-- **A step of the reader** keeps the messages on their way and brings the
next one nearer. -/
theorem Pending.reader {decode : Decode} {s : Stream} {sys : Inbound kind}
    {todo : List EngineMessage} (h : Pending decode s sys todo) :
    Pending decode s (sys.readerStep decode s false).1 todo
      ∧ (todo ≠ [] → Near ((sys.readerStep decode s false).1.link s))
      ∧ (Near (sys.link s) →
          ((sys.readerStep decode s false).1.link s).inbox ≠ []) := by
  have hheld := h.attached
  obtain ⟨held, payloads, tail, htodo, hbuffer, hcut, haccept, hhand⟩ :=
    h.onTheWay
  generalize hreader : (sys.link s).reader = reader at hhand
  unfold readerStep
  dsimp only
  rw [hreader]
  cases hhand with
  | reading =>
      dsimp only
      rw [if_neg Bool.false_ne_true]
      cases payloads with
      | nil =>
          -- no frame is complete: the reader waits, or gives up
          have hnone : ∀ msg rest,
              readEngineMessage decode (sys.link s).buffer
                ≠ .ok (msg, rest) := by
            intro msg rest hread
            obtain ⟨p, hnext, _⟩ := readEngineMessage_eq.mp hread
            rw [hbuffer] at hnext
            exact absurd (hcut.symm.trans hnext) (by simp)
          have hexit : Pending decode s
              (sys.setLink s { sys.link s with reader := .exited }) todo := by
            refine ⟨hheld, [], [], tail, ?_, ?_, hcut, haccept, ?_⟩
            · rw [setLink_link]
              exact htodo
            · rw [setLink_link]
              exact hbuffer
            · rw [setLink_link]
              exact .exited
          have hinbox : todo = (sys.link s).inbox := by
            rw [htodo]
            exact List.append_nil _
          have hnear : Near (sys.link s) → (sys.link s).inbox ≠ [] := by
            intro hn
            rcases hn with hn | ⟨msg, hmsg⟩
            · exact hn
            · rw [hreader] at hmsg
              exact absurd hmsg (by simp)
          split
          next msg rest hread => exact absurd hread (hnone msg rest)
          next =>
            split
            next =>
              refine ⟨hexit, fun hne => .inl ?_, fun hn => ?_⟩
              · rw [setLink_link]
                exact hinbox ▸ hne
              · rw [setLink_link]
                exact hnear hn
            next => exact ⟨h, fun hne => .inl (hinbox ▸ hne), hnear⟩
          next =>
            refine ⟨hexit, fun hne => .inl ?_, fun hn => ?_⟩
            · rw [setLink_link]
              exact hinbox ▸ hne
            · rw [setLink_link]
              exact hnear hn
      | cons p payloads =>
          obtain ⟨msg, hmsg⟩ :=
            Option.isSome_iff_exists.mp (haccept p List.mem_cons_self)
          rw [List.flatMap_cons, List.append_assoc] at hbuffer
          have hread : readEngineMessage decode (sys.link s).buffer
              = .ok (msg, payloads.flatMap frame ++ tail) := by
            refine readEngineMessage_eq.mpr ⟨p, ?_, hmsg⟩
            rw [hbuffer]
            exact bigEndian.next_frame
              (lt_limit_of_accept (haccept p List.mem_cons_self)) _
          rw [hread]
          dsimp only
          refine ⟨⟨hheld, [msg], payloads, tail, ?_, ?_, hcut,
            fun q hq => haccept q (List.mem_cons_of_mem _ hq), ?_⟩,
            fun _ => .inr ⟨msg, ?_⟩, fun hn => ?_⟩
          · rw [setLink_link, htodo, List.filterMap_cons_some hmsg]
            rfl
          · rw [setLink_link]
          · rw [setLink_link]
            exact .sending msg payloads
          · rw [setLink_link]
          · rw [setLink_link]
            rcases hn with hn | ⟨msg', hmsg'⟩
            · exact hn
            · rw [hreader] at hmsg'
              exact absurd hmsg' (by simp)
  | sending msg =>
      dsimp only
      rw [if_pos hheld]
      by_cases hroom : (sys.link s).inbox.length < INBOX_BOUND
      · rw [if_pos hroom]
        refine ⟨⟨hheld, [], payloads, tail, ?_, ?_, hcut, haccept, ?_⟩,
          fun _ => .inl ?_, fun _ => ?_⟩
        · rw [setLink_link, htodo, List.append_assoc]
          rfl
        · rw [setLink_link]
          exact hbuffer
        · rw [setLink_link]
          exact .reading payloads
        · rw [setLink_link]
          simp
        · rw [setLink_link]
          simp
      · -- the inbox is full
        rw [if_neg hroom]
        refine ⟨h, fun _ => .inr ⟨msg, hreader⟩, fun _ hnil => hroom ?_⟩
        change (sys.link s).inbox = [] at hnil
        rw [hnil]
        exact inbox_bound_pos
  | exited =>
      dsimp only
      have hinbox : todo = (sys.link s).inbox := by
        rw [htodo]
        exact List.append_nil _
      refine ⟨h, fun hne => .inl (hinbox ▸ hne), fun hn => ?_⟩
      rcases hn with hn | ⟨msg, hmsg⟩
      · exact hn
      · rw [hreader] at hmsg
        exact absurd hmsg (by simp)

/-- **A call of `try_recv`** takes the first of them. -/
theorem Pending.tryRecv {decode : Decode} {s : Stream} {sys : Inbound kind}
    {msg : EngineMessage} {todo : List EngineMessage}
    (h : Pending decode s sys (msg :: todo)) (hne : (sys.link s).inbox ≠ []) :
    Pending decode s sys.tryRecvStep.1 todo
      ∧ sys.tryRecvStep.2.message = [msg] := by
  have hheld := h.attached
  obtain ⟨held, payloads, tail, htodo, hbuffer, hcut, haccept, hhand⟩ :=
    h.onTheWay
  cases hinbox : (sys.link s).inbox with
  | nil => exact absurd hinbox hne
  | cons first rest =>
      rw [hinbox, List.cons_append] at htodo
      injection htodo with hmsg htodo
      subst hmsg
      unfold tryRecvStep
      rw [hheld]
      dsimp only
      have hpoll : poll (sys.link s) = .message msg := by
        unfold poll
        rw [hinbox]
      rw [hpoll]
      unfold SocketChannel.tryRecv
      rw [hheld]
      dsimp only
      refine ⟨⟨hheld, held, payloads, tail, ?_, ?_, hcut, haccept, ?_⟩, rfl⟩
      · rw [setLink_link, hinbox]
        exact htodo
      · rw [setLink_link]
        exact hbuffer
      · rw [setLink_link]
        exact hhand

theorem returned_reader (decode : Decode) (s : Stream) (sys : Inbound kind) :
    returned s ((machine kind decode).stepAt sys (.reader s false)) = [] := by
  unfold returned
  rw [Mealy.stepAt_output]
  show (if _ then (sys.readerStep decode s false).2.message else []) = []
  rw [(readerStep_main ..).2]
  exact ite_self _

theorem returned_tryRecv (decode : Decode) {s : Stream} {sys : Inbound kind}
    (h : sys.channel.state = .connected s) :
    returned s ((machine kind decode).stepAt sys .tryRecv)
      = sys.tryRecvStep.2.message := if_pos h

/-- **A round returns the next message.** -/
theorem Pending.round {decode : Decode} {s : Stream} {sys : Inbound kind}
    {msg : EngineMessage} {todo : List EngineMessage}
    (h : Pending decode s sys (msg :: todo)) :
    ((machine kind decode).trace sys (round s)).flatMap (returned s) = [msg]
      ∧ Pending decode s ((machine kind decode).exec sys (round s)) todo := by
  obtain ⟨hone, hnear, _⟩ := h.reader
  obtain ⟨htwo, _, hfull⟩ := hone.reader
  obtain ⟨hlast, hmsg⟩ := htwo.tryRecv (hfull (hnear (by simp)))
  refine ⟨?_, hlast⟩
  unfold Inbound.round
  rw [Mealy.trace_cons, Mealy.trace_cons, Mealy.trace_cons, Mealy.trace_nil,
    List.flatMap_cons, List.flatMap_cons, List.flatMap_singleton,
    returned_reader, List.nil_append]
  change returned s ((machine kind decode).stepAt
      (sys.readerStep decode s false).1 _)
    ++ returned s ((machine kind decode).stepAt
        ((sys.readerStep decode s false).1.readerStep decode s false).1 _) = _
  rw [returned_reader, returned_tryRecv decode htwo.attached, hmsg]
  rfl

theorem rounds_succ (s : Stream) (n : Nat) :
    rounds s (n + 1) = round s ++ rounds s n := by
  unfold rounds
  rw [List.replicate_succ, List.flatten_cons]

/-- As many rounds as there are messages return them all. -/
theorem Pending.rounds {decode : Decode} {s : Stream}
    {todo : List EngineMessage} :
    ∀ {sys : Inbound kind} {n : Nat}, Pending decode s sys todo →
      todo.length ≤ n →
      todo <+: ((machine kind decode).trace sys (rounds s n)).flatMap
        (returned s) := by
  induction todo with
  | nil => exact fun _ _ => List.nil_prefix
  | cons msg todo ih =>
      intro sys n h hn
      cases n with
      | zero => exact absurd hn (by simp)
      | succ n =>
          obtain ⟨hreturned, hrest⟩ := h.round
          rw [rounds_succ, Mealy.trace_append, List.flatMap_append, hreturned]
          refine (List.prefix_cons_inj msg).mpr (ih hrest ?_)
          rw [List.length_cons] at hn
          omega

/-- Rounds bring no bytes. -/
theorem arrived_rounds (decode : Decode) (s : Stream) (sys : Inbound kind)
    (n : Nat) :
    ((machine kind decode).trace sys (rounds s n)).flatMap (arrived s)
      = [] := by
  refine List.flatMap_eq_nil_iff.mpr fun e he => ?_
  have hin := Mealy.input_mem _ he
  unfold rounds at hin
  obtain ⟨r, hr, hin⟩ := List.mem_flatten.mp hin
  rw [List.eq_of_mem_replicate hr] at hin
  unfold arrived
  unfold round at hin
  simp only [List.mem_cons, List.not_mem_nil, or_false] at hin
  rcases hin with hin | hin | hin
  · rw [hin]
  · rw [hin]
  · rw [hin]

/-- An attached connection has its reader. -/
theorem attached_spawned (decode : Decode) (events : List InboundEvent)
    (s : Stream) :
    (((machine kind decode).exec new events).view s).1 = true →
      (((machine kind decode).exec new events).view s).2.reader
        ≠ .notSpawned := by
  refine Mealy.exec_of_steps (m := machine kind decode)
    (I := fun sys => (sys.view s).1 = true →
      (sys.view s).2.reader ≠ .notSpawned) (s := new) ?_ ?_ events
  · intro hheld
    rw [view_held] at hheld
    exact absurd hheld (by simp [new, SocketChannel.new])
  · intro sys ev hinv hheld
    have hlink := step_link decode sys ev s
    change (((sys.step decode ev).1).view s).1 = true at hheld
    show (((sys.step decode ev).1).view s).2.reader ≠ .notSpawned
    generalize sys.view s = v at hinv hlink
    generalize ((sys.step decode ev).1).view s = v' at hheld hlink ⊢
    generalize arrived s _ = b at hlink
    generalize enqueued s _ = e at hlink
    generalize returned s _ = r at hlink
    cases hlink with
    | stay => exact hinv hheld
    | leave => exact absurd hheld (by simp)
    | attach => simp
    | receive => exact hinv hheld
    | close => exact hinv hheld
    | read => simp
    | exit => simp
    | enqueue => simp
    | dequeue => exact hinv hheld

/-- **What has arrived and was not returned is on its way**, while the reader
of the connection is at work. -/
theorem pending_run (decode : Decode) (events : List InboundEvent)
    (s : Stream) {encode : EngineMessage → List UInt8}
    {msgs : List EngineMessage} {l : MockEngine.Line}
    (hcarried : MockEngine.Carried encode msgs l)
    (hcap : ∀ msg ∈ msgs, (encode msg).length ≤ MAX_PAYLOAD_SIZE)
    (hround : ∀ msg ∈ msgs, decode (encode msg) = some msg)
    (hgot : ((machine kind decode).trace new events).flatMap (arrived s)
      = l.bytes)
    (hheld : ((machine kind decode).exec new events).channel.state
      = .connected s)
    (hreader : (((machine kind decode).exec new events).link s).reader
      ≠ .exited) :
    ∃ todo, Pending decode s ((machine kind decode).exec new events) todo
      ∧ msgs = ((machine kind decode).trace new events).flatMap (returned s)
          ++ todo := by
  have hok := ((@accounted_run kind decode events).2 s).2
  have hspawned := attached_spawned decode events s (view_held.mpr hheld)
  have hqueued := hok.queued (view_held.mpr hheld)
  obtain ⟨payloads, held, hbytes, haccepted, henq, hholding⟩ := hok.read
  obtain ⟨tail, hline, hcut, _⟩ := hcarried.frames
  generalize (machine kind decode).exec new events = sys at *
  change _ = _ ++ (sys.link s).inbox at hqueued
  change _ = _ ++ (sys.link s).buffer at hbytes
  change Holding (sys.link s).reader held at hholding
  change (sys.link s).reader ≠ .notSpawned at hspawned
  have haccept : ∀ msg ∈ msgs,
      acceptPayload decode (encode msg) = some msg := by
    intro msg hmsg
    unfold acceptPayload
    rw [if_neg (Nat.not_lt.mpr (hcap msg hmsg)), hround msg hmsg]
  have hall : ∀ q ∈ msgs.map encode, (acceptPayload decode q).isSome := by
    intro q hq
    obtain ⟨msg, hmsg, rfl⟩ := List.mem_map.mp hq
    rw [haccept msg hmsg]
    rfl
  have hmsgs : (msgs.map encode).filterMap (acceptPayload decode) = msgs := by
    rw [List.filterMap_map]
    exact (List.filterMap_congr haccept).trans List.filterMap_some
  -- the reader's payloads are the first of the frames that were written
  have hframes : payloads.flatMap bigEndian.frame ++ (sys.link s).buffer
      = (msgs.map encode).flatMap bigEndian.frame ++ tail := by
    rw [List.flatMap_map]
    exact hbytes.symm.trans (hgot.trans hline)
  obtain ⟨rest, hsplit, hbuffer⟩ := bigEndian.resume
    (fun p hp => lt_limit_of_accept (haccepted p hp))
    (fun q hq => lt_limit_of_accept (hall q hq)) hcut hframes
  refine ⟨(sys.link s).inbox
      ++ (held ++ rest.filterMap (acceptPayload decode)),
    ⟨hheld, held, rest, tail, rfl, hbuffer, hcut, ?_, ?_⟩, ?_⟩
  · intro q hq
    refine hall q ?_
    rw [hsplit]
    exact List.mem_append_right _ hq
  · generalize (sys.link s).reader = reader at hreader hholding hspawned ⊢
    cases reader with
    | notSpawned => exact absurd rfl hspawned
    | reading =>
        have hnone : held = [] := hholding
        rw [hnone]
        exact .reading rest
    | sending msg =>
        have hone : held = [msg] := hholding
        rw [hone]
        exact .sending msg rest
    | exited => exact absurd rfl hreader
  · rw [← List.append_assoc, ← hqueued, ← List.append_assoc, henq,
      ← List.filterMap_append, ← hsplit, hmsgs]

end Inbound

/-! ## §5. The engine and main. -/

open MockEngine (protocolTo sent attempts)
open Inbound (machine arrived returned rounds)

variable {kind : ChannelKind}

/-- **Main hears nothing but what the engine wrote whole**, each message once
and in order: in every run of the engine, on a line that fails at any byte, and
in every interleaving of the readers and main, however much has arrived. -/
theorem engine_heard_in_order (args : MockEngine.Args)
    (encode : EngineMessage → List UInt8) (decode : Decode)
    (room : Option Nat) (envs : List MockEngine.Surroundings)
    (hlen : ∀ e ∈ (protocolTo args encode).trace (.start args, ⟨[], room⟩) envs,
      ∀ msg ∈ attempts e, (encode msg).length < 2 ^ 32)
    (hround : ∀ msg ∈ sent ((protocolTo args encode).trace
      (.start args, ⟨[], room⟩) envs), decode (encode msg) = some msg)
    (events : List InboundEvent) (s : Stream)
    (hgot : ((machine kind decode).trace .new events).flatMap (arrived s)
      <+: ((protocolTo args encode).exec
        (.start args, ⟨[], room⟩) envs).2.bytes) :
    ((machine kind decode).trace .new events).flatMap (returned s)
      <+: sent ((protocolTo args encode).trace
        (.start args, ⟨[], room⟩) envs) := by
  refine Inbound.returned_prefix decode events s
    (MockEngine.protocolTo_carries args encode room envs hlen) ?_ hround hgot
  intro msg hmsg
  obtain ⟨e, he, hattempt⟩ := MockEngine.sent_attempts hmsg
  exact hlen e he msg hattempt

/-- **And it hears all of it**: once everything the engine put on its line has
arrived, as many rounds of the reader and main as there are messages return
every one the engine wrote whole, whatever the inbox held and whether or not a
frame cut short follows. -/
theorem engine_heard_all (args : MockEngine.Args)
    (encode : EngineMessage → List UInt8) (decode : Decode)
    (room : Option Nat) (envs : List MockEngine.Surroundings)
    (hlen : ∀ e ∈ (protocolTo args encode).trace (.start args, ⟨[], room⟩) envs,
      ∀ msg ∈ attempts e, (encode msg).length < 2 ^ 32)
    (hround : ∀ msg ∈ sent ((protocolTo args encode).trace
      (.start args, ⟨[], room⟩) envs), decode (encode msg) = some msg)
    (hcap : ∀ msg ∈ sent ((protocolTo args encode).trace
      (.start args, ⟨[], room⟩) envs),
      (encode msg).length ≤ MAX_PAYLOAD_SIZE)
    (events : List InboundEvent) (s : Stream)
    (hgot : ((machine kind decode).trace .new events).flatMap (arrived s)
      = ((protocolTo args encode).exec
        (.start args, ⟨[], room⟩) envs).2.bytes)
    (hheld : ((machine kind decode).exec .new events).channel.state
      = .connected s)
    (hreader : (((machine kind decode).exec .new events).link s).reader
      ≠ .exited)
    (n : Nat) (hn : (sent ((protocolTo args encode).trace
      (.start args, ⟨[], room⟩) envs)).length ≤ n) :
    ((machine kind decode).trace .new (events ++ rounds s n)).flatMap
        (returned s)
      = sent ((protocolTo args encode).trace
        (.start args, ⟨[], room⟩) envs) := by
  have hcarried := MockEngine.protocolTo_carries args encode room envs hlen
  obtain ⟨todo, hpending, hmsgs⟩ := Inbound.pending_run decode events s
    hcarried hcap hround hgot hheld hreader
  have htodo : todo.length ≤ n := by
    have hall := congrArg List.length hmsgs
    rw [List.length_append] at hall
    omega
  -- no more than the engine wrote, and no less
  have hmost : ((machine kind decode).trace .new
      (events ++ rounds s n)).flatMap (returned s)
      <+: sent ((protocolTo args encode).trace
        (.start args, ⟨[], room⟩) envs) := by
    refine Inbound.returned_prefix decode _ s hcarried ?_ hround ?_
    · intro msg hmsg
      obtain ⟨e, he, hattempt⟩ := MockEngine.sent_attempts hmsg
      exact hlen e he msg hattempt
    · rw [Mealy.trace_append, List.flatMap_append, Inbound.arrived_rounds,
        List.append_nil, hgot]
  have hleast : sent ((protocolTo args encode).trace
      (.start args, ⟨[], room⟩) envs)
      <+: ((machine kind decode).trace .new
        (events ++ rounds s n)).flatMap (returned s) := by
    rw [hmsgs, Mealy.trace_append, List.flatMap_append]
    exact (List.prefix_append_right_inj _).mpr (hpending.rounds htodo)
  exact hmost.eq_of_length_le hleast.length_le

/-! ## §6. A heartbeat, a response, and a heartbeat cut short. -/

/-- Two passes: the first reads a directive, the line fails in the second. -/
def twoPasses : List MockEngine.Surroundings :=
  [{ testAt := 100, checkAt := 100, beatAt := 100, beatWritten := true,
     responseWritten := true,
     received := .ok (some (.directive ⟨1, [.suspend]⟩)) },
   { testAt := 200, checkAt := 200, beatAt := 200, beatWritten := true,
     responseWritten := true, received := .ok none }]

def sampleArgs : MockEngine.Args := ⟨100, .fin (1 / 2), "cpu", 30⟩

def sampleBeat : EngineMessage :=
  .heartbeat (MockEngine.Engine.new (.fin (1 / 2)) "cpu").status

def sampleAck : EngineMessage := .response ⟨1, [.ok]⟩

def sampleEncode : EngineMessage → List UInt8
  | .heartbeat _ => [1]
  | .response _ => [2]

def sampleDecode : Decode
  | [1] => some sampleBeat
  | [2] => some sampleAck
  | _ => none

/-- The run of the engine, on a line that takes two frames and a half. -/
abbrev sampleRun : List MockEngine.LineStep :=
  (protocolTo sampleArgs sampleEncode).trace (.start sampleArgs, ⟨[], some 12⟩)
    twoPasses

theorem sampleRun_sent : sent sampleRun = [sampleBeat, sampleAck] := rfl

theorem sampleRun_short (e : MockEngine.LineStep) (msg : EngineMessage) :
    msg ∈ attempts e → (sampleEncode msg).length < 2 ^ 32 := by
  intro _
  cases msg with
  | heartbeat status =>
      show 1 < 2 ^ 32
      norm_num
  | response response =>
      show 1 < 2 ^ 32
      norm_num

theorem sampleRun_round (msg : EngineMessage) (h : msg ∈ sent sampleRun) :
    sampleDecode (sampleEncode msg) = some msg
      ∧ (sampleEncode msg).length ≤ MAX_PAYLOAD_SIZE := by
  rw [sampleRun_sent] at h
  simp only [List.mem_cons, List.not_mem_nil, or_false] at h
  rcases h with rfl | rfl
  · exact ⟨rfl, by decide⟩
  · exact ⟨rfl, by decide⟩

/-- The client connects, and the line's bytes arrive in two chunks. -/
def sampleEvents : List InboundEvent :=
  [.waitForClient [⟨1, false, ⟨false, false⟩, false⟩],
   .receive 0 [0, 0, 0, 1, 1, 0], .reader 0 false,
   .receive 0 [0, 0, 1, 2, 0, 0]]

theorem engine_heard_in_order_partly :
    ((machine .unix sampleDecode).trace .new
        (sampleEvents.take 3 ++ [.reader 0 false, .tryRecv])).flatMap
        (returned 0)
      <+: [sampleBeat, sampleAck] :=
  engine_heard_in_order sampleArgs sampleEncode sampleDecode (some 12) twoPasses
    (fun e _ => sampleRun_short e) (fun msg h => (sampleRun_round msg h).1)
    (sampleEvents.take 3 ++ [.reader 0 false, .tryRecv]) 0
    ⟨[0, 0, 1, 2, 0, 0], rfl⟩

theorem engine_heard_all_but_cut :
    ((machine .unix sampleDecode).trace .new
        (sampleEvents ++ rounds 0 2)).flatMap (returned 0)
      = [sampleBeat, sampleAck] :=
  engine_heard_all sampleArgs sampleEncode sampleDecode (some 12) twoPasses
    (fun e _ => sampleRun_short e) (fun msg h => (sampleRun_round msg h).1)
    (fun msg h => (sampleRun_round msg h).2) sampleEvents 0 rfl rfl
    (by
      show ReaderState.sending sampleBeat ≠ .exited
      simp)
    2 (le_refl 2)

end ArgusManager
