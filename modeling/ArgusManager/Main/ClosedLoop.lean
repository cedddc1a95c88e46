/-
  ArgusManager.Main.ClosedLoop
  ────────────────────────────
  **The manager and its engines, as one system.**

  At one end of every connection the manager (`src/main.rs`): main with its
  policy, deduplicator and channel, and the reader threads.  At the other a
  mock engine (`src/bin/mock_engine.rs`).  In between the bytes in flight.  A
  `Turn` is one step of one party, or bytes that arrive: any number of them,
  at any time, so a frame may be cut anywhere and a read time out in it.  Every
  list of turns is a run.

    • `PeerSound`  — what an engine has executed, answered and written,
                     against what was written to it,
    • `Sound`      — the invariant: every peer is sound, and main's side is a
                     run of its channel and of its readers,
    • `closed_loop_in_order` — in every state of every run each engine has
                     executed a subsequence of what main wrote to it, and main
                     has heard a prefix of what the engine wrote, whose answers
                     are those to the directives executed, in order.
-/
import ArgusManager.Bin.MockPair
import ArgusManager.Main.EndToEnd
import ArgusManager.Main.Telemetry

namespace ArgusManager

open MockEngine (protocolOn protocolTo Carried)
open MockPeer (tokens bytes Open)

variable {σ ω : Type} {kind : ChannelKind}

/-! ## §1. The parties. -/

/-- An engine at the far end of a connection. -/
structure Peer where
  loop : MockEngine.Loop
  /-- What has arrived from main and was not read. -/
  arrived : List Arrival
  /-- How many bytes of the wire have arrived. -/
  taken : Nat
  line : MockEngine.Line
  /-- How many bytes of the line have arrived at main. -/
  given : Nat

namespace Peer

def start (args : MockEngine.Args) (room : Option Nat) : Peer where
  loop := .start args
  arrived := []
  taken := 0
  line := ⟨[], room⟩
  given := 0

/-- What `recv_message` finds; `fails` is an error of the read it is in, or the
end of the stream. -/
def recv (decode : List UInt8 → Option ManagerMessage) (fails : Bool)
    (p : Peer) : List Arrival × Except String (Option ManagerMessage) :=
  if fails then (p.arrived, .error "read length prefix")
  else MockEngine.recvMessage decode p.arrived

/-- One pass of `run_protocol`: it reads from what has arrived and writes to
the line. -/
def pass (args : MockEngine.Args) (encode : EngineMessage → List UInt8)
    (decode : List UInt8 → Option ManagerMessage) (fails : Bool)
    (env : MockEngine.Surroundings) (p : Peer) : Peer × MockEngine.Report :=
  let (rest, received) := p.recv decode fails
  let ((loop, line), report) :=
    (protocolTo args encode).step (p.loop, p.line) { env with received }
  -- a pass that leaves the loop before does not read
  let beatWritten := (p.loop.sendBeat args encode env p.line).2
  let arrived :=
    if p.loop.reads args { env with beatWritten } then rest else p.arrived
  ({ p with loop, arrived, line }, report)

/-- At most `n` more bytes of the wire arrive, in one chunk. -/
def receive (n : Nat) (wire : List UInt8) (p : Peer) : Peer :=
  match (wire.drop p.taken).take n with
  | [] => p
  | b :: bs =>
      { p with
        arrived := p.arrived ++ [.data (b :: bs)]
        taken := p.taken + (b :: bs).length }

theorem receive_line (n : Nat) (wire : List UInt8) (p : Peer) :
    (p.receive n wire).line = p.line ∧ (p.receive n wire).given = p.given := by
  unfold receive
  split
  next => exact ⟨rfl, rfl⟩
  next => exact ⟨rfl, rfl⟩

/-- The next bytes of the line, at most `n`. -/
def chunk (n : Nat) (p : Peer) : List UInt8 :=
  (p.line.bytes.drop p.given).take n

end Peer

/-- Everything fixed: the programs at both ends and their JSON. -/
structure Wiring (σ ω : Type) where
  policy : PolicyStrategy σ ω
  start : ℚ
  /-- How main writes, and an engine reads. -/
  codec : Codec
  decode : List UInt8 → Option ManagerMessage
  /-- How an engine writes, and a reader thread reads. -/
  encode : EngineMessage → List UInt8
  decodeEngine : Decode
  args : Stream → MockEngine.Args
  /-- How many bytes of an engine a connection takes. -/
  room : Stream → Option Nat

structure ClosedLoop (σ ω : Type) (kind : ChannelKind) where
  /-- The initial signals that main has yet to process. -/
  initial : List (SignalCall ω)
  main : Manager σ kind
  link : Stream → Link
  peer : Stream → Peer

namespace ClosedLoop

inductive Turn (ω : Type) where
  /-- Main's next step: an initial signal if there is one left, or this event
  of its loop; a `try_recv` finds what is in the inbox. -/
  | main (e : LoopEvent ω)
  /-- A reader's next step; `fails` is an error of the read it is in. -/
  | reader (s : Stream) (fails : Bool)
  /-- An engine's next pass. -/
  | engine (s : Stream) (fails : Bool) (env : MockEngine.Surroundings)
  /-- Bytes arrive. -/
  | toEngine (s : Stream) (n : Nat)
  | toMain (s : Stream) (n : Nat)
  /-- An engine that has left its loop closes its end. -/
  | hangup (s : Stream)

inductive Output where
  | main (emitted : Option Emission) (heard : Option EngineMessage)
  | engine (s : Stream) (report : MockEngine.Report)
  | moved

/-- Main's channel and the readers. -/
def inbound (c : ClosedLoop σ ω kind) : Inbound kind where
  channel := c.main.transport
  link := c.link

def inboxPoll (c : ClosedLoop σ ω kind) : InboxPoll :=
  match c.main.transport.state with
  | .connected s => Inbound.poll (c.link s)
  | _ => .empty

def resolve (c : ClosedLoop σ ω kind) : LoopEvent ω → LoopEvent ω
  | .tryRecv _ => .tryRecv c.inboxPoll
  | e => e

/-- What an emit does to the channel, as its readers see it; nothing of theirs
that falls between its halves concerns main. -/
def emits (codec : Codec) (io : EmitIo) :
    Option Emission → List InboundEvent
  | none => []
  | some e => [.connect io.attach, .write (codec.text e.directive) io.takes]

def loopMoves (codec : Codec) (out : LoopOutput) :
    LoopEvent ω → List InboundEvent
  | .sighup _ => []
  | .connect => [.arrive]
  | .tryRecv _ => [.tryRecv]
  | .signal call => emits codec call.io out.emitted

/-- The message that main was returned. -/
def heard? : LoopOutput → Option EngineMessage
  | .received msg => msg
  | _ => none

variable (w : Wiring σ ω)

/-- The links after these steps of main's channel. -/
def linksAfter (c : ClosedLoop σ ω kind) (moves : List InboundEvent) :
    Stream → Link :=
  ((Inbound.machine kind w.decodeEngine).exec c.inbound moves).link

def mainStep (e : LoopEvent ω) (c : ClosedLoop σ ω kind) :
    ClosedLoop σ ω kind × Output :=
  match c.initial with
  | call :: rest =>
      let ((policy, transport), outcome) :=
        startupStep w.policy w.codec (c.main.policy, c.main.transport) call
      ({ c with
          initial := rest
          main := { c.main with policy, transport }
          link := c.linksAfter w (emits w.codec call.io outcome.emitted) },
        .main outcome.emitted none)
  | [] =>
      let (main, out) :=
        loopStep w.policy w.codec w.start c.main (c.resolve e)
      ({ c with
          main
          link := c.linksAfter w (loopMoves w.codec out e) },
        .main out.emitted (heard? out))

def step (c : ClosedLoop σ ω kind) : Turn ω → ClosedLoop σ ω kind × Output
  | .main e => c.mainStep w e
  | .reader s fails =>
      ({ c with link := (c.inbound.readerStep w.decodeEngine s fails).1.link },
        .moved)
  | .engine s fails env =>
      let (p, report) :=
        (c.peer s).pass (w.args s) w.encode w.decode fails env
      ({ c with peer := Function.update c.peer s p }, .engine s report)
  | .toEngine s n =>
      ({ c with
          peer := Function.update c.peer s
            ((c.peer s).receive n (c.main.transport.wire s)) }, .moved)
  | .toMain s n =>
      let p := c.peer s
      let l := c.link s
      ({ c with
          link := Function.update c.link s
            { l with buffer := l.buffer ++ p.chunk n }
          peer := Function.update c.peer s
            { p with given := p.given + (p.chunk n).length } }, .moved)
  | .hangup s =>
      if (c.peer s).loop.running then (c, .moved)
      else
        ({ c with
            link := Function.update c.link s { c.link s with eof := true } },
          .moved)

def machine : Mealy (ClosedLoop σ ω kind) (Turn ω) Output := ⟨step w⟩

/-- The manager after `create_transport`, and an engine for every
connection. -/
def start (l : Launch σ ω kind) : ClosedLoop σ ω kind where
  initial := l.initial
  main :=
    { policy := l.policy
      dedup := .withCooldown l.cooldownSecs
      transport := l.transport }
  link := ((Inbound.new : Inbound kind).adopt l.transport).link
  peer := fun s => .start (w.args s) (w.room s)

/-! ## §2. What a run said. -/

abbrev Step (σ ω : Type) (kind : ChannelKind) :=
  Mealy.Step (ClosedLoop σ ω kind) (Turn ω) Output

def Output.emitted : Output → Option Emission
  | .main emitted _ => emitted
  | _ => none

def Output.heard : Output → Option EngineMessage
  | .main _ heard => heard
  | _ => none

/-- What the engine of `s` reports in a step. -/
def Output.reportOf (s : Stream) : Output → Option MockEngine.Report
  | .engine t report => if t = s then some report else none
  | _ => none

def emissions (h : List (Step σ ω kind)) : List Emission :=
  Mealy.said Output.emitted h

/-- The directives written to `s`. -/
def writtenTo (s : Stream) (h : List (Step σ ω kind)) :
    List EngineDirective :=
  withReport (.written s) (emissions h)

def reports (s : Stream) (h : List (Step σ ω kind)) :
    List MockEngine.Report :=
  Mealy.said (Output.reportOf s) h

/-- The directives the engine of `s` executed. -/
def executedBy (s : Stream) (h : List (Step σ ω kind)) :
    List EngineDirective :=
  (reports s h).filterMap MockEngine.Report.directive

/-- The messages it wrote whole. -/
def sentBy (s : Stream) (h : List (Step σ ω kind)) : List EngineMessage :=
  (reports s h).flatMap MockEngine.Report.sent

/-- What main was returned while `s` was attached. -/
def heardFrom (s : Stream) (h : List (Step σ ω kind)) : List EngineMessage :=
  h.flatMap fun e =>
    if e.pre.main.transport.state = .connected s then e.output.heard.toList
    else []

end ClosedLoop

/-! ## §3. A peer. -/

open MockManager (response?)
open MockPair (engine₀)

/-- The answers of an engine that executes these directives one after the
other. -/
def answersTo (e : MockEngine.Engine) :
    List EngineDirective → List CommandResponse
  | [] => []
  | d :: ds =>
      (MockEngine.handleDirective d e).2
        :: answersTo (MockEngine.handleDirective d e).1 ds

theorem answersTo_concat (e : MockEngine.Engine) (ds : List EngineDirective)
    (d : EngineDirective) :
    answersTo e (ds ++ [d])
      = answersTo e ds
        ++ [⟨d.seqId, ((e.applyAll (ds.flatMap EngineDirective.commands)).1
            |>.applyAll d.commands).2⟩] := by
  induction ds generalizing e with
  | nil => rfl
  | cons first ds ih =>
      show _ :: answersTo (e.applyAll first.commands).1 (ds ++ [d]) = _
      rw [ih, List.flatMap_cons, MockEngine.Engine.applyAll_append]
      rfl

/-- An engine that still reads has executed a part of what it has read of the
wire. -/
def InStep (codec : Codec) (written executed : List EngineDirective)
    (wire : List UInt8) (p : Peer) : Prop :=
  p.loop.running = true → ∃ consumed,
    wire.take p.taken = consumed ++ bytes p.arrived
      ∧ bigEndian.Received codec.message
        (written.map ManagerMessage.directive) consumed
        (executed.map ManagerMessage.directive)

/-- **An engine and its connection**: what was written to it, what it has
executed and what it has written. -/
structure PeerSound (args : MockEngine.Args)
    (encode : EngineMessage → List UInt8) (codec : Codec)
    (written executed : List EngineDirective) (sent : List EngineMessage)
    (wire : List UInt8) (p : Peer) : Prop where
  opened : Open p.arrived
  given : p.given ≤ p.line.bytes.length
  taken : p.taken ≤ wire.length
  line : Carried encode sent p.line
  engine : p.loop.engine.untimed = ((engine₀ args).applyAll
    (executed.flatMap EngineDirective.commands)).1.untimed
  answers : (sent.filterMap response?).Sublist
    (answersTo (engine₀ args) executed)
  inOrder : executed.Sublist written
  reads : InStep codec written executed wire p

section Peers

variable {args : MockEngine.Args} {encode : EngineMessage → List UInt8}
  {codec : Codec} {written executed : List EngineDirective}
  {sent : List EngineMessage} {wire : List UInt8} {p : Peer}

theorem peerSound_start (args : MockEngine.Args)
    (encode : EngineMessage → List UInt8) (codec : Codec)
    (room : Option Nat) (wire : List UInt8) :
    PeerSound args encode codec [] [] [] wire (.start args room) where
  opened := List.not_mem_nil
  given := Nat.le_refl 0
  taken := Nat.zero_le _
  line := ⟨[], rfl, bigEndian.next_nil, fun _ => rfl⟩
  engine := rfl
  answers := List.Sublist.refl _
  inOrder := List.Sublist.refl _
  reads := fun _ => ⟨[], rfl, bigEndian.received_nil _⟩

/-- Main may write more. -/
theorem PeerSound.grow
    (h : PeerSound args encode codec written executed sent wire p)
    {wire' : List UInt8} (hwire : wire <+: wire')
    (more : List EngineDirective) :
    PeerSound args encode codec (written ++ more) executed sent wire' p where
  opened := h.opened
  given := h.given
  taken := h.taken.trans hwire.length_le
  line := h.line
  engine := h.engine
  answers := h.answers
  inOrder := h.inOrder.trans (List.sublist_append_left _ _)
  reads := fun hrun => by
    obtain ⟨consumed, hsplit, hreceived⟩ := h.reads hrun
    refine ⟨consumed, ?_, ?_⟩
    · obtain ⟨rest, rfl⟩ := hwire
      rw [List.take_append_of_le_length h.taken]
      exact hsplit
    · rw [List.map_append]
      exact hreceived.more _ _

theorem tokens_concat (a : List Arrival) (chunk : List UInt8) :
    tokens (a ++ [.data chunk]) = tokens a ++ chunk.map some := by
  unfold tokens
  rw [List.flatMap_append, List.flatMap_singleton]

theorem bytes_concat (a : List Arrival) (chunk : List UInt8) :
    bytes (a ++ [.data chunk]) = bytes a ++ chunk := by
  unfold bytes
  rw [tokens_concat, List.reduceOption_append]
  congr 1
  simp [List.reduceOption]

/-- Bytes may arrive. -/
theorem PeerSound.receive
    (h : PeerSound args encode codec written executed sent wire p) (n : Nat) :
    PeerSound args encode codec written executed sent wire
      (p.receive n wire) := by
  unfold Peer.receive
  split
  next => exact h
  next b bs hchunk =>
    have hlen := congrArg List.length hchunk
    rw [List.length_take, List.length_drop] at hlen
    refine { h with opened := ?_, taken := ?_, reads := fun hrun => ?_ }
    · intro hmem
      rcases List.mem_append.mp hmem with hmem | hmem
      · exact h.opened hmem
      · exact absurd (List.mem_singleton.mp hmem) (by simp)
    · have htaken := h.taken
      dsimp only
      omega
    · obtain ⟨consumed, hsplit, hreceived⟩ := h.reads hrun
      refine ⟨consumed, ?_, hreceived⟩
      dsimp only
      rw [bytes_concat, ← List.append_assoc, ← hsplit, List.take_add]
      have hpre : b :: bs <+: wire.drop p.taken :=
        hchunk ▸ List.take_prefix n _
      exact congrArg _ (List.prefix_iff_eq_take.mp hpre).symm

/-- Main's reader may get more of the line. -/
theorem PeerSound.give
    (h : PeerSound args encode codec written executed sent wire p) (n : Nat) :
    PeerSound args encode codec written executed sent wire
      { p with given := p.given + (p.chunk n).length } := by
  refine { h with given := ?_ }
  have hgiven := h.given
  unfold Peer.chunk
  dsimp only
  rw [List.length_take, List.length_drop]
  omega

variable {decode : List UInt8 → Option ManagerMessage} {fails : Bool}
  {env : MockEngine.Surroundings} {p' : Peer} {report : MockEngine.Report}

/-- A pass on the line is a pass of `protocolTo`. -/
theorem pass_protocolTo
    (hpass : p.pass args encode decode fails env = (p', report)) :
    (protocolTo args encode).step (p.loop, p.line)
        { env with received := (p.recv decode fails).2 }
      = ((p'.loop, p'.line), report) := by
  obtain ⟨rfl, rfl⟩ := Prod.ext_iff.mp hpass
  rfl

/-- A pass of `protocolOn` on what has arrived, if no read fails. -/
theorem pass_protocolOn
    (hpass : p.pass args encode decode false env = (p', report)) :
    ∃ env', (protocolOn args decode).step (p.loop, p.arrived) env'
      = ((p'.loop, p'.arrived), report) := by
  obtain ⟨rfl, rfl⟩ := Prod.ext_iff.mp hpass
  let received := (MockEngine.recvMessage decode p.arrived).2
  let sent := p.loop.sendBeat args encode env p.line
  let answered :=
    (p.loop.pass args { env with received, beatWritten := sent.2 }).2.answered
  let responseWritten := (MockEngine.sendResponse encode env answered sent.1).2
  exact ⟨{ env with beatWritten := sent.2, responseWritten }, rfl⟩

/-- And a pass of the loop. -/
theorem pass_loop
    (hpass : p.pass args encode decode fails env = (p', report)) :
    ∃ env', env'.received = (p.recv decode fails).2
      ∧ p.loop.pass args env' = (p'.loop, report) := by
  obtain ⟨rfl, rfl⟩ := Prod.ext_iff.mp hpass
  exact ⟨_, rfl, rfl⟩

/-- A read that fails ends the loop. -/
theorem pass_fails
    (hpass : p.pass args encode decode true env = (p', report)) :
    p'.loop.running = false ∧ report.answered = none := by
  obtain ⟨env', hreceived, hloop⟩ := pass_loop hpass
  have herror : (p.loop.pass args env').1.running = false
      ∧ (p.loop.pass args env').2.answered = none := by
    cases hreads : p.loop.reads args env' with
    | false => exact MockEngine.pass_unread args env' p.loop hreads
    | true =>
        obtain ⟨hstate, hanswered⟩ :=
          MockEngine.pass_read args env' p.loop hreads
        rw [hstate, hanswered]
        unfold MockEngine.Loop.receive
        rw [hreceived]
        exact ⟨rfl, rfl⟩
  rw [hloop] at herror
  exact herror

/-- A loop that was left stays left. -/
theorem pass_running
    (hpass : p.pass args encode decode fails env = (p', report))
    (h : p'.loop.running = true) : p.loop.running = true := by
  by_contra hstopped
  obtain ⟨env', _, hloop⟩ := pass_loop hpass
  have hunread : p.loop.reads args env' = false := by
    unfold MockEngine.Loop.reads
    rw [Bool.eq_false_of_not_eq_true hstopped]
    rfl
  have hstop := (MockEngine.pass_unread args env' p.loop hunread).1
  rw [hloop] at hstop
  exact absurd (hstop.symm.trans h) Bool.false_ne_true

/-- The messages a pass may write. -/
def Peer.attempts (p : Peer) (report : MockEngine.Report) :
    List EngineMessage :=
  .heartbeat p.loop.engine.status
    :: report.answered.toList.map fun (_, response) => .response response

/-- A line never loses what it carries. -/
theorem pass_line
    (hpass : p.pass args encode decode fails env = (p', report)) :
    p.line.bytes <+: p'.line.bytes := by
  obtain ⟨rfl, rfl⟩ := Prod.ext_iff.mp hpass
  have hsend : ∀ (msg : EngineMessage) (l : MockEngine.Line),
      l.bytes <+: (l.send encode msg).1.bytes :=
    fun _ _ => List.prefix_append _ _
  unfold Peer.pass protocolTo
  dsimp only
  have hbeat : p.line.bytes
      <+: (p.loop.sendBeat args encode env p.line).1.bytes := by
    unfold MockEngine.Loop.sendBeat
    split
    next => exact hsend _ _
    next => exact List.prefix_rfl
  refine hbeat.trans ?_
  unfold MockEngine.sendResponse
  split
  next => exact hsend _ _
  next => exact List.prefix_rfl

/-- What has arrived, and what a pass does not touch. -/
theorem pass_frame
    (hpass : p.pass args encode decode fails env = (p', report))
    (h : Open p.arrived) :
    Open p'.arrived ∧ p'.taken = p.taken ∧ p'.given = p.given := by
  obtain ⟨rfl, rfl⟩ := Prod.ext_iff.mp hpass
  refine ⟨?_, rfl, rfl⟩
  unfold Peer.pass Peer.recv
  dsimp only
  split
  next =>
    cases fails with
    | true => exact h
    | false =>
        exact (MockPeer.recvMessage_refines "ManagerMessage" decode _ h).1
  next => exact h

/-- **What a pass does to an engine**: it executes the directive it reads, if
it reads one, and answers it. -/
theorem PeerSound.serve
    (h : PeerSound args encode codec written executed sent wire p)
    (hpass : p.pass args encode decode fails env = (p', report)) :
    p'.loop.engine.untimed = ((engine₀ args).applyAll
        ((executed ++ report.directive.toList).flatMap
          EngineDirective.commands)).1.untimed
      ∧ ((sent ++ report.sent).filterMap response?).Sublist
        (answersTo (engine₀ args) (executed ++ report.directive.toList)) := by
  obtain ⟨env', _, hloop⟩ := pass_loop hpass
  have hspec := MockEngine.pass_spec args env' p.loop
  rw [hloop] at hspec
  dsimp only at hspec
  generalize p'.loop = loop at hspec ⊢
  rw [List.filterMap_append]
  cases hspec with
  | quiet statuses hengine =>
      show _ = ((engine₀ args).applyAll
          ((executed ++ []).flatMap EngineDirective.commands)).1.untimed
        ∧ List.Sublist (_ ++ (statuses.map EngineMessage.heartbeat).filterMap
          response?) (answersTo (engine₀ args) (executed ++ []))
      rw [MockPair.filterMap_heartbeats, List.append_nil, List.append_nil]
      exact ⟨hengine.trans h.engine, h.answers⟩
  | @answered d _ statuses e he hread hengine =>
      show _ = ((engine₀ args).applyAll
          ((executed ++ [d]).flatMap EngineDirective.commands)).1.untimed
        ∧ List.Sublist (_ ++ (statuses.map EngineMessage.heartbeat
            ++ env'.answer _).filterMap response?)
          (answersTo (engine₀ args) (executed ++ [d]))
      -- the heartbeat counted a token, which no command looks at
      have hsame : ((e.applyAll d.commands).1.untimed,
            (e.applyAll d.commands).2)
          = ((((engine₀ args).applyAll
                (executed.flatMap EngineDirective.commands)).1.applyAll
                  d.commands).1.untimed,
              (((engine₀ args).applyAll
                (executed.flatMap EngineDirective.commands)).1.applyAll
                  d.commands).2) := by
        rw [← MockEngine.Engine.applyAll_untimed,
          ← MockEngine.Engine.applyAll_untimed, he, h.engine]
      obtain ⟨hafter, hresults⟩ := Prod.mk.inj hsame
      rw [List.flatMap_append, List.flatMap_singleton,
        MockEngine.Engine.applyAll_append, List.filterMap_append,
        MockPair.filterMap_heartbeats, List.nil_append, answersTo_concat]
      refine ⟨by rw [hengine]; exact hafter, h.answers.append ?_⟩
      rw [hresults]
      unfold MockEngine.Surroundings.answer
      split
      · exact List.Sublist.refl _
      · exact List.nil_sublist _

/-- These directives are on the wire, the last of them perhaps cut short: what
is there beyond the `taken` bytes, and what is not, is the rest. -/
structure OnWire (codec : Codec)
    (decode : List UInt8 → Option ManagerMessage)
    (written : List EngineDirective) (wire : List UInt8) (taken : Nat)
    (ds : List EngineDirective) (missing : List UInt8) : Prop where
  good : ∀ d ∈ ds, decode (codec.text d) = some (.directive d)
    ∧ MockPeer.ProtocolSized (codec.text d)
  frames : wire.take taken ++ missing = bigEndian.stream codec.text ds
  written : ds = written ∨ missing ≠ [] ∧ ds.dropLast = written

/-- A poll of what has arrived delivers the next of the directives that were
written, or nothing. -/
theorem OnWire.poll {taken : Nat} {ds : List EngineDirective}
    {missing : List UInt8}
    (h : OnWire codec decode written wire taken ds missing)
    (hnul : ∀ text, 0 ∈ text → decode text = none)
    {consumed : List UInt8} {ts rest : List (Option UInt8)}
    {r : Option ManagerMessage}
    (hsplit : wire.take taken = consumed ++ ts.reduceOption)
    (hreceived : bigEndian.Received codec.message
      (written.map ManagerMessage.directive) consumed
      (executed.map ManagerMessage.directive))
    (hpoll : bigEndian.poll decode ts = (some r, rest)) :
    ∃ c, ts.reduceOption = c ++ rest.reduceOption
      ∧ bigEndian.Received codec.message
        (written.map ManagerMessage.directive) (consumed ++ c)
        (executed.map ManagerMessage.directive ++ r.toList) := by
  have hmsgs : ∀ m ∈ ds.map ManagerMessage.directive,
      decode (codec.message m) = some m
        ∧ MockPeer.ProtocolSized (codec.message m) := by
    intro m hm
    obtain ⟨d, hd, rfl⟩ := List.mem_map.mp hm
    exact h.good d hd
  have hframes : consumed ++ (ts.reduceOption ++ missing)
      = bigEndian.stream codec.message (ds.map ManagerMessage.directive) := by
    rw [stream_map_directive, ← h.frames, hsplit, List.append_assoc]
  have hwritten : ds.map ManagerMessage.directive
        = written.map ManagerMessage.directive
      ∨ missing ≠ [] ∧ (ds.map ManagerMessage.directive).dropLast
        = written.map ManagerMessage.directive := by
    rcases h.written with rfl | ⟨hne, rfl⟩
    · exact .inl rfl
    · exact .inr ⟨hne, List.map_dropLast.symm⟩
  refine hreceived.poll bigEndian
    (MockPeer.offFrame_refused (fun m hm => (hmsgs m hm).2)
      (fun m hm => (hmsgs m hm).1) hnul) ?_
    (fun m hm => (hmsgs m hm).1) (List.Subset.refl _) hframes hwritten hpoll
  intro m hm
  have hlt := (hmsgs m hm).2.2
  show _ < 2 ^ 32
  omega

/-- What was delivered is what the pass executed. -/
theorem map_executed (report : MockEngine.Report) :
    (executed ++ report.directive.toList).map ManagerMessage.directive
      = executed.map ManagerMessage.directive ++ report.message.toList := by
  unfold MockEngine.Report.message
  rw [List.map_append]
  cases report.directive with
  | none => rfl
  | some d => rfl

/-- Who has received a part of what was written has it in order. -/
theorem received_sublist {consumed : List UInt8}
    (h : bigEndian.Received codec.message
      (written.map ManagerMessage.directive) consumed
      (executed.map ManagerMessage.directive)) : executed.Sublist written := by
  obtain ⟨front, rest, hfront, hsub, _⟩ := h.behind
  refine sublist_of_map directive_injective ?_
  rw [hfront]
  exact hsub.trans (List.sublist_append_left _ _)

/-- **What a pass executes** is the next of the directives that were written,
or nothing. -/
theorem PeerSound.read
    (h : PeerSound args encode codec written executed sent wire p)
    (hnul : ∀ text, 0 ∈ text → decode text = none)
    {ds : List EngineDirective} {missing : List UInt8}
    (hwire : OnWire codec decode written wire p.taken ds missing)
    (hpass : p.pass args encode decode fails env = (p', report)) :
    (executed ++ report.directive.toList).Sublist written
      ∧ InStep codec written (executed ++ report.directive.toList) wire p' := by
  -- a pass that leaves the loop without an answer
  have hleft (hstop : p'.loop.running = false)
      (hnone : report.answered = none) :
      (executed ++ report.directive.toList).Sublist written
        ∧ InStep codec written (executed ++ report.directive.toList) wire
          p' := by
    have hquiet : report.directive = none := by
      unfold MockEngine.Report.directive
      rw [hnone]
      rfl
    rw [hquiet, Option.toList_none, List.append_nil]
    exact ⟨h.inOrder, fun hrun =>
      absurd (hstop.symm.trans hrun) Bool.false_ne_true⟩
  cases fails with
  | true => exact hleft (pass_fails hpass).1 (pass_fails hpass).2
  | false =>
      obtain ⟨env', hon⟩ := pass_protocolOn hpass
      rcases MockEngine.protocolOn_step args decode p.loop env' p.arrived
          h.opened with ⟨hstop, hnone, _⟩ | ⟨hpoll, hrest, _, hrun⟩
      · rw [hon] at hstop hnone
        exact hleft hstop hnone
      · rw [hon] at hpoll hrest hrun
        obtain ⟨consumed, hsplit, hreceived⟩ :=
          h.reads (pass_running hpass hrun)
        obtain ⟨c, hc, hnext⟩ :=
          hwire.poll hnul hsplit hreceived (Prod.ext hpoll hrest)
        rw [← map_executed] at hnext
        refine ⟨received_sublist hnext, fun _ => ⟨consumed ++ c, ?_, hnext⟩⟩
        rw [(pass_frame hpass h.opened).2.1, hsplit, List.append_assoc]
        exact congrArg (consumed ++ ·) hc

/-- **A pass keeps all of it.** -/
theorem PeerSound.pass
    (h : PeerSound args encode codec written executed sent wire p)
    (hnul : ∀ text, 0 ∈ text → decode text = none)
    {ds : List EngineDirective} {missing : List UInt8}
    (hwire : OnWire codec decode written wire p.taken ds missing)
    (hpass : p.pass args encode decode fails env = (p', report))
    (hlen : ∀ msg ∈ p.attempts report, (encode msg).length < 2 ^ 32) :
    PeerSound args encode codec written (executed ++ report.directive.toList)
      (sent ++ report.sent) wire p' := by
  obtain ⟨hopened, htaken, hgiven⟩ := pass_frame hpass h.opened
  obtain ⟨horder, hreads⟩ := h.read hnul hwire hpass
  obtain ⟨hengine, hanswers⟩ := h.serve hpass
  have hto := pass_protocolTo hpass
  refine
    { opened := hopened
      given := ?_
      taken := htaken ▸ h.taken
      line := ?_
      engine := hengine
      answers := hanswers
      inOrder := horder
      reads := hreads }
  · rw [hgiven]
    exact h.given.trans (pass_line hpass).length_le
  · let env' := { env with received := (p.recv decode fails).2 }
    have hattempts : ∀ msg ∈ MockEngine.attempts
        ((protocolTo args encode).stepAt (p.loop, p.line) env'),
        (encode msg).length < 2 ^ 32 := by
      unfold MockEngine.attempts
      rw [Mealy.stepAt_output, Mealy.stepAt_pre, hto]
      exact hlen
    have hcarried := h.line.pass env' hattempts
    rw [hto] at hcarried
    exact hcarried

/-- What an engine writes whole is something it tried to write. -/
theorem pass_attempts
    (hpass : p.pass args encode decode fails env = (p', report))
    {msg : EngineMessage} (h : msg ∈ report.sent) :
    msg ∈ p.attempts report := by
  obtain ⟨rfl, rfl⟩ := Prod.ext_iff.mp hpass
  have hsent : msg ∈ ((protocolTo args encode).stepAt (p.loop, p.line)
      { env with received := (p.recv decode fails).2 }).output.sent := h
  exact MockEngine.mem_attempts _ _ hsent

end Peers

/-! ## §4. Main's side. -/

namespace Inbound

/-- These steps lead from `sys` to `sys'`, bring these bytes and return these
messages. -/
structure Course (decode : Decode) (sys : Inbound kind)
    (moves : List InboundEvent) (got : Stream → List UInt8)
    (heard : Stream → List EngineMessage) (sys' : Inbound kind) : Prop where
  exec : (machine kind decode).exec sys moves = sys'
  got : ∀ s, ((machine kind decode).trace sys moves).flatMap (arrived s)
    = got s
  heard : ∀ s, ((machine kind decode).trace sys moves).flatMap (returned s)
    = heard s

section Courses

variable {decode : Decode} {sys sys' sys'' : Inbound kind}
  {moves moves' : List InboundEvent} {got got' : Stream → List UInt8}
  {heard heard' : Stream → List EngineMessage}

theorem course_nil : Course decode sys [] (fun _ => []) (fun _ => []) sys :=
  ⟨rfl, fun _ => rfl, fun _ => rfl⟩

theorem Course.append (h : Course decode sys moves got heard sys')
    (h' : Course decode sys' moves' got' heard' sys'') :
    Course decode sys (moves ++ moves') (fun s => got s ++ got' s)
      (fun s => heard s ++ heard' s) sys'' where
  exec := by rw [Mealy.exec_append, h.exec, h'.exec]
  got := fun s => by
    rw [Mealy.trace_append, List.flatMap_append, h.got, h.exec, h'.got]
  heard := fun s => by
    rw [Mealy.trace_append, List.flatMap_append, h.heard, h.exec, h'.heard]

/-- One step that returns nothing. -/
theorem course_single (decode : Decode) (sys : Inbound kind)
    (ev : InboundEvent)
    (hquiet : (sys.step decode ev).2.message = []) :
    Course decode sys [ev]
      (fun s => arrived s ((machine kind decode).stepAt sys ev))
      (fun _ => []) (sys.step decode ev).1 where
  exec := rfl
  got := fun _ => List.append_nil _
  heard := fun s => by
    show (if _ then (sys.step decode ev).2.message else []) ++ [] = []
    rw [hquiet, ite_self]
    rfl

/-- **An emit** is `connect` and `write` in a row. -/
theorem course_emit (decode : Decode) (codec : Codec) (io : EmitIo)
    (sys : Inbound kind) (d : EngineDirective) :
    Course decode sys [.connect io.attach, .write (codec.text d) io.takes]
      (fun _ => []) (fun _ => [])
      { channel := (sys.channel.emitDirective codec d io).1
        link := ((machine kind decode).exec sys
          [.connect io.attach, .write (codec.text d) io.takes]).link } where
  exec := congrArg (Inbound.mk · _) (emitBytes_two_steps sys (codec.text d) io)
  got := fun _ => rfl
  heard := fun s => by
    show (if _ then [] else []) ++ ((if _ then [] else []) ++ []) = []
    rw [ite_self, ite_self]
    rfl

/-- **A `try_recv`** takes what is in the inbox. -/
theorem course_tryRecv (decode : Decode) (sys : Inbound kind) :
    Course decode sys [.tryRecv] (fun _ => [])
      (fun s => if sys.channel.state = .connected s
        then sys.tryRecvStep.2.message else [])
      sys.tryRecvStep.1 where
  exec := rfl
  got := fun _ => rfl
  heard := fun _ => List.append_nil _

/-- Nothing was returned. -/
theorem Course.silent (h : Course decode sys moves got (fun _ => []) sys') :
    Course decode sys moves got
      (fun s => if sys.channel.state = .connected s
        then (none : Option EngineMessage).toList else []) sys' :=
  ⟨h.exec, h.got, fun s => (h.heard s).trans (ite_self _).symm⟩

end Courses

end Inbound

namespace ClosedLoop

open Inbound (Course course_nil course_single course_emit course_tryRecv)

/-- The emit hands over bytes and takes none back. -/
theorem emitBytes_wire (json : List UInt8) (io : EmitIo)
    (ch : SocketChannel kind) (s : Stream) :
    ch.wire s <+: (ch.emitBytes json io).1.wire s := by
  have hpush : ∀ (c : SocketChannel kind) (t : Stream) (bs : List UInt8),
      c.wire s <+: (c.push t bs).wire s := by
    intro c t bs
    by_cases hst : s = t
    · subst hst
      rw [SocketChannel.push_wire_self]
      exact List.prefix_append _ _
    · unfold SocketChannel.push
      dsimp only
      rw [Function.update_of_ne hst]
  rw [← (ch.ensureConnected_moves io.attach).2]
  rcases SocketChannel.emitBytes_cases json io ch
    with ⟨_, h⟩ | ⟨t, _, _, h⟩ | ⟨t, sent, _, _, _, _, h⟩
  · rw [h]
  · rw [h]
    exact hpush _ t _
  · rw [h]
    exact hpush _ t sent


/-- Main's `try_recv` is one of the inbox. -/
theorem tryRecvStep_eq (c : ClosedLoop σ ω kind) :
    c.inbound.tryRecvStep.1.channel
        = (c.main.transport.tryRecv c.inboxPoll).1
      ∧ ∀ s, c.main.transport.state = .connected s →
        c.inbound.tryRecvStep.2.message
          = (c.main.transport.tryRecv c.inboxPoll).2.toList := by
  unfold inbound inboxPoll Inbound.tryRecvStep
  cases hst : c.main.transport.state with
  | connected s =>
      refine ⟨?_, fun _ _ => ?_⟩
      · simp [Inbound.setLink]
      · simp [InboundOutput.message]
  | listening =>
      refine ⟨?_, fun s hs => absurd hs (by simp)⟩
      simp [hst, SocketChannel.tryRecv]
  | disconnected =>
      refine ⟨?_, fun s hs => absurd hs (by simp)⟩
      simp [hst, SocketChannel.tryRecv]

/-- **A step of main** is moves of its channel, which bring nothing, and
return what main heard. -/
theorem mainStep_course (w : Wiring σ ω) (c : ClosedLoop σ ω kind)
    (e : LoopEvent ω) :
    ∃ moves, Course w.decodeEngine c.inbound moves (fun _ => [])
      (fun s => if c.main.transport.state = .connected s
        then (c.mainStep w e).2.heard.toList else [])
      (c.mainStep w e).1.inbound := by
  cases hinit : c.initial with
  | cons call rest =>
      unfold mainStep startupStep
      rw [hinit]
      dsimp only
      rcases w.policy.processSignal call.world call.signal c.main.policy with
        ⟨policy, _ | d⟩
      · exact ⟨_, course_nil.silent⟩
      · exact ⟨_, (course_emit w.decodeEngine w.codec call.io c.inbound
          d).silent⟩
  | nil =>
      cases e with
      | sighup world =>
          refine ⟨[], ?_⟩
          have hsame : (c.mainStep w (.sighup world)).1.inbound
              = c.inbound := by
            unfold mainStep
            rw [hinit]
            exact congrArg (Inbound.mk · c.link)
              (handleSighup_frame w.policy world c.main).2
          have hheard : (c.mainStep w (.sighup world)).2.heard = none := by
            unfold mainStep
            rw [hinit]
            rfl
          rw [hsame, hheard]
          exact course_nil.silent
      | connect =>
          unfold mainStep
          rw [hinit]
          exact ⟨[.arrive],
            (course_single w.decodeEngine c.inbound .arrive rfl).silent⟩
      | tryRecv poll =>
          obtain ⟨hchannel, hmessage⟩ := tryRecvStep_eq c
          have hstep : (c.mainStep w (.tryRecv poll)).1.inbound
                = c.inbound.tryRecvStep.1
              ∧ (c.mainStep w (.tryRecv poll)).2.heard
                = (c.main.transport.tryRecv c.inboxPoll).2 := by
            unfold mainStep resolve loopStep
            rw [hinit]
            dsimp only
            generalize c.main.transport.tryRecv c.inboxPoll = r at hchannel ⊢
            obtain ⟨ch, _ | msg⟩ := r
            · exact ⟨congrArg (Inbound.mk · _) hchannel.symm, rfl⟩
            · exact ⟨congrArg (Inbound.mk · _) hchannel.symm, rfl⟩
          rw [hstep.1, hstep.2]
          have hcourse := course_tryRecv w.decodeEngine c.inbound
          refine ⟨[.tryRecv], hcourse.exec, hcourse.got, fun s => ?_⟩
          rw [hcourse.heard s]
          exact if_ctx_congr Iff.rfl (hmessage s) fun _ => rfl
      | signal call =>
          have hspec := handleSignal_spec w.policy w.codec w.start call c.main
          unfold mainStep resolve loopStep
          rw [hinit]
          dsimp only
          generalize (handleSignal w.policy w.codec w.start call c.main).1
            = m' at hspec ⊢
          generalize (handleSignal w.policy w.codec w.start call c.main).2
            = o at hspec ⊢
          cases hspec with
          | silent policy _ => exact ⟨_, course_nil.silent⟩
          | suppressed policy d _ _ _ _ _ => exact ⟨_, course_nil.silent⟩
          | emitted policy d _ _ =>
              exact ⟨_, (course_emit w.decodeEngine w.codec call.io c.inbound
                d).silent⟩

/-- Main's channel is driven as it was told, and its bytes stay. -/
theorem mainStep_drove (w : Wiring σ ω) (c : ClosedLoop σ ω kind)
    (e : LoopEvent ω) {es : List Emission}
    (h : Drove w.codec es c.main.transport) :
    Drove w.codec (es ++ (c.mainStep w e).2.emitted.toList)
      (c.mainStep w e).1.main.transport := by
  unfold mainStep
  cases c.initial with
  | cons call rest =>
      exact startupStep_drove w.policy w.codec
        (m := (c.main.policy, c.main.transport)) call h
  | nil => exact loopStep_drove w.policy w.codec w.start (c.resolve e) h

theorem mainStep_wire (w : Wiring σ ω) (c : ClosedLoop σ ω kind)
    (e : LoopEvent ω) (s : Stream) :
    c.main.transport.wire s
      <+: (c.mainStep w e).1.main.transport.wire s := by
  unfold mainStep
  cases c.initial with
  | cons call rest =>
      unfold startupStep
      dsimp only
      rcases w.policy.processSignal call.world call.signal c.main.policy with
        ⟨policy, _ | d⟩
      · exact List.prefix_rfl
      · exact emitBytes_wire _ _ _ _
  | nil =>
      dsimp only
      by_cases hsignal : ∃ call, c.resolve e = .signal call
      · obtain ⟨call, hcall⟩ := hsignal
        rw [hcall]
        have hspec := handleSignal_spec w.policy w.codec w.start call c.main
        show _ <+: (handleSignal w.policy w.codec w.start call
          c.main).1.transport.wire s
        generalize (handleSignal w.policy w.codec w.start call c.main).1
          = m' at hspec ⊢
        generalize (handleSignal w.policy w.codec w.start call c.main).2
          = o at hspec
        cases hspec with
        | silent policy _ => exact List.prefix_rfl
        | suppressed policy d _ _ _ _ _ => exact List.prefix_rfl
        | emitted policy d _ _ => exact emitBytes_wire _ _ _ _
      · rw [(loopStep_transport w.policy w.codec w.start c.main
          (not_exists.mp hsignal)).1]

/-- And no engine moves. -/
theorem mainStep_peer (w : Wiring σ ω) (c : ClosedLoop σ ω kind)
    (e : LoopEvent ω) :
    (c.mainStep w e).1.peer = c.peer
      ∧ ∀ s, (c.mainStep w e).2.reportOf s = none := by
  unfold mainStep
  split
  next => exact ⟨rfl, fun _ => rfl⟩
  next => exact ⟨rfl, fun _ => rfl⟩

/-! ## §5. A step of the system. -/

theorem hangup_frame (w : Wiring σ ω) (c : ClosedLoop σ ω kind)
    (s : Stream) :
    (c.step w (.hangup s)).2 = .moved
      ∧ (c.step w (.hangup s)).1.peer = c.peer
      ∧ (c.step w (.hangup s)).1.main = c.main := by
  unfold step
  dsimp only
  split
  next => exact ⟨rfl, rfl, rfl⟩
  next => exact ⟨rfl, rfl, rfl⟩

/-- Only an engine's own turn reports on it. -/
theorem step_report (w : Wiring σ ω) (c : ClosedLoop σ ω kind) (t : Turn ω)
    {s : Stream} {report : MockEngine.Report}
    (h : (c.step w t).2.reportOf s = some report) :
    ∃ fails env, t = .engine s fails env
      ∧ report
        = ((c.peer s).pass (w.args s) w.encode w.decode fails env).2 := by
  have hnone : (none : Option MockEngine.Report) ≠ some report := by simp
  cases t with
  | engine t fails env =>
      change (if t = s then some _ else none) = some report at h
      split at h
      next hts =>
        subst hts
        exact ⟨fails, env, rfl, (Option.some.inj h).symm⟩
      next => exact absurd h hnone
  | main e =>
      change (c.mainStep w e).2.reportOf s = _ at h
      rw [(mainStep_peer w c e).2] at h
      exact absurd h hnone
  | reader t fails => exact absurd h hnone
  | toEngine t n => exact absurd h hnone
  | toMain t n => exact absurd h hnone
  | hangup t =>
      rw [(hangup_frame w c t).1] at h
      exact absurd h hnone

theorem step_drove (w : Wiring σ ω) (c : ClosedLoop σ ω kind) (t : Turn ω)
    {es : List Emission} (h : Drove w.codec es c.main.transport) :
    Drove w.codec (es ++ (c.step w t).2.emitted.toList)
      (c.step w t).1.main.transport := by
  have hquiet : Drove w.codec (es ++ []) c.main.transport := by
    rw [List.append_nil]
    exact h
  cases t with
  | main e => exact mainStep_drove w c e h
  | reader s fails => exact hquiet
  | engine s fails env => exact hquiet
  | toEngine s n => exact hquiet
  | toMain s n => exact hquiet
  | hangup s =>
      obtain ⟨hmoved, _, hmain⟩ := hangup_frame w c s
      rw [hmoved, hmain]
      exact hquiet

/-- What has arrived at main. -/
def atMain (c : ClosedLoop σ ω kind) (s : Stream) : List UInt8 :=
  (c.peer s).line.bytes.take (c.peer s).given

theorem atMain_update (c : ClosedLoop σ ω kind) {s s' : Stream}
    (h : s' ≠ s) (p : Peer) :
    ({ c with peer := Function.update c.peer s p } : ClosedLoop σ ω kind).atMain
        s' = c.atMain s' := by
  unfold atMain
  dsimp only
  rw [Function.update_of_ne h]

/-- Main's side of a step: moves that bring what arrives, and return what main
heard. -/
theorem step_course (w : Wiring σ ω) (c : ClosedLoop σ ω kind) (t : Turn ω)
    (hgiven : ∀ s, (c.peer s).given ≤ (c.peer s).line.bytes.length) :
    ∃ moves got, Course w.decodeEngine c.inbound moves got
        (fun s => if c.main.transport.state = .connected s
          then (c.step w t).2.heard.toList else [])
        (c.step w t).1.inbound
      ∧ ∀ s, (c.step w t).1.atMain s = c.atMain s ++ got s := by
  cases t with
  | main e =>
      obtain ⟨moves, hcourse⟩ := c.mainStep_course w e
      refine ⟨moves, _, hcourse, fun s => ?_⟩
      unfold atMain
      rw [List.append_nil]
      show (((c.mainStep w e).1.peer s).line.bytes).take
        ((c.mainStep w e).1.peer s).given = _
      rw [(mainStep_peer w c e).1]
  | reader s fails =>
      have hmain := Inbound.readerStep_main w.decodeEngine s fails c.inbound
      have hstep : (c.step w (.reader s fails)).1.inbound
          = (c.inbound.readerStep w.decodeEngine s fails).1 :=
        congrArg (Inbound.mk · _) hmain.1.symm
      rw [hstep]
      exact ⟨[.reader s fails], _,
        (course_single w.decodeEngine c.inbound (.reader s fails)
          hmain.2).silent,
        fun _ => (List.append_nil _).symm⟩
  | engine s fails env =>
      refine ⟨[], _, course_nil.silent, fun s' => ?_⟩
      rw [List.append_nil]
      by_cases hs : s' = s
      · -- what has arrived is at the front of the line
        subst hs
        have hline : (c.peer s').line.bytes
            <+: ((c.peer s').pass (w.args s') w.encode w.decode fails
              env).1.line.bytes := pass_line rfl
        obtain ⟨more, hmore⟩ := hline
        unfold atMain step
        dsimp only
        rw [Function.update_self, ← hmore]
        exact List.take_append_of_le_length (hgiven s')
      · exact c.atMain_update hs _
  | toEngine s n =>
      refine ⟨[], _, course_nil.silent, fun s' => ?_⟩
      rw [List.append_nil]
      by_cases hs : s' = s
      · subst hs
        unfold atMain step
        dsimp only
        rw [Function.update_self, (Peer.receive_line ..).1,
          (Peer.receive_line ..).2]
      · exact c.atMain_update hs _
  | toMain s n =>
      refine ⟨[.receive s ((c.peer s).chunk n)], _,
        (course_single w.decodeEngine c.inbound _ rfl).silent, fun s' => ?_⟩
      show _ = _ ++ if s = s' then (c.peer s).chunk n else []
      by_cases hs : s' = s
      · subst hs
        rw [if_pos rfl]
        unfold atMain step Peer.chunk
        dsimp only
        rw [Function.update_self, List.take_add]
        exact congrArg (_ ++ ·)
          (List.prefix_iff_eq_take.mp (List.take_prefix n _)).symm
      · rw [if_neg (Ne.symm hs), List.append_nil]
        exact c.atMain_update hs _
  | hangup s =>
      by_cases hrun : (c.peer s).loop.running = true
      · have hstep : c.step w (.hangup s) = (c, .moved) := if_pos hrun
        rw [hstep]
        exact ⟨[], _, course_nil.silent, fun _ => (List.append_nil _).symm⟩
      · have hstep : c.step w (.hangup s)
            = ({ c with
                link := Function.update c.link s
                  { c.link s with eof := true } }, .moved) := if_neg hrun
        rw [hstep]
        exact ⟨[.close s], _,
          (course_single w.decodeEngine c.inbound _ rfl).silent,
          fun _ => (List.append_nil _).symm⟩

/-- Everything a step may write reads back as what it is: serde's side of the
protocol, and that no message outgrows its header. -/
structure Legible (w : Wiring σ ω) (e : Step σ ω kind) : Prop where
  directive : ∀ em, e.output.emitted = some em →
    w.decode (w.codec.text em.directive) = some (.directive em.directive)
      ∧ MockPeer.ProtocolSized (w.codec.text em.directive)
  message : ∀ s report, e.output.reportOf s = some report →
    ∀ msg ∈ (e.pre.peer s).attempts report,
      w.decodeEngine (w.encode msg) = some msg
        ∧ (w.encode msg).length < 2 ^ 32

theorem emissions_concat (h : List (Step σ ω kind)) (e : Step σ ω kind) :
    emissions (h ++ [e]) = emissions h ++ e.output.emitted.toList :=
  Mealy.said_concat _ h e

theorem writtenTo_concat (s : Stream) (h : List (Step σ ω kind))
    (e : Step σ ω kind) :
    writtenTo s (h ++ [e])
      = writtenTo s h ++ withReport (.written s) e.output.emitted.toList := by
  unfold writtenTo
  rw [emissions_concat]
  exact List.filterMap_append

theorem executedBy_concat (s : Stream) (h : List (Step σ ω kind))
    (e : Step σ ω kind) :
    executedBy s (h ++ [e])
      = executedBy s h ++ (e.output.reportOf s).toList.filterMap
          MockEngine.Report.directive := by
  unfold executedBy reports
  rw [Mealy.said_concat]
  exact List.filterMap_append

theorem sentBy_concat (s : Stream) (h : List (Step σ ω kind))
    (e : Step σ ω kind) :
    sentBy s (h ++ [e])
      = sentBy s h ++ (e.output.reportOf s).toList.flatMap
          MockEngine.Report.sent := by
  unfold sentBy reports
  rw [Mealy.said_concat]
  exact List.flatMap_append

theorem heardFrom_concat (s : Stream) (h : List (Step σ ω kind))
    (e : Step σ ω kind) :
    heardFrom s (h ++ [e])
      = heardFrom s h ++ if e.pre.main.transport.state = .connected s
          then e.output.heard.toList else [] := by
  unfold heardFrom
  rw [List.flatMap_append, List.flatMap_singleton]

/-- What is on the wire are the directives that were written, and at most the
beginning of one more. -/
theorem onWire {codec : Codec} {decode : List UInt8 → Option ManagerMessage}
    {es : List Emission} {ch : SocketChannel kind} (h : Drove codec es ch)
    (hgood : ∀ e ∈ es, decode (codec.text e.directive)
        = some (.directive e.directive)
      ∧ MockPeer.ProtocolSized (codec.text e.directive))
    (s : Stream) (taken : Nat) :
    ∃ ds missing, OnWire codec decode (withReport (.written s) es) (ch.wire s)
      taken ds missing := by
  obtain ⟨ds, missing, hds, hframes, hwritten⟩ :=
    h.stream (s := s) (List.take_prefix taken (ch.wire s))
  refine ⟨ds, missing, fun d hd => ?_, hframes, hwritten⟩
  obtain ⟨e, he, rfl⟩ := hds d hd
  exact hgood e he

/-- **Every turn keeps every engine and its connection sound.** -/
theorem step_peers (w : Wiring σ ω)
    (hnul : ∀ text, 0 ∈ text → w.decode text = none)
    (c : ClosedLoop σ ω kind) (t : Turn ω) {h : List (Step σ ω kind)}
    (hdrove : Drove w.codec (emissions h) c.main.transport)
    (hgood : ∀ e ∈ emissions h, w.decode (w.codec.text e.directive)
        = some (.directive e.directive)
      ∧ MockPeer.ProtocolSized (w.codec.text e.directive))
    (hlegible : Legible w ((machine w).stepAt c t))
    (hpeers : ∀ s, PeerSound (w.args s) w.encode w.codec (writtenTo s h)
      (executedBy s h) (sentBy s h) (c.main.transport.wire s) (c.peer s))
    (s : Stream) :
    PeerSound (w.args s) w.encode w.codec
      (writtenTo s (h ++ [(machine w).stepAt c t]))
      (executedBy s (h ++ [(machine w).stepAt c t]))
      (sentBy s (h ++ [(machine w).stepAt c t]))
      ((c.step w t).1.main.transport.wire s) ((c.step w t).1.peer s) := by
  rw [writtenTo_concat, executedBy_concat, sentBy_concat]
  -- a turn in which nobody says anything
  have hquiet : ∀ {wire : List UInt8} {p : Peer},
      PeerSound (w.args s) w.encode w.codec (writtenTo s h) (executedBy s h)
        (sentBy s h) wire p →
      PeerSound (w.args s) w.encode w.codec (writtenTo s h ++ [])
        (executedBy s h ++ []) (sentBy s h ++ []) wire p := by
    intro wire p hp
    rw [List.append_nil, List.append_nil, List.append_nil]
    exact hp
  cases t with
  | main e =>
      obtain ⟨hpeer, hreport⟩ := mainStep_peer w c e
      show PeerSound _ _ _
        (_ ++ withReport _ (c.mainStep w e).2.emitted.toList)
        (_ ++ ((c.mainStep w e).2.reportOf s).toList.filterMap _)
        (_ ++ ((c.mainStep w e).2.reportOf s).toList.flatMap _)
        ((c.mainStep w e).1.main.transport.wire s) ((c.mainStep w e).1.peer s)
      rw [hreport, hpeer]
      show PeerSound _ _ _ _ (_ ++ []) (_ ++ []) _ _
      rw [List.append_nil, List.append_nil]
      exact (hpeers s).grow (mainStep_wire w c e s) _
  | reader t fails => exact hquiet (hpeers s)
  | engine t fails env =>
      by_cases hst : s = t
      · subst hst
        obtain ⟨ds, missing, hwire⟩ := onWire hdrove hgood s (c.peer s).taken
        rcases hpass : (c.peer s).pass (w.args s) w.encode w.decode fails env
          with ⟨p', report⟩
        have hstep : c.step w (.engine s fails env)
            = ({ c with peer := Function.update c.peer s p' },
                .engine s report) := by
          unfold step
          dsimp only
          rw [hpass]
        have hreport :
            ((machine w).stepAt c (.engine s fails env)).output.reportOf s
              = some report := by
          show (c.step w (.engine s fails env)).2.reportOf s = _
          rw [hstep]
          exact if_pos rfl
        have hnext := (hpeers s).pass hnul hwire hpass fun msg hmsg =>
          (hlegible.message s _ hreport msg hmsg).2
        rw [hreport, Mealy.stepAt_output]
        change PeerSound _ _ _ (_ ++ withReport _
          (c.step w (.engine s fails env)).2.emitted.toList) _ _ _ _
        rw [hstep]
        show PeerSound _ _ _ (_ ++ []) (_ ++ [_].filterMap _)
          (_ ++ [_].flatMap _) _ (Function.update c.peer s _ s)
        rw [Function.update_self, List.append_nil, List.flatMap_singleton]
        cases hd : report.directive with
        | none =>
            rw [hd] at hnext
            rw [List.filterMap_cons_none hd]
            exact hnext
        | some d =>
            rw [hd] at hnext
            rw [List.filterMap_cons_some hd]
            exact hnext
      · have hreport :
            ((machine w).stepAt c (.engine t fails env)).output.reportOf s
              = none := if_neg (Ne.symm hst)
        rw [hreport]
        show PeerSound _ _ _ _ _ _ _ (Function.update c.peer t _ s)
        rw [Function.update_of_ne hst]
        exact hquiet (hpeers s)
  | toEngine t n =>
      refine hquiet ?_
      show PeerSound _ _ _ _ _ _ _ (Function.update c.peer t _ s)
      by_cases hst : s = t
      · subst hst
        rw [Function.update_self]
        exact (hpeers s).receive n
      · rw [Function.update_of_ne hst]
        exact hpeers s
  | toMain t n =>
      refine hquiet ?_
      show PeerSound _ _ _ _ _ _ _ (Function.update c.peer t _ s)
      by_cases hst : s = t
      · subst hst
        rw [Function.update_self]
        exact (hpeers s).give n
      · rw [Function.update_of_ne hst]
        exact hpeers s
  | hangup t =>
      obtain ⟨hmoved, hpeer, hmain⟩ := hangup_frame w c t
      rw [Mealy.stepAt_output]
      show PeerSound _ _ _
        (_ ++ withReport _ (c.step w (.hangup t)).2.emitted.toList)
        (_ ++ ((c.step w (.hangup t)).2.reportOf s).toList.filterMap _)
        (_ ++ ((c.step w (.hangup t)).2.reportOf s).toList.flatMap _) _ _
      rw [hmoved, hpeer, hmain]
      exact hquiet (hpeers s)

/-! ## §6. Whole runs. -/

/-- **The invariant**: after these steps, in this state. -/
structure Sound (w : Wiring σ ω) (h : List (Step σ ω kind))
    (c : ClosedLoop σ ω kind) : Prop where
  drove : Drove w.codec (emissions h) c.main.transport
  directives : ∀ e ∈ emissions h, w.decode (w.codec.text e.directive)
      = some (.directive e.directive)
    ∧ MockPeer.ProtocolSized (w.codec.text e.directive)
  peers : ∀ s, PeerSound (w.args s) w.encode w.codec (writtenTo s h)
    (executedBy s h) (sentBy s h) (c.main.transport.wire s) (c.peer s)
  messages : ∀ s, ∀ msg ∈ sentBy s h,
    w.decodeEngine (w.encode msg) = some msg
      ∧ (w.encode msg).length < 2 ^ 32
  course : ∃ moves, Course w.decodeEngine .new moves c.atMain
    (fun s => heardFrom s h) c.inbound

/-- The wait for a client has left the channel where it is. -/
theorem createTransport_channel {clientTimeout : Nat}
    {polls : List SocketChannel.WaitPoll} {shutdown : Bool}
    {channel : SocketChannel kind}
    (h : createTransport kind clientTimeout polls shutdown
      = some (.ok channel)) :
    channel = (SocketChannel.new.waitForClient polls).1 := by
  unfold createTransport at h
  split at h
  next => exact absurd h (by simp)
  next ch hwait =>
    injection h with h
    injection h with h
    rw [hwait, h]
  next ch hwait =>
    rw [hwait]
    cases shutdown with
    | true => exact absurd h (by simp)
    | false =>
        cases kind with
        | unix =>
            injection h with h
            injection h with h
            exact h.symm
        | tcp => exact absurd h (by simp)

theorem sound_start (w : Wiring σ ω) (l : Launch σ ω kind)
    {clientTimeout : Nat} {polls : List SocketChannel.WaitPoll}
    {shutdown : Bool}
    (hl : createTransport kind clientTimeout polls shutdown
      = some (.ok l.transport)) : Sound w [] (start w l) where
  drove := createTransport_drove w.codec hl
  directives := fun _ he => absurd he List.not_mem_nil
  peers := fun s => peerSound_start (w.args s) w.encode w.codec (w.room s) _
  messages := fun _ _ hmsg => absurd hmsg List.not_mem_nil
  course := by
    have hcourse := course_single w.decodeEngine (Inbound.new : Inbound kind)
      (.waitForClient polls) rfl
    refine ⟨_, ?_, hcourse.got, hcourse.heard⟩
    rw [hcourse.exec]
    show (Inbound.new : Inbound kind).adopt (SocketChannel.new.waitForClient
      polls).1 = _
    rw [← createTransport_channel hl]
    exact congrArg (Inbound.mk · _) (Inbound.adopt_channel .new l.transport)

/-- **Every turn keeps it.** -/
theorem sound_step (w : Wiring σ ω)
    (hnul : ∀ text, 0 ∈ text → w.decode text = none)
    (h : List (Step σ ω kind)) (c : ClosedLoop σ ω kind) (t : Turn ω)
    (hlegible : Legible w ((machine w).stepAt c t)) (hc : Sound w h c) :
    Sound w (h ++ [(machine w).stepAt c t]) (c.step w t).1 := by
  refine
    { drove := ?_
      directives := fun e he => ?_
      peers := step_peers w hnul c t hc.drove hc.directives hlegible hc.peers
      messages := fun s msg hmsg => ?_
      course := ?_ }
  · rw [emissions_concat]
    exact step_drove w c t hc.drove
  · rw [emissions_concat] at he
    rcases List.mem_append.mp he with he | he
    · exact hc.directives e he
    · exact hlegible.directive e (Option.mem_toList.mp he)
  · rw [sentBy_concat] at hmsg
    rcases List.mem_append.mp hmsg with hmsg | hmsg
    · exact hc.messages s msg hmsg
    · -- the engine has just written it
      obtain ⟨report, hreport, hsent⟩ := List.mem_flatMap.mp hmsg
      have hof := Option.mem_toList.mp hreport
      refine hlegible.message s report hof msg ?_
      obtain ⟨_, env, rfl, rfl⟩ := step_report w c t hof
      exact pass_attempts rfl hsent
  · obtain ⟨moves, hcourse⟩ := hc.course
    obtain ⟨more, got, hmore, hgot⟩ :=
      step_course w c t fun s => (hc.peers s).given
    have hall := hcourse.append hmore
    refine ⟨moves ++ more, hall.exec, fun s => ?_, fun s => ?_⟩
    · rw [hall.got, hgot]
    · rw [hall.heard, heardFrom_concat]
      rfl

/-- **The manager and its engines**, in every state of every run: however the
parties take their turns, wherever the bytes are cut, and whatever fails.

An engine has executed nothing but what main wrote to it, each directive at
most once and in order; its state is what executing these makes of it; main
has heard nothing but what the engine wrote, each message once and in order;
and the responses among them are the engine's answers to the directives it
executed, in order. -/
theorem closed_loop_in_order (w : Wiring σ ω) (l : Launch σ ω kind)
    {clientTimeout : Nat} {polls : List SocketChannel.WaitPoll}
    {shutdown : Bool}
    (hl : createTransport kind clientTimeout polls shutdown
      = some (.ok l.transport))
    (hnul : ∀ text, 0 ∈ text → w.decode text = none)
    (turns : List (Turn ω))
    (hlegible : ∀ e ∈ (machine w).trace (start w l) turns, Legible w e)
    (s : Stream) :
    let h := (machine w).trace (start w l) turns
    (executedBy s h).Sublist (writtenTo s h)
      ∧ (((machine w).exec (start w l) turns).peer s).loop.engine.untimed
        = ((engine₀ (w.args s)).applyAll
            ((executedBy s h).flatMap EngineDirective.commands)).1.untimed
      ∧ heardFrom s h <+: sentBy s h
      ∧ ((heardFrom s h).filterMap response?).Sublist
        (answersTo (engine₀ (w.args s)) (executedBy s h)) := by
  intro h
  have hsound : Sound w h ((machine w).exec (start w l) turns) := by
    refine Mealy.Along.invariant (m := machine w) (I := Sound w)
      (P := fun _ e => Legible w e) ?_ (sound_start w l hl) ?_
    · intro before e after htr
      refine hlegible e ?_
      rw [htr]
      exact List.mem_append_right before List.mem_cons_self
    · intro hist c t hstep hinv
      exact sound_step w hnul hist c t hstep hinv
  have hpeer := hsound.peers s
  obtain ⟨moves, hcourse⟩ := hsound.course
  have hheard : heardFrom s h <+: sentBy s h := by
    rw [← hcourse.heard s]
    refine Inbound.returned_prefix w.decodeEngine moves s hpeer.line
      (fun msg hmsg => (hsound.messages s msg hmsg).2)
      (fun msg hmsg => (hsound.messages s msg hmsg).1) ?_
    rw [hcourse.got s]
    exact List.take_prefix _ _
  exact ⟨hpeer.inOrder, hpeer.engine, hheard,
    (hheard.sublist.filterMap _).trans hpeer.answers⟩

/-! ## §7. One directive there, its answer back. -/

/-- The manager whose policy releases, and an engine. -/
def releasingWiring : Wiring (LuaPolicy Unit) (LuaPolicy.World Unit) where
  policy := LuaPolicy.strategy Bindings.exact
  start := attachedLaunch.start
  codec := nullCodec
  decode := onlyMessage (.directive released)
  encode := sampleEncode
  decodeEngine := sampleDecode
  args := fun _ => sampleArgs
  room := fun _ => none

/-- The frame arrives in one piece, its answer in two. -/
def thereAndBack : List (Turn (LuaPolicy.World Unit)) :=
  [.main (.signal (quietMemory 1)), .toEngine 0 100, .engine 0 false (pass 1),
   .toMain 0 3, .reader 0 false, .toMain 0 100, .reader 0 false,
   .reader 0 false, .main (.tryRecv .empty)]

abbrev answeredRun :
    List (Step (LuaPolicy Unit) (LuaPolicy.World Unit) .unix) :=
  (machine releasingWiring).trace (start releasingWiring attachedLaunch)
    thereAndBack

/-- A step that emits nothing, and in which no engine moves. -/
theorem legible_quiet {w : Wiring σ ω} {e : Step σ ω kind}
    (hemitted : e.output.emitted = none)
    (hreport : ∀ s, e.output.reportOf s = none) : Legible w e where
  directive := fun em hem => absurd (hemitted.symm.trans hem) (by simp)
  message := fun s report hr => absurd ((hreport s).symm.trans hr) (by simp)

/-- Both texts of the run are read back. -/
theorem answeredRun_legible : ∀ e ∈ answeredRun, Legible releasingWiring e := by
  have hquiet : ∀ {e : Step (LuaPolicy Unit) (LuaPolicy.World Unit) .unix},
      e.output.emitted = none → (∀ s, e.output.reportOf s = none) →
      Legible releasingWiring e := legible_quiet
  refine List.forall_mem_cons.mpr ⟨⟨fun em hem => ?_, fun _ _ hr => ?_⟩, ?_⟩
  · -- the directive
    have hem : some (Emission.mk ⟨1, released⟩ (.written 0)) = some em := hem
    rw [← Option.some.inj hem]
    exact ⟨rfl, by decide, by decide⟩
  · exact absurd (show (none : Option MockEngine.Report) = _ from hr) (by simp)
  · refine List.forall_mem_cons.mpr ⟨hquiet rfl fun _ => rfl, ?_⟩
    refine List.forall_mem_cons.mpr ⟨⟨fun em hem => ?_, fun s r hr => ?_⟩, ?_⟩
    · exact absurd (show (none : Option Emission) = _ from hem) (by simp)
    · -- the engine might beat, and answers
      obtain ⟨fails, env, hturn, rfl⟩ := step_report releasingWiring _ _ hr
      injection hturn with hs hfails henv
      subst hs hfails henv
      intro msg hmsg
      have hmsg : msg ∈ [sampleBeat, sampleAck] := hmsg
      rcases List.mem_pair.mp hmsg with rfl | rfl
      · exact ⟨rfl, by decide⟩
      · exact ⟨rfl, by decide⟩
    · repeat
        refine List.forall_mem_cons.mpr ⟨hquiet rfl fun _ => rfl, ?_⟩
      exact fun e he => absurd he List.not_mem_nil

/-- The engine executes the directive, and main hears its answer. -/
theorem closed_loop_in_order_answered :
    heardFrom 0 answeredRun = [sampleAck]
      ∧ heardFrom 0 answeredRun <+: sentBy 0 answeredRun := by
  refine ⟨rfl, (closed_loop_in_order releasingWiring attachedLaunch
    attachedLaunch_created ?_ thereAndBack answeredRun_legible 0).2.2.1⟩
  intro text h0
  show onlyMessage _ text = none
  unfold onlyMessage
  rw [if_neg]
  intro htext
  rw [htext] at h0
  exact absurd h0 (by decide)

end ClosedLoop

end ArgusManager
