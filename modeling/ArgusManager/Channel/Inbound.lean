/-
  ArgusManager.Channel.Inbound
  ────────────────────────────
  **Reader threads, their inboxes, and main.**

  Every accepted connection gets a reader thread and an inbox of 64 messages
  (`spawn_reader` and `transition_to_connected`, the same in
  `src/channel/unix_socket.rs` and `src/channel/tcp.rs`).  An `InboundEvent`
  is one step of one side: bytes arrive, a reader takes its next step, main
  makes a call.  Every order of events is a run, so every interleaving is
  covered.

    • a reader whose frame is incomplete, or whose inbox is full, is blocked:
      its step changes nothing,
    • a receiver that main has dropped makes the next `send` fail,
    • a reader that has ended closes its inbox: `try_recv` reports that once
      the inbox is drained.

  `emit` and `emit_directive` are `connect` and `write` in a row
  (`emitBytes_two_steps`); readers may move in between.
-/
import ArgusManager.Channel.Connections
import ArgusManager.Channel.Reader
import ArgusManager.Lib.Mealy

namespace ArgusManager

/-! ## §1. Both sides. -/

/-- Where a connection's reader thread stands. -/
inductive ReaderState where
  | notSpawned
  | reading
  /-- In `inbox_tx.send(msg)`. -/
  | sending (msg : EngineMessage)
  | exited

/-- One connection, as its reader sees it. -/
structure Link where
  /-- Bytes that have arrived and were not read yet. -/
  buffer : List UInt8
  eof : Bool
  reader : ReaderState
  inbox : List EngineMessage

/-- `mpsc::sync_channel(64)`. -/
def INBOX_BOUND : Nat := 64

/-- The channel main holds, and all connections. -/
structure Inbound (kind : ChannelKind) where
  channel : SocketChannel kind
  link : Stream → Link

/-- One step of one side. -/
inductive InboundEvent where
  /-- A client connects to the listening socket. -/
  | arrive
  /-- Bytes arrive on a connection. -/
  | receive (s : Stream) (bytes : List UInt8)
  /-- The peer closes a connection. -/
  | close (s : Stream)
  /-- A reader's next step; `fails` is an I/O error of a read it is in. -/
  | reader (s : Stream) (fails : Bool)
  | waitForClient (polls : List SocketChannel.WaitPoll)
  /-- `ensure_connected`, the first half of an emit. -/
  | connect (io : AttachIo)
  /-- `write_signal` or `write_manager_message`, the second half. -/
  | write (json : List UInt8) (takes : Option Nat)
  | tryRecv

inductive InboundOutput where
  | nothing
  /-- A reader's `send` went through. -/
  | enqueued (s : Stream) (msg : EngineMessage)
  /-- What `try_recv` returned. -/
  | received (msg : Option EngineMessage)

def InboundOutput.enqueuedOn (s : Stream) :
    InboundOutput → List EngineMessage
  | .enqueued t msg => if t = s then [msg] else []
  | _ => []

def InboundOutput.message : InboundOutput → List EngineMessage
  | .received msg => msg.toList
  | _ => []

namespace Inbound

variable {kind : ChannelKind}

/-- Before anything connects. -/
def new : Inbound kind where
  channel := .new
  link := fun _ =>
    { buffer := [], eof := false, reader := .notSpawned, inbox := [] }

def setLink (sys : Inbound kind) (s : Stream) (l : Link) : Inbound kind :=
  { sys with link := Function.update sys.link s l }

/-- Main's side after a call; a stream just attached gets its reader and a
fresh inbox (`transition_to_connected`). -/
def adopt (sys : Inbound kind) (ch : SocketChannel kind) : Inbound kind :=
  match ch.state with
  | .connected s =>
      if sys.channel.state = .connected s then { sys with channel := ch }
      else
        ({ sys with channel := ch } : Inbound kind).setLink s
          { sys.link s with reader := .reading, inbox := [] }
  | _ => { sys with channel := ch }

/-- One step of a reader (`spawn_reader`). -/
def readerStep (decode : Decode) (s : Stream) (fails : Bool)
    (sys : Inbound kind) : Inbound kind × InboundOutput :=
  let l := sys.link s
  match l.reader with
  | .reading =>
      if fails then (sys.setLink s { l with reader := .exited }, .nothing)
      else
        match readEngineMessage decode l.buffer with
        | .ok (msg, rest) =>
            (sys.setLink s { l with buffer := rest, reader := .sending msg },
              .nothing)
        | .error .unexpectedEof =>
            -- `read_exact` blocks until the peer closes
            if l.eof then
              (sys.setLink s { l with reader := .exited }, .nothing)
            else (sys, .nothing)
        | .error _ => (sys.setLink s { l with reader := .exited }, .nothing)
  | .sending msg =>
      if sys.channel.state = .connected s then
        if l.inbox.length < INBOX_BOUND then
          (sys.setLink s
            { l with reader := .reading, inbox := l.inbox ++ [msg] },
            .enqueued s msg)
        else (sys, .nothing)
      else
        -- the receiver is gone
        (sys.setLink s { l with reader := .exited }, .nothing)
  | .notSpawned => (sys, .nothing)
  | .exited => (sys, .nothing)

/-- `inbox.try_recv()`: the oldest message, or whether the sender is gone. -/
def poll (l : Link) : InboxPoll :=
  match l.inbox, l.reader with
  | msg :: _, _ => .message msg
  | [], .exited => .disconnected
  | [], _ => .empty

/-- `EngineReceiver::try_recv`. -/
def tryRecvStep (sys : Inbound kind) : Inbound kind × InboundOutput :=
  match sys.channel.state with
  | .connected s =>
      let l := sys.link s
      let (ch, msg) := sys.channel.tryRecv (poll l)
      (({ sys with channel := ch } : Inbound kind).setLink s
        { l with inbox := l.inbox.tail }, .received msg)
  | _ => (sys, .received none)

/-- The second half of an emit; a write error detaches the client. -/
def writeStep (json : List UInt8) (takes : Option Nat)
    (sys : Inbound kind) : Inbound kind :=
  match sys.channel.state with
  | .connected _ =>
      match sys.channel.writeFrame json takes with
      | (ch, .error _) =>
          { sys with channel := { ch with state := .disconnected } }
      | (ch, .ok _) => { sys with channel := ch }
  | _ => sys

def step (decode : Decode) (sys : Inbound kind) :
    InboundEvent → Inbound kind × InboundOutput
  | .arrive => ({ sys with channel := sys.channel.arrive }, .nothing)
  | .receive s bytes =>
      (sys.setLink s
        { sys.link s with buffer := (sys.link s).buffer ++ bytes }, .nothing)
  | .close s => (sys.setLink s { sys.link s with eof := true }, .nothing)
  | .reader s fails => sys.readerStep decode s fails
  | .waitForClient polls =>
      (sys.adopt (sys.channel.waitForClient polls).1, .nothing)
  | .connect io => (sys.adopt (sys.channel.ensureConnected io), .nothing)
  | .write json takes => (sys.writeStep json takes, .nothing)
  | .tryRecv => sys.tryRecvStep

def machine (kind : ChannelKind) (decode : Decode) :
    Mealy (Inbound kind) InboundEvent InboundOutput := ⟨step decode⟩

/-! ## §2. Main's side is the channel. -/

theorem adopt_channel (sys : Inbound kind) (ch : SocketChannel kind) :
    (sys.adopt ch).channel = ch := by
  unfold adopt
  split
  next =>
    split
    next => rfl
    next => rfl
  next => rfl

/-- **An emit is its two halves**, as far as main's side goes. -/
theorem emitBytes_two_steps (sys : Inbound kind) (json : List UInt8)
    (io : EmitIo) :
    ((sys.adopt (sys.channel.ensureConnected io.attach)).writeStep json
        io.takes).channel
      = (sys.channel.emitBytes json io).1 := by
  unfold writeStep SocketChannel.emitBytes
  rw [adopt_channel]
  cases hst : (sys.channel.ensureConnected io.attach).state with
  | connected s =>
      dsimp only
      rw [hst]
      dsimp only
      obtain ⟨ch, result⟩ :=
        (sys.channel.ensureConnected io.attach).writeFrame json io.takes
      cases result with
      | error e => rfl
      | ok u => rfl
  | listening =>
      dsimp only
      rw [hst]
      exact adopt_channel _ _
  | disconnected =>
      dsimp only
      rw [hst]
      exact adopt_channel _ _

/-- Readers neither touch main's side nor return anything to it. -/
theorem readerStep_main (decode : Decode) (s : Stream) (fails : Bool)
    (sys : Inbound kind) :
    (sys.readerStep decode s fails).1.channel = sys.channel
      ∧ (sys.readerStep decode s fails).2.message = [] := by
  unfold readerStep
  dsimp only
  split
  next =>
    split
    next => exact ⟨rfl, rfl⟩
    next =>
      split
      next => exact ⟨rfl, rfl⟩
      next => split <;> exact ⟨rfl, rfl⟩
      next => exact ⟨rfl, rfl⟩
  next =>
    split
    next => split <;> exact ⟨rfl, rfl⟩
    next => exact ⟨rfl, rfl⟩
  next => exact ⟨rfl, rfl⟩
  next => exact ⟨rfl, rfl⟩

/-- A write keeps the client, or detaches it. -/
theorem writeStep_conn (json : List UInt8) (takes : Option Nat)
    (sys : Inbound kind) :
    (sys.writeStep json takes).channel.conn = sys.channel.conn
      ∨ (sys.writeStep json takes).channel.conn
        = (sys.channel.listener, .disconnected) := by
  unfold writeStep
  split
  next s hs =>
    rw [SocketChannel.writeFrame_connected hs]
    split
    next ch e hw =>
      injection hw with hch _
      subst hch
      exact .inr rfl
    next ch u hw =>
      injection hw with hch _
      subst hch
      exact .inl rfl
  next => exact .inl rfl

theorem tryRecvStep_moves (sys : Inbound kind) :
    Moves sys.channel.conn sys.tryRecvStep.1.channel.conn := by
  unfold tryRecvStep
  split
  next s hs => exact sys.channel.tryRecv_moves _
  next => exact .refl

/-- Listener and connection state only make moves. -/
theorem step_moves (decode : Decode) (sys : Inbound kind)
    (ev : InboundEvent) :
    Moves sys.channel.conn (sys.step decode ev).1.channel.conn := by
  cases ev with
  | arrive => exact .single (.arrive _ _)
  | receive s bytes => exact .refl
  | close s => exact .refl
  | reader s fails =>
      show Moves _ (sys.readerStep decode s fails).1.channel.conn
      rw [(readerStep_main ..).1]
  | waitForClient polls =>
      show Moves _ (sys.adopt (sys.channel.waitForClient polls).1).channel.conn
      rw [adopt_channel]
      exact (SocketChannel.waitForClient_moves polls sys.channel).1
  | connect io =>
      show Moves _ (sys.adopt (sys.channel.ensureConnected io)).channel.conn
      rw [adopt_channel]
      exact (sys.channel.ensureConnected_moves io).1
  | write json takes =>
      rcases sys.writeStep_conn json takes with h | h
      · show Moves _ (sys.writeStep json takes).channel.conn
        rw [h]
      · show Moves _ (sys.writeStep json takes).channel.conn
        rw [h]
        exact .single (.detach _ _)
  | tryRecv => exact sys.tryRecvStep_moves

/-! ## §3. One connection. -/

/-- A connection as it stands: whether main holds it, and its link. -/
def view (sys : Inbound kind) (s : Stream) : Bool × Link :=
  (decide (sys.channel.state = .connected s), sys.link s)

/-- **Everything a step can do to one connection**: the bytes it brings, the
messages the reader enqueues and the messages main is returned. -/
inductive LinkStep (decode : Decode) :
    Bool × Link → Bool × Link →
      List UInt8 → List EngineMessage → List EngineMessage → Prop where
  | stay (v : Bool × Link) : LinkStep decode v v [] [] []
  | leave (l : Link) : LinkStep decode (true, l) (false, l) [] [] []
  | attach (l : Link) :
      LinkStep decode (false, l)
        (true, { l with reader := .reading, inbox := [] }) [] [] []
  | receive (held : Bool) (l : Link) (bytes : List UInt8) :
      LinkStep decode (held, l)
        (held, { l with buffer := l.buffer ++ bytes }) bytes [] []
  | close (held : Bool) (l : Link) :
      LinkStep decode (held, l) (held, { l with eof := true }) [] [] []
  | read (held : Bool) {l : Link} {msg : EngineMessage} {rest : List UInt8}
      (hreader : l.reader = .reading)
      (hread : readEngineMessage decode l.buffer = .ok (msg, rest)) :
      LinkStep decode (held, l)
        (held, { l with buffer := rest, reader := .sending msg }) [] [] []
  | exit (held : Bool) {l : Link} (hreader : l.reader ≠ .notSpawned) :
      LinkStep decode (held, l) (held, { l with reader := .exited }) [] [] []
  | enqueue {l : Link} {msg : EngineMessage}
      (hreader : l.reader = .sending msg)
      (hroom : l.inbox.length < INBOX_BOUND) :
      LinkStep decode (true, l)
        (true, { l with reader := .reading, inbox := l.inbox ++ [msg] })
        [] [msg] []
  | dequeue {l : Link} {msg : EngineMessage} {rest : List EngineMessage}
      (hinbox : l.inbox = msg :: rest) :
      LinkStep decode (true, l) (true, { l with inbox := rest }) [] [] [msg]

/-! ## §4. What a step brings. -/

abbrev InboundStep (kind : ChannelKind) :=
  Mealy.Step (Inbound kind) InboundEvent InboundOutput

/-- The bytes a step brings for `s`. -/
def arrived (s : Stream) (e : InboundStep kind) : List UInt8 :=
  match e.input with
  | .receive t bytes => if t = s then bytes else []
  | _ => []

/-- The message the reader of `s` enqueues in a step. -/
def enqueued (s : Stream) (e : InboundStep kind) : List EngineMessage :=
  e.output.enqueuedOn s

/-- The message a step returns to main while `s` is attached. -/
def returned (s : Stream) (e : InboundStep kind) : List EngineMessage :=
  if e.pre.channel.state = .connected s then e.output.message else []

/-! ## §5. Every step is a link step. -/

@[simp] theorem view_setLink_self (sys : Inbound kind) (s : Stream)
    (l : Link) : (sys.setLink s l).view s = ((sys.view s).1, l) := by
  unfold view setLink
  dsimp only
  rw [Function.update_self]

@[simp] theorem view_setLink_ne (sys : Inbound kind) {s t : Stream}
    (h : s ≠ t) (l : Link) : (sys.setLink t l).view s = sys.view s := by
  unfold view setLink
  dsimp only
  rw [Function.update_of_ne h]

/-- Main's side changed and no link did. -/
theorem linkStep_channel (decode : Decode) (sys : Inbound kind)
    {ch : SocketChannel kind} {s : Stream}
    (h : ch.state = .connected s → sys.channel.state = .connected s) :
    LinkStep decode (sys.view s) (({ sys with channel := ch }).view s)
      [] [] [] := by
  unfold view
  dsimp only
  by_cases hpost : ch.state = .connected s
  · rw [decide_eq_true hpost, decide_eq_true (h hpost)]
    exact .stay _
  · rw [decide_eq_false hpost]
    by_cases hpre : sys.channel.state = .connected s
    · rw [decide_eq_true hpre]
      exact .leave _
    · rw [decide_eq_false hpre]
      exact .stay _

theorem linkStep_adopt (decode : Decode) (sys : Inbound kind)
    (ch : SocketChannel kind) (s : Stream) :
    LinkStep decode (sys.view s) ((sys.adopt ch).view s) [] [] [] := by
  unfold adopt
  split
  next t ht =>
    split
    next hold =>
      refine linkStep_channel decode sys fun hs => ?_
      rw [hold, ← ht, hs]
    next hnew =>
      by_cases hst : s = t
      · -- just attached
        subst hst
        rw [view_setLink_self]
        unfold view
        rw [decide_eq_false hnew]
        dsimp only
        rw [decide_eq_true ht]
        exact .attach _
      · rw [view_setLink_ne _ hst]
        refine linkStep_channel decode sys fun hs => ?_
        rw [ht] at hs
        injection hs with hs
        exact absurd hs.symm hst
  next hne =>
    exact linkStep_channel decode sys fun hs => absurd hs (hne s)

/-- A write may only detach. -/
theorem linkStep_write (decode : Decode) (json : List UInt8)
    (takes : Option Nat) (sys : Inbound kind) (s : Stream) :
    LinkStep decode (sys.view s) ((sys.writeStep json takes).view s)
      [] [] [] := by
  have hlink : sys.writeStep json takes
      = { sys with channel := (sys.writeStep json takes).channel } := by
    unfold writeStep
    split
    next => split <;> rfl
    next => rfl
  rw [hlink]
  refine linkStep_channel decode sys fun hs => ?_
  rcases sys.writeStep_conn json takes with h | h
  · exact (congrArg Prod.snd h).symm.trans hs
  · exact absurd ((congrArg Prod.snd h).symm.trans hs) (by simp)

/-- A reader's step, seen by its own connection. -/
theorem linkStep_reader (decode : Decode) (s : Stream) (fails : Bool)
    (sys : Inbound kind) :
    LinkStep decode (sys.view s) ((sys.readerStep decode s fails).1.view s) []
      ((sys.readerStep decode s fails).2.enqueuedOn s) [] := by
  unfold readerStep
  dsimp only
  split
  next hreader =>
    -- in `read_engine_message`
    have hspawned : (sys.link s).reader ≠ .notSpawned := by
      rw [hreader]
      simp
    split
    next =>
      rw [view_setLink_self]
      exact .exit _ hspawned
    next =>
      split
      next msg rest hread =>
        rw [view_setLink_self]
        exact .read _ hreader hread
      next =>
        -- a frame cut short ends the reader at end of file and blocks it before
        split
        next =>
          rw [view_setLink_self]
          exact .exit _ hspawned
        next => exact .stay _
      next =>
        -- oversize or undecodable
        rw [view_setLink_self]
        exact .exit _ hspawned
  next msg hreader =>
    -- in `send`: through, blocked, or without a receiver
    split
    next hheld =>
      split
      next hroom =>
        rw [view_setLink_self]
        unfold view InboundOutput.enqueuedOn
        rw [decide_eq_true hheld]
        dsimp only
        rw [if_pos rfl]
        exact .enqueue hreader hroom
      next => exact .stay _
    next =>
      rw [view_setLink_self]
      refine .exit _ ?_
      show (sys.link s).reader ≠ .notSpawned
      rw [hreader]
      simp
  next => exact .stay _
  next => exact .stay _

/-- A reader only touches its own connection. -/
theorem reader_other (decode : Decode) {s t : Stream} (h : s ≠ t)
    (fails : Bool) (sys : Inbound kind) :
    (sys.readerStep decode t fails).1.view s = sys.view s
      ∧ (sys.readerStep decode t fails).2.enqueuedOn s = [] := by
  have hlink : ∀ l : Link, (sys.setLink t l).view s = sys.view s :=
    fun l => view_setLink_ne sys h l
  unfold readerStep InboundOutput.enqueuedOn
  dsimp only
  split
  next =>
    split
    next => exact ⟨hlink _, rfl⟩
    next =>
      split
      next => exact ⟨hlink _, rfl⟩
      next =>
        split
        next => exact ⟨hlink _, rfl⟩
        next => exact ⟨rfl, rfl⟩
      next => exact ⟨hlink _, rfl⟩
  next =>
    split
    next =>
      split
      next => exact ⟨hlink _, if_neg (Ne.symm h)⟩
      next => exact ⟨rfl, rfl⟩
    next => exact ⟨hlink _, rfl⟩
  next => exact ⟨rfl, rfl⟩
  next => exact ⟨rfl, rfl⟩

/-- Receiving from the attached connection. -/
theorem linkStep_tryRecv (decode : Decode) {sys : Inbound kind} {s : Stream}
    (hs : sys.channel.state = .connected s) :
    LinkStep decode (sys.view s) (sys.tryRecvStep.1.view s)
      [] [] sys.tryRecvStep.2.message := by
  have hview : sys.view s = (true, sys.link s) := by
    unfold view
    rw [decide_eq_true hs]
  unfold tryRecvStep
  rw [hs]
  dsimp only
  rw [view_setLink_self, hview]
  unfold view SocketChannel.tryRecv poll InboundOutput.message
  rw [hs]
  dsimp only
  cases hinbox : (sys.link s).inbox with
  | cons msg rest =>
      dsimp only
      rw [decide_eq_true hs]
      exact .dequeue hinbox
  | nil =>
      -- an empty inbox stays as it is
      have hsame : { sys.link s with inbox := [] } = sys.link s := by
        rw [← hinbox]
      rw [List.tail_nil, hsame]
      cases hreader : (sys.link s).reader with
      | exited => exact .leave _
      | notSpawned =>
          dsimp only
          rw [decide_eq_true hs]
          exact .stay _
      | reading =>
          dsimp only
          rw [decide_eq_true hs]
          exact .stay _
      | sending msg =>
          dsimp only
          rw [decide_eq_true hs]
          exact .stay _

/-- Receiving from one connection leaves the others alone. -/
theorem tryRecv_other {sys : Inbound kind} {s : Stream}
    (hs : sys.channel.state ≠ .connected s) :
    sys.tryRecvStep.1.view s = sys.view s := by
  unfold tryRecvStep
  split
  next t ht =>
    have hst : s ≠ t := by
      rintro rfl
      exact hs ht
    dsimp only
    rw [view_setLink_ne _ hst]
    unfold view
    rw [decide_eq_false hs]
    dsimp only
    rw [decide_eq_false fun hpost =>
      hs ((sys.channel.tryRecv_frame _).2 s hpost)]
  next => rfl

theorem enqueued_tryRecv (decode : Decode) (sys : Inbound kind)
    (s : Stream) :
    enqueued s ((machine kind decode).stepAt sys .tryRecv) = [] := by
  unfold enqueued
  rw [Mealy.stepAt_output]
  show sys.tryRecvStep.2.enqueuedOn s = []
  unfold tryRecvStep
  split <;> rfl

/-- With no connection attached nothing is returned. -/
theorem message_nil (decode : Decode) {sys : Inbound kind}
    (h : ∀ s, sys.channel.state ≠ .connected s) (ev : InboundEvent) :
    ((machine kind decode).stepAt sys ev).output.message = [] := by
  rw [Mealy.stepAt_output]
  cases ev with
  | reader t fails => exact (readerStep_main decode t fails sys).2
  | tryRecv =>
      show sys.tryRecvStep.2.message = []
      unfold tryRecvStep
      split
      next s hs => exact absurd hs (h s)
      next => rfl
  | arrive => rfl
  | receive => rfl
  | close => rfl
  | waitForClient => rfl
  | connect => rfl
  | write => rfl

/-- **Every step is a link step**, for every connection. -/
theorem step_link (decode : Decode) (sys : Inbound kind) (ev : InboundEvent)
    (s : Stream) :
    LinkStep decode (sys.view s) ((sys.step decode ev).1.view s)
      (arrived s ((machine kind decode).stepAt sys ev))
      (enqueued s ((machine kind decode).stepAt sys ev))
      (returned s ((machine kind decode).stepAt sys ev)) := by
  -- only a reader enqueues, and only `try_recv` returns
  have hquiet : ∀ sys' : Inbound kind,
      (machine kind decode).step sys ev = (sys', .nothing) →
      enqueued s ((machine kind decode).stepAt sys ev) = []
        ∧ returned s ((machine kind decode).stepAt sys ev) = [] := by
    intro sys' h
    unfold enqueued returned
    rw [Mealy.stepAt_output, h]
    exact ⟨rfl, ite_self _⟩
  cases ev with
  | arrive =>
      obtain ⟨henq, hret⟩ := hquiet _ rfl
      rw [henq, hret]
      exact linkStep_channel decode sys id
  | receive t bytes =>
      obtain ⟨henq, hret⟩ := hquiet _ rfl
      rw [henq, hret]
      unfold arrived
      rw [Mealy.stepAt_input]
      dsimp only [step]
      by_cases hts : t = s
      · subst hts
        rw [if_pos rfl, view_setLink_self]
        exact .receive _ _ bytes
      · rw [if_neg hts, view_setLink_ne _ (Ne.symm hts)]
        exact .stay _
  | close t =>
      obtain ⟨henq, hret⟩ := hquiet _ rfl
      rw [henq, hret]
      show LinkStep decode _ ((sys.setLink t _).view s) [] [] []
      by_cases hts : t = s
      · subst hts
        rw [view_setLink_self]
        exact .close _ _
      · rw [view_setLink_ne _ (Ne.symm hts)]
        exact .stay _
  | reader t fails =>
      have hret : returned s
          ((machine kind decode).stepAt sys (.reader t fails)) = [] := by
        unfold returned
        rw [Mealy.stepAt_output]
        show (if _ then (sys.readerStep decode t fails).2.message else []) = []
        rw [(readerStep_main ..).2]
        exact ite_self _
      rw [hret]
      show LinkStep decode _ ((sys.readerStep decode t fails).1.view s) []
        ((sys.readerStep decode t fails).2.enqueuedOn s) []
      -- another connection's reader does not touch this inbox
      by_cases hst : s = t
      · subst hst
        exact linkStep_reader decode s fails sys
      · obtain ⟨hview, henq⟩ := reader_other decode hst fails sys
        rw [hview, henq]
        exact .stay _
  | waitForClient polls =>
      obtain ⟨henq, hret⟩ := hquiet _ rfl
      rw [henq, hret]
      exact linkStep_adopt decode sys _ s
  | connect io =>
      obtain ⟨henq, hret⟩ := hquiet _ rfl
      rw [henq, hret]
      exact linkStep_adopt decode sys _ s
  | write json takes =>
      obtain ⟨henq, hret⟩ := hquiet _ rfl
      rw [henq, hret]
      exact linkStep_write decode json takes sys s
  | tryRecv =>
      rw [enqueued_tryRecv]
      unfold returned
      rw [Mealy.stepAt_pre, Mealy.stepAt_output]
      show LinkStep decode _ (sys.tryRecvStep.1.view s) [] []
        (if _ then sys.tryRecvStep.2.message else [])
      by_cases hs : sys.channel.state = .connected s
      · rw [if_pos hs]
        exact linkStep_tryRecv decode hs
      · rw [if_neg hs, tryRecv_other hs]
        exact .stay _

/-! ## §6. What link steps keep. -/

/-- The message a reader has read and not enqueued; one that has ended may
have lost it. -/
def Holding : ReaderState → List EngineMessage → Prop
  | .notSpawned, held => held = []
  | .reading, held => held = []
  | .sending msg, held => held = [msg]
  | .exited, _ => True

/-- Bytes brought, messages enqueued and messages returned so far, against a
connection as it stands. -/
structure LinkOk (decode : Decode) (v : Bool × Link) (bytes : List UInt8)
    (enq ret : List EngineMessage) : Prop where
  read : ∃ (payloads : List (List UInt8)) (held : List EngineMessage),
    bytes = payloads.flatMap frame ++ v.2.buffer
    ∧ (∀ p ∈ payloads, (acceptPayload decode p).isSome)
    ∧ enq ++ held = payloads.filterMap (acceptPayload decode)
    ∧ Holding v.2.reader held
  silent : v.2.reader = .notSpawned → enq = []
  inOrder : ret <+: enq
  queued : v.1 = true → enq = ret ++ v.2.inbox
  bounded : v.2.inbox.length ≤ INBOX_BOUND

/-- **What was enqueued is what the bytes decode to**, as far as the reader
has come. -/
theorem LinkOk.enqueued_prefix {decode : Decode} {v : Bool × Link}
    {bytes : List UInt8} {enq ret : List EngineMessage}
    (h : LinkOk decode v bytes enq ret) : enq <+: delivered decode bytes := by
  obtain ⟨payloads, held, hbytes, hok, henq, _⟩ := h.read
  rw [delivered_eq, hbytes]
  have hread : bigEndian.readAll (acceptPayload decode)
      (payloads.flatMap frame ++ v.2.buffer) = _ :=
    bigEndian.readAll_append
      (fun p hp => ⟨lt_limit_of_accept (hok p hp), hok p hp⟩) v.2.buffer
  rw [hread, ← henq, List.append_assoc]
  exact List.prefix_append _ _

/-- **A link step keeps the account**; a connection is attached before its
reader exists. -/
theorem LinkOk.step {decode : Decode} {v v' : Bool × Link}
    {bytes b : List UInt8} {enq ret e r : List EngineMessage}
    (h : LinkOk decode v bytes enq ret) (hstep : LinkStep decode v v' b e r)
    (hnew : v.1 = false → v'.1 = true → v.2.reader = .notSpawned) :
    LinkOk decode v' (bytes ++ b) (enq ++ e) (ret ++ r) := by
  obtain ⟨payloads, held, hbytes, hok, henq, hheld⟩ := h.read
  cases hstep with
  | stay =>
      rw [List.append_nil, List.append_nil, List.append_nil]
      exact h
  | leave l =>
      rw [List.append_nil, List.append_nil, List.append_nil]
      exact ⟨h.read, h.silent, h.inOrder, fun hf => absurd hf (by simp),
        h.bounded⟩
  | attach l =>
      -- nothing was enqueued yet, and the reader starts from its first byte
      have hspawn := hnew rfl rfl
      have hsilent := h.silent hspawn
      rw [hspawn] at hheld
      have hret := List.prefix_nil.mp (hsilent ▸ h.inOrder)
      rw [List.append_nil, List.append_nil, List.append_nil]
      refine ⟨⟨payloads, held, hbytes, hok, henq, hheld⟩,
        fun hr => absurd hr (by simp), h.inOrder, fun _ => ?_, Nat.zero_le _⟩
      rw [hsilent, hret]
      rfl
  | receive a l bs =>
      rw [List.append_nil, List.append_nil]
      refine ⟨⟨payloads, held, ?_, hok, henq, hheld⟩, h.silent, h.inOrder,
        h.queued, h.bounded⟩
      rw [hbytes, List.append_assoc]
  | close a l =>
      rw [List.append_nil, List.append_nil, List.append_nil]
      exact ⟨h.read, h.silent, h.inOrder, h.queued, h.bounded⟩
  | @read a l msg rest hreader hread =>
      obtain ⟨p, hnext, hp⟩ := readEngineMessage_eq.mp hread
      obtain ⟨_, hbuffer⟩ := bigEndian.next_eq_some.mp hnext
      rw [hreader] at hheld
      have hnone : held = [] := hheld
      rw [List.append_nil, List.append_nil, List.append_nil]
      refine ⟨⟨payloads ++ [p], [msg], ?_, ?_, ?_, rfl⟩,
        fun hr => absurd hr (by simp), h.inOrder, h.queued, h.bounded⟩
      · rw [hbytes, List.flatMap_append, List.append_assoc]
        dsimp only
        rw [hbuffer, List.flatMap_singleton]
        rfl
      · intro q hq
        rcases List.mem_append.mp hq with hq | hq
        · exact hok q hq
        · rw [List.mem_singleton.mp hq, hp]
          rfl
      · rw [List.filterMap_append, ← henq, hnone, List.append_nil,
          List.filterMap_cons_some hp, List.filterMap_nil]
  | exit a hreader =>
      rw [List.append_nil, List.append_nil, List.append_nil]
      exact ⟨⟨payloads, held, hbytes, hok, henq, trivial⟩,
        fun hr => absurd hr (by simp), h.inOrder, h.queued, h.bounded⟩
  | @enqueue l msg hreader hroom =>
      rw [hreader] at hheld
      have hone : held = [msg] := hheld
      rw [List.append_nil, List.append_nil]
      refine ⟨⟨payloads, [], hbytes, hok, ?_, rfl⟩,
        fun hr => absurd hr (by simp),
        h.inOrder.trans (List.prefix_append _ _), fun hc => ?_, ?_⟩
      · rw [List.append_nil, ← henq, hone]
      · rw [h.queued hc, List.append_assoc]
      · rw [List.length_append]
        exact hroom
  | @dequeue l msg rest hinbox =>
      have hqueued := h.queued rfl
      have hbounded := h.bounded
      dsimp only at hqueued hbounded
      rw [hinbox] at hqueued hbounded
      have hsplit : enq = (ret ++ [msg]) ++ rest := by
        rw [hqueued, List.append_assoc]
        rfl
      rw [List.append_nil, List.append_nil]
      refine ⟨h.read, h.silent, ?_, fun _ => hsplit,
        Nat.le_of_succ_le hbounded⟩
      rw [hsplit]
      exact List.prefix_append _ _

/-! ## §7. Whole runs. -/

/-- A reader exists only for a connection that is or was attached. -/
def Spawned (s : Stream) (sys : Inbound kind) : Prop :=
  (sys.link s).reader ≠ .notSpawned →
    sys.channel.state = .connected s ∨ Retired s sys.channel.conn

/-- A reader appears by an attach only. -/
theorem LinkStep.spawned {decode : Decode} {v v' : Bool × Link}
    {b : List UInt8} {e r : List EngineMessage}
    (h : LinkStep decode v v' b e r) (hreader : v'.2.reader ≠ .notSpawned) :
    v'.1 = true ∨ v.2.reader ≠ .notSpawned := by
  cases h with
  | stay => exact .inr hreader
  | leave => exact .inr hreader
  | attach => exact .inl rfl
  | receive => exact .inr hreader
  | close => exact .inr hreader
  | read held hreading => exact .inr (by rw [hreading]; simp)
  | exit held hspawned => exact .inr hspawned
  | enqueue => exact .inl rfl
  | dequeue => exact .inl rfl

theorem view_held {sys : Inbound kind} {s : Stream} :
    (sys.view s).1 = true ↔ sys.channel.state = .connected s := by
  unfold view
  exact decide_eq_true_iff

/-- One step keeps who has a reader. -/
theorem spawned_step (decode : Decode) {sys : Inbound kind}
    (ev : InboundEvent) {s : Stream} (hfresh : Fresh sys.channel.conn)
    (h : Spawned s sys) : Spawned s (sys.step decode ev).1 := by
  intro hreader
  have hmoves := step_moves decode sys ev
  rcases (step_link decode sys ev s).spawned hreader with hheld | hold
  · exact .inl (view_held.mp hheld)
  · rcases h hold with hs | hs
    · exact Moves.leaves hmoves hfresh hs
    · exact .inr (Moves.retired hmoves hs)

/-- What a run has done to every connection. -/
def Accounted (decode : Decode) (h : List (InboundStep kind))
    (sys : Inbound kind) : Prop :=
  Fresh sys.channel.conn ∧ ∀ s, Spawned s sys
    ∧ LinkOk decode (sys.view s) (h.flatMap (arrived s))
        (h.flatMap (enqueued s)) (h.flatMap (returned s))

theorem accounted_new (decode : Decode) :
    Accounted decode [] (new : Inbound kind) := by
  refine ⟨fresh_new, fun s => ⟨fun hne => absurd rfl hne, ?_⟩⟩
  exact ⟨⟨[], [], rfl, by simp, rfl, rfl⟩, fun _ => rfl, List.nil_prefix,
    fun _ => rfl, Nat.zero_le _⟩

theorem accounted_step (decode : Decode) {h : List (InboundStep kind)}
    {sys : Inbound kind} (ev : InboundEvent) (hacc : Accounted decode h sys) :
    Accounted decode (h ++ [(machine kind decode).stepAt sys ev])
      (sys.step decode ev).1 := by
  obtain ⟨hfresh, hlinks⟩ := hacc
  have hmoves := step_moves decode sys ev
  refine ⟨Moves.fresh hmoves hfresh, fun s => ?_⟩
  obtain ⟨hspawned, hok⟩ := hlinks s
  refine ⟨spawned_step decode ev hfresh hspawned, ?_⟩
  rw [List.flatMap_append, List.flatMap_append, List.flatMap_append,
    List.flatMap_singleton, List.flatMap_singleton, List.flatMap_singleton]
  refine hok.step (step_link decode sys ev s) fun hpre hpost => ?_
  -- attached now, so neither attached nor retired before
  by_contra hreader
  rcases hspawned hreader with hs | hs
  · rw [view_held.mpr hs] at hpre
    exact absurd hpre (by simp)
  · exact (Moves.retired hmoves hs).detached (view_held.mp hpost)

theorem accounted_run (decode : Decode) (events : List InboundEvent) :
    Accounted decode ((machine kind decode).trace new events)
      ((machine kind decode).exec new events) :=
  Mealy.history_of_steps (accounted_new decode)
    (fun _ _ ev hacc => accounted_step decode ev hacc) events

/-- A step that moves messages of a connection finds it attached. -/
theorem LinkStep.idle {decode : Decode} {v v' : Bool × Link}
    {b : List UInt8} {e r : List EngineMessage}
    (h : LinkStep decode v v' b e r) (hheld : v.1 = false) :
    e = [] ∧ r = [] := by
  cases h with
  | enqueue => exact absurd hheld (by simp)
  | dequeue => exact absurd hheld (by simp)
  | stay => exact ⟨rfl, rfl⟩
  | leave => exact ⟨rfl, rfl⟩
  | attach => exact ⟨rfl, rfl⟩
  | receive => exact ⟨rfl, rfl⟩
  | close => exact ⟨rfl, rfl⟩
  | read => exact ⟨rfl, rfl⟩
  | exit => exact ⟨rfl, rfl⟩

/-- **A connection that was left is never attached again**, and no message of
it moves any more. -/
theorem retired_run (decode : Decode) {s : Stream} :
    ∀ (events : List InboundEvent) (sys : Inbound kind),
      Retired s sys.channel.conn →
      ∀ e ∈ (machine kind decode).trace sys events,
        e.pre.channel.state ≠ .connected s
          ∧ enqueued s e = [] ∧ returned s e = []
  | [], _, _, _, he => absurd he List.not_mem_nil
  | ev :: events, sys, hs, e, he => by
      rcases List.mem_cons.mp he with rfl | he
      · refine ⟨hs.detached, (step_link decode sys ev s).idle ?_⟩
        exact decide_eq_false hs.detached
      · exact retired_run decode events _
          (Moves.retired (step_moves decode sys ev) hs) e he

/-- After the step that leaves a connection nothing of it moves. -/
theorem left_for_good (decode : Decode) {events : List InboundEvent}
    {s : Stream} {h₁ t : List (InboundStep kind)} {e : InboundStep kind}
    (htr : (machine kind decode).trace new events = h₁ ++ e :: t)
    (hpre : e.pre.channel.state = .connected s)
    (hpost : e.post.channel.state ≠ .connected s) :
    ∀ e' ∈ t, e'.pre.channel.state ≠ .connected s
      ∧ enqueued s e' = [] ∧ returned s e' = [] := by
  obtain ⟨xs, ev, ys, hxs, rfl, rfl⟩ := Mealy.trace_split _ htr
  have hfresh := (@accounted_run kind decode xs).1
  have htail : t = (machine kind decode).trace
      (((machine kind decode).exec new xs).step decode ev).1 ys := by
    have hall := congrArg ((machine kind decode).trace new) hxs
    rw [Mealy.trace_append] at hall
    exact (List.cons.inj (List.append_cancel_left (htr.symm.trans hall))).2
  rw [htail]
  refine retired_run decode ys _ ?_
  exact (Moves.leaves (step_moves decode _ ev) hfresh hpre).resolve_left hpost

/-- `try_recv` leaves a connection only when its inbox is empty. -/
theorem tryRecv_drained {sys : Inbound kind} {s : Stream}
    (hs : sys.channel.state = .connected s)
    (hpost : sys.tryRecvStep.1.channel.state = .disconnected) :
    (sys.link s).inbox = [] := by
  unfold tryRecvStep at hpost
  rw [hs] at hpost
  change (sys.channel.tryRecv (poll (sys.link s))).1.state = _ at hpost
  unfold SocketChannel.tryRecv at hpost
  rw [hs] at hpost
  dsimp only at hpost
  cases hinbox : (sys.link s).inbox with
  | nil => rfl
  | cons msg rest =>
      -- a message would have been returned
      have hpoll : poll (sys.link s) = .message msg := by
        unfold poll
        rw [hinbox]
      rw [hpoll] at hpost
      exact absurd (hs.symm.trans hpost) (by simp)

/-- **Order and isolation of the inbound channel**, for every interleaving of
readers and main.  While a connection is attached main is returned a prefix of
what its bytes decode to; a connection that was left is never attached again
and nothing of it is returned any more; and `try_recv` leaves a connection
only when everything its reader ever enqueues was returned. -/
theorem inbox_in_order (kind : ChannelKind) (decode : Decode)
    (events : List InboundEvent) (s : Stream) :
    let h := (machine kind decode).trace new events
    h.flatMap (returned s) <+: h.flatMap (enqueued s)
    ∧ h.flatMap (enqueued s) <+: delivered decode (h.flatMap (arrived s))
    ∧ (∀ e ∈ h, e.output.message ≠ [] →
        ∃ t, e.pre.channel.state = .connected t)
    ∧ (∀ h₁ e t, h = h₁ ++ e :: t →
        e.pre.channel.state = .connected s →
        e.post.channel.state ≠ .connected s →
        (∀ e' ∈ t, e'.pre.channel.state ≠ .connected s)
          ∧ t.flatMap (returned s) = [])
    ∧ (∀ h₁ e t, h = h₁ ++ e :: t → e.input = .tryRecv →
        e.pre.channel.state = .connected s →
        e.post.channel.state = .disconnected →
        h₁.flatMap (returned s) = h.flatMap (enqueued s))
    ∧ (((machine kind decode).exec new events).link s).inbox.length
        ≤ INBOX_BOUND := by
  intro h
  have hok := ((@accounted_run kind decode events).2 s).2
  refine ⟨hok.inOrder, hok.enqueued_prefix, ?_, ?_, ?_, hok.bounded⟩
  · intro e he hmsg
    by_contra hnone
    rw [not_exists] at hnone
    obtain ⟨h₁, t, htr⟩ := Mealy.mem_trace_split _ he
    obtain ⟨xs, ev, ys, _, _, rfl⟩ := Mealy.trace_split _ htr
    exact hmsg (message_nil decode hnone ev)
  · intro h₁ e t htr hpre hpost
    have hafter := left_for_good decode htr hpre hpost
    exact ⟨fun e' he => (hafter e' he).1,
      List.flatMap_eq_nil_iff.mpr fun e' he => (hafter e' he).2.2⟩
  · -- it is left only when the inbox is empty and its reader is gone
    intro h₁ e t htr hin hpre hpost
    have hafter := left_for_good decode htr hpre (by rw [hpost]; simp)
    have hrest : t.flatMap (enqueued s) = [] :=
      List.flatMap_eq_nil_iff.mpr fun e' he => (hafter e' he).2.1
    obtain ⟨xs, ev, ys, _, rfl, rfl⟩ := Mealy.trace_split _ htr
    rw [Mealy.stepAt_input] at hin
    subst hin
    have hxs := ((@accounted_run kind decode xs).2 s).2
    have hqueued := hxs.queued (view_held.mpr hpre)
    have hempty : (((machine kind decode).exec new xs).link s).inbox = [] :=
      tryRecv_drained hpre hpost
    change _ = _ ++ (((machine kind decode).exec new xs).link s).inbox
      at hqueued
    rw [hempty, List.append_nil] at hqueued
    rw [htr, List.flatMap_append, List.flatMap_cons, hrest, hqueued,
      enqueued_tryRecv, List.append_nil, List.append_nil]

end Inbound

end ArgusManager
