/-
  ArgusManager.Channel.Socket
  ───────────────────────────
  The bidirectional engine channel.  `UnixSocketChannel`
  (`src/channel/unix_socket.rs`) and `TcpChannel` (`src/channel/tcp.rs`) are
  the same state machine over two kinds of listener, so they are one
  definition here, indexed by the kind.

      Listening    ──(accept)───────────→ Connected
      Connected    ──(write err)─────────→ Disconnected
      Connected    ──(inbox Disconnected)→ Disconnected
      Disconnected ──(try_accept)────────→ Connected

  What the kernel answers is part of the input: whether `accept` and
  `try_clone` fail, after how many bytes a write fails, and what the inbox
  holds.  Clients get a fresh `Stream` each when they enter the backlog, so a
  connection is never attached twice.
-/
import ArgusManager.Shared
import ArgusManager.Signal
import Mathlib.Logic.Function.Iterate

namespace ArgusManager

/-! ## §1. The kernel's side. -/

inductive ChannelKind where
  | unix
  | tcp
  deriving DecidableEq, Repr

/-- One accepted or pending client connection. -/
abbrev Stream := Nat

/-- The listening socket: the clients waiting to be accepted, oldest first. -/
structure Listener where
  backlog : List Stream
  nextStream : Stream
  deriving DecidableEq, Repr

/-- `listener.accept()` on a non-blocking listener. -/
inductive AcceptResult where
  | ok (stream : Stream)
  | wouldBlock
  | error
  deriving DecidableEq, Repr

/-- `fails` is an error other than `WouldBlock`. -/
def Listener.accept (l : Listener) (fails : Bool) : Listener × AcceptResult :=
  if fails then (l, .error)
  else
    match l.backlog with
    | [] => (l, .wouldBlock)
    | stream :: rest => ({ l with backlog := rest }, .ok stream)

/-- A client connects: it waits in the backlog. -/
def Listener.arrive (l : Listener) : Listener where
  backlog := l.backlog ++ [l.nextStream]
  nextStream := l.nextStream + 1

/-- How accepting a client ends. -/
structure AttachIo where
  acceptFails : Bool
  cloneFails : Bool
  deriving DecidableEq, Repr

/-- How one emit ends: the attach it may try, and the number of bytes the
connection still takes before a write fails (`none`: no failure). -/
structure EmitIo where
  attach : AttachIo
  takes : Option Nat
  deriving DecidableEq, Repr

/-- Every call succeeds. -/
def EmitIo.allOk : EmitIo where
  attach := { acceptFails := false, cloneFails := false }
  takes := none

/-- `write_all(bytes)` on a connection that takes so many more bytes: what was
handed over, and whether it succeeded. -/
def writeAll (bytes : List UInt8) : Option Nat → List UInt8 × Bool
  | none => (bytes, true)
  | some n =>
      if n < bytes.length then (bytes.take n, false) else (bytes, true)

/-- `inbox.try_recv()`. -/
inductive InboxPoll where
  | message (msg : EngineMessage)
  | empty
  | disconnected

/-- A write that succeeds hands over everything. -/
theorem writeAll_complete {bytes : List UInt8} {takes : Option Nat}
    (h : (writeAll bytes takes).2 = true) :
    (writeAll bytes takes).1 = bytes := by
  unfold writeAll at *
  cases takes with
  | none => rfl
  | some n =>
      dsimp only at *
      split at h
      next => exact absurd h (by simp)
      next hn => rw [if_neg hn]

/-- Two writes in a row are one write of both. -/
theorem writeAll_append (xs ys : List UInt8) (takes : Option Nat) :
    (writeAll (xs ++ ys) takes) =
      if (writeAll xs takes).2 then
        ((writeAll xs takes).1 ++ (writeAll ys (takes.map (· - xs.length))).1,
          (writeAll ys (takes.map (· - xs.length))).2)
      else writeAll xs takes := by
  cases takes with
  | none => simp [writeAll]
  | some n =>
      by_cases hx : n < xs.length
      · have hxy : n < (xs ++ ys).length := by
          rw [List.length_append]
          omega
        simp only [writeAll, if_pos hx, if_pos hxy, Bool.false_eq_true,
          if_false]
        rw [List.take_append_of_le_length (Nat.le_of_lt hx)]
      · by_cases hy : n - xs.length < ys.length
        · have hxy : n < (xs ++ ys).length := by
            rw [List.length_append]
            omega
          simp only [writeAll, Option.map_some, if_neg hx, if_pos hy,
            if_pos hxy, if_true]
          rw [List.take_append, List.take_of_length_le (Nat.not_lt.mp hx)]
        · have hxy : ¬ n < (xs ++ ys).length := by
            rw [List.length_append]
            omega
          simp [writeAll, hx, hy]
          omega

/-! ## §2. The channel. -/

/-- `ConnectionState` / `TcpConnectionState`.  Writer, inbox and reader of a
connection belong to one accepted stream. -/
inductive ConnectionState where
  | listening
  | connected (stream : Stream)
  | disconnected
  deriving DecidableEq, Repr

/-- The channel with its listener, and the bytes handed to every connection
so far. -/
structure SocketChannel (kind : ChannelKind) where
  listener : Listener
  state : ConnectionState
  wire : Stream → List UInt8

abbrev UnixSocketChannel := SocketChannel .unix
abbrev TcpChannel := SocketChannel .tcp

/-- `serde_json::to_vec` on the two kinds of outbound message. -/
structure Codec where
  message : ManagerMessage → List UInt8
  signal : SystemSignal → List UInt8

/-- `(len as u32).to_be_bytes()`. -/
def lenBytes (len : Nat) : List UInt8 :=
  let n := UInt32.ofNat len
  [(n >>> 24).toUInt8, (n >>> 16).toUInt8, (n >>> 8).toUInt8, n.toUInt8]

/-- A length-prefixed payload. -/
def frame (json : List UInt8) : List UInt8 := lenBytes json.length ++ json

namespace SocketChannel

variable {kind : ChannelKind}

/-- `new`: bound and listening, no client. -/
def new : SocketChannel kind where
  listener := { backlog := [], nextStream := 0 }
  state := .listening
  wire := fun _ => []

/-- A client connects to the listening socket. -/
def arrive (ch : SocketChannel kind) : SocketChannel kind :=
  { ch with listener := ch.listener.arrive }

def isConnected (ch : SocketChannel kind) : Bool :=
  match ch.state with
  | .connected _ => true
  | _ => false

/-- `transition_to_connected`; a failing `try_clone` drops the stream. -/
def transitionToConnected (ch : SocketChannel kind) (stream : Stream)
    (cloneFails : Bool) : SocketChannel kind :=
  if cloneFails then { ch with state := .disconnected }
  else { ch with state := .connected stream }

/-- One round of the waiting loop: clients that connected since the last, the
shutdown flag, how the accept ends, and whether the timeout has passed. -/
structure WaitPoll where
  arrivals : Nat
  shutdown : Bool
  attach : AttachIo
  timedOut : Bool

/-- `wait_for_client`; `none` while the rounds have not ended the loop. -/
def waitForClient : List WaitPoll → SocketChannel kind →
    SocketChannel kind × Option Bool
  | [], ch => (ch, none)
  | w :: ws, ch =>
      let ch := Nat.iterate arrive w.arrivals ch
      if w.shutdown then (ch, some false)
      else
        match ch.listener.accept w.attach.acceptFails with
        | (listener, .ok stream) =>
            (({ ch with listener } : SocketChannel kind).transitionToConnected
              stream w.attach.cloneFails, some true)
        | (_, .wouldBlock) =>
            if w.timedOut then (ch, some false) else waitForClient ws ch
        | (_, .error) => (ch, some false)

/-- `ensure_connected`: try to accept, from `Disconnected` only. -/
def ensureConnected (io : AttachIo) (ch : SocketChannel kind) :
    SocketChannel kind :=
  match ch.state with
  | .disconnected =>
      match ch.listener.accept io.acceptFails with
      | (listener, .ok stream) =>
          ({ ch with listener } : SocketChannel kind).transitionToConnected
            stream io.cloneFails
      | (_, .wouldBlock) => ch
      | (_, .error) => ch
  -- `Listening` too: only `wait_for_client` accepts from there
  | _ => ch

/-- Hand bytes to a connection. -/
def push (ch : SocketChannel kind) (stream : Stream) (bytes : List UInt8) :
    SocketChannel kind :=
  { ch with wire := Function.update ch.wire stream (ch.wire stream ++ bytes) }

/-- Why a message was not written. -/
inductive WriteError where
  /-- "No client connected" -/
  | notConnected
  | io
  deriving DecidableEq, Repr

/-- `write_manager_message` and `write_signal` after serialization: length
prefix, payload, and a flush that does nothing on a socket. -/
def writeFrame (json : List UInt8) (takes : Option Nat)
    (ch : SocketChannel kind) : SocketChannel kind × Except WriteError Unit :=
  match ch.state with
  | .connected stream =>
      let len := lenBytes json.length
      match writeAll len takes with
      | (sent, false) => (ch.push stream sent, .error .io)
      | (sent, true) =>
          let ch := ch.push stream sent
          -- the header has used up part of what the connection takes
          match writeAll json (takes.map (· - len.length)) with
          | (sent, false) => (ch.push stream sent, .error .io)
          | (sent, true) => (ch.push stream sent, .ok ())
  | _ => (ch, .error .notConnected)

/-- What became of a message.  The caller sees `Ok(())` in every case. -/
inductive EmitReport where
  | dropped
  | failed (stream : Stream)
  | written (stream : Stream)
  deriving DecidableEq, Repr

/-- The common body of `emit` and `emit_directive`. -/
def emitBytes (json : List UInt8) (io : EmitIo) (ch : SocketChannel kind) :
    SocketChannel kind × EmitReport :=
  let ch := ch.ensureConnected io.attach
  match ch.state with
  | .connected stream =>
      match ch.writeFrame json io.takes with
      | (ch, .error _) => ({ ch with state := .disconnected }, .failed stream)
      | (ch, .ok _) => (ch, .written stream)
  | _ => (ch, .dropped)

/-- `Emitter::emit`. -/
def emit (codec : Codec) (signal : SystemSignal) (io : EmitIo)
    (ch : SocketChannel kind) : SocketChannel kind × EmitReport :=
  ch.emitBytes (codec.signal signal) io

/-- `Emitter::emit_directive`. -/
def emitDirective (codec : Codec) (directive : EngineDirective) (io : EmitIo)
    (ch : SocketChannel kind) : SocketChannel kind × EmitReport :=
  ch.emitBytes (codec.message (.directive directive)) io

/-- `EngineReceiver::try_recv`. -/
def tryRecv (poll : InboxPoll) (ch : SocketChannel kind) :
    SocketChannel kind × Option EngineMessage :=
  match ch.state with
  | .connected _ =>
      match poll with
      | .message msg => (ch, some msg)
      | .empty => (ch, none)
      | .disconnected => ({ ch with state := .disconnected }, none)
  | _ => (ch, none)

/-! ## §3. What each operation can do. -/

@[simp] theorem push_state (ch : SocketChannel kind) (stream : Stream)
    (bytes : List UInt8) : (ch.push stream bytes).state = ch.state := rfl

@[simp] theorem push_listener (ch : SocketChannel kind) (stream : Stream)
    (bytes : List UInt8) : (ch.push stream bytes).listener = ch.listener := rfl

@[simp] theorem push_wire_self (ch : SocketChannel kind) (stream : Stream)
    (bytes : List UInt8) :
    (ch.push stream bytes).wire stream = ch.wire stream ++ bytes := by
  simp [push]

@[simp] theorem push_push (ch : SocketChannel kind) (stream : Stream)
    (xs ys : List UInt8) :
    (ch.push stream xs).push stream ys = ch.push stream (xs ++ ys) := by
  simp [push]

/-- **Writing a frame is one write of its bytes**: header and payload are
handed over as far as the connection takes them. -/
theorem writeFrame_connected {ch : SocketChannel kind} {stream : Stream}
    (h : ch.state = .connected stream) (json : List UInt8)
    (takes : Option Nat) :
    ch.writeFrame json takes
      = (ch.push stream (writeAll (frame json) takes).1,
          if (writeAll (frame json) takes).2 then .ok () else .error .io) := by
  unfold writeFrame frame
  rw [h, writeAll_append]
  dsimp only
  split
  next sent hsent => simp [hsent]
  next sent hsent =>
    rw [hsent]
    dsimp only
    split
    next sent' hsent' => simp [hsent']
    next sent' hsent' => simp [hsent']

/-- `ensure_connected` acts in `Disconnected` only. -/
theorem ensureConnected_of_ne {ch : SocketChannel kind}
    (h : ch.state ≠ .disconnected) (io : AttachIo) :
    ch.ensureConnected io = ch := by
  unfold ensureConnected
  split
  next hd => exact absurd hd h
  next => rfl

/-- From `Disconnected`, a pending client that can be accepted and cloned is
attached. -/
theorem ensureConnected_attach {ch : SocketChannel kind} {io : AttachIo}
    {stream : Stream} {rest : List Stream}
    (hd : ch.state = .disconnected)
    (hb : ch.listener.backlog = stream :: rest)
    (ha : io.acceptFails = false) (hc : io.cloneFails = false) :
    ch.ensureConnected io
      = { ch with
          listener := { ch.listener with backlog := rest }
          state := .connected stream } := by
  simp [ensureConnected, hd, Listener.accept, ha, hb, transitionToConnected,
    hc]

/-- An unattached channel that stays unattached drops the message. -/
theorem emitBytes_dropped {ch : SocketChannel kind} {io : EmitIo}
    {json : List UInt8}
    (h : ∀ stream, (ch.ensureConnected io.attach).state ≠ .connected stream) :
    ch.emitBytes json io = (ch.ensureConnected io.attach, .dropped) := by
  unfold emitBytes
  dsimp only
  split
  next stream hs => exact absurd hs (h stream)
  next => rfl

/-- With a client attached the frame is handed over, and a write error
detaches the client. -/
theorem emitBytes_connected {ch : SocketChannel kind} {io : EmitIo}
    {json : List UInt8} {stream : Stream}
    (h : (ch.ensureConnected io.attach).state = .connected stream) :
    ch.emitBytes json io =
      if (writeAll (frame json) io.takes).2 then
        ((ch.ensureConnected io.attach).push stream
          (writeAll (frame json) io.takes).1, .written stream)
      else
        ({ (ch.ensureConnected io.attach).push stream
            (writeAll (frame json) io.takes).1 with
            state := .disconnected }, .failed stream) := by
  unfold emitBytes
  dsimp only
  rw [h]
  dsimp only
  rw [writeFrame_connected h]
  by_cases hok : (writeAll (frame json) io.takes).2 = true <;> simp [hok]

/-- **After an emit the attached client is the one just written to**, and the
frame is the last thing it was handed. -/
theorem emitBytes_attached {ch : SocketChannel kind} {io : EmitIo}
    {json : List UInt8} {stream : Stream}
    (h : (ch.emitBytes json io).1.state = .connected stream) :
    (ch.emitBytes json io).2 = .written stream
      ∧ frame json <:+ (ch.emitBytes json io).1.wire stream := by
  by_cases hc : ∃ s, (ch.ensureConnected io.attach).state = .connected s
  · obtain ⟨s, hs⟩ := hc
    rw [emitBytes_connected hs] at h ⊢
    split at h
    next hok =>
      rw [if_pos hok]
      rw [push_state, hs] at h
      injection h with h
      subst h
      refine ⟨rfl, ?_⟩
      rw [push_wire_self, writeAll_complete hok]
      exact List.suffix_append _ _
    next hok => exact absurd h (by simp)
  · rw [not_exists] at hc
    rw [emitBytes_dropped hc] at h
    exact absurd h (hc stream)

/-- Receiving attaches nobody and writes nothing. -/
theorem tryRecv_frame (ch : SocketChannel kind) (poll : InboxPoll) :
    (ch.tryRecv poll).1.wire = ch.wire
      ∧ ∀ stream, (ch.tryRecv poll).1.state = .connected stream →
          ch.state = .connected stream := by
  unfold tryRecv
  split
  next s hs =>
    split
    next => exact ⟨rfl, fun _ h => h⟩
    next => exact ⟨rfl, fun _ h => h⟩
    next => exact ⟨rfl, fun _ h => absurd h (by simp)⟩
  next => exact ⟨rfl, fun _ h => h⟩

end SocketChannel

end ArgusManager
