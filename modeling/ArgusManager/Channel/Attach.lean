/-
  ArgusManager.Channel.Attach
  ───────────────────────────
  **When emitting attaches a pending client.**

  `ensure_connected` looks at the backlog in `Disconnected` only.  A channel
  whose first wait ended without a client is still `Listening`, and main goes
  on with it ("proceeding anyway"), so no later emit ever looks at the
  backlog.

    • `attach_pending_iff` — over every reachable unattached state: an emit
      attaches the pending client exactly when the channel has left
      `Listening`,
    • `listening_iff` — and it leaves `Listening` exactly when a
      `wait_for_client` returns true,
    • `listening_forever` — so without that, every emit of every run drops its
      message.
-/
import ArgusManager.Channel.Socket
import ArgusManager.Lib.Mealy

namespace ArgusManager.SocketChannel

variable {kind : ChannelKind}

/-! ## §1. Runs of a channel. -/

/-- What happens to a channel: clients connect, and main calls it. -/
inductive ChannelOp where
  | connect
  | waitForClient (polls : List WaitPoll)
  | emit (signal : SystemSignal) (io : EmitIo)
  | emitDirective (directive : EngineDirective) (io : EmitIo)
  | tryRecv (poll : InboxPoll)

/-- What main gets to see, and what the call logged. -/
inductive ChannelOutput where
  | nothing
  | waited (result : Option Bool)
  | emitted (report : EmitReport)
  | received (msg : Option EngineMessage)

/-- One operation on the channel. -/
def apply (codec : Codec) (ch : SocketChannel kind) :
    ChannelOp → SocketChannel kind × ChannelOutput
  | .connect => (ch.arrive, .nothing)
  | .waitForClient polls =>
      let (ch, result) := ch.waitForClient polls
      (ch, .waited result)
  | .emit signal io =>
      let (ch, report) := ch.emit codec signal io
      (ch, .emitted report)
  | .emitDirective directive io =>
      let (ch, report) := ch.emitDirective codec directive io
      (ch, .emitted report)
  | .tryRecv poll =>
      let (ch, msg) := ch.tryRecv poll
      (ch, .received msg)

def machine (kind : ChannelKind) (codec : Codec) :
    Mealy (SocketChannel kind) ChannelOp ChannelOutput := ⟨apply codec⟩

/-- The payload of an emitting operation, and how the emit ends. -/
def ChannelOp.payload (codec : Codec) : ChannelOp → Option (List UInt8 × EmitIo)
  | .emit signal io => some (codec.signal signal, io)
  | .emitDirective directive io =>
      some (codec.message (.directive directive), io)
  | _ => none

/-- `emit` and `emit_directive` differ in their payload only. -/
theorem apply_of_payload {codec : Codec} {op : ChannelOp}
    {json : List UInt8} {io : EmitIo}
    (h : op.payload codec = some (json, io)) (ch : SocketChannel kind) :
    ch.apply codec op
      = ((ch.emitBytes json io).1, .emitted (ch.emitBytes json io).2) := by
  cases op with
  | connect => exact absurd h (by simp [ChannelOp.payload])
  | waitForClient polls => exact absurd h (by simp [ChannelOp.payload])
  | tryRecv poll => exact absurd h (by simp [ChannelOp.payload])
  | emit signal io' =>
      injection h with h
      injection h with hj hi
      subst hj hi
      rfl
  | emitDirective directive io' =>
      injection h with h
      injection h with hj hi
      subst hj hi
      rfl

/-! ## §2. Leaving `Listening`. -/

@[simp] theorem iterate_arrive_state (n : Nat) (ch : SocketChannel kind) :
    (Nat.iterate arrive n ch).state = ch.state := by
  induction n generalizing ch with
  | zero => rfl
  | succ n ih => exact ih ch.arrive

/-- A wait that does not return true leaves the connection state alone; one
that does leaves `Listening`. -/
theorem waitForClient_state :
    ∀ (polls : List WaitPoll) (ch : SocketChannel kind),
      ((ch.waitForClient polls).2 ≠ some true →
        (ch.waitForClient polls).1.state = ch.state)
      ∧ ((ch.waitForClient polls).2 = some true →
        (ch.waitForClient polls).1.state ≠ .listening)
  | [], ch => ⟨fun _ => rfl, fun h => absurd h (by simp [waitForClient])⟩
  | w :: ws, ch => by
      rw [waitForClient]
      split
      next => exact ⟨fun _ => iterate_arrive_state _ _, by simp⟩
      next =>
        split
        next listener stream hacc =>
          refine ⟨by simp, fun _ => ?_⟩
          unfold transitionToConnected
          split <;> simp
        next listener hacc =>
          split
          next => exact ⟨fun _ => iterate_arrive_state _ _, by simp⟩
          next =>
            obtain ⟨hne, htrue⟩ :=
              waitForClient_state ws (Nat.iterate arrive w.arrivals ch)
            exact ⟨fun h => (hne h).trans (iterate_arrive_state _ _), htrue⟩
        next => exact ⟨fun _ => iterate_arrive_state _ _, by simp⟩

/-- No emit enters or leaves `Listening`. -/
theorem emitBytes_listening (json : List UInt8) (io : EmitIo)
    (ch : SocketChannel kind) :
    (ch.emitBytes json io).1.state = .listening ↔ ch.state = .listening := by
  by_cases hl : ch.state = .listening
  · have hens : ch.ensureConnected io.attach = ch :=
      ensureConnected_of_ne (by simp [hl]) _
    rw [emitBytes_dropped (by simp [hens, hl]), hens]
  · have hens : (ch.ensureConnected io.attach).state ≠ .listening := by
      unfold ensureConnected
      split
      next hd =>
        split
        next =>
          unfold transitionToConnected
          split <;> simp
        next => exact hl
        next => exact hl
      next => exact hl
    refine iff_of_false ?_ hl
    by_cases hc : ∃ s, (ch.ensureConnected io.attach).state = .connected s
    · obtain ⟨s, hs⟩ := hc
      rw [emitBytes_connected hs]
      split
      next => simp [hs]
      next => simp
    · rw [emitBytes_dropped (not_exists.mp hc)]
      exact hens

/-- **One operation leaves `Listening` exactly by a successful wait**, and
nothing returns to it. -/
theorem apply_listening (codec : Codec) (ch : SocketChannel kind)
    (op : ChannelOp) :
    (ch.apply codec op).1.state = .listening
      ↔ ch.state = .listening
        ∧ (ch.apply codec op).2 ≠ .waited (some true) := by
  cases op with
  | connect => simp [apply, arrive]
  | waitForClient polls =>
      obtain ⟨hne, htrue⟩ := waitForClient_state polls ch
      show (ch.waitForClient polls).1.state = _
        ↔ _ ∧ ChannelOutput.waited (ch.waitForClient polls).2 ≠ _
      by_cases h : (ch.waitForClient polls).2 = some true
      · simp [htrue h, h]
      · rw [hne h]
        simp [h]
  | emit signal io =>
      have hop : (ChannelOp.emit signal io).payload codec
          = some (codec.signal signal, io) := rfl
      rw [apply_of_payload hop ch]
      simp [emitBytes_listening]
  | emitDirective directive io =>
      have hop : (ChannelOp.emitDirective directive io).payload codec
          = some (codec.message (.directive directive), io) := rfl
      rw [apply_of_payload hop ch]
      simp [emitBytes_listening]
  | tryRecv poll =>
      show (ch.tryRecv poll).1.state = _ ↔ _
      unfold tryRecv
      split
      next s hs =>
        cases poll <;> simp [apply, hs]
      next => simp [apply]

/-- **A channel is `Listening` exactly while no wait has returned true.** -/
theorem listening_iff (codec : Codec) (ops : List ChannelOp) :
    ((machine kind codec).exec new ops).state = .listening
      ↔ ∀ o ∈ (machine kind codec).outs new ops, o ≠ .waited (some true) := by
  -- from any state: a channel that has left `Listening` never returns
  have hgen : ∀ (ops : List ChannelOp) (ch : SocketChannel kind),
      ((machine kind codec).exec ch ops).state = .listening
        ↔ ch.state = .listening
          ∧ ∀ o ∈ (machine kind codec).outs ch ops,
              o ≠ .waited (some true) := by
    intro ops
    induction ops with
    | nil => intro ch; simp
    | cons op ops ih =>
        intro ch
        rw [Mealy.exec_cons, ih, Mealy.outs_cons]
        show (ch.apply codec op).1.state = _ ∧ _ ↔ _
        rw [apply_listening]
        simp only [List.forall_mem_cons, and_assoc]
        rfl
  rw [hgen]
  simp [new]

/-! ## §3. Attaching. -/

/-- The emit took the client `c` from the head of the backlog, handed it the
frame as far as it took it, and detached it on a write error. -/
structure Attaches (ch ch' : SocketChannel kind) (c : Stream)
    (rest : List Stream) (json : List UInt8) (takes : Option Nat) : Prop where
  accepted : ch'.listener.backlog = rest
  handed : ch'.wire c = ch.wire c ++ (writeAll (frame json) takes).1
  state : ch'.state =
    if (writeAll (frame json) takes).2 then .connected c else .disconnected

/-- **Emitting attaches a pending client exactly outside `Listening`**: in
every reachable unattached state with a client pending, and with `accept` and
`try_clone` succeeding. -/
theorem attach_pending_iff (codec : Codec) (ops : List ChannelOp)
    (op : ChannelOp) (json : List UInt8) (io : EmitIo) (c : Stream)
    (rest : List Stream)
    (hop : op.payload codec = some (json, io))
    (hun : ((machine kind codec).exec new ops).isConnected = false)
    (hback : ((machine kind codec).exec new ops).listener.backlog = c :: rest)
    (hacc : io.attach.acceptFails = false)
    (hclone : io.attach.cloneFails = false) :
    Attaches ((machine kind codec).exec new ops)
        (((machine kind codec).exec new ops).apply codec op).1
        c rest json io.takes
      ↔ ((machine kind codec).exec new ops).state ≠ .listening := by
  generalize (machine kind codec).exec new ops = ch at *
  rw [apply_of_payload hop]
  constructor
  · -- from `Listening` the backlog is left as it was
    intro hatt hl
    have hens : ch.ensureConnected io.attach = ch :=
      ensureConnected_of_ne (by simp [hl]) _
    have hacc' := hatt.accepted
    rw [emitBytes_dropped (by simp [hens, hl]), hens] at hacc'
    have hlen := congrArg List.length (hback.symm.trans hacc')
    simp at hlen
  · -- an unattached channel that is not `Listening` is `Disconnected`
    intro hl
    have hd : ch.state = .disconnected := by
      cases hs : ch.state with
      | listening => exact absurd hs hl
      | connected s => simp [isConnected, hs] at hun
      | disconnected => rfl
    have hens := ensureConnected_attach hd hback hacc hclone
    have hc : (ch.ensureConnected io.attach).state = .connected c := by
      rw [hens]
    rw [emitBytes_connected hc, hens]
    by_cases hok : (writeAll (frame json) io.takes).2 = true
    · rw [if_pos hok]
      exact ⟨rfl, by simp, by simp [hok]⟩
    · rw [if_neg hok]
      exact ⟨rfl, by simp [push], by simp [hok]⟩

/-- **A channel whose waits all fail never sends anything**: every emit drops
its message, whoever is pending. -/
theorem listening_forever (codec : Codec) (ops : List ChannelOp)
    (op : ChannelOp) (json : List UInt8) (io : EmitIo)
    (hop : op.payload codec = some (json, io))
    (hwait : ∀ o ∈ (machine kind codec).outs new ops,
      o ≠ .waited (some true)) :
    ((machine kind codec).exec new ops).apply codec op
      = ((machine kind codec).exec new ops, .emitted .dropped) := by
  have hl := (listening_iff codec ops).mpr hwait
  have hens : ((machine kind codec).exec new ops).ensureConnected io.attach
      = (machine kind codec).exec new ops :=
    ensureConnected_of_ne (by simp [hl]) _
  rw [apply_of_payload hop, emitBytes_dropped (by simp [hens, hl]), hens]

/-! ## §4. Fixed runs. -/

/-- A codec that writes one byte per message. -/
def byteCodec : Codec where
  message := fun _ => [1]
  signal := fun _ => [2]

def restoreDirective : EngineDirective :=
  { seqId := 1, commands := [.restoreDefaults] }

/-- A client is accepted, its reader ends, and another one connects: the next
directive attaches it. -/
theorem attach_pending_after_reader_end :
    Attaches
      ((machine .tcp byteCodec).exec new
        [.connect,
          .waitForClient [⟨0, false, ⟨false, false⟩, false⟩],
          .tryRecv .disconnected, .connect])
      (((machine .tcp byteCodec).exec new
        [.connect,
          .waitForClient [⟨0, false, ⟨false, false⟩, false⟩],
          .tryRecv .disconnected, .connect]).apply byteCodec
        (.emitDirective restoreDirective .allOk)).1
      1 [] [1] none :=
  (attach_pending_iff byteCodec
    [.connect, .waitForClient [⟨0, false, ⟨false, false⟩, false⟩],
      .tryRecv .disconnected, .connect]
    (.emitDirective restoreDirective .allOk) [1] .allOk 1 []
    rfl rfl rfl rfl rfl).mpr (by decide)

/-- The first wait times out, then a client connects: the directive that
follows leaves it in the backlog, on either kind of channel. -/
theorem pending_client_left_unaccepted :
    ¬ ∀ (kind : ChannelKind) (codec : Codec) (ops : List ChannelOp)
        (op : ChannelOp) (json : List UInt8) (io : EmitIo) (c : Stream)
        (rest : List Stream),
        op.payload codec = some (json, io) →
        ((machine kind codec).exec new ops).isConnected = false →
        ((machine kind codec).exec new ops).listener.backlog = c :: rest →
        io.attach.acceptFails = false → io.attach.cloneFails = false →
        Attaches ((machine kind codec).exec new ops)
          (((machine kind codec).exec new ops).apply codec op).1
          c rest json io.takes := by
  intro h
  have hatt := h .unix byteCodec
    [.waitForClient [⟨0, false, ⟨false, false⟩, true⟩], .connect]
    (.emitDirective restoreDirective .allOk) [1] .allOk 0 []
    rfl rfl rfl rfl rfl
  exact absurd hatt.accepted (by decide)

end ArgusManager.SocketChannel
