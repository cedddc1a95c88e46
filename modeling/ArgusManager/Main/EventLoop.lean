/-
  ArgusManager.Main.EventLoop
  ───────────────────────────
  The manager's `main` (`src/main.rs`) over a socket transport: the transport
  is created, the initial signals are evaluated, and the main loop runs.

  A pass of the loop looks for a SIGHUP, drains the engine's messages and takes
  at most one signal.  Each of these is an event here, with what the world
  answers in it; so is a client that connects.  Every order of passes is an
  order of events, and an event sequence that skips a poll is the pass whose
  poll found nothing.

    • `Launch`  — everything fixed before the loop starts,
    • `startup` — the initial evaluation, which emits without the deduplicator,
    • `loop`    — the main loop, one event at a time,
    • `Handles` — everything one signal can do.
-/
import ArgusManager.Channel.Attach
import ArgusManager.Lib.Mealy
import ArgusManager.Pipeline

namespace ArgusManager

variable {σ ω : Type} {kind : ChannelKind}

/-! ## §1. Before the loop. -/

/-- `create_transport` for `unix:` and `tcp:`; `none` while the wait for a
client goes on.  Only the unix transport proceeds without a client. -/
def createTransport (kind : ChannelKind) (clientTimeout : Nat)
    (polls : List SocketChannel.WaitPoll) (shutdown : Bool) :
    Option (Except String (SocketChannel kind)) :=
  match (SocketChannel.new : SocketChannel kind).waitForClient polls with
  | (_, none) => none
  | (channel, some true) => some (.ok channel)
  | (channel, some false) =>
      if shutdown then some (.error "Shutdown during client wait")
      else
        match kind with
        -- "No client connected within timeout, proceeding anyway"
        | .unix => some (.ok channel)
        | .tcp =>
            some (.error s!"TCP: no client connected within {clientTimeout}s")

/-- One call of `process_signal` and of the emit that may follow: the signal,
the instant, and how the world answers. -/
structure SignalCall (ω : Type) where
  world : ω
  signal : SystemSignal
  time : ℚ
  io : EmitIo

/-- A directive and the instant the policy returned it. -/
structure TimedDirective where
  time : ℚ
  directive : EngineDirective
  deriving Repr

/-- A directive handed to `emit_directive`, and what became of it. -/
structure Emission extends TimedDirective where
  report : SocketChannel.EmitReport
  deriving Repr

/-- What one signal led to. -/
structure SignalOutcome where
  returned : Option TimedDirective
  emitted : Option Emission

/-- Everything fixed before the main loop starts. -/
structure Launch (σ ω : Type) (kind : ChannelKind) where
  policy : σ
  transport : SocketChannel kind
  initial : List (SignalCall ω)
  start : ℚ
  cooldownSecs : ℚ

/-- "Emit initial state", for one initial signal: whatever the policy returns
goes straight to the emitter. -/
def startupStep (P : PolicyStrategy σ ω) (codec : Codec)
    (m : σ × SocketChannel kind) (call : SignalCall ω) :
    (σ × SocketChannel kind) × SignalOutcome :=
  match P.processSignal call.world call.signal m.1 with
  | (policy, none) => ((policy, m.2), { returned := none, emitted := none })
  | (policy, some directive) =>
      -- no deduplicator on this path: main creates it for the loop
      let (transport, report) := m.2.emitDirective codec directive call.io
      ((policy, transport),
        { returned := some { time := call.time, directive }
          emitted := some { time := call.time, directive, report } })

def startup (P : PolicyStrategy σ ω) (codec : Codec) :
    Mealy (σ × SocketChannel kind) (SignalCall ω) SignalOutcome :=
  ⟨startupStep P codec⟩

/-! ## §2. The main loop. -/

/-- What the loop keeps between events. -/
structure Manager (σ : Type) (kind : ChannelKind) where
  policy : σ
  dedup : DirectiveDeduplicator
  transport : SocketChannel kind

inductive LoopEvent (ω : Type) where
  /-- The SIGHUP flag was found set. -/
  | sighup (world : ω)
  /-- A client connects to the listening socket. -/
  | connect
  /-- `try_recv_engine_message`. -/
  | tryRecv (poll : InboxPoll)
  /-- `rx.recv_timeout` returned a signal. -/
  | signal (call : SignalCall ω)

/-- How the SIGHUP branch ends, as it logs it. -/
inductive SighupOutcome where
  | reloaded
  | reloadFailed (error : String)
  | noScriptPath
  | notReloadable
  deriving DecidableEq, Repr

inductive LoopOutput where
  | sighup (outcome : SighupOutcome)
  | connected
  | received (msg : Option EngineMessage)
  | signal (outcome : SignalOutcome)

/-- The SIGHUP branch: reload the script the policy runs. -/
def handleSighup (P : PolicyStrategy σ ω) (world : ω) (m : Manager σ kind) :
    Manager σ kind × SighupOutcome :=
  match P.asReloadable with
  | none => (m, .notReloadable)
  | some reloadable =>
      match reloadable.scriptPath m.policy with
      | none => (m, .noScriptPath)
      | some path =>
          -- a failed reload is logged and the loop goes on
          match reloadable.reloadScript world path m.policy with
          | (policy, .error e) => ({ m with policy }, .reloadFailed e)
          | (policy, .ok _) => ({ m with policy }, .reloaded)

/-- One received signal: policy, deduplicator, emitter. -/
def handleSignal (P : PolicyStrategy σ ω) (codec : Codec) (start : ℚ)
    (call : SignalCall ω) (m : Manager σ kind) :
    Manager σ kind × SignalOutcome :=
  match P.processSignal call.world call.signal m.policy with
  | (policy, none) =>
      ({ m with policy }, { returned := none, emitted := none })
  | (policy, some directive) =>
      let returned := some { time := call.time, directive }
      match m.dedup.process directive (call.time - start) with
      | (dedup, none) =>
          ({ m with policy := P.cancelLastObservation policy, dedup },
            { returned, emitted := none })
      | (dedup, some directive) =>
          -- recorded by now, whatever becomes of it on the wire
          let (transport, report) :=
            m.transport.emitDirective codec directive call.io
          ({ policy, dedup, transport },
            { returned
              emitted := some { time := call.time, directive, report } })

/-- One event of the main loop. -/
def loopStep (P : PolicyStrategy σ ω) (codec : Codec) (start : ℚ)
    (m : Manager σ kind) : LoopEvent ω → Manager σ kind × LoopOutput
  | .sighup world =>
      let (m, outcome) := handleSighup P world m
      (m, .sighup outcome)
  | .connect => ({ m with transport := m.transport.arrive }, .connected)
  | .tryRecv poll =>
      match m.transport.tryRecv poll with
      | (transport, some msg) =>
          ({ m with transport, policy := P.updateEngineState msg m.policy },
            .received (some msg))
      | (transport, none) => ({ m with transport }, .received none)
  | .signal call =>
      let (m, outcome) := handleSignal P codec start call m
      (m, .signal outcome)

def loop (P : PolicyStrategy σ ω) (codec : Codec) (start : ℚ) :
    Mealy (Manager σ kind) (LoopEvent ω) LoopOutput :=
  ⟨loopStep P codec start⟩

namespace Launch

/-- The manager as it enters the main loop. -/
def manager (l : Launch σ ω kind) (P : PolicyStrategy σ ω) (codec : Codec) :
    Manager σ kind :=
  let (policy, transport) :=
    (startup P codec).exec (l.policy, l.transport) l.initial
  { policy
    dedup := DirectiveDeduplicator.withCooldown l.cooldownSecs
    transport }

/-- What the initial evaluation led to, signal by signal. -/
def startupOutcomes (l : Launch σ ω kind) (P : PolicyStrategy σ ω)
    (codec : Codec) : List SignalOutcome :=
  (startup P codec).outs (l.policy, l.transport) l.initial

/-- The directives handed to `emit_directive` before the loop. -/
def startupEmissions (l : Launch σ ω kind) (P : PolicyStrategy σ ω)
    (codec : Codec) : List Emission :=
  (l.startupOutcomes P codec).filterMap SignalOutcome.emitted

end Launch

/-! ## §3. What a run of the loop said. -/

abbrev LoopTrace (σ ω : Type) (kind : ChannelKind) :=
  List (Mealy.Step (Manager σ kind) (LoopEvent ω) LoopOutput)

def LoopOutput.returned : LoopOutput → Option TimedDirective
  | .signal outcome => outcome.returned
  | _ => none

def LoopOutput.emitted : LoopOutput → Option Emission
  | .signal outcome => outcome.emitted
  | _ => none

/-- The directives the policy returned in these steps. -/
def returned (h : LoopTrace σ ω kind) : List TimedDirective :=
  Mealy.said LoopOutput.returned h

/-- The directives handed to `emit_directive` in these steps. -/
def emitted (h : LoopTrace σ ω kind) : List Emission :=
  Mealy.said LoopOutput.emitted h

@[simp] theorem returned_nil : returned ([] : LoopTrace σ ω kind) = [] := rfl
@[simp] theorem emitted_nil : emitted ([] : LoopTrace σ ω kind) = [] := rfl

@[simp] theorem returned_concat (h : LoopTrace σ ω kind)
    (e : Mealy.Step (Manager σ kind) (LoopEvent ω) LoopOutput) :
    returned (h ++ [e]) = returned h ++ e.output.returned.toList :=
  Mealy.said_concat _ h e

@[simp] theorem emitted_concat (h : LoopTrace σ ω kind)
    (e : Mealy.Step (Manager σ kind) (LoopEvent ω) LoopOutput) :
    emitted (h ++ [e]) = emitted h ++ e.output.emitted.toList :=
  Mealy.said_concat _ h e

/-! ## §4. What one event can do. -/

/-- An initial signal moves the policy as `process_signal` does. -/
theorem startupStep_policy (P : PolicyStrategy σ ω) (codec : Codec)
    (m : σ × SocketChannel kind) (call : SignalCall ω) :
    (startupStep P codec m call).1.1
      = (P.processSignal call.world call.signal m.1).1 := by
  unfold startupStep
  rcases P.processSignal call.world call.signal m.1 with ⟨policy, _ | d⟩ <;> rfl

/-- **Everything one signal can do** to the manager. -/
inductive Handles (P : PolicyStrategy σ ω) (codec : Codec) (start : ℚ)
    (call : SignalCall ω) (m : Manager σ kind) :
    Manager σ kind → SignalOutcome → Prop where
  /-- The policy returns nothing. -/
  | silent (policy : σ)
      (hpolicy : P.processSignal call.world call.signal m.policy
        = (policy, none)) :
      Handles P codec start call m { m with policy } ⟨none, none⟩
  /-- A recent batch had equal commands. -/
  | suppressed (policy : σ) (d : EngineDirective)
      (hpolicy : P.processSignal call.world call.signal m.policy
        = (policy, some d))
      (last : List EngineCommand) (hlast : m.dedup.lastCommands = some last)
      (hdup : (last == d.commands) = true)
      (hrecent : ∀ t, m.dedup.lastSentAt = some t →
        call.time - start - t < m.dedup.cooldownSecs) :
      Handles P codec start call m
        { m with policy := P.cancelLastObservation policy }
        ⟨some ⟨call.time, d⟩, none⟩
  /-- The directive is recorded and handed to the emitter. -/
  | emitted (policy : σ) (d : EngineDirective)
      (hpolicy : P.processSignal call.world call.signal m.policy
        = (policy, some d))
      (hfree : ∀ last, m.dedup.lastCommands = some last →
        (last == d.commands) = true →
        ∃ t, m.dedup.lastSentAt = some t
          ∧ m.dedup.cooldownSecs ≤ call.time - start - t) :
      Handles P codec start call m
        { policy
          dedup := ⟨some d.commands, some (call.time - start),
            m.dedup.cooldownSecs⟩
          transport := (m.transport.emitDirective codec d call.io).1 }
        ⟨some ⟨call.time, d⟩,
          some ⟨⟨call.time, d⟩,
            (m.transport.emitDirective codec d call.io).2⟩⟩

/-- **The step lemma** of the signal path. -/
theorem handleSignal_spec (P : PolicyStrategy σ ω) (codec : Codec) (start : ℚ)
    (call : SignalCall ω) (m : Manager σ kind) :
    Handles P codec start call m (handleSignal P codec start call m).1
      (handleSignal P codec start call m).2 := by
  unfold handleSignal
  rcases hp : P.processSignal call.world call.signal m.policy with
    ⟨policy, _ | d⟩
  · exact .silent policy hp
  · dsimp only
    rcases m.dedup.process_cases d (call.time - start) with
      ⟨hproc, last, hlast, hdup, hrecent⟩ | ⟨hproc, hfree⟩
    · rw [hproc]
      exact .suppressed policy d hp last hlast hdup hrecent
    · rw [hproc]
      exact .emitted policy d hp hfree

/-- What the policy returned is on the record, whatever became of it. -/
theorem handleSignal_returned (P : PolicyStrategy σ ω) (codec : Codec)
    (start : ℚ) (call : SignalCall ω) (m : Manager σ kind) :
    (handleSignal P codec start call m).2.returned
      = (P.processSignal call.world call.signal m.policy).2.map
          fun d => ⟨call.time, d⟩ := by
  have hspec := handleSignal_spec P codec start call m
  generalize (handleSignal P codec start call m).1 = m' at *
  generalize (handleSignal P codec start call m).2 = o at *
  cases hspec with
  | silent policy hpolicy => rw [hpolicy]; rfl
  | suppressed policy d hpolicy _ _ _ _ => rw [hpolicy]; rfl
  | emitted policy d hpolicy _ => rw [hpolicy]; rfl

/-- A SIGHUP touches the policy only. -/
theorem handleSighup_frame (P : PolicyStrategy σ ω) (world : ω)
    (m : Manager σ kind) :
    (handleSighup P world m).1.dedup = m.dedup
      ∧ (handleSighup P world m).1.transport = m.transport := by
  unfold handleSighup
  split
  next => exact ⟨rfl, rfl⟩
  next =>
    split
    next => exact ⟨rfl, rfl⟩
    next => split <;> exact ⟨rfl, rfl⟩

/-- An event that is no signal says nothing and leaves the deduplicator. -/
theorem loopStep_frame (P : PolicyStrategy σ ω) (codec : Codec) (start : ℚ)
    (m : Manager σ kind) {e : LoopEvent ω} (he : ∀ call, e ≠ .signal call) :
    (loopStep P codec start m e).1.dedup = m.dedup
      ∧ (loopStep P codec start m e).2.returned = none
      ∧ (loopStep P codec start m e).2.emitted = none := by
  cases e with
  | sighup world => exact ⟨(handleSighup_frame P world m).1, rfl, rfl⟩
  | connect => exact ⟨rfl, rfl, rfl⟩
  | tryRecv poll =>
      unfold loopStep
      dsimp only
      split <;> exact ⟨rfl, rfl, rfl⟩
  | signal call => exact absurd rfl (he call)

/-- Nor does it write to a client or attach one. -/
theorem loopStep_transport (P : PolicyStrategy σ ω) (codec : Codec) (start : ℚ)
    (m : Manager σ kind) {e : LoopEvent ω} (he : ∀ call, e ≠ .signal call) :
    (loopStep P codec start m e).1.transport.wire = m.transport.wire
      ∧ ∀ stream,
          (loopStep P codec start m e).1.transport.state = .connected stream →
          m.transport.state = .connected stream := by
  cases e with
  | sighup world =>
      show (handleSighup P world m).1.transport.wire = _ ∧ ∀ stream,
        (handleSighup P world m).1.transport.state = _ → _
      rw [(handleSighup_frame P world m).2]
      exact ⟨rfl, fun _ h => h⟩
  | connect => exact ⟨rfl, fun _ h => h⟩
  | tryRecv poll =>
      have hrecv := SocketChannel.tryRecv_frame m.transport poll
      unfold loopStep
      dsimp only
      split
      next transport msg heq =>
        rw [heq] at hrecv
        exact hrecv
      next transport heq =>
        rw [heq] at hrecv
        exact hrecv
  | signal call => exact absurd rfl (he call)

end ArgusManager
