/-
  ArgusManager.Sim.Twin
  ─────────────────────
  **Every run of the simulator is a run of `main`.**

  `Simulator::tick` (`src/sim/harness.rs`) has its own copy of what `main`
  (`src/main.rs`) does with signals and heartbeats: policy, deduplicator, and
  what follows from a directive.  Its events are `main`'s, taken at the
  instants of the virtual clock; the client that `main` writes to is the
  simulated engine.

    • `Drives`  — a policy of the simulator that is one of `main`,
    • `Told`    — what both logs tell: heartbeats, signals and directives,
    • `Twin`    — `main` after these events stands where the simulator stands,
    • `simulator_runs_main` — after any calls, such events exist.
-/
import ArgusManager.Main.EventLoop
import ArgusManager.Sim.Replay

namespace ArgusManager

variable {σ : Type} {kind : ChannelKind}

/-! ## §1. The same policy. -/

/-- The simulator's policy does what `P` does, where the instant of the virtual
clock is what `P` asks the world for; only `process_signal` looks at it, and
inspecting the policy leaves it alone. -/
structure SimPolicy.Drives (p : SimPolicy σ) (P : PolicyStrategy σ Nat) :
    Prop where
  processSignal : ∀ now sig s,
    (p.strategy now).processSignal () sig s = P.processSignal now sig s
  updateEngineState : ∀ now msg s,
    (p.strategy now).updateEngineState msg s = P.updateEngineState msg s
  cancelLastObservation : ∀ now s,
    (p.strategy now).cancelLastObservation s = P.cancelLastObservation s
  inspects : ∀ now s, (p.getObservationOverrunCount now s).1 = s

/-! ## §2. What both logs tell. -/

inductive Told where
  | heartbeat (message : EngineMessageDump)
  | signal (atS : ℚ) (signal : SignalDump)
  | directive (atS : ℚ) (trigger : SignalDump) (directive : DirectiveDump)

/-- What an entry of the simulator's log tells; the rest is the simulator's
own. -/
def TrajectoryEntry.told? {ψ : Type} : TrajectoryEntry ψ → Option Told
  | .heartbeat _ message => some (.heartbeat message)
  | .signal atS dump => some (.signal atS dump)
  | .directive atS trigger dir => some (.directive atS trigger dir)
  | _ => none

abbrev TwinStep (σ : Type) (kind : ChannelKind) :=
  Mealy.Step (Manager σ kind) (LoopEvent Nat) LoopOutput

/-- What a step of `main` tells: a message it received, or a signal behind the
directive that was emitted for it. -/
def told (e : TwinStep σ kind) : List Told :=
  match e.input, e.output with
  | .tryRecv _, .received (some msg) => [.heartbeat (.fromMsg msg)]
  | .signal call, .signal outcome =>
      (outcome.emitted.toList.map fun em =>
          .directive em.time (.fromSignal call.signal)
            (.fromDirective em.directive))
        ++ [.signal call.time (.fromSignal call.signal)]
  | _, _ => []

/-- The commands of the directives emitted in these steps. -/
def emittedCommands (h : List (TwinStep σ kind)) : List EngineCommand :=
  (emitted h).flatMap fun em => em.directive.commands

theorem emittedCommands_concat (h : List (TwinStep σ kind))
    (e : TwinStep σ kind) :
    emittedCommands (h ++ [e])
      = emittedCommands h
        ++ e.output.emitted.toList.flatMap fun em =>
            em.directive.commands := by
  unfold emittedCommands
  rw [emitted_concat, List.flatMap_append]

/-! ## §3. `main` with a client that takes everything. -/

theorem emitDirective_attached {ch : SocketChannel kind} {s : Stream}
    (h : ch.state = .connected s) (codec : Codec) (d : EngineDirective) :
    (ch.emitDirective codec d .allOk).1.state = .connected s
      ∧ (ch.emitDirective codec d .allOk).2 = .written s := by
  have hconn : ch.ensureConnected EmitIo.allOk.attach = ch :=
    SocketChannel.ensureConnected_of_ne (by rw [h]; simp) _
  have hstate : (ch.ensureConnected EmitIo.allOk.attach).state
      = .connected s := by
    rw [hconn]
    exact h
  unfold SocketChannel.emitDirective
  rw [SocketChannel.emitBytes_connected hstate, hconn]
  exact ⟨h, rfl⟩

namespace Simulator

variable {π ψ ρ κ : Type}

/-! ## §4. One event. -/

/-- **`main` stands where the simulator stands**, after these events: the same
policy and deduplicator, the same log, everything emitted is written to its
client, and the simulated engine is what the emitted commands make of it. -/
structure Twin (P : PolicyStrategy σ Nat) (codec : Codec)
    (m : Manager σ kind) (s : Stream) (start : EngineStateModel)
    (sim : Simulator π ψ σ ρ κ) (events : List (LoopEvent Nat)) : Prop where
  policy : ((loop P codec 0).exec m events).policy = sim.policy
  dedup : ((loop P codec 0).exec m events).dedup = sim.dedup
  attached : ((loop P codec 0).exec m events).transport.state = .connected s
  log : ((loop P codec 0).trace m events).flatMap told
    = sim.trajectory.filterMap TrajectoryEntry.told?
  written : ∀ em ∈ emitted ((loop P codec 0).trace m events),
    em.report = .written s
  engine : sim.engine
    = (emittedCommands ((loop P codec 0).trace m events)).foldl
        EngineStateModel.applyCommand start

variable {P : PolicyStrategy σ Nat} {codec : Codec} {m : Manager σ kind}
  {s : Stream} {start : EngineStateModel} {sim sim' : Simulator π ψ σ ρ κ}
  {events : List (LoopEvent Nat)}

/-- What the simulator does beside is nothing to `main`. -/
theorem Twin.congr (h : Twin P codec m s start sim events)
    (hpolicy : sim'.policy = sim.policy) (hdedup : sim'.dedup = sim.dedup)
    (hengine : sim'.engine = sim.engine)
    (hlog : sim'.trajectory.filterMap TrajectoryEntry.told?
      = sim.trajectory.filterMap TrajectoryEntry.told?) :
    Twin P codec m s start sim' events where
  policy := h.policy.trans hpolicy.symm
  dedup := h.dedup.trans hdedup.symm
  attached := h.attached
  log := h.log.trans hlog.symm
  written := h.written
  engine := hengine.trans h.engine

theorem told?_concat {entry : TrajectoryEntry ψ} (h : entry.told? = none)
    (t : Trajectory ψ) :
    (t ++ [entry]).filterMap TrajectoryEntry.told?
      = t.filterMap TrajectoryEntry.told? := by
  rw [List.filterMap_append, List.filterMap_cons_none h, List.filterMap_nil,
    List.append_nil]

/-- An entry of the simulator's own. -/
theorem Twin.note (h : Twin P codec m s start sim events)
    {entry : TrajectoryEntry ψ} (hentry : entry.told? = none) :
    Twin P codec m s start (sim.record entry) events :=
  h.congr rfl rfl rfl (told?_concat hentry sim.trajectory)

/-- **One event of `main`** carries on, if it leads where the simulator went
and tells what the simulator recorded. -/
theorem Twin.next (h : Twin P codec m s start sim events)
    {e : LoopEvent Nat} {m' : Manager σ kind} {out : LoopOutput}
    (entries : Trajectory ψ)
    (hstep : loopStep P codec 0 ((loop P codec 0).exec m events) e = (m', out))
    (hpolicy : m'.policy = sim'.policy) (hdedup : m'.dedup = sim'.dedup)
    (hattached : m'.transport.state = .connected s)
    (htold : told (⟨(loop P codec 0).exec m events, e, out, m'⟩
      : TwinStep σ kind) = entries.filterMap TrajectoryEntry.told?)
    (hlog : sim'.trajectory = sim.trajectory ++ entries)
    (hwritten : ∀ em ∈ out.emitted, em.report = .written s)
    (hengine : sim'.engine = (out.emitted.toList.flatMap fun em =>
      em.directive.commands).foldl EngineStateModel.applyCommand sim.engine) :
    Twin P codec m s start sim' (events ++ [e]) := by
  have hexec : (loop P codec 0).exec m (events ++ [e]) = m' := by
    rw [Mealy.exec_append]
    exact congrArg Prod.fst hstep
  have htrace : (loop P codec 0).trace m (events ++ [e])
      = (loop P codec 0).trace m events
        ++ [⟨(loop P codec 0).exec m events, e, out, m'⟩] := by
    rw [Mealy.trace_append]
    show _ ++ [(loop P codec 0).stepAt _ e] = _
    unfold Mealy.stepAt
    rw [show (loop P codec 0).step ((loop P codec 0).exec m events) e
      = (m', out) from hstep]
  constructor
  · rw [hexec]
    exact hpolicy
  · rw [hexec]
    exact hdedup
  · rw [hexec]
    exact hattached
  · rw [htrace, List.flatMap_append, List.flatMap_singleton, h.log, htold,
      hlog, List.filterMap_append]
  · rw [htrace, emitted_concat]
    intro em hem
    rcases List.mem_append.mp hem with hem | hem
    · exact h.written em hem
    · exact hwritten em (Option.mem_toList.mp hem)
  · rw [htrace, emittedCommands_concat, List.foldl_append, ← h.engine]
    exact hengine

variable (env : Scenario π ψ σ ρ κ)

/-- A heartbeat is a message that `main` receives. -/
theorem Twin.heartbeat (h : Twin P codec m s start sim events)
    (hP : env.policy.Drives P) (dueAt : Nat) :
    ∃ e, Twin P codec m s start (processHeartbeat env dueAt sim)
      (events ++ [e]) := by
  let msg := (env.plant.deriveHeartbeat sim.state sim.engine sim.rng).2
  have hrecv : ((loop P codec 0).exec m events).transport.tryRecv
      (.message msg)
      = (((loop P codec 0).exec m events).transport, some msg) := by
    unfold SocketChannel.tryRecv
    rw [h.attached]
  have hstep : loopStep P codec 0 ((loop P codec 0).exec m events)
      (.tryRecv (.message msg))
      = ({ (loop P codec 0).exec m events with
            policy := P.updateEngineState msg
              ((loop P codec 0).exec m events).policy },
          .received (some msg)) := by
    unfold loopStep
    dsimp only
    rw [hrecv]
  refine ⟨.tryRecv (.message msg),
    h.next [.heartbeat (asSecs dueAt) (.fromMsg msg)] hstep ?_ h.dedup
      h.attached rfl rfl
      (fun em hem => absurd hem (by simp [LoopOutput.emitted])) rfl⟩
  show P.updateEngineState msg _
    = (env.policy.strategy sim.clock.now).updateEngineState msg sim.policy
  rw [h.policy, hP.updateEngineState]

/-- The policy is consulted, and the signal recorded, as `main` handles a
signal at that instant. -/
theorem Twin.consult (h : Twin P codec m s start sim events)
    (hP : env.policy.Drives P) (dueAt : Nat) (sig : SystemSignal) :
    Twin P codec m s start
      ((consultPolicy env dueAt sig sim).record
        (.signal (asSecs dueAt) (.fromSignal sig)))
      (events
        ++ [.signal ⟨sim.clock.now, sig, asSecs dueAt, .allOk⟩]) := by
  have hanswer : (env.policy.strategy sim.clock.now).processSignal () sig
      sim.policy = P.processSignal sim.clock.now sig sim.policy :=
    hP.processSignal _ _ _
  have hattached := h.attached
  have hpolicy := h.policy
  have hdedup := h.dedup
  let call : SignalCall Nat := ⟨sim.clock.now, sig, asSecs dueAt, .allOk⟩
  -- the deduplicator is asked at the same instant
  have htime : call.time - 0 = asSecs dueAt := sub_zero _
  rcases hp : P.processSignal sim.clock.now sig sim.policy with
    ⟨policy, _ | dir⟩
  · have hsim : consultPolicy env dueAt sig sim = { sim with policy } := by
      unfold consultPolicy
      dsimp only
      rw [hanswer, hp]
    have hstep : loopStep P codec 0 ((loop P codec 0).exec m events)
        (.signal call)
        = ({ (loop P codec 0).exec m events with policy },
            .signal ⟨none, none⟩) := by
      unfold loopStep handleSignal
      dsimp only
      rw [hpolicy, hp]
    rw [hsim]
    exact h.next [.signal (asSecs dueAt) (.fromSignal sig)] hstep rfl hdedup
      hattached rfl rfl
      (fun em hem => absurd hem (by simp [LoopOutput.emitted])) rfl
  · rcases sim.dedup.process_cases dir (asSecs dueAt) with
      ⟨hproc, _⟩ | ⟨hproc, _⟩
    · -- suppressed
      have hsim : consultPolicy env dueAt sig sim
          = { sim with policy := P.cancelLastObservation policy } := by
        unfold consultPolicy
        dsimp only
        rw [hanswer, hp]
        dsimp only
        rw [hproc, hP.cancelLastObservation]
      have hstep : loopStep P codec 0 ((loop P codec 0).exec m events)
          (.signal call)
          = ({ (loop P codec 0).exec m events with
                policy := P.cancelLastObservation policy },
              .signal ⟨some ⟨asSecs dueAt, dir⟩, none⟩) := by
        unfold loopStep handleSignal
        dsimp only
        rw [hpolicy, hp, hdedup]
        dsimp only
        rw [htime, hproc, ← hdedup]
      rw [hsim]
      exact h.next [.signal (asSecs dueAt) (.fromSignal sig)] hstep rfl hdedup
        hattached rfl rfl
        (fun em hem => absurd hem (by simp [LoopOutput.emitted])) rfl
    · -- applied, and emitted
      have hsim : consultPolicy env dueAt sig sim
          = ({ sim with
                policy
                dedup := ⟨some dir.commands, some (asSecs dueAt),
                  sim.dedup.cooldownSecs⟩ }.applyDirective dir).record
              (.directive (asSecs dueAt) (.fromSignal sig)
                (.fromDirective dir)) := by
        unfold consultPolicy
        dsimp only
        rw [hanswer, hp]
        dsimp only
        rw [hproc]
      obtain ⟨hstate, hreport⟩ := emitDirective_attached hattached codec dir
      have hstep : loopStep P codec 0 ((loop P codec 0).exec m events)
          (.signal call)
          = (⟨policy, ⟨some dir.commands, some (asSecs dueAt),
                sim.dedup.cooldownSecs⟩,
              (((loop P codec 0).exec m events).transport.emitDirective codec
                dir .allOk).1⟩,
              .signal ⟨some ⟨asSecs dueAt, dir⟩,
                some ⟨⟨asSecs dueAt, dir⟩, .written s⟩⟩) := by
        unfold loopStep handleSignal
        dsimp only
        rw [hpolicy, hp, hdedup]
        dsimp only
        rw [htime, hproc, ← hreport]
      rw [hsim]
      refine h.next [.directive (asSecs dueAt) (.fromSignal sig)
        (.fromDirective dir), .signal (asSecs dueAt) (.fromSignal sig)] hstep
        rfl rfl hstate rfl ?_ ?_ ?_
      · show (sim.trajectory ++ [_]) ++ [_] = _
        rw [List.append_assoc]
        rfl
      · intro em hem
        rw [← Option.some.inj hem]
      · show _ = (dir.commands ++ []).foldl EngineStateModel.applyCommand _
        rw [List.append_nil]
        rfl

theorem Twin.signal (h : Twin P codec m s start sim events)
    (hP : env.policy.Drives P) (dueAt : Nat) (eventKind : EventKind) :
    ∃ events', Twin P codec m s start (processSignal env dueAt eventKind sim)
      events' := by
  unfold processSignal
  split
  next => exact ⟨events, h.congr rfl rfl rfl rfl⟩
  next rng sig _ =>
    -- the transition, if any, is the simulator's own
    have hnoted : Twin P codec m s start
        (noteLevel env dueAt (.fromSignal sig) { sim with rng }) events := by
      unfold noteLevel
      dsimp only
      split
      next => exact h.congr rfl rfl rfl (told?_concat rfl sim.trajectory)
      next => exact h.congr rfl rfl rfl rfl
    exact ⟨_, hnoted.consult env hP dueAt sig⟩

/-- **Every event of the simulator** is one of `main` or none. -/
theorem Twin.event (h : Twin P codec m s start sim events)
    (hP : env.policy.Drives P) (event : ScheduledEvent) :
    ∃ events', Twin P codec m s start (processEvent env sim event)
      events' := by
  unfold processEvent
  cases event.kind with
  | heartbeat =>
      obtain ⟨e, hnext⟩ := h.heartbeat env hP event.dueAt
      exact ⟨_, hnext⟩
  | signalMemory => exact h.signal env hP _ _
  | signalCompute => exact h.signal env hP _ _
  | signalThermal => exact h.signal env hP _ _
  | signalEnergy => exact h.signal env hP _ _
  | observationDue action recordedAt => exact ⟨events, h.note rfl⟩
  | externalInjectionStart idx => exact ⟨events, h.note rfl⟩
  | externalInjectionEnd idx => exact ⟨events, h.note rfl⟩
  | custom name => exact ⟨events, h.note rfl⟩

theorem Twin.foldl_events (fired : List ScheduledEvent)
    (h : Twin P codec m s start sim events) (hP : env.policy.Drives P) :
    ∃ events', Twin P codec m s start
      (fired.foldl (processEvent env) sim) events' := by
  induction fired generalizing sim events with
  | nil => exact ⟨events, h⟩
  | cons event fired ih =>
      obtain ⟨events', hnext⟩ := h.event env hP event
      exact ih hnext

/-! ## §5. Ticks and calls. -/

/-- Neither the overruns nor the physics concern `main`. -/
theorem Twin.overruns (h : Twin P codec m s start sim events)
    (hP : env.policy.Drives P) (tickEnd : Nat) :
    Twin P codec m s start (noteOverruns env tickEnd sim) events := by
  have hpolicy := hP.inspects sim.clock.now sim.policy
  unfold noteOverruns
  dsimp only
  split
  next =>
    exact h.congr hpolicy rfl rfl (told?_concat rfl sim.trajectory)
  next => exact h.congr hpolicy rfl rfl rfl

theorem Twin.finish (h : Twin P codec m s start sim events)
    (tickEnd : Nat) :
    Twin P codec m s start (finishTick env tickEnd sim).1 events := by
  unfold finishTick
  split
  next => exact h.congr rfl rfl rfl rfl
  next => exact h.congr rfl rfl rfl (told?_concat rfl sim.trajectory)

/-- **A tick is some events of `main`**, whether or not it fails. -/
theorem Twin.tick (h : Twin P codec m s start sim events)
    (hP : env.policy.Drives P) :
    ∃ events', Twin P codec m s start (tick env sim).sim events' := by
  have hdrained : Twin P codec m s start
      { sim with
        clock := (sim.clock.drainUntil (sim.clock.now + env.tickDt)).2 }
      events := h.congr rfl rfl rfl rfl
  obtain ⟨events', hfired⟩ := hdrained.foldl_events env
    (sim.clock.drainUntil (sim.clock.now + env.tickDt)).1 hP
  exact ⟨events', (hfired.overruns env hP _).finish env _⟩

theorem Twin.ticks (n : Nat) (h : Twin P codec m s start sim events)
    (hP : env.policy.Drives P) :
    ∃ events', Twin P codec m s start (ticks env n sim).sim events' := by
  induction n generalizing sim events with
  | zero => exact ⟨events, h⟩
  | succ n ih =>
      obtain ⟨events', hnext⟩ := h.tick env hP
      rw [ticks_succ]
      cases hresult : (Simulator.tick env sim).result with
      | error e =>
          rw [andThen_error hresult]
          exact ⟨events', hnext⟩
      | ok u =>
          rw [andThen_ok hresult]
          exact ih hnext

theorem Twin.call (h : Twin P codec m s start sim events)
    (hP : env.policy.Drives P) (c : SimCall π ψ σ ρ κ) :
    ∃ events', Twin P codec m s start (call env sim c).sim events' := by
  obtain ⟨n, hsim, _⟩ := call_ticks env sim c
  rw [hsim]
  refine Twin.ticks env n (h.congr rfl rfl rfl ?_) hP
  rfl

theorem twin_fresh (P : PolicyStrategy σ Nat) (codec : Codec)
    {transport : SocketChannel kind} {s : Stream}
    (hs : transport.state = .connected s) (state : π)
    (engine : EngineStateModel) (policy : σ) (rng : ρ) (ctx : κ)
    (cooldown : ℚ) :
    Twin P codec ⟨policy, .withCooldown cooldown, transport⟩ s engine
      (fresh state engine policy rng ctx cooldown : Simulator π ψ σ ρ κ)
      [] where
  policy := rfl
  dedup := rfl
  attached := hs
  log := rfl
  written := fun _ hem => absurd hem List.not_mem_nil
  engine := rfl

theorem twin_run (P : PolicyStrategy σ Nat) (hP : env.policy.Drives P)
    (codec : Codec) {transport : SocketChannel kind} {s : Stream}
    (hs : transport.state = .connected s) (state : π)
    (engine : EngineStateModel) (policy : σ) (rng : ρ) (ctx : κ)
    (cooldown : ℚ) (calls : List (SimCall π ψ σ ρ κ)) :
    ∃ events, Twin P codec ⟨policy, .withCooldown cooldown, transport⟩ s engine
      ((machine env).exec (fresh state engine policy rng ctx cooldown) calls)
      events :=
  Mealy.exec_of_steps (m := machine env)
    (I := fun sim => ∃ events, Twin P codec
      ⟨policy, .withCooldown cooldown, transport⟩ s engine sim events)
    ⟨[], twin_fresh P codec hs state engine policy rng ctx cooldown⟩
    (fun _ c h => by
      obtain ⟨events, h⟩ := h
      exact h.call env hP c) calls

/-- **Every run of the simulator is a run of `main`**, over any calls and with
any policy that `main` could run: there are events after which `main`, with a
client attached, has the simulator's policy and deduplicator; both logs tell
the same heartbeats, signals and directives, in the same order, the latter two
at the same instants; each directive was written to the client; and the
simulated engine is what these directives make of it. -/
theorem simulator_runs_main (P : PolicyStrategy σ Nat)
    (hP : env.policy.Drives P) (codec : Codec)
    {transport : SocketChannel kind} {s : Stream}
    (hs : transport.state = .connected s) (state : π)
    (engine : EngineStateModel) (policy : σ) (rng : ρ) (ctx : κ)
    (cooldown : ℚ) (calls : List (SimCall π ψ σ ρ κ)) :
    let sim := (machine env).exec
      (fresh state engine policy rng ctx cooldown) calls
    ∃ events : List (LoopEvent Nat),
      let start : Manager σ kind := ⟨policy, .withCooldown cooldown, transport⟩
      let main := (loop P codec 0).exec start events
      let run := (loop P codec 0).trace start events
      main.policy = sim.policy ∧ main.dedup = sim.dedup
        ∧ run.flatMap told = sim.trajectory.filterMap TrajectoryEntry.told?
        ∧ (∀ em ∈ emitted run, em.report = .written s)
        ∧ sim.engine = (emittedCommands run).foldl
            EngineStateModel.applyCommand engine := by
  intro sim
  obtain ⟨events, h⟩ :=
    twin_run env P hP codec hs state engine policy rng ctx cooldown calls
  exact ⟨events, h.policy, h.dedup, h.log, h.written, h.engine⟩

end Simulator

/-! ## §6. The policy of the tests. -/

/-- `MockPolicy` (`src/sim/mock_policy.rs`). -/
structure MockPolicy where
  receivedSignals : List SystemSignal
  receivedHeartbeats : Nat
  /-- What it answers; nothing if absent. -/
  directiveOnSignal : Option (SystemSignal → Option EngineDirective)

namespace MockPolicy

def new : MockPolicy where
  receivedSignals := []
  receivedHeartbeats := 0
  directiveOnSignal := none

def withFixedDirective (dir : EngineDirective) : MockPolicy :=
  { new with directiveOnSignal := some fun _ => some dir }

def processSignal (signal : SystemSignal) (p : MockPolicy) :
    MockPolicy × Option EngineDirective :=
  ({ p with receivedSignals := p.receivedSignals ++ [signal] },
    p.directiveOnSignal.bind fun cb => cb signal)

def updateEngineState (_msg : EngineMessage) (p : MockPolicy) : MockPolicy :=
  { p with receivedHeartbeats := p.receivedHeartbeats + 1 }

/-- The rest is the trait's defaults. -/
def strategy (ω : Type) : PolicyStrategy MockPolicy ω where
  processSignal _ := processSignal
  updateEngineState := updateEngineState
  cancelLastObservation p := p
  asReloadable := none

/-- Its `inspect_state` is the default too, which reports nothing. -/
def simPolicy : SimPolicy MockPolicy where
  strategy _ := strategy Unit
  getObservationOverrunCount _ p := (p, 0)

theorem drives : simPolicy.Drives (strategy Nat) where
  processSignal _ _ _ := rfl
  updateEngineState _ _ _ := rfl
  cancelLastObservation _ _ := rfl
  inspects _ _ := rfl

end MockPolicy

namespace Simulator

/-- A channel whose client has just connected. -/
def attached : UnixSocketChannel :=
  (SocketChannel.new.waitForClient [⟨1, false, ⟨false, false⟩, false⟩]).1

/-- The idle physics, the memory read every second, and a mock. -/
def mockScenario : Scenario Unit Unit MockPolicy Unit Unit :=
  let idle := idleScenario (fromSecs 1)
  { cfg := { idle.cfg with memoryPoll := fromSecs 1 }
    plant := idlePlant
    policy := MockPolicy.simPolicy
    tickDt := idle.tickDt
    tickDt_pos := idle.tickDt_pos }

/-- Two readings, the second directive within the cooldown. -/
theorem simulator_runs_main_mock :
    let policy := MockPolicy.withFixedDirective
      { seqId := 1, commands := [.restoreDefaults] }
    let sim := (machine mockScenario).exec
      (fresh () idleEngine policy () () 60) [.runFor (fromSecs 2)]
    ∃ events : List (LoopEvent Nat),
      let start : Manager MockPolicy .unix :=
        ⟨policy, .withCooldown 60, attached⟩
      let codec : Codec := ⟨fun _ => [], fun _ => []⟩
      let main := (loop (MockPolicy.strategy Nat) codec 0).exec start events
      let run := (loop (MockPolicy.strategy Nat) codec 0).trace start events
      main.policy = sim.policy ∧ main.dedup = sim.dedup
        ∧ run.flatMap told = sim.trajectory.filterMap TrajectoryEntry.told?
        ∧ (∀ em ∈ emitted run, em.report = .written 0)
        ∧ sim.engine = (emittedCommands run).foldl
            EngineStateModel.applyCommand idleEngine :=
  simulator_runs_main mockScenario (MockPolicy.strategy Nat) MockPolicy.drives
    ⟨fun _ => [], fun _ => []⟩ rfl () idleEngine
    (.withFixedDirective { seqId := 1, commands := [.restoreDefaults] }) () ()
    60 [.runFor (fromSecs 2)]

end Simulator

end ArgusManager
