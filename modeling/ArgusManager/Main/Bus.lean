/-
  ArgusManager.Main.Bus
  ─────────────────────
  **The manager and its monitor threads** (`build_monitors`,
  `spawn_monitors` and the loop of `src/main.rs`).

  Every monitor polls in a thread of its own and sends its signals into one
  channel; main takes them out one at a time.  An event is one step of one
  thread, so every schedule is a run.  A thread may end at any time, by an
  error or because it sees the shutdown flag.  The receiver lives until all
  threads are joined, so a `send` does not fail.

    • `alone`        — what a monitor sends when it runs by itself,
    • `bus_delivers` — main handles each monitor's signals in the monitor's
                       order, each once, and all of them if the loop ends
                       because the monitors are gone.
-/
import ArgusManager.Lib.Mpsc
import ArgusManager.Main.EventLoop
import ArgusManager.Monitor.Compute
import ArgusManager.Monitor.Energy
import ArgusManager.Monitor.Memory
import ArgusManager.Monitor.Thermal

namespace ArgusManager

/-! ## §1. The monitors. -/

inductive MonitorKind where
  | memory
  | thermal
  | compute
  | energy
  | external
  deriving DecidableEq, Repr

/-- The `enabled` flags of the sections that the configuration has. -/
structure MonitorSections where
  memory : Option Bool
  thermal : Option Bool
  compute : Option Bool
  energy : Option Bool
  external : Option Bool

/-- `build_monitors`: a section left out enables its monitor, but for the
external one. -/
def buildMonitors (config : MonitorSections) : List MonitorKind :=
  (if config.memory.getD true then [.memory] else [])
  ++ (if config.thermal.getD true then [.thermal] else [])
  ++ (if config.compute.getD true then [.compute] else [])
  ++ (if config.energy.getD true then [.energy] else [])
  ++ (if config.external.getD false then [.external] else [])

/-- The monitors that keep a state. -/
structure Monitors where
  memory : MemoryMonitor
  thermal : ThermalMonitor
  compute : ComputeMonitor
  energy : EnergyMonitor

/-- One round of a monitor's `run`, with what it reads. -/
inductive Round where
  | memory (reading : Option Meminfo)
  | thermal (reading : Option ThermalReading)
  | compute (usage : Option Usage)
  | energy (battery : BatteryReading)
  /-- A line, decoded unless it is blank or malformed. -/
  | external (signal : Option SystemSignal)

namespace Round

def kind : Round → MonitorKind
  | .memory _ => .memory
  | .thermal _ => .thermal
  | .compute _ => .compute
  | .energy _ => .energy
  | .external _ => .external

def memory? : Round → Option (Option Meminfo)
  | .memory reading => some reading
  | _ => none

def thermal? : Round → Option (Option ThermalReading)
  | .thermal reading => some reading
  | _ => none

def compute? : Round → Option (Option Usage)
  | .compute usage => some usage
  | _ => none

def energy? : Round → Option BatteryReading
  | .energy battery => some battery
  | _ => none

def external? : Round → Option SystemSignal
  | .external signal => signal
  | _ => none

end Round

namespace Monitors

/-- The round of one monitor, and the signal it sends. -/
def poll (m : Monitors) : Round → Monitors × Option SystemSignal
  | .memory reading =>
      let (memory, signal) := m.memory.poll reading
      ({ m with memory }, signal)
  | .thermal reading =>
      let (thermal, signal) := m.thermal.poll reading
      ({ m with thermal }, signal)
  | .compute usage =>
      let (compute, signal) := m.compute.poll usage
      ({ m with compute }, signal)
  | .energy battery =>
      let (energy, _, signal) := m.energy.poll battery
      ({ m with energy }, some signal)
  | .external signal => (m, signal)

/-- **What a monitor sends when it runs by itself** on its own rounds. -/
def alone (m : Monitors) (rounds : List Round) :
    MonitorKind → List SystemSignal
  | .memory =>
      (MemoryMonitor.machine.outs m.memory
        (rounds.filterMap Round.memory?)).filterMap id
  | .thermal =>
      (ThermalMonitor.machine.outs m.thermal
        (rounds.filterMap Round.thermal?)).filterMap id
  | .compute =>
      (ComputeMonitor.machine.outs m.compute
        (rounds.filterMap Round.compute?)).filterMap id
  | .energy =>
      (EnergyMonitor.machine.outs m.energy
        (rounds.filterMap Round.energy?)).map Prod.snd
  | .external => rounds.filterMap Round.external?

/-- The monitors that some rounds lead to, each by itself. -/
structure Tracks (m : Monitors) (rounds : List Round) (m' : Monitors) :
    Prop where
  memory : m'.memory
    = MemoryMonitor.machine.exec m.memory (rounds.filterMap Round.memory?)
  thermal : m'.thermal
    = ThermalMonitor.machine.exec m.thermal (rounds.filterMap Round.thermal?)
  compute : m'.compute
    = ComputeMonitor.machine.exec m.compute (rounds.filterMap Round.compute?)
  energy : m'.energy
    = EnergyMonitor.machine.exec m.energy (rounds.filterMap Round.energy?)

theorem tracks_nil (m : Monitors) : Tracks m [] m := ⟨rfl, rfl, rfl, rfl⟩

variable {m m' : Monitors} {rounds : List Round}

/-- **One more round** moves its monitor as it would by itself, and no
other. -/
theorem Tracks.poll (h : Tracks m rounds m') (r : Round) :
    Tracks m (rounds ++ [r]) (m'.poll r).1 where
  memory := by
    rw [Mealy.exec_filterMap_concat, ← h.memory]
    cases r <;> rfl
  thermal := by
    rw [Mealy.exec_filterMap_concat, ← h.thermal]
    cases r <;> rfl
  compute := by
    rw [Mealy.exec_filterMap_concat, ← h.compute]
    cases r <;> rfl
  energy := by
    rw [Mealy.exec_filterMap_concat, ← h.energy]
    cases r <;> rfl

theorem filterMap_id_singleton {α : Type} (o : Option α) :
    [o].filterMap id = o.toList := by
  cases o <;> rfl

/-- And its monitor sends what it would send by itself. -/
theorem Tracks.alone_concat (h : Tracks m rounds m') (r : Round)
    (k : MonitorKind) :
    m.alone (rounds ++ [r]) k
      = m.alone rounds k
        ++ if r.kind = k then (m'.poll r).2.toList else [] := by
  cases k with
  | memory =>
      unfold alone
      dsimp only
      rw [Mealy.outs_filterMap_concat, List.filterMap_append, ← h.memory]
      cases r with
      | memory reading =>
          exact congrArg (_ ++ ·) (filterMap_id_singleton _)
      | _ => rfl
  | thermal =>
      unfold alone
      dsimp only
      rw [Mealy.outs_filterMap_concat, List.filterMap_append, ← h.thermal]
      cases r with
      | thermal reading =>
          exact congrArg (_ ++ ·) (filterMap_id_singleton _)
      | _ => rfl
  | compute =>
      unfold alone
      dsimp only
      rw [Mealy.outs_filterMap_concat, List.filterMap_append, ← h.compute]
      cases r with
      | compute usage =>
          exact congrArg (_ ++ ·) (filterMap_id_singleton _)
      | _ => rfl
  | energy =>
      unfold alone
      dsimp only
      rw [Mealy.outs_filterMap_concat, List.map_append, ← h.energy]
      cases r <;> rfl
  | external =>
      unfold alone
      dsimp only
      rw [List.filterMap_append]
      refine congrArg (_ ++ ·) ?_
      cases r with
      | external signal => cases signal <;> rfl
      | _ => rfl

end Monitors

/-! ## §2. The threads and main. -/

variable {σ ω : Type} {kind : ChannelKind}

/-- Why main leaves its loop. -/
inductive LoopExit where
  /-- `SHUTDOWN` is set. -/
  | shutdown
  /-- "All monitors disconnected". -/
  | disconnected
  deriving DecidableEq, Repr

structure System (σ : Type) (kind : ChannelKind) where
  monitors : Monitors
  channel : Mpsc MonitorKind SystemSignal
  manager : Manager σ kind
  left : Option LoopExit

/-- The monitors are spawned and main enters its loop. -/
def System.start (monitors : Monitors) (config : MonitorSections)
    (manager : Manager σ kind) : System σ kind where
  monitors := monitors
  channel := .new (buildMonitors config)
  manager := manager
  left := none

/-- One step of one thread. -/
inductive SystemEvent (ω : Type) where
  | round (r : Round)
  /-- A monitor's `run` returns. -/
  | exit (k : MonitorKind)
  /-- Main finds `SHUTDOWN` set. -/
  | shutdown
  | sighup (world : ω)
  | connect
  | tryRecv (poll : InboxPoll)
  /-- Main is in `rx.recv_timeout`. -/
  | recvTimeout (world : ω) (time : ℚ) (io : EmitIo)

inductive SystemOutput where
  | nothing
  | sent (k : MonitorKind) (signal : SystemSignal)
  | handled (k : MonitorKind) (signal : SystemSignal) (outcome : SignalOutcome)
  | main (output : LoopOutput)

/-- A step of main other than taking a signal. -/
def System.mainStep (P : PolicyStrategy σ ω) (codec : Codec) (start : ℚ)
    (s : System σ kind) (e : LoopEvent ω) : System σ kind × SystemOutput :=
  match s.left with
  | some _ => (s, .nothing)
  | none =>
      let (manager, output) := loopStep P codec start s.manager e
      ({ s with manager }, .main output)

def System.step (P : PolicyStrategy σ ω) (codec : Codec) (start : ℚ)
    (s : System σ kind) : SystemEvent ω → System σ kind × SystemOutput
  | .round r =>
      if r.kind ∈ s.channel.senders then
        match s.monitors.poll r with
        | (monitors, none) => ({ s with monitors }, .nothing)
        | (monitors, some signal) =>
            ({ s with monitors, channel := s.channel.send r.kind signal },
              .sent r.kind signal)
      else (s, .nothing)
  | .exit k => ({ s with channel := s.channel.drop k }, .nothing)
  | .shutdown => ({ s with left := s.left.or (some .shutdown) }, .nothing)
  | .sighup world => s.mainStep P codec start (.sighup world)
  | .connect => s.mainStep P codec start .connect
  | .tryRecv poll => s.mainStep P codec start (.tryRecv poll)
  | .recvTimeout world time io =>
      match s.left with
      | some _ => (s, .nothing)
      | none =>
          match s.channel.recv with
          | (channel, .item k signal) =>
              let (manager, outcome) :=
                handleSignal P codec start ⟨world, signal, time, io⟩ s.manager
              ({ s with channel, manager }, .handled k signal outcome)
          | (_, .empty) => (s, .nothing)
          | (_, .disconnected) =>
              ({ s with left := some .disconnected }, .nothing)

def system (P : PolicyStrategy σ ω) (codec : Codec) (start : ℚ) :
    Mealy (System σ kind) (SystemEvent ω) SystemOutput :=
  ⟨fun s e => s.step P codec start e⟩

/-- The event of the loop in a step of main, but for the signals. -/
def SystemEvent.loop? : SystemEvent ω → Option (LoopEvent ω)
  | .sighup world => some (.sighup world)
  | .connect => some .connect
  | .tryRecv poll => some (.tryRecv poll)
  | _ => none

def SystemEvent.round? : SystemEvent ω → Option Round
  | .round r => some r
  | _ => none

/-- **Everything one step can do.** -/
inductive Steps (P : PolicyStrategy σ ω) (codec : Codec) (start : ℚ)
    (s : System σ kind) : SystemEvent ω → System σ kind → SystemOutput → Prop
  | silent {r : Round} {monitors : Monitors}
      (hlive : r.kind ∈ s.channel.senders)
      (hpoll : s.monitors.poll r = (monitors, none)) :
      Steps P codec start s (.round r) { s with monitors } .nothing
  | sent {r : Round} {monitors : Monitors} {signal : SystemSignal}
      (hlive : r.kind ∈ s.channel.senders)
      (hpoll : s.monitors.poll r = (monitors, some signal)) :
      Steps P codec start s (.round r)
        { s with monitors, channel := s.channel.send r.kind signal }
        (.sent r.kind signal)
  | dead {r : Round} (hdead : r.kind ∉ s.channel.senders) :
      Steps P codec start s (.round r) s .nothing
  | exit (k : MonitorKind) :
      Steps P codec start s (.exit k)
        { s with channel := s.channel.drop k } .nothing
  | shutdown :
      Steps P codec start s .shutdown
        { s with left := s.left.or (some .shutdown) } .nothing
  | handled {world : ω} {time : ℚ} {io : EmitIo} {k : MonitorKind}
      {signal : SystemSignal} {queue : List (MonitorKind × SystemSignal)}
      (hleft : s.left = none) (hqueue : s.channel.queue = (k, signal) :: queue) :
      Steps P codec start s (.recvTimeout world time io)
        { s with
          channel := { s.channel with queue }
          manager := (handleSignal P codec start ⟨world, signal, time, io⟩
            s.manager).1 }
        (.handled k signal
          (handleSignal P codec start ⟨world, signal, time, io⟩ s.manager).2)
  | disconnected {world : ω} {time : ℚ} {io : EmitIo} (hleft : s.left = none)
      (hqueue : s.channel.queue = []) (hsenders : s.channel.senders = []) :
      Steps P codec start s (.recvTimeout world time io)
        { s with left := some .disconnected } .nothing
  | main {e : SystemEvent ω} {event : LoopEvent ω} (hloop : e.loop? = some event)
      (hleft : s.left = none) :
      Steps P codec start s e
        { s with manager := (loopStep P codec start s.manager event).1 }
        (.main (loopStep P codec start s.manager event).2)
  | idle {e : SystemEvent ω} (he : e.round? = none) :
      Steps P codec start s e s .nothing

theorem mainStep_spec (P : PolicyStrategy σ ω) (codec : Codec) (start : ℚ)
    (s : System σ kind) {e : SystemEvent ω} {event : LoopEvent ω}
    (hloop : e.loop? = some event) (he : e.round? = none) :
    Steps P codec start s e (s.mainStep P codec start event).1
      (s.mainStep P codec start event).2 := by
  obtain ⟨monitors, channel, manager, left⟩ := s
  cases left with
  | some exit => exact .idle he
  | none => exact .main hloop rfl

theorem step_spec (P : PolicyStrategy σ ω) (codec : Codec) (start : ℚ)
    (s : System σ kind) (e : SystemEvent ω) :
    Steps P codec start s e (s.step P codec start e).1
      (s.step P codec start e).2 := by
  cases e with
  | round r =>
      unfold System.step
      dsimp only
      split
      next hlive =>
        split
        next monitors hpoll => exact .silent hlive hpoll
        next monitors signal hpoll => exact .sent hlive hpoll
      next hdead => exact .dead hdead
  | exit k => exact .exit k
  | shutdown => exact .shutdown
  | sighup world => exact mainStep_spec P codec start s rfl rfl
  | connect => exact mainStep_spec P codec start s rfl rfl
  | tryRecv poll => exact mainStep_spec P codec start s rfl rfl
  | recvTimeout world time io =>
      obtain ⟨monitors, ⟨queue, senders⟩, manager, left⟩ := s
      cases left with
      | some exit => exact .idle rfl
      | none =>
          cases queue with
          | cons item queue => exact .handled rfl rfl
          | nil =>
              cases senders with
              | cons k senders => exact .idle rfl
              | nil => exact .disconnected rfl rfl rfl

/-! ## §3. What main is given. -/

abbrev SystemTrace (σ ω : Type) (kind : ChannelKind) :=
  List (Mealy.Step (System σ kind) (SystemEvent ω) SystemOutput)

def SystemOutput.sent? : SystemOutput → Option (MonitorKind × SystemSignal)
  | .sent k signal => some (k, signal)
  | _ => none

def SystemOutput.handled? : SystemOutput → Option (MonitorKind × SystemSignal)
  | .handled k signal _ => some (k, signal)
  | _ => none

/-- The signals sent, and those handled by main, each with its monitor. -/
def sent (h : SystemTrace σ ω kind) : List (MonitorKind × SystemSignal) :=
  Mealy.said SystemOutput.sent? h

def handled (h : SystemTrace σ ω kind) : List (MonitorKind × SystemSignal) :=
  Mealy.said SystemOutput.handled? h

/-- The round of a step, if its thread is alive. -/
def roundTaken (e : Mealy.Step (System σ kind) (SystemEvent ω) SystemOutput) :
    Option Round :=
  e.input.round?.filter fun r => decide (r.kind ∈ e.pre.channel.senders)

/-- The rounds that the monitors have taken. -/
def taken (h : SystemTrace σ ω kind) : List Round := h.filterMap roundTaken

theorem taken_concat (h : SystemTrace σ ω kind)
    (e : Mealy.Step (System σ kind) (SystemEvent ω) SystemOutput) :
    taken (h ++ [e]) = taken h ++ (roundTaken e).toList := by
  unfold taken
  rw [List.filterMap_append]
  cases hr : roundTaken e <;> simp [hr]

/-- What a history and the state it leads to have in common. -/
structure Delivers (m₀ : Monitors) (h : SystemTrace σ ω kind)
    (s : System σ kind) : Prop where
  tracks : m₀.Tracks (taken h) s.monitors
  own : ∀ k, Mpsc.own k (sent h) = m₀.alone (taken h) k
  balanced : Mpsc.Balanced (sent h) (handled h) s.channel
  gone : s.left = some .disconnected →
    s.channel.queue = [] ∧ s.channel.senders = []

section Delivery

variable {P : PolicyStrategy σ ω} {codec : Codec} {start : ℚ} {m₀ : Monitors}
  {h : SystemTrace σ ω kind} {s s' : System σ kind} {e : SystemEvent ω}
  {o : SystemOutput}

/-- A step in which no monitor takes a round. -/
theorem Delivers.quiet (hinv : Delivers m₀ h s)
    (htaken : roundTaken ⟨s, e, o, s'⟩ = none) (hsent : o.sent? = none)
    (hmonitors : s'.monitors = s.monitors)
    (hbalanced : Mpsc.Balanced (sent h)
      (handled h ++ o.handled?.toList) s'.channel)
    (hgone : s'.left = some .disconnected →
      s'.channel.queue = [] ∧ s'.channel.senders = []) :
    Delivers m₀ (h ++ [⟨s, e, o, s'⟩]) s' := by
  have htaken' : taken (h ++ [⟨s, e, o, s'⟩]) = taken h := by
    rw [taken_concat, htaken]
    exact List.append_nil _
  have hsent' : sent (h ++ [⟨s, e, o, s'⟩]) = sent h := by
    unfold sent
    rw [Mealy.said_concat]
    dsimp only
    rw [hsent]
    exact List.append_nil _
  refine ⟨?_, ?_, ?_, hgone⟩
  · rw [htaken', hmonitors]
    exact hinv.tracks
  · intro k
    rw [hsent', htaken']
    exact hinv.own k
  · rw [hsent']
    unfold handled
    rw [Mealy.said_concat]
    exact hbalanced

/-- A step in which a monitor takes a round, and may send. -/
theorem Delivers.polled (hinv : Delivers m₀ h s) {r : Round}
    {channel : Mpsc MonitorKind SystemSignal}
    (hlive : r.kind ∈ s.channel.senders)
    (hsent : o.sent? = (s.monitors.poll r).2.map fun signal => (r.kind, signal))
    (hhandled : o.handled? = none)
    (hqueue : channel.queue = s.channel.queue ++ o.sent?.toList) :
    Delivers m₀
      (h ++ [⟨s, .round r, o,
        { s with monitors := (s.monitors.poll r).1, channel }⟩])
      { s with monitors := (s.monitors.poll r).1, channel } := by
  have htaken : taken (h ++ [⟨s, (.round r : SystemEvent ω), o,
      { s with monitors := (s.monitors.poll r).1, channel }⟩])
      = taken h ++ [r] := by
    rw [taken_concat]
    have hround : roundTaken ⟨s, (.round r : SystemEvent ω), o,
        { s with monitors := (s.monitors.poll r).1, channel }⟩ = some r :=
      Option.filter_eq_some_iff.mpr ⟨rfl, decide_eq_true hlive⟩
    rw [hround]
    rfl
  refine ⟨?_, ?_, ?_, ?_⟩
  · rw [htaken]
    exact hinv.tracks.poll r
  · intro k
    rw [htaken, hinv.tracks.alone_concat, ← hinv.own]
    unfold sent
    rw [Mealy.said_concat, Mpsc.own_append]
    dsimp only
    rw [hsent]
    cases (s.monitors.poll r).2 with
    | none => simp
    | some signal => exact congrArg (_ ++ ·) (Mpsc.own_singleton k r.kind signal)
  · unfold Mpsc.Balanced sent handled
    rw [Mealy.said_concat, Mealy.said_concat]
    dsimp only
    rw [hhandled, hqueue, ← List.append_assoc]
    refine congrArg (· ++ _) ?_
    rw [Option.toList_none, List.append_nil]
    exact hinv.balanced
  · intro hleft
    -- a thread that is left keeps main in the loop
    rw [(hinv.gone hleft).2] at hlive
    exact absurd hlive (by simp)

theorem roundTaken_of_round? (h : e.round? = none) :
    roundTaken ⟨s, e, o, s'⟩ = none := by
  unfold roundTaken
  dsimp only
  rw [h]
  rfl

theorem round?_of_loop? {event : LoopEvent ω} (h : e.loop? = some event) :
    e.round? = none := by
  cases e with
  | round r => exact absurd h (by simp [SystemEvent.loop?])
  | _ => rfl

/-- **Every step** keeps the balance. -/
theorem Delivers.step (hinv : Delivers m₀ h s)
    (hs : Steps P codec start s e s' o) :
    Delivers m₀ (h ++ [⟨s, e, o, s'⟩]) s' := by
  have hbalanced : Mpsc.Balanced (sent h) (handled h ++ []) s.channel := by
    rw [List.append_nil]
    exact hinv.balanced
  cases hs with
  | @silent r monitors hlive hpoll =>
      have hnext := hinv.polled (o := .nothing) hlive (by rw [hpoll]; rfl) rfl
        (show s.channel.queue = s.channel.queue ++ [] from
          (List.append_nil _).symm)
      rw [hpoll] at hnext
      exact hnext
  | @sent r monitors signal hlive hpoll =>
      have hnext := hinv.polled (o := .sent r.kind signal) hlive
        (by rw [hpoll]; rfl) rfl
        (show (s.channel.send r.kind signal).queue = _ from rfl)
      rw [hpoll] at hnext
      exact hnext
  | @dead r hdead =>
      refine hinv.quiet ?_ rfl rfl hbalanced hinv.gone
      exact Option.filter_eq_none_iff.mpr fun a ha => by
        injection ha with ha
        subst ha
        simpa using hdead
  | exit k =>
      refine hinv.quiet rfl rfl rfl (hbalanced.drop k) ?_
      intro hleft
      obtain ⟨hqueue, hsenders⟩ := hinv.gone hleft
      refine ⟨hqueue, ?_⟩
      show s.channel.senders.filter _ = []
      rw [hsenders]
      rfl
  | shutdown =>
      refine hinv.quiet rfl rfl rfl hbalanced ?_
      intro hleft
      cases hold : s.left with
      | none =>
          rw [hold] at hleft
          exact absurd hleft (by simp)
      | some exit =>
          rw [hold] at hleft
          exact hinv.gone (hold.trans hleft)
  | @handled world time io k signal queue hleft hqueue =>
      refine hinv.quiet rfl rfl rfl ?_ ?_
      · have hrecv : s.channel.recv
            = ({ s.channel with queue }, .item k signal) := by
          unfold Mpsc.recv
          rw [hqueue]
        have hbal := hinv.balanced.recv
        rw [hrecv] at hbal
        exact hbal
      · intro hdone
        exact absurd (hleft.symm.trans hdone) (by simp)
  | disconnected hleft hqueue hsenders =>
      exact hinv.quiet rfl rfl rfl hbalanced fun _ => ⟨hqueue, hsenders⟩
  | main hloop hleft =>
      refine hinv.quiet (roundTaken_of_round? (round?_of_loop? hloop)) rfl rfl
        hbalanced ?_
      intro hdone
      exact absurd (hleft.symm.trans hdone) (by simp)
  | idle he =>
      exact hinv.quiet (roundTaken_of_round? he) rfl rfl hbalanced hinv.gone

end Delivery

theorem delivers (P : PolicyStrategy σ ω) (codec : Codec) (start : ℚ)
    (m₀ : Monitors) (config : MonitorSections) (manager : Manager σ kind)
    (events : List (SystemEvent ω)) :
    Delivers m₀
      ((system P codec start).trace (.start m₀ config manager) events)
      ((system P codec start).exec (.start m₀ config manager) events) := by
  refine Mealy.history_of_steps (I := Delivers m₀) ?_ ?_ events
  · exact ⟨m₀.tracks_nil, by intro k; cases k <;> rfl,
      Mpsc.balanced_new _, by
      intro hleft
      exact absurd hleft (by simp [System.start])⟩
  · intro h s e hinv
    exact hinv.step (step_spec P codec start s e)

/-- **The channel loses and invents nothing.**  In every schedule the signals
of each monitor that main has handled, and behind them those still queued, are
what the monitor sends by itself on the rounds it took, in its order.  If main
leaves its loop because the monitors are gone, it has handled all of them. -/
theorem bus_delivers (P : PolicyStrategy σ ω) (codec : Codec) (start : ℚ)
    (m₀ : Monitors) (config : MonitorSections) (manager : Manager σ kind)
    (events : List (SystemEvent ω)) (k : MonitorKind) :
    let h := (system P codec start).trace (.start m₀ config manager) events
    let s := (system P codec start).exec (.start m₀ config manager) events
    m₀.alone (taken h) k
        = Mpsc.own k (handled h) ++ Mpsc.own k s.channel.queue
      ∧ (s.left = some .disconnected →
          Mpsc.own k (handled h) = m₀.alone (taken h) k) := by
  intro h s
  have hinv : Delivers m₀ h s := delivers P codec start m₀ config manager events
  refine ⟨(hinv.own k).symm.trans (hinv.balanced.own k), ?_⟩
  intro hleft
  rw [hinv.balanced.drained (hinv.gone hleft).1]
  exact hinv.own k

end ArgusManager
