/-
  ArgusManager.Main.Schedule
  ──────────────────────────
  **The schedule leaves no mark on the policy's book.**

  Two runs of the whole manager, monitor threads included, in which each
  monitor takes the same rounds and main receives the same messages from the
  engine, end with the same readings, trigger flags, latency tracker and engine
  status, once the monitors are gone: whatever the order of the threads, the
  instants, the script's answers and its reloads.
-/
import ArgusManager.LuaPolicy.Axes
import ArgusManager.Main.Bus

namespace ArgusManager

open LuaPolicy (PolicyOp PolicyInput Source World stream book)

variable {V : Type} {kind : ChannelKind}

/-! ## §1. The policy's share of a run. -/

/-- The call on the policy that a step makes. -/
def policyOp
    (e : Mealy.Step (System (LuaPolicy V) kind) (SystemEvent (World V))
      SystemOutput) : Option (PolicyOp V) :=
  match e.input, e.output with
  | .recvTimeout world _ _, .handled _ signal _ =>
      some (.processSignal world.invoke signal)
  | .tryRecv _, .main (.received (some msg)) => some (.updateEngineState msg)
  | .sighup world, .main _ =>
      some (.reloadScript world.loader e.pre.manager.policy.scriptPath)
  | _, _ => none

def policyOps (h : SystemTrace (LuaPolicy V) (World V) kind) :
    List (PolicyOp V) :=
  h.filterMap policyOp

/-- The message that a step takes from the engine. -/
def SystemOutput.message? : SystemOutput → Option EngineMessage
  | .main (.received msg) => msg
  | _ => none

/-- The messages that main has received. -/
def messages {σ ω : Type} (h : SystemTrace σ ω kind) : List EngineMessage :=
  Mealy.said SystemOutput.message? h

section Policy

variable (x : Bindings) (codec : Codec) (start : ℚ)

/-- A signal moves the policy as `process_signal` does. -/
theorem handleSignal_policy (call : SignalCall (World V))
    (m : Manager (LuaPolicy V) kind) :
    (handleSignal (LuaPolicy.strategy x) codec start call m).1.policy
      = (m.policy.processSignal x call.world.invoke call.signal).1 := by
  have hspec := handleSignal_spec (LuaPolicy.strategy x) codec start call m
  generalize handleSignal (LuaPolicy.strategy x) codec start call m = result
    at hspec ⊢
  obtain ⟨m', outcome⟩ := result
  cases hspec with
  | silent policy hpolicy => exact (congrArg Prod.fst hpolicy).symm
  | suppressed policy d hpolicy => exact (congrArg Prod.fst hpolicy).symm
  | emitted policy d hpolicy => exact (congrArg Prod.fst hpolicy).symm

/-- A SIGHUP reloads the script that the policy runs. -/
theorem handleSighup_policy (world : World V)
    (m : Manager (LuaPolicy V) kind) :
    (handleSighup (LuaPolicy.strategy x) world m).1.policy
      = (m.policy.reloadScript world.loader m.policy.scriptPath).1 := by
  unfold handleSighup
  dsimp only [LuaPolicy.strategy]
  split
  next policy e hreload => rw [hreload]
  next policy u hreload => rw [hreload]

/-- **A step moves the policy by its one call.** -/
theorem step_policy (s : System (LuaPolicy V) kind)
    (e : SystemEvent (World V)) :
    (s.step (LuaPolicy.strategy x) codec start e).1.manager.policy
      = (policyOp
          ((system (LuaPolicy.strategy x) codec start).stepAt s e)).elim
          s.manager.policy fun op => (s.manager.policy.apply x op).1 := by
  have hspec := step_spec (LuaPolicy.strategy x) codec start s e
  unfold Mealy.stepAt
  change _ = (policyOp ⟨s, e,
    (s.step (LuaPolicy.strategy x) codec start e).2,
    (s.step (LuaPolicy.strategy x) codec start e).1⟩).elim _ _
  generalize s.step (LuaPolicy.strategy x) codec start e = result at hspec ⊢
  obtain ⟨s', o⟩ := result
  cases hspec with
  | silent hlive hpoll => rfl
  | sent hlive hpoll => rfl
  | dead hdead => rfl
  | exit k => rfl
  | shutdown => rfl
  | handled hleft hqueue => exact handleSignal_policy x codec start _ _
  | disconnected hleft hqueue hsenders => rfl
  | @main e event hloop hleft =>
      cases e with
      | sighup world =>
          injection hloop with hloop
          subst hloop
          exact handleSighup_policy x world s.manager
      | connect =>
          injection hloop with hloop
          subst hloop
          rfl
      | tryRecv poll =>
          injection hloop with hloop
          subst hloop
          show (loopStep (LuaPolicy.strategy x) codec start s.manager
            (.tryRecv poll)).1.policy = _
          unfold loopStep
          dsimp only
          split
          · rfl
          · rfl
      | round r => exact absurd hloop (by simp [SystemEvent.loop?])
      | exit k => exact absurd hloop (by simp [SystemEvent.loop?])
      | shutdown => exact absurd hloop (by simp [SystemEvent.loop?])
      | recvTimeout world time io =>
          exact absurd hloop (by simp [SystemEvent.loop?])
  | @idle e he => cases e <;> rfl

/-- **The policy runs on its calls alone.** -/
theorem policy_exec (s₀ : System (LuaPolicy V) kind)
    (events : List (SystemEvent (World V))) :
    ((system (LuaPolicy.strategy x) codec start).exec s₀ events).manager.policy
      = (LuaPolicy.machine V x).exec s₀.manager.policy
          (policyOps ((system (LuaPolicy.strategy x) codec start).trace s₀
            events)) := by
  refine Mealy.history_of_steps
    (I := fun h s => s.manager.policy
      = (LuaPolicy.machine V x).exec s₀.manager.policy (policyOps h))
    rfl ?_ events
  intro h s e hinv
  have hstep := step_policy x codec start s e
  change _ = (LuaPolicy.machine V x).exec _ (policyOps (h ++ _))
  unfold policyOps
  rw [List.filterMap_append, Mealy.exec_append]
  change _ = (LuaPolicy.machine V x).exec
    ((LuaPolicy.machine V x).exec _ (policyOps h)) _
  rw [← hinv]
  refine hstep.trans ?_
  cases hop : policyOp
    ((system (LuaPolicy.strategy x) codec start).stepAt s e) with
  | none => rw [List.filterMap_cons_none hop]; rfl
  | some op => rw [List.filterMap_cons_some hop]; rfl

end Policy

/-! ## §2. Its streams. -/

/-- What a step tells the policy. -/
def SystemOutput.policyInput : SystemOutput → Option PolicyInput
  | .handled _ signal _ => some (.signal signal)
  | .main (.received msg) => msg.map .message
  | _ => none

section Streams

variable (x : Bindings) (codec : Codec) (start : ℚ)

theorem policyOp_input {s s' : System (LuaPolicy V) kind}
    {e : SystemEvent (World V)} {o : SystemOutput}
    (hs : Steps (LuaPolicy.strategy x) codec start s e s' o) :
    (policyOp ⟨s, e, o, s'⟩).bind PolicyOp.input? = o.policyInput := by
  cases hs with
  | silent hlive hpoll => rfl
  | sent hlive hpoll => rfl
  | dead hdead => rfl
  | exit k => rfl
  | shutdown => rfl
  | handled hleft hqueue => rfl
  | disconnected hleft hqueue hsenders => rfl
  | @main e event hloop hleft =>
      cases e with
      | sighup world =>
          injection hloop with hloop
          subst hloop
          rfl
      | connect =>
          injection hloop with hloop
          subst hloop
          rfl
      | tryRecv poll =>
          injection hloop with hloop
          subst hloop
          unfold loopStep
          dsimp only
          split
          · rfl
          · rfl
      | round r => exact absurd hloop (by simp [SystemEvent.loop?])
      | exit k => exact absurd hloop (by simp [SystemEvent.loop?])
      | shutdown => exact absurd hloop (by simp [SystemEvent.loop?])
      | recvTimeout world time io =>
          exact absurd hloop (by simp [SystemEvent.loop?])
  | @idle e he => cases e <;> rfl

/-- The streams of the policy are what main told it. -/
theorem stream_policyOps (s₀ : System (LuaPolicy V) kind)
    (events : List (SystemEvent (World V))) (src : Source) :
    stream src (policyOps
        ((system (LuaPolicy.strategy x) codec start).trace s₀ events))
      = (Mealy.said SystemOutput.policyInput
          ((system (LuaPolicy.strategy x) codec start).trace s₀ events)).filter
            fun input => decide (input.source = src) := by
  unfold stream policyOps Mealy.said
  rw [List.filterMap_filterMap, ← List.filterMap_eq_filter,
    List.filterMap_filterMap]
  refine List.filterMap_congr ?_
  intro e he
  -- every step is one that the system can take
  obtain ⟨hist, t, htr⟩ := Mealy.mem_trace_split _ he
  obtain ⟨ys, input, _, _, _, rfl⟩ := Mealy.trace_split _ htr
  have hinput := policyOp_input x codec start (step_spec
    (LuaPolicy.strategy x) codec start
    ((system (LuaPolicy.strategy x) codec start).exec s₀ ys) input)
  change (policyOp ((system (LuaPolicy.strategy x) codec start).stepAt _ _
    )).bind _ = SystemOutput.policyInput _ at hinput
  rw [Mealy.stepAt_output]
  change _ = (SystemOutput.policyInput
    (System.step (LuaPolicy.strategy x) codec start _ input).2).bind _
  rw [← hinput, Option.bind_assoc]
  cases policyOp _ with
  | none => rfl
  | some op =>
      show (op.input?.filter _) = op.input?.bind _
      cases op.input? <;> rfl

end Streams

/-- The axis that a monitor's signals are about; the external monitor may
inject any. -/
def MonitorKind.source : MonitorKind → Option Source
  | .memory => some .memory
  | .thermal => some .thermal
  | .compute => some .compute
  | .energy => some .energy
  | .external => none

/-- The signals are about the axes of their monitors. -/
def Sourced (items : List (MonitorKind × SystemSignal)) : Prop :=
  ∀ item ∈ items, item.1.source = some (PolicyInput.signal item.2).source

theorem MonitorKind.source_injective {j k : MonitorKind} {src : Source}
    (hj : j.source = some src) (hk : k.source = some src) : j = k := by
  cases j <;> cases k <;> first | rfl | cases hj <;> cases hk

/-- One monitor's signals, as the policy sees them. -/
theorem said_signals {σ ω : Type} (h : SystemTrace σ ω kind)
    (hsourced : Sourced (handled h)) {k : MonitorKind} {src : Source}
    (hk : k.source = some src) :
    (Mealy.said SystemOutput.policyInput h).filter
        (fun input => decide (input.source = src))
      = (Mpsc.own k (handled h)).map .signal := by
  induction h with
  | nil => rfl
  | cons e h ih =>
      obtain ⟨pre, input, output, post⟩ := e
      cases output with
      | nothing => exact ih hsourced
      | sent j signal => exact ih hsourced
      | handled j signal outcome =>
          have hj := hsourced (j, signal) List.mem_cons_self
          have hrest := ih fun item hitem =>
            hsourced item (List.mem_cons_of_mem _ hitem)
          show (PolicyInput.signal signal :: Mealy.said _ h).filter _
            = (Mpsc.own k ([(j, signal)] ++ handled h)).map _
          rw [Mpsc.own_append, Mpsc.own_singleton, List.filter_cons]
          by_cases hsrc : (PolicyInput.signal signal).source = src
          · rw [if_pos (decide_eq_true hsrc), hrest,
              if_pos (MonitorKind.source_injective (hj.trans (by rw [hsrc])) hk)]
            rfl
          · have hne : j ≠ k := by
              intro heq
              subst heq
              exact hsrc (by simpa using hj.symm.trans hk)
            rw [if_neg (by simpa using hsrc), if_neg hne, hrest]
            rfl
      | main out =>
          cases out with
          | received msg =>
              cases msg with
              | none => exact ih hsourced
              | some msg =>
                  show (PolicyInput.message msg :: Mealy.said _ h).filter _ = _
                  have hsrc : (PolicyInput.message msg).source ≠ src := by
                    cases k <;> cases msg <;> cases hk <;> simp [PolicyInput.source]
                  rw [List.filter_cons, if_neg (by simpa using hsrc)]
                  exact ih hsourced
          | sighup outcome => exact ih hsourced
          | connected => exact ih hsourced
          | signal outcome => exact ih hsourced

/-- The engine's messages, as the policy sees them. -/
theorem said_messages {σ ω : Type} (h : SystemTrace σ ω kind) {src : Source}
    (hsrc : src = .heartbeat ∨ src = .response) :
    (Mealy.said SystemOutput.policyInput h).filter
        (fun input => decide (input.source = src))
      = ((messages h).map PolicyInput.message).filter
          fun input => decide (input.source = src) := by
  induction h with
  | nil => rfl
  | cons e h ih =>
      obtain ⟨pre, input, output, post⟩ := e
      cases output with
      | nothing => exact ih
      | sent j signal => exact ih
      | handled j signal outcome =>
          show (PolicyInput.signal signal :: Mealy.said _ h).filter _ = _
          have hne : (PolicyInput.signal signal).source ≠ src := by
            rcases hsrc with rfl | rfl <;> cases signal <;>
              simp [PolicyInput.source]
          rw [List.filter_cons, if_neg (by simpa using hne)]
          exact ih
      | main out =>
          cases out with
          | received msg =>
              cases msg with
              | none => exact ih
              | some msg =>
                  show (PolicyInput.message msg :: Mealy.said _ h).filter _
                    = (PolicyInput.message msg :: (messages h).map _).filter _
                  rw [List.filter_cons, List.filter_cons, ih]
          | sighup outcome => exact ih
          | connected => exact ih
          | signal outcome => exact ih

/-! ## §3. Whole runs. -/

/-- A monitor with an axis reports on it. -/
theorem poll_source (m : Monitors) (r : Round) {signal : SystemSignal}
    (hr : r.kind ≠ .external) (hpoll : (m.poll r).2 = some signal) :
    r.kind.source = some (PolicyInput.signal signal).source := by
  cases r with
  | memory reading =>
      cases reading with
      | none => exact absurd hpoll (by simp [Monitors.poll, MemoryMonitor.poll])
      | some info =>
          injection hpoll with hpoll
          rw [← hpoll]
          rfl
  | thermal reading =>
      cases reading with
      | none =>
          exact absurd hpoll (by simp [Monitors.poll, ThermalMonitor.poll])
      | some reading =>
          injection hpoll with hpoll
          rw [← hpoll]
          rfl
  | compute usage =>
      cases usage with
      | none =>
          exact absurd hpoll (by simp [Monitors.poll, ComputeMonitor.poll])
      | some usage =>
          injection hpoll with hpoll
          rw [← hpoll]
          rfl
  | energy battery =>
      injection hpoll with hpoll
      rw [← hpoll]
      rfl
  | external signal => exact absurd rfl hr

/-- Without the external monitor every signal sent is about its monitor's
axis, and no other thread comes in. -/
structure Owned {σ ω : Type} (h : SystemTrace σ ω kind)
    (s : System σ kind) : Prop where
  senders : MonitorKind.external ∉ s.channel.senders
  sent : Sourced (sent h)

theorem owned {σ ω : Type} (P : PolicyStrategy σ ω) (codec : Codec)
    (start : ℚ) (m₀ : Monitors) {config : MonitorSections}
    (hexternal : config.external.getD false = false) (manager : Manager σ kind)
    (events : List (SystemEvent ω)) :
    Owned ((system P codec start).trace (.start m₀ config manager) events)
      ((system P codec start).exec (.start m₀ config manager) events) := by
  refine Mealy.history_of_steps (I := Owned) ?_ ?_ events
  · refine ⟨?_, fun item hitem => absurd hitem (by simp [sent])⟩
    show _ ∉ buildMonitors config
    simp [buildMonitors, hexternal]
  · intro h s e hinv
    have hspec := step_spec P codec start s e
    change Owned (h ++ [⟨s, e, (s.step P codec start e).2,
      (s.step P codec start e).1⟩]) (s.step P codec start e).1
    generalize s.step P codec start e = result at hspec ⊢
    obtain ⟨s', o⟩ := result
    have hquiet : o.sent? = none →
        Sourced (sent (h ++ [⟨s, e, o, s'⟩])) := by
      intro ho
      unfold sent
      rw [Mealy.said_concat]
      dsimp only
      rw [ho, Option.toList_none, List.append_nil]
      exact hinv.sent
    cases hspec with
    | @sent r monitors signal hlive hpoll =>
        refine ⟨hinv.senders, ?_⟩
        intro item hitem
        unfold sent at hitem
        rw [Mealy.said_concat] at hitem
        rcases List.mem_append.mp hitem with hold | hnew
        · exact hinv.sent item hold
        · rw [List.mem_singleton.mp hnew]
          refine poll_source s.monitors r ?_ (by rw [hpoll])
          intro heq
          rw [heq] at hlive
          exact hinv.senders hlive
    | silent hlive hpoll => exact ⟨hinv.senders, hquiet rfl⟩
    | dead hdead => exact ⟨hinv.senders, hquiet rfl⟩
    | exit k =>
        exact ⟨fun hmem => hinv.senders (List.mem_of_mem_filter hmem),
          hquiet rfl⟩
    | shutdown => exact ⟨hinv.senders, hquiet rfl⟩
    | handled hleft hqueue => exact ⟨hinv.senders, hquiet rfl⟩
    | disconnected hleft hqueue hsenders => exact ⟨hinv.senders, hquiet rfl⟩
    | main hloop hleft => exact ⟨hinv.senders, hquiet rfl⟩
    | idle he => exact ⟨hinv.senders, hquiet rfl⟩

/-- A monitor by itself sees its own rounds only. -/
theorem alone_filter (m : Monitors) (rounds : List Round) (k : MonitorKind) :
    m.alone (rounds.filter fun r => decide (r.kind = k)) k
      = m.alone rounds k := by
  have hpick : ∀ {α : Type} (pick : Round → Option α),
      (∀ r, r.kind ≠ k → pick r = none) →
      (rounds.filter fun r => decide (r.kind = k)).filterMap pick
        = rounds.filterMap pick := by
    intro α pick hother
    rw [List.filterMap_filter]
    refine List.filterMap_congr fun r _ => ?_
    by_cases hr : r.kind = k
    · rw [if_pos (decide_eq_true hr)]
    · rw [if_neg (by simpa using hr), hother r hr]
  unfold Monitors.alone
  cases k with
  | memory =>
      rw [hpick Round.memory?]
      intro r hr
      cases r <;> first | rfl | exact absurd rfl hr
  | thermal =>
      rw [hpick Round.thermal?]
      intro r hr
      cases r <;> first | rfl | exact absurd rfl hr
  | compute =>
      rw [hpick Round.compute?]
      intro r hr
      cases r <;> first | rfl | exact absurd rfl hr
  | energy =>
      rw [hpick Round.energy?]
      intro r hr
      cases r <;> first | rfl | exact absurd rfl hr
  | external =>
      rw [hpick Round.external?]
      intro r hr
      cases r <;> first | rfl | exact absurd rfl hr

/-- The four axes make up the book. -/
theorem book_of_axes {b b' : LuaPolicy.Book}
    (hmem : LuaPolicy.memoryAxis b = LuaPolicy.memoryAxis b')
    (hcpu : LuaPolicy.computeAxis b = LuaPolicy.computeAxis b')
    (htherm : LuaPolicy.thermalAxis b = LuaPolicy.thermalAxis b')
    (heng : LuaPolicy.engineAxis b = LuaPolicy.engineAxis b') : b = b' := by
  unfold LuaPolicy.memoryAxis at hmem
  unfold LuaPolicy.computeAxis at hcpu
  unfold LuaPolicy.thermalAxis at htherm
  unfold LuaPolicy.engineAxis at heng
  obtain ⟨signal, ⟨config, tbt, trigger⟩, status, adapt⟩ := b
  obtain ⟨signal', ⟨config', tbt', trigger'⟩, status', adapt'⟩ := b'
  simp only [Prod.mk.injEq] at hmem hcpu htherm heng
  have hsignal : signal = signal' := by
    cases signal
    cases signal'
    simp_all
  have htrigger : trigger = trigger' := by
    cases trigger
    cases trigger'
    simp_all
  simp_all

/-- **The schedule leaves no mark.**  From one start and without the external
monitor, in any two schedules that main leaves because the monitors are gone,
in which each monitor takes the same rounds and main receives the same messages
from the engine, the policy ends with the same book. -/
theorem schedule_independent (x : Bindings) (codec : Codec) (start : ℚ)
    (m₀ : Monitors) (config : MonitorSections)
    (manager : Manager (LuaPolicy V) kind)
    (xs ys : List (SystemEvent (World V)))
    (hexternal : config.external.getD false = false) :
    let S := system (LuaPolicy.strategy x) codec start
    let s₀ := System.start m₀ config manager
    (S.exec s₀ xs).left = some .disconnected →
    (S.exec s₀ ys).left = some .disconnected →
    (∀ k, (taken (S.trace s₀ xs)).filter (fun r => decide (r.kind = k))
      = (taken (S.trace s₀ ys)).filter fun r => decide (r.kind = k)) →
    messages (S.trace s₀ xs) = messages (S.trace s₀ ys) →
    (S.exec s₀ xs).manager.policy.book = (S.exec s₀ ys).manager.policy.book := by
  intro S s₀ hxs hys hrounds hmessages
  -- what main was told of each source
  have htold : ∀ zs : List (SystemEvent (World V)),
      (S.exec s₀ zs).left = some .disconnected → ∀ k src,
      k.source = some src → stream src (policyOps (S.trace s₀ zs))
        = (m₀.alone (taken (S.trace s₀ zs)) k).map .signal := by
    intro zs hzs k src hk
    have hinv : Delivers m₀ (S.trace s₀ zs) (S.exec s₀ zs) :=
      delivers _ codec start m₀ config manager zs
    have howned : Owned (S.trace s₀ zs) (S.exec s₀ zs) :=
      owned _ codec start m₀ hexternal manager zs
    have hall := hinv.balanced.drained (hinv.gone hzs).1
    rw [stream_policyOps, said_signals _ (by rw [hall]; exact howned.sent) hk,
      hall, hinv.own]
  have hsignals : ∀ k src, MonitorKind.source k = some src →
      stream src (policyOps (S.trace s₀ xs))
        = stream src (policyOps (S.trace s₀ ys)) := by
    intro k src hk
    rw [htold xs hxs k src hk, htold ys hys k src hk, ← alone_filter,
      hrounds, alone_filter]
  have hengine : stream .heartbeat (policyOps (S.trace s₀ xs))
      = stream .heartbeat (policyOps (S.trace s₀ ys)) := by
    rw [stream_policyOps, stream_policyOps, said_messages _ (.inl rfl),
      said_messages _ (.inl rfl), hmessages]
  rw [policy_exec, policy_exec]
  refine book_of_axes ?_ ?_ ?_ ?_
  · exact LuaPolicy.memoryAxis_axis.run x _ (hsignals .memory _ rfl)
  · exact LuaPolicy.computeAxis_axis.run x _ (hsignals .compute _ rfl)
  · exact LuaPolicy.thermalAxis_axis.run x _ (hsignals .thermal _ rfl)
  · exact LuaPolicy.engineAxis_axis.run x _ hengine

/-- A manager with a client attached and a fresh policy, whose script answers
nothing. -/
def quietManager : Manager (LuaPolicy Unit) .unix where
  policy := LuaPolicy.fresh () "policy.lua" none AdaptationConfig.default
  dedup := .new
  transport := {
    listener := { backlog := [], nextStream := 1 }
    state := .connected 0
    wire := fun _ => [] }

/-- The memory and the energy monitor. -/
def twoSections : MonitorSections where
  memory := some true
  thermal := some false
  compute := some false
  energy := some true
  external := none

def freshMonitors : Monitors where
  memory := .new .default
  thermal := .new .default
  compute := .new .default
  energy := .new .default

/-- A heartbeat of the engine is waiting. -/
def beatPoll : InboxPoll :=
  .message (.heartbeat ⟨0, 0, 0, .fin 20, .decode, .running⟩)

/-- Two rounds and a heartbeat; main takes the memory signal first and the
heartbeat last, or the other way round. -/
def memoryFirst : List (SystemEvent (World Unit)) :=
  let recv : SystemEvent (World Unit) := .recvTimeout
    ⟨fun _ _ => ((), .ok .nil), LuaPolicy.Loader.loadsAlways⟩ 0 .allOk
  [.round (.memory (some ⟨10, 1⟩)), recv, .exit .memory,
    .round (.energy ⟨none, true⟩), recv, .tryRecv beatPoll, .exit .energy, recv]

def energyFirst : List (SystemEvent (World Unit)) :=
  let recv : SystemEvent (World Unit) := .recvTimeout
    ⟨fun _ _ => ((), .ok .nil), LuaPolicy.Loader.loadsAlways⟩ 0 .allOk
  [.tryRecv beatPoll, .round (.energy ⟨none, true⟩),
    .round (.memory (some ⟨10, 1⟩)), .exit .memory, .exit .energy, recv, recv,
    recv]

theorem schedule_independent_two :
    ((system (LuaPolicy.strategy Bindings.exact) SocketChannel.byteCodec 0).exec
        (.start freshMonitors twoSections quietManager)
        memoryFirst).manager.policy.book
      = ((system (LuaPolicy.strategy Bindings.exact) SocketChannel.byteCodec
          0).exec (.start freshMonitors twoSections quietManager)
        energyFirst).manager.policy.book :=
  schedule_independent Bindings.exact SocketChannel.byteCodec 0 freshMonitors
    twoSections quietManager memoryFirst energyFirst rfl (by decide +kernel)
    (by decide +kernel) (fun k => by cases k <;> rfl) rfl

end ArgusManager
