/-
  ArgusManager.LuaPolicy.Axes
  ───────────────────────────
  **Every source of inputs owns one axis of the policy.**

  The monitors and the engine feed the policy from threads of their own, so
  the order in which two sources' inputs arrive is an accident.  It leaves no
  mark on the readings, the trigger flags or the TBT tracker: each handler
  rewrites its own axis from its own axis (`Axis`), and everything else is
  computed from the axes.

    • `memoryAxis`, `computeAxis`, `thermalAxis`, `engineAxis` — the four,
    • `axes_commute` — two runs fed the same streams, interleaved in any two
      ways, end in the same readings, flags, tracker, status, pressures and
      mode.
-/
import ArgusManager.LuaPolicy.Runs

namespace ArgusManager.LuaPolicy

variable {V : Type}

/-! ## §1. Sources. -/

/-- Who an input comes from. -/
inductive Source where
  | memory
  | compute
  | thermal
  | energy
  | heartbeat
  | response
  deriving DecidableEq, Repr

/-- What is fed to the policy, without the script's answer to it. -/
inductive PolicyInput where
  | signal (signal : SystemSignal)
  | message (msg : EngineMessage)

def PolicyInput.source : PolicyInput → Source
  | .signal (.memoryPressure ..) => .memory
  | .signal (.computeGuidance ..) => .compute
  | .signal (.thermalAlert ..) => .thermal
  | .signal (.energyConstraint ..) => .energy
  | .message (.heartbeat _) => .heartbeat
  | .message (.response _) => .response

def PolicyOp.input? : PolicyOp V → Option PolicyInput
  | .processSignal _ signal => some (.signal signal)
  | .updateEngineState msg => some (.message msg)
  | .reloadScript .. => none

/-- The input of an operation, if it comes from this source. -/
def PolicyOp.inputFrom (k : Source) (op : PolicyOp V) : Option PolicyInput :=
  op.input?.filter fun input => decide (input.source = k)

/-- What one source fed the policy, in its own order. -/
def stream (k : Source) (ops : List (PolicyOp V)) : List PolicyInput :=
  ops.filterMap (PolicyOp.inputFrom k)

/-! ## §2. Axes. -/

/-- The bookkeeping of an input, the decision left out. -/
def note : PolicyInput → LuaPolicy V → LuaPolicy V
  | .signal signal, p => p.observe signal
  | .message msg, p => p.updateEngineState msg

/-- The fields the bookkeeping keeps. -/
structure Book where
  signalState : SignalState
  triggerEngine : TriggerEngine
  engineState : Option EngineStatus
  adaptationConfig : AdaptationConfig

def book (p : LuaPolicy V) : Book where
  signalState := p.signalState
  triggerEngine := p.triggerEngine
  engineState := p.engineState
  adaptationConfig := p.adaptationConfig

/-- **An operation changes the book by its input alone**, whatever the script
answers and whether it is reloaded. -/
theorem apply_book (x : Bindings) (p : LuaPolicy V) (op : PolicyOp V) :
    (p.apply x op).1.book
      = op.input?.elim p.book fun input => (p.note input).book := by
  cases op with
  | processSignal invoke signal =>
      show (p.processSignal x invoke signal).1.book = (p.observe signal).book
      -- `decide` and its failures touch the VM and the counters only
      rcases callDecide_cases x invoke (p.observe signal) signal
        with ⟨_, h⟩ | ⟨_, _, _, _, h⟩ | ⟨_, _, _, _, h⟩
      · obtain ⟨n, hproc⟩ := processSignal_of_callDecide h
        rw [hproc]
        rfl
      · obtain ⟨n, hproc⟩ := processSignal_of_callDecide h
        rw [hproc]
        rfl
      · obtain ⟨n, hproc⟩ := processSignal_of_callDecide h
        rw [hproc]
        rfl
  | updateEngineState msg => rfl
  | reloadScript loader path =>
      rcases reloadScript_cases loader path p with ⟨_, _, h⟩ | ⟨_, _, h⟩
      · exact congrArg (fun r => r.1.book) h
      · exact congrArg (fun r => r.1.book) h

/-- A part of the book that the inputs of one source rewrite from itself and
that the other sources leave alone. -/
structure Axis {α : Type} (k : Source) (π : Book → α) : Prop where
  skip : ∀ (p : LuaPolicy V) (input : PolicyInput), input.source ≠ k →
    π (p.note input).book = π p.book
  read : ∀ (p q : LuaPolicy V) (input : PolicyInput), input.source = k →
    π p.book = π q.book → π (p.note input).book = π (q.note input).book

/-- **An axis is a function of its own source's stream.** -/
theorem Axis.run {α : Type} {k : Source} {π : Book → α}
    (h : Axis (V := V) k π) (x : Bindings) (p : LuaPolicy V)
    {xs ys : List (PolicyOp V)} (hstream : stream k xs = stream k ys) :
    π ((machine V x).exec p xs).book = π ((machine V x).exec p ys).book := by
  refine Mealy.exec_component (π := fun p : LuaPolicy V => π p.book)
    ?_ ?_ xs ys p p rfl hstream
  · -- an operation of another source leaves the axis alone
    intro p op hop
    show π (p.apply x op).1.book = π p.book
    rw [apply_book]
    unfold PolicyOp.inputFrom at hop
    cases hinput : op.input? with
    | none => rfl
    | some input =>
        rw [hinput, Option.filter_eq_none_iff] at hop
        exact h.skip p input (by simpa using hop input rfl)
  · -- the same input rewrites it alike, from whatever states agree on it
    intro p q op op' input hop hop' hpq
    show π (p.apply x op).1.book = π (q.apply x op').1.book
    obtain ⟨hop, hsource⟩ := Option.filter_eq_some_iff.mp hop
    obtain ⟨hop', _⟩ := Option.filter_eq_some_iff.mp hop'
    rw [apply_book, apply_book, hop, hop']
    exact h.read p q input (of_decide_eq_true hsource) hpq

/-! ## §3. The four axes. -/

def memoryAxis (b : Book) : Nat × Nat × Bool × TriggerConfig :=
  (b.signalState.memAvailable, b.signalState.memTotal,
    b.triggerEngine.trigger.memLow, b.triggerEngine.config)

def computeAxis (b : Book) : ℚ × ℚ :=
  (b.signalState.cpuPct, b.signalState.gpuPct)

def thermalAxis (b : Book) :
    Int × Bool × Bool × TriggerConfig × AdaptationConfig :=
  (b.signalState.tempMc, b.signalState.throttling,
    b.triggerEngine.trigger.tempHigh, b.triggerEngine.config,
    b.adaptationConfig)

def engineAxis (b : Book) :
    TbtTracker × Bool × Option EngineStatus × TriggerConfig :=
  (b.triggerEngine.tbt, b.triggerEngine.trigger.tbtDegraded, b.engineState,
    b.triggerEngine.config)

/-- A heartbeat's TBT leaves the other two flags alone. -/
theorem updateTbtMs_frame (e : TriggerEngine) (tbtMs : FloatVal) :
    (e.updateTbtMs tbtMs).config = e.config
      ∧ (e.updateTbtMs tbtMs).trigger.memLow = e.trigger.memLow
      ∧ (e.updateTbtMs tbtMs).trigger.tempHigh = e.trigger.tempHigh := by
  unfold TriggerEngine.updateTbtMs
  split
  next tbtMs =>
    split
    next => exact ⟨rfl, rfl, rfl⟩
    next =>
      dsimp only
      split
      next => exact ⟨rfl, rfl, rfl⟩
      next => exact ⟨rfl, rfl, rfl⟩
  next => exact ⟨rfl, rfl, rfl⟩

/-- And it rewrites the tracker and its flag from themselves. -/
theorem updateTbtMs_congr {e f : TriggerEngine} (tbtMs : FloatVal)
    (htbt : e.tbt = f.tbt)
    (hflag : e.trigger.tbtDegraded = f.trigger.tbtDegraded)
    (hconfig : e.config = f.config) :
    (e.updateTbtMs tbtMs).tbt = (f.updateTbtMs tbtMs).tbt
      ∧ (e.updateTbtMs tbtMs).trigger.tbtDegraded
        = (f.updateTbtMs tbtMs).trigger.tbtDegraded := by
  unfold TriggerEngine.updateTbtMs
  cases tbtMs with
  | fin tbtMs =>
      dsimp only
      rw [htbt]
      split
      next => exact ⟨htbt, hflag⟩
      next =>
        split
        next => exact ⟨rfl, hflag⟩
        next => exact ⟨rfl, by rw [hflag, hconfig]⟩
  | nan => exact ⟨htbt, hflag⟩
  | negInf => exact ⟨htbt, hflag⟩
  | posInf => exact ⟨htbt, hflag⟩

theorem memoryAxis_axis : Axis (V := V) .memory memoryAxis where
  skip p input hne := by
    cases input with
    | signal signal =>
        cases signal with
        | memoryPressure => exact absurd rfl hne
        | computeGuidance => rfl
        | thermalAlert => rfl
        | energyConstraint => rfl
    | message msg =>
        cases msg with
        | heartbeat status =>
            -- a heartbeat moves the token trigger, not the memory one
            obtain ⟨hconfig, hlow, _⟩ :=
              updateTbtMs_frame p.triggerEngine status.tbtMs
            unfold memoryAxis
            exact Prod.ext rfl (Prod.ext rfl (Prod.ext hlow hconfig))
        | response resp => rfl
  read p q input hsource hpq := by
    unfold memoryAxis at hpq
    simp only [Prod.mk.injEq] at hpq
    obtain ⟨_, _, hlow, hconfig⟩ := hpq
    cases input with
    | signal signal =>
        cases signal with
        | memoryPressure level available total target =>
            refine Prod.ext rfl (Prod.ext rfl (Prod.ext ?_ hconfig))
            show hysteresis p.triggerEngine.trigger.memLow _ _ _
              = hysteresis q.triggerEngine.trigger.memLow _ _ _
            have hlow' : p.triggerEngine.trigger.memLow
                = q.triggerEngine.trigger.memLow := hlow
            have hconfig' : p.triggerEngine.config = q.triggerEngine.config :=
              hconfig
            rw [hlow', hconfig']
        | computeGuidance => cases hsource
        | thermalAlert => cases hsource
        | energyConstraint => cases hsource
    | message msg =>
        cases msg with
        | heartbeat => cases hsource
        | response => cases hsource

theorem computeAxis_axis : Axis (V := V) .compute computeAxis where
  skip p input hne := by
    cases input with
    | signal signal =>
        cases signal with
        | memoryPressure => rfl
        | computeGuidance => exact absurd rfl hne
        | thermalAlert => rfl
        | energyConstraint => rfl
    | message msg => cases msg <;> rfl
  read p q input hsource _ := by
    cases input with
    | signal signal =>
        cases signal with
        | memoryPressure => cases hsource
        | computeGuidance => rfl
        | thermalAlert => cases hsource
        | energyConstraint => cases hsource
    | message msg =>
        cases msg with
        | heartbeat => cases hsource
        | response => cases hsource

/-- The thermal pressure reads the temperature and the configuration. -/
theorem pressure_thermal {p q : LuaPolicy V}
    (htemp : p.signalState.tempMc = q.signalState.tempMc)
    (hconfig : p.adaptationConfig = q.adaptationConfig) :
    p.pressure.thermal = q.pressure.thermal := by
  unfold pressure SignalState.pressureWithThermal
  rw [htemp, hconfig]

theorem thermalAxis_axis : Axis (V := V) .thermal thermalAxis where
  skip p input hne := by
    cases input with
    | signal signal =>
        cases signal with
        | memoryPressure => rfl
        | computeGuidance => rfl
        | thermalAlert => exact absurd rfl hne
        | energyConstraint => rfl
    | message msg =>
        cases msg with
        | heartbeat status =>
            obtain ⟨hconfig, _, hhigh⟩ :=
              updateTbtMs_frame p.triggerEngine status.tbtMs
            unfold thermalAxis
            exact Prod.ext rfl (Prod.ext rfl
              (Prod.ext hhigh (Prod.ext hconfig rfl)))
        | response resp => rfl
  read p q input hsource hpq := by
    unfold thermalAxis at hpq
    simp only [Prod.mk.injEq] at hpq
    obtain ⟨_, _, hhigh, hconfig, hadapt⟩ := hpq
    cases input with
    | signal signal =>
        cases signal with
        | memoryPressure => cases hsource
        | computeGuidance => cases hsource
        | thermalAlert level temperatureMc throttling ratio =>
            refine Prod.ext rfl (Prod.ext rfl
              (Prod.ext ?_ (Prod.ext hconfig hadapt)))
            -- the pressure is read after the new temperature is stored
            have hpressure : ({ p with signalState :=
                    p.signalState.updateThermal temperatureMc throttling }
                  : LuaPolicy V).pressure.thermal
                = ({ q with signalState :=
                    q.signalState.updateThermal temperatureMc throttling }
                  : LuaPolicy V).pressure.thermal :=
              pressure_thermal rfl hadapt
            show hysteresis p.triggerEngine.trigger.tempHigh _ _ _
              = hysteresis q.triggerEngine.trigger.tempHigh _ _ _
            have hhigh' : p.triggerEngine.trigger.tempHigh
                = q.triggerEngine.trigger.tempHigh := hhigh
            have hconfig' : p.triggerEngine.config = q.triggerEngine.config :=
              hconfig
            rw [hhigh', hconfig', hpressure]
        | energyConstraint => cases hsource
    | message msg =>
        cases msg with
        | heartbeat => cases hsource
        | response => cases hsource

theorem engineAxis_axis : Axis (V := V) .heartbeat engineAxis where
  skip p input hne := by
    cases input with
    | signal signal => cases signal <;> rfl
    | message msg =>
        cases msg with
        | heartbeat => exact absurd rfl hne
        | response => rfl
  read p q input hsource hpq := by
    unfold engineAxis at hpq
    simp only [Prod.mk.injEq] at hpq
    obtain ⟨htbt, hflag, _, hconfig⟩ := hpq
    cases input with
    | signal signal => cases signal <;> cases hsource
    | message msg =>
        cases msg with
        | heartbeat status =>
            obtain ⟨htbt', hflag'⟩ :=
              updateTbtMs_congr status.tbtMs htbt hflag hconfig
            have hp := (updateTbtMs_frame p.triggerEngine status.tbtMs).1
            have hq := (updateTbtMs_frame q.triggerEngine status.tbtMs).1
            exact Prod.ext htbt' (Prod.ext hflag'
              (Prod.ext rfl (hp.trans (hconfig.trans hq.symm))))
        | response => cases hsource

/-! ## §4. Two runs over the same streams. -/

/-- **The order between sources leaves no mark.**  `xs` and `ys` interleave
the same streams, one for each source, in any two ways; the script may answer
differently in the two runs and be reloaded anywhere. -/
theorem axes_commute (x : Bindings) (p : LuaPolicy V)
    (xs ys : List (PolicyOp V)) (hstreams : ∀ k, stream k xs = stream k ys) :
    let q := (machine V x).exec p xs
    let r := (machine V x).exec p ys
    q.signalState = r.signalState
    ∧ q.triggerEngine.trigger = r.triggerEngine.trigger
    ∧ q.triggerEngine.tbt = r.triggerEngine.tbt
    ∧ q.engineState = r.engineState
    ∧ q.pressure = r.pressure
    ∧ q.mode = r.mode := by
  intro q r
  have hmem : memoryAxis q.book = memoryAxis r.book :=
    memoryAxis_axis.run x p (hstreams .memory)
  have hcpu : computeAxis q.book = computeAxis r.book :=
    computeAxis_axis.run x p (hstreams .compute)
  have htherm : thermalAxis q.book = thermalAxis r.book :=
    thermalAxis_axis.run x p (hstreams .thermal)
  have heng : engineAxis q.book = engineAxis r.book :=
    engineAxis_axis.run x p (hstreams .heartbeat)
  -- the axes together cover every field that the two runs are compared in
  unfold memoryAxis computeAxis thermalAxis engineAxis book at *
  simp only [Prod.mk.injEq] at hmem hcpu htherm heng
  obtain ⟨havail, htotal, hlow, _⟩ := hmem
  obtain ⟨hcpu, hgpu⟩ := hcpu
  obtain ⟨htemp, hthrottling, hhigh, _, hadapt⟩ := htherm
  obtain ⟨htbt, hdegraded, hengine, _⟩ := heng
  have hsignal : q.signalState = r.signalState := by
    cases hq : q.signalState
    cases hr : r.signalState
    simp_all
  have htrigger : q.triggerEngine.trigger = r.triggerEngine.trigger := by
    cases hq : q.triggerEngine.trigger
    cases hr : r.triggerEngine.trigger
    simp_all
  refine ⟨hsignal, htrigger, htbt, hengine, ?_, ?_⟩
  · unfold pressure TriggerEngine.tbtDegradationRatio
    rw [hsignal, hadapt, htbt]
  · unfold mode TriggerEngine.state
    rw [htrigger]

/-- A heartbeat and a memory reading may arrive either way round. -/
theorem heartbeat_memory_commute :
    let status : EngineStatus := ⟨0, 0, 0, .fin 20, .decode, .running⟩
    let hb : PolicyOp Unit := .updateEngineState (.heartbeat status)
    let mem : PolicyOp Unit := .processSignal (fun _ _ => ((), .ok .nil))
      (.memoryPressure .critical 1 10 0)
    let p := fresh () "policy.lua" none AdaptationConfig.default
    ((machine Unit Bindings.exact).exec p [hb, mem]).mode = .critical
      ∧ ((machine Unit Bindings.exact).exec p [mem, hb]).mode = .critical := by
  intro status hb mem p
  obtain ⟨_, _, _, _, _, hmode⟩ := axes_commute Bindings.exact p [hb, mem]
    [mem, hb] (fun k => by cases k <;> rfl)
  have hfirst : ((machine Unit Bindings.exact).exec p [hb, mem]).mode
      = .critical := by decide +kernel
  exact ⟨hfirst, hmode.symm.trans hfirst⟩

end ArgusManager.LuaPolicy
