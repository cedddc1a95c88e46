/-
  ArgusManager.Sim.Panics
  ───────────────────────
  **When a run panics**: in a conversion of the scenario's seconds before the
  first tick, at the clamp of a DVFS frequency, or when a derived metric puts
  a float under the name of a string.

  `load_scenario` looks at none of the three.
-/
import ArgusManager.Sim.Stops

namespace ArgusManager.Sim

/-! ## §1. Conversions. -/

/-- A number of seconds that is a `Duration`: finite, not negative, and
small enough once rounded. -/
def Convertible (x : FloatVal) : Prop :=
  ∃ q : ℚ, x = .fin q ∧ 0 ≤ q
    ∧ roundTiesEven (q * 1000000000) < 2 ^ 64 * 1000000000

theorem fromSecsF64_isSome (x : FloatVal) :
    (fromSecsF64 x).isSome ↔ Convertible x := by
  cases x with
  | fin q =>
      unfold fromSecsF64
      dsimp only
      constructor
      · intro h
        split at h
        next => cases h
        next hfits =>
          obtain ⟨hsign, hsize⟩ := not_or.mp hfits
          exact ⟨q, rfl, not_lt.mp hsign, by omega⟩
      · rintro ⟨q', heq, hsign, hsize⟩
        obtain rfl := FloatVal.fin.inj heq
        rw [if_neg]
        · rfl
        · rintro (hneg | hbig)
          · exact absurd hneg (not_lt.mpr hsign)
          · omega
  | nan => exact ⟨nofun, fun ⟨_, h, _⟩ => by cases h⟩
  | negInf => exact ⟨nofun, fun ⟨_, h, _⟩ => by cases h⟩
  | posInf => exact ⟨nofun, fun ⟨_, h, _⟩ => by cases h⟩

/-- The intervals of a scenario. -/
def ScenarioConfig.intervals (cfg : ScenarioConfig) : List FloatVal :=
  [cfg.observation.heartbeat.intervalS,
    cfg.observation.signals.memory.pollIntervalS,
    cfg.observation.signals.compute.pollIntervalS,
    cfg.observation.signals.thermal.pollIntervalS,
    cfg.observation.signals.energy.pollIntervalS]

/-- The window of an injection is made of durations. -/
structure ExternalInjection.Fits (inj : ExternalInjection) : Prop where
  tStart : Convertible inj.tStart
  duration : Convertible inj.duration
  tEnd : ∀ tStart duration, fromSecsF64 inj.tStart = some tStart →
    fromSecsF64 inj.duration = some duration →
    tStart + duration < 2 ^ 64 * 1000000000

/-- All that a scenario says of time is made of durations. -/
structure ScenarioConfig.TimesFit (cfg : ScenarioConfig) : Prop where
  intervals : ∀ x ∈ cfg.intervals, Convertible x
  injections : ∀ inj ∈ cfg.externalInjections, inj.Fits

theorem isSome_bind_iff {α β : Type} {x : Option α} {f : α → Option β}
    {P : Prop} (h : ∀ a, (f a).isSome ↔ P) :
    (x.bind f).isSome ↔ x.isSome ∧ P := by
  cases x with
  | none => exact ⟨nofun, fun h => h.1⟩
  | some a => exact (h a).trans ⟨fun hP => ⟨rfl, hP⟩, fun h => h.2⟩

theorem mapM_isSome {α β : Type} (f : α → Option β) (xs : List α) :
    (xs.mapM f).isSome ↔ ∀ x ∈ xs, (f x).isSome := by
  induction xs with
  | nil => simp
  | cons x xs ih =>
      rw [List.mapM_cons, List.forall_mem_cons, ← ih]
      refine isSome_bind_iff fun y => ?_
      exact (isSome_bind_iff (P := True) fun ys => by simp).trans
        (iff_of_eq (and_true _))

theorem ExternalInjection.timing_isSome (inj : ExternalInjection) :
    inj.timing.isSome ↔ inj.Fits := by
  have htStart := fromSecsF64_isSome inj.tStart
  have hduration := fromSecsF64_isSome inj.duration
  unfold ExternalInjection.timing
  cases hs : fromSecsF64 inj.tStart with
  | none =>
      rw [hs] at htStart
      exact ⟨nofun, fun h => htStart.mpr h.tStart⟩
  | some tStart =>
      rw [hs] at htStart
      cases hd : fromSecsF64 inj.duration with
      | none =>
          rw [hd] at hduration
          exact ⟨nofun, fun h => hduration.mpr h.duration⟩
      | some duration =>
          rw [hd] at hduration
          show ((addDuration tStart duration).bind _).isSome ↔ _
          unfold addDuration
          split
          next hfits =>
            refine ⟨fun _ => ⟨htStart.mp rfl, hduration.mp rfl, ?_⟩,
              fun _ => rfl⟩
            intro a b ha hb
            obtain rfl := Option.some.inj (hs.symm.trans ha)
            obtain rfl := Option.some.inj (hd.symm.trans hb)
            exact hfits
          next hfits => exact ⟨nofun, fun h => absurd (h.tEnd _ _ hs hd) hfits⟩

/-- **When the preload panics.** -/
theorem ScenarioConfig.timing_isSome (cfg : ScenarioConfig) :
    cfg.timing.isSome ↔ cfg.TimesFit := by
  have hchain : cfg.timing.isSome
      ↔ (∀ x ∈ cfg.intervals, (fromSecsF64 x).isSome)
        ∧ (cfg.externalInjections.mapM ExternalInjection.timing).isSome := by
    unfold ScenarioConfig.timing intervals
    simp only [List.forall_mem_cons, List.not_mem_nil, false_implies,
      implies_true, and_true, and_assoc]
    refine isSome_bind_iff fun _ => isSome_bind_iff fun _ =>
      isSome_bind_iff fun _ => isSome_bind_iff fun _ =>
      isSome_bind_iff fun _ => ?_
    exact (isSome_bind_iff (P := True) fun _ => by simp).trans
      (iff_of_eq (and_true _))
  rw [hchain, mapM_isSome]
  constructor
  · rintro ⟨hintervals, hinjections⟩
    refine ⟨?_, ?_⟩
    · exact fun x hx => (fromSecsF64_isSome x).mp (hintervals x hx)
    · exact fun inj hinj => inj.timing_isSome.mp (hinjections inj hinj)
  · intro h
    refine ⟨?_, ?_⟩
    · exact fun x hx => (fromSecsF64_isSome x).mpr (h.intervals x hx)
    · exact fun inj hinj => inj.timing_isSome.mpr (h.injections inj hinj)

/-! ## §2. Runs. -/

/-- A scenario whose durations nobody has computed yet. -/
structure Launch (ρ σ : Type) where
  m : FloatVal.Libm
  cfg : ScenarioConfig
  proj : Projections ρ
  policy : SimPolicy σ
  tickDt : Nat
  tickDt_pos : 0 < tickDt

namespace Launch

variable {ρ σ : Type}

def setup (l : Launch ρ σ) {timing : ArgusManager.ScenarioConfig}
    (h : l.cfg.timing = some timing) : Setup ρ σ where
  m := l.m
  cfg := l.cfg
  timing := timing
  timing_eq := h
  proj := l.proj
  policy := l.policy
  tickDt := l.tickDt
  tickDt_pos := l.tickDt_pos

/-- A simulator of the scenario. -/
abbrev Machine (_ : Launch ρ σ) : Type :=
  Simulator PhysicalState PhysicalStateSnapshot σ ρ ExprContext

/-- A call of it. -/
abbrev Call (_ : Launch ρ σ) : Type :=
  Simulator.SimCall PhysicalState PhysicalStateSnapshot σ ρ ExprContext

/-- Some calls reach no panic: every one of them preloads, and ticks. -/
structure NoPanic (l : Launch ρ σ) (sim : l.Machine) (calls : List l.Call) :
    Prop where
  preloads : calls ≠ [] → l.cfg.timing.isSome
  steps : ∀ timing (h : l.cfg.timing = some timing),
    ∀ t ∈ Simulator.tickedIn (l.setup h).scenario sim calls,
      ((l.setup h).stepAt t).2 ≠ .error .panic

/-- The scenario's times are durations; at every tick the bounds of DVFS are
in order, and no derived metric is a float under the name of a string. -/
structure InRange (l : Launch ρ σ) (sim : l.Machine) (calls : List l.Call) :
    Prop where
  times : calls ≠ [] → l.cfg.TimesFit
  dvfs : ∀ timing (h : l.cfg.timing = some timing),
    ∀ t ∈ Simulator.tickedIn (l.setup h).scenario sim calls,
      DvfsOrdered l.cfg t.state
  derived : ∀ timing (h : l.cfg.timing = some timing),
    ∀ t ∈ Simulator.tickedIn (l.setup h).scenario sim calls,
      (l.setup h).DerivedAt Settable t

/-- No derived metric under the name of a string is enough for the last of
these. -/
theorem settable_of_names (l : Launch ρ σ)
    (hnames : ∀ d ∈ l.cfg.derived.entries, StrVar.ofName? d.1 = none)
    {timing : ArgusManager.ScenarioConfig} (h : l.cfg.timing = some timing)
    (t : l.Machine) : (l.setup h).DerivedAt Settable t := by
  refine derivedAtTurns_of_binds ?_ l.m _ _ _ t.state t.ctx
  intro d hd c _ hsome
  rw [hnames d hd] at hsome
  exact absurd hsome (by simp)

/-- **When a run reaches no panic.** -/
theorem noPanic_iff (l : Launch ρ σ) (sim : l.Machine)
    (calls : List l.Call) : l.NoPanic sim calls ↔ l.InRange sim calls := by
  constructor
  · intro h
    refine ⟨?_, ?_, ?_⟩
    · exact fun hcalls => l.cfg.timing_isSome.mp (h.preloads hcalls)
    · intro timing htiming t ht
      exact (step_panic_iff.mp (h.steps timing htiming t ht)).1
    · intro timing htiming t ht
      exact (step_panic_iff.mp (h.steps timing htiming t ht)).2
  · intro h
    refine ⟨?_, ?_⟩
    · exact fun hcalls => l.cfg.timing_isSome.mpr (h.times hcalls)
    · intro timing htiming t ht
      exact step_panic_iff.mpr
        ⟨h.dvfs timing htiming t ht, h.derived timing htiming t ht⟩

/-- A scenario that nobody reacts to, in ticks of a second. -/
def idle (cfg : ScenarioConfig) : Launch Unit Unit where
  m := .flat
  cfg := cfg
  proj := idleProjections
  policy := Simulator.idlePolicy
  tickDt := fromSecs 1
  tickDt_pos := second_pos

/-- Its simulator. -/
def start (l : Launch Unit Unit) : l.Machine :=
  .new (.fromConfig l.cfg.initialState) (engineFromConfig l.cfg.initialState)
    () () .new

end Launch

/-- A scenario whose heartbeats are a negative second apart. -/
def backwards : ScenarioConfig where
  __ := ScenarioConfig.still
  observation :=
    { ScenarioConfig.still.observation with heartbeat := ⟨.fin (-1)⟩ }

/-- A scenario between its two thresholds, with a least frequency above the
greatest. -/
def inverted : ScenarioConfig where
  __ := ScenarioConfig.still
  initialState :=
    { ScenarioConfig.still.initialState with
      cpuMinFreqMhz := 3000
      cpuClusterThermalC := .fin 75 }

/-- **Both are accepted, and a second of either panics.** -/
theorem accepted_panics :
    (backwards.Accepted
      ∧ ¬ (Launch.idle backwards).NoPanic (Launch.idle backwards).start
        [.runFor (fromSecs 1)])
      ∧ inverted.Accepted
      ∧ ¬ (Launch.idle inverted).NoPanic (Launch.idle inverted).start
        [.runFor (fromSecs 1)] := by
  refine ⟨⟨⟨by decide, rfl⟩, ?_⟩, ⟨by decide, rfl⟩, ?_⟩
  · intro h
    -- the interval of -1 s is no duration
    have hfit := backwards.timing_isSome.mp (h.preloads (List.cons_ne_nil _ _))
    obtain ⟨q, hq, hsign, _⟩ := hfit.intervals _ List.mem_cons_self
    obtain rfl := FloatVal.fin.inj hq
    exact absurd hsign (by norm_num)
  · intro h
    have htiming : inverted.timing = some secondly :=
      have hobs : inverted.observation = ScenarioConfig.still.observation := rfl
      timing_secondly hobs rfl
    have hticked := Simulator.first_ticked
      ((Launch.idle inverted).setup htiming).scenario
      (Launch.idle inverted).start (d := fromSecs 1) (by decide)
    have hordered :=
      (step_panic_iff.mp (h.steps _ htiming _ hticked)).1.cpu
    -- 75 degrees are neither below the soft threshold nor above the hard one
    rcases hordered with hsoft | hhard | hratio
    · change FloatVal.lt (.fin 75) (.fin 70) = true at hsoft
      norm_num at hsoft
    · change FloatVal.le (.fin 80) (.fin 75) = true at hhard
      norm_num at hhard
    · change FloatVal.le (.fin (3000 : Nat) / .fin (2000 : Nat)) (.fin 1)
        = true at hratio
      rw [FloatVal.fin_div _ (by norm_num)] at hratio
      norm_num at hratio

end ArgusManager.Sim
