/-
  ArgusManager.Sim.Injection
  ──────────────────────────
  **What an injection adds up to.**  An `add` without a lag puts its whole
  delta on the dimension at every tick that starts within its window.  Which
  ticks these are is up to the `f64` comparisons of the window test, not to how
  often the tick goes into the duration.

    • `step_foreign`        — a field that only injections write,
    • `injected_total`      — the dimension at the end of a run,
    • `injection_total_iff` — when the total change is the configured delta.
-/
import ArgusManager.Sim.Ticked

namespace ArgusManager.Sim

/-! ## §1. Fields that only injections write. -/

/-- Nothing but an injection writes the field. -/
structure Foreign (cfg : ScenarioConfig) (f : Field) : Prop where
  physical : f ∉ [Field.cpuFreqMhz, .gpuFreqMhz, .cpuClusterThermalC,
    .gpuClusterThermalC, .kvCacheBytes]
  actions : ∀ a ∈ cfg.actions.entries, a.2.effects.get f.name = none
  interactions : ∀ term ∈ cfg.interactions, term.effects.get f.name = none
  derived : ∀ d ∈ cfg.derived.entries, d.1 ≠ f.name

section Frame

variable {m : FloatVal.Libm} {cfg : ScenarioConfig} {f : Field}

/-- No action contributes to the field. -/
theorem contributions_foreign (h : Foreign cfg f) (engine : EngineStateModel)
    (ctx : ExprContext) : onDim f.name (contributions cfg engine ctx) = [] := by
  unfold contributions interactionContributions
  rw [onDim_append, onDim_flatMap, onDim_flatMap, List.append_eq_nil_iff,
    List.flatMap_eq_nil_iff, List.flatMap_eq_nil_iff]
  constructor
  -- an action that is declared has no effect on the field
  · intro action _
    unfold contributionsOf
    split
    next => rfl
    next spec hspec =>
      split
      next =>
        rw [onDim_effects spec.effects f.name
          (actionContributions_dim cfg.composition ctx),
          h.actions _ (StrMap.get_eq_some.mp hspec)]
        rfl
      next => rfl
  -- nor has an interaction, whether or not it is in force
  · intro term hterm
    split
    next =>
      rw [onDim_effects term.effects f.name
        (termContributions_dim cfg.composition ctx),
        h.interactions term hterm]
      rfl
    next => rfl

theorem applyActions_foreign (h : Foreign cfg f) (engine : EngineStateModel)
    (dtS : FloatVal) (s : PhysicalState) (ctx : ExprContext) :
    (applyActions m cfg engine dtS s ctx).1.num f = s.num f := by
  by_cases hnil : engine.activeActions = []
  · unfold applyActions
    rw [if_pos hnil]
  · rw [applyActions_num m cfg engine dtS s ctx hnil, valuesOn_onDim,
      contributions_foreign h]
    rfl

/-- The first two phases do not write it either. -/
theorem physical_foreign (h : Foreign cfg f) {dtS : FloatVal}
    {s s' : PhysicalState} (hdvfs : dvfsUpdate m cfg dtS s = some s')
    (engine : EngineStateModel) :
    (passiveDynamics m cfg engine dtS s').num f = s.num f := by
  have hne : ∀ g ∈ [Field.cpuFreqMhz, .gpuFreqMhz, .cpuClusterThermalC,
      .gpuClusterThermalC, .kvCacheBytes], f ≠ g :=
    fun g hg heq => h.physical (heq ▸ hg)
  rw [passiveDynamics_frame cfg engine dtS s' (hne _ (by simp))
    (hne _ (by simp)) (hne _ (by simp))]
  exact dvfsUpdate_frame hdvfs (hne _ (by simp)) (hne _ (by simp))

/-- **A step leaves the field to the injections.** -/
theorem step_foreign (h : Foreign cfg f) (engine : EngineStateModel)
    {nowS dtS : FloatVal} {s : PhysicalState} (hdvfs : DvfsOrdered cfg s)
    (ctx : ExprContext) :
    (step m cfg engine nowS dtS s ctx).1.1.num f
      = (externalInjectionApply m cfg nowS dtS s).num f := by
  obtain ⟨s', hs'⟩ := Option.isSome_iff_exists.mp
    ((dvfsUpdate_isSome m cfg dtS s).mpr hdvfs)
  unfold step physicalPhases
  rw [hs']
  show (evaluate m cfg engine _ _).1.1.num f = _
  unfold evaluate
  rw [evaluateLoop_frame h.derived, applyActions_foreign h]
  exact injections_congr nowS dtS _ (physical_foreign h hs' engine)

/-- A field that nothing writes keeps its value. -/
theorem step_untouched (h : Foreign cfg f)
    (hinj : ∀ inj ∈ cfg.externalInjections, f.name ≠ inj.var)
    (engine : EngineStateModel) (nowS dtS : FloatVal) (s : PhysicalState)
    (ctx : ExprContext) :
    (step m cfg engine nowS dtS s ctx).1.1.num f = s.num f := by
  by_cases hdvfs : DvfsOrdered cfg s
  · rw [step_foreign h engine hdvfs]
    exact injections_frame nowS dtS hinj s
  · have hnone : dvfsUpdate m cfg dtS s = none := by
      rw [← Option.not_isSome_iff_eq_none, dvfsUpdate_isSome]
      exact hdvfs
    unfold step physicalPhases
    rw [hnone]
    rfl

/-- Without derived metrics only DVFS can fail. -/
theorem step_ok (h : cfg.derived.entries = []) (engine : EngineStateModel)
    {nowS dtS : FloatVal} {s : PhysicalState} (hdvfs : DvfsOrdered cfg s)
    (ctx : ExprContext) :
    (step m cfg engine nowS dtS s ctx).2 = .ok () := by
  obtain ⟨s', hs'⟩ := Option.isSome_iff_exists.mp
    ((dvfsUpdate_isSome m cfg dtS s).mpr hdvfs)
  unfold step physicalPhases
  rw [hs']
  show (evaluate m cfg engine _ _).2 = _
  unfold evaluate
  rw [h]
  rfl

end Frame

/-! ## §2. Delta upon delta. -/

/-- So many times the delta. -/
def addTimes (delta : FloatVal) (n : Nat) (x : FloatVal) : FloatVal :=
  (fun y => y + delta)^[n] x

theorem addTimes_succ (delta : FloatVal) (n : Nat) (x : FloatVal) :
    addTimes delta (n + 1) x = addTimes delta n x + delta :=
  Function.iterate_succ_apply' _ n x

theorem addTimes_fin (b : ℚ) (n : Nat) (a : ℚ) :
    addTimes (.fin b) n (.fin a) = .fin (a + n * b) := by
  induction n with
  | zero =>
      rw [Nat.cast_zero, zero_mul, add_zero]
      rfl
  | succ n ih =>
      rw [addTimes_succ, ih, FloatVal.fin_add, Nat.cast_succ]
      congr 1
      ring

/-- A sum that is not finite does not move any more. -/
theorem add_absorbs {x delta : FloatVal} (h : (x + delta).isFinite = false) :
    x + delta + delta = x + delta := by
  cases x <;> cases delta <;> first | rfl | cases h

/-- Adding a delta so many times is adding it once: because it is only once,
because it leaves the value as it is, or because it does so from the second
time on. -/
def OneShot (x delta : FloatVal) (n : Nat) : Prop :=
  n = 1 ∨ x + delta = x ∨ (0 < n ∧ x + delta + delta = x + delta)

theorem addTimes_eq_iff (x delta : FloatVal) (n : Nat) :
    addTimes delta n x = x + delta ↔ OneShot x delta n := by
  constructor
  · intro h
    by_cases hfin : (x + delta).isFinite = false
    · cases n with
      | zero => exact .inr (.inl h.symm)
      | succ n => exact .inr (.inr ⟨Nat.succ_pos n, add_absorbs hfin⟩)
    · cases x with
      | fin a =>
          cases delta with
          | fin b =>
              rw [addTimes_fin, FloatVal.fin_add] at h
              -- a + n * b = a + b
              have hsum : ((n : ℚ) - 1) * b = 0 := by
                have := FloatVal.fin.inj h
                linarith
              rcases mul_eq_zero.mp hsum with hn | hb
              · left
                exact_mod_cast sub_eq_zero.mp hn
              · rw [hb]
                exact .inr (.inl (FloatVal.add_zero _))
          | nan => exact absurd rfl hfin
          | negInf => exact absurd rfl hfin
          | posInf => exact absurd rfl hfin
      | nan => exact absurd (FloatVal.isFinite_add _ _) hfin
      | negInf => exact absurd (FloatVal.isFinite_add _ _) hfin
      | posInf => exact absurd (FloatVal.isFinite_add _ _) hfin
  · rintro (rfl | hstay | ⟨hn, habsorbs⟩)
    · rfl
    · exact (Function.iterate_fixed hstay n).trans hstay.symm
    · obtain ⟨n, rfl⟩ := Nat.exists_eq_succ_of_ne_zero hn.ne'
      exact Function.iterate_fixed habsorbs n

/-- One step of a list at a time. -/
theorem foldl_addTimes {α : Type} (hit : α → Bool) (delta : FloatVal)
    (ts : List α) (x : FloatVal) :
    ts.foldl (fun y t => if hit t then y + delta else y) x
      = addTimes delta (ts.countP hit) x := by
  induction ts generalizing x with
  | nil => rfl
  | cons t ts ih =>
      rw [List.foldl_cons, ih]
      cases ht : hit t with
      | true =>
          rw [List.countP_cons_of_pos ht, if_pos rfl]
          rfl
      | false =>
          rw [List.countP_cons_of_neg (by simp [ht]), if_neg (by simp)]

/-! ## §3. The window. -/

/-- What an `add` without a lag makes of its field. -/
theorem applyInjection_add {m : FloatVal.Libm} {inj : ExternalInjection}
    {f : Field} {delta : FloatVal} (hvar : inj.var = f.name)
    (hop : inj.op = "add") (htau : inj.tauS = .fin 0)
    (hamount : inj.amount = some delta) (nowS dtS : FloatVal)
    (s : PhysicalState) :
    (applyInjection m nowS dtS s inj).num f
      = if inj.inWindow nowS then s.num f + delta else s.num f := by
  have hlag : FloatVal.lt (.fin 0) (.fin 0) = false := FloatVal.lt_irrefl _
  unfold applyInjection
  rw [hamount, hop, htau, hvar, hlag, PhysicalState.getF64_name]
  split
  next => simp
  next => rfl

section Run

variable {ρ σ : Type}

/-- A run in which an injection adds to a dimension, and no tick changes that
but by the injection. -/
structure Adds (u : Setup ρ σ) (inj : ExternalInjection) (f : Field)
    (delta : FloatVal) (sim : u.Machine)
    (calls : List (Simulator.SimCall PhysicalState PhysicalStateSnapshot σ ρ
      ExprContext)) : Prop where
  declared : inj ∈ u.cfg.externalInjections
  var : inj.var = f.name
  op : inj.op = "add"
  tauS : inj.tauS = .fin 0
  amount : inj.amount = some delta
  alone : ∀ t ∈ Simulator.tickedIn u.scenario sim calls,
    (u.stepAt t).1.1.num f
      = (applyInjection u.m (asSecsF64 t.clock.now) (.fin (asSecs u.tickDt))
          t.state inj).num f

/-- How many ticks of a run start within the window. -/
def windowTicks (u : Setup ρ σ) (inj : ExternalInjection) (sim : u.Machine)
    (calls : List (Simulator.SimCall PhysicalState PhysicalStateSnapshot σ ρ
      ExprContext)) : Nat :=
  (Simulator.tickedIn u.scenario sim calls).countP fun t =>
    inj.inWindow (asSecsF64 t.clock.now)

variable {u : Setup ρ σ} {inj : ExternalInjection} {f : Field}
  {delta : FloatVal} {sim : u.Machine}
  {calls : List (Simulator.SimCall PhysicalState PhysicalStateSnapshot σ ρ
    ExprContext)}

/-- One tick adds the delta or leaves the dimension alone. -/
theorem Adds.tick (h : Adds u inj f delta sim calls) {t : u.Machine}
    (ht : t ∈ Simulator.tickedIn u.scenario sim calls) :
    (Simulator.tick u.scenario t).sim.state.num f
      = if inj.inWindow (asSecsF64 t.clock.now) then t.state.num f + delta
        else t.state.num f := by
  rw [u.tick_state, h.alone t ht,
    applyInjection_add h.var h.op h.tauS h.amount]

/-- **At the end of the run every tick within the window has added the
delta.** -/
theorem injected_total (h : Adds u inj f delta sim calls) :
    ((Simulator.machine u.scenario).exec sim calls).state.num f
      = addTimes delta (windowTicks u inj sim calls) (sim.state.num f) := by
  refine Eq.trans ?_ (foldl_addTimes _ delta _ _)
  exact Simulator.tickedIn_foldl u.scenario (V := fun t => t.state.num f)
    (g := fun t y =>
      if inj.inWindow (asSecsF64 t.clock.now) then y + delta else y)
    (fun _ _ => rfl) fun t ht => h.tick ht

/-- **When the change is the configured delta.** -/
theorem injection_total_iff (h : Adds u inj f delta sim calls) :
    ((Simulator.machine u.scenario).exec sim calls).state.num f
        = sim.state.num f + delta
      ↔ OneShot (sim.state.num f) delta (windowTicks u inj sim calls) := by
  rw [injected_total h]
  exact addTimes_eq_iff _ _ _

/-- In a `run_for` that succeeds the ticks are at the multiples of the tick
from its start. -/
theorem windowTicks_runFor (u : Setup ρ σ) (inj : ExternalInjection)
    (sim : u.Machine) (n : Nat)
    (h : ∀ t ∈ Simulator.ticked u.scenario sim (.runFor (n * u.tickDt)),
      (Simulator.tick u.scenario t).result = .ok ()) :
    windowTicks u inj sim [.runFor (n * u.tickDt)]
      = (List.range' sim.clock.now n u.tickDt).countP fun now =>
          inj.inWindow (asSecsF64 now) := by
  have htimes : List.range' sim.clock.now n u.tickDt = _ :=
    (Simulator.runFor_times u.scenario sim n h).symm
  have hticked : Simulator.tickedIn u.scenario sim [.runFor (n * u.tickDt)]
      = Simulator.ticked u.scenario sim (.runFor (n * u.tickDt)) :=
    List.append_nil _
  unfold windowTicks
  rw [htimes, hticked, List.countP_map]
  rfl

end Run

/-! ## §4. Two ticks of load. -/

/-- Where nothing else is declared, the fields outside the first two phases
are foreign. -/
theorem Foreign.of_empty {cfg : ScenarioConfig} {f : Field}
    (hactions : cfg.actions = .empty) (hinteractions : cfg.interactions = [])
    (hderived : cfg.derived = .empty)
    (hf : f ∉ [Field.cpuFreqMhz, .gpuFreqMhz, .cpuClusterThermalC,
      .gpuClusterThermalC, .kvCacheBytes]) : Foreign cfg f := by
  refine ⟨hf, ?_, ?_, ?_⟩
  · intro a ha
    rw [hactions] at ha
    exact absurd ha List.not_mem_nil
  · intro term hterm
    rw [hinteractions] at hterm
    exact absurd hterm List.not_mem_nil
  · intro d hd
    rw [hderived] at hd
    exact absurd hd List.not_mem_nil

/-- Two seconds of 10 % of load from other processes. -/
def load : ExternalInjection where
  tStart := .fin 1
  duration := .fin 2
  var := "external_cpu_pct"
  op := "add"
  delta := some (.fin 10)
  deltaMb := none
  tauS := .fin 0

def loaded : ScenarioConfig where
  __ := ScenarioConfig.still
  externalInjections := [load]

theorem load_timing : load.timing = some ⟨fromSecs 1, fromSecs 2⟩ := by
  have hone := fromSecsF64_natCast (n := 1) (by decide)
  have htwo := fromSecsF64_natCast (n := 2) (by decide)
  rw [Nat.cast_one] at hone
  rw [Nat.cast_ofNat] at htwo
  unfold ExternalInjection.timing
  rw [show load.tStart = .fin 1 from rfl, show load.duration = .fin 2 from rfl,
    hone, htwo]
  rfl

theorem loaded_timing : loaded.timing = some
    { secondly with externalInjections := [⟨fromSecs 1, fromSecs 2⟩] } := by
  have hobs : loaded.observation = ScenarioConfig.still.observation := rfl
  refine timing_eq_secondly hobs ?_
  show [load].mapM ExternalInjection.timing = _
  rw [List.mapM_cons, load_timing]
  rfl

/-- The scenario in ticks of a second. -/
def loadedSetup : Setup Unit Unit where
  m := .flat
  cfg := loaded
  timing := { secondly with externalInjections := [⟨fromSecs 1, fromSecs 2⟩] }
  timing_eq := loaded_timing
  proj := idleProjections
  policy := Simulator.idlePolicy
  tickDt := fromSecs 1
  tickDt_pos := second_pos

/-- The frequency bounds stay where they are. -/
theorem loaded_bounds {f : Field}
    (hf : f ∈ [Field.cpuMinFreqMhz, .cpuMaxFreqMhz, .gpuMinFreqMhz,
      .gpuMaxFreqMhz])
    (calls : List (Simulator.SimCall PhysicalState PhysicalStateSnapshot Unit
      Unit ExprContext)) :
    ∀ t ∈ Simulator.tickedIn loadedSetup.scenario (loadedSetup.start () ())
      calls,
      t.state.num f = (loadedSetup.start () ()).state.num f := by
  have hothers : ∀ g ∈ [Field.cpuMinFreqMhz, .cpuMaxFreqMhz, .gpuMinFreqMhz,
      .gpuMaxFreqMhz], g ∉ [Field.cpuFreqMhz, .gpuFreqMhz, .cpuClusterThermalC,
      .gpuClusterThermalC, .kvCacheBytes] ∧ g.name ≠ load.var := by
    decide
  have hforeign : Foreign loaded f := .of_empty rfl rfl rfl (hothers f hf).1
  have hinj : ∀ inj ∈ loaded.externalInjections, f.name ≠ inj.var :=
    List.forall_mem_singleton.mpr (hothers f hf).2
  refine (Simulator.tickedIn_invariant loadedSetup.scenario
    (I := fun t => t.state.num f = (loadedSetup.start () ()).state.num f)
    (fun _ _ h => h) rfl ?_).1
  intro t _ ht
  rw [← ht, loadedSetup.tick_state]
  exact step_untouched hforeign hinj ..

/-- So DVFS never panics. -/
theorem loaded_ordered
    (calls : List (Simulator.SimCall PhysicalState PhysicalStateSnapshot Unit
      Unit ExprContext)) :
    ∀ t ∈ Simulator.tickedIn loadedSetup.scenario (loadedSetup.start () ())
      calls, DvfsOrdered loaded t.state := by
  intro t ht
  refine ⟨.inr (.inr ?_), .inr (.inr ?_)⟩
  · rw [loaded_bounds (by decide) calls t ht, loaded_bounds (by decide) calls t
      ht]
    show FloatVal.le (.fin (1000 : Nat) / .fin (2000 : Nat)) (.fin 1) = true
    rw [FloatVal.fin_div _ (by norm_num)]
    norm_num
  · rw [loaded_bounds (by decide) calls t ht, loaded_bounds (by decide) calls t
      ht]
    show FloatVal.le (.fin (400 : Nat) / .fin (800 : Nat)) (.fin 1) = true
    rw [FloatVal.fin_div _ (by norm_num)]
    norm_num

/-- Nor does any tick fail. -/
theorem loaded_succeeds
    (calls : List (Simulator.SimCall PhysicalState PhysicalStateSnapshot Unit
      Unit ExprContext)) :
    ∀ t ∈ Simulator.tickedIn loadedSetup.scenario (loadedSetup.start () ())
      calls, (Simulator.tick loadedSetup.scenario t).result = .ok () := by
  intro t ht
  have hstep : (loadedSetup.stepAt t).2 = .ok () :=
    step_ok rfl _ (loaded_ordered calls t ht) _
  rw [(loadedSetup.tick_stepAt t).2, hstep]
  rfl

theorem loaded_adds :
    Adds loadedSetup load .externalCpuPct (.fin 10) (loadedSetup.start () ())
      [.runFor (3 * fromSecs 1)] where
  declared := List.mem_singleton_self _
  var := rfl
  op := rfl
  tauS := rfl
  amount := rfl
  alone := by
    intro t ht
    have hforeign : Foreign loaded .externalCpuPct :=
      .of_empty rfl rfl rfl (by decide)
    exact step_foreign hforeign _ (loaded_ordered _ t ht) _

theorem load_inWindow {secs : Nat} (h : secs < 2 ^ 53) :
    load.inWindow (asSecsF64 (fromSecs secs))
      = (decide (1 ≤ secs) && decide (secs < 3)) := by
  have hend : (load.tStart + load.duration).toF64 = .fin 3 := by
    have hthree := FloatVal.toF64_natCast (n := 3) (by decide)
    rw [Nat.cast_ofNat] at hthree
    show (FloatVal.fin (1 + 2)).toF64 = _
    rw [← hthree]
    norm_num
  unfold ExternalInjection.inWindow
  rw [asSecsF64_fromSecs h, hend, show load.tStart = .fin 1 from rfl,
    FloatVal.le_fin, FloatVal.lt_fin]
  congr 1
  · exact_mod_cast rfl
  · exact_mod_cast rfl

/-- The window is the second and the third tick. -/
theorem loaded_windowTicks :
    windowTicks loadedSetup load (loadedSetup.start () ())
      [.runFor (3 * fromSecs 1)] = 2 := by
  have hticks := loaded_succeeds [.runFor (3 * fromSecs 1)]
  refine (windowTicks_runFor loadedSetup load (loadedSetup.start () ()) 3
    fun t ht => hticks t (List.mem_append_left _ ht)).trans ?_
  have htimes : List.range' (loadedSetup.start () ()).clock.now 3
      loadedSetup.tickDt = [0, 1, 2].map fromSecs := rfl
  rw [htimes, List.countP_map, List.countP_congr (q := fun secs =>
    decide (1 ≤ secs) && decide (secs < 3))]
  · rfl
  · intro secs hsecs
    have hsmall : secs < 2 ^ 53 := by
      have : ∀ n ∈ [0, 1, 2], n < 2 ^ 53 := by decide
      exact this secs hsecs
    rw [Function.comp_apply, load_inWindow hsmall]

/-- In ticks of a second, which divide the window, two seconds of 10 % are
20 %. -/
theorem loaded_doubles :
    loaded.Accepted
      ∧ Adds loadedSetup load .externalCpuPct (.fin 10)
          (loadedSetup.start () ()) [.runFor (3 * fromSecs 1)]
      ∧ load.tStart = .fin (asSecs (1 * loadedSetup.tickDt))
      ∧ load.duration = .fin (asSecs (2 * loadedSetup.tickDt))
      ∧ (loadedSetup.start () ()).clock.now = 0
      ∧ ((Simulator.machine loadedSetup.scenario).exec
            (loadedSetup.start () ()) [.runFor (3 * fromSecs 1)]).clock.now
          = 3 * loadedSetup.tickDt
      ∧ ((Simulator.machine loadedSetup.scenario).exec
            (loadedSetup.start () ()) [.runFor (3 * fromSecs 1)]).state.num
            .externalCpuPct
          ≠ (loadedSetup.start () ()).state.num .externalCpuPct + .fin 10 := by
  have hstart : asSecs (1 * loadedSetup.tickDt) = 1 := by
    show asSecs (1 * fromSecs 1) = 1
    unfold asSecs fromSecs
    norm_num
  have hduration : asSecs (2 * loadedSetup.tickDt) = 2 := by
    show asSecs (2 * fromSecs 1) = 2
    unfold asSecs fromSecs
    norm_num
  have hticks := loaded_succeeds [.runFor (3 * fromSecs 1)]
  have hnow := Simulator.runFor_now loadedSetup.scenario
    (loadedSetup.start () ()) (d := 3 * fromSecs 1) ⟨3, by decide⟩
    fun t ht => hticks t (List.mem_append_left _ ht)
  refine ⟨⟨by decide, rfl⟩, loaded_adds, ?_, ?_, rfl, hnow, ?_⟩
  · rw [hstart]
    rfl
  · rw [hduration]
    rfl
  · rw [injected_total loaded_adds, loaded_windowTicks]
    show addTimes (.fin 10) 2 (.fin 0) ≠ .fin 0 + .fin 10
    rw [addTimes_fin, FloatVal.fin_add]
    intro h
    exact absurd (FloatVal.fin.inj h) (by norm_num)

/-- So it is not one delta. -/
theorem loaded_total_iff :
    ((Simulator.machine loadedSetup.scenario).exec (loadedSetup.start () ())
        [.runFor (3 * fromSecs 1)]).state.num .externalCpuPct
        = (loadedSetup.start () ()).state.num .externalCpuPct + .fin 10
      ↔ OneShot ((loadedSetup.start () ()).state.num .externalCpuPct)
          (.fin 10) (windowTicks loadedSetup load (loadedSetup.start () ())
            [.runFor (3 * fromSecs 1)]) :=
  injection_total_iff loaded_adds

/-- A window of 50 ms from 100 ms on is open at two ticks of 50 ms: the `f64`
sum of the two is more than `0.15`. -/
example :
    let inj := { load with
      tStart := (FloatVal.fin (1 / 10)).toF64
      duration := (FloatVal.fin (1 / 20)).toF64 }
    (List.range' 0 5 50000000).map (fun now => inj.inWindow (asSecsF64 now))
      = [false, false, true, true, false] := by decide +kernel

end ArgusManager.Sim
