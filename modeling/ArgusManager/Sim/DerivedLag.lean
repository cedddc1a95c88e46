/-
  ArgusManager.Sim.DerivedLag
  ───────────────────────────
  **The lag of derived metrics, against simulated time** (`evaluate`,
  `src/sim/derived.rs`).

  The physics step knows how long its tick is and hands that to every lag but
  those of the derived metrics: these always take 50 ms.  And an entry's value
  so far is looked up among the fields of the state, so under any other name a
  lag starts from 0 at every tick.

    • `tick_evaluated`   — what a tick leaves of an entry,
    • `inTime_of_steady` — fields that only their entry writes, in ticks of
                           50 ms, lag with simulated time,
    • `derived_lag_iff`  — when a run does, and exactly when on numbers,
    • `perTick_iterate`  — to a constant value metrics converge per tick, not
                           per second.
-/
import ArgusManager.Sim.DerivedOrder
import ArgusManager.Sim.Injection
import ArgusManager.Sim.Stops

namespace ArgusManager.Sim

/-! ## §1. An entry at its turn. -/

/-- The value that `evaluate` takes for an entry's so far. -/
def fieldValue (d : String × DerivedExpr) (s : PhysicalState) : FloatVal :=
  (s.getF64 d.1).getD (.fin 0)

theorem fieldValue_name {d : String × DerivedExpr} {f : Field}
    (h : f.name = d.1) (s : PhysicalState) : fieldValue d s = s.num f := by
  unfold fieldValue
  rw [← h, PhysicalState.getF64_name]
  rfl

namespace Setup

variable {ρ σ : Type} (u : Setup ρ σ)

/-- Where the tick from `t` starts on its derived metrics. -/
def derivedStartAt (t : u.Machine) : Option (PhysicalState × ExprContext) :=
  derivedStart u.m u.cfg (Simulator.afterEvents u.scenario t).engine
    (asSecsF64 t.clock.now) (.fin (asSecs u.tickDt)) t.state t.ctx

/-- In the tick from `t` the loop gets to the entry, whose value so far is
`x`, and its expression is `v`. -/
def Evaluated (t : u.Machine) (d : String × DerivedExpr) (x v : FloatVal) :
    Prop :=
  ∃ before after start s ctx,
    u.cfg.derived.entries = before ++ d :: after
      ∧ u.derivedStartAt t = some start
      ∧ evaluateLoop u.m before start.1 start.2 = ((s, ctx), .ok ())
      ∧ fieldValue d s = x ∧ d.2.expr.evalFloat ctx = .ok v

/-- What the tick before left of the entry; at first its field. -/
def lastValue (t : u.Machine) (d : String × DerivedExpr) : FloatVal :=
  (t.ctx.num d.1).getD (fieldValue d t.state)

/-- The machine after one more tick. -/
def next (t : u.Machine) : u.Machine := (Simulator.tick u.scenario t).sim

/-- **The lag law**: the tick leaves of the entry a lag, over its own length,
from what the tick before left. -/
def Lags (t : u.Machine) (d : String × DerivedExpr) (v : FloatVal) : Prop :=
  (u.next t).ctx.num d.1
    = some (lagStep u.m (u.lastValue t d) v d.2.tauS
      (.fin (asSecs u.tickDt)))

variable {u} {t : u.Machine} {d : String × DerivedExpr} {x v : FloatVal}

theorem next_eq : ((u.next t).state, (u.next t).ctx) = (u.stepAt t).1 :=
  (u.tick_stepAt t).1

theorem stepAt_derived {start : PhysicalState × ExprContext}
    (h : u.derivedStartAt t = some start) :
    u.stepAt t = evaluateLoop u.m u.cfg.derived.entries start.1 start.2 := by
  obtain ⟨s, hs, rfl⟩ := Option.map_eq_some_iff.mp h
  unfold stepAt step
  rw [hs]
  rfl

theorem derivedStartAt_isSome (h : DvfsOrdered u.cfg t.state) :
    (u.derivedStartAt t).isSome := by
  unfold derivedStartAt derivedStart
  rw [Option.isSome_map]
  exact (physicalPhases_isSome ..).mpr h

/-- An entry is met once. -/
theorem names_ne {before after : List (String × DerivedExpr)}
    (h : u.cfg.derived.entries = before ++ d :: after) :
    ∀ e ∈ before ++ after, e.1 ≠ d.1 := by
  have hnodup := u.cfg.derived.nodup
  rw [h] at hnodup
  exact others_ne hnodup (.refl _)

/-- **What a tick leaves of an entry**: a lag over 50 ms. -/
theorem tick_evaluated (hname : StrVar.ofName? d.1 = none)
    (h : u.Evaluated t d x v) :
    (u.next t).ctx.num d.1
      = some (lagStep u.m x v d.2.tauS (.fin (1 / 20))) := by
  obtain ⟨before, after, start, s, ctx, hentries, hstart, hloop, rfl, hv⟩ := h
  have hne := names_ne hentries
  have hverdict : verdict u.m d s ctx = .value (derivedLag u.m d s v) := by
    unfold verdict
    rw [hv, hname]
  -- nothing after the entry writes its name again
  have hctx := congrArg Prod.snd (next_eq (t := t))
  rw [stepAt_derived hstart, hentries, evaluateLoop_append hloop,
    evaluateLoop_value hverdict] at hctx
  have hframe := evaluateLoop_ctx_frame (m := u.m)
    (fun e he => hne e (List.mem_append_right before he))
    (s.setF64 d.1 (derivedLag u.m d s v))
    (ctx.withNum d.1 (derivedLag u.m d s v))
  exact (congrArg (fun c => c.num d.1) hctx).trans
    (hframe.trans (Function.update_self ..))

/-! ## §2. Entries in time. -/

/-- The tick is as long as the lag, which goes from where the tick before
ended. -/
structure InTime (u : Setup ρ σ) (t : u.Machine) (d : String × DerivedExpr)
    (x : FloatVal) : Prop where
  numeric : StrVar.ofName? d.1 = none
  tick : asSecs u.tickDt = 1 / 20
  kept : x = u.lastValue t d

/-- **An entry in time obeys the law**, whatever its values. -/
theorem InTime.lags (h : u.InTime t d x) (hv : u.Evaluated t d x v) :
    u.Lags t d v := by
  unfold Lags
  rw [tick_evaluated h.numeric hv, h.tick, ← h.kept]

end Setup

/-! ## §3. Fields that only their entry writes. -/

/-- Nothing but a derived metric writes the field. -/
structure Steady (cfg : ScenarioConfig) (f : Field) : Prop where
  foreign : Foreign { cfg with derived := .empty } f
  injections : ∀ inj ∈ cfg.externalInjections, f.name ≠ inj.var

/-- Every entry names such a field. -/
def SteadyNames (cfg : ScenarioConfig) : Prop :=
  ∀ d ∈ cfg.derived.entries, ∃ f : Field, f.name = d.1 ∧ Steady cfg f

/-- The phases before the derived metrics leave it alone. -/
theorem derivedStart_steady {m : FloatVal.Libm} {cfg : ScenarioConfig}
    {f : Field} (h : Steady cfg f) {engine : EngineStateModel}
    {nowS dtS : FloatVal} {s : PhysicalState} {ctx : ExprContext}
    {start : PhysicalState × ExprContext}
    (hstart : derivedStart m cfg engine nowS dtS s ctx = some start) :
    start.1.num f = s.num f := by
  -- DVFS, passive dynamics, injections and actions, in this order
  obtain ⟨s₁, hphases, rfl⟩ := Option.map_eq_some_iff.mp hstart
  obtain ⟨s₂, hdvfs, hrest⟩ := Option.bind_eq_some_iff.mp hphases
  obtain rfl := Option.some.inj hrest
  have hactions := applyActions_foreign (m := m) h.foreign engine dtS
    (externalInjectionApply m cfg nowS dtS
      (passiveDynamics m cfg engine dtS s₂)) ctx
  have hinjections := injections_frame (m := m) nowS dtS h.injections
    (passiveDynamics m cfg engine dtS s₂)
  exact hactions.trans
    (hinjections.trans (physical_foreign (m := m) h.foreign hdvfs engine))

/-- The context holds every field's value. -/
def Agrees (s : PhysicalState) (ctx : ExprContext) : Prop :=
  ∀ f : Field, ctx.num f.name = some (s.num f)

theorem derivedStart_agrees {m : FloatVal.Libm} {cfg : ScenarioConfig}
    {engine : EngineStateModel} {nowS dtS : FloatVal} {s : PhysicalState}
    {ctx : ExprContext} {start : PhysicalState × ExprContext}
    (hstart : derivedStart m cfg engine nowS dtS s ctx = some start) :
    Agrees start.1 start.2 := by
  obtain ⟨s₁, _, rfl⟩ := Option.map_eq_some_iff.mp hstart
  exact bound_field _ _ _

/-- The loop writes fields and context alike. -/
theorem evaluateLoop_agrees {m : FloatVal.Libm}
    (entries : List (String × DerivedExpr)) {s : PhysicalState}
    {ctx : ExprContext} (h : Agrees s ctx) :
    Agrees (evaluateLoop m entries s ctx).1.1
      (evaluateLoop m entries s ctx).1.2 := by
  induction entries generalizing s ctx with
  | nil => exact h
  | cons d rest ih =>
      cases hv : verdict m d s ctx with
      | value x =>
          rw [evaluateLoop_value hv]
          refine ih fun f => ?_
          show Function.update ctx.num d.1 (some x) f.name = _
          by_cases hf : f.name = d.1
          · rw [← hf, Function.update_self, PhysicalState.setF64_name,
              PhysicalState.setField_self]
          · rw [Function.update_of_ne hf, PhysicalState.setF64_of_ne s hf]
            exact h f
      | text =>
          rw [evaluateLoop_text hv]
          exact ih h
      | stop why =>
          rw [evaluateLoop_stop hv]
          exact h

namespace Setup

variable {ρ σ : Type} {u : Setup ρ σ} {t : u.Machine}
  {d : String × DerivedExpr} {x v : FloatVal}

/-- What the context holds of a field is its value. -/
def FieldsKept (u : Setup ρ σ) (t : u.Machine) : Prop :=
  ∀ f : Field, (t.ctx.num f.name).getD (t.state.num f) = t.state.num f

/-- **A tick keeps context and fields together**, whether or not it fails. -/
theorem fieldsKept_tick (h : u.FieldsKept t) : u.FieldsKept (u.next t) := by
  have hnext := next_eq (t := t)
  have hstate := congrArg Prod.fst hnext
  have hctx := congrArg Prod.snd hnext
  dsimp only at hstate hctx
  intro f
  rw [hstate, hctx]
  cases hstart : u.derivedStartAt t with
  | none =>
      -- DVFS panics before anything is written
      have hpanic : u.stepAt t = ((t.state, t.ctx), .error .panic) := by
        unfold stepAt step
        rw [Option.map_eq_none_iff.mp hstart]
      rw [hpanic]
      exact h f
  | some start =>
      rw [stepAt_derived hstart,
        evaluateLoop_agrees _ (derivedStart_agrees hstart) f]
      rfl

/-- So in every run an entry's value so far is that of its field. -/
theorem run_fieldsKept (u : Setup ρ σ) (policy : σ) (rng : ρ)
    (calls : List (Simulator.SimCall PhysicalState PhysicalStateSnapshot σ ρ
      ExprContext)) :
    ∀ t ∈ Simulator.tickedIn u.scenario (u.start policy rng) calls,
      u.FieldsKept t :=
  (Simulator.tickedIn_invariant u.scenario (I := u.FieldsKept)
    (fun _ _ h => h) (fun _ => rfl) fun _ _ h => fieldsKept_tick h).1

/-- The value so far is the one that the derived metrics start from. -/
theorem Evaluated.start_value {f : Field} (hf : f.name = d.1)
    (h : u.Evaluated t d x v) :
    ∃ start, u.derivedStartAt t = some start ∧ x = start.1.num f := by
  obtain ⟨before, after, start, s, ctx, hentries, hstart, hloop, rfl, _⟩ := h
  refine ⟨start, hstart, ?_⟩
  have hne : ∀ e ∈ before, e.1 ≠ f.name := fun e he =>
    hf ▸ names_ne hentries e (List.mem_append_left after he)
  have hframe := evaluateLoop_frame (m := u.m) hne start.1 start.2
  rw [hloop] at hframe
  rw [fieldValue_name hf]
  exact hframe

theorem Evaluated.mem (h : u.Evaluated t d x v) :
    d ∈ u.cfg.derived.entries := by
  obtain ⟨before, after, _, _, _, hentries, _⟩ := h
  rw [hentries]
  exact List.mem_append_right _ List.mem_cons_self

/-- **Entries of steady fields are in time**, in every run in ticks of
50 ms. -/
theorem inTime_of_steady (h : SteadyNames u.cfg)
    (htick : asSecs u.tickDt = 1 / 20) (policy : σ) (rng : ρ)
    (calls : List (Simulator.SimCall PhysicalState PhysicalStateSnapshot σ ρ
      ExprContext)) :
    ∀ t ∈ Simulator.tickedIn u.scenario (u.start policy rng) calls,
      ∀ d x v, u.Evaluated t d x v → u.InTime t d x := by
  intro t ht d x v hv
  obtain ⟨f, hf, hsteady⟩ := h d hv.mem
  obtain ⟨start, hstart, hx⟩ := hv.start_value hf
  refine ⟨hf ▸ f.not_strVar, htick, ?_⟩
  unfold lastValue
  rw [hx, derivedStart_steady hsteady hstart, fieldValue_name hf, ← hf]
  exact (run_fieldsKept u policy rng calls t ht f).symm

/-! ## §4. Numbers. -/

/-- The entry is evaluated on numbers, from `x` to `v`, and the tick before
left `y`; of the way a lag over 50 ms leaves `e`, one over the tick `e'`. -/
structure Finite (u : Setup ρ σ) (t : u.Machine) (d : String × DerivedExpr)
    (x y v e e' : ℚ) : Prop where
  numeric : StrVar.ofName? d.1 = none
  evaluated : u.Evaluated t d (.fin x) (.fin v)
  last : u.lastValue t d = .fin y
  decays : ∃ tauS, 0 < tauS ∧ d.2.tauS = .fin tauS
    ∧ u.m.exp (.fin (-(1 / 20) / tauS)) = .fin e
    ∧ u.m.exp (.fin (-asSecs u.tickDt / tauS)) = .fin e'

section Numbers

variable {x y v e e' : ℚ}

/-- **When the law holds of numbers.** -/
theorem lags_iff (h : u.Finite t d x y v e e') :
    u.Lags t d (.fin v) ↔ (x - v) * e = (y - v) * e' := by
  obtain ⟨tauS, htau, htauS, he, he'⟩ := h.decays
  unfold Lags
  rw [tick_evaluated h.numeric h.evaluated, h.last, htauS,
    lagStep_decay htau he, lagStep_decay htau he', Lag.toward_eq,
    Lag.toward_eq]
  constructor
  · intro heq
    have hfin := FloatVal.fin.inj (Option.some.inj heq)
    linarith
  · intro heq
    rw [heq]

/-- For a value that nothing else moved: at the target already, or a decay
that does not tell the tick from 50 ms. -/
theorem lags_iff_of_kept (h : u.Finite t d x x v e e') :
    u.Lags t d (.fin v) ↔ x = v ∨ e = e' := by
  rw [lags_iff h, mul_eq_mul_left_iff, sub_eq_zero, or_comm]

end Numbers

/-! ## §5. Convergence. -/

section Converge

variable {y v e : ℚ}

/-- Lags of one decay, tick after tick. -/
theorem lastValue_iterate (hlast : u.lastValue t d = .fin y) (n : Nat)
    (h : ∀ i < n, ∀ z, u.lastValue (u.next^[i] t) d = .fin z →
      u.lastValue (u.next^[i + 1] t) d = .fin (Lag.toward e z v)) :
    u.lastValue (u.next^[n] t) d = .fin (v + (y - v) * e ^ n) := by
  rw [← Lag.toward_iterate]
  induction n with
  | zero => exact hlast
  | succ n ih =>
      rw [Function.iterate_succ_apply' (fun z => Lag.toward e z v)]
      exact h n (Nat.lt_succ_self n) _
        (ih fun i hi => h i (Nat.lt_succ_of_lt hi))

theorem lastValue_next {z : FloatVal} (h : (u.next t).ctx.num d.1 = some z) :
    u.lastValue (u.next t) d = z := by
  unfold lastValue
  rw [h]
  rfl

/-- **Where the law holds, a constant value is approached by the decay of the
tick.** -/
theorem lags_iterate {tauS : ℚ} (htau : 0 < tauS)
    (htauS : d.2.tauS = .fin tauS)
    (hexp : u.m.exp (.fin (-asSecs u.tickDt / tauS)) = .fin e)
    (hlast : u.lastValue t d = .fin y) (n : Nat)
    (h : ∀ i < n, u.Lags (u.next^[i] t) d (.fin v)) :
    u.lastValue (u.next^[n] t) d = .fin (v + (y - v) * e ^ n) := by
  refine lastValue_iterate hlast n fun i hi z hz => ?_
  have hlag := h i hi
  unfold Lags at hlag
  rw [hz, htauS, lagStep_decay htau hexp] at hlag
  rw [Function.iterate_succ_apply']
  exact lastValue_next hlag

/-- **What the code does**: a value that nothing else moves approaches it by
the decay of 50 ms at every tick, however long. -/
theorem perTick_iterate {tauS : ℚ} (htau : 0 < tauS)
    (htauS : d.2.tauS = .fin tauS)
    (hexp : u.m.exp (.fin (-(1 / 20) / tauS)) = .fin e)
    (hname : StrVar.ofName? d.1 = none) (hlast : u.lastValue t d = .fin y)
    (n : Nat)
    (h : ∀ i < n, u.Evaluated (u.next^[i] t) d
      (u.lastValue (u.next^[i] t) d) (.fin v)) :
    u.lastValue (u.next^[n] t) d = .fin (v + (y - v) * e ^ n) := by
  refine lastValue_iterate hlast n fun i hi z hz => ?_
  have hvalue := tick_evaluated hname (h i hi)
  rw [hz, htauS, lagStep_decay htau hexp] at hvalue
  rw [Function.iterate_succ_apply']
  exact lastValue_next hvalue

end Converge

/-! ## §6. Runs. -/

/-- **When derived metrics lag with simulated time.**  A run all of whose
entries are in time obeys the law at every tick; on numbers the law holds
exactly if a lag over 50 ms from the value so far leaves as much of the way as
one over the tick from the value before it; and where it holds, a constant
value is approached by the decay of the tick. -/
theorem derived_lag_iff (u : Setup ρ σ) (policy : σ) (rng : ρ)
    (calls : List (Simulator.SimCall PhysicalState PhysicalStateSnapshot σ ρ
      ExprContext)) :
    ((∀ t ∈ Simulator.tickedIn u.scenario (u.start policy rng) calls,
        ∀ d x v, u.Evaluated t d x v → u.InTime t d x) →
      ∀ t ∈ Simulator.tickedIn u.scenario (u.start policy rng) calls,
        ∀ d x v, u.Evaluated t d x v → u.Lags t d v)
    ∧ (∀ t ∈ Simulator.tickedIn u.scenario (u.start policy rng) calls,
        ∀ d x y v e e', u.Finite t d x y v e e' →
          (u.Lags t d (.fin v) ↔ (x - v) * e = (y - v) * e'))
    ∧ ∀ t ∈ Simulator.tickedIn u.scenario (u.start policy rng) calls,
        ∀ d n y v tauS e, 0 < tauS → d.2.tauS = .fin tauS →
          u.m.exp (.fin (-asSecs u.tickDt / tauS)) = .fin e →
          u.lastValue t d = .fin y →
          (∀ i < n, u.Lags (u.next^[i] t) d (.fin v)) →
          u.lastValue (u.next^[n] t) d = .fin (v + (y - v) * e ^ n) := by
  refine ⟨?_, ?_, ?_⟩
  · intro h t ht d x v hv
    exact (h t ht d x v hv).lags hv
  · intro t _ d x y v e e' h
    exact lags_iff h
  · intro t _ d n y v tauS e htau htauS hexp hlast h
    exact lags_iterate htau htauS hexp hlast n h

end Setup

/-- A library for the examples, right at `exp(-0.05)` and `exp(-0.1)`. -/
def shortDecays : FloatVal.Libm :=
  ⟨fun x =>
    if FloatVal.lt x (.fin (-(3 / 40))) then .fin 0.9048374180359595
    else .fin 0.951229424500714,
    fun _ _ => .fin 1⟩

/-- A metric that lags by a second behind 10. -/
def tbtEntry : String × DerivedExpr :=
  ("tbt_ms", ⟨.literal "10.0" (.fin 10), .fin 1⟩)

def metered : ScenarioConfig where
  __ := ScenarioConfig.still
  derived := ⟨[tbtEntry], by decide⟩

theorem metered_accepted : metered.Accepted := ⟨by decide, rfl⟩

theorem metered_steady : Steady metered .tbtMs :=
  ⟨.of_empty rfl rfl rfl (by decide), fun _ h => absurd h List.not_mem_nil⟩

/-- The scenario in ticks of some length. -/
def meteredSetup (tickDt : Nat) (hdt : 0 < tickDt) : Setup Unit Unit where
  __ := Setup.idle metered rfl rfl tickDt hdt
  m := shortDecays

/-- Where its first tick starts, in a run of some length. -/
def meteredFirst (tickDt : Nat) (hdt : 0 < tickDt) (d : Nat) :
    (meteredSetup tickDt hdt).Machine :=
  let start := (meteredSetup tickDt hdt).start () ()
  Simulator.preload (meteredSetup tickDt hdt).scenario (start.clock.now + d)
    start

theorem metered_evaluated (tickDt : Nat) (hdt : 0 < tickDt) (d : Nat) :
    (meteredSetup tickDt hdt).Evaluated (meteredFirst tickDt hdt d) tbtEntry
      (.fin 0) (.fin 10) := by
  -- 40 degrees are below the soft threshold
  have hordered : DvfsOrdered metered (meteredFirst tickDt hdt d).state := by
    refine ⟨.inl ?_, .inl ?_⟩
    · show FloatVal.lt (.fin 40) (.fin 70) = true
      norm_num
    · show FloatVal.lt (.fin 40) (.fin 70) = true
      norm_num
  obtain ⟨start, hstart⟩ := Option.isSome_iff_exists.mp
    (Setup.derivedStartAt_isSome (u := meteredSetup tickDt hdt) hordered)
  refine ⟨[], [], _, _, _, rfl, hstart, rfl, ?_, rfl⟩
  rw [fieldValue_name (f := .tbtMs) rfl]
  exact derivedStart_steady metered_steady hstart

theorem metered_finite (tickDt : Nat) (hdt : 0 < tickDt) (d : Nat) {e : ℚ}
    (he : shortDecays.exp (.fin (-asSecs tickDt / 1)) = .fin e) :
    (meteredSetup tickDt hdt).Finite (meteredFirst tickDt hdt d) tbtEntry 0 0
      10 0.951229424500714 e where
  numeric := rfl
  evaluated := metered_evaluated tickDt hdt d
  last := rfl
  decays := by
    refine ⟨1, one_pos, rfl, ?_, he⟩
    show (if FloatVal.lt (.fin (-(1 / 20) / 1)) (.fin (-(3 / 40))) then _
      else _) = _
    rw [if_neg (by norm_num)]

/-- In ticks of 100 ms it goes as far as in 50 ms. -/
theorem slow_ticks_lag_behind :
    metered.Accepted
      ∧ ¬ ∀ t ∈ Simulator.tickedIn
          (meteredSetup 100000000 (by decide)).scenario
          ((meteredSetup 100000000 (by decide)).start () ())
          [.runFor 100000000],
        ∀ d x v, (meteredSetup 100000000 (by decide)).Evaluated t d x v →
          (meteredSetup 100000000 (by decide)).Lags t d v := by
  refine ⟨metered_accepted, ?_⟩
  intro h
  have hticked := Simulator.first_ticked
    (meteredSetup 100000000 (by decide)).scenario
    ((meteredSetup 100000000 (by decide)).start () ()) (d := 100000000)
    (by decide)
  have hlag := h _ hticked tbtEntry _ _ (metered_evaluated _ _ _)
  have hexp : shortDecays.exp (.fin (-asSecs 100000000 / 1))
      = .fin 0.9048374180359595 := by
    show (if FloatVal.lt (.fin (-asSecs 100000000 / 1)) (.fin (-(3 / 40)))
      then _ else _) = _
    unfold asSecs
    rw [if_pos (by norm_num)]
  rcases (Setup.lags_iff_of_kept (metered_finite _ _ _ hexp)).mp hlag with
    hreached | hsame
  · norm_num at hreached
  · norm_num at hsame

/-- In ticks of 50 ms every tick of a second obeys the law, and the first
leaves 95 % of the way. -/
theorem derived_lag_metered :
    (∀ t ∈ Simulator.tickedIn (meteredSetup 50000000 (by decide)).scenario
        ((meteredSetup 50000000 (by decide)).start () ()) [.runFor (fromSecs 1)],
      ∀ d x v, (meteredSetup 50000000 (by decide)).Evaluated t d x v →
        (meteredSetup 50000000 (by decide)).Lags t d v)
    ∧ (meteredSetup 50000000 (by decide)).lastValue
        ((meteredSetup 50000000 (by decide)).next
          (meteredFirst 50000000 (by decide) (fromSecs 1))) tbtEntry
      = .fin (10 + (0 - 10) * 0.951229424500714 ^ 1) := by
  have hall := Setup.derived_lag_iff (meteredSetup 50000000 (by decide)) () ()
    [.runFor (fromSecs 1)]
  have hsecs : asSecs 50000000 = 1 / 20 := by
    unfold asSecs
    norm_num
  have hsteady : SteadyNames metered := by
    intro d hd
    obtain rfl : d = tbtEntry := List.mem_singleton.mp hd
    exact ⟨.tbtMs, rfl, metered_steady⟩
  have hlags := hall.1 (Setup.inTime_of_steady hsteady hsecs () () _)
  have hticked := Simulator.first_ticked
    (meteredSetup 50000000 (by decide)).scenario
    ((meteredSetup 50000000 (by decide)).start () ()) (d := fromSecs 1)
    (by decide)
  have hfirst := hlags _ hticked tbtEntry _ _ (metered_evaluated _ _ _)
  have hexp : shortDecays.exp (.fin (-asSecs 50000000 / 1))
      = .fin 0.951229424500714 := by
    rw [hsecs]
    show (if FloatVal.lt (.fin (-(1 / 20) / 1)) (.fin (-(3 / 40))) then _
      else _) = _
    rw [if_neg (by norm_num)]
  refine ⟨hlags, ?_⟩
  refine hall.2.2 _ hticked tbtEntry 1 0 10 1 _ one_pos rfl hexp rfl ?_
  intro i hi
  obtain rfl := Nat.lt_one_iff.mp hi
  exact hfirst

end ArgusManager.Sim
