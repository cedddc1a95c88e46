/-
  ArgusManager.Sim.Compression
  ────────────────────────────
  What a `KvCompress` does to the simulated cache: a tick after the directive
  against a tick without it.

  The directive leaves its budget in the engine model, from where it reaches
  the evictions as `target_ratio`; nothing makes an eviction active.

    • `lagStep_lt_iff`       — which of two targets a lag brings lower,
    • `compress_shrinks_iff` — when the directive makes the cache smaller.
-/
import ArgusManager.Sim.Eviction
import ArgusManager.Sim.Ticked

namespace ArgusManager.Sim

/-! ## §1. Lags. -/

/-- What is documented of `exp`: no value is negative, and none exceeds one
unless the argument is positive. -/
structure ExpBounds (m : FloatVal.Libm) : Prop where
  nonneg : ∀ x, FloatVal.lt (m.exp x) (.fin 0) = false
  le_one : ∀ x, FloatVal.lt (.fin 0) x = false →
    FloatVal.lt (.fin 1) (m.exp x) = false

/-- How much of the way to its target a lag goes. -/
def gain (m : FloatVal.Libm) (tauS dtS : FloatVal) : FloatVal :=
  if FloatVal.le tauS (.fin 0) then .fin 1
  else .fin 1 - m.exp (-dtS / tauS)

section Lag

variable {m : FloatVal.Libm} {tauS : FloatVal} {dt : ℚ}

/-- The way to a finite target. -/
theorem lagStep_fin (x y : ℚ) (dtS : FloatVal) :
    lagStep m (.fin x) (.fin y) tauS dtS
      = .fin x + .fin (y - x) * gain m tauS dtS := by
  unfold lagStep gain
  split
  next =>
    rw [FloatVal.fin_mul, FloatVal.fin_add]
    congr 1
    ring
  next => rw [FloatVal.fin_sub]

/-- A lag does not lead away from its target. -/
theorem gain_cases (hexp : ExpBounds m) (hdt : 0 < dt) (tauS : FloatVal) :
    gain m tauS (.fin dt) = .nan
      ∨ ∃ g, gain m tauS (.fin dt) = .fin g ∧ 0 ≤ g := by
  unfold gain
  split
  next => exact .inr ⟨1, rfl, zero_le_one⟩
  next htau =>
    have harg : FloatVal.lt (.fin 0) (-.fin dt / tauS) = false := by
      cases tauS with
      | fin t =>
          rw [FloatVal.le_fin, decide_eq_true_iff, not_le] at htau
          rw [FloatVal.neg_fin, FloatVal.fin_div _ htau.ne', FloatVal.lt_fin]
          have hneg : -dt / t < 0 := div_neg_of_neg_of_pos (by linarith) htau
          simpa using hneg.le
      | nan => rfl
      | negInf => exact absurd rfl htau
      | posInf =>
          show FloatVal.lt (.fin 0) (.fin 0) = false
          simp
    have hle := hexp.le_one _ harg
    have hge := hexp.nonneg (-.fin dt / tauS)
    cases hval : m.exp (-.fin dt / tauS) with
    | nan => exact .inl rfl
    | negInf =>
        rw [hval] at hge
        cases hge
    | posInf =>
        rw [hval] at hle
        cases hle
    | fin e =>
        rw [hval, FloatVal.lt_fin, decide_eq_false_iff_not, not_lt] at hle
        exact .inr ⟨1 - e, FloatVal.fin_sub 1 e, by linarith⟩

/-- What is not finite stays as it is when scaled, or when a lag moves it. -/
theorem not_finite_stays {kv : FloatVal} (hkv : ∀ x, kv ≠ .fin x) {q : ℚ}
    (hq : 0 < q) (dtS : FloatVal) :
    kv * .fin q = kv
      ∧ FloatVal.lt (lagStep m kv kv tauS dtS) kv = false := by
  have hlag : kv - kv = .nan := by
    cases kv with
    | fin x => exact absurd rfl (hkv x)
    | nan => rfl
    | negInf => rfl
    | posInf => rfl
  constructor
  · cases kv with
    | fin x => exact absurd rfl (hkv x)
    | nan => rfl
    | negInf => exact FloatVal.signed_neg (neg_lt_zero.mpr hq)
    | posInf => exact FloatVal.signed_pos hq
  · unfold lagStep
    split
    next => exact FloatVal.lt_irrefl kv
    next =>
      rw [hlag]
      cases kv with
      | fin x => exact absurd rfl (hkv x)
      | nan => rfl
      | negInf => rfl
      | posInf => rfl

theorem scaled_pos_iff (x : ℚ) {b r : ℚ} (hb : 0 < b) (hr : 0 < r) {n : Nat}
    (hn : n ≠ 0) : 0 < x * (r ^ n - b ^ n) ↔ 0 < x * (r - b) := by
  rw [mul_pos_iff, mul_pos_iff, sub_pos, sub_pos, sub_neg, sub_neg,
    pow_lt_pow_iff_left₀ hb.le hr.le hn, pow_lt_pow_iff_left₀ hr.le hb.le hn]

/-- **Which of two ratios brings a value lower**: `b` against `r`, or against
leaving the value alone. -/
theorem lagStep_lt_iff (hexp : ExpBounds m) (hdt : 0 < dt) {b r : ℚ}
    (hb : 0 < b) (hr : 0 < r) {n : Nat} (hn : n ≠ 0) {kv y : FloatVal}
    (hy : (y = kv ∧ r = 1)
      ∨ y = lagStep m kv (kv * .fin (r ^ n)) tauS (.fin dt)) :
    FloatVal.lt (lagStep m kv (kv * .fin (b ^ n)) tauS (.fin dt)) y
      ↔ (∃ g, gain m tauS (.fin dt) = .fin g ∧ 0 < g)
        ∧ ∃ x, kv = .fin x ∧ 0 < x * (r - b) := by
  by_cases hkv : ∃ x, kv = .fin x
  · obtain ⟨x, rfl⟩ := hkv
    rw [FloatVal.fin_mul, lagStep_fin]
    rw [FloatVal.fin_mul, lagStep_fin] at hy
    rcases gain_cases hexp hdt tauS with hg | ⟨g, hg, hg0⟩
    · -- a NaN gain: a NaN is below nothing
      rw [hg]
      constructor
      · intro h
        cases h
      · rintro ⟨⟨g, h, _⟩, _⟩
        cases h
    · rw [hg, FloatVal.fin_mul, FloatVal.fin_add]
      rw [hg, FloatVal.fin_mul, FloatVal.fin_add] at hy
      have hy : y = .fin (x + (x * r ^ n - x) * g) := by
        rcases hy with ⟨rfl, rfl⟩ | hy
        · congr 1
          rw [one_pow]
          ring
        · exact hy
      rw [hy, FloatVal.lt_fin, decide_eq_true_iff]
      have hdiff : x + (x * b ^ n - x) * g < x + (x * r ^ n - x) * g
          ↔ 0 < x * (r ^ n - b ^ n) * g := by
        rw [← sub_pos]
        ring_nf
      rw [hdiff]
      constructor
      · intro h
        have hgpos : 0 < g := by
          rcases hg0.eq_or_lt with h0 | h0
          · rw [← h0, mul_zero] at h
            exact absurd h (lt_irrefl 0)
          · exact h0
        refine ⟨⟨g, rfl, hgpos⟩, x, rfl, ?_⟩
        exact (scaled_pos_iff x hb hr hn).mp (pos_of_mul_pos_left h hg0)
      · rintro ⟨⟨g', hg', hgpos⟩, x', hx', hpos⟩
        obtain rfl := FloatVal.fin.inj hg'
        obtain rfl := FloatVal.fin.inj hx'
        exact mul_pos ((scaled_pos_iff x hb hr hn).mpr hpos) hgpos
  · -- a cache that is no number stays what it is, whatever the ratio
    have hkv : ∀ x, kv ≠ .fin x := fun x hx => hkv ⟨x, hx⟩
    have hscaled : ∀ {q : ℚ}, 0 < q → kv * .fin q = kv := fun hq =>
      (@not_finite_stays m tauS kv hkv _ hq (.fin dt)).1
    rw [hscaled (pow_pos hb n)]
    rw [hscaled (pow_pos hr n)] at hy
    constructor
    · intro h
      rcases hy with ⟨rfl, _⟩ | rfl
      · rw [(not_finite_stays hkv hb _).2] at h
        cases h
      · rw [FloatVal.lt_irrefl] at h
        cases h
    · rintro ⟨_, x, hx, _⟩
      exact absurd hx (hkv x)

end Lag

/-! ## §2. With and without the directive. -/

/-- The events of the tick leave the engine as it is. -/
def Quiet {ρ σ : Type} (u : Setup ρ σ) (sim : u.Machine) : Prop :=
  (Simulator.afterEvents u.scenario sim).engine = sim.engine

/-- Without events there is nothing the policy could answer to. -/
theorem quiet_of_later {ρ σ : Type} {u : Setup ρ σ} {sim : u.Machine}
    (h : ∀ x ∈ sim.clock.agenda, sim.clock.now + u.tickDt < x.1) :
    Quiet u sim := by
  have hnone : (sim.clock.drainUntil (sim.clock.now + u.tickDt)).1 = [] := by
    rw [← List.map_eq_nil_iff (f := ScheduledEvent.entry),
      (VirtualClock.agenda_drainUntil _ _).1, List.filter_eq_nil_iff]
    intro x hx
    have hlt := h x hx
    simpa using hlt
  unfold Quiet Simulator.afterEvents
  dsimp only
  rw [show (sim.clock.drainUntil (sim.clock.now + u.scenario.tickDt)).1 = []
    from hnone]
  unfold Simulator.noteOverruns
  dsimp only
  split
  next => rfl
  next => rfl

/-- A quiet tick steps with the engine as it is. -/
theorem tick_quiet {ρ σ : Type} {u : Setup ρ σ} {sim : u.Machine}
    (h : Quiet u sim) :
    (Simulator.tick u.scenario sim).sim.state
      = (step u.m u.cfg sim.engine (asSecsF64 sim.clock.now)
          (.fin (asSecs u.tickDt)) sim.state sim.ctx).1.1 := by
  have hengine : (Simulator.afterEvents u.scenario sim).engine = sim.engine :=
    h
  rw [u.tick_state]
  unfold Setup.stepAt
  rw [hengine]

/-- `[KvCompress { budget }]`. -/
def compression (seqId : Nat) (b : ℚ) : EngineDirective where
  seqId := seqId
  commands := [.kvCompress (.fin b)]

/-- The directive reaches the cache: the eviction is active, its lag leads
somewhere within a tick, and no lower budget is in force. -/
structure Eviction.Effective {cfg : ScenarioConfig} (ev : Eviction cfg)
    (m : FloatVal.Libm) (engine : EngineStateModel) (dtS : FloatVal)
    (s : PhysicalState) (b : ℚ) : Prop where
  /-- DVFS does not panic. -/
  dvfs : DvfsOrdered cfg s
  active : ev.name ∈ engine.activeActions
  moves : ∃ g, gain m (ev.lag engine) dtS = .fin g ∧ 0 < g
  /-- The grown cache is not empty, and kept at a ratio above `b`. -/
  lower : ∃ x, grownKvCache cfg engine dtS s = .fin x
    ∧ 0 < x * ((evictRatio engine).getD 1 - b)

section Directive

variable {cfg : ScenarioConfig} {ev : Eviction cfg} {m : FloatVal.Libm}
  {engine : EngineStateModel} {dt b : ℚ}

theorem evictRatio_compressed (seqId : Nat) (hb : 0 < b) (hb1 : b < 1) :
    evictRatio (engine.applyDirective (compression seqId b)) = some b :=
  if_pos ⟨hb, hb1⟩

/-- Only the budget differs, not what is active, nor how the cache grows. -/
theorem evicted_compressed (seqId : Nat) (hb : 0 < b) (hb1 : b < 1)
    (dtS kv : FloatVal) :
    ev.evicted m (engine.applyDirective (compression seqId b)) dtS kv
      = if ev.name ∈ engine.activeActions then
          lagStep m kv (kv * .fin (b ^ engine.activeActions.count ev.name))
            (ev.lag engine) dtS
        else kv := by
  unfold Eviction.evicted
  rw [evictRatio_compressed seqId hb hb1]
  rfl

/-- **When a step with the directive leaves a smaller cache** than one
without. -/
theorem step_compressed_iff (hexp : ExpBounds m) (honly : ev.OnlyEffect)
    (hdt : 0 < dt) (seqId : Nat) (hb : 0 < b) (hb1 : b < 1) (nowS : FloatVal)
    (s : PhysicalState) (ctx : ExprContext) :
    FloatVal.lt
        ((step m cfg (engine.applyDirective (compression seqId b)) nowS
          (.fin dt) s ctx).1.1.num .kvCacheBytes)
        ((step m cfg engine nowS (.fin dt) s ctx).1.1.num .kvCacheBytes)
      ↔ ev.Effective m engine (.fin dt) s b := by
  rw [Eviction.step_kv honly, Eviction.step_kv honly,
    evicted_compressed seqId hb hb1]
  have hgrown : grownKvCache cfg
      (engine.applyDirective (compression seqId b)) (.fin dt) s
      = grownKvCache cfg engine (.fin dt) s := rfl
  have hordered := dvfsUpdate_isSome m cfg (.fin dt) s
  rw [hgrown]
  by_cases hdvfs : (dvfsUpdate m cfg (.fin dt) s).isSome
  · rw [if_pos hdvfs, if_pos hdvfs]
    by_cases hactive : ev.name ∈ engine.activeActions
    · rw [if_pos hactive]
      have hcount : engine.activeActions.count ev.name ≠ 0 :=
        (List.count_pos_iff.mpr hactive).ne'
      have hpos : 0 < (evictRatio engine).getD 1 := by
        cases hr : evictRatio engine with
        | none => exact zero_lt_one
        | some r => exact (evictRatio_some hr).2.1
      rw [lagStep_lt_iff hexp hdt hb hpos hcount]
      · constructor
        · rintro ⟨hmoves, hlower⟩
          exact ⟨hordered.mp hdvfs, hactive, hmoves, hlower⟩
        · intro h
          exact ⟨h.moves, h.lower⟩
      · unfold Eviction.evicted
        cases evictRatio engine with
        | none => exact .inl ⟨rfl, rfl⟩
        | some r => exact .inr (if_pos hactive)
    -- an eviction that is not active leaves the grown cache alone
    · have hsame : ev.evicted m engine (.fin dt)
          (grownKvCache cfg engine (.fin dt) s)
          = grownKvCache cfg engine (.fin dt) s := by
        unfold Eviction.evicted
        split
        next => exact if_neg hactive
        next => rfl
      rw [if_neg hactive, hsame, FloatVal.lt_irrefl]
      constructor
      · intro h
        cases h
      · intro h
        exact absurd h.active hactive
  · rw [if_neg hdvfs, if_neg hdvfs, FloatVal.lt_irrefl]
    constructor
    · intro h
      cases h
    · intro h
      exact absurd (hordered.mpr h.dvfs) hdvfs

end Directive

/-- **When compression has an effect in the simulator**: the tick after the
directive leaves a smaller cache than the tick without it exactly if the
eviction is active and its lag leads to a lower cache than before. -/
theorem compress_shrinks_iff {ρ σ : Type} (u : Setup ρ σ)
    (hexp : ExpBounds u.m) (ev : Eviction u.cfg) (honly : ev.OnlyEffect)
    (sim : u.Machine) (seqId : Nat) {b : ℚ} (hb : 0 < b) (hb1 : b < 1)
    (hquiet : Quiet u sim)
    (hquiet' : Quiet u (sim.applyDirective (compression seqId b))) :
    FloatVal.lt
        ((Simulator.tick u.scenario (sim.applyDirective
          (compression seqId b))).sim.state.num .kvCacheBytes)
        ((Simulator.tick u.scenario sim).sim.state.num .kvCacheBytes)
      ↔ ev.Effective u.m sim.engine (.fin (asSecs u.tickDt)) sim.state b := by
  have hnow : (sim.applyDirective (compression seqId b)).clock.now
      = sim.clock.now :=
    (VirtualClock.scheduleObservations_frame _ _).1
  rw [tick_quiet hquiet, tick_quiet hquiet', hnow]
  exact step_compressed_iff hexp honly u.tickDt_secs_pos seqId hb hb1 _ _ _

/-! ## §3. A scenario with an eviction. -/

def evictGuard : CompiledExpr where
  source := "target_ratio > 0 && target_ratio < 1"
  eval c :=
    match c.get "target_ratio" with
    | some (.float x) =>
        .ok (.boolean (FloatVal.lt (.fin 0) x && FloatVal.lt x (.fin 1)))
    | _ => .error (.variableIdentifierNotFound "target_ratio")

def evictSpec : ActionSpec where
  guard := some evictGuard
  effects :=
    .single "kv_cache_bytes" (.scale (.expr (.ident "target_ratio")) (.fin 0))

/-- An eviction is declared; `active` are the actions active at first. -/
def evicting (active : List String) : ScenarioConfig where
  __ := ScenarioConfig.still
  initialState :=
    { ScenarioConfig.still.initialState with activeActions := active }
  actions := .single "Evict" evictSpec

theorem get_targetRatio {c : ExprContext} {x : FloatVal}
    (h : c.num "target_ratio" = some x) :
    c.get "target_ratio" = some (.float x) :=
  congrArg (Option.map Value.float) h

def evict (active : List String) : Eviction (evicting active) where
  name := "Evict"
  spec := evictSpec
  guard := evictGuard
  factor := .ident "target_ratio"
  tauS := .fin 0
  declared := rfl
  guarded := rfl
  scales := rfl
  guard_eq c x h := by
    unfold CompiledExpr.evalBoolean evictGuard
    dsimp only
    rw [get_targetRatio h]
  factor_eq c x h := by
    unfold CompiledExpr.evalFloat CompiledExpr.ident
    dsimp only
    rw [get_targetRatio h]

theorem evict_only (active : List String) : (evict active).OnlyEffect where
  actions a ha hname := by
    obtain rfl := List.mem_singleton.mp ha
    exact absurd rfl hname
  interactions _ h := absurd h List.not_mem_nil
  derived _ h := absurd h List.not_mem_nil
  injections _ h := absurd h List.not_mem_nil

/-- The scenario in ticks of 50 ms. -/
def evictSetup (active : List String) : Setup Unit Unit :=
  .idle (evicting active) rfl rfl 50000000 (by decide)

def evictStart (active : List String) : (evictSetup active).Machine :=
  (evictSetup active).start () ()

theorem flat_expBounds : ExpBounds .flat where
  nonneg _ := by
    show FloatVal.lt (.fin 1) (.fin 0) = false
    simp
  le_one _ _ := by
    show FloatVal.lt (.fin 1) (.fin 1) = false
    simp

theorem evict_quiet (active : List String) :
    Quiet (evictSetup active) (evictStart active) :=
  quiet_of_later fun _ h => absurd h List.not_mem_nil

/-- The observation that the directive is due is far off. -/
theorem evict_quiet_compressed (active : List String) :
    Quiet (evictSetup active)
      ((evictStart active).applyDirective (compression 1 (1 / 2))) := by
  refine quiet_of_later fun x hx => ?_
  have hagenda : ((evictStart active).applyDirective
      (compression 1 (1 / 2))).clock.agenda
      = [((evictStart active).clock.now + OBSERVATION_DELAY,
          .observationDue "kv.compress" (evictStart active).clock.now)] :=
    VirtualClock.agenda_schedule _ _ (evictStart active).clock
  rw [hagenda] at hx
  rw [List.mem_singleton.mp hx]
  show (evictStart active).clock.now + 50000000
    < (evictStart active).clock.now + OBSERVATION_DELAY
  unfold OBSERVATION_DELAY fromSecs
  omega

theorem still_ordered {active : List String} :
    DvfsOrdered (evicting active) (evictStart active).state := by
  have hcool : FloatVal.lt (.fin 40) (.fin 70) = true := by
    simp
    norm_num
  exact ⟨.inl hcool, .inl hcool⟩

/-- The eviction has no lag. -/
theorem evict_gain (active : List String) (engine : EngineStateModel)
    (dtS : FloatVal) : gain .flat ((evict active).lag engine) dtS = .fin 1 := by
  have hzero : ¬ FloatVal.lt (.fin 0) (.fin 0) = true := by simp
  have hlag : (evict active).lag engine = .fin 0 := by
    show (if FloatVal.lt (.fin 0) (.fin 0) = true then FloatVal.fin 0
      else .fin 0) = .fin 0
    rw [if_neg hzero]
  rw [hlag]
  exact if_pos (by simp)

/-- With the eviction active, half the budget leaves a smaller cache. -/
theorem compress_shrinks_active :
    FloatVal.lt
      ((Simulator.tick (evictSetup ["Evict"]).scenario
        ((evictStart ["Evict"]).applyDirective
          (compression 1 (1 / 2)))).sim.state.num .kvCacheBytes)
      ((Simulator.tick (evictSetup ["Evict"]).scenario
        (evictStart ["Evict"])).sim.state.num .kvCacheBytes) = true := by
  refine (compress_shrinks_iff (evictSetup ["Evict"]) flat_expBounds
    (evict ["Evict"]) (evict_only _) (evictStart ["Evict"]) 1 (b := 1 / 2)
    (by norm_num) (by norm_num) (evict_quiet _)
    (evict_quiet_compressed _)).mpr ⟨still_ordered, List.mem_cons_self, ?_, ?_⟩
  · exact ⟨1, evict_gain _ _ _, zero_lt_one⟩
  · refine ⟨1000, rfl, ?_⟩
    show (0 : ℚ) < 1000 * (1 - 1 / 2)
    norm_num

/-- But at first no action is active, and no command makes one active. -/
theorem compress_ineffective :
    (evicting []).Accepted
      ∧ FloatVal.lt (.fin 0) ((evictStart []).state.num .kvCacheBytes) = true
      ∧ ¬ FloatVal.lt
        ((Simulator.tick (evictSetup []).scenario
          ((evictStart []).applyDirective
            (compression 1 (1 / 2)))).sim.state.num .kvCacheBytes)
        ((Simulator.tick (evictSetup []).scenario
          (evictStart [])).sim.state.num .kvCacheBytes) = true := by
  refine ⟨⟨by decide, rfl⟩, ?_, ?_⟩
  · show FloatVal.lt (.fin 0) (.fin (1000 : Nat)) = true
    simp
  · intro h
    rw [tick_quiet (evict_quiet []), tick_quiet (evict_quiet_compressed [])]
      at h
    have heff := (step_compressed_iff flat_expBounds (evict_only [])
      (evictSetup []).tickDt_secs_pos 1 (b := 1 / 2) (by norm_num)
      (by norm_num) _ _ _).mp h
    exact absurd heff.active List.not_mem_nil

end ArgusManager.Sim
