/-
  ArgusManager.Sim.Passive
  ────────────────────────
  The passive dynamics a scenario configures, against the passive phase of a
  tick.

  The phase knows the two clusters and the cache only: the expressions for
  `thermal_c` and `memory_bw_utilization_pct` are never evaluated, and
  `applies_when` is not asked before the cache grows.
-/
import ArgusManager.Sim.Physics

namespace ArgusManager.Sim

variable (m : FloatVal.Libm)

/-! ## §1. What is configured. -/

/-- One step of a configured dimension takes `old` to `new`. -/
def DerivedExpr.Follows (dyn : DerivedExpr) (c : ExprContext)
    (dtS old new : FloatVal) : Prop :=
  ∃ v, dyn.expr.evalFloat c = .ok v ∧ new = lagStep m old v dyn.tauS dtS

/-- The passive phase does what the scenario configures, its expressions read
in the context `c`. -/
structure Governed (cfg : ScenarioConfig) (engine : EngineStateModel)
    (dtS : FloatVal) (s : PhysicalState) (c : ExprContext) : Prop where
  thermal : cfg.passiveDynamics.thermalC.Follows m c dtS (s.num .thermalC)
    ((passiveDynamics m cfg engine dtS s).num .thermalC)
  memoryBw : cfg.passiveDynamics.memoryBwUtilizationPct.Follows m c dtS
    (s.num .memoryBwUtilizationPct)
    ((passiveDynamics m cfg engine dtS s).num .memoryBwUtilizationPct)
  kvCache : FloatVal.lt (s.num .kvCacheBytes)
      ((passiveDynamics m cfg engine dtS s).num .kvCacheBytes) →
    cfg.passiveDynamics.kvCacheBytes.appliesWhen.evalBoolean c = .ok true

/-! ## §2. What the phase does. -/

/-- The engine is at work, the growth of the dtype is known, and there is
room for it. -/
def KvGrows (cfg : ScenarioConfig) (engine : EngineStateModel)
    (dtS : FloatVal) (s : PhysicalState) : Prop :=
  (engine.phase = "decode" ∨ engine.phase = "prefill") ∧
    ∃ bytesPerToken,
      cfg.passiveDynamics.kvCacheBytes.growthPerToken.get s.kvDtype
        = some bytesPerToken ∧
      FloatVal.lt (s.num .kvCacheBytes)
        ((s.num .kvCacheBytes + .fin bytesPerToken * tokensPerDt dtS s).min
          (s.num .kvCacheCapacityBytes))

/-- The configured dimensions are where their expressions want them, and the
cache does not grow against its condition. -/
structure AtRest (cfg : ScenarioConfig) (engine : EngineStateModel)
    (dtS : FloatVal) (s : PhysicalState) (c : ExprContext) : Prop where
  thermal : cfg.passiveDynamics.thermalC.Follows m c dtS (s.num .thermalC)
    (s.num .thermalC)
  memoryBw : cfg.passiveDynamics.memoryBwUtilizationPct.Follows m c dtS
    (s.num .memoryBwUtilizationPct) (s.num .memoryBwUtilizationPct)
  kvCache : KvGrows cfg engine dtS s →
    cfg.passiveDynamics.kvCacheBytes.appliesWhen.evalBoolean c = .ok true

/-- **When the cache grows**: `applies_when` is not part of it. -/
theorem kvCache_grows_iff (cfg : ScenarioConfig) (engine : EngineStateModel)
    (dtS : FloatVal) (s : PhysicalState) :
    FloatVal.lt (s.num .kvCacheBytes)
        ((passiveDynamics m cfg engine dtS s).num .kvCacheBytes)
      ↔ KvGrows cfg engine dtS s := by
  rw [passiveDynamics_kvCacheBytes]
  unfold grownKvCache KvGrows
  by_cases hphase : engine.phase = "decode" ∨ engine.phase = "prefill"
  · -- a dtype without a configured growth stands still
    rw [if_pos hphase]
    cases hgrowth : cfg.passiveDynamics.kvCacheBytes.growthPerToken.get
        s.kvDtype with
    | none =>
        dsimp only
        rw [FloatVal.lt_irrefl]
        constructor
        · intro h
          cases h
        · rintro ⟨_, bytesPerToken, hsome, _⟩
          cases hsome
    | some bytesPerToken =>
        dsimp only
        constructor
        · intro h
          exact ⟨hphase, bytesPerToken, rfl, h⟩
        · rintro ⟨_, bytes, hsome, h⟩
          obtain rfl := Option.some.inj hsome
          exact h
  · rw [if_neg hphase, FloatVal.lt_irrefl]
    constructor
    · intro h
      cases h
    · rintro ⟨h, _⟩
      exact absurd h hphase

/-- **The passive phase follows its configuration** exactly if there is
nothing to follow. -/
theorem governed_iff (m : FloatVal.Libm) (cfg : ScenarioConfig)
    (engine : EngineStateModel) (dtS : FloatVal) (s : PhysicalState)
    (c : ExprContext) :
    Governed m cfg engine dtS s c ↔ AtRest m cfg engine dtS s c := by
  have hthermal : (passiveDynamics m cfg engine dtS s).num .thermalC
      = s.num .thermalC :=
    passiveDynamics_frame cfg engine dtS s (by decide) (by decide) (by decide)
  have hmemory :
      (passiveDynamics m cfg engine dtS s).num .memoryBwUtilizationPct
        = s.num .memoryBwUtilizationPct :=
    passiveDynamics_frame cfg engine dtS s (by decide) (by decide) (by decide)
  have hgrows := kvCache_grows_iff m cfg engine dtS s
  constructor
  · intro h
    refine ⟨?_, ?_, ?_⟩
    · exact hthermal ▸ h.thermal
    · exact hmemory ▸ h.memoryBw
    · exact fun hkv => h.kvCache (hgrows.mpr hkv)
  · intro h
    refine ⟨?_, ?_, ?_⟩
    · rw [hthermal]
      exact h.thermal
    · rw [hmemory]
      exact h.memoryBw
    · exact fun hkv => h.kvCache (hgrows.mp hkv)

/-- A scenario whose temperature should be at 50 degrees. -/
def heated : ScenarioConfig where
  __ := ScenarioConfig.still
  passiveDynamics :=
    { ScenarioConfig.still.passiveDynamics with
      thermalC := ⟨.literal "50.0" (.fin 50), .fin 0⟩ }

/-- The temperature stays at 40 degrees. -/
theorem heated_not_governed :
    heated.Accepted ∧
      ¬ Governed .flat heated (engineFromConfig heated.initialState)
        (.fin (1 / 20)) (.fromConfig heated.initialState)
        (bound (.fromConfig heated.initialState)
          (engineFromConfig heated.initialState) .new) := by
  refine ⟨⟨by decide, rfl⟩, ?_⟩
  intro h
  obtain ⟨v, hv, hnew⟩ := h.thermal
  obtain rfl : FloatVal.fin 50 = v := Except.ok.inj hv
  rw [passiveDynamics_frame _ _ _ _ (by decide) (by decide) (by decide)]
    at hnew
  have heq : FloatVal.fin 40 = .fin 50 := hnew.trans (lagStep_zero ..)
  exact absurd (FloatVal.fin.inj heq) (by norm_num)

end ArgusManager.Sim
