/-
  ArgusManager.Sim.SetRule
  ────────────────────────
  **The rule of a dimension and the effects that set it** (`apply_actions`,
  `src/sim/compose.rs`).

  A value that an action sets is always collected as for `max`; only the
  literals of interactions look at the rule, and what an interaction sets by an
  expression is ignored.  The first value collected fixes the operator, so a
  `min` rule is followed exactly if no action sets the dimension, or if all
  values are the same number (`set_rule_iff`).
-/
import ArgusManager.Float.Extremes
import ArgusManager.Sim.ComposeOrder

namespace ArgusManager.Sim

/-! ## §1. Values that are set. -/

/-- A number is set, without a lag. -/
def Effect.NumericSet (ctx : ExprContext) : Effect → Prop
  | .set (.literal _) tauS => tauS = .fin 0
  | .set (.expr e) tauS =>
      (∃ err, e.evalString ctx = .error err) ∧ tauS = .fin 0
  | _ => False

/-- Something is set, without a lag. -/
def Effect.PlainSet : Effect → Prop
  | .set _ tauS => tauS = .fin 0
  | _ => False

/-- The number an action sets, if its expression has one. -/
def Effect.setValue (ctx : ExprContext) : Effect → Option FloatVal
  | .set value _ => evalExprOrValue ctx value
  | _ => none

/-- The number an interaction sets: a literal.  An expression is ignored. -/
def Effect.setLiteral : Effect → Option FloatVal
  | .set (.literal x) _ => some x
  | _ => none

section Values

variable (cfg : ScenarioConfig) (engine : EngineStateModel)
  (ctx : ExprContext) (dim : String)

/-- What one action sets a dimension to. -/
def actionSetValue (action : String) : Option FloatVal :=
  (cfg.actions.get action).bind fun spec =>
    if spec.applies ctx then
      (spec.effects.get dim).bind (Effect.setValue ctx)
    else none

/-- What the active actions set a dimension to. -/
def actionSetValues : List FloatVal :=
  engine.activeActions.filterMap (actionSetValue cfg ctx dim)

/-- What one interaction sets a dimension to. -/
def termSetValue (term : InteractionTerm) : Option FloatVal :=
  if term.allActive engine then
    (term.effects.get dim).bind Effect.setLiteral
  else none

/-- What the matching interactions set a dimension to. -/
def termSetValues : List FloatVal :=
  cfg.interactions.filterMap (termSetValue engine dim)

/-- All values a dimension is set to. -/
def setValues : List FloatVal :=
  actionSetValues cfg engine ctx dim ++ termSetValues cfg engine dim

/-- The active actions and the matching interactions do nothing to the
dimension but set it. -/
structure OnlySets : Prop where
  actions : ∀ action ∈ engine.activeActions, ∀ spec,
    cfg.actions.get action = some spec → spec.applies ctx = true →
      ∀ e, spec.effects.get dim = some e → e.NumericSet ctx
  interactions : ∀ term ∈ cfg.interactions, term.allActive engine = true →
    ∀ e, term.effects.get dim = some e → e.PlainSet

end Values

/-! ## §2. What they contribute. -/

section Contributions

variable {cfg : ScenarioConfig} {engine : EngineStateModel}
  {ctx : ExprContext} {dim : String}

/-- A set of an action is collected as for `max`. -/
theorem actionContributions_set {e : Effect} (h : e.NumericSet ctx)
    (comp : Composition) :
    actionContributions comp ctx dim e
      = (e.setValue ctx).toList.map (.collect dim .max) := by
  cases e with
  | set value tauS =>
      cases value with
      | literal x =>
          obtain rfl : tauS = .fin 0 := h
          show _ :: positiveTau _ _ = _
          rw [positiveTau_zero]
          rfl
      | expr e =>
          obtain ⟨⟨err, herr⟩, rfl⟩ := h
          show setContributions ctx dim (.expr e) (.fin 0) = _
          unfold setContributions Effect.setValue evalExprOrValue
          dsimp only
          rw [herr]
          cases e.evalFloat ctx with
          | error err => rfl
          | ok x =>
              dsimp only
              rw [positiveTau_zero]
              rfl
      | stringLiteral s => exact h.elim
  | scale factor tauS => exact h.elim
  | add value tauS => exact h.elim
  | setTau value => exact h.elim

/-- A set of an interaction is collected as the rule says. -/
theorem termContributions_set {e : Effect} (h : e.PlainSet)
    (comp : Composition) :
    termContributions comp ctx dim e
      = e.setLiteral.toList.map (.collect dim (comp.op dim).forSet) := by
  cases e with
  | set value tauS =>
      obtain rfl : tauS = .fin 0 := h
      cases value with
      | literal x =>
          show _ :: positiveTau _ _ = _
          rw [positiveTau_zero]
          rfl
      | expr e => rfl
      | stringLiteral s => rfl
  | scale factor tauS => exact h.elim
  | add value tauS => exact h.elim
  | setTau value => exact h.elim

/-- Steps that each give one value or none. -/
theorem flatMap_toList {α β γ : Type} {xs : List α} {f : α → List γ}
    {v : α → Option β} {g : β → γ}
    (h : ∀ x ∈ xs, f x = (v x).toList.map g) :
    xs.flatMap f = (xs.filterMap v).map g := by
  induction xs with
  | nil => rfl
  | cons x xs ih =>
      obtain ⟨hx, hxs⟩ := List.forall_mem_cons.mp h
      rw [List.flatMap_cons, hx, ih hxs]
      cases hv : v x with
      | none => rw [List.filterMap_cons_none hv]; rfl
      | some b => rw [List.filterMap_cons_some hv]; rfl

/-- **All that a dimension gets**: the values of the actions as for `max`,
then those of the interactions as the rule says. -/
theorem onDim_sets (h : OnlySets cfg engine ctx dim) :
    onDim dim (contributions cfg engine ctx)
      = (actionSetValues cfg engine ctx dim).map (.collect dim .max)
        ++ (termSetValues cfg engine dim).map
            (.collect dim (cfg.composition.op dim).forSet) := by
  unfold contributions interactionContributions
  rw [onDim_append, onDim_flatMap, onDim_flatMap]
  congr 1
  · -- the active actions
    refine flatMap_toList fun action haction => ?_
    unfold contributionsOf actionSetValue
    cases hspec : cfg.actions.get action with
    | none => rfl
    | some spec =>
        dsimp only [Option.bind_some]
        by_cases happlies : spec.applies ctx = true
        · rw [if_pos happlies, if_pos happlies, onDim_effects spec.effects dim
            (actionContributions_dim cfg.composition ctx)]
          cases he : spec.effects.get dim with
          | none => rfl
          | some e =>
              exact actionContributions_set
                (h.actions action haction spec hspec happlies e he) _
        · rw [if_neg happlies, if_neg happlies]
          rfl
  · -- the matching interactions
    refine flatMap_toList fun term hterm => ?_
    unfold termSetValue
    by_cases hactive : term.allActive engine = true
    · rw [if_pos hactive, if_pos hactive, onDim_effects term.effects dim
        (termContributions_dim cfg.composition ctx)]
      cases he : term.effects.get dim with
      | none => rfl
      | some e =>
          exact termContributions_set
            (h.interactions term hterm hactive e he) _
    · rw [if_neg hactive, if_neg hactive]
      rfl

theorem valuesOn_collects (dim : String) (op : CompositionOp)
    (xs : List FloatVal) :
    valuesOn dim (xs.map (.collect dim op)) = xs.map fun x => (op, x) := by
  induction xs with
  | nil => rfl
  | cons x xs ih =>
      rw [List.map_cons, List.map_cons, ← ih]
      exact List.filterMap_cons_some (if_pos rfl)

/-- The operator of the first value. -/
def leadingSetOp (cfg : ScenarioConfig) (engine : EngineStateModel)
    (ctx : ExprContext) (dim : String) : CompositionOp :=
  if actionSetValues cfg engine ctx dim = [] then
    (cfg.composition.op dim).forSet
  else .max

end Contributions

variable (m : FloatVal.Libm)

/-- **A dimension that is only set** comes to what the first value's operator
makes of all values. -/
theorem applyActions_sets {cfg : ScenarioConfig} {engine : EngineStateModel}
    {s : PhysicalState} {ctx : ExprContext} {f : Field} (dtS : FloatVal)
    (hactive : engine.activeActions ≠ [])
    (h : OnlySets cfg engine (bound s engine ctx) f.name)
    (hvalues : setValues cfg engine (bound s engine ctx) f.name ≠ []) :
    (applyActions m cfg engine dtS s ctx).1.num f
      = combine (leadingSetOp cfg engine (bound s engine ctx) f.name)
          (s.num f) (setValues cfg engine (bound s engine ctx) f.name) := by
  rw [applyActions_num m cfg engine dtS s ctx hactive, valuesOn_onDim,
    collected_tau_onDim, onDim_sets h]
  unfold leadingSetOp setValues at *
  generalize actionSetValues cfg engine (bound s engine ctx) f.name = xs at *
  generalize termSetValues cfg engine f.name = ys at *
  generalize (cfg.composition.op f.name).forSet = op
  have hcollect : ∀ c ∈ xs.map (Contribution.collect f.name .max)
      ++ ys.map (.collect f.name op), c.IsCollect := by
    intro c hc
    rcases List.mem_append.mp hc with hc | hc
    · obtain ⟨x, _, rfl⟩ := List.mem_map.mp hc
      trivial
    · obtain ⟨y, _, rfl⟩ := List.mem_map.mp hc
      trivial
  rw [(collected_collect hcollect).1, valuesOn_append, valuesOn_collects,
    valuesOn_collects, Option.getD_none]
  have hsnd : (xs.map (fun x => (CompositionOp.max, x))
      ++ ys.map fun y => (op, y)).map Prod.snd = xs ++ ys := by
    rw [List.map_append, List.map_map, List.map_map]
    show xs.map id ++ ys.map id = _
    rw [List.map_id, List.map_id]
  -- the first value brings the operator
  cases xs with
  | nil =>
      cases ys with
      | nil => exact absurd rfl hvalues
      | cons y ys =>
          rw [dimResult_zero m (v := (op, y)) rfl, hsnd]
          rfl
  | cons x xs =>
      rw [dimResult_zero m (v := (.max, x)) rfl, hsnd]
      rfl

/-! ## §3. The rule. -/

/-- The field comes to the least of the values under a `min` rule, and to the
greatest under a `max` rule. -/
def ObeysRule (cfg : ScenarioConfig) (engine : EngineStateModel)
    (dtS : FloatVal) (s : PhysicalState) (ctx : ExprContext) (f : Field) :
    Prop :=
  (cfg.composition.perDimension.get f.name = some .min →
    (applyActions m cfg engine dtS s ctx).1.num f
      = FloatVal.minimum (setValues cfg engine (bound s engine ctx) f.name))
  ∧ (cfg.composition.perDimension.get f.name = some .max →
    (applyActions m cfg engine dtS s ctx).1.num f
      = FloatVal.maximum (setValues cfg engine (bound s engine ctx) f.name))

/-- **When the rule of a dimension governs its sets**, for every scenario and
every active actions that only set the field, with or without interactions
that set it: the rule is not `min`, or no action sets the field, or all values
that are numbers are one number.  A set by an expression in an interaction is
no value, as the code ignores it. -/
theorem set_rule_iff (m : FloatVal.Libm) (cfg : ScenarioConfig)
    (engine : EngineStateModel) (dtS : FloatVal) (s : PhysicalState)
    (ctx : ExprContext) (f : Field) (hactive : engine.activeActions ≠ [])
    (h : OnlySets cfg engine (bound s engine ctx) f.name)
    (hvalues : setValues cfg engine (bound s engine ctx) f.name ≠ []) :
    ObeysRule m cfg engine dtS s ctx f
      ↔ (cfg.composition.perDimension.get f.name = some .min →
          actionSetValues cfg engine (bound s engine ctx) f.name = []
            ∨ ∃ x, FloatVal.OnlyNumber
                (setValues cfg engine (bound s engine ctx) f.name) x) := by
  have hnum := applyActions_sets m dtS hactive h hvalues
  unfold leadingSetOp Composition.op at hnum
  unfold ObeysRule
  cases hrule : cfg.composition.perDimension.get f.name with
  | none => exact iff_of_true ⟨nofun, nofun⟩ nofun
  | some rule =>
      rw [hrule, Option.getD_some] at hnum
      rw [hnum]
      cases rule with
      | min =>
          rw [and_iff_left nofun]
          refine imp_congr_right fun _ => ?_
          by_cases hnone :
              actionSetValues cfg engine (bound s engine ctx) f.name = []
          · rw [if_pos hnone]
            exact iff_of_true rfl (.inl hnone)
          · -- an action came first, so the field is the greatest value
            rw [if_neg hnone, or_iff_right hnone]
            exact FloatVal.maximum_eq_minimum_iff _
      | max =>
          -- the rule and the actions' operator are one
          refine iff_of_true ⟨nofun, fun _ => ?_⟩ nofun
          split <;> rfl
      | multiply => exact iff_of_true ⟨nofun, nofun⟩ nofun
      | add => exact iff_of_true ⟨nofun, nofun⟩ nofun
      | addDelta => exact iff_of_true ⟨nofun, nofun⟩ nofun

/-- Two actions that set the engine's load, whose rule is `min`. -/
def capped (low high : ℚ) : ScenarioConfig where
  __ := ScenarioConfig.still
  actions :=
    ⟨[("Low", ⟨none, .single "engine_cpu_pct"
        (.set (.literal (.fin low)) (.fin 0))⟩),
      ("High", ⟨none, .single "engine_cpu_pct"
        (.set (.literal (.fin high)) (.fin 0))⟩)],
      show ["Low", "High"].Nodup by decide⟩
  composition := ⟨.multiply, .single "engine_cpu_pct" .min⟩

def cappedEngine : EngineStateModel :=
  { engineFromConfig ScenarioConfig.still.initialState with
    activeActions := ["Low", "High"] }

theorem capped_onlySets (low high : ℚ) (ctx : ExprContext) :
    OnlySets (capped low high) cappedEngine ctx
      Field.engineCpuPct.name := by
  refine ⟨?_, fun _ h => absurd h List.not_mem_nil⟩
  intro action _ spec hspec _ e he
  have hmem := StrMap.get_eq_some.mp hspec
  rcases List.mem_pair.mp hmem with heq | heq
  · obtain ⟨rfl, rfl⟩ := Prod.mk.inj heq
    obtain rfl := Option.some.inj he
    rfl
  · obtain ⟨rfl, rfl⟩ := Prod.mk.inj heq
    obtain rfl := Option.some.inj he
    rfl

theorem capped_setValues (low high : ℚ) (ctx : ExprContext) :
    setValues (capped low high) cappedEngine ctx Field.engineCpuPct.name
      = [.fin low, .fin high] :=
  rfl

theorem set_rule_capped_same :
    ObeysRule .flat (capped 20 20) cappedEngine (.fin (1 / 20))
      (.fromConfig ScenarioConfig.still.initialState) .new .engineCpuPct := by
  refine (set_rule_iff .flat (capped 20 20) cappedEngine _ _ .new .engineCpuPct
    (List.cons_ne_nil _ _) (capped_onlySets 20 20 _)
    (List.cons_ne_nil _ _)).mpr fun _ => .inr ⟨.fin 20, nofun, ?_⟩
  rw [capped_setValues]
  exact ⟨List.mem_cons_self, by simp⟩

/-- Of 10 and 20 the load is 20. -/
theorem min_rule_takes_max :
    (capped 10 20).Accepted
      ∧ OnlySets (capped 10 20) cappedEngine
          (bound (.fromConfig ScenarioConfig.still.initialState) cappedEngine
            .new) Field.engineCpuPct.name
      ∧ ¬ ObeysRule .flat (capped 10 20) cappedEngine (.fin (1 / 20))
          (.fromConfig ScenarioConfig.still.initialState) .new
          .engineCpuPct := by
  have hsets := capped_onlySets 10 20
  refine ⟨⟨by decide, rfl⟩, hsets _, fun hrule => ?_⟩
  have hmin := hrule.1 rfl
  rw [applyActions_sets .flat _ (List.cons_ne_nil _ _) (hsets _)
    (List.cons_ne_nil _ _), capped_setValues] at hmin
  have hmax : FloatVal.maximum [.fin 10, .fin 20] = .fin 20 := by
    simp [FloatVal.maximum]
    norm_num
  have hleast : FloatVal.minimum [.fin 10, .fin 20] = .fin 10 := by
    simp [FloatVal.minimum]
    norm_num
  have heq : FloatVal.fin 20 = .fin 10 := hmax.symm.trans (hmin.trans hleast)
  exact absurd (FloatVal.fin.inj heq) (by norm_num)

end ArgusManager.Sim
