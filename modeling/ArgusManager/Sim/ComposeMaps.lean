/-
  ArgusManager.Sim.ComposeMaps
  ────────────────────────────
  **Composition does not depend on the order of a hash map**
  (`apply_actions`, `src/sim/compose.rs`).

  What an action contributes to one dimension is what its map of effects
  holds for it, wherever the iteration meets it (`onDim_effects`).  A field,
  its lag and the dtype only depend on the contributions to one dimension, so
  they are the same for every order (`applyActions_orderless`).
-/
import ArgusManager.Sim.ComposeOrder

namespace ArgusManager.Sim

/-! ## §1. The same maps, iterated in another order. -/

/-- The same action, its effects in another order. -/
structure ActionSpec.Same (spec spec' : ActionSpec) : Prop where
  guard_eq : spec.guard = spec'.guard
  effects : spec.effects.Same spec'.effects

/-- The same interaction, its effects in another order. -/
structure InteractionTerm.Same (term term' : InteractionTerm) : Prop where
  actions_eq : term.actions = term'.actions
  effects : term.effects.Same term'.effects

/-- Under every name the same action, or none. -/
def SameActions (actions actions' : StrMap ActionSpec) : Prop :=
  ∀ name, Option.Rel ActionSpec.Same (actions.get name) (actions'.get name)

/-- The same scenario as far as `apply_actions` reads it, its maps of effects
in another order. -/
structure SameEffects (cfg cfg' : ScenarioConfig) : Prop where
  composition_eq : cfg.composition = cfg'.composition
  actions : SameActions cfg.actions cfg'.actions
  interactions : List.Forall₂ InteractionTerm.Same cfg.interactions
    cfg'.interactions

variable (m : FloatVal.Libm)

/-- `apply_actions`, with an order in which the collected map of effects is
iterated. -/
def applyActionsIn (iterate : List DimEffect → List DimEffect)
    (cfg : ScenarioConfig) (engine : EngineStateModel) (dtS : FloatVal)
    (s : PhysicalState) (ctx : ExprContext) : PhysicalState × ExprContext :=
  if engine.activeActions = [] then (s, ctx)
  else
    let ctx := bound s engine ctx
    let c := collected (contributions cfg engine ctx)
    (applyStrings c.strings (applyEffects m c.tau dtS (iterate c.effects) s),
      ctx)

/-! ## §2. One dimension. -/

/-- A string only comes from contributions to its dimension. -/
theorem collected_strings_onDim (dim : String) (cs : List Contribution) :
    (collected cs).strings dim = (collected (onDim dim cs)).strings dim := by
  induction cs using List.reverseRecOn with
  | nil => rfl
  | append_singleton cs c ih =>
      rw [collected_concat, onDim_concat]
      split
      next hc =>
        rw [collected_concat]
        cases c with
        | collect d op value => exact ih
        | insertTau d tauS => exact ih
        | orInsertTau d tauS => exact ih
        | setString d s =>
            -- the last write wins, and both lists end with this one
            obtain rfl : d = dim := hc
            show Function.update _ d _ d = Function.update _ d _ d
            rw [Function.update_self, Function.update_self]
      next hc =>
        refine Eq.trans ?_ ih
        cases c with
        | collect d op value => rfl
        | insertTau d tauS => rfl
        | orInsertTau d tauS => rfl
        | setString d s => exact Function.update_of_ne (Ne.symm hc) ..

/-- Maps with the same entries contribute the same to a dimension. -/
theorem onDim_effects_same {effects effects' : StrMap Effect}
    (h : effects.Same effects') (dim : String)
    {f : String → Effect → List Contribution}
    (hf : ∀ d e, ∀ c ∈ f d e, c.dim = d) :
    onDim dim (effects.entries.flatMap fun e => f e.1 e.2)
      = onDim dim (effects'.entries.flatMap fun e => f e.1 e.2) := by
  rw [onDim_effects effects dim hf, onDim_effects effects' dim hf,
    StrMap.get_perm h]

section Same

variable {cfg cfg' : ScenarioConfig}

theorem contributionsOf_same (h : SameEffects cfg cfg') (ctx : ExprContext)
    (action dim : String) :
    onDim dim (contributionsOf cfg ctx action)
      = onDim dim (contributionsOf cfg' ctx action) := by
  have haction := h.actions action
  unfold contributionsOf
  cases hspec : cfg.actions.get action with
  | none =>
      rw [hspec] at haction
      cases hspec' : cfg'.actions.get action with
      | none => rfl
      | some spec' => rw [hspec'] at haction; cases haction
  | some spec =>
      rw [hspec] at haction
      cases hspec' : cfg'.actions.get action with
      | none => rw [hspec'] at haction; cases haction
      | some spec' =>
          rw [hspec'] at haction
          cases haction with
          | some hsame =>
              have happlies : spec.applies ctx = spec'.applies ctx := by
                unfold ActionSpec.applies
                rw [hsame.guard_eq]
              dsimp only
              rw [happlies, h.composition_eq]
              split
              next =>
                exact onDim_effects_same hsame.effects dim
                  (actionContributions_dim cfg'.composition ctx)
              next => rfl

theorem interactionContributions_same (h : SameEffects cfg cfg')
    (engine : EngineStateModel) (ctx : ExprContext) (dim : String) :
    onDim dim (interactionContributions cfg engine ctx)
      = onDim dim (interactionContributions cfg' engine ctx) := by
  have hterms := h.interactions
  unfold interactionContributions
  rw [h.composition_eq]
  generalize cfg.interactions = terms at hterms
  generalize cfg'.interactions = terms' at hterms
  induction hterms with
  | nil => rfl
  | cons hterm _ ih =>
      rw [List.flatMap_cons, List.flatMap_cons, onDim_append, onDim_append, ih]
      congr 1
      unfold InteractionTerm.allActive
      rw [hterm.actions_eq]
      split
      next =>
        exact onDim_effects_same hterm.effects dim
          (termContributions_dim cfg'.composition ctx)
      next => rfl

/-- **Every dimension gets the same contributions**, in the same order. -/
theorem contributions_same (h : SameEffects cfg cfg')
    (engine : EngineStateModel) (ctx : ExprContext) (dim : String) :
    onDim dim (contributions cfg engine ctx)
      = onDim dim (contributions cfg' engine ctx) := by
  unfold contributions
  rw [onDim_append, onDim_append, onDim_flatMap, onDim_flatMap,
    interactionContributions_same h]
  simp only [contributionsOf_same h]

end Same

/-! ## §3. The state. -/

theorem applyStrings_kvDtype (strings : String → Option String)
    (s : PhysicalState) :
    (applyStrings strings s).kvDtype
      = (strings "kv_dtype").getD s.kvDtype := by
  unfold applyStrings
  split
  next dtype h => rw [h]; rfl
  next h => rw [h]; rfl

/-- The dtype after the actions. -/
theorem applyActions_kvDtype (cfg : ScenarioConfig)
    (engine : EngineStateModel) (dtS : FloatVal) (s : PhysicalState)
    (ctx : ExprContext) (hactive : engine.activeActions ≠ []) :
    (applyActions m cfg engine dtS s ctx).1.kvDtype
      = ((collected (onDim "kv_dtype" (contributions cfg engine
          (bound s engine ctx)))).strings "kv_dtype").getD s.kvDtype := by
  unfold applyActions
  rw [if_neg hactive]
  dsimp only
  rw [applyStrings_kvDtype, applyEffects_kvDtype, collected_strings_onDim]

theorem applyActionsIn_eq {iterate : List DimEffect → List DimEffect}
    (h : ∀ es, (iterate es).Perm es) (cfg : ScenarioConfig)
    (engine : EngineStateModel) (dtS : FloatVal) (s : PhysicalState)
    (ctx : ExprContext) :
    applyActionsIn m iterate cfg engine dtS s ctx
      = applyActions m cfg engine dtS s ctx := by
  unfold applyActionsIn applyActions
  split
  next => rfl
  next =>
    dsimp only
    rw [applyEffects_perm m (collected_nodup _) (h _).symm]

/-- **Composition does not depend on hash order**: for every state, engine and
scenario, and for every order in which the maps of effects of the actions and
interactions and the collected map are iterated. -/
theorem applyActions_orderless (m : FloatVal.Libm)
    {cfg cfg' : ScenarioConfig} (h : SameEffects cfg cfg')
    {iterate : List DimEffect → List DimEffect}
    (hiterate : ∀ es, (iterate es).Perm es) (engine : EngineStateModel)
    (dtS : FloatVal) (s : PhysicalState) (ctx : ExprContext) :
    (applyActionsIn m iterate cfg' engine dtS s ctx).1
      = (applyActions m cfg engine dtS s ctx).1 := by
  rw [applyActionsIn_eq m hiterate]
  by_cases hactive : engine.activeActions = []
  · unfold applyActions
    rw [if_pos hactive, if_pos hactive]
  · -- every field and the dtype are read off their own contributions
    have hdim := contributions_same h engine (bound s engine ctx)
    refine PhysicalState.ext_num (fun f => ?_) ?_
    · rw [applyActions_num m cfg' engine dtS s ctx hactive,
        applyActions_num m cfg engine dtS s ctx hactive, valuesOn_onDim,
        valuesOn_onDim f.name (contributions cfg engine _),
        collected_tau_onDim, collected_tau_onDim _ (contributions cfg engine _),
        hdim]
    · rw [applyActions_kvDtype m cfg' engine dtS s ctx hactive,
        applyActions_kvDtype m cfg engine dtS s ctx hactive, hdim]

/-- One action with two effects, in either order. -/
def pinning (effects : StrMap Effect) : ScenarioConfig where
  __ := ScenarioConfig.still
  actions := .single "Pin" ⟨none, effects⟩

def pinEffects : StrMap Effect :=
  ⟨[("engine_cpu_pct", .set (.literal (.fin 50)) (.fin 0)),
    ("kv_dtype", .set (.stringLiteral "q4_0") (.fin 0))], by decide⟩

def pinEffectsBack : StrMap Effect :=
  ⟨[("kv_dtype", .set (.stringLiteral "q4_0") (.fin 0)),
    ("engine_cpu_pct", .set (.literal (.fin 50)) (.fin 0))], by decide⟩

theorem applyActions_orderless_pinning :
    (applyActionsIn .flat List.reverse (pinning pinEffectsBack)
        { engineFromConfig ScenarioConfig.still.initialState with
          activeActions := ["Pin"] } (.fin (1 / 20))
        (.fromConfig ScenarioConfig.still.initialState) .new).1
      = (applyActions .flat (pinning pinEffects)
          { engineFromConfig ScenarioConfig.still.initialState with
            activeActions := ["Pin"] } (.fin (1 / 20))
          (.fromConfig ScenarioConfig.still.initialState) .new).1 := by
  have hsame : SameEffects (pinning pinEffects) (pinning pinEffectsBack) := by
    refine ⟨rfl, fun name => ?_, .nil⟩
    show Option.Rel _ (List.lookup name [("Pin", _)])
      (List.lookup name [("Pin", _)])
    rw [List.lookup_cons, List.lookup_cons]
    cases name == "Pin" with
    | true => exact .some ⟨rfl, .swap ..⟩
    | false => exact .none
  exact applyActions_orderless .flat hsame List.reverse_perm _ _ _ _

end ArgusManager.Sim
