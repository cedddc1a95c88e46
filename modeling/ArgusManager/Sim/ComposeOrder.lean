/-
  ArgusManager.Sim.ComposeOrder
  ─────────────────────────────
  When the order of the active actions does not matter, for numeric effects
  without a lag.

  The values collected for a dimension are combined in a way that does not
  depend on their order (`combine_perm`); the operator they are combined by is
  the one of the action that comes first.  So the order does not matter
  exactly if, for every field, the operators of all actions that have an
  effect on it make the same of the values (`applyActions_orderFree_iff`).
-/
import ArgusManager.Sim.Compose

namespace ArgusManager.Sim

variable (m : FloatVal.Libm)

/-! ## §1. Numeric effects. -/

/-- The effect is a number, without a lag. -/
def Effect.Numeric (ctx : ExprContext) : Effect → Prop
  | .set (.literal _) tauS => tauS = .fin 0
  | .set (.expr e) tauS =>
      (∃ err, e.evalString ctx = .error err) ∧ tauS = .fin 0
  | .set (.stringLiteral _) _ => False
  | .scale _ tauS => tauS = .fin 0
  | .add _ tauS => tauS = .fin 0
  | .setTau _ => False

/-- Every effect of the scenario is. -/
structure NumericEffects (cfg : ScenarioConfig) (ctx : ExprContext) :
    Prop where
  actions : ∀ a ∈ cfg.actions.entries, ∀ e ∈ a.2.effects.entries,
    e.2.Numeric ctx
  interactions : ∀ term ∈ cfg.interactions, ∀ e ∈ term.effects.entries,
    e.2.Numeric ctx

/-- A contribution to the map of effects. -/
def Contribution.IsCollect : Contribution → Prop
  | .collect _ _ _ => True
  | _ => False

/-- The physical state is the same for every order of the active actions. -/
def ActionOrderFree (cfg : ScenarioConfig) (engine : EngineStateModel)
    (dtS : FloatVal) (s : PhysicalState) (ctx : ExprContext) : Prop :=
  ∀ active : List String, active.Perm engine.activeActions →
    (applyActions m cfg { engine with activeActions := active } dtS s ctx).1
      = (applyActions m cfg engine dtS s ctx).1

/-- The operator an action's effect on a field would be collected with. -/
def leadingOp (cfg : ScenarioConfig) (ctx : ExprContext) (f : Field)
    (action : String) : Option CompositionOp :=
  ((valuesOn f.name (contributionsOf cfg ctx action)).head?).map Prod.fst

/-- The values of all effects on a field. -/
def fieldValues (cfg : ScenarioConfig) (engine : EngineStateModel)
    (ctx : ExprContext) (f : Field) : List FloatVal :=
  (valuesOn f.name (contributions cfg engine ctx)).map Prod.snd

/-- On every field, the operators of the active actions agree. -/
def OpsAgree (cfg : ScenarioConfig) (engine : EngineStateModel)
    (s : PhysicalState) (ctx : ExprContext) : Prop :=
  ∀ f : Field, ∀ a ∈ engine.activeActions, ∀ b ∈ engine.activeActions,
    ∀ op op', leadingOp cfg ctx f a = some op →
      leadingOp cfg ctx f b = some op' →
      combine op (s.num f) (fieldValues cfg engine ctx f)
        = combine op' (s.num f) (fieldValues cfg engine ctx f)

/-! ## §2. Numbers only. -/

section Collects

variable {comp : Composition} {ctx : ExprContext} {dim : String}

theorem positiveTau_zero (put : FloatVal → Contribution) :
    positiveTau put (.fin 0) = [] := by
  unfold positiveTau
  rw [if_neg (by simp)]

theorem scaleContributions_collect (factor : ExprOrValue) :
    ∀ c ∈ scaleContributions ctx dim factor (.fin 0), c.IsCollect := by
  intro c hc
  unfold scaleContributions at hc
  rw [positiveTau_zero, List.mem_singleton] at hc
  rw [hc]
  trivial

theorem addContributions_collect (value : ExprOrValue) :
    ∀ c ∈ addContributions comp ctx dim value (.fin 0), c.IsCollect := by
  intro c hc
  unfold addContributions at hc
  rw [positiveTau_zero, List.mem_singleton] at hc
  rw [hc]
  trivial

theorem setContributions_collect {value : ExprOrValue} {tauS : FloatVal}
    (h : (Effect.set value tauS).Numeric ctx) :
    ∀ c ∈ setContributions ctx dim value tauS, c.IsCollect := by
  intro c hc
  unfold setContributions at hc
  cases value with
  | literal x =>
      obtain rfl : tauS = .fin 0 := h
      dsimp only at hc
      rw [positiveTau_zero, List.mem_singleton] at hc
      rw [hc]
      trivial
  | stringLiteral str => exact h.elim
  | expr e =>
      obtain ⟨⟨err, herr⟩, rfl⟩ := h
      dsimp only at hc
      rw [herr] at hc
      dsimp only at hc
      split at hc
      next =>
        rw [positiveTau_zero, List.mem_singleton] at hc
        rw [hc]
        trivial
      next => exact absurd hc List.not_mem_nil

theorem actionContributions_collect {e : Effect} (h : e.Numeric ctx) :
    ∀ c ∈ actionContributions comp ctx dim e, c.IsCollect := by
  cases e with
  | set value tauS => exact setContributions_collect h
  | scale factor tauS =>
      obtain rfl : tauS = .fin 0 := h
      exact scaleContributions_collect factor
  | add value tauS =>
      obtain rfl : tauS = .fin 0 := h
      exact addContributions_collect value
  | setTau value => exact h.elim

theorem termContributions_collect {e : Effect} (h : e.Numeric ctx) :
    ∀ c ∈ termContributions comp ctx dim e, c.IsCollect := by
  cases e with
  | set value tauS =>
      cases value with
      | literal x =>
          obtain rfl : tauS = .fin 0 := h
          intro c hc
          unfold termContributions at hc
          dsimp only at hc
          rw [positiveTau_zero, List.mem_singleton] at hc
          rw [hc]
          trivial
      | expr e =>
          intro c hc
          exact absurd hc List.not_mem_nil
      | stringLiteral str => exact h.elim
  | scale factor tauS =>
      obtain rfl : tauS = .fin 0 := h
      exact scaleContributions_collect factor
  | add value tauS =>
      obtain rfl : tauS = .fin 0 := h
      exact addContributions_collect value
  | setTau value => exact h.elim

end Collects

/-- Numeric effects only fill the map of effects. -/
theorem contributions_collect {cfg : ScenarioConfig} {ctx : ExprContext}
    (h : NumericEffects cfg ctx) (engine : EngineStateModel) :
    ∀ c ∈ contributions cfg engine ctx, c.IsCollect := by
  intro c hc
  rcases List.mem_append.mp hc with hc | hc
  · obtain ⟨action, _, hc⟩ := List.mem_flatMap.mp hc
    unfold contributionsOf at hc
    split at hc
    next => exact absurd hc List.not_mem_nil
    next spec hspec =>
      split at hc
      next =>
        obtain ⟨e, he, hc⟩ := List.mem_flatMap.mp hc
        exact actionContributions_collect
          (h.actions _ (StrMap.get_eq_some.mp hspec) e he) c hc
      next => exact absurd hc List.not_mem_nil
  · obtain ⟨term, hterm, hc⟩ := List.mem_flatMap.mp hc
    split at hc
    next =>
      obtain ⟨e, he, hc⟩ := List.mem_flatMap.mp hc
      exact termContributions_collect (h.interactions term hterm e he) c hc
    next => exact absurd hc List.not_mem_nil

theorem collected_collect {cs : List Contribution}
    (h : ∀ c ∈ cs, c.IsCollect) :
    (collected cs).tau = (fun _ => none)
      ∧ (collected cs).strings = fun _ => none := by
  induction cs using List.reverseRecOn with
  | nil => exact ⟨rfl, rfl⟩
  | append_singleton cs c ih =>
      have hc : c.IsCollect := h c (List.mem_append_right _ List.mem_cons_self)
      have hcs := ih fun c hc => h c (List.mem_append_left _ hc)
      rw [collected_concat]
      cases c with
      | collect dim op value => exact hcs
      | insertTau dim tauS => exact hc.elim
      | orInsertTau dim tauS => exact hc.elim
      | setString dim str => exact hc.elim

/-! ## §3. Values in another order. -/

/-- **What an operator makes of values does not depend on their order.** -/
theorem combine_perm (op : CompositionOp) (current : FloatVal)
    {xs ys : List FloatVal} (h : xs.Perm ys) :
    combine op current xs = combine op current ys := by
  cases op with
  | multiply => exact congrArg (current * ·) (FloatVal.product_perm h)
  | add => exact congrArg (current + ·) (FloatVal.sum_perm h)
  | addDelta => exact congrArg (current + ·) (FloatVal.sum_perm h)
  | max => exact FloatVal.maximum_perm h
  | min => exact FloatVal.minimum_perm h

section Permuted

variable {cfg : ScenarioConfig} {engine : EngineStateModel}
  {active : List String} {ctx : ExprContext}

/-- An interaction only asks which actions are active. -/
theorem interactionContributions_perm
    (h : active.Perm engine.activeActions) :
    interactionContributions cfg { engine with activeActions := active } ctx
      = interactionContributions cfg engine ctx := by
  have hall : ∀ term : InteractionTerm,
      term.allActive { engine with activeActions := active }
        = term.allActive engine := by
    intro term
    unfold InteractionTerm.allActive
    have hcontains : ∀ action : String,
        active.contains action = engine.activeActions.contains action := by
      intro action
      rw [Bool.eq_iff_iff, List.contains_iff_mem, List.contains_iff_mem]
      exact h.mem_iff
    simp only [hcontains]
  unfold interactionContributions
  simp only [hall]

theorem valuesOn_perm (h : active.Perm engine.activeActions) (dim : String) :
    (valuesOn dim
      (contributions cfg { engine with activeActions := active } ctx)).Perm
    (valuesOn dim (contributions cfg engine ctx)) := by
  unfold contributions
  rw [interactionContributions_perm h, valuesOn_append, valuesOn_append]
  exact ((h.flatMap_right _).filterMap _).append_right _

/-- The first value of a dimension is the first one of some active action, or
no active action has one. -/
theorem valuesOn_head (cfg : ScenarioConfig) (engine : EngineStateModel)
    (ctx : ExprContext) (dim : String) :
    (∃ a ∈ engine.activeActions, ∃ v,
      (valuesOn dim (contributionsOf cfg ctx a)).head? = some v ∧
      (valuesOn dim (contributions cfg engine ctx)).head? = some v)
    ∨ ((∀ a ∈ engine.activeActions,
        valuesOn dim (contributionsOf cfg ctx a) = []) ∧
      valuesOn dim (contributions cfg engine ctx)
        = valuesOn dim (interactionContributions cfg engine ctx)) := by
  unfold contributions
  rw [valuesOn_append]
  induction engine.activeActions with
  | nil => exact .inr ⟨fun _ ha => absurd ha List.not_mem_nil, rfl⟩
  | cons a rest ih =>
      rw [List.flatMap_cons, valuesOn_append]
      -- the first action with a value on the dimension decides
      cases hv : valuesOn dim (contributionsOf cfg ctx a) with
      | nil =>
          rw [List.nil_append]
          rcases ih with ⟨b, hb, v, hhead, hall⟩ | ⟨hnone, hall⟩
          · exact .inl ⟨b, List.mem_cons_of_mem a hb, v, hhead, hall⟩
          · exact .inr ⟨List.forall_mem_cons.mpr ⟨hv, hnone⟩, hall⟩
      | cons v vs =>
          exact .inl ⟨a, List.mem_cons_self, v, by rw [hv]; rfl, rfl⟩

/-- A field after the actions, if their effects are numeric. -/
theorem applyActions_numeric (engine : EngineStateModel) (dtS : FloatVal)
    (s : PhysicalState) (ctx : ExprContext)
    (h : NumericEffects cfg (bound s engine ctx))
    (hactive : engine.activeActions ≠ []) (f : Field) :
    (applyActions m cfg engine dtS s ctx).1.num f
      = dimResult m (.fin 0) dtS (s.num f)
          (entryOf (valuesOn f.name
            (contributions cfg engine (bound s engine ctx)))) := by
  rw [applyActions_num m cfg engine dtS s ctx hactive,
    (collected_collect (contributions_collect h engine)).1]
  rfl

/-- The state's dtype stays, if the effects are numeric. -/
theorem applyActions_dtype (engine : EngineStateModel) (dtS : FloatVal)
    (s : PhysicalState) (ctx : ExprContext)
    (h : NumericEffects cfg (bound s engine ctx)) :
    (applyActions m cfg engine dtS s ctx).1.kvDtype = s.kvDtype := by
  unfold applyActions
  split
  next => rfl
  next =>
    dsimp only
    rw [(collected_collect (contributions_collect h engine)).2]
    exact applyEffects_kvDtype ..

/-- Without a lag, values come to what the first one's operator makes of
them. -/
theorem dimResult_zero {dtS current : FloatVal}
    {vs : List (CompositionOp × FloatVal)} {v : CompositionOp × FloatVal}
    (h : vs.head? = some v) :
    dimResult m (.fin 0) dtS current (entryOf vs)
      = combine v.1 current (vs.map Prod.snd) :=
  (dimResult_head m h).trans (lagStep_zero ..)

end Permuted

/-! ## §4. The order of the active actions. -/

section Main

variable {m} {cfg : ScenarioConfig} {engine : EngineStateModel}
  {dtS : FloatVal} {s : PhysicalState} {ctx : ExprContext}

/-- With an action first that has an effect on a field, the field comes to
what that effect's operator makes of all values. -/
theorem applyActions_leading (m : FloatVal.Libm) (dtS : FloatVal)
    (h : NumericEffects cfg (bound s engine ctx))
    {a : String} (ha : a ∈ engine.activeActions) {f : Field}
    {op : CompositionOp}
    (hop : leadingOp cfg (bound s engine ctx) f a = some op) :
    ∃ active : List String, active.Perm engine.activeActions ∧
      (applyActions m cfg { engine with activeActions := active } dtS s
        ctx).1.num f
        = combine op (s.num f)
            (fieldValues cfg engine (bound s engine ctx) f) := by
  obtain ⟨v, hhead, rfl⟩ := Option.map_eq_some_iff.mp hop
  have hperm : (a :: engine.activeActions.erase a).Perm engine.activeActions :=
    (List.perm_cons_erase ha).symm
  -- the order in which `a` comes first
  refine ⟨a :: engine.activeActions.erase a, hperm, ?_⟩
  have hfirst : (valuesOn f.name (contributions cfg { engine with
      activeActions := a :: engine.activeActions.erase a }
        (bound s engine ctx))).head? = some v := by
    unfold contributions
    rw [List.flatMap_cons, List.append_assoc, valuesOn_append]
    rw [List.head?_append, hhead]
    rfl
  refine (applyActions_numeric m { engine with
    activeActions := a :: engine.activeActions.erase a } dtS s ctx h
    (List.cons_ne_nil _ _) f).trans ?_
  refine (dimResult_zero m hfirst).trans ?_
  exact combine_perm v.1 (s.num f) ((valuesOn_perm hperm f.name).map Prod.snd)

theorem opsAgree_of_free (h : NumericEffects cfg (bound s engine ctx))
    (hfree : ActionOrderFree m cfg engine dtS s ctx) :
    OpsAgree cfg engine s (bound s engine ctx) := by
  intro f a ha b hb op op' hop hop'
  obtain ⟨active, hperm, hres⟩ :=
    applyActions_leading m dtS h ha hop
  obtain ⟨active', hperm', hres'⟩ :=
    applyActions_leading m dtS h hb hop'
  rw [← hres, ← hres', hfree active hperm, hfree active' hperm']

/-- The operators that two orders apply to a field agree. -/
theorem dimResult_agree (hagree : OpsAgree cfg engine s ctx)
    {active : List String} (hperm : active.Perm engine.activeActions)
    (f : Field) :
    dimResult m (.fin 0) dtS (s.num f) (entryOf (valuesOn f.name
      (contributions cfg { engine with activeActions := active } ctx)))
    = dimResult m (.fin 0) dtS (s.num f) (entryOf (valuesOn f.name
        (contributions cfg engine ctx))) := by
  have hvalues : (valuesOn f.name
      (contributions cfg { engine with activeActions := active } ctx)).Perm
      (valuesOn f.name (contributions cfg engine ctx)) :=
    valuesOn_perm hperm f.name
  rcases valuesOn_head cfg engine ctx f.name with
    ⟨a, ha, v, hv, hall⟩ | ⟨hnone, hall⟩
  · rcases valuesOn_head cfg { engine with activeActions := active } ctx
      f.name with ⟨b, hb, w, hw, hall'⟩ | ⟨hnone', _⟩
    · rw [dimResult_zero m hall, dimResult_zero m hall',
        combine_perm w.1 (s.num f) (hvalues.map Prod.snd)]
      refine hagree f b (hperm.mem_iff.mp hb) a ha w.1 v.1 ?_ ?_
      · exact congrArg (Option.map Prod.fst) hw
      · exact congrArg (Option.map Prod.fst) hv
    · rw [hnone' a (hperm.mem_iff.mpr ha)] at hv
      cases hv
  · rcases valuesOn_head cfg { engine with activeActions := active } ctx
      f.name with ⟨b, hb, w, hw, _⟩ | ⟨_, hall'⟩
    · rw [hnone b (hperm.mem_iff.mp hb)] at hw
      cases hw
    · rw [hall, hall', interactionContributions_perm hperm]

theorem free_of_opsAgree (h : NumericEffects cfg (bound s engine ctx))
    (hagree : OpsAgree cfg engine s (bound s engine ctx)) :
    ActionOrderFree m cfg engine dtS s ctx := by
  intro active hperm
  by_cases hnil : engine.activeActions = []
  · obtain rfl : active = [] := List.perm_nil.mp (hnil ▸ hperm)
    unfold applyActions
    rw [if_pos rfl, if_pos hnil]
  · have hnil' : active ≠ [] := by
      rintro rfl
      exact hnil hperm.nil_eq.symm
    refine PhysicalState.ext_num ?_ ?_
    · intro f
      rw [applyActions_numeric m engine dtS s ctx h hnil f]
      refine (applyActions_numeric m { engine with activeActions := active }
        dtS s ctx h hnil' f).trans ?_
      exact dimResult_agree hagree hperm f
    · refine (applyActions_dtype m { engine with activeActions := active } dtS
        s ctx h).trans ?_
      exact (applyActions_dtype m engine dtS s ctx h).symm

/-- **The order of the active actions does not matter** exactly if the
operators of their effects agree. -/
theorem applyActions_orderFree_iff (m : FloatVal.Libm) (cfg : ScenarioConfig)
    (engine : EngineStateModel) (dtS : FloatVal) (s : PhysicalState)
    (ctx : ExprContext) (h : NumericEffects cfg (bound s engine ctx)) :
    ActionOrderFree m cfg engine dtS s ctx
      ↔ OpsAgree cfg engine s (bound s engine ctx) :=
  ⟨opsAgree_of_free h, free_of_opsAgree h⟩

/-- One action sets the engine's load, another doubles it. -/
def mixed : ScenarioConfig where
  __ := ScenarioConfig.still
  initialState :=
    { ScenarioConfig.still.initialState with engineCpuPct := .fin 10 }
  actions :=
    ⟨[("Pin", ⟨none, .single "engine_cpu_pct"
        (.set (.literal (.fin 50)) (.fin 0))⟩),
      ("Double", ⟨none, .single "engine_cpu_pct"
        (.scale (.literal (.fin 2)) (.fin 0))⟩)], by decide⟩

def mixedEngine : EngineStateModel :=
  { engineFromConfig mixed.initialState with
    activeActions := ["Pin", "Double"] }

theorem mixed_numeric (ctx : ExprContext) : NumericEffects mixed ctx := by
  refine ⟨?_, fun _ h => absurd h List.not_mem_nil⟩
  intro a ha e he
  rcases List.mem_cons.mp ha with rfl | ha
  · obtain rfl := List.mem_singleton.mp he
    rfl
  · obtain rfl := List.mem_singleton.mp ha
    obtain rfl := List.mem_singleton.mp he
    rfl

theorem mixed_orderFree_iff :
    ActionOrderFree .flat mixed mixedEngine (.fin (1 / 20))
        (.fromConfig mixed.initialState) .new
      ↔ OpsAgree mixed mixedEngine (.fromConfig mixed.initialState)
        (bound (.fromConfig mixed.initialState) mixedEngine .new) :=
  applyActions_orderFree_iff .flat mixed mixedEngine (.fin (1 / 20)) _ .new
    (mixed_numeric _)

/-- With `Pin` first the load is the greater of 50 and 2, with `Double` first
it is 10 times both. -/
theorem mixed_order_matters :
    mixed.Accepted ∧
      NumericEffects mixed
        (bound (.fromConfig mixed.initialState) mixedEngine .new) ∧
      ¬ ActionOrderFree .flat mixed mixedEngine (.fin (1 / 20))
        (.fromConfig mixed.initialState) .new := by
  refine ⟨⟨by decide, rfl⟩, mixed_numeric _, ?_⟩
  intro hfree
  have h := hfree ["Double", "Pin"] (.swap ..)
  have hnum := congrArg (fun s => s.num .engineCpuPct) h
  have hpin : (applyActions .flat mixed mixedEngine (.fin (1 / 20))
      (.fromConfig mixed.initialState) .new).1.num .engineCpuPct
        = .fin 50 := by
    rw [applyActions_numeric .flat mixedEngine _ _ _ (mixed_numeric _)
      (List.cons_ne_nil _ _), dimResult_zero .flat (v := (.max, .fin 50)) rfl]
    show FloatVal.maximum [.fin 50, .fin 2] = .fin 50
    simp [FloatVal.maximum]
    norm_num
  have hdouble : (applyActions .flat mixed { mixedEngine with
      activeActions := ["Double", "Pin"] } (.fin (1 / 20))
      (.fromConfig mixed.initialState) .new).1.num .engineCpuPct
        = .fin 1000 := by
    rw [applyActions_numeric .flat { mixedEngine with
      activeActions := ["Double", "Pin"] } _ _ _ (mixed_numeric _)
      (List.cons_ne_nil _ _),
      dimResult_zero .flat (v := (.multiply, .fin 2)) rfl]
    show FloatVal.fin 10 * FloatVal.product [.fin 2, .fin 50] = .fin 1000
    norm_num [FloatVal.product]
  have heq : FloatVal.fin 1000 = .fin 50 := hdouble.symm.trans (hnum.trans hpin)
  exact absurd (FloatVal.fin.inj heq) (by norm_num)

end Main

end ArgusManager.Sim
