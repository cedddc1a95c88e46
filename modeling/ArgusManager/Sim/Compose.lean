/-
  ArgusManager.Sim.Compose
  ────────────────────────
  Composition of the active actions' effects (`src/sim/compose.rs`).

  The two loops fill three maps; they are kept here as the list of what they
  put into them, in order.  Dimensions do not see each other, so the order in
  which the map of effects is iterated at the end is irrelevant
  (`applyEffects_perm`), and a field only depends on the effects collected for
  it (`applyActions_num`).
-/
import ArgusManager.Sim.Physics
import Mathlib.Data.List.Induction

namespace ArgusManager.Sim

/-! ## §1. What is collected. -/

/-- What an effect puts into the maps `dim_effects`, `dim_tau` and
`string_sets`. -/
inductive Contribution where
  /-- `collect_effect`. -/
  | collect (dim : String) (op : CompositionOp) (value : FloatVal)
  | insertTau (dim : String) (tauS : FloatVal)
  | orInsertTau (dim : String) (tauS : FloatVal)
  | setString (dim : String) (s : String)

/-- `eval_expr_or_value`. -/
def evalExprOrValue (ctx : ExprContext) : ExprOrValue → Option FloatVal
  | .literal x => some x
  | .expr e => (e.evalFloat ctx).toOption
  | .stringLiteral _ => none

/-- The operator configured for a dimension. -/
def Composition.op (comp : Composition) (dim : String) : CompositionOp :=
  (comp.perDimension.get dim).getD comp.default

/-- The operator of an `Add`. -/
def CompositionOp.forAdd : CompositionOp → CompositionOp
  | .add => .add
  | .addDelta => .addDelta
  | _ => .add

/-- The operator of a `Set` in an interaction. -/
def CompositionOp.forSet : CompositionOp → CompositionOp
  | .max => .max
  | .min => .min
  | _ => .max

/-- A lag, if it is positive. -/
def positiveTau (put : FloatVal → Contribution) (tauS : FloatVal) :
    List Contribution :=
  if FloatVal.lt (.fin 0) tauS then [put tauS] else []

section Effects

variable (comp : Composition) (ctx : ExprContext) (dim : String)

/-- A numeric `Set` of an action is a single value, whatever the dimension's
operator. -/
def setContributions (value : ExprOrValue) (tauS : FloatVal) :
    List Contribution :=
  match value with
  | .stringLiteral s => [.setString dim s]
  | .expr e =>
      match e.evalString ctx with
      | .ok s => [.setString dim s]
      | .error _ =>
          match e.evalFloat ctx with
          | .ok x => .collect dim .max x :: positiveTau (.insertTau dim) tauS
          | .error _ => []
  | .literal x => .collect dim .max x :: positiveTau (.insertTau dim) tauS

def scaleContributions (factor : ExprOrValue) (tauS : FloatVal) :
    List Contribution :=
  .collect dim .multiply ((evalExprOrValue ctx factor).getD (.fin 1))
    :: positiveTau (.orInsertTau dim) tauS

def addContributions (value : ExprOrValue) (tauS : FloatVal) :
    List Contribution :=
  .collect dim (comp.op dim).forAdd
      ((evalExprOrValue ctx value).getD (.fin 0))
    :: positiveTau (.orInsertTau dim) tauS

/-- An effect of an action. -/
def actionContributions : Effect → List Contribution
  | .set value tauS => setContributions ctx dim value tauS
  | .scale factor tauS => scaleContributions ctx dim factor tauS
  | .add value tauS => addContributions comp ctx dim value tauS
  | .setTau value => [.insertTau dim value]

/-- An effect of an interaction, whose `Set` takes a literal only. -/
def termContributions : Effect → List Contribution
  | .set (.literal x) tauS =>
      .collect dim (comp.op dim).forSet x
        :: positiveTau (.insertTau dim) tauS
  | .set _ _ => []
  | .scale factor tauS => scaleContributions ctx dim factor tauS
  | .add value tauS => addContributions comp ctx dim value tauS
  | .setTau value => [.insertTau dim value]

end Effects

/-- A guard that does not evaluate does not hold. -/
def ActionSpec.applies (ctx : ExprContext) (spec : ActionSpec) : Bool :=
  match spec.guard with
  | some guard => (guard.evalBoolean ctx).toOption.getD false
  | none => true

/-- What one active action puts into the maps. -/
def contributionsOf (cfg : ScenarioConfig) (ctx : ExprContext)
    (action : String) : List Contribution :=
  match cfg.actions.get action with
  | none => []
  | some spec =>
      if spec.applies ctx then
        spec.effects.entries.flatMap fun e =>
          actionContributions cfg.composition ctx e.1 e.2
      else []

/-- All participants of the interaction are active. -/
def InteractionTerm.allActive (engine : EngineStateModel)
    (term : InteractionTerm) : Bool :=
  term.actions.all fun action => engine.activeActions.contains action

/-- What the interactions put into the maps. -/
def interactionContributions (cfg : ScenarioConfig)
    (engine : EngineStateModel) (ctx : ExprContext) : List Contribution :=
  cfg.interactions.flatMap fun term =>
    if term.allActive engine then
      term.effects.entries.flatMap fun e =>
        termContributions cfg.composition ctx e.1 e.2
    else []

/-- Everything put into the maps, in order. -/
def contributions (cfg : ScenarioConfig) (engine : EngineStateModel)
    (ctx : ExprContext) : List Contribution :=
  engine.activeActions.flatMap (contributionsOf cfg ctx)
    ++ interactionContributions cfg engine ctx

/-! ## §2. The maps. -/

/-- One dimension with its operator and its values. -/
abbrev DimEffect := String × CompositionOp × List FloatVal

/-- `collect_effect`: the first operator of a dimension stays. -/
def collectEffect (dim : String) (op : CompositionOp) (value : FloatVal) :
    List DimEffect → List DimEffect
  | [] => [(dim, op, [value])]
  | e :: rest =>
      -- the operator of the new effect is lost here
      if e.1 = dim then (e.1, e.2.1, e.2.2 ++ [value]) :: rest
      else e :: collectEffect dim op value rest

structure Collected where
  effects : List DimEffect
  tau : String → Option FloatVal
  strings : String → Option String

namespace Collected

def empty : Collected := ⟨[], fun _ => none, fun _ => none⟩

def put (c : Collected) : Contribution → Collected
  | .collect dim op value =>
      { c with effects := collectEffect dim op value c.effects }
  | .insertTau dim tauS =>
      { c with tau := Function.update c.tau dim (some tauS) }
  | .orInsertTau dim tauS =>
      -- `entry(dim).or_insert`: the first lag of a dimension stays
      { c with tau := Function.update c.tau dim ((c.tau dim).or (some tauS)) }
  | .setString dim s =>
      { c with strings := Function.update c.strings dim (some s) }

end Collected

def collected (cs : List Contribution) : Collected :=
  cs.foldl Collected.put .empty

/-! ## §3. Applying them. -/

/-- The target of a dimension. -/
def combine (op : CompositionOp) (current : FloatVal)
    (values : List FloatVal) : FloatVal :=
  match op with
  | .multiply => current * FloatVal.product values
  | .add => current + FloatVal.sum values
  | .addDelta => current + FloatVal.sum values
  | .max => FloatVal.maximum values
  | .min => FloatVal.minimum values

variable (m : FloatVal.Libm)

/-- One pass of the loop over `dim_effects`. -/
def applyDim (tau : String → Option FloatVal) (dtS : FloatVal)
    (s : PhysicalState) (e : DimEffect) : PhysicalState :=
  if e.2.2 = [] then s
  else
    match s.getF64 e.1 with
    | some current =>
        s.setF64 e.1 (lagStep m current (combine e.2.1 current e.2.2)
          ((tau e.1).getD (.fin 0)) dtS)
    | none => s

def applyEffects (tau : String → Option FloatVal) (dtS : FloatVal)
    (effects : List DimEffect) (s : PhysicalState) : PhysicalState :=
  effects.foldl (applyDim m tau dtS) s

/-- Of the strings only `kv_dtype` reaches the state. -/
def applyStrings (strings : String → Option String) (s : PhysicalState) :
    PhysicalState :=
  match strings "kv_dtype" with
  | some dtype => { s with kvDtype := dtype }
  | none => s

/-- `apply_actions`; it does not fail. -/
def applyActions (cfg : ScenarioConfig) (engine : EngineStateModel)
    (dtS : FloatVal) (s : PhysicalState) (ctx : ExprContext) :
    PhysicalState × ExprContext :=
  if engine.activeActions = [] then (s, ctx)
  else
    let ctx := bound s engine ctx
    let c := collected (contributions cfg engine ctx)
    (applyStrings c.strings (applyEffects m c.tau dtS c.effects s), ctx)

/-! ## §4. One dimension at a time. -/

/-- What is collected for a dimension, in order. -/
def valuesOn (dim : String) (cs : List Contribution) :
    List (CompositionOp × FloatVal) :=
  cs.filterMap fun c =>
    match c with
    | .collect d op value => if d = dim then some (op, value) else none
    | _ => none

/-- The entry of a dimension: the operator of the first, and all values. -/
def entryOf : List (CompositionOp × FloatVal) →
    Option (CompositionOp × List FloatVal)
  | [] => none
  | (op, value) :: rest => some (op, value :: rest.map Prod.snd)

theorem collectEffect_keys (dim : String) (op : CompositionOp)
    (value : FloatVal) (es : List DimEffect) :
    (collectEffect dim op value es).map Prod.fst
      = if dim ∈ es.map Prod.fst then es.map Prod.fst
        else es.map Prod.fst ++ [dim] := by
  induction es with
  | nil => rfl
  | cons e es ih =>
      rw [collectEffect, List.map_cons]
      by_cases he : e.1 = dim
      · rw [if_pos he, if_pos (by simp [he])]
        rfl
      · rw [if_neg he, List.map_cons, ih]
        -- the dimension may come later in the list, or not at all
        by_cases hmem : dim ∈ es.map Prod.fst
        · rw [if_pos hmem, if_pos (List.mem_cons_of_mem _ hmem)]
        · rw [if_neg hmem, if_neg]
          · rfl
          · intro hcons
            rcases List.mem_cons.mp hcons with h | h
            · exact he h.symm
            · exact hmem h

theorem collectEffect_lookup (dim d : String) (op : CompositionOp)
    (value : FloatVal) (es : List DimEffect) :
    (collectEffect dim op value es).lookup d
      = if d = dim then
          some (((es.lookup dim).map Prod.fst).getD op,
            ((es.lookup dim).map Prod.snd).getD [] ++ [value])
        else es.lookup d := by
  induction es with
  | nil =>
      rw [collectEffect, List.lookup_cons]
      by_cases hd : d = dim
      · subst hd
        simp
      · rw [if_neg hd, beq_false_of_ne hd]
  | cons e es ih =>
      obtain ⟨k, o, vs⟩ := e
      rw [collectEffect]
      by_cases hk : k = dim
      · subst hk
        rw [if_pos rfl, List.lookup_cons]
        by_cases hd : d = k
        · subst hd
          simp
        · rw [if_neg hd, List.lookup_cons, beq_false_of_ne hd]
      · rw [if_neg hk, List.lookup_cons, ih]
        by_cases hd : d = dim
        · subst hd
          have hdk : (d == k) = false := beq_eq_false_iff_ne.mpr (Ne.symm hk)
          simp [hdk, List.lookup_cons]
        · simp only [if_neg hd, List.lookup_cons]

theorem collected_concat (cs : List Contribution) (c : Contribution) :
    collected (cs ++ [c]) = (collected cs).put c :=
  List.foldl_concat ..

theorem valuesOn_append (dim : String) (cs cs' : List Contribution) :
    valuesOn dim (cs ++ cs') = valuesOn dim cs ++ valuesOn dim cs' :=
  List.filterMap_append

/-- The keys of the map of effects differ. -/
theorem collected_nodup (cs : List Contribution) :
    ((collected cs).effects.map Prod.fst).Nodup := by
  induction cs using List.reverseRecOn with
  | nil => exact List.nodup_nil
  | append_singleton cs c ih =>
      rw [collected_concat]
      cases c with
      | collect dim op value =>
          show ((collectEffect dim op value _).map Prod.fst).Nodup
          rw [collectEffect_keys]
          split
          next => exact ih
          next hmem =>
            refine List.nodup_append.mpr ⟨ih, List.nodup_singleton dim, ?_⟩
            intro d hd d' hd' hdd
            rw [List.mem_singleton.mp hd'] at hdd
            exact hmem (hdd ▸ hd)
      | insertTau dim tauS => exact ih
      | orInsertTau dim tauS => exact ih
      | setString dim s => exact ih

/-- **The entry of a dimension is made of what was collected for it.** -/
theorem collected_lookup (cs : List Contribution) (dim : String) :
    (collected cs).effects.lookup dim = entryOf (valuesOn dim cs) := by
  induction cs using List.reverseRecOn with
  | nil => rfl
  | append_singleton cs c ih =>
      rw [collected_concat, valuesOn_append]
      cases c with
      | collect d op value =>
          show (collectEffect d op value _).lookup dim = _
          rw [collectEffect_lookup]
          by_cases hd : dim = d
          · subst hd
            have hone : valuesOn dim [.collect dim op value]
                = [(op, value)] := by
              unfold valuesOn
              simp
            rw [if_pos rfl, ih, hone]
            -- the first value brings the operator, any other only itself
            cases valuesOn dim cs with
            | nil => rfl
            | cons v vs =>
                show some (v.1, v.2 :: vs.map Prod.snd ++ [value])
                  = some (v.1, v.2 :: (vs ++ [(op, value)]).map Prod.snd)
                rw [List.map_append]
                rfl
          · have hnone : valuesOn dim [.collect d op value] = [] := by
              unfold valuesOn
              simp [Ne.symm hd]
            rw [if_neg hd, ih, hnone, List.append_nil]
      | insertTau d tauS => exact (List.append_nil _).symm ▸ ih
      | orInsertTau d tauS => exact (List.append_nil _).symm ▸ ih
      | setString d s => exact (List.append_nil _).symm ▸ ih

/-- What a dimension's entry makes of its value. -/
def dimResult (tauS dtS current : FloatVal) :
    Option (CompositionOp × List FloatVal) → FloatVal
  | none => current
  | some (op, values) =>
      if values = [] then current
      else lagStep m current (combine op current values) tauS dtS

/-- Values tend to what the first one's operator makes of them. -/
theorem dimResult_head {tauS dtS current : FloatVal}
    {vs : List (CompositionOp × FloatVal)} {v : CompositionOp × FloatVal}
    (h : vs.head? = some v) :
    dimResult m tauS dtS current (entryOf vs)
      = lagStep m current (combine v.1 current (vs.map Prod.snd)) tauS dtS := by
  cases vs with
  | nil => cases h
  | cons w ws =>
      obtain rfl : w = v := Option.some.inj h
      show (if w.2 :: ws.map Prod.snd = [] then current else
        lagStep m current (combine w.1 current (w.2 :: ws.map Prod.snd)) tauS
          dtS) = _
      rw [if_neg (List.cons_ne_nil _ _)]
      rfl

theorem applyEffects_num {tau : String → Option FloatVal} {dtS : FloatVal}
    {es : List DimEffect} (hnodup : (es.map Prod.fst).Nodup)
    (s : PhysicalState) (f : Field) :
    (applyEffects m tau dtS es s).num f
      = dimResult m ((tau f.name).getD (.fin 0)) dtS (s.num f)
          (es.lookup f.name) := by
  induction es generalizing s with
  | nil => rfl
  | cons e es ih =>
      obtain ⟨dim, op, values⟩ := e
      rw [List.map_cons, List.nodup_cons] at hnodup
      have hrest := ih hnodup.2 (applyDim m tau dtS s (dim, op, values))
      have hstep : applyEffects m tau dtS ((dim, op, values) :: es) s
          = applyEffects m tau dtS es
              (applyDim m tau dtS s (dim, op, values)) := rfl
      rw [hstep, hrest, List.lookup_cons]
      by_cases hdim : f.name = dim
      · subst hdim
        -- no later entry has the same key
        have hnone : es.lookup f.name = none := by
          rw [List.lookup_eq_none_iff]
          intro e he
          have hne : f.name ≠ e.1 := by
            intro heq
            refine hnodup.1 ?_
            show f.name ∈ es.map Prod.fst
            rw [heq]
            exact List.mem_map_of_mem he
          simpa using hne
        rw [hnone, beq_self_eq_true]
        unfold applyDim dimResult
        dsimp only
        split
        next => rfl
        next =>
          rw [PhysicalState.getF64_name]
          dsimp only
          rw [PhysicalState.setF64_name]
          exact PhysicalState.setField_self ..
      · rw [beq_false_of_ne hdim]
        have hframe : (applyDim m tau dtS s (dim, op, values)).num f
            = s.num f := by
          unfold applyDim
          dsimp only
          split
          next => rfl
          next =>
            split
            next => exact PhysicalState.setF64_of_ne s hdim _
            next => rfl
        rw [hframe]

theorem applyEffects_kvDtype (tau : String → Option FloatVal) (dtS : FloatVal)
    (es : List DimEffect) (s : PhysicalState) :
    (applyEffects m tau dtS es s).kvDtype = s.kvDtype := by
  induction es generalizing s with
  | nil => rfl
  | cons e es ih =>
      refine (ih (applyDim m tau dtS s e)).trans ?_
      unfold applyDim
      split
      next => rfl
      next =>
        split
        next => exact PhysicalState.setF64_kvDtype s _ _
        next => rfl

/-- **The order in which the map of effects is iterated is irrelevant.** -/
theorem applyEffects_perm {tau : String → Option FloatVal} {dtS : FloatVal}
    {es es' : List DimEffect} (hnodup : (es.map Prod.fst).Nodup)
    (h : es.Perm es') (s : PhysicalState) :
    applyEffects m tau dtS es s = applyEffects m tau dtS es' s := by
  refine PhysicalState.ext_num ?_
    ((applyEffects_kvDtype m ..).trans (applyEffects_kvDtype m ..).symm)
  intro f
  rw [applyEffects_num m hnodup, applyEffects_num m
    ((h.map Prod.fst).nodup_iff.mp hnodup)]
  congr 1
  exact @StrMap.get_perm _ ⟨es, hnodup⟩
    ⟨es', (h.map Prod.fst).nodup_iff.mp hnodup⟩ h f.name

theorem applyStrings_num (strings : String → Option String)
    (s : PhysicalState) : (applyStrings strings s).num = s.num := by
  unfold applyStrings
  split
  next => rfl
  next => rfl

/-- **A field after the actions** only depends on what was collected for
it. -/
theorem applyActions_num (cfg : ScenarioConfig) (engine : EngineStateModel)
    (dtS : FloatVal) (s : PhysicalState) (ctx : ExprContext)
    (hactive : engine.activeActions ≠ []) (f : Field) :
    (applyActions m cfg engine dtS s ctx).1.num f
      = dimResult m
          (((collected (contributions cfg engine (bound s engine ctx))).tau
            f.name).getD (.fin 0)) dtS (s.num f)
          (entryOf (valuesOn f.name
            (contributions cfg engine (bound s engine ctx)))) := by
  unfold applyActions
  rw [if_neg hactive]
  dsimp only
  rw [applyStrings_num, applyEffects_num m (collected_nodup _), collected_lookup]

/-! ## §5. The contributions to one dimension. -/

/-- The dimension a contribution is about. -/
def Contribution.dim : Contribution → String
  | .collect dim _ _ => dim
  | .insertTau dim _ => dim
  | .orInsertTau dim _ => dim
  | .setString dim _ => dim

def onDim (dim : String) (cs : List Contribution) : List Contribution :=
  cs.filter fun c => c.dim = dim

@[simp] theorem onDim_append (dim : String) (cs cs' : List Contribution) :
    onDim dim (cs ++ cs') = onDim dim cs ++ onDim dim cs' :=
  List.filter_append ..

theorem onDim_concat (dim : String) (cs : List Contribution)
    (c : Contribution) :
    onDim dim (cs ++ [c])
      = if c.dim = dim then onDim dim cs ++ [c] else onDim dim cs := by
  rw [onDim_append]
  by_cases hc : c.dim = dim
  · rw [if_pos hc]
    exact congrArg (onDim dim cs ++ ·) (List.filter_cons_of_pos (by simpa))
  · rw [if_neg hc]
    refine (congrArg (onDim dim cs ++ ·) ?_).trans (List.append_nil _)
    exact List.filter_cons_of_neg (by simpa)

theorem onDim_flatMap {α : Type} (dim : String) (xs : List α)
    (f : α → List Contribution) :
    onDim dim (xs.flatMap f) = xs.flatMap fun x => onDim dim (f x) := by
  induction xs with
  | nil => rfl
  | cons x xs ih =>
      rw [List.flatMap_cons, onDim_append, ih]
      rfl

theorem onDim_eq_self {dim : String} {cs : List Contribution}
    (h : ∀ c ∈ cs, c.dim = dim) : onDim dim cs = cs :=
  List.filter_eq_self.mpr fun c hc => decide_eq_true (h c hc)

theorem onDim_eq_nil {dim : String} {cs : List Contribution}
    (h : ∀ c ∈ cs, c.dim ≠ dim) : onDim dim cs = [] :=
  List.filter_eq_nil_iff.mpr fun c hc => by simpa using h c hc

/-- Values only come from contributions to their dimension. -/
theorem valuesOn_onDim (dim : String) (cs : List Contribution) :
    valuesOn dim cs = valuesOn dim (onDim dim cs) := by
  induction cs using List.reverseRecOn with
  | nil => rfl
  | append_singleton cs c ih =>
      rw [valuesOn_append, ih, onDim_concat]
      split
      next => rw [valuesOn_append]
      next hc =>
        have hnone : valuesOn dim [c] = [] := by
          cases c with
          | collect d op value =>
              unfold valuesOn
              simp [show d ≠ dim from hc]
          | insertTau d tauS => rfl
          | orInsertTau d tauS => rfl
          | setString d s => rfl
        rw [hnone, List.append_nil]

/-- So does a lag. -/
theorem collected_tau_onDim (dim : String) (cs : List Contribution) :
    (collected cs).tau dim = (collected (onDim dim cs)).tau dim := by
  induction cs using List.reverseRecOn with
  | nil => rfl
  | append_singleton cs c ih =>
      rw [collected_concat, onDim_concat]
      split
      next hc =>
        rw [collected_concat]
        cases c with
        | collect d op value => exact ih
        | insertTau d tauS =>
            obtain rfl : d = dim := hc
            show Function.update _ d _ d = Function.update _ d _ d
            rw [Function.update_self, Function.update_self]
        | orInsertTau d tauS =>
            obtain rfl : d = dim := hc
            show Function.update _ d _ d = Function.update _ d _ d
            rw [Function.update_self, Function.update_self, ih]
        | setString d s => exact ih
      next hc =>
        refine Eq.trans ?_ ih
        cases c with
        | collect d op value => rfl
        | insertTau d tauS => exact Function.update_of_ne (Ne.symm hc) ..
        | orInsertTau d tauS => exact Function.update_of_ne (Ne.symm hc) ..
        | setString d s => rfl

section Dims

variable (comp : Composition) (ctx : ExprContext) (dim : String)

theorem positiveTau_dim {put : FloatVal → Contribution} {tauS : FloatVal}
    (h : (put tauS).dim = dim) : ∀ c ∈ positiveTau put tauS, c.dim = dim := by
  intro c hc
  unfold positiveTau at hc
  split at hc
  next => rw [List.mem_singleton.mp hc, h]
  next => exact absurd hc List.not_mem_nil

theorem scaleContributions_dim (factor : ExprOrValue) (tauS : FloatVal) :
    ∀ c ∈ scaleContributions ctx dim factor tauS, c.dim = dim :=
  List.forall_mem_cons.mpr ⟨rfl, positiveTau_dim dim rfl⟩

theorem addContributions_dim (value : ExprOrValue) (tauS : FloatVal) :
    ∀ c ∈ addContributions comp ctx dim value tauS, c.dim = dim :=
  List.forall_mem_cons.mpr ⟨rfl, positiveTau_dim dim rfl⟩

theorem setContributions_dim (value : ExprOrValue) (tauS : FloatVal) :
    ∀ c ∈ setContributions ctx dim value tauS, c.dim = dim := by
  unfold setContributions
  cases value with
  | literal x => exact List.forall_mem_cons.mpr ⟨rfl, positiveTau_dim dim rfl⟩
  | stringLiteral s => exact List.forall_mem_singleton.mpr rfl
  | expr e =>
      dsimp only
      split
      next => exact List.forall_mem_singleton.mpr rfl
      next =>
        split
        next => exact List.forall_mem_cons.mpr ⟨rfl, positiveTau_dim dim rfl⟩
        next => exact fun c hc => absurd hc List.not_mem_nil

/-- An effect contributes to its own dimension. -/
theorem actionContributions_dim (e : Effect) :
    ∀ c ∈ actionContributions comp ctx dim e, c.dim = dim := by
  cases e with
  | set value tauS => exact setContributions_dim ctx dim value tauS
  | scale factor tauS => exact scaleContributions_dim ctx dim factor tauS
  | add value tauS => exact addContributions_dim comp ctx dim value tauS
  | setTau value => exact List.forall_mem_singleton.mpr rfl

theorem termContributions_dim (e : Effect) :
    ∀ c ∈ termContributions comp ctx dim e, c.dim = dim := by
  cases e with
  | set value tauS =>
      cases value with
      | literal x =>
          exact List.forall_mem_cons.mpr ⟨rfl, positiveTau_dim dim rfl⟩
      | stringLiteral s => exact fun c hc => absurd hc List.not_mem_nil
      | expr e => exact fun c hc => absurd hc List.not_mem_nil
  | scale factor tauS => exact scaleContributions_dim ctx dim factor tauS
  | add value tauS => exact addContributions_dim comp ctx dim value tauS
  | setTau value => exact List.forall_mem_singleton.mpr rfl

end Dims

/-- Of a map of effects only the entry of a dimension contributes to it. -/
theorem onDim_effects (effects : StrMap Effect) (dim : String)
    {f : String → Effect → List Contribution}
    (hf : ∀ d e, ∀ c ∈ f d e, c.dim = d) :
    onDim dim (effects.entries.flatMap fun e => f e.1 e.2)
      = ((effects.get dim).map (f dim)).getD [] := by
  obtain ⟨entries, hnodup⟩ := effects
  unfold StrMap.get
  dsimp only
  induction entries with
  | nil => rfl
  | cons x xs ih =>
      obtain ⟨d, e⟩ := x
      rw [List.map_cons, List.nodup_cons] at hnodup
      rw [List.flatMap_cons, onDim_append, List.lookup_cons]
      by_cases hd : dim = d
      · subst hd
        -- no later entry has the same key
        have hlater : onDim dim (xs.flatMap fun e => f e.1 e.2) = [] := by
          refine onDim_eq_nil fun c hc heq => ?_
          obtain ⟨y, hy, hc⟩ := List.mem_flatMap.mp hc
          refine hnodup.1 ?_
          show dim ∈ xs.map Prod.fst
          rw [← heq, hf y.1 y.2 c hc]
          exact List.mem_map_of_mem hy
        rw [hlater, List.append_nil, onDim_eq_self (hf dim e),
          beq_self_eq_true]
        rfl
      · have hhead : onDim dim (f d e) = [] :=
          onDim_eq_nil fun c hc heq => hd (heq.symm.trans (hf d e c hc))
        rw [hhead, List.nil_append, beq_false_of_ne hd]
        exact ih hnodup.2

end ArgusManager.Sim
