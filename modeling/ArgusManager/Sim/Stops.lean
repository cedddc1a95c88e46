/-
  ArgusManager.Sim.Stops
  ──────────────────────
  How a physics step can end early: a derived metric that is neither a float
  nor a string, or a panic.

  Neither the physical phases nor the actions fail on an expression, so it is
  all about the context in which the loop over the derived metrics gets to
  each of them (`AtTurns`).

    • `step_expr_iff`, `step_panic_iff` — when one step does neither,
    • `typed_evaluations` — for what scenarios no step of any run fails on an
                            expression,
    • `dryRun_unbound`  — what the dry run binds and no step does.
-/
import ArgusManager.Sim.Ticked

namespace ArgusManager.Sim

/-! ## §1. Stops of the loop. -/

/-- The stop is a failed expression. -/
def Stop.IsExpr (why : Stop) : Prop :=
  ∃ location source, why = .expr location source

theorem Stop.forall_expr (p : Stop → Prop) :
    (∀ why : Stop, why.IsExpr → p why)
      ↔ ∀ location source, p (.expr location source) := by
  constructor
  · intro h location source
    exact h _ ⟨location, source, rfl⟩
  · rintro h _ ⟨location, source, rfl⟩
    exact h location source

section Loop

variable (m : FloatVal.Libm)

/-- Every entry that the loop gets to has the property in the context in
which it is evaluated. -/
def AtTurns (P : String × DerivedExpr → ExprContext → Prop) :
    List (String × DerivedExpr) → PhysicalState → ExprContext → Prop
  | [], _, _ => True
  | d :: rest, s, c =>
      P d c
        ∧ (∀ x, verdict m d s c = .value x →
            AtTurns P rest (s.setF64 d.1 x) (c.withNum d.1 x))
        ∧ (verdict m d s c = .text → AtTurns P rest s c)

/-- The entry is a float or a string. -/
def Evaluates (d : String × DerivedExpr) (c : ExprContext) : Prop :=
  (∃ x, d.2.expr.evalFloat c = .ok x) ∨ ∃ str, d.2.expr.evalString c = .ok str

/-- The entry is no float, or its name is not that of a string. -/
def Settable (d : String × DerivedExpr) (c : ExprContext) : Prop :=
  (StrVar.ofName? d.1).isSome → ∀ x, d.2.expr.evalFloat c ≠ .ok x

variable {m} {s : PhysicalState} {c : ExprContext} {d : String × DerivedExpr}
  {entries : List (String × DerivedExpr)}

/-- An entry fails exactly if it is neither a float nor a string. -/
theorem evaluates_iff (d : String × DerivedExpr) (s : PhysicalState)
    (c : ExprContext) :
    Evaluates d c ↔ ∀ why : Stop, why.IsExpr → verdict m d s c ≠ .stop why := by
  rw [Stop.forall_expr fun why => verdict m d s c ≠ .stop why]
  unfold Evaluates verdict
  cases hfloat : d.2.expr.evalFloat c with
  | ok x =>
      dsimp only
      constructor
      · intro _ location source h
        split at h
        next => cases h
        next => cases h
      · intro _
        exact .inl ⟨x, rfl⟩
  | error err =>
      cases hstr : d.2.expr.evalString c with
      | ok str =>
          constructor
          · intro _ location source h
            cases h
          · intro _
            exact .inr ⟨str, rfl⟩
      | error err' =>
          constructor
          · rintro (⟨x, h⟩ | ⟨str, h⟩)
            · cases h
            · cases h
          · intro h
            exact absurd rfl (h _ err)

/-- An entry panics exactly if it is a float under a name that holds a
string. -/
theorem settable_iff (d : String × DerivedExpr) (s : PhysicalState)
    (c : ExprContext) :
    Settable d c ↔ ∀ why, why = .panic → verdict m d s c ≠ .stop why := by
  rw [forall_eq]
  unfold Settable verdict
  cases hfloat : d.2.expr.evalFloat c with
  | ok x =>
      cases hname : StrVar.ofName? d.1 with
      | some v =>
          constructor
          · intro h
            exact absurd rfl (h rfl x)
          · intro h
            exact absurd rfl h
      | none =>
          constructor
          · intro _ h
            cases h
          · intro _ h
            cases h
  | error err =>
      constructor
      · intro _ h
        dsimp only at h
        split at h
        next => cases h
        next => cases h
      · intro _ _ x h
        cases h

/-- **The loop stops for none of some reasons** exactly if no entry does at
its turn. -/
theorem evaluateLoop_stop_iff {P : String × DerivedExpr → ExprContext → Prop}
    {Q : Stop → Prop}
    (hPQ : ∀ d s c, P d c ↔ ∀ why, Q why → verdict m d s c ≠ .stop why) :
    (∀ why, Q why → (evaluateLoop m entries s c).2 ≠ .error why)
      ↔ AtTurns m P entries s c := by
  induction entries generalizing s c with
  | nil =>
      constructor
      · exact fun _ => trivial
      · intro _ why _ h
        cases h
  | cons d rest ih =>
      unfold AtTurns
      rw [hPQ d s c]
      cases hv : verdict m d s c with
      | value x =>
          rw [evaluateLoop_value hv, ih]
          constructor
          · intro h
            refine ⟨nofun, ?_, nofun⟩
            intro y hy
            exact Verdict.value.inj hy ▸ h
          · rintro ⟨_, h, _⟩
            exact h x rfl
      | text =>
          rw [evaluateLoop_text hv, ih]
          constructor
          · intro h
            exact ⟨nofun, nofun, fun _ => h⟩
          · rintro ⟨_, _, h⟩
            exact h rfl
      | stop why =>
          -- the loop ends here, for this entry's reason
          rw [evaluateLoop_stop hv]
          constructor
          · intro h
            refine ⟨?_, nofun, nofun⟩
            intro why' hwhy' heq
            exact h why' hwhy' (congrArg Except.error (Verdict.stop.inj heq))
          · rintro ⟨h, _⟩ why' hwhy' heq
            exact h why' hwhy' (congrArg Verdict.stop (Except.error.inj heq))

end Loop

/-! ## §2. Stops of a step. -/

section Step

variable (m : FloatVal.Libm)

/-- The state and the context in which a step starts on the derived metrics;
`none` if DVFS panics. -/
def derivedStart (cfg : ScenarioConfig) (engine : EngineStateModel)
    (nowS dtS : FloatVal) (s : PhysicalState) (ctx : ExprContext) :
    Option (PhysicalState × ExprContext) :=
  (physicalPhases m cfg engine nowS dtS s).map fun s =>
    let r := applyActions m cfg engine dtS s ctx
    (r.1, bound r.1 engine r.2)

/-- The derived metrics of a step have the property at their turns. -/
def DerivedAtTurns (P : String × DerivedExpr → ExprContext → Prop)
    (cfg : ScenarioConfig) (engine : EngineStateModel) (nowS dtS : FloatVal)
    (s : PhysicalState) (ctx : ExprContext) : Prop :=
  ∀ start, derivedStart m cfg engine nowS dtS s ctx = some start →
    AtTurns m P cfg.derived.entries start.1 start.2

variable {m} {cfg : ScenarioConfig} {engine : EngineStateModel}
  {nowS dtS : FloatVal} {s : PhysicalState} {ctx : ExprContext}

theorem physicalPhases_isSome (m : FloatVal.Libm) (engine : EngineStateModel)
    (nowS dtS : FloatVal) :
    (physicalPhases m cfg engine nowS dtS s).isSome ↔ DvfsOrdered cfg s := by
  rw [← dvfsUpdate_isSome m cfg dtS s]
  unfold physicalPhases
  cases dvfsUpdate m cfg dtS s with
  | none => exact Iff.rfl
  | some s' => exact ⟨fun _ => rfl, fun _ => rfl⟩

/-- **A step stops for none of some reasons** exactly if no derived metric
does at its turn, and DVFS does not. -/
theorem step_stop_iff {P : String × DerivedExpr → ExprContext → Prop}
    {Q : Stop → Prop}
    (hPQ : ∀ d s c, P d c ↔ ∀ why, Q why → verdict m d s c ≠ .stop why) :
    (∀ why, Q why → (step m cfg engine nowS dtS s ctx).2 ≠ .error why)
      ↔ (Q .panic → DvfsOrdered cfg s)
        ∧ DerivedAtTurns m P cfg engine nowS dtS s ctx := by
  rw [← physicalPhases_isSome m engine nowS dtS]
  unfold step DerivedAtTurns derivedStart
  -- DVFS panics before any expression is looked at
  cases physicalPhases m cfg engine nowS dtS s with
  | none =>
      constructor
      · intro h
        exact ⟨fun hpanic => absurd rfl (h .panic hpanic), nofun⟩
      · rintro ⟨h, _⟩ why hwhy heq
        obtain rfl : Stop.panic = why := Except.error.inj heq
        cases h hwhy
  | some s' =>
      dsimp only
      unfold evaluate
      rw [evaluateLoop_stop_iff hPQ]
      constructor
      · intro h
        refine ⟨fun _ => rfl, ?_⟩
        intro start hstart
        obtain rfl := Option.some.inj hstart
        exact h
      · rintro ⟨_, h⟩
        exact h _ rfl

/-- No step fails on an expression if its metrics are floats or strings. -/
theorem step_expr_iff :
    (∀ location source, (step m cfg engine nowS dtS s ctx).2
        ≠ .error (.expr location source))
      ↔ DerivedAtTurns m Evaluates cfg engine nowS dtS s ctx := by
  rw [← Stop.forall_expr fun why =>
    (step m cfg engine nowS dtS s ctx).2 ≠ .error why, step_stop_iff
    evaluates_iff]
  refine and_iff_right ?_
  rintro ⟨location, source, h⟩
  cases h

/-- Nor does one panic if DVFS has its bounds in order, and no float comes
under the name of a string. -/
theorem step_panic_iff :
    (step m cfg engine nowS dtS s ctx).2 ≠ .error .panic
      ↔ DvfsOrdered cfg s
        ∧ DerivedAtTurns m Settable cfg engine nowS dtS s ctx := by
  have h : (∀ why, why = Stop.panic →
      (step m cfg engine nowS dtS s ctx).2 ≠ .error why) ↔ _ :=
    step_stop_iff settable_iff
  rw [forall_eq] at h
  rw [h]
  exact and_congr_left' (forall_prop_of_true rfl)

end Step

/-! ## §3. What a step binds. -/

/-- The names of the floats that a state and an engine model bind. -/
def boundNames : List String :=
  Field.all.map Field.name
    ++ ["partition_ratio", "throttle_delay_ms", "tbt_target_ms", "skip_ratio",
      "target_ratio", "delay_ms", "ratio"]

/-- Every name that a step binds is bound. -/
structure Binds (c : ExprContext) : Prop where
  num : ∀ name ∈ boundNames, (c.num name).isSome
  str : ∀ v, (c.str v).isSome

theorem binds_bound (s : PhysicalState) (e : EngineStateModel)
    (ctx : ExprContext) : Binds (bound s e ctx) := by
  constructor
  · intro name hname
    rcases List.mem_append.mp hname with hfield | hengine
    · obtain ⟨f, _, rfl⟩ := List.mem_map.mp hfield
      rw [bound_field]
      rfl
    · simp only [List.mem_cons, List.not_mem_nil, or_false] at hengine
      rcases hengine with rfl | rfl | rfl | rfl | rfl | rfl | rfl <;> rfl
  · intro v
    cases v <;> rfl

theorem Binds.withNum {c : ExprContext} (h : Binds c) (name : String)
    (x : FloatVal) : Binds (c.withNum name x) := by
  refine ⟨?_, h.str⟩
  intro other hother
  show (Function.update c.num name (some x) other).isSome
  by_cases heq : other = name
  · rw [heq, Function.update_self]
    rfl
  · rw [Function.update_of_ne heq]
    exact h.num other hother

/-- **The dry run binds one name too many.** -/
theorem dryRun_unbound (name : String) :
    name ∈ dryRunNumericFields ++ dryRunDerivedFields ∧ name ∉ boundNames
      ↔ name = "bits" := by
  constructor
  · rintro ⟨hdry, hbound⟩
    have hall : ∀ n ∈ dryRunNumericFields ++ dryRunDerivedFields,
        n ∉ boundNames → n = "bits" := by decide
    exact hall name hdry hbound
  · rintro rfl
    decide

/-- What entries have as soon as everything a step binds is bound, they have at
their turns. -/
theorem atTurns_of_binds {P : String × DerivedExpr → ExprContext → Prop}
    (m : FloatVal.Libm) {entries : List (String × DerivedExpr)}
    (h : ∀ d ∈ entries, ∀ c, Binds c → P d c) (s : PhysicalState)
    {c : ExprContext} (hc : Binds c) : AtTurns m P entries s c := by
  induction entries generalizing s c with
  | nil => trivial
  | cons d rest ih =>
      obtain ⟨hd, hrest⟩ := List.forall_mem_cons.mp h
      refine ⟨hd c hc, ?_, ?_⟩
      · intro x _
        exact ih hrest _ (hc.withNum d.1 x)
      · intro _
        exact ih hrest s hc

theorem derivedAtTurns_of_binds
    {P : String × DerivedExpr → ExprContext → Prop} {cfg : ScenarioConfig}
    (h : ∀ d ∈ cfg.derived.entries, ∀ c, Binds c → P d c) (m : FloatVal.Libm)
    (engine : EngineStateModel) (nowS dtS : FloatVal) (s : PhysicalState)
    (ctx : ExprContext) : DerivedAtTurns m P cfg engine nowS dtS s ctx := by
  intro start hstart
  obtain ⟨s', _, rfl⟩ := Option.map_eq_some_iff.mp hstart
  exact atTurns_of_binds m h _ (binds_bound ..)

/-- What the dry run would have to check: every derived metric is a float or a
string as soon as everything a step binds is bound. -/
def ScenarioConfig.Typed (cfg : ScenarioConfig) : Prop :=
  ∀ d ∈ cfg.derived.entries, ∀ c, Binds c → Evaluates d c

/-! ## §4. The expressions of a run. -/

/-- The derived metrics have the property at their turns in the step of the
tick from `t`. -/
def Setup.DerivedAt {ρ σ : Type} (u : Setup ρ σ)
    (P : String × DerivedExpr → ExprContext → Prop) (t : u.Machine) : Prop :=
  DerivedAtTurns u.m P u.cfg (Simulator.afterEvents u.scenario t).engine
    (asSecsF64 t.clock.now) (.fin (asSecs u.tickDt)) t.state t.ctx

/-- **No run of a typed scenario fails on an expression**, whatever the calls,
the policy and the simulator that it starts from. -/
theorem typed_evaluations {ρ σ : Type} (u : Setup ρ σ) (h : u.cfg.Typed)
    (sim : u.Machine)
    (calls : List (Simulator.SimCall PhysicalState PhysicalStateSnapshot σ ρ
      ExprContext)) :
    ∀ t ∈ Simulator.tickedIn u.scenario sim calls, ∀ location source,
      (u.stepAt t).2 ≠ .error (.expr location source) := by
  intro t _
  exact step_expr_iff.mpr (derivedAtTurns_of_binds h u.m _ _ _ _ _)

/-- A metric that reads a name every step binds. -/
def heatRead : ScenarioConfig where
  __ := ScenarioConfig.still
  derived := ⟨[("throughput_tps", ⟨.ident "thermal_c", .fin 0⟩)], by decide⟩

/-- A name of a field evaluates wherever everything is bound. -/
theorem ident_evaluates (name : String) (tauS : FloatVal) {source : String}
    (hbound : source ∈ boundNames) (hnum : StrVar.ofName? source = none)
    {c : ExprContext} (h : Binds c) :
    Evaluates (name, ⟨.ident source, tauS⟩) c := by
  obtain ⟨x, hx⟩ := Option.isSome_iff_exists.mp (h.num source hbound)
  have hget : c.get source = some (.float x) := by
    unfold ExprContext.get
    rw [hnum, hx]
    rfl
  left
  refine ⟨x, ?_⟩
  simp only [CompiledExpr.evalFloat, CompiledExpr.ident, hget]

/-- It is accepted, and a second of it does not fail so. -/
theorem typed_evaluations_heatRead :
    let u : Setup Unit Unit := .idle heatRead rfl rfl (fromSecs 1) second_pos
    heatRead.Accepted
      ∧ ∀ t ∈ Simulator.tickedIn u.scenario (u.start () ())
          [.runFor (fromSecs 1)],
        ∀ location source, (u.stepAt t).2 ≠ .error (.expr location source) := by
  intro u
  refine ⟨⟨by decide, rfl⟩, typed_evaluations u ?_ _ _⟩
  intro d hd c hc
  rw [List.mem_singleton.mp hd]
  exact ident_evaluates _ _ (by decide) (by decide) hc

/-- A metric that reads the one name only the dry run binds. -/
def quantized : ScenarioConfig where
  __ := ScenarioConfig.still
  derived := ⟨[("throughput_tps", ⟨.ident "bits", .fin 0⟩)], by decide⟩

/-- A second of it, in one tick. -/
def quantizedSetup : Setup Unit Unit :=
  .idle quantized rfl rfl (fromSecs 1) second_pos

/-- Actions do not bind it either. -/
theorem bound_bits {m : FloatVal.Libm} (cfg : ScenarioConfig)
    (engine : EngineStateModel) (dtS : FloatVal) (s : PhysicalState)
    (ctx : ExprContext) :
    (bound (applyActions m cfg engine dtS s ctx).1 engine
      (applyActions m cfg engine dtS s ctx).2).num "bits"
      = ctx.num "bits" := by
  have hactions :
      (applyActions m cfg engine dtS s ctx).2.num "bits" = ctx.num "bits" := by
    unfold applyActions
    split
    next => rfl
    next => rfl
  exact hactions

theorem ident_not_evaluates {name source : String} {tauS : FloatVal}
    {c : ExprContext} (h : c.get source = none) :
    ¬ Evaluates (name, ⟨.ident source, tauS⟩) c := by
  have heval : (CompiledExpr.ident source).eval c
      = .error (.variableIdentifierNotFound source) := by
    simp only [CompiledExpr.ident, h]
  rintro (⟨x, hx⟩ | ⟨str, hstr⟩)
  · simp only [CompiledExpr.evalFloat, heval] at hx
    cases hx
  · simp only [CompiledExpr.evalString, heval] at hstr
    cases hstr

/-- The scenario is accepted, and its first step fails. -/
theorem bits_never_bound :
    quantized.Accepted
      ∧ ¬ ∀ t ∈ Simulator.tickedIn quantizedSetup.scenario
          (quantizedSetup.start () ()) [.runFor (fromSecs 1)],
        ∀ location source,
          (quantizedSetup.stepAt t).2 ≠ .error (.expr location source) := by
  refine ⟨⟨by decide, rfl⟩, ?_⟩
  intro h
  let start := quantizedSetup.start () ()
  have hticked := Simulator.first_ticked quantizedSetup.scenario start
    (d := fromSecs 1) (by decide)
  have hturns := step_expr_iff.mp (h _ hticked)
  -- 40 degrees are below the soft threshold
  have hordered : DvfsOrdered quantized start.state := by
    refine ⟨.inl ?_, .inl ?_⟩
    · show FloatVal.lt (.fin 40) (.fin 70) = true
      norm_num
    · show FloatVal.lt (.fin 40) (.fin 70) = true
      norm_num
  obtain ⟨s', hs'⟩ := Option.isSome_iff_exists.mp
    ((physicalPhases_isSome ..).mpr hordered)
  refine ident_not_evaluates ?_ (hturns _ (congrArg (Option.map _) hs')).1
  -- the loop starts in a context without `bits`
  have hbits := bound_bits (m := .flat) quantized
    (Simulator.afterEvents quantizedSetup.scenario (Simulator.preload
      quantizedSetup.scenario (start.clock.now + fromSecs 1) start)).engine
    (.fin (asSecs (fromSecs 1))) s' .new
  exact congrArg (Option.map Value.float) hbits

end ArgusManager.Sim
