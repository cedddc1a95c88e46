/-
  ArgusManager.Sim.Derived
  ────────────────────────
  Derived metrics (`src/sim/derived.rs`): each entry is evaluated in the
  context as the entries before it left it, and written back into the state
  and the context.

  `verdict` is what one entry comes to; the loop acts on verdicts and on
  nothing else (`evaluateLoop_value` and its siblings).
-/
import ArgusManager.Sim.Physics

namespace ArgusManager.Sim

/-! ## §1. The loop. -/

/-- Why a step ends early. -/
inductive Stop where
  /-- `SimError::Expr`. -/
  | expr (location : String) (source : EvalexprError)
  | panic

/-- A state and a context, and how what was computed ended. -/
abbrev Stepped := (PhysicalState × ExprContext) × Except Stop Unit

variable (m : FloatVal.Libm)

/-- The lag of a derived metric, over 50 ms whatever the tick. -/
def derivedLag (d : String × DerivedExpr) (s : PhysicalState)
    (x : FloatVal) : FloatVal :=
  lagStep m ((s.getF64 d.1).getD (.fin 0)) x d.2.tauS (.fin (1 / 20))

/-- The loop of `evaluate`. -/
def evaluateLoop :
    List (String × DerivedExpr) → PhysicalState → ExprContext → Stepped
  | [], s, ctx => ((s, ctx), .ok ())
  | d :: rest, s, ctx =>
      match d.2.expr.evalFloat ctx with
      | .ok x =>
          let applied := derivedLag m d s x
          let s := s.setF64 d.1 applied
          match ctx.setF64 d.1 applied with
          | some ctx => evaluateLoop rest s ctx
          | none => ((s, ctx), .error .panic)
      | .error err =>
          match d.2.expr.evalString ctx with
          | .ok _ => evaluateLoop rest s ctx  -- a string is dropped
          | .error _ => ((s, ctx), .error (.expr s!"derived.{d.1}" err))

/-- `evaluate`. -/
def evaluate (cfg : ScenarioConfig) (engine : EngineStateModel)
    (s : PhysicalState) (ctx : ExprContext) : Stepped :=
  evaluateLoop m cfg.derived.entries s (bound s engine ctx)

/-! ## §2. Verdicts. -/

/-- What one entry comes to. -/
inductive Verdict where
  /-- A float, after its lag. -/
  | value (x : FloatVal)
  /-- A string, which changes nothing. -/
  | text
  /-- Neither, or a float under a name that holds a string. -/
  | stop (why : Stop)

def verdict (d : String × DerivedExpr) (s : PhysicalState)
    (ctx : ExprContext) : Verdict :=
  match d.2.expr.evalFloat ctx with
  | .ok x =>
      match StrVar.ofName? d.1 with
      | some _ => .stop .panic
      | none => .value (derivedLag m d s x)
  | .error err =>
      match d.2.expr.evalString ctx with
      | .ok _ => .text
      | .error _ => .stop (.expr s!"derived.{d.1}" err)

/-- A float under a name that holds none of the strings. -/
def ExprContext.withNum (name : String) (x : FloatVal) (ctx : ExprContext) :
    ExprContext :=
  { ctx with num := Function.update ctx.num name (some x) }

variable {m} {d : String × DerivedExpr} {rest : List (String × DerivedExpr)}
  {s : PhysicalState} {ctx : ExprContext}

theorem evaluateLoop_value {x : FloatVal} (h : verdict m d s ctx = .value x) :
    evaluateLoop m (d :: rest) s ctx
      = evaluateLoop m rest (s.setF64 d.1 x) (ctx.withNum d.1 x) := by
  unfold verdict at h
  rw [evaluateLoop]
  split at h
  next y heq =>
    split at h
    next => cases h
    next hname =>
      obtain rfl := Verdict.value.inj h
      dsimp only
      unfold ExprContext.setF64
      rw [hname]
      rfl
  next =>
    split at h
    next => cases h
    next => cases h

theorem evaluateLoop_text (h : verdict m d s ctx = .text) :
    evaluateLoop m (d :: rest) s ctx = evaluateLoop m rest s ctx := by
  unfold verdict at h
  rw [evaluateLoop]
  split at h
  next =>
    split at h
    next => cases h
    next => cases h
  next err herr =>
    split at h
    next str hstr => rfl
    next => cases h

/-- A name that holds a string is none of the state's fields. -/
theorem setF64_strVar {name : String} {v : StrVar}
    (h : StrVar.ofName? name = some v) (s : PhysicalState) (x : FloatVal) :
    s.setF64 name x = s := by
  unfold PhysicalState.setF64
  split
  next f hf =>
    rw [← Field.ofName?_eq_some.mp hf, Field.not_strVar] at h
    cases h
  next => rfl

theorem evaluateLoop_stop {why : Stop} (h : verdict m d s ctx = .stop why) :
    evaluateLoop m (d :: rest) s ctx = ((s, ctx), .error why) := by
  unfold verdict at h
  rw [evaluateLoop]
  split at h
  next y heq =>
    split at h
    next v hname =>
      obtain rfl := Verdict.stop.inj h
      dsimp only
      rw [setF64_strVar hname]
      unfold ExprContext.setF64
      rw [hname]
    next => cases h
  next err herr =>
    split at h
    next => cases h
    next err' herr' =>
      obtain rfl := Verdict.stop.inj h
      rfl

/-! ## §3. Any order. -/

/-- Only the field that an entry names enters its verdict. -/
theorem verdict_congr {s s' : PhysicalState}
    (h : s.getF64 d.1 = s'.getF64 d.1) :
    verdict m d s ctx = verdict m d s' ctx := by
  unfold verdict derivedLag
  rw [h]

/-- The contexts in which a loop over `entries` may evaluate one of them:
those before it are `used`, in whatever order, and each left `out` of its
value under its name. -/
inductive Seen (m : FloatVal.Libm) (s : PhysicalState)
    (entries : List (String × DerivedExpr))
    (out : String × DerivedExpr → FloatVal → FloatVal) (start : ExprContext) :
    List (String × DerivedExpr) → ExprContext → Prop
  | start : Seen m s entries out start [] start
  | value {used : List (String × DerivedExpr)} {c : ExprContext}
      {d : String × DerivedExpr} {x : FloatVal}
      (seen : Seen m s entries out start used c)
      (mem : d ∈ entries) (unused : d ∉ used)
      (comes : verdict m d s c = .value x) :
      Seen m s entries out start (d :: used) (c.withNum d.1 (out d x))
  | text {used : List (String × DerivedExpr)} {c : ExprContext}
      {d : String × DerivedExpr}
      (seen : Seen m s entries out start used c)
      (mem : d ∈ entries) (unused : d ∉ used)
      (comes : verdict m d s c = .text) :
      Seen m s entries out start (d :: used) c

/-- A loop leaves a field alone that none of its entries names. -/
theorem evaluateLoop_frame {f : Field}
    (h : ∀ d ∈ rest, d.1 ≠ f.name) (s : PhysicalState) (ctx : ExprContext) :
    (evaluateLoop m rest s ctx).1.1.num f = s.num f := by
  induction rest generalizing s ctx with
  | nil => rfl
  | cons d rest ih =>
      have hd : f.name ≠ d.1 := (h d List.mem_cons_self).symm
      have hrest : ∀ e ∈ rest, e.1 ≠ f.name := fun e he =>
        h e (List.mem_cons_of_mem d he)
      cases hv : verdict m d s ctx with
      | value x =>
          rw [evaluateLoop_value hv, ih hrest]
          exact PhysicalState.setF64_of_ne s hd x
      | text => rw [evaluateLoop_text hv, ih hrest]
      | stop why => rw [evaluateLoop_stop hv]

/-- Nor does it touch in the context what none of its entries names. -/
theorem evaluateLoop_ctx_frame {name : String} (h : ∀ d ∈ rest, d.1 ≠ name)
    (s : PhysicalState) (ctx : ExprContext) :
    (evaluateLoop m rest s ctx).1.2.num name = ctx.num name := by
  induction rest generalizing s ctx with
  | nil => rfl
  | cons d rest ih =>
      obtain ⟨hd, hrest⟩ := List.forall_mem_cons.mp h
      cases hv : verdict m d s ctx with
      | value x =>
          rw [evaluateLoop_value hv, ih hrest]
          exact Function.update_of_ne hd.symm ..
      | text => rw [evaluateLoop_text hv, ih hrest]
      | stop why => rw [evaluateLoop_stop hv]

/-- A loop that ends well goes on with what comes after its entries. -/
theorem evaluateLoop_append {before : List (String × DerivedExpr)}
    {s' : PhysicalState} {ctx' : ExprContext}
    (h : evaluateLoop m before s ctx = ((s', ctx'), .ok ())) :
    evaluateLoop m (before ++ rest) s ctx = evaluateLoop m rest s' ctx' := by
  induction before generalizing s ctx with
  | nil =>
      injection h with hstart _
      injection hstart with hs hctx
      rw [hs, hctx]
      rfl
  | cons d before ih =>
      rw [List.cons_append]
      cases hv : verdict m d s ctx with
      | value x =>
          rw [evaluateLoop_value hv] at h ⊢
          exact ih h
      | text =>
          rw [evaluateLoop_text hv] at h ⊢
          exact ih h
      | stop why =>
          rw [evaluateLoop_stop hv] at h
          injection h with _ hresult
          cases hresult

/-- A loop never touches the dtype. -/
theorem evaluateLoop_kvDtype (rest : List (String × DerivedExpr))
    (s : PhysicalState) (ctx : ExprContext) :
    (evaluateLoop m rest s ctx).1.1.kvDtype = s.kvDtype := by
  induction rest generalizing s ctx with
  | nil => rfl
  | cons d rest ih =>
      cases hv : verdict m d s ctx with
      | value x =>
          rw [evaluateLoop_value hv, ih]
          exact PhysicalState.setF64_kvDtype s d.1 x
      | text => rw [evaluateLoop_text hv, ih]
      | stop why => rw [evaluateLoop_stop hv]

end ArgusManager.Sim
