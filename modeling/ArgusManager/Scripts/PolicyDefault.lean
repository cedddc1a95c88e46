/-
  ArgusManager.Scripts.PolicyDefault
  ──────────────────────────────────
  The reference policy script (`scripts/policy_default.lua`): per-axis
  enter/exit windows, one quantized KV budget, and a ratchet that only
  tightens until every window has closed.

  Numbers are exact rationals.  The script's two locals are `State`; one call
  of `decide(ctx)` is `decide`, and `machine` runs calls one after another.
-/
import ArgusManager.Lib.Mealy
import ArgusManager.Lua.Context
import ArgusManager.Lua.Value
import Mathlib.Algebra.Order.Field.Rat
import Mathlib.Algebra.Order.Floor.Ring
import Mathlib.Data.Rat.Floor

namespace ArgusManager.PolicyDefault

/-! ## §1. Constants. -/

inductive Axis where
  | memory
  | gpu
  | thermal
  | latency
  deriving DecidableEq, Repr

/-- The axes the script can act on, in the order it scans them. -/
def AXES : List Axis := [.memory, .gpu, .thermal, .latency]

def ENTER : Axis → ℚ
  | .memory => 0.80
  | .gpu => 0.85
  | .thermal => 0.75
  | .latency => 0.30

def EXIT : Axis → ℚ
  | .memory => 0.80
  | .gpu => 0.60
  | .thermal => 0.55
  | .latency => 0.10

def B_MAX : ℚ := 0.90
def B_MIN : ℚ := 0.25
def B_STEP : ℚ := 0.05

/-! ## §2. The script's state and what it returns. -/

/-- The locals that persist across calls: the axes being relieved, and the
budget already in force (`nil` outside a relief window). -/
structure State where
  relieving : Axis → Bool
  applied : Option ℚ

/-- The locals of a freshly loaded script. -/
def State.fresh : State where
  relieving := fun _ => false
  applied := none

/-- The two action tables the script returns. -/
inductive Action where
  | kvCompress (budget : ℚ)
  | restoreDefaults
  deriving DecidableEq, Repr

/-- The Lua value of a returned action, or of a bare `return nil`. -/
def Action.toValue : Option Action → LuaValue
  | none => .nil
  | some (.kvCompress budget) =>
      .record [("type", .string "kv.compress"),
        ("budget", .number (.fin budget))]
  | some .restoreDefaults => .record [("type", .string "restore_defaults")]

/-! ## §3. The helpers. -/

def normalize (p : Pressure6D) : Axis → ℚ
  | .memory => p.memory
  | .gpu => p.gpu
  | .thermal => p.thermal
  | .latency => p.latency

/-- How far an axis is past its own enter threshold. -/
def excess (p : Axis → ℚ) (a : Axis) : ℚ := p a - ENTER a

/-- The axis furthest past its enter threshold, the first of `AXES` on a tie.
The scan starts at the first axis: any number beats `-math.huge`. -/
def mostStressed (p : Axis → ℚ) : Axis :=
  AXES.tail.foldl
    (fun worst a => if excess p a > excess p worst then a else worst) .memory

/-- The budget at a given pressure on a given axis. -/
def B_kv (pressure : ℚ) (axis : Axis) : ℚ :=
  let span := 1 - ENTER axis
  -- `over` in the script
  let past :=
    if span > 0 then min (max ((pressure - ENTER axis) / span) 0) 1 else 0
  let budget := B_MAX - past * (B_MAX - B_MIN)
  let budget := (⌊budget / B_STEP + 0.5⌋ : ℚ) * B_STEP
  min (max budget B_MIN) B_MAX

/-- Close every window whose axis has fallen below its exit threshold, and
tell whether one is left. -/
def sweep (p : Axis → ℚ) (relieving : Axis → Bool) : (Axis → Bool) × Bool :=
  AXES.foldl
    (fun (acc : (Axis → Bool) × Bool) axis =>
      if acc.1 axis then
        -- all of them, not only the most stressed one
        if p axis < EXIT axis then (Function.update acc.1 axis false, acc.2)
        else (acc.1, true)
      else acc)
    (relieving, false)

/-! ## §4. `decide(ctx)`. -/

/-- One call: the new locals and the returned action. -/
def decide (s : State) (ctx : Ctx) : State × Option Action :=
  if ctx.engine.seen = false then (s, none)
  else
    let p := normalize ctx.pressure
    let (relieving, stillRelieving) := sweep p s.relieving
    if s.applied.isSome && !stillRelieving then
      -- every window has closed: give the cache back
      ({ relieving, applied := none }, some .restoreDefaults)
    else
      let a := mostStressed p
      if relieving a = false ∧ p a < ENTER a then
        -- headroom on the worst axis
        ({ relieving, applied := s.applied }, none)
      else
        let relieving := Function.update relieving a true
        let budget := B_kv (p a) a
        match s.applied with
        | some applied =>
            if budget ≥ applied then
              -- already at least this tight
              ({ relieving, applied := some applied }, none)
            else
              ({ relieving, applied := some budget },
                some (.kvCompress budget))
        | none =>
            ({ relieving, applied := some budget }, some (.kvCompress budget))

/-- A call made with the engine seen, at the given pressures and otherwise
idle. -/
def seenAt (memory gpu thermal latency : ℚ) : Ctx :=
  buildCtx { gpu, cpu := 0, memory, thermal, latency, mainApp := 0 }
    { tbtDegraded := false, memLow := false, tempHigh := false }
    SignalState.default
    (some
      { kvCacheBytes := 1024
        kvCacheBudgetBytes := 4096
        kvCacheTokens := 32
        tbtMs := .fin 12.5
        phase := .decode
        state := .running })

/-- Calls of `decide`, one after another on the same VM. -/
def machine : Mealy State Ctx (Option Action) := ⟨decide⟩

/-! ## §5. What the helpers compute. -/

/-- The windows left open by `sweep`: flagged axes not below their exit. -/
def swept (p : Axis → ℚ) (relieving : Axis → Bool) : Axis → Bool :=
  fun a => relieving a && Decidable.decide (EXIT a ≤ p a)

theorem swept_eq_true {p : Axis → ℚ} {relieving : Axis → Bool} {a : Axis} :
    swept p relieving a = true ↔ relieving a = true ∧ EXIT a ≤ p a := by
  simp [swept]

theorem swept_eq_false {p : Axis → ℚ} {relieving : Axis → Bool} {a : Axis} :
    swept p relieving a = false ↔ (relieving a = true → p a < EXIT a) := by
  simp only [swept, Bool.and_eq_false_iff, decide_eq_false_iff_not, not_le]
  cases relieving a <;> simp

theorem mem_AXES (a : Axis) : a ∈ AXES := by
  cases a <;> simp [AXES]

/-- A window closed outside `as` makes no difference to `as`. -/
theorem any_swept_update (p : Axis → ℚ) (relieving : Axis → Bool) {x : Axis}
    {as : List Axis} (hx : x ∉ as) :
    as.any (swept p (Function.update relieving x false))
      = as.any (swept p relieving) := by
  rw [Bool.eq_iff_iff, List.any_eq_true, List.any_eq_true]
  refine exists_congr fun a => and_congr_right fun ha => ?_
  have hax : a ≠ x := fun h => hx (h ▸ ha)
  simp [swept, Function.update_of_ne hax]

theorem sweep_foldl (p : Axis → ℚ) :
    ∀ (as : List Axis) (relieving : Axis → Bool) (still : Bool), as.Nodup →
      as.foldl
        (fun (acc : (Axis → Bool) × Bool) axis =>
          if acc.1 axis then
            if p axis < EXIT axis then
              (Function.update acc.1 axis false, acc.2)
            else (acc.1, true)
          else acc) (relieving, still)
        = (fun a => if a ∈ as then swept p relieving a else relieving a,
            still || as.any (swept p relieving)) := by
  intro as
  induction as with
  | nil => intro relieving still _; simp
  | cons x as ih =>
      intro relieving still hnd
      obtain ⟨hx, hnd'⟩ := List.nodup_cons.mp hnd
      rw [List.foldl_cons]
      by_cases hr : relieving x = true
      · by_cases hp : p x < EXIT x
        · have hsx : swept p relieving x = false :=
            swept_eq_false.mpr fun _ => hp
          -- the rest of the scan does not look at `x` again
          rw [if_pos hr, if_pos hp, ih _ _ hnd', any_swept_update p _ hx]
          refine Prod.ext (funext fun a => ?_) (by simp [hsx])
          by_cases hax : a = x
          · subst hax
            simp [hx, hsx]
          · simp [hax, swept]
        · have hsx : swept p relieving x = true :=
            swept_eq_true.mpr ⟨hr, not_lt.mp hp⟩
          rw [if_pos hr, if_neg hp, ih _ _ hnd']
          refine Prod.ext (funext fun a => ?_) (by simp [hsx])
          by_cases hax : a = x
          · subst hax
            simp [hx, hsx, hr]
          · simp [hax]
      · have hsx : swept p relieving x = false :=
          swept_eq_false.mpr fun h => absurd h hr
        rw [if_neg hr, ih _ _ hnd']
        refine Prod.ext (funext fun a => ?_) (by simp [hsx])
        by_cases hax : a = x
        · subst hax
          simpa [hx, hsx] using hr
        · simp [hax]

/-- The sweep leaves exactly the windows `swept` names, and reports whether
there is one. -/
theorem sweep_eq (p : Axis → ℚ) (relieving : Axis → Bool) :
    sweep p relieving = (swept p relieving, AXES.any (swept p relieving)) := by
  unfold sweep
  rw [sweep_foldl p AXES relieving false (by decide)]
  refine Prod.ext (funext fun a => ?_) (by simp)
  simp [mem_AXES a]

/-- Scanning for a larger value ends on a largest one. -/
theorem le_foldl_larger {α : Type*} (f : α → ℚ) :
    ∀ (as : List α) (w : α),
      let best := as.foldl (fun w a => if f a > f w then a else w) w
      f w ≤ f best ∧ ∀ a ∈ as, f a ≤ f best
  | [], w => ⟨le_refl _, by simp⟩
  | x :: as, w => by
      obtain ⟨hw, hmem⟩ := le_foldl_larger f as (if f x > f w then x else w)
      have hwx : f w ≤ f (if f x > f w then x else w)
          ∧ f x ≤ f (if f x > f w then x else w) := by
        by_cases h : f x > f w
        · rw [if_pos h]
          exact ⟨le_of_lt h, le_refl _⟩
        · rw [if_neg h]
          exact ⟨le_refl _, not_lt.mp h⟩
      refine ⟨hwx.1.trans hw, ?_⟩
      intro a ha
      rcases List.mem_cons.mp ha with h | h
      · subst h
        exact hwx.2.trans hw
      · exact hmem a h

/-- No axis is further past its enter threshold than the most stressed. -/
theorem excess_le_mostStressed (p : Axis → ℚ) (a : Axis) :
    excess p a ≤ excess p (mostStressed p) := by
  obtain ⟨hmem, hrest⟩ := le_foldl_larger (excess p) AXES.tail .memory
  cases a with
  | memory => exact hmem
  | gpu => exact hrest .gpu (by simp [AXES])
  | thermal => exact hrest .thermal (by simp [AXES])
  | latency => exact hrest .latency (by simp [AXES])

/-! ## §6. What one call can do. -/

/-- The axis a call acts on. -/
def worst (ctx : Ctx) : Axis := mostStressed (normalize ctx.pressure)

/-- The budget that axis asks for. -/
def wanted (ctx : Ctx) : ℚ :=
  B_kv (normalize ctx.pressure (worst ctx)) (worst ctx)

/-- The flags a call starts from once it has closed what it can. -/
def State.open (s : State) (ctx : Ctx) : Axis → Bool :=
  swept (normalize ctx.pressure) s.relieving

/-- **Everything a call of `decide` can do**, with the reason in each case.
Every invariant below is a case analysis on this relation. -/
inductive Decides (s : State) (ctx : Ctx) : State → Option Action → Prop where
  /-- No heartbeat yet. -/
  | unseen (hseen : ctx.engine.seen = false) : Decides s ctx s none
  /-- The last window closed. -/
  | released (hseen : ctx.engine.seen = true) (happ : s.applied ≠ none)
      (hclosed : ∀ a, s.open ctx a = false) :
      Decides s ctx State.fresh (some .restoreDefaults)
  /-- Headroom on the most stressed axis. -/
  | headroom (hseen : ctx.engine.seen = true)
      (hopen : s.applied ≠ none → ∃ a, s.open ctx a = true)
      (hlow : normalize ctx.pressure (worst ctx) < ENTER (worst ctx)) :
      Decides s ctx ⟨s.open ctx, s.applied⟩ none
  /-- The budget in force is already at least this tight. -/
  | held (hseen : ctx.engine.seen = true)
      (hopen : s.applied ≠ none → ∃ a, s.open ctx a = true)
      (b : ℚ) (happ : s.applied = some b) (hle : b ≤ wanted ctx) :
      Decides s ctx
        ⟨Function.update (s.open ctx) (worst ctx) true, some b⟩ none
  /-- A tighter budget goes into force. -/
  | tightened (hseen : ctx.engine.seen = true)
      (hopen : s.applied ≠ none → ∃ a, s.open ctx a = true)
      (hlt : ∀ b, s.applied = some b → wanted ctx < b) :
      Decides s ctx
        ⟨Function.update (s.open ctx) (worst ctx) true, some (wanted ctx)⟩
        (some (.kvCompress (wanted ctx)))

/-- `decide` with its helpers named. -/
theorem decide_eq (s : State) (ctx : Ctx) :
    decide s ctx =
      if ctx.engine.seen = false then (s, none)
      else if s.applied.isSome && !AXES.any (s.open ctx) then
        (⟨s.open ctx, none⟩, some .restoreDefaults)
      else if s.open ctx (worst ctx) = false
          ∧ normalize ctx.pressure (worst ctx) < ENTER (worst ctx) then
        (⟨s.open ctx, s.applied⟩, none)
      else
        match s.applied with
        | some b =>
            if wanted ctx ≥ b then
              (⟨Function.update (s.open ctx) (worst ctx) true, some b⟩, none)
            else
              (⟨Function.update (s.open ctx) (worst ctx) true,
                some (wanted ctx)⟩, some (.kvCompress (wanted ctx)))
        | none =>
            (⟨Function.update (s.open ctx) (worst ctx) true,
              some (wanted ctx)⟩, some (.kvCompress (wanted ctx))) := by
  unfold decide
  dsimp only
  rw [sweep_eq]
  rfl

/-- Before the first heartbeat a call does nothing. -/
theorem decide_unseen (s : State) {ctx : Ctx} (h : ctx.engine.seen = false) :
    decide s ctx = (s, none) := by
  unfold decide
  exact if_pos h

/-- **The step lemma**: `decide` does one of the five things. -/
theorem decide_spec (s : State) (ctx : Ctx) :
    Decides s ctx (decide s ctx).1 (decide s ctx).2 := by
  rw [decide_eq]
  split
  next hseen => exact .unseen hseen
  next hseen =>
    have hseen : ctx.engine.seen = true := by simpa using hseen
    split
    next hrel =>
      simp only [Bool.and_eq_true, Option.isSome_iff_ne_none,
        Bool.not_eq_true', List.any_eq_false, Bool.not_eq_true] at hrel
      have hclosed : ∀ a, s.open ctx a = false :=
        fun a => hrel.2 a (mem_AXES a)
      rw [show s.open ctx = fun _ => false from funext hclosed]
      exact .released hseen hrel.1 hclosed
    next hrel =>
      -- not released: nothing is applied yet, or some axis is open
      have hopen : s.applied ≠ none → ∃ a, s.open ctx a = true := by
        intro happ
        simp only [Bool.and_eq_true, Option.isSome_iff_ne_none,
          Bool.not_eq_true', not_and, Bool.not_eq_false] at hrel
        obtain ⟨a, _, ha⟩ := List.any_eq_true.mp (hrel happ)
        exact ⟨a, ha⟩
      split
      next hlow => exact .headroom hseen hopen hlow.2
      next _ =>
        cases happ : s.applied with
        | none =>
            refine .tightened hseen hopen ?_
            intro b hb
            rw [happ] at hb
            exact absurd hb (by simp)
        | some c =>
            dsimp only
            split
            next hge => exact .held hseen hopen c happ hge
            next hge =>
              refine .tightened hseen hopen ?_
              intro b hb
              rw [happ] at hb
              injection hb with hb
              exact hb ▸ not_le.mp hge

end ArgusManager.PolicyDefault
