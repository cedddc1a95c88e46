/-
  ArgusManager.Scripts.PolicyDefault.Stress
  ─────────────────────────────────────────
  **What the single most stressed axis hides.**

  Each call acts on one axis: the one furthest past its own enter threshold.
  Only that axis is flagged, and the budget is read off that axis's ramp.

    • `released_unstressed_iff` — a release can therefore happen under stress:
      exactly when every flagged axis has receded while an axis that was
      always outranked is past its enter threshold,
    • `memory_budget` — the budget in force covers the winning axis, and
      memory whenever the winner is relatively at least as far past its
      threshold, as memory itself and gpu always are.
-/
import ArgusManager.Scripts.PolicyDefault.Windows
import Mathlib.Tactic.Linarith

namespace ArgusManager.PolicyDefault

/-! ## §1. When a call releases. -/

/-- **Exactly when a call returns `restore_defaults`.** -/
theorem decide_restores_iff {s : State} {ctx : Ctx} :
    (decide s ctx).2 = some .restoreDefaults ↔
      ctx.engine.seen = true ∧ s.applied ≠ none
        ∧ ∀ a, s.relieving a = true → normalize ctx.pressure a < EXIT a := by
  constructor
  · intro h
    have hspec := decide_spec s ctx
    generalize (decide s ctx).1 = s' at hspec
    rw [h] at hspec
    cases hspec with
    | released hseen happ hclosed =>
        exact ⟨hseen, happ, fun a => swept_eq_false.mp (hclosed a)⟩
  · rintro ⟨hseen, happ, hexit⟩
    rw [decide_releases happ hseen hexit]

/-- Every flagged axis recedes below its exit while another axis is at or
past its enter threshold. -/
def MaskedRelease (s : State) (ctx : Ctx) : Prop :=
  ctx.engine.seen = true ∧ s.applied ≠ none
    ∧ (∀ a, s.relieving a = true → normalize ctx.pressure a < EXIT a)
    ∧ ∃ a, ENTER a ≤ normalize ctx.pressure a

/-- **A run releases under stress exactly when a masked release occurs.** -/
theorem released_unstressed_iff (calls : List Ctx) :
    (∀ e ∈ machine.trace State.fresh calls,
      e.output = some .restoreDefaults →
        ∀ a, normalize e.input.pressure a < ENTER a)
    ↔ ∀ e ∈ machine.trace State.fresh calls,
        ¬ MaskedRelease e.pre e.input := by
  -- pointwise: a call releases exactly when every flagged axis has receded
  refine forall₂_congr fun e he => ?_
  obtain ⟨hist, t, htr⟩ := machine.mem_trace_split he
  obtain ⟨ys, ctx, _, _, _, rfl⟩ := machine.trace_split htr
  rw [Mealy.stepAt_output, Mealy.stepAt_pre, Mealy.stepAt_input]
  show ((decide _ ctx).2 = _ → _) ↔ _
  rw [decide_restores_iff]
  constructor
  · rintro h ⟨hseen, happ, hexit, a, ha⟩
    exact absurd (h ⟨hseen, happ, hexit⟩ a) (not_lt.mpr ha)
  · rintro h ⟨hseen, happ, hexit⟩ a
    by_contra ha
    exact h ⟨hseen, happ, hexit, a, not_lt.mp ha⟩

/-- Gpu outranks a stressed memory axis, then recedes: the cache is given
back with memory past its enter threshold. -/
theorem release_with_memory_stressed :
    ¬ ∀ calls : List Ctx, ∀ e ∈ machine.trace State.fresh calls,
        e.output = some .restoreDefaults →
          ∀ a, normalize e.input.pressure a < ENTER a := by
  intro h
  have hmem := h [seenAt 0.85 0.95 0 0, seenAt 0.85 0.5 0 0] _
    (List.mem_cons_of_mem _ List.mem_cons_self) (by decide +kernel) .memory
  exact absurd hmem (by decide +kernel)

/-! ## §2. The ramp. -/

/-- How far up its own ramp an axis is, from 0 at the enter threshold to 1. -/
def upRamp (pressure : ℚ) (axis : Axis) : ℚ :=
  min (max ((pressure - ENTER axis) / (1 - ENTER axis)) 0) 1

/-- The budget at a given place on the ramp. -/
def ramp (x : ℚ) : ℚ :=
  min (max ((⌊(B_MAX - x * (B_MAX - B_MIN)) / B_STEP + 0.5⌋ : ℚ) * B_STEP)
    B_MIN) B_MAX

theorem B_kv_eq_ramp (pressure : ℚ) (axis : Axis) :
    B_kv pressure axis = ramp (upRamp pressure axis) := by
  have hspan : 1 - ENTER axis > 0 := by
    cases axis <;> norm_num [ENTER]
  unfold B_kv
  dsimp only
  rw [if_pos hspan]
  rfl

/-- The further up the ramp, the tighter the budget. -/
theorem ramp_antitone {x y : ℚ} (h : x ≤ y) : ramp y ≤ ramp x := by
  have hstep : 0 ≤ B_STEP := by norm_num [B_STEP]
  have hslope : 0 ≤ B_MAX - B_MIN := by norm_num [B_MAX, B_MIN]
  have hbudget : B_MAX - y * (B_MAX - B_MIN) ≤ B_MAX - x * (B_MAX - B_MIN) :=
    sub_le_sub_left (mul_le_mul_of_nonneg_right h hslope) _
  -- quantizing and clamping keep the order
  have hfloor : ⌊(B_MAX - y * (B_MAX - B_MIN)) / B_STEP + 0.5⌋
      ≤ ⌊(B_MAX - x * (B_MAX - B_MIN)) / B_STEP + 0.5⌋ := by
    refine Int.floor_le_floor ?_
    have := div_le_div_of_nonneg_right hbudget hstep
    linarith
  have hquant : (⌊(B_MAX - y * (B_MAX - B_MIN)) / B_STEP + 0.5⌋ : ℚ) * B_STEP
      ≤ (⌊(B_MAX - x * (B_MAX - B_MIN)) / B_STEP + 0.5⌋ : ℚ) * B_STEP :=
    mul_le_mul_of_nonneg_right (by exact_mod_cast hfloor) hstep
  exact min_le_min_right _ (max_le_max_right _ hquant)

theorem B_kv_le_of_upRamp_le {p q : ℚ} {a c : Axis}
    (h : upRamp p a ≤ upRamp q c) :
    B_kv q c ≤ B_kv p a := by
  rw [B_kv_eq_ramp, B_kv_eq_ramp]
  exact ramp_antitone h

/-- When memory or gpu wins, it is at least as far up its ramp as memory. -/
theorem upRamp_memory_le_of_worst {ctx : Ctx}
    (hmem : ENTER .memory ≤ normalize ctx.pressure .memory)
    (hw : worst ctx = .memory ∨ worst ctx = .gpu) :
    upRamp (normalize ctx.pressure .memory) .memory
      ≤ upRamp (normalize ctx.pressure (worst ctx)) (worst ctx) := by
  have hexc := excess_le_mostStressed (normalize ctx.pressure) .memory
  rw [show mostStressed (normalize ctx.pressure) = worst ctx from rfl] at hexc
  rcases hw with hw | hw
  · rw [hw]
  · rw [hw] at hexc ⊢
    -- the gpu span is the shorter one, so the same excess goes further
    have hratio : (normalize ctx.pressure .memory - ENTER .memory)
          / (1 - ENTER .memory)
        ≤ (normalize ctx.pressure .gpu - ENTER .gpu) / (1 - ENTER .gpu) := by
      norm_num [excess, ENTER] at hexc hmem ⊢
      linarith
    exact min_le_min_right _ (max_le_max_right _ hratio)

/-! ## §3. The budget in force after a call. -/

/-- With an axis past its enter threshold, a call that does not release
leaves the tighter of the budget in force and the one it wanted. -/
theorem decide_applied {s : State} {ctx : Ctx} {a : Axis}
    (hseen : ctx.engine.seen = true)
    (ha : ENTER a ≤ normalize ctx.pressure a)
    (hout : (decide s ctx).2 ≠ some .restoreDefaults) :
    ∃ b, (decide s ctx).1.applied = some b ∧ b ≤ wanted ctx
      ∧ (∀ c, s.applied = some c → b ≤ c)
      ∧ (b = wanted ctx ∨ s.applied = some b) := by
  have hspec := decide_spec s ctx
  generalize (decide s ctx).1 = s' at *
  generalize (decide s ctx).2 = out at *
  cases hspec with
  | unseen h => exact absurd (hseen.symm.trans h) (by simp)
  | released _ _ _ => exact absurd rfl hout
  | headroom _ _ hlow =>
      -- the winner is at least as far past its threshold as `a`
      have hexc := excess_le_mostStressed (normalize ctx.pressure) a
      rw [show mostStressed (normalize ctx.pressure) = worst ctx from rfl]
        at hexc
      unfold excess at hexc
      linarith
  | held _ _ b happ hle =>
      refine ⟨b, rfl, hle, ?_, .inr happ⟩
      intro c hc
      rw [happ] at hc
      injection hc with hc
      exact le_of_eq hc
  | tightened _ _ hlt =>
      exact ⟨_, rfl, le_refl _, fun c hc => le_of_lt (hlt c hc), .inl rfl⟩

/-- **What the budget in force covers** after a call made with the engine
seen and memory past its enter threshold that does not release: the winning
axis always, and memory exactly when the budget already in force or the
wanted one did, in particular whenever the winner is at least as far up its
ramp as memory, as memory and gpu always are. -/
theorem memory_budget (calls : List Ctx) (ctx : Ctx)
    (hseen : ctx.engine.seen = true)
    (hmem : ENTER .memory ≤ normalize ctx.pressure .memory)
    (hout : (decide (machine.exec State.fresh calls) ctx).2
      ≠ some .restoreDefaults) :
    ∃ b, (decide (machine.exec State.fresh calls) ctx).1.applied = some b
      ∧ b ≤ B_kv (normalize ctx.pressure (worst ctx)) (worst ctx)
      ∧ (b ≤ B_kv (normalize ctx.pressure .memory) .memory ↔
          (∃ c, (machine.exec State.fresh calls).applied = some c
            ∧ c ≤ B_kv (normalize ctx.pressure .memory) .memory)
          ∨ B_kv (normalize ctx.pressure (worst ctx)) (worst ctx)
            ≤ B_kv (normalize ctx.pressure .memory) .memory)
      ∧ (upRamp (normalize ctx.pressure .memory) .memory
            ≤ upRamp (normalize ctx.pressure (worst ctx)) (worst ctx) →
          b ≤ B_kv (normalize ctx.pressure .memory) .memory)
      ∧ (worst ctx = .memory ∨ worst ctx = .gpu →
          b ≤ B_kv (normalize ctx.pressure .memory) .memory) := by
  obtain ⟨b, hb, hwanted, hold, hfrom⟩ := decide_applied hseen hmem hout
  have hcover : upRamp (normalize ctx.pressure .memory) .memory
        ≤ upRamp (normalize ctx.pressure (worst ctx)) (worst ctx) →
      b ≤ B_kv (normalize ctx.pressure .memory) .memory :=
    fun h => hwanted.trans (B_kv_le_of_upRamp_le h)
  refine ⟨b, hb, hwanted, ⟨?_, ?_⟩, hcover, ?_⟩
  · intro hle
    rcases hfrom with rfl | hs
    · exact .inr hle
    · exact .inl ⟨b, hs, hle⟩
  · rintro (⟨c, hc, hle⟩ | hle)
    · exact (hold c hc).trans hle
    · exact hwanted.trans hle
  · exact fun hw => hcover (upRamp_memory_le_of_worst hmem hw)

/-- Memory alone under stress: its own ramp sets the budget. -/
theorem memory_budget_alone :
    ∃ b, (decide (machine.exec State.fresh []) (seenAt 0.9 0 0 0)).1.applied
        = some b
      ∧ b ≤ B_kv (normalize (seenAt 0.9 0 0 0).pressure .memory) .memory := by
  obtain ⟨b, hb, _, _, _, hcover⟩ := memory_budget [] (seenAt 0.9 0 0 0) rfl
    (by decide +kernel) (by decide +kernel)
  exact ⟨b, hb, hcover (.inl (by decide +kernel))⟩

/-- Thermal outranks an exhausted memory axis by 0.01: the budget in force is
0.35 where memory's ramp asks for 0.25. -/
theorem memory_masked_by_thermal :
    ¬ ∀ (calls : List Ctx) (ctx : Ctx), ctx.engine.seen = true →
        (∀ a, a ≠ Axis.latency → 0 ≤ normalize ctx.pressure a
          ∧ normalize ctx.pressure a ≤ 1) →
        ENTER .memory ≤ normalize ctx.pressure .memory →
        (decide (machine.exec State.fresh calls) ctx).2
          ≠ some .restoreDefaults →
        ∃ b, (decide (machine.exec State.fresh calls) ctx).1.applied = some b
          ∧ b ≤ B_kv (normalize ctx.pressure .memory) .memory := by
  intro h
  obtain ⟨b, hb, hle⟩ := h [] (seenAt 1 0 0.96 0) rfl
    (by
      intro a _
      cases a <;> norm_num [seenAt, buildCtx, normalize])
    (by decide +kernel) (by decide +kernel)
  have happlied : (decide (machine.exec State.fresh [])
      (seenAt 1 0 0.96 0)).1.applied = some 0.35 := by decide +kernel
  rw [happlied] at hb
  injection hb with hb
  rw [← hb] at hle
  exact absurd hle (by decide +kernel)

end ArgusManager.PolicyDefault
