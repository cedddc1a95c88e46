/-
  ArgusManager.Sim.LagLaws
  ────────────────────────
  **The laws of `lag_step`** (`src/sim/physics.rs`), with which every
  continuous quantity of the simulator is integrated.

  The decay is a multiplicative function of the step, on any durations that
  are closed under addition.  So two steps are one of both lengths, any number
  of steps stays between the value and its target and comes no farther from
  the target, and a step keeps the order of values and of targets
  (`lag_semigroup`).  Without a positive time constant all of this holds of
  the jump to the target, which a step is then; else it leaves its decay of the
  distance.
-/
import ArgusManager.Sim.Physics
import Mathlib.Algebra.Group.Submonoid.Membership
import Mathlib.Tactic.Positivity

namespace ArgusManager.Sim

/-- **The decay of a time constant**: what `exp` says of the durations, and
that it is multiplicative and leaves a positive share of the way. -/
structure DecayLaw (m : FloatVal.Libm) (tauS : ℚ) (durations : AddSubmonoid ℚ)
    (decay : ℚ → ℚ) : Prop where
  exp_eq : ∀ dt ∈ durations, m.exp (.fin (-dt / tauS)) = .fin (decay dt)
  mul : ∀ a ∈ durations, ∀ b ∈ durations, decay (a + b) = decay a * decay b
  pos : ∀ dt ∈ durations, 0 < decay dt
  le_one : ∀ dt ∈ durations, decay dt ≤ 1

/-- Steps of some lengths after one target. -/
def lagSteps (m : FloatVal.Libm) (tauS current target : ℚ) (dts : List ℚ) :
    FloatVal :=
  dts.foldl
    (fun x dt => lagStep m x (.fin target) (.fin tauS) (.fin dt))
    (.fin current)

section Laws

variable {m : FloatVal.Libm} {tauS : ℚ} {durations : AddSubmonoid ℚ}
  {decay : ℚ → ℚ}

/-- The decay of a step; none is left without a positive time constant. -/
def stepDecay (tauS : ℚ) (decay : ℚ → ℚ) (dt : ℚ) : ℚ :=
  if 0 < tauS then decay dt else 0

/-- **A lag step is one of its decay**, whatever the time constant. -/
theorem lagStep_stepDecay (h : 0 < tauS → DecayLaw m tauS durations decay)
    {dt : ℚ} (hdt : dt ∈ durations) (x t : ℚ) :
    lagStep m (.fin x) (.fin t) (.fin tauS) (.fin dt)
      = .fin (Lag.toward (stepDecay tauS decay dt) x t) := by
  unfold stepDecay
  by_cases htau : 0 < tauS
  · rw [if_pos htau]
    exact lagStep_decay htau ((h htau).exp_eq dt hdt) x t
  · rw [if_neg htau, Lag.toward_zero]
    exact lagStep_jump (by simpa using htau) (.fin x) (.fin t) (.fin dt)

theorem stepDecay_mem_Icc (h : 0 < tauS → DecayLaw m tauS durations decay)
    {dt : ℚ} (hdt : dt ∈ durations) :
    stepDecay tauS decay dt ∈ Set.Icc 0 1 := by
  unfold stepDecay
  by_cases htau : 0 < tauS
  · rw [if_pos htau]
    exact ⟨((h htau).pos dt hdt).le, (h htau).le_one dt hdt⟩
  · rw [if_neg htau]
    exact ⟨le_rfl, zero_le_one⟩

theorem stepDecay_add (h : 0 < tauS → DecayLaw m tauS durations decay)
    {a b : ℚ} (ha : a ∈ durations) (hb : b ∈ durations) :
    stepDecay tauS decay (a + b)
      = stepDecay tauS decay a * stepDecay tauS decay b := by
  unfold stepDecay
  by_cases htau : 0 < tauS
  · simp only [if_pos htau]
    exact (h htau).mul a ha b hb
  · simp only [if_neg htau, mul_zero]

/-- Any number of steps is one, by the product of their decays. -/
theorem lagSteps_eq (h : 0 < tauS → DecayLaw m tauS durations decay)
    {dts : List ℚ} (hdts : ∀ dt ∈ dts, dt ∈ durations) (x t : ℚ) :
    lagSteps m tauS x t dts
      = .fin (Lag.toward (dts.map (stepDecay tauS decay)).prod x t) := by
  rw [← Lag.foldl_toward]
  unfold lagSteps
  induction dts generalizing x with
  | nil => rfl
  | cons dt dts ih =>
      obtain ⟨hdt, hrest⟩ := List.forall_mem_cons.mp hdts
      rw [List.foldl_cons, lagStep_stepDecay h hdt, ih hrest]
      rfl

end Laws

/-- **The lag is a semigroup**, for all values, targets and time constants and
all durations on which the decay is multiplicative: two steps are one; any
number of steps stays between value and target, and the next step does not
lead away from the target; a step is monotone in value and target; and it is
the jump to the target, or with a positive time constant leaves the decay of
the distance. -/
theorem lag_semigroup (m : FloatVal.Libm) (tauS : ℚ)
    (durations : AddSubmonoid ℚ) (decay : ℚ → ℚ)
    (h : 0 < tauS → DecayLaw m tauS durations decay) :
    (∀ a ∈ durations, ∀ b ∈ durations, ∀ x t : ℚ,
      lagStep m (lagStep m (.fin x) (.fin t) (.fin tauS) (.fin a)) (.fin t)
          (.fin tauS) (.fin b)
        = lagStep m (.fin x) (.fin t) (.fin tauS) (.fin (a + b)))
    ∧ (∀ dts : List ℚ, (∀ dt ∈ dts, dt ∈ durations) → ∀ x t : ℚ,
        ∃ y, lagSteps m tauS x t dts = .fin y ∧ y ∈ Set.uIcc x t
          ∧ ∀ dt ∈ durations, ∃ z,
            lagSteps m tauS x t (dts ++ [dt]) = .fin z ∧ |z - t| ≤ |y - t|)
    ∧ (∀ dt ∈ durations, ∀ x x' t t' : ℚ, x ≤ x' → t ≤ t' →
        lagStep m (.fin x) (.fin t) (.fin tauS) (.fin dt)
          ≤ lagStep m (.fin x') (.fin t') (.fin tauS) (.fin dt))
    ∧ (tauS ≤ 0 → ∀ dt x t : ℚ,
        lagStep m (.fin x) (.fin t) (.fin tauS) (.fin dt) = .fin t)
    ∧ (0 < tauS → ∀ dt ∈ durations, ∀ x t : ℚ,
        lagStep m (.fin x) (.fin t) (.fin tauS) (.fin dt)
          = .fin (t + (x - t) * decay dt)) := by
  refine ⟨?_, ?_, ?_, ?_, ?_⟩
  · intro a ha b hb x t
    rw [lagStep_stepDecay h ha, lagStep_stepDecay h hb,
      lagStep_stepDecay h (durations.add_mem ha hb), Lag.toward_toward,
      stepDecay_add h ha hb]
  · -- the steps are one of the product of their decays
    intro dts hdts x t
    have hprod : (dts.map (stepDecay tauS decay)).prod ∈ Set.Icc 0 1 := by
      apply Lag.prod_mem_Icc
      intro d hd
      obtain ⟨dt, hdt, rfl⟩ := List.mem_map.mp hd
      exact stepDecay_mem_Icc h (hdts dt hdt)
    refine ⟨_, lagSteps_eq h hdts x t,
      Lag.toward_mem_uIcc hprod.1 hprod.2 x t, ?_⟩
    intro dt hdt
    obtain ⟨h0, h1⟩ := stepDecay_mem_Icc h hdt
    refine ⟨_, ?_, Lag.abs_toward_sub_le h0 h1 _ t⟩
    -- the last step starts where the others lead
    have hothers := lagSteps_eq h hdts x t
    unfold lagSteps at hothers ⊢
    rw [List.foldl_append, hothers]
    exact lagStep_stepDecay h hdt _ t
  · intro dt hdt x x' t t' hx ht
    obtain ⟨h0, h1⟩ := stepDecay_mem_Icc h hdt
    rw [lagStep_stepDecay h hdt, lagStep_stepDecay h hdt]
    show FloatVal.le _ _ = true
    rw [FloatVal.le_fin, decide_eq_true_iff]
    exact Lag.toward_mono h0 h1 hx ht
  · intro htau dt x t
    exact lagStep_jump (by simpa using htau) (.fin x) (.fin t) (.fin dt)
  · intro htau dt hdt x t
    rw [lagStep_decay htau ((h htau).exp_eq dt hdt), Lag.toward_eq]

/-- The decay of a second on multiples of 50 ms, from the one of `exp(-0.05)`. -/
def tickDecay (dt : ℚ) : ℚ := 0.951229424500714 ^ (20 * dt).num.toNat

/-- A library for the example, right at those. -/
def tickExp : FloatVal.Libm :=
  ⟨fun
    | .fin x => .fin (tickDecay (-x))
    | _ => .nan,
    fun _ _ => .fin 1⟩

theorem tickDecay_nsmul (n : ℕ) :
    tickDecay (n • (1 / 20)) = 0.951229424500714 ^ n := by
  have hticks : 20 * (n • (1 / 20 : ℚ)) = n := by
    rw [nsmul_eq_mul]
    ring
  unfold tickDecay
  rw [hticks, Rat.num_natCast, Int.toNat_natCast]

theorem tickExp_law :
    DecayLaw tickExp 1 (AddSubmonoid.multiples (1 / 20)) tickDecay where
  exp_eq dt _ := by
    show FloatVal.fin (tickDecay (-(-dt / 1))) = _
    rw [div_one, neg_neg]
  mul := by
    rintro _ ⟨n, rfl⟩ _ ⟨k, rfl⟩
    show tickDecay (n • (1 / 20) + k • (1 / 20)) = _
    rw [← add_nsmul, tickDecay_nsmul, pow_add]
    simp only [tickDecay_nsmul]
  pos := by
    rintro _ ⟨n, rfl⟩
    show 0 < tickDecay (n • (1 / 20))
    rw [tickDecay_nsmul]
    positivity
  le_one := by
    rintro _ ⟨n, rfl⟩
    show tickDecay (n • (1 / 20)) ≤ 1
    rw [tickDecay_nsmul]
    exact pow_le_one₀ (by norm_num) (by norm_num)

/-- Two ticks of 50 ms are one of 100 ms, and each leaves its decay of the
distance. -/
theorem lag_semigroup_ticks :
    lagStep tickExp
        (lagStep tickExp (.fin 0) (.fin 10) (.fin 1) (.fin (1 / 20)))
        (.fin 10) (.fin 1) (.fin (1 / 20))
      = lagStep tickExp (.fin 0) (.fin 10) (.fin 1) (.fin (1 / 20 + 1 / 20))
    ∧ lagStep tickExp (.fin 0) (.fin 10) (.fin 1) (.fin (1 / 20))
      = .fin (10 + (0 - 10) * tickDecay (1 / 20)) := by
  have hall := lag_semigroup tickExp 1 (AddSubmonoid.multiples (1 / 20))
    tickDecay fun _ => tickExp_law
  have htick := AddSubmonoid.mem_multiples (1 / 20 : ℚ)
  exact ⟨hall.1 _ htick _ htick 0 10,
    hall.2.2.2.2 zero_lt_one _ htick 0 10⟩

end ArgusManager.Sim
