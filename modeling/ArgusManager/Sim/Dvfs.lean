/-
  ArgusManager.Sim.Dvfs
  ─────────────────────
  **DVFS over a run** (`dvfs_update`, `dvfs_target_freq`,
  `src/sim/physics.rs`).

  Each cluster's frequency is a first-order lag after the targets that its
  temperatures set (`dvfsRun_eq`).  The target lies between the frequency
  bounds and falls with the temperature, so both hold of every run
  (`dvfs_in_range_antitone`).
-/
import ArgusManager.Sim.Physics
import Mathlib.Tactic.Positivity

namespace ArgusManager.Sim

/-! ## §1. One cluster. -/

/-- The numbers that govern the frequency of a cluster. -/
structure Governor where
  softThresholdC : ℚ
  hardThresholdC : ℚ
  kThermal : ℚ
  tauS : ℚ
  minFreq : ℚ
  maxFreq : ℚ

namespace Governor

structure Valid (g : Governor) : Prop where
  min_pos : 0 < g.minFreq
  min_le_max : g.minFreq ≤ g.maxFreq
  soft_lt_hard : g.softThresholdC < g.hardThresholdC
  k_nonneg : 0 ≤ g.kThermal

/-- Its part in the configuration. -/
def config (g : Governor) : DvfsCluster where
  softThresholdC := .fin g.softThresholdC
  hardThresholdC := .fin g.hardThresholdC
  kThermal := .fin g.kThermal
  tauS := .fin g.tauS

/-- The share of the maximal frequency between the thresholds, before it is
clamped. -/
def ratio (g : Governor) (thermalC : ℚ) : ℚ :=
  1 - g.kThermal * (thermalC - g.softThresholdC)
    / (g.hardThresholdC - g.softThresholdC)

/-- What `dvfs_target_freq` computes on numbers. -/
def target (g : Governor) (thermalC : ℚ) : ℚ :=
  if thermalC < g.softThresholdC then g.maxFreq
  else if g.hardThresholdC ≤ thermalC then g.minFreq
  else g.maxFreq * max (g.minFreq / g.maxFreq) (min (g.ratio thermalC) 1)

variable {g : Governor}

theorem Valid.max_pos (h : g.Valid) : 0 < g.maxFreq :=
  h.min_pos.trans_le h.min_le_max

theorem Valid.share_le_one (h : g.Valid) : g.minFreq / g.maxFreq ≤ 1 :=
  (div_le_one h.max_pos).mpr h.min_le_max

/-- Clamping, written out. -/
theorem clamp_fin {lo hi : ℚ} (h : lo ≤ hi) (x : ℚ) :
    (FloatVal.fin x).clamp (.fin lo) (.fin hi)
      = some (.fin (max lo (min x hi))) := by
  unfold FloatVal.clamp
  rw [if_pos (by simpa using h)]
  congr 1
  rw [FloatVal.lt_fin, FloatVal.lt_fin]
  by_cases hlo : x < lo
  · rw [if_pos (decide_eq_true hlo),
      max_eq_left ((min_le_left x hi).trans hlo.le)]
  · rw [if_neg (by simpa using hlo)]
    have hlo := not_lt.mp hlo
    by_cases hhi : hi < x
    · rw [if_pos (decide_eq_true hhi), min_eq_right hhi.le, max_eq_right h]
    · rw [if_neg (by simpa using hhi), min_eq_left (not_lt.mp hhi),
        max_eq_right hlo]

/-- **The target frequency is the number.** -/
theorem Valid.dvfsTargetFreq_eq (h : g.Valid) (thermalC : ℚ) :
    dvfsTargetFreq (.fin thermalC) g.config.softThresholdC
        g.config.hardThresholdC g.config.kThermal (.fin g.minFreq)
        (.fin g.maxFreq)
      = some (.fin (g.target thermalC)) := by
  have hgap : g.hardThresholdC - g.softThresholdC ≠ 0 :=
    (sub_pos.mpr h.soft_lt_hard).ne'
  unfold dvfsTargetFreq target config
  dsimp only
  rw [FloatVal.lt_fin, FloatVal.le_fin]
  by_cases hsoft : thermalC < g.softThresholdC
  · rw [if_pos (decide_eq_true hsoft), if_pos hsoft]
  · rw [if_neg (by simpa using hsoft), if_neg hsoft]
    by_cases hhard : g.hardThresholdC ≤ thermalC
    · rw [if_pos (decide_eq_true hhard), if_pos hhard]
    · rw [if_neg (by simpa using hhard), if_neg hhard, FloatVal.fin_sub,
        FloatVal.fin_sub, FloatVal.fin_mul, FloatVal.fin_div _ hgap,
        FloatVal.fin_sub, FloatVal.fin_div _ h.max_pos.ne',
        clamp_fin h.share_le_one]
      rfl

theorem Valid.scaled_share (h : g.Valid) :
    g.maxFreq * (g.minFreq / g.maxFreq) = g.minFreq :=
  mul_div_cancel₀ _ h.max_pos.ne'

/-- Between the thresholds the target lies between the bounds. -/
theorem Valid.middle_mem (h : g.Valid) (r : ℚ) :
    g.maxFreq * max (g.minFreq / g.maxFreq) (min r 1)
      ∈ Set.Icc g.minFreq g.maxFreq := by
  have hlo : g.minFreq / g.maxFreq ≤ max (g.minFreq / g.maxFreq) (min r 1) :=
    le_max_left _ _
  have hhi : max (g.minFreq / g.maxFreq) (min r 1) ≤ 1 :=
    max_le h.share_le_one (min_le_right _ _)
  have hlo' := mul_le_mul_of_nonneg_left hlo h.max_pos.le
  have hhi' := mul_le_mul_of_nonneg_left hhi h.max_pos.le
  rw [h.scaled_share] at hlo'
  rw [mul_one] at hhi'
  exact ⟨hlo', hhi'⟩

/-- **The target lies between the bounds.** -/
theorem Valid.target_mem (h : g.Valid) (thermalC : ℚ) :
    g.target thermalC ∈ Set.Icc g.minFreq g.maxFreq := by
  unfold target
  split
  next => exact Set.right_mem_Icc.mpr h.min_le_max
  next =>
    split
    next => exact Set.left_mem_Icc.mpr h.min_le_max
    next => exact h.middle_mem _

theorem Valid.ratio_anti (h : g.Valid) : Antitone g.ratio := by
  intro t t' htt'
  have hgap : 0 ≤ g.hardThresholdC - g.softThresholdC :=
    (sub_pos.mpr h.soft_lt_hard).le
  have hscaled := mul_le_mul_of_nonneg_left
    (sub_le_sub_right htt' g.softThresholdC) h.k_nonneg
  exact sub_le_sub_left (div_le_div_of_nonneg_right hscaled hgap) 1

/-- **The target falls with the temperature**, over both jumps. -/
theorem Valid.target_anti (h : g.Valid) : Antitone g.target := by
  intro t t' htt'
  have hmem := h.target_mem t
  have hmem' := h.target_mem t'
  by_cases hsoft : t < g.softThresholdC
  · -- the cooler one is at the maximum
    have ht : g.target t = g.maxFreq := if_pos hsoft
    exact ht ▸ hmem'.2
  · by_cases hhard' : g.hardThresholdC ≤ t'
    · -- the hotter one is at the minimum
      have hsoft' : ¬ t' < g.softThresholdC :=
        (h.soft_lt_hard.le.trans hhard').not_gt
      have ht' : g.target t' = g.minFreq := by
        unfold target
        rw [if_neg hsoft', if_pos hhard']
      exact ht' ▸ hmem.1
    · have hsoft' : ¬ t' < g.softThresholdC :=
        fun hlt => hsoft (htt'.trans_lt hlt)
      have hhard : ¬ g.hardThresholdC ≤ t := fun hle => hhard' (hle.trans htt')
      unfold target
      rw [if_neg hsoft, if_neg hsoft', if_neg hhard, if_neg hhard']
      refine mul_le_mul_of_nonneg_left ?_ h.max_pos.le
      exact max_le_max_left _ (min_le_min_right _ (h.ratio_anti htt'))

end Governor

/-- What `exp` does to a positive time constant: nothing arrives at once, and
nothing stays. -/
def Decaying (m : FloatVal.Libm) (tauS dtS : ℚ) : Prop :=
  0 < tauS → ∃ e, 0 < e ∧ e < 1 ∧ m.exp (.fin (-dtS / tauS)) = .fin e

/-- **A lag step is one of a fixed decay.** -/
theorem lagStep_toward {m : FloatVal.Libm} {tauS dtS : ℚ}
    (h : Decaying m tauS dtS) :
    ∃ d, 0 ≤ d ∧ d ≤ 1 ∧ ∀ current target : ℚ,
      lagStep m (.fin current) (.fin target) (.fin tauS) (.fin dtS)
        = .fin (Lag.toward d current target) := by
  by_cases htau : tauS ≤ 0
  · -- the target is there at once, which is a decay of nothing
    refine ⟨0, le_rfl, zero_le_one, fun current target => ?_⟩
    rw [lagStep_jump (by simpa using htau), Lag.toward_zero]
  · obtain ⟨e, he0, he1, hexp⟩ := h (not_le.mp htau)
    refine ⟨e, he0.le, he1.le, fun current target => ?_⟩
    exact lagStep_decay (not_le.mp htau) hexp current target

/-! ## §2. Both clusters. -/

inductive Cluster where
  | cpu
  | gpu
  deriving DecidableEq, Repr

namespace Cluster

def config (cfg : ScenarioConfig) : Cluster → DvfsCluster
  | cpu => cfg.dvfs.cpu
  | gpu => cfg.dvfs.gpu

def thermal : Cluster → Field
  | cpu => .cpuClusterThermalC
  | gpu => .gpuClusterThermalC

def freq : Cluster → Field
  | cpu => .cpuFreqMhz
  | gpu => .gpuFreqMhz

def minFreq : Cluster → Field
  | cpu => .cpuMinFreqMhz
  | gpu => .gpuMinFreqMhz

def maxFreq : Cluster → Field
  | cpu => .cpuMaxFreqMhz
  | gpu => .gpuMaxFreqMhz

end Cluster

/-- The scenario configures the clusters so. -/
def Configured (cfg : ScenarioConfig) (gov : Cluster → Governor) : Prop :=
  ∀ c, c.config cfg = (gov c).config

/-- The state has the bounds of the governors, and these frequencies. -/
structure AtFreqs (gov : Cluster → Governor) (s : PhysicalState)
    (freq : Cluster → ℚ) : Prop where
  min_eq : ∀ c, s.num c.minFreq = .fin (gov c).minFreq
  max_eq : ∀ c, s.num c.maxFreq = .fin (gov c).maxFreq
  freq_eq : ∀ c, s.num c.freq = .fin (freq c)

/-- The temperatures another phase has left. -/
def heat (temps : Cluster → ℚ) (s : PhysicalState) : PhysicalState :=
  (s.setField .cpuClusterThermalC (.fin (temps .cpu))).setField
    .gpuClusterThermalC (.fin (temps .gpu))

@[simp] theorem heat_thermal (temps : Cluster → ℚ) (s : PhysicalState)
    (c : Cluster) : (heat temps s).num c.thermal = .fin (temps c) := by
  cases c with
  | cpu => rfl
  | gpu => rfl

theorem heat_atFreqs {gov : Cluster → Governor} {s : PhysicalState}
    {freq : Cluster → ℚ} (h : AtFreqs gov s freq) (temps : Cluster → ℚ) :
    AtFreqs gov (heat temps s) freq := by
  have hframe : ∀ f : Field, f ≠ .cpuClusterThermalC →
      f ≠ .gpuClusterThermalC → (heat temps s).num f = s.num f := by
    intro f hcpu hgpu
    unfold heat
    rw [PhysicalState.setField_of_ne _ hgpu,
      PhysicalState.setField_of_ne _ hcpu]
  constructor
  · intro c
    rw [hframe _ (by cases c <;> decide) (by cases c <;> decide)]
    exact h.min_eq c
  · intro c
    rw [hframe _ (by cases c <;> decide) (by cases c <;> decide)]
    exact h.max_eq c
  · intro c
    rw [hframe _ (by cases c <;> decide) (by cases c <;> decide)]
    exact h.freq_eq c

/-- DVFS steps, each after new temperatures. -/
def dvfsRun (m : FloatVal.Libm) (cfg : ScenarioConfig) (dtS : FloatVal)
    (s : PhysicalState) (temps : List (Cluster → ℚ)) : Option PhysicalState :=
  temps.foldlM (fun s t => dvfsUpdate m cfg dtS (heat t s)) s

section Runs

variable {m : FloatVal.Libm} {cfg : ScenarioConfig} {dtS : ℚ}
  {gov : Cluster → Governor} {decay : Cluster → ℚ}

/-- A lag of each cluster has the decay of the cluster. -/
def DecaysBy (m : FloatVal.Libm) (dtS : ℚ) (gov : Cluster → Governor)
    (decay : Cluster → ℚ) : Prop :=
  ∀ c, ∀ current target : ℚ,
    lagStep m (.fin current) (.fin target) (.fin (gov c).tauS) (.fin dtS)
      = .fin (Lag.toward (decay c) current target)

/-- The target frequency of each cluster. -/
theorem dvfsTargetFreq_cluster (hvalid : ∀ c, (gov c).Valid)
    (hcfg : Configured cfg gov) {s : PhysicalState}
    {freq temps : Cluster → ℚ} (h : AtFreqs gov s freq)
    (ht : ∀ c, s.num c.thermal = .fin (temps c)) (c : Cluster) :
    dvfsTargetFreq (s.num c.thermal) (c.config cfg).softThresholdC
        (c.config cfg).hardThresholdC (c.config cfg).kThermal
        (s.num c.minFreq) (s.num c.maxFreq)
      = some (.fin ((gov c).target (temps c))) := by
  rw [ht c, h.min_eq c, h.max_eq c, hcfg c]
  exact (hvalid c).dvfsTargetFreq_eq _

/-- And the lag of each. -/
theorem lagStep_cluster (hcfg : Configured cfg gov)
    (hdecay : DecaysBy m dtS gov decay) {s : PhysicalState}
    {freq : Cluster → ℚ} (h : AtFreqs gov s freq) (c : Cluster)
    (target : ℚ) :
    lagStep m (s.num c.freq) (.fin target) (c.config cfg).tauS (.fin dtS)
      = .fin (Lag.toward (decay c) (freq c) target) := by
  rw [h.freq_eq c, hcfg c]
  exact hdecay c _ _

/-- **One step moves each frequency towards its target.** -/
theorem dvfsUpdate_eq (hvalid : ∀ c, (gov c).Valid)
    (hcfg : Configured cfg gov) (hdecay : DecaysBy m dtS gov decay)
    {s : PhysicalState} {freq temps : Cluster → ℚ} (h : AtFreqs gov s freq)
    (ht : ∀ c, s.num c.thermal = .fin (temps c)) :
    ∃ s', dvfsUpdate m cfg (.fin dtS) s = some s'
      ∧ AtFreqs gov s' fun c =>
          Lag.toward (decay c) (freq c) ((gov c).target (temps c)) := by
  have hcpu : dvfsTargetFreq (s.num .cpuClusterThermalC)
      cfg.dvfs.cpu.softThresholdC cfg.dvfs.cpu.hardThresholdC
      cfg.dvfs.cpu.kThermal (s.num .cpuMinFreqMhz) (s.num .cpuMaxFreqMhz)
      = some (.fin ((gov .cpu).target (temps .cpu))) :=
    dvfsTargetFreq_cluster hvalid hcfg h ht .cpu
  have hgpu : dvfsTargetFreq (s.num .gpuClusterThermalC)
      cfg.dvfs.gpu.softThresholdC cfg.dvfs.gpu.hardThresholdC
      cfg.dvfs.gpu.kThermal (s.num .gpuMinFreqMhz) (s.num .gpuMaxFreqMhz)
      = some (.fin ((gov .gpu).target (temps .gpu))) :=
    dvfsTargetFreq_cluster hvalid hcfg h ht .gpu
  have hupdate : dvfsUpdate m cfg (.fin dtS) s
      = some ((s.setField .cpuFreqMhz
          (lagStep m (s.num .cpuFreqMhz)
            (.fin ((gov .cpu).target (temps .cpu))) cfg.dvfs.cpu.tauS
            (.fin dtS))).setField .gpuFreqMhz
          (lagStep m (s.num .gpuFreqMhz)
            (.fin ((gov .gpu).target (temps .gpu))) cfg.dvfs.gpu.tauS
            (.fin dtS))) := by
    unfold dvfsUpdate
    rw [hcpu]
    -- the GPU's target does not see the new CPU frequency
    show Option.bind (dvfsTargetFreq (s.num .gpuClusterThermalC)
      cfg.dvfs.gpu.softThresholdC cfg.dvfs.gpu.hardThresholdC
      cfg.dvfs.gpu.kThermal (s.num .gpuMinFreqMhz)
      (s.num .gpuMaxFreqMhz)) _ = _
    rw [hgpu]
    rfl
  refine ⟨_, hupdate, ?_, ?_, ?_⟩
  · intro c
    rw [← h.min_eq c]
    cases c <;> rfl
  · intro c
    rw [← h.max_eq c]
    cases c <;> rfl
  · intro c
    have hlag := lagStep_cluster hcfg hdecay h c
      ((gov c).target (temps c))
    rw [← hlag]
    cases c <;> rfl

/-- **Over a run each frequency chases its targets.** -/
theorem dvfsRun_eq (hvalid : ∀ c, (gov c).Valid) (hcfg : Configured cfg gov)
    (hdecay : DecaysBy m dtS gov decay) (temps : List (Cluster → ℚ))
    {s : PhysicalState} {freq : Cluster → ℚ} (h : AtFreqs gov s freq) :
    ∃ s', dvfsRun m cfg (.fin dtS) s temps = some s'
      ∧ AtFreqs gov s' fun c => Lag.chase (decay c) (freq c)
          (temps.map fun t => (gov c).target (t c)) := by
  induction temps generalizing s freq with
  | nil => exact ⟨s, rfl, h⟩
  | cons t temps ih =>
      obtain ⟨s₁, hstep, h₁⟩ := dvfsUpdate_eq hvalid hcfg hdecay
        (heat_atFreqs h t) (heat_thermal t s)
      obtain ⟨s', hrun, h'⟩ := ih h₁
      refine ⟨s', ?_, h'⟩
      unfold dvfsRun at hrun ⊢
      rw [List.foldlM_cons, hstep]
      exact hrun

end Runs

/-! ## §3. The range and the order. -/

/-- The first temperatures are nowhere below the second. -/
def HotterThroughout (hot cool : List (Cluster → ℚ)) : Prop :=
  List.Forall₂ (fun t t' => ∀ c, t' c ≤ t c) hot cool

theorem targets_ordered {g : Governor} (hg : g.Valid) (c : Cluster)
    {hot cool : List (Cluster → ℚ)} (h : HotterThroughout hot cool) :
    List.Forall₂ (· ≤ ·) (hot.map fun t => g.target (t c))
      (cool.map fun t => g.target (t c)) := by
  rw [List.forall₂_map_left_iff, List.forall₂_map_right_iff]
  exact h.imp fun t t' hle => hg.target_anti (hle c)

/-- **DVFS stays in range and is antitone in heat**, for every configuration
of both clusters, every time constants and every run of steps from any
frequencies. -/
theorem dvfs_in_range_antitone (m : FloatVal.Libm) (cfg : ScenarioConfig)
    (gov : Cluster → Governor) (dtS : ℚ) (hvalid : ∀ c, (gov c).Valid)
    (hcfg : Configured cfg gov) (hdecay : ∀ c, Decaying m (gov c).tauS dtS) :
    (∀ (temps : List (Cluster → ℚ)) (s : PhysicalState) (freq : Cluster → ℚ),
      AtFreqs gov s freq →
      (∀ c, freq c ∈ Set.Icc (gov c).minFreq (gov c).maxFreq) →
      ∃ s' freq', dvfsRun m cfg (.fin dtS) s temps = some s'
        ∧ AtFreqs gov s' freq'
        ∧ ∀ c, freq' c ∈ Set.Icc (gov c).minFreq (gov c).maxFreq)
    ∧ ∀ (hot cool : List (Cluster → ℚ)) (s₁ s₂ : PhysicalState)
        (freq₁ freq₂ : Cluster → ℚ),
      HotterThroughout hot cool → AtFreqs gov s₁ freq₁ →
      AtFreqs gov s₂ freq₂ → (∀ c, freq₁ c ≤ freq₂ c) →
      ∃ s₁' s₂' freq₁' freq₂', dvfsRun m cfg (.fin dtS) s₁ hot = some s₁'
        ∧ dvfsRun m cfg (.fin dtS) s₂ cool = some s₂'
        ∧ AtFreqs gov s₁' freq₁' ∧ AtFreqs gov s₂' freq₂'
        ∧ ∀ c, freq₁' c ≤ freq₂' c := by
  choose decay h0 h1 hlag using fun c => lagStep_toward (hdecay c)
  have hby : DecaysBy m dtS gov decay := hlag
  constructor
  · intro temps s freq h hrange
    obtain ⟨s', hrun, h'⟩ := dvfsRun_eq hvalid hcfg hby temps h
    refine ⟨s', _, hrun, h', fun c => ?_⟩
    -- every target is in range, so the lag after them is
    refine Lag.chase_mem_Icc (h0 c) (h1 c) (fun x hx => ?_) (hrange c)
    obtain ⟨t, _, rfl⟩ := List.mem_map.mp hx
    exact (hvalid c).target_mem (t c)
  · intro hot cool s₁ s₂ freq₁ freq₂ htemps h₁ h₂ hle
    obtain ⟨s₁', hrun₁, h₁'⟩ := dvfsRun_eq hvalid hcfg hby hot h₁
    obtain ⟨s₂', hrun₂, h₂'⟩ := dvfsRun_eq hvalid hcfg hby cool h₂
    refine ⟨s₁', s₂', _, _, hrun₁, hrun₂, h₁', h₂', fun c => ?_⟩
    exact Lag.chase_mono (h0 c) (h1 c) (targets_ordered (hvalid c) c htemps)
      (hle c)

/-- A library for the example, right at `exp(-0.5)`. -/
def halfDecay : FloatVal.Libm :=
  ⟨fun _ => .fin 0.6065306597126334, fun _ _ => .fin 1⟩

/-- Both frequencies lag by a second. -/
def lagging : ScenarioConfig where
  __ := ScenarioConfig.still
  dvfs :=
    ⟨⟨.fin 70, .fin 80, .fin 1, .fin 1⟩, ⟨.fin 70, .fin 80, .fin 1, .fin 1⟩⟩

def laggingGovernor : Cluster → Governor
  | .cpu => ⟨70, 80, 1, 1, 1000, 2000⟩
  | .gpu => ⟨70, 80, 1, 1, 400, 800⟩

/-- Half a second at 75 degrees against one at 60. -/
theorem dvfs_in_range_antitone_lagging :
    ∃ s₁ s₂ freq₁ freq₂,
      dvfsRun halfDecay lagging (.fin (1 / 2))
          (.fromConfig lagging.initialState) [fun _ => 75] = some s₁
        ∧ dvfsRun halfDecay lagging (.fin (1 / 2))
            (.fromConfig lagging.initialState) [fun _ => 60] = some s₂
        ∧ AtFreqs laggingGovernor s₁ freq₁ ∧ AtFreqs laggingGovernor s₂ freq₂
        ∧ ∀ c, freq₁ c ≤ freq₂ c := by
  have hvalid : ∀ c, (laggingGovernor c).Valid := by
    intro c
    cases c <;> exact ⟨by decide, by decide, by decide, by decide⟩
  have hcfg : Configured lagging laggingGovernor := by
    intro c
    cases c <;> rfl
  have hdecay : ∀ c, Decaying halfDecay (laggingGovernor c).tauS (1 / 2) :=
    fun _ _ => ⟨0.6065306597126334, by norm_num, by norm_num, rfl⟩
  have hstart : AtFreqs laggingGovernor (.fromConfig lagging.initialState)
      fun c => (laggingGovernor c).maxFreq := by
    constructor
    all_goals
      intro c
      cases c <;> rfl
  refine (dvfs_in_range_antitone halfDecay lagging laggingGovernor (1 / 2)
    hvalid hcfg hdecay).2 _ _ _ _ _ _ ?_ hstart hstart fun _ => le_rfl
  exact .cons (fun _ => by norm_num) .nil

end ArgusManager.Sim
