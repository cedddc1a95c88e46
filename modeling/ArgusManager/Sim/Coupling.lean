/-
  ArgusManager.Sim.Coupling
  ─────────────────────────
  **Heat between the clusters** (`passive_dynamics`, `src/sim/physics.rs`).

  Each cluster lags towards the temperature its load heats it to; then heat
  flows both ways between the clusters.  Both flows are computed from the
  temperatures before either, so together they are one lag of each cluster
  after the other (`couple_fin`): what one loses the other gets, and nothing
  becomes hotter or colder than what was there (`thermal_maximum_principle`).
-/
import ArgusManager.Sim.Dvfs

namespace ArgusManager.Sim

/-! ## §1. The two stages. -/

variable (m : FloatVal.Libm)

/-- The temperature that the load and the frequency heat a cluster to. -/
def heatingTarget (cfg : ScenarioConfig) (s : PhysicalState) :
    Cluster → FloatVal
  | .cpu => clusterTarget m cfg.passiveDynamics.cpuClusterThermalC
      "engine_cpu_pct_coeff" "cpu_freq_mhz_exp" (.fin (1 / 20)) (.fin (8 / 5))
      (s.num .engineCpuPct + s.num .externalCpuPct)
      (s.num .cpuFreqMhz / s.num .cpuMaxFreqMhz)
  | .gpu => clusterTarget m cfg.passiveDynamics.gpuClusterThermalC
      "engine_gpu_pct_coeff" "gpu_freq_mhz_exp" (.fin (9 / 100)) (.fin (7 / 5))
      (s.num .engineGpuPct + s.num .externalGpuPct)
      (s.num .gpuFreqMhz / s.num .gpuMaxFreqMhz)

def heatingTauS (cfg : ScenarioConfig) : Cluster → FloatVal
  | .cpu => cfg.passiveDynamics.cpuClusterThermalC.tauS
  | .gpu => cfg.passiveDynamics.gpuClusterThermalC.tauS

/-- A cluster's temperature after its lag. -/
def laggedThermal (cfg : ScenarioConfig) (dtS : FloatVal) (s : PhysicalState)
    (c : Cluster) : FloatVal :=
  lagStep m (s.num c.thermal) (heatingTarget m cfg s c) (heatingTauS cfg c) dtS

/-- Both temperatures after the coupling. -/
def couple (coupling : ThermalCoupling) (dtS cpu gpu : FloatVal) :
    FloatVal × FloatVal :=
  (cpu - coupling.cpuToGpu * (cpu - gpu) * dtS
      + coupling.gpuToCpu * (gpu - cpu) * dtS,
    gpu + coupling.cpuToGpu * (cpu - gpu) * dtS
      - coupling.gpuToCpu * (gpu - cpu) * dtS)

/-- **The temperatures are lagged, then coupled.** -/
theorem clusterThermals_eq (cfg : ScenarioConfig) (dtS : FloatVal)
    (s : PhysicalState) :
    clusterThermals m cfg dtS s
      = couple cfg.passiveDynamics.thermalCoupling dtS
          (laggedThermal m cfg dtS s .cpu) (laggedThermal m cfg dtS s .gpu) :=
  rfl

/-- The passive phase writes both. -/
theorem passiveDynamics_thermal (cfg : ScenarioConfig)
    (engine : EngineStateModel) (dtS : FloatVal) (s : PhysicalState) :
    (passiveDynamics m cfg engine dtS s).num .cpuClusterThermalC
        = (clusterThermals m cfg dtS s).1
      ∧ (passiveDynamics m cfg engine dtS s).num .gpuClusterThermalC
        = (clusterThermals m cfg dtS s).2 :=
  ⟨rfl, rfl⟩

/-! ## §2. Numbers. -/

/-- A number between two others. -/
def Within (lo hi : ℚ) (x : FloatVal) : Prop :=
  ∃ q ∈ Set.Icc lo hi, x = .fin q

/-- A lag of a positive time constant leaves a share of the way. -/
def Damps (tauS dtS : FloatVal) : Prop :=
  FloatVal.le tauS (.fin 0) = false →
    ∃ e : ℚ, 0 ≤ e ∧ e ≤ 1 ∧ m.exp (-dtS / tauS) = .fin e

variable {m}

/-- A lag between numbers is one of some decay. -/
theorem Damps.toward {tauS dtS : FloatVal} (h : Damps m tauS dtS) :
    ∃ e : ℚ, 0 ≤ e ∧ e ≤ 1 ∧ ∀ x t : ℚ,
      lagStep m (.fin x) (.fin t) tauS dtS = .fin (Lag.toward e x t) := by
  cases htau : FloatVal.le tauS (.fin 0) with
  | true =>
      refine ⟨0, le_rfl, zero_le_one, fun x t => ?_⟩
      rw [Lag.toward_zero]
      exact lagStep_jump htau (.fin x) (.fin t) dtS
  | false =>
      obtain ⟨e, h0, h1, hexp⟩ := h htau
      exact ⟨e, h0, h1, lagStep_of_exp htau hexp⟩

/-- What both flows leave: each cluster has gone a part of the way to the
other. -/
theorem couple_fin (a b dt x y : ℚ) :
    couple ⟨.fin a, .fin b⟩ (.fin dt) (.fin x) (.fin y)
      = (.fin (Lag.toward (1 - (a + b) * dt) x y),
          .fin (Lag.toward (1 - (a + b) * dt) y x)) := by
  unfold couple
  simp only [FloatVal.fin_sub, FloatVal.fin_mul, FloatVal.fin_add]
  have hcpu : x - a * (x - y) * dt + b * (y - x) * dt
      = Lag.toward (1 - (a + b) * dt) x y := by
    unfold Lag.toward
    ring
  have hgpu : y + a * (x - y) * dt - b * (y - x) * dt
      = Lag.toward (1 - (a + b) * dt) y x := by
    unfold Lag.toward
    ring
  rw [hcpu, hgpu]

/-! ## §3. The maximum principle. -/

section Principle

variable {cfg : ScenarioConfig} {s : PhysicalState} {a b dt lo hi : ℚ}

/-- Flows that together pass on no more than the whole gap in one tick. -/
structure Conducts (cfg : ScenarioConfig) (a b dt : ℚ) : Prop where
  coupling_eq : cfg.passiveDynamics.thermalCoupling = ⟨.fin a, .fin b⟩
  cpu_nonneg : 0 ≤ a
  gpu_nonneg : 0 ≤ b
  dt_nonneg : 0 ≤ dt
  share_le_one : (a + b) * dt ≤ 1

theorem Conducts.keeps (h : Conducts cfg a b dt) :
    0 ≤ 1 - (a + b) * dt ∧ 1 - (a + b) * dt ≤ 1 := by
  have hshare : 0 ≤ (a + b) * dt :=
    mul_nonneg (add_nonneg h.cpu_nonneg h.gpu_nonneg) h.dt_nonneg
  exact ⟨sub_nonneg.mpr h.share_le_one, sub_le_self 1 hshare⟩

/-- A lag stays in every range with its temperature and its target. -/
theorem laggedThermal_within {dtS : FloatVal} {c : Cluster}
    (hdamps : Damps m (heatingTauS cfg c) dtS)
    (htemp : Within lo hi (s.num c.thermal))
    (htarget : Within lo hi (heatingTarget m cfg s c)) :
    Within lo hi (laggedThermal m cfg dtS s c) := by
  obtain ⟨x, hx, htemp⟩ := htemp
  obtain ⟨t, ht, htarget⟩ := htarget
  obtain ⟨e, h0, h1, hlag⟩ := hdamps.toward
  refine ⟨Lag.toward e x t, Lag.toward_mem_Icc h0 h1 hx ht, ?_⟩
  unfold laggedThermal
  rw [htemp, htarget, hlag]

/-- What the passive phase makes of the lagged temperatures. -/
theorem passiveDynamics_coupled (h : Conducts cfg a b dt)
    (engine : EngineStateModel) {x y : ℚ}
    (hx : laggedThermal m cfg (.fin dt) s .cpu = .fin x)
    (hy : laggedThermal m cfg (.fin dt) s .gpu = .fin y) :
    (passiveDynamics m cfg engine (.fin dt) s).num .cpuClusterThermalC
        = .fin (Lag.toward (1 - (a + b) * dt) x y)
      ∧ (passiveDynamics m cfg engine (.fin dt) s).num .gpuClusterThermalC
        = .fin (Lag.toward (1 - (a + b) * dt) y x) := by
  obtain ⟨hcpu, hgpu⟩ := passiveDynamics_thermal m cfg engine (.fin dt) s
  rw [hcpu, hgpu, clusterThermals_eq, h.coupling_eq, hx, hy, couple_fin]
  exact ⟨rfl, rfl⟩

/-- **Temperatures and targets in a range leave temperatures in the range.** -/
theorem passiveDynamics_within (h : Conducts cfg a b dt)
    (hdamps : ∀ c, Damps m (heatingTauS cfg c) (.fin dt))
    (engine : EngineStateModel)
    (htemps : ∀ c : Cluster, Within lo hi (s.num c.thermal))
    (htargets : ∀ c, Within lo hi (heatingTarget m cfg s c)) (c : Cluster) :
    Within lo hi
      ((passiveDynamics m cfg engine (.fin dt) s).num c.thermal) := by
  obtain ⟨h0, h1⟩ := h.keeps
  obtain ⟨x, hx, hcpu⟩ :=
    laggedThermal_within (hdamps .cpu) (htemps .cpu) (htargets .cpu)
  obtain ⟨y, hy, hgpu⟩ :=
    laggedThermal_within (hdamps .gpu) (htemps .gpu) (htargets .gpu)
  obtain ⟨hcpu, hgpu⟩ := passiveDynamics_coupled h engine hcpu hgpu
  cases c with
  | cpu => exact ⟨_, Lag.toward_mem_Icc h0 h1 hx hy, hcpu⟩
  | gpu => exact ⟨_, Lag.toward_mem_Icc h0 h1 hy hx, hgpu⟩

/-- **The thermal maximum principle**, for every state and configuration:
temperatures and targets in a range leave temperatures in the range, and the
coupling keeps the sum of what the lags left and does not widen its gap. -/
theorem thermal_maximum_principle (m : FloatVal.Libm) (cfg : ScenarioConfig)
    (engine : EngineStateModel) (s : PhysicalState) (a b dt lo hi : ℚ)
    (hconducts : Conducts cfg a b dt)
    (hdamps : ∀ c, Damps m (heatingTauS cfg c) (.fin dt))
    (htemps : ∀ c : Cluster, Within lo hi (s.num c.thermal))
    (htargets : ∀ c, Within lo hi (heatingTarget m cfg s c)) :
    (∀ c : Cluster,
      Within lo hi ((passiveDynamics m cfg engine (.fin dt) s).num c.thermal))
    ∧ ∃ lagged coupled : Cluster → ℚ,
        (∀ c, laggedThermal m cfg (.fin dt) s c = .fin (lagged c))
        ∧ (∀ c : Cluster,
          (passiveDynamics m cfg engine (.fin dt) s).num c.thermal
            = .fin (coupled c))
        ∧ coupled .cpu + coupled .gpu = lagged .cpu + lagged .gpu
        ∧ |coupled .cpu - coupled .gpu| ≤ |lagged .cpu - lagged .gpu| := by
  refine ⟨passiveDynamics_within hconducts hdamps engine htemps htargets, ?_⟩
  obtain ⟨h0, h1⟩ := hconducts.keeps
  choose lagged _ hlagged using fun c =>
    laggedThermal_within (hdamps c) (htemps c) (htargets c)
  obtain ⟨hcpu, hgpu⟩ := passiveDynamics_coupled hconducts engine
    (hlagged .cpu) (hlagged .gpu)
  refine ⟨lagged, fun
    | .cpu => Lag.toward (1 - (a + b) * dt) (lagged .cpu) (lagged .gpu)
    | .gpu => Lag.toward (1 - (a + b) * dt) (lagged .gpu) (lagged .cpu),
    hlagged, ?_, ?_, ?_⟩
  · intro c
    cases c with
    | cpu => exact hcpu
    | gpu => exact hgpu
  · exact Lag.toward_add_toward _ _ _
  · exact Lag.abs_toward_sub_toward_le h0 h1 _ _

end Principle

/-- Both clusters lag by a second, and heat flows both ways. -/
def conducting : ScenarioConfig where
  __ := ScenarioConfig.still
  passiveDynamics :=
    { ScenarioConfig.still.passiveDynamics with
      cpuClusterThermalC := ⟨.fin 50, .fin 1, .empty⟩
      gpuClusterThermalC := ⟨.fin 30, .fin 1, .empty⟩
      thermalCoupling := ⟨.fin (1 / 10), .fin (1 / 20)⟩ }

/-- Half a second later. -/
def conducted : PhysicalState :=
  passiveDynamics halfDecay conducting
    (engineFromConfig conducting.initialState) (.fin (1 / 2))
    (.fromConfig conducting.initialState)

/-- At full frequency the CPU is heated to 60 degrees, the GPU to 40. -/
theorem thermal_maximum_principle_conducting :
    Within 40 60 (conducted.num Cluster.cpu.thermal)
      ∧ Within 40 60 (conducted.num Cluster.gpu.thermal) := by
  have hconducts : Conducts conducting (1 / 10) (1 / 20) (1 / 2) :=
    ⟨rfl, by norm_num, by norm_num, by norm_num, by norm_num⟩
  have hdamps : ∀ c, Damps halfDecay (heatingTauS conducting c)
      (.fin (1 / 2)) :=
    fun _ _ => ⟨0.6065306597126334, by norm_num, by norm_num, rfl⟩
  have hboth := (thermal_maximum_principle halfDecay conducting
    (engineFromConfig conducting.initialState)
    (.fromConfig conducting.initialState) _ _ _ 40 60
    hconducts hdamps (fun c => ?_) fun c => ?_).1
  · exact ⟨hboth .cpu, hboth .gpu⟩
  · exact ⟨40, ⟨by norm_num, by norm_num⟩, by cases c <;> rfl⟩
  · have hfast : (FloatVal.fin 1 - .fin (1 / 2)).max (.fin 0) * .fin 20
        = .fin 10 := by
      simp
      norm_num
    cases c with
    | cpu =>
        refine ⟨60, ⟨by norm_num, by norm_num⟩, ?_⟩
        show FloatVal.fin 50 + .fin (1 / 20) * (.fin 0 + .fin 0)
          + (FloatVal.fin 1 - .fin (1 / 2)).max (.fin 0) * .fin 20 = _
        rw [hfast]
        simp
        norm_num
    | gpu =>
        refine ⟨40, ⟨by norm_num, by norm_num⟩, ?_⟩
        show FloatVal.fin 30 + .fin (9 / 100) * (.fin 0 + .fin 0)
          + (FloatVal.fin 1 - .fin (1 / 2)).max (.fin 0) * .fin 20 = _
        rw [hfast]
        simp
        norm_num

/-! ## §4. Runs. -/

/-- A state with the temperatures of another. -/
def withThermals (s thermals : PhysicalState) : PhysicalState :=
  (s.setField .cpuClusterThermalC
    (thermals.num .cpuClusterThermalC)).setField .gpuClusterThermalC
      (thermals.num .gpuClusterThermalC)

@[simp] theorem withThermals_thermal (s thermals : PhysicalState)
    (c : Cluster) :
    (withThermals s thermals).num c.thermal = thermals.num c.thermal := by
  cases c with
  | cpu => rfl
  | gpu => rfl

/-- Heating does not look at the temperatures. -/
@[simp] theorem heatingTarget_withThermals (m : FloatVal.Libm)
    (cfg : ScenarioConfig) (s thermals : PhysicalState) (c : Cluster) :
    heatingTarget m cfg (withThermals s thermals) c
      = heatingTarget m cfg s c := by
  cases c with
  | cpu => rfl
  | gpu => rfl

/-- Passive phases, each in an engine's state and with whatever loads and
frequencies the other phases have left. -/
def passiveRun (m : FloatVal.Libm) (cfg : ScenarioConfig) (dtS : FloatVal)
    (s : PhysicalState) (phases : List (EngineStateModel × PhysicalState)) :
    PhysicalState :=
  phases.foldl
    (fun s p => passiveDynamics m cfg p.1 dtS (withThermals p.2 s)) s

/-- **Over any run the temperatures stay in the range of the targets** and of
where they started. -/
theorem passiveRun_within {m : FloatVal.Libm} {cfg : ScenarioConfig}
    {a b dt lo hi : ℚ} (h : Conducts cfg a b dt)
    (hdamps : ∀ c, Damps m (heatingTauS cfg c) (.fin dt))
    (phases : List (EngineStateModel × PhysicalState))
    (htargets : ∀ p ∈ phases, ∀ c, Within lo hi (heatingTarget m cfg p.2 c))
    {s : PhysicalState}
    (htemps : ∀ c : Cluster, Within lo hi (s.num c.thermal)) (c : Cluster) :
    Within lo hi ((passiveRun m cfg (.fin dt) s phases).num c.thermal) := by
  induction phases generalizing s with
  | nil => exact htemps c
  | cons p phases ih =>
      obtain ⟨htarget, hrest⟩ := List.forall_mem_cons.mp htargets
      apply ih hrest
      intro c
      apply passiveDynamics_within h hdamps
      · simpa using htemps
      · simpa using htarget

end ArgusManager.Sim
