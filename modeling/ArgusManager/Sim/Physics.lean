/-
  ArgusManager.Sim.Physics
  ────────────────────────
  First-order lags, DVFS, passive dynamics and external injections
  (`src/sim/physics.rs`), over a mathematical library `m`.

  `none` is a panic.
-/
import ArgusManager.Float.Round
import ArgusManager.Lib.Lag
import ArgusManager.Sim.State

namespace ArgusManager.Sim

variable (m : FloatVal.Libm)

/-! ## §1. The lag. -/

/-- `lag_step`. -/
def lagStep (current target tauS dtS : FloatVal) : FloatVal :=
  if FloatVal.le tauS (.fin 0) then target
  else current + (target - current) * (.fin 1 - m.exp (-dtS / tauS))

@[simp] theorem lagStep_zero (current target dtS : FloatVal) :
    lagStep m current target (.fin 0) dtS = target :=
  if_pos (by simp)

/-- Without a positive time constant the target is there at once. -/
theorem lagStep_jump {m : FloatVal.Libm} {tauS : FloatVal}
    (htau : FloatVal.le tauS (.fin 0) = true) (current target dtS : FloatVal) :
    lagStep m current target tauS dtS = target :=
  if_pos htau

/-- Else a lag step is one of the decay that `exp` gives. -/
theorem lagStep_of_exp {m : FloatVal.Libm} {tauS dtS : FloatVal} {e : ℚ}
    (htau : FloatVal.le tauS (.fin 0) = false)
    (hexp : m.exp (-dtS / tauS) = .fin e) (current target : ℚ) :
    lagStep m (.fin current) (.fin target) tauS dtS
      = .fin (Lag.toward e current target) := by
  unfold lagStep
  rw [if_neg (by rw [htau]; exact Bool.false_ne_true), hexp, FloatVal.fin_sub,
    FloatVal.fin_sub, FloatVal.fin_mul, FloatVal.fin_add]
  rfl

/-- **With a positive time constant a lag step is one of the decay that `exp`
gives.** -/
theorem lagStep_decay {m : FloatVal.Libm} {tauS dtS e : ℚ} (htau : 0 < tauS)
    (hexp : m.exp (.fin (-dtS / tauS)) = .fin e) (current target : ℚ) :
    lagStep m (.fin current) (.fin target) (.fin tauS) (.fin dtS)
      = .fin (Lag.toward e current target) := by
  refine lagStep_of_exp ?_ ?_ current target
  · rw [FloatVal.le_fin]
    exact decide_eq_false (not_le.mpr htau)
  · rwa [FloatVal.neg_fin, FloatVal.fin_div _ htau.ne']

/-! ## §2. DVFS. -/

/-- `dvfs_target_freq`. -/
def dvfsTargetFreq (thermalC soft hard kThermal minFreq maxFreq : FloatVal) :
    Option FloatVal :=
  if FloatVal.lt thermalC soft then some maxFreq
  else if FloatVal.le hard thermalC then some minFreq
  else
    let ratio := .fin 1 - kThermal * (thermalC - soft) / (hard - soft)
    (ratio.clamp (minFreq / maxFreq) (.fin 1)).map (maxFreq * ·)

/-- `dvfs_update`. -/
def dvfsUpdate (cfg : ScenarioConfig) (dtS : FloatVal) (s : PhysicalState) :
    Option PhysicalState := do
  let cpu ← dvfsTargetFreq (s.num .cpuClusterThermalC)
    cfg.dvfs.cpu.softThresholdC cfg.dvfs.cpu.hardThresholdC
    cfg.dvfs.cpu.kThermal (s.num .cpuMinFreqMhz) (s.num .cpuMaxFreqMhz)
  let s := s.setField .cpuFreqMhz
    (lagStep m (s.num .cpuFreqMhz) cpu cfg.dvfs.cpu.tauS dtS)
  let gpu ← dvfsTargetFreq (s.num .gpuClusterThermalC)
    cfg.dvfs.gpu.softThresholdC cfg.dvfs.gpu.hardThresholdC
    cfg.dvfs.gpu.kThermal (s.num .gpuMinFreqMhz) (s.num .gpuMaxFreqMhz)
  return s.setField .gpuFreqMhz
    (lagStep m (s.num .gpuFreqMhz) gpu cfg.dvfs.gpu.tauS dtS)

/-- The bounds between which the frequency of a cluster is clamped are in
order, where they are used. -/
def ClampOrdered (cluster : DvfsCluster) (thermalC minFreq maxFreq : FloatVal) :
    Prop :=
  FloatVal.lt thermalC cluster.softThresholdC
    ∨ FloatVal.le cluster.hardThresholdC thermalC
    ∨ FloatVal.le (minFreq / maxFreq) (.fin 1)

structure DvfsOrdered (cfg : ScenarioConfig) (s : PhysicalState) : Prop where
  cpu : ClampOrdered cfg.dvfs.cpu (s.num .cpuClusterThermalC)
    (s.num .cpuMinFreqMhz) (s.num .cpuMaxFreqMhz)
  gpu : ClampOrdered cfg.dvfs.gpu (s.num .gpuClusterThermalC)
    (s.num .gpuMinFreqMhz) (s.num .gpuMaxFreqMhz)

/-- **When the target frequency panics.** -/
theorem dvfsTargetFreq_isSome (cluster : DvfsCluster)
    (thermalC minFreq maxFreq : FloatVal) :
    (dvfsTargetFreq thermalC cluster.softThresholdC cluster.hardThresholdC
      cluster.kThermal minFreq maxFreq).isSome
      ↔ ClampOrdered cluster thermalC minFreq maxFreq := by
  unfold dvfsTargetFreq ClampOrdered FloatVal.clamp
  split
  next hsoft => simp [hsoft]
  next hsoft =>
    split
    next hhard => simp [hhard]
    next hhard =>
      dsimp only
      split
      next hratio => simp [hratio]
      next hratio => simp [hsoft, hhard, hratio]

theorem dvfsUpdate_isSome (cfg : ScenarioConfig) (dtS : FloatVal)
    (s : PhysicalState) :
    (dvfsUpdate m cfg dtS s).isSome ↔ DvfsOrdered cfg s := by
  have hcpu := dvfsTargetFreq_isSome cfg.dvfs.cpu (s.num .cpuClusterThermalC)
    (s.num .cpuMinFreqMhz) (s.num .cpuMaxFreqMhz)
  have hgpu := dvfsTargetFreq_isSome cfg.dvfs.gpu (s.num .gpuClusterThermalC)
    (s.num .gpuMinFreqMhz) (s.num .gpuMaxFreqMhz)
  unfold dvfsUpdate
  cases hc : dvfsTargetFreq (s.num .cpuClusterThermalC)
      cfg.dvfs.cpu.softThresholdC cfg.dvfs.cpu.hardThresholdC
      cfg.dvfs.cpu.kThermal (s.num .cpuMinFreqMhz)
      (s.num .cpuMaxFreqMhz) with
  | none =>
      rw [hc] at hcpu
      constructor
      · intro h
        cases h
      · intro h
        exact hcpu.mpr h.cpu
  | some cpu =>
      rw [hc] at hcpu
      have hcpu := hcpu.mp rfl
      -- the GPU's target does not see the new CPU frequency
      show (Option.bind (dvfsTargetFreq (s.num .gpuClusterThermalC)
        cfg.dvfs.gpu.softThresholdC cfg.dvfs.gpu.hardThresholdC
        cfg.dvfs.gpu.kThermal (s.num .gpuMinFreqMhz)
        (s.num .gpuMaxFreqMhz)) _).isSome ↔ _
      cases hg : dvfsTargetFreq (s.num .gpuClusterThermalC)
          cfg.dvfs.gpu.softThresholdC cfg.dvfs.gpu.hardThresholdC
          cfg.dvfs.gpu.kThermal (s.num .gpuMinFreqMhz)
          (s.num .gpuMaxFreqMhz) with
      | none =>
          rw [hg] at hgpu
          constructor
          · intro h
            cases h
          · intro h
            exact hgpu.mpr h.gpu
      | some gpu =>
          rw [hg] at hgpu
          exact ⟨fun _ => ⟨hcpu, hgpu.mp rfl⟩, fun _ => rfl⟩

/-! ## §3. Passive dynamics. -/

/-- The temperature a cluster tends to under its load and frequency. -/
def clusterTarget (dyn : ClusterThermalDynamics) (coeffKey expKey : String)
    (coeff freqExp load freqRatio : FloatVal) : FloatVal :=
  dyn.baseline + (dyn.heating.get coeffKey).getD coeff * load
    + (m.powf freqRatio ((dyn.heating.get expKey).getD freqExp)
        - .fin (1 / 2)).max (.fin 0) * .fin 20

/-- Both cluster temperatures after their lags and the coupling. -/
def clusterThermals (cfg : ScenarioConfig) (dtS : FloatVal)
    (s : PhysicalState) : FloatVal × FloatVal :=
  let cpuDyn := cfg.passiveDynamics.cpuClusterThermalC
  let gpuDyn := cfg.passiveDynamics.gpuClusterThermalC
  let newCpu := lagStep m (s.num .cpuClusterThermalC)
    (clusterTarget m cpuDyn "engine_cpu_pct_coeff" "cpu_freq_mhz_exp"
      (.fin (1 / 20)) (.fin (8 / 5))
      (s.num .engineCpuPct + s.num .externalCpuPct)
      (s.num .cpuFreqMhz / s.num .cpuMaxFreqMhz))
    cpuDyn.tauS dtS
  let newGpu := lagStep m (s.num .gpuClusterThermalC)
    (clusterTarget m gpuDyn "engine_gpu_pct_coeff" "gpu_freq_mhz_exp"
      (.fin (9 / 100)) (.fin (7 / 5))
      (s.num .engineGpuPct + s.num .externalGpuPct)
      (s.num .gpuFreqMhz / s.num .gpuMaxFreqMhz))
    gpuDyn.tauS dtS
  let cpuToGpu := cfg.passiveDynamics.thermalCoupling.cpuToGpu
  let gpuToCpu := cfg.passiveDynamics.thermalCoupling.gpuToCpu
  let gap := newCpu - newGpu
  let gap2 := newGpu - newCpu
  (newCpu - cpuToGpu * gap * dtS + gpuToCpu * gap2 * dtS,
    newGpu + cpuToGpu * gap * dtS - gpuToCpu * gap2 * dtS)

/-- The tokens of one tick; one if there is no throughput yet. -/
def tokensPerDt (dtS : FloatVal) (s : PhysicalState) : FloatVal :=
  if FloatVal.lt (.fin 0) (s.num .throughputTps) then
    s.num .throughputTps * dtS
  else .fin 1

/-- The cache after its growth, if the engine is at work and the growth of its
dtype is known; `applies_when` is not looked at. -/
def grownKvCache (cfg : ScenarioConfig) (engine : EngineStateModel)
    (dtS : FloatVal) (s : PhysicalState) : FloatVal :=
  if engine.phase = "decode" ∨ engine.phase = "prefill" then
    match cfg.passiveDynamics.kvCacheBytes.growthPerToken.get s.kvDtype with
    | some bytesPerToken =>
        (s.num .kvCacheBytes
          + .fin bytesPerToken * tokensPerDt dtS s).min
            (s.num .kvCacheCapacityBytes)
    | none => s.num .kvCacheBytes
  else s.num .kvCacheBytes

/-- `passive_dynamics`. -/
def passiveDynamics (cfg : ScenarioConfig) (engine : EngineStateModel)
    (dtS : FloatVal) (s : PhysicalState) : PhysicalState :=
  let thermals := clusterThermals m cfg dtS s
  let kv := grownKvCache cfg engine dtS s
  ((s.setField .cpuClusterThermalC thermals.1).setField .gpuClusterThermalC
    thermals.2).setField .kvCacheBytes kv

/-! ## §4. External injections. -/

/-- The window of an injection is open; its end is an `f64` sum. -/
def ExternalInjection.inWindow (inj : ExternalInjection) (nowS : FloatVal) :
    Bool :=
  FloatVal.le inj.tStart nowS
    && FloatVal.lt nowS (inj.tStart + inj.duration).toF64

/-- The `delta`, else the `delta_mb`. -/
def ExternalInjection.amount (inj : ExternalInjection) : Option FloatVal :=
  inj.delta.or inj.deltaMb

/-- One pass of the loop of `external_injection_apply`. -/
def applyInjection (nowS dtS : FloatVal) (s : PhysicalState)
    (inj : ExternalInjection) : PhysicalState :=
  if inj.inWindow nowS then
    match inj.amount with
    | none => s
    | some delta =>
        if inj.op = "add" then
          match s.getF64 inj.var with
          | some current =>
              s.setF64 inj.var
                (if FloatVal.lt (.fin 0) inj.tauS then
                  lagStep m current (current + delta) inj.tauS dtS
                else current + delta)
          | none => s
        else if inj.op = "set" then
          s.setF64 inj.var
            (if FloatVal.lt (.fin 0) inj.tauS then
              match s.getF64 inj.var with
              | some current => lagStep m current delta inj.tauS dtS
              | none => delta
            else delta)
        else s
  else s

/-- `external_injection_apply`. -/
def externalInjectionApply (cfg : ScenarioConfig) (nowS dtS : FloatVal)
    (s : PhysicalState) : PhysicalState :=
  cfg.externalInjections.foldl (applyInjection m nowS dtS) s

/-! ## §5. What the phases leave alone. -/

variable {m}

/-- DVFS only moves the two frequencies. -/
theorem dvfsUpdate_frame {cfg : ScenarioConfig} {dtS : FloatVal}
    {s s' : PhysicalState} (h : dvfsUpdate m cfg dtS s = some s') {f : Field}
    (hcpu : f ≠ .cpuFreqMhz) (hgpu : f ≠ .gpuFreqMhz) :
    s'.num f = s.num f := by
  unfold dvfsUpdate at h
  obtain ⟨cpu, _, h⟩ := Option.bind_eq_some_iff.mp h
  obtain ⟨gpu, _, h⟩ := Option.bind_eq_some_iff.mp h
  rw [← Option.some.inj h, PhysicalState.setField_of_ne _ hgpu,
    PhysicalState.setField_of_ne _ hcpu]

theorem dvfsUpdate_kvDtype {cfg : ScenarioConfig} {dtS : FloatVal}
    {s s' : PhysicalState} (h : dvfsUpdate m cfg dtS s = some s') :
    s'.kvDtype = s.kvDtype := by
  unfold dvfsUpdate at h
  obtain ⟨cpu, _, h⟩ := Option.bind_eq_some_iff.mp h
  obtain ⟨gpu, _, h⟩ := Option.bind_eq_some_iff.mp h
  rw [← Option.some.inj h]
  rfl

/-- The passive phase moves the cluster temperatures and the cache. -/
theorem passiveDynamics_frame (cfg : ScenarioConfig)
    (engine : EngineStateModel) (dtS : FloatVal) (s : PhysicalState)
    {f : Field} (hcpu : f ≠ .cpuClusterThermalC)
    (hgpu : f ≠ .gpuClusterThermalC) (hkv : f ≠ .kvCacheBytes) :
    (passiveDynamics m cfg engine dtS s).num f = s.num f := by
  unfold passiveDynamics
  dsimp only
  rw [PhysicalState.setField_of_ne _ hkv, PhysicalState.setField_of_ne _ hgpu,
    PhysicalState.setField_of_ne _ hcpu]

@[simp] theorem passiveDynamics_kvCacheBytes (cfg : ScenarioConfig)
    (engine : EngineStateModel) (dtS : FloatVal) (s : PhysicalState) :
    (passiveDynamics m cfg engine dtS s).num .kvCacheBytes
      = grownKvCache cfg engine dtS s := by
  unfold passiveDynamics
  exact PhysicalState.setField_self ..

/-- An injection writes its own variable. -/
theorem applyInjection_frame (nowS dtS : FloatVal) (s : PhysicalState)
    {inj : ExternalInjection} {f : Field} (h : f.name ≠ inj.var) :
    (applyInjection m nowS dtS s inj).num f = s.num f := by
  unfold applyInjection
  split
  next =>
    split
    next => rfl
    next =>
      split
      next =>
        split
        next => exact PhysicalState.setF64_of_ne s h _
        next => rfl
      next =>
        split
        next => exact PhysicalState.setF64_of_ne s h _
        next => rfl
  next => rfl

/-- Injections of other variables leave a field alone. -/
theorem injections_frame (nowS dtS : FloatVal) {f : Field}
    {injs : List ExternalInjection} (h : ∀ inj ∈ injs, f.name ≠ inj.var)
    (s : PhysicalState) :
    (injs.foldl (applyInjection m nowS dtS) s).num f = s.num f := by
  induction injs generalizing s with
  | nil => rfl
  | cons inj injs ih =>
      obtain ⟨hinj, hrest⟩ := List.forall_mem_cons.mp h
      rw [List.foldl_cons, ih hrest]
      exact applyInjection_frame nowS dtS s hinj

/-- What an injection makes of a field depends on nothing but the field. -/
theorem applyInjection_congr (nowS dtS : FloatVal) {f : Field}
    {s s' : PhysicalState} (h : s.num f = s'.num f)
    (inj : ExternalInjection) :
    (applyInjection m nowS dtS s inj).num f
      = (applyInjection m nowS dtS s' inj).num f := by
  by_cases hf : f.name = inj.var
  · unfold applyInjection
    rw [← hf, PhysicalState.getF64_name, PhysicalState.getF64_name, h]
    split
    next =>
      split
      next => exact h
      next =>
        split
        next => simp
        next =>
          split
          next => simp
          next => exact h
    next => exact h
  · rw [applyInjection_frame nowS dtS s hf, applyInjection_frame nowS dtS s' hf]
    exact h

/-- Nor does what all of them make of it. -/
theorem injections_congr (nowS dtS : FloatVal) {f : Field}
    (injs : List ExternalInjection) {s s' : PhysicalState}
    (h : s.num f = s'.num f) :
    (injs.foldl (applyInjection m nowS dtS) s).num f
      = (injs.foldl (applyInjection m nowS dtS) s').num f := by
  induction injs generalizing s s' with
  | nil => exact h
  | cons inj injs ih =>
      rw [List.foldl_cons, List.foldl_cons]
      exact ih (applyInjection_congr nowS dtS h inj)

end ArgusManager.Sim
