/-
  ArgusManager.Sim.State
  ──────────────────────
  The physical state, and how it and the engine model get into a context
  (`src/sim/state.rs`).

  The 28 `f64` fields of the state are one function on their names; a field
  is read and written by its name in the source.
-/
import ArgusManager.Sim.Config
import ArgusManager.Sim.Trajectory

namespace ArgusManager.Sim

/-! ## §1. Fields. -/

/-- The `f64` fields of the physical state. -/
inductive Field where
  | kvCacheBytes
  | kvCacheCapacityBytes
  | kvCacheTokens
  | kvCacheTokenCapacity
  | deviceMemoryTotalMb
  | deviceMemoryUsedMb
  | memoryBwUtilizationPct
  | engineCpuPct
  | externalCpuPct
  | cpuFreqMhz
  | cpuMaxFreqMhz
  | cpuMinFreqMhz
  | engineGpuPct
  | externalGpuPct
  | gpuFreqMhz
  | gpuMaxFreqMhz
  | gpuMinFreqMhz
  | thermalC
  | cpuClusterThermalC
  | gpuClusterThermalC
  | throttleThresholdC
  | baseTpsDecodeGpu
  | baseTpsDecodeCpu
  | baseTpsDecodePartition
  | baseTpsPrefillGpu
  | throughputTps
  | tbtMs
  | latencyDegradation
  deriving DecidableEq, Repr

namespace Field

def name : Field → String
  | kvCacheBytes => "kv_cache_bytes"
  | kvCacheCapacityBytes => "kv_cache_capacity_bytes"
  | kvCacheTokens => "kv_cache_tokens"
  | kvCacheTokenCapacity => "kv_cache_token_capacity"
  | deviceMemoryTotalMb => "device_memory_total_mb"
  | deviceMemoryUsedMb => "device_memory_used_mb"
  | memoryBwUtilizationPct => "memory_bw_utilization_pct"
  | engineCpuPct => "engine_cpu_pct"
  | externalCpuPct => "external_cpu_pct"
  | cpuFreqMhz => "cpu_freq_mhz"
  | cpuMaxFreqMhz => "cpu_max_freq_mhz"
  | cpuMinFreqMhz => "cpu_min_freq_mhz"
  | engineGpuPct => "engine_gpu_pct"
  | externalGpuPct => "external_gpu_pct"
  | gpuFreqMhz => "gpu_freq_mhz"
  | gpuMaxFreqMhz => "gpu_max_freq_mhz"
  | gpuMinFreqMhz => "gpu_min_freq_mhz"
  | thermalC => "thermal_c"
  | cpuClusterThermalC => "cpu_cluster_thermal_c"
  | gpuClusterThermalC => "gpu_cluster_thermal_c"
  | throttleThresholdC => "throttle_threshold_c"
  | baseTpsDecodeGpu => "base_tps_decode_gpu"
  | baseTpsDecodeCpu => "base_tps_decode_cpu"
  | baseTpsDecodePartition => "base_tps_decode_partition"
  | baseTpsPrefillGpu => "base_tps_prefill_gpu"
  | throughputTps => "throughput_tps"
  | tbtMs => "tbt_ms"
  | latencyDegradation => "latency_degradation"

/-- The fields in the order they are declared. -/
def all : List Field :=
    [kvCacheBytes, kvCacheCapacityBytes, kvCacheTokens, kvCacheTokenCapacity,
    deviceMemoryTotalMb, deviceMemoryUsedMb, memoryBwUtilizationPct,
    engineCpuPct, externalCpuPct, cpuFreqMhz, cpuMaxFreqMhz, cpuMinFreqMhz,
    engineGpuPct, externalGpuPct, gpuFreqMhz, gpuMaxFreqMhz, gpuMinFreqMhz,
    thermalC, cpuClusterThermalC, gpuClusterThermalC, throttleThresholdC,
    baseTpsDecodeGpu, baseTpsDecodeCpu, baseTpsDecodePartition,
    baseTpsPrefillGpu, throughputTps, tbtMs, latencyDegradation]

def ofName? (name : String) : Option Field :=
  all.find? fun f => f.name == name

@[simp] theorem ofName?_name (f : Field) : ofName? f.name = some f := by
  cases f <;> rfl

theorem ofName?_eq_some {name : String} {f : Field} :
    ofName? name = some f ↔ f.name = name := by
  constructor
  · intro h
    unfold ofName? at h
    simpa using List.find?_some h
  · rintro rfl
    exact ofName?_name f

theorem mem_all (f : Field) : f ∈ all := by
  cases f <;> decide

theorem name_injective {f g : Field} (h : f.name = g.name) : f = g := by
  have hf := ofName?_name f
  rw [h, ofName?_name] at hf
  exact (Option.some.inj hf).symm

/-- No field has the name of a string. -/
theorem not_strVar (f : Field) : StrVar.ofName? f.name = none := by
  cases f <;> rfl

end Field

/-! ## §2. The physical state. -/

structure PhysicalState where
  num : Field → FloatVal
  kvDtype : String

namespace PhysicalState

/-- `from_config`. -/
def fromConfig (init : InitialState) : PhysicalState where
  num
    | .kvCacheBytes => .fin init.kvCacheBytes
    | .kvCacheCapacityBytes => .fin init.kvCacheCapacityBytes
    | .kvCacheTokens => .fin init.kvCacheTokens
    | .kvCacheTokenCapacity => .fin init.kvCacheTokenCapacity
    | .deviceMemoryTotalMb => .fin init.deviceMemoryTotalMb
    | .deviceMemoryUsedMb => .fin init.deviceMemoryUsedMb
    | .memoryBwUtilizationPct => init.memoryBwUtilizationPct
    | .engineCpuPct => init.engineCpuPct
    | .externalCpuPct => init.externalCpuPct
    | .cpuFreqMhz => .fin init.cpuFreqMhz
    | .cpuMaxFreqMhz => .fin init.cpuMaxFreqMhz
    | .cpuMinFreqMhz => .fin init.cpuMinFreqMhz
    | .engineGpuPct => init.engineGpuPct
    | .externalGpuPct => init.externalGpuPct
    | .gpuFreqMhz => .fin init.gpuFreqMhz
    | .gpuMaxFreqMhz => .fin init.gpuMaxFreqMhz
    | .gpuMinFreqMhz => .fin init.gpuMinFreqMhz
    | .thermalC => init.thermalC
    | .cpuClusterThermalC => init.cpuClusterThermalC
    | .gpuClusterThermalC => init.gpuClusterThermalC
    | .throttleThresholdC => init.throttleThresholdC
    | .baseTpsDecodeGpu => init.baseTpsDecodeGpu
    | .baseTpsDecodeCpu => init.baseTpsDecodeCpu
    | .baseTpsDecodePartition => init.baseTpsDecodePartition
    | .baseTpsPrefillGpu => init.baseTpsPrefillGpu
    | .throughputTps => .fin 0
    | .tbtMs => .fin 0
    | .latencyDegradation => .fin 0
  kvDtype := init.kvDtype

def getF64 (name : String) (s : PhysicalState) : Option FloatVal :=
  (Field.ofName? name).map s.num

def setField (f : Field) (x : FloatVal) (s : PhysicalState) : PhysicalState :=
  { s with num := Function.update s.num f x }

/-- `set_f64`; its answer, whether there is such a field, is never looked
at. -/
def setF64 (name : String) (x : FloatVal) (s : PhysicalState) :
    PhysicalState :=
  match Field.ofName? name with
  | some f => s.setField f x
  | none => s

/-- `bind_to_context`. -/
def bindToContext (s : PhysicalState) (ctx : ExprContext) : ExprContext :=
  (ctx.bindNums (Field.all.map fun f => (f.name, s.num f))).setStr .kvDtype
    s.kvDtype

end PhysicalState

/-! ## §3. The engine model. -/

/-- The numbers an engine model binds. -/
def engineNums (e : EngineStateModel) : List (String × FloatVal) :=
  [("partition_ratio", e.partitionRatio),
    ("throttle_delay_ms", e.throttleDelayMs), ("tbt_target_ms", e.tbtTargetMs),
    ("skip_ratio", e.skipRatio),
    ("target_ratio", e.lastEvictRatio.getD (.fin 0)),
    ("delay_ms", e.throttleDelayMs), ("ratio", e.partitionRatio)]

/-- `EngineStateModel::bind_to_context`. -/
def bindEngine (e : EngineStateModel) (ctx : ExprContext) : ExprContext :=
  (((ctx.bindNums (engineNums e)).setStr .activeDevice e.activeDevice).setStr
    .phase e.phase).setStr .device (e.lastSwitchDevice.getD e.activeDevice)

/-- `EngineStateModel::from_config`. -/
def engineFromConfig (init : InitialState) : EngineStateModel where
  activeDevice := init.activeDevice
  activeActions := init.activeActions
  phase := init.phase
  partitionRatio := init.partitionRatio
  throttleDelayMs := init.throttleDelayMs
  tbtTargetMs := init.tbtTargetMs
  skipRatio := .fin 0
  kvQuantBits := none
  lastEvictRatio := none
  lastSwitchDevice := none

/-- A state and an engine model in a context. -/
def bound (s : PhysicalState) (e : EngineStateModel) (ctx : ExprContext) :
    ExprContext :=
  bindEngine e (s.bindToContext ctx)

/-! ## §4. What is bound. -/

theorem lookup_fields (s : PhysicalState) (f : Field) :
    (Field.all.map fun g => (g.name, s.num g)).lookup f.name
      = some (s.num f) := by
  have hfields : ∀ fs : List Field, f ∈ fs →
      (fs.map fun g => (g.name, s.num g)).lookup f.name = some (s.num f) := by
    intro fs hf
    induction fs with
    | nil => exact absurd hf List.not_mem_nil
    | cons g fs ih =>
        rw [List.map_cons, List.lookup_cons]
        by_cases hname : f.name = g.name
        · rw [← Field.name_injective hname, beq_self_eq_true]
        · have hne : f ≠ g := fun heq => hname (congrArg Field.name heq)
          rw [beq_false_of_ne hname]
          exact ih ((List.mem_cons.mp hf).resolve_left hne)
  exact hfields Field.all f.mem_all

theorem engineNums_field (e : EngineStateModel) (f : Field) :
    (engineNums e).lookup f.name = none := by
  cases f <;> rfl

/-- **Every field is bound to its value.** -/
@[simp] theorem bound_field (s : PhysicalState) (e : EngineStateModel)
    (ctx : ExprContext) (f : Field) :
    (bound s e ctx).num f.name = some (s.num f) := by
  show ((engineNums e).lookup f.name).or
    (((Field.all.map fun g => (g.name, s.num g)).lookup f.name).or
      (ctx.num f.name)) = some (s.num f)
  rw [engineNums_field, lookup_fields]
  rfl

/-- The eviction ratio is bound under the name of its parameter. -/
@[simp] theorem bound_targetRatio (s : PhysicalState) (e : EngineStateModel)
    (ctx : ExprContext) :
    (bound s e ctx).num "target_ratio"
      = some (e.lastEvictRatio.getD (.fin 0)) :=
  rfl

namespace PhysicalState

@[simp] theorem getF64_name (s : PhysicalState) (f : Field) :
    s.getF64 f.name = some (s.num f) := by
  unfold getF64
  rw [Field.ofName?_name]
  rfl

@[simp] theorem setF64_name (s : PhysicalState) (f : Field) (x : FloatVal) :
    s.setF64 f.name x = s.setField f x := by
  unfold setF64
  rw [Field.ofName?_name]

@[simp] theorem setField_self (s : PhysicalState) (f : Field) (x : FloatVal) :
    (s.setField f x).num f = x := by
  unfold setField
  exact Function.update_self ..

@[simp] theorem setField_of_ne (s : PhysicalState) {f g : Field} (h : g ≠ f)
    (x : FloatVal) : (s.setField f x).num g = s.num g := by
  unfold setField
  exact Function.update_of_ne h ..

@[simp] theorem setField_kvDtype (s : PhysicalState) (f : Field)
    (x : FloatVal) : (s.setField f x).kvDtype = s.kvDtype :=
  rfl

@[simp] theorem setF64_kvDtype (s : PhysicalState) (name : String)
    (x : FloatVal) : (s.setF64 name x).kvDtype = s.kvDtype := by
  unfold setF64
  split
  next => rfl
  next => rfl

/-- A write under one name leaves the fields of other names alone. -/
theorem setF64_of_ne (s : PhysicalState) {name : String} {f : Field}
    (h : f.name ≠ name) (x : FloatVal) : (s.setF64 name x).num f = s.num f := by
  unfold setF64
  split
  next g hg =>
    refine setField_of_ne s ?_ x
    rintro rfl
    exact h (Field.ofName?_eq_some.mp hg)
  next => rfl

theorem ext_num {s s' : PhysicalState} (hnum : ∀ f, s.num f = s'.num f)
    (hdtype : s.kvDtype = s'.kvDtype) : s = s' := by
  obtain ⟨num, dtype⟩ := s
  obtain ⟨num', dtype'⟩ := s'
  obtain rfl : num = num' := funext hnum
  obtain rfl : dtype = dtype' := hdtype
  rfl

end PhysicalState

end ArgusManager.Sim
