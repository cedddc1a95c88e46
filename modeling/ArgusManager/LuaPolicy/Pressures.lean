/-
  ArgusManager.LuaPolicy.Pressures
  ────────────────────────────────
  **The pressures handed to the script, in every reachable state.**

  Five components are clamped to the unit interval or constant, whatever the
  readings and the configured temperatures.  The sixth, `latency`, is the
  degradation ratio as it comes: in the unit interval exactly while the
  heartbeats' average TBT lies between the baseline and twice the baseline.
-/
import ArgusManager.LuaPolicy.Axes
import ArgusManager.Policy.Tbt

namespace ArgusManager

/-! ## §1. Normalization. -/

/-- `0..1`, as `ctx.pressure` is documented. -/
def InUnit (x : ℚ) : Prop := 0 ≤ x ∧ x ≤ 1

theorem inUnit_zero : InUnit 0 := ⟨le_rfl, zero_le_one⟩

theorem clamp_inUnit (x : ℚ) : InUnit (clamp x 0 1) := by
  unfold clamp
  split_ifs with hlow hhigh
  · exact inUnit_zero
  · exact ⟨zero_le_one, le_rfl⟩
  · exact ⟨not_lt.mp hlow, not_lt.mp hhigh⟩

/-- All six components are in `0..1`. -/
structure Pressure6D.Normalised (p : Pressure6D) : Prop where
  gpu : InUnit p.gpu
  cpu : InUnit p.cpu
  memory : InUnit p.memory
  thermal : InUnit p.thermal
  latency : InUnit p.latency
  mainApp : InUnit p.mainApp

/-- **Everything but the latency is normalized**, for all readings and
temperatures. -/
theorem SignalState.pressure_normalised_iff (s : SignalState)
    (tempSafeC tempCriticalC : ℚ) (latencyRatio : Option ℚ) :
    (s.pressureWithThermal tempSafeC tempCriticalC latencyRatio).Normalised
      ↔ InUnit (latencyRatio.getD 0) := by
  refine ⟨fun h => h.latency, fun hlatency => ?_⟩
  have hthermal : InUnit (s.pressureWithThermal tempSafeC tempCriticalC
      latencyRatio).thermal := by
    unfold pressureWithThermal
    dsimp only
    split_ifs
    · exact clamp_inUnit _
    · exact inUnit_zero
  exact ⟨clamp_inUnit _, clamp_inUnit _, clamp_inUnit _, hthermal, hlatency,
    inUnit_zero⟩

/-! ## §2. The latency ratio. -/

/-- A ratio to a positive baseline is in `0..1` while the average lies between
the baseline and twice the baseline. -/
theorem TbtTracker.ratio_inUnit_iff {t : TbtTracker}
    (h : ∀ b, t.baseline = some b → 0 < b) :
    InUnit (t.degradationRatio.getD 0)
      ↔ ∀ b, t.baseline = some b → b ≤ t.ewma ∧ t.ewma ≤ 2 * b := by
  unfold degradationRatio
  cases hb : t.baseline with
  | none => exact iff_of_true inUnit_zero (by simp)
  | some b =>
      have hpos : 0 < b := h b hb
      rw [Option.map_some, if_pos hpos, Option.getD_some]
      unfold InUnit
      rw [le_div_iff₀ hpos, div_le_iff₀ hpos]
      constructor
      · intro ⟨hlow, hhigh⟩ c hc
        injection hc with hc
        subst hc
        exact ⟨by linarith, by linarith⟩
      · intro hall
        obtain ⟨hlow, hhigh⟩ := hall b rfl
        exact ⟨by linarith, by linarith⟩

/-- The average of the observations lies between the one at the end of the
warm-up and twice that one, once the warm-up is over. -/
def NearBaseline (target : UInt32) (observed : List ℚ) : Prop :=
  TbtTracker.warmup target ≤ observed.length →
    average (observed.take (TbtTracker.warmup target))
        ≤ average (sinceWrap observed)
      ∧ average (sinceWrap observed)
        ≤ 2 * average (observed.take (TbtTracker.warmup target))

/-- For a tracker that has seen positive observations only, that is when its
ratio is in `0..1`. -/
theorem TbtTracker.Tracks.ratio_inUnit_iff {target : UInt32} {vs : List ℚ}
    {t : TbtTracker} (h : Tracks target vs t) (hpos : ∀ v ∈ vs, 0 < v) :
    InUnit (t.degradationRatio.getD 0) ↔ NearBaseline target vs := by
  have hbase : ∀ b, t.baseline = some b → 0 < b := by
    intro b hb
    obtain ⟨_, us, hus, hsub, rfl⟩ :=
      baselineOf_eq_some (h.baseline.symm.trans hb)
    exact average_pos hus fun v hv => hpos v (hsub hv)
  rw [TbtTracker.ratio_inUnit_iff hbase, h.baseline, h.ewma]
  unfold NearBaseline baselineOf
  split
  next hlt => exact iff_of_true (by simp) fun hle => absurd hlt (not_lt.mpr hle)
  next hge =>
    constructor
    · intro hall _
      exact hall _ rfl
    · intro hnear b hb
      injection hb with hb
      subst hb
      exact hnear (not_lt.mp hge)

/-! ## §3. Every reachable state. -/

namespace LuaPolicy

variable {V : Type}

/-- The TBT observation an operation brings, if it brings one. -/
def PolicyOp.observation : PolicyOp V → Option ℚ
  | .updateEngineState (.heartbeat status) => tbtObservation status.tbtMs
  | _ => none

theorem observation_eq_some {op : PolicyOp V} {v : ℚ}
    (h : op.observation = some v) :
    ∃ status, op = .updateEngineState (.heartbeat status)
      ∧ tbtObservation status.tbtMs = some v := by
  cases op with
  | processSignal invoke signal => exact absurd h (by simp [PolicyOp.observation])
  | reloadScript loader path => exact absurd h (by simp [PolicyOp.observation])
  | updateEngineState msg =>
      cases msg with
      | response resp => exact absurd h (by simp [PolicyOp.observation])
      | heartbeat status => exact ⟨status, rfl, h⟩

theorem observations_positive (ops : List (PolicyOp V)) :
    ∀ v ∈ ops.filterMap PolicyOp.observation, 0 < v := by
  intro v hv
  obtain ⟨op, _, hop⟩ := List.mem_filterMap.mp hv
  obtain ⟨status, _, hstatus⟩ := observation_eq_some hop
  exact (tbtObservation_eq_some.mp hstatus).2

/-- One operation feeds the tracker its observation and nothing else. -/
theorem apply_tbt (x : Bindings) (p : LuaPolicy V) (op : PolicyOp V) :
    (p.apply x op).1.triggerEngine.tbt
      = op.observation.elim p.triggerEngine.tbt p.triggerEngine.tbt.observe := by
  have hbook := congrArg (fun b => b.triggerEngine.tbt) (apply_book x p op)
  change (p.apply x op).1.triggerEngine.tbt = _ at hbook
  rw [hbook]
  cases op with
  | processSignal invoke signal => cases signal <;> rfl
  | reloadScript loader path => rfl
  | updateEngineState msg =>
      cases msg with
      | response resp => rfl
      | heartbeat status =>
          show (p.triggerEngine.updateTbtMs status.tbtMs).tbt
            = (tbtObservation status.tbtMs).elim _ _
          cases hv : tbtObservation status.tbtMs with
          | none =>
              rw [TriggerEngine.updateTbtMs_none hv]
              rfl
          | some v =>
              rw [TriggerEngine.updateTbtMs_some hv]
              rfl

/-- **The tracker of a running policy** has seen the observations of its
operations, over reloads too. -/
theorem exec_tracks {x : Bindings} {l : Loader V} {scriptPath : String}
    {config : AdaptationConfig} {p₀ : LuaPolicy V}
    (hnew : new l scriptPath config = .ok p₀) (ops : List (PolicyOp V)) :
    TbtTracker.Tracks config.trigger.tbtWarmupTokens
      (ops.filterMap PolicyOp.observation)
      ((machine V x).exec p₀ ops).triggerEngine.tbt := by
  obtain ⟨lua, rfl⟩ := new_ok hnew
  induction ops using List.reverseRecOn with
  | nil => exact TbtTracker.new_tracks _
  | append_singleton ops op ih =>
      rw [Mealy.exec_append, List.filterMap_append]
      show TbtTracker.Tracks _ _
        (apply x ((machine V x).exec _ ops) op).1.triggerEngine.tbt
      rw [apply_tbt]
      cases hop : op.observation with
      | none =>
          rw [List.filterMap_cons_none hop, List.filterMap_nil,
            List.append_nil]
          exact ih
      | some v =>
          rw [List.filterMap_cons_some hop, List.filterMap_nil]
          exact TbtTracker.observe_tracks ih v

/-- **When the pressures are normalized.**  In every state that signals,
heartbeats and reloads reach, for every configuration: all six components are
in `0..1`, of the state and of the next `ctx`, exactly while the heartbeats so
far keep their average TBT between the baseline and twice the baseline. -/
theorem pressures_normalised_iff (x : Bindings) (l : Loader V)
    (scriptPath : String) (config : AdaptationConfig) (p₀ : LuaPolicy V)
    (hnew : new l scriptPath config = .ok p₀) (ops : List (PolicyOp V)) :
    let p := (machine V x).exec p₀ ops
    let near := NearBaseline config.trigger.tbtWarmupTokens
      (ops.filterMap PolicyOp.observation)
    (p.pressure.Normalised ↔ near)
      ∧ ∀ signal, (p.observe signal).ctx.pressure.Normalised ↔ near := by
  intro p near
  have hratio : InUnit (p.triggerEngine.tbtDegradationRatio.getD 0) ↔ near :=
    (exec_tracks hnew ops).ratio_inUnit_iff (observations_positive ops)
  refine ⟨(SignalState.pressure_normalised_iff ..).trans hratio, ?_⟩
  intro signal
  -- a signal does not reach the tracker
  have htbt : (p.observe signal).triggerEngine.tbt = p.triggerEngine.tbt := by
    cases signal <;> rfl
  refine (SignalState.pressure_normalised_iff ..).trans ?_
  unfold TriggerEngine.tbtDegradationRatio
  rw [htbt]
  exact hratio

/-- A heartbeat that reports only its TBT. -/
def heartbeatOf (tbtMs : ℚ) : PolicyOp Unit :=
  .updateEngineState (.heartbeat
    { kvCacheBytes := 0
      kvCacheBudgetBytes := 0
      kvCacheTokens := 0
      tbtMs := .fin tbtMs
      phase := .decode
      state := .running })

/-- The defaults with a warm-up of one heartbeat. -/
def quickWarmup : AdaptationConfig :=
  { AdaptationConfig.default with
    trigger := { TriggerConfig.default with tbtWarmupTokens := 1 } }

/-- The policy such a configuration starts with. -/
def quickPolicy : LuaPolicy Unit := fresh () "policy.lua" none quickWarmup

theorem quickPolicy_new :
    new .loadsAlways "policy.lua" quickWarmup = .ok quickPolicy := rfl

/-- Tokens that take ten times as long: the ratio is 9/8. -/
theorem latency_exceeds_one :
    ¬ ∀ (V : Type) (x : Bindings) (l : Loader V) (scriptPath : String)
        (config : AdaptationConfig) (p₀ : LuaPolicy V),
        new l scriptPath config = .ok p₀ → ∀ ops : List (PolicyOp V),
          ((machine V x).exec p₀ ops).pressure.Normalised := by
  intro h
  have hunit := (h Unit .exact .loadsAlways "policy.lua" quickWarmup
    quickPolicy quickPolicy_new [heartbeatOf 10, heartbeatOf 100]).latency.2
  have hratio : ((machine Unit .exact).exec quickPolicy
      [heartbeatOf 10, heartbeatOf 100]).pressure.latency = 9 / 8 := by
    decide +kernel
  rw [hratio] at hunit
  norm_num at hunit

/-- Half as long again is within bounds. -/
theorem pressures_normalised_mild :
    new .loadsAlways "policy.lua" quickWarmup = .ok quickPolicy
      ∧ ((machine Unit .exact).exec quickPolicy
          [heartbeatOf 10, heartbeatOf 15]).pressure.Normalised := by
  refine ⟨quickPolicy_new, ((pressures_normalised_iff .exact .loadsAlways
    "policy.lua" quickWarmup quickPolicy quickPolicy_new
    [heartbeatOf 10, heartbeatOf 15]).1).mpr ?_⟩
  -- the first of 10 ms, and 10 and 15 ms averaged
  have hseen : [heartbeatOf 10, heartbeatOf 15].filterMap
      PolicyOp.observation = [10, 15] := by decide +kernel
  have hall : sinceWrap [10, 15] = [10, 15] := sinceWrap_of_lt (by decide)
  intro _
  rw [hseen, hall]
  decide +kernel

end LuaPolicy

end ArgusManager
