/-
  ArgusManager.Monitor.Levels
  ───────────────────────────
  **The monitors' levels and the simulator's bracket each other.**

  The monitors keep a level with hysteresis, the simulator takes the level of
  each reading alone.  After every reading the monitor is at least at the
  simulator's level, and at most at the one the simulator would give to the
  reading moved by the hysteresis in the worse direction.
-/
import ArgusManager.Evaluator.Hysteresis
import ArgusManager.Monitor.Compute
import ArgusManager.Monitor.Memory
import ArgusManager.Monitor.Thermal
import Mathlib.Tactic.NormNum

namespace ArgusManager

open ThresholdEvaluator (levelAfter levelAfter_concat)

/-! ## §1. A monitor feeds its evaluator. -/

/-- Rounds that find nothing leave the evaluator alone, and the others hand it
one reading. -/
theorem level_feeds {μ ρ ο : Type} {m : Mealy μ (Option ρ) ο}
    {π : μ → ThresholdEvaluator ℚ} {reading : ρ → ℚ}
    (hskip : ∀ s, π (m.step s none).1 = π s)
    (hfeed : ∀ s r, π (m.step s (some r)).1 = ((π s).evaluate (reading r)).1)
    {s : μ} {d : Direction} {t : Thresholds ℚ}
    (hnew : π s = .new d t) (rounds : List (Option ρ)) :
    (π (m.exec s rounds)).level
      = levelAfter d t (rounds.filterMap fun r => r.map reading) := by
  have hskip' : ∀ s (r : Option ρ), r.map reading = none →
      π (m.step s r).1 = π s := by
    intro s r hr
    rw [Option.map_eq_none_iff.mp hr]
    exact hskip s
  have hfeed' : ∀ s (r : Option ρ) v, r.map reading = some v →
      π (m.step s r).1 = ((ThresholdEvaluator.machine ℚ).step (π s) v).1 := by
    intro s r v hr
    obtain ⟨x, rfl, rfl⟩ := Option.map_eq_some_iff.mp hr
    exact hfeed s x
  unfold levelAfter
  rw [Mealy.exec_feeds hskip' hfeed' s rounds, hnew]

theorem MemoryMonitor.level_exec (config : MemoryMonitorConfig)
    (rounds : List (Option Meminfo)) :
    (machine.exec (new config) rounds).evaluator.level
      = levelAfter .descending (thresholds config)
          (rounds.filterMap fun r => r.map Meminfo.pct) :=
  level_feeds (π := MemoryMonitor.evaluator) (fun _ => rfl)
    (fun _ _ => rfl) rfl rounds

theorem ThermalMonitor.level_exec (config : ThermalMonitorConfig)
    (rounds : List (Option ThermalReading)) :
    (machine.exec (new config) rounds).evaluator.level
      = levelAfter .ascending (thresholds config)
          (rounds.filterMap fun r => r.map fun x => (x.maxTempMc : ℚ)) :=
  level_feeds (π := ThermalMonitor.evaluator) (fun _ => rfl)
    (fun _ _ => rfl) rfl rounds

theorem ComputeMonitor.level_exec (config : ComputeMonitorConfig)
    (rounds : List (Option Usage)) :
    (machine.exec (new config) rounds).evaluator.level
      = levelAfter .ascending (thresholds config)
          (rounds.filterMap fun r => r.map fun u => max u.cpu u.gpu) :=
  level_feeds (π := ComputeMonitor.evaluator) (fun _ => rfl)
    (fun _ _ => rfl) rfl rounds

/-! ## §2. The stateless levels. -/

theorem memoryLevel_eq (pct : ℚ) :
    memoryLevelFromAvailablePct pct
      = (MemoryMonitor.thresholds .default).plainLevel .descending pct :=
  rfl

/-- Degrees against millidegrees. -/
theorem thermalLevel_eq (mc : ℚ) :
    thermalLevelFromTempC (mc / 1000)
      = (ThermalMonitor.thresholds .default).plainLevel .ascending mc := by
  have hscale : ∀ n : ℚ, mc / 1000 ≥ n / 1000 ↔ n ≤ mc := fun n =>
    div_le_div_iff_of_pos_right (by norm_num)
  unfold thermalLevelFromTempC Thresholds.plainLevel
  simp only [hscale]
  rfl

/-- No percentage comes near `f64::MAX`. -/
theorem percent_lt_max {pct : ℚ} (h : pct ≤ 100) : pct < F64_MAX := by
  have hpow : (1 : ℚ) ≤ 2 ^ 971 := one_le_pow₀ (by norm_num)
  calc pct ≤ 100 := h
    _ < (2 ^ 53 - 1) * 1 := by norm_num
    _ ≤ (2 ^ 53 - 1) * 2 ^ 971 :=
        mul_le_mul_of_nonneg_left hpow (by norm_num)

/-- Below `f64::MAX` the monitor's thresholds have no `Emergency`. -/
theorem computeLevel_eq {cpu gpu : ℚ} (h : max cpu gpu < F64_MAX) :
    computeLevelFromPcts cpu gpu
      = (ComputeMonitor.thresholds .default).plainLevel .ascending
          (max cpu gpu) := by
  have hemergency : ¬ Direction.ascending.Reached
      (ComputeMonitor.thresholds .default).emergency (max cpu gpu) :=
    not_le.mpr h
  unfold Thresholds.plainLevel
  rw [if_neg hemergency]
  rfl

/-- Above it they agree on everything but `Emergency`. -/
theorem le_computeLevel {l : Level} (hl : l < .emergency) {cpu gpu : ℚ}
    (h : l ≤ (ComputeMonitor.thresholds .default).plainLevel .ascending
      (max cpu gpu)) : l ≤ computeLevelFromPcts cpu gpu := by
  by_cases hmax : max cpu gpu < F64_MAX
  · rw [computeLevel_eq hmax]
    exact h
  · have hninety : (90 : ℚ) < F64_MAX := percent_lt_max (by norm_num)
    have hcritical : computeLevelFromPcts cpu gpu = .critical :=
      if_pos (hninety.le.trans (not_lt.mp hmax))
    rw [hcritical]
    cases l with
    | normal => decide
    | warning => decide
    | critical => decide
    | emergency => exact absurd hl (by decide)

theorem memory_ordered :
    (MemoryMonitor.thresholds .default).Ordered .descending :=
  ⟨by decide, by decide, by decide⟩

theorem thermal_ordered :
    (ThermalMonitor.thresholds .default).Ordered .ascending :=
  ⟨by decide, by decide, by decide⟩

theorem compute_ordered :
    (ComputeMonitor.thresholds .default).Ordered .ascending := by
  have hninety : (90 : ℚ) < F64_MAX := percent_lt_max (by norm_num)
  exact ⟨by decide, hninety.le, by decide⟩

/-! ## §3. The bracket. -/

/-- After its last reading a level lies between two stateless ones. -/
theorem levelAfter_bracket {t : Thresholds ℚ} {d : Direction}
    (h : t.Ordered d) (values : List ℚ) (v : ℚ) :
    t.plainLevel d v ≤ levelAfter d t (values ++ [v])
      ∧ levelAfter d t (values ++ [v])
        ≤ t.plainLevel d (d.worsened v t.hysteresis) := by
  rw [levelAfter_concat]
  exact newLevel_bracket h _ v

/-- A level whose threshold no value reached is not reached. -/
theorem levelAfter_lt {t : Thresholds ℚ} {d : Direction} (h : t.Ordered d)
    {a : Alarm} {values : List ℚ}
    (hv : ∀ v ∈ values, ¬ d.Reached (t.threshold a) v) :
    levelAfter d t values < a.level := by
  rw [← not_le, alarm_le_levelAfter h, Schmitt.run_iff]
  rintro ⟨before, v, after, rfl, hrise, _⟩
  exact hv v (by simp) (of_decide_eq_true hrise)

/-- **The bracket**, with the default configurations: after every history and
every reading, for memory, temperature and compute usage.  Usages below
`f64::MAX` never reach `Emergency`. -/
theorem levels_bracketed :
    (∀ (history : List (Option Meminfo)) (info : Meminfo),
      let level := (MemoryMonitor.machine.exec (.new .default)
        (history ++ [some info])).evaluator.level
      memoryLevelFromAvailablePct info.pct ≤ level
        ∧ level ≤ memoryLevelFromAvailablePct
            (info.pct - MemoryMonitorConfig.default.hysteresisPct))
    ∧ (∀ (history : List (Option ThermalReading)) (reading : ThermalReading),
      let level := (ThermalMonitor.machine.exec (.new .default)
        (history ++ [some reading])).evaluator.level
      let tempC : ℚ := (reading.maxTempMc : ℚ) / 1000
      let hysteresisC : ℚ :=
        (ThermalMonitorConfig.default.hysteresisMc : ℚ) / 1000
      thermalLevelFromTempC tempC ≤ level
        ∧ level ≤ thermalLevelFromTempC (tempC + hysteresisC))
    ∧ ∀ (history : List (Option Usage)) (usage : Usage),
      (∀ u, some u ∈ history ++ [some usage] → max u.cpu u.gpu < F64_MAX) →
      let level := (ComputeMonitor.machine.exec (.new .default)
        (history ++ [some usage])).evaluator.level
      let hysteresis := ComputeMonitorConfig.default.hysteresisPct
      computeLevelFromPcts usage.cpu usage.gpu ≤ level
        ∧ level ≤ computeLevelFromPcts (usage.cpu + hysteresis)
            (usage.gpu + hysteresis)
        ∧ level < .emergency := by
  refine ⟨?_, ?_, ?_⟩
  · intro history info level
    have hlevel : level = levelAfter _ _ (_ ++ [info.pct]) :=
      (MemoryMonitor.level_exec .default (history ++ [some info])).trans
        (congrArg _ List.filterMap_append)
    rw [hlevel, memoryLevel_eq, memoryLevel_eq]
    exact levelAfter_bracket memory_ordered _ _
  · intro history reading level tempC hysteresisC
    have hlevel : level = levelAfter _ _ (_ ++ [(reading.maxTempMc : ℚ)]) :=
      (ThermalMonitor.level_exec .default (history ++ [some reading])).trans
        (congrArg _ List.filterMap_append)
    have hworse : tempC + hysteresisC
        = ((reading.maxTempMc : ℚ)
            + (ThermalMonitor.thresholds .default).hysteresis) / 1000 :=
      (add_div ..).symm
    rw [hlevel, hworse, thermalLevel_eq, thermalLevel_eq]
    exact levelAfter_bracket thermal_ordered _ _
  · intro history usage husage level hysteresis
    have hexec := ComputeMonitor.level_exec .default (history ++ [some usage])
    have hlevel : level = levelAfter _ _ (_ ++ [max usage.cpu usage.gpu]) :=
      hexec.trans (congrArg _ List.filterMap_append)
    -- no reading so far has reached the threshold that stands for none
    have hbelow : level < .emergency := by
      refine hexec.trans_lt
        (levelAfter_lt compute_ordered (a := .emergency) fun v hv => ?_)
      obtain ⟨r, hr, hr'⟩ := List.mem_filterMap.mp hv
      obtain ⟨u, rfl, rfl⟩ := Option.map_eq_some_iff.mp hr'
      exact not_le.mpr (husage u hr)
    obtain ⟨hlow, hhigh⟩ := levelAfter_bracket compute_ordered
      ((history.filterMap fun r => r.map fun u => max u.cpu u.gpu))
      (max usage.cpu usage.gpu)
    rw [hlevel] at hbelow ⊢
    refine ⟨?_, ?_, hbelow⟩
    · rw [computeLevel_eq (husage usage (by simp))]
      exact hlow
    · refine le_computeLevel hbelow ?_
      rw [max_add_add_right]
      exact hhigh

/-- A hot reading, then a cooler one. -/
theorem levels_bracketed_cooling :
    (∀ u, some u ∈ [some ⟨92, 10⟩] ++ [some (⟨86, 10⟩ : Usage)] →
        max u.cpu u.gpu < F64_MAX)
      ∧ computeLevelFromPcts 86 10 ≤ (ComputeMonitor.machine.exec
          (.new .default) ([some ⟨92, 10⟩] ++ [some ⟨86, 10⟩])).evaluator.level
      := by
  have hmax : ∀ u, some u ∈ [some ⟨92, 10⟩] ++ [some (⟨86, 10⟩ : Usage)] →
      max u.cpu u.gpu < F64_MAX := by
    intro u hu
    have hu' : u = ⟨92, 10⟩ ∨ u = ⟨86, 10⟩ := by simpa using hu
    rcases hu' with rfl | rfl
    · exact percent_lt_max (by norm_num)
    · exact percent_lt_max (by norm_num)
  exact ⟨hmax, (levels_bracketed.2.2 [some ⟨92, 10⟩] ⟨86, 10⟩ hmax).1⟩

end ArgusManager
