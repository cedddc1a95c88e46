/-
  ArgusManager.Monitor.Energy
  ───────────────────────────
  **The energy monitor** (`src/monitor/energy.rs`) from the battery readings
  on.

  Charging does not set the level, it hands the evaluator the reading 100 and
  reports `Normal` whatever comes out.  With the fixed hysteresis of 2 % that
  reading recovers every level if the warning threshold is below 98 %, and
  none otherwise (`charging_is_normal_iff`).
-/
import ArgusManager.Config
import ArgusManager.Evaluator.Hysteresis

namespace ArgusManager

open ThresholdEvaluator (levelAfter)

/-! ## §1. The monitor. -/

/-- What `read_battery_state` finds. -/
structure BatteryReading where
  batteryPct : Option ℚ
  charging : Bool

structure PowerBudgets where
  warningMw : Nat
  criticalMw : Nat
  emergencyMw : Nat

structure EnergyMonitor where
  evaluator : ThresholdEvaluator ℚ
  ignoreWhenCharging : Bool
  powerBudgets : PowerBudgets
  lastCharging : Bool

namespace EnergyMonitor

/-- The hysteresis is fixed. -/
def thresholds (config : EnergyMonitorConfig) : Thresholds ℚ where
  warning := config.warningPct
  critical := config.criticalPct
  emergency := config.emergencyPct
  hysteresis := 2

def new (config : EnergyMonitorConfig) : EnergyMonitor where
  evaluator := .new .descending (thresholds config)
  ignoreWhenCharging := config.ignoreWhenCharging
  powerBudgets :=
    { warningMw := config.warningPowerBudgetMw
      criticalMw := config.criticalPowerBudgetMw
      emergencyMw := config.emergencyPowerBudgetMw }
  lastCharging := false

def evaluateEnergy (m : EnergyMonitor) (batteryPct : Option ℚ)
    (charging : Bool) : EnergyMonitor × Option Level :=
  let m := { m with lastCharging := charging }
  if charging && m.ignoreWhenCharging then
    -- force `Normal` when charging
    if m.evaluator.level ≠ .normal then
      ({ m with evaluator := (m.evaluator.evaluate 100).1 }, some .normal)
    else (m, none)
  else
    match batteryPct with
    | some pct =>
        let (evaluator, changed) := m.evaluator.evaluate pct
        ({ m with evaluator }, changed)
    | none => (m, none)

def buildSignal (m : EnergyMonitor) : SystemSignal :=
  let (reason, budget) := match m.evaluator.level with
    | .normal =>
        if m.lastCharging then (EnergyReason.charging, 0)
        else (EnergyReason.none, 0)
    | .warning => (.batteryLow, m.powerBudgets.warningMw)
    | .critical => (.batteryCritical, m.powerBudgets.criticalMw)
    | .emergency => (.batteryCritical, m.powerBudgets.emergencyMw)
  .energyConstraint m.evaluator.level reason budget

/-- One round of `run`: what `evaluate_energy` returns, and what is sent. -/
def poll (m : EnergyMonitor) (r : BatteryReading) :
    EnergyMonitor × (Option Level × SystemSignal) :=
  let (m, changed) := m.evaluateEnergy r.batteryPct r.charging
  (m, changed, m.buildSignal)

/-- The monitor over its rounds. -/
def machine : Mealy EnergyMonitor BatteryReading (Option Level × SystemSignal) :=
  ⟨poll⟩

end EnergyMonitor

/-! ## §2. One round. -/

/-- A configuration whose percentages are in order. -/
structure EnergyMonitorConfig.Ordered (config : EnergyMonitorConfig) :
    Prop where
  emergency_nonneg : 0 ≤ config.emergencyPct
  emergency_critical : config.emergencyPct ≤ config.criticalPct
  critical_warning : config.criticalPct ≤ config.warningPct
  warning_le : config.warningPct ≤ 100

theorem EnergyMonitorConfig.Ordered.thresholds {config : EnergyMonitorConfig}
    (h : config.Ordered) :
    (EnergyMonitor.thresholds config).Ordered .descending :=
  ⟨h.critical_warning, h.emergency_critical, by
    show (0 : ℚ) ≤ 2
    norm_num⟩

/-- While charging a round sends `Normal` and no budget, and what
`evaluate_energy` returns is the change of the level. -/
structure ChargingSound
    (e : Mealy.Step EnergyMonitor BatteryReading
      (Option Level × SystemSignal)) : Prop where
  signal : e.input.charging = true →
    e.output.2 = .energyConstraint .normal .charging 0
  agrees : e.output.1
    = if e.post.evaluator.level = e.pre.evaluator.level then none
      else some e.post.evaluator.level

/-- `Normal` is the one level below the warning. -/
theorem eq_normal_iff {l : Level} :
    l = .normal ↔ ¬ Alarm.warning.level ≤ l := by
  cases l <;> decide

/-- **A reading of 100 recovers exactly below 98 %.** -/
theorem newLevel_hundred {config : EnergyMonitorConfig} (h : config.Ordered)
    {current : Level} (hcurrent : current ≠ .normal) :
    ThresholdEvaluator.newLevel
        ⟨.descending, EnergyMonitor.thresholds config, current⟩ 100 = .normal
      ↔ config.warningPct < 98 := by
  have hon : Alarm.warning.level ≤ current :=
    not_not.mp fun hle => hcurrent (eq_normal_iff.mpr hle)
  -- a warning that is on stays on up to 2 % above its threshold
  rw [eq_normal_iff, alarm_le_newLevel h.thresholds, decide_eq_true hon]
  show ¬ decide ((100 : ℚ) ≤ config.warningPct + 2) = true ↔ _
  rw [decide_eq_true_iff, not_le]
  constructor <;> intro hlt <;> linarith

namespace EnergyMonitor

/-- A monitor with the thresholds of a configuration, at some level. -/
structure Watches (m : EnergyMonitor) (config : EnergyMonitorConfig)
    (l : Level) : Prop where
  evaluator : m.evaluator
    = ⟨.descending, EnergyMonitor.thresholds config, l⟩
  ignores : m.ignoreWhenCharging = true

variable {m : EnergyMonitor} {config : EnergyMonitorConfig} {l : Level}

/-- Off the charger a reading moves the level as the evaluator does. -/
theorem Watches.discharging (h : m.Watches config l) {r : BatteryReading}
    (hr : r.charging = false) :
    ChargingSound (machine.stepAt m r)
      ∧ (machine.step m r).1.Watches config
          (r.batteryPct.elim l fun pct => ThresholdEvaluator.newLevel
            ⟨.descending, EnergyMonitor.thresholds config, l⟩ pct) := by
  have hstep : machine.step m r = m.poll r := rfl
  have hcharging : ¬ r.charging = true := by simp [hr]
  unfold poll evaluateEnergy at hstep
  dsimp only at hstep
  rw [hr, Bool.false_and, if_neg Bool.false_ne_true] at hstep
  cases hpct : r.batteryPct with
  | none =>
      rw [hpct] at hstep
      refine ⟨⟨fun h => absurd h hcharging, ?_⟩, ?_⟩
      · rw [Mealy.stepAt_post, Mealy.stepAt_output, hstep]
        exact (if_pos rfl).symm
      · rw [hstep]
        exact ⟨h.evaluator, h.ignores⟩
  | some pct =>
      rw [hpct] at hstep
      dsimp only at hstep
      rw [ThresholdEvaluator.evaluate_eq, h.evaluator] at hstep
      refine ⟨⟨fun h => absurd h hcharging, ?_⟩, ?_⟩
      · rw [Mealy.stepAt_post, Mealy.stepAt_output, hstep, Mealy.stepAt_pre,
          h.evaluator]
        rfl
      · rw [hstep]
        exact ⟨rfl, h.ignores⟩

/-- On the charger nothing happens at `Normal`. -/
theorem Watches.charging_normal (h : m.Watches config .normal)
    {r : BatteryReading} (hr : r.charging = true) :
    ChargingSound (machine.stepAt m r)
      ∧ (machine.step m r).1.Watches config .normal := by
  have hstep : machine.step m r = m.poll r := rfl
  have hlevel : m.evaluator.level = .normal := by rw [h.evaluator]; rfl
  unfold poll evaluateEnergy buildSignal at hstep
  dsimp only at hstep
  rw [hr, h.ignores, Bool.true_and, if_pos rfl] at hstep
  rw [if_neg (not_not.mpr hlevel)] at hstep
  dsimp only at hstep
  rw [hlevel] at hstep
  refine ⟨⟨fun _ => ?_, ?_⟩, ?_⟩
  · rw [Mealy.stepAt_output, hstep]
    rfl
  · rw [Mealy.stepAt_post, Mealy.stepAt_output, hstep]
    exact (if_pos rfl).symm
  · rw [hstep]
    exact ⟨h.evaluator, rfl⟩

/-- On the charger any other level is left exactly below 98 %. -/
theorem Watches.charging_iff (h : m.Watches config l) (hconf : config.Ordered)
    (hl : l ≠ .normal) {r : BatteryReading} (hr : r.charging = true) :
    (ChargingSound (machine.stepAt m r) ↔ config.warningPct < 98)
      ∧ (config.warningPct < 98 →
          (machine.step m r).1.Watches config .normal) := by
  have hstep : machine.step m r = m.poll r := rfl
  have hlevel : m.evaluator.level = l := by rw [h.evaluator]; rfl
  unfold poll evaluateEnergy buildSignal at hstep
  dsimp only at hstep
  rw [hr, h.ignores, Bool.true_and, if_pos rfl] at hstep
  rw [if_pos (hlevel.trans_ne hl), ThresholdEvaluator.evaluate_eq,
    h.evaluator] at hstep
  dsimp only at hstep
  have hnew := newLevel_hundred hconf hl
  have hpost : (machine.step m r).1.evaluator.level
      = ThresholdEvaluator.newLevel
          ⟨.descending, EnergyMonitor.thresholds config, l⟩ 100 := by
    rw [hstep]
    rfl
  have hnormal : config.warningPct < 98 →
      (machine.step m r).1.Watches config .normal := by
    intro hlt
    rw [hstep, hnew.mpr hlt]
    exact ⟨rfl, rfl⟩
  refine ⟨⟨fun hsound => hnew.mp ?_, fun hlt => ⟨fun _ => ?_, ?_⟩⟩, hnormal⟩
  · -- the signal carries the level
    have hsignal := hsound.signal hr
    rw [Mealy.stepAt_output, hstep] at hsignal
    injection hsignal
  · rw [Mealy.stepAt_output, hstep]
    simp only [ThresholdEvaluator.level, hnew.mpr hlt, if_true]
  · rw [Mealy.stepAt_post, hpost, hnew.mpr hlt, Mealy.stepAt_pre, hlevel,
      if_neg hl.symm, Mealy.stepAt_output, hstep]

end EnergyMonitor

/-! ## §3. Runs. -/

/-- The percentages read off the charger. -/
def offCharger (readings : List BatteryReading) : List ℚ :=
  readings.filterMap fun r => if r.charging then none else r.batteryPct

/-- A battery low at some reading and not recovered since. -/
def LowSince (config : EnergyMonitorConfig) (values : List ℚ) : Prop :=
  Schmitt.Latched (· ≤ config.warningPct) (· ≤ config.warningPct + 2) values

theorem levelAfter_normal_iff {config : EnergyMonitorConfig}
    (h : config.Ordered) (values : List ℚ) :
    levelAfter .descending (EnergyMonitor.thresholds config) values = .normal
      ↔ ¬ LowSince config values := by
  rw [eq_normal_iff, alarm_le_levelAfter h.thresholds, Schmitt.run_iff]
  exact not_congr (Schmitt.latched_congr (fun _ => decide_eq_true_iff)
    fun _ => decide_eq_true_iff)

/-- Whenever the charger is plugged in the battery is not low; `values` were
read before. -/
def PluggedInTime (config : EnergyMonitorConfig) (values : List ℚ)
    (readings : List BatteryReading) : Prop :=
  ∀ before r after, readings = before ++ r :: after → r.charging = true →
    ¬ LowSince config (values ++ offCharger before)

theorem pluggedInTime_nil {config : EnergyMonitorConfig} {values : List ℚ} :
    PluggedInTime config values [] := by
  intro before r after h
  exact absurd h (by simp)

theorem pluggedInTime_cons {config : EnergyMonitorConfig} {values : List ℚ}
    {r : BatteryReading} {readings : List BatteryReading} :
    PluggedInTime config values (r :: readings)
      ↔ (r.charging = true → ¬ LowSince config values)
        ∧ PluggedInTime config (values ++ offCharger [r]) readings := by
  have hcons : ∀ before, offCharger (r :: before)
      = offCharger [r] ++ offCharger before :=
    fun _ => List.filterMap_append (l := [r])
  constructor
  · intro h
    -- plugged in now, or further on
    refine ⟨fun hr => ?_, fun before x after heq hx => ?_⟩
    · have hfirst := h [] r readings rfl hr
      rwa [show offCharger [] = [] from rfl, List.append_nil] at hfirst
    · have hlater := h (r :: before) x after (congrArg _ heq) hx
      rwa [hcons, ← List.append_assoc] at hlater
  · rintro ⟨hfirst, hrest⟩ before x after heq hx
    cases before with
    | nil =>
        injection heq with hr _
        rw [show offCharger [] = [] from rfl, List.append_nil]
        exact hfirst (hr ▸ hx)
    | cons y before =>
        injection heq with hy heq
        subst hy
        rw [hcons, ← List.append_assoc]
        exact hrest before x after heq hx

namespace EnergyMonitor

variable {m : EnergyMonitor} {config : EnergyMonitorConfig}

/-- Below 98 % every round is sound. -/
theorem Watches.sound_below (hconf : config.Ordered)
    (hlt : config.warningPct < 98) {l : Level} (h : m.Watches config l)
    (readings : List BatteryReading) :
    machine.Along m readings fun _ e => ChargingSound e := by
  have hround : ∀ (m : EnergyMonitor) (r : BatteryReading),
      (∃ l, m.Watches config l) →
      ChargingSound (machine.stepAt m r)
        ∧ ∃ l, (machine.step m r).1.Watches config l := by
    rintro m r ⟨l, h⟩
    cases hr : r.charging with
    | false => exact (h.discharging hr).imp id fun hpost => ⟨_, hpost⟩
    | true =>
        by_cases hl : l = .normal
        · subst hl
          exact (h.charging_normal hr).imp id fun hpost => ⟨_, hpost⟩
        · obtain ⟨hiff, hpost⟩ := h.charging_iff hconf hl hr
          exact ⟨hiff.mpr hlt, _, hpost hlt⟩
  exact Mealy.along_of_steps (I := fun _ m => ∃ l, m.Watches config l)
    ⟨l, h⟩ (fun _ m r hm => (hround m r hm).2)
    (fun _ m r hm => (hround m r hm).1) readings

/-- From 98 % on the rounds are sound exactly if the charger comes in time. -/
theorem Watches.sound_iff_of_le (hconf : config.Ordered)
    (hle : ¬ config.warningPct < 98) (readings : List BatteryReading)
    {m : EnergyMonitor} {values : List ℚ}
    (h : m.Watches config
      (levelAfter .descending (EnergyMonitor.thresholds config) values)) :
    (machine.Along m readings fun _ e => ChargingSound e)
      ↔ PluggedInTime config values readings := by
  induction readings generalizing m values with
  | nil => exact iff_of_true Mealy.along_nil pluggedInTime_nil
  | cons r readings ih =>
      rw [Mealy.along_cons, pluggedInTime_cons]
      cases hr : r.charging with
      | false =>
          -- off the charger the round is sound, and one more value is read
          obtain ⟨hsound, hpost⟩ := h.discharging hr
          rw [and_iff_right hsound, and_iff_right nofun]
          refine ih ?_
          cases hpct : r.batteryPct with
          | none =>
              have hnone : offCharger [r] = [] := by
                simp [offCharger, hr, hpct]
              rw [hpct] at hpost
              rw [hnone, List.append_nil]
              exact hpost
          | some pct =>
              have hone : offCharger [r] = [pct] := by
                simp [offCharger, hr, hpct]
              rw [hpct] at hpost
              rw [hone, ThresholdEvaluator.levelAfter_concat]
              exact hpost
      | true =>
          have hnone : offCharger [r] = [] := by simp [offCharger, hr]
          rw [hnone, List.append_nil]
          by_cases hlow : LowSince config values
          · -- plugged in too late: neither side holds
            have hl := (levelAfter_normal_iff hconf values).not.mpr
              (not_not.mpr hlow)
            have hnot := (h.charging_iff hconf hl hr).1.not.mpr hle
            exact iff_of_false (fun hs => hnot hs.1)
              fun hs => hs.1 rfl hlow
          · have hl := (levelAfter_normal_iff hconf values).mpr hlow
            rw [hl] at h
            obtain ⟨hsound, hpost⟩ := h.charging_normal hr
            rw [and_iff_right hsound, and_iff_right fun _ => hlow]
            exact ih (hl ▸ hpost)

end EnergyMonitor

/-- **When charging reads as `Normal`**, for every configuration in order that
ignores the charge while charging, and over every history: the warning
threshold is below 98 %, or the battery is never low when the charger is
plugged in. -/
theorem charging_is_normal_iff (config : EnergyMonitorConfig)
    (hconf : config.Ordered) (hignore : config.ignoreWhenCharging = true)
    (readings : List BatteryReading) :
    (EnergyMonitor.machine.Along (.new config) readings
        fun _ e => ChargingSound e)
      ↔ config.warningPct < 98 ∨ PluggedInTime config [] readings := by
  have hnew : (EnergyMonitor.new config).Watches config
      (levelAfter .descending (EnergyMonitor.thresholds config) []) :=
    ⟨rfl, hignore⟩
  by_cases hlt : config.warningPct < 98
  · exact iff_of_true (hnew.sound_below hconf hlt readings) (.inl hlt)
  · rw [or_iff_right hlt]
    exact EnergyMonitor.Watches.sound_iff_of_le hconf hlt readings hnew

/-- A drained battery on the charger, with the default thresholds. -/
theorem charging_is_normal_default :
    EnergyMonitor.machine.Along (.new .default)
      [⟨some 4, false⟩, ⟨some 4, true⟩] fun _ e => ChargingSound e :=
  (charging_is_normal_iff .default
    ⟨by decide, by decide, by decide, by decide⟩ rfl _).mpr
    (.inl (by decide))

/-- Warn almost always. -/
def warnEarly : EnergyMonitorConfig :=
  { EnergyMonitorConfig.default with warningPct := 99 }

/-- A reading of 50 % warns, and the charger does not take it back. -/
theorem charging_stays_warning :
    ¬ ∀ (config : EnergyMonitorConfig), config.Ordered →
        config.ignoreWhenCharging = true →
        ∀ readings, EnergyMonitor.machine.Along (.new config) readings
          fun _ e => ChargingSound e := by
  intro h
  have hsound := h warnEarly ⟨by decide, by decide, by decide, by decide⟩ rfl
    [⟨some 50, false⟩, ⟨some 50, true⟩]
  obtain ⟨_, hrest⟩ := Mealy.along_cons.mp hsound
  obtain ⟨hcharging, _⟩ := Mealy.along_cons.mp hrest
  injection hcharging.signal rfl with hlevel
  exact absurd hlevel (by decide +kernel)

end ArgusManager
