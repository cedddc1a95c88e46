/-
  ArgusManager.Policy.Triggers
  ────────────────────────────
  **The trigger flags over every order of updates.**

  Three flags share one engine, and none of them sees the others' updates.
  Each is a comparator with hysteresis over the observations of its own axis;
  the one for the TBT observes the degradation ratios, from the baseline on.
-/
import ArgusManager.Lib.Schmitt
import ArgusManager.Policy.Tbt

namespace ArgusManager

/-! ## §1. Updates and observations. -/

/-- One update of the engine. -/
inductive TriggerUpdate where
  | mem (pressure : ℚ)
  | temp (normalized : ℚ)
  | tbt (tbtMs : FloatVal)

namespace TriggerUpdate

/-- What the memory flag observes. -/
def mem? : TriggerUpdate → Option ℚ
  | .mem pressure => some pressure
  | _ => none

/-- What the temperature flag observes. -/
def temp? : TriggerUpdate → Option ℚ
  | .temp normalized => some normalized
  | _ => none

/-- What the TBT tracker observes. -/
def tbt? : TriggerUpdate → Option ℚ
  | .tbt tbtMs => tbtObservation tbtMs
  | _ => none

end TriggerUpdate

def TriggerEngine.update (e : TriggerEngine) : TriggerUpdate → TriggerEngine
  | .mem pressure => e.updateMem pressure
  | .temp normalized => e.updateTemp normalized
  | .tbt tbtMs => e.updateTbtMs tbtMs

/-- The degradation ratios along a history, from the baseline on. -/
def TbtTracker.ratios : TbtTracker → List ℚ → List ℚ
  | _, [] => []
  | t, v :: vs =>
      (t.observe v).degradationRatio.toList ++ ratios (t.observe v) vs

/-- Some observation exceeded `enter`, and every later one is at least
`exit`. -/
def Triggered (enter exit : ℚ) (observed : List ℚ) : Prop :=
  ∃ before x after, observed = before ++ x :: after
    ∧ enter < x ∧ ∀ y ∈ after, exit ≤ y

/-! ## §2. Ratios. -/

namespace TbtTracker

theorem ratios_concat (t : TbtTracker) (vs : List ℚ) (v : ℚ) :
    t.ratios (vs ++ [v])
      = t.ratios vs
        ++ ((vs.foldl observe t).observe v).degradationRatio.toList := by
  induction vs generalizing t with
  | nil =>
      show (t.observe v).degradationRatio.toList ++ [] = _
      rw [List.append_nil]
      rfl
  | cons u us ih =>
      rw [List.cons_append]
      show _ ++ ratios _ (us ++ [v]) = _
      rw [ih, ← List.append_assoc]
      rfl

/-- A baseline, once there, stays. -/
theorem observe_baseline_none {t : TbtTracker} {v : ℚ}
    (h : (t.observe v).baseline = none) : t.baseline = none := by
  unfold observe at h
  dsimp only at h
  split at h
  next => exact absurd h (by simp)
  next => exact h

/-- Without a baseline there was no ratio. -/
theorem ratios_of_baseline_none {t : TbtTracker} {vs : List ℚ}
    (h : (vs.foldl observe t).baseline = none) : t.ratios vs = [] := by
  induction vs using List.reverseRecOn with
  | nil => rfl
  | append_singleton vs v ih =>
      rw [List.foldl_append] at h
      have hlast : ((vs.foldl observe t).observe v).degradationRatio = none :=
        congrArg (Option.map _) h
      rw [ratios_concat, hlast, ih (observe_baseline_none h)]
      rfl

end TbtTracker

/-! ## §3. Flags are comparators. -/

/-- The comparator of a flag. -/
def flagComparator {enter exit : ℚ} (h : exit ≤ enter) : Schmitt ℚ where
  rises x := decide (enter < x)
  holds x := decide (exit ≤ x)
  holds_of_rises _ hx :=
    decide_eq_true (h.trans (of_decide_eq_true hx).le)

theorem hysteresis_eq_step {enter exit : ℚ} (h : exit ≤ enter) (flag : Bool)
    (x : ℚ) : hysteresis flag x enter exit = (flagComparator h).step flag x := by
  unfold hysteresis Schmitt.step
  cases flag with
  | true =>
      show (if x < exit then false else true) = decide (exit ≤ x)
      by_cases hx : x < exit
      · rw [if_pos hx, decide_eq_false (not_le.mpr hx)]
      · rw [if_neg hx, decide_eq_true (not_lt.mp hx)]
  | false =>
      show (if x > enter then true else false) = decide (enter < x)
      by_cases hx : enter < x
      · rw [if_pos hx, decide_eq_true hx]
      · rw [if_neg hx, decide_eq_false hx]

theorem run_eq_triggered {enter exit : ℚ} (h : exit ≤ enter)
    (observed : List ℚ) :
    (flagComparator h).run observed = true ↔ Triggered enter exit observed := by
  rw [Schmitt.run_iff]
  refine Schmitt.latched_congr ?_ ?_
  · exact fun x => decide_eq_true_iff
  · exact fun x => decide_eq_true_iff

/-- Every axis leaves at or below where it enters. -/
structure TriggerConfig.Ordered (c : TriggerConfig) : Prop where
  mem : c.memExit ≤ c.memEnter
  temp : c.tempExit ≤ c.tempEnter
  tbt : c.tbtExit ≤ c.tbtEnter

/-- **The engine after some updates**: the tracker holds the TBT
observations, and each flag is the position of its comparator. -/
structure Observes {c : TriggerConfig} (h : c.Ordered)
    (updates : List TriggerUpdate) (e : TriggerEngine) : Prop where
  config : e.config = c
  tbt : e.tbt = (updates.filterMap TriggerUpdate.tbt?).foldl
    TbtTracker.observe (.new c.tbtWarmupTokens)
  memLow : e.trigger.memLow
    = (flagComparator h.mem).run (updates.filterMap TriggerUpdate.mem?)
  tempHigh : e.trigger.tempHigh
    = (flagComparator h.temp).run (updates.filterMap TriggerUpdate.temp?)
  tbtDegraded : e.trigger.tbtDegraded
    = (flagComparator h.tbt).run ((TbtTracker.new c.tbtWarmupTokens).ratios
        (updates.filterMap TriggerUpdate.tbt?))

theorem new_observes {c : TriggerConfig} (h : c.Ordered) :
    Observes h [] (.new c) :=
  ⟨rfl, rfl, rfl, rfl, rfl⟩

/-- Every update keeps it: one axis moves, the others do not see it. -/
theorem update_observes {c : TriggerConfig} {h : c.Ordered}
    {updates : List TriggerUpdate} {e : TriggerEngine}
    (hobs : Observes h updates e) (u : TriggerUpdate) :
    Observes h (updates ++ [u]) (e.update u) := by
  obtain ⟨hconfig, htbt, hmem, htemp, hdegraded⟩ := hobs
  have hskip : ∀ pick : TriggerUpdate → Option ℚ, pick u = none →
      (updates ++ [u]).filterMap pick = updates.filterMap pick := by
    intro pick hu
    rw [List.filterMap_append, List.filterMap_cons_none hu,
      List.filterMap_nil, List.append_nil]
  have hread : ∀ (pick : TriggerUpdate → Option ℚ) (v : ℚ), pick u = some v →
      (updates ++ [u]).filterMap pick = updates.filterMap pick ++ [v] := by
    intro pick v hu
    rw [List.filterMap_append, List.filterMap_cons_some hu,
      List.filterMap_nil]
  cases u with
  | mem pressure =>
      refine ⟨hconfig, ?_, ?_, ?_, ?_⟩
      · rw [hskip _ rfl]
        exact htbt
      · rw [hread _ pressure rfl, Schmitt.run_concat, ← hmem,
          ← hysteresis_eq_step, ← hconfig]
        rfl
      · rw [hskip _ rfl]
        exact htemp
      · rw [hskip _ rfl]
        exact hdegraded
  | temp normalized =>
      refine ⟨hconfig, ?_, ?_, ?_, ?_⟩
      · rw [hskip _ rfl]
        exact htbt
      · rw [hskip _ rfl]
        exact hmem
      · rw [hread _ normalized rfl, Schmitt.run_concat, ← htemp,
          ← hysteresis_eq_step, ← hconfig]
        rfl
      · rw [hskip _ rfl]
        exact hdegraded
  | tbt tbtMs =>
      cases hv : tbtObservation tbtMs with
      | none =>
          have hstep : e.update (.tbt tbtMs) = e := e.updateTbtMs_none hv
          rw [hstep]
          refine ⟨hconfig, ?_, ?_, ?_, ?_⟩
          · rw [hskip _ hv]
            exact htbt
          · rw [hskip _ rfl]
            exact hmem
          · rw [hskip _ rfl]
            exact htemp
          · rw [hskip _ hv]
            exact hdegraded
      | some v =>
          have hstep : e.update (.tbt tbtMs) = _ := e.updateTbtMs_some hv
          rw [hstep]
          refine ⟨hconfig, ?_, ?_, ?_, ?_⟩
          · rw [hread _ v hv, List.foldl_append, ← htbt]
            rfl
          · rw [hskip _ rfl]
            exact hmem
          · rw [hskip _ rfl]
            exact htemp
          · rw [hread _ v hv, TbtTracker.ratios_concat, ← htbt]
            dsimp only
            -- before the baseline there is nothing to observe
            cases (e.tbt.observe v).degradationRatio with
            | none =>
                rw [Option.toList_none, List.append_nil]
                exact hdegraded
            | some ratio =>
                rw [Option.toList_some, Schmitt.run_concat, ← hdegraded,
                  ← hysteresis_eq_step, ← hconfig]
                rfl

theorem foldl_observes {c : TriggerConfig} (h : c.Ordered)
    (updates : List TriggerUpdate) :
    Observes h updates (updates.foldl TriggerEngine.update (.new c)) := by
  induction updates using List.reverseRecOn with
  | nil => exact new_observes h
  | append_singleton us u ih =>
      rw [List.foldl_append]
      exact update_observes ih u

/-! ## §4. The flags in closed form. -/

/-- **Trigger flags are hysteresis of the whole history**, whatever the order
of the updates. -/
theorem flags_iff_triggered (c : TriggerConfig) (h : c.Ordered)
    (updates : List TriggerUpdate) :
    let e := updates.foldl TriggerEngine.update (.new c)
    (e.state.memLow = true ↔ Triggered c.memEnter c.memExit
      (updates.filterMap TriggerUpdate.mem?))
    ∧ (e.state.tempHigh = true ↔ Triggered c.tempEnter c.tempExit
      (updates.filterMap TriggerUpdate.temp?))
    ∧ (e.state.tbtDegraded = true ↔ Triggered c.tbtEnter c.tbtExit
      ((TbtTracker.new c.tbtWarmupTokens).ratios
        (updates.filterMap TriggerUpdate.tbt?)))
    ∧ (e.tbt.baseline = none → e.state.tbtDegraded = false) := by
  intro e
  have hobs : Observes h updates e := foldl_observes h updates
  refine ⟨?_, ?_, ?_, ?_⟩
  · rw [← run_eq_triggered h.mem, ← hobs.memLow]
    rfl
  · rw [← run_eq_triggered h.temp, ← hobs.tempHigh]
    rfl
  · rw [← run_eq_triggered h.tbt, ← hobs.tbtDegraded]
    rfl
  · intro hnone
    rw [hobs.tbt] at hnone
    show e.trigger.tbtDegraded = false
    rw [hobs.tbtDegraded, TbtTracker.ratios_of_baseline_none hnone]
    rfl

theorem TriggerConfig.default_ordered : TriggerConfig.default.Ordered :=
  ⟨by decide +kernel, by decide +kernel, by decide +kernel⟩

/-- With the defaults, a spike of the memory pressure and a partial relief
leave the flag up. -/
theorem flags_iff_triggered_spike :
    TriggerConfig.default.Ordered
      ∧ (([.mem 0.9, .temp 0.1, .mem 0.7] : List TriggerUpdate).foldl
          TriggerEngine.update (.new .default)).state.memLow = true := by
  refine ⟨TriggerConfig.default_ordered,
    ((flags_iff_triggered .default TriggerConfig.default_ordered
      [.mem 0.9, .temp 0.1, .mem 0.7]).1).mpr ⟨[], 0.9, [0.7], rfl, ?_, ?_⟩⟩
  · show (0.80 : ℚ) < 0.9
    norm_num
  · intro y hy
    rw [List.mem_singleton.mp hy]
    show (0.60 : ℚ) ≤ 0.7
    norm_num

end ArgusManager
