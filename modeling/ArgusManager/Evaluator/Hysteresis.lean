/-
  ArgusManager.Evaluator.Hysteresis
  ─────────────────────────────────
  **What the threshold evaluator computes, over any history.**

  The recovery table looks at the current level and at three thresholds at a
  time.  Level by level it is three comparators with hysteresis that do not
  look at each other (`alarm_le_newLevel`), and the table for descending
  metrics is the one for ascending metrics with every sign turned.

    • `descending_mirrors_ascending` — the two directions are mirror images,
                                       for floats, NaN included,
    • `alarm_le_levelAfter`          — each level is a comparator of its own,
    • `level_decomposed`             — the level after a history, in closed
                                       form, and what follows from it,
    • `newLevel_bracket`             — the level lies between two levels that
                                       have no state.
-/
import ArgusManager.Evaluator
import ArgusManager.Float
import ArgusManager.Lib.Schmitt
import Mathlib.Algebra.Order.Group.Unbundled.Basic
import Mathlib.Tactic.Order

namespace ArgusManager

open ThresholdEvaluator (levelAfter levelAfter_concat)

/-! ## §1. Turning every sign. -/

section Mirror

variable {F : Type} [LT F] [LE F] [Neg F] [Add F] [Sub F] [DecidableLT F]
  [DecidableLE F]

/-- Negation turns comparisons around and passes through a shift. -/
structure Mirrors (F : Type) [LT F] [LE F] [Neg F] [Add F] [Sub F] :
    Prop where
  neg_lt_neg : ∀ x y : F, -x < -y ↔ y < x
  neg_le_neg : ∀ x y : F, -x ≤ -y ↔ y ≤ x
  neg_sub : ∀ x y : F, -x - y = -(x + y)

/-- Thresholds of the same metric, counted downwards. -/
def Thresholds.negated (t : Thresholds F) : Thresholds F where
  warning := -t.warning
  critical := -t.critical
  emergency := -t.emergency
  hysteresis := t.hysteresis

/-- Every comparison of one table is one of the other. -/
theorem Mirrors.levelDescending (m : Mirrors F) (value : F) (current : Level)
    (warning critical emergency hysteresis : F) :
    levelDescending value current warning critical emergency hysteresis
      = levelAscending (-value) current (-warning) (-critical) (-emergency)
          hysteresis := by
  unfold ArgusManager.levelDescending levelAscending
  simp only [m.neg_sub, ge_iff_le, gt_iff_lt, m.neg_lt_neg, m.neg_le_neg]

theorem Mirrors.newLevel (m : Mirrors F) (t : Thresholds F) (current : Level)
    (value : F) :
    ThresholdEvaluator.newLevel ⟨.descending, t, current⟩ value
      = ThresholdEvaluator.newLevel ⟨.ascending, t.negated, current⟩
          (-value) :=
  m.levelDescending ..

/-- The mirrored evaluator reports the same changes on the mirrored history. -/
theorem Mirrors.outs (m : Mirrors F) (t : Thresholds F) (current : Level)
    (values : List F) :
    (ThresholdEvaluator.machine F).outs ⟨.descending, t, current⟩ values
      = (ThresholdEvaluator.machine F).outs ⟨.ascending, t.negated, current⟩
          (values.map fun v => -v) := by
  induction values generalizing current with
  | nil => rfl
  | cons v vs ih =>
      rw [List.map_cons, Mealy.outs_cons, Mealy.outs_cons]
      show ((ThresholdEvaluator.evaluate _ _).2 :: _) = _ :: _
      have hstep : ∀ e : ThresholdEvaluator F, ∀ v,
          (ThresholdEvaluator.machine F).step e v = e.evaluate v :=
        fun _ _ => rfl
      rw [hstep, hstep, ThresholdEvaluator.evaluate_eq,
        ThresholdEvaluator.evaluate_eq, m.newLevel]
      exact congrArg _ (ih _)

end Mirror

/-- Floats mirror, with NaN and the infinities. -/
theorem floats_mirror : Mirrors FloatVal where
  neg_lt_neg x y := by
    show FloatVal.lt (FloatVal.neg x) (FloatVal.neg y) = true
      ↔ FloatVal.lt y x = true
    cases x <;> cases y <;> simp [FloatVal.neg, FloatVal.lt]
  neg_le_neg x y := by
    show FloatVal.le (FloatVal.neg x) (FloatVal.neg y) = true
      ↔ FloatVal.le y x = true
    cases x <;> cases y <;>
      simp [FloatVal.neg, FloatVal.le, FloatVal.lt, FloatVal.eq]
    exact or_congr_right eq_comm
  neg_sub x y := by
    show FloatVal.add (FloatVal.neg x) (FloatVal.neg y)
      = FloatVal.neg (FloatVal.add x y)
    cases x <;> cases y <;> simp [FloatVal.neg, FloatVal.add]
    ring

/-- **The two directions are mirror images**, for all values, levels,
thresholds and hysteresis, and so over every history. -/
theorem descending_mirrors_ascending :
    (∀ (value : FloatVal) (current : Level)
        (warning critical emergency hysteresis : FloatVal),
      levelDescending value current warning critical emergency hysteresis
        = levelAscending (-value) current (-warning) (-critical) (-emergency)
            hysteresis)
    ∧ ∀ (t : Thresholds FloatVal) (current : Level) (values : List FloatVal),
        (ThresholdEvaluator.machine FloatVal).outs ⟨.descending, t, current⟩
            values
          = (ThresholdEvaluator.machine FloatVal).outs
              ⟨.ascending, t.negated, current⟩ (values.map fun v => -v) :=
  ⟨floats_mirror.levelDescending, floats_mirror.outs⟩

/-! ## §2. Level by level. -/

/-- The levels that have a threshold. -/
inductive Alarm where
  | warning
  | critical
  | emergency
  deriving Repr, DecidableEq

def Alarm.level : Alarm → Level
  | .warning => .warning
  | .critical => .critical
  | .emergency => .emergency

/-- A level is what its alarms say. -/
theorem level_le_of_alarms {l m : Level}
    (h : ∀ a : Alarm, a.level ≤ l → a.level ≤ m) : l ≤ m := by
  cases l with
  | normal => cases m <;> decide
  | warning => exact h .warning le_rfl
  | critical => exact h .critical le_rfl
  | emergency => exact h .emergency le_rfl

section Ordered

variable {F : Type} [AddCommGroup F] [LinearOrder F] [IsOrderedAddMonoid F]

/-- Any ordered group mirrors. -/
theorem ordered_mirror : Mirrors F where
  neg_lt_neg _ _ := neg_lt_neg_iff
  neg_le_neg _ _ := neg_le_neg_iff
  neg_sub x y := by rw [neg_add, sub_eq_add_neg]

/-- The value is at the threshold or on its worse side. -/
def Direction.Reached : Direction → F → F → Prop
  | .ascending, threshold, value => threshold ≤ value
  | .descending, threshold, value => value ≤ threshold

instance (d : Direction) (threshold value : F) :
    Decidable (d.Reached threshold value) := by
  cases d <;> exact inferInstanceAs (Decidable (_ ≤ _))

/-- A threshold moved by the hysteresis, in the better direction. -/
def Direction.relaxed : Direction → F → F → F
  | .ascending, threshold, hysteresis => threshold - hysteresis
  | .descending, threshold, hysteresis => threshold + hysteresis

namespace Thresholds

/-- `thr_L`. -/
def threshold (t : Thresholds F) : Alarm → F
  | .warning => t.warning
  | .critical => t.critical
  | .emergency => t.emergency

/-- Worse levels have worse thresholds, and the hysteresis is not negative. -/
structure Ordered (t : Thresholds F) (d : Direction) : Prop where
  warning_critical : d.Reached t.warning t.critical
  critical_emergency : d.Reached t.critical t.emergency
  hysteresis_nonneg : 0 ≤ t.hysteresis

/-- The comparator of one level. -/
def comparator (t : Thresholds F) {d : Direction} (h : t.Ordered d)
    (a : Alarm) : Schmitt F where
  rises v := decide (d.Reached (t.threshold a) v)
  holds v := decide (d.Reached (d.relaxed (t.threshold a) t.hysteresis) v)
  holds_of_rises v := by
    have h0 := h.hysteresis_nonneg
    rw [decide_eq_true_iff, decide_eq_true_iff]
    cases d with
    | ascending => exact (sub_le_self _ h0).trans
    | descending => exact fun hv => hv.trans (le_add_of_nonneg_right h0)

theorem Ordered.negated {t : Thresholds F} (h : t.Ordered .descending) :
    t.negated.Ordered .ascending :=
  ⟨neg_le_neg h.warning_critical, neg_le_neg h.critical_emergency,
    h.hysteresis_nonneg⟩

end Thresholds

/-- **The recovery table, level by level**: a level is reached if the value is
past its threshold, or if it was reached and the value is past the threshold
less the hysteresis.  The other levels do not matter. -/
theorem alarm_le_levelAscending {t : Thresholds F} (h : t.Ordered .ascending)
    (value : F) (current : Level) (a : Alarm) :
    a.level ≤ levelAscending value current t.warning t.critical t.emergency
        t.hysteresis
      ↔ t.threshold a ≤ value
        ∨ (a.level ≤ current ∧ t.threshold a - t.hysteresis ≤ value) := by
  obtain ⟨w, c, e, η⟩ := t
  obtain ⟨hwc, hce, h0⟩ := h
  change w ≤ c at hwc
  change c ≤ e at hce
  change 0 ≤ η at h0
  have hw := sub_le_self w h0
  have hc := sub_le_self c h0
  have he := sub_le_self e h0
  have hwc' := sub_le_sub_right hwc η
  have hce' := sub_le_sub_right hce η
  unfold levelAscending
  cases a
  all_goals
    dsimp only [Alarm.level, Thresholds.threshold]
    -- from here on six thresholds in two chains
    generalize w - η = w' at *
    generalize c - η = c' at *
    generalize e - η = e' at *
    cases current
    all_goals
      simp only [Level.le_iff, Level.lt_iff, Level.severity, ge_iff_le,
        Nat.reduceLT, Nat.reduceLeDiff, and_true, and_false, true_and,
        false_and, if_false, or_false]
      split_ifs <;> simp only [Nat.reduceLeDiff, Nat.le_refl] <;> grind

/-- One step of the evaluator is one step of every comparator. -/
theorem alarm_le_newLevel {t : Thresholds F} {d : Direction} (h : t.Ordered d)
    (current : Level) (value : F) (a : Alarm) :
    a.level ≤ ThresholdEvaluator.newLevel ⟨d, t, current⟩ value
      ↔ (t.comparator h a).step (decide (a.level ≤ current)) value = true := by
  rw [Schmitt.step_eq_true, decide_eq_true_iff]
  show _ ↔ decide _ = true ∨ (_ ∧ decide _ = true)
  rw [decide_eq_true_iff, decide_eq_true_iff]
  cases d with
  | ascending => exact alarm_le_levelAscending h value current a
  | descending =>
      rw [ordered_mirror.newLevel]
      refine (alarm_le_levelAscending h.negated (-value) current a).trans ?_
      have hneg : t.negated.threshold a = -t.threshold a := by
        cases a <;> rfl
      have hη : t.negated.hysteresis = t.hysteresis := rfl
      rw [hneg, hη, neg_le_neg_iff, ordered_mirror.neg_sub, neg_le_neg_iff]
      rfl

/-! ## §3. Histories. -/

/-- **Each level is a comparator of its own**, over every history. -/
theorem alarm_le_levelAfter {t : Thresholds F} {d : Direction}
    (h : t.Ordered d) (a : Alarm) (values : List F) :
    a.level ≤ levelAfter d t values
      ↔ (t.comparator h a).run values = true := by
  induction values using List.reverseRecOn with
  | nil =>
      have hnormal : ¬ a.level ≤ Level.normal := by
        cases a <;> decide
      exact iff_of_false hnormal (by simp)
  | append_singleton vs v ih =>
      rw [levelAfter_concat, alarm_le_newLevel h, Schmitt.run_concat]
      have hon : decide (a.level ≤ levelAfter d t vs)
          = (t.comparator h a).run vs := by
        rw [Bool.eq_iff_iff, decide_eq_true_iff, ih]
      rw [hon]

/-- The same value twice leaves every comparator where it is. -/
theorem newLevel_twice {t : Thresholds F} {d : Direction} (h : t.Ordered d)
    (current : Level) (v : F) :
    ThresholdEvaluator.newLevel
        ⟨d, t, ThresholdEvaluator.newLevel ⟨d, t, current⟩ v⟩ v
      = ThresholdEvaluator.newLevel ⟨d, t, current⟩ v := by
  have hboth : ∀ a : Alarm,
      a.level ≤ ThresholdEvaluator.newLevel
          ⟨d, t, ThresholdEvaluator.newLevel ⟨d, t, current⟩ v⟩ v
        ↔ a.level ≤ ThresholdEvaluator.newLevel ⟨d, t, current⟩ v := by
    intro a
    have hon : decide (a.level ≤ ThresholdEvaluator.newLevel ⟨d, t, current⟩ v)
        = (t.comparator h a).step (decide (a.level ≤ current)) v := by
      rw [Bool.eq_iff_iff, decide_eq_true_iff, alarm_le_newLevel h]
    rw [alarm_le_newLevel h, hon, Schmitt.step_step, ← hon,
      decide_eq_true_iff]
  exact le_antisymm (level_le_of_alarms fun a => (hboth a).mp)
    (level_le_of_alarms fun a => (hboth a).mpr)

/-- **The evaluator, decomposed.**  For thresholds in order, over every
history from `Normal`: the level is at least `L` exactly if some value reached
the threshold of `L` and every later one stayed past it less the hysteresis;
the same value twice changes nothing; worse values never give a lower level. -/
theorem level_decomposed (d : Direction) (t : Thresholds F) (h : t.Ordered d)
    (values : List F) :
    (∀ a : Alarm, a.level ≤ levelAfter d t values
      ↔ ∃ before v after, values = before ++ v :: after
        ∧ d.Reached (t.threshold a) v
        ∧ ∀ w ∈ after,
            d.Reached (d.relaxed (t.threshold a) t.hysteresis) w)
    ∧ (∀ v, ((ThresholdEvaluator.machine F).exec (.new d t)
          (values ++ [v])).evaluate v
        = ((ThresholdEvaluator.machine F).exec (.new d t) (values ++ [v]),
            none))
    ∧ ∀ worse, List.Forall₂ d.Reached values worse →
        levelAfter d t values ≤ levelAfter d t worse := by
  refine ⟨?_, ?_, ?_⟩
  · intro a
    rw [alarm_le_levelAfter h, Schmitt.run_iff]
    refine Schmitt.latched_congr ?_ ?_
    · exact fun x => decide_eq_true_iff
    · exact fun x => decide_eq_true_iff
  · intro v
    have hexec : (ThresholdEvaluator.machine F).exec (.new d t)
        (values ++ [v]) = ⟨d, t, levelAfter d t (values ++ [v])⟩ :=
      ThresholdEvaluator.exec_eq ..
    have htwice : ThresholdEvaluator.newLevel
        ⟨d, t, levelAfter d t (values ++ [v])⟩ v
          = levelAfter d t (values ++ [v]) := by
      rw [levelAfter_concat]
      exact newLevel_twice h _ v
    rw [hexec, ThresholdEvaluator.evaluate_eq, htwice, if_pos rfl]
  · -- each alarm's comparator is monotone in its history
    intro worse hworse
    refine level_le_of_alarms fun a ha => ?_
    rw [alarm_le_levelAfter h] at ha ⊢
    refine (t.comparator h a).run_mono ?_ ?_ hworse ha
    all_goals
      intro x y hxy hx
      rw [Thresholds.comparator, decide_eq_true_iff] at hx ⊢
      cases d with
      | ascending => exact le_trans hx hxy
      | descending => exact le_trans hxy hx

/-! ## §4. The level of a value alone. -/

/-- The worst level whose threshold the value has reached. -/
def Thresholds.plainLevel (t : Thresholds F) (d : Direction) (v : F) : Level :=
  if d.Reached t.emergency v then .emergency
  else if d.Reached t.critical v then .critical
  else if d.Reached t.warning v then .warning
  else .normal

/-- A value moved by the hysteresis, in the worse direction. -/
def Direction.worsened : Direction → F → F → F
  | .ascending, v, hysteresis => v + hysteresis
  | .descending, v, hysteresis => v - hysteresis

omit [AddCommGroup F] [IsOrderedAddMonoid F] in
theorem reached_trans {d : Direction} {x y z : F} (hxy : d.Reached x y)
    (hyz : d.Reached y z) : d.Reached x z := by
  cases d with
  | ascending => exact le_trans hxy hyz
  | descending => exact le_trans hyz hxy

/-- Relaxing a threshold is worsening the value. -/
theorem reached_relaxed {d : Direction} {threshold v η : F} :
    d.Reached (d.relaxed threshold η) v
      ↔ d.Reached threshold (d.worsened v η) := by
  cases d with
  | ascending => exact sub_le_iff_le_add
  | descending => exact sub_le_iff_le_add.symm

omit [IsOrderedAddMonoid F] in
theorem alarm_le_plainLevel {t : Thresholds F} {d : Direction}
    (h : t.Ordered d) (v : F) (a : Alarm) :
    a.level ≤ t.plainLevel d v ↔ d.Reached (t.threshold a) v := by
  have hce := fun hv : d.Reached t.emergency v =>
    reached_trans h.critical_emergency hv
  have hwc := fun hv : d.Reached t.critical v =>
    reached_trans h.warning_critical hv
  unfold Thresholds.plainLevel
  cases a
  all_goals
    dsimp only [Alarm.level, Thresholds.threshold]
    split_ifs with he hc hw
    all_goals
      simp only [Level.le_iff, Level.severity]
      simp_all

/-- **A stateful level lies between two stateless ones**: that of the value,
and that of the value moved by the hysteresis in the worse direction. -/
theorem newLevel_bracket {t : Thresholds F} {d : Direction} (h : t.Ordered d)
    (current : Level) (v : F) :
    t.plainLevel d v ≤ ThresholdEvaluator.newLevel ⟨d, t, current⟩ v
      ∧ ThresholdEvaluator.newLevel ⟨d, t, current⟩ v
        ≤ t.plainLevel d (d.worsened v t.hysteresis) := by
  have hstep := fun a : Alarm =>
    (t.comparator h a).step_bracket (decide (a.level ≤ current)) v
  constructor
  · refine level_le_of_alarms fun a ha => ?_
    rw [alarm_le_plainLevel h] at ha
    exact (alarm_le_newLevel h current v a).mpr
      ((hstep a).1 (decide_eq_true ha))
  · refine level_le_of_alarms fun a ha => ?_
    have hholds := (hstep a).2 ((alarm_le_newLevel h current v a).mp ha)
    rw [alarm_le_plainLevel h, ← reached_relaxed]
    exact of_decide_eq_true hholds

end Ordered

/-- Battery percentages and their 2 % hysteresis. -/
def batteryLike : Thresholds ℚ := ⟨30, 15, 5, 2⟩

/-- `Critical` begins at 15 %, and at 16 % it is not left yet. -/
theorem level_decomposed_battery :
    batteryLike.Ordered .descending
      ∧ Level.critical ≤ levelAfter .descending batteryLike [50, 15, 16] := by
  have h : batteryLike.Ordered .descending :=
    ⟨by decide, by decide, by decide⟩
  refine ⟨h, ((level_decomposed .descending batteryLike h [50, 15, 16]).1
    .critical).mpr ⟨[50], 15, [16], rfl, ?_, ?_⟩⟩
  · show (15 : ℚ) ≤ 15
    exact le_rfl
  · intro w hw
    rw [List.mem_singleton.mp hw]
    show (16 : ℚ) ≤ 15 + 2
    norm_num

end ArgusManager
