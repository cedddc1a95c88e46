/-
  ArgusManager.Evaluator
  ──────────────────────
  The threshold evaluator behind the monitors (`src/evaluator.rs`): escalation
  is immediate and may skip levels, recovery has to cross a threshold moved by
  the hysteresis.

  `F` is the type of the numbers compared: exact numbers, or floats with their
  NaN, whichever a result is about.
-/
import ArgusManager.Lib.Mealy
import ArgusManager.Signal

namespace ArgusManager

/-! ## §1. The evaluator. -/

inductive Direction where
  /-- Higher values are worse. -/
  | ascending
  /-- Lower values are worse. -/
  | descending
  deriving Repr, DecidableEq

/-- Threshold configuration of one metric. -/
structure Thresholds (F : Type) where
  warning : F
  critical : F
  emergency : F
  hysteresis : F

structure ThresholdEvaluator (F : Type) where
  direction : Direction
  thresholds : Thresholds F
  current : Level

section Definitions

variable {F : Type} [LT F] [LE F] [Add F] [Sub F] [DecidableLT F]
  [DecidableLE F]

/-- `level_ascending`: higher is worse. -/
def levelAscending (value : F) (current : Level)
    (warningUp criticalUp emergencyUp hysteresis : F) : Level :=
  let warningDown := warningUp - hysteresis
  let criticalDown := criticalUp - hysteresis
  let emergencyDown := emergencyUp - hysteresis
  -- escalation: jump to the highest triggered level
  if value ≥ emergencyUp ∧ current < .emergency then .emergency
  else if value ≥ criticalUp ∧ current < .critical then .critical
  else if value ≥ warningUp ∧ current < .warning then .warning
  else
    -- recovery: drop when the value crosses the recovery threshold
    match current with
    | .emergency =>
        if value < emergencyDown then
          if value < warningDown then .normal
          else if value < criticalDown then .warning
          else .critical
        else .emergency
    | .critical =>
        if value < criticalDown then
          if value < warningDown then .normal else .warning
        else .critical
    | .warning => if value < warningDown then .normal else .warning
    | .normal => .normal

/-- `level_descending`: lower is worse. -/
def levelDescending (value : F) (current : Level)
    (warningBelow criticalBelow emergencyBelow hysteresis : F) : Level :=
  let warningUp := warningBelow + hysteresis
  let criticalUp := criticalBelow + hysteresis
  let emergencyUp := emergencyBelow + hysteresis
  if value ≤ emergencyBelow ∧ current < .emergency then .emergency
  else if value ≤ criticalBelow ∧ current < .critical then .critical
  else if value ≤ warningBelow ∧ current < .warning then .warning
  else
    match current with
    | .emergency =>
        if value > emergencyUp then
          if value > warningUp then .normal
          else if value > criticalUp then .warning
          else .critical
        else .emergency
    | .critical =>
        if value > criticalUp then
          if value > warningUp then .normal else .warning
        else .critical
    | .warning => if value > warningUp then .normal else .warning
    | .normal => .normal

namespace ThresholdEvaluator

def new (direction : Direction) (thresholds : Thresholds F) :
    ThresholdEvaluator F where
  direction := direction
  thresholds := thresholds
  current := .normal

/-- The level the next value leads to. -/
def newLevel (e : ThresholdEvaluator F) (value : F) : Level :=
  match e.direction with
  | .ascending =>
      levelAscending value e.current e.thresholds.warning
        e.thresholds.critical e.thresholds.emergency e.thresholds.hysteresis
  | .descending =>
      levelDescending value e.current e.thresholds.warning
        e.thresholds.critical e.thresholds.emergency e.thresholds.hysteresis

/-- Evaluate a new value; the new level, if it changed. -/
def evaluate (e : ThresholdEvaluator F) (value : F) :
    ThresholdEvaluator F × Option Level :=
  if e.newLevel value ≠ e.current then
    ({ e with current := e.newLevel value }, some (e.newLevel value))
  else (e, none)

def level (e : ThresholdEvaluator F) : Level := e.current

/-- The evaluator fed with one value after the other. -/
def machine (F : Type) [LT F] [LE F] [Add F] [Sub F] [DecidableLT F]
    [DecidableLE F] : Mealy (ThresholdEvaluator F) F (Option Level) :=
  ⟨evaluate⟩

/-- **Everything one value can do**: the level becomes the new one, and is
reported if that is a change. -/
theorem evaluate_eq (e : ThresholdEvaluator F) (value : F) :
    e.evaluate value
      = ({ e with current := e.newLevel value },
          if e.newLevel value = e.current then none
          else some (e.newLevel value)) := by
  unfold evaluate
  by_cases h : e.newLevel value = e.current
  · rw [if_neg (not_not.mpr h), if_pos h, h]
  · rw [if_pos h, if_neg h]

/-- The direction and the thresholds stay. -/
theorem exec_eq (d : Direction) (t : Thresholds F) (values : List F)
    (current : Level) :
    (machine F).exec ⟨d, t, current⟩ values
      = ⟨d, t, ((machine F).exec ⟨d, t, current⟩ values).level⟩ := by
  induction values generalizing current with
  | nil => rfl
  | cons v vs ih =>
      have hstep : ((machine F).step ⟨d, t, current⟩ v).1
          = ⟨d, t, newLevel ⟨d, t, current⟩ v⟩ := by
        show (evaluate _ _).1 = _
        rw [evaluate_eq]
      rw [Mealy.exec_cons, hstep]
      exact ih _

/-- The level after a history that starts at `Normal`. -/
def levelAfter (d : Direction) (t : Thresholds F) (values : List F) : Level :=
  ((machine F).exec (new d t) values).level

/-- One more value, one more step of the recovery table. -/
theorem levelAfter_concat (d : Direction) (t : Thresholds F) (values : List F)
    (v : F) :
    levelAfter d t (values ++ [v])
      = newLevel ⟨d, t, levelAfter d t values⟩ v := by
  have hbefore : (machine F).exec (new d t) values
      = ⟨d, t, levelAfter d t values⟩ := exec_eq ..
  have hstep : levelAfter d t (values ++ [v])
      = (evaluate ((machine F).exec (new d t) values) v).1.level := by
    unfold levelAfter
    rw [Mealy.exec_append]
    rfl
  rw [hstep, hbefore, evaluate_eq]
  rfl

end ThresholdEvaluator

end Definitions

end ArgusManager
