/-
  ArgusManager.Policy.Tbt
  ───────────────────────
  **The TBT tracker over every sequence of heartbeats.**

  What the tracker holds is a function of the observations that count
  (`Tracks`): their weighted average, and the average at the end of the
  warm-up as the baseline.

    • `observe_tracks`        — one more observation,
    • `baseline_and_average`  — every sequence, with the bounds on the average
                                and on the degradation ratio.
-/
import ArgusManager.Policy.State
import Mathlib.Data.List.Induction
import Mathlib.Tactic.Linarith
import Mathlib.Tactic.NormNum

namespace ArgusManager

/-! ## §1. Observations that count. -/

/-- The TBT of a heartbeat, if it is an observation. -/
def tbtObservation : FloatVal → Option ℚ
  | .fin tbtMs => if tbtMs ≤ 0 then none else some tbtMs
  | _ => none

theorem tbtObservation_fin (tbtMs : ℚ) :
    tbtObservation (.fin tbtMs) = if tbtMs ≤ 0 then none else some tbtMs := rfl

theorem tbtObservation_eq_some {x : FloatVal} {v : ℚ} :
    tbtObservation x = some v ↔ x = .fin v ∧ 0 < v := by
  cases x with
  | fin q =>
      rw [tbtObservation_fin]
      by_cases hq : q ≤ 0
      · rw [if_pos hq]
        refine iff_of_false (by simp) ?_
        rintro ⟨h, hv⟩
        injection h with h
        exact absurd hv (not_lt.mpr (h ▸ hq))
      · rw [if_neg hq]
        constructor
        · intro h
          injection h with h
          exact ⟨congrArg _ h, h ▸ not_le.mp hq⟩
        · rintro ⟨h, _⟩
          injection h with h
          exact congrArg some h
  | nan => exact iff_of_false (by simp [tbtObservation]) (by simp)
  | negInf => exact iff_of_false (by simp [tbtObservation]) (by simp)
  | posInf => exact iff_of_false (by simp [tbtObservation]) (by simp)

/-- Anything else is ignored altogether. -/
theorem TriggerEngine.updateTbtMs_none {x : FloatVal}
    (h : tbtObservation x = none) (e : TriggerEngine) : e.updateTbtMs x = e := by
  cases x with
  | fin q =>
      have hq : q ≤ 0 := by
        by_contra hq
        rw [tbtObservation_fin, if_neg hq] at h
        exact absurd h (by simp)
      exact if_pos hq
  | nan => rfl
  | negInf => rfl
  | posInf => rfl

/-- An observation goes to the tracker, and once there is a ratio the flag
follows it. -/
theorem TriggerEngine.updateTbtMs_some {x : FloatVal} {v : ℚ}
    (h : tbtObservation x = some v) (e : TriggerEngine) :
    e.updateTbtMs x
      = { e with
          tbt := e.tbt.observe v
          trigger := { e.trigger with
            tbtDegraded := (e.tbt.observe v).degradationRatio.elim
              e.trigger.tbtDegraded fun ratio =>
                hysteresis e.trigger.tbtDegraded ratio e.config.tbtEnter
                  e.config.tbtExit } } := by
  obtain ⟨rfl, hv⟩ := tbtObservation_eq_some.mp h
  unfold updateTbtMs
  dsimp only
  rw [if_neg (not_le.mpr hv)]
  cases (e.tbt.observe v).degradationRatio <;> rfl

/-! ## §2. The average. -/

/-- The weighted average of a history: each observation counts an eighth. -/
def average : List ℚ → ℚ
  | [] => 0
  | v :: vs => vs.foldl (fun a x => 0.875 * a + 0.125 * x) v

theorem average_concat {vs : List ℚ} (h : vs ≠ []) (v : ℚ) :
    average (vs ++ [v]) = 0.875 * average vs + 0.125 * v := by
  obtain ⟨u, us, rfl⟩ := List.exists_cons_of_ne_nil h
  unfold average
  rw [List.cons_append]
  dsimp only
  rw [List.foldl_append]
  rfl

/-- What holds of all observations, and of any mix of two numbers of which it
holds, holds of the average. -/
theorem average_induction {P : ℚ → Prop} {vs : List ℚ} (hne : vs ≠ [])
    (h : ∀ v ∈ vs, P v)
    (hmix : ∀ a v, P a → P v → P (0.875 * a + 0.125 * v)) :
    P (average vs) := by
  induction vs using List.reverseRecOn with
  | nil => exact absurd rfl hne
  | append_singleton vs v ih =>
      have hv := h v (by simp)
      rcases eq_or_ne vs [] with rfl | hvs
      · exact hv
      · have hprev := ih hvs fun x hx => h x (by simp [hx])
        rw [average_concat hvs]
        exact hmix _ v hprev hv

/-- A bound of all observations is one of the average. -/
theorem le_average {lo : ℚ} {vs : List ℚ} (hne : vs ≠ [])
    (h : ∀ v ∈ vs, lo ≤ v) : lo ≤ average vs := by
  refine average_induction hne h ?_
  intro a v ha hv
  linarith

theorem average_le {hi : ℚ} {vs : List ℚ} (hne : vs ≠ [])
    (h : ∀ v ∈ vs, v ≤ hi) : average vs ≤ hi := by
  refine average_induction hne h ?_
  intro a v ha hv
  linarith

theorem average_pos {vs : List ℚ} (hne : vs ≠ []) (h : ∀ v ∈ vs, 0 < v) :
    0 < average vs := by
  refine average_induction hne h ?_
  intro a v ha hv
  linarith

/-- The observations since the 32-bit count was last 0: all of them, until it
wraps. -/
def sinceWrap (vs : List ℚ) : List ℚ :=
  vs.drop ((vs.length - 1) / 2 ^ 32 * 2 ^ 32)

theorem sinceWrap_of_lt {vs : List ℚ} (h : vs.length < 2 ^ 32) :
    sinceWrap vs = vs := by
  have hzero : (vs.length - 1) / 2 ^ 32 * 2 ^ 32 = 0 := by omega
  unfold sinceWrap
  rw [hzero, List.drop_zero]

theorem sinceWrap_ne_nil {vs : List ℚ} (h : vs ≠ []) : sinceWrap vs ≠ [] := by
  have hlen : 0 < vs.length := List.length_pos_iff.mpr h
  unfold sinceWrap
  rw [ne_eq, List.drop_eq_nil_iff]
  omega

/-- At a count of 0 the average starts over. -/
theorem sinceWrap_concat_zero {vs : List ℚ} (h : vs.length % 2 ^ 32 = 0)
    (v : ℚ) : sinceWrap (vs ++ [v]) = [v] := by
  have hlen : ((vs ++ [v]).length - 1) / 2 ^ 32 * 2 ^ 32 = vs.length := by
    rw [List.length_append, List.length_singleton]
    omega
  unfold sinceWrap
  rw [hlen, List.drop_left]

theorem sinceWrap_concat {vs : List ℚ} (h : vs.length % 2 ^ 32 ≠ 0) (v : ℚ) :
    sinceWrap (vs ++ [v]) = sinceWrap vs ++ [v] := by
  have hlen : ((vs ++ [v]).length - 1) / 2 ^ 32 * 2 ^ 32
      = (vs.length - 1) / 2 ^ 32 * 2 ^ 32 := by
    rw [List.length_append, List.length_singleton]
    omega
  have hle : (vs.length - 1) / 2 ^ 32 * 2 ^ 32 ≤ vs.length := by omega
  unfold sinceWrap
  rw [hlen, List.drop_append_of_le_length hle]

/-! ## §3. What the tracker holds. -/

namespace TbtTracker

/-- The observation that ends the warm-up: a target of 0 counts as 1. -/
def warmup (target : UInt32) : Nat := max 1 target.toNat

/-- The baseline after a history. -/
def baselineOf (target : UInt32) (vs : List ℚ) : Option ℚ :=
  if vs.length < warmup target then none
  else some (average (vs.take (warmup target)))

/-- A baseline is the average of at least one observation. -/
theorem baselineOf_eq_some {target : UInt32} {vs : List ℚ} {b : ℚ}
    (h : baselineOf target vs = some b) :
    vs ≠ [] ∧ ∃ us, us ≠ [] ∧ us ⊆ vs ∧ b = average us := by
  unfold baselineOf at h
  split at h
  next => exact absurd h (by simp)
  next hlen =>
    injection h with h
    have hpos : 0 < warmup target := Nat.lt_of_lt_of_le Nat.zero_lt_one
      (Nat.le_max_left ..)
    have hne : vs ≠ [] := by
      rintro rfl
      exact hlen hpos
    refine ⟨hne, vs.take (warmup target), ?_, List.take_subset .., h.symm⟩
    rw [ne_eq, List.take_eq_nil_iff]
    exact not_or.mpr ⟨hpos.ne', hne⟩

/-- The tracker after the observations `vs`. -/
structure Tracks (target : UInt32) (vs : List ℚ) (t : TbtTracker) : Prop where
  warmupTarget : t.warmupTarget = target
  warmupCount : t.warmupCount.toNat = vs.length % 2 ^ 32
  ewma : t.ewma = average (sinceWrap vs)
  baseline : t.baseline = baselineOf target vs

theorem new_tracks (target : UInt32) : Tracks target [] (new target) where
  warmupTarget := rfl
  warmupCount := rfl
  ewma := rfl
  baseline := (if_pos (Nat.lt_of_lt_of_le Nat.zero_lt_one
    (Nat.le_max_left ..))).symm

/-- **One more observation.**  The count wraps at 2^32 and the average then
starts over; the warm-up is over long before. -/
theorem observe_tracks {target : UInt32} {vs : List ℚ} {t : TbtTracker}
    (h : Tracks target vs t) (v : ℚ) :
    Tracks target (vs ++ [v]) (t.observe v) := by
  have htarget : target.toNat < 2 ^ 32 := target.toNat_lt
  have hnext : (t.warmupCount + 1).toNat = (vs.length + 1) % 2 ^ 32 := by
    rw [UInt32.toNat_add, h.warmupCount]
    exact Nat.mod_add_mod ..
  have hfirst : t.warmupCount = 0 ↔ vs.length % 2 ^ 32 = 0 := by
    rw [← UInt32.toNat_inj, h.warmupCount]
    rfl
  have hewma : (t.observe v).ewma = average (sinceWrap (vs ++ [v])) := by
    show (if t.warmupCount = 0 then v else 0.875 * t.ewma + 0.125 * v) = _
    by_cases hvs : vs.length % 2 ^ 32 = 0
    · rw [if_pos (hfirst.mpr hvs), sinceWrap_concat_zero hvs]
      rfl
    · have hne : vs ≠ [] := by
        intro hnil
        rw [hnil] at hvs
        exact hvs rfl
      rw [if_neg (mt hfirst.mp hvs), sinceWrap_concat hvs,
        average_concat (sinceWrap_ne_nil hne), h.ewma]
  have hdone : t.warmupCount + 1 ≥ t.warmupTarget
      ↔ target.toNat ≤ (vs.length + 1) % 2 ^ 32 := by
    rw [h.warmupTarget, ← hnext]
    exact UInt32.le_iff_toNat_le
  refine ⟨h.warmupTarget, ?_, hewma, ?_⟩
  · rw [List.length_append]
    exact hnext
  · show (if t.baseline.isNone && decide (t.warmupCount + 1 ≥ t.warmupTarget)
      then some (t.observe v).ewma else t.baseline) = _
    rw [h.baseline, hewma]
    unfold baselineOf warmup
    rw [List.length_append, List.length_singleton]
    -- before, at and after the end of the warm-up
    rcases Nat.lt_trichotomy (vs.length + 1) (max 1 target.toNat)
      with hlt | heq | hgt
    · have hbefore : vs.length < max 1 target.toNat := by omega
      have hearly : ¬ t.warmupCount + 1 ≥ t.warmupTarget := by
        rw [hdone]
        omega
      rw [if_pos hbefore, if_pos hlt, decide_eq_false hearly]
      rfl
    · have hbefore : vs.length < max 1 target.toNat := by omega
      have hafter : ¬ vs.length + 1 < max 1 target.toNat := by omega
      have hnow : t.warmupCount + 1 ≥ t.warmupTarget := by
        rw [hdone]
        omega
      have hlen : (vs ++ [v]).length = max 1 target.toNat := by
        rw [List.length_append, List.length_singleton]
        exact heq
      rw [if_pos hbefore, if_neg hafter, decide_eq_true hnow,
        List.take_of_length_le hlen.le, sinceWrap_of_lt (by omega)]
      rfl
    · have hbefore : ¬ vs.length < max 1 target.toNat := by omega
      have hafter : ¬ vs.length + 1 < max 1 target.toNat := by omega
      have htake : (vs ++ [v]).take (max 1 target.toNat)
          = vs.take (max 1 target.toNat) :=
        List.take_append_of_le_length (by omega)
      rw [if_neg hbefore, if_neg hafter, htake]
      rfl

/-- The tracker after any history of observations. -/
theorem foldl_tracks (target : UInt32) (vs : List ℚ) :
    Tracks target vs (vs.foldl observe (new target)) := by
  induction vs using List.reverseRecOn with
  | nil => exact new_tracks target
  | append_singleton vs v ih =>
      rw [List.foldl_append]
      exact observe_tracks ih v

end TbtTracker

/-- Only observations reach the tracker, and nothing but the tracker and its
flag changes. -/
theorem TriggerEngine.foldl_updateTbtMs (e : TriggerEngine)
    (calls : List FloatVal) :
    (calls.foldl updateTbtMs e).tbt
      = (calls.filterMap tbtObservation).foldl TbtTracker.observe e.tbt := by
  induction calls generalizing e with
  | nil => rfl
  | cons x calls ih =>
      rw [List.foldl_cons, ih]
      cases hx : tbtObservation x with
      | none => rw [List.filterMap_cons_none hx, updateTbtMs_none hx]
      | some v =>
          rw [List.filterMap_cons_some hx, updateTbtMs_some hx]
          rfl

/-! ## §4. Every sequence of heartbeats. -/

/-- The observations among some heartbeats are positive. -/
theorem observations_pos {calls : List FloatVal} :
    ∀ v ∈ calls.filterMap tbtObservation, 0 < v := by
  intro v hv
  obtain ⟨x, _, hx⟩ := List.mem_filterMap.mp hv
  exact (tbtObservation_eq_some.mp hx).2

/-- **Baseline and average.**  Over every sequence of `update_tbt_ms` calls:
what is no observation changes nothing; the baseline is unset before the end
of the warm-up and the average at its end ever after; the average lies between
the least and the greatest observation; so the ratio is a quotient by a
positive baseline, and above -1. -/
theorem baseline_and_average (config : TriggerConfig) (calls : List FloatVal)
    (hcount : (calls.filterMap tbtObservation).length < 2 ^ 32) :
    let e := calls.foldl TriggerEngine.updateTbtMs (.new config)
    let observed := calls.filterMap tbtObservation
    let warmup := max 1 config.tbtWarmupTokens.toNat
    (∀ x, tbtObservation x = none → e.updateTbtMs x = e)
    ∧ e.tbt.ewma = average observed
    ∧ e.tbt.baseline
        = (if observed.length < warmup then none
            else some (average (observed.take warmup)))
    ∧ (observed ≠ [] → ∃ lo hi, observed.min? = some lo
        ∧ observed.max? = some hi ∧ lo ≤ e.tbt.ewma ∧ e.tbt.ewma ≤ hi
        ∧ 0 < e.tbt.ewma)
    ∧ ∀ b, e.tbt.baseline = some b → 0 < b
        ∧ e.tbtDegradationRatio = some ((e.tbt.ewma - b) / b)
        ∧ -1 < (e.tbt.ewma - b) / b := by
  intro e observed warmup
  have htracks : TbtTracker.Tracks config.tbtWarmupTokens observed e.tbt := by
    have htbt : e.tbt = observed.foldl TbtTracker.observe
        (TbtTracker.new config.tbtWarmupTokens) :=
      TriggerEngine.foldl_updateTbtMs ..
    rw [htbt]
    exact TbtTracker.foldl_tracks _ _
  have hewma : e.tbt.ewma = average observed := by
    rw [htracks.ewma, sinceWrap_of_lt hcount]
  have hewma_pos : observed ≠ [] → 0 < e.tbt.ewma := by
    intro hne
    rw [hewma]
    exact average_pos hne observations_pos
  refine ⟨fun x hx => e.updateTbtMs_none hx, hewma, htracks.baseline, ?_, ?_⟩
  · -- an average of observations lies among them
    intro hne
    obtain ⟨lo, hlo⟩ := Option.isSome_iff_exists.mp
      (List.isSome_min?_of_ne_nil hne)
    obtain ⟨hi, hhi⟩ := Option.isSome_iff_exists.mp
      (List.isSome_max?_of_ne_nil hne)
    refine ⟨lo, hi, hlo, hhi, ?_, ?_, hewma_pos hne⟩
    · rw [hewma]
      exact le_average hne (List.min?_eq_some_iff.mp hlo).2
    · rw [hewma]
      exact average_le hne (List.max?_eq_some_iff.mp hhi).2
  · -- a baseline was an average too, at the end of the warm-up
    intro b hb
    obtain ⟨hne, us, hus, hsub, rfl⟩ := TbtTracker.baselineOf_eq_some
      (htracks.baseline.symm.trans hb)
    have hpos : 0 < average us := average_pos hus fun v hv =>
      observations_pos v (hsub hv)
    have hratio : e.tbtDegradationRatio
        = some ((e.tbt.ewma - average us) / average us) := by
      show e.tbt.baseline.map _ = _
      rw [hb, Option.map_some, if_pos hpos]
    refine ⟨hpos, hratio, ?_⟩
    rw [lt_div_iff₀ hpos]
    have := hewma_pos hne
    linarith

/-- Two heartbeats and a NaN, with a warm-up of one. -/
theorem baseline_and_average_two :
    (([.fin 10, .nan, .fin 30] : List FloatVal).filterMap
        tbtObservation).length < 2 ^ 32
      ∧ (([.fin 10, .nan, .fin 30] : List FloatVal).foldl
          TriggerEngine.updateTbtMs
          (.new { TriggerConfig.default with tbtWarmupTokens := 1 })).tbt.baseline
        = some 10 := by
  have hcount : (([.fin 10, .nan, .fin 30] : List FloatVal).filterMap
      tbtObservation).length < 2 ^ 32 := by decide
  refine ⟨hcount, ?_⟩
  rw [(baseline_and_average { TriggerConfig.default with tbtWarmupTokens := 1 }
    _ hcount).2.2.1]
  rfl

end ArgusManager
