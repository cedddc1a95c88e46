/-
  ArgusManager.Sim.Eviction
  ─────────────────────────
  An action that scales the cache by the budget of the last compression, and
  what it makes of the cache in a step.

    • `Eviction`           — the action, as the baseline scenario declares it,
    • `Eviction.evicted`   — the cache after the actions of a tick,
    • `Eviction.step_kv`   — the cache after a step.
-/
import ArgusManager.Sim.Step

namespace ArgusManager.Sim

/-! ## §1. Evictions. -/

/-- An action that scales the cache by the last compression's budget, while
this is a ratio. -/
structure Eviction (cfg : ScenarioConfig) where
  name : String
  spec : ActionSpec
  guard : CompiledExpr
  factor : CompiledExpr
  tauS : FloatVal
  declared : cfg.actions.get name = some spec
  guarded : spec.guard = some guard
  scales : spec.effects.get "kv_cache_bytes" = some (.scale (.expr factor) tauS)
  /-- `target_ratio > 0 && target_ratio < 1`. -/
  guard_eq : ∀ c x, c.num "target_ratio" = some x →
    guard.evalBoolean c
      = .ok (FloatVal.lt (.fin 0) x && FloatVal.lt x (.fin 1))
  /-- `target_ratio`. -/
  factor_eq : ∀ c x, c.num "target_ratio" = some x →
    factor.evalFloat c = .ok x

/-- The budget of the last compression, if the evictions take it. -/
def evictRatio (engine : EngineStateModel) : Option ℚ :=
  match engine.lastEvictRatio with
  | some (.fin r) => if 0 < r ∧ r < 1 then some r else none
  | _ => none

/-- The lag that an interaction sets for the cache, if it is in force. -/
def kvTau (engine : EngineStateModel) (term : InteractionTerm) :
    Option FloatVal :=
  if term.allActive engine then
    match term.effects.get "kv_cache_bytes" with
    | some (.setTau tauS) => some tauS
    | _ => none
  else none

def setTaus (cfg : ScenarioConfig) (engine : EngineStateModel) :
    List FloatVal :=
  cfg.interactions.filterMap (kvTau engine)

namespace Eviction

variable {cfg : ScenarioConfig} (ev : Eviction cfg)

/-- Nothing else changes the cache, but for its growth. -/
structure OnlyEffect : Prop where
  actions : ∀ a ∈ cfg.actions.entries, a.1 ≠ ev.name →
    a.2.effects.get "kv_cache_bytes" = none
  interactions : ∀ term ∈ cfg.interactions, ∀ e,
    term.effects.get "kv_cache_bytes" = some e → ∃ tauS, e = .setTau tauS
  derived : ∀ d ∈ cfg.derived.entries, d.1 ≠ "kv_cache_bytes"
  injections : ∀ inj ∈ cfg.externalInjections, "kv_cache_bytes" ≠ inj.var

/-- The lag of the eviction: the last one set, else its own. -/
def lag (engine : EngineStateModel) : FloatVal :=
  ((setTaus cfg engine).getLast?).getD
    (if FloatVal.lt (.fin 0) ev.tauS then ev.tauS else .fin 0)

/-- What the eviction contributes to the cache each time it is active. -/
def contributed (engine : EngineStateModel) : List Contribution :=
  match evictRatio engine with
  | some r =>
      .collect "kv_cache_bytes" .multiply (.fin r)
        :: positiveTau (.orInsertTau "kv_cache_bytes") ev.tauS
  | none => []

/-- The cache after the actions of a tick. -/
def evicted (m : FloatVal.Libm) (engine : EngineStateModel) (dtS : FloatVal)
    (kv : FloatVal) : FloatVal :=
  match evictRatio engine with
  | some r =>
      if ev.name ∈ engine.activeActions then
        lagStep m kv
          (kv * .fin (r ^ engine.activeActions.count ev.name))
          (ev.lag engine) dtS
      else kv
  | none => kv

end Eviction

/-! ## §2. The budget. -/

section Budget

variable {engine : EngineStateModel} {r : ℚ}

theorem evictRatio_some (h : evictRatio engine = some r) :
    engine.lastEvictRatio = some (.fin r) ∧ 0 < r ∧ r < 1 := by
  unfold evictRatio at h
  split at h
  next q hq =>
    split at h
    next hr =>
      obtain rfl := Option.some.inj h
      exact ⟨hq, hr⟩
    next => cases h
  next => cases h

/-- The evictions take a budget that their guard lets pass. -/
theorem evictRatio_isSome (engine : EngineStateModel) :
    (evictRatio engine).isSome
      = (FloatVal.lt (.fin 0) (engine.lastEvictRatio.getD (.fin 0))
        && FloatVal.lt (engine.lastEvictRatio.getD (.fin 0)) (.fin 1)) := by
  unfold evictRatio
  cases engine.lastEvictRatio with
  | none => simp
  | some x =>
      cases x with
      | fin q =>
          dsimp only [Option.getD_some]
          rw [FloatVal.lt_fin, FloatVal.lt_fin]
          by_cases hq : 0 < q ∧ q < 1
          · rw [if_pos hq, decide_eq_true hq.1, decide_eq_true hq.2]
            rfl
          · rw [if_neg hq, ← Bool.decide_and, decide_eq_false hq]
            rfl
      | nan => rfl
      | negInf => rfl
      | posInf => rfl

end Budget

/-! ## §3. What an eviction contributes. -/

namespace Eviction

variable {cfg : ScenarioConfig} {ev : Eviction cfg}
  {engine : EngineStateModel} {c : ExprContext}

/-- What an action contributes to the cache. -/
theorem contributionsOf_kv (honly : ev.OnlyEffect)
    (hc : c.num "target_ratio" = some (engine.lastEvictRatio.getD (.fin 0)))
    (action : String) :
    onDim "kv_cache_bytes" (contributionsOf cfg c action)
      = if action = ev.name then ev.contributed engine else [] := by
  -- only the eviction itself contributes, if its guard holds
  by_cases hname : action = ev.name
  · have hguard : ev.spec.applies c = (evictRatio engine).isSome := by
      unfold ActionSpec.applies
      rw [ev.guarded, evictRatio_isSome]
      dsimp only
      rw [ev.guard_eq c _ hc]
      rfl
    rw [if_pos hname, hname]
    unfold contributionsOf contributed
    rw [ev.declared]
    dsimp only
    rw [hguard]
    cases hr : evictRatio engine with
    | none => rfl
    | some r =>
        rw [if_pos (by rfl), onDim_effects ev.spec.effects "kv_cache_bytes"
          (actionContributions_dim cfg.composition c), ev.scales]
        have hfactor := ev.factor_eq c _ hc
        rw [(evictRatio_some hr).1] at hfactor
        show scaleContributions c "kv_cache_bytes" (.expr ev.factor) ev.tauS
          = _
        unfold scaleContributions evalExprOrValue
        dsimp only
        rw [hfactor]
        rfl
  · rw [if_neg hname]
    unfold contributionsOf
    split
    next => rfl
    next spec hspec =>
      split
      next =>
        rw [onDim_effects spec.effects "kv_cache_bytes"
          (actionContributions_dim cfg.composition c),
          honly.actions _ (StrMap.get_eq_some.mp hspec) hname]
        rfl
      next => rfl

/-- What the interactions contribute to it. -/
theorem interactionContributions_kv (honly : ev.OnlyEffect) :
    onDim "kv_cache_bytes" (interactionContributions cfg engine c)
      = (setTaus cfg engine).map (.insertTau "kv_cache_bytes") := by
  have hterms : ∀ terms : List InteractionTerm, terms ⊆ cfg.interactions →
      onDim "kv_cache_bytes" (terms.flatMap fun term =>
        if term.allActive engine then
          term.effects.entries.flatMap fun e =>
            termContributions cfg.composition c e.1 e.2
        else [])
      = (terms.filterMap (kvTau engine)).map (.insertTau "kv_cache_bytes") := by
    intro terms hsub
    induction terms with
    | nil => rfl
    | cons term rest ih =>
        rw [List.flatMap_cons, onDim_append,
          ih fun x hx => hsub (List.mem_cons_of_mem term hx)]
        by_cases hactive : term.allActive engine = true
        · rw [if_pos hactive, onDim_effects term.effects "kv_cache_bytes"
            (termContributions_dim cfg.composition c)]
          cases hget : term.effects.get "kv_cache_bytes" with
          | none =>
              have hkv : kvTau engine term = none := by
                unfold kvTau
                rw [if_pos hactive, hget]
              rw [List.filterMap_cons_none hkv]
              rfl
          | some e =>
              -- an interaction can only set the lag of the cache
              obtain ⟨tauS, rfl⟩ :=
                honly.interactions term (hsub List.mem_cons_self) e hget
              have hkv : kvTau engine term = some tauS := by
                unfold kvTau
                rw [if_pos hactive, hget]
              rw [List.filterMap_cons_some hkv]
              rfl
        · have hkv : kvTau engine term = none := by
            unfold kvTau
            rw [if_neg hactive]
          rw [if_neg hactive, List.filterMap_cons_none hkv]
          rfl
  exact hterms cfg.interactions fun _ h => h

/-- Everything contributed to the cache. -/
theorem contributions_kv (honly : ev.OnlyEffect)
    (hc : c.num "target_ratio" = some (engine.lastEvictRatio.getD (.fin 0))) :
    onDim "kv_cache_bytes" (contributions cfg engine c)
      = (List.replicate (engine.activeActions.count ev.name)
            (ev.contributed engine)).flatten
          ++ (setTaus cfg engine).map (.insertTau "kv_cache_bytes") := by
  unfold contributions
  rw [onDim_append, interactionContributions_kv honly, onDim_flatMap]
  congr 1
  induction engine.activeActions with
  | nil => rfl
  | cons action rest ih =>
      rw [List.flatMap_cons, contributionsOf_kv honly hc, ih]
      by_cases hname : action = ev.name
      · rw [if_pos hname, hname, List.count_cons_self, List.replicate_succ,
          List.flatten_cons]
      · rw [if_neg hname, List.count_cons_of_ne hname, List.nil_append]

theorem valuesOn_taus (taus : List FloatVal) (dim : String) :
    valuesOn dim (taus.map (.insertTau dim)) = [] := by
  induction taus with
  | nil => rfl
  | cons tauS taus ih => exact ih

/-- The values collected for the cache. -/
theorem valuesOn_kv (honly : ev.OnlyEffect)
    (hc : c.num "target_ratio" = some (engine.lastEvictRatio.getD (.fin 0))) :
    valuesOn "kv_cache_bytes" (contributions cfg engine c)
      = match evictRatio engine with
        | some r =>
            List.replicate (engine.activeActions.count ev.name)
              (.multiply, .fin r)
        | none => [] := by
  rw [valuesOn_onDim, contributions_kv honly hc, valuesOn_append,
    valuesOn_taus, List.append_nil]
  have hflat : ∀ n, valuesOn "kv_cache_bytes"
      (List.replicate n (ev.contributed engine)).flatten
      = (List.replicate n
          (valuesOn "kv_cache_bytes" (ev.contributed engine))).flatten := by
    intro n
    induction n with
    | zero => rfl
    | succ n ih =>
        rw [List.replicate_succ, List.flatten_cons, valuesOn_append, ih]
        rfl
  rw [hflat]
  unfold contributed
  cases evictRatio engine with
  | none =>
      dsimp only
      exact List.flatten_replicate_nil
  | some r =>
      -- the lag of a contribution is no value
      have hone : valuesOn "kv_cache_bytes"
          (.collect "kv_cache_bytes" .multiply (.fin r)
            :: positiveTau (.orInsertTau "kv_cache_bytes") ev.tauS)
          = [(.multiply, .fin r)] := by
        unfold positiveTau
        split
        next => rfl
        next => rfl
      dsimp only
      rw [hone]
      exact List.flatten_replicate_singleton

/-- The last lag set is the one that counts. -/
theorem collected_insertTaus (cs : List Contribution) (taus : List FloatVal)
    (dim : String) :
    (collected (cs ++ taus.map (.insertTau dim))).tau dim
      = taus.getLast?.or ((collected cs).tau dim) := by
  induction taus using List.reverseRecOn with
  | nil =>
      rw [List.map_nil, List.append_nil]
      rfl
  | append_singleton taus tauS _ =>
      rw [List.map_append, ← List.append_assoc, List.map_singleton,
        collected_concat, List.getLast?_concat]
      exact Function.update_self ..

/-- An effect's own lag only counts if there is none yet. -/
theorem collected_orInsertTau (cs : List Contribution) (dim : String)
    (op : CompositionOp) (value tauS : FloatVal) :
    (collected (cs ++ .collect dim op value
        :: positiveTau (.orInsertTau dim) tauS)).tau dim
      = ((collected cs).tau dim).or
          (if FloatVal.lt (.fin 0) tauS then some tauS else none) := by
  unfold positiveTau
  split
  next =>
    rw [List.append_cons, collected_concat, collected_concat]
    exact Function.update_self ..
  next =>
    rw [collected_concat, Option.or_none]
    rfl

/-- The lag of the cache, where the eviction is active. -/
theorem collected_tau_kv (honly : ev.OnlyEffect)
    (hc : c.num "target_ratio" = some (engine.lastEvictRatio.getD (.fin 0)))
    {r : ℚ} (hr : evictRatio engine = some r)
    (hactive : ev.name ∈ engine.activeActions) :
    ((collected (contributions cfg engine c)).tau "kv_cache_bytes").getD
      (.fin 0) = ev.lag engine := by
  have hown : ∀ n, (collected (List.replicate (n + 1)
      (ev.contributed engine)).flatten).tau "kv_cache_bytes"
      = if FloatVal.lt (.fin 0) ev.tauS then some ev.tauS else none := by
    intro n
    unfold contributed
    rw [hr]
    dsimp only
    induction n with
    | zero =>
        rw [List.replicate_one, List.flatten_singleton,
          ← List.nil_append (_ :: _), collected_orInsertTau]
        rfl
    | succ n ih =>
        rw [List.replicate_succ', List.flatten_append, List.flatten_singleton,
          collected_orInsertTau, ih]
        split
        next => rfl
        next => rfl
  -- the action is in force, so it has contributed at least once
  obtain ⟨n, hn⟩ := Nat.exists_eq_succ_of_ne_zero
    (List.count_pos_iff.mpr hactive).ne'
  rw [collected_tau_onDim, contributions_kv honly hc, collected_insertTaus, hn,
    hown]
  unfold lag
  cases (setTaus cfg engine).getLast? with
  | some tauS => rfl
  | none =>
      dsimp only [Option.none_or, Option.getD_none]
      split
      next => rfl
      next => rfl

/-! ## §4. The cache after a step. -/

theorem product_replicate (n : Nat) (x : ℚ) :
    FloatVal.product (List.replicate n (.fin x)) = .fin (x ^ n) := by
  induction n with
  | zero => rw [pow_zero]; rfl
  | succ n ih =>
      unfold FloatVal.product at ih ⊢
      rw [List.replicate_succ', List.foldl_append, ih, pow_succ]
      rfl

/-- **The cache after the actions.** -/
theorem applyActions_kv (honly : ev.OnlyEffect) (m : FloatVal.Libm)
    (dtS : FloatVal) (s : PhysicalState) (ctx : ExprContext) :
    (applyActions m cfg engine dtS s ctx).1.num .kvCacheBytes
      = ev.evicted m engine dtS (s.num .kvCacheBytes) := by
  by_cases hnil : engine.activeActions = []
  · have hinactive : ev.name ∉ engine.activeActions :=
      hnil ▸ List.not_mem_nil
    unfold applyActions evicted
    rw [if_pos hnil]
    split
    next => exact (if_neg hinactive).symm
    next => rfl
  · have hc := bound_targetRatio s engine ctx
    rw [applyActions_num m cfg engine dtS s ctx hnil]
    show dimResult m (((collected _).tau "kv_cache_bytes").getD _) _ _
      (entryOf (valuesOn "kv_cache_bytes" _)) = _
    rw [valuesOn_kv honly hc]
    unfold evicted
    cases hr : evictRatio engine with
    | none => rfl
    | some r =>
        dsimp only
        by_cases hactive : ev.name ∈ engine.activeActions
        · -- the ratio once for each time the action is in force
          rw [if_pos hactive, collected_tau_kv honly hc hr hactive]
          obtain ⟨n, hn⟩ := Nat.exists_eq_succ_of_ne_zero
            (List.count_pos_iff.mpr hactive).ne'
          have hhead : (List.replicate (engine.activeActions.count ev.name)
              (CompositionOp.multiply, FloatVal.fin r)).head?
              = some (.multiply, .fin r) := by
            rw [hn]
            rfl
          rw [dimResult_head m hhead, List.map_replicate]
          unfold combine
          rw [product_replicate]
        · rw [if_neg hactive, List.count_eq_zero.mpr hactive]
          rfl

/-- The growth of the cache does not see what DVFS moves. -/
theorem grownKvCache_dvfs {m : FloatVal.Libm} {dtS : FloatVal}
    {s s' : PhysicalState} (h : dvfsUpdate m cfg dtS s = some s') :
    grownKvCache cfg engine dtS s' = grownKvCache cfg engine dtS s := by
  have hkv := dvfsUpdate_frame h (f := .kvCacheBytes) (by decide) (by decide)
  have hcap := dvfsUpdate_frame h (f := .kvCacheCapacityBytes) (by decide)
    (by decide)
  have htps := dvfsUpdate_frame h (f := .throughputTps) (by decide) (by decide)
  unfold grownKvCache tokensPerDt
  rw [hkv, hcap, htps, dvfsUpdate_kvDtype h]

/-- Injections of other variables leave the cache alone. -/
theorem externalInjectionApply_kv (honly : ev.OnlyEffect) (m : FloatVal.Libm)
    (nowS dtS : FloatVal) (s : PhysicalState) :
    (externalInjectionApply m cfg nowS dtS s).num .kvCacheBytes
      = s.num .kvCacheBytes :=
  injections_frame nowS dtS (f := .kvCacheBytes) honly.injections s

/-- **The cache after a step**: its growth, and what the eviction makes of
it. -/
theorem step_kv (honly : ev.OnlyEffect) (m : FloatVal.Libm)
    (nowS dtS : FloatVal) (s : PhysicalState) (ctx : ExprContext) :
    (step m cfg engine nowS dtS s ctx).1.1.num .kvCacheBytes
      = if (dvfsUpdate m cfg dtS s).isSome then
          ev.evicted m engine dtS (grownKvCache cfg engine dtS s)
        else s.num .kvCacheBytes := by
  unfold step physicalPhases
  cases hdvfs : dvfsUpdate m cfg dtS s with
  | none => rfl
  | some s' =>
      have hderived : ∀ (r : PhysicalState × ExprContext),
          (evaluate m cfg engine r.1 r.2).1.1.num .kvCacheBytes
            = r.1.num .kvCacheBytes := by
        intro r
        exact evaluateLoop_frame (f := .kvCacheBytes) honly.derived _ _
      -- DVFS first, then the growth, the injections and the actions
      rw [if_pos Option.isSome_some, ← grownKvCache_dvfs hdvfs]
      show (evaluate m cfg engine _ _).1.1.num .kvCacheBytes = _
      rw [hderived, applyActions_kv honly, externalInjectionApply_kv honly,
        passiveDynamics_kvCacheBytes]

end Eviction

end ArgusManager.Sim
