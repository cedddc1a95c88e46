/-
  ArgusManager.Sim.Horizon
  ────────────────────────
  **`run_until` as `run_for`**: with a predicate that never holds it makes the
  same ticks, but preloads 60 s at most.  Both end alike exactly if nothing
  that `run_for` preloads lies beyond (`until_iff`): every event it misses is
  missing from the records or from the queue (`ticks_count`).
-/
import ArgusManager.Sim.Runs

namespace ArgusManager.Simulator

variable {π ψ σ ρ κ : Type} (env : Scenario π ψ σ ρ κ)

/-- `run_until` leaves what `run_for` leaves; it reports the maximum duration
where `run_for` reports success. -/
structure UntilAgrees (predicate : Nat → Simulator π ψ σ ρ κ → Bool)
    (max : Nat) (sim : Simulator π ψ σ ρ κ) : Prop where
  trajectory : (runUntil env predicate max sim).sim.trajectory
    = (runFor env max sim).sim.trajectory
  state : (runUntil env predicate max sim).sim.state
    = (runFor env max sim).sim.state
  engine : (runUntil env predicate max sim).sim.engine
    = (runFor env max sim).sim.engine
  policy : (runUntil env predicate max sim).sim.policy
    = (runFor env max sim).sim.policy
  clock : (runUntil env predicate max sim).sim.clock
    = (runFor env max sim).sim.clock
  result : (runUntil env predicate max sim).result
    = untilResult (runFor env max sim).result

/-- No periodic instant and no injection mark of the next `max` lies more than
60 s ahead. -/
def WithinHorizon (cfg : ScenarioConfig) (now max : Nat) : Prop :=
  (∀ x ∈ periods cfg, x.2 ≠ 0 →
    ∀ k, firstInstant now x.2 + k * x.2 ≤ now + max →
      firstInstant now x.2 + k * x.2 ≤ now + HORIZON)
  ∧ ∀ mark ∈ injectionMarks 0 cfg.externalInjections,
      now + HORIZON < mark.1 → now + max < mark.1

/-! ## §1. What the horizon cuts off. -/

/-- Nothing beyond the horizon means nothing preloaded beyond it. -/
theorem withinHorizon_iff (cfg : ScenarioConfig) (now max : Nat) :
    WithinHorizon cfg now max
      ↔ ∀ e ∈ preloaded cfg now (now + max), e.1 ≤ now + min max HORIZON := by
  constructor
  · intro h e he
    have hle := preloaded_le he
    have hhorizon : e.1 ≤ now + HORIZON := by
      rcases List.mem_append.mp he with he | he
      · obtain ⟨x, hx, he⟩ := List.mem_flatMap.mp he
        obtain ⟨hp, _, hbound, k, hk⟩ := mem_periodicEntries.mp he
        rw [hk] at hbound ⊢
        exact h.1 x hx hp k hbound
      · have hmark := List.mem_of_mem_filter (List.mem_of_mem_filter he)
        by_contra hfar
        have hpast := h.2 e hmark (by omega)
        omega
    omega
  · intro h
    constructor
    · intro x hx hp k hk
      have hmem : (firstInstant now x.2 + k * x.2, x.1)
          ∈ preloaded cfg now (now + max) :=
        List.mem_append_left _ (List.mem_flatMap.mpr
          ⟨x, hx, mem_periodicEntries.mpr ⟨hp, rfl, hk, k, rfl⟩⟩)
      have hle := h _ hmem
      dsimp only at hle
      omega
    · intro mark hmark hfar
      by_contra hin
      -- a mark in between is preloaded
      have hmem : mark ∈ preloaded cfg now (now + max) := by
        refine List.mem_append_right _ (List.mem_filter.mpr ⟨?_, ?_⟩)
        · exact List.mem_filter.mpr ⟨hmark, decide_eq_true (by omega)⟩
        · exact decide_eq_true (by omega)
      have hle := h mark hmem
      omega

/-- Then both calls preload the same list, and otherwise a shorter one. -/
theorem preloaded_horizon (cfg : ScenarioConfig) (now max : Nat) :
    WithinHorizon cfg now max
      ↔ (preloaded cfg now (now + min max HORIZON)).length
        = (preloaded cfg now (now + max)).length := by
  have huntil : dueBy (now + min max HORIZON)
      (preloaded cfg now (now + max)) = _ :=
    preloaded_until cfg now (by omega)
  rw [withinHorizon_iff, ← huntil]
  unfold dueBy
  rw [List.length_filter_eq_length_iff]
  constructor
  · intro h e he
    exact decide_eq_true (h e he)
  · intro h e he
    exact of_decide_eq_true (h e he)

/-- No call of a minute or less is cut off. -/
theorem withinHorizon_of_short (cfg : ScenarioConfig) (now : Nat) {max : Nat}
    (h : max ≤ HORIZON) : WithinHorizon cfg now max := by
  refine (withinHorizon_iff cfg now max).mpr fun e he => ?_
  have hle := preloaded_le he
  omega

/-! ## §2. Both drivers. -/

/-- **The count**: firings recorded and plain events pending. -/
theorem ticks_count (n bound : Nat) (sim : Simulator π ψ σ ρ κ) :
    (ticks env n (preload env bound sim)).sim.trajectory.firings.length
        + (ticks env n (preload env bound sim)).sim.clock.plain.length
      = sim.trajectory.firings.length + sim.clock.plain.length
        + (preloaded env.cfg sim.clock.now bound).length := by
  obtain ⟨hperm, hfirings⟩ := ticks_ledger env n (preload env bound sim)
  have hlength := hperm.length_eq
  have hstart := (Agenda.perm_insertAll Prod.fst sim.clock.plain
    (preloaded env.cfg sim.clock.now bound)).length_eq
  rw [← preload_plain] at hstart
  rw [List.length_append] at hlength hstart
  rw [hfirings, List.length_append, List.length_map]
  show sim.trajectory.firings.length + _ + _ = _
  omega

/-- **The exact condition for `run_until` to do what `run_for` does** under a
predicate that never holds: nothing to preload beyond the horizon. -/
theorem until_iff {predicate : Nat → Simulator π ψ σ ρ κ → Bool}
    (hnever : ∀ calls sim, predicate calls sim = false) {max : Nat}
    (hmax : env.tickDt ∣ max) (sim : Simulator π ψ σ ρ κ) :
    UntilAgrees env predicate max sim
      ↔ WithinHorizon env.cfg sim.clock.now max := by
  have huntil := runUntil_ticks env hnever hmax sim
  have hfor := runFor_ticks env hmax sim
  constructor
  · intro h
    have hshort := ticks_count env (max / env.tickDt)
      (sim.clock.now + min max HORIZON) sim
    have hlong := ticks_count env (max / env.tickDt) (sim.clock.now + max) sim
    have htrajectory := h.trajectory
    have hclock := h.clock
    rw [huntil, hfor] at htrajectory hclock
    dsimp only at htrajectory hclock
    rw [htrajectory, hclock] at hshort
    exact (preloaded_horizon env.cfg sim.clock.now max).mpr (by omega)
  · intro h
    -- the same list is preloaded, so the runs are the same
    have hlists : preloaded env.cfg sim.clock.now
          (sim.clock.now + min max HORIZON)
        = preloaded env.cfg sim.clock.now (sim.clock.now + max) := by
      have hcut : dueBy (sim.clock.now + min max HORIZON)
          (preloaded env.cfg sim.clock.now (sim.clock.now + max)) = _ :=
        preloaded_until env.cfg sim.clock.now (by omega)
      rw [← hcut]
      refine List.filter_eq_self.mpr fun e he => ?_
      exact decide_eq_true ((withinHorizon_iff _ _ _).mp h e he)
    have hsame : preload env (sim.clock.now + min max HORIZON) sim
        = preload env (sim.clock.now + max) sim := by
      unfold preload
      rw [preloadEvents_eq, preloadEvents_eq, hlists]
    rw [hsame] at huntil
    rw [← hfor] at huntil
    exact {
      trajectory := by rw [huntil]
      state := by rw [huntil]
      engine := by rw [huntil]
      policy := by rw [huntil]
      clock := by rw [huntil]
      result := by rw [huntil] }

/-- Heartbeats every second: a minute is a minute. -/
theorem until_idle :
    UntilAgrees (idleScenario (fromSecs 1)) (fun _ _ => false) (fromSecs 60)
      idleSimulator :=
  (until_iff (idleScenario (fromSecs 1)) (fun _ _ => rfl) (by decide)
    idleSimulator).mpr (withinHorizon_of_short _ _ (by decide))

/-- A heartbeat every 80 s, in ticks of 20 s: in 80 s `run_for` fires one and
`run_until` none. -/
theorem until_misses :
    ¬ UntilAgrees
      { idleScenario (fromSecs 80) with
        tickDt := fromSecs 20
        tickDt_pos := by decide }
      (fun _ _ => false) (fromSecs 80) idleSimulator := by
  intro h
  have hlength : 4 = 5 := congrArg List.length h.trajectory
  exact absurd hlength (by decide)

end ArgusManager.Simulator
