/-
  ArgusManager.Sim.Split
  ──────────────────────
  **Running for `a` and then for `b` is running for `a + b`**, exactly if
  every period resumes at the seam.

    • `synced_seam`  — the first call and the long one agree on what is due
                       by the seam, and after it the second call's preload
                       restores what the long one has left,
    • `split_ledger` — a split that agrees has preloaded the same events,
    • `split_iff`    — both together.  The only way to fail is the cast of the
                       first instant to 64 bits (`resumes_of_no_wrap`).
-/
import ArgusManager.Sim.Runs
import Mathlib.Data.Nat.ModEq

namespace ArgusManager.Simulator

variable {π ψ σ ρ κ : Type} (env : Scenario π ψ σ ρ κ)

/-- The second half of a split run. -/
def secondRun (a b : Nat) (sim : Simulator π ψ σ ρ κ) : Outcome π ψ σ ρ κ :=
  runFor env b (runFor env a sim).sim

/-- The split run and the long one end in the same simulator, having fired the
same events at the same times and with the same ones pending; only an
observation may stand elsewhere among the events of its instant. -/
structure SplitsAt (a b : Nat) (sim : Simulator π ψ σ ρ κ) : Prop where
  state : (secondRun env a b sim).sim.state = (runFor env (a + b) sim).sim.state
  engine :
    (secondRun env a b sim).sim.engine = (runFor env (a + b) sim).sim.engine
  policy :
    (secondRun env a b sim).sim.policy = (runFor env (a + b) sim).sim.policy
  dedup : (secondRun env a b sim).sim.dedup = (runFor env (a + b) sim).sim.dedup
  rng : (secondRun env a b sim).sim.rng = (runFor env (a + b) sim).sim.rng
  lastSignalLevels : (secondRun env a b sim).sim.lastSignalLevels
    = (runFor env (a + b) sim).sim.lastSignalLevels
  now : (secondRun env a b sim).sim.clock.now
    = (runFor env (a + b) sim).sim.clock.now
  fired : Alike ((runFor env a sim).fires ++ (secondRun env a b sim).fires)
    (runFor env (a + b) sim).fires
  pending : Alike (secondRun env a b sim).sim.clock.agenda
    (runFor env (a + b) sim).sim.clock.agenda

/-! ## §1. The seam. -/

/-- Two horizons agree on what is due by the shorter one. -/
theorem preload_synced (sim : Simulator π ψ σ ρ κ) {t bound : Nat}
    (h : t ≤ bound) :
    Synced (fun x => decide (x.1 ≤ t)) (preload env t sim)
      (preload env bound sim) where
  core := (preload_core env t sim).trans (preload_core env bound sim).symm
  plain := by
    have huntil := preloaded_until env.cfg sim.clock.now h
    have hself := preloaded_until env.cfg sim.clock.now (Nat.le_refl t)
    unfold dueBy at huntil hself
    rw [preload_plain, preload_plain,
      Agenda.filter_insertAll Prod.fst _ _ sim.clock.plain_sorted,
      Agenda.filter_insertAll Prod.fst _ _ sim.clock.plain_sorted, huntil,
      hself]

/-- What is pending after a preload and due after `t`. -/
theorem dueAfter_preload (sim : Simulator π ψ σ ρ κ) (t bound : Nat) :
    dueAfter t (preload env bound sim).clock.plain
      = Agenda.insertAll Prod.fst (dueAfter t sim.clock.plain)
          (dueAfter t (preloaded env.cfg sim.clock.now bound)) := by
  unfold dueAfter
  rw [preload_plain,
    Agenda.filter_insertAll Prod.fst _ _ sim.clock.plain_sorted]

/-- With nothing due left, what is pending is due later. -/
theorem dueAfter_eq_self {t : Nat} {xs : List (Nat × EventKind)}
    (h : dueBy t xs = []) : dueAfter t xs = xs := by
  refine List.filter_eq_self.mpr fun x hx => ?_
  have hnot := List.filter_eq_nil_iff.mp h x hx
  simpa using hnot

/-- Ticks up to the seam leave the events after it, as they were preloaded. -/
theorem ticks_seam {n bound : Nat} {sim : Simulator π ψ σ ρ κ} (hn : 0 < n)
    (hok : (ticks env n (preload env bound sim)).result = .ok ()) :
    (ticks env n (preload env bound sim)).sim.clock.plain
      = Agenda.insertAll Prod.fst
          (dueAfter (sim.clock.now + n * env.tickDt) sim.clock.plain)
          (dueAfter (sim.clock.now + n * env.tickDt)
            (preloaded env.cfg sim.clock.now bound)) := by
  obtain ⟨n, rfl⟩ : ∃ k, n = k + 1 := ⟨n - 1, by omega⟩
  have hdue := ticks_due env n hok
  rw [preload_now] at hdue
  -- ticking leaves what is due later as the preload put it
  have hafter : dueAfter (sim.clock.now + (n + 1) * env.tickDt)
      (ticks env (n + 1) (preload env bound sim)).sim.clock.plain = _ :=
    ticks_after env (n + 1) (Nat.le_of_eq (by rw [preload_now]))
  rw [← dueAfter_preload, ← hafter, dueAfter_eq_self hdue]

/-- **At the seam both runs stand alike**: the second call's preload restores
what the long call has left. -/
theorem synced_seam {n m : Nat} {sim : Simulator π ψ σ ρ κ} (hn : 0 < n)
    (hok : (ticks env n (preload env (sim.clock.now + n * env.tickDt)
      sim)).result = .ok ())
    (hresumes : Resumes env.cfg sim.clock.now
      (sim.clock.now + n * env.tickDt)
      (sim.clock.now + n * env.tickDt + m * env.tickDt)) :
    let seam := sim.clock.now + n * env.tickDt
    let bound := seam + m * env.tickDt
    let first := ticks env n (preload env seam sim)
    let long := ticks env n (preload env bound sim)
    long.result = .ok () ∧ Alike first.fires long.fires
      ∧ Synced (fun _ => true) (preload env bound first.sim) long.sim := by
  intro seam bound first long
  have hbound : seam ≤ bound := Nat.le_add_right _ _
  obtain ⟨hsync, hresult, hfires⟩ := ticks_synced env n
    (preload_synced env sim hbound) fun x hx => by
      rw [preload_now] at hx
      exact decide_eq_true hx
  have hlong : long.result = .ok () := hresult.symm.trans hok
  refine ⟨hlong, hfires, ?_, ?_⟩
  · exact (preload_core env bound first.sim).trans hsync.core
  · have hnow : first.sim.clock.now = seam := by
      have := ticks_now env n hok
      rw [preload_now] at this
      exact this
    -- nothing the first call preloaded is due after the seam
    have hnone : dueAfter seam (preloaded env.cfg sim.clock.now seam) = [] := by
      refine List.filter_eq_nil_iff.mpr fun x hx => ?_
      have hle := preloaded_le hx
      simpa using hle
    have hfirst : first.sim.clock.plain = dueAfter seam sim.clock.plain := by
      have := ticks_seam env hn hok
      rw [hnone] at this
      exact this
    have hthen : long.sim.clock.plain = _ := ticks_seam env hn hlong
    rw [List.filter_true, List.filter_true, preload_plain, hnow, hfirst, hthen,
      preloaded_of_resumes (Nat.le_add_right _ _) hresumes]

/-! ## §2. The ledger of a split. -/

/-- The plain events a call starts with, as far as they count. -/
theorem preload_perm (bound : Nat) (sim : Simulator π ψ σ ρ κ) :
    (preload env bound sim).clock.plain.Perm
      (sim.clock.plain ++ preloaded env.cfg sim.clock.now bound) := by
  rw [preload_plain]
  exact Agenda.perm_insertAll Prod.fst _ _

/-- **What a call fires and leaves is what was pending and what it
preloads.** -/
theorem runFor_ledger {d : Nat} (hd : env.tickDt ∣ d)
    (sim : Simulator π ψ σ ρ κ) :
    ((runFor env d sim).fires.filter isPlain
        ++ (runFor env d sim).sim.clock.plain).Perm
      (sim.clock.plain
        ++ preloaded env.cfg sim.clock.now (sim.clock.now + d)) := by
  rw [runFor_ticks env hd]
  exact (ticks_ledger env _ _).1.trans (preload_perm env _ sim)

/-- A split that fires and leaves the same events as the long run has
preloaded the same events after the seam. -/
theorem split_ledger {a b : Nat} {sim : Simulator π ψ σ ρ κ}
    (ha : env.tickDt ∣ a) (hb : env.tickDt ∣ b)
    (hnow : (runFor env a sim).sim.clock.now = sim.clock.now + a)
    (hsplit : SplitsAt env a b sim) :
    (preloaded env.cfg (sim.clock.now + a) (sim.clock.now + a + b)).Perm
      (dueAfter (sim.clock.now + a)
        (preloaded env.cfg sim.clock.now (sim.clock.now + a + b))) := by
  have hfirst := runFor_ledger env ha sim
  have hsecond := runFor_ledger env hb (runFor env a sim).sim
  have hlong := runFor_ledger env (Nat.dvd_add ha hb) sim
  have hfired := hsplit.fired.perm.filter isPlain
  have hpending := hsplit.pending.perm.filter isPlain
  -- the long call's list, cut at the seam
  have hcut : (preloaded env.cfg sim.clock.now (sim.clock.now + a)
      ++ dueAfter (sim.clock.now + a)
        (preloaded env.cfg sim.clock.now (sim.clock.now + a + b))).Perm
      (preloaded env.cfg sim.clock.now (sim.clock.now + a + b)) := by
    rw [← preloaded_until env.cfg sim.clock.now
      (Nat.le_add_right (sim.clock.now + a) b)]
    exact perm_due _ _
  rw [hnow] at hsecond
  rw [← Nat.add_assoc] at hlong
  rw [List.filter_append] at hfired
  -- count an event `x` in each of the six
  refine List.perm_iff_count.mpr fun x => ?_
  have h1 := hfirst.count_eq x
  have h2 := hsecond.count_eq x
  have h3 := hlong.count_eq x
  have h4 := hfired.count_eq x
  have h5 := hpending.count_eq x
  have h6 := hcut.count_eq x
  unfold secondRun at h4 h5
  rw [List.count_append] at h1 h2 h3 h4 h6
  rw [List.count_append] at h1 h2 h3
  change List.count x (runFor env b (runFor env a sim).sim).sim.clock.plain
    = List.count x (runFor env (a + b) sim).sim.clock.plain at h5
  omega

/-! ## §3. The split. -/

/-- If every period resumes, the two runs are alike to the order of events:
only observations may stand elsewhere among the others. -/
theorem split_alike {n m : Nat} (sim : Simulator π ψ σ ρ κ) (hn : 0 < n)
    (hok : (ticks env n (preload env (sim.clock.now + n * env.tickDt)
      sim)).result = .ok ())
    (hresumes : Resumes env.cfg sim.clock.now
      (sim.clock.now + n * env.tickDt)
      (sim.clock.now + n * env.tickDt + m * env.tickDt)) :
    let bound := sim.clock.now + n * env.tickDt + m * env.tickDt
    let first := ticks env n (preload env (sim.clock.now + n * env.tickDt) sim)
    let second := ticks env m (preload env bound first.sim)
    let long := ticks env (n + m) (preload env bound sim)
    second.sim.core = long.sim.core
      ∧ second.sim.clock.plain = long.sim.clock.plain
      ∧ second.result = long.result
      ∧ Alike (first.fires ++ second.fires) long.fires := by
  intro bound first second long
  obtain ⟨hlong, hbefore, hseam⟩ := synced_seam env (m := m) hn hok hresumes
  obtain ⟨hsync, hresult, hafter⟩ := ticks_synced env m hseam fun _ _ => rfl
  have hsplit : long = _ := ticks_add env n m (preload env bound sim)
  rw [andThen_ok hlong] at hsplit
  have hplain := hsync.plain
  rw [List.filter_true, List.filter_true] at hplain
  rw [hsplit]
  refine ⟨hsync.core, hplain, hresult, ?_⟩
  have happend := hbefore.append hafter
  unfold Outcome.fires at happend ⊢
  dsimp only
  rw [List.map_append]
  exact happend

/-- Same core and same plain events: the same events pending. -/
theorem agenda_alike {a b : Simulator π ψ σ ρ κ} (hcore : a.core = b.core)
    (hplain : a.clock.plain = b.clock.plain) :
    Alike a.clock.agenda b.clock.agenda :=
  alike_of_kinds a.clock.agenda_sorted b.clock.agenda_sorted hplain
    (congrArg Core.observations hcore)

/-- **The exact condition for split invariance**: at the end of the first call
every period goes on where that call left it. -/
theorem split_iff {a b : Nat} {sim : Simulator π ψ σ ρ κ} (hpos : 0 < a)
    (ha : env.tickDt ∣ a) (hb : env.tickDt ∣ b)
    (hfirst : (runFor env a sim).result = .ok ()) :
    SplitsAt env a b sim
      ↔ Resumes env.cfg sim.clock.now (sim.clock.now + a)
          (sim.clock.now + a + b) := by
  have hnow : (runFor env a sim).sim.clock.now = sim.clock.now + a := by
    rw [runFor_ticks env ha] at hfirst ⊢
    rw [ticks_now env _ hfirst, preload_now, Nat.div_mul_cancel ha]
  constructor
  · intro hsplit
    exact (preloaded_resumes _ (Nat.le_add_right _ _)).mp
      (split_ledger env ha hb hnow hsplit)
  · intro hresumes
    have hdt := env.tickDt_pos
    have hn : 0 < a / env.tickDt :=
      Nat.div_pos (Nat.le_of_dvd hpos ha) hdt
    have hma := Nat.div_mul_cancel ha
    have hmb := Nat.div_mul_cancel hb
    rw [runFor_ticks env ha] at hfirst
    have halike := split_alike env (n := a / env.tickDt) (m := b / env.tickDt)
      sim hn
    rw [hma, hmb] at halike
    obtain ⟨hcore, hplain, _, hfires⟩ := halike hfirst hresumes
    -- the three calls, as ticks
    have hone := runFor_ticks env ha sim
    have htwo : secondRun env a b sim = _ := runFor_ticks env hb _
    have hlong := runFor_ticks env (Nat.dvd_add ha hb) sim
    rw [hnow, hone] at htwo
    rw [← Nat.add_assoc, Nat.add_div_of_dvd_right ha] at hlong
    have hpending := agenda_alike hcore hplain
    rw [← htwo, ← hlong] at hcore hpending
    rw [← htwo, ← hone, ← hlong] at hfires
    exact {
      state := congrArg Core.state hcore
      engine := congrArg Core.engine hcore
      policy := congrArg Core.policy hcore
      dedup := congrArg Core.dedup hcore
      rng := congrArg Core.rng hcore
      lastSignalLevels := congrArg Core.lastSignalLevels hcore
      now := congrArg Core.now hcore
      fired := hfires
      pending := hpending }

/-- Heartbeats every second: two seconds and then one are three. -/
theorem split_idle :
    SplitsAt (idleScenario (fromSecs 1)) (fromSecs 2) (fromSecs 1)
      idleSimulator :=
  (split_iff (idleScenario (fromSecs 1)) (by decide) (by decide) (by decide)
    rfl).mpr (resumes_of_no_wrap _ (by decide) (by decide))

/-- A heartbeat interval of 18446744074.75 s: the first instant is cut to
1.04 s, and the second call fires it again. -/
theorem split_wraps :
    let env := idleScenario 18446744074750000000
    (runFor env (fromSecs 2) idleSimulator).result = .ok ()
    ∧ (secondRun env (fromSecs 2) (fromSecs 1) idleSimulator).result = .ok ()
    ∧ (runFor env (fromSecs 2 + fromSecs 1) idleSimulator).result = .ok ()
    ∧ ¬ SplitsAt env (fromSecs 2) (fromSecs 1) idleSimulator := by
  refine ⟨rfl, rfl, rfl, fun h => ?_⟩
  have hlength : 2 = 1 := h.fired.perm.length_eq
  exact absurd hlength (by decide)

end ArgusManager.Simulator
