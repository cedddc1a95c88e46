/-
  ArgusManager.Sim.Instants
  ─────────────────────────
  **Each instant fires once**, over any sequence of calls.

  A call preloads its events whatever the queue holds and whatever has fired,
  so an earlier call may have left, or already fired, what it preloads again.
  A call makes a `CleanStart` if

    • nothing preloaded earlier is pending as far as the call's horizon,
    • nothing has fired between the clock and the horizon (a tick that failed
      fired its events and did not advance the clock),
    • every period's first instant lies after the clock (it is cut to 64
      bits).

  In every run whose calls all start clean, no periodic event fires twice at
  one instant and no injection mark twice (`fires_once`).
-/
import ArgusManager.Sim.Runs

namespace ArgusManager.Simulator

variable {π ψ σ ρ κ : Type}

/-! ## §1. Calls. -/

/-- A call of a driver. -/
inductive SimCall (π ψ σ ρ κ : Type) where
  | runFor (duration : Nat)
  | runUntil (predicate : Nat → Simulator π ψ σ ρ κ → Bool) (max : Nat)

/-- How far the call preloads. -/
def SimCall.horizon (now : Nat) : SimCall π ψ σ ρ κ → Nat
  | .runFor duration => now + duration
  | .runUntil _ max => now + min max HORIZON

variable (env : Scenario π ψ σ ρ κ)

def call (sim : Simulator π ψ σ ρ κ) : SimCall π ψ σ ρ κ → Outcome π ψ σ ρ κ
  | .runFor duration => runFor env duration sim
  | .runUntil predicate max => runUntil env predicate max sim

/-- A simulator driven by calls; the answer is what fired. -/
def machine : Mealy (Simulator π ψ σ ρ κ) (SimCall π ψ σ ρ κ)
    (List (Nat × EventKind)) :=
  ⟨fun sim c => ((call env sim c).sim, (call env sim c).fires)⟩

abbrev SimStep (π ψ σ ρ κ : Type) :=
  Mealy.Step (Simulator π ψ σ ρ κ) (SimCall π ψ σ ρ κ)
    (List (Nat × EventKind))

/-- Everything that fired in some calls, in order. -/
def firedIn (h : List (SimStep π ψ σ ρ κ)) : List (Nat × EventKind) :=
  h.flatMap Mealy.Step.output

/-- **A call is its preload and ticks.** -/
theorem call_ticks (sim : Simulator π ψ σ ρ κ) (c : SimCall π ψ σ ρ κ) :
    ∃ n, (call env sim c).sim
        = (ticks env n (preload env (c.horizon sim.clock.now) sim)).sim
      ∧ (call env sim c).fires
        = (ticks env n (preload env (c.horizon sim.clock.now) sim)).fires := by
  cases c with
  | runFor duration =>
      obtain ⟨n, hn⟩ := runForLoop_some env (sim.clock.now + duration)
        (passes env duration) (preload env (sim.clock.now + duration) sim)
      exact ⟨n, congrArg Outcome.sim hn, congrArg Outcome.fires hn⟩
  | runUntil predicate max =>
      obtain ⟨n, hsim, hfired⟩ := runUntilLoop_some env predicate
        (sim.clock.now + max) (passes env max) 0
        (preload env (sim.clock.now + min max HORIZON) sim)
      exact ⟨n, hsim, congrArg (List.map ScheduledEvent.entry) hfired⟩

/-! ## §2. Clean starts. -/

/-- The call preloads nothing that is pending or has fired. -/
structure CleanStart (sim : Simulator π ψ σ ρ κ) (bound : Nat) : Prop where
  pending : ∀ x ∈ sim.clock.plain, bound < x.1
  recorded : ∀ t ∈ sim.trajectory.firings,
    asSecs sim.clock.now < t → asSecs bound < t
  instants : ∀ x ∈ periods env.cfg, x.2 ≠ 0 →
    sim.clock.now < firstInstant sim.clock.now x.2

theorem asSecs_lt {a b : Nat} : asSecs a < asSecs b ↔ a < b := by
  unfold asSecs
  rw [div_lt_div_iff_of_pos_right (by norm_num), Nat.cast_lt]

theorem asSecs_le {a b : Nat} : asSecs a ≤ asSecs b ↔ a ≤ b := by
  rw [← not_lt, ← Nat.not_lt, asSecs_lt]

theorem asSecs_add (a b : Nat) : asSecs (a + b) = asSecs a + asSecs b := by
  unfold asSecs
  rw [Nat.cast_add, add_div]

/-- With every first instant after the clock, so is everything preloaded. -/
theorem preloaded_gt {cfg : ScenarioConfig} {now bound : Nat}
    (h : ∀ x ∈ periods cfg, x.2 ≠ 0 → now < firstInstant now x.2)
    {e : Nat × EventKind} (he : e ∈ preloaded cfg now bound) : now < e.1 := by
  rcases List.mem_append.mp he with he | he
  · obtain ⟨x, hx, he⟩ := List.mem_flatMap.mp he
    obtain ⟨hp, _, _, k, hk⟩ := mem_periodicEntries.mp he
    have hfirst := h x hx hp
    omega
  · have hmark := (List.mem_filter.mp (List.mem_of_mem_filter he)).2
    exact of_decide_eq_true hmark

theorem injectionMarks_nodup (injs : List ExternalInjection) (idx : Nat) :
    (injectionMarks idx injs).Nodup := by
  induction injs generalizing idx with
  | nil => exact List.nodup_nil
  | cons inj rest ih =>
      -- later marks carry larger indices
      have hlater : ∀ e ∈ injectionMarks (idx + 1) rest,
          e.2 ≠ .externalInjectionStart idx
            ∧ e.2 ≠ .externalInjectionEnd idx := by
        intro e he
        obtain ⟨k, inj', _, rfl | rfl⟩ := mem_injectionMarks he
        · simp
          omega
        · simp
          omega
      rw [injectionMarks, List.nodup_cons, List.nodup_cons]
      refine ⟨?_, ?_, ih (idx + 1)⟩
      · intro hmem
        rcases List.mem_cons.mp hmem with heq | hmem
        · exact absurd (congrArg Prod.snd heq) (by simp)
        · exact (hlater _ hmem).1 rfl
      · intro hmem
        exact (hlater _ hmem).2 rfl

/-- A preload schedules nothing twice. -/
theorem preloaded_nodup (cfg : ScenarioConfig) (now bound : Nat) :
    (preloaded cfg now bound).Nodup := by
  have hentries : ∀ x : EventKind × Nat,
      (periodicEntries now bound x).Nodup := by
    intro x
    unfold periodicEntries
    split
    next => exact List.nodup_nil
    next hp =>
      have hsorted : (Agenda.instants (firstInstant now x.2) x.2
          bound).Pairwise (· < ·) :=
        Agenda.instants_sorted (Nat.pos_of_ne_zero hp)
      exact (hsorted.imp fun h => Nat.ne_of_lt h).map _
        fun _ _ hne h => hne (congrArg Prod.fst h)
  have hkinds : (periods cfg).Pairwise fun x y => x.1 ≠ y.1 := by
    unfold periods
    simp
  refine List.nodup_append.mpr ⟨?_, ?_, ?_⟩
  · -- entries of one period differ in time, those of two in their kind
    refine List.nodup_flatMap.mpr ⟨fun x _ => hentries x, ?_⟩
    refine hkinds.imp fun hne e he he' => ?_
    exact hne ((mem_periodicEntries.mp he).2.1.symm.trans
      (mem_periodicEntries.mp he').2.1)
  · exact ((injectionMarks_nodup _ _).filter _).filter _
  · intro e he e' he' heq
    subst heq
    obtain ⟨x, hx, he⟩ := List.mem_flatMap.mp he
    exact absurd (mem_periodicEntries.mp he).2.1 (mark_not_periodic hx
      (List.mem_of_mem_filter (List.mem_of_mem_filter he')))

/-! ## §3. The account of a run. -/

/-- What may fire: a periodic event at some instant, or an injection mark. -/
def Sourced (cfg : ScenarioConfig) (x : Nat × EventKind) : Prop :=
  x.2 ∈ (periods cfg).map Prod.fst
    ∨ x ∈ injectionMarks 0 cfg.externalInjections

theorem sourced_preloaded {cfg : ScenarioConfig} {now bound : Nat}
    {e : Nat × EventKind} (he : e ∈ preloaded cfg now bound) :
    Sourced cfg e := by
  rcases List.mem_append.mp he with he | he
  · obtain ⟨x, hx, he⟩ := List.mem_flatMap.mp he
    exact .inl (List.mem_map.mpr ⟨x, hx, (mem_periodicEntries.mp he).2.1.symm⟩)
  · exact .inr (List.mem_of_mem_filter (List.mem_of_mem_filter he))

/-- Nothing has fired twice or is pending again, and the records say what has
fired. -/
structure Account (h : List (SimStep π ψ σ ρ κ))
    (sim : Simulator π ψ σ ρ κ) : Prop where
  nodup : ((firedIn h).filter isPlain ++ sim.clock.plain).Nodup
  sourced : ∀ x ∈ (firedIn h).filter isPlain ++ sim.clock.plain,
    Sourced env.cfg x
  recorded : sim.trajectory.firings
    = ((firedIn h).filter isPlain).map fun x => asSecs x.1

/-- **A clean call keeps the account.** -/
theorem account_call {h : List (SimStep π ψ σ ρ κ)}
    {sim : Simulator π ψ σ ρ κ} (c : SimCall π ψ σ ρ κ)
    (hclean : CleanStart env sim (c.horizon sim.clock.now))
    (hacc : Account env h sim) :
    Account env (h ++ [(machine env).stepAt sim c])
      ((machine env).step sim c).1 := by
  obtain ⟨n, hsim, hfires⟩ := call_ticks env sim c
  obtain ⟨hperm, hfirings⟩ := ticks_ledger env n
    (preload env (c.horizon sim.clock.now) sim)
  rw [← hfires, ← hsim] at hperm hfirings
  have hstart : (preload env (c.horizon sim.clock.now) sim).clock.plain.Perm
      (sim.clock.plain ++ preloaded env.cfg sim.clock.now
        (c.horizon sim.clock.now)) := by
    rw [preload_plain]
    exact Agenda.perm_insertAll Prod.fst _ _
  have hfired : firedIn (h ++ [(machine env).stepAt sim c])
      = firedIn h ++ (call env sim c).fires := by
    unfold firedIn
    rw [List.flatMap_append, List.flatMap_singleton]
    rfl
  -- fired and pending after the call: as before, and what it preloads
  have hall : ((firedIn (h ++ [(machine env).stepAt sim c])).filter isPlain
      ++ (call env sim c).sim.clock.plain).Perm
      (((firedIn h).filter isPlain ++ sim.clock.plain)
        ++ preloaded env.cfg sim.clock.now (c.horizon sim.clock.now)) := by
    rw [hfired, List.filter_append, List.append_assoc, List.append_assoc]
    exact (hperm.trans hstart).append_left _
  refine ⟨?_, ?_, ?_⟩
  · refine hall.nodup_iff.mpr (List.nodup_append.mpr
      ⟨hacc.nodup, preloaded_nodup _ _ _, ?_⟩)
    intro x hx y hy hxy
    subst hxy
    rcases List.mem_append.mp hx with hx | hx
    · -- it would have fired between the clock and the horizon
      have hgt := preloaded_gt hclean.instants hy
      have hnear := preloaded_le hy
      have hrecord : asSecs x.1 ∈ sim.trajectory.firings := by
        rw [hacc.recorded]
        exact List.mem_map_of_mem hx
      have hfar := asSecs_lt.mp
        (hclean.recorded _ hrecord (asSecs_lt.mpr hgt))
      omega
    · have hfar := hclean.pending x hx
      have hnear := preloaded_le hy
      omega
  · intro x hx
    rcases List.mem_append.mp (hall.mem_iff.mp hx) with hx | hx
    · exact hacc.sourced x hx
    · exact sourced_preloaded hx
  · show (call env sim c).sim.trajectory.firings = _
    rw [hfirings, hfired, List.filter_append, List.map_append, ← hacc.recorded]
    rfl

/-- A fresh simulator. -/
abbrev fresh (state : π) (engine : EngineStateModel) (policy : σ) (rng : ρ)
    (ctx : κ) (cooldown : ℚ) : Simulator π ψ σ ρ κ :=
  (Simulator.new state engine policy rng ctx).withDedupCooldown cooldown

theorem account_fresh (state : π) (engine : EngineStateModel) (policy : σ)
    (rng : ρ) (ctx : κ) (cooldown : ℚ) :
    Account env [] (fresh state engine policy rng ctx cooldown) where
  nodup := List.nodup_nil
  sourced _ hx := absurd hx List.not_mem_nil
  recorded := rfl

/-! ## §4. Once. -/

/-- A list without repetitions whose members are all the same has at most
one. -/
theorem length_le_one {α : Type*} {xs : List α} {c : α} (hnodup : xs.Nodup)
    (h : ∀ x ∈ xs, x = c) : xs.length ≤ 1 := by
  match xs, hnodup, h with
  | [], _, _ => exact Nat.zero_le _
  | [_], _, _ => exact Nat.le_refl _
  | x :: y :: _, hnodup, h =>
      have hxy : x = y := (h x (by simp)).trans (h y (by simp)).symm
      exact absurd hxy (by
        have := (List.nodup_cons.mp hnodup).1
        intro heq
        exact this (heq ▸ List.mem_cons_self))

/-- An injection mark has one time. -/
theorem mark_time {injs : List ExternalInjection} {t t' : Nat}
    {kind : EventKind} (h : (t, kind) ∈ injectionMarks 0 injs)
    (h' : (t', kind) ∈ injectionMarks 0 injs) : t = t' := by
  obtain ⟨k, inj, hk, he⟩ := mem_injectionMarks h
  obtain ⟨k', inj', hk', he'⟩ := mem_injectionMarks h'
  have hsame : ∀ {i j : Nat}, 0 + i = 0 + j → injs[i]? = some inj →
      injs[j]? = some inj' → inj = inj' := by
    intro i j hij hi hj
    rw [show i = j by omega] at hi
    exact Option.some.inj (hi.symm.trans hj)
  rcases he with he | he
  · rcases he' with he' | he'
    · obtain ⟨rfl, rfl⟩ := Prod.mk.inj he
      obtain ⟨rfl, hkind⟩ := Prod.mk.inj he'
      injection hkind with hidx
      rw [hsame hidx hk hk']
    · obtain ⟨rfl, rfl⟩ := Prod.mk.inj he
      exact absurd (Prod.mk.inj he').2 (by simp)
  · rcases he' with he' | he'
    · obtain ⟨rfl, rfl⟩ := Prod.mk.inj he
      exact absurd (Prod.mk.inj he').2 (by simp)
    · obtain ⟨rfl, rfl⟩ := Prod.mk.inj he
      obtain ⟨rfl, hkind⟩ := Prod.mk.inj he'
      injection hkind with hidx
      rw [hsame hidx hk hk']

/-- What has fired, for one kind of injection mark. -/
theorem mark_once {h : List (SimStep π ψ σ ρ κ)} {sim : Simulator π ψ σ ρ κ}
    (hacc : Account env h sim) {kind : EventKind}
    (hplain : kind.isObservation = false)
    (hkind : kind ∉ (periods env.cfg).map Prod.fst) :
    (firedIn h).countP (fun x => x.2 = kind) ≤ 1 := by
  rw [List.countP_eq_length_filter]
  have hsub : ((firedIn h).filter fun x => x.2 = kind)
      = ((firedIn h).filter isPlain).filter fun x => x.2 = kind := by
    rw [List.filter_filter]
    refine List.filter_congr fun x _ => ?_
    by_cases hx : x.2 = kind
    · unfold isPlain
      simp [hx, hplain]
    · simp [hx]
  rw [hsub]
  have hnodup := ((List.nodup_append.mp hacc.nodup).1).filter
    fun x => decide (x.2 = kind)
  have hmark : ∀ x ∈ ((firedIn h).filter isPlain).filter
      (fun x => decide (x.2 = kind)),
      x.2 = kind ∧ x ∈ injectionMarks 0 env.cfg.externalInjections := by
    intro x hx
    obtain ⟨hx, hxk⟩ := List.mem_filter.mp hx
    have hxk := of_decide_eq_true hxk
    refine ⟨hxk, ?_⟩
    rcases hacc.sourced x (List.mem_append_left _ hx) with hperiod | hmark
    · exact absurd (hxk ▸ hperiod) hkind
    · exact hmark
  cases hfound : ((firedIn h).filter isPlain).filter
      (fun x => decide (x.2 = kind)) with
  | nil => exact Nat.zero_le _
  | cons c rest =>
      rw [hfound] at hnodup hmark
      refine length_le_one (c := c) hnodup fun x hx => ?_
      -- same kind, hence the same mark
      obtain ⟨hxk, hxm⟩ := hmark x hx
      obtain ⟨hck, hcm⟩ := hmark c List.mem_cons_self
      have hx' : x = (x.1, kind) := Prod.ext rfl hxk
      have hc' : c = (c.1, kind) := Prod.ext rfl hck
      rw [hx'] at hxm
      rw [hc'] at hcm
      rw [hx', hc', mark_time hxm hcm]

/-- **Each instant fires once**, in every run whose calls all start clean:
every periodic event at most once at each instant, and every start and end of
an injection at most once. -/
theorem fires_once (state : π) (engine : EngineStateModel) (policy : σ)
    (rng : ρ) (ctx : κ) (cooldown : ℚ) (calls : List (SimCall π ψ σ ρ κ))
    (h : (machine env).Along (fresh state engine policy rng ctx cooldown) calls
      fun _ e => CleanStart env e.pre (e.input.horizon e.pre.clock.now)) :
    let fired := firedIn ((machine env).trace
      (fresh state engine policy rng ctx cooldown) calls)
    (∀ kind ∈ (periods env.cfg).map Prod.fst, ∀ t,
      fired.count (t, kind) ≤ 1)
    ∧ ∀ idx,
      fired.countP (fun x => x.2 = .externalInjectionStart idx) ≤ 1
      ∧ fired.countP (fun x => x.2 = .externalInjectionEnd idx) ≤ 1 := by
  intro fired
  have hacc := h.invariant (I := Account env)
    (account_fresh env state engine policy rng ctx cooldown)
    fun hist sim c hclean hinv => account_call env c hclean hinv
  refine ⟨?_, ?_⟩
  · intro kind hkind t
    obtain ⟨x, hx, rfl⟩ := List.mem_map.mp hkind
    have hplain : isPlain (t, x.1) = true := by
      unfold isPlain
      rw [periods_plain hx]
      rfl
    rw [← List.count_filter hplain]
    exact List.nodup_iff_count_le_one.mp (List.nodup_append.mp hacc.nodup).1 _
  · intro idx
    constructor
    · exact mark_once env hacc rfl (by simp [periods])
    · exact mark_once env hacc rfl (by simp [periods])

/-- Two seconds, then one more: three heartbeats, each once. -/
theorem fires_once_idle :
    (firedIn ((machine (idleScenario (fromSecs 1))).trace
        (fresh () idleEngine () () () 60)
        [.runFor (fromSecs 2), .runFor (fromSecs 1)])).count
      (fromSecs 2, .heartbeat) ≤ 1 := by
  refine (fires_once (idleScenario (fromSecs 1)) () idleEngine () () () 60
    [.runFor (fromSecs 2), .runFor (fromSecs 1)] ?_).1 .heartbeat
    (by decide) (fromSecs 2)
  intro h e t htr
  cases h with
  | nil =>
      injection htr with he _
      subst he
      exact ⟨by decide, by decide, by decide⟩
  | cons f h =>
      injection htr with _ htr
      cases h with
      | nil =>
          injection htr with he _
          subst he
          refine ⟨by decide, fun t ht hlater => ?_, by decide⟩
          -- the records of the first call
          change t ∈ [asSecs (fromSecs 1), asSecs (fromSecs 2)] at ht
          change asSecs (fromSecs 2) < t at hlater
          simp only [List.mem_cons, List.not_mem_nil, or_false] at ht
          rcases ht with rfl | rfl
          · exact absurd (asSecs_lt.mp hlater) (by decide)
          · exact absurd (asSecs_lt.mp hlater) (by decide)
      | cons g h =>
          injection htr with _ hnil
          exact absurd hnil (by simp)

/-- A `run_until` that stops at once leaves the heartbeat it preloaded, and the
next call preloads it again. -/
theorem instant_fires_twice :
    ¬ (firedIn ((machine (idleScenario (fromSecs 1))).trace
        (fresh () idleEngine () () () 60)
        [.runUntil (fun _ _ => true) (fromSecs 1),
          .runFor (fromSecs 1)])).count (fromSecs 1, .heartbeat) ≤ 1 := by
  decide

end ArgusManager.Simulator
