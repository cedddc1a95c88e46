/-
  ArgusManager.Sim.Preload
  ────────────────────────
  **What a call preloads**: the entries of `preload_events` as a list, and how
  two calls' lists fit together.

    • `preloadEvents_eq`  — preloading is scheduling that list,
    • `preloaded_until`   — a shorter horizon gives the part due by then,
    • `preloaded_resumes` — the call that starts at `t` preloads what an
      earlier call would have preloaded after `t`, exactly if every period
      resumes there.  Below 2^64 ns it does (`resumes_of_no_wrap`); beyond, the
      first instant is cut to 64 bits.
-/
import ArgusManager.Sim.Ticks
import Mathlib.Data.List.Perm.Basic

namespace ArgusManager

/-! ## §1. The list. -/

/-- The periodic events, in the order they are preloaded. -/
def periods (cfg : ScenarioConfig) : List (EventKind × Nat) :=
  [(.heartbeat, cfg.heartbeatInterval), (.signalMemory, cfg.memoryPoll),
    (.signalCompute, cfg.computePoll), (.signalThermal, cfg.thermalPoll),
    (.signalEnergy, cfg.energyPoll)]

/-- The instants of one periodic event. -/
def periodicEntries (now bound : Nat) (x : EventKind × Nat) :
    List (Nat × EventKind) :=
  if x.2 = 0 then []
  else (Agenda.instants (firstInstant now x.2) x.2 bound).map (·, x.1)

/-- Start and end of every injection. -/
def injectionMarks : Nat → List ExternalInjection → List (Nat × EventKind)
  | _, [] => []
  | idx, inj :: rest =>
      (inj.tStart, .externalInjectionStart idx)
        :: (inj.tStart + inj.duration, .externalInjectionEnd idx)
        :: injectionMarks (idx + 1) rest

/-- What `preload_events` schedules at `now` as far as `bound`. -/
def preloaded (cfg : ScenarioConfig) (now bound : Nat) :
    List (Nat × EventKind) :=
  (periods cfg).flatMap (periodicEntries now bound)
    ++ dueBy bound (dueAfter now (injectionMarks 0 cfg.externalInjections))

theorem schedulePeriodicFrom_eq (kind : EventKind) (now period bound : Nat)
    (c : VirtualClock) :
    schedulePeriodicFrom kind now period bound c
      = c.scheduleAll (periodicEntries now bound (kind, period)) := by
  unfold schedulePeriodicFrom periodicEntries
  by_cases hp : period = 0
  · rw [if_pos hp, if_pos hp]
    rfl
  · rw [if_neg hp, if_neg hp]
    exact c.schedulePeriodic_eq kind (Nat.pos_of_ne_zero hp) _ bound

theorem preloadInjections_eq (now bound : Nat) :
    ∀ (injs : List ExternalInjection) (idx : Nat) (c : VirtualClock),
      preloadInjections now bound idx injs c
        = c.scheduleAll (dueBy bound (dueAfter now (injectionMarks idx injs)))
  | [], _, _ => rfl
  | inj :: rest, idx, c => by
      -- one mark, scheduled if it is in the window
      have hmark : ∀ (x : Nat × EventKind) (xs : List (Nat × EventKind))
          (c : VirtualClock),
          c.scheduleAll (dueBy bound (dueAfter now (x :: xs)))
            = (if now < x.1 ∧ x.1 ≤ bound then c.schedule x.2 x.1
                else c).scheduleAll (dueBy bound (dueAfter now xs)) := by
        intro x xs c
        unfold dueBy dueAfter
        rw [List.filter_filter, List.filter_filter]
        by_cases hx : now < x.1 ∧ x.1 ≤ bound
        · rw [List.filter_cons_of_pos (by simp [hx.1, hx.2]), if_pos hx]
          rfl
        · rw [List.filter_cons_of_neg (by simpa [and_comm] using hx),
            if_neg hx]
      rw [preloadInjections, injectionMarks, hmark, hmark,
        preloadInjections_eq now bound rest]

/-- **Preloading is scheduling the list.** -/
theorem preloadEvents_eq (cfg : ScenarioConfig) (bound : Nat)
    (c : VirtualClock) :
    preloadEvents cfg bound c = c.scheduleAll (preloaded cfg c.now bound) := by
  unfold preloadEvents preloaded periods
  simp only [schedulePeriodicFrom_eq, preloadInjections_eq,
    List.flatMap_cons, List.flatMap_nil, List.append_nil,
    VirtualClock.scheduleAll_append]

/-! ## §2. What is in it. -/

theorem mem_periodicEntries {now bound : Nat} {x : EventKind × Nat}
    {e : Nat × EventKind} :
    e ∈ periodicEntries now bound x
      ↔ x.2 ≠ 0 ∧ e.2 = x.1 ∧ e.1 ≤ bound
        ∧ ∃ k, e.1 = firstInstant now x.2 + k * x.2 := by
  unfold periodicEntries
  by_cases hp : x.2 = 0
  · rw [if_pos hp]
    exact iff_of_false List.not_mem_nil fun h => h.1 hp
  · rw [if_neg hp, List.mem_map]
    constructor
    · rintro ⟨t, ht, rfl⟩
      exact ⟨hp, rfl, (Agenda.mem_instants (Nat.pos_of_ne_zero hp)).mp ht⟩
    · rintro ⟨_, hkind, hmem⟩
      exact ⟨e.1, (Agenda.mem_instants (Nat.pos_of_ne_zero hp)).mpr hmem,
        Prod.ext rfl hkind.symm⟩

theorem mem_injectionMarks {e : Nat × EventKind} :
    ∀ {injs : List ExternalInjection} {idx : Nat},
      e ∈ injectionMarks idx injs →
      ∃ k inj, injs[k]? = some inj
        ∧ (e = (inj.tStart, .externalInjectionStart (idx + k))
          ∨ e = (inj.tStart + inj.duration, .externalInjectionEnd (idx + k)))
  | [], _, h => absurd h List.not_mem_nil
  | inj :: rest, idx, h => by
      rcases List.mem_cons.mp h with rfl | h
      · exact ⟨0, inj, rfl, .inl rfl⟩
      · rcases List.mem_cons.mp h with rfl | h
        · exact ⟨0, inj, rfl, .inr rfl⟩
        · obtain ⟨k, inj', hk, he⟩ := mem_injectionMarks h
          refine ⟨k + 1, inj', hk, ?_⟩
          rw [show idx + (k + 1) = idx + 1 + k by omega]
          exact he

theorem periods_plain {cfg : ScenarioConfig} {x : EventKind × Nat}
    (hx : x ∈ periods cfg) : x.1.isObservation = false := by
  unfold periods at hx
  simp only [List.mem_cons, List.not_mem_nil, or_false] at hx
  rcases hx with rfl | rfl | rfl | rfl | rfl
  all_goals rfl

/-- No mark is of a periodic kind. -/
theorem mark_not_periodic {cfg : ScenarioConfig} {x : EventKind × Nat}
    (hx : x ∈ periods cfg) {injs : List ExternalInjection} {e : Nat × EventKind}
    (he : e ∈ injectionMarks 0 injs) : e.2 ≠ x.1 := by
  obtain ⟨k, inj, _, hmark⟩ := mem_injectionMarks he
  unfold periods at hx
  simp only [List.mem_cons, List.not_mem_nil, or_false] at hx
  rcases hx with rfl | rfl | rfl | rfl | rfl
  all_goals rcases hmark with rfl | rfl
  all_goals simp

/-- Observations are never preloaded. -/
theorem preloaded_plain (cfg : ScenarioConfig) (now bound : Nat) :
    ∀ e ∈ preloaded cfg now bound, isPlain e := by
  intro e he
  unfold isPlain
  rcases List.mem_append.mp he with he | he
  · obtain ⟨x, hx, he⟩ := List.mem_flatMap.mp he
    rw [(mem_periodicEntries.mp he).2.1, periods_plain hx]
    rfl
  · have hmark := List.mem_of_mem_filter (List.mem_of_mem_filter he)
    obtain ⟨k, inj, _, rfl | rfl⟩ := mem_injectionMarks hmark
    · rfl
    · rfl

/-- Nothing is preloaded past the horizon. -/
theorem preloaded_le {cfg : ScenarioConfig} {now bound : Nat}
    {e : Nat × EventKind} (he : e ∈ preloaded cfg now bound) : e.1 ≤ bound := by
  rcases List.mem_append.mp he with he | he
  · obtain ⟨x, _, he⟩ := List.mem_flatMap.mp he
    exact (mem_periodicEntries.mp he).2.2.1
  · exact of_decide_eq_true (List.mem_filter.mp he).2

/-! ## §3. Two horizons, two calls. -/

theorem dueBy_append (t : Nat) (xs ys : List (Nat × EventKind)) :
    dueBy t (xs ++ ys) = dueBy t xs ++ dueBy t ys :=
  List.filter_append _ _

theorem dueAfter_append (t : Nat) (xs ys : List (Nat × EventKind)) :
    dueAfter t (xs ++ ys) = dueAfter t xs ++ dueAfter t ys :=
  List.filter_append _ _

theorem dueBy_dueBy {t u : Nat} (h : t ≤ u) (xs : List (Nat × EventKind)) :
    dueBy t (dueBy u xs) = dueBy t xs := by
  unfold dueBy
  rw [List.filter_filter]
  refine List.filter_congr fun x _ => ?_
  by_cases hx : x.1 ≤ t
  · simp [hx, Nat.le_trans hx h]
  · simp [hx]

theorem dueAfter_dueAfter {t u : Nat} (h : u ≤ t)
    (xs : List (Nat × EventKind)) :
    dueAfter t (dueAfter u xs) = dueAfter t xs := by
  unfold dueAfter
  rw [List.filter_filter]
  refine List.filter_congr fun x _ => ?_
  by_cases hx : t < x.1
  · simp [hx, Nat.lt_of_le_of_lt h hx]
  · simp [hx]

theorem dueAfter_dueBy (t u : Nat) (xs : List (Nat × EventKind)) :
    dueAfter t (dueBy u xs) = dueBy u (dueAfter t xs) := by
  unfold dueBy
  exact dueAfter_filter _ _ _

theorem dueBy_periodic {now bound t : Nat} (h : t ≤ bound)
    (x : EventKind × Nat) :
    dueBy t (periodicEntries now bound x) = periodicEntries now t x := by
  unfold periodicEntries
  by_cases hp : x.2 = 0
  · rw [if_pos hp, if_pos hp]
    rfl
  · rw [if_neg hp, if_neg hp]
    have huntil : (Agenda.instants (firstInstant now x.2) x.2 bound).filter
        (· ≤ t) = _ := Agenda.instants_until (Nat.pos_of_ne_zero hp) h
    rw [← huntil]
    unfold dueBy
    rw [List.filter_map]
    rfl

/-- **A shorter horizon preloads what is due by then.** -/
theorem preloaded_until (cfg : ScenarioConfig) (now : Nat) {bound t : Nat}
    (h : t ≤ bound) :
    dueBy t (preloaded cfg now bound) = preloaded cfg now t := by
  unfold preloaded
  rw [dueBy_append, dueBy_dueBy h]
  congr 1
  unfold dueBy
  rw [List.filter_flatMap]
  exact congrArg (List.flatMap · (periods cfg))
    (funext fun x => dueBy_periodic h x)

/-- What a periodic event preloaded at `now` still has after `t`. -/
theorem dueAfter_periodic {now bound t : Nat} {x : EventKind × Nat}
    (hp : x.2 ≠ 0) :
    dueAfter t (periodicEntries now bound x)
      = (Agenda.instants (Agenda.nextAfter (firstInstant now x.2) x.2 t) x.2
          bound).map (·, x.1) := by
  unfold periodicEntries
  rw [if_neg hp, ← Agenda.instants_after (Nat.pos_of_ne_zero hp) t]
  unfold dueAfter
  rw [List.filter_map]
  rfl

/-- The call that starts at `t` goes on with every period where the call that
started at `now` left it, or neither has an instant up to `bound`. -/
def Resumes (cfg : ScenarioConfig) (now t bound : Nat) : Prop :=
  ∀ x ∈ periods cfg, x.2 ≠ 0 →
    firstInstant t x.2 = Agenda.nextAfter (firstInstant now x.2) x.2 t
    ∨ (bound < firstInstant t x.2
      ∧ bound < Agenda.nextAfter (firstInstant now x.2) x.2 t)

theorem periodic_resumes {now t bound : Nat} {x : EventKind × Nat}
    (hp : x.2 ≠ 0) :
    periodicEntries t bound x = dueAfter t (periodicEntries now bound x)
      ↔ (firstInstant t x.2 = Agenda.nextAfter (firstInstant now x.2) x.2 t
        ∨ (bound < firstInstant t x.2
          ∧ bound < Agenda.nextAfter (firstInstant now x.2) x.2 t)) := by
  have hinj : Function.Injective fun u : Nat => (u, x.1) := fun _ _ h =>
    congrArg Prod.fst h
  rw [dueAfter_periodic hp, ← Agenda.instants_inj (Nat.pos_of_ne_zero hp)]
  unfold periodicEntries
  rw [if_neg hp]
  exact (List.map_injective_iff.mpr hinj).eq_iff

theorem preloaded_of_resumes {cfg : ScenarioConfig} {now t bound : Nat}
    (ht : now ≤ t) (h : Resumes cfg now t bound) :
    preloaded cfg t bound = dueAfter t (preloaded cfg now bound) := by
  unfold preloaded
  rw [dueAfter_append, dueAfter_dueBy, dueAfter_dueAfter ht]
  congr 1
  unfold dueAfter
  rw [List.filter_flatMap]
  refine List.flatMap_congr fun x hx => ?_
  by_cases hp : x.2 = 0
  · unfold periodicEntries
    rw [if_pos hp, if_pos hp]
    rfl
  · exact (periodic_resumes hp).mpr (h x hx hp)

/-- The preloaded entries of one periodic kind. -/
theorem preloaded_kind {cfg : ScenarioConfig} {x : EventKind × Nat}
    (hx : x ∈ periods cfg) (now bound : Nat) :
    ((preloaded cfg now bound).filter fun e => e.2 = x.1)
      = periodicEntries now bound x := by
  have hentries : ∀ y : EventKind × Nat,
      ((periodicEntries now bound y).filter fun e => e.2 = x.1)
        = if y.1 = x.1 then periodicEntries now bound y else [] := by
    intro y
    split
    next hyx =>
      refine List.filter_eq_self.mpr fun e he => ?_
      rw [(mem_periodicEntries.mp he).2.1]
      exact decide_eq_true hyx
    next hyx =>
      refine List.filter_eq_nil_iff.mpr fun e he => ?_
      rw [(mem_periodicEntries.mp he).2.1]
      simpa using hyx
  have hmarks : ((dueBy bound (dueAfter now
      (injectionMarks 0 cfg.externalInjections))).filter fun e => e.2 = x.1)
      = [] := by
    refine List.filter_eq_nil_iff.mpr fun e he => ?_
    have hmark := mark_not_periodic hx
      (List.mem_of_mem_filter (List.mem_of_mem_filter he))
    simpa using hmark
  unfold preloaded
  rw [List.filter_append, hmarks, List.append_nil, List.filter_flatMap]
  simp only [hentries]
  -- of the five periods exactly one is of this kind
  unfold periods at hx ⊢
  simp only [List.mem_cons, List.not_mem_nil, or_false] at hx
  rcases hx with rfl | rfl | rfl | rfl | rfl
  all_goals simp [List.flatMap_cons]

/-- **The two lists fit exactly if every period resumes**, even when their
order is forgotten. -/
theorem preloaded_resumes {cfg : ScenarioConfig} {now t : Nat} (bound : Nat)
    (ht : now ≤ t) :
    (preloaded cfg t bound).Perm (dueAfter t (preloaded cfg now bound))
      ↔ Resumes cfg now t bound := by
  constructor
  · intro h x hx hp
    have hkind := h.filter fun e => decide (e.2 = x.1)
    rw [preloaded_kind hx, ← dueAfter_filter, preloaded_kind hx,
      dueAfter_periodic hp] at hkind
    have hinj : Function.Injective fun u : Nat => (u, x.1) := fun _ _ h =>
      congrArg Prod.fst h
    have hpos := Nat.pos_of_ne_zero hp
    unfold periodicEntries at hkind
    rw [if_neg hp] at hkind
    have hinstants := (List.map_perm_map_iff hinj).mp hkind
    -- ascending lists with the same members
    exact (Agenda.instants_inj hpos).mp
      (Agenda.eq_of_increasing (Agenda.instants_sorted hpos)
        (Agenda.instants_sorted hpos) fun u => hinstants.mem_iff)
  · intro h
    rw [preloaded_of_resumes ht h]

/-- Below 2^64 ns every period resumes. -/
theorem resumes_of_no_wrap {cfg : ScenarioConfig} {now t : Nat} (bound : Nat)
    (ht : now ≤ t)
    (h : ∀ x ∈ periods cfg, (t / x.2 + 1) * x.2 < 2 ^ 64) :
    Resumes cfg now t bound := by
  intro x hx hp
  left
  have hpos := Nat.pos_of_ne_zero hp
  have hwrap := h x hx
  have hq : now / x.2 ≤ t / x.2 := Nat.div_le_div_right ht
  have hfirst : firstInstant now x.2 = (now / x.2 + 1) * x.2 :=
    Nat.mod_eq_of_lt (Nat.lt_of_le_of_lt
      (Nat.mul_le_mul_right _ (Nat.succ_le_succ hq)) hwrap)
  have hthen : firstInstant t x.2 = (t / x.2 + 1) * x.2 :=
    Nat.mod_eq_of_lt hwrap
  rw [hthen, hfirst]
  unfold Agenda.nextAfter
  split
  next hlt =>
    have hdiv := (Nat.div_lt_iff_lt_mul hpos).mpr hlt
    rw [show t / x.2 = now / x.2 by omega]
  next hge =>
    have hle := (Nat.le_div_iff_mul_le hpos).mpr (Nat.not_lt.mp hge)
    rw [Nat.mul_comm (now / x.2 + 1) x.2, Nat.sub_mul_div, Nat.mul_comm x.2,
      ← Nat.add_mul]
    congr 1
    omega

end ArgusManager
