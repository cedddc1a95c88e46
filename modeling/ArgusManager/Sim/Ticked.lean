/-
  ArgusManager.Sim.Ticked
  ───────────────────────
  **Where a run ticks.**  Claims about every step of a run are claims about the
  simulators that some tick of it starts from.

    • `afterEvents` — a tick up to its physics step; the physical state, the
                      context and the time are still those before the tick,
    • `ticked`      — the simulators that a call ticks,
    • `tickedIn`    — and those that a list of calls ticks,
    • `stepAt`      — the physics step of the tick from there.
-/
import ArgusManager.Sim.Instants
import ArgusManager.Sim.Step

namespace ArgusManager.Simulator

variable {π ψ σ ρ κ : Type} (env : Scenario π ψ σ ρ κ)

/-! ## §1. A tick up to its physics step. -/

/-- The events of a tick and the overruns, processed. -/
def afterEvents (sim : Simulator π ψ σ ρ κ) : Simulator π ψ σ ρ κ :=
  let tickEnd := sim.clock.now + env.tickDt
  let (events, clock) := sim.clock.drainUntil tickEnd
  noteOverruns env tickEnd (events.foldl (processEvent env) { sim with clock })

theorem tick_eq (sim : Simulator π ψ σ ρ κ) :
    ((tick env sim).sim, (tick env sim).result)
      = finishTick env (sim.clock.now + env.tickDt) (afterEvents env sim) :=
  rfl

/-- Events touch neither the physical state nor the context nor the time. -/
structure SamePhysics (a b : Simulator π ψ σ ρ κ) : Prop where
  state : b.state = a.state
  ctx : b.ctx = a.ctx
  now : b.clock.now = a.clock.now

theorem SamePhysics.trans {a b c : Simulator π ψ σ ρ κ}
    (h : SamePhysics a b) (h' : SamePhysics b c) : SamePhysics a c :=
  ⟨h'.state.trans h.state, h'.ctx.trans h.ctx, h'.now.trans h.now⟩

theorem samePhysics_consultPolicy (dueAt : Nat) (sig : SystemSignal)
    (sim : Simulator π ψ σ ρ κ) :
    SamePhysics sim (consultPolicy env dueAt sig sim) := by
  unfold consultPolicy
  dsimp only
  split
  next => exact ⟨rfl, rfl, rfl⟩
  next =>
    split
    next => exact ⟨rfl, rfl, (VirtualClock.scheduleObservations_frame _ _).1⟩
    next => exact ⟨rfl, rfl, rfl⟩

theorem samePhysics_processSignal (dueAt : Nat) (kind : EventKind)
    (sim : Simulator π ψ σ ρ κ) :
    SamePhysics sim (processSignal env dueAt kind sim) := by
  unfold processSignal
  split
  next => exact ⟨rfl, rfl, rfl⟩
  next rng sig _ =>
    have hlevel : SamePhysics sim
        (noteLevel env dueAt (.fromSignal sig) { sim with rng }) := by
      unfold noteLevel
      dsimp only
      split
      next => exact ⟨rfl, rfl, rfl⟩
      next => exact ⟨rfl, rfl, rfl⟩
    have h := hlevel.trans (samePhysics_consultPolicy env dueAt sig _)
    exact ⟨h.state, h.ctx, h.now⟩

theorem samePhysics_processEvent (event : ScheduledEvent)
    (sim : Simulator π ψ σ ρ κ) :
    SamePhysics sim (processEvent env sim event) := by
  unfold processEvent
  split
  next => exact ⟨rfl, rfl, rfl⟩
  next => exact samePhysics_processSignal env _ _ sim
  next => exact samePhysics_processSignal env _ _ sim
  next => exact samePhysics_processSignal env _ _ sim
  next => exact samePhysics_processSignal env _ _ sim
  next => exact ⟨rfl, rfl, rfl⟩
  next => exact ⟨rfl, rfl, rfl⟩
  next => exact ⟨rfl, rfl, rfl⟩
  next => exact ⟨rfl, rfl, rfl⟩

theorem samePhysics_processEvents (events : List ScheduledEvent)
    (sim : Simulator π ψ σ ρ κ) :
    SamePhysics sim (events.foldl (processEvent env) sim) := by
  induction events generalizing sim with
  | nil => exact ⟨rfl, rfl, rfl⟩
  | cons event events ih =>
      exact (samePhysics_processEvent env event sim).trans (ih _)

theorem samePhysics_afterEvents (sim : Simulator π ψ σ ρ κ) :
    SamePhysics sim (afterEvents env sim) := by
  have hevents := samePhysics_processEvents env
    (sim.clock.drainUntil (sim.clock.now + env.tickDt)).1
    { sim with
      clock := (sim.clock.drainUntil (sim.clock.now + env.tickDt)).2 }
  have hovers : ∀ (t : Nat) (a : Simulator π ψ σ ρ κ),
      SamePhysics a (noteOverruns env t a) := by
    intro t a
    unfold noteOverruns
    dsimp only
    split
    next => exact ⟨rfl, rfl, rfl⟩
    next => exact ⟨rfl, rfl, rfl⟩
  have h := hevents.trans (hovers (sim.clock.now + env.tickDt) _)
  exact ⟨h.state, h.ctx, h.now⟩

/-- **What a tick makes of the physical state** is its physics step, with the
engine as the events left it. -/
theorem tick_physics (sim : Simulator π ψ σ ρ κ) :
    ((tick env sim).sim.state, (tick env sim).sim.ctx)
        = (env.plant.step (afterEvents env sim).engine sim.clock.now env.tickDt
            sim.state sim.ctx).1
      ∧ (tick env sim).result
        = (env.plant.step (afterEvents env sim).engine sim.clock.now env.tickDt
            sim.state sim.ctx).2.mapError .physics := by
  obtain ⟨hstate, hctx, hnow⟩ := samePhysics_afterEvents env sim
  have hsim := congrArg Prod.fst (tick_eq env sim)
  have hresult := congrArg Prod.snd (tick_eq env sim)
  dsimp only at hsim hresult
  rw [hsim, hresult]
  unfold finishTick
  rw [hstate, hctx, hnow]
  split
  next heq =>
    rw [heq]
    exact ⟨rfl, rfl⟩
  next heq =>
    rw [heq]
    exact ⟨rfl, rfl⟩

/-! ## §2. The ticks of a call. -/

/-- The simulators that the loop of `run_for` ticks. -/
def forTicked (endAt : Nat) :
    Nat → Simulator π ψ σ ρ κ → List (Simulator π ψ σ ρ κ)
  | 0, _ => []
  | fuel + 1, sim =>
      if sim.clock.now < endAt then
        sim :: (if (tick env sim).result.isOk then
          forTicked endAt fuel (tick env sim).sim else [])
      else []

/-- Those that the loop of `run_until` ticks. -/
def untilTicked (predicate : Nat → Simulator π ψ σ ρ κ → Bool) (endAt : Nat) :
    Nat → Nat → Simulator π ψ σ ρ κ → List (Simulator π ψ σ ρ κ)
  | 0, _, _ => []
  | fuel + 1, calls, sim =>
      if predicate calls sim then []
      else if sim.clock.now ≥ endAt then []
      else
        sim :: (if (tick env sim).result.isOk then
          untilTicked predicate endAt fuel (calls + 1) (tick env sim).sim
          else [])

/-- Those that a call ticks. -/
def ticked (sim : Simulator π ψ σ ρ κ) :
    SimCall π ψ σ ρ κ → List (Simulator π ψ σ ρ κ)
  | .runFor duration =>
      forTicked env (sim.clock.now + duration) (passes env duration)
        (preload env (sim.clock.now + duration) sim)
  | .runUntil predicate max =>
      untilTicked env predicate (sim.clock.now + max) (passes env max) 0
        (preload env (sim.clock.now + min max HORIZON) sim)

/-- Those that some calls tick, one after the other. -/
def tickedIn (sim : Simulator π ψ σ ρ κ) (calls : List (SimCall π ψ σ ρ κ)) :
    List (Simulator π ψ σ ρ κ) :=
  ((machine env).trace sim calls).flatMap fun e => ticked env e.pre e.input

/-- What a call preloads is pending when it first ticks. -/
theorem mem_preload {env : Scenario π ψ σ ρ κ} {sim : Simulator π ψ σ ρ κ}
    {bound : Nat} {x : Nat × EventKind}
    (h : x ∈ preloaded env.cfg sim.clock.now bound) :
    x ∈ (preload env bound sim).clock.agenda := by
  unfold preload
  rw [preloadEvents_eq, VirtualClock.agenda_scheduleAll]
  exact (Agenda.perm_insertAll Prod.fst _ _).mem_iff.mpr
    (List.mem_append_right _ h)

/-- A call of `run_for` ticks, unless its duration is zero. -/
theorem first_ticked (sim : Simulator π ψ σ ρ κ) {d : Nat}
    (h : 0 < d) :
    preload env (sim.clock.now + d) sim
      ∈ tickedIn env sim [.runFor d] := by
  have hnow : (preload env (sim.clock.now + d) sim).clock.now
      < sim.clock.now + d := by
    rw [preload_now]
    omega
  refine List.mem_flatMap.mpr ⟨_, List.mem_cons_self, ?_⟩
  show _ ∈ forTicked env (sim.clock.now + d) (d / env.tickDt + 1)
    (preload env (sim.clock.now + d) sim)
  unfold forTicked
  rw [if_pos hnow]
  exact List.mem_cons_self

/-! ## §3. The rules for runs. -/

theorem isOk_of_ok {r : Except SimError Unit} (h : r = .ok ()) :
    r.isOk = true := by
  rw [h]
  rfl

section Invariant

variable {I : Simulator π ψ σ ρ κ → Prop}

/-- One round of either loop: a tick and, if it succeeds, what comes after. -/
theorem round_invariant {sim : Simulator π ψ σ ρ κ}
    {after : List (Simulator π ψ σ ρ κ)}
    {next : Simulator π ψ σ ρ κ → Outcome π ψ σ ρ κ} (h : I sim)
    (hstep : ∀ t ∈ sim :: (if (tick env sim).result.isOk then after else []),
      I t → I (tick env t).sim)
    (hnext : I (tick env sim).sim → (∀ t ∈ after, I t → I (tick env t).sim) →
      (∀ t ∈ after, I t) ∧ I (next (tick env sim).sim).sim) :
    (∀ t ∈ sim :: (if (tick env sim).result.isOk then after else []), I t)
      ∧ I ((tick env sim).andThen next).sim := by
  obtain ⟨hhead, hrest⟩ := List.forall_mem_cons.mp hstep
  rw [List.forall_mem_cons]
  cases hresult : (tick env sim).result with
  | error e =>
      rw [andThen_error hresult]
      exact ⟨⟨h, fun t ht => absurd ht List.not_mem_nil⟩, hhead h⟩
  | ok v =>
      rw [hresult, if_pos (isOk_of_ok rfl)] at hrest
      rw [andThen_ok hresult, if_pos (isOk_of_ok rfl)]
      obtain ⟨hall, hend⟩ := hnext (hhead h) hrest
      exact ⟨⟨h, hall⟩, hend⟩

theorem forTicked_invariant {endAt fuel : Nat} {sim : Simulator π ψ σ ρ κ}
    (h : I sim)
    (hstep : ∀ t ∈ forTicked env endAt fuel sim, I t → I (tick env t).sim) :
    (∀ t ∈ forTicked env endAt fuel sim, I t)
      ∧ I (runForLoop env endAt fuel sim).sim := by
  induction fuel generalizing sim with
  | zero => exact ⟨fun t ht => absurd ht List.not_mem_nil, h⟩
  | succ fuel ih =>
      unfold forTicked at hstep ⊢
      unfold runForLoop
      by_cases hlt : sim.clock.now < endAt
      · rw [if_pos hlt] at hstep ⊢
        rw [if_pos hlt]
        exact round_invariant env h hstep ih
      · rw [if_neg hlt, if_neg hlt]
        exact ⟨fun t ht => absurd ht List.not_mem_nil, h⟩

theorem untilTicked_invariant {predicate : Nat → Simulator π ψ σ ρ κ → Bool}
    {endAt fuel calls : Nat} {sim : Simulator π ψ σ ρ κ} (h : I sim)
    (hstep : ∀ t ∈ untilTicked env predicate endAt fuel calls sim,
      I t → I (tick env t).sim) :
    (∀ t ∈ untilTicked env predicate endAt fuel calls sim, I t)
      ∧ I (runUntilLoop env predicate endAt fuel calls sim).sim := by
  induction fuel generalizing calls sim with
  | zero =>
      refine ⟨fun t ht => absurd ht List.not_mem_nil, ?_⟩
      unfold runUntilLoop
      split
      next => exact h
      next => exact h
  | succ fuel ih =>
      unfold untilTicked at hstep ⊢
      unfold runUntilLoop
      by_cases hpred : predicate calls sim
      · rw [if_pos hpred, if_pos hpred]
        exact ⟨fun t ht => absurd ht List.not_mem_nil, h⟩
      · rw [if_neg hpred] at hstep ⊢
        rw [if_neg hpred]
        by_cases hend : sim.clock.now ≥ endAt
        · rw [if_pos hend, if_pos hend]
          exact ⟨fun t ht => absurd ht List.not_mem_nil, h⟩
        · rw [if_neg hend] at hstep ⊢
          rw [if_neg hend]
          exact round_invariant env h hstep ih

/-- **What the preloads and the ticks of some calls keep** holds wherever
they tick, and at their end. -/
theorem tickedIn_invariant
    (hpreload : ∀ bound sim, I sim → I (preload env bound sim))
    {sim : Simulator π ψ σ ρ κ} (h : I sim)
    {calls : List (SimCall π ψ σ ρ κ)}
    (hstep : ∀ t ∈ tickedIn env sim calls, I t → I (tick env t).sim) :
    (∀ t ∈ tickedIn env sim calls, I t)
      ∧ I ((machine env).exec sim calls) := by
  induction calls generalizing sim with
  | nil => exact ⟨fun t ht => absurd ht List.not_mem_nil, h⟩
  | cons c calls ih =>
      have hcons : tickedIn env sim (c :: calls)
          = ticked env sim c ++ tickedIn env (call env sim c).sim calls := rfl
      rw [hcons] at hstep ⊢
      -- the ticks of the first call, and those of the calls after it
      obtain ⟨hfirst, hrest⟩ := List.forall_mem_append.mp hstep
      have hcall : (∀ t ∈ ticked env sim c, I t) ∧ I (call env sim c).sim := by
        cases c with
        | runFor duration =>
            exact forTicked_invariant env (hpreload _ sim h) hfirst
        | runUntil predicate max =>
            exact untilTicked_invariant env (hpreload _ sim h) hfirst
      obtain ⟨hticks, hend⟩ := ih hcall.2 hrest
      exact ⟨List.forall_mem_append.mpr ⟨hcall.1, hticks⟩, hend⟩

end Invariant

section Fold

variable {α : Type} {V : Simulator π ψ σ ρ κ → α}
  {g : Simulator π ψ σ ρ κ → α → α}

theorem forTicked_foldl {endAt fuel : Nat} {sim : Simulator π ψ σ ρ κ}
    (hstep : ∀ t ∈ forTicked env endAt fuel sim,
      V (tick env t).sim = g t (V t)) :
    V (runForLoop env endAt fuel sim).sim
      = (forTicked env endAt fuel sim).foldl (fun a t => g t a) (V sim) := by
  induction fuel generalizing sim with
  | zero => rfl
  | succ fuel ih =>
      unfold forTicked at hstep ⊢
      unfold runForLoop
      by_cases hlt : sim.clock.now < endAt
      · rw [if_pos hlt] at hstep ⊢
        rw [if_pos hlt, List.foldl_cons]
        obtain ⟨hhead, hrest⟩ := List.forall_mem_cons.mp hstep
        cases hresult : (tick env sim).result with
        | error e =>
            rw [andThen_error hresult]
            exact hhead
        | ok v =>
            rw [hresult, if_pos (isOk_of_ok rfl)] at hrest
            rw [andThen_ok hresult, if_pos (isOk_of_ok rfl), ih hrest, hhead]
      · rw [if_neg hlt, if_neg hlt]
        rfl

theorem untilTicked_foldl {predicate : Nat → Simulator π ψ σ ρ κ → Bool}
    {endAt fuel calls : Nat} {sim : Simulator π ψ σ ρ κ}
    (hstep : ∀ t ∈ untilTicked env predicate endAt fuel calls sim,
      V (tick env t).sim = g t (V t)) :
    V (runUntilLoop env predicate endAt fuel calls sim).sim
      = (untilTicked env predicate endAt fuel calls sim).foldl
          (fun a t => g t a) (V sim) := by
  induction fuel generalizing calls sim with
  | zero =>
      unfold runUntilLoop
      split
      next => rfl
      next => rfl
  | succ fuel ih =>
      unfold untilTicked at hstep ⊢
      unfold runUntilLoop
      by_cases hpred : predicate calls sim
      · rw [if_pos hpred, if_pos hpred]
        rfl
      · rw [if_neg hpred] at hstep ⊢
        rw [if_neg hpred]
        by_cases hend : sim.clock.now ≥ endAt
        · rw [if_pos hend, if_pos hend]
          rfl
        · rw [if_neg hend] at hstep ⊢
          rw [if_neg hend, List.foldl_cons]
          obtain ⟨hhead, hrest⟩ := List.forall_mem_cons.mp hstep
          cases hresult : (tick env sim).result with
          | error e =>
              rw [andThen_error hresult]
              exact hhead
          | ok v =>
              rw [hresult, if_pos (isOk_of_ok rfl)] at hrest
              rw [andThen_ok hresult, if_pos (isOk_of_ok rfl), ih hrest, hhead]

/-- **What every tick does to a value that preloads leave alone** adds up to
what the calls do to it. -/
theorem tickedIn_foldl
    (hpreload : ∀ bound sim, V (preload env bound sim) = V sim)
    {sim : Simulator π ψ σ ρ κ} {calls : List (SimCall π ψ σ ρ κ)}
    (hstep : ∀ t ∈ tickedIn env sim calls, V (tick env t).sim = g t (V t)) :
    V ((machine env).exec sim calls)
      = (tickedIn env sim calls).foldl (fun a t => g t a) (V sim) := by
  induction calls generalizing sim with
  | nil => rfl
  | cons c calls ih =>
      have hcons : tickedIn env sim (c :: calls)
          = ticked env sim c ++ tickedIn env (call env sim c).sim calls := rfl
      rw [hcons] at hstep ⊢
      obtain ⟨hfirst, hrest⟩ := List.forall_mem_append.mp hstep
      have hcall : V (call env sim c).sim
          = (ticked env sim c).foldl (fun a t => g t a) (V sim) := by
        cases c with
        | runFor duration =>
            rw [← hpreload (sim.clock.now + duration) sim]
            exact forTicked_foldl env hfirst
        | runUntil predicate max =>
            rw [← hpreload (sim.clock.now + min max HORIZON) sim]
            exact untilTicked_foldl env hfirst
      rw [List.foldl_append, ← hcall]
      exact ih hrest

end Fold

/-! ## §4. Failures. -/

/-- A round only fails if its tick does, or what comes after. -/
theorem round_error {sim : Simulator π ψ σ ρ κ}
    {after : List (Simulator π ψ σ ρ κ)}
    {next : Simulator π ψ σ ρ κ → Outcome π ψ σ ρ κ} {e : SimError}
    (h : ((tick env sim).andThen next).result = .error e)
    (hnext : (next (tick env sim).sim).result = .error e →
      ∃ t ∈ after, (tick env t).result = .error e) :
    ∃ t ∈ sim :: (if (tick env sim).result.isOk then after else []),
      (tick env t).result = .error e := by
  cases hresult : (tick env sim).result with
  | error e' =>
      rw [andThen_error hresult, hresult] at h
      exact ⟨sim, List.mem_cons_self, hresult.trans h⟩
  | ok v =>
      rw [andThen_ok hresult] at h
      obtain ⟨t, ht, herr⟩ := hnext h
      refine ⟨t, List.mem_cons_of_mem sim ?_, herr⟩
      rw [if_pos (isOk_of_ok rfl)]
      exact ht

/-- The loop of `run_for` only fails if one of its ticks does. -/
theorem runForLoop_error {endAt : Nat} {e : SimError} :
    ∀ {fuel : Nat} {sim : Simulator π ψ σ ρ κ},
      (runForLoop env endAt fuel sim).result = .error e →
      ∃ t ∈ forTicked env endAt fuel sim, (tick env t).result = .error e
  | 0, _, h => by cases h
  | fuel + 1, sim, h => by
      unfold runForLoop at h
      unfold forTicked
      split at h
      next hlt =>
        rw [if_pos hlt]
        exact round_error env h runForLoop_error
      next => cases h

/-- And that of `run_until` only fails in the physics so. -/
theorem runUntilLoop_physics {predicate : Nat → Simulator π ψ σ ρ κ → Bool}
    {endAt : Nat} {err : String} :
    ∀ {fuel calls : Nat} {sim : Simulator π ψ σ ρ κ},
      (runUntilLoop env predicate endAt fuel calls sim).result
        = .error (.physics err) →
      ∃ t ∈ untilTicked env predicate endAt fuel calls sim,
        (tick env t).result = .error (.physics err)
  | 0, calls, sim, h => by
      unfold runUntilLoop at h
      split at h
      next => cases h
      next => cases h
  | fuel + 1, calls, sim, h => by
      unfold runUntilLoop at h
      unfold untilTicked
      split at h
      next => cases h
      next hpred =>
        rw [if_neg hpred]
        split at h
        next => cases h
        next hlt =>
          rw [if_neg hlt]
          exact round_error env h runUntilLoop_physics

/-- **A call only fails in the physics if one of its ticks does.** -/
theorem call_physics {sim : Simulator π ψ σ ρ κ} {c : SimCall π ψ σ ρ κ}
    {err : String} (h : (call env sim c).result = .error (.physics err)) :
    ∃ t ∈ ticked env sim c, (tick env t).result = .error (.physics err) := by
  cases c with
  | runFor duration => exact runForLoop_error env h
  | runUntil predicate max => exact runUntilLoop_physics env h

/-- A `run_for` none of whose ticks fails comes to its end. -/
theorem runFor_now (sim : Simulator π ψ σ ρ κ) {d : Nat}
    (hd : env.tickDt ∣ d)
    (h : ∀ t ∈ ticked env sim (.runFor d), (tick env t).result = .ok ()) :
    (call env sim (.runFor d)).sim.clock.now = sim.clock.now + d := by
  have hok : (runFor env d sim).result = .ok () := by
    cases hresult : (runFor env d sim).result with
    | ok v => rfl
    | error e =>
        obtain ⟨t, ht, herr⟩ := runForLoop_error env hresult
        exact absurd ((h t ht).symm.trans herr) nofun
  show (runFor env d sim).sim.clock.now = _
  rw [runFor_ticks env hd] at hok ⊢
  rw [ticks_now env _ hok, preload_now, Nat.div_mul_cancel hd]

/-- Where a loop of ticks that succeed ticks. -/
theorem forTicked_times {endAt n : Nat} :
    ∀ {fuel : Nat} {sim : Simulator π ψ σ ρ κ}, n ≤ fuel →
      endAt = sim.clock.now + n * env.tickDt →
      (∀ t ∈ forTicked env endAt fuel sim, (tick env t).result = .ok ()) →
      (forTicked env endAt fuel sim).map (fun t => t.clock.now)
        = List.range' sim.clock.now n env.tickDt := by
  induction n with
  | zero =>
      intro fuel sim _ hend _
      have hover : ¬ sim.clock.now < endAt := by omega
      cases fuel with
      | zero => rfl
      | succ fuel =>
          unfold forTicked
          rw [if_neg hover]
          rfl
  | succ n ih =>
      intro fuel sim hfuel hend hok
      obtain ⟨fuel, rfl⟩ : ∃ k, fuel = k + 1 := ⟨fuel - 1, by omega⟩
      have hmore : sim.clock.now < endAt := by
        have hdt : 0 < (n + 1) * env.tickDt :=
          Nat.mul_pos (Nat.succ_pos n) env.tickDt_pos
        omega
      unfold forTicked at hok ⊢
      rw [if_pos hmore] at hok ⊢
      obtain ⟨hhead, hrest⟩ := List.forall_mem_cons.mp hok
      have hnow := tick_now env hhead
      rw [if_pos (isOk_of_ok hhead)] at hrest ⊢
      rw [List.map_cons, List.range'_succ, ← hnow]
      congr 1
      refine ih (Nat.le_of_succ_le_succ hfuel) ?_ hrest
      rw [hnow, hend, Nat.succ_mul]
      omega

/-- **A `run_for` none of whose ticks fails ticks at these instants.** -/
theorem runFor_times (sim : Simulator π ψ σ ρ κ) (n : Nat)
    (h : ∀ t ∈ ticked env sim (.runFor (n * env.tickDt)),
      (tick env t).result = .ok ()) :
    (ticked env sim (.runFor (n * env.tickDt))).map (fun t => t.clock.now)
      = List.range' sim.clock.now n env.tickDt := by
  have hpasses : n ≤ passes env (n * env.tickDt) := by
    unfold passes
    rw [Nat.mul_div_cancel n env.tickDt_pos]
    omega
  have hnow := preload_now env (sim.clock.now + n * env.tickDt) sim
  rw [← hnow]
  refine forTicked_times env hpasses ?_ ?_
  · rw [hnow]
  · intro t ht
    exact h t ht

end ArgusManager.Simulator

/-! ## §5. The steps of a scenario. -/

namespace ArgusManager.Sim.Setup

variable {ρ σ : Type} (u : Setup ρ σ)

/-- The physics step of the tick from `t`. -/
def stepAt (t : u.Machine) : Stepped :=
  step u.m u.cfg (Simulator.afterEvents u.scenario t).engine
    (asSecsF64 t.clock.now) (.fin (asSecs u.tickDt)) t.state t.ctx

/-- **A tick of the scenario does this step.** -/
theorem tick_stepAt (t : u.Machine) :
    ((Simulator.tick u.scenario t).sim.state,
        (Simulator.tick u.scenario t).sim.ctx) = (u.stepAt t).1
      ∧ (Simulator.tick u.scenario t).result
        = ((u.stepAt t).2.mapError Stop.text).mapError .physics :=
  Simulator.tick_physics u.scenario t

theorem tick_state (t : u.Machine) :
    (Simulator.tick u.scenario t).sim.state = (u.stepAt t).1.1 :=
  congrArg Prod.fst (u.tick_stepAt t).1

theorem tickDt_secs_pos : 0 < asSecs u.tickDt := by
  unfold asSecs
  have h : (0 : ℚ) < u.tickDt := Nat.cast_pos.mpr u.tickDt_pos
  positivity

end ArgusManager.Sim.Setup

/-! ## §6. A scenario in which nobody reacts. -/

namespace ArgusManager.Sim

/-- Signals that are all normal, and no noise. -/
def idleProjections : Projections Unit where
  memory _ _ := ((), .memoryPressure .normal 1 1 0)
  compute _ _ := ((), .computeGuidance .normal .any .balanced 0 0)
  thermal _ _ := ((), .thermalAlert .normal 40000 false 1)
  energy _ _ := ((), .energyConstraint .normal .none 5000)
  heartbeatNoise _ := ()

/-- Every interval is a second. -/
def secondly : ArgusManager.ScenarioConfig where
  heartbeatInterval := fromSecs 1
  memoryPoll := fromSecs 1
  computePoll := fromSecs 1
  thermalPoll := fromSecs 1
  energyPoll := fromSecs 1
  externalInjections := []

theorem second_pos : 0 < fromSecs 1 := by decide

theorem timing_eq_secondly {cfg : ScenarioConfig}
    (hobs : cfg.observation = ScenarioConfig.still.observation)
    {injs : List ArgusManager.ExternalInjection}
    (hinj : cfg.externalInjections.mapM ExternalInjection.timing = some injs) :
    cfg.timing = some { secondly with externalInjections := injs } := by
  have hone : fromSecsF64 (.fin 1) = some (fromSecs 1) := by
    have h := fromSecsF64_natCast (n := 1) (by decide)
    rwa [Nat.cast_one] at h
  unfold ScenarioConfig.timing
  rw [hobs, hinj]
  simp only [ScenarioConfig.still, hone]
  rfl

theorem timing_secondly {cfg : ScenarioConfig}
    (hobs : cfg.observation = ScenarioConfig.still.observation)
    (hinj : cfg.externalInjections = []) : cfg.timing = some secondly :=
  timing_eq_secondly hobs (hinj ▸ rfl)

/-- The scenario under a policy that never answers. -/
def Setup.idle (cfg : ScenarioConfig)
    (hobs : cfg.observation = ScenarioConfig.still.observation)
    (hinj : cfg.externalInjections = []) (tickDt : Nat) (hdt : 0 < tickDt) :
    Setup Unit Unit where
  m := .flat
  cfg := cfg
  timing := secondly
  timing_eq := timing_secondly hobs hinj
  proj := idleProjections
  policy := Simulator.idlePolicy
  tickDt := tickDt
  tickDt_pos := hdt

end ArgusManager.Sim
