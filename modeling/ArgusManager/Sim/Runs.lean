/-
  ArgusManager.Sim.Runs
  ─────────────────────
  **Ticks in a row**, and the drivers as such.

    • `ticks`           — so many ticks, or up to the first that fails,
    • `ticks_ledger`    — every plain event fires once or is still pending,
    • `ticks_synced`    — synchronized simulators stay so,
    • `runFor_ticks`, `runUntil_ticks` — the drivers on a duration that is a
                          multiple of the tick: their loops never run out of
                          passes,
    • `runForLoop_some`, `runUntilLoop_some` — and on any duration.
-/
import ArgusManager.Sim.Preload

namespace ArgusManager.Simulator

variable {π ψ σ ρ κ : Type} (env : Scenario π ψ σ ρ κ)

/-! ## §1. Going on. -/

theorem andThen_ok {o : Outcome π ψ σ ρ κ} (h : o.result = .ok ())
    (next : Simulator π ψ σ ρ κ → Outcome π ψ σ ρ κ) :
    o.andThen next
      = { sim := (next o.sim).sim
          fired := o.fired ++ (next o.sim).fired
          result := (next o.sim).result } := by
  unfold Outcome.andThen
  rw [h]

theorem andThen_error {o : Outcome π ψ σ ρ κ} {e : SimError}
    (h : o.result = .error e)
    (next : Simulator π ψ σ ρ κ → Outcome π ψ σ ρ κ) : o.andThen next = o := by
  unfold Outcome.andThen
  rw [h]

/-- Tick so often, unless one fails. -/
def ticks : Nat → Simulator π ψ σ ρ κ → Outcome π ψ σ ρ κ
  | 0, sim => { sim := sim, fired := [], result := .ok () }
  | n + 1, sim => (tick env sim).andThen (ticks n)

theorem ticks_succ (n : Nat) (sim : Simulator π ψ σ ρ κ) :
    ticks env (n + 1) sim = (tick env sim).andThen (ticks env n) := rfl

theorem andThen_assoc (o : Outcome π ψ σ ρ κ)
    (f g : Simulator π ψ σ ρ κ → Outcome π ψ σ ρ κ) :
    (o.andThen f).andThen g = o.andThen fun sim => (f sim).andThen g := by
  cases hresult : o.result with
  | error e =>
      rw [andThen_error hresult, andThen_error hresult, andThen_error hresult]
  | ok u =>
      rw [andThen_ok hresult, andThen_ok hresult]
      cases hf : (f o.sim).result with
      | error e =>
          rw [andThen_error hf, hf]
          exact andThen_error
            (o := ⟨(f o.sim).sim, o.fired ++ (f o.sim).fired, .error e⟩) rfl g
      | ok v =>
          rw [andThen_ok hf, ← List.append_assoc]
          exact andThen_ok
            (o := ⟨(f o.sim).sim, o.fired ++ (f o.sim).fired, .ok ()⟩) rfl g

theorem ticks_add (m n : Nat) (sim : Simulator π ψ σ ρ κ) :
    ticks env (m + n) sim = (ticks env m sim).andThen (ticks env n) := by
  induction m generalizing sim with
  | zero =>
      rw [Nat.zero_add]
      rfl
  | succ m ih =>
      rw [Nat.succ_add, ticks_succ, ticks_succ, andThen_assoc]
      exact congrArg _ (funext ih)

/-! ## §2. What ticks do. -/

theorem tick_now {sim : Simulator π ψ σ ρ κ}
    (h : (tick env sim).result = .ok ()) :
    (tick env sim).sim.clock.now = sim.clock.now + env.tickDt := by
  rw [(tick_plain env sim).2.2, h]
  rfl

theorem ticks_now (n : Nat) {sim : Simulator π ψ σ ρ κ}
    (h : (ticks env n sim).result = .ok ()) :
    (ticks env n sim).sim.clock.now = sim.clock.now + n * env.tickDt := by
  induction n generalizing sim with
  | zero =>
      rw [Nat.zero_mul]
      rfl
  | succ n ih =>
      rw [ticks_succ] at h ⊢
      cases hresult : (tick env sim).result with
      | error e =>
          rw [andThen_error hresult, hresult] at h
          exact absurd h (by simp)
      | ok u =>
          rw [andThen_ok hresult] at h ⊢
          rw [ih h, tick_now env hresult, Nat.succ_mul]
          omega

/-- **Every plain event fires once or is still pending**, and every one that
fires is recorded, whether or not a tick fails. -/
theorem ticks_ledger (n : Nat) (sim : Simulator π ψ σ ρ κ) :
    ((ticks env n sim).fires.filter isPlain
        ++ (ticks env n sim).sim.clock.plain).Perm sim.clock.plain
      ∧ (ticks env n sim).sim.trajectory.firings
        = sim.trajectory.firings
          ++ ((ticks env n sim).fires.filter isPlain).map
            (fun x => asSecs x.1) := by
  induction n generalizing sim with
  | zero => exact ⟨.refl _, (List.append_nil _).symm⟩
  | succ n ih =>
      obtain ⟨hplain, hfirings, _⟩ := tick_plain env sim
      have hfires := tick_fires_plain env sim
      -- one tick parts the events into those due and the rest
      have hone : ((tick env sim).fires.filter isPlain
          ++ (tick env sim).sim.clock.plain).Perm sim.clock.plain := by
        rw [hfires, hplain]
        exact perm_due _ _
      rw [ticks_succ]
      cases hresult : (tick env sim).result with
      | error e =>
          -- the failing tick has fired its events all the same
          rw [andThen_error hresult, hfirings, hfires]
          exact ⟨hfires ▸ hone, rfl⟩
      | ok u =>
          rw [andThen_ok hresult]
          obtain ⟨hrest, hmore⟩ := ih (tick env sim).sim
          unfold Outcome.fires at hone hrest hmore hfires ⊢
          dsimp only
          rw [List.map_append, List.filter_append]
          constructor
          · rw [List.append_assoc]
            exact (hrest.append_left _).trans hone
          · rw [hmore, hfirings, hfires, List.map_append, List.append_assoc]

/-- What is due later than the last tick is not touched. -/
theorem ticks_after (n : Nat) {sim : Simulator π ψ σ ρ κ} {t : Nat}
    (ht : sim.clock.now + n * env.tickDt ≤ t) :
    dueAfter t (ticks env n sim).sim.clock.plain
      = dueAfter t sim.clock.plain := by
  induction n generalizing sim with
  | zero => rfl
  | succ n ih =>
      rw [Nat.succ_mul] at ht
      have hone : dueAfter t (tick env sim).sim.clock.plain
          = dueAfter t sim.clock.plain := by
        rw [(tick_plain env sim).1]
        exact dueAfter_dueAfter (by omega) _
      rw [ticks_succ]
      cases hresult : (tick env sim).result with
      | error e => rw [andThen_error hresult, hone]
      | ok u =>
          have hnow := tick_now env hresult
          rw [andThen_ok hresult]
          exact (ih (by omega)).trans hone

/-- After at least one tick, and with none failing, nothing due is left. -/
theorem ticks_due (n : Nat) {sim : Simulator π ψ σ ρ κ}
    (h : (ticks env (n + 1) sim).result = .ok ()) :
    dueBy (sim.clock.now + (n + 1) * env.tickDt)
      (ticks env (n + 1) sim).sim.clock.plain = [] := by
  induction n generalizing sim with
  | zero =>
      rw [ticks_succ] at h ⊢
      cases hresult : (tick env sim).result with
      | error e =>
          rw [andThen_error hresult, hresult] at h
          exact absurd h (by simp)
      | ok u =>
          rw [andThen_ok hresult, Nat.zero_add, Nat.one_mul]
          show dueBy _ (tick env sim).sim.clock.plain = []
          rw [(tick_plain env sim).1]
          exact dueBy_dueAfter_self _ _
  | succ n ih =>
      rw [ticks_succ] at h ⊢
      cases hresult : (tick env sim).result with
      | error e =>
          rw [andThen_error hresult, hresult] at h
          exact absurd h (by simp)
      | ok u =>
          have hnow := tick_now env hresult
          rw [andThen_ok hresult] at h ⊢
          have hrest := ih h
          rw [hnow] at hrest
          rw [Nat.succ_mul (n + 1)]
          rw [show sim.clock.now + ((n + 1) * env.tickDt + env.tickDt)
            = sim.clock.now + env.tickDt + (n + 1) * env.tickDt by omega]
          exact hrest

/-- **Synchronized simulators stay so**, as far as they agree on what is due
by the end. -/
theorem ticks_synced (n : Nat) {p : Nat × EventKind → Bool}
    {a b : Simulator π ψ σ ρ κ} (h : Synced p a b)
    (hp : ∀ x : Nat × EventKind,
      x.1 ≤ a.clock.now + n * env.tickDt → p x) :
    Synced p (ticks env n a).sim (ticks env n b).sim
      ∧ (ticks env n a).result = (ticks env n b).result
      ∧ Alike (ticks env n a).fires (ticks env n b).fires := by
  induction n generalizing a b with
  | zero => exact ⟨h, rfl, rfl, rfl, rfl⟩
  | succ n ih =>
      rw [Nat.succ_mul] at hp
      obtain ⟨hsync, hsame, hfires⟩ := tick_synced env h
        fun x hx => hp x (by omega)
      rw [ticks_succ, ticks_succ]
      cases hresult : (tick env a).result with
      | error e =>
          rw [andThen_error hresult, andThen_error (hsame.symm.trans hresult)]
          exact ⟨hsync, hsame, hfires⟩
      | ok u =>
          have hnow := tick_now env hresult
          rw [andThen_ok hresult, andThen_ok (hsame.symm.trans hresult)]
          obtain ⟨hrest, hsame', hfires'⟩ := ih hsync
            fun x hx => hp x (by omega)
          refine ⟨hrest, hsame', ?_⟩
          unfold Outcome.fires at hfires hfires' ⊢
          dsimp only
          rw [List.map_append, List.map_append]
          exact hfires.append hfires'

/-! ## §3. The start of a call. -/

/-- The simulator after the preload of a call. -/
def preload (bound : Nat) (sim : Simulator π ψ σ ρ κ) :
    Simulator π ψ σ ρ κ :=
  { sim with clock := preloadEvents env.cfg bound sim.clock }

@[simp] theorem preload_now (bound : Nat) (sim : Simulator π ψ σ ρ κ) :
    (preload env bound sim).clock.now = sim.clock.now := by
  unfold preload
  rw [preloadEvents_eq]
  exact VirtualClock.scheduleAll_now _ _

theorem preload_core (bound : Nat) (sim : Simulator π ψ σ ρ κ) :
    (preload env bound sim).core = sim.core := by
  have hset : ∀ c : VirtualClock,
      ({ sim with clock := c } : Simulator π ψ σ ρ κ).core
        = { sim.core with now := c.now, observations := c.observations } :=
    fun _ => rfl
  unfold preload
  rw [preloadEvents_eq, hset, VirtualClock.scheduleAll_now,
    VirtualClock.observations_scheduleAll (preloaded_plain _ _ _)]
  rfl

theorem preload_plain (bound : Nat) (sim : Simulator π ψ σ ρ κ) :
    (preload env bound sim).clock.plain
      = Agenda.insertAll Prod.fst sim.clock.plain
          (preloaded env.cfg sim.clock.now bound) := by
  unfold preload
  rw [preloadEvents_eq]
  exact VirtualClock.plain_scheduleAll (preloaded_plain _ _ _) _

/-! ## §4. The drivers. -/

/-- Enough passes make the loop of `run_for` that many ticks. -/
theorem runForLoop_ticks {endAt : Nat} :
    ∀ (n fuel : Nat) (sim : Simulator π ψ σ ρ κ), n ≤ fuel →
      endAt = sim.clock.now + n * env.tickDt →
      runForLoop env endAt fuel sim = ticks env n sim := by
  intro n
  induction n with
  | zero =>
      intro fuel sim _ hend
      cases fuel with
      | zero => rfl
      | succ fuel =>
          rw [runForLoop, if_neg (by omega)]
          rfl
  | succ n ih =>
      intro fuel sim hfuel hend
      -- a tick is left before the end, and a pass to make it
      obtain ⟨fuel, rfl⟩ : ∃ k, fuel = k + 1 := ⟨fuel - 1, by omega⟩
      have hdt := env.tickDt_pos
      rw [Nat.succ_mul] at hend
      rw [runForLoop, if_pos (by omega), ticks_succ]
      cases hresult : (tick env sim).result with
      | error e => rw [andThen_error hresult, andThen_error hresult]
      | ok u =>
          have hnow := tick_now env hresult
          rw [andThen_ok hresult, andThen_ok hresult,
            ih fuel _ (by omega) (by omega)]

/-- **`run_for` on a multiple of the tick** preloads and ticks that often. -/
theorem runFor_ticks {d : Nat} (hd : env.tickDt ∣ d)
    (sim : Simulator π ψ σ ρ κ) :
    runFor env d sim
      = ticks env (d / env.tickDt) (preload env (sim.clock.now + d) sim) := by
  unfold runFor
  refine runForLoop_ticks env _ _ _ (Nat.le_succ _) ?_
  rw [Nat.div_mul_cancel hd]
  exact congrArg (· + d) (preload_now env _ sim).symm

/-- How `run_until` ends when the predicate never holds. -/
def untilResult (r : Except SimError Unit) : Except SimError Unit :=
  match r with
  | .error e => .error e
  | .ok () => .error .maxDurationExceeded

theorem runUntilLoop_ticks {predicate : Nat → Simulator π ψ σ ρ κ → Bool}
    (hnever : ∀ calls sim, predicate calls sim = false) {endAt : Nat} :
    ∀ (n fuel calls : Nat) (sim : Simulator π ψ σ ρ κ), n ≤ fuel →
      endAt = sim.clock.now + n * env.tickDt →
      runUntilLoop env predicate endAt fuel calls sim
        = { ticks env n sim with
            result := untilResult (ticks env n sim).result } := by
  have hno : ∀ calls sim, ¬ predicate calls sim = true := by
    intro calls sim
    rw [hnever]
    simp
  intro n
  induction n with
  | zero =>
      intro fuel calls sim _ hend
      cases fuel with
      | zero =>
          rw [runUntilLoop, if_neg (hno _ _)]
          rfl
      | succ fuel =>
          rw [runUntilLoop, if_neg (hno _ _), if_pos (by omega)]
          rfl
  | succ n ih =>
      intro fuel calls sim hfuel hend
      obtain ⟨fuel, rfl⟩ : ∃ k, fuel = k + 1 := ⟨fuel - 1, by omega⟩
      have hdt := env.tickDt_pos
      rw [Nat.succ_mul] at hend
      -- the clock is short of the end, so the loop takes one more tick
      rw [runUntilLoop, if_neg (hno _ _), if_neg (by omega), ticks_succ]
      cases hresult : (tick env sim).result with
      | error e =>
          rw [andThen_error hresult, andThen_error hresult]
          unfold untilResult
          rw [hresult]
          dsimp only
          rw [← hresult]
      | ok u =>
          have hnow := tick_now env hresult
          rw [andThen_ok hresult, andThen_ok hresult,
            ih fuel _ _ (by omega) (by omega)]

/-- **`run_until` on a multiple of the tick**, its predicate never true: the
same ticks, after a preload that stops at the horizon. -/
theorem runUntil_ticks {predicate : Nat → Simulator π ψ σ ρ κ → Bool}
    (hnever : ∀ calls sim, predicate calls sim = false) {max : Nat}
    (hmax : env.tickDt ∣ max) (sim : Simulator π ψ σ ρ κ) :
    runUntil env predicate max sim
      = { ticks env (max / env.tickDt)
            (preload env (sim.clock.now + min max HORIZON) sim) with
          result := untilResult (ticks env (max / env.tickDt)
            (preload env (sim.clock.now + min max HORIZON) sim)).result } := by
  unfold runUntil
  refine runUntilLoop_ticks env hnever _ _ 0 _ (Nat.le_succ _) ?_
  rw [Nat.div_mul_cancel hmax]
  exact congrArg (· + max) (preload_now env _ sim).symm

/-- Whatever the duration, the loop of `run_for` is some number of ticks. -/
theorem runForLoop_some (endAt : Nat) :
    ∀ (fuel : Nat) (sim : Simulator π ψ σ ρ κ),
      ∃ n, runForLoop env endAt fuel sim = ticks env n sim
  | 0, _ => ⟨0, rfl⟩
  | fuel + 1, sim => by
      unfold runForLoop
      split
      next =>
        obtain ⟨n, hn⟩ := runForLoop_some endAt fuel (tick env sim).sim
        refine ⟨n + 1, ?_⟩
        rw [ticks_succ]
        cases hresult : (tick env sim).result with
        | error e => rw [andThen_error hresult, andThen_error hresult]
        | ok u => rw [andThen_ok hresult, andThen_ok hresult, hn]
      next => exact ⟨0, rfl⟩

/-- And so is that of `run_until`, but for the result. -/
theorem runUntilLoop_some (predicate : Nat → Simulator π ψ σ ρ κ → Bool)
    (endAt : Nat) :
    ∀ (fuel calls : Nat) (sim : Simulator π ψ σ ρ κ),
      ∃ n, (runUntilLoop env predicate endAt fuel calls sim).sim
          = (ticks env n sim).sim
        ∧ (runUntilLoop env predicate endAt fuel calls sim).fired
          = (ticks env n sim).fired
  | 0, calls, sim => by
      refine ⟨0, ?_⟩
      unfold runUntilLoop
      split
      next => exact ⟨rfl, rfl⟩
      next => exact ⟨rfl, rfl⟩
  | fuel + 1, calls, sim => by
      unfold runUntilLoop
      split
      next => exact ⟨0, rfl, rfl⟩
      next =>
        split
        next => exact ⟨0, rfl, rfl⟩
        next =>
          -- one more tick than the rest of the loop takes
          obtain ⟨n, hsim, hfired⟩ := runUntilLoop_some predicate endAt fuel
            (calls + 1) (tick env sim).sim
          refine ⟨n + 1, ?_⟩
          rw [ticks_succ]
          cases hresult : (tick env sim).result with
          | error e =>
              rw [andThen_error hresult, andThen_error hresult]
              exact ⟨rfl, rfl⟩
          | ok u =>
              rw [andThen_ok hresult, andThen_ok hresult]
              exact ⟨hsim, congrArg ((tick env sim).fired ++ ·) hfired⟩

/-! ## §5. A scenario in which nothing reacts. -/

def idleStatus : EngineStatus where
  kvCacheBytes := 1024
  kvCacheBudgetBytes := 4096
  kvCacheTokens := 32
  tbtMs := .fin (25 / 2)
  phase := .decode
  state := .running

/-- Physics that stands still, and signals that are all normal. -/
def idlePlant : Plant Unit Unit Unit Unit where
  snapshot _ := ()
  deriveHeartbeat _ _ _ := ((), .heartbeat idleStatus)
  deriveMemorySignal _ _ := ((), .memoryPressure .normal 1 1 0)
  deriveComputeSignal _ _ := ((), .computeGuidance .normal .any .balanced 0 0)
  deriveThermalSignal _ _ := ((), .thermalAlert .normal 40000 false 1)
  deriveEnergySignal _ _ := ((), .energyConstraint .normal .none 5000)
  step _ _ _ _ _ := (((), ()), .ok ())

/-- A policy that never answers. -/
def idlePolicy : SimPolicy Unit where
  strategy _ :=
    { processSignal := fun _ _ _ => ((), none)
      updateEngineState := fun _ _ => ()
      cancelLastObservation := fun _ => ()
      asReloadable := none }
  getObservationOverrunCount _ _ := ((), 0)

/-- Heartbeats at this interval, everything else far off; a tick is 1 s. -/
def idleScenario (heartbeatInterval : Nat) : Scenario Unit Unit Unit Unit Unit
    where
  cfg :=
    { heartbeatInterval := heartbeatInterval
      memoryPoll := fromSecs 1000
      computePoll := fromSecs 1000
      thermalPoll := fromSecs 1000
      energyPoll := fromSecs 1000
      externalInjections := [] }
  plant := idlePlant
  policy := idlePolicy
  tickDt := fromSecs 1
  tickDt_pos := by decide

def idleEngine : EngineStateModel where
  activeDevice := "cpu"
  activeActions := []
  phase := "decode"
  partitionRatio := .fin 0
  throttleDelayMs := .fin 0
  tbtTargetMs := .fin 0
  skipRatio := .fin 0
  kvQuantBits := none
  lastEvictRatio := none
  lastSwitchDevice := none

def idleSimulator : Simulator Unit Unit Unit Unit Unit :=
  .new () idleEngine () () ()

end ArgusManager.Simulator
