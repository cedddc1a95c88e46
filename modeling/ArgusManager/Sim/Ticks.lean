/-
  ArgusManager.Sim.Ticks
  ──────────────────────
  **What a tick does**, seen three ways.

    • `plain` events (all but observations): a tick takes those due and
      schedules none (`tick_plain`),
    • `firings`: it records one entry for each of them (`tick_firings`),
    • `core`: what the next step depends on.  Observations are recorded and
      have no other effect, so the core after a tick only depends on the core
      before it and on the plain events due (`tick_synced`).
-/
import ArgusManager.Lib.Mealy
import ArgusManager.Sim.Harness

namespace ArgusManager

/-! ## §1. Two kinds of events. -/

/-- Everything but an observation. -/
def isPlain (x : Nat × EventKind) : Bool := !x.2.isObservation

/-- The entries due at `t`. -/
def dueBy (t : Nat) (xs : List (Nat × EventKind)) : List (Nat × EventKind) :=
  xs.filter fun x => x.1 ≤ t

/-- The entries due later. -/
def dueAfter (t : Nat) (xs : List (Nat × EventKind)) :
    List (Nat × EventKind) :=
  xs.filter fun x => t < x.1

theorem dueBy_filter (t : Nat) (p : Nat × EventKind → Bool)
    (xs : List (Nat × EventKind)) :
    dueBy t (xs.filter p) = (dueBy t xs).filter p := by
  unfold dueBy
  rw [List.filter_filter, List.filter_filter]
  exact List.filter_congr fun x _ => Bool.and_comm _ _

theorem dueAfter_filter (t : Nat) (p : Nat × EventKind → Bool)
    (xs : List (Nat × EventKind)) :
    dueAfter t (xs.filter p) = (dueAfter t xs).filter p := by
  unfold dueAfter
  rw [List.filter_filter, List.filter_filter]
  exact List.filter_congr fun x _ => Bool.and_comm _ _

/-- A time parts the entries into those due and the rest. -/
theorem perm_due (t : Nat) (xs : List (Nat × EventKind)) :
    (dueBy t xs ++ dueAfter t xs).Perm xs := by
  unfold dueBy dueAfter
  refine List.Perm.trans ?_
    (List.filter_append_perm (fun x => decide (x.1 ≤ t)) xs)
  refine (List.Perm.refl _).append (List.Perm.of_eq ?_)
  refine List.filter_congr fun x _ => ?_
  rw [← decide_not]
  exact decide_eq_decide.mpr Nat.not_le.symm

theorem dueBy_dueAfter_self (t : Nat) (xs : List (Nat × EventKind)) :
    dueBy t (dueAfter t xs) = [] := by
  refine List.filter_eq_nil_iff.mpr fun x hx => ?_
  have hlt := of_decide_eq_true (List.mem_filter.mp hx).2
  simpa using hlt

/-- The same but for where observations stand among the other events of their
instant. -/
structure Alike (xs ys : List (Nat × EventKind)) : Prop where
  plain : xs.filter isPlain = ys.filter isPlain
  observations : (xs.filter fun x => x.2.isObservation)
    = ys.filter fun x => x.2.isObservation
  times : xs.map Prod.fst = ys.map Prod.fst

theorem Alike.append {xs ys xs' ys' : List (Nat × EventKind)}
    (h : Alike xs ys) (h' : Alike xs' ys') :
    Alike (xs ++ xs') (ys ++ ys') where
  plain := by
    rw [List.filter_append, List.filter_append, h.plain, h'.plain]
  observations := by
    rw [List.filter_append, List.filter_append, h.observations,
      h'.observations]
  times := by
    rw [List.map_append, List.map_append, h.times, h'.times]

/-- The two kinds of events are all of them. -/
theorem perm_of_kinds {xs ys : List (Nat × EventKind)}
    (hplain : xs.filter isPlain = ys.filter isPlain)
    (hobs : (xs.filter fun x => x.2.isObservation)
      = ys.filter fun x => x.2.isObservation) : xs.Perm ys := by
  have hsplit : ∀ zs : List (Nat × EventKind),
      (zs.filter isPlain ++ zs.filter fun x => x.2.isObservation).Perm zs := by
    intro zs
    refine List.Perm.trans ?_ (List.filter_append_perm isPlain zs)
    refine (List.Perm.refl _).append (List.Perm.of_eq ?_)
    refine List.filter_congr fun x _ => ?_
    unfold isPlain
    exact (Bool.not_not _).symm
  refine (hsplit xs).symm.trans ?_
  rw [hplain, hobs]
  exact hsplit ys

/-- Lists that are alike have the same members, equally often. -/
theorem Alike.perm {xs ys : List (Nat × EventKind)} (h : Alike xs ys) :
    xs.Perm ys :=
  perm_of_kinds h.plain h.observations

/-- Agendas with the same events of each kind are alike. -/
theorem alike_of_kinds {xs ys : List (Nat × EventKind)}
    (hx : Agenda.Sorted Prod.fst xs) (hy : Agenda.Sorted Prod.fst ys)
    (hplain : xs.filter isPlain = ys.filter isPlain)
    (hobs : (xs.filter fun x => x.2.isObservation)
      = ys.filter fun x => x.2.isObservation) : Alike xs ys where
  plain := hplain
  observations := hobs
  times := by
    have hperm := (perm_of_kinds hplain hobs).map Prod.fst
    exact hperm.eq_of_pairwise (fun a b _ _ hab hba => Nat.le_antisymm hab hba)
      (List.pairwise_map.mpr hx) (List.pairwise_map.mpr hy)

/-- What fired, in order. -/
def Outcome.fires {π ψ σ ρ κ : Type} (o : Outcome π ψ σ ρ κ) :
    List (Nat × EventKind) :=
  o.fired.map ScheduledEvent.entry

namespace VirtualClock

def plain (c : VirtualClock) : List (Nat × EventKind) := c.agenda.filter isPlain

def observations (c : VirtualClock) : List (Nat × EventKind) :=
  c.agenda.filter fun x => x.2.isObservation

theorem plain_sorted (c : VirtualClock) : Agenda.Sorted Prod.fst c.plain :=
  c.agenda_sorted.filter _

theorem plain_scheduleAll {xs : List (Nat × EventKind)}
    (h : ∀ x ∈ xs, isPlain x) (c : VirtualClock) :
    (c.scheduleAll xs).plain = Agenda.insertAll Prod.fst c.plain xs := by
  unfold plain
  rw [agenda_scheduleAll, Agenda.filter_insertAll Prod.fst _ _ c.agenda_sorted,
    List.filter_eq_self.mpr h]

theorem observations_scheduleAll {xs : List (Nat × EventKind)}
    (h : ∀ x ∈ xs, isPlain x) (c : VirtualClock) :
    (c.scheduleAll xs).observations = c.observations := by
  unfold observations
  rw [agenda_scheduleAll, Agenda.filter_insertAll Prod.fst _ _ c.agenda_sorted]
  have hnone : (xs.filter fun x => x.2.isObservation) = [] := by
    refine List.filter_eq_nil_iff.mpr fun x hx => ?_
    have hplain := h x hx
    unfold isPlain at hplain
    simpa using hplain
  rw [hnone]
  rfl

theorem plain_observation (action : String) (recordedAt dueAt : Nat)
    (c : VirtualClock) :
    (c.schedule (.observationDue action recordedAt) dueAt).plain = c.plain := by
  unfold plain
  rw [agenda_schedule, Agenda.filter_insert Prod.fst _ _ c.agenda_sorted]
  rfl

theorem observations_observation (action : String) (recordedAt dueAt : Nat)
    (c : VirtualClock) :
    (c.schedule (.observationDue action recordedAt) dueAt).observations
      = Agenda.insert Prod.fst (dueAt, .observationDue action recordedAt)
          c.observations := by
  unfold observations
  rw [agenda_schedule, Agenda.filter_insert Prod.fst _ _ c.agenda_sorted]
  rfl

/-- A directive's observations leave the plain events alone. -/
theorem scheduleObservations_frame (cmds : List EngineCommand)
    (c : VirtualClock) :
    (cmds.foldl scheduleObservation c).now = c.now
      ∧ (cmds.foldl scheduleObservation c).plain = c.plain := by
  induction cmds generalizing c with
  | nil => exact ⟨rfl, rfl⟩
  | cons cmd cmds ih =>
      obtain ⟨hnow, hplain⟩ := ih (scheduleObservation c cmd)
      rw [List.foldl_cons, hnow, hplain]
      unfold scheduleObservation
      split
      next => exact ⟨rfl, plain_observation _ _ _ c⟩
      next => exact ⟨rfl, rfl⟩

/-- And only depend on the time and the observations there are. -/
theorem scheduleObservations_congr (cmds : List EngineCommand)
    {c d : VirtualClock} (hnow : c.now = d.now)
    (hobs : c.observations = d.observations) :
    (cmds.foldl scheduleObservation c).observations
      = (cmds.foldl scheduleObservation d).observations := by
  induction cmds generalizing c d with
  | nil => exact hobs
  | cons cmd cmds ih =>
      rw [List.foldl_cons, List.foldl_cons]
      refine ih ?_ ?_
      · unfold scheduleObservation
        split
        next => exact hnow
        next => exact hnow
      · unfold scheduleObservation
        split
        next =>
          rw [observations_observation, observations_observation, hnow, hobs]
        next => exact hobs

end VirtualClock

namespace Simulator

variable {π ψ σ ρ κ : Type}

/-! ## §2. The core. -/

/-- What the next step depends on. -/
structure Core (π σ ρ κ : Type) where
  now : Nat
  state : π
  engine : EngineStateModel
  policy : σ
  rng : ρ
  ctx : κ
  lastOverrunCount : Nat
  dedup : DirectiveDeduplicator
  lastSignalLevels : String → Option String
  observations : List (Nat × EventKind)

def core (sim : Simulator π ψ σ ρ κ) : Core π σ ρ κ where
  now := sim.clock.now
  state := sim.state
  engine := sim.engine
  policy := sim.policy
  rng := sim.rng
  ctx := sim.ctx
  lastOverrunCount := sim.lastOverrunCount
  dedup := sim.dedup
  lastSignalLevels := sim.lastSignalLevels
  observations := sim.clock.observations

@[simp] theorem core_record (entry : TrajectoryEntry ψ)
    (sim : Simulator π ψ σ ρ κ) : (sim.record entry).core = sim.core := rfl

variable (env : Scenario π ψ σ ρ κ)

theorem processHeartbeat_core (dueAt : Nat) {a b : Simulator π ψ σ ρ κ}
    (h : a.core = b.core) :
    (processHeartbeat env dueAt a).core
      = (processHeartbeat env dueAt b).core := by
  -- the new core, as a function of the old one
  have hcore : ∀ sim : Simulator π ψ σ ρ κ,
      (processHeartbeat env dueAt sim).core
        = { sim.core with
            rng := (env.plant.deriveHeartbeat sim.core.state sim.core.engine
              sim.core.rng).1
            policy := (env.policy.strategy sim.core.now).updateEngineState
              (env.plant.deriveHeartbeat sim.core.state sim.core.engine
                sim.core.rng).2 sim.core.policy } := fun _ => rfl
  rw [hcore, hcore, h]

theorem noteLevel_core (dueAt : Nat) (dump : SignalDump)
    {a b : Simulator π ψ σ ρ κ} (h : a.core = b.core) :
    (noteLevel env dueAt dump a).core = (noteLevel env dueAt dump b).core := by
  have hcore : ∀ sim : Simulator π ψ σ ρ κ,
      (noteLevel env dueAt dump sim).core
        = if sim.core.lastSignalLevels dump.kind ≠ some dump.level then
            { sim.core with
              lastSignalLevels := Function.update sim.core.lastSignalLevels
                dump.kind (some dump.level) }
          else sim.core := by
    intro sim
    unfold noteLevel
    dsimp only
    rw [apply_ite core]
    rfl
  rw [hcore, hcore, h]

theorem applyDirective_core (dir : EngineDirective)
    {a b : Simulator π ψ σ ρ κ} (h : a.core = b.core) :
    (a.applyDirective dir).core = (b.applyDirective dir).core := by
  have hcore : ∀ sim : Simulator π ψ σ ρ κ,
      (sim.applyDirective dir).core
        = { sim.core with
            engine := sim.core.engine.applyDirective dir
            observations := (dir.commands.foldl scheduleObservation
              sim.clock).observations } := by
    intro sim
    unfold applyDirective
    simp only [core, Core.mk.injEq, and_true]
    exact (VirtualClock.scheduleObservations_frame _ _).1
  have hnow : a.clock.now = b.clock.now := congrArg Core.now h
  have hobs : a.clock.observations = b.clock.observations :=
    congrArg Core.observations h
  rw [hcore, hcore, h, VirtualClock.scheduleObservations_congr _ hnow hobs]

theorem consultPolicy_core (dueAt : Nat) (sig : SystemSignal)
    {a b : Simulator π ψ σ ρ κ} (h : a.core = b.core) :
    (consultPolicy env dueAt sig a).core
      = (consultPolicy env dueAt sig b).core := by
  have hnow : a.clock.now = b.clock.now := congrArg Core.now h
  have hanswer : (env.policy.strategy a.core.now).processSignal () sig
        a.core.policy
      = (env.policy.strategy b.core.now).processSignal () sig
        b.core.policy := by
    rw [h]
  change (env.policy.strategy a.clock.now).processSignal () sig a.policy
    = (env.policy.strategy b.clock.now).processSignal () sig b.policy
    at hanswer
  have hdedup : a.dedup = b.dedup := congrArg Core.dedup h
  have hset : ∀ policy : σ,
      ({ a with policy := policy } : Simulator π ψ σ ρ κ).core
        = ({ b with policy := policy } : Simulator π ψ σ ρ κ).core := by
    intro policy
    show { a.core with policy := policy } = { b.core with policy := policy }
    rw [h]
  have hboth : ∀ (policy : σ) (dedup : DirectiveDeduplicator),
      ({ a with policy := policy, dedup := dedup }
        : Simulator π ψ σ ρ κ).core
        = ({ b with policy := policy, dedup := dedup }
          : Simulator π ψ σ ρ κ).core := by
    intro policy dedup
    show { a.core with policy := policy, dedup := dedup }
      = { b.core with policy := policy, dedup := dedup }
    rw [h]
  -- both sides ask the same and hand the answer to the same deduplicator
  unfold consultPolicy
  dsimp only
  rw [hanswer]
  split
  next policy heq => exact hset policy
  next policy dir heq =>
    rw [hdedup]
    split
    next dedup dir' hprocess =>
      rw [core_record, core_record]
      exact applyDirective_core dir' (hboth policy dedup)
    next dedup hprocess =>
      rw [hnow]
      exact hboth _ dedup

theorem processSignal_core (dueAt : Nat) (kind : EventKind)
    {a b : Simulator π ψ σ ρ κ} (h : a.core = b.core) :
    (processSignal env dueAt kind a).core
      = (processSignal env dueAt kind b).core := by
  have hderive : env.plant.deriveSignal kind a.core.state a.core.rng
      = env.plant.deriveSignal kind b.core.state b.core.rng := by
    rw [h]
  change env.plant.deriveSignal kind a.state a.rng
    = env.plant.deriveSignal kind b.state b.rng at hderive
  have hset : ∀ rng : ρ,
      ({ a with rng := rng } : Simulator π ψ σ ρ κ).core
        = ({ b with rng := rng } : Simulator π ψ σ ρ κ).core := by
    intro rng
    show { a.core with rng := rng } = { b.core with rng := rng }
    rw [h]
  unfold processSignal
  rw [hderive]
  split
  next rng heq => exact hset rng
  next rng sig heq =>
    dsimp only
    rw [core_record, core_record]
    exact consultPolicy_core env dueAt sig
      (noteLevel_core env dueAt _ (hset rng))

/-- An event the core sees. -/
def seen (event : ScheduledEvent) : Option (Nat × EventKind) :=
  if isPlain event.entry then some event.entry else none

theorem filterMap_seen (events : List ScheduledEvent) :
    events.filterMap seen
      = (events.map ScheduledEvent.entry).filter isPlain := by
  induction events with
  | nil => rfl
  | cons event events ih =>
      rw [List.map_cons]
      by_cases hplain : isPlain event.entry
      · have hseen : seen event = some event.entry := if_pos hplain
        rw [List.filterMap_cons_some hseen, List.filter_cons_of_pos hplain, ih]
      · have hseen : seen event = none := if_neg hplain
        rw [List.filterMap_cons_none hseen, List.filter_cons_of_neg hplain, ih]

/-- An observation leaves the core alone. -/
theorem processEvent_unseen {event : ScheduledEvent} (h : seen event = none)
    (sim : Simulator π ψ σ ρ κ) :
    (processEvent env sim event).core = sim.core := by
  unfold seen at h
  split at h
  next => exact absurd h (by simp)
  next hplain =>
    unfold processEvent
    cases hkind : event.kind with
    | observationDue action recordedAt => rfl
    | heartbeat => simp [isPlain, ScheduledEvent.entry, hkind,
        EventKind.isObservation] at hplain
    | signalMemory => simp [isPlain, ScheduledEvent.entry, hkind,
        EventKind.isObservation] at hplain
    | signalCompute => simp [isPlain, ScheduledEvent.entry, hkind,
        EventKind.isObservation] at hplain
    | signalThermal => simp [isPlain, ScheduledEvent.entry, hkind,
        EventKind.isObservation] at hplain
    | signalEnergy => simp [isPlain, ScheduledEvent.entry, hkind,
        EventKind.isObservation] at hplain
    | externalInjectionStart idx => rfl
    | externalInjectionEnd idx => rfl
    | custom name => rfl

/-- Any other event acts on the core, by its time and kind. -/
theorem processEvent_seen {e f : ScheduledEvent} {x : Nat × EventKind}
    (he : seen e = some x) (hf : seen f = some x) {a b : Simulator π ψ σ ρ κ}
    (h : a.core = b.core) :
    (processEvent env a e).core = (processEvent env b f).core := by
  have hentry : ∀ g : ScheduledEvent, seen g = some x → g.entry = x := by
    intro g hg
    unfold seen at hg
    split at hg
    next => exact Option.some.inj hg
    next => exact absurd hg (by simp)
  have hsame : e.entry = f.entry := (hentry e he).trans (hentry f hf).symm
  have hdue : e.dueAt = f.dueAt := congrArg Prod.fst hsame
  have hkind : e.kind = f.kind := congrArg Prod.snd hsame
  unfold processEvent
  rw [hdue, hkind]
  cases f.kind with
  | heartbeat => exact processHeartbeat_core env _ h
  | signalMemory => exact processSignal_core env _ _ h
  | signalCompute => exact processSignal_core env _ _ h
  | signalThermal => exact processSignal_core env _ _ h
  | signalEnergy => exact processSignal_core env _ _ h
  | observationDue action recordedAt => exact h
  | externalInjectionStart idx => exact h
  | externalInjectionEnd idx => exact h
  | custom name => exact h

/-- **The core only depends on the plain events**, whatever observations lie
between them. -/
theorem processEvents_core {es fs : List ScheduledEvent}
    (hseen : es.filterMap seen = fs.filterMap seen)
    {a b : Simulator π ψ σ ρ κ} (h : a.core = b.core) :
    (es.foldl (processEvent env) a).core
      = (fs.foldl (processEvent env) b).core :=
  Mealy.exec_component
    (m := ⟨fun sim event => (processEvent env sim event, ())⟩)
    (fun sim _ hnone => processEvent_unseen env hnone sim)
    (fun _ _ _ _ _ he hf hst => processEvent_seen env he hf hst)
    es fs a b h hseen

theorem noteOverruns_core (tickEnd : Nat) {a b : Simulator π ψ σ ρ κ}
    (h : a.core = b.core) :
    (noteOverruns env tickEnd a).core = (noteOverruns env tickEnd b).core := by
  have hcore : ∀ sim : Simulator π ψ σ ρ κ,
      (noteOverruns env tickEnd sim).core
        = if (env.policy.getObservationOverrunCount sim.core.now
              sim.core.policy).2 > sim.core.lastOverrunCount then
            { sim.core with
              policy := (env.policy.getObservationOverrunCount sim.core.now
                sim.core.policy).1
              lastOverrunCount := (env.policy.getObservationOverrunCount
                sim.core.now sim.core.policy).2 }
          else
            { sim.core with
              policy := (env.policy.getObservationOverrunCount sim.core.now
                sim.core.policy).1 } := by
    intro sim
    unfold noteOverruns
    dsimp only
    rw [apply_ite core]
    rfl
  rw [hcore, hcore, h]

/-- The plant sees the core only, and so does the result. -/
theorem finishTick_core (tickEnd : Nat) {a b : Simulator π ψ σ ρ κ}
    (h : a.core = b.core) :
    (finishTick env tickEnd a).1.core = (finishTick env tickEnd b).1.core
      ∧ (finishTick env tickEnd a).2 = (finishTick env tickEnd b).2 := by
  have hstep : env.plant.step a.core.engine a.core.now env.tickDt a.core.state
        a.core.ctx
      = env.plant.step b.core.engine b.core.now env.tickDt b.core.state
        b.core.ctx := by
    rw [h]
  change env.plant.step a.engine a.clock.now env.tickDt a.state a.ctx
    = env.plant.step b.engine b.clock.now env.tickDt b.state b.ctx at hstep
  unfold finishTick
  rw [hstep]
  split
  next state ctx err heq =>
    refine ⟨?_, rfl⟩
    show { a.core with state := state, ctx := ctx }
      = { b.core with state := state, ctx := ctx }
    rw [h]
  next state ctx heq =>
    refine ⟨?_, rfl⟩
    show { a.core with
        state := state, ctx := ctx, now := a.core.now + env.tickDt }
      = { b.core with
          state := state, ctx := ctx, now := b.core.now + env.tickDt }
    rw [h]

/-! ## §3. Plain events and their records. -/

/-- From `a` to `b` the time and the plain events stand, and these firings
were recorded. -/
structure Logs (ts : List ℚ) (a b : Simulator π ψ σ ρ κ) : Prop where
  now : b.clock.now = a.clock.now
  plain : b.clock.plain = a.clock.plain
  firings : b.trajectory.firings = a.trajectory.firings ++ ts

theorem Logs.trans {ts us : List ℚ} {a b c : Simulator π ψ σ ρ κ}
    (hab : Logs ts a b) (hbc : Logs us b c) : Logs (ts ++ us) a c where
  now := hbc.now.trans hab.now
  plain := hbc.plain.trans hab.plain
  firings := by rw [hbc.firings, hab.firings, List.append_assoc]

/-- Nothing but the trajectory and other fields changed. -/
theorem Logs.of_eq {ts : List ℚ} {a b : Simulator π ψ σ ρ κ}
    (hclock : b.clock = a.clock)
    (hfirings : b.trajectory.firings = a.trajectory.firings ++ ts) :
    Logs ts a b where
  now := congrArg VirtualClock.now hclock
  plain := congrArg VirtualClock.plain hclock
  firings := hfirings

theorem firings_concat (t : Trajectory ψ) (entry : TrajectoryEntry ψ) :
    Trajectory.firings (t ++ [entry])
      = t.firings ++ entry.firing?.toList := by
  unfold Trajectory.firings
  rw [List.filterMap_append]
  cases hentry : entry.firing? with
  | none => rw [List.filterMap_cons_none hentry]; rfl
  | some at' => rw [List.filterMap_cons_some hentry]; rfl

theorem logs_record (entry : TrajectoryEntry ψ) (sim : Simulator π ψ σ ρ κ) :
    Logs entry.firing?.toList sim (sim.record entry) :=
  .of_eq rfl (firings_concat sim.trajectory entry)

theorem noteLevel_logs (dueAt : Nat) (dump : SignalDump)
    (sim : Simulator π ψ σ ρ κ) :
    Logs [] sim (noteLevel env dueAt dump sim) := by
  unfold noteLevel
  dsimp only
  split
  next => exact .of_eq rfl (firings_concat sim.trajectory _)
  next => exact .of_eq rfl (List.append_nil _).symm

theorem applyDirective_logs (dir : EngineDirective)
    (sim : Simulator π ψ σ ρ κ) : Logs [] sim (sim.applyDirective dir) where
  now := (VirtualClock.scheduleObservations_frame dir.commands sim.clock).1
  plain := (VirtualClock.scheduleObservations_frame dir.commands sim.clock).2
  firings := (List.append_nil _).symm

theorem consultPolicy_logs (dueAt : Nat) (sig : SystemSignal)
    (sim : Simulator π ψ σ ρ κ) :
    Logs [] sim (consultPolicy env dueAt sig sim) := by
  unfold consultPolicy
  dsimp only
  split
  next => exact .of_eq rfl (List.append_nil _).symm
  next policy dir _ =>
    split
    next dedup dir' _ =>
      -- a directive is no firing of an event
      have happly := applyDirective_logs dir'
        { sim with policy := policy, dedup := dedup }
      have hrecord := logs_record
        (.directive (asSecs dueAt) (.fromSignal sig) (.fromDirective dir'))
        (({ sim with policy := policy, dedup := dedup }
          : Simulator π ψ σ ρ κ).applyDirective dir')
      exact ⟨(happly.trans hrecord).now, (happly.trans hrecord).plain,
        (happly.trans hrecord).firings⟩
    next => exact .of_eq rfl (List.append_nil _).symm

/-- A polled signal is recorded once, whatever the policy answers. -/
theorem processSignal_logs (dueAt : Nat) {kind : EventKind}
    {sim : Simulator π ψ σ ρ κ}
    (hkind : (env.plant.deriveSignal kind sim.state sim.rng).2.isSome) :
    Logs [asSecs dueAt] sim (processSignal env dueAt kind sim) := by
  unfold processSignal
  split
  next rng heq => exact absurd hkind (by simp [heq])
  next rng sig heq =>
    have hlevel := noteLevel_logs env dueAt (.fromSignal sig)
      { sim with rng := rng }
    have hpolicy := consultPolicy_logs env dueAt sig
      (noteLevel env dueAt (.fromSignal sig) { sim with rng := rng })
    have hrecord := logs_record (.signal (asSecs dueAt) (.fromSignal sig))
      (consultPolicy env dueAt sig
        (noteLevel env dueAt (.fromSignal sig) { sim with rng := rng }))
    have hall := (hlevel.trans hpolicy).trans hrecord
    exact ⟨hall.now, hall.plain, hall.firings⟩

/-- **One record for each plain event**, none for an observation. -/
theorem processEvent_logs (event : ScheduledEvent)
    (sim : Simulator π ψ σ ρ κ) :
    Logs (if isPlain event.entry then [asSecs event.dueAt] else []) sim
      (processEvent env sim event) := by
  have hplain : isPlain event.entry = !event.kind.isObservation := rfl
  unfold processEvent
  rw [hplain]
  cases event.kind with
  | heartbeat =>
      exact .of_eq rfl (firings_concat sim.trajectory _)
  | signalMemory => exact processSignal_logs env _ rfl
  | signalCompute => exact processSignal_logs env _ rfl
  | signalThermal => exact processSignal_logs env _ rfl
  | signalEnergy => exact processSignal_logs env _ rfl
  | observationDue action recordedAt =>
      exact .of_eq rfl (firings_concat sim.trajectory _)
  | externalInjectionStart idx =>
      exact .of_eq rfl (firings_concat sim.trajectory _)
  | externalInjectionEnd idx =>
      exact .of_eq rfl (firings_concat sim.trajectory _)
  | custom name => exact .of_eq rfl (firings_concat sim.trajectory _)

theorem processEvents_logs (events : List ScheduledEvent)
    (sim : Simulator π ψ σ ρ κ) :
    Logs (((events.map ScheduledEvent.entry).filter isPlain).map
        fun x => asSecs x.1) sim (events.foldl (processEvent env) sim) := by
  induction events generalizing sim with
  | nil => exact .of_eq rfl (List.append_nil _).symm
  | cons event events ih =>
      have hboth := (processEvent_logs env event sim).trans
        (ih (processEvent env sim event))
      rw [List.map_cons, List.foldl_cons]
      by_cases hplain : isPlain event.entry
      · rw [if_pos hplain] at hboth
        rw [List.filter_cons_of_pos hplain]
        exact hboth
      · rw [if_neg hplain] at hboth
        rw [List.filter_cons_of_neg hplain]
        exact hboth

theorem noteOverruns_logs (tickEnd : Nat) (sim : Simulator π ψ σ ρ κ) :
    Logs [] sim (noteOverruns env tickEnd sim) := by
  unfold noteOverruns
  dsimp only
  split
  next => exact .of_eq rfl (firings_concat sim.trajectory _)
  next => exact .of_eq rfl (List.append_nil _).symm

/-- The clock advances unless the physics step fails. -/
theorem finishTick_frame (tickEnd : Nat) (sim : Simulator π ψ σ ρ κ) :
    (finishTick env tickEnd sim).1.clock.plain = sim.clock.plain
      ∧ (finishTick env tickEnd sim).1.trajectory.firings
        = sim.trajectory.firings
      ∧ (finishTick env tickEnd sim).1.clock.now
        = (if (finishTick env tickEnd sim).2.isOk then
            sim.clock.now + env.tickDt else sim.clock.now) := by
  unfold finishTick
  split
  next => exact ⟨rfl, rfl, rfl⟩
  next =>
    refine ⟨rfl, ?_, rfl⟩
    exact (firings_concat sim.trajectory _).trans (List.append_nil _)

/-! ## §4. One tick. -/

/-- **A tick fires what is due by its end.** -/
theorem tick_fires (sim : Simulator π ψ σ ρ κ) :
    (tick env sim).fires
      = dueBy (sim.clock.now + env.tickDt) sim.clock.agenda :=
  (sim.clock.agenda_drainUntil (sim.clock.now + env.tickDt)).1

theorem tick_fires_plain (sim : Simulator π ψ σ ρ κ) :
    (tick env sim).fires.filter isPlain
      = dueBy (sim.clock.now + env.tickDt) sim.clock.plain := by
  rw [tick_fires]
  exact (dueBy_filter _ _ _).symm

theorem tick_fires_observations (sim : Simulator π ψ σ ρ κ) :
    (tick env sim).fires.filter (fun x => x.2.isObservation)
      = dueBy (sim.clock.now + env.tickDt) sim.clock.observations := by
  rw [tick_fires]
  exact (dueBy_filter _ _ _).symm

/-- What a tick fires comes in the order of time. -/
theorem tick_fires_sorted (sim : Simulator π ψ σ ρ κ) :
    Agenda.Sorted Prod.fst (tick env sim).fires := by
  rw [tick_fires]
  exact sim.clock.agenda_sorted.filter _

/-- A drain leaves what is due later, of either kind. -/
theorem drained (sim : Simulator π ψ σ ρ κ) (t : Nat) :
    (sim.clock.drainUntil t).2.plain = dueAfter t sim.clock.plain
      ∧ (sim.clock.drainUntil t).2.observations
        = dueAfter t sim.clock.observations := by
  unfold VirtualClock.plain VirtualClock.observations
  rw [(sim.clock.agenda_drainUntil t).2]
  exact ⟨(dueAfter_filter _ _ _).symm, (dueAfter_filter _ _ _).symm⟩

/-- **The plain events after a tick**, its records, and the time. -/
theorem tick_plain (sim : Simulator π ψ σ ρ κ) :
    (tick env sim).sim.clock.plain
        = dueAfter (sim.clock.now + env.tickDt) sim.clock.plain
      ∧ (tick env sim).sim.trajectory.firings
        = sim.trajectory.firings
          ++ (dueBy (sim.clock.now + env.tickDt) sim.clock.plain).map
            (fun x => asSecs x.1)
      ∧ (tick env sim).sim.clock.now
        = if (tick env sim).result.isOk then sim.clock.now + env.tickDt
          else sim.clock.now := by
  have hprocess := processEvents_logs env
    (sim.clock.drainUntil (sim.clock.now + env.tickDt)).1
    { sim with
      clock := (sim.clock.drainUntil (sim.clock.now + env.tickDt)).2 }
  have hlogs := hprocess.trans
    (noteOverruns_logs env (sim.clock.now + env.tickDt) _)
  obtain ⟨hplain, hfirings, hnow⟩ := finishTick_frame env
    (sim.clock.now + env.tickDt) (noteOverruns env
      (sim.clock.now + env.tickDt)
      ((sim.clock.drainUntil (sim.clock.now + env.tickDt)).1.foldl
        (processEvent env) { sim with
          clock := (sim.clock.drainUntil (sim.clock.now + env.tickDt)).2 }))
  have hdue := tick_fires_plain env sim
  refine ⟨?_, ?_, ?_⟩
  · exact hplain.trans (hlogs.plain.trans (sim.drained _).1)
  · refine hfirings.trans (hlogs.firings.trans ?_)
    rw [List.append_nil]
    exact congrArg (fun xs => sim.trajectory.firings ++ List.map _ xs) hdue
  · rw [hlogs.now] at hnow
    exact hnow

/-- Two simulators with the same core and the same plain events, as far as
`p` tells. -/
structure Synced (p : Nat × EventKind → Bool) (a b : Simulator π ψ σ ρ κ) :
    Prop where
  core : a.core = b.core
  plain : a.clock.plain.filter p = b.clock.plain.filter p

/-- **Synchronized simulators tick alike**, if they agree on what is due. -/
theorem tick_synced {p : Nat × EventKind → Bool} {a b : Simulator π ψ σ ρ κ}
    (h : Synced p a b)
    (hp : ∀ x : Nat × EventKind, x.1 ≤ a.clock.now + env.tickDt → p x) :
    Synced p (tick env a).sim (tick env b).sim
      ∧ (tick env a).result = (tick env b).result
      ∧ Alike (tick env a).fires (tick env b).fires := by
  have hnow : a.clock.now = b.clock.now := congrArg Core.now h.core
  have hobs : a.clock.observations = b.clock.observations :=
    congrArg Core.observations h.core
  have hdue : dueBy (a.clock.now + env.tickDt) a.clock.plain
      = dueBy (a.clock.now + env.tickDt) b.clock.plain := by
    have hcut : ∀ xs : List (Nat × EventKind),
        dueBy (a.clock.now + env.tickDt) (xs.filter p)
          = dueBy (a.clock.now + env.tickDt) xs := by
      intro xs
      unfold dueBy
      rw [List.filter_filter]
      refine List.filter_congr fun x _ => ?_
      by_cases hx : x.1 ≤ a.clock.now + env.tickDt
      · simp [hx, hp x hx]
      · simp [hx]
    rw [← hcut, h.plain, hcut]
  -- the drained events, as the core sees them
  have hseen : (a.clock.drainUntil (a.clock.now + env.tickDt)).1.filterMap seen
      = (b.clock.drainUntil (b.clock.now + env.tickDt)).1.filterMap seen := by
    have ha := tick_fires_plain env a
    have hb := tick_fires_plain env b
    rw [filterMap_seen, filterMap_seen]
    refine ha.trans (hdue.trans ?_)
    rw [hnow]
    exact hb.symm
  have hdrain : ({ a with
        clock := (a.clock.drainUntil (a.clock.now + env.tickDt)).2 }
          : Simulator π ψ σ ρ κ).core
      = ({ b with
        clock := (b.clock.drainUntil (b.clock.now + env.tickDt)).2 }
          : Simulator π ψ σ ρ κ).core := by
    have hset : ∀ (sim : Simulator π ψ σ ρ κ) (t : Nat),
        ({ sim with clock := (sim.clock.drainUntil t).2 }
          : Simulator π ψ σ ρ κ).core
        = { sim.core with
            observations := dueAfter t sim.core.observations } := by
      intro sim t
      show { sim.core with
        observations := (sim.clock.drainUntil t).2.observations } = _
      rw [(sim.drained t).2]
      rfl
    rw [hset, hset, h.core, hnow]
  have hfinish := finishTick_core env (a.clock.now + env.tickDt)
    (noteOverruns_core env (a.clock.now + env.tickDt)
      (processEvents_core env hseen hdrain))
  refine ⟨⟨?_, ?_⟩, ?_, ?_⟩
  · exact hfinish.1.trans (by rw [hnow]; rfl)
  · rw [(tick_plain env a).1, (tick_plain env b).1, ← hnow]
    rw [← dueAfter_filter, h.plain, dueAfter_filter]
  · exact hfinish.2.trans (by rw [hnow]; rfl)
  · refine alike_of_kinds (tick_fires_sorted env a) (tick_fires_sorted env b)
      ?_ ?_
    · rw [tick_fires_plain, tick_fires_plain, hdue, hnow]
    · rw [tick_fires_observations, tick_fires_observations, hobs, hnow]

end Simulator

end ArgusManager
