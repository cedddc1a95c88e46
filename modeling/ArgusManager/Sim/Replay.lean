/-
  ArgusManager.Sim.Replay
  ───────────────────────
  **The trajectory explains the run.**

  The simulator keeps its engine, its queue and its deduplicator apart from
  the record it writes.  Over any sequence of calls, failed ticks included:

    • the engine in hand, and the one in each snapshot, is what the directives
      recorded before it make of the engine at the start,
    • a directive is recorded right before the signal that triggered it, and
      not with the commands of the one before within the cooldown; an
      observation is of a recorded directive (`log_explains_run`),
    • each compression that a recorded directive asks for is observed once,
      or its observation is still in the queue
      (`observations_conserved`).
-/
import ArgusManager.Sim.Transitions

namespace ArgusManager

/-! ## §1. What a trajectory says. -/

namespace TrajectoryEntry

variable {ψ : Type}

/-- The commands of a directive, and when it was applied. -/
def applied? : TrajectoryEntry ψ → Option (ℚ × List EngineCommand)
  | .directive atS _ dir => some (atS, dir.commands)
  | _ => none

def isObservationDue : TrajectoryEntry ψ → Bool
  | .observationDue _ _ _ => true
  | _ => false

/-- Neither a snapshot nor a directive nor an observation. -/
def isNote : TrajectoryEntry ψ → Bool
  | .stateSnapshot _ _ _ => false
  | .directive _ _ _ => false
  | .observationDue _ _ _ => false
  | _ => true

theorem applied?_note {entry : TrajectoryEntry ψ} (h : entry.isNote = true) :
    entry.applied? = none := by
  cases entry with
  | directive atS trigger dir => exact absurd h Bool.false_ne_true
  | _ => rfl

theorem isObservationDue_note {entry : TrajectoryEntry ψ}
    (h : entry.isNote = true) : entry.isObservationDue = false := by
  cases entry with
  | observationDue atS action recordedAtS =>
      exact absurd h Bool.false_ne_true
  | _ => rfl

end TrajectoryEntry

namespace Trajectory

variable {ψ : Type}

/-- The directives, in order. -/
def appliedBatches (t : Trajectory ψ) : List (ℚ × List EngineCommand) :=
  t.filterMap TrajectoryEntry.applied?

/-- Their commands. -/
def appliedCommands (t : Trajectory ψ) : List EngineCommand :=
  t.appliedBatches.flatMap Prod.snd

/-- The actions among them that are observed. -/
def observable (t : Trajectory ψ) : List String :=
  t.appliedCommands.filterMap observableActionName

/-- `observation_due_count`. -/
def observationDueCount (t : Trajectory ψ) : Nat :=
  t.countP TrajectoryEntry.isObservationDue

theorem appliedBatches_append (s t : Trajectory ψ) :
    appliedBatches (s ++ t) = s.appliedBatches ++ t.appliedBatches :=
  List.filterMap_append

theorem appliedCommands_append (s t : Trajectory ψ) :
    appliedCommands (s ++ t) = s.appliedCommands ++ t.appliedCommands := by
  unfold appliedCommands
  rw [appliedBatches_append, List.flatMap_append]

theorem observationDueCount_append (s t : Trajectory ψ) :
    observationDueCount (s ++ t)
      = s.observationDueCount + t.observationDueCount :=
  List.countP_append

/-- An entry that is no directive applies nothing. -/
theorem appliedBatches_concat {entry : TrajectoryEntry ψ}
    (h : entry.applied? = none) (t : Trajectory ψ) :
    appliedBatches (t ++ [entry]) = t.appliedBatches := by
  rw [appliedBatches_append]
  unfold appliedBatches
  rw [List.filterMap_cons_none h, List.filterMap_nil, List.append_nil]

/-- Something holds of every entry, with what is before and behind it. -/
def Everywhere
    (Q : Trajectory ψ → TrajectoryEntry ψ → Trajectory ψ → Prop)
    (t : Trajectory ψ) : Prop :=
  ∀ pre entry post, t = pre ++ entry :: post → Q pre entry post

theorem Everywhere.nil
    {Q : Trajectory ψ → TrajectoryEntry ψ → Trajectory ψ → Prop} :
    Everywhere Q ([] : Trajectory ψ) := by
  intro pre entry post h
  exact absurd h.symm (by simp)

/-- What still holds when more comes behind holds of a longer trajectory if it
holds of the new entries. -/
theorem Everywhere.append
    {Q : Trajectory ψ → TrajectoryEntry ψ → Trajectory ψ → Prop}
    {t : Trajectory ψ} (h : t.Everywhere Q) {block : Trajectory ψ}
    (hmore : ∀ pre entry post, Q pre entry post →
      Q pre entry (post ++ block))
    (hblock : ∀ front entry post, block = front ++ entry :: post →
      Q (t ++ front) entry post) :
    Everywhere Q (t ++ block) := by
  intro pre entry post hsplit
  rcases append_split hsplit with ⟨rest, hold, hpost⟩ | ⟨front, hpre, hnew⟩
  · rw [hpost]
    exact hmore _ _ _ (h _ _ _ hold)
  · rw [hpre]
    exact hblock _ _ _ hnew

end Trajectory

/-- The engine that the directives of a trajectory make of another. -/
def EngineStateModel.replay {ψ : Type} (start : EngineStateModel)
    (t : Trajectory ψ) : EngineStateModel :=
  t.appliedCommands.foldl EngineStateModel.applyCommand start

/-! ## §2. Explanations. -/

/-- A recorded directive asks for the action, by the end of the tick that
begins at that time. -/
def Asked {ψ : Type} (tickDt : Nat) (t : Trajectory ψ) (action : String)
    (began : ℚ) : Prop :=
  ∃ batch ∈ t.appliedBatches,
    action ∈ batch.2.filterMap observableActionName
      ∧ batch.1 ≤ began + asSecs tickDt

/-- What was asked for stays asked for. -/
theorem Asked.mono {ψ : Type} {tickDt : Nat} {t u : Trajectory ψ}
    {action : String} {began : ℚ} (h : Asked tickDt t action began)
    (hbatches : t.appliedBatches ⊆ u.appliedBatches) :
    Asked tickDt u action began := by
  obtain ⟨batch, hbatch, hasked⟩ := h
  exact ⟨batch, hbatches hbatch, hasked⟩

/-- How an entry follows from what was recorded before it; a directive also
from the entry behind it. -/
def Explained {ψ : Type} (start : EngineStateModel) (cooldown : ℚ)
    (tickDt : Nat) (pre : Trajectory ψ) :
    TrajectoryEntry ψ → Trajectory ψ → Prop
  | .stateSnapshot _ _ engine, _ => engine = .fromEngine (start.replay pre)
  | .directive atS trigger dir, post =>
      post.head? = some (.signal atS trigger)
        ∧ ∀ last, pre.appliedBatches.getLast? = some last →
          (last.2 == dir.commands) = true → last.1 + cooldown ≤ atS
  | .observationDue atS action recordedAtS, _ =>
      action = "kv.compress" ∧ atS = recordedAtS + 3
        ∧ Asked tickDt pre action recordedAtS
  | _, _ => True

theorem Explained.note {ψ : Type} {start : EngineStateModel} {cooldown : ℚ}
    {tickDt : Nat} {pre post : Trajectory ψ} {entry : TrajectoryEntry ψ}
    (h : entry.isNote = true) :
    Explained start cooldown tickDt pre entry post := by
  cases entry with
  | stateSnapshot atS state engine => exact absurd h Bool.false_ne_true
  | directive atS trigger dir => exact absurd h Bool.false_ne_true
  | observationDue atS action recordedAtS =>
      exact absurd h Bool.false_ne_true
  | _ => exact trivial

theorem Explained.more {ψ : Type} {start : EngineStateModel} {cooldown : ℚ}
    {tickDt : Nat} {pre post : Trajectory ψ} {entry : TrajectoryEntry ψ}
    (h : Explained start cooldown tickDt pre entry post)
    (block : Trajectory ψ) :
    Explained start cooldown tickDt pre entry (post ++ block) := by
  cases entry with
  | directive atS trigger dir =>
      refine ⟨?_, h.2⟩
      rw [List.head?_append, h.1]
      rfl
  | stateSnapshot atS state engine => exact h
  | observationDue atS action recordedAtS => exact h
  | _ => exact trivial

/-- The trajectory explains itself, one entry more. -/
theorem Trajectory.Everywhere.explain {ψ : Type} {start : EngineStateModel}
    {cooldown : ℚ} {tickDt : Nat} {t : Trajectory ψ} {entry : TrajectoryEntry ψ}
    (h : t.Everywhere (Explained start cooldown tickDt))
    (hentry : Explained start cooldown tickDt t entry []) :
    Trajectory.Everywhere (Explained start cooldown tickDt) (t ++ [entry]) := by
  refine h.append (fun _ _ _ hold => hold.more _) ?_
  intro front e post hblock
  cases front with
  | nil =>
      injection hblock with he hpost
      rw [← he, ← hpost, List.append_nil]
      exact hentry
  | cons f front => exact absurd hblock (by simp)

namespace VirtualClock

/-! ## §3. The observations of a directive. -/

theorem observableActionName_eq {cmd : EngineCommand} {action : String}
    (h : observableActionName cmd = some action) : action = "kv.compress" := by
  cases cmd with
  | kvCompress budget => exact (Option.some.inj h).symm
  | _ => exact absurd h (by simp [observableActionName])

theorem scheduleObservation_other {cmd : EngineCommand}
    (h : observableActionName cmd = none) (c : VirtualClock) :
    scheduleObservation c cmd = c := by
  unfold scheduleObservation
  rw [h]

/-- One entry in the queue for each observable command, due 3 s from now. -/
theorem observations_scheduled (cmds : List EngineCommand)
    (c : VirtualClock) :
    (cmds.foldl scheduleObservation c).observations.Perm
      (c.observations ++ (cmds.filterMap observableActionName).map fun action =>
        (c.now + OBSERVATION_DELAY, .observationDue action c.now)) := by
  induction cmds generalizing c with
  | nil =>
      rw [List.filterMap_nil, List.map_nil, List.append_nil]
      exact .refl _
  | cons cmd cmds ih =>
      rw [List.foldl_cons]
      cases hname : observableActionName cmd with
      | none =>
          rw [scheduleObservation_other hname, List.filterMap_cons_none hname]
          exact ih c
      | some action =>
          have hone : scheduleObservation c cmd
              = c.schedule (.observationDue action c.now)
                  (c.now + OBSERVATION_DELAY) := by
            unfold scheduleObservation
            rw [hname]
          have hinsert := Agenda.perm_insert Prod.fst
            (c.now + OBSERVATION_DELAY, EventKind.observationDue action c.now)
            c.observations
          rw [List.filterMap_cons_some hname, List.map_cons, hone]
          refine (ih _).trans ?_
          rw [observations_observation, schedule_now]
          refine (hinsert.append_right _).trans ?_
          exact List.perm_middle.symm

end VirtualClock

namespace Simulator

variable {π ψ σ ρ κ : Type} (env : Scenario π ψ σ ρ κ)

/-! ## §4. One event. -/

/-- The observations that are drained but not processed, and those in the
queue. -/
def owed (todo : List ScheduledEvent) (clock : VirtualClock) :
    List (Nat × EventKind) :=
  ((todo.map ScheduledEvent.entry).filter fun x => x.2.isObservation)
    ++ clock.observations

/-- An observation as `apply_directive` schedules it. -/
def IsObservation (x : Nat × EventKind) : Prop :=
  ∃ recordedAt,
    x = (recordedAt + OBSERVATION_DELAY, .observationDue "kv.compress"
      recordedAt)

/-- An observation that a recorded directive asked for. -/
def Announced (tickDt : Nat) (t : Trajectory ψ) (x : Nat × EventKind) : Prop :=
  ∃ recordedAt,
    x = (recordedAt + OBSERVATION_DELAY, .observationDue "kv.compress"
      recordedAt)
      ∧ Asked tickDt t "kv.compress" (asSecs recordedAt)

theorem Announced.isObservation {tickDt : Nat} {t : Trajectory ψ}
    {x : Nat × EventKind} (h : Announced tickDt t x) : IsObservation x := by
  obtain ⟨recordedAt, hx, _⟩ := h
  exact ⟨recordedAt, hx⟩

theorem Announced.mono {tickDt : Nat} {t u : Trajectory ψ}
    {x : Nat × EventKind} (h : Announced tickDt t x)
    (hbatches : t.appliedBatches ⊆ u.appliedBatches) :
    Announced tickDt u x := by
  obtain ⟨recordedAt, hx, hasked⟩ := h
  exact ⟨recordedAt, hx, hasked.mono hbatches⟩

/-- The trajectory accounts for the engine, the queue and the deduplicator
while the events `todo` of a tick are still to be processed. -/
structure Accounts (start : EngineStateModel) (cooldown : ℚ) (tickDt : Nat)
    (todo : List ScheduledEvent) (sim : Simulator π ψ σ ρ κ) : Prop where
  explained : sim.trajectory.Everywhere (Explained start cooldown tickDt)
  engine : sim.engine = start.replay sim.trajectory
  cooldown : sim.dedup.cooldownSecs = cooldown
  last : sim.trajectory.appliedBatches.getLast?
    = Option.map₂ Prod.mk sim.dedup.lastSentAt sim.dedup.lastCommands
  conserved : sim.trajectory.observationDueCount
      + (owed todo sim.clock).length = sim.trajectory.observable.length
  owed : ∀ x ∈ owed todo sim.clock, Announced tickDt sim.trajectory x

variable {start : EngineStateModel} {cooldown : ℚ} {tickDt : Nat}
  {todo : List ScheduledEvent} {sim sim' : Simulator π ψ σ ρ κ}

/-- Fields that nothing else depends on may change. -/
theorem Accounts.congr (h : Accounts start cooldown tickDt todo sim)
    (htrajectory : sim'.trajectory = sim.trajectory)
    (hengine : sim'.engine = sim.engine) (hdedup : sim'.dedup = sim.dedup)
    (hclock : sim'.clock.observations = sim.clock.observations) :
    Accounts start cooldown tickDt todo sim' := by
  have howed : Simulator.owed todo sim'.clock
      = Simulator.owed todo sim.clock := by
    unfold Simulator.owed
    rw [hclock]
  constructor
  · rw [htrajectory]
    exact h.explained
  · rw [htrajectory, hengine]
    exact h.engine
  · rw [hdedup]
    exact h.cooldown
  · rw [htrajectory, hdedup]
    exact h.last
  · rw [htrajectory, howed]
    exact h.conserved
  · rw [htrajectory, howed]
    exact h.owed

/-- One more entry that applies nothing; whether it is an observation shows in
the count. -/
theorem Accounts.extend {todo' : List ScheduledEvent}
    (h : Accounts start cooldown tickDt todo' sim) {entry : TrajectoryEntry ψ}
    (happlied : entry.applied? = none)
    (hentry : Explained start cooldown tickDt sim.trajectory entry [])
    (hcount : entry.isObservationDue.toNat
        + (Simulator.owed todo sim.clock).length
      = (Simulator.owed todo' sim.clock).length)
    (howed : ∀ x ∈ Simulator.owed todo sim.clock,
      Announced tickDt sim.trajectory x) :
    Accounts start cooldown tickDt todo (sim.record entry) := by
  have hbatches :=
    Trajectory.appliedBatches_concat happlied sim.trajectory
  have hcommands : Trajectory.appliedCommands (sim.trajectory ++ [entry])
      = sim.trajectory.appliedCommands :=
    congrArg (List.flatMap Prod.snd) hbatches
  constructor
  · exact h.explained.explain hentry
  · show sim.engine = start.replay (sim.trajectory ++ [entry])
    unfold EngineStateModel.replay
    rw [hcommands]
    exact h.engine
  · exact h.cooldown
  · exact (congrArg List.getLast? hbatches).trans h.last
  · have hdue : Trajectory.observationDueCount (sim.trajectory ++ [entry])
        = sim.trajectory.observationDueCount
          + entry.isObservationDue.toNat := by
      rw [Trajectory.observationDueCount_append]
      unfold Trajectory.observationDueCount
      rw [List.countP_singleton]
      cases entry.isObservationDue <;> rfl
    have hobservable : Trajectory.observable (sim.trajectory ++ [entry])
        = sim.trajectory.observable :=
      congrArg (List.filterMap observableActionName) hcommands
    show Trajectory.observationDueCount (sim.trajectory ++ [entry]) + _
      = (Trajectory.observable (sim.trajectory ++ [entry])).length
    rw [hdue, hobservable, ← h.conserved, ← hcount, Nat.add_assoc]
    rfl
  · intro x hx
    refine (howed x hx).mono ?_
    show _ ⊆ Trajectory.appliedBatches (sim.trajectory ++ [entry])
    rw [hbatches]
    exact List.Subset.refl _

theorem Accounts.note (h : Accounts start cooldown tickDt todo sim)
    {entry : TrajectoryEntry ψ} (hentry : entry.isNote = true) :
    Accounts start cooldown tickDt todo (sim.record entry) :=
  h.extend (TrajectoryEntry.applied?_note hentry) (.note hentry)
    (by rw [TrajectoryEntry.isObservationDue_note hentry]; exact Nat.zero_add _)
    h.owed

/-- An event that is no observation owes nothing. -/
theorem Accounts.skip {event : ScheduledEvent}
    (h : Accounts start cooldown tickDt (event :: todo) sim)
    (hevent : event.kind.isObservation = false) :
    Accounts start cooldown tickDt todo sim := by
  have howed : Simulator.owed (event :: todo) sim.clock
      = Simulator.owed todo sim.clock := by
    unfold Simulator.owed
    rw [List.map_cons, List.filter_cons_of_neg (by
      show ¬ event.kind.isObservation = true
      rw [hevent]
      exact Bool.false_ne_true)]
  have hconserved := h.conserved
  have hall := h.owed
  rw [howed] at hconserved hall
  exact ⟨h.explained, h.engine, h.cooldown, h.last, hconserved, hall⟩

/-- **An observation that fires is recorded.** -/
theorem Accounts.observe {event : ScheduledEvent} {action : String}
    {recordedAt : Nat} (h : Accounts start cooldown tickDt (event :: todo) sim)
    (hevent : event.kind = .observationDue action recordedAt) :
    Accounts start cooldown tickDt todo (sim.record
      (.observationDue (asSecs event.dueAt) action (asSecs recordedAt))) := by
  have howed : Simulator.owed (event :: todo) sim.clock
      = event.entry :: Simulator.owed todo sim.clock := by
    unfold Simulator.owed
    rw [List.map_cons, List.filter_cons_of_pos (by
      show event.kind.isObservation = true
      rw [hevent]
      rfl)]
    rfl
  have hall := h.owed
  rw [howed] at hall
  obtain ⟨r, hr, hasked⟩ := hall _ List.mem_cons_self
  have hdue : event.dueAt = r + OBSERVATION_DELAY := congrArg Prod.fst hr
  have hkind : EventKind.observationDue action recordedAt
      = .observationDue "kv.compress" r :=
    hevent.symm.trans (congrArg Prod.snd hr)
  injection hkind with haction hrecorded
  rw [← haction, ← hrecorded] at hasked
  refine h.extend rfl ⟨haction, ?_, hasked⟩ ?_ fun x hx =>
    hall x (List.mem_cons_of_mem _ hx)
  · rw [hdue, hrecorded]
    unfold asSecs OBSERVATION_DELAY fromSecs
    rw [Nat.cast_add, add_div]
    norm_num
  · rw [howed]
    exact Nat.add_comm _ _

/-- What asking the policy does: a batch that the deduplicator lets pass is
applied and recorded. -/
theorem consultPolicy_spec (dueAt : Nat) (sig : SystemSignal)
    (sim : Simulator π ψ σ ρ κ) :
    ((consultPolicy env dueAt sig sim).trajectory = sim.trajectory
        ∧ (consultPolicy env dueAt sig sim).engine = sim.engine
        ∧ (consultPolicy env dueAt sig sim).clock = sim.clock
        ∧ (consultPolicy env dueAt sig sim).dedup = sim.dedup)
      ∨ ∃ dir,
        (consultPolicy env dueAt sig sim).trajectory
            = sim.trajectory ++ [.directive (asSecs dueAt) (.fromSignal sig)
                (.fromDirective dir)]
          ∧ (consultPolicy env dueAt sig sim).engine
            = sim.engine.applyDirective dir
          ∧ (consultPolicy env dueAt sig sim).clock
            = dir.commands.foldl scheduleObservation sim.clock
          ∧ (consultPolicy env dueAt sig sim).dedup
            = ⟨some dir.commands, some (asSecs dueAt), sim.dedup.cooldownSecs⟩
          ∧ ∀ last, sim.dedup.lastCommands = some last →
            (last == dir.commands) = true →
            ∃ t, sim.dedup.lastSentAt = some t
              ∧ sim.dedup.cooldownSecs ≤ asSecs dueAt - t := by
  unfold consultPolicy
  dsimp only
  split
  next => exact .inl ⟨rfl, rfl, rfl, rfl⟩
  next policy dir _ =>
    rcases sim.dedup.process_cases dir (asSecs dueAt) with
      ⟨hprocess, _⟩ | ⟨hprocess, hspaced⟩
    · rw [hprocess]
      exact .inl ⟨rfl, rfl, rfl, rfl⟩
    · rw [hprocess]
      exact .inr ⟨dir, rfl, rfl, rfl, rfl, hspaced⟩

/-- **A directive and the signal that triggered it**, recorded together. -/
theorem Accounts.direct (h : Accounts start cooldown tickDt todo sim)
    (dir : EngineDirective) (dueAt : Nat) (sig : SystemSignal)
    (htrajectory : sim'.trajectory
      = sim.trajectory ++ [.directive (asSecs dueAt) (.fromSignal sig)
          (.fromDirective dir), .signal (asSecs dueAt) (.fromSignal sig)])
    (hengine : sim'.engine = sim.engine.applyDirective dir)
    (hclock : sim'.clock = dir.commands.foldl scheduleObservation sim.clock)
    (hdedup : sim'.dedup
      = ⟨some dir.commands, some (asSecs dueAt), sim.dedup.cooldownSecs⟩)
    (hspaced : ∀ last, sim.dedup.lastCommands = some last →
      (last == dir.commands) = true →
      ∃ t, sim.dedup.lastSentAt = some t
        ∧ sim.dedup.cooldownSecs ≤ asSecs dueAt - t)
    (hdue : dueAt ≤ sim.clock.now + tickDt) :
    Accounts start cooldown tickDt todo sim' := by
  have hbatches : sim'.trajectory.appliedBatches
      = sim.trajectory.appliedBatches ++ [(asSecs dueAt, dir.commands)] := by
    rw [htrajectory, Trajectory.appliedBatches_append]
    rfl
  have hcommands : sim'.trajectory.appliedCommands
      = sim.trajectory.appliedCommands ++ dir.commands := by
    unfold Trajectory.appliedCommands
    rw [hbatches, List.flatMap_append]
    exact congrArg _ (List.append_nil _)
  -- the queue grows by what the commands call for
  have hqueue := VirtualClock.observations_scheduled dir.commands sim.clock
  have howed : (Simulator.owed todo sim'.clock).Perm
      (Simulator.owed todo sim.clock
        ++ (dir.commands.filterMap observableActionName).map fun action =>
          (sim.clock.now + OBSERVATION_DELAY,
            .observationDue action sim.clock.now)) := by
    unfold Simulator.owed
    rw [hclock, List.append_assoc]
    exact hqueue.append_left _
  constructor
  · rw [htrajectory]
    refine h.explained.append (fun _ _ _ hold => hold.more _) ?_
    intro front entry post hblock
    cases front with
    | nil =>
        injection hblock with hentry hpost
        rw [← hentry, ← hpost, List.append_nil]
        refine ⟨rfl, fun last hlast heq => ?_⟩
        rw [h.last] at hlast
        obtain ⟨t, cmds, ht, hcmds, hpair⟩ := Option.map₂_eq_some_iff.mp hlast
        rw [← hpair] at heq ⊢
        obtain ⟨t', ht', hlate⟩ := hspaced cmds hcmds heq
        rw [Option.mem_def.mp ht] at ht'
        rw [Option.some.inj ht']
        rw [h.cooldown] at hlate
        show t' + cooldown ≤ asSecs dueAt
        linarith
    | cons first front =>
        injection hblock with _ hrest
        cases front with
        | nil =>
            injection hrest with hentry hpost
            rw [← hentry]
            exact .note rfl
        | cons second front => exact absurd hrest (by simp)
  · unfold EngineStateModel.replay
    rw [hengine, hcommands, List.foldl_append, h.engine]
    rfl
  · rw [hdedup]
    exact h.cooldown
  · rw [hbatches, hdedup, List.getLast?_concat]
    rfl
  · have hcount : sim'.trajectory.observationDueCount
        = sim.trajectory.observationDueCount := by
      rw [htrajectory, Trajectory.observationDueCount_append]
      rfl
    unfold Trajectory.observable
    rw [hcount, howed.length_eq, List.length_append, List.length_map,
      hcommands, List.filterMap_append, List.length_append, ← Nat.add_assoc,
      h.conserved]
    rfl
  · intro x hx
    rcases List.mem_append.mp (howed.mem_iff.mp hx) with hx | hx
    · refine (h.owed x hx).mono ?_
      rw [hbatches]
      exact List.subset_append_left _ _
    · obtain ⟨action, haction, rfl⟩ := List.mem_map.mp hx
      obtain ⟨cmd, _, hname⟩ := List.mem_filterMap.mp haction
      rw [VirtualClock.observableActionName_eq hname] at haction ⊢
      -- the directive itself asked for it
      refine ⟨sim.clock.now, rfl, (asSecs dueAt, dir.commands), ?_, haction, ?_⟩
      · rw [hbatches]
        exact List.mem_append_right _ (List.mem_singleton_self _)
      · rw [← asSecs_add]
        exact asSecs_le.mpr hdue

theorem Accounts.signal (h : Accounts start cooldown env.tickDt todo sim)
    {dueAt : Nat} (hdue : dueAt ≤ sim.clock.now + env.tickDt)
    (kind : EventKind) :
    Accounts start cooldown env.tickDt todo
      (processSignal env dueAt kind sim) := by
  unfold processSignal
  split
  next => exact h.congr rfl rfl rfl rfl
  next rng sig _ =>
    -- the transition, if any
    have hnoted : Accounts start cooldown env.tickDt todo
        (noteLevel env dueAt (.fromSignal sig) { sim with rng }) := by
      unfold noteLevel
      dsimp only
      split
      next =>
        have hnote : TrajectoryEntry.isNote (.levelTransition (asSecs dueAt)
            (SignalDump.fromSignal sig).kind
            (sim.lastSignalLevels (SignalDump.fromSignal sig).kind)
            (SignalDump.fromSignal sig).level
            (env.plant.snapshot sim.state)) = true := rfl
        exact (h.note hnote).congr rfl rfl rfl rfl
      next => exact h.congr rfl rfl rfl rfl
    rcases consultPolicy_spec env dueAt sig
        (noteLevel env dueAt (.fromSignal sig) { sim with rng }) with
      ⟨htrajectory, hengine, hclock, hdedup⟩
        | ⟨dir, htrajectory, hengine, hclock, hdedup, hspaced⟩
    · exact (hnoted.congr htrajectory hengine hdedup
        (congrArg VirtualClock.observations hclock)).note rfl
    · have hnow : (noteLevel env dueAt (.fromSignal sig)
          { sim with rng }).clock.now = sim.clock.now :=
        (noteLevel_logs env dueAt (.fromSignal sig) { sim with rng }).now
      refine hnoted.direct dir dueAt sig ?_ hengine hclock hdedup hspaced
        (by rw [hnow]; exact hdue)
      show (consultPolicy env dueAt sig _).trajectory ++ _ = _
      rw [htrajectory, List.append_assoc]
      rfl

/-- **Every event keeps the accounts**, its own entry taken off what is
owed. -/
theorem Accounts.event {event : ScheduledEvent}
    (h : Accounts start cooldown env.tickDt (event :: todo) sim)
    (hdue : event.dueAt ≤ sim.clock.now + env.tickDt) :
    Accounts start cooldown env.tickDt todo (processEvent env sim event) := by
  unfold processEvent
  cases hkind : event.kind with
  | heartbeat =>
      have hnote : TrajectoryEntry.isNote (ψ := ψ) (.heartbeat
          (asSecs event.dueAt) (.fromMsg (env.plant.deriveHeartbeat sim.state
            sim.engine sim.rng).2)) = true := rfl
      exact ((h.skip (by rw [hkind]; rfl)).note hnote).congr rfl rfl rfl rfl
  | signalMemory => exact (h.skip (by rw [hkind]; rfl)).signal env hdue _
  | signalCompute => exact (h.skip (by rw [hkind]; rfl)).signal env hdue _
  | signalThermal => exact (h.skip (by rw [hkind]; rfl)).signal env hdue _
  | signalEnergy => exact (h.skip (by rw [hkind]; rfl)).signal env hdue _
  | observationDue action recordedAt => exact h.observe hkind
  | externalInjectionStart idx => exact (h.skip (by rw [hkind]; rfl)).note rfl
  | externalInjectionEnd idx => exact (h.skip (by rw [hkind]; rfl)).note rfl
  | custom name => exact (h.skip (by rw [hkind]; rfl)).note rfl

theorem Accounts.events {events : List ScheduledEvent}
    (h : Accounts start cooldown env.tickDt events sim)
    (hdue : ∀ event ∈ events, event.dueAt ≤ sim.clock.now + env.tickDt) :
    Accounts start cooldown env.tickDt []
      (events.foldl (processEvent env) sim) := by
  induction events generalizing sim with
  | nil => exact h
  | cons event events ih =>
      have hnow := (processEvent_logs env event sim).now
      refine ih (h.event env (hdue event List.mem_cons_self)) fun e he => ?_
      rw [hnow]
      exact hdue e (List.mem_cons_of_mem _ he)

/-! ## §5. Ticks and calls. -/

/-- A drain moves what is due from the queue to what is to be processed. -/
theorem Accounts.drain (h : Accounts start cooldown env.tickDt [] sim)
    (target : Nat) :
    Accounts start cooldown env.tickDt (sim.clock.drainUntil target).1
      { sim with clock := (sim.clock.drainUntil target).2 } := by
  have hsame : (Simulator.owed (sim.clock.drainUntil target).1
      (sim.clock.drainUntil target).2).Perm (Simulator.owed [] sim.clock) := by
    unfold Simulator.owed
    rw [(sim.clock.agenda_drainUntil target).1, (sim.drained target).2]
    have hdue : ((sim.clock.agenda.filter fun x => decide (x.1 ≤ target)).filter
        fun x => x.2.isObservation) = dueBy target sim.clock.observations :=
      (dueBy_filter target _ sim.clock.agenda).symm
    rw [hdue]
    exact perm_due target sim.clock.observations
  refine ⟨h.explained, h.engine, h.cooldown, h.last, ?_, ?_⟩
  · rw [hsame.length_eq]
    exact h.conserved
  · exact fun x hx => h.owed x (hsame.mem_iff.mp hx)

theorem Accounts.overruns (h : Accounts start cooldown env.tickDt todo sim)
    (tickEnd : Nat) :
    Accounts start cooldown env.tickDt todo (noteOverruns env tickEnd sim) := by
  unfold noteOverruns
  dsimp only
  split
  next =>
    refine Accounts.note ?_ rfl
    exact h.congr rfl rfl rfl rfl
  next => exact h.congr rfl rfl rfl rfl

/-- The snapshot at the end of a tick is of the engine in hand. -/
theorem Accounts.finish (h : Accounts start cooldown env.tickDt [] sim)
    (tickEnd : Nat) :
    Accounts start cooldown env.tickDt [] (finishTick env tickEnd sim).1 := by
  unfold finishTick
  split
  next => exact h.congr rfl rfl rfl rfl
  next state ctx _ =>
    have happlied : TrajectoryEntry.applied? (.stateSnapshot (asSecs tickEnd)
        (env.plant.snapshot state) (.fromEngine sim.engine)) = none := rfl
    refine Accounts.congr (h.extend happlied ?_ (Nat.zero_add _) h.owed) rfl rfl
      rfl rfl
    exact congrArg EngineStateSnapshot.fromEngine h.engine

/-- **A tick keeps the accounts**, whether or not it fails. -/
theorem Accounts.tick (h : Accounts start cooldown env.tickDt [] sim) :
    Accounts start cooldown env.tickDt [] (tick env sim).sim := by
  have hdue : ∀ event ∈ (sim.clock.drainUntil (sim.clock.now + env.tickDt)).1,
      event.dueAt ≤ sim.clock.now + env.tickDt := by
    intro event hevent
    have hmem := List.mem_map_of_mem (f := ScheduledEvent.entry) hevent
    rw [(sim.clock.agenda_drainUntil _).1] at hmem
    exact of_decide_eq_true (List.mem_filter.mp hmem).2
  exact (((h.drain env (sim.clock.now + env.tickDt)).events env hdue).overruns
    env _).finish env _

theorem Accounts.ticks (n : Nat)
    (h : Accounts start cooldown env.tickDt [] sim) :
    Accounts start cooldown env.tickDt [] (ticks env n sim).sim := by
  induction n generalizing sim with
  | zero => exact h
  | succ n ih =>
      rw [ticks_succ]
      cases hresult : (Simulator.tick env sim).result with
      | error e =>
          rw [andThen_error hresult]
          exact h.tick env
      | ok u =>
          rw [andThen_ok hresult]
          exact ih (h.tick env)

theorem Accounts.call (h : Accounts start cooldown env.tickDt [] sim)
    (c : SimCall π ψ σ ρ κ) :
    Accounts start cooldown env.tickDt [] (call env sim c).sim := by
  obtain ⟨n, hsim, _⟩ := call_ticks env sim c
  rw [hsim]
  refine Accounts.ticks env n (h.congr rfl rfl rfl ?_)
  exact congrArg Core.observations (preload_core env _ sim)

theorem accounts_fresh (state : π) (engine : EngineStateModel) (policy : σ)
    (rng : ρ) (ctx : κ) (cooldown : ℚ) :
    Accounts engine cooldown env.tickDt []
      (fresh state engine policy rng ctx cooldown :
      Simulator π ψ σ ρ κ) where
  explained := .nil
  engine := rfl
  cooldown := rfl
  last := rfl
  conserved := rfl
  owed _ hx := absurd hx List.not_mem_nil

theorem accounts_run (state : π) (engine : EngineStateModel) (policy : σ)
    (rng : ρ) (ctx : κ) (cooldown : ℚ) (calls : List (SimCall π ψ σ ρ κ)) :
    Accounts engine cooldown env.tickDt [] ((machine env).exec
      (fresh state engine policy rng ctx cooldown) calls) :=
  Mealy.exec_invariant (A := fun _ => True)
    (accounts_fresh env state engine policy rng ctx cooldown)
    (fun _ c _ h => Accounts.call env h c) fun _ _ => trivial

/-- **The trajectory explains the run**, over any calls: the engine is what the
recorded directives make of the one at the start, every snapshot what those
before it make; a directive stands right before the signal that triggered it,
and repeats the commands of the one before only after the cooldown; and an
observation is recorded 3 s after the time that it names, and a directive of
one tick later at most asks for it. -/
theorem log_explains_run (state : π) (engine : EngineStateModel) (policy : σ)
    (rng : ρ) (ctx : κ) (cooldown : ℚ) (calls : List (SimCall π ψ σ ρ κ)) :
    let sim := (machine env).exec
      (fresh state engine policy rng ctx cooldown) calls
    sim.trajectory.Everywhere (Explained engine cooldown env.tickDt)
      ∧ sim.engine = engine.replay sim.trajectory := by
  intro sim
  have hall : Accounts engine cooldown env.tickDt [] sim :=
    accounts_run env state engine policy rng ctx cooldown calls
  exact ⟨hall.explained, hall.engine⟩

/-- **No observation is lost or made up**, over any calls: those recorded and
those in the queue are as many as the compressions that the recorded
directives ask for, and each in the queue is due 3 s after it was
scheduled. -/
theorem observations_conserved (state : π) (engine : EngineStateModel)
    (policy : σ) (rng : ρ) (ctx : κ) (cooldown : ℚ)
    (calls : List (SimCall π ψ σ ρ κ)) :
    let sim := (machine env).exec
      (fresh state engine policy rng ctx cooldown) calls
    sim.trajectory.observationDueCount + sim.clock.observations.length
        = sim.trajectory.observable.length
      ∧ ∀ x ∈ sim.clock.observations, IsObservation x := by
  intro sim
  have hall : Accounts engine cooldown env.tickDt [] sim :=
    accounts_run env state engine policy rng ctx cooldown calls
  exact ⟨hall.conserved, fun x hx => (hall.owed x hx).isObservation⟩

end Simulator

end ArgusManager
