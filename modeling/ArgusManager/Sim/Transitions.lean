/-
  ArgusManager.Sim.Transitions
  ────────────────────────────
  **The level transitions of each kind of signal form a chain.**

  A tick looks a signal's level up in `last_signal_levels`, records a
  transition when it differs, hands the signal to the policy, which may record
  a directive, and records the signal last.  Four kinds of signals interleave,
  and the map is written apart from the trajectory; what ties the two is that
  the map holds, of every kind, the level of its last recorded signal.

  So a trajectory grows by entries of other sorts and by blocks

      [transition]?  directive*  signal

  whose transition is there exactly if the level is new to the kind
  (`Noted`), and everything else is read off that grammar: the transitions of
  a kind are the changes of its levels (`levelChanges_eq`), and each stands
  where it should (`change_before_signal`, `signal_after_change`).
-/
import ArgusManager.Lib.Changes
import ArgusManager.Sim.Instants

namespace ArgusManager

open Changes

/-! ## §1. What an entry says about levels. -/

namespace TrajectoryEntry

variable {ψ : Type}

/-- The level of a signal of this kind. -/
def level? (kind : String) : TrajectoryEntry ψ → Option String
  | .signal _ dump => if dump.kind = kind then some dump.level else none
  | _ => none

/-- The levels of a transition of this kind. -/
def change? (kind : String) :
    TrajectoryEntry ψ → Option (Option String × String)
  | .levelTransition _ signalKind fromLevel toLevel _ =>
      if signalKind = kind then some (fromLevel, toLevel) else none
  | _ => none

def isDirective : TrajectoryEntry ψ → Bool
  | .directive _ _ _ => true
  | _ => false

/-- Neither a signal nor a transition. -/
def isPlain : TrajectoryEntry ψ → Bool
  | .signal _ _ => false
  | .levelTransition _ _ _ _ _ => false
  | _ => true

theorem isPlain_of_isDirective {entry : TrajectoryEntry ψ}
    (h : entry.isDirective = true) : entry.isPlain = true := by
  cases entry with
  | directive atS trigger dir => rfl
  | _ => exact absurd h Bool.false_ne_true

theorem level?_plain {entry : TrajectoryEntry ψ} (h : entry.isPlain = true)
    (kind : String) : entry.level? kind = none := by
  cases entry with
  | signal atS dump => exact absurd h Bool.false_ne_true
  | _ => rfl

theorem change?_plain {entry : TrajectoryEntry ψ} (h : entry.isPlain = true)
    (kind : String) : entry.change? kind = none := by
  cases entry with
  | levelTransition atS signalKind fromLevel toLevel state =>
      exact absurd h Bool.false_ne_true
  | _ => rfl

end TrajectoryEntry

namespace Trajectory

variable {ψ : Type}

/-- The levels of the signals of a kind, in order. -/
def levels (kind : String) (t : Trajectory ψ) : List String :=
  t.filterMap (TrajectoryEntry.level? kind)

/-- The level of the last signal of a kind. -/
def lastLevel (kind : String) (t : Trajectory ψ) : Option String :=
  (t.levels kind).getLast?

/-- The transitions of a kind, in order. -/
def levelChanges (kind : String) (t : Trajectory ψ) :
    List (Option String × String) :=
  t.filterMap (TrajectoryEntry.change? kind)

theorem levels_append (kind : String) (s t : Trajectory ψ) :
    levels kind (s ++ t) = s.levels kind ++ t.levels kind :=
  List.filterMap_append

theorem levelChanges_append (kind : String) (s t : Trajectory ψ) :
    levelChanges kind (s ++ t) = s.levelChanges kind ++ t.levelChanges kind :=
  List.filterMap_append

theorem levels_plain {t : Trajectory ψ}
    (h : ∀ entry ∈ t, entry.isPlain = true) (kind : String) :
    t.levels kind = [] :=
  List.filterMap_eq_nil_iff.mpr fun entry hentry =>
    TrajectoryEntry.level?_plain (h entry hentry) kind

theorem levelChanges_plain {t : Trajectory ψ}
    (h : ∀ entry ∈ t, entry.isPlain = true) (kind : String) :
    t.levelChanges kind = [] :=
  List.filterMap_eq_nil_iff.mpr fun entry hentry =>
    TrajectoryEntry.change?_plain (h entry hentry) kind

theorem levels_directives {t : Trajectory ψ}
    (h : ∀ entry ∈ t, entry.isDirective = true) (kind : String) :
    t.levels kind = [] :=
  levels_plain (fun entry hentry =>
    TrajectoryEntry.isPlain_of_isDirective (h entry hentry)) kind

theorem levelChanges_directives {t : Trajectory ψ}
    (h : ∀ entry ∈ t, entry.isDirective = true) (kind : String) :
    t.levelChanges kind = [] :=
  levelChanges_plain (fun entry hentry =>
    TrajectoryEntry.isPlain_of_isDirective (h entry hentry)) kind

/-! ## §2. The grammar. -/

/-- The transition that a signal after `t` calls for, if it does. -/
def announce (t : Trajectory ψ) (atS : ℚ) (dump : SignalDump) (state : ψ) :
    Trajectory ψ :=
  if t.lastLevel dump.kind = some dump.level then []
  else [.levelTransition atS dump.kind (t.lastLevel dump.kind) dump.level state]

/-- **A trajectory of plain entries and of announced signals.** -/
inductive Noted : Trajectory ψ → Prop
  | nil : Noted []
  | plain {t : Trajectory ψ} {entry : TrajectoryEntry ψ} (h : Noted t)
      (hentry : entry.isPlain = true) : Noted (t ++ [entry])
  | signal {t : Trajectory ψ} {dirs : Trajectory ψ} (h : Noted t)
      (hdirs : ∀ entry ∈ dirs, entry.isDirective = true) (atS : ℚ)
      (dump : SignalDump) (state : ψ) :
      Noted (t ++ (t.announce atS dump state ++ dirs ++ [.signal atS dump]))

theorem levels_signal (kind : String) (atS : ℚ) (dump : SignalDump) :
    levels kind ([.signal atS dump] : Trajectory ψ)
      = if dump.kind = kind then [dump.level] else [] := by
  by_cases hkind : dump.kind = kind
  · rw [if_pos hkind]
    exact List.filterMap_cons_some (if_pos hkind)
  · rw [if_neg hkind]
    exact List.filterMap_cons_none (if_neg hkind)

theorem levels_announce (kind : String) (t : Trajectory ψ) (atS : ℚ)
    (dump : SignalDump) (state : ψ) :
    levels kind (t.announce atS dump state) = [] := by
  unfold announce
  split
  next => rfl
  next => rfl

theorem levelChanges_announce (kind : String) (t : Trajectory ψ) (atS : ℚ)
    (dump : SignalDump) (state : ψ) :
    levelChanges kind (t.announce atS dump state)
      = if dump.kind = kind then
          if t.lastLevel kind = some dump.level then []
          else [(t.lastLevel kind, dump.level)]
        else [] := by
  unfold announce
  by_cases hkind : dump.kind = kind
  · rw [if_pos hkind, hkind]
    split
    next => rfl
    next => exact List.filterMap_cons_some (if_pos rfl)
  · rw [if_neg hkind]
    split
    next => rfl
    next => exact List.filterMap_cons_none (if_neg hkind)

/-- What a block adds to the levels is its signal's. -/
theorem levels_block {t dirs : Trajectory ψ}
    (hdirs : ∀ entry ∈ dirs, entry.isDirective = true) (atS : ℚ)
    (dump : SignalDump) (state : ψ) (kind : String) :
    levels kind (t.announce atS dump state ++ dirs ++ [.signal atS dump])
      = if dump.kind = kind then [dump.level] else [] := by
  rw [levels_append, levels_append, levels_announce, levels_directives hdirs,
    levels_signal]
  rfl

/-- And what it adds to the transitions is the change that it makes. -/
theorem levelChanges_block {t dirs : Trajectory ψ}
    (hdirs : ∀ entry ∈ dirs, entry.isDirective = true) (atS : ℚ)
    (dump : SignalDump) (state : ψ) (kind : String) :
    levelChanges kind
        (t.announce atS dump state ++ dirs ++ [.signal atS dump])
      = if dump.kind = kind then
          if t.lastLevel kind = some dump.level then []
          else [(t.lastLevel kind, dump.level)]
        else [] := by
  rw [levelChanges_append, levelChanges_append, levelChanges_directives hdirs,
    List.append_nil, levelChanges_announce]
  exact List.append_nil _

/-- **The transitions of a kind are the changes of its levels.** -/
theorem Noted.levelChanges_eq {t : Trajectory ψ} (h : t.Noted)
    (kind : String) : t.levelChanges kind = changes none (t.levels kind) := by
  induction h with
  | nil => rfl
  | @plain t entry h hentry ih =>
      have hplain : ∀ e ∈ [entry], e.isPlain = true := by
        intro e he
        exact List.mem_singleton.mp he ▸ hentry
      rw [levelChanges_append, levels_append, levelChanges_plain hplain,
        levels_plain hplain, List.append_nil, List.append_nil]
      exact ih
  | @signal t dirs h hdirs atS dump state ih =>
      rw [levelChanges_append, levels_append, levelChanges_block hdirs,
        levels_block hdirs]
      by_cases hkind : dump.kind = kind
      · -- the last level in the trajectory is what the transition is from
        rw [if_pos hkind, if_pos hkind, changes_concat, ih]
        rfl
      · rw [if_neg hkind, if_neg hkind, List.append_nil, List.append_nil]
        exact ih

/-! ## §3. Where the transitions stand. -/

/-- An entry of a trajectory that a block was added to is one of the
trajectory or one of the block. -/
theorem append_split {t block pre post : Trajectory ψ}
    {entry : TrajectoryEntry ψ} (h : t ++ block = pre ++ entry :: post) :
    (∃ rest, t = pre ++ entry :: rest ∧ post = rest ++ block)
      ∨ ∃ front, pre = t ++ front ∧ block = front ++ entry :: post := by
  rcases List.append_eq_append_iff.mp h with
    ⟨front, hpre, hblock⟩ | ⟨back, ht, hback⟩
  · exact .inr ⟨front, hpre, hblock⟩
  · cases back with
    | nil =>
        -- the entry is the first of the block
        rw [List.append_nil] at ht
        refine .inr ⟨[], ?_, hback.symm⟩
        rw [ht, List.append_nil]
    | cons e rest =>
        injection hback with he hpost
        subst he
        exact .inl ⟨rest, ht, hpost⟩

theorem mem_of_split {block front post : Trajectory ψ}
    {entry : TrajectoryEntry ψ} (h : block = front ++ entry :: post) :
    entry ∈ block := by
  rw [h]
  exact List.mem_append_right _ List.mem_cons_self

/-- It goes on with directives, then a signal of that kind and level. -/
def LeadsTo (atS : ℚ) (kind level : String) (t : Trajectory ψ) : Prop :=
  ∃ dirs dump rest, t = dirs ++ .signal atS dump :: rest
    ∧ (∀ entry ∈ dirs, entry.isDirective = true)
    ∧ dump.kind = kind ∧ dump.level = level

theorem LeadsTo.append {atS : ℚ} {kind level : String} {t : Trajectory ψ}
    (h : t.LeadsTo atS kind level) (u : Trajectory ψ) :
    LeadsTo atS kind level (t ++ u) := by
  obtain ⟨dirs, dump, rest, rfl, hdirs, hdump⟩ := h
  exact ⟨dirs, dump, rest ++ u, List.append_assoc _ _ _, hdirs, hdump⟩

/-- It ends with a transition of that kind, then directives. -/
def LedBy (atS : ℚ) (kind : String) (fromLevel : Option String)
    (toLevel : String) (t : Trajectory ψ) : Prop :=
  ∃ front state dirs,
    t = front ++ .levelTransition atS kind fromLevel toLevel state :: dirs
    ∧ ∀ entry ∈ dirs, entry.isDirective = true

/-- Directives and a signal hold no transition. -/
theorem not_change_of_tail {dirs front post : Trajectory ψ}
    {entry : TrajectoryEntry ψ}
    (hdirs : ∀ entry ∈ dirs, entry.isDirective = true) {atS : ℚ}
    {dump : SignalDump}
    (h : dirs ++ [.signal atS dump] = front ++ entry :: post)
    (kind : String) : entry.change? kind = none := by
  rcases List.mem_append.mp (mem_of_split h) with hmem | hmem
  · exact TrajectoryEntry.change?_plain
      (TrajectoryEntry.isPlain_of_isDirective (hdirs entry hmem)) kind
  · rw [List.mem_singleton.mp hmem]
    rfl

/-- **A transition stands right before a signal of its kind and level**, up to
directives, and goes from the level of the signal of its kind before. -/
theorem Noted.change_before_signal {t : Trajectory ψ} (h : t.Noted) :
    ∀ {pre post : Trajectory ψ} {atS : ℚ} {kind : String}
      {fromLevel : Option String} {toLevel : String} {state : ψ},
      t = pre ++ .levelTransition atS kind fromLevel toLevel state :: post →
      post.LeadsTo atS kind toLevel ∧ pre.lastLevel kind = fromLevel
        ∧ fromLevel ≠ some toLevel := by
  induction h with
  | nil =>
      intro pre post atS kind fromLevel toLevel state ht
      exact absurd ht.symm (by simp)
  | @plain t entry h hentry ih =>
      intro pre post atS kind fromLevel toLevel state ht
      rcases append_split ht with ⟨rest, hold, hpost⟩ | ⟨front, _, hnew⟩
      · obtain ⟨hleads, hfrom⟩ := ih hold
        exact ⟨hpost ▸ hleads.append _, hfrom⟩
      · rw [← List.mem_singleton.mp (mem_of_split hnew)] at hentry
        exact absurd hentry Bool.false_ne_true
  | @signal t dirs h hdirs atS' dump state' ih =>
      intro pre post atS kind fromLevel toLevel state ht
      rcases append_split ht with ⟨rest, hold, hpost⟩ | ⟨front, hpre, hnew⟩
      · obtain ⟨hleads, hfrom⟩ := ih hold
        exact ⟨hpost ▸ hleads.append _, hfrom⟩
      · rw [List.append_assoc] at hnew
        -- no transition stands behind the first place of a block
        have hnone : ∀ {front : Trajectory ψ},
            dirs ++ [.signal atS' dump] ≠ front
              ++ .levelTransition atS kind fromLevel toLevel state :: post := by
          intro front htail
          have hchange := not_change_of_tail hdirs htail kind
          exact absurd ((if_pos rfl).symm.trans hchange) nofun
        unfold announce at hnew
        split at hnew
        next => exact absurd hnew hnone
        next hlevel =>
          cases front with
          | nil =>
              -- the transition of this block
              injection hnew with hentry hpost
              injection hentry with hat hkind hfrom hto hstate
              subst hat hkind hfrom hto hpost
              rw [hpre, List.append_nil]
              exact ⟨⟨dirs, dump, [], rfl, hdirs, rfl, rfl⟩, rfl, hlevel⟩
          | cons e front =>
              injection hnew with _ htail
              exact absurd htail hnone

/-- **A signal whose level is new to its kind has a transition right before
it**, up to directives. -/
theorem Noted.signal_after_change {t : Trajectory ψ} (h : t.Noted) :
    ∀ {pre post : Trajectory ψ} {atS : ℚ} {dump : SignalDump},
      t = pre ++ .signal atS dump :: post →
      pre.lastLevel dump.kind ≠ some dump.level →
      pre.LedBy atS dump.kind (pre.lastLevel dump.kind) dump.level := by
  induction h with
  | nil =>
      intro pre post atS dump ht
      exact absurd ht.symm (by simp)
  | @plain t entry h hentry ih =>
      intro pre post atS dump ht hlevel
      rcases append_split ht with ⟨rest, hold, hpost⟩ | ⟨front, _, hnew⟩
      · exact ih hold hlevel
      · rw [← List.mem_singleton.mp (mem_of_split hnew)] at hentry
        exact absurd hentry Bool.false_ne_true
  | @signal t dirs h hdirs atS' dump' state ih =>
      intro pre post atS dump ht hlevel
      rcases append_split ht with ⟨rest, hold, hpost⟩ | ⟨front, hpre, hnew⟩
      · exact ih hold hlevel
      · rcases append_split hnew with ⟨rest, hhead, _⟩ | ⟨last, hfront, hlast⟩
        · -- nothing before the signal of the block is one
          have hnone : levels dump.kind (t.announce atS' dump' state ++ dirs)
              = [] := by
            rw [levels_append, levels_announce, levels_directives hdirs]
            rfl
          rw [hhead, levels_append] at hnone
          have hsignal := (List.append_eq_nil_iff.mp hnone).2
          have hcons : levels dump.kind (.signal atS dump :: rest)
              = dump.level :: levels dump.kind rest :=
            List.filterMap_cons_some (if_pos rfl)
          exact absurd (hcons.symm.trans hsignal) (List.cons_ne_nil _ _)
        · cases last with
          | cons e last => exact absurd hlast (by simp)
          | nil =>
              -- the signal of this block, whose level the block announced
              injection hlast with hentry _
              injection hentry with hat hdump
              subst hat hdump
              rw [List.append_nil] at hfront
              have hsame : pre.lastLevel dump'.kind
                  = t.lastLevel dump'.kind := by
                unfold lastLevel
                rw [hpre, hfront, levels_append, levels_append,
                  levels_announce, levels_directives hdirs]
                exact congrArg List.getLast? (List.append_nil _)
              rw [hsame] at hlevel ⊢
              refine ⟨t, state, dirs, ?_, hdirs⟩
              rw [hpre, hfront]
              unfold announce
              rw [if_neg hlevel]
              rfl

/-- **What the transitions of a kind look like.** -/
structure LevelChain (kind : String) (t : Trajectory ψ) : Prop where
  /-- A transition stands right before a signal of its kind, up to
  directives, and goes from the level of the one before to another. -/
  before : ∀ {pre post : Trajectory ψ} {atS : ℚ} {fromLevel : Option String}
    {toLevel : String} {state : ψ},
    t = pre ++ .levelTransition atS kind fromLevel toLevel state :: post →
    post.LeadsTo atS kind toLevel ∧ pre.lastLevel kind = fromLevel
      ∧ fromLevel ≠ some toLevel
  /-- A signal whose level is not that of the one before has a transition
  right before it. -/
  after : ∀ {pre post : Trajectory ψ} {atS : ℚ} {dump : SignalDump},
    t = pre ++ .signal atS dump :: post → dump.kind = kind →
    pre.lastLevel kind ≠ some dump.level →
    pre.LedBy atS kind (pre.lastLevel kind) dump.level
  /-- The first comes from no level. -/
  first : ∀ c, (t.levelChanges kind).head? = some c → c.1 = none
  /-- Each later one comes from where the one before it went. -/
  linked : (t.levelChanges kind).IsChain fun c d => d.1 = some c.2
  /-- None goes where it comes from. -/
  proper : ∀ c ∈ t.levelChanges kind, c.1 ≠ some c.2
  /-- The last goes to the level of the last signal. -/
  last : (t.levelChanges kind).getLast?.map Prod.snd = t.lastLevel kind

theorem Noted.levelChain {t : Trajectory ψ} (h : t.Noted) (kind : String) :
    t.LevelChain kind where
  before := h.change_before_signal
  after := by
    rintro pre post atS dump ht rfl hlevel
    exact h.signal_after_change ht hlevel
  first := by
    intro c hc
    rw [h.levelChanges_eq] at hc
    exact changes_head hc
  linked := by
    rw [h.levelChanges_eq]
    exact changes_isChain none _
  proper := by
    intro c hc
    rw [h.levelChanges_eq] at hc
    exact changes_ne hc
  last := by
    have hlast := changes_getLast none (t.levels kind)
    unfold latest at hlast
    rw [Option.or_none, Option.or_none, ← h.levelChanges_eq] at hlast
    exact hlast

end Trajectory

namespace Simulator

variable {π ψ σ ρ κ : Type} (env : Scenario π ψ σ ρ κ)

/-! ## §4. What a tick keeps. -/

/-- The map holds, of every kind, the level of its last recorded signal. -/
structure LevelsNoted (sim : Simulator π ψ σ ρ κ) : Prop where
  noted : sim.trajectory.Noted
  levels : ∀ kind, sim.lastSignalLevels kind = sim.trajectory.lastLevel kind

theorem LevelsNoted.congr {a b : Simulator π ψ σ ρ κ} (h : LevelsNoted a)
    (htrajectory : b.trajectory = a.trajectory)
    (hlevels : b.lastSignalLevels = a.lastSignalLevels) : LevelsNoted b := by
  refine ⟨htrajectory ▸ h.noted, ?_⟩
  rw [htrajectory, hlevels]
  exact h.levels

theorem LevelsNoted.plain {a b : Simulator π ψ σ ρ κ} (h : LevelsNoted a)
    {entry : TrajectoryEntry ψ} (hentry : entry.isPlain = true)
    (htrajectory : b.trajectory = a.trajectory ++ [entry])
    (hlevels : b.lastSignalLevels = a.lastSignalLevels) : LevelsNoted b := by
  refine ⟨htrajectory ▸ .plain h.noted hentry, ?_⟩
  intro kind
  have hplain : ∀ e ∈ [entry], e.isPlain = true := by
    intro e he
    exact List.mem_singleton.mp he ▸ hentry
  unfold Trajectory.lastLevel
  rw [htrajectory, hlevels, Trajectory.levels_append,
    Trajectory.levels_plain hplain, List.append_nil]
  exact h.levels kind

/-- Asking the policy records at most a directive. -/
theorem consultPolicy_records (dueAt : Nat) (sig : SystemSignal)
    (sim : Simulator π ψ σ ρ κ) :
    (consultPolicy env dueAt sig sim).lastSignalLevels = sim.lastSignalLevels
      ∧ ∃ dirs : Trajectory ψ,
        (consultPolicy env dueAt sig sim).trajectory = sim.trajectory ++ dirs
        ∧ ∀ entry ∈ dirs, entry.isDirective = true := by
  unfold consultPolicy
  dsimp only
  split
  next => exact ⟨rfl, [], (List.append_nil _).symm, List.forall_mem_nil _⟩
  next =>
    split
    next =>
      refine ⟨rfl, [_], rfl, ?_⟩
      intro entry hentry
      rw [List.mem_singleton.mp hentry]
      rfl
    next => exact ⟨rfl, [], (List.append_nil _).symm, List.forall_mem_nil _⟩

/-- A level is announced as the map calls for, and then the map holds it. -/
theorem noteLevel_records (dueAt : Nat) (dump : SignalDump)
    {sim : Simulator π ψ σ ρ κ} (h : LevelsNoted sim) :
    (noteLevel env dueAt dump sim).trajectory
        = sim.trajectory ++ sim.trajectory.announce (asSecs dueAt) dump
          (env.plant.snapshot sim.state)
      ∧ (noteLevel env dueAt dump sim).lastSignalLevels
        = Function.update sim.lastSignalLevels dump.kind
          (some dump.level) := by
  unfold noteLevel Trajectory.announce
  rw [← h.levels]
  dsimp only
  by_cases hlevel : sim.lastSignalLevels dump.kind = some dump.level
  · rw [if_neg (not_not.mpr hlevel), if_pos hlevel, ← hlevel,
      Function.update_eq_self, List.append_nil]
    exact ⟨rfl, rfl⟩
  · rw [if_pos hlevel, if_neg hlevel]
    exact ⟨rfl, rfl⟩

/-- **A signal is recorded as a block**, its level in the map. -/
theorem levelsNoted_processSignal (dueAt : Nat) (kind : EventKind)
    {sim : Simulator π ψ σ ρ κ} (h : LevelsNoted sim) :
    LevelsNoted (processSignal env dueAt kind sim) := by
  unfold processSignal
  split
  next => exact h.congr rfl rfl
  next rng sig _ =>
    have hrng : LevelsNoted { sim with rng := rng } := h.congr rfl rfl
    obtain ⟨hnote, hmap⟩ :=
      noteLevel_records env dueAt (.fromSignal sig) hrng
    obtain ⟨hsame, dirs, hconsult, hdirs⟩ := consultPolicy_records env dueAt sig
      (noteLevel env dueAt (.fromSignal sig) { sim with rng := rng })
    have htrajectory : ((consultPolicy env dueAt sig
          (noteLevel env dueAt (.fromSignal sig)
            { sim with rng := rng })).record
          (.signal (asSecs dueAt) (.fromSignal sig))).trajectory
        = sim.trajectory ++ (sim.trajectory.announce (asSecs dueAt)
            (.fromSignal sig) (env.plant.snapshot sim.state) ++ dirs
          ++ [.signal (asSecs dueAt) (.fromSignal sig)]) := by
      show (consultPolicy env dueAt sig _).trajectory ++ _ = _
      rw [hconsult, hnote, List.append_assoc, List.append_assoc,
        List.append_assoc]
    constructor
    · rw [htrajectory]
      exact .signal h.noted hdirs _ _ _
    · intro k
      show (consultPolicy env dueAt sig _).lastSignalLevels k = _
      unfold Trajectory.lastLevel
      rw [hsame, hmap, htrajectory, Trajectory.levels_append,
        Trajectory.levels_block hdirs]
      -- the map and the trajectory move together on this kind only
      by_cases hk : k = (SignalDump.fromSignal sig).kind
      · rw [hk, Function.update_self, if_pos rfl, List.getLast?_concat]
      · rw [Function.update_of_ne hk, if_neg (Ne.symm hk), List.append_nil]
        exact h.levels k

theorem levelsNoted_processEvent (event : ScheduledEvent)
    {sim : Simulator π ψ σ ρ κ} (h : LevelsNoted sim) :
    LevelsNoted (processEvent env sim event) := by
  unfold processEvent
  cases event.kind with
  | heartbeat => exact h.plain rfl rfl rfl
  | signalMemory => exact levelsNoted_processSignal env _ _ h
  | signalCompute => exact levelsNoted_processSignal env _ _ h
  | signalThermal => exact levelsNoted_processSignal env _ _ h
  | signalEnergy => exact levelsNoted_processSignal env _ _ h
  | observationDue action recordedAt => exact h.plain rfl rfl rfl
  | externalInjectionStart idx => exact h.plain rfl rfl rfl
  | externalInjectionEnd idx => exact h.plain rfl rfl rfl
  | custom name => exact h.plain rfl rfl rfl

theorem levelsNoted_processEvents (events : List ScheduledEvent)
    {sim : Simulator π ψ σ ρ κ} (h : LevelsNoted sim) :
    LevelsNoted (events.foldl (processEvent env) sim) := by
  induction events generalizing sim with
  | nil => exact h
  | cons event events ih => exact ih (levelsNoted_processEvent env event h)

theorem levelsNoted_noteOverruns (tickEnd : Nat)
    {sim : Simulator π ψ σ ρ κ} (h : LevelsNoted sim) :
    LevelsNoted (noteOverruns env tickEnd sim) := by
  unfold noteOverruns
  dsimp only
  split
  next => exact h.plain rfl rfl rfl
  next => exact h.congr rfl rfl

theorem levelsNoted_finishTick (tickEnd : Nat)
    {sim : Simulator π ψ σ ρ κ} (h : LevelsNoted sim) :
    LevelsNoted (finishTick env tickEnd sim).1 := by
  unfold finishTick
  split
  next => exact h.congr rfl rfl
  next => exact h.plain rfl rfl rfl

/-- **A tick keeps the map and the trajectory together**, whether or not it
fails. -/
theorem levelsNoted_tick {sim : Simulator π ψ σ ρ κ} (h : LevelsNoted sim) :
    LevelsNoted (tick env sim).sim := by
  have hdrained : LevelsNoted { sim with
      clock := (sim.clock.drainUntil (sim.clock.now + env.tickDt)).2 } :=
    h.congr rfl rfl
  have hevents := levelsNoted_processEvents env
    (sim.clock.drainUntil (sim.clock.now + env.tickDt)).1 hdrained
  exact levelsNoted_finishTick env _ (levelsNoted_noteOverruns env _ hevents)

/-! ## §5. Runs. -/

/-- What a run is made of.  Between ticks the clock is anyone's: a driver
preloads it, and its handle is shared; and the tick size may be set anew. -/
inductive Move (π ψ σ ρ κ : Type) where
  | tick (env : Scenario π ψ σ ρ κ)
  | clock (edit : VirtualClock → VirtualClock)

def move (sim : Simulator π ψ σ ρ κ) :
    Move π ψ σ ρ κ → Simulator π ψ σ ρ κ
  | .tick env => (tick env sim).sim
  | .clock edit => { sim with clock := edit sim.clock }

theorem ticks_moves (n : Nat) (sim : Simulator π ψ σ ρ κ) :
    ∃ moves : List (Move π ψ σ ρ κ),
      (ticks env n sim).sim = moves.foldl move sim := by
  induction n generalizing sim with
  | zero => exact ⟨[], rfl⟩
  | succ n ih =>
      rw [ticks_succ]
      cases hresult : (tick env sim).result with
      | error e =>
          rw [andThen_error hresult]
          exact ⟨[.tick env], rfl⟩
      | ok u =>
          rw [andThen_ok hresult]
          obtain ⟨moves, hmoves⟩ := ih (tick env sim).sim
          exact ⟨.tick env :: moves, hmoves⟩

/-- **A call of a driver is made of moves.** -/
theorem call_moves (sim : Simulator π ψ σ ρ κ) (c : SimCall π ψ σ ρ κ) :
    ∃ moves : List (Move π ψ σ ρ κ),
      (call env sim c).sim = moves.foldl move sim := by
  obtain ⟨n, hsim, _⟩ := call_ticks env sim c
  obtain ⟨moves, hmoves⟩ :=
    ticks_moves env n (preload env (c.horizon sim.clock.now) sim)
  exact ⟨.clock (preloadEvents env.cfg (c.horizon sim.clock.now)) :: moves,
    hsim.trans hmoves⟩

theorem levelsNoted_fresh (state : π) (engine : EngineStateModel) (policy : σ)
    (rng : ρ) (ctx : κ) (cooldown : ℚ) :
    LevelsNoted (fresh state engine policy rng ctx cooldown :
      Simulator π ψ σ ρ κ) :=
  ⟨.nil, fun _ => rfl⟩

theorem levelsNoted_moves (moves : List (Move π ψ σ ρ κ))
    {sim : Simulator π ψ σ ρ κ} (h : LevelsNoted sim) :
    LevelsNoted (moves.foldl move sim) := by
  induction moves generalizing sim with
  | nil => exact h
  | cons m moves ih =>
      refine ih ?_
      cases m with
      | tick env => exact levelsNoted_tick env h
      | clock edit => exact h.congr rfl rfl

/-- **Level transitions form a chain**, after any run of ticks, of any sizes
and with anything scheduled between them. -/
theorem level_transitions_chain (state : π) (engine : EngineStateModel)
    (policy : σ) (rng : ρ) (ctx : κ) (cooldown : ℚ)
    (moves : List (Move π ψ σ ρ κ)) (kind : String) :
    (moves.foldl move
      (fresh state engine policy rng ctx cooldown)).trajectory.LevelChain
      kind :=
  (levelsNoted_moves moves
    (levelsNoted_fresh state engine policy rng ctx cooldown)).noted.levelChain
    kind

/-- Two signals of one level make one transition. -/
example : Trajectory.levelChanges "memory_pressure"
    ([.clock fun clock =>
        (clock.schedule .signalMemory (fromSecs 1)).schedule .signalMemory
          (fromSecs 2),
      .tick (idleScenario (fromSecs 1)),
      .tick (idleScenario (fromSecs 1))].foldl move
      (fresh () idleEngine () () () 60)).trajectory
      = [(none, "Normal")] := by decide

end Simulator

end ArgusManager
