/-
  ArgusManager.LuaPolicy.Commands
  ───────────────────────────────
  **What a script may say, and what becomes of it.**

  `entries` reads the value a script's `decide` returned as a list of entries.
  Each entry is parsed on its own (`parseActions_eq`), so each is one command
  or one dropped action.

    • `CommandOk`         — what the contract asks of a command; both sources
                            of commands meet it,
    • `Decision`          — what one `process_signal` promises,
    • `seqIds_eq_range`   — directives are numbered one after the other,
    • `commands_accounted` — all of it, for every state, answer and run.
-/
import ArgusManager.LuaPolicy.Runs
import Mathlib.Data.List.Range
import Mathlib.Tactic.NormNum

namespace ArgusManager.LuaPolicy

variable {V : Type}

/-! ## §1. Entries. -/

/-- The entries of a return value: a single action table, the elements of an
array, or a value that is no table at all. -/
def entries : LuaValue → List LuaValue
  | .nil => []
  | .table field seq =>
      if !(field "type").isNil then [.table field seq] else seq
  | value => [value]

/-- An entry that is dropped. -/
def isDropped (x : Bindings) (entry : LuaValue) : Bool :=
  (parseEntry x entry).toOption.isNone

/-- The commands of some entries, in their order. -/
def accepted (x : Bindings) (es : List LuaValue) : List EngineCommand :=
  es.filterMap fun entry => (parseEntry x entry).toOption

/-- A loop that appends the accepted and counts the dropped, from any
accumulator. -/
theorem foldl_entries {x : Bindings}
    {f : List EngineCommand × Nat → LuaValue → List EngineCommand × Nat}
    (hf : ∀ acc entry, f acc entry
      = (acc.1 ++ (parseEntry x entry).toOption.toList,
          acc.2 + if isDropped x entry then 1 else 0))
    (es : List LuaValue) (acc : List EngineCommand × Nat) :
    es.foldl f acc
      = (acc.1 ++ accepted x es, acc.2 + es.countP (isDropped x)) := by
  induction es generalizing acc with
  | nil => simp [accepted]
  | cons entry es ih =>
      rw [List.foldl_cons, ih, hf, List.countP_cons]
      unfold accepted isDropped
      cases hentry : (parseEntry x entry).toOption with
      | none =>
          simp only [hentry, List.filterMap_cons, Option.toList_none,
            List.append_nil, Option.isNone_none, if_true]
          rw [Nat.add_assoc, Nat.add_comm 1]
      | some cmd => simp [hentry]

/-- **Every entry is parsed on its own.** -/
theorem parseActions_eq (x : Bindings) (value : LuaValue) (dropped : Nat) :
    parseActions x value dropped
      = (accepted x (entries value),
          dropped + (entries value).countP (isDropped x)) := by
  cases value with
  | nil => rfl
  | table field seq =>
      unfold parseActions entries
      dsimp only
      by_cases h : (!(field "type").isNil) = true
      · rw [if_pos h, if_pos h]
        have hentry : parseEntry x (.table field seq)
            = parseSingleAction x field := rfl
        cases hone : parseSingleAction x field with
        | ok cmd => simp [accepted, isDropped, hentry, hone, Except.toOption]
        | error e => simp [accepted, isDropped, hentry, hone, Except.toOption]
      · rw [if_neg h, if_neg h]
        refine (foldl_entries (x := x) ?_ seq ([], dropped)).trans (by simp)
        intro acc entry
        unfold isDropped
        cases hentry : parseEntry x entry with
        | ok cmd => simp [Except.toOption]
        | error e => simp [Except.toOption]
  | boolean b => rfl
  | integer i => rfl
  | number n => rfl
  | string s => rfl
  | function => rfl
  | other typeName => rfl

/-- One command or one dropped action for each entry. -/
theorem accepted_add_dropped (x : Bindings) (es : List LuaValue) :
    (accepted x es).length + es.countP (isDropped x) = es.length := by
  induction es with
  | nil => rfl
  | cons entry es ih =>
      unfold accepted isDropped at *
      cases h : (parseEntry x entry).toOption with
      | none =>
          simp only [List.filterMap_cons, h, List.countP_cons,
            Option.isNone_none, if_true, List.length_cons]
          omega
      | some cmd =>
          simp only [List.filterMap_cons, h, List.countP_cons,
            Option.isNone_some, List.length_cons]
          simp only [Bool.false_eq_true, if_false]
          omega

/-! ## §2. Valid commands. -/

/-- What the contract asks of a command. -/
def CommandOk (x : Bindings) : EngineCommand → Prop
  | .kvCompress budget => ∃ q : ℚ, budget = .fin q ∧ 0 < q ∧ q ≤ 1
  | .gpuYield every => every ≤ x.gpuYieldEveryMax
  | _ => True

/-- The three tests on a budget. -/
theorem budget_ok {budget : FloatVal}
    (h : (budget.isFinite && FloatVal.lt (.fin 0) budget
      && budget.le (.fin 1)) = true) :
    ∃ q : ℚ, budget = .fin q ∧ 0 < q ∧ q ≤ 1 := by
  cases budget with
  | fin q =>
      simp only [FloatVal.isFinite, FloatVal.lt, FloatVal.le, FloatVal.eq,
        Bool.true_and, Bool.and_eq_true, Bool.or_eq_true, decide_eq_true_eq,
        beq_iff_eq] at h
      exact ⟨q, rfl, h.1, h.2.elim le_of_lt le_of_eq⟩
  | nan => exact absurd h (by simp [FloatVal.isFinite])
  | negInf => exact absurd h (by simp [FloatVal.isFinite])
  | posInf => exact absurd h (by simp [FloatVal.isFinite])

/-- An action that parses is valid. -/
theorem parseSingleAction_ok {x : Bindings} {field : String → LuaValue}
    {cmd : EngineCommand} (h : parseSingleAction x field = .ok cmd) :
    CommandOk x cmd := by
  unfold parseSingleAction at h
  split at h
  next => exact absurd h (by simp)
  next =>
    -- `kv_compress`: the budget passed its three tests
    split at h
    next => exact absurd h (by simp)
    next budget _ =>
      split at h
      next hbudget =>
        injection h with h
        subst h
        exact budget_ok hbudget
      next => exact absurd h (by simp)
  next =>
    injection h with h
    subst h
    trivial
  next =>
    injection h with h
    subst h
    trivial
  next =>
    injection h with h
    subst h
    trivial
  next =>
    -- `gpu_yield`: the count was filtered by its bound
    dsimp only at h
    split at h
    next every hevery =>
      injection h with h
      subst h
      show every ≤ x.gpuYieldEveryMax
      exact of_decide_eq_true (Option.filter_eq_some_iff.mp hevery).2
    next => exact absurd h (by simp)
  next =>
    split at h
    next =>
      injection h with h
      subst h
      trivial
    next => exact absurd h (by simp)
  next => exact absurd h (by simp)

/-- So is what the fallback says. -/
theorem fallbackDecide_ok (x : Bindings) (signal : SystemSignal) :
    ∀ cmd ∈ fallbackDecide signal, CommandOk x cmd := by
  intro cmd hcmd
  cases signal with
  | memoryPressure level _ _ _ =>
      cases level with
      | normal =>
          rw [List.mem_singleton.mp hcmd]
          trivial
      | warning =>
          rw [List.mem_singleton.mp hcmd]
          exact ⟨0.85, rfl, by norm_num, by norm_num⟩
      | critical =>
          rw [List.mem_singleton.mp hcmd]
          exact ⟨0.50, rfl, by norm_num, by norm_num⟩
      | emergency =>
          rw [List.mem_singleton.mp hcmd]
          exact ⟨0.25, rfl, by norm_num, by norm_num⟩
  | computeGuidance => exact absurd hcmd List.not_mem_nil
  | thermalAlert => exact absurd hcmd List.not_mem_nil
  | energyConstraint => exact absurd hcmd List.not_mem_nil

theorem parseEntry_ok {x : Bindings} {entry : LuaValue} {cmd : EngineCommand}
    (h : parseEntry x entry = .ok cmd) : CommandOk x cmd := by
  unfold parseEntry at h
  split at h
  next field _ => exact parseSingleAction_ok h
  next => exact absurd h (by simp)

theorem accepted_ok {x : Bindings} {es : List LuaValue} :
    ∀ cmd ∈ accepted x es, CommandOk x cmd := by
  intro cmd hcmd
  obtain ⟨entry, _, hentry⟩ := List.mem_filterMap.mp hcmd
  cases h : parseEntry x entry with
  | error e =>
      rw [h] at hentry
      exact absurd hentry (by simp [Except.toOption])
  | ok cmd' =>
      rw [h] at hentry
      injection hentry with hentry
      exact hentry ▸ parseEntry_ok h

/-! ## §3. One decision. -/

/-- The commands handed over with a directive, if there is one. -/
def commandsOf (directive : Option EngineDirective) : List EngineCommand :=
  (directive.map EngineDirective.commands).getD []

/-- A directive carries the decision's commands and the next number, and is
withheld only when there is nothing to say. -/
theorem processSignal_eq (x : Bindings) (invoke : Invoke V)
    (signal : SystemSignal) (p : LuaPolicy V) :
    let r := (p.observe signal).callDecide x invoke signal
    commandsOf (p.processSignal x invoke signal).2 = r.2
    ∧ (p.processSignal x invoke signal).1.droppedActions = r.1.droppedActions
    ∧ (((p.processSignal x invoke signal).2 = none ∧ r.2 = []
        ∧ (p.processSignal x invoke signal).1.seqCounter = p.seqCounter)
      ∨ ((p.processSignal x invoke signal).2
          = some { seqId := p.seqCounter.toNat, commands := r.2 }
        ∧ r.2 ≠ []
        ∧ (p.processSignal x invoke signal).1.seqCounter
          = p.seqCounter + 1)) := by
  intro r
  have hseq : r.1.seqCounter = p.seqCounter := by
    obtain ⟨_, _, _, _, _, _, hobs⟩ := observe_frame p signal
    rcases callDecide_cases x invoke (p.observe signal) signal
      with ⟨_, h⟩ | ⟨_, _, _, _, h⟩ | ⟨_, _, _, _, h⟩
    · exact (congrArg (fun r => r.1.seqCounter) h).trans hobs
    · exact (congrArg (fun r => r.1.seqCounter) h).trans hobs
    · exact (congrArg (fun r => r.1.seqCounter) h).trans hobs
  have hproc : p.processSignal x invoke signal
      = if r.2.isEmpty then (r.1, none)
        else ({ r.1 with seqCounter := r.1.seqCounter + 1 },
          some { seqId := r.1.seqCounter.toNat, commands := r.2 }) := rfl
  rw [hproc]
  by_cases hempty : r.2 = []
  · have h : r.2.isEmpty = true := by simp [hempty]
    rw [if_pos h]
    exact ⟨hempty.symm, rfl, .inl ⟨rfl, hempty, hseq⟩⟩
  · have h : ¬ r.2.isEmpty = true := by simpa using hempty
    rw [if_neg h, hseq]
    exact ⟨rfl, rfl, .inr ⟨rfl, hempty, rfl⟩⟩

/-- What one `process_signal` promises. -/
structure Decision (x : Bindings) (p : LuaPolicy V) (invoke : Invoke V)
    (signal : SystemSignal) : Prop where
  nonempty : ∀ d, (p.processSignal x invoke signal).2 = some d →
    d.commands ≠ []
  valid : ∀ cmd ∈ commandsOf (p.processSignal x invoke signal).2,
    CommandOk x cmd
  /-- On a normal return every entry is a command, in its place, or a dropped
  action. -/
  accounted : p.permanentFallback = false → ∀ lua value,
    invoke p.lua (p.observe signal).ctx = (lua, .ok value) →
      commandsOf (p.processSignal x invoke signal).2
        = accepted x (entries value)
      ∧ (p.processSignal x invoke signal).1.droppedActions
        = p.droppedActions + (entries value).countP (isDropped x)
      ∧ (commandsOf (p.processSignal x invoke signal).2).length
          + ((p.processSignal x invoke signal).1.droppedActions
            - p.droppedActions)
        = (entries value).length
  /-- And nothing else counts. -/
  otherwise : (p.permanentFallback = true ∨ ∃ lua e,
      invoke p.lua (p.observe signal).ctx = (lua, .error e)) →
    (p.processSignal x invoke signal).1.droppedActions = p.droppedActions

/-- **Every decision keeps its promises**, in every state and whatever the
script answers. -/
theorem decision (x : Bindings) (p : LuaPolicy V) (invoke : Invoke V)
    (signal : SystemSignal) : Decision x p invoke signal := by
  obtain ⟨hcmds, hdropped, hdir⟩ := processSignal_eq x invoke signal p
  obtain ⟨hlua, _, _, _, hlatch, hobs, _⟩ := observe_frame p signal
  have hcases := callDecide_cases x invoke (p.observe signal) signal
  rw [hlua, hlatch] at hcases
  refine ⟨?_, ?_, ?_, ?_⟩
  · -- a directive without commands is not returned
    intro d hd
    rcases hdir with ⟨hnone, _⟩ | ⟨hsome, hne, _⟩
    · exact absurd (hnone.symm.trans hd) (by simp)
    · rw [hsome] at hd
      injection hd with hd
      exact hd ▸ hne
  · -- two sources: the script's accepted entries and the fallback
    rw [hcmds]
    rcases hcases with ⟨_, h⟩ | ⟨_, lua, value, _, h⟩ | ⟨_, lua, e, _, h⟩
    · rw [h]
      exact fallbackDecide_ok x signal
    · rw [h, parseActions_eq]
      exact accepted_ok
    · rw [h]
      exact fallbackDecide_ok x signal
  · -- only the case of a normal return is left
    intro hdown lua value hinv
    rcases hcases with ⟨hup, _⟩ | ⟨_, lua', value', hinv', h⟩
      | ⟨_, lua', e, hinv', _⟩
    · exact absurd (hdown.symm.trans hup) (by simp)
    · rw [hinv] at hinv'
      injection hinv' with _ hvalue
      injection hvalue with hvalue
      subst hvalue
      rw [hcmds, hdropped, h, parseActions_eq]
      refine ⟨rfl, by rw [hobs], ?_⟩
      rw [hobs, ← accepted_add_dropped x (entries value)]
      dsimp only
      omega
    · rw [hinv] at hinv'
      injection hinv' with _ hvalue
      exact absurd hvalue (by simp)
  · -- the other cases count no entry
    intro hother
    rw [hdropped]
    rcases hcases with ⟨_, h⟩ | ⟨hdown, lua, value, hinv, _⟩ | ⟨_, lua, e, _, h⟩
    · rw [h]
      exact hobs
    · rcases hother with hup | ⟨lua', e, hinv'⟩
      · exact absurd (hdown.symm.trans hup) (by simp)
      · rw [hinv] at hinv'
        injection hinv' with _ hvalue
        exact absurd hvalue (by simp)
    · rw [h]
      exact hobs

/-! ## §4. Numbering. -/

/-- The numbers of the directives a run returns. -/
def seqIds (x : Bindings) (p : LuaPolicy V) (ops : List (PolicyOp V)) :
    List Nat :=
  (((machine V x).outs p ops).filterMap PolicyOutput.directive?).map
    EngineDirective.seqId

/-- An operation returns the next number and counts it, or returns none and
leaves the counter. -/
theorem apply_seqCounter (x : Bindings) (p : LuaPolicy V) (op : PolicyOp V) :
    ((p.apply x op).2.directive? = none
      ∧ (p.apply x op).1.seqCounter = p.seqCounter)
    ∨ ∃ d, (p.apply x op).2.directive? = some d
      ∧ d.seqId = p.seqCounter.toNat
      ∧ (p.apply x op).1.seqCounter = p.seqCounter + 1 := by
  cases op with
  | processSignal invoke signal =>
      obtain ⟨_, _, ⟨hnone, _, hseq⟩ | ⟨hsome, _, hseq⟩⟩ :=
        processSignal_eq x invoke signal p
      · exact .inl ⟨hnone, hseq⟩
      · exact .inr ⟨_, hsome, rfl, hseq⟩
  | updateEngineState msg =>
      exact .inl ⟨rfl, (updateEngineState_frame p msg).2.2.2.2.2.2⟩
  | reloadScript loader path =>
      rcases reloadScript_cases loader path p with ⟨e, _, h⟩ | ⟨lua, _, h⟩
      · exact .inl ⟨rfl, congrArg (fun r => r.1.seqCounter) h⟩
      · exact .inl ⟨rfl, congrArg (fun r => r.1.seqCounter) h⟩

/-- **Directives are numbered one after the other**, as long as the counter
does not wrap. -/
theorem seqIds_eq_range (x : Bindings) (p : LuaPolicy V)
    (ops : List (PolicyOp V))
    (hwrap : p.seqCounter.toNat + (seqIds x p ops).length ≤ 2 ^ 64) :
    seqIds x p ops
      = List.range' p.seqCounter.toNat (seqIds x p ops).length := by
  induction ops generalizing p with
  | nil => rfl
  | cons op ops ih =>
      have hstep : seqIds x p (op :: ops)
          = ((p.apply x op).2.directive?.map EngineDirective.seqId).toList
            ++ seqIds x (p.apply x op).1 ops := by
        unfold seqIds
        rw [Mealy.outs_cons, List.filterMap_cons,
          show (machine V x).step p op = p.apply x op from rfl]
        cases (p.apply x op).2.directive? <;> rfl
      rcases apply_seqCounter x p op with ⟨hnone, hseq⟩ | ⟨d, hsome, hid, hseq⟩
      · -- no directive, no number taken
        rw [hnone] at hstep
        rw [hstep] at hwrap ⊢
        rw [← hseq] at hwrap ⊢
        exact ih (p.apply x op).1 hwrap
      · rw [hsome] at hstep
        rw [hstep] at hwrap ⊢
        have hlen : (((some d).map EngineDirective.seqId).toList
            ++ seqIds x (p.apply x op).1 ops).length
              = (seqIds x (p.apply x op).1 ops).length + 1 := by
          simp [Nat.add_comm]
        rw [hlen, List.range'_succ, ← hid]
        rw [hlen] at hwrap
        show d.seqId :: seqIds x (p.apply x op).1 ops = _
        congr 1
        by_cases hlast : seqIds x (p.apply x op).1 ops = []
        · rw [hlast]
          rfl
        · -- another directive follows, so the counter has not wrapped yet
          have hpos := List.length_pos_iff.mpr hlast
          have hnext : (p.apply x op).1.seqCounter.toNat
              = p.seqCounter.toNat + 1 := by
            rw [hseq, UInt64.toNat_add]
            exact Nat.mod_eq_of_lt (by simp; omega)
          rw [hid, ← hnext]
          exact ih (p.apply x op).1 (by omega)

/-! ## §5. The whole account. -/

/-- **Commands are valid and accounted for**: every decision keeps its
promises, no other call touches the count of dropped actions, and the
directives of a run are numbered in strictly increasing order. -/
theorem commands_accounted (x : Bindings) :
    (∀ (p : LuaPolicy V) (invoke : Invoke V) (signal : SystemSignal),
      Decision x p invoke signal)
    ∧ (∀ (p : LuaPolicy V) (msg : EngineMessage),
      (p.updateEngineState msg).droppedActions = p.droppedActions)
    ∧ (∀ (p : LuaPolicy V) (l : Loader V) (path : Path),
      (p.reloadScript l path).1.droppedActions = p.droppedActions)
    ∧ ∀ (l : Loader V) (scriptPath : String) (config : AdaptationConfig)
        (p₀ : LuaPolicy V), new l scriptPath config = .ok p₀ →
      ∀ ops : List (PolicyOp V), (seqIds x p₀ ops).length < 2 ^ 64 →
        (seqIds x p₀ ops).Pairwise (· < ·) := by
  refine ⟨decision x, ?_, ?_, ?_⟩
  · intro p msg
    exact (updateEngineState_frame p msg).2.2.2.2.2.1
  · intro p l path
    rcases reloadScript_cases l path p with ⟨_, _, h⟩ | ⟨_, _, h⟩
    · exact congrArg (fun r => r.1.droppedActions) h
    · exact congrArg (fun r => r.1.droppedActions) h
  · intro l scriptPath config p₀ hnew ops hlen
    obtain ⟨lua, rfl⟩ := new_ok hnew
    have hone : (fresh lua scriptPath (l.logPolicyMeta lua)
        config).seqCounter.toNat = 1 := rfl
    rw [seqIds_eq_range x _ ops (by rw [hone]; omega)]
    exact List.pairwise_lt_range'

/-- Two directives from the fallback are numbered 1 and 2. -/
theorem fallback_directives_numbered :
    let warn : PolicyOp Unit := .processSignal (fun _ _ => ((), .error "boom"))
      (.memoryPressure .warning 0 0 0)
    let p₀ := fresh () "policy.lua" none AdaptationConfig.default
    seqIds Bindings.exact p₀ [warn, warn] = [1, 2]
      ∧ (seqIds Bindings.exact p₀ [warn, warn]).Pairwise (· < ·) := by
  intro warn p₀
  have hids : seqIds Bindings.exact p₀ [warn, warn] = [1, 2] := rfl
  obtain ⟨_, _, _, hseq⟩ := commands_accounted (V := Unit) Bindings.exact
  refine ⟨hids, hseq Loader.loadsAlways "policy.lua" AdaptationConfig.default
    p₀ rfl [warn, warn] ?_⟩
  rw [hids]
  decide

end ArgusManager.LuaPolicy
