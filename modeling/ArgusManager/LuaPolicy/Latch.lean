/-
  ArgusManager.LuaPolicy.Latch
  ────────────────────────────
  **The fallback latch is a property of the script's call record.**

  To speak of the calls a policy made, the policy is run on a VM that records
  them: `LoggedVm` wraps any VM, `logged` wraps what the VM answers, and the
  policy's own code is unchanged (`apply_erase`: the record is invisible to
  it).  A reload starts a fresh VM, and with it an empty record, so the record
  covers the calls since construction or the last successful reload.

    • `Latch`          — counter, latch and record, in one invariant,
    • `latch_step`     — every operation keeps it,
    • `latch_iff_three_failures` — so the latch is up exactly when the record
      holds three failures in a row.
-/
import ArgusManager.Lib.Streak
import ArgusManager.LuaPolicy.Runs

namespace ArgusManager.LuaPolicy

variable {V : Type}

/-! ## §1. Recording the calls. -/

/-- How a call of `decide` ended. -/
inductive CallOutcome where
  | returned
  | failed
  deriving DecidableEq, Repr

def CallOutcome.isFailure : CallOutcome → Bool
  | .returned => false
  | .failed => true

def outcomeOf : Except String LuaValue → CallOutcome
  | .ok _ => .returned
  | .error _ => .failed

/-- A VM with the record of how the calls of `decide` on it ended. -/
structure LoggedVm (V : Type) where
  vm : V
  calls : List CallOutcome

/-- The same answers, recorded. -/
def Invoke.logged (invoke : Invoke V) : Invoke (LoggedVm V) := fun lua ctx =>
  let (vm, result) := invoke lua.vm ctx
  ({ vm, calls := lua.calls ++ [outcomeOf result] }, result)

/-- A fresh VM starts with an empty record; loading a script keeps it. -/
def Loader.logged (l : Loader V) : Loader (LoggedVm V) where
  readToString := l.readToString
  newVm := { vm := l.newVm, calls := [] }
  registerSysHelpers lua :=
    (l.registerSysHelpers lua.vm).map fun vm => { lua with vm }
  exec lua script := (l.exec lua.vm script).map fun vm => { lua with vm }
  getDecide lua := l.getDecide lua.vm
  logPolicyMeta lua := l.logPolicyMeta lua.vm

def PolicyOp.logged : PolicyOp V → PolicyOp (LoggedVm V)
  | .processSignal invoke signal => .processSignal (Invoke.logged invoke) signal
  | .updateEngineState msg => .updateEngineState msg
  | .reloadScript loader path => .reloadScript loader.logged path

/-- The policy with the record dropped. -/
def erase (p : LuaPolicy (LoggedVm V)) : LuaPolicy V :=
  { p with lua := p.lua.vm }

/-- The policy with a record about to start. -/
def recorded (p : LuaPolicy V) : LuaPolicy (LoggedVm V) :=
  { p with lua := { vm := p.lua, calls := [] } }

/-- How the calls of `decide` ended that the VM in use has seen, in the run
from `p` over `ops`. -/
def callRecord (x : Bindings) (p : LuaPolicy V) (ops : List (PolicyOp V)) :
    List CallOutcome :=
  ((machine _ x).exec p.recorded (ops.map PolicyOp.logged)).lua.calls

/-! ## §2. The record is invisible to the policy. -/

theorem freshVm_logged (l : Loader V) :
    freshVm l.logged
      = (freshVm l).map fun vm => ({ vm, calls := [] } : LoggedVm V) := by
  show Except.mapError _ (Except.map _ (l.registerSysHelpers l.newVm)) = _
  unfold freshVm
  cases l.registerSysHelpers l.newVm <;> rfl

theorem loadScript_logged (l : Loader V) (lua : LoggedVm V) (path : String) :
    loadScript l.logged lua path
      = (loadScript l lua.vm path).map fun vm => { lua with vm } := by
  unfold loadScript
  show Except.bind (Except.mapError _ (l.readToString path)) _
    = Except.map _ (Except.bind (Except.mapError _ (l.readToString path)) _)
  -- read, run, look up `decide`: each step fails alike on both sides
  cases l.readToString path with
  | error e => rfl
  | ok script =>
      show Except.bind (Except.mapError _
          (Except.map _ (l.exec lua.vm script))) _
        = Except.map _ (Except.bind (Except.mapError _
          (l.exec lua.vm script)) _)
      cases l.exec lua.vm script with
      | error e => rfl
      | ok vm =>
          show Except.bind (Except.mapError _ (l.getDecide vm)) _
            = Except.map _ (Except.bind (Except.mapError _
              (l.getDecide vm)) _)
          cases l.getDecide vm with
          | error e => rfl
          | ok decide =>
              show (if decide.isFunction then _ else _)
                = Except.map _ (if decide.isFunction then _ else _)
              cases decide.isFunction <;> rfl

/-- A script that loads comes in a VM on which `decide` was never called. -/
theorem loadFresh_logged (l : Loader V) (path : Path) :
    loadFresh l.logged path
      = (loadFresh l path).map fun vm => ({ vm, calls := [] } : LoggedVm V) := by
  unfold loadFresh
  cases path.toStr with
  | none => rfl
  | some pathStr =>
      show Except.bind (freshVm l.logged) _
        = Except.map _ (Except.bind (freshVm l) _)
      rw [freshVm_logged]
      cases freshVm l with
      | error e => rfl
      | ok vm => exact loadScript_logged l { vm, calls := [] } pathStr

theorem callDecide_logged (x : Bindings) (invoke : Invoke V)
    (p : LuaPolicy (LoggedVm V)) (signal : SystemSignal) :
    ((p.callDecide x (Invoke.logged invoke) signal).1.erase,
        (p.callDecide x (Invoke.logged invoke) signal).2)
      = p.erase.callDecide x invoke signal := by
  have hctx : p.erase.ctx = p.ctx := rfl
  have hlatch : p.erase.permanentFallback = p.permanentFallback := rfl
  unfold callDecide
  rw [hctx, hlatch]
  by_cases hp : p.permanentFallback = true
  · rw [if_pos hp, if_pos hp]
  · rw [if_neg hp, if_neg hp]
    have hvm : p.erase.lua = p.lua.vm := rfl
    rw [hvm]
    unfold Invoke.logged
    rcases invoke p.lua.vm p.ctx with ⟨vm, e | value⟩
    · rfl
    · rfl

/-- **The record is invisible**: dropped after an operation or before it, it
leaves the same policy and the same answer. -/
theorem apply_erase (x : Bindings) (p : LuaPolicy (LoggedVm V))
    (op : PolicyOp V) :
    ((p.apply x op.logged).1.erase, (p.apply x op.logged).2)
      = p.erase.apply x op := by
  cases op with
  | processSignal invoke signal =>
      have hobs : (p.observe signal).erase = p.erase.observe signal := by
        cases signal <;> rfl
      have hcall := callDecide_logged x invoke (p.observe signal) signal
      rw [hobs] at hcall
      show ((p.processSignal x (Invoke.logged invoke) signal).1.erase,
          PolicyOutput.decided
            (p.processSignal x (Invoke.logged invoke) signal).2)
        = ((p.erase.processSignal x invoke signal).1,
            .decided (p.erase.processSignal x invoke signal).2)
      unfold processSignal
      rw [← hcall]
      rcases (p.observe signal).callDecide x (Invoke.logged invoke) signal
        with ⟨q, commands⟩
      by_cases hempty : commands.isEmpty = true
      · simp only [hempty, if_true]
      · simp only [hempty]
        rfl
  | updateEngineState msg => cases msg <;> rfl
  | reloadScript loader path =>
      show ((p.reloadScript loader.logged path).1.erase,
          PolicyOutput.reloaded (p.reloadScript loader.logged path).2)
        = ((p.erase.reloadScript loader path).1,
            .reloaded (p.erase.reloadScript loader path).2)
      unfold reloadScript
      rw [loadFresh_logged]
      cases loadFresh loader path <;> rfl

/-- So the recorded run is the run. -/
theorem exec_erase (x : Bindings) (p : LuaPolicy (LoggedVm V))
    (ops : List (PolicyOp V)) :
    ((machine _ x).exec p (ops.map PolicyOp.logged)).erase
      = (machine V x).exec p.erase ops := by
  induction ops generalizing p with
  | nil => rfl
  | cons op ops ih =>
      rw [List.map_cons, Mealy.exec_cons, Mealy.exec_cons, ih]
      exact congrArg (fun s => (machine V x).exec s ops)
        (congrArg Prod.fst (apply_erase x p op))

theorem outs_erase (x : Bindings) (p : LuaPolicy (LoggedVm V))
    (ops : List (PolicyOp V)) :
    (machine _ x).outs p (ops.map PolicyOp.logged)
      = (machine V x).outs p.erase ops := by
  induction ops generalizing p with
  | nil => rfl
  | cons op ops ih =>
      have hop := apply_erase x p op
      rw [List.map_cons, Mealy.outs_cons, Mealy.outs_cons, ih]
      exact congrArg₂ List.cons (congrArg Prod.snd hop)
        (congrArg (fun s => (machine V x).outs s ops) (congrArg Prod.fst hop))

/-! ## §3. The latch. -/

/-- Counter and latch say what the record holds. -/
structure Latch (p : LuaPolicy (LoggedVm V)) : Prop where
  /-- The counter is the run of failures the record ends in. -/
  count : p.consecutiveErrors
    = Streak.trailing CallOutcome.isFailure p.lua.calls
  bound : p.consecutiveErrors ≤ FALLBACK_ERROR_THRESHOLD
  latched : p.permanentFallback = true
    ↔ p.consecutiveErrors = FALLBACK_ERROR_THRESHOLD
  /-- A run long enough is never outlived: no call follows it. -/
  history : Streak.Holds CallOutcome.isFailure FALLBACK_ERROR_THRESHOLD
      p.lua.calls
    ↔ p.consecutiveErrors = FALLBACK_ERROR_THRESHOLD

/-- A record just started holds nothing. -/
theorem Latch.start {p : LuaPolicy (LoggedVm V)} (hcalls : p.lua.calls = [])
    (herrors : p.consecutiveErrors = 0)
    (hlatch : p.permanentFallback = false) : Latch p where
  count := by rw [hcalls, herrors]; rfl
  bound := by rw [herrors]; exact Nat.zero_le _
  latched := by rw [hlatch, herrors]; decide
  history := by
    rw [hcalls, herrors]
    exact iff_of_false (Streak.holds_nil _) (by decide)

/-- The invariant reads three fields. -/
theorem Latch.congr {p q : LuaPolicy (LoggedVm V)} (hp : Latch p)
    (hcalls : q.lua.calls = p.lua.calls)
    (herrors : q.consecutiveErrors = p.consecutiveErrors)
    (hlatch : q.permanentFallback = p.permanentFallback) : Latch q where
  count := by rw [herrors, hcalls]; exact hp.count
  bound := by rw [herrors]; exact hp.bound
  latched := by rw [hlatch, herrors]; exact hp.latched
  history := by rw [hcalls, herrors]; exact hp.history

/-- One more call while the latch is down: the counter follows the record,
and the latch goes up when the counter reaches the threshold. -/
theorem Latch.call {p q : LuaPolicy (LoggedVm V)} (hp : Latch p)
    (hdown : p.permanentFallback = false) (o : CallOutcome)
    (hcalls : q.lua.calls = p.lua.calls ++ [o])
    (herrors : q.consecutiveErrors
      = if o.isFailure then p.consecutiveErrors + 1 else 0)
    (hlatch : q.permanentFallback
      = decide (FALLBACK_ERROR_THRESHOLD ≤ q.consecutiveErrors)) :
    Latch q := by
  have hne : p.consecutiveErrors ≠ FALLBACK_ERROR_THRESHOLD := by
    intro h
    rw [hp.latched.mpr h] at hdown
    exact absurd hdown (by simp)
  have hlt : p.consecutiveErrors < FALLBACK_ERROR_THRESHOLD :=
    Nat.lt_of_le_of_ne hp.bound hne
  have hbound : q.consecutiveErrors ≤ FALLBACK_ERROR_THRESHOLD := by
    rw [herrors]
    split
    next => exact hlt
    next => exact Nat.zero_le _
  refine ⟨?_, hbound, ?_, ?_⟩
  · rw [herrors, hcalls, Streak.trailing_concat, hp.count]
  · rw [hlatch, decide_eq_true_iff]
    exact ⟨fun h => Nat.le_antisymm hbound h, fun h => h.ge⟩
  · -- the run was not there before, so the last call completes it
    have hbefore : ¬ Streak.Holds CallOutcome.isFailure
        FALLBACK_ERROR_THRESHOLD p.lua.calls := fun h =>
      hne (hp.history.mp h)
    have hstep : Streak.Holds CallOutcome.isFailure FALLBACK_ERROR_THRESHOLD
          (p.lua.calls ++ [o])
        ↔ o.isFailure = true ∧ 2 ≤ p.consecutiveErrors := by
      rw [hp.count]
      exact Streak.holds_concat.trans (or_iff_right hbefore)
    rw [hcalls, hstep, herrors]
    unfold FALLBACK_ERROR_THRESHOLD at hlt ⊢
    cases o with
    | returned => simp [CallOutcome.isFailure]
    | failed =>
        simp only [CallOutcome.isFailure, true_and, if_true]
        omega

/-! ## §4. Every operation keeps it. -/

/-- A recorded call adds its outcome. -/
theorem logged_calls {invoke : Invoke V} {lua lua' : LoggedVm V} {ctx : Ctx}
    {result : Except String LuaValue}
    (h : Invoke.logged invoke lua ctx = (lua', result)) :
    lua'.calls = lua.calls ++ [outcomeOf result] := by
  unfold Invoke.logged at h
  injection h with hvm hres
  rw [← hvm, ← hres]

/-- What a signal does to the record, the counter and the latch. -/
theorem processSignal_calls (x : Bindings) (invoke : Invoke V)
    (signal : SystemSignal) (p : LuaPolicy (LoggedVm V)) :
    (p.permanentFallback = true
      ∧ (p.processSignal x (Invoke.logged invoke) signal).1.lua = p.lua
      ∧ (p.processSignal x (Invoke.logged invoke) signal).1.consecutiveErrors
        = p.consecutiveErrors
      ∧ (p.processSignal x (Invoke.logged invoke) signal).1.permanentFallback
        = true)
    ∨ (p.permanentFallback = false ∧ ∃ o,
      (p.processSignal x (Invoke.logged invoke) signal).1.lua.calls
        = p.lua.calls ++ [o]
      ∧ (p.processSignal x (Invoke.logged invoke) signal).1.consecutiveErrors
        = (if o.isFailure then p.consecutiveErrors + 1 else 0)
      ∧ (p.processSignal x (Invoke.logged invoke) signal).1.permanentFallback
        = decide (FALLBACK_ERROR_THRESHOLD
          ≤ (if o.isFailure then p.consecutiveErrors + 1 else 0))) := by
  obtain ⟨hlua, _, _, herr, hlatch, _, _⟩ := observe_frame p signal
  rcases callDecide_cases x (Invoke.logged invoke) (p.observe signal) signal
    with ⟨hup, hcall⟩ | ⟨hdown, lua, value, hinv, hcall⟩
      | ⟨hdown, lua, e, hinv, hcall⟩
  · -- latched: the VM is not called
    obtain ⟨n, hproc⟩ := processSignal_of_callDecide hcall
    rw [hproc]
    exact .inl ⟨hlatch ▸ hup, hlua, herr, hup⟩
  · -- whatever was returned, the counter starts over
    obtain ⟨n, hproc⟩ := processSignal_of_callDecide hcall
    rw [hproc]
    refine .inr ⟨hlatch ▸ hdown, .returned, ?_, rfl, hdown⟩
    exact hlua ▸ logged_calls hinv
  · -- one more failure, and the latch if it is the third
    obtain ⟨n, hproc⟩ := processSignal_of_callDecide hcall
    rw [hproc]
    refine .inr ⟨hlatch ▸ hdown, .failed, ?_, ?_, ?_⟩
    · exact hlua ▸ logged_calls hinv
    · show (p.observe signal).consecutiveErrors + 1 = _
      rw [herr]
      rfl
    · show decide (_ ≤ (p.observe signal).consecutiveErrors + 1) = _
      rw [herr]
      rfl

/-- What a reload does to them: all reset, or nothing. -/
theorem reloadScript_calls (l : Loader V) (path : Path)
    (p : LuaPolicy (LoggedVm V)) :
    (PolicyOutput.isReload (.reloaded (p.reloadScript l.logged path).2) = false
      ∧ (p.reloadScript l.logged path).1 = p)
    ∨ (PolicyOutput.isReload (.reloaded (p.reloadScript l.logged path).2) = true
      ∧ (p.reloadScript l.logged path).1.lua.calls = []
      ∧ (p.reloadScript l.logged path).1.consecutiveErrors = 0
      ∧ (p.reloadScript l.logged path).1.permanentFallback = false) := by
  rcases reloadScript_cases l.logged path p with ⟨e, _, h⟩ | ⟨lua, hload, h⟩
  · rw [h]
    exact .inl ⟨rfl, rfl⟩
  · rw [h]
    refine .inr ⟨rfl, ?_, rfl, rfl⟩
    -- the new VM has not been called
    rw [loadFresh_logged] at hload
    cases hl : loadFresh l path with
    | error e =>
        rw [hl] at hload
        exact absurd hload (by simp [Except.map])
    | ok vm =>
        rw [hl] at hload
        injection hload with hload
        show lua.calls = []
        rw [← hload]

/-- **Every operation keeps the invariant.** -/
theorem latch_step (x : Bindings) {p : LuaPolicy (LoggedVm V)} (hp : Latch p)
    (op : PolicyOp V) : Latch (p.apply x op.logged).1 := by
  cases op with
  | processSignal invoke signal =>
      show Latch (p.processSignal x (Invoke.logged invoke) signal).1
      rcases processSignal_calls x invoke signal p
        with ⟨hup, hlua, herr, hlatch⟩ | ⟨hdown, o, hcalls, herr, hlatch⟩
      · exact hp.congr (by rw [hlua]) herr (by rw [hlatch, hup])
      · exact hp.call hdown o hcalls herr (by rw [hlatch, herr])
  | updateEngineState msg =>
      obtain ⟨hlua, _, _, herr, hlatch, _⟩ := updateEngineState_frame p msg
      exact hp.congr (congrArg LoggedVm.calls hlua) herr hlatch
  | reloadScript loader path =>
      show Latch (p.reloadScript loader.logged path).1
      rcases reloadScript_calls loader path p
        with ⟨_, h⟩ | ⟨_, hcalls, herr, hlatch⟩
      · rw [h]
        exact hp
      · exact Latch.start hcalls herr hlatch

/-! ## §5. Whole runs. -/

/-- A new policy satisfies the invariant. -/
theorem latch_new {l : Loader V} {scriptPath : String}
    {config : AdaptationConfig} {p : LuaPolicy V}
    (hnew : new l scriptPath config = .ok p) : Latch p.recorded := by
  obtain ⟨lua, rfl⟩ := new_ok hnew
  exact Latch.start rfl rfl rfl

theorem latch_exec (x : Bindings) {p : LuaPolicy (LoggedVm V)} (hp : Latch p)
    (ops : List (PolicyOp V)) :
    Latch ((machine _ x).exec p (ops.map PolicyOp.logged)) := by
  induction ops generalizing p with
  | nil => exact hp
  | cons op ops ih => exact ih (latch_step x hp op)

/-- While the latch is up the VM is not touched, until a reload succeeds. -/
theorem latched_frozen (x : Bindings) {p : LuaPolicy (LoggedVm V)}
    (hup : p.permanentFallback = true) (ops : List (PolicyOp V))
    (hno : ∀ o ∈ (machine _ x).outs p (ops.map PolicyOp.logged),
      o.isReload = false) :
    ((machine _ x).exec p (ops.map PolicyOp.logged)).lua = p.lua := by
  induction ops generalizing p with
  | nil => rfl
  | cons op ops ih =>
      rw [List.map_cons, Mealy.outs_cons] at hno
      have hhead := hno _ List.mem_cons_self
      have htail := fun o ho => hno o (List.mem_cons_of_mem _ ho)
      -- one operation leaves both the latch and the VM
      have hstep : ((machine _ x).step p op.logged).1.permanentFallback = true
          ∧ ((machine _ x).step p op.logged).1.lua = p.lua := by
        cases op with
        | processSignal invoke signal =>
            rcases processSignal_calls x invoke signal p
              with ⟨_, hlua, _, hlatch⟩ | ⟨hdown, _⟩
            · exact ⟨hlatch, hlua⟩
            · exact absurd hup (by simp [hdown])
        | updateEngineState msg =>
            obtain ⟨hlua, _, _, _, hlatch, _⟩ := updateEngineState_frame p msg
            exact ⟨hlatch.trans hup, hlua⟩
        | reloadScript loader path =>
            rcases reloadScript_calls loader path p with ⟨_, h⟩ | ⟨h, _⟩
            · exact ⟨(congrArg permanentFallback h).trans hup,
                congrArg LuaPolicy.lua h⟩
            · exact absurd (h.symm.trans hhead) (by simp)
      rw [List.map_cons, Mealy.exec_cons, ih hstep.1 htail, hstep.2]

/-- What one operation adds to the record: a reload that succeeds clears it,
a call is entered with how it ended, and nothing else is. -/
theorem apply_calls (x : Bindings) (p : LuaPolicy (LoggedVm V))
    (op : PolicyOp V) :
    ((p.apply x op.logged).2.isReload = true →
      (p.apply x op.logged).1.lua.calls = [])
    ∧ ((p.apply x op.logged).2.isReload = false →
      (p.apply x op.logged).1.lua.calls = p.lua.calls
      ∨ ∃ o, (p.apply x op.logged).1.lua.calls = p.lua.calls ++ [o]
        ∧ (o = .returned →
          (p.apply x op.logged).1.consecutiveErrors = 0)) := by
  cases op with
  | processSignal invoke signal =>
      refine ⟨fun h => absurd h (by
        simp [apply, PolicyOp.logged, PolicyOutput.isReload]), fun _ => ?_⟩
      rcases processSignal_calls x invoke signal p
        with ⟨_, hlua, _⟩ | ⟨_, o, hcalls, herr, _⟩
      · exact .inl (congrArg LoggedVm.calls hlua)
      · refine .inr ⟨o, hcalls, ?_⟩
        rintro rfl
        exact herr
  | updateEngineState msg =>
      refine ⟨fun h => absurd h (by
        simp [apply, PolicyOp.logged, PolicyOutput.isReload]), fun _ => ?_⟩
      exact .inl (congrArg LoggedVm.calls (updateEngineState_frame p msg).1)
  | reloadScript loader path =>
      rcases reloadScript_calls loader path p with ⟨hno, h⟩ | ⟨hyes, h, _⟩
      · exact ⟨fun hyes => absurd (hno.symm.trans hyes) (by simp),
          fun _ => .inl (congrArg (fun q => q.lua.calls) h)⟩
      · exact ⟨fun _ => h,
          fun hno => absurd (hno.symm.trans hyes) (by simp)⟩

/-- **The latch is up exactly when the record since construction or the last
successful reload holds three failures in a row.**  The counter never passes
three, a latched policy leaves its script alone until a reload succeeds, and a
call that returns, whatever it returns, resets the counter. -/
theorem latch_iff_three_failures (x : Bindings) (l : Loader V)
    (scriptPath : String) (config : AdaptationConfig) (p₀ : LuaPolicy V)
    (hnew : new l scriptPath config = .ok p₀) (ops : List (PolicyOp V)) :
    let p := (machine V x).exec p₀ ops
    let record := callRecord x p₀
    (p.permanentFallback = true
        ↔ Streak.Holds CallOutcome.isFailure 3 (record ops))
    ∧ p.consecutiveErrors ≤ 3
    ∧ (p.permanentFallback = true → ∀ ops' : List (PolicyOp V),
        (∀ o ∈ (machine V x).outs p ops', o.isReload = false) →
        record (ops ++ ops') = record ops)
    ∧ ∀ op : PolicyOp V,
        ((p.apply x op).2.isReload = true → record (ops ++ [op]) = [])
        ∧ ((p.apply x op).2.isReload = false →
          record (ops ++ [op]) = record ops
          ∨ ∃ o, record (ops ++ [op]) = record ops ++ [o]
            ∧ (o = .returned → (p.apply x op).1.consecutiveErrors = 0)) := by
  intro p record
  -- the recorded run, and what dropping the record makes of it
  let q := (machine _ x).exec p₀.recorded (ops.map PolicyOp.logged)
  have hq : Latch q := latch_exec x (latch_new hnew) ops
  have hpq : q.erase = p := exec_erase x p₀.recorded ops
  have hup : p.permanentFallback = q.permanentFallback := by
    rw [← hpq]
    rfl
  have herrors : p.consecutiveErrors = q.consecutiveErrors := by
    rw [← hpq]
    rfl
  have happend : ∀ ops', record (ops ++ ops')
      = ((machine _ x).exec q (ops'.map PolicyOp.logged)).lua.calls := by
    intro ops'
    show callRecord x p₀ (ops ++ ops') = _
    unfold callRecord
    rw [List.map_append, Mealy.exec_append]
  refine ⟨?_, ?_, ?_, ?_⟩
  · rw [hup]
    exact hq.latched.trans hq.history.symm
  · rw [herrors]
    exact hq.bound
  · intro hlatched ops' hno
    rw [happend]
    refine congrArg LoggedVm.calls
      (latched_frozen x (hup.symm.trans hlatched) ops' ?_)
    rw [outs_erase, hpq]
    exact hno
  · intro op
    have hop := apply_erase x q op
    rw [hpq] at hop
    rw [happend, ← hop]
    exact apply_calls x q op

/-- After three calls that fail, none is made until a reload. -/
theorem latched_after_three_failures :
    let fail : PolicyOp Unit := .processSignal (fun _ _ => ((), .error "boom"))
      (.energyConstraint .normal .none 0)
    let p₀ := fresh () "policy.lua" none AdaptationConfig.default
    let record := callRecord Bindings.exact p₀
    ((machine Unit Bindings.exact).exec p₀ [fail, fail, fail]).permanentFallback
        = true
      ∧ record ([fail, fail, fail] ++ [fail])
        = [.failed, .failed, .failed] := by
  intro fail p₀ record
  obtain ⟨hlatch, _, hfrozen, _⟩ := latch_iff_three_failures Bindings.exact
    Loader.loadsAlways "policy.lua" AdaptationConfig.default p₀ rfl
    [fail, fail, fail]
  have hup := hlatch.mpr ⟨[.failed, .failed, .failed], List.infix_refl _, rfl,
    by decide⟩
  exact ⟨hup, hfrozen hup [fail] (by decide)⟩

end ArgusManager.LuaPolicy
