/-
  ArgusManager.LuaPolicy.Reload
  ─────────────────────────────
  **A reload happens completely or not at all.**

  `LoadFails` lists the places where building the new VM can stop, each with
  the answers that came before it and the error it is reported under; `Loads`
  is the one way through all of them.

    • `reload_atomic` — a load that fails leaves the whole policy as it was,
      one that succeeds swaps the script's five fields and keeps the others,
    • `failed_reload_invisible` — a session with a failed reload in it goes on
      as if it had never been asked for.
-/
import ArgusManager.LuaPolicy.Runs

namespace ArgusManager.LuaPolicy

variable {V : Type} {l : Loader V} {path : Path}

/-! ## §1. Where a load can stop. -/

/-- Everything before the script is read went well. -/
structure Prepared (l : Loader V) (path : Path) (pathStr : String)
    (vm : V) : Prop where
  toStr : path.toStr = some pathStr
  helpers : l.registerSysHelpers l.newVm = .ok vm

/-- The script was read and evaluated. -/
structure Evaluated (l : Loader V) (path : Path) (pathStr : String)
    (lua : V) : Prop where
  exec : ∃ vm script, Prepared l path pathStr vm
    ∧ l.readToString pathStr = .ok script ∧ l.exec vm script = .ok lua

/-- The load stops, and why. -/
inductive LoadFails (l : Loader V) (path : Path) : String → Prop
  | nonUtf8 (h : path.toStr = none) :
      LoadFails l path "non-UTF-8 script path"
  | helpers {pathStr e : String} (hpath : path.toStr = some pathStr)
      (h : l.registerSysHelpers l.newVm = .error e) :
      LoadFails l path s!"Failed to register sys helpers: {e}"
  | unreadable {pathStr e : String} {vm : V} (hprep : Prepared l path pathStr vm)
      (h : l.readToString pathStr = .error e) :
      LoadFails l path s!"Failed to read Lua script {pathStr}: {e}"
  | evaluation {pathStr script e : String} {vm : V}
      (hprep : Prepared l path pathStr vm)
      (hread : l.readToString pathStr = .ok script)
      (h : l.exec vm script = .error e) :
      LoadFails l path s!"Failed to evaluate Lua script {pathStr}: {e}"
  | lookup {pathStr e : String} {lua : V} (heval : Evaluated l path pathStr lua)
      (h : l.getDecide lua = .error e) :
      LoadFails l path s!"Failed to get 'decide' global: {e}"
  | noDecide {pathStr : String} {lua : V} {decide : LuaValue}
      (heval : Evaluated l path pathStr lua)
      (hget : l.getDecide lua = .ok decide)
      (h : decide.isFunction = false) :
      LoadFails l path
        s!"Lua script {pathStr} must define a global `decide(ctx)` function"

/-- The script loads into the VM `lua`. -/
structure Loads (l : Loader V) (path : Path) (lua : V) : Prop where
  evaluated : ∃ pathStr, Evaluated l path pathStr lua
  decide : ∃ decide, l.getDecide lua = .ok decide ∧ decide.isFunction = true

/-- A load either stops somewhere or goes through. -/
theorem fails_or_loads (l : Loader V) (path : Path) :
    (∃ e, LoadFails l path e) ∨ ∃ lua, Loads l path lua := by
  cases hpath : path.toStr with
  | none => exact .inl ⟨_, .nonUtf8 hpath⟩
  | some pathStr =>
      cases hvm : l.registerSysHelpers l.newVm with
      | error e => exact .inl ⟨_, .helpers hpath hvm⟩
      | ok vm =>
          have hprep : Prepared l path pathStr vm := ⟨hpath, hvm⟩
          cases hread : l.readToString pathStr with
          | error e => exact .inl ⟨_, .unreadable hprep hread⟩
          | ok script =>
              cases hexec : l.exec vm script with
              | error e => exact .inl ⟨_, .evaluation hprep hread hexec⟩
              | ok lua =>
                  have heval : Evaluated l path pathStr lua :=
                    ⟨vm, script, hprep, hread, hexec⟩
                  cases hget : l.getDecide lua with
                  | error e => exact .inl ⟨_, .lookup heval hget⟩
                  | ok decide =>
                      cases hfun : decide.isFunction with
                      | false => exact .inl ⟨_, .noDecide heval hget hfun⟩
                      | true =>
                          exact .inr ⟨lua, ⟨pathStr, heval⟩, decide, hget, hfun⟩

/-! ## §2. What the loader makes of it. -/

theorem loadFresh_of_toStr {pathStr : String}
    (hpath : path.toStr = some pathStr) :
    loadFresh l path
      = (freshVm l).bind fun lua => loadScript l lua pathStr := by
  unfold loadFresh
  rw [hpath]
  rfl

/-- Once the VM stands, loading is loading the script into it. -/
theorem Prepared.loadFresh {pathStr : String} {vm : V}
    (hprep : Prepared l path pathStr vm) :
    loadFresh l path = loadScript l vm pathStr := by
  rw [loadFresh_of_toStr hprep.toStr, freshVm, hprep.helpers]
  rfl

/-- Once the script is evaluated, all that is left is to look for `decide`. -/
theorem Evaluated.loadFresh {pathStr : String} {lua : V}
    (heval : Evaluated l path pathStr lua) :
    loadFresh l path
      = ((l.getDecide lua).mapError fun e =>
          s!"Failed to get 'decide' global: {e}").bind fun decide =>
        if decide.isFunction then .ok lua
        else .error
          s!"Lua script {pathStr} must define a global `decide(ctx)` function" := by
  obtain ⟨vm, script, hprep, hread, hexec⟩ := heval.exec
  rw [hprep.loadFresh, loadScript, hread]
  show (((l.exec vm script).mapError _).bind _ : Except String V) = _
  rw [hexec]
  rfl

theorem LoadFails.loadFresh {e : String} (h : LoadFails l path e) :
    loadFresh l path = .error e := by
  cases h with
  | nonUtf8 h =>
      unfold LuaPolicy.loadFresh
      rw [h]
  | helpers hpath h =>
      rw [loadFresh_of_toStr hpath, freshVm, h]
      rfl
  | unreadable hprep h =>
      rw [hprep.loadFresh, loadScript, h]
      rfl
  | @evaluation pathStr script e vm hprep hread h =>
      rw [hprep.loadFresh, loadScript, hread]
      show (((l.exec vm script).mapError _).bind _ : Except String V) = _
      rw [h]
      rfl
  | lookup heval h =>
      rw [heval.loadFresh, h]
      rfl
  | @noDecide pathStr lua decide heval hget h =>
      rw [heval.loadFresh, hget]
      show (if decide.isFunction = true then (.ok lua : Except String V)
        else _) = _
      rw [h]
      rfl

theorem Loads.loadFresh {lua : V} (h : Loads l path lua) :
    loadFresh l path = .ok lua := by
  obtain ⟨⟨pathStr, heval⟩, decide, hget, hfun⟩ := h
  rw [heval.loadFresh, hget]
  show (if decide.isFunction = true then (.ok lua : Except String V)
    else _) = _
  rw [if_pos hfun]

/-! ## §3. All or nothing. -/

/-- The policy runs the script just loaded, with a clean record. -/
structure Swapped (l : Loader V) (path : Path) (vm : V)
    (p : LuaPolicy V) : Prop where
  lua : p.lua = vm
  policyMeta : p.policyMeta = l.logPolicyMeta vm
  scriptPath : p.scriptPath = path
  consecutiveErrors : p.consecutiveErrors = 0
  permanentFallback : p.permanentFallback = false

/-- What the policy has learnt of the device and the engine is still there. -/
structure Kept (p p' : LuaPolicy V) : Prop where
  signalState : p'.signalState = p.signalState
  triggerEngine : p'.triggerEngine = p.triggerEngine
  engineState : p'.engineState = p.engineState
  droppedActions : p'.droppedActions = p.droppedActions
  adaptationConfig : p'.adaptationConfig = p.adaptationConfig
  seqCounter : p'.seqCounter = p.seqCounter

/-- A load that stops leaves the policy alone. -/
theorem LoadFails.reloadScript {e : String} (h : LoadFails l path e)
    (p : LuaPolicy V) : p.reloadScript l path = (p, .error e) := by
  unfold LuaPolicy.reloadScript
  rw [h.loadFresh]

theorem Loads.reloadScript {lua : V} (h : Loads l path lua)
    (p : LuaPolicy V) :
    p.reloadScript l path
      = ({ p with
            policyMeta := l.logPolicyMeta lua
            lua
            scriptPath := path
            consecutiveErrors := 0
            permanentFallback := false }, .ok ()) := by
  unfold LuaPolicy.reloadScript
  rw [h.loadFresh]

/-- **A reload is atomic**: wherever the load stops, the reload reports why and
the policy is what it was, field by field; a load that goes through swaps the
VM, the metadata and the path, clears both failure fields, and keeps
everything else; and every load does one or the other. -/
theorem reload_atomic (l : Loader V) (path : Path) (p : LuaPolicy V) :
    (∀ e, LoadFails l path e → p.reloadScript l path = (p, .error e))
      ∧ (∀ lua, Loads l path lua →
          ∃ p', p.reloadScript l path = (p', .ok ())
            ∧ Swapped l path lua p' ∧ Kept p p')
      ∧ ((∃ e, LoadFails l path e) ∨ ∃ lua, Loads l path lua) := by
  refine ⟨?_, ?_, fails_or_loads l path⟩
  · intro e h
    exact h.reloadScript p
  · intro lua h
    exact ⟨_, h.reloadScript p, ⟨rfl, rfl, rfl, rfl, rfl⟩,
      ⟨rfl, rfl, rfl, rfl, rfl, rfl⟩⟩

/-- A failed reload anywhere in a session can be taken out of it: every other
call is answered as it was. -/
theorem failed_reload_invisible (x : Bindings) (p : LuaPolicy V)
    (ops : List (PolicyOp V)) (i : ℕ) {e : String}
    (hi : ops[i]? = some (.reloadScript l path)) (h : LoadFails l path e) :
    (machine V x).outs p (ops.eraseIdx i)
      = ((machine V x).outs p ops).eraseIdx i := by
  refine Mealy.outs_eraseIdx _ p ops i ?_
  intro op hop
  rw [hi] at hop
  injection hop with hop
  subst hop
  generalize (machine V x).exec p (ops.take i) = q
  show (q.reloadScript l path).1 = q
  rw [h.reloadScript]

end ArgusManager.LuaPolicy
