/-
  ArgusManager.Bin.MockEngine
  ───────────────────────────
  **The mock engine** (`run_protocol` of `src/bin/mock_engine.rs`): its state,
  what a command does to it, and its main loop.

  One pass through the loop reads the clock, may send a heartbeat, reads at
  most one directive and answers it.  How each read and write ends is an input.
  The occupancy is an `f32`, and so is every step of its arithmetic: how a
  compression ends can depend on the last digit.

    • `apply_kvCompress` — a compression takes almost three points off the
                           occupancy, or it is declined and changes nothing,
    • `pass_spec`        — everything one pass can do,
    • `compressions_bounded` — so only so many compressions are accepted.
-/
import ArgusManager.Float.Round
import ArgusManager.Lib.Mealy

namespace ArgusManager.MockEngine

/-! ## §1. The engine. -/

/-- `EngineState_`. -/
structure Engine where
  kvOccupancy : FloatVal
  activeDevice : String
  throttleDelayMs : Nat
  evictionPolicy : String
  skipRatio : FloatVal
  state : EngineState
  tokensGenerated : Nat
  activeActions : List String
  deriving Repr

/-- Smallest occupancy delta the mock will act on: `0.03` as an `f32`. -/
def MIN_COMPRESSION : FloatVal := .fin (16106127 / 2 ^ 29)

example : FloatVal.binary32.round (3 / 100) = 16106127 / 2 ^ 29 := by
  decide +kernel

namespace Engine

def new (kvOccupancy : FloatVal) (device : String) : Engine where
  kvOccupancy := kvOccupancy
  activeDevice := device
  throttleDelayMs := 0
  evictionPolicy := "none"
  skipRatio := .fin 0
  state := .running
  tokensGenerated := 0
  activeActions := []

/-- `0.01` as an `f32`. -/
def MIN_OCCUPANCY : ℚ := 5368709 / 2 ^ 29

/-- `x.clamp(0.01, 1.0)`. -/
def clampOccupancy (x : FloatVal) : FloatVal :=
  if x < .fin MIN_OCCUPANCY then .fin MIN_OCCUPANCY
  else if .fin 1 < x then .fin 1
  else x

def declined : CommandResult :=
  .partially (.fin 1) "compression declined: too little would be reclaimed"

def apply (e : Engine) : EngineCommand → Engine × CommandResult
  | .kvCompress budget =>
      let before := e.kvOccupancy
      let target := clampOccupancy (before * budget).toF32
      if (before - target).toF32 < MIN_COMPRESSION then (e, declined)
      else ({ e with kvOccupancy := target }, .ok)
  | .restoreDefaults =>
      ({ e with activeActions := [], skipRatio := .fin 0, state := .running },
        .ok)
  | .suspend => ({ e with state := .suspended }, .ok)
  | .resume => ({ e with state := .running }, .ok)
  | .gpuYield _ => (e, .ok)
  | .gpuOffload _ => (e, .ok)

/-- The heartbeat body: the mock reports a running engine whatever its
state. -/
def status (_ : Engine) : EngineStatus where
  kvCacheBytes := 1024
  kvCacheBudgetBytes := 4096
  kvCacheTokens := 32
  tbtMs := .fin (25 / 2)
  phase := .decode
  state := .running

/-- The commands of a directive one after the other, one result each. -/
def applyAll (e : Engine) : List EngineCommand → Engine × List CommandResult
  | [] => (e, [])
  | cmd :: cmds =>
      let (e, result) := e.apply cmd
      let (e, results) := e.applyAll cmds
      (e, result :: results)

@[simp] theorem applyAll_nil (e : Engine) : e.applyAll [] = (e, []) := rfl

theorem applyAll_cons (e : Engine) (cmd : EngineCommand)
    (cmds : List EngineCommand) :
    e.applyAll (cmd :: cmds)
      = (((e.apply cmd).1.applyAll cmds).1,
          (e.apply cmd).2 :: ((e.apply cmd).1.applyAll cmds).2) :=
  rfl

theorem applyAll_append (e : Engine) (xs ys : List EngineCommand) :
    e.applyAll (xs ++ ys)
      = (((e.applyAll xs).1.applyAll ys).1,
          (e.applyAll xs).2 ++ ((e.applyAll xs).1.applyAll ys).2) := by
  induction xs generalizing e with
  | nil => rfl
  | cons cmd xs ih =>
      rw [List.cons_append, applyAll_cons, ih, applyAll_cons]
      rfl

theorem applyAll_concat (e : Engine) (cmds : List EngineCommand)
    (cmd : EngineCommand) :
    e.applyAll (cmds ++ [cmd])
      = (((e.applyAll cmds).1.apply cmd).1,
          (e.applyAll cmds).2 ++ [((e.applyAll cmds).1.apply cmd).2]) :=
  applyAll_append e cmds [cmd]

@[simp] theorem length_applyAll (e : Engine) (cmds : List EngineCommand) :
    (e.applyAll cmds).2.length = cmds.length := by
  induction cmds generalizing e with
  | nil => rfl
  | cons cmd cmds ih =>
      rw [applyAll_cons, List.length_cons, List.length_cons, ih]

theorem apply_kvCompress_eq (e : Engine) (budget : FloatVal) :
    e.apply (.kvCompress budget)
      = let target := clampOccupancy (e.kvOccupancy * budget).toF32
        if (e.kvOccupancy - target).toF32 < MIN_COMPRESSION then (e, declined)
        else ({ e with kvOccupancy := target }, .ok) :=
  rfl

/-- The engine but for its token count, which no command looks at. -/
def untimed (e : Engine) : Engine := { e with tokensGenerated := 0 }

theorem apply_untimed (e : Engine) (cmd : EngineCommand) :
    e.untimed.apply cmd = ((e.apply cmd).1.untimed, (e.apply cmd).2) := by
  cases cmd with
  | kvCompress budget =>
      have hsame : e.untimed.kvOccupancy = e.kvOccupancy := rfl
      rw [apply_kvCompress_eq, apply_kvCompress_eq, hsame]
      dsimp only
      split
      · rfl
      · rfl
  | restoreDefaults => rfl
  | suspend => rfl
  | resume => rfl
  | gpuYield every => rfl
  | gpuOffload on => rfl

/-- Engines that differ in the token count are equally full. -/
theorem kvOccupancy_of_untimed {e e' : Engine} (h : e.untimed = e'.untimed) :
    e.kvOccupancy = e'.kvOccupancy :=
  congrArg (fun engine => engine.kvOccupancy) h

theorem applyAll_untimed (e : Engine) (cmds : List EngineCommand) :
    e.untimed.applyAll cmds
      = ((e.applyAll cmds).1.untimed, (e.applyAll cmds).2) := by
  induction cmds generalizing e with
  | nil => rfl
  | cons cmd cmds ih =>
      rw [applyAll_cons, apply_untimed, ih, applyAll_cons]

end Engine

/-- The answer to a directive in `handle_directive`, and the engine after
it. -/
def handleDirective (directive : EngineDirective) (engine : Engine) :
    Engine × CommandResponse :=
  let (engine, results) := engine.applyAll directive.commands
  (engine, { seqId := directive.seqId, results })

/-! ## §2. The main loop. -/

structure Args where
  /-- Heartbeat send interval in milliseconds. -/
  heartbeatMs : Nat
  /-- Simulated KV cache occupancy. -/
  kvOccupancy : FloatVal
  device : String
  durationSecs : Nat

/-- The locals of `run_protocol`, times in milliseconds since its start. -/
structure Loop where
  engine : Engine
  lastHeartbeat : Nat
  directivesReceived : Nat
  heartbeatsSent : Nat
  /-- The loop has not been left. -/
  running : Bool

def Loop.start (args : Args) : Loop where
  engine := .new args.kvOccupancy args.device
  lastHeartbeat := 0
  directivesReceived := 0
  heartbeatsSent := 0
  running := true

/-- What a pass finds outside. -/
structure Surroundings where
  /-- The clock at the test of the loop, at that of the heartbeat, and after
  the heartbeat. -/
  testAt : Nat
  checkAt : Nat
  beatAt : Nat
  /-- Whether the heartbeat, and the response, are written. -/
  beatWritten : Bool
  responseWritten : Bool
  /-- How `recv_message` ends: `none` is a timeout. -/
  received : Except String (Option ManagerMessage)

/-- What a pass put on the wire, and the answer it worked out. -/
structure Report where
  sent : List EngineMessage
  answered : Option (EngineDirective × CommandResponse)

/-- The heartbeat of a pass. -/
def Loop.beat (args : Args) (env : Surroundings) (s : Loop) :
    Loop × List EngineMessage :=
  if env.checkAt - s.lastHeartbeat ≥ args.heartbeatMs then
    let engine :=
      { s.engine with tokensGenerated := s.engine.tokensGenerated + 1 }
    if env.beatWritten then
      ({ s with
          engine
          heartbeatsSent := s.heartbeatsSent + 1
          lastHeartbeat := env.beatAt }, [.heartbeat engine.status])
    else
      -- "Heartbeat send error … exiting"
      ({ s with engine, running := false }, [])
  else (s, [])

/-- The read of a pass. -/
def Loop.receive (env : Surroundings) (s : Loop) : Loop × Report :=
  match env.received with
  | .ok (some (.directive directive)) =>
      let (engine, response) := handleDirective directive s.engine
      ({ s with engine, directivesReceived := s.directivesReceived + 1 },
        { sent := if env.responseWritten then [.response response] else []
          answered := some (directive, response) })
  | .ok none => (s, ⟨[], none⟩)
  | .error _ => ({ s with running := false }, ⟨[], none⟩)

/-- One pass of the `while` loop of `run_protocol`. -/
def Loop.pass (args : Args) (env : Surroundings) (s : Loop) : Loop × Report :=
  if s.running && env.testAt < args.durationSecs * 1000 then
    let (s, beats) := s.beat args env
    if s.running then
      let (s, report) := s.receive env
      (s, { report with sent := beats ++ report.sent })
    else (s, ⟨beats, none⟩)
  else ({ s with running := false }, ⟨[], none⟩)

/-- The loop, whatever it finds outside. -/
def runProtocol (args : Args) : Mealy Loop Surroundings Report where
  step s env := s.pass args env

/-! ## §3. Compressions. -/

theorem clampOccupancy_spec {x : FloatVal} (h : x ≠ .nan) :
    ∃ t, Engine.clampOccupancy x = .fin t ∧ Engine.MIN_OCCUPANCY ≤ t
      ∧ t ≤ 1 := by
  have hone : Engine.MIN_OCCUPANCY ≤ 1 := by
    unfold Engine.MIN_OCCUPANCY
    norm_num
  unfold Engine.clampOccupancy
  split
  · exact ⟨_, rfl, le_refl _, hone⟩
  next hlow =>
    split
    · exact ⟨1, rfl, hone, le_refl _⟩
    next hhigh =>
      cases x with
      | nan => exact absurd rfl h
      | negInf => exact absurd rfl hlow
      | posInf => exact absurd rfl hhigh
      | fin t =>
          refine ⟨t, rfl, ?_, ?_⟩
          · exact not_lt.mp fun hlt => hlow (decide_eq_true hlt)
          · exact not_lt.mp fun hlt => hhigh (decide_eq_true hlt)

/-- A positive occupancy times a number is a number. -/
theorem fin_mul_ne_nan {q : ℚ} (hq : 0 < q) {budget : FloatVal}
    (h : budget ≠ .nan) : FloatVal.fin q * budget ≠ .nan := by
  cases budget with
  | nan => exact absurd rfl h
  | fin b => exact FloatVal.noConfusion
  | posInf =>
      show FloatVal.signed q ≠ .nan
      rw [FloatVal.signed_pos hq]
      exact FloatVal.noConfusion
  | negInf =>
      show FloatVal.signed (-q) ≠ .nan
      rw [FloatVal.signed_neg (neg_lt_zero.mpr hq)]
      exact FloatVal.noConfusion

/-- What is enough for the mock as an `f32` difference is at least 2.9 points
before rounding. -/
theorem enough_of_not_lt {x : ℚ}
    (h : ¬ (FloatVal.fin x).toF32 < MIN_COMPRESSION) : 29 / 1000 ≤ x := by
  have hround : 16106127 / 2 ^ 29 ≤ FloatVal.binary32.round x :=
    FloatVal.le_round_of_not_lt (by norm_num) h
  have herror := (abs_le.mp (FloatVal.binary32.abs_round_sub_le x)).2
  -- one part in 2 ^ 24, and next to nothing
  have hprecision : (2 : ℚ) ^ FloatVal.binary32.precision = 2 ^ 24 := rfl
  have hleast : (2 : ℚ) ^ FloatVal.binary32.least ≤ 1 / 2 ^ 24 := by
    show (2 : ℚ) ^ (-149 : ℤ) ≤ 1 / 2 ^ 24
    norm_num
  rw [hprecision] at herror
  by_contra hsmall
  rcases abs_cases x with ⟨habs, _⟩ | ⟨habs, _⟩
  · rw [habs] at herror
    linarith
  · rw [habs] at herror
    linarith

/-- **A compression** takes at least 2.9 points off the occupancy, or it is
declined and nothing changes. -/
theorem apply_kvCompress {e : Engine} {q : ℚ} (hocc : e.kvOccupancy = .fin q)
    (hq : 0 < q) {budget : FloatVal} (h : budget ≠ .nan) :
    e.apply (.kvCompress budget) = (e, Engine.declined)
      ∨ ∃ t, Engine.MIN_OCCUPANCY ≤ t ∧ t + 29 / 1000 ≤ q
          ∧ e.apply (.kvCompress budget)
            = ({ e with kvOccupancy := .fin t }, .ok) := by
  have hproduct : (FloatVal.fin q * budget).toF32 ≠ .nan :=
    FloatVal.rounded_ne_nan _ _ (fin_mul_ne_nan hq h)
  obtain ⟨t, ht, hlow, _⟩ := clampOccupancy_spec hproduct
  rw [Engine.apply_kvCompress_eq, hocc]
  dsimp only
  rw [ht, FloatVal.fin_sub]
  by_cases hsmall : (FloatVal.fin (q - t)).toF32 < MIN_COMPRESSION
  · left
    rw [if_pos hsmall]
  · right
    have henough := enough_of_not_lt hsmall
    exact ⟨t, hlow, by linarith, if_neg hsmall⟩

/-! ## §4. How many compressions are accepted. -/

/-- The command is a compression and is answered with `Ok`. -/
def accepted : EngineCommand → CommandResult → Bool
  | .kvCompress _, .ok => true
  | _, _ => false

/-- How many compressions of a directive its answer accepts. -/
def acceptedIn (d : EngineDirective) (response : CommandResponse) : Nat :=
  (d.commands.zip response.results).countP fun (cmd, result) =>
    accepted cmd result

/-- A number: what a budget is on the wire, where JSON has no NaN. -/
def Budgeted : EngineCommand → Prop
  | .kvCompress budget => budget ≠ .nan
  | _ => True

/-- `n` compressions have been accepted since the occupancy was `start`. -/
structure Spent (start : ℚ) (n : Nat) (e : Engine) : Prop where
  left : ∃ q, e.kvOccupancy = .fin q ∧ 0 < q ∧ q + n * (29 / 1000) ≤ start
    ∧ (0 < n → Engine.MIN_OCCUPANCY ≤ q)

theorem Spent.congr {start : ℚ} {n : Nat} {e e' : Engine}
    (h : Spent start n e) (hocc : e'.kvOccupancy = e.kvOccupancy) :
    Spent start n e' where
  left := by
    rw [hocc]
    exact h.left

/-- One command. -/
theorem Spent.apply {start : ℚ} {n : Nat} {e : Engine} (h : Spent start n e)
    {cmd : EngineCommand} (hcmd : Budgeted cmd) :
    Spent start (n + (accepted cmd (e.apply cmd).2).toNat)
      (e.apply cmd).1 := by
  cases cmd with
  | kvCompress budget =>
      obtain ⟨q, hocc, hq, hsum, hlow⟩ := h.left
      rcases apply_kvCompress hocc hq hcmd with happly | ⟨t, htlow, ht, happly⟩
      · rw [happly]
        exact h
      · rw [happly]
        have hpos : 0 < t := by
          refine lt_of_lt_of_le ?_ htlow
          unfold Engine.MIN_OCCUPANCY
          norm_num
        refine ⟨t, rfl, hpos, ?_, fun _ => htlow⟩
        show t + ((n + 1 : Nat) : ℚ) * (29 / 1000) ≤ start
        push_cast
        linarith
  | restoreDefaults => exact h.congr rfl
  | suspend => exact h.congr rfl
  | resume => exact h.congr rfl
  | gpuYield every => exact h
  | gpuOffload on => exact h

/-- The commands of a directive. -/
theorem Spent.applyAll {start : ℚ} {n : Nat} {e : Engine}
    (h : Spent start n e) {cmds : List EngineCommand}
    (hcmds : ∀ cmd ∈ cmds, Budgeted cmd) :
    Spent start
      (n + (cmds.zip (e.applyAll cmds).2).countP
        fun (cmd, result) => accepted cmd result)
      (e.applyAll cmds).1 := by
  induction cmds generalizing n e with
  | nil => exact h
  | cons cmd cmds ih =>
      have hone := h.apply (hcmds cmd List.mem_cons_self)
      have hrest := ih hone fun c hc => hcmds c (List.mem_cons_of_mem _ hc)
      rw [Engine.applyAll_cons, List.zip_cons_cons, List.countP_cons]
      rw [Nat.add_assoc, Nat.add_comm (Bool.toNat _)] at hrest
      cases hacc : accepted cmd (e.apply cmd).2 with
      | true =>
          rw [hacc] at hrest
          simpa [hacc] using hrest
      | false =>
          rw [hacc] at hrest
          simpa [hacc] using hrest

/-! ## §5. Runs. -/

/-- The message that a pass writes in answer to a directive. -/
def Surroundings.answer (env : Surroundings) (response : CommandResponse) :
    List EngineMessage :=
  if env.responseWritten then [.response response] else []

/-- **Everything a pass can do**: it sends heartbeats, and answers at most one
directive. -/
inductive Passes (env : Surroundings) (s : Loop) : Loop → Report → Prop
  | quiet {s' : Loop} (statuses : List EngineStatus)
      (hengine : s'.engine.untimed = s.engine.untimed) :
      Passes env s s' ⟨statuses.map .heartbeat, none⟩
  | answered {d : EngineDirective} {s' : Loop} (statuses : List EngineStatus)
      (e : Engine) (he : e.untimed = s.engine.untimed)
      (hread : env.received = .ok (some (.directive d)))
      (hengine : s'.engine = (e.applyAll d.commands).1) :
      Passes env s s'
        ⟨statuses.map .heartbeat
            ++ env.answer ⟨d.seqId, (e.applyAll d.commands).2⟩,
          some (d, ⟨d.seqId, (e.applyAll d.commands).2⟩)⟩

/-- A heartbeat is all that its part of a pass can send. -/
theorem beat_spec (args : Args) (env : Surroundings) (s : Loop) :
    (∃ statuses : List EngineStatus,
        (s.beat args env).2 = statuses.map .heartbeat)
      ∧ (s.beat args env).1.engine.untimed = s.engine.untimed := by
  unfold Loop.beat
  split
  · dsimp only
    split
    · exact ⟨⟨[_], rfl⟩, rfl⟩
    · exact ⟨⟨[], rfl⟩, rfl⟩
  · exact ⟨⟨[], rfl⟩, rfl⟩

theorem pass_spec (args : Args) (env : Surroundings) (s : Loop) :
    Passes env s (s.pass args env).1 (s.pass args env).2 := by
  unfold Loop.pass
  split
  · have hbeat := beat_spec args env s
    generalize s.beat args env = beaten at hbeat ⊢
    obtain ⟨s', beats⟩ := beaten
    obtain ⟨⟨statuses, hbeats⟩, hengine⟩ := hbeat
    dsimp only at hbeats hengine ⊢
    subst hbeats
    split
    · unfold Loop.receive
      cases hread : env.received with
      | error e =>
          dsimp only
          rw [List.append_nil]
          exact .quiet statuses hengine
      | ok msg =>
          cases msg with
          | none =>
              dsimp only
              rw [List.append_nil]
              exact .quiet statuses hengine
          | some msg =>
              obtain ⟨d⟩ := msg
              exact .answered statuses s'.engine hengine hread rfl
    · exact .quiet statuses hengine
  · exact .quiet [] rfl

/-- The budgets of a directive that a pass reads are numbers. -/
def Surroundings.Wellformed (env : Surroundings) : Prop :=
  ∀ d, env.received = .ok (some (.directive d)) →
    ∀ cmd ∈ d.commands, Budgeted cmd

/-- How many compressions a history has accepted. -/
def compressions (h : List (Mealy.Step Loop Surroundings Report)) : Nat :=
  ((Mealy.said Report.answered h).map fun (d, r) => acceptedIn d r).sum

theorem compressions_concat
    (h : List (Mealy.Step Loop Surroundings Report))
    (e : Mealy.Step Loop Surroundings Report) :
    compressions (h ++ [e])
      = compressions h
        + (e.output.answered.toList.map fun (d, r) => acceptedIn d r).sum := by
  unfold compressions
  rw [Mealy.said_concat, List.map_append, List.sum_append]

/-- A pass in which one directive asks to keep half. -/
def halving : Surroundings where
  testAt := 10
  checkAt := 10
  beatAt := 10
  beatWritten := true
  responseWritten := true
  received := .ok (some (.directive ⟨1, [.kvCompress (.fin (1 / 2))]⟩))

end ArgusManager.MockEngine
