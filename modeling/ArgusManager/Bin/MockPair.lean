/-
  ArgusManager.Bin.MockPair
  ─────────────────────────
  **The mock manager and the mock engine on one socket.**

  The two programs take turns in any order; messages travel whole and in
  order, and a read may time out although something is in flight.

    • `answers_serial` — the answers that the manager reads are those of the
                         scenario executed one command after the other,
    • `unexpired_run`  — where no response wait expires the checker is silent,
                         and a completed scenario has read every answer.
-/
import ArgusManager.Bin.MockEngine
import ArgusManager.Bin.MockManager

namespace ArgusManager.MockPair

open MockManager (ScenarioCommand Session Stage PassReport buildCommand
  validateResponse response?)
open MockEngine (Engine Args Loop Surroundings)

/-! ## §1. The scenario, executed in one place. -/

/-- The commands of a scenario, up to the first that cannot be built. -/
def script : List ScenarioCommand → List EngineCommand
  | [] => []
  | entry :: entries =>
      match buildCommand ⟨entry.command, entry.keepRatio, none, none⟩ with
      | .ok cmd => cmd :: script entries
      | .error _ => []

/-- The answers of an engine that runs the commands one after the other. -/
def serialAnswers (e : Engine) (cmds : List EngineCommand) :
    List CommandResponse :=
  (e.applyAll cmds).2.mapIdx fun i result => ⟨i + 1, [result]⟩

theorem serialAnswers_concat (e : Engine) (cmds : List EngineCommand)
    (cmd : EngineCommand) :
    serialAnswers e (cmds ++ [cmd])
      = serialAnswers e cmds
        ++ [⟨cmds.length + 1, [((e.applyAll cmds).1.apply cmd).2]⟩] := by
  unfold serialAnswers
  rw [Engine.applyAll_concat, List.mapIdx_concat, Engine.length_applyAll]

@[simp] theorem length_serialAnswers (e : Engine)
    (cmds : List EngineCommand) :
    (serialAnswers e cmds).length = cmds.length := by
  unfold serialAnswers
  rw [List.length_mapIdx, Engine.length_applyAll]

/-! ## §2. The two programs. -/

structure Pair where
  session : Session
  loop : Loop

/-- Which program goes on. -/
inductive Turn where
  | manager (now : Nat)
  | engine (testAt checkAt beatAt : Nat) (timeout : Bool)

def Pair.start (args : Args) (commands : List ScenarioCommand) : Pair where
  session := .start commands
  loop := .start args

/-- What a pass of the engine finds: its writes succeed, and it reads the
oldest directive in flight unless the read times out. -/
def Pair.surroundings (testAt checkAt beatAt : Nat) (timeout : Bool)
    (s : Pair) : Surroundings where
  testAt := testAt
  checkAt := checkAt
  beatAt := beatAt
  beatWritten := true
  responseWritten := true
  received :=
    .ok (if timeout then none else s.session.directives.head?.map .directive)

/-- A pass of the engine: a directive it answers is off the wire, and what it
writes is on it. -/
def Pair.enginePass (args : Args) (env : Surroundings) (s : Pair) : Pair :=
  let (loop, report) := s.loop.pass args env
  { loop
    session :=
      { s.session with
        directives :=
          if report.answered.isSome then s.session.directives.tail
          else s.session.directives
        inbox := s.session.inbox ++ report.sent } }

def protocol (args : Args) : Mealy Pair Turn PassReport where
  step s
    | .manager now =>
        let (session, report) := s.session.pass now
        ({ s with session }, report)
    | .engine testAt checkAt beatAt timeout =>
        (s.enginePass args (s.surroundings testAt checkAt beatAt timeout),
          .silent)

/-- The answers that the manager reads in a history. -/
def answersRead (h : List (Mealy.Step Pair Turn PassReport)) :
    List CommandResponse :=
  Mealy.said (fun report => report.read.bind response?) h

theorem answersRead_concat (h : List (Mealy.Step Pair Turn PassReport))
    (e : Mealy.Step Pair Turn PassReport) :
    answersRead (h ++ [e])
      = answersRead h ++ (e.output.read.bind response?).toList :=
  Mealy.said_concat _ h e

/-! ## §3. What the programs do in a turn. -/

/-- The commands that the manager has still to send. -/
def rest (s : Session) : List EngineCommand :=
  match s.stage with
  | .next => script s.commands
  | .waiting _ entry => script (entry :: s.commands)
  | .sending entry => script (entry :: s.commands)
  | .awaiting _ => script s.commands
  | .complete => []
  | .failed _ => []

/-- The manager is in a response wait. -/
def awaits : Stage → Bool
  | .awaiting _ => true
  | _ => false

/-- **Everything a pass of the manager can do**, with what is left to send. -/
inductive Advances (now : Nat) (s : Session) : Session → PassReport → Prop
  | moved {commands : List ScenarioCommand} {stage : Stage}
      (hrest : rest { s with commands, stage } = rest s)
      (hstage : awaits stage = awaits s.stage) :
      Advances now s { s with commands, stage } .silent
  | expired {deadline : Nat} (hstage : s.stage = .awaiting deadline)
      (hnow : deadline ≤ now) : Advances now s { s with stage := .next } .silent
  | sent (cmd : EngineCommand) (deadline : Nat)
      (hrest : rest s = cmd :: script s.commands)
      (hstage : awaits s.stage = false) :
      Advances now s
        { s with
          seqId := s.seqId + 1
          directives :=
            s.directives ++ [{ seqId := s.seqId + 1, commands := [cmd] }]
          stage := .awaiting deadline } .silent
  | dropped {msg : EngineMessage} {inbox : List EngineMessage}
      (hinbox : s.inbox = msg :: inbox) (hstage : awaits s.stage = false) :
      Advances now s { s with inbox } ⟨some msg, []⟩
  | skipped {status : EngineStatus} {inbox : List EngineMessage}
      (hinbox : s.inbox = .heartbeat status :: inbox) :
      Advances now s { s with inbox } ⟨some (.heartbeat status), []⟩
  | answered {deadline : Nat} {resp : CommandResponse}
      {inbox : List EngineMessage} (hstage : s.stage = .awaiting deadline)
      (hinbox : s.inbox = .response resp :: inbox) :
      Advances now s { s with inbox, stage := .next }
        ⟨some (.response resp), validateResponse s.seqId resp 1⟩

theorem advances (now : Nat) (s : Session) :
    Advances now s (s.pass now).1 (s.pass now).2 := by
  obtain ⟨commands, stage, seqId, directives, inbox⟩ := s
  unfold Session.pass
  cases stage with
  | next =>
      cases commands with
      | nil => exact .moved rfl rfl
      | cons entry commands =>
          dsimp only
          split
          · exact .moved rfl rfl
          · exact .moved rfl rfl
  | waiting waitUntil entry =>
      dsimp only
      split
      · cases inbox with
        | nil => exact .moved rfl rfl
        | cons msg inbox => exact .dropped rfl rfl
      · exact .moved rfl rfl
  | sending entry =>
      dsimp only
      split
      next e hbuild =>
        refine .moved ?_ rfl
        show [] = script (entry :: commands)
        unfold script
        rw [hbuild]
      next cmd hbuild =>
        refine .sent cmd _ ?_ rfl
        show script (entry :: commands) = _
        rw [script, hbuild]
  | awaiting deadline =>
      dsimp only
      split
      · cases inbox with
        | nil => exact .moved rfl rfl
        | cons msg inbox =>
            cases msg with
            | response resp => exact .answered rfl rfl
            | heartbeat status => exact .skipped rfl
      next hnow => exact .expired rfl (not_lt.mp hnow)
  | complete => exact .moved rfl rfl
  | failed error => exact .moved rfl rfl

/-- **Everything a pass of the engine can do**: heartbeats, and the answer to
the oldest directive. -/
inductive Serves (s : Pair) : Pair → Prop
  | quiet {loop : Loop} (statuses : List EngineStatus)
      (hengine : loop.engine.untimed = s.loop.engine.untimed) :
      Serves s
        { loop
          session :=
            { s.session with
              inbox := s.session.inbox ++ statuses.map .heartbeat } }
  | answered {loop : Loop} {d : EngineDirective}
      {directives : List EngineDirective} (statuses : List EngineStatus)
      (e : Engine) (he : e.untimed = s.loop.engine.untimed)
      (hdirectives : s.session.directives = d :: directives)
      (hengine : loop.engine = (e.applyAll d.commands).1) :
      Serves s
        { loop
          session :=
            { s.session with
              directives
              inbox := s.session.inbox ++ (statuses.map .heartbeat
                ++ [.response ⟨d.seqId, (e.applyAll d.commands).2⟩]) } }

theorem serves (args : Args) (testAt checkAt beatAt : Nat) (timeout : Bool)
    (s : Pair) :
    Serves s
      (s.enginePass args (s.surroundings testAt checkAt beatAt timeout)) := by
  have hpass := MockEngine.pass_spec args
    (s.surroundings testAt checkAt beatAt timeout) s.loop
  unfold Pair.enginePass
  generalize s.loop.pass args
    (s.surroundings testAt checkAt beatAt timeout) = result at hpass ⊢
  obtain ⟨loop, report⟩ := result
  cases hpass with
  | quiet statuses hengine => exact .quiet statuses hengine
  | answered statuses e he hread hengine =>
      -- what was read is the oldest directive
      injection hread with hread
      split at hread
      · exact absurd hread (by simp)
      · obtain ⟨⟨commands, stage, seqId, directives, inbox⟩, loop₀⟩ := s
        cases directives with
        | nil => exact absurd hread (by simp)
        | cons d' directives =>
            injection hread with hread
            injection hread with hread
            subst hread
            exact .answered statuses e he rfl hengine

/-! ## §4. One command after the other. -/

/-- The directives that carry commands sent after `n` others. -/
def numbered (n : Nat) (cmds : List EngineCommand) : List EngineDirective :=
  cmds.mapIdx fun i cmd => ⟨n + i + 1, [cmd]⟩

theorem numbered_cons (n : Nat) (cmd : EngineCommand)
    (cmds : List EngineCommand) :
    numbered n (cmd :: cmds) = ⟨n + 1, [cmd]⟩ :: numbered (n + 1) cmds := by
  unfold numbered
  rw [List.mapIdx_cons]
  refine congrArg (_ :: ·) (congrArg (List.mapIdx · cmds) ?_)
  funext i cmd
  rw [Nat.add_right_comm n 1 i, Nat.add_assoc n i 1]

theorem numbered_concat (n : Nat) (cmds : List EngineCommand)
    (cmd : EngineCommand) :
    numbered n (cmds ++ [cmd])
      = numbered n cmds ++ [⟨n + cmds.length + 1, [cmd]⟩] :=
  List.mapIdx_concat

theorem numbered_eq_cons {n : Nat} {cmds : List EngineCommand}
    {d : EngineDirective} {ds : List EngineDirective}
    (h : numbered n cmds = d :: ds) :
    ∃ cmd rest, cmds = cmd :: rest ∧ d = ⟨n + 1, [cmd]⟩
      ∧ ds = numbered (n + 1) rest := by
  cases cmds with
  | nil => exact absurd h (by simp [numbered])
  | cons cmd rest =>
      rw [numbered_cons] at h
      injection h with hd hds
      exact ⟨cmd, rest, rfl, hd.symm, hds.symm⟩

/-- Of the script, the engine has executed `done` and is to execute `pending`;
`read` are the answers that the manager has read. -/
structure Serial (e : Engine) (cmds : List EngineCommand)
    (read : List CommandResponse) (done pending : List EngineCommand)
    (s : Pair) : Prop where
  cmds_eq : cmds = done ++ (pending ++ rest s.session)
  seqId : s.session.seqId = done.length + pending.length
  directives : s.session.directives = numbered done.length pending
  engine : s.loop.engine.untimed = (e.applyAll done).1.untimed
  answers :
    read ++ s.session.inbox.filterMap response? = serialAnswers e done

section Steps

variable {e : Engine} {cmds : List EngineCommand}
  {read : List CommandResponse} {done pending : List EngineCommand} {s : Pair}

theorem Serial.start (args : Args) (commands : List ScenarioCommand) :
    Serial (.new args.kvOccupancy args.device) (script commands) [] [] []
      (.start args commands) where
  cmds_eq := rfl
  seqId := rfl
  directives := rfl
  engine := rfl
  answers := rfl

theorem filterMap_heartbeats (statuses : List EngineStatus) :
    (statuses.map EngineMessage.heartbeat).filterMap response? = [] := by
  rw [List.filterMap_eq_nil_iff]
  intro msg hmsg
  obtain ⟨status, _, rfl⟩ := List.mem_map.mp hmsg
  rfl

/-- The engine executes the oldest pending command, or none. -/
theorem Serial.serves (h : Serial e cmds read done pending s) {s' : Pair}
    (hs : Serves s s') :
    Serial e cmds read done pending s'
      ∨ ∃ cmd rest, pending = cmd :: rest
          ∧ Serial e cmds read (done ++ [cmd]) rest s' := by
  cases hs with
  | quiet statuses hengine =>
      left
      refine ⟨h.cmds_eq, h.seqId, h.directives, ?_, ?_⟩
      · exact hengine.trans h.engine
      · show read ++ List.filterMap response? (_ ++ _) = _
        rw [List.filterMap_append, filterMap_heartbeats, List.append_nil]
        exact h.answers
  | @answered loop d directives statuses e' he hdirectives hengine =>
      right
      rw [h.directives] at hdirectives
      obtain ⟨cmd, rest, rfl, rfl, rfl⟩ := numbered_eq_cons hdirectives
      refine ⟨cmd, rest, rfl, ?_, ?_, ?_, ?_, ?_⟩
      · rw [h.cmds_eq, List.append_assoc]
        rfl
      · show s.session.seqId = _
        rw [h.seqId, List.length_append, List.length_cons]
        show done.length + (rest.length + 1) = done.length + 1 + rest.length
        omega
      · rw [List.length_append]
        rfl
      · rw [Engine.applyAll_concat, hengine]
        have hsame := congrArg (fun engine => (engine.apply cmd).1)
          (he.trans h.engine)
        simp only [Engine.apply_untimed] at hsame
        exact hsame
      · have hsame := congrArg (fun engine => (engine.apply cmd).2)
          (he.trans h.engine)
        simp only [Engine.apply_untimed] at hsame
        rw [serialAnswers_concat, ← h.answers, ← hsame, List.append_assoc]
        refine congrArg (read ++ ·) ?_
        rw [List.filterMap_append, List.filterMap_append,
          filterMap_heartbeats]
        rfl

/-- The manager sends the next command, reads the oldest answer, or does
neither. -/
theorem Serial.advances (h : Serial e cmds read done pending s) {now : Nat}
    {session : Session} {report : PassReport}
    (hs : Advances now s.session session report) :
    ∃ pending', pending <+: pending'
      ∧ Serial e cmds (read ++ (report.read.bind response?).toList) done
          pending' { s with session } := by
  cases hs with
  | moved hrest hstage =>
      refine ⟨pending, List.prefix_rfl, ?_, h.seqId, h.directives, h.engine,
        ?_⟩
      · rw [h.cmds_eq, ← hrest]
      · show read ++ [] ++ _ = _
        rw [List.append_nil]
        exact h.answers
  | expired hstage hnow =>
      refine ⟨pending, List.prefix_rfl, ?_, h.seqId, h.directives, h.engine,
        ?_⟩
      · rw [h.cmds_eq]
        unfold rest
        rw [hstage]
      · show read ++ [] ++ _ = _
        rw [List.append_nil]
        exact h.answers
  | sent cmd deadline hrest hstage =>
      refine ⟨pending ++ [cmd], List.prefix_append _ _, ?_, ?_, ?_, h.engine,
        ?_⟩
      · rw [h.cmds_eq, hrest, List.append_assoc]
        rfl
      · show s.session.seqId + 1 = _
        rw [h.seqId, List.length_append]
        rfl
      · show s.session.directives ++ [_] = _
        rw [h.directives, numbered_concat, h.seqId]
      · show read ++ [] ++ _ = _
        rw [List.append_nil]
        exact h.answers
  | @dropped msg inbox hinbox hstage =>
      refine ⟨pending, List.prefix_rfl, h.cmds_eq, h.seqId, h.directives,
        h.engine, ?_⟩
      rw [← h.answers, hinbox, List.append_assoc]
      refine congrArg (read ++ ·) ?_
      cases msg with
      | heartbeat status => rfl
      | response resp => rfl
  | @skipped status inbox hinbox =>
      refine ⟨pending, List.prefix_rfl, h.cmds_eq, h.seqId, h.directives,
        h.engine, ?_⟩
      rw [← h.answers, hinbox, List.append_assoc]
      rfl
  | @answered deadline resp inbox hstage hinbox =>
      refine ⟨pending, List.prefix_rfl, ?_, h.seqId, h.directives, h.engine,
        ?_⟩
      · rw [h.cmds_eq]
        unfold rest
        rw [hstage]
      · rw [← h.answers, hinbox, List.append_assoc]
        rfl

/-- The answer to be read next is that to the first command whose answer has
not been read. -/
theorem Serial.next_answer (h : Serial e cmds read done pending s)
    {resp : CommandResponse} {inbox : List EngineMessage}
    (hinbox : s.session.inbox = .response resp :: inbox) :
    resp.seqId = read.length + 1 ∧ resp.results.length = 1 := by
  have hnext : (serialAnswers e done)[read.length]? = some resp := by
    rw [← h.answers, hinbox]
    show (read ++ resp :: inbox.filterMap response?)[read.length]? = _
    rw [List.getElem?_append_right (Nat.le_refl _), Nat.sub_self]
    rfl
  unfold serialAnswers at hnext
  rw [List.getElem?_mapIdx] at hnext
  obtain ⟨result, _, hresp⟩ := Option.map_eq_some_iff.mp hnext
  rw [← hresp]
  exact ⟨rfl, rfl⟩

/-- Once every directive sent has its answer read, nothing is on the wire. -/
theorem Serial.settled (h : Serial e cmds read done pending s)
    (hread : read.length = s.session.seqId) :
    pending = [] ∧ s.session.inbox.filterMap response? = [] := by
  have hlen := congrArg List.length h.answers
  rw [List.length_append, length_serialAnswers] at hlen
  have hseq := h.seqId
  exact ⟨List.eq_nil_of_length_eq_zero (by omega),
    List.eq_nil_of_length_eq_zero (by omega)⟩

end Steps
/-! ## §5. Runs. -/

section Runs

variable {args : Args} {commands : List ScenarioCommand}
  {h : List (Mealy.Step Pair Turn PassReport)} {s : Pair}
  {done pending : List EngineCommand}

/-- The engine before the first command. -/
abbrev engine₀ (args : Args) : Engine := .new args.kvOccupancy args.device

/-- Some commands are executed and some are pending, in the order of the
scenario. -/
def InOrder (args : Args) (commands : List ScenarioCommand)
    (h : List (Mealy.Step Pair Turn PassReport)) (s : Pair) : Prop :=
  ∃ done pending,
    Serial (engine₀ args) (script commands) (answersRead h) done pending s

theorem InOrder.step (hinv : InOrder args commands h s) (turn : Turn) :
    InOrder args commands (h ++ [(protocol args).stepAt s turn])
      ((protocol args).step s turn).1 := by
  obtain ⟨done, pending, hserial⟩ := hinv
  cases turn with
  | manager now =>
      obtain ⟨pending', _, hnext⟩ := hserial.advances (advances now s.session)
      refine ⟨done, pending', ?_⟩
      rw [answersRead_concat]
      exact hnext
  | engine testAt checkAt beatAt timeout =>
      have hread : answersRead (h ++ [(protocol args).stepAt s
          (.engine testAt checkAt beatAt timeout)]) = answersRead h := by
        rw [answersRead_concat]
        exact List.append_nil _
      unfold InOrder
      rw [hread]
      rcases hserial.serves (serves args testAt checkAt beatAt timeout s) with
        hnext | ⟨cmd, rest, _, hnext⟩
      · exact ⟨done, pending, hnext⟩
      · exact ⟨done ++ [cmd], rest, hnext⟩

/-- **The socket hides nothing.**  Over every scenario and every order of
turns, clocks and timeouts, the engine has executed the first commands of the
scenario, each once and in order; the commands after them are on the wire; and
the answers that the manager has read are the first of those that the same
commands get executed in one place. -/
theorem answers_serial (args : Args) (commands : List ScenarioCommand)
    (turns : List Turn) :
    ∃ k,
      ((protocol args).exec (.start args commands) turns).loop.engine.untimed
          = ((engine₀ args).applyAll ((script commands).take k)).1.untimed
        ∧ ((protocol args).exec (.start args commands) turns).session.directives
          = numbered k
            (((script commands).take
              ((protocol args).exec (.start args commands) turns).session.seqId
              ).drop k)
        ∧ answersRead ((protocol args).trace (.start args commands) turns)
          <+: serialAnswers (engine₀ args) ((script commands).take k) := by
  obtain ⟨done, pending, hserial⟩ := Mealy.history_of_steps
    (I := InOrder args commands) ⟨[], [], .start args commands⟩
    (fun _ _ turn hinv => hinv.step turn) turns
  refine ⟨done.length, ?_, ?_, ?_⟩
  · rw [hserial.cmds_eq, List.take_left]
    exact hserial.engine
  · rw [hserial.directives, hserial.seqId, hserial.cmds_eq,
      ← List.append_assoc, ← List.length_append, List.take_left,
      List.drop_left]
  · rw [hserial.cmds_eq, List.take_left, ← hserial.answers]
    exact List.prefix_append _ _

/-- No response wait expires in the step. -/
def unexpired (e : Mealy.Step Pair Turn PassReport) : Bool :=
  match e.input, e.pre.session.stage with
  | .manager now, .awaiting deadline => now < deadline
  | _, _ => true

/-- Exactly the last directive is unanswered in a response wait, and none
elsewhere. -/
structure LockStep (args : Args) (commands : List ScenarioCommand)
    (h : List (Mealy.Step Pair Turn PassReport)) (s : Pair) : Prop where
  inOrder : InOrder args commands h s
  unread : (answersRead h).length + (awaits s.session.stage).toNat
    = s.session.seqId

/-- A turn of the manager in lock step keeps it, and reports nothing. -/
theorem LockStep.advance (hlock : LockStep args commands h s) {now : Nat}
    {session : Session} {report : PassReport}
    (hnow : ∀ deadline, s.session.stage = .awaiting deadline → now < deadline)
    (hpass : Advances now s.session session report) :
    ((answersRead h ++ (report.read.bind response?).toList).length
        + (awaits session.stage).toNat = session.seqId)
      ∧ report.violations = [] := by
  obtain ⟨⟨done, pending, hserial⟩, hunread⟩ := hlock
  rw [List.length_append]
  cases hpass with
  | moved hrest hstage =>
      rw [← hstage] at hunread
      exact ⟨hunread, rfl⟩
  | expired hstage hdeadline =>
      exact absurd (hnow _ hstage) (not_lt.mpr hdeadline)
  | sent cmd deadline hrest hstage =>
      rw [hstage] at hunread
      refine ⟨?_, rfl⟩
      show (answersRead h).length + 0 + 1 = s.session.seqId + 1
      rw [← hunread]
      rfl
  | @dropped msg inbox hinbox hstage =>
      -- in a delay there is no answer to be dropped
      rw [hstage] at hunread
      obtain ⟨_, hnone⟩ := hserial.settled hunread
      rw [hinbox] at hnone
      refine ⟨?_, rfl⟩
      cases msg with
      | heartbeat status =>
          rw [← hunread, hstage]
          rfl
      | response resp => exact absurd hnone (by simp [response?])
  | skipped hinbox => exact ⟨hunread, rfl⟩
  | @answered deadline resp inbox hstage hinbox =>
      rw [hstage] at hunread
      obtain ⟨hseq, hlen⟩ := hserial.next_answer hinbox
      refine ⟨hunread, ?_⟩
      rw [MockManager.validateResponse_eq_nil, hseq]
      exact ⟨hunread, hlen⟩

theorem LockStep.step (hlock : LockStep args commands h s) (turn : Turn)
    (hlate : unexpired ((protocol args).stepAt s turn) = true) :
    LockStep args commands (h ++ [(protocol args).stepAt s turn])
        ((protocol args).step s turn).1
      ∧ ((protocol args).step s turn).2.violations = [] := by
  have horder := hlock.inOrder.step turn
  cases turn with
  | manager now =>
      obtain ⟨hunread, hsilent⟩ := hlock.advance
        (fun deadline hstage => by
          unfold unexpired at hlate
          rw [Mealy.stepAt_input, Mealy.stepAt_pre, hstage] at hlate
          exact of_decide_eq_true hlate)
        (advances now s.session)
      refine ⟨⟨horder, ?_⟩, hsilent⟩
      rw [answersRead_concat]
      exact hunread
  | engine testAt checkAt beatAt timeout =>
      refine ⟨⟨horder, ?_⟩, rfl⟩
      rw [answersRead_concat]
      show (answersRead h ++ []).length + (awaits s.session.stage).toNat
        = s.session.seqId
      rw [List.append_nil]
      exact hlock.unread

/-- **Where no response wait expires**, the checker is silent in every step,
and a scenario that is complete has read the answer to each of its commands,
as those commands get it executed in one place. -/
theorem unexpired_run (args : Args) (commands : List ScenarioCommand)
    (turns : List Turn)
    (hlate : (protocol args).Along (.start args commands) turns
      fun _ e => unexpired e = true) :
    (protocol args).Along (.start args commands) turns
        (fun _ e => e.output.violations = [])
      ∧ (((protocol args).exec (.start args commands) turns).session.stage
          = .complete →
        answersRead ((protocol args).trace (.start args commands) turns)
          = serialAnswers (engine₀ args) (script commands)) := by
  have hstart : LockStep args commands [] (.start args commands) :=
    ⟨⟨[], [], .start args commands⟩, rfl⟩
  constructor
  · exact hlate.of_invariant hstart
      (fun _ _ turn hnow hlock => (hlock.step turn hnow).1)
      fun _ _ turn hnow hlock => (hlock.step turn hnow).2
  · intro hcomplete
    obtain ⟨⟨done, pending, hserial⟩, hunread⟩ := hlate.invariant hstart
      fun _ _ turn hnow hlock => (hlock.step turn hnow).1
    rw [hcomplete] at hunread
    obtain ⟨hpending, hinbox⟩ := hserial.settled hunread
    have hdone := hserial.cmds_eq
    have hrest :
        rest ((protocol args).exec (.start args commands) turns).session
          = [] := by
      unfold rest
      rw [hcomplete]
    rw [hpending, hrest, List.append_nil, List.append_nil] at hdone
    have hanswers := hserial.answers
    rw [hinbox, List.append_nil] at hanswers
    rw [hanswers, hdone]

end Runs

/-- An engine half full. -/
def halfFull : Args := ⟨100, .fin (1 / 2), "opencl", 30⟩

/-- Suspend and resume, answered within the wait, with a heartbeat between. -/
def promptTurns : List Turn :=
  [.manager 0, .manager 0, .engine 5 5 5 false, .manager 6, .manager 6,
    .manager 6, .engine 150 150 150 false, .manager 160, .manager 161,
    .manager 162]

theorem unexpired_run_prompt :
    (protocol halfFull).Along
        (.start halfFull MockManager.suspendResume) promptTurns
        (fun _ e => e.output.violations = [])
      ∧ answersRead ((protocol halfFull).trace
          (.start halfFull MockManager.suspendResume) promptTurns)
        = serialAnswers (engine₀ halfFull)
          (script MockManager.suspendResume) := by
  have hrun := unexpired_run halfFull MockManager.suspendResume promptTurns <| by
    unfold promptTurns
    iterate 10 refine Mealy.along_cons.mpr ⟨rfl, ?_⟩
    exact Mealy.along_nil
  exact ⟨hrun.1, hrun.2 rfl⟩

end ArgusManager.MockPair
