/-
  ArgusManager.Bin.MockManager
  ────────────────────────────
  **The protocol checker of the mock manager** (`run_scenario` of
  `src/bin/mock_manager.rs`) against an engine that keeps the protocol.

  Messages travel whole and in order.  The manager takes one pass after the
  other through its loops; the engine answers its oldest directive, or sends a
  heartbeat, whenever it likes.  Times are milliseconds.

    • `pass_spec`          — everything one pass can do,
    • `sound`              — answers are read in the order of the directives,
                             and one read out of turn is a violation,
    • `no_false_alarm_iff` — the checker is silent exactly if every answer read
                             in a response wait comes after the answers to all
                             earlier directives.
-/
import ArgusManager.Lib.Mealy
import ArgusManager.Shared
import Mathlib.Data.List.Range

namespace ArgusManager.MockManager

/-! ## §1. Commands. -/

/-- Parameters of a command from the CLI or a scenario. -/
structure CommandParams where
  name : String
  keepRatio : Option FloatVal
  every : Option Nat
  on : Option Bool

def buildCommand (params : CommandParams) : Except String EngineCommand :=
  match params.name with
  | "KvCompress" =>
      match params.keepRatio with
      | none => .error "--keep-ratio required for KvCompress"
      | some budget => .ok (.kvCompress budget)
  | "RestoreDefaults" => .ok .restoreDefaults
  | "Suspend" => .ok .suspend
  | "Resume" => .ok .resume
  | "GpuYield" =>
      match params.every with
      | none => .error "--every required for GpuYield"
      | some every => .ok (.gpuYield every)
  | "GpuOffload" =>
      match params.on with
      | none => .error "--on <true|false> required for GpuOffload"
      | some on => .ok (.gpuOffload on)
  | other =>
      .error (s!"unknown command '{other}' — the contract carries KvCompress, "
        ++ "RestoreDefaults, Suspend, Resume, GpuYield and GpuOffload")

/-- One command of a scenario file. -/
structure ScenarioCommand where
  delayMs : Nat
  command : String
  keepRatio : Option FloatVal

/-! ## §2. The checker. -/

/-- `validate_response`: the violations it prints. -/
def validateResponse (seqId : Nat) (response : CommandResponse)
    (numCommands : Nat) : List String :=
  (if response.seqId ≠ seqId then
    [s!"[PROTOCOL VIOLATION] INV-023: seq_id mismatch: sent {seqId} but "
      ++ s!"received {response.seqId}"]
   else [])
  ++ (if response.results.length ≠ numCommands then
    ["[PROTOCOL VIOLATION] INV-024: results count mismatch: sent "
      ++ s!"{numCommands} commands but received "
      ++ s!"{response.results.length} results"]
   else [])

theorem validateResponse_eq_nil {seqId numCommands : Nat}
    {response : CommandResponse} :
    validateResponse seqId response numCommands = []
      ↔ response.seqId = seqId ∧ response.results.length = numCommands := by
  unfold validateResponse
  rw [List.append_eq_nil_iff]
  by_cases hseq : response.seqId = seqId
  · by_cases hlen : response.results.length = numCommands
    · simp [hseq, hlen]
    · simp [hseq, hlen]
  · simp [hseq]

/-- Where `run_scenario` is. -/
inductive Stage where
  /-- About to take the next command. -/
  | next
  /-- In the delay before a command. -/
  | waiting (waitUntil : Nat) (entry : ScenarioCommand)
  | sending (entry : ScenarioCommand)
  /-- In `recv_response_skip_heartbeats`. -/
  | awaiting (deadline : Nat)
  | complete
  | failed (error : String)

/-- The manager, and the traffic between it and the engine. -/
structure Session where
  /-- The commands not begun yet. -/
  commands : List ScenarioCommand
  stage : Stage
  seqId : Nat
  /-- Directives the engine has not answered, oldest first. -/
  directives : List EngineDirective
  /-- Messages the manager has not read, oldest first. -/
  inbox : List EngineMessage

namespace Session

/-- `run_scenario` before its first command. -/
def start (commands : List ScenarioCommand) : Session where
  commands := commands
  stage := .next
  seqId := 0
  directives := []
  inbox := []

/-- `recv_message`, where frames arrive whole. -/
def recvMessage (s : Session) : Session × Option EngineMessage :=
  match s.inbox with
  | [] => (s, none)
  | msg :: inbox => ({ s with inbox }, some msg)

/-- The engine answers its oldest directive, one result per command. -/
def answer (verdict : Nat → EngineCommand → CommandResult) (s : Session) :
    Session :=
  match s.directives with
  | [] => s
  | d :: directives =>
      { s with
        directives
        inbox := s.inbox
          ++ [.response
            { seqId := d.seqId, results := d.commands.mapIdx verdict }] }

def heartbeat (status : EngineStatus) (s : Session) : Session :=
  { s with inbox := s.inbox ++ [.heartbeat status] }

end Session

/-- What a pass of the manager read, and the violations it printed. -/
structure PassReport where
  read : Option EngineMessage
  violations : List String

/-- A pass that read nothing. -/
def PassReport.silent : PassReport where
  read := none
  violations := []

/-- Outcome of a `recv_until` selector. -/
inductive Selected (τ : Type) where
  | found (value : τ)
  | skip (msg : EngineMessage)

/-- The selector of `recv_response_skip_heartbeats`. -/
def selectResponse : EngineMessage → Selected CommandResponse
  | .response resp => .found resp
  | other => .skip other

namespace Session

/-- One pass through the loop the manager is in. -/
def pass (now : Nat) (s : Session) : Session × PassReport :=
  match s.stage with
  | .next =>
      match s.commands with
      | [] => ({ s with stage := .complete }, .silent)
      | entry :: commands =>
          if entry.delayMs > 0 then
            ({ s with
                commands
                stage := .waiting (now + entry.delayMs) entry }, .silent)
          else ({ s with commands, stage := .sending entry }, .silent)
  | .waiting waitUntil entry =>
      if now < waitUntil then
        -- heartbeats are printed, anything else is dropped without a word
        let (s, msg) := s.recvMessage
        (s, ⟨msg, []⟩)
      else ({ s with stage := .sending entry }, .silent)
  | .sending entry =>
      match buildCommand ⟨entry.command, entry.keepRatio, none, none⟩ with
      | .error e => ({ s with stage := .failed e }, .silent)
      | .ok cmd =>
          let seqId := s.seqId + 1
          ({ s with
              seqId
              directives := s.directives ++ [{ seqId, commands := [cmd] }]
              stage := .awaiting (now + 5000) }, .silent)
  | .awaiting deadline =>
      if now < deadline then
        match s.recvMessage with
        | (s, none) => (s, .silent)
        | (s, some msg) =>
            match selectResponse msg with
            | .found resp =>
                ({ s with stage := .next },
                  ⟨some msg, validateResponse s.seqId resp 1⟩)
            | .skip _ => (s, ⟨some msg, []⟩)
      else
        -- "Timed out waiting for Response"
        ({ s with stage := .next }, .silent)
  | .complete => (s, .silent)
  | .failed _ => (s, .silent)

end Session

/-- What happens next. -/
inductive Event where
  | pass (now : Nat)
  | heartbeat (status : EngineStatus)
  | answer (verdict : Nat → EngineCommand → CommandResult)

/-- The manager and the engine together. -/
def scenario : Mealy Session Event PassReport where
  step s
    | .pass now => s.pass now
    | .heartbeat status => (s.heartbeat status, .silent)
    | .answer verdict => (s.answer verdict, .silent)

/-- **Everything a pass can do.** -/
inductive Passes (s : Session) : Session → PassReport → Prop
  /-- The manager is elsewhere in its loops, or there was nothing to read. -/
  | idle (commands : List ScenarioCommand) (stage : Stage) :
      Passes s { s with commands, stage } .silent
  | sent (cmd : EngineCommand) (deadline : Nat) :
      Passes s
        { s with
          seqId := s.seqId + 1
          directives :=
            s.directives ++ [{ seqId := s.seqId + 1, commands := [cmd] }]
          stage := .awaiting deadline } .silent
  /-- Something is read in a delay, or skipped in a response wait. -/
  | drained {msg : EngineMessage} {inbox : List EngineMessage}
      (hinbox : s.inbox = msg :: inbox)
      (hskip : (∀ deadline, s.stage ≠ .awaiting deadline)
        ∨ ∀ resp, msg ≠ .response resp) :
      Passes s { s with inbox } ⟨some msg, []⟩
  /-- An answer is read in a response wait. -/
  | answered {deadline : Nat} {resp : CommandResponse}
      {inbox : List EngineMessage} (hstage : s.stage = .awaiting deadline)
      (hinbox : s.inbox = .response resp :: inbox) :
      Passes s { s with inbox, stage := .next }
        ⟨some (.response resp), validateResponse s.seqId resp 1⟩

theorem pass_spec (now : Nat) (s : Session) :
    Passes s (s.pass now).1 (s.pass now).2 := by
  obtain ⟨commands, stage, seqId, directives, inbox⟩ := s
  unfold Session.pass
  cases stage with
  | next =>
      cases commands with
      | nil => exact .idle _ _
      | cons entry commands =>
          dsimp only
          split
          · exact .idle _ _
          · exact .idle _ _
  | waiting waitUntil entry =>
      dsimp only
      split
      · -- whatever comes in while the mock waits is thrown away
        cases inbox with
        | nil => exact .idle _ _
        | cons msg inbox => exact .drained rfl (.inl (by simp))
      · exact .idle _ _
  | sending entry =>
      dsimp only
      split
      · exact .idle _ _
      · exact .sent _ _
  | awaiting deadline =>
      dsimp only
      split
      · cases inbox with
        | nil => exact .idle _ _
        | cons msg inbox =>
            cases msg with
            | response resp => exact .answered rfl rfl
            | heartbeat status => exact .drained rfl (.inr (by simp))
      · exact .idle _ _
  | complete => exact .idle _ _
  | failed error => exact .idle _ _

/-! ## §3. The traffic. -/

/-- The answer in a message, if it is one. -/
def response? : EngineMessage → Option CommandResponse
  | .response resp => some resp
  | .heartbeat _ => none

/-- The answers read in a history. -/
def answersRead (h : List (Mealy.Step Session Event PassReport)) :
    List CommandResponse :=
  Mealy.said (fun report => report.read.bind response?) h

/-- The answers on their way and those still to be given, by directive. -/
def Session.outstanding (s : Session) : List Nat :=
  (s.inbox.filterMap response?).map CommandResponse.seqId
    ++ s.directives.map EngineDirective.seqId

/-- With `n` answers read, those of the directives after the first `n` are
outstanding, in order, with one result each. -/
structure Traffic (n : Nat) (s : Session) : Prop where
  outstanding : ∃ k, s.outstanding = List.range' (n + 1) k ∧ n + k = s.seqId
  results : ∀ resp ∈ s.inbox.filterMap response?, resp.results.length = 1
  commands : ∀ d ∈ s.directives, d.commands.length = 1

section Steps

variable {n : Nat} {s : Session}

theorem Traffic.heartbeat (h : Traffic n s) (status : EngineStatus) :
    Traffic n (s.heartbeat status) := by
  have hread : (s.heartbeat status).inbox.filterMap response?
      = s.inbox.filterMap response? := by
    show (s.inbox ++ [EngineMessage.heartbeat status]).filterMap response? = _
    rw [List.filterMap_append]
    exact List.append_nil _
  refine ⟨?_, ?_, h.commands⟩
  · unfold Session.outstanding
    rw [hread]
    exact h.outstanding
  · rw [hread]
    exact h.results

/-- An answer takes its directive's place among what is outstanding. -/
theorem Traffic.answer (h : Traffic n s)
    (verdict : Nat → EngineCommand → CommandResult) :
    Traffic n (s.answer verdict) := by
  obtain ⟨commands, stage, seqId, directives, inbox⟩ := s
  cases directives with
  | nil => exact h
  | cons d directives =>
      obtain ⟨⟨k, hout, hk⟩, hresults, hcommands⟩ := h
      have hread : (Session.answer verdict
          ⟨commands, stage, seqId, d :: directives, inbox⟩).inbox.filterMap
            response?
          = inbox.filterMap response?
            ++ [⟨d.seqId, d.commands.mapIdx verdict⟩] :=
        List.filterMap_append
      refine ⟨⟨k, ?_, hk⟩, ?_, ?_⟩
      · rw [← hout]
        unfold Session.outstanding
        rw [hread, List.map_append, List.append_assoc]
        rfl
      · rw [hread]
        intro resp hresp
        rcases List.mem_append.mp hresp with hresp | hresp
        · exact hresults resp hresp
        · rw [List.mem_singleton.mp hresp, List.length_mapIdx]
          exact hcommands d List.mem_cons_self
      · intro d' hd'
        exact hcommands d' (List.mem_cons_of_mem _ hd')

/-- A directive joins at the end. -/
theorem Traffic.sent (h : Traffic n s) (cmd : EngineCommand)
    (stage : Stage) :
    Traffic n
      { s with
        seqId := s.seqId + 1
        directives :=
          s.directives ++ [{ seqId := s.seqId + 1, commands := [cmd] }]
        stage } := by
  obtain ⟨⟨k, hout, hk⟩, hresults, hcommands⟩ := h
  refine ⟨⟨k + 1, ?_, ?_⟩, hresults, ?_⟩
  · unfold Session.outstanding at hout ⊢
    dsimp only
    rw [List.map_append, ← List.append_assoc, hout, List.range'_concat,
      ← hk]
    show _ ++ [n + k + 1] = _ ++ [n + 1 + 1 * k]
    rw [Nat.one_mul, Nat.add_right_comm]
  · show n + (k + 1) = s.seqId + 1
    omega
  · intro d hd
    rcases List.mem_append.mp hd with hd | hd
    · exact hcommands d hd
    · rw [List.mem_singleton.mp hd]
      rfl

theorem Traffic.skipped {inbox : List EngineMessage} {status : EngineStatus}
    (h : Traffic n s) (hinbox : s.inbox = .heartbeat status :: inbox) :
    Traffic n { s with inbox } := by
  obtain ⟨hout, hresults, hcommands⟩ := h
  unfold Session.outstanding at hout
  rw [hinbox] at hout hresults
  exact ⟨hout, hresults, hcommands⟩

/-- **The answer read next is the one to the first directive whose answer has
not been read**, with one result. -/
theorem Traffic.read {resp : CommandResponse} {inbox : List EngineMessage}
    (h : Traffic n s) (hinbox : s.inbox = .response resp :: inbox)
    (stage : Stage) :
    Traffic (n + 1) { s with inbox, stage } ∧ resp.seqId = n + 1
      ∧ resp.results.length = 1 := by
  obtain ⟨⟨k, hout, hk⟩, hresults, hcommands⟩ := h
  unfold Session.outstanding at hout
  rw [hinbox] at hout hresults
  change resp.seqId :: ((inbox.filterMap response?).map _
    ++ s.directives.map _) = _ at hout
  cases k with
  | zero => exact absurd hout (by simp)
  | succ k =>
      rw [List.range'_succ] at hout
      injection hout with hseq hrest
      refine ⟨⟨⟨k, hrest, ?_⟩, ?_, hcommands⟩, hseq, ?_⟩
      · show n + 1 + k = s.seqId
        omega
      · intro r hr
        exact hresults r (List.mem_cons_of_mem _ hr)
      · exact hresults resp List.mem_cons_self

end Steps

/-! ## §4. Runs. -/

/-- An answer read in a response wait comes after the answers to all the
directives before the last one. -/
def InTurn (h : List (Mealy.Step Session Event PassReport))
    (e : Mealy.Step Session Event PassReport) : Prop :=
  ∀ deadline resp, e.pre.stage = .awaiting deadline →
    e.output.read = some (.response resp) →
    (answersRead h).length + 1 = e.pre.seqId

theorem answersRead_concat (h : List (Mealy.Step Session Event PassReport))
    (e : Mealy.Step Session Event PassReport) :
    answersRead (h ++ [e])
      = answersRead h ++ (e.output.read.bind response?).toList :=
  Mealy.said_concat _ h e

/-- A step keeps the traffic in order, and prints a violation exactly when an
answer is read out of turn. -/
structure Sound (h : List (Mealy.Step Session Event PassReport)) (s : Session)
    (e : Event) : Prop where
  traffic : Traffic (answersRead (h ++ [scenario.stepAt s e])).length
    (scenario.step s e).1
  silent_iff : (scenario.step s e).2.violations = []
    ↔ InTurn h (scenario.stepAt s e)

section Runs

variable {h : List (Mealy.Step Session Event PassReport)} {s s' : Session}
  {e : Event} {inbox : List EngineMessage}

/-- Where nothing is read there is nothing to be out of turn. -/
theorem Sound.of_silent (ht : Traffic (answersRead h).length s')
    (hstep : scenario.step s e = (s', .silent)) : Sound h s e where
  traffic := by
    rw [answersRead_concat, Mealy.stepAt_output, hstep]
    show Traffic (answersRead h ++ []).length s'
    rw [List.append_nil]
    exact ht
  silent_iff := by
    rw [hstep]
    refine iff_of_true rfl ?_
    intro deadline resp _ hread
    rw [Mealy.stepAt_output, hstep] at hread
    exact absurd hread (by simp [PassReport.silent])

/-- An answer dropped in a delay counts as read, and a heartbeat does not. -/
theorem Sound.of_drained {msg : EngineMessage}
    (ht : Traffic (answersRead h).length s) (hinbox : s.inbox = msg :: inbox)
    (hskip : (∀ deadline, s.stage ≠ .awaiting deadline)
      ∨ ∀ resp, msg ≠ .response resp)
    (hstep : scenario.step s e = ({ s with inbox }, ⟨some msg, []⟩)) :
    Sound h s e where
  traffic := by
    rw [answersRead_concat, Mealy.stepAt_output, hstep]
    cases msg with
    | heartbeat status =>
        show Traffic (answersRead h ++ []).length { s with inbox }
        rw [List.append_nil]
        exact ht.skipped hinbox
    | response resp =>
        rw [List.length_append]
        exact (ht.read hinbox s.stage).1
  silent_iff := by
    rw [hstep]
    refine iff_of_true rfl ?_
    intro deadline resp hstage hread
    rw [Mealy.stepAt_output, hstep] at hread
    injection hread with hread
    rcases hskip with hskip | hskip
    · exact absurd hstage (hskip deadline)
    · exact absurd hread (hskip resp)

/-- The answer read is the one after those read so far; it is the one awaited
if that is the last directive's. -/
theorem Sound.of_answered {deadline : Nat} {resp : CommandResponse}
    (ht : Traffic (answersRead h).length s)
    (hstage : s.stage = .awaiting deadline)
    (hinbox : s.inbox = .response resp :: inbox)
    (hstep : scenario.step s e = ({ s with inbox, stage := .next },
      ⟨some (.response resp), validateResponse s.seqId resp 1⟩)) :
    Sound h s e := by
  obtain ⟨hnext, hseq, hlen⟩ := ht.read hinbox .next
  constructor
  · rw [answersRead_concat, Mealy.stepAt_output, hstep, List.length_append]
    exact hnext
  · unfold InTurn
    rw [Mealy.stepAt_output, hstep, validateResponse_eq_nil, hseq]
    constructor
    · intro ⟨hturn, _⟩ _ _ _ _
      exact hturn
    · intro hturn
      exact ⟨hturn deadline resp hstage rfl, hlen⟩

/-- **Every step is sound.** -/
theorem sound (ht : Traffic (answersRead h).length s) (e : Event) :
    Sound h s e := by
  cases e with
  | heartbeat status => exact .of_silent (ht.heartbeat status) rfl
  | answer verdict => exact .of_silent (ht.answer verdict) rfl
  | pass now =>
      have hpass := pass_spec now s
      generalize hstep : s.pass now = result at hpass
      obtain ⟨s', report⟩ := result
      change scenario.step s (.pass now) = (s', report) at hstep
      cases hpass with
      | idle commands stage =>
          have hidle : Traffic (answersRead h).length
              { s with commands, stage } :=
            ⟨ht.outstanding, ht.results, ht.commands⟩
          exact .of_silent hidle hstep
      | sent cmd deadline => exact .of_silent (ht.sent cmd _) hstep
      | drained hinbox hskip => exact .of_drained ht hinbox hskip hstep
      | answered hstage hinbox => exact .of_answered ht hstage hinbox hstep

end Runs

/-- Nothing is outstanding before the first command. -/
theorem start_traffic (commands : List ScenarioCommand) :
    Traffic 0 (Session.start commands) where
  outstanding := ⟨0, rfl, rfl⟩
  results := by
    intro resp hresp
    exact absurd hresp (by simp [Session.start])
  commands := by
    intro d hd
    exact absurd hd (by simp [Session.start])

/-- **When the checker raises no false alarm.**  Over every scenario and every
order of passes, answers and heartbeats: it prints no violation exactly if
every answer it reads in a response wait comes after the answers to all earlier
directives. -/
theorem no_false_alarm_iff (commands : List ScenarioCommand)
    (events : List Event) :
    scenario.Along (.start commands) events
        (fun _ e => e.output.violations = [])
      ↔ scenario.Along (.start commands) events InTurn := by
  refine Mealy.along_congr ?_
  refine Mealy.along_of_steps
    (I := fun h s => Traffic (answersRead h).length s) ?_ ?_ ?_ events
  · exact start_traffic commands
  · intro h s e ht
    exact (sound ht e).traffic
  · intro h s e ht
    exact (sound ht e).silent_iff

/-- Two commands without a delay. -/
def suspendResume : List ScenarioCommand :=
  [⟨0, "Suspend", none⟩, ⟨0, "Resume", none⟩]

/-- The first response wait expires, the answer comes right after it, and the
second command is sent. -/
def lateAnswer : List Event :=
  [.pass 0, .pass 0, .pass 5000, .answer fun _ _ => .ok, .pass 5000,
    .pass 5000]

/-- The second wait reads the first answer and takes it for its own. -/
theorem late_answer_reported :
    ¬ ∀ (commands : List ScenarioCommand) (events : List Event),
        scenario.Along (.start commands) events
          fun _ e => e.output.violations = [] := by
  intro h
  have hlast := (h suspendResume (lateAnswer ++ .pass 5001 :: [])).at_step
  have hprinted : ((scenario.stepAt
      (scenario.exec (.start suspendResume) lateAnswer)
      (.pass 5001)).output.violations).isEmpty = false := by
    decide +kernel
  rw [hlast] at hprinted
  exact absurd hprinted (by simp)

end ArgusManager.MockManager
