/-
  ArgusManager.Monitor.External
  ─────────────────────────────
  **The external monitor** (`src/monitor/external.rs`): signals injected as
  JSON Lines, over standard input or by one client after the other.

  A client is what its lines turn out to be when they are read; the JSON
  decoder is a parameter.

    • `serve_clients`  — a client's errors end with the client,
    • `injected_lines` — what the clients write, with blank and malformed lines
                         in between, is what is sent.
-/
import ArgusManager.Lib.Lines
import ArgusManager.Signal

namespace ArgusManager

open StrScan

namespace ExternalMonitor

/-! ## §1. The monitor. -/

inductive ExternalTransport where
  | unixSocket (path : Text)
  | tcp (addr : Text)
  | stdin
  deriving DecidableEq, Repr

/-- `ExternalMonitor::new`. -/
def new (transport : Text) : ExternalTransport :=
  if transport = "stdin".toList ∨ transport = "-".toList then .stdin
  else
    match stripPrefix "unix:".toList transport with
    | some path => .unixSocket path
    | none =>
        match stripPrefix "tcp:".toList transport with
        | some addr => .tcp addr
        -- "Unknown transport … defaulting to stdin"
        | none => .stdin

/-- One turn of the loop over the lines: whether the shutdown flag is set, the
line, and whether the receiver is gone. -/
structure LineRead where
  shutdown : Bool
  line : Except String Text
  receiverGone : Bool

/-- The text of a line that is worth decoding. -/
def payload? (line : Text) : Option Text :=
  let text := trim line
  if text.isEmpty then none else some text

variable (decode : Text → Option SystemSignal)

/-- The signal that a line injects. -/
def injected (line : Text) : Option SystemSignal :=
  (payload? line).bind decode

/-- `run_with_reader`: the signals sent until it returns. -/
def runWithReader : List LineRead → List SystemSignal
  | [] => []
  | read :: reads =>
      if read.shutdown then []
      else
        match read.line with
        | .error _ => []
        | .ok line =>
            match payload? line with
            | none => runWithReader reads
            | some text =>
                match decode text with
                | some signal =>
                    if read.receiverGone then []
                    else signal :: runWithReader reads
                -- "Parse error"
                | none => runWithReader reads

/-- One turn of the accept loop of a socket transport. -/
inductive AcceptTurn where
  | client (reads : List LineRead)
  /-- The stream cannot be made blocking. -/
  | unusable (error : String)
  | wouldBlock
  | failed (error : String)

/-- `run_unix_socket` and `run_tcp_socket` once the listener is bound, with
the shutdown flag at the head of every turn: the signals sent, and how `run`
ends, or nothing while it goes on. -/
def serve : List (Bool × AcceptTurn) →
    List SystemSignal × Option (Except String Unit)
  | [] => ([], none)
  | (shutdown, turn) :: turns =>
      if shutdown then ([], some (.ok ()))
      else
        match turn with
        | .client reads =>
            let (signals, exit) := serve turns
            (runWithReader decode reads ++ signals, exit)
        | .unusable e => ([], some (.error e))
        | .wouldBlock => serve turns
        | .failed _ => ([], some (.ok ()))

/-! ## §2. What the lines of a client inject. -/

/-- The lines that `BufRead::lines` yields: where a read fails, what was read
of a line that has not ended is dropped. -/
def received (text : Text) : Option String → List Text
  | none => lines text
  | some _ => lines (completed text)

/-- A reader that is read to its end: its lines, and a read error behind them
if there is one. -/
def reads (text : Text) (error : Option String) : List LineRead :=
  (received text error).map (fun line => ⟨false, .ok line, false⟩)
    ++ (error.map fun e => ⟨false, .error e, false⟩).toList

/-- A line injects what it decodes to. -/
theorem runWithReader_line (line : Text) (rest : List LineRead) :
    runWithReader decode (⟨false, .ok line, false⟩ :: rest)
      = (injected decode line).toList ++ runWithReader decode rest := by
  unfold injected
  rw [runWithReader, if_neg (by simp)]
  dsimp only
  cases payload? line with
  | none => rfl
  | some text =>
      show (match decode text with
        | some signal => if false = true then [] else signal :: _
        | none => _) = (decode text).toList ++ _
      cases decode text with
      | none => rfl
      | some signal => rfl

/-- **What is read up to an error is injected.** -/
theorem runWithReader_reads (text : Text) (error : Option String) :
    runWithReader decode (reads text error)
      = (received text error).filterMap (injected decode) := by
  unfold reads
  induction received text error with
  | nil => cases error <;> rfl
  | cons line lines ih =>
      rw [List.map_cons, List.cons_append, runWithReader_line, ih]
      cases hline : injected decode line with
      | none => rw [List.filterMap_cons_none hline]; rfl
      | some signal => rw [List.filterMap_cons_some hline]; rfl

/-- What a client sends before it closes its connection, or before a read of
it fails. -/
structure Client where
  text : Text
  error : Option String

/-- The accept loop meets some clients, with idle turns in between. -/
def turns (clients : List (Nat × Client)) : List (Bool × AcceptTurn) :=
  clients.flatMap fun (idle, client) =>
    List.replicate idle (false, .wouldBlock)
      ++ [(false, .client (reads client.text client.error))]

theorem serve_idle (idle : Nat) (rest : List (Bool × AcceptTurn)) :
    serve decode (List.replicate idle (false, .wouldBlock) ++ rest)
      = serve decode rest := by
  induction idle with
  | zero => rfl
  | succ idle ih =>
      rw [List.replicate_succ, List.cons_append]
      exact ih

theorem serve_client (rs : List LineRead) (rest : List (Bool × AcceptTurn)) :
    serve decode ((false, .client rs) :: rest)
      = (runWithReader decode rs ++ (serve decode rest).1,
          (serve decode rest).2) :=
  rfl

theorem turns_cons (idle : Nat) (client : Client)
    (clients : List (Nat × Client)) :
    turns ((idle, client) :: clients)
      = List.replicate idle (false, .wouldBlock)
        ++ (false, .client (reads client.text client.error))
          :: turns clients := by
  unfold turns
  rw [List.flatMap_cons, List.append_assoc]
  rfl

/-- **One client after the other**, whatever ends them. -/
theorem serve_clients (clients : List (Nat × Client)) :
    serve decode (turns clients)
      = (clients.flatMap fun c =>
          (received c.2.text c.2.error).filterMap (injected decode), none) := by
  induction clients with
  | nil => rfl
  | cons c clients ih =>
      obtain ⟨idle, client⟩ := c
      rw [turns_cons, serve_idle, serve_client, ih, runWithReader_reads]
      rfl

/-! ## §3. What is written is injected. -/

/-- The decoder reads back what the encoder writes for a signal. -/
structure Readable (encode : SystemSignal → Text) (signal : SystemSignal) :
    Prop where
  decode_encode : decode (encode signal) = some signal
  trimmed : Trimmed (encode signal)
  nonempty : encode signal ≠ []

/-- What a client writes on a line. -/
inductive Entry where
  | injection (signal : SystemSignal) (before after : Text)
  /-- Blank, or nothing that decodes. -/
  | other (line : Text)

namespace Entry

def line (encode : SystemSignal → Text) : Entry → Text
  | .injection signal before after => before ++ encode signal ++ after
  | .other line => line

def signal? : Entry → Option SystemSignal
  | .injection signal _ _ => some signal
  | .other _ => none

/-- A signal has blanks around it at most. -/
def Proper (encode : SystemSignal → Text) : Entry → Prop
  | .injection signal before after =>
      Readable decode encode signal ∧ Blank before ∧ Blank after
  | .other line => injected decode line = none

/-- What stands on one line. -/
structure Wellformed (encode : SystemSignal → Text) (e : Entry) : Prop where
  one_line : '\n' ∉ e.line encode
  proper : e.Proper decode encode

end Entry

theorem trim_padded {before s after : Text} (hbefore : Blank before)
    (hs : Trimmed s) (hne : s ≠ []) (hafter : Blank after) :
    trim (before ++ s ++ after) = s := by
  rw [List.append_assoc, trim_eq, List.dropWhile_append_of_pos hbefore,
    ← trim_eq]
  exact trim_append_blank hs hne hafter

variable {decode} {encode : SystemSignal → Text}

/-- **A line injects what was written on it.** -/
theorem injected_line {e : Entry} (he : e.Wellformed decode encode) :
    injected decode (e.line encode) = e.signal? := by
  cases e with
  | other line => exact he.proper
  | injection signal before after =>
      obtain ⟨h, hbefore, hafter⟩ := he.proper
      unfold injected payload? Entry.line
      dsimp only
      rw [trim_padded hbefore h.trimmed h.nonempty hafter,
        if_neg (by simpa using h.nonempty)]
      exact h.decode_encode

/-- The lines of one client, each with its break; the last may lack one. -/
structure Script where
  entries : List (Entry × Break)
  last : Option Entry
  error : Option String

namespace Script

def text (encode : SystemSignal → Text) (c : Script) : Text :=
  (c.entries.flatMap fun x => x.1.line encode ++ x.2.text)
    ++ (c.last.map (Entry.line encode)).getD []

/-- What is written with a break arrives; a last line without one arrives as
well, unless a read fails behind it. -/
def arriving (c : Script) : List Entry :=
  match c.error with
  | none => c.entries.map Prod.fst ++ c.last.toList
  | some _ => c.entries.map Prod.fst

def signals (c : Script) : List SystemSignal :=
  c.arriving.filterMap Entry.signal?

structure Wellformed (decode : Text → Option SystemSignal)
    (encode : SystemSignal → Text) (c : Script) : Prop where
  entries : ∀ x ∈ c.entries, x.1.Wellformed decode encode
  breaks : ∀ x ∈ c.entries, x.2.Fits (x.1.line encode)
  last : ∀ e ∈ c.last, e.Wellformed decode encode ∧ e.line encode ≠ []

end Script

/-- Lines with breaks inject what was written on them, before whatever
follows. -/
theorem injected_broken {c : Script} (hc : c.Wellformed decode encode)
    (rest : Text) :
    (lines ((c.entries.flatMap fun x => x.1.line encode ++ x.2.text)
        ++ rest)).filterMap (injected decode)
      = (c.entries.map Prod.fst).filterMap Entry.signal?
        ++ (lines rest).filterMap (injected decode) := by
  have hentries : (c.entries.map fun x => x.1.line encode).filterMap
      (injected decode) = (c.entries.map Prod.fst).filterMap Entry.signal? := by
    rw [List.filterMap_map, List.filterMap_map]
    exact List.filterMap_congr fun x hx => injected_line (hc.entries x hx)
  rw [lines_terminated (fun x : Entry × Break => x.1.line encode) Prod.snd
      c.entries _ (fun x hx => (hc.entries x hx).one_line) hc.breaks,
    List.filterMap_append, hentries]

/-- A last line that has no break. -/
theorem injected_last {c : Script} (hc : c.Wellformed decode encode) :
    (lines ((c.last.map (Entry.line encode)).getD [])).filterMap
        (injected decode)
      = c.last.toList.filterMap Entry.signal? := by
  cases hlast : c.last with
  | none => rfl
  | some e =>
      obtain ⟨he, hne⟩ := hc.last e hlast
      show (lines (e.line encode)).filterMap _ = [e].filterMap _
      rw [lines_unbroken he.one_line hne]
      have hone := injected_line he
      cases hs : e.signal? with
      | none =>
          rw [hs] at hone
          rw [List.filterMap_cons_none hone, List.filterMap_cons_none hs]
          rfl
      | some signal =>
          rw [hs] at hone
          rw [List.filterMap_cons_some hone, List.filterMap_cons_some hs]
          rfl

theorem last_unbroken {c : Script} (hc : c.Wellformed decode encode) :
    '\n' ∉ (c.last.map (Entry.line encode)).getD [] := by
  cases hlast : c.last with
  | none => exact List.not_mem_nil
  | some e => exact (hc.last e hlast).1.one_line

theorem injected_text {c : Script} (hc : c.Wellformed decode encode) :
    (received (c.text encode) c.error).filterMap (injected decode)
      = c.signals := by
  unfold Script.signals Script.arriving Script.text
  cases c.error with
  | none =>
      show (lines _).filterMap (injected decode) = _
      rw [injected_broken hc, injected_last hc, List.filterMap_append]
  | some e =>
      show (lines (completed _)).filterMap (injected decode) = _
      rw [completed_broken _ _ _ (last_unbroken hc)]
      have hbroken := injected_broken hc []
      rw [List.append_nil, lines_nil, List.filterMap_nil,
        List.append_nil] at hbroken
      exact hbroken

/-- **What the clients write is what is sent.**  Any number of clients, each
with any number of lines ended either way, blank and malformed ones among
them, and with a read error behind them or not: the signals go out once each,
in the order they were written, but for one on a line that a read error
cuts. -/
theorem injected_lines (clients : List (Nat × Script))
    (hclients : ∀ c ∈ clients, c.2.Wellformed decode encode) :
    serve decode (turns (clients.map fun c =>
        (c.1, (⟨c.2.text encode, c.2.error⟩ : Client))))
      = (clients.flatMap fun c => c.2.signals, none) := by
  rw [serve_clients, List.flatMap_map]
  refine congrArg (·, none) ?_
  induction clients with
  | nil => rfl
  | cons c clients ih =>
      rw [List.flatMap_cons, List.flatMap_cons,
        injected_text (hclients c List.mem_cons_self),
        ih fun d hd => hclients d (List.mem_cons_of_mem _ hd)]

/-- A thermal alert and its JSON. -/
def alert : SystemSignal := .thermalAlert .warning 65000 false 1

def alertJson : Text :=
  "\x7b\"thermal_alert\":\x7b\"level\":\"warning\",".toList
    ++ "\"temperature_mc\":65000,\"throttling_active\":false,".toList
    ++ "\"throttle_ratio\":1.0\x7d\x7d".toList

/-- A decoder that knows one object. -/
def decodeAlert (text : Text) : Option SystemSignal :=
  if text = alertJson then some alert else none

/-- A malformed line, then the alert on a line of its own, then the alert on a
line that a read error cuts. -/
def sampleScript : Script where
  entries := [(.other "not json".toList, .lf), (.injection alert [' '] [], .lf)]
  last := some (.injection alert [] [])
  error := some "connection reset"

theorem alert_readable : Readable decodeAlert (fun _ => alertJson) alert where
  decode_encode := if_pos rfl
  trimmed := by
    constructor
    · intro c hc
      have hhead : alertJson.head? = some '\x7b' := by decide
      rw [hhead] at hc
      rw [← Option.some.inj hc]
      decide
    · intro c hc
      have hlast : alertJson.getLast? = some '\x7d' := by decide
      rw [hlast] at hc
      rw [← Option.some.inj hc]
      decide
  nonempty := by decide

theorem injected_lines_sample :
    serve decodeAlert (turns
        [(1, ⟨sampleScript.text fun _ => alertJson, sampleScript.error⟩)])
      = ([alert], none) := by
  refine injected_lines [(1, sampleScript)] ?_
  intro c hc
  rw [List.mem_singleton.mp hc]
  have hblank : Blank [' '] := by
    intro d hd
    rw [List.mem_singleton.mp hd]
    rfl
  refine ⟨?_, ?_, ?_⟩
  · intro x hx
    rcases List.mem_cons.mp hx with rfl | hx
    · exact ⟨by decide, rfl⟩
    · rw [List.mem_singleton.mp hx]
      exact ⟨by decide, alert_readable, hblank, Blank.nil⟩
  · intro x hx
    rcases List.mem_cons.mp hx with rfl | hx
    · show List.getLast? _ ≠ _
      decide
    · rw [List.mem_singleton.mp hx]
      show List.getLast? _ ≠ _
      decide
  · intro e he
    rw [← Option.some.inj he]
    exact ⟨⟨by decide, alert_readable, Blank.nil, Blank.nil⟩, by decide⟩

end ExternalMonitor

end ArgusManager
