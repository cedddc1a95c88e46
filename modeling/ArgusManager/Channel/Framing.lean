/-
  ArgusManager.Channel.Framing
  ────────────────────────────
  **What a connection was handed is frames.**

  Header and payload are two writes and either may fail anywhere, but a
  failure is the last thing a connection sees: it is detached then, and a
  connection is attached at most once.

    • `emitBytes_cases` — everything an emit can do,
    • `Framed`          — the frames written to a connection and, once it is
                          retired, a frame cut short,
    • `wire_framed`     — so, after any run, the bytes handed to a connection
                          split into exactly the messages whose write
                          succeeded, and at most a cut frame.
-/
import ArgusManager.Channel.Attach
import ArgusManager.Channel.Connections
import ArgusManager.Channel.Reader

namespace ArgusManager.SocketChannel

variable {kind : ChannelKind}

/-! ## §1. One emit. -/

/-- A write that fails hands over a proper prefix. -/
theorem writeAll_cut {bytes : List UInt8} {takes : Option Nat}
    (h : (writeAll bytes takes).2 = false) :
    (writeAll bytes takes).1 <+: bytes ∧ (writeAll bytes takes).1 ≠ bytes := by
  unfold writeAll at *
  cases takes with
  | none => exact absurd h (by simp)
  | some n =>
      dsimp only at *
      by_cases hn : n < bytes.length
      · rw [if_pos hn]
        refine ⟨List.take_prefix n bytes, ?_⟩
        intro heq
        have hlen := congrArg List.length heq
        rw [List.length_take] at hlen
        omega
      · rw [if_neg hn] at h
        exact absurd h (by simp)

/-- **Everything an emit can do**, once it has tried to attach a client: drop
the message, hand the frame over, or hand over a part of it and detach. -/
theorem emitBytes_cases (json : List UInt8) (io : EmitIo)
    (ch : SocketChannel kind) :
    ((ch.emitBytes json io).2 = .dropped
      ∧ (ch.emitBytes json io).1 = ch.ensureConnected io.attach)
    ∨ (∃ s, (ch.ensureConnected io.attach).state = .connected s
      ∧ (ch.emitBytes json io).2 = .written s
      ∧ (ch.emitBytes json io).1
        = (ch.ensureConnected io.attach).push s (frame json))
    ∨ (∃ s sent, (ch.ensureConnected io.attach).state = .connected s
      ∧ (ch.emitBytes json io).2 = .failed s
      ∧ sent <+: frame json ∧ sent ≠ frame json
      ∧ (ch.emitBytes json io).1
        = { (ch.ensureConnected io.attach).push s sent with
            state := .disconnected }) := by
  by_cases hc : ∃ s, (ch.ensureConnected io.attach).state = .connected s
  · obtain ⟨s, hs⟩ := hc
    rw [emitBytes_connected hs]
    by_cases hok : (writeAll (frame json) io.takes).2 = true
    · rw [if_pos hok, writeAll_complete hok]
      exact .inr (.inl ⟨s, hs, rfl, rfl⟩)
    · rw [if_neg hok]
      obtain ⟨hpre, hne⟩ := writeAll_cut (Bool.not_eq_true _ ▸ hok)
      exact .inr (.inr ⟨s, _, hs, rfl, hpre, hne, rfl⟩)
  · rw [emitBytes_dropped (not_exists.mp hc)]
    exact .inl ⟨rfl, rfl⟩

theorem push_wire_ne (ch : SocketChannel kind) {s t : Stream} (h : t ≠ s)
    (bytes : List UInt8) : (ch.push s bytes).wire t = ch.wire t :=
  Function.update_of_ne h _ _

theorem emitBytes_moves (json : List UInt8) (io : EmitIo)
    (ch : SocketChannel kind) :
    Moves ch.conn (ch.emitBytes json io).1.conn := by
  obtain ⟨hmoves, _⟩ := ch.ensureConnected_moves io.attach
  rcases emitBytes_cases json io ch
    with ⟨_, h⟩ | ⟨s, _, _, h⟩ | ⟨s, sent, _, _, _, _, h⟩
  · rw [h]
    exact hmoves
  · rw [h]
    exact hmoves
  · rw [h]
    exact hmoves.tail (.detach _ _)

/-! ## §2. One operation. -/

/-- An operation that emits nothing is a sequence of moves that hands nobody
a byte. -/
theorem apply_quiet {codec : Codec} {op : ChannelOp}
    (h : op.payload codec = none) (ch : SocketChannel kind) :
    Moves ch.conn (ch.apply codec op).1.conn
      ∧ (ch.apply codec op).1.wire = ch.wire := by
  cases op with
  | connect => exact ⟨.single (.arrive ch.listener ch.state), rfl⟩
  | waitForClient polls => exact waitForClient_moves polls ch
  | emit signal io => exact absurd h (by simp [ChannelOp.payload])
  | emitDirective directive io =>
      exact absurd h (by simp [ChannelOp.payload])
  | tryRecv poll => exact ⟨tryRecv_moves ch poll, (tryRecv_frame ch poll).1⟩

theorem apply_moves (codec : Codec) (op : ChannelOp)
    (ch : SocketChannel kind) :
    Moves ch.conn (ch.apply codec op).1.conn := by
  cases hop : op.payload codec with
  | none => exact (apply_quiet hop ch).1
  | some found =>
      obtain ⟨json, io⟩ := found
      rw [apply_of_payload hop]
      exact emitBytes_moves json io ch

/-- A retired connection is handed nothing. -/
theorem apply_wire_retired (codec : Codec) (op : ChannelOp)
    {ch : SocketChannel kind} {s : Stream} (hs : Retired s ch.conn) :
    (ch.apply codec op).1.wire s = ch.wire s := by
  cases hop : op.payload codec with
  | none => exact congrFun (apply_quiet hop ch).2 s
  | some found =>
      obtain ⟨json, io⟩ := found
      rw [apply_of_payload hop]
      obtain ⟨hmoves, hwire⟩ := ch.ensureConnected_moves io.attach
      have hne : ∀ t, (ch.ensureConnected io.attach).state = .connected t →
          s ≠ t := by
        rintro t ht rfl
        exact (Moves.retired hmoves hs).detached ht
      rcases emitBytes_cases json io ch
        with ⟨_, h⟩ | ⟨t, ht, _, h⟩ | ⟨t, sent, ht, _, _, _, h⟩
      · rw [h, hwire]
      · rw [h, push_wire_ne _ (hne t ht), hwire]
      · rw [h]
        show ((ch.ensureConnected io.attach).push t sent).wire s = _
        rw [push_wire_ne _ (hne t ht), hwire]

/-! ## §3. Histories. -/

abbrev ChannelStep (kind : ChannelKind) :=
  Mealy.Step (SocketChannel kind) ChannelOp ChannelOutput

def ChannelOutput.report? : ChannelOutput → Option EmitReport
  | .emitted report => some report
  | _ => none

/-- The payload of a step whose emit ended with this report. -/
def reported (codec : Codec) (report : EmitReport) (e : ChannelStep kind) :
    Option (List UInt8) :=
  if e.output.report? = some report then
    (e.input.payload codec).map Prod.fst
  else none

/-- The messages whose write to `s` succeeded, in call order. -/
def writtenOn (codec : Codec) (s : Stream) (h : List (ChannelStep kind)) :
    List (List UInt8) :=
  h.filterMap (reported codec (.written s))

/-- The messages whose write to `s` failed. -/
def failedOn (codec : Codec) (s : Stream) (h : List (ChannelStep kind)) :
    List (List UInt8) :=
  h.filterMap (reported codec (.failed s))

theorem filterMap_reported_concat (codec : Codec) (report : EmitReport)
    (h : List (ChannelStep kind)) (e : ChannelStep kind) :
    (h ++ [e]).filterMap (reported codec report)
      = h.filterMap (reported codec report)
        ++ (reported codec report e).toList := by
  rw [List.filterMap_append]
  cases he : reported codec report e <;> simp [he]

theorem reported_quiet {codec : Codec} {op : ChannelOp}
    (h : op.payload codec = none) (report : EmitReport)
    (ch : SocketChannel kind) :
    reported codec report ((machine kind codec).stepAt ch op) = none := by
  unfold reported
  rw [Mealy.stepAt_input, h]
  exact ite_self _

theorem reported_emit {codec : Codec} {op : ChannelOp} {json : List UInt8}
    {io : EmitIo} (h : op.payload codec = some (json, io))
    (report : EmitReport) (ch : SocketChannel kind) :
    reported codec report ((machine kind codec).stepAt ch op)
      = if (ch.emitBytes json io).2 = report then some json else none := by
  unfold reported
  rw [Mealy.stepAt_input, Mealy.stepAt_output, h,
    show (machine kind codec).step ch op = ch.apply codec op from rfl,
    apply_of_payload h]
  simp [ChannelOutput.report?]

theorem reported_isSome (codec : Codec) {report : EmitReport}
    {op : ChannelOp} {ch : SocketChannel kind}
    (h : ((machine kind codec).stepAt ch op).output.report? = some report) :
    (reported codec report ((machine kind codec).stepAt ch op)).isSome := by
  unfold reported
  rw [if_pos h]
  cases op with
  | emit => rfl
  | emitDirective => rfl
  | connect => exact absurd h (by simp [machine, apply, ChannelOutput.report?])
  | waitForClient =>
      exact absurd h (by simp [machine, apply, ChannelOutput.report?])
  | tryRecv => exact absurd h (by simp [machine, apply, ChannelOutput.report?])

/-- **What a connection was handed**: the frames written to it and, once it is
retired, at most a frame cut short. -/
structure Framed (codec : Codec) (s : Stream) (h : List (ChannelStep kind))
    (ch : SocketChannel kind) : Prop where
  wire : ∃ tail, ch.wire s = (writtenOn codec s h).flatMap frame ++ tail
    ∧ (tail = [] ∨ (Retired s ch.conn ∧ ∃ json ∈ failedOn codec s h,
      tail <+: frame json ∧ tail ≠ frame json))
  failed : failedOn codec s h ≠ [] → Retired s ch.conn

/-- A step that says nothing of `s` and hands it nothing. -/
theorem Framed.skip {codec : Codec} {s : Stream}
    {h : List (ChannelStep kind)} {ch ch' : SocketChannel kind}
    {e : ChannelStep kind} (hf : Framed codec s h ch)
    (hwire : ch'.wire s = ch.wire s)
    (hretired : Retired s ch.conn → Retired s ch'.conn)
    (hwritten : reported codec (.written s) e = none)
    (hfailed : reported codec (.failed s) e = none) :
    Framed codec s (h ++ [e]) ch' := by
  have hw : writtenOn codec s (h ++ [e]) = writtenOn codec s h := by
    unfold writtenOn
    rw [filterMap_reported_concat, hwritten]
    exact List.append_nil _
  have hfl : failedOn codec s (h ++ [e]) = failedOn codec s h := by
    unfold failedOn
    rw [filterMap_reported_concat, hfailed]
    exact List.append_nil _
  obtain ⟨tail, hsplit, htail⟩ := hf.wire
  refine ⟨⟨tail, by rw [hwire, hw, hsplit], ?_⟩, ?_⟩
  · rw [hfl]
    exact htail.imp id fun ⟨hr, hcut⟩ => ⟨hretired hr, hcut⟩
  · rw [hfl]
    exact fun hne => hretired (hf.failed hne)

/-- An attached connection holds whole frames. -/
theorem Framed.attached {codec : Codec} {s : Stream}
    {h : List (ChannelStep kind)} {ch : SocketChannel kind}
    (hf : Framed codec s h ch) (hs : ¬ Retired s ch.conn) :
    ch.wire s = (writtenOn codec s h).flatMap frame
      ∧ failedOn codec s h = [] := by
  obtain ⟨tail, hsplit, htail⟩ := hf.wire
  refine ⟨?_, ?_⟩
  · rcases htail with rfl | ⟨hr, _⟩
    · rw [hsplit, List.append_nil]
    · exact absurd hr hs
  · by_contra hne
    exact hs (hf.failed hne)

/-- A step that hands `s` a whole frame. -/
theorem Framed.write {codec : Codec} {s : Stream}
    {h : List (ChannelStep kind)} {ch ch' : SocketChannel kind}
    {e : ChannelStep kind} {json : List UInt8} (hf : Framed codec s h ch)
    (hs : ¬ Retired s ch.conn) (hwire : ch'.wire s = ch.wire s ++ frame json)
    (hwritten : reported codec (.written s) e = some json)
    (hfailed : reported codec (.failed s) e = none) :
    Framed codec s (h ++ [e]) ch' := by
  obtain ⟨hsofar, hnofail⟩ := hf.attached hs
  have hw : writtenOn codec s (h ++ [e]) = writtenOn codec s h ++ [json] := by
    unfold writtenOn
    rw [filterMap_reported_concat, hwritten]
    rfl
  have hfl : failedOn codec s (h ++ [e]) = [] := by
    unfold failedOn at hnofail ⊢
    rw [filterMap_reported_concat, hfailed, hnofail]
    rfl
  refine ⟨⟨[], ?_, .inl rfl⟩, fun hne => absurd hfl hne⟩
  rw [hwire, hsofar, hw, List.append_nil, List.flatMap_append,
    List.flatMap_singleton]

/-- A step that hands `s` a frame cut short, the last thing it is handed. -/
theorem Framed.cut {codec : Codec} {s : Stream} {h : List (ChannelStep kind)}
    {ch ch' : SocketChannel kind} {e : ChannelStep kind}
    {json sent : List UInt8} (hf : Framed codec s h ch)
    (hs : ¬ Retired s ch.conn) (hwire : ch'.wire s = ch.wire s ++ sent)
    (hpre : sent <+: frame json) (hne : sent ≠ frame json)
    (hretired : Retired s ch'.conn)
    (hwritten : reported codec (.written s) e = none)
    (hfailed : reported codec (.failed s) e = some json) :
    Framed codec s (h ++ [e]) ch' := by
  obtain ⟨hsofar, _⟩ := hf.attached hs
  have hw : writtenOn codec s (h ++ [e]) = writtenOn codec s h := by
    unfold writtenOn
    rw [filterMap_reported_concat, hwritten]
    exact List.append_nil _
  have hfl : json ∈ failedOn codec s (h ++ [e]) := by
    unfold failedOn
    rw [filterMap_reported_concat, hfailed]
    simp
  refine ⟨⟨sent, ?_, .inr ⟨hretired, json, hfl, hpre, hne⟩⟩,
    fun _ => hretired⟩
  rw [hwire, hsofar, hw]

/-- One emit keeps every connection framed. -/
theorem framed_emit {codec : Codec} {h : List (ChannelStep kind)}
    {ch : SocketChannel kind} {op : ChannelOp} {json : List UInt8}
    {io : EmitIo} (hop : op.payload codec = some (json, io))
    (hfresh : Fresh ch.conn) (s : Stream) (hf : Framed codec s h ch) :
    Framed codec s (h ++ [(machine kind codec).stepAt ch op])
      (ch.emitBytes json io).1 := by
  obtain ⟨hmoves, hwire⟩ := ch.ensureConnected_moves io.attach
  have hkeep : Retired s ch.conn → Retired s (ch.emitBytes json io).1.conn :=
    Moves.retired (emitBytes_moves json io ch)
  have hnot : (ch.ensureConnected io.attach).state = .connected s →
      ¬ Retired s ch.conn := fun ht hr => (Moves.retired hmoves hr).detached ht
  have hwrote := reported_emit hop (.written s) ch
  have hfail := reported_emit hop (.failed s) ch
  rcases emitBytes_cases json io ch
    with ⟨hout, hch⟩ | ⟨t, ht, hout, hch⟩ | ⟨t, sent, ht, hout, hpre, hne, hch⟩
  · -- nobody attached: the message is dropped
    rw [hout] at hwrote hfail
    refine hf.skip ?_ hkeep (by simpa using hwrote) (by simpa using hfail)
    rw [hch, hwire]
  · -- the whole frame was written
    by_cases hst : s = t
    · subst hst
      rw [hout, if_pos rfl] at hwrote
      rw [hout, if_neg (by simp)] at hfail
      refine hf.write (hnot ht) ?_ hwrote hfail
      rw [hch, push_wire_self, hwire]
    · rw [hout, if_neg (by simp [Ne.symm hst])] at hwrote
      rw [hout, if_neg (by simp)] at hfail
      refine hf.skip ?_ hkeep hwrote hfail
      rw [hch, push_wire_ne _ hst, hwire]
  · -- a write failed inside the frame, and the connection is given up
    by_cases hst : s = t
    · subst hst
      have hretired : Retired s (ch.emitBytes json io).1.conn := by
        obtain ⟨hlt, hout'⟩ :=
          (Moves.fresh hmoves hfresh).attached s ht
        rw [hch]
        exact ⟨hlt, hout', by simp [conn]⟩
      rw [hout, if_neg (by simp)] at hwrote
      rw [hout, if_pos rfl] at hfail
      refine hf.cut (hnot ht) ?_ hpre hne hretired hwrote hfail
      rw [hch]
      show ((ch.ensureConnected io.attach).push s sent).wire s = _
      rw [push_wire_self, hwire]
    · rw [hout, if_neg (by simp)] at hwrote
      rw [hout, if_neg (by simp [Ne.symm hst])] at hfail
      refine hf.skip ?_ hkeep hwrote hfail
      rw [hch]
      show ((ch.ensureConnected io.attach).push t sent).wire s = _
      rw [push_wire_ne _ hst, hwire]

/-- **Every connection stays framed.** -/
theorem framed_run (codec : Codec) (ops : List ChannelOp) :
    Fresh ((machine kind codec).exec new ops).conn
      ∧ ∀ s, Framed codec s ((machine kind codec).trace new ops)
          ((machine kind codec).exec new ops) := by
  refine Mealy.history_of_steps
    (I := fun h (ch : SocketChannel kind) =>
      Fresh ch.conn ∧ ∀ s, Framed codec s h ch) ?_ ?_ ops
  · exact ⟨fresh_new, fun s =>
      ⟨⟨[], rfl, .inl rfl⟩, fun hne => absurd rfl hne⟩⟩
  · intro h ch op ⟨hfresh, hframed⟩
    refine ⟨Moves.fresh (apply_moves codec op ch) hfresh, fun s => ?_⟩
    show Framed codec s _ (ch.apply codec op).1
    cases hop : op.payload codec with
    | none =>
        obtain ⟨hmoves, hwire⟩ := apply_quiet hop ch
        exact (hframed s).skip (congrFun hwire s) (Moves.retired hmoves)
          (reported_quiet hop _ ch) (reported_quiet hop _ ch)
    | some found =>
        obtain ⟨json, io⟩ := found
        rw [apply_of_payload hop]
        exact framed_emit hop hfresh s (hframed s)

/-- A retired connection is never handed another byte. -/
theorem wire_retired_run (codec : Codec) (ops : List ChannelOp)
    {ch : SocketChannel kind} {s : Stream} (hs : Retired s ch.conn) :
    ((machine kind codec).exec ch ops).wire s = ch.wire s := by
  induction ops generalizing ch with
  | nil => rfl
  | cons op ops ih =>
      rw [Mealy.exec_cons]
      show ((machine kind codec).exec (ch.apply codec op).1 ops).wire s = _
      rw [ih (Moves.retired (apply_moves codec op ch) hs),
        apply_wire_retired codec op hs]

/-- **A failed write retires its connection.** -/
theorem retired_of_failed (codec : Codec) (ops : List ChannelOp)
    {op : ChannelOp} {s : Stream}
    (hfail : ((machine kind codec).stepAt ((machine kind codec).exec new ops)
      op).output.report? = some (.failed s)) :
    Retired s ((machine kind codec).exec new (ops ++ [op])).conn := by
  refine ((framed_run codec (ops ++ [op])).2 s).failed ?_
  obtain ⟨json, hjson⟩ := Option.isSome_iff_exists.mp
    (reported_isSome codec hfail)
  unfold failedOn
  rw [Mealy.trace_append]
  show (_ ++ [(machine kind codec).stepAt
    ((machine kind codec).exec new ops) op]).filterMap _ ≠ []
  rw [filterMap_reported_concat, hjson]
  simp

/-- Payloads that fit the header are reported as such. -/
theorem reported_short {codec : Codec}
    (hmessage : ∀ msg, (codec.message msg).length < 2 ^ 32)
    (hsignal : ∀ signal, (codec.signal signal).length < 2 ^ 32)
    {report : EmitReport} {e : ChannelStep kind} {json : List UInt8}
    (h : reported codec report e = some json) : json.length < 2 ^ 32 := by
  unfold reported at h
  split at h
  next =>
    cases hop : e.input with
    | emit signal io =>
        rw [hop] at h
        injection h with h
        exact h ▸ hsignal signal
    | emitDirective directive io =>
        rw [hop] at h
        injection h with h
        exact h ▸ hmessage (.directive directive)
    | connect =>
        rw [hop] at h
        exact absurd h (by simp [ChannelOp.payload])
    | waitForClient =>
        rw [hop] at h
        exact absurd h (by simp [ChannelOp.payload])
    | tryRecv =>
        rw [hop] at h
        exact absurd h (by simp [ChannelOp.payload])
  next => exact absurd h (by simp)

/-- **The bytes handed to a connection are the frames of the messages written
to it**, in call order, then at most a proper prefix of a frame that failed;
a peer that splits them finds exactly these messages, and after a failed write
the connection is handed nothing more. -/
theorem wire_framed (kind : ChannelKind) (codec : Codec)
    (hmessage : ∀ msg, (codec.message msg).length < 2 ^ 32)
    (hsignal : ∀ signal, (codec.signal signal).length < 2 ^ 32)
    (ops : List ChannelOp) (s : Stream) :
    let h := (machine kind codec).trace new ops
    let ch := (machine kind codec).exec new ops
    (∃ tail, ch.wire s = (writtenOn codec s h).flatMap frame ++ tail
      ∧ (tail = [] ∨ ∃ json ∈ failedOn codec s h,
        tail <+: frame json ∧ tail ≠ frame json)
      ∧ bigEndian.split (ch.wire s) = (writtenOn codec s h, tail))
    ∧ ∀ (h₁ t : List (ChannelStep kind)) (e : ChannelStep kind),
        h = h₁ ++ e :: t → e.output.report? = some (.failed s) →
        ch.wire s = e.post.wire s := by
  intro h ch
  obtain ⟨hfresh, hframed⟩ := @framed_run kind codec ops
  have hshort : ∀ (report : EmitReport), ∀ json ∈
      h.filterMap (reported codec report), json.length < bigEndian.limit := by
    intro report json hjson
    obtain ⟨e, _, he⟩ := List.mem_filterMap.mp hjson
    exact reported_short hmessage hsignal he
  refine ⟨?_, ?_⟩
  · obtain ⟨tail, hsplit, htail⟩ := (hframed s).wire
    -- a frame that was cut is not a frame to the peer either
    have hnext : bigEndian.next tail = none := by
      rcases htail with rfl | ⟨_, json, hjson, hpre, hne⟩
      · exact bigEndian.next_nil
      · exact bigEndian.next_of_cut (hshort _ json hjson) hpre hne
    refine ⟨tail, hsplit, htail.imp id And.right, ?_⟩
    show bigEndian.split (((machine kind codec).exec new ops).wire s) = _
    rw [hsplit]
    exact bigEndian.split_frames (hshort (.written s)) hnext
  · intro h₁ t e htr hfail
    obtain ⟨xs, op, ys, rfl, rfl, rfl⟩ := Mealy.trace_split _ htr
    have hretired := retired_of_failed codec xs hfail
    have hstep : (machine kind codec).exec new (xs ++ [op])
        = ((machine kind codec).stepAt ((machine kind codec).exec new xs)
            op).post := by
      rw [Mealy.exec_append]
      rfl
    show ((machine kind codec).exec new (xs ++ op :: ys)).wire s = _
    rw [← hstep, List.append_cons, Mealy.exec_append]
    exact wire_retired_run codec ys hretired

/-- A directive, then one whose write fails inside the header: the client
reads the first and is left with two bytes. -/
theorem wire_framed_cut_header :
    bigEndian.split (((machine .unix byteCodec).exec new
        [.connect,
          .waitForClient [⟨0, false, ⟨false, false⟩, false⟩],
          .emitDirective restoreDirective .allOk,
          .emitDirective restoreDirective ⟨⟨false, false⟩, some 2⟩]).wire 0)
      = ([[1]], [0, 0]) := by
  obtain ⟨⟨tail, hwire, _, hsplit⟩, _⟩ := wire_framed .unix byteCodec
    (fun _ => by simp [byteCodec]) (fun _ => by simp [byteCodec])
    [.connect,
      .waitForClient [⟨0, false, ⟨false, false⟩, false⟩],
      .emitDirective restoreDirective .allOk,
      .emitDirective restoreDirective ⟨⟨false, false⟩, some 2⟩] 0
  have htail : [0, 0, 0, 1, 1, 0, 0] = [0, 0, 0, 1, 1] ++ tail := hwire
  have htail' : tail = [0, 0] := by
    simpa using htail.symm
  rw [hsplit, htail']
  rfl

end ArgusManager.SocketChannel
