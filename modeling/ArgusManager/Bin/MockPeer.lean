/-
  ArgusManager.Bin.MockPeer
  ─────────────────────────
  **`recv_message` of the mock peers over a slow line**
  (`src/bin/mock_engine.rs` and `src/bin/mock_manager.rs`, the same text for
  two message types).

  The socket has a read timeout.  A call that meets it in the length prefix
  returns `Ok(None)`, and its callers try again; but `read_exact` has consumed
  the bytes it had read by then.

    • `recvMessage_refines` — a call is one poll of the bytes and timeouts,
    • `offFrame_refused`    — off the frames no message is ever read,
    • `in_frame_iff`        — the peers stay in frame exactly if every timeout
                              falls between two frames.
-/
import ArgusManager.Channel.Reader
import ArgusManager.Lib.Polling
import Mathlib.Tactic.IntervalCases

namespace ArgusManager

/-! ## §1. The code. -/

/-- What the next `read` on the socket finds; a chunk of no bytes is the end
of the stream. -/
inductive Arrival where
  | data (chunk : List UInt8)
  | timeout
  deriving Repr, DecidableEq

inductive IoError where
  | timedOut
  | unexpectedEof
  deriving Repr, DecidableEq

namespace MockPeer

/-- `stream.read_exact` into a buffer of this size.  When nothing more
arrives, every read times out. -/
def readExact : List Arrival → Nat → List Arrival × Except IoError (List UInt8)
  | a, 0 => (a, .ok [])
  | [], _ + 1 => ([], .error .timedOut)
  | .timeout :: a, _ + 1 => (a, .error .timedOut)
  | .data [] :: a, _ + 1 => (.data [] :: a, .error .unexpectedEof)
  | .data (b :: bs) :: a, size + 1 =>
      if size < bs.length then
        (.data (bs.drop size) :: a, .ok (b :: bs.take size))
      else
        let (a, rest) := readExact a (size - bs.length)
        (a, rest.map (b :: bs ++ ·))

variable {M : Type}

/-- `recv_message`, for the message type of this name. -/
def recvMessage (typeName : String) (decode : List UInt8 → Option M)
    (a : List Arrival) : List Arrival × Except String (Option M) :=
  match readExact a 4 with
  | (a, .error .timedOut) => (a, .ok none)
  | (a, .error .unexpectedEof) => (a, .error "read length prefix")
  | (a, .ok lenBuf) =>
      match readExact a (u32FromBeBytes lenBuf) with
      | (a, .error _) => (a, .error "read JSON payload")
      | (a, .ok jsonBuf) =>
          match decode jsonBuf with
          | none => (a, .error s!"deserialise {typeName}")
          | some msg => (a, .ok (some msg))

end MockPeer

/-- `mock_engine.rs::recv_message`. -/
def MockEngine.recvMessage (decode : List UInt8 → Option ManagerMessage)
    (a : List Arrival) : List Arrival × Except String (Option ManagerMessage) :=
  MockPeer.recvMessage "ManagerMessage" decode a

/-- `mock_manager.rs::recv_message`. -/
def MockManager.recvMessage (decode : List UInt8 → Option EngineMessage)
    (a : List Arrival) : List Arrival × Except String (Option EngineMessage) :=
  MockPeer.recvMessage "EngineMessage" decode a

namespace MockPeer

variable {M : Type}

/-- A receiving function, called again and again. -/
def caller (recv : List Arrival → List Arrival × Except String (Option M)) :
    Mealy (List Arrival) Unit (Except String (Option M)) where
  step a _ := recv a

/-- What the first `n` calls return. -/
def calls (recv : List Arrival → List Arrival × Except String (Option M))
    (a : List Arrival) (n : Nat) : List (Except String (Option M)) :=
  (caller recv).outs a (List.replicate n ())

/-! ## §2. Bytes and timeouts. -/

/-- The arrivals byte by byte, `none` a timeout. -/
def tokens (a : List Arrival) : List (Option UInt8) :=
  a.flatMap fun
    | .data chunk => chunk.map some
    | .timeout => [none]

/-- The bytes alone. -/
def bytes (a : List Arrival) : List UInt8 := (tokens a).reduceOption

/-- The stream does not end. -/
def Open (a : List Arrival) : Prop := .data [] ∉ a

@[simp] theorem tokens_data (chunk : List UInt8) (a : List Arrival) :
    tokens (.data chunk :: a) = chunk.map some ++ tokens a := rfl

@[simp] theorem tokens_timeout (a : List Arrival) :
    tokens (.timeout :: a) = none :: tokens a := rfl

/-- Reading chunk by chunk is filling the buffer byte by byte. -/
theorem readExact_refines (a : List Arrival) (size : Nat) (h : Open a) :
    Open (readExact a size).1
      ∧ (readExact a size).2 ≠ .error .unexpectedEof
      ∧ LengthPrefix.fill size (tokens a)
        = ((readExact a size).2.toOption, tokens (readExact a size).1) := by
  fun_induction readExact a size with
  | case1 a => exact ⟨h, by simp, rfl⟩
  | case2 n => exact ⟨h, by simp, rfl⟩
  | case3 a n =>
      exact ⟨List.not_mem_of_not_mem_cons h, by simp, rfl⟩
  | case4 a n => exact absurd List.mem_cons_self h
  | case5 b bs a size hlt =>
      -- the chunk fills the buffer, and its rest stays on the line
      refine ⟨?_, by simp, ?_⟩
      · intro hmem
        rcases List.mem_cons.mp hmem with hdata | hmem
        · injection hdata with hnil
          have hlen := congrArg List.length hnil
          rw [List.length_nil, List.length_drop] at hlen
          omega
        · exact h (List.mem_cons_of_mem _ hmem)
      · have hfill := LengthPrefix.fill_append (b :: bs.take size)
          (tokens (.data (bs.drop size) :: a))
        have hlen : (b :: bs.take size).length = size + 1 := by
          rw [List.length_cons, List.length_take]
          omega
        have hsplit : (b :: bs.take size).map some
            ++ tokens (.data (bs.drop size) :: a)
            = tokens (.data (b :: bs) :: a) := by
          rw [tokens_data, tokens_data, ← List.append_assoc, ← List.map_append,
            List.cons_append, List.take_append_drop]
        rw [hlen, hsplit] at hfill
        exact hfill
  | case6 b bs a size hge a' rest hrec ih =>
      -- the whole chunk goes into the buffer, and the next `read` goes on
      obtain ⟨hopen, heof, hfill⟩ :=
        ih fun hmem => h (List.mem_cons_of_mem _ hmem)
      rw [hrec] at hopen heof hfill
      have hadd := LengthPrefix.fill_add (b :: bs) (size - bs.length)
        (tokens a)
      have hlen : (b :: bs).length + (size - bs.length) = size + 1 := by
        rw [List.length_cons]
        omega
      rw [hlen, hfill] at hadd
      refine ⟨hopen, ?_, ?_⟩
      · cases rest with
        | ok xs => exact fun heq => absurd heq (by simp [Except.map])
        | error e => exact heof
      · rw [tokens_data, hadd]
        cases rest <;> rfl

variable (typeName : String) (decode : List UInt8 → Option M)

/-- **A call of `recv_message` is one poll** of the bytes and timeouts. -/
theorem recvMessage_refines (a : List Arrival) (h : Open a) :
    Open (recvMessage typeName decode a).1
      ∧ bigEndian.poll decode (tokens a)
        = ((recvMessage typeName decode a).2.toOption,
            tokens (recvMessage typeName decode a).1) := by
  obtain ⟨hopen, heof, hfill⟩ := readExact_refines a 4 h
  change LengthPrefix.fill bigEndian.width (tokens a) = _ at hfill
  unfold recvMessage LengthPrefix.poll
  rw [hfill]
  generalize readExact a 4 = first at hopen heof
  obtain ⟨a, e | lenBuf⟩ := first
  · -- the length prefix is not there yet
    cases e with
    | timedOut => exact ⟨hopen, rfl⟩
    | unexpectedEof => exact absurd rfl heof
  · obtain ⟨hopen, _, hfill⟩ :=
      readExact_refines a (u32FromBeBytes lenBuf) hopen
    change LengthPrefix.fill (bigEndian.decode lenBuf) (tokens a) = _ at hfill
    dsimp only [Except.toOption]
    rw [hfill]
    generalize readExact a (u32FromBeBytes lenBuf) = second at hopen
    obtain ⟨a, e | jsonBuf⟩ := second
    · exact ⟨hopen, rfl⟩
    · dsimp only [Except.toOption]
      cases decode jsonBuf with
      | none => exact ⟨hopen, rfl⟩
      | some msg => exact ⟨hopen, rfl⟩

/-- Repeated calls are repeated polls. -/
theorem calls_refine (a : List Arrival) (h : Open a) (n : Nat) :
    (calls (recvMessage typeName decode) a n).map Except.toOption
      = bigEndian.answers decode n (tokens a) := by
  refine Mealy.outs_refine (m := caller (recvMessage typeName decode))
    (I := Open) ?_ h _
  intro a _ ha
  obtain ⟨hopen, hpoll⟩ := recvMessage_refines typeName decode a ha
  refine ⟨hopen, ?_⟩
  show (let (r, ts) := bigEndian.poll decode (tokens a); (ts, r)) = _
  rw [hpoll]
  rfl

/-! ## §3. Off the frames. -/

/-- A JSON text short enough for the protocol: no longer than its header's
last two bytes can say, and long enough to be a message. -/
def ProtocolSized (text : List UInt8) : Prop :=
  4 ≤ text.length ∧ text.length < 2 ^ 16

theorem u32FromBeBytes_four (x y z w : UInt8) :
    u32FromBeBytes [x, y, z, w]
      = ((x.toNat * 256 + y.toNat) * 256 + z.toNat) * 256 + w.toNat := by
  simp [u32FromBeBytes]

/-- The frame of a protocol-sized text starts with two NUL bytes. -/
theorem frame_eq {text : List UInt8} (h : ProtocolSized text) :
    ∃ y x : UInt8, frame text = 0 :: 0 :: y :: x :: text
      ∧ y.toNat * 256 + x.toNat = text.length := by
  have hnat := lenBytes_toNat text.length
  have hlen : (lenBytes text.length).length = 4 := rfl
  obtain ⟨_, hlt⟩ := h
  unfold frame
  match lenBytes text.length, hlen, hnat with
  | [w, z, y, x], _, hnat =>
      simp only [List.map_cons, List.map_nil, List.cons.injEq, and_true]
        at hnat
      obtain ⟨hw, hz, hy, hx⟩ := hnat
      refine ⟨y, x, ?_, by omega⟩
      have hw0 : w = 0 := UInt8.toNat_inj.mp (by rw [hw]; show _ = 0; omega)
      have hz0 : z = 0 := UInt8.toNat_inj.mp (by rw [hz]; show _ = 0; omega)
      rw [hw0, hz0]
      rfl

variable {decode} {encode : M → List UInt8}
  {msgs : List M}

/-- A payload that reaches past what is left of a frame holds the first byte
of the next one. -/
theorem nul_mem_of_reaches {w header payload rest : List UInt8}
    {ms : List M} (hsize : ∀ m ∈ ms, ProtocolSized (encode m))
    (h : w ++ bigEndian.stream encode ms = header ++ payload ++ rest)
    (hheader : header.length = 4) (hw : 4 ≤ w.length)
    (hreach : w.length < 4 + payload.length) : 0 ∈ payload := by
  cases ms with
  | nil =>
      -- there is not that much left
      have hlen := congrArg List.length h
      rw [LengthPrefix.stream_nil, List.append_nil, List.length_append,
        List.length_append, hheader] at hlen
      omega
  | cons m ms =>
      obtain ⟨y, x, hframe, _⟩ := frame_eq (hsize m List.mem_cons_self)
      rw [LengthPrefix.stream_cons, bigEndian_frame, hframe] at h
      have hnext : (w ++ (0 :: 0 :: y :: x :: encode m
          ++ bigEndian.stream encode ms))[w.length]? = some 0 := by
        rw [List.getElem?_append_right (Nat.le_refl _), Nat.sub_self]
        rfl
      rw [h, List.append_assoc, List.getElem?_append_right (by omega),
        List.getElem?_append_left (by omega)] at hnext
      exact List.mem_of_getElem? hnext

/-- A header that does not start with NUL is a length of 2^24 at least. -/
theorem header_of_head {header t : List UInt8} {c : UInt8} (hc : c ≠ 0)
    (hheader : header.length = 4)
    (hpre : header <+: c :: t ∨ c :: t <+: header) :
    2 ^ 24 ≤ u32FromBeBytes header := by
  match header, hheader with
  | [x, y, z, w], _ =>
      have hx : x = c := by
        rcases hpre with hpre | hpre
        · exact (List.cons_prefix_cons.mp hpre).1
        · exact (List.cons_prefix_cons.mp hpre).1.symm
      have hpos : 0 < c.toNat := by
        rw [Nat.pos_iff_ne_zero]
        exact fun h => hc (UInt8.toNat_inj.mp h)
      rw [u32FromBeBytes_four, hx]
      omega

/-- A header read off the frames says more than is left of its frame, and far
more than any frame where it starts in the last bytes of a text. -/
theorem torn_header {text t header : List UInt8} (hsize : ProtocolSized text)
    (hnul : 0 ∉ text) (hne : t ≠ []) (hsuff : t <:+ frame text)
    (hlt : t.length < (frame text).length) (hheader : header.length = 4)
    (hpre : header <+: t ∨ t <+: header) :
    t.length < 4 + u32FromBeBytes header
      ∧ (t.length < 4 → 2 ^ 24 ≤ u32FromBeBytes header) := by
  obtain ⟨y, x, hframe, hyx⟩ := frame_eq hsize
  obtain ⟨hmin, hmax⟩ := hsize
  have hlen : (frame text).length = text.length + 4 := by
    rw [hframe]
    rfl
  have hdrop := List.suffix_iff_eq_drop.mp hsuff
  by_cases hhead : text.length < t.length
  · -- some of the header is left: three bytes of it, two or one
    have htake : header = t.take 4 := by
      rcases hpre with hpre | hpre
      · rw [List.prefix_iff_eq_take.mp hpre, hheader]
      · have := hpre.length_le
        omega
    match text, hmin with
    | p :: q :: r :: u :: text, _ =>
        -- no byte of the text is zero, so in a header it makes a large length
        have hnz : ∀ b ∈ p :: q :: r :: u :: text, 0 < b.toNat := by
          intro b hb
          rw [Nat.pos_iff_ne_zero]
          intro h0
          have hb0 : b = 0 := UInt8.toNat_inj.mp h0
          exact hnul (hb0 ▸ hb)
        have hp := hnz p (by simp)
        have hq := hnz q (by simp)
        refine ⟨?_, fun hshort => absurd hhead (by simp; omega)⟩
        simp only [List.length_cons] at hlen hhead hyx hmax
        obtain hk | hk | hk : (frame (p :: q :: r :: u :: text)).length
            - t.length = 1
          ∨ (frame (p :: q :: r :: u :: text)).length - t.length = 2
          ∨ (frame (p :: q :: r :: u :: text)).length - t.length = 3 := by
          omega
        all_goals
          rw [hk, hframe] at hdrop
          simp only [List.drop_succ_cons, List.drop_zero] at hdrop
          rw [htake, hdrop]
          simp only [List.take_succ_cons, List.take_zero, List.length_cons]
          rw [u32FromBeBytes_four]
          omega
  · -- only text is left
    have htext : t <:+ text := by
      rw [hframe] at hsuff
      have hfour : [0, 0, y, x] ++ text = 0 :: 0 :: y :: x :: text := rfl
      rw [← hfour] at hsuff
      exact List.suffix_of_suffix_length_le hsuff
        (List.suffix_append _ _) (Nat.not_lt.mp hhead)
    match t, hne with
    | c :: t, _ =>
        have hc : c ≠ 0 := by
          intro hc
          exact hnul (hc ▸ htext.subset List.mem_cons_self)
        have hbig := header_of_head hc hheader hpre
        refine ⟨?_, fun _ => hbig⟩
        have := htext.length_le
        omega

/-- **Off the frames no message is read**: the length found there leads into
the next frame's header or beyond the end. -/
theorem offFrame_refused (hsize : ∀ m ∈ msgs, ProtocolSized (encode m))
    (hround : ∀ m ∈ msgs, decode (encode m) = some m)
    (hnul : ∀ text, 0 ∈ text → decode text = none) :
    bigEndian.OffFrameRefused encode decode msgs := by
  intro t ms header payload rest hne ⟨m, hm, hsuff, hlt⟩ hms heq hheader
    hpayload
  refine hnul payload ?_
  have hclean : 0 ∉ encode m := by
    intro h0
    exact absurd ((hnul _ h0).symm.trans (hround m hm)) (by simp)
  have hpre : header <+: t ∨ t <+: header := by
    have hheader_pre : header <+: header ++ payload ++ rest := by
      rw [List.append_assoc]
      exact List.prefix_append _ _
    have ht_pre : t <+: header ++ payload ++ rest := by
      rw [← heq]
      exact List.prefix_append _ _
    exact List.prefix_or_prefix_of_prefix hheader_pre ht_pre
  obtain ⟨hreach, hbig⟩ := torn_header (hsize m hm) hclean hne hsuff hlt
    hheader hpre
  change payload.length = u32FromBeBytes header at hpayload
  by_cases hfour : 4 ≤ t.length
  · exact nul_mem_of_reaches (fun m hm => hsize m (hms hm)) heq hheader hfour
      (by omega)
  · cases ms with
    | nil =>
        have hlen := congrArg List.length heq
        rw [LengthPrefix.stream_nil, List.append_nil, List.length_append,
          List.length_append, hheader] at hlen
        omega
    | cons b ms =>
        -- the header takes bytes of the next frame, and reaches beyond it
        obtain ⟨hb, hms⟩ := List.cons_subset.mp hms
        have hnext : (frame (encode b)).length = (encode b).length + 4 := by
          obtain ⟨_, _, hframe, _⟩ := frame_eq (hsize b hb)
          rw [hframe]
          rfl
        have hmax := (hsize b hb).2
        have hbig := hbig (by omega)
        rw [LengthPrefix.stream_cons, bigEndian_frame, ← List.append_assoc]
          at heq
        refine nul_mem_of_reaches (fun m hm => hsize m (hms hm)) heq hheader
          ?_ ?_
        · rw [List.length_append]
          omega
        · rw [List.length_append]
          omega

/-! ## §4. In frame. -/

/-- The messages arrive as whole frames, in any chunks, and every timeout
falls between two frames. -/
def BetweenFrames (encode : M → List UInt8) (msgs : List M)
    (a : List Arrival) : Prop :=
  bigEndian.Whole encode msgs (tokens a)

/-- No call returns an error, the calls return these messages and no others,
in order, and in the end all of them. -/
def InFrame (recv : List Arrival → List Arrival × Except String (Option M))
    (a : List Arrival) (msgs : List M) : Prop :=
  LengthPrefix.Exact (fun n => (calls recv a n).map Except.toOption) msgs

/-- **When the mock peers stay in frame**, over every list of messages, every
chunking of their frames and every placement of timeouts: timeouts between the
frames do no harm; and for messages of protocol size, in a format whose texts
have no NUL byte, any other timeout costs a message or ends in an error. -/
theorem in_frame_iff (typeName : String) (encode : M → List UInt8)
    (decode : List UInt8 → Option M) (msgs : List M) (a : List Arrival)
    (hround : ∀ m ∈ msgs, decode (encode m) = some m)
    (hlen : ∀ m ∈ msgs, (encode m).length < 2 ^ 32) (hopen : Open a)
    (hbytes : bytes a = msgs.flatMap fun m => frame (encode m)) :
    (BetweenFrames encode msgs a
        → InFrame (recvMessage typeName decode) a msgs)
      ∧ ((∀ m ∈ msgs, ProtocolSized (encode m)) →
          (∀ text, 0 ∈ text → decode text = none) →
          InFrame (recvMessage typeName decode) a msgs →
          BetweenFrames encode msgs a) := by
  have hcalls : (fun n => (calls (recvMessage typeName decode) a n).map
      Except.toOption) = fun n => bigEndian.answers decode n (tokens a) :=
    funext fun n => calls_refine typeName decode a hopen n
  unfold InFrame BetweenFrames
  rw [hcalls]
  constructor
  · intro hwhole
    exact bigEndian.exact_of_whole hwhole hlen hround
  · intro hsize hnul hexact
    exact bigEndian.whole_of_exact (offFrame_refused hsize hround hnul) hlen
      hbytes hexact

end MockPeer

open MockPeer

/-- A text of four bytes, `null`. -/
def nullText : List UInt8 := [110, 117, 108, 108]

/-- A codec for one message, whose text is `nullText`. -/
def onlyMessage {M : Type} (msg : M) (text : List UInt8) : Option M :=
  if text = nullText then some msg else none

/-- A timeout after two bytes of the length prefix: the call returns
`Ok(None)`, and the next one takes the rest of the prefix and two bytes of the
payload for a length. -/
theorem timeout_in_prefix_breaks_frame :
    ¬ ∀ (encode : ManagerMessage → List UInt8)
        (decode : List UInt8 → Option ManagerMessage)
        (msgs : List ManagerMessage) (a : List Arrival),
        (∀ m ∈ msgs, decode (encode m) = some m) →
        (∀ m ∈ msgs, (encode m).length < 2 ^ 32) → Open a →
        bytes a = msgs.flatMap (fun m => frame (encode m)) →
        InFrame (MockEngine.recvMessage decode) a msgs := by
  intro h
  let msg : ManagerMessage := .directive ⟨1, [.suspend]⟩
  have hexact := h (fun _ => nullText) (onlyMessage msg) [msg]
    [.data [0, 0], .timeout, .data ([0, 4] ++ nullText)]
    (fun m hm => by rw [List.mem_singleton.mp hm]; rfl)
    (fun _ _ => by decide) (by unfold Open; decide) (by decide)
  have herror := hexact.noError 2
  have hcalls : (calls (MockEngine.recvMessage (onlyMessage msg))
      [.data [0, 0], .timeout, .data ([0, 4] ++ nullText)] 2).map
      Except.toOption = [some none, none] := rfl
  exact herror (hcalls ▸ by simp)

/-- A response. -/
def acknowledged : EngineMessage := .response { seqId := 1, results := [.ok] }

/-- Two frames, one cut in the prefix and in the payload, with timeouts before,
between and after them. -/
def twoFrames : List Arrival :=
  [.timeout, .data [0], .data [0, 0, 4, 110], .data [117, 108, 108],
    .timeout, .timeout, .data ([0, 0, 0, 4] ++ nullText), .timeout]

theorem in_frame_two_responses :
    InFrame (MockManager.recvMessage (onlyMessage acknowledged)) twoFrames
      [acknowledged, acknowledged] := by
  refine (in_frame_iff "EngineMessage" (fun _ => nullText)
    (onlyMessage acknowledged) [acknowledged, acknowledged] twoFrames ?_
    (fun _ _ => by decide) (by unfold Open; decide) (by decide)).1 ?_
  · intro m hm
    have hack : m = acknowledged := by simpa using hm
    rw [hack]
    rfl
  · show bigEndian.Whole (fun _ => nullText) [acknowledged, acknowledged]
      (none :: ((bigEndian.frame nullText).map some
        ++ none :: none :: ((bigEndian.frame nullText).map some ++ [none])))
    exact .timeout (.frame (.timeout (.timeout (.frame (.timeout .nil)))))

end ArgusManager
