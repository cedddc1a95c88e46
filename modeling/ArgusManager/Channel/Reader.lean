/-
  ArgusManager.Channel.Reader
  ───────────────────────────
  **The reader thread's decoding** (`spawn_reader` and `read_engine_message`,
  the same text in `src/channel/unix_socket.rs` and `src/channel/tcp.rs`),
  over a byte stream that has ended, and the peer's `send_message`
  (`src/bin/mock_engine.rs`).

  JSON is a parameter: `encode` writes a message, `decode` reads one or fails.

    • `bigEndian`           — four big-endian bytes as a `LengthPrefix`,
    • `readEngineMessage_eq` — one read is the stream's first frame, if the
                              reader accepts it,
    • `delivered_longest`   — the loop delivers the longest prefix of frames
                              that fit the cap and decode, whatever the
                              stream, and gives back what was sent.
-/
import ArgusManager.Channel.Socket
import ArgusManager.Lib.LengthPrefix
import Mathlib.Algebra.Group.Nat.Defs

namespace ArgusManager

/-! ## §1. Four big-endian bytes. -/

/-- `u32::from_be_bytes`. -/
def u32FromBeBytes (bytes : List UInt8) : Nat :=
  bytes.foldl (fun n b => n * 256 + b.toNat) 0

theorem lenBytes_toNat (n : Nat) :
    (lenBytes n).map UInt8.toNat
      = [n / 2 ^ 24 % 256, n / 2 ^ 16 % 256, n / 2 ^ 8 % 256, n % 256] := by
  unfold lenBytes
  simp [UInt32.toNat_shiftRight, Nat.shiftRight_eq_div_pow]
  omega

theorem u32FromBeBytes_lenBytes {n : Nat} (h : n < 2 ^ 32) :
    u32FromBeBytes (lenBytes n) = n := by
  have hfold : ∀ bytes : List UInt8, u32FromBeBytes bytes
      = (bytes.map UInt8.toNat).foldl (fun n b => n * 256 + b) 0 := by
    intro bytes
    unfold u32FromBeBytes
    rw [List.foldl_map]
  rw [hfold, lenBytes_toNat]
  simp only [List.foldl_cons, List.foldl_nil]
  omega

theorem lenBytes_u32FromBeBytes {bytes : List UInt8} (h : bytes.length = 4) :
    u32FromBeBytes bytes < 2 ^ 32
      ∧ lenBytes (u32FromBeBytes bytes) = bytes := by
  match bytes, h with
  | [a, b, c, d], _ =>
      have hval : u32FromBeBytes [a, b, c, d]
          = ((a.toNat * 256 + b.toNat) * 256 + c.toNat) * 256 + d.toNat := by
        simp [u32FromBeBytes]
      have ha := a.toNat_lt
      have hb := b.toNat_lt
      have hc := c.toNat_lt
      have hd := d.toNat_lt
      refine ⟨by rw [hval]; omega, ?_⟩
      apply List.map_injective_iff.mpr fun _ _ h => UInt8.toNat_inj.mp h
      rw [lenBytes_toNat, hval]
      simp only [List.map_cons, List.map_nil, List.cons.injEq, and_true]
      omega

/-- The channel's header: four big-endian bytes. -/
def bigEndian : LengthPrefix UInt8 where
  width := 4
  limit := 2 ^ 32
  encode := lenBytes
  decode := u32FromBeBytes
  width_pos := by decide
  length_encode _ := rfl
  decode_encode _ := u32FromBeBytes_lenBytes
  decode_lt _ h := (lenBytes_u32FromBeBytes h).1
  encode_decode _ h := (lenBytes_u32FromBeBytes h).2

/-- Both writers frame with it. -/
theorem bigEndian_frame (json : List UInt8) :
    bigEndian.frame json = frame json := rfl

/-! ## §2. Reading. -/

/-- PROTO-012: the cap on a single framed payload. -/
def MAX_PAYLOAD_SIZE : Nat := 64 * 1024

/-- Why a read ends the reader. -/
inductive ReadError where
  | unexpectedEof
  | payloadTooLarge (payloadLen : Nat)
  | json
  deriving DecidableEq, Repr

/-- `stream.read_exact` into a buffer of this size. -/
def readExact (size : Nat) (stream : List UInt8) :
    Except ReadError (List UInt8 × List UInt8) :=
  if stream.length < size then .error .unexpectedEof
  else .ok (stream.take size, stream.drop size)

/-- `serde_json::from_slice::<EngineMessage>`. -/
abbrev Decode := List UInt8 → Option EngineMessage

/-- `read_engine_message`. -/
def readEngineMessage (decode : Decode) (stream : List UInt8) :
    Except ReadError (EngineMessage × List UInt8) :=
  match readExact 4 stream with
  | .error e => .error e
  | .ok (lenBuf, stream) =>
      let payloadLen := u32FromBeBytes lenBuf
      -- before the payload is looked at, and before it has arrived
      if payloadLen > MAX_PAYLOAD_SIZE then
        .error (.payloadTooLarge payloadLen)
      else
        match readExact payloadLen stream with
        | .error e => .error e
        | .ok (jsonBuf, stream) =>
            match decode jsonBuf with
            | none => .error .json
            | some msg => .ok (msg, stream)

/-- What the reader takes for a message. -/
def acceptPayload (decode : Decode) (payload : List UInt8) :
    Option EngineMessage :=
  if payload.length > MAX_PAYLOAD_SIZE then none else decode payload

theorem acceptPayload_isSome {decode : Decode} {payload : List UInt8} :
    (acceptPayload decode payload).isSome
      ↔ payload.length ≤ MAX_PAYLOAD_SIZE ∧ (decode payload).isSome := by
  unfold acceptPayload
  by_cases h : payload.length > MAX_PAYLOAD_SIZE
  · rw [if_pos h]
    exact iff_of_false (by simp) fun hle => absurd hle.1 (Nat.not_le.mpr h)
  · rw [if_neg h]
    exact (and_iff_right (Nat.not_lt.mp h)).symm

/-- A payload within the cap has a length the header can carry. -/
theorem lt_limit_of_accept {decode : Decode} {payload : List UInt8}
    (h : (acceptPayload decode payload).isSome) :
    payload.length < bigEndian.limit := by
  have hcap := (acceptPayload_isSome.mp h).1
  unfold MAX_PAYLOAD_SIZE at hcap
  show payload.length < 2 ^ 32
  omega

theorem readExact_ok {size : Nat} {stream taken rest : List UInt8} :
    readExact size stream = .ok (taken, rest)
      ↔ stream = taken ++ rest ∧ taken.length = size := by
  unfold readExact
  constructor
  · intro h
    split at h
    next => exact absurd h (by simp)
    next hlen =>
      injection h with h
      injection h with htaken hrest
      refine ⟨?_, ?_⟩
      · rw [← htaken, ← hrest, List.take_append_drop]
      · rw [← htaken, List.length_take]
        omega
  · rintro ⟨rfl, rfl⟩
    rw [if_neg (by rw [List.length_append]; omega), List.take_left,
      List.drop_left]

/-- What a read that succeeds has found. -/
theorem readEngineMessage_ok {decode : Decode} {stream rest : List UInt8}
    {msg : EngineMessage} :
    readEngineMessage decode stream = .ok (msg, rest)
      ↔ ∃ header payload, stream = header ++ (payload ++ rest)
          ∧ header.length = 4 ∧ payload.length = u32FromBeBytes header
          ∧ payload.length ≤ MAX_PAYLOAD_SIZE
          ∧ decode payload = some msg := by
  unfold readEngineMessage
  constructor
  · -- the four ways to fail: a short header, the cap, a short payload, JSON
    intro h
    split at h
    next => exact absurd h (by simp)
    next header stream' hheader =>
      dsimp only at h
      split at h
      next => exact absurd h (by simp)
      next hcap =>
        split at h
        next => exact absurd h (by simp)
        next payload rest' hpayload =>
          split at h
          next => exact absurd h (by simp)
          next msg' hmsg =>
            injection h with h
            injection h with hmsg' hrest
            obtain ⟨hs, hfour⟩ := readExact_ok.mp hheader
            obtain ⟨hs', hlen⟩ := readExact_ok.mp hpayload
            refine ⟨header, payload, ?_, hfour, hlen, ?_, ?_⟩
            · rw [hs, hs', hrest]
            · rw [hlen]
              exact Nat.not_lt.mp hcap
            · rw [hmsg, hmsg']
  · rintro ⟨header, payload, rfl, hfour, hlen, hcap, hmsg⟩
    rw [readExact_ok.mpr ⟨rfl, hfour⟩]
    dsimp only
    rw [← hlen, if_neg (Nat.not_lt.mpr hcap), readExact_ok.mpr ⟨rfl, rfl⟩]
    dsimp only
    rw [hmsg]

/-- **One read is the first frame of the stream, if it is accepted.** -/
theorem readEngineMessage_eq {decode : Decode} {stream rest : List UInt8}
    {msg : EngineMessage} :
    readEngineMessage decode stream = .ok (msg, rest)
      ↔ ∃ payload, bigEndian.next stream = some (payload, rest)
          ∧ acceptPayload decode payload = some msg := by
  rw [readEngineMessage_ok]
  unfold acceptPayload
  constructor
  · rintro ⟨header, payload, rfl, hfour, hlen, hcap, hmsg⟩
    obtain ⟨hlimit, hheader⟩ := lenBytes_u32FromBeBytes hfour
    rw [← hlen] at hlimit hheader
    refine ⟨payload, bigEndian.next_eq_some.mpr ⟨hlimit, ?_⟩, ?_⟩
    · rw [bigEndian_frame]
      unfold frame
      rw [hheader, List.append_assoc]
    · rw [if_neg (Nat.not_lt.mpr hcap), hmsg]
  · rintro ⟨payload, hnext, hmsg⟩
    obtain ⟨hlimit, hs⟩ := bigEndian.next_eq_some.mp hnext
    split at hmsg
    next => exact absurd hmsg (by simp)
    next hcap =>
      refine ⟨lenBytes payload.length, payload, ?_, rfl, ?_,
        Nat.not_lt.mp hcap, hmsg⟩
      · rw [hs, bigEndian_frame]
        unfold frame
        rw [List.append_assoc]
      · exact (u32FromBeBytes_lenBytes hlimit).symm

theorem readEngineMessage_length {decode : Decode} {stream rest : List UInt8}
    {msg : EngineMessage}
    (h : readEngineMessage decode stream = .ok (msg, rest)) :
    rest.length < stream.length := by
  obtain ⟨payload, hnext, _⟩ := readEngineMessage_eq.mp h
  exact bigEndian.next_length hnext

/-- The reader's loop, on a stream that has ended and with the receiver alive:
what it sends to the inbox until a read fails. -/
def delivered (decode : Decode) (stream : List UInt8) : List EngineMessage :=
  match h : readEngineMessage decode stream with
  | .error _ => []
  | .ok (msg, rest) =>
      have := readEngineMessage_length h
      msg :: delivered decode rest
termination_by stream.length

/-- The loop is a reader that stops at the first frame it refuses. -/
theorem delivered_eq (decode : Decode) (stream : List UInt8) :
    delivered decode stream
      = bigEndian.readAll (acceptPayload decode) stream := by
  induction hn : stream.length using Nat.strongRecOn generalizing stream with
  | ind n ih =>
      subst hn
      rw [delivered]
      split
      next e herror =>
        cases hnext : bigEndian.next stream with
        | none => exact (bigEndian.readAll_none hnext).symm
        | some found =>
            obtain ⟨payload, rest⟩ := found
            rw [bigEndian.readAll_some hnext]
            cases hok : acceptPayload decode payload with
            | none => rfl
            | some msg =>
                have hread := readEngineMessage_eq.mpr ⟨payload, hnext, hok⟩
                exact absurd (herror.symm.trans hread) (by simp)
      next msg rest hread =>
        obtain ⟨payload, hnext, hok⟩ := readEngineMessage_eq.mp hread
        rw [bigEndian.readAll_some hnext, hok,
          ih rest.length (bigEndian.next_length hnext) rest rfl]
        rfl

/-! ## §3. Every byte stream. -/

/-- `mock_engine.rs::send_message`: the bytes it writes. -/
def sendMessage (encode : EngineMessage → List UInt8) (msg : EngineMessage) :
    List UInt8 :=
  let json := encode msg
  lenBytes json.length ++ json

/-- A frame the reader delivers: it fits the cap and decodes. -/
def Readable (decode : Decode) (payload : List UInt8) : Prop :=
  payload.length ≤ MAX_PAYLOAD_SIZE ∧ (decode payload).isSome

/-- Accepting and decoding agree on readable payloads. -/
theorem filterMap_accept {decode : Decode} {payloads : List (List UInt8)}
    (h : ∀ p ∈ payloads, Readable decode p) :
    payloads.filterMap (acceptPayload decode) = payloads.filterMap decode := by
  refine List.filterMap_congr ?_
  intro p hp
  unfold acceptPayload
  exact if_neg (Nat.not_lt.mpr (h p hp).1)

/-- **The reader delivers the longest prefix of readable frames, and gives
back what was sent.**  Nothing at or after the first frame that is oversize,
undecodable or truncated is delivered. -/
theorem delivered_longest (decode : Decode) :
    (∀ stream : List UInt8, ∃ (payloads : List (List UInt8))
        (rest : List UInt8),
      stream = payloads.flatMap frame ++ rest
      ∧ (∀ p ∈ payloads, Readable decode p)
      ∧ delivered decode stream = payloads.filterMap decode
      ∧ (delivered decode stream).length = payloads.length
      ∧ ∀ (payloads' : List (List UInt8)) (rest' : List UInt8),
          stream = payloads'.flatMap frame ++ rest' →
          (∀ p ∈ payloads', Readable decode p) → payloads' <+: payloads)
    ∧ ∀ (encode : EngineMessage → List UInt8) (msgs : List EngineMessage),
        (∀ msg ∈ msgs, decode (encode msg) = some msg) →
        (∀ msg ∈ msgs, (encode msg).length ≤ MAX_PAYLOAD_SIZE) →
        delivered decode (msgs.flatMap (sendMessage encode)) = msgs := by
  constructor
  · intro stream
    obtain ⟨payloads, rest, hs, hok, hread, hlongest⟩ :=
      bigEndian.readAll_longest (acceptPayload decode) stream
    have hreadable : ∀ p ∈ payloads, Readable decode p := fun p hp =>
      acceptPayload_isSome.mp (hok p hp).2
    rw [← delivered_eq, filterMap_accept hreadable] at hread
    refine ⟨payloads, rest, hs, hreadable, hread, ?_, ?_⟩
    · rw [hread]
      exact List.filterMap_length_eq_length.mpr fun p hp =>
        (hreadable p hp).2
    · intro payloads' rest' hs' hreadable'
      refine hlongest payloads' rest' hs' fun p hp => ?_
      have haccept := acceptPayload_isSome.mpr (hreadable' p hp)
      exact ⟨lt_limit_of_accept haccept, haccept⟩
  · -- a sent sequence is frames and nothing after them
    intro encode msgs hround hcap
    have hframes : msgs.flatMap (sendMessage encode)
        = (msgs.map encode).flatMap bigEndian.frame ++ [] := by
      rw [List.append_nil, List.flatMap_map]
      rfl
    have haccept : ∀ msg ∈ msgs,
        acceptPayload decode (encode msg) = some msg := by
      intro msg hmsg
      unfold acceptPayload
      rw [if_neg (Nat.not_lt.mpr (hcap msg hmsg)), hround msg hmsg]
    rw [delivered_eq, hframes, bigEndian.readAll_append ?_ [],
      bigEndian.readAll_none bigEndian.next_nil, List.append_nil,
      List.filterMap_map]
    · -- every payload decodes to the message it was made from
      exact (List.filterMap_congr haccept).trans (List.filterMap_some)
    · intro p hp
      obtain ⟨msg, hmsg, rfl⟩ := List.mem_map.mp hp
      have hsome : (acceptPayload decode (encode msg)).isSome := by
        rw [haccept msg hmsg]
        rfl
      exact ⟨lt_limit_of_accept hsome, hsome⟩

/-- A response sent twice is read twice. -/
theorem delivered_two_responses :
    let ack : EngineMessage := .response { seqId := 1, results := [.ok] }
    let decode : Decode := fun json => if json = [1] then some ack else none
    delivered decode ([ack, ack].flatMap (sendMessage fun _ => [1]))
      = [ack, ack] := by
  intro ack decode
  refine (delivered_longest decode).2 (fun _ => [1]) [ack, ack] ?_ ?_
  · intro msg hmsg
    have hack : msg = ack := by simpa using hmsg
    rw [hack]
    rfl
  · intro msg _
    decide

end ArgusManager
