/-
  ArgusManager.Main.DirectiveSize
  ───────────────────────────────
  **How large a directive's frame gets.**

  Readers on both sides refuse a payload beyond `MAX_PAYLOAD_SIZE`; the writer
  does not look, and how many commands a directive holds is decided by a
  script's table.

    • `JsonSize`  — what the length of a directive's JSON is made of,
    • `frame_within_cap_iff` — the frame a script's return value leads to
                   respects the cap exactly when the encodings of its accepted
                   entries add up to no more,
    • `oversize_directive` — 65 537 entries do not.
-/
import ArgusManager.Channel.Framing
import ArgusManager.LuaPolicy.Commands

namespace ArgusManager

open LuaPolicy

/-! ## §1. Sizes. -/

/-- The JSON of a directive: an array of commands, separated by commas, inside
an object. -/
structure JsonSize (codec : Codec) where
  /-- Everything around the commands, for this sequence number. -/
  envelope : Nat → Nat
  size : EngineCommand → Nat
  size_pos : ∀ cmd, 1 ≤ size cmd
  message_length : ∀ d : EngineDirective,
    (codec.message (.directive d)).length
      = envelope d.seqId + ((d.commands.map size).sum
        + (d.commands.length - 1))

/-- The payload of the frame a directive leads to, wherever it is written,
respects the cap. -/
def FrameWithinCap (codec : Codec) (directive : Option EngineDirective) :
    Prop :=
  ∀ d, directive = some d → ∀ (kind : ChannelKind) (ch : SocketChannel kind)
    (io : EmitIo) (s : Stream), (ch.emitDirective codec d io).2 = .written s →
    ∀ payload, (ch.emitDirective codec d io).1.wire s
        = ch.wire s ++ frame payload →
      payload.length ≤ MAX_PAYLOAD_SIZE

/-! ## §2. The frame is the directive's JSON. -/

theorem frame_injective {xs ys : List UInt8} (h : frame xs = frame ys) :
    xs = ys :=
  (List.append_inj h rfl).2

/-- What a successful emit hands over. -/
theorem emitDirective_written {kind : ChannelKind} {codec : Codec}
    {d : EngineDirective} {io : EmitIo} {ch : SocketChannel kind} {s : Stream}
    (h : (ch.emitDirective codec d io).2 = .written s) :
    (ch.emitDirective codec d io).1.wire s
      = ch.wire s ++ frame (codec.message (.directive d)) := by
  unfold SocketChannel.emitDirective at h ⊢
  obtain ⟨_, hwire⟩ := ch.ensureConnected_moves io.attach
  rcases SocketChannel.emitBytes_cases (codec.message (.directive d)) io ch
    with ⟨hout, _⟩ | ⟨t, _, hout, hch⟩ | ⟨t, sent, _, hout, _⟩
  · rw [hout] at h
    exact absurd h (by simp)
  · rw [hout] at h
    injection h with h
    subst h
    rw [hch, SocketChannel.push_wire_self, hwire]
  · rw [hout] at h
    exact absurd h (by simp)

/-- A channel with a client attached. -/
def attachedChannel : SocketChannel .unix where
  listener := { backlog := [], nextStream := 1 }
  state := .connected 0
  wire := fun _ => []

theorem attachedChannel_written (codec : Codec) (d : EngineDirective) :
    (attachedChannel.emitDirective codec d .allOk).2 = .written 0 := by
  have hens : attachedChannel.ensureConnected EmitIo.allOk.attach
      = attachedChannel := rfl
  have hs : (attachedChannel.ensureConnected EmitIo.allOk.attach).state
      = .connected 0 := rfl
  unfold SocketChannel.emitDirective
  rw [SocketChannel.emitBytes_connected hs]
  rfl

/-- A frame respects the cap when its directive's JSON does. -/
theorem frameWithinCap_iff (codec : Codec)
    (directive : Option EngineDirective) :
    FrameWithinCap codec directive
      ↔ ∀ d, directive = some d →
          (codec.message (.directive d)).length ≤ MAX_PAYLOAD_SIZE := by
  constructor
  · intro h d hd
    have hwritten := attachedChannel_written codec d
    exact h d hd .unix attachedChannel .allOk 0 hwritten _
      (emitDirective_written hwritten)
  · intro h d hd kind ch io s hwritten payload hpayload
    rw [emitDirective_written hwritten] at hpayload
    rw [← frame_injective (List.append_cancel_left hpayload)]
    exact h d hd

/-! ## §3. From the script's table to the frame. -/

/-- **The frame respects the cap exactly when the accepted entries are small
enough**: no entry is accepted, or their encodings, the commas between them
and the envelope add up to no more than the cap. -/
theorem frame_within_cap_iff {V : Type} (codec : Codec) (j : JsonSize codec)
    (x : Bindings) (p : LuaPolicy V) (invoke : Invoke V)
    (signal : SystemSignal) (lua : V) (value : LuaValue)
    (hlive : p.permanentFallback = false)
    (hret : invoke p.lua (p.observe signal).ctx = (lua, .ok value)) :
    FrameWithinCap codec (p.processSignal x invoke signal).2
      ↔ accepted x (entries value) = []
        ∨ j.envelope p.seqCounter.toNat
            + (((accepted x (entries value)).map j.size).sum
              + ((accepted x (entries value)).length - 1))
          ≤ MAX_PAYLOAD_SIZE := by
  have hcmds := ((decision x p invoke signal).accounted hlive lua value hret).1
  rw [frameWithinCap_iff]
  obtain ⟨hdec, _, hdir⟩ := processSignal_eq x invoke signal p
  rw [hdec] at hcmds
  rw [hcmds] at hdir
  rcases hdir with ⟨hnone, hempty, _⟩ | ⟨hsome, hne, _⟩
  · rw [hnone]
    exact iff_of_true (fun d hd => absurd hd (by simp)) (.inl hempty)
  · rw [hsome, or_iff_right hne]
    constructor
    · intro h
      have hlen := h _ rfl
      rw [j.message_length] at hlen
      exact hlen
    · intro h d hd
      injection hd with hd
      rw [← hd, j.message_length]
      exact h

/-- A directive is at least as long as it has commands. -/
theorem JsonSize.length_le {codec : Codec} (j : JsonSize codec)
    (d : EngineDirective) :
    d.commands.length ≤ (codec.message (.directive d)).length := by
  have hsum : d.commands.length ≤ (d.commands.map j.size).sum := by
    induction d.commands with
    | nil => exact Nat.le_refl 0
    | cons cmd cmds ih =>
        rw [List.length_cons, List.map_cons, List.sum_cons]
        have := j.size_pos cmd
        omega
  rw [j.message_length]
  omega

/-! ## §4. A table that is too long. -/

/-- One byte for a command and one for a comma. -/
def tinyCodec : Codec where
  message
    | .directive d => List.replicate (d.commands.length
        + (d.commands.length - 1)) 0
  signal := fun _ => []

def tinySize : JsonSize tinyCodec where
  envelope := fun _ => 0
  size := fun _ => 1
  size_pos := fun _ => Nat.le_refl 1
  message_length d := by
    show (List.replicate _ _).length = _
    rw [List.length_replicate, List.map_const', List.sum_replicate_nat]
    simp

/-- `{type = "restore_defaults"}`. -/
def restoreEntry : LuaValue := .record [("type", .string "restore_defaults")]

/-- An array of so many of them. -/
def restoreTable (n : Nat) : LuaValue :=
  .table (fun _ => .nil) (List.replicate n restoreEntry)

/-- Every entry of the array is accepted. -/
theorem accepted_restoreTable (n : Nat) :
    accepted Bindings.exact (entries (restoreTable n))
      = List.replicate n .restoreDefaults := by
  show accepted Bindings.exact (List.replicate n restoreEntry) = _
  unfold accepted
  induction n with
  | zero => rfl
  | succ n ih =>
      rw [List.replicate_succ, List.filterMap_cons, List.replicate_succ, ih]
      rfl

/-- **65 537 entries lead to a frame beyond the cap.** -/
theorem oversize_directive :
    let p := fresh () "policy.lua" none AdaptationConfig.default
    let invoke : Invoke Unit := fun _ _ => ((), .ok (restoreTable 65537))
    ¬ FrameWithinCap tinyCodec
      (p.processSignal Bindings.exact invoke
        (.energyConstraint .normal .none 0)).2 := by
  intro p invoke hcap
  have hdec := (decision Bindings.exact p invoke
    (.energyConstraint .normal .none 0)).accounted rfl () _ rfl
  have hlen : (commandsOf (p.processSignal Bindings.exact invoke
      (.energyConstraint .normal .none 0)).2).length = 65537 := by
    rw [hdec.1, accepted_restoreTable, List.length_replicate]
  cases hd : (p.processSignal Bindings.exact invoke
      (.energyConstraint .normal .none 0)).2 with
  | none =>
      rw [hd] at hlen
      exact absurd hlen (by decide)
  | some d =>
      have hle := (frameWithinCap_iff tinyCodec _).mp hcap d hd
      have hcount := tinySize.length_le d
      rw [hd] at hlen
      have hcmds : d.commands.length = 65537 := hlen
      unfold MAX_PAYLOAD_SIZE at hle
      omega

/-- A single action is far from the cap. -/
theorem small_directive :
    let p := fresh () "policy.lua" none AdaptationConfig.default
    let invoke : Invoke Unit := fun _ _ => ((), .ok restoreEntry)
    FrameWithinCap tinyCodec
      (p.processSignal Bindings.exact invoke
        (.energyConstraint .normal .none 0)).2 := by
  intro p invoke
  refine (frame_within_cap_iff tinyCodec tinySize Bindings.exact p invoke
    (.energyConstraint .normal .none 0) () restoreEntry rfl rfl).mpr
    (.inr ?_)
  decide

end ArgusManager
