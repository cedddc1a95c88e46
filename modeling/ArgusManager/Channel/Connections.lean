/-
  ArgusManager.Channel.Connections
  ────────────────────────────────
  **A connection is attached at most once.**

  Whatever main calls, listener and connection state change by four kinds of
  `Move`: a client connects, the oldest pending client is attached, or lost
  because its stream cannot be cloned, or the attached client is detached.

    • `waitForClient_moves`, `ensureConnected_moves`, `tryRecv_moves` — the
      calls are such moves, and hand nobody a byte,
    • `Fresh`   — the listener never offers a connection twice,
    • `Retired` — a connection that was attached and is not any more, or was
      lost: it stays so.
-/
import ArgusManager.Channel.Socket
import Mathlib.Logic.Relation

namespace ArgusManager

/-! ## §1. Moves. -/

/-- One change of listener and connection state. -/
inductive Move :
    Listener × ConnectionState → Listener × ConnectionState → Prop where
  | arrive (l : Listener) (st : ConnectionState) : Move (l, st) (l.arrive, st)
  | attach {l : Listener} (st : ConnectionState) {stream : Stream}
      {rest : List Stream} (h : l.backlog = stream :: rest) :
      Move (l, st) ({ l with backlog := rest }, .connected stream)
  /-- `try_clone` fails: the stream is dropped. -/
  | lose {l : Listener} (st : ConnectionState) {stream : Stream}
      {rest : List Stream} (h : l.backlog = stream :: rest) :
      Move (l, st) ({ l with backlog := rest }, .disconnected)
  | detach (l : Listener) (st : ConnectionState) :
      Move (l, st) (l, .disconnected)

abbrev Moves := Relation.ReflTransGen Move

theorem accept_ok {l l' : Listener} {fails : Bool} {stream : Stream}
    (h : l.accept fails = (l', .ok stream)) :
    ∃ rest, l.backlog = stream :: rest
      ∧ l' = { l with backlog := rest } := by
  unfold Listener.accept at h
  split at h
  next => exact absurd h (by simp)
  next =>
    split at h
    next => exact absurd h (by simp)
    next s rest hback =>
      injection h with hl hs
      injection hs with hs
      exact ⟨rest, hs ▸ hback, hl.symm⟩

namespace SocketChannel

variable {kind : ChannelKind}

/-- Listener and connection state. -/
def conn (ch : SocketChannel kind) : Listener × ConnectionState :=
  (ch.listener, ch.state)

/-- Taking the accepted client in. -/
theorem accept_moves {ch : SocketChannel kind} {l : Listener} {fails : Bool}
    {stream : Stream} (h : ch.listener.accept fails = (l, .ok stream))
    (cloneFails : Bool) :
    Moves ch.conn (({ ch with listener := l } : SocketChannel kind)
        |>.transitionToConnected stream cloneFails).conn
      ∧ (({ ch with listener := l } : SocketChannel kind)
        |>.transitionToConnected stream cloneFails).wire = ch.wire := by
  obtain ⟨rest, hback, rfl⟩ := accept_ok h
  unfold transitionToConnected
  cases cloneFails with
  | true => exact ⟨.single (.lose ch.state hback), rfl⟩
  | false => exact ⟨.single (.attach ch.state hback), rfl⟩

theorem ensureConnected_moves (ch : SocketChannel kind) (io : AttachIo) :
    Moves ch.conn (ch.ensureConnected io).conn
      ∧ (ch.ensureConnected io).wire = ch.wire := by
  unfold ensureConnected
  split
  next =>
    split
    next l stream hacc => exact accept_moves hacc io.cloneFails
    next => exact ⟨.refl, rfl⟩
    next => exact ⟨.refl, rfl⟩
  next => exact ⟨.refl, rfl⟩

theorem iterate_arrive_moves (n : Nat) (ch : SocketChannel kind) :
    Moves ch.conn (Nat.iterate arrive n ch).conn
      ∧ (Nat.iterate arrive n ch).wire = ch.wire := by
  induction n generalizing ch with
  | zero => exact ⟨.refl, rfl⟩
  | succ n ih =>
      obtain ⟨hmoves, hwire⟩ := ih ch.arrive
      exact ⟨.head (.arrive ch.listener ch.state) hmoves, hwire⟩

theorem waitForClient_moves :
    ∀ (polls : List WaitPoll) (ch : SocketChannel kind),
      Moves ch.conn (ch.waitForClient polls).1.conn
        ∧ (ch.waitForClient polls).1.wire = ch.wire
  | [], ch => ⟨.refl, rfl⟩
  | w :: ws, ch => by
      obtain ⟨harrive, hwire⟩ := iterate_arrive_moves w.arrivals ch
      rw [waitForClient]
      split
      next => exact ⟨harrive, hwire⟩
      next =>
        split
        next l stream hacc =>
          obtain ⟨hmoves, hsame⟩ := accept_moves hacc w.attach.cloneFails
          exact ⟨harrive.trans hmoves, hsame.trans hwire⟩
        next l hacc =>
          split
          next => exact ⟨harrive, hwire⟩
          next =>
            obtain ⟨hmoves, hsame⟩ :=
              waitForClient_moves ws (Nat.iterate arrive w.arrivals ch)
            exact ⟨harrive.trans hmoves, hsame.trans hwire⟩
        next => exact ⟨harrive, hwire⟩

theorem tryRecv_moves (ch : SocketChannel kind) (poll : InboxPoll) :
    Moves ch.conn (ch.tryRecv poll).1.conn := by
  unfold tryRecv
  split
  next =>
    split
    next => exact .refl
    next => exact .refl
    next => exact .single (.detach ch.listener ch.state)
  next => exact .refl

end SocketChannel

/-! ## §2. What moves keep. -/

/-- The listener never offers a connection twice. -/
structure Fresh (c : Listener × ConnectionState) : Prop where
  sorted : c.1.backlog.Pairwise (· < ·)
  pending : ∀ s ∈ c.1.backlog, s < c.1.nextStream
  attached : ∀ s, c.2 = .connected s →
    s < c.1.nextStream ∧ s ∉ c.1.backlog

/-- This connection was offered, and is not attached. -/
structure Retired (s : Stream) (c : Listener × ConnectionState) : Prop where
  offered : s < c.1.nextStream
  taken : s ∉ c.1.backlog
  detached : c.2 ≠ .connected s

theorem Move.fresh {c c' : Listener × ConnectionState} (h : Move c c')
    (hc : Fresh c) : Fresh c' := by
  cases h with
  | arrive l st =>
      refine ⟨?_, ?_, ?_⟩
      · exact List.pairwise_append.mpr ⟨hc.sorted, List.pairwise_singleton _ _,
          fun s hs t ht => by
            rw [List.mem_singleton.mp ht]
            exact hc.pending s hs⟩
      · intro s hs
        rcases List.mem_append.mp hs with hs | hs
        · exact Nat.lt_succ_of_lt (hc.pending s hs)
        · rw [List.mem_singleton.mp hs]
          exact Nat.lt_succ_self _
      · intro s hs
        obtain ⟨hlt, hout⟩ := hc.attached s hs
        refine ⟨Nat.lt_succ_of_lt hlt, ?_⟩
        intro hmem
        rcases List.mem_append.mp hmem with hmem | hmem
        · exact hout hmem
        · rw [List.mem_singleton.mp hmem] at hlt
          exact Nat.lt_irrefl _ hlt
  | attach st hback =>
      -- the head of a sorted backlog is below all that wait behind it
      have hsorted := hc.sorted
      have hpending := hc.pending
      rw [hback] at hsorted hpending
      obtain ⟨hhead, htail⟩ := List.pairwise_cons.mp hsorted
      refine ⟨htail, fun s hs => hpending s (List.mem_cons_of_mem _ hs), ?_⟩
      intro s hs
      injection hs with hs
      subst hs
      exact ⟨hpending _ List.mem_cons_self,
        fun hmem => Nat.lt_irrefl _ (hhead _ hmem)⟩
  | lose st hback =>
      have hsorted := hc.sorted
      have hpending := hc.pending
      rw [hback] at hsorted hpending
      exact ⟨(List.pairwise_cons.mp hsorted).2,
        fun s hs => hpending s (List.mem_cons_of_mem _ hs),
        fun s hs => absurd hs (by simp)⟩
  | detach l st => exact ⟨hc.sorted, hc.pending, fun s hs => absurd hs (by simp)⟩

theorem Move.retired {c c' : Listener × ConnectionState} (h : Move c c')
    {s : Stream} (hs : Retired s c) : Retired s c' := by
  cases h with
  | arrive l st =>
      refine ⟨Nat.lt_succ_of_lt hs.offered, ?_, hs.detached⟩
      intro hmem
      rcases List.mem_append.mp hmem with hmem | hmem
      · exact hs.taken hmem
      · have hlt := hs.offered
        rw [List.mem_singleton.mp hmem] at hlt
        exact Nat.lt_irrefl _ hlt
  | attach st hback =>
      have htaken := hs.taken
      rw [hback, List.mem_cons, not_or] at htaken
      refine ⟨hs.offered, htaken.2, ?_⟩
      intro heq
      injection heq with heq
      exact htaken.1 heq.symm
  | lose st hback =>
      have htaken := hs.taken
      rw [hback, List.mem_cons, not_or] at htaken
      exact ⟨hs.offered, htaken.2, by simp⟩
  | detach l st => exact ⟨hs.offered, hs.taken, by simp⟩

/-- A connection is left for good. -/
theorem Move.leaves {c c' : Listener × ConnectionState} (h : Move c c')
    (hc : Fresh c) {s : Stream} (hs : c.2 = .connected s) :
    c'.2 = .connected s ∨ Retired s c' := by
  obtain ⟨hlt, hout⟩ := hc.attached s hs
  cases h with
  | arrive l st => exact .inl hs
  | attach st hback =>
      rw [hback, List.mem_cons, not_or] at hout
      refine .inr ⟨hlt, hout.2, ?_⟩
      intro heq
      injection heq with heq
      exact hout.1 heq.symm
  | lose st hback =>
      rw [hback, List.mem_cons, not_or] at hout
      exact .inr ⟨hlt, hout.2, by simp⟩
  | detach l st => exact .inr ⟨hlt, hout, by simp⟩

theorem Moves.fresh {c c' : Listener × ConnectionState} (h : Moves c c')
    (hc : Fresh c) : Fresh c' := by
  induction h with
  | refl => exact hc
  | tail _ hmove ih => exact hmove.fresh ih

theorem Moves.retired {c c' : Listener × ConnectionState} (h : Moves c c')
    {s : Stream} (hs : Retired s c) : Retired s c' := by
  induction h with
  | refl => exact hs
  | tail _ hmove ih => exact hmove.retired ih

theorem Moves.leaves {c c' : Listener × ConnectionState} (h : Moves c c')
    (hc : Fresh c) {s : Stream} (hs : c.2 = .connected s) :
    c'.2 = .connected s ∨ Retired s c' := by
  induction h with
  | refl => exact .inl hs
  | tail hmoves hmove ih =>
      rcases ih with ih | ih
      · exact hmove.leaves (Moves.fresh hmoves hc) ih
      · exact .inr (hmove.retired ih)

/-- A new channel has offered nobody. -/
theorem fresh_new {kind : ChannelKind} :
    Fresh (SocketChannel.new : SocketChannel kind).conn where
  sorted := List.Pairwise.nil
  pending _ h := absurd h List.not_mem_nil
  attached _ h := absurd h (by simp [SocketChannel.conn, SocketChannel.new])

end ArgusManager
