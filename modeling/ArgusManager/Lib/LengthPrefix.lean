/-
  ArgusManager.Lib.LengthPrefix
  ─────────────────────────────
  **Length-prefixed framing over any alphabet.**

  A frame is a header of fixed width that says how long the payload is, and
  the payload.  A `LengthPrefix` carries the laws that make headers and
  lengths name each other, so that a stream has at most one first frame
  (`next_eq_some`).

    • `split`            — the complete frames of a stream, and what is left,
    • `split_frames`     — written frames are split back, a cut one stays,
    • `readAll`          — a reader that stops at the first frame it refuses,
    • `readAll_longest`  — it delivers the longest prefix of frames it
                           accepts,
    • `readAll_append`   — and goes on where it stopped,
    • `readAll_of_sent`  — from any part of what was sent it reads no more than
                           that,
    • `resume`           — a writer's frames go on where the reader's end.
-/
import Mathlib.Data.List.Basic
import Mathlib.Data.List.Infix

/-- A way to write the lengths below `limit` in `width` letters. -/
structure LengthPrefix (α : Type*) where
  width : Nat
  limit : Nat
  encode : Nat → List α
  decode : List α → Nat
  width_pos : 0 < width
  length_encode : ∀ n, (encode n).length = width
  decode_encode : ∀ n, n < limit → decode (encode n) = n
  decode_lt : ∀ h, h.length = width → decode h < limit
  encode_decode : ∀ h, h.length = width → encode (decode h) = h

namespace LengthPrefix

variable {α β : Type*} (f : LengthPrefix α)

/-! ## §1. One frame. -/

def frame (payload : List α) : List α := f.encode payload.length ++ payload

/-- The payload of a stream's first frame, and what follows the frame; `none`
while the frame is incomplete. -/
def next (s : List α) : Option (List α × List α) :=
  if s.length < f.width then none
  else
    let n := f.decode (s.take f.width)
    let body := s.drop f.width
    if body.length < n then none else some (body.take n, body.drop n)

theorem frame_length (p : List α) :
    (f.frame p).length = f.width + p.length := by
  unfold frame
  rw [List.length_append, f.length_encode]

/-- What follows a frame does not matter to it. -/
theorem next_frame {p : List α} (hp : p.length < f.limit) (rest : List α) :
    f.next (f.frame p ++ rest) = some (p, rest) := by
  have hlen := f.length_encode p.length
  unfold next frame
  rw [List.append_assoc, List.take_left' hlen, List.drop_left' hlen,
    f.decode_encode _ hp,
    if_neg (by rw [List.length_append, hlen]; omega)]
  dsimp only
  rw [List.take_left, List.drop_left]
  exact if_neg (by rw [List.length_append]; omega)

/-- **A stream has one first frame**: what `next` finds is what was written. -/
theorem next_eq_some {s p rest : List α} :
    f.next s = some (p, rest)
      ↔ p.length < f.limit ∧ s = f.frame p ++ rest := by
  constructor
  · intro h
    unfold next at h
    split at h
    next => exact absurd h (by simp)
    next hwidth =>
      dsimp only at h
      split at h
      next => exact absurd h (by simp)
      next hbody =>
        have hhead : (s.take f.width).length = f.width := by
          rw [List.length_take]
          omega
        injection h with h
        injection h with hp hrest
        have hlen : p.length = f.decode (s.take f.width) := by
          rw [← hp, List.length_take]
          omega
        refine ⟨hlen ▸ f.decode_lt _ hhead, ?_⟩
        unfold frame
        rw [hlen, f.encode_decode _ hhead, ← hp, ← hrest, List.append_assoc,
          List.take_append_drop, List.take_append_drop]
  · rintro ⟨hp, rfl⟩
    exact f.next_frame hp rest

/-- A frame cut short is no frame. -/
theorem next_of_cut {p t : List α} (hp : p.length < f.limit)
    (ht : t <+: f.frame p) (hne : t ≠ f.frame p) : f.next t = none := by
  cases hnext : f.next t with
  | none => rfl
  | some found =>
      obtain ⟨q, rest⟩ := found
      obtain ⟨hq, rfl⟩ := f.next_eq_some.mp hnext
      obtain ⟨u, hu⟩ := ht
      rw [List.append_assoc] at hu
      -- the cut frame would be a whole one already
      have hboth := f.next_frame hq (rest ++ u)
      rw [hu, ← List.append_nil (f.frame p), f.next_frame hp] at hboth
      injection hboth with hboth
      injection hboth with hpq hrest
      obtain ⟨rfl, _⟩ := List.append_eq_nil_iff.mp hrest.symm
      exact absurd (by rw [hpq, List.append_nil]) hne

theorem next_nil : f.next [] = none := by
  unfold next
  exact if_pos f.width_pos

/-- A frame found takes something off the stream. -/
theorem next_length {s p rest : List α} (h : f.next s = some (p, rest)) :
    rest.length < s.length := by
  obtain ⟨_, rfl⟩ := f.next_eq_some.mp h
  rw [List.length_append, f.frame_length]
  have := f.width_pos
  omega

/-! ## §2. All frames. -/

/-- The payloads of the complete frames of a stream, and what is left. -/
def split (s : List α) : List (List α) × List α :=
  match h : f.next s with
  | none => ([], s)
  | some (p, rest) =>
      have := f.next_length h
      let (ps, tail) := split rest
      (p :: ps, tail)
termination_by s.length

theorem split_none {s : List α} (h : f.next s = none) :
    f.split s = ([], s) := by
  unfold split
  split
  next => rfl
  next hsome => exact absurd (h.symm.trans hsome) (by simp)

theorem split_some {s p rest : List α} (h : f.next s = some (p, rest)) :
    f.split s = (p :: (f.split rest).1, (f.split rest).2) := by
  rw [split]
  split
  next hnone => exact absurd (h.symm.trans hnone) (by simp)
  next p' rest' hsome =>
    rw [h] at hsome
    injection hsome with hsome
    injection hsome with hp hrest
    subst hp hrest
    rfl

/-- **Written frames are split back**, and an incomplete one is left over. -/
theorem split_frames {ps : List (List α)} {tail : List α}
    (hps : ∀ p ∈ ps, p.length < f.limit) (htail : f.next tail = none) :
    f.split (ps.flatMap f.frame ++ tail) = (ps, tail) := by
  induction ps with
  | nil => exact f.split_none htail
  | cons p ps ih =>
      have hp := hps p List.mem_cons_self
      have hrest := ih fun q hq => hps q (List.mem_cons_of_mem _ hq)
      rw [List.flatMap_cons, List.append_assoc,
        f.split_some (f.next_frame hp _), hrest]

/-! ## §3. A reader that may refuse. -/

/-- Read frames until one is incomplete or refused. -/
def readAll (accept : List α → Option β) (s : List α) : List β :=
  match h : f.next s with
  | none => []
  | some (p, rest) =>
      have := f.next_length h
      match accept p with
      | none => []
      | some b => b :: readAll accept rest
termination_by s.length

variable {accept : List α → Option β}

theorem readAll_none {s : List α} (h : f.next s = none) :
    f.readAll accept s = [] := by
  unfold readAll
  split
  next => rfl
  next hsome => exact absurd (h.symm.trans hsome) (by simp)

theorem readAll_some {s p rest : List α} (h : f.next s = some (p, rest)) :
    f.readAll accept s
      = (accept p).elim [] fun b => b :: f.readAll accept rest := by
  rw [readAll]
  split
  next hnone => exact absurd (h.symm.trans hnone) (by simp)
  next p' rest' hsome =>
    rw [h] at hsome
    injection hsome with hsome
    injection hsome with hp hrest
    subst hp hrest
    cases accept p <;> rfl

/-- **The reader goes on where it stopped**: frames it accepts are delivered,
then the rest is read. -/
theorem readAll_append {ps : List (List α)}
    (hps : ∀ p ∈ ps, p.length < f.limit ∧ (accept p).isSome)
    (rest : List α) :
    f.readAll accept (ps.flatMap f.frame ++ rest)
      = ps.filterMap accept ++ f.readAll accept rest := by
  induction ps with
  | nil => rfl
  | cons p ps ih =>
      obtain ⟨hp, hok⟩ := hps p List.mem_cons_self
      obtain ⟨b, hb⟩ := Option.isSome_iff_exists.mp hok
      have hrest := ih fun q hq => hps q (List.mem_cons_of_mem _ hq)
      rw [List.flatMap_cons, List.append_assoc,
        f.readAll_some (f.next_frame hp _), hb, List.filterMap_cons_some hb]
      exact congrArg (b :: ·) hrest

/-- The frames a reader accepts are a prefix of the stream, and the frame
after them, if there is one, is refused. -/
theorem readAll_prefix (accept : List α → Option β) (s : List α) :
    ∃ (ps : List (List α)) (rest : List α), s = ps.flatMap f.frame ++ rest
      ∧ (∀ p ∈ ps, p.length < f.limit ∧ (accept p).isSome)
      ∧ f.readAll accept s = ps.filterMap accept
      ∧ ∀ q rest', f.next rest = some (q, rest') → accept q = none := by
  -- on the length: a frame leaves a shorter stream
  induction hn : s.length using Nat.strongRecOn generalizing s with
  | ind n ih =>
      subst hn
      cases hnext : f.next s with
      | none =>
          refine ⟨[], s, rfl, by simp, f.readAll_none hnext, ?_⟩
          intro q rest' hq
          exact absurd (hnext.symm.trans hq) (by simp)
      | some found =>
          obtain ⟨p, rest⟩ := found
          obtain ⟨hp, hs⟩ := f.next_eq_some.mp hnext
          cases hok : accept p with
          | none =>
              refine ⟨[], s, rfl, by simp, ?_, ?_⟩
              · rw [f.readAll_some hnext, hok]
                rfl
              · intro q rest' hq
                rw [hnext] at hq
                injection hq with hq
                injection hq with hq _
                exact hq ▸ hok
          | some b =>
              obtain ⟨ps, tail, hrest, hps, hread, hstop⟩ :=
                ih rest.length (f.next_length hnext) rest rfl
              refine ⟨p :: ps, tail, ?_, ?_, ?_, hstop⟩
              · rw [hs, hrest, List.flatMap_cons, List.append_assoc]
              · intro q hq
                rcases List.mem_cons.mp hq with rfl | hq
                · exact ⟨hp, by simp [hok]⟩
                · exact hps q hq
              · rw [f.readAll_some hnext, hok,
                  List.filterMap_cons_some hok, ← hread]
                rfl

/-- Any accepted frames a stream starts with are among those the reader
delivers. -/
theorem prefix_of_stop {ps qs : List (List α)} {rest rest' : List α}
    (hps : ∀ p ∈ ps, p.length < f.limit)
    (hstop : ∀ q r, f.next rest = some (q, r) → accept q = none)
    (hqs : ∀ q ∈ qs, q.length < f.limit ∧ (accept q).isSome)
    (h : ps.flatMap f.frame ++ rest = qs.flatMap f.frame ++ rest') :
    qs <+: ps := by
  induction qs generalizing ps with
  | nil => exact List.nil_prefix
  | cons q qs ih =>
      obtain ⟨hq, hok⟩ := hqs q List.mem_cons_self
      rw [List.flatMap_cons, List.append_assoc] at h
      have hnext := f.next_frame hq (qs.flatMap f.frame ++ rest')
      cases ps with
      | nil =>
          -- the reader would have stopped at a frame it accepts
          rw [← h] at hnext
          rw [hstop q _ hnext] at hok
          exact absurd hok (by simp)
      | cons p ps =>
          have hp := hps p List.mem_cons_self
          rw [List.flatMap_cons, List.append_assoc] at h
          rw [← h, f.next_frame hp] at hnext
          injection hnext with hnext
          injection hnext with hpq hrest
          subst hpq
          exact List.prefix_cons_inj _ |>.mpr
            (ih (fun p hp => hps p (List.mem_cons_of_mem _ hp))
              (fun q hq => hqs q (List.mem_cons_of_mem _ hq)) hrest)

/-- **The reader delivers the longest prefix of frames it accepts.** -/
theorem readAll_longest (accept : List α → Option β) (s : List α) :
    ∃ (ps : List (List α)) (rest : List α), s = ps.flatMap f.frame ++ rest
      ∧ (∀ p ∈ ps, p.length < f.limit ∧ (accept p).isSome)
      ∧ f.readAll accept s = ps.filterMap accept
      ∧ ∀ qs rest', s = qs.flatMap f.frame ++ rest' →
          (∀ q ∈ qs, q.length < f.limit ∧ (accept q).isSome) → qs <+: ps := by
  obtain ⟨ps, rest, hs, hps, hread, hstop⟩ := f.readAll_prefix accept s
  refine ⟨ps, rest, hs, hps, hread, ?_⟩
  intro qs rest' hqs hok
  exact f.prefix_of_stop (fun p hp => (hps p hp).1) hstop hok
    (hs.symm.trans hqs)

/-! ## §4. What was sent. -/

/-- A frame that is found in a beginning is found. -/
theorem next_of_prefix {s t : List α} (ht : f.next t = none) (h : s <+: t) :
    f.next s = none := by
  cases hnext : f.next s with
  | none => rfl
  | some found =>
      obtain ⟨p, rest⟩ := found
      obtain ⟨hp, rfl⟩ := f.next_eq_some.mp hnext
      obtain ⟨more, rfl⟩ := h
      rw [List.append_assoc, f.next_frame hp] at ht
      exact absurd ht (by simp)

/-- **However much of what was sent has arrived**, with a cut frame behind it
or not, the reader delivers a prefix of it. -/
theorem readAll_of_sent {encode : β → List α} {bs : List β}
    {s tail : List α} (hlen : ∀ b ∈ bs, (encode b).length < f.limit)
    (hround : ∀ b ∈ bs, ∀ b', accept (encode b) = some b' → b' = b)
    (htail : f.next tail = none)
    (h : s <+: (bs.flatMap fun b => f.frame (encode b)) ++ tail) :
    f.readAll accept s <+: bs := by
  induction bs generalizing s with
  | nil => rw [f.readAll_none (f.next_of_prefix htail h)]
  | cons b bs ih =>
      have hb := hlen b List.mem_cons_self
      rw [List.flatMap_cons, List.append_assoc] at h
      rcases List.prefix_or_prefix_of_prefix h (List.prefix_append _ _)
        with hcut | ⟨rest, rfl⟩
      · by_cases hwhole : s = f.frame (encode b)
        · -- the frame is there, and nothing behind it
          have hnext := f.next_frame hb []
          rw [List.append_nil, ← hwhole] at hnext
          rw [f.readAll_some hnext]
          cases hok : accept (encode b) with
          | none => exact List.nil_prefix
          | some b' =>
              rw [hround b List.mem_cons_self b' hok,
                f.readAll_none f.next_nil]
              exact List.prefix_append [b] bs
        · rw [f.readAll_none (f.next_of_cut hb hcut hwhole)]
          exact List.nil_prefix
      · rw [f.readAll_some (f.next_frame hb rest)]
        cases hok : accept (encode b) with
        | none => exact List.nil_prefix
        | some b' =>
            rw [hround b List.mem_cons_self b' hok]
            refine (List.prefix_cons_inj b).mpr (ih ?_ ?_ ?_)
            · exact fun c hc => hlen c (List.mem_cons_of_mem _ hc)
            · exact fun c hc => hround c (List.mem_cons_of_mem _ hc)
            · exact (List.prefix_append_right_inj _).mp h

/-- What the reader has not read yet is the frames that follow, and the cut
one behind them. -/
theorem resume {ps qs : List (List α)} {rest tail : List α}
    (hps : ∀ p ∈ ps, p.length < f.limit)
    (hqs : ∀ q ∈ qs, q.length < f.limit) (htail : f.next tail = none)
    (h : ps.flatMap f.frame ++ rest = qs.flatMap f.frame ++ tail) :
    ∃ rs, qs = ps ++ rs ∧ rest = rs.flatMap f.frame ++ tail := by
  induction ps generalizing qs with
  | nil => exact ⟨qs, rfl, h⟩
  | cons p ps ih =>
      have hp := f.next_frame (hps p List.mem_cons_self)
        (ps.flatMap f.frame ++ rest)
      rw [List.flatMap_cons, List.append_assoc] at h
      rw [h] at hp
      cases qs with
      | nil => exact absurd (htail.symm.trans hp) (by simp)
      | cons q qs =>
          rw [List.flatMap_cons, List.append_assoc,
            f.next_frame (hqs q List.mem_cons_self)] at hp
          injection hp with hp
          injection hp with hpq hrest
          obtain ⟨rs, rfl, hrs⟩ :=
            ih (fun p hp => hps p (List.mem_cons_of_mem _ hp))
              (fun q hq => hqs q (List.mem_cons_of_mem _ hq)) hrest.symm
          exact ⟨rs, by rw [hpq]; rfl, hrs⟩

end LengthPrefix
