/-
  ArgusManager.Lib.Polling
  ────────────────────────
  **Polling a length-prefixed stream whose line can be quiet.**

  What arrives is a list of letters with timeouts among them (`none`), and
  once it is used up the line is quiet for good.  A poll fills the header and
  then the payload.  A timeout in the header is "nothing yet", one in the
  payload is a failure; in both cases the letters read so far are gone.

    • `poll_spec`      — everything one poll can do,
    • `exact_of_whole` — if timeouts fall between frames only, polling delivers
                         exactly what was framed,
    • `whole_of_exact` — and conversely, if nothing is accepted off the frames,
    • `delivered_whole_cut` — a frame cut short at the end changes nothing,
    • `delivered_sublist`   — and wherever timeouts fall, polls that do not
                              fail deliver nothing but what was sent, in order,
    • `Received.poll`       — one poll at a time, while the stream grows.
-/
import ArgusManager.Lib.LengthPrefix
import ArgusManager.Lib.Mealy
import Mathlib.Data.List.ReduceOption

namespace LengthPrefix

variable {α β : Type*} (f : LengthPrefix α)

/-! ## §1. One poll. -/

/-- Fill a buffer of `n` letters. -/
def fill : Nat → List (Option α) → Option (List α) × List (Option α)
  | 0, ts => (some [], ts)
  | _ + 1, [] => (none, [])
  | _ + 1, none :: ts => (none, ts)
  | n + 1, some x :: ts =>
      let (xs, ts) := fill n ts
      (xs.map (x :: ·), ts)

/-- A timeout after these letters, or nothing more at all. -/
def QuietAfter (xs : List α) (ts rest : List (Option α)) : Prop :=
  ts = xs.map some ++ none :: rest ∨ (ts = xs.map some ∧ rest = [])

theorem QuietAfter.cons {xs : List α} {ts rest : List (Option α)}
    (h : QuietAfter xs ts rest) (x : α) :
    QuietAfter (x :: xs) (some x :: ts) rest := by
  rcases h with rfl | ⟨rfl, rfl⟩
  · exact .inl rfl
  · exact .inr ⟨rfl, rfl⟩

theorem letters_append (xs : List α) (ts : List (Option α)) :
    (xs.map some ++ ts).reduceOption = xs ++ ts.reduceOption := by
  rw [List.reduceOption_append]
  congr 1
  simp [List.reduceOption]

theorem QuietAfter.letters {xs : List α} {ts rest : List (Option α)}
    (h : QuietAfter xs ts rest) :
    ts.reduceOption = xs ++ rest.reduceOption := by
  rcases h with rfl | ⟨rfl, rfl⟩
  · rw [letters_append, List.reduceOption_cons_of_none]
  · rw [← List.append_nil (xs.map some), letters_append]

@[simp] theorem fill_zero (ts : List (Option α)) :
    fill 0 ts = (some [], ts) := rfl

@[simp] theorem fill_letter (n : Nat) (x : α) (ts : List (Option α)) :
    fill (n + 1) (some x :: ts)
      = ((fill n ts).1.map (x :: ·), (fill n ts).2) := rfl

/-- Letters that are there go into the buffer first. -/
theorem fill_add (xs : List α) (k : Nat) (ts : List (Option α)) :
    fill (xs.length + k) (xs.map some ++ ts)
      = ((fill k ts).1.map (xs ++ ·), (fill k ts).2) := by
  induction xs with
  | nil =>
      rw [List.length_nil, Nat.zero_add]
      show fill k ts = ((fill k ts).1.map id, (fill k ts).2)
      rw [Option.map_id]
      rfl
  | cons x xs ih =>
      rw [List.length_cons, Nat.add_right_comm, List.map_cons,
        List.cons_append, fill_letter, ih, Option.map_map]
      rfl

theorem fill_append (xs : List α) (ts : List (Option α)) :
    fill xs.length (xs.map some ++ ts) = (some xs, ts) := by
  have hadd := fill_add xs 0 ts
  rw [Nat.add_zero, fill_zero] at hadd
  rw [hadd]
  show (some (xs ++ []), ts) = _
  rw [List.append_nil]

/-- The buffer is filled, or the line goes quiet before. -/
theorem fill_spec (n : Nat) (ts : List (Option α)) :
    (∃ xs rest, fill n ts = (some xs, rest) ∧ xs.length = n
        ∧ ts = xs.map some ++ rest)
    ∨ (∃ xs rest, fill n ts = (none, rest) ∧ xs.length < n
        ∧ QuietAfter xs ts rest) := by
  induction n generalizing ts with
  | zero => exact .inl ⟨[], ts, rfl, rfl, rfl⟩
  | succ n ih =>
      cases ts with
      | nil => exact .inr ⟨[], [], rfl, Nat.succ_pos n, .inr ⟨rfl, rfl⟩⟩
      | cons t ts =>
          cases t with
          | none => exact .inr ⟨[], ts, rfl, Nat.succ_pos n, .inl rfl⟩
          | some x =>
              rw [fill_letter]
              obtain ⟨xs, rest, hfill, rfl, rfl⟩ | ⟨xs, rest, hfill, hlen, hq⟩ :=
                ih ts
              · left
                rw [hfill]
                exact ⟨x :: xs, rest, rfl, rfl, rfl⟩
              · right
                rw [hfill]
                exact ⟨x :: xs, rest, rfl, Nat.succ_lt_succ hlen, hq.cons x⟩

/-- One poll: `some none` if nothing has come yet, `none` if it fails. -/
def poll (accept : List α → Option β) (ts : List (Option α)) :
    Option (Option β) × List (Option α) :=
  match fill f.width ts with
  | (none, ts) => (some none, ts)
  | (some header, ts) =>
      match fill (f.decode header) ts with
      | (none, ts) => (none, ts)
      | (some payload, ts) => ((accept payload).map some, ts)

variable {accept : List α → Option β}

@[simp] theorem poll_nil : f.poll accept [] = (some none, []) := by
  obtain ⟨n, hn⟩ := Nat.exists_eq_succ_of_ne_zero f.width_pos.ne'
  unfold poll
  rw [hn]
  rfl

@[simp] theorem poll_timeout (ts : List (Option α)) :
    f.poll accept (none :: ts) = (some none, ts) := by
  obtain ⟨n, hn⟩ := Nat.exists_eq_succ_of_ne_zero f.width_pos.ne'
  unfold poll
  rw [hn]
  rfl

/-- A frame that arrives without a timeout is read whole. -/
theorem poll_frame {p : List α} (hp : p.length < f.limit)
    (ts : List (Option α)) :
    f.poll accept ((f.frame p).map some ++ ts)
      = ((accept p).map some, ts) := by
  have hheader := fill_append (f.encode p.length) (p.map some ++ ts)
  rw [f.length_encode] at hheader
  unfold poll frame
  rw [List.map_append, List.append_assoc, hheader]
  dsimp only
  rw [f.decode_encode _ hp, fill_append]

/-- **Everything one poll can do.** -/
theorem poll_spec (accept : List α → Option β) (ts : List (Option α)) :
    (∃ header payload rest, header.length = f.width
        ∧ payload.length = f.decode header
        ∧ ts = (header ++ payload).map some ++ rest
        ∧ f.poll accept ts = ((accept payload).map some, rest))
    ∨ (∃ xs rest, xs.length < f.width ∧ QuietAfter xs ts rest
        ∧ f.poll accept ts = (some none, rest))
    ∨ (∃ rest, f.poll accept ts = (none, rest)) := by
  unfold poll
  obtain ⟨header, rest, hfill, hheader, rfl⟩ | ⟨xs, rest, hfill, hlen, hq⟩ :=
    fill_spec f.width ts
  · rw [hfill]
    dsimp only
    obtain ⟨payload, rest', hfill', hpayload, rfl⟩ | ⟨_, rest', hfill', _⟩ :=
      fill_spec (f.decode header) rest
    · left
      rw [hfill']
      refine ⟨header, payload, rest', hheader, hpayload, ?_, rfl⟩
      rw [List.map_append, List.append_assoc]
    · right; right
      rw [hfill']
      exact ⟨rest', rfl⟩
  · right; left
    rw [hfill]
    exact ⟨xs, rest, hlen, hq, rfl⟩

/-! ## §2. Polling on. -/

/-- One poll after the other. -/
def poller (accept : List α → Option β) :
    Mealy (List (Option α)) Unit (Option (Option β)) where
  step ts _ :=
    let (r, ts) := f.poll accept ts
    (ts, r)

/-- The answers of the first `n` polls. -/
def answers (accept : List α → Option β) (n : Nat) (ts : List (Option α)) :
    List (Option (Option β)) :=
  (f.poller accept).outs ts (List.replicate n ())

/-- What the polls delivered. -/
def delivered (rs : List (Option (Option β))) : List β :=
  rs.filterMap Option.join

theorem answers_succ (n : Nat) (ts : List (Option α)) :
    f.answers accept (n + 1) ts
      = (f.poll accept ts).1 :: f.answers accept n (f.poll accept ts).2 := rfl

/-- **Polling delivers exactly `bs`**: it never fails, never delivers anything
else, and in the end has delivered it all. -/
structure Exact (answers : Nat → List (Option (Option β))) (bs : List β) :
    Prop where
  noError : ∀ n, none ∉ answers n
  inOrder : ∀ n, delivered (answers n) <+: bs
  complete : ∃ n, delivered (answers n) = bs

section Frames

variable (encode : β → List α)

/-- The frames of some values, one after the other. -/
def stream (bs : List β) : List α := bs.flatMap fun b => f.frame (encode b)

/-- Whole frames, with timeouts between them only. -/
inductive Whole : List β → List (Option α) → Prop
  | nil : Whole [] []
  | timeout {bs : List β} {ts : List (Option α)} (h : Whole bs ts) :
      Whole bs (none :: ts)
  | frame {b : β} {bs : List β} {ts : List (Option α)} (h : Whole bs ts) :
      Whole (b :: bs) ((f.frame (encode b)).map some ++ ts)

variable {encode}

@[simp] theorem stream_nil : f.stream encode [] = [] := rfl

@[simp] theorem stream_cons (b : β) (bs : List β) :
    f.stream encode (b :: bs) = f.frame (encode b) ++ f.stream encode bs :=
  rfl

/-- A stream that yields a first frame yields the first value's. -/
theorem stream_head {bs : List β} {header payload rest : List α}
    (hlen : ∀ b ∈ bs, (encode b).length < f.limit)
    (hheader : header.length = f.width)
    (hpayload : payload.length = f.decode header)
    (h : f.stream encode bs = header ++ payload ++ rest) :
    ∃ b bs', bs = b :: bs' ∧ payload = encode b
      ∧ header ++ payload = f.frame (encode b)
      ∧ rest = f.stream encode bs' := by
  have hframe : header ++ payload = f.frame payload := by
    unfold frame
    rw [hpayload, f.encode_decode _ hheader]
  have hlimit : payload.length < f.limit := by
    rw [hpayload]
    exact f.decode_lt _ hheader
  have hnext := f.next_frame hlimit rest
  rw [← hframe, ← h] at hnext
  cases bs with
  | nil =>
      rw [stream_nil, f.next_nil] at hnext
      exact absurd hnext (by simp)
  | cons b bs =>
      rw [stream_cons, f.next_frame (hlen b List.mem_cons_self)] at hnext
      injection hnext with hnext
      injection hnext with hb hrest
      subst hb
      exact ⟨b, bs, rfl, rfl, hframe, hrest.symm⟩

/-! ## §3. Timeouts between frames do no harm. -/

/-- One poll of whole frames: nothing yet, or the next value. -/
theorem whole_poll {bs : List β} {ts : List (Option α)}
    (h : f.Whole encode bs ts)
    (hlen : ∀ b ∈ bs, (encode b).length < f.limit)
    (hround : ∀ b ∈ bs, accept (encode b) = some b) :
    ((f.poll accept ts).1 = some none
        ∧ f.Whole encode bs (f.poll accept ts).2)
    ∨ (∃ b bs', bs = b :: bs' ∧ (f.poll accept ts).1 = some (some b)
        ∧ f.Whole encode bs' (f.poll accept ts).2) := by
  cases h with
  | nil =>
      rw [f.poll_nil]
      exact .inl ⟨rfl, .nil⟩
  | timeout h =>
      rw [f.poll_timeout]
      exact .inl ⟨rfl, h⟩
  | @frame b bs ts h =>
      rw [f.poll_frame (hlen b List.mem_cons_self),
        hround b List.mem_cons_self]
      exact .inr ⟨b, bs, rfl, rfl, h⟩

/-- **Polling whole frames delivers exactly what was framed.** -/
theorem exact_of_whole {bs : List β} {ts : List (Option α)}
    (h : f.Whole encode bs ts)
    (hlen : ∀ b ∈ bs, (encode b).length < f.limit)
    (hround : ∀ b ∈ bs, accept (encode b) = some b) :
    Exact (fun n => f.answers accept n ts) bs := by
  -- what any number of polls does, and that some number does it all
  have hrun : ∀ (n : Nat) (bs : List β) (ts : List (Option α)),
      f.Whole encode bs ts → (∀ b ∈ bs, (encode b).length < f.limit) →
      (∀ b ∈ bs, accept (encode b) = some b) →
      none ∉ f.answers accept n ts
        ∧ delivered (f.answers accept n ts) <+: bs := by
    intro n
    induction n with
    | zero => intro bs ts _ _ _; exact ⟨by simp [answers], List.nil_prefix⟩
    | succ n ih =>
        intro bs ts h hlen hround
        rw [f.answers_succ]
        obtain ⟨hr, h'⟩ | ⟨b, bs', rfl, hr, h'⟩ := f.whole_poll h hlen hround
        · obtain ⟨herr, hpre⟩ := ih bs _ h' hlen hround
          rw [hr]
          exact ⟨by simpa using herr, hpre⟩
        · obtain ⟨herr, hpre⟩ := ih bs' _ h'
            (fun b hb => hlen b (List.mem_cons_of_mem _ hb))
            fun b hb => hround b (List.mem_cons_of_mem _ hb)
          rw [hr]
          refine ⟨by simpa using herr, ?_⟩
          exact (List.prefix_cons_inj b).mpr hpre
  refine ⟨fun n => (hrun n bs ts h hlen hround).1,
    fun n => (hrun n bs ts h hlen hround).2, ?_⟩
  clear hrun
  induction h with
  | nil => exact ⟨0, rfl⟩
  | timeout h ih =>
      obtain ⟨n, hn⟩ := ih hlen hround
      refine ⟨n + 1, ?_⟩
      rw [f.answers_succ, f.poll_timeout]
      exact hn
  | @frame b bs ts h ih =>
      obtain ⟨n, hn⟩ := ih (fun b hb => hlen b (List.mem_cons_of_mem _ hb))
        fun b hb => hround b (List.mem_cons_of_mem _ hb)
      refine ⟨n + 1, ?_⟩
      rw [f.answers_succ, f.poll_frame (hlen b List.mem_cons_self),
        hround b List.mem_cons_self]
      exact congrArg (b :: ·) hn

/-! ## §4. Any other timeout loses a frame. -/

/-- A frame of one of the values sent that has lost letters at its front. -/
def Torn (encode : β → List α) (sent : List β) (t : List α) : Prop :=
  ∃ b ∈ sent, t <:+ f.frame (encode b)
    ∧ t.length < (f.frame (encode b)).length

/-- Off the frames nothing is accepted: a header read there never leads to a
payload that is. -/
def OffFrameRefused (encode : β → List α) (accept : List α → Option β)
    (sent : List β) : Prop :=
  ∀ t bs header payload rest, t ≠ [] → f.Torn encode sent t → bs ⊆ sent →
    t ++ f.stream encode bs = header ++ payload ++ rest →
    header.length = f.width → payload.length = f.decode header →
    accept payload = none

variable {sent : List β}

/-- What is left of a stream is a torn frame and whole ones, and if anything
is missing at least one frame is no longer whole. -/
theorem stream_suffix {bs : List β} {xs ys : List α} (hbs : bs ⊆ sent)
    (h : f.stream encode bs = xs ++ ys) :
    ∃ t bs', ys = t ++ f.stream encode bs' ∧ bs' ⊆ sent
      ∧ (t = [] ∨ f.Torn encode sent t)
      ∧ bs'.length ≤ bs.length ∧ (xs ≠ [] → bs'.length < bs.length) := by
  induction bs generalizing xs with
  | nil =>
      obtain ⟨rfl, rfl⟩ := List.append_eq_nil_iff.mp h.symm
      exact ⟨[], [], rfl, hbs, .inl rfl, Nat.le_refl _,
        fun hne => absurd rfl hne⟩
  | cons b bs ih =>
      obtain ⟨hb, hbs'⟩ := List.cons_subset.mp hbs
      rw [stream_cons] at h
      rcases List.append_eq_append_iff.mp h with
        ⟨as, rfl, hrest⟩ | ⟨cs, hframe, rfl⟩
      · -- the first frame is gone
        obtain ⟨t, bs', hys, hsub, ht, hle, _⟩ := ih hbs' hrest
        refine ⟨t, bs', hys, hsub, ht, Nat.le_succ_of_le hle, ?_⟩
        intro _
        exact Nat.lt_succ_of_le hle
      · by_cases hxs : xs = []
        · subst hxs
          refine ⟨[], b :: bs, ?_, hbs, .inl rfl, Nat.le_refl _,
            fun hne => absurd rfl hne⟩
          rw [stream_cons, hframe]
          rfl
        · refine ⟨cs, bs, rfl, hbs', .inr ⟨b, hb, ⟨xs, hframe.symm⟩, ?_⟩,
            Nat.le_succ _, fun _ => Nat.lt_succ_self _⟩
          rw [hframe, List.length_append]
          have := List.length_pos_iff.mpr hxs
          omega

/-- The same of a stream whose first frame is torn already. -/
theorem torn_suffix {t : List α} {bs : List β} {xs ys : List α}
    (ht : t = [] ∨ f.Torn encode sent t) (hbs : bs ⊆ sent)
    (h : t ++ f.stream encode bs = xs ++ ys) :
    ∃ t' bs', ys = t' ++ f.stream encode bs' ∧ bs' ⊆ sent
      ∧ (t' = [] ∨ f.Torn encode sent t') ∧ bs'.length ≤ bs.length := by
  rcases List.append_eq_append_iff.mp h with
    ⟨as, rfl, hrest⟩ | ⟨cs, rfl, rfl⟩
  · obtain ⟨t', bs', hys, hsub, ht', hle, _⟩ := f.stream_suffix hbs hrest
    exact ⟨t', bs', hys, hsub, ht', hle⟩
  · refine ⟨cs, bs, rfl, hbs, ?_, Nat.le_refl _⟩
    rcases ht with hnil | ⟨b, hb, hsuff, hlt⟩
    · exact .inl (List.append_eq_nil_iff.mp hnil).2
    · refine .inr ⟨b, hb, (List.suffix_append xs cs).trans hsuff, ?_⟩
      rw [List.length_append] at hlt
      omega

/-- **At most the whole frames are delivered.** -/
theorem delivered_le (hoff : f.OffFrameRefused encode accept sent)
    (hlen : ∀ b ∈ sent, (encode b).length < f.limit) (n : Nat) {t : List α}
    {bs : List β} {ts : List (Option α)} (hbs : bs ⊆ sent)
    (ht : t = [] ∨ f.Torn encode sent t)
    (hts : ts.reduceOption = t ++ f.stream encode bs)
    (hok : none ∉ f.answers accept n ts) :
    (delivered (f.answers accept n ts)).length ≤ bs.length := by
  induction n generalizing t bs ts with
  | zero => exact Nat.zero_le _
  | succ n ih =>
      rw [f.answers_succ] at hok ⊢
      obtain ⟨header, payload, rest, hheader, hpayload, rfl, hpoll⟩
        | ⟨xs, rest, _, hquiet, hpoll⟩ | ⟨rest, hpoll⟩ := f.poll_spec accept ts
      · rw [hpoll] at hok ⊢
        rw [letters_append] at hts
        obtain ⟨hsome, hok⟩ := List.ne_and_not_mem_of_not_mem_cons hok
        by_cases hnil : t = []
        · subst hnil
          obtain ⟨b, bs', rfl, rfl, _, hrest⟩ := f.stream_head
            (fun b hb => hlen b (hbs hb)) hheader hpayload hts.symm
          have hle := ih (t := []) (List.cons_subset.mp hbs).2 (.inl rfl) hrest
            hok
          cases accept (encode b) with
          | none => exact Nat.le_succ_of_le hle
          | some b => exact Nat.succ_le_succ hle
        · -- off the frames the poll would have failed
          have hrefused := hoff t bs header payload _ hnil
            (ht.resolve_left hnil) hbs hts.symm hheader hpayload
          rw [hrefused] at hsome
          exact absurd rfl hsome
      · rw [hpoll] at hok ⊢
        rw [hquiet.letters] at hts
        obtain ⟨t', bs', hrest, hbs', ht', hle⟩ := f.torn_suffix ht hbs hts.symm
        have hnext := ih hbs' ht' hrest (List.not_mem_of_not_mem_cons hok)
        exact Nat.le_trans hnext hle
      · rw [hpoll] at hok
        exact absurd List.mem_cons_self hok

/-- No letters, timeouts at most. -/
theorem whole_of_no_letters {ts : List (Option α)}
    (h : ts.reduceOption = []) : f.Whole encode [] ts := by
  induction ts with
  | nil => exact .nil
  | cons t ts ih =>
      cases t with
      | none => exact .timeout (ih h)
      | some x => exact absurd h (by simp [List.reduceOption])

/-- Polls that deliver as many values as there are frames have met timeouts
between frames only. -/
theorem whole_of_delivered (hoff : f.OffFrameRefused encode accept sent)
    (hlen : ∀ b ∈ sent, (encode b).length < f.limit) (n : Nat) {bs : List β}
    {ts : List (Option α)} (hbs : bs ⊆ sent)
    (hts : ts.reduceOption = f.stream encode bs)
    (hok : none ∉ f.answers accept n ts)
    (hall : bs.length ≤ (delivered (f.answers accept n ts)).length) :
    f.Whole encode bs ts := by
  induction n generalizing bs ts with
  | zero =>
      obtain rfl := List.length_eq_zero_iff.mp (Nat.le_zero.mp hall)
      exact f.whole_of_no_letters hts
  | succ n ih =>
      rw [f.answers_succ] at hok hall
      obtain ⟨header, payload, rest, hheader, hpayload, rfl, hpoll⟩
        | ⟨xs, rest, hshort, hquiet, hpoll⟩ | ⟨rest, hpoll⟩ :=
        f.poll_spec accept ts
      · -- a whole message was read: it is the first frame
        rw [hpoll] at hok hall
        rw [letters_append] at hts
        obtain ⟨hsome, hok⟩ := List.ne_and_not_mem_of_not_mem_cons hok
        obtain ⟨b, bs, rfl, rfl, hframe, hrest⟩ := f.stream_head
          (fun b hb => hlen b (hbs hb)) hheader hpayload hts.symm
        rw [hframe]
        refine .frame (ih (List.cons_subset.mp hbs).2 hrest hok ?_)
        cases hb : accept (encode b) with
        | none =>
            rw [hb] at hsome
            exact absurd rfl hsome
        | some b' =>
            rw [hb] at hall
            exact Nat.le_of_succ_le_succ hall
      · rw [hpoll] at hok hall
        have hok' := List.not_mem_of_not_mem_cons hok
        rw [hquiet.letters] at hts
        by_cases hxs : xs = []
        · subst hxs
          rcases hquiet with rfl | ⟨rfl, rfl⟩
          · exact .timeout (ih hbs hts hok' hall)
          · exact ih hbs hts hok' hall
        · -- the frame these letters began is lost
          obtain ⟨t, bs', hrest, hbs', ht, _, hlt⟩ :=
            f.stream_suffix hbs hts.symm
          have hle := f.delivered_le hoff hlen n hbs' ht hrest hok'
          have hless := hlt hxs
          have hall' : bs.length
            ≤ (delivered (f.answers accept n rest)).length := hall
          omega
      · rw [hpoll] at hok
        exact absurd List.mem_cons_self hok

/-- **Exact delivery means whole frames**, where nothing is accepted off
them. -/
theorem whole_of_exact {bs : List β} {ts : List (Option α)}
    (hoff : f.OffFrameRefused encode accept bs)
    (hlen : ∀ b ∈ bs, (encode b).length < f.limit)
    (hts : ts.reduceOption = f.stream encode bs)
    (h : Exact (fun n => f.answers accept n ts) bs) :
    f.Whole encode bs ts := by
  obtain ⟨n, hn⟩ := h.complete
  exact f.whole_of_delivered hoff hlen n (List.Subset.refl bs) hts
    (h.noError n) (congrArg List.length hn).ge

end Frames

/-! ## §5. A frame cut short at the end. -/

theorem fill_short {n : Nat} {xs : List α} (h : xs.length < n) :
    fill n (xs.map some) = (none, []) := by
  induction xs generalizing n with
  | nil =>
      obtain ⟨k, rfl⟩ := Nat.exists_eq_succ_of_ne_zero h.ne'
      rfl
  | cons x xs ih =>
      obtain ⟨k, rfl⟩ : ∃ k, n = k + 1 := ⟨n - 1, by omega⟩
      rw [List.map_cons, fill_letter, ih (by simpa using h)]
      rfl

/-- An incomplete frame delivers nothing and uses up the line. -/
theorem poll_cut {tail : List α} (h : f.next tail = none) :
    (f.poll accept (tail.map some)).1.join = none
      ∧ (f.poll accept (tail.map some)).2 = [] := by
  unfold poll
  unfold next at h
  by_cases hheader : tail.length < f.width
  · rw [fill_short hheader]
    exact ⟨rfl, rfl⟩
  · rw [if_neg hheader] at h
    dsimp only at h
    have hbody : (tail.drop f.width).length
        < f.decode (tail.take f.width) := by
      by_contra hge
      rw [if_neg hge] at h
      exact absurd h (by simp)
    have hlen : (tail.take f.width).length = f.width := by
      rw [List.length_take]
      omega
    have hfill := fill_append (tail.take f.width)
      ((tail.drop f.width).map some)
    rw [hlen, ← List.map_append, List.take_append_drop] at hfill
    rw [hfill]
    dsimp only
    rw [fill_short hbody]
    exact ⟨rfl, rfl⟩

theorem delivered_nothing (n : Nat) :
    delivered (f.answers accept n ([] : List (Option α))) = [] := by
  induction n with
  | zero => rfl
  | succ n ih =>
      rw [f.answers_succ, f.poll_nil]
      exact ih

/-- Nor is an incomplete frame ever taken for a whole one. -/
theorem delivered_cut {tail : List α} (h : f.next tail = none) (n : Nat) :
    delivered (f.answers accept n (tail.map some)) = [] := by
  cases n with
  | zero => rfl
  | succ n =>
      have hpoll : (f.poll accept (tail.map some)).1.join = none
          ∧ (f.poll accept (tail.map some)).2 = [] := f.poll_cut h
      obtain ⟨hnothing, hused⟩ := hpoll
      rw [f.answers_succ, hused]
      show List.filterMap Option.join (_ :: _) = []
      rw [List.filterMap_cons_none hnothing]
      exact f.delivered_nothing n

section Tail

variable {encode : β → List α}

/-- **Polling whole frames and the beginning of one more** delivers the values
of the whole ones, and can do so before anything fails. -/
theorem delivered_whole_cut {bs : List β} {ts : List (Option α)}
    {tail : List α} (h : f.Whole encode bs ts)
    (hlen : ∀ b ∈ bs, (encode b).length < f.limit)
    (hround : ∀ b ∈ bs, accept (encode b) = some b)
    (htail : f.next tail = none) :
    (∀ n, delivered (f.answers accept n (ts ++ tail.map some)) <+: bs)
      ∧ ∃ n, none ∉ f.answers accept n (ts ++ tail.map some)
        ∧ delivered (f.answers accept n (ts ++ tail.map some)) = bs := by
  induction h with
  | nil =>
      refine ⟨fun n => ?_, 0, List.not_mem_nil, rfl⟩
      rw [List.nil_append, f.delivered_cut htail]
  | timeout h ih =>
      obtain ⟨hpre, n, hok, hn⟩ := ih hlen hround
      refine ⟨fun k => ?_, n + 1, ?_⟩
      · cases k with
        | zero => exact List.nil_prefix
        | succ k =>
            rw [List.cons_append, f.answers_succ, f.poll_timeout]
            exact hpre k
      · rw [List.cons_append, f.answers_succ, f.poll_timeout]
        exact ⟨by simpa using hok, hn⟩
  | @frame b bs ts h ih =>
      obtain ⟨hb, hbs⟩ := List.forall_mem_cons.mp hlen
      obtain ⟨hrb, hrbs⟩ := List.forall_mem_cons.mp hround
      obtain ⟨hpre, n, hok, hn⟩ := ih hbs hrbs
      refine ⟨fun k => ?_, n + 1, ?_⟩
      · cases k with
        | zero => exact List.nil_prefix
        | succ k =>
            rw [List.append_assoc, f.answers_succ, f.poll_frame hb, hrb]
            exact (List.prefix_cons_inj b).mpr (hpre k)
      · rw [List.append_assoc, f.answers_succ, f.poll_frame hb, hrb]
        exact ⟨by simpa using hok, congrArg (b :: ·) hn⟩

/-- The letters of whole frames. -/
theorem Whole.letters {bs : List β} {ts : List (Option α)}
    (h : f.Whole encode bs ts) : ts.reduceOption = f.stream encode bs := by
  induction h with
  | nil => rfl
  | timeout h ih =>
      rw [List.reduceOption_cons_of_none]
      exact ih
  | @frame b bs ts h ih => rw [letters_append, stream_cons, ih]

/-- More polls go on where fewer stopped. -/
theorem answers_prefix {n m : Nat} (h : n ≤ m) (ts : List (Option α)) :
    f.answers accept n ts <+: f.answers accept m ts := by
  unfold answers
  rw [← Nat.add_sub_cancel' h, List.replicate_add, Mealy.outs_append]
  exact List.prefix_append _ _

/-! ## §6. Whatever the timeouts. -/

variable {sent : List β}

/-- What is left of a torn frame and whole ones is of this kind again, and the
whole ones are the last of those before. -/
theorem torn_drop {t xs ys : List α} {bs : List β}
    (ht : t = [] ∨ f.Torn encode sent t) (hbs : bs ⊆ sent)
    (h : t ++ f.stream encode bs = xs ++ ys) :
    ∃ t' bs', ys = t' ++ f.stream encode bs'
      ∧ (t' = [] ∨ f.Torn encode sent t') ∧ bs' <:+ bs := by
  induction bs generalizing t xs with
  | nil =>
      rw [stream_nil, List.append_nil] at h
      subst h
      refine ⟨ys, [], (List.append_nil ys).symm, ?_, List.suffix_refl _⟩
      rcases ht with hnil | ⟨b, hb, hsuff, hlt⟩
      · exact .inl (List.append_eq_nil_iff.mp hnil).2
      · refine .inr ⟨b, hb, (List.suffix_append xs ys).trans hsuff, ?_⟩
        rw [List.length_append] at hlt
        omega
  | cons b bs ih =>
      obtain ⟨hb, hbs'⟩ := List.cons_subset.mp hbs
      rcases List.append_eq_append_iff.mp h with
        ⟨as, rfl, hrest⟩ | ⟨cs, rfl, rfl⟩
      · -- the torn frame is gone; is anything of the next one?
        rw [stream_cons] at hrest
        by_cases has : as = []
        · subst has
          exact ⟨[], b :: bs, hrest.symm, .inl rfl, List.suffix_refl _⟩
        rcases List.append_eq_append_iff.mp hrest with
          ⟨as', rfl, hnext⟩ | ⟨cs, hframe, rfl⟩
        · obtain ⟨t', bs', hys, ht', hsuff⟩ :=
            ih (t := []) (.inl rfl) hbs' hnext
          exact ⟨t', bs', hys, ht', hsuff.trans (List.suffix_cons b bs)⟩
        · refine ⟨cs, bs, rfl, .inr ⟨b, hb, ⟨as, hframe.symm⟩, ?_⟩,
            List.suffix_cons b bs⟩
          rw [hframe, List.length_append]
          have := List.length_pos_iff.mpr has
          omega
      · refine ⟨cs, b :: bs, rfl, ?_, List.suffix_refl _⟩
        rcases ht with hnil | ⟨c, hc, hsuff, hlt⟩
        · exact .inl (List.append_eq_nil_iff.mp hnil).2
        · refine .inr ⟨c, hc, (List.suffix_append xs cs).trans hsuff, ?_⟩
          rw [List.length_append] at hlt
          omega

theorem dropLast_sublist_of_suffix {bs cs : List β} (h : bs <:+ cs) :
    bs.dropLast.Sublist cs.dropLast := by
  obtain ⟨ds, rfl⟩ := h
  cases bs with
  | nil => exact List.nil_sublist _
  | cons b bs =>
      rw [List.dropLast_append_cons]
      exact List.sublist_append_right ds _

/-- **Polls that do not fail deliver only values whose frames were sent**, each
at most once and in order, wherever timeouts fall; of a frame that is not there
whole nothing is delivered.  Letters are `missing` at the end. -/
theorem delivered_sublist (hoff : f.OffFrameRefused encode accept sent)
    (hlen : ∀ b ∈ sent, (encode b).length < f.limit)
    (hround : ∀ b ∈ sent, accept (encode b) = some b) (n : Nat)
    {t missing : List α} {bs : List β} {ts : List (Option α)}
    (hbs : bs ⊆ sent) (ht : t = [] ∨ f.Torn encode sent t)
    (hts : ts.reduceOption ++ missing = t ++ f.stream encode bs)
    (hok : none ∉ f.answers accept n ts) :
    (delivered (f.answers accept n ts)).Sublist bs
      ∧ (missing ≠ [] →
          (delivered (f.answers accept n ts)).Sublist bs.dropLast) := by
  induction n generalizing t bs ts with
  | zero => exact ⟨List.nil_sublist _, fun _ => List.nil_sublist _⟩
  | succ n ih =>
      rw [f.answers_succ] at hok ⊢
      obtain ⟨header, payload, rest, hheader, hpayload, rfl, hpoll⟩
        | ⟨xs, rest, _, hquiet, hpoll⟩ | ⟨rest, hpoll⟩ := f.poll_spec accept ts
      · rw [hpoll] at hok ⊢
        rw [letters_append, List.append_assoc] at hts
        obtain ⟨hsome, hok⟩ := List.ne_and_not_mem_of_not_mem_cons hok
        by_cases hnil : t = []
        · subst hnil
          obtain ⟨b, bs', rfl, rfl, _, hrest⟩ := f.stream_head
            (fun b hb => hlen b (hbs hb)) hheader hpayload hts.symm
          obtain ⟨hb, hbs'⟩ := List.cons_subset.mp hbs
          obtain ⟨hsub, hdrop⟩ := ih (t := []) hbs' (.inl rfl) hrest hok
          rw [hround b hb]
          refine ⟨hsub.cons_cons b, fun hmissing => ?_⟩
          -- what is missing belongs to a later frame
          cases bs' with
          | nil => exact absurd (List.append_eq_nil_iff.mp hrest).2 hmissing
          | cons c cs => exact (hdrop hmissing).cons_cons b
        · -- off the frames the poll would have failed
          have hrefused := hoff t bs header payload _ hnil
            (ht.resolve_left hnil) hbs hts.symm hheader hpayload
          rw [hrefused] at hsome
          exact absurd rfl hsome
      · rw [hpoll] at hok ⊢
        rw [hquiet.letters, List.append_assoc] at hts
        obtain ⟨t', bs', hrest, ht', hsuff⟩ := f.torn_drop ht hbs hts.symm
        obtain ⟨hsub, hdrop⟩ := ih (fun b hb => hbs (hsuff.subset hb)) ht' hrest
          (List.not_mem_of_not_mem_cons hok)
        exact ⟨hsub.trans hsuff.sublist,
          fun hm => (hdrop hm).trans (dropLast_sublist_of_suffix hsuff)⟩
      · rw [hpoll] at hok
        exact absurd List.mem_cons_self hok

end Tail

section Growing

variable {encode : β → List α} {sent : List β}

/-! ## §7. A stream that grows. -/

/-- A receiver that has consumed these letters was delivered only values whose
frames are among them. -/
structure Received (encode : β → List α) (written : List β)
    (consumed : List α) (got : List β) : Prop where
  behind : ∃ front rest, written = front ++ rest ∧ got.Sublist front
    ∧ f.stream encode front <+: consumed

theorem received_nil (written : List β) :
    f.Received encode written [] [] where
  behind := ⟨[], written, rfl, List.Sublist.refl _, List.nil_prefix⟩

/-- What is written behind does not matter. -/
theorem Received.more {written : List β} {consumed : List α} {got : List β}
    (h : f.Received encode written consumed got) (bs : List β) :
    f.Received encode (written ++ bs) consumed got := by
  obtain ⟨front, rest, rfl, hsub, hpre⟩ := h.behind
  exact ⟨front, rest ++ bs, List.append_assoc _ _ _, hsub, hpre⟩

theorem stream_append (xs ys : List β) :
    f.stream encode (xs ++ ys)
      = f.stream encode xs ++ f.stream encode ys := by
  unfold stream
  exact List.flatMap_append

/-- **A poll that does not fail** keeps the receiver in step with what was
written: the wire carries that, or that and the beginning of one frame more,
whose end is `missing`. -/
theorem Received.poll {written ds got : List β} {consumed missing : List α}
    {ts rest : List (Option α)} {r : Option β}
    (h : f.Received encode written consumed got)
    (hoff : f.OffFrameRefused encode accept sent)
    (hlen : ∀ b ∈ sent, (encode b).length < f.limit)
    (hround : ∀ b ∈ sent, accept (encode b) = some b) (hds : ds ⊆ sent)
    (hwire : consumed ++ (ts.reduceOption ++ missing) = f.stream encode ds)
    (hwritten : ds = written ∨ missing ≠ [] ∧ ds.dropLast = written)
    (hpoll : f.poll accept ts = (some r, rest)) :
    ∃ c, ts.reduceOption = c ++ rest.reduceOption
      ∧ f.Received encode written (consumed ++ c) (got ++ r.toList) := by
  obtain ⟨front, behind, hfront, hsub, x, rfl⟩ := h.behind
  obtain ⟨header, payload, rest', hheader, hpayload, rfl, hread⟩
    | ⟨xs, rest', _, hquiet, hread⟩ | ⟨rest', hread⟩ := f.poll_spec accept ts
  · rw [hpoll] at hread
    injection hread with hr hrest
    subst hrest
    rw [letters_append] at hwire ⊢
    refine ⟨header ++ payload, rfl, ?_⟩
    -- what was written before this receiver's front is behind it
    obtain ⟨after, hafter⟩ : ∃ after, ds = front ++ after := by
      rcases hwritten with rfl | ⟨_, hlast⟩
      · exact ⟨behind, hfront⟩
      · rw [hfront] at hlast
        obtain ⟨more, hmore⟩ := ds.dropLast_prefix
        exact ⟨behind ++ more, by rw [← hmore, hlast, List.append_assoc]⟩
    subst hafter
    have hafter : after ⊆ sent := fun b hb =>
      hds (List.mem_append_right _ hb)
    rw [stream_append, List.append_assoc] at hwire
    have hwire := List.append_cancel_left hwire
    obtain ⟨t, bs, hys, ht, pre, rfl⟩ := f.torn_drop (t := []) (.inl rfl)
      hafter hwire.symm
    have hbs : bs ⊆ sent := fun b hb => hafter (List.mem_append_right _ hb)
    by_cases hnil : t = []
    · subst hnil
      rw [List.append_assoc] at hys
      obtain ⟨b, bs', rfl, rfl, hframe, hbehind⟩ := f.stream_head
        (fun b hb => hlen b (hbs hb)) hheader hpayload hys.symm
      rw [hround b (hbs List.mem_cons_self)] at hr
      have hr : r = some b := Option.some.inj hr
      have hx : x = f.stream encode pre := by
        rw [stream_append, List.append_assoc, hys] at hwire
        exact List.append_cancel_right hwire
      -- the frame that was read is not the one cut short
      obtain ⟨tail, htail⟩ :
          ∃ tail, written = (front ++ (pre ++ [b])) ++ tail := by
        rcases hwritten with rfl | ⟨hmissing, rfl⟩
        · exact ⟨bs', by simp⟩
        · have hne : bs' ≠ [] := by
            intro hnone
            rw [hnone, stream_nil] at hbehind
            exact hmissing (List.append_eq_nil_iff.mp hbehind).2
          refine ⟨bs'.dropLast, ?_⟩
          rw [← List.append_assoc, List.dropLast_append_of_ne_nil (by simp),
            List.dropLast_cons_of_ne_nil hne]
          simp
      refine ⟨front ++ (pre ++ [b]), tail, htail, ?_, ?_⟩
      · rw [hr]
        exact hsub.append (List.sublist_append_right pre [b])
      · rw [hframe, hx, stream_append, stream_append, stream_cons, stream_nil,
          List.append_nil, List.append_assoc]
    · -- off the frames the poll would have failed
      rw [hoff t bs header payload _ hnil (ht.resolve_left hnil) hbs
        (by rw [← hys, List.append_assoc]) hheader hpayload] at hr
      exact absurd hr (by simp)
  · rw [hpoll] at hread
    injection hread with hr hrest
    subst hrest
    have hr : r = none := Option.some.inj hr
    subst hr
    refine ⟨xs, hquiet.letters, front, behind, hfront, ?_, ?_⟩
    · rw [Option.toList_none, List.append_nil]
      exact hsub
    · rw [List.append_assoc]
      exact List.prefix_append _ _
  · rw [hpoll] at hread
    exact absurd hread (by simp)

end Growing

end LengthPrefix
