/-
  ArgusManager.Monitor.GpuProvider
  ────────────────────────────────
  The Jetson telemetry provider (`src/monitor/gpu_provider.rs`): a thread reads
  the lines of `tegrastats` and leaves the utilization in an atomic, whoever
  holds the provider picks it up.  Value and "seen" flag are two variables, and
  every access to them is relaxed.

  The provider stands in a mutex, so there is one caller at a time and each
  has seen what the callers before it saw.

    • `Tracks`       — the invariant of the two threads,
    • `util_samples` — in every execution the answers are `None` and then, for
                       good, samples in the order of the lines,
    • `util_fresh`   — an answer is of the last line read and stored if the
                       loads are not stale; a stale one can be the zero that
                       the flag is there to hide.
-/
import ArgusManager.Lib.Decimal
import ArgusManager.Lib.Lines
import ArgusManager.Lib.Mealy
import ArgusManager.Lib.Relaxed

namespace ArgusManager

open StrScan

/-! ## §1. The code. -/

/-- `parse_gr3d_freq`: the `XX` of `GR3D_FREQ XX%`. -/
def parseGr3dFreq (line : Text) : Option Nat :=
  match findAfter "GR3D_FREQ ".toList line with
  | none => none
  | some tail =>
      if '%' ∈ tail then
        let numStr := trim (tail.takeWhile (· ≠ '%'))
        (parseUnsigned 32 numStr).map fun v => min v 100
      else none

/-- The utilization is read off a line wherever it stands, if the key does not
begin before it. -/
theorem parseGr3dFreq_line {pre rest : Text} {n : Nat} (hn : n < 2 ^ 32)
    (hfirst : ∀ t, t ≠ [] → t <:+ pre → ¬ "GR3D_FREQ ".toList
      <+: t ++ ("GR3D_FREQ ".toList ++ (numeral n ++ '%' :: rest))) :
    parseGr3dFreq (pre ++ ("GR3D_FREQ ".toList ++ (numeral n ++ '%' :: rest)))
      = some (min n 100) := by
  have hdigits : ∀ c ∈ numeral n, decide (c ≠ '%') = true := by
    intro c hc
    have hdigit := isDigit_of_mem_numeral hc
    rw [decide_eq_true_iff]
    rintro rfl
    exact absurd hdigit (by decide)
  have htake : (numeral n ++ '%' :: rest).takeWhile (· ≠ '%') = numeral n := by
    rw [List.takeWhile_append_of_pos hdigits]
    simp
  unfold parseGr3dFreq
  rw [findAfter_first hfirst]
  dsimp only
  rw [if_pos (by simp), htake, trim_of_trimmed (trimmed_numeral n),
    parseUnsigned_numeral hn]
  rfl

/-- Where the reader thread stands. -/
inductive ReaderAt where
  /-- At the top of its loop. -/
  | polling
  /-- Before `util_percent.store`. -/
  | parsed (pct : Nat)
  /-- Before `util_seen.store`. -/
  | stored
  | ended
  deriving DecidableEq, Repr

/-- Where the caller of `util_pct` stands. -/
inductive CallerAt where
  | idle
  /-- Before `util_percent.load`. -/
  | seen
  deriving DecidableEq, Repr

structure JetsonGpuProvider where
  utilPercent : Relaxed Nat
  utilSeen : Relaxed Bool
  /-- The thread; `freq_only` has none. -/
  reader : Option ReaderAt
  /-- The lines still to come. -/
  source : List Text
  caller : CallerAt

/-- Which thread moves on. -/
inductive GpuTurn where
  | reader
  /-- A load by the caller, which looks this many stores ahead. -/
  | caller (ahead : Nat)

namespace JetsonGpuProvider

/-- `new_with_source`. -/
def newWithSource (lines : List Text) : JetsonGpuProvider where
  utilPercent := .new 0
  utilSeen := .new false
  reader := some .polling
  source := lines
  caller := .idle

/-- `freq_only`. -/
def freqOnly : JetsonGpuProvider where
  utilPercent := .new 0
  utilSeen := .new false
  reader := none
  source := []
  caller := .idle

/-- The reader thread up to its next store. -/
def readerStep (p : JetsonGpuProvider) : JetsonGpuProvider :=
  match p.reader with
  | some .polling =>
      match p.source with
      | [] => { p with reader := some .ended }
      | line :: source =>
          match parseGr3dFreq line with
          | some pct => { p with source, reader := some (.parsed pct) }
          | none => { p with source }
  | some (.parsed pct) =>
      { p with
        utilPercent := p.utilPercent.store pct
        reader := some .stored }
  | some .stored =>
      { p with utilSeen := p.utilSeen.store true, reader := some .polling }
  | some .ended => p
  | none => p

/-- `util_pct` load by load, and its answer when it returns. -/
def callerStep (ahead : Nat) (p : JetsonGpuProvider) :
    JetsonGpuProvider × Option (Option Nat) :=
  match p.caller with
  | .idle =>
      match p.reader with
      | none => (p, some none)
      | some _ =>
          let (utilSeen, seen) := p.utilSeen.load ahead
          if seen then ({ p with utilSeen, caller := .seen }, none)
          -- "before the first sample the value is not to be trusted"
          else ({ p with utilSeen }, some none)
  | .seen =>
      let (utilPercent, v) := p.utilPercent.load ahead
      ({ p with utilPercent, caller := .idle }, some (some v))

/-- The two threads, in any order. -/
def machine : Mealy JetsonGpuProvider GpuTurn (Option (Option Nat)) where
  step p
    | .reader => (p.readerStep, none)
    | .caller ahead => p.callerStep ahead

/-- What the calls of `util_pct` returned. -/
def answers
    (h : List (Mealy.Step JetsonGpuProvider GpuTurn (Option (Option Nat)))) :
    List (Option Nat) :=
  Mealy.said id h

/-! ## §2. The two threads together. -/

/-- What the reader has parsed and not stored yet. -/
def pending : Option ReaderAt → List Nat
  | some (.parsed pct) => [pct]
  | _ => []

/-- Whether a sample waits for its flag. -/
def unflagged : Option ReaderAt → Nat
  | some .stored => 1
  | _ => 0

/-- **The invariant**: the samples stored, in hand and still to come are those
of the lines; each is flagged behind its store; and the answers so far are
`None` and then samples in order, these only once the flag was seen. -/
structure Tracks (samples : List Nat) (answers : List (Option Nat))
    (p : JetsonGpuProvider) : Prop where
  zero : p.utilPercent.initial = 0
  unset : p.utilSeen.initial = false
  inOrder : p.utilPercent.stores
    ++ (pending p.reader ++ p.source.filterMap parseGr3dFreq) = samples
  flags : ∀ b ∈ p.utilSeen.stores, b = true
  flagged : p.utilSeen.stores.length + unflagged p.reader
    = p.utilPercent.stores.length
  threadless : p.reader = none → p.utilSeen.stores = []
  picked : p.caller = .seen → 0 < p.utilSeen.seen
  answered : ∃ k vs, answers = List.replicate k none ++ vs.map some
    ∧ (vs ≠ [] → 0 < p.utilSeen.seen) ∧ p.utilPercent.Sampled vs

/-- Both ways to start. -/
theorem tracks_new (lines : List Text) :
    Tracks (lines.filterMap parseGr3dFreq) [] (newWithSource lines) where
  zero := rfl
  unset := rfl
  inOrder := rfl
  flags := fun _ h => absurd h List.not_mem_nil
  flagged := rfl
  threadless := fun h => absurd h (by simp [newWithSource])
  picked := fun h => absurd h (by simp [newWithSource])
  answered := ⟨0, [], rfl, fun h => absurd rfl h, Relaxed.sampled_nil _⟩

theorem tracks_freqOnly : Tracks [] [] freqOnly where
  zero := rfl
  unset := rfl
  inOrder := rfl
  flags := fun _ h => absurd h List.not_mem_nil
  flagged := rfl
  threadless := fun _ => rfl
  picked := fun h => absurd h (by simp [freqOnly])
  answered := ⟨0, [], rfl, fun h => absurd rfl h, Relaxed.sampled_nil _⟩

/-- A step of the reader thread. -/
theorem Tracks.reader {samples : List Nat} {answers : List (Option Nat)}
    {p : JetsonGpuProvider} (h : Tracks samples answers p) :
    Tracks samples answers p.readerStep := by
  obtain ⟨hzero, hunset, horder, hflags, hflagged, hthread, hpicked, k, vs,
    hanswers, hseen, hsampled⟩ := h
  unfold readerStep
  split
  next hat =>
    rw [hat] at horder hflagged hthread
    split
    next hsource =>
      -- end of file
      exact ⟨hzero, hunset, horder, hflags, hflagged,
        fun h => absurd h (by simp), hpicked, k, vs, hanswers, hseen, hsampled⟩
    next line source hsource =>
      rw [hsource] at horder
      split
      next pct hpct =>
        rw [List.filterMap_cons_some hpct] at horder
        exact ⟨hzero, hunset, horder, hflags, hflagged,
          fun h => absurd h (by simp), hpicked, k, vs, hanswers, hseen,
          hsampled⟩
      next hnone =>
        rw [List.filterMap_cons_none hnone, ← hat] at horder
        rw [← hat] at hflagged hthread
        exact ⟨hzero, hunset, horder, hflags, hflagged, hthread, hpicked, k,
          vs, hanswers, hseen, hsampled⟩
  next pct hat =>
    rw [hat] at horder hflagged
    refine ⟨hzero, hunset, ?_, hflags, ?_, fun h => absurd h (by simp),
      hpicked, k, vs, hanswers, hseen, hsampled.store pct⟩
    · rw [Relaxed.store_stores, List.append_assoc]
      exact horder
    · rw [Relaxed.store_stores, List.length_append]
      exact congrArg (· + 1) hflagged
  next hat =>
    rw [hat] at horder hflagged
    refine ⟨hzero, hunset, horder, ?_, ?_, fun h => absurd h (by simp),
      hpicked, k, vs, hanswers, hseen, hsampled⟩
    · intro b hb
      rcases List.mem_append.mp hb with hb | hb
      · exact hflags b hb
      · exact List.mem_singleton.mp hb
    · rw [Relaxed.store_stores, List.length_append]
      exact hflagged
  next hat =>
    exact ⟨hzero, hunset, horder, hflags, hflagged, hthread, hpicked, k, vs,
      hanswers, hseen, hsampled⟩
  next hat =>
    exact ⟨hzero, hunset, horder, hflags, hflagged, hthread, hpicked, k, vs,
      hanswers, hseen, hsampled⟩

/-- The flag is found set exactly if the load gets past a store. -/
theorem load_flag {c : Relaxed Bool} (hinitial : c.initial = false)
    (hflags : ∀ b ∈ c.stores, b = true) (ahead : Nat) :
    (c.load ahead).2 = true ↔ 0 < (c.load ahead).1.seen := by
  rw [Relaxed.load_value]
  by_cases hseen : (c.load ahead).1.seen = 0
  · rw [hseen, Relaxed.after_zero, hinitial]
    simp
  · have hpos := Nat.pos_of_ne_zero hseen
    have hmem : c.after (c.load ahead).1.seen ∈ c.stores :=
      Relaxed.after_mem hpos (c.load ahead).1.seen_le
    rw [hflags _ hmem]
    simp [hpos]

/-- A step of the caller. -/
theorem Tracks.caller {samples : List Nat} {answers : List (Option Nat)}
    {p : JetsonGpuProvider} (h : Tracks samples answers p) (ahead : Nat) :
    Tracks samples (answers ++ (p.callerStep ahead).2.toList)
      (p.callerStep ahead).1 := by
  obtain ⟨hzero, hunset, horder, hflags, hflagged, hthread, hpicked, k, vs,
    hanswers, hseen, hsampled⟩ := h
  -- as long as the flag was not seen, nothing but `None` was answered
  have hquiet : p.utilSeen.seen = 0 →
      answers ++ [none] = List.replicate (k + 1) none ++ vs.map some := by
    intro hnot
    have hvs : vs = [] := by
      by_contra hne
      exact absurd (hseen hne) (by omega)
    subst hvs
    rw [hanswers, List.replicate_succ']
    simp
  unfold callerStep
  split
  next hidle =>
    split
    next hnone =>
      have hunseen : p.utilSeen.seen = 0 := by
        have hle := p.utilSeen.seen_le
        rw [hthread hnone] at hle
        exact Nat.le_zero.mp hle
      exact ⟨hzero, hunset, horder, hflags, hflagged, hthread, hpicked, k + 1,
        vs, hquiet hunseen, hseen, hsampled⟩
    next hsome =>
      have hflag := load_flag hunset hflags ahead
      have hmono := Relaxed.le_load ahead p.utilSeen
      dsimp only
      split
      next hset =>
        have hpos := hflag.mp hset
        refine ⟨hzero, hunset, horder, hflags, hflagged, hthread,
          fun _ => hpos, k, vs, ?_, fun _ => hpos, hsampled⟩
        rw [Option.toList_none, List.append_nil]
        exact hanswers
      next hset =>
        have hunseen : p.utilSeen.seen = 0 := by
          by_contra hne
          exact hset (hflag.mpr (by omega))
        exact ⟨hzero, hunset, horder, hflags, hflagged, hthread,
          fun h => absurd (hidle.symm.trans h) (by simp), k + 1, vs,
          hquiet hunseen, fun hne => (hseen hne).trans_le hmono, hsampled⟩
  next hat =>
    refine ⟨hzero, hunset, horder, hflags, hflagged, hthread,
      fun h => absurd h (by simp), k, vs ++ [(p.utilPercent.load ahead).2],
      ?_, fun _ => hpicked hat, hsampled.load ahead⟩
    rw [hanswers, List.map_append, List.append_assoc]
    rfl

/-! ## §3. What the calls return. -/

@[simp] theorem answers_nil : answers [] = [] := rfl

/-- Either thread's step keeps the invariant. -/
theorem tracks_step {samples : List Nat}
    {h : List (Mealy.Step JetsonGpuProvider GpuTurn (Option (Option Nat)))}
    {p : JetsonGpuProvider} (turn : GpuTurn)
    (hinv : Tracks samples (answers h) p) :
    Tracks samples (answers (h ++ [machine.stepAt p turn]))
      (machine.step p turn).1 := by
  unfold answers at hinv ⊢
  rw [Mealy.said_concat]
  cases turn with
  | reader =>
      show Tracks samples (_ ++ []) p.readerStep
      rw [List.append_nil]
      exact hinv.reader
  | caller ahead => exact hinv.caller ahead

/-- The value of the atomic after so many samples. -/
def sampleAt (samples : List Nat) (i : Nat) : Nat := (0 :: samples).getD i 0

/-- The samples of the lines read, but for one that the reader still holds. -/
def stored (p : JetsonGpuProvider) (read : List Text) : List Nat :=
  match p.reader with
  | some (.parsed _) => (read.filterMap parseGr3dFreq).dropLast
  | _ => read.filterMap parseGr3dFreq

/-- The reader takes lines off the front. -/
theorem readerStep_source (p : JetsonGpuProvider) :
    p.readerStep.source <:+ p.source := by
  unfold readerStep
  split
  next =>
    split
    next => exact List.suffix_refl _
    next line source hsource =>
      rw [hsource]
      split
      next => exact List.suffix_cons line source
      next => exact List.suffix_cons line source
  next => exact List.suffix_refl _
  next => exact List.suffix_refl _
  next => exact List.suffix_refl _
  next => exact List.suffix_refl _

theorem callerStep_source (ahead : Nat) (p : JetsonGpuProvider) :
    (p.callerStep ahead).1.source = p.source := by
  unfold callerStep
  split
  next =>
    split
    next => rfl
    next =>
      dsimp only
      split
      next => rfl
      next => rfl
  next => rfl

theorem step_source (p : JetsonGpuProvider) (turn : GpuTurn) :
    (machine.step p turn).1.source <:+ p.source := by
  cases turn with
  | reader => exact p.readerStep_source
  | caller ahead =>
      have hsame := callerStep_source ahead p
      show (p.callerStep ahead).1.source <:+ p.source
      exact hsame ▸ List.suffix_refl _

/-- The invariant together with where the reader is in the lines. -/
structure Follows (lines : List Text) (answers : List (Option Nat))
    (p : JetsonGpuProvider) : Prop where
  tracks : Tracks (lines.filterMap parseGr3dFreq) answers p
  source : p.source <:+ lines

theorem follows_new (lines : List Text) : Follows lines [] (newWithSource lines)
    where
  tracks := tracks_new lines
  source := List.suffix_refl lines

theorem follows_step {lines : List Text}
    {h : List (Mealy.Step JetsonGpuProvider GpuTurn (Option (Option Nat)))}
    {p : JetsonGpuProvider} (turn : GpuTurn)
    (hinv : Follows lines (answers h) p) :
    Follows lines (answers (h ++ [machine.stepAt p turn]))
      (machine.step p turn).1 where
  tracks := tracks_step turn hinv.tracks
  source := (step_source p turn).trans hinv.source

/-- **What is stored** are the samples of the lines read. -/
theorem Follows.stores {lines : List Text} {returned : List (Option Nat)}
    {p : JetsonGpuProvider} (h : Follows lines returned p) :
    ∃ read, lines = read ++ p.source
      ∧ p.utilPercent.stores = p.stored read := by
  obtain ⟨read, hread⟩ := h.source
  refine ⟨read, hread.symm, ?_⟩
  have horder := h.tracks.inOrder
  rw [← hread, List.filterMap_append, ← List.append_assoc] at horder
  have hsamples := List.append_cancel_right horder
  unfold stored
  split
  next pct hat =>
    rw [hat] at hsamples
    rw [← hsamples]
    exact (List.dropLast_concat).symm
  next hat =>
    rw [← hsamples]
    have hnone : pending p.reader = [] := by
      unfold pending
      split
      next pct heq => exact absurd heq (hat pct)
      next => rfl
    rw [hnone, List.append_nil]

theorem parseGr3dFreq_le {line : Text} {pct : Nat}
    (h : parseGr3dFreq line = some pct) : pct ≤ 100 := by
  unfold parseGr3dFreq at h
  split at h
  next => exact absurd h (by simp)
  next tail _ =>
    split at h
    next =>
      obtain ⟨v, _, rfl⟩ := Option.map_eq_some_iff.mp h
      exact Nat.min_le_right _ _
    next => exact absurd h (by simp)

theorem stored_le {p : JetsonGpuProvider} {read : List Text} {pct : Nat}
    (h : pct ∈ p.stored read) : pct ≤ 100 := by
  have hmem : pct ∈ read.filterMap parseGr3dFreq := by
    unfold stored at h
    split at h
    next => exact (List.dropLast_sublist _).subset h
    next => exact h
  obtain ⟨line, _, hline⟩ := List.mem_filterMap.mp hmem
  exact parseGr3dFreq_le hline

theorem sampleAt_le {samples : List Nat} (h : ∀ pct ∈ samples, pct ≤ 100)
    (i : Nat) : sampleAt samples i ≤ 100 := by
  unfold sampleAt
  cases hi : (0 :: samples)[i]? with
  | none =>
      rw [List.getD_eq_getElem?_getD, hi]
      exact Nat.zero_le _
  | some pct =>
      rw [List.getD_eq_getElem?_getD, hi]
      rcases List.mem_cons.mp (List.mem_of_getElem? hi) with hzero | hmem
      · show pct ≤ 100
        omega
      · exact h pct hmem

/-- **In every execution** the answers are `None`, and from the first value on
values for good, none above 100: those of the lines read and stored so far, in
their order, none after a later one; the zero of the start may come before
them. -/
theorem util_samples (lines : List Text) (turns : List GpuTurn) :
    let p := machine.exec (newWithSource lines) turns
    ∃ (read : List Text) (k : Nat) (is : List Nat),
      lines = read ++ p.source
        ∧ answers (machine.trace (newWithSource lines) turns)
          = List.replicate k none
            ++ (is.map (sampleAt (p.stored read))).map some
        ∧ is.Pairwise (· ≤ ·)
        ∧ (∀ i ∈ is, i ≤ (p.stored read).length)
        ∧ ∀ i ∈ is, sampleAt (p.stored read) i ≤ 100 := by
  intro p
  have hfollows : Follows lines
      (answers (machine.trace (newWithSource lines) turns)) p :=
    Mealy.history_of_steps (m := machine)
      (I := fun h p => Follows lines (answers h) p)
      (s := newWithSource lines) (follows_new lines)
      (fun _ _ turn hinv => follows_step turn hinv) turns
  obtain ⟨read, hread, hstores⟩ := hfollows.stores
  obtain ⟨k, _, hreturned, _, is, hsorted, hle, rfl⟩ :=
    hfollows.tracks.answered
  have hafter : p.utilPercent.after = sampleAt (p.stored read) := by
    funext i
    show (p.utilPercent.initial :: p.utilPercent.stores).getD i
      p.utilPercent.initial = _
    rw [hfollows.tracks.zero, hstores]
    rfl
  rw [hafter] at hreturned
  refine ⟨read, k, is, hread, hreturned, hsorted, ?_, ?_⟩
  · intro i hi
    rw [← hstores]
    exact (hle i hi).trans (Relaxed.seen_le _)
  · intro i _
    exact sampleAt_le (fun pct hpct => stored_le hpct) i

/-- **A provider without the thread never has a value.** -/
theorem freqOnly_silent (turns : List GpuTurn) :
    ∃ k, answers (machine.trace freqOnly turns) = List.replicate k none := by
  have htracks : Tracks [] (answers (machine.trace freqOnly turns))
      (machine.exec freqOnly turns) :=
    Mealy.history_of_steps (m := machine)
      (I := fun h p => Tracks [] (answers h) p) (s := freqOnly)
      tracks_freqOnly (fun _ _ turn hinv => tracks_step turn hinv) turns
  obtain ⟨k, vs, hreturned, hseen, _⟩ := htracks.answered
  -- nothing is stored, so no flag was seen
  have hnothing := (List.append_eq_nil_iff.mp htracks.inOrder).1
  have hflagged := htracks.flagged
  rw [hnothing, List.length_nil] at hflagged
  have hunseen : ¬ 0 < (machine.exec freqOnly turns).utilSeen.seen := by
    have hle := (machine.exec freqOnly turns).utilSeen.seen_le
    omega
  have hvs : vs = [] := by
    by_contra hne
    exact hunseen (hseen hne)
  refine ⟨k, ?_⟩
  rw [hreturned, hvs, List.map_nil, List.append_nil]

/-- The loads of the caller are not stale. -/
def Fresh (lines : List Text) (turn : GpuTurn) : Prop :=
  ∀ ahead, turn = .caller ahead → lines.length ≤ ahead

theorem stored_length_le {lines read rest : List Text} (p : JetsonGpuProvider)
    (h : lines = read ++ rest) : (p.stored read).length ≤ lines.length := by
  have hsamples := List.length_filterMap_le parseGr3dFreq read
  have hread : read.length ≤ lines.length := by
    rw [h, List.length_append]
    exact Nat.le_add_right _ _
  unfold stored
  split
  next =>
    rw [List.length_dropLast]
    omega
  next => omega

/-- **Where no load is stale** a value that is answered is that of the last
line read with a utilization, or of the one before it as long as the reader
holds the last one. -/
theorem util_fresh (lines : List Text) (turns : List GpuTurn)
    (hfresh : ∀ turn ∈ turns, Fresh lines turn) :
    machine.Along (newWithSource lines) turns fun _ e =>
      ∀ v, e.output = some (some v) →
        ∃ read, lines = read ++ e.pre.source
          ∧ (e.pre.stored read).getLast? = some v := by
  refine Mealy.along_of_invariant (m := machine) (A := Fresh lines)
    (I := fun h p => Follows lines (answers h) p)
    (follows_new lines) (fun _ _ turn _ hinv => follows_step turn hinv) ?_
    hfresh
  intro h p turn hturn hinv v hv
  cases turn with
  | reader => exact absurd hv (by simp [machine])
  | caller ahead =>
      have hahead := hturn ahead rfl
      change (p.callerStep ahead).2 = some (some v) at hv
      unfold callerStep at hv
      split at hv
      next hidle =>
        -- this step loads the flag, and answers `None` at most
        split at hv
        next => exact absurd hv (by simp)
        next =>
          dsimp only at hv
          split at hv
          next => exact absurd hv (by simp)
          next => exact absurd hv (by simp)
      next hat =>
        have hloaded : (p.utilPercent.load ahead).2 = v := by
          injection hv with hv
          injection hv
        -- the flag was seen, so there is a sample
        have hpos : 0 < p.utilPercent.stores.length := by
          have hseen := hinv.tracks.picked hat
          have hle := p.utilSeen.seen_le
          have hflagged := hinv.tracks.flagged
          omega
        obtain ⟨read, hread, hstores⟩ := hinv.stores
        have hfar : p.utilPercent.stores.length ≤ ahead := by
          rw [hstores]
          exact (stored_length_le p hread).trans hahead
        rw [Relaxed.load_value, Relaxed.load_fresh hfar] at hloaded
        refine ⟨read, hread, ?_⟩
        show (p.stored read).getLast? = some v
        rw [← hstores, Relaxed.getLast?_stores hpos, hloaded]

/-- A line of `tegrastats`. -/
def tegraLine : Text := "RAM 2104/15827MB GR3D_FREQ 99% VIC_FREQ 0%".toList

theorem util_fresh_line :
    machine.Along (newWithSource [tegraLine])
      [.caller 1, .reader, .reader, .reader, .caller 1, .caller 1]
      fun _ e => ∀ v, e.output = some (some v) →
        ∃ read, [tegraLine] = read ++ e.pre.source
          ∧ (e.pre.stored read).getLast? = some v :=
  util_fresh [tegraLine]
    [.caller 1, .reader, .reader, .reader, .caller 1, .caller 1]
    fun turn hturn ahead hahead => by
      subst hahead
      have hone : ahead = 1 := by simpa using hturn
      rw [hone]
      rfl

/-- A stale load of the value behind a fresh one of the flag. -/
example : answers (machine.trace (newWithSource [tegraLine])
    [.caller 1, .reader, .reader, .reader, .caller 1, .caller 0])
    = [none, some 0] := by decide +kernel

end JetsonGpuProvider

end ArgusManager
