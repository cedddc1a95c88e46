/-
  ArgusManager.Lib.Lines
  ──────────────────────
  **The lines of a text**, as a standard library cuts them: a line feed ends a
  line, a carriage return right before it goes with it, and what is behind the
  last line feed is a line too unless it is empty.

    • `lines_break`      — a line, its break and the rest,
    • `lines_unbroken`   — a text without a break is one line,
    • `lines_terminated` — lines written with their breaks are read back,
    • `completed_broken` — what is behind the last break is no line yet.
-/
import Mathlib.Data.List.DropRight
import ArgusManager.Lib.StrScan

namespace StrScan

/-- A character in front of the first line. -/
def attach (c : Char) : List Text → List Text
  | [] => [[c]]
  | line :: rest => (c :: line) :: rest

/-- `str::lines` and `BufRead::lines`. -/
def lines : Text → List Text
  | [] => []
  | '\n' :: s => [] :: lines s
  | '\r' :: '\n' :: s => [] :: lines s
  | c :: s => attach c (lines s)

@[simp] theorem lines_nil : lines [] = [] := rfl

@[simp] theorem lines_newline (s : Text) : lines ('\n' :: s) = [] :: lines s :=
  rfl

@[simp] theorem lines_crlf (s : Text) :
    lines ('\r' :: '\n' :: s) = [] :: lines s := by
  rw [lines]

/-- A character of a line that no break follows. -/
theorem lines_cons {c : Char} {s : Text} (hc : c ≠ '\n')
    (hs : c = '\r' → s.head? ≠ some '\n') :
    lines (c :: s) = attach c (lines s) := by
  rw [lines]
  · exact hc
  · intro s' hcr hs'
    exact hs hcr (by rw [hs']; rfl)

/-- How a line is ended. -/
inductive Break where
  | lf
  | crlf
  deriving DecidableEq, Repr

def Break.text : Break → Text
  | .lf => ['\n']
  | .crlf => ['\r', '\n']

/-- What may stand in front of a break without being taken for a part of
it. -/
def Break.Fits (line : Text) : Break → Prop
  | .lf => line.getLast? ≠ some '\r'
  | .crlf => True

theorem Break.head?_ne (b : Break) {line : Text} (rest : Text)
    (hfits : b.Fits line) {c : Char} (hc : line.getLast? = some c)
    (hcr : c = '\r') : (b.text ++ rest).head? ≠ some '\n' := by
  cases b with
  | lf =>
      subst hcr
      exact absurd hc hfits
  | crlf => simp [Break.text]

/-- **A line, its break and the rest.** -/
theorem lines_break {line : Text} (b : Break) (rest : Text)
    (hline : '\n' ∉ line) (hfits : b.Fits line) :
    lines (line ++ b.text ++ rest) = line :: lines rest := by
  induction line with
  | nil =>
      cases b with
      | lf => rfl
      | crlf => exact lines_crlf rest
  | cons c line ih =>
      have hc : c ≠ '\n' := fun h => hline (h ▸ List.mem_cons_self)
      have hrest : '\n' ∉ line := fun h => hline (List.mem_cons_of_mem _ h)
      cases line with
      | nil =>
          rw [List.cons_append, List.cons_append, lines_cons hc ?_,
            ih hrest ?_]
          · rfl
          · cases b with
            | lf => exact fun h => absurd h (by simp)
            | crlf => exact trivial
          · exact b.head?_ne rest hfits rfl
      | cons d line =>
          have hd : d ≠ '\n' := fun h => hrest (h ▸ List.mem_cons_self)
          have hfits' : b.Fits (d :: line) := by
            cases b with
            | lf =>
                have hlast : (c :: d :: line).getLast? = (d :: line).getLast? :=
                  List.getLast?_cons_cons
                show (d :: line).getLast? ≠ some '\r'
                rw [← hlast]
                exact hfits
            | crlf => exact trivial
          rw [List.cons_append, List.cons_append, lines_cons hc ?_,
            ih hrest hfits']
          · rfl
          · intro _
            simpa using hd

/-- A text without a break. -/
theorem lines_unbroken {line : Text} (hline : '\n' ∉ line) (hne : line ≠ []) :
    lines line = [line] := by
  induction line with
  | nil => exact absurd rfl hne
  | cons c line ih =>
      have hc : c ≠ '\n' := fun h => hline (h ▸ List.mem_cons_self)
      have hrest : '\n' ∉ line := fun h => hline (List.mem_cons_of_mem _ h)
      cases line with
      | nil => exact lines_cons hc (by simp)
      | cons d line =>
          have hd : d ≠ '\n' := fun h => hrest (h ▸ List.mem_cons_self)
          rw [lines_cons hc (by intro _; simpa using hd), ih hrest (by simp)]
          rfl

/-- **Lines written with their breaks are read back**, before whatever
follows. -/
theorem lines_terminated {α : Type*} (line : α → Text) (b : α → Break)
    (xs : List α) (rest : Text) (hline : ∀ x ∈ xs, '\n' ∉ line x)
    (hfits : ∀ x ∈ xs, (b x).Fits (line x)) :
    lines ((xs.flatMap fun x => line x ++ (b x).text) ++ rest)
      = xs.map line ++ lines rest := by
  induction xs with
  | nil => rfl
  | cons x xs ih =>
      rw [List.flatMap_cons, List.append_assoc,
        lines_break (b x) _ (hline x List.mem_cons_self)
          (hfits x List.mem_cons_self),
        ih (fun y hy => hline y (List.mem_cons_of_mem _ hy))
          (fun y hy => hfits y (List.mem_cons_of_mem _ hy))]
      rfl

/-- The text up to its last line feed. -/
def completed (s : Text) : Text := s.rdropWhile (· ≠ '\n')

@[simp] theorem completed_newline (s : Text) :
    completed (s ++ ['\n']) = s ++ ['\n'] :=
  List.rdropWhile_concat_neg _ s '\n' (by simp)

theorem completed_append {last : Text} (hlast : '\n' ∉ last) (s : Text) :
    completed (s ++ last) = completed s := by
  induction last using List.reverseRecOn with
  | nil => rw [List.append_nil]
  | append_singleton last c ih =>
      have hc : c ≠ '\n' := by
        intro h
        exact hlast (List.mem_append_right _ (h ▸ List.mem_singleton_self c))
      have hrest : '\n' ∉ last := fun h => hlast (List.mem_append_left _ h)
      rw [← List.append_assoc, ← ih hrest]
      exact List.rdropWhile_concat_pos _ _ c (by simpa using hc)

theorem Break.text_eq (b : Break) : ∃ cr, b.text = cr ++ ['\n'] := by
  cases b with
  | lf => exact ⟨[], rfl⟩
  | crlf => exact ⟨['\r'], rfl⟩

/-- **Lines written with their breaks are complete**, what follows the last
break is not. -/
theorem completed_broken {α : Type*} (line : α → Text) (b : α → Break)
    (xs : List α) {last : Text} (hlast : '\n' ∉ last) :
    completed ((xs.flatMap fun x => line x ++ (b x).text) ++ last)
      = xs.flatMap fun x => line x ++ (b x).text := by
  rw [completed_append hlast]
  induction xs using List.reverseRecOn with
  | nil => rfl
  | append_singleton xs x _ =>
      obtain ⟨cr, hcr⟩ := (b x).text_eq
      rw [List.flatMap_append, List.flatMap_singleton, hcr,
        ← List.append_assoc, ← List.append_assoc]
      exact completed_newline _

/-! ## Prefixes and words. -/

/-- `str::strip_prefix`. -/
def stripPrefix (start s : Text) : Option Text :=
  if start.isPrefixOf s then some (s.drop start.length) else none

theorem stripPrefix_append (start rest : Text) :
    stripPrefix start (start ++ rest) = some rest := by
  unfold stripPrefix
  rw [if_pos (by simp), List.drop_left]

theorem stripPrefix_eq_some {start s rest : Text}
    (h : stripPrefix start s = some rest) : s = start ++ rest := by
  unfold stripPrefix at h
  split at h
  next hprefix =>
    obtain ⟨t, rfl⟩ := List.isPrefixOf_iff_prefix.mp hprefix
    rw [List.drop_left] at h
    rw [← Option.some.inj h]
  next => exact absurd h (by simp)

/-- Blanks in front of the words. -/
theorem splitWhitespace_blank {blanks : Text} (hb : Blank blanks) (s : Text) :
    splitWhitespace (blanks ++ s) = splitWhitespace s := by
  induction blanks with
  | nil => rfl
  | cons c blanks ih =>
      have hc : isWhitespace c = true := hb c List.mem_cons_self
      have hrest := ih fun d hd => hb d (List.mem_cons_of_mem _ hd)
      unfold splitWhitespace at hrest ⊢
      rw [List.cons_append, List.splitOnP_cons_eq_if_modifyHead, if_pos hc,
        List.filter_cons_of_neg (by simp)]
      exact hrest

/-- **A word, a blank and the rest.** -/
theorem splitWhitespace_word {word : Text}
    (hword : ∀ c ∈ word, isWhitespace c = false) (hne : word ≠ [])
    {c : Char} (hc : isWhitespace c = true) (rest : Text) :
    splitWhitespace (word ++ c :: rest) = word :: splitWhitespace rest := by
  unfold splitWhitespace
  rw [List.splitOnP_append_cons word rest hc,
    List.splitOnP_eq_singleton hword, List.singleton_append,
    List.filter_cons_of_pos (by simpa using hne)]

/-! ## Searching. -/

/-- `str::find`: the text behind the first occurrence of the key. -/
def findAfter (key : Text) : Text → Option Text
  | [] => stripPrefix key []
  | c :: s =>
      match stripPrefix key (c :: s) with
      | some rest => some rest
      | none => findAfter key s

theorem findAfter_prefix (key rest : Text) :
    findAfter key (key ++ rest) = some rest := by
  have hstrip := stripPrefix_append key rest
  cases hs : key ++ rest with
  | nil =>
      rw [hs] at hstrip
      exact hstrip
  | cons c s =>
      rw [hs] at hstrip
      unfold findAfter
      rw [hstrip]

theorem stripPrefix_eq_none {start s : Text} (h : ¬ start <+: s) :
    stripPrefix start s = none := by
  unfold stripPrefix
  exact if_neg fun hprefix => h (List.isPrefixOf_iff_prefix.mp hprefix)

/-- **The first occurrence is found**, if none begins before it. -/
theorem findAfter_first {key pre rest : Text}
    (h : ∀ t, t ≠ [] → t <:+ pre → ¬ key <+: t ++ (key ++ rest)) :
    findAfter key (pre ++ (key ++ rest)) = some rest := by
  induction pre with
  | nil => exact findAfter_prefix key rest
  | cons c pre ih =>
      have hnot := h (c :: pre) (by simp) (List.suffix_refl _)
      rw [List.cons_append] at hnot ⊢
      unfold findAfter
      rw [stripPrefix_eq_none hnot]
      exact ih fun t hne ht => h t hne (ht.trans (List.suffix_cons c pre))

end StrScan
