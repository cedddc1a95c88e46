/-
  ArgusManager.Lib.StrScan
  ────────────────────────
  **What a standard library does to the text of a small file**: lines, words,
  surrounding whitespace, and integers in base ten.

  A text is the list of its characters.

    • `firstLine`                     — up to the first line break,
    • `splitWhitespace`               — the words between whitespace,
    • `trim`                          — without whitespace at either end,
    • `parseUnsigned`, `parseSigned`  — an integer of so many bits, with an
                                        optional sign and nothing around it,
    • `Trimmed`, `Blank`              — what `trim` leaves and what it cuts.
-/
import Mathlib.Algebra.Order.Ring.Nat
import Mathlib.Data.List.Basic
import Mathlib.Data.List.DropRight

namespace StrScan

/-- The text of a file or a part of it. -/
abbrev Text := List Char

/-! ## §1. Whitespace. -/

/-- The Unicode property `White_Space`. -/
def isWhitespace (c : Char) : Bool :=
  let n := c.toNat
  (9 ≤ n && n ≤ 13) || n == 0x20 || n == 0x85 || n == 0xA0 || n == 0x1680
    || (0x2000 ≤ n && n ≤ 0x200A) || n == 0x2028 || n == 0x2029 || n == 0x202F
    || n == 0x205F || n == 0x3000

/-- Without the whitespace at both ends. -/
def trim (s : Text) : Text :=
  ((s.dropWhile isWhitespace).reverse.dropWhile isWhitespace).reverse

/-- The words of a text. -/
def splitWhitespace (s : Text) : List Text :=
  (s.splitOnP isWhitespace).filter fun word => !word.isEmpty

/-- The first line, without its line break; an empty text has none. -/
def firstLine (s : Text) : Option Text :=
  if s.isEmpty then none
  else
    let line := s.takeWhile (· ≠ '\n')
    -- a carriage return only counts in front of a line feed
    if line.length < s.length ∧ line.getLast? = some '\r' then
      some line.dropLast
    else some line

/-! ## §2. Integers. -/

/-- One more digit. -/
def pushDigit (n : Nat) (c : Char) : Option Nat :=
  if c.isDigit then some (10 * n + (c.toNat - '0'.toNat)) else none

/-- A number in base ten: digits only, at least one. -/
def parseDigits (s : Text) : Option Nat :=
  if s.isEmpty then none else s.foldlM pushDigit 0

/-- An unsigned integer of so many bits; a `+` may come first. -/
def parseUnsigned (bits : Nat) (s : Text) : Option Nat :=
  let digits := match s with
    | '+' :: rest => rest
    | _ => s
  (parseDigits digits).filter fun n => n < 2 ^ bits

/-- A signed integer of so many bits. -/
def parseSigned (bits : Nat) (s : Text) : Option Int :=
  match s with
  | '-' :: rest =>
      ((parseDigits rest).filter fun n => n ≤ 2 ^ (bits - 1)).map
        fun n => -(n : Int)
  | _ => (parseUnsigned (bits - 1) s).map fun n => (n : Int)

/-! ## §3. What is left of a trimmed text. -/

/-- Whitespace at neither end. -/
def Trimmed (s : Text) : Prop :=
  (∀ c ∈ s.head?, isWhitespace c = false)
    ∧ ∀ c ∈ s.getLast?, isWhitespace c = false

/-- Nothing but whitespace. -/
def Blank (s : Text) : Prop := ∀ c ∈ s, isWhitespace c = true

theorem Blank.nil : Blank [] := by
  intro c hc
  cases hc

theorem trim_eq (s : Text) :
    trim s = (s.dropWhile isWhitespace).rdropWhile isWhitespace :=
  rfl

theorem mem_of_mem_trim {s : Text} {c : Char} (h : c ∈ trim s) : c ∈ s := by
  rw [trim_eq] at h
  exact (List.dropWhile_suffix isWhitespace).subset
    ((List.rdropWhile_prefix isWhitespace _).subset h)

theorem getLast?_rdropWhile {c : Char} {s : Text}
    (h : c ∈ (s.rdropWhile isWhitespace).getLast?) :
    isWhitespace c = false := by
  obtain ⟨hne, rfl⟩ := List.mem_getLast?_eq_getLast h
  exact Bool.eq_false_iff.mpr (List.rdropWhile_last_not _ _ hne)

theorem trimmed_trim (s : Text) : Trimmed (trim s) := by
  refine ⟨fun c hc => ?_, fun c hc => getLast?_rdropWhile hc⟩
  -- what is cut at the end leaves the first character, if there is one
  obtain ⟨blanks, hcut⟩ :=
    List.rdropWhile_prefix isWhitespace (s.dropWhile isWhitespace)
  have hhead : c ∈ (s.dropWhile isWhitespace).head? := by
    rw [← hcut]
    exact List.mem_head?_append_of_mem_head? hc
  have hnot := List.head?_dropWhile_not isWhitespace s
  rw [Option.mem_def.mp hhead] at hnot
  exact Bool.eq_false_iff.mpr (by simpa using hnot)

/-- Without whitespace in front, only blanks at the end are cut. -/
theorem exists_trim_append {s : Text}
    (h : ∀ c ∈ s.head?, isWhitespace c = false) :
    ∃ blanks, Blank blanks ∧ s = trim s ++ blanks := by
  have hfront : s.dropWhile isWhitespace = s := by
    cases s with
    | nil => rfl
    | cons c s => exact List.dropWhile_cons_of_neg (by simp [h c rfl])
  refine ⟨s.rtakeWhile isWhitespace,
    fun c hc => List.mem_rtakeWhile_imp hc, ?_⟩
  rw [trim_eq, hfront]
  exact List.rdropWhile_append_rtakeWhile.symm

theorem rdropWhile_append_blank {blanks : Text} (hb : Blank blanks) :
    ∀ s : Text, (s ++ blanks).rdropWhile isWhitespace
      = s.rdropWhile isWhitespace := by
  intro s
  induction blanks using List.reverseRecOn with
  | nil => rw [List.append_nil]
  | append_singleton blanks c ih =>
      have hc : isWhitespace c = true :=
        hb c (List.mem_append_right _ List.mem_cons_self)
      rw [← List.append_assoc, List.rdropWhile_concat_pos _ _ _ hc]
      exact ih fun d hd => hb d (List.mem_append_left _ hd)

/-- Blanks behind a trimmed text are all that is cut. -/
theorem trim_append_blank {s blanks : Text} (hs : Trimmed s) (hne : s ≠ [])
    (hb : Blank blanks) : trim (s ++ blanks) = s := by
  have hfront : (s ++ blanks).dropWhile isWhitespace = s ++ blanks := by
    cases s with
    | nil => exact absurd rfl hne
    | cons c s => exact List.dropWhile_cons_of_neg (by simp [hs.1 c rfl])
  rw [trim_eq, hfront, rdropWhile_append_blank hb]
  refine List.rdropWhile_eq_self_iff.mpr fun hl => ?_
  have hlast := hs.2 _ (List.getLast_mem_getLast? hl)
  exact Bool.eq_false_iff.mp hlast

theorem trim_of_trimmed {s : Text} (hs : Trimmed s) : trim s = s := by
  by_cases hne : s = []
  · subst hne
    rfl
  · have hcut := trim_append_blank hs hne Blank.nil
    rwa [List.append_nil] at hcut

end StrScan
