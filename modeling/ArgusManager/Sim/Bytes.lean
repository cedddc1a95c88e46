/-
  ArgusManager.Sim.Bytes
  ──────────────────────
  **Sizes in a scenario** (`src/sim/config.rs`): "2 GiB", "512 MB".

  A size is split at its first alphabetic character, the part in front is
  parsed as a float and the part behind is looked up in upper case.  The
  product is cast, and the cast saturates: what is negative becomes 0 and what
  is too large becomes the largest value, where the sibling route through a
  YAML integer refuses both.

    • `Reads`             — a text is a number, blanks and a unit,
    • `parseSize_ok_iff`  — what is accepted, and as which value.
-/
import ArgusManager.Float.Parse
import ArgusManager.Lib.Unicode

namespace ArgusManager.Sim

open StrScan

/-! ## §1. The parsers. -/

/-- What is wrong with a size. -/
inductive SizeError where
  | number (s : Text)
  | byteUnit (other s : Text)
  | megabyteUnit (other s : Text)
  deriving DecidableEq

/-- The message; `debug` is the formatter of `{:?}`. -/
def SizeError.message (debug : Text → String) : SizeError → String
  | .number s => "cannot parse number in " ++ debug s
  | .byteUnit other s =>
      "unsupported byte unit " ++ debug other ++ " in " ++ debug s
  | .megabyteUnit other s =>
      "Megabytes only supports MB/MiB, got " ++ debug other ++ " in " ++ debug s

variable (u : Unicode)

/-- Up to the first alphabetic character, and from there on. -/
def splitNumUnit (s : Text) : Text × Text :=
  (s.takeWhile fun c => !u.isAlphabetic c,
    s.dropWhile fun c => !u.isAlphabetic c)

/-- A number with a unit out of `units`, cast to so many bits. -/
def parseSize (units : Text → Option Nat)
    (unsupported : Text → Text → SizeError) (bits : Nat) (text : Text) :
    Except SizeError Nat :=
  let s := trim text
  let part := splitNumUnit u s
  match FloatVal.parseF64 (trim part.1) with
  | none => .error (.number s)
  | some n =>
      let unit := u.upper (trim part.2)
      match units unit with
      | none => .error (unsupported unit s)
      | some mul => .ok ((n * .fin mul).toUnsigned bits)

def byteUnit : Text → Option Nat
  | ['B'] | [] => some 1
  | ['K', 'B'] | ['K', 'I', 'B'] => some 1024
  | ['M', 'B'] | ['M', 'I', 'B'] => some (1024 * 1024)
  | ['G', 'B'] | ['G', 'I', 'B'] => some (1024 * 1024 * 1024)
  | _ => none

/-- The number is in megabytes already. -/
def megabyteUnit : Text → Option Nat
  | ['M', 'B'] | ['M', 'I', 'B'] | [] => some 1
  | _ => none

def parseByteString (s : Text) : Except SizeError Nat :=
  parseSize u byteUnit .byteUnit 64 s

def parseMegabyteString (s : Text) : Except SizeError Nat :=
  parseSize u megabyteUnit .megabyteUnit 32 s

/-- A size in YAML. -/
inductive StringOrU64 where
  | str (s : Text)
  | int (n : UInt64)

/-- `Bytes::deserialize`. -/
def deserializeBytes : StringOrU64 → Except SizeError Nat
  | .str s => parseByteString u s
  | .int n => .ok n.toNat

/-- `Megabytes::deserialize`; the integer is cut to its low bits. -/
def deserializeMegabytes : StringOrU64 → Except SizeError Nat
  | .str s => parseMegabyteString u s
  | .int n => .ok (n.toNat % 2 ^ 32)

/-! ## §2. Numbers with a unit. -/

/-- A decimal, blanks and a unit. -/
def Reads (units : Text → Option Nat) (t : Text) (q : ℚ) (f : Nat) : Prop :=
  ∃ num blanks unit, t = num ++ blanks ++ unit ∧ Decimal num q
    ∧ Blank blanks ∧ units unit = some f

/-- The letters of the units. -/
def unitLetters : List Char := ['B', 'G', 'I', 'K', 'M']

/-- Units are written in these. -/
def Lettered (units : Text → Option Nat) : Prop :=
  ∀ w f, units w = some f → w ⊆ unitLetters

theorem lettered_byteUnit : Lettered byteUnit := by
  intro w f h
  unfold byteUnit at h
  split at h
  -- a unit is spelt out in its branch, and the last branch gives none
  all_goals first | (cases h; decide) | cases h

theorem lettered_megabyteUnit : Lettered megabyteUnit := by
  intro w f h
  unfold megabyteUnit at h
  split at h
  all_goals first | (cases h; decide) | cases h

theorem unitLetters_ascii {c : Char} (h : c ∈ unitLetters) :
    c.toNat < 128 := by
  have hall : (unitLetters.all fun c => c.toNat < 128) = true := by decide
  exact of_decide_eq_true (List.all_eq_true.mp hall c h)

/-- Every other character that folds gives an F or an S. -/
theorem fold_not_unit : ∀ p ∈ asciiFolds, p.1 ≠ '\u0131' →
    ¬ p.2 ⊆ unitLetters := by
  decide

theorem isAlpha_of_toUpper {c : Char} (hc : c.toNat < 128) :
    c.toUpper ∈ unitLetters → c.isAlpha = true :=
  Unicode.forall_ascii (P := fun c =>
    c.toUpper ∈ unitLetters → c.isAlpha = true) (by decide +kernel) hc

/-- A unit is ASCII, but for a dotless i. -/
theorem unit_ascii {units : Text → Option Nat} (hl : Lettered units)
    {w : Text} {f : Nat} (h : units (u.upper w) = some f) :
    ∀ c ∈ w, c.toNat < 128 ∨ c = '\u0131' := by
  intro c hc
  have hletters := hl _ f h
  cases u.of_upper_ascii
      (fun x hx => unitLetters_ascii (hletters hx)) c hc with
  | inl hascii => exact Or.inl hascii
  | inr hfold =>
      obtain ⟨p, hp, rfl⟩ := List.mem_map.mp hfold
      refine Or.inr ?_
      by_contra hother
      refine fold_not_unit p hp hother fun x hx => ?_
      refine hletters (List.mem_flatMap.mpr ⟨p.1, hc, ?_⟩)
      rwa [u.uppercase_fold p hp]

/-- The characters of a unit are alphabetic. -/
theorem unit_alphabetic {units : Text → Option Nat} (hl : Lettered units)
    {w : Text} {f : Nat} (h : units (u.upper w) = some f) :
    ∀ c ∈ w, u.isAlphabetic c = true := by
  intro c hc
  cases unit_ascii u hl h c hc with
  | inl hascii =>
      have hupper : c.toUpper ∈ unitLetters := by
        refine hl _ f h (List.mem_flatMap.mpr ⟨c, hc, ?_⟩)
        rw [u.uppercase_ascii c hascii]
        exact List.mem_cons_self
      rw [u.alphabetic_ascii c hascii]
      exact isAlpha_of_toUpper hascii hupper
  | inr hdotless =>
      subst hdotless
      exact u.alphabetic_fold ('\u0131', ['I']) (by decide)

theorem isAlphabetic_of_isAlpha {c : Char} (h : c.isAlpha = true) :
    u.isAlphabetic c = true := by
  have hrange := Unicode.isAlpha_range h
  rwa [u.alphabetic_ascii c (by omega)]

theorem not_isAlphabetic_of_isNumeral {c : Char} (h : isNumeral c = true) :
    u.isAlphabetic c = false := by
  have hnum := isNumeral_range h
  rw [u.alphabetic_ascii c (by omega)]
  refine Bool.eq_false_iff.mpr fun halpha => ?_
  have hrange := Unicode.isAlpha_range halpha
  omega

theorem not_isAlphabetic_of_blank {blanks : Text} (h : Blank blanks) :
    ∀ c ∈ blanks, u.isAlphabetic c = false := by
  intro c hc
  refine Bool.eq_false_iff.mpr fun halpha => ?_
  have hvisible := u.alphabetic_visible c halpha
  rw [h c hc] at hvisible
  cases hvisible

/-- Without alphabetic characters in front the split is at the unit. -/
theorem splitNumUnit_append {front unit : Text}
    (hfront : ∀ c ∈ front, u.isAlphabetic c = false)
    (hunit : ∀ c ∈ unit, u.isAlphabetic c = true) :
    splitNumUnit u (front ++ unit) = (front, unit) := by
  have hpos : ∀ c ∈ front, (!u.isAlphabetic c) = true := by
    intro c hc
    rw [hfront c hc]
    rfl
  unfold splitNumUnit
  rw [List.takeWhile_append_of_pos hpos, List.dropWhile_append_of_pos hpos]
  cases unit with
  | nil => rw [List.takeWhile_nil, List.dropWhile_nil, List.append_nil]
  | cons c rest =>
      have hc := hunit c List.mem_cons_self
      rw [List.takeWhile_cons_of_neg (by simp [hc]),
        List.dropWhile_cons_of_neg (by simp [hc]), List.append_nil]

theorem splitNumUnit_join (t : Text) :
    (splitNumUnit u t).1 ++ (splitNumUnit u t).2 = t :=
  List.takeWhile_append_dropWhile

theorem splitNumUnit_front (t : Text) :
    ∀ c ∈ (splitNumUnit u t).1, u.isAlphabetic c = false := by
  intro c hc
  have hpos := List.mem_takeWhile_imp hc
  simpa using hpos

/-- In a trimmed text there is nothing to trim about the unit. -/
theorem splitNumUnit_unit_trimmed {t : Text} (ht : Trimmed t) :
    Trimmed (splitNumUnit u t).2 := by
  refine ⟨fun c hc => ?_, fun c hc => ht.2 c ?_⟩
  · -- it begins with an alphabetic character, if it is not empty
    have hnot := List.head?_dropWhile_not (fun c => !u.isAlphabetic c) t
    rw [show (t.dropWhile fun c => !u.isAlphabetic c).head? = some c from hc]
      at hnot
    exact u.alphabetic_visible c (by simpa using hnot)
  · -- and it ends as the text does
    rw [← splitNumUnit_join u t]
    exact List.mem_getLast?_append_of_mem_getLast? hc

/-! ## §3. What is accepted. -/

/-- The float parser sees no letter, so it reads a decimal. -/
theorem parseF64_numPart (t : Text) (n : FloatVal) :
    FloatVal.parseF64 (trim (splitNumUnit u t).1) = some n ↔
      ∃ q, Decimal (trim (splitNumUnit u t).1) q ∧ n = .fin q := by
  refine FloatVal.parseF64_iff (fun c hc => ?_) n
  have hnot := splitNumUnit_front u t c (mem_of_mem_trim hc)
  refine Bool.eq_false_iff.mpr fun halpha => ?_
  rw [isAlphabetic_of_isAlpha u halpha] at hnot
  cases hnot

/-- A number with a unit is split in front of the unit. -/
theorem splitNumUnit_layout {units : Text → Option Nat} (hl : Lettered units)
    {num blanks unit : Text} {q : ℚ} {f : Nat} (hnum : Decimal num q)
    (hblank : Blank blanks) (hf : units (u.upper unit) = some f) :
    splitNumUnit u (num ++ blanks ++ unit) = (num ++ blanks, unit) := by
  refine splitNumUnit_append u (fun c hc => ?_) (unit_alphabetic u hl hf)
  cases List.mem_append.mp hc with
  | inl hmem => exact not_isAlphabetic_of_isNumeral u (hnum.isNumeral c hmem)
  | inr hmem => exact not_isAlphabetic_of_blank u hblank c hmem

/-- In a trimmed text blanks stand behind the number only. -/
theorem splitNumUnit_blanks {t : Text} (ht : Trimmed t) :
    ∃ blanks, Blank blanks
      ∧ (splitNumUnit u t).1 = trim (splitNumUnit u t).1 ++ blanks := by
  refine exists_trim_append fun c hc => ht.1 c ?_
  rw [← splitNumUnit_join u t]
  exact List.mem_head?_append_of_mem_head? hc

/-- Reading a trimmed text is splitting it. -/
theorem reads_iff {units : Text → Option Nat} (hl : Lettered units) {t : Text}
    (ht : Trimmed t) (q : ℚ) (f : Nat) :
    Reads (fun w => units (u.upper w)) t q f ↔
      Decimal (trim (splitNumUnit u t).1) q
        ∧ units (u.upper (trim (splitNumUnit u t).2)) = some f := by
  have hunit := trim_of_trimmed (splitNumUnit_unit_trimmed u ht)
  constructor
  · rintro ⟨num, blanks, unit, rfl, hnum, hblank, hf⟩
    rw [splitNumUnit_layout u hl hnum hblank hf] at hunit ⊢
    rw [hunit, trim_append_blank hnum.trimmed hnum.ne_nil hblank]
    exact ⟨hnum, hf⟩
  · intro ⟨hnum, hf⟩
    obtain ⟨blanks, hblank, hfront⟩ := splitNumUnit_blanks u ht
    refine ⟨_, blanks, (splitNumUnit u t).2, ?_, hnum, hblank, ?_⟩
    · rw [← hfront, splitNumUnit_join]
    · rwa [hunit] at hf

/-- **What is accepted**: a number with a unit, whatever its value. -/
theorem parseSize_ok_iff {units : Text → Option Nat} (hl : Lettered units)
    (unsupported : Text → Text → SizeError) (bits : Nat) (s : Text) (v : Nat) :
    parseSize u units unsupported bits s = .ok v ↔
      ∃ q f, Reads (fun w => units (u.upper w)) (trim s) q f
        ∧ v = (FloatVal.fin (q * f)).toUnsigned bits := by
  have hreads := reads_iff u hl (trimmed_trim s)
  have hnumber := parseF64_numPart u (trim s)
  unfold parseSize
  constructor
  · intro h
    cases hn : FloatVal.parseF64 (trim (splitNumUnit u (trim s)).1) with
    | none =>
        simp only [hn] at h
        cases h
    | some n =>
        obtain ⟨q, hq, rfl⟩ := (hnumber n).mp hn
        cases hf : units (u.upper (trim (splitNumUnit u (trim s)).2)) with
        | none =>
            simp only [hn, hf] at h
            cases h
        | some f =>
            simp only [hn, hf] at h
            cases h
            exact ⟨q, f, (hreads q f).mpr ⟨hq, hf⟩, rfl⟩
  · rintro ⟨q, f, hread, rfl⟩
    obtain ⟨hq, hf⟩ := (hreads q f).mp hread
    have hn := (hnumber (.fin q)).mpr ⟨q, hq, rfl⟩
    simp only [hn, hf]
    rfl

/-- A text is read in one way at most. -/
theorem reads_unique {units : Text → Option Nat} (hl : Lettered units)
    {t : Text} (ht : Trimmed t) {q q' : ℚ} {f f' : Nat}
    (h : Reads (fun w => units (u.upper w)) t q f)
    (h' : Reads (fun w => units (u.upper w)) t q' f') : q = q' ∧ f = f' := by
  obtain ⟨hq, hf⟩ := (reads_iff u hl ht q f).mp h
  obtain ⟨hq', hf'⟩ := (reads_iff u hl ht q' f').mp h'
  exact ⟨hq.unique hq', Option.some.inj (hf.symm.trans hf')⟩

/-- An error carries the trimmed text. -/
theorem parseSize_error {units : Text → Option Nat}
    {unsupported : Text → Text → SizeError} {bits : Nat} {s : Text}
    {e : SizeError} (h : parseSize u units unsupported bits s = .error e) :
    e = .number (trim s) ∨ ∃ other, e = unsupported other (trim s) := by
  unfold parseSize at h
  cases hn : FloatVal.parseF64 (trim (splitNumUnit u (trim s)).1) with
  | none =>
      simp only [hn] at h
      cases h
      exact Or.inl rfl
  | some n =>
      cases hf : units (u.upper (trim (splitNumUnit u (trim s)).2)) with
      | none =>
          simp only [hn, hf] at h
          cases h
          exact Or.inr ⟨_, rfl⟩
      | some f =>
          simp only [hn, hf] at h
          cases h

-- an exponent starts with a letter, so it is taken for a unit
example : parseByteString Unicode.ascii ['1', 'e', '3']
    = .error (.byteUnit ['E', '3'] ['1', 'e', '3']) := by
  decide +kernel

/-- What is accepted fits its type. -/
theorem parseSize_lt {units : Text → Option Nat} (hl : Lettered units)
    {unsupported : Text → Text → SizeError} {bits : Nat} {s : Text} {v : Nat}
    (h : parseSize u units unsupported bits s = .ok v) : v < 2 ^ bits := by
  obtain ⟨q, f, _, rfl⟩ := (parseSize_ok_iff u hl unsupported bits s v).mp h
  exact FloatVal.toUnsigned_lt bits _

/-! ## §4. Sizes in bytes. -/

/-- The format as documented: a number that is not negative, blanks and a unit
in any letter case, at most the largest value; it stands for the floor. -/
def ByteSize (s : Text) (v : Nat) : Prop :=
  ∃ q f, Reads (fun w => byteUnit (w.map Char.toUpper)) (trim s) q f
    ∧ 0 ≤ q ∧ q * f ≤ 2 ^ 64 - 1 ∧ v = ⌊q * f⌋₊

/-- A text is accepted exactly as the size it stands for. -/
def Documented (s : Text) : Prop :=
  ∀ v, parseByteString u s = .ok v ↔ ByteSize s v

/-- If the text is a number with a unit, it is in range and not spelt with a
dotless i. -/
def InRange (s : Text) : Prop :=
  ∀ q f, Reads (fun w => byteUnit (u.upper w)) (trim s) q f →
    0 ≤ q ∧ q * f ≤ 2 ^ 64 - 1 ∧ '\u0131' ∉ trim s

/-- Without a dotless i the upper case of a unit is that of ASCII. -/
theorem upper_unit {units : Text → Option Nat} (hl : Lettered units)
    {w : Text} {f : Nat} (h : units (u.upper w) = some f)
    (hdotless : '\u0131' ∉ w) : u.upper w = w.map Char.toUpper := by
  refine u.upper_ascii fun c hc => ?_
  cases unit_ascii u hl h c hc with
  | inl hascii => exact hascii
  | inr heq =>
      subst heq
      exact absurd hc hdotless

/-- A unit that is one in ASCII upper case is ASCII. -/
theorem ascii_unit {units : Text → Option Nat} (hl : Lettered units)
    {w : Text} {f : Nat} (h : units (w.map Char.toUpper) = some f) :
    ∀ c ∈ w, c.toNat < 128 := by
  intro c hc
  by_contra hlarge
  have hupper := hl _ f h (List.mem_map_of_mem hc)
  rw [Unicode.toUpper_of_large (by omega)] at hupper
  exact hlarge (unitLetters_ascii hupper)

/-- There is no dotless i in a number or in blanks. -/
theorem not_dotless {num blanks unit : Text} {q : ℚ} (hnum : Decimal num q)
    (hblank : Blank blanks) (hunit : ∀ c ∈ unit, c.toNat < 128) :
    '\u0131' ∉ num ++ blanks ++ unit := by
  intro hmem
  cases List.mem_append.mp hmem with
  | inl hfront =>
      cases List.mem_append.mp hfront with
      | inl h => exact absurd (hnum.isNumeral _ h) (by decide)
      | inr h => exact absurd (hblank _ h) (by decide)
  | inr h => exact absurd (hunit _ h) (by decide)

/-- The two ways to compare units differ in the dotless i. -/
theorem reads_ascii_iff {units : Text → Option Nat} (hl : Lettered units)
    (t : Text) (q : ℚ) (f : Nat) :
    Reads (fun w => units (w.map Char.toUpper)) t q f ↔
      Reads (fun w => units (u.upper w)) t q f ∧ '\u0131' ∉ t := by
  constructor
  · rintro ⟨num, blanks, unit, rfl, hnum, hblank, hf⟩
    have hascii := ascii_unit hl hf
    refine ⟨⟨num, blanks, unit, rfl, hnum, hblank, ?_⟩,
      not_dotless hnum hblank hascii⟩
    show units (u.upper unit) = some f
    rwa [u.upper_ascii hascii]
  · rintro ⟨⟨num, blanks, unit, rfl, hnum, hblank, hf⟩, hdotless⟩
    refine ⟨num, blanks, unit, rfl, hnum, hblank, ?_⟩
    show units (unit.map Char.toUpper) = some f
    rwa [← upper_unit u hl hf fun hmem =>
      hdotless (List.mem_append_right _ hmem)]

theorem parseByteString_ok_iff (s : Text) (v : Nat) :
    parseByteString u s = .ok v ↔
      ∃ q f, Reads (fun w => byteUnit (u.upper w)) (trim s) q f
        ∧ v = (FloatVal.fin (q * f)).toUnsigned 64 :=
  parseSize_ok_iff u lettered_byteUnit .byteUnit 64 s v

example : parseByteString Unicode.ascii ['2', '.', '5', ' ', 'K', 'i', 'B']
    = .ok 2560 := by
  decide +kernel

/-- In range every size is accepted as its floor. -/
theorem documented_of_inRange {s : Text} (h : InRange u s) :
    Documented u s := by
  intro v
  rw [parseByteString_ok_iff]
  constructor
  · rintro ⟨q, f, hread, rfl⟩
    obtain ⟨hpos, hmax, hdotless⟩ := h q f hread
    refine ⟨q, f, ?_, hpos, hmax, FloatVal.toUnsigned_fin hmax⟩
    exact (reads_ascii_iff u lettered_byteUnit _ q f).mpr ⟨hread, hdotless⟩
  · rintro ⟨q, f, hread, _, hmax, rfl⟩
    exact ⟨q, f, ((reads_ascii_iff u lettered_byteUnit _ q f).mp hread).1,
      (FloatVal.toUnsigned_fin hmax).symm⟩

/-- A documented size reads in no other way, so it is in range. -/
theorem inRange_of_documented {s : Text} (h : Documented u s) :
    InRange u s := by
  intro q f hread
  -- what reads is accepted, as a size that reads in the documented way too
  have hok := (parseByteString_ok_iff u s _).mpr ⟨q, f, hread, rfl⟩
  obtain ⟨q', f', hread', hpos, hmax, _⟩ := (h _).mp hok
  obtain ⟨hupper, hdotless⟩ :=
    (reads_ascii_iff u lettered_byteUnit _ q' f').mp hread'
  obtain ⟨rfl, rfl⟩ :=
    reads_unique u lettered_byteUnit (trimmed_trim s) hread hupper
  exact ⟨hpos, hmax, hdotless⟩

/-- What is negative is accepted as 0. -/
theorem parseByteString_negative {s : Text} {q : ℚ} {f : Nat}
    (hread : Reads (fun w => byteUnit (u.upper w)) (trim s) q f)
    (hq : q ≤ 0) : parseByteString u s = .ok 0 := by
  have hvalue : q * f ≤ 0 :=
    mul_nonpos_of_nonpos_of_nonneg hq (Nat.cast_nonneg f)
  refine (parseByteString_ok_iff u s 0).mpr ⟨q, f, hread, ?_⟩
  rw [FloatVal.toUnsigned_fin (by linarith), Nat.floor_of_nonpos hvalue]

/-- What is too large is accepted as the largest value. -/
theorem parseByteString_large {s : Text} {q : ℚ} {f : Nat}
    (hread : Reads (fun w => byteUnit (u.upper w)) (trim s) q f)
    (hmax : 2 ^ 64 - 1 ≤ q * f) :
    parseByteString u s = .ok (2 ^ 64 - 1) :=
  (parseByteString_ok_iff u s _).mpr
    ⟨q, f, hread, (FloatVal.toUnsigned_large hmax).symm⟩

/-- **A size is treated as documented exactly if it is in range.**  Anything
else the parser accepts is negative, too large or spelt with a dotless i. -/
theorem byteString_documented_iff (s : Text) :
    Documented u s ↔ InRange u s :=
  ⟨inRange_of_documented u, documented_of_inRange u⟩

theorem reads_negative : Reads (fun w => byteUnit (Unicode.ascii.upper w))
    (trim ['-', '5', ' ', 'K', 'B']) (-((5 : Nat) : ℚ)) 1024 :=
  ⟨['-', '5'], [' '], ['K', 'B'], by decide,
    Decimal.minus (Unsigned.whole (by decide)),
    fun c hc => by
      cases List.mem_singleton.mp hc
      decide,
    by decide⟩

/-- Minus five kilobytes are accepted as nothing. -/
theorem negative_byteString :
    parseByteString Unicode.ascii ['-', '5', ' ', 'K', 'B'] = .ok 0
      ∧ ¬ Documented Unicode.ascii ['-', '5', ' ', 'K', 'B'] := by
  refine ⟨parseByteString_negative _ reads_negative (by norm_num), ?_⟩
  intro h
  have hpos := (inRange_of_documented _ h _ _ reads_negative).1
  norm_num at hpos

/-! ## §5. Megabytes and integers. -/

theorem parseMegabyteString_ok_iff (s : Text) (v : Nat) :
    parseMegabyteString u s = .ok v ↔
      ∃ q f, Reads (fun w => megabyteUnit (u.upper w)) (trim s) q f
        ∧ v = (FloatVal.fin (q * f)).toUnsigned 32 :=
  parseSize_ok_iff u lettered_megabyteUnit .megabyteUnit 32 s v

/-- Digits alone are a size in the unit that is left out. -/
theorem parseSize_digits {units : Text → Option Nat} (hl : Lettered units)
    (hplain : units [] = some 1) (unsupported : Text → Text → SizeError)
    (bits : Nat) {t : Text} {n : Nat} (h : parseDigits t = some n) :
    parseSize u units unsupported bits t = .ok (min n (2 ^ bits - 1)) := by
  have hnum : Decimal t n := Decimal.plain (Unsigned.whole h)
  refine (parseSize_ok_iff u hl unsupported bits t _).mpr ⟨n, 1, ?_, ?_⟩
  · rw [trim_of_trimmed hnum.trimmed]
    exact ⟨t, [], [], by simp, hnum, Blank.nil, hplain⟩
  · rw [Nat.cast_one, mul_one, FloatVal.toUnsigned_natCast]

/-- The digits of an integer and the integer are the same size in bytes. -/
theorem deserializeBytes_digits {t : Text} {n : UInt64}
    (h : parseDigits t = some n.toNat) :
    deserializeBytes u (.str t) = deserializeBytes u (.int n) := by
  have hlt := n.toNat_lt
  show parseByteString u t = .ok n.toNat
  rw [parseByteString, parseSize_digits u lettered_byteUnit rfl _ 64 h,
    Nat.min_eq_left (by omega)]

/-- In megabytes they part from `2 ^ 32` on: the text is cut to the largest
value, the integer to its low bits. -/
theorem deserializeMegabytes_digits {t : Text} {n : UInt64}
    (h : parseDigits t = some n.toNat) :
    deserializeMegabytes u (.str t) = deserializeMegabytes u (.int n) ↔
      n.toNat < 2 ^ 32 ∨ n.toNat % 2 ^ 32 = 2 ^ 32 - 1 := by
  show parseMegabyteString u t = .ok (n.toNat % 2 ^ 32) ↔ _
  rw [parseMegabyteString, parseSize_digits u lettered_megabyteUnit rfl _ 32 h,
    Except.ok.injEq]
  omega

theorem deserializeBytes_lt {v : StringOrU64} {n : Nat}
    (h : deserializeBytes u v = .ok n) : n < 2 ^ 64 := by
  cases v with
  | str s => exact parseSize_lt u lettered_byteUnit h
  | int m =>
      cases h
      exact m.toNat_lt

theorem deserializeMegabytes_lt {v : StringOrU64} {n : Nat}
    (h : deserializeMegabytes u v = .ok n) : n < 2 ^ 32 := by
  cases v with
  | str s => exact parseSize_lt u lettered_megabyteUnit h
  | int m =>
      cases h
      exact Nat.mod_lt _ (by decide)

end ArgusManager.Sim
