/-
  ArgusManager.Lib.Decimal
  ────────────────────────
  **Numbers with a point and an exponent**: the grammar of the decimals and
  the scanner that reads them.

    • `Unsigned t x`  — digits with or without a point, at least one digit,
    • `Decimal t x`   — the same behind an optional sign,
    • `parseNumber`   — the scanner, which takes an exponent as well,
    • `parseNumber_iff` — without an exponent letter the scanner reads the
                        decimals and nothing else.
-/
import ArgusManager.Lib.StrScan
import Mathlib.Algebra.Order.Field.Basic
import Mathlib.Data.Rat.Defs
import Mathlib.Tactic.NormNum

namespace StrScan

/-! ## §1. The grammar. -/

/-- Digits, with or without a point: "12", "12.5", "12." and ".5". -/
inductive Unsigned : Text → ℚ → Prop where
  | whole {ds : Text} {n : Nat} (h : parseDigits ds = some n) :
      Unsigned ds n
  | point {ds fs : Text} {n : Nat} (h : parseDigits (ds ++ fs) = some n) :
      Unsigned (ds ++ '.' :: fs) (n / 10 ^ fs.length)

/-- A decimal with an optional sign. -/
inductive Decimal : Text → ℚ → Prop where
  | plain {t : Text} {x : ℚ} (h : Unsigned t x) : Decimal t x
  | plus {t : Text} {x : ℚ} (h : Unsigned t x) : Decimal ('+' :: t) x
  | minus {t : Text} {x : ℚ} (h : Unsigned t x) : Decimal ('-' :: t) (-x)

/-! ## §2. The scanner. -/

/-- The digits behind a point, if one comes next, and what follows. -/
def pointPart : Text → Text × Text
  | '.' :: rest =>
      (rest.takeWhile Char.isDigit, rest.dropWhile Char.isDigit)
  | rest => ([], rest)

/-- An integer with an optional sign. -/
def parseInteger : Text → Option ℤ
  | '-' :: ds => (parseDigits ds).map fun n => -(n : ℤ)
  | '+' :: ds => (parseDigits ds).map fun n => (n : ℤ)
  | ds => (parseDigits ds).map fun n => (n : ℤ)

/-- The end of a number: nothing, or a whole exponent. -/
def parseExponent : Text → Option ℤ
  | [] => some 0
  | c :: rest => if c = 'e' ∨ c = 'E' then parseInteger rest else none

/-- The value of digits before and behind the point and an exponent. -/
def numberOf (ds fs rest : Text) : Option ℚ :=
  (parseDigits (ds ++ fs)).bind fun n =>
    (parseExponent rest).map fun e => (n : ℚ) * 10 ^ (e - (fs.length : ℤ))

/-- A number without a sign. -/
def parseNumber (s : Text) : Option ℚ :=
  let part := pointPart (s.dropWhile Char.isDigit)
  numberOf (s.takeWhile Char.isDigit) part.1 part.2

/-! ## §3. The scanner reads the grammar. -/

theorem isDigit_of_pushDigit {n m : Nat} {c : Char}
    (h : pushDigit n c = some m) : c.isDigit = true := by
  unfold pushDigit at h
  by_contra hc
  rw [if_neg hc] at h
  cases h

theorem isDigit_of_foldlM : ∀ {s : Text} {n m : Nat},
    s.foldlM pushDigit n = some m → ∀ c ∈ s, c.isDigit = true := by
  intro s
  induction s with
  | nil =>
      intro n m _ c hc
      cases hc
  | cons d s ih =>
      intro n m h c hc
      rw [List.foldlM_cons] at h
      obtain ⟨k, hd, hs⟩ := Option.bind_eq_some_iff.mp h
      cases List.mem_cons.mp hc with
      | inl heq => exact heq ▸ isDigit_of_pushDigit hd
      | inr hmem => exact ih hs c hmem

/-- What is read as digits is made of digits. -/
theorem isDigit_of_parseDigits {s : Text} {n : Nat}
    (h : parseDigits s = some n) : ∀ c ∈ s, c.isDigit = true := by
  unfold parseDigits at h
  by_cases hs : s.isEmpty
  · rw [if_pos hs] at h
    cases h
  · rw [if_neg hs] at h
    exact isDigit_of_foldlM h

theorem parseDigits_nil : parseDigits [] = none := rfl

/-- Digits are taken as far as they go. -/
theorem span_digits {ds : Text} (rest : Text)
    (hds : ∀ c ∈ ds, c.isDigit = true)
    (hrest : ∀ c ∈ rest.head?, c.isDigit = false) :
    (ds ++ rest).takeWhile Char.isDigit = ds
      ∧ (ds ++ rest).dropWhile Char.isDigit = rest := by
  have hstop : rest.takeWhile Char.isDigit = []
      ∧ rest.dropWhile Char.isDigit = rest := by
    cases rest with
    | nil => exact ⟨rfl, rfl⟩
    | cons c rest =>
        have hc := hrest c rfl
        exact ⟨List.takeWhile_cons_of_neg (by simp [hc]),
          List.dropWhile_cons_of_neg (by simp [hc])⟩
  rw [List.takeWhile_append_of_pos hds, List.dropWhile_append_of_pos hds,
    hstop.1, hstop.2, List.append_nil]
  exact ⟨rfl, rfl⟩

/-- A text of digits is taken whole. -/
theorem span_digits_all {ds : Text} (hds : ∀ c ∈ ds, c.isDigit = true) :
    ds.takeWhile Char.isDigit = ds ∧ ds.dropWhile Char.isDigit = [] := by
  have hspan := span_digits [] hds (fun c hc => by cases hc)
  rwa [List.append_nil] at hspan

theorem shift_value (n k : Nat) :
    (n : ℚ) * 10 ^ (0 - (k : ℤ)) = n / 10 ^ k := by
  rw [zero_sub, zpow_neg, zpow_natCast, div_eq_mul_inv]

/-- A number that ends behind its digits. -/
theorem numberOf_nil {ds fs : Text} {n : Nat}
    (h : parseDigits (ds ++ fs) = some n) :
    numberOf ds fs [] = some ((n : ℚ) / 10 ^ fs.length) := by
  unfold numberOf
  rw [h]
  exact congrArg some (shift_value n fs.length)

/-- Every decimal is read as its value. -/
theorem parseNumber_of_unsigned {s : Text} {x : ℚ} (h : Unsigned s x) :
    parseNumber s = some x := by
  cases h with
  | @whole _ n h =>
      -- the digits are the whole text, no point and no exponent follows
      obtain ⟨htake, hdrop⟩ := span_digits_all (isDigit_of_parseDigits h)
      unfold parseNumber
      rw [htake, hdrop]
      show numberOf s [] [] = some (n : ℚ)
      rw [numberOf_nil ((List.append_nil s).symm ▸ h)]
      show some ((n : ℚ) / 10 ^ 0) = some (n : ℚ)
      rw [pow_zero, div_one]
  | @point ds fs n h =>
      have hdigits := isDigit_of_parseDigits h
      obtain ⟨htake, hdrop⟩ := span_digits ('.' :: fs)
        (fun c hc => hdigits c (List.mem_append_left fs hc))
        (fun c hc => by
          cases hc
          rfl)
      obtain ⟨hfrac, hend⟩ := span_digits_all
        (fun c hc => hdigits c (List.mem_append_right ds hc))
      unfold parseNumber
      rw [htake, hdrop]
      show numberOf ds (fs.takeWhile Char.isDigit)
        (fs.dropWhile Char.isDigit) = _
      rw [hfrac, hend]
      exact numberOf_nil h

/-- Where no exponent letter comes next, the number has ended. -/
theorem parseExponent_no_letter {rest : Text} {e : ℤ}
    (hrest : ∀ c ∈ rest, c ≠ 'e' ∧ c ≠ 'E')
    (h : parseExponent rest = some e) : rest = [] ∧ e = 0 := by
  cases rest with
  | nil => exact ⟨rfl, (Option.some.inj h).symm⟩
  | cons c rest =>
      have hc := hrest c List.mem_cons_self
      have hnone : parseExponent (c :: rest) = none :=
        if_neg fun hletter => hletter.elim hc.1 hc.2
      rw [hnone] at h
      cases h

/-- So its value is that of its digits. -/
theorem numberOf_no_letter {ds fs rest : Text} {x : ℚ}
    (hrest : ∀ c ∈ rest, c ≠ 'e' ∧ c ≠ 'E')
    (h : numberOf ds fs rest = some x) :
    rest = [] ∧ ∃ n : Nat, parseDigits (ds ++ fs) = some n
      ∧ x = n / 10 ^ fs.length := by
  obtain ⟨n, hn, h⟩ := Option.bind_eq_some_iff.mp h
  obtain ⟨e, he, h⟩ := Option.map_eq_some_iff.mp h
  obtain ⟨hend, rfl⟩ := parseExponent_no_letter hrest he
  rw [shift_value] at h
  exact ⟨hend, n, hn, h.symm⟩

/-- What follows the whole digits: a point or no point. -/
theorem pointPart_cases (rest : Text) :
    (∃ r, rest = '.' :: r ∧ pointPart rest
      = (r.takeWhile Char.isDigit, r.dropWhile Char.isDigit))
      ∨ pointPart rest = ([], rest) := by
  unfold pointPart
  split
  · exact Or.inl ⟨_, rfl, rfl⟩
  · exact Or.inr rfl

/-- Without an exponent letter nothing but a decimal is read. -/
theorem unsigned_of_parseNumber {s : Text} {x : ℚ}
    (hs : ∀ c ∈ s, c ≠ 'e' ∧ c ≠ 'E') (h : parseNumber s = some x) :
    Unsigned s x := by
  have hsplit := List.takeWhile_append_dropWhile (p := Char.isDigit) (l := s)
  have hrest : ∀ c ∈ s.dropWhile Char.isDigit, c ≠ 'e' ∧ c ≠ 'E' :=
    fun c hc => hs c ((List.dropWhile_suffix Char.isDigit).subset hc)
  unfold parseNumber at h
  obtain ⟨r, hpoint, hpart⟩ | hpart :=
    pointPart_cases (s.dropWhile Char.isDigit)
  · -- a point: its digits reach the end
    rw [hpart] at h
    obtain ⟨hend, n, hn, rfl⟩ := numberOf_no_letter (fun c hc =>
      hrest c (hpoint ▸ List.mem_cons_of_mem _
        ((List.dropWhile_suffix Char.isDigit).subset hc))) h
    have hr := List.takeWhile_append_dropWhile (p := Char.isDigit) (l := r)
    have hfrac : r.takeWhile Char.isDigit = r := by
      rwa [show r.dropWhile Char.isDigit = [] from hend,
        List.append_nil] at hr
    rw [hpoint] at hsplit
    rw [← hsplit]
    show Unsigned _ ((n : ℚ) / 10 ^ (r.takeWhile Char.isDigit).length)
    rw [hfrac]
    exact Unsigned.point (by rwa [← hfrac])
  · -- no point: the whole digits reach the end
    rw [hpart] at h
    obtain ⟨hend, n, hn, rfl⟩ := numberOf_no_letter hrest h
    have hall : s.takeWhile Char.isDigit = s := by
      rwa [show s.dropWhile Char.isDigit = [] from hend,
        List.append_nil] at hsplit
    show Unsigned s ((n : ℚ) / 10 ^ 0)
    rw [pow_zero, div_one]
    exact Unsigned.whole (by rwa [← hall, ← List.append_nil (s.takeWhile _)])

/-- **Without an exponent letter the numbers are the decimals.** -/
theorem parseNumber_iff {s : Text} (hs : ∀ c ∈ s, c ≠ 'e' ∧ c ≠ 'E') (x : ℚ) :
    parseNumber s = some x ↔ Unsigned s x :=
  ⟨unsigned_of_parseNumber hs, parseNumber_of_unsigned⟩

/-! ## §4. The characters of a decimal. -/

/-- A digit, a point or a sign. -/
def isNumeral (c : Char) : Bool :=
  c.isDigit || c == '.' || c == '+' || c == '-'

theorem isNumeral_of_isDigit {c : Char} (h : c.isDigit = true) :
    isNumeral c = true := by
  unfold isNumeral
  rw [h]
  rfl

theorem isNumeral_range {c : Char} (h : isNumeral c = true) :
    43 ≤ c.toNat ∧ c.toNat ≤ 57 := by
  unfold isNumeral at h
  simp only [Bool.or_eq_true, beq_iff_eq] at h
  obtain ((h | rfl) | rfl) | rfl := h
  · obtain ⟨hlo, hhi⟩ := Char.isDigit_iff_toNat.mp h
    exact ⟨Nat.le_trans (by decide) hlo, hhi⟩
  · decide
  · decide
  · decide

theorem not_isWhitespace_of_isNumeral {c : Char} (h : isNumeral c = true) :
    isWhitespace c = false := by
  obtain ⟨hlo, hhi⟩ := isNumeral_range h
  simp [isWhitespace]
  omega

/-- There is no sign in an unsigned decimal. -/
theorem Unsigned.digit_or_point {s : Text} {x : ℚ} (h : Unsigned s x) :
    ∀ c ∈ s, c.isDigit = true ∨ c = '.' := by
  intro c hc
  cases h with
  | whole h => exact Or.inl (isDigit_of_parseDigits h c hc)
  | @point ds fs n h =>
      have hdigits := isDigit_of_parseDigits h
      cases List.mem_append.mp hc with
      | inl hds => exact Or.inl (hdigits c (List.mem_append_left fs hds))
      | inr hfs =>
          cases List.mem_cons.mp hfs with
          | inl heq => exact Or.inr heq
          | inr hfs => exact Or.inl (hdigits c (List.mem_append_right ds hfs))

theorem not_unsigned_minus {s : Text} {x : ℚ} : ¬ Unsigned ('-' :: s) x :=
  fun h => absurd (h.digit_or_point '-' List.mem_cons_self) (by decide)

theorem not_unsigned_plus {s : Text} {x : ℚ} : ¬ Unsigned ('+' :: s) x :=
  fun h => absurd (h.digit_or_point '+' List.mem_cons_self) (by decide)

theorem Unsigned.unique {s : Text} {x y : ℚ} (hx : Unsigned s x)
    (hy : Unsigned s y) : x = y :=
  Option.some.inj
    ((parseNumber_of_unsigned hx).symm.trans (parseNumber_of_unsigned hy))

/-- A decimal has one value: its sign tells which rule it is by. -/
theorem Decimal.unique {s : Text} {x y : ℚ} (hx : Decimal s x)
    (hy : Decimal s y) : x = y := by
  cases hx with
  | plain hx =>
      cases hy with
      | plain hy => exact hx.unique hy
      | plus hy => exact absurd hx not_unsigned_plus
      | minus hy => exact absurd hx not_unsigned_minus
  | plus hx =>
      cases hy with
      | plain hy => exact absurd hy not_unsigned_plus
      | plus hy => exact hx.unique hy
  | minus hx =>
      cases hy with
      | plain hy => exact absurd hy not_unsigned_minus
      | minus hy => rw [hx.unique hy]

theorem Unsigned.isNumeral {s : Text} {x : ℚ} (h : Unsigned s x) :
    ∀ c ∈ s, isNumeral c = true := by
  intro c hc
  cases h.digit_or_point c hc with
  | inl hdigit => exact isNumeral_of_isDigit hdigit
  | inr hpoint => exact hpoint ▸ rfl

theorem Unsigned.ne_nil {s : Text} {x : ℚ} (h : Unsigned s x) : s ≠ [] := by
  cases h with
  | whole h =>
      intro hnil
      rw [hnil, parseDigits_nil] at h
      cases h
  | point h => exact List.append_ne_nil_of_right_ne_nil _ (by simp)

theorem Decimal.isNumeral {s : Text} {x : ℚ} (h : Decimal s x) :
    ∀ c ∈ s, isNumeral c = true := by
  intro c hc
  cases h with
  | plain h => exact h.isNumeral c hc
  | plus h =>
      cases List.mem_cons.mp hc with
      | inl heq => exact heq ▸ rfl
      | inr hmem => exact h.isNumeral c hmem
  | minus h =>
      cases List.mem_cons.mp hc with
      | inl heq => exact heq ▸ rfl
      | inr hmem => exact h.isNumeral c hmem

theorem Decimal.ne_nil {s : Text} {x : ℚ} (h : Decimal s x) : s ≠ [] := by
  cases h with
  | plain h => exact h.ne_nil
  | plus h => exact List.cons_ne_nil _ _
  | minus h => exact List.cons_ne_nil _ _

/-- There is nothing to trim about a decimal. -/
theorem Decimal.trimmed {s : Text} {x : ℚ} (h : Decimal s x) : Trimmed s :=
  ⟨fun c hc => not_isWhitespace_of_isNumeral
      (h.isNumeral c (List.mem_of_mem_head? hc)),
    fun c hc => not_isWhitespace_of_isNumeral
      (h.isNumeral c (List.mem_of_mem_getLast? hc))⟩

/-! ## §5. Numerals. -/

/-- A natural number in base ten. -/
def numeral (n : Nat) : Text := Nat.toDigits 10 n

theorem isDigit_of_mem_numeral {n : Nat} {c : Char} (h : c ∈ numeral n) :
    c.isDigit = true :=
  Nat.isDigit_of_mem_toDigits (by decide) (by decide) h

theorem numeral_ne_nil (n : Nat) : numeral n ≠ [] := Nat.toDigits_ne_nil

theorem foldlM_pushDigit {s : Text} (hs : ∀ c ∈ s, c.isDigit = true)
    (n : Nat) : s.foldlM pushDigit n = some (Nat.ofDigitChars 10 s n) := by
  induction s generalizing n with
  | nil =>
      rw [Nat.ofDigitChars_nil]
      rfl
  | cons c s ih =>
      have hpush : pushDigit n c = some (10 * n + (c.toNat - '0'.toNat)) :=
        if_pos (hs c List.mem_cons_self)
      rw [List.foldlM_cons, hpush, Nat.ofDigitChars_cons]
      exact ih (fun d hd => hs d (List.mem_cons_of_mem _ hd)) _

theorem parseDigits_numeral (n : Nat) : parseDigits (numeral n) = some n := by
  unfold parseDigits
  rw [if_neg (by simpa using numeral_ne_nil n),
    foldlM_pushDigit fun _ => isDigit_of_mem_numeral]
  exact congrArg some Nat.ofDigitChars_ten_toDigits

/-- **A numeral is read back**, if it fits. -/
theorem parseUnsigned_numeral {bits n : Nat} (h : n < 2 ^ bits) :
    parseUnsigned bits (numeral n) = some n := by
  unfold parseUnsigned
  dsimp only
  split
  next rest heq =>
    -- a numeral has no sign
    have hplus : '+' ∈ numeral n := by
      rw [heq]
      exact List.mem_cons_self
    exact absurd (isDigit_of_mem_numeral hplus) (by decide)
  next =>
    rw [parseDigits_numeral]
    exact Option.filter_eq_some_iff.mpr ⟨rfl, decide_eq_true h⟩

theorem trimmed_numeral (n : Nat) : Trimmed (numeral n) := by
  have hblank : ∀ c ∈ numeral n, isWhitespace c = false := fun c hc =>
    not_isWhitespace_of_isNumeral
      (isNumeral_of_isDigit (isDigit_of_mem_numeral hc))
  exact ⟨fun c hc => hblank c (List.mem_of_mem_head? hc),
    fun c hc => hblank c (List.mem_of_mem_getLast? hc)⟩

end StrScan
