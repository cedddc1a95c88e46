/-
  ArgusManager.Lib.Unicode
  ────────────────────────
  **What a program asks of the Unicode character database**: which characters
  are alphabetic and how each is written in upper case.

  The tables are a parameter; the laws say what they hold for ASCII and which
  other characters come out as ASCII in upper case (`folds`).
-/
import ArgusManager.Lib.StrScan

open StrScan

/-- The characters outside ASCII whose upper case is ASCII: the sharp s, the
dotless i, the long s and the Latin ligatures. -/
def asciiFolds : List (Char × Text) :=
  [('\u00df', ['S', 'S']), ('\u0131', ['I']), ('\u017f', ['S']),
    ('\ufb00', ['F', 'F']), ('\ufb01', ['F', 'I']), ('\ufb02', ['F', 'L']),
    ('\ufb03', ['F', 'F', 'I']), ('\ufb04', ['F', 'F', 'L']),
    ('\ufb05', ['S', 'T']), ('\ufb06', ['S', 'T'])]

/-- The character database. -/
structure Unicode where
  isAlphabetic : Char → Bool
  toUppercase : Char → Text
  alphabetic_ascii : ∀ c, c.toNat < 128 → isAlphabetic c = c.isAlpha
  alphabetic_fold : ∀ p ∈ asciiFolds, isAlphabetic p.1 = true
  alphabetic_visible : ∀ c, isAlphabetic c = true → isWhitespace c = false
  uppercase_ascii : ∀ c, c.toNat < 128 → toUppercase c = [c.toUpper]
  uppercase_fold : ∀ p ∈ asciiFolds, toUppercase p.1 = p.2
  uppercase_other : ∀ c, 128 ≤ c.toNat → c ∉ asciiFolds.map Prod.fst →
    ∃ x ∈ toUppercase c, 128 ≤ x.toNat

namespace Unicode

/-! ## §1. Texts in upper case. -/

variable (u : Unicode)

/-- `str::to_uppercase`. -/
def upper (s : Text) : Text := s.flatMap u.toUppercase

theorem upper_ascii {s : Text} (h : ∀ c ∈ s, c.toNat < 128) :
    u.upper s = s.map Char.toUpper := by
  unfold upper
  induction s with
  | nil => rfl
  | cons c s ih =>
      rw [List.flatMap_cons, u.uppercase_ascii c (h c List.mem_cons_self),
        ih fun d hd => h d (List.mem_cons_of_mem c hd)]
      rfl

/-- What comes out as ASCII was ASCII or is one of the few others. -/
theorem of_upper_ascii {s : Text} (h : ∀ x ∈ u.upper s, x.toNat < 128) :
    ∀ c ∈ s, c.toNat < 128 ∨ c ∈ asciiFolds.map Prod.fst := by
  intro c hc
  by_cases hascii : c.toNat < 128
  · exact Or.inl hascii
  · -- every other character leaves something outside ASCII
    refine Or.inr ?_
    by_contra hfold
    obtain ⟨x, hx, hlarge⟩ := u.uppercase_other c (by omega) hfold
    have hsmall := h x (List.mem_flatMap.mpr ⟨c, hc, hx⟩)
    omega

/-! ## §2. ASCII. -/

/-- ASCII is checked one code at a time. -/
theorem forall_ascii {P : Char → Prop} (h : ∀ n < 128, P (Char.ofNat n))
    {c : Char} (hc : c.toNat < 128) : P c := by
  have hcode := h c.toNat hc
  rwa [Char.ofNat_toNat] at hcode

theorem isAlpha_range {c : Char} (h : c.isAlpha = true) :
    65 ≤ c.toNat ∧ c.toNat ≤ 122 := by
  cases Bool.or_eq_true_iff.mp h with
  | inl hupper =>
      have hrange : 65 ≤ c.toNat ∧ c.toNat ≤ 90 := of_decide_eq_true hupper
      omega
  | inr hlower =>
      obtain ⟨hlo, hhi⟩ := Bool.and_eq_true_iff.mp hlower
      have hlo : 97 ≤ c.toNat := of_decide_eq_true hlo
      have hhi : c.toNat ≤ 122 := of_decide_eq_true hhi
      omega

theorem not_isWhitespace_of_isAlpha {c : Char} (h : c.isAlpha = true) :
    isWhitespace c = false := by
  have hrange := isAlpha_range h
  simp [isWhitespace]
  omega

/-- Only small letters change. -/
theorem toUpper_of_large {c : Char} (h : 128 ≤ c.toNat) : c.toUpper = c := by
  refine dif_neg fun hrange => ?_
  have hsmall : c.toNat ≤ 122 := hrange.2
  omega

/-! ## §3. The smallest database. -/

theorem asciiFolds_large : ∀ p ∈ asciiFolds, 128 ≤ p.1.toNat := by
  decide

theorem lookup_ascii {c : Char} (h : c.toNat < 128) :
    asciiFolds.lookup c = none := by
  refine List.lookup_eq_none_iff.mpr fun p hp => ?_
  have hlarge := asciiFolds_large p hp
  refine bne_iff_ne.mpr fun heq => ?_
  subst heq
  omega

theorem lookup_other {c : Char} (h : c ∉ asciiFolds.map Prod.fst) :
    asciiFolds.lookup c = none := by
  refine List.lookup_eq_none_iff.mpr fun p hp => bne_iff_ne.mpr ?_
  intro heq
  exact h (List.mem_map.mpr ⟨p, hp, heq.symm⟩)

/-- ASCII and the characters that fold into it; nothing else is alphabetic
and nothing else has an upper case. -/
def ascii : Unicode where
  isAlphabetic c := c.isAlpha || (asciiFolds.lookup c).isSome
  toUppercase c := (asciiFolds.lookup c).getD [c.toUpper]
  alphabetic_ascii c h := by
    rw [lookup_ascii h]
    exact Bool.or_false _
  alphabetic_fold := by decide
  alphabetic_visible c h := by
    cases Bool.or_eq_true_iff.mp h with
    | inl halpha => exact not_isWhitespace_of_isAlpha halpha
    | inr hfold =>
        obtain ⟨w, hw⟩ := Option.isSome_iff_exists.mp hfold
        obtain ⟨l, r, hsplit, _⟩ := List.lookup_eq_some_iff.mp hw
        have hvisible : ∀ p ∈ asciiFolds, isWhitespace p.1 = false := by
          decide
        exact hvisible (c, w) (hsplit ▸ by simp)
  uppercase_ascii c h := by
    rw [lookup_ascii h]
    rfl
  uppercase_fold := by decide
  uppercase_other c h hfold := by
    rw [lookup_other hfold]
    exact ⟨c.toUpper, List.mem_cons_self, by rwa [toUpper_of_large h]⟩

end Unicode
