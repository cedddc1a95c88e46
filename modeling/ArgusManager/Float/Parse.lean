/-
  ArgusManager.Float.Parse
  ────────────────────────
  `str::parse::<f64>`: a sign, then a number with an optional exponent or the
  name of an infinity or a NaN.  The value is exact, as all of the arithmetic.
-/
import ArgusManager.Float
import ArgusManager.Lib.Decimal

namespace ArgusManager.FloatVal

open StrScan

/-! ## §1. The parser. -/

/-- The names of what is no number, in any letter case. -/
def parseInfNan (s : Text) : Option FloatVal :=
  match s.map Char.toLower with
  | ['i', 'n', 'f'] => some .posInf
  | ['i', 'n', 'f', 'i', 'n', 'i', 't', 'y'] => some .posInf
  | ['n', 'a', 'n'] => some .nan
  | _ => none

/-- What stands behind the sign. -/
def parseMagnitude (s : Text) : Option FloatVal :=
  match parseNumber s with
  | some x => some (.fin x)
  | none => parseInfNan s

/-- `str::parse::<f64>`. -/
def parseF64 : Text → Option FloatVal
  | '-' :: s => (parseMagnitude s).map fun v => -v
  | '+' :: s => parseMagnitude s
  | s => parseMagnitude s

/-! ## §2. Texts without letters. -/

theorem toLower_of_not_isAlpha {c : Char} (h : c.isAlpha = false) :
    c.toLower = c := by
  have hupper : c.isUpper = false := (Bool.or_eq_false_iff.mp h).1
  refine dif_neg fun hrange => ?_
  have hyes : c.isUpper = true := decide_eq_true hrange
  rw [hupper] at hyes
  cases hyes

/-- The names need letters. -/
theorem parseInfNan_no_letter {s : Text} (hs : ∀ c ∈ s, c.isAlpha = false) :
    parseInfNan s = none := by
  have hmap : s.map Char.toLower = s := by
    rw [List.map_congr_left fun c hc => toLower_of_not_isAlpha (hs c hc)]
    exact List.map_id s
  unfold parseInfNan
  rw [hmap]
  split
  · exact absurd (hs 'i' List.mem_cons_self) (by decide)
  · exact absurd (hs 'i' List.mem_cons_self) (by decide)
  · exact absurd (hs 'n' List.mem_cons_self) (by decide)
  · rfl

theorem parseMagnitude_iff {s : Text} (hs : ∀ c ∈ s, c.isAlpha = false)
    (v : FloatVal) :
    parseMagnitude s = some v ↔ ∃ x, Unsigned s x ∧ v = .fin x := by
  have hletter : ∀ c ∈ s, c ≠ 'e' ∧ c ≠ 'E' := by
    intro c hc
    have hc := hs c hc
    constructor
    · rintro rfl
      exact absurd hc (by decide)
    · rintro rfl
      exact absurd hc (by decide)
  unfold parseMagnitude
  constructor
  · intro h
    cases hx : parseNumber s with
    | none =>
        rw [hx] at h
        exact absurd (h.symm.trans (parseInfNan_no_letter hs)) (by simp)
    | some x =>
        rw [hx] at h
        exact ⟨x, (parseNumber_iff hletter x).mp hx, (Option.some.inj h).symm⟩
  · rintro ⟨x, hx, rfl⟩
    rw [(parseNumber_iff hletter x).mpr hx]

/-- **Without letters the floats are the decimals.** -/
theorem parseF64_iff {s : Text} (hs : ∀ c ∈ s, c.isAlpha = false)
    (v : FloatVal) :
    parseF64 s = some v ↔ ∃ x, Decimal s x ∧ v = .fin x := by
  have htail : ∀ {c : Char} {t : Text}, s = c :: t →
      ∀ d ∈ t, d.isAlpha = false :=
    fun hcons d hd => hs d (hcons ▸ List.mem_cons_of_mem _ hd)
  -- the first character decides on the sign, here and in the grammar
  unfold parseF64
  split
  · rename_i t
    rw [Option.map_eq_some_iff]
    constructor
    · rintro ⟨w, hw, rfl⟩
      obtain ⟨x, hx, rfl⟩ := (parseMagnitude_iff (htail rfl) w).mp hw
      exact ⟨-x, Decimal.minus hx, rfl⟩
    · rintro ⟨x, hx, rfl⟩
      cases hx with
      | plain hx => exact absurd hx not_unsigned_minus
      | minus hx =>
          exact ⟨_, (parseMagnitude_iff (htail rfl) _).mpr ⟨_, hx, rfl⟩, rfl⟩
  · rename_i t
    rw [parseMagnitude_iff (htail rfl)]
    constructor
    · rintro ⟨x, hx, rfl⟩
      exact ⟨x, Decimal.plus hx, rfl⟩
    · rintro ⟨x, hx, rfl⟩
      cases hx with
      | plain hx => exact absurd hx not_unsigned_plus
      | plus hx => exact ⟨x, hx, rfl⟩
  · rename_i hminus hplus
    rw [parseMagnitude_iff hs]
    constructor
    · rintro ⟨x, hx, rfl⟩
      exact ⟨x, Decimal.plain hx, rfl⟩
    · rintro ⟨x, hx, rfl⟩
      cases hx with
      | plain hx => exact ⟨x, hx, rfl⟩
      | plus hx => exact absurd rfl (hplus _)
      | minus hx => exact absurd rfl (hminus _)

end ArgusManager.FloatVal
