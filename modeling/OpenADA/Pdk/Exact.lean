import OpenADA.Pdk.Numbers

/-! When the numbers of a binding are exact: what is read, what is printed, and what is put into the
unit of a PDK. -/
namespace OpenADA.Pdk

open DecimalContext PyDecimal
open Scalars

section Reading

variable {arithmetic : Arithmetic} {text : List Char} {value : FiniteDecimal}

/-- A text that is read denotes a number, and it is read exactly where that number fits. -/
theorem parse_value_eq_iff (h : parseSpiceNumber arithmetic text = .ok value) :
    ∃ q, denoted arithmetic text = some q ∧ (value.value = q ↔ bindingContext.Fits q) := by
  obtain ⟨literal, scale, -, -, -, hdenoted, hproduct⟩ := parse_ok h
  exact ⟨_, hdenoted, Context.mul_value_eq_iff hproduct⟩

theorem parse_bounds (h : parseSpiceNumber arithmetic text = .ok value) :
    value.coefficient < 10 ^ bindingContext.prec ∧ bindingContext.Fits value.value := by
  obtain ⟨literal, scale, -, -, -, -, hproduct⟩ := parse_ok h
  exact ⟨(Context.bounds_of_fix hproduct).1, Context.fits_of_fix hproduct⟩

/-- A literal of few digits is refused only where its number is too large. -/
theorem exists_parse {literal : Literal} {q : ℚ}
    (hliteral : spiceLiteral arithmetic text = some literal)
    (hdenoted : denoted arithmetic text = some q)
    (hdigits : (significantDigits literal.number).length ≤ 200)
    (hreads : arithmetic.decimalReads literal.number = true)
    (hlarge : ¬ bindingContext.Overflows q) :
    ∃ value, parseSpiceNumber arithmetic text = .ok value := by
  rw [denoted, hliteral, Option.bind_eq_bind, Option.bind_some] at hdenoted
  obtain ⟨scale, hscale, hq⟩ := Option.bind_eq_some_iff.mp hdenoted
  rw [parameterScale_eq] at hscale
  obtain ⟨factor, hfactor, rfl⟩ := Option.map_eq_some_iff.mp hscale
  rw [← decimalOfNumber_value, ← Context.exactProduct_value] at hq
  obtain rfl := Option.some.inj hq
  cases hproduct : bindingContext.mul (decimalOfNumber arithmetic literal.number) factor with
  | none => exact absurd (Context.fix_eq_none_iff.mp hproduct) hlarge
  | some value =>
    refine ⟨value, ?_⟩
    rw [parseSpiceNumber, hliteral]
    simp only [if_neg (not_lt.mpr hdigits), hreads, hfactor, hproduct, if_true]

/-- `parse_spice_number` refuses a text or reads what it denotes. -/
def ReadExactly (arithmetic : Arithmetic) (text : List Char) : Prop :=
  ∀ value, parseSpiceNumber arithmetic text = .ok value →
    denoted arithmetic text = some value.value

/-- A literal that the reader does not refuse for its digits or its exponent denotes a number of at
most 200 digits, none of them below the least exponent, or one that is too large. -/
def LiteralSettled (arithmetic : Arithmetic) (text : List Char) : Prop :=
  ∀ literal q, spiceLiteral arithmetic text = some literal → denoted arithmetic text = some q →
    (significantDigits literal.number).length ≤ 200 →
    arithmetic.decimalReads literal.number = true →
    bindingContext.Fits q ∨ bindingContext.Overflows q

theorem readExactly_iff : ReadExactly arithmetic text ↔ LiteralSettled arithmetic text := by
  constructor
  · intro h literal q hliteral hdenoted hdigits hreads
    by_cases hlarge : bindingContext.Overflows q
    · exact Or.inr hlarge
    · obtain ⟨value, hvalue⟩ := exists_parse hliteral hdenoted hdigits hreads hlarge
      obtain ⟨_, hq, hiff⟩ := parse_value_eq_iff hvalue
      rw [h value hvalue] at hq
      rw [h value hvalue] at hdenoted
      obtain rfl := Option.some.inj hq
      obtain rfl := Option.some.inj hdenoted
      exact Or.inl (hiff.mp rfl)
  · intro h value hvalue
    obtain ⟨literal, scale, hliteral, hdigits, hreads, hdenoted, hproduct⟩ := parse_ok hvalue
    rw [hdenoted, Option.some_inj, ← Context.exactProduct_value]
    rcases h literal _ hliteral hdenoted hdigits hreads with hfits | hlarge
    · rw [← Context.exactProduct_value] at hfits
      exact (Context.fix_of_fits hproduct hfits).symm
    · rw [← Context.exactProduct_value, ← Context.fix_eq_none_iff] at hlarge
      rw [Context.mul, hlarge] at hproduct
      cases hproduct

end Reading

section Printing

variable {arithmetic : Arithmetic} {text : List Char} {number : FiniteDecimal}

def printBound : ℚ := 10 ^ (200 : ℤ)

theorem print_normalized {normalized : FiniteDecimal} (h : 0 < normalized.exponent) :
    denoted arithmetic (fixedText ⟨normalized.negative,
      normalized.coefficient * 10 ^ normalized.exponent.toNat, 0⟩) = some normalized.value := by
  rw [denoted_fixedText le_rfl, Option.some_inj]
  have hpow : (10 : ℚ) ^ normalized.exponent = 10 ^ normalized.exponent.toNat := by
    rw [← zpow_natCast]
    congr 1
    omega
  simp only [FiniteDecimal.value, FiniteDecimal.magnitude, hpow]
  push_cast
  rw [mul_one]

/-- A finite decimal is printed as the context rounds it, and refused where that is too long. -/
theorem formatNumber_finite {rounded : FiniteDecimal}
    (hrounded : bindingContext.fix number = some rounded) :
    (|rounded.value| < printBound → ∃ text, formatNumber (.finite number) = .ok text ∧
      denoted arithmetic text = some rounded.value) ∧
    (printBound ≤ |rounded.value| →
      formatNumber (.finite number) = .error (.request "pdk.parameter.invalid")) := by
  obtain ⟨normalized, hnormalized⟩ : ∃ normalized,
      bindingContext.normalize number = some normalized := by
    rw [Context.normalize, hrounded]
    exact ⟨_, rfl⟩
  obtain ⟨_, hfix, hvalue, hle⟩ := Context.normalize_value hnormalized
  rw [hrounded] at hfix
  obtain rfl := Option.some.inj hfix
  have hdigits := lt_of_le_of_lt hle (Context.bounds_of_fix hrounded).1
  rw [← hvalue, normalized.abs_value]
  simp only [formatNumber, hnormalized]
  by_cases hexponent : 0 < normalized.exponent
  · have hne : normalized.coefficient ≠ 0 := by
      intro hzero
      rw [Context.exponent_of_normalize hnormalized hzero] at hexponent
      exact absurd hexponent (lt_irrefl 0)
    rw [if_pos hexponent]
    have hlow := FiniteDecimal.le_magnitude hne
    have hhigh := normalized.magnitude_lt
    by_cases hlong : (bindingContext.prec : ℤ) <
        digitCount normalized.coefficient + normalized.exponent
    · rw [if_pos hlong]
      have hbound : printBound ≤ normalized.magnitude := by
        refine le_trans (zpow_le_zpow_right₀ (by norm_num) ?_) hlow
        have : (bindingContext.prec : ℤ) = 200 := rfl
        omega
      exact ⟨fun hlt => absurd hbound (not_le.mpr hlt), fun _ => rfl⟩
    · rw [if_neg hlong]
      have hbound : normalized.magnitude < printBound := by
        refine lt_of_lt_of_le hhigh (zpow_le_zpow_right₀ (by norm_num) ?_)
        have : (bindingContext.prec : ℤ) = 200 := rfl
        omega
      exact ⟨fun _ => ⟨_, rfl, print_normalized hexponent⟩,
        fun hle => absurd hbound (not_lt.mpr hle)⟩
  · rw [if_neg hexponent]
    have hbound : normalized.magnitude < printBound := by
      have hpow : (10 : ℚ) ^ normalized.exponent ≤ 1 :=
        zpow_le_one_of_nonpos₀ (by norm_num) (not_lt.mp hexponent)
      have hcast : (normalized.coefficient : ℚ) < 10 ^ bindingContext.prec := by
        exact_mod_cast hdigits
      calc normalized.magnitude ≤ normalized.coefficient * 1 := by
            rw [FiniteDecimal.magnitude]
            gcongr
        _ < printBound := by
            rw [mul_one]
            exact hcast
    exact ⟨fun _ => ⟨_, rfl, denoted_fixedText (not_lt.mp hexponent)⟩,
      fun hle => absurd hbound (not_lt.mpr hle)⟩

theorem denoted_of_format (h : formatNumber (.finite number) = .ok text) :
    ∃ rounded, bindingContext.fix number = some rounded ∧
      denoted arithmetic text = some rounded.value := by
  cases hrounded : bindingContext.fix number with
  | none =>
    rw [formatNumber, Context.normalize, hrounded] at h
    cases h
  | some rounded =>
    refine ⟨rounded, rfl, ?_⟩
    obtain ⟨hprinted, hrefused⟩ := @formatNumber_finite arithmetic number rounded hrounded
    rcases lt_or_ge |rounded.value| printBound with hlt | hge
    · obtain ⟨printed, hformat, hdenoted⟩ := hprinted hlt
      rw [h] at hformat
      obtain rfl := Except.ok.inj hformat
      exact hdenoted
    · rw [hrefused hge] at h
      cases h

/-- `_format_number` refuses a decimal or prints a literal that denotes it. -/
def PrintedExactly (arithmetic : Arithmetic) (decimal : Decimal) : Prop :=
  ∀ text, formatNumber decimal = .ok text →
    ∃ q, decimal.value = some q ∧ denoted arithmetic text = some q

/-- A finite decimal of at most 200 digits, none of them below the least exponent, or one so large
that it is refused, or a signaling NaN. -/
def Printable : Decimal → Prop
  | .finite number => bindingContext.Fits number.value ∨ 10 ^ 200 - 1 / 2 ≤ |number.value|
  | .infinite _ => False
  | .nan _ signaling _ => signaling = true

theorem printBound_le_iff {rounded : FiniteDecimal}
    (hrounded : bindingContext.fix number = some rounded) :
    printBound ≤ |rounded.value| ↔ 10 ^ 200 - 1 / 2 ≤ |number.value| := by
  have hiff := @Context.pow_le_fix_iff bindingContext number rounded 200 hrounded (by decide)
  have hunit : (10 : ℚ) ^ ((200 : ℤ) - bindingContext.prec) = 1 := rfl
  rw [hunit] at hiff
  exact hiff

theorem large_of_fix_none (h : bindingContext.fix number = none) :
    10 ^ 200 - 1 / 2 ≤ |number.value| := by
  have hlarge := Context.fix_eq_none_iff.mp h
  have hhalf := (Context.half_unit_lt bindingContext (bindingContext.emax + 1)).le
  have hpow : (10 : ℚ) ^ (200 : ℤ) ≤ 10 ^ (bindingContext.emax + 1 - 1) :=
    zpow_le_zpow_right₀ (by norm_num) (by decide)
  have hsmall : (10 : ℚ) ^ 200 - 1 / 2 ≤ 10 ^ (200 : ℤ) := sub_le_self _ (by norm_num)
  exact hsmall.trans (hpow.trans (hhalf.trans hlarge))

theorem printedExactly_iff (decimal : Decimal) :
    PrintedExactly arithmetic decimal ↔ Printable decimal := by
  cases decimal with
  | finite number =>
    cases hrounded : bindingContext.fix number with
    | none =>
      refine ⟨fun _ => Or.inr (large_of_fix_none hrounded), fun _ text htext => ?_⟩
      obtain ⟨rounded, hsome, -⟩ := @denoted_of_format arithmetic text number htext
      rw [hrounded] at hsome
      cases hsome
    | some rounded =>
      obtain ⟨hprinted, hrefused⟩ := @formatNumber_finite arithmetic number rounded hrounded
      rw [Printable, ← printBound_le_iff hrounded]
      constructor
      · intro h
        rcases lt_or_ge |rounded.value| printBound with hlt | hge
        · obtain ⟨text, htext, hdenoted⟩ := hprinted hlt
          obtain ⟨q, hq, hexact⟩ := h text htext
          rw [hdenoted, ← hq] at hexact
          exact Or.inl ((Context.fix_value_eq_iff hrounded).mp (Option.some.inj hexact))
        · exact Or.inr hge
      · rintro (hfits | hlarge) text htext
        · obtain ⟨again, hsome, hdenoted⟩ := @denoted_of_format arithmetic text number htext
          rw [hrounded] at hsome
          obtain rfl := Option.some.inj hsome
          exact ⟨_, rfl, by rw [hdenoted, Context.fix_of_fits hrounded hfits]⟩
        · rw [hrefused hlarge] at htext
          cases htext
  | infinite negative =>
    refine ⟨fun h => ?_, False.elim⟩
    obtain ⟨q, hq, -⟩ := h _ rfl
    cases hq
  | nan negative signaling payload =>
    cases signaling with
    | true =>
      refine ⟨fun _ => rfl, fun _ text htext => ?_⟩
      cases htext
    | false =>
      refine ⟨fun h => ?_, fun h => nomatch h⟩
      obtain ⟨q, hq, -⟩ := h _ rfl
      cases hq

end Printing

end OpenADA.Pdk
