import OpenADA.Library.DecimalContext
import OpenADA.Scalars.Readers
import OpenADA.Pdk.Registry

/-! The numbers of a binding: how the text of one is read, how a decimal is printed, and how a
length or an area is put into the unit of a PDK. -/
namespace OpenADA.Pdk

open DecimalContext PyDecimal
open Scalars

/-- `_BINDING_DECIMAL_CONTEXT`. -/
def bindingContext : Context where
  prec := 200
  emax := 999999
  emin := -999999
  prec_pos := by decide
  emin_lt := by decide

inductive Decimal where
  | finite (number : FiniteDecimal)
  | infinite (negative : Bool)
  | nan (negative signaling : Bool) (payload : ℕ)

def Decimal.value : Decimal → Option ℚ
  | .finite number => some number.value
  | .infinite _ => none
  | .nan _ _ _ => none

def signText (negative : Bool) : List Char := if negative then ['-'] else []

/-- `format(number, "f")`, and `str(number)` where the exponent is zero. -/
def fixedText (number : FiniteDecimal) : List Char :=
  signText number.negative ++
    (plainDigits (Nat.toDigits 10 number.coefficient) number.exponent).toList

/-- `_format_number`. -/
def formatNumber : Decimal → Except BindFault (List Char)
  | .finite number =>
    match bindingContext.normalize number with
    | none => .error (.request "pdk.parameter.invalid")
    | some normalized =>
      if 0 < normalized.exponent then
        -- `quantize` refuses a coefficient of more digits than the context has
        if bindingContext.prec < digitCount normalized.coefficient + normalized.exponent then
          .error (.request "pdk.parameter.invalid")
        else
          .ok (fixedText ⟨normalized.negative,
            normalized.coefficient * 10 ^ normalized.exponent.toNat, 0⟩)
      else .ok (fixedText normalized)
  | .infinite negative => .ok (signText negative ++ "Infinity".toList)
  | .nan negative signaling payload =>
    if signaling then .error (.request "pdk.parameter.invalid")
    else
      let kept := payload % 10 ^ bindingContext.prec
      .ok (signText negative ++ "NaN".toList ++ if kept = 0 then [] else Nat.toDigits 10 kept)

/-- `_SPICE_SCALE`. -/
def spiceScaleDecimals : List (List Char × FiniteDecimal) :=
  [([], ⟨false, 1, 0⟩), (['t'], ⟨false, 1, 12⟩), (['g'], ⟨false, 1, 9⟩),
    (['m', 'e', 'g'], ⟨false, 1, 6⟩), (['k'], ⟨false, 1, 3⟩), (['m', 'i', 'l'], ⟨false, 254, -7⟩),
    (['m'], ⟨false, 1, -3⟩), (['u'], ⟨false, 1, -6⟩), (['n'], ⟨false, 1, -9⟩),
    (['p'], ⟨false, 1, -12⟩), (['f'], ⟨false, 1, -15⟩)]

section Reading

variable (arithmetic : Arithmetic)

/-- The literal that `SPICE_NUMBER_RE` finds in a text. -/
def spiceLiteral (text : List Char) : Option Literal :=
  literalOf arithmetic.isDigit arithmetic.digit isLetterIgnoringCase (withoutNewline text)

/-- `Decimal(number)`. -/
def decimalOfNumber (number : Number) : FiniteDecimal :=
  ⟨number.negative, natOf arithmetic.digit (number.whole ++ number.fraction),
    number.exponent - number.fraction.length⟩

/-- `parse_spice_number`. A suffix that the table does not hold raises a KeyError. -/
def parseSpiceNumber (text : List Char) : Except BindFault FiniteDecimal :=
  match spiceLiteral arithmetic text with
  | none => .error (.request "pdk.parameter.unparsable")
  | some literal =>
    if 200 < (significantDigits literal.number).length then
      .error (.request "pdk.parameter.unparsable")
    else if arithmetic.decimalReads literal.number then
      match spiceScaleDecimals.lookup ((suffixOf literal.letters).flatMap lowerLetter) with
      | none => .error (.request "KeyError")
      | some scale =>
        match bindingContext.mul (decimalOfNumber arithmetic literal.number) scale with
        | none => .error (.request "pdk.parameter.unparsable")
        | some value => .ok value
    else .error (.request "pdk.parameter.unparsable")

def denoted (text : List Char) : Option ℚ := do
  let literal ← spiceLiteral arithmetic text
  let scale ← parameterScale literal.letters
  some (literal.number.value arithmetic.digit * scale)

end Reading

/-- `_rescaled`: the quotient by the unit of a PDK, or by its square; an overflow raises. -/
def rescaled (si divisor : FiniteDecimal) (squared : Bool) : Option FiniteDecimal :=
  if squared then
    match bindingContext.mul divisor divisor with
    | none => none
    | some square => bindingContext.div si square
  else bindingContext.div si divisor

section Scales

theorem spiceScaleDecimals_value :
    spiceScaleDecimals.map (fun entry => (entry.1, entry.2.value)) = spiceScale := by
  decide +kernel

theorem lookup_map_value {α β γ : Type} [BEq α] (f : β → γ) (entries : List (α × β)) (key : α) :
    (entries.map fun entry => (entry.1, f entry.2)).lookup key = (entries.lookup key).map f := by
  induction entries with
  | nil => rfl
  | cons entry rest ih =>
    rw [List.map_cons, List.lookup_cons, List.lookup_cons]
    cases key == entry.1 with
    | true => rfl
    | false => exact ih

theorem parameterScale_eq (letters : List Char) :
    parameterScale letters = (spiceScaleDecimals.lookup
      ((suffixOf letters).flatMap lowerLetter)).map FiniteDecimal.value := by
  rw [parameterScale, ← spiceScaleDecimals_value]
  exact lookup_map_value FiniteDecimal.value _ _

theorem decimalOfNumber_value (arithmetic : Arithmetic) (number : Number) :
    (decimalOfNumber arithmetic number).value = number.value arithmetic.digit := by
  rw [Number.value, mul_assoc]
  rfl

end Scales

section Reading

variable {arithmetic : Arithmetic} {text : List Char} {value : FiniteDecimal}

/-- A value that is read is the product of its number and its scale, as the context rounds it. -/
theorem parse_ok (h : parseSpiceNumber arithmetic text = .ok value) :
    ∃ literal scale, spiceLiteral arithmetic text = some literal ∧
      (significantDigits literal.number).length ≤ 200 ∧
      arithmetic.decimalReads literal.number = true ∧
      denoted arithmetic text = some ((decimalOfNumber arithmetic literal.number).value *
        FiniteDecimal.value scale) ∧
      bindingContext.mul (decimalOfNumber arithmetic literal.number) scale = some value := by
  unfold parseSpiceNumber at h
  cases hliteral : spiceLiteral arithmetic text with
  | none =>
    rw [hliteral] at h
    cases h
  | some literal =>
    simp only [hliteral] at h
    split_ifs at h with hdigits hreads
    cases hscale : spiceScaleDecimals.lookup ((suffixOf literal.letters).flatMap lowerLetter) with
    | none =>
      rw [hscale] at h
      cases h
    | some scale =>
      simp only [hscale] at h
      cases hproduct : bindingContext.mul (decimalOfNumber arithmetic literal.number) scale with
      | none =>
        rw [hproduct] at h
        cases h
      | some product =>
        rw [hproduct] at h
        obtain rfl := Except.ok.inj h
        refine ⟨literal, scale, rfl, not_lt.mp hdigits, hreads, ?_, hproduct⟩
        have hexact : parameterScale literal.letters = some scale.value := by
          rw [parameterScale_eq, hscale]
          rfl
        rw [denoted, hliteral, decimalOfNumber_value]
        show (parameterScale literal.letters).bind _ = _
        rw [hexact]
        rfl

end Reading

section Printing

variable {arithmetic : Arithmetic}

/-- Characters between `0` and `9`. -/
def AreDigits (text : List Char) : Prop := ∀ c ∈ text, c.isDigit = true

theorem areDigits_toDigits (n : ℕ) : AreDigits (Nat.toDigits 10 n) :=
  fun _ hc => Nat.isDigit_of_mem_toDigits (by decide) (by decide) hc

theorem AreDigits.subset {text part : List Char} (h : AreDigits text) (hsubset : part ⊆ text) :
    AreDigits part :=
  fun c hc => h c (hsubset hc)

theorem AreDigits.isDigit {text : List Char} (h : AreDigits text) :
    ∀ c ∈ text, arithmetic.isDigit c = true := by
  intro c hc
  rw [arithmetic.ascii c (toNat_lt_of_isAlphanum (isAlphanum_of_isDigit (h c hc)))]
  exact h c hc

theorem natOf_digits {text : List Char} (h : AreDigits text) :
    natOf arithmetic.digit text = Nat.ofDigitChars 10 text 0 := by
  unfold natOf
  rw [Nat.ofDigitChars_eq_foldl]
  generalize 0 = start
  induction text generalizing start with
  | nil => rfl
  | cons c rest ih =>
    rw [List.foldl_cons, List.foldl_cons,
      arithmetic.digit_ascii c (h c (List.mem_cons_self ..)),
      ih (h.subset (List.subset_cons_self c rest))]
    rfl

theorem withoutNewline_of_notMem {text : List Char} (h : '\n' ∉ text) :
    withoutNewline text = text := by
  unfold withoutNewline
  rw [if_neg]
  intro hlast
  exact h (List.mem_of_getLast? hlast)

/-- The digits of a number are read up to the first character that is none. -/
theorem span_digits {text rest : List Char} (h : AreDigits text)
    (hrest : rest.head? = none ∨ rest.head? = some '.') :
    (text ++ rest).takeWhile arithmetic.isDigit = text ∧
      (text ++ rest).dropWhile arithmetic.isDigit = rest := by
  have hstop : rest.takeWhile arithmetic.isDigit = [] ∧
      rest.dropWhile arithmetic.isDigit = rest := by
    cases rest with
    | nil => exact ⟨rfl, rfl⟩
    | cons c more =>
      rcases hrest with hnone | hpoint
      · cases hnone
      · obtain rfl := Option.some.inj hpoint
        have hmark : arithmetic.isDigit '.' = false := arithmetic.ascii '.' (by decide)
        rw [List.takeWhile_cons, List.dropWhile_cons, hmark]
        exact ⟨rfl, rfl⟩
  rw [List.takeWhile_append_of_pos h.isDigit, List.dropWhile_append_of_pos h.isDigit, hstop.1,
    hstop.2, List.append_nil]
  exact ⟨rfl, rfl⟩

theorem signOf_signText (negative : Bool) {text : List Char}
    (h : ∀ c ∈ text.head?, c.isDigit = true) : signOf (signText negative ++ text) =
      (negative, text) := by
  cases negative with
  | true => rfl
  | false =>
    show signOf text = _
    unfold signOf
    rw [if_neg, if_neg]
    · intro hplus
      exact absurd (h '+' hplus) (by decide)
    · intro hminus
      exact absurd (h '-' hminus) (by decide)

def pointText (fraction : Option (List Char)) : List Char := fraction.elim [] ('.' :: ·)

/-- A sign, digits, and a point with digits behind it are read as they stand. -/
theorem numberOf_printed (negative : Bool) {whole : List Char} {fraction : Option (List Char)}
    (hwhole : AreDigits whole) (hne : whole ≠ []) (hfraction : AreDigits (fraction.getD [])) :
    numberOf arithmetic.isDigit arithmetic.digit
        (signText negative ++ (whole ++ pointText fraction)) =
      some (⟨negative, whole, fraction.getD [], 0⟩, []) := by
  have hhead : ∀ c ∈ (whole ++ pointText fraction).head?, c.isDigit = true := by
    obtain ⟨d, more, rfl⟩ := List.exists_cons_of_ne_nil hne
    intro c hc
    obtain rfl := Option.some.inj hc
    exact hwhole _ (List.mem_cons_self ..)
  have hspan := @span_digits arithmetic whole (pointText fraction) hwhole (by
    cases fraction with
    | none => exact Or.inl rfl
    | some digits => exact Or.inr rfl)
  simp only [numberOf, signOf_signText negative hhead, hspan.1, hspan.2]
  have hpoint : fractionOf arithmetic.isDigit (pointText fraction) = (fraction.getD [], []) := by
    cases fraction with
    | none => rfl
    | some digits =>
      have hrest := @span_digits arithmetic digits [] hfraction (Or.inl rfl)
      rw [List.append_nil] at hrest
      show (digits.takeWhile _, digits.dropWhile _) = _
      rw [hrest.1, hrest.2]
      rfl
  rw [hpoint, if_neg (fun h => hne h.1)]
  rfl

/-- The text of a decimal is its digits, with a point among them where the exponent is negative. -/
theorem fixedText_eq {number : FiniteDecimal} (h : number.exponent ≤ 0) :
    ∃ (whole : List Char) (fraction : Option (List Char)), AreDigits whole ∧ whole ≠ [] ∧
      AreDigits (fraction.getD []) ∧
      fixedText number = signText number.negative ++ (whole ++ pointText fraction) ∧
      Nat.ofDigitChars 10 (whole ++ fraction.getD []) 0 = number.coefficient ∧
      ((fraction.getD []).length : ℤ) = -number.exponent := by
  have hdigits := areDigits_toDigits number.coefficient
  by_cases hzero : number.exponent = 0
  · refine ⟨Nat.toDigits 10 number.coefficient, none, hdigits, Nat.toDigits_ne_nil, ?_, ?_, ?_, ?_⟩
    · exact fun c hc => absurd hc List.not_mem_nil
    · simp [fixedText, plainDigits, hzero, pointText]
    · simp
    · simp [hzero]
  · let places := number.exponent.natAbs
    let padded := List.replicate (places + 1 - (Nat.toDigits 10 number.coefficient).length) '0' ++
      Nat.toDigits 10 number.coefficient
    have hlength : places + 1 ≤ padded.length := by
      rw [List.length_append, List.length_replicate]
      omega
    have hpadded : AreDigits padded := by
      intro c hc
      rcases List.mem_append.mp hc with hc | hc
      · rw [List.eq_of_mem_replicate hc]
        rfl
      · exact hdigits c hc
    refine ⟨padded.take (padded.length - places), some (padded.drop (padded.length - places)),
      hpadded.subset (List.take_subset _ _), ?_, hpadded.subset (List.drop_subset _ _), ?_, ?_, ?_⟩
    · rw [← List.length_pos_iff, List.length_take]
      omega
    · rw [fixedText, plainDigits, if_neg (by omega)]
      simp [pointText, padded, places]
    · rw [Option.getD_some, List.take_append_drop]
      simp only [padded, Nat.ofDigitChars_append, Nat.ofDigitChars_replicate_zero, mul_zero]
      exact Nat.ofDigitChars_ten_toDigits
    · rw [Option.getD_some, List.length_drop]
      omega

theorem denoted_fixedText {number : FiniteDecimal} (h : number.exponent ≤ 0) :
    denoted arithmetic (fixedText number) = some number.value := by
  obtain ⟨whole, fraction, hwhole, hne, hfraction, htext, hcoefficient, hlength⟩ := fixedText_eq h
  have hnumber := @numberOf_printed arithmetic number.negative whole fraction hwhole hne hfraction
  have hline : '\n' ∉ fixedText number := by
    rw [htext]
    intro hmem
    rcases List.mem_append.mp hmem with hmem | hmem
    · cases hnegative : number.negative <;> rw [hnegative] at hmem <;> revert hmem <;> decide
    · rcases List.mem_append.mp hmem with hmem | hmem
      · exact absurd (hwhole _ hmem) (by decide)
      · cases fraction with
        | none => exact absurd hmem List.not_mem_nil
        | some digits =>
          rcases List.mem_cons.mp hmem with hmem | hmem
          · revert hmem
            decide
          · exact absurd (hfraction _ hmem) (by decide)
  have hliteral : spiceLiteral arithmetic (fixedText number) =
      some ⟨⟨number.negative, whole, fraction.getD [], 0⟩, []⟩ := by
    rw [spiceLiteral, withoutNewline_of_notMem hline, literalOf_eq_some, htext]
    exact ⟨hnumber, rfl⟩
  have hdigits : AreDigits (whole ++ fraction.getD []) := by
    intro c hc
    rcases List.mem_append.mp hc with hc | hc
    · exact hwhole c hc
    · exact hfraction c hc
  have hvalue : Number.value arithmetic.digit ⟨number.negative, whole, fraction.getD [], 0⟩ =
      number.value := by
    rw [Number.value, natOf_digits hdigits, hcoefficient, hlength, FiniteDecimal.value,
      FiniteDecimal.magnitude, zero_sub, neg_neg, mul_assoc]
  rw [denoted, hliteral, ← hvalue]
  show some (_ * 1) = _
  rw [mul_one]

end Printing

end OpenADA.Pdk
