import OpenADA.Experiment.Scalars
import OpenADA.Library.DecimalRound
import OpenADA.Scalars.Agreement

/-! The tokens of the numbers in a deck: each is read back as its number, and equal numbers have
one token. -/
namespace OpenADA.Compiler

open DecimalContext PyDecimal
open Pdk (fixedText signText AreDigits pointText)
open Scalars (Arithmetic Number numberOf signOf fractionOf exponentOf natOf)
open Experiment (PlainNumeral)

def defaultContext : Context where
  prec := 28
  emax := 999999
  emin := -999999
  prec_pos := by decide
  emin_lt := defaultExponents_lt

/-- `adjusted()`: the exponent of the first digit. -/
def adjustedExponent (value : FiniteDecimal) : ℤ :=
  value.exponent + digitCount value.coefficient - 1

/-- `str` of an integer. -/
def intText (n : ℤ) : List Char := signText (decide (n < 0)) ++ Nat.toDigits 10 n.natAbs

def mantissaText : List Char → List Char
  | [] => []
  | [digit] => [digit]
  | digit :: next :: rest => digit :: '.' :: next :: rest

/-- `_number_token`; a number that is too large for the context raises. -/
def numberToken (value : FiniteDecimal) : Option (List Char) :=
  if value.coefficient = 0 then some ['0']
  else (defaultContext.normalize value).map fun value =>
    let adjusted := adjustedExponent value
    if -3 ≤ adjusted ∧ adjusted ≤ 6 then fixedText value
    else signText value.negative ++ (mantissaText (Nat.toDigits 10 value.coefficient) ++
      'e' :: intText adjusted)

section Reading

variable (arithmetic : Arithmetic)

/-- The text is read as a number of the given value, and as nothing else. -/
def Denotes (token : List Char) (value : ℚ) : Prop :=
  ∃ number : Number, numberOf arithmetic.isDigit arithmetic.digit token = some (number, []) ∧
    number.value arithmetic.digit = value

variable {arithmetic} {token : List Char} {p q : ℚ}

theorem Denotes.unique (hp : Denotes arithmetic token p) (hq : Denotes arithmetic token q) :
    p = q := by
  obtain ⟨number, hnumber, rfl⟩ := hp
  obtain ⟨other, hother, rfl⟩ := hq
  rw [(Prod.mk.inj (Option.some.inj (hnumber.symm.trans hother))).1]

theorem denotes_of_plain (h : PlainNumeral arithmetic token p) : Denotes arithmetic token p := by
  obtain ⟨number, hnumber, hvalue⟩ := h.reads
  exact ⟨number, (Scalars.literalOf_eq_some.mp hnumber).1, hvalue⟩

theorem span_until {text rest : List Char} (h : AreDigits text)
    (hrest : ∀ c ∈ rest.head?, arithmetic.isDigit c = false) :
    (text ++ rest).takeWhile arithmetic.isDigit = text ∧
      (text ++ rest).dropWhile arithmetic.isDigit = rest := by
  have hstop : rest.takeWhile arithmetic.isDigit = [] ∧
      rest.dropWhile arithmetic.isDigit = rest := by
    cases rest with
    | nil => exact ⟨rfl, rfl⟩
    | cons c more =>
      rw [List.takeWhile_cons, List.dropWhile_cons, hrest c rfl]
      exact ⟨rfl, rfl⟩
  rw [List.takeWhile_append_of_pos h.isDigit, List.dropWhile_append_of_pos h.isDigit, hstop.1,
    hstop.2, List.append_nil]
  exact ⟨rfl, rfl⟩

theorem exponentOf_intText (k : ℤ) :
    exponentOf arithmetic.isDigit arithmetic.digit ('e' :: intText k) = (k, []) := by
  have hdigits := Pdk.areDigits_toDigits k.natAbs
  have hne : Nat.toDigits 10 k.natAbs ≠ [] := Nat.toDigits_ne_nil
  have hsign : signOf (intText k) = (decide (k < 0), Nat.toDigits 10 k.natAbs) := by
    apply Pdk.signOf_signText
    intro c hc
    exact hdigits c (List.mem_of_mem_head? hc)
  have hspan := @span_until arithmetic _ [] hdigits (by simp)
  rw [List.append_nil] at hspan
  have hvalue : natOf arithmetic.digit (Nat.toDigits 10 k.natAbs) = k.natAbs := by
    rw [Pdk.natOf_digits hdigits, Nat.ofDigitChars_ten_toDigits]
  have hmark : ('e' :: intText k).head? = some 'e' ∨ ('e' :: intText k).head? = some 'E' :=
    Or.inl rfl
  rw [exponentOf, if_pos hmark, List.tail_cons, hsign]
  dsimp only
  rw [hspan.1, hspan.2, if_neg hne, hvalue]
  congr 1
  by_cases hnegative : k < 0
  · rw [decide_eq_true hnegative, if_pos rfl]
    omega
  · rw [decide_eq_false hnegative, if_neg Bool.false_ne_true]
    omega

/-- A sign, a digit with others behind a point, and an exponent are read as they stand. -/
theorem numberOf_scientific (negative : Bool) {digit : Char} {fraction : Option (List Char)}
    (hdigit : digit.isDigit = true) (hfraction : AreDigits (fraction.getD [])) (k : ℤ) :
    numberOf arithmetic.isDigit arithmetic.digit
        (signText negative ++ (digit :: pointText fraction ++ 'e' :: intText k)) =
      some (⟨negative, [digit], fraction.getD [], k⟩, []) := by
  have hletter : arithmetic.isDigit 'e' = false := arithmetic.ascii 'e' (by decide)
  have hpoint : arithmetic.isDigit '.' = false := arithmetic.ascii '.' (by decide)
  have hsign := @Pdk.signOf_signText negative
    (digit :: pointText fraction ++ 'e' :: intText k) (by
      intro c hc
      obtain rfl := Option.some.inj hc
      exact hdigit)
  have hspan := @span_until arithmetic [digit] (pointText fraction ++ 'e' :: intText k)
    (List.forall_mem_singleton.mpr hdigit) (by
      intro c hc
      cases fraction with
      | none =>
        obtain rfl := Option.some.inj hc
        exact hletter
      | some digits =>
        obtain rfl := Option.some.inj hc
        exact hpoint)
  have hbehind : fractionOf arithmetic.isDigit (pointText fraction ++ 'e' :: intText k) =
      (fraction.getD [], 'e' :: intText k) := by
    cases fraction with
    | none => rfl
    | some digits =>
      have hrest := @span_until arithmetic digits ('e' :: intText k) hfraction (by
        intro c hc
        obtain rfl := Option.some.inj hc
        exact hletter)
      show ((digits ++ 'e' :: intText k).takeWhile _, (digits ++ 'e' :: intText k).dropWhile _) = _
      rw [hrest.1, hrest.2]
      rfl
  rw [numberOf, hsign]
  dsimp only
  rw [List.cons_append, ← List.singleton_append, hspan.1, hspan.2, hbehind]
  dsimp only
  rw [exponentOf_intText, if_neg fun h => List.cons_ne_nil _ _ h.1]

theorem mantissaText_cons (digit : Char) (rest : List Char) :
    ∃ fraction, mantissaText (digit :: rest) = digit :: pointText fraction ∧
      fraction.getD [] = rest := by
  cases rest with
  | nil => exact ⟨none, rfl, rfl⟩
  | cons next rest => exact ⟨some (next :: rest), rfl, rfl⟩

end Reading

section Tokens

variable {arithmetic : Arithmetic} {x y z w : FiniteDecimal}

theorem toDigits_mul_pow {coefficient : ℕ} (h : coefficient ≠ 0) (zeros : ℕ) :
    Nat.toDigits 10 (coefficient * 10 ^ zeros) =
      Nat.toDigits 10 coefficient ++ List.replicate zeros '0' := by
  induction zeros with
  | zero => simp
  | succ zeros ih =>
    have hne : coefficient * 10 ^ zeros ≠ 0 := by positivity
    rw [pow_succ, ← mul_assoc, Experiment.toDigits_mul_ten hne, ih, List.append_assoc,
      ← List.replicate_succ']

theorem denotes_fixedText (hz : z.coefficient ≠ 0) :
    Denotes arithmetic (fixedText z) z.value := by
  rcases le_or_gt z.exponent 0 with hle | hlt
  · exact denotes_of_plain (Experiment.plainNumeral_fixedText hle)
  · obtain ⟨negative, coefficient, exponent⟩ := z
    have hlt : 0 < exponent := hlt
    have hpow : (10 : ℚ) ^ exponent = 10 ^ exponent.toNat := by
      rw [← zpow_natCast]
      congr 1
      omega
    have hvalue : FiniteDecimal.value ⟨negative, coefficient * 10 ^ exponent.toNat, 0⟩ =
        FiniteDecimal.value ⟨negative, coefficient, exponent⟩ := by
      simp only [FiniteDecimal.value, FiniteDecimal.magnitude, hpow]
      push_cast
      rw [mul_one]
    have htext : fixedText ⟨negative, coefficient, exponent⟩ =
        fixedText ⟨negative, coefficient * 10 ^ exponent.toNat, 0⟩ := by
      rw [Experiment.fixedText_whole hlt.le, Experiment.fixedText_whole le_rfl,
        toDigits_mul_pow hz]
      simp
    rw [htext, ← hvalue]
    exact denotes_of_plain (Experiment.plainNumeral_fixedText le_rfl)

theorem denotes_scientific (z : FiniteDecimal) :
    Denotes arithmetic (signText z.negative ++ (mantissaText (Nat.toDigits 10 z.coefficient) ++
      'e' :: intText (adjustedExponent z))) z.value := by
  have hdigits := Pdk.areDigits_toDigits z.coefficient
  obtain ⟨digit, rest, hsplit⟩ := List.exists_cons_of_ne_nil
    (Nat.toDigits_ne_nil : Nat.toDigits 10 z.coefficient ≠ [])
  obtain ⟨fraction, hmantissa, hfraction⟩ := mantissaText_cons digit rest
  have hcount : adjustedExponent z - (rest.length : ℤ) = z.exponent := by
    rw [adjustedExponent, digitCount, hsplit, List.length_cons]
    push_cast
    ring
  rw [hsplit] at hdigits
  have hrest : AreDigits (fraction.getD []) := by
    rw [hfraction]
    exact hdigits.subset (List.subset_cons_self _ _)
  refine ⟨⟨z.negative, [digit], fraction.getD [], adjustedExponent z⟩, ?_, ?_⟩
  · rw [hsplit, hmantissa]
    exact numberOf_scientific z.negative (hdigits digit List.mem_cons_self) hrest _
  · rw [Number.value, hfraction, List.singleton_append, ← hsplit,
      Pdk.natOf_digits (Pdk.areDigits_toDigits _), Nat.ofDigitChars_ten_toDigits, hcount,
      FiniteDecimal.value, FiniteDecimal.magnitude, mul_assoc]

theorem normalize_exact (hfits : defaultContext.Fits x.value)
    (hrange : ¬defaultContext.Overflows x.value) :
    ∃ z, defaultContext.normalize x = some z ∧ z.value = x.value := by
  obtain ⟨y, hy⟩ := Option.ne_none_iff_exists'.mp fun hnone =>
    hrange (Context.fix_eq_none_iff.mp hnone)
  obtain ⟨z, hz⟩ : ∃ z, defaultContext.normalize x = some z := by
    rw [Context.normalize, hy]
    exact ⟨_, rfl⟩
  obtain ⟨y', hy', hvalue, -⟩ := Context.normalize_value hz
  obtain rfl := Option.some.inj (hy.symm.trans hy')
  exact ⟨z, hz, hvalue.trans (Context.fix_of_fits hy hfits)⟩

theorem normalized_unique (hz : defaultContext.normalize x = some z)
    (hw : defaultContext.normalize y = some w) (hne : z.coefficient ≠ 0)
    (h : z.value = w.value) : z = w := by
  have hne' : w.coefficient ≠ 0 := fun hzero =>
    hne (Experiment.value_eq_zero_iff.mp (h.trans (Experiment.value_eq_zero_iff.mpr hzero)))
  have hsign : z.negative = w.negative := by
    rw [Bool.eq_iff_iff, ← Experiment.value_neg_iff hne, ← Experiment.value_neg_iff hne', h]
  obtain ⟨hcoefficient, hexponent⟩ := Context.digits_unique (Context.normalize_last hz hne)
    (Context.normalize_last hw hne') ((FiniteDecimal.value_eq_iff hsign).mp h)
  obtain ⟨negative, coefficient, exponent⟩ := z
  obtain rfl : negative = w.negative := hsign
  obtain rfl : coefficient = w.coefficient := hcoefficient
  obtain rfl : exponent = w.exponent := hexponent
  rfl

theorem numberToken_denotes (hfits : defaultContext.Fits x.value)
    (hrange : ¬defaultContext.Overflows x.value) :
    ∃ token, numberToken x = some token ∧ Denotes arithmetic token x.value := by
  by_cases hx : x.coefficient = 0
  · refine ⟨['0'], if_pos hx, ?_⟩
    rw [Experiment.value_eq_zero_iff.mpr hx,
      ← Experiment.value_eq_zero_iff.mpr (show FiniteDecimal.coefficient ⟨false, 0, 0⟩ = 0 from rfl)]
    exact denotes_of_plain (@Experiment.plainNumeral_fixedText arithmetic ⟨false, 0, 0⟩ le_rfl)
  · obtain ⟨z, hz, hvalue⟩ := normalize_exact hfits hrange
    have hne : z.coefficient ≠ 0 := fun hzero =>
      hx (Experiment.value_eq_zero_iff.mp
        (hvalue.symm.trans (Experiment.value_eq_zero_iff.mpr hzero)))
    rw [numberToken, if_neg hx, hz]
    refine ⟨_, rfl, ?_⟩
    rw [← hvalue]
    dsimp only
    split_ifs with hplain
    · exact denotes_fixedText hne
    · exact denotes_scientific z

theorem numberToken_congr (hfits : defaultContext.Fits x.value)
    (hrange : ¬defaultContext.Overflows x.value) (h : x.value = y.value) :
    numberToken x = numberToken y := by
  by_cases hx : x.coefficient = 0
  · have hy : y.coefficient = 0 :=
      Experiment.value_eq_zero_iff.mp (h.symm.trans (Experiment.value_eq_zero_iff.mpr hx))
    rw [numberToken, numberToken, if_pos hx, if_pos hy]
  · have hy : y.coefficient ≠ 0 := fun hy =>
      hx (Experiment.value_eq_zero_iff.mp (h.trans (Experiment.value_eq_zero_iff.mpr hy)))
    obtain ⟨z, hz, hvalue⟩ := normalize_exact hfits hrange
    obtain ⟨w, hw, hother⟩ := normalize_exact (h ▸ hfits) (h ▸ hrange)
    have hne : z.coefficient ≠ 0 := fun hzero =>
      hx (Experiment.value_eq_zero_iff.mp
        (hvalue.symm.trans (Experiment.value_eq_zero_iff.mpr hzero)))
    obtain rfl := normalized_unique hz hw hne (hvalue.trans (h.trans hother.symm))
    rw [numberToken, numberToken, if_neg hx, if_neg hy, hz, hw]

theorem toList_toString (k : ℤ) : (toString k).toList = intText k := by
  cases k with
  | ofNat n =>
    show (Nat.repr n).toList = _
    rw [Nat.toList_repr]
    simp [intText, signText]
  | negSucc n =>
    show ("-" ++ Nat.repr (n + 1)).toList = _
    rw [String.toList_append, Nat.toList_repr]
    simp [intText, signText, Int.negSucc_lt_zero]

theorem toList_scientificDigits (digits : List Char) (k : ℤ) :
    (scientificDigits digits k).toList = mantissaText digits ++ 'e' :: intText k := by
  unfold scientificDigits
  dsimp only
  rw [String.toList_append, String.toList_append, toList_toString]
  match digits with
  | [] => rfl
  | [digit] => simp [mantissaText]
  | digit :: next :: rest => simp [mantissaText]

/-- The digits that the rounded value keeps are those of the normalized number. -/
theorem stripZeros_significand (hfits : defaultContext.Fits x.value) (hx : x.coefficient ≠ 0)
    (hz : defaultContext.normalize x = some z) (hvalue : z.value = x.value) :
    stripZeros 28 (significand x.value).1.natAbs (significand x.value).2 =
      (z.coefficient, z.exponent) := by
  have hne : x.value ≠ 0 := fun hzero => hx (Experiment.value_eq_zero_iff.mp hzero)
  have hnez : z.coefficient ≠ 0 := fun hzero =>
    hne (hvalue.symm.trans (Experiment.value_eq_zero_iff.mpr hzero))
  have hshort : PyDecimal.Fits x.value := by
    obtain ⟨c, e, hc, -, habs⟩ := hfits
    rcases abs_choice x.value with h | h
    · exact ⟨c, e, by rw [Nat.abs_cast]; exact_mod_cast hc, by rw [← h, habs]; push_cast; rfl⟩
    · refine ⟨-c, e, by rw [abs_neg, Nat.abs_cast]; exact_mod_cast hc, ?_⟩
      rw [← neg_eq_iff_eq_neg.mpr h, habs]
      push_cast
      ring
  have hround := round_of_fits hshort
  rw [PyDecimal.round, if_neg hne] at hround
  have hmagnitude : ((significand x.value).1.natAbs : ℚ) * 10 ^ (significand x.value).2 =
      x.magnitude := by
    rw [← x.abs_value]
    conv_rhs => rw [← hround]
    rw [abs_mul, abs_of_pos (show (0 : ℚ) < 10 ^ (significand x.value).2 by positivity),
      Nat.cast_natAbs, Int.cast_abs]
  have hpositive : (significand x.value).1.natAbs ≠ 0 := by
    intro hzero
    rw [hzero, Nat.cast_zero, zero_mul, ← x.abs_value] at hmagnitude
    exact hne (abs_eq_zero.mp hmagnitude.symm)
  have hbound : (significand x.value).1.natAbs < 10 ^ 28 := by
    have hlt := abs_lt_of_adjusted hne
    have hsplit : (10 : ℚ) ^ (adjusted x.value + 1) = 10 ^ 28 * 10 ^ (significand x.value).2 := by
      rw [← zpow_natCast, ← zpow_add₀ (by norm_num)]
      congr 1
      simp only [significand]
      push_cast
      ring
    rw [x.abs_value, ← hmagnitude, hsplit] at hlt
    exact_mod_cast lt_of_mul_lt_mul_right hlt (by positivity)
  have hdigits := Context.stripZeros_value 28 (significand x.value).1.natAbs (significand x.value).2
  have hlast := Context.stripZeros_last (significand x.value).2 hpositive hbound
  have hsame : x.magnitude = z.magnitude := by rw [← x.abs_value, ← hvalue, z.abs_value]
  obtain ⟨hcoefficient, hexponent⟩ := Context.digits_unique hlast (Context.normalize_last hz hnez)
    (hdigits.trans (hmagnitude.trans hsame))
  exact Prod.ext hcoefficient hexponent

/-- The token of the exact arithmetic of the compiler is that of the decimal. -/
theorem numberToken_eq_token (hfits : defaultContext.Fits x.value)
    (hrange : ¬defaultContext.Overflows x.value) :
    numberToken x = some (PyDecimal.token x.value).toList := by
  by_cases hx : x.coefficient = 0
  · rw [numberToken, if_pos hx, PyDecimal.token, if_pos (Experiment.value_eq_zero_iff.mpr hx)]
    rfl
  · have hne : x.value ≠ 0 := fun hzero => hx (Experiment.value_eq_zero_iff.mp hzero)
    obtain ⟨z, hz, hvalue⟩ := normalize_exact hfits hrange
    have hnez : z.coefficient ≠ 0 := fun hzero =>
      hne (hvalue.symm.trans (Experiment.value_eq_zero_iff.mpr hzero))
    have hsign : z.negative = decide (x.value < 0) := by
      rw [Bool.eq_iff_iff, decide_eq_true_iff, ← hvalue, Experiment.value_neg_iff hnez]
    have hadjusted : adjustedExponent z =
        z.exponent + ((Nat.toDigits 10 z.coefficient).length - 1) := by
      rw [adjustedExponent, digitCount, add_sub_assoc]
    rw [numberToken, if_neg hx, hz, PyDecimal.token, if_neg hne]
    dsimp only
    rw [stripZeros_significand hfits hx hz hvalue, ← hadjusted]
    dsimp only
    rw [Option.map_some, hsign]
    congr 1
    split_ifs with hplain hnegative hnegative
    · simp [fixedText, signText, hsign, hnegative]
    · simp [fixedText, signText, hsign, hnegative]
    · simp [signText, hnegative, toList_scientificDigits]
    · simp [signText, hnegative, toList_scientificDigits]

theorem numberToken_fifteen_tenths : numberToken ⟨false, 15, -1⟩ =
    some (PyDecimal.token (FiniteDecimal.value ⟨false, 15, -1⟩)).toList := by
  apply numberToken_eq_token
  · exact ⟨15, -1, by decide, by decide, FiniteDecimal.abs_value _⟩
  · apply Context.not_overflows (show (1 : ℤ) ≤ defaultContext.emax by decide)
    rw [FiniteDecimal.abs_value, FiniteDecimal.magnitude]
    norm_num

/-- The tokens of the numbers that the default context holds are read back, and are canonical. -/
theorem numberToken_canonical (arithmetic : Arithmetic) (x y : FiniteDecimal)
    (hx : defaultContext.Fits x.value) (hlarge : ¬defaultContext.Overflows x.value)
    (hy : defaultContext.Fits y.value) (hother : ¬defaultContext.Overflows y.value) :
    (∃ token, numberToken x = some token ∧ Denotes arithmetic token x.value) ∧
      (numberToken x = numberToken y ↔ x.value = y.value) := by
  obtain ⟨token, htoken, hvalue⟩ := @numberToken_denotes arithmetic x hx hlarge
  obtain ⟨other, hothertoken, hothervalue⟩ := @numberToken_denotes arithmetic y hy hother
  refine ⟨⟨token, htoken, hvalue⟩, ?_, numberToken_congr hx hlarge⟩
  intro h
  rw [htoken, hothertoken] at h
  obtain rfl := Option.some.inj h
  exact hvalue.unique hothervalue

theorem numberToken_threeHalves :
    numberToken ⟨false, 1500, -3⟩ = numberToken ⟨false, 15, -1⟩ := by
  have hvalue : FiniteDecimal.value ⟨false, 1500, -3⟩ = FiniteDecimal.value ⟨false, 15, -1⟩ := by
    simp only [FiniteDecimal.value, FiniteDecimal.magnitude]
    norm_num
  have hfits : defaultContext.Fits (FiniteDecimal.value ⟨false, 15, -1⟩) :=
    ⟨15, -1, by decide, by decide, FiniteDecimal.abs_value _⟩
  have hrange : ¬defaultContext.Overflows (FiniteDecimal.value ⟨false, 15, -1⟩) := by
    apply Context.not_overflows (show (1 : ℤ) ≤ defaultContext.emax by decide)
    rw [FiniteDecimal.abs_value, FiniteDecimal.magnitude]
    norm_num
  exact (numberToken_canonical Scalars.plainArithmetic _ _ (hvalue ▸ hfits) (hvalue ▸ hrange) hfits
    hrange).2.mpr hvalue

/-- One digit is not enough where the exponent is outside the context. -/
theorem numberToken_raises :
    ¬∀ (arithmetic : Arithmetic) (x : FiniteDecimal), x.coefficient < 10 ^ 28 →
      ∃ token, numberToken x = some token ∧ Denotes arithmetic token x.value := by
  intro h
  obtain ⟨token, htoken, -⟩ := h Scalars.plainArithmetic ⟨false, 1, 1000000⟩ (by norm_num)
  have hnone : numberToken ⟨false, 1, 1000000⟩ = none := by decide
  rw [hnone] at htoken
  cases htoken

end Tokens

end OpenADA.Compiler
