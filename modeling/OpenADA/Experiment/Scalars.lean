import OpenADA.Template.LimitsExact

/-! The scalars of an experiment: the number a token denotes, and the one spelling a temperature is
bound under. -/
namespace OpenADA.Experiment

open DecimalContext PyDecimal PyText
open Pdk (fixedText signText AreDigits pointText)
open Scalars (Arithmetic Literal literalOf)
open Template (Json FloatText parseScalar tokenNumber scalarNumber scaleOf)

/-- `_plain_decimal_token`. -/
def plainDecimalToken (value : FiniteDecimal) : List Char :=
  if value.coefficient = 0 then ['0']
  else if '.' ∈ fixedText value then
    rstrip (fun c => decide (c = '.')) (rstrip (fun c => decide (c = '0')) (fixedText value))
  else fixedText value

/-- What `_conditions` reports of a temperature. -/
inductive TemperatureFault where
  | invalid
  | unsupported
  deriving DecidableEq

section Reading

variable (arithmetic : Arithmetic) (text : FloatText)

/-- The temperature of `_conditions`, as the binding carries it. -/
def temperatureToken (raw : Json) : Except TemperatureFault (List Char) :=
  match parseScalar arithmetic text raw with
  | none => .error .invalid
  | some temperature =>
    if -27315 / 100 < temperature.value ∧ temperature.value ≤ 1000 then
      .ok (plainDecimalToken temperature)
    else .error .unsupported

/-- The number that a scalar denotes: its mantissa, its exponent and the scale of its suffix. -/
def denotedScalar : Json → Option ℚ
  | .int n => some n
  | .float (.finite x) => some (text.digits x).value
  | .str token => do
    let chars ← token.mapM PyStr.toChar?
    let literal ← literalOf arithmetic.isDigit arithmetic.digit Scalars.isLetterIgnoringCase chars
    let scale ← Scalars.scalarScale literal.letters
    some (literal.number.value arithmetic.digit * scale)
  | _ => none

structure PlainNumeral (token : List Char) (value : ℚ) : Prop where
  plain : ∀ c ∈ token, c.isDigit = true ∨ c = '-' ∨ c = '.'
  reads : ∃ number : Scalars.Number,
    literalOf arithmetic.isDigit arithmetic.digit Scalars.isLetterIgnoringCase token =
      some ⟨number, []⟩ ∧ number.value arithmetic.digit = value

end Reading

section Spelling

variable {negative : Bool} {coefficient : ℕ} {exponent : ℤ}

theorem toDigits_mul_ten (h : coefficient ≠ 0) :
    Nat.toDigits 10 (coefficient * 10) = Nat.toDigits 10 coefficient ++ ['0'] := by
  rw [Nat.toDigits_of_base_le (by norm_num) (by omega), Nat.mul_div_cancel _ (by norm_num),
    Nat.mul_mod_left]
  rfl

/-- The digits of a number with its zeros in front, as the point is set among them. -/
def paddedDigits (coefficient places : ℕ) : List Char :=
  List.replicate (places + 1 - (Nat.toDigits 10 coefficient).length) '0' ++
    Nat.toDigits 10 coefficient

theorem lt_length_paddedDigits (coefficient places : ℕ) :
    places < (paddedDigits coefficient places).length := by
  rw [paddedDigits, List.length_append, List.length_replicate]
  omega

theorem paddedDigits_mul_ten (h : coefficient ≠ 0) (places : ℕ) :
    paddedDigits (coefficient * 10) (places + 1) = paddedDigits coefficient places ++ ['0'] := by
  have hcount : places + 1 + 1 - ((Nat.toDigits 10 coefficient).length + 1) =
      places + 1 - (Nat.toDigits 10 coefficient).length := by omega
  rw [paddedDigits, toDigits_mul_ten h, List.length_append, List.length_singleton, hcount,
    ← List.append_assoc]
  rfl

theorem fixedText_places (places : ℕ) (h : 0 < places) :
    fixedText ⟨negative, coefficient, -places⟩ = signText negative ++
      ((paddedDigits coefficient places).take ((paddedDigits coefficient places).length - places) ++
        '.' :: (paddedDigits coefficient places).drop
          ((paddedDigits coefficient places).length - places)) := by
  rw [fixedText, plainDigits, if_neg (show ¬ 0 ≤ -(places : ℤ) by omega)]
  simp [paddedDigits]

theorem fixedText_whole (h : 0 ≤ exponent) :
    fixedText ⟨negative, coefficient, exponent⟩ = signText negative ++
      (Nat.toDigits 10 coefficient ++ List.replicate exponent.toNat '0') := by
  rw [fixedText, plainDigits, if_pos h, String.toList_ofList]

theorem point_notMem_signText : '.' ∉ signText negative := by
  cases negative <;> decide

theorem point_notMem {digits : List Char} (h : AreDigits digits) : '.' ∉ digits :=
  fun hmem => absurd (h '.' hmem) (by decide)

theorem point_notMem_whole (h : 0 ≤ exponent) :
    '.' ∉ fixedText ⟨negative, coefficient, exponent⟩ := by
  rw [fixedText_whole h]
  intro hmem
  rcases List.mem_append.mp hmem with hmem | hmem
  · exact point_notMem_signText hmem
  · rcases List.mem_append.mp hmem with hmem | hmem
    · exact point_notMem (Pdk.areDigits_toDigits coefficient) hmem
    · exact absurd (List.eq_of_mem_replicate hmem) (by decide)

theorem point_mem_places (places : ℕ) (h : 0 < places) :
    '.' ∈ fixedText ⟨negative, coefficient, -places⟩ := by
  rw [fixedText_places places h]
  simp

theorem fixedText_more_places (hc : coefficient ≠ 0) (places : ℕ) (h : 0 < places) :
    fixedText ⟨negative, coefficient * 10, -(places + 1 : ℕ)⟩ =
      fixedText ⟨negative, coefficient, -places⟩ ++ ['0'] := by
  have hlt := lt_length_paddedDigits coefficient places
  have hsub : (paddedDigits coefficient places).length + 1 - (places + 1) =
      (paddedDigits coefficient places).length - places := by omega
  rw [fixedText_places (places + 1) (by omega), fixedText_places places h,
    paddedDigits_mul_ten hc, List.length_append, List.length_singleton, hsub,
    List.take_append_of_le_length (by omega), List.drop_append_of_le_length (by omega)]
  simp

theorem fixedText_first_place (hc : coefficient ≠ 0) :
    fixedText ⟨negative, coefficient * 10, -(1 : ℕ)⟩ =
      fixedText ⟨negative, coefficient, 0⟩ ++ ['.', '0'] := by
  have hdigits : paddedDigits coefficient 0 = Nat.toDigits 10 coefficient := by
    have hlength : 0 < (Nat.toDigits 10 coefficient).length := Nat.length_toDigits_pos
    rw [paddedDigits, show 0 + 1 - (Nat.toDigits 10 coefficient).length = 0 by omega]
    rfl
  rw [fixedText_places 1 (by omega), fixedText_whole le_rfl, paddedDigits_mul_ten hc, hdigits]
  simp

theorem fixedText_more_zeros (hc : coefficient ≠ 0) (h : 0 < exponent) :
    fixedText ⟨negative, coefficient * 10, exponent - 1⟩ =
      fixedText ⟨negative, coefficient, exponent⟩ := by
  have hcount : exponent.toNat = (exponent - 1).toNat + 1 := by omega
  rw [fixedText_whole (by omega), fixedText_whole (by omega), toDigits_mul_ten hc, hcount,
    List.append_assoc, List.replicate_succ]
  rfl

/-- A zero moved from the exponent into the coefficient leaves the token alone. -/
theorem plainDecimalToken_mul_ten (hc : coefficient ≠ 0) :
    plainDecimalToken ⟨negative, coefficient * 10, exponent - 1⟩ =
      plainDecimalToken ⟨negative, coefficient, exponent⟩ := by
  have hten : coefficient * 10 ≠ 0 := by omega
  unfold plainDecimalToken
  rw [if_neg hc, if_neg hten]
  rcases lt_trichotomy exponent 0 with hlt | rfl | hgt
  · obtain ⟨places, rfl⟩ : ∃ places : ℕ, exponent = -places := ⟨exponent.natAbs, by omega⟩
    have hpos : 0 < places := by omega
    have hexponent : -(places : ℤ) - 1 = -((places + 1 : ℕ) : ℤ) := by push_cast; ring
    rw [hexponent, if_pos (point_mem_places _ (by omega)), if_pos (point_mem_places _ hpos),
      fixedText_more_places hc places hpos]
    congr 1
    exact List.rdropWhile_concat_pos _ _ _ (by decide)
  · have hpoint := @point_notMem_whole negative coefficient 0 le_rfl
    have hmem : '.' ∈ fixedText ⟨negative, coefficient, 0⟩ ++ ['.', '0'] := by simp
    have hexponent : (0 : ℤ) - 1 = -((1 : ℕ) : ℤ) := rfl
    rw [hexponent, fixedText_first_place hc, if_pos hmem, if_neg hpoint]
    have hzero : rstrip (fun c => decide (c = '0'))
        (fixedText ⟨negative, coefficient, 0⟩ ++ ['.', '0']) =
          fixedText ⟨negative, coefficient, 0⟩ ++ ['.'] := by
      rw [show ['.', '0'] = ['.'] ++ ['0'] from rfl, ← List.append_assoc, rstrip,
        List.rdropWhile_concat_pos _ _ _ (by decide), List.rdropWhile_concat_neg _ _ _ (by decide)]
    rw [hzero, rstrip, List.rdropWhile_concat_pos _ _ _ (by decide), List.rdropWhile_eq_self_iff]
    intro hne hlast
    exact hpoint (of_decide_eq_true hlast ▸ List.getLast_mem hne)
  · rw [fixedText_more_zeros hc hgt, if_neg (point_notMem_whole (by omega))]

theorem plainDecimalToken_mul_pow (hc : coefficient ≠ 0) (k : ℕ) :
    plainDecimalToken ⟨negative, coefficient * 10 ^ k, exponent - k⟩ =
      plainDecimalToken ⟨negative, coefficient, exponent⟩ := by
  induction k with
  | zero => simp
  | succ k ih =>
    have hk : coefficient * 10 ^ k ≠ 0 := by positivity
    have hstep := @plainDecimalToken_mul_ten negative (coefficient * 10 ^ k) (exponent - k) hk
    have hexponent : exponent - (k + 1 : ℕ) = exponent - k - 1 := by push_cast; ring
    rw [hexponent, pow_succ, ← mul_assoc, hstep, ih]

end Spelling

section Values

variable {x y : FiniteDecimal}

theorem value_eq_zero_iff : x.value = 0 ↔ x.coefficient = 0 := by
  rw [← abs_eq_zero, x.abs_value, FiniteDecimal.magnitude]
  simp [zpow_ne_zero]

theorem value_neg_iff (hx : x.coefficient ≠ 0) : x.value < 0 ↔ x.negative = true := by
  have hpos : 0 < x.magnitude := by
    have hc : (0 : ℚ) < x.coefficient := by exact_mod_cast Nat.pos_of_ne_zero hx
    rw [FiniteDecimal.magnitude]
    positivity
  rw [FiniteDecimal.value]
  cases x.negative with
  | true => simpa using hpos
  | false => simpa using hpos.le

theorem token_of_magnitude (hx : x.coefficient ≠ 0) (hsign : x.negative = y.negative)
    (hle : y.exponent ≤ x.exponent) (h : y.magnitude = x.magnitude) :
    plainDecimalToken y = plainDecimalToken x := by
  obtain ⟨negative, coefficient, exponent⟩ := x
  obtain ⟨negative', c, e⟩ := y
  obtain rfl : negative = negative' := hsign
  obtain rfl : c = coefficient * 10 ^ (exponent - e).toNat := coefficient_eq hle h
  have hle : e ≤ exponent := hle
  have hexponent : e = exponent - ((exponent - e).toNat : ℕ) := by omega
  conv_lhs => rw [hexponent]
  have hcongr : (exponent - (exponent - ((exponent - e).toNat : ℕ))).toNat =
      (exponent - e).toNat := by omega
  rw [hcongr]
  exact plainDecimalToken_mul_pow hx _

theorem plainDecimalToken_congr (h : x.value = y.value) :
    plainDecimalToken x = plainDecimalToken y := by
  by_cases hx : x.coefficient = 0
  · have hy : y.coefficient = 0 := value_eq_zero_iff.mp (h ▸ value_eq_zero_iff.mpr hx)
    rw [plainDecimalToken, plainDecimalToken, if_pos hx, if_pos hy]
  · have hy : y.coefficient ≠ 0 := fun hy =>
      hx (value_eq_zero_iff.mp (h.trans (value_eq_zero_iff.mpr hy)))
    have hsign : x.negative = y.negative := by
      rw [Bool.eq_iff_iff, ← value_neg_iff hx, ← value_neg_iff hy, h]
    have hmagnitude := (FiniteDecimal.value_eq_iff hsign).mp h
    rcases le_total x.exponent y.exponent with hle | hle
    · exact token_of_magnitude hy hsign.symm hle hmagnitude
    · exact (token_of_magnitude hx hsign hle hmagnitude.symm).symm

/-- A number without an exponent above zero, and without a zero at the end of its places. -/
structure Tidy (y : FiniteDecimal) : Prop where
  nonzero : y.coefficient ≠ 0
  exponent_le : y.exponent ≤ 0
  last : y.exponent = 0 ∨ y.coefficient % 10 ≠ 0

theorem exists_tidy_places (negative : Bool) (places : ℕ) {coefficient : ℕ}
    (hc : coefficient ≠ 0) :
    ∃ y, Tidy y ∧ y.value = FiniteDecimal.value ⟨negative, coefficient, -places⟩ := by
  induction places generalizing coefficient with
  | zero => exact ⟨⟨negative, coefficient, 0⟩, ⟨hc, le_rfl, .inl rfl⟩, by simp⟩
  | succ places ih =>
    by_cases hlast : coefficient % 10 = 0
    · have hten : coefficient = coefficient / 10 * 10 := by omega
      have hfewer : coefficient / 10 ≠ 0 := by omega
      obtain ⟨y, htidy, hvalue⟩ := ih hfewer
      refine ⟨y, htidy, hvalue.trans ?_⟩
      apply (FiniteDecimal.value_eq_iff (by rfl)).mpr
      have hle : -((places + 1 : ℕ) : ℤ) ≤ -(places : ℤ) := by omega
      have hone : (-(places : ℤ) - -((places + 1 : ℕ) : ℤ)).toNat = 1 := by omega
      apply mul_zpow_raise hle
      rw [hone, pow_one]
      exact hten
    · exact ⟨⟨negative, coefficient, -(places + 1 : ℕ)⟩,
        ⟨hc, by simp only; omega, .inr hlast⟩, rfl⟩

theorem exists_tidy (hx : x.coefficient ≠ 0) : ∃ y, Tidy y ∧ y.value = x.value := by
  obtain ⟨negative, coefficient, exponent⟩ := x
  rcases le_total exponent 0 with hle | hle
  · obtain ⟨places, rfl⟩ : ∃ places : ℕ, exponent = -places := ⟨exponent.natAbs, by omega⟩
    exact exists_tidy_places negative places hx
  · have hx : coefficient ≠ 0 := hx
    refine ⟨⟨negative, coefficient * 10 ^ exponent.toNat, 0⟩,
      ⟨by positivity, le_rfl, .inl rfl⟩, ?_⟩
    apply (FiniteDecimal.value_eq_iff (by rfl)).mpr
    refine (mul_zpow_raise hle ?_).symm
    rw [sub_zero]

theorem toDigits_last {n : ℕ} (h : n % 10 ≠ 0) :
    ∃ front d, Nat.toDigits 10 n = front ++ [d] ∧ d ≠ '0' := by
  have hd : Nat.digitChar (n % 10) ≠ '0' := fun hzero => h (Nat.digitChar_eq_zero.mp hzero)
  by_cases hten : 10 ≤ n
  · exact ⟨_, _, Nat.toDigits_of_base_le (by norm_num) hten, hd⟩
  · rw [Nat.mod_eq_of_lt (not_le.mp hten)] at hd
    exact ⟨[], _, Nat.toDigits_of_lt_base (not_le.mp hten), hd⟩

theorem fixedText_last (h : Tidy y) (hplaces : y.exponent < 0) :
    ∃ front d, fixedText y = front ++ [d] ∧ d.isDigit = true ∧ d ≠ '0' := by
  obtain ⟨negative, coefficient, exponent⟩ := y
  obtain ⟨places, rfl⟩ : ∃ places : ℕ, exponent = -places :=
    ⟨exponent.natAbs, by simp only at hplaces; omega⟩
  have hpos : 0 < places := by
    simp only at hplaces
    omega
  obtain ⟨digits, d, hdigits, hd⟩ :=
    toDigits_last (h.last.resolve_left (by simp only; omega))
  let zeros := List.replicate (places + 1 - (Nat.toDigits 10 coefficient).length) '0'
  have hpadded : paddedDigits coefficient places = (zeros ++ digits) ++ [d] := by
    rw [paddedDigits, List.append_assoc]
    exact congrArg (zeros ++ ·) hdigits
  have hlt := lt_length_paddedDigits coefficient places
  rw [hpadded, List.length_append, List.length_singleton] at hlt
  refine ⟨signText negative ++ ((zeros ++ digits).take ((zeros ++ digits).length + 1 - places) ++
    '.' :: (zeros ++ digits).drop ((zeros ++ digits).length + 1 - places)), d, ?_, ?_, hd⟩
  · rw [fixedText_places places hpos, hpadded, List.length_append, List.length_singleton,
      List.take_append_of_le_length (by omega), List.drop_append_of_le_length (by omega)]
    simp
  · exact Pdk.areDigits_toDigits coefficient d (hdigits ▸ List.mem_append_right _ (by simp))

theorem plainDecimalToken_tidy (h : Tidy y) : plainDecimalToken y = fixedText y := by
  rw [plainDecimalToken, if_neg h.nonzero]
  by_cases hzero : y.exponent = 0
  · exact if_neg (point_notMem_whole hzero.ge)
  · obtain ⟨front, d, htext, hdigit, hd⟩ := fixedText_last h (by have := h.exponent_le; omega)
    have hpoint : d ≠ '.' := by
      rintro rfl
      exact absurd hdigit (by decide)
    split_ifs with hmem
    · rw [htext, rstrip, rstrip, List.rdropWhile_concat_neg _ _ _ (by simpa using hd),
        List.rdropWhile_concat_neg _ _ _ (by simpa using hpoint)]
    · rfl

end Values

section Printing

variable {arithmetic : Arithmetic} {x y : FiniteDecimal}

/-- The digits of a decimal without an exponent above zero are a numeral of its value. -/
theorem plainNumeral_fixedText (h : y.exponent ≤ 0) :
    PlainNumeral arithmetic (fixedText y) y.value := by
  obtain ⟨whole, fraction, hwhole, hne, hfraction, htext, hcoefficient, hlength⟩ :=
    Pdk.fixedText_eq h
  have hdigits : AreDigits (whole ++ fraction.getD []) := by
    intro c hc
    rcases List.mem_append.mp hc with hc | hc
    · exact hwhole c hc
    · exact hfraction c hc
  constructor
  · rw [htext]
    intro c hc
    rcases List.mem_append.mp hc with hc | hc
    · cases hnegative : y.negative <;> rw [hnegative] at hc
      · exact absurd hc List.not_mem_nil
      · exact .inr (.inl (List.mem_singleton.mp hc))
    · rcases List.mem_append.mp hc with hc | hc
      · exact .inl (hwhole c hc)
      · cases fraction with
        | none => exact absurd hc List.not_mem_nil
        | some digits =>
          rcases List.mem_cons.mp hc with rfl | hc
          · exact .inr (.inr rfl)
          · exact .inl (hfraction c hc)
  · have hread := @Pdk.numberOf_printed arithmetic y.negative whole fraction hwhole hne hfraction
    refine ⟨_, Scalars.literalOf_eq_some.mpr ⟨htext ▸ hread, rfl⟩, ?_⟩
    rw [Scalars.Number.value, Pdk.natOf_digits hdigits, hcoefficient, hlength,
      FiniteDecimal.value, FiniteDecimal.magnitude, zero_sub, neg_neg, mul_assoc]

theorem plainNumeral_token (x : FiniteDecimal) :
    PlainNumeral arithmetic (plainDecimalToken x) x.value := by
  by_cases hx : x.coefficient = 0
  · have hzero := @plainNumeral_fixedText arithmetic ⟨false, 0, 0⟩ le_rfl
    rw [plainDecimalToken, if_pos hx, value_eq_zero_iff.mpr hx]
    rwa [value_eq_zero_iff.mpr rfl] at hzero
  · obtain ⟨y, htidy, hvalue⟩ := exists_tidy hx
    rw [← plainDecimalToken_congr hvalue, plainDecimalToken_tidy htidy, ← hvalue]
    exact plainNumeral_fixedText htidy.exponent_le

theorem PlainNumeral.unique {token : List Char} {p q : ℚ} (hp : PlainNumeral arithmetic token p)
    (hq : PlainNumeral arithmetic token q) : p = q := by
  obtain ⟨number, hnumber, rfl⟩ := hp.reads
  obtain ⟨other, hother, rfl⟩ := hq.reads
  obtain ⟨rfl, -⟩ := Literal.mk.inj (Option.some.inj (hnumber.symm.trans hother))
  rfl

theorem plainDecimalToken_inj (arithmetic : Arithmetic) :
    plainDecimalToken x = plainDecimalToken y ↔ x.value = y.value := by
  constructor
  · intro h
    have hx := @plainNumeral_token arithmetic x
    exact hx.unique (h ▸ plainNumeral_token y)
  · exact plainDecimalToken_congr

end Printing

section Parsing

variable {arithmetic : Arithmetic} {text : FloatText} {number scale : FiniteDecimal} {raw : Json}

theorem scaleOf_value (letters : List Char) :
    (scaleOf letters).map FiniteDecimal.value = Scalars.scalarScale letters := by
  unfold scaleOf Scalars.scalarScale
  split_ifs
  · rw [← Pdk.spiceScaleDecimals_value]
    exact (Pdk.lookup_map_value FiniteDecimal.value _ _).symm
  · rfl

theorem value_intText (n : ℤ) : FiniteDecimal.value ⟨decide (n < 0), n.natAbs, 0⟩ = n := by
  rw [FiniteDecimal.value, FiniteDecimal.magnitude, zpow_zero, mul_one, Nat.cast_natAbs]
  rcases lt_or_ge n 0 with hneg | hnonneg
  · rw [if_pos (decide_eq_true hneg), abs_of_neg hneg]
    push_cast
    ring
  · rw [if_neg (by simpa using hnonneg), abs_of_nonneg hnonneg, one_mul]

theorem denoted_of_scalarNumber (h : scalarNumber arithmetic text raw = some (number, scale)) :
    denotedScalar arithmetic text raw = some (number.value * scale.value) := by
  have hone : Template.one.value = 1 := by decide +kernel
  unfold scalarNumber at h
  split at h
  · obtain ⟨rfl, rfl⟩ := Prod.mk.inj (Option.some.inj h)
    rw [denotedScalar, value_intText, hone, mul_one]
  · obtain ⟨rfl, rfl⟩ := Prod.mk.inj (Option.some.inj h)
    rw [denotedScalar, hone, mul_one]
  · obtain ⟨chars, hchars, h⟩ := Option.bind_eq_some_iff.mp h
    obtain ⟨literal, hliteral, h⟩ := Option.bind_eq_some_iff.mp h
    obtain ⟨factor, hfactor, h⟩ := Option.bind_eq_some_iff.mp h
    split_ifs at h with hreads
    obtain ⟨rfl, rfl⟩ := Prod.mk.inj (Option.some.inj h)
    have hscale : Scalars.scalarScale literal.letters = some factor.value := by
      rw [← scaleOf_value, hfactor]
      rfl
    rw [denotedScalar, hchars, Pdk.decimalOfNumber_value]
    simp [hliteral, hscale]
  · cases h

theorem parseScalar_denoted {value : FiniteDecimal}
    (h : parseScalar arithmetic text raw = some value) :
    denotedScalar arithmetic text raw = some value.value := by
  have hexact := (@Template.parseScalar_exact arithmetic text raw).1
  rw [h] at hexact
  obtain ⟨⟨number, scale⟩, hparts, hvalue⟩ := Option.bind_eq_some_iff.mp hexact
  split_ifs at hvalue
  exact (denoted_of_scalarNumber hparts).trans hvalue

theorem temperatureToken_ok {token : List Char}
    (h : temperatureToken arithmetic text raw = .ok token) :
    ∃ value, parseScalar arithmetic text raw = some value ∧
      token = plainDecimalToken value := by
  unfold temperatureToken at h
  cases hparse : parseScalar arithmetic text raw with
  | none =>
    rw [hparse] at h
    cases h
  | some value =>
    simp only [hparse] at h
    split_ifs at h
    exact ⟨value, rfl, (Except.ok.inj h).symm⟩

end Parsing

/-- The scalars are exact and canonical: a number within the limits is never refused nor rounded,
the value that is read is the one that the text denotes, a plain numeral of the value is printed,
and two temperatures have one token if and only if they are equal. -/
theorem scalars_exact_canonical (arithmetic : Arithmetic) (text : FloatText) :
    (∀ raw number scale, scalarNumber arithmetic text raw = some (number, scale) →
      Template.admits number scale = true →
        ∃ value, parseScalar arithmetic text raw = some value ∧
          value.value = number.value * scale.value) ∧
    (∀ raw value, parseScalar arithmetic text raw = some value →
      denotedScalar arithmetic text raw = some value.value ∧
        PlainNumeral arithmetic (plainDecimalToken value) value.value) ∧
    (∀ a b s t, temperatureToken arithmetic text a = .ok s →
      temperatureToken arithmetic text b = .ok t →
        (s = t ↔ denotedScalar arithmetic text a = denotedScalar arithmetic text b)) := by
  refine ⟨fun raw number scale hparts hadmits => ?_, fun raw value h => ?_,
    fun a b s t ha hb => ?_⟩
  · have hexact := (@Template.parseScalar_exact arithmetic text raw).1
    have hdeclared : Template.declaredScalar arithmetic text raw =
        some (number.value * scale.value) := by
      rw [Template.declaredScalar, hparts]
      exact if_pos hadmits
    rw [hdeclared] at hexact
    obtain ⟨value, hvalue, heq⟩ := Option.map_eq_some_iff.mp hexact.symm
    exact ⟨value, hvalue, heq⟩
  · exact ⟨parseScalar_denoted h, plainNumeral_token value⟩
  · obtain ⟨x, hx, rfl⟩ := temperatureToken_ok ha
    obtain ⟨y, hy, rfl⟩ := temperatureToken_ok hb
    rw [plainDecimalToken_inj arithmetic, parseScalar_denoted hx, parseScalar_denoted hy,
      Option.some_inj]

end OpenADA.Experiment
