import OpenADA.Library.ExceptFold
import OpenADA.Pdk.Exact
import OpenADA.Pdk.Parameters
import OpenADA.Scalars.Agreement

/-! The arithmetic of a binding on the parameters of cards: a length, an area or a perimeter is
exact where the context has room for it. -/
namespace OpenADA.Pdk

open DecimalContext PyDecimal PyText
open Scalars

def unitOf (table : ParameterTable) (divisor : FiniteDecimal) (key : String) : ℚ :=
  if key ∈ table.areaParameters then divisor.value ^ 2 else divisor.value

section Units

variable {arithmetic : Arithmetic} {si : FiniteDecimal} {text : List Char}

def micrometre : FiniteDecimal := ⟨false, 1, -6⟩

theorem micrometre_value : micrometre.value = (10 ^ 6)⁻¹ := by
  norm_num [micrometre, FiniteDecimal.value, FiniteDecimal.magnitude]

theorem micrometre_square : bindingContext.mul micrometre micrometre = some ⟨false, 1, -12⟩ := by
  decide

theorem rescaled_value {squared : Bool} {quotient : FiniteDecimal}
    (hsi : si.coefficient < 10 ^ bindingContext.prec) (hfits : bindingContext.Fits si.value)
    (h : rescaled si micrometre squared = some quotient) :
    quotient.value = si.value / (if squared then micrometre.value ^ 2 else micrometre.value) ∧
      bindingContext.Fits quotient.value := by
  cases squared with
  | true =>
    have hdiv : bindingContext.div si ⟨false, 1, -12⟩ = some quotient := by
      rw [rescaled, if_pos rfl, micrometre_square] at h
      exact h
    have hunit : FiniteDecimal.value ⟨false, 1, -12⟩ = (10 ^ 12)⁻¹ := by
      norm_num [FiniteDecimal.value, FiniteDecimal.magnitude]
    have hmoved := Context.fits_mul_pow hfits 12
    have hexact := (Context.div_value_eq_iff rfl hsi hdiv).mpr (by
      rw [hunit, div_inv_eq_mul]
      exact hmoved)
    rw [hunit, div_inv_eq_mul] at hexact
    rw [if_pos rfl, micrometre_value, inv_pow, ← pow_mul, div_inv_eq_mul, hexact]
    exact ⟨rfl, hmoved⟩
  | false =>
    have hdiv : bindingContext.div si micrometre = some quotient := h
    have hmoved := Context.fits_mul_pow hfits 6
    have hexact := (Context.div_value_eq_iff rfl hsi hdiv).mpr (by
      rw [micrometre_value, div_inv_eq_mul]
      exact hmoved)
    rw [micrometre_value, div_inv_eq_mul] at hexact
    rw [if_neg Bool.false_ne_true, micrometre_value, div_inv_eq_mul, hexact]
    exact ⟨rfl, hmoved⟩

theorem rescaledText_denoted {squared : Bool}
    (hsi : si.coefficient < 10 ^ bindingContext.prec) (hfits : bindingContext.Fits si.value)
    (h : rescaledText micrometre squared si = .ok text) :
    denoted arithmetic text =
      some (si.value / (if squared then micrometre.value ^ 2 else micrometre.value)) := by
  cases hquotient : rescaled si micrometre squared with
  | none =>
    rw [rescaledText, hquotient] at h
    cases h
  | some quotient =>
    rw [rescaledText, hquotient] at h
    obtain ⟨hvalue, hroom⟩ := rescaled_value hsi hfits hquotient
    obtain ⟨rounded, hrounded, hdenoted⟩ := @denoted_of_format arithmetic text quotient h
    rw [hdenoted, Context.fix_of_fits hrounded hroom, hvalue]

theorem metre_value : FiniteDecimal.value ⟨false, 1, 0⟩ = 1 := by
  norm_num [FiniteDecimal.value, FiniteDecimal.magnitude]

theorem geometryScale_cases {binding : BindingParameters} (h : binding ∈ bindingParameters) :
    binding.geometryScale.value = 1 ∨ binding.geometryScale = micrometre := by
  simp only [bindingParameters, List.mem_cons, List.not_mem_nil, or_false] at h
  rcases h with rfl | rfl | rfl | rfl
  · exact Or.inl metre_value
  · exact Or.inr rfl
  · exact Or.inl metre_value
  · exact Or.inl metre_value

end Units

/-- A parameter of a card: a length or an area is put into the unit of the PDK, where it is exact
just if the context has room for the authored number; any other value stands as it was authored. -/
def InUnit (arithmetic : Arithmetic) (table : ParameterTable) (divisor : FiniteDecimal)
    (parameter : EmittedParameter) : Prop :=
  if divisor.value ≠ 1 ∧ table.isGeometry parameter.key = true then
    ∃ authored printed, denoted arithmetic parameter.authored = some authored ∧
      denoted arithmetic parameter.value = some printed ∧
      (printed * unitOf table divisor parameter.key = authored ↔ bindingContext.Fits authored)
  else parameter.value = parameter.authored

section Cards

variable {cases : CaseMap} {arithmetic : Arithmetic} {binding : BindingParameters}
  {table : ParameterTable} {pair : String × List Char} {si : FiniteDecimal} {value : List Char}

theorem inUnit_exact
    (hscale : binding.geometryScale.value = 1 ∨ binding.geometryScale = micrometre)
    (hgeometry : table.isGeometry pair.1 = true)
    (hsi : parseSpiceNumber arithmetic pair.2 = .ok si)
    (h : inUnit table binding.geometryScale pair.1 pair.2 si = .ok value)
    (spellings : List String) :
    InUnit arithmetic table binding.geometryScale ⟨pair.1, pair.2, spellings, value⟩ := by
  rw [inUnit] at h
  rw [InUnit]
  by_cases hone : binding.geometryScale.value = 1
  · rw [if_neg (not_not.mpr hone)] at h
    rw [if_neg (fun hboth => hboth.1 hone)]
    exact (Except.ok.inj h).symm
  · rw [if_pos hone] at h
    rw [if_pos ⟨hone, hgeometry⟩]
    rw [hscale.resolve_left hone] at h ⊢
    obtain ⟨hbounds, hfits⟩ := parse_bounds hsi
    obtain ⟨authored, hauthored, hiff⟩ := parse_value_eq_iff hsi
    refine ⟨authored, _, hauthored, rescaledText_denoted hbounds hfits h, ?_⟩
    have hunit : unitOf table micrometre pair.1 =
        if decide (pair.1 ∈ table.areaParameters) = true then micrometre.value ^ 2
        else micrometre.value := by
      simp only [unitOf, decide_eq_true_eq]
    have hne : unitOf table micrometre pair.1 ≠ 0 := by
      rw [hunit, micrometre_value]
      split_ifs <;> positivity
    rw [← hunit, div_mul_cancel₀ _ hne]
    exact hiff

theorem mosParameter_exact
    (hscale : binding.geometryScale.value = 1 ∨ binding.geometryScale = micrometre)
    {envelope : Option DeviceGeometry} {parameter : EmittedParameter}
    (h : mosParameter arithmetic table envelope binding.geometryScale pair = .ok (some parameter)) :
    InUnit arithmetic table binding.geometryScale parameter := by
  unfold mosParameter at h
  cases hname : table.parameterNames.lookup pair.1 with
  | none =>
    rw [hname] at h
    cases h
  | some spelling =>
    simp only [hname] at h
    by_cases hgeometry : table.isGeometry pair.1 = true
    · rw [if_pos hgeometry] at h
      obtain ⟨si, hsi, h⟩ := Except.bind_eq_ok.mp h
      split_ifs at h with henvelope
      obtain ⟨value, hvalue, h⟩ := Except.bind_eq_ok.mp h
      obtain rfl := Option.some.inj (Except.ok.inj h)
      exact inUnit_exact hscale hgeometry hsi hvalue _
    · rw [if_neg hgeometry] at h
      obtain rfl := Option.some.inj (Except.ok.inj h)
      rw [InUnit, if_neg]
      exact fun hboth => hgeometry hboth.2

theorem extendedParameter_exact
    (hscale : binding.geometryScale.value = 1 ∨ binding.geometryScale = micrometre)
    {parameter : EmittedParameter}
    (h : extendedParameter arithmetic table binding.geometryScale pair = .ok (some parameter)) :
    InUnit arithmetic table binding.geometryScale parameter := by
  unfold extendedParameter at h
  cases hname : table.parameterNames.lookup pair.1 with
  | none =>
    rw [hname] at h
    cases h
  | some spelling =>
    simp only [hname] at h
    by_cases hscaled : binding.geometryScale.value ≠ 1 ∧ table.isGeometry pair.1 = true
    · rw [if_pos hscaled] at h
      obtain ⟨si, hsi, h⟩ := Except.bind_eq_ok.mp h
      obtain ⟨value, hvalue, h⟩ := Except.bind_eq_ok.mp h
      obtain rfl := Option.some.inj (Except.ok.inj h)
      exact inUnit_exact hscale hscaled.2 hsi hvalue _
    · rw [if_neg hscaled] at h
      obtain rfl := Option.some.inj (Except.ok.inj h)
      rw [InUnit, if_neg hscaled]

theorem mosParameters_exact (hbinding : binding ∈ bindingParameters) {role : String}
    {card : CardMatch} {parameters : RewrittenParameters}
    (h : mosParameters cases arithmetic binding role card = .ok parameters) :
    ∀ parameter ∈ parameters.emitted,
      InUnit arithmetic binding.mos binding.geometryScale parameter := by
  obtain ⟨emitted, hemitted, h⟩ := Except.bind_eq_ok.mp h
  obtain rfl := Except.ok.inj h
  intro parameter hparameter
  obtain ⟨_, hmem, rfl⟩ := List.mem_filterMap.mp hparameter
  obtain ⟨pair, -, hpair⟩ := Except.exists_of_mem_mapM hemitted hmem
  exact mosParameter_exact (geometryScale_cases hbinding) hpair

theorem extendedParameters_exact (hbinding : binding ∈ bindingParameters) {role : String}
    {card : CardMatch} {parameters : RewrittenParameters}
    (h : extendedParameters cases arithmetic binding role card = .ok parameters) :
    ∀ parameter ∈ parameters.emitted,
      InUnit arithmetic ((binding.deviceCards.lookup role).getD ⟨[], [], [], []⟩)
        binding.geometryScale parameter := by
  obtain ⟨⟨supplied, note⟩, -, h⟩ := Except.bind_eq_ok.mp h
  obtain ⟨emitted, hemitted, h⟩ := Except.bind_eq_ok.mp h
  obtain rfl := Except.ok.inj h
  intro parameter hparameter
  obtain ⟨_, hmem, rfl⟩ := List.mem_filterMap.mp hparameter
  obtain ⟨pair, -, hpair⟩ := Except.exists_of_mem_mapM hemitted hmem
  exact extendedParameter_exact (geometryScale_cases hbinding) hpair

end Cards

section Diode

variable {arithmetic : Arithmetic} {accepted : List String}
  {supplied : InsertionDict String (List Char)} {widthText lengthText : List Char}
  {width length : FiniteDecimal}

theorem exists_of_inWindow {value : Option FiniteDecimal}
    (h : (bindingArithmetic arithmetic).inWindow value = true) : ∃ x, value = some x := by
  cases value with
  | none =>
    rw [CardArithmetic.inWindow, Bool.and_eq_true] at h
    exact absurd h.2 (by simp [bindingArithmetic])
  | some x => exact ⟨x, rfl⟩

theorem denoted_of_result {exact rounded : FiniteDecimal} {text : List Char}
    (hrounded : bindingContext.fix exact = some rounded)
    (h : formatNumber (.finite rounded) = .ok text) :
    denoted arithmetic text = some rounded.value := by
  obtain ⟨again, hagain, hdenoted⟩ := @denoted_of_format arithmetic text rounded h
  rw [hdenoted, Context.fix_of_fits hagain (Context.fits_of_fix hrounded)]

theorem ofRat_two : FiniteDecimal.value (.ofRat 2) = 2 := by
  have hread : FiniteDecimal.ofRat 2 = ⟨false, 2, 0⟩ := rfl
  norm_num [hread, FiniteDecimal.value, FiniteDecimal.magnitude]

/-- The perimeter of two sides is exact where the context has room for their sum and for its
double. -/
theorem perimeter_value_eq_iff {sum perimeter : FiniteDecimal}
    (hsum : bindingContext.add width length = some sum)
    (hperimeter : bindingContext.mul (.ofRat 2) sum = some perimeter) :
    perimeter.value = 2 * (width.value + length.value) ↔
      bindingContext.Fits (width.value + length.value) ∧
        bindingContext.Fits (2 * (width.value + length.value)) := by
  have hdouble : (Context.exactProduct (.ofRat 2) sum).value = 2 * sum.value := by
    rw [Context.exactProduct_value, ofRat_two]
  have hiff := Context.double_value_eq_iff hsum hdouble hperimeter
  rwa [Context.exactSum_value] at hiff

theorem area_denoted {text : List Char}
    (hwindow : (bindingArithmetic arithmetic).inWindow
      ((bindingArithmetic arithmetic).mul (some width) (some length)) = true)
    (h : (bindingArithmetic arithmetic).print
      ((bindingArithmetic arithmetic).mul (some width) (some length)) = .ok text) :
    ∃ area, denoted arithmetic text = some area ∧
      (area = width.value * length.value ↔
        bindingContext.Fits (width.value * length.value)) := by
  obtain ⟨area, harea⟩ := exists_of_inWindow hwindow
  rw [harea] at h
  exact ⟨area.value, denoted_of_result harea h, Context.mul_value_eq_iff harea⟩

/-- Twice the sum of two sides is exact where the context has room for the sum and its double. -/
theorem perimeter_denoted {text : List Char}
    (hwindow : (bindingArithmetic arithmetic).inWindow
      ((bindingArithmetic arithmetic).mul ((bindingArithmetic arithmetic).constant 2)
        ((bindingArithmetic arithmetic).add (some width) (some length))) = true)
    (h : (bindingArithmetic arithmetic).print
      ((bindingArithmetic arithmetic).mul ((bindingArithmetic arithmetic).constant 2)
        ((bindingArithmetic arithmetic).add (some width) (some length))) = .ok text) :
    ∃ perimeter, denoted arithmetic text = some perimeter ∧
      (perimeter = 2 * (width.value + length.value) ↔
        bindingContext.Fits (width.value + length.value) ∧
          bindingContext.Fits (2 * (width.value + length.value))) := by
  obtain ⟨perimeter, hperimeter⟩ := exists_of_inWindow hwindow
  rw [hperimeter] at h
  obtain ⟨sum, hsum, hproduct⟩ := Option.bind_eq_some_iff.mp hperimeter
  exact ⟨perimeter.value, denoted_of_result hproduct h, perimeter_value_eq_iff hsum hproduct⟩

/-- The area and the perimeter of the sides that a card gives are exact where the context has room
for them. -/
theorem areaOfSides_denoted (hwidth : parseSpiceNumber arithmetic widthText = .ok width)
    (hlength : parseSpiceNumber arithmetic lengthText = .ok length)
    {sized : InsertionDict String (List Char)} {note : Option (DiodeDerivation (List Char))}
    (h : (bindingArithmetic arithmetic).areaOfSides accepted supplied widthText lengthText =
      .ok (sized, note)) :
    (∃ area text, sized.get? "area" = some text ∧ denoted arithmetic text = some area ∧
      (area = width.value * length.value ↔ bindingContext.Fits (width.value * length.value))) ∧
    ("pj" ∈ accepted → supplied.get? "pj" = none →
      ∃ perimeter text, sized.get? "pj" = some text ∧ denoted arithmetic text = some perimeter ∧
        (perimeter = 2 * (width.value + length.value) ↔
          bindingContext.Fits (width.value + length.value) ∧
            bindingContext.Fits (2 * (width.value + length.value)))) := by
  have hreadWidth : (bindingArithmetic arithmetic).parse widthText = .ok (some width) := by
    show (parseSpiceNumber arithmetic widthText).map some = _
    rw [hwidth]
    rfl
  have hreadLength : (bindingArithmetic arithmetic).parse lengthText = .ok (some length) := by
    show (parseSpiceNumber arithmetic lengthText).map some = _
    rw [hlength]
    rfl
  unfold CardArithmetic.areaOfSides at h
  rw [hreadWidth, Except.ok_bind, hreadLength, Except.ok_bind] at h
  simp only at h
  split_ifs at h with hwindow hperimeter
  · obtain ⟨areaText, hareaText, h⟩ := Except.bind_eq_ok.mp h
    obtain ⟨perimeterText, hperimeterText, h⟩ := Except.bind_eq_ok.mp h
    obtain ⟨rfl, -⟩ := Prod.mk.inj (Except.ok.inj h)
    obtain ⟨hareaWindow, hperimeterWindow⟩ := by
      simpa only [Bool.or_eq_true, not_or, Bool.not_eq_true', Bool.and_eq_true, not_and,
        Bool.not_eq_false, decide_eq_true_eq] using hwindow
    obtain ⟨area, harea, hiff⟩ := area_denoted hareaWindow hareaText
    obtain ⟨perimeter, hpj, hboth⟩ :=
      perimeter_denoted (hperimeterWindow hperimeter.1) hperimeterText
    exact ⟨⟨area, areaText, by simp, harea, hiff⟩,
      fun _ _ => ⟨perimeter, perimeterText, by simp, hpj, hboth⟩⟩
  · obtain ⟨areaText, hareaText, h⟩ := Except.bind_eq_ok.mp h
    obtain ⟨rfl, -⟩ := Prod.mk.inj (Except.ok.inj h)
    obtain ⟨hareaWindow, -⟩ := by
      simpa only [Bool.or_eq_true, not_or, Bool.not_eq_true', Bool.and_eq_true, not_and,
        Bool.not_eq_false, decide_eq_true_eq] using hwindow
    obtain ⟨area, harea, hiff⟩ := area_denoted hareaWindow hareaText
    refine ⟨⟨area, areaText, by simp, harea, hiff⟩, fun hpj hnone => ?_⟩
    exact absurd ⟨hpj, by rw [hnone]; rfl⟩ hperimeter

end Diode

def longMil : List Char := List.replicate 200 '9' ++ ['m', 'i', 'l']

/-- Binding arithmetic: a literal is read as the number that it denotes, or refused, just where that
number fits or is too large; a decimal is printed as the number it is, or refused, just where it
fits or is too large to be printed; a length or an area of a card is exact in the unit of its PDK
just where the authored number fits; and the area and the perimeter of the sides of a diode are
exact just where they fit, and the sum of the sides as well. -/
theorem binding_arithmetic_exact (cases : CaseMap) (arithmetic : Arithmetic) :
    (∀ text, ReadExactly arithmetic text ↔ LiteralSettled arithmetic text) ∧
    (∀ decimal, PrintedExactly arithmetic decimal ↔ Printable decimal) ∧
    (∀ binding ∈ bindingParameters, ∀ role card parameters,
      (mosParameters cases arithmetic binding role card = .ok parameters →
        ∀ parameter ∈ parameters.emitted,
          InUnit arithmetic binding.mos binding.geometryScale parameter) ∧
      (extendedParameters cases arithmetic binding role card = .ok parameters →
        ∀ parameter ∈ parameters.emitted, InUnit arithmetic
          ((binding.deviceCards.lookup role).getD ⟨[], [], [], []⟩) binding.geometryScale
          parameter)) ∧
    ∀ accepted supplied widthText lengthText width length sized note, "area" ∈ accepted →
      supplied.get? "area" = none → supplied.get? "w" = some widthText →
      supplied.get? "l" = some lengthText → parseSpiceNumber arithmetic widthText = .ok width →
      parseSpiceNumber arithmetic lengthText = .ok length →
      deriveDiodeGeometry (bindingArithmetic arithmetic) accepted supplied = .ok (sized, note) →
      (∃ area text, sized.get? "area" = some text ∧ denoted arithmetic text = some area ∧
        (area = width.value * length.value ↔
          bindingContext.Fits (width.value * length.value))) ∧
      ("pj" ∈ accepted → supplied.get? "pj" = none →
        ∃ perimeter text, sized.get? "pj" = some text ∧ denoted arithmetic text = some perimeter ∧
          (perimeter = 2 * (width.value + length.value) ↔
            bindingContext.Fits (width.value + length.value) ∧
              bindingContext.Fits (2 * (width.value + length.value)))) := by
  refine ⟨fun _ => readExactly_iff, printedExactly_iff, ?_, ?_⟩
  · intro binding hbinding role card parameters
    exact ⟨mosParameters_exact hbinding, extendedParameters_exact hbinding⟩
  · intro accepted supplied widthText lengthText width length sized note htakes hnoArea hw hl hwidth
      hlength h
    unfold deriveDiodeGeometry at h
    simp only [hnoArea, hw, hl, if_pos htakes] at h
    obtain ⟨derived, hderived, h⟩ := Except.bind_eq_ok.mp h
    split_ifs at h
    rw [Except.ok.inj h] at hderived
    exact areaOfSides_denoted hwidth hlength hderived

/-- A literal of 200 digits in thousandths of an inch is read, and not as the number it denotes. -/
theorem longMil_rounded : ¬ ReadExactly plainArithmetic longMil := by
  have hread : (parseSpiceNumber plainArithmetic longMil).toOption.any
      (fun value => decide (denoted plainArithmetic longMil ≠ some value.value)) = true := by
    decide +kernel
  obtain ⟨value, hvalue, hne⟩ := Except.exists_ok_of_any hread
  intro h
  exact of_decide_eq_true hne (h value hvalue)

end OpenADA.Pdk
