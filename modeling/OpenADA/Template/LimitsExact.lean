import OpenADA.Template.Limits

/-! Which bounds of a template are published as the numbers that are declared. -/
namespace OpenADA.Template

open Binary64 DecimalContext PyStr
open Scalars (Arithmetic)

section Scalars

variable {arithmetic : Arithmetic} {text : FloatText} {number scale : FiniteDecimal} {raw : Json}

theorem scale_digits (h : scalarNumber arithmetic text raw = some (number, scale)) :
    PyDecimal.digitCount scale.coefficient ≤ 3 := by
  have hone : PyDecimal.digitCount one.coefficient ≤ 3 := by decide
  have htable : ∀ entry ∈ Pdk.spiceScaleDecimals,
      PyDecimal.digitCount entry.2.coefficient ≤ 3 := by decide
  unfold scalarNumber at h
  split at h
  · rw [← (Prod.mk.inj (Option.some.inj h)).2]
    exact hone
  · rw [← (Prod.mk.inj (Option.some.inj h)).2]
    exact hone
  · obtain ⟨chars, -, h⟩ := Option.bind_eq_some_iff.mp h
    obtain ⟨literal, -, h⟩ := Option.bind_eq_some_iff.mp h
    obtain ⟨factor, hfactor, h⟩ := Option.bind_eq_some_iff.mp h
    unfold scaleOf at hfactor
    split_ifs at h hfactor
    obtain ⟨before, after, heq, -⟩ := List.lookup_eq_some_iff.mp hfactor
    obtain ⟨-, rfl⟩ := Prod.mk.inj (Option.some.inj h)
    exact htable _ (heq ▸ List.mem_append_right _ (List.mem_cons_self ..))
  · cases h

theorem magnitude_lt_pow (x : FiniteDecimal) :
    x.magnitude < 10 ^ (adjustedExponent x + 1) := by
  have hlt := x.magnitude_lt
  unfold adjustedExponent
  rwa [show (PyDecimal.digitCount x.coefficient : ℤ) - 1 + x.exponent + 1 =
    PyDecimal.digitCount x.coefficient + x.exponent by ring]

theorem admitted_of_admits (hdigits : PyDecimal.digitCount scale.coefficient ≤ 3)
    (h : admits number scale = true) : Admitted (number.value * scale.value) := by
  obtain ⟨hnumber, hrange⟩ := Bool.and_eq_true_iff.mp h
  have hnumber : PyDecimal.digitCount number.coefficient ≤ 128 := of_decide_eq_true hnumber
  have habs : |number.value * scale.value| = number.magnitude * scale.magnitude := by
    rw [abs_mul, number.abs_value, scale.abs_value]
  rcases of_decide_eq_true hrange with hzero | hexponent
  · have hnone : |number.value * scale.value| = 0 := by
      rw [habs, FiniteDecimal.magnitude, hzero]
      simp
    rw [Admitted, hnone]
    exact ⟨by positivity, 0, 0, by positivity, by norm_num, by simp⟩
  · by_cases hzero : number.coefficient = 0
    · have hnone : |number.value * scale.value| = 0 := by
        rw [habs, FiniteDecimal.magnitude, hzero]
        simp
      rw [Admitted, hnone]
      exact ⟨by positivity, 0, 0, by positivity, by norm_num, by simp⟩
    obtain ⟨hlow, hhigh⟩ := abs_le.mp hexponent
    have hmax : Scalars.maxScalarAdjustedExponent = 300 := rfl
    rw [hmax] at hlow hhigh
    constructor
    · have hproduct : number.magnitude * scale.magnitude <
          10 ^ (adjustedExponent number + 1) * 10 ^ (adjustedExponent scale + 1) :=
        mul_lt_mul'' (magnitude_lt_pow number) (magnitude_lt_pow scale) number.magnitude_nonneg
          scale.magnitude_nonneg
      rw [habs]
      refine hproduct.trans_le ?_
      rw [← zpow_add₀ (by norm_num)]
      exact zpow_le_zpow_right₀ (by norm_num) (by omega)
    · refine ⟨number.coefficient * scale.coefficient, number.exponent + scale.exponent, ?_, ?_, ?_⟩
      · have hfirst := lt_pow_digitCount number.coefficient
        have hsecond := lt_pow_digitCount scale.coefficient
        calc number.coefficient * scale.coefficient
            < 10 ^ PyDecimal.digitCount number.coefficient *
              10 ^ PyDecimal.digitCount scale.coefficient := Nat.mul_lt_mul'' hfirst hsecond
          _ ≤ 10 ^ 131 := by
            rw [← pow_add]
            exact Nat.pow_le_pow_right (by norm_num) (by omega)
      · unfold adjustedExponent at hlow
        omega
      · rw [habs, FiniteDecimal.magnitude, FiniteDecimal.magnitude, zpow_add₀ (by norm_num)]
        push_cast
        ring

theorem Admitted.fits {q : ℚ} (h : Admitted q) {context : Context} (hprec : 131 ≤ context.prec)
    (htiny : context.etiny ≤ -1000) : context.Fits q := by
  obtain ⟨-, c, k, hc, hk, heq⟩ := h
  exact ⟨c, k, hc.trans_le (Nat.pow_le_pow_right (by norm_num) hprec), by omega, heq⟩

theorem admitted_one : Admitted one.value :=
  ⟨by decide +kernel, 1, 0, by norm_num, by norm_num, by decide +kernel⟩

theorem admitted_zero : Admitted zero.value :=
  ⟨by decide +kernel, 0, 0, by norm_num, by norm_num, by decide +kernel⟩

theorem parseScalar_exact (raw : Json) :
    declaredScalar arithmetic text raw =
      (parseScalar arithmetic text raw).map FiniteDecimal.value ∧
    ∀ value, parseScalar arithmetic text raw = some value → Admitted value.value := by
  unfold declaredScalar parseScalar
  cases hparts : scalarNumber arithmetic text raw with
  | none => exact ⟨rfl, fun value h => by cases h⟩
  | some parts =>
    obtain ⟨number, scale⟩ := parts
    rw [Option.bind_some, Option.bind_some]
    by_cases hadmits : admits number scale = true
    · simp only [if_pos hadmits]
      have hadmitted := admitted_of_admits (scale_digits hparts) hadmits
      have hproduct : (Context.exactProduct number scale).value = number.value * scale.value :=
        Context.exactProduct_value
      have hroom : |(Context.exactProduct number scale).value| < 10 ^ (400 : ℤ) :=
        hproduct ▸ hadmitted.1
      obtain ⟨value, hvalue⟩ := @Context.exists_fix scalarContext _ 400 (by decide) hroom
      have hfix : scalarContext.mul number scale = some value := hvalue
      have hexact : value.value = number.value * scale.value := by
        have hfits := @Admitted.fits _ hadmitted scalarContext (by decide) (by decide)
        rw [Context.fix_of_fits hvalue (hproduct ▸ hfits), hproduct]
      rw [hfix]
      refine ⟨congrArg some hexact.symm, fun result hresult => ?_⟩
      rw [← Option.some.inj hresult, hexact]
      exact hadmitted
    · simp only [if_neg hadmits]
      exact ⟨rfl, fun value h => by cases h⟩

end Scalars

section Declared

variable (arithmetic : Arithmetic) (text : FloatText)

def declaredField (fields : PyJson.Mapping JsonFloat) (name : String) (default : ℚ) : Option ℚ :=
  match fields.lookup (lit name) with
  | some raw => declaredScalar arithmetic text raw
  | none => some default

def declaredExpression (binding : Binding) (fields : PyJson.Mapping JsonFloat) : Option ℚ := do
  let factor ← declaredField arithmetic text fields "factor" 1
  let offset ← declaredField arithmetic text fields "offset" 0
  some (factor * binding.value.value + offset)

variable (bindings : PyStr → Option Binding)

def declaredLimit : Json → Option ℚ
  | .int n => some n
  | .float (.finite x) => some (text.digits x).value
  | .object fields => do
    let ref ← fields.lookup (lit "ref")
    let name ← ref.text?
    let binding ← bindings name
    declaredExpression arithmetic text binding fields
  | _ => none

/-- A bound is refused with an issue, or its number is published as it is declared. -/
def ExactOrRefused (unit : PyStr) (raw : Json) : Prop :=
  ∃ outcome, limitValue arithmetic text bindings unit raw = .ok outcome ∧
    (outcome.issues ≠ [] ∨ ∃ x declared, outcome.value = some x ∧
      declaredLimit arithmetic text bindings raw = some declared ∧
      (text.digits x).value = declared)

/-- An integer is the number of a float's text. An object has a `ref`; and where nothing else is
refused about it, the number it declares has at most 288 digits, or what it is rounded to is the
number of no float's text. -/
def Settled (unit : PyStr) : Json → Prop
  | .int n => ∃ x, (text.digits x).value = n
  | .object fields => ∃ ref, fields.lookup (lit "ref") = some ref ∧
      (closedIssues ["ref"] ["factor", "offset"] "template.limit.invalid" fields = [] →
        ∀ name ∈ ref.text?, ∀ binding ∈ bindings name, binding.unit = unit →
        ∀ declared ∈ declaredExpression arithmetic text binding fields,
          limitContext.Fits declared ∨
            ∀ rounded, limitContext.RoundsTo declared rounded →
              ∀ x, (text.digits x).value ≠ rounded)
  | _ => True

end Declared

section Exact

variable {arithmetic : Arithmetic} {text : FloatText} {bindings : PyStr → Option Binding}

theorem declaredField_eq (fields : PyJson.Mapping JsonFloat) (name : String)
    {default : FiniteDecimal} {q : ℚ} (hdefault : default.value = q) (hadmitted : Admitted q) :
    declaredField arithmetic text fields name q =
      (scalarField arithmetic text fields name default).map FiniteDecimal.value ∧
    ∀ value, scalarField arithmetic text fields name default = some value →
      Admitted value.value := by
  unfold declaredField scalarField
  cases fields.lookup (lit name) with
  | none =>
    refine ⟨by rw [← hdefault]; rfl, fun value h => ?_⟩
    rw [← Option.some.inj h, hdefault]
    exact hadmitted
  | some raw => exact parseScalar_exact raw

/-- A product of two admitted numbers has room in the context of the limits. -/
theorem product_exact {factor value : FiniteDecimal} (hfactor : Admitted factor.value)
    (hvalue : Admitted value.value) : ∃ product, limitContext.mul factor value = some product ∧
      product.value = factor.value * value.value ∧ |product.value| < 10 ^ (800 : ℤ) := by
  have hproduct : (Context.exactProduct factor value).value = factor.value * value.value :=
    Context.exactProduct_value
  have hbound : |factor.value * value.value| < 10 ^ (800 : ℤ) := by
    have hsplit : (10 : ℚ) ^ (800 : ℤ) = 10 ^ (400 : ℤ) * 10 ^ (400 : ℤ) := by
      rw [← zpow_add₀ (by norm_num)]
      norm_num
    rw [abs_mul, hsplit]
    exact mul_lt_mul'' hfactor.1 hvalue.1 (abs_nonneg _) (abs_nonneg _)
  have hfits : limitContext.Fits (factor.value * value.value) := by
    obtain ⟨-, c, k, hc, hk, hfactor⟩ := hfactor
    obtain ⟨-, d, l, hd, hl, hvalue⟩ := hvalue
    refine ⟨c * d, k + l, ?_, ?_, ?_⟩
    · calc c * d < 10 ^ 131 * 10 ^ 131 := Nat.mul_lt_mul'' hc hd
        _ ≤ 10 ^ limitContext.prec := by
          have hprec : limitContext.prec = 131 + 131 + 26 := rfl
          rw [hprec, pow_add, pow_add]
          exact Nat.le_mul_of_pos_right _ (by positivity)
    · have htiny : limitContext.etiny = -1000286 := by decide
      omega
    · rw [abs_mul, hfactor, hvalue, zpow_add₀ (by norm_num)]
      push_cast
      ring
  obtain ⟨product, hmul⟩ := @Context.exists_fix limitContext (Context.exactProduct factor value) 800
    (by decide) (hproduct ▸ hbound)
  have hexact : product.value = factor.value * value.value := by
    rw [Context.fix_of_fits hmul (hproduct ▸ hfits), hproduct]
  exact ⟨product, hmul, hexact, hexact ▸ hbound⟩

theorem abs_add_lt {a b bound : ℚ} (ha : |a| < bound) (hb : |b| < bound) :
    |a + b| < 10 * bound := by
  linarith [abs_add_le a b, abs_nonneg a]

/-- A limit expression is computed as its declared arithmetic, rounded to the context once. -/
theorem limitExpression_eq (binding : Binding) (fields : PyJson.Mapping JsonFloat) :
    (limitExpression arithmetic text binding fields = none ∧
      declaredExpression arithmetic text binding fields = none) ∨
    ∃ computed declared, limitExpression arithmetic text binding fields = some computed ∧
      declaredExpression arithmetic text binding fields = some declared ∧
      limitContext.RoundsTo declared computed.value ∧
      (computed.value = declared ↔ limitContext.Fits declared) := by
  have hone : one.value = 1 := by decide +kernel
  have hzero : zero.value = 0 := by decide +kernel
  obtain ⟨hfactor, hfactorAdmitted⟩ :=
    @declaredField_eq arithmetic text fields "factor" one 1 hone (hone ▸ admitted_one)
  obtain ⟨hoffset, hoffsetAdmitted⟩ :=
    @declaredField_eq arithmetic text fields "offset" zero 0 hzero (hzero ▸ admitted_zero)
  unfold limitExpression declaredExpression
  rw [hfactor, hoffset]
  cases hf : scalarField arithmetic text fields "factor" one with
  | none => exact .inl ⟨rfl, rfl⟩
  | some factor =>
    cases ho : scalarField arithmetic text fields "offset" zero with
    | none => exact .inl ⟨rfl, rfl⟩
    | some offset =>
      right
      obtain ⟨product, hmul, hproduct, hbound⟩ :=
        product_exact (hfactorAdmitted factor hf) binding.admitted
      have hsum : (Context.exactSum product offset).value = product.value + offset.value :=
        Context.exactSum_value
      have hroom : |(Context.exactSum product offset).value| < 10 ^ (801 : ℤ) := by
        have hoffset := (hoffsetAdmitted offset ho).1
        have hsmall : (10 : ℚ) ^ (400 : ℤ) ≤ 10 ^ (800 : ℤ) :=
          zpow_le_zpow_right₀ (by norm_num) (by norm_num)
        have hnext : (10 : ℚ) ^ (801 : ℤ) = 10 * 10 ^ (800 : ℤ) := by
          rw [mul_comm, ← zpow_add_one₀ (by norm_num)]
          norm_num
        rw [hsum, hnext]
        exact abs_add_lt hbound (hoffset.trans_le hsmall)
      obtain ⟨computed, hadd⟩ := @Context.exists_fix limitContext _ 801 (by decide) hroom
      have hdeclared : (Context.exactSum product offset).value =
          factor.value * binding.value.value + offset.value := by rw [hsum, hproduct]
      refine ⟨computed, factor.value * binding.value.value + offset.value, ?_, rfl,
        ⟨_, computed, hdeclared, hadd, rfl⟩, ?_⟩
      · simp only [Option.bind_eq_bind, Option.bind_some, hmul]
        exact hadd
      · rw [← hdeclared]
        exact Context.fix_value_eq_iff hadd

/-- A limit expression is refused, or published as it is declared, where the declared number has at
most 288 digits or is rounded to the number of no float's text. -/
theorem expressionValue_iff (binding : Binding) (fields : PyJson.Mapping JsonFloat) :
    ((expressionValue arithmetic text binding fields).issues ≠ [] ∨
      ∃ x declared, (expressionValue arithmetic text binding fields).value = some x ∧
        declaredExpression arithmetic text binding fields = some declared ∧
        (text.digits x).value = declared) ↔
    ∀ declared ∈ declaredExpression arithmetic text binding fields,
      limitContext.Fits declared ∨ ∀ rounded, limitContext.RoundsTo declared rounded →
        ∀ x, (text.digits x).value ≠ rounded := by
  have hrefused (code : String) : (Outcome.refused (α := Double) code []).issues ≠ [] :=
    List.cons_ne_nil _ _
  rcases @limitExpression_eq arithmetic text binding fields with ⟨hnone, hdeclared⟩ |
    ⟨computed, declared, hcomputed, hdeclared, hrounds, hexact⟩
  · refine iff_of_true (.inl ?_) fun declared h => ?_
    · rw [expressionValue, hnone]
      exact hrefused _
    · rw [hdeclared] at h
      cases h
  · have hread (x : Double) (hx : (text.digits x).value = computed.value) :
        doubleOf computed.value = some x := by
      rw [← hx]
      exact doubleOf_eq_some.mpr (text.nearest_digits x)
    rw [hdeclared]
    unfold expressionValue
    rw [hcomputed]
    simp only [Option.mem_def, Option.some_inj, forall_eq']
    constructor
    · rintro hvalue
      by_contra hfails
      push Not at hfails
      obtain ⟨hlong, rounded, hrounded, x, hx⟩ := hfails
      -- the rounded number is published, which is not the declared one
      rw [hrounded.unique hrounds] at hx
      rw [hread x hx] at hvalue
      simp only [if_pos hx] at hvalue
      rcases hvalue with hissue | ⟨y, number, hy, rfl, hnumber⟩
      · exact hissue rfl
      · obtain rfl := Option.some.inj hy
        exact hlong (hexact.mp (hx.symm.trans hnumber))
    · intro hsettled
      cases hdouble : doubleOf computed.value with
      | none => exact .inl (hrefused _)
      | some x =>
        simp only
        by_cases hx : (text.digits x).value = computed.value
        · rw [if_pos hx]
          right
          rcases hsettled with hfits | hnone
          · exact ⟨x, declared, rfl, rfl, hx.trans (hexact.mpr hfits)⟩
          · exact absurd hx (hnone _ hrounds x)
        · rw [if_neg hx]
          exact .inl (hrefused _)

/-- A bound is refused or published as it is declared just where it is settled. -/
theorem exactOrRefused_iff (unit : PyStr) (raw : Json) :
    ExactOrRefused arithmetic text bindings unit raw ↔
      Settled arithmetic text bindings unit raw := by
  have hrefused (code : String) (hraw : limitValue arithmetic text bindings unit raw =
      .ok (.refused code [])) : ExactOrRefused arithmetic text bindings unit raw :=
    ⟨_, hraw, .inl (List.cons_ne_nil _ _)⟩
  cases raw with
  | null => exact iff_of_true (hrefused _ rfl) trivial
  | bool value => exact iff_of_true (hrefused _ rfl) trivial
  | str value => exact iff_of_true (hrefused _ rfl) trivial
  | array items => exact iff_of_true (hrefused _ rfl) trivial
  | int n =>
    unfold ExactOrRefused
    delta limitValue
    dsimp only
    constructor
    · rintro ⟨outcome, houtcome, hvalue⟩
      cases hdouble : doubleOf n with
      | none =>
        rw [hdouble] at houtcome
        cases houtcome
      | some x =>
        rw [hdouble] at houtcome
        obtain rfl := Except.ok.inj houtcome
        rcases hvalue with hissue | ⟨y, declared, -, hdeclared, hy⟩
        · exact absurd rfl hissue
        · exact ⟨y, hy.trans (Option.some.inj hdeclared).symm⟩
    · rintro ⟨x, hx⟩
      have hdouble : doubleOf n = some x := by
        rw [← hx]
        exact doubleOf_eq_some.mpr (text.nearest_digits x)
      rw [hdouble]
      exact ⟨_, rfl, .inr ⟨x, n, rfl, rfl, hx⟩⟩
  | float x =>
    cases x with
    | finite x => exact iff_of_true ⟨_, rfl, .inr ⟨x, _, rfl, rfl, rfl⟩⟩ trivial
    | infinite negative => exact iff_of_true (hrefused _ rfl) trivial
  | object fields =>
    unfold ExactOrRefused Settled
    delta limitValue
    dsimp only
    have hissue {shape : List Issue} (issue : Issue) : shape ++ [issue] ≠ [] :=
      List.append_ne_nil_of_right_ne_nil shape (List.cons_ne_nil issue [])
    cases href : fields.lookup (lit "ref") with
    | none => exact iff_of_false (by rintro ⟨_, h, -⟩; cases h) (by rintro ⟨_, h, -⟩; cases h)
    | some ref =>
      simp only [Option.some_inj, exists_eq_left']
      cases hname : ref.text? with
      | none => exact iff_of_true ⟨_, rfl, .inl (hissue _)⟩ (by simp)
      | some name =>
        cases hbinding : bindings name with
        | none =>
          simp only [Option.bind_some, hbinding, Option.map_none]
          exact iff_of_true ⟨_, rfl, .inl (hissue _)⟩ (by simp [hbinding])
        | some binding =>
          simp only [Option.bind_some, Option.map_some, hbinding, Option.mem_def, Option.some_inj,
            forall_eq']
          by_cases hunit : binding.unit = unit
          · rw [if_pos hunit]
            simp only [Except.ok.injEq, exists_eq_left', hunit, forall_const]
            have hdeclared : declaredLimit arithmetic text bindings (.object fields) =
                declaredExpression arithmetic text binding fields := by
              rw [declaredLimit, href]
              simp only [Option.bind_eq_bind, Option.bind_some, hname, hbinding]
            rw [hdeclared]
            by_cases hshape :
                closedIssues ["ref"] ["factor", "offset"] "template.limit.invalid" fields = []
            · rw [hshape, List.nil_append]
              simp only [forall_const]
              exact @expressionValue_iff arithmetic text binding fields
            · refine iff_of_true (.inl fun h => hshape (List.append_eq_nil_iff.mp h).1) ?_
              exact fun h => absurd h hshape
          · simp only [if_neg hunit]
            exact iff_of_true ⟨_, rfl, .inl (hissue _)⟩ fun _ h => absurd h hunit

end Exact

end OpenADA.Template
