import OpenADA.Scalars.Agreement
import OpenADA.Template.LimitsExact

/-! The two bounds of a specification, and the numbers between them. -/
namespace OpenADA.Template

open Binary64 DecimalContext PyStr
open PyDecimal (roundHalfEven)
open Scalars (Arithmetic)

/-- A number at which an interval ends, and whether it is part of the interval. -/
structure Endpoint where
  number : ℚ
  inclusive : Bool

def between (lower upper : Endpoint) : Set ℚ :=
  {q | (lower.number < q ∨ lower.inclusive = true ∧ lower.number = q) ∧
    (q < upper.number ∨ upper.inclusive = true ∧ q = upper.number)}

theorem between_nonempty_iff {lower upper : Endpoint} : (between lower upper).Nonempty ↔
    lower.number < upper.number ∨
      lower.number = upper.number ∧ lower.inclusive = true ∧ upper.inclusive = true := by
  constructor
  · rintro ⟨q, hlow | ⟨hlow, rfl⟩, hhigh | ⟨hhigh, hq⟩⟩
    · exact .inl (hlow.trans hhigh)
    · exact .inl (hq ▸ hlow)
    · exact .inl hhigh
    · exact .inr ⟨hq, hlow, hhigh⟩
  · rintro (hlt | ⟨heq, hlow, hhigh⟩)
    · obtain ⟨q, hlow, hhigh⟩ := exists_between hlt
      exact ⟨q, .inl hlow, .inl hhigh⟩
    · exact ⟨lower.number, .inr ⟨hlow, rfl⟩, .inr ⟨hhigh, heq⟩⟩

section Bounds

variable (arithmetic : Arithmetic) (text : FloatText) (bindings : PyStr → Option Binding)

def Bound.endpoint (bound : Bound) : Endpoint := ⟨(text.digits bound.value).value, bound.inclusive⟩

def declaredEndpoint (raw : Json) : Option Endpoint := do
  let number ← declaredLimit arithmetic text bindings (PyJson.member raw "value")
  let inclusive ← flag? (PyJson.member raw "inclusive")
  some ⟨number, inclusive⟩

def BoundSettled (raw : Json) : Prop :=
  ∀ unit ∈ unitOf (PyJson.member raw "unit"),
    Settled arithmetic text bindings unit (PyJson.member raw "value")

end Bounds

section Pairs

variable {arithmetic : Arithmetic} {text : FloatText} {bindings : PyStr → Option Binding}

/-- The floats of two bounds leave no number between them just where their texts leave none. -/
theorem excludes_iff (lower upper : Bound) :
    lower.excludes upper = true ↔
      ¬ (between (lower.endpoint text) (upper.endpoint text)).Nonempty := by
  have hlt : upper.value.value < lower.value.value ↔
      (upper.endpoint text).number < (lower.endpoint text).number :=
    text.printing.shown_lt_iff.symm
  have heq : lower.value.value = upper.value.value ↔
      (lower.endpoint text).number = (upper.endpoint text).number := by
    rw [← Double.ext_iff]
    exact text.printing.shown_injective.eq_iff.symm
  rw [between_nonempty_iff, Bound.excludes, Bool.or_eq_true, decide_eq_true_iff, hlt,
    Bool.and_eq_true, decide_eq_true_iff, heq, Bool.not_eq_true', Bool.and_eq_false_iff]
  have hlower : (lower.endpoint text).inclusive = lower.inclusive := rfl
  have hupper : (upper.endpoint text).inclusive = upper.inclusive := rfl
  rw [hlower, hupper]
  rcases lt_trichotomy (lower.endpoint text).number (upper.endpoint text).number with h | h | h
  · simp [h, h.ne, h.le]
  · cases lower.inclusive <;> cases upper.inclusive <;> simp [h]
  · simp [h, h.ne', h.le]

theorem compileBound_of_settled {raw : Json} (h : BoundSettled arithmetic text bindings raw) :
    ∃ outcome, compileBound arithmetic text bindings raw = .ok outcome ∧
      (outcome.issues ≠ [] ∨ ∃ bound, outcome.value = some bound ∧
        declaredEndpoint arithmetic text bindings raw = some (bound.endpoint text)) := by
  have hrefused : (Outcome.refused (α := Bound) "template.limit.invalid" []).issues ≠ [] :=
    List.cons_ne_nil _ _
  cases raw with
  | null => exact ⟨_, rfl, .inl hrefused⟩
  | bool value => exact ⟨_, rfl, .inl hrefused⟩
  | int n => exact ⟨_, rfl, .inl hrefused⟩
  | float x => exact ⟨_, rfl, .inl hrefused⟩
  | str value => exact ⟨_, rfl, .inl hrefused⟩
  | array items => exact ⟨_, rfl, .inl hrefused⟩
  | object fields =>
    simp only [compileBound]
    cases hunit : unitOf (PyJson.member (.object fields) "unit") with
    | none => exact ⟨_, rfl, .inl (by simp)⟩
    | some unit =>
      cases hflag : flag? (PyJson.member (.object fields) "inclusive") with
      | none => exact ⟨_, rfl, .inl (by simp)⟩
      | some inclusive =>
        obtain ⟨value, hvalue, hexact⟩ := (exactOrRefused_iff unit _).mpr (h unit hunit)
        simp only [hvalue]
        refine ⟨_, rfl, ?_⟩
        rcases hexact with hissues | ⟨x, declared, hx, hdeclared, hshown⟩
        · left
          simp [hissues]
        · right
          refine ⟨⟨x, unit, inclusive⟩, by rw [hx, Option.map_some], ?_⟩
          rw [declaredEndpoint, hdeclared, hflag, ← hshown]
          rfl

theorem closedIssues_path {required optional : List String} {code : String}
    {fields : PyJson.Mapping JsonFloat} :
    ∀ issue ∈ closedIssues required optional code fields, issue.path ≠ [] := by
  intro issue h
  unfold closedIssues at h
  rcases List.mem_append.mp h with h | h
  · obtain ⟨name, -, rfl⟩ := List.mem_map.mp h
    exact List.cons_ne_nil _ _
  · obtain ⟨name, -, rfl⟩ := List.mem_map.mp h
    exact List.cons_ne_nil _ _

theorem named_path {issues : List Issue} {name : String} :
    ∀ issue ∈ issues.map (fun issue => (⟨issue.code, lit name :: issue.path⟩ : Issue)),
      issue.path ≠ [] := by
  intro issue h
  obtain ⟨inner, -, rfl⟩ := List.mem_map.mp h
  exact List.cons_ne_nil _ _

theorem joinBounds_alone {shape : List Issue} {lower upper : Outcome (Option Bound)} {issue : Issue}
    (hshape : ∀ inner ∈ shape, inner.path ≠ []) (hlower : ∀ inner ∈ lower.issues, inner.path ≠ [])
    (hupper : ∀ inner ∈ upper.issues, inner.path ≠ []) (hpath : issue.path = [])
    (h : (joinBounds shape lower upper).issues = [issue]) :
    lower.issues = [] ∧ upper.issues = [] ∧ ∃ low high, lower.value = some low ∧
      upper.value = some high ∧ pairIssues ⟨low, high⟩ = [issue] := by
  have hbelow : ∀ inner ∈ shape ++ lower.issues ++ upper.issues, inner.path ≠ [] := by
    intro inner hinner
    rcases List.mem_append.mp hinner with hinner | hinner
    · rcases List.mem_append.mp hinner with hinner | hinner
      · exact hshape inner hinner
      · exact hlower inner hinner
    · exact hupper inner hinner
  have hnone : shape ++ lower.issues ++ upper.issues ≠ [issue] := by
    intro heq
    exact hbelow issue (heq ▸ List.mem_singleton_self issue) hpath
  unfold joinBounds at h
  cases hlow : lower.value with
  | none =>
    rw [hlow] at h
    exact absurd h hnone
  | some low =>
    cases hhigh : upper.value with
    | none =>
      rw [hlow, hhigh] at h
      exact absurd h hnone
    | some high =>
      rw [hlow, hhigh] at h
      simp only at h
      rcases List.append_eq_singleton_iff.mp h with ⟨hbefore, hpair⟩ | ⟨hbefore, -⟩
      · have hparts := List.append_eq_nil_iff.mp hbefore
        exact ⟨(List.append_eq_nil_iff.mp hparts.1).2, hparts.2, low, high, rfl, rfl, hpair⟩
      · exact absurd hbefore hnone

theorem excludes_of_empty {lower upper : Bound}
    (h : pairIssues ⟨some lower, some upper⟩ = [⟨"template.limit.empty_interval", []⟩]) :
    lower.excludes upper = true := by
  simp only [pairIssues] at h
  split_ifs at h with hunit hexcludes
  · exact absurd (congrArg Issue.code (List.cons.inj h).1) (by decide)
  · exact hexcludes

theorem not_excludes_of_nil {lower upper : Bound} (h : pairIssues ⟨some lower, some upper⟩ = []) :
    lower.excludes upper ≠ true := by
  simp only [pairIssues] at h
  split_ifs at h with hunit hexcludes
  exact hexcludes

end Pairs

section Limits

variable (arithmetic : Arithmetic) (text : FloatText) (bindings : PyStr → Option Binding)

/-- The limits with these two bounds are refused, or published as they are declared with a number
between them; and they are refused as an empty interval where the declared one is empty. -/
def PairAgrees (fields : PyJson.Mapping JsonFloat) (low high : Json) : Prop :=
  ∃ outcome, compileLimits arithmetic text bindings (.object fields) = .ok outcome ∧
    (outcome.issues ≠ [] ∨ ∃ lower upper : Bound,
      outcome.value = some ⟨some lower, some upper⟩ ∧
      declaredEndpoint arithmetic text bindings low = some (lower.endpoint text) ∧
      declaredEndpoint arithmetic text bindings high = some (upper.endpoint text) ∧
      (between (lower.endpoint text) (upper.endpoint text)).Nonempty) ∧
    (outcome.issues = [⟨"template.limit.empty_interval", []⟩] → ∃ lower upper : Endpoint,
      declaredEndpoint arithmetic text bindings low = some lower ∧
      declaredEndpoint arithmetic text bindings high = some upper ∧
      ¬ (between lower upper).Nonempty)

variable {arithmetic text bindings}

theorem pairAgrees_of_settled {fields : PyJson.Mapping JsonFloat} {low high : Json}
    (hlow : fields.lookup (lit "lower") = some low)
    (hhigh : fields.lookup (lit "upper") = some high)
    (hlowSettled : BoundSettled arithmetic text bindings low)
    (hhighSettled : BoundSettled arithmetic text bindings high) :
    PairAgrees arithmetic text bindings fields low high := by
  obtain ⟨lower, hlower, hlowerExact⟩ := compileBound_of_settled hlowSettled
  obtain ⟨upper, hupper, hupperExact⟩ := compileBound_of_settled hhighSettled
  have hcompiled : compileLimits arithmetic text bindings (.object fields) =
      .ok (joinBounds (closedIssues [] ["lower", "upper"] "template.limit.invalid" fields)
        ⟨lower.issues.map fun issue => ⟨issue.code, lit "lower" :: issue.path⟩, lower.used,
          lower.value.map some⟩
        ⟨upper.issues.map fun issue => ⟨issue.code, lit "upper" :: issue.path⟩, upper.used,
          upper.value.map some⟩) := by
    cases fields with
    | nil => cases hlow
    | cons field rest =>
      simp only [compileLimits, optionalBound, hlow, hhigh, hlower, hupper]
      rfl
  refine ⟨_, hcompiled, ?_, ?_⟩
  · rcases hlowerExact with hissues | ⟨lowBound, hlowValue, hlowDeclared⟩
    · left
      unfold joinBounds
      cases lower.value <;> cases upper.value <;> simp [hissues]
    · rcases hupperExact with hissues | ⟨highBound, hhighValue, hhighDeclared⟩
      · left
        unfold joinBounds
        cases lower.value <;> cases upper.value <;> simp [hissues]
      · rw [hlowValue, hhighValue]
        simp only [joinBounds, Option.map_some]
        by_cases hpair : pairIssues ⟨some lowBound, some highBound⟩ = []
        · right
          rw [if_pos hpair]
          refine ⟨lowBound, highBound, rfl, hlowDeclared, hhighDeclared, ?_⟩
          by_contra hempty
          exact not_excludes_of_nil hpair ((excludes_iff lowBound highBound).mpr hempty)
        · left
          simp [hpair]
  · intro halone
    obtain ⟨hlowIssues, hhighIssues, lowValue, highValue, hlowValue, hhighValue, hpair⟩ :=
      joinBounds_alone closedIssues_path named_path named_path rfl halone
    rcases hlowerExact with hissues | ⟨lowBound, hlowBound, hlowDeclared⟩
    · exact absurd (List.map_eq_nil_iff.mp hlowIssues) hissues
    · rcases hupperExact with hissues | ⟨highBound, hhighBound, hhighDeclared⟩
      · exact absurd (List.map_eq_nil_iff.mp hhighIssues) hissues
      · rw [hlowBound] at hlowValue
        rw [hhighBound] at hhighValue
        obtain rfl := Option.some.inj hlowValue
        obtain rfl := Option.some.inj hhighValue
        exact ⟨_, _, hlowDeclared, hhighDeclared,
          (excludes_iff lowBound highBound).mp (excludes_of_empty hpair)⟩

/-- What `json.loads` makes of a number that is written with a fraction or an exponent. -/
def decodedFraction (q : ℚ) : Json :=
  match doubleOf q with
  | some x => .float (.finite x)
  | none => .float (.infinite (decide (q < 0)))

/-- A written number is refused where it is beyond the floats, and else published as the number of
the text of its float. -/
theorem fraction_iff (unit : PyStr) (q : ℚ) :
    (∃ outcome, limitValue arithmetic text bindings unit (decodedFraction q) = .ok outcome ∧
      (outcome.issues ≠ [] ∨ ∃ x, outcome.value = some x ∧ (text.digits x).value = q)) ↔
    doubleOf q = none ∨ ∃ x, (text.digits x).value = q := by
  unfold decodedFraction
  constructor
  · rintro ⟨outcome, houtcome, hvalue⟩
    cases hdouble : doubleOf q with
    | none => exact .inl rfl
    | some x =>
      rw [hdouble] at houtcome
      delta limitValue at houtcome
      dsimp only at houtcome
      obtain rfl := Except.ok.inj houtcome
      rcases hvalue with hissue | ⟨y, -, hy⟩
      · exact absurd rfl hissue
      · exact .inr ⟨y, hy⟩
  · rintro (hnone | ⟨x, hx⟩)
    · rw [hnone]
      exact ⟨_, rfl, .inl (List.cons_ne_nil _ _)⟩
    · have hdouble : doubleOf q = some x := by
        rw [← hx]
        exact doubleOf_eq_some.mpr (text.nearest_digits x)
      rw [hdouble]
      exact ⟨_, rfl, .inr ⟨x, rfl, hx⟩⟩

variable (arithmetic text bindings) in
/-- Every bound is refused or published as the number it declares just where it is settled; a number
with a fraction just where it is beyond the floats or the number of a float's text; and two settled
bounds are published just where there is a number between the declared ones. -/
theorem limits_exactOrRefused :
    (∀ unit raw, ExactOrRefused arithmetic text bindings unit raw ↔
      Settled arithmetic text bindings unit raw) ∧
    (∀ (unit : PyStr) (q : ℚ),
      (∃ outcome, limitValue arithmetic text bindings unit (decodedFraction q) = .ok outcome ∧
        (outcome.issues ≠ [] ∨ ∃ x, outcome.value = some x ∧ (text.digits x).value = q)) ↔
      doubleOf q = none ∨ ∃ x, (text.digits x).value = q) ∧
    ∀ (fields : PyJson.Mapping JsonFloat) (low high : Json),
      fields.lookup (lit "lower") = some low → fields.lookup (lit "upper") = some high →
      BoundSettled arithmetic text bindings low → BoundSettled arithmetic text bindings high →
      PairAgrees arithmetic text bindings fields low high := by
  refine ⟨fun unit raw => exactOrRefused_iff unit raw, fun unit q => fraction_iff unit q, ?_⟩
  intro fields low high hlow hhigh hlowSettled hhighSettled
  exact pairAgrees_of_settled hlow hhigh hlowSettled hhighSettled

end Limits

section Counterexamples

theorem decimal_of_multiple (m : ℤ) (k : ℕ) :
    (⟨decide ((m : ℚ) * 2 ^ (-k : ℤ) < 0), m.natAbs * 5 ^ k, -k⟩ : FiniteDecimal).value =
      m * 2 ^ (-k : ℤ) := by
  have hfive : (10 : ℚ) ^ (-k : ℤ) * 5 ^ k = 2 ^ (-k : ℤ) := by
    have hten : (10 : ℚ) = 2 * 5 := by norm_num
    rw [hten, mul_zpow, zpow_neg 5, zpow_natCast, mul_assoc, inv_mul_cancel₀ (by positivity),
      mul_one]
  have hpow := unit_pos (-k)
  have habs : ((m.natAbs : ℕ) : ℚ) = |(m : ℚ)| := by
    rw [Nat.cast_natAbs, Int.cast_abs]
  unfold FiniteDecimal.value FiniteDecimal.magnitude
  simp only [decide_eq_true_eq, Nat.cast_mul, Nat.cast_pow, Nat.cast_ofNat, habs]
  rw [mul_assoc, mul_comm (5 ^ k : ℚ), hfive]
  by_cases hneg : (m : ℚ) * 2 ^ (-k : ℤ) < 0
  · rw [if_pos hneg, abs_of_neg (neg_of_mul_neg_left hneg hpow.le)]
    ring
  · have hm : 0 ≤ (m : ℚ) := nonneg_of_mul_nonneg_left (not_lt.mp hneg) hpow
    rw [if_neg hneg, abs_of_nonneg hm, one_mul]

def exactDigits (x : Double) : FiniteDecimal :=
  ⟨decide (x.value < 0), (x.value * 2 ^ (1074 : ℤ)).num.natAbs * 5 ^ 1074, -1074⟩

theorem exactDigits_value (x : Double) : (exactDigits x).value = x.value := by
  obtain ⟨m, hm⟩ := x.exists_multiple
  have hnum : (x.value * 2 ^ (1074 : ℤ)).num = m := by
    rw [hm, mul_assoc, ← zpow_add₀ two_ne_zero, neg_add_cancel, zpow_zero, mul_one, Rat.num_intCast]
  have hvalue := decimal_of_multiple m 1074
  rw [exactDigits, hnum, hm]
  exact hvalue

def exactText : FloatText where
  digits := exactDigits
  nearest_digits x := (exactDigits_value x).symm ▸ x.nearest_value

/-- The quantity `a` of one volt. -/
def oneVolt (name : PyStr) : Option Binding :=
  if name = lit "a" then some ⟨one, lit "V", admitted_one⟩ else none

/-- `a + 1e-300`. -/
def longSum : PyJson.Mapping JsonFloat :=
  [(lit "ref", .str (lit "a")), (lit "offset", .str (lit "1e-300"))]

theorem nearest_odd : ∀ x : Double, x.value ≠ 2 ^ 53 + 1 := by
  intro x hx
  have hfixed := (nearest_eq_some x.nearest_value).1
  have hlog : Int.log 2 |x.value| = 53 := by
    have hpos : (0 : ℚ) < 2 ^ 53 + 1 := by norm_num
    rw [hx, abs_of_pos hpos]
    apply Int.le_antisymm
    · rw [← Int.lt_add_one_iff, ← Int.lt_zpow_iff_log_lt one_lt_two hpos]
      norm_num
    · rw [← Int.zpow_le_iff_le_log one_lt_two hpos]
      norm_num
  have hunit : unitExponent x.value = 1 := by
    rw [unitExponent, hlog]
    rfl
  rw [rounded, hunit, hx, zpow_one] at hfixed
  have heven : roundHalfEven ((2 ^ 53 + 1) / 2 : ℚ) * 2 = (2 ^ 53 + 1 : ℤ) := by
    exact_mod_cast hfixed
  omega

theorem doubleOf_large : doubleOf (10 ^ 400) = none := by
  have hlarge : (2 : ℚ) ^ 1024 ≤ 10 ^ 400 := by
    calc (2 : ℚ) ^ 1024 ≤ 2 ^ (3 * 400) := pow_le_pow_right₀ one_le_two (by norm_num)
      _ = (2 ^ 3) ^ 400 := pow_mul _ _ _
      _ ≤ 10 ^ 400 := pow_le_pow_left₀ (by norm_num) (by norm_num) _
  have hfixed : rounded (2 ^ 1024) = 2 ^ 1024 := by
    have hbits := @rounded_of_bits 1 1024 (by norm_num) (by norm_num)
    rwa [Int.cast_one, one_mul, zpow_ofNat] at hbits
  have hrounded := rounded_mono hlarge
  rw [hfixed] at hrounded
  unfold doubleOf
  exact dif_neg (not_lt.mpr (hrounded.trans (le_abs_self _)))

theorem longSum_rounded :
    (limitExpression Scalars.plainArithmetic exactText ⟨one, lit "V", admitted_one⟩ longSum).any
      (fun computed => computed.value = 1) = true ∧
    declaredExpression Scalars.plainArithmetic exactText ⟨one, lit "V", admitted_one⟩ longSum =
      some (1 + 10 ^ (-300 : ℤ)) := by
  constructor
  · decide +kernel
  · decide +kernel

/-- An integer of 54 bits is published as the float next to it, and a volt with a small offset as a
volt; a longer integer and an object without a `ref` raise. -/
theorem limits_inexact :
    ¬ ExactOrRefused Scalars.plainArithmetic exactText oneVolt (lit "V") (.int (2 ^ 53 + 1)) ∧
    ¬ ExactOrRefused Scalars.plainArithmetic exactText oneVolt (lit "V") (.object longSum) ∧
    limitValue Scalars.plainArithmetic exactText oneVolt (lit "V") (.int (10 ^ 400)) =
      .error .overflowError ∧
    limitValue Scalars.plainArithmetic exactText oneVolt (lit "V") (.object []) =
      .error .keyError := by
  refine ⟨?_, ?_, ?_, rfl⟩
  · rw [exactOrRefused_iff]
    rintro ⟨x, hx⟩
    have hvalue : x.value = 2 ^ 53 + 1 := by
      rw [← exactDigits_value x]
      exact_mod_cast hx
    exact nearest_odd x hvalue
  · rw [exactOrRefused_iff]
    rintro ⟨ref, href, hsettled⟩
    obtain ⟨hcomputed, hdeclared⟩ := longSum_rounded
    obtain rfl : ref = .str (lit "a") := (Option.some.inj href).symm
    have hquantity : oneVolt (lit "a") = some ⟨one, lit "V", admitted_one⟩ := rfl
    have hlong := hsettled (by decide) (lit "a") rfl _ hquantity rfl _ hdeclared
    rcases @limitExpression_eq Scalars.plainArithmetic exactText ⟨one, lit "V", admitted_one⟩
      longSum with ⟨hnone, -⟩ | ⟨computed, declared, hvalue, hsum, hrounds, hexact⟩
    · rw [hnone] at hcomputed
      cases hcomputed
    · rw [hvalue] at hcomputed
      have hunit : computed.value = 1 := of_decide_eq_true hcomputed
      obtain rfl : declared = 1 + 10 ^ (-300 : ℤ) := Option.some.inj (hsum.symm.trans hdeclared)
      have hdiffers : (1 : ℚ) ≠ 1 + 10 ^ (-300 : ℤ) := by
        have hpos : (0 : ℚ) < 10 ^ (-300 : ℤ) := by positivity
        linarith
      rcases hlong with hfits | hnone
      · exact hdiffers (hunit.symm.trans (hexact.mpr hfits))
      · have hnearest : nearest 1 = some 1 := by
          have hbits := @rounded_of_bits 1 0 (by norm_num) (by norm_num)
          rw [Int.cast_one, zpow_zero, one_mul] at hbits
          rw [nearest, hbits, abs_one, if_pos (one_lt_pow₀ one_lt_two (by norm_num))]
        exact hnone _ hrounds ⟨1, hnearest⟩ ((exactDigits_value _).trans hunit.symm)
  · have hcast : ((10 ^ 400 : ℤ) : ℚ) = 10 ^ 400 := by rw [Int.cast_pow, Int.cast_ofNat]
    delta limitValue
    simp only [hcast, doubleOf_large]

end Counterexamples

end OpenADA.Template
