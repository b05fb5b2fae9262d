import OpenADA.Library.Binary64
import OpenADA.Library.JsonAccess
import OpenADA.Pdk.Numbers

/-! The bounds of a template's specifications: a JSON number, or a declared quantity with a factor
and an offset, and the number that is published for either. -/
namespace OpenADA.Template

open Binary64 DecimalContext PyStr
open Scalars (Arithmetic)

/-- A float that `json.loads` returns. -/
inductive JsonFloat where
  | finite (x : Double)
  | infinite (negative : Bool)

abbrev Json := PyJson JsonFloat

/-- `Decimal(repr(x))` of the finite floats. -/
structure FloatText where
  digits : Double → FiniteDecimal
  nearest_digits : ∀ x, nearest (digits x).value = some x.value

def FloatText.printing (text : FloatText) : Printing where
  shown x := (text.digits x).value
  nearest_shown := text.nearest_digits

/-- An entry of `self.issues`, with its path below the value that is checked. -/
structure Issue where
  code : String
  path : List PyStr
  deriving DecidableEq

inductive Escape where
  | overflowError
  | keyError

/-- What a check leaves: its issues, the names it has used, and its value if there is one. -/
structure Outcome (α : Type) where
  issues : List Issue
  used : List PyStr
  value : Option α

def Outcome.refused {α : Type} (code : String) (path : List PyStr) : Outcome α :=
  ⟨[⟨code, path⟩], [], none⟩

section Scalars

/-- The widened context of `_parse_scalar`. -/
def scalarContext : Context where
  prec := 160
  emax := 999999
  emin := -999999
  prec_pos := by decide
  emin_lt := defaultExponents_lt

def limitContext : Context where
  prec := 288
  emax := 999999
  emin := -999999
  prec_pos := by decide
  emin_lt := defaultExponents_lt

def one : FiniteDecimal := ⟨false, 1, 0⟩

def zero : FiniteDecimal := ⟨false, 0, 0⟩

/-- `Decimal.adjusted()` of a number that is not zero. -/
def adjustedExponent (x : FiniteDecimal) : ℤ :=
  (PyDecimal.digitCount x.coefficient : ℤ) - 1 + x.exponent

def admits (number scale : FiniteDecimal) : Bool :=
  decide (PyDecimal.digitCount number.coefficient ≤ Scalars.maxScalarSignificantDigits) &&
    decide (number.coefficient = 0 ∨
      |adjustedExponent number + adjustedExponent scale| ≤ Scalars.maxScalarAdjustedExponent)

variable (arithmetic : Arithmetic) (text : FloatText)

def scaleOf (letters : List Char) : Option FiniteDecimal :=
  if Scalars.suffixOf letters = letters then
    Pdk.spiceScaleDecimals.lookup (letters.flatMap Scalars.casefoldLetter)
  else none

def tokenNumber (token : List Char) : Option (FiniteDecimal × FiniteDecimal) := do
  let literal ← Scalars.literalOf arithmetic.isDigit arithmetic.digit Scalars.isLetterIgnoringCase
    token
  let scale ← scaleOf literal.letters
  if arithmetic.decimalReads literal.number then
    some (Pdk.decimalOfNumber arithmetic literal.number, scale)
  else none

def scalarNumber : Json → Option (FiniteDecimal × FiniteDecimal)
  | .int n => some (⟨decide (n < 0), n.natAbs, 0⟩, one)
  | .float (.finite x) => some (text.digits x, one)
  | .str token => (token.mapM toChar?).bind (tokenNumber arithmetic)
  | _ => none

/-- `_parse_scalar`; none is one of the errors that its callers catch. -/
def parseScalar (raw : Json) : Option FiniteDecimal :=
  (scalarNumber arithmetic text raw).bind fun parts =>
    if admits parts.1 parts.2 then scalarContext.mul parts.1 parts.2 else none

def declaredScalar (raw : Json) : Option ℚ :=
  (scalarNumber arithmetic text raw).bind fun parts =>
    if admits parts.1 parts.2 then some (parts.1.value * parts.2.value) else none

end Scalars

def Admitted (q : ℚ) : Prop :=
  |q| < 10 ^ (400 : ℤ) ∧
    ∃ (c : ℕ) (k : ℤ), c < 10 ^ 131 ∧ -1000 ≤ k ∧ |q| = c * 10 ^ k

structure Binding where
  value : FiniteDecimal
  unit : PyStr
  admitted : Admitted value.value

section Compiler

/-- The issues of `closed` on an object. -/
def closedIssues (required optional : List String) (code : String)
    (fields : PyJson.Mapping JsonFloat) : List Issue :=
  let keys := fields.map Prod.fst
  ((required.map lit).filter fun name => decide (name ∉ keys)).map (fun name => ⟨code, [name]⟩) ++
    (((keys.filter fun name => decide (name ∉ (required ++ optional).map lit)).insertionSort
      fun a b => PyStr.le a b = true).map fun name => ⟨"template.document.unknown_field", [name]⟩)

variable (arithmetic : Arithmetic) (text : FloatText)

def scalarField (fields : PyJson.Mapping JsonFloat) (name : String) (default : FiniteDecimal) :
    Option FiniteDecimal :=
  match fields.lookup (lit name) with
  | some raw => parseScalar arithmetic text raw
  | none => some default

/-- `factor * ref + offset` in the context of the limits. -/
def limitExpression (binding : Binding) (fields : PyJson.Mapping JsonFloat) :
    Option FiniteDecimal := do
  let factor ← scalarField arithmetic text fields "factor" one
  let offset ← scalarField arithmetic text fields "offset" zero
  let product ← limitContext.mul factor binding.value
  limitContext.add product offset

def expressionValue (binding : Binding) (fields : PyJson.Mapping JsonFloat) : Outcome Double :=
  match limitExpression arithmetic text binding fields with
  | none => .refused "template.limit.invalid" []
  | some computed =>
    match doubleOf computed.value with
    | none => .refused "template.limit.non_finite" []
    | some x =>
      if (text.digits x).value = computed.value then ⟨[], [], some x⟩
      else .refused "template.limit.inexact" []

variable (bindings : PyStr → Option Binding)

/-- `_limit_value`. -/
def limitValue (unit : PyStr) : Json → Except Escape (Outcome Double)
  | .int n =>
    match doubleOf n with
    | some x => .ok ⟨[], [], some x⟩
    | none => .error .overflowError
  | .float (.finite x) => .ok ⟨[], [], some x⟩
  | .float (.infinite _) => .ok (.refused "template.limit.non_finite" [])
  | .object fields =>
    let shape := closedIssues ["ref"] ["factor", "offset"] "template.limit.invalid" fields
    match fields.lookup (lit "ref") with
    | none => .error .keyError
    | some ref =>
      match ref.text?.bind fun name => (bindings name).map fun binding => (name, binding) with
      | none => .ok ⟨shape ++ [⟨"template.ref.unknown", [lit "ref"]⟩], [], none⟩
      | some (name, binding) =>
        if binding.unit = unit then
          let value := expressionValue arithmetic text binding fields
          .ok ⟨shape ++ value.issues, [name], value.value⟩
        else .ok ⟨shape ++ [⟨"template.limit.unit_mismatch", [lit "ref"]⟩], [name], none⟩
  | _ => .ok (.refused "template.limit.invalid" [])

structure Bound where
  value : Double
  unit : PyStr
  inclusive : Bool

/-- `unit`. -/
def unitOf (raw : Json) : Option PyStr :=
  raw.text?.filter fun unit => decide (1 ≤ unit.length ∧ unit.length ≤ 64)

def flag? : Json → Option Bool
  | .bool value => some value
  | _ => none

def compileBound : Json → Except Escape (Outcome Bound)
  | .object fields =>
    let shape := closedIssues ["inclusive", "unit", "value"] [] "template.limit.invalid" fields
    match unitOf (PyJson.member (.object fields) "unit") with
    | none => .ok ⟨shape ++ [⟨"template.limit.invalid", [lit "unit"]⟩], [], none⟩
    | some unit =>
      match flag? (PyJson.member (.object fields) "inclusive") with
      | none => .ok ⟨shape ++ [⟨"template.limit.invalid", [lit "inclusive"]⟩], [], none⟩
      | some inclusive => do
        let value ← limitValue arithmetic text bindings unit
          (PyJson.member (.object fields) "value")
        .ok ⟨shape ++ value.issues.map (fun issue => ⟨issue.code, lit "value" :: issue.path⟩),
          value.used, value.value.map fun x => ⟨x, unit, inclusive⟩⟩
  | _ => .ok (.refused "template.limit.invalid" [])

def optionalBound (fields : PyJson.Mapping JsonFloat) (name : String) :
    Except Escape (Outcome (Option Bound)) :=
  match fields.lookup (lit name) with
  | none => .ok ⟨[], [], some none⟩
  | some raw => do
    let bound ← compileBound arithmetic text bindings raw
    .ok ⟨bound.issues.map fun issue => ⟨issue.code, lit name :: issue.path⟩, bound.used,
      bound.value.map some⟩

def Bound.excludes (lower upper : Bound) : Bool :=
  decide (upper.value.value < lower.value.value) ||
    (decide (lower.value.value = upper.value.value) && !(lower.inclusive && upper.inclusive))

structure Limits where
  lower : Option Bound
  upper : Option Bound

def pairIssues : Limits → List Issue
  | ⟨some lower, some upper⟩ =>
    if lower.unit ≠ upper.unit then [⟨"template.limit.unit_mismatch", []⟩]
    else if lower.excludes upper then [⟨"template.limit.empty_interval", []⟩]
    else []
  | _ => []

def joinBounds (shape : List Issue) (lower upper : Outcome (Option Bound)) : Outcome Limits :=
  let issues := shape ++ lower.issues ++ upper.issues
  let used := lower.used ++ upper.used
  match lower.value, upper.value with
  | some low, some high =>
    let pair := pairIssues ⟨low, high⟩
    ⟨issues ++ pair, used, if pair = [] then some ⟨low, high⟩ else none⟩
  | _, _ => ⟨issues, used, none⟩

/-- The limits of an entry of `compile_specifications`. -/
def compileLimits : Json → Except Escape (Outcome Limits)
  | .object [] => .ok (.refused "template.limit.invalid" [])
  | .object fields => do
    let lower ← optionalBound arithmetic text bindings fields "lower"
    let upper ← optionalBound arithmetic text bindings fields "upper"
    .ok (joinBounds (closedIssues [] ["lower", "upper"] "template.limit.invalid" fields) lower
      upper)
  | _ => .ok (.refused "template.limit.invalid" [])

end Compiler

end OpenADA.Template
