import OpenADA.Oracle.Document

/-! The closed tolerance specification: one typed row per metric. -/
namespace OpenADA.Oracle

open OpenADA.Plan (quoted)

inductive LimitOp where
  | atMost | atLeast
  deriving DecidableEq

structure Limit (F : Type) where
  op : LimitOp
  value : F
  unit : String

inductive ErrorKind where
  | absolute | relative | fractionAbsolute | guardedRelative
  deriving DecidableEq

def ErrorKind.symbol : ErrorKind → String
  | .absolute => "absolute"
  | .relative => "relative"
  | .fractionAbsolute => "fraction_absolute"
  | .guardedRelative => "guarded_relative"

variable {F : Type} [PyFloat F]

def isPositive (value : F) : Bool := !PyFloat.le value (PyFloat.ofRat 0)

/-- An error kind; a relative one carries its positive denominator guard. -/
inductive ErrorSpec (F : Type) [PyFloat F] where
  | absolute
  | fractionAbsolute
  | relative (floor : F) (positive : isPositive floor = true)
  | guardedRelative (guard : F) (positive : isPositive guard = true)

def ErrorSpec.kind : ErrorSpec F → ErrorKind
  | .absolute => .absolute
  | .fractionAbsolute => .fractionAbsolute
  | .relative .. => .relative
  | .guardedRelative .. => .guardedRelative

inductive RowBody (F : Type) [PyFloat F] where
  | scalar (observed oracle : String) (error : ErrorSpec F)
  | curve (observed oracle x y : String) (error : ErrorSpec F)
  | mismatchCurve (observedSource observedSink oracleSource oracleSink : String) (floor : F)
      (positive : isPositive floor = true)
  | complianceEndpoints (observed oracle : String)
  | signedResponseCoverage (observed oracle x y : String) (zeroEpsilon : F)
  | invalidDetectionRecall
  | falseValidRate
  | completeness (observables conditions : List String)
  | gradingRuntime
  | lineagePresence (observables conditions : List String)

structure Row (F : Type) [PyFloat F] where
  name : String
  required : Bool
  limit : Limit F
  body : RowBody F

structure Tolerances (F : Type) [PyFloat F] where
  metrics : List (Row F)
  lineageRequired : Bool

def isIdentifierChar (c : Char) : Bool :=
  ('a' ≤ c && c ≤ 'z') || ('0' ≤ c && c ≤ '9') || c == '_'

/-- `_identifier`. -/
def identifier (value : Json F) (label : String) : Except String String :=
  required ((boundedText 1 120 value).filter fun text =>
      (text.toList.head?.map fun c => 'a' ≤ c && c ≤ 'z').getD false &&
        text.toList.all isIdentifierChar)
    (label ++ " must match ^[a-z][a-z0-9_]\x7b0,119\x7d$")

def limitOp? (value : Json F) : Option LimitOp :=
  match value with
  | .str "<=" => some .atMost
  | .str ">=" => some .atLeast
  | _ => none

/-- `_limit`. -/
def limit (value : Json F) (label : String) : Except String (Limit F) := do
  let item ← closed value label ["op", "value", "unit"] []
  let op ← required (limitOp? (item.at "op")) s!"{label}.op must be '<=' or '>='"
  let value ← required (number? (item.at "value")) s!"{label}.value must be finite"
  let unit ← required (boundedText 1 64 (item.at "unit"))
    s!"{label}.unit must be a bounded nonempty string"
  .ok ⟨op, value, unit⟩

def errorKinds (curve : Bool) : List ErrorKind :=
  if curve then [.absolute, .guardedRelative, .relative]
  else [.absolute, .fractionAbsolute, .relative]

def errorKind? (value : Json F) (curve : Bool) : Option ErrorKind :=
  match value with
  | .str text => (errorKinds curve).find? fun kind => decide (kind.symbol = text)
  | _ => none

def positive? (value : Json F) : Option {number : F // isPositive number = true} :=
  (number? value).bind fun number =>
    if h : isPositive number = true then some ⟨number, h⟩ else none

/-- `_error`. -/
def errorSpec (value : Json F) (label : String) (curve : Bool) : Except String (ErrorSpec F) := do
  let item ← closed value label ["kind"] ["denominator_floor", "absolute_guard"]
  match errorKind? (item.at "kind") curve with
  | none => .error (s!"{label}.kind must be one of " ++
      ", ".intercalate ((errorKinds curve).map ErrorKind.symbol))
  | some .relative =>
    match positive? (item.at "denominator_floor") with
    | none => .error s!"{label}.denominator_floor must be explicit and greater than zero"
    | some floor =>
      if "absolute_guard" ∈ item.keys then
        .error s!"{label}.absolute_guard is not valid for relative error"
      else .ok (.relative floor.1 floor.2)
  | some .guardedRelative =>
    match positive? (item.at "absolute_guard") with
    | none => .error s!"{label}.absolute_guard must be explicit and greater than zero"
    | some guard =>
      if "denominator_floor" ∈ item.keys then
        .error s!"{label}.denominator_floor is not valid for guarded_relative error"
      else .ok (.guardedRelative guard.1 guard.2)
  | some .absolute =>
    if item.keys = ["kind"] then .ok .absolute
    else .error s!"{label} declares a guard not used by absolute error"
  | some .fractionAbsolute =>
    if item.keys = ["kind"] then .ok .fractionAbsolute
    else .error s!"{label} declares a guard not used by absolute error"

/-- The fields a row of each kind declares besides its name, kind, requirement and limit. -/
def rowFields : String → Option (List String)
  | "scalar" => some ["observed", "oracle", "error"]
  | "curve" => some ["observed", "oracle", "x", "y", "error"]
  | "mismatch_curve" => some ["observed_source", "observed_sink", "oracle_source", "oracle_sink",
      "denominator_floor"]
  | "compliance_endpoints" => some ["observed", "oracle"]
  | "signed_response_coverage" => some ["observed", "oracle", "x", "y", "zero_epsilon"]
  | "invalid_detection_recall" => some ["denominator"]
  | "false_valid_rate" => some ["denominator"]
  | "completeness" => some ["observables", "conditions"]
  | "grading_runtime" => some []
  | "lineage_presence" => some ["observables", "conditions"]
  | _ => none

section

variable (item : Fields F) (label : String)

def rowName (field : String) : Except String String :=
  fieldName (item.at field) s!"{label}.{field}"

def scalarBody : Except String (RowBody F) := do
  let observed ← rowName item label "observed"
  let oracle ← rowName item label "oracle"
  let error ← errorSpec (item.at "error") s!"{label}.error" false
  .ok (.scalar observed oracle error)

def curveBody : Except String (RowBody F) := do
  let observed ← rowName item label "observed"
  let oracle ← rowName item label "oracle"
  let x ← rowName item label "x"
  let y ← rowName item label "y"
  let error ← errorSpec (item.at "error") s!"{label}.error" true
  .ok (.curve observed oracle x y error)

def mismatchBody : Except String (RowBody F) := do
  let observedSource ← rowName item label "observed_source"
  let observedSink ← rowName item label "observed_sink"
  let oracleSource ← rowName item label "oracle_source"
  let oracleSink ← rowName item label "oracle_sink"
  let floor ← required (positive? (item.at "denominator_floor"))
    s!"{label}.denominator_floor must be greater than zero"
  .ok (.mismatchCurve observedSource observedSink oracleSource oracleSink floor.1 floor.2)

def complianceBody : Except String (RowBody F) := do
  let observed ← rowName item label "observed"
  let oracle ← rowName item label "oracle"
  .ok (.complianceEndpoints observed oracle)

def signedBody : Except String (RowBody F) := do
  let observed ← rowName item label "observed"
  let oracle ← rowName item label "oracle"
  let x ← rowName item label "x"
  let y ← rowName item label "y"
  let epsilon ← required (nonNegative (item.at "zero_epsilon"))
    s!"{label}.zero_epsilon must be non-negative"
  .ok (.signedResponseCoverage observed oracle x y epsilon)

def denominatorBody (expected : String) (body : RowBody F) : Except String (RowBody F) :=
  match item.at "denominator" with
  | .str denominator =>
    if denominator = expected then .ok body
    else .error s!"{label}.denominator must be {quoted expected}"
  | _ => .error s!"{label}.denominator must be {quoted expected}"

def inventoryBody (body : List String → List String → RowBody F) : Except String (RowBody F) := do
  let observables ← stringArray (item.at "observables") s!"{label}.observables" 256 1
  let conditions ← stringArray (item.at "conditions") s!"{label}.conditions" 256 1
  .ok (body observables conditions)

/-- The kind-specific part of one row of `_normalize_tolerances`. -/
def rowBody (kind : String) : Except String (RowBody F) :=
  match kind with
  | "scalar" => scalarBody item label
  | "curve" => curveBody item label
  | "mismatch_curve" => mismatchBody item label
  | "compliance_endpoints" => complianceBody item label
  | "signed_response_coverage" => signedBody item label
  | "invalid_detection_recall" =>
    denominatorBody item label "oracle_invalid" .invalidDetectionRecall
  | "false_valid_rate" => denominatorBody item label "submitted_valid" .falseValidRate
  | "completeness" => inventoryBody item label .completeness
  | "grading_runtime" => .ok .gradingRuntime
  | "lineage_presence" => inventoryBody item label .lineagePresence
  | _ => .error s!"{label}.kind is unsupported"

end

def kindOf (value : Json F) (label : String) : Except String String :=
  match value with
  | .object fields =>
    match (InsertionDict.ofList fields).get? "kind" with
    | some (.str kind) =>
      if (rowFields kind).isSome then .ok kind else .error s!"{label}.kind is unsupported"
    | _ => .error s!"{label}.kind is unsupported"
  | _ => .error s!"{label} must be an object"

def requireBool (value : Json F) (message : String) : Except String Bool :=
  match value with
  | .bool flag => .ok flag
  | _ => .error message

/-- One row of `_normalize_tolerances`, against the rows before it. -/
def toleranceRow (seen : List (Row F)) (value : Json F × ℕ) : Except String (List (Row F)) := do
  let label := s!"tolerances.metrics[{value.2}]"
  let kind ← kindOf value.1 label
  let item ← closed value.1 label
    (["name", "kind", "required", "limit"] ++ (rowFields kind).getD []) []
  let name ← identifier (item.at "name") s!"{label}.name"
  require (decide (name ∉ seen.map Row.name)) s!"{label}.name duplicates {quoted name}"
  let needed ← requireBool (item.at "required") s!"{label}.required must be boolean"
  let limit ← limit (item.at "limit") s!"{label}.limit"
  let body ← rowBody item label kind
  .ok (seen ++ [⟨name, needed, limit, body⟩])

def toleranceSchema : String := "simra.testbench-oracle-tolerances/v1"

def requireSchema (value : Json F) (expected message : String) : Except String Unit :=
  match value with
  | .str schema => if schema = expected then .ok () else .error message
  | _ => .error message

def metricRows (value : Json F) : Except String (List (Json F)) :=
  match value with
  | .array rows =>
    if 1 ≤ rows.length ∧ rows.length ≤ 128 then .ok rows
    else .error "tolerances.metrics must contain 1..128 rows"
  | _ => .error "tolerances.metrics must contain 1..128 rows"

/-- `_normalize_tolerances`. -/
def normalizeTolerances (value : Json F) : Except String (Tolerances F) := do
  let root ← closed value "tolerances" ["schema", "metrics", "lineage_required", "extensions"] []
  requireSchema (root.at "schema") toleranceSchema
    s!"tolerances.schema must be {quoted toleranceSchema}"
  requireEmpty (root.at "extensions") "tolerances.extensions must be empty in v1"
  let lineageRequired ← requireBool (root.at "lineage_required")
    "tolerances.lineage_required must be boolean"
  let rows ← metricRows (root.at "metrics")
  let metrics ← rows.zipIdx.foldlM toleranceRow []
  .ok ⟨metrics, lineageRequired⟩

end OpenADA.Oracle
