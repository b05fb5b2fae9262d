import OpenADA.Oracle.Tolerances

/-! The comparison of an observed document with an oracle document, row by row. -/
namespace OpenADA.Oracle

open OpenADA.Plan (beginsWith sortedNames)

inductive Status where
  | pass | fail | unknown
  deriving DecidableEq

variable {F : Type} [PyFloat F]

structure RowResult (F : Type) [PyFloat F] where
  row : Row F
  status : Status
  value : Option F
  reason : String
  details : List (String × Json F)

/-- `_verdict`. -/
def verdict (error : F) (limit : Limit F) : Status :=
  match limit.op with
  | .atMost => if PyFloat.le error limit.value then .pass else .fail
  | .atLeast => if PyFloat.le limit.value error then .pass else .fail

/-- `_unknown`. -/
def unknown (row : Row F) (reason : String) : RowResult F := ⟨row, .unknown, none, reason, []⟩

/-- `_measured`. -/
def measured (row : Row F) (value : F) (reason : String) (details : List (String × Json F)) :
    RowResult F :=
  if PyFloat.isFinite value then ⟨row, verdict value row.limit, some value, reason, details⟩
  else unknown row "metric arithmetic overflowed the finite JSON result domain"

/-- `_numbers`. -/
def numbers (value : Json F) : Option (List F) :=
  match value with
  | .array [] => none
  | .array items => items.mapM number?
  | _ => none

/-- `_curve`. -/
def curve (value : Json F) (xName yName : String) : Option (List F × List F) :=
  match value with
  | .object fields =>
    let root : Fields F := InsertionDict.ofList fields
    if xName ∈ root.keys ∧ yName ∈ root.keys ∧ ∀ key ∈ root.keys, key = xName ∨ key = yName then
      match numbers (root.at xName), numbers (root.at yName) with
      | some x, some y => if x.length = y.length then some (x, y) else none
      | _, _ => none
    else none
  | _ => none

def sameNumbers (a b : List F) : Bool :=
  decide (a.length = b.length) && (a.zip b).all fun pair => PyFloat.eq pair.1 pair.2

def divide (a b : F) : Except String F :=
  match PyFloat.div a b with
  | some value => .ok value
  | none => .error "float division by zero"

def ratio (numerator denominator : ℕ) : Except String F :=
  if denominator = 0 then .error "division by zero"
  else .ok (PyFloat.ofRat ((numerator : ℚ) / denominator))

structure Coverage where
  covered : ℕ
  total : ℕ
  missing : List String
  deriving DecidableEq

def tally {α : Type} (items : List α) (holds : α → Bool) (label : α → String) : Coverage :=
  ⟨(items.filter holds).length, items.length, (items.filter fun item => !holds item).map label⟩

def conditionIndex (metadata : Metadata F) : InsertionDict String (List String) :=
  InsertionDict.ofList (metadata.conditions.map fun entry => (entry.id, entry.observables))

def lineageIndex (metadata : Metadata F) : InsertionDict String (Finset String) :=
  InsertionDict.ofList
    (metadata.lineage.map fun entry => (entry.observable, entry.conditionIds.toFinset))

def declaredIds (metadata : Metadata F) (observable : String) : Finset String :=
  (((conditionIndex metadata).entries.filter fun entry => decide (observable ∈ entry.2)).map
    Prod.fst).toFinset

def linkedIds (metadata : Metadata F) (observable : String) : Finset String :=
  ((lineageIndex metadata).get? observable).getD ∅

/-- Whether the lineage of an observable is the set of conditions declaring it. -/
def lineageAgrees (observed : Document F) (metadata : Metadata F) (observable : String) : Bool :=
  decide (observable ∈ observed.observables.keys ∧ linkedIds metadata observable ≠ ∅ ∧
    linkedIds metadata observable = declaredIds metadata observable)

def declares (metadata : Metadata F) (conditionId observable : String) : Bool :=
  decide (observable ∈ ((conditionIndex metadata).get? conditionId).getD [])

def pairLabel (pair : String × String) : String := pair.1 ++ ":" ++ pair.2

def pairs (conditions observables : List String) : List (String × String) :=
  conditions.flatMap fun condition => observables.map fun observable => (condition, observable)

def pairLinked (observed : Document F) (metadata : Metadata F) (pair : String × String) : Bool :=
  decide (pair.2 ∈ observed.observables.keys) && declares metadata pair.1 pair.2 &&
    decide (pair.1 ∈ linkedIds metadata pair.2)

/-- `_lineage_coverage`. -/
def lineageCoverage (observed : Document F) (observables : List String)
    (conditions : Option (List String)) : Option Coverage :=
  observed.metadata.map fun metadata =>
    match conditions with
    | none => tally observables (lineageAgrees observed metadata) id
    | some conditions => tally (pairs conditions observables) (pairLinked observed metadata) pairLabel

def pairPresent (observed : Document F) (metadata : Metadata F) (pair : String × String) : Bool :=
  decide (pair.2 ∈ observed.observables.keys) &&
    (decide (pair.1 = observed.corner) || declares metadata pair.1 pair.2)

/-- `_condition_coverage`. -/
def conditionCoverage (observed : Document F) (observables conditions : List String) :
    Option Coverage :=
  observed.metadata.map fun metadata =>
    tally (pairs conditions observables) (pairPresent observed metadata) pairLabel

def observableOf (document : Document F) (name : String) : Json F :=
  (document.observables.get? name).getD .null

def isFraction (value : F) : Bool :=
  PyFloat.le (PyFloat.ofRat 0) value && PyFloat.le value (PyFloat.ofRat 1)

def sampleError (error : ErrorSpec F) (absolute oracle : F) : Except String F :=
  match error with
  | .absolute | .fractionAbsolute => .ok absolute
  | .relative floor _ => divide absolute (PyFloat.max (PyFloat.abs oracle) floor)
  | .guardedRelative guard _ => divide absolute (PyFloat.max (PyFloat.abs oracle) guard)

def errorDetails : ErrorSpec F → List (String × Json F)
  | .relative floor _ => [("denominator_floor", .float floor)]
  | .guardedRelative guard _ => [("absolute_guard", .float guard)]
  | _ => []

/-- `_scalar_row`. -/
def scalarRow (row : Row F) (observed oracle : Json F) (error : ErrorSpec F) :
    Except String (RowResult F) :=
  match number? observed, number? oracle with
  | some left, some right => do
    let delta := PyFloat.abs (left - right)
    if error.kind = .fractionAbsolute ∧ ¬ (isFraction left ∧ isFraction right) then
      .ok (unknown row "fraction_absolute requires observed and oracle values in [0,1]")
    else
      let value ← sampleError error delta right
      .ok (measured row value s!"{error.kind.symbol} scalar error evaluated"
        ([("observed", .float left), ("oracle", .float right), ("absolute_error", .float delta)] ++
          errorDetails error))
  | _, _ => .ok (unknown row "the observed or oracle scalar is missing or non-finite")

def worstFrom (best : ℕ × F) (index : ℕ) : List F → ℕ × F
  | [] => best
  | value :: rest =>
    worstFrom (if PyFloat.lt best.2 value then (index, value) else best) (index + 1) rest

def worst : List F → Except String (ℕ × F)
  | [] => .error "max() iterable argument is empty"
  | first :: rest => .ok (worstFrom (0, first) 1 rest)

/-- The observed curve: the canonical domain names first, then the oracle's. -/
def observedCurve (value : Json F) (xName yName : String) : Option (List F × List F) :=
  match curve value "x" "y" with
  | some found => some found
  | none => curve value xName yName

def nth (items : List F) (index : ℕ) : Json F :=
  match items[index]? with
  | some value => .float value
  | none => .null

/-- `_curve_row`. -/
def curveRow (row : Row F) (observed oracle : Json F) (xName yName : String)
    (error : ErrorSpec F) : Except String (RowResult F) :=
  match observedCurve observed xName yName, curve oracle xName yName with
  | some (leftX, leftY), some (rightX, rightY) =>
    if !sameNumbers leftX rightX then
      .ok (unknown row "curve domains differ; v1 performs no interpolation")
    else do
      let absolutes := (leftY.zip rightY).map fun pair => PyFloat.abs (pair.1 - pair.2)
      let errors ← (absolutes.zip rightY).mapM fun pair => sampleError error pair.1 pair.2
      let found ← worst errors
      .ok (measured row found.2 s!"worst-point {error.kind.symbol} curve error evaluated"
        ([("point_count", .int errors.length), ("worst_index", .int found.1),
          ("worst_x", nth rightX found.1), ("absolute_error", nth absolutes found.1)] ++
          errorDetails error))
  | _, _ => .ok (unknown row "the observed or oracle curve is missing or malformed")

/-- The mismatch fraction of one source/sink pair; `none` is below the floor. -/
def mismatchFraction (floor source sink : F) : Except String (Option F) :=
  let denominator := PyFloat.max (PyFloat.abs source) (PyFloat.abs sink)
  if PyFloat.lt denominator floor then .ok none
  else do
    let value ← divide (PyFloat.abs (PyFloat.abs source - PyFloat.abs sink)) denominator
    .ok (some value)

/-- `_mismatch_values`; the source stops at the first pair below the floor. -/
def mismatchPairs (floor : F) : List (F × F) → Except String (Option (List F))
  | [] => .ok (some [])
  | (source, sink) :: rest => do
    let first ← mismatchFraction floor source sink
    match first with
    | none => .ok none
    | some value => do
      let later ← mismatchPairs floor rest
      .ok (later.map fun values => value :: values)

def mismatchValues (source sink : Json F) (floor : F) : Except String (Option (List F)) :=
  match numbers source, numbers sink with
  | some sources, some sinks =>
    if sources.length = sinks.length then mismatchPairs floor (sources.zip sinks) else .ok none
  | _, _ => .ok none

/-- `_mismatch_row`. -/
def mismatchRow (row : Row F) (observedSource observedSink oracleSource oracleSink : Json F)
    (floor : F) : Except String (RowResult F) := do
  let observed ← mismatchValues observedSource observedSink floor
  let oracle ← mismatchValues oracleSource oracleSink floor
  match observed, oracle with
  | some left, some right =>
    if left.length = right.length then do
      let errors := (left.zip right).map fun pair => PyFloat.abs (pair.1 - pair.2)
      let found ← worst errors
      .ok (measured row found.2 "worst absolute mismatch-fraction error evaluated"
        [("point_count", .int errors.length), ("worst_index", .int found.1),
          ("observed_fraction", nth left found.1), ("oracle_fraction", nth right found.1),
          ("denominator_floor", .float floor)])
    else .ok (unknown row ("source/sink arrays are missing, unaligned, or below the explicit " ++
      "denominator floor"))
  | _, _ => .ok (unknown row ("source/sink arrays are missing, unaligned, or below the explicit " ++
      "denominator floor"))

def endpoints (value : Json F) (low high : String) : Option (F × F) :=
  match value with
  | .object fields =>
    let root : Fields F := InsertionDict.ofList fields
    if low ∈ root.keys ∧ high ∈ root.keys ∧ ∀ key ∈ root.keys, key = low ∨ key = high then
      match number? (root.at low), number? (root.at high) with
      | some lower, some upper => some (lower, upper)
      | _, _ => none
    else none
  | _ => none

/-- The observed interval: the runner's names are renamed to the oracle's. -/
def observedEndpoints (value : Json F) : Option (F × F) :=
  match endpoints value "lower" "upper" with
  | some found => some found
  | none => endpoints value "lo_v" "hi_v"

/-- `_compliance_row`. -/
def complianceRow (row : Row F) (observed oracle : Json F) : RowResult F :=
  match observedEndpoints observed, endpoints oracle "lo_v" "hi_v" with
  | some left, some right =>
    let low := PyFloat.abs (left.1 - right.1)
    let high := PyFloat.abs (left.2 - right.2)
    measured row (PyFloat.max low high) "worst absolute compliance-endpoint error evaluated"
      [("lo_v", .float low), ("hi_v", .float high)]
  | _, _ => unknown row
      "dense-sweep compliance endpoints \x7blo_v,hi_v\x7d are not present in both documents"

def sameSign (a b : F) : Bool :=
  PyFloat.lt a (PyFloat.ofRat 0) == PyFloat.lt b (PyFloat.ofRat 0)

def outsideBand (epsilon value : F) : Bool := PyFloat.lt epsilon (PyFloat.abs value)

/-- `_signed_coverage_row`. -/
def signedCoverageRow (row : Row F) (observed oracle : Json F) (xName yName : String)
    (epsilon : F) : Except String (RowResult F) :=
  match observedCurve observed xName yName, curve oracle xName yName with
  | some (leftX, leftY), some (rightX, rightY) =>
    if !sameNumbers leftX rightX then
      .ok (unknown row "signed-response domains differ; v1 does no interpolation")
    else
      let eligible := (leftY.zip rightY).filter fun pair => outsideBand epsilon pair.2
      if eligible.isEmpty then
        .ok (unknown row "oracle has no response outside the declared zero band")
      else do
        let matching := eligible.filter fun pair =>
          outsideBand epsilon pair.1 && sameSign pair.1 pair.2
        let coverage ← ratio matching.length eligible.length
        .ok (measured row coverage "signed response coverage evaluated"
          [("eligible", .int eligible.length), ("matching_sign", .int matching.length),
            ("zero_epsilon", .float epsilon)])
  | _, _ => .ok (unknown row "the signed response curve is absent or malformed")

inductive VerdictClass where
  | valid | invalid | unknown
  deriving DecidableEq

def isReasoned (head text : String) : Bool :=
  decide (text.toList.getLast? = some ')') && decide (head.toList.length + 1 < text.toList.length) &&
    beginsWith text head

/-- `_classify_validity`; an absent verdict is unknown. -/
def classifyValidity (value : Option String) : VerdictClass :=
  match value with
  | none => .unknown
  | some text =>
    if text = "VALID" then .valid
    else if isReasoned "INVALID(" text || isReasoned "NEEDS_FINE_SWEEP(" text then .invalid
    else .unknown

structure ValidityCounts where
  oracleInvalid : ℕ
  detectedInvalid : ℕ
  observedValid : ℕ
  falseValid : ℕ
  missingOrUnknown : ℕ
  deriving DecidableEq

def verdictNames (observed oracle : Document F) : List String :=
  sortedNames (observed.validity.keys ++ oracle.validity.keys)

def submittedClass (observed : Document F) (name : String) : VerdictClass :=
  classifyValidity (observed.validity.get? name)

def countNames (names : List String) (holds : String → Bool) : ℕ := (names.filter holds).length

/-- `_validity_counts`. -/
def validityCounts (observed oracle : Document F) : ValidityCounts :=
  let names := verdictNames observed oracle
  let expected := submittedClass oracle
  let submitted := submittedClass observed
  { oracleInvalid := countNames names fun n => decide (expected n = .invalid)
    detectedInvalid := countNames names fun n =>
      decide (expected n = .invalid ∧ submitted n = .invalid)
    observedValid := countNames names fun n =>
      decide (submitted n = .valid ∧ expected n ≠ .unknown)
    falseValid := countNames names fun n =>
      decide (submitted n = .valid ∧ expected n = .invalid)
    missingOrUnknown := countNames names fun n =>
      decide (expected n = .unknown ∨ submitted n = .unknown) }

def countDetails (counts : ValidityCounts) : List (String × Json F) :=
  [("oracle_invalid", .int counts.oracleInvalid), ("detected_invalid", .int counts.detectedInvalid),
    ("observed_valid", .int counts.observedValid), ("false_valid", .int counts.falseValid),
    ("missing_or_unknown", .int counts.missingOrUnknown)]

/-- `_validity_row` with the counts its kind selects. -/
def validityRow (row : Row F) (counts : ValidityCounts) (numerator denominator : ℕ)
    (denominatorName reason : String) : Except String (RowResult F) :=
  if denominator = 0 then
    .ok (unknown row s!"no {denominatorName} exist in this comparison")
  else do
    let value ← ratio numerator denominator
    .ok (measured row value reason (countDetails counts))

def recallRow (row : Row F) (observed oracle : Document F) : Except String (RowResult F) :=
  let counts := validityCounts observed oracle
  validityRow row counts counts.detectedInvalid counts.oracleInvalid "oracle-invalid declarations"
    "invalid recall uses oracle-invalid as its denominator"

def falseValidRow (row : Row F) (observed oracle : Document F) : Except String (RowResult F) :=
  let counts := validityCounts observed oracle
  validityRow row counts counts.falseValid counts.observedValid "submitted VALID declarations"
    "false-valid rate uses submitted VALID as its denominator"

def coverageDetails (name : String) (coverage : Coverage) : List (String × Json F) :=
  [(name, .int coverage.covered), ("required", .int coverage.total),
    ("missing", .array ((coverage.missing.take 128).map .str))]

def coverageRow (row : Row F) (coverage : Option Coverage) (absent empty reason name : String) :
    Except String (RowResult F) :=
  match coverage with
  | none => .ok (unknown row absent)
  | some coverage =>
    if coverage.total = 0 then .ok (unknown row empty)
    else do
      let value ← ratio coverage.covered coverage.total
      .ok (measured row value reason (coverageDetails name coverage))

/-- `_completeness_row`. -/
def completenessRow (row : Row F) (observed : Document F) (observables conditions : List String) :
    Except String (RowResult F) :=
  coverageRow row (conditionCoverage observed observables conditions)
    "condition inventory metadata is absent" "the completeness denominator is empty"
    "declared condition-observable completeness evaluated" "present"

/-- `_lineage_row`. -/
def lineageRow (row : Row F) (observed : Document F) (observables conditions : List String) :
    Except String (RowResult F) :=
  coverageRow row (lineageCoverage observed observables (some conditions))
    "receipt lineage metadata is absent" "the lineage denominator is empty"
    "condition-observable receipt lineage evaluated" "covered"

/-- `_runtime_row`. -/
def runtimeRow (row : Row F) (observed : Document F) : RowResult F :=
  match observed.metadata with
  | none => unknown row "grading runtime metadata is absent"
  | some metadata =>
    measured row metadata.gradingRuntime "reported runner wall-clock duration evaluated" []

/-- `_evaluate_row`. -/
def evaluateRow (row : Row F) (observed oracle : Document F) : Except String (RowResult F) :=
  match row.body with
  | .scalar left right error =>
    scalarRow row (observableOf observed left) (observableOf oracle right) error
  | .curve left right x y error =>
    curveRow row (observableOf observed left) (observableOf oracle right) x y error
  | .mismatchCurve observedSource observedSink oracleSource oracleSink floor _ =>
    mismatchRow row (observableOf observed observedSource) (observableOf observed observedSink)
      (observableOf oracle oracleSource) (observableOf oracle oracleSink) floor
  | .complianceEndpoints left right =>
    .ok (complianceRow row (observableOf observed left) (observableOf oracle right))
  | .signedResponseCoverage left right x y epsilon =>
    signedCoverageRow row (observableOf observed left) (observableOf oracle right) x y epsilon
  | .invalidDetectionRecall => recallRow row observed oracle
  | .falseValidRate => falseValidRow row observed oracle
  | .completeness observables conditions => completenessRow row observed observables conditions
  | .gradingRuntime => .ok (runtimeRow row observed)
  | .lineagePresence observables conditions => lineageRow row observed observables conditions

def RowBody.oracleDependent : RowBody F → Bool
  | .completeness .. | .gradingRuntime | .lineagePresence .. => false
  | _ => true

/-- `_row_observables`: the observed fields of a numeric row. -/
def RowBody.observables : RowBody F → List String
  | .scalar observed .. => [observed]
  | .curve observed .. => [observed]
  | .mismatchCurve observedSource observedSink .. => [observedSource, observedSink].dedup
  | .complianceEndpoints observed _ => [observed]
  | .signedResponseCoverage observed .. => [observed]
  | _ => []

def RowBody.isNumeric : RowBody F → Bool
  | .scalar .. | .curve .. | .mismatchCurve .. | .complianceEndpoints ..
  | .signedResponseCoverage .. => true
  | _ => false

/-- Numeric rows lose their verdict when the lineage of their evidence is incomplete. -/
def requireLineage (row : Row F) (observed : Document F) (result : RowResult F) : RowResult F :=
  match lineageCoverage observed row.body.observables none with
  | none => unknown row "numeric evidence has no execution-receipt lineage"
  | some coverage =>
    if coverage.covered ≠ coverage.total then
      unknown row ("numeric evidence lacks complete execution-receipt lineage: " ++
        ", ".intercalate (coverage.missing.take 8))
    else result

def compareRow (tolerances : Tolerances F) (observed oracle : Document F) (row : Row F) :
    Except String (RowResult F) := do
  let cornerMatch := decide (observed.corner = oracle.corner)
  let result ← if !cornerMatch && row.body.oracleDependent then
      .ok (unknown row "observed and oracle corner identities differ")
    else evaluateRow row observed oracle
  if tolerances.lineageRequired && row.body.isNumeric && cornerMatch then
    .ok (requireLineage row observed result)
  else .ok result

structure Summary where
  pass : ℕ
  fail : ℕ
  unknown : ℕ
  required : ℕ
  requiredPass : ℕ
  requiredFail : ℕ
  requiredUnknown : ℕ
  deriving DecidableEq

def countRows (rows : List (RowResult F)) (holds : RowResult F → Bool) : ℕ :=
  (rows.filter holds).length

def summary (rows : List (RowResult F)) : Summary where
  pass := countRows rows fun item => decide (item.status = .pass)
  fail := countRows rows fun item => decide (item.status = .fail)
  unknown := countRows rows fun item => decide (item.status = .unknown)
  required := countRows rows fun item => item.row.required
  requiredPass := countRows rows fun item => item.row.required && decide (item.status = .pass)
  requiredFail := countRows rows fun item => item.row.required && decide (item.status = .fail)
  requiredUnknown := countRows rows fun item => item.row.required && decide (item.status = .unknown)

structure Comparison (F : Type) [PyFloat F] where
  status : Status
  cornerMatch : Bool
  metrics : List (RowResult F)
  validity : ValidityCounts
  summary : Summary

def overall (summary : Summary) (cornerMatch : Bool) : Status :=
  if summary.requiredFail ≠ 0 then .fail
  else if summary.requiredUnknown ≠ 0 ∨ cornerMatch = false then .unknown
  else .pass

def compareDocuments (tolerances : Tolerances F) (observed oracle : Document F) :
    Except String (Comparison F) := do
  let rows ← tolerances.metrics.mapM (compareRow tolerances observed oracle)
  let cornerMatch := decide (observed.corner = oracle.corner)
  .ok
    { status := overall (summary rows) cornerMatch, cornerMatch := cornerMatch, metrics := rows
      validity := validityCounts observed oracle, summary := summary rows }

/-- `compare_testbench_observables`. -/
def compareTestbenchObservables (observed oracle tolerances : Json F) :
    Except String (Comparison F) := do
  strictJson observed "observed"
  strictJson oracle "oracle"
  strictJson tolerances "tolerances"
  let normalizedObserved ← document observed "observed"
  let normalizedOracle ← document oracle "oracle"
  let normalizedTolerances ← normalizeTolerances tolerances
  compareDocuments normalizedTolerances normalizedObserved normalizedOracle

end OpenADA.Oracle
