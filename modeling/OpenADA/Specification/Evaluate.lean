import OpenADA.Library.JsonAccess
import OpenADA.Series.Normalize

/-! The evaluation of a specification: the checks of its measurement and of its limits and
conditions, and the decision over them. -/
namespace OpenADA.SpecificationEvaluate

open PyStr Series

def requestCode : String := "specification.request.invalid"

def sourceCode : String := "specification.source.invalid"

def measurementCode : String := "specification.measurement.invalid"

def unitCode : String := "specification.unit.mismatch"

def unprovenCode : String := "specification.condition.unproven"

section Normalizer

variable {F : Type} [PyFloatText F]

/-- `_scalar` -/
def scalar (label : String) : PyJson F → Except Fault (ConditionValue F)
  | .int n => (finiteNumber requestCode label (.int n)).map .number
  | .float x => (finiteNumber requestCode label (.float x)).map .number
  | .str value => (text requestCode label 256 (.str value : PyJson F)).map .text
  | .bool value => .ok (.flag value)
  | _ => refuse requestCode label

/-- `_condition` -/
def condition (label : String) (value : PyJson F) : Except Fault (Condition F) := do
  let item ← closedObject requestCode label ["name", "value", "unit"] [] value
  let name ← text requestCode s!"{label}.name" 256 (field item "name")
  let value ← scalar s!"{label}.value" (field item "value")
  let unit ← text requestCode s!"{label}.unit" 64 (field item "unit")
  .ok ⟨name, value, unit⟩

abbrev Conditions (F : Type) [PyFloat F] :=
  {conditions : List (Condition F) // (conditions.map Condition.name).Nodup}

def conditionsOf (code label : String) : PyJson F → Except Fault (Conditions F)
  | .array items =>
    if 64 < items.length then refuse code label
    else do
      let conditions ← items.zipIdx.mapM fun item => condition s!"{label}[{item.2}]" item.1
      if h : (conditions.map Condition.name).Nodup then .ok ⟨conditions, h⟩ else refuse code label
  | _ => refuse code label

/-- `_source`. -/
structure MeasurementSource (F : Type) [PyFloat F] where
  operation : Text 256
  requestId : Uuid
  artifactSha256 : Sha256
  conditionsSha256 : Sha256
  conditions : Conditions F
  lineage : Option Lineage

/-- The lineage of `_source`. -/
def lineageOf : PyJson F → Except Fault (Option Lineage)
  | .null => .ok none
  | value => do
    let label := "measurement.source.lineage"
    let item ← closedObject requestCode label
      ["operation", "request_id", "artifact_role", "artifact_sha256", "binding"] [] value
    let digest ← sha256Text requestCode sourceCode s!"{label}.artifact_sha256"
      (field item "artifact_sha256")
    let role ← roleText requestCode sourceCode s!"{label}.artifact_role"
      (field item "artifact_role")
    if !(field item "binding").isText "unverified" then refuse sourceCode s!"{label}.binding"
    else do
      let operation ← text requestCode s!"{label}.operation" 256 (field item "operation")
      let requestId ← uuidText requestCode sourceCode s!"{label}.request_id"
        (field item "request_id")
      .ok (some ⟨operation, requestId, role, digest⟩)

/-- `_source` -/
def sourceOf (sha256 : ByteArray → Sha256) (value : PyJson F) :
    Except Fault (MeasurementSource F) := do
  let label := "measurement.source"
  let source ← closedObject requestCode label
    ["operation", "request_id", "artifact_role", "artifact_sha256", "series_sha256",
      "conditions_sha256", "conditions", "lineage"] [] value
  let role ← roleText requestCode sourceCode s!"{label}.artifact_role"
    (field source "artifact_role")
  if role.1 ≠ lit "measurement.source" then refuse sourceCode s!"{label}.artifact_role"
  else do
    let artifact ← sha256Text requestCode sourceCode s!"{label}.artifact_sha256"
      (field source "artifact_sha256")
    let series ← sha256Text requestCode sourceCode s!"{label}.series_sha256"
      (field source "series_sha256")
    let digest ← sha256Text requestCode sourceCode s!"{label}.conditions_sha256"
      (field source "conditions_sha256")
    if artifact ≠ series then refuse sourceCode s!"{label}.series_sha256"
    else do
      let conditions ← conditionsOf sourceCode s!"{label}.conditions" (field source "conditions")
      let computed ← canonicalSha256 sha256 (conditionsDocument conditions.1)
      if digest ≠ computed then refuse sourceCode s!"{label}.conditions_sha256"
      else do
        let lineage ← lineageOf (field source "lineage")
        let operation ← text requestCode s!"{label}.operation" 256 (field source "operation")
        let requestId ← uuidText requestCode sourceCode s!"{label}.request_id"
          (field source "request_id")
        .ok ⟨operation, requestId, artifact, digest, conditions, lineage⟩

inductive MeasurementStatus where
  | measured
  | notFound
  | unknown
  deriving DecidableEq

def statusOf (value : PyJson F) : Except Fault MeasurementStatus := do
  let status ← text requestCode "measurement.status" 20 value
  if status.1 = lit "measured" then .ok .measured
  else if status.1 = lit "not_found" then .ok .notFound
  else if status.1 = lit "unknown" then .ok .unknown
  else refuse measurementCode "measurement.status"

def requestSha256Of (status : MeasurementStatus) : PyJson F → Except Fault (Option Sha256)
  | .null =>
    if status = .unknown then .ok none
    else refuse measurementCode "measurement.request_sha256"
  | value => (sha256Text requestCode measurementCode "measurement.request_sha256" value).map some

/-- The value of a measurement: only a measured one has a value, and it has a unit. -/
inductive Reading (F : Type) [PyFloat F] where
  | measured (value : FiniteFloat F) (unit : Text 64)
  | unmeasured (unit : Option (Text 64))

def optionalUnit : PyJson F → Except Fault (Option (Text 64))
  | .null => .ok none
  | value => (text requestCode "measurement.unit" 64 value).map some

def readingOf (status : MeasurementStatus) (value unit : PyJson F) :
    Except Fault (Reading F) :=
  if status = .measured then do
    let value ← finiteNumber requestCode "measurement.value" value
    let unit ← text requestCode "measurement.unit" 64 unit
    .ok (.measured value unit)
  else
    match value with
    | .null => (optionalUnit unit).map .unmeasured
    | _ => refuse measurementCode "measurement.value"

def locationOf : PyJson F → Except Fault (Option (FiniteFloat F × Text 64))
  | .null => .ok none
  | value => do
    let item ← closedObject requestCode "measurement.location" ["value", "unit"] [] value
    let number ← finiteNumber requestCode "measurement.location.value" (field item "value")
    let unit ← text requestCode "measurement.location.unit" 64 (field item "unit")
    .ok (some (number, unit))

def sampleCountOf : PyJson F → Except Fault ℕ
  | .int n =>
    if 0 ≤ n ∧ n ≤ 100000 then .ok n.toNat
    else refuse measurementCode "measurement.sample_count"
  | _ => refuse measurementCode "measurement.sample_count"

structure Measurement (F : Type) [PyFloat F] where
  measurementId : Role
  kind : Text 40
  requestSha256 : Option Sha256
  reading : Reading F
  signal : Text 256
  location : Option (FiniteFloat F × Text 64)
  algorithmId : Text 256
  algorithmVersion : Text 100
  sampleCount : ℕ
  source : MeasurementSource F

/-- `_normalize_measurement` -/
def normalizeMeasurement (sha256 : ByteArray → Sha256) (value : PyJson F) :
    Except Fault (Measurement F) := do
  let item ← closedObject requestCode "measurement"
    ["measurement_id", "kind", "status", "request_sha256", "value", "unit", "signal", "location",
      "algorithm", "sample_count", "source", "extensions"] [] value
  emptyExtensions requestCode "measurement.extensions" (field item "extensions")
  let measurementId ← roleText requestCode measurementCode "measurement.measurement_id"
    (field item "measurement_id")
  let status ← statusOf (field item "status")
  let requestSha256 ← requestSha256Of status (field item "request_sha256")
  let reading ← readingOf status (field item "value") (field item "unit")
  let location ← locationOf (field item "location")
  let algorithm ← closedObject requestCode "measurement.algorithm" ["id", "version"] []
    (field item "algorithm")
  let algorithmId ← text requestCode "measurement.algorithm.id" 256 (field algorithm "id")
  let algorithmVersion ← text requestCode "measurement.algorithm.version" 100
    (field algorithm "version")
  let sampleCount ← sampleCountOf (field item "sample_count")
  let kind ← text requestCode "measurement.kind" 40 (field item "kind")
  let signal ← text requestCode "measurement.signal" 256 (field item "signal")
  let source ← sourceOf sha256 (field item "source")
  .ok ⟨measurementId, kind, requestSha256, reading, signal, location, algorithmId,
    algorithmVersion, sampleCount, source⟩

structure Bound (F : Type) [PyFloat F] where
  value : FiniteFloat F
  unit : Text 64
  inclusive : Bool

/-- `_bound` -/
def boundOf (label : String) (value : PyJson F) : Except Fault (Bound F) := do
  let item ← closedObject requestCode label ["value", "unit", "inclusive"] [] value
  match field item "inclusive" with
  | .bool inclusive => do
    let number ← finiteNumber requestCode s!"{label}.value" (field item "value")
    let unit ← text requestCode s!"{label}.unit" 64 (field item "unit")
    .ok ⟨number, unit, inclusive⟩
  | _ => refuse requestCode s!"{label}.inclusive"

def limitLabel (name : PyStr) : String :=
  if name = lit "lower" then "specification.limits.lower" else "specification.limits.upper"

def namedBound (entry : PyStr × PyJson F) : Except Fault (PyStr × Bound F) :=
  (boundOf (limitLabel entry.1) entry.2).map fun bound => (entry.1, bound)

structure Limits (F : Type) [PyFloat F] where
  lower : Option (Bound F)
  upper : Option (Bound F)
  declared : lower.isSome ∨ upper.isSome

def checkInterval : Option (Bound F) → Option (Bound F) → Except Fault Unit
  | some lower, some upper =>
    if lower.unit ≠ upper.unit then refuse unitCode "specification.limits"
    else if PyFloat.lt upper.value.1 lower.value.1 ∨ (PyFloat.eq lower.value.1 upper.value.1 ∧
        (¬lower.inclusive ∨ ¬upper.inclusive)) then refuse requestCode "specification.limits"
    else .ok ()
  | _, _ => .ok ()

def limitsOf (value : PyJson F) : Except Fault (Limits F) := do
  let limits ← closedObject requestCode "specification.limits" [] ["lower", "upper"] value
  let bounds ← limits.mapM namedBound
  let lower := bounds.lookup (lit "lower")
  let upper := bounds.lookup (lit "upper")
  if h : lower.isSome ∨ upper.isSome then do
    checkInterval lower upper
    .ok ⟨lower, upper, h⟩
  else refuse requestCode "specification.limits"

structure Specification (F : Type) [PyFloat F] where
  specificationId : Role
  measurementId : Role
  limits : Limits F
  conditions : Conditions F

/-- `_normalize_specification` -/
def normalizeSpecification (value : PyJson F) : Except Fault (Specification F) := do
  let item ← closedObject requestCode "specification"
    ["specification_id", "measurement_id", "limits", "conditions", "extensions"] [] value
  emptyExtensions requestCode "specification.extensions" (field item "extensions")
  let ⟨specificationId, hspecification⟩ ← text requestCode "specification.specification_id" 120
    (field item "specification_id")
  let ⟨measurementId, hmeasurement⟩ ← text requestCode "specification.measurement_id" 120
    (field item "measurement_id")
  if hroles : isRole specificationId = true ∧ isRole measurementId = true then do
    let limits ← limitsOf (field item "limits")
    let conditions ← conditionsOf requestCode "specification.conditions" (field item "conditions")
    .ok ⟨⟨specificationId, hspecification, hroles.1⟩, ⟨measurementId, hmeasurement, hroles.2⟩,
      limits, conditions⟩
  else refuse requestCode "specification"

end Normalizer

section Decision

variable {F : Type} [PyFloatText F]

inductive Verdict where
  | pass
  | fail
  | unknown
  deriving DecidableEq

inductive BoundKind where
  | lower
  | upper
  deriving DecidableEq

structure Margin (F : Type) where
  value : F
  unit : Text 64
  relativeTo : BoundKind

structure Evaluation (F : Type) where
  specificationId : Option Role
  measurementId : Option Role
  status : Verdict
  requiredCount : ℕ
  matchedCount : ℕ
  matched : Bool
  margin : Option (Margin F)
  code : Option String
  completed : Bool

/-- `type(a) is type(b) and a == b` -/
def sameValue : ConditionValue F → ConditionValue F → Bool
  | .number x, .number y => PyFloat.eq x.1 y.1
  | .flag a, .flag b => a == b
  | .text a, .text b => decide (a = b)
  | _, _ => false

/-- The loop over the required conditions: how many matched, and why the next one did not. -/
def matchConditions (actual : List (Condition F)) : ℕ → List (Condition F) → ℕ × Option String
  | matched, [] => (matched, none)
  | matched, required :: rest =>
    match actual.find? fun item => decide (item.name = required.name) with
    | none => (matched, some unprovenCode)
    | some found =>
      if found.unit ≠ required.unit then (matched, some unitCode)
      else if !sameValue found.value required.value then (matched, some unprovenCode)
      else matchConditions actual (matched + 1) rest

structure Judged (F : Type) where
  margin : F
  kind : BoundKind
  violated : Bool

def judgeLower (measured : F) (bound : Bound F) : Judged F :=
  ⟨measured - bound.value.1, .lower, PyFloat.lt measured bound.value.1 ||
    (PyFloat.eq measured bound.value.1 && !bound.inclusive)⟩

def judgeUpper (measured : F) (bound : Bound F) : Judged F :=
  ⟨bound.value.1 - measured, .upper, PyFloat.lt bound.value.1 measured ||
    (PyFloat.eq measured bound.value.1 && !bound.inclusive)⟩

def judgeLimits (measured : F) (limits : Limits F) : List (Judged F) :=
  (limits.lower.map (judgeLower measured)).toList ++ (limits.upper.map (judgeUpper measured)).toList

def limiting : List (Judged F) → Option (Judged F)
  | [] => none
  | first :: rest => some (rest.foldl
      (fun best next => if PyFloat.lt next.margin best.margin then next else best) first)

def Limits.unitsDiffer (limits : Limits F) (unit : Text 64) : Bool :=
  (limits.lower.toList ++ limits.upper.toList).any fun bound => decide (bound.unit ≠ unit)

/-- `evaluate_specification` of a measurement and a specification that passed their checks. -/
def evaluate (measurement : Measurement F) (specification : Specification F) :
    Except Fault (Evaluation F) :=
  if specification.measurementId ≠ measurement.measurementId then
    refuse "specification.measurement.mismatch" "specification.measurement_id"
  else
    let required := specification.conditions.1
    let limits := specification.limits
    let evaluation : Evaluation F :=
      ⟨some specification.specificationId, some measurement.measurementId, .unknown,
        required.length, 0, false, none, none, true⟩
    match measurement.reading with
    | .unmeasured _ => .ok { evaluation with code := some "specification.measurement.unknown" }
    | .measured measured unit =>
      if limits.unitsDiffer unit then .ok { evaluation with code := some unitCode }
      else
        match matchConditions measurement.source.conditions.1 0 required with
        | (count, some code) =>
          .ok { evaluation with matchedCount := count, code := some code }
        | (count, none) =>
          let judged := judgeLimits measured.1 limits
          if !judged.all fun item => PyFloat.isFinite item.margin then
            refuse "specification.value.non_finite" "specification.limits"
          else
            let violated := judged.any Judged.violated
            .ok { evaluation with
              matchedCount := count
              matched := true
              margin := (limiting judged).map fun item => ⟨item.margin, unit, item.kind⟩
              status := if violated then .fail else .pass
              code := if violated then some "specification.limit.violated" else none }

def refused (specificationId measurementId : Option Role) : Fault → Except Fault (Evaluation F)
  | .invalid request =>
    .ok ⟨specificationId, measurementId, .unknown, 0, 0, false, none, some request.code, false⟩
  | fault => .error fault

/-- `evaluate_specification` -/
def evaluateSpecification (sha256 : ByteArray → Sha256) (measurement specification : PyJson F) :
    Except Fault (Evaluation F) :=
  match normalizeMeasurement sha256 measurement with
  | .error fault => refused none none fault
  | .ok measurement =>
    match normalizeSpecification specification with
    | .error fault => refused none (some measurement.measurementId) fault
    | .ok specification =>
      match evaluate measurement specification with
      | .error fault =>
        refused (some specification.specificationId) (some measurement.measurementId) fault
      | .ok evaluation => .ok evaluation

end Decision

end OpenADA.SpecificationEvaluate
