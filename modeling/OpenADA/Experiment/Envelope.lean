import OpenADA.Library.ExceptFold
import OpenADA.Library.JsonAccess

/-! The envelopes of child operations: the facts an experiment run reads from them, their
structure check, and the audit of the files that are retained. -/
namespace OpenADA.Experiment

open PyStr PyJson

structure ExperimentIssue where
  code : String
  path : PyStr
  deriving DecidableEq

def isHex (c : CodePoint) : Bool :=
  (point '0' ≤ c && c ≤ point '9') || (point 'a' ≤ c && c ≤ point 'f')

/-- `_SHA256_RE`. -/
def isSha256 (text : PyStr) : Bool := decide (text.length = 64) && text.all isHex

abbrev Sha256 := {text : PyStr // isSha256 text = true}

variable {F : Type}

def sha256? : PyJson F → Option Sha256
  | .str text => if h : isSha256 text = true then some ⟨text, h⟩ else none
  | _ => none

structure FileRecord where
  path : PyStr
  bytes : ℕ
  sha256 : Sha256

section Accessors

/-- `envelope["data"]["protocol"]` where both are objects. -/
def protocolField (key : String) (envelope : PyJson F) : Except Raised (Option PyStr) := do
  let data ← envelope.getItem "data"
  .ok ((data.member "protocol").member key).text?

/-- `_protocol_profile`. -/
def protocolProfile (envelope : PyJson F) : Except Raised (Option PyStr) :=
  protocolField "operation_profile" envelope

/-- `_protocol_request_id`. -/
def protocolRequestId (envelope : PyJson F) : Except Raised (Option PyStr) :=
  protocolField "request_id" envelope

def requestSha (record : String) (envelope : PyJson F) : Except Raised (Option Sha256) := do
  let data ← envelope.getItem "data"
  .ok (sha256? ((data.member record).member "request_sha256"))

/-- `_operation_request_sha`. -/
def operationRequestSha (envelope : PyJson F) : Except Raised (Option Sha256) :=
  requestSha "measurement" envelope

/-- `_extraction_request_sha`. -/
def extractionRequestSha (envelope : PyJson F) : Except Raised (Option Sha256) :=
  requestSha "extraction" envelope

variable [PyFloat F]

/-- `_measurement_value`; an integer too large for a float raises. -/
def measurementValue (envelope : PyJson F) : Except Raised (Option (F × PyStr)) := do
  let data ← envelope.getItem "data"
  let measurement := data.member "measurement"
  if measurement.member "status" |>.isText "measured" then
    match measurement.member "value", (measurement.member "unit").text? with
    | .int n, unit =>
      match PyFloat.ofInt n with
      | none => .error .raised
      | some x => .ok (if PyFloat.isFinite x then unit.map fun u => (x, u) else none)
    | .float x, unit => .ok (if PyFloat.isFinite x then unit.map fun u => (x, u) else none)
    | _, _ => .ok none
  else .ok none

def executionStatus (envelope : PyJson F) : Except Raised (PyJson F) :=
  envelope.nested "execution" "status"

def engineeringStatus (envelope : PyJson F) : Except Raised (PyJson F) :=
  envelope.nested "engineering" "status"

/-- The diagnostics of an envelope that are objects; a number or a true is not iterated. -/
def diagnosticEntries (envelope : PyJson F) : Except Raised (List (Mapping F)) := do
  let diagnostics ← envelope.getItem "diagnostics"
  match diagnostics with
  | .array items => .ok (items.filterMap fun | .object fields => some fields | _ => none)
  | .object _ => .ok []
  | .str _ => .ok []
  | other => if other.truthy then .error .raised else .ok []

end Accessors

section Retained

variable (isAbsolute : PyStr → Bool)

/-- The path, the size and the digest of a record that binds a retained file. -/
def boundRecord (record : Mapping F) : Option (PyStr × ℕ × Sha256) :=
  let value : PyJson F := .object record
  match value.member "path", value.member "bytes", sha256? (value.member "sha256") with
  | .str path, .int size, some digest =>
    if (value.member "exists").isTrue && isAbsolute path && 0 ≤ size then
      some (path, size.toNat, digest)
    else none
  | _, _, _ => none

def sectionComplete (values : PyJson F) : Except Raised Bool :=
  match values with
  | .array items => items.foldlM (fun complete item =>
      if complete then
        match item with
        | .object fields => .ok (((PyJson.object fields).member "kind").text?.isSome &&
            ((PyJson.object fields).member "role").text?.isSome &&
              (boundRecord isAbsolute fields).isSome)
        | _ => .error .raised
      else .ok false) true
  | _ => .error .raised

/-- Whether `_child_envelope_structure_issue` finds nothing; `conforms` says that
`result_conformance_issues` is empty. -/
def structureComplete (conforms : String → PyJson F → Bool) (operation : String)
    (envelope : PyJson F) : Except Raised Bool :=
  if conforms operation envelope then do
    let inputs ← sectionComplete isAbsolute (envelope.member "inputs")
    if inputs then sectionComplete isAbsolute (envelope.member "artifacts") else .ok false
  else .ok false

def sectionRecords (values : PyJson F) : List (Mapping F) :=
  match values with
  | .array items => items.map fun | .object fields => fields | _ => []
  | _ => [[]]

/-- `_envelope_file_records`. -/
def envelopeFileRecords (envelope : PyJson F) : Except Raised (List (Mapping F)) := do
  let inputs ← envelope.getItem "inputs"
  let artifacts ← envelope.getItem "artifacts"
  .ok (sectionRecords inputs ++ sectionRecords artifacts)

/-- `_raw_artifact`. -/
def rawArtifact (envelope : PyJson F) : Option (Mapping F) :=
  match (sectionRecords (envelope.member "artifacts")).filter fun item =>
      ((PyJson.object item).member "role").isText "simulation.result" &&
        ((PyJson.object item).member "exists").isTrue with
  | [artifact] => some artifact
  | _ => none

/-- `_input_by_sha256`. -/
def inputBySha256 (envelope : PyJson F) (digest : Sha256) : Option (Mapping F) :=
  match (sectionRecords (envelope.member "inputs")).filter fun item =>
      ((PyJson.object item).member "kind").isText "spice-netlist" &&
        (((PyJson.object item).member "sha256").text? == some digest.1) &&
          ((PyJson.object item).member "exists").isTrue with
  | [input] => some input
  | _ => none

def evidenceIncomplete : String := "experiment.evidence.collection_incomplete"

def FileRecord.mapping (record : FileRecord) : Mapping F :=
  [(lit "path", .str record.path), (lit "bytes", .int record.bytes),
    (lit "sha256", .str record.sha256.1), (lit "exists", .bool true)]

def bindRecords : ℕ → List (Mapping F) → List (PyStr × ℕ × Sha256) →
    List (PyStr × ℕ × Sha256) × List ExperimentIssue
  | _, [], bound => (bound, [])
  | index, record :: rest, bound =>
    let issue : ExperimentIssue := ⟨evidenceIncomplete, lit "/artifacts/" ++ natText index⟩
    match boundRecord isAbsolute record with
    | none =>
      let (bindings, issues) := bindRecords (index + 1) rest bound
      (bindings, issue :: issues)
    | some binding =>
      match bound.lookup binding.1 with
      | none => bindRecords (index + 1) rest (binding :: bound)
      | some prior =>
        if prior = binding.2 then bindRecords (index + 1) rest bound
        else
          let (bindings, issues) := bindRecords (index + 1) rest bound
          (bindings, issue :: issues)

/-- `_audit_retained_files`; `recorded` is the stable record of a path as it is now. -/
def auditRetainedFiles (recorded : PyStr → Option FileRecord) (records : List (Mapping F)) :
    List ExperimentIssue :=
  let (bindings, issues) := bindRecords isAbsolute 0 records []
  issues ++ (bindings.insertionSort fun a b => PyStr.le a.1 b.1).filterMap fun (path, size, digest) =>
    match recorded path with
    | none => some ⟨evidenceIncomplete, []⟩
    | some found =>
      if found.path = path ∧ found.bytes = size ∧ found.sha256 = digest then none
      else some ⟨evidenceIncomplete, []⟩

end Retained

end OpenADA.Experiment
