import OpenADA.Library.JsonAccess
import OpenADA.Library.PosixPath
import OpenADA.Series.Extract

/-! The simulation result an extraction starts from: its closed envelope, the identity of its
driver, the evidence it must carry, and the raw artifact it retains. -/
namespace OpenADA.Series

open PyStr

def simulationInvalid : String := "series.simulation.invalid"

def pathMismatch : String := "series.artifact.path_mismatch"

/-- `MAX_SIMULATION_INPUT_RECORDS`. -/
def maxInputRecords : ℕ := 512 + 64

def maxArtifactRecords : ℕ := 64

def maxDiagnostics : ℕ := 256

def maxConfigurationReferences : ℕ := 64

def require (code label : String) (holds : Bool) : Except Fault Unit :=
  if holds then .ok () else refuse code label

section Envelope

variable {F : Type}

def textField (limit : ℕ) (label : String) (value : PyJson F) : Except Fault Unit :=
  (text simulationInvalid label limit value).map fun _ => ()

def optionalText (limit : ℕ) (label : String) : Option (PyJson F) → Except Fault Unit
  | some value => textField limit label value
  | none => .ok ()

def nullableText (limit : ℕ) (label : String) : PyJson F → Except Fault Unit
  | .null => .ok ()
  | value => textField limit label value

/-- A word of a set; the TypeError of an unhashable value is answered as a malformed request. -/
def oneOf (words : List String) (label : String) : PyJson F → Except Fault Unit
  | .str name => require simulationInvalid label (words.any fun word => name = lit word)
  | .array _ => refuse extractRequestInvalid label
  | .object _ => refuse extractRequestInvalid label
  | _ => refuse simulationInvalid label

def boundedItems (limit : ℕ) (label : String) : PyJson F → Except Fault (List (PyJson F))
  | .array items => if items.length ≤ limit then .ok items else refuse simulationInvalid label
  | _ => refuse simulationInvalid label

structure SimulationFile where
  kind : Text 256
  role : Text 256
  path : Text 4095
  bound : Option (ℕ × Sha256)

def sizeOf? : PyJson F → Option ℕ
  | .int size => if 0 ≤ size then some size.toNat else none
  | _ => none

def digestOf? : PyJson F → Option Sha256
  | .str digest => if h : isSha256 digest = true then some ⟨digest, h⟩ else none
  | _ => none

/-- `_validate_file_record`. -/
def validateFileRecord (label : String) (value : PyJson F) : Except Fault SimulationFile := do
  let item ← closedObject simulationInvalid label ["kind", "role", "path", "exists"]
    ["bytes", "sha256"] value
  let kind ← text simulationInvalid s!"{label}.kind" 256 (field item "kind")
  let role ← text simulationInvalid s!"{label}.role" 256 (field item "role")
  let path ← text simulationInvalid s!"{label}.path" 4095 (field item "path")
  match field item "exists" with
  | .bool true =>
    match sizeOf? (field item "bytes"), digestOf? (field item "sha256") with
    | some size, some digest => .ok ⟨kind, role, path, some (size, digest)⟩
    | _, _ => refuse simulationInvalid label
  | .bool false =>
    if (item.lookup (lit "bytes")).isSome || (item.lookup (lit "sha256")).isSome then
      refuse simulationInvalid label
    else .ok ⟨kind, role, path, none⟩
  | _ => refuse simulationInvalid s!"{label}.exists"

def validateFileRecords (limit : ℕ) (label : String) (value : PyJson F) :
    Except Fault (List SimulationFile) := do
  let items ← boundedItems limit label value
  items.zipIdx.mapM fun entry => validateFileRecord s!"{label}[{entry.2}]" entry.1

def validateConfigurationReference (label : String) (value : PyJson F) : Except Fault Unit := do
  let entry ← closedObject simulationInvalid label ["role", "path", "sha256", "bytes", "identity"]
    [] value
  textField 256 s!"{label}.role" (field entry "role")
  textField 256 s!"{label}.identity" (field entry "identity")
  textField 4095 s!"{label}.path" (field entry "path")
  require simulationInvalid s!"{label}.sha256" (digestOf? (field entry "sha256")).isSome
  require simulationInvalid s!"{label}.bytes" (sizeOf? (field entry "bytes")).isSome

/-- `_validate_configuration_references`, where the field is there. -/
def validateConfigurationReferences : Option (PyJson F) → Except Fault Unit
  | none => .ok ()
  | some value => do
    let label := "simulation_result.data.extensions.org.openada.configuration"
    let items ← boundedItems maxConfigurationReferences label value
    (items.zipIdx.mapM fun entry =>
      validateConfigurationReference s!"{label}[{entry.2}]" entry.1).map fun _ => ()

def validateTool (value : PyJson F) : Except Fault (Fields F) := do
  let tool ← closedObject simulationInvalid "simulation_result.tool" ["name", "path", "version"] []
    value
  textField 256 "simulation_result.tool.name" (field tool "name")
  nullableText 4095 "simulation_result.tool.path" (field tool "path")
  nullableText 1000 "simulation_result.tool.version" (field tool "version")
  .ok tool

def executionStatuses : List String :=
  ["completed", "timed_out", "not_available", "invalid_request", "failed"]

def isInteger : PyJson F → Bool
  | .int _ => true
  | _ => false

def isNull : PyJson F → Bool
  | .null => true
  | _ => false

def isMapping : PyJson F → Bool
  | .object _ => true
  | _ => false

def isSequence : PyJson F → Bool
  | .array _ => true
  | _ => false

def isTextArray : PyJson F → Bool
  | .array items => items.all fun item => item.text?.isSome
  | _ => false

def validateExecution (value : PyJson F) : Except Fault (Fields F) := do
  let label := "simulation_result.execution"
  let execution ← closedObject simulationInvalid label
    ["status", "exit_code", "duration_ms", "command"] ["cwd", "error"] value
  oneOf executionStatuses label (field execution "status")
  require simulationInvalid label
    (isNull (field execution "exit_code") || isInteger (field execution "exit_code"))
  require simulationInvalid label (sizeOf? (field execution "duration_ms")).isSome
  require simulationInvalid label (isTextArray (field execution "command"))
  optionalText 4095 s!"{label}.cwd" (execution.lookup (lit "cwd"))
  optionalText 4000 s!"{label}.error" (execution.lookup (lit "error"))
  .ok execution

def validateEngineering (value : PyJson F) : Except Fault (Fields F) := do
  let label := "simulation_result.engineering"
  let engineering ← closedObject simulationInvalid label ["status", "summary"] [] value
  oneOf ["pass", "fail", "unknown"] s!"{label}.status" (field engineering "status")
  textField 4000 s!"{label}.summary" (field engineering "summary")
  .ok engineering

def validateDiagnostic (label : String) (value : PyJson F) : Except Fault Unit := do
  let item ← closedObject simulationInvalid label ["severity", "code", "message"] ["hint"] value
  oneOf ["info", "warning", "error"] s!"{label}.severity" (field item "severity")
  textField 4000 s!"{label}.code" (field item "code")
  textField 4000 s!"{label}.message" (field item "message")
  optionalText 4000 s!"{label}.hint" (item.lookup (lit "hint"))

def validateDiagnostics (value : PyJson F) : Except Fault Unit := do
  let label := "simulation_result.diagnostics"
  let items ← boundedItems maxDiagnostics label value
  (items.zipIdx.mapM fun entry => validateDiagnostic s!"{label}[{entry.2}]" entry.1).map
    fun _ => ()

def validateProvenance (value : PyJson F) : Except Fault Unit := do
  let label := "simulation_result.provenance"
  let provenance ← closedObject simulationInvalid label ["openada_version", "created_at", "host"] []
    value
  textField 100 s!"{label}.openada_version" (field provenance "openada_version")
  textField 100 s!"{label}.created_at" (field provenance "created_at")
  let host ← closedObject simulationInvalid s!"{label}.host" ["system", "machine", "python"] []
    (field provenance "host")
  require simulationInvalid s!"{label}.host"
    (["system", "machine", "python"].all fun name => (field host name).text?.isSome)

structure BaseEnvelope (F : Type) where
  tool : Fields F
  execution : Fields F
  engineering : Fields F
  artifacts : List SimulationFile
  data : PyJson F

/-- `_validate_base_envelope`, and the artifact records that are read once more. -/
def validateBaseEnvelope (value : PyJson F) : Except Fault (BaseEnvelope F) := do
  let root ← closedObject simulationInvalid "simulation_result" ["schema", "operation", "tool",
    "execution", "engineering", "inputs", "artifacts", "diagnostics", "data", "provenance"] [] value
  require simulationInvalid "simulation_result"
    ((field root "schema").isText "openada.result/v0alpha1" &&
      (field root "operation").isText "simulate")
  let tool ← validateTool (field root "tool")
  let execution ← validateExecution (field root "execution")
  let engineering ← validateEngineering (field root "engineering")
  let _ ← validateFileRecords maxInputRecords "simulation_result.inputs" (field root "inputs")
  let artifacts ← validateFileRecords maxArtifactRecords "simulation_result.artifacts"
    (field root "artifacts")
  validateDiagnostics (field root "diagnostics")
  validateProvenance (field root "provenance")
  .ok ⟨tool, execution, engineering, artifacts, field root "data"⟩

end Envelope

section Source

variable {F : Type}

def circuitSimulateProfile : String := "openada.operation/circuit.simulate/v1alpha2"

def simulationEvidenceAssertion : String := "openada.assertion/simulation.evidence.valid/v1alpha1"

structure DriverBackend where
  driverId : String
  backend : Backend
  toolName : String
  artifactKind : String

/-- `_DRIVER_BACKENDS`. -/
def driverBackends : List DriverBackend :=
  [⟨"org.openada.driver.ngspice", .ngspice, "ngspice", "ngspice-raw"⟩,
    ⟨"org.openada.driver.ngspice-pdk-control", .ngspice, "ngspice", "ngspice-raw"⟩,
    ⟨"org.openada.driver.xyce", .xyce, "xyce", "xyce-raw"⟩]

def Backend.name : Backend → String
  | .ngspice => "ngspice"
  | .xyce => "xyce"

def driverBackend (label : String) : PyJson F → Except Fault DriverBackend
  | .str name =>
    match driverBackends.find? fun driver => name = lit driver.driverId with
    | some driver => .ok driver
    | none => refuse simulationInvalid label
  | .array _ => refuse extractRequestInvalid label
  | .object _ => refuse extractRequestInvalid label
  | _ => refuse simulationInvalid label

def AnalysisKind.name : AnalysisKind → String
  | .op => "op"
  | .dc => "dc"
  | .ac => "ac"
  | .tran => "tran"

def analysisKind (label : String) : PyJson F → Except Fault AnalysisKind
  | .str name =>
    match [AnalysisKind.op, .dc, .ac, .tran].find? fun kind => name = lit kind.name with
    | some kind => .ok kind
    | none => refuse simulationInvalid label
  | .array _ => refuse extractRequestInvalid label
  | .object _ => refuse extractRequestInvalid label
  | _ => refuse simulationInvalid label

def simulationProtocol (base : BaseEnvelope F) (data : Fields F) :
    Except Fault (Uuid × DriverBackend × Text 100) := do
  let label := "simulation_result.data.protocol"
  let protocol ← closedObject simulationInvalid label
    ["request_id", "operation_profile", "assertion_profile", "driver_id", "driver_version"] []
    (field data "protocol")
  let requestId ← uuidText simulationInvalid simulationInvalid s!"{label}.request_id"
    (field protocol "request_id")
  require simulationInvalid label
    ((field protocol "operation_profile").isText circuitSimulateProfile &&
      (field protocol "assertion_profile").isText simulationEvidenceAssertion)
  let driver ← driverBackend label (field protocol "driver_id")
  let version ← text simulationInvalid s!"{label}.driver_version" 100
    (field protocol "driver_version")
  require simulationInvalid "simulation_result.tool"
    ((field base.tool "name").isText driver.toolName)
  .ok (requestId, driver, version)

def positiveCount (label : String) : PyJson F → Except Fault ℤ
  | .int count => if 0 < count then .ok count else refuse simulationInvalid label
  | _ => refuse simulationInvalid label

def simulationAnalysis (data : Fields F) : Except Fault (Fields F × AnalysisKind × Counts) := do
  let label := "simulation_result.data.analysis"
  let record ← closedObject simulationInvalid label ["type", "completion", "convergence",
    "point_count", "dependent_variable_count", "finite_value_count", "extensions"] []
    (field data "analysis")
  let kind ← analysisKind label (field record "type")
  let points ← positiveCount s!"{label}.point_count" (field record "point_count")
  let dependent ← positiveCount s!"{label}.dependent_variable_count"
    (field record "dependent_variable_count")
  let finite ← positiveCount s!"{label}.finite_value_count" (field record "finite_value_count")
  require simulationInvalid s!"{label}.extensions" (isMapping (field record "extensions"))
  .ok (record, kind, ⟨points, dependent, finite⟩)

def retainedRoles (artifacts : List SimulationFile) : List PyStr :=
  (artifacts.filter fun file => file.bound.isSome).map fun file => file.role.1

def sameMembers (a b : List PyStr) : Bool := a.all (b.contains ·) && b.all (a.contains ·)

def evidenceRoles (value : PyJson F) : Except Fault (List PyStr) :=
  match value with
  | .array items =>
    match items.mapM PyJson.text? with
    | some roles =>
      if roles.Nodup then .ok roles
      else refuse simulationInvalid "simulation_result.data.evidence.artifact_roles_present"
    | none => refuse simulationInvalid "simulation_result.data.evidence.artifact_roles_present"
  | _ => refuse simulationInvalid "simulation_result.data.evidence.artifact_roles_present"

def requireProven (base : BaseEnvelope F) (data analysis : Fields F) : Except Fault Unit := do
  let evidence ← closedObject simulationInvalid "simulation_result.data.evidence"
    ["request_binding", "freshness", "structure", "artifact_roles_present", "provenance",
      "provenance_limitations", "extensions"] [] (field data "evidence")
  let roles ← evidenceRoles (field evidence "artifact_roles_present")
  let actual := retainedRoles base.artifacts
  require "series.simulation.unproven" "simulation_result"
    ((field base.execution "status").isText "completed" &&
      (match field base.execution "exit_code" with
        | .int code => code = 0
        | _ => false) &&
      (field base.engineering "status").isText "pass" &&
      (field analysis "completion").isText "completed" &&
      (field analysis "convergence").isText "converged" &&
      (field evidence "request_binding").isText "exact" &&
      (field evidence "freshness").isText "fresh" &&
      (field evidence "structure").isText "valid" &&
      sameMembers roles actual &&
      (actual.contains (lit "simulation.result") && actual.contains (lit "simulation.log")))

/-- The analysis the request was bound to; `pyStr` is `str`. -/
def requestedAnalysis (pyStr : PyJson F → PyStr) (data : Fields F) (backend : Backend)
    (kind : AnalysisKind) : Except Fault (RequestedAnalysis F) := do
  let label := "simulation_result.data.extensions.org.openada"
  let native ← closedObject simulationInvalid label
    ["backend", "parameters", "native_data", "native_diagnostics"] ["configuration"]
    ((field data "extensions").member "org.openada")
  validateConfigurationReferences (native.lookup (lit "configuration"))
  require simulationInvalid s!"{label}.backend" ((field native "backend").isText backend.name)
  let parameters ← closedObject simulationInvalid s!"{label}.parameters" ["analysis", "extensions"]
    [] (field native "parameters")
  emptyExtensions simulationInvalid s!"{label}.parameters.extensions" (field parameters "extensions")
  require simulationInvalid s!"{label}.parameters.analysis"
    (((field parameters "analysis").member "type").isText kind.name)
  require simulationInvalid label
    (isMapping (field native "native_data") && isSequence (field native "native_diagnostics"))
  match field parameters "analysis" with
  | .object document =>
    .ok ⟨kind, ((document.lookup (lit "source_name")).map pyStr).getD [],
      field document "source_unit", document⟩
  | _ => refuse simulationInvalid s!"{label}.parameters.analysis"

/-- The one raw artifact that is retained; `supplied` is the resolved path that was named. -/
def retainedArtifact (supplied : PyStr) (driver : DriverBackend) (artifacts : List SimulationFile) :
    Except Fault RawArtifact :=
  match artifacts.filter fun file => file.role.1 = lit "simulation.result" with
  | [file] =>
    match file.bound with
    | some (size, digest) =>
      if file.kind.1 ≠ lit driver.artifactKind ∨ size = 0 then
        refuse simulationInvalid "simulation_result.artifacts"
      else
        let recorded := PosixPath.pathText file.path.1
        if PosixPath.isAbsolute file.path.1 = false ∨ recorded ≠ PosixPath.absPath recorded then
          refuse pathMismatch "simulation_result.artifacts"
        else if supplied ≠ recorded then refuse pathMismatch "artifact_path"
        else .ok ⟨file.kind.1, file.path.1, size, digest⟩
    | none => refuse simulationInvalid "simulation_result.artifacts"
  | _ => refuse "series.artifact.ambiguous" "simulation_result.artifacts"

/-- `_simulation_source`. -/
def simulationSource (pyStr : PyJson F → PyStr) (supplied : PyStr) (simulation : PyJson F) :
    Except Fault (SimulationSource F) := do
  let base ← validateBaseEnvelope simulation
  let data ← closedObject simulationInvalid "simulation_result.data"
    ["protocol", "analysis", "evidence", "extensions"] [] base.data
  let (requestId, driver, version) ← simulationProtocol base data
  let (record, kind, counts) ← simulationAnalysis data
  requireProven base data record
  let analysis ← requestedAnalysis pyStr data driver.backend kind
  let artifact ← retainedArtifact supplied driver base.artifacts
  .ok ⟨requestId, lit driver.driverId, version, driver.backend, analysis, artifact, counts⟩

end Source

end OpenADA.Series
