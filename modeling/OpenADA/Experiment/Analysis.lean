import OpenADA.Experiment.Envelope

/-! One analysis of an experiment run: its simulation, the extraction of its observations and its
measurements, with every branch on which it ends early. -/
namespace OpenADA.Experiment

open PyStr PyJson

def circuitSimulateProfile : String := "openada.operation/circuit.simulate/v1alpha2"

def extractionOperationProfile : String := "openada.operation/result.series.extract/v1alpha1"

inductive MeasurementProfile where
  | measure
  | transfer
  | spectral
  deriving DecidableEq

def MeasurementProfile.name : MeasurementProfile → String
  | .measure => "openada.operation/result.measure/v1alpha2"
  | .transfer => "openada.operation/result.transfer.measure/v1alpha2"
  | .spectral => "openada.operation/result.spectral.measure/v1alpha1"

/-- `_MEASUREMENT_RESULT_OPERATIONS`. -/
def MeasurementProfile.operation : MeasurementProfile → String
  | .measure => "result.measure"
  | .transfer => "result.transfer.measure"
  | .spectral => "result.spectral.measure"

structure Observation where
  identifier : PyStr
  nativeName : PyStr
  component : PyStr
  unit : PyStr

def Observation.selector {F : Type} (observation : Observation) : PyJson F :=
  .object [(lit "native_name", .str observation.nativeName),
    (lit "output_name", .str observation.identifier), (lit "unit", .str observation.unit),
    (lit "component", .str observation.component)]

structure Measurement where
  identifier : PyStr
  analysisId : PyStr
  operationProfile : MeasurementProfile
  requestBytes : ByteArray
  requestRawSha256 : Sha256
  requestCanonicalSha256 : Sha256
  expectedUnit : Option PyStr

structure Derivation where
  identifier : PyStr
  analysisId : PyStr
  parents : PyStr × PyStr

structure PreparedRun where
  identifier : PyStr
  observations : List Observation
  portableDeck : ByteArray
  boundDeckSha256 : Sha256

structure PreparedExperiment (F : Type) where
  specBytes : ByteArray
  baseDeck : ByteArray
  pdkId : PyStr
  corner : PyStr
  /-- The temperature as a float, or its text where that is no number. -/
  temperature : PyJson F
  runs : List PreparedRun
  measurements : List Measurement
  derivations : List Derivation
  analysed : ∀ measurement ∈ measurements, ∃ run ∈ runs, run.identifier = measurement.analysisId

inductive Persisted (F : Type) where
  | missing
  | unreadable
  | captured (document : Mapping F) (record : FileRecord)

/-- The child operations and the file system as a run meets them: any answer at all. -/
structure Environment (F : Type) where
  simulationRequestId : PreparedRun → PyStr
  simulate : PreparedRun → PyJson F
  persisted : PreparedRun → Persisted F
  conforms : String → PyJson F → Bool
  extractionRequestId : PreparedRun → PyStr
  /-- The extraction from a simulation and its raw artifact, by selectors and conditions, under a
  request id. -/
  extract : PreparedRun → PyJson F → PyStr → PyJson F → PyJson F → PyStr → PyJson F
  measurementRequestId : Measurement → PyStr
  measure : Measurement → Mapping F → Mapping F → PyStr → PyJson F
  isAbsolute : PyStr → Bool
  casefold : PyStr → PyStr
  rawVectorNames : PyStr → List PyStr
  /-- The record of a retained deck when it is bound again. -/
  recorded : PyStr → Option FileRecord
  /-- The records of the first and of the final audit. -/
  audited : PyStr → Option FileRecord
  finallyAudited : PyStr → Option FileRecord
  jsonBytes : PyJson F → Except Raised ByteArray
  /-- The strict decoding of captured bytes. -/
  captured : ByteArray → Except Raised (Mapping F)
  writeBytes : List PyStr → ByteArray → Except Raised FileRecord
  /-- The writing of the log and of the manifest. -/
  writeLog : Except Raised FileRecord
  writeManifest : Except Raised FileRecord

section Records

structure SimulationChild (F : Type) where
  operationProfile : Option PyStr
  requestId : PyJson F
  identityMatches : Bool
  structureComplete : Bool
  executionStatus : PyJson F
  engineeringStatus : PyJson F
  sha256 : Option Sha256
  rawSha256 : PyJson F

structure ExtractionChild (F : Type) where
  requestRawSha256 : Sha256
  requestCanonicalSha256 : Option Sha256
  expectedRequestCanonicalSha256 : Option Sha256
  requestDigestMatches : Bool
  resultSha256 : Sha256
  executionStatus : PyJson F
  engineeringStatus : PyJson F
  status : PyJson F
  requestId : Option PyStr
  structureComplete : Bool

structure MeasurementChild (F : Type) where
  id : PyStr
  requestRawSha256 : Sha256
  requestCanonicalSha256 : Option Sha256
  expectedRequestCanonicalSha256 : Sha256
  requestDigestMatches : Bool
  resultSha256 : Sha256
  executionStatus : PyJson F
  engineeringStatus : PyJson F
  measurementStatus : PyJson F
  structureComplete : Bool
  value : Option (F × PyStr)

structure AnalysisRecord (F : Type) where
  id : PyStr
  simulation : SimulationChild F
  extraction : Option (ExtractionChild F)
  measurements : List (MeasurementChild F)
  passed : Bool

structure Runtime (F : Type) where
  measurement : Measurement
  envelope : PyJson F
  resultRecord : FileRecord
  requestRecord : FileRecord
  analysisId : PyStr
  simulationRecord : FileRecord
  simulationRequestId : Option PyStr
  rawRecord : Mapping F
  extractionRecord : FileRecord
  extractionRequestRecord : FileRecord
  extractionRequestSha256 : Option Sha256
  extractionRequestId : Option PyStr
  seriesSha256 : PyJson F
  conditions : List (PyJson F)

structure AnalysisOutcome (F : Type) where
  record : AnalysisRecord F
  issues : List ExperimentIssue
  artifacts : List (Mapping F)
  childRecords : List (Mapping F)
  results : List (PyStr × Runtime F)

end Records

def analysisPath (run : PreparedRun) : PyStr := lit "/analyses/" ++ run.identifier

def measurementPath (measurement : Measurement) : PyStr :=
  lit "/measurements/" ++ measurement.identifier

def derivationPath (derivation : Derivation) : PyStr :=
  lit "/derivations/" ++ derivation.identifier

def envelopeInvalid : String := "experiment.result.envelope_invalid"

def resultMissing : String := "experiment.result.missing"

def deckMismatch : String := "experiment.compose.deck_mismatch"

def executionIncomplete : String := "experiment.result.execution_incomplete"

def engineeringFailed : String := "experiment.result.engineering_failed"

def notRetained : String := "experiment.observation.not_retained"

def requestDigestMismatch : String := "experiment.result.request_digest_mismatch"

section Run

variable {F : Type} [PyFloatText F] (sha256 : ByteArray → Sha256) (env : Environment F)

/-- `_canonical_sha256`. -/
def canonicalSha256 (value : PyJson F) : Except Raised Sha256 :=
  match value.encoded? with
  | some bytes => .ok (sha256 bytes)
  | none => .error .raised

def writeBound (path : List PyStr) (body : ByteArray) : Except Raised FileRecord := do
  let record ← env.writeBytes path body
  if record.bytes = body.size ∧ record.sha256 = sha256 body then .ok record else .error .raised

/-- `_write_json`. -/
def writeJson (path : List PyStr) (value : PyJson F) : Except Raised FileRecord := do
  writeBound sha256 env path (← env.jsonBytes value)

/-- `_conditions_for_extraction`. -/
def conditionsForExtraction (prepared : PreparedExperiment F) : List (PyJson F) :=
  [.object [(lit "name", .str (lit "pdk")), (lit "value", .str prepared.pdkId),
      (lit "unit", .str (lit "1"))],
    .object [(lit "name", .str (lit "corner")), (lit "value", .str prepared.corner),
      (lit "unit", .str (lit "1"))],
    .object [(lit "name", .str (lit "temperature")), (lit "value", prepared.temperature),
      (lit "unit", .str (lit "degC"))]]

/-- `_expected_extraction_request_sha`. -/
def expectedExtractionRequestSha (simulation : PyJson F) (raw request : Mapping F) :
    Except Raised (Option Sha256) := do
  let data ← simulation.getItem "data"
  match ((data.member "protocol").member "request_id").text?,
      sha256? ((PyJson.object raw).member "sha256"), (PyJson.object request).member "selectors",
      (PyJson.object request).member "conditions" with
  | some requestId, some rawSha256, .array selectors, .array conditions =>
    (canonicalSha256 sha256 (.object [
      (lit "simulation", .object [(lit "request_id", .str requestId),
        (lit "artifact_sha256", .str rawSha256.1)]),
      (lit "selectors", .array selectors), (lit "conditions", .array conditions)])).map some
  | _, _, _, _ => .ok none

/-- `_write_captured_json`: the name of the file is the digest it is to have. -/
def writeCapturedJson (run : PreparedRun) (digest : Sha256) (body : ByteArray) :
    Except Raised FileRecord :=
  if digest = sha256 body then
    writeBound sha256 env
      [lit "analyses", run.identifier, lit "requests", digest.1 ++ lit ".json"] body
  else .error .raised

section Measuring

structure MeasurementOutcome (F : Type) where
  child : MeasurementChild F
  failed : Bool
  issues : List ExperimentIssue
  artifacts : List (Mapping F)
  childRecords : List (Mapping F)
  result : PyStr × Runtime F

structure Extracted (F : Type) where
  simulation : PyJson F
  simulationRecord : FileRecord
  raw : Mapping F
  extraction : PyJson F
  extractionRecord : FileRecord
  selectionRecord : FileRecord
  expectedSha256 : Option Sha256
  series : Mapping F

def measurementIssues (measurement : Measurement) (complete digestMatches : Bool)
    (diagnostics : List (Mapping F)) : List ExperimentIssue :=
  let path := measurementPath measurement
  (if complete then [] else [⟨envelopeInvalid, path⟩]) ++
    diagnostics.map (fun _ => ⟨engineeringFailed, path⟩) ++
      (if digestMatches then [] else [⟨requestDigestMismatch, path⟩]) ++
        if diagnostics.isEmpty then [⟨engineeringFailed, path⟩] else []

def failureIssues (measurement : Measurement) (failed complete digestMatches : Bool)
    (envelope : PyJson F) : Except Raised (List ExperimentIssue) :=
  if failed then
    (diagnosticEntries envelope).map (measurementIssues measurement complete digestMatches)
  else .ok []

def measurementFailed (measurement : Measurement) (complete digestMatches : Bool)
    (execution engineering status measuredId : PyJson F) (profile : Option PyStr)
    (value : Option (F × PyStr)) : Bool :=
  !complete || !execution.isText "completed" || !engineering.isText "pass" ||
    !status.isText "measured" || profile != some (lit measurement.operationProfile.name) ||
      measuredId.text? != some measurement.identifier || !digestMatches ||
        match value with
        | none => true
        | some (_, unit) => measurement.expectedUnit.any fun expected => expected != unit

def measureOne (prepared : PreparedExperiment F) (run : PreparedRun) (extracted : Extracted F)
    (measurement : Measurement) : Except Raised (MeasurementOutcome F) := do
  let request ← env.captured measurement.requestBytes
  let requestRecord ← writeCapturedJson sha256 env run measurement.requestRawSha256
    measurement.requestBytes
  let measured := env.measure measurement extracted.series request
    (env.measurementRequestId measurement)
  let complete ← structureComplete env.isAbsolute env.conforms
    measurement.operationProfile.operation measured
  let childRecords ← envelopeFileRecords measured
  let resultRecord ← writeJson sha256 env
    [lit "analyses", run.identifier, lit "measurements",
      measurement.identifier ++ lit ".result.json"] measured
  let requestSha ← operationRequestSha measured
  let digestMatches := requestSha == some measurement.requestCanonicalSha256
  let data ← measured.getItem "data"
  let status := (data.member "measurement").member "status"
  let measuredId := (data.member "measurement").member "measurement_id"
  let execution ← executionStatus measured
  let engineering ← engineeringStatus measured
  let value ← measurementValue measured
  let profile ← protocolProfile measured
  let failed := measurementFailed measurement complete digestMatches execution engineering status
    measuredId profile value
  let issues ← failureIssues measurement failed complete digestMatches measured
  let simulationRequestId ← protocolRequestId extracted.simulation
  let extractionRequestId ← protocolRequestId extracted.extraction
  .ok {
    child := {
      id := measurement.identifier
      requestRawSha256 := requestRecord.sha256
      requestCanonicalSha256 := requestSha
      expectedRequestCanonicalSha256 := measurement.requestCanonicalSha256
      requestDigestMatches := digestMatches
      resultSha256 := resultRecord.sha256
      executionStatus := execution
      engineeringStatus := engineering
      measurementStatus := status
      structureComplete := complete
      value := value }
    failed := failed
    issues := issues
    artifacts := [requestRecord.mapping, resultRecord.mapping]
    childRecords := childRecords
    result := (measurement.identifier, {
      measurement := measurement
      envelope := measured
      resultRecord := resultRecord
      requestRecord := requestRecord
      analysisId := run.identifier
      simulationRecord := extracted.simulationRecord
      simulationRequestId := simulationRequestId
      rawRecord := extracted.raw
      extractionRecord := extracted.extractionRecord
      extractionRequestRecord := extracted.selectionRecord
      extractionRequestSha256 := extracted.expectedSha256
      extractionRequestId := extractionRequestId
      seriesSha256 := ((PyJson.object extracted.series).member "source").member "artifact_sha256"
      conditions := conditionsForExtraction prepared }) }

end Measuring

section Analysing

structure Progress (F : Type) where
  simulation : SimulationChild F
  extraction : Option (ExtractionChild F)
  artifacts : List (Mapping F)
  childRecords : List (Mapping F)

def Progress.ended (progress : Progress F) (run : PreparedRun) (passed : Bool)
    (issues : List ExperimentIssue) : AnalysisOutcome F :=
  ⟨⟨run.identifier, progress.simulation, progress.extraction, [], passed⟩, issues,
    progress.artifacts, progress.childRecords, []⟩

def measureAll (prepared : PreparedExperiment F) (run : PreparedRun) (progress : Progress F)
    (extracted : Extracted F) : Except Raised (AnalysisOutcome F) := do
  let outcomes ← (prepared.measurements.filter fun measurement =>
    measurement.analysisId = run.identifier).mapM (measureOne sha256 env prepared run extracted)
  .ok {
    record := {
      id := run.identifier
      simulation := progress.simulation
      extraction := progress.extraction
      measurements := outcomes.map MeasurementOutcome.child
      passed := outcomes.all fun outcome => !outcome.failed }
    issues := outcomes.flatMap MeasurementOutcome.issues
    artifacts := progress.artifacts ++ outcomes.flatMap MeasurementOutcome.artifacts
    childRecords := progress.childRecords ++ outcomes.flatMap MeasurementOutcome.childRecords
    results := outcomes.map MeasurementOutcome.result }

/-- The code of the issue for one diagnostic of an extraction; a list or an object is no key. -/
def extractionDiagnosticCode (entry : Mapping F) : Except Raised String :=
  match (PyJson.object entry).member "code" with
  | .array _ => .error .raised
  | .object _ => .error .raised
  | code =>
    if code.isText "series.selector.missing" || code.isText "series.selector.component_invalid" then
      .ok notRetained
    else .ok envelopeInvalid

def extractionIssues (run : PreparedRun) (complete digestMatches : Bool) (extraction : PyJson F) :
    Except Raised (List ExperimentIssue) := do
  let path := analysisPath run
  let diagnostics ← diagnosticEntries extraction
  let codes ← diagnostics.mapM extractionDiagnosticCode
  .ok ((if complete then [] else [⟨envelopeInvalid, path⟩]) ++
    codes.map (fun code => ⟨code, path⟩) ++
      (if digestMatches then [] else [⟨requestDigestMismatch, path⟩]) ++
        if diagnostics.isEmpty then [⟨engineeringFailed, path⟩] else [])

def requiredItem (fields : Mapping F) (key : String) : Except Raised (PyJson F) :=
  match fields.lookup (lit key) with
  | some value => .ok value
  | none => .error .raised

def recordPath (record : Mapping F) : PyStr :=
  ((PyJson.object record).member "path").text?.getD []

def extractSeries (prepared : PreparedExperiment F) (run : PreparedRun) (progress : Progress F)
    (simulation : PyJson F) (simulationRecord : FileRecord) (raw : Mapping F) :
    Except Raised (AnalysisOutcome F) := do
  let selectionBytes ← env.jsonBytes (.object [
    (lit "selectors", .array (run.observations.map Observation.selector)),
    (lit "conditions", .array (conditionsForExtraction prepared)),
    (lit "extensions", .object [])])
  let retained ← env.captured selectionBytes
  let selectionRecord ← writeCapturedJson sha256 env run (sha256 selectionBytes) selectionBytes
  let expected ← expectedExtractionRequestSha sha256 simulation raw retained
  let extraction := env.extract run simulation (recordPath raw)
    (← requiredItem retained "selectors") (← requiredItem retained "conditions")
    (env.extractionRequestId run)
  let complete ← structureComplete env.isAbsolute env.conforms "result.series.extract" extraction
  let childRecords ← envelopeFileRecords extraction
  let extractionRecord ← writeJson sha256 env
    [lit "analyses", run.identifier, lit "extract.result.json"] extraction
  let data ← extraction.nested "data" "extraction"
  let status ← data.orEmptyItem "status"
  let actual ← extractionRequestSha extraction
  let digestMatches := expected.isSome && actual == expected
  let execution ← executionStatus extraction
  let engineering ← engineeringStatus extraction
  let requestId ← protocolRequestId extraction
  let profile ← protocolProfile extraction
  let progress : Progress F := { progress with
    extraction := some {
      requestRawSha256 := selectionRecord.sha256
      requestCanonicalSha256 := actual
      expectedRequestCanonicalSha256 := expected
      requestDigestMatches := digestMatches
      resultSha256 := extractionRecord.sha256
      executionStatus := execution
      engineeringStatus := engineering
      status := status
      requestId := requestId
      structureComplete := complete }
    artifacts := progress.artifacts ++ [selectionRecord.mapping, extractionRecord.mapping]
    childRecords := progress.childRecords ++ childRecords }
  if complete && execution.isText "completed" && engineering.isText "pass" &&
      status.isText "extracted" && profile == some (lit extractionOperationProfile) &&
        digestMatches then
    match data.member "series" with
    | .object series =>
      measureAll sha256 env prepared run progress ⟨simulation, simulationRecord, raw, extraction,
        extractionRecord, selectionRecord, expected, series⟩
    | _ => .ok (progress.ended run false
        [⟨"experiment.result.series_digest_mismatch", analysisPath run⟩])
  else do
    let issues ← extractionIssues run complete digestMatches extraction
    .ok (progress.ended run false issues)

/-- The rest of an analysis whose simulation passed with the deck that was bound for it. -/
def observeRun (prepared : PreparedExperiment F) (run : PreparedRun) (progress : Progress F)
    (simulation : PyJson F) (simulationRecord : FileRecord) : Except Raised (AnalysisOutcome F) :=
  match rawArtifact simulation with
  | none => .ok (progress.ended run false [⟨"experiment.result.raw_missing", analysisPath run⟩])
  | some raw =>
    let child := { progress.simulation with rawSha256 := (PyJson.object raw).member "sha256" }
    let progress := { progress with simulation := child }
    let available := (env.rawVectorNames (recordPath raw)).map env.casefold
    if run.observations.any fun observation =>
        !available.contains (env.casefold observation.nativeName) then
      .ok (progress.ended run false [⟨notRetained, analysisPath run⟩])
    else if run.observations.isEmpty then .ok (progress.ended run true [])
    else extractSeries sha256 env prepared run progress simulation simulationRecord raw

def simulationIssues (run : PreparedRun) (completed : Bool) (simulation : PyJson F) :
    Except Raised (List ExperimentIssue) := do
  let issue : ExperimentIssue :=
    ⟨if completed then engineeringFailed else executionIncomplete, analysisPath run⟩
  let diagnostics ← diagnosticEntries simulation
  .ok (if diagnostics.isEmpty then [issue] else diagnostics.map fun _ => issue)

def continueRun (prepared : PreparedExperiment F) (run : PreparedRun) (progress : Progress F)
    (simulation : PyJson F) (simulationRecord : FileRecord) :
    Except Raised (AnalysisOutcome F) := do
  let execution ← executionStatus simulation
  let engineering ← engineeringStatus simulation
  let passing := execution.isText "completed" && engineering.isText "pass"
  let unpassed : Except Raised (AnalysisOutcome F) := do
    let issues ← simulationIssues run (execution.isText "completed") simulation
    .ok (progress.ended run false issues)
  match inputBySha256 simulation run.boundDeckSha256 with
  | none =>
    if passing then .ok (progress.ended run false [⟨resultMissing, analysisPath run⟩])
    else unpassed
  | some deck =>
    match env.recorded (recordPath deck) with
    | none => .ok (progress.ended run false [⟨deckMismatch, analysisPath run⟩])
    | some rebound =>
      if rebound.sha256 = run.boundDeckSha256 then
        if passing then observeRun sha256 env prepared run progress simulation simulationRecord
        else unpassed
      else .ok (progress.ended run false [⟨deckMismatch, analysisPath run⟩])

def coherent (a b : PyJson F) : Bool :=
  match a.encoded?, b.encoded? with
  | some x, some y => sha256 x = sha256 y
  | _, _ => false

def runAnalysis (prepared : PreparedExperiment F) (run : PreparedRun) :
    Except Raised (AnalysisOutcome F) := do
  let runRecord ← env.writeBytes [lit "analyses", run.identifier, lit "run.spice"] run.portableDeck
  let returned := env.simulate run
  let protocol ← returned.nested "data" "protocol"
  let requestId ← protocol.orEmptyItem "request_id"
  let profile ← protocolProfile returned
  let execution ← executionStatus returned
  let engineering ← engineeringStatus returned
  let progress : Progress F := {
    simulation := {
      operationProfile := profile
      requestId := requestId
      identityMatches := false
      structureComplete := false
      executionStatus := execution
      engineeringStatus := engineering
      sha256 := none
      rawSha256 := .null }
    extraction := none
    artifacts := [runRecord.mapping]
    childRecords := [] }
  match env.persisted run with
  | .missing => .ok (progress.ended run false [⟨resultMissing, analysisPath run⟩])
  | .unreadable => .ok (progress.ended run false [⟨resultMissing, analysisPath run⟩])
  | .captured document record => do
    let simulation : PyJson F := .object document
    let agrees := coherent sha256 simulation returned
    let complete ← structureComplete env.isAbsolute env.conforms "simulate" simulation
    let childRecords ← envelopeFileRecords simulation
    let profile ← protocolProfile simulation
    let requestId ← protocolRequestId simulation
    let execution ← executionStatus simulation
    let engineering ← engineeringStatus simulation
    let identity := profile == some (lit circuitSimulateProfile) &&
      requestId == some (env.simulationRequestId run)
    let progress : Progress F := {
      simulation := {
        operationProfile := profile
        requestId := (requestId.map PyJson.str).getD .null
        identityMatches := identity
        structureComplete := complete
        executionStatus := execution
        engineeringStatus := engineering
        sha256 := some record.sha256
        rawSha256 := .null }
      extraction := none
      artifacts := [runRecord.mapping, record.mapping]
      childRecords := childRecords }
    if agrees && identity && complete then
      continueRun sha256 env prepared run progress simulation record
    else
      let issue : ExperimentIssue := ⟨envelopeInvalid, analysisPath run⟩
      .ok (progress.ended run false ((if agrees then [] else [issue]) ++
        (if identity then [] else [issue]) ++ if complete then [] else [issue]))

end Analysing

end Run

end OpenADA.Experiment
