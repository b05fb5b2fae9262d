import OpenADA.Experiment.Analysis

/-! The derivations of an experiment run, the child states that gate its status, and the run. -/
namespace OpenADA.Experiment

open PyStr PyJson

def parentInvalid : String := "experiment.derivation.parent_invalid"

def unitMismatch : String := "experiment.derivation.unit_mismatch"

section Derive

structure ParentBinding (F : Type) where
  measurementId : PyStr
  analysisId : PyStr
  operationProfile : MeasurementProfile
  resultSha256 : Sha256
  requestRawSha256 : Sha256
  requestCanonicalSha256 : Sha256
  extractionResultSha256 : Sha256
  extractionRequestRawSha256 : Sha256
  extractionRequestCanonicalSha256 : Sha256
  seriesSha256 : Sha256
  simulationResultSha256 : Sha256
  rawArtifactSha256 : Sha256
  value : F
  unit : PyStr

structure DerivationRecord (F : Type) where
  id : PyStr
  analysisId : PyStr
  parents : List (ParentBinding F)
  passed : Bool
  result : Option (F × PyStr)

structure DerivationOutcome (F : Type) where
  record : DerivationRecord F
  issues : List ExperimentIssue
  artifacts : List (Mapping F)

variable {F : Type} [PyFloatText F] (sha256 : ByteArray → Sha256) (env : Environment F)

def isOptionalText (value : PyJson F) : Option PyStr → Bool
  | some text => value.text? == some text
  | none => match value with
    | .null => true
    | _ => false

def parentMeasured (envelope : PyJson F) : Bool :=
  ((envelope.member "execution").member "status").isText "completed" &&
    ((envelope.member "engineering").member "status").isText "pass" &&
      (((envelope.member "data").member "measurement").member "status").isText "measured"

/-- The source of a measurement names the series, the conditions and the raw artifact of its run. -/
def lineageMatches (runtime : Runtime F) (source : PyJson F) (conditionsSha256 : Sha256)
    (rawSha256 : Sha256) : Bool :=
  let lineage := source.member "lineage"
  (source.member "operation").isText extractionOperationProfile &&
    isOptionalText (source.member "request_id") runtime.extractionRequestId &&
    (source.member "artifact_role").isText "measurement.source" &&
    pyEq (source.member "artifact_sha256") runtime.seriesSha256 &&
    pyEq (source.member "series_sha256") runtime.seriesSha256 &&
    pyEq (source.member "conditions") (.array runtime.conditions) &&
    (source.member "conditions_sha256").text? == some conditionsSha256.1 &&
    (lineage.member "operation").isText "circuit.simulate" &&
    isOptionalText (lineage.member "request_id") runtime.simulationRequestId &&
    (lineage.member "artifact_role").isText "simulation.result" &&
    (lineage.member "artifact_sha256").text? == some rawSha256.1 &&
    (lineage.member "binding").isText "unverified"

/-- `_derivation_parent_binding`. -/
def derivationParentBinding (parentId : PyStr) (derivation : Derivation)
    (runtime : Option (Runtime F)) :
    Except Raised (Except ExperimentIssue (ParentBinding F)) :=
  let invalid : ExperimentIssue := ⟨parentInvalid, derivationPath derivation⟩
  match runtime with
  | none => .ok (.error invalid)
  | some runtime =>
    let declaration := runtime.measurement
    let measured := (runtime.envelope.member "data").member "measurement"
    if parentMeasured runtime.envelope = false then .ok (.error invalid)
    else if runtime.analysisId ≠ derivation.analysisId ∨
        declaration.analysisId ≠ derivation.analysisId then .ok (.error invalid)
    else do
      let profile ← protocolProfile runtime.envelope
      if profile ≠ some (lit declaration.operationProfile.name) ∨
          (measured.member "measurement_id").text? ≠ some parentId ∨
            declaration.identifier ≠ parentId then .ok (.error invalid)
      else
        match ← measurementValue runtime.envelope with
        | none => .ok (.error invalid)
        | some (value, unit) =>
          if declaration.expectedUnit ≠ some unit then
            .ok (.error ⟨unitMismatch, derivationPath derivation⟩)
          else
            match sha256? ((PyJson.object runtime.rawRecord).member "sha256") with
            | none => .ok (.error invalid)
            | some rawSha256 => do
              let requestSha ← operationRequestSha runtime.envelope
              if requestSha ≠ some declaration.requestCanonicalSha256 ∨
                  runtime.requestRecord.sha256 ≠ declaration.requestRawSha256 then
                .ok (.error invalid)
              else do
                let conditionsSha256 ← canonicalSha256 sha256 (.array runtime.conditions)
                if lineageMatches runtime (measured.member "source") conditionsSha256 rawSha256 then
                  match sha256? runtime.seriesSha256, runtime.extractionRequestSha256 with
                  | some seriesSha256, some extractionRequestSha256 => .ok (.ok {
                      measurementId := parentId
                      analysisId := derivation.analysisId
                      operationProfile := declaration.operationProfile
                      resultSha256 := runtime.resultRecord.sha256
                      requestRawSha256 := runtime.requestRecord.sha256
                      requestCanonicalSha256 := declaration.requestCanonicalSha256
                      extractionResultSha256 := runtime.extractionRecord.sha256
                      extractionRequestRawSha256 := runtime.extractionRequestRecord.sha256
                      extractionRequestCanonicalSha256 := extractionRequestSha256
                      seriesSha256 := seriesSha256
                      simulationResultSha256 := runtime.simulationRecord.sha256
                      rawArtifactSha256 := rawSha256
                      value := value
                      unit := unit })
                  | _, _ => .ok (.error invalid)
                else .ok (.error invalid)

def bindParents (results : List (PyStr × Runtime F)) (derivation : Derivation) :
    List PyStr → Except Raised (List (ParentBinding F) × Option ExperimentIssue)
  | [] => .ok ([], none)
  | parentId :: rest => do
    match ← derivationParentBinding sha256 parentId derivation (results.lookup parentId) with
    | .error issue => .ok ([], some issue)
    | .ok binding => do
      let (bindings, issue) ← bindParents results derivation rest
      .ok (binding :: bindings, issue)

def ParentBinding.json (binding : ParentBinding F) : PyJson F :=
  .object [(lit "measurement_id", .str binding.measurementId),
    (lit "analysis_id", .str binding.analysisId),
    (lit "operation_profile", .str (lit binding.operationProfile.name)),
    (lit "result_sha256", .str binding.resultSha256.1),
    (lit "request_raw_sha256", .str binding.requestRawSha256.1),
    (lit "request_canonical_sha256", .str binding.requestCanonicalSha256.1),
    (lit "extraction_result_sha256", .str binding.extractionResultSha256.1),
    (lit "extraction_request_raw_sha256", .str binding.extractionRequestRawSha256.1),
    (lit "extraction_request_canonical_sha256", .str binding.extractionRequestCanonicalSha256.1),
    (lit "series_sha256", .str binding.seriesSha256.1),
    (lit "simulation_result_sha256", .str binding.simulationResultSha256.1),
    (lit "raw_artifact_sha256", .str binding.rawArtifactSha256.1),
    (lit "value", .float binding.value), (lit "unit", .str binding.unit)]

def derivedDocument (derivation : Derivation) (parents : List (ParentBinding F)) (value : F)
    (unit : PyStr) : PyJson F :=
  .object [(lit "schema", .str (lit "simra.experiment-derivation/v1")),
    (lit "id", .str derivation.identifier), (lit "kind", .str (lit "derivation")),
    (lit "operation", .str (lit "subtract")), (lit "analysis_id", .str derivation.analysisId),
    (lit "parents", .array (parents.map ParentBinding.json)), (lit "status", .str (lit "derived")),
    (lit "value", .float value), (lit "unit", .str unit), (lit "extensions", .object [])]

def deriveOne (results : List (PyStr × Runtime F)) (derivation : Derivation) :
    Except Raised (DerivationOutcome F) := do
  let (parents, issue) ← bindParents sha256 results derivation
    [derivation.parents.1, derivation.parents.2]
  let failed (issue : ExperimentIssue) : DerivationOutcome F :=
    ⟨⟨derivation.identifier, derivation.analysisId, parents, false, none⟩, [issue], []⟩
  match issue with
  | some issue => .ok (failed issue)
  | none =>
    match parents with
    | [first, second] =>
      if first.unit ≠ second.unit then .ok (failed ⟨unitMismatch, derivationPath derivation⟩)
      else
        let value := first.value - second.value
        if PyFloat.isFinite value = false then
          .ok (failed ⟨"experiment.result.value_invalid", derivationPath derivation⟩)
        else do
          let record ← writeJson sha256 env
            [lit "derivations", derivation.identifier ++ lit ".result.json"]
            (derivedDocument derivation parents value first.unit)
          .ok ⟨⟨derivation.identifier, derivation.analysisId, parents, true,
            some (value, first.unit)⟩, [], [record.mapping]⟩
    | _ => .ok (failed ⟨unitMismatch, derivationPath derivation⟩)

end Derive

section Complete

inductive ChildKind where
  | simulate
  | extract
  | measure
  | analysis
  | derivation
  deriving DecidableEq

structure ChildState where
  kind : ChildKind
  analysisId : PyStr
  id : PyStr
  passed : Bool

def ChildState.issue (child : ChildState) : ExperimentIssue :=
  match child.kind with
  | .simulate => ⟨executionIncomplete, lit "/analyses/" ++ child.analysisId⟩
  | .extract => ⟨engineeringFailed, lit "/analyses/" ++ child.analysisId⟩
  | .measure => ⟨engineeringFailed, lit "/measurements/" ++ child.id⟩
  | .analysis => ⟨executionIncomplete, lit "/analyses/" ++ child.analysisId⟩
  | .derivation => ⟨parentInvalid, lit "/derivations/" ++ child.id⟩

def only? {α : Type} (p : α → Bool) (items : List α) : Option α :=
  match items.filter p with
  | [item] => some item
  | _ => none

variable {F : Type}

def SimulationChild.complete (child : SimulationChild F) : Bool :=
  child.operationProfile == some (lit circuitSimulateProfile) && child.identityMatches &&
    child.structureComplete && child.executionStatus.isText "completed" &&
      child.engineeringStatus.isText "pass" && child.sha256.isSome &&
        (sha256? child.rawSha256).isSome

def ExtractionChild.complete (child : ExtractionChild F) : Bool :=
  child.structureComplete && child.executionStatus.isText "completed" &&
    child.engineeringStatus.isText "pass" && child.status.isText "extracted" &&
      child.requestDigestMatches

def MeasurementChild.complete (child : MeasurementChild F) : Bool :=
  child.structureComplete && child.executionStatus.isText "completed" &&
    child.engineeringStatus.isText "pass" && child.measurementStatus.isText "measured" &&
      child.requestDigestMatches

def runStates (measurements : List Measurement) (analyses : List (AnalysisRecord F))
    (run : PreparedRun) : List ChildState :=
  let analysis := only? (fun record => record.id = run.identifier) analyses
  let retained := (analysis.map AnalysisRecord.measurements).getD []
  [⟨.simulate, run.identifier, run.identifier,
      analysis.any fun record => record.simulation.complete⟩] ++
    (if run.observations.isEmpty then []
      else [⟨.extract, run.identifier, run.identifier,
        (analysis.bind AnalysisRecord.extraction).any ExtractionChild.complete⟩]) ++
    (measurements.filter fun measurement => measurement.analysisId = run.identifier).map
      (fun measurement => ⟨.measure, run.identifier, measurement.identifier,
        (only? (fun child => child.id = measurement.identifier) retained).any
          MeasurementChild.complete⟩) ++
    [⟨.analysis, run.identifier, run.identifier, analysis.any AnalysisRecord.passed⟩]

/-- `_complete_child_states`: its issues are those of the children that did not pass. -/
def completeChildStates (prepared : PreparedExperiment F) (analyses : List (AnalysisRecord F))
    (derivations : List (DerivationRecord F)) : List ChildState :=
  prepared.runs.flatMap (runStates prepared.measurements analyses) ++
    prepared.derivations.map fun derivation =>
      ⟨.derivation, derivation.analysisId, derivation.identifier,
        (only? (fun record => record.id = derivation.identifier) derivations).any fun record =>
          record.passed && record.result.isSome && decide (record.parents.length = 2)⟩

end Complete

structure Report (F : Type) where
  analyses : List (AnalysisRecord F)
  derivations : List (DerivationRecord F)
  children : List ChildState
  passed : Bool
  issues : List ExperimentIssue

def runExperiment {F : Type} [PyFloatText F] (sha256 : ByteArray → Sha256) (env : Environment F)
    (prepared : PreparedExperiment F) : Except Raised (Report F) := do
  let specRecord ← env.writeBytes [lit "experiment.spec.json"] prepared.specBytes
  let baseRecord ← env.writeBytes [lit "base.spice"] prepared.baseDeck
  let outcomes ← prepared.runs.mapM (runAnalysis sha256 env prepared)
  -- A later result under one name replaces an earlier one.
  let results := (outcomes.flatMap AnalysisOutcome.results).reverse
  let derived ← prepared.derivations.mapM (deriveOne sha256 env results)
  let analyses := outcomes.map AnalysisOutcome.record
  let derivations := derived.map DerivationOutcome.record
  let children := completeChildStates prepared analyses derivations
  let artifacts := [specRecord.mapping, baseRecord.mapping] ++
    outcomes.flatMap AnalysisOutcome.artifacts ++ derived.flatMap DerivationOutcome.artifacts
  let childRecords := outcomes.flatMap AnalysisOutcome.childRecords
  let audit := auditRetainedFiles env.isAbsolute env.audited (artifacts ++ childRecords)
  let logRecord ← env.writeLog
  let finalAudit := auditRetainedFiles env.isAbsolute env.finallyAudited
    (artifacts ++ [logRecord.mapping] ++ childRecords)
  let _ ← env.writeManifest
  .ok {
    analyses := analyses
    derivations := derivations
    children := children
    passed := children.all ChildState.passed && audit.isEmpty && finalAudit.isEmpty
    issues := outcomes.flatMap AnalysisOutcome.issues ++ derived.flatMap DerivationOutcome.issues ++
      (children.filter fun child => !child.passed).map ChildState.issue ++ audit ++ finalAudit }

end OpenADA.Experiment
