import OpenADA.Series.Measure
import OpenADA.Series.Provenance
import OpenADA.Series.Simulation

/-! The envelopes of a passing extraction and of a passing measurement, and the reading of a raw
artifact by its recorded size and digest. -/
namespace OpenADA.Series

open PyStr

structure Host where
  openadaVersion : PyStr
  createdAt : PyStr
  system : PyStr
  machine : PyStr
  python : PyStr

section Result

variable {F : Type}

/-- `result` of a passing static operation without a tool. -/
def passingResult (host : Host) (operation : String) (summary : PyStr) (inputs : List (PyJson F))
    (data : PyJson F) : PyJson F :=
  .object [(lit "schema", .str (lit "openada.result/v0alpha1")),
    (lit "operation", .str (lit operation)), (lit "tool", .null),
    (lit "execution", .object [(lit "status", .str (lit "completed")), (lit "exit_code", .int 0),
      (lit "duration_ms", .int 0), (lit "command", .array [])]),
    (lit "engineering", .object [(lit "status", .str (lit "pass")), (lit "summary", .str summary)]),
    (lit "inputs", .array inputs), (lit "artifacts", .array []), (lit "diagnostics", .array []),
    (lit "data", data),
    (lit "provenance", .object [(lit "openada_version", .str host.openadaVersion),
      (lit "created_at", .str host.createdAt),
      (lit "host", .object [(lit "system", .str host.system), (lit "machine", .str host.machine),
        (lit "python", .str host.python)])])]

def protocolRecord (requestId : Uuid) (operation assertion implementation version : String) :
    PyJson F :=
  .object [(lit "request_id", .str requestId.1), (lit "operation_profile", .str (lit operation)),
    (lit "assertion_profile", .str (lit assertion)),
    (lit "implementation_id", .str (lit implementation)),
    (lit "implementation_version", .str (lit version))]

def RawArtifact.json (artifact : RawArtifact) : PyJson F :=
  .object [(lit "kind", .str artifact.kind), (lit "role", .str (lit "simulation.result")),
    (lit "path", .str artifact.path), (lit "exists", .bool true),
    (lit "bytes", .int artifact.bytes), (lit "sha256", .str artifact.sha256.1)]

/-- `_source_record` of a verified binding. -/
def SimulationSource.json (source : SimulationSource F) : PyJson F :=
  .object [(lit "operation_profile", .str (lit circuitSimulateProfile)),
    (lit "request_id", .str source.requestId.1), (lit "driver_id", .str source.driverId),
    (lit "driver_version", .str source.driverVersion.1),
    (lit "backend", .str (lit source.backend.name)),
    (lit "analysis_type", .str (lit source.analysis.kind.name)),
    (lit "artifact", source.artifact.json), (lit "binding", .str (lit "verified"))]

def extractionEnvelope (host : Host) (correlationId : Uuid) (source : SimulationSource F)
    (extraction : Extraction F) : PyJson F :=
  passingResult host "result.series.extract"
    (lit "Extracted a bounded normalized real series from exact native simulation evidence.")
    [source.artifact.json]
    (.object [(lit "protocol", protocolRecord correlationId operationProfile
        "openada.assertion/series.extraction.valid/v1alpha1" "org.openada.kernel.spice3-series"
        "1.0.0"),
      (lit "extraction", .object [(lit "status", .str (lit "extracted")),
        (lit "request_sha256", .str extraction.requestSha256.1), (lit "source", source.json),
        (lit "plot", extraction.plot), (lit "series", extraction.series),
        (lit "extensions", .object [])]),
      (lit "extensions", .object [])])

end Result

section Raw

variable {F : Type}

/-- The parser of native raw files: `admits` refuses a file that is malformed or does not hold the
plot of the analysis that was requested, `read` is what is read of that plot. -/
structure RawParser (F : Type) where
  admits : Backend → ByteArray → Fields F → Except String Unit
  read : Backend → ByteArray → AnalysisKind → List PyStr → Except String (RawSeriesExtraction F)

/-- `extract_analysis_raw` on the body of the file. -/
def extractAnalysisRaw (sha256 : ByteArray → Sha256) (parser : RawParser F) (body : ByteArray)
    (source : SimulationSource F) (names : List PyStr) : Except String (RawSeriesExtraction F) :=
  if body.size ≠ source.artifact.bytes then .error "series.artifact.binding_mismatch"
  else do
    parser.admits source.backend body source.analysis.document
    let extracted ← parser.read source.backend body source.analysis.kind names
    if sha256 body ≠ source.artifact.sha256 then .error "series.artifact.binding_mismatch"
    else .ok extracted

end Raw

section Measurement

variable {F : Type} [PyFloatMath F]

structure Measurement (F : Type) [PyFloat F] where
  measurementId : Role
  kind : MeasurementKind
  signal : Text 256
  requestSha256 : Sha256
  value : FiniteFloat F
  location : Option F
  unit : PyStr
  axisUnit : PyStr
  sampleCount : ℕ
  source : PyJson F

inductive MeasureOutcome (F : Type) [PyFloat F] where
  | measured (measurement : Measurement F)
  | notFound

/-- `_canonical_sha256` of a request. -/
def requestSha256 (sha256 : ByteArray → Sha256) (value : PyJson F) : Except Fault Sha256 :=
  match value.encoded? with
  | some bytes => .ok (sha256 bytes)
  | none => .error .unencodable

/-- `measure_result`, less the correlation identity; a refusal is its invalid-request result. -/
def measureResult (sha256 : ByteArray → Sha256) (series measurement : PyJson F) :
    Except Fault (MeasureOutcome F) := do
  let canonical ← normalizeSeries sha256 true series
  let derived ← measureContent canonical.content measurement
  let digest ← requestSha256 sha256 measurement
  match derived.measured.value with
  | none => .ok .notFound
  | some value =>
    if h : PyFloat.isFinite value = true then
      .ok (.measured ⟨derived.measurementId, derived.kind, derived.signal, digest, ⟨value, h⟩,
        derived.measured.location, derived.measured.unit, canonical.content.axis.unit.1,
        derived.measured.sampleCount, canonical.json.member "source"⟩)
    else refuse nonFinite "measurement"

def MeasurementKind.algorithmName (kind : MeasurementKind) : PyStr :=
  (lit kind.name).map fun c => if c = point '_' then point '-' else c

def Measurement.json (measurement : Measurement F) : PyJson F :=
  .object [(lit "measurement_id", .str measurement.measurementId.1),
    (lit "kind", .str (lit measurement.kind.name)), (lit "status", .str (lit "measured")),
    (lit "request_sha256", .str measurement.requestSha256.1),
    (lit "value", .float measurement.value.1), (lit "unit", .str measurement.unit),
    (lit "signal", .str measurement.signal.1),
    (lit "location", match measurement.location with
      | some place => .object [(lit "value", .float place), (lit "unit", .str measurement.axisUnit)]
      | none => .null),
    (lit "algorithm", .object [(lit "id", .str (lit "openada.algorithm/measurement." ++
        measurement.kind.algorithmName ++ lit "/v1")), (lit "version", .str (lit "1.1.0"))]),
    (lit "sample_count", .int measurement.sampleCount), (lit "source", measurement.source),
    (lit "extensions", .object [])]

def measurementEnvelope (host : Host) (correlationId : Uuid) (measurement : Measurement F) :
    PyJson F :=
  passingResult host "result.measure"
    (lit "Derived '" ++ measurement.measurementId.1 ++ lit "' using the closed " ++
      lit measurement.kind.name ++ lit " algorithm.") []
    (.object [(lit "protocol", protocolRecord correlationId "openada.operation/result.measure/v1alpha2"
        "openada.assertion/measurement.valid/v1alpha1" "org.openada.kernel.typed-evidence" "1.1.0"),
      (lit "measurement", measurement.json), (lit "extensions", .object [])])

variable {sha256 : ByteArray → Sha256}

theorem measureResult_eq_measured {series request : PyJson F} {measurement : Measurement F}
    (h : measureResult sha256 series request = .ok (.measured measurement)) :
    ∃ canonical derived digest value hfinite, normalizeSeries sha256 true series = .ok canonical ∧
      measureContent canonical.content request = .ok derived ∧
      requestSha256 sha256 request = .ok digest ∧ derived.measured.value = some value ∧
      measurement = ⟨derived.measurementId, derived.kind, derived.signal, digest, ⟨value, hfinite⟩,
        derived.measured.location, derived.measured.unit, canonical.content.axis.unit.1,
        derived.measured.sampleCount, canonical.json.member "source"⟩ := by
  unfold measureResult at h
  obtain ⟨canonical, hcanonical, h⟩ := Except.bind_eq_ok.mp h
  obtain ⟨derived, hderived, h⟩ := Except.bind_eq_ok.mp h
  obtain ⟨digest, hdigest, h⟩ := Except.bind_eq_ok.mp h
  cases hvalue : derived.measured.value with
  | none =>
    rw [hvalue] at h
    cases h
  | some value =>
    simp only [hvalue] at h
    by_cases hfinite : PyFloat.isFinite value = true
    · rw [dif_pos hfinite] at h
      exact ⟨canonical, derived, digest, value, hfinite, hcanonical, hderived, hdigest, hvalue,
        (MeasureOutcome.measured.inj (Except.ok.inj h)).symm⟩
    · rw [dif_neg hfinite] at h
      cases h

def MeasureOutcome.measured? : MeasureOutcome F → Option (Measurement F)
  | .measured measurement => some measurement
  | .notFound => none

def largestRequest : PyJson SignedRat :=
  .object [(lit "measurement_id", .str (lit "peak")), (lit "kind", .str (lit "maximum")),
    (lit "signal", .str (lit "out")), (lit "parameters", .object []),
    (lit "extensions", .object [])]

end Measurement

end OpenADA.Series
