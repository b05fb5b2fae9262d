import OpenADA.Series.Canonical

/-! The extraction of a normalized series from a native raw artifact: the request's selectors and
conditions, the axis and the signals read from the artifact, and the series that is emitted. -/
namespace OpenADA.Series

open PyStr JsonText

def maxSelectors : ℕ := 32

def extractRequestInvalid : String := "series.request.invalid"

def selectorInvalid : String := "series.selector.invalid"

def unitMismatch : String := "series.unit.mismatch"

/-- How an extraction ends without a series: with a diagnostic of some code, or by the TypeError of
a lookup with an unhashable key. -/
inductive ExtractionFault where
  | refused (code : String)
  | raised
  deriving DecidableEq

def Fault.caught (valueError : String) : Fault → ExtractionFault
  | .invalid request => .refused request.code
  | .unencodable => .refused valueError
  | .arithmetic => .raised

inductive Component where
  | real
  | imaginary
  deriving DecidableEq

structure Selector where
  nativeName : Text 256
  outputName : Text 256
  unit : Text 64
  component : Component
  deriving DecidableEq

inductive AnalysisKind where
  | op
  | dc
  | ac
  | tran
  deriving DecidableEq

section Model

variable {F : Type}

/-- The analysis a simulation was requested with; the source name is its `str`. -/
structure RequestedAnalysis (F : Type) where
  kind : AnalysisKind
  sourceName : PyStr
  sourceUnit : PyJson F
  document : Fields F

inductive Backend where
  | ngspice
  | xyce
  deriving DecidableEq

structure RawArtifact where
  kind : PyStr
  path : PyStr
  bytes : ℕ
  sha256 : Sha256
  deriving DecidableEq

structure Counts where
  points : ℤ
  dependentVariables : ℤ
  finiteValues : ℤ
  deriving DecidableEq

/-- What `_simulation_source` has checked of a simulation result. -/
structure SimulationSource (F : Type) where
  requestId : Uuid
  driverId : PyStr
  driverVersion : Text 100
  backend : Backend
  analysis : RequestedAnalysis F
  artifact : RawArtifact
  counts : Counts

structure RawSignalSeries (F : Type) where
  name : PyStr
  nativeType : PyStr
  realValues : List F
  imaginaryValues : Option (List F)

structure RawSeriesExtraction (F : Type) where
  plotname : PyStr
  encoding : PyStr
  variableCount : ℤ
  points : ℤ
  isComplex : Bool
  axisName : Option PyStr
  axisNativeType : Option PyStr
  axisValues : List F
  signals : List (RawSignalSeries F)

structure Extraction (F : Type) where
  requestSha256 : Sha256
  plot : PyJson F
  series : PyJson F

def asciiLower (text : PyStr) : PyStr :=
  text.map fun c => if h : point 'A' ≤ c ∧ c ≤ point 'Z' then
    ⟨c.val + 32, by have hz : c.val ≤ 90 := h.2; omega⟩ else c

/-- `native.casefold() == word`: only the letters s and k of an ASCII word are the casefold of
characters outside ASCII, and no native type has one. -/
def foldsTo (native : PyStr) (word : String) : Bool := asciiLower native = lit word

def vectorJson (name unit : PyStr) (values : List F) : PyJson F :=
  .object [(lit "name", .str name), (lit "unit", .str unit),
    (lit "values", .array (values.map .float))]

def componentOf (label : String) : PyJson F → Except Fault Component
  | .str name =>
    if name = lit "real" then .ok .real
    else if name = lit "imaginary" then .ok .imaginary
    else refuse selectorInvalid label
  | .array _ => refuse extractRequestInvalid label
  | .object _ => refuse extractRequestInvalid label
  | _ => refuse selectorInvalid label

def normalizeSelector (index : ℕ) (item : PyJson F) : Except Fault Selector := do
  let label := s!"selectors[{index}]"
  let fields ← closedObject selectorInvalid label
    ["native_name", "output_name", "unit", "component"] [] item
  let nativeName ← text selectorInvalid s!"{label}.native_name" 256 (field fields "native_name")
  let outputName ← text selectorInvalid s!"{label}.output_name" 256 (field fields "output_name")
  let unit ← text selectorInvalid s!"{label}.unit" 64 (field fields "unit")
  let component ← componentOf s!"{label}.component" (field fields "component")
  .ok ⟨nativeName, outputName, unit, component⟩

def normalizeSelectors : List Selector → List (PyJson F) → Except Fault (List Selector)
  | seen, [] => .ok seen
  | seen, item :: rest => do
    let selector ← normalizeSelector seen.length item
    if (seen.any fun other => other.nativeName = selector.nativeName ∧
        other.component = selector.component) = true then
      refuse selectorInvalid "selectors"
    else if (seen.any fun other => other.outputName = selector.outputName) = true then
      refuse selectorInvalid "selectors"
    else normalizeSelectors (seen ++ [selector]) rest

/-- `_selectors`. -/
def selectors : PyJson F → Except Fault (List Selector)
  | .array items =>
    if 1 ≤ items.length ∧ items.length ≤ maxSelectors then normalizeSelectors [] items
    else refuse selectorInvalid "selectors"
  | _ => refuse selectorInvalid "selectors"

section Request

variable [PyFloat F]

def extractConditionValue (label : String) : PyJson F → Except Fault (ConditionValue F)
  | .bool b => .ok (.flag b)
  | .int n => (finiteNumber extractRequestInvalid label (.int n)).map .number
  | .float x => (finiteNumber extractRequestInvalid label (.float x)).map .number
  | .str s => (text extractRequestInvalid label 256 (.str s : PyJson F)).map .text
  | _ => refuse extractRequestInvalid label

/-- `_condition` of the extraction. -/
def extractCondition (index : ℕ) (item : PyJson F) : Except Fault (Condition F) := do
  let label := s!"conditions[{index}]"
  let fields ← closedObject extractRequestInvalid label ["name", "value", "unit"] [] item
  let name ← text extractRequestInvalid s!"{label}.name" 256 (field fields "name")
  let unit ← text extractRequestInvalid s!"{label}.unit" 64 (field fields "unit")
  let value ← extractConditionValue s!"{label}.value" (field fields "value")
  .ok ⟨name, value, unit⟩

/-- `_conditions`. -/
def extractConditions : PyJson F → Except Fault (List (Condition F))
  | .array items =>
    if items.length ≤ maxConditions then do
      let conditions ← items.zipIdx.mapM fun (item, index) => extractCondition index item
      if (conditions.map Condition.name).Nodup then .ok conditions
      else refuse extractRequestInvalid "conditions"
    else refuse extractRequestInvalid "conditions"
  | _ => refuse extractRequestInvalid "conditions"

end Request

section Vectors

variable [PyFloat F]

/-- The name, the unit and the native type of the axis of a swept analysis. -/
def expectedAxis (analysis : RequestedAnalysis F) :
    Except ExtractionFault (Option (PyStr × PyStr × String)) :=
  match analysis.sourceUnit with
  | .array _ => .error .raised
  | .object _ => .error .raised
  | sourceUnit =>
    match analysis.kind, sourceUnit with
    | .dc, .str unit =>
      if unit = lit "V" then .ok (some (analysis.sourceName, unit, "voltage"))
      else if unit = lit "A" then .ok (some (analysis.sourceName, unit, "current"))
      else .ok none
    | .ac, _ => .ok (some (lit "frequency", lit "Hz", "frequency"))
    | .tran, _ => .ok (some (lit "time", lit "s", "time"))
    | _, _ => .ok none

/-- `_axis_definition`. -/
def axisDefinition (analysis : RequestedAnalysis F) (extracted : RawSeriesExtraction F) :
    Except ExtractionFault (PyJson F) :=
  if analysis.kind = .op then
    .ok (vectorJson (lit "sample") (lit "1") [PyFloat.ofRat 0])
  else do
    match ← expectedAxis analysis with
    | none => .error (.refused unitMismatch)
    | some (name, unit, nativeType) =>
      match extracted.axisNativeType with
      | none => .error (.refused unitMismatch)
      | some axisType =>
        if name = [] ∨ foldsTo axisType nativeType = false ∨ extracted.axisValues = [] then
          .error (.refused unitMismatch)
        else .ok (vectorJson name unit extracted.axisValues)

def nativeTypeUnit (native : PyStr) : Option PyStr :=
  if foldsTo native "voltage" then some (lit "V")
  else if foldsTo native "current" then some (lit "A")
  else none

/-- One signal of `_normalized_signals`; of two native vectors with one name the later counts. -/
def selectedSignal (extracted : RawSeriesExtraction F) (selector : Selector) :
    Except ExtractionFault (PyJson F) :=
  match extracted.signals.reverse.find? fun signal => signal.name = selector.nativeName.1 with
  | none => .error (.refused "series.selector.missing")
  | some signal =>
    if nativeTypeUnit signal.nativeType = some selector.unit.1 then
      match selector.component, signal.imaginaryValues with
      | .imaginary, some values =>
        if extracted.isComplex then
          .ok (vectorJson selector.outputName.1 selector.unit.1 values)
        else .error (.refused "series.selector.component_invalid")
      | .imaginary, none => .error (.refused "series.selector.component_invalid")
      | .real, _ => .ok (vectorJson selector.outputName.1 selector.unit.1 signal.realValues)
    else .error (.refused unitMismatch)

/-- `_normalized_signals`. -/
def normalizedSignals (extracted : RawSeriesExtraction F) (selected : List Selector) :
    Except ExtractionFault (List (PyJson F)) :=
  selected.mapM (selectedSignal extracted)

def observedCounts (kind : AnalysisKind) (extracted : RawSeriesExtraction F) : Counts :=
  let dependent := if kind = .op then extracted.variableCount else extracted.variableCount - 1
  ⟨extracted.points, dependent,
    extracted.points * dependent * if extracted.isComplex then 2 else 1⟩

end Vectors

end Model

section Extraction

variable {F : Type} [PyFloatText F] (sha256 : ByteArray → Sha256)

def digestSource : PyJson F :=
  .object [(lit "operation", .str (lit "normalized.series.digest")),
    (lit "request_id", .str (lit "00000000-0000-4000-8000-000000000000")),
    (lit "artifact_role", .str (lit "measurement.source")),
    (lit "artifact_sha256", .str (List.replicate 64 (point '0')))]

/-- `normalized_series_sha256`. -/
def normalizedSeriesSha256 (axis : PyJson F) (signals conditions : List (PyJson F)) :
    Except Fault Sha256 :=
  (normalizeSeries sha256 false (.object [(lit "source", digestSource), (lit "axis", axis),
    (lit "signals", .array signals), (lit "conditions", .array conditions),
    (lit "extensions", .object [])])).map CanonicalSeries.seriesSha256

def Selector.document (selector : Selector) : Value :=
  .record [(lit "component", .text (lit
      (match selector.component with | .real => "real" | .imaginary => "imaginary"))),
    (lit "native_name", .text selector.nativeName.1),
    (lit "output_name", .text selector.outputName.1), (lit "unit", .text selector.unit.1)]

def requestDocument (source : SimulationSource F) (selected : List Selector)
    (conditions : List (Condition F)) : Value :=
  .record [(lit "conditions", conditionsDocument conditions),
    (lit "selectors", .list (selected.map Selector.document)),
    (lit "simulation", .record [(lit "artifact_sha256", .text source.artifact.sha256.1),
      (lit "request_id", .text source.requestId.1)])]

def operationProfile : String := "openada.operation/result.series.extract/v1alpha1"

def emittedSeries (correlationId : Uuid) (source : SimulationSource F) (digest : Sha256)
    (axis : PyJson F) (signals conditions : List (PyJson F)) : PyJson F :=
  .object [(lit "source", .object [(lit "operation", .str (lit operationProfile)),
      (lit "request_id", .str correlationId.1),
      (lit "artifact_role", .str (lit "measurement.source")),
      (lit "artifact_sha256", .str digest.1),
      (lit "lineage", .object [(lit "operation", .str (lit "circuit.simulate")),
        (lit "request_id", .str source.requestId.1),
        (lit "artifact_role", .str (lit "simulation.result")),
        (lit "artifact_sha256", .str source.artifact.sha256.1),
        (lit "binding", .str (lit "unverified"))])]),
    (lit "axis", axis), (lit "signals", .array signals), (lit "conditions", .array conditions),
    (lit "extensions", .object [])]

def plotRecord (extracted : RawSeriesExtraction F) : PyJson F :=
  .object [(lit "plotname", .str extracted.plotname), (lit "encoding", .str extracted.encoding),
    (lit "numeric_type", .str (lit (if extracted.isComplex then "complex" else "real"))),
    (lit "point_count", .int extracted.points),
    (lit "native_axis_name", (extracted.axisName.map PyJson.str).getD .null),
    (lit "native_axis_type", (extracted.axisNativeType.map PyJson.str).getD .null),
    (lit "extensions", .object [])]

/-- `extract_result_series` on a simulation result that has passed its checks; `extract` is the
reading of the raw artifact. -/
def extractResultSeries
    (extract : SimulationSource F → List PyStr → Except String (RawSeriesExtraction F))
    (correlationId : Uuid) (source : SimulationSource F) (selectorItems conditionItems : PyJson F) :
    Except ExtractionFault (Extraction F) := do
  let selected ← (selectors selectorItems).mapError (Fault.caught extractRequestInvalid)
  let conditions ← (extractConditions conditionItems).mapError
    (Fault.caught extractRequestInvalid)
  let requestDigest ← (canonicalSha256 sha256
    (requestDocument source selected conditions)).mapError (Fault.caught extractRequestInvalid)
  let extracted ← (extract source (selected.map fun selector => selector.nativeName.1).eraseDups)
    |>.mapError ExtractionFault.refused
  if observedCounts source.analysis.kind extracted ≠ source.counts then
    .error (.refused "series.artifact.binding_mismatch")
  else do
    let axis ← axisDefinition source.analysis extracted
    let signals ← normalizedSignals extracted selected
    let digest ← (normalizedSeriesSha256 sha256 axis signals
      (conditions.map Condition.json)).mapError (Fault.caught "series.source.invalid")
    .ok ⟨requestDigest, plotRecord extracted, emittedSeries correlationId source digest axis signals
      (conditions.map Condition.json)⟩

end Extraction

end OpenADA.Series
