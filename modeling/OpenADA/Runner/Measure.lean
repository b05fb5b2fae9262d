import OpenADA.Compiler.Conditions
import OpenADA.Runner.Kernels

/-! Evaluation of one condition point: its measurements over the executed waveforms, and the
validity rules over the measured values. -/
namespace OpenADA.Runner

open OpenADA.Plan OpenADA.Compiler

structure ConditionValue (F : Type) where
  value : Payload F
  conditionIds : IdSet

abbrev PointValues (F : Type) := InsertionDict Id (ConditionValue F)

variable {F : Type} [PyFloat F]

/-- `_threshold`. -/
def threshold (value : ThresholdValue) (plan : PlanDocument) (cornerId : Id) :
    Except String F :=
  match value with
  | .quantity quantity => literalQuantity quantity "threshold"
  | .supplyScaled level =>
    match plan.supplies.find? fun item => decide (item.id = level.supplyId) with
    | none => .error s!"threshold supply {quoted level.supplyId} is unavailable"
    | some supply =>
      match plan.cornerBindings.find? fun item => decide (item.id = cornerId) with
      | none => .error s!"threshold supply value {quoted supply.valueId} is unavailable"
      | some corner =>
        match corner.values.find? fun entry => decide (entry.id = supply.valueId) with
        | none => .error ""
        | some entry => .ok (number entry.value.value * number level.fraction)

/-- `casefold(vector)` without the explicit ground reference of a differential voltage. -/
def groundedAlias (folded : String) : Option String :=
  if beginsWith folded "v(" && (folded.toList.reverse.take 3 == [')', '0', ',']) then
    some (String.ofList (folded.toList.take (folded.toList.length - 3) ++ [')']))
  else none

/-- `_signal_values`. -/
def signalValues (waveform : Waveform F) (vector : String) : Option (List F) :=
  match waveform.signals.get? (casefold vector) with
  | some direct => some direct
  | none => (groundedAlias (casefold vector)).bind waveform.signals.get?

/-- Probe identifiers with the vector and polarity a condition emits for each. -/
abbrev ProbeVectors (F : Type) := InsertionDict Id (String × F)

/-- `_probe_vectors`. -/
def probeVectors (condition : CompiledCondition) : ProbeVectors F :=
  condition.expectedProbes.foldl (fun output probe =>
    match probe.nativeVectors with
    | [native] => output.set probe.id (casefold native, number probe.polarityMultiplier)
    | _ => output) .empty

def probeSamples (waveform : Waveform F) (probes : ProbeVectors F) (measurementId probeId : Id) :
    Except String (List F) :=
  match (probes.get? probeId).bind fun selected =>
      (signalValues waveform selected.1).map fun samples => (samples, selected.2) with
  | some (samples, polarity) => .ok (samples.map fun item => item * polarity)
  | none => .error s!"measurement {quoted measurementId} probe vector is absent"

def parentValue (values : PointValues F) (measurementId parentId : Id) :
    Except String (ConditionValue F) :=
  match values.get? parentId with
  | some parent => .ok parent
  | none => .error s!"measurement {quoted measurementId} parent is unavailable"

def fitSamples (parent : Payload F) (window : Window) : Except String (List F × List F) := do
  let (x, y) ← curveOf parent
  let selected ← windowIndices x window
  let xs ← selected.mapM (at? x)
  let ys ← selected.mapM (at? y)
  .ok (xs, ys)

def derivedPayload (plan : PlanDocument) (corner : Id) (body : MeasurementBody)
    (parent : Payload F) : Except String (Payload F) :=
  match body with
  | .linearFit _ window _ => do
    let (xs, ys) ← fitSamples parent window
    let fit ← linearFit xs ys
    .ok (.fit fit.slope fit.intercept fit.r2)
  | .crossing _ level direction occurrence => do
    let (x, y) ← curveOf parent
    let value ← threshold level plan corner
    let position ← crossing x y value direction occurrence
    .ok (.scalar position)
  | .sign _ zeroTolerance => do
    let tolerance ← literalQuantity zeroTolerance "zero_tolerance"
    signValues tolerance parent
  | .maxAbs _ => maxAbs parent
  | .complianceInterval _ lower upper => do
    let low ← literalQuantity lower "compliance.lower"
    let high ← literalQuantity upper "compliance.upper"
    complianceInterval low high parent
  | _ => .error "measurement has no single parent"

def normalized (normalization : Normalization) (value : F) : Except String F :=
  match normalization with
  | .none => .ok value
  | .pulseCount _ count => divide value (number count)

def measure (plan : PlanDocument) (corner : Id) (waveform : Waveform F) (probes : ProbeVectors F)
    (baseLineage : IdSet) (values : PointValues F) (measurement : Measurement) :
    Except String (ConditionValue F) :=
  match measurement.body with
  | .curve probeId => do
    let samples ← probeSamples waveform probes measurement.id probeId
    .ok ⟨.curve waveform.axis samples, baseLineage⟩
  | .integrate _ probeId window normalization => do
    let samples ← probeSamples waveform probes measurement.id probeId
    let integral ← integrateWindow waveform.axis samples window
    let value ← normalized normalization integral
    .ok ⟨.scalar value, baseLineage⟩
  | .linearFit parentId .. | .crossing parentId .. | .sign parentId .. | .maxAbs parentId
  | .complianceInterval parentId .. => do
    let parent ← parentValue values measurement.id parentId
    let payload ← derivedPayload plan corner measurement.body parent.value
    .ok ⟨payload, parent.conditionIds⟩
  | .mismatchFraction actualId referenceId floor => do
    let actual ← parentValue values measurement.id actualId
    let reference ← parentValue values measurement.id referenceId
    let bound ← literalQuantity floor "mismatch.floor"
    let actualNumber ← floatOf actual.value
    let referenceNumber ← floatOf reference.value
    let fraction ← mismatchFraction actualNumber referenceNumber bound
    .ok ⟨.scalar fraction, actual.conditionIds ∪ reference.conditionIds⟩
  | .loopTransfer _ | .unityFrequency _ | .phaseMargin .. =>
    .error s!"measurement kind {quoted measurement.kind.symbol} is unsupported"

def storeMeasured (values : PointValues F) (measurement : Measurement)
    (result : ConditionValue F) : Except String (PointValues F) :=
  if finiteJson result.value then .ok (values.set measurement.id result)
  else .error s!"measurement {quoted measurement.id} produced non-finite data"

def measureStep (plan : PlanDocument) (corner : Id) (waveform : Waveform F)
    (probes : ProbeVectors F) (baseLineage : IdSet) (values : PointValues F)
    (measurement : Measurement) : Except String (PointValues F) := do
  let result ← measure plan corner waveform probes baseLineage values measurement
  storeMeasured values measurement result

/-- `_evaluate_measurements`. -/
def evaluateMeasurements (measurements : List Measurement) (waveform : Waveform F)
    (plan : PlanDocument) (corner : Id) (probes : ProbeVectors F) (baseLineage : IdSet) :
    Except String (PointValues F) :=
  measurements.foldlM (measureStep plan corner waveform probes baseLineage) .empty

abbrev Entry (F : Type) := CompiledCondition × Waveform F

structure SweepScan (F : Type) where
  axis : List F
  series : InsertionDict Id (List F)
  lineage : IdSet

def appendProbe (entry : Entry F) (series : InsertionDict Id (List F))
    (probe : Id × String × F) : Except String (InsertionDict Id (List F)) :=
  match signalValues entry.2 probe.2.1 with
  | some [value] => .ok (series.set probe.1 ((series.get? probe.1).getD [] ++ [value * probe.2.2]))
  | _ => .error (s!"fresh DC sample {quoted entry.1.conditionId} does not contain one " ++
      quoted probe.1 ++ " value")

def sameProbes (a b : ProbeVectors F) : Bool :=
  decide (a.entries.length = b.entries.length) && a.entries.all fun entry =>
    match b.get? entry.1 with
    | some other => decide (other.1 = entry.2.1) && PyFloat.eq other.2 entry.2.2
    | none => false

def appendSample (firstMap : ProbeVectors F) (scan : SweepScan F) (entry : Entry F) :
    Except String (SweepScan F) := do
  let current : ProbeVectors F := probeVectors entry.1
  if !sameProbes current firstMap then .error "fresh DC sample probe identities differ"
  let position := (entry.1.sample.map Prod.snd).getD 0
  let series ← current.entries.foldlM (appendProbe entry) scan.series
  .ok ⟨scan.axis ++ [number position], series, scan.lineage ∪ {entry.1.conditionId}⟩

def sampleIndex (entry : Entry F) : ℕ := (entry.1.sample.map Prod.fst).getD 0

def evaluateSweep (point : ConditionPoint) (entries : List (Entry F)) (plan : PlanDocument)
    (corner : Id) (upstreamLineage : IdSet) : Except String (PointValues F) :=
  match entries.insertionSort fun a b => sampleIndex a ≤ sampleIndex b with
  | [] => .error "list index out of range"
  | first :: rest => do
    let firstMap : ProbeVectors F := probeVectors first.1
    let series := InsertionDict.ofList (firstMap.keys.map fun name => (name, ([] : List F)))
    let scan ← (first :: rest).foldlM (appendSample firstMap) ⟨[], series, ∅⟩
    let probes := InsertionDict.ofList (scan.series.keys.map fun name =>
      (name, (name, number (F := F) 1)))
    evaluateMeasurements point.measurements ⟨"dc_source", scan.axis, scan.series⟩ plan corner
      probes (scan.lineage ∪ upstreamLineage)

/-- `_evaluate_point_group`. -/
def evaluatePointGroup (point : ConditionPoint) (entries : List (Entry F)) (plan : PlanDocument)
    (corner : Id) (upstreamLineage : IdSet) : Except String (PointValues F) :=
  if point.analysis.isDcSweep && entries.all fun entry => entry.1.sample.isSome then
    evaluateSweep point entries plan corner upstreamLineage
  else match entries with
    | [(condition, waveform)] =>
      evaluateMeasurements point.measurements waveform plan corner (probeVectors condition)
        ({condition.conditionId} ∪ upstreamLineage)
    | _ => .error "non-DC point compiled into an ambiguous condition set"

inductive ValidityFailure where
  | unsupported (text : String)
  | invalid (text : String)
  deriving DecidableEq

def ValidityFailure.text : ValidityFailure → String
  | .unsupported text => text
  | .invalid text => text

def liftInvalid {α : Type} (result : Except String α) : Except ValidityFailure α :=
  result.mapError .invalid

def selectedValue (values : PointValues F) (measurementId : Id) :
    Except ValidityFailure (Payload F) :=
  match values.get? measurementId with
  | some item => .ok item.value
  | none => .error (.invalid "validity input is unavailable")

def rSquared : Payload F → Except String F
  | .fit _ _ r2 => .ok r2
  | .curve .. => .error "'r2'"
  | .interval .. => .error "'r2'"
  | .scalar _ => .error "'float' object is not subscriptable"
  | .signs _ => .error "list indices must be integers or slices, not str"

def compares (comparison : Comparison) (actual limit : F) : Bool :=
  match comparison with
  | .lt => PyFloat.lt actual limit
  | .lte => PyFloat.le actual limit
  | .gt => PyFloat.lt limit actual
  | .gte => PyFloat.le limit actual
  | .absLte => PyFloat.le (PyFloat.abs actual) limit

def validityHolds (body : ValidityBody) (values : PointValues F) (plan : PlanDocument)
    (corner : Id) : Except ValidityFailure Bool :=
  match body with
  | .pulseCount .. => .error (.unsupported "observed pulse-count extraction is unsupported")
  | .finite measurementIds => do
    let selected ← measurementIds.mapM (selectedValue values)
    .ok (selected.all finiteJson)
  | .r2 measurementId minimum => do
    let selected ← selectedValue values measurementId
    let actual ← liftInvalid (rSquared selected)
    .ok (PyFloat.le (number minimum) actual)
  | .threshold measurementId comparison value => do
    let selected ← selectedValue values measurementId
    let actual ← liftInvalid (floatOf selected)
    let limit ← liftInvalid (threshold value plan corner)
    .ok (compares comparison actual limit)
  | .settlingDelta first second maximum => do
    let left ← selectedValue values first
    let right ← selectedValue values second
    let leftNumber ← liftInvalid (floatOf left)
    let rightNumber ← liftInvalid (floatOf right)
    let limit ← liftInvalid (literalQuantity maximum "settling.maximum")
    .ok (PyFloat.le (PyFloat.abs (leftNumber - rightNumber)) limit)
  | .monotonicity measurementId .. | .singleSignChange measurementId _
  | .crossings measurementId .. | .unityCrossing measurementId .. => do
    discard (selectedValue values measurementId)
    .error (.unsupported s!"validity kind {quoted body.symbol} is unsupported")

/-- `_evaluate_validity_rule`. -/
def evaluateValidityRule (rule : ValidityRule) (values : PointValues F) (plan : PlanDocument)
    (corner : Id) : Except ValidityFailure String := do
  let passed ← validityHolds rule.body values plan corner
  .ok (if passed then "VALID" else s!"INVALID({rule.reason.symbol})")

end OpenADA.Runner
