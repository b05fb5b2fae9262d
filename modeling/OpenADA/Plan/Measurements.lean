import OpenADA.Library.LayeredOrder
import OpenADA.Plan.Points

/-! Dependency cycles of a declared graph, as the validator reports them, and the validation of the
measurements of one condition point and of its validity rules. -/
namespace OpenADA.Plan

section Graph

open CycleSearch

/-- `_check_dag`: one issue for every walk of the search that meets an active node. -/
def checkDag (graph : Table Id) (path : String) : List Issue :=
  (search graph).reports.map fun trail =>
    ⟨"testbench_plan.graph.cycle", path, "dependency cycle: " ++ " -> ".intercalate trail⟩

theorem checkDag_eq_nil_iff (graph : Table Id) (path : String) :
    checkDag graph path = [] ↔ ¬ graph.Cyclic := by
  unfold checkDag
  rw [List.map_eq_nil_iff]
  exact search_reports_eq_nil_iff graph

end Graph

structure PointContext where
  stageId : Id
  stageInputs : StageInputs
  probes : InsertionDict Id Probe
  stimuli : InsertionDict Id Stimulus
  supplies : InsertionDict Id Supply
  analysis : Analysis

/-- `_point_curve_axis_unit`. -/
def pointCurveAxisUnit (measurement : Measurement) (analysis : Analysis) : Option PlanUnit :=
  match measurement.kind with
  | .curve | .loopTransfer => some analysis.axisUnit
  | _ => none

def optionSymbol : Option PlanUnit → String
  | none => "None"
  | some unit => quoted unit.symbol

abbrev MeasurementIndex := InsertionDict Id Measurement

def parentIssues (byId : MeasurementIndex) (path : String) (body : MeasurementBody) :
    List Issue :=
  body.parents.flatMap fun parent =>
    issueIf (decide (parent.2 ∉ byId.keys)) "testbench_plan.measurement.parent_unknown"
      s!"{path}/{parent.1}"
      s!"parent {quoted parent.2} must be an earlier measurement in this point"

def chargeProbeIssues (path : String) (quantity : ChargeQuantity) (probe : Probe) : List Issue :=
  issueIf (decide (probe.unit ≠ .A)) "testbench_plan.measurement.probe_incompatible"
    s!"{path}/probe_id" "charge integration requires a current probe" ++
  match quantity, probe.body with
  | .deliveredCharge, .dutPortCurrent .. => []
  | .deliveredCharge, _ => [⟨"testbench_plan.measurement.probe_cheat", s!"{path}/probe_id",
      "delivered_charge must probe a DUT port current, never a command source"⟩]
  | .sourceCharge, .stimulusBranchCurrent .. => []
  | .sourceCharge, _ => [⟨"testbench_plan.measurement.probe_incompatible", s!"{path}/probe_id",
      "source_charge requires an explicitly identified stimulus branch"⟩]

section

variable (F : Type) [PyFloat F]

def PllConstruction.factors (construction : PllConstruction) :
    List (String × ValueSource × PlanUnit) :=
  [("charge_pump_gain", construction.chargePumpGain, .A),
    ("vco_gain", construction.vcoGain, .HzPerV),
    ("divider_ratio", construction.dividerRatio, .one),
    ("loop_filter/r1", construction.r1, .Ohm),
    ("loop_filter/c1", construction.c1, .F),
    ("loop_filter/r2", construction.r2, .Ohm),
    ("loop_filter/c2", construction.c2, .F)]

def constructionIssues (ctx : PointContext) (probe : Probe) (construction : PllConstruction) :
    List Issue :=
  construction.factors.flatMap fun factor =>
    let path := s!"/probes/{probe.id}/construction/{factor.1}"
    checkValueSource factor.2.1 ctx.stageId ctx.stageInputs path (some factor.2.2) ++
    factor.2.1.literal?.toList.flatMap fun literal =>
      issueIf (PyFloat.le (asFloat F literal.value) (asFloat F 0))
        "testbench_plan.probe.factor_invalid" s!"{path}/value"
        "PLL loop construction factors must be positive"

def loopTransferIssues (ctx : PointContext) (path : String) (probe : Probe) : List Issue :=
  (match ctx.analysis with
  | .linearAc .. => []
  | _ => [⟨"testbench_plan.measurement.analysis_incompatible", path,
      "loop_transfer requires a linear_ac analysis"⟩]) ++
  match probe.body with
  | .pllLoopGain injectionStimulusId _ construction =>
    issueIf (decide (injectionStimulusId ≠ ctx.analysis.stimulusId))
      "testbench_plan.measurement.probe_incompatible" s!"{path}/probe_id"
      "loop-gain probe injection must equal the active AC analysis source" ++
    constructionIssues F ctx probe construction
  | _ => [⟨"testbench_plan.measurement.probe_incompatible", s!"{path}/probe_id",
      "loop_transfer requires an explicit pll_loop_gain probe"⟩]

def probeIssues (ctx : PointContext) (path : String) (raw : Measurement) : List Issue :=
  raw.body.probeId?.toList.flatMap fun probeId =>
    match ctx.probes.get? probeId with
    | none => [⟨"testbench_plan.measurement.probe_unknown", s!"{path}/probe_id",
        s!"unknown probe {quoted probeId}"⟩]
    | some probe =>
      match raw.body with
      | .curve _ =>
        issueIf (decide (raw.unit ≠ probe.unit)) "testbench_plan.unit.mismatch" s!"{path}/unit"
          s!"curve unit must equal probe unit {quoted probe.unit.symbol}"
      | .integrate quantity .. => chargeProbeIssues path quantity probe
      | .loopTransfer _ => loopTransferIssues F ctx path probe
      | _ => []

def windowIssues (ctx : PointContext) (path : String) (window : Window) : List Issue :=
  checkValueSource window.start ctx.stageId ctx.stageInputs s!"{path}/window/start" none ++
  checkValueSource window.stop ctx.stageId ctx.stageInputs s!"{path}/window/stop" none ++
  issueIf (decide (window.start.unit ≠ window.stop.unit)) "testbench_plan.unit.mismatch"
    s!"{path}/window" "measurement window endpoints must use one exact unit"

/-- A literal window must last exactly `count` periods, up to a relative float tolerance. -/
def normalizedDurationMismatch (window : Window) (count : ℕ) (period : ℚ) : Bool :=
  match window.start.literal?, window.stop.literal? with
  | some start, some stop =>
    let duration := asFloat F stop.value - asFloat F start.value
    let expected := asFloat F count * asFloat F period
    let tolerance := PyFloat.max (PyFloat.abs expected * asFloat F (1 / 10 ^ 12))
      (asFloat F (1 / 10 ^ 30))
    PyFloat.lt tolerance (PyFloat.abs (duration - expected))
  | _, _ => false

def normalizationIssues (ctx : PointContext) (path : String) (window : Window) :
    Normalization → List Issue
  | .none => []
  | .pulseCount stimulusId count =>
    match (ctx.stimuli.get? stimulusId).bind Stimulus.pulse? with
    | none => [⟨"testbench_plan.measurement.normalization_invalid",
        s!"{path}/normalization/stimulus_id",
        "pulse-count normalization requires a declared pulsed stimulus"⟩]
    | some pulse =>
      issueIf (decide (count > pulse.count)) "testbench_plan.measurement.normalization_invalid"
        s!"{path}/normalization/count"
        "normalization count exceeds the emitted stimulus pulse count" ++
      issueIf (normalizedDurationMismatch F window count pulse.period)
        "testbench_plan.measurement.normalization_invalid" s!"{path}/window"
        "literal integration window duration must equal count times period"

def linearFitIssues (ctx : PointContext) (path : String) (unit : PlanUnit)
    (parent : Measurement) : List Issue :=
  let expected := (pointCurveAxisUnit parent ctx.analysis).bind (divideUnits parent.unit)
  issueIf (decide (expected ≠ some unit)) "testbench_plan.unit.mismatch" s!"{path}/unit"
    s!"linear-fit slope unit must be {optionSymbol expected}"

def maxAbsIssues (path : String) (unit : PlanUnit) (parent : Measurement) : List Issue :=
  issueIf (decide (unit ≠ parent.unit)) "testbench_plan.unit.mismatch" s!"{path}/unit"
    s!"derived unit must equal parent unit {quoted parent.unit.symbol}"

/-- The refusal of an output unit other than the axis unit of a curve parent. -/
def axisUnitIssues (ctx : PointContext) (path label : String) (unit : PlanUnit)
    (parent : Measurement) : List Issue :=
  (pointCurveAxisUnit parent ctx.analysis).toList.flatMap fun axisUnit =>
    issueIf (decide (unit ≠ axisUnit)) "testbench_plan.unit.mismatch" s!"{path}/unit"
      s!"{label} must use curve axis unit {quoted axisUnit.symbol}"

def crossingIssues (ctx : PointContext) (path : String) (unit : PlanUnit)
    (threshold : ThresholdValue) (parent : Measurement) : List Issue :=
  (match thresholdUnit threshold ctx.supplies with
  | none => [⟨"testbench_plan.measurement.supply_unknown", s!"{path}/threshold/supply_id",
      "supply-scaled threshold names an unknown supply"⟩]
  | some actual =>
    issueIf (decide (actual ≠ parent.unit)) "testbench_plan.unit.mismatch"
      s!"{path}/threshold/unit" "crossing threshold must match input curve unit") ++
  axisUnitIssues ctx path "crossing output" unit parent

def phaseMarginMatches (ctx : PointContext) (loopTransfer unity : Measurement) : Bool :=
  match loopTransfer.body, unity.body with
  | .loopTransfer probeId, .unityFrequency inputId =>
    decide (inputId = loopTransfer.id) &&
      match (ctx.probes.get? probeId).map Probe.body with
      | some (.pllLoopGain ..) => true
      | _ => false
  | _, _ => false

def mismatchFractionIssues (path : String) (floor : Quantity) (actual reference : Measurement) :
    List Issue :=
  issueIf (decide (actual.unit ≠ reference.unit) || decide (floor.unit ≠ actual.unit))
    "testbench_plan.unit.mismatch" path "mismatch operands and floor must use one exact unit"

def complianceIssues (ctx : PointContext) (path : String) (unit : PlanUnit)
    (lower upper : Quantity) (parent : Option Measurement) : List Issue :=
  parent.toList.flatMap (fun parent =>
    issueIf (decide (lower.unit ≠ parent.unit) || decide (upper.unit ≠ parent.unit))
      "testbench_plan.unit.mismatch" path
      "compliance bounds must match the input curve value unit" ++
    axisUnitIssues ctx path "compliance interval" unit parent) ++
  issueIf (PyFloat.le (asFloat F upper.value) (asFloat F lower.value))
    "testbench_plan.measurement.range_invalid" path "compliance upper bound must exceed lower bound"

def measurementBodyIssues (ctx : PointContext) (byId : MeasurementIndex) (path : String)
    (raw : Measurement) : List Issue :=
  match raw.body with
  | .integrate _ _ window normalization =>
    windowIssues ctx path window ++ normalizationIssues F ctx path window normalization
  | .linearFit inputId window _ =>
    windowIssues ctx path window ++
      (byId.get? inputId).toList.flatMap (linearFitIssues ctx path raw.unit)
  | .crossing inputId threshold .. =>
    (byId.get? inputId).toList.flatMap (crossingIssues ctx path raw.unit threshold)
  | .sign inputId zeroTolerance =>
    (byId.get? inputId).toList.flatMap fun parent =>
      issueIf (decide (zeroTolerance.unit ≠ parent.unit)) "testbench_plan.unit.mismatch"
        s!"{path}/zero_tolerance/unit" "sign tolerance must match input unit"
  | .maxAbs inputId => (byId.get? inputId).toList.flatMap (maxAbsIssues path raw.unit)
  | .mismatchFraction actualId referenceId floor =>
    (byId.get? actualId).toList.flatMap fun actual =>
      (byId.get? referenceId).toList.flatMap (mismatchFractionIssues path floor actual)
  | .complianceInterval inputId lower upper =>
    complianceIssues F ctx path raw.unit lower upper (byId.get? inputId)
  | .unityFrequency inputId =>
    (byId.get? inputId).toList.flatMap fun parent =>
      issueIf (decide (parent.kind ≠ .loopTransfer))
        "testbench_plan.measurement.parent_incompatible" path
        "unity_frequency requires a loop_transfer parent and emits Hz"
  | .phaseMargin inputId unityFrequencyId =>
    (byId.get? inputId).toList.flatMap fun loopTransfer =>
      (byId.get? unityFrequencyId).toList.flatMap fun unity =>
        issueIf (!phaseMarginMatches ctx loopTransfer unity)
          "testbench_plan.measurement.parent_incompatible" path
          ("phase margin requires the matching negative-feedback loop transfer " ++
            "and unity frequency")
  | .curve _ => []
  | .loopTransfer _ => []

def measurementStep (ctx : PointContext) (pointPath : String) (byId : MeasurementIndex)
    (index : ℕ) (raw : Measurement) : MeasurementIndex × List Issue :=
  let path := s!"{pointPath}/measurements/{index}"
  if raw.id ∈ byId.keys then
    (byId, [⟨"testbench_plan.id.duplicate", s!"{path}/id", "duplicate measurement id"⟩])
  else
    (byId.set raw.id raw,
      parentIssues byId path raw.body ++ probeIssues F ctx path raw ++
        measurementBodyIssues F ctx byId path raw)

def measurementGraph (byId : MeasurementIndex) : CycleSearch.Table Id :=
  byId.entries.map fun entry => (entry.1, entry.2.body.parents.map Prod.snd)

/-- `_validate_measurements`. -/
def validateMeasurements (values : List Measurement) (ctx : PointContext) (pointPath : String) :
    MeasurementIndex × List Issue :=
  let scan := Scan.run (measurementStep F ctx pointPath) .empty 0 values
  (scan.1, scan.2 ++ checkDag (measurementGraph scan.1) s!"{pointPath}/measurements")

end

def ValidityBody.subjects : ValidityBody → List (String × Id)
  | .r2 measurementId _ => [("measurement_id", measurementId)]
  | .settlingDelta first second _ =>
      [("measurement_ids/0", first), ("measurement_ids/1", second)]
  | .monotonicity measurementId .. => [("measurement_id", measurementId)]
  | .singleSignChange measurementId _ => [("measurement_id", measurementId)]
  | .finite measurementIds =>
      measurementIds.mapIdx fun index measurementId =>
        (s!"measurement_ids/{index}", measurementId)
  | .threshold measurementId .. => [("measurement_id", measurementId)]
  | .crossings measurementId .. => [("measurement_id", measurementId)]
  | .pulseCount .. => []
  | .unityCrossing measurementId .. => [("measurement_id", measurementId)]

def ValidityBody.quantityUnit (supplies : InsertionDict Id Supply) :
    ValidityBody → Option (String × Option PlanUnit)
  | .settlingDelta _ _ maximum => some ("maximum", some maximum.unit)
  | .monotonicity _ _ tolerance => some ("tolerance", some tolerance.unit)
  | .singleSignChange _ zeroTolerance => some ("zero_tolerance", some zeroTolerance.unit)
  | .threshold _ _ value => some ("value", thresholdUnit value supplies)
  | .crossings _ level .. => some ("threshold", thresholdUnit level supplies)
  | _ => none

def ValidityBody.counts : ValidityBody → Option (ℕ × ℕ)
  | .crossings _ _ _ minimumCount maximumCount => some (minimumCount, maximumCount)
  | .pulseCount _ minimumCount maximumCount => some (minimumCount, maximumCount)
  | .unityCrossing _ minimumCount maximumCount => some (minimumCount, maximumCount)
  | _ => none

def validityKindIssues (path : String) (body : ValidityBody) (first : Measurement) : List Issue :=
  match body with
  | .r2 .. =>
    issueIf (decide (first.kind ≠ .linearFit)) "testbench_plan.validity.measurement_incompatible"
      s!"{path}/measurement_id" "R-squared validity requires a linear_fit measurement"
  | .monotonicity .. | .singleSignChange .. | .crossings .. =>
    issueIf (decide (first.kind ≠ .curve)) "testbench_plan.validity.measurement_incompatible"
      s!"{path}/measurement_id" s!"{body.symbol} validity requires a curve measurement"
  | .unityCrossing .. =>
    issueIf (decide (first.kind ≠ .loopTransfer))
      "testbench_plan.validity.measurement_incompatible" s!"{path}/measurement_id"
      "unity-crossing validity requires a loop_transfer measurement"
  | _ => []

def validityIssues (byId : MeasurementIndex) (stimuli : InsertionDict Id Stimulus)
    (supplies : InsertionDict Id Supply) (path : String) (body : ValidityBody) : List Issue :=
  let selected := body.subjects.filterMap fun subject => byId.get? subject.2
  body.subjects.flatMap (fun subject =>
    issueIf (decide (subject.2 ∉ byId.keys)) "testbench_plan.validity.measurement_unknown"
      s!"{path}/{subject.1}" s!"unknown measurement {quoted subject.2}") ++
  selected.head?.toList.flatMap (fun first =>
    validityKindIssues path body first ++
    (body.quantityUnit supplies).toList.flatMap fun quantity =>
      issueIf (decide (quantity.2 ≠ some first.unit)) "testbench_plan.unit.mismatch"
        s!"{path}/{quantity.1}/unit"
        s!"validity threshold must use measurement unit {quoted first.unit.symbol}") ++
  body.counts.toList.flatMap (fun counts =>
    issueIf (decide (counts.2 < counts.1)) "testbench_plan.validity.range_invalid" path
      "maximum_count must be at least minimum_count") ++
  (match body with
  | .pulseCount stimulusId .. =>
    issueIf ((stimuli.get? stimulusId).bind Stimulus.pulse?).isNone
      "testbench_plan.validity.stimulus_unknown" s!"{path}/stimulus_id"
      "pulse_count requires a declared pulsed stimulus"
  | _ => []) ++
  match body, selected with
  | .settlingDelta .., [first, second] =>
    issueIf (decide (first.unit ≠ second.unit)) "testbench_plan.unit.mismatch"
      s!"{path}/measurement_ids"
      "settling comparison measurements must use one exact unit"
  | _, _ => []

def validityStep (byId : MeasurementIndex) (stimuli : InsertionDict Id Stimulus)
    (supplies : InsertionDict Id Supply) (pointPath : String)
    (output : InsertionDict Id ValidityRule) (index : ℕ) (raw : ValidityRule) :
    InsertionDict Id ValidityRule × List Issue :=
  let path := s!"{pointPath}/validity_rules/{index}"
  if raw.id ∈ output.keys then
    (output, [⟨"testbench_plan.id.duplicate", s!"{path}/id", "duplicate validity-rule id"⟩])
  else
    (output.set raw.id raw, validityIssues byId stimuli supplies path raw.body)

/-- `_validate_validity`. -/
def validateValidity (values : List ValidityRule) (byId : MeasurementIndex)
    (stimuli : InsertionDict Id Stimulus) (supplies : InsertionDict Id Supply)
    (pointPath : String) : InsertionDict Id ValidityRule × List Issue :=
  Scan.run (validityStep byId stimuli supplies pointPath) .empty 0 values

end OpenADA.Plan
