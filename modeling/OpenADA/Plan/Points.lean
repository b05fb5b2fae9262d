import OpenADA.Plan.Bench

/-! Checks of one condition point other than its measurements: value sources, state and settle
policies, the analysis, and the active stimuli. -/
namespace OpenADA.Plan

abbrev StageInputs := InsertionDict (Id × Id) PlanUnit

def inputReferenceIssues (stageId : Id) (stageInputs : StageInputs) (path : String)
    (inputId : Id) (unit : PlanUnit) : List Issue :=
  match stageInputs.get? (stageId, inputId) with
  | none => [⟨"testbench_plan.binding.input_unknown", s!"{path}/input_id",
      s!"unknown input {quoted inputId} in stage {quoted stageId}"⟩]
  | some actual =>
    issueIf (decide (actual ≠ unit)) "testbench_plan.unit.mismatch" s!"{path}/unit"
      s!"declared input unit {quoted unit.symbol} differs from {quoted actual.symbol}"

/-- `_check_value_source`; its return value is `ValueSource.unit`. -/
def checkValueSource (value : ValueSource) (stageId : Id) (stageInputs : StageInputs)
    (path : String) (expectedUnit : Option PlanUnit) : List Issue :=
  (match value with
  | .literal _ => []
  | .input inputId unit => inputReferenceIssues stageId stageInputs path inputId unit
  | .affine inputId _ offset unit =>
    inputReferenceIssues stageId stageInputs path inputId unit ++
    issueIf (decide (offset.unit ≠ unit)) "testbench_plan.unit.mismatch" s!"{path}/offset/unit"
      "affine offset must use the value-source output unit") ++
  expectedUnit.toList.flatMap (fun expected =>
    issueIf (decide (value.unit ≠ expected)) "testbench_plan.unit.mismatch" s!"{path}/unit"
      s!"expected {quoted expected.symbol}, got {quoted value.unit.symbol}")

/-- `_threshold_unit`. -/
def thresholdUnit (threshold : ThresholdValue) (supplies : InsertionDict Id Supply) :
    Option PlanUnit :=
  match threshold with
  | .supplyScaled level => if level.supplyId ∈ supplies.keys then some .V else none
  | .quantity literal => some literal.unit

def initialVoltageStep (ports internals : List String) (pointPath : String)
    (identities : List (InitialNode × String)) (index : ℕ) (initial : InitialVoltage) :
    List (InitialNode × String) × List Issue :=
  let path := s!"{pointPath}/state_policy/initial_node_voltages/{index}"
  let field := match initial.kind with
    | .port => "port"
    | .internalNode => "node"
  let valid := match initial.kind with
    | .port => ports
    | .internalNode => internals
  let identity := (initial.kind, casefold initial.name)
  (identity :: identities,
    issueIf (decide (identity ∈ identities)) "testbench_plan.state.initial_duplicate" path
      "duplicate initial-voltage identity" ++
    issueIf (decide (initial.name ∉ valid)) "testbench_plan.state.node_unknown"
      s!"{path}/{field}" "initial-voltage target is absent from the sealed DUT ABI")

/-- `_validate_state_policy`. -/
def validateStatePolicy (state : StatePolicy) (ports internals : List String)
    (pointPath : String) : List Issue :=
  match state with
  | .carryover .. => []
  | .fresh initial => (Scan.run (initialVoltageStep ports internals pointPath) [] 0 initial).2

def Analysis.isDcSweep : Analysis → Bool
  | .dcSweep .. => true
  | _ => false

section

variable (F : Type) [PyFloat F]

/-- `_validate_settle_policy`. -/
def validateSettlePolicy (settle : SettlePolicy) (analysis : Analysis)
    (probes : InsertionDict Id Probe) (pointPath : String) : List Issue :=
  let path := s!"{pointPath}/settle_policy"
  match settle with
  | .operatingPoint =>
    issueIf (!analysis.isDcSweep) "testbench_plan.settle.analysis_incompatible" path
      "operating_point settling is available only for a DC sweep"
  | .fixedTime duration =>
    issueIf analysis.isDcSweep "testbench_plan.settle.analysis_incompatible" path
      ("a DC sweep must declare operating_point settling; " ++
        "fixed_time implies elapsed transient time") ++
    issueIf (PyFloat.lt (asFloat F duration) (asFloat F 0)) "testbench_plan.settle.invalid"
      s!"{path}/duration/value" "fixed settle duration must be non-negative"
  | .untilDelta probeId tolerance holdFor maximum =>
    (match probes.get? probeId with
    | none => [⟨"testbench_plan.settle.probe_unknown", s!"{path}/probe_id",
        s!"unknown probe {quoted probeId}"⟩]
    | some probe =>
      issueIf (decide (tolerance.unit ≠ probe.unit)) "testbench_plan.unit.mismatch"
        s!"{path}/tolerance/unit"
        s!"settling tolerance must use probe unit {quoted probe.unit.symbol}") ++
    [("tolerance", tolerance.value), ("hold_for", holdFor), ("maximum", maximum)].flatMap
      (fun field => issueIf (PyFloat.le (asFloat F field.2) (asFloat F 0))
        "testbench_plan.settle.invalid" s!"{path}/{field.1}/value"
        "must be greater than zero") ++
    issueIf (PyFloat.lt (asFloat F maximum) (asFloat F holdFor)) "testbench_plan.settle.invalid"
      path "hold_for must not exceed maximum"

def Analysis.expectedStimulus : Analysis → StimulusKind
  | .dcSweep .. => .dcState
  | .pulseTrainTransient .. => .pulseTrain
  | .phaseOffsetPairTransient .. => .phaseOffsetPair
  | .linearAc .. => .smallSignalAc

def Analysis.fields : Analysis → List (String × ValueSource)
  | .dcSweep _ start stop step => [("start", start), ("stop", stop), ("step", step)]
  | .pulseTrainTransient _ step stop => [("step", step), ("stop", stop)]
  | .phaseOffsetPairTransient _ step stop => [("step", step), ("stop", stop)]
  | .linearAc _ _ start stop => [("start", start), ("stop", stop)]

def Analysis.expectedUnit : Analysis → Option PlanUnit
  | .linearAc .. => some .Hz
  | _ => none

def ValueSource.literal? : ValueSource → Option Quantity
  | .literal quantity => some quantity
  | _ => none

/-- The range checks that run when every bound of the analysis is a literal. -/
def analysisRangeIssues (analysis : Analysis) (path : String) (values : List F) : List Issue :=
  let zero := asFloat F 0
  match analysis, values with
  | .dcSweep .., [start, stop, step] =>
    issueIf (PyFloat.le stop start || PyFloat.le step zero)
      "testbench_plan.analysis.range_invalid" path
      "DC stop must exceed start and step must be positive"
  | .linearAc .., [start, stop] =>
    issueIf (PyFloat.le start zero || PyFloat.le stop start)
      "testbench_plan.analysis.range_invalid" path
      "AC start must be positive and stop must exceed start"
  | _, [step, stop] =>
    issueIf (PyFloat.le step zero || PyFloat.le stop zero)
      "testbench_plan.analysis.range_invalid" path
      "transient step and stop must be positive"
  | _, _ => []

/-- `_validate_analysis`. -/
def validateAnalysis (analysis : Analysis) (stageId : Id) (stageInputs : StageInputs)
    (stimuli : InsertionDict Id Stimulus) (pointPath : String) : List Issue :=
  let path := s!"{pointPath}/analysis"
  let stimulusKey := if analysis.isDcSweep then "source_stimulus_id" else "stimulus_id"
  (match stimuli.get? analysis.stimulusId with
  | none => [⟨"testbench_plan.analysis.stimulus_unknown", s!"{path}/{stimulusKey}",
      s!"unknown stimulus {quoted analysis.stimulusId}"⟩]
  | some stimulus =>
    issueIf (decide (stimulus.kind ≠ analysis.expectedStimulus))
      "testbench_plan.analysis.stimulus_incompatible" s!"{path}/{stimulusKey}"
      (s!"analysis requires {quoted analysis.expectedStimulus.symbol}, " ++
        s!"got {quoted stimulus.kind.symbol}")) ++
  analysis.fields.flatMap (fun field =>
    checkValueSource field.2 stageId stageInputs s!"{path}/{field.1}" analysis.expectedUnit) ++
  issueIf (decide ((analysis.fields.map fun field => field.2.unit).dedup.length ≠ 1))
    "testbench_plan.unit.mismatch" path "analysis bounds and step must use one exact unit" ++
  (match analysis.fields.mapM fun field => field.2.literal? with
  | none => []
  | some literals =>
    analysisRangeIssues F analysis path (literals.map fun literal => asFloat F literal.value))

end

def stimulusLevels : StimulusBody → List (String × ScaledLevel)
  | .dcState _ _ _ level => [("level", level)]
  | .pulseTrain _ _ _ pulse => [("low_level", pulse.lowLevel), ("high_level", pulse.highLevel)]
  | .phaseOffsetPair _ _ _ _ _ pulse _ =>
      [("low_level", pulse.lowLevel), ("high_level", pulse.highLevel)]
  | .smallSignalAc .. => []

/-- The ports already driven at a point, each with the stimulus that drives it. -/
abbrev Targets := InsertionDict String Id

def targetStep (path : String) (index : ℕ) (identifier : Id) (targets : Targets) (_ : ℕ)
    (target : String) : Targets × List Issue :=
  match targets.get? target with
  | some owner => (targets, [⟨"testbench_plan.stimulus.target_conflict", s!"{path}/{index}",
      s!"active stimuli {quoted owner} and {quoted identifier} both drive {quoted target}"⟩])
  | none => (targets.set target identifier, [])

def activeStimulusStep (stimuli : InsertionDict Id Stimulus) (supplies : InsertionDict Id Supply)
    (stageId : Id) (stageInputs : StageInputs) (path : String) (targets : Targets) (index : ℕ)
    (identifier : Id) : Targets × List Issue :=
  match stimuli.get? identifier with
  | none => (targets, [⟨"testbench_plan.stimulus.active_unknown", s!"{path}/{index}",
      s!"unknown active stimulus {quoted identifier}"⟩])
  | some stimulus =>
    let driven := Scan.run (targetStep path index identifier) targets 0
      ((drivenPorts stimulus.body).map Prod.snd)
    let phase := match stimulus.body with
      | .phaseOffsetPair _ _ _ _ _ _ phaseOffset =>
        checkValueSource phaseOffset stageId stageInputs s!"/stimuli/{identifier}/phase_offset"
          (some .s)
      | _ => []
    let levels := (stimulusLevels stimulus.body).flatMap fun field =>
      issueIf (decide (field.2.supplyId ∉ supplies.keys))
        "testbench_plan.stimulus.supply_unknown" s!"/stimuli/{identifier}/{field.1}/supply_id"
        "active stimulus uses an unknown supply"
    (driven.1, driven.2 ++ phase ++ levels)

/-- `_validate_active_stimuli`. -/
def validateActiveStimuli (activeIds : List Id) (analysis : Analysis)
    (stimuli : InsertionDict Id Stimulus) (supplies : InsertionDict Id Supply) (stageId : Id)
    (stageInputs : StageInputs) (pointPath : String) : List Issue :=
  let path := s!"{pointPath}/active_stimulus_ids"
  issueIf (decide (analysis.stimulusId ∉ activeIds))
    "testbench_plan.stimulus.analysis_inactive" path
    "the selected analysis stimulus must be active at this point" ++
  (Scan.run (activeStimulusStep stimuli supplies stageId stageInputs path) .empty 0 activeIds).2

end OpenADA.Plan
