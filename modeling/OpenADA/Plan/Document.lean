import OpenADA.Plan.Unit

/-! The decoded `simra.testbench-plan/v1` document. A JSON number is its exact decimal value;
fields whose unit or kind the schema fixes to one constant carry only the number. -/
namespace OpenADA.Plan

abbrev Id := String

structure Quantity where
  value : ℚ
  unit : PlanUnit
  deriving DecidableEq

/-- A literal, a stage input, or an affine function of a stage input. -/
inductive ValueSource where
  | literal (quantity : Quantity)
  | input (inputId : Id) (unit : PlanUnit)
  | affine (inputId : Id) (factor : ℚ) (offset : Quantity) (unit : PlanUnit)
  deriving DecidableEq

def ValueSource.unit : ValueSource → PlanUnit
  | .literal quantity => quantity.unit
  | .input _ unit => unit
  | .affine _ _ _ unit => unit

structure ScaledLevel where
  supplyId : Id
  fraction : ℚ
  deriving DecidableEq

inductive ThresholdValue where
  | quantity (quantity : Quantity)
  | supplyScaled (level : ScaledLevel)
  deriving DecidableEq

structure Window where
  start : ValueSource
  stop : ValueSource
  deriving DecidableEq

inductive PortDirection where
  | input | output | inout | supply | reference
  deriving DecidableEq

structure DutPort where
  name : String
  direction : PortDirection
  internalNodes : List String
  deriving DecidableEq

structure DutBinding where
  artifact : String
  sha256 : String
  namespaceId : Id
  top : String
  ports : List DutPort
  connections : List (String × String)
  deriving DecidableEq

structure Supply where
  id : Id
  positive : String
  negative : String
  valueId : Id
  deriving DecidableEq

structure CornerValue where
  id : Id
  value : Quantity
  deriving DecidableEq

structure CornerBinding where
  id : Id
  temperature : ℚ
  values : List CornerValue
  deriving DecidableEq

inductive LogicState where
  | low | high | bias
  deriving DecidableEq

inductive Polarity where
  | activeHigh | activeLow
  deriving DecidableEq

/-- The fields a pulse train and a phase-offset pair share; times are in seconds. -/
structure PulseShape where
  lowLevel : ScaledLevel
  highLevel : ScaledLevel
  delay : ℚ
  riseTime : ℚ
  fallTime : ℚ
  pulseWidth : ℚ
  period : ℚ
  count : ℕ
  deriving DecidableEq

inductive StimulusBody where
  | dcState (supplyId : Id) (targetPort : String) (state : LogicState) (level : ScaledLevel)
  | pulseTrain (supplyId : Id) (targetPort : String) (polarity : Polarity) (pulse : PulseShape)
  | phaseOffsetPair (supplyId : Id) (referencePort offsetPort : String)
      (referencePolarity offsetPolarity : Polarity) (pulse : PulseShape)
      (phaseOffset : ValueSource)
  | smallSignalAc (targetPort referencePort : String) (intoDut : Bool)
      (dcBias magnitude phase : ℚ)
  deriving DecidableEq

inductive StimulusKind where
  | dcState | pulseTrain | phaseOffsetPair | smallSignalAc
  deriving DecidableEq

def StimulusKind.symbol : StimulusKind → String
  | .dcState => "dc_state"
  | .pulseTrain => "pulse_train"
  | .phaseOffsetPair => "phase_offset_pair"
  | .smallSignalAc => "small_signal_ac"

structure Stimulus where
  id : Id
  body : StimulusBody
  deriving DecidableEq

def Stimulus.kind (stimulus : Stimulus) : StimulusKind :=
  match stimulus.body with
  | .dcState .. => .dcState
  | .pulseTrain .. => .pulseTrain
  | .phaseOffsetPair .. => .phaseOffsetPair
  | .smallSignalAc .. => .smallSignalAc

def Stimulus.pulse? (stimulus : Stimulus) : Option PulseShape :=
  match stimulus.body with
  | .pulseTrain _ _ _ pulse => some pulse
  | .phaseOffsetPair _ _ _ _ _ pulse _ => some pulse
  | _ => none

inductive BranchSelection where
  | single | reference | offset
  deriving DecidableEq

structure PllConstruction where
  chargePumpGain : ValueSource
  vcoGain : ValueSource
  dividerRatio : ValueSource
  r1 : ValueSource
  c1 : ValueSource
  r2 : ValueSource
  c2 : ValueSource
  deriving DecidableEq

inductive ProbeBody where
  | dutPortVoltage (port referencePort : String)
  | dutPortCurrent (port : String) (intoDut : Bool)
  | dutInternalNode (node referencePort : String)
  | stimulusBranchCurrent (stimulusId : Id) (branch : BranchSelection) (deliveredByStimulus : Bool)
  | pllLoopGain (injectionStimulusId responseProbeId : Id) (construction : PllConstruction)
  deriving DecidableEq

structure Probe where
  id : Id
  body : ProbeBody
  deriving DecidableEq

def Probe.unit (probe : Probe) : PlanUnit :=
  match probe.body with
  | .dutPortVoltage .. => .V
  | .dutPortCurrent .. => .A
  | .dutInternalNode .. => .V
  | .stimulusBranchCurrent .. => .A
  | .pllLoopGain .. => .one

inductive CrossingDirection where
  | rising | falling | either
  deriving DecidableEq

inductive ChargeQuantity where
  | deliveredCharge | sourceCharge
  deriving DecidableEq

inductive Normalization where
  | none
  | pulseCount (stimulusId : Id) (count : ℕ)
  deriving DecidableEq

inductive MeasurementBody where
  | integrate (quantity : ChargeQuantity) (probeId : Id) (window : Window)
      (normalization : Normalization)
  | linearFit (inputId : Id) (window : Window) (minimumSamples : ℕ)
  | crossing (inputId : Id) (threshold : ThresholdValue) (direction : CrossingDirection)
      (occurrence : ℕ)
  | sign (inputId : Id) (zeroTolerance : Quantity)
  | curve (probeId : Id)
  | maxAbs (inputId : Id)
  | mismatchFraction (actualId referenceId : Id) (floor : Quantity)
  | complianceInterval (inputId : Id) (lower upper : Quantity)
  | loopTransfer (probeId : Id)
  | unityFrequency (inputId : Id)
  | phaseMargin (inputId unityFrequencyId : Id)
  deriving DecidableEq

def MeasurementBody.constUnit : MeasurementBody → Option PlanUnit
  | .integrate .. => some .C
  | .sign .. => some .one
  | .mismatchFraction .. => some .one
  | .loopTransfer .. => some .one
  | .unityFrequency .. => some .Hz
  | .phaseMargin .. => some .deg
  | _ => none

structure Measurement where
  id : Id
  unit : PlanUnit
  body : MeasurementBody
  unit_const : ∀ fixed ∈ body.constUnit, unit = fixed := by decide
  deriving DecidableEq

inductive MeasurementKind where
  | integrate | linearFit | crossing | sign | curve | maxAbs | mismatchFraction
  | complianceInterval | loopTransfer | unityFrequency | phaseMargin
  deriving DecidableEq

def MeasurementKind.symbol : MeasurementKind → String
  | .integrate => "integrate"
  | .linearFit => "linear_fit"
  | .crossing => "crossing"
  | .sign => "sign"
  | .curve => "curve"
  | .maxAbs => "max_abs"
  | .mismatchFraction => "mismatch_fraction"
  | .complianceInterval => "compliance_interval"
  | .loopTransfer => "loop_transfer"
  | .unityFrequency => "unity_frequency"
  | .phaseMargin => "negative_feedback_phase_margin"

def Measurement.kind (measurement : Measurement) : MeasurementKind :=
  match measurement.body with
  | .integrate .. => .integrate
  | .linearFit .. => .linearFit
  | .crossing .. => .crossing
  | .sign .. => .sign
  | .curve .. => .curve
  | .maxAbs .. => .maxAbs
  | .mismatchFraction .. => .mismatchFraction
  | .complianceInterval .. => .complianceInterval
  | .loopTransfer .. => .loopTransfer
  | .unityFrequency .. => .unityFrequency
  | .phaseMargin .. => .phaseMargin

def MeasurementBody.parents : MeasurementBody → List (String × Id)
  | .linearFit inputId .. => [("input_measurement_id", inputId)]
  | .crossing inputId .. => [("input_measurement_id", inputId)]
  | .sign inputId .. => [("input_measurement_id", inputId)]
  | .maxAbs inputId => [("input_measurement_id", inputId)]
  | .mismatchFraction actualId referenceId _ =>
      [("actual_measurement_id", actualId), ("reference_measurement_id", referenceId)]
  | .complianceInterval inputId .. => [("input_measurement_id", inputId)]
  | .unityFrequency inputId => [("input_measurement_id", inputId)]
  | .phaseMargin inputId unityFrequencyId =>
      [("input_measurement_id", inputId), ("unity_frequency_measurement_id", unityFrequencyId)]
  | .integrate .. | .curve .. | .loopTransfer .. => []

def MeasurementBody.probeId? : MeasurementBody → Option Id
  | .integrate _ probeId .. => some probeId
  | .curve probeId => some probeId
  | .loopTransfer probeId => some probeId
  | _ => none

inductive InvalidReason where
  | fitQuality | notSettled | nonMonotone | ambiguousZeroCrossing | nonFinite
  | thresholdViolation | crossingCount | pulseCount | noUnityCrossing
  deriving DecidableEq

def InvalidReason.symbol : InvalidReason → String
  | .fitQuality => "fit_quality"
  | .notSettled => "not_settled"
  | .nonMonotone => "non_monotone"
  | .ambiguousZeroCrossing => "ambiguous_zero_crossing"
  | .nonFinite => "non_finite"
  | .thresholdViolation => "threshold_violation"
  | .crossingCount => "crossing_count"
  | .pulseCount => "pulse_count"
  | .noUnityCrossing => "no_unity_crossing"

inductive Comparison where
  | lt | lte | gt | gte | absLte
  deriving DecidableEq

/-- The body of a point validity rule; `settling_delta` names exactly two measurements. -/
inductive ValidityBody where
  | r2 (measurementId : Id) (minimum : ℚ)
  | settlingDelta (first second : Id) (maximum : Quantity)
  | monotonicity (measurementId : Id) (increasing : Bool) (tolerance : Quantity)
  | singleSignChange (measurementId : Id) (zeroTolerance : Quantity)
  | finite (measurementIds : List Id)
  | threshold (measurementId : Id) (comparison : Comparison) (value : ThresholdValue)
  | crossings (measurementId : Id) (threshold : ThresholdValue) (direction : CrossingDirection)
      (minimumCount maximumCount : ℕ)
  | pulseCount (stimulusId : Id) (minimumCount maximumCount : ℕ)
  | unityCrossing (measurementId : Id) (minimumCount maximumCount : ℕ)
  deriving DecidableEq

structure ValidityRule where
  id : Id
  body : ValidityBody
  reason : InvalidReason
  deriving DecidableEq

def ValidityBody.symbol : ValidityBody → String
  | .r2 .. => "r2"
  | .settlingDelta .. => "settling_delta"
  | .monotonicity .. => "monotonicity"
  | .singleSignChange .. => "single_sign_change"
  | .finite .. => "finite"
  | .threshold .. => "threshold"
  | .crossings .. => "crossings"
  | .pulseCount .. => "pulse_count"
  | .unityCrossing .. => "unity_crossing"

/-- The body of a stage validity rule; the schema has no pulse or unity counts here. -/
inductive StageValidityBody where
  | r2 (reductionId : Id) (minimum : ℚ)
  | settlingDelta (first second : Id) (maximum : Quantity)
  | monotonicity (reductionId : Id) (increasing : Bool) (tolerance : Quantity)
  | singleSignChange (reductionId : Id) (zeroTolerance : Quantity)
  | finite (reductionIds : List Id)
  | threshold (reductionId : Id) (comparison : Comparison) (value : ThresholdValue)
  | crossings (reductionId : Id) (threshold : ThresholdValue) (direction : CrossingDirection)
      (minimumCount maximumCount : ℕ)
  deriving DecidableEq

structure StageValidityRule where
  id : Id
  body : StageValidityBody
  reason : InvalidReason
  deriving DecidableEq

inductive InitialNode where
  | port | internalNode
  deriving DecidableEq

structure InitialVoltage where
  kind : InitialNode
  name : String
  value : ℚ
  deriving DecidableEq

inductive StatePolicy where
  | fresh (initialNodeVoltages : List InitialVoltage)
  | carryover (stageId pointId : Id)
  deriving DecidableEq

inductive SettlePolicy where
  | operatingPoint
  | fixedTime (duration : ℚ)
  | untilDelta (probeId : Id) (tolerance : Quantity) (holdFor maximum : ℚ)
  deriving DecidableEq

inductive Analysis where
  | dcSweep (sourceStimulusId : Id) (start stop step : ValueSource)
  | pulseTrainTransient (stimulusId : Id) (step stop : ValueSource)
  | phaseOffsetPairTransient (stimulusId : Id) (step stop : ValueSource)
  | linearAc (stimulusId : Id) (pointsPerDecade : ℕ) (start stop : ValueSource)
  deriving DecidableEq

def Analysis.symbol : Analysis → String
  | .dcSweep .. => "dc_sweep"
  | .pulseTrainTransient .. => "pulse_train_transient"
  | .phaseOffsetPairTransient .. => "phase_offset_pair_transient"
  | .linearAc .. => "linear_ac"

def Analysis.stimulusId : Analysis → Id
  | .dcSweep sourceStimulusId .. => sourceStimulusId
  | .pulseTrainTransient stimulusId .. => stimulusId
  | .phaseOffsetPairTransient stimulusId .. => stimulusId
  | .linearAc stimulusId .. => stimulusId

def Analysis.axisUnit : Analysis → PlanUnit
  | .dcSweep .. => .V
  | .pulseTrainTransient .. => .s
  | .phaseOffsetPairTransient .. => .s
  | .linearAc .. => .Hz

structure ConditionParameter where
  name : Id
  value : ValueSource
  deriving DecidableEq

structure Condition where
  corner : Id
  temperature : ℚ
  parameters : List ConditionParameter
  deriving DecidableEq

structure ConditionPoint where
  id : Id
  condition : Condition
  statePolicy : StatePolicy
  settlePolicy : SettlePolicy
  activeStimulusIds : List Id
  analysis : Analysis
  measurements : List Measurement
  validityRules : List ValidityRule
  deriving DecidableEq

structure PointSource where
  pointId : Id
  measurementId : Id
  deriving DecidableEq

structure ArrayItem where
  source : PointSource
  conditionValues : List (Id × Quantity)
  deriving DecidableEq

inductive SampleAxis where
  | quantity (quantity : Quantity)
  | conditionParameter (name : Id) (unit : PlanUnit)
  deriving DecidableEq

def SampleAxis.unit : SampleAxis → PlanUnit
  | .quantity literal => literal.unit
  | .conditionParameter _ unit => unit

structure CurveSample where
  x : SampleAxis
  source : PointSource
  deriving DecidableEq

inductive ReductionComponent where
  | value | slope | intercept | crossing | r2 | lower | upper | span
  deriving DecidableEq

def ReductionComponent.symbol : ReductionComponent → String
  | .value => "value"
  | .slope => "slope"
  | .intercept => "intercept"
  | .crossing => "crossing"
  | .r2 => "r2"
  | .lower => "lower"
  | .upper => "upper"
  | .span => "span"

inductive ReductionOperand where
  | literal (quantity : Quantity)
  | reduction (reductionId : Id) (component : ReductionComponent) (unit : PlanUnit)
  deriving DecidableEq

def ReductionOperand.unit : ReductionOperand → PlanUnit
  | .literal quantity => quantity.unit
  | .reduction _ _ unit => unit

inductive ArithmeticOperator where
  | add | subtract | multiply | divide | absolute | maxAbs
  deriving DecidableEq

def ArithmeticOperator.symbol : ArithmeticOperator → String
  | .add => "add"
  | .subtract => "subtract"
  | .multiply => "multiply"
  | .divide => "divide"
  | .absolute => "absolute"
  | .maxAbs => "max_abs"

inductive ArraySelector where
  | index (index : ℕ)
  | conditionValue (name : Id) (equals : Quantity)
  deriving DecidableEq

structure ReductionWindow where
  start : Quantity
  stop : Quantity
  deriving DecidableEq

inductive ReductionBody where
  | collectArray (items : List ArrayItem)
  | collectCurve (axisUnit : PlanUnit) (samples : List CurveSample)
  | linearFit (inputId : Id) (window : ReductionWindow) (minimumSamples : ℕ)
  | crossing (inputId : Id) (threshold : ThresholdValue) (direction : CrossingDirection)
      (occurrence : ℕ)
  | arithmetic (operator : ArithmeticOperator) (operands : List ReductionOperand)
  | select (inputId : Id) (selector : ArraySelector)
  | complianceIntersection (positiveId negativeId : Id)
      (positiveReference negativeReference : ReductionOperand) (relativeTolerance : ℚ)
  deriving DecidableEq

structure Reduction where
  id : Id
  unit : PlanUnit
  body : ReductionBody
  deriving DecidableEq

inductive ReductionKind where
  | collectArray | collectCurve | linearFit | crossing | arithmetic | select
  | complianceIntersection
  deriving DecidableEq

def ReductionKind.symbol : ReductionKind → String
  | .collectArray => "collect_array"
  | .collectCurve => "collect_curve"
  | .linearFit => "linear_fit"
  | .crossing => "crossing"
  | .arithmetic => "arithmetic"
  | .select => "select"
  | .complianceIntersection => "compliance_intersection"

def Reduction.kind (reduction : Reduction) : ReductionKind :=
  match reduction.body with
  | .collectArray .. => .collectArray
  | .collectCurve .. => .collectCurve
  | .linearFit .. => .linearFit
  | .crossing .. => .crossing
  | .arithmetic .. => .arithmetic
  | .select .. => .select
  | .complianceIntersection .. => .complianceIntersection

structure StageInput where
  id : Id
  unit : PlanUnit
  deriving DecidableEq

structure Stage where
  id : Id
  dependsOn : List Id
  inputs : List StageInput
  points : List ConditionPoint
  reductions : List Reduction
  validityRules : List StageValidityRule
  deriving DecidableEq

inductive BindingComponent where
  | value | slope | intercept | crossing
  deriving DecidableEq

def BindingComponent.symbol : BindingComponent → String
  | .value => "value"
  | .slope => "slope"
  | .intercept => "intercept"
  | .crossing => "crossing"

inductive BindingSource where
  | measurement (stageId pointId measurementId : Id) (component : BindingComponent)
  | reduction (stageId reductionId : Id) (component : ReductionComponent)
  deriving DecidableEq

def BindingSource.stageId : BindingSource → Id
  | .measurement stageId .. => stageId
  | .reduction stageId .. => stageId

structure BindingTarget where
  stageId : Id
  inputId : Id
  deriving DecidableEq

inductive BindingTransform where
  | identity
  | scale (factor : ℚ)
  deriving DecidableEq

structure Binding where
  id : Id
  source : BindingSource
  target : BindingTarget
  unit : PlanUnit
  transform : BindingTransform
  deriving DecidableEq

inductive ObservableSource where
  | measurement (stageId pointId measurementId : Id)
  | validity (stageId pointId ruleId : Id)
  | reduction (stageId reductionId : Id) (component : ReductionComponent)
  | stageValidity (stageId ruleId : Id)
  deriving DecidableEq

inductive ObservableShape where
  | scalar | array | curve | fit | interval | verdict
  deriving DecidableEq

def ObservableShape.symbol : ObservableShape → String
  | .scalar => "scalar"
  | .array => "array"
  | .curve => "curve"
  | .fit => "fit"
  | .interval => "interval"
  | .verdict => "verdict"

structure Observable where
  id : Id
  source : ObservableSource
  unit : PlanUnit
  shape : ObservableShape
  deriving DecidableEq

structure PlanDocument where
  id : Id
  dut : DutBinding
  supplies : List Supply
  cornerBindings : List CornerBinding
  stimuli : List Stimulus
  probes : List Probe
  stages : List Stage
  bindings : List Binding
  observables : List Observable
  deriving DecidableEq

end OpenADA.Plan
