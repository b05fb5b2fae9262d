import OpenADA.Plan.Document

/-! The bounds the published plan schema puts on a decoded document beyond its field types:
patterns, lengths, ranges and unique items. The patterns are searched by Python's `re`, whose
`$` also matches before one final newline. -/
namespace OpenADA.Plan

def isLower (c : Char) : Bool := 'a' ≤ c && c ≤ 'z'

def isUpper (c : Char) : Bool := 'A' ≤ c && c ≤ 'Z'

def isDigit (c : Char) : Bool := '0' ≤ c && c ≤ '9'

def dropFinalNewline (text : List Char) : List Char :=
  if text.getLast? = some '\n' then text.dropLast else text

def matchesName (head tail : Char → Bool) (text : String) : Bool :=
  match dropFinalNewline text.toList with
  | [] => false
  | first :: rest => head first && decide (rest.length ≤ 63) && rest.all tail

/-- The pattern of `$defs/id`. -/
def isId (text : String) : Bool :=
  matchesName isLower (fun c => isLower c || isDigit c || c == '_') text

/-- The pattern of `$defs/spiceName`. -/
def isSpiceName (text : String) : Bool :=
  matchesName (fun c => isLower c || isUpper c)
    (fun c => isLower c || isUpper c || isDigit c || c == '_') text

def isNetName (text : String) : Bool := decide (text = "0") || isSpiceName text

def isHexDigit (c : Char) : Bool := isDigit c || ('a' ≤ c && c ≤ 'f')

/-- The pattern of `$defs/sha256`. -/
def isSha256 (text : String) : Bool :=
  let digits := dropFinalNewline text.toList
  decide (digits.length = 64) && digits.all isHexDigit

/-- The range of `$defs/boundedNumber`. -/
def isBounded (value : ℚ) : Bool :=
  decide (-((10 ^ 300 : ℕ) : ℚ) ≤ value) && decide (value ≤ ((10 ^ 300 : ℕ) : ℚ))

def isFraction (value : ℚ) : Bool := decide (0 ≤ value) && decide (value ≤ 1)

def isTemperature (value : ℚ) : Bool := decide (-273.15 < value) && decide (value ≤ 1000)

def within (low high value : ℕ) : Bool := decide (low ≤ value) && decide (value ≤ high)

def distinct {α : Type} [DecidableEq α] (items : List α) : Bool := decide items.Nodup

def quantityOk (quantity : Quantity) : Bool := isBounded quantity.value

def valueSourceOk : ValueSource → Bool
  | .literal quantity => quantityOk quantity
  | .input inputId _ => isId inputId
  | .affine inputId factor offset _ => isId inputId && isBounded factor && quantityOk offset

def levelOk (level : ScaledLevel) : Bool := isId level.supplyId && isFraction level.fraction

def thresholdOk : ThresholdValue → Bool
  | .quantity literal => quantityOk literal
  | .supplyScaled level => levelOk level

def windowOk (window : Window) : Bool := valueSourceOk window.start && valueSourceOk window.stop

def isLocatorPart (part : List Char) : Bool :=
  decide (part ≠ []) && part.all fun c =>
    isLower c || isUpper c || isDigit c || c == '.' || c == '_' || c == '-'

def portOk (port : DutPort) : Bool :=
  isSpiceName port.name && decide (port.internalNodes.length ≤ 64) &&
    distinct port.internalNodes && port.internalNodes.all isSpiceName

def dutOk (dut : DutBinding) : Bool :=
  within 2 4096 dut.artifact.toList.length &&
  (match (dropFinalNewline dut.artifact.toList).splitOn '/' with
  | [] :: parts => decide (parts ≠ []) && parts.all isLocatorPart
  | _ => false) &&
  isSha256 dut.sha256 && isId dut.namespaceId && isSpiceName dut.top &&
  within 1 128 dut.ports.length && dut.ports.all portOk &&
  within 1 128 dut.connections.length && distinct (dut.connections.map Prod.fst) &&
  dut.connections.all fun entry => isSpiceName entry.1 && isNetName entry.2

def supplyOk (supply : Supply) : Bool :=
  isId supply.id && isNetName supply.positive && isNetName supply.negative && isId supply.valueId

def cornerOk (corner : CornerBinding) : Bool :=
  isId corner.id && isTemperature corner.temperature && within 1 128 corner.values.length &&
  corner.values.all fun entry => isId entry.id && quantityOk entry.value

def pulseOk (pulse : PulseShape) : Bool :=
  levelOk pulse.lowLevel && levelOk pulse.highLevel &&
  [pulse.delay, pulse.riseTime, pulse.fallTime, pulse.pulseWidth, pulse.period].all isBounded &&
  within 1 1000000 pulse.count

def stimulusOk (stimulus : Stimulus) : Bool :=
  isId stimulus.id && match stimulus.body with
  | .dcState supplyId targetPort _ level =>
    isId supplyId && isSpiceName targetPort && levelOk level
  | .pulseTrain supplyId targetPort _ pulse =>
    isId supplyId && isSpiceName targetPort && pulseOk pulse
  | .phaseOffsetPair supplyId referencePort offsetPort _ _ pulse phaseOffset =>
    isId supplyId && isSpiceName referencePort && isSpiceName offsetPort && pulseOk pulse &&
      valueSourceOk phaseOffset
  | .smallSignalAc targetPort referencePort _ dcBias magnitude phase =>
    isSpiceName targetPort && isSpiceName referencePort && isBounded dcBias &&
      isBounded magnitude && decide (0 < magnitude) && decide (-360 ≤ phase) &&
      decide (phase ≤ 360)

def constructionOk (construction : PllConstruction) : Bool :=
  [construction.chargePumpGain, construction.vcoGain, construction.dividerRatio,
    construction.r1, construction.c1, construction.r2, construction.c2].all valueSourceOk

def probeOk (probe : Probe) : Bool :=
  isId probe.id && match probe.body with
  | .dutPortVoltage port referencePort => isSpiceName port && isSpiceName referencePort
  | .dutPortCurrent port _ => isSpiceName port
  | .dutInternalNode node referencePort => isSpiceName node && isSpiceName referencePort
  | .stimulusBranchCurrent stimulusId .. => isId stimulusId
  | .pllLoopGain injectionStimulusId responseProbeId construction =>
    isId injectionStimulusId && isId responseProbeId && constructionOk construction

def normalizationOk : Normalization → Bool
  | .none => true
  | .pulseCount stimulusId count => isId stimulusId && within 1 1000000 count

def measurementOk (measurement : Measurement) : Bool :=
  isId measurement.id && match measurement.body with
  | .integrate _ probeId window normalization =>
    isId probeId && windowOk window && normalizationOk normalization
  | .linearFit inputId window minimumSamples =>
    isId inputId && windowOk window && within 2 1000000 minimumSamples
  | .crossing inputId threshold _ occurrence =>
    isId inputId && thresholdOk threshold && within 1 1000000 occurrence
  | .sign inputId zeroTolerance => isId inputId && quantityOk zeroTolerance
  | .curve probeId => isId probeId
  | .maxAbs inputId => isId inputId
  | .mismatchFraction actualId referenceId floor =>
    isId actualId && isId referenceId && quantityOk floor
  | .complianceInterval inputId lower upper =>
    isId inputId && quantityOk lower && quantityOk upper
  | .loopTransfer probeId => isId probeId
  | .unityFrequency inputId => isId inputId
  | .phaseMargin inputId unityFrequencyId => isId inputId && isId unityFrequencyId

def countsOk (low high minimumCount maximumCount : ℕ) : Bool :=
  within low high minimumCount && within low high maximumCount

def validityRuleOk (rule : ValidityRule) : Bool :=
  isId rule.id && match rule.body with
  | .r2 measurementId minimum => isId measurementId && isFraction minimum
  | .settlingDelta first second maximum =>
    isId first && isId second && decide (first ≠ second) && quantityOk maximum
  | .monotonicity measurementId _ tolerance => isId measurementId && quantityOk tolerance
  | .singleSignChange measurementId zeroTolerance =>
    isId measurementId && quantityOk zeroTolerance
  | .finite measurementIds =>
    within 1 128 measurementIds.length && distinct measurementIds && measurementIds.all isId
  | .threshold measurementId _ value => isId measurementId && thresholdOk value
  | .crossings measurementId threshold _ minimumCount maximumCount =>
    isId measurementId && thresholdOk threshold && countsOk 0 1000000 minimumCount maximumCount
  | .pulseCount stimulusId minimumCount maximumCount =>
    isId stimulusId && countsOk 1 1000000 minimumCount maximumCount
  | .unityCrossing measurementId minimumCount maximumCount =>
    isId measurementId && countsOk 1 128 minimumCount maximumCount

def stageValidityRuleOk (rule : StageValidityRule) : Bool :=
  isId rule.id && match rule.body with
  | .r2 reductionId minimum => isId reductionId && isFraction minimum
  | .settlingDelta first second maximum =>
    isId first && isId second && decide (first ≠ second) && quantityOk maximum
  | .monotonicity reductionId _ tolerance => isId reductionId && quantityOk tolerance
  | .singleSignChange reductionId zeroTolerance => isId reductionId && quantityOk zeroTolerance
  | .finite reductionIds =>
    within 1 128 reductionIds.length && distinct reductionIds && reductionIds.all isId
  | .threshold reductionId _ value => isId reductionId && thresholdOk value
  | .crossings reductionId threshold _ minimumCount maximumCount =>
    isId reductionId && thresholdOk threshold && countsOk 0 1000000 minimumCount maximumCount

def initialVoltageOk (initial : InitialVoltage) : Bool :=
  isSpiceName initial.name && isBounded initial.value

def statePolicyOk : StatePolicy → Bool
  | .fresh initial => decide (initial.length ≤ 128) && initial.all initialVoltageOk
  | .carryover stageId pointId => isId stageId && isId pointId

def settlePolicyOk : SettlePolicy → Bool
  | .operatingPoint => true
  | .fixedTime duration => isBounded duration
  | .untilDelta probeId tolerance holdFor maximum =>
    isId probeId && quantityOk tolerance && isBounded holdFor && isBounded maximum

def analysisOk : Analysis → Bool
  | .dcSweep sourceStimulusId start stop step =>
    isId sourceStimulusId && [start, stop, step].all valueSourceOk
  | .pulseTrainTransient stimulusId step stop =>
    isId stimulusId && [step, stop].all valueSourceOk
  | .phaseOffsetPairTransient stimulusId step stop =>
    isId stimulusId && [step, stop].all valueSourceOk
  | .linearAc stimulusId pointsPerDecade start stop =>
    isId stimulusId && within 1 10000 pointsPerDecade && [start, stop].all valueSourceOk

def conditionOk (condition : Condition) : Bool :=
  isId condition.corner && isTemperature condition.temperature &&
  decide (condition.parameters.length ≤ 128) &&
  condition.parameters.all fun parameter => isId parameter.name && valueSourceOk parameter.value

def pointOk (point : ConditionPoint) : Bool :=
  isId point.id && conditionOk point.condition && statePolicyOk point.statePolicy &&
  settlePolicyOk point.settlePolicy && within 1 128 point.activeStimulusIds.length &&
  distinct point.activeStimulusIds && point.activeStimulusIds.all isId &&
  analysisOk point.analysis && within 1 256 point.measurements.length &&
  point.measurements.all measurementOk && within 1 128 point.validityRules.length &&
  point.validityRules.all validityRuleOk

def pointSourceOk (source : PointSource) : Bool := isId source.pointId && isId source.measurementId

def arrayItemOk (item : ArrayItem) : Bool :=
  pointSourceOk item.source && decide (item.conditionValues.length ≤ 32) &&
  item.conditionValues.all fun entry => isId entry.1 && quantityOk entry.2

def curveSampleOk (sample : CurveSample) : Bool :=
  pointSourceOk sample.source && match sample.x with
  | .quantity literal => quantityOk literal
  | .conditionParameter name _ => isId name

def operandOk : ReductionOperand → Bool
  | .literal quantity => quantityOk quantity
  | .reduction reductionId .. => isId reductionId

def selectorOk : ArraySelector → Bool
  | .index index => decide (index ≤ 9999)
  | .conditionValue name equals => isId name && quantityOk equals

def reductionOk (reduction : Reduction) : Bool :=
  isId reduction.id && match reduction.body with
  | .collectArray items => within 1 10000 items.length && items.all arrayItemOk
  | .collectCurve _ samples => within 2 10000 samples.length && samples.all curveSampleOk
  | .linearFit inputId window minimumSamples =>
    isId inputId && quantityOk window.start && quantityOk window.stop &&
      within 2 1000000 minimumSamples
  | .crossing inputId threshold _ occurrence =>
    isId inputId && thresholdOk threshold && within 1 1000000 occurrence
  | .arithmetic _ operands => within 1 8 operands.length && operands.all operandOk
  | .select inputId selector => isId inputId && selectorOk selector
  | .complianceIntersection positiveId negativeId positiveReference negativeReference tolerance =>
    isId positiveId && isId negativeId && operandOk positiveReference &&
      operandOk negativeReference && isFraction tolerance && decide (0 < tolerance)

def stageOk (stage : Stage) : Bool :=
  isId stage.id && decide (stage.dependsOn.length ≤ 31) && distinct stage.dependsOn &&
  stage.dependsOn.all isId && decide (stage.inputs.length ≤ 128) &&
  (stage.inputs.all fun entry => isId entry.id) && within 1 10000 stage.points.length &&
  stage.points.all pointOk && decide (stage.reductions.length ≤ 512) &&
  stage.reductions.all reductionOk && decide (stage.validityRules.length ≤ 128) &&
  stage.validityRules.all stageValidityRuleOk

def bindingSourceOk : BindingSource → Bool
  | .measurement stageId pointId measurementId _ =>
    isId stageId && isId pointId && isId measurementId
  | .reduction stageId reductionId _ => isId stageId && isId reductionId

def transformOk : BindingTransform → Bool
  | .identity => true
  | .scale factor => isBounded factor

def bindingOk (binding : Binding) : Bool :=
  isId binding.id && bindingSourceOk binding.source && isId binding.target.stageId &&
  isId binding.target.inputId && transformOk binding.transform

def observableSourceOk : ObservableSource → Bool
  | .measurement stageId pointId measurementId =>
    isId stageId && isId pointId && isId measurementId
  | .validity stageId pointId ruleId => isId stageId && isId pointId && isId ruleId
  | .reduction stageId reductionId _ => isId stageId && isId reductionId
  | .stageValidity stageId ruleId => isId stageId && isId ruleId

def schemaOk (plan : PlanDocument) : Bool :=
  isId plan.id && dutOk plan.dut &&
  within 1 32 plan.supplies.length && plan.supplies.all supplyOk &&
  within 1 128 plan.cornerBindings.length && plan.cornerBindings.all cornerOk &&
  within 1 128 plan.stimuli.length && plan.stimuli.all stimulusOk &&
  within 1 128 plan.probes.length && plan.probes.all probeOk &&
  within 1 32 plan.stages.length && plan.stages.all stageOk &&
  decide (plan.bindings.length ≤ 256) && plan.bindings.all bindingOk &&
  within 1 256 plan.observables.length &&
  plan.observables.all fun observable => isId observable.id && observableSourceOk observable.source

end OpenADA.Plan
