import OpenADA.Plan.Measurements

/-! Validation of the reductions of one stage and of its stage validity rules. -/
namespace OpenADA.Plan

abbrev ReductionIndex := InsertionDict Id Reduction

/-- `_reduction_component_unit`. -/
def reductionComponentUnit (reduction : Reduction) (component : ReductionComponent)
    (reductions : ReductionIndex) : Option PlanUnit :=
  match component with
  | .lower | .upper | .span =>
    if reduction.kind = .complianceIntersection then some reduction.unit else none
  | .value => some reduction.unit
  | .slope => if reduction.kind = .linearFit then some reduction.unit else none
  | .crossing => if reduction.kind = .crossing then some reduction.unit else none
  | .r2 => if reduction.kind = .linearFit then some .one else none
  | .intercept =>
    match reduction.body with
    | .linearFit inputId .. => (reductions.get? inputId).map Reduction.unit
    | _ => none

/-- `_reduction_shape`. -/
def reductionShape (reduction : Reduction) (component : ReductionComponent) : ObservableShape :=
  if component ≠ .value then .scalar
  else match reduction.kind with
    | .collectArray => .array
    | .collectCurve => .curve
    | .linearFit => .fit
    | .complianceIntersection => .interval
    | _ => .scalar

/-- What the reduction checks of one stage read besides the earlier reductions. -/
structure StageContext where
  stageId : Id
  points : List ConditionPoint
  measurements : InsertionDict (Id × Id × Id) Measurement
  supplies : InsertionDict Id Supply

def StageContext.point? (ctx : StageContext) (pointId : Id) : Option ConditionPoint :=
  (InsertionDict.ofList (ctx.points.map fun point => (point.id, point))).get? pointId

def StageContext.measurement? (ctx : StageContext) (source : PointSource) : Option Measurement :=
  ctx.measurements.get? (ctx.stageId, source.pointId, source.measurementId)

/-- The nested `source_measurement` of `_validate_reductions`. -/
def sourceMeasurementIssues (ctx : StageContext) (path : String) (source : PointSource) :
    List Issue :=
  match ctx.measurement? source with
  | none => [⟨"testbench_plan.reduction.source_unknown", path,
      "reduction source measurement does not exist in this stage"⟩]
  | some item =>
    issueIf (decide (item.kind ∈ [MeasurementKind.curve, .linearFit, .complianceInterval]))
      "testbench_plan.reduction.source_incompatible" path
      "collection sources must be scalar point measurements"

def collectedSourceIssues (ctx : StageContext) (path sourcePath label seenMessage : String)
    (unit : PlanUnit) (seen : List PointSource) (source : PointSource) : List Issue :=
  issueIf (decide (source ∈ seen)) "testbench_plan.reduction.source_duplicate" sourcePath
    seenMessage ++
  sourceMeasurementIssues ctx sourcePath source ++
  (ctx.measurement? source).toList.flatMap fun item =>
    issueIf (decide (item.unit ≠ unit)) "testbench_plan.unit.mismatch" s!"{path}/unit"
      s!"{label} and reduction units must match exactly"

def arrayItemStep (ctx : StageContext) (path : String) (unit : PlanUnit)
    (seen : List PointSource) (index : ℕ) (item : ArrayItem) : List PointSource × List Issue :=
  (item.source :: seen,
    collectedSourceIssues ctx path s!"{path}/items/{index}/source" "array item"
      "ordered array sources must be unique" unit seen item.source)

def sampleAxisIssues (ctx : StageContext) (samplePath : String) (sample : CurveSample) :
    List Issue :=
  match sample.x with
  | .quantity _ => []
  | .conditionParameter name unit =>
    match (ctx.point? sample.source.pointId).bind fun point =>
        point.condition.parameters.find? fun parameter => decide (parameter.name = name) with
    | none => [⟨"testbench_plan.reduction.axis_unknown", s!"{samplePath}/x/name",
        "sample point does not declare this condition parameter"⟩]
    | some parameter =>
      issueIf (decide (parameter.value.unit ≠ unit)) "testbench_plan.unit.mismatch"
        s!"{samplePath}/x/unit" "condition parameter and sample axis units differ"

def curveSampleStep (ctx : StageContext) (path : String) (unit axisUnit : PlanUnit)
    (seen : List PointSource) (index : ℕ) (sample : CurveSample) :
    List PointSource × List Issue :=
  let samplePath := s!"{path}/samples/{index}"
  (sample.source :: seen,
    collectedSourceIssues ctx path s!"{samplePath}/source" "curve sample"
      "curve sample sources must be unique" unit seen sample.source ++
    issueIf (decide (sample.x.unit ≠ axisUnit)) "testbench_plan.unit.mismatch"
      s!"{samplePath}/x/unit" "curve sample axis must match axis_unit" ++
    sampleAxisIssues ctx samplePath sample)

def Reduction.axisUnit? (reduction : Reduction) : Option PlanUnit :=
  match reduction.body with
  | .collectCurve axisUnit _ => some axisUnit
  | _ => none

def Reduction.items? (reduction : Reduction) : Option (List ArrayItem) :=
  match reduction.body with
  | .collectArray items => some items
  | _ => none

/-- The parent of a fit, crossing or selection, which must be an earlier collection. -/
def collectionParentIssues (byId : ReductionIndex) (path : String) (kind : ReductionKind)
    (inputId : Id) : List Issue :=
  match byId.get? inputId with
  | none => [⟨"testbench_plan.reduction.parent_unknown", s!"{path}/input_reduction_id",
      "reduction parent must be declared earlier in this stage"⟩]
  | some parent =>
    if kind = .select then
      issueIf (decide (parent.kind ≠ .collectArray)) "testbench_plan.reduction.parent_incompatible"
        s!"{path}/input_reduction_id" "select requires a collect_array parent"
    else
      issueIf (decide (parent.kind ≠ .collectCurve)) "testbench_plan.reduction.parent_incompatible"
        s!"{path}/input_reduction_id" s!"{kind.symbol} requires a collect_curve parent"

def reductionFitIssues (path : String) (unit : PlanUnit) (window : ReductionWindow)
    (parentUnit axisUnit : PlanUnit) : List Issue :=
  issueIf (decide (divideUnits parentUnit axisUnit ≠ some unit)) "testbench_plan.unit.mismatch"
    s!"{path}/unit" "linear-fit unit is not the closed y/axis unit" ++
  [("start", window.start), ("stop", window.stop)].flatMap fun endpoint =>
    issueIf (decide (endpoint.2.unit ≠ axisUnit)) "testbench_plan.unit.mismatch"
      s!"{path}/window/{endpoint.1}/unit" "fit window must use the curve axis unit"

def selectorIssues (path : String) (items : List ArrayItem) : ArraySelector → List Issue
  | .index index =>
    issueIf (decide (items.length ≤ index)) "testbench_plan.reduction.selector_unknown"
      s!"{path}/selector/index" "array index is outside the explicit ordered item list"
  | .conditionValue name equals =>
    let matching := items.filter fun entry =>
      entry.conditionValues.any fun condition => decide (condition = (name, equals))
    issueIf (decide (matching.length ≠ 1)) "testbench_plan.reduction.selector_ambiguous"
      s!"{path}/selector" "condition selector must match exactly one explicit array item"

/-- The unit of an operand: a literal's own, or the one its reduction component emits. -/
def operandUnit (byId : ReductionIndex) : ReductionOperand → Option PlanUnit
  | .literal quantity => some quantity.unit
  | .reduction reductionId component _ =>
    (byId.get? reductionId).bind fun parent => reductionComponentUnit parent component byId

def operandIssues (byId : ReductionIndex) (path : String) (index : ℕ)
    (operand : ReductionOperand) : List Issue :=
  match operand, operandUnit byId operand with
  | .literal _, _ => []
  | .reduction .., none => [⟨"testbench_plan.reduction.operand_unknown",
      s!"{path}/operands/{index}",
      "arithmetic operand must name an earlier compatible reduction component"⟩]
  | .reduction _ _ unit, some actual =>
    issueIf (decide (actual ≠ unit)) "testbench_plan.unit.mismatch"
      s!"{path}/operands/{index}/unit" "operand declaration does not match component unit"

def foldOperandUnit (operator : ArithmeticOperator) (result next : Option PlanUnit) :
    Option PlanUnit :=
  match result, next with
  | some unit, some nextUnit =>
    match operator with
    | .add | .subtract => if unit = nextUnit then some unit else none
    | .multiply => multiplyUnits unit nextUnit
    | .divide => divideUnits unit nextUnit
    | .absolute | .maxAbs => some unit
  | _, _ => none

def arithmeticUnit (operator : ArithmeticOperator) : List (Option PlanUnit) → Option PlanUnit
  | [] => none
  | first :: rest => rest.foldl (foldOperandUnit operator) first

def maxAbsOperandIssues (byId : ReductionIndex) (path : String) :
    List ReductionOperand → List Issue
  | [] => []
  | operand :: _ =>
    let collected := match operand with
      | .reduction reductionId .value _ =>
        decide ((byId.get? reductionId).map Reduction.kind = some .collectArray)
      | _ => false
    issueIf (!collected) "testbench_plan.reduction.operand_incompatible" s!"{path}/operands/0"
      "max_abs requires the value component of a collected array"

def arithmeticIssues (byId : ReductionIndex) (path : String) (unit : PlanUnit)
    (operator : ArithmeticOperator) (operands : List ReductionOperand) : List Issue :=
  (operands.mapIdx (operandIssues byId path)).flatten ++
  issueIf (decide (operator = .subtract ∨ operator = .divide) && decide (operands.length ≠ 2))
    "testbench_plan.reduction.arity_invalid" s!"{path}/operands"
    s!"{operator.symbol} requires exactly two operands" ++
  issueIf (decide (operator = .absolute ∨ operator = .maxAbs) && decide (operands.length ≠ 1))
    "testbench_plan.reduction.arity_invalid" s!"{path}/operands"
    s!"{operator.symbol} requires exactly one operand" ++
  (if operator = .maxAbs then maxAbsOperandIssues byId path operands else []) ++
  issueIf (decide (arithmeticUnit operator (operands.map (operandUnit byId)) ≠ some unit))
    "testbench_plan.unit.unsupported_algebra" s!"{path}/unit"
    "declared arithmetic unit is not produced by the closed unit table"

def complianceReferenceIssues (byId : ReductionIndex) (path field : String)
    (positive : Reduction) (reference : ReductionOperand) : List Issue :=
  (match reference, operandUnit byId reference with
  | .literal _, _ => []
  | .reduction .., none => [⟨"testbench_plan.reduction.operand_unknown", s!"{path}/{field}",
      "compliance reference must name an earlier scalar component"⟩]
  | .reduction _ _ unit, some actual =>
    issueIf (decide (actual ≠ unit)) "testbench_plan.unit.mismatch" s!"{path}/{field}/unit"
      "compliance reference component unit mismatch") ++
  issueIf (decide (reference.unit ≠ positive.unit)) "testbench_plan.unit.mismatch"
    s!"{path}/{field}/unit" "each compliance reference must match its curve y unit"

def complianceIntersectionIssues (byId : ReductionIndex) (path : String) (unit : PlanUnit)
    (positiveId negativeId : Id) (positiveReference negativeReference : ReductionOperand) :
    List Issue :=
  (match byId.get? positiveId, byId.get? negativeId with
  | some positive, some negative =>
    match positive.axisUnit?, negative.axisUnit? with
    | some positiveAxis, some negativeAxis =>
      issueIf (decide (positive.unit ≠ negative.unit) || decide (positiveAxis ≠ negativeAxis) ||
          decide (unit ≠ positiveAxis)) "testbench_plan.unit.mismatch" path
        "compliance curves must share y/axis units and emit an axis interval"
    | _, _ => [⟨"testbench_plan.reduction.parent_incompatible", path,
        "compliance intersection requires two earlier collected curves"⟩]
  | _, _ => [⟨"testbench_plan.reduction.parent_incompatible", path,
      "compliance intersection requires two earlier collected curves"⟩]) ++
  (byId.get? positiveId).toList.flatMap fun positive =>
    complianceReferenceIssues byId path "positive_reference" positive positiveReference ++
    complianceReferenceIssues byId path "negative_reference" positive negativeReference

/-- The checks of one reduction against the earlier ones of its stage. A fit or crossing over
a parent that is no collected curve stops at the parent refusal: the source then indexes a
field the parent does not have, so no plan is accepted there. -/
def reductionBodyIssues (ctx : StageContext) (byId : ReductionIndex) (path : String)
    (raw : Reduction) : List Issue :=
  match raw.body with
  | .collectArray items => (Scan.run (arrayItemStep ctx path raw.unit) [] 0 items).2
  | .collectCurve axisUnit samples =>
    (Scan.run (curveSampleStep ctx path raw.unit axisUnit) [] 0 samples).2
  | .linearFit inputId window _ =>
    collectionParentIssues byId path .linearFit inputId ++
    (byId.get? inputId).toList.flatMap fun parent =>
      parent.axisUnit?.toList.flatMap (reductionFitIssues path raw.unit window parent.unit)
  | .crossing inputId threshold .. =>
    collectionParentIssues byId path .crossing inputId ++
    (byId.get? inputId).toList.flatMap fun parent =>
      parent.axisUnit?.toList.flatMap fun axisUnit =>
        issueIf (decide (thresholdUnit threshold ctx.supplies ≠ some parent.unit) ||
            decide (raw.unit ≠ axisUnit)) "testbench_plan.unit.mismatch" path
          "crossing threshold must match y and output must match axis"
  | .select inputId selector =>
    collectionParentIssues byId path .select inputId ++
    (byId.get? inputId).toList.flatMap fun parent =>
      issueIf (decide (raw.unit ≠ parent.unit)) "testbench_plan.unit.mismatch" s!"{path}/unit"
        "selected item must retain the collected-array unit" ++
      parent.items?.toList.flatMap fun items => selectorIssues path items selector
  | .arithmetic operator operands => arithmeticIssues byId path raw.unit operator operands
  | .complianceIntersection positiveId negativeId positiveReference negativeReference _ =>
    complianceIntersectionIssues byId path raw.unit positiveId negativeId positiveReference
      negativeReference

def reductionStep (ctx : StageContext) (stagePath : String) (byId : ReductionIndex)
    (index : ℕ) (raw : Reduction) : ReductionIndex × List Issue :=
  let path := s!"{stagePath}/reductions/{index}"
  if raw.id ∈ byId.keys then
    (byId, [⟨"testbench_plan.id.duplicate", s!"{path}/id", "duplicate reduction id"⟩])
  else
    (byId.set raw.id raw, reductionBodyIssues ctx byId path raw)

/-- `_validate_reductions`. -/
def validateReductions (values : List Reduction) (ctx : StageContext) (stagePath : String) :
    ReductionIndex × List Issue :=
  Scan.run (reductionStep ctx stagePath) .empty 0 values

def StageValidityBody.subjects : StageValidityBody → List Id
  | .r2 reductionId _ => [reductionId]
  | .settlingDelta first second _ => [first, second]
  | .monotonicity reductionId .. => [reductionId]
  | .singleSignChange reductionId _ => [reductionId]
  | .finite reductionIds => reductionIds
  | .threshold reductionId .. => [reductionId]
  | .crossings reductionId .. => [reductionId]

def StageValidityBody.symbol : StageValidityBody → String
  | .r2 .. => "r2"
  | .settlingDelta .. => "settling_delta"
  | .monotonicity .. => "monotonicity"
  | .singleSignChange .. => "single_sign_change"
  | .finite .. => "finite"
  | .threshold .. => "threshold"
  | .crossings .. => "crossings"

def StageValidityBody.quantityUnit (supplies : InsertionDict Id Supply) :
    StageValidityBody → Option (String × Option PlanUnit)
  | .settlingDelta _ _ maximum => some ("maximum", some maximum.unit)
  | .monotonicity _ _ tolerance => some ("tolerance", some tolerance.unit)
  | .singleSignChange _ zeroTolerance => some ("zero_tolerance", some zeroTolerance.unit)
  | .threshold _ _ value => some ("value", thresholdUnit value supplies)
  | .crossings _ level .. => some ("threshold", thresholdUnit level supplies)
  | _ => none

def stageValidityKindIssues (path : String) (body : StageValidityBody) (primary : Reduction) :
    List Issue :=
  match body with
  | .r2 .. =>
    issueIf (decide (primary.kind ≠ .linearFit)) "testbench_plan.validity.reduction_incompatible"
      path "R-squared validity requires a linear_fit reduction"
  | .monotonicity .. | .singleSignChange .. | .crossings .. =>
    issueIf (decide (primary.kind ≠ .collectCurve))
      "testbench_plan.validity.reduction_incompatible" path
      s!"{body.symbol} requires a collect_curve reduction"
  | _ => []

def stageValidityIssues (supplies : InsertionDict Id Supply) (path : String)
    (body : StageValidityBody) (selected : List Reduction) : List Issue :=
  selected.head?.toList.flatMap (fun primary =>
    stageValidityKindIssues path body primary ++
    (body.quantityUnit supplies).toList.flatMap fun quantity =>
      issueIf (decide (quantity.2 ≠ some primary.unit)) "testbench_plan.unit.mismatch"
        s!"{path}/{quantity.1}" "stage validity threshold must match reduction unit") ++
  (match body, selected with
  | .settlingDelta .., [first, second] =>
    issueIf (decide (first.unit ≠ second.unit)) "testbench_plan.unit.mismatch"
      s!"{path}/reduction_ids" "settling comparison reductions must use one exact unit"
  | _, _ => []) ++
  match body with
  | .crossings _ _ _ minimumCount maximumCount =>
    issueIf (decide (maximumCount < minimumCount)) "testbench_plan.validity.range_invalid" path
      "maximum_count must be at least minimum_count"
  | _ => []

def stageValidityStep (byId : ReductionIndex) (supplies : InsertionDict Id Supply)
    (stagePath : String) (output : InsertionDict Id StageValidityRule) (index : ℕ)
    (raw : StageValidityRule) : InsertionDict Id StageValidityRule × List Issue :=
  let path := s!"{stagePath}/validity_rules/{index}"
  if raw.id ∈ output.keys then
    (output, [⟨"testbench_plan.id.duplicate", s!"{path}/id", "duplicate stage validity id"⟩])
  else
    (output.set raw.id raw,
      match raw.body.subjects.mapM byId.get? with
      | none => [⟨"testbench_plan.validity.reduction_unknown", path,
          "stage validity names an unknown reduction"⟩]
      | some selected => stageValidityIssues supplies path raw.body selected)

/-- `_validate_stage_validity`. -/
def validateStageValidity (values : List StageValidityRule) (byId : ReductionIndex)
    (supplies : InsertionDict Id Supply) (stagePath : String) :
    InsertionDict Id StageValidityRule × List Issue :=
  Scan.run (stageValidityStep byId supplies stagePath) .empty 0 values

end OpenADA.Plan
