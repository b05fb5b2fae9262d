import OpenADA.Plan.Sources

/-! The physical dimension of what the reductions of a stage compute, evaluated over the units of
the collected points and axes, and its agreement with the units the validator accepts. -/
namespace OpenADA.Plan

inductive ReductionDimensions where
  | plain (value : Dimension)
  | curve (y x : Dimension)
  | fit (y x : Dimension)
  | crossing (axis : Dimension)
  | interval (axis : Dimension)

def ReductionDimensions.component :
    ReductionDimensions → ReductionComponent → Option Dimension
  | .plain value, .value => some value
  | .curve y _, .value => some y
  | .fit y x, .value | .fit y x, .slope => some (y / x)
  | .fit y _, .intercept => some y
  | .fit .., .r2 => some 1
  | .crossing axis, .value | .crossing axis, .crossing => some axis
  | .interval axis, .value | .interval axis, .lower | .interval axis, .upper
  | .interval axis, .span => some axis
  | _, _ => none

def commonDimension : List Dimension → Option Dimension
  | [] => none
  | first :: rest => if ∀ other ∈ rest, other = first then some first else none

def arithmeticDimension : ArithmeticOperator → List Dimension → Option Dimension
  | .add, operands => commonDimension operands
  | .subtract, [left, right] => commonDimension [left, right]
  | .multiply, first :: rest => some (rest.foldl (· * ·) first)
  | .divide, [left, right] => some (left / right)
  | .absolute, [operand] => some operand
  | .maxAbs, [operand] => some operand
  | _, _ => none

/-- The dimension of the scalar a point measurement contributes to a collection. -/
def sourceDimension (points : List ConditionPoint) (source : PointSource) : Option Dimension :=
  (points.find? fun point => decide (point.id = source.pointId)).bind fun point =>
    (point.measurements.find? fun m => decide (m.id = source.measurementId)).map
      fun measurement => measurement.unit.dimension

/-- The dimension of the axis position of a sample: a literal's, or the named parameter's. -/
def axisDimension (points : List ConditionPoint) (sample : CurveSample) : Option Dimension :=
  match sample.x with
  | .quantity literal => some literal.unit.dimension
  | .conditionParameter name _ =>
    (points.find? fun point => decide (point.id = sample.source.pointId)).bind fun point =>
      (point.condition.parameters.find? fun parameter => decide (parameter.name = name)).map
        fun parameter => parameter.value.unit.dimension

abbrev DimensionIndex := InsertionDict Id ReductionDimensions

def operandDimension (earlier : DimensionIndex) : ReductionOperand → Option Dimension
  | .literal quantity => some quantity.unit.dimension
  | .reduction reductionId component _ =>
    (earlier.get? reductionId).bind fun result => result.component component

def curveDimensions (earlier : DimensionIndex) (reductionId : Id) :
    Option (Dimension × Dimension) :=
  match earlier.get? reductionId with
  | some (.curve y x) => some (y, x)
  | _ => none

def evaluateDimensions (points : List ConditionPoint) (earlier : DimensionIndex) :
    ReductionBody → Option ReductionDimensions
  | .collectArray items => do
    let values ← items.mapM fun item => sourceDimension points item.source
    (commonDimension values).map .plain
  | .collectCurve _ samples => do
    let ordinates ← samples.mapM fun sample => sourceDimension points sample.source
    let positions ← samples.mapM (axisDimension points)
    let y ← commonDimension ordinates
    (commonDimension positions).map (.curve y)
  | .linearFit inputId .. => (curveDimensions earlier inputId).map fun c => .fit c.1 c.2
  | .crossing inputId .. => (curveDimensions earlier inputId).map fun c => .crossing c.2
  | .select inputId _ =>
    match earlier.get? inputId with
    | some (.plain value) => some (.plain value)
    | _ => none
  | .arithmetic operator operands => do
    let values ← operands.mapM (operandDimension earlier)
    (arithmeticDimension operator values).map .plain
  | .complianceIntersection positiveId negativeId .. => do
    let positive ← curveDimensions earlier positiveId
    let negative ← curveDimensions earlier negativeId
    if positive = negative then some (.interval positive.2) else none

def recordDimensions (points : List ConditionPoint) (earlier : DimensionIndex)
    (reduction : Reduction) : DimensionIndex :=
  match evaluateDimensions points earlier reduction.body with
  | some result => earlier.set reduction.id result
  | none => earlier

def stageDimensions (stage : Stage) : DimensionIndex :=
  stage.reductions.foldl (recordDimensions stage.points) .empty

theorem commonDimension_of_forall {dims : List Dimension} {d : Dimension} (hne : dims ≠ [])
    (h : ∀ other ∈ dims, other = d) : commonDimension dims = some d := by
  cases dims with
  | nil => exact absurd rfl hne
  | cons first rest =>
    obtain rfl : first = d := h first List.mem_cons_self
    exact if_pos fun other hmem => h other (List.mem_cons_of_mem _ hmem)

theorem mapM_common {α : Type} {items : List α} {f : α → Option Dimension} {d : Dimension}
    (hne : items ≠ []) (h : ∀ item ∈ items, f item = some d) :
    ∃ dims, items.mapM f = some dims ∧ commonDimension dims = some d := by
  have hmap : items.mapM f = some (items.map fun _ => d) := by
    clear hne
    induction items with
    | nil => rfl
    | cons item rest ih =>
      rw [List.mapM_cons, h item List.mem_cons_self,
        ih fun other hmem => h other (List.mem_cons_of_mem _ hmem)]
      rfl
  refine ⟨_, hmap, commonDimension_of_forall (by simpa using hne) ?_⟩
  intro other hmem
  obtain ⟨_, _, rfl⟩ := List.mem_map.mp hmem
  rfl

section

variable {reductions : ReductionIndex} {dims : DimensionIndex}

def Sound (reductions : ReductionIndex) (reduction : Reduction) (result : ReductionDimensions) :
    Prop :=
  match reduction.body with
  | .collectArray _ | .select .. | .arithmetic .. => result = .plain reduction.unit.dimension
  | .collectCurve axisUnit _ => result = .curve reduction.unit.dimension axisUnit.dimension
  | .linearFit inputId .. => ∃ parent x, reductions.get? inputId = some parent ∧
      result = .fit parent.unit.dimension x ∧
      reduction.unit.dimension = parent.unit.dimension / x
  | .crossing .. => result = .crossing reduction.unit.dimension
  | .complianceIntersection .. => result = .interval reduction.unit.dimension

theorem Sound.component {reduction : Reduction} {result : ReductionDimensions}
    (h : Sound reductions reduction result) (component : ReductionComponent) :
    result.component component =
      (reductionComponentUnit reduction component reductions).map PlanUnit.dimension := by
  obtain ⟨id, unit, body⟩ := reduction
  cases body with
  | collectArray items =>
    obtain rfl := h
    cases component <;> rfl
  | collectCurve axisUnit samples =>
    obtain rfl := h
    cases component <;> rfl
  | linearFit inputId window minimumSamples =>
    obtain ⟨parent, x, hget, rfl, hunit⟩ := h
    simp only at hunit
    have hone : PlanUnit.one.dimension = 1 := rfl
    cases component <;>
      simp [ReductionDimensions.component, reductionComponentUnit, Reduction.kind, hget, hunit,
        hone]
  | crossing inputId threshold direction occurrence =>
    obtain rfl := h
    cases component <;> rfl
  | arithmetic operator operands =>
    obtain rfl := h
    cases component <;> rfl
  | select inputId selector =>
    obtain rfl := h
    cases component <;> rfl
  | complianceIntersection positiveId negativeId positiveReference negativeReference tolerance =>
    obtain rfl := h
    cases component <;> rfl

def Indexed (reductions : ReductionIndex) (dims : DimensionIndex) : Prop :=
  ∀ id reduction, reductions.get? id = some reduction →
    ∃ result, dims.get? id = some result ∧ Sound reductions reduction result

theorem Indexed.curve (h : Indexed reductions dims) {id : Id} {reduction : Reduction}
    {axisUnit : PlanUnit} (hget : reductions.get? id = some reduction)
    (haxis : reduction.axisUnit? = some axisUnit) :
    curveDimensions dims id = some (reduction.unit.dimension, axisUnit.dimension) := by
  obtain ⟨result, hresult, hsound⟩ := h id reduction hget
  obtain ⟨rid, unit, body⟩ := reduction
  cases body with
  | collectCurve declared samples =>
    obtain rfl := hsound
    obtain rfl : declared = axisUnit := Option.some.inj haxis
    simp [curveDimensions, hresult]
  | _ => cases haxis

theorem Indexed.operand (h : Indexed reductions dims) {operand : ReductionOperand}
    {unit : PlanUnit} (hunit : operandUnit reductions operand = some unit) :
    operandDimension dims operand = some unit.dimension := by
  cases operand with
  | literal quantity =>
    obtain rfl := Option.some.inj hunit
    rfl
  | reduction reductionId component declared =>
    obtain ⟨parent, hget, hcomponent⟩ := Option.bind_eq_some_iff.mp hunit
    obtain ⟨result, hresult, hsound⟩ := h reductionId parent hget
    simp [operandDimension, hresult, hsound.component component, hcomponent]

theorem arithmeticUnit_dimension (operator : ArithmeticOperator) {units : List PlanUnit}
    {unit : PlanUnit} (harity2 : operator = .subtract ∨ operator = .divide → units.length = 2)
    (harity1 : operator = .absolute ∨ operator = .maxAbs → units.length = 1)
    (h : arithmeticUnit operator (units.map some) = some unit) :
    arithmeticDimension operator (units.map PlanUnit.dimension) = some unit.dimension := by
  cases units with
  | nil => cases h
  | cons first rest =>
    have hstuck : ∀ rest : List (Option PlanUnit),
        rest.foldl (foldOperandUnit operator) none = none := by
      intro rest
      induction rest with
      | nil => rfl
      | cons _ rest ih => exact ih
    have hsame : ∀ (rest : List PlanUnit) (first : PlanUnit),
        (∀ a b, foldOperandUnit operator (some a) (some b) = if a = b then some a else none) →
        (rest.map some).foldl (foldOperandUnit operator) (some first) = some unit →
        first = unit ∧ ∀ other ∈ rest, other = unit := by
      intro rest
      induction rest with
      | nil => exact fun first _ h => ⟨Option.some.inj h, by simp⟩
      | cons next rest ih =>
        intro first hstep h
        rw [List.map_cons, List.foldl_cons, hstep] at h
        by_cases heq : first = next
        · rw [if_pos heq] at h
          obtain ⟨hfirst, hrest⟩ := ih first hstep h
          exact ⟨hfirst, by simpa [← heq, hfirst] using hrest⟩
        · rw [if_neg heq, hstuck] at h
          cases h
    rw [List.map_cons, arithmeticUnit] at h
    cases operator with
    | add =>
      obtain ⟨rfl, hrest⟩ := hsame rest first (fun _ _ => rfl) h
      show commonDimension ((first :: rest).map PlanUnit.dimension) = _
      refine commonDimension_of_forall (by simp) ?_
      intro other hmem
      obtain ⟨member, hin, rfl⟩ := List.mem_map.mp hmem
      rcases List.mem_cons.mp hin with rfl | hin
      · rfl
      · rw [hrest member hin]
    | subtract =>
      obtain ⟨rfl, hrest⟩ := hsame rest first (fun _ _ => rfl) h
      obtain ⟨second, rfl⟩ := List.length_eq_one_iff.mp
        (Nat.succ.inj (harity2 (.inl rfl)))
      show commonDimension [first.dimension, second.dimension] = _
      rw [hrest second List.mem_cons_self]
      exact commonDimension_of_forall (by simp) (by simp)
    | multiply =>
      suffices hmul : ∀ (rest : List PlanUnit) (first : PlanUnit),
          (rest.map some).foldl (foldOperandUnit .multiply) (some first) = some unit →
          (rest.map PlanUnit.dimension).foldl (· * ·) first.dimension = unit.dimension from
        congrArg some (hmul rest first h)
      intro rest
      induction rest with
      | nil => exact fun first h => congrArg _ (Option.some.inj h)
      | cons next rest ih =>
        intro first h
        rw [List.map_cons, List.foldl_cons] at h ⊢
        cases hproduct : multiplyUnits first next with
        | none =>
          simp only [foldOperandUnit, hproduct, hstuck] at h
          cases h
        | some product =>
          simp only [foldOperandUnit, hproduct] at h
          rw [← multiplyUnits_dimension first next product hproduct]
          exact ih product h
    | divide =>
      obtain ⟨second, rfl⟩ := List.length_eq_one_iff.mp
        (Nat.succ.inj (harity2 (.inr rfl)))
      exact congrArg some (divideUnits_dimension first second unit h).symm
    | absolute =>
      obtain rfl := List.length_eq_zero_iff.mp (Nat.succ.inj (harity1 (.inl rfl)))
      exact congrArg (some ∘ PlanUnit.dimension) (Option.some.inj h)
    | maxAbs =>
      obtain rfl := List.length_eq_zero_iff.mp (Nat.succ.inj (harity1 (.inr rfl)))
      exact congrArg (some ∘ PlanUnit.dimension) (Option.some.inj h)

end

end OpenADA.Plan
