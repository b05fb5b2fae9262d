import OpenADA.Plan.Stages

/-! Validation of stage bindings: the source, the target input, and the unit both share. -/
namespace OpenADA.Plan

def allowedComponents : MeasurementKind → List BindingComponent
  | .linearFit => [.slope, .intercept]
  | .crossing => [.crossing, .value]
  | _ => [.value]

def measurementComponentUnit (measurement : Measurement) (component : BindingComponent) :
    PlanUnit :=
  match component with
  | .slope =>
    if measurement.kind ≠ .linearFit then fitUnit measurement.unit else measurement.unit
  | .intercept =>
    if measurement.kind = .linearFit then fitInterceptUnit measurement.unit else measurement.unit
  | .crossing => measurement.unit
  | .value => measurement.unit

def stageReductions (reductions : InsertionDict (Id × Id) Reduction) (stageId : Id) :
    ReductionIndex :=
  InsertionDict.ofList ((reductions.entries.filter fun entry => decide (entry.1.1 = stageId)).map
    fun entry => (entry.1.2, entry.2))

/-- The source checks of a binding and the unit of the component it selects, if known. -/
def bindingSource (scan : StageScan) (path : String) :
    BindingSource → Option PlanUnit × List Issue × List Issue
  | .measurement stageId pointId measurementId component =>
    match scan.measurements.get? (stageId, pointId, measurementId) with
    | none => (none, [⟨"testbench_plan.binding.source_unknown", s!"{path}/from",
        "binding source measurement does not exist"⟩], [])
    | some measurement => (some (measurementComponentUnit measurement component), [],
        issueIf (decide (component ∉ allowedComponents measurement.kind))
          "testbench_plan.binding.component_incompatible" s!"{path}/from/component"
          (s!"component {quoted component.symbol} is not emitted by " ++
            quoted measurement.kind.symbol))
  | .reduction stageId reductionId component =>
    match scan.reductions.get? (stageId, reductionId) with
    | none => (none, [⟨"testbench_plan.binding.source_unknown", s!"{path}/from",
        "binding source reduction does not exist"⟩], [])
    | some reduction =>
      let unit := reductionComponentUnit reduction component
        (stageReductions scan.reductions stageId)
      (unit, [], issueIf unit.isNone "testbench_plan.binding.component_incompatible"
        s!"{path}/from/component"
        s!"component {quoted component.symbol} is not emitted by {quoted reduction.kind.symbol}")

/-- Pairs of identifiers compare lawfully. -/
instance lawfulIdPair : LawfulBEq (Id × Id) := inferInstance

structure BindingScan where
  ids : List Id
  targets : List (Id × Id)

def bindingStep (scan : StageScan) (table : StageTable) (state : BindingScan) (index : ℕ)
    (raw : Binding) : BindingScan × List Issue :=
  let path := s!"/bindings/{index}"
  let source := bindingSource scan path raw.source
  let target := (raw.target.stageId, raw.target.inputId)
  let targetUnit := scan.stageInputs.get? target
  let dependsOn := ((table.get? raw.target.stageId).map fun entry => entry.2.dependsOn).getD []
  (⟨raw.id :: state.ids, target :: state.targets⟩,
    issueIf (decide (raw.id ∈ state.ids)) "testbench_plan.id.duplicate" s!"{path}/id"
      "duplicate binding id" ++
    source.2.1 ++
    issueIf targetUnit.isNone "testbench_plan.binding.target_unknown" s!"{path}/to"
      "binding target input does not exist" ++
    issueIf (decide (target ∈ state.targets)) "testbench_plan.binding.target_duplicate"
      s!"{path}/to" "a stage input must have exactly one binding authority" ++
    issueIf (decide (raw.source.stageId = raw.target.stageId) ||
        decide (raw.source.stageId ∉ dependsOn)) "testbench_plan.binding.dependency_missing" path
      "binding must flow from an explicitly depended-on earlier stage" ++
    source.2.2 ++
    issueIf ([source.1, targetUnit].any fun unit => decide (unit ≠ none ∧ unit ≠ some raw.unit))
      "testbench_plan.unit.mismatch" s!"{path}/unit"
      "binding source, declared unit, and target input must match exactly")

def unboundIssues (stageInputs : StageInputs) (targets : List (Id × Id)) : List Issue :=
  let unbound := (stageInputs.keys.filter fun key => decide (key ∉ targets)).insertionSort
    fun a b => a.1 < b.1 ∨ a.1 = b.1 ∧ a.2 ≤ b.2
  unbound.map fun target => ⟨"testbench_plan.binding.input_unbound",
    s!"/stages/{target.1}/inputs/{target.2}",
    "every declared stage input requires exactly one binding"⟩

/-- `_validate_bindings`. -/
def validateBindings (values : List Binding) (scan : StageScan) (table : StageTable) :
    List Issue :=
  let bound := Scan.run (bindingStep scan table) ⟨[], []⟩ 0 values
  bound.2 ++ unboundIssues scan.stageInputs bound.1.targets

end OpenADA.Plan
