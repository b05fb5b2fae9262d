import OpenADA.Plan.Bindings

/-! Validation of the declared observables and of the identifier namespaces. -/
namespace OpenADA.Plan

def measurementShape : MeasurementKind → ObservableShape
  | .curve => .curve
  | .loopTransfer => .curve
  | .linearFit => .fit
  | .complianceInterval => .interval
  | _ => .scalar

def measurementObservableIssues (path : String) (raw : Observable) (item : Measurement) :
    List Issue :=
  issueIf (decide (raw.unit ≠ item.unit)) "testbench_plan.unit.mismatch" s!"{path}/unit"
    s!"observable unit must equal measurement unit {quoted item.unit.symbol}" ++
  issueIf (decide (raw.shape ≠ measurementShape item.kind))
    "testbench_plan.observable.shape_mismatch" s!"{path}/shape"
    (s!"{quoted item.kind.symbol} emits shape " ++ quoted (measurementShape item.kind).symbol)

def verdictObservableIssues (path label : String) (raw : Observable) : List Issue :=
  issueIf (decide (raw.unit ≠ .one) || decide (raw.shape ≠ .verdict))
    "testbench_plan.observable.shape_mismatch" path
    s!"{label} observables must be dimensionless verdicts"

def reductionObservableIssues (reductions : InsertionDict (Id × Id) Reduction) (path : String)
    (raw : Observable) (stageId : Id) (item : Reduction) (component : ReductionComponent) :
    List Issue :=
  let expectedShape := reductionShape item component
  (match reductionComponentUnit item component (stageReductions reductions stageId) with
  | none => [⟨"testbench_plan.observable.component_incompatible", s!"{path}/source/component",
      s!"component {quoted component.symbol} is not emitted by {quoted item.kind.symbol}"⟩]
  | some expected =>
    issueIf (decide (raw.unit ≠ expected)) "testbench_plan.unit.mismatch" s!"{path}/unit"
      s!"observable component unit must be {quoted expected.symbol}") ++
  issueIf (decide (raw.shape ≠ expectedShape)) "testbench_plan.observable.shape_mismatch"
    s!"{path}/shape" s!"reduction component emits shape {quoted expectedShape.symbol}"

def observableSourceIssues (scan : StageScan) (path : String) (raw : Observable) : List Issue :=
  let unknown (label : String) : List Issue := [⟨"testbench_plan.observable.source_unknown",
    s!"{path}/source", s!"observable source {label} does not exist"⟩]
  match raw.source with
  | .measurement stageId pointId measurementId =>
    match scan.measurements.get? (stageId, pointId, measurementId) with
    | none => unknown "measurement"
    | some item => measurementObservableIssues path raw item
  | .validity stageId pointId ruleId =>
    (if (stageId, pointId, ruleId) ∈ scan.validity.keys then [] else unknown "validity rule") ++
    verdictObservableIssues path "validity" raw
  | .stageValidity stageId ruleId =>
    (if (stageId, ruleId) ∈ scan.stageValidity.keys then []
      else unknown "stage validity rule") ++
    verdictObservableIssues path "stage-validity" raw
  | .reduction stageId reductionId component =>
    match scan.reductions.get? (stageId, reductionId) with
    | none => unknown "reduction"
    | some item => reductionObservableIssues scan.reductions path raw stageId item component

def observableStep (scan : StageScan) (state : List Id × List ObservableSource) (index : ℕ)
    (raw : Observable) : (List Id × List ObservableSource) × List Issue :=
  let path := s!"/observables/{index}"
  ((raw.id :: state.1, raw.source :: state.2),
    issueIf (decide (raw.id ∈ state.1)) "testbench_plan.id.duplicate" s!"{path}/id"
      "duplicate observable id" ++
    issueIf (decide (raw.source ∈ state.2)) "testbench_plan.observable.source_duplicate"
      s!"{path}/source" "two observables may not alias the same result identity" ++
    observableSourceIssues scan path raw)

/-- `_validate_observables`. -/
def validateObservables (values : List Observable) (scan : StageScan) : List Issue :=
  (Scan.run (observableStep scan) ([], []) 0 values).2

def collisionIssues (code prefixText : String) (values : List String) : List Issue :=
  (foldedDuplicates values).map fun folded => ⟨code, "", prefixText ++ quoted folded⟩

/-- `_global_identity_check`. -/
def globalIdentityCheck (plan : PlanDocument) (supplies stimuli probes stages : List Id) :
    List Issue :=
  let namespaces : List (String × List String) :=
    [("plan", [plan.id]), ("supply/stimulus/probe", supplies ++ stimuli ++ probes),
      ("stage", stages), ("binding", plan.bindings.map Binding.id),
      ("observable", plan.observables.map Observable.id)]
  namespaces.flatMap (fun entry => collisionIssues "testbench_plan.id.case_collision"
    s!"{entry.1} identifiers collide case-insensitively at " entry.2) ++
  collisionIssues "testbench_plan.namespace.collision" "closed compiler names collide at "
    (s!"X_{plan.dut.namespaceId}_{plan.dut.top}" ::
      (supplies ++ stimuli).map (fun id => s!"V_{id}") ++ probes.map (fun id => s!"P_{id}"))

end OpenADA.Plan
