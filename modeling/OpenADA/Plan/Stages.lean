import OpenADA.Plan.Reductions

/-! Validation of the stage graph and of every stage: inputs, points, reductions, rules and
carryover references. -/
namespace OpenADA.Plan

structure BenchContext where
  dut : DutBinding
  corners : InsertionDict Id CornerBinding
  supplies : InsertionDict Id Supply
  stimuli : InsertionDict Id Stimulus
  probes : InsertionDict Id Probe

/-- The result indices the later checks look sources up in. -/
structure StageScan where
  stageInputs : StageInputs
  measurements : InsertionDict (Id × Id × Id) Measurement
  validity : InsertionDict (Id × Id × Id) ValidityRule
  reductions : InsertionDict (Id × Id) Reduction
  stageValidity : InsertionDict (Id × Id) StageValidityRule

def StageScan.empty : StageScan := ⟨.empty, .empty, .empty, .empty, .empty⟩

/-- Stages by identifier with their position; a repeated identifier keeps the first stage. -/
abbrev StageTable := InsertionDict Id (ℕ × Stage)

def stageIdStep (table : StageTable) (index : ℕ) (raw : Stage) : StageTable × List Issue :=
  if raw.id ∈ table.keys then
    (table, [⟨"testbench_plan.id.duplicate", s!"/stages/{index}/id", "duplicate stage id"⟩])
  else (table.set raw.id (index, raw), [])

def stageTable (values : List Stage) : StageTable × List Issue :=
  Scan.run stageIdStep .empty 0 values

def dependencyIssues (table : StageTable) (position : ℕ) (raw : Stage) : List Issue :=
  (raw.dependsOn.mapIdx fun index dependency =>
    let path := s!"/stages/{position}/depends_on/{index}"
    issueIf (decide (dependency ∉ table.keys)) "testbench_plan.stage.dependency_unknown" path
      s!"unknown stage {quoted dependency}" ++
    issueIf (decide (dependency = raw.id)) "testbench_plan.graph.cycle" path
      "stage cannot depend on itself").flatten

/-- The dependency construction `_check_dag` is called with. -/
def stageGraph (table : StageTable) : CycleSearch.Table Id :=
  table.entries.map fun entry => (entry.1, entry.2.2.dependsOn)

def stageGraphIssues (table : StageTable) : List Issue :=
  table.entries.flatMap (fun entry => dependencyIssues table entry.2.1 entry.2.2) ++
    checkDag (stageGraph table) "/stages"

def stageInputStep (stageId : Id) (position : ℕ) (state : List Id × StageInputs) (index : ℕ)
    (entry : StageInput) : (List Id × StageInputs) × List Issue :=
  ((entry.id :: state.1, state.2.set (stageId, entry.id) entry.unit),
    issueIf (decide (entry.id ∈ state.1)) "testbench_plan.id.duplicate"
      s!"/stages/{position}/inputs/{index}/id" "duplicate stage input id")

def conditionParameterStep (stageId : Id) (stageInputs : StageInputs) (pointPath : String)
    (names : List Id) (index : ℕ) (parameter : ConditionParameter) : List Id × List Issue :=
  let path := s!"{pointPath}/condition/parameters/{index}"
  (parameter.name :: names,
    issueIf (decide (parameter.name ∈ names)) "testbench_plan.condition.parameter_duplicate"
      s!"{path}/name" s!"duplicate condition parameter {quoted parameter.name}" ++
    checkValueSource parameter.value stageId stageInputs s!"{path}/value" none)

def conditionIssues (bench : BenchContext) (stageId : Id) (stageInputs : StageInputs)
    (pointPath : String) (condition : Condition) : List Issue :=
  (match bench.corners.get? condition.corner with
  | none => [⟨"testbench_plan.condition.corner_unknown", s!"{pointPath}/condition/corner",
      s!"unknown corner binding {quoted condition.corner}"⟩]
  | some corner =>
    issueIf (decide (condition.temperature ≠ corner.temperature))
      "testbench_plan.condition.temperature_mismatch" s!"{pointPath}/condition/temperature"
      "condition temperature must equal its sealed corner binding") ++
  (Scan.run (conditionParameterStep stageId stageInputs pointPath) [] 0 condition.parameters).2

section

variable (F : Type) [PyFloat F]

def pointContext (bench : BenchContext) (stageId : Id) (stageInputs : StageInputs)
    (point : ConditionPoint) : PointContext :=
  ⟨stageId, stageInputs, bench.probes, bench.stimuli, bench.supplies, point.analysis⟩

/-- Every check of one point before its identifier enters the result indices. -/
def pointIssues (bench : BenchContext) (stageId : Id) (stageInputs : StageInputs)
    (pointPath : String) (point : ConditionPoint) : List Issue :=
  let ports := bench.dut.ports.map DutPort.name
  let internals := bench.dut.ports.flatMap DutPort.internalNodes
  let ctx := pointContext bench stageId stageInputs point
  let measured := validateMeasurements F point.measurements ctx pointPath
  conditionIssues bench stageId stageInputs pointPath point.condition ++
  validateStatePolicy point.statePolicy ports internals pointPath ++
  validateSettlePolicy F point.settlePolicy point.analysis bench.probes pointPath ++
  validateAnalysis F point.analysis stageId stageInputs bench.stimuli pointPath ++
  validateActiveStimuli point.activeStimulusIds point.analysis bench.stimuli bench.supplies
    stageId stageInputs pointPath ++
  measured.2 ++
  (validateValidity point.validityRules measured.1 bench.stimuli bench.supplies pointPath).2

def pointMeasurements (bench : BenchContext) (stageId : Id) (stageInputs : StageInputs)
    (pointPath : String) (point : ConditionPoint) : MeasurementIndex :=
  (validateMeasurements F point.measurements (pointContext bench stageId stageInputs point)
    pointPath).1

def indexUnder {ν : Type} (stageId pointId : Id) (target : InsertionDict (Id × Id × Id) ν)
    (items : InsertionDict Id ν) : InsertionDict (Id × Id × Id) ν :=
  items.entries.foldl (fun acc entry => acc.set (stageId, pointId, entry.1) entry.2) target

def pointStep (bench : BenchContext) (stageId : Id) (position : ℕ)
    (state : List Id × StageScan) (index : ℕ) (point : ConditionPoint) :
    (List Id × StageScan) × List Issue :=
  let path := s!"/stages/{position}/points/{index}"
  let scan := state.2
  let measured := pointMeasurements F bench stageId scan.stageInputs path point
  let rules := (validateValidity point.validityRules measured bench.stimuli bench.supplies path).1
  ((point.id :: state.1,
      { scan with
        measurements := indexUnder stageId point.id scan.measurements measured
        validity := indexUnder stageId point.id scan.validity rules }),
    issueIf (decide (point.id ∈ state.1)) "testbench_plan.id.duplicate" s!"{path}/id"
      "duplicate point id within stage" ++
    pointIssues F bench stageId scan.stageInputs path point)

def stageStep (bench : BenchContext) (scan : StageScan) (_ : ℕ) (entry : Id × ℕ × Stage) :
    StageScan × List Issue :=
  let stageId := entry.1
  let position := entry.2.1
  let raw := entry.2.2
  let path := s!"/stages/{position}"
  let inputs := Scan.run (stageInputStep stageId position) ([], scan.stageInputs) 0 raw.inputs
  let points := Scan.run (pointStep F bench stageId position)
    ([], { scan with stageInputs := inputs.1.2 }) 0 raw.points
  let measured := points.1.2
  let reduced := validateReductions raw.reductions
    ⟨stageId, raw.points, measured.measurements, bench.supplies⟩ path
  let rules := validateStageValidity raw.validityRules reduced.1 bench.supplies path
  ({ measured with
      reductions := reduced.1.entries.foldl
        (fun acc item => acc.set (stageId, item.1) item.2) measured.reductions
      stageValidity := rules.1.entries.foldl
        (fun acc item => acc.set (stageId, item.1) item.2) measured.stageValidity },
    inputs.2 ++ points.2 ++ reduced.2 ++ rules.2)

end

/-- The points of every stage with their positions; a repeated identifier keeps the last. -/
def pointDocuments (table : StageTable) : InsertionDict (Id × Id) (ℕ × ConditionPoint) :=
  InsertionDict.ofList (table.entries.flatMap fun entry =>
    entry.2.2.points.mapIdx fun index point => ((entry.1, point.id), (index, point)))

def carryoverIssues (table : StageTable) (entry : (Id × Id) × ℕ × ConditionPoint) : List Issue :=
  match entry.2.2.statePolicy with
  | .fresh _ => []
  | .carryover sourceStage sourcePoint =>
    let stageId := entry.1.1
    let stage := (table.get? stageId).map Prod.snd
    let position := ((table.get? stageId).map Prod.fst).getD 0
    let path := s!"/stages/{position}/points/{entry.2.1}/state_policy/from"
    match (pointDocuments table).get? (sourceStage, sourcePoint) with
    | none => [⟨"testbench_plan.state.source_unknown", path,
        "carryover source point does not exist"⟩]
    | some source =>
      if sourceStage = stageId then
        issueIf (decide (entry.2.1 ≤ source.1)) "testbench_plan.graph.cycle" path
          "same-stage carryover must name an earlier point"
      else
        issueIf (decide (sourceStage ∉ (stage.map Stage.dependsOn).getD []))
          "testbench_plan.state.dependency_missing" path
          "cross-stage carryover requires an explicit stage dependency"

/-- `_validate_stages`. -/
def validateStages (F : Type) [PyFloat F] (values : List Stage) (bench : BenchContext) :
    StageScan × List Issue :=
  let table := stageTable values
  let stages := Scan.run (stageStep F bench) .empty 0 table.1.entries
  (stages.1, table.2 ++ stageGraphIssues table.1 ++ stages.2 ++
    (pointDocuments table.1).entries.flatMap (carryoverIssues table.1))

end OpenADA.Plan
