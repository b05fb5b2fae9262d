import OpenADA.Runner.Execute
import OpenADA.Runner.Schedule

/-! The stage loop of a run: compile, execute, evaluate, and hand values to later stages. -/
namespace OpenADA.Runner

open OpenADA.Plan OpenADA.Compiler

/-- `_unknown_verdict`. -/
def unknownVerdict (reason : String) : String :=
  let message := String.ofList (reason.toList.filter fun c => decide (c ≠ Char.ofNat 0))
  "UNKNOWN(runner: " ++ clip 1007 message ++ ")"

structure SourceReceipt (F : Type) where
  planSha256 : Sha256
  bindingId : Id
  source : BindingSource
  sourceValue : F
  unit : PlanUnit
  conditions : List ConditionAttempt

structure SealedReceipt (F : Type) where
  sha256 : Sha256
  receipt : SourceReceipt F

abbrev ConditionValues (F : Type) := InsertionDict (Id × Id) (PointValues F)

section

variable {F : Type} [PyFloat F]

def notScalar {α : Type} (component : BindingComponent) : Except String α :=
  .error s!"binding component {quoted component.symbol} is not a scalar"

def unsupportedComponent {α : Type} (component : BindingComponent) : Except String α :=
  .error s!"unsupported binding component {quoted component.symbol}"

def selectedComponent (component : BindingComponent) (value : Payload F) : Except String F :=
  match component, value with
  | .value, .scalar number => .ok number
  | .crossing, .scalar number => .ok number
  | .slope, .fit slope _ _ => .ok slope
  | .intercept, .fit _ intercept _ => .ok intercept
  | .slope, .scalar _ | .slope, .signs _ | .intercept, .scalar _ | .intercept, .signs _ =>
    unsupportedComponent component
  | _, _ => notScalar component

/-- `_binding_component`. -/
def bindingComponent (item : ConditionValue F) (component : BindingComponent) :
    Except String F := do
  let selected ← selectedComponent component item.value
  if PyFloat.isFinite selected then .ok selected
  else .error "binding component is non-finite"

def valuesAt (values : ConditionValues F) (key : Id × Id) : PointValues F :=
  (values.get? key).getD .empty

def attemptsAt (attempts : List ConditionAttempt) (key : Id × Id) : List ConditionAttempt :=
  attempts.filter fun attempt => decide (attempt.key = key)

def allCompleted (attempts : List ConditionAttempt) : Bool :=
  attempts.all fun attempt => decide (attempt.status = .completed)

def firstPoint? (plan : PlanDocument) (stageId pointId : Id) : Option ConditionPoint :=
  ((plan.stages.filter fun stage => decide (stage.id = stageId)).flatMap Stage.points).find?
    fun point => decide (point.id = pointId)

def ruleIsValid (plan : PlanDocument) (corner : Id) (values : PointValues F)
    (rule : ValidityRule) : Bool :=
  match evaluateValidityRule rule values plan corner with
  | .ok verdict => decide (verdict = "VALID")
  | .error _ => false

/-- Whether a source point completed and satisfies its own validity rules. -/
def sourceIsValid (plan : PlanDocument) (corner : Id) (values : ConditionValues F)
    (attempts : List ConditionAttempt) (key : Id × Id) : Bool :=
  let pointAttempts := attemptsAt attempts key
  !pointAttempts.isEmpty && allCompleted pointAttempts &&
    match firstPoint? plan key.1 key.2 with
    | none => true
    | some point => point.validityRules.all (ruleIsValid plan corner (valuesAt values key))

def bindingRefusal {α : Type} (kind message : String) : Except Refusal α :=
  .error ⟨s!"testbench_plan.runner.{kind}", none, message⟩

def contributingAttempts (attempts : List ConditionAttempt) (conditionIds : IdSet) :
    Option (List ConditionAttempt) :=
  let index := InsertionDict.ofList (attempts.map fun attempt => (attempt.conditionId, attempt))
  let found := conditionIds.sortedList.filterMap index.get?
  if found.length = conditionIds.card then some found else none

structure BindingContext (F : Type) where
  host : RunnerHost F
  plan : PlanDocument
  corner : Id
  values : ConditionValues F
  attempts : List ConditionAttempt

def planSha256 (host : Host) (plan : PlanDocument) : Sha256 :=
  host.sha256 (host.canonicalBytes plan)

def sealReceipt (host : Host) (receipt : SourceReceipt F) : SealedReceipt F :=
  ⟨host.sha256 (host.canonicalBytes receipt), receipt⟩

/-- The last two steps of a binding: its number and its condition receipts. -/
def sealBinding (ctx : BindingContext F) (binding : Binding) (component : BindingComponent)
    (item : ConditionValue F) : Except Refusal (SealedReceipt F) :=
  match bindingComponent item component with
  | .error text => bindingRefusal "binding_invalid" s!"binding {quoted binding.id}: {text}"
  | .ok value =>
    match contributingAttempts ctx.attempts item.conditionIds with
    | none => bindingRefusal "binding_lineage_missing"
        s!"binding {quoted binding.id} lacks a contributing condition receipt"
    | some conditions => .ok (sealReceipt ctx.host.toHost
        { planSha256 := planSha256 ctx.host.toHost ctx.plan, bindingId := binding.id
          source := binding.source, sourceValue := value, unit := binding.unit
          conditions := conditions })

/-- One binding of `_resolved_stage_bindings`. -/
def resolveBinding (ctx : BindingContext F) (binding : Binding) :
    Except Refusal (SealedReceipt F) :=
  match binding.source with
  | .reduction .. => bindingRefusal "binding_unsupported"
      s!"binding {quoted binding.id} requires an unsupported reduction source"
  | .measurement stageId pointId measurementId component =>
    match (valuesAt ctx.values (stageId, pointId)).get? measurementId with
    | none => bindingRefusal "binding_unavailable"
        s!"binding {quoted binding.id} source measurement is unavailable"
    | some item =>
      if sourceIsValid ctx.plan ctx.corner ctx.values ctx.attempts (stageId, pointId) then
        sealBinding ctx binding component item
      else bindingRefusal "binding_source_invalid"
        s!"binding {quoted binding.id} source point is not VALID"

def Resolutions.receipts (outcomes : List (Except Refusal (SealedReceipt F))) :
    List (SealedReceipt F) :=
  outcomes.filterMap fun outcome => match outcome with
    | .ok sealed => some sealed
    | .error _ => none

def Resolutions.refusals (outcomes : List (Except Refusal (SealedReceipt F))) : List Refusal :=
  outcomes.filterMap fun outcome => match outcome with
    | .ok _ => none
    | .error refusal => some refusal

/-- `_resolved_stage_bindings`. -/
def resolvedStageBindings (ctx : BindingContext F) (stageId : Id) :
    List (Except Refusal (SealedReceipt F)) :=
  (ctx.plan.bindings.filter fun binding => decide (binding.source.stageId = stageId)).map
    (resolveBinding ctx)

def resolvedValue (sealed : SealedReceipt F) : ResolvedBindingValue F :=
  ⟨sealed.receipt.bindingId, sealed.receipt.sourceValue, sealed.receipt.unit, sealed.sha256⟩

def receiptConditions (receipt : SourceReceipt F) : IdSet :=
  (receipt.conditions.map ConditionAttempt.conditionId).toFinset

abbrev UpstreamLineage := InsertionDict Id IdSet

def UpstreamLineage.at (lineage : UpstreamLineage) (stageId : Id) : IdSet :=
  (lineage.get? stageId).getD ∅

def extendLineage (plan : PlanDocument) (lineage : UpstreamLineage) (sealed : SealedReceipt F) :
    UpstreamLineage :=
  let bindings := InsertionDict.ofList (plan.bindings.map fun b => (b.id, b))
  match bindings.get? sealed.receipt.bindingId with
  | none => lineage
  | some binding =>
    let target := binding.target.stageId
    lineage.set target (lineage.at target ∪ receiptConditions sealed.receipt)

structure RunState (F : Type) where
  attempts : List ConditionAttempt
  refusals : List Refusal
  conditionValues : ConditionValues F
  bindingValues : List (ResolvedBindingValue F)
  bindingReceipts : List (SealedReceipt F)
  upstreamLineage : UpstreamLineage
  compilations : List Compilation
  dutSha256 : Option Sha256
  simulatorIdentities : IdSet
  inventoryComplete : Bool

def RunState.initial : RunState F :=
  ⟨[], [], .empty, [], [], .empty, [], none, ∅, true⟩

/-- `_assert_condition_capacity`. -/
def assertConditionCapacity (conditions : List CompiledCondition) (existing : List String) :
    Except String Unit :=
  let identifiers := conditions.map CompiledCondition.conditionId
  if maxEnvelopeConditions < existing.dedup.length + identifiers.length then
    .error ("compiled condition inventory exceeds the 10000-condition " ++
      "testbench-observables/v1 boundary")
  else if ¬ identifiers.Nodup ∨ ∃ identifier ∈ identifiers, identifier ∈ existing then
    .error "compiler emitted duplicate condition identifiers"
  else .ok ()

def admitDut (known : Option Sha256) (digest : Sha256) : Except String Sha256 :=
  match known with
  | none => .ok digest
  | some first =>
    if first = digest then .ok first
    else .error "stage compilations captured different DUT artifacts"

def pointComplete (attempts : List ConditionAttempt) (key : Id × Id) (entries : List (Entry F)) :
    Bool :=
  let expected := attemptsAt attempts key
  decide (entries.length = expected.length) && allCompleted expected

structure RunContext (F : Type) where
  host : RunnerHost F
  plan : PlanDocument
  corner : Id
  executor : ConditionExecutor
  /-- The sealed DUT each stage compilation captures. -/
  captureDut : Id → Except CompileFailure SealedDut

def evaluatePoint (ctx : RunContext F) (newAttempts : List ConditionAttempt) (upstream : IdSet)
    (state : ConditionValues F × List Refusal) (entry : (Id × Id) × List (Entry F)) :
    ConditionValues F × List Refusal :=
  if pointComplete newAttempts entry.1 entry.2 then
    match pointDocument? ctx.plan entry.1.1 entry.1.2 with
    | none => state
    | some point =>
      match evaluatePointGroup point entry.2 ctx.plan ctx.corner upstream with
      | .ok values => (state.1.set entry.1 values, state.2)
      | .error text => (state.1, state.2 ++ [⟨"testbench_plan.runner.measurement_invalid", none,
          s!"{entry.1.1}.{entry.1.2}: {clip 1024 text}"⟩])
  else state

def evaluateStage (ctx : RunContext F) (state : RunState F) (stageId : Id)
    (execution : Execution F) : RunState F :=
  let evaluated := execution.waveforms.entries.foldl
    (evaluatePoint ctx execution.attempts (state.upstreamLineage.at stageId))
    (state.conditionValues, state.refusals ++ execution.refusals)
  { state with
    attempts := state.attempts ++ execution.attempts
    refusals := evaluated.2
    conditionValues := evaluated.1
    simulatorIdentities := state.simulatorIdentities ∪ execution.simulatorIdentities }

def propagateBindings (ctx : RunContext F) (state : RunState F) (stageId : Id) : RunState F :=
  let outcomes := resolvedStageBindings
    ⟨ctx.host, ctx.plan, ctx.corner, state.conditionValues, state.attempts⟩ stageId
  let receipts := Resolutions.receipts outcomes
  { state with
    refusals := state.refusals ++ Resolutions.refusals outcomes
    bindingValues := state.bindingValues ++ receipts.map resolvedValue
    bindingReceipts := state.bindingReceipts ++ receipts
    upstreamLineage := receipts.foldl (extendLineage ctx.plan) state.upstreamLineage }

def uncompiledReason (failure : CompileFailure) : String :=
  s!"stage compilation refused: {clip 768 failure.text}"

/-- A stage the compiler refused: its conditions are listed as not executed. -/
def skipStage (ctx : RunContext F) (state : RunState F) (stage : Stage)
    (failure : CompileFailure) : RunState F :=
  let missing := uncompiledAttempts ctx.host.toHost stage ctx.corner (uncompiledReason failure)
  { state with
    attempts := state.attempts ++ missing.1
    refusals := state.refusals ++
      [⟨"testbench_plan.runner.stage_uncompiled", none, uncompiledReason failure⟩]
    inventoryComplete := state.inventoryComplete && missing.2 }

def executeStage (ctx : RunContext F) (state : RunState F) (stage : Stage)
    (compilation : Compilation) : Except String (RunState F) := do
  assertConditionCapacity compilation.conditions
    (state.attempts.map ConditionAttempt.conditionId)
  let dutSha256 ← admitDut state.dutSha256 compilation.sealedDut.rawSha256
  let execution := executeCompilationConditions ctx.host ctx.plan ctx.executor
    compilation.conditions
  let admitted := { state with
    dutSha256 := some dutSha256, compilations := state.compilations ++ [compilation] }
  .ok (propagateBindings ctx (evaluateStage ctx admitted stage.id execution) stage.id)

def compileStage (ctx : RunContext F) (state : RunState F) (stage : Stage) :
    Except CompileFailure Compilation :=
  prepareTestbenchPlanNgspice ctx.host.toHost ctx.plan (ctx.captureDut stage.id) ctx.corner stage
    state.bindingValues

def runStage (ctx : RunContext F) (state : RunState F) (stage : Stage) :
    Except String (RunState F) :=
  if (selectedPoints stage ctx.corner).isEmpty then .ok state
  else match compileStage ctx state stage with
    | .error failure => .ok (skipStage ctx state stage failure)
    | .ok compilation => executeStage ctx state stage compilation

def stage? (plan : PlanDocument) (stageId : Id) : Except String Stage :=
  match (InsertionDict.ofList (plan.stages.map fun stage => (stage.id, stage))).get? stageId with
  | some stage => .ok stage
  | none => .error (quoted stageId)

def scheduledStages (plan : PlanDocument) : Except String (List Stage) := do
  let order ← topologicalStages plan
  order.mapM (stage? plan)

def runStages (ctx : RunContext F) : Except String (RunState F) := do
  let stages ← scheduledStages ctx.plan
  stages.foldlM (runStage ctx) .initial

end

end OpenADA.Runner
