import OpenADA.Runner.Run

/-! Observable emission and the evidence envelope of a run. -/
namespace OpenADA.Runner

open OpenADA.Plan OpenADA.Compiler

inductive RuleSource where
  | point (stageId pointId ruleId : Id)
  | stage (stageId ruleId : Id)
  deriving DecidableEq

def RuleSource.ruleId : RuleSource → Id
  | .point _ _ ruleId => ruleId
  | .stage _ ruleId => ruleId

/-- The verdict name of a rule whose identifier is not unique in the plan. -/
def RuleSource.qualified : RuleSource → String
  | .point stageId pointId ruleId => stageId ++ "." ++ pointId ++ "." ++ ruleId
  | .stage stageId ruleId => stageId ++ "." ++ ruleId

structure RuleVerdict where
  verdict : String
  lineage : IdSet
  deriving DecidableEq

abbrev RuleVerdicts := InsertionDict RuleSource RuleVerdict

inductive Observed (F : Type) where
  | measured (value : Payload F)
  | verdict (text : String)

section

variable {F : Type} [PyFloat F]

def valuesLineage (values : PointValues F) : IdSet :=
  values.entries.foldr (fun entry acc => entry.2.conditionIds ∪ acc) ∅

def attemptIds (attempts : List ConditionAttempt) : List String :=
  attempts.map ConditionAttempt.conditionId

def ruleLineage (values : PointValues F) (attempts : List ConditionAttempt) : IdSet :=
  if valuesLineage values = ∅ then (attemptIds attempts).toFinset else valuesLineage values

structure OutputContext (F : Type) where
  plan : PlanDocument
  corner : Id
  values : ConditionValues F
  attempts : List ConditionAttempt

def validityRefusal (source : Id × Id) (rule : ValidityRule) (failure : ValidityFailure) :
    Refusal :=
  let kind := match failure with
    | .unsupported _ => "validity_unsupported"
    | .invalid _ => "validity_invalid"
  ⟨s!"testbench_plan.runner.{kind}", none,
    s!"{source.1}.{source.2}.{rule.id}: {clip 1024 failure.text}"⟩

/-- The verdict text of a point rule: an incomplete condition makes it unknown. -/
def pointRuleVerdict (ctx : OutputContext F) (key : Id × Id) (rule : ValidityRule) :
    String × List Refusal :=
  match (attemptsAt ctx.attempts key).find? fun a => decide (a.status ≠ .completed) with
  | some attempt => (unknownVerdict attempt.reason, [])
  | none =>
    match evaluateValidityRule rule (valuesAt ctx.values key) ctx.plan ctx.corner with
    | .ok verdict => (verdict, [])
    | .error failure =>
      (unknownVerdict s!"validity evaluation failed: {clip 512 failure.text}",
        [validityRefusal key rule failure])

/-- The rule verdicts collected so far and the refusals raised with them. -/
structure RuleScan where
  verdicts : RuleVerdicts
  refusals : List Refusal

def pointRuleStep (ctx : OutputContext F) (key : Id × Id) (scan : RuleScan)
    (rule : ValidityRule) : RuleScan :=
  let result := pointRuleVerdict ctx key rule
  let lineage := ruleLineage (valuesAt ctx.values key) (attemptsAt ctx.attempts key)
  ⟨scan.verdicts.set (.point key.1 key.2 rule.id) ⟨result.1, lineage⟩,
    scan.refusals ++ result.2⟩

def stageAttempts (attempts : List ConditionAttempt) (stageId : Id) : List ConditionAttempt :=
  attempts.filter fun attempt => decide (attempt.stageId = stageId)

/-- The conditions of a stage with everything its measured values depend on. -/
def stageLineage (ctx : OutputContext F) (stageId : Id) : IdSet :=
  ctx.values.entries.foldr
    (fun entry acc => if entry.1.1 = stageId then valuesLineage entry.2 ∪ acc else acc)
    (attemptIds (stageAttempts ctx.attempts stageId)).toFinset

def stageRuleStep (ctx : OutputContext F) (stageId : Id) (scan : RuleScan)
    (rule : StageValidityRule) : RuleScan :=
  ⟨scan.verdicts.set (.stage stageId rule.id)
      ⟨unknownVerdict "stage reductions unsupported", stageLineage ctx stageId⟩,
    scan.refusals ++ [⟨"testbench_plan.runner.validity_unsupported", none,
      s!"{stageId}.{rule.id}: stage reduction validity is unsupported"⟩]⟩

def pointRules (ctx : OutputContext F) (stageId : Id) (scan : RuleScan)
    (point : ConditionPoint) : RuleScan :=
  point.validityRules.foldl (pointRuleStep ctx (stageId, point.id)) scan

def stageRules (ctx : OutputContext F) (scan : RuleScan) (stage : Stage) : RuleScan :=
  let measured := (selectedPoints stage ctx.corner).foldl (pointRules ctx stage.id) scan
  if stage.reductions ≠ [] ∧ stageAttempts ctx.attempts stage.id ≠ [] then
    stage.validityRules.foldl (stageRuleStep ctx stage.id) measured
  else measured

def ruleScan (ctx : OutputContext F) : RuleScan :=
  ctx.plan.stages.foldl (stageRules ctx) ⟨.empty, []⟩

def verdictName (verdicts : RuleVerdicts) (source : RuleSource) : String :=
  if (verdicts.keys.filter fun other => decide (other.ruleId = source.ruleId)).length = 1 then
    source.ruleId
  else source.qualified

def publishedVerdicts (verdicts : RuleVerdicts) : InsertionDict String String :=
  InsertionDict.ofList (verdicts.entries.map fun entry =>
    (verdictName verdicts entry.1, entry.2.verdict))

structure Emission (F : Type) where
  observables : InsertionDict Id (Observed F)
  lineage : InsertionDict Id IdSet
  refusals : List Refusal

def Emission.refuse (emission : Emission F) (kind message : String) : Emission F :=
  { emission with
    refusals := emission.refusals ++ [⟨s!"testbench_plan.runner.{kind}", none, message⟩] }

def emitMeasurement (ctx : OutputContext F) (emission : Emission F) (name stageId pointId : Id)
    (measurementId : Id) : Emission F :=
  match (valuesAt ctx.values (stageId, pointId)).get? measurementId with
  | none => emission.refuse "observable_unavailable"
      s!"observable {quoted name} measurement is unavailable"
  | some item =>
    { emission with
      observables := emission.observables.set name (.measured item.value)
      lineage := emission.lineage.set name item.conditionIds }

/-- A verdict observable with its linked conditions; without any it is withdrawn. -/
def emitVerdict (emission : Emission F) (label : String) (name : Id) (verdict : Option String)
    (linked : IdSet) : Emission F :=
  match verdict with
  | none => emission
  | some text =>
    if linked = ∅ then
      { emission with observables := emission.observables.erase name }.refuse
        "observable_lineage_missing"
        s!"{label} observable {quoted name} has no condition receipt"
    else
      { emission with
        observables := emission.observables.set name (.verdict text)
        lineage := emission.lineage.set name linked }

def unsupportedReduction (emission : Emission F) (name : Id) : Emission F :=
  emission.refuse "observable_unsupported"
    s!"observable {quoted name} requires unsupported stage reduction evaluation"

def publishedVerdict (verdicts : RuleVerdicts) (source : RuleSource) : Option String :=
  if source ∈ verdicts.keys then (publishedVerdicts verdicts).get? (verdictName verdicts source)
  else none

def linkedConditions (verdicts : RuleVerdicts) (source : RuleSource) : IdSet :=
  ((verdicts.get? source).map RuleVerdict.lineage).getD ∅

def emitObservable (ctx : OutputContext F) (verdicts : RuleVerdicts) (emission : Emission F)
    (observable : Observable) : Emission F :=
  match observable.source with
  | .measurement stageId pointId measurementId =>
    emitMeasurement ctx emission observable.id stageId pointId measurementId
  | .validity stageId pointId ruleId =>
    let source := RuleSource.point stageId pointId ruleId
    emitVerdict emission "validity" observable.id (publishedVerdict verdicts source)
      (linkedConditions verdicts source)
  | .stageValidity stageId ruleId =>
    let source := RuleSource.stage stageId ruleId
    match publishedVerdict verdicts source with
    | none => unsupportedReduction emission observable.id
    | some text => emitVerdict emission "stage-validity" observable.id (some text)
        (linkedConditions verdicts source)
  | .reduction .. => unsupportedReduction emission observable.id

/-- `_evaluate_plan_outputs`. -/
def evaluatePlanOutputs (ctx : OutputContext F) : RuleVerdicts × Emission F :=
  let rules := ruleScan ctx
  (rules.verdicts, ctx.plan.observables.foldl (emitObservable ctx rules.verdicts)
    ⟨.empty, .empty, rules.refusals⟩)

/-- Whether the lineage of an observable is nonempty and in the inventory. -/
def Closed (known : List String) (conditionIds : IdSet) : Prop :=
  conditionIds ≠ ∅ ∧ ∀ identifier ∈ conditionIds, identifier ∈ known

instance (known : List String) (conditionIds : IdSet) : Decidable (Closed known conditionIds) :=
  inferInstanceAs (Decidable (_ ∧ _))

def closeLineage (known : List String) (emission : Emission F) (entry : Id × IdSet) : Emission F :=
  if Closed known entry.2 then emission
  else
    { emission with
      observables := emission.observables.erase entry.1
      lineage := emission.lineage.erase entry.1 }.refuse
        "observable_lineage_invalid"
        s!"observable {quoted entry.1} does not have closed condition lineage"

def closedEmission (known : List String) (emission : Emission F) : Emission F :=
  emission.lineage.entries.foldl (closeLineage known) emission

def emittedBy (lineage : InsertionDict Id IdSet) (conditionId : String) : List Id :=
  ((lineage.entries.filter fun entry => decide (conditionId ∈ entry.2)).map
    Prod.fst).insertionSort (· ≤ ·)

structure ConditionRecord where
  id : String
  observables : List Id
  compiledDeckSha256 : Sha256
  waveformSha256 : Sha256
  deriving DecidableEq

structure LineageRecord where
  observable : Id
  conditionIds : List String
  deriving DecidableEq

/-- The `simra.testbench-observables/v1` envelope. -/
structure Envelope (F : Type) where
  planSha256 : Sha256
  dutSha256 : Sha256
  corner : Id
  validity : InsertionDict String String
  observables : InsertionDict Id (Observed F)
  gradingRuntime : F
  conditions : List ConditionRecord
  lineage : List LineageRecord

structure RunResult (F : Type) where
  envelope : Envelope F
  attempts : List ConditionAttempt
  refusals : List Refusal
  compilations : List Compilation
  inventoryComplete : Bool

def markEmitted (lineage : InsertionDict Id IdSet) (attempt : ConditionAttempt) :
    ConditionAttempt :=
  { attempt with emittedObservables := emittedBy lineage attempt.conditionId }

def conditionRecord (attempt : ConditionAttempt) : ConditionRecord :=
  ⟨attempt.conditionId, attempt.emittedObservables, attempt.compiledDeckSha256,
    attempt.waveformSha256⟩

def lineageRecords (lineage : InsertionDict Id IdSet) : List LineageRecord :=
  (lineage.entries.insertionSort fun a b => a.1 ≤ b.1).map fun entry =>
    ⟨entry.1, entry.2.sortedList⟩

def envelopeDut (plan : PlanDocument) (captured : Option Sha256) : Except String Sha256 :=
  match captured with
  | some digest => .ok digest
  | none =>
    if h : plan.dut.sha256.toList.length = 64 ∧ plan.dut.sha256.toList.all isHexDigit = true then
      .ok ⟨plan.dut.sha256, h⟩
    else .error "runner DUT digest is not a lowercase SHA-256"

def checkInventory (conditionIds : List String) : Except String Unit :=
  if ¬ conditionIds.Nodup then .error "execution produced duplicate condition identifiers"
  else if maxEnvelopeConditions < conditionIds.length then
    .error ("execution condition inventory exceeds the " ++
      "testbench-observables/v1 boundary")
  else .ok ()

def outputContext (ctx : RunContext F) (state : RunState F) : OutputContext F :=
  ⟨ctx.plan, ctx.corner, state.conditionValues, state.attempts⟩

def assemble (ctx : RunContext F) (state : RunState F) (elapsed : F) (dutSha256 : Sha256) :
    RunResult F :=
  let outputs := evaluatePlanOutputs (outputContext ctx state)
  let emission := closedEmission (attemptIds state.attempts) outputs.2
  let attempts := state.attempts.map (markEmitted emission.lineage)
  { envelope :=
      { planSha256 := planSha256 ctx.host.toHost ctx.plan, dutSha256 := dutSha256
        corner := ctx.corner, validity := publishedVerdicts outputs.1
        observables := emission.observables, gradingRuntime := PyFloat.max (number 0) elapsed
        conditions := attempts.map conditionRecord
        lineage := lineageRecords emission.lineage }
    attempts := attempts
    refusals := state.refusals ++ emission.refusals
    compilations := state.compilations
    inventoryComplete := state.inventoryComplete }

def requireCorner (plan : PlanDocument) (corner : Id) : Except String Unit :=
  if corner ∈ plan.cornerBindings.map CornerBinding.id then .ok ()
  else .error s!"corner {quoted corner} is not declared by the plan"

/-- `execute_testbench_plan_ngspice` with an injected executor and the measured run time. -/
def executeTestbenchPlanNgspice (ctx : RunContext F) (elapsed : F) :
    Except String (RunResult F) := do
  requireCorner ctx.plan ctx.corner
  let state ← runStages ctx
  let dutSha256 ← envelopeDut ctx.plan state.dutSha256
  checkInventory (attemptIds state.attempts)
  .ok (assemble ctx state elapsed dutSha256)

end

section Specimen

/-! A host whose simulator answers every requested vector with one ramp, so that small plans can
be run to their envelope. -/

def specimenDigest (bytes : List UInt8) : Sha256 :=
  let sum := bytes.foldl (fun acc byte => (acc * 257 + byte.toNat) % 16 ^ 8) 1
  let digits := (Nat.toDigits 16 sum).take 8
  if h : digits.length ≤ 64 ∧ digits.all isHexDigit = true then
    ⟨String.ofList (List.replicate (64 - digits.length) '0' ++ digits), by
      have hzero : isHexDigit '0' = true := by decide
      simp only [String.toList_ofList, List.length_append, List.length_replicate, List.all_append,
        List.all_replicate, hzero, h.2]
      constructor
      · omega
      · simp⟩
  else ⟨String.ofList (List.replicate 64 '0'), by decide⟩

def specimenExtraction (analysis : RawAnalysis) (names : List String) : Extraction ℚ where
  valid := true
  reason := "ok"
  axisName := some "time"
  axisValues := if analysis = .op then [0] else [0, 2, 4, 8]
  signals := names.map fun name =>
    ⟨name, if analysis = .op then [1] else [1, 2, 3, 5], none⟩

def specimenHost : RunnerHost ℚ where
  sha256 := specimenDigest
  canonicalBytes := fun _ => []
  deckBytes := fun source => asciiBytes source.conditionId
  decodeReplace := fun bytes => String.ofList (bytes.map fun byte => Char.ofNat byte.toNat)
  extractAnalysisRaw := fun analysis names _ => .ok (specimenExtraction analysis names)

def specimenExecution : SimulatorExecution := ⟨0, [], [], [1], "ngspice-specimen"⟩

def specimenSealedDut : SealedDut := ⟨specimenDigest [], specimenDigest [], "X_cell_RAMP"⟩

def specimenContext (plan : PlanDocument) (executor : ConditionExecutor) : RunContext ℚ where
  host := specimenHost
  plan := plan
  corner := "tt"
  executor := executor
  captureDut := fun _ => .ok specimenSealedDut

def waveContext : RunContext ℚ := specimenContext wavePlan fun _ => .returned specimenExecution

theorem waveContext_emits : ((executeTestbenchPlanNgspice waveContext 1).toOption.map
    fun result => result.envelope.observables.keys) = some ["wave"] := by
  decide +kernel

end Specimen

end OpenADA.Runner
