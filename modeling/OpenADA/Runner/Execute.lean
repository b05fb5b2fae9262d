import OpenADA.Runner.Measure

/-! Execution of the compiled conditions of one stage. The executor and the raw-file extraction
are the host's; a condition either completes with its waveform or is recorded as invalid. -/
namespace OpenADA.Runner

open OpenADA.Plan OpenADA.Compiler

def maxProcessCaptureBytes : ℕ := 4 * 1024 * 1024

def maxWaveformBytes : ℕ := 256 * 1024 * 1024

def maxEnvelopeConditions : ℕ := 10000

def clip (length : ℕ) (text : String) : String := String.ofList (text.toList.take length)

structure SimulatorExecution where
  returncode : ℤ
  stdoutBytes : List UInt8
  stderrBytes : List UInt8
  waveformBytes : List UInt8
  simulatorIdentity : String
  deriving DecidableEq

/-- An exception caught by the runner: its text and the name of its type. -/
structure Raised where
  text : String
  typeName : String
  deriving DecidableEq

/-- `str(exc)[:1024] or type(exc).__name__`. -/
def Raised.reason (raised : Raised) : String :=
  if raised.text = "" then raised.typeName else clip 1024 raised.text

def valueError {α : Type} (text : String) : Except Raised α := .error ⟨text, "ValueError"⟩

inductive ExecutorOutcome where
  | raised (exception : Raised)
  | invalidRecord
  | malformedFields
  | returned (execution : SimulatorExecution)
  deriving DecidableEq

/-- The executor as one run observes it: a run calls it at most once per condition. -/
abbrev ConditionExecutor := CompiledCondition → ExecutorOutcome

inductive RawAnalysis where
  | op | dc | tran
  deriving DecidableEq

structure ExtractedSignal (F : Type) where
  name : String
  realValues : List F
  imaginaryValues : Option (List F)

structure Extraction (F : Type) where
  valid : Bool
  reason : String
  axisName : Option String
  axisValues : List F
  signals : List (ExtractedSignal F)

/-- The host of a run: the compiler's host and `extract_analysis_raw` over the waveform bytes
for an analysis type and the selected variables. -/
structure RunnerHost (F : Type) extends Host where
  extractAnalysisRaw : RawAnalysis → List String → List UInt8 → Except Raised (Extraction F)

inductive AttemptStatus where
  | completed | invalid
  deriving DecidableEq

structure ConditionAttempt where
  conditionId : String
  stageId : Id
  pointId : Id
  conditionSha256 : Sha256
  compiledDeckSha256 : Sha256
  waveformSha256 : Sha256
  simulatorIdentity : String
  simulatorInvoked : Bool
  returncode : Option ℤ
  status : AttemptStatus
  reason : String
  emittedObservables : List Id
  stdoutSha256 : Sha256
  stderrSha256 : Sha256
  deriving DecidableEq

def ConditionAttempt.key (attempt : ConditionAttempt) : Id × Id := (attempt.stageId, attempt.pointId)

structure Refusal where
  code : String
  conditionId : Option String
  message : String
  deriving DecidableEq

def pointDocument? (plan : PlanDocument) (stageId pointId : Id) : Option ConditionPoint :=
  (InsertionDict.ofList (plan.stages.flatMap fun stage =>
    stage.points.map fun point => ((stage.id, point.id), point))).get? (stageId, pointId)

section

variable {F : Type} [PyFloat F]

/-- The settling the runner implements for an analysis, as the first reason against it. -/
def settleRefusal (F : Type) [PyFloat F] (settle : SettlePolicy) (analysis : Analysis) :
    Option String :=
  match settle with
  | .untilDelta .. => some "until_delta settle enforcement is not implemented"
  | .operatingPoint =>
    if analysis.isDcSweep then none
    else some "operating_point settling is incompatible with transient execution"
  | .fixedTime duration =>
    if analysis.isDcSweep then some "DC execution requires explicit operating_point settling"
    else if PyFloat.eq (number (F := F) duration) (number 0) then none
    else some "nonzero transient fixed_time settling is not implemented"

def admitCondition (host : RunnerHost F) (point : Option ConditionPoint)
    (condition : CompiledCondition) : Except Raised ConditionPoint :=
  match point with
  | none => valueError "compiled condition has no plan point"
  | some point =>
    if host.sha256 condition.deckBytes ≠ condition.deckSha256 then
      valueError "compiled deck bytes do not match compiler digest"
    else if host.sha256 (host.canonicalBytes condition.semantics) ≠ condition.conditionSha256 then
      valueError "compiled condition semantics do not match condition digest"
    else match point.statePolicy with
      | .carryover .. =>
        valueError "carryover execution is not supported without a state receipt"
      | .fresh _ =>
        match settleRefusal F point.settlePolicy point.analysis with
        | some text => valueError text
        | none => .ok point

def admitExecution (outcome : ExecutorOutcome) : Except Raised SimulatorExecution :=
  match outcome with
  | .raised exception => .error exception
  | .invalidRecord => valueError "executor returned an invalid execution record"
  | .malformedFields => valueError "executor returned malformed bounded fields"
  | .returned execution =>
    let identityLength := execution.simulatorIdentity.toList.length
    if identityLength < 1 ∨ 512 < identityLength then
      valueError "executor returned malformed bounded fields"
    else if maxWaveformBytes < execution.waveformBytes.length then
      valueError "executor waveform exceeds runner limit"
    else if maxProcessCaptureBytes < execution.stdoutBytes.length ∨
        maxProcessCaptureBytes < execution.stderrBytes.length then
      valueError "executor process capture exceeds runner limit"
    else .ok execution

structure VariableRequest where
  names : List String
  aliases : InsertionDict String String

/-- A differential voltage against ground is requested without its reference. -/
def requestVector (request : VariableRequest) (native : String) : VariableRequest :=
  if native = "" ∨ native ∈ request.names then request
  else
    let selected := (groundedAlias (casefold native)).getD (casefold native)
    ⟨request.names ++ [selected], request.aliases.set selected (casefold native)⟩

def requestedVariables (condition : CompiledCondition) : VariableRequest :=
  (condition.expectedProbes.flatMap ExpectedProbe.nativeVectors).foldl requestVector
    ⟨[], .empty⟩

def rawAnalysis (analysis : Analysis) (condition : CompiledCondition) : RawAnalysis :=
  if analysis.isDcSweep then
    if condition.sample.isSome then .op else .dc
  else .tran

def storeSignal (aliases : InsertionDict String String) (signals : InsertionDict String (List F))
    (signal : ExtractedSignal F) : Except Raised (InsertionDict String (List F)) :=
  match signal.imaginaryValues with
  | some _ => valueError s!"complex probe {quoted signal.name} is unsupported"
  | none =>
    let key := casefold signal.name
    .ok (signals.set ((aliases.get? key).getD key) signal.realValues)

/-- `extraction.axis_name or "axis"`. -/
def axisLabel : Option String → String
  | none => "axis"
  | some name => if name = "" then "axis" else name

/-- `_extract_waveform`. -/
def extractWaveform (host : RunnerHost F) (condition : CompiledCondition)
    (point : ConditionPoint) (waveformBytes : List UInt8) : Except Raised (Waveform F) := do
  let request := requestedVariables condition
  if request.names = [] then
    valueError "compiler condition declares no native probe vectors"
  let extraction ← host.extractAnalysisRaw (rawAnalysis point.analysis condition) request.names
    waveformBytes
  if !extraction.valid then
    valueError s!"waveform extraction refused: {extraction.reason}"
  let signals ← extraction.signals.foldlM (storeSignal request.aliases) .empty
  .ok ⟨axisLabel extraction.axisName, extraction.axisValues, signals⟩

def readExecution (host : RunnerHost F) (condition : CompiledCondition) (point : ConditionPoint)
    (execution : SimulatorExecution) : Except Raised (Waveform F) :=
  if execution.returncode ≠ 0 then
    let captured := host.decodeReplace (execution.stderrBytes.take maxProcessCaptureBytes)
    valueError s!"simulator exit {execution.returncode}: {clip 512 captured}"
  else if execution.waveformBytes = [] then valueError "simulator emitted no waveform bytes"
  else extractWaveform host condition point execution.waveformBytes

/-- How far a condition got: the execution if one was admitted, and the waveform or the reason
there is none. -/
structure ConditionResult (F : Type) where
  invoked : Bool
  execution : Option SimulatorExecution
  waveform : Except Raised (Waveform F)

def runCondition (host : RunnerHost F) (plan : PlanDocument) (executor : ConditionExecutor)
    (condition : CompiledCondition) : ConditionResult F :=
  match admitCondition host (pointDocument? plan condition.stageId condition.pointId)
      condition with
  | .error raised => ⟨false, none, .error raised⟩
  | .ok point =>
    match admitExecution (executor condition) with
    | .error raised => ⟨true, none, .error raised⟩
    | .ok execution => ⟨true, some execution, readExecution host condition point execution⟩

def resultStatus (result : ConditionResult F) : AttemptStatus :=
  match result.waveform with
  | .ok _ => .completed
  | .error _ => .invalid

def resultReason (result : ConditionResult F) : String :=
  match result.waveform with
  | .ok _ => "ok"
  | .error raised => raised.reason

def captured (result : ConditionResult F) (field : SimulatorExecution → List UInt8) :
    List UInt8 :=
  (result.execution.map field).getD []

def attemptOf (host : Host) (condition : CompiledCondition) (result : ConditionResult F) :
    ConditionAttempt where
  conditionId := condition.conditionId
  stageId := condition.stageId
  pointId := condition.pointId
  conditionSha256 := condition.conditionSha256
  compiledDeckSha256 := host.sha256 condition.deckBytes
  waveformSha256 := host.sha256 (captured result SimulatorExecution.waveformBytes)
  simulatorIdentity :=
    (result.execution.map SimulatorExecution.simulatorIdentity).getD "not-executed"
  simulatorInvoked := result.invoked
  returncode := result.execution.map SimulatorExecution.returncode
  status := resultStatus result
  reason := resultReason result
  emittedObservables := []
  stdoutSha256 := host.sha256 (captured result SimulatorExecution.stdoutBytes)
  stderrSha256 := host.sha256 (captured result SimulatorExecution.stderrBytes)

def conditionRefusal (condition : CompiledCondition) (result : ConditionResult F) :
    List Refusal :=
  match result.waveform with
  | .ok _ => []
  | .error raised => [⟨"testbench_plan.runner.condition_invalid", some condition.conditionId,
      raised.reason⟩]

abbrev PointWaveforms (F : Type) := InsertionDict (Id × Id) (List (Entry F))

structure Execution (F : Type) where
  attempts : List ConditionAttempt
  refusals : List Refusal
  waveforms : PointWaveforms F
  simulatorIdentities : IdSet

def storeWaveform (waveforms : PointWaveforms F) (condition : CompiledCondition)
    (result : ConditionResult F) : PointWaveforms F :=
  match result.waveform with
  | .error _ => waveforms
  | .ok waveform =>
    let key := (condition.stageId, condition.pointId)
    waveforms.set key ((waveforms.get? key).getD [] ++ [(condition, waveform)])

def executeStep (host : RunnerHost F) (plan : PlanDocument) (executor : ConditionExecutor)
    (state : Execution F) (condition : CompiledCondition) : Execution F :=
  let result := runCondition host plan executor condition
  { attempts := state.attempts ++ [attemptOf host.toHost condition result]
    refusals := state.refusals ++ conditionRefusal condition result
    waveforms := storeWaveform state.waveforms condition result
    simulatorIdentities := state.simulatorIdentities ∪
      (result.execution.map fun e => ({e.simulatorIdentity} : IdSet)).getD ∅ }

/-- `_execute_compilation_conditions`. -/
def executeCompilationConditions (host : RunnerHost F) (plan : PlanDocument)
    (executor : ConditionExecutor) (conditions : List CompiledCondition) : Execution F :=
  conditions.foldl (executeStep host plan executor) ⟨[], [], .empty, ∅⟩

end

structure NotExecutedSemantics where
  stageId : Id
  pointId : Id
  corner : Id
  reason : String
  inventoryComplete : Bool
  deriving DecidableEq

def gridSize (start stop step : ℚ) : Option ℕ :=
  if step ≤ 0 ∨ stop < start then none
  else match PyDecimal.div (PyDecimal.sub stop start) step with
    | none => none
    | some quotient =>
      if quotient ≠ ⌊quotient⌋ then none
      else
        let count := ⌊quotient⌋ + 1
        if 1 ≤ count ∧ count ≤ maxEnvelopeConditions then some count.toNat else none

/-- The identifier suffixes of a point that was not compiled, and whether they list the whole
grid: a sweep whose bounds are not literals has one placeholder. -/
def uncompiledSuffixes (analysis : Analysis) : List String × Bool :=
  match analysis with
  | .dcSweep _ (.literal start) (.literal stop) (.literal step) =>
    match gridSize start.value stop.value step.value with
    | some count => ((List.range count).map fun index => s!"not_executed.dc_{paddedIndex index}",
        true)
    | none => (["not_executed"], false)
  | .dcSweep .. => (["not_executed"], false)
  | _ => (["not_executed"], true)

def uncompiledAttempt (host : Host) (stageId pointId corner : Id) (reason : String)
    (inventoryComplete : Bool) (suffix : String) : ConditionAttempt where
  conditionId := stageId ++ "." ++ pointId ++ "." ++ suffix
  stageId := stageId
  pointId := pointId
  conditionSha256 := host.sha256 (host.canonicalBytes
    (NotExecutedSemantics.mk stageId pointId corner reason inventoryComplete))
  compiledDeckSha256 := host.sha256 []
  waveformSha256 := host.sha256 []
  simulatorIdentity := "not-executed"
  simulatorInvoked := false
  returncode := none
  status := .invalid
  reason := reason
  emittedObservables := []
  stdoutSha256 := host.sha256 []
  stderrSha256 := host.sha256 []

def uncompiledStep (host : Host) (stageId corner : Id) (reason : String)
    (state : List ConditionAttempt × Bool) (point : ConditionPoint) :
    List ConditionAttempt × Bool :=
  let suffixes := uncompiledSuffixes point.analysis
  let complete := state.2 && suffixes.2
  (state.1 ++ suffixes.1.map (uncompiledAttempt host stageId point.id corner reason complete),
    complete)

/-- `_uncompiled_attempts`. -/
def uncompiledAttempts (host : Host) (stage : Stage) (corner : Id) (reason : String) :
    List ConditionAttempt × Bool :=
  (selectedPoints stage corner).foldl (uncompiledStep host stage.id corner reason) ([], true)

end OpenADA.Runner
