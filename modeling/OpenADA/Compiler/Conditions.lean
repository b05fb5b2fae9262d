import OpenADA.Compiler.Resolve

/-! The conditions one stage compiles into. The deck text is left to its renderer; what is
modelled is everything the serializer can refuse, the probe vectors it expects, and the record
each condition identifier and digest is made of. -/
namespace OpenADA.Compiler

open OpenADA.Plan

structure ExpectedProbe where
  id : Id
  nativeVectors : List String
  polarityMultiplier : ℤ
  available : Bool
  deriving DecidableEq

structure ResolvedAnalysis where
  kind : String
  stimulusId : Id
  fields : List (String × ResolvedQuantity)
  sample : Option (ℕ × ResolvedQuantity)
  deriving DecidableEq

structure StimulusDetail where
  id : Id
  kind : StimulusKind
  resolvedPhaseOffset : Option ResolvedQuantity
  deriving DecidableEq

structure ConditionSemantics where
  stageId : Id
  pointId : Id
  corner : CornerBinding
  parameters : List (Id × ResolvedQuantity)
  resolvedBindings : List BoundInput
  statePolicy : StatePolicy
  settlePolicy : SettlePolicy
  activeStimuli : List StimulusDetail
  analysis : ResolvedAnalysis
  deriving DecidableEq

structure SealedDut where
  rawSha256 : Sha256
  canonicalSha256 : Sha256
  sealedTop : String
  deriving DecidableEq

structure DeckSource where
  planSha256 : Sha256
  sealedDut : SealedDut
  corner : CornerBinding
  point : ConditionPoint
  stageInputs : List (Id × BoundInput)
  conditionId : String
  conditionSha256 : Sha256
  dcSample : Option ℚ
  deriving DecidableEq

/-- What the model takes from its host: the digest function, the canonical JSON bytes of a
record, the deck renderer, and the replacing UTF-8 decoder. -/
structure Host where
  sha256 : List UInt8 → Sha256
  canonicalBytes : {α : Type} → α → List UInt8
  deckBytes : DeckSource → List UInt8
  decodeReplace : List UInt8 → String

def asciiBytes (text : String) : List UInt8 := text.toList.map fun c => UInt8.ofNat c.toNat

structure CompiledCondition where
  stageId : Id
  pointId : Id
  conditionId : String
  conditionSha256 : Sha256
  relativeDeckPath : String
  deckBytes : List UInt8
  deckSha256 : Sha256
  expectedProbes : List ExpectedProbe
  semantics : ConditionSemantics
  /-- The receipt's `sample_index` and the number its `sample_value` token denotes. -/
  sample : Option (ℕ × ℚ)

abbrev SupplyValues := InsertionDict Id ℚ

/-- `_supply_values`. -/
def supplyValues (plan : PlanDocument) (corner : CornerBinding) :
    Except CompileFailure SupplyValues :=
  plan.supplies.foldlM (fun (output : SupplyValues) supply =>
    match corner.value? supply.valueId with
    | some ⟨value, .V⟩ => do
      let exact ← decimal (some value) s!"/corner_bindings/{corner.id}/{supply.valueId}"
      .ok (output.set supply.id exact)
    | _ => refuse "testbench_plan.compiler.corner_value_unresolved"
        s!"/corner_bindings/{corner.id}/values"
        s!"supply {quoted supply.id} has no voltage binding") .empty

/-- `_scaled_level`. -/
def scaledLevel (level : ScaledLevel) (values : SupplyValues) (path : String) :
    Except CompileFailure ℚ :=
  match values.get? level.supplyId with
  | none => refuse "testbench_plan.compiler.supply_unresolved" path
      s!"unknown supply {quoted level.supplyId}"
  | some value => do
    let fraction ← decimal (some level.fraction) s!"{path}/fraction"
    .ok (PyDecimal.mul value fraction)

/-- `_stimulus_source_names`. -/
def stimulusSourceNames (stimulus : Stimulus) : List String :=
  let base := s!"V_STIM_{stimulus.id}"
  if stimulus.kind = .phaseOffsetPair then [base ++ "_REF", base ++ "_OFFSET"] else [base]

def connection (plan : PlanDocument) (port : String) : Except CompileFailure String :=
  match plan.dut.connections.lookup port with
  | some net => .ok net
  | none => keyError port

def pulseLevels (pulse : PulseShape) (values : SupplyValues) : Except CompileFailure (ℚ × ℚ) := do
  let low ← scaledLevel pulse.lowLevel values "/stimulus/low_level"
  let high ← scaledLevel pulse.highLevel values "/stimulus/high_level"
  .ok (low, high)

def pulseTimes (stimulusId : Id) (pulse : PulseShape) : Except CompileFailure (List ℚ) :=
  [(pulse.delay, s!"/stimuli/{stimulusId}/delay"), (pulse.riseTime, "/stimulus/rise_time"),
    (pulse.fallTime, "/stimulus/fall_time"), (pulse.pulseWidth, "/stimulus/pulse_width"),
    (pulse.period, "/stimulus/period")].mapM fun entry => decimal (some entry.1) entry.2

/-- The delay of the offset source: the phase added modulo the period, in `[0, period)`. -/
def offsetDelay (delay phase period : ℚ) : Except CompileFailure ℚ :=
  match (PyDecimal.rem (PyDecimal.add delay phase) period).bind fun value =>
      PyDecimal.rem (PyDecimal.add value period) period with
  | some value => .ok value
  | none => .error (.raised "[<class 'decimal.DivisionImpossible'>]")

/-- `_serialize_stimulus`: the names of the emitted sources, or why none is emitted. -/
def serializeStimulus (plan : PlanDocument) (values : SupplyValues) (inputs : BoundInputs)
    (stimulus : Stimulus) (dcValue : Option ℚ) : Except CompileFailure (List String) :=
  match supplyIdOf stimulus.body with
  | none => keyError "supply_id"
  | some supplyId =>
    if supplyId ∉ plan.supplies.map Supply.id then keyError supplyId
    else match stimulus.body with
      | .dcState _ targetPort _ level => do
        match dcValue with
        | some _ => pure ()
        | none => discard (scaledLevel level values s!"/stimuli/{stimulus.id}/level")
        discard (connection plan targetPort)
        .ok (stimulusSourceNames stimulus)
      | .pulseTrain _ targetPort _ pulse => do
        discard (pulseTimes stimulus.id pulse)
        discard (pulseLevels pulse values)
        discard (connection plan targetPort)
        .ok (stimulusSourceNames stimulus)
      | .phaseOffsetPair _ referencePort offsetPort _ _ pulse phaseOffset => do
        discard (pulseTimes stimulus.id pulse)
        let phase ← resolveDecimal phaseOffset inputs s!"/stimuli/{stimulus.id}/phase_offset"
        discard (offsetDelay pulse.delay phase pulse.period)
        discard (pulseLevels pulse values)
        discard (connection plan referencePort)
        discard (connection plan offsetPort)
        .ok (stimulusSourceNames stimulus)
      | .smallSignalAc .. => keyError "supply_id"

def currentPorts (plan : PlanDocument) : List String :=
  plan.probes.filterMap fun probe =>
    match probe.body with
    | .dutPortCurrent port _ => some port
    | _ => none

/-- `dut_terminals[port]` of a declared port. -/
def dutTerminal (plan : PlanDocument) (port : String) : Except CompileFailure String :=
  if port ∉ plan.dut.ports.map DutPort.name then keyError port
  else if port ∈ currentPorts plan then .ok s!"N_OPENADA_DUT_{port}"
  else connection plan port

def instanceName : String := "X_OPENADA_DUT"

abbrev EmittedSources := InsertionDict Id (List String)

def branchVector (names : List String) : BranchSelection → List String
  | .single => if names.length = 1 then names.take 1 else []
  | .reference => if names.length = 2 then names.take 1 else []
  | .offset => if names.length = 2 then (names.drop 1).take 1 else []

/-- One item of `_expected_probes`. -/
def expectedProbe (plan : PlanDocument) (emitted : EmittedSources) (probe : Probe) :
    Except CompileFailure ExpectedProbe :=
  match probe.body with
  | .dutPortVoltage port referencePort => do
    let terminal ← dutTerminal plan port
    let reference ← dutTerminal plan referencePort
    .ok ⟨probe.id, [s!"v({terminal},{reference})"], 1, true⟩
  | .dutPortCurrent port intoDut =>
    .ok ⟨probe.id, [s!"i(V_PROBE_PORT_{port})"], if intoDut then 1 else -1, true⟩
  | .dutInternalNode node referencePort => do
    let reference ← dutTerminal plan referencePort
    .ok ⟨probe.id, [s!"v({instanceName}.{node},{reference})"], 1, true⟩
  | .stimulusBranchCurrent stimulusId branch deliveredByStimulus =>
    let selected := branchVector ((emitted.get? stimulusId).getD []) branch
    .ok ⟨probe.id, selected.map fun name => s!"i({name})",
      if deliveredByStimulus then -1 else 1, !selected.isEmpty⟩
  | .pllLoopGain .. => .ok ⟨probe.id, [], 1, false⟩

/-- `_require_measurement_probes`. -/
def requireMeasurementProbes (point : ConditionPoint) (expected : List ExpectedProbe) :
    Except CompileFailure Unit :=
  let availability := InsertionDict.ofList (expected.map fun item => (item.id, item.available))
  point.measurements.forM fun measurement =>
    match measurement.body.probeId? with
    | none => .ok ()
    | some probeId =>
      if availability.get? probeId = some true then .ok ()
      else refuse "testbench_plan.compiler.measurement_probe_unavailable"
        s!"/measurements/{measurement.id}/probe_id"
        s!"probe {quoted probeId} is not emitted in this condition"

def boundFields : Analysis → List (String × ValueSource)
  | .dcSweep _ start stop step => [("start", start), ("stop", stop), ("step", step)]
  | .pulseTrainTransient _ step stop => [("stop", stop), ("step", step)]
  | .phaseOffsetPairTransient _ step stop => [("stop", stop), ("step", step)]
  | .linearAc _ _ start stop => [("start", start), ("stop", stop)]

def supportedAnalysis : Analysis → Bool
  | .linearAc .. => false
  | _ => true

def requireDeckAnalysis (analysis : Analysis) : Except CompileFailure Unit :=
  if supportedAnalysis analysis then .ok ()
  else refuse "testbench_plan.compiler.analysis_unsupported" "/analysis/kind"
    s!"unsupported analysis kind {quoted analysis.symbol}"

def stimulus? (plan : PlanDocument) (identifier : Id) : Except CompileFailure Stimulus :=
  match plan.stimuli.find? fun item => decide (item.id = identifier) with
  | some stimulus => .ok stimulus
  | none => keyError identifier

def emittedSources (plan : PlanDocument) (point : ConditionPoint) (values : SupplyValues)
    (inputs : BoundInputs) (dcSample : Option ℚ) : Except CompileFailure EmittedSources :=
  point.activeStimulusIds.foldlM (fun (emitted : EmittedSources) identifier => do
    let stimulus ← stimulus? plan identifier
    let dcValue := if stimulus.id = point.analysis.stimulusId then dcSample else none
    let names ← serializeStimulus plan values inputs stimulus dcValue
    .ok (emitted.set stimulus.id names)) .empty

/-- `_serialize_deck`, as far as it can refuse, with the probe vectors it expects. -/
def serializeDeck (plan : PlanDocument) (corner : CornerBinding) (point : ConditionPoint)
    (inputs : BoundInputs) (dcSample : Option ℚ) : Except CompileFailure (List ExpectedProbe) := do
  let values ← supplyValues plan corner
  discard (point.activeStimulusIds.mapM (stimulus? plan))
  discard (plan.dut.ports.mapM fun port => dutTerminal plan port.name)
  discard (decimal (some corner.temperature) "/corner/temperature/value")
  let emitted ← emittedSources plan point values inputs dcSample
  discard ((currentPorts plan).mapM (connection plan))
  match point.statePolicy with
  | .fresh initial => discard (initial.mapM fun item =>
      decimal (some item.value) "/state_policy/initial_node_voltages/value")
  | .carryover .. => pure ()
  let expected ← plan.probes.mapM (expectedProbe plan emitted)
  requireMeasurementProbes point expected
  requireDeckAnalysis point.analysis
  .ok expected

/-- `f"{index:06d}"`. -/
def paddedIndex (index : ℕ) : String :=
  let digits := (toString index).toList
  String.ofList (List.replicate (6 - digits.length) '0' ++ digits)

def sampleSuffix (host : Host) (sample : ℕ × ℚ) : String :=
  let digest := host.sha256 (asciiBytes (PyDecimal.token sample.2))
  s!"dc_{paddedIndex sample.1}_{String.ofList (digest.1.toList.take 8)}"

def conditionIdentifier (host : Host) (stageId pointId : Id) (sample : Option (ℕ × ℚ)) : String :=
  match sample with
  | none => stageId ++ "." ++ pointId
  | some sample => stageId ++ "." ++ pointId ++ "." ++ sampleSuffix host sample

def relativeDeckPath (host : Host) (stageId pointId : Id) (sample : Option (ℕ × ℚ)) : String :=
  match sample with
  | none => s!"conditions/{stageId}/{pointId}.spice"
  | some sample => s!"conditions/{stageId}/{pointId}/{sampleSuffix host sample}.spice"

def stimulusDetail (plan : PlanDocument) (inputs : BoundInputs) (identifier : Id) :
    Except CompileFailure StimulusDetail := do
  let stimulus ← stimulus? plan identifier
  match stimulus.body with
  | .phaseOffsetPair _ _ _ _ _ _ phaseOffset =>
    let phase ← resolvedQuantity phaseOffset inputs s!"/stimuli/{identifier}/phase_offset"
    .ok ⟨identifier, stimulus.kind, some phase⟩
  | _ => .ok ⟨identifier, stimulus.kind, none⟩

structure CompileContext where
  host : Host
  plan : PlanDocument
  sealedDut : SealedDut
  corner : CornerBinding
  stage : Stage
  stageInputs : BoundInputs

def resolvedAnalysis (ctx : CompileContext) (point : ConditionPoint) (sample : Option (ℕ × ℚ)) :
    Except CompileFailure ResolvedAnalysis := do
  let fields ← (boundFields point.analysis).mapM fun field => do
    let quantity ← resolvedQuantity field.2 ctx.stageInputs s!"/analysis/{field.1}"
    .ok (field.1, quantity)
  let unit := ((boundFields point.analysis).head?.map fun field => field.2.unit).getD .one
  .ok ⟨point.analysis.symbol, point.analysis.stimulusId, fields,
    sample.map fun item => (item.1, ⟨PyDecimal.token item.2, unit⟩)⟩

/-- `_compile_one_condition`. -/
def compileOneCondition (ctx : CompileContext) (point : ConditionPoint)
    (parameters : List (Id × ResolvedQuantity)) (sample : Option (ℕ × ℚ)) :
    Except CompileFailure CompiledCondition := do
  let analysis ← resolvedAnalysis ctx point sample
  let details ← point.activeStimulusIds.mapM (stimulusDetail ctx.plan ctx.stageInputs)
  let sortedInputs := ctx.stageInputs.entries.insertionSort fun a b => a.1 ≤ b.1
  let semantics : ConditionSemantics :=
    { stageId := ctx.stage.id, pointId := point.id, corner := ctx.corner
      parameters := parameters, resolvedBindings := sortedInputs.map Prod.snd
      statePolicy := point.statePolicy, settlePolicy := point.settlePolicy
      activeStimuli := details, analysis := analysis }
  let conditionSha256 := ctx.host.sha256 (ctx.host.canonicalBytes semantics)
  let conditionId := conditionIdentifier ctx.host ctx.stage.id point.id sample
  let expectedProbes ← serializeDeck ctx.plan ctx.corner point ctx.stageInputs
    (sample.map Prod.snd)
  let deck := ctx.host.deckBytes
    { planSha256 := ctx.host.sha256 (ctx.host.canonicalBytes ctx.plan)
      sealedDut := ctx.sealedDut, corner := ctx.corner, point := point
      stageInputs := ctx.stageInputs.entries, conditionId := conditionId
      conditionSha256 := conditionSha256, dcSample := sample.map Prod.snd }
  .ok
    { stageId := ctx.stage.id, pointId := point.id, conditionId := conditionId
      conditionSha256 := conditionSha256
      relativeDeckPath := relativeDeckPath ctx.host ctx.stage.id point.id sample
      deckBytes := deck, deckSha256 := ctx.host.sha256 deck
      expectedProbes := expectedProbes, semantics := semantics
      sample := sample.map fun item => (item.1, tokenValue item.2) }

def resolvedParameters (ctx : CompileContext) (point : ConditionPoint) :
    Except CompileFailure (List (Id × ResolvedQuantity)) :=
  point.condition.parameters.mapM fun parameter => do
    let quantity ← resolvedQuantity parameter.value ctx.stageInputs
      s!"/stages/{ctx.stage.id}/points/{point.id}/condition/parameters/{parameter.name}"
    .ok (parameter.name, quantity)

/-- The samples a point compiles into: the DC grid of a fresh sweep, else one condition. -/
def pointSamples (inputs : BoundInputs) (point : ConditionPoint) :
    Except CompileFailure (List (Option (ℕ × ℚ))) :=
  match point.analysis, point.statePolicy with
  | .dcSweep _ start stop step, .fresh _ => do
    let low ← resolveDecimal start inputs "/analysis/start"
    let high ← resolveDecimal stop inputs "/analysis/stop"
    let increment ← resolveDecimal step inputs "/analysis/step"
    let grid ← dcGrid low high increment
    .ok (grid.zipIdx.map fun item => some (item.2, item.1))
  | _, _ => .ok [none]

def compilePoint (ctx : CompileContext) (point : ConditionPoint) :
    Except CompileFailure (List CompiledCondition) :=
  match point.statePolicy with
  | .carryover .. => refuse "testbench_plan.compiler.state_unresolved"
      s!"/stages/{ctx.stage.id}/points/{point.id}/state_policy"
      "carryover compilation requires an upstream state receipt"
  | .fresh _ => do
    let parameters ← resolvedParameters ctx point
    let samples ← pointSamples ctx.stageInputs point
    samples.mapM (compileOneCondition ctx point parameters)

def selectedPoints (stage : Stage) (corner : Id) : List ConditionPoint :=
  stage.points.filter fun point => decide (point.condition.corner = corner)

def requireSupported (stageId : Id) (points : List ConditionPoint) : Except CompileFailure Unit :=
  match points.find? fun point => !supportedAnalysis point.analysis with
  | some point => refuse "testbench_plan.compiler.analysis_unsupported"
      s!"/stages/{stageId}/points/{point.id}/analysis/kind"
      s!"unsupported analysis kind {quoted point.analysis.symbol}"
  | none => .ok ()

/-- `_select_corner`. -/
def selectCorner (plan : PlanDocument) (identifier : Id) : Except CompileFailure CornerBinding :=
  match plan.cornerBindings.filter fun item => decide (item.id = identifier) with
  | [corner] => .ok corner
  | _ => refuse "testbench_plan.compiler.corner_unknown" "/corner"
      s!"unknown corner {quoted identifier}"

def requirePoints (corner : Id) (points : List ConditionPoint) : Except CompileFailure Unit :=
  if points.isEmpty then
    refuse "testbench_plan.compiler.corner_has_no_points" "/corner"
      s!"corner {quoted corner} has no points in the selected stages"
  else .ok ()

structure Compilation where
  sealedDut : SealedDut
  conditions : List CompiledCondition

/-- `prepare_testbench_plan_ngspice` for one stage. The captured DUT is the host's; the
checks that the prepared plan was not mutated in place have no counterpart here. -/
def prepareTestbenchPlanNgspice {F : Type} [PyFloat F] (host : Host) (plan : PlanDocument)
    (captured : Except CompileFailure SealedDut) (corner : Id) (stage : Stage)
    (bindingValues : List (ResolvedBindingValue F)) : Except CompileFailure Compilation := do
  let sealedDut ← captured
  let selectedCorner ← selectCorner plan corner
  let resolved ← resolveBindingValues plan bindingValues
  let points := selectedPoints stage corner
  requireSupported stage.id points
  let inputs ← stageInputValues plan stage resolved
  let conditions ← points.mapM
    (compilePoint ⟨host, plan, sealedDut, selectedCorner, stage, inputs⟩)
  requirePoints corner points
  .ok ⟨sealedDut, conditions.flatten⟩

end OpenADA.Compiler
