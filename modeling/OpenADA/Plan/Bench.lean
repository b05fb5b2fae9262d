import OpenADA.Library.InsertionDict
import OpenADA.Library.PyFloat
import OpenADA.Library.PyText
import OpenADA.Library.Scan
import OpenADA.Plan.Document

/-! Validation of the bench a plan drives: the DUT binding, corners, supplies, stimuli and
probes. Every check yields issues in the order of the source; a set iterated by the source
is listed here without repetitions. -/
namespace OpenADA.Plan

structure Issue where
  code : String
  path : String
  message : String
  deriving DecidableEq

def issueIf (condition : Bool) (code path message : String) : List Issue :=
  if condition then [⟨code, path, message⟩] else []

@[simp] theorem issueIf_eq_nil {condition : Bool} {code path message : String} :
    issueIf condition code path message = [] ↔ condition = false := by
  cases condition <;> simp [issueIf]

/-- Python's `repr` of a name, in which a newline is the only character to escape. -/
def quoted (text : String) : String :=
  "'" ++ String.ofList (text.toList.flatMap fun c => if c = '\n' then ['\\', 'n'] else [c]) ++ "'"

/-- `str.casefold` of an ASCII name. -/
def casefold (text : String) : String := String.ofList (text.toList.map Char.toLower)

/-- `_folded_duplicates`. -/
def foldedDuplicates (values : List String) : List String :=
  (values.foldl (fun (acc : List String × List String) value =>
    let folded := casefold value
    (folded :: acc.1, if folded ∈ acc.1 then acc.2 ++ [folded] else acc.2)) ([], [])).2.dedup

def beginsWith (text head : String) : Bool := head.toList.isPrefixOf text.toList

def sortedNames (names : List String) : List String := names.dedup.insertionSort (· ≤ ·)

/-- `_validate_dut`. The locator test reads `os.path.normpath` and `Path.parts` together:
an absolute path is canonical when no component is empty, `.` or `..`. -/
def validateDut (raw : DutBinding) : List Issue :=
  let names := raw.ports.map DutPort.name
  let internals := raw.ports.flatMap DutPort.internalNodes
  let collisions := sortedNames ((names.map casefold).filter fun folded =>
    decide (folded ∈ internals.map casefold))
  let connected := raw.connections.map Prod.fst
  issueIf (!beginsWith raw.artifact "/" ||
      (raw.artifact.toList.splitOn '/').tail.any fun part =>
        decide (part ∈ [[], ['.'], ['.', '.']]))
    "testbench_plan.dut.locator_invalid" "/dut/artifact"
    "artifact must be one canonical absolute non-expanding locator" ++
  issueIf (decide (casefold raw.namespaceId = casefold raw.top) ||
      beginsWith raw.namespaceId "openada")
    "testbench_plan.dut.namespace_collision" "/dut/namespace"
    "namespace must not shadow the DUT top or OpenADA-owned namespace" ++
  (foldedDuplicates names).map (fun folded =>
    ⟨"testbench_plan.dut.port_duplicate", "/dut/ports",
      s!"DUT port names collide case-insensitively at {quoted folded}"⟩) ++
  (foldedDuplicates internals).map (fun folded =>
    ⟨"testbench_plan.dut.internal_node_duplicate", "/dut/ports",
      s!"exposed internal nodes collide case-insensitively at {quoted folded}"⟩) ++
  collisions.map (fun folded =>
    ⟨"testbench_plan.dut.namespace_collision", "/dut/ports",
      s!"port and internal-node ABI names collide at {quoted folded}"⟩) ++
  (sortedNames (names.filter fun name => decide (name ∉ connected))).map (fun name =>
    ⟨"testbench_plan.dut.port_unbound", s!"/dut/connections/{name}",
      s!"DUT port {quoted name} has no external connection"⟩) ++
  (sortedNames (connected.filter fun name => decide (name ∉ names))).map (fun name =>
    ⟨"testbench_plan.dut.port_unknown", s!"/dut/connections/{name}",
      s!"{quoted name} is not in the sealed port ABI"⟩)

structure CornerScan where
  output : InsertionDict Id CornerBinding
  valueAbi : Option (InsertionDict Id PlanUnit)

def cornerEntries (path : String) (values : List CornerValue) :
    InsertionDict Id PlanUnit × List Issue :=
  Scan.run (fun (entries : InsertionDict Id PlanUnit) index (entry : CornerValue) =>
    (entries.set entry.id entry.value.unit,
      issueIf (decide (entry.id ∈ entries.keys)) "testbench_plan.id.duplicate"
        s!"{path}/values/{index}/id" "duplicate corner value id")) .empty 0 values

def cornerStep (scan : CornerScan) (index : ℕ) (raw : CornerBinding) : CornerScan × List Issue :=
  let path := s!"/corner_bindings/{index}"
  if raw.id ∈ scan.output.keys then
    (scan, [⟨"testbench_plan.id.duplicate", s!"{path}/id", "duplicate corner id"⟩])
  else
    let entries := cornerEntries path raw.values
    let output := scan.output.set raw.id raw
    match scan.valueAbi with
    | none => (⟨output, some entries.1⟩, entries.2)
    | some abi =>
      (⟨output, some abi⟩, entries.2 ++
        issueIf (!abi.sameAs entries.1) "testbench_plan.corner.abi_mismatch" s!"{path}/values"
          "every corner must expose the same typed value ABI")

/-- `_validate_corner_bindings`. -/
def validateCornerBindings (values : List CornerBinding) :
    InsertionDict Id CornerBinding × List Issue :=
  let scan := Scan.run cornerStep ⟨.empty, none⟩ 0 values
  (scan.1.output, scan.2)

def CornerBinding.value? (corner : CornerBinding) (valueId : Id) : Option Quantity :=
  (InsertionDict.ofList (corner.values.map fun item => (item.id, item.value))).get? valueId

def supplyVoltageIssues (path : String) (valueId : Id) (corner : CornerBinding) : List Issue :=
  match corner.value? valueId with
  | none => [⟨"testbench_plan.supply.corner_value_unknown", s!"{path}/voltage/value_id",
      s!"corner {quoted corner.id} does not expose {quoted valueId}"⟩]
  | some value =>
    issueIf (decide (value.unit ≠ .V) || decide (value.value ≤ 0))
      "testbench_plan.supply.voltage_invalid"
      s!"/corner_bindings/{corner.id}/values/{valueId}"
      "supply corner value must be a positive voltage"

def supplyStep (dut : DutBinding) (corners : List CornerBinding)
    (output : InsertionDict Id Supply) (index : ℕ) (raw : Supply) :
    InsertionDict Id Supply × List Issue :=
  let path := s!"/supplies/{index}"
  if raw.id ∈ output.keys then
    (output, [⟨"testbench_plan.id.duplicate", s!"{path}/id", "duplicate supply id"⟩])
  else
    let knownNets := "0" :: dut.connections.map Prod.snd
    (output.set raw.id raw,
      issueIf (decide (casefold raw.positive = casefold raw.negative))
        "testbench_plan.supply.terminal_short" path
        "positive and negative terminals must differ" ++
      [("positive", raw.positive), ("negative", raw.negative)].flatMap (fun terminal =>
        issueIf (decide (terminal.2 ∉ knownNets)) "testbench_plan.supply.net_unknown"
          s!"{path}/{terminal.1}"
          s!"net {quoted terminal.2} is outside the DUT connection namespace") ++
      corners.flatMap (supplyVoltageIssues path raw.valueId))

/-- `_validate_supplies`. -/
def validateSupplies (values : List Supply) (dut : DutBinding)
    (corners : InsertionDict Id CornerBinding) : InsertionDict Id Supply × List Issue :=
  Scan.run (supplyStep dut (corners.entries.map Prod.snd)) .empty 0 values

def DutBinding.port? (dut : DutBinding) (name : String) : Option DutPort :=
  (InsertionDict.ofList (dut.ports.map fun port => (port.name, port))).get? name

def supplyIdOf : StimulusBody → Option Id
  | .dcState supplyId .. => some supplyId
  | .pulseTrain supplyId .. => some supplyId
  | .phaseOffsetPair supplyId .. => some supplyId
  | .smallSignalAc .. => none

def drivenPorts : StimulusBody → List (String × String)
  | .dcState _ targetPort .. => [("target_port", targetPort)]
  | .pulseTrain _ targetPort .. => [("target_port", targetPort)]
  | .phaseOffsetPair _ referencePort offsetPort .. =>
      [("reference_port", referencePort), ("offset_port", offsetPort)]
  | .smallSignalAc targetPort .. => [("target_port", targetPort)]

def admittedDirections : StimulusBody → List PortDirection × String
  | .smallSignalAc .. =>
      ([.input, .output, .inout], "AC current injection must name a signal DUT port")
  | .dcState _ _ .bias _ =>
      ([.output, .inout, .reference],
        "bias state must drive an output, inout, or reference port")
  | _ => ([.input, .inout], "stimulus target must be an input or inout DUT port")

def drivenPortIssues (dut : DutBinding) (path : String) (body : StimulusBody)
    (field : String × String) : List Issue :=
  match dut.port? field.2 with
  | none => [⟨"testbench_plan.stimulus.port_unknown", s!"{path}/{field.1}",
      s!"unknown DUT port {quoted field.2}"⟩]
  | some port =>
    issueIf (decide (port.direction ∉ (admittedDirections body).1))
      "testbench_plan.stimulus.port_incompatible" s!"{path}/{field.1}" (admittedDirections body).2

def acReferenceIssues (dut : DutBinding) (path targetPort referencePort : String) : List Issue :=
  (match dut.port? referencePort with
  | none => [⟨"testbench_plan.stimulus.port_unknown", s!"{path}/reference_port",
      s!"unknown DUT reference port {quoted referencePort}"⟩]
  | some reference =>
    issueIf (decide (reference.direction ∉ [PortDirection.reference, .supply]))
      "testbench_plan.stimulus.port_incompatible" s!"{path}/reference_port"
      "AC injection reference must be a DUT reference or supply port") ++
  issueIf (decide (casefold referencePort = casefold targetPort))
    "testbench_plan.stimulus.port_incompatible" path
    "AC injection target and reference must be distinct"

def levelIssues (path : String) (supplyId : Id) (field : String × ScaledLevel) : List Issue :=
  issueIf (decide (field.2.supplyId ≠ supplyId)) "testbench_plan.stimulus.supply_conflict"
    s!"{path}/{field.1}/supply_id" "supply-scaled level must use the stimulus supply"

section Stimuli

variable (F : Type) [PyFloat F]

/-- `float(value)` of a plan number. -/
def asFloat (value : ℚ) : F := PyFloat.ofRat value

/-- The level and timing checks a pulse train and a phase-offset pair share. -/
def pulseIssues (path : String) (supplyId : Id) (pulse : PulseShape) : List Issue :=
  levelIssues path supplyId ("low_level", pulse.lowLevel) ++
  levelIssues path supplyId ("high_level", pulse.highLevel) ++
  issueIf (PyFloat.le (asFloat F pulse.highLevel.fraction) (asFloat F pulse.lowLevel.fraction))
    "testbench_plan.stimulus.level_inconsistent" path
    "high_level fraction must exceed low_level fraction" ++
  [("delay", pulse.delay), ("rise_time", pulse.riseTime), ("fall_time", pulse.fallTime)].flatMap
    (fun field => issueIf (PyFloat.lt (asFloat F field.2) (asFloat F 0))
      "testbench_plan.stimulus.timing_invalid" s!"{path}/{field.1}/value"
      "must be non-negative") ++
  [("pulse_width", pulse.pulseWidth), ("period", pulse.period)].flatMap
    (fun field => issueIf (PyFloat.le (asFloat F field.2) (asFloat F 0))
      "testbench_plan.stimulus.timing_invalid" s!"{path}/{field.1}/value"
      "must be greater than zero") ++
  issueIf (PyFloat.lt (asFloat F pulse.period)
      (PyFloat.sum [asFloat F pulse.riseTime, asFloat F pulse.pulseWidth,
        asFloat F pulse.fallTime]))
    "testbench_plan.stimulus.timing_invalid" s!"{path}/period/value"
    "period must cover rise, pulse width, and fall times"

def logicLevelConflict (state : LogicState) (level : ScaledLevel) : Bool :=
  match state with
  | .bias => false
  | .low => PyFloat.lt (asFloat F (1 / 2)) (asFloat F level.fraction)
  | .high => PyFloat.le (asFloat F level.fraction) (asFloat F (1 / 2))

def stimulusBodyIssues (dut : DutBinding) (path : String) : StimulusBody → List Issue
  | .smallSignalAc targetPort referencePort .. =>
      acReferenceIssues dut path targetPort referencePort
  | .dcState supplyId _ state level =>
      levelIssues path supplyId ("level", level) ++
      issueIf (logicLevelConflict F state level) "testbench_plan.stimulus.level_inconsistent"
        s!"{path}/level/fraction" "declared logic state conflicts with its supply-scaled level"
  | .pulseTrain supplyId _ _ pulse => pulseIssues F path supplyId pulse
  | .phaseOffsetPair supplyId referencePort offsetPort _ _ pulse _ =>
      issueIf (decide (casefold referencePort = casefold offsetPort))
        "testbench_plan.stimulus.port_incompatible" path
        "phase-offset pair requires two distinct DUT ports" ++
      pulseIssues F path supplyId pulse

def stimulusStep (dut : DutBinding) (supplies : InsertionDict Id Supply)
    (output : InsertionDict Id Stimulus) (index : ℕ) (raw : Stimulus) :
    InsertionDict Id Stimulus × List Issue :=
  let path := s!"/stimuli/{index}"
  if raw.id ∈ output.keys then
    (output, [⟨"testbench_plan.id.duplicate", s!"{path}/id", "duplicate stimulus id"⟩])
  else
    (output.set raw.id raw,
      (supplyIdOf raw.body).toList.flatMap (fun supplyId =>
        issueIf (decide (supplyId ∉ supplies.keys)) "testbench_plan.stimulus.supply_unknown"
          s!"{path}/supply_id" s!"unknown supply {quoted supplyId}") ++
      (drivenPorts raw.body).flatMap (drivenPortIssues dut path raw.body) ++
      stimulusBodyIssues F dut path raw.body)

/-- `_validate_stimuli`. -/
def validateStimuli (values : List Stimulus) (dut : DutBinding)
    (supplies : InsertionDict Id Supply) : InsertionDict Id Stimulus × List Issue :=
  Scan.run (stimulusStep F dut supplies) .empty 0 values

end Stimuli

def portUnknown (dut : DutBinding) (path field label port : String) : List Issue :=
  issueIf (decide (port ∉ dut.ports.map DutPort.name)) "testbench_plan.probe.port_unknown"
    s!"{path}/{field}" s!"unknown {label} {quoted port}"

def branchIssues (path : String) (stimulus : Stimulus) (branch : BranchSelection) : List Issue :=
  let expected : List BranchSelection :=
    if stimulus.kind = .phaseOffsetPair then [.reference, .offset] else [.single]
  issueIf (decide (branch ∉ expected)) "testbench_plan.probe.branch_incompatible"
    s!"{path}/branch"
    ("phase-pair sources require an exact reference or " ++
      "offset branch; single-output sources require 'single'")

def isPhysicalVoltage : ProbeBody → Bool
  | .dutPortVoltage .. => true
  | .dutInternalNode .. => true
  | _ => false

def probeBodyIssues (dut : DutBinding) (stimuli : InsertionDict Id Stimulus)
    (earlier : InsertionDict Id Probe) (path : String) : ProbeBody → List Issue
  | .dutPortVoltage port referencePort =>
      portUnknown dut path "port" "DUT port" port ++
      portUnknown dut path "reference_port" "reference port" referencePort
  | .dutPortCurrent port _ => portUnknown dut path "port" "DUT port" port
  | .dutInternalNode node referencePort =>
      portUnknown dut path "reference_port" "reference port" referencePort ++
      issueIf (decide (node ∉ dut.ports.flatMap DutPort.internalNodes))
        "testbench_plan.probe.internal_node_unexposed" s!"{path}/node"
        "DUT-internal node is absent from the sealed probe ABI"
  | .stimulusBranchCurrent stimulusId branch _ =>
      match stimuli.get? stimulusId with
      | none => [⟨"testbench_plan.probe.stimulus_unknown", s!"{path}/stimulus_id",
          s!"unknown stimulus {quoted stimulusId}"⟩]
      | some stimulus => branchIssues path stimulus branch
  | .pllLoopGain injectionStimulusId responseProbeId _ =>
      (match stimuli.get? injectionStimulusId with
      | none => [⟨"testbench_plan.probe.stimulus_unknown", s!"{path}/injection_stimulus_id",
          "PLL loop gain names an unknown AC injection"⟩]
      | some stimulus =>
        issueIf (decide (stimulus.kind ≠ .smallSignalAc))
          "testbench_plan.probe.stimulus_incompatible" s!"{path}/injection_stimulus_id"
          "PLL loop gain requires a small_signal_ac current injection") ++
      (match earlier.get? responseProbeId with
      | none => [⟨"testbench_plan.probe.response_unknown", s!"{path}/response_probe_id",
          "loop response must name an earlier physical voltage probe"⟩]
      | some response =>
        issueIf (!isPhysicalVoltage response.body)
          "testbench_plan.probe.response_incompatible" s!"{path}/response_probe_id"
          "loop response must be a physical DUT voltage identity")

def probeStep (dut : DutBinding) (stimuli : InsertionDict Id Stimulus)
    (output : InsertionDict Id Probe) (index : ℕ) (raw : Probe) :
    InsertionDict Id Probe × List Issue :=
  let path := s!"/probes/{index}"
  if raw.id ∈ output.keys then
    (output, [⟨"testbench_plan.id.duplicate", s!"{path}/id", "duplicate probe id"⟩])
  else
    (output.set raw.id raw, probeBodyIssues dut stimuli output path raw.body)

/-- `_validate_probes`. -/
def validateProbes (values : List Probe) (dut : DutBinding)
    (stimuli : InsertionDict Id Stimulus) : InsertionDict Id Probe × List Issue :=
  Scan.run (probeStep dut stimuli) .empty 0 values

end OpenADA.Plan
