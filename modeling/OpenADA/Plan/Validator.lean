import OpenADA.Plan.Observables
import OpenADA.Plan.Schema

/-! The plan validator: the schema first, then every semantic check over the typed document. -/
namespace OpenADA.Plan

section

variable (F : Type) [PyFloat F]

def benchContext (plan : PlanDocument) : BenchContext :=
  let corners := (validateCornerBindings plan.cornerBindings).1
  let supplies := (validateSupplies plan.supplies plan.dut corners).1
  let stimuli := (validateStimuli F plan.stimuli plan.dut supplies).1
  ⟨plan.dut, corners, supplies, stimuli, (validateProbes plan.probes plan.dut stimuli).1⟩

/-- The issues of the checks that follow a clean schema validation, in the source's order. -/
def semanticIssues (plan : PlanDocument) : List Issue :=
  let bench := benchContext F plan
  let table := (stageTable plan.stages).1
  let stages := validateStages F plan.stages bench
  validateDut plan.dut ++
  (validateCornerBindings plan.cornerBindings).2 ++
  (validateSupplies plan.supplies plan.dut bench.corners).2 ++
  (validateStimuli F plan.stimuli plan.dut bench.supplies).2 ++
  (validateProbes plan.probes plan.dut bench.stimuli).2 ++
  stages.2 ++
  validateBindings plan.bindings stages.1 table ++
  validateObservables plan.observables stages.1 ++
  globalIdentityCheck plan bench.supplies.keys bench.stimuli.keys bench.probes.keys table.keys

/-- `validate` of a decoded document without a DUT override. The individual schema messages
belong to the schema library; one issue stands for them. -/
def validateTestbenchPlan (plan : PlanDocument) : List Issue :=
  if schemaOk plan then semanticIssues F plan
  else [⟨"testbench_plan.document.schema_invalid", "", "schema validation failed"⟩]

structure PreparedPlan where
  document : PlanDocument
  accepted : validateTestbenchPlan F document = []

end

variable {F : Type} [PyFloat F]

theorem accepted_schemaOk {plan : PlanDocument} (h : validateTestbenchPlan F plan = []) :
    schemaOk plan = true := by
  by_contra hbad
  simp [validateTestbenchPlan, hbad] at h

structure Accepted (F : Type) [PyFloat F] (plan : PlanDocument) : Prop where
  schema : schemaOk plan = true
  dut : validateDut plan.dut = []
  corners : (validateCornerBindings plan.cornerBindings).2 = []
  supplies : (validateSupplies plan.supplies plan.dut (benchContext F plan).corners).2 = []
  stimuli : (validateStimuli F plan.stimuli plan.dut (benchContext F plan).supplies).2 = []
  probes : (validateProbes plan.probes plan.dut (benchContext F plan).stimuli).2 = []
  stages : (validateStages F plan.stages (benchContext F plan)).2 = []
  bindings : validateBindings plan.bindings
    (validateStages F plan.stages (benchContext F plan)).1 (stageTable plan.stages).1 = []
  observables : validateObservables plan.observables
    (validateStages F plan.stages (benchContext F plan)).1 = []
  identities : globalIdentityCheck plan (benchContext F plan).supplies.keys
    (benchContext F plan).stimuli.keys (benchContext F plan).probes.keys
    (stageTable plan.stages).1.keys = []

theorem accepted_iff {plan : PlanDocument} :
    validateTestbenchPlan F plan = [] ↔ Accepted F plan := by
  constructor
  · intro h
    have hs := accepted_schemaOk h
    simp only [validateTestbenchPlan, hs, if_true, semanticIssues, List.append_eq_nil_iff] at h
    obtain ⟨⟨⟨⟨⟨⟨⟨⟨hdut, hcorners⟩, hsupplies⟩, hstimuli⟩, hprobes⟩, hstages⟩, hbindings⟩,
      hobservables⟩, hidentities⟩ := h
    exact ⟨hs, hdut, hcorners, hsupplies, hstimuli, hprobes, hstages, hbindings, hobservables,
      hidentities⟩
  · intro h
    simp only [validateTestbenchPlan, h.schema, if_true, semanticIssues, List.append_eq_nil_iff]
    exact ⟨⟨⟨⟨⟨⟨⟨⟨h.dut, h.corners⟩, h.supplies⟩, h.stimuli⟩, h.probes⟩, h.stages⟩, h.bindings⟩,
      h.observables⟩, h.identities⟩

theorem stageTable_clean {stages : List Stage} (h : (stageTable stages).2 = []) :
    (stageTable stages).1.entries.map (fun entry => entry.2.2) = stages ∧
      ∀ entry ∈ (stageTable stages).1.entries, entry.1 = entry.2.2.id := by
  unfold stageTable at h ⊢
  refine Scan.run_spec stageIdStep (fun done table =>
    table.entries.map (fun entry => entry.2.2) = done ∧
      ∀ entry ∈ table.entries, entry.1 = entry.2.2.id) ?_ (by simp [InsertionDict.empty]) h
  intro done table stage hinv hstep
  by_cases hmem : stage.id ∈ table.keys
  · simp [stageIdStep, hmem] at hstep
  · simp only [stageIdStep, hmem, if_false, InsertionDict.entries_set_of_notMem _ hmem]
    refine ⟨by simp [hinv.1], ?_⟩
    intro entry hentry
    rcases List.mem_append.mp hentry with he | he
    · exact hinv.2 entry he
    · simp only [List.mem_singleton] at he
      simp [he]

theorem stageTable_keys {stages : List Stage} (h : (stageTable stages).2 = []) :
    (stageTable stages).1.keys = stages.map Stage.id := by
  obtain ⟨hmap, hid⟩ := stageTable_clean h
  conv_rhs => rw [← hmap, List.map_map]
  exact List.map_congr_left fun entry he => hid entry he

theorem stage_ids_nodup {stages : List Stage} (h : (stageTable stages).2 = []) :
    (stages.map Stage.id).Nodup := by
  rw [← stageTable_keys h]
  exact InsertionDict.keys_nodup _

theorem stageGraph_eq {stages : List Stage} (h : (stageTable stages).2 = []) :
    stageGraph (stageTable stages).1 = stages.map fun stage => (stage.id, stage.dependsOn) := by
  obtain ⟨hmap, hid⟩ := stageTable_clean h
  conv_rhs => rw [← hmap, List.map_map]
  exact List.map_congr_left fun entry he => by simp [hid entry he]

theorem validateStages_clean {stages : List Stage} {bench : BenchContext}
    (h : (validateStages F stages bench).2 = []) :
    (stageTable stages).2 = [] ∧ stageGraphIssues (stageTable stages).1 = [] ∧
      (Scan.run (stageStep F bench) .empty 0 (stageTable stages).1.entries).2 = [] := by
  simp only [validateStages, List.append_eq_nil_iff] at h
  exact ⟨h.1.1.1, h.1.1.2, h.1.2⟩

section Specimen

/-! A one-supply, one-clock bench over which small accepted plans are built. -/

def literalSource (value : ℚ) (unit : PlanUnit) : ValueSource := .literal ⟨value, unit⟩

def specimenDut : DutBinding where
  artifact := "/dut/ramp.spice"
  sha256 := "00000000000000000000000000000000" ++ "00000000000000000000000000000000"
  namespaceId := "cell"
  top := "RAMP"
  ports := [⟨"vdd", .supply, []⟩, ⟨"vss", .reference, []⟩, ⟨"a", .input, []⟩, ⟨"y", .output, []⟩]
  connections := [("vdd", "vdd"), ("vss", "0"), ("a", "a"), ("y", "y")]

def specimenClock : Stimulus where
  id := "clock"
  body := .pulseTrain "main" "a" .activeHigh ⟨⟨"main", 0⟩, ⟨"main", 1⟩, 0, 1, 1, 2, 8, 4⟩

def specimenAnalysis : Analysis :=
  .pulseTrainTransient "clock" (literalSource 1 .s) (literalSource 8 .s)

def specimenPoint (analysis : Analysis) (measurements : List Measurement)
    (rules : List ValidityRule) : ConditionPoint where
  id := "p"
  condition := ⟨"tt", 27, []⟩
  statePolicy := .fresh []
  settlePolicy := if analysis.isDcSweep then .operatingPoint else .fixedTime 0
  activeStimulusIds := [analysis.stimulusId]
  analysis := analysis
  measurements := measurements
  validityRules := rules

def specimenStage (id : Id) (dependsOn : List Id) (inputs : List StageInput)
    (point : ConditionPoint) : Stage where
  id := id
  dependsOn := dependsOn
  inputs := inputs
  points := [point]
  reductions := []
  validityRules := []

def specimenPlan (stages : List Stage) (bindings : List Binding) (observables : List Observable) :
    PlanDocument where
  id := "specimen"
  dut := specimenDut
  supplies := [⟨"main", "vdd", "0", "vdd_v"⟩]
  cornerBindings := [⟨"tt", 27, [⟨"vdd_v", ⟨1, .V⟩⟩]⟩]
  stimuli := [specimenClock,
    ⟨"ramp", .dcState "main" "a" .low ⟨"main", 0⟩⟩]
  probes := [⟨"vout", .dutPortVoltage "y" "vss"⟩, ⟨"iout", .dutPortCurrent "y" true⟩]
  stages := stages
  bindings := bindings
  observables := observables

def specimenWave : Measurement where
  id := "wave"
  unit := .V
  body := .curve "vout"

def specimenRule : ValidityRule := ⟨"sane", .finite ["wave"], .nonFinite⟩

def wavePlan : PlanDocument :=
  specimenPlan
    [specimenStage "first" [] [] (specimenPoint specimenAnalysis [specimenWave] [specimenRule])]
    [] [⟨"wave", .measurement "first" "p" "wave", .V, .curve⟩]

theorem wavePlan_accepted : validateTestbenchPlan ℚ wavePlan = [] := by
  decide +kernel

end Specimen

end OpenADA.Plan
