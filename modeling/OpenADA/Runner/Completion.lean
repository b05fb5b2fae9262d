import OpenADA.Plan.Sources
import OpenADA.Runner.Identity
import OpenADA.Runner.Lineage
import OpenADA.Runner.Rules

/-! Fail-closed runs: a value is published, or a point is called valid, only over conditions that
completed. Every value is followed from the attempts of its point and of the stages upstream to the
envelope. -/
namespace OpenADA.Runner

open OpenADA.Plan OpenADA.Compiler

variable {F : Type} [PyFloat F]

section Conditions

variable (host : RunnerHost F) (plan : PlanDocument) (executor : ConditionExecutor)

def conditionKey (condition : CompiledCondition) : Id × Id := (condition.stageId, condition.pointId)

def attempted (condition : CompiledCondition) : ConditionAttempt :=
  attemptOf host.toHost condition (runCondition host plan executor condition)

def completedEntries (conditions : List CompiledCondition) (key : Id × Id) : List (Entry F) :=
  (conditions.filter fun condition => decide (conditionKey condition = key)).filterMap
    fun condition => (runCondition host plan executor condition).waveform.toOption.map
      fun waveform => (condition, waveform)

/-- The simulator ran, exited normally and left the waveform that was asked for. -/
structure ConditionAttempt.Succeeded (attempt : ConditionAttempt) : Prop where
  completed : attempt.status = .completed
  invoked : attempt.simulatorInvoked = true
  exited : attempt.returncode = some 0

variable {host plan executor}

theorem runCondition_eq_ok {condition : CompiledCondition} {waveform : Waveform F}
    (h : (runCondition host plan executor condition).waveform = .ok waveform) :
    (attempted host plan executor condition).Succeeded := by
  have hstatus : (attempted host plan executor condition).status = .completed := by
    simp only [attempted, attemptOf, resultStatus, h]
  have hran : (runCondition host plan executor condition).invoked = true ∧
      (runCondition host plan executor condition).execution.map SimulatorExecution.returncode =
        some 0 := by
    revert h
    unfold runCondition
    cases admitCondition host (pointDocument? plan condition.stageId condition.pointId)
        condition with
    | error raised => exact fun h => by cases h
    | ok point =>
      dsimp only
      cases admitExecution (executor condition) with
      | error raised => exact fun h => by cases h
      | ok execution =>
        intro h
        refine ⟨rfl, ?_⟩
        by_cases hexit : execution.returncode = 0
        · exact congrArg some hexit
        · dsimp only at h
          rw [readExecution, if_pos hexit] at h
          cases h
  exact ⟨hstatus, hran.1, hran.2⟩

theorem waveform_of_completed {condition : CompiledCondition}
    (h : (attempted host plan executor condition).status = .completed) :
    ∃ waveform, (runCondition host plan executor condition).waveform = .ok waveform := by
  cases hwaveform : (runCondition host plan executor condition).waveform with
  | ok waveform => exact ⟨waveform, rfl⟩
  | error raised =>
    simp only [attempted, attemptOf, resultStatus, hwaveform] at h
    cases h

theorem completedEntries_concat (conditions : List CompiledCondition)
    (condition : CompiledCondition) (key : Id × Id) :
    completedEntries host plan executor (conditions ++ [condition]) key =
      completedEntries host plan executor conditions key ++
        if conditionKey condition = key then
          ((runCondition host plan executor condition).waveform.toOption.map
            fun waveform => (condition, waveform)).toList
        else [] := by
  unfold completedEntries
  rw [List.filter_append, List.filterMap_append]
  congr 1
  by_cases hkey : conditionKey condition = key
  · rw [if_pos hkey, List.filter_singleton, decide_eq_true hkey]
    cases hwaveform : (runCondition host plan executor condition).waveform <;>
      simp [hwaveform, Except.toOption]
  · rw [if_neg hkey, List.filter_singleton, decide_eq_false hkey]
    rfl

/-- What the execution of a stage leaves: one attempt for each condition, in order, and for each
point its completed conditions, if there are any. -/
theorem executeCompilationConditions_eq (conditions : List CompiledCondition) :
    (executeCompilationConditions host plan executor conditions).attempts =
        conditions.map (attempted host plan executor) ∧
      ∀ key, (executeCompilationConditions host plan executor conditions).waveforms.get? key =
        (completedEntries host plan executor conditions key).head?.map
          fun _ => completedEntries host plan executor conditions key := by
  unfold executeCompilationConditions
  induction conditions using List.reverseRecOn with
  | nil => exact ⟨rfl, fun _ => rfl⟩
  | append_singleton conditions condition ih =>
    rw [List.foldl_concat]
    obtain ⟨hattempts, hwaveforms⟩ := ih
    generalize conditions.foldl (executeStep host plan executor) ⟨[], [], .empty, ∅⟩ = state
      at hattempts hwaveforms ⊢
    constructor
    · show state.attempts ++ [attempted host plan executor condition] = _
      rw [hattempts, List.map_append, List.map_singleton]
    · intro key
      show (storeWaveform state.waveforms condition _).get? key = _
      rw [completedEntries_concat]
      unfold storeWaveform
      cases (runCondition host plan executor condition).waveform with
      | error raised => simp [hwaveforms key, Except.toOption]
      | ok waveform =>
        show (state.waveforms.set (conditionKey condition) _).get? key = _
        rw [InsertionDict.get?_set]
        by_cases hkey : conditionKey condition = key
        · have hhere := hwaveforms key
          rw [← hkey] at hhere
          rw [if_pos hkey.symm, if_pos hkey, ← hkey]
          show some ((state.waveforms.get? (conditionKey condition)).getD [] ++ _) = _
          rw [hhere]
          cases completedEntries host plan executor conditions (conditionKey condition) <;> rfl
        · rw [if_neg fun heq => hkey heq.symm, if_neg hkey, List.append_nil, hwaveforms key]

/-- Where every condition of a point completed, its entries are all of its conditions. -/
theorem completedEntries_conditions {conditions : List CompiledCondition} {key : Id × Id}
    (h : ∀ condition ∈ conditions, conditionKey condition = key →
      (attempted host plan executor condition).status = .completed) :
    (completedEntries host plan executor conditions key).map Prod.fst =
      conditions.filter fun condition => decide (conditionKey condition = key) := by
  unfold completedEntries
  have hall : ∀ condition ∈ conditions.filter fun condition =>
      decide (conditionKey condition = key),
      ∃ waveform, (runCondition host plan executor condition).waveform = .ok waveform := by
    intro condition hmem
    obtain ⟨hcondition, hkey⟩ := List.mem_filter.mp hmem
    exact waveform_of_completed (h condition hcondition (of_decide_eq_true hkey))
  revert hall
  generalize conditions.filter (fun condition => decide (conditionKey condition = key)) = selected
  intro hall
  induction selected with
  | nil => rfl
  | cons condition rest ih =>
    obtain ⟨waveform, hwaveform⟩ := hall condition List.mem_cons_self
    rw [List.filterMap_cons_some (by rw [hwaveform]; rfl), List.map_cons,
      ih fun other hother => hall other (List.mem_cons_of_mem _ hother)]

end Conditions

section Points

variable {values : PointValues F} {plan : PlanDocument} {corner : Id} {upstream : IdSet}

omit [PyFloat F] in
theorem parentValue_eq_ok {measurementId parentId : Id} {parent : ConditionValue F}
    (h : parentValue values measurementId parentId = .ok parent) :
    values.get? parentId = some parent := by
  unfold parentValue at h
  cases hget : values.get? parentId with
  | none => simp [hget] at h
  | some found =>
    rw [hget] at h
    rw [Except.ok.inj h]

/-- A measurement depends on the conditions its point depends on. -/
theorem measure_conditionIds {waveform : Waveform F} {probes : ProbeVectors F}
    {measurement : Measurement} {result : ConditionValue F} {base : IdSet}
    (hvalues : ∀ name item, values.get? name = some item → item.conditionIds = base)
    (h : measure plan corner waveform probes base values measurement = .ok result) :
    result.conditionIds = base := by
  have hderived : ∀ parentId, (do
      let parent ← parentValue values measurement.id parentId
      let payload ← derivedPayload plan corner measurement.body parent.value
      .ok ⟨payload, parent.conditionIds⟩ : Except String (ConditionValue F)) = .ok result →
        result.conditionIds = base := by
    intro parentId hresult
    obtain ⟨parent, hparent, hresult⟩ := Except.bind_eq_ok.mp hresult
    obtain ⟨payload, -, hresult⟩ := Except.bind_eq_ok.mp hresult
    rw [← Except.ok.inj hresult]
    exact hvalues parentId parent (parentValue_eq_ok hparent)
  unfold measure at h
  cases hbody : measurement.body with
  | curve probeId =>
    rw [hbody] at h
    obtain ⟨samples, -, h⟩ := Except.bind_eq_ok.mp h
    rw [← Except.ok.inj h]
  | integrate _ probeId window normalization =>
    rw [hbody] at h
    obtain ⟨samples, -, h⟩ := Except.bind_eq_ok.mp h
    obtain ⟨integral, -, h⟩ := Except.bind_eq_ok.mp h
    obtain ⟨value, -, h⟩ := Except.bind_eq_ok.mp h
    rw [← Except.ok.inj h]
  | linearFit parentId => exact hderived parentId (by simpa only [hbody] using h)
  | crossing parentId => exact hderived parentId (by simpa only [hbody] using h)
  | sign parentId => exact hderived parentId (by simpa only [hbody] using h)
  | maxAbs parentId => exact hderived parentId (by simpa only [hbody] using h)
  | complianceInterval parentId => exact hderived parentId (by simpa only [hbody] using h)
  | mismatchFraction actualId referenceId floor =>
    rw [hbody] at h
    obtain ⟨actual, hactual, h⟩ := Except.bind_eq_ok.mp h
    obtain ⟨reference, hreference, h⟩ := Except.bind_eq_ok.mp h
    obtain ⟨bound, -, h⟩ := Except.bind_eq_ok.mp h
    obtain ⟨actualNumber, -, h⟩ := Except.bind_eq_ok.mp h
    obtain ⟨referenceNumber, -, h⟩ := Except.bind_eq_ok.mp h
    obtain ⟨fraction, -, h⟩ := Except.bind_eq_ok.mp h
    rw [← Except.ok.inj h]
    show actual.conditionIds ∪ reference.conditionIds = base
    rw [hvalues _ _ (parentValue_eq_ok hactual), hvalues _ _ (parentValue_eq_ok hreference),
      Finset.union_self]
  | _ =>
    rw [hbody] at h
    cases h

theorem evaluateMeasurements_conditionIds {measurements : List Measurement}
    {waveform : Waveform F} {probes : ProbeVectors F} {base : IdSet}
    (h : evaluateMeasurements measurements waveform plan corner probes base = .ok values) :
    ∀ name item, values.get? name = some item → item.conditionIds = base := by
  unfold evaluateMeasurements at h
  refine Except.foldlM_spec (fun _ (values : PointValues F) =>
    ∀ name item, values.get? name = some item → item.conditionIds = base) ?_ ?_ h
  · intro done measurement values next hvalues hstep name item hget
    obtain ⟨result, hresult, hstep⟩ := Except.bind_eq_ok.mp hstep
    unfold storeMeasured at hstep
    split_ifs at hstep
    obtain rfl := Except.ok.inj hstep
    rw [InsertionDict.get?_set] at hget
    by_cases hname : name = measurement.id
    · rw [if_pos hname] at hget
      rw [← Option.some.inj hget]
      exact measure_conditionIds hvalues hresult
    · rw [if_neg hname] at hget
      exact hvalues name item hget
  · intro name item hget
    rw [InsertionDict.get?_empty] at hget
    cases hget

/-- The values of a point depend on all of its conditions and on those upstream of its stage. -/
theorem evaluatePointGroup_conditionIds {point : ConditionPoint} {entries : List (Entry F)}
    (h : evaluatePointGroup point entries plan corner upstream = .ok values) :
    ∀ name item, values.get? name = some item → item.conditionIds =
      (entries.map fun entry => entry.1.conditionId).toFinset ∪ upstream := by
  unfold evaluatePointGroup at h
  by_cases hsweep : (point.analysis.isDcSweep && entries.all fun entry => entry.1.sample.isSome) =
      true
  · rw [if_pos hsweep] at h
    unfold evaluateSweep at h
    have hperm := List.perm_insertionSort (fun a b => sampleIndex a ≤ sampleIndex b) entries
    generalize entries.insertionSort (fun a b => sampleIndex a ≤ sampleIndex b) = sorted at h hperm
    cases sorted with
    | nil => cases h
    | cons first rest =>
      obtain ⟨scan, hscan, h⟩ := Except.bind_eq_ok.mp h
      have hlineage : scan.lineage =
          ((first :: rest).map fun entry => entry.1.conditionId).toFinset := by
        refine Except.foldlM_spec (fun done (scan : SweepScan F) => scan.lineage =
          (done.map fun entry : Entry F => entry.1.conditionId).toFinset) ?_ rfl hscan
        intro done entry scan next hinv hstep
        unfold appendSample at hstep
        dsimp only at hstep
        split_ifs at hstep
        · cases hstep
        obtain ⟨series, -, hstep⟩ := Except.bind_eq_ok.mp hstep
        rw [← Except.ok.inj hstep, List.map_append, List.toFinset_append]
        exact congrArg (· ∪ _) hinv
      have hids : (entries.map fun entry => entry.1.conditionId).toFinset = scan.lineage := by
        rw [hlineage]
        exact (List.toFinset_eq_of_perm _ _ (hperm.map _)).symm
      rw [hids]
      exact evaluateMeasurements_conditionIds h
  · rw [if_neg hsweep] at h
    cases entries with
    | nil => cases h
    | cons entry rest =>
      cases rest with
      | nil => exact evaluateMeasurements_conditionIds h
      | cons other rest => cases h

end Points

section Stages

/-- The values a point gets from its entries, once all of its conditions completed. -/
def pointValues? (ctx : RunContext F) (attempts : List ConditionAttempt) (upstream : IdSet)
    (key : Id × Id) (entries : List (Entry F)) : Option (PointValues F) :=
  if pointComplete attempts key entries then
    (pointDocument? ctx.plan key.1 key.2).bind fun point =>
      (evaluatePointGroup point entries ctx.plan ctx.corner upstream).toOption
  else none

def evaluatedPoint (ctx : RunContext F) (conditions : List CompiledCondition) (upstream : IdSet)
    (key : Id × Id) : Option (PointValues F) :=
  let entries := completedEntries ctx.host ctx.plan ctx.executor conditions key
  entries.head?.bind fun _ => pointValues? ctx
    (conditions.map (attempted ctx.host ctx.plan ctx.executor)) upstream key entries

def leavingReceipts (ctx : RunContext F) (state : RunState F) (stageId : Id) :
    List (SealedReceipt F) :=
  Resolutions.receipts (resolvedStageBindings
    ⟨ctx.host, ctx.plan, ctx.corner, state.conditionValues, state.attempts⟩ stageId)

structure StageExecuted (ctx : RunContext F) (state next : RunState F) (stageId : Id)
    (conditions : List CompiledCondition) : Prop where
  attempts : next.attempts =
    state.attempts ++ conditions.map (attempted ctx.host ctx.plan ctx.executor)
  values : ∀ key, next.conditionValues.get? key =
    (evaluatedPoint ctx conditions (state.upstreamLineage.at stageId) key).or
      (state.conditionValues.get? key)
  receipts : next.bindingReceipts = state.bindingReceipts ++ leavingReceipts ctx next stageId
  bindingValues : next.bindingValues =
    state.bindingValues ++ (leavingReceipts ctx next stageId).map resolvedValue
  lineage : next.upstreamLineage =
    (leavingReceipts ctx next stageId).foldl (extendLineage ctx.plan) state.upstreamLineage

variable {ctx : RunContext F}

theorem evaluatePoint_get? (attempts : List ConditionAttempt) (upstream : IdSet)
    (state : ConditionValues F × List Refusal) (entry : (Id × Id) × List (Entry F))
    (key : Id × Id) : (evaluatePoint ctx attempts upstream state entry).1.get? key =
      if key = entry.1 then (pointValues? ctx attempts upstream key entry.2).or (state.1.get? key)
      else state.1.get? key := by
  have hkept : (if key = entry.1 then (none : Option (PointValues F)).or (state.1.get? key)
      else state.1.get? key) = state.1.get? key := by
    rw [Option.none_or, ite_self]
  by_cases hkey : key = entry.1
  · subst hkey
    rw [if_pos rfl]
    unfold evaluatePoint pointValues?
    by_cases hcomplete : pointComplete attempts entry.1 entry.2 = true
    · rw [if_pos hcomplete, if_pos hcomplete]
      cases pointDocument? ctx.plan entry.1.1 entry.1.2 with
      | none => rfl
      | some point =>
        rw [Option.bind_some]
        dsimp only
        cases evaluatePointGroup point entry.2 ctx.plan ctx.corner upstream with
        | error text => rfl
        | ok values => simp [Except.toOption]
    · rw [if_neg hcomplete, if_neg hcomplete]
      rfl
  · rw [if_neg hkey]
    unfold evaluatePoint
    by_cases hcomplete : pointComplete attempts entry.1 entry.2 = true
    · rw [if_pos hcomplete]
      cases pointDocument? ctx.plan entry.1.1 entry.1.2 with
      | none => rfl
      | some point =>
        dsimp only
        cases evaluatePointGroup point entry.2 ctx.plan ctx.corner upstream with
        | error text => rfl
        | ok values => exact InsertionDict.get?_set_of_ne _ _ hkey
    · rw [if_neg hcomplete]

theorem evaluatePoints_get? (attempts : List ConditionAttempt) (upstream : IdSet)
    {entries : List ((Id × Id) × List (Entry F))} (hn : (entries.map Prod.fst).Nodup)
    (state : ConditionValues F × List Refusal) {key : Id × Id} {found : Option (List (Entry F))}
    (hfound : ∀ items, (key, items) ∈ entries ↔ found = some items) :
    (entries.foldl (evaluatePoint ctx attempts upstream) state).1.get? key =
      (found.bind (pointValues? ctx attempts upstream key)).or (state.1.get? key) := by
  induction entries generalizing state found with
  | nil =>
    have hnone : found = none := by
      cases found with
      | none => rfl
      | some items => exact absurd ((hfound items).mpr rfl) List.not_mem_nil
    rw [hnone]
    rfl
  | cons entry rest ih =>
    rw [List.map_cons, List.nodup_cons] at hn
    rw [List.foldl_cons]
    by_cases hkey : key = entry.1
    · have hrest : ∀ items, (key, items) ∈ rest ↔ (none : Option (List (Entry F))) = some items :=
        fun items => ⟨fun hmem => absurd (hkey ▸ List.mem_map_of_mem hmem) hn.1,
          fun h => (by cases h)⟩
      have hhere : found = some entry.2 :=
        (hfound entry.2).mp (by rw [hkey]; exact List.mem_cons_self)
      rw [ih hn.2 _ hrest, evaluatePoint_get?, if_pos hkey, hhere]
      rfl
    · have hrest : ∀ items, (key, items) ∈ rest ↔ found = some items := by
        intro items
        rw [← hfound items, List.mem_cons]
        exact ⟨.inr, fun h => h.resolve_left fun heq => hkey (congrArg Prod.fst heq)⟩
      rw [ih hn.2 _ hrest, evaluatePoint_get?, if_neg hkey]

/-- One scheduled stage leaves the run as it is, lists what was not compiled, or executes. -/
theorem runStage_eq_ok {state next : RunState F} {stage : Stage}
    (h : runStage ctx state stage = .ok next) :
    next = state ∨ (∃ failure, next = skipStage ctx state stage failure) ∨
      ∃ compilation, compileStage ctx state stage = .ok compilation ∧
        StageExecuted ctx state next stage.id compilation.conditions := by
  unfold runStage at h
  split_ifs at h with hempty
  · exact .inl (Except.ok.inj h).symm
  · cases hcompile : compileStage ctx state stage with
    | error failure =>
      rw [hcompile] at h
      exact .inr (.inl ⟨failure, (Except.ok.inj h).symm⟩)
    | ok compilation =>
      rw [hcompile] at h
      unfold executeStage at h
      obtain ⟨_, -, h⟩ := Except.bind_eq_ok.mp h
      obtain ⟨dut, -, h⟩ := Except.bind_eq_ok.mp h
      obtain rfl := Except.ok.inj h
      refine .inr (.inr ⟨compilation, rfl, ?_⟩)
      obtain ⟨hattempts, hwaveforms⟩ := @executeCompilationConditions_eq F _ ctx.host
        ctx.plan ctx.executor compilation.conditions
      refine ⟨?_, ?_, rfl, rfl, rfl⟩
      · show state.attempts ++ (executeCompilationConditions _ _ _ _).attempts = _
        rw [hattempts]
      · intro key
        show (List.foldl (evaluatePoint ctx _ _) (_, _) _).1.get? key = _
        rw [evaluatePoints_get? _ _ (InsertionDict.keys_nodup _) _
          fun items => InsertionDict.get?_eq_some_iff.symm, hattempts, hwaveforms key,
          evaluatedPoint]
        cases completedEntries ctx.host ctx.plan ctx.executor compilation.conditions key <;> rfl

/-- What stands behind the values of a point that was evaluated. -/
theorem evaluatedPoint_eq_some {conditions : List CompiledCondition} {upstream : IdSet}
    {key : Id × Id} {values : PointValues F}
    (h : evaluatedPoint ctx conditions upstream key = some values) :
    (∃ condition ∈ conditions, conditionKey condition = key) ∧
      (∀ condition ∈ conditions, conditionKey condition = key →
        (attempted ctx.host ctx.plan ctx.executor condition).Succeeded) ∧
      ∀ name item, values.get? name = some item → ∀ id, id ∈ item.conditionIds ↔
        (∃ condition ∈ conditions, conditionKey condition = key ∧ condition.conditionId = id) ∨
          id ∈ upstream := by
  unfold evaluatedPoint at h
  obtain ⟨first, hfirst, h⟩ := Option.bind_eq_some_iff.mp h
  unfold pointValues? at h
  split_ifs at h with hcomplete
  obtain ⟨point, -, h⟩ := Option.bind_eq_some_iff.mp h
  have hcompleted : ∀ condition ∈ conditions, conditionKey condition = key →
      (attempted ctx.host ctx.plan ctx.executor condition).status = .completed := by
    intro condition hmem hkey
    unfold pointComplete allCompleted attemptsAt at hcomplete
    have hall := List.all_eq_true.mp (Bool.and_eq_true_iff.mp hcomplete).2
    exact of_decide_eq_true (hall _ (List.mem_filter.mpr
      ⟨List.mem_map_of_mem hmem, decide_eq_true hkey⟩))
  have hconditions := completedEntries_conditions hcompleted
  refine ⟨?_, ?_, ?_⟩
  · have hmem : first.1 ∈ conditions.filter fun condition =>
        decide (conditionKey condition = key) := by
      rw [← hconditions]
      exact List.mem_map_of_mem (List.mem_of_head? hfirst)
    exact ⟨first.1, (List.mem_filter.mp hmem).1, of_decide_eq_true (List.mem_filter.mp hmem).2⟩
  · intro condition hmem hkey
    obtain ⟨waveform, hwaveform⟩ := waveform_of_completed (hcompleted condition hmem hkey)
    exact runCondition_eq_ok hwaveform
  · intro name item hget id
    cases hgroup : evaluatePointGroup point (completedEntries ctx.host ctx.plan ctx.executor
        conditions key) ctx.plan ctx.corner upstream with
    | error text =>
      rw [hgroup] at h
      cases h
    | ok found =>
      rw [hgroup] at h
      obtain rfl := Option.some.inj h
      have hnames : (completedEntries ctx.host ctx.plan ctx.executor conditions key).map
          (fun entry => entry.1.conditionId) = (conditions.filter fun condition =>
            decide (conditionKey condition = key)).map CompiledCondition.conditionId := by
        rw [← hconditions, List.map_map]
        rfl
      rw [evaluatePointGroup_conditionIds hgroup name item hget, Finset.mem_union,
        List.mem_toFinset, hnames]
      simp only [List.mem_map, List.mem_filter, decide_eq_true_eq, and_assoc]

end Stages

section Receipts

def Rests (attempts : List ConditionAttempt) (id : String) : Prop :=
  ∃ attempt ∈ attempts, attempt.conditionId = id ∧ attempt.Succeeded

theorem Rests.append {attempts : List ConditionAttempt} {id : String} (h : Rests attempts id)
    (more : List ConditionAttempt) : Rests (attempts ++ more) id := by
  obtain ⟨attempt, hmem, hid, hsucceeded⟩ := h
  exact ⟨attempt, List.mem_append_left _ hmem, hid, hsucceeded⟩

/-- The receipts of contributing conditions are attempts of the run, one for each identifier. -/
theorem contributingAttempts_eq_some {attempts found : List ConditionAttempt} {ids : IdSet}
    (h : contributingAttempts attempts ids = some found) :
    (∀ attempt ∈ found, attempt ∈ attempts) ∧
      found.map ConditionAttempt.conditionId = ids.sortedList := by
  unfold contributingAttempts at h
  dsimp only at h
  split_ifs at h with hlength
  obtain rfl := Option.some.inj h
  have hindex : ∀ id attempt, (InsertionDict.ofList (attempts.map fun attempt =>
      (attempt.conditionId, attempt))).get? id = some attempt →
        attempt ∈ attempts ∧ attempt.conditionId = id := by
    intro id attempt hget
    obtain ⟨known, hknown, heq⟩ := List.mem_map.mp (InsertionDict.mem_of_get?_ofList hget)
    obtain ⟨rfl, rfl⟩ := Prod.mk.inj heq
    exact ⟨hknown, rfl⟩
  constructor
  · intro attempt hmem
    obtain ⟨id, -, hget⟩ := List.mem_filterMap.mp hmem
    exact (hindex id attempt hget).1
  · have hcard : ids.sortedList.length = ids.card := by
      rw [← Multiset.coe_card, Finset.coe_sortedList]
      rfl
    have hall := List.filterMap_length_eq_length.mp (hlength.trans hcard.symm)
    revert hall
    generalize ids.sortedList = sorted
    intro hall
    induction sorted with
    | nil => rfl
    | cons id rest ih =>
      obtain ⟨attempt, hget⟩ := Option.isSome_iff_exists.mp (hall id List.mem_cons_self)
      rw [List.filterMap_cons_some hget, List.map_cons, (hindex id attempt hget).2,
        ih fun other hother => hall other (List.mem_cons_of_mem _ hother)]

omit [PyFloat F] in
theorem valuesAt_get? {values : ConditionValues F} {key : Id × Id} {name : Id}
    {item : ConditionValue F} (h : (valuesAt values key).get? name = some item) :
    ∃ found, values.get? key = some found ∧ found.get? name = some item := by
  unfold valuesAt at h
  cases hget : values.get? key with
  | none =>
    rw [hget] at h
    cases h
  | some found =>
    rw [hget] at h
    exact ⟨found, rfl, h⟩

/-- A binding that is resolved hands on the component of a stored value, with the attempts of all
conditions behind it. -/
theorem resolveBinding_eq_ok {ctx : BindingContext F} {binding : Binding}
    {receipt : SealedReceipt F} (h : resolveBinding ctx binding = .ok receipt) :
    ∃ stageId pointId measurementId component item value conditions,
      binding.source = .measurement stageId pointId measurementId component ∧
      (valuesAt ctx.values (stageId, pointId)).get? measurementId = some item ∧
      bindingComponent item component = .ok value ∧
      contributingAttempts ctx.attempts item.conditionIds = some conditions ∧
      receipt = sealReceipt ctx.host.toHost
        { planSha256 := planSha256 ctx.host.toHost ctx.plan, bindingId := binding.id
          source := binding.source, sourceValue := value, unit := binding.unit
          conditions := conditions } := by
  unfold resolveBinding at h
  cases hsource : binding.source with
  | reduction stageId reductionId component =>
    rw [hsource] at h
    cases h
  | measurement stageId pointId measurementId component =>
    rw [hsource] at h
    dsimp only at h
    cases hget : (valuesAt ctx.values (stageId, pointId)).get? measurementId with
    | none =>
      rw [hget] at h
      cases h
    | some item =>
      rw [hget] at h
      dsimp only at h
      split_ifs at h
      · unfold sealBinding at h
        cases hvalue : bindingComponent item component with
        | error text =>
          rw [hvalue] at h
          cases h
        | ok value =>
          rw [hvalue] at h
          dsimp only at h
          cases hconditions : contributingAttempts ctx.attempts item.conditionIds with
          | none =>
            rw [hconditions] at h
            cases h
          | some conditions =>
            rw [hconditions] at h
            exact ⟨stageId, pointId, measurementId, component, item, value, conditions, rfl, hget,
              hvalue, hconditions, hsource ▸ (Except.ok.inj h).symm⟩
      · cases h

omit [PyFloat F] in
theorem receiptConditions_eq {attempts conditions : List ConditionAttempt} {ids : IdSet}
    (h : contributingAttempts attempts ids = some conditions) {receipt : SourceReceipt F}
    (hreceipt : receipt.conditions = conditions) : receiptConditions receipt = ids := by
  unfold receiptConditions
  rw [hreceipt, (contributingAttempts_eq_some h).2]
  ext id
  rw [List.mem_toFinset, Finset.mem_sortedList]

theorem mem_leavingReceipts {ctx : RunContext F} {state : RunState F} {stageId : Id}
    {receipt : SealedReceipt F} : receipt ∈ leavingReceipts ctx state stageId ↔
      ∃ binding ∈ ctx.plan.bindings, binding.source.stageId = stageId ∧
        resolveBinding ⟨ctx.host, ctx.plan, ctx.corner, state.conditionValues, state.attempts⟩
          binding = .ok receipt := by
  unfold leavingReceipts Resolutions.receipts resolvedStageBindings
  rw [List.mem_filterMap]
  constructor
  · rintro ⟨outcome, hmem, hsome⟩
    obtain ⟨binding, hbinding, rfl⟩ := List.mem_map.mp hmem
    obtain ⟨hdeclared, hstage⟩ := List.mem_filter.mp hbinding
    refine ⟨binding, hdeclared, of_decide_eq_true hstage, ?_⟩
    cases hresolved : resolveBinding (⟨ctx.host, ctx.plan, ctx.corner, state.conditionValues,
        state.attempts⟩ : BindingContext F) binding with
    | error refusal =>
      rw [hresolved] at hsome
      cases hsome
    | ok found =>
      rw [hresolved] at hsome
      rw [Option.some.inj hsome]
  · rintro ⟨binding, hdeclared, hstage, hresolved⟩
    exact ⟨.ok receipt, List.mem_map.mpr ⟨binding,
      List.mem_filter.mpr ⟨hdeclared, decide_eq_true hstage⟩, hresolved⟩, rfl⟩

def Feeds (plan : PlanDocument) (receipt : SealedReceipt F) (stageId : Id) : Prop :=
  ∃ binding, (InsertionDict.ofList (plan.bindings.map fun b => (b.id, b))).get?
    receipt.receipt.bindingId = some binding ∧ binding.target.stageId = stageId

omit [PyFloat F] in
theorem mem_extendLineages {plan : PlanDocument} (receipts : List (SealedReceipt F))
    (lineage : UpstreamLineage) (stageId id : Id) :
    id ∈ (receipts.foldl (extendLineage plan) lineage).at stageId ↔
      id ∈ lineage.at stageId ∨ ∃ receipt ∈ receipts, Feeds plan receipt stageId ∧
        id ∈ receiptConditions receipt.receipt := by
  induction receipts generalizing lineage with
  | nil => simp
  | cons receipt rest ih =>
    rw [List.foldl_cons, ih, List.exists_mem_cons_iff, ← or_assoc]
    refine or_congr ?_ Iff.rfl
    unfold extendLineage Feeds UpstreamLineage.at
    dsimp only
    cases (InsertionDict.ofList (plan.bindings.map fun b => (b.id, b))).get?
        receipt.receipt.bindingId with
    | none => simp
    | some binding =>
      dsimp only
      rw [InsertionDict.get?_set]
      by_cases hstage : stageId = binding.target.stageId
      · simp [hstage]
      · simp [hstage, Ne.symm hstage]

end Receipts

section Runs

/-- Where the conditions of a compiled stage come from. -/
theorem compileStage_place {ctx : RunContext F} {state : RunState F} {stage : Stage}
    {compilation : Compilation} (h : compileStage ctx state stage = .ok compilation) :
    ∀ condition ∈ compilation.conditions, condition.stageId = stage.id ∧
      ∃ point ∈ selectedPoints stage ctx.corner, ∃ sample, condition.pointId = point.id ∧
        condition.conditionId = conditionIdentifier ctx.host.toHost stage.id point.id sample := by
  unfold compileStage prepareTestbenchPlanNgspice at h
  obtain ⟨sealedDut, -, h⟩ := Except.bind_eq_ok.mp h
  obtain ⟨corner, -, h⟩ := Except.bind_eq_ok.mp h
  obtain ⟨resolved, -, h⟩ := Except.bind_eq_ok.mp h
  obtain ⟨-, -, h⟩ := Except.bind_eq_ok.mp h
  obtain ⟨inputs, -, h⟩ := Except.bind_eq_ok.mp h
  obtain ⟨conditions, hconditions, h⟩ := Except.bind_eq_ok.mp h
  obtain ⟨-, -, h⟩ := Except.bind_eq_ok.mp h
  obtain rfl := Except.ok.inj h
  intro condition hmem
  obtain ⟨compiled, hcompiled, hmem⟩ := List.mem_flatten.mp hmem
  obtain ⟨point, hpoint, hcompile⟩ := Except.exists_of_mem_mapM hconditions hcompiled
  unfold compilePoint at hcompile
  cases hpolicy : point.statePolicy with
  | carryover =>
    rw [hpolicy] at hcompile
    cases hcompile
  | fresh =>
    rw [hpolicy] at hcompile
    obtain ⟨parameters, -, hcompile⟩ := Except.bind_eq_ok.mp hcompile
    obtain ⟨samples, -, hcompile⟩ := Except.bind_eq_ok.mp hcompile
    obtain ⟨sample, -, hone⟩ := Except.exists_of_mem_mapM hcompile hmem
    unfold compileOneCondition at hone
    obtain ⟨analysis, -, hone⟩ := Except.bind_eq_ok.mp hone
    obtain ⟨details, -, hone⟩ := Except.bind_eq_ok.mp hone
    obtain ⟨probes, -, hone⟩ := Except.bind_eq_ok.mp hone
    obtain rfl := Except.ok.inj hone
    exact ⟨rfl, point, hpoint, sample, rfl, rfl⟩

/-- The placeholders of a stage belong to its points and did not complete. -/
theorem uncompiledAttempts_place {host : Host} {stage : Stage} {corner : Id} {reason : String} :
    ∀ attempt ∈ (uncompiledAttempts host stage corner reason).1,
      attempt.stageId = stage.id ∧ attempt.status = .invalid := by
  unfold uncompiledAttempts
  have hfold : ∀ (points : List ConditionPoint) (start : List ConditionAttempt × Bool),
      (∀ attempt ∈ start.1, attempt.stageId = stage.id ∧ attempt.status = .invalid) →
        ∀ attempt ∈ (points.foldl (uncompiledStep host stage.id corner reason) start).1,
          attempt.stageId = stage.id ∧ attempt.status = .invalid := by
    intro points
    induction points with
    | nil => exact fun _ hstart => hstart
    | cons point rest ih =>
      intro start hstart
      apply ih
      intro attempt hmem
      rcases List.mem_append.mp hmem with hold | hnew
      · exact hstart attempt hold
      · obtain ⟨suffix, -, rfl⟩ := List.mem_map.mp hnew
        exact ⟨rfl, rfl⟩
  exact hfold _ _ (fun _ hmem => absurd hmem List.not_mem_nil)

structure Traced (stages : List Id) (state : RunState F) : Prop where
  attempts : ∀ attempt ∈ state.attempts, attempt.stageId ∈ stages ∧
    (attempt.status = .completed → attempt.Succeeded)
  points : ∀ key found, state.conditionValues.get? key = some found → key.1 ∈ stages
  own : ∀ key found, state.conditionValues.get? key = some found →
    ∀ name item, found.get? name = some item →
      ∀ attempt ∈ state.attempts, attempt.key = key → attempt.conditionId ∈ item.conditionIds
  values : ∀ key found, state.conditionValues.get? key = some found →
    ∀ name item, found.get? name = some item → ∀ id ∈ item.conditionIds, Rests state.attempts id
  upstream : ∀ stageId, ∀ id ∈ state.upstreamLineage.at stageId, Rests state.attempts id

variable {ctx : RunContext F} {state next : RunState F} {stages : List Id} {stage : Stage}

omit [PyFloat F] in
theorem Traced.skip (h : Traced stages state) (hfresh : stage.id ∉ stages)
    (failure : CompileFailure) : Traced (stages ++ [stage.id]) (skipStage ctx state stage failure)
    := by
  have hnew := @uncompiledAttempts_place ctx.host.toHost stage ctx.corner (uncompiledReason failure)
  refine ⟨?_, ?_, ?_, ?_, ?_⟩
  · intro attempt hmem
    rcases List.mem_append.mp hmem with hold | hlast
    · exact (h.attempts attempt hold).imp_left (List.mem_append_left _)
    · obtain ⟨hstage, hstatus⟩ := hnew attempt hlast
      exact ⟨List.mem_append_right _ (List.mem_singleton.mpr hstage),
        fun hcompleted => absurd (hcompleted.symm.trans hstatus) (by decide)⟩
  · exact fun key found hget => List.mem_append_left _ (h.points key found hget)
  · intro key found hget name item hitem attempt hmem hkey
    rcases List.mem_append.mp hmem with hold | hlast
    · exact h.own key found hget name item hitem attempt hold hkey
    · have hstage : key.1 = stage.id := hkey ▸ (hnew attempt hlast).1
      exact absurd (hstage ▸ h.points key found hget) hfresh
  · exact fun key found hget name item hitem id hid =>
      (h.values key found hget name item hitem id hid).append _
  · exact fun stageId id hid => (h.upstream stageId id hid).append _

/-- A point of the stage has its values from this execution, any other keeps what it had. -/
theorem Traced.values_of_executed (h : Traced stages state) {compilation : Compilation}
    (hcompile : compileStage ctx state stage = .ok compilation)
    (hstep : StageExecuted ctx state next stage.id compilation.conditions) {key : Id × Id}
    {found : PointValues F} (hget : next.conditionValues.get? key = some found) :
    (key.1 = stage.id ∧ evaluatedPoint ctx compilation.conditions
      (state.upstreamLineage.at stage.id) key = some found) ∨
    (key.1 ∈ stages ∧ state.conditionValues.get? key = some found) := by
  rw [hstep.values key, Option.or_eq_some_iff] at hget
  rcases hget with hnew | ⟨-, hold⟩
  · obtain ⟨⟨condition, hmem, hkey⟩, -⟩ := evaluatedPoint_eq_some hnew
    exact .inl ⟨hkey ▸ (compileStage_place hcompile condition hmem).1, hnew⟩
  · exact .inr ⟨h.points key found hold, hold⟩

theorem Traced.execute (h : Traced stages state) (hfresh : stage.id ∉ stages)
    {compilation : Compilation} (hcompile : compileStage ctx state stage = .ok compilation)
    (hstep : StageExecuted ctx state next stage.id compilation.conditions) :
    Traced (stages ++ [stage.id]) next := by
  have hplace := compileStage_place hcompile
  have hrests : ∀ condition ∈ compilation.conditions,
      (attempted ctx.host ctx.plan ctx.executor condition).Succeeded →
        Rests next.attempts condition.conditionId := by
    intro condition hmem hsucceeded
    refine ⟨_, ?_, rfl, hsucceeded⟩
    rw [hstep.attempts]
    exact List.mem_append_right _ (List.mem_map_of_mem hmem)
  have hvalues := fun key found => @Traced.values_of_executed F _ ctx state next stages stage h
    compilation hcompile hstep key found
  have hitems : ∀ key found, next.conditionValues.get? key = some found →
      ∀ name item, found.get? name = some item →
        ∀ id ∈ item.conditionIds, Rests next.attempts id := by
    intro key found hget name item hitem id hid
    rcases hvalues key found hget with ⟨-, hnew⟩ | ⟨-, hold⟩
    · obtain ⟨-, hsucceeded, hids⟩ := evaluatedPoint_eq_some hnew
      rcases (hids name item hitem id).mp hid with ⟨condition, hmem, hkey, rfl⟩ | hupstream
      · exact hrests condition hmem (hsucceeded condition hmem hkey)
      · rw [hstep.attempts]
        exact (h.upstream _ id hupstream).append _
    · rw [hstep.attempts]
      exact (h.values key found hold name item hitem id hid).append _
  refine ⟨?_, ?_, ?_, hitems, ?_⟩
  · intro attempt hmem
    rw [hstep.attempts] at hmem
    rcases List.mem_append.mp hmem with hold | hlast
    · exact (h.attempts attempt hold).imp_left (List.mem_append_left _)
    · obtain ⟨condition, hcondition, rfl⟩ := List.mem_map.mp hlast
      refine ⟨List.mem_append_right _ (List.mem_singleton.mpr (hplace condition hcondition).1), ?_⟩
      intro hcompleted
      obtain ⟨waveform, hwaveform⟩ := waveform_of_completed hcompleted
      exact runCondition_eq_ok hwaveform
  · intro key found hget
    rcases hvalues key found hget with ⟨hstage, -⟩ | ⟨hdone, -⟩
    · exact List.mem_append_right _ (List.mem_singleton.mpr hstage)
    · exact List.mem_append_left _ hdone
  · intro key found hget name item hitem attempt hmem hkey
    rw [hstep.attempts] at hmem
    rcases hvalues key found hget with ⟨hstage, hnew⟩ | ⟨hdone, hold⟩
    · rcases List.mem_append.mp hmem with hearlier | hlast
      · have hearlierStage := (h.attempts attempt hearlier).1
        rw [show attempt.stageId = key.1 from congrArg Prod.fst hkey, hstage] at hearlierStage
        exact absurd hearlierStage hfresh
      · obtain ⟨condition, hcondition, rfl⟩ := List.mem_map.mp hlast
        exact ((evaluatedPoint_eq_some hnew).2.2 name item hitem _).mpr
          (.inl ⟨condition, hcondition, hkey, rfl⟩)
    · rcases List.mem_append.mp hmem with hearlier | hlast
      · exact h.own key found hold name item hitem attempt hearlier hkey
      · obtain ⟨condition, hcondition, rfl⟩ := List.mem_map.mp hlast
        have hsame : key.1 = stage.id := hkey ▸ (hplace condition hcondition).1
        exact absurd (hsame ▸ hdone) hfresh
  · intro stageId id hid
    rw [hstep.lineage, mem_extendLineages] at hid
    rcases hid with hold | ⟨receipt, hreceipt, -, hcondition⟩
    · rw [hstep.attempts]
      exact (h.upstream stageId id hold).append _
    · obtain ⟨binding, -, -, hresolved⟩ := mem_leavingReceipts.mp hreceipt
      obtain ⟨sourceStage, pointId, measurementId, component, item, value, conditions, -, hitem, -,
        hcontributing, rfl⟩ := resolveBinding_eq_ok hresolved
      rw [receiptConditions_eq hcontributing rfl] at hcondition
      obtain ⟨found, hfound, hname⟩ := valuesAt_get? hitem
      exact hitems _ found hfound measurementId item hname id hcondition

theorem runStage_traced (h : Traced stages state) (hfresh : stage.id ∉ stages)
    (hstep : runStage ctx state stage = .ok next) : Traced (stages ++ [stage.id]) next := by
  rcases runStage_eq_ok hstep with rfl | ⟨failure, rfl⟩ | ⟨compilation, hcompile, hexecuted⟩
  · exact ⟨fun attempt hmem => (h.attempts attempt hmem).imp_left (List.mem_append_left _),
      fun key found hget => List.mem_append_left _ (h.points key found hget), h.own, h.values,
      h.upstream⟩
  · exact h.skip hfresh failure
  · exact h.execute hfresh hcompile hexecuted

/-- The stages of a run are distinct stages of its plan. -/
theorem scheduledStages_distinct {plan : PreparedPlan F} {scheduled : List Stage}
    (h : scheduledStages plan.document = .ok scheduled) :
    (scheduled.map Stage.id).Nodup ∧ ∀ stage ∈ scheduled, stage ∈ plan.document.stages := by
  unfold scheduledStages at h
  obtain ⟨order, horder, hstages⟩ := Except.bind_eq_ok.mp h
  clear h
  obtain ⟨out, hout, hperm, -⟩ := topologicalStages_spec plan
  have hsame : order = out := Except.ok.inj (horder.symm.trans hout)
  have hfound : ∀ id stage, stage? plan.document id = .ok stage →
      stage ∈ plan.document.stages ∧ stage.id = id := by
    intro id stage hstage
    unfold stage? at hstage
    cases hget : (InsertionDict.ofList (plan.document.stages.map fun stage =>
        (stage.id, stage))).get? id with
    | none =>
      rw [hget] at hstage
      cases hstage
    | some found =>
      rw [hget] at hstage
      obtain rfl := Except.ok.inj hstage
      obtain ⟨known, hknown, heq⟩ := List.mem_map.mp (InsertionDict.mem_of_get?_ofList hget)
      obtain ⟨rfl, rfl⟩ := Prod.mk.inj heq
      exact ⟨hknown, rfl⟩
  have hall := Except.mapM_eq_ok.mp hstages
  have hids : scheduled.map Stage.id = order := by
    clear horder hsame hstages
    induction hall with
    | nil => rfl
    | cons hhead _ ih => rw [List.map_cons, ih, (hfound _ _ hhead).2]
  constructor
  · rw [hids, hsame]
    exact hperm.nodup_iff.mpr (stage_ids_nodup (prepared_stages plan).1)
  · intro stage hmem
    obtain ⟨id, -, hstage⟩ := Except.exists_of_mem_mapM hstages hmem
    exact (hfound id stage hstage).1

omit [PyFloat F] in
theorem Traced.initial : Traced [] (RunState.initial : RunState F) := by
  have hempty : ∀ key found, (RunState.initial : RunState F).conditionValues.get? key ≠
      some found := by
    intro key found hget
    cases hget
  exact ⟨fun _ hmem => absurd hmem List.not_mem_nil, fun _ _ hget => absurd hget (hempty _ _),
    fun _ _ hget => absurd hget (hempty _ _), fun _ _ hget => absurd hget (hempty _ _),
    fun _ _ hid => absurd hid (Finset.notMem_empty _)⟩

/-- Every value of a finished stage loop rests on conditions that succeeded. -/
theorem runStages_traced (plan : PreparedPlan F) (hplan : ctx.plan = plan.document)
    (h : runStages ctx = .ok state) : ∃ stages, Traced stages state := by
  unfold runStages at h
  obtain ⟨scheduled, hscheduled, h⟩ := Except.bind_eq_ok.mp h
  rw [hplan] at hscheduled
  have hdistinct := (scheduledStages_distinct hscheduled).1
  refine ⟨scheduled.map Stage.id, Except.foldlM_spec (fun done (state : RunState F) =>
    (done.map Stage.id).Nodup → Traced (done.map Stage.id) state) ?_ ?_ h hdistinct⟩
  · intro done stage state next hinv hstep hnodup
    rw [List.map_append, List.map_singleton] at hnodup ⊢
    rw [List.nodup_append] at hnodup
    exact runStage_traced (hinv hnodup.1)
      (fun hmem => hnodup.2.2 _ hmem _ (List.mem_singleton_self _) rfl) hstep
  · exact fun _ => Traced.initial

end Runs

section Envelope

/-- What an envelope vouches for: a measured value, or a point that is valid. -/
def Observed.Trusted : Observed F → Prop
  | .measured _ => True
  | .verdict text => text = "VALID"

def sourcePoint? : ObservableSource → Option (Id × Id)
  | .measurement stageId pointId _ | .validity stageId pointId _ => some (stageId, pointId)
  | _ => none

theorem unknownVerdict_ne (reason : String) : unknownVerdict reason ≠ "VALID" := by
  intro h
  have hunknown : "UNKNOWN(runner: ".toList = 'U' :: "NKNOWN(runner: ".toList := by decide
  have hvalid : "VALID".toList = 'V' :: "ALID".toList := by decide
  have hlist := congrArg String.toList h
  simp only [unknownVerdict, String.toList_append, hunknown, hvalid, List.append_assoc,
    List.cons_append, List.cons.injEq] at hlist
  exact absurd hlist.1 (by decide)

variable {ctx : RunContext F} {state : RunState F}

/-- A rule is only valid over a point all of whose conditions completed. -/
theorem pointRuleVerdict_valid {ctx : OutputContext F} {key : Id × Id} {rule : ValidityRule}
    (h : (pointRuleVerdict ctx key rule).1 = "VALID") :
    ∀ attempt ∈ ctx.attempts, attempt.key = key → attempt.status = .completed := by
  unfold pointRuleVerdict at h
  cases hfind : (attemptsAt ctx.attempts key).find? fun a => decide (a.status ≠ .completed) with
  | some attempt =>
    rw [hfind] at h
    exact absurd h (unknownVerdict_ne _)
  | none =>
    intro attempt hmem hkey
    have hnot := List.find?_eq_none.mp hfind attempt
      (List.mem_filter.mpr ⟨hmem, decide_eq_true hkey⟩)
    by_contra hstatus
    exact hnot (decide_eq_true hstatus)

omit [PyFloat F] in
theorem mem_valuesLineage {values : PointValues F} {id : String} :
    id ∈ valuesLineage values ↔ ∃ name item, values.get? name = some item ∧
      id ∈ item.conditionIds := by
  have hfold : ∀ entries : List (Id × ConditionValue F),
      id ∈ entries.foldr (fun entry acc => entry.2.conditionIds ∪ acc) (∅ : IdSet) ↔
        ∃ entry ∈ entries, id ∈ entry.2.conditionIds := by
    intro entries
    induction entries with
    | nil => simp
    | cons entry rest ih =>
      rw [List.foldr_cons, Finset.mem_union, ih, List.exists_mem_cons_iff]
  unfold valuesLineage
  rw [hfold]
  constructor
  · rintro ⟨⟨name, item⟩, hmem, hid⟩
    exact ⟨name, item, InsertionDict.get?_eq_some_iff.mpr hmem, hid⟩
  · rintro ⟨name, item, hget, hid⟩
    exact ⟨(name, item), InsertionDict.get?_eq_some_iff.mp hget, hid⟩

/-- What an observable rests on: succeeded conditions, among them all of its point. -/
def RestsOn (state : RunState F) (source : ObservableSource) (ids : IdSet) : Prop :=
  (∀ id ∈ ids, Rests state.attempts id) ∧ ∀ attempt ∈ state.attempts,
    sourcePoint? source = some attempt.key → attempt.conditionId ∈ ids

theorem Traced.point_valid {stages : List Id} (h : Traced stages state) {key : Id × Id}
    {rule : ValidityRule}
    (hvalid : (pointRuleVerdict (outputContext ctx state) key rule).1 = "VALID")
    {source : ObservableSource} (hsource : sourcePoint? source = some key) :
    RestsOn state source
      (ruleLineage (valuesAt state.conditionValues key) (attemptsAt state.attempts key)) := by
  have hcompleted := pointRuleVerdict_valid hvalid
  unfold ruleLineage
  by_cases hempty : valuesLineage (valuesAt state.conditionValues key) = ∅
  · rw [if_pos hempty]
    constructor
    · intro id hid
      obtain ⟨attempt, hmem, rfl⟩ := List.mem_map.mp (List.mem_toFinset.mp hid)
      obtain ⟨hattempt, hkey⟩ := List.mem_filter.mp hmem
      exact ⟨attempt, hattempt, rfl, (h.attempts attempt hattempt).2
        (hcompleted attempt hattempt (of_decide_eq_true hkey))⟩
    · intro attempt hmem hkey
      obtain rfl := Option.some.inj (hsource.symm.trans hkey)
      exact List.mem_toFinset.mpr (List.mem_map_of_mem
        (List.mem_filter.mpr ⟨hmem, decide_eq_true rfl⟩))
  · rw [if_neg hempty]
    constructor
    · intro id hid
      obtain ⟨name, item, hget, hitem⟩ := mem_valuesLineage.mp hid
      obtain ⟨found, hfound, hname⟩ := valuesAt_get? hget
      exact h.values key found hfound name item hname id hitem
    · intro attempt hmem hkey
      obtain rfl := Option.some.inj (hsource.symm.trans hkey)
      obtain ⟨id, hid⟩ := Finset.nonempty_iff_ne_empty.mpr hempty
      obtain ⟨name, item, hget, -⟩ := mem_valuesLineage.mp hid
      obtain ⟨found, hfound, hname⟩ := valuesAt_get? hget
      exact mem_valuesLineage.mpr ⟨name, item, hget,
        h.own _ found hfound name item hname attempt hmem rfl⟩

/-- What a source vouches for rests on conditions that succeeded. -/
theorem Traced.observed {stages : List Id} (h : Traced stages state) (plan : PreparedPlan F)
    (hplan : ctx.plan = plan.document) {source : ObservableSource} {observed : Observed F}
    {ids : IdSet} (hobserved : observed? (outputContext ctx state)
      (ruleScan (outputContext ctx state)).verdicts source = some (observed, ids))
    (htrusted : observed.Trusted) : RestsOn state source ids := by
  have hrule : ∀ rule text, linkedVerdict (F := F) (ruleScan (outputContext ctx state)).verdicts
      rule = some (.verdict text, ids) → ∃ verdict,
        (ruleScan (outputContext ctx state)).verdicts.get? rule = some verdict ∧
          verdict.verdict = text ∧ verdict.lineage = ids := by
    intro rule text hlinked
    unfold linkedVerdict linkedConditions at hlinked
    rw [publishedVerdict_eq fun s hs =>
      @ruleScan_plain F _ plan (outputContext ctx state) hplan s hs] at hlinked
    cases hget : (ruleScan (outputContext ctx state)).verdicts.get? rule with
    | none =>
      rw [hget] at hlinked
      cases hlinked
    | some verdict =>
      rw [hget] at hlinked
      simp only [Option.map_some, Option.bind_some, Option.getD_some] at hlinked
      split_ifs at hlinked
      obtain ⟨htext, hids⟩ := Prod.mk.inj (Option.some.inj hlinked)
      exact ⟨verdict, rfl, Observed.verdict.inj htext, hids⟩
  unfold observed? at hobserved
  cases source with
  | measurement stageId pointId measurementId =>
    obtain ⟨item, hitem, heq⟩ := Option.map_eq_some_iff.mp hobserved
    obtain ⟨-, rfl⟩ := Prod.mk.inj heq
    obtain ⟨found, hfound, hname⟩ := valuesAt_get? hitem
    refine ⟨h.values _ found hfound _ item hname, ?_⟩
    intro attempt hmem hkey
    exact h.own _ found hfound _ item hname attempt hmem (Option.some.inj hkey).symm
  | validity stageId pointId ruleId =>
    cases observed with
    | measured value =>
      unfold linkedVerdict at hobserved
      obtain ⟨text, -, hlinked⟩ := Option.bind_eq_some_iff.mp hobserved
      split_ifs at hlinked
      cases (Prod.mk.inj (Option.some.inj hlinked)).1
    | verdict text =>
      obtain rfl : text = "VALID" := htrusted
      obtain ⟨verdict, hget, hverdict, rfl⟩ := hrule _ _ hobserved
      obtain ⟨stage, -, ⟨point, -, rule, -, heq⟩ | ⟨-, rule, -, heq⟩⟩ := ruleScan_source hget
      · obtain ⟨hsource, rfl⟩ := Prod.mk.inj heq
        obtain ⟨rfl, rfl, rfl⟩ := RuleSource.point.inj hsource
        exact h.point_valid hverdict rfl
      · cases (Prod.mk.inj heq).1
  | stageValidity stageId ruleId =>
    cases observed with
    | measured value =>
      unfold linkedVerdict at hobserved
      obtain ⟨text, -, hlinked⟩ := Option.bind_eq_some_iff.mp hobserved
      split_ifs at hlinked
      cases (Prod.mk.inj (Option.some.inj hlinked)).1
    | verdict text =>
      obtain rfl : text = "VALID" := htrusted
      obtain ⟨verdict, hget, hverdict, -⟩ := hrule _ _ hobserved
      obtain ⟨stage, -, ⟨point, -, rule, -, heq⟩ | ⟨-, rule, -, heq⟩⟩ := ruleScan_source hget
      · cases (Prod.mk.inj heq).1
      · rw [(Prod.mk.inj heq).2] at hverdict
        exact absurd hverdict (unknownVerdict_ne _)
  | reduction stageId reductionId component => cases hobserved

theorem Finished.yields {elapsed : F} {result : RunResult F} (h : Finished ctx elapsed result state)
    (plan : PreparedPlan F) (hplan : ctx.plan = plan.document) {observable : Observable}
    (hdeclared : observable ∈ ctx.plan.observables) :
    (⟨result.envelope.observables, (finalEmission ctx state).lineage, []⟩ : Emission F).Yields
      observable.id ((observed? (outputContext ctx state)
        (ruleScan (outputContext ctx state)).verdicts observable.source).filter fun found =>
          decide (Closed (attemptIds state.attempts) found.2)) := by
  have hn : (ctx.plan.observables.map Observable.id).Nodup :=
    hplan ▸ observable_ids_nodup (accepted_iff.mp plan.accepted)
  rw [h.envelope_observables]
  exact closedEmission_yields (attemptIds state.attempts)
    (evaluatePlanOutputs_yields (outputContext ctx state) hn hdeclared)

/-- An observable is published exactly as its source yields, where the lineage is closed. -/
theorem Finished.published {elapsed : F} {result : RunResult F}
    (h : Finished ctx elapsed result state) (plan : PreparedPlan F)
    (hplan : ctx.plan = plan.document) {observable : Observable}
    (hdeclared : observable ∈ ctx.plan.observables) {observed : Observed F} :
    result.envelope.observables.get? observable.id = some observed ↔
      ∃ ids, observed? (outputContext ctx state) (ruleScan (outputContext ctx state)).verdicts
          observable.source = some (observed, ids) ∧ Closed (attemptIds state.attempts) ids := by
  rw [(h.yields plan hplan hdeclared).1, Option.map_eq_some_iff]
  constructor
  · rintro ⟨⟨found, ids⟩, hfiltered, rfl⟩
    obtain ⟨hobserved, hclosed⟩ := Option.mem_filter_iff.mp hfiltered
    exact ⟨ids, hobserved, of_decide_eq_true hclosed⟩
  · rintro ⟨ids, hobserved, hclosed⟩
    exact ⟨(observed, ids), Option.mem_filter_iff.mpr ⟨hobserved, decide_eq_true hclosed⟩, rfl⟩

theorem Finished.published_lineage {elapsed : F} {result : RunResult F}
    (h : Finished ctx elapsed result state) (plan : PreparedPlan F)
    (hplan : ctx.plan = plan.document) {observable : Observable}
    (hdeclared : observable ∈ ctx.plan.observables) {observed : Observed F} {ids : IdSet}
    (hobserved : observed? (outputContext ctx state) (ruleScan (outputContext ctx state)).verdicts
      observable.source = some (observed, ids)) (hclosed : Closed (attemptIds state.attempts) ids) :
    (finalEmission ctx state).lineage.get? observable.id = some ids := by
  rw [(h.yields plan hplan hdeclared).2, hobserved, Option.filter_some,
    if_pos (decide_eq_true hclosed)]
  rfl

/-- In every run of a validated plan, whatever the executor does: an observable that is published
as a measured value or as valid has a lineage, every condition of the lineage was simulated,
exited normally and was read, and the lineage holds every condition of the observable's point. -/
theorem published_rests_on_completed (plan : PreparedPlan F) (ctx : RunContext F)
    (hplan : ctx.plan = plan.document) (elapsed : F) (result : RunResult F)
    (hrun : executeTestbenchPlanNgspice ctx elapsed = .ok result) (observable : Observable)
    (hdeclared : observable ∈ ctx.plan.observables) (observed : Observed F)
    (hpublished : result.envelope.observables.get? observable.id = some observed)
    (htrusted : observed.Trusted) :
    ∃ record ∈ result.envelope.lineage, record.observable = observable.id ∧
      record.conditionIds ≠ [] ∧
      (∀ id ∈ record.conditionIds, ∃ attempt ∈ result.attempts,
        attempt.conditionId = id ∧ attempt.Succeeded) ∧
      ∀ attempt ∈ result.attempts, sourcePoint? observable.source = some attempt.key →
        attempt.conditionId ∈ record.conditionIds := by
  obtain ⟨state, hfinished⟩ := execute_finished hrun
  obtain ⟨stages, htraced⟩ := runStages_traced plan hplan hfinished.stages
  have hresult : result.attempts =
      state.attempts.map (markEmitted (finalEmission ctx state).lineage) := by
    obtain ⟨_, hassembled⟩ := hfinished.assembled
    rw [hassembled]
    rfl
  obtain ⟨ids, hobserved, hclosed⟩ := (hfinished.published plan hplan hdeclared).mp hpublished
  have hlineage := hfinished.published_lineage plan hplan hdeclared hobserved hclosed
  obtain ⟨hrests, hown⟩ := htraced.observed plan hplan hobserved htrusted
  refine ⟨⟨observable.id, ids.sortedList⟩, ?_, rfl, ?_, ?_, ?_⟩
  · rw [hfinished.envelope_lineage]
    exact mem_lineageRecords.mpr ⟨ids, hlineage, rfl⟩
  · exact fun hempty => hclosed.1 (Finset.sortedList_eq_nil.mp hempty)
  · intro id hid
    obtain ⟨attempt, hmem, hattempt, hsucceeded⟩ := hrests id (Finset.mem_sortedList.mp hid)
    rw [hresult]
    exact ⟨_, List.mem_map_of_mem hmem, hattempt, hsucceeded.1, hsucceeded.2, hsucceeded.3⟩
  · intro attempt hmem hkey
    rw [hresult] at hmem
    obtain ⟨known, hknown, rfl⟩ := List.mem_map.mp hmem
    exact Finset.mem_sortedList.mpr (hown known hknown hkey)

def Observed.measured? : Observed F → Option (Payload F)
  | .measured value => some value
  | .verdict _ => none

omit [PyFloat F] in
theorem Observed.measured?_eq_some {observed : Observed F} {value : Payload F} :
    observed.measured? = some value ↔ observed = .measured value := by
  cases observed <;> simp [Observed.measured?]

theorem waveContext_measures : ((executeTestbenchPlanNgspice waveContext 1).toOption.map
    fun result => (((result.envelope.observables.get? "wave").bind Observed.measured?).isSome,
      result.envelope.lineage)) = some (true, [⟨"wave", ["first.p"]⟩]) := by
  decide +kernel

theorem waveContext_published : ∃ result value,
    executeTestbenchPlanNgspice waveContext 1 = .ok result ∧
      result.envelope.observables.get? "wave" = some (.measured value) ∧
      result.envelope.lineage = [⟨"wave", ["first.p"]⟩] := by
  have hmeasures := waveContext_measures
  cases hrun : executeTestbenchPlanNgspice waveContext 1 with
  | error text =>
    rw [hrun] at hmeasures
    cases hmeasures
  | ok result =>
    rw [hrun] at hmeasures
    obtain ⟨hmeasured, hlineage⟩ := Prod.mk.inj (Option.some.inj hmeasures)
    obtain ⟨value, hvalue⟩ := Option.isSome_iff_exists.mp hmeasured
    obtain ⟨observed, hobserved, hvalue⟩ := Option.bind_eq_some_iff.mp hvalue
    exact ⟨result, value, rfl, Observed.measured?_eq_some.mp hvalue ▸ hobserved, hlineage⟩

theorem wave_rests_on_completed : ∃ result value,
    executeTestbenchPlanNgspice waveContext 1 = .ok result ∧
      result.envelope.observables.get? "wave" = some (.measured value) ∧
      ∃ record ∈ result.envelope.lineage, record.observable = "wave" ∧ record.conditionIds ≠ [] ∧
        ∀ id ∈ record.conditionIds, ∃ attempt ∈ result.attempts,
          attempt.conditionId = id ∧ attempt.Succeeded := by
  obtain ⟨result, value, hrun, hpublished, -⟩ := waveContext_published
  obtain ⟨record, hrecord, hobservable, hnonempty, hrests, -⟩ := published_rests_on_completed
    ⟨wavePlan, wavePlan_accepted⟩ waveContext rfl 1 result hrun
    ⟨"wave", .measurement "first" "p" "wave", .V, .curve⟩ (by decide) (.measured value) hpublished
    trivial
  exact ⟨result, value, hrun, hpublished, record, hrecord, hobservable, hnonempty, hrests⟩

end Envelope

section Accounting

/-- The refusal quotes a name. -/
def Refusal.Names (refusal : Refusal) (name : Id) : Prop :=
  ∃ before after, refusal.message = before ++ quoted name ++ after

omit [PyFloat F] in
theorem foldl_keeps_refusals {α : Type} {step : Emission F → α → Emission F}
    (hkeep : ∀ emission item, emission.refusals ⊆ (step emission item).refusals) (items : List α)
    (emission : Emission F) : emission.refusals ⊆ (items.foldl step emission).refusals := by
  induction items generalizing emission with
  | nil => exact List.Subset.refl _
  | cons item rest ih => exact List.Subset.trans (hkeep emission item) (ih (step emission item))

omit [PyFloat F] in
/-- A pass that refuses at one of its items, whatever came before, ends with the refusal. -/
theorem foldl_refuses {α : Type} {step : Emission F → α → Emission F}
    (hkeep : ∀ emission item, emission.refusals ⊆ (step emission item).refusals) {items : List α}
    {item : α} (hmem : item ∈ items) {name : Id} (hrefuses : ∀ emission,
      ∃ refusal ∈ (step emission item).refusals, refusal.Names name) (emission : Emission F) :
    ∃ refusal ∈ (items.foldl step emission).refusals, refusal.Names name := by
  obtain ⟨before, after, rfl⟩ := List.append_of_mem hmem
  rw [List.foldl_append, List.foldl_cons]
  obtain ⟨refusal, hrefusal, hnames⟩ := hrefuses (before.foldl step emission)
  exact ⟨refusal, foldl_keeps_refusals hkeep after _ hrefusal, hnames⟩

omit [PyFloat F] in
theorem Emission.refuse_keeps (emission : Emission F) (kind message : String) :
    emission.refusals ⊆ (emission.refuse kind message).refusals :=
  List.subset_append_left _ _

omit [PyFloat F] in
theorem Emission.refuse_names (emission : Emission F) (kind : String) {message : String} {name : Id}
    (h : ∃ before after, message = before ++ quoted name ++ after) :
    ∃ refusal ∈ (emission.refuse kind message).refusals, refusal.Names name :=
  ⟨_, List.mem_append_right _ (List.mem_singleton_self _), h⟩

omit [PyFloat F] in
theorem emitVerdict_keeps (emission : Emission F) (label : String) (name : Id)
    (verdict : Option String) (linked : IdSet) :
    emission.refusals ⊆ (emitVerdict emission label name verdict linked).refusals := by
  unfold emitVerdict
  cases verdict with
  | none => exact List.Subset.refl _
  | some text =>
    dsimp only
    split_ifs
    · exact Emission.refuse_keeps _ _ _
    · exact List.Subset.refl _

omit [PyFloat F] in
theorem emitObservable_keeps (ctx : OutputContext F) (verdicts : RuleVerdicts)
    (emission : Emission F) (observable : Observable) :
    emission.refusals ⊆ (emitObservable ctx verdicts emission observable).refusals := by
  unfold emitObservable
  cases observable.source with
  | measurement stageId pointId measurementId =>
    dsimp only
    unfold emitMeasurement
    cases (valuesAt ctx.values (stageId, pointId)).get? measurementId with
    | none => exact Emission.refuse_keeps _ _ _
    | some item => exact List.Subset.refl _
  | validity stageId pointId ruleId => exact emitVerdict_keeps _ _ _ _ _
  | stageValidity stageId ruleId =>
    dsimp only
    cases publishedVerdict verdicts (.stage stageId ruleId) with
    | none => exact Emission.refuse_keeps _ _ _
    | some text => exact emitVerdict_keeps _ _ _ _ _
  | reduction stageId reductionId component => exact Emission.refuse_keeps _ _ _

omit [PyFloat F] in
theorem emitVerdict_refuses (emission : Emission F) (label : String) (name : Id) (text : String) :
    ∃ refusal ∈ (emitVerdict emission label name (some text) ∅).refusals, refusal.Names name := by
  unfold emitVerdict
  dsimp only
  rw [if_pos rfl]
  exact Emission.refuse_names _ _ ⟨label ++ " observable ", " has no condition receipt", rfl⟩

omit [PyFloat F] in
theorem unsupportedReduction_refuses (emission : Emission F) (name : Id) :
    ∃ refusal ∈ (unsupportedReduction emission name).refusals, refusal.Names name :=
  Emission.refuse_names _ _
    ⟨"observable ", " requires unsupported stage reduction evaluation", rfl⟩

omit [PyFloat F] in
/-- A source that yields nothing is refused by the name of its observable, unless it is a point
rule without a verdict. -/
theorem emitObservable_refuses {ctx : OutputContext F} {verdicts : RuleVerdicts}
    {observable : Observable} (h : observed? ctx verdicts observable.source = none)
    (hrule : ∀ stageId pointId ruleId, observable.source = .validity stageId pointId ruleId →
      publishedVerdict verdicts (.point stageId pointId ruleId) ≠ none) (emission : Emission F) :
    ∃ refusal ∈ (emitObservable ctx verdicts emission observable).refusals,
      refusal.Names observable.id := by
  have hlinked : ∀ rule text, linkedVerdict (F := F) verdicts rule = none →
      publishedVerdict verdicts rule = some text → linkedConditions verdicts rule = ∅ := by
    intro rule text hnone htext
    unfold linkedVerdict at hnone
    rw [htext, Option.bind_some] at hnone
    by_contra hempty
    rw [if_neg hempty] at hnone
    cases hnone
  unfold observed? at h
  unfold emitObservable
  cases hsource : observable.source with
  | measurement stageId pointId measurementId =>
    rw [hsource] at h
    dsimp only
    unfold emitMeasurement
    rw [Option.map_eq_none_iff.mp h]
    exact Emission.refuse_names _ _ ⟨"observable ", " measurement is unavailable", rfl⟩
  | validity stageId pointId ruleId =>
    rw [hsource] at h
    dsimp only
    obtain ⟨text, htext⟩ := Option.ne_none_iff_exists'.mp (hrule _ _ _ hsource)
    rw [htext, hlinked _ text h htext]
    exact emitVerdict_refuses _ _ _ _
  | stageValidity stageId ruleId =>
    rw [hsource] at h
    dsimp only
    cases htext : publishedVerdict verdicts (.stage stageId ruleId) with
    | none => exact unsupportedReduction_refuses _ _
    | some text =>
      dsimp only
      rw [hlinked _ text h htext]
      exact emitVerdict_refuses _ _ _ _
  | reduction stageId reductionId component =>
    exact unsupportedReduction_refuses _ _

omit [PyFloat F] in
theorem closeLineage_keeps (known : List String) (emission : Emission F) (entry : Id × IdSet) :
    emission.refusals ⊆ (closeLineage known emission entry).refusals := by
  unfold closeLineage
  split_ifs
  · exact List.Subset.refl _
  · exact Emission.refuse_keeps _ _ _

omit [PyFloat F] in
theorem closeLineage_refuses {known : List String} {name : Id} {ids : IdSet}
    (h : ¬ Closed known ids) (emission : Emission F) :
    ∃ refusal ∈ (closeLineage known emission (name, ids)).refusals, refusal.Names name := by
  unfold closeLineage
  rw [if_neg h]
  exact Emission.refuse_names _ _
    ⟨"observable ", " does not have closed condition lineage", rfl⟩

/-- No declared observable is lost. In every run of a validated plan, whatever the executor does,
a declared observable is published, or a refusal quotes its name, or it is the verdict of a rule at
a point of another corner; and a verdict of another corner is never published. -/
theorem observable_accounted (plan : PreparedPlan F) (ctx : RunContext F)
    (hplan : ctx.plan = plan.document) (elapsed : F) (result : RunResult F)
    (hrun : executeTestbenchPlanNgspice ctx elapsed = .ok result) (observable : Observable)
    (hdeclared : observable ∈ ctx.plan.observables) :
    (observable.id ∈ result.envelope.observables.keys ∨
      (∃ refusal ∈ result.refusals, refusal.Names observable.id) ∨
      ∃ stage ∈ ctx.plan.stages, ∃ point ∈ stage.points, ∃ rule ∈ point.validityRules,
        observable.source = .validity stage.id point.id rule.id ∧
          point.condition.corner ≠ ctx.corner) ∧
    ∀ stage ∈ ctx.plan.stages, ∀ point ∈ stage.points, ∀ rule ∈ point.validityRules,
      observable.source = .validity stage.id point.id rule.id →
        point.condition.corner ≠ ctx.corner →
          observable.id ∉ result.envelope.observables.keys := by
  obtain ⟨state, hfinished⟩ := execute_finished hrun
  have haccepted : Accepted F ctx.plan := hplan ▸ accepted_iff.mp plan.accepted
  have hrefusals : (finalEmission ctx state).refusals ⊆ result.refusals := by
    obtain ⟨_, hassembled⟩ := hfinished.assembled
    rw [hassembled]
    exact List.subset_append_right _ _
  have hplain := publishedVerdict_eq fun s hs =>
    @ruleScan_plain F _ plan (outputContext ctx state) hplan s hs
  constructor
  · cases hobserved : observed? (outputContext ctx state)
        (ruleScan (outputContext ctx state)).verdicts observable.source with
    | some found =>
      obtain ⟨observed, ids⟩ := found
      by_cases hclosed : Closed (attemptIds state.attempts) ids
      · left
        exact InsertionDict.mem_keys_iff.mpr ⟨observed,
          (hfinished.published plan hplan hdeclared).mpr ⟨ids, hobserved, hclosed⟩⟩
      · right; left
        have hlineage := (evaluatePlanOutputs_yields (outputContext ctx state)
          (observable_ids_nodup haccepted) hdeclared).2
        rw [hobserved] at hlineage
        obtain ⟨refusal, hrefusal, hnames⟩ := foldl_refuses (closeLineage_keeps _)
          (InsertionDict.get?_eq_some_iff.mp hlineage) (closeLineage_refuses hclosed)
          (evaluatePlanOutputs (outputContext ctx state)).2
        exact ⟨refusal, hrefusals hrefusal, hnames⟩
    | none =>
      right
      by_cases hrule : ∀ stageId pointId ruleId,
          observable.source = .validity stageId pointId ruleId → publishedVerdict
            (ruleScan (outputContext ctx state)).verdicts (.point stageId pointId ruleId) ≠ none
      · left
        obtain ⟨refusal, hrefusal, hnames⟩ := foldl_refuses (emitObservable_keeps _ _) hdeclared
          (emitObservable_refuses hobserved hrule) ⟨.empty, .empty,
            (ruleScan (outputContext ctx state)).refusals⟩
        exact ⟨refusal, hrefusals (foldl_keeps_refusals (closeLineage_keeps _) _ _ hrefusal),
          hnames⟩
      · right
        push Not at hrule
        obtain ⟨stageId, pointId, ruleId, hsource, hnone⟩ := hrule
        obtain ⟨stage, hstage, rfl, point, hpoint, rfl, rule, hruleMem, rfl⟩ :=
          observable_rule_declared haccepted hdeclared hsource
        refine ⟨stage, hstage, point, hpoint, rule, hruleMem, hsource, ?_⟩
        intro hcorner
        have hget := @ruleScan_point F _ plan (outputContext ctx state) hplan stage point rule
          hstage (List.mem_filter.mpr ⟨hpoint, decide_eq_true hcorner⟩) hruleMem
        rw [hplain, hget] at hnone
        cases hnone
  · intro stage hstage point hpoint rule hrule hsource hcorner hmem
    obtain ⟨observed, hobserved⟩ := InsertionDict.mem_keys_iff.mp hmem
    obtain ⟨ids, hyields, -⟩ := (hfinished.published plan hplan hdeclared).mp hobserved
    rw [hsource, observed?, linkedVerdict, hplain, @ruleScan_unselected F _ plan
      (outputContext ctx state) hplan stage point rule hstage hpoint hrule hcorner] at hyields
    cases hyields

theorem invalidExecutor_emits : ((executeTestbenchPlanNgspice
    (specimenContext wavePlan fun _ => .invalidRecord) 1).toOption.map
      fun result => result.envelope.observables.keys) = some [] := by
  decide +kernel

theorem wave_accounted : ∃ result,
    executeTestbenchPlanNgspice (specimenContext wavePlan fun _ => .invalidRecord) 1 = .ok result ∧
      "wave" ∉ result.envelope.observables.keys ∧
      ∃ refusal ∈ result.refusals, refusal.Names "wave" := by
  have hemits := invalidExecutor_emits
  cases hrun : executeTestbenchPlanNgspice (specimenContext wavePlan fun _ => .invalidRecord) 1 with
  | error text =>
    rw [hrun] at hemits
    cases hemits
  | ok result =>
    rw [hrun] at hemits
    have hkeys : result.envelope.observables.keys = [] := Option.some.inj hemits
    have hmissing : "wave" ∉ result.envelope.observables.keys := by
      rw [hkeys]
      exact List.not_mem_nil
    refine ⟨result, rfl, hmissing, ?_⟩
    rcases (observable_accounted ⟨wavePlan, wavePlan_accepted⟩
      (specimenContext wavePlan fun _ => .invalidRecord) rfl 1 result hrun
      ⟨"wave", .measurement "first" "p" "wave", .V, .curve⟩ (by decide)).1 with
      hmem | hrefused | ⟨_, _, _, _, _, _, hsource, _⟩
    · exact absurd hmem hmissing
    · exact hrefused
    · cases hsource

end Accounting

end OpenADA.Runner
