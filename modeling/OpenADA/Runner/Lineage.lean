import OpenADA.Plan.Facts
import OpenADA.Runner.Emission

/-! The two directions of the evidence relation: the lineage of each emitted observable and the
observables each condition is listed for. -/
namespace OpenADA.Runner

open OpenADA.Plan OpenADA.Compiler

variable {F : Type} [PyFloat F]

def finalEmission (ctx : RunContext F) (state : RunState F) : Emission F :=
  closedEmission (attemptIds state.attempts) (evaluatePlanOutputs (outputContext ctx state)).2

structure Finished (ctx : RunContext F) (elapsed : F) (result : RunResult F)
    (state : RunState F) : Prop where
  corner : ctx.corner ∈ ctx.plan.cornerBindings.map CornerBinding.id
  stages : runStages ctx = .ok state
  nodup : (attemptIds state.attempts).Nodup
  capacity : state.attempts.length ≤ maxEnvelopeConditions
  assembled : ∃ dutSha256, result = assemble ctx state elapsed dutSha256

theorem execute_finished {ctx : RunContext F} {elapsed : F} {result : RunResult F}
    (h : executeTestbenchPlanNgspice ctx elapsed = .ok result) :
    ∃ state, Finished ctx elapsed result state := by
  unfold executeTestbenchPlanNgspice at h
  obtain ⟨_, hcorner, h⟩ := Except.bind_eq_ok.mp h
  obtain ⟨state, hstages, h⟩ := Except.bind_eq_ok.mp h
  obtain ⟨dutSha256, _, h⟩ := Except.bind_eq_ok.mp h
  obtain ⟨_, hinventory, h⟩ := Except.bind_eq_ok.mp h
  have hdeclared : ctx.corner ∈ ctx.plan.cornerBindings.map CornerBinding.id := by
    by_contra hnot
    simp [requireCorner, hnot] at hcorner
  have hchecked : (attemptIds state.attempts).Nodup ∧
      (attemptIds state.attempts).length ≤ maxEnvelopeConditions := by
    unfold checkInventory at hinventory
    split_ifs at hinventory with hn hc
    exact ⟨hn, not_lt.mp hc⟩
  exact ⟨state, hdeclared, hstages, hchecked.1, by simpa [attemptIds] using hchecked.2,
    dutSha256, (Except.ok.inj h).symm⟩

/-- Every name is emitted as its declared source yields with closed lineage, or not at all. -/
theorem finalEmission_yields (plan : PreparedPlan F) {ctx : RunContext F}
    (hplan : ctx.plan = plan.document) (state : RunState F) (name : Id) :
    (∃ observable ∈ ctx.plan.observables, observable.id = name ∧
      (finalEmission ctx state).Yields name
        ((observed? (outputContext ctx state) (ruleScan (outputContext ctx state)).verdicts
          observable.source).filter fun found =>
            decide (Closed (attemptIds state.attempts) found.2))) ∨
    (name ∉ ctx.plan.observables.map Observable.id ∧
      (finalEmission ctx state).Yields name none) := by
  have hn : (ctx.plan.observables.map Observable.id).Nodup :=
    hplan ▸ observable_ids_nodup (accepted_iff.mp plan.accepted)
  by_cases hname : name ∈ ctx.plan.observables.map Observable.id
  · obtain ⟨observable, hmem, rfl⟩ := List.mem_map.mp hname
    exact .inl ⟨observable, hmem, rfl, closedEmission_yields _
      (evaluatePlanOutputs_yields (outputContext ctx state) hn hmem)⟩
  · have hfresh := evaluatePlanOutputs_undeclared (outputContext ctx state) hn hname
    have hyield : (evaluatePlanOutputs (outputContext ctx state)).2.Yields name none := hfresh
    exact .inr ⟨hname, closedEmission_yields _ hyield⟩

theorem emitted_lineage (plan : PreparedPlan F) {ctx : RunContext F}
    (hplan : ctx.plan = plan.document) (state : RunState F) (name : Id) :
    name ∈ (finalEmission ctx state).observables.keys ↔
      ∃ conditionIds, (finalEmission ctx state).lineage.get? name = some conditionIds ∧
        Closed (attemptIds state.attempts) conditionIds := by
  have hyields : ∃ result : Option (Observed F × IdSet),
      (finalEmission ctx state).Yields name result ∧
        ∀ found ∈ result, Closed (attemptIds state.attempts) found.2 := by
    rcases finalEmission_yields plan hplan state name with ⟨_, _, _, hyield⟩ | ⟨_, hyield⟩
    · refine ⟨_, hyield, ?_⟩
      intro found hfound
      simpa using (Option.mem_filter_iff.mp hfound).2
    · exact ⟨none, hyield, by simp⟩
  obtain ⟨result, hyield, hclosed⟩ := hyields
  rw [InsertionDict.mem_keys_iff, hyield.1, hyield.2]
  cases result with
  | none => simp
  | some found => simpa using hclosed found rfl

theorem mem_emittedBy {lineage : InsertionDict Id IdSet} {conditionId : String} {name : Id} :
    name ∈ emittedBy lineage conditionId ↔
      ∃ conditionIds, lineage.get? name = some conditionIds ∧ conditionId ∈ conditionIds := by
  unfold emittedBy
  rw [List.mem_insertionSort, List.mem_map]
  constructor
  · rintro ⟨entry, hentry, rfl⟩
    obtain ⟨hmem, hid⟩ := List.mem_filter.mp hentry
    exact ⟨entry.2, InsertionDict.get?_eq_some_iff.mpr hmem, by simpa using hid⟩
  · rintro ⟨conditionIds, hget, hid⟩
    exact ⟨(name, conditionIds), List.mem_filter.mpr
      ⟨InsertionDict.get?_eq_some_iff.mp hget, by simpa using hid⟩, rfl⟩

theorem mem_lineageRecords {lineage : InsertionDict Id IdSet} {record : LineageRecord} :
    record ∈ lineageRecords lineage ↔
      ∃ conditionIds, lineage.get? record.observable = some conditionIds ∧
        record.conditionIds = conditionIds.sortedList := by
  unfold lineageRecords
  simp only [List.mem_map, List.mem_insertionSort]
  constructor
  · rintro ⟨entry, hentry, rfl⟩
    exact ⟨entry.2, InsertionDict.get?_eq_some_iff.mpr hentry, rfl⟩
  · rintro ⟨conditionIds, hget, hids⟩
    refine ⟨(record.observable, conditionIds), InsertionDict.get?_eq_some_iff.mp hget, ?_⟩
    rw [← hids]

theorem lineageRecords_nodup (lineage : InsertionDict Id IdSet) :
    ((lineageRecords lineage).map LineageRecord.observable).Nodup := by
  unfold lineageRecords
  rw [List.map_map]
  have hperm := (List.perm_insertionSort (fun a b : Id × IdSet => a.1 ≤ b.1)
    lineage.entries).map Prod.fst
  exact hperm.nodup_iff.mpr lineage.keys_nodup

section

variable {ctx : RunContext F} {elapsed : F} {result : RunResult F} {state : RunState F}

theorem Finished.envelope_observables (h : Finished ctx elapsed result state) :
    result.envelope.observables = (finalEmission ctx state).observables := by
  obtain ⟨_, hresult⟩ := h.assembled
  rw [hresult]
  rfl

theorem Finished.envelope_lineage (h : Finished ctx elapsed result state) :
    result.envelope.lineage = lineageRecords (finalEmission ctx state).lineage := by
  obtain ⟨_, hresult⟩ := h.assembled
  rw [hresult]
  rfl

theorem Finished.envelope_conditions (h : Finished ctx elapsed result state) :
    result.envelope.conditions = state.attempts.map fun attempt =>
      conditionRecord (markEmitted (finalEmission ctx state).lineage attempt) := by
  obtain ⟨_, hresult⟩ := h.assembled
  rw [hresult]
  simp only [assemble, List.map_map]
  rfl

theorem Finished.condition_ids (h : Finished ctx elapsed result state) :
    result.envelope.conditions.map ConditionRecord.id = attemptIds state.attempts := by
  rw [h.envelope_conditions, List.map_map]
  rfl

/-- A listed condition names an observable exactly when the observable's lineage names it. -/
theorem Finished.condition_lists (h : Finished ctx elapsed result state)
    {condition : ConditionRecord} (hc : condition ∈ result.envelope.conditions) (name : Id) :
    name ∈ condition.observables ↔
      ∃ conditionIds, (finalEmission ctx state).lineage.get? name = some conditionIds ∧
        condition.id ∈ conditionIds := by
  rw [h.envelope_conditions] at hc
  obtain ⟨attempt, _, rfl⟩ := List.mem_map.mp hc
  exact mem_emittedBy

end

end OpenADA.Runner
