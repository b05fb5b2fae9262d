import OpenADA.Plan.Facts

/-! The references of an accepted plan resolve: a bound stage input is declared, and the result
indices hold nothing but the measurements and rules of declared points. -/
namespace OpenADA.Plan

variable {F : Type} [PyFloat F]

def InputsDeclared (stages : List Stage) (inputs : StageInputs) : Prop :=
  ∀ key unit, inputs.get? key = some unit →
    ∃ stage ∈ stages, stage.id = key.1 ∧ (⟨key.2, unit⟩ : StageInput) ∈ stage.inputs

def PointItems {ν : Type} (items : ConditionPoint → List ν) (name : ν → Id) (stages : List Stage)
    (index : InsertionDict (Id × Id × Id) ν) : Prop :=
  ∀ key item, index.get? key = some item → ∃ stage ∈ stages, stage.id = key.1 ∧
    ∃ point ∈ stage.points, point.id = key.2.1 ∧ item ∈ items point ∧ name item = key.2.2

theorem InputsDeclared.mono {stages : List Stage} {inputs : StageInputs}
    (h : InputsDeclared stages inputs) (stage : Stage) :
    InputsDeclared (stages ++ [stage]) inputs := by
  intro key unit hget
  obtain ⟨declared, hmem, hrest⟩ := h key unit hget
  exact ⟨declared, List.mem_append_left _ hmem, hrest⟩

theorem stageInputs_scan (stageId : Id) (position : ℕ) {inputs : List StageInput}
    {base : StageInputs}
    (hclean : (Scan.run (stageInputStep stageId position) ([], base) 0 inputs).2 = []) :
    ∀ key unit, (Scan.run (stageInputStep stageId position) ([], base) 0 inputs).1.2.get? key =
      some unit → base.get? key = some unit ∨
        (key.1 = stageId ∧ (⟨key.2, unit⟩ : StageInput) ∈ inputs) := by
  refine Scan.run_spec (stageInputStep stageId position) (fun done state => ∀ key unit,
    state.2.get? key = some unit → base.get? key = some unit ∨
      (key.1 = stageId ∧ (⟨key.2, unit⟩ : StageInput) ∈ done)) ?_ (fun _ _ h => .inl h) hclean
  intro done state item hinv _ key unit hget
  simp only [stageInputStep, InsertionDict.get?_set] at hget
  by_cases hkey : key = (stageId, item.id)
  · rw [if_pos hkey] at hget
    obtain rfl := Option.some.inj hget
    subst hkey
    exact .inr ⟨rfl, List.mem_append_right _ (List.mem_singleton.mpr rfl)⟩
  · rw [if_neg hkey] at hget
    rcases hinv key unit hget with hbase | ⟨hstage, hmem⟩
    · exact .inl hbase
    · exact .inr ⟨hstage, List.mem_append_left _ hmem⟩

theorem indexUnder_get? {ν : Type} (stageId pointId : Id) (items : InsertionDict Id ν)
    (target : InsertionDict (Id × Id × Id) ν) {key : Id × Id × Id} {item : ν}
    (h : (indexUnder stageId pointId target items).get? key = some item) :
    target.get? key = some item ∨
      (key.1 = stageId ∧ key.2.1 = pointId ∧ (key.2.2, item) ∈ items.entries) := by
  unfold indexUnder at h
  generalize items.entries = entries at h ⊢
  induction entries generalizing target with
  | nil => exact .inl h
  | cons entry rest ih =>
    rcases ih (target.set (stageId, pointId, entry.1) entry.2) h with hset | ⟨hs, hp, hmem⟩
    · rw [InsertionDict.get?_set] at hset
      by_cases hkey : key = (stageId, pointId, entry.1)
      · rw [if_pos hkey] at hset
        obtain rfl := Option.some.inj hset
        subst hkey
        exact .inr ⟨rfl, rfl, List.mem_cons_self⟩
      · rw [if_neg hkey] at hset
        exact .inl hset
    · exact .inr ⟨hs, hp, List.mem_cons_of_mem _ hmem⟩

/-- What the scan of a stage's points leaves: the inputs as they were, and the indices extended
by the items of these points only. -/
structure PointsScanned (stageId : Id) (base : StageScan) (done : List ConditionPoint)
    (scan : StageScan) : Prop where
  inputs : scan.stageInputs = base.stageInputs
  measurements : ∀ key item, scan.measurements.get? key = some item →
    base.measurements.get? key = some item ∨ key.1 = stageId ∧ ∃ point ∈ done,
      point.id = key.2.1 ∧ item ∈ point.measurements ∧ item.id = key.2.2
  validity : ∀ key item, scan.validity.get? key = some item →
    base.validity.get? key = some item ∨ key.1 = stageId ∧ ∃ point ∈ done,
      point.id = key.2.1 ∧ item ∈ point.validityRules ∧ item.id = key.2.2

theorem points_scan (bench : BenchContext) (stageId : Id) (position : ℕ)
    {points : List ConditionPoint} {base : StageScan}
    (hclean : (Scan.run (pointStep F bench stageId position) ([], base) 0 points).2 = []) :
    PointsScanned stageId base points
      (Scan.run (pointStep F bench stageId position) ([], base) 0 points).1.2 := by
  refine Scan.run_spec (pointStep F bench stageId position)
    (fun done state => PointsScanned stageId base done state.2) ?_
    ⟨rfl, fun _ _ h => .inl h, fun _ _ h => .inl h⟩ hclean
  intro done state point hinv hstep
  simp only [pointStep, List.append_eq_nil_iff, pointIssues] at hstep
  have hmeasured := measurementIndex_entries hstep.2.1.2
  have hrules := validityIndex_entries hstep.2.2
  constructor
  · exact hinv.inputs
  · intro key item hget
    rcases indexUnder_get? stageId point.id _ _ hget with hold | ⟨hs, hp, hmem⟩
    · rcases hinv.measurements key item hold with hbase | ⟨hs, declared, hdone, hrest⟩
      · exact .inl hbase
      · exact .inr ⟨hs, declared, List.mem_append_left _ hdone, hrest⟩
    · unfold pointMeasurements at hmem
      rw [hmeasured, List.mem_map] at hmem
      obtain ⟨measurement, hmeasurement, heq⟩ := hmem
      obtain ⟨hid, rfl⟩ := Prod.mk.inj heq
      exact .inr ⟨hs, point, List.mem_append_right _ (List.mem_singleton.mpr rfl), hp.symm,
        hmeasurement, hid⟩
  · intro key item hget
    rcases indexUnder_get? stageId point.id _ _ hget with hold | ⟨hs, hp, hmem⟩
    · rcases hinv.validity key item hold with hbase | ⟨hs, declared, hdone, hrest⟩
      · exact .inl hbase
      · exact .inr ⟨hs, declared, List.mem_append_left _ hdone, hrest⟩
    · unfold pointMeasurements at hmem
      rw [hrules, List.mem_map] at hmem
      obtain ⟨rule, hrule, heq⟩ := hmem
      obtain ⟨hid, rfl⟩ := Prod.mk.inj heq
      exact .inr ⟨hs, point, List.mem_append_right _ (List.mem_singleton.mpr rfl), hp.symm,
        hrule, hid⟩

structure StagesScanned (stages : List Stage) (scan : StageScan) : Prop where
  inputs : InputsDeclared stages scan.stageInputs
  measurements : PointItems ConditionPoint.measurements Measurement.id stages scan.measurements
  validity : PointItems ConditionPoint.validityRules ValidityRule.id stages scan.validity

theorem PointItems.extend {ν : Type} {items : ConditionPoint → List ν} {name : ν → Id}
    {stages : List Stage} {stage : Stage} {base index : InsertionDict (Id × Id × Id) ν}
    (h : PointItems items name stages base)
    (hnew : ∀ key item, index.get? key = some item → base.get? key = some item ∨
      key.1 = stage.id ∧ ∃ point ∈ stage.points,
        point.id = key.2.1 ∧ item ∈ items point ∧ name item = key.2.2) :
    PointItems items name (stages ++ [stage]) index := by
  intro key item hget
  rcases hnew key item hget with hbase | ⟨hs, hpoint⟩
  · obtain ⟨declared, hmem, hrest⟩ := h key item hbase
    exact ⟨declared, List.mem_append_left _ hmem, hrest⟩
  · exact ⟨stage, List.mem_append_right _ (List.mem_singleton.mpr rfl), hs.symm, hpoint⟩

def TableScanned (done : List (Id × ℕ × Stage)) (scan : StageScan) : Prop :=
  (∀ entry ∈ done, entry.1 = entry.2.2.id) →
    StagesScanned (done.map fun entry => entry.2.2) scan

theorem tableScanned_empty : TableScanned [] StageScan.empty :=
  fun _ => ⟨by simp [InputsDeclared, StageScan.empty], by simp [PointItems, StageScan.empty],
    by simp [PointItems, StageScan.empty]⟩

theorem stageStep_scanned (bench : BenchContext) {done : List (Id × ℕ × Stage)} {scan : StageScan}
    {entry : Id × ℕ × Stage} {index : ℕ} (hinv : TableScanned done scan)
    (hstep : (stageStep F bench scan index entry).2 = []) :
    TableScanned (done ++ [entry]) (stageStep F bench scan index entry).1 := by
  intro hids
  simp only [stageStep, List.append_eq_nil_iff] at hstep
  have hid : entry.1 = entry.2.2.id := hids entry (by simp)
  have hdone := hinv fun e he => hids e (List.mem_append_left _ he)
  have hinputs := stageInputs_scan entry.1 entry.2.1 hstep.1.1.1
  have hpoints := points_scan bench entry.1 entry.2.1 hstep.1.1.2
  rw [List.map_append, List.map_singleton]
  constructor
  · intro key unit hget
    simp only [stageStep, hpoints.inputs] at hget
    rcases hinputs key unit hget with hold | ⟨hkey, hmem⟩
    · exact hdone.inputs.mono entry.2.2 key unit hold
    · exact ⟨entry.2.2, by simp, (hkey.trans hid).symm, hmem⟩
  · exact hdone.measurements.extend (hid ▸ hpoints.measurements)
  · exact hdone.validity.extend (hid ▸ hpoints.validity)

theorem stages_scanned {plan : PlanDocument} (h : Accepted F plan) :
    StagesScanned plan.stages (validateStages F plan.stages (benchContext F plan)).1 := by
  obtain ⟨htable, _, hscan⟩ := validateStages_clean h.stages
  obtain ⟨hmap, hid⟩ := stageTable_clean htable
  have hdeclared := Scan.run_spec (stageStep F (benchContext F plan)) TableScanned
    (fun _ _ _ hinv hstep => stageStep_scanned (benchContext F plan) hinv hstep)
    tableScanned_empty hscan hid
  rwa [hmap] at hdeclared

theorem stage_reductions_clean {plan : PlanDocument} (h : Accepted F plan) {stage : Stage}
    (hs : stage ∈ plan.stages) : ∃ ctx path, ctx.points = stage.points ∧
      (∀ source item, ctx.measurement? source = some item → ∃ point ∈ stage.points,
        point.id = source.pointId ∧ item ∈ point.measurements ∧ item.id = source.measurementId) ∧
      (validateReductions stage.reductions ctx path).2 = [] := by
  obtain ⟨htable, _, hscan⟩ := validateStages_clean h.stages
  obtain ⟨hmap, hid⟩ := stageTable_clean htable
  obtain ⟨⟨id, position, declared⟩, hentry, rfl⟩ := List.mem_map.mp (hmap.symm ▸ hs)
  obtain ⟨done, rest, scan, hsplit, hinv, hclean⟩ := Scan.run_reached
    (stageStep F (benchContext F plan)) TableScanned
    (fun _ _ _ hinv hstep => stageStep_scanned (benchContext F plan) hinv hstep)
    tableScanned_empty hscan hentry
  obtain rfl : id = declared.id := hid _ hentry
  have hnext := stageStep_scanned (benchContext F plan) hinv hclean (fun e he => hid e (by
    rw [hsplit]
    rcases List.mem_append.mp he with hd | hlast
    · exact List.mem_append_left _ hd
    · rw [List.mem_singleton.mp hlast]
      exact List.mem_append_right _ List.mem_cons_self))
  simp only [stageStep, List.append_eq_nil_iff] at hclean
  refine ⟨_, _, ?_, ?_, hclean.1.2⟩
  · rfl
  · intro source item hget
    obtain ⟨stage, hmem, hsid, hpoint⟩ := hnext.measurements _ item hget
    have hsame : stage = declared := by
      have hn := stage_ids_nodup htable
      rw [← hmap, hsplit] at hn
      refine List.inj_on_of_nodup_map hn ?_ (by simp) hsid
      rw [List.map_append, List.map_cons]
      rw [List.map_append, List.map_singleton] at hmem
      rcases List.mem_append.mp hmem with hd | hlast
      · exact List.mem_append_left _ hd
      · rw [List.mem_singleton.mp hlast]
        exact List.mem_append_right _ List.mem_cons_self
    exact hsame ▸ hpoint

theorem binding_target_declared {plan : PlanDocument} (h : Accepted F plan) {binding : Binding}
    (hb : binding ∈ plan.bindings) : ∃ stage ∈ plan.stages, stage.id = binding.target.stageId ∧
      binding.target.inputId ∈ stage.inputs.map StageInput.id := by
  have hclean := h.bindings
  simp only [validateBindings, List.append_eq_nil_iff] at hclean
  obtain ⟨state, index, hstep⟩ := Scan.run_clean_mem hclean.1 hb
  simp only [bindingStep, List.append_eq_nil_iff, issueIf_eq_nil, Option.isNone_eq_false_iff]
    at hstep
  obtain ⟨unit, hget⟩ := Option.isSome_iff_exists.mp hstep.1.1.1.1.2
  obtain ⟨stage, hs, hid, hinput⟩ := (stages_scanned h).inputs _ unit hget
  exact ⟨stage, hs, hid, List.mem_map.mpr ⟨_, hinput, rfl⟩⟩

theorem observable_rule_declared {plan : PlanDocument} (h : Accepted F plan)
    {observable : Observable} (ho : observable ∈ plan.observables) {stageId pointId ruleId : Id}
    (hsource : observable.source = .validity stageId pointId ruleId) :
    ∃ stage ∈ plan.stages, stage.id = stageId ∧ ∃ point ∈ stage.points, point.id = pointId ∧
      ∃ rule ∈ point.validityRules, rule.id = ruleId := by
  obtain ⟨state, index, hstep⟩ := Scan.run_clean_mem h.observables ho
  simp only [observableStep, List.append_eq_nil_iff, observableSourceIssues, hsource] at hstep
  have hkey : (stageId, pointId, ruleId) ∈
      (validateStages F plan.stages (benchContext F plan)).1.validity.keys := by
    by_contra hnot
    simp [hnot] at hstep
  obtain ⟨rule, hget⟩ := InsertionDict.mem_keys_iff.mp hkey
  obtain ⟨stage, hs, hsid, point, hp, hpid, hrule, hrid⟩ := (stages_scanned h).validity _ rule hget
  exact ⟨stage, hs, hsid, point, hp, hpid, rule, hrule, hrid⟩

end OpenADA.Plan
