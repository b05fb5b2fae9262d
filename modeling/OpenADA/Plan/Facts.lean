import OpenADA.Plan.Validator

/-! What acceptance says about a plan, in the form the later arguments use it: identifiers are
unique, references resolve, and no identifier carries a separator. -/
namespace OpenADA.Plan

variable {F : Type} [PyFloat F]

/-- A scan that refuses a key already seen leaves the keys of its items distinct. -/
theorem scan_keys_nodup {σ α κ ι : Type} {step : σ → ℕ → α → σ × List ι} (key : α → κ)
    (seen : σ → List κ) (hseen : ∀ s i a, (step s i a).2 = [] →
      key a ∉ seen s ∧ ∀ k, k ∈ seen (step s i a).1 ↔ k = key a ∨ k ∈ seen s)
    {items : List α} {state : σ} (hstart : seen state = [])
    (hclean : (Scan.run step state 0 items).2 = []) : (items.map key).Nodup := by
  have h := Scan.run_spec step
    (fun done s => (done.map key).Nodup ∧ ∀ k, k ∈ done.map key ↔ k ∈ seen s)
    (fun done s a hinv hstep => by
      obtain ⟨hnew, hnext⟩ := hseen s done.length a hstep
      constructor
      · rw [List.map_append, List.map_singleton, List.nodup_append]
        refine ⟨hinv.1, List.nodup_singleton _, ?_⟩
        intro k hk k' hk' heq
        rw [List.mem_singleton] at hk'
        exact hnew (hk' ▸ heq ▸ (hinv.2 k).mp hk)
      · intro k
        rw [hnext k, List.map_append, List.map_singleton, List.mem_append, List.mem_singleton,
          hinv.2 k, or_comm])
    (by simp [hstart]) hclean
  exact h.1

theorem observable_ids_nodup {plan : PlanDocument} (h : Accepted F plan) :
    (plan.observables.map Observable.id).Nodup := by
  refine scan_keys_nodup Observable.id Prod.fst ?_ rfl h.observables
  intro s i a hclean
  simp only [observableStep, List.append_eq_nil_iff, issueIf_eq_nil, decide_eq_false_iff_not]
    at hclean
  exact ⟨hclean.1.1, fun k => by simp [observableStep]⟩

theorem binding_ids_nodup {plan : PlanDocument} (h : Accepted F plan) :
    (plan.bindings.map Binding.id).Nodup := by
  have hclean := h.bindings
  simp only [validateBindings, List.append_eq_nil_iff] at hclean
  refine scan_keys_nodup Binding.id BindingScan.ids ?_ rfl hclean.1
  intro s i a hstep
  simp only [bindingStep, List.append_eq_nil_iff, issueIf_eq_nil, decide_eq_false_iff_not]
    at hstep
  exact ⟨hstep.1.1.1.1.1.1, fun k => by simp [bindingStep]⟩

theorem binding_targets_nodup {plan : PlanDocument} (h : Accepted F plan) :
    (plan.bindings.map fun b => (b.target.stageId, b.target.inputId)).Nodup := by
  have hclean := h.bindings
  simp only [validateBindings, List.append_eq_nil_iff] at hclean
  refine scan_keys_nodup (fun b : Binding => (b.target.stageId, b.target.inputId))
    BindingScan.targets ?_ rfl hclean.1
  intro s i a hstep
  simp only [bindingStep, List.append_eq_nil_iff, issueIf_eq_nil, decide_eq_false_iff_not]
    at hstep
  exact ⟨hstep.1.1.1.2, fun k => by simp [bindingStep]⟩

/-- A scan that enters each new item under its key leaves exactly the items, in order. -/
theorem scan_index_entries {α κ ι : Type} [DecidableEq κ]
    {step : InsertionDict κ α → ℕ → α → InsertionDict κ α × List ι} (key : α → κ)
    (hstep : ∀ d i a, (step d i a).2 = [] → key a ∉ d.keys ∧ (step d i a).1 = d.set (key a) a)
    {items : List α} (hclean : (Scan.run step .empty 0 items).2 = []) :
    (Scan.run step .empty 0 items).1.entries = items.map fun a => (key a, a) := by
  refine Scan.run_spec step (fun done d => d.entries = done.map fun a => (key a, a)) ?_ rfl hclean
  intro done d a hinv hclean
  obtain ⟨hnew, hset⟩ := hstep d done.length a hclean
  rw [hset, InsertionDict.entries_set_of_notMem _ hnew, hinv, List.map_append, List.map_singleton]

theorem measurementIndex_entries {values : List Measurement} {ctx : PointContext} {path : String}
    (h : (validateMeasurements F values ctx path).2 = []) :
    (validateMeasurements F values ctx path).1.entries = values.map fun m => (m.id, m) := by
  simp only [validateMeasurements, List.append_eq_nil_iff] at h
  refine scan_index_entries Measurement.id ?_ h.1
  intro d i a hclean
  by_cases hmem : a.id ∈ d.keys
  · simp [measurementStep, hmem] at hclean
  · exact ⟨hmem, by simp [measurementStep, hmem]⟩

theorem validityIndex_entries {values : List ValidityRule} {byId : MeasurementIndex}
    {stimuli : InsertionDict Id Stimulus} {supplies : InsertionDict Id Supply} {path : String}
    (h : (validateValidity values byId stimuli supplies path).2 = []) :
    (validateValidity values byId stimuli supplies path).1.entries =
      values.map fun rule => (rule.id, rule) := by
  refine scan_index_entries ValidityRule.id ?_ h
  intro d i a hclean
  by_cases hmem : a.id ∈ d.keys
  · simp [validityStep, hmem] at hclean
  · exact ⟨hmem, by simp [validityStep, hmem]⟩

section

variable {plan : PlanDocument} {stage : Stage} {point : ConditionPoint}

theorem stage_clean (h : Accepted F plan) (hs : stage ∈ plan.stages) :
    ∃ scan position, (stageStep F (benchContext F plan) scan 0 (stage.id, position, stage)).2 = []
    := by
  obtain ⟨htable, _, hscan⟩ := validateStages_clean h.stages
  obtain ⟨hmap, hid⟩ := stageTable_clean htable
  obtain ⟨⟨id, position, declared⟩, hentry, rfl⟩ := List.mem_map.mp (hmap.symm ▸ hs)
  obtain ⟨scan, index, hclean⟩ := Scan.run_clean_mem hscan hentry
  obtain rfl : id = declared.id := hid _ hentry
  exact ⟨scan, position, hclean⟩

theorem point_ids_nodup (h : Accepted F plan) (hs : stage ∈ plan.stages) :
    (stage.points.map ConditionPoint.id).Nodup := by
  obtain ⟨scan, position, hclean⟩ := stage_clean h hs
  simp only [stageStep, List.append_eq_nil_iff] at hclean
  refine scan_keys_nodup ConditionPoint.id Prod.fst ?_ rfl hclean.1.1.2
  intro s i a hstep
  simp only [pointStep, List.append_eq_nil_iff, issueIf_eq_nil, decide_eq_false_iff_not] at hstep
  exact ⟨hstep.1, fun k => by simp [pointStep]⟩

theorem point_clean (h : Accepted F plan) (hs : stage ∈ plan.stages) (hp : point ∈ stage.points) :
    ∃ stageInputs path,
      pointIssues F (benchContext F plan) stage.id stageInputs path point = [] := by
  obtain ⟨scan, position, hclean⟩ := stage_clean h hs
  simp only [stageStep, List.append_eq_nil_iff] at hclean
  obtain ⟨state, index, hpoint⟩ := Scan.run_clean_mem hclean.1.1.2 hp
  simp only [pointStep, List.append_eq_nil_iff] at hpoint
  exact ⟨_, _, hpoint.2⟩

theorem measurement_ids_nodup (h : Accepted F plan) (hs : stage ∈ plan.stages)
    (hp : point ∈ stage.points) : (point.measurements.map Measurement.id).Nodup := by
  obtain ⟨stageInputs, path, hclean⟩ := point_clean h hs hp
  simp only [pointIssues, List.append_eq_nil_iff] at hclean
  have hentries := measurementIndex_entries hclean.1.2
  have hn := InsertionDict.keys_nodup (validateMeasurements F point.measurements
    (pointContext (benchContext F plan) stage.id stageInputs point) path).1
  rw [InsertionDict.keys, hentries, List.map_map] at hn
  exact hn

theorem rule_ids_nodup (h : Accepted F plan) (hs : stage ∈ plan.stages)
    (hp : point ∈ stage.points) : (point.validityRules.map ValidityRule.id).Nodup := by
  obtain ⟨stageInputs, path, hclean⟩ := point_clean h hs hp
  simp only [pointIssues, List.append_eq_nil_iff] at hclean
  have hentries := validityIndex_entries hclean.2
  have hn := InsertionDict.keys_nodup (validateValidity point.validityRules
    (validateMeasurements F point.measurements
      (pointContext (benchContext F plan) stage.id stageInputs point) path).1
    (benchContext F plan).stimuli (benchContext F plan).supplies path).1
  rw [InsertionDict.keys, hentries, List.map_map] at hn
  exact hn

theorem schema_stage (h : Accepted F plan) (hs : stage ∈ plan.stages) : stageOk stage = true := by
  have hschema := h.schema
  simp only [schemaOk, Bool.and_eq_true] at hschema
  exact List.all_eq_true.mp hschema.1.1.1.1.2 stage hs

theorem schema_point (h : Accepted F plan) (hs : stage ∈ plan.stages) (hp : point ∈ stage.points) :
    pointOk point = true := by
  have hstage := schema_stage h hs
  simp only [stageOk, Bool.and_eq_true] at hstage
  exact List.all_eq_true.mp hstage.1.1.1.1.2 point hp

end

def Dotless (text : String) : Prop := '.' ∉ text.toList

theorem mem_dropFinalNewline {text : List Char} {c : Char} (h : c ∈ text) (hc : c ≠ '\n') :
    c ∈ dropFinalNewline text := by
  unfold dropFinalNewline
  by_cases hlast : text.getLast? = some '\n'
  · rw [if_pos hlast]
    obtain ⟨front, rfl⟩ := List.getLast?_eq_some_iff.mp hlast
    rw [List.dropLast_concat]
    rcases List.mem_append.mp h with hfront | hend
    · exact hfront
    · exact absurd (List.mem_singleton.mp hend) hc
  · rwa [if_neg hlast]

theorem isId_dotless {text : String} (h : isId text = true) : Dotless text := by
  intro hdot
  have hmem := mem_dropFinalNewline hdot (by decide)
  unfold isId matchesName at h
  cases htext : dropFinalNewline text.toList with
  | nil => simp [htext] at h
  | cons first rest =>
    rw [htext] at h hmem
    simp only [Bool.and_eq_true, List.all_eq_true] at h
    rcases List.mem_cons.mp hmem with hfirst | hrest
    · have hhead := h.1.1
      rw [← hfirst] at hhead
      revert hhead
      decide
    · have htail := h.2 _ hrest
      revert htail
      decide

end OpenADA.Plan
