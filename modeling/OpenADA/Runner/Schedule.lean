import OpenADA.Plan.Validator

/-! The stage order of a run and its agreement with the cycle check of the validator. -/
namespace OpenADA.Runner

open OpenADA.Plan

/-- The stage dictionary of the runner: identifier and declared dependencies. -/
def dependencyTable (plan : PlanDocument) : CycleSearch.Table Id :=
  (InsertionDict.ofList (plan.stages.map fun stage => (stage.id, stage.dependsOn))).entries

/-- `_topological_stages`. -/
def topologicalStages (plan : PlanDocument) : Except String (List Id) :=
  match LayeredOrder.order (dependencyTable plan) with
  | .ok out => .ok out
  | .error _ => .error "validated stage graph unexpectedly contains a cycle"

def bindingGraph (stages : List Stage) (bindings : List Binding) : CycleSearch.Table Id :=
  stages.map fun stage => (stage.id,
    (bindings.filter fun binding => decide (binding.target.stageId = stage.id)).map
      fun binding => binding.source.stageId)

section

variable {F : Type} [PyFloat F]

theorem prepared_stages (plan : PreparedPlan F) :
    (stageTable plan.document.stages).2 = [] ∧
      stageGraphIssues (stageTable plan.document.stages).1 = [] := by
  have h := validateStages_clean (accepted_iff.mp plan.accepted).stages
  exact ⟨h.1, h.2.1⟩

theorem dependencyTable_eq (plan : PreparedPlan F) :
    dependencyTable plan.document =
      plan.document.stages.map fun stage => (stage.id, stage.dependsOn) := by
  apply InsertionDict.entries_ofList
  have hn := stage_ids_nodup (prepared_stages plan).1
  simpa [List.map_map, Function.comp_def] using hn

theorem dependencyTable_nodes (plan : PreparedPlan F) :
    (dependencyTable plan.document).nodes = plan.document.stages.map Stage.id := by
  simp [dependencyTable_eq, CycleSearch.Table.nodes, List.map_map, Function.comp_def]

theorem dependencyTable_parents (plan : PreparedPlan F) {stage : Stage}
    (hs : stage ∈ plan.document.stages) :
    (dependencyTable plan.document).parents stage.id = stage.dependsOn := by
  have hn : ((dependencyTable plan.document).map Prod.fst).Nodup := by
    have h := dependencyTable_nodes plan
    unfold CycleSearch.Table.nodes at h
    rw [h]
    exact stage_ids_nodup (prepared_stages plan).1
  have hmem : (stage.id, stage.dependsOn) ∈ dependencyTable plan.document := by
    rw [dependencyTable_eq]
    exact List.mem_map_of_mem hs
  unfold CycleSearch.Table.parents
  rw [(InsertionDict.lookup_eq_some_iff hn).mpr hmem]
  rfl

theorem dependencyTable_acyclic (plan : PreparedPlan F) :
    ¬ (dependencyTable plan.document).Cyclic := by
  obtain ⟨htable, hgraph⟩ := prepared_stages plan
  simp only [stageGraphIssues, List.append_eq_nil_iff] at hgraph
  have hacyc := (checkDag_eq_nil_iff _ _).mp hgraph.2
  rwa [stageGraph_eq htable, ← dependencyTable_eq plan] at hacyc

theorem dependsOn_declared (plan : PreparedPlan F) {stage : Stage}
    (hs : stage ∈ plan.document.stages) {dependency : Id} (hd : dependency ∈ stage.dependsOn) :
    dependency ∈ plan.document.stages.map Stage.id := by
  obtain ⟨htable, hgraph⟩ := prepared_stages plan
  simp only [stageGraphIssues, List.append_eq_nil_iff, List.flatMap_eq_nil_iff] at hgraph
  obtain ⟨hmap, hid⟩ := stageTable_clean htable
  obtain ⟨entry, hentry, hstage⟩ := List.mem_map.mp (hmap.symm ▸ hs)
  have hdep := hgraph.1 entry hentry
  rw [hstage] at hdep
  simp only [dependencyIssues, List.flatten_eq_nil_iff] at hdep
  obtain ⟨index, hindex, hget⟩ := List.mem_iff_getElem.mp hd
  have hone := hdep _ (List.mem_mapIdx.mpr ⟨index, hindex, rfl⟩)
  simp only [List.append_eq_nil_iff, issueIf_eq_nil, decide_eq_false_iff_not, not_not] at hone
  rw [hget, stageTable_keys htable] at hone
  exact hone.1

/-- The binding scan leaves every binding flowing from a declared dependency of its target. -/
theorem binding_dependency (plan : PreparedPlan F) {binding : Binding}
    (hb : binding ∈ plan.document.bindings) :
    ∃ stage ∈ plan.document.stages, stage.id = binding.target.stageId ∧
      binding.source.stageId ∈ stage.dependsOn := by
  have hacc := accepted_iff.mp plan.accepted
  have htable := (prepared_stages plan).1
  have hclean := hacc.bindings
  simp only [validateBindings, List.append_eq_nil_iff] at hclean
  set scan := (validateStages F plan.document.stages (benchContext F plan.document)).1
  set table := (stageTable plan.document.stages).1 with htableDef
  have hall := Scan.run_spec (bindingStep scan table)
    (fun done _ => ∀ b ∈ done, b.source.stageId ∈
      ((table.get? b.target.stageId).map fun entry => entry.2.dependsOn).getD [])
    (fun done state item hinv hstep => by
      intro b hbmem
      rcases List.mem_append.mp hbmem with hbold | hbnew
      · exact hinv b hbold
      · obtain rfl := List.mem_singleton.mp hbnew
        simp only [bindingStep, List.append_eq_nil_iff, issueIf_eq_nil, Bool.or_eq_false_iff,
          decide_eq_false_iff_not, not_not] at hstep
        exact hstep.1.1.2.2)
    (by simp) hclean.1 binding hb
  cases hget : table.get? binding.target.stageId with
  | none => simp [hget] at hall
  | some entry =>
    rw [hget] at hall
    obtain ⟨hmap, hid⟩ := stageTable_clean htable
    have hmem := InsertionDict.get?_eq_some_iff.mp hget
    refine ⟨entry.2, ?_, (hid _ hmem).symm, hall⟩
    rw [← hmap]
    exact List.mem_map.mpr ⟨_, hmem, rfl⟩

theorem topologicalStages_spec (plan : PreparedPlan F) :
    ∃ out, topologicalStages plan.document = .ok out ∧
      out.Perm (plan.document.stages.map Stage.id) ∧
      ∀ stage ∈ plan.document.stages, ∀ dependency ∈ stage.dependsOn,
        LayeredOrder.Precedes out dependency stage.id := by
  have hn : (dependencyTable plan.document).nodes.Nodup := by
    rw [dependencyTable_nodes]
    exact stage_ids_nodup (prepared_stages plan).1
  obtain ⟨out, hout, hperm, hprec⟩ :=
    LayeredOrder.order_spec hn (dependencyTable_acyclic plan)
  refine ⟨out, by simp [topologicalStages, hout], dependencyTable_nodes plan ▸ hperm, ?_⟩
  intro stage hs dependency hd
  have hnode : stage.id ∈ (dependencyTable plan.document).nodes := by
    rw [dependencyTable_nodes]
    exact List.mem_map_of_mem hs
  refine hprec stage.id dependency ⟨?_, ?_⟩ hnode
  · rw [dependencyTable_parents plan hs]
    exact hd
  · rw [dependencyTable_nodes]
    exact dependsOn_declared plan hs hd

end

/-- The cycle check rejects exactly the cyclic declared graphs, and the runner schedules every
accepted plan: each stage once, after its dependencies and after the sources of its bindings. -/
theorem stage_schedule_sound (F : Type) [PyFloat F] :
    (∀ (stages : List Stage) (path : String),
      checkDag (stageGraph (stageTable stages).1) path ≠ [] ↔
        (stageGraph (stageTable stages).1).Cyclic) ∧
    ∀ plan : PreparedPlan F, ∃ out, topologicalStages plan.document = .ok out ∧ out.Nodup ∧
      out.Perm (plan.document.stages.map Stage.id) ∧
      (∀ stage ∈ plan.document.stages, ∀ dependency ∈ stage.dependsOn,
        LayeredOrder.Precedes out dependency stage.id) ∧
      ∀ binding ∈ plan.document.bindings,
        LayeredOrder.Precedes out binding.source.stageId binding.target.stageId := by
  constructor
  · intro stages path
    rw [Ne, checkDag_eq_nil_iff, not_not]
  · intro plan
    obtain ⟨out, hout, hperm, hprec⟩ := topologicalStages_spec plan
    have hn := stage_ids_nodup (prepared_stages plan).1
    refine ⟨out, hout, hperm.nodup_iff.mpr hn, hperm, hprec, ?_⟩
    intro binding hb
    obtain ⟨stage, hs, hid, hd⟩ := binding_dependency plan hb
    exact hid ▸ hprec stage hs _ hd

def mutualStages : List Stage :=
  let point := specimenPoint specimenAnalysis [specimenWave] [specimenRule]
  [specimenStage "first" ["second"] [] point, specimenStage "second" ["first"] [] point]

/-- The check reads `depends_on`, so it rejects a plan whose bindings form no cycle. -/
theorem mutualStages_rejected :
    ¬ ∀ (stages : List Stage) (bindings : List Binding),
      checkDag (stageGraph (stageTable stages).1) "/stages" ≠ [] ↔
        (bindingGraph stages bindings).Cyclic := by
  intro hall
  have hreject : checkDag (stageGraph (stageTable mutualStages).1) "/stages" ≠ [] := by
    decide
  obtain ⟨node, hcycle⟩ := (hall mutualStages []).mp hreject
  obtain ⟨parent, hedge, _⟩ := Relation.TransGen.head'_iff.mp hcycle
  have hparents : ∀ n, (bindingGraph mutualStages []).parents n = [] := by
    intro n
    have hn : ((bindingGraph mutualStages []).map Prod.fst).Nodup := by decide
    unfold CycleSearch.Table.parents
    cases h : (bindingGraph mutualStages []).lookup n with
    | none => rfl
    | some found =>
      have hmem := (InsertionDict.lookup_eq_some_iff hn).mp h
      simp only [bindingGraph, List.filter_nil, List.map_nil, List.mem_map, Prod.mk.injEq] at hmem
      obtain ⟨stage, _, _, hfound⟩ := hmem
      simp [← hfound]
  exact absurd hedge.1 (by simp [hparents])

end OpenADA.Runner
