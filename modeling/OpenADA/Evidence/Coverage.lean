import OpenADA.Evidence.Render
import OpenADA.Runner.Lineage

/-! Agreement of the lineage records with the condition inventory, and the full lineage coverage
the comparator finds in a runner-produced document. -/
namespace OpenADA.Evidence

open OpenADA.Plan (Id PreparedPlan wavePlan wavePlan_accepted)
open OpenADA.Runner OpenADA.Oracle

variable {F : Type} [PyFloat F]

/-- The two directions of the evidence relation agree for one observable: its one lineage record
lists exactly the conditions that list it, and at least one. -/
def LineageAgrees (envelope : Envelope F) (name : Id) : Prop :=
  ∃ record ∈ envelope.lineage, record.observable = name ∧ record.conditionIds ≠ [] ∧
    (∀ other ∈ envelope.lineage, other.observable = name → other = record) ∧
    ∀ id, id ∈ record.conditionIds ↔
      ∃ condition ∈ envelope.conditions, condition.id = id ∧ name ∈ condition.observables

section

variable {ctx : RunContext F} {elapsed : F} {result : RunResult F} {state : RunState F}

theorem conditionIndex_get? (h : Finished ctx elapsed result state) {id : String}
    {observables : List Id} :
    (conditionIndex (metadataOf result.envelope)).get? id = some observables ↔
      ∃ condition ∈ result.envelope.conditions,
        condition.id = id ∧ condition.observables = observables := by
  have hids := h.condition_ids
  have hn : ((result.envelope.conditions.map fun condition =>
      (condition.id, condition.observables)).map Prod.fst).Nodup := by
    rw [List.map_map]
    exact hids.symm ▸ h.nodup
  have hindex : conditionIndex (metadataOf result.envelope) =
      InsertionDict.ofList (result.envelope.conditions.map fun condition =>
        (condition.id, condition.observables)) := by
    simp [conditionIndex, metadataOf, conditionEntryOf, List.map_map, Function.comp_def]
  rw [hindex, InsertionDict.get?_ofList hn]
  simp

theorem linkedIds_eq (h : Finished ctx elapsed result state) (name : Id) :
    linkedIds (metadataOf result.envelope) name =
      ((finalEmission ctx state).lineage.get? name).getD ∅ := by
  have hn : ((result.envelope.lineage.map fun record =>
      (record.observable, record.conditionIds.toFinset)).map Prod.fst).Nodup := by
    rw [List.map_map, h.envelope_lineage]
    exact lineageRecords_nodup _
  have hindex : lineageIndex (metadataOf result.envelope) =
      InsertionDict.ofList (result.envelope.lineage.map fun record =>
        (record.observable, record.conditionIds.toFinset)) := by
    simp [lineageIndex, metadataOf, lineageEntryOf, List.map_map, Function.comp_def]
  unfold linkedIds
  rw [hindex]
  cases hget : (finalEmission ctx state).lineage.get? name with
  | none =>
    have hnone : (InsertionDict.ofList (result.envelope.lineage.map fun record =>
        (record.observable, record.conditionIds.toFinset))).get? name = none := by
      by_contra hsome
      obtain ⟨ids, hids⟩ := Option.ne_none_iff_exists'.mp hsome
      obtain ⟨record, hrecord, heq⟩ := List.mem_map.mp ((InsertionDict.get?_ofList hn).mp hids)
      rw [h.envelope_lineage] at hrecord
      obtain ⟨_, hlineage, _⟩ := mem_lineageRecords.mp hrecord
      obtain ⟨rfl, _⟩ := Prod.mk.inj heq
      rw [hget] at hlineage
      exact nomatch hlineage
    rw [hnone]
  | some conditionIds =>
    have hsome : (InsertionDict.ofList (result.envelope.lineage.map fun record =>
        (record.observable, record.conditionIds.toFinset))).get? name = some conditionIds := by
      rw [InsertionDict.get?_ofList hn, List.mem_map]
      refine ⟨⟨name, conditionIds.sortedList⟩, ?_, ?_⟩
      · rw [h.envelope_lineage]
        exact mem_lineageRecords.mpr ⟨conditionIds, hget, rfl⟩
      · simp only [Prod.mk.injEq, true_and]
        ext id
        simp
    rw [hsome]

theorem declares_iff (h : Finished ctx elapsed result state) (id : String) (name : Id) :
    declares (metadataOf result.envelope) id name = true ↔
      ∃ condition ∈ result.envelope.conditions, condition.id = id ∧ name ∈ condition.observables := by
  unfold declares
  rw [decide_eq_true_eq]
  cases hget : (conditionIndex (metadataOf result.envelope)).get? id with
  | none =>
    simp only [Option.getD_none, List.not_mem_nil, false_iff]
    rintro ⟨condition, hc, hid, _⟩
    rw [(conditionIndex_get? h).mpr ⟨condition, hc, hid, rfl⟩] at hget
    exact nomatch hget
  | some observables =>
    obtain ⟨condition, hc, rfl, rfl⟩ := (conditionIndex_get? h).mp hget
    constructor
    · exact fun hname => ⟨condition, hc, rfl, hname⟩
    · rintro ⟨other, ho, hid, hname⟩
      have hsame := (conditionIndex_get? h).mpr ⟨other, ho, hid, rfl⟩
      rw [hget] at hsame
      rwa [Option.getD_some, Option.some.inj hsame]

theorem mem_declaredIds (h : Finished ctx elapsed result state) (id : String) (name : Id) :
    id ∈ declaredIds (metadataOf result.envelope) name ↔
      ∃ condition ∈ result.envelope.conditions, condition.id = id ∧ name ∈ condition.observables := by
  unfold declaredIds
  simp only [List.mem_toFinset, List.mem_map, List.mem_filter, decide_eq_true_eq]
  constructor
  · rintro ⟨entry, ⟨hentry, hname⟩, rfl⟩
    obtain ⟨condition, hc, hid, hobs⟩ :=
      (conditionIndex_get? h).mp (InsertionDict.get?_eq_some_iff.mpr hentry)
    exact ⟨condition, hc, hid, hobs ▸ hname⟩
  · rintro ⟨condition, hc, hid, hname⟩
    have hget := (conditionIndex_get? h).mpr ⟨condition, hc, hid, rfl⟩
    exact ⟨(id, condition.observables), ⟨InsertionDict.get?_eq_some_iff.mp hget, hname⟩, rfl⟩

/-- A condition lists an observable exactly when it is in the observable's lineage. -/
theorem listed_iff (h : Finished ctx elapsed result state) (id : String) (name : Id) :
    (∃ condition ∈ result.envelope.conditions, condition.id = id ∧ name ∈ condition.observables) ↔
      id ∈ attemptIds state.attempts ∧
        ∃ conditionIds, (finalEmission ctx state).lineage.get? name = some conditionIds ∧
          id ∈ conditionIds := by
  rw [← h.condition_ids]
  constructor
  · rintro ⟨condition, hc, rfl, hname⟩
    exact ⟨List.mem_map_of_mem hc, (h.condition_lists hc name).mp hname⟩
  · rintro ⟨hid, hlineage⟩
    obtain ⟨condition, hc, rfl⟩ := List.mem_map.mp hid
    exact ⟨condition, hc, rfl, (h.condition_lists hc name).mpr hlineage⟩

theorem emitted_agrees (plan : PreparedPlan F) (hplan : ctx.plan = plan.document)
    (h : Finished ctx elapsed result state) {name : Id}
    (hname : name ∈ result.envelope.observables.keys) : LineageAgrees result.envelope name := by
  rw [h.envelope_observables] at hname
  obtain ⟨conditionIds, hget, hne, hknown⟩ := (emitted_lineage plan hplan state name).mp hname
  refine ⟨⟨name, conditionIds.sortedList⟩, ?_, rfl, ?_, ?_, ?_⟩
  · rw [h.envelope_lineage]
    exact mem_lineageRecords.mpr ⟨conditionIds, hget, rfl⟩
  · simpa using hne
  · rintro ⟨other, ids⟩ hother rfl
    rw [h.envelope_lineage] at hother
    obtain ⟨otherIds, hotherGet, rfl⟩ := mem_lineageRecords.mp hother
    rw [hget] at hotherGet
    rw [Option.some.inj hotherGet]
  · intro id
    rw [listed_iff h, Finset.mem_sortedList]
    constructor
    · exact fun hid => ⟨hknown id hid, conditionIds, hget, hid⟩
    · rintro ⟨_, others, hothers, hid⟩
      rw [hget] at hothers
      rwa [Option.some.inj hothers]

theorem emitted_covered (plan : PreparedPlan F) (hplan : ctx.plan = plan.document)
    (h : Finished ctx elapsed result state) {name : Id}
    (hname : name ∈ result.envelope.observables.keys) :
    lineageAgrees (documentOf result.envelope) (metadataOf result.envelope) name = true := by
  have hkeys : name ∈ (documentOf result.envelope).observables.keys := by
    rw [documentOf, InsertionDict.keys_mapValues]
    exact hname
  rw [h.envelope_observables] at hname
  obtain ⟨conditionIds, hget, hne, hknown⟩ := (emitted_lineage plan hplan state name).mp hname
  have hlinked : linkedIds (metadataOf result.envelope) name = conditionIds := by
    rw [linkedIds_eq h, hget, Option.getD_some]
  unfold lineageAgrees
  rw [decide_eq_true_eq, hlinked]
  refine ⟨hkeys, hne, ?_⟩
  ext id
  rw [mem_declaredIds h, listed_iff h]
  constructor
  · exact fun hid => ⟨hknown id hid, conditionIds, hget, hid⟩
  · rintro ⟨_, others, hothers, hid⟩
    rw [hget] at hothers
    rwa [Option.some.inj hothers]

end

theorem tally_full {α : Type} {items : List α} {holds : α → Bool} (label : α → String)
    (h : ∀ item ∈ items, holds item = true) :
    tally items holds label = ⟨items.length, items.length, []⟩ := by
  unfold tally
  rw [List.filter_eq_self.mpr h, List.filter_eq_nil_iff.mpr]
  · rfl
  · intro item hitem
    simp [h item hitem]

/-- In every run the lineage of an emitted observable is the set of listed conditions that name
it, no lineage leaves the inventory, and the comparator finds the lineage of emitted observables
fully covered, also condition by condition. -/
theorem lineage_inventory_agree (plan : PreparedPlan F) (ctx : RunContext F)
    (hplan : ctx.plan = plan.document) (elapsed : F) (result : RunResult F)
    (hrun : executeTestbenchPlanNgspice ctx elapsed = .ok result) :
    (∀ name ∈ result.envelope.observables.keys, LineageAgrees result.envelope name) ∧
    (∀ record ∈ result.envelope.lineage,
      record.observable ∈ result.envelope.observables.keys ∧
      ∀ id ∈ record.conditionIds, id ∈ result.envelope.conditions.map ConditionRecord.id) ∧
    (∀ role found, document (renderEnvelope result.envelope) role = .ok found →
      found = documentOf result.envelope) ∧
    (∀ names : List Id, (∀ name ∈ names, name ∈ result.envelope.observables.keys) →
      lineageCoverage (documentOf result.envelope) names none =
        some ⟨names.length, names.length, []⟩) ∧
    ∀ (names : List Id) (ids : List String),
      (∀ id ∈ ids, ∀ name ∈ names, name ∈ result.envelope.observables.keys ∧
        ∃ condition ∈ result.envelope.conditions,
          condition.id = id ∧ name ∈ condition.observables) →
      lineageCoverage (documentOf result.envelope) names (some ids) =
        some ⟨(pairs ids names).length, (pairs ids names).length, []⟩ := by
  obtain ⟨state, h⟩ := execute_finished hrun
  refine ⟨fun name => emitted_agrees plan hplan h, ?_, ?_, ?_, ?_⟩
  · intro record hrecord
    rw [h.envelope_lineage] at hrecord
    obtain ⟨conditionIds, hget, hids⟩ := mem_lineageRecords.mp hrecord
    have hemitted : record.observable ∈ (finalEmission ctx state).observables.keys := by
      rcases finalEmission_yields plan hplan state record.observable with
        ⟨_, _, _, hyield⟩ | ⟨_, hyield⟩
      · rw [hyield.2] at hget
        obtain ⟨found, hfound, _⟩ := Option.map_eq_some_iff.mp hget
        rw [InsertionDict.mem_keys_iff, hyield.1, hfound]
        exact ⟨found.1, rfl⟩
      · rw [hyield.2] at hget
        exact nomatch hget
    refine ⟨h.envelope_observables ▸ hemitted, ?_⟩
    obtain ⟨others, hothers, _, hknown⟩ := (emitted_lineage plan hplan state _).mp hemitted
    intro id hid
    rw [hids, Finset.mem_sortedList] at hid
    rw [hget] at hothers
    rw [h.condition_ids]
    exact hknown id (Option.some.inj hothers ▸ hid)
  · exact fun role found hdocument => ((document_render _ _ _).mp hdocument).1
  · intro names hnames
    exact congrArg some (tally_full id fun name hname => emitted_covered plan hplan h (hnames name hname))
  · intro names ids hall
    refine congrArg some (tally_full pairLabel fun pair hpair => ?_)
    obtain ⟨id, hid, hpair⟩ := List.mem_flatMap.mp hpair
    obtain ⟨name, hname, rfl⟩ := List.mem_map.mp hpair
    obtain ⟨hemitted, hlisted⟩ := hall id hid name hname
    obtain ⟨_, conditionIds, hget, hmem⟩ := (listed_iff h id name).mp hlisted
    have hkeys : name ∈ (documentOf result.envelope).observables.keys := by
      rw [documentOf, InsertionDict.keys_mapValues]
      exact hemitted
    have hlinked : id ∈ linkedIds (metadataOf result.envelope) name := by
      rw [linkedIds_eq h, hget]
      exact hmem
    simp only [pairLinked, hkeys, (declares_iff h id name).mpr hlisted, hlinked, decide_true,
      Bool.and_self]

/-- The run of the one-stage plan emits its waveform with agreeing lineage. -/
theorem wave_lineage_agrees : ∃ result : RunResult ℚ,
    executeTestbenchPlanNgspice waveContext 1 = .ok result ∧
    result.envelope.observables.keys = ["wave"] ∧ LineageAgrees result.envelope "wave" ∧
    lineageCoverage (documentOf result.envelope) ["wave"] none = some ⟨1, 1, []⟩ := by
  have hemits := waveContext_emits
  cases hrun : executeTestbenchPlanNgspice waveContext 1 with
  | error text =>
    rw [hrun] at hemits
    exact nomatch hemits
  | ok result =>
    rw [hrun] at hemits
    have hkeys : result.envelope.observables.keys = ["wave"] := Option.some.inj hemits
    have hagree := lineage_inventory_agree ⟨wavePlan, wavePlan_accepted⟩ waveContext rfl 1 result hrun
    exact ⟨result, rfl, hkeys, hagree.1 "wave" (by simp [hkeys]),
      hagree.2.2.2.1 ["wave"] (by simp [hkeys])⟩

end OpenADA.Evidence
