import OpenADA.Library.SortedSet
import OpenADA.Runner.Identity
import OpenADA.Runner.Verdicts
import Mathlib.Data.String.Basic

/-! The compilation of several stages: no two conditions share an identifier or the path of a
deck. -/
namespace OpenADA.Runner

open OpenADA.Plan OpenADA.Compiler

section Compilation

def selectStageIds (plan : PlanDocument) : Option (List Id) → Except CompileFailure (List Id)
  | none => .ok (plan.stages.map Stage.id)
  | some stageIds =>
    if stageIds = [] ∨ ¬stageIds.Nodup then
      refuse "testbench_plan.compiler.stage_selector_invalid" "/stage_ids"
        "stage_ids must be non-empty and unique"
    else
      let unknown := (stageIds.toFinset \ (plan.stages.map Stage.id).toFinset).sortedList
      if unknown ≠ [] then
        refuse "testbench_plan.compiler.stage_unknown" "/stage_ids"
          ("unknown stages: " ++ ", ".intercalate unknown)
      else .ok stageIds

/-- `stage_documents.get(identifier)`: the last stage of an identifier. -/
def stageDocument? (plan : PlanDocument) (identifier : Id) : Option Stage :=
  plan.stages.reverse.find? fun stage => decide (stage.id = identifier)

structure StagesContext where
  host : Host
  plan : PlanDocument
  sealedDut : SealedDut
  corner : CornerBinding
  bindings : InsertionDict Id BoundInput

def compileStagePoints (ctx : StagesContext) (stage : Stage) :
    Except CompileFailure (List ConditionPoint × List CompiledCondition) := do
  let points := selectedPoints stage ctx.corner.id
  requireSupported stage.id points
  let inputs ← stageInputValues ctx.plan stage ctx.bindings
  let conditions ← points.mapM
    (compilePoint ⟨ctx.host, ctx.plan, ctx.sealedDut, ctx.corner, stage, inputs⟩)
  .ok (points, conditions.flatten)

/-- `_compile_conditions` -/
def compileConditions (ctx : StagesContext) (stageIds : Option (List Id)) :
    Except CompileFailure (List CompiledCondition) := do
  let selected ← selectStageIds ctx.plan stageIds
  let compiled ← (selected.filterMap (stageDocument? ctx.plan)).mapM (compileStagePoints ctx)
  requirePoints ctx.corner.id (compiled.flatMap Prod.fst)
  .ok (compiled.flatMap Prod.snd)

/-- `prepare_testbench_plan_ngspice` for any selection of stages. -/
def prepareStages {F : Type} [PyFloat F] (host : Host) (plan : PlanDocument)
    (captured : Except CompileFailure SealedDut) (corner : Id) (stageIds : Option (List Id))
    (bindingValues : List (ResolvedBindingValue F)) : Except CompileFailure Compilation := do
  let sealedDut ← captured
  let selectedCorner ← selectCorner plan corner
  let resolved ← resolveBindingValues plan bindingValues
  let conditions ← compileConditions ⟨host, plan, sealedDut, selectedCorner, resolved⟩ stageIds
  .ok ⟨sealedDut, conditions⟩

end Compilation

section Names

variable {host : Host}

/-- An identifier of a plan: it has neither the separator of dotted names nor that of paths. -/
structure PlainId (text : Id) : Prop where
  dotless : Dotless text
  slashless : '/' ∉ text.toList

theorem plainId_of_isId {text : Id} (h : isId text = true) : PlainId text := by
  refine ⟨isId_dotless h, ?_⟩
  intro hslash
  have hmem := mem_dropFinalNewline hslash (by decide)
  unfold isId matchesName at h
  cases htext : dropFinalNewline text.toList with
  | nil => simp [htext] at h
  | cons first rest =>
    rw [htext] at h hmem
    simp only [Bool.and_eq_true, List.all_eq_true] at h
    rcases List.mem_cons.mp hmem with hfirst | hrest
    · have hhead := h.1.1
      rw [← hfirst] at hhead
      revert hhead
      decide
    · have htail := h.2 _ hrest
      revert htail
      decide

theorem toList_paddedIndex (index : ℕ) : (paddedIndex index).toList =
    List.replicate (6 - (Nat.toDigits 10 index).length) '0' ++ Nat.toDigits 10 index := by
  have hdigits : (toString index).toList = Nat.toDigits 10 index := Nat.toList_repr
  rw [paddedIndex, String.toList_ofList, hdigits]

theorem ofDigitChars_paddedIndex (index : ℕ) :
    Nat.ofDigitChars 10 (paddedIndex index).toList 0 = index := by
  rw [toList_paddedIndex, Nat.ofDigitChars_append, Nat.ofDigitChars_replicate_zero, Nat.mul_zero,
    Nat.ofDigitChars_ten_toDigits]

theorem underscore_notMem_paddedIndex (index : ℕ) : '_' ∉ (paddedIndex index).toList := by
  rw [toList_paddedIndex, List.mem_append, not_or]
  refine ⟨?_, Nat.underscore_not_in_toDigits⟩
  intro hmem
  exact absurd (List.eq_of_mem_replicate hmem) (by decide)

theorem sampleSuffix_index {sample other : ℕ × ℚ}
    (h : sampleSuffix host sample = sampleSuffix host other) : sample.1 = other.1 := by
  have hlist := congrArg String.toList h
  have hunderscore : "_".toList = ['_'] := rfl
  simp only [sampleSuffix, toString, String.toList_append, hunderscore, List.append_assoc,
    List.singleton_append, List.append_cancel_left_eq] at hlist
  obtain ⟨hindex, -⟩ := Separated.append_inj (underscore_notMem_paddedIndex sample.1)
    (underscore_notMem_paddedIndex other.1) (Separated.tail_cons _ _) (Separated.tail_cons _ _)
    hlist
  rw [← ofDigitChars_paddedIndex sample.1, hindex, ofDigitChars_paddedIndex]

structure ConditionKey where
  stageId : Id
  pointId : Id
  sample : Option (ℕ × ℚ)

namespace ConditionKey

def conditionId (host : Host) (key : ConditionKey) : String :=
  conditionIdentifier host key.stageId key.pointId key.sample

def deckPath (host : Host) (key : ConditionKey) : String :=
  relativeDeckPath host key.stageId key.pointId key.sample

def place (key : ConditionKey) : Id × Id × Option ℕ :=
  (key.stageId, key.pointId, key.sample.map Prod.fst)

def Plain (key : ConditionKey) : Prop := PlainId key.stageId ∧ PlainId key.pointId

end ConditionKey

variable {key other : ConditionKey}

theorem place_of_conditionId (host : Host) (hkey : key.Plain) (hother : other.Plain)
    (h : key.conditionId host = other.conditionId host) : key.place = other.place := by
  obtain ⟨stageId, pointId, sample⟩ := key
  obtain ⟨stageId', pointId', sample'⟩ := other
  unfold ConditionKey.conditionId at h
  rw [conditionIdentifier_eq, conditionIdentifier_eq] at h
  obtain ⟨hids, htail⟩ := pointName_inj hkey.1.dotless hkey.2.dotless hother.1.dotless
    hother.2.dotless (idTail_compiledTail host sample) (idTail_compiledTail host sample') h
  obtain ⟨rfl, rfl⟩ := Prod.mk.inj hids
  cases sample with
  | none =>
    cases sample' with
    | none => rfl
    | some sample' =>
      have hlist := congrArg String.toList htail
      rw [compiledTail, compiledTail, toList_dot_append] at hlist
      cases hlist
  | some sample =>
    cases sample' with
    | none =>
      have hlist := congrArg String.toList htail
      rw [compiledTail, compiledTail, toList_dot_append] at hlist
      cases hlist
    | some sample' =>
      have hlist := congrArg String.toList htail
      rw [compiledTail, compiledTail, toList_dot_append, toList_dot_append] at hlist
      have hindex := sampleSuffix_index (String.toList_inj.mp (List.cons.inj hlist).2)
      simp only [ConditionKey.place, Option.map_some, hindex]

def deckTail (host : Host) : Option (ℕ × ℚ) → List Char
  | none => ".spice".toList
  | some sample => '/' :: ((sampleSuffix host sample).toList ++ ".spice".toList)

theorem toList_relativeDeckPath (host : Host) (stageId pointId : Id) (sample : Option (ℕ × ℚ)) :
    (relativeDeckPath host stageId pointId sample).toList = "conditions/".toList ++
      (stageId.toList ++ '/' :: (pointId.toList ++ deckTail host sample)) := by
  have hslash : "/".toList = ['/'] := String.toList_ofList
  cases sample with
  | none =>
    delta relativeDeckPath deckTail
    simp only [String.toList_append, toString, List.append_assoc]
    rw [hslash, List.cons_append, List.nil_append]
  | some sample =>
    delta relativeDeckPath deckTail
    simp only [String.toList_append, toString, List.append_assoc]
    rw [hslash, List.cons_append, List.nil_append, List.cons_append, List.nil_append]

/-- A path without a sample is not one with a sample: a slash follows the point. -/
theorem deckPath_none_ne {pointId pointId' : Id} {sample : ℕ × ℚ} (h : PlainId pointId) :
    pointId.toList ++ deckTail host none ≠ pointId'.toList ++ deckTail host (some sample) := by
  intro heq
  have hslash : '/' ∈ pointId'.toList ++ deckTail host (some sample) :=
    List.mem_append_right _ List.mem_cons_self
  rw [← heq, List.mem_append] at hslash
  rcases hslash with hpoint | htail
  · exact h.slashless hpoint
  · have hspice : '/' ∉ ".spice".toList := by decide
    exact hspice htail

theorem place_of_deckPath (host : Host) (hkey : key.Plain) (hother : other.Plain)
    (h : key.deckPath host = other.deckPath host) : key.place = other.place := by
  obtain ⟨stageId, pointId, sample⟩ := key
  obtain ⟨stageId', pointId', sample'⟩ := other
  have hlist := congrArg String.toList h
  unfold ConditionKey.deckPath at hlist
  rw [toList_relativeDeckPath, toList_relativeDeckPath, List.append_cancel_left_eq] at hlist
  obtain ⟨hstage, hrest⟩ := Separated.append_inj hkey.1.slashless hother.1.slashless
    (Separated.tail_cons _ _) (Separated.tail_cons _ _) hlist
  obtain rfl := String.toList_inj.mp hstage
  have hpath := (List.cons.inj hrest).2
  cases sample with
  | none =>
    cases sample' with
    | none =>
      have hpoint := List.append_cancel_right hpath
      obtain rfl := String.toList_inj.mp hpoint
      rfl
    | some sample' => exact absurd hpath (deckPath_none_ne hkey.2)
  | some sample =>
    cases sample' with
    | none => exact absurd hpath.symm (deckPath_none_ne hother.2)
    | some sample' =>
      obtain ⟨hpoint, htail⟩ := Separated.append_inj hkey.2.slashless hother.2.slashless
        (Separated.tail_cons _ _) (Separated.tail_cons _ _) hpath
      obtain rfl := String.toList_inj.mp hpoint
      have hsuffix := List.append_cancel_right (List.cons.inj htail).2
      have hindex := sampleSuffix_index (String.toList_inj.mp hsuffix)
      simp only [ConditionKey.place, Option.map_some, hindex]

end Names

section Keys

def samplesOf (ctx : StagesContext) (stage : Stage) (point : ConditionPoint) :
    List (Option (ℕ × ℚ)) :=
  ((stageInputValues ctx.plan stage ctx.bindings).toOption.bind fun inputs =>
    (pointSamples inputs point).toOption).getD []

def pointKeys (ctx : StagesContext) (stage : Stage) (point : ConditionPoint) :
    List ConditionKey :=
  (samplesOf ctx stage point).map fun sample => ⟨stage.id, point.id, sample⟩

def stageKeys (ctx : StagesContext) (stage : Stage) : List ConditionKey :=
  (selectedPoints stage ctx.corner.id).flatMap (pointKeys ctx stage)

def conditionNames (condition : CompiledCondition) : String × String :=
  (condition.conditionId, condition.relativeDeckPath)

def ConditionKey.names (host : Host) (key : ConditionKey) : String × String :=
  (key.conditionId host, key.deckPath host)

theorem compileOneCondition_names {ctx : CompileContext} {point : ConditionPoint}
    {parameters : List (Id × ResolvedQuantity)} {sample : Option (ℕ × ℚ)}
    {condition : CompiledCondition}
    (h : compileOneCondition ctx point parameters sample = .ok condition) :
    conditionNames condition = ConditionKey.names ctx.host ⟨ctx.stage.id, point.id, sample⟩ := by
  unfold compileOneCondition at h
  obtain ⟨analysis, -, h⟩ := Except.bind_eq_ok.mp h
  obtain ⟨details, -, h⟩ := Except.bind_eq_ok.mp h
  obtain ⟨probes, -, h⟩ := Except.bind_eq_ok.mp h
  obtain rfl := Except.ok.inj h
  rfl

variable {ctx : StagesContext} {stage : Stage} {point : ConditionPoint}

theorem compilePoint_names {inputs : BoundInputs} {conditions : List CompiledCondition}
    (hinputs : stageInputValues ctx.plan stage ctx.bindings = .ok inputs)
    (h : compilePoint ⟨ctx.host, ctx.plan, ctx.sealedDut, ctx.corner, stage, inputs⟩ point =
      .ok conditions) :
    conditions.map conditionNames =
      (pointKeys ctx stage point).map (ConditionKey.names ctx.host) := by
  unfold compilePoint at h
  cases hpolicy : point.statePolicy with
  | carryover =>
    rw [hpolicy] at h
    cases h
  | fresh initial =>
    rw [hpolicy] at h
    obtain ⟨parameters, -, h⟩ := Except.bind_eq_ok.mp h
    obtain ⟨samples, hsamples, h⟩ := Except.bind_eq_ok.mp h
    have hof : samplesOf ctx stage point = samples := by
      unfold samplesOf
      rw [hinputs, Except.toOption_ok, Option.bind_some, hsamples, Except.toOption_ok,
        Option.getD_some]
    rw [pointKeys, hof, List.map_map]
    exact Except.map_of_mapM_eq_ok h fun sample condition hone => compileOneCondition_names hone

theorem compileStagePoints_names {result : List ConditionPoint × List CompiledCondition}
    (h : compileStagePoints ctx stage = .ok result) :
    result.2.map conditionNames = (stageKeys ctx stage).map (ConditionKey.names ctx.host) := by
  unfold compileStagePoints at h
  obtain ⟨-, -, h⟩ := Except.bind_eq_ok.mp h
  obtain ⟨inputs, hinputs, h⟩ := Except.bind_eq_ok.mp h
  obtain ⟨conditions, hconditions, h⟩ := Except.bind_eq_ok.mp h
  obtain rfl := Except.ok.inj h
  have hpoints := Except.map_of_mapM_eq_ok hconditions
    fun _ _ hpoint => compilePoint_names hinputs hpoint
  rw [List.map_flatten, hpoints, stageKeys, List.map_flatMap]
  rfl

theorem compileConditions_names {stageIds : Option (List Id)}
    {conditions : List CompiledCondition} (h : compileConditions ctx stageIds = .ok conditions) :
    ∃ selected, selectStageIds ctx.plan stageIds = .ok selected ∧
      conditions.map conditionNames =
        ((selected.filterMap (stageDocument? ctx.plan)).flatMap (stageKeys ctx)).map
          (ConditionKey.names ctx.host) := by
  unfold compileConditions at h
  obtain ⟨selected, hselected, h⟩ := Except.bind_eq_ok.mp h
  obtain ⟨compiled, hcompiled, h⟩ := Except.bind_eq_ok.mp h
  obtain ⟨-, -, h⟩ := Except.bind_eq_ok.mp h
  obtain rfl := Except.ok.inj h
  refine ⟨selected, hselected, ?_⟩
  have hstages : compiled.map (fun result => result.2.map conditionNames) =
      (selected.filterMap (stageDocument? ctx.plan)).map fun stage =>
        (stageKeys ctx stage).map (ConditionKey.names ctx.host) :=
    Except.map_of_mapM_eq_ok hcompiled fun stage _ hstage => compileStagePoints_names hstage
  rw [List.map_flatMap, List.map_flatMap, List.flatMap_def, hstages]
  rfl

end Keys

section Distinct

variable {F : Type} [PyFloat F] {ctx : StagesContext} {stage : Stage} {point : ConditionPoint}

theorem selectStageIds_nodup {plan : PlanDocument} {stageIds : Option (List Id)}
    {selected : List Id} (hplan : (plan.stages.map Stage.id).Nodup)
    (h : selectStageIds plan stageIds = .ok selected) : selected.Nodup := by
  cases stageIds with
  | none =>
    rw [← Except.ok.inj h]
    exact hplan
  | some stageIds =>
    obtain ⟨hselector, h⟩ := Except.guard_eq_ok.mp h
    obtain ⟨-, h⟩ := Except.guard_eq_ok.mp h
    rw [← Except.ok.inj h]
    exact not_not.mp fun hnot => hselector (Or.inr hnot)

theorem stageDocument?_eq_some {plan : PlanDocument} {identifier : Id}
    (h : stageDocument? plan identifier = some stage) :
    stage ∈ plan.stages ∧ stage.id = identifier :=
  ⟨List.mem_reverse.mp (List.mem_of_find?_eq_some h),
    of_decide_eq_true (List.find?_some h :)⟩

theorem selected_ids_nodup {plan : PlanDocument} {selected : List Id} (h : selected.Nodup) :
    ((selected.filterMap (stageDocument? plan)).map Stage.id).Nodup := by
  refine h.sublist ?_
  clear h
  induction selected with
  | nil => exact List.Sublist.slnil
  | cons identifier rest ih =>
    cases hfound : stageDocument? plan identifier with
    | none =>
      rw [List.filterMap_cons_none hfound]
      exact ih.cons identifier
    | some stage =>
      rw [List.filterMap_cons_some hfound, List.map_cons, (stageDocument?_eq_some hfound).2]
      exact ih.cons_cons identifier

theorem pointSamples_indices {inputs : BoundInputs} {samples : List (Option (ℕ × ℚ))}
    (h : pointSamples inputs point = .ok samples) :
    (samples.map (Option.map Prod.fst)).Nodup := by
  unfold pointSamples at h
  split at h
  · obtain ⟨low, -, h⟩ := Except.bind_eq_ok.mp h
    obtain ⟨high, -, h⟩ := Except.bind_eq_ok.mp h
    obtain ⟨increment, -, h⟩ := Except.bind_eq_ok.mp h
    obtain ⟨grid, -, h⟩ := Except.bind_eq_ok.mp h
    obtain rfl := Except.ok.inj h
    have hindices : (grid.zipIdx.map fun item => some (item.2, item.1)).map
        (Option.map Prod.fst) = (List.range' 0 grid.length).map some := by
      rw [← List.zipIdx_map_snd, List.map_map, List.map_map]
      rfl
    rw [hindices]
    exact List.Nodup.map (Option.some_injective ℕ) List.nodup_range'
  · obtain rfl := Except.ok.inj h
    exact List.nodup_singleton _

theorem samplesOf_indices (ctx : StagesContext) (stage : Stage) (point : ConditionPoint) :
    ((samplesOf ctx stage point).map (Option.map Prod.fst)).Nodup := by
  unfold samplesOf
  cases hinputs : stageInputValues ctx.plan stage ctx.bindings with
  | error e => exact List.nodup_nil
  | ok inputs =>
    rw [Except.toOption_ok, Option.bind_some]
    cases hsamples : pointSamples inputs point with
    | error e => exact List.nodup_nil
    | ok samples => exact pointSamples_indices hsamples

theorem stageKeys_places (h : Accepted F ctx.plan) (hstage : stage ∈ ctx.plan.stages) :
    ((stageKeys ctx stage).map ConditionKey.place).Nodup := by
  unfold stageKeys
  rw [List.map_flatMap]
  apply nodup_flatMap_of_key ConditionPoint.id fun place => place.2.1
  · exact (point_ids_nodup h hstage).sublist (List.filter_sublist.map ConditionPoint.id)
  · intro point _ place hplace
    obtain ⟨key, hkey, rfl⟩ := List.mem_map.mp hplace
    obtain ⟨sample, -, rfl⟩ := List.mem_map.mp hkey
    rfl
  · intro point _
    rw [pointKeys, List.map_map]
    apply List.Nodup.of_map fun place => place.2.2
    rw [List.map_map]
    exact samplesOf_indices ctx stage point

theorem nodup_map_of_place {α β γ : Type} {items : List α} {f : α → β} {place : α → γ}
    (h : (items.map place).Nodup)
    (hplace : ∀ a ∈ items, ∀ b ∈ items, f a = f b → place a = place b) : (items.map f).Nodup := by
  rw [List.nodup_iff_pairwise_ne, List.pairwise_map] at h ⊢
  apply h.imp_of_mem
  intro a b ha hb hne hsame
  exact hne (hplace a ha b hb hsame)

theorem wavePlan_compiles : (prepareStages waveContext.host.toHost wavePlan
    (waveContext.captureDut "first") waveContext.corner none
    ([] : List (ResolvedBindingValue ℚ))).toOption.isSome = true := by
  decide

end Distinct

end OpenADA.Runner
