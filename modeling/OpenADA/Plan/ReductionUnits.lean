import OpenADA.Plan.Dimensions

/-! Unit soundness of the reductions: each clean check keeps the declared units and the evaluated
dimensions in step, and so does the whole list of a stage. -/
namespace OpenADA.Plan

/-- Every clean item of a checked collection reads a measurement of the reduction's unit. -/
theorem collectedSource_clean {ctx : StageContext} {path sourcePath label message : String}
    {unit : PlanUnit} {seen : List PointSource} {source : PointSource}
    (h : collectedSourceIssues ctx path sourcePath label message unit seen source = []) :
    ∃ item, ctx.measurement? source = some item ∧ item.unit = unit := by
  simp only [collectedSourceIssues, sourceMeasurementIssues, List.append_eq_nil_iff] at h
  cases hget : ctx.measurement? source with
  | none =>
    rw [hget] at h
    exact absurd h.1.2 (by simp)
  | some item =>
    rw [hget] at h
    have hunit := h.2
    simp only [Option.toList_some, List.flatMap_cons, List.flatMap_nil, List.append_nil,
      issueIf_eq_nil, decide_eq_false_iff_not, not_not] at hunit
    exact ⟨item, rfl, hunit⟩

theorem sampleAxis_clean {ctx : StageContext} {path : String} {sample : CurveSample}
    (hpoint : ∀ pointId point, ctx.point? pointId = some point →
      (ctx.points.find? fun p => decide (p.id = pointId)) = some point)
    (h : sampleAxisIssues ctx path sample = []) :
    axisDimension ctx.points sample = some sample.x.unit.dimension := by
  obtain ⟨x, source⟩ := sample
  cases x with
  | quantity literal => rfl
  | conditionParameter name unit =>
    simp only [sampleAxisIssues] at h
    cases hget : (ctx.point? source.pointId).bind fun point =>
        point.condition.parameters.find? fun parameter => decide (parameter.name = name) with
    | none =>
      rw [hget] at h
      cases h
    | some parameter =>
      rw [hget] at h
      simp only [issueIf_eq_nil, decide_eq_false_iff_not, not_not] at h
      obtain ⟨point, hfound, hparameter⟩ := Option.bind_eq_some_iff.mp hget
      simp [axisDimension, hpoint source.pointId point hfound, hparameter, SampleAxis.unit, h]

section

variable {ctx : StageContext} {reductions : ReductionIndex} {dims : DimensionIndex}

/-- What the reduction step relies on: sources and points of the context are those of the
stage's points. -/
structure ReadsPoints (ctx : StageContext) : Prop where
  source : ∀ source item, ctx.measurement? source = some item →
    sourceDimension ctx.points source = some item.unit.dimension
  point : ∀ pointId point, ctx.point? pointId = some point →
    (ctx.points.find? fun p => decide (p.id = pointId)) = some point

theorem collectArray_sound (hctx : ReadsPoints ctx) {path : String} {id : Id} {unit : PlanUnit}
    {items : List ArrayItem} (hne : items ≠ [])
    (h : reductionBodyIssues ctx reductions path ⟨id, unit, .collectArray items⟩ = []) :
    evaluateDimensions ctx.points dims (.collectArray items) = some (.plain unit.dimension) := by
  have hitems : ∀ item ∈ items,
      sourceDimension ctx.points item.source = some unit.dimension := by
    intro item hmem
    obtain ⟨seen, index, hstep⟩ := Scan.run_clean_mem h hmem
    obtain ⟨measurement, hget, rfl⟩ := collectedSource_clean hstep
    exact hctx.source _ _ hget
  obtain ⟨values, hvalues, hcommon⟩ := mapM_common hne hitems
  simp [evaluateDimensions, hvalues, hcommon]

theorem collectCurve_sound (hctx : ReadsPoints ctx) {path : String} {id : Id}
    {unit axisUnit : PlanUnit} {samples : List CurveSample} (hne : samples ≠ [])
    (h : reductionBodyIssues ctx reductions path ⟨id, unit, .collectCurve axisUnit samples⟩ = []) :
    evaluateDimensions ctx.points dims (.collectCurve axisUnit samples) =
      some (.curve unit.dimension axisUnit.dimension) := by
  have hsamples : ∀ sample ∈ samples,
      sourceDimension ctx.points sample.source = some unit.dimension ∧
        axisDimension ctx.points sample = some axisUnit.dimension := by
    intro sample hmem
    obtain ⟨seen, index, hstep⟩ := Scan.run_clean_mem h hmem
    simp only [curveSampleStep, List.append_eq_nil_iff, issueIf_eq_nil, decide_eq_false_iff_not,
      not_not] at hstep
    obtain ⟨measurement, hget, rfl⟩ := collectedSource_clean hstep.1.1
    have haxis := sampleAxis_clean hctx.point hstep.2
    rw [hstep.1.2] at haxis
    exact ⟨hctx.source _ _ hget, haxis⟩
  obtain ⟨ordinates, hordinates, hy⟩ := mapM_common hne fun s hs => (hsamples s hs).1
  obtain ⟨positions, hpositions, hx⟩ := mapM_common hne fun s hs => (hsamples s hs).2
  simp [evaluateDimensions, hordinates, hpositions, hy, hx]

theorem collectionParent_curve {path : String} {kind : ReductionKind} {inputId : Id}
    (hkind : kind ≠ .select) (h : collectionParentIssues reductions path kind inputId = []) :
    ∃ parent axisUnit, reductions.get? inputId = some parent ∧
      parent.axisUnit? = some axisUnit := by
  unfold collectionParentIssues at h
  cases hget : reductions.get? inputId with
  | none => simp [hget] at h
  | some parent =>
    simp only [hget, if_neg hkind, issueIf_eq_nil, decide_eq_false_iff_not, not_not] at h
    obtain ⟨pid, unit, body⟩ := parent
    cases body with
    | collectCurve axisUnit samples => exact ⟨_, axisUnit, rfl, rfl⟩
    | _ => cases h

theorem linearFit_sound (hindexed : Indexed reductions dims) {path : String} {id inputId : Id}
    {unit : PlanUnit} {window : ReductionWindow} {samples : ℕ}
    (h : reductionBodyIssues ctx reductions path ⟨id, unit, .linearFit inputId window samples⟩ =
      []) : ∃ result, evaluateDimensions ctx.points dims (.linearFit inputId window samples) =
        some result ∧ Sound reductions ⟨id, unit, .linearFit inputId window samples⟩ result := by
  simp only [reductionBodyIssues, List.append_eq_nil_iff] at h
  obtain ⟨parent, axisUnit, hget, haxis⟩ := collectionParent_curve (by decide) h.1
  have hunit := h.2
  simp only [hget, haxis, Option.toList_some, List.flatMap_cons, List.flatMap_nil,
    List.append_nil, reductionFitIssues, List.append_eq_nil_iff, issueIf_eq_nil,
    decide_eq_false_iff_not, not_not] at hunit
  refine ⟨.fit parent.unit.dimension axisUnit.dimension, ?_, parent, axisUnit.dimension, hget, rfl,
    divideUnits_dimension _ _ _ hunit.1⟩
  simp [evaluateDimensions, hindexed.curve hget haxis]

theorem crossing_sound (hindexed : Indexed reductions dims) {path : String} {id inputId : Id}
    {unit : PlanUnit} {threshold : ThresholdValue} {direction : CrossingDirection}
    {occurrence : ℕ}
    (h : reductionBodyIssues ctx reductions path
      ⟨id, unit, .crossing inputId threshold direction occurrence⟩ = []) :
    evaluateDimensions ctx.points dims (.crossing inputId threshold direction occurrence) =
      some (.crossing unit.dimension) := by
  simp only [reductionBodyIssues, List.append_eq_nil_iff] at h
  obtain ⟨parent, axisUnit, hget, haxis⟩ := collectionParent_curve (by decide) h.1
  have hunit := h.2
  simp only [hget, haxis, Option.toList_some, List.flatMap_cons, List.flatMap_nil,
    List.append_nil, issueIf_eq_nil, Bool.or_eq_false_iff, decide_eq_false_iff_not, not_not]
    at hunit
  simp [evaluateDimensions, hindexed.curve hget haxis, hunit.2]

theorem select_sound (hindexed : Indexed reductions dims) {path : String} {id inputId : Id}
    {unit : PlanUnit} {selector : ArraySelector}
    (h : reductionBodyIssues ctx reductions path ⟨id, unit, .select inputId selector⟩ = []) :
    evaluateDimensions ctx.points dims (.select inputId selector) =
      some (.plain unit.dimension) := by
  simp only [reductionBodyIssues, List.append_eq_nil_iff, collectionParentIssues] at h
  cases hget : reductions.get? inputId with
  | none => simp [hget] at h
  | some parent =>
    obtain ⟨result, hresult, hsound⟩ := hindexed inputId parent hget
    simp only [hget, if_true, issueIf_eq_nil, decide_eq_false_iff_not, not_not,
      Option.toList_some, List.flatMap_cons, List.flatMap_nil, List.append_nil,
      List.append_eq_nil_iff] at h
    obtain ⟨pid, punit, body⟩ := parent
    cases body with
    | collectArray items =>
      obtain rfl := hsound
      obtain rfl : unit = punit := h.2.1
      simp [evaluateDimensions, hresult]
    | _ => cases h.1

theorem arithmetic_sound (hindexed : Indexed reductions dims) {path : String} {id : Id}
    {unit : PlanUnit} {operator : ArithmeticOperator} {operands : List ReductionOperand}
    (h : reductionBodyIssues ctx reductions path ⟨id, unit, .arithmetic operator operands⟩ = []) :
    evaluateDimensions ctx.points dims (.arithmetic operator operands) =
      some (.plain unit.dimension) := by
  simp only [reductionBodyIssues, arithmeticIssues, List.append_eq_nil_iff, issueIf_eq_nil,
    Bool.and_eq_false_iff, decide_eq_false_iff_not, not_not, List.flatten_eq_nil_iff] at h
  obtain ⟨⟨⟨⟨hoperands, htwo⟩, hone⟩, _⟩, hresult⟩ := h
  have hknown : ∀ operand ∈ operands, ∃ actual, operandUnit reductions operand = some actual := by
    intro operand hmem
    obtain ⟨index, hindex, hget⟩ := List.mem_iff_getElem.mp hmem
    have hclean := hoperands _ (List.mem_mapIdx.mpr ⟨index, hindex, rfl⟩)
    rw [hget] at hclean
    cases operand with
    | literal quantity => exact ⟨_, rfl⟩
    | reduction reductionId component declared =>
      cases hunit : operandUnit reductions (.reduction reductionId component declared) with
      | none => simp [operandIssues, hunit] at hclean
      | some actual => exact ⟨actual, rfl⟩
  have hunits : ∀ operands : List ReductionOperand,
      (∀ operand ∈ operands, ∃ actual, operandUnit reductions operand = some actual) →
      ∃ units : List PlanUnit, operands.map (operandUnit reductions) = units.map some ∧
        operands.mapM (operandDimension dims) = some (units.map PlanUnit.dimension) := by
    intro operands
    induction operands with
    | nil => exact fun _ => ⟨[], rfl, rfl⟩
    | cons operand rest ih =>
      intro hknown
      obtain ⟨actual, hactual⟩ := hknown operand List.mem_cons_self
      obtain ⟨units, hmap, hdims⟩ := ih fun o ho => hknown o (List.mem_cons_of_mem _ ho)
      refine ⟨actual :: units, by simp [hactual, hmap], ?_⟩
      rw [List.mapM_cons, hindexed.operand hactual, hdims]
      rfl
  obtain ⟨units, hmap, hdims⟩ := hunits operands hknown
  have hlength : units.length = operands.length := by
    have hl := congrArg List.length hmap
    simpa using hl.symm
  have harity2 : operator = .subtract ∨ operator = .divide → units.length = 2 := by
    intro hop
    rcases htwo with hnot | hlen
    · exact absurd hop hnot
    · omega
  have harity1 : operator = .absolute ∨ operator = .maxAbs → units.length = 1 := by
    intro hop
    rcases hone with hnot | hlen
    · exact absurd hop hnot
    · omega
  rw [hmap] at hresult
  have hdimension := arithmeticUnit_dimension operator harity2 harity1 hresult
  simp [evaluateDimensions, hdims, hdimension]

theorem compliance_sound (hindexed : Indexed reductions dims) {path : String}
    {id positiveId negativeId : Id} {unit : PlanUnit} {positive negative : ReductionOperand}
    {tolerance : ℚ}
    (h : reductionBodyIssues ctx reductions path
      ⟨id, unit, .complianceIntersection positiveId negativeId positive negative tolerance⟩ = []) :
    evaluateDimensions ctx.points dims
        (.complianceIntersection positiveId negativeId positive negative tolerance) =
      some (.interval unit.dimension) := by
  simp only [reductionBodyIssues, complianceIntersectionIssues, List.append_eq_nil_iff] at h
  obtain ⟨hcurves, _⟩ := h
  cases hpositive : reductions.get? positiveId with
  | none => simp [hpositive] at hcurves
  | some left =>
    cases hnegative : reductions.get? negativeId with
    | none => simp [hpositive, hnegative] at hcurves
    | some right =>
      cases hleft : left.axisUnit? with
      | none => simp [hpositive, hnegative, hleft] at hcurves
      | some leftAxis =>
        cases hright : right.axisUnit? with
        | none => simp [hpositive, hnegative, hleft, hright] at hcurves
        | some rightAxis =>
          simp only [hpositive, hnegative, hleft, hright, issueIf_eq_nil, Bool.or_eq_false_iff,
            decide_eq_false_iff_not, not_not] at hcurves
          obtain ⟨⟨hunits, haxes⟩, haxis⟩ := hcurves
          simp [evaluateDimensions, hindexed.curve hpositive hleft,
            hindexed.curve hnegative hright, hunits, haxes, haxis]

theorem reduction_sound (hctx : ReadsPoints ctx) (hindexed : Indexed reductions dims)
    {path : String} {reduction : Reduction} (hschema : reductionOk reduction = true)
    (h : reductionBodyIssues ctx reductions path reduction = []) :
    ∃ result, evaluateDimensions ctx.points dims reduction.body = some result ∧
      Sound reductions reduction result := by
  obtain ⟨id, unit, body⟩ := reduction
  simp only [reductionOk, Bool.and_eq_true] at hschema
  cases body with
  | collectArray items =>
    have hne : items ≠ [] := by
      rintro rfl
      simp [within] at hschema
    exact ⟨_, collectArray_sound hctx hne h, rfl⟩
  | collectCurve axisUnit samples =>
    have hne : samples ≠ [] := by
      rintro rfl
      simp [within] at hschema
    exact ⟨_, collectCurve_sound hctx hne h, rfl⟩
  | linearFit inputId window minimumSamples => exact linearFit_sound hindexed h
  | crossing inputId threshold direction occurrence =>
    exact ⟨_, crossing_sound hindexed h, rfl⟩
  | arithmetic operator operands => exact ⟨_, arithmetic_sound hindexed h, rfl⟩
  | select inputId selector => exact ⟨_, select_sound hindexed h, rfl⟩
  | complianceIntersection positiveId negativeId positive negative tolerance =>
    exact ⟨_, compliance_sound hindexed h, rfl⟩

end

theorem Sound.extend {reductions : ReductionIndex} {reduction later : Reduction}
    {result : ReductionDimensions} (h : Sound reductions reduction result)
    (hnew : later.id ∉ reductions.keys) :
    Sound (reductions.set later.id later) reduction result := by
  obtain ⟨id, unit, body⟩ := reduction
  cases body with
  | linearFit inputId window minimumSamples =>
    obtain ⟨parent, x, hget, hresult, hunit⟩ := h
    refine ⟨parent, x, ?_, hresult, hunit⟩
    rw [InsertionDict.get?_set_of_ne _ _ ?_]
    · exact hget
    · rintro rfl
      exact hnew (InsertionDict.mem_keys_iff.mpr ⟨parent, hget⟩)
  | _ => exact h

theorem reductions_indexed {ctx : StageContext} {path : String} {reductions : List Reduction}
    (hctx : ReadsPoints ctx) (hschema : ∀ r ∈ reductions, reductionOk r = true)
    (hclean : (validateReductions reductions ctx path).2 = []) :
    (validateReductions reductions ctx path).1.entries = reductions.map (fun r => (r.id, r)) ∧
      Indexed (validateReductions reductions ctx path).1
        (reductions.foldl (recordDimensions ctx.points) .empty) := by
  unfold validateReductions at hclean ⊢
  suffices h : (Scan.run (reductionStep ctx path) .empty 0 reductions).1.entries =
      reductions.map (fun r => (r.id, r)) ∧ ((∀ r ∈ reductions, reductionOk r = true) →
      Indexed (Scan.run (reductionStep ctx path) .empty 0 reductions).1
        (reductions.foldl (recordDimensions ctx.points) .empty)) from ⟨h.1, h.2 hschema⟩
  refine Scan.run_spec (reductionStep ctx path) (fun done index =>
    index.entries = done.map (fun r => (r.id, r)) ∧ ((∀ r ∈ done, reductionOk r = true) →
      Indexed index (done.foldl (recordDimensions ctx.points) .empty))) ?_
    ⟨rfl, fun _ _ _ h => nomatch h⟩ hclean
  intro done index reduction hinv hstep
  by_cases hmem : reduction.id ∈ index.keys
  · simp [reductionStep, hmem] at hstep
  · simp only [reductionStep, if_neg hmem] at hstep ⊢
    constructor
    · rw [InsertionDict.entries_set_of_notMem _ hmem, hinv.1, List.map_append, List.map_singleton]
    · intro hok
      have hindexed := hinv.2 fun r hr => hok r (List.mem_append_left _ hr)
      obtain ⟨result, hresult, hsound⟩ := reduction_sound hctx hindexed
        (hok reduction (by simp)) hstep
      intro id found hget
      rw [List.foldl_append, List.foldl_cons, List.foldl_nil, recordDimensions, hresult]
      simp only [InsertionDict.get?_set] at hget ⊢
      by_cases hid : id = reduction.id
      · rw [if_pos hid] at hget ⊢
        obtain rfl := Option.some.inj hget
        exact ⟨result, rfl, hsound.extend hmem⟩
      · rw [if_neg hid] at hget ⊢
        obtain ⟨earlier, hearlier, hfound⟩ := hindexed id found hget
        exact ⟨earlier, hearlier, hfound.extend hmem⟩

/-- In a list without repeated keys the first item under a key is the only one. -/
theorem find?_of_nodup {α : Type} {items : List α} {key : α → Id} (hn : (items.map key).Nodup)
    {item : α} (h : item ∈ items) :
    (items.find? fun other => decide (key other = key item)) = some item := by
  induction items with
  | nil => cases h
  | cons first rest ih =>
    rw [List.map_cons, List.nodup_cons] at hn
    rcases List.mem_cons.mp h with rfl | hrest
    · simp
    · have hne : key first ≠ key item := fun heq => hn.1 (heq ▸ List.mem_map_of_mem hrest)
      rw [List.find?_cons_of_neg (by simp [hne])]
      exact ih hn.2 hrest

theorem pointLookup_eq_find? {points : List ConditionPoint}
    (hn : (points.map ConditionPoint.id).Nodup) {pointId : Id} {point : ConditionPoint}
    (h : (InsertionDict.ofList (points.map fun p => (p.id, p))).get? pointId = some point) :
    (points.find? fun p => decide (p.id = pointId)) = some point := by
  obtain ⟨member, hmem, heq⟩ := List.mem_map.mp (InsertionDict.mem_of_get?_ofList h)
  obtain ⟨rfl, rfl⟩ := Prod.mk.inj heq
  exact find?_of_nodup hn hmem

def reductionIndex (stage : Stage) : ReductionIndex :=
  InsertionDict.ofList (stage.reductions.map fun reduction => (reduction.id, reduction))

/-- In an accepted plan every reduction has the dimension of its operation tree: its declared
unit and the unit of each of its components are the dimensions the operations give over the units
of the collected points and axes. -/
theorem reduction_units_sound (F : Type) [PyFloat F] (plan : PreparedPlan F) (stage : Stage)
    (hs : stage ∈ plan.document.stages) (reduction : Reduction)
    (hr : reduction ∈ stage.reductions) :
    ∃ result, (stageDimensions stage).get? reduction.id = some result ∧
      result.component .value = some reduction.unit.dimension ∧
      ∀ component, result.component component =
        (reductionComponentUnit reduction component (reductionIndex stage)).map
          PlanUnit.dimension := by
  have hacc := accepted_iff.mp plan.accepted
  obtain ⟨ctx, path, hpoints, hsources, hclean⟩ := stage_reductions_clean hacc hs
  have hids := point_ids_nodup hacc hs
  have hctx : ReadsPoints ctx := by
    constructor
    · intro source item hget
      obtain ⟨point, hp, hpid, hm, hmid⟩ := hsources source item hget
      have hpoint := find?_of_nodup hids hp
      have hmeasurement := find?_of_nodup (measurement_ids_nodup hacc hs hp) hm
      rw [hpid] at hpoint
      rw [hmid] at hmeasurement
      simp [sourceDimension, hpoints, hpoint, hmeasurement]
    · intro pointId point hget
      rw [StageContext.point?, hpoints] at hget
      rw [hpoints]
      exact pointLookup_eq_find? hids hget
  have hschema := schema_stage hacc hs
  simp only [stageOk, Bool.and_eq_true] at hschema
  obtain ⟨hentries, hindexed⟩ := reductions_indexed hctx
    (List.all_eq_true.mp hschema.1.1.2) hclean
  have hindex : (validateReductions stage.reductions ctx path).1 = reductionIndex stage := by
    rw [← InsertionDict.ofList_entries (validateReductions stage.reductions ctx path).1, hentries]
    rfl
  have hget : (validateReductions stage.reductions ctx path).1.get? reduction.id =
      some reduction := by
    rw [InsertionDict.get?_eq_some_iff, hentries]
    exact List.mem_map_of_mem hr
  obtain ⟨result, hresult, hsound⟩ := hindexed reduction.id reduction hget
  have hcomponent := hsound.component
  rw [hindex] at hcomponent
  rw [hpoints] at hresult
  refine ⟨result, hresult, ?_, hcomponent⟩
  rw [hcomponent .value]
  rfl

section Specimen

def specimenPeak (id : Id) : Measurement where
  id := id
  unit := .V
  body := .maxAbs "wave"

def specimenRise : List Reduction :=
  [⟨"ramp", .V, .collectCurve .s
      [⟨.quantity ⟨0, .s⟩, ⟨"p", "low"⟩⟩, ⟨.quantity ⟨1, .s⟩, ⟨"p", "high"⟩⟩]⟩,
    ⟨"rate", .VPerS, .linearFit "ramp" ⟨⟨0, .s⟩, ⟨1, .s⟩⟩ 2⟩,
    ⟨"rise", .V, .arithmetic .multiply
      [.reduction "rate" .slope .VPerS, .literal ⟨2, .s⟩]⟩]

def riseStage : Stage :=
  { specimenStage "first" [] [] (specimenPoint specimenAnalysis
      [specimenWave, specimenPeak "low", specimenPeak "high"] [specimenRule]) with
    reductions := specimenRise }

def risePlan : PreparedPlan ℚ where
  document := specimenPlan [riseStage] [] [⟨"wave", .measurement "first" "p" "wave", .V, .curve⟩]
  accepted := by decide +kernel

/-- A rate times a time is a voltage. -/
theorem rise_dimension : ∃ result, (stageDimensions riseStage).get? "rise" = some result ∧
    result.component .value = some Dimension.volt := by
  obtain ⟨result, hget, hvalue, _⟩ := reduction_units_sound ℚ risePlan riseStage (by decide)
    ⟨"rise", .V, .arithmetic .multiply [.reduction "rate" .slope .VPerS, .literal ⟨2, .s⟩]⟩
    (by decide)
  exact ⟨result, hget, hvalue⟩

end Specimen

end OpenADA.Plan
