import OpenADA.Runner.PayloadUnits

/-! The unit a binding is forced to declare against the dimension of the number it delivers. -/
namespace OpenADA.Runner

open OpenADA.Plan OpenADA.Compiler

/-- The units a probe or an analysis axis can have, where a fit's intercept keeps its unit. -/
theorem fitIntercept_dimension : ∀ unit ∈ [PlanUnit.V, .A, .one], ∀ axis ∈ [PlanUnit.V, .s, .Hz],
    ∀ quotient, divideUnits unit axis = some quotient →
      ((fitInterceptUnit quotient).dimension = unit.dimension ↔ quotient = .APerV) := by
  decide

theorem integral_dimension : ∀ axis ∈ [PlanUnit.V, .s, .Hz],
    (PlanUnit.C.dimension = PlanUnit.A.dimension * axis.dimension ↔ axis = .s) := by
  decide

theorem probe_unit_mem (probe : Probe) : probe.unit ∈ [PlanUnit.V, .A, .one] := by
  obtain ⟨id, body⟩ := probe
  cases body <;> simp [Probe.unit]

theorem axisUnit_mem (analysis : Analysis) : analysis.axisUnit ∈ [PlanUnit.V, .s, .Hz] := by
  cases analysis <;> simp [Analysis.axisUnit]

/-- The declared unit of a measurement beside the dimensions of its value. An integral is sound
only over time, a fit's intercept only as a current over a voltage. -/
def Declared (axis : PlanUnit) (integral : Bool) (measurement : Measurement) :
    PayloadDimensions → Prop
  | .scalar value => measurement.kind ≠ .linearFit ∧
      (measurement.unit.dimension = value ↔ (integral = true → axis = .s))
  | .curve x y => measurement.kind = .curve ∧ measurement.unit.dimension = y ∧
      x = axis.dimension ∧ measurement.unit ∈ [PlanUnit.V, .A, .one] ∧ integral = false
  | .fit slope intercept => measurement.kind = .linearFit ∧ integral = false ∧
      measurement.unit.dimension = slope ∧
      ((fitInterceptUnit measurement.unit).dimension = intercept ↔ measurement.unit = .APerV)
  | .interval _ => True
  | .signs => measurement.unit = .one ∧ integral = false

section

variable {F : Type} [PyFloat F] {ctx : PointContext} {byId : MeasurementIndex}
  {dims : PayloadIndex} {flags : InsertionDict Id Bool} {probe : Id → Option Dimension}

def DeclaredIndex (axis : PlanUnit) (byId : MeasurementIndex) (dims : PayloadIndex)
    (flags : InsertionDict Id Bool) : Prop :=
  ∀ id d, dims.get? id = some d → ∃ measurement, byId.get? id = some measurement ∧
    Declared axis ((flags.get? id).getD false) measurement d

theorem linearFit_declared {path : String} {measurement parent : Measurement} {inputId : Id}
    {window : Window} {samples : ℕ} {x y : Dimension} {integral : Bool}
    (hbody : measurement.body = .linearFit inputId window samples)
    (hparent : byId.get? inputId = some parent)
    (hcurve : Declared ctx.analysis.axisUnit integral parent (.curve x y))
    (h : measurementBodyIssues F ctx byId path measurement = []) :
    Declared ctx.analysis.axisUnit false measurement (.fit (y / x) y) := by
  obtain ⟨hkind, rfl, rfl, hprobe, _⟩ := hcurve
  simp only [measurementBodyIssues, hbody, hparent, List.append_eq_nil_iff, Option.toList_some,
    List.flatMap_cons, List.flatMap_nil, List.append_nil, linearFitIssues, issueIf_eq_nil,
    decide_eq_false_iff_not, not_not, pointCurveAxisUnit, hkind, Option.bind_some] at h
  refine ⟨by simp [Measurement.kind, hbody], rfl, divideUnits_dimension _ _ _ h.2, ?_⟩
  exact fitIntercept_dimension _ hprobe _ (axisUnit_mem ctx.analysis) _ h.2

theorem crossing_declared {path : String} {measurement parent : Measurement} {inputId : Id}
    {level : ThresholdValue} {direction : CrossingDirection} {occurrence : ℕ} {x y : Dimension}
    {integral : Bool} (hbody : measurement.body = .crossing inputId level direction occurrence)
    (hparent : byId.get? inputId = some parent)
    (hcurve : Declared ctx.analysis.axisUnit integral parent (.curve x y))
    (h : measurementBodyIssues F ctx byId path measurement = []) :
    Declared ctx.analysis.axisUnit false measurement (.scalar x) := by
  obtain ⟨hkind, _, rfl, _, _⟩ := hcurve
  simp only [measurementBodyIssues, hbody, hparent, Option.toList_some, List.flatMap_cons,
    List.flatMap_nil, List.append_nil, crossingIssues, axisUnitIssues, List.append_eq_nil_iff,
    pointCurveAxisUnit, hkind, issueIf_eq_nil, decide_eq_false_iff_not, not_not] at h
  refine ⟨by simp [Measurement.kind, hbody], ?_⟩
  rw [h.2]
  simp

theorem maxAbs_declared {path : String} {measurement parent : Measurement} {inputId : Id}
    {d : PayloadDimensions} {value : Dimension} {integral : Bool}
    (hbody : measurement.body = .maxAbs inputId) (hparent : byId.get? inputId = some parent)
    (hd : Declared ctx.analysis.axisUnit integral parent d) (hvalue : d.magnitude = some value)
    (h : measurementBodyIssues F ctx byId path measurement = []) :
    Declared ctx.analysis.axisUnit integral measurement (.scalar value) := by
  simp only [measurementBodyIssues, hbody, hparent, Option.toList_some, List.flatMap_cons,
    List.flatMap_nil, List.append_nil, maxAbsIssues, issueIf_eq_nil, decide_eq_false_iff_not,
    not_not] at h
  refine ⟨by simp [Measurement.kind, hbody], ?_⟩
  rw [h]
  cases d with
  | scalar other =>
    obtain rfl := Option.some.inj hvalue
    exact hd.2
  | curve x y =>
    obtain rfl := Option.some.inj hvalue
    obtain ⟨_, hy, _, _, rfl⟩ := hd
    simp [hy]
  | signs =>
    obtain rfl := Option.some.inj hvalue
    obtain ⟨hone, rfl⟩ := hd
    rw [hone]
    exact ⟨fun _ hfalse => absurd hfalse (by decide), fun _ => rfl⟩
  | fit slope intercept => cases hvalue
  | interval axis => cases hvalue

theorem measurement_declared {path : String} {measurement : Measurement} {d : PayloadDimensions}
    (hindex : DeclaredIndex ctx.analysis.axisUnit byId dims flags)
    (hprobe : ∀ probeId p, ctx.probes.get? probeId = some p →
      probe probeId = some p.unit.dimension)
    (hprobes : probeIssues F ctx path measurement = [])
    (h : measurementBodyIssues F ctx byId path measurement = [])
    (hd : measuredDimensions probe ctx.analysis.axisUnit.dimension dims measurement.body = some d) :
    Declared ctx.analysis.axisUnit (integralOf flags measurement.body) measurement d := by
  have hconst := measurement.unit_const
  have hone : PlanUnit.one.dimension = 1 := rfl
  cases hbody : measurement.body with
  | curve probeId =>
    simp only [hbody, measuredDimensions, Option.map_eq_some_iff] at hd
    obtain ⟨y, hy, rfl⟩ := hd
    simp only [probeIssues, hbody, MeasurementBody.probeId?, Option.toList_some,
      List.flatMap_cons, List.flatMap_nil, List.append_nil] at hprobes
    cases hget : ctx.probes.get? probeId with
    | none => simp [hget] at hprobes
    | some p =>
      simp only [hget, issueIf_eq_nil, decide_eq_false_iff_not, not_not] at hprobes
      rw [hprobe probeId p hget] at hy
      obtain rfl := Option.some.inj hy
      refine ⟨by simp [Measurement.kind, hbody], by rw [hprobes], rfl, ?_, rfl⟩
      rw [hprobes]
      exact probe_unit_mem p
  | integrate quantity probeId window normalization =>
    simp only [hbody, measuredDimensions, Option.map_eq_some_iff] at hd
    obtain ⟨y, hy, rfl⟩ := hd
    simp only [probeIssues, hbody, MeasurementBody.probeId?, Option.toList_some,
      List.flatMap_cons, List.flatMap_nil, List.append_nil] at hprobes
    cases hget : ctx.probes.get? probeId with
    | none => simp [hget] at hprobes
    | some p =>
      simp only [hget, chargeProbeIssues, List.append_eq_nil_iff, issueIf_eq_nil,
        decide_eq_false_iff_not, not_not] at hprobes
      rw [hprobe probeId p hget, hprobes.1] at hy
      obtain rfl := Option.some.inj hy
      have hunit : measurement.unit = .C := hconst .C (by simp [hbody, MeasurementBody.constUnit])
      refine ⟨by simp [Measurement.kind, hbody], ?_⟩
      rw [hunit, integral_dimension _ (axisUnit_mem ctx.analysis)]
      simp [integralOf]
  | linearFit inputId window samples =>
    simp only [hbody, measuredDimensions] at hd
    split at hd
    · rename_i x y hget
      obtain rfl := Option.some.inj hd
      obtain ⟨parent, hparent, hcurve⟩ := hindex inputId _ hget
      exact linearFit_declared hbody hparent hcurve h
    · cases hd
  | crossing inputId level direction occurrence =>
    simp only [hbody, measuredDimensions] at hd
    split at hd
    · rename_i x y hget
      obtain rfl := Option.some.inj hd
      obtain ⟨parent, hparent, hcurve⟩ := hindex inputId _ hget
      exact crossing_declared hbody hparent hcurve h
    · cases hd
  | sign inputId zeroTolerance =>
    simp only [hbody, measuredDimensions, Option.map_eq_some_iff] at hd
    obtain ⟨_, _, rfl⟩ := hd
    exact ⟨hconst .one (by simp [hbody, MeasurementBody.constUnit]), rfl⟩
  | maxAbs inputId =>
    simp only [hbody, measuredDimensions, Option.map_eq_some_iff, Option.bind_eq_some_iff] at hd
    obtain ⟨value, ⟨parentDims, hget, hvalue⟩, rfl⟩ := hd
    obtain ⟨parent, hparent, hparentDims⟩ := hindex inputId _ hget
    exact maxAbs_declared hbody hparent hparentDims hvalue h
  | mismatchFraction actualId referenceId floor =>
    simp only [hbody, measuredDimensions] at hd
    split at hd
    · obtain rfl := Option.some.inj hd
      have hunit : measurement.unit = .one :=
        hconst .one (by simp [hbody, MeasurementBody.constUnit])
      exact ⟨by simp [Measurement.kind, hbody], by simp [hunit, hone, integralOf]⟩
    · cases hd
  | complianceInterval inputId lower upper =>
    simp only [hbody, measuredDimensions] at hd
    split at hd
    · obtain rfl := Option.some.inj hd
      trivial
    · cases hd
  | loopTransfer probeId => simp [hbody, measuredDimensions] at hd
  | unityFrequency inputId => simp [hbody, measuredDimensions] at hd
  | phaseMargin inputId unityFrequencyId => simp [hbody, measuredDimensions] at hd

theorem recordMeasured_get? (probe : Id → Option Dimension) (axis : Dimension)
    (earlier : PayloadIndex) (measurement : Measurement) (id : Id) :
    (recordMeasured probe axis earlier measurement).get? id =
      if id = measurement.id then
        (measuredDimensions probe axis earlier measurement.body).or (earlier.get? id)
      else earlier.get? id := by
  unfold recordMeasured
  cases measuredDimensions probe axis earlier measurement.body with
  | none => simp
  | some d => simp [InsertionDict.get?_set]

variable (probe) in
/-- After a clean scan every evaluated measurement is declared soundly or in a known way not. -/
theorem measurements_declared {measurements : List Measurement} {path : String}
    (hprobe : ∀ probeId p, ctx.probes.get? probeId = some p →
      probe probeId = some p.unit.dimension)
    (h : (validateMeasurements F measurements ctx path).2 = []) :
    DeclaredIndex ctx.analysis.axisUnit (validateMeasurements F measurements ctx path).1
      (measurements.foldl (recordMeasured probe ctx.analysis.axisUnit.dimension) .empty)
      (integrals measurements) := by
  simp only [validateMeasurements, List.append_eq_nil_iff] at h ⊢
  unfold integrals
  refine (Scan.run_spec (measurementStep F ctx path) (fun done byId =>
    (∀ id, id ∉ byId.keys → (done.foldl
      (recordMeasured probe ctx.analysis.axisUnit.dimension) .empty).get? id = none) ∧
    DeclaredIndex ctx.analysis.axisUnit byId
      (done.foldl (recordMeasured probe ctx.analysis.axisUnit.dimension) .empty)
      (done.foldl (fun earlier m => earlier.set m.id (integralOf earlier m.body)) .empty))
    ?_ ⟨fun _ _ => rfl, ?_⟩ h.1).2
  · intro done byId measurement hinv hstep
    by_cases hmem : measurement.id ∈ byId.keys
    · simp [measurementStep, hmem] at hstep
    · simp only [measurementStep, if_neg hmem, List.append_eq_nil_iff] at hstep ⊢
      rw [List.foldl_append, List.foldl_append, List.foldl_cons, List.foldl_nil, List.foldl_cons,
        List.foldl_nil]
      have hfresh := hinv.1 measurement.id hmem
      constructor
      · intro id hid
        rw [InsertionDict.mem_keys_set, not_or] at hid
        rw [recordMeasured_get?, if_neg hid.1]
        exact hinv.1 id hid.2
      · intro id d hget
        rw [recordMeasured_get?] at hget
        rw [InsertionDict.get?_set, InsertionDict.get?_set]
        by_cases hid : id = measurement.id
        · rw [if_pos hid, hid, hfresh, Option.or_none] at hget
          rw [if_pos hid, if_pos hid]
          exact ⟨measurement, rfl, measurement_declared hinv.2 hprobe hstep.1.2 hstep.2 hget⟩
        · rw [if_neg hid] at hget
          rw [if_neg hid, if_neg hid]
          exact hinv.2 id d hget
  · intro id d hget
    rw [List.foldl_nil, InsertionDict.get?_empty] at hget
    cases hget

end

section Delivery

variable {F : Type} [PyFloat F] {plan : PlanDocument}

def deliveredDimension (plan : PlanDocument) (binding : Binding) : Option Dimension :=
  match binding.source with
  | .measurement stageId pointId measurementId component =>
    (pointDocument? plan stageId pointId).bind fun point =>
      ((payloadDimensions plan point).get? measurementId).bind fun d => d.component component
  | .reduction .. => none

/-- When a binding's forced unit is right: an intercept only of a fit in A/V, and a charge
integral only over a time axis. -/
def UnitsAgree (plan : PlanDocument) (binding : Binding) : Prop :=
  match binding.source with
  | .measurement stageId pointId measurementId component =>
    ∀ point, pointDocument? plan stageId pointId = some point →
      (component = .intercept →
        ∃ m ∈ point.measurements, m.id = measurementId ∧ m.unit = .APerV) ∧
      ((integrals point.measurements).get? measurementId = some true →
        point.analysis.axisUnit = .s)
  | .reduction .. => True

theorem pointDocument?_declared {stageId pointId : Id} {point : ConditionPoint}
    (h : pointDocument? plan stageId pointId = some point) :
    ∃ stage ∈ plan.stages, stage.id = stageId ∧ point ∈ stage.points ∧ point.id = pointId := by
  obtain ⟨stage, hs, hmem⟩ := List.mem_flatMap.mp (InsertionDict.mem_of_get?_ofList h)
  obtain ⟨declared, hp, heq⟩ := List.mem_map.mp hmem
  obtain ⟨hkey, rfl⟩ := Prod.mk.inj heq
  obtain ⟨hsid, hpid⟩ := Prod.mk.inj hkey
  exact ⟨stage, hs, hsid, hp, hpid⟩

theorem benchProbe_dimension (h : Accepted F plan) {probeId : Id} {probe : Probe}
    (hget : (benchContext F plan).probes.get? probeId = some probe) :
    probeDimension plan probeId = some probe.unit.dimension := by
  have hentries : (benchContext F plan).probes.entries = plan.probes.map fun p => (p.id, p) := by
    refine scan_index_entries Probe.id ?_ h.probes
    intro d i a hclean
    by_cases hmem : a.id ∈ d.keys
    · simp [probeStep, hmem] at hclean
    · exact ⟨hmem, by simp [probeStep, hmem]⟩
  have hn : (plan.probes.map Probe.id).Nodup := by
    have hkeys := (benchContext F plan).probes.keys_nodup
    rw [InsertionDict.keys, hentries, List.map_map] at hkeys
    exact hkeys
  have hmem := InsertionDict.get?_eq_some_iff.mp hget
  rw [hentries] at hmem
  obtain ⟨declared, hin, heq⟩ := List.mem_map.mp hmem
  obtain ⟨rfl, rfl⟩ := Prod.mk.inj heq
  simp [probeDimension, find?_of_nodup hn hin]

theorem measurement_probe (h : Accepted F plan) {stage : Stage} {point : ConditionPoint}
    (hs : stage ∈ plan.stages) (hp : point ∈ stage.points) {measurement : Measurement}
    (hm : measurement ∈ point.measurements) {probeId : Id}
    (hprobe : probeId ∈ measurement.body.probeId?) : ∃ d, probeDimension plan probeId = some d := by
  obtain ⟨stageInputs, path, hclean⟩ := point_clean h hs hp
  simp only [pointIssues, validateMeasurements, List.append_eq_nil_iff] at hclean
  obtain ⟨byId, index, hstep⟩ := Scan.run_clean_mem hclean.1.2.1 hm
  by_cases hmem : measurement.id ∈ byId.keys
  · simp [measurementStep, hmem] at hstep
  · simp only [measurementStep, if_neg hmem, List.append_eq_nil_iff] at hstep
    have hissues := hstep.1.2
    rw [probeIssues, Option.mem_def.mp hprobe] at hissues
    simp only [Option.toList_some, List.flatMap_cons, List.flatMap_nil, List.append_nil,
      pointContext] at hissues
    cases hget : (benchContext F plan).probes.get? probeId with
    | none => simp [hget] at hissues
    | some probe => exact ⟨_, benchProbe_dimension h hget⟩

theorem binding_source_declared (h : Accepted F plan) {binding : Binding}
    (hb : binding ∈ plan.bindings) {stageId pointId measurementId : Id}
    {component : BindingComponent}
    (hsource : binding.source = .measurement stageId pointId measurementId component) :
    ∃ stage ∈ plan.stages, stage.id = stageId ∧ ∃ point ∈ stage.points, point.id = pointId ∧
      ∃ measurement ∈ point.measurements, measurement.id = measurementId ∧
        measurementComponentUnit measurement component = binding.unit := by
  have hclean := h.bindings
  simp only [validateBindings, List.append_eq_nil_iff] at hclean
  obtain ⟨state, index, hstep⟩ := Scan.run_clean_mem hclean.1 hb
  simp only [bindingStep, hsource, bindingSource] at hstep
  cases hget : (validateStages F plan.stages (benchContext F plan)).1.measurements.get?
      (stageId, pointId, measurementId) with
  | none => simp [hget] at hstep
  | some measurement =>
    simp only [hget, List.append_eq_nil_iff, issueIf_eq_nil] at hstep
    have hunit := hstep.2
    simp only [List.any_cons, Bool.or_eq_false_iff, decide_eq_false_iff_not, not_and, not_not]
      at hunit
    obtain ⟨stage, hs, hsid, point, hp, hpid, hm, hmid⟩ :=
      (stages_scanned h).measurements _ measurement hget
    exact ⟨stage, hs, hsid, point, hp, hpid, measurement, hm, hmid,
      Option.some.inj (hunit.1 (by simp))⟩

theorem component_declared {axis : PlanUnit} {integral : Bool} {measurement : Measurement}
    {d : PayloadDimensions} {component : BindingComponent} {dimension : Dimension}
    (h : Declared axis integral measurement d) (hc : d.component component = some dimension) :
    (measurementComponentUnit measurement component).dimension = dimension ↔
      (component = .intercept → measurement.unit = .APerV) ∧ (integral = true → axis = .s) := by
  cases d with
  | scalar value =>
    obtain ⟨_, hiff⟩ := h
    cases component with
    | value =>
      obtain rfl := Option.some.inj hc
      simpa [measurementComponentUnit] using hiff
    | crossing =>
      obtain rfl := Option.some.inj hc
      simpa [measurementComponentUnit] using hiff
    | slope => cases hc
    | intercept => cases hc
  | fit slope intercept =>
    obtain ⟨hkind, rfl, hslope, hintercept⟩ := h
    cases component with
    | slope =>
      obtain rfl := Option.some.inj hc
      simp [measurementComponentUnit, hkind, hslope]
    | intercept =>
      obtain rfl := Option.some.inj hc
      simpa [measurementComponentUnit, hkind] using hintercept
    | value => cases hc
    | crossing => cases hc
  | curve x y => cases hc
  | interval x => cases hc
  | signs => cases hc

end Delivery

/-- Whenever the runner delivers a number over a measurement binding, that number has an evaluated
dimension, and the unit the validator forced is right exactly when the condition holds. -/
theorem binding_units_iff (F : Type) [PyFloat F] (plan : PreparedPlan F) (binding : Binding)
    (hb : binding ∈ plan.document.bindings) (stageId pointId measurementId : Id)
    (component : BindingComponent)
    (hsource : binding.source = .measurement stageId pointId measurementId component)
    (point : ConditionPoint) (hpoint : pointDocument? plan.document stageId pointId = some point)
    (corner : Id) (waveform : Waveform F) (probes : ProbeVectors F) (baseLineage : IdSet)
    (values : PointValues F)
    (hvalues : evaluateMeasurements point.measurements waveform plan.document corner probes
      baseLineage = .ok values)
    (item : ConditionValue F) (hitem : values.get? measurementId = some item) (number : F)
    (hnumber : bindingComponent item component = .ok number) :
    ∃ dimension, deliveredDimension plan.document binding = some dimension ∧
      (binding.unit.dimension = dimension ↔ UnitsAgree plan.document binding) := by
  have hacc := accepted_iff.mp plan.accepted
  obtain ⟨stage, hs, hsid, hp, hpid⟩ := pointDocument?_declared hpoint
  obtain ⟨stage', hs', hsid', point', hp', hpid', measurement, hm, hmid, hunit⟩ :=
    binding_source_declared hacc hb hsource
  obtain rfl : stage' = stage := List.inj_on_of_nodup_map
    (stage_ids_nodup (validateStages_clean hacc.stages).1) hs' hs (hsid'.trans hsid.symm)
  obtain rfl : point' = point := List.inj_on_of_nodup_map (point_ids_nodup hacc hs') hp' hp
    (hpid'.trans hpid.symm)
  have hshaped := evaluateMeasurements_shaped point'.analysis.axisUnit.dimension
    (fun m hm _ hprobe => measurement_probe hacc hs hp hm hprobe) hvalues
  obtain ⟨d, hd, hshape⟩ := hshaped measurementId item hitem
  obtain ⟨dimension, hdimension⟩ := bindingComponent_shaped hshape hnumber
  refine ⟨dimension, ?_, ?_⟩
  · simp only [deliveredDimension, hsource, hpoint, payloadDimensions, Option.bind_some, hd,
      hdimension]
  obtain ⟨stageInputs, path, hclean⟩ := point_clean hacc hs hp
  simp only [pointIssues, List.append_eq_nil_iff] at hclean
  have hentries := measurementIndex_entries hclean.1.2
  have hdeclared := measurements_declared (probeDimension plan.document)
    (fun _ _ hget => benchProbe_dimension hacc hget) hclean.1.2
  obtain ⟨found, hfound, hdecl⟩ := hdeclared measurementId d hd
  have hids := measurement_ids_nodup hacc hs hp
  obtain rfl : found = measurement := by
    have hmem := InsertionDict.get?_eq_some_iff.mp hfound
    rw [hentries] at hmem
    obtain ⟨other, hother, heq⟩ := List.mem_map.mp hmem
    obtain ⟨hoid, rfl⟩ := Prod.mk.inj heq
    exact List.inj_on_of_nodup_map hids hother hm (hoid.trans hmid.symm)
  rw [← hunit, component_declared hdecl hdimension]
  unfold UnitsAgree
  simp only [hsource, hpoint, Option.some.injEq, forall_eq']
  refine and_congr (imp_congr_right fun _ => ?_) ?_
  · constructor
    · exact fun h => ⟨found, hm, hmid, h⟩
    · rintro ⟨other, hother, hoid, h⟩
      obtain rfl := List.inj_on_of_nodup_map hids hother hm (hoid.trans hmid.symm)
      exact h
  · cases hflag : (integrals point'.measurements).get? measurementId with
    | none => simp
    | some flag => simp [pointContext]

section Specimen

def specimenFit : Measurement where
  id := "fit"
  unit := .VPerS
  body := .linearFit "wave" ⟨literalSource 0 .s, literalSource 8 .s⟩ 2

def specimenCarry (component : BindingComponent) : Binding where
  id := "carry"
  source := .measurement "first" "p" "fit" component
  target := ⟨"second", "level"⟩
  unit := .VPerS
  transform := .identity

def fitPoint : ConditionPoint :=
  specimenPoint specimenAnalysis [specimenWave, specimenFit] [specimenRule]

def fitPlan (component : BindingComponent) : PlanDocument :=
  specimenPlan
    [specimenStage "first" [] [] fitPoint,
      specimenStage "second" ["first"] [⟨"level", .VPerS⟩]
        (specimenPoint specimenAnalysis [specimenWave] [specimenRule])]
    [specimenCarry component] [⟨"wave", .measurement "first" "p" "wave", .V, .curve⟩]

def fitWaveform : Waveform ℚ :=
  ⟨"time", [0, 2, 4, 8], .ofList [("v(y)", [1, 2, 3, 5])]⟩

def fitProbes : ProbeVectors ℚ := .ofList [("vout", ("v(y)", 1))]

theorem fit_delivers (component : BindingComponent) (h : component = .slope ∨
    component = .intercept) : ∃ values item number,
      evaluateMeasurements fitPoint.measurements fitWaveform (fitPlan component) "tt" fitProbes ∅ =
        .ok values ∧ values.get? "fit" = some item ∧
      bindingComponent item component = .ok (number : ℚ) := by
  have hrun : ((evaluateMeasurements fitPoint.measurements fitWaveform (fitPlan component) "tt"
      fitProbes ∅).toOption.bind fun values => (values.get? "fit").bind fun item =>
        (bindingComponent item component).toOption).isSome := by
    rcases h with rfl | rfl <;> decide +kernel
  obtain ⟨number, hsome⟩ := Option.isSome_iff_exists.mp hrun
  obtain ⟨values, hvalues, hsome⟩ := Option.bind_eq_some_iff.mp hsome
  obtain ⟨item, hitem, hsome⟩ := Option.bind_eq_some_iff.mp hsome
  refine ⟨values, item, number, ?_, hitem, ?_⟩
  · cases hev : evaluateMeasurements fitPoint.measurements fitWaveform (fitPlan component) "tt"
      fitProbes ∅ with
    | error text => simp [hev, Except.toOption] at hvalues
    | ok found =>
      rw [hev] at hvalues
      exact congrArg Except.ok (Option.some.inj hvalues)
  · cases hev : bindingComponent item component with
    | error text => simp [hev, Except.toOption] at hsome
    | ok found =>
      rw [hev] at hsome
      exact congrArg Except.ok (Option.some.inj hsome)

/-- The slope of a voltage over time is delivered in V/s as declared. -/
theorem slope_units : ∃ dimension,
    deliveredDimension (fitPlan .slope) (specimenCarry .slope) = some dimension ∧
      (PlanUnit.VPerS.dimension = dimension ↔ UnitsAgree (fitPlan .slope) (specimenCarry .slope)) := by
  obtain ⟨values, item, number, hvalues, hitem, hnumber⟩ := fit_delivers .slope (.inl rfl)
  exact binding_units_iff ℚ ⟨fitPlan .slope, by decide +kernel⟩ (specimenCarry .slope) (by decide)
    "first" "p" "fit" .slope rfl fitPoint (by decide) "tt" fitWaveform fitProbes ∅ values
    hvalues item hitem number hnumber

/-- The validator accepts V/s for the intercept of a voltage over time, which is a voltage. -/
theorem intercept_unit_wrong : ¬ ∀ (F : Type) [PyFloat F] (plan : PreparedPlan F)
    (binding : Binding) (stageId pointId measurementId : Id) (component : BindingComponent)
    (point : ConditionPoint) (corner : Id) (waveform : Waveform F) (probes : ProbeVectors F)
    (baseLineage : IdSet) (values : PointValues F) (item : ConditionValue F) (number : F)
    (dimension : Dimension), binding ∈ plan.document.bindings →
    binding.source = .measurement stageId pointId measurementId component →
    pointDocument? plan.document stageId pointId = some point →
    evaluateMeasurements point.measurements waveform plan.document corner probes baseLineage =
      .ok values → values.get? measurementId = some item →
    bindingComponent item component = .ok number →
    deliveredDimension plan.document binding = some dimension →
      binding.unit.dimension = dimension := by
  intro hall
  obtain ⟨values, item, number, hvalues, hitem, hnumber⟩ := fit_delivers .intercept (.inr rfl)
  have hclaim := hall ℚ ⟨fitPlan .intercept, by decide +kernel⟩ (specimenCarry .intercept) "first"
    "p" "fit" .intercept fitPoint "tt" fitWaveform fitProbes ∅ values item number Dimension.volt
    (by decide) rfl (by decide) hvalues hitem hnumber (by decide)
  exact absurd hclaim (by decide)

end Specimen

end OpenADA.Runner
