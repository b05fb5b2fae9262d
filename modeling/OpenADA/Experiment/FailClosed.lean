import OpenADA.Experiment.Manifest

/-! A run fails closed: an issue and a failing child go together, and what passes has passed every
check on the envelopes its children returned. -/
namespace OpenADA.Experiment

open PyStr PyJson

section Only

variable {α : Type} {p : α → Bool} {items : List α} {item : α}

theorem only?_eq_some : only? p items = some item ↔ items.filter p = [item] := by
  unfold only?
  split
  · rename_i other h
    rw [h]
    constructor
    · intro h
      rw [Option.some.inj h]
    · intro h
      rw [(List.cons.inj h).1]
  · rename_i h
    constructor
    · intro h
      cases h
    · intro hitem
      exact absurd hitem (h item)

theorem eq_of_only? {other : α} (h : only? p items = some item) (hmem : other ∈ items)
    (hp : p other = true) : other = item := by
  have hfilter := only?_eq_some.mp h
  have hother : other ∈ items.filter p := List.mem_filter.mpr ⟨hmem, hp⟩
  rw [hfilter] at hother
  exact List.mem_singleton.mp hother

end Only

variable {F : Type} [PyFloatText F] (sha256 : ByteArray → Sha256) (env : Environment F)

section Passed

structure SimulationPassed (run : PreparedRun) (document : Mapping F) (record : FileRecord) :
    Prop where
  persisted : env.persisted run = .captured document record
  coherent : coherent sha256 (.object document) (env.simulate run) = true
  complete : structureComplete env.isAbsolute env.conforms "simulate" (.object document) = .ok true
  profile : protocolProfile (.object document) = .ok (some (lit circuitSimulateProfile))
  requestId : protocolRequestId (.object document) = .ok (some (env.simulationRequestId run))
  completed : ∃ status, executionStatus (.object document) = .ok status ∧
    status.isText "completed" = true
  passed : ∃ status, engineeringStatus (.object document) = .ok status ∧
    status.isText "pass" = true

/-- An extraction passed under the digest of the request for a simulation and its raw artifact. -/
structure ExtractionPassed (run : PreparedRun) (simulation extraction : PyJson F) : Prop where
  returned : ∃ path selectors conditions, extraction =
    env.extract run simulation path selectors conditions (env.extractionRequestId run)
  complete : structureComplete env.isAbsolute env.conforms "result.series.extract" extraction =
    .ok true
  profile : protocolProfile extraction = .ok (some (lit extractionOperationProfile))
  completed : ∃ status, executionStatus extraction = .ok status ∧ status.isText "completed" = true
  passed : ∃ status, engineeringStatus extraction = .ok status ∧ status.isText "pass" = true
  extracted : ∃ data status, extraction.nested "data" "extraction" = .ok data ∧
    data.orEmptyItem "status" = .ok status ∧ status.isText "extracted" = true
  digest : ∃ raw request digest, rawArtifact simulation = some raw ∧
    expectedExtractionRequestSha sha256 simulation raw request = .ok (some digest) ∧
      extractionRequestSha extraction = .ok (some digest)

structure MeasurementPassed (measurement : Measurement) (envelope : PyJson F) : Prop where
  complete : structureComplete env.isAbsolute env.conforms measurement.operationProfile.operation
    envelope = .ok true
  profile : protocolProfile envelope = .ok (some (lit measurement.operationProfile.name))
  completed : ∃ status, executionStatus envelope = .ok status ∧ status.isText "completed" = true
  passed : ∃ status, engineeringStatus envelope = .ok status ∧ status.isText "pass" = true
  measured : (((envelope.member "data").member "measurement").member "status").isText "measured" =
    true
  identifier : (((envelope.member "data").member "measurement").member "measurement_id").text? =
    some measurement.identifier
  digest : operationRequestSha envelope = .ok (some measurement.requestCanonicalSha256)
  value : ∃ value unit, measurementValue envelope = .ok (some (value, unit)) ∧
    ∀ expected ∈ measurement.expectedUnit, unit = expected

end Passed

section Measured

omit [PyFloatText F] in
theorem getItem_eq_ok {value item : PyJson F} {key : String} (h : value.getItem key = .ok item) :
    item = value.member key := by
  cases value with
  | object fields => exact (Except.ok.inj h).symm
  | _ => cases h

structure MeasurementSound (run : PreparedRun) (measurement : Measurement)
    (outcome : MeasurementOutcome F) : Prop where
  id : outcome.child.id = measurement.identifier
  quiet : outcome.failed = false → outcome.issues = []
  passed : outcome.failed = false → MeasurementPassed env measurement outcome.result.2.envelope
  returned : ∃ series request, outcome.result.2.envelope =
    env.measure measurement series request (env.measurementRequestId measurement)
  value : measurementValue outcome.result.2.envelope = .ok outcome.child.value
  name : outcome.result.1 = measurement.identifier
  declared : outcome.result.2.measurement = measurement
  analysed : outcome.result.2.analysisId = run.identifier

theorem measureOne_sound {prepared : PreparedExperiment F} {run : PreparedRun}
    {extracted : Extracted F} {measurement : Measurement} {outcome : MeasurementOutcome F}
    (h : measureOne sha256 env prepared run extracted measurement = .ok outcome) :
    MeasurementSound env run measurement outcome := by
  unfold measureOne at h
  obtain ⟨request, -, h⟩ := Except.bind_eq_ok.mp h
  obtain ⟨requestRecord, -, h⟩ := Except.bind_eq_ok.mp h
  obtain ⟨complete, hcomplete, h⟩ := Except.bind_eq_ok.mp h
  obtain ⟨childRecords, -, h⟩ := Except.bind_eq_ok.mp h
  obtain ⟨resultRecord, -, h⟩ := Except.bind_eq_ok.mp h
  obtain ⟨requestSha, hsha, h⟩ := Except.bind_eq_ok.mp h
  obtain ⟨data, hdata, h⟩ := Except.bind_eq_ok.mp h
  obtain ⟨execution, hexecution, h⟩ := Except.bind_eq_ok.mp h
  obtain ⟨engineering, hengineering, h⟩ := Except.bind_eq_ok.mp h
  obtain ⟨value, hvalue, h⟩ := Except.bind_eq_ok.mp h
  obtain ⟨profile, hprofile, h⟩ := Except.bind_eq_ok.mp h
  obtain ⟨issues, hissues, h⟩ := Except.bind_eq_ok.mp h
  obtain ⟨simulationRequestId, -, h⟩ := Except.bind_eq_ok.mp h
  obtain ⟨extractionRequestId, -, h⟩ := Except.bind_eq_ok.mp h
  obtain rfl := Except.ok.inj h
  obtain rfl := getItem_eq_ok hdata
  refine ⟨rfl, fun hpassed => ?_, fun hpassed => ?_, ⟨_, _, rfl⟩, hvalue, rfl, rfl, rfl⟩
  · simp only at hpassed
    rw [hpassed] at hissues
    exact (Except.ok.inj hissues).symm
  · simp only [measurementFailed, Bool.or_eq_false_iff, Bool.not_eq_false', bne_eq_false_iff_eq,
      beq_iff_eq] at hpassed
    obtain ⟨⟨⟨⟨⟨⟨⟨hstructure, hcompleted⟩, hpass⟩, hmeasured⟩, hnamed⟩, hid⟩, hdigest⟩, hunit⟩ :=
      hpassed
    refine ⟨hstructure ▸ hcomplete, hnamed ▸ hprofile, ⟨_, hexecution, hcompleted⟩,
      ⟨_, hengineering, hpass⟩, hmeasured, hid, hdigest ▸ hsha, ?_⟩
    cases value with
    | none => cases hunit
    | some pair =>
      obtain ⟨number, unit⟩ := pair
      refine ⟨number, unit, hvalue, fun expected hexpected => ?_⟩
      rw [Option.mem_def.mp hexpected] at hunit
      have hsame : expected = unit := by simpa using hunit
      exact hsame.symm

end Measured

section Analysed

structure AnalysisSound (prepared : PreparedExperiment F) (run : PreparedRun)
    (simulation : PyJson F) (outcome : AnalysisOutcome F) : Prop where
  id : outcome.record.id = run.identifier
  quiet : outcome.record.passed = true → outcome.issues = []
  extracted : outcome.record.passed = true → run.observations ≠ [] →
    ∃ extraction, ExtractionPassed sha256 env run simulation extraction
  measured : ∀ measurement ∈ prepared.measurements, measurement.analysisId = run.identifier →
    outcome.record.measurements ≠ [] → ∃ found, MeasurementSound env run measurement found ∧
      found.child ∈ outcome.record.measurements ∧
        (outcome.record.passed = true → found.failed = false)
  children : outcome.record.measurements ≠ [] → run.observations ≠ []
  results : ∀ entry ∈ outcome.results, ∃ measurement ∈ prepared.measurements,
    ∃ found, MeasurementSound env run measurement found ∧ entry = found.result

variable {prepared : PreparedExperiment F} {run : PreparedRun} {simulation : PyJson F}

/-- An analysis that ends without its children is sound where it does not pass. -/
theorem ended_sound (progress : Progress F) (issues : List ExperimentIssue) :
    AnalysisSound sha256 env prepared run simulation (progress.ended run false issues) where
  id := rfl
  quiet h := by cases h
  extracted h := by cases h
  measured _ _ _ h := absurd rfl h
  children h := absurd rfl h
  results _ h := by cases h

theorem unobserved_sound (progress : Progress F) (h : run.observations = []) :
    AnalysisSound sha256 env prepared run simulation (progress.ended run true []) where
  id := rfl
  quiet _ := rfl
  extracted _ hne := absurd h hne
  measured _ _ _ h := absurd rfl h
  children h := absurd rfl h
  results _ h := by cases h

theorem measureAll_sound {progress : Progress F} {extracted : Extracted F}
    {outcome : AnalysisOutcome F} {extraction : PyJson F}
    (hextraction : ExtractionPassed sha256 env run simulation extraction)
    (hobserved : run.observations ≠ [])
    (h : measureAll sha256 env prepared run progress extracted = .ok outcome) :
    AnalysisSound sha256 env prepared run simulation outcome := by
  unfold measureAll at h
  obtain ⟨outcomes, houtcomes, h⟩ := Except.bind_eq_ok.mp h
  obtain rfl := Except.ok.inj h
  have hsound : ∀ outcome ∈ outcomes, ∃ measurement ∈ prepared.measurements,
      MeasurementSound env run measurement outcome := by
    intro outcome houtcome
    obtain ⟨measurement, hmeasurement, hone⟩ := Except.exists_of_mem_mapM houtcomes houtcome
    exact ⟨measurement, (List.mem_filter.mp hmeasurement).1, measureOne_sound sha256 env hone⟩
  have hpassed {outcome : MeasurementOutcome F} (houtcome : outcome ∈ outcomes)
      (hall : (outcomes.all fun outcome => !outcome.failed) = true) : outcome.failed = false := by
    simpa using List.all_eq_true.mp hall outcome houtcome
  refine ⟨rfl, fun hall => ?_, fun _ _ => ⟨extraction, hextraction⟩, ?_, fun _ => hobserved, ?_⟩
  · apply List.flatMap_eq_nil_iff.mpr
    intro outcome houtcome
    obtain ⟨measurement, -, hone⟩ := hsound outcome houtcome
    exact hone.quiet (hpassed houtcome hall)
  · intro measurement hmeasurement hanalysis _
    have hfilter : measurement ∈ prepared.measurements.filter fun measurement =>
        measurement.analysisId = run.identifier :=
      List.mem_filter.mpr ⟨hmeasurement, decide_eq_true hanalysis⟩
    obtain ⟨outcome, houtcome, hone⟩ := Except.exists_mem_of_mapM houtcomes hfilter
    exact ⟨outcome, measureOne_sound sha256 env hone, List.mem_map_of_mem houtcome,
      hpassed houtcome⟩
  · intro entry hentry
    obtain ⟨outcome, houtcome, rfl⟩ := List.mem_map.mp hentry
    obtain ⟨measurement, hmeasurement, hone⟩ := hsound outcome houtcome
    exact ⟨measurement, hmeasurement, outcome, hone, rfl⟩

theorem extractSeries_sound {progress : Progress F} {simulationRecord : FileRecord}
    {raw : Mapping F} {outcome : AnalysisOutcome F} (hraw : rawArtifact simulation = some raw)
    (hobserved : run.observations ≠ [])
    (h : extractSeries sha256 env prepared run progress simulation simulationRecord raw =
      .ok outcome) :
    AnalysisSound sha256 env prepared run simulation outcome := by
  unfold extractSeries at h
  obtain ⟨selectionBytes, -, h⟩ := Except.bind_eq_ok.mp h
  obtain ⟨retained, -, h⟩ := Except.bind_eq_ok.mp h
  obtain ⟨selectionRecord, -, h⟩ := Except.bind_eq_ok.mp h
  obtain ⟨expected, hexpected, h⟩ := Except.bind_eq_ok.mp h
  obtain ⟨selectors, -, h⟩ := Except.bind_eq_ok.mp h
  obtain ⟨conditions, -, h⟩ := Except.bind_eq_ok.mp h
  obtain ⟨complete, hcomplete, h⟩ := Except.bind_eq_ok.mp h
  obtain ⟨childRecords, -, h⟩ := Except.bind_eq_ok.mp h
  obtain ⟨extractionRecord, -, h⟩ := Except.bind_eq_ok.mp h
  obtain ⟨data, hdata, h⟩ := Except.bind_eq_ok.mp h
  obtain ⟨status, hstatus, h⟩ := Except.bind_eq_ok.mp h
  obtain ⟨actual, hactual, h⟩ := Except.bind_eq_ok.mp h
  obtain ⟨execution, hexecution, h⟩ := Except.bind_eq_ok.mp h
  obtain ⟨engineering, hengineering, h⟩ := Except.bind_eq_ok.mp h
  obtain ⟨requestId, -, h⟩ := Except.bind_eq_ok.mp h
  obtain ⟨profile, hprofile, h⟩ := Except.bind_eq_ok.mp h
  simp only at h
  split at h
  · rename_i hpassed
    simp only [Bool.and_eq_true, beq_iff_eq] at hpassed
    obtain ⟨⟨⟨⟨⟨hstructure, hcompleted⟩, hpass⟩, hextracted⟩, hnamed⟩, hsome, hsame⟩ := hpassed
    obtain ⟨digest, hdigest⟩ := Option.isSome_iff_exists.mp hsome
    split at h
    · refine measureAll_sound sha256 env ⟨⟨_, _, _, rfl⟩, hstructure ▸ hcomplete,
        hnamed ▸ hprofile, ⟨_, hexecution, hcompleted⟩, ⟨_, hengineering, hpass⟩,
        ⟨_, _, hdata, hstatus, hextracted⟩, raw, retained, digest, hraw, hdigest ▸ hexpected, ?_⟩
        hobserved h
      rw [hactual, hsame, hdigest]
    · obtain rfl := Except.ok.inj h
      exact ended_sound sha256 env _ _
  · obtain ⟨issues, -, h⟩ := Except.bind_eq_ok.mp h
    obtain rfl := Except.ok.inj h
    exact ended_sound sha256 env _ _

theorem observeRun_sound {progress : Progress F} {simulationRecord : FileRecord}
    {outcome : AnalysisOutcome F}
    (h : observeRun sha256 env prepared run progress simulation simulationRecord = .ok outcome) :
    AnalysisSound sha256 env prepared run simulation outcome := by
  unfold observeRun at h
  split at h
  · obtain rfl := Except.ok.inj h
    exact ended_sound sha256 env _ _
  · rename_i raw hraw
    simp only at h
    split at h
    · obtain rfl := Except.ok.inj h
      exact ended_sound sha256 env _ _
    · split at h
      · rename_i hempty
        obtain rfl := Except.ok.inj h
        exact unobserved_sound sha256 env _ (List.isEmpty_iff.mp hempty)
      · rename_i hempty
        exact extractSeries_sound sha256 env hraw (fun hnil => hempty (List.isEmpty_iff.mpr hnil)) h

theorem continueRun_sound {progress : Progress F} {simulationRecord : FileRecord}
    {outcome : AnalysisOutcome F}
    (h : continueRun sha256 env prepared run progress simulation simulationRecord = .ok outcome) :
    AnalysisSound sha256 env prepared run simulation outcome ∧
      (outcome.record.passed = true →
        (∃ status, executionStatus simulation = .ok status ∧ status.isText "completed" = true) ∧
        ∃ status, engineeringStatus simulation = .ok status ∧ status.isText "pass" = true) := by
  unfold continueRun at h
  obtain ⟨execution, hexecution, h⟩ := Except.bind_eq_ok.mp h
  obtain ⟨engineering, hengineering, h⟩ := Except.bind_eq_ok.mp h
  have hended {progress : Progress F} {issues : List ExperimentIssue} :
      AnalysisSound sha256 env prepared run simulation (progress.ended run false issues) ∧
        ((progress.ended run false issues).record.passed = true →
          (∃ status, executionStatus simulation = .ok status ∧ status.isText "completed" = true) ∧
          ∃ status, engineeringStatus simulation = .ok status ∧ status.isText "pass" = true) :=
    ⟨ended_sound sha256 env _ _, fun h => by cases h⟩
  simp only at h
  split at h
  · split at h
    · obtain rfl := Except.ok.inj h
      exact hended
    · obtain ⟨issues, -, h⟩ := Except.bind_eq_ok.mp h
      obtain rfl := Except.ok.inj h
      exact hended
  · split at h
    · obtain rfl := Except.ok.inj h
      exact hended
    · split at h
      · split at h
        · rename_i hpassing
          obtain ⟨hcompleted, hpass⟩ := Bool.and_eq_true_iff.mp hpassing
          exact ⟨observeRun_sound sha256 env h, fun _ =>
            ⟨⟨_, hexecution, hcompleted⟩, ⟨_, hengineering, hpass⟩⟩⟩
        · obtain ⟨issues, -, h⟩ := Except.bind_eq_ok.mp h
          obtain rfl := Except.ok.inj h
          exact hended
      · obtain rfl := Except.ok.inj h
        exact hended

theorem runAnalysis_sound {outcome : AnalysisOutcome F}
    (h : runAnalysis sha256 env prepared run = .ok outcome) :
    ∃ simulation, AnalysisSound sha256 env prepared run simulation outcome ∧
      (outcome.record.passed = true → ∃ document record, simulation = .object document ∧
        SimulationPassed sha256 env run document record) := by
  unfold runAnalysis at h
  obtain ⟨runRecord, -, h⟩ := Except.bind_eq_ok.mp h
  obtain ⟨protocol, -, h⟩ := Except.bind_eq_ok.mp h
  obtain ⟨requestId, -, h⟩ := Except.bind_eq_ok.mp h
  obtain ⟨profile, -, h⟩ := Except.bind_eq_ok.mp h
  obtain ⟨execution, -, h⟩ := Except.bind_eq_ok.mp h
  obtain ⟨engineering, -, h⟩ := Except.bind_eq_ok.mp h
  simp only at h
  split at h
  · obtain rfl := Except.ok.inj h
    exact ⟨.null, ended_sound sha256 env _ _, fun h => by cases h⟩
  · obtain rfl := Except.ok.inj h
    exact ⟨.null, ended_sound sha256 env _ _, fun h => by cases h⟩
  · rename_i document record hpersisted
    obtain ⟨complete, hcomplete, h⟩ := Except.bind_eq_ok.mp h
    obtain ⟨childRecords, -, h⟩ := Except.bind_eq_ok.mp h
    obtain ⟨profile, hprofile, h⟩ := Except.bind_eq_ok.mp h
    obtain ⟨requestId, hrequestId, h⟩ := Except.bind_eq_ok.mp h
    obtain ⟨execution, -, h⟩ := Except.bind_eq_ok.mp h
    obtain ⟨engineering, -, h⟩ := Except.bind_eq_ok.mp h
    split at h
    · rename_i hchecked
      simp only [Bool.and_eq_true, beq_iff_eq] at hchecked
      obtain ⟨⟨hagrees, hnamed, hasked⟩, hstructure⟩ := hchecked
      obtain ⟨hsound, hpassed⟩ := continueRun_sound sha256 env h
      refine ⟨_, hsound, fun h => ⟨document, record, rfl, hpersisted, hagrees,
        hstructure ▸ hcomplete, hnamed ▸ hprofile, hasked ▸ hrequestId, (hpassed h).1,
        (hpassed h).2⟩⟩
    · obtain rfl := Except.ok.inj h
      exact ⟨.null, ended_sound sha256 env _ _, fun h => by cases h⟩

end Analysed

section Derived

/-- A parent that a derivation has bound: a measurement of its analysis that completed, passed and
measured the value under the declared unit. -/
structure ParentPassed (prepared : PreparedExperiment F) (derivation : Derivation)
    (parentId : PyStr) (binding : ParentBinding F) (measurement : Measurement)
    (envelope : PyJson F) : Prop where
  declared : measurement ∈ prepared.measurements
  returned : ∃ series request,
    envelope = env.measure measurement series request (env.measurementRequestId measurement)
  identifier : measurement.identifier = parentId
  analysed : measurement.analysisId = derivation.analysisId
  measured : parentMeasured envelope = true
  profile : protocolProfile envelope = .ok (some (lit measurement.operationProfile.name))
  value : measurementValue envelope = .ok (some (binding.value, binding.unit))
  unit : measurement.expectedUnit = some binding.unit
  digest : operationRequestSha envelope = .ok (some measurement.requestCanonicalSha256)

theorem derivationParentBinding_ok {parentId : PyStr} {derivation : Derivation}
    {found : Option (Runtime F)} {binding : ParentBinding F}
    (h : derivationParentBinding sha256 parentId derivation found = .ok (.ok binding)) :
    ∃ runtime, found = some runtime ∧ runtime.measurement.identifier = parentId ∧
      runtime.measurement.analysisId = derivation.analysisId ∧
      parentMeasured runtime.envelope = true ∧
      protocolProfile runtime.envelope =
        .ok (some (lit runtime.measurement.operationProfile.name)) ∧
      measurementValue runtime.envelope = .ok (some (binding.value, binding.unit)) ∧
      runtime.measurement.expectedUnit = some binding.unit ∧
      operationRequestSha runtime.envelope =
        .ok (some runtime.measurement.requestCanonicalSha256) := by
  unfold derivationParentBinding at h
  simp only at h
  split at h
  · cases h
  · rename_i runtime
    split at h
    · cases h
    · rename_i hmeasured
      split at h
      · cases h
      · rename_i hanalysis
        obtain ⟨profile, hprofile, h⟩ := Except.bind_eq_ok.mp h
        split at h
        · cases h
        · rename_i hnamed
          obtain ⟨value, hvalue, h⟩ := Except.bind_eq_ok.mp h
          split at h
          · cases h
          · rename_i number unit
            split at h
            · cases h
            · rename_i hunit
              split at h
              · cases h
              · obtain ⟨requestSha, hsha, h⟩ := Except.bind_eq_ok.mp h
                split at h
                · cases h
                · rename_i hrequest
                  obtain ⟨conditionsSha, -, h⟩ := Except.bind_eq_ok.mp h
                  split at h
                  · split at h
                    · obtain rfl := Except.ok.inj (Except.ok.inj h)
                      simp only [not_or, not_not] at hanalysis hnamed hrequest
                      rw [hnamed.1] at hprofile
                      rw [hrequest.1] at hsha
                      exact ⟨runtime, rfl, hnamed.2.2, hanalysis.2, Bool.eq_true_of_not_eq_false hmeasured,
                        hprofile, hvalue, not_not.mp hunit, hsha⟩
                    · cases h
                  · cases h

def ResultsSound (prepared : PreparedExperiment F) (results : List (PyStr × Runtime F)) : Prop :=
  ∀ entry ∈ results, ∃ run, ∃ measurement ∈ prepared.measurements, ∃ found,
    MeasurementSound env run measurement found ∧ entry = found.result

theorem parent_passed {prepared : PreparedExperiment F} {results : List (PyStr × Runtime F)}
    (hresults : ResultsSound env prepared results) {parentId : PyStr} {derivation : Derivation}
    {binding : ParentBinding F}
    (h : derivationParentBinding sha256 parentId derivation (results.lookup parentId) =
      .ok (.ok binding)) :
    ∃ measurement envelope,
      ParentPassed env prepared derivation parentId binding measurement envelope := by
  obtain ⟨runtime, hfound, hid, hanalysis, hmeasured, hprofile, hvalue, hunit, hdigest⟩ :=
    derivationParentBinding_ok sha256 h
  obtain ⟨front, back, hsplit, -⟩ := List.lookup_eq_some_iff.mp hfound
  have hmem : (parentId, runtime) ∈ results := by
    rw [hsplit]
    exact List.mem_append_right _ (List.mem_cons_self ..)
  obtain ⟨run, measurement, hdeclared, found, hsound, hentry⟩ := hresults _ hmem
  have hruntime : runtime = found.result.2 := congrArg Prod.snd hentry
  have hmeasurement : runtime.measurement = measurement := by rw [hruntime, hsound.declared]
  subst hmeasurement
  refine ⟨runtime.measurement, runtime.envelope, hdeclared, ?_, hid, hanalysis, hmeasured, hprofile,
    hvalue, hunit, hdigest⟩
  rw [hruntime]
  exact hruntime ▸ hsound.returned

theorem bindParents_ok {results : List (PyStr × Runtime F)} {derivation : Derivation}
    {parentIds : List PyStr} {bindings : List (ParentBinding F)}
    (h : bindParents sha256 results derivation parentIds = .ok (bindings, none)) :
    List.Forall₂ (fun parentId binding =>
      derivationParentBinding sha256 parentId derivation (results.lookup parentId) =
        .ok (.ok binding)) parentIds bindings := by
  induction parentIds generalizing bindings with
  | nil =>
    obtain rfl := (Prod.mk.inj (Except.ok.inj h)).1
    exact .nil
  | cons parentId rest ih =>
    rw [bindParents] at h
    obtain ⟨bound, hbound, h⟩ := Except.bind_eq_ok.mp h
    cases bound with
    | error issue => cases (Prod.mk.inj (Except.ok.inj h)).2
    | ok binding =>
      obtain ⟨⟨others, issue⟩, hothers, h⟩ := Except.bind_eq_ok.mp h
      obtain ⟨rfl, rfl⟩ := Prod.mk.inj (Except.ok.inj h)
      exact .cons hbound (ih hothers)

structure DerivationPassed (prepared : PreparedExperiment F) (derivation : Derivation)
    (record : DerivationRecord F) : Prop where
  parents : ∃ first second firstMeasurement secondMeasurement firstEnvelope secondEnvelope,
    record.parents = [first, second] ∧ first.unit = second.unit ∧
      record.result = some (first.value - second.value, first.unit) ∧
      ParentPassed env prepared derivation derivation.parents.1 first firstMeasurement
        firstEnvelope ∧
      ParentPassed env prepared derivation derivation.parents.2 second secondMeasurement
        secondEnvelope

theorem deriveOne_sound {prepared : PreparedExperiment F} {results : List (PyStr × Runtime F)}
    (hresults : ResultsSound env prepared results) {derivation : Derivation}
    {outcome : DerivationOutcome F} (h : deriveOne sha256 env results derivation = .ok outcome) :
    outcome.record.id = derivation.identifier ∧ (outcome.record.passed = true →
      outcome.issues = [] ∧ DerivationPassed env prepared derivation outcome.record) := by
  unfold deriveOne at h
  obtain ⟨⟨parents, issue⟩, hparents, h⟩ := Except.bind_eq_ok.mp h
  simp only at h
  split at h
  · obtain rfl := Except.ok.inj h
    exact ⟨rfl, fun h => by cases h⟩
  · split at h
    · rename_i first second
      split at h
      · obtain rfl := Except.ok.inj h
        exact ⟨rfl, fun h => by cases h⟩
      · rename_i hunit
        split at h
        · obtain rfl := Except.ok.inj h
          exact ⟨rfl, fun h => by cases h⟩
        · obtain ⟨record, -, h⟩ := Except.bind_eq_ok.mp h
          obtain rfl := Except.ok.inj h
          have hbound := bindParents_ok sha256 hparents
          rw [List.forall₂_cons] at hbound
          obtain ⟨hfirst, hrest⟩ := hbound
          rw [List.forall₂_cons] at hrest
          obtain ⟨firstMeasurement, firstEnvelope, hfirst⟩ := parent_passed sha256 env hresults hfirst
          obtain ⟨secondMeasurement, secondEnvelope, hsecond⟩ :=
            parent_passed sha256 env hresults hrest.1
          exact ⟨rfl, fun _ => ⟨rfl, ⟨first, second, firstMeasurement, secondMeasurement,
            firstEnvelope, secondEnvelope, rfl, not_not.mp hunit, rfl, hfirst, hsecond⟩⟩⟩
    · obtain rfl := Except.ok.inj h
      exact ⟨rfl, fun h => by cases h⟩

end Derived

section Children

omit [PyFloatText F]

variable {prepared : PreparedExperiment F} {analyses : List (AnalysisRecord F)}
  {derivations : List (DerivationRecord F)}

theorem runStates_pass {measurements : List Measurement} {run : PreparedRun}
    (h : (runStates measurements analyses run).all ChildState.passed = true) :
    ∃ record, analyses.filter (fun record => record.id = run.identifier) = [record] ∧
      record.passed = true ∧ record.simulation.complete = true ∧
      (run.observations ≠ [] → ∃ child, record.extraction = some child ∧ child.complete = true) ∧
      ∀ measurement ∈ measurements, measurement.analysisId = run.identifier →
        ∃ child, record.measurements.filter (fun child => child.id = measurement.identifier) =
          [child] ∧ child.complete = true := by
  unfold runStates at h
  simp only [List.all_append, List.all_cons, List.all_nil, Bool.and_true, Bool.and_eq_true,
    List.all_map] at h
  obtain ⟨⟨⟨hsimulation, hextraction⟩, hmeasurements⟩, hanalysis⟩ := h
  obtain ⟨record, hrecord, hpassed⟩ := (Option.any_eq_true _ _).mp hanalysis
  rw [hrecord] at hsimulation hextraction hmeasurements
  refine ⟨record, only?_eq_some.mp hrecord, hpassed, hsimulation, fun hobserved => ?_, ?_⟩
  · rw [if_neg (by simpa using hobserved)] at hextraction
    simp only [List.all_cons, List.all_nil, Bool.and_true] at hextraction
    exact (Option.any_eq_true _ _).mp hextraction
  · intro measurement hmeasurement hanalysed
    have hpass := List.all_eq_true.mp hmeasurements measurement
      (List.mem_filter.mpr ⟨hmeasurement, decide_eq_true hanalysed⟩)
    obtain ⟨child, hchild, hcomplete⟩ := (Option.any_eq_true _ _).mp hpass
    exact ⟨child, only?_eq_some.mp hchild, hcomplete⟩

theorem completeChildStates_pass
    (h : (completeChildStates prepared analyses derivations).all ChildState.passed = true) :
    (∀ run ∈ prepared.runs,
      (runStates prepared.measurements analyses run).all ChildState.passed = true) ∧
    ∀ derivation ∈ prepared.derivations, ∃ record,
      derivations.filter (fun record => record.id = derivation.identifier) = [record] ∧
        record.passed = true := by
  unfold completeChildStates at h
  rw [List.all_append, Bool.and_eq_true] at h
  constructor
  · intro run hrun
    rw [List.all_eq_true]
    intro child hchild
    exact List.all_eq_true.mp h.1 child (List.mem_flatMap.mpr ⟨run, hrun, hchild⟩)
  · intro derivation hderivation
    have hpass := List.all_eq_true.mp h.2 _ (List.mem_map_of_mem hderivation)
    obtain ⟨record, hrecord, hpassed⟩ := (Option.any_eq_true _ _).mp hpass
    simp only [Bool.and_eq_true] at hpassed
    exact ⟨record, only?_eq_some.mp hrecord, hpassed.1.1⟩

theorem issues_eq_nil_iff (children : List ChildState) :
    (children.filter fun child => !child.passed).map ChildState.issue = [] ↔
      children.all ChildState.passed = true := by
  rw [List.map_eq_nil_iff, List.filter_eq_nil_iff, List.all_eq_true]
  simp

end Children

section Run

variable {prepared : PreparedExperiment F} {outcomes : List (AnalysisOutcome F)}

theorem resultsSound_of_outcomes
    (h : prepared.runs.mapM (runAnalysis sha256 env prepared) = .ok outcomes) :
    ResultsSound env prepared (outcomes.flatMap AnalysisOutcome.results).reverse := by
  intro entry hentry
  obtain ⟨outcome, houtcome, hresult⟩ := List.mem_flatMap.mp (List.mem_reverse.mp hentry)
  obtain ⟨run, -, hrun⟩ := Except.exists_of_mem_mapM h houtcome
  obtain ⟨simulation, hsound, -⟩ := runAnalysis_sound sha256 env hrun
  obtain ⟨measurement, hmeasurement, found, hfound, hsame⟩ := hsound.results entry hresult
  exact ⟨run, measurement, hmeasurement, found, hfound, hsame⟩

/-- Where the only record of a run passes, the run's own outcome is behind it. -/
theorem outcome_of_record
    (h : prepared.runs.mapM (runAnalysis sha256 env prepared) = .ok outcomes) {run : PreparedRun}
    (hrun : run ∈ prepared.runs) {record : AnalysisRecord F}
    (hrecord : (outcomes.map AnalysisOutcome.record).filter
      (fun record => record.id = run.identifier) = [record]) :
    ∃ outcome ∈ outcomes, outcome.record = record ∧
      runAnalysis sha256 env prepared run = .ok outcome := by
  obtain ⟨outcome, houtcome, houtcomeRun⟩ := Except.exists_mem_of_mapM h hrun
  obtain ⟨simulation, hsound, -⟩ := runAnalysis_sound sha256 env houtcomeRun
  refine ⟨outcome, houtcome, ?_, houtcomeRun⟩
  exact eq_of_only? (only?_eq_some.mpr hrecord) (List.mem_map_of_mem houtcome)
    (decide_eq_true hsound.id)

/-- Where the states of every run pass, no analysis has recorded an issue. -/
theorem analyses_quiet
    (h : prepared.runs.mapM (runAnalysis sha256 env prepared) = .ok outcomes)
    (hpass : ∀ run ∈ prepared.runs, (runStates prepared.measurements
      (outcomes.map AnalysisOutcome.record) run).all ChildState.passed = true) :
    outcomes.flatMap AnalysisOutcome.issues = [] := by
  apply List.flatMap_eq_nil_iff.mpr
  intro outcome houtcome
  obtain ⟨run, hrun, houtcomeRun⟩ := Except.exists_of_mem_mapM h houtcome
  obtain ⟨simulation, hsound, -⟩ := runAnalysis_sound sha256 env houtcomeRun
  obtain ⟨record, hrecord, hpassed, -⟩ := runStates_pass (hpass run hrun)
  have hsame : outcome.record = record := eq_of_only? (only?_eq_some.mpr hrecord)
    (List.mem_map_of_mem houtcome) (decide_eq_true hsound.id)
  exact hsound.quiet (hsame ▸ hpassed)

/-- A run passes exactly where it has no issue; where it passes, every declared child is there once
and passed every check, and a derivation that passed is the difference of two measured parents. -/
theorem run_fail_closed {report : Report F}
    (h : runExperiment sha256 env prepared = .ok report) :
    (report.passed = true ↔ report.issues = []) ∧
    (report.passed = true →
      (∀ run ∈ prepared.runs, ∃ record document fileRecord,
        report.analyses.filter (fun record => record.id = run.identifier) = [record] ∧
        record.passed = true ∧ record.simulation.complete = true ∧
        SimulationPassed sha256 env run document fileRecord ∧
        (run.observations ≠ [] → ∃ child extraction, record.extraction = some child ∧
          child.complete = true ∧
          ExtractionPassed sha256 env run (.object document) extraction)) ∧
      (∀ measurement ∈ prepared.measurements, ∃ record child envelope,
        report.analyses.filter (fun record => record.id = measurement.analysisId) = [record] ∧
        record.measurements.filter (fun child => child.id = measurement.identifier) = [child] ∧
        child.complete = true ∧ MeasurementPassed env measurement envelope ∧
        measurementValue envelope = .ok child.value ∧ ∃ series request, envelope = env.measure measurement series request
          (env.measurementRequestId measurement)) ∧
      ∀ derivation ∈ prepared.derivations, ∃ record,
        report.derivations.filter (fun record => record.id = derivation.identifier) = [record] ∧
        record.passed = true) ∧
    ∀ record ∈ report.derivations, record.passed = true → ∃ derivation ∈ prepared.derivations,
      record.id = derivation.identifier ∧ DerivationPassed env prepared derivation record := by
  unfold runExperiment at h
  obtain ⟨specRecord, -, h⟩ := Except.bind_eq_ok.mp h
  obtain ⟨baseRecord, -, h⟩ := Except.bind_eq_ok.mp h
  obtain ⟨outcomes, houtcomes, h⟩ := Except.bind_eq_ok.mp h
  obtain ⟨derived, hderived, h⟩ := Except.bind_eq_ok.mp h
  obtain ⟨logRecord, -, h⟩ := Except.bind_eq_ok.mp h
  obtain ⟨manifestRecord, -, h⟩ := Except.bind_eq_ok.mp h
  obtain rfl := Except.ok.inj h
  have hresults := resultsSound_of_outcomes sha256 env houtcomes
  have hderivedPassed {outcome : DerivationOutcome F} (houtcome : outcome ∈ derived)
      (hpassed : outcome.record.passed = true) : outcome.issues = [] ∧
        ∃ derivation ∈ prepared.derivations, outcome.record.id = derivation.identifier ∧
          DerivationPassed env prepared derivation outcome.record := by
    obtain ⟨derivation, hderivation, hone⟩ := Except.exists_of_mem_mapM hderived houtcome
    obtain ⟨hid, hsound⟩ := deriveOne_sound sha256 env hresults hone
    exact ⟨(hsound hpassed).1, derivation, hderivation, hid, (hsound hpassed).2⟩
  refine ⟨⟨fun hpassed => ?_, fun hissues => ?_⟩, fun hpassed => ?_, fun record hrecord hpassed => ?_⟩
  · simp only [Bool.and_eq_true, List.isEmpty_iff] at hpassed
    obtain ⟨⟨hchildren, haudit⟩, hfinal⟩ := hpassed
    obtain ⟨hruns, hderivations⟩ := completeChildStates_pass hchildren
    have hquiet : derived.flatMap DerivationOutcome.issues = [] := by
      apply List.flatMap_eq_nil_iff.mpr
      intro outcome houtcome
      obtain ⟨derivation, hderivation, hone⟩ := Except.exists_of_mem_mapM hderived houtcome
      obtain ⟨record, hrecord, hpassed⟩ := hderivations derivation hderivation
      have hsame : outcome.record = record := eq_of_only? (only?_eq_some.mpr hrecord)
        (List.mem_map_of_mem houtcome)
        (decide_eq_true (deriveOne_sound sha256 env hresults hone).1)
      exact (hderivedPassed houtcome (hsame ▸ hpassed)).1
    simp only [analyses_quiet sha256 env houtcomes hruns, hquiet,
      (issues_eq_nil_iff _).mpr hchildren, haudit, hfinal, List.append_nil]
  · simp only [List.append_eq_nil_iff] at hissues
    obtain ⟨⟨⟨⟨-, -⟩, hchildren⟩, haudit⟩, hfinal⟩ := hissues
    simp only [(issues_eq_nil_iff _).mp hchildren, haudit, hfinal, List.isEmpty_nil, Bool.and_true]
  · simp only [Bool.and_eq_true] at hpassed
    obtain ⟨hruns, hderivations⟩ := completeChildStates_pass hpassed.1.1
    refine ⟨fun run hrun => ?_, fun measurement hmeasurement => ?_, hderivations⟩
    · obtain ⟨record, hrecord, hanalysis, hsimulation, hextraction, -⟩ :=
        runStates_pass (hruns run hrun)
      obtain ⟨outcome, houtcome, rfl, houtcomeRun⟩ :=
        outcome_of_record sha256 env houtcomes hrun hrecord
      obtain ⟨simulation, hsound, hsimulated⟩ := runAnalysis_sound sha256 env houtcomeRun
      obtain ⟨document, fileRecord, rfl, hdocument⟩ := hsimulated hanalysis
      refine ⟨outcome.record, document, fileRecord, hrecord, hanalysis, hsimulation, hdocument,
        fun hobserved => ?_⟩
      obtain ⟨child, hchild, hcomplete⟩ := hextraction hobserved
      obtain ⟨extraction, hpassed⟩ := hsound.extracted hanalysis hobserved
      exact ⟨child, extraction, hchild, hcomplete, hpassed⟩
    · obtain ⟨run, hrun, hanalysed⟩ := prepared.analysed measurement hmeasurement
      obtain ⟨record, hrecord, hanalysis, -, -, hchildren⟩ := runStates_pass (hruns run hrun)
      obtain ⟨child, hchild, hcomplete⟩ := hchildren measurement hmeasurement hanalysed.symm
      obtain ⟨outcome, houtcome, rfl, houtcomeRun⟩ :=
        outcome_of_record sha256 env houtcomes hrun hrecord
      obtain ⟨simulation, hsound, -⟩ := runAnalysis_sound sha256 env houtcomeRun
      have hne : outcome.record.measurements ≠ [] := by
        intro hnil
        rw [hnil] at hchild
        cases hchild
      obtain ⟨found, hfound, hmem, hfailed⟩ :=
        hsound.measured measurement hmeasurement hanalysed.symm hne
      obtain rfl : found.child = child := eq_of_only? (only?_eq_some.mpr hchild) hmem
        (decide_eq_true hfound.id)
      rw [hanalysed] at hrecord
      exact ⟨outcome.record, found.child, found.result.2.envelope, hrecord, hchild, hcomplete,
        hfound.passed (hfailed hanalysis), hfound.value, hfound.returned⟩
  · obtain ⟨outcome, houtcome, rfl⟩ := List.mem_map.mp hrecord
    exact (hderivedPassed houtcome hpassed).2

end Run

section Bench

def zeroHash : Sha256 := ⟨List.replicate 64 (point '0'), by decide⟩

def emptyFile (path : PyStr) : FileRecord := ⟨path, 0, zeroHash⟩

def retainedFile (kind role : String) : PyJson SignedRat :=
  .object ([(lit "kind", .str (lit kind)), (lit "role", .str (lit role))] ++
    (emptyFile (lit role)).mapping)

def passingEnvelope (profile requestId : String) (inputs artifacts : List (PyJson SignedRat))
    (name : String) (value : PyJson SignedRat) : Mapping SignedRat :=
  [(lit "execution", .object [(lit "status", .str (lit "completed"))]),
    (lit "engineering", .object [(lit "status", .str (lit "pass"))]),
    (lit "inputs", .array inputs), (lit "artifacts", .array artifacts),
    (lit "diagnostics", .array []),
    (lit "data", .object [(lit "protocol", .object [(lit "operation_profile", .str (lit profile)),
      (lit "request_id", .str (lit requestId))]), (lit name, value)])]

def benchRun : PreparedRun :=
  ⟨lit "tran", [⟨lit "out", lit "v(out)", lit "real", lit "V"⟩], ByteArray.empty, zeroHash⟩

def benchMeasurement (identifier : String) : Measurement :=
  ⟨lit identifier, lit "tran", .measure, ByteArray.empty, zeroHash, zeroHash, some (lit "V")⟩

def benchExperiment : PreparedExperiment SignedRat where
  specBytes := ByteArray.empty
  baseDeck := ByteArray.empty
  pdkId := lit "sky130"
  corner := lit "tt"
  temperature := .float (.rat 27)
  runs := [benchRun]
  measurements := [benchMeasurement "high", benchMeasurement "low"]
  derivations := [⟨lit "swing", lit "tran", lit "high", lit "low"⟩]
  analysed := by
    intro measurement hmeasurement
    refine ⟨benchRun, List.mem_singleton_self _, ?_⟩
    rcases List.mem_cons.mp hmeasurement with rfl | hmeasurement
    · rfl
    · obtain rfl := List.mem_singleton.mp hmeasurement
      rfl

def benchSource : PyJson SignedRat :=
  .object [(lit "operation", .str (lit extractionOperationProfile)),
    (lit "request_id", .str (lit "another")), (lit "artifact_role", .str (lit "measurement.source")),
    (lit "artifact_sha256", .str zeroHash.1), (lit "series_sha256", .str zeroHash.1),
    (lit "conditions", .array (conditionsForExtraction benchExperiment)),
    (lit "conditions_sha256", .str zeroHash.1),
    (lit "lineage", .object [(lit "operation", .str (lit "circuit.simulate")),
      (lit "request_id", .str (lit "simulated")), (lit "artifact_role", .str (lit "simulation.result")),
      (lit "artifact_sha256", .str zeroHash.1), (lit "binding", .str (lit "unverified"))])]

def benchSimulation : Mapping SignedRat :=
  passingEnvelope circuitSimulateProfile "simulated"
    [retainedFile "spice-netlist" "simulation.deck"]
    [retainedFile "ngspice-raw" "simulation.result"] "analysis" .null

/-- Child operations that pass; the extraction answers under another request id, and whether the
measurements conform is given. -/
def benchEnvironment (conforming : Bool) : Environment SignedRat where
  simulationRequestId _ := lit "simulated"
  simulate _ := .object benchSimulation
  persisted _ := .captured benchSimulation (emptyFile (lit "simulate.result.json"))
  conforms operation _ := conforming || operation != "result.measure"
  extractionRequestId _ := lit "extracted"
  extract _ _ _ _ _ _ := .object (passingEnvelope extractionOperationProfile "another" [] []
    "extraction" (.object [(lit "status", .str (lit "extracted")),
      (lit "request_sha256", .str zeroHash.1),
      (lit "series", .object [(lit "source", .object [(lit "artifact_sha256", .str zeroHash.1)])])]))
  measurementRequestId _ := lit "measured"
  measure measurement _ _ _ := .object (passingEnvelope MeasurementProfile.measure.name "measured" []
    [] "measurement" (.object [(lit "status", .str (lit "measured")),
      (lit "measurement_id", .str measurement.identifier),
      (lit "request_sha256", .str zeroHash.1), (lit "value", .int 3), (lit "unit", .str (lit "V")),
      (lit "source", benchSource)]))
  isAbsolute _ := true
  casefold text := text
  rawVectorNames _ := [lit "v(out)"]
  recorded path := some (emptyFile path)
  audited path := some (emptyFile path)
  finallyAudited path := some (emptyFile path)
  jsonBytes _ := .ok ByteArray.empty
  captured _ := .ok [(lit "selectors", .array []), (lit "conditions", .array [])]
  writeBytes path _ := .ok (emptyFile (path.flatten))
  writeLog := .ok (emptyFile (lit "experiment.log"))
  writeManifest := .ok (emptyFile (lit "run-manifest.json"))

theorem bench_passes :
    ∃ report, runExperiment (fun _ => zeroHash) (benchEnvironment true) benchExperiment =
        .ok report ∧ report.passed = true ∧ (report.analyses.any fun record =>
          record.extraction.any fun child => child.requestId !=
            some ((benchEnvironment true).extractionRequestId benchRun)) = true := by
  obtain ⟨report, hreport, h⟩ := Except.exists_ok_of_any
    (x := runExperiment (fun _ => zeroHash) (benchEnvironment true) benchExperiment)
    (p := fun report => report.passed && report.analyses.any fun record =>
      record.extraction.any fun child => child.requestId !=
        some ((benchEnvironment true).extractionRequestId benchRun)) (by decide +kernel)
  obtain ⟨hpassed, hforeign⟩ := Bool.and_eq_true_iff.mp h
  exact ⟨report, hreport, hpassed, hforeign⟩

/-- An extraction that answers under another request id passes, and a derivation passes whose
parents are structurally incomplete. -/
theorem foreign_extraction_passes :
    (∃ report, runExperiment (fun _ => zeroHash) (benchEnvironment true) benchExperiment =
        .ok report ∧ report.passed = true ∧ (report.analyses.any fun record =>
          record.extraction.any fun child => child.requestId !=
            some ((benchEnvironment true).extractionRequestId benchRun)) = true) ∧
    ∃ report, runExperiment (fun _ => zeroHash) (benchEnvironment false) benchExperiment =
        .ok report ∧ (report.derivations.all DerivationRecord.passed &&
          (report.children.all fun child => child.kind != .measure || !child.passed)) = true :=
  ⟨bench_passes, Except.exists_ok_of_any (by decide +kernel)⟩

theorem bench_fails_closed :
    ∃ report, runExperiment (fun _ => zeroHash) (benchEnvironment true) benchExperiment =
        .ok report ∧ report.issues = [] ∧
      ∃ record, report.derivations.filter (fun record => record.id = lit "swing") = [record] ∧
        record.passed = true := by
  obtain ⟨report, hreport, hpassed, -⟩ := bench_passes
  obtain ⟨hiff, hchildren, -⟩ := run_fail_closed (fun _ => zeroHash) (benchEnvironment true) hreport
  exact ⟨report, hreport, hiff.mp hpassed, (hchildren hpassed).2.2 _ (List.mem_singleton_self _)⟩

end Bench

end OpenADA.Experiment
