import OpenADA.Runner.BindingUnits
import OpenADA.Runner.Rules

/-! The samples a linear fit stands on, and the minimum its declaration asks for. -/
namespace OpenADA.Runner

open OpenADA.Plan OpenADA.Compiler

section Windows

variable {F : Type} [PyFloat F]

def insideWindow (window : Window) (x : F) : Bool :=
  (literal window.start "window.start").toOption.any (fun start => PyFloat.le start x) &&
    (literal window.stop "window.stop").toOption.any fun stop => PyFloat.le x stop

def samplesInside (window : Window) (axis : List F) : ℕ := axis.countP (insideWindow window)

def Fittable (window : Window) (x y : List F) : Prop :=
  ∃ samples fit, fitSamples (.curve x y) window = .ok samples ∧
    linearFit samples.1 samples.2 = .ok fit ∧
    finiteJson (.fit fit.slope fit.intercept fit.r2) = true

/-- What a stored fit stands on: the curve it reads is stored too, and can be fitted. -/
def StandsOn (values : PointValues F) (parentId : Id) (window : Window) : Prop :=
  ∃ x y conditionIds, values.get? parentId = some ⟨.curve x y, conditionIds⟩ ∧ Fittable window x y

section Steps

variable {plan : PlanDocument} {corner : Id} {waveform : Waveform F} {probes : ProbeVectors F}
  {baseLineage : IdSet}

theorem measureStep_eq_ok {values next : PointValues F} {measurement : Measurement} :
    measureStep plan corner waveform probes baseLineage values measurement = .ok next ↔
      ∃ result, measure plan corner waveform probes baseLineage values measurement = .ok result ∧
        finiteJson result.value = true ∧ next = values.set measurement.id result := by
  unfold measureStep storeMeasured
  rw [Except.bind_eq_ok]
  refine exists_congr fun result => and_congr_right fun _ => ?_
  by_cases hfinite : finiteJson result.value = true
  · rw [if_pos hfinite]
    exact ⟨fun h => ⟨hfinite, (Except.ok.inj h).symm⟩, fun h => by rw [h.2]⟩
  · rw [if_neg hfinite]
    constructor
    · intro h
      cases h
    · intro h
      exact absurd h.1 hfinite

theorem fitStep_succeeds_iff {values : PointValues F} {fit : Measurement} {parentId : Id}
    {window : Window} {minimum : ℕ} (hbody : fit.body = .linearFit parentId window minimum) :
    (∃ next, measureStep plan corner waveform probes baseLineage values fit = .ok next) ↔
      StandsOn values parentId window := by
  have hmeasure : measure plan corner waveform probes baseLineage values fit =
      (do
        let parent ← parentValue values fit.id parentId
        let payload ← derivedPayload plan corner fit.body parent.value
        .ok ⟨payload, parent.conditionIds⟩) := by
    simp only [measure, hbody]
  constructor
  · rintro ⟨next, hnext⟩
    obtain ⟨result, hresult, hfinite, _⟩ := measureStep_eq_ok.mp hnext
    rw [hmeasure] at hresult
    obtain ⟨parent, hparent, hresult⟩ := Except.bind_eq_ok.mp hresult
    obtain ⟨payload, hpayload, hresult⟩ := Except.bind_eq_ok.mp hresult
    obtain rfl := Except.ok.inj hresult
    simp only [hbody, derivedPayload] at hpayload
    obtain ⟨samples, hsamples, hpayload⟩ := Except.bind_eq_ok.mp hpayload
    obtain ⟨fitted, hfitted, hpayload⟩ := Except.bind_eq_ok.mp hpayload
    obtain rfl := Except.ok.inj hpayload
    have hget : values.get? parentId = some parent := by
      unfold parentValue at hparent
      split at hparent
      · next found hfound => rw [hfound, Except.ok.inj hparent]
      · cases hparent
    obtain ⟨value, conditionIds⟩ := parent
    have hcurve : ∃ x y, value = .curve x y := by
      have hsome := hsamples
      unfold fitSamples at hsome
      obtain ⟨curve, hcurve, _⟩ := Except.bind_eq_ok.mp hsome
      cases value with
      | curve x y => exact ⟨x, y, rfl⟩
      | scalar value => cases hcurve
      | fit slope intercept r2 => cases hcurve
      | interval lower upper => cases hcurve
      | signs values => cases hcurve
    obtain ⟨x, y, rfl⟩ := hcurve
    exact ⟨x, y, conditionIds, hget, samples, fitted, hsamples, hfitted, hfinite⟩
  · rintro ⟨x, y, conditionIds, hget, samples, fitted, hsamples, hfitted, hfinite⟩
    refine ⟨_, measureStep_eq_ok.mpr
      ⟨⟨.fit fitted.slope fitted.intercept fitted.r2, conditionIds⟩, ?_, hfinite, rfl⟩⟩
    rw [hmeasure]
    simp only [parentValue, hget, hbody, derivedPayload, hsamples, hfitted, Except.ok_bind]

/-- The values of a measured point: one for every measurement, and under each fit the curve it
was fitted to. -/
theorem evaluateMeasurements_stores {measurements : List Measurement} {values : PointValues F}
    (hids : (measurements.map Measurement.id).Nodup)
    (h : evaluateMeasurements measurements waveform plan corner probes baseLineage = .ok values) :
    (∀ id, id ∈ values.keys ↔ id ∈ measurements.map Measurement.id) ∧
      ∀ fit ∈ measurements, ∀ parentId window minimum,
        fit.body = .linearFit parentId window minimum → StandsOn values parentId window := by
  unfold evaluateMeasurements at h
  have hrun := Except.foldlM_spec (fun done values => (done.map Measurement.id).Nodup →
    (∀ id, id ∈ values.keys ↔ id ∈ done.map Measurement.id) ∧
      ∀ fit ∈ done, ∀ parentId window minimum,
        fit.body = .linearFit parentId window minimum → StandsOn values parentId window) ?_ ?_ h
  · exact hrun hids
  · intro done measurement values next hinv hstep hnodup
    rw [List.map_append, List.map_singleton, List.nodup_append] at hnodup
    obtain ⟨hkeys, hfits⟩ := hinv hnodup.1
    obtain ⟨result, hresult, hfinite, hnext⟩ := measureStep_eq_ok.mp hstep
    have hfresh : values.get? measurement.id = none := by
      rw [InsertionDict.get?_eq_none_iff, hkeys]
      intro hmem
      exact hnodup.2.2 _ hmem _ (List.mem_singleton_self _) rfl
    -- a stored curve is never overwritten: the new name is fresh
    have hkeep : ∀ parentId window, StandsOn values parentId window →
        StandsOn next parentId window := by
      rintro parentId window ⟨x, y, conditionIds, hget, hfittable⟩
      refine ⟨x, y, conditionIds, ?_, hfittable⟩
      have hne : parentId ≠ measurement.id := by
        rintro rfl
        rw [hget] at hfresh
        cases hfresh
      rw [hnext, InsertionDict.get?_set, if_neg hne, hget]
    refine ⟨?_, ?_⟩
    · intro id
      rw [hnext, InsertionDict.mem_keys_set, hkeys, List.map_append, List.mem_append,
        List.map_singleton, List.mem_singleton, or_comm]
    · intro fit hfit parentId window minimum hbody
      rcases List.mem_append.mp hfit with hdone | hlast
      · exact hkeep _ _ (hfits fit hdone parentId window minimum hbody)
      · obtain rfl := List.mem_singleton.mp hlast
        exact hkeep _ _ ((fitStep_succeeds_iff hbody).mp ⟨next, hstep⟩)
  · intro _
    refine ⟨?_, ?_⟩
    · simp [InsertionDict.keys_empty]
    · intro fit hfit
      exact absurd hfit List.not_mem_nil

end Steps

theorem evaluatePointGroup_measured {point : ConditionPoint} {entries : List (Entry F)}
    {plan : PlanDocument} {corner : Id} {upstream : IdSet} {values : PointValues F}
    (h : evaluatePointGroup point entries plan corner upstream = .ok values) :
    ∃ waveform probes lineage,
      evaluateMeasurements point.measurements waveform plan corner probes lineage = .ok values := by
  unfold evaluatePointGroup at h
  split_ifs at h with hsweep
  · unfold evaluateSweep at h
    split at h
    · cases h
    · obtain ⟨scan, _, h⟩ := Except.bind_eq_ok.mp h
      exact ⟨_, _, _, h⟩
  · split at h
    · exact ⟨_, _, _, h⟩
    · cases h

section Runs

variable {ctx : RunContext F}

def Evaluated (ctx : RunContext F) (values : ConditionValues F) : Prop :=
  ∀ key found, values.get? key = some found → ∃ point waveform probes lineage,
    pointDocument? ctx.plan key.1 key.2 = some point ∧
      evaluateMeasurements point.measurements waveform ctx.plan ctx.corner probes lineage =
        .ok found

theorem evaluatePoint_evaluated {attempts : List ConditionAttempt} {upstream : IdSet}
    {state : ConditionValues F × List Refusal} (entry : (Id × Id) × List (Entry F))
    (h : Evaluated ctx state.1) : Evaluated ctx (evaluatePoint ctx attempts upstream state entry).1 := by
  unfold evaluatePoint
  split_ifs with hcomplete
  · cases hpoint : pointDocument? ctx.plan entry.1.1 entry.1.2 with
    | none => exact h
    | some point =>
      dsimp only
      cases hgroup : evaluatePointGroup point entry.2 ctx.plan ctx.corner upstream with
      | error text => exact h
      | ok values =>
        intro key found hget
        rw [InsertionDict.get?_set] at hget
        by_cases hkey : key = entry.1
        · rw [if_pos hkey] at hget
          obtain rfl := Option.some.inj hget
          obtain ⟨waveform, probes, lineage, hmeasured⟩ := evaluatePointGroup_measured hgroup
          exact ⟨point, waveform, probes, lineage, hkey ▸ hpoint, hmeasured⟩
        · rw [if_neg hkey] at hget
          exact h key found hget
  · exact h

theorem evaluateStage_evaluated {state : RunState F} (stageId : Id) (execution : Execution F)
    (h : Evaluated ctx state.conditionValues) :
    Evaluated ctx (evaluateStage ctx state stageId execution).conditionValues := by
  unfold evaluateStage
  dsimp only
  generalize state.refusals ++ execution.refusals = refusals
  have hfold : ∀ (entries : List ((Id × Id) × List (Entry F)))
      (start : ConditionValues F × List Refusal), Evaluated ctx start.1 → Evaluated ctx (entries.foldl
        (evaluatePoint ctx execution.attempts (state.upstreamLineage.at stageId)) start).1 := by
    intro entries
    induction entries with
    | nil => exact fun start hstart => hstart
    | cons entry rest ih =>
      intro start hstart
      rw [List.foldl_cons]
      exact ih _ (evaluatePoint_evaluated entry hstart)
  exact hfold _ _ h

theorem runStage_evaluated {state next : RunState F} {stage : Stage}
    (h : Evaluated ctx state.conditionValues) (hstep : runStage ctx state stage = .ok next) :
    Evaluated ctx next.conditionValues := by
  unfold runStage at hstep
  split_ifs at hstep with hempty
  · obtain rfl := Except.ok.inj hstep
    exact h
  · cases hcompile : compileStage ctx state stage with
    | error failure =>
      rw [hcompile] at hstep
      obtain rfl := Except.ok.inj hstep
      exact h
    | ok compilation =>
      rw [hcompile] at hstep
      unfold executeStage at hstep
      obtain ⟨_, _, hstep⟩ := Except.bind_eq_ok.mp hstep
      obtain ⟨dut, _, hstep⟩ := Except.bind_eq_ok.mp hstep
      obtain rfl := Except.ok.inj hstep
      exact evaluateStage_evaluated _ _ h

theorem runStages_evaluated {state : RunState F} (h : runStages ctx = .ok state) :
    Evaluated ctx state.conditionValues := by
  unfold runStages at h
  obtain ⟨stages, _, hrun⟩ := Except.bind_eq_ok.mp h
  refine Except.foldlM_spec (fun _ (state : RunState F) => Evaluated ctx state.conditionValues)
    ?_ ?_ hrun
  · exact fun _ stage state next hinv hstep => runStage_evaluated hinv hstep
  · intro key found hget
    rw [RunState.initial, InsertionDict.get?_empty] at hget
    cases hget

end Runs

end Windows

section Rules

variable {F : Type} {values : PointValues F} {measurementId : Id}

def ReadsMeasurement (rule : ValidityRule) (measurementId : Id) : Prop :=
  measurementId ∈ rule.body.subjects.map Prod.snd

theorem selectedValue_absent (h : values.get? measurementId = none) :
    selectedValue values measurementId = .error (.invalid "validity input is unavailable") := by
  unfold selectedValue
  rw [h]

variable [PyFloat F]

/-- A rule has no verdict of its own where one of its subjects has no value. -/
theorem validityHolds_absent {rule : ValidityRule} (plan : PlanDocument) (corner : Id)
    (habsent : values.get? measurementId = none) (hreads : ReadsMeasurement rule measurementId) :
    ∃ failure, validityHolds rule.body values plan corner = .error failure := by
  obtain ⟨id, body, reason⟩ := rule
  have hselect := selectedValue_absent habsent
  cases hholds : validityHolds body values plan corner with
  | error failure => exact ⟨failure, rfl⟩
  | ok passed =>
    exfalso
    unfold ReadsMeasurement at hreads
    cases body with
    | pulseCount => cases hholds
    | finite measurementIds =>
      obtain ⟨selected, hselected, _⟩ := Except.bind_eq_ok.mp hholds
      have hmem : measurementId ∈ measurementIds := by
        simp only [ValidityBody.subjects, List.mem_map, List.mem_mapIdx] at hreads
        obtain ⟨_, ⟨index, hindex, rfl⟩, rfl⟩ := hreads
        exact List.getElem_mem hindex
      obtain ⟨_, _, hvalue⟩ := Except.exists_mem_of_mapM hselected hmem
      rw [hselect] at hvalue
      cases hvalue
    | r2 subject minimum =>
      obtain rfl : measurementId = subject := by simpa [ValidityBody.subjects] using hreads
      obtain ⟨_, hvalue, _⟩ := Except.bind_eq_ok.mp hholds
      rw [hselect] at hvalue
      cases hvalue
    | threshold subject comparison value =>
      obtain rfl : measurementId = subject := by simpa [ValidityBody.subjects] using hreads
      obtain ⟨_, hvalue, _⟩ := Except.bind_eq_ok.mp hholds
      rw [hselect] at hvalue
      cases hvalue
    | settlingDelta first second maximum =>
      obtain ⟨_, hleft, hholds⟩ := Except.bind_eq_ok.mp hholds
      obtain ⟨_, hright, _⟩ := Except.bind_eq_ok.mp hholds
      have hsubject : measurementId = first ∨ measurementId = second := by
        simpa [ValidityBody.subjects] using hreads
      rcases hsubject with rfl | rfl
      · rw [hselect] at hleft
        cases hleft
      · rw [hselect] at hright
        cases hright
    | monotonicity =>
      obtain ⟨_, _, hholds⟩ := Except.bind_eq_ok.mp hholds
      cases hholds
    | singleSignChange =>
      obtain ⟨_, _, hholds⟩ := Except.bind_eq_ok.mp hholds
      cases hholds
    | crossings =>
      obtain ⟨_, _, hholds⟩ := Except.bind_eq_ok.mp hholds
      cases hholds
    | unityCrossing =>
      obtain ⟨_, _, hholds⟩ := Except.bind_eq_ok.mp hholds
      cases hholds

theorem pointRuleVerdict_absent {ctx : OutputContext F} {key : Id × Id} {rule : ValidityRule}
    (habsent : (valuesAt ctx.values key).get? measurementId = none)
    (hreads : ReadsMeasurement rule measurementId) :
    ∃ reason, (pointRuleVerdict ctx key rule).1 = unknownVerdict reason := by
  unfold pointRuleVerdict
  cases hattempt : (attemptsAt ctx.attempts key).find? fun a => decide (a.status ≠ .completed) with
  | some attempt => exact ⟨attempt.reason, rfl⟩
  | none =>
    obtain ⟨failure, hfailure⟩ := validityHolds_absent ctx.plan ctx.corner habsent hreads
    have hevaluate : evaluateValidityRule rule (valuesAt ctx.values key) ctx.plan ctx.corner =
        .error failure := by
      unfold evaluateValidityRule
      rw [hfailure]
      rfl
    dsimp only
    rw [hevaluate]
    exact ⟨_, rfl⟩

end Rules

/-- The contract of a fit's minimum in a finished stage loop: a value stands on a curve with
enough samples inside the window, and without a value every rule that reads the fit is unknown. -/
structure HonoursMinimum {F : Type} [PyFloat F] (out : OutputContext F) (stageId : Id)
    (point : ConditionPoint) (fitId parentId : Id) (window : Window) (minimum : ℕ) : Prop where
  enough : ∀ item, (valuesAt out.values (stageId, point.id)).get? fitId = some item →
    ∃ x y conditionIds, (valuesAt out.values (stageId, point.id)).get? parentId =
      some ⟨.curve x y, conditionIds⟩ ∧ minimum ≤ samplesInside window x
  unknown : (valuesAt out.values (stageId, point.id)).get? fitId = none →
    ∀ rule ∈ point.validityRules, ReadsMeasurement rule fitId → ∃ verdict reason,
      (ruleScan out).verdicts.get? (.point stageId point.id rule.id) = some verdict ∧
        verdict.verdict = unknownVerdict reason

def EnoughOrRefused {F : Type} [PyFloat F] (window : Window) (minimum : ℕ) (x y : List F) : Prop :=
  minimum ≤ samplesInside window x ∨ ¬Fittable window x y

/-- The values of a selected point in a finished stage loop: none, or those of its measurements. -/
theorem runStages_values {F : Type} [PyFloat F] (plan : PreparedPlan F) {ctx : RunContext F}
    (hplan : ctx.plan = plan.document) {state : RunState F} (hrun : runStages ctx = .ok state)
    {stage : Stage} (hs : stage ∈ plan.document.stages) {point : ConditionPoint}
    (hp : point ∈ stage.points) {values : PointValues F}
    (hvalues : state.conditionValues.get? (stage.id, point.id) = some values) :
    ∃ waveform probes lineage, evaluateMeasurements point.measurements waveform ctx.plan ctx.corner
      probes lineage = .ok values := by
  have hacc := accepted_iff.mp plan.accepted
  obtain ⟨point', waveform, probes, lineage, hpoint, hmeasured⟩ :=
    runStages_evaluated hrun _ _ hvalues
  rw [hplan] at hpoint
  obtain ⟨stage', hs', hsid, hp', hpid⟩ := pointDocument?_declared hpoint
  obtain rfl : stage' = stage := List.inj_on_of_nodup_map
    (stage_ids_nodup (validateStages_clean hacc.stages).1) hs' hs hsid
  obtain rfl : point' = point := List.inj_on_of_nodup_map (point_ids_nodup hacc hs') hp' hp hpid
  exact ⟨waveform, probes, lineage, hmeasured⟩

/-- A fit of a run keeps its declared minimum exactly where every curve stored for it has enough
samples inside the window. The runner itself never reads the minimum. -/
theorem run_honours_iff {F : Type} [PyFloat F] (plan : PreparedPlan F) {ctx : RunContext F}
    (hplan : ctx.plan = plan.document) {state : RunState F} (hrun : runStages ctx = .ok state)
    {stage : Stage} (hs : stage ∈ plan.document.stages) {point : ConditionPoint}
    (hp : point ∈ selectedPoints stage ctx.corner) {fit : Measurement}
    (hfit : fit ∈ point.measurements) {parentId : Id} {window : Window} {minimum : ℕ}
    (hbody : fit.body = .linearFit parentId window minimum) :
    HonoursMinimum (outputContext ctx state) stage.id point fit.id parentId window minimum ↔
      ∀ x y conditionIds, (valuesAt state.conditionValues (stage.id, point.id)).get? parentId =
        some ⟨.curve x y, conditionIds⟩ → EnoughOrRefused window minimum x y := by
  have hacc := accepted_iff.mp plan.accepted
  have hmem : point ∈ stage.points := List.mem_of_mem_filter hp
  have hstored : ∀ id item,
      (valuesAt state.conditionValues (stage.id, point.id)).get? id = some item →
      StandsOn (valuesAt state.conditionValues (stage.id, point.id)) parentId window ∧
        ∃ found, (valuesAt state.conditionValues (stage.id, point.id)).get? fit.id = some found := by
    intro id item hget
    unfold valuesAt at hget ⊢
    cases hvalues : state.conditionValues.get? (stage.id, point.id) with
    | none =>
      rw [hvalues, Option.getD_none, InsertionDict.get?_empty] at hget
      cases hget
    | some values =>
      obtain ⟨waveform, probes, lineage, hmeasured⟩ :=
        runStages_values plan hplan hrun hs hmem hvalues
      obtain ⟨hkeys, hfits⟩ :=
        evaluateMeasurements_stores (measurement_ids_nodup hacc hs hmem) hmeasured
      refine ⟨hfits fit hfit parentId window minimum hbody, ?_⟩
      exact InsertionDict.mem_keys_iff.mp ((hkeys fit.id).mpr (List.mem_map_of_mem hfit))
  constructor
  · intro h x y conditionIds hcurve
    obtain ⟨_, found, hfound⟩ := hstored parentId _ hcurve
    obtain ⟨x', y', ids', hcurve', henough⟩ := h.enough found hfound
    rw [show (outputContext ctx state).values = state.conditionValues from rfl, hcurve] at hcurve'
    injection hcurve' with hitem
    injection hitem with hvalue
    injection hvalue with hx
    exact .inl (hx ▸ henough)
  · intro h
    refine ⟨?_, ?_⟩
    · intro item hitem
      obtain ⟨⟨x, y, conditionIds, hcurve, hfittable⟩, _⟩ := hstored fit.id item hitem
      rcases h x y conditionIds hcurve with henough | hrefused
      · exact ⟨x, y, conditionIds, hcurve, henough⟩
      · exact absurd hfittable hrefused
    · intro habsent rule hrule hreads
      obtain ⟨reason, hreason⟩ := pointRuleVerdict_absent habsent hreads
      have hdeclared : stage ∈ ctx.plan.stages := by
        rw [hplan]
        exact hs
      have hentry : (ruleScan (outputContext ctx state)).verdicts.get?
          (.point stage.id point.id rule.id) =
          some (pointRuleEntry (outputContext ctx state) (stage.id, point.id) rule).2 :=
        ruleScan_point hplan hdeclared hp hrule
      exact ⟨_, reason, hentry, hreason⟩

section Specimen

/-- A fit that asks for nine samples of the four-sample specimen waveform. -/
def sparseFit : Measurement where
  id := "fit"
  unit := .VPerS
  body := .linearFit "wave" ⟨literalSource 0 .s, literalSource 8 .s⟩ 9

def sparsePoint : ConditionPoint :=
  specimenPoint specimenAnalysis [specimenWave, sparseFit] [specimenRule]

def sparsePlan : PlanDocument :=
  specimenPlan [specimenStage "first" [] [] sparsePoint] []
    [⟨"wave", .measurement "first" "p" "wave", .V, .curve⟩]

def sparseContext : RunContext ℚ := specimenContext sparsePlan fun _ => .returned specimenExecution

/-- What a run stored for the fit and how many samples its curve has inside the window. -/
def sparseOutcome (state : RunState ℚ) : Bool × Option ℕ :=
  let values := valuesAt state.conditionValues ("first", "p")
  ((values.get? "fit").isSome,
    (values.get? "wave").bind fun item => match item.value with
      | .curve x _ => some (samplesInside ⟨literalSource 0 .s, literalSource 8 .s⟩ x)
      | _ => none)

end Specimen

end OpenADA.Runner
