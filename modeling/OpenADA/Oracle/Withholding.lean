import OpenADA.Oracle.Rows

/-! What the status of a comparison means, and what a document gains by withholding verdicts and
observables. -/
namespace OpenADA.Oracle

open OpenADA.Plan (sortedNames)

variable {F : Type} [PyFloat F]

section Withheld

variable {observed observed' oracle : Document F}

/-- A document with some verdicts replaced by unknown ones or removed, and some observables
removed. -/
structure Withheld (observed observed' : Document F) : Prop where
  corner : observed'.corner = observed.corner
  metadata : observed'.metadata = observed.metadata
  verdict : ∀ name, observed'.validity.get? name = observed.validity.get? name ∨
    classifyValidity (observed'.validity.get? name) = .unknown
  observable : ∀ name, observed'.observables.get? name = observed.observables.get? name ∨
    observed'.observables.get? name = none

omit [PyFloat F] in
theorem countNames_eq {holds : String → Bool}
    (h : ∀ name, holds name = true → name ∈ oracle.validity.keys) :
    countNames (verdictNames observed oracle) holds =
      (oracle.validity.keys.toFinset.filter fun name => holds name = true).card := by
  have hnodup : (verdictNames observed oracle).Nodup := by
    unfold verdictNames sortedNames
    exact (List.perm_insertionSort _ _).nodup_iff.mpr (List.nodup_dedup _)
  unfold countNames
  rw [← List.toFinset_card_of_nodup (hnodup.filter _)]
  congr 1
  ext name
  rw [List.mem_toFinset, List.mem_filter, Finset.mem_filter, List.mem_toFinset, verdictNames,
    sortedNames, List.mem_insertionSort, List.mem_dedup, List.mem_append]
  constructor
  · exact fun hname => ⟨h name hname.2, hname.2⟩
  · exact fun hname => ⟨Or.inr hname.1, hname.2⟩

omit [PyFloat F] in
theorem mem_keys_of_known {name : String} (h : submittedClass oracle name ≠ .unknown) :
    name ∈ oracle.validity.keys := by
  by_contra hname
  refine h ?_
  rw [submittedClass, InsertionDict.get?_eq_none_iff.mpr hname]
  rfl

omit [PyFloat F] in
theorem Withheld.submitted (h : Withheld observed observed') {name : String}
    (hknown : submittedClass observed' name ≠ .unknown) :
    submittedClass observed' name = submittedClass observed name := by
  rcases h.verdict name with hsame | hunknown
  · rw [submittedClass, submittedClass, hsame]
  · exact absurd hunknown hknown

omit [PyFloat F] in
/-- Withholding leaves what the oracle holds invalid, and detects and mistakes no more of it. -/
theorem Withheld.counts (h : Withheld observed observed') (oracle : Document F) :
    (validityCounts observed' oracle).oracleInvalid =
        (validityCounts observed oracle).oracleInvalid ∧
      (validityCounts observed' oracle).detectedInvalid ≤
        (validityCounts observed oracle).detectedInvalid ∧
      (validityCounts observed' oracle).falseValid ≤
        (validityCounts observed oracle).falseValid := by
  have hinvalid {name : String} (hclass : submittedClass oracle name = .invalid) :
      name ∈ oracle.validity.keys := mem_keys_of_known (by rw [hclass]; decide)
  refine ⟨?_, ?_, ?_⟩
  · unfold validityCounts
    dsimp only
    rw [countNames_eq, countNames_eq]
    · exact fun name hname => hinvalid (of_decide_eq_true hname)
    · exact fun name hname => hinvalid (of_decide_eq_true hname)
  · unfold validityCounts
    dsimp only
    rw [countNames_eq, countNames_eq]
    · refine Finset.card_le_card fun name hname => ?_
      rw [Finset.mem_filter, decide_eq_true_eq] at hname ⊢
      refine ⟨hname.1, hname.2.1, ?_⟩
      rw [← h.submitted (by rw [hname.2.2]; decide)]
      exact hname.2.2
    · exact fun name hname => hinvalid (of_decide_eq_true hname).1
    · exact fun name hname => hinvalid (of_decide_eq_true hname).1
  · unfold validityCounts
    dsimp only
    rw [countNames_eq, countNames_eq]
    · refine Finset.card_le_card fun name hname => ?_
      rw [Finset.mem_filter, decide_eq_true_eq] at hname ⊢
      refine ⟨hname.1, ?_, hname.2.2⟩
      rw [← h.submitted (by rw [hname.2.1]; decide)]
      exact hname.2.1
    · exact fun name hname => hinvalid (of_decide_eq_true hname).2
    · exact fun name hname => hinvalid (of_decide_eq_true hname).2

omit [PyFloat F] in
theorem Withheld.mem_keys (h : Withheld observed observed') {name : String}
    (hname : name ∈ observed'.observables.keys) : name ∈ observed.observables.keys := by
  obtain ⟨value, hvalue⟩ := InsertionDict.mem_keys_iff.mp hname
  rcases h.observable name with hsame | hnone
  · exact InsertionDict.mem_keys_iff.mpr ⟨value, hsame ▸ hvalue⟩
  · rw [hnone] at hvalue
    cases hvalue

def CoveredBy (coverage coverage' : Option Coverage) : Prop :=
  ∀ found' ∈ coverage', ∃ found ∈ coverage,
    found'.total = found.total ∧ found'.covered ≤ found.covered

theorem tally_mono {α : Type} {items : List α} {holds holds' : α → Bool} {label : α → String}
    (h : ∀ item, holds' item = true → holds item = true) :
    (tally items holds' label).total = (tally items holds label).total ∧
      (tally items holds' label).covered ≤ (tally items holds label).covered :=
  ⟨rfl, (List.monotone_filter_right items h).length_le⟩

omit [PyFloat F] in
theorem Withheld.conditionCoverage (h : Withheld observed observed')
    (observables conditions : List String) :
    CoveredBy (Oracle.conditionCoverage observed observables conditions)
      (Oracle.conditionCoverage observed' observables conditions) := by
  intro found' hfound'
  obtain ⟨metadata, hmetadata, rfl⟩ := Option.map_eq_some_iff.mp hfound'
  refine ⟨_, Option.map_eq_some_iff.mpr ⟨metadata, h.metadata ▸ hmetadata, rfl⟩, tally_mono ?_⟩
  intro pair hpair
  rw [pairPresent, Bool.and_eq_true, decide_eq_true_eq, h.corner] at hpair
  rw [pairPresent, Bool.and_eq_true, decide_eq_true_eq]
  exact ⟨h.mem_keys hpair.1, hpair.2⟩

omit [PyFloat F] in
theorem Withheld.lineageCoverage (h : Withheld observed observed')
    (observables conditions : List String) :
    CoveredBy (Oracle.lineageCoverage observed observables (some conditions))
      (Oracle.lineageCoverage observed' observables (some conditions)) := by
  intro found' hfound'
  obtain ⟨metadata, hmetadata, rfl⟩ := Option.map_eq_some_iff.mp hfound'
  refine ⟨_, Option.map_eq_some_iff.mpr ⟨metadata, h.metadata ▸ hmetadata, rfl⟩, tally_mono ?_⟩
  intro pair hpair
  rw [pairLinked, Bool.and_eq_true, Bool.and_eq_true, decide_eq_true_eq] at hpair
  rw [pairLinked, Bool.and_eq_true, Bool.and_eq_true, decide_eq_true_eq]
  exact ⟨⟨h.mem_keys hpair.1.1, hpair.1.2⟩, hpair.2⟩

omit [PyFloat F] in
theorem Withheld.lineage_eq (h : Withheld observed observed') {names : List String}
    (hnames : ∀ name ∈ names, observed'.observables.get? name = observed.observables.get? name) :
    Oracle.lineageCoverage observed' names none = Oracle.lineageCoverage observed names none := by
  unfold Oracle.lineageCoverage
  rw [h.metadata]
  refine congrArg (Option.map · observed.metadata) (funext fun metadata => ?_)
  have hholds : ∀ name ∈ names,
      lineageAgrees observed' metadata name = lineageAgrees observed metadata name := by
    intro name hname
    have hkeys : name ∈ observed'.observables.keys ↔ name ∈ observed.observables.keys := by
      rw [InsertionDict.mem_keys_iff, InsertionDict.mem_keys_iff, hnames name hname]
    unfold lineageAgrees
    rw [decide_eq_decide, hkeys]
  show tally names (lineageAgrees observed' metadata) id =
    tally names (lineageAgrees observed metadata) id
  unfold tally
  rw [List.filter_congr hholds,
    List.filter_congr fun name hname => congrArg (!·) (hholds name hname)]

def RowBody.countsEvidence : RowBody F → Bool
  | .invalidDetectionRecall | .completeness .. | .lineagePresence .. => true
  | _ => false

def RowBody.isFalseValid : RowBody F → Bool
  | .falseValidRate => true
  | _ => false

/-- What withholding does to a row: a count of evidence does not rise, and every other row but the
false-valid rate stays or becomes unknown. -/
structure RowWithheld (result result' : RowResult F) : Prop where
  row : result'.row = result.row
  counts : result.row.body.countsEvidence = true → ∀ value', result'.value = some value' →
    ∃ value, result.value = some value ∧ PyFloat.le value' value = true
  others : result.row.body.countsEvidence = false → result.row.body.isFalseValid = false →
    result' = result ∨ result'.status = .unknown ∧ result'.value = none

variable {row : Row F} {result result' : RowResult F}

theorem ReportsRatio.le_of_le (laws : FloatOrder F) {numerator numerator' denominator : ℕ}
    (h : ReportsRatio row numerator denominator result)
    (h' : ReportsRatio row numerator' denominator result') (hle : numerator' ≤ numerator)
    {value' : F} (hvalue : result'.value = some value') :
    ∃ value, result.value = some value ∧ PyFloat.le value' value = true := by
  rcases h' with ⟨-, reason, rfl⟩ | ⟨found', reason', details', hratio', hfraction', -, rfl⟩
  · cases hvalue
  · have hpos : denominator ≠ 0 := by
      rintro rfl
      cases hratio'
    rcases h with ⟨hzero, -⟩ | ⟨found, reason, details, hratio, hfraction, -, rfl⟩
    · exact absurd hzero hpos
    · have hfinite {v : F} (hv : IsFraction v) := laws.finite_of_fraction v hv.1 hv.2
      unfold measured at hvalue ⊢
      rw [if_pos (hfinite hfraction')] at hvalue
      rw [if_pos (hfinite hfraction)]
      refine ⟨found, rfl, ?_⟩
      rw [← Option.some.inj hvalue]
      unfold ratio at hratio hratio'
      rw [if_neg hpos] at hratio hratio'
      rw [← Except.ok.inj hratio, ← Except.ok.inj hratio']
      refine laws.ofRat_le _ _ ?_
      gcongr

theorem ReportsCoverage.le_of_coveredBy (laws : FloatOrder F) {coverage coverage' : Option Coverage}
    (h : ReportsCoverage row coverage result) (h' : ReportsCoverage row coverage' result')
    (hcovered : CoveredBy coverage coverage') {value' : F} (hvalue : result'.value = some value') :
    ∃ value, result.value = some value ∧ PyFloat.le value' value = true := by
  rcases h' with ⟨-, reason, rfl⟩ | ⟨found', rfl, h'⟩
  · cases hvalue
  · obtain ⟨found, hfound, htotal, hle⟩ := hcovered found' rfl
    rcases h with ⟨hnone, -⟩ | ⟨found, rfl, h⟩
    · rw [hnone] at hfound
      cases hfound
    · obtain rfl := Option.some.inj hfound
      rw [htotal] at h'
      exact h.le_of_le laws h' hle hvalue

theorem evaluateRow_eq (hnumeric : row.body.isNumeric = true)
    (hnames : ∀ name ∈ row.body.observables,
      observed'.observables.get? name = observed.observables.get? name) :
    evaluateRow row observed' oracle = evaluateRow row observed oracle := by
  have hread (name : String) (hname : name ∈ row.body.observables) :
      observableOf observed' name = observableOf observed name := by
    rw [observableOf, observableOf, hnames name hname]
  unfold evaluateRow
  cases hbody : row.body with
  | scalar left right error =>
    dsimp only
    rw [hread left (by rw [hbody]; exact List.mem_singleton_self left)]
  | curve left right x y error =>
    dsimp only
    rw [hread left (by rw [hbody]; exact List.mem_singleton_self left)]
  | mismatchCurve observedSource observedSink oracleSource oracleSink floor positive =>
    dsimp only
    rw [hread observedSource (by rw [hbody]; simp [RowBody.observables]),
      hread observedSink (by rw [hbody]; simp [RowBody.observables])]
  | complianceEndpoints left right =>
    dsimp only
    rw [hread left (by rw [hbody]; exact List.mem_singleton_self left)]
  | signedResponseCoverage left right x y epsilon =>
    dsimp only
    rw [hread left (by rw [hbody]; exact List.mem_singleton_self left)]
  | _ =>
    rw [hbody] at hnumeric
    cases hnumeric

theorem evaluateRow_removed (laws : FloatOrder F) (hguard : row.body.Guarded)
    (hnumeric : row.body.isNumeric = true) {name : String} (hname : name ∈ row.body.observables)
    (hnone : observed'.observables.get? name = none)
    (h : evaluateRow row observed' oracle = .ok result) :
    ∃ reason, result = unknown row reason := by
  have hnull : observableOf observed' name = .null := by
    rw [observableOf, hnone]
    rfl
  unfold evaluateRow at h
  cases hbody : row.body with
  | scalar left right error =>
    rw [hbody] at hname h
    obtain rfl := List.mem_singleton.mp hname
    dsimp only at h
    rw [hnull] at h
    exact ⟨_, (Except.ok.inj h).symm⟩
  | curve left right x y error =>
    rw [hbody] at hname h
    obtain rfl := List.mem_singleton.mp hname
    dsimp only at h
    rw [hnull] at h
    exact ⟨_, (Except.ok.inj h).symm⟩
  | mismatchCurve observedSource observedSink oracleSource oracleSink floor positive =>
    rw [hbody] at hname h hguard
    have hmissing : mismatchValues (observableOf observed' observedSource)
        (observableOf observed' observedSink) floor = .ok none := by
      have hnames : name = observedSource ∨ name = observedSink := by
        simpa [RowBody.observables] using hname
      unfold mismatchValues
      rcases hnames with rfl | rfl
      · rw [hnull]
        rfl
      · rw [hnull]
        cases numbers (observableOf observed' observedSource) <;> rfl
    obtain ⟨oracleValues, horacle, -⟩ := mismatchValues_ok laws positive hguard
      (observableOf oracle oracleSource) (observableOf oracle oracleSink)
    dsimp only at h
    unfold mismatchRow at h
    rw [hmissing, Except.ok_bind, horacle, Except.ok_bind] at h
    exact ⟨_, (Except.ok.inj h).symm⟩
  | complianceEndpoints left right =>
    rw [hbody] at hname h
    obtain rfl := List.mem_singleton.mp hname
    dsimp only at h
    rw [hnull] at h
    exact ⟨_, (Except.ok.inj h).symm⟩
  | signedResponseCoverage left right x y epsilon =>
    rw [hbody] at hname h
    obtain rfl := List.mem_singleton.mp hname
    dsimp only at h
    rw [hnull] at h
    exact ⟨_, (Except.ok.inj h).symm⟩
  | _ =>
    rw [hbody] at hnumeric
    cases hnumeric

theorem compareRow_numeric (laws : FloatOrder F) {tolerances : Tolerances F}
    (hguard : row.body.Guarded) (hwithheld : Withheld observed observed')
    (hnumeric : row.body.isNumeric = true)
    (h : compareRow tolerances observed oracle row = .ok result)
    (h' : compareRow tolerances observed' oracle row = .ok result') :
    result' = result ∨ ∃ reason, result' = unknown row reason := by
  by_cases hnames : ∀ name ∈ row.body.observables,
      observed'.observables.get? name = observed.observables.get? name
  · have hsame : compareRow tolerances observed' oracle row =
        compareRow tolerances observed oracle row := by
      unfold compareRow requireLineage
      rw [hwithheld.corner, evaluateRow_eq hnumeric hnames, hwithheld.lineage_eq hnames]
    rw [hsame, h] at h'
    exact Or.inl (Except.ok.inj h').symm
  · push Not at hnames
    obtain ⟨name, hname, hne⟩ := hnames
    have hnone := (hwithheld.observable name).resolve_left hne
    rcases compareRow_cases h' with hunknown | hevaluated
    · exact Or.inr hunknown
    · exact Or.inr (evaluateRow_removed laws hguard hnumeric hname hnone hevaluated)

theorem evaluateRow_counts (laws : FloatOrder F) (hwithheld : Withheld observed observed')
    (hcount : row.body.countsEvidence = true) (h : evaluateRow row observed oracle = .ok result)
    (h' : evaluateRow row observed' oracle = .ok result') {value' : F}
    (hvalue : result'.value = some value') :
    ∃ value, result.value = some value ∧ PyFloat.le value' value = true := by
  unfold evaluateRow at h h'
  cases hbody : row.body with
  | invalidDetectionRecall =>
    rw [hbody] at h h'
    obtain ⟨found, hfound, hreports⟩ := validityRow_reports laws row
      (validityCounts observed oracle) (detected_le observed oracle)
      "oracle-invalid declarations" "invalid recall uses oracle-invalid as its denominator"
    obtain ⟨found', hfound', hreports'⟩ := validityRow_reports laws row
      (validityCounts observed' oracle) (detected_le observed' oracle)
      "oracle-invalid declarations" "invalid recall uses oracle-invalid as its denominator"
    obtain rfl := Except.ok.inj (hfound.symm.trans h)
    obtain rfl := Except.ok.inj (hfound'.symm.trans h')
    obtain ⟨htotal, hle, -⟩ := hwithheld.counts oracle
    rw [htotal] at hreports'
    exact hreports.le_of_le laws hreports' hle hvalue
  | completeness observables conditions =>
    rw [hbody] at h h'
    obtain ⟨found, hfound, hreports⟩ :=
      completenessRow_reports laws row observed observables conditions
    obtain ⟨found', hfound', hreports'⟩ :=
      completenessRow_reports laws row observed' observables conditions
    obtain rfl := Except.ok.inj (hfound.symm.trans h)
    obtain rfl := Except.ok.inj (hfound'.symm.trans h')
    exact hreports.le_of_coveredBy laws hreports'
      (hwithheld.conditionCoverage observables conditions) hvalue
  | lineagePresence observables conditions =>
    rw [hbody] at h h'
    obtain ⟨found, hfound, hreports⟩ := lineageRow_reports laws row observed observables conditions
    obtain ⟨found', hfound', hreports'⟩ :=
      lineageRow_reports laws row observed' observables conditions
    obtain rfl := Except.ok.inj (hfound.symm.trans h)
    obtain rfl := Except.ok.inj (hfound'.symm.trans h')
    exact hreports.le_of_coveredBy laws hreports'
      (hwithheld.lineageCoverage observables conditions) hvalue
  | _ =>
    rw [hbody] at hcount
    cases hcount

theorem evaluateRow_runtime (hwithheld : Withheld observed observed')
    (hnumeric : row.body.isNumeric = false) (hcount : row.body.countsEvidence = false)
    (hfalse : row.body.isFalseValid = false) :
    evaluateRow row observed' oracle = evaluateRow row observed oracle := by
  unfold evaluateRow
  cases hbody : row.body with
  | gradingRuntime =>
    dsimp only
    unfold runtimeRow
    rw [hwithheld.metadata]
  | falseValidRate =>
    rw [hbody] at hfalse
    cases hfalse
  | invalidDetectionRecall =>
    rw [hbody] at hcount
    cases hcount
  | completeness observables conditions =>
    rw [hbody] at hcount
    cases hcount
  | lineagePresence observables conditions =>
    rw [hbody] at hcount
    cases hcount
  | _ =>
    rw [hbody] at hnumeric
    cases hnumeric

theorem isNumeric_of_counts (h : row.body.countsEvidence = true) : row.body.isNumeric = false := by
  cases hbody : row.body with
  | invalidDetectionRecall => rfl
  | completeness observables conditions => rfl
  | lineagePresence observables conditions => rfl
  | _ =>
    rw [hbody] at h
    cases h

/-- A row that is not numeric is unknown for another corner, or evaluated in both documents. -/
theorem compareRow_plain {tolerances : Tolerances F} (hwithheld : Withheld observed observed')
    (hnumeric : row.body.isNumeric = false)
    (h : compareRow tolerances observed oracle row = .ok result)
    (h' : compareRow tolerances observed' oracle row = .ok result') :
    (∃ reason, result' = unknown row reason) ∨
      evaluateRow row observed oracle = .ok result ∧
        evaluateRow row observed' oracle = .ok result' := by
  obtain ⟨found, hfound, hresult⟩ := compareRow_eq_ok.mp h
  obtain ⟨found', hfound', hresult'⟩ := compareRow_eq_ok.mp h'
  have hno (document : Document F) : ¬(tolerances.lineageRequired = true ∧
      row.body.isNumeric = true ∧ document.corner = oracle.corner) := by
    rw [hnumeric]
    exact fun hlineage => Bool.false_ne_true hlineage.2.1
  rw [if_neg (hno observed)] at hresult
  rw [if_neg (hno observed')] at hresult'
  rw [hresult, hresult']
  rw [hwithheld.corner] at hfound'
  by_cases hcorner : observed.corner ≠ oracle.corner ∧ row.body.oracleDependent = true
  · rw [if_pos hcorner] at hfound'
    exact Or.inl ⟨_, (Except.ok.inj hfound').symm⟩
  · rw [if_neg hcorner] at hfound hfound'
    exact Or.inr ⟨hfound, hfound'⟩

theorem compareRow_withheld (laws : FloatOrder F) {tolerances : Tolerances F}
    (hguard : row.body.Guarded) (hwithheld : Withheld observed observed')
    (h : compareRow tolerances observed oracle row = .ok result)
    (h' : compareRow tolerances observed' oracle row = .ok result') :
    RowWithheld result result' := by
  have hrow := (compareRow_reports laws hguard h).row_eq
  have hrow' := (compareRow_reports laws hguard h').row_eq
  have hunknown (hsame : result' = result ∨ ∃ reason, result' = unknown row reason) :
      result' = result ∨ result'.status = .unknown ∧ result'.value = none := by
    rcases hsame with hsame | ⟨reason, rfl⟩
    · exact Or.inl hsame
    · exact Or.inr ⟨rfl, rfl⟩
  refine ⟨hrow'.trans hrow.symm, fun hcount value' hvalue => ?_, fun hcount hfalse => ?_⟩
  · rw [hrow] at hcount
    rcases compareRow_plain hwithheld (isNumeric_of_counts hcount) h h' with
      ⟨reason, rfl⟩ | ⟨hok, hok'⟩
    · cases hvalue
    · exact evaluateRow_counts laws hwithheld hcount hok hok' hvalue
  · rw [hrow] at hcount hfalse
    by_cases hnumeric : row.body.isNumeric = true
    · exact hunknown (compareRow_numeric laws hguard hwithheld hnumeric h h')
    · rw [Bool.not_eq_true] at hnumeric
      rcases compareRow_plain hwithheld hnumeric h h' with hreason | ⟨hok, hok'⟩
      · exact hunknown (Or.inr hreason)
      · rw [evaluateRow_runtime hwithheld hnumeric hcount hfalse, hok] at hok'
        exact Or.inl (Except.ok.inj hok').symm

end Withheld

section Overall

variable {rows : List (RowResult F)} {cornerMatch : Bool}

theorem countRows_ne_zero {holds : RowResult F → Bool} :
    countRows rows holds ≠ 0 ↔ ∃ row ∈ rows, holds row = true := by
  rw [countRows, ← Nat.pos_iff_ne_zero, List.length_filter_pos_iff]

theorem overall_eq_fail_iff : overall (summary rows) cornerMatch = .fail ↔
    ∃ result ∈ rows, result.row.required = true ∧ result.status = .fail := by
  have hfail : (summary rows).requiredFail ≠ 0 ↔
      ∃ result ∈ rows, result.row.required = true ∧ result.status = .fail := by
    rw [summary, countRows_ne_zero]
    simp
  unfold overall
  by_cases hcount : (summary rows).requiredFail ≠ 0
  · rw [if_pos hcount]
    exact ⟨fun _ => hfail.mp hcount, fun _ => rfl⟩
  · rw [if_neg hcount]
    refine ⟨fun h => ?_, fun h => absurd (hfail.mpr h) hcount⟩
    by_cases hunknown : (summary rows).requiredUnknown ≠ 0 ∨ cornerMatch = false
    · rw [if_pos hunknown] at h
      cases h
    · rw [if_neg hunknown] at h
      cases h

theorem overall_eq_pass_iff : overall (summary rows) cornerMatch = .pass ↔
    cornerMatch = true ∧ ∀ result ∈ rows, result.row.required = true → result.status = .pass := by
  have hfail : (summary rows).requiredFail ≠ 0 ↔
      ∃ result ∈ rows, result.row.required = true ∧ result.status = .fail := by
    rw [summary, countRows_ne_zero]
    simp
  have hunknown : (summary rows).requiredUnknown ≠ 0 ↔
      ∃ result ∈ rows, result.row.required = true ∧ result.status = .unknown := by
    rw [summary, countRows_ne_zero]
    simp
  unfold overall
  constructor
  · intro h
    by_cases hcount : (summary rows).requiredFail ≠ 0
    · rw [if_pos hcount] at h
      cases h
    · rw [if_neg hcount] at h
      by_cases hrest : (summary rows).requiredUnknown ≠ 0 ∨ cornerMatch = false
      · rw [if_pos hrest] at h
        cases h
      · rw [not_or, Bool.not_eq_false] at hrest
        refine ⟨hrest.2, fun result hresult hrequired => ?_⟩
        cases hstatus : result.status with
        | pass => rfl
        | fail => exact absurd (hfail.mpr ⟨result, hresult, hrequired, hstatus⟩) hcount
        | unknown => exact absurd (hunknown.mpr ⟨result, hresult, hrequired, hstatus⟩) hrest.1
  · rintro ⟨hcorner, hall⟩
    rw [if_neg, if_neg]
    · rw [hunknown]
      rintro (⟨result, hresult, hrequired, hstatus⟩ | hfalse)
      · rw [hall result hresult hrequired] at hstatus
        cases hstatus
      · rw [hcorner] at hfalse
        cases hfalse
    · rw [hfail]
      rintro ⟨result, hresult, hrequired, hstatus⟩
      rw [hall result hresult hrequired] at hstatus
      cases hstatus

end Overall

section Sound

variable {tolerances : Tolerances F} {observed observed' oracle : Document F}
  {comparison comparison' : Comparison F}

theorem compareDocuments_eq_ok : compareDocuments tolerances observed oracle = .ok comparison ↔
    ∃ rows, List.Forall₂ (fun row result => compareRow tolerances observed oracle row = .ok result)
        tolerances.metrics rows ∧
      comparison = ⟨overall (summary rows) (decide (observed.corner = oracle.corner)),
        decide (observed.corner = oracle.corner), rows, validityCounts observed oracle,
        summary rows⟩ := by
  unfold compareDocuments
  rw [Except.bind_eq_ok]
  refine exists_congr fun rows => ?_
  rw [Except.mapM_eq_ok, Except.ok.injEq, eq_comm]

theorem compareTestbenchObservables_eq_ok {observedJson oracleJson tolerancesJson : Json F} :
    compareTestbenchObservables observedJson oracleJson tolerancesJson = .ok comparison ↔
      (strictJson observedJson "observed" = .ok () ∧ strictJson oracleJson "oracle" = .ok () ∧
        strictJson tolerancesJson "tolerances" = .ok ()) ∧
      ∃ observed oracle tolerances, document observedJson "observed" = .ok observed ∧
        document oracleJson "oracle" = .ok oracle ∧
        normalizeTolerances tolerancesJson = .ok tolerances ∧
        compareDocuments tolerances observed oracle = .ok comparison := by
  unfold compareTestbenchObservables
  simp only [Except.bind_eq_ok]
  constructor
  · rintro ⟨_, h1, _, h2, _, h3, observed, h4, oracle, h5, tolerances, h6, h⟩
    exact ⟨⟨h1, h2, h3⟩, observed, oracle, tolerances, h4, h5, h6, h⟩
  · rintro ⟨⟨h1, h2, h3⟩, observed, oracle, tolerances, h4, h5, h6, h⟩
    exact ⟨_, h1, _, h2, _, h3, observed, h4, oracle, h5, tolerances, h6, h⟩

theorem compareDocuments_ok (laws : FloatOrder F)
    (hguard : ∀ row ∈ tolerances.metrics, row.body.Guarded) (observed oracle : Document F) :
    ∃ comparison, compareDocuments tolerances observed oracle = .ok comparison := by
  obtain ⟨rows, hrows, -⟩ := Except.exists_mapM_ok fun row hrow =>
    compareRow_ok laws tolerances (hguard row hrow) observed oracle
  exact ⟨_, compareDocuments_eq_ok.mpr ⟨rows, Except.mapM_eq_ok.mp hrows, rfl⟩⟩

def FractionRows (rows : List (RowResult F)) : Prop :=
  ∀ result ∈ rows, FractionDetails result.details ∧
    (result.row.body.reportsFraction = true → ∀ value ∈ result.value, IsFraction value)

theorem fractionRows (laws : FloatOrder F) (hguard : ∀ row ∈ tolerances.metrics, row.body.Guarded)
    (h : compareDocuments tolerances observed oracle = .ok comparison) :
    FractionRows comparison.metrics := by
  obtain ⟨rows, hrows, rfl⟩ := compareDocuments_eq_ok.mp h
  intro result hresult
  obtain ⟨row, hrow, hcompare⟩ := Except.exists_of_mem_mapM (Except.mapM_eq_ok.mpr hrows) hresult
  have hreports := compareRow_reports laws (hguard row hrow) hcompare
  refine ⟨hreports.details, fun hfraction value hvalue => ?_⟩
  rw [hreports.row_eq] at hfraction
  exact (hreports.of_value hvalue).1 hfraction

theorem status_eq_pass (laws : FloatOrder F) {row : Row F} (hguard : row.body.Guarded)
    {result : RowResult F} (h : compareRow tolerances observed oracle row = .ok result) :
    result.status = .pass ↔
      ∃ value, result.value = some value ∧ verdict value row.limit = .pass := by
  have hreports := compareRow_reports laws hguard h
  cases hvalue : result.value with
  | none =>
    rw [hreports.of_none hvalue]
    constructor
    · intro hstatus
      cases hstatus
    · rintro ⟨value, hsome, -⟩
      cases hsome
  | some value =>
    rw [(hreports.of_value hvalue).2.2]
    constructor
    · exact fun hstatus => ⟨value, rfl, hstatus⟩
    · rintro ⟨found, hsome, hstatus⟩
      rw [Option.some.inj hsome]
      exact hstatus

theorem verdict_atLeast (laws : FloatOrder F) {limit : Limit F} (hop : limit.op = .atLeast)
    {value value' : F} (hle : PyFloat.le value' value = true)
    (h : verdict value' limit = .pass) : verdict value limit = .pass := by
  unfold verdict at h ⊢
  rw [hop] at h ⊢
  dsimp only at h ⊢
  by_cases hlimit : PyFloat.le limit.value value' = true
  · rw [if_pos (laws.le_trans _ _ _ hlimit hle)]
  · rw [if_neg hlimit] at h
    cases h

theorem pass_of_withheld (laws : FloatOrder F) {row : Row F} (hguard : row.body.Guarded)
    (hwithheld : Withheld observed observed') {result result' : RowResult F}
    (h : compareRow tolerances observed oracle row = .ok result)
    (h' : compareRow tolerances observed' oracle row = .ok result')
    (hfalse : row.body.isFalseValid = false)
    (hop : row.body.countsEvidence = true → row.limit.op = .atLeast)
    (hpass : result'.status = .pass) : result.status = .pass := by
  have hrows := compareRow_withheld laws hguard hwithheld h h'
  have hrow := (compareRow_reports laws hguard h).row_eq
  by_cases hcount : row.body.countsEvidence = true
  · obtain ⟨value', hvalue', hverdict⟩ := (status_eq_pass laws hguard h').mp hpass
    obtain ⟨value, hvalue, hle⟩ := hrows.counts (by rw [hrow]; exact hcount) value' hvalue'
    exact (status_eq_pass laws hguard h).mpr
      ⟨value, hvalue, verdict_atLeast laws (hop hcount) hle hverdict⟩
  · rw [Bool.not_eq_true] at hcount
    rcases hrows.others (by rw [hrow]; exact hcount) (by rw [hrow]; exact hfalse) with
      hsame | ⟨hunknown, -⟩
    · rw [← hsame]
      exact hpass
    · rw [hunknown] at hpass
      cases hpass

structure ComparisonWithheld (comparison comparison' : Comparison F) : Prop where
  corner : comparison'.cornerMatch = comparison.cornerMatch
  rows : List.Forall₂ RowWithheld comparison.metrics comparison'.metrics
  oracleInvalid : comparison'.validity.oracleInvalid = comparison.validity.oracleInvalid
  detectedInvalid : comparison'.validity.detectedInvalid ≤ comparison.validity.detectedInvalid
  falseValid : comparison'.validity.falseValid ≤ comparison.validity.falseValid
  pass : (∀ result ∈ comparison.metrics, result.row.required = true →
    result.row.body.isFalseValid = false ∧
      (result.row.body.countsEvidence = true → result.row.limit.op = .atLeast)) →
    comparison'.status = .pass → comparison.status = .pass

theorem forall₂_join {α β γ : Type} {R : α → β → Prop} {S : α → γ → Prop} {items : List α}
    {xs : List β} {ys : List γ} (hx : List.Forall₂ R items xs) (hy : List.Forall₂ S items ys) :
    List.Forall₂ (fun x y => ∃ a ∈ items, R a x ∧ S a y) xs ys := by
  induction hx generalizing ys with
  | nil =>
    rw [List.forall₂_nil_left_iff] at hy
    rw [hy]
    exact .nil
  | @cons a x items xs hfirst hrest ih =>
    obtain ⟨y, others, hsecond, hothers, rfl⟩ := List.forall₂_cons_left_iff.mp hy
    refine .cons ⟨a, List.mem_cons_self, hfirst, hsecond⟩ ((ih hothers).imp ?_)
    rintro x' y' ⟨b, hb, hboth⟩
    exact ⟨b, List.mem_cons_of_mem a hb, hboth⟩

theorem exists_of_forall₂ {β γ : Type} {R : β → γ → Prop} {xs : List β} {ys : List γ}
    (h : List.Forall₂ R xs ys) {x : β} (hx : x ∈ xs) : ∃ y ∈ ys, R x y := by
  induction h with
  | nil => exact absurd hx List.not_mem_nil
  | @cons first y xs ys hfirst _ ih =>
    rcases List.mem_cons.mp hx with rfl | hx
    · exact ⟨y, List.mem_cons_self, hfirst⟩
    · obtain ⟨found, hfound, hrel⟩ := ih hx
      exact ⟨found, List.mem_cons_of_mem y hfound, hrel⟩

theorem comparisonWithheld (laws : FloatOrder F)
    (hguard : ∀ row ∈ tolerances.metrics, row.body.Guarded)
    (hwithheld : Withheld observed observed')
    (h : compareDocuments tolerances observed oracle = .ok comparison)
    (h' : compareDocuments tolerances observed' oracle = .ok comparison') :
    ComparisonWithheld comparison comparison' := by
  obtain ⟨rows, hrows, rfl⟩ := compareDocuments_eq_ok.mp h
  obtain ⟨rows', hrows', rfl⟩ := compareDocuments_eq_ok.mp h'
  obtain ⟨htotal, hdetected, hfalse⟩ := hwithheld.counts oracle
  have hboth := forall₂_join hrows hrows'
  refine ⟨by rw [hwithheld.corner], ?_, htotal, hdetected, hfalse, fun hlimits hpass => ?_⟩
  · refine hboth.imp ?_
    rintro result result' ⟨row, hrow, hok, hok'⟩
    exact compareRow_withheld laws (hguard row hrow) hwithheld hok hok'
  · obtain ⟨hcorner, hall⟩ := overall_eq_pass_iff.mp hpass
    rw [hwithheld.corner] at hcorner
    refine overall_eq_pass_iff.mpr ⟨hcorner, fun result hresult hrequired => ?_⟩
    obtain ⟨result', hresult', row, hrow, hok, hok'⟩ := exists_of_forall₂ hboth hresult
    have heq := (compareRow_reports laws (hguard row hrow) hok).row_eq
    have heq' := (compareRow_reports laws (hguard row hrow) hok').row_eq
    obtain ⟨hfalse, hop⟩ := hlimits result hresult hrequired
    rw [heq] at hrequired hfalse hop
    exact pass_of_withheld laws (hguard row hrow) hwithheld hok hok' hfalse hop
      (hall result' hresult' (by rw [heq']; exact hrequired))

/-- What the status says, the fractions of the rows, that nothing else is raised, and what
withholding evidence does. -/
theorem compareTestbenchObservables_sound (laws : FloatOrder F)
    (oracleJson tolerancesJson : Json F) :
    (∀ observedJson, (strictJson observedJson "observed" = .ok () ∧
        strictJson oracleJson "oracle" = .ok () ∧
        strictJson tolerancesJson "tolerances" = .ok ()) →
      ∀ observed oracle tolerances, document observedJson "observed" = .ok observed →
        document oracleJson "oracle" = .ok oracle →
        normalizeTolerances tolerancesJson = .ok tolerances →
        ∃ comparison, compareTestbenchObservables observedJson oracleJson tolerancesJson =
          .ok comparison) ∧
    (∀ observedJson comparison,
      compareTestbenchObservables observedJson oracleJson tolerancesJson = .ok comparison →
      (comparison.status = .pass ↔ comparison.cornerMatch = true ∧
        ∀ result ∈ comparison.metrics, result.row.required = true → result.status = .pass) ∧
      (comparison.status = .fail ↔
        ∃ result ∈ comparison.metrics, result.row.required = true ∧ result.status = .fail) ∧
      FractionRows comparison.metrics) ∧
    ∀ observedJson observedJson' observed observed' comparison comparison',
      document observedJson "observed" = .ok observed →
      document observedJson' "observed" = .ok observed' → Withheld observed observed' →
      compareTestbenchObservables observedJson oracleJson tolerancesJson = .ok comparison →
      compareTestbenchObservables observedJson' oracleJson tolerancesJson = .ok comparison' →
      ComparisonWithheld comparison comparison' := by
  refine ⟨?_, ?_, ?_⟩
  · intro observedJson hjson observed oracle tolerances hobserved horacle htolerances
    obtain ⟨comparison, hok⟩ :=
      compareDocuments_ok laws (normalizeTolerances_guarded htolerances) observed oracle
    exact ⟨comparison, compareTestbenchObservables_eq_ok.mpr
      ⟨hjson, observed, oracle, tolerances, hobserved, horacle, htolerances, hok⟩⟩
  · intro observedJson comparison h
    obtain ⟨-, observed, oracle, tolerances, -, -, htolerances, hok⟩ :=
      compareTestbenchObservables_eq_ok.mp h
    have hfractions := fractionRows laws (normalizeTolerances_guarded htolerances) hok
    obtain ⟨rows, -, rfl⟩ := compareDocuments_eq_ok.mp hok
    exact ⟨overall_eq_pass_iff, overall_eq_fail_iff, hfractions⟩
  · intro observedJson observedJson' observed observed' comparison comparison' hobserved hobserved'
      hwithheld h h'
    obtain ⟨-, found, oracle, tolerances, hfound, horacle, htolerances, hok⟩ :=
      compareTestbenchObservables_eq_ok.mp h
    obtain ⟨-, found', oracle', tolerances', hfound', horacle', htolerances', hok'⟩ :=
      compareTestbenchObservables_eq_ok.mp h'
    obtain rfl := Except.ok.inj (hobserved.symm.trans hfound)
    obtain rfl := Except.ok.inj (hobserved'.symm.trans hfound')
    obtain rfl := Except.ok.inj (horacle.symm.trans horacle')
    obtain rfl := Except.ok.inj (htolerances.symm.trans htolerances')
    exact comparisonWithheld laws (normalizeTolerances_guarded htolerances) hwithheld hok hok'

end Sound

section Run

theorem ratOrder : FloatOrder ℚ where
  le_trans a b c hab hbc := decide_eq_true ((of_decide_eq_true hab).trans (of_decide_eq_true hbc))
  le_of_not_lt a b _ _ h := decide_eq_true (not_lt.mp (of_decide_eq_false h))
  ofRat_le a b h := decide_eq_true h
  finite_of_fraction _ _ _ := rfl
  abs_finite _ _ := rfl
  abs_nonneg a _ := decide_eq_true (abs_nonneg a)
  abs_sub_le a b _ _ ha hb := by
    have ha' : 0 ≤ a := of_decide_eq_true ha
    have hb' : 0 ≤ b := of_decide_eq_true hb
    refine ⟨decide_eq_true (abs_nonneg (a - b)), decide_eq_true ?_⟩
    show |a - b| ≤ if decide (a < b) = true then b else a
    by_cases hlt : a < b
    · rw [if_pos (decide_eq_true hlt), abs_sub_comm, abs_of_pos (sub_pos.mpr hlt)]
      linarith
    · rw [if_neg (by rw [decide_eq_true_eq]; exact hlt), abs_of_nonneg (by linarith)]
      linarith
  div_isSome a b hb := by
    have hpos : ¬b ≤ 0 := of_decide_eq_false hb
    show (if b = 0 then none else some (a / b)).isSome = true
    rw [if_neg (fun h => hpos h.le)]
    rfl
  div_fraction a b c ha hab _ hdiv := by
    have ha' : 0 ≤ a := of_decide_eq_true ha
    have hab' : a ≤ b := of_decide_eq_true hab
    have hdiv' : (if b = 0 then none else some (a / b)) = some c := hdiv
    by_cases hb : b = 0
    · rw [if_pos hb] at hdiv'
      cases hdiv'
    · rw [if_neg hb] at hdiv'
      rw [← Option.some.inj hdiv']
      exact ⟨decide_eq_true (div_nonneg ha' (ha'.trans hab')),
        decide_eq_true (div_le_one_of_le₀ hab' (ha'.trans hab'))⟩

def sizedDocument (verdicts : List (String × Json ℚ)) : Json ℚ :=
  .object [("sizing", .object [("topology", .str "ota"), ("parameters", .object [])]),
    ("corner", .str "tt"), ("validity", .object verdicts), ("observables", .object [])]

/-- A specification of one required row: at most a quarter of the submitted VALID verdicts false. -/
def falseValidSpec : Json ℚ :=
  .object [("schema", .str toleranceSchema),
    ("metrics", .array [.object [("name", .str "false_valid_rate"),
      ("kind", .str "false_valid_rate"), ("required", .bool true),
      ("limit", .object [("op", .str "<="), ("value", .float (1 / 4)), ("unit", .str "frac")]),
      ("denominator", .str "submitted_valid")]]),
    ("lineage_required", .bool false), ("extensions", .object [])]

/-- A candidate that withholds a false verdict passes where it failed. -/
theorem withheldVerdict_passes :
    (compareTestbenchObservables (sizedDocument [("gain", .str "VALID"), ("offset", .str "VALID")])
      (sizedDocument [("gain", .str "INVALID(design)"), ("offset", .str "VALID")])
      falseValidSpec).toOption.any (fun c => decide (c.status = .fail)) = true ∧
    (compareTestbenchObservables
      (sizedDocument [("gain", .str "UNKNOWN"), ("offset", .str "VALID")])
      (sizedDocument [("gain", .str "INVALID(design)"), ("offset", .str "VALID")])
      falseValidSpec).toOption.any (fun c => decide (c.status = .pass)) = true := by
  decide +kernel

/-- The comparison of that candidate. -/
theorem falseVerdict_compared : ∃ comparison,
    compareTestbenchObservables (sizedDocument [("gain", .str "VALID"), ("offset", .str "VALID")])
      (sizedDocument [("gain", .str "INVALID(design)"), ("offset", .str "VALID")]) falseValidSpec =
        .ok comparison ∧
      (comparison.status = .fail ↔
        ∃ result ∈ comparison.metrics, result.row.required = true ∧ result.status = .fail) ∧
      FractionRows comparison.metrics := by
  obtain ⟨comparison, hok⟩ := Except.exists_ok_of_isSome (x := compareTestbenchObservables
    (sizedDocument [("gain", .str "VALID"), ("offset", .str "VALID")])
    (sizedDocument [("gain", .str "INVALID(design)"), ("offset", .str "VALID")]) falseValidSpec)
    (by decide +kernel)
  obtain ⟨-, hfail, hfractions⟩ :=
    (compareTestbenchObservables_sound ratOrder _ _).2.1 _ comparison hok
  exact ⟨comparison, hok, hfail, hfractions⟩

end Run

end OpenADA.Oracle
