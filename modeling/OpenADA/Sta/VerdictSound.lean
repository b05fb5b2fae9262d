import OpenADA.Sta.Verdict

/-! What the verdicts of a timing analysis say of the paths and metrics that were reported. -/
namespace OpenADA.Sta

open PyText Native

def ReportPaths (interpreter : Interpreter ℚ) (expectedPathType : String) (content : List UInt8)
    (paths : List (TimingPath ℚ)) : Prop :=
  ∃ payload checks, loadsContent interpreter content = .ok payload ∧
    payload.member "checks" = .array checks ∧
    checks.mapM (normalizePath expectedPathType) = .ok paths

section Reports

variable {interpreter : Interpreter ℚ} {expectedPathType : String} {content : List UInt8}

theorem criticalOf_spec (first : TimingPath ℚ) (rest : List (TimingPath ℚ)) :
    criticalOf first rest ∈ first :: rest ∧
      ∀ path ∈ first :: rest, (criticalOf first rest).slack ≤ path.slack := by
  induction rest generalizing first with
  | nil =>
    refine ⟨List.mem_singleton_self _, fun path hpath => ?_⟩
    rw [List.mem_singleton.mp hpath]
    exact le_refl _
  | cons next rest ih =>
    have hstep : criticalOf first (next :: rest) =
        criticalOf (if PyFloat.lt next.slack first.slack then next else first) rest := rfl
    rw [hstep]
    by_cases hless : PyFloat.lt next.slack first.slack = true
    · rw [if_pos hless]
      obtain ⟨hmem, hleast⟩ := ih next
      refine ⟨List.mem_cons_of_mem _ hmem, fun path hpath => ?_⟩
      rcases List.mem_cons.mp hpath with rfl | hpath
      · have hlt : next.slack < path.slack := of_decide_eq_true hless
        exact (hleast next (List.mem_cons_self ..)).trans hlt.le
      · exact hleast path hpath
    · rw [if_neg hless]
      have hle : first.slack ≤ next.slack := by
        have hnot : ¬ next.slack < first.slack := fun h => hless (decide_eq_true h)
        exact not_lt.mp hnot
      obtain ⟨hmem, hleast⟩ := ih first
      constructor
      · rcases List.mem_cons.mp hmem with heq | hmem
        · rw [heq]
          exact List.mem_cons_self ..
        · exact List.mem_cons_of_mem _ (List.mem_cons_of_mem _ hmem)
      · intro path hpath
        rcases List.mem_cons.mp hpath with rfl | hpath
        · exact hleast path (List.mem_cons_self ..)
        rcases List.mem_cons.mp hpath with rfl | hpath
        · exact (hleast first (List.mem_cons_self ..)).trans hle
        · exact hleast path (List.mem_cons_of_mem _ hpath)

theorem loadPathReport_eq_ok {report : PathReport ℚ}
    (h : loadPathReport interpreter expectedPathType content = .ok report) :
    ∃ paths, ReportPaths interpreter expectedPathType content paths ∧
      report.criticalPath ∈ paths ∧ ∀ path ∈ paths, report.criticalPath.slack ≤ path.slack := by
  unfold loadPathReport at h
  split_ifs at h with hlarge hempty
  · cases h
  · cases h
  obtain ⟨payload, hpayload, hvalid⟩ := Except.bind_eq_ok.mp h
  have hload : loadsContent interpreter content = .ok payload := by
    cases hcontent : loadsContent interpreter content with
    | ok value =>
      rw [hcontent] at hpayload
      exact congrArg _ (Except.ok.inj hpayload)
    | error e =>
      rw [hcontent] at hpayload
      cases hpayload
  unfold validatePaths at hvalid
  split at hvalid
  · rename_i checks hchecks
    split_ifs at hvalid with hsize
    · cases hvalid
    obtain ⟨paths, hpaths, hdone⟩ := Except.bind_eq_ok.mp hvalid
    cases paths with
    | nil => cases hdone
    | cons first rest =>
      obtain rfl := Except.ok.inj hdone
      exact ⟨first :: rest, ⟨payload, checks, hload, hchecks, hpaths⟩, criticalOf_spec first rest⟩
  · cases hvalid

end Reports

structure Judged (isDigit : Char → Bool) (digit : Char → ℕ) (interpreter : Interpreter ℚ)
    (run : TimingRun) (metrics : Metrics) (setup hold : List (TimingPath ℚ)) : Prop where
  process : ∃ process, run.process = some process ∧ process.clean = true ∧
    parseMetrics isDigit digit process.text = .ok metrics
  setup : ∃ content, run.setupPaths = some content ∧ ReportPaths interpreter "max" content setup
  hold : ∃ content, run.holdPaths = some content ∧ ReportPaths interpreter "min" content hold

def tnsTolerance (metrics : Metrics) : ℚ := metrics.timeUnitSeconds * (5 / 10 ^ 9)

/-- No slack is negative, and no total slack is more than the tolerance from zero. -/
structure Satisfied (metrics : Metrics) (setup hold : List (TimingPath ℚ)) : Prop where
  setupPaths : ∀ path ∈ setup, 0 ≤ path.slack
  holdPaths : ∀ path ∈ hold, 0 ≤ path.slack
  setupWns : 0 ≤ metrics.setupWns
  holdWns : 0 ≤ metrics.holdWns
  setupTns : |metrics.setupTns| ≤ tnsTolerance metrics
  holdTns : |metrics.holdTns| ≤ tnsTolerance metrics

/-- The least slack of a mode is negative, in its metric and in its report. -/
def Violated (wns : ℚ) (paths : List (TimingPath ℚ)) : Prop :=
  wns < 0 ∧ ∃ path ∈ paths, path.slack < 0 ∧ ∀ other ∈ paths, path.slack ≤ other.slack

section Soundness

variable {isDigit : Char → Bool} {digit : Char → ℕ} {interpreter : Interpreter ℚ}
  {run : TimingRun} {status : TimingStatus}

theorem retained_eq_ok_some {α : Type} {loaded : Option (Except Stop α)} {value : α}
    (h : retained loaded = .ok (some value)) : loaded = some (.ok value) := by
  cases loaded with
  | none => cases h
  | some loaded =>
    cases loaded with
    | ok other => rw [Option.some.inj (Except.ok.inj h)]
    | error stop =>
      cases stop with
      | verdict reason => cases h
      | raised e => cases h

theorem judged_of_decided (h : timingVerdict isDigit digit interpreter run = .ok status)
    (hdecided : status ≠ .unknown) :
    ∃ metrics setup hold, Judged isDigit digit interpreter run metrics setup hold ∧
      metricConsistency metrics = true ∧
      (∃ critical ∈ setup, (∀ path ∈ setup, critical.slack ≤ path.slack) ∧
        slackAgrees metrics.setupWns critical.slack metrics.timeUnitSeconds = true) ∧
      (∃ critical ∈ hold, (∀ path ∈ hold, critical.slack ≤ path.slack) ∧
        slackAgrees metrics.holdWns critical.slack metrics.timeUnitSeconds = true) ∧
      status = if metrics.satisfied then .pass else .fail := by
  unfold timingVerdict at h
  simp only [Except.bind_eq_ok] at h
  obtain ⟨setup, hsetup, hold, hhold, metrics, hmetrics, hdone⟩ := h
  have hjudge := Except.ok.inj hdone
  clear hdone
  unfold judge at hjudge
  by_cases hcomplete : evidenceComplete run setup hold metrics = true
  swap
  · rw [if_neg hcomplete] at hjudge
    exact absurd hjudge.symm hdecided
  rw [if_pos hcomplete] at hjudge
  unfold evidenceComplete reportsAgree at hcomplete
  simp only [Bool.and_eq_true, Option.any_eq_true] at hcomplete
  obtain ⟨⟨⟨⟨⟨⟨⟨⟨⟨process, hprocess, hclean⟩, -⟩, -⟩, -⟩, -⟩, -⟩, -⟩, ⟨metrics', hsome, hconsistent⟩⟩,
    metrics'', hsome', setup', hsetup', hold', hhold', hagree⟩ := hcomplete
  subst hsome hsetup' hhold'
  obtain rfl := Option.some.inj hsome'
  have hloadSetup := retained_eq_ok_some hsetup
  have hloadHold := retained_eq_ok_some hhold
  rw [Option.map_eq_some_iff] at hloadSetup hloadHold
  obtain ⟨setupContent, hsetupContent, hsetupReport⟩ := hloadSetup
  obtain ⟨holdContent, hholdContent, hholdReport⟩ := hloadHold
  obtain ⟨setupPaths, hsetupPaths, hsetupMem, hsetupLeast⟩ := loadPathReport_eq_ok hsetupReport
  obtain ⟨holdPaths, hholdPaths, hholdMem, hholdLeast⟩ := loadPathReport_eq_ok hholdReport
  unfold runMetrics at hmetrics
  rw [hprocess] at hmetrics
  have hparse := Option.some.inj (retained_eq_ok_some hmetrics)
  refine ⟨metrics', setupPaths, holdPaths,
    { process := ⟨process, hprocess, hclean, hparse⟩
      setup := ⟨setupContent, hsetupContent, hsetupPaths⟩
      hold := ⟨holdContent, hholdContent, hholdPaths⟩ },
    hconsistent, ⟨_, hsetupMem, hsetupLeast, hagree.1⟩, ⟨_, hholdMem, hholdLeast, hagree.2⟩, ?_⟩
  rw [← hjudge]
  rfl

theorem sign_of_slackAgrees {metric reported unit : ℚ}
    (h : slackAgrees metric reported unit = true) : metric < 0 ↔ reported < 0 := by
  simp only [slackAgrees, Bool.and_eq_true, decide_eq_true_eq] at h
  exact h.1

theorem tns_of_modeConsistent {tolerance wns tns : ℚ} (h : modeConsistent tolerance wns tns = true)
    (hwns : 0 ≤ wns) : |tns| ≤ tolerance := by
  simp only [modeConsistent, Bool.and_eq_true, Bool.or_eq_true, decide_eq_true_eq] at h
  exact h.1.2.resolve_left (not_lt.mpr hwns)

theorem satisfied_of_pass (h : timingVerdict isDigit digit interpreter run = .ok .pass) :
    ∃ metrics setup hold, Judged isDigit digit interpreter run metrics setup hold ∧
      Satisfied metrics setup hold := by
  obtain ⟨metrics, setup, hold, hjudged, hconsistent, ⟨setupPath, -, hsetupLeast, hsetupAgrees⟩,
    ⟨holdPath, -, hholdLeast, hholdAgrees⟩, hstatus⟩ := judged_of_decided h (by decide)
  have hsatisfied : metrics.satisfied = true := by
    by_contra hnot
    rw [if_neg hnot] at hstatus
    cases hstatus
  rw [Metrics.satisfied, Bool.and_eq_true, decide_eq_true_eq, decide_eq_true_eq] at hsatisfied
  obtain ⟨hsetup, hhold⟩ := hsatisfied
  rw [metricConsistency, Bool.and_eq_true] at hconsistent
  have hsetupPath : 0 ≤ setupPath.slack :=
    not_lt.mp fun hneg => absurd ((sign_of_slackAgrees hsetupAgrees).mpr hneg) (not_lt.mpr hsetup)
  have hholdPath : 0 ≤ holdPath.slack :=
    not_lt.mp fun hneg => absurd ((sign_of_slackAgrees hholdAgrees).mpr hneg) (not_lt.mpr hhold)
  exact ⟨metrics, setup, hold, hjudged,
    { setupPaths := fun path hpath => hsetupPath.trans (hsetupLeast path hpath)
      holdPaths := fun path hpath => hholdPath.trans (hholdLeast path hpath)
      setupWns := hsetup
      holdWns := hhold
      setupTns := tns_of_modeConsistent hconsistent.1 hsetup
      holdTns := tns_of_modeConsistent hconsistent.2 hhold }⟩

/-- A fail has a mode whose worst slack and least reported slack are negative. -/
theorem violated_of_fail (h : timingVerdict isDigit digit interpreter run = .ok .fail) :
    ∃ metrics setup hold, Judged isDigit digit interpreter run metrics setup hold ∧
      (Violated metrics.setupWns setup ∨ Violated metrics.holdWns hold) := by
  obtain ⟨metrics, setup, hold, hjudged, -, ⟨setupPath, hsetupMem, hsetupLeast, hsetupAgrees⟩,
    ⟨holdPath, hholdMem, hholdLeast, hholdAgrees⟩, hstatus⟩ := judged_of_decided h (by decide)
  have hsatisfied : metrics.satisfied = false := by
    by_contra hnot
    rw [if_pos (Bool.not_eq_false _ ▸ hnot)] at hstatus
    cases hstatus
  rw [Metrics.satisfied, Bool.and_eq_false_iff, decide_eq_false_iff_not, decide_eq_false_iff_not,
    not_le, not_le] at hsatisfied
  refine ⟨metrics, setup, hold, hjudged, ?_⟩
  rcases hsatisfied with hneg | hneg
  · exact .inl ⟨hneg, setupPath, hsetupMem, (sign_of_slackAgrees hsetupAgrees).mp hneg, hsetupLeast⟩
  · exact .inr ⟨hneg, holdPath, hholdMem, (sign_of_slackAgrees hholdAgrees).mp hneg, hholdLeast⟩

end Soundness

def metricSpecifications : List (String × List Char × List Char) :=
  [("SETUP_WNS", worstSlack, "max".toList), ("SETUP_TNS", tns, "max".toList),
    ("HOLD_WNS", worstSlack, "min".toList), ("HOLD_TNS", tns, "min".toList)]

/-- Every marker, metric and the completion marker occur once, and no line is an issue. -/
structure Legible (isDigit : Char → Bool) (digit : Char → ℕ) (text : List Char) : Prop where
  markers : ∀ name ∈ "UNITS" :: metricSpecifications.map Prod.fst,
    count (beginMarker name) text = 1 ∧ count (endMarker name) text = 1
  completion : count completionMarker text = 1
  unit : ∃ block, markerBlock text "UNITS" = some block ∧
    (lineMatches (unitAt isDigit digit) true block).length = 1
  metrics : ∀ metric ∈ metricSpecifications, ∃ block, markerBlock text metric.1 = some block ∧
    (lineMatches (metricAt isDigit digit metric.2.1 metric.2.2) true block).length = 1
  quiet : ∀ line ∈ splitLines text, isNativeIssue line = false

section Legibility

variable {isDigit : Char → Bool} {digit : Char → ℕ} {text : List Char}

theorem count_of_markerBlock {name : String} {block : List Char}
    (h : markerBlock text name = some block) :
    count (beginMarker name) text = 1 ∧ count (endMarker name) text = 1 := by
  unfold markerBlock at h
  by_cases hcount : count (beginMarker name) text ≠ 1 ∨ count (endMarker name) text ≠ 1
  · rw [if_pos hcount] at h
    cases h
  · push Not at hcount
    exact hcount

theorem unitSeconds_eq_ok {unit : ℚ} (h : unitSeconds isDigit digit text = .ok unit) :
    ∃ block, markerBlock text "UNITS" = some block ∧
      (lineMatches (unitAt isDigit digit) true block).length = 1 := by
  unfold unitSeconds at h
  obtain ⟨block, hblock, hmatch⟩ := Except.bind_eq_ok.mp h
  refine ⟨block, expect_eq_ok.mp hblock, ?_⟩
  cases hfound : lineMatches (unitAt isDigit digit) true block with
  | nil =>
    rw [hfound] at hmatch
    cases hmatch
  | cons first rest =>
    rw [hfound] at hmatch
    cases rest with
    | nil => rfl
    | cons second rest => cases hmatch

theorem metricSeconds_eq_ok {key marker : String} {label mode : List Char} {unit value : ℚ}
    (h : metricSeconds isDigit digit key marker label mode unit text = .ok value) :
    ∃ block, markerBlock text marker = some block ∧
      (lineMatches (metricAt isDigit digit label mode) true block).length = 1 := by
  unfold metricSeconds at h
  obtain ⟨block, hblock, hmatch⟩ := Except.bind_eq_ok.mp h
  refine ⟨block, expect_eq_ok.mp hblock, ?_⟩
  cases hfound : lineMatches (metricAt isDigit digit label mode) true block with
  | nil =>
    rw [hfound] at hmatch
    cases hmatch
  | cons first rest =>
    rw [hfound] at hmatch
    cases rest with
    | nil => rfl
    | cons second rest => cases hmatch

/-- A transcript whose metrics are read, without an issue, has each of them once. -/
theorem legible_of_parsed {metrics : Metrics} (h : parseMetrics isDigit digit text = .ok metrics)
    (hquiet : (splitLines text).any isNativeIssue = false) : Legible isDigit digit text := by
  unfold parseMetrics at h
  obtain ⟨unit, hunit, h⟩ := Except.bind_eq_ok.mp h
  obtain ⟨setupWns, hsetupWns, h⟩ := Except.bind_eq_ok.mp h
  obtain ⟨setupTns, hsetupTns, h⟩ := Except.bind_eq_ok.mp h
  obtain ⟨holdWns, hholdWns, h⟩ := Except.bind_eq_ok.mp h
  obtain ⟨holdTns, hholdTns, h⟩ := Except.bind_eq_ok.mp h
  have hcompletion : count completionMarker text = 1 := by
    by_contra hne
    rw [if_pos hne] at h
    cases h
  have hmetrics : ∀ metric ∈ metricSpecifications, ∃ block,
      markerBlock text metric.1 = some block ∧
        (lineMatches (metricAt isDigit digit metric.2.1 metric.2.2) true block).length = 1 := by
    intro metric hmetric
    simp only [metricSpecifications, List.mem_cons, List.not_mem_nil, or_false] at hmetric
    rcases hmetric with rfl | rfl | rfl | rfl
    · exact metricSeconds_eq_ok hsetupWns
    · exact metricSeconds_eq_ok hsetupTns
    · exact metricSeconds_eq_ok hholdWns
    · exact metricSeconds_eq_ok hholdTns
  have hunits := unitSeconds_eq_ok hunit
  refine ⟨?_, hcompletion, hunits, hmetrics, fun line hline =>
    Bool.not_eq_true _ ▸ List.any_eq_false.mp hquiet line hline⟩
  intro name hname
  rcases List.mem_cons.mp hname with rfl | hname
  · obtain ⟨block, hblock, -⟩ := hunits
    exact count_of_markerBlock hblock
  · obtain ⟨metric, hmetric, rfl⟩ := List.mem_map.mp hname
    obtain ⟨block, hblock, -⟩ := hmetrics metric hmetric
    exact count_of_markerBlock hblock

theorem legible_of_judged {interpreter : Interpreter ℚ} {run : TimingRun} {metrics : Metrics}
    {setup hold : List (TimingPath ℚ)}
    (h : Judged isDigit digit interpreter run metrics setup hold) :
    ∃ process, run.process = some process ∧ Legible isDigit digit process.text := by
  obtain ⟨process, hprocess, hclean, hparse⟩ := h.process
  refine ⟨process, hprocess, legible_of_parsed hparse ?_⟩
  rw [TimingProcess.clean, Bool.and_eq_true, Bool.not_eq_true'] at hclean
  exact hclean.2

end Legibility

section Rescaling

variable {isDigit : Char → Bool} {digit : Char → ℕ} {interpreter : Interpreter ℚ}
  {run other : TimingRun} {metrics metrics' : Metrics}

/-- The verdict of a decided run is the sign of its worst slacks in seconds. -/
theorem status_of_metrics {status : TimingStatus}
    (h : timingVerdict isDigit digit interpreter run = .ok status) (hdecided : status ≠ .unknown)
    (hmetrics : runMetrics isDigit digit run = .ok (some metrics)) :
    status = if metrics.satisfied then .pass else .fail := by
  obtain ⟨judged, setup, hold, hjudged, -, -, -, hstatus⟩ := judged_of_decided h hdecided
  obtain ⟨process, hprocess, -, hparse⟩ := hjudged.process
  rw [runMetrics, hprocess, Option.map_some, hparse] at hmetrics
  obtain rfl := Option.some.inj (Except.ok.inj hmetrics)
  exact hstatus

theorem satisfied_congr (hsetup : metrics.setupWns = metrics'.setupWns)
    (hhold : metrics.holdWns = metrics'.holdWns) : metrics.satisfied = metrics'.satisfied := by
  rw [Metrics.satisfied, Metrics.satisfied, hsetup, hhold]

theorem status_congr {first second : TimingStatus}
    (hrun : timingVerdict isDigit digit interpreter run = .ok first)
    (hother : timingVerdict isDigit digit interpreter other = .ok second)
    (hfirst : first ≠ .unknown) (hsecond : second ≠ .unknown)
    (hmetrics : runMetrics isDigit digit run = .ok (some metrics))
    (hmetrics' : runMetrics isDigit digit other = .ok (some metrics'))
    (hsetup : metrics.setupWns = metrics'.setupWns) (hhold : metrics.holdWns = metrics'.holdWns) :
    first = second := by
  rw [status_of_metrics hrun hfirst hmetrics, status_of_metrics hother hsecond hmetrics',
    satisfied_congr hsetup hhold]

/-- A transcript with the same metrics and unit in seconds, and of which no more issues are seen,
leaves the verdict as it is. -/
theorem timingVerdict_congr {process process' : TimingProcess} (hprocess : run.process = some process)
    (hclean : process'.clean = process.clean)
    (hparse : parseMetrics isDigit digit process'.text = parseMetrics isDigit digit process.text) :
    timingVerdict isDigit digit interpreter { run with process := some process' } =
      timingVerdict isDigit digit interpreter run := by
  have hmetrics : runMetrics isDigit digit { run with process := some process' } =
      runMetrics isDigit digit run := by
    rw [runMetrics, runMetrics, hprocess, Option.map_some, Option.map_some, hparse]
  have hjudge (setup hold : Option (PathReport ℚ)) (metrics : Option Metrics) :
      judge { run with process := some process' } setup hold metrics =
        judge run setup hold metrics := by
    unfold judge evidenceComplete
    rw [hprocess, Option.any_some, Option.any_some, hclean]
  unfold timingVerdict
  simp only [hmetrics, hjudge]

end Rescaling

/-- A pass and a fail are what they say, a transcript that is not legible gives neither, and a
change of the unit that keeps the slacks in seconds turns no pass into a fail and no fail into a
pass; where the unit keeps its length too, it changes nothing. -/
theorem timingVerdict_sound (isDigit : Char → Bool) (digit : Char → ℕ)
    (interpreter : Interpreter ℚ) (run : TimingRun) :
    (timingVerdict isDigit digit interpreter run = .ok .pass →
      ∃ metrics setup hold, Judged isDigit digit interpreter run metrics setup hold ∧
        Satisfied metrics setup hold) ∧
    (timingVerdict isDigit digit interpreter run = .ok .fail →
      ∃ metrics setup hold, Judged isDigit digit interpreter run metrics setup hold ∧
        (Violated metrics.setupWns setup ∨ Violated metrics.holdWns hold)) ∧
    (∀ process, run.process = some process → ¬ Legible isDigit digit process.text →
      timingVerdict isDigit digit interpreter run ≠ .ok .pass ∧
        timingVerdict isDigit digit interpreter run ≠ .ok .fail) ∧
    (∀ other metrics metrics', runMetrics isDigit digit run = .ok (some metrics) →
      runMetrics isDigit digit other = .ok (some metrics') →
      metrics.setupWns = metrics'.setupWns → metrics.holdWns = metrics'.holdWns →
      ∀ first second, timingVerdict isDigit digit interpreter run = .ok first →
        timingVerdict isDigit digit interpreter other = .ok second → first ≠ .unknown →
        second ≠ .unknown → first = second) ∧
    ∀ process process', run.process = some process → process'.clean = process.clean →
      parseMetrics isDigit digit process'.text = parseMetrics isDigit digit process.text →
      timingVerdict isDigit digit interpreter { run with process := some process' } =
        timingVerdict isDigit digit interpreter run := by
  refine ⟨satisfied_of_pass, violated_of_fail, ?_, ?_, ?_⟩
  · intro process hprocess hillegible
    have hnone {status : TimingStatus} (hdecided : status ≠ .unknown) :
        timingVerdict isDigit digit interpreter run ≠ .ok status := by
      intro h
      obtain ⟨metrics, setup, hold, hjudged, -⟩ := judged_of_decided h hdecided
      obtain ⟨process', hprocess', hlegible⟩ := legible_of_judged hjudged
      rw [hprocess] at hprocess'
      rw [← Option.some.inj hprocess'] at hlegible
      exact hillegible hlegible
    exact ⟨hnone (by decide), hnone (by decide)⟩
  · intro other metrics metrics' hmetrics hmetrics' hsetup hhold first second hrun hother hfirst
      hsecond
    exact status_congr hrun hother hfirst hsecond hmetrics hmetrics' hsetup hhold
  · intro process process' hprocess hclean hparse
    exact timingVerdict_congr hprocess hclean hparse

/-- A report of one path from `a` to `b` with a setup slack of minus one second. -/
def lateSetup : List UInt8 :=
  [123, 34, 99, 104, 101, 99, 107, 115, 34, 58, 91, 123, 34, 112, 97, 116, 104, 95, 116, 121,
    112, 101, 34, 58, 34, 109, 97, 120, 34, 44, 34, 115, 108, 97, 99, 107, 34, 58, 45, 49, 44,
    34, 115, 116, 97, 114, 116, 112, 111, 105, 110, 116, 34, 58, 34, 97, 34, 44, 34, 101, 110,
    100, 112, 111, 105, 110, 116, 34, 58, 34, 98, 34, 125, 93, 125]

def earlyHold : List UInt8 :=
  [123, 34, 99, 104, 101, 99, 107, 115, 34, 58, 91, 123, 34, 112, 97, 116, 104, 95, 116, 121,
    112, 101, 34, 58, 34, 109, 105, 110, 34, 44, 34, 115, 108, 97, 99, 107, 34, 58, 49, 44, 34,
    115, 116, 97, 114, 116, 112, 111, 105, 110, 116, 34, 58, 34, 97, 34, 44, 34, 101, 110, 100,
    112, 111, 105, 110, 116, 34, 58, 34, 98, 34, 125, 93, 125]

def marked (name : String) (body : List Char) : List Char :=
  beginMarker name ++ ('\n' :: body) ++ ('\n' :: endMarker name) ++ ['\n']

/-- A transcript with a unit, a setup slack that is also the total of its mode, and a hold slack. -/
def transcriptOf (unit setup hold : String) : List Char :=
  marked "UNITS" ("time ".toList ++ unit.toList) ++
    marked "SETUP_WNS" ("worst slack max ".toList ++ setup.toList) ++
    marked "SETUP_TNS" ("tns max ".toList ++ setup.toList) ++
    marked "HOLD_WNS" ("worst slack min ".toList ++ hold.toList) ++
    marked "HOLD_TNS" "tns min 0".toList ++ completionMarker

def lateProcess (text : List Char) : TimingProcess := ⟨text, [], true, some 0, true⟩

def lateRun (text : List Char) : TimingRun :=
  ⟨some (lateProcess text), some [], some lateSetup, some earlyHold, true, true, true, true, true⟩

def asciiDigit (c : Char) : ℕ := c.toNat - 48

def plainInterpreter : Interpreter ℚ := ⟨100, fun _ => 0⟩

/-- A violation of one second is reported in seconds, and not decided when the unit is a billion of
them: a total of a billionth of it is within the tolerance of zero. -/
theorem rescaled_unknown :
    (runMetrics Char.isDigit asciiDigit (lateRun (transcriptOf "1s" "-1" "1"))).toOption =
      some (some ⟨1, -1, -1, 1, 0⟩) ∧
    (runMetrics Char.isDigit asciiDigit
      (lateRun (transcriptOf "1000000000s" "-0.000000001" "0.000000001"))).toOption =
        some (some ⟨1000000000, -1, -1, 1, 0⟩) ∧
    (timingVerdict Char.isDigit asciiDigit plainInterpreter
      (lateRun (transcriptOf "1s" "-1" "1"))).toOption = some .fail ∧
    (timingVerdict Char.isDigit asciiDigit plainInterpreter
      (lateRun (transcriptOf "1000000000s" "-0.000000001" "0.000000001"))).toOption =
        some .unknown := by
  refine ⟨?_, ?_, ?_, ?_⟩ <;> decide +kernel

end OpenADA.Sta
