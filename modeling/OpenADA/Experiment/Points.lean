import OpenADA.Experiment.Scalars
import OpenADA.Library.DecimalMidpoint
import OpenADA.Scalars.Agreement
import OpenADA.Template.LimitIntervals

/-! The points of a sweep and of a transient, as they are counted and held against the limit, and
the sampling plans that are taken. The scalars are exact; their difference, their quotient and
their product are rounded to 28 digits. -/
namespace OpenADA.Experiment

open DecimalContext PyStr PyJson
open PyDecimal (Fits Parted halfUnit)
open Scalars (Arithmetic)
open Template (Json JsonFloat FloatText Issue parseScalar)

def maxSharedAnalysisPoints : ℕ := 1000000

def analysisInvalid : String := "experiment.analysis.invalid"

def analysisOverLimit : String := "experiment.analysis.over_limit"

/-- The issues of `closed` on an object, its field names in order. -/
def closedFields (required optional : List String) (code : String) (fields : Mapping JsonFloat) :
    List Issue :=
  let keys := fields.map Prod.fst
  ((required.map lit).filter fun name => decide (name ∉ keys)).map (fun name => ⟨code, [name]⟩) ++
    (((keys.filter fun name => decide (name ∉ (required ++ optional).map lit)).insertionSort
      fun a b => PyStr.le a b = true).map fun name => ⟨"experiment.document.unknown_field", [name]⟩)

def issueIf (refused : Bool) (key : String) : List Issue :=
  if refused then [⟨analysisInvalid, [lit key]⟩] else []

structure Sweep where
  start : ℚ
  stop : ℚ
  step : ℚ
  ordered : start < stop
  positive : 0 < step

/-- `int(((stop - start) / step).to_integral_value(ROUND_CEILING)) + 1`. -/
def Sweep.estimatedPoints (sweep : Sweep) : Option ℤ :=
  (PyDecimal.div (PyDecimal.sub sweep.stop sweep.start) sweep.step).map fun quotient => ⌈quotient⌉ + 1

def countPoints (sweep : Sweep) : List Issue × ℤ :=
  match sweep.estimatedPoints with
  | none => ([⟨analysisInvalid, []⟩], 1)
  | some points =>
    (if maxSharedAnalysisPoints < points then [⟨analysisOverLimit, []⟩] else [], points)

/-- The count of an analysis without issues; it is left alone where a scalar is missing. -/
def countIfValid (issues : List Issue) (sweep : Option Sweep) : List Issue × ℤ :=
  if issues = [] then (sweep.map countPoints).getD ([], 1) else ([], 1)

section Analyses

variable (arithmetic : Arithmetic) (text : FloatText)

def scalarAt (fields : Mapping JsonFloat) (key : String) : Option FiniteDecimal :=
  parseScalar arithmetic text ((fields.lookup (lit key)).getD .null)

def unreadable (fields : Mapping JsonFloat) (keys : List String) : List Issue :=
  keys.flatMap fun key => issueIf (scalarAt arithmetic text fields key).isNone key

def dcIssues (sourceKnown : Bool) (fields : Mapping JsonFloat) : List Issue :=
  let start := scalarAt arithmetic text fields "start"
  let stop := scalarAt arithmetic text fields "stop"
  let step := scalarAt arithmetic text fields "step"
  issueIf (!sourceKnown) "source" ++ unreadable arithmetic text fields ["start", "stop", "step"] ++
    issueIf (start.any fun a => stop.any fun b => decide (b.value ≤ a.value)) "stop" ++
    issueIf (step.any fun d => decide (d.value ≤ 0)) "step"

def dcSweep (fields : Mapping JsonFloat) : Option Sweep := do
  let start ← scalarAt arithmetic text fields "start"
  let stop ← scalarAt arithmetic text fields "stop"
  let step ← scalarAt arithmetic text fields "step"
  if h : start.value < stop.value ∧ 0 < step.value then
    some ⟨start.value, stop.value, step.value, h.1, h.2⟩
  else none

def dcAnalysis (sourceKnown : Bool) (fields : Mapping JsonFloat) : List Issue × ℤ :=
  let issues := dcIssues arithmetic text sourceKnown fields
  let counted := countIfValid issues (dcSweep arithmetic text fields)
  (closedFields ["id", "kind", "source", "start", "step", "stop"] [] analysisInvalid fields ++
    issues ++ counted.1, counted.2)

def tranStart (fields : Mapping JsonFloat) : FiniteDecimal :=
  (scalarAt arithmetic text fields "start").getD Template.zero

/-- What is checked of a transient before its points are counted; a missing field is no issue here. -/
def tranIssues (fields : Mapping JsonFloat) : List Issue :=
  let step := scalarAt arithmetic text fields "step"
  let stop := scalarAt arithmetic text fields "stop"
  let start := tranStart arithmetic text fields
  let maximum := scalarAt arithmetic text fields "max_step"
  unreadable arithmetic text fields
      (["step", "stop", "start", "max_step"].filter fun key => lit key ∈ fields.map Prod.fst) ++
    issueIf (step.any fun d => decide (d.value ≤ 0)) "step" ++
    issueIf (stop.any fun b => decide (b.value ≤ 0)) "stop" ++
    issueIf (decide (start.value < 0)) "start" ++
    issueIf (stop.any fun b => decide (b.value ≤ start.value)) "start" ++
    issueIf (maximum.any fun m => decide (m.value ≤ 0)) "max_step"

def tranSweep (fields : Mapping JsonFloat) : Option Sweep := do
  let step ← scalarAt arithmetic text fields "step"
  let stop ← scalarAt arithmetic text fields "stop"
  let start := tranStart arithmetic text fields
  let maximum := scalarAt arithmetic text fields "max_step"
  let effective := maximum.elim step.value fun m => min step.value m.value
  if h : start.value < stop.value ∧ 0 < effective then
    some ⟨start.value, stop.value, effective, h.1, h.2⟩
  else none

def isCoherent (start stop step : FiniteDecimal) (count : ℤ) : Bool :=
  decide (PyDecimal.sub stop.value start.value = PyDecimal.mul step.value ((count - 1 : ℤ) : ℚ))

def pointCount : Json → Option ℤ
  | .int count => if 8 ≤ count ∧ count ≤ 100000 then some count else none
  | _ => none

def planIssues (plan fields : Mapping JsonFloat) : List Issue :=
  let step := scalarAt arithmetic text fields "step"
  let stop := scalarAt arithmetic text fields "stop"
  let start := tranStart arithmetic text fields
  let shape := closedFields ["kind", "point_count"] [] analysisInvalid plan ++
    issueIf (!((plan.lookup (lit "kind")).getD .null).isText "coherent_uniform") "kind"
  match pointCount ((plan.lookup (lit "point_count")).getD .null) with
  | none => shape ++ issueIf true "point_count"
  | some count =>
    shape ++ issueIf (decide (count.toNat &&& (count.toNat - 1) ≠ 0)) "point_count" ++
      if step.any fun d => stop.any fun b => !isCoherent start b d count then
        [⟨analysisInvalid, []⟩]
      else []

/-- `_sampling_plan`. -/
def samplingPlan (fields : Mapping JsonFloat) : List Issue :=
  match (fields.lookup (lit "sampling_plan")).getD .null with
  | .null => []
  | .object plan =>
    (planIssues arithmetic text plan fields).map fun issue =>
      { issue with path := lit "sampling_plan" :: issue.path }
  | _ => [⟨analysisInvalid, [lit "sampling_plan"]⟩]

def tranAnalysis (fields : Mapping JsonFloat) : List Issue × ℤ :=
  let issues := tranIssues arithmetic text fields
  let counted := countIfValid issues (tranSweep arithmetic text fields)
  (closedFields ["id", "kind", "step", "stop"] ["start", "max_step", "sampling_plan"] analysisInvalid
      fields ++ issues ++ counted.1 ++ samplingPlan arithmetic text fields, counted.2)

end Analyses

def Sweep.pointCount (sweep : Sweep) : ℤ := ⌈(sweep.stop - sweep.start) / sweep.step⌉ + 1

structure PointsExact (sweep : Sweep) (analysis : List Issue × ℤ) : Prop where
  refused_iff : ⟨analysisOverLimit, []⟩ ∈ analysis.1 ↔ maxSharedAnalysisPoints < sweep.pointCount
  counted : ⟨analysisOverLimit, []⟩ ∉ analysis.1 → analysis.2 = sweep.pointCount

/-- Where the range, rounded to 28 digits, is as many whole steps as the range itself: it is more
than a number of steps exactly if it is more than that and half a unit of the 28th digit. -/
def Sweep.KeepsSteps (sweep : Sweep) : Prop :=
  ∀ k : ℕ, k < maxSharedAnalysisPoints →
    (k * sweep.step < sweep.stop - sweep.start ↔
      (k + halfUnit k) * sweep.step < PyDecimal.round (sweep.stop - sweep.start))

section Counting

variable {sweep : Sweep}

theorem Sweep.range_pos (sweep : Sweep) : 0 < sweep.stop - sweep.start := sub_pos.mpr sweep.ordered

theorem Sweep.estimatedPoints_eq (sweep : Sweep) : sweep.estimatedPoints = some
    (⌈PyDecimal.round (PyDecimal.round (sweep.stop - sweep.start) / sweep.step)⌉ + 1) := by
  rw [estimatedPoints, PyDecimal.div, if_neg sweep.positive.ne']
  rfl

/-- The count is above a number of points if the rounded range is above as many steps. -/
theorem Sweep.lt_estimatedPoints_iff {points : ℤ} (h : sweep.estimatedPoints = some points) {k : ℕ}
    (hk : k < maxSharedAnalysisPoints) : (k : ℤ) + 1 < points ↔
      (k + halfUnit k) * sweep.step < PyDecimal.round (sweep.stop - sweep.start) := by
  have hlimit : maxSharedAnalysisPoints < 10 ^ 27 := by decide
  have hquotient : 0 < PyDecimal.round (sweep.stop - sweep.start) / sweep.step :=
    div_pos (PyDecimal.round_pos sweep.range_pos) sweep.positive
  rw [sweep.estimatedPoints_eq, Option.some_inj] at h
  rw [← h, add_lt_add_iff_right, Int.lt_ceil, Int.cast_natCast, ← not_le,
    PyDecimal.round_le_natCast_iff hquotient (hk.trans hlimit), not_le, lt_div_iff₀ sweep.positive]

theorem Sweep.lt_pointCount_iff {k : ℕ} :
    (k : ℤ) + 1 < sweep.pointCount ↔ k * sweep.step < sweep.stop - sweep.start := by
  rw [pointCount, add_lt_add_iff_right, Int.lt_ceil, Int.cast_natCast, lt_div_iff₀ sweep.positive]

theorem Sweep.one_lt_points {points : ℤ} (h : sweep.estimatedPoints = some points) :
    1 < points ∧ 1 < sweep.pointCount := by
  have hzero : 0 < maxSharedAnalysisPoints := by decide
  have hrounded := (sweep.lt_estimatedPoints_iff h hzero).mpr (by
    simpa [halfUnit] using PyDecimal.round_pos sweep.range_pos)
  have hexact := (sweep.lt_pointCount_iff (k := 0)).mpr (by simpa using sweep.ordered)
  omega

/-- The counts agree up to the limit exactly if they pass the same numbers of steps below it. -/
theorem keepsSteps_iff {points : ℤ} (h : sweep.estimatedPoints = some points) :
    sweep.KeepsSteps ↔
      (maxSharedAnalysisPoints < points ↔ maxSharedAnalysisPoints < sweep.pointCount) ∧
        (¬ maxSharedAnalysisPoints < points → points = sweep.pointCount) := by
  obtain ⟨hpoints, hexact⟩ := sweep.one_lt_points h
  have hsteps : sweep.KeepsSteps ↔ ∀ k : ℕ, k < maxSharedAnalysisPoints →
      ((k : ℤ) + 1 < sweep.pointCount ↔ (k : ℤ) + 1 < points) := by
    refine forall₂_congr fun k hk => ?_
    rw [sweep.lt_pointCount_iff, sweep.lt_estimatedPoints_iff h hk]
  have hlimit : 0 < maxSharedAnalysisPoints := by decide
  rw [hsteps]
  generalize maxSharedAnalysisPoints = limit at *
  generalize sweep.pointCount = count at *
  constructor
  · intro hsame
    have hlast := hsame (limit - 1) (by omega)
    have hcast : ((limit - 1 : ℕ) : ℤ) + 1 = limit := by omega
    rw [hcast] at hlast
    refine ⟨hlast.symm, fun hwithin => ?_⟩
    have hcount : ¬ (limit : ℤ) < count := fun hover => hwithin (hlast.mp hover)
    rcases lt_trichotomy points count with hlt | heq | hgt
    · have hbelow := (hsame (points - 1).toNat (by omega)).mp (by omega)
      omega
    · exact heq
    · have hbelow := (hsame (count - 1).toNat (by omega)).mpr (by omega)
      omega
  · rintro ⟨hover, hequal⟩ k hk
    by_cases hwithin : (limit : ℤ) < points
    · have := hover.mp hwithin
      omega
    · rw [hequal hwithin]

theorem keepsSteps_of_digits {s t p e : ℤ} (hs : |s| < 10 ^ 27) (ht : |t| < 10 ^ 27)
    (hstart : sweep.start = s * 10 ^ e) (hstop : sweep.stop = t * 10 ^ e)
    (hstep : sweep.step = p * 10 ^ e) : sweep.KeepsSteps := by
  have hunit : (0 : ℚ) < 10 ^ e := by positivity
  have hrange : sweep.stop - sweep.start = ((t - s : ℤ) : ℚ) * 10 ^ e := by
    rw [hstart, hstop]
    push_cast
    ring
  have hwidth : |t - s| < 2 * 10 ^ 27 := by
    rw [abs_lt] at hs ht ⊢
    constructor <;> linarith
  have hfits : Fits (sweep.stop - sweep.start) := by
    rw [hrange]
    exact PyDecimal.fits_intCast_mul (by linarith)
  have hpos : (0 : ℚ) < p := by
    have := sweep.positive
    rw [hstep] at this
    exact pos_of_mul_pos_left this hunit.le
  intro k _
  rw [PyDecimal.round_of_fits hfits, hrange, hstep, ← mul_assoc, ← mul_assoc,
    mul_lt_mul_iff_left₀ hunit, mul_lt_mul_iff_left₀ hunit]
  have hhalf := PyDecimal.halfUnit_nonneg k
  constructor
  · intro hlt
    have hint : (k : ℤ) * p + 1 ≤ t - s := by
      have : (k : ℤ) * p < t - s := by exact_mod_cast hlt
      omega
    have hcast : (k : ℚ) * p + 1 ≤ (t - s : ℤ) := by exact_mod_cast hint
    have hbound : ((t - s : ℤ) : ℚ) < 2 * 10 ^ 27 := by
      exact_mod_cast (le_abs_self (t - s)).trans_lt hwidth
    have hsmall : halfUnit k * p < 1 := by
      calc halfUnit k * p ≤ k * (1 / (2 * 10 ^ 27)) * p :=
            mul_le_mul_of_nonneg_right (PyDecimal.halfUnit_le k) hpos.le
        _ = k * p / (2 * 10 ^ 27) := by ring
        _ < 1 := by
          rw [div_lt_one (by norm_num)]
          linarith
    rw [add_mul]
    linarith
  · intro hlt
    have := mul_nonneg hhalf hpos.le
    rw [add_mul] at hlt
    linarith

end Counting

section Issues

def WithinLimit (issues : List Issue) : Prop := ∀ issue ∈ issues, issue.code ≠ analysisOverLimit

theorem WithinLimit.append {first second : List Issue} (hfirst : WithinLimit first)
    (hsecond : WithinLimit second) : WithinLimit (first ++ second) := by
  intro issue hissue
  rcases List.mem_append.mp hissue with hissue | hissue
  · exact hfirst issue hissue
  · exact hsecond issue hissue

theorem invalid_ne_overLimit : analysisInvalid ≠ analysisOverLimit := by decide

theorem withinLimit_issueIf (refused : Bool) (key : String) : WithinLimit (issueIf refused key) := by
  intro issue hissue
  unfold issueIf at hissue
  split_ifs at hissue
  · rw [List.mem_singleton.mp hissue]
    exact invalid_ne_overLimit
  · cases hissue

theorem withinLimit_closedFields (required optional : List String) (fields : Mapping JsonFloat) :
    WithinLimit (closedFields required optional analysisInvalid fields) := by
  intro issue hissue
  rcases List.mem_append.mp hissue with hissue | hissue
  · obtain ⟨name, -, rfl⟩ := List.mem_map.mp hissue
    exact invalid_ne_overLimit
  · obtain ⟨name, -, rfl⟩ := List.mem_map.mp hissue
    exact show "experiment.document.unknown_field" ≠ analysisOverLimit by decide

variable {arithmetic : Arithmetic} {text : FloatText} {fields : Mapping JsonFloat}

theorem withinLimit_planIssues (plan : Mapping JsonFloat) :
    WithinLimit (planIssues arithmetic text plan fields) := by
  have hshape := (withinLimit_closedFields ["kind", "point_count"] [] plan).append
    (withinLimit_issueIf (!((plan.lookup (lit "kind")).getD .null).isText "coherent_uniform") "kind")
  unfold planIssues
  dsimp only
  cases pointCount ((plan.lookup (lit "point_count")).getD .null) with
  | none => exact hshape.append (withinLimit_issueIf _ _)
  | some count =>
    refine (hshape.append (withinLimit_issueIf _ _)).append fun issue hissue => ?_
    split_ifs at hissue
    · rw [List.mem_singleton.mp hissue]
      exact invalid_ne_overLimit
    · cases hissue

theorem withinLimit_samplingPlan : WithinLimit (samplingPlan arithmetic text fields) := by
  intro issue hissue
  unfold samplingPlan at hissue
  split at hissue
  · cases hissue
  · obtain ⟨inner, hinner, rfl⟩ := List.mem_map.mp hissue
    exact withinLimit_planIssues _ inner hinner
  · rw [List.mem_singleton.mp hissue]
    exact invalid_ne_overLimit

/-- An analysis of a sweep is counted exactly where the range keeps its steps. -/
theorem pointsExact_iff {sweep : Sweep} {before behind : List Issue} (hbefore : WithinLimit before)
    (hbehind : WithinLimit behind) :
    PointsExact sweep (before ++ (countIfValid [] (some sweep)).1 ++ behind,
      (countIfValid [] (some sweep)).2) ↔ sweep.KeepsSteps := by
  obtain ⟨points, hpoints⟩ : ∃ points, sweep.estimatedPoints = some points :=
    ⟨_, sweep.estimatedPoints_eq⟩
  have hcounted : countIfValid [] (some sweep) =
      (if maxSharedAnalysisPoints < points then [⟨analysisOverLimit, []⟩] else [], points) := by
    show countPoints sweep = _
    rw [countPoints, hpoints]
  have hmem : ⟨analysisOverLimit, []⟩ ∈ before ++ (countIfValid [] (some sweep)).1 ++ behind ↔
      maxSharedAnalysisPoints < points := by
    rw [hcounted]
    constructor
    · intro hissue
      rcases List.mem_append.mp hissue with hissue | hissue
      · rcases List.mem_append.mp hissue with hissue | hissue
        · exact absurd rfl (hbefore _ hissue)
        · by_contra hwithin
          rw [if_neg hwithin] at hissue
          cases hissue
      · exact absurd rfl (hbehind _ hissue)
    · intro hover
      rw [if_pos hover]
      simp
  rw [keepsSteps_iff hpoints]
  constructor
  · intro h
    refine ⟨hmem.symm.trans h.refused_iff, fun hwithin => ?_⟩
    have hcount := h.counted fun hissue => hwithin (hmem.mp hissue)
    rwa [hcounted] at hcount
  · rintro ⟨hover, hcount⟩
    refine ⟨hmem.trans hover, fun hissue => ?_⟩
    rw [hcounted]
    exact hcount fun hlimit => hissue (hmem.mpr hlimit)

end Issues

section Plans

variable {arithmetic : Arithmetic} {text : FloatText} {fields : Mapping JsonFloat}

structure CoherentUniform (plan : Mapping JsonFloat) (count : ℤ) : Prop where
  shape : closedFields ["kind", "point_count"] [] analysisInvalid plan = []
  kind : ((plan.lookup (lit "kind")).getD .null).isText "coherent_uniform" = true
  counted : pointCount ((plan.lookup (lit "point_count")).getD .null) = some count
  power : count.toNat &&& (count.toNat - 1) = 0

theorem eight_le {json : Json} {count : ℤ} (h : pointCount json = some count) : 8 ≤ count := by
  unfold pointCount at h
  split at h
  · split_ifs at h with hrange
    obtain rfl := Option.some.inj h
    exact hrange.1
  · cases h

theorem issueIf_eq_nil {refused : Bool} {key : String} :
    issueIf refused key = [] ↔ refused = false := by
  cases refused <;> simp [issueIf]

theorem tran_ordered {step stop : FiniteDecimal} (h : tranIssues arithmetic text fields = [])
    (hstep : scalarAt arithmetic text fields "step" = some step)
    (hstop : scalarAt arithmetic text fields "stop" = some stop) :
    0 < step.value ∧ (tranStart arithmetic text fields).value < stop.value := by
  unfold tranIssues at h
  simp only [List.append_eq_nil_iff, issueIf_eq_nil, hstep, hstop, Option.any_some,
    decide_eq_false_iff_not, not_le] at h
  exact ⟨h.1.1.1.1.2, h.1.2⟩

/-- A plan is taken exactly where the rounded range is the rounded product. -/
theorem samplingPlan_eq_nil {plan : Mapping JsonFloat} {count : ℤ} {step stop : FiniteDecimal}
    (hplan : fields.lookup (lit "sampling_plan") = some (.object plan))
    (hcoherent : CoherentUniform plan count)
    (hstep : scalarAt arithmetic text fields "step" = some step)
    (hstop : scalarAt arithmetic text fields "stop" = some stop) :
    samplingPlan arithmetic text fields = [] ↔
      PyDecimal.round (stop.value - (tranStart arithmetic text fields).value) =
        PyDecimal.round (step.value * ((count - 1 : ℤ) : ℚ)) := by
  have hissues : samplingPlan arithmetic text fields =
      (planIssues arithmetic text plan fields).map fun issue =>
        { issue with path := lit "sampling_plan" :: issue.path } := by
    rw [samplingPlan, hplan]
    rfl
  have hkind : issueIf (!((plan.lookup (lit "kind")).getD .null).isText "coherent_uniform") "kind" =
      [] := by
    rw [hcoherent.kind]
    rfl
  have hpower : issueIf (decide (count.toNat &&& (count.toNat - 1) ≠ 0)) "point_count" = [] := by
    rw [hcoherent.power]
    rfl
  rw [hissues, List.map_eq_nil_iff, planIssues]
  simp only [hcoherent.shape, hkind, hcoherent.counted, hpower, hstep, hstop, List.nil_append,
    Option.any_some]
  unfold isCoherent PyDecimal.sub PyDecimal.mul
  split_ifs with hrefused
  · simpa using hrefused
  · simpa using hrefused

end Plans

/-- Which analyses are counted exactly and which plans are judged exactly: the sweeps and transients
whose range keeps its steps in 28 digits, and the plans whose range is coherent or parted from the
product by the middle between two decimals of 28 digits. All ranges and steps of less than 28 digits
over one power of ten are among them. -/
theorem points_exact_iff (arithmetic : Arithmetic) (text : FloatText) :
    (∀ sourceKnown fields sweep, dcIssues arithmetic text sourceKnown fields = [] →
      dcSweep arithmetic text fields = some sweep →
        (PointsExact sweep (dcAnalysis arithmetic text sourceKnown fields) ↔ sweep.KeepsSteps)) ∧
    (∀ fields sweep, tranIssues arithmetic text fields = [] →
      tranSweep arithmetic text fields = some sweep →
        (PointsExact sweep (tranAnalysis arithmetic text fields) ↔ sweep.KeepsSteps)) ∧
    (∀ fields plan count step stop, tranIssues arithmetic text fields = [] →
      scalarAt arithmetic text fields "step" = some step →
      scalarAt arithmetic text fields "stop" = some stop →
      fields.lookup (lit "sampling_plan") = some (.object plan) → CoherentUniform plan count →
        let range := stop.value - (tranStart arithmetic text fields).value
        let product := step.value * ((count - 1 : ℤ) : ℚ)
        ((samplingPlan arithmetic text fields = [] ↔ range = product) ↔
          range = product ∨ Parted range product)) ∧
    ∀ s t p e : ℤ, |s| < 10 ^ 27 → |t| < 10 ^ 27 → 0 < p →
      (∀ sweep : Sweep, sweep.start = s * 10 ^ e → sweep.stop = t * 10 ^ e →
        sweep.step = p * 10 ^ e → sweep.KeepsSteps) ∧
      ∀ n : ℤ, 0 < n → s < t → p * n < 10 ^ 28 →
        ((t : ℚ) * 10 ^ e - s * 10 ^ e = p * 10 ^ e * n ∨
          Parted ((t : ℚ) * 10 ^ e - s * 10 ^ e) (p * 10 ^ e * n)) := by
  refine ⟨fun sourceKnown fields sweep hissues hsweep => ?_, fun fields sweep hissues hsweep => ?_,
    fun fields plan count step stop hissues hstep hstop hplan hcoherent => ?_,
    fun s t p e hs ht hp => ⟨?_, ?_⟩⟩
  · have hbefore := (withinLimit_closedFields ["id", "kind", "source", "start", "step", "stop"] []
      fields)
    have hexact := @pointsExact_iff sweep _ [] hbefore fun issue hissue =>
      absurd hissue List.not_mem_nil
    rw [List.append_nil] at hexact
    rw [dcAnalysis, hissues, hsweep, List.append_nil]
    exact hexact
  · have hbefore := (withinLimit_closedFields ["id", "kind", "step", "stop"]
      ["start", "max_step", "sampling_plan"] fields)
    rw [tranAnalysis, hissues, hsweep, List.append_nil]
    exact pointsExact_iff hbefore withinLimit_samplingPlan
  · obtain ⟨hpositive, hordered⟩ := tran_ordered hissues hstep hstop
    have height := eight_le hcoherent.counted
    have hcount : (0 : ℚ) < ((count - 1 : ℤ) : ℚ) := by
      have : 0 < count - 1 := by omega
      exact_mod_cast this
    have hrange := sub_pos.mpr hordered
    have hproduct := mul_pos hpositive hcount
    dsimp only
    rw [samplingPlan_eq_nil hplan hcoherent hstep hstop, PyDecimal.round_eq_iff hrange hproduct]
    constructor
    · intro h
      by_cases heq : stop.value - (tranStart arithmetic text fields).value =
          step.value * ((count - 1 : ℤ) : ℚ)
      · exact .inl heq
      · by_contra hnone
        exact heq (h.mp fun hparted => hnone (.inr hparted))
    · rintro (heq | hparted)
      · refine ⟨fun _ => heq, fun _ => ?_⟩
        rw [← PyDecimal.round_eq_iff hrange hproduct, heq]
      · refine ⟨fun hnot => absurd hparted hnot, fun heq => ?_⟩
        rw [← PyDecimal.round_eq_iff hrange hproduct, heq]
  · intro sweep hstart hstop hstep
    exact keepsSteps_of_digits hs ht hstart hstop hstep
  · intro n hn hst hdigits
    have hunit : (0 : ℚ) < 10 ^ e := by positivity
    have hrange : (t : ℚ) * 10 ^ e - s * 10 ^ e = ((t - s : ℤ) : ℚ) * 10 ^ e := by
      push_cast
      ring
    have hproduct : (p : ℚ) * 10 ^ e * n = ((p * n : ℤ) : ℚ) * 10 ^ e := by
      push_cast
      ring
    have hproductPos : 0 < p * n := mul_pos hp hn
    rw [abs_lt] at hs ht
    rw [hrange, hproduct]
    by_cases heq : ((t - s : ℤ) : ℚ) * 10 ^ e = ((p * n : ℤ) : ℚ) * 10 ^ e
    · exact .inl heq
    · refine .inr (PyDecimal.parted_of_fits ?_ ?_ ?_ ?_ heq)
      · exact mul_pos (by exact_mod_cast sub_pos.mpr hst) hunit
      · exact mul_pos (by exact_mod_cast hproductPos) hunit
      · refine PyDecimal.fits_intCast_mul ?_
        rw [abs_lt]
        constructor <;> linarith
      · refine PyDecimal.fits_intCast_mul ?_
        rw [abs_of_pos hproductPos]
        exact hdigits

section Specimen

def lateTransient : Mapping JsonFloat :=
  [(lit "id", .str (lit "late")), (lit "kind", .str (lit "tran")), (lit "step", .int (10 ^ 30)),
    (lit "stop", .int (7 * 10 ^ 30 + 1)),
    (lit "sampling_plan", .object [(lit "kind", .str (lit "coherent_uniform")),
      (lit "point_count", .int 8)])]

def longSweep (steps : ℤ) : Mapping JsonFloat :=
  [(lit "id", .str (lit "long")), (lit "kind", .str (lit "dc")), (lit "source", .str (lit "V1")),
    (lit "start", .int 0), (lit "stop", .int (steps * 10 ^ 30 + 1)), (lit "step", .int (10 ^ 30))]

/-- The late transient is accepted with its plan; a sweep of five points is counted as four, and one
of 1000001 points is accepted. -/
theorem late_plan_accepted :
    ((tranAnalysis Scalars.plainArithmetic Template.exactText lateTransient).1 = [] ∧
      (scalarAt Scalars.plainArithmetic Template.exactText lateTransient "stop").map
        (fun stop => stop.value -
          (tranStart Scalars.plainArithmetic Template.exactText lateTransient).value) ≠
      (scalarAt Scalars.plainArithmetic Template.exactText lateTransient "step").map
        fun step => step.value * ((8 - 1 : ℤ) : ℚ)) ∧
    (dcAnalysis Scalars.plainArithmetic Template.exactText true (longSweep 3) = ([], 4) ∧
      (dcSweep Scalars.plainArithmetic Template.exactText (longSweep 3)).map Sweep.pointCount =
        some 5) ∧
    dcAnalysis Scalars.plainArithmetic Template.exactText true (longSweep 999999) = ([], 1000000) ∧
      (dcSweep Scalars.plainArithmetic Template.exactText (longSweep 999999)).map Sweep.pointCount =
        some 1000001 := by
  refine ⟨⟨by decide +kernel, by decide +kernel⟩, ⟨by decide +kernel, by decide +kernel⟩,
    by decide +kernel, by decide +kernel⟩

end Specimen

end OpenADA.Experiment
