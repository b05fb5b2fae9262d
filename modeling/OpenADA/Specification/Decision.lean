import OpenADA.Specification.Evaluate

/-! The evaluation of a specification decides: where a measurement establishes a value, by whether
the interval admits it, and nowhere else. -/
namespace OpenADA.SpecificationEvaluate

open PyStr Series

section Exact

def SameValue : ConditionValue SignedRat → ConditionValue SignedRat → Prop
  | .number x, .number y => x.1.value = y.1.value
  | .flag a, .flag b => a = b
  | .text a, .text b => a = b
  | _, _ => False

theorem sameValue_iff {a b : ConditionValue SignedRat} : sameValue a b = true ↔ SameValue a b := by
  cases a <;> cases b <;> simp [sameValue, SameValue, PyFloat.eq]

def Bound.Below (bound : Bound SignedRat) (x : ℚ) : Prop :=
  bound.value.1.value < x ∨ (bound.value.1.value = x ∧ bound.inclusive = true)

def Bound.Above (bound : Bound SignedRat) (x : ℚ) : Prop :=
  x < bound.value.1.value ∨ (x = bound.value.1.value ∧ bound.inclusive = true)

def Limits.Admits (limits : Limits SignedRat) (x : ℚ) : Prop :=
  (∀ bound ∈ limits.lower, bound.Below x) ∧ ∀ bound ∈ limits.upper, bound.Above x

def Limits.distances (limits : Limits SignedRat) (x : ℚ) : List ℚ :=
  (limits.lower.map fun bound => x - bound.value.1.value).toList ++
    (limits.upper.map fun bound => bound.value.1.value - x).toList

def Limits.units (limits : Limits SignedRat) : List (Text 64) :=
  (limits.lower.toList ++ limits.upper.toList).map Bound.unit

/-- The measurement is the one of the specification and has the value, in the unit of the limits,
under every declared condition. -/
structure Established (measurement : Measurement SignedRat)
    (specification : Specification SignedRat) (x : ℚ) : Prop where
  identity : specification.measurementId = measurement.measurementId
  reading : ∃ measured unit, measurement.reading = .measured measured unit ∧
    measured.1.value = x ∧ ∀ declared ∈ specification.limits.units, declared = unit
  conditions : ∀ required ∈ specification.conditions.1, ∃ actual ∈ measurement.source.conditions.1,
    actual.name = required.name ∧ actual.unit = required.unit ∧
      SameValue actual.value required.value

theorem Established.unique {measurement : Measurement SignedRat}
    {specification other : Specification SignedRat} {x y : ℚ}
    (hx : Established measurement specification x) (hy : Established measurement other y) :
    x = y := by
  obtain ⟨measured, unit, hreading, rfl, -⟩ := hx.reading
  obtain ⟨other, _, hother, rfl, -⟩ := hy.reading
  rw [hreading] at hother
  rw [(Reading.measured.inj hother).1]

theorem find_condition {conditions : Conditions SignedRat} {name : Text 256}
    {found : Condition SignedRat} :
    (conditions.1.find? fun item => decide (item.name = name)) = some found ↔
      found ∈ conditions.1 ∧ found.name = name := by
  constructor
  · intro h
    exact ⟨List.mem_of_find?_eq_some h, of_decide_eq_true (List.find?_some h :)⟩
  · rintro ⟨hmem, hname⟩
    cases hfind : conditions.1.find? fun item => decide (item.name = name) with
    | none => exact absurd (decide_eq_true hname) (List.find?_eq_none.mp hfind found hmem)
    | some other =>
      have hother : other.name = name := of_decide_eq_true (List.find?_some hfind :)
      rw [List.inj_on_of_nodup_map conditions.2 (List.mem_of_find?_eq_some hfind) hmem
        (hother.trans hname.symm)]

theorem matchConditions_iff {actual : Conditions SignedRat}
    {required : List (Condition SignedRat)} {matched : ℕ} :
    (matchConditions actual.1 matched required).2 = none ↔
      ∀ item ∈ required, ∃ found ∈ actual.1, found.name = item.name ∧ found.unit = item.unit ∧
        SameValue found.value item.value := by
  induction required generalizing matched with
  | nil => simp [matchConditions]
  | cons item rest ih =>
    rw [List.forall_mem_cons, matchConditions]
    cases hfind : actual.1.find? fun other => decide (other.name = item.name) with
    | none =>
      apply iff_of_false (Option.some_ne_none _)
      rintro ⟨⟨found, hmem, hname, -⟩, -⟩
      exact List.find?_eq_none.mp hfind found hmem (decide_eq_true hname)
    | some found =>
      obtain ⟨hmem, hname⟩ := find_condition.mp hfind
      have honly : (∃ other ∈ actual.1, other.name = item.name ∧ other.unit = item.unit ∧
          SameValue other.value item.value) ↔
            found.unit = item.unit ∧ SameValue found.value item.value := by
        constructor
        · rintro ⟨other, hother, hsame, hmatch⟩
          have heq := hfind.symm.trans (find_condition.mpr ⟨hother, hsame⟩)
          rw [Option.some.inj heq]
          exact hmatch
        · exact fun hmatch => ⟨found, hmem, hname, hmatch⟩
      rw [honly]
      dsimp only
      by_cases hunit : found.unit = item.unit
      · rw [if_neg (not_not.mpr hunit)]
        by_cases hvalue : SameValue found.value item.value
        · rw [if_neg (by rw [sameValue_iff.mpr hvalue]; decide), ih]
          exact ⟨fun h => ⟨⟨hunit, hvalue⟩, h⟩, And.right⟩
        · rw [if_pos (by rw [Bool.not_eq_true', ← Bool.not_eq_true, sameValue_iff]; exact hvalue)]
          exact iff_of_false (Option.some_ne_none unprovenCode) fun h => hvalue h.1.2
      · rw [if_pos hunit]
        exact iff_of_false (Option.some_ne_none unitCode) fun h => hunit h.1.1

theorem judgeLower_violated {measured : SignedRat} {bound : Bound SignedRat} :
    (judgeLower measured bound).violated = true ↔ ¬bound.Below measured.value := by
  have hlt : PyFloat.lt measured bound.value.1 =
      decide (measured.value < bound.value.1.value) := rfl
  have heq : PyFloat.eq measured bound.value.1 =
      decide (measured.value = bound.value.1.value) := rfl
  unfold judgeLower Bound.Below
  dsimp only
  rw [hlt, heq]
  cases bound.inclusive with
  | true =>
    simp only [Bool.not_true, Bool.and_false, Bool.or_false, decide_eq_true_iff, and_true, not_or,
      not_lt]
    exact ⟨fun h => ⟨h.le, h.ne'⟩, fun h => lt_of_le_of_ne h.1 (Ne.symm h.2)⟩
  | false =>
    simp only [Bool.not_false, Bool.and_true, Bool.or_eq_true, decide_eq_true_iff,
      Bool.false_eq_true, and_false, or_false, not_lt]
    exact le_iff_lt_or_eq.symm

theorem judgeUpper_violated {measured : SignedRat} {bound : Bound SignedRat} :
    (judgeUpper measured bound).violated = true ↔ ¬bound.Above measured.value := by
  have hlt : PyFloat.lt bound.value.1 measured =
      decide (bound.value.1.value < measured.value) := rfl
  have heq : PyFloat.eq measured bound.value.1 =
      decide (measured.value = bound.value.1.value) := rfl
  unfold judgeUpper Bound.Above
  dsimp only
  rw [hlt, heq]
  cases bound.inclusive with
  | true =>
    simp only [Bool.not_true, Bool.and_false, Bool.or_false, decide_eq_true_iff, and_true, not_or,
      not_lt]
    exact ⟨fun h => ⟨h.le, h.ne'⟩, fun h => lt_of_le_of_ne h.1 (Ne.symm h.2)⟩
  | false =>
    simp only [Bool.not_false, Bool.and_true, Bool.or_eq_true, decide_eq_true_iff,
      Bool.false_eq_true, and_false, or_false, not_lt]
    rw [le_iff_lt_or_eq, @eq_comm _ measured.value]

theorem judgeLimits_violated {measured : SignedRat} {limits : Limits SignedRat} :
    (judgeLimits measured limits).any Judged.violated = true ↔ ¬limits.Admits measured.value := by
  unfold judgeLimits Limits.Admits
  cases limits.lower with
  | none =>
    cases limits.upper with
    | none => simp
    | some upper => simp [judgeUpper_violated]
  | some lower =>
    cases limits.upper with
    | none => simp [judgeLower_violated]
    | some upper => simp [judgeLower_violated, judgeUpper_violated, imp_iff_not_or]

theorem judgeLimits_margins {measured : SignedRat} {limits : Limits SignedRat} :
    (judgeLimits measured limits).map (fun item => item.margin.value) =
      limits.distances measured.value := by
  unfold judgeLimits Limits.distances
  cases limits.lower <;> cases limits.upper <;> rfl

theorem foldl_limiting (first : Judged SignedRat) (rest : List (Judged SignedRat)) :
    let best := rest.foldl (fun best next =>
      if PyFloat.lt next.margin best.margin then next else best) first
    best ∈ first :: rest ∧ ∀ item ∈ first :: rest, best.margin.value ≤ item.margin.value := by
  induction rest generalizing first with
  | nil => simp
  | cons next rest ih =>
    rw [List.foldl_cons]
    have hlt : PyFloat.lt next.margin first.margin =
        decide (next.margin.value < first.margin.value) := rfl
    rw [hlt]
    by_cases hless : next.margin.value < first.margin.value
    · rw [if_pos (decide_eq_true hless)]
      obtain ⟨hmem, hleast⟩ := ih next
      refine ⟨List.mem_cons_of_mem _ hmem, ?_⟩
      rw [List.forall_mem_cons]
      exact ⟨(hleast next List.mem_cons_self).trans hless.le, hleast⟩
    · rw [if_neg (by simp [hless])]
      obtain ⟨hmem, hleast⟩ := ih first
      have hkeep := hleast first List.mem_cons_self
      refine ⟨?_, ?_⟩
      · rcases List.mem_cons.mp hmem with hfirst | hrest
        · rw [hfirst]
          exact List.mem_cons_self
        · exact List.mem_cons_of_mem _ (List.mem_cons_of_mem _ hrest)
      · intro item hitem
        rcases List.mem_cons.mp hitem with rfl | hitem
        · exact hkeep
        rcases List.mem_cons.mp hitem with rfl | hitem
        · exact hkeep.trans (not_lt.mp hless)
        · exact hleast item (List.mem_cons_of_mem _ hitem)

theorem limiting_least (measured : SignedRat) (limits : Limits SignedRat) :
    ∃ item, limiting (judgeLimits measured limits) = some item ∧
      IsLeast {d | d ∈ limits.distances measured.value} item.margin.value := by
  have hmargins : limits.distances measured.value =
      (judgeLimits measured limits).map fun item => item.margin.value := judgeLimits_margins.symm
  cases hjudged : judgeLimits measured limits with
  | nil =>
    have hdeclared := limits.declared
    unfold judgeLimits at hjudged
    obtain ⟨hlower, hupper⟩ := List.append_eq_nil_iff.mp hjudged
    rw [Option.toList_eq_nil_iff, Option.map_eq_none_iff] at hlower hupper
    rw [hlower, hupper] at hdeclared
    simp at hdeclared
  | cons first rest =>
    obtain ⟨hmem, hleast⟩ := foldl_limiting first rest
    refine ⟨_, rfl, ?_⟩
    rw [hmargins, hjudged]
    constructor
    · exact List.mem_map.mpr ⟨_, hmem, rfl⟩
    · intro d hd
      obtain ⟨item, hitem, rfl⟩ := List.mem_map.mp hd
      exact hleast item hitem

theorem distances_nonneg {limits : Limits SignedRat} {x : ℚ} (h : limits.Admits x) :
    ∀ d ∈ limits.distances x, 0 ≤ d := by
  intro d hd
  rcases List.mem_append.mp hd with hd | hd
  · obtain ⟨bound, hbound, rfl⟩ := Option.map_eq_some_iff.mp (Option.mem_toList.mp hd)
    rcases h.1 bound hbound with hlt | ⟨heq, -⟩
    · linarith
    · linarith
  · obtain ⟨bound, hbound, rfl⟩ := Option.map_eq_some_iff.mp (Option.mem_toList.mp hd)
    rcases h.2 bound hbound with hlt | ⟨heq, -⟩
    · linarith
    · linarith

theorem exists_distance_nonpos {limits : Limits SignedRat} {x : ℚ} (h : ¬limits.Admits x) :
    ∃ d ∈ limits.distances x, d ≤ 0 := by
  rcases not_and_or.mp h with hlower | hupper
  · push Not at hlower
    obtain ⟨bound, hbound, hbelow⟩ := hlower
    refine ⟨x - bound.value.1.value, ?_, ?_⟩
    · apply List.mem_append_left
      rw [Option.mem_toList, Option.map_eq_some_iff]
      exact ⟨bound, hbound, rfl⟩
    · have hle := not_lt.mp (not_or.mp hbelow).1
      linarith
  · push Not at hupper
    obtain ⟨bound, hbound, habove⟩ := hupper
    refine ⟨bound.value.1.value - x, ?_, ?_⟩
    · apply List.mem_append_right
      rw [Option.mem_toList, Option.map_eq_some_iff]
      exact ⟨bound, hbound, rfl⟩
    · have hle := not_lt.mp (not_or.mp habove).1
      linarith

variable {measurement : Measurement SignedRat} {specification : Specification SignedRat}

theorem unitsDiffer_iff {unit : Text 64} {limits : Limits SignedRat} :
    limits.unitsDiffer unit = true ↔ ¬∀ declared ∈ limits.units, declared = unit := by
  unfold Limits.unitsDiffer Limits.units
  rw [List.any_eq_true, List.forall_mem_map]
  push Not
  simp only [decide_eq_true_iff]

theorem judged_finite (measured : SignedRat) (limits : Limits SignedRat) :
    ((judgeLimits measured limits).all fun item => PyFloat.isFinite item.margin) = true :=
  List.all_eq_true.mpr fun _ _ => rfl

theorem evaluate_established {x : ℚ} (h : Established measurement specification x) :
    ∃ evaluation, evaluate measurement specification = .ok evaluation ∧
      (evaluation.status = .pass ↔ specification.limits.Admits x) ∧
      (evaluation.status = .fail ↔ ¬specification.limits.Admits x) ∧
      ∃ margin, evaluation.margin = some margin ∧
        IsLeast {d | d ∈ specification.limits.distances x} margin.value.value := by
  obtain ⟨measured, unit, hreading, rfl, hunits⟩ := h.reading
  have hmatched : (matchConditions measurement.source.conditions.1 0
      specification.conditions.1).2 = none := matchConditions_iff.mpr h.conditions
  obtain ⟨item, hitem, hleast⟩ := limiting_least measured.1 specification.limits
  have hviolated := @judgeLimits_violated measured.1 specification.limits
  unfold evaluate
  rw [if_neg (not_not.mpr h.identity), hreading]
  dsimp only
  rw [if_neg (by rw [unitsDiffer_iff]; exact not_not.mpr hunits)]
  cases hcount : matchConditions measurement.source.conditions.1 0 specification.conditions.1 with
  | mk count code =>
    rw [hcount] at hmatched
    obtain rfl : code = none := hmatched
    dsimp only
    rw [judged_finite, hitem]
    refine ⟨_, rfl, ?_, ?_, _, rfl, hleast⟩
    · dsimp only
      split_ifs with hcase
      · exact iff_of_false (by decide) (hviolated.mp hcase)
      · exact iff_of_true rfl (not_not.mp fun hnot => hcase (hviolated.mpr hnot))
    · dsimp only
      split_ifs with hcase
      · exact iff_of_true rfl (hviolated.mp hcase)
      · exact iff_of_false (by decide) fun hnot => hcase (hviolated.mpr hnot)

theorem evaluate_unknown {evaluation : Evaluation SignedRat}
    (h : ∀ x, ¬Established measurement specification x)
    (hrun : evaluate measurement specification = .ok evaluation) :
    evaluation.status = .unknown ∧ evaluation.margin = none := by
  obtain ⟨hidentity, hrun⟩ := Except.guard_eq_ok.mp hrun
  cases hreading : measurement.reading with
  | unmeasured unit =>
    rw [hreading] at hrun
    obtain rfl := Except.ok.inj hrun
    exact ⟨rfl, rfl⟩
  | measured measured unit =>
    rw [hreading] at hrun
    dsimp only at hrun
    by_cases hunits : specification.limits.unitsDiffer unit = true
    · rw [if_pos hunits] at hrun
      obtain rfl := Except.ok.inj hrun
      exact ⟨rfl, rfl⟩
    · rw [if_neg hunits] at hrun
      cases hcount : matchConditions measurement.source.conditions.1 0
          specification.conditions.1 with
      | mk count code =>
        rw [hcount] at hrun
        cases code with
        | some code =>
          obtain rfl := Except.ok.inj hrun
          exact ⟨rfl, rfl⟩
        | none =>
          have hmatched : (matchConditions measurement.source.conditions.1 0
              specification.conditions.1).2 = none := by
            rw [hcount]
          rw [unitsDiffer_iff, not_not] at hunits
          exact absurd ⟨not_not.mp hidentity, ⟨measured, unit, hreading, rfl, hunits⟩,
            matchConditions_iff.mp hmatched⟩ (h measured.1.value)

theorem evaluate_error {fault : Fault} (h : evaluate measurement specification = .error fault) :
    ∃ request, fault = .invalid request := by
  unfold evaluate at h
  by_cases hidentity : specification.measurementId ≠ measurement.measurementId
  · rw [if_pos hidentity] at h
    exact ⟨_, (Except.error.inj h).symm⟩
  rw [if_neg hidentity] at h
  cases hreading : measurement.reading with
  | unmeasured unit =>
    rw [hreading] at h
    cases h
  | measured measured unit =>
    rw [hreading] at h
    dsimp only at h
    by_cases hunits : specification.limits.unitsDiffer unit = true
    · rw [if_pos hunits] at h
      cases h
    rw [if_neg hunits, judged_finite] at h
    cases hcount : matchConditions measurement.source.conditions.1 0
        specification.conditions.1 with
    | mk count code =>
      rw [hcount] at h
      cases code <;> cases h

end Exact

section Claim

variable {sha256 : ByteArray → Sha256} {measurement specification : PyJson SignedRat}
  {accepted : Measurement SignedRat} {required : Specification SignedRat}

theorem evaluateSpecification_established {x : ℚ}
    (haccepted : normalizeMeasurement sha256 measurement = .ok accepted)
    (hrequired : normalizeSpecification specification = .ok required)
    (hx : Established accepted required x) :
    ∃ evaluation, evaluateSpecification sha256 measurement specification = .ok evaluation ∧
      (evaluation.status = .pass ↔ required.limits.Admits x) ∧
      (evaluation.status = .fail ↔ ¬required.limits.Admits x) ∧
      ∃ margin, evaluation.margin = some margin ∧
        IsLeast {d | d ∈ required.limits.distances x} margin.value.value := by
  obtain ⟨evaluation, hrun, hjudged⟩ := evaluate_established hx
  refine ⟨evaluation, ?_, hjudged⟩
  rw [evaluateSpecification, haccepted, hrequired]
  dsimp only
  rw [hrun]

theorem evaluateSpecification_unknown
    (haccepted : normalizeMeasurement sha256 measurement = .ok accepted)
    (hrequired : normalizeSpecification specification = .ok required)
    (h : ∀ x, ¬Established accepted required x) :
    ∃ evaluation, evaluateSpecification sha256 measurement specification = .ok evaluation ∧
      evaluation.status = .unknown ∧ evaluation.margin = none := by
  rw [evaluateSpecification, haccepted, hrequired]
  dsimp only
  cases hrun : evaluate accepted required with
  | error fault =>
    obtain ⟨request, rfl⟩ := evaluate_error hrun
    exact ⟨_, rfl, rfl, rfl⟩
  | ok evaluation => exact ⟨evaluation, rfl, evaluate_unknown h hrun⟩

structure Decided (accepted : Measurement SignedRat) (required : Specification SignedRat)
    (evaluation : Evaluation SignedRat) : Prop where
  pass : evaluation.status = .pass ↔
    ∃ x, Established accepted required x ∧ required.limits.Admits x
  fail : evaluation.status = .fail ↔
    ∃ x, Established accepted required x ∧ ¬required.limits.Admits x
  unknown : evaluation.status = .unknown ↔ ∀ x, ¬Established accepted required x
  margin : ∀ x, Established accepted required x → ∃ margin, evaluation.margin = some margin ∧
    IsLeast {d | d ∈ required.limits.distances x} margin.value.value ∧
    (evaluation.status = .pass → 0 ≤ margin.value.value) ∧
    (evaluation.status = .fail → margin.value.value ≤ 0)
  unmargined : evaluation.status = .unknown → evaluation.margin = none

theorem evaluateSpecification_decided
    (haccepted : normalizeMeasurement sha256 measurement = .ok accepted)
    (hrequired : normalizeSpecification specification = .ok required) :
    ∃ evaluation, evaluateSpecification sha256 measurement specification = .ok evaluation ∧
      Decided accepted required evaluation := by
  by_cases hestablished : ∃ x, Established accepted required x
  · obtain ⟨x, hx⟩ := hestablished
    obtain ⟨evaluation, hrun, hpass, hfail, margin, hmargin, hleast⟩ :=
      evaluateSpecification_established haccepted hrequired hx
    have hdecided : evaluation.status ≠ .unknown := by
      intro hunknown
      rw [hunknown] at hpass hfail
      exact Verdict.noConfusion (hfail.mpr fun hadmits => Verdict.noConfusion (hpass.mpr hadmits))
    refine ⟨evaluation, hrun, ⟨?_, ?_, ?_, ?_, ?_⟩⟩
    · rw [hpass]
      exact ⟨fun hadmits => ⟨x, hx, hadmits⟩, fun ⟨y, hy, hadmits⟩ => hx.unique hy ▸ hadmits⟩
    · rw [hfail]
      exact ⟨fun hadmits => ⟨x, hx, hadmits⟩, fun ⟨y, hy, hadmits⟩ => hx.unique hy ▸ hadmits⟩
    · exact iff_of_false hdecided fun hnone => hnone x hx
    · intro y hy
      obtain rfl := hx.unique hy
      refine ⟨margin, hmargin, hleast, ?_, ?_⟩
      · intro hstatus
        exact distances_nonneg (hpass.mp hstatus) _ hleast.1
      · intro hstatus
        obtain ⟨d, hd, hnonpos⟩ := exists_distance_nonpos (hfail.mp hstatus)
        exact (hleast.2 hd).trans hnonpos
    · exact fun hunknown => absurd hunknown hdecided
  · have hnone : ∀ x, ¬Established accepted required x := fun x hx => hestablished ⟨x, hx⟩
    obtain ⟨evaluation, hrun, hstatus, hmargin⟩ :=
      evaluateSpecification_unknown haccepted hrequired hnone
    refine ⟨evaluation, hrun, ⟨?_, ?_, ?_, ?_, fun _ => hmargin⟩⟩
    · rw [hstatus]
      exact iff_of_false (by decide) fun ⟨x, hx, _⟩ => hnone x hx
    · rw [hstatus]
      exact iff_of_false (by decide) fun ⟨x, hx, _⟩ => hnone x hx
    · exact iff_of_true hstatus hnone
    · exact fun x hx => absurd hx (hnone x)

/-- The evaluation of an accepted measurement against an accepted specification is a three-valued
decision, with the least signed distance to the bounds; no narrower interval, in whatever
specification, passes a measurement that fails. -/
theorem evaluateSpecification_correct (sha256 : ByteArray → Sha256)
    (measurement specification : PyJson SignedRat)
    (haccepted : normalizeMeasurement sha256 measurement = .ok accepted)
    (hrequired : normalizeSpecification specification = .ok required) :
    ∃ evaluation, evaluateSpecification sha256 measurement specification = .ok evaluation ∧
      Decided accepted required evaluation ∧
      ∀ tightened other, normalizeSpecification tightened = .ok other →
        (∀ x, other.limits.Admits x → required.limits.Admits x) → evaluation.status = .fail →
        ∃ found, evaluateSpecification sha256 measurement tightened = .ok found ∧
          found.status ≠ .pass := by
  obtain ⟨evaluation, hrun, hdecided⟩ := evaluateSpecification_decided haccepted hrequired
  refine ⟨evaluation, hrun, hdecided, ?_⟩
  intro tightened other hother hnarrower hfail
  obtain ⟨found, hfound, htightened⟩ := evaluateSpecification_decided haccepted hother
  refine ⟨found, hfound, ?_⟩
  intro hpass
  obtain ⟨x, hx, houtside⟩ := hdecided.fail.mp hfail
  obtain ⟨y, hy, hadmits⟩ := htightened.pass.mp hpass
  obtain rfl := hx.unique hy
  exact houtside (hnarrower x hadmits)

def steadyHash (_ : ByteArray) : Sha256 := ⟨List.replicate 64 (point 'a'), by decide⟩

def steadyDigest : PyJson SignedRat := .str (List.replicate 64 (point 'a'))

def temperature (unit : String) : PyJson SignedRat :=
  .array [.object [(lit "name", .str (lit "temperature")), (lit "value", .int 27),
    (lit "unit", .str (lit unit))]]

def gainMeasurement : PyJson SignedRat :=
  .object [(lit "measurement_id", .str (lit "stage-gain")), (lit "kind", .str (lit "mean-ratio")),
    (lit "status", .str (lit "measured")), (lit "request_sha256", steadyDigest),
    (lit "value", .int 3), (lit "unit", .str (lit "dB")), (lit "signal", .str (lit "amplifier")),
    (lit "location", .null),
    (lit "algorithm", .object [(lit "id", .str (lit "mean-ratio")), (lit "version", .str (lit "0.2"))]),
    (lit "sample_count", .int 2),
    (lit "source", .object [(lit "operation", .str (lit "gain-bench")),
      (lit "request_id", .str (lit "00000000-0000-4000-8000-000000000066")),
      (lit "artifact_role", .str (lit "measurement.source")),
      (lit "artifact_sha256", steadyDigest), (lit "series_sha256", steadyDigest),
      (lit "conditions_sha256", steadyDigest), (lit "conditions", temperature "degC"),
      (lit "lineage", .null)]),
    (lit "extensions", .object [])]

def gainSpecification (unit : String) : PyJson SignedRat :=
  .object [(lit "specification_id", .str (lit "least-gain")),
    (lit "measurement_id", .str (lit "stage-gain")),
    (lit "limits", .object [(lit "lower", .object [(lit "value", .int 2),
      (lit "unit", .str (lit "dB")), (lit "inclusive", .bool true)])]),
    (lit "conditions", temperature unit), (lit "extensions", .object [])]

def temperatureCondition (unit : Text 64) : Condition SignedRat :=
  ⟨⟨lit "temperature", by decide⟩, .number ⟨.rat 27, rfl⟩, unit⟩

def degrees : Text 64 := ⟨lit "degC", by decide⟩

def kelvin : Text 64 := ⟨lit "K", by decide⟩

def gainAccepted : Measurement SignedRat :=
  ⟨⟨lit "stage-gain", by decide⟩, ⟨lit "mean-ratio", by decide⟩, some (steadyHash .empty),
    .measured ⟨.rat 3, rfl⟩ ⟨lit "dB", by decide⟩, ⟨lit "amplifier", by decide⟩, none,
    ⟨lit "mean-ratio", by decide⟩, ⟨lit "0.2", by decide⟩, 2,
    ⟨⟨lit "gain-bench", by decide⟩, ⟨lit "00000000-0000-4000-8000-000000000066", by decide⟩,
      steadyHash .empty, steadyHash .empty, ⟨[temperatureCondition degrees], by decide⟩, none⟩⟩

def gainRequired (unit : Text 64) : Specification SignedRat :=
  ⟨⟨lit "least-gain", by decide⟩, ⟨lit "stage-gain", by decide⟩,
    ⟨some ⟨⟨.rat 2, rfl⟩, ⟨lit "dB", by decide⟩, true⟩, none, .inl rfl⟩,
    ⟨[temperatureCondition unit], List.nodup_singleton _⟩⟩

theorem gainRequired_units (unit : Text 64) :
    ∀ declared ∈ (gainRequired unit).limits.units, declared = ⟨lit "dB", by decide⟩ :=
  List.forall_mem_singleton.mpr rfl

theorem gainRequired_admits (unit : Text 64) : (gainRequired unit).limits.Admits 3 := by
  constructor
  · rintro bound ⟨⟩
    left
    show (2 : ℚ) < 3
    norm_num
  · rintro bound ⟨⟩

theorem gain_passes :
    ∃ evaluation, evaluateSpecification steadyHash gainMeasurement (gainSpecification "degC") =
      .ok evaluation ∧ evaluation.status = .pass := by
  obtain ⟨evaluation, hrun, hdecided, -⟩ := evaluateSpecification_correct steadyHash gainMeasurement
    (gainSpecification "degC") (show normalizeMeasurement steadyHash gainMeasurement = .ok gainAccepted from rfl)
    (show normalizeSpecification (gainSpecification "degC") = .ok (gainRequired degrees) from rfl)
  refine ⟨evaluation, hrun, hdecided.pass.mpr ⟨3, ⟨rfl, ?_, ?_⟩, gainRequired_admits degrees⟩⟩
  · exact ⟨⟨.rat 3, rfl⟩, _, rfl, rfl, gainRequired_units degrees⟩
  · exact List.forall_mem_singleton.mpr ⟨_, List.mem_singleton_self _, rfl, rfl, rfl⟩

/-- Type and value of a condition are not enough: its unit has to be the declared one as well. -/
theorem conditionUnit_decides :
    ¬∀ (sha256 : ByteArray → Sha256) (measurement specification : PyJson SignedRat)
      (accepted : Measurement SignedRat) (required : Specification SignedRat)
      (evaluation : Evaluation SignedRat),
      normalizeMeasurement sha256 measurement = .ok accepted →
      normalizeSpecification specification = .ok required →
      evaluateSpecification sha256 measurement specification = .ok evaluation →
      (evaluation.status = .pass ↔
        required.measurementId = accepted.measurementId ∧
        (∃ measured unit, accepted.reading = .measured measured unit ∧
          (∀ declared ∈ required.limits.units, declared = unit) ∧
          required.limits.Admits measured.1.value) ∧
        ∀ condition ∈ required.conditions.1, ∃ actual ∈ accepted.source.conditions.1,
          actual.name = condition.name ∧ SameValue actual.value condition.value) := by
  intro h
  have hnone : ∀ x, ¬Established gainAccepted (gainRequired kelvin) x := by
    intro x hx
    obtain ⟨actual, hactual, -, hunit, -⟩ := hx.conditions _ (List.mem_singleton_self _)
    obtain rfl := List.mem_singleton.mp hactual
    exact absurd hunit (by decide)
  obtain ⟨evaluation, hrun, hstatus, -⟩ := evaluateSpecification_unknown
    (show normalizeMeasurement steadyHash gainMeasurement = .ok gainAccepted from rfl)
    (show normalizeSpecification (gainSpecification "K") = .ok (gainRequired kelvin) from rfl) hnone
  have hpass := (h steadyHash gainMeasurement (gainSpecification "K") gainAccepted
    (gainRequired kelvin) evaluation rfl rfl hrun).mpr ⟨rfl,
      ⟨⟨.rat 3, rfl⟩, _, rfl, gainRequired_units kelvin, gainRequired_admits kelvin⟩,
      List.forall_mem_singleton.mpr ⟨_, List.mem_singleton_self _, rfl, rfl⟩⟩
  rw [hstatus] at hpass
  cases hpass

end Claim

end OpenADA.SpecificationEvaluate
