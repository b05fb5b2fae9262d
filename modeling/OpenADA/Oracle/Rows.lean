import OpenADA.Library.ExceptFold
import OpenADA.Oracle.Compare

/-! Every row of a comparison is evaluated: no denominator is zero, a value stands with its verdict,
and what counts or compares fractions is a fraction. -/
namespace OpenADA.Oracle

variable {F : Type} [PyFloat F]

structure FloatOrder (F : Type) [PyFloat F] : Prop where
  le_trans : ∀ a b c : F, PyFloat.le a b = true → PyFloat.le b c = true → PyFloat.le a c = true
  le_of_not_lt : ∀ a b : F, PyFloat.isFinite a = true → PyFloat.isFinite b = true →
    PyFloat.lt a b = false → PyFloat.le b a = true
  ofRat_le : ∀ a b : ℚ, a ≤ b → PyFloat.le (PyFloat.ofRat a : F) (PyFloat.ofRat b) = true
  finite_of_fraction : ∀ a : F, PyFloat.le (PyFloat.ofRat 0) a = true →
    PyFloat.le a (PyFloat.ofRat 1) = true → PyFloat.isFinite a = true
  abs_finite : ∀ a : F, PyFloat.isFinite a = true → PyFloat.isFinite (PyFloat.abs a) = true
  abs_nonneg : ∀ a : F, PyFloat.isFinite a = true →
    PyFloat.le (PyFloat.ofRat 0) (PyFloat.abs a) = true
  abs_sub_le : ∀ a b : F, PyFloat.isFinite a = true → PyFloat.isFinite b = true →
    PyFloat.le (PyFloat.ofRat 0) a = true → PyFloat.le (PyFloat.ofRat 0) b = true →
    PyFloat.le (PyFloat.ofRat 0) (PyFloat.abs (a - b)) = true ∧
      PyFloat.le (PyFloat.abs (a - b)) (PyFloat.max a b) = true
  div_isSome : ∀ a b : F, PyFloat.le b (PyFloat.ofRat 0) = false → (PyFloat.div a b).isSome = true
  div_fraction : ∀ a b c : F, PyFloat.le (PyFloat.ofRat 0) a = true → PyFloat.le a b = true →
    PyFloat.isFinite b = true → PyFloat.div a b = some c →
    PyFloat.le (PyFloat.ofRat 0) c = true ∧ PyFloat.le c (PyFloat.ofRat 1) = true

def IsFraction (value : F) : Prop :=
  PyFloat.le (PyFloat.ofRat 0) value = true ∧ PyFloat.le value (PyFloat.ofRat 1) = true

def FractionDetails (details : List (String × Json F)) : Prop :=
  ∀ name value, (name, Json.float value) ∈ details →
    name = "observed_fraction" ∨ name = "oracle_fraction" → IsFraction value

def Reports (row : Row F) (good : F → Prop) (result : RowResult F) : Prop :=
  (∃ reason, result = unknown row reason) ∨
    ∃ value reason details, good value ∧ FractionDetails details ∧
      result = measured row value reason details

def RowBody.reportsFraction : RowBody F → Bool
  | .mismatchCurve .. | .signedResponseCoverage .. | .invalidDetectionRecall | .falseValidRate
  | .completeness .. | .lineagePresence .. => true
  | _ => false

section Rows

variable {row : Row F} {good : F → Prop} {result : RowResult F} {value : F}

theorem FractionDetails.nil : FractionDetails ([] : List (String × Json F)) :=
  fun _ _ h => absurd h List.not_mem_nil

theorem Reports.row_eq (h : Reports row good result) : result.row = row := by
  rcases h with ⟨reason, rfl⟩ | ⟨value, reason, details, -, -, rfl⟩
  · rfl
  · unfold measured
    split <;> rfl

theorem Reports.details (h : Reports row good result) : FractionDetails result.details := by
  rcases h with ⟨reason, rfl⟩ | ⟨value, reason, details, -, hdetails, rfl⟩
  · exact .nil
  · unfold measured
    split
    · exact hdetails
    · exact .nil

theorem Reports.of_value (h : Reports row good result) (hvalue : result.value = some value) :
    good value ∧ PyFloat.isFinite value = true ∧ result.status = verdict value row.limit := by
  rcases h with ⟨reason, rfl⟩ | ⟨found, reason, details, hgood, -, rfl⟩
  · cases hvalue
  · unfold measured at hvalue ⊢
    by_cases hfinite : PyFloat.isFinite found = true
    · rw [if_pos hfinite] at hvalue ⊢
      obtain rfl : found = value := Option.some.inj hvalue
      exact ⟨hgood, hfinite, rfl⟩
    · rw [if_neg hfinite] at hvalue
      cases hvalue

theorem Reports.of_none (h : Reports row good result) (hvalue : result.value = none) :
    result.status = .unknown := by
  rcases h with ⟨reason, rfl⟩ | ⟨found, reason, details, -, -, rfl⟩
  · rfl
  · unfold measured at hvalue ⊢
    by_cases hfinite : PyFloat.isFinite found = true
    · rw [if_pos hfinite] at hvalue
      cases hvalue
    · rw [if_neg hfinite]
      rfl

theorem Reports.mono {good' : F → Prop} (h : Reports row good result)
    (himp : ∀ value, good value → good' value) : Reports row good' result := by
  rcases h with hunknown | ⟨value, reason, details, hgood, hrest⟩
  · exact Or.inl hunknown
  · exact Or.inr ⟨value, reason, details, himp value hgood, hrest⟩

end Rows

section Arithmetic

variable {items : List F} {value : Json F}

theorem isFinite_of_number {number : F} (h : number? value = some number) :
    PyFloat.isFinite number = true := by
  cases value with
  | int n =>
    exact (Option.filter_eq_some_iff.mp h).2
  | float x =>
    unfold number? at h
    dsimp only at h
    by_cases hx : PyFloat.isFinite x = true
    · rw [if_pos hx] at h
      exact Option.some.inj h ▸ hx
    · rw [if_neg hx] at h
      cases h
  | _ => cases h

theorem numbers_spec (h : numbers value = some items) :
    items ≠ [] ∧ ∀ x ∈ items, PyFloat.isFinite x = true := by
  cases value with
  | array texts =>
    cases texts with
    | nil => cases h
    | cons first rest =>
      have hall : ∀ (texts : List (Json F)) (found : List F), texts.mapM number? = some found →
          found.length = texts.length ∧ ∀ x ∈ found, PyFloat.isFinite x = true := by
        intro texts
        induction texts with
        | nil =>
          intro found hfound
          rw [List.mapM_nil] at hfound
          rw [← Option.some.inj hfound]
          exact ⟨rfl, fun x hx => absurd hx List.not_mem_nil⟩
        | cons text texts ih =>
          intro found hfound
          rw [List.mapM_cons, Option.bind_eq_bind, Option.bind_eq_some_iff] at hfound
          obtain ⟨x, hx, hfound⟩ := hfound
          rw [Option.bind_eq_bind, Option.bind_eq_some_iff] at hfound
          obtain ⟨others, hothers, hfound⟩ := hfound
          rw [← Option.some.inj hfound]
          obtain ⟨hlength, hfinite⟩ := ih others hothers
          exact ⟨by rw [List.length_cons, List.length_cons, hlength],
            List.forall_mem_cons.mpr ⟨isFinite_of_number hx, hfinite⟩⟩
      obtain ⟨hlength, hfinite⟩ := hall (first :: rest) items h
      refine ⟨?_, hfinite⟩
      rintro rfl
      cases hlength
  | _ => cases h

theorem curve_spec {xName yName : String} {x y : List F}
    (h : curve value xName yName = some (x, y)) :
    x ≠ [] ∧ x.length = y.length ∧ ∀ v ∈ y, PyFloat.isFinite v = true := by
  cases value with
  | object fields =>
    unfold curve at h
    dsimp only at h
    split_ifs at h
    cases hx : numbers (Fields.at (InsertionDict.ofList fields) xName) with
    | none =>
      rw [hx] at h
      cases h
    | some xs =>
      cases hy : numbers (Fields.at (InsertionDict.ofList fields) yName) with
      | none =>
        rw [hx, hy] at h
        cases h
      | some ys =>
        rw [hx, hy] at h
        dsimp only at h
        by_cases hlength : xs.length = ys.length
        · rw [if_pos hlength] at h
          obtain ⟨rfl, rfl⟩ := Prod.mk.inj (Option.some.inj h)
          exact ⟨(numbers_spec hx).1, hlength, (numbers_spec hy).2⟩
        · rw [if_neg hlength] at h
          cases h
  | _ => cases h

theorem observedCurve_spec {xName yName : String} {x y : List F}
    (h : observedCurve value xName yName = some (x, y)) :
    x ≠ [] ∧ x.length = y.length ∧ ∀ v ∈ y, PyFloat.isFinite v = true := by
  unfold observedCurve at h
  cases hcurve : curve value "x" "y" with
  | none =>
    rw [hcurve] at h
    exact curve_spec h
  | some found =>
    rw [hcurve] at h
    exact curve_spec (hcurve.trans h)

theorem max_finite {a b : F} (ha : PyFloat.isFinite a = true) (hb : PyFloat.isFinite b = true) :
    PyFloat.isFinite (PyFloat.max a b) = true := by
  unfold PyFloat.max
  by_cases hlt : PyFloat.lt a b = true
  · rw [if_pos hlt]
    exact hb
  · rw [if_neg hlt]
    exact ha

theorem positive_of_not_lt (laws : FloatOrder F) {a guard : F} (ha : PyFloat.isFinite a = true)
    (hguard : isPositive guard = true) (hfinite : PyFloat.isFinite guard = true)
    (hlt : PyFloat.lt a guard = false) : PyFloat.le a (PyFloat.ofRat 0) = false := by
  rw [isPositive, Bool.not_eq_true'] at hguard
  by_contra hle
  rw [Bool.not_eq_false] at hle
  have hbelow := laws.le_trans guard a _ (laws.le_of_not_lt a guard ha hfinite hlt) hle
  rw [hguard] at hbelow
  cases hbelow

/-- A finite guard that is greater than zero keeps the denominator from zero. -/
theorem max_positive (laws : FloatOrder F) {a guard : F} (ha : PyFloat.isFinite a = true)
    (hguard : isPositive guard = true) (hfinite : PyFloat.isFinite guard = true) :
    PyFloat.le (PyFloat.max a guard) (PyFloat.ofRat 0) = false := by
  unfold PyFloat.max
  by_cases hlt : PyFloat.lt a guard = true
  · rw [if_pos hlt]
    rw [isPositive, Bool.not_eq_true'] at hguard
    exact hguard
  · rw [if_neg hlt]
    exact positive_of_not_lt laws ha hguard hfinite (Bool.not_eq_true _ ▸ hlt)

theorem divide_ok (laws : FloatOrder F) (a : F) {b : F}
    (hb : PyFloat.le b (PyFloat.ofRat 0) = false) : ∃ c, divide a b = .ok c := by
  obtain ⟨c, hc⟩ := Option.isSome_iff_exists.mp (laws.div_isSome a b hb)
  exact ⟨c, by rw [divide, hc]⟩

theorem ratio_ok (laws : FloatOrder F) {numerator denominator : ℕ} (hpos : denominator ≠ 0)
    (hle : numerator ≤ denominator) :
    ∃ value : F, ratio numerator denominator = .ok value ∧ IsFraction value := by
  have hpos' : (0 : ℚ) < denominator := by exact_mod_cast Nat.pos_of_ne_zero hpos
  have hle' : (numerator : ℚ) ≤ denominator := by exact_mod_cast hle
  refine ⟨_, if_neg hpos, laws.ofRat_le _ _ ?_, laws.ofRat_le _ _ ?_⟩
  · positivity
  · exact (div_le_one hpos').mpr hle'

end Arithmetic

section Guards

def ErrorSpec.Guarded : ErrorSpec F → Prop
  | .relative floor _ => PyFloat.isFinite floor = true
  | .guardedRelative guard _ => PyFloat.isFinite guard = true
  | _ => True

def RowBody.Guarded : RowBody F → Prop
  | .scalar _ _ error => error.Guarded
  | .curve _ _ _ _ error => error.Guarded
  | .mismatchCurve _ _ _ _ floor _ => PyFloat.isFinite floor = true
  | _ => True

theorem isFinite_of_positive {value : Json F} {number : {n : F // isPositive n = true}}
    (h : positive? value = some number) : PyFloat.isFinite number.1 = true := by
  obtain ⟨found, hfound, hnumber⟩ := Option.bind_eq_some_iff.mp h
  by_cases hpos : isPositive found = true
  · rw [dif_pos hpos] at hnumber
    rw [← Option.some.inj hnumber]
    exact isFinite_of_number hfound
  · rw [dif_neg hpos] at hnumber
    cases hnumber

theorem errorSpec_guarded {value : Json F} {label : String} {isCurve : Bool} {error : ErrorSpec F}
    (h : errorSpec value label isCurve = .ok error) : error.Guarded := by
  obtain ⟨item, -, h⟩ := Except.bind_eq_ok.mp h
  cases hkind : errorKind? (item.at "kind") isCurve with
  | none =>
    rw [hkind] at h
    cases h
  | some kind =>
    rw [hkind] at h
    cases kind with
    | absolute =>
      dsimp only at h
      by_cases hkeys : item.keys = ["kind"]
      · rw [if_pos hkeys] at h
        rw [← Except.ok.inj h]
        trivial
      · rw [if_neg hkeys] at h
        cases h
    | fractionAbsolute =>
      dsimp only at h
      by_cases hkeys : item.keys = ["kind"]
      · rw [if_pos hkeys] at h
        rw [← Except.ok.inj h]
        trivial
      · rw [if_neg hkeys] at h
        cases h
    | relative =>
      dsimp only at h
      cases hfloor : positive? (item.at "denominator_floor") with
      | none =>
        rw [hfloor] at h
        cases h
      | some floor =>
        rw [hfloor, Except.guard_eq_ok] at h
        rw [← Except.ok.inj h.2]
        exact isFinite_of_positive hfloor
    | guardedRelative =>
      dsimp only at h
      cases hguard : positive? (item.at "absolute_guard") with
      | none =>
        rw [hguard] at h
        cases h
      | some guard =>
        rw [hguard, Except.guard_eq_ok] at h
        rw [← Except.ok.inj h.2]
        exact isFinite_of_positive hguard

theorem denominatorBody_eq_ok {item : Fields F} {label expected : String} {body found : RowBody F}
    (h : denominatorBody item label expected body = .ok found) : found = body := by
  unfold denominatorBody at h
  cases hitem : item.at "denominator" with
  | str text =>
    rw [hitem] at h
    dsimp only at h
    by_cases htext : text = expected
    · rw [if_pos htext] at h
      exact (Except.ok.inj h).symm
    · rw [if_neg htext] at h
      cases h
  | _ =>
    rw [hitem] at h
    cases h

theorem rowBody_guarded {item : Fields F} {label kind : String} {body : RowBody F}
    (h : rowBody item label kind = .ok body) : body.Guarded := by
  unfold rowBody at h
  split at h
  · obtain ⟨observed, -, h⟩ := Except.bind_eq_ok.mp h
    obtain ⟨oracle, -, h⟩ := Except.bind_eq_ok.mp h
    obtain ⟨error, herror, h⟩ := Except.bind_eq_ok.mp h
    rw [← Except.ok.inj h]
    exact errorSpec_guarded herror
  · obtain ⟨observed, -, h⟩ := Except.bind_eq_ok.mp h
    obtain ⟨oracle, -, h⟩ := Except.bind_eq_ok.mp h
    obtain ⟨x, -, h⟩ := Except.bind_eq_ok.mp h
    obtain ⟨y, -, h⟩ := Except.bind_eq_ok.mp h
    obtain ⟨error, herror, h⟩ := Except.bind_eq_ok.mp h
    rw [← Except.ok.inj h]
    exact errorSpec_guarded herror
  · obtain ⟨observedSource, -, h⟩ := Except.bind_eq_ok.mp h
    obtain ⟨observedSink, -, h⟩ := Except.bind_eq_ok.mp h
    obtain ⟨oracleSource, -, h⟩ := Except.bind_eq_ok.mp h
    obtain ⟨oracleSink, -, h⟩ := Except.bind_eq_ok.mp h
    obtain ⟨floor, hfloor, h⟩ := Except.bind_eq_ok.mp h
    rw [← Except.ok.inj h]
    exact isFinite_of_positive (required_eq_ok.mp hfloor)
  · obtain ⟨observed, -, h⟩ := Except.bind_eq_ok.mp h
    obtain ⟨oracle, -, h⟩ := Except.bind_eq_ok.mp h
    rw [← Except.ok.inj h]
    trivial
  · obtain ⟨observed, -, h⟩ := Except.bind_eq_ok.mp h
    obtain ⟨oracle, -, h⟩ := Except.bind_eq_ok.mp h
    obtain ⟨x, -, h⟩ := Except.bind_eq_ok.mp h
    obtain ⟨y, -, h⟩ := Except.bind_eq_ok.mp h
    obtain ⟨epsilon, -, h⟩ := Except.bind_eq_ok.mp h
    rw [← Except.ok.inj h]
    trivial
  · rw [denominatorBody_eq_ok h]
    trivial
  · rw [denominatorBody_eq_ok h]
    trivial
  · obtain ⟨observables, -, h⟩ := Except.bind_eq_ok.mp h
    obtain ⟨conditions, -, h⟩ := Except.bind_eq_ok.mp h
    rw [← Except.ok.inj h]
    trivial
  · rw [← Except.ok.inj h]
    trivial
  · obtain ⟨observables, -, h⟩ := Except.bind_eq_ok.mp h
    obtain ⟨conditions, -, h⟩ := Except.bind_eq_ok.mp h
    rw [← Except.ok.inj h]
    trivial
  · cases h

theorem toleranceRow_guarded {seen rows : List (Row F)} {value : Json F × ℕ}
    (h : toleranceRow seen value = .ok rows) (hseen : ∀ row ∈ seen, row.body.Guarded) :
    ∀ row ∈ rows, row.body.Guarded := by
  unfold toleranceRow at h
  dsimp only at h
  obtain ⟨kind, -, h⟩ := Except.bind_eq_ok.mp h
  obtain ⟨item, -, h⟩ := Except.bind_eq_ok.mp h
  obtain ⟨name, -, h⟩ := Except.bind_eq_ok.mp h
  obtain ⟨-, -, h⟩ := Except.bind_eq_ok.mp h
  obtain ⟨needed, -, h⟩ := Except.bind_eq_ok.mp h
  obtain ⟨limit, -, h⟩ := Except.bind_eq_ok.mp h
  obtain ⟨body, hbody, h⟩ := Except.bind_eq_ok.mp h
  rw [← Except.ok.inj h]
  intro row hrow
  rcases List.mem_append.mp hrow with hrow | hrow
  · exact hseen row hrow
  · rw [List.mem_singleton.mp hrow]
    exact rowBody_guarded hbody

theorem normalizeTolerances_guarded {value : Json F} {tolerances : Tolerances F}
    (h : normalizeTolerances value = .ok tolerances) :
    ∀ row ∈ tolerances.metrics, row.body.Guarded := by
  obtain ⟨root, -, h⟩ := Except.bind_eq_ok.mp h
  obtain ⟨-, -, h⟩ := Except.bind_eq_ok.mp h
  obtain ⟨-, -, h⟩ := Except.bind_eq_ok.mp h
  obtain ⟨needed, -, h⟩ := Except.bind_eq_ok.mp h
  obtain ⟨rows, -, h⟩ := Except.bind_eq_ok.mp h
  obtain ⟨metrics, hmetrics, h⟩ := Except.bind_eq_ok.mp h
  rw [← Except.ok.inj h]
  exact Except.foldlM_spec (fun _ seen => ∀ row ∈ seen, row.body.Guarded)
    (fun _ _ _ _ hseen hstep => toleranceRow_guarded hstep hseen)
    (fun row hrow => absurd hrow List.not_mem_nil) hmetrics

end Guards

section Reports

variable {row : Row F}

theorem details_nil_fraction {details : List (String × Json F)}
    (h : ∀ entry ∈ details, entry.1 ≠ "observed_fraction" ∧ entry.1 ≠ "oracle_fraction") :
    FractionDetails details := by
  intro name value hmem hname
  obtain ⟨hobserved, horacle⟩ := h (name, .float value) hmem
  rcases hname with hname | hname
  · exact absurd hname hobserved
  · exact absurd hname horacle

theorem sampleError_ok (laws : FloatOrder F) {error : ErrorSpec F} (hguard : error.Guarded)
    (absolute : F) {oracle : F} (horacle : PyFloat.isFinite oracle = true) :
    ∃ value, sampleError error absolute oracle = .ok value := by
  have habs := laws.abs_finite oracle horacle
  cases error with
  | absolute => exact ⟨absolute, rfl⟩
  | fractionAbsolute => exact ⟨absolute, rfl⟩
  | relative floor positive =>
    exact divide_ok laws absolute (max_positive laws habs positive hguard)
  | guardedRelative guard positive =>
    exact divide_ok laws absolute (max_positive laws habs positive hguard)

theorem errorDetails_names (error : ErrorSpec F) :
    ∀ entry ∈ errorDetails error, entry.1 ≠ "observed_fraction" ∧ entry.1 ≠ "oracle_fraction" := by
  cases error with
  | absolute => exact fun entry h => absurd h List.not_mem_nil
  | fractionAbsolute => exact fun entry h => absurd h List.not_mem_nil
  | relative floor positive =>
    intro entry h
    rw [List.mem_singleton.mp h]
    simp
  | guardedRelative guard positive =>
    intro entry h
    rw [List.mem_singleton.mp h]
    simp

theorem scalarRow_reports (laws : FloatOrder F) (row : Row F) {error : ErrorSpec F}
    (hguard : error.Guarded) (observed oracle : Json F) :
    ∃ result, scalarRow row observed oracle error = .ok result ∧
      Reports row (fun _ => True) result := by
  unfold scalarRow
  cases hleft : number? observed with
  | none => exact ⟨_, rfl, Or.inl ⟨_, rfl⟩⟩
  | some left =>
    cases hright : number? oracle with
    | none => exact ⟨_, rfl, Or.inl ⟨_, rfl⟩⟩
    | some right =>
      dsimp only
      by_cases hfraction : error.kind = .fractionAbsolute ∧ ¬(isFraction left ∧ isFraction right)
      · rw [if_pos hfraction]
        exact ⟨_, rfl, Or.inl ⟨_, rfl⟩⟩
      · rw [if_neg hfraction]
        obtain ⟨value, hvalue⟩ := sampleError_ok laws hguard (PyFloat.abs (left - right))
          (isFinite_of_number hright)
        rw [hvalue]
        refine ⟨_, rfl, Or.inr ⟨value, _, _, trivial, details_nil_fraction ?_, rfl⟩⟩
        intro entry hentry
        rcases List.mem_append.mp hentry with hentry | hentry
        · simp only [List.mem_cons, List.not_mem_nil, or_false] at hentry
          rcases hentry with rfl | rfl | rfl <;> simp
        · exact errorDetails_names error entry hentry

theorem worst_ok {errors : List F} (h : errors ≠ []) :
    ∃ found, worst errors = .ok found ∧ found.2 ∈ errors := by
  have hfrom : ∀ (rest : List F) (best : ℕ × F) (index : ℕ),
      (worstFrom best index rest).2 = best.2 ∨ (worstFrom best index rest).2 ∈ rest := by
    intro rest
    induction rest with
    | nil => exact fun best index => Or.inl rfl
    | cons value rest ih =>
      intro best index
      rw [worstFrom]
      rcases ih (if PyFloat.lt best.2 value then (index, value) else best) (index + 1) with h | h
      · by_cases hlt : PyFloat.lt best.2 value = true
        · rw [if_pos hlt] at h ⊢
          exact Or.inr (h ▸ List.mem_cons_self)
        · rw [if_neg hlt] at h ⊢
          exact Or.inl h
      · exact Or.inr (List.mem_cons_of_mem _ h)
  cases errors with
  | nil => exact absurd rfl h
  | cons first rest =>
    refine ⟨_, rfl, ?_⟩
    rcases hfrom rest (0, first) 1 with hfound | hfound
    · exact hfound ▸ List.mem_cons_self
    · exact List.mem_cons_of_mem _ hfound

theorem length_of_sameNumbers {a b : List F} (h : sameNumbers a b = true) : a.length = b.length :=
  of_decide_eq_true (Bool.and_eq_true_iff.mp h).1

theorem curveRow_reports (laws : FloatOrder F) (row : Row F) {error : ErrorSpec F}
    (hguard : error.Guarded) (observed oracle : Json F) (xName yName : String) :
    ∃ result, curveRow row observed oracle xName yName error = .ok result ∧
      Reports row (fun _ => True) result := by
  unfold curveRow
  cases hleft : observedCurve observed xName yName with
  | none => exact ⟨_, rfl, Or.inl ⟨_, rfl⟩⟩
  | some left =>
    cases hright : curve oracle xName yName with
    | none => exact ⟨_, rfl, Or.inl ⟨_, rfl⟩⟩
    | some right =>
      obtain ⟨leftX, leftY⟩ := left
      obtain ⟨rightX, rightY⟩ := right
      obtain ⟨hne, hlengthLeft, -⟩ := observedCurve_spec hleft
      obtain ⟨-, hlengthRight, hfinite⟩ := curve_spec hright
      dsimp only
      by_cases hsame : sameNumbers leftX rightX = true
      · rw [if_neg (by rw [hsame]; exact Bool.false_ne_true)]
        have hxs := length_of_sameNumbers hsame
        have hsamples : ∀ pair ∈
            ((leftY.zip rightY).map fun pair => PyFloat.abs (pair.1 - pair.2)).zip rightY,
            ∃ value, sampleError error pair.1 pair.2 = .ok value := fun pair hpair =>
          sampleError_ok laws hguard pair.1 (hfinite pair.2 (List.of_mem_zip hpair).2)
        obtain ⟨errors, herrors, hlength⟩ := Except.exists_mapM_ok hsamples
        have hpos : 0 < leftX.length := List.length_pos_iff.mpr hne
        have herrorsNe : errors ≠ [] := by
          rw [← List.length_pos_iff, hlength, List.length_zip, List.length_map, List.length_zip]
          omega
        obtain ⟨found, hfound, -⟩ := worst_ok herrorsNe
        rw [herrors, Except.ok_bind, hfound]
        refine ⟨_, rfl, Or.inr ⟨found.2, _, _, trivial, details_nil_fraction ?_, rfl⟩⟩
        intro entry hentry
        rcases List.mem_append.mp hentry with hentry | hentry
        · simp only [List.mem_cons, List.not_mem_nil, or_false] at hentry
          rcases hentry with rfl | rfl | rfl | rfl <;> simp
        · exact errorDetails_names error entry hentry
      · rw [Bool.not_eq_true] at hsame
        rw [if_pos (by rw [hsame]; rfl)]
        exact ⟨_, rfl, Or.inl ⟨_, rfl⟩⟩

theorem mismatchFraction_ok (laws : FloatOrder F) {floor source sink : F}
    (hpositive : isPositive floor = true) (hfloor : PyFloat.isFinite floor = true)
    (hsource : PyFloat.isFinite source = true) (hsink : PyFloat.isFinite sink = true) :
    ∃ found, mismatchFraction floor source sink = .ok found ∧ ∀ v ∈ found, IsFraction v := by
  have hleft := laws.abs_finite source hsource
  have hright := laws.abs_finite sink hsink
  unfold mismatchFraction
  dsimp only
  by_cases hlt : PyFloat.lt (PyFloat.max (PyFloat.abs source) (PyFloat.abs sink)) floor = true
  · rw [if_pos hlt]
    exact ⟨none, rfl, fun v hv => by cases hv⟩
  · rw [if_neg hlt]
    rw [Bool.not_eq_true] at hlt
    have hmax := max_finite hleft hright
    obtain ⟨hzero, hle⟩ := laws.abs_sub_le _ _ hleft hright (laws.abs_nonneg source hsource)
      (laws.abs_nonneg sink hsink)
    obtain ⟨v, hv⟩ := divide_ok laws (PyFloat.abs (PyFloat.abs source - PyFloat.abs sink))
      (positive_of_not_lt laws hmax hpositive hfloor hlt)
    refine ⟨some v, by rw [hv]; rfl, fun w hw => ?_⟩
    obtain rfl : v = w := Option.some.inj hw
    unfold divide at hv
    cases hdiv : PyFloat.div (PyFloat.abs (PyFloat.abs source - PyFloat.abs sink))
        (PyFloat.max (PyFloat.abs source) (PyFloat.abs sink)) with
    | none =>
      rw [hdiv] at hv
      cases hv
    | some c =>
      rw [hdiv] at hv
      rw [← Except.ok.inj hv]
      exact laws.div_fraction _ _ _ hzero hle hmax hdiv

theorem mismatchPairs_ok (laws : FloatOrder F) {floor : F} (hpositive : isPositive floor = true)
    (hfloor : PyFloat.isFinite floor = true) {pairs : List (F × F)}
    (hpairs : ∀ pair ∈ pairs, PyFloat.isFinite pair.1 = true ∧ PyFloat.isFinite pair.2 = true) :
    ∃ found, mismatchPairs floor pairs = .ok found ∧
      ∀ values ∈ found, values.length = pairs.length ∧ ∀ v ∈ values, IsFraction v := by
  induction pairs with
  | nil =>
    refine ⟨some [], rfl, fun values hvalues => ?_⟩
    obtain rfl : [] = values := Option.some.inj hvalues
    exact ⟨rfl, fun v hv => absurd hv List.not_mem_nil⟩
  | cons pair pairs ih =>
    obtain ⟨source, sink⟩ := pair
    obtain ⟨⟨hsource, hsink⟩, hrest⟩ := List.forall_mem_cons.mp hpairs
    obtain ⟨first, hfirst, hfraction⟩ := mismatchFraction_ok laws hpositive hfloor hsource hsink
    rw [mismatchPairs, hfirst, Except.ok_bind]
    cases first with
    | none => exact ⟨none, rfl, fun values hvalues => by cases hvalues⟩
    | some v =>
      obtain ⟨later, hlater, hvalues⟩ := ih hrest
      dsimp only
      rw [hlater]
      refine ⟨later.map fun values => v :: values, rfl, fun values hmem => ?_⟩
      obtain ⟨others, hothers, rfl⟩ := Option.map_eq_some_iff.mp hmem
      obtain ⟨hlength, hall⟩ := hvalues others hothers
      refine ⟨by rw [List.length_cons, List.length_cons, hlength], ?_⟩
      exact List.forall_mem_cons.mpr ⟨hfraction v rfl, hall⟩

theorem mismatchValues_ok (laws : FloatOrder F) {floor : F} (hpositive : isPositive floor = true)
    (hfloor : PyFloat.isFinite floor = true) (source sink : Json F) :
    ∃ found, mismatchValues source sink floor = .ok found ∧
      ∀ values ∈ found, values ≠ [] ∧ ∀ v ∈ values, IsFraction v := by
  unfold mismatchValues
  cases hsource : numbers source with
  | none => exact ⟨none, rfl, fun values hvalues => by cases hvalues⟩
  | some sources =>
    cases hsink : numbers sink with
    | none => exact ⟨none, rfl, fun values hvalues => by cases hvalues⟩
    | some sinks =>
      dsimp only
      by_cases hlength : sources.length = sinks.length
      · rw [if_pos hlength]
        obtain ⟨hne, hsources⟩ := numbers_spec hsource
        obtain ⟨found, hfound, hvalues⟩ := mismatchPairs_ok laws hpositive hfloor fun pair hpair =>
          ⟨hsources pair.1 (List.of_mem_zip hpair).1,
            (numbers_spec hsink).2 pair.2 (List.of_mem_zip hpair).2⟩
        refine ⟨found, hfound, fun values hmem => ⟨?_, (hvalues values hmem).2⟩⟩
        rw [← List.length_pos_iff, (hvalues values hmem).1, List.length_zip, ← hlength, min_self]
        exact List.length_pos_iff.mpr hne
      · rw [if_neg hlength]
        exact ⟨none, rfl, fun values hvalues => by cases hvalues⟩

theorem nth_fraction {items : List F} (h : ∀ v ∈ items, IsFraction v) {index : ℕ} {value : F}
    (hvalue : nth items index = .float value) : IsFraction value := by
  unfold nth at hvalue
  cases hget : items[index]? with
  | none =>
    rw [hget] at hvalue
    cases hvalue
  | some found =>
    rw [hget] at hvalue
    obtain rfl : found = value := Json.float.inj hvalue
    exact h found (List.mem_of_getElem? hget)

theorem mismatchRow_reports (laws : FloatOrder F) (row : Row F) {floor : F}
    (hpositive : isPositive floor = true) (hfloor : PyFloat.isFinite floor = true)
    (observedSource observedSink oracleSource oracleSink : Json F) :
    ∃ result, mismatchRow row observedSource observedSink oracleSource oracleSink floor =
        .ok result ∧ Reports row IsFraction result := by
  obtain ⟨observed, hobserved, hleft⟩ :=
    mismatchValues_ok laws hpositive hfloor observedSource observedSink
  obtain ⟨oracle, horacle, hright⟩ :=
    mismatchValues_ok laws hpositive hfloor oracleSource oracleSink
  unfold mismatchRow
  rw [hobserved, Except.ok_bind, horacle, Except.ok_bind]
  cases observed with
  | none => exact ⟨_, rfl, Or.inl ⟨_, rfl⟩⟩
  | some left =>
    cases oracle with
    | none => exact ⟨_, rfl, Or.inl ⟨_, rfl⟩⟩
    | some right =>
      dsimp only
      by_cases hlength : left.length = right.length
      · rw [if_pos hlength]
        obtain ⟨hne, hleft⟩ := hleft left rfl
        obtain ⟨-, hright⟩ := hright right rfl
        have herrors : (left.zip right).map (fun pair => PyFloat.abs (pair.1 - pair.2)) ≠ [] := by
          rw [← List.length_pos_iff, List.length_map, List.length_zip, ← hlength, min_self]
          exact List.length_pos_iff.mpr hne
        obtain ⟨found, hfound, hmem⟩ := worst_ok herrors
        rw [hfound]
        obtain ⟨pair, hpair, hvalue⟩ := List.mem_map.mp hmem
        have hfirst := hleft pair.1 (List.of_mem_zip hpair).1
        have hsecond := hright pair.2 (List.of_mem_zip hpair).2
        obtain ⟨hzero, hle⟩ := laws.abs_sub_le pair.1 pair.2
          (laws.finite_of_fraction _ hfirst.1 hfirst.2)
          (laws.finite_of_fraction _ hsecond.1 hsecond.2) hfirst.1 hsecond.1
        refine ⟨_, rfl, Or.inr ⟨found.2, _, _, ?_, ?_, rfl⟩⟩
        · rw [← hvalue]
          refine ⟨hzero, laws.le_trans _ _ _ hle ?_⟩
          unfold PyFloat.max
          by_cases hlt : PyFloat.lt pair.1 pair.2 = true
          · rw [if_pos hlt]
            exact hsecond.2
          · rw [if_neg hlt]
            exact hfirst.2
        · intro name value hentry hname
          simp only [List.mem_cons, Prod.mk.injEq, List.not_mem_nil, or_false] at hentry
          rcases hentry with ⟨rfl, -⟩ | ⟨rfl, -⟩ | ⟨-, h⟩ | ⟨-, h⟩ | ⟨rfl, -⟩
          · simp at hname
          · simp at hname
          · exact nth_fraction hleft h.symm
          · exact nth_fraction hright h.symm
          · simp at hname
      · rw [if_neg hlength]
        exact ⟨_, rfl, Or.inl ⟨_, rfl⟩⟩

theorem complianceRow_reports (observed oracle : Json F) :
    Reports row (fun _ => True) (complianceRow row observed oracle) := by
  unfold complianceRow
  cases observedEndpoints observed with
  | none => exact Or.inl ⟨_, rfl⟩
  | some left =>
    cases endpoints oracle "lo_v" "hi_v" with
    | none => exact Or.inl ⟨_, rfl⟩
    | some right =>
      refine Or.inr ⟨_, _, _, trivial, details_nil_fraction ?_, rfl⟩
      intro entry hentry
      simp only [List.mem_cons, List.not_mem_nil, or_false] at hentry
      rcases hentry with rfl | rfl <;> simp

theorem signedCoverageRow_reports (laws : FloatOrder F) (row : Row F) (observed oracle : Json F)
    (xName yName : String) (epsilon : F) :
    ∃ result, signedCoverageRow row observed oracle xName yName epsilon = .ok result ∧
      Reports row IsFraction result := by
  unfold signedCoverageRow
  cases observedCurve observed xName yName with
  | none => exact ⟨_, rfl, Or.inl ⟨_, rfl⟩⟩
  | some left =>
    cases curve oracle xName yName with
    | none => exact ⟨_, rfl, Or.inl ⟨_, rfl⟩⟩
    | some right =>
      dsimp only
      by_cases hsame : sameNumbers left.1 right.1 = true
      · rw [if_neg (by rw [hsame]; exact Bool.false_ne_true)]
        by_cases hempty : ((left.2.zip right.2).filter fun pair =>
            outsideBand epsilon pair.2).isEmpty = true
        · rw [if_pos hempty]
          exact ⟨_, rfl, Or.inl ⟨_, rfl⟩⟩
        · rw [if_neg hempty]
          obtain ⟨value, hvalue, hfraction⟩ := ratio_ok laws
            (fun hzero => hempty (List.isEmpty_iff.mpr (List.length_eq_zero_iff.mp hzero)))
            (List.length_filter_le
              (fun pair => outsideBand epsilon pair.1 && sameSign pair.1 pair.2)
              ((left.2.zip right.2).filter fun pair => outsideBand epsilon pair.2))
          rw [hvalue]
          refine ⟨_, rfl, Or.inr ⟨value, _, _, hfraction, details_nil_fraction ?_, rfl⟩⟩
          intro entry hentry
          simp only [List.mem_cons, List.not_mem_nil, or_false] at hentry
          rcases hentry with rfl | rfl | rfl <;> simp
      · rw [Bool.not_eq_true] at hsame
        rw [if_pos (by rw [hsame]; rfl)]
        exact ⟨_, rfl, Or.inl ⟨_, rfl⟩⟩

def ReportsRatio (row : Row F) (numerator denominator : ℕ) (result : RowResult F) : Prop :=
  (denominator = 0 ∧ ∃ reason, result = unknown row reason) ∨
    ∃ value reason details, ratio numerator denominator = .ok value ∧ IsFraction value ∧
      FractionDetails details ∧ result = measured row value reason details

theorem ReportsRatio.reports {numerator denominator : ℕ} {result : RowResult F}
    (h : ReportsRatio row numerator denominator result) : Reports row IsFraction result := by
  rcases h with ⟨-, hunknown⟩ | ⟨value, reason, details, -, hfraction, hdetails, rfl⟩
  · exact Or.inl hunknown
  · exact Or.inr ⟨value, reason, details, hfraction, hdetails, rfl⟩

theorem validityRow_reports (laws : FloatOrder F) (row : Row F) (counts : ValidityCounts)
    {numerator denominator : ℕ} (hle : numerator ≤ denominator) (denominatorName reason : String) :
    ∃ result, validityRow row counts numerator denominator denominatorName reason = .ok result ∧
      ReportsRatio row numerator denominator result := by
  unfold validityRow
  by_cases hzero : denominator = 0
  · rw [if_pos hzero]
    exact ⟨_, rfl, Or.inl ⟨hzero, _, rfl⟩⟩
  · rw [if_neg hzero]
    obtain ⟨value, hvalue, hfraction⟩ := ratio_ok (F := F) laws hzero hle
    rw [hvalue]
    refine ⟨_, rfl, Or.inr ⟨value, _, _, hvalue, hfraction, details_nil_fraction ?_, rfl⟩⟩
    intro entry hentry
    simp only [countDetails, List.mem_cons, List.not_mem_nil, or_false] at hentry
    rcases hentry with rfl | rfl | rfl | rfl | rfl <;> simp

theorem countNames_mono {names : List String} {p q : String → Bool}
    (h : ∀ name, p name = true → q name = true) : countNames names p ≤ countNames names q :=
  (List.monotone_filter_right names h).length_le

omit [PyFloat F] in
theorem detected_le (observed oracle : Document F) :
    (validityCounts observed oracle).detectedInvalid ≤
      (validityCounts observed oracle).oracleInvalid := by
  refine countNames_mono fun name h => ?_
  rw [decide_eq_true_eq] at h ⊢
  exact h.1

omit [PyFloat F] in
theorem falseValid_le (observed oracle : Document F) :
    (validityCounts observed oracle).falseValid ≤
      (validityCounts observed oracle).observedValid := by
  refine countNames_mono fun name h => ?_
  rw [decide_eq_true_eq] at h ⊢
  exact ⟨h.1, by rw [h.2]; decide⟩

def ReportsCoverage (row : Row F) (coverage : Option Coverage) (result : RowResult F) : Prop :=
  (coverage = none ∧ ∃ reason, result = unknown row reason) ∨
    ∃ found, coverage = some found ∧ ReportsRatio row found.covered found.total result

theorem ReportsCoverage.reports {coverage : Option Coverage} {result : RowResult F}
    (h : ReportsCoverage row coverage result) : Reports row IsFraction result := by
  rcases h with ⟨-, hunknown⟩ | ⟨found, -, h⟩
  · exact Or.inl hunknown
  · exact h.reports

theorem coverageRow_reports (laws : FloatOrder F) (row : Row F) {coverage : Option Coverage}
    (hle : ∀ found ∈ coverage, found.covered ≤ found.total) {absent empty reason name : String}
    (hname : name ≠ "observed_fraction" ∧ name ≠ "oracle_fraction") :
    ∃ result, coverageRow row coverage absent empty reason name = .ok result ∧
      ReportsCoverage row coverage result := by
  unfold coverageRow
  cases coverage with
  | none => exact ⟨_, rfl, Or.inl ⟨rfl, _, rfl⟩⟩
  | some found =>
    dsimp only
    by_cases hzero : found.total = 0
    · rw [if_pos hzero]
      exact ⟨_, rfl, Or.inr ⟨found, rfl, Or.inl ⟨hzero, _, rfl⟩⟩⟩
    · rw [if_neg hzero]
      obtain ⟨value, hvalue, hfraction⟩ := ratio_ok (F := F) laws hzero (hle found rfl)
      rw [hvalue]
      refine ⟨_, rfl, Or.inr ⟨found, rfl, Or.inr
        ⟨value, _, _, hvalue, hfraction, details_nil_fraction ?_, rfl⟩⟩⟩
      intro entry hentry
      simp only [coverageDetails, List.mem_cons, List.not_mem_nil, or_false] at hentry
      rcases hentry with rfl | rfl | rfl
      · exact hname
      · simp
      · simp

theorem tally_le {α : Type} (items : List α) (holds : α → Bool) (label : α → String) :
    (tally items holds label).covered ≤ (tally items holds label).total :=
  List.length_filter_le _ _

omit [PyFloat F] in
theorem conditionCoverage_le (observed : Document F) (observables conditions : List String) :
    ∀ found ∈ conditionCoverage observed observables conditions, found.covered ≤ found.total := by
  intro found hfound
  obtain ⟨metadata, -, rfl⟩ := Option.map_eq_some_iff.mp hfound
  exact tally_le _ _ _

omit [PyFloat F] in
theorem lineageCoverage_le (observed : Document F) (observables : List String)
    (conditions : Option (List String)) :
    ∀ found ∈ lineageCoverage observed observables conditions, found.covered ≤ found.total := by
  intro found hfound
  obtain ⟨metadata, -, rfl⟩ := Option.map_eq_some_iff.mp hfound
  cases conditions with
  | none => exact tally_le _ _ _
  | some conditions => exact tally_le _ _ _

theorem runtimeRow_reports (observed : Document F) :
    Reports row (fun _ => True) (runtimeRow row observed) := by
  unfold runtimeRow
  cases observed.metadata with
  | none => exact Or.inl ⟨_, rfl⟩
  | some metadata => exact Or.inr ⟨_, _, _, trivial, .nil, rfl⟩

theorem completenessRow_reports (laws : FloatOrder F) (row : Row F) (observed : Document F)
    (observables conditions : List String) :
    ∃ result, completenessRow row observed observables conditions = .ok result ∧
      ReportsCoverage row (conditionCoverage observed observables conditions) result :=
  coverageRow_reports laws row (conditionCoverage_le observed observables conditions)
    ⟨by decide, by decide⟩

theorem lineageRow_reports (laws : FloatOrder F) (row : Row F) (observed : Document F)
    (observables conditions : List String) :
    ∃ result, lineageRow row observed observables conditions = .ok result ∧
      ReportsCoverage row (lineageCoverage observed observables (some conditions)) result :=
  coverageRow_reports laws row (lineageCoverage_le observed observables (some conditions))
    ⟨by decide, by decide⟩

theorem evaluateRow_reports (laws : FloatOrder F) (hguard : row.body.Guarded)
    (observed oracle : Document F) :
    ∃ result, evaluateRow row observed oracle = .ok result ∧
      Reports row (fun value => row.body.reportsFraction = true → IsFraction value) result := by
  have hplain {result : RowResult F} (hbody : row.body.reportsFraction = false)
      (h : Reports row (fun _ => True) result) :
      Reports row (fun value => row.body.reportsFraction = true → IsFraction value) result :=
    h.mono fun value _ htrue => by rw [hbody] at htrue; cases htrue
  have hfraction {result : RowResult F} (h : Reports row IsFraction result) :
      Reports row (fun value => row.body.reportsFraction = true → IsFraction value) result :=
    h.mono fun value hvalue _ => hvalue
  unfold evaluateRow
  cases hbody : row.body with
  | scalar left right error =>
    rw [hbody] at hguard hplain
    obtain ⟨result, hresult, hreports⟩ := scalarRow_reports laws row hguard
      (observableOf observed left) (observableOf oracle right)
    exact ⟨result, hresult, hplain rfl hreports⟩
  | curve left right x y error =>
    rw [hbody] at hguard hplain
    obtain ⟨result, hresult, hreports⟩ := curveRow_reports laws row hguard
      (observableOf observed left) (observableOf oracle right) x y
    exact ⟨result, hresult, hplain rfl hreports⟩
  | mismatchCurve observedSource observedSink oracleSource oracleSink floor positive =>
    rw [hbody] at hguard hfraction
    obtain ⟨result, hresult, hreports⟩ := mismatchRow_reports laws row positive hguard
      (observableOf observed observedSource) (observableOf observed observedSink)
      (observableOf oracle oracleSource) (observableOf oracle oracleSink)
    exact ⟨result, hresult, hfraction hreports⟩
  | complianceEndpoints left right =>
    rw [hbody] at hplain
    exact ⟨_, rfl, hplain rfl (complianceRow_reports _ _)⟩
  | signedResponseCoverage left right x y epsilon =>
    rw [hbody] at hfraction
    obtain ⟨result, hresult, hreports⟩ := signedCoverageRow_reports laws row
      (observableOf observed left) (observableOf oracle right) x y epsilon
    exact ⟨result, hresult, hfraction hreports⟩
  | invalidDetectionRecall =>
    rw [hbody] at hfraction
    obtain ⟨result, hresult, hreports⟩ := validityRow_reports laws row
      (validityCounts observed oracle) (detected_le observed oracle) "oracle-invalid declarations"
      "invalid recall uses oracle-invalid as its denominator"
    exact ⟨result, hresult, hfraction hreports.reports⟩
  | falseValidRate =>
    rw [hbody] at hfraction
    obtain ⟨result, hresult, hreports⟩ := validityRow_reports laws row
      (validityCounts observed oracle) (falseValid_le observed oracle)
      "submitted VALID declarations" "false-valid rate uses submitted VALID as its denominator"
    exact ⟨result, hresult, hfraction hreports.reports⟩
  | completeness observables conditions =>
    rw [hbody] at hfraction
    obtain ⟨result, hresult, hreports⟩ :=
      completenessRow_reports laws row observed observables conditions
    exact ⟨result, hresult, hfraction hreports.reports⟩
  | gradingRuntime =>
    rw [hbody] at hplain
    exact ⟨_, rfl, hplain rfl (runtimeRow_reports observed)⟩
  | lineagePresence observables conditions =>
    rw [hbody] at hfraction
    obtain ⟨result, hresult, hreports⟩ :=
      lineageRow_reports laws row observed observables conditions
    exact ⟨result, hresult, hfraction hreports.reports⟩

theorem requireLineage_cases (row : Row F) (observed : Document F) (result : RowResult F) :
    requireLineage row observed result = result ∨
      ∃ reason, requireLineage row observed result = unknown row reason := by
  unfold requireLineage
  cases lineageCoverage observed row.body.observables none with
  | none => exact Or.inr ⟨_, rfl⟩
  | some coverage =>
    dsimp only
    by_cases hfull : coverage.covered ≠ coverage.total
    · rw [if_pos hfull]
      exact Or.inr ⟨_, rfl⟩
    · rw [if_neg hfull]
      exact Or.inl rfl

theorem compareRow_eq_ok {tolerances : Tolerances F} {observed oracle : Document F}
    {result : RowResult F} : compareRow tolerances observed oracle row = .ok result ↔
      ∃ found, (if observed.corner ≠ oracle.corner ∧ row.body.oracleDependent = true then
          .ok (unknown row "observed and oracle corner identities differ")
        else evaluateRow row observed oracle) = .ok found ∧
        result = if tolerances.lineageRequired = true ∧ row.body.isNumeric = true ∧
          observed.corner = oracle.corner then requireLineage row observed found else found := by
  have hfinish {found : RowResult F} :
      (if (tolerances.lineageRequired && row.body.isNumeric &&
          decide (observed.corner = oracle.corner)) = true then
        (Except.ok (requireLineage row observed found) : Except String (RowResult F))
        else .ok found) = .ok result ↔
      result = if tolerances.lineageRequired = true ∧ row.body.isNumeric = true ∧
        observed.corner = oracle.corner then requireLineage row observed found else found := by
    have hiff : (tolerances.lineageRequired && row.body.isNumeric &&
        decide (observed.corner = oracle.corner)) = true ↔ tolerances.lineageRequired = true ∧
          row.body.isNumeric = true ∧ observed.corner = oracle.corner := by
      rw [Bool.and_eq_true, Bool.and_eq_true, decide_eq_true_eq, and_assoc]
    by_cases hlineage : tolerances.lineageRequired = true ∧ row.body.isNumeric = true ∧
        observed.corner = oracle.corner
    · rw [if_pos (hiff.mpr hlineage), if_pos hlineage, Except.ok.injEq]
      exact eq_comm
    · rw [if_neg (fun h => hlineage (hiff.mp h)), if_neg hlineage, Except.ok.injEq]
      exact eq_comm
  have hiff : (!decide (observed.corner = oracle.corner) && row.body.oracleDependent) = true ↔
      observed.corner ≠ oracle.corner ∧ row.body.oracleDependent = true := by
    rw [Bool.and_eq_true, Bool.not_eq_true', decide_eq_false_iff_not]
  unfold compareRow
  dsimp only
  by_cases hcorner : observed.corner ≠ oracle.corner ∧ row.body.oracleDependent = true
  · rw [if_pos (hiff.mpr hcorner), if_pos hcorner, Except.ok_bind, hfinish]
    constructor
    · exact fun h => ⟨_, rfl, h⟩
    · rintro ⟨found, hfound, h⟩
      rw [← Except.ok.inj hfound] at h
      exact h
  · rw [if_neg (fun h => hcorner (hiff.mp h)), if_neg hcorner, Except.bind_eq_ok]
    exact exists_congr fun found => and_congr_right fun _ => hfinish

theorem compareRow_cases {tolerances : Tolerances F} {observed oracle : Document F}
    {result : RowResult F} (h : compareRow tolerances observed oracle row = .ok result) :
    (∃ reason, result = unknown row reason) ∨ evaluateRow row observed oracle = .ok result := by
  obtain ⟨found, hfound, rfl⟩ := compareRow_eq_ok.mp h
  have hstep : (∃ reason, found = unknown row reason) ∨
      evaluateRow row observed oracle = .ok found := by
    by_cases hcorner : observed.corner ≠ oracle.corner ∧ row.body.oracleDependent = true
    · rw [if_pos hcorner] at hfound
      exact Or.inl ⟨_, (Except.ok.inj hfound).symm⟩
    · rw [if_neg hcorner] at hfound
      exact Or.inr hfound
  by_cases hlineage : tolerances.lineageRequired = true ∧ row.body.isNumeric = true ∧
      observed.corner = oracle.corner
  · rw [if_pos hlineage]
    rcases requireLineage_cases row observed found with hsame | hunknown
    · rw [hsame]
      exact hstep
    · exact Or.inl hunknown
  · rw [if_neg hlineage]
    exact hstep

theorem compareRow_ok (laws : FloatOrder F) (tolerances : Tolerances F) (hguard : row.body.Guarded)
    (observed oracle : Document F) :
    ∃ result, compareRow tolerances observed oracle row = .ok result := by
  obtain ⟨evaluated, hevaluated, -⟩ := evaluateRow_reports laws hguard observed oracle
  by_cases hcorner : observed.corner ≠ oracle.corner ∧ row.body.oracleDependent = true
  · exact ⟨_, compareRow_eq_ok.mpr ⟨_, if_pos hcorner, rfl⟩⟩
  · exact ⟨_, compareRow_eq_ok.mpr ⟨evaluated, (if_neg hcorner).trans hevaluated, rfl⟩⟩

theorem compareRow_reports (laws : FloatOrder F) {tolerances : Tolerances F}
    (hguard : row.body.Guarded) {observed oracle : Document F} {result : RowResult F}
    (h : compareRow tolerances observed oracle row = .ok result) :
    Reports row (fun value => row.body.reportsFraction = true → IsFraction value) result := by
  rcases compareRow_cases h with hunknown | hevaluated
  · exact Or.inl hunknown
  · obtain ⟨evaluated, hok, hreports⟩ := evaluateRow_reports laws hguard observed oracle
    rw [hok] at hevaluated
    exact Except.ok.inj hevaluated ▸ hreports

end Reports

end OpenADA.Oracle
