import OpenADA.Library.ExceptFold
import OpenADA.Series.Measure
import Mathlib.Data.List.TakeWhile

/-! The settling time of a series: the earliest sample of a window from which on all samples are
within the tolerance and the window lasts. -/
namespace OpenADA.Series

open PyStr

section Request

variable {F : Type} [PyFloatMath F]

structure SettlingRequest (F : Type) where
  target : F
  tolerance : F
  reference : F
  holdFor : F
  window : Option (F × F)

def readSettling (axis : Axis F) (signal : Signal F) (parameters : PyJson F) :
    Except Fault (SettlingRequest F) := do
  let fields ← closedObject requestInvalid parametersLabel
    ["target", "tolerance", "reference", "hold_for"] ["window"] parameters
  let target ← quantity "measurement.parameters.target" signal.unit.1 (field fields "target")
  let tolerance ← quantity "measurement.parameters.tolerance" signal.unit.1
    (field fields "tolerance")
  let reference ← quantity "measurement.parameters.reference" axis.unit.1
    (field fields "reference")
  let holdFor ← quantity "measurement.parameters.hold_for" axis.unit.1 (field fields "hold_for")
  let zero : F := PyFloat.ofRat 0
  if PyFloat.le tolerance.1 zero || PyFloat.le holdFor.1 zero then
    refuse requestInvalid "settling_time"
  else do
    let window ← optionalWindow axis.unit.1 fields
    if outsideDomain axis reference.1 then refuse domainInvalid "settling_time"
    else .ok ⟨target.1, tolerance.1, reference.1, holdFor.1, window⟩

def settlingPoints (axis : Axis F) (signal : Signal F) (request : SettlingRequest F) :
    List (F × F) :=
  (pointsInWindow (signalPoints axis signal) request.window).filter fun point =>
    PyFloat.le request.reference point.1

def settlingOf (axis : Axis F) (signal : Signal F) (request : SettlingRequest F) : Measured F :=
  let points := settlingPoints axis signal request
  let settled := settledPoint request.target request.tolerance request.holdFor points
  ⟨settled.map fun point => point.1 - request.reference, settled.map Prod.fst, axis.unit.1,
    points.length⟩

theorem measureSettling_eq (axis : Axis F) (signal : Signal F) (parameters : PyJson F) :
    measureSettling axis signal parameters =
      (readSettling axis signal parameters).map (settlingOf axis signal) := by
  unfold measureSettling readSettling
  cases closedObject requestInvalid parametersLabel
    ["target", "tolerance", "reference", "hold_for"] ["window"] parameters with
  | error fault => rfl
  | ok fields =>
    simp only [Except.ok_bind]
    cases quantity "measurement.parameters.target" signal.unit.1 (field fields "target") with
    | error fault => rfl
    | ok target =>
      simp only [Except.ok_bind]
      cases quantity "measurement.parameters.tolerance" signal.unit.1
        (field fields "tolerance") with
      | error fault => rfl
      | ok tolerance =>
        simp only [Except.ok_bind]
        cases quantity "measurement.parameters.reference" axis.unit.1
          (field fields "reference") with
        | error fault => rfl
        | ok reference =>
          simp only [Except.ok_bind]
          cases quantity "measurement.parameters.hold_for" axis.unit.1
            (field fields "hold_for") with
          | error fault => rfl
          | ok holdFor =>
            simp only [Except.ok_bind]
            split
            · rfl
            · cases optionalWindow axis.unit.1 fields with
              | error fault => rfl
              | ok window =>
                simp only [Except.ok_bind]
                split <;> rfl

end Request

section Settled

variable {F : Type} [PyFloatMath F] {target tolerance holdFor : F}

def Inside (target tolerance : F) (point : F × F) : Prop :=
  PyFloat.le (PyFloat.abs (point.2 - target)) tolerance = true

instance (target tolerance : F) (point : F × F) : Decidable (Inside target tolerance point) :=
  inferInstanceAs (Decidable (_ = true))

/-- From the sample at a position on all samples are within the tolerance, and `final` is no
earlier than the hold after it. -/
def LastsFrom (target tolerance holdFor : F) (final : F × F) (points : List (F × F)) (i : ℕ) :
    Prop :=
  ∃ point ∈ points[i]?, (∀ later ∈ points.drop i, Inside target tolerance later) ∧
    PyFloat.le holdFor (final.1 - point.1) = true

def SettledAt (target tolerance holdFor : F) (points : List (F × F)) (i : ℕ) : Prop :=
  ∃ final ∈ points.getLast?, LastsFrom target tolerance holdFor final points i

theorem foldl_keep {α : Type} (keep : α → Bool) (items : List α) (start : Option α) :
    items.foldl (fun found item => if keep item = true then some item else found) start =
      (items.reverse.find? keep).or start := by
  induction items generalizing start with
  | nil => rfl
  | cons item rest ih =>
    rw [List.foldl_cons, ih, List.reverse_cons, List.find?_append]
    cases rest.reverse.find? keep with
    | some found => rfl
    | none =>
      cases hkeep : keep item with
      | true => simp [hkeep]
      | false => simp [hkeep]

/-- The good items at the end of a list grow by an item where they are the whole list. -/
theorem takeWhile_reverse_cons {α : Type} (good : α → Bool) (item : α) (rest : List α) :
    ((item :: rest).reverse.takeWhile good).reverse =
      if (item :: rest).all good = true then item :: rest
      else (rest.reverse.takeWhile good).reverse := by
  rw [List.reverse_cons, List.takeWhile_append]
  by_cases hrest : rest.all good = true
  · have hwhole : rest.reverse.takeWhile good = rest.reverse :=
      List.takeWhile_eq_self_iff.mpr fun x hx =>
        List.all_eq_true.mp hrest x (List.mem_reverse.mp hx)
    rw [hwhole, if_pos rfl]
    cases hitem : good item with
    | true => simp [hitem, hrest]
    | false => simp [hitem]
  · have hpart : (rest.reverse.takeWhile good).length ≠ rest.reverse.length := by
      intro hlength
      have hwhole := (List.takeWhile_prefix good).eq_of_length hlength
      refine hrest (List.all_eq_true.mpr fun x hx => ?_)
      exact List.takeWhile_eq_self_iff.mp hwhole x (List.mem_reverse.mpr hx)
    rw [if_neg hpart, if_neg]
    rw [List.all_cons, Bool.and_eq_true]
    exact fun hboth => hrest hboth.2

def settledFrom (target tolerance holdFor : F) (final : F × F) (points : List (F × F)) :
    Option (F × F) :=
  (points.reverse.takeWhile fun point =>
    PyFloat.le (PyFloat.abs (point.2 - target)) tolerance).reverse.find? fun point =>
      PyFloat.le holdFor (final.1 - point.1)

theorem settledPoint_eq (points : List (F × F)) :
    settledPoint target tolerance holdFor points =
      points.getLast?.bind fun final => settledFrom target tolerance holdFor final points := by
  unfold settledPoint settledFrom
  cases points.getLast? with
  | none => rfl
  | some final =>
    show List.foldl _ _ _ = _
    rw [foldl_keep]
    exact Option.or_none

/-- One step from the front: the first sample is the settled one if all are within the tolerance
and it lasts. -/
theorem settledFrom_cons (final point : F × F) (rest : List (F × F)) :
    settledFrom target tolerance holdFor final (point :: rest) =
      if (∀ later ∈ point :: rest, Inside target tolerance later) ∧
          PyFloat.le holdFor (final.1 - point.1) = true then some point
      else settledFrom target tolerance holdFor final rest := by
  unfold settledFrom
  rw [takeWhile_reverse_cons]
  by_cases hall : ((point :: rest).all fun later =>
      PyFloat.le (PyFloat.abs (later.2 - target)) tolerance) = true
  · have hinside : ∀ later ∈ point :: rest, Inside target tolerance later :=
      List.all_eq_true.mp hall
    rw [if_pos hall, List.find?_cons]
    cases hhold : PyFloat.le holdFor (final.1 - point.1) with
    | true => rw [if_pos ⟨hinside, rfl⟩]
    | false =>
      have hrest : rest.reverse.takeWhile (fun later =>
          PyFloat.le (PyFloat.abs (later.2 - target)) tolerance) = rest.reverse :=
        List.takeWhile_eq_self_iff.mpr fun x hx =>
          hinside x (List.mem_cons_of_mem _ (List.mem_reverse.mp hx))
      rw [if_neg fun hboth => Bool.noConfusion hboth.2, hrest, List.reverse_reverse]
  · rw [if_neg hall, if_neg]
    rintro ⟨hinside, -⟩
    exact hall (List.all_eq_true.mpr hinside)

theorem settledFrom_spec (final : F × F) (points : List (F × F)) :
    (∀ i, LastsFrom target tolerance holdFor final points i →
        (∀ j < i, ¬ LastsFrom target tolerance holdFor final points j) →
        settledFrom target tolerance holdFor final points = points[i]?) ∧
    (settledFrom target tolerance holdFor final points = none ↔
      ∀ i, ¬ LastsFrom target tolerance holdFor final points i) := by
  induction points with
  | nil =>
    have hnone (i : ℕ) : ¬ LastsFrom target tolerance holdFor final [] i := by
      rintro ⟨point, hpoint, -⟩
      cases hpoint
    exact ⟨fun i h _ => absurd h (hnone i), fun _ => hnone, fun _ => rfl⟩
  | cons point rest ih =>
    obtain ⟨hfirst, hnone⟩ := ih
    rw [settledFrom_cons]
    by_cases hhere : (∀ later ∈ point :: rest, Inside target tolerance later) ∧
        PyFloat.le holdFor (final.1 - point.1) = true
    · have hzero : LastsFrom target tolerance holdFor final (point :: rest) 0 :=
        ⟨point, rfl, hhere⟩
      rw [if_pos hhere]
      refine ⟨fun i _ hleast => ?_, fun h => ?_, fun h => absurd hzero (h 0)⟩
      · cases i with
        | zero => rfl
        | succ i => exact absurd hzero (hleast 0 (Nat.succ_pos i))
      · cases h
    · have hzero : ¬ LastsFrom target tolerance holdFor final (point :: rest) 0 := by
        rintro ⟨p, hp, hlasts⟩
        obtain rfl := Option.some.inj hp
        exact hhere hlasts
      rw [if_neg hhere]
      refine ⟨fun i hlasts hleast => ?_, fun h i => ?_, fun h => ?_⟩
      · cases i with
        | zero => exact absurd hlasts hzero
        | succ i => exact hfirst i hlasts fun j hj => hleast (j + 1) (Nat.succ_lt_succ hj)
      · cases i with
        | zero => exact hzero
        | succ i => exact hnone.mp h i
      · exact hnone.mpr fun i => h (i + 1)

theorem settledPoint_spec (target tolerance holdFor : F) (points : List (F × F)) :
    (∀ i, SettledAt target tolerance holdFor points i →
        (∀ j < i, ¬ SettledAt target tolerance holdFor points j) →
        settledPoint target tolerance holdFor points = points[i]?) ∧
    (settledPoint target tolerance holdFor points = none ↔
      ∀ i, ¬ SettledAt target tolerance holdFor points i) := by
  rw [settledPoint_eq]
  cases hfinal : points.getLast? with
  | none =>
    have hnone (i : ℕ) : ¬ SettledAt target tolerance holdFor points i := by
      rintro ⟨final, hlast, -⟩
      rw [hfinal] at hlast
      cases hlast
    exact ⟨fun i h _ => absurd h (hnone i), fun _ => hnone, fun _ => rfl⟩
  | some final =>
    have hsettled (i : ℕ) : SettledAt target tolerance holdFor points i ↔
        LastsFrom target tolerance holdFor final points i := by
      constructor
      · rintro ⟨last, hlast, hlasts⟩
        obtain rfl := Option.some.inj (hfinal.symm.trans hlast)
        exact hlasts
      · exact fun hlasts => ⟨final, hfinal, hlasts⟩
    simp only [hsettled]
    exact settledFrom_spec final points

end Settled

/-- A settling time is measured from the samples of the window that are not before the reference:
it is that of the earliest sample from which they are settled, and it is missing just where they
are settled from none. -/
theorem settling_earliest {F : Type} [PyFloatMath F] (axis : Axis F) (signal : Signal F)
    (parameters : PyJson F) :
    (∀ measured, measureSettling axis signal parameters = .ok measured →
      ∃ request, readSettling axis signal parameters = .ok request ∧
        (∀ i, SettledAt request.target request.tolerance request.holdFor
            (settlingPoints axis signal request) i →
          (∀ j < i, ¬ SettledAt request.target request.tolerance request.holdFor
            (settlingPoints axis signal request) j) →
          measured.location = (settlingPoints axis signal request)[i]?.map Prod.fst ∧
          measured.value = (settlingPoints axis signal request)[i]?.map fun point =>
            point.1 - request.reference) ∧
        (measured.value = none ↔ ∀ i, ¬ SettledAt request.target request.tolerance
          request.holdFor (settlingPoints axis signal request) i)) ∧
    ∀ request, readSettling axis signal parameters = .ok request →
      ∃ measured, measureSettling axis signal parameters = .ok measured := by
  rw [measureSettling_eq]
  constructor
  · intro measured h
    obtain ⟨request, hrequest, rfl⟩ := Except.map_eq_ok.mp h
    obtain ⟨hearliest, hnone⟩ := settledPoint_spec request.target request.tolerance
      request.holdFor (settlingPoints axis signal request)
    refine ⟨request, hrequest, fun i hsettled hleast => ?_, ?_⟩
    · have hpoint := hearliest i hsettled hleast
      exact ⟨congrArg (Option.map Prod.fst) hpoint,
        congrArg (Option.map fun point : F × F => point.1 - request.reference) hpoint⟩
    · rw [← hnone]
      exact Option.map_eq_none_iff
  · intro request hrequest
    rw [hrequest]
    exact ⟨_, rfl⟩

end OpenADA.Series
