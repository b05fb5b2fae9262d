import OpenADA.Library.PolyArea
import OpenADA.Runner.LinearFit

/-! The windowed integration of a run in exact arithmetic: the integral of the signal that joins
the samples. -/
namespace OpenADA.Runner

open OpenADA.Plan PolyLine MeasureTheory

def HasBounds (window : Window) (start stop : ℚ) : Prop :=
  literal window.start "window.start" = .ok start ∧ literal window.stop "window.stop" = .ok stop

structure InRange (axis : List ℚ) (start stop : ℚ) : Prop where
  ordered : start < stop
  first : ∃ x ∈ axis.head?, x ≤ start
  last : ∃ x ∈ axis.getLast?, stop ≤ x

section Exact

variable {p q : ℚ × ℚ} {points rest : List (ℚ × ℚ)} {axis values : List ℚ}
  {start stop middle target : ℚ} {window : Window}

theorem increasing_zip (haxis : axis.Pairwise (· < ·)) (hlength : values.length = axis.length) :
    Increasing (axis.zip values) := by
  apply List.pairwise_map.mp
  rw [List.map_fst_zip hlength.ge]
  exact haxis

theorem strictlyIncreasing_iff : strictlyIncreasing axis = true ↔ axis.Pairwise (· < ·) := by
  rw [← List.isChain_iff_pairwise]
  induction axis with
  | nil => exact iff_of_true rfl List.isChain_nil
  | cons x rest ih =>
    cases rest with
    | nil => exact iff_of_true rfl (List.isChain_singleton _)
    | cons y rest =>
      rw [strictlyIncreasing, Bool.and_eq_true, ih, List.isChain_cons_cons]
      apply and_congr_left'
      rw [Bool.not_eq_true', ← Bool.not_eq_true]
      exact (not_congr decide_eq_true_iff).trans not_le

/-- The loop finds the value of the signal at a place after the sample before. -/
theorem interpolateFrom_exact (h : Increasing (p :: rest)) (hp : p.1 < target)
    (hlast : ∃ q ∈ rest, target ≤ q.1) :
    interpolateFrom target (some p) rest = .ok (signal (p :: rest) target) := by
  induction rest generalizing p with
  | nil =>
    obtain ⟨q, hq, -⟩ := hlast
    cases hq
  | cons q rest ih =>
    rw [interpolateFrom]
    rcases lt_trichotomy target q.1 with hlt | rfl | hgt
    · have heq : ¬PyFloat.eq q.1 target = true := fun h => hlt.ne' (of_decide_eq_true h)
      have hinside : (PyFloat.lt p.1 target && PyFloat.lt target q.1) = true :=
        Bool.and_eq_true_iff.mpr ⟨decide_eq_true hp, decide_eq_true hlt⟩
      have hwidth : q.1 - p.1 ≠ 0 := (sub_pos.mpr h.head_lt).ne'
      simp only [heq, hinside, if_true]
      rw [divide_exact hwidth, signal_of_le hlt.le, lerp, mul_comm (q.2 - p.2)]
      rfl
    · have heq : PyFloat.eq q.1 q.1 = true := decide_eq_true rfl
      rw [if_pos heq, signal_of_le le_rfl, lerp_right h.head_lt]
    · have heq : ¬PyFloat.eq q.1 target = true := fun h => hgt.ne (of_decide_eq_true h)
      have hinside : ¬(PyFloat.lt p.1 target && PyFloat.lt target q.1) = true := fun hin =>
        absurd (of_decide_eq_true (Bool.and_eq_true_iff.mp hin).2) (not_lt.mpr hgt.le)
      have hlater : ∃ r ∈ rest, target ≤ r.1 := by
        obtain ⟨r, hr, hle⟩ := hlast
        rcases List.mem_cons.mp hr with rfl | hr
        · exact absurd hgt (not_lt.mpr hle)
        · exact ⟨r, hr, hle⟩
      simp only [heq, hinside]
      rw [signal_of_ge h hgt.le]
      exact ih h.of_cons hgt hlater

theorem interpolateAt_exact (haxis : axis.Pairwise (· < ·)) (hlength : values.length = axis.length)
    (hfirst : ∃ x ∈ axis.head?, x ≤ target) (hlast : ∃ x ∈ axis.getLast?, target ≤ x) :
    interpolateAt axis values target = .ok (signal (axis.zip values) target) := by
  have hpoints := increasing_zip haxis hlength
  obtain ⟨x, hx, hle⟩ := hfirst
  obtain ⟨z, hz, hzle⟩ := hlast
  cases axis with
  | nil => cases hx
  | cons x axis =>
    obtain rfl := Option.some.inj hx
    obtain ⟨y, values, rfl⟩ := List.exists_cons_of_length_eq_add_one hlength
    rw [interpolateAt]
    rw [List.zip_cons_cons] at hpoints ⊢
    rw [interpolateFrom]
    rcases eq_or_lt_of_le hle with rfl | hlt
    · have heq : PyFloat.eq x x = true := decide_eq_true rfl
      rw [if_pos heq]
      exact congrArg _ (signal_head hpoints).symm
    · have heq : ¬PyFloat.eq x target = true := fun h => hlt.ne (of_decide_eq_true h)
      simp only [heq]
      apply interpolateFrom_exact hpoints hlt
      have hmem : z ∈ axis := by
        rcases List.mem_cons.mp (List.mem_of_getLast? hz) with rfl | hmem
        · exact absurd hlt (not_lt.mpr hzle)
        · exact hmem
      have hfst : (axis.zip values).map Prod.fst = axis :=
        List.map_fst_zip (Nat.succ.inj hlength).ge
      rw [← hfst] at hmem
      obtain ⟨q, hq, rfl⟩ := List.mem_map.mp hmem
      exact ⟨q, hq, hzle⟩

theorem trapezoids_exact (points : List (ℚ × ℚ)) :
    trapezoids points = .ok ((segments points).map trapezoid) := by
  induction points with
  | nil => rfl
  | cons p rest ih =>
    cases rest with
    | nil => rfl
    | cons q rest =>
      have htwo : (number 2 : ℚ) ≠ 0 := two_ne_zero
      rw [trapezoids, divide_exact htwo, ih]
      rfl

theorem integrateWindow_area (haxis : axis.Pairwise (· < ·)) (hlength : values.length = axis.length)
    (hbounds : HasBounds window start stop) (hrange : InRange axis start stop) :
    integrateWindow axis values window = .ok (area (clipped (axis.zip values) start stop)) := by
  obtain ⟨hstart, hstop⟩ := hbounds
  obtain ⟨hordered, ⟨x, hx, hxle⟩, ⟨z, hz, hzle⟩⟩ := hrange
  have hlong : 2 ≤ axis.length := by
    by_contra hshort
    cases axis with
    | nil => cases hx
    | cons x rest =>
      cases rest with
      | nil =>
        have hx : x = _ := Option.some.inj hx
        have hz : x = _ := Option.some.inj hz
        exact absurd (hordered.trans_le hzle) (not_lt.mpr (hz ▸ hx ▸ hxle))
      | cons y rest =>
        apply hshort
        rw [List.length_cons, List.length_cons]
        omega
  have hguard : ¬(axis.length ≠ values.length ∨ axis.length < 2) := by omega
  have hfirst : at? axis 0 = .ok x := by
    have hget : axis[0]? = some x := by
      rw [← List.head?_eq_getElem?]
      exact hx
    rw [at?, hget]
  have hlast : at? axis (axis.length - 1) = .ok z := by
    have hget : axis[axis.length - 1]? = some z := by
      rw [← List.getLast?_eq_getElem?]
      exact hz
    rw [at?, hget]
  have hinside : ¬(PyFloat.le stop start || PyFloat.lt start x || PyFloat.lt z stop) = true := by
    have hle : PyFloat.le stop start = false := decide_eq_false (not_le.mpr hordered)
    have hlow : PyFloat.lt start x = false := decide_eq_false (not_lt.mpr hxle)
    have hhigh : PyFloat.lt z stop = false := decide_eq_false (not_lt.mpr hzle)
    rw [hle, hlow, hhigh]
    exact Bool.noConfusion
  have hleft := interpolateAt_exact haxis hlength ⟨x, hx, hxle⟩ ⟨z, hz, hordered.le.trans hzle⟩
  have hright := interpolateAt_exact haxis hlength ⟨x, hx, hxle.trans hordered.le⟩ ⟨z, hz, hzle⟩
  have hincreasing : (!strictlyIncreasing axis) = false := by
    rw [strictlyIncreasing_iff.mpr haxis]
    rfl
  unfold integrateWindow
  simp only [hguard, hincreasing, hstart, hstop, hfirst, hlast, hinside, hleft, hright,
    trapezoids_exact, Except.ok_bind, if_false, Bool.false_eq_true]
  rfl

theorem head_realPoints_le (hrange : InRange axis start stop) :
    ∀ r ∈ (realPoints (axis.zip values)).head?, r.1 ≤ start := by
  obtain ⟨-, ⟨x, hx, hxle⟩, -⟩ := hrange
  intro r hr
  cases axis with
  | nil => cases hx
  | cons y axis =>
    obtain rfl := Option.some.inj hx
    cases values with
    | nil => cases hr
    | cons v values =>
      obtain rfl := Option.some.inj hr
      exact Rat.cast_le.mpr hxle

theorem integrateWindow_exact (haxis : axis.Pairwise (· < ·)) (hlength : values.length = axis.length)
    (hbounds : HasBounds window start stop) (hrange : InRange axis start stop) :
    ∃ result, integrateWindow axis values window = .ok result ∧
      (result : ℝ) = ∫ x in (start : ℝ)..stop, signal (realPoints (axis.zip values)) x := by
  refine ⟨_, integrateWindow_area haxis hlength hbounds hrange, ?_⟩
  have hintegral := integral_signal (increasing_zip haxis hlength).realPoints
    (head_realPoints_le hrange) (Rat.cast_lt.mpr hrange.ordered)
  rw [hintegral.2, clipped_realPoints, area_realPoints]

theorem signal_combined (hv : values.length = axis.length) {others : List ℚ}
    (hw : others.length = axis.length) (α β : ℚ) (x : ℝ) :
    signal (realPoints (axis.zip (List.zipWith (fun y z => α * y + β * z) values others))) x =
      α * signal (realPoints (axis.zip values)) x + β * signal (realPoints (axis.zip others)) x := by
  have hcast (items : List ℚ) : realPoints (axis.zip items) =
      (axis.map (Rat.cast : ℚ → ℝ)).zip (items.map (Rat.cast : ℚ → ℝ)) := List.zip_map.symm
  have hcombined : (List.zipWith (fun y z => α * y + β * z) values others).map (Rat.cast : ℚ → ℝ) =
      List.zipWith (fun y z => (α : ℝ) * y + β * z) (values.map Rat.cast) (others.map Rat.cast) := by
    rw [List.map_zipWith, List.zipWith_map]
    simp only [Rat.cast_add, Rat.cast_mul]
  rw [hcast, hcast, hcast, hcombined]
  apply signal_linear
  · rw [List.length_map, List.length_map, hv]
  · rw [List.length_map, List.length_map, hw]

end Exact

/-- Over an increasing axis the result of the integration is the integral of the signal that joins
the samples; windows next to each other add up, and the result is linear in the values. -/
theorem integrateWindow_integral (axis : List ℚ) (haxis : axis.Pairwise (· < ·)) :
    (∀ values window start stop, values.length = axis.length → HasBounds window start stop →
      InRange axis start stop → ∃ result, integrateWindow axis values window = .ok result ∧
        (result : ℝ) = ∫ x in (start : ℝ)..stop, signal (realPoints (axis.zip values)) x) ∧
    (∀ values left right whole start middle stop, values.length = axis.length →
      HasBounds left start middle → HasBounds right middle stop → HasBounds whole start stop →
      InRange axis start middle → InRange axis middle stop →
        ∃ a b, integrateWindow axis values left = .ok a ∧
          integrateWindow axis values right = .ok b ∧
          integrateWindow axis values whole = .ok (a + b)) ∧
    (∀ values others window start stop α β, values.length = axis.length →
      others.length = axis.length → HasBounds window start stop → InRange axis start stop →
        ∃ a b, integrateWindow axis values window = .ok a ∧
          integrateWindow axis others window = .ok b ∧
          integrateWindow axis (List.zipWith (fun y z => α * y + β * z) values others) window =
            .ok (α * a + β * b)) := by
  refine ⟨fun values window start stop hlength hbounds hrange =>
    integrateWindow_exact haxis hlength hbounds hrange, ?_, ?_⟩
  · intro values left right whole start middle stop hlength hleft hright hwhole hbefore hafter
    obtain ⟨a, ha, haEq⟩ := integrateWindow_exact haxis hlength hleft hbefore
    obtain ⟨b, hb, hbEq⟩ := integrateWindow_exact haxis hlength hright hafter
    have hrange : InRange axis start stop :=
      ⟨hbefore.ordered.trans hafter.ordered, hbefore.first, hafter.last⟩
    obtain ⟨c, hc, hcEq⟩ := integrateWindow_exact haxis hlength hwhole hrange
    have hsum : (c : ℝ) = ((a + b : ℚ) : ℝ) := by
      rw [Rat.cast_add, haEq, hbEq, hcEq]
      exact integral_adjacent (increasing_zip haxis hlength).realPoints
        (head_realPoints_le hbefore) (Rat.cast_lt.mpr hbefore.ordered)
        (Rat.cast_lt.mpr hafter.ordered)
    exact ⟨a, b, ha, hb, Rat.cast_injective hsum ▸ hc⟩
  · intro values others window start stop α β hv hw hbounds hrange
    obtain ⟨a, ha, haEq⟩ := integrateWindow_exact haxis hv hbounds hrange
    obtain ⟨b, hb, hbEq⟩ := integrateWindow_exact haxis hw hbounds hrange
    have hlength : (List.zipWith (fun y z => α * y + β * z) values others).length = axis.length := by
      rw [List.length_zipWith, hv, hw, min_self]
    obtain ⟨c, hc, hcEq⟩ := integrateWindow_exact haxis hlength hbounds hrange
    have hsum : (c : ℝ) = ((α * a + β * b : ℚ) : ℝ) := by
      have hordered : (start : ℝ) < stop := Rat.cast_lt.mpr hrange.ordered
      have hv' := (integral_signal (increasing_zip haxis hv).realPoints
        (head_realPoints_le hrange) hordered).1
      have hw' := (integral_signal (increasing_zip haxis hw).realPoints
        (head_realPoints_le hrange) hordered).1
      rw [hcEq]
      simp only [signal_combined hv hw]
      rw [intervalIntegral.integral_add (hv'.const_mul _) (hw'.const_mul _),
        intervalIntegral.integral_const_mul, intervalIntegral.integral_const_mul]
      push_cast
      rw [haEq, hbEq]
    exact ⟨a, b, ha, hb, Rat.cast_injective hsum ▸ hc⟩

/-- A ramp over two segments, on a window that cuts both. -/
theorem integrateWindow_ramp : ∃ result : ℚ,
    integrateWindow [0, 1, 3] [0, 1, 3]
      ⟨.literal ⟨1 / 2, .s⟩, .literal ⟨2, .s⟩⟩ = .ok result ∧
      (result : ℝ) = ∫ x in ((1 / 2 : ℚ) : ℝ)..((2 : ℚ) : ℝ),
        signal (realPoints (List.zip [0, 1, 3] [0, 1, 3])) x :=
  (integrateWindow_integral [0, 1, 3] (by simp)).1 _ _ (1 / 2) 2 rfl ⟨rfl, rfl⟩
    ⟨by norm_num, ⟨0, rfl, by norm_num⟩, ⟨3, rfl, by norm_num⟩⟩

end OpenADA.Runner
