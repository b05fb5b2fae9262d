import OpenADA.Library.LeastSquares
import OpenADA.Series.Transition

/-! The slope of a measurement: its exact computation and the one by centred and scaled samples. -/
namespace OpenADA.Series

open LeastSquares PolyLine
open SignedRat (rat value)

section Scaled

def one : ℕ := 2 ^ 1074

/-- `_scaled`. -/
def scaled (sample : ℚ) : ℤ := sample.num * ((one / sample.den : ℕ) : ℤ)

/-- The slope of samples made integers; `none` is the exception of a zero denominator. -/
def scaledSlope (points : List (ℚ × ℚ)) : Option ℚ :=
  let ix := points.map fun p => scaled p.1
  let iy := points.map fun p => scaled p.2
  let n : ℤ := points.length
  let sx := ix.sum
  let sy := iy.sum
  let sxy := (List.zipWith (· * ·) ix iy).sum
  let sxx := (ix.map fun a => a * a).sum
  if n * sxx - sx * sx = 0 then none
  else some (((n * sxy - sx * sy : ℤ) : ℚ) / ((n * sxx - sx * sx : ℤ) : ℚ))

/-- The samples are floats: integers over powers of two of bounded size. -/
def Dyadic (points : List (ℚ × ℚ)) : Prop := ∀ p ∈ points, p.1.den ∣ one ∧ p.2.den ∣ one

theorem scaled_cast {sample : ℚ} (h : sample.den ∣ one) :
    (scaled sample : ℚ) = one * sample + 0 := by
  obtain ⟨k, hk⟩ := h
  have hden : (sample.den : ℚ) ≠ 0 := Nat.cast_ne_zero.mpr sample.den_nz
  have hquotient : one / sample.den = k := by
    rw [hk, Nat.mul_div_cancel_left k sample.den_pos]
  have hcast : (one : ℚ) = sample.den * k := by
    rw [hk]
    push_cast
    rfl
  have hvalue : (sample.num : ℚ) = sample * sample.den := (Rat.mul_den_eq_num sample).symm
  rw [scaled, hquotient, hcast]
  push_cast
  rw [hvalue]
  ring

theorem sum_cast (items : List (ℚ × ℚ)) (f : ℚ × ℚ → ℤ) :
    (((items.map f).sum : ℤ) : ℚ) = total (fun p => (f p : ℚ)) items := by
  induction items with
  | nil => rfl
  | cons p rest ih =>
    rw [List.map_cons, List.sum_cons, Int.cast_add, ih, total_cons]

theorem exactSlope_eq (points : List (ℚ × ℚ)) : exactSlope points =
    if determinant points = 0 then none else some (covariance points / determinant points) := rfl

def integral (points : List (ℚ × ℚ)) : List (ℚ × ℚ) := moved (one : ℚ) 0 (one : ℚ) 0 points

theorem one_ne_zero : (one : ℚ) ≠ 0 := by
  unfold one
  positivity

theorem scaledSlope_eq {points : List (ℚ × ℚ)} (h : Dyadic points) :
    scaledSlope points = exactSlope points := by
  have hx : (((points.map fun p => scaled p.1).sum : ℤ) : ℚ) = sumX (integral points) := by
    rw [sum_cast, sumX, integral, moved, total_map]
    exact total_congr fun p hp => scaled_cast (h p hp).1
  have hy : (((points.map fun p => scaled p.2).sum : ℤ) : ℚ) = sumY (integral points) := by
    rw [sum_cast, sumY, integral, moved, total_map]
    exact total_congr fun p hp => scaled_cast (h p hp).2
  have hxx : (((points.map fun p => scaled p.1 * scaled p.1).sum : ℤ) : ℚ) =
      sumXX (integral points) := by
    rw [sum_cast, sumXX, integral, moved, total_map]
    refine total_congr fun p hp => ?_
    rw [Int.cast_mul, scaled_cast (h p hp).1]
  have hxy : (((points.map fun p => scaled p.1 * scaled p.2).sum : ℤ) : ℚ) =
      sumXY (integral points) := by
    rw [sum_cast, sumXY, integral, moved, total_map]
    refine total_congr fun p hp => ?_
    rw [Int.cast_mul, scaled_cast (h p hp).1, scaled_cast (h p hp).2]
  have hcount : ((points.length : ℤ) : ℚ) = count (integral points) := by
    rw [integral, count_moved]
    rfl
  have hsquares : ((points.map fun p => scaled p.1).map fun a => a * a) =
      points.map fun p => scaled p.1 * scaled p.1 := List.map_map
  have hproducts : List.zipWith (· * ·) (points.map fun p => scaled p.1)
      (points.map fun p => scaled p.2) = points.map fun p => scaled p.1 * scaled p.2 := by
    rw [List.zipWith_map, List.zipWith_self]
  have hdeterminant : ((points.length * (points.map fun p => scaled p.1 * scaled p.1).sum -
      (points.map fun p => scaled p.1).sum * (points.map fun p => scaled p.1).sum : ℤ) : ℚ) =
      one ^ 2 * determinant points := by
    rw [← determinant_moved (one : ℚ) 0 one 0 points, Int.cast_sub, Int.cast_mul, Int.cast_mul,
      hcount, hxx, hx]
    rfl
  have hcovariance : ((points.length * (points.map fun p => scaled p.1 * scaled p.2).sum -
      (points.map fun p => scaled p.1).sum * (points.map fun p => scaled p.2).sum : ℤ) : ℚ) =
      one * one * covariance points := by
    rw [← covariance_moved (one : ℚ) 0 one 0 points, Int.cast_sub, Int.cast_mul, Int.cast_mul,
      hcount, hxy, hx, hy]
    rfl
  unfold scaledSlope
  dsimp only
  rw [hsquares, hproducts, hdeterminant, hcovariance, exactSlope_eq]
  have hzero : (points.length * (points.map fun p => scaled p.1 * scaled p.1).sum -
      (points.map fun p => scaled p.1).sum * (points.map fun p => scaled p.1).sum = 0) ↔
      determinant points = 0 := by
    rw [← Int.cast_eq_zero (α := ℚ), hdeterminant, mul_eq_zero,
      or_iff_right (pow_ne_zero 2 one_ne_zero)]
  by_cases hdet : determinant points = 0
  · rw [if_pos (hzero.mpr hdet), if_pos hdet]
  · rw [if_neg (fun h0 => hdet (hzero.mp h0)), if_neg hdet, sq,
      mul_div_mul_left _ _ (mul_ne_zero one_ne_zero one_ne_zero)]

theorem exactSlope_moved {points : List (ℚ × ℚ)} {a c : ℚ} (b d : ℚ) (ha : a ≠ 0) :
    exactSlope (moved a b c d points) = (exactSlope points).map fun slope => c / a * slope := by
  rw [exactSlope_eq, exactSlope_eq, determinant_moved, covariance_moved]
  by_cases hzero : determinant points = 0
  · rw [if_pos hzero, if_pos (by rw [hzero, mul_zero])]
    rfl
  · rw [if_neg hzero, if_neg (mul_ne_zero (pow_ne_zero 2 ha) hzero)]
    refine congrArg some ?_
    field_simp

end Scaled

section Points

variable {points : List (ℚ × ℚ)}

theorem spread_of_increasing (h : Increasing points) (hcount : 2 ≤ points.length) :
    Spread points := by
  cases points with
  | nil => simp at hcount
  | cons p rest =>
    cases rest with
    | nil => simp at hcount
    | cons q rest =>
      exact ⟨p, List.mem_cons_self, q, List.mem_cons_of_mem _ List.mem_cons_self, h.head_lt.ne⟩

theorem exactSlope_of_spread (h : Spread points) :
    exactSlope points = some (covariance points / determinant points) := by
  rw [exactSlope_eq, if_neg (determinant_pos h).ne']

end Points

section Floats

variable {F : Type} [PyFloatMath F]

theorem slopeFallback_spec {samples : List (F × F)} {found : F}
    (h : slopeFallback samples = some found) :
    ∃ points slope, (samples.mapM fun p => do
        let x ← PyFloatMath.ratio p.1
        let y ← PyFloatMath.ratio p.2
        some (x, y)) = some points ∧
      exactSlope points = some slope ∧ PyFloatMath.ofRatio slope = some found ∧
        (PyFloat.eq found (PyFloat.ofRat 0 : F) = true → slope = 0) := by
  unfold slopeFallback at h
  split_ifs at h
  obtain ⟨points, hpoints, h⟩ := Option.bind_eq_some_iff.mp h
  obtain ⟨slope, hslope, h⟩ := Option.bind_eq_some_iff.mp h
  obtain ⟨value, hvalue, h⟩ := Option.bind_eq_some_iff.mp h
  split_ifs at h with hzero
  obtain rfl := Option.some.inj h
  refine ⟨points, slope, hpoints, hslope, hvalue, fun heq => ?_⟩
  by_contra hne
  exact hzero ⟨hne, heq⟩

end Floats

section Exact

variable {samples : List (SignedRat × SignedRat)} {found : SignedRat}

theorem le_max_fold (start : SignedRat) (items : List SignedRat) :
    start.value ≤ (items.foldl PyFloat.max start).value ∧
      ∀ x ∈ items, x.value ≤ (items.foldl PyFloat.max start).value := by
  induction items generalizing start with
  | nil => exact ⟨le_rfl, fun _ hx => by cases hx⟩
  | cons item rest ih =>
    obtain ⟨hstart, hrest⟩ := ih (PyFloat.max start item)
    have hmax : start.value ≤ (PyFloat.max start item).value ∧
        item.value ≤ (PyFloat.max start item).value := by
      have hcases : (PyFloat.max start item).value =
          if start.value < item.value then item.value else start.value := by
        show (if decide (start.value < item.value) = true then item else start).value = _
        simp only [decide_eq_true_eq]
        split <;> rfl
      rw [hcases]
      split
      · exact ⟨le_of_lt ‹_›, le_rfl⟩
      · exact ⟨le_rfl, not_lt.mp ‹_›⟩
    refine ⟨hmax.1.trans hstart, fun x hx => ?_⟩
    rcases List.mem_cons.mp hx with rfl | hx
    · exact hmax.2.trans hstart
    · exact hrest x hx

theorem le_maxOf {items : List SignedRat} {greatest : SignedRat}
    (h : PyFloat.maxOf items = some greatest) : ∀ x ∈ items, x.value ≤ greatest.value := by
  cases items with
  | nil => cases h
  | cons item rest =>
    obtain rfl := Option.some.inj h
    obtain ⟨hstart, hrest⟩ := le_max_fold item rest
    exact List.forall_mem_cons.mpr ⟨hstart, hrest⟩

theorem div_value {a b q : SignedRat} (h : PyFloat.div a b = some q) :
    b.value ≠ 0 ∧ q = rat (a.value / b.value) := by
  have hdiv : (if b.value = 0 then none else some (rat (a.value / b.value))) = some q := h
  split_ifs at hdiv with hzero
  exact ⟨hzero, (Option.some.inj hdiv).symm⟩

theorem slopeFallback_exact (h : slopeFallback samples = some found) :
    exactSlope (exactPoints samples) = some found.value := by
  obtain ⟨points, slope, hpoints, hslope, hvalue, -⟩ := slopeFallback_spec h
  have hread : (samples.mapM fun p => do
      let x ← PyFloatMath.ratio p.1
      let y ← PyFloatMath.ratio p.2
      some (x, y)) = some (exactPoints samples) := List.mapM_pure
  obtain rfl := Option.some.inj (hread.symm.trans hpoints)
  obtain rfl := Option.some.inj hvalue
  exact hslope

theorem centred_quotient {points : List (ℚ × ℚ)} {k k' m' : ℚ} (hspread : Spread points)
    (hk : k ≠ 0) (hk' : k' ≠ 0) :
    total (fun p => (p.1 - sumX points / count points) / k * ((p.2 - m') / k')) points /
        total (fun p => (p.1 - sumX points / count points) / k *
          ((p.1 - sumX points / count points) / k)) points * (k' / k) =
      covariance points / determinant points := by
  have hcount := hspread.count_pos.ne'
  have hdeterminant := (determinant_pos hspread).ne'
  have huv : total (fun p => (p.1 - sumX points / count points) / k * ((p.2 - m') / k')) points =
      covariance points / count points / (k * k') := by
    have hproduct := total_product (1 / k) 0 (-(sumX points / count points) / k) 0 (1 / k')
      (-m' / k') points
    have hsame : total (fun p => (p.1 - sumX points / count points) / k * ((p.2 - m') / k')) points =
        total (fun p => (1 / k * p.1 + 0 * p.2 + -(sumX points / count points) / k) *
          (0 * p.1 + 1 / k' * p.2 + -m' / k')) points := by
      congr 1
      funext p
      ring
    rw [hsame, hproduct, covariance]
    field_simp
    ring
  have huu : total (fun p => (p.1 - sumX points / count points) / k *
      ((p.1 - sumX points / count points) / k)) points =
      determinant points / count points / (k * k) := by
    have hproduct := total_product (1 / k) 0 (-(sumX points / count points) / k) (1 / k) 0
      (-(sumX points / count points) / k) points
    have hsame : total (fun p => (p.1 - sumX points / count points) / k *
        ((p.1 - sumX points / count points) / k)) points =
        total (fun p => (1 / k * p.1 + 0 * p.2 + -(sumX points / count points) / k) *
          (1 / k * p.1 + 0 * p.2 + -(sumX points / count points) / k)) points := by
      congr 1
      funext p
      ring
    rw [hsame, hproduct, determinant]
    field_simp
    ring
  rw [huv, huu]
  field_simp

theorem covariance_constant {points : List (ℚ × ℚ)} {c : ℚ} (h : ∀ p ∈ points, p.2 = c) :
    covariance points = 0 := by
  have hy : sumY points = c * count points := by
    have haffine := total_affine 0 0 c points
    simp only [zero_mul, zero_add] at haffine
    rw [sumY, ← haffine]
    exact total_congr fun p hp => h p hp
  have hxy : sumXY points = c * sumX points := by
    have haffine := total_affine c 0 0 points
    simp only [zero_mul, add_zero] at haffine
    rw [sumXY, ← haffine]
    refine total_congr fun p hp => ?_
    rw [h p hp, mul_comm]
  unfold covariance
  rw [hy, hxy]
  ring

theorem sum_scaled_squares (samples : List (SignedRat × SignedRat)) (m k m' k' : ℚ) :
    (((samples.map fun p => (rat ((p.1.value - m) / k), rat ((p.2.value - m') / k'))).map
      fun pair => pair.1 * pair.1).map value).sum =
      total (fun p => (p.1 - m) / k * ((p.1 - m) / k)) (exactPoints samples) := by
  rw [total, exactPoints, List.map_map, List.map_map, List.map_map]
  rfl

theorem sum_scaled_products (samples : List (SignedRat × SignedRat)) (m k m' k' : ℚ) :
    (((samples.map fun p => (rat ((p.1.value - m) / k), rat ((p.2.value - m') / k'))).map
      fun pair => pair.1 * pair.2).map value).sum =
      total (fun p => (p.1 - m) / k * ((p.2 - m') / k')) (exactPoints samples) := by
  rw [total, exactPoints, List.map_map, List.map_map, List.map_map]
  rfl

theorem slopeOf_exact (hspread : Spread (exactPoints samples)) (h : slopeOf samples = some found) :
    exactSlope (exactPoints samples) = some found.value := by
  unfold slopeOf at h
  obtain ⟨sx, hsx, h⟩ := Option.bind_eq_some_iff.mp h
  obtain ⟨xMean, hxMean, h⟩ := Option.bind_eq_some_iff.mp h
  obtain ⟨sy, hsy, h⟩ := Option.bind_eq_some_iff.mp h
  obtain ⟨yMean, hyMean, h⟩ := Option.bind_eq_some_iff.mp h
  obtain ⟨xScale, hxScale, h⟩ := Option.bind_eq_some_iff.mp h
  obtain ⟨yScale, hyScale, h⟩ := Option.bind_eq_some_iff.mp h
  obtain rfl := Option.some.inj hsx
  obtain ⟨-, rfl⟩ := div_value hxMean
  have hmean : ((samples.map Prod.fst).map value).sum / (samples.length : ℚ) =
      sumX (exactPoints samples) / count (exactPoints samples) := by
    rw [sumX, total, count, exactPoints, List.map_map, List.map_map, List.length_map]
    rfl
  split_ifs at h with hxZero hyZero
  · -- all samples have the mean as their value
    obtain rfl := Option.some.inj h
    rw [exactSlope_of_spread hspread, covariance_constant (c := yMean.value), zero_div]
    · rfl
    · intro p hp
      obtain ⟨sample, hsample, rfl⟩ := List.mem_map.mp hp
      have hle := le_maxOf hyScale _ (List.mem_map.mpr ⟨sample, hsample, rfl⟩)
      have hscale : yScale.value = 0 := of_decide_eq_true hyZero
      rw [hscale] at hle
      have habs : |sample.2.value - yMean.value| = 0 := le_antisymm hle (abs_nonneg _)
      exact sub_eq_zero.mp (abs_eq_zero.mp habs)
  · obtain ⟨pairs, hpairs, h⟩ := Option.bind_eq_some_iff.mp h
    obtain ⟨suu, hsuu, h⟩ := Option.bind_eq_some_iff.mp h
    obtain ⟨suv, hsuv, h⟩ := Option.bind_eq_some_iff.mp h
    split_ifs at h with huvZero
    · exact slopeFallback_exact h
    · obtain ⟨ratio, hratio, h⟩ := Option.bind_eq_some_iff.mp h
      obtain ⟨stretch, hstretch, h⟩ := Option.bind_eq_some_iff.mp h
      obtain ⟨-, rfl⟩ := div_value hratio
      obtain ⟨-, rfl⟩ := div_value hstretch
      dsimp only at h
      split_ifs at h with hzero
      · exact slopeFallback_exact h
      · have hk : xScale.value ≠ 0 := fun heq => hxZero (decide_eq_true heq)
        have hk' : yScale.value ≠ 0 := fun heq => hyZero (decide_eq_true heq)
        have hscaled (p : SignedRat × SignedRat) : (do
            let u ← PyFloat.div (p.1 - rat (((samples.map Prod.fst).map value).sum /
              (samples.length : ℚ))) xScale
            let v ← PyFloat.div (p.2 - yMean) yScale
            some (u, v)) = some (rat ((p.1.value - ((samples.map Prod.fst).map value).sum /
              (samples.length : ℚ)) / xScale.value),
                rat ((p.2.value - yMean.value) / yScale.value)) := by
          have hu : PyFloat.div (p.1 - rat (((samples.map Prod.fst).map value).sum /
              (samples.length : ℚ))) xScale = some (rat ((p.1.value -
                ((samples.map Prod.fst).map value).sum / (samples.length : ℚ)) /
                  xScale.value)) := if_neg hk
          have hv : PyFloat.div (p.2 - yMean) yScale =
              some (rat ((p.2.value - yMean.value) / yScale.value)) := if_neg hk'
          rw [hu, hv]
          rfl
        have hmap := hpairs.symm.trans (congrArg (fun f => samples.mapM f) (funext hscaled))
        have hpure : (samples.mapM fun p => some (rat ((p.1.value -
            ((samples.map Prod.fst).map value).sum / (samples.length : ℚ)) / xScale.value),
              rat ((p.2.value - yMean.value) / yScale.value))) = some (samples.map fun p =>
            (rat ((p.1.value - ((samples.map Prod.fst).map value).sum /
              (samples.length : ℚ)) / xScale.value),
                rat ((p.2.value - yMean.value) / yScale.value))) := List.mapM_pure
        obtain rfl := Option.some.inj (hmap.trans hpure)
        obtain rfl := Option.some.inj hsuu
        obtain rfl := Option.some.inj hsuv
        have huu := sum_scaled_squares samples (((samples.map Prod.fst).map value).sum /
          (samples.length : ℚ)) xScale.value yMean.value yScale.value
        have huv := sum_scaled_products samples (((samples.map Prod.fst).map value).sum /
          (samples.length : ℚ)) xScale.value yMean.value yScale.value
        rw [hmean] at huu huv
        obtain rfl := Option.some.inj h
        rw [exactSlope_of_spread hspread, ← centred_quotient hspread hk hk', ← huu, ← huv,
          ← hmean]
        rfl

end Exact

theorem closedObject_eq_ok {F : Type} [PyFloat F] {code label : String}
    {required optional : List String} {value : PyJson F} {fields : Fields F}
    (h : closedObject code label required optional value = .ok fields) :
    value = .object fields := by
  cases value with
  | object entries =>
    simp only [closedObject] at h
    split_ifs at h
    · cases h
    · cases h
    · rw [Except.ok.inj h]
  | _ => cases h

/-- The line that fits the samples best: its determinant is positive, its slope is the one the code
computes of the samples as they are, of the integers it makes of floats, and of samples centred and
scaled, and its slope is zero just if the covariance is. -/
structure FitsExactly (points : List (ℚ × ℚ)) (slope : ℚ) : Prop where
  determinant_pos : 0 < determinant points
  isBestFit : ∃ intercept, IsBestFit slope intercept points
  exact : exactSlope points = some slope
  integers : Dyadic points → scaledSlope points = some slope
  centred : ∀ m k m' k', k ≠ 0 → k' ≠ 0 →
    (exactSlope (points.map fun p => ((p.1 - m) / k, (p.2 - m') / k'))).map
      (fun scaledSlope => scaledSlope * (k' / k)) = some slope
  zero : slope = 0 ↔ covariance points = 0

theorem fitsExactly_of_spread {points : List (ℚ × ℚ)} (hspread : Spread points) :
    FitsExactly points (covariance points / determinant points) := by
  have hdeterminant := determinant_pos hspread
  have hexact := exactSlope_of_spread hspread
  refine
    { determinant_pos := hdeterminant
      isBestFit := ⟨_, (normal_of_quotient hspread.count_pos.ne' hdeterminant.ne').isBestFit
        hspread⟩
      exact := hexact
      integers := fun hdyadic => (scaledSlope_eq hdyadic).trans hexact
      centred := ?_
      zero := ?_ }
  · intro m k m' k' hk hk'
    have hmoved : (points.map fun p => ((p.1 - m) / k, (p.2 - m') / k')) =
        moved (1 / k) (-m / k) (1 / k') (-m' / k') points := by
      refine List.map_congr_left fun p _ => Prod.ext ?_ ?_
      · ring
      · ring
    rw [hmoved, exactSlope_moved _ _ (one_div_ne_zero hk), hexact]
    refine congrArg some ?_
    field_simp
  · rw [div_eq_zero_iff, or_iff_left hdeterminant.ne']

/-- The slope of samples over an increasing axis is that of the best fit, which exists; what a
measurement returns in exact arithmetic is that slope, and floats whose exact slope is computed get
zero only for a zero. -/
theorem slope_fitsExactly (axis : Axis SignedRat) (signal : Signal SignedRat)
    (parameters : PyJson SignedRat) :
    (∀ points : List (ℚ × ℚ), Increasing points → 2 ≤ points.length →
      ∃ slope, FitsExactly points slope) ∧
    (∀ measured, measureSlope axis signal parameters = .ok measured →
      ∀ slope ∈ measured.value, ∃ fields window, parameters = .object fields ∧
        optionalWindow axis.unit.1 fields = .ok window ∧
        FitsExactly (windowed window (exactPoints (signalPoints axis signal))) slope.value) ∧
    ∀ (F : Type) [PyFloatMath F] (samples : List (F × F)) (found : F),
      slopeFallback samples = some found → ∃ points slope,
        (samples.mapM fun p => do
          let x ← PyFloatMath.ratio p.1
          let y ← PyFloatMath.ratio p.2
          some (x, y)) = some points ∧
        exactSlope points = some slope ∧ PyFloatMath.ofRatio slope = some found ∧
        (PyFloat.eq found (PyFloat.ofRat 0 : F) = true → slope = 0) := by
  refine ⟨fun points h hcount => ⟨_, fitsExactly_of_spread (spread_of_increasing h hcount)⟩, ?_,
    fun F _ samples found h => slopeFallback_spec h⟩
  intro measured h slope hslope
  obtain ⟨fields, hfields, h⟩ := Except.bind_eq_ok.mp h
  obtain ⟨window, hwindow, h⟩ := Except.bind_eq_ok.mp h
  dsimp only at h
  split_ifs at h with hunit hfew
  · cases h
  · obtain rfl := Except.ok.inj h
    cases hslope
  · have hpoints : exactPoints (pointsInWindow (signalPoints axis signal) window) =
        windowed window (exactPoints (signalPoints axis signal)) := by
      cases window with
      | none => rfl
      | some bounds =>
        show (List.filter _ _).map _ = (List.map _ _).filter _
        rw [List.filter_map]
        rfl
    have hcount : 2 ≤ (windowed window (exactPoints (signalPoints axis signal))).length := by
      rw [← hpoints, exactPoints, List.length_map]
      exact not_lt.mp hfew
    have hspread := spread_of_increasing
      (increasing_windowed (signalPoints_increasing axis signal)) hcount
    cases hfound : slopeOf (pointsInWindow (signalPoints axis signal) window) with
    | none =>
      rw [hfound] at h
      cases h
    | some found =>
      rw [hfound] at h
      obtain rfl := Except.ok.inj h
      obtain rfl := Option.some.inj hslope
      have hexact := slopeOf_exact (hpoints ▸ hspread) hfound
      rw [hpoints, exactSlope_of_spread hspread] at hexact
      refine ⟨fields, window, closedObject_eq_ok hfields, hwindow, ?_⟩
      rw [← Option.some.inj hexact]
      exact fitsExactly_of_spread hspread

end OpenADA.Series
