import OpenADA.Library.ExceptFold
import OpenADA.Library.LeastSquares
import OpenADA.Runner.Kernels

/-! The linear fit of a plan run in exact arithmetic. -/
namespace OpenADA.Runner

open LeastSquares

section Exact

variable {points : List (ℚ × ℚ)}

theorem divide_exact {a b : ℚ} (h : b ≠ 0) : divide a b = .ok (a / b) := by
  have hdiv : PyFloat.div a b = some (a / b) := if_neg h
  rw [divide, hdiv]

theorem mapM_squared {α : Type} (f : α → ℚ) (items : List α) :
    (items.mapM fun item => squared (f item)) = .ok (items.map fun item => f item * f item) :=
  List.mapM_pure

/-- The line of the code: the quotient of the centred sums, through the means. -/
def fittedSlope (points : List (ℚ × ℚ)) : ℚ :=
  total (fun p => (p.1 - sumX points / count points) * (p.2 - sumY points / count points)) points /
    total (fun p => (p.1 - sumX points / count points) * (p.1 - sumX points / count points)) points

def fittedIntercept (points : List (ℚ × ℚ)) : ℚ :=
  sumY points / count points - fittedSlope points * (sumX points / count points)

def variation (points : List (ℚ × ℚ)) : ℚ := residual 0 (sumY points / count points) points

theorem centred_xx (hcount : count points ≠ 0) :
    total (fun p => (p.1 - sumX points / count points) * (p.1 - sumX points / count points)) points =
      determinant points / count points := by
  have hproduct := total_product 1 0 (-(sumX points / count points)) 1 0
    (-(sumX points / count points)) points
  have hsame : total (fun p => (p.1 - sumX points / count points) *
      (p.1 - sumX points / count points)) points =
      total (fun p => (1 * p.1 + 0 * p.2 + -(sumX points / count points)) *
        (1 * p.1 + 0 * p.2 + -(sumX points / count points))) points := by
    congr 1
    funext p
    ring
  rw [hsame, hproduct, determinant]
  field_simp
  ring

theorem centred_xy (hcount : count points ≠ 0) :
    total (fun p => (p.1 - sumX points / count points) * (p.2 - sumY points / count points)) points =
      covariance points / count points := by
  have hproduct := total_product 1 0 (-(sumX points / count points)) 0 1
    (-(sumY points / count points)) points
  have hsame : total (fun p => (p.1 - sumX points / count points) *
      (p.2 - sumY points / count points)) points =
      total (fun p => (1 * p.1 + 0 * p.2 + -(sumX points / count points)) *
        (0 * p.1 + 1 * p.2 + -(sumY points / count points))) points := by
    congr 1
    funext p
    ring
  rw [hsame, hproduct, covariance]
  field_simp
  ring

theorem fitted_eq (hspread : Spread points) :
    fittedSlope points = covariance points / determinant points ∧
      fittedIntercept points =
        (sumY points - covariance points / determinant points * sumX points) / count points := by
  have hcount := hspread.count_pos.ne'
  have hslope : fittedSlope points = covariance points / determinant points := by
    rw [fittedSlope, centred_xx hcount, centred_xy hcount, div_div_div_cancel_right₀ hcount]
  refine ⟨hslope, ?_⟩
  rw [fittedIntercept, hslope]
  ring

theorem fitted_isBestFit (hspread : Spread points) :
    IsBestFit (fittedSlope points) (fittedIntercept points) points := by
  obtain ⟨hslope, hintercept⟩ := fitted_eq hspread
  rw [hslope, hintercept]
  exact (normal_of_quotient hspread.count_pos.ne' (determinant_pos hspread).ne').isBestFit hspread

def fittedR2 (points : List (ℚ × ℚ)) : ℚ :=
  if variation points = 0 then 1
  else 1 - residual (fittedSlope points) (fittedIntercept points) points / variation points

theorem fittedR2_bounds (hspread : Spread points) :
    0 ≤ fittedR2 points ∧ fittedR2 points ≤ 1 ∧ (fittedR2 points = 1 ↔ Collinear points) := by
  have hbest := fitted_isBestFit hspread
  have hle : residual (fittedSlope points) (fittedIntercept points) points ≤ variation points :=
    hbest.least _ _
  have hnonneg := residual_nonneg (fittedSlope points) (fittedIntercept points) points
  unfold fittedR2
  by_cases hzero : variation points = 0
  · rw [if_pos hzero]
    refine ⟨zero_le_one, le_rfl, fun _ => ?_, fun _ => rfl⟩
    rw [hzero] at hle
    exact hbest.residual_eq_zero_iff.mp (le_antisymm hle hnonneg)
  · rw [if_neg hzero]
    have hpos : 0 < variation points := lt_of_le_of_ne (hnonneg.trans hle) (Ne.symm hzero)
    refine ⟨sub_nonneg.mpr ((div_le_one hpos).mpr hle),
      sub_le_self 1 (div_nonneg hnonneg hpos.le), ?_⟩
    rw [sub_eq_self, div_eq_zero_iff, or_iff_left hzero]
    exact hbest.residual_eq_zero_iff

theorem zip_fst_snd (points : List (ℚ × ℚ)) :
    (points.map Prod.fst).zip (points.map Prod.snd) = points := by
  rw [List.zip_map']
  exact List.map_id points

theorem mean_fst (hcount : count points ≠ 0) :
    mean (points.map Prod.fst) = .ok (sumX points / count points) := by
  have hdivide := divide_exact (a := sumX points) hcount
  rw [mean, List.length_map]
  exact hdivide

theorem mean_snd (hcount : count points ≠ 0) :
    mean (points.map Prod.snd) = .ok (sumY points / count points) := by
  have hdivide := divide_exact (a := sumY points) hcount
  rw [mean, List.length_map]
  exact hdivide

theorem goodness_exact (hspread : Spread points) :
    goodness (residual (fittedSlope points) (fittedIntercept points) points) (variation points) =
      .ok (fittedR2 points) := by
  have hle : residual (fittedSlope points) (fittedIntercept points) points ≤ variation points :=
    (fitted_isBestFit hspread).least _ _
  have hnonneg := residual_nonneg (fittedSlope points) (fittedIntercept points) points
  unfold goodness fittedR2
  by_cases hzero : variation points = 0
  · have hresidual : residual (fittedSlope points) (fittedIntercept points) points = 0 :=
      le_antisymm (hle.trans hzero.le) hnonneg
    rw [if_pos hzero, hzero, hresidual]
    rfl
  · have hne : PyFloat.eq (variation points) (number 0) = false := decide_eq_false hzero
    rw [if_neg hzero, hne, Bool.false_and, if_neg Bool.false_ne_true, if_neg Bool.false_ne_true,
      divide_exact hzero]
    rfl

theorem linearFit_exact (hspread : Spread points) :
    linearFit (points.map Prod.fst) (points.map Prod.snd) =
      .ok ⟨fittedSlope points, fittedIntercept points, fittedR2 points⟩ := by
  have hcount := hspread.count_pos.ne'
  have hlength : ¬ ((points.map Prod.fst).length ≠ (points.map Prod.snd).length ∨
      (points.map Prod.fst).length < 2) := by
    obtain ⟨p, hp, q, hq, hpq⟩ := hspread
    rw [List.length_map, List.length_map]
    rintro (hne | hfew)
    · exact hne rfl
    · obtain ⟨r, rfl⟩ := List.length_eq_one_iff.mp
        (le_antisymm (Nat.le_of_lt_succ hfew) (List.length_pos_of_mem hp))
      rw [List.mem_singleton.mp hp, List.mem_singleton.mp hq] at hpq
      exact hpq rfl
  have hdenominator : (total (fun p => (p.1 - sumX points / count points) *
      (p.1 - sumX points / count points)) points) ≠ 0 := by
    rw [centred_xx hcount]
    exact div_ne_zero (determinant_pos hspread).ne' hcount
  have hsquares : PyFloat.sum ((points.map Prod.fst).map fun item =>
      (item - sumX points / count points) * (item - sumX points / count points)) =
      total (fun p => (p.1 - sumX points / count points) *
        (p.1 - sumX points / count points)) points := by
    rw [List.map_map]
    rfl
  have heq : PyFloat.eq (total (fun p => (p.1 - sumX points / count points) *
      (p.1 - sumX points / count points)) points) (number 0) = false :=
    decide_eq_false hdenominator
  unfold linearFit
  rw [if_neg hlength, mean_fst hcount, Except.ok_bind, mean_snd hcount, Except.ok_bind,
    mapM_squared, Except.ok_bind]
  dsimp only
  rw [hsquares, heq, if_neg Bool.false_ne_true, zip_fst_snd]
  have hslope : divide (PyFloat.sum (points.map fun pair =>
      (pair.1 - sumX points / count points) * (pair.2 - sumY points / count points)))
      (total (fun p => (p.1 - sumX points / count points) *
        (p.1 - sumX points / count points)) points) = .ok (fittedSlope points) :=
    divide_exact hdenominator
  rw [hslope, Except.ok_bind, mapM_squared, Except.ok_bind, mapM_squared, Except.ok_bind]
  have hresidual : PyFloat.sum (points.map fun pair =>
      (pair.2 - (fittedSlope points * pair.1 + fittedIntercept points)) *
        (pair.2 - (fittedSlope points * pair.1 + fittedIntercept points))) =
      residual (fittedSlope points) (fittedIntercept points) points := by
    unfold LeastSquares.residual
    simp only [sq]
    rfl
  have hvariation : PyFloat.sum ((points.map Prod.snd).map fun item =>
      (item - sumY points / count points) * (item - sumY points / count points)) =
      variation points := by
    unfold variation LeastSquares.residual
    rw [List.map_map]
    simp only [sq, zero_mul, zero_add]
    rfl
  have hgoodness := goodness_exact hspread
  rw [← hresidual, ← hvariation] at hgoodness
  exact hgoodness ▸ rfl

end Exact

/-- The fit of samples over different axis values is the line of least squares, and its quality is
between zero and one and is one just where the samples lie on a line. -/
theorem linearFit_leastSquares (points : List (ℚ × ℚ)) (hspread : Spread points) :
    ∃ fit, linearFit (points.map Prod.fst) (points.map Prod.snd) = .ok fit ∧
      IsBestFit fit.slope fit.intercept points ∧ 0 ≤ fit.r2 ∧ fit.r2 ≤ 1 ∧
        (fit.r2 = 1 ↔ Collinear points) :=
  ⟨_, linearFit_exact hspread, fitted_isBestFit hspread, fittedR2_bounds hspread⟩

/-- The fit of constant samples. -/
theorem linearFit_constant :
    ∃ fit, linearFit ([((0 : ℚ), (1 : ℚ)), (1, 1)].map Prod.fst)
        ([((0 : ℚ), (1 : ℚ)), (1, 1)].map Prod.snd) = .ok fit ∧
      IsBestFit fit.slope fit.intercept [((0 : ℚ), (1 : ℚ)), (1, 1)] ∧ 0 ≤ fit.r2 ∧ fit.r2 ≤ 1 ∧
        (fit.r2 = 1 ↔ Collinear [((0 : ℚ), (1 : ℚ)), (1, 1)]) :=
  linearFit_leastSquares [((0 : ℚ), (1 : ℚ)), (1, 1)]
    ⟨(0, 1), List.mem_cons_self, (1, 1), List.mem_cons_of_mem _ List.mem_cons_self, zero_ne_one⟩

end OpenADA.Runner
