import Mathlib.Algebra.BigOperators.Group.List.Lemmas
import Mathlib.Algebra.Order.Field.Basic
import Mathlib.Tactic

/-! The line of least squares through points, by its normal equations. -/
namespace LeastSquares

variable {K : Type*} [Field K]

def total (f : K × K → K) (points : List (K × K)) : K := (points.map f).sum

@[simp] theorem total_nil (f : K × K → K) : total f [] = 0 := rfl

@[simp] theorem total_cons (f : K × K → K) (p : K × K) (rest : List (K × K)) :
    total f (p :: rest) = f p + total f rest := by
  rw [total, List.map_cons, List.sum_cons, total]

def count (points : List (K × K)) : K := (points.length : K)

def sumX (points : List (K × K)) : K := total (fun p => p.1) points

def sumY (points : List (K × K)) : K := total (fun p => p.2) points

def sumXX (points : List (K × K)) : K := total (fun p => p.1 * p.1) points

def sumXY (points : List (K × K)) : K := total (fun p => p.1 * p.2) points

def sumYY (points : List (K × K)) : K := total (fun p => p.2 * p.2) points

def residual (slope intercept : K) (points : List (K × K)) : K :=
  total (fun p => (p.2 - (slope * p.1 + intercept)) ^ 2) points

def determinant (points : List (K × K)) : K :=
  count points * sumXX points - sumX points * sumX points

def covariance (points : List (K × K)) : K :=
  count points * sumXY points - sumX points * sumY points

structure Normal (slope intercept : K) (points : List (K × K)) : Prop where
  first : slope * sumX points + count points * intercept = sumY points
  second : slope * sumXX points + intercept * sumX points = sumXY points

section Algebra

variable {points : List (K × K)} {slope intercept : K}

@[simp] theorem count_cons (p : K × K) (rest : List (K × K)) :
    count (p :: rest) = count rest + 1 := by
  unfold count
  rw [List.length_cons, Nat.cast_succ]

theorem total_product (a b c a' b' c' : K) (points : List (K × K)) :
    total (fun p => (a * p.1 + b * p.2 + c) * (a' * p.1 + b' * p.2 + c')) points =
      a * a' * sumXX points + (a * b' + b * a') * sumXY points + b * b' * sumYY points +
        (a * c' + c * a') * sumX points + (b * c' + c * b') * sumY points +
          c * c' * count points := by
  induction points with
  | nil => simp [sumX, sumY, sumXX, sumXY, sumYY, count]
  | cons p rest ih =>
    simp only [total_cons, sumX, sumY, sumXX, sumXY, sumYY, count_cons] at ih ⊢
    rw [ih]
    ring

theorem residual_eq (slope intercept : K) (points : List (K × K)) :
    residual slope intercept points =
      sumYY points - 2 * slope * sumXY points - 2 * intercept * sumY points +
        slope ^ 2 * sumXX points + 2 * slope * intercept * sumX points +
          intercept ^ 2 * count points := by
  have hproduct := total_product (-slope) 1 (-intercept) (-slope) 1 (-intercept) points
  have hsame : residual slope intercept points = total (fun p =>
      (-slope * p.1 + 1 * p.2 + -intercept) * (-slope * p.1 + 1 * p.2 + -intercept)) points := by
    unfold residual
    congr 1
    funext p
    ring
  rw [hsame, hproduct]
  ring

/-- A line is worse than a normal one by the squared distance between the two at the points. -/
theorem residual_of_normal (h : Normal slope intercept points) (a b : K) :
    residual a b points = residual slope intercept points +
      total (fun p => ((a - slope) * p.1 + (b - intercept)) ^ 2) points := by
  have hproduct := total_product (a - slope) 0 (b - intercept) (a - slope) 0 (b - intercept) points
  have hsame : total (fun p => ((a - slope) * p.1 + (b - intercept)) ^ 2) points =
      total (fun p => ((a - slope) * p.1 + 0 * p.2 + (b - intercept)) *
        ((a - slope) * p.1 + 0 * p.2 + (b - intercept))) points := by
    congr 1
    funext p
    ring
  rw [hsame, hproduct, residual_eq, residual_eq]
  linear_combination (2 * a - 2 * slope) * h.second + (2 * b - 2 * intercept) * h.first

theorem total_map (f : K × K → K) (g : K × K → K × K) (points : List (K × K)) :
    total f (points.map g) = total (fun p => f (g p)) points := by
  rw [total, List.map_map]
  rfl

theorem total_congr {f g : K × K → K} (h : ∀ p ∈ points, f p = g p) :
    total f points = total g points :=
  congrArg List.sum (List.map_congr_left h)

theorem total_affine (a b c : K) (points : List (K × K)) :
    total (fun p => a * p.1 + b * p.2 + c) points =
      a * sumX points + b * sumY points + c * count points := by
  have hproduct := total_product a b c 0 0 1 points
  simp only [zero_mul, add_zero, mul_zero, zero_add, mul_one] at hproduct
  rw [hproduct]

def moved (a b c d : K) (points : List (K × K)) : List (K × K) :=
  points.map fun p => (a * p.1 + b, c * p.2 + d)

theorem count_moved (a b c d : K) (points : List (K × K)) :
    count (moved a b c d points) = count points := by
  rw [count, moved, List.length_map, count]

theorem determinant_moved (a b c d : K) (points : List (K × K)) :
    determinant (moved a b c d points) = a ^ 2 * determinant points := by
  have hx : sumX (moved a b c d points) = a * sumX points + b * count points := by
    have haffine := total_affine a 0 b points
    simp only [zero_mul, add_zero] at haffine
    rw [sumX, moved, total_map, haffine]
  have hxx : sumXX (moved a b c d points) =
      a ^ 2 * sumXX points + 2 * a * b * sumX points + b ^ 2 * count points := by
    have hproduct := total_product a 0 b a 0 b points
    simp only [zero_mul, add_zero, mul_zero] at hproduct
    rw [sumXX, moved, total_map, hproduct]
    ring
  unfold determinant
  rw [hx, hxx, count_moved]
  ring

theorem covariance_moved (a b c d : K) (points : List (K × K)) :
    covariance (moved a b c d points) = a * c * covariance points := by
  have hx : sumX (moved a b c d points) = a * sumX points + b * count points := by
    have haffine := total_affine a 0 b points
    simp only [zero_mul, add_zero] at haffine
    rw [sumX, moved, total_map, haffine]
  have hy : sumY (moved a b c d points) = c * sumY points + d * count points := by
    have haffine := total_affine 0 c d points
    simp only [zero_mul, zero_add] at haffine
    rw [sumY, moved, total_map, haffine]
  have hxy : sumXY (moved a b c d points) =
      a * c * sumXY points + a * d * sumX points + b * c * sumY points + b * d * count points := by
    have hproduct := total_product a 0 b 0 c d points
    simp only [zero_mul, add_zero, mul_zero, zero_add] at hproduct
    rw [sumXY, moved, total_map, hproduct]
  unfold covariance
  rw [hx, hy, hxy, count_moved]
  ring

theorem normal_of_quotient (hcount : count points ≠ 0) (hdeterminant : determinant points ≠ 0) :
    Normal (covariance points / determinant points)
      ((sumY points - covariance points / determinant points * sumX points) / count points)
      points := by
  constructor
  · field_simp
    ring
  · have hslope : covariance points / determinant points * determinant points =
        covariance points := div_mul_cancel₀ _ hdeterminant
    have hexpanded : covariance points / determinant points *
        (count points * sumXX points - sumX points * sumX points) =
        count points * sumXY points - sumX points * sumY points := hslope
    have hintercept : (sumY points - covariance points / determinant points * sumX points) /
        count points * count points =
        sumY points - covariance points / determinant points * sumX points :=
      div_mul_cancel₀ _ hcount
    refine mul_left_cancel₀ hcount ?_
    linear_combination hexpanded + sumX points * hintercept

theorem count_mul_determinant (points : List (K × K)) :
    count points * determinant points =
      total (fun p => (count points * p.1 - sumX points) ^ 2) points := by
  have hproduct := total_product (count points) 0 (-sumX points) (count points) 0 (-sumX points)
    points
  have hsame : total (fun p => (count points * p.1 - sumX points) ^ 2) points =
      total (fun p => (count points * p.1 + 0 * p.2 + -sumX points) *
        (count points * p.1 + 0 * p.2 + -sumX points)) points := by
    congr 1
    funext p
    ring
  rw [hsame, hproduct, determinant]
  ring

end Algebra

section Order

variable [LinearOrder K] [IsStrictOrderedRing K] {points : List (K × K)} {slope intercept : K}

theorem total_nonneg {f : K × K → K} (h : ∀ p ∈ points, 0 ≤ f p) : 0 ≤ total f points := by
  induction points with
  | nil => exact le_rfl
  | cons p rest ih =>
    rw [total_cons]
    exact add_nonneg (h p List.mem_cons_self) (ih fun q hq => h q (List.mem_cons_of_mem _ hq))

theorem total_eq_zero {f : K × K → K} (h : ∀ p, 0 ≤ f p) :
    total f points = 0 ↔ ∀ p ∈ points, f p = 0 := by
  induction points with
  | nil => simp
  | cons p rest ih =>
    rw [total_cons, add_eq_zero_iff_of_nonneg (h p) (total_nonneg fun q _ => h q), ih,
      List.forall_mem_cons]

def Spread (points : List (K × K)) : Prop := ∃ p ∈ points, ∃ q ∈ points, p.1 ≠ q.1

theorem count_pos (h : points ≠ []) : 0 < count points :=
  Nat.cast_pos.mpr (List.length_pos_iff.mpr h)

theorem Spread.count_pos (h : Spread points) : 0 < count points := by
  obtain ⟨p, hp, -⟩ := h
  exact LeastSquares.count_pos (List.ne_nil_of_mem hp)

theorem determinant_pos (h : Spread points) : 0 < determinant points := by
  have hcount := h.count_pos
  have hnonneg : 0 ≤ total (fun p => (count points * p.1 - sumX points) ^ 2) points :=
    total_nonneg fun p _ => sq_nonneg _
  have hne : total (fun p => (count points * p.1 - sumX points) ^ 2) points ≠ 0 := by
    intro hzero
    obtain ⟨p, hp, q, hq, hpq⟩ := h
    have hall := (total_eq_zero fun p => sq_nonneg _).mp hzero
    have hp0 := pow_eq_zero_iff (two_ne_zero) |>.mp (hall p hp)
    have hq0 := pow_eq_zero_iff (two_ne_zero) |>.mp (hall q hq)
    exact hpq (mul_left_cancel₀ hcount.ne' (by linarith))
  rw [← count_mul_determinant] at hnonneg hne
  exact pos_of_mul_pos_right (lt_of_le_of_ne hnonneg hne.symm) hcount.le

structure IsBestFit (slope intercept : K) (points : List (K × K)) : Prop where
  least : ∀ a b, residual slope intercept points ≤ residual a b points
  unique : ∀ a b, residual a b points = residual slope intercept points →
    a = slope ∧ b = intercept

theorem Normal.isBestFit (h : Normal slope intercept points) (hspread : Spread points) :
    IsBestFit slope intercept points := by
  have hnonneg (a b : K) :
      0 ≤ total (fun p => ((a - slope) * p.1 + (b - intercept)) ^ 2) points :=
    total_nonneg fun p _ => sq_nonneg _
  constructor
  · intro a b
    rw [residual_of_normal h a b]
    exact le_add_of_nonneg_right (hnonneg a b)
  · intro a b heq
    rw [residual_of_normal h a b] at heq
    have hall := (total_eq_zero fun p => sq_nonneg _).mp (left_eq_add.mp heq.symm)
    obtain ⟨p, hp, q, hq, hpq⟩ := hspread
    have hp0 := pow_eq_zero_iff two_ne_zero |>.mp (hall p hp)
    have hq0 := pow_eq_zero_iff two_ne_zero |>.mp (hall q hq)
    have hslope : (a - slope) * (p.1 - q.1) = 0 := by linarith
    have ha : a - slope = 0 := (mul_eq_zero.mp hslope).resolve_right (sub_ne_zero.mpr hpq)
    rw [ha, zero_mul, zero_add] at hp0
    exact ⟨sub_eq_zero.mp ha, sub_eq_zero.mp hp0⟩

def Collinear (points : List (K × K)) : Prop :=
  ∃ a b, ∀ p ∈ points, p.2 = a * p.1 + b

theorem residual_nonneg (slope intercept : K) (points : List (K × K)) :
    0 ≤ residual slope intercept points :=
  total_nonneg fun _ _ => sq_nonneg _

theorem residual_eq_zero : residual slope intercept points = 0 ↔
    ∀ p ∈ points, p.2 = slope * p.1 + intercept := by
  unfold residual
  rw [total_eq_zero fun p => sq_nonneg _]
  exact forall₂_congr fun _ _ => by rw [pow_eq_zero_iff two_ne_zero, sub_eq_zero]

theorem IsBestFit.residual_eq_zero_iff (h : IsBestFit slope intercept points) :
    residual slope intercept points = 0 ↔ Collinear points := by
  constructor
  · intro hzero
    exact ⟨slope, intercept, residual_eq_zero.mp hzero⟩
  · rintro ⟨a, b, hon⟩
    have hle := h.least a b
    rw [residual_eq_zero.mpr hon] at hle
    exact le_antisymm hle (residual_nonneg _ _ _)

end Order

end LeastSquares
