import OpenADA.Library.ExceptFold
import OpenADA.Library.PolyLine
import OpenADA.Library.PyFloat
import Mathlib.Algebra.Polynomial.Derivative
import Mathlib.LinearAlgebra.Lagrange

/-! The local tuning gain of an oscillator: weighted secants, which are the derivatives of the
quadratics through three neighbouring points. -/
namespace OpenADA.Oscillator

inductive Refusal where
  | nonFinite
  | overLimit
  | window
  | index
  deriving DecidableEq

section Model

variable {F : Type} [PyFloat F]

def quotient (a b : F) : Except Refusal F :=
  match PyFloat.div a b with
  | some q => .ok q
  | none => .error .nonFinite

def secant (p q : F × F) : Except Refusal F := quotient (q.2 - p.2) (q.1 - p.1)

def interiorGain (p q r : F × F) : Except Refusal F := do
  let h0 := q.1 - p.1
  let h1 := r.1 - q.1
  let left ← quotient (q.2 - p.2) h0
  let right ← quotient (r.2 - q.2) h1
  quotient (h1 * left + h0 * right) (h0 + h1)

def interiorGains : List (F × F) → Except Refusal (List F)
  | p :: q :: r :: rest => do
    let gain ← interiorGain p q r
    let gains ← interiorGains (q :: r :: rest)
    .ok (gain :: gains)
  | _ => .ok []

/-- `_local_tuning_gain` of points, each a control and a frequency. -/
def localTuningGain (points : List (F × F)) : Except Refusal (List F) :=
  match points, points.reverse with
  | first :: second :: _, last :: previous :: _ => do
    let start ← secant first second
    let interior ← interiorGains points
    let stop ← secant previous last
    let output := start :: interior ++ [stop]
    if output.all PyFloat.isFinite then .ok output else .error .nonFinite
  | _, _ => .error .index

end Model

section Quadratic

variable {K : Type*} [Field K] {p q r : K × K}

open Polynomial

def Interpolates (p q r : K × K) (quadratic : K[X]) : Prop :=
  quadratic.degree < 3 ∧ quadratic.eval p.1 = p.2 ∧ quadratic.eval q.1 = q.2 ∧
    quadratic.eval r.1 = r.2

theorem existsUnique_interpolates (hpq : p.1 ≠ q.1) (hpr : p.1 ≠ r.1) (hqr : q.1 ≠ r.1) :
    ∃! quadratic : K[X], Interpolates p q r quadratic := by
  have hinjective : Set.InjOn ![p.1, q.1, r.1] (Finset.univ : Finset (Fin 3)) := by
    intro i _ j _ hij
    fin_cases i <;> fin_cases j <;> simp_all [eq_comm]
  have hiff (quadratic : K[X]) : Interpolates p q r quadratic ↔
      quadratic = Lagrange.interpolate Finset.univ ![p.1, q.1, r.1] ![p.2, q.2, r.2] := by
    rw [← Lagrange.eq_interpolate_iff ![p.2, q.2, r.2] hinjective]
    simp [Interpolates, Fin.forall_fin_succ]
  exact ⟨_, (hiff _).mpr rfl, fun _ h => (hiff _).mp h⟩

theorem eval_of_degree_lt {quadratic : K[X]} (h : quadratic.degree < 3) (x : K) :
    quadratic.eval x = quadratic.coeff 0 + quadratic.coeff 1 * x + quadratic.coeff 2 * x ^ 2 := by
  rw [eval_eq_sum_range' (n := 3) (by
    by_cases hzero : quadratic = 0
    · rw [hzero, natDegree_zero]
      omega
    · exact (natDegree_lt_iff_degree_lt hzero).mpr h)]
  simp [Finset.sum_range_succ]

theorem derivative_of_degree_lt {quadratic : K[X]} (h : quadratic.degree < 3) (x : K) :
    quadratic.derivative.eval x = quadratic.coeff 1 + 2 * quadratic.coeff 2 * x := by
  have hderivative : quadratic.derivative.degree < 3 :=
    degree_derivative_le.trans_lt h
  have hthird : quadratic.coeff 3 = 0 := coeff_eq_zero_of_degree_lt h
  rw [eval_of_degree_lt hderivative, coeff_derivative, coeff_derivative, coeff_derivative, hthird]
  push_cast
  ring

/-- The secants weighted by the opposite intervals are the derivative of the quadratic at the
point between. -/
theorem weightedSecant_eq_derivative {quadratic : K[X]} (h : Interpolates p q r quadratic)
    (hpq : q.1 - p.1 ≠ 0) (hqr : r.1 - q.1 ≠ 0) (hpr : (q.1 - p.1) + (r.1 - q.1) ≠ 0) :
    ((r.1 - q.1) * ((q.2 - p.2) / (q.1 - p.1)) + (q.1 - p.1) * ((r.2 - q.2) / (r.1 - q.1))) /
        ((q.1 - p.1) + (r.1 - q.1)) = quadratic.derivative.eval q.1 := by
  obtain ⟨hdegree, hp, hq, hr⟩ := h
  rw [eval_of_degree_lt hdegree] at hp hq hr
  have hleft : (q.2 - p.2) / (q.1 - p.1) =
      quadratic.coeff 1 + quadratic.coeff 2 * (q.1 + p.1) := by
    rw [div_eq_iff hpq, ← hp, ← hq]
    ring
  have hright : (r.2 - q.2) / (r.1 - q.1) =
      quadratic.coeff 1 + quadratic.coeff 2 * (r.1 + q.1) := by
    rw [div_eq_iff hqr, ← hq, ← hr]
    ring
  rw [hleft, hright, div_eq_iff hpr, derivative_of_degree_lt hdegree]
  ring

end Quadratic

section Order

variable {K : Type*} [Field K] [LinearOrder K] [IsStrictOrderedRing K] {h0 h1 left right : K}

theorem weightedMean_bounds (hh0 : 0 < h0) (hh1 : 0 < h1) :
    min left right ≤ (h1 * left + h0 * right) / (h0 + h1) ∧
      (h1 * left + h0 * right) / (h0 + h1) ≤ max left right := by
  have hsum : 0 < h0 + h1 := add_pos hh0 hh1
  constructor
  · rw [le_div_iff₀ hsum]
    have hl := mul_le_mul_of_nonneg_left (min_le_left left right) hh1.le
    have hr := mul_le_mul_of_nonneg_left (min_le_right left right) hh0.le
    linarith
  · rw [div_le_iff₀ hsum]
    have hl := mul_le_mul_of_nonneg_left (le_max_left left right) hh1.le
    have hr := mul_le_mul_of_nonneg_left (le_max_right left right) hh0.le
    linarith

end Order

section Exact

open PolyLine Polynomial

variable {p q r : ℚ × ℚ} {points rest : List (ℚ × ℚ)}

def slope (p q : ℚ × ℚ) : ℚ := (q.2 - p.2) / (q.1 - p.1)

def weightedSecant (p q r : ℚ × ℚ) : ℚ :=
  ((r.1 - q.1) * slope p q + (q.1 - p.1) * slope q r) / ((q.1 - p.1) + (r.1 - q.1))

theorem quotient_exact {a b : ℚ} (h : b ≠ 0) : quotient a b = .ok (a / b) := by
  have hdiv : PyFloat.div a b = some (a / b) := if_neg h
  rw [quotient, hdiv]

theorem secant_exact (h : p.1 < q.1) : secant p q = .ok (slope p q) :=
  quotient_exact (sub_pos.mpr h).ne'

theorem interiorGain_exact (hpq : p.1 < q.1) (hqr : q.1 < r.1) :
    interiorGain p q r = .ok (weightedSecant p q r) := by
  have hleft : 0 < q.1 - p.1 := sub_pos.mpr hpq
  have hright : 0 < r.1 - q.1 := sub_pos.mpr hqr
  have hl : quotient (q.2 - p.2) (q.1 - p.1) = .ok (slope p q) := quotient_exact hleft.ne'
  have hr : quotient (r.2 - q.2) (r.1 - q.1) = .ok (slope q r) := quotient_exact hright.ne'
  show (quotient (q.2 - p.2) (q.1 - p.1) >>= fun left => quotient (r.2 - q.2) (r.1 - q.1) >>=
    fun right => quotient ((r.1 - q.1) * left + (q.1 - p.1) * right)
      ((q.1 - p.1) + (r.1 - q.1))) = _
  rw [hl, Except.ok_bind, hr, Except.ok_bind]
  exact quotient_exact (add_pos hleft hright).ne'

def weightedSecants : List (ℚ × ℚ) → List ℚ
  | p :: q :: r :: rest => weightedSecant p q r :: weightedSecants (q :: r :: rest)
  | _ => []

theorem interiorGains_exact (h : Increasing points) :
    interiorGains points = .ok (weightedSecants points) := by
  induction points with
  | nil => rfl
  | cons p rest ih =>
    cases rest with
    | nil => rfl
    | cons q rest =>
      cases rest with
      | nil => rfl
      | cons r rest =>
        have hrest := h.of_cons
        rw [interiorGains, interiorGain_exact h.head_lt hrest.head_lt, Except.ok_bind, ih hrest]
        rfl

theorem weightedSecants_getElem {before : List (ℚ × ℚ)} :
    (weightedSecants (before ++ p :: q :: r :: rest))[before.length]? =
      some (weightedSecant p q r) := by
  induction before with
  | nil => rfl
  | cons first before ih =>
    cases before with
    | nil => exact ih
    | cons second before =>
      cases before with
      | nil => exact ih
      | cons third before => exact ih

/-- The derivative, at the point between, of the one quadratic through three points; between the
slopes of the two lines. -/
structure IsLocalGain (p q r : ℚ × ℚ) (gain : ℚ) : Prop where
  interpolant : ∃! quadratic : ℚ[X], Interpolates p q r quadratic
  derivative : ∀ quadratic : ℚ[X], Interpolates p q r quadratic →
    gain = quadratic.derivative.eval q.1
  between : min (slope p q) (slope q r) ≤ gain ∧ gain ≤ max (slope p q) (slope q r)

theorem weightedSecant_isLocalGain (hpq : p.1 < q.1) (hqr : q.1 < r.1) :
    IsLocalGain p q r (weightedSecant p q r) := by
  have hleft : 0 < q.1 - p.1 := sub_pos.mpr hpq
  have hright : 0 < r.1 - q.1 := sub_pos.mpr hqr
  exact
    { interpolant := existsUnique_interpolates hpq.ne (hpq.trans hqr).ne hqr.ne
      derivative := fun quadratic h =>
        weightedSecant_eq_derivative h hleft.ne' hright.ne' (add_pos hleft hright).ne'
      between := weightedMean_bounds hleft hright }

end Exact

section Gains

open PolyLine

theorem weightedSecants_length (points : List (ℚ × ℚ)) :
    (weightedSecants points).length = points.length - 2 := by
  induction points with
  | nil => rfl
  | cons p rest ih =>
    cases rest with
    | nil => rfl
    | cons q rest =>
      cases rest with
      | nil => rfl
      | cons r rest =>
        rw [weightedSecants, List.length_cons, ih]
        simp only [List.length_cons]
        omega

theorem exists_two {α : Type*} {items : List α} (h : 2 ≤ items.length) :
    ∃ first second rest, items = first :: second :: rest := by
  cases items with
  | nil => simp at h
  | cons first rest =>
    cases rest with
    | nil => simp at h
    | cons second rest => exact ⟨first, second, rest, rfl⟩

/-- The gains of points over increasing controls: the secants at the ends, and at a point between
two neighbours the derivative of the quadratic through the three. -/
theorem localTuningGain_quadratic (points : List (ℚ × ℚ)) (h : Increasing points)
    (hcount : 2 ≤ points.length) :
    ∃ gains, localTuningGain points = .ok gains ∧ gains.length = points.length ∧
      ∀ before p q r rest, points = before ++ p :: q :: r :: rest →
        ∃ gain ∈ gains[before.length + 1]?, IsLocalGain p q r gain := by
  obtain ⟨first, second, tail, rfl⟩ := exists_two hcount
  obtain ⟨last, previous, init, hreverse⟩ :=
    exists_two (hcount.trans_eq (first :: second :: tail).length_reverse.symm)
  have hends : previous.1 < last.1 := by
    have hpairs := List.pairwise_reverse.mpr h
    rw [hreverse] at hpairs
    exact List.rel_of_pairwise_cons hpairs List.mem_cons_self
  have hgains : localTuningGain (first :: second :: tail) =
      .ok (slope first second :: weightedSecants (first :: second :: tail) ++
        [slope previous last]) := by
    unfold localTuningGain
    rw [hreverse]
    show (secant first second >>= fun start => interiorGains (first :: second :: tail) >>=
      fun interior => secant previous last >>= fun stop => _) = _
    rw [secant_exact h.head_lt, Except.ok_bind, interiorGains_exact h, Except.ok_bind,
      secant_exact hends, Except.ok_bind]
    exact if_pos (List.all_eq_true.mpr fun _ _ => rfl)
  refine ⟨_, hgains, ?_, fun before p q r rest hsplit => ?_⟩
  · simp only [List.cons_append, List.length_cons, List.length_append, weightedSecants_length,
      List.length_nil]
    omega
  · have hsorted : Increasing (before ++ p :: q :: r :: rest) := hsplit ▸ h
    have htriple : Increasing (p :: q :: r :: rest) := (List.pairwise_append.mp hsorted).2.1
    have hgain : (weightedSecants (first :: second :: tail))[before.length]? =
        some (weightedSecant p q r) := by
      rw [hsplit]
      exact weightedSecants_getElem
    refine ⟨weightedSecant p q r, ?_,
      weightedSecant_isLocalGain htriple.head_lt htriple.of_cons.head_lt⟩
    obtain ⟨hbound, -⟩ := List.getElem?_eq_some_iff.mp hgain
    show (slope first second :: (weightedSecants (first :: second :: tail) ++
      [slope previous last]))[before.length + 1]? = _
    rw [List.getElem?_cons_succ, List.getElem?_append_left hbound, hgain]

/-- The gain between unequal intervals. -/
theorem localTuningGain_unequal : ∃ gains, localTuningGain [((0 : ℚ), (0 : ℚ)), (1, 1), (3, 9)] =
    .ok gains ∧ gains.length = 3 ∧ ∀ before p q r rest,
      [((0 : ℚ), (0 : ℚ)), (1, 1), (3, 9)] = before ++ p :: q :: r :: rest →
        ∃ gain ∈ gains[before.length + 1]?, IsLocalGain p q r gain :=
  localTuningGain_quadratic [((0 : ℚ), (0 : ℚ)), (1, 1), (3, 9)]
    (by norm_num [Increasing]) (by decide)

end Gains

end OpenADA.Oscillator
