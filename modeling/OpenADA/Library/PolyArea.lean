import OpenADA.Library.PolyLine
import Mathlib.Analysis.SpecialFunctions.Integrals.Basic

/-! The area under the signal that joins sampled points, as a sum of trapezoids and as an
integral. -/
namespace PolyLine

section Area

variable {K : Type*} [Field K] [LinearOrder K]

def trapezoid (segment : (K × K) × (K × K)) : K :=
  (segment.2.1 - segment.1.1) * (segment.1.2 + segment.2.2) / (2 : ℕ)

def area (points : List (K × K)) : K := ((segments points).map trapezoid).sum

def between (a b : K) (p : K × K) : Bool := decide (a < p.1) && decide (p.1 < b)

def clipped (points : List (K × K)) (a b : K) : List (K × K) :=
  (a, signal points a) :: points.filter (between a b) ++ [(b, signal points b)]

variable {p q : K × K} {points rest : List (K × K)} {a b : K}

omit [LinearOrder K] in
theorem area_cons_cons : area (p :: q :: rest) = trapezoid (p, q) + area (q :: rest) := by
  rw [area, segments_cons_cons, List.map_cons, List.sum_cons, area]

omit [Field K] in
theorem between_iff : between a b p = true ↔ a < p.1 ∧ p.1 < b := by
  rw [between, Bool.and_eq_true, decide_eq_true_eq, decide_eq_true_eq]

theorem clipped_of_le [IsStrictOrderedRing K] (h : Increasing (p :: q :: rest)) (ha : q.1 ≤ a)
    (hab : a < b) : clipped (p :: q :: rest) a b = clipped (q :: rest) a b := by
  have hp : ¬between a b p = true := fun hin =>
    absurd ((between_iff.mp hin).1.trans h.head_lt) (not_lt.mpr ha)
  rw [clipped, clipped, signal_of_ge h ha, signal_of_ge h (ha.trans hab.le),
    List.filter_cons_of_neg hp]

theorem clipped_of_lt [IsStrictOrderedRing K] (h : Increasing (p :: q :: rest)) (hp : p.1 ≤ a)
    (ha : a < q.1) (hb : q.1 < b) :
    clipped (p :: q :: rest) a b = (a, lerp p q a) :: clipped (q :: rest) q.1 b := by
  have hout : ¬between a b p = true := fun hin => absurd (between_iff.mp hin).1 (not_lt.mpr hp)
  have hin : between a b q = true := between_iff.mpr ⟨ha, hb⟩
  have hself : ¬between q.1 b q = true := fun hin => lt_irrefl _ (between_iff.mp hin).1
  have hrest : rest.filter (between a b) = rest.filter (between q.1 b) := by
    apply List.filter_congr
    intro r hr
    have hqr : q.1 < r.1 := List.rel_of_pairwise_cons h.of_cons hr
    rw [between, between, decide_eq_true hqr, decide_eq_true (ha.trans hqr)]
  rw [clipped, clipped, signal_of_le ha.le, signal_of_ge h hb.le, signal_head h.of_cons,
    List.filter_cons_of_neg hout, List.filter_cons_of_pos hin, List.filter_cons_of_neg hself, hrest]
  rfl

theorem clipped_inside (h : Increasing (p :: q :: rest)) (hp : p.1 ≤ a) (hab : a < b)
    (hb : b ≤ q.1) : clipped (p :: q :: rest) a b = [(a, lerp p q a), (b, lerp p q b)] := by
  have hnone : (p :: q :: rest).filter (between a b) = [] := by
    rw [List.filter_eq_nil_iff]
    intro r hr hin
    obtain ⟨har, hrb⟩ := between_iff.mp hin
    rcases List.mem_cons.mp hr with rfl | hr
    · exact absurd har (not_lt.mpr hp)
    · exact absurd (hrb.trans_le hb) (not_lt.mpr (h.of_cons.head_le hr))
  rw [clipped, hnone, signal_of_le (hab.le.trans hb), signal_of_le hb]
  rfl

theorem signal_linear (axis v w : List K) (hv : v.length = axis.length)
    (hw : w.length = axis.length) (α β x : K) :
    signal (axis.zip (List.zipWith (fun y z => α * y + β * z) v w)) x =
      α * signal (axis.zip v) x + β * signal (axis.zip w) x := by
  induction axis generalizing v w with
  | nil => simp [signal]
  | cons t axis ih =>
    obtain ⟨y, v, rfl⟩ := List.exists_cons_of_length_eq_add_one hv
    obtain ⟨z, w, rfl⟩ := List.exists_cons_of_length_eq_add_one hw
    cases axis with
    | nil =>
      obtain rfl := List.length_eq_zero_iff.mp (Nat.succ.inj hv)
      obtain rfl := List.length_eq_zero_iff.mp (Nat.succ.inj hw)
      rfl
    | cons u axis =>
      have hrest := ih v w (Nat.succ.inj hv) (Nat.succ.inj hw)
      obtain ⟨y', v, rfl⟩ := List.exists_cons_of_length_eq_add_one (Nat.succ.inj hv)
      obtain ⟨z', w, rfl⟩ := List.exists_cons_of_length_eq_add_one (Nat.succ.inj hw)
      simp only [List.zipWith_cons_cons, List.zip_cons_cons, signal] at hrest ⊢
      split
      · unfold lerp
        ring
      · exact hrest

end Area

section Real

open MeasureTheory intervalIntegral

variable {p q : ℝ × ℝ} {points : List (ℝ × ℝ)} {a b c : ℝ}

theorem lerp_continuous (p q : ℝ × ℝ) : Continuous (lerp p q) := by
  unfold lerp
  fun_prop

theorem integral_lerp (h : p.1 < q.1) (a b : ℝ) :
    ∫ x in a..b, lerp p q x = trapezoid ((a, lerp p q a), (b, lerp p q b)) := by
  have hwidth : q.1 - p.1 ≠ 0 := (sub_pos.mpr h).ne'
  have hderiv (x : ℝ) : HasDerivAt
      (fun x => p.2 * x + (q.2 - p.2) / (q.1 - p.1) * ((x - p.1) ^ 2 / 2)) (lerp p q x) x := by
    have hline := (hasDerivAt_id x).const_mul p.2
    have hsquare := ((((hasDerivAt_id x).sub_const p.1).pow 2).div_const 2).const_mul
      ((q.2 - p.2) / (q.1 - p.1))
    refine (hline.add hsquare).congr_deriv ?_
    simp only [lerp, id_eq]
    field_simp
    ring
  rw [integral_eq_sub_of_hasDerivAt (fun x _ => hderiv x) ((lerp_continuous p q).intervalIntegrable a b)]
  simp only [trapezoid, lerp, Nat.cast_ofNat]
  field_simp
  ring

/-- On a part of the first segment the signal integrates as the line through its ends. -/
theorem integral_first {rest : List (ℝ × ℝ)} (h : Increasing (p :: q :: rest)) (hab : a ≤ b)
    (hb : b ≤ q.1) : IntervalIntegrable (signal (p :: q :: rest)) volume a b ∧
      ∫ x in a..b, signal (p :: q :: rest) x = trapezoid ((a, lerp p q a), (b, lerp p q b)) := by
  have heq : Set.EqOn (lerp p q) (signal (p :: q :: rest)) (Set.uIcc a b) := by
    intro x hx
    rw [Set.uIcc_of_le hab] at hx
    exact (signal_of_le (hx.2.trans hb)).symm
  constructor
  · apply ((lerp_continuous p q).intervalIntegrable a b).congr
    intro x hx
    exact heq (Set.uIoc_subset_uIcc hx)
  · rw [← integral_congr heq, integral_lerp h.head_lt]

/-- From the second point on the signal integrates as that of the points after the first. -/
theorem integral_later {rest : List (ℝ × ℝ)} (h : Increasing (p :: q :: rest)) (ha : q.1 ≤ a)
    (hab : a ≤ b) (hrest : IntervalIntegrable (signal (q :: rest)) volume a b) :
    IntervalIntegrable (signal (p :: q :: rest)) volume a b ∧
      ∫ x in a..b, signal (p :: q :: rest) x = ∫ x in a..b, signal (q :: rest) x := by
  have heq : Set.EqOn (signal (q :: rest)) (signal (p :: q :: rest)) (Set.uIcc a b) := by
    intro x hx
    rw [Set.uIcc_of_le hab] at hx
    exact (signal_of_ge h (ha.trans hx.1)).symm
  constructor
  · apply hrest.congr
    intro x hx
    exact heq (Set.uIoc_subset_uIcc hx)
  · exact (integral_congr heq).symm

theorem integral_signal (h : Increasing points) (hfirst : ∀ p ∈ points.head?, p.1 ≤ a)
    (hab : a < b) : IntervalIntegrable (signal points) volume a b ∧
      ∫ x in a..b, signal points x = area (clipped points a b) := by
  induction points generalizing a with
  | nil =>
    have hzero : signal ([] : List (ℝ × ℝ)) = fun _ => 0 := rfl
    rw [hzero]
    refine ⟨intervalIntegrable_const, ?_⟩
    simp [area, clipped, trapezoid, signal]
  | cons p rest ih =>
    have hp : p.1 ≤ a := hfirst p rfl
    cases rest with
    | nil =>
      have hconst : signal [p] = fun _ => p.2 := rfl
      have hout : ¬a < p.1 := not_lt.mpr hp
      rw [hconst]
      refine ⟨intervalIntegrable_const, ?_⟩
      simp [area, clipped, between, trapezoid, signal, hout]
      ring
    | cons q rest =>
      rcases le_or_gt b q.1 with hb | hb
      · rw [clipped_inside h hp hab hb, area_cons_cons]
        have hline := integral_first h hab.le hb
        rw [hline.2]
        exact ⟨hline.1, (add_zero _).symm⟩
      · rcases le_or_gt q.1 a with ha | ha
        · obtain ⟨hint, heq⟩ := ih h.of_cons (fun r hr => by obtain rfl := Option.some.inj hr; exact ha) hab
          obtain ⟨hlater, hsame⟩ := integral_later h ha hab.le hint
          rw [clipped_of_le h ha hab, hsame]
          exact ⟨hlater, heq⟩
        · obtain ⟨hint, heq⟩ := ih h.of_cons
            (fun r hr => by obtain rfl := Option.some.inj hr; exact le_rfl) hb
          obtain ⟨hlater, hsame⟩ := integral_later h le_rfl hb.le hint
          obtain ⟨hinit, hline⟩ := integral_first h ha.le le_rfl
          have hsignal : signal (q :: rest) q.1 = q.2 := signal_head h.of_cons
          rw [← integral_add_adjacent_intervals hinit hlater, hline, hsame, heq,
            clipped_of_lt h hp ha hb, clipped, hsignal, List.cons_append, area_cons_cons,
            lerp_right h.head_lt]
          exact ⟨hinit.trans hlater, rfl⟩

theorem integral_adjacent (h : Increasing points) (hfirst : ∀ p ∈ points.head?, p.1 ≤ a)
    (hab : a < b) (hbc : b < c) :
    ∫ x in a..c, signal points x = (∫ x in a..b, signal points x) + ∫ x in b..c, signal points x := by
  have hleft := (integral_signal h hfirst hab).1
  have hright := (integral_signal h (fun p hp => (hfirst p hp).trans hab.le) hbc).1
  exact (integral_add_adjacent_intervals hleft hright).symm

end Real

section Cast

def realPoints (points : List (ℚ × ℚ)) : List (ℝ × ℝ) := points.map fun p => ((p.1 : ℝ), (p.2 : ℝ))

theorem Increasing.realPoints {points : List (ℚ × ℚ)} (h : Increasing points) :
    Increasing (realPoints points) := by
  apply List.pairwise_map.mpr
  exact h.imp fun hlt => Rat.cast_lt.mpr hlt

theorem signal_realPoints (points : List (ℚ × ℚ)) (x : ℚ) :
    signal (realPoints points) (x : ℝ) = (signal points x : ℚ) := by
  induction points with
  | nil => exact Rat.cast_zero.symm
  | cons p rest ih =>
    cases rest with
    | nil => rfl
    | cons q rest =>
      have hsplit : PolyLine.realPoints (p :: q :: rest) =
          ((p.1 : ℝ), (p.2 : ℝ)) :: ((q.1 : ℝ), (q.2 : ℝ)) :: PolyLine.realPoints rest := rfl
      have hrest : signal (((q.1 : ℝ), (q.2 : ℝ)) :: PolyLine.realPoints rest) x =
        (signal (q :: rest) x : ℚ) := ih
      rw [hsplit, signal, signal, hrest]
      simp only [Rat.cast_le]
      split
      · unfold lerp
        push_cast
        rfl
      · rfl

theorem clipped_realPoints (points : List (ℚ × ℚ)) (a b : ℚ) :
    clipped (realPoints points) (a : ℝ) b = realPoints (clipped points a b) := by
  have hfilter : (realPoints points).filter (between (a : ℝ) b) =
      realPoints (points.filter (between a b)) := by
    unfold realPoints
    rw [List.filter_map]
    congr 1
    apply List.filter_congr
    intro p _
    simp only [Function.comp, between, Rat.cast_lt]
  rw [clipped, clipped, hfilter, signal_realPoints, signal_realPoints]
  simp only [realPoints, List.map_append, List.map_cons, List.map_nil, List.cons_append]

theorem area_realPoints (points : List (ℚ × ℚ)) : area (realPoints points) = (area points : ℚ) := by
  unfold area realPoints
  rw [segments_map, Rat.cast_list_sum, List.map_map, List.map_map]
  congr 1
  apply List.map_congr_left
  intro s _
  simp only [Function.comp, trapezoid, Prod.map]
  push_cast
  rfl

end Cast

end PolyLine
