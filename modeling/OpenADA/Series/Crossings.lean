import OpenADA.Library.ExceptFold
import OpenADA.Library.PolyLine
import OpenADA.Series.Measure

/-! The crossings of a measurement in exact arithmetic: the segments that pass the level, each at
the place where the line through its ends has the level. -/
namespace OpenADA.Series

open PolyLine SignedRat

def exactPoints (points : List (SignedRat × SignedRat)) : List (ℚ × ℚ) :=
  points.map (Prod.map value value)

def passes (direction : Direction) (level : ℚ) (segment : (ℚ × ℚ) × (ℚ × ℚ)) : Bool :=
  let rising := decide (Rises level segment)
  let falling := decide (Falls level segment)
  match direction with
  | .rising => rising
  | .falling => falling
  | .either => rising || falling

def passageTimes (direction : Direction) (level : ℚ) (points : List (ℚ × ℚ)) : List ℚ :=
  ((segments points).filter (passes direction level)).map fun segment =>
    timeAt level segment.1 segment.2

def insideWindow (window : Option (SignedRat × SignedRat)) (segment : (ℚ × ℚ) × (ℚ × ℚ)) : Bool :=
  window.all fun bounds => segmentWithin bounds.1.value bounds.2.value segment

section Exact

variable {direction : Direction} {threshold : SignedRat}
  {window : Option (SignedRat × SignedRat)} {points : List (SignedRat × SignedRat)} {level : ℚ}

theorem passes_iff {segment : (ℚ × ℚ) × (ℚ × ℚ)} : passes direction level segment = true ↔
    (direction ≠ .falling ∧ Rises level segment) ∨ (direction ≠ .rising ∧ Falls level segment) := by
  cases direction <;> simp [passes]

theorem passes_ne {segment : (ℚ × ℚ) × (ℚ × ℚ)} (h : passes direction level segment = true) :
    segment.2.2 - segment.1.2 ≠ 0 := by
  rcases passes_iff.mp h with ⟨-, hlow, hhigh⟩ | ⟨-, hhigh, hlow⟩
  · exact (sub_pos.mpr (hlow.trans_le hhigh)).ne'
  · exact (sub_neg.mpr (hlow.trans_lt hhigh)).ne

theorem crossings_cons_cons (p q : SignedRat × SignedRat) (rest : List (SignedRat × SignedRat)) :
    crossings threshold direction window (p :: q :: rest) =
      (crossings threshold direction window (q :: rest)).map fun found =>
        if insideWindow window (Prod.map value value p, Prod.map value value q) = true ∧
            passes direction threshold.value (Prod.map value value p, Prod.map value value q) = true
        then rat (timeAt threshold.value (Prod.map value value p) (Prod.map value value q)) :: found
        else found := by
  obtain ⟨x0, y0⟩ := p
  obtain ⟨x1, y1⟩ := q
  rw [crossings]
  cases crossings threshold direction window ((x1, y1) :: rest) with
  | error fault => rfl
  | ok found =>
    have hwindow : (window.any fun bounds =>
        PyFloat.lt x0 bounds.1 || PyFloat.lt bounds.2 x1) =
        !insideWindow window (Prod.map value value (x0, y0), Prod.map value value (x1, y1)) := by
      cases window with
      | none => rfl
      | some bounds =>
        show (decide (x0.value < bounds.1.value) || decide (bounds.2.value < x1.value)) =
          !(decide (bounds.1.value ≤ x0.value) && decide (x1.value ≤ bounds.2.value))
        simp only [Bool.not_and, ← decide_not, not_le]
    have hpasses : ((direction ≠ .falling ∧ (PyFloat.lt y0 threshold && PyFloat.le threshold y1 &&
          PyFloat.lt y0 y1) = true) ∨ (direction ≠ .rising ∧ (PyFloat.lt threshold y0 &&
          PyFloat.le y1 threshold && PyFloat.lt y1 y0) = true)) ↔
        passes direction threshold.value
          (Prod.map value value (x0, y0), Prod.map value value (x1, y1)) = true := by
      have hrising : (PyFloat.lt y0 threshold && PyFloat.le threshold y1 && PyFloat.lt y0 y1) =
          decide (y0.value < threshold.value ∧ threshold.value ≤ y1.value) := by
        show (decide (y0.value < threshold.value) && decide (threshold.value ≤ y1.value) &&
          decide (y0.value < y1.value)) = _
        rw [← Bool.decide_and, ← Bool.decide_and, decide_eq_decide]
        exact ⟨And.left, fun h => ⟨h, h.1.trans_le h.2⟩⟩
      have hfalling : (PyFloat.lt threshold y0 && PyFloat.le y1 threshold && PyFloat.lt y1 y0) =
          decide (threshold.value < y0.value ∧ y1.value ≤ threshold.value) := by
        show (decide (threshold.value < y0.value) && decide (y1.value ≤ threshold.value) &&
          decide (y1.value < y0.value)) = _
        rw [← Bool.decide_and, ← Bool.decide_and, decide_eq_decide]
        exact ⟨And.left, fun h => ⟨h, h.2.trans_lt h.1⟩⟩
      rw [hrising, hfalling, decide_eq_true_eq, decide_eq_true_eq, passes_iff]
      rfl
    have hlet : (window.any fun (start, stop) => PyFloat.lt x0 start || PyFloat.lt stop x1) =
        !insideWindow window (Prod.map value value (x0, y0), Prod.map value value (x1, y1)) :=
      hwindow
    simp only [Except.ok_bind, hlet, Bool.not_eq_true', hpasses, Except.map]
    cases hinside : insideWindow window
        (Prod.map value value (x0, y0), Prod.map value value (x1, y1)) with
    | false => simp
    | true =>
      rw [if_neg Bool.noConfusion]
      by_cases hpass : passes direction threshold.value
          (Prod.map value value (x0, y0), Prod.map value value (x1, y1)) = true
      · have hne : y1.value - y0.value ≠ 0 := passes_ne hpass
        have hquotient : quotient ((threshold - y0) * (x1 - x0)) (y1 - y0) =
            .ok (rat ((threshold.value - y0.value) * (x1.value - x0.value) /
              (y1.value - y0.value))) := by
          have hdiv : PyFloat.div ((threshold - y0) * (x1 - x0)) (y1 - y0) =
              some (rat ((threshold.value - y0.value) * (x1.value - x0.value) /
                (y1.value - y0.value))) := if_neg hne
          rw [quotient, hdiv]
        rw [if_pos hpass, if_pos ⟨rfl, hpass⟩, hquotient]
        rfl
      · rw [if_neg hpass, if_neg (fun h => hpass h.2)]

/-- The crossings are the places where the segments in the window pass the level. -/
theorem crossings_exact : crossings threshold direction window points =
    .ok ((((segments (exactPoints points)).filter fun segment =>
        insideWindow window segment && passes direction threshold.value segment).map fun segment =>
      timeAt threshold.value segment.1 segment.2).map rat) := by
  induction points with
  | nil => rfl
  | cons p rest ih =>
    cases rest with
    | nil => rfl
    | cons q rest =>
      have hsegments : segments (exactPoints (p :: q :: rest)) =
          (Prod.map value value p, Prod.map value value q) ::
            segments (exactPoints (q :: rest)) := rfl
      rw [crossings_cons_cons, ih, hsegments, List.filter_cons]
      simp only [Except.map, Bool.and_eq_true]
      split <;> rfl

end Exact

end OpenADA.Series
