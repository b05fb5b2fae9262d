import OpenADA.Runner.Kernels
import OpenADA.Series.Crossings

/-! The crossing of a plan run and the crossings of a measurement of the same samples, in exact
arithmetic. -/
namespace OpenADA.Runner

open OpenADA.Plan PolyLine SignedRat
open Series (exactPoints passes passes_iff passageTimes crossings_exact)

def measuredDirection : CrossingDirection → Series.Direction
  | .rising => .rising
  | .falling => .falling
  | .either => .either

section Exact

variable {threshold : SignedRat} {direction : CrossingDirection}
  {p q : SignedRat × SignedRat} {before rest : List (SignedRat × SignedRat)}

theorem crosses_eq_passes : crosses direction threshold p.2 q.2 =
    passes (measuredDirection direction) threshold.value
      (Prod.map value value p, Prod.map value value q) := by
  have hrising : isRising threshold p.2 q.2 = decide (Rises threshold.value
      (Prod.map value value p, Prod.map value value q)) := (Bool.decide_and _ _).symm
  have hfalling : isFalling threshold p.2 q.2 = decide (Falls threshold.value
      (Prod.map value value p, Prod.map value value q)) := (Bool.decide_and _ _).symm
  cases direction <;> simp only [crosses, hrising, hfalling, measuredDirection, passes]

/-- Between samples that pass the threshold the position is that of the line through them. -/
theorem crossingPosition_exact {axis : List SignedRat} {index : ℕ}
    (hp : axis[index]? = some p.1) (hq : axis[index + 1]? = some q.1) (hne : q.2.value - p.2.value ≠ 0) :
    crossingPosition axis index threshold p.2 q.2 =
      .ok (rat (timeAt threshold.value (Prod.map value value p) (Prod.map value value q))) := by
  have heq : PyFloat.eq q.2 p.2 = false := decide_eq_false (sub_ne_zero.mp hne)
  have hdivide : divide (threshold - p.2) (q.2 - p.2) =
      .ok (rat ((threshold.value - p.2.value) / (q.2.value - p.2.value))) := by
    have hdiv : PyFloat.div (threshold - p.2) (q.2 - p.2) =
        some (rat ((threshold.value - p.2.value) / (q.2.value - p.2.value))) := if_neg hne
    rw [divide, hdiv]
  have htime : timeAt threshold.value (Prod.map value value p) (Prod.map value value q) =
      p.1.value + (threshold.value - p.2.value) / (q.2.value - p.2.value) *
        (q.1.value - p.1.value) := by
    rw [div_mul_eq_mul_div]
    rfl
  rw [crossingPosition, if_neg (by rw [heq]; exact Bool.noConfusion), hdivide, at?, at?, hp, hq,
    htime]
  rfl

/-- The loop of the runner counts down the passages of the samples still to come. -/
theorem crossingFrom_exact (occurrence : ℕ) :
    crossingFrom ((before ++ rest).map Prod.fst) threshold direction before.length (occurrence + 1)
        (rest.map Prod.snd) =
      ((((passageTimes (measuredDirection direction) threshold.value (exactPoints rest)).map rat)[
        occurrence]?).elim (.error "declared crossing occurrence was not observed") .ok) := by
  induction rest generalizing before occurrence with
  | nil => rfl
  | cons p rest ih =>
    cases rest with
    | nil => rfl
    | cons q rest =>
      have hstep (k : ℕ) := @ih (before ++ [p]) k
      simp only [List.append_assoc, List.cons_append, List.nil_append, List.length_append,
        List.length_cons, List.length_nil, zero_add] at hstep
      have htimes : passageTimes (measuredDirection direction) threshold.value
          (exactPoints (p :: q :: rest)) =
          if passes (measuredDirection direction) threshold.value
            (Prod.map value value p, Prod.map value value q) = true
          then timeAt threshold.value (Prod.map value value p) (Prod.map value value q) ::
            passageTimes (measuredDirection direction) threshold.value (exactPoints (q :: rest))
          else passageTimes (measuredDirection direction) threshold.value
            (exactPoints (q :: rest)) := by
        have hsegments : segments (exactPoints (p :: q :: rest)) =
            (Prod.map value value p, Prod.map value value q) ::
              segments (exactPoints (q :: rest)) := rfl
        unfold passageTimes
        rw [hsegments, List.filter_cons]
        split <;> rfl
      rw [List.map_cons, List.map_cons, crossingFrom, crosses_eq_passes, htimes]
      by_cases hpass : passes (measuredDirection direction) threshold.value
          (Prod.map value value p, Prod.map value value q) = true
      · rw [if_pos hpass, if_pos hpass]
        cases occurrence with
        | zero =>
          have hp : ((before ++ p :: q :: rest).map Prod.fst)[before.length]? = some p.1 := by
            simp
          have hq : ((before ++ p :: q :: rest).map Prod.fst)[before.length + 1]? = some q.1 := by
            simp
          rw [if_pos rfl, crossingPosition_exact hp hq (Series.passes_ne hpass)]
          rfl
        | succ k =>
          rw [if_neg (by omega)]
          exact hstep k
      · rw [if_neg hpass, if_neg hpass]
        exact hstep occurrence

end Exact

/-- The crossing of a run of an occurrence counted from one is that element of the crossings of the
measurement, and is missing just where there are fewer. -/
theorem crossing_eq_crossings (points : List (SignedRat × SignedRat)) (threshold : SignedRat)
    (direction : CrossingDirection) (occurrence : ℕ) :
    ∃ found, Series.crossings threshold (measuredDirection direction) none points = .ok found ∧
      (crossing (points.map Prod.fst) (points.map Prod.snd) threshold direction (occurrence + 1) =
        found[occurrence]?.elim (.error "declared crossing occurrence was not observed") .ok) ∧
      ((crossing (points.map Prod.fst) (points.map Prod.snd) threshold direction
        (occurrence + 1)).toOption = none ↔ found.length < occurrence + 1) := by
  have hfound : Series.crossings threshold (measuredDirection direction) none points =
      .ok ((passageTimes (measuredDirection direction) threshold.value (exactPoints points)).map
        rat) := by
    rw [crossings_exact]
    rfl
  have hcrossing : crossing (points.map Prod.fst) (points.map Prod.snd) threshold direction
      (occurrence + 1) = _ := @crossingFrom_exact threshold direction [] points occurrence
  refine ⟨_, hfound, hcrossing, ?_⟩
  rw [Nat.lt_succ_iff, ← List.getElem?_eq_none_iff]
  rw [hcrossing]
  cases ((passageTimes (measuredDirection direction) threshold.value (exactPoints points)).map
    rat)[occurrence]? with
  | none => simp [Except.toOption]
  | some time => simp [Except.toOption]

end OpenADA.Runner
