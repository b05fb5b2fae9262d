import OpenADA.Library.Excursions
import OpenADA.Oscillator.TuningGain

/-! The hysteretic crossings of an oscillator measurement in exact arithmetic: the detector with its
candidate, and the excursions that it confirms. -/
namespace OpenADA.Oscillator

open PolyLine Excursions

/-- `MAX_RECEIPT_CROSSINGS`. -/
def maxReceiptCrossings : ℕ := 100001

section Detector

/-- The variables of the loop of `_hysteretic_crossings`. -/
structure Detector where
  armed : Bool
  pending : Option ℚ
  found : List ℚ

variable (low high threshold : ℚ)

def candidateTime (p q : ℚ × ℚ) : Except Refusal ℚ :=
  let scale := max (max |p.2| |q.2|) |threshold|
  if scale = 0 then .error .nonFinite
  else
    let fraction := (threshold / scale - p.2 / scale) / (q.2 / scale - p.2 / scale)
    if ¬(0 ≤ fraction ∧ fraction ≤ 1) then .error .nonFinite
    else
      let span := q.1 - p.1
      let pending := if fraction ≤ 1 / 2 then p.1 + fraction * span
        else q.1 - (1 - fraction) * span
      .ok (min q.1 (max p.1 pending))

def rearm (state : Detector) (p q : ℚ × ℚ) : Detector :=
  let touches := decide (p.2 ≤ low) || decide (q.2 ≤ low)
  let state := if state.pending.isSome && touches then { state with pending := none, armed := true }
    else state
  if !state.armed && state.pending.isNone && touches then { state with armed := true } else state

def propose (state : Detector) (p q : ℚ × ℚ) : Except Refusal Detector :=
  if state.armed && state.pending.isNone && decide (p.2 < threshold ∧ threshold ≤ q.2 ∧ p.2 < q.2)
  then (candidateTime threshold p q).map fun time => { state with pending := some time }
  else .ok state

def confirm (state : Detector) (p q : ℚ × ℚ) : Except Refusal Detector :=
  match state.pending with
  | none => .ok state
  | some time =>
    if high ≤ p.2 ∨ high ≤ q.2 then
      let found := state.found ++ [time]
      if maxReceiptCrossings < found.length then .error .overLimit else .ok ⟨false, none, found⟩
    else .ok state

/-- One turn of the loop of `_hysteretic_crossings`. -/
def detect (state : Detector) (segment : (ℚ × ℚ) × (ℚ × ℚ)) : Except Refusal Detector := do
  let state ← propose threshold (rearm low state segment.1 segment.2) segment.1 segment.2
  confirm high state segment.1 segment.2

end Detector

/-- `_hysteretic_crossings` -/
def hystereticCrossings (axis values : List ℚ) (threshold hysteresis : ℚ) :
    Except Refusal (List ℚ) :=
  let low := threshold - hysteresis
  let high := threshold + hysteresis
  match values.head? with
  | none => .error .index
  | some first =>
    ((segments (axis.zip values)).foldlM (detect low high threshold)
      ⟨decide (first ≤ low), none, []⟩).map Detector.found

section Candidate

variable {threshold : ℚ} {p q : ℚ × ℚ}

theorem candidateTime_exact (h : p.1 < q.1) (hrise : Rises threshold (p, q)) :
    candidateTime threshold p q = .ok (timeAt threshold p q) := by
  have hlt : p.2 < q.2 := hrise.lt
  have hwidth : 0 < q.2 - p.2 := sub_pos.mpr hlt
  obtain ⟨hbelow, habove⟩ := hrise
  dsimp only at hbelow habove
  set scale := max (max |p.2| |q.2|) |threshold| with hscale
  have hpositive : 0 < scale := by
    rcases eq_or_ne p.2 0 with hp | hp
    · have hq : q.2 ≠ 0 := by
        intro hq
        rw [hp, hq] at hlt
        exact lt_irrefl _ hlt
      exact (abs_pos.mpr hq).trans_le ((le_max_right _ _).trans (le_max_left _ _))
    · exact (abs_pos.mpr hp).trans_le ((le_max_left _ _).trans (le_max_left _ _))
  have hfraction : (threshold / scale - p.2 / scale) / (q.2 / scale - p.2 / scale) =
      (threshold - p.2) / (q.2 - p.2) := by
    rw [← sub_div, ← sub_div, div_div_div_cancel_right₀ hpositive.ne']
  have hnonneg : 0 ≤ (threshold - p.2) / (q.2 - p.2) := div_nonneg (by linarith) hwidth.le
  have hone : (threshold - p.2) / (q.2 - p.2) ≤ 1 := (div_le_one hwidth).mpr (by linarith)
  have hleft : p.1 + (threshold - p.2) / (q.2 - p.2) * (q.1 - p.1) = timeAt threshold p q := by
    unfold timeAt
    ring
  have hright : q.1 - (1 - (threshold - p.2) / (q.2 - p.2)) * (q.1 - p.1) =
      timeAt threshold p q := by
    rw [← hleft]
    ring
  obtain ⟨hafter, hbefore⟩ := timeAt_bounds h ⟨hbelow, habove⟩
  unfold candidateTime
  dsimp only
  rw [← hscale, if_neg hpositive.ne', hfraction, if_neg (not_not.mpr ⟨hnonneg, hone⟩), hleft,
    hright, ite_self, max_eq_right hafter.le, min_eq_right hbefore]

end Candidate

section Simulation

variable {low high threshold : ℚ}

def isLow (low : ℚ) (p : ℚ × ℚ) : Bool := decide (p.2 ≤ low)

def isHigh (high : ℚ) (p : ℚ × ℚ) : Bool := decide (high ≤ p.2)

def firstRise (threshold : ℚ) (run : List (ℚ × ℚ)) : ℚ := (risingTimes threshold run).headD 0

def detectorOf (threshold : ℚ) (armed : Option (List (ℚ × ℚ))) (found : List ℚ) : Detector :=
  match armed with
  | none => ⟨false, none, found⟩
  | some run => ⟨true, (risingTimes threshold run).head?, found⟩

def EndsAt (low high : ℚ) (p : ℚ × ℚ) : Option (List (ℚ × ℚ)) → Prop
  | none => low < p.2
  | some run => IsArmed (isLow low) (isHigh high) run ∧ ∃ front, run = front ++ [p]

structure Ordered (low high threshold : ℚ) : Prop where
  low_lt : low < threshold
  lt_high : threshold < high

variable {p q : ℚ × ℚ} {run front rest : List (ℚ × ℚ)} {found : List ℚ}
  {armed : Option (List (ℚ × ℚ))}

theorem below_of_armed (hthresholds : Ordered low high threshold)
    (hrun : IsArmed (isLow low) (isHigh high) run) (hnone : risingTimes threshold run = []) :
    ∀ p ∈ run, p.2 < threshold := by
  apply below_of_risingTimes_eq_nil _ hnone
  obtain ⟨trough, middle, rfl, htrough, -⟩ := hrun.starts
  intro p hp
  obtain rfl := Option.some.inj hp
  exact (of_decide_eq_true htrough).trans_lt hthresholds.low_lt

/-- The last sample of a run that has passed the threshold is between the thresholds. -/
theorem last_between (hrun : IsArmed (isLow low) (isHigh high) (front ++ [p]))
    (hrise : risingTimes threshold (front ++ [p]) ≠ []) : low < p.2 ∧ p.2 < high := by
  obtain ⟨trough, middle, hsplit, -, hmiddle⟩ := hrun.starts
  cases front with
  | nil => exact absurd rfl hrise
  | cons first front =>
    have hp : p ∈ middle := by
      rw [← (List.cons.inj hsplit).2]
      exact List.mem_append_right _ (List.mem_singleton_self p)
    obtain ⟨hlow, hhigh⟩ := hmiddle p hp
    exact ⟨not_le.mp (of_decide_eq_false hlow), not_le.mp (of_decide_eq_false hhigh)⟩

theorem detect_low (hthresholds : Ordered low high threshold) (hq : q.2 ≤ low) :
    detect low high threshold (detectorOf threshold armed found) (p, q) =
      .ok (detectorOf threshold (some [q]) found) := by
  have hbelow : ¬(p.2 < threshold ∧ threshold ≤ q.2 ∧ p.2 < q.2) := fun h =>
    absurd (h.2.1.trans hq) (not_le.mpr hthresholds.low_lt)
  have hrearmed : rearm low (detectorOf threshold armed found) p q = ⟨true, none, found⟩ := by
    cases armed with
    | none => simp [rearm, detectorOf, hq]
    | some run =>
      cases hpending : (risingTimes threshold run).head? with
      | none => simp [rearm, detectorOf, hpending]
      | some time => simp [rearm, detectorOf, hpending, hq]
  rw [detect, hrearmed, propose, decide_eq_false hbelow, Bool.and_false, if_neg Bool.false_ne_true]
  rfl

theorem detect_idle (hp : low < p.2) (hq : low < q.2) :
    detect low high threshold (detectorOf threshold none found) (p, q) =
      .ok (detectorOf threshold none found) := by
  have hrearmed : rearm low (detectorOf threshold none found) p q = ⟨false, none, found⟩ := by
    simp [rearm, detectorOf, hp, hq]
  rw [detect, hrearmed, propose, Bool.false_and, Bool.false_and, if_neg Bool.false_ne_true]
  rfl

theorem propose_run (hthresholds : Ordered low high threshold) (hpq : p.1 < q.1)
    (hrun : IsArmed (isLow low) (isHigh high) (front ++ [p])) (hq : low < q.2) :
    propose threshold (rearm low (detectorOf threshold (some (front ++ [p])) found) p q) p q =
      .ok ⟨true, (risingTimes threshold (front ++ [p] ++ [q])).head?, found⟩ := by
  rw [risingTimes_concat]
  cases hpending : risingTimes threshold (front ++ [p]) with
  | nil =>
    have hlow : p.2 < threshold := below_of_armed hthresholds hrun hpending p
      (List.mem_append_right _ (List.mem_singleton_self p))
    have hrearmed : rearm low (detectorOf threshold (some (front ++ [p])) found) p q =
        ⟨true, none, found⟩ := by
      simp [rearm, detectorOf, hpending]
    rw [hrearmed, List.nil_append, propose]
    by_cases hrise : Rises threshold (p, q)
    · rw [if_pos hrise, if_pos (by simpa using ⟨hrise.1, hrise.2, hrise.lt⟩),
        candidateTime_exact hpq hrise]
      rfl
    · have hnot : ¬(p.2 < threshold ∧ threshold ≤ q.2 ∧ p.2 < q.2) := fun h => hrise ⟨h.1, h.2.1⟩
      rw [if_neg hrise, decide_eq_false hnot, Bool.and_false, if_neg Bool.false_ne_true]
      rfl
  | cons time times =>
    obtain ⟨hplow, -⟩ := last_between hrun (by rw [hpending]; exact List.cons_ne_nil _ _)
    have hrearmed : rearm low (detectorOf threshold (some (front ++ [p])) found) p q =
        ⟨true, some time, found⟩ := by
      simp [rearm, detectorOf, hpending, not_le.mpr hplow, not_le.mpr hq]
    rw [hrearmed, propose, Option.isNone_some, Bool.and_false, Bool.false_and,
      if_neg Bool.false_ne_true]
    rfl

theorem detect_between (hthresholds : Ordered low high threshold) (hpq : p.1 < q.1)
    (hrun : IsArmed (isLow low) (isHigh high) (front ++ [p])) (hq : low < q.2)
    (hhigh : q.2 < high) :
    detect low high threshold (detectorOf threshold (some (front ++ [p])) found) (p, q) =
      .ok (detectorOf threshold (some (front ++ [p] ++ [q])) found) := by
  rw [detect, propose_run hthresholds hpq hrun hq, Except.ok_bind, confirm]
  rw [detectorOf]
  cases hpending : (risingTimes threshold (front ++ [p] ++ [q])).head? with
  | none => rfl
  | some time =>
    have hp : p.2 < high := by
      by_cases hrise : risingTimes threshold (front ++ [p]) = []
      · exact (below_of_armed hthresholds hrun hrise p
          (List.mem_append_right _ (List.mem_singleton_self p))).trans hthresholds.lt_high
      · exact (last_between hrun hrise).2
    dsimp only
    rw [if_neg (not_or.mpr ⟨not_le.mpr hp, not_le.mpr hhigh⟩)]

theorem detect_high (hthresholds : Ordered low high threshold) (hpq : p.1 < q.1)
    (hrun : IsArmed (isLow low) (isHigh high) (front ++ [p])) (hhigh : high ≤ q.2) :
    detect low high threshold (detectorOf threshold (some (front ++ [p])) found) (p, q) =
      if maxReceiptCrossings < (found ++ [firstRise threshold (front ++ [p] ++ [q])]).length then
        .error .overLimit
      else .ok (detectorOf threshold none
        (found ++ [firstRise threshold (front ++ [p] ++ [q])])) := by
  have hq : low < q.2 := hthresholds.low_lt.trans (hthresholds.lt_high.trans_le hhigh)
  have hsome : risingTimes threshold (front ++ [p] ++ [q]) ≠ [] := by
    intro hnil
    rw [risingTimes_concat, List.append_eq_nil_iff] at hnil
    have hp : p.2 < threshold := below_of_armed hthresholds hrun hnil.1 p
      (List.mem_append_right _ (List.mem_singleton_self p))
    rw [if_pos ⟨hp, hthresholds.lt_high.le.trans hhigh⟩] at hnil
    exact absurd hnil.2 (List.cons_ne_nil _ _)
  rw [detect, propose_run hthresholds hpq hrun hq, Except.ok_bind, confirm, firstRise]
  obtain ⟨time, times, htimes⟩ := List.exists_cons_of_ne_nil hsome
  rw [htimes]
  dsimp only [List.head?_cons, List.headD_cons]
  rw [if_pos (Or.inr hhigh)]
  rfl

def confirmed (low high threshold : ℚ) (armed : Option (List (ℚ × ℚ))) (rest : List (ℚ × ℚ)) :
    List ℚ := (excursions (isLow low) (isHigh high) armed rest).map (firstRise threshold)

/-- The detector finds the first passage of every excursion, as long as these are not too many. -/
theorem detect_run (hthresholds : Ordered low high threshold) (hincreasing : Increasing (p :: rest))
    (hends : EndsAt low high p armed) (hfound : found.length ≤ maxReceiptCrossings) :
    ((segments (p :: rest)).foldlM (detect low high threshold)
        (detectorOf threshold armed found)).map Detector.found =
      if (found ++ confirmed low high threshold armed rest).length ≤ maxReceiptCrossings
      then .ok (found ++ confirmed low high threshold armed rest) else .error .overLimit := by
  induction rest generalizing p armed found with
  | nil =>
    have hnone : confirmed low high threshold armed [] = [] := by
      cases armed with
      | none => rfl
      | some run => rfl
    rw [hnone, List.append_nil, if_pos hfound]
    cases armed with
    | none => rfl
    | some run => rfl
  | cons q rest ih =>
    have hpq := hincreasing.head_lt
    rw [segments_cons_cons, List.foldlM_cons]
    by_cases hlow : q.2 ≤ low
    · have hmem : isLow low q = true := decide_eq_true hlow
      have hends' : EndsAt low high q (some [q]) := ⟨IsArmed.singleton hmem, [], rfl⟩
      rw [detect_low hthresholds hlow, Except.ok_bind, ih hincreasing.of_cons hends' hfound,
        confirmed, confirmed, excursions_low hmem]
    rw [not_le] at hlow
    have hnot : isLow low q = false := decide_eq_false (not_le.mpr hlow)
    have hidle : EndsAt low high q none := hlow
    cases armed with
    | none =>
      rw [detect_idle hends hlow, Except.ok_bind, ih hincreasing.of_cons hidle hfound, confirmed,
        confirmed, excursions_idle hnot]
    | some run =>
      obtain ⟨hrun, front, rfl⟩ := hends
      by_cases hhigh : high ≤ q.2
      · have hmem : isHigh high q = true := decide_eq_true hhigh
        have hstep : confirmed low high threshold (some (front ++ [p])) (q :: rest) =
            firstRise threshold (front ++ [p] ++ [q]) ::
              confirmed low high threshold none rest := by
          rw [confirmed, excursions_high hnot hmem, List.map_cons]
          rfl
        rw [detect_high hthresholds hpq hrun hhigh, hstep]
        generalize firstRise threshold (front ++ [p] ++ [q]) = time
        have hsplit : found ++ time :: confirmed low high threshold none rest =
            found ++ [time] ++ confirmed low high threshold none rest := by
          rw [List.append_assoc, List.singleton_append]
        rw [hsplit]
        by_cases hmany : maxReceiptCrossings < (found ++ [time]).length
        · rw [if_pos hmany, if_neg]
          · rfl
          · rw [List.length_append]
            omega
        · rw [if_neg hmany, Except.ok_bind, ih hincreasing.of_cons hidle (not_lt.mp hmany)]
      · have hmem : isHigh high q = false := decide_eq_false hhigh
        have hends' : EndsAt low high q (some (front ++ [p] ++ [q])) :=
          ⟨hrun.concat hnot hmem, _, rfl⟩
        rw [not_le] at hhigh
        rw [detect_between hthresholds hpq hrun hlow hhigh, Except.ok_bind,
          ih hincreasing.of_cons hends' hfound, confirmed, confirmed,
          excursions_between hnot hmem]

end Simulation

section Crossings

variable {low high threshold hysteresis : ℚ} {points run : List (ℚ × ℚ)} {axis values : List ℚ}
  {t u : ℚ}

/-- The signal passes the threshold for the first time behind a sample at or under the low
threshold, and then a sample reaches the high threshold before another is at or under the low
one. -/
structure IsCrossing (points : List (ℚ × ℚ)) (low high threshold t : ℚ) : Prop where
  split : ∃ before trough middle peak after,
    points = before ++ trough :: (middle ++ peak :: after) ∧ trough.2 ≤ low ∧
      (∀ m ∈ middle, low < m.2 ∧ m.2 < high) ∧ high ≤ peak.2 ∧ t ≤ peak.1 ∧
        Arrives (signal points) threshold trough.1 t

/-- A sample reaches the high threshold, and a later one the low threshold. -/
structure Swings (points : List (ℚ × ℚ)) (low high t u : ℚ) : Prop where
  samples : ∃ peak ∈ points, ∃ trough ∈ points, t < peak.1 ∧ peak.1 < trough.1 ∧ trough.1 < u ∧
    high ≤ peak.2 ∧ trough.2 ≤ low

theorem Swings.lt (h : Swings points low high t u) : t < u := by
  obtain ⟨peak, -, trough, -, htpeak, hpeak, htrough, -⟩ := h.samples
  exact htpeak.trans (hpeak.trans htrough)

/-- An excursion from its low sample to its high one, and where it passes the threshold. -/
theorem arrives_firstRise (hthresholds : Ordered low high threshold) (h : Increasing points)
    (hpart : run <:+: points) (hrun : IsExcursion (isLow low) (isHigh high) run) :
    ∃ trough middle peak, run = trough :: (middle ++ [peak]) ∧ trough.2 ≤ low ∧
      (∀ m ∈ middle, low < m.2 ∧ m.2 < high) ∧ high ≤ peak.2 ∧ firstRise threshold run ≤ peak.1 ∧
        Arrives (signal points) threshold trough.1 (firstRise threshold run) := by
  obtain ⟨front, peak, rfl, harmed, -, hpeak⟩ := hrun
  obtain ⟨trough, middle, rfl, htrough, hmiddle⟩ := harmed.starts
  have hlow : trough.2 ≤ low := of_decide_eq_true htrough
  have hhigh : high ≤ peak.2 := of_decide_eq_true hpeak
  refine ⟨trough, middle, peak, rfl, hlow, fun m hm => ?_, hhigh, ?_⟩
  · obtain ⟨hmlow, hmhigh⟩ := hmiddle m hm
    exact ⟨not_le.mp (of_decide_eq_false hmlow), not_le.mp (of_decide_eq_false hmhigh)⟩
  · obtain ⟨q, rest, hcons⟩ := List.exists_cons_of_ne_nil
      (List.append_ne_nil_of_right_ne_nil middle (List.cons_ne_nil peak []))
    have hlast : (q :: rest).getLast? = some peak := by
      rw [← hcons, List.getLast?_append]
      rfl
    rw [List.cons_append, hcons] at hpart ⊢
    obtain ⟨x, hx, hle, harrives⟩ := arrives_first h hpart hlast
      (hlow.trans_lt hthresholds.low_lt) (hthresholds.lt_high.le.trans hhigh)
    have hfirst : firstRise threshold (trough :: q :: rest) = x := by
      rw [firstRise, List.headD_eq_head?_getD, hx]
      rfl
    rw [hfirst]
    exact ⟨hle, harrives⟩

theorem mem_confirmed (hthresholds : Ordered low high threshold) (h : Increasing points) :
    t ∈ confirmed low high threshold none points ↔ IsCrossing points low high threshold t := by
  constructor
  · intro ht
    obtain ⟨run, hrun, rfl⟩ := List.mem_map.mp ht
    have hpart : run <:+: points := infix_of_mem_excursions hrun
    have hexcursion := isExcursion_of_mem (fun run hrun => absurd hrun (by simp)) hrun
    obtain ⟨trough, middle, peak, rfl, hlow, hmiddle, hhigh, hle, harrives⟩ :=
      arrives_firstRise hthresholds h hpart hexcursion
    obtain ⟨before, after, hsplit⟩ := hpart
    refine ⟨before, trough, middle, peak, after, ?_, hlow, hmiddle, hhigh, hle, harrives⟩
    rw [← hsplit]
    simp
  · rintro ⟨before, trough, middle, peak, after, hsplit, hlow, hmiddle, hhigh, hle, harrives⟩
    have htrough : isLow low trough = true := decide_eq_true hlow
    have hpeakLow : isLow low peak = false := decide_eq_false (not_le.mpr
      (hthresholds.low_lt.trans (hthresholds.lt_high.trans_le hhigh)))
    have hpeakHigh : isHigh high peak = true := decide_eq_true hhigh
    have hbetween : ∀ m ∈ middle, isLow low m = false ∧ isHigh high m = false := by
      intro m hm
      obtain ⟨hmlow, hmhigh⟩ := hmiddle m hm
      exact ⟨decide_eq_false (not_le.mpr hmlow), decide_eq_false (not_le.mpr hmhigh)⟩
    have hmem : trough :: (middle ++ [peak]) ∈
        excursions (isLow low) (isHigh high) none points := by
      rw [hsplit]
      exact mem_excursions_of_split htrough hbetween hpeakLow hpeakHigh none
    have hexcursion := isExcursion_of_mem (fun run hrun => absurd hrun (by simp)) hmem
    obtain ⟨first, others, last, hrun, -, -, -, -, hfirst⟩ :=
      arrives_firstRise hthresholds h (infix_of_mem_excursions hmem) hexcursion
    obtain ⟨rfl, -⟩ := List.cons.inj hrun
    rw [harrives.unique hfirst]
    exact List.mem_map.mpr ⟨_, hmem, rfl⟩

/-- Between two crossings the signal reaches the high threshold and then the low one. -/
theorem pairwise_swings (hthresholds : Ordered low high threshold) (h : Increasing points) :
    (confirmed low high threshold none points).Pairwise (Swings points low high) := by
  have hruns : (excursions (isLow low) (isHigh high) none points).flatten.Sublist points :=
    flatten_excursions_sublist none points
  have hseparate := (List.pairwise_flatten.mp (h.sublist hruns)).2
  rw [confirmed, List.pairwise_map]
  refine List.Pairwise.imp_of_mem (fun {first second} hfirst hsecond hbefore => ?_) hseparate
  have hexcursion {run : List (ℚ × ℚ)}
      (hrun : run ∈ excursions (isLow low) (isHigh high) none points) :=
    arrives_firstRise hthresholds h (infix_of_mem_excursions hrun)
      (isExcursion_of_mem (fun run hrun => absurd hrun (by simp)) hrun)
  have hmem {run : List (ℚ × ℚ)} {p : ℚ × ℚ} (hp : p ∈ run)
      (hrun : run ∈ excursions (isLow low) (isHigh high) none points) : p ∈ points :=
    hruns.subset (List.mem_flatten.mpr ⟨run, hrun, hp⟩)
  obtain ⟨start, middle, peak, rfl, -, -, hhigh, hle, harrives⟩ := hexcursion hfirst
  obtain ⟨trough, others, last, rfl, hlow, -, -, -, hlater⟩ := hexcursion hsecond
  have hpeak : peak ∈ start :: (middle ++ [peak]) :=
    List.mem_cons_of_mem _ (List.mem_append_right _ (List.mem_singleton_self peak))
  refine ⟨⟨peak, hmem hpeak hfirst, trough, hmem List.mem_cons_self hsecond, ?_,
    hbefore peak hpeak trough List.mem_cons_self, hlater.after, hhigh, hlow⟩⟩
  refine lt_of_le_of_ne hle fun heq => ?_
  have hsample := signal_of_mem h (hmem hpeak hfirst)
  rw [← heq, harrives.reaches] at hsample
  exact absurd hsample (hthresholds.lt_high.trans_le hhigh).ne

theorem hystereticCrossings_eq (hincreasing : Increasing (axis.zip values))
    (hlength : axis.length = values.length) (hvalues : values ≠ []) (hpos : 0 < hysteresis) :
    hystereticCrossings axis values threshold hysteresis =
      if (confirmed (threshold - hysteresis) (threshold + hysteresis) threshold none
          (axis.zip values)).length ≤ maxReceiptCrossings
      then .ok (confirmed (threshold - hysteresis) (threshold + hysteresis) threshold none
        (axis.zip values))
      else .error .overLimit := by
  have hthresholds : Ordered (threshold - hysteresis) (threshold + hysteresis) threshold :=
    ⟨sub_lt_self _ hpos, lt_add_of_pos_right _ hpos⟩
  obtain ⟨y, ys, rfl⟩ := List.exists_cons_of_ne_nil hvalues
  obtain ⟨x, xs, rfl⟩ := List.exists_cons_of_length_eq_add_one hlength
  rw [List.zip_cons_cons] at hincreasing ⊢
  unfold hystereticCrossings
  dsimp only [List.head?_cons]
  by_cases hlow : y ≤ threshold - hysteresis
  · have hmem : isLow (threshold - hysteresis) (x, y) = true := decide_eq_true hlow
    have hrun := @detect_run _ _ _ (x, y) (xs.zip ys) [] (some [(x, y)]) hthresholds hincreasing
      ⟨IsArmed.singleton hmem, [], rfl⟩ (Nat.zero_le _)
    rw [decide_eq_true hlow]
    rw [List.nil_append] at hrun
    rw [confirmed, excursions_low hmem]
    exact hrun
  · have hmem : isLow (threshold - hysteresis) (x, y) = false := decide_eq_false hlow
    have hrun := @detect_run _ _ _ (x, y) (xs.zip ys) [] none hthresholds hincreasing
      (not_le.mp hlow) (Nat.zero_le _)
    rw [decide_eq_false hlow]
    rw [List.nil_append] at hrun
    rw [confirmed, excursions_idle hmem]
    exact hrun

end Crossings

end OpenADA.Oscillator
