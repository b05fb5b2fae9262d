import OpenADA.Library.RangeTree
import OpenADA.Oscillator.Cycles

/-! The search for the onset of an oscillation: a tree of statistics over the cycles and a bisection
for the end of the hold find what trying every cycle in turn would find. -/
namespace OpenADA.Oscillator

open PolyLine

section Model

/-- `_CycleStats` -/
structure CycleStats where
  minPeriod : ℚ
  maxPeriod : ℚ
  minAmplitude : ℚ
  maxAmplitude : ℚ
  amplitudeScale : ℚ
  scaledSum : ℚ
  minSamples : ℕ
  count : ℕ

/-- `_merge_cycle_stats` -/
def mergeCycleStats : Option CycleStats → Option CycleStats → Option CycleStats
  | none, right => right
  | some left, none => some left
  | some left, some right =>
    let amplitudeScale := max left.amplitudeScale right.amplitudeScale
    some {
      minPeriod := min left.minPeriod right.minPeriod
      maxPeriod := max left.maxPeriod right.maxPeriod
      minAmplitude := min left.minAmplitude right.minAmplitude
      maxAmplitude := max left.maxAmplitude right.maxAmplitude
      amplitudeScale := amplitudeScale
      scaledSum :=
        if 0 < amplitudeScale then
          left.scaledSum * (left.amplitudeScale / amplitudeScale) +
            right.scaledSum * (right.amplitudeScale / amplitudeScale)
        else 0
      minSamples := min left.minSamples right.minSamples
      count := left.count + right.count }

def leafStats (period amplitude : ℚ) (samples : ℕ) : CycleStats where
  minPeriod := period
  maxPeriod := period
  minAmplitude := amplitude
  maxAmplitude := amplitude
  amplitudeScale := amplitude
  scaledSum := if 0 < amplitude then 1 else 0
  minSamples := samples
  count := 1

/-- The loop that doubles the size of the tree until it has a leaf for every cycle. -/
def doubled (count size : ℕ) (hpos : 0 < size) : ℕ :=
  if size < count then doubled count (size * 2) (Nat.mul_pos hpos Nat.two_pos) else size
termination_by count - size
decreasing_by omega

/-- `_cycle_stats_tree` -/
def cycleStatsTree (periods amplitudes : List ℚ) (sampleCounts : List ℕ) :
    ℕ × List (Option CycleStats) :=
  let size := doubled periods.length 1 one_pos
  let leaves := (periods.zip (amplitudes.zip sampleCounts)).map fun cycle =>
    some (leafStats cycle.1 cycle.2.1 cycle.2.2)
  (size, RangeTree.build mergeCycleStats none size leaves)

/-- `_cycle_stats_range` -/
def cycleStatsRange (tree : List (Option CycleStats)) (size start stop : ℕ) :
    Except Refusal CycleStats :=
  match RangeTree.joined mergeCycleStats none tree (start + size) (stop + size) none none with
  | some combined => .ok combined
  | none => .error .nonFinite

structure StartupCriteria where
  holdFor : ℚ
  minimumAmplitude : ℚ
  maximumPeriodDeviation : ℚ
  maximumAmplitudeDeviation : ℚ
  minimumSamples : ℕ

/-- The checks of the loop of `_startup_candidate` on the statistics of a hold. -/
def qualifies (criteria : StartupCriteria) (stats : CycleStats) (duration : ℚ) : Bool :=
  if stats.minAmplitude < criteria.minimumAmplitude ∨
      stats.minSamples < criteria.minimumSamples then false
  else
    let periodMean := duration / stats.count
    let amplitudeMeanScaled := stats.scaledSum / stats.count
    if periodMean ≤ 0 ∨ amplitudeMeanScaled ≤ 0 then false
    else
      let periodDeviation :=
        max |stats.minPeriod / periodMean - 1| |stats.maxPeriod / periodMean - 1|
      let amplitudeDeviation :=
        max |stats.minAmplitude / stats.amplitudeScale - amplitudeMeanScaled|
          |stats.maxAmplitude / stats.amplitudeScale - amplitudeMeanScaled| / amplitudeMeanScaled
      decide (periodDeviation ≤ criteria.maximumPeriodDeviation) &&
        decide (amplitudeDeviation ≤ criteria.maximumAmplitudeDeviation)

/-- The loop of `_startup_candidate` over the cycles that may start the hold. -/
def searchStartup (criteria : StartupCriteria) (crossings : List ℚ) (size : ℕ)
    (tree : List (Option CycleStats)) : List ℕ → Except Refusal (Option ℚ)
  | [] => .ok none
  | startIndex :: later =>
    match crossings[startIndex]? with
    | none => .error .index
    | some first =>
      let requiredStop := first + criteria.holdFor
      let stopIndex := max (startIndex + 3) (Bisect.left crossings requiredStop)
      match crossings[stopIndex]? with
      | none => .ok none
      | some last => do
        let stats ← cycleStatsRange tree size startIndex stopIndex
        if qualifies criteria stats (last - first) then .ok (some first)
        else searchStartup criteria crossings size tree later

/-- `_startup_candidate` -/
def startupCandidate (axis differential crossings : List ℚ) (criteria : StartupCriteria) :
    Except Refusal (Option ℚ × Bool) :=
  if crossings.length < 2 then .ok (none, false)
  else do
    let (periods, amplitudes, sampleCounts) ← cycleAssessment axis differential crossings
    let activity := amplitudes.any fun amplitude => criteria.minimumAmplitude ≤ amplitude
    if !activity then .ok (none, false)
    else
      let (treeSize, statsTree) := cycleStatsTree periods amplitudes sampleCounts
      (searchStartup criteria crossings treeSize statsTree (List.range (periods.length - 2))).map
        fun started => (started, activity)

end Model

section Naive

structure Cycle where
  period : ℚ
  amplitude : ℚ
  samples : ℕ
  amplitude_nonneg : 0 ≤ amplitude

instance : Inhabited Cycle := ⟨⟨0, 0, 0, le_rfl⟩⟩

def meanOf (f : Cycle → ℚ) (cycles : List Cycle) : ℚ := (cycles.map f).sum / cycles.length

/-- All cycles of a hold are strong and well sampled, and close to their means. -/
structure Qualifies (criteria : StartupCriteria) (hold : List Cycle) : Prop where
  strong : ∀ c ∈ hold, criteria.minimumAmplitude ≤ c.amplitude
  sampled : ∀ c ∈ hold, criteria.minimumSamples ≤ c.samples
  active : 0 < meanOf Cycle.amplitude hold
  periodDeviation : ∀ c ∈ hold, |c.period / meanOf Cycle.period hold - 1| ≤
    criteria.maximumPeriodDeviation
  amplitudeDeviation : ∀ c ∈ hold,
    |c.amplitude - meanOf Cycle.amplitude hold| / meanOf Cycle.amplitude hold ≤
      criteria.maximumAmplitudeDeviation

/-- The cycles from `i` to the first crossing at least three cycles on and behind the hold time
qualify. -/
structure IsOnset (criteria : StartupCriteria) (crossings : List ℚ) (cycles : List Cycle) (i : ℕ) :
    Prop where
  holds : ∃ j first last, crossings[i]? = some first ∧ crossings[j]? = some last ∧ i + 3 ≤ j ∧
    first + criteria.holdFor ≤ last ∧
    (∀ k, i + 3 ≤ k → k < j → ∀ earlier ∈ crossings[k]?, earlier < first + criteria.holdFor) ∧
    Qualifies criteria ((cycles.drop i).take (j - i))

def IsFirstOnset (criteria : StartupCriteria) (crossings : List ℚ) (cycles : List Cycle)
    (start : ℕ) : Option ℚ → Prop
  | none => ∀ i, start ≤ i → ¬IsOnset criteria crossings cycles i
  | some t => ∃ i, start ≤ i ∧ IsOnset criteria crossings cycles i ∧
    (∀ k, start ≤ k → k < i → ¬IsOnset criteria crossings cycles k) ∧ crossings[i]? = some t

end Naive

section Statistics

variable {stats : CycleStats} {cycles first second hold : List Cycle} {criteria : StartupCriteria}

def valuesOf {K : Type} (f : Cycle → K) (cycles : List Cycle) : Set K := {x | ∃ c ∈ cycles, f c = x}

theorem valuesOf_append {K : Type} (f : Cycle → K) (first second : List Cycle) :
    valuesOf f (first ++ second) = valuesOf f first ∪ valuesOf f second := by
  ext x
  simp [valuesOf, or_and_right, exists_or]

structure Summarizes (stats : CycleStats) (cycles : List Cycle) : Prop where
  minPeriod : IsLeast (valuesOf Cycle.period cycles) stats.minPeriod
  maxPeriod : IsGreatest (valuesOf Cycle.period cycles) stats.maxPeriod
  minAmplitude : IsLeast (valuesOf Cycle.amplitude cycles) stats.minAmplitude
  maxAmplitude : IsGreatest (valuesOf Cycle.amplitude cycles) stats.maxAmplitude
  scale : stats.amplitudeScale = stats.maxAmplitude
  total : stats.scaledSum * stats.amplitudeScale = (cycles.map Cycle.amplitude).sum
  silent : stats.amplitudeScale = 0 → stats.scaledSum = 0
  minSamples : IsLeast (valuesOf Cycle.samples cycles) stats.minSamples
  count : stats.count = cycles.length

theorem Summarizes.scale_nonneg (h : Summarizes stats cycles) : 0 ≤ stats.amplitudeScale := by
  rw [h.scale]
  obtain ⟨c, -, hc⟩ := h.maxAmplitude.1
  exact hc ▸ c.amplitude_nonneg

theorem leafStats_summarizes (c : Cycle) :
    Summarizes (leafStats c.period c.amplitude c.samples) [c] := by
  have hvalues {K : Type} (f : Cycle → K) : valuesOf f [c] = {f c} := by
    ext x
    simp [valuesOf, eq_comm]
  have htotal : (if 0 < c.amplitude then 1 else 0) * c.amplitude = c.amplitude := by
    by_cases hpos : 0 < c.amplitude
    · rw [if_pos hpos, one_mul]
    · rw [if_neg hpos, zero_mul]
      exact le_antisymm c.amplitude_nonneg (not_lt.mp hpos)
  constructor
  · rw [hvalues]
    exact isLeast_singleton
  · rw [hvalues]
    exact isGreatest_singleton
  · rw [hvalues]
    exact isLeast_singleton
  · rw [hvalues]
    exact isGreatest_singleton
  · rfl
  · rw [List.map_singleton, List.sum_singleton]
    exact htotal
  · intro hzero
    exact if_neg hzero.not_gt
  · rw [hvalues]
    exact isLeast_singleton
  · rfl

theorem Summarizes.merge {left right : CycleStats} (hleft : Summarizes left first)
    (hright : Summarizes right second) : ∃ merged,
      mergeCycleStats (some left) (some right) = some merged ∧
        Summarizes merged (first ++ second) := by
  have hln := hleft.scale_nonneg
  have hrn := hright.scale_nonneg
  refine ⟨_, rfl, ?_, ?_, ?_, ?_, ?_, ?_, ?_, ?_, ?_⟩
  · rw [valuesOf_append]
    exact hleft.minPeriod.union hright.minPeriod
  · rw [valuesOf_append]
    exact hleft.maxPeriod.union hright.maxPeriod
  · rw [valuesOf_append]
    exact hleft.minAmplitude.union hright.minAmplitude
  · rw [valuesOf_append]
    exact hleft.maxAmplitude.union hright.maxAmplitude
  · show max left.amplitudeScale right.amplitudeScale = max left.maxAmplitude right.maxAmplitude
    rw [hleft.scale, hright.scale]
  · rw [List.map_append, List.sum_append, ← hleft.total, ← hright.total]
    dsimp only
    by_cases hpos : 0 < max left.amplitudeScale right.amplitudeScale
    · rw [if_pos hpos]
      have hne := hpos.ne'
      field_simp
    · have hzero : left.amplitudeScale = 0 ∧ right.amplitudeScale = 0 := by
        rw [not_lt, max_le_iff] at hpos
        exact ⟨le_antisymm hpos.1 hln, le_antisymm hpos.2 hrn⟩
      rw [if_neg hpos, hzero.1, hzero.2]
      ring
  · intro hzero
    exact if_neg hzero.not_gt
  · rw [valuesOf_append]
    exact hleft.minSamples.union hright.minSamples
  · rw [List.length_append, ← hleft.count, ← hright.count]

def Stands : Option CycleStats → List Cycle → Prop
  | none, cycles => cycles = []
  | some stats, cycles => Summarizes stats cycles

theorem represents_stands : RangeTree.Represents mergeCycleStats none Stands := by
  refine ⟨rfl, fun {a b xs ys} ha hb => ?_⟩
  cases a with
  | none =>
    obtain rfl : xs = [] := ha
    exact hb
  | some left =>
    cases b with
    | none =>
      obtain rfl : ys = [] := hb
      rw [List.append_nil]
      exact ha
    | some right =>
      obtain ⟨merged, hmerged, hall⟩ := Summarizes.merge ha hb
      rw [hmerged]
      exact hall

theorem le_doubled (count size : ℕ) (hpos : 0 < size) : count ≤ doubled count size hpos := by
  fun_induction doubled count size hpos with
  | case1 size hpos hlt ih => exact ih
  | case2 size hpos hle => exact not_lt.mp hle

theorem exists_doubled_eq (count size : ℕ) (hpos : 0 < size) (h : ∃ depth, size = 2 ^ depth) :
    ∃ depth, doubled count size hpos = 2 ^ depth := by
  fun_induction doubled count size hpos with
  | case1 size hpos hlt ih =>
    obtain ⟨depth, rfl⟩ := h
    exact ih ⟨depth + 1, rfl⟩
  | case2 size hpos hle => exact h

theorem cycleStatsRange_ok {start stop : ℕ} (hlt : start < stop) (hstop : stop ≤ cycles.length) :
    ∃ stats, cycleStatsRange
      (cycleStatsTree (cycles.map Cycle.period) (cycles.map Cycle.amplitude)
        (cycles.map Cycle.samples)).2
      (cycleStatsTree (cycles.map Cycle.period) (cycles.map Cycle.amplitude)
        (cycles.map Cycle.samples)).1 start stop = .ok stats ∧
      Summarizes stats ((cycles.drop start).take (stop - start)) := by
  obtain ⟨depth, hdepth⟩ :=
    exists_doubled_eq (cycles.map Cycle.period).length 1 one_pos ⟨0, rfl⟩
  have hsize : (cycles.map Cycle.period).length ≤ 2 ^ depth := by
    rw [← hdepth]
    exact le_doubled _ _ _
  rw [List.length_map] at hsize
  have hleaves : ((cycles.map Cycle.period).zip ((cycles.map Cycle.amplitude).zip
      (cycles.map Cycle.samples))).map (fun cycle =>
        some (leafStats cycle.1 cycle.2.1 cycle.2.2)) =
      cycles.map fun c => some (leafStats c.period c.amplitude c.samples) := by
    rw [List.zip_map', List.zip_map', List.map_map]
    rfl
  have hstands : List.Forall₂ (fun leaf item => Stands leaf [item])
      (cycles.map fun c => some (leafStats c.period c.amplitude c.samples)) cycles := by
    rw [List.forall₂_map_left_iff, List.forall₂_same]
    exact fun c _ => leafStats_summarizes c
  have hrange := RangeTree.stands_range represents_stands hstands hlt.le (hstop.trans hsize)
  unfold cycleStatsRange cycleStatsTree
  dsimp only
  rw [hdepth, hleaves, Nat.add_comm start, Nat.add_comm stop]
  cases hjoined : RangeTree.joined mergeCycleStats none
      (RangeTree.build mergeCycleStats none (2 ^ depth)
        (cycles.map fun c => some (leafStats c.period c.amplitude c.samples)))
      (2 ^ depth + start) (2 ^ depth + stop) none none with
  | none =>
    rw [hjoined] at hrange
    have hnil : (cycles.drop start).take (stop - start) = [] := hrange
    have hlength := congrArg List.length hnil
    rw [List.length_take, List.length_drop, List.length_nil] at hlength
    omega
  | some combined =>
    rw [hjoined] at hrange
    exact ⟨combined, rfl, hrange⟩

/-- All values are as close to a centre as the least and the greatest of them. -/
theorem deviation_le_iff {f : Cycle → ℚ} {low high m centre bound : ℚ} (hm : 0 < m)
    (hlow : IsLeast (valuesOf f cycles) low) (hhigh : IsGreatest (valuesOf f cycles) high) :
    max |low / m - centre| |high / m - centre| ≤ bound ↔
      ∀ c ∈ cycles, |f c / m - centre| ≤ bound := by
  constructor
  · intro h c hc
    have hleast : low / m - centre ≤ f c / m - centre :=
      sub_le_sub_right (div_le_div_of_nonneg_right (hlow.2 ⟨c, hc, rfl⟩) hm.le) _
    have hgreatest : f c / m - centre ≤ high / m - centre :=
      sub_le_sub_right (div_le_div_of_nonneg_right (hhigh.2 ⟨c, hc, rfl⟩) hm.le) _
    exact (abs_le_max_abs_abs hleast hgreatest).trans h
  · intro h
    obtain ⟨c, hc, rfl⟩ := hlow.1
    obtain ⟨d, hd, rfl⟩ := hhigh.1
    exact max_le (h c hc) (h d hd)

theorem least_le_iff {K : Type} [LinearOrder K] {f : Cycle → K} {low bound : K}
    (hlow : IsLeast (valuesOf f cycles) low) : bound ≤ low ↔ ∀ c ∈ cycles, bound ≤ f c := by
  constructor
  · exact fun h c hc => h.trans (hlow.2 ⟨c, hc, rfl⟩)
  · intro h
    obtain ⟨c, hc, rfl⟩ := hlow.1
    exact h c hc

theorem qualifies_iff {duration : ℚ} (h : Summarizes stats hold)
    (hduration : duration = (hold.map Cycle.period).sum) (hpos : 0 < duration)
    (hne : 0 < hold.length) : qualifies criteria stats duration = true ↔
      Qualifies criteria hold := by
  have hcount : (0 : ℚ) < stats.count := by
    rw [h.count]
    exact Nat.cast_pos.mpr hne
  have hperiod : duration / stats.count = meanOf Cycle.period hold := by
    rw [meanOf, hduration, h.count]
  have hperiodPos : 0 < meanOf Cycle.period hold := hperiod ▸ div_pos hpos hcount
  have hamplitude : meanOf Cycle.amplitude hold =
      stats.scaledSum / stats.count * stats.amplitudeScale := by
    rw [meanOf, ← h.total, h.count, div_mul_eq_mul_div]
  have hactive : 0 < stats.scaledSum / stats.count ↔ 0 < meanOf Cycle.amplitude hold := by
    rw [hamplitude]
    rcases eq_or_lt_of_le h.scale_nonneg with hzero | hscale
    · rw [h.silent hzero.symm, zero_div, zero_mul]
    · exact (mul_pos_iff_of_pos_right hscale).symm
  unfold qualifies
  dsimp only
  rw [hperiod]
  by_cases hfloor : stats.minAmplitude < criteria.minimumAmplitude ∨
      stats.minSamples < criteria.minimumSamples
  · rw [if_pos hfloor]
    refine iff_of_false Bool.false_ne_true fun hq => ?_
    rcases hfloor with hweak | hfew
    · exact absurd ((least_le_iff h.minAmplitude).mpr hq.strong) (not_le.mpr hweak)
    · exact absurd ((least_le_iff h.minSamples).mpr hq.sampled) (not_le.mpr hfew)
  rw [if_neg hfloor]
  rw [not_or, not_lt, not_lt] at hfloor
  by_cases hmean : meanOf Cycle.period hold ≤ 0 ∨ stats.scaledSum / stats.count ≤ 0
  · rw [if_pos hmean]
    refine iff_of_false Bool.false_ne_true fun hq => ?_
    rcases hmean with hmean | hmean
    · exact absurd hperiodPos (not_lt.mpr hmean)
    · exact absurd (hactive.mpr hq.active) (not_lt.mpr hmean)
  rw [if_neg hmean]
  rw [not_or, not_le, not_le] at hmean
  have hmeanPos := hactive.mp hmean.2
  have hscale : 0 < stats.amplitudeScale := by
    rw [hamplitude] at hmeanPos
    exact pos_of_mul_pos_right hmeanPos hmean.2.le
  have hdeviation (c : Cycle) :
      |c.amplitude / stats.amplitudeScale - stats.scaledSum / stats.count| ≤
        criteria.maximumAmplitudeDeviation * (stats.scaledSum / stats.count) ↔
      |c.amplitude - meanOf Cycle.amplitude hold| / meanOf Cycle.amplitude hold ≤
        criteria.maximumAmplitudeDeviation := by
    have hscaled : c.amplitude / stats.amplitudeScale - stats.scaledSum / stats.count =
        (c.amplitude - meanOf Cycle.amplitude hold) / stats.amplitudeScale := by
      rw [hamplitude, sub_div, mul_div_cancel_right₀ _ hscale.ne']
    rw [hscaled, abs_div, abs_of_pos hscale, div_le_iff₀ hscale, div_le_iff₀ hmeanPos, hamplitude,
      mul_assoc]
  rw [Bool.and_eq_true, decide_eq_true_eq, decide_eq_true_eq,
    deviation_le_iff hperiodPos h.minPeriod h.maxPeriod, div_le_iff₀ hmean.2,
    deviation_le_iff hscale h.minAmplitude h.maxAmplitude]
  constructor
  · rintro ⟨hperiods, hamplitudes⟩
    exact ⟨(least_le_iff h.minAmplitude).mp hfloor.1, (least_le_iff h.minSamples).mp hfloor.2,
      hmeanPos, hperiods, fun c hc => (hdeviation c).mp (hamplitudes c hc)⟩
  · rintro ⟨-, -, -, hperiods, hamplitudes⟩
    exact ⟨hperiods, fun c hc => (hdeviation c).mpr (hamplitudes c hc)⟩

end Statistics

section Search

variable {crossings axis differential : List ℚ} {cycles : List Cycle} {criteria : StartupCriteria}
  {i j start stop : ℕ} {t u first : ℚ}

structure AreCycles (crossings : List ℚ) (cycles : List Cycle) : Prop where
  length_eq : cycles.length = crossings.length - 1
  period_eq : ∀ k c t u, cycles[k]? = some c → crossings[k]? = some t →
    crossings[k + 1]? = some u → c.period = u - t

theorem AreCycles.sum_periods (h : AreCycles crossings cycles) (hij : i ≤ j)
    (hi : crossings[i]? = some t) (hj : crossings[j]? = some u) :
    (((cycles.drop i).take (j - i)).map Cycle.period).sum = u - t := by
  induction j, hij using Nat.le_induction generalizing u with
  | base =>
    obtain rfl := Option.some.inj (hi.symm.trans hj)
    rw [Nat.sub_self, List.take_zero, List.map_nil, List.sum_nil, sub_self]
  | succ j hij ih =>
    obtain ⟨hlt, -⟩ := List.getElem?_eq_some_iff.mp hj
    have hmid : crossings[j]? = some crossings[j] := List.getElem?_eq_getElem (by omega)
    have hcycle : j < cycles.length := by
      rw [h.length_eq]
      omega
    have hlength : j + 1 - i = (j - i) + 1 := by omega
    have hindex : i + (j - i) = j := by omega
    have hperiod := h.period_eq j _ _ _ (List.getElem?_eq_getElem hcycle) hmid hj
    rw [hlength, List.take_add_one, List.getElem?_drop, hindex, List.getElem?_eq_getElem hcycle,
      List.map_append, List.sum_append, ih hmid]
    simp only [Option.toList_some, List.map_cons, List.map_nil, List.sum_singleton, hperiod]
    ring

theorem holdEnd_iff (hsorted : crossings.Pairwise (· < ·)) {required last : ℚ}
    (hj : crossings[j]? = some last) :
    (i + 3 ≤ j ∧ required ≤ last ∧
      ∀ k, i + 3 ≤ k → k < j → ∀ earlier ∈ crossings[k]?, earlier < required) ↔
      j = max (i + 3) (Bisect.left crossings required) := by
  obtain ⟨hlt, -⟩ := List.getElem?_eq_some_iff.mp hj
  constructor
  · rintro ⟨hij, hrequired, hearlier⟩
    have hleft : Bisect.left crossings required ≤ j := by
      by_contra hbelow
      exact absurd (Bisect.lt_of_lt_left (not_le.mp hbelow) hj) (not_lt.mpr hrequired)
    by_contra hne
    have hless : max (i + 3) (Bisect.left crossings required) < j := by omega
    have hmem : crossings[max (i + 3) (Bisect.left crossings required)]? =
        some crossings[max (i + 3) (Bisect.left crossings required)] :=
      List.getElem?_eq_getElem (by omega)
    have hbelow := hearlier _ (le_max_left _ _) hless _ hmem
    exact absurd (Bisect.le_of_left_le hsorted (le_max_right _ _) hmem) (not_le.mpr hbelow)
  · rintro rfl
    refine ⟨le_max_left _ _, Bisect.le_of_left_le hsorted (le_max_right _ _) hj, ?_⟩
    intro k hik hk earlier hmem
    apply Bisect.lt_of_lt_left _ hmem
    omega

theorem isOnset_iff (hsorted : crossings.Pairwise (· < ·)) (hfirst : crossings[i]? = some first) :
    IsOnset criteria crossings cycles i ↔
      max (i + 3) (Bisect.left crossings (first + criteria.holdFor)) < crossings.length ∧
        Qualifies criteria ((cycles.drop i).take
          (max (i + 3) (Bisect.left crossings (first + criteria.holdFor)) - i)) := by
  constructor
  · rintro ⟨j, first', last, hfirst', hlast, hij, hrequired, hearlier, hq⟩
    obtain rfl := Option.some.inj (hfirst.symm.trans hfirst')
    obtain rfl := (holdEnd_iff hsorted hlast).mp ⟨hij, hrequired, hearlier⟩
    exact ⟨(List.getElem?_eq_some_iff.mp hlast).1, hq⟩
  · rintro ⟨hlt, hq⟩
    have hlast := List.getElem?_eq_getElem hlt
    obtain ⟨hij, hrequired, hearlier⟩ := (holdEnd_iff hsorted hlast).mpr rfl
    exact ⟨_, first, _, hfirst, hlast, hij, hrequired, hearlier, hq⟩

/-- Where no crossing is behind the hold time, there is none for a later start either. -/
theorem not_isOnset_of_le (hsorted : crossings.Pairwise (· < ·)) (hi : crossings[i]? = some first)
    (hend : crossings.length ≤ Bisect.left crossings (first + criteria.holdFor)) (hij : i ≤ j) :
    ¬IsOnset criteria crossings cycles j := by
  rintro ⟨stop, later, last, hlater, hlast, -, hrequired, -⟩
  obtain ⟨hstop, -⟩ := List.getElem?_eq_some_iff.mp hlast
  have hbelow := Bisect.lt_of_lt_left (hstop.trans_le hend) hlast
  have hmono : first ≤ later := by
    obtain ⟨hi', rfl⟩ := List.getElem?_eq_some_iff.mp hi
    obtain ⟨hj', rfl⟩ := List.getElem?_eq_some_iff.mp hlater
    rcases Nat.eq_or_lt_of_le hij with rfl | hlt
    · exact le_rfl
    · exact (List.pairwise_iff_getElem.mp hsorted i j hi' hj' hlt).le
  linarith

theorem IsFirstOnset.of_succ {found : Option ℚ}
    (h : IsFirstOnset criteria crossings cycles (i + 1) found)
    (hnot : ¬IsOnset criteria crossings cycles i) :
    IsFirstOnset criteria crossings cycles i found := by
  have hsplit {k : ℕ} (hk : i ≤ k) : k = i ∨ i + 1 ≤ k := by omega
  cases found with
  | none =>
    intro k hk
    rcases hsplit hk with rfl | hk
    · exact hnot
    · exact h k hk
  | some t =>
    obtain ⟨k, hk, honset, hleast, ht⟩ := h
    refine ⟨k, by omega, honset, fun l hl hlk => ?_, ht⟩
    rcases hsplit hl with rfl | hl
    · exact hnot
    · exact hleast l hl hlk

theorem searchStartup_ok (hsorted : crossings.Pairwise (· < ·))
    (hcycles : AreCycles crossings cycles) {count : ℕ} (hcount : i + count = cycles.length - 2) :
    ∃ found,
      searchStartup criteria crossings
        (cycleStatsTree (cycles.map Cycle.period) (cycles.map Cycle.amplitude)
          (cycles.map Cycle.samples)).1
        (cycleStatsTree (cycles.map Cycle.period) (cycles.map Cycle.amplitude)
          (cycles.map Cycle.samples)).2 (List.range' i count) = .ok found ∧
        IsFirstOnset criteria crossings cycles i found := by
  have hlength := hcycles.length_eq
  induction count generalizing i with
  | zero =>
    refine ⟨none, rfl, fun k hk honset => ?_⟩
    obtain ⟨j, first, last, -, hlast, hkj, -⟩ := honset
    obtain ⟨hj, -⟩ := List.getElem?_eq_some_iff.mp hlast
    omega
  | succ count ih =>
    have hi : i < crossings.length := by omega
    have hfirst : crossings[i]? = some crossings[i] := List.getElem?_eq_getElem hi
    rw [List.range'_succ, searchStartup, hfirst]
    dsimp only
    have honset : IsOnset criteria crossings cycles i ↔ _ := isOnset_iff hsorted hfirst
    generalize hstop : max (i + 3)
      (Bisect.left crossings (crossings[i] + criteria.holdFor)) = stop at honset
    cases hlast : crossings[stop]? with
    | none =>
      rw [List.getElem?_eq_none_iff] at hlast
      refine ⟨none, rfl, fun k hk => ?_⟩
      exact not_isOnset_of_le hsorted hfirst (by omega) hk
    | some last =>
      obtain ⟨hlt, hlastEq⟩ := List.getElem?_eq_some_iff.mp hlast
      obtain ⟨stats, hstats, hsummary⟩ :=
        @cycleStatsRange_ok cycles i stop (by omega) (by omega)
      have hduration : last - crossings[i] =
          (((cycles.drop i).take (stop - i)).map Cycle.period).sum :=
        (hcycles.sum_periods (by omega) hfirst hlast).symm
      have hpos : 0 < last - crossings[i] := by
        rw [← hlastEq]
        exact sub_pos.mpr (List.pairwise_iff_getElem.mp hsorted i stop hi hlt (by omega))
      have hne : 0 < ((cycles.drop i).take (stop - i)).length := by
        rw [List.length_take, List.length_drop]
        omega
      have hqualifies : qualifies criteria stats (last - crossings[i]) = true ↔ _ :=
        qualifies_iff hsummary hduration hpos hne
      dsimp only
      rw [hstats, Except.ok_bind]
      by_cases hq : qualifies criteria stats (last - crossings[i]) = true
      · rw [if_pos hq]
        refine ⟨_, rfl, i, le_rfl, honset.mpr ⟨hlt, hqualifies.mp hq⟩, fun k hk hki => ?_, hfirst⟩
        omega
      · rw [if_neg hq]
        obtain ⟨found, hfound, hspec⟩ := ih (i := i + 1) (by omega)
        exact ⟨found, hfound, hspec.of_succ fun h => hq (hqualifies.mpr (honset.mp h).2)⟩

theorem exists_cycles (h : IsSampled axis differential) (hsorted : crossings.Pairwise (· < ·))
    (hinside : ∀ t ∈ crossings, Inside axis t) : ∃ cycles, AreCycles crossings cycles ∧
      cycleAssessment axis differential crossings = .ok (cycles.map Cycle.period,
        cycles.map Cycle.amplitude, cycles.map Cycle.samples) := by
  have hassessed : ∀ pair ∈ segments crossings, ∃ c : Cycle,
      assessCycle axis differential pair = .ok (c.period, c.amplitude, c.samples) ∧
        c.period = pair.2 - pair.1 := by
    rintro ⟨t, u⟩ hmem
    obtain ⟨ht, hu⟩ := mem_of_mem_segments hmem
    obtain ⟨highest, lowest, hmax, hmin, hout⟩ := assessCycle_eq h
      ⟨hinside t ht, hinside u (List.mem_of_mem_tail hu), rel_of_mem_segments hsorted hmem⟩
    have hle : lowest ≤ highest :=
      (List.min?_eq_some_iff.mp hmin).2 _ (List.max?_eq_some_iff.mp hmax).1
    exact ⟨⟨u - t, highest - lowest, (coordinatesOf axis t u).length, sub_nonneg.mpr hle⟩, hout,
      rfl⟩
  choose! out hout using hassessed
  refine ⟨(segments crossings).map out, ⟨?_, fun k c t u hc ht hu => ?_⟩, ?_⟩
  · rw [List.length_map, segments, List.length_zip, List.length_tail]
    omega
  · have hpair : (segments crossings)[k]? = some (t, u) := by
      rw [segments, List.getElem?_zip_eq_some, List.getElem?_tail]
      exact ⟨ht, hu⟩
    rw [List.getElem?_map, hpair] at hc
    obtain rfl := Option.some.inj hc
    exact (hout (t, u) (List.mem_of_getElem? hpair)).2
  · have hrun : (segments crossings).mapM (assessCycle axis differential) =
        .ok ((segments crossings).map fun pair =>
          ((out pair).period, (out pair).amplitude, (out pair).samples)) :=
      Except.mapM_eq_map fun pair hpair => (hout pair hpair).1
    rw [cycleAssessment, hrun]
    simp only [Except.map, List.map_map]
    rfl

/-- The search returns the crossing of the first onset, as trying every cycle in turn would. -/
theorem startupCandidate_naive (criteria : StartupCriteria) (h : IsSampled axis differential)
    (hsorted : crossings.Pairwise (· < ·)) (hinside : ∀ t ∈ crossings, Inside axis t) :
    ∃ cycles found, AreCycles crossings cycles ∧
      cycleAssessment axis differential crossings = .ok (cycles.map Cycle.period,
        cycles.map Cycle.amplitude, cycles.map Cycle.samples) ∧
      startupCandidate axis differential crossings criteria =
        .ok (found, cycles.any fun c => criteria.minimumAmplitude ≤ c.amplitude) ∧
      IsFirstOnset criteria crossings cycles 0 found := by
  obtain ⟨cycles, hcycles, hassessed⟩ := exists_cycles h hsorted hinside
  have hlength := hcycles.length_eq
  have hactivity : (cycles.map Cycle.amplitude).any
      (fun amplitude => criteria.minimumAmplitude ≤ amplitude) =
        cycles.any fun c => criteria.minimumAmplitude ≤ c.amplitude := List.any_map
  -- a hold has a cycle, which is strong where the hold qualifies
  have honset {i : ℕ} (hi : IsOnset criteria crossings cycles i) :
      2 ≤ crossings.length ∧
        (cycles.any fun c => criteria.minimumAmplitude ≤ c.amplitude) = true := by
    obtain ⟨j, first, last, -, hlast, hij, -, -, hq⟩ := hi
    obtain ⟨hj, -⟩ := List.getElem?_eq_some_iff.mp hlast
    obtain ⟨c, hc⟩ : ∃ c, cycles[i]? = some c := ⟨_, List.getElem?_eq_getElem (by omega)⟩
    have hmem : ((cycles.drop i).take (j - i))[0]? = some c := by
      rw [List.getElem?_take_of_lt (by omega), List.getElem?_drop, Nat.add_zero, hc]
    refine ⟨by omega, List.any_eq_true.mpr ⟨c, List.mem_of_getElem? hc, ?_⟩⟩
    exact decide_eq_true (hq.strong c (List.mem_of_getElem? hmem))
  refine ⟨cycles, ?_⟩
  unfold startupCandidate
  by_cases hshort : crossings.length < 2
  · have hnone : cycles = [] := List.eq_nil_of_length_eq_zero (by omega)
    refine ⟨none, hcycles, hassessed, ?_, fun i _ hi => ?_⟩
    · rw [if_pos hshort, hnone]
      rfl
    · have htwo := (honset hi).1
      omega
  · rw [if_neg hshort, hassessed, Except.ok_bind]
    dsimp only
    rw [hactivity]
    cases hactive : cycles.any fun c => criteria.minimumAmplitude ≤ c.amplitude with
    | false =>
      refine ⟨none, hcycles, rfl, rfl, fun i _ hi => ?_⟩
      rw [(honset hi).2] at hactive
      cases hactive
    | true =>
      obtain ⟨found, hfound, hspec⟩ := @searchStartup_ok crossings cycles criteria 0 hsorted hcycles
        (cycles.length - 2) (Nat.zero_add _)
      refine ⟨found, hcycles, rfl, ?_, hspec⟩
      rw [List.length_map, List.range_eq_range', hfound]
      rfl

/-- A triangle wave of four crossings. -/
theorem startupCandidate_triangle : ∃ cycles found,
    AreCycles [1 / 2, 5 / 2, 9 / 2, 13 / 2] cycles ∧
      startupCandidate [0, 1, 2, 3, 4, 5, 6, 7, 8] [-1, 1, -1, 1, -1, 1, -1, 1, -1]
        [1 / 2, 5 / 2, 9 / 2, 13 / 2] ⟨6, 2, 0, 0, 3⟩ =
          .ok (found, cycles.any fun c => 2 ≤ c.amplitude) ∧
        IsFirstOnset ⟨6, 2, 0, 0, 3⟩ [1 / 2, 5 / 2, 9 / 2, 13 / 2] cycles 0 found := by
  have hsampled : IsSampled [0, 1, 2, 3, 4, 5, 6, 7, 8] [-1, 1, -1, 1, -1, 1, -1, 1, -1] :=
    ⟨by norm_num, rfl⟩
  have hsorted : ([1 / 2, 5 / 2, 9 / 2, 13 / 2] : List ℚ).Pairwise (· < ·) := by norm_num
  have hinside : ∀ t ∈ ([1 / 2, 5 / 2, 9 / 2, 13 / 2] : List ℚ),
      Inside [0, 1, 2, 3, 4, 5, 6, 7, 8] t := by
    intro t ht
    refine ⟨⟨0, rfl, ?_⟩, 8, rfl, ?_⟩
    · simp only [List.mem_cons, List.not_mem_nil, or_false] at ht
      rcases ht with rfl | rfl | rfl | rfl <;> norm_num
    · simp only [List.mem_cons, List.not_mem_nil, or_false] at ht
      rcases ht with rfl | rfl | rfl | rfl <;> norm_num
  obtain ⟨cycles, found, hcycles, -, hrun, hspec⟩ :=
    startupCandidate_naive ⟨6, 2, 0, 0, 3⟩ hsampled hsorted hinside
  exact ⟨cycles, found, hcycles, hrun, hspec⟩

end Search

end OpenADA.Oscillator
