import OpenADA.Library.Bisect
import OpenADA.Oscillator.Detector

/-! The cycles between the crossings of an oscillator measurement in exact arithmetic: their periods
are positive, and their amplitudes are at least twice the hysteresis. -/
namespace OpenADA.Oscillator

open PolyLine

section Model

/-- `_interpolated_value` -/
def interpolatedValue (axis values : List ℚ) (x : ℚ) : Except Refusal ℚ :=
  let index := Bisect.left axis x
  if axis[index]? = some x then
    match values[index]? with
    | some value => .ok value
    | none => .error .index
  else if index = 0 ∨ index = axis.length then .error .window
  else
    match axis[index - 1]?, axis[index]?, values[index - 1]?, values[index]? with
    | some x0, some x1, some y0, some y1 => .ok (y0 + (y1 - y0) * ((x - x0) / (x1 - x0)))
    | _, _, _, _ => .error .index

/-- `_crop` -/
def crop (axis : List ℚ) (vectors : List (List ℚ)) (start stop : ℚ) :
    Except Refusal (List ℚ × List (List ℚ)) :=
  match axis.head?, axis.getLast? with
  | some first, some last =>
    if start < first ∨ last < stop ∨ stop ≤ start then .error .window
    else
      let inside := (axis.take (Bisect.left axis stop)).drop (Bisect.right axis start)
      let coordinates := start :: (inside ++ [stop])
      (vectors.mapM fun values => coordinates.mapM (interpolatedValue axis values)).map
        fun cropped => (coordinates, cropped)
  | _, _ => .error .index

/-- `_differential` -/
def differential (positive negative : List ℚ) : List ℚ :=
  (positive.zip negative).map fun pair => pair.1 - pair.2

def windowSamples (axis positive negative : List ℚ) (start stop : ℚ) :
    Except Refusal (List ℚ × List ℚ) := do
  let (coordinates, cropped) ← crop axis [positive, negative] start stop
  match cropped with
  | [windowPositive, windowNegative] =>
    .ok (coordinates, differential windowPositive windowNegative)
  | _ => .error .index

/-- `_relative_deviation` -/
def relativeDeviation (values : List ℚ) : Except Refusal ℚ :=
  match values.max? with
  | none => .ok 0
  | some scale =>
    if scale ≤ 0 then .error .nonFinite
    else
      let scaledMean := (values.map (· / scale)).sum / values.length
      if scaledMean = 0 then .error .nonFinite
      else
        match (values.map fun value => |value / scale - scaledMean| / scaledMean).max? with
        | some deviation => .ok deviation
        | none => .error .index

/-- One turn of the loop of `_cycle_assessment`: the period, the amplitude and the samples. -/
def assessCycle (axis differential : List ℚ) (cycle : ℚ × ℚ) : Except Refusal (ℚ × ℚ × ℕ) :=
  let period := cycle.2 - cycle.1
  if period ≤ 0 then .error .nonFinite
  else do
    let (cycleAxis, cropped) ← crop axis [differential] cycle.1 cycle.2
    match cropped with
    | [cycleValues] =>
      match cycleValues.max?, cycleValues.min? with
      | some highest, some lowest => .ok (period, highest - lowest, cycleAxis.length)
      | _, _ => .error .index
    | _ => .error .index

/-- `_cycle_assessment`: the periods, the amplitudes and the samples of the cycles. -/
def cycleAssessment (axis differential crossings : List ℚ) :
    Except Refusal (List ℚ × List ℚ × List ℕ) :=
  ((segments crossings).mapM (assessCycle axis differential)).map fun cycles =>
    (cycles.map fun cycle => cycle.1, cycles.map fun cycle => cycle.2.1,
      cycles.map fun cycle => cycle.2.2)

end Model

section Cropping

variable {axis values coordinates : List ℚ} {x start stop : ℚ}

structure IsSampled (axis values : List ℚ) : Prop where
  increasing : axis.Pairwise (· < ·)
  length_eq : axis.length = values.length

structure Inside (axis : List ℚ) (x : ℚ) : Prop where
  first : ∃ first, axis.head? = some first ∧ first ≤ x
  last : ∃ last, axis.getLast? = some last ∧ x ≤ last

theorem IsSampled.zip (h : IsSampled axis values) : Increasing (axis.zip values) := by
  have hmap : ((axis.zip values).map Prod.fst).Pairwise (· < ·) := by
    rw [List.map_fst_zip h.length_eq.le]
    exact h.increasing
  exact List.pairwise_map.mp hmap

theorem interpolatedValue_cons {a a' b b' : ℚ} {rest others : List ℚ} (ha : a < a') (hx : a' ≤ x) :
    interpolatedValue (a :: a' :: rest) (b :: b' :: others) x =
      interpolatedValue (a' :: rest) (b' :: others) x := by
  have hleft : Bisect.left (a :: a' :: rest) x = Bisect.left (a' :: rest) x + 1 :=
    Bisect.left_cons_of_lt (ha.trans_le hx)
  unfold interpolatedValue
  dsimp only
  rw [hleft]
  rcases eq_or_lt_of_le hx with rfl | hlt
  · rw [Bisect.left_cons_of_le le_rfl]
    simp
  · rw [Bisect.left_cons_of_lt hlt]
    simp

theorem interpolatedValue_eq (h : IsSampled axis values) (hinside : Inside axis x) :
    interpolatedValue axis values x = .ok (signal (axis.zip values) x) := by
  obtain ⟨hincreasing, hlength⟩ := h
  obtain ⟨⟨first, hfirst, hfx⟩, last, hlast, hxl⟩ := hinside
  induction axis generalizing values first with
  | nil => cases hfirst
  | cons a rest ih =>
    obtain rfl := Option.some.inj hfirst
    obtain ⟨b, others, rfl⟩ := List.exists_cons_of_length_eq_add_one hlength.symm
    have hzip : Increasing ((a :: rest).zip (b :: others)) := IsSampled.zip ⟨hincreasing, hlength⟩
    rw [List.zip_cons_cons] at hzip ⊢
    rcases eq_or_lt_of_le hfx with rfl | hlt
    · unfold interpolatedValue
      dsimp only
      rw [Bisect.left_cons_of_le le_rfl, signal_head hzip]
      simp
    · cases rest with
      | nil =>
        obtain rfl := Option.some.inj hlast
        exact absurd hxl (not_le.mpr hlt)
      | cons a' rest =>
        obtain ⟨b', others, rfl⟩ :=
          List.exists_cons_of_length_eq_add_one (Nat.succ.inj hlength).symm
        rw [List.zip_cons_cons] at hzip ⊢
        have hnext : a < a' := hzip.head_lt
        by_cases hx : x < a'
        · have hindex : Bisect.left (a :: a' :: rest) x = 1 := by
            rw [Bisect.left_cons_of_lt hlt, Bisect.left_cons_of_le hx.le]
          rw [signal_of_le hx.le]
          unfold interpolatedValue lerp
          dsimp only
          rw [hindex]
          simp [hx.ne']
        · rw [not_lt] at hx
          rw [interpolatedValue_cons hnext hx, signal_of_ge hzip hx]
          exact ih hincreasing.of_cons (Nat.succ.inj hlength) _ rfl hx hlast

def coordinatesOf (axis : List ℚ) (start stop : ℚ) : List ℚ :=
  start :: ((axis.filter fun x => start < x ∧ x < stop) ++ [stop])

theorem mem_coordinatesOf : x ∈ coordinatesOf axis start stop ↔
    x = start ∨ (x ∈ axis ∧ start < x ∧ x < stop) ∨ x = stop := by
  rw [coordinatesOf, List.mem_cons, List.mem_append, List.mem_filter, List.mem_singleton,
    decide_eq_true_eq]

theorem coordinatesOf_increasing (haxis : axis.Pairwise (· < ·)) (h : start < stop) :
    (coordinatesOf axis start stop).Pairwise (· < ·) := by
  have hinside : ∀ x ∈ axis.filter fun x => start < x ∧ x < stop, start < x ∧ x < stop :=
    fun x hx => of_decide_eq_true (List.mem_filter.mp hx).2
  rw [coordinatesOf, List.pairwise_cons, List.pairwise_append]
  refine ⟨fun x hx => ?_, haxis.sublist List.filter_sublist, List.pairwise_singleton _ _,
    fun x hx y hy => ?_⟩
  · rcases List.mem_append.mp hx with hx | hx
    · exact (hinside x hx).1
    · rw [List.mem_singleton.mp hx]
      exact h
  · rw [List.mem_singleton.mp hy]
    exact (hinside x hx).2

structure IsWindow (axis : List ℚ) (start stop : ℚ) : Prop where
  startInside : Inside axis start
  stopInside : Inside axis stop
  lt : start < stop

theorem IsWindow.inside (h : IsWindow axis start stop) (hstart : start ≤ x) (hstop : x ≤ stop) :
    Inside axis x := by
  obtain ⟨⟨⟨first, hfirst, hle⟩, -⟩, ⟨-, last, hlast, hge⟩, -⟩ := h
  exact ⟨⟨first, hfirst, hle.trans hstart⟩, last, hlast, hstop.trans hge⟩

theorem crop_eq_ok {vectors : List (List ℚ)} {out : List ℚ × List (List ℚ)}
    (h : ∀ values ∈ vectors, IsSampled axis values) (haxis : axis.Pairwise (· < ·)) :
    crop axis vectors start stop = .ok out ↔ IsWindow axis start stop ∧
      out = (coordinatesOf axis start stop, vectors.map fun values =>
        (coordinatesOf axis start stop).map (signal (axis.zip values))) := by
  unfold crop
  cases hfirst : axis.head? with
  | none =>
    constructor
    · intro h
      cases h
    · rintro ⟨⟨⟨⟨first, hsome, -⟩, -⟩, -, -⟩, -⟩
      rw [hfirst] at hsome
      cases hsome
  | some first =>
    cases hlast : axis.getLast? with
    | none =>
      constructor
      · intro h
        cases h
      · rintro ⟨⟨⟨-, last, hsome, -⟩, -, -⟩, -⟩
        rw [hlast] at hsome
        cases hsome
    | some last =>
      have hwindow : ¬(start < first ∨ last < stop ∨ stop ≤ start) ↔ IsWindow axis start stop := by
        rw [not_or, not_or, not_lt, not_lt, not_le]
        constructor
        · rintro ⟨hstart, hstop, hlt⟩
          exact ⟨⟨⟨first, hfirst, hstart⟩, last, hlast, hlt.le.trans hstop⟩,
            ⟨⟨first, hfirst, hstart.trans hlt.le⟩, last, hlast, hstop⟩, hlt⟩
        · rintro ⟨⟨⟨first', hfirst', hstart⟩, -⟩, ⟨-, last', hlast', hstop⟩, hlt⟩
          obtain rfl := Option.some.inj (hfirst.symm.trans hfirst')
          obtain rfl := Option.some.inj (hlast.symm.trans hlast')
          exact ⟨hstart, hstop, hlt⟩
      dsimp only
      rw [Except.guard_eq_ok, hwindow]
      refine and_congr_right fun hw => ?_
      have hcoordinates : start :: ((axis.take (Bisect.left axis stop)).drop
          (Bisect.right axis start) ++ [stop]) = coordinatesOf axis start stop := by
        rw [Bisect.between_eq_filter haxis hw.lt, coordinatesOf]
      have hvalues : ∀ values ∈ vectors,
          (coordinatesOf axis start stop).mapM (interpolatedValue axis values) =
            .ok ((coordinatesOf axis start stop).map (signal (axis.zip values))) := by
        intro values hmem
        apply Except.mapM_eq_map
        intro x hx
        apply interpolatedValue_eq (h values hmem)
        rcases mem_coordinatesOf.mp hx with rfl | ⟨-, hstart, hstop⟩ | rfl
        · exact hw.startInside
        · exact hw.inside hstart.le hstop.le
        · exact hw.stopInside
      rw [hcoordinates, Except.mapM_eq_map hvalues]
      exact ⟨fun h => (Except.ok.inj h).symm, fun h => congrArg Except.ok h.symm⟩

theorem windowSamples_eq_ok {positive negative : List ℚ} {out : List ℚ × List ℚ}
    (hpositive : IsSampled axis positive) (hnegative : IsSampled axis negative) :
    windowSamples axis positive negative start stop = .ok out ↔ IsWindow axis start stop ∧
      out = (coordinatesOf axis start stop, (coordinatesOf axis start stop).map fun x =>
        signal (axis.zip positive) x - signal (axis.zip negative) x) := by
  have hall : ∀ values ∈ [positive, negative], IsSampled axis values := by
    simp [hpositive, hnegative]
  have hsame (coordinates : List ℚ) : differential (coordinates.map (signal (axis.zip positive)))
      (coordinates.map (signal (axis.zip negative))) = coordinates.map fun x =>
        signal (axis.zip positive) x - signal (axis.zip negative) x := by
    rw [differential, List.zip_map', List.map_map]
    rfl
  unfold windowSamples
  rw [Except.bind_eq_ok]
  constructor
  · rintro ⟨cropped, hcrop, h⟩
    obtain ⟨hwindow, rfl⟩ := (crop_eq_ok hall hpositive.increasing).mp hcrop
    obtain rfl := Except.ok.inj h
    exact ⟨hwindow, by rw [← hsame]⟩
  · rintro ⟨hwindow, rfl⟩
    refine ⟨_, (crop_eq_ok hall hpositive.increasing).mpr ⟨hwindow, rfl⟩, ?_⟩
    rw [← hsame]
    rfl

theorem IsWindow.sampled (h : IsWindow axis start stop) (haxis : axis.Pairwise (· < ·))
    (f : ℚ → ℚ) : IsSampled (coordinatesOf axis start stop)
      ((coordinatesOf axis start stop).map f) :=
  ⟨coordinatesOf_increasing haxis h.lt, (List.length_map _).symm⟩

theorem inside_coordinatesOf (hstart : start ≤ x) (hstop : x ≤ stop) :
    Inside (coordinatesOf axis start stop) x := by
  refine ⟨⟨start, rfl, hstart⟩, stop, ?_, hstop⟩
  rw [coordinatesOf, List.getLast?_cons, List.getLast?_concat]
  rfl

end Cropping

section Assessment

variable {axis values crossings periods amplitudes found : List ℚ} {low high t u hysteresis : ℚ}

theorem exists_max? {items : List ℚ} {x : ℚ} (hx : x ∈ items) :
    ∃ highest, items.max? = some highest ∧ x ≤ highest := by
  cases hmax : items.max? with
  | none =>
    rw [List.max?_eq_none_iff.mp hmax] at hx
    cases hx
  | some highest => exact ⟨highest, rfl, (List.max?_eq_some_iff.mp hmax).2 x hx⟩

theorem exists_min? {items : List ℚ} {x : ℚ} (hx : x ∈ items) :
    ∃ lowest, items.min? = some lowest ∧ lowest ≤ x := by
  cases hmin : items.min? with
  | none =>
    rw [List.min?_eq_none_iff.mp hmin] at hx
    cases hx
  | some lowest => exact ⟨lowest, rfl, (List.min?_eq_some_iff.mp hmin).2 x hx⟩

theorem assessCycle_eq (h : IsSampled axis values) (hwindow : IsWindow axis t u) :
    ∃ highest lowest,
      ((coordinatesOf axis t u).map (signal (axis.zip values))).max? = some highest ∧
      ((coordinatesOf axis t u).map (signal (axis.zip values))).min? = some lowest ∧
      assessCycle axis values (t, u) =
        .ok (u - t, highest - lowest, (coordinatesOf axis t u).length) := by
  have hcrop : crop axis [values] t u = .ok (coordinatesOf axis t u,
      [(coordinatesOf axis t u).map (signal (axis.zip values))]) :=
    (crop_eq_ok (by simpa using h) h.increasing).mpr ⟨hwindow, rfl⟩
  have hstart : signal (axis.zip values) t ∈
      (coordinatesOf axis t u).map (signal (axis.zip values)) :=
    List.mem_map_of_mem (mem_coordinatesOf.mpr (.inl rfl))
  obtain ⟨highest, hmax, -⟩ := exists_max? hstart
  obtain ⟨lowest, hmin, -⟩ := exists_min? hstart
  refine ⟨highest, lowest, hmax, hmin, ?_⟩
  unfold assessCycle
  dsimp only
  rw [if_neg (not_le.mpr (sub_pos.mpr hwindow.lt)), hcrop, Except.ok_bind]
  dsimp only
  rw [hmax, hmin]

/-- A cycle that swings has a positive period, and the distance of the thresholds as amplitude. -/
theorem assessCycle_ok (h : IsSampled axis values) (ht : Inside axis t) (hu : Inside axis u)
    (hswings : Swings (axis.zip values) low high t u) : ∃ period amplitude samples,
      assessCycle axis values (t, u) = .ok (period, amplitude, samples) ∧ 0 < period ∧
        high - low ≤ amplitude := by
  obtain ⟨peak, hpeak, trough, htrough, htp, hpt, htu, hhigh, hlow⟩ := hswings.samples
  have hlt : t < u := hswings.lt
  obtain ⟨highest, lowest, hmax, hmin, hout⟩ := assessCycle_eq h ⟨ht, hu, hlt⟩
  have hsample {p : ℚ × ℚ} (hp : p ∈ axis.zip values) (hfirst : t < p.1) (hlast : p.1 < u) :
      p.2 ∈ (coordinatesOf axis t u).map (signal (axis.zip values)) := by
    rw [← signal_of_mem h.zip hp]
    apply List.mem_map_of_mem
    exact mem_coordinatesOf.mpr (.inr (.inl ⟨(List.of_mem_zip hp).1, hfirst, hlast⟩))
  have hpeakLe := (List.max?_eq_some_iff.mp hmax).2 _ (hsample hpeak htp (hpt.trans htu))
  have hleTrough := (List.min?_eq_some_iff.mp hmin).2 _ (hsample htrough (htp.trans hpt) htu)
  refine ⟨_, _, _, hout, sub_pos.mpr hlt, ?_⟩
  linarith

theorem relativeDeviation_ok {items : List ℚ} (h : ∀ x ∈ items, 0 < x) :
    ∃ deviation, relativeDeviation items = .ok deviation := by
  cases items with
  | nil => exact ⟨0, rfl⟩
  | cons x rest =>
    obtain ⟨scale, hscale, hle⟩ := exists_max? (List.mem_cons_self (a := x) (l := rest))
    have hpos : 0 < scale := (h x List.mem_cons_self).trans_le hle
    have hsum : 0 < ((x :: rest).map (· / scale)).sum := by
      apply List.sum_pos
      · intro y hy
        obtain ⟨z, hz, rfl⟩ := List.mem_map.mp hy
        exact div_pos (h z hz) hpos
      · exact List.cons_ne_nil _ _
    have hmean : 0 < ((x :: rest).map (· / scale)).sum / ((x :: rest).length : ℚ) :=
      div_pos hsum (Nat.cast_pos.mpr (Nat.succ_pos _))
    unfold relativeDeviation
    rw [hscale]
    dsimp only
    rw [if_neg (not_le.mpr hpos), if_neg hmean.ne']
    obtain ⟨deviation, hdeviation, -⟩ := exists_max? (List.mem_map_of_mem (f := fun value =>
      |value / scale - ((x :: rest).map (· / scale)).sum / ((x :: rest).length : ℚ)| /
        (((x :: rest).map (· / scale)).sum / ((x :: rest).length : ℚ)))
      (List.mem_cons_self (a := x) (l := rest)))
    exact ⟨deviation, by rw [hdeviation]⟩

/-- Every cycle is assessed, with a positive period and twice the hysteresis as its amplitude, and
the relative deviations are defined. -/
structure CyclesDefined (axis values crossings : List ℚ) (hysteresis : ℚ) : Prop where
  assessed : ∃ periods amplitudes samples,
    cycleAssessment axis values crossings = .ok (periods, amplitudes, samples) ∧
      (∀ period ∈ periods, 0 < period) ∧ (∀ amplitude ∈ amplitudes, 2 * hysteresis ≤ amplitude) ∧
        (∃ deviation, relativeDeviation periods = .ok deviation) ∧
          ∃ deviation, relativeDeviation amplitudes = .ok deviation

theorem rel_of_mem_segments {α : Type*} {R : α → α → Prop} {items : List α} {a b : α}
    (h : items.Pairwise R) (hmem : (a, b) ∈ segments items) : R a b := by
  have hpair : [a, b].Pairwise R := h.sublist (mem_segments_iff.mp hmem).sublist
  exact List.rel_of_pairwise_cons hpair (List.mem_singleton_self b)

theorem cyclesDefined (h : IsSampled axis values) (hpos : 0 < hysteresis)
    (hwidth : high - low = 2 * hysteresis) (hinside : ∀ t ∈ crossings, Inside axis t)
    (hswings : crossings.Pairwise (Swings (axis.zip values) low high)) :
    CyclesDefined axis values crossings hysteresis := by
  have hassessed : ∀ cycle ∈ segments crossings, ∃ out, assessCycle axis values cycle = .ok out ∧
      0 < out.1 ∧ 2 * hysteresis ≤ out.2.1 := by
    rintro ⟨t, u⟩ hmem
    obtain ⟨ht, hu⟩ := mem_of_mem_segments hmem
    obtain ⟨period, amplitude, samples, hout, hperiod, hamplitude⟩ := assessCycle_ok h
      (hinside t ht) (hinside u (List.mem_of_mem_tail hu)) (rel_of_mem_segments hswings hmem)
    exact ⟨_, hout, hperiod, hwidth.symm.trans_le hamplitude⟩
  choose! out hout using hassessed
  have hrun : cycleAssessment axis values crossings =
      .ok (((segments crossings).map out).map fun cycle => cycle.1,
        ((segments crossings).map out).map fun cycle => cycle.2.1,
        ((segments crossings).map out).map fun cycle => cycle.2.2) := by
    rw [cycleAssessment, Except.mapM_eq_map fun cycle hcycle => (hout cycle hcycle).1]
    rfl
  have hperiods : ∀ period ∈ ((segments crossings).map out).map fun cycle => cycle.1,
      0 < period := by
    intro period hperiod
    rw [List.map_map] at hperiod
    obtain ⟨cycle, hcycle, rfl⟩ := List.mem_map.mp hperiod
    exact (hout cycle hcycle).2.1
  have hamplitudes : ∀ amplitude ∈ ((segments crossings).map out).map fun cycle => cycle.2.1,
      2 * hysteresis ≤ amplitude := by
    intro amplitude hamplitude
    rw [List.map_map] at hamplitude
    obtain ⟨cycle, hcycle, rfl⟩ := List.mem_map.mp hamplitude
    exact (hout cycle hcycle).2.2
  refine ⟨_, _, _, hrun, hperiods, hamplitudes, relativeDeviation_ok hperiods,
    relativeDeviation_ok fun amplitude hamplitude => ?_⟩
  exact (mul_pos two_pos hpos).trans_le (hamplitudes amplitude hamplitude)

theorem IsCrossing.inside {threshold : ℚ} (h : IsSampled axis values)
    (hcrossing : IsCrossing (axis.zip values) low high threshold t) :
    ∃ first last, axis.head? = some first ∧ axis.getLast? = some last ∧ first < t ∧ t ≤ last := by
  obtain ⟨before, trough, middle, peak, after, hsplit, -, -, -, hle, harrives⟩ := hcrossing.split
  have htrough : trough.1 ∈ axis := (List.of_mem_zip (a := trough.1) (b := trough.2) (by
    rw [hsplit]
    simp)).1
  have hpeak : peak.1 ∈ axis := (List.of_mem_zip (a := peak.1) (b := peak.2) (by
    rw [hsplit]
    simp)).1
  have hfirst : ∃ first, axis.head? = some first ∧ first ≤ trough.1 := by
    cases axis with
    | nil => cases htrough
    | cons first rest =>
      refine ⟨first, rfl, ?_⟩
      rcases List.mem_cons.mp htrough with heq | hmem
      · exact heq.ge
      · exact (List.rel_of_pairwise_cons h.increasing hmem).le
  have hlast : ∃ last, axis.getLast? = some last ∧ peak.1 ≤ last := by
    rcases List.eq_nil_or_concat' axis with rfl | ⟨front, last, rfl⟩
    · cases hpeak
    · refine ⟨last, List.getLast?_concat, ?_⟩
      rcases List.mem_append.mp hpeak with hmem | hmem
      · exact ((List.pairwise_append.mp h.increasing).2.2 _ hmem last
          (List.mem_singleton_self last)).le
      · exact (List.mem_singleton.mp hmem).le
  obtain ⟨first, hhead, hfirst⟩ := hfirst
  obtain ⟨last, hend, hlast⟩ := hlast
  exact ⟨first, last, hhead, hend, hfirst.trans_lt harrives.after, hle.trans hlast⟩

theorem Swings.mono {points others : List (ℚ × ℚ)} (h : Swings points low high t u)
    (hsubset : ∀ p ∈ points, t < p.1 → p.1 < u → p ∈ others) : Swings others low high t u := by
  obtain ⟨peak, hpeak, trough, htrough, htp, hpt, htu, hlevels⟩ := h.samples
  exact ⟨⟨peak, hsubset peak hpeak htp (hpt.trans htu), trough,
    hsubset trough htrough (htp.trans hpt) htu, htp, hpt, htu, hlevels⟩⟩

theorem swings_window {source : List ℚ} {searchStart start stop : ℚ} {f : ℚ → ℚ}
    (hsearch : searchStart ≤ start) (ht : start ≤ t) (hu : u ≤ stop)
    (h : Swings ((coordinatesOf source searchStart stop).zip
      ((coordinatesOf source searchStart stop).map f)) low high t u) :
    Swings ((coordinatesOf source start stop).zip ((coordinatesOf source start stop).map f))
      low high t u := by
  have hzip (coordinates : List ℚ) : coordinates.zip (coordinates.map f) =
      coordinates.map fun x => (x, f x) := by
    have hmap : (coordinates.map id).zip (coordinates.map f) =
        coordinates.map fun x => (id x, f x) := List.zip_map'
    rwa [List.map_id] at hmap
  rw [hzip] at h ⊢
  apply h.mono
  intro p hp htp hpu
  obtain ⟨x, hx, rfl⟩ := List.mem_map.mp hp
  refine List.mem_map.mpr ⟨x, mem_coordinatesOf.mpr ?_, rfl⟩
  rcases mem_coordinatesOf.mp hx with rfl | ⟨hmem, -, -⟩ | rfl
  · exact absurd (hsearch.trans ht) (not_le.mpr htp)
  · exact .inr (.inl ⟨hmem, ht.trans_lt htp, hpu.trans_le hu⟩)
  · exact absurd hu (not_le.mpr hpu)

/-- The crossings are where the signal passes the threshold between a low and a high sample: they
increase, and between any two of them the signal swings, so that every cycle has its amplitude. -/
theorem hystereticCrossings_swing {threshold : ℚ} (haxis : axis.Pairwise (· < ·))
    (hlength : axis.length = values.length) (hpos : 0 < hysteresis)
    (hrun : hystereticCrossings axis values threshold hysteresis = .ok found) :
    found.Pairwise (· < ·) ∧
      (∀ t ∈ found, ∃ first last, axis.head? = some first ∧ axis.getLast? = some last ∧
        first < t ∧ t ≤ last) ∧
      (∀ t, t ∈ found ↔ IsCrossing (axis.zip values) (threshold - hysteresis)
        (threshold + hysteresis) threshold t) ∧
      found.Pairwise (Swings (axis.zip values) (threshold - hysteresis) (threshold + hysteresis)) ∧
      CyclesDefined axis values found hysteresis ∧
      ∀ source positive negative searchStart start stop cropAxis cropValues,
        IsSampled source positive → IsSampled source negative → searchStart ≤ start →
        windowSamples source positive negative searchStart stop = .ok (axis, values) →
        windowSamples source positive negative start stop = .ok (cropAxis, cropValues) →
        CyclesDefined cropAxis cropValues (found.filter fun t => start ≤ t ∧ t ≤ stop)
          hysteresis := by
  have hsampled : IsSampled axis values := ⟨haxis, hlength⟩
  have hthresholds : Ordered (threshold - hysteresis) (threshold + hysteresis) threshold :=
    ⟨sub_lt_self _ hpos, lt_add_of_pos_right _ hpos⟩
  have hwidth : threshold + hysteresis - (threshold - hysteresis) = 2 * hysteresis := by ring
  have hfound : found = confirmed (threshold - hysteresis) (threshold + hysteresis) threshold none
      (axis.zip values) := by
    have hvalues : values ≠ [] := by
      rintro rfl
      cases hrun
    rw [hystereticCrossings_eq hsampled.zip hlength hvalues hpos] at hrun
    by_cases hfew : (confirmed (threshold - hysteresis) (threshold + hysteresis) threshold none
        (axis.zip values)).length ≤ maxReceiptCrossings
    · rw [if_pos hfew] at hrun
      exact (Except.ok.inj hrun).symm
    · rw [if_neg hfew] at hrun
      cases hrun
  have hmem (t : ℚ) : t ∈ found ↔ IsCrossing (axis.zip values) (threshold - hysteresis)
      (threshold + hysteresis) threshold t := by
    rw [hfound]
    exact mem_confirmed hthresholds hsampled.zip
  have hswings : found.Pairwise
      (Swings (axis.zip values) (threshold - hysteresis) (threshold + hysteresis)) := by
    rw [hfound]
    exact pairwise_swings hthresholds hsampled.zip
  have hinside : ∀ t ∈ found, ∃ first last, axis.head? = some first ∧
      axis.getLast? = some last ∧ first < t ∧ t ≤ last :=
    fun t ht => ((hmem t).mp ht).inside hsampled
  refine ⟨hswings.imp Swings.lt, hinside, hmem, hswings, ?_, ?_⟩
  · apply cyclesDefined hsampled hpos hwidth _ hswings
    intro t ht
    obtain ⟨first, last, hfirst, hlast, hlt, hle⟩ := hinside t ht
    exact ⟨⟨first, hfirst, hlt.le⟩, last, hlast, hle⟩
  · intro source positive negative searchStart start stop cropAxis cropValues hpositive hnegative
      hsearch hsamples hcrop
    obtain ⟨-, hsamples⟩ := (windowSamples_eq_ok hpositive hnegative).mp hsamples
    obtain ⟨rfl, rfl⟩ := Prod.mk.inj hsamples
    obtain ⟨hwindow, hcrop⟩ := (windowSamples_eq_ok hpositive hnegative).mp hcrop
    obtain ⟨rfl, rfl⟩ := Prod.mk.inj hcrop
    have hlate : ∀ t ∈ found.filter (fun t => start ≤ t ∧ t ≤ stop), start ≤ t ∧ t ≤ stop :=
      fun t ht => of_decide_eq_true (List.mem_filter.mp ht).2
    apply cyclesDefined (hwindow.sampled hpositive.increasing _) hpos hwidth
    · exact fun t ht => inside_coordinatesOf (hlate t ht).1 (hlate t ht).2
    · refine (hswings.sublist List.filter_sublist).imp_of_mem fun {t u} ht hu hpair => ?_
      exact swings_window hsearch (hlate t ht).1 (hlate u hu).2 hpair

/-- A candidate that falls back to the low threshold is dropped before the later rise. -/
theorem hystereticCrossings_dropped : ∃ found,
    hystereticCrossings [0, 1, 2, 3, 4] [-2, 1 / 2, -2, 2, -2] 0 1 = .ok found ∧
      CyclesDefined [0, 1, 2, 3, 4] [-2, 1 / 2, -2, 2, -2] found 1 := by
  have hrun : hystereticCrossings [0, 1, 2, 3, 4] [-2, 1 / 2, -2, 2, -2] 0 1 = .ok [5 / 2] := by
    decide +kernel
  have haxis : ([0, 1, 2, 3, 4] : List ℚ).Pairwise (· < ·) := by norm_num
  have hlength : ([0, 1, 2, 3, 4] : List ℚ).length = ([-2, 1 / 2, -2, 2, -2] : List ℚ).length := rfl
  exact ⟨_, hrun, (hystereticCrossings_swing haxis hlength one_pos hrun).2.2.2.2.1⟩

end Assessment

end OpenADA.Oscillator
