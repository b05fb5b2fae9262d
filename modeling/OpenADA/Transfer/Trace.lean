import OpenADA.Library.PolyLine
import Mathlib.Analysis.SpecialFunctions.Log.Base
import Mathlib.Data.Rat.Floor

/-! The trace of a transfer function: its phase without jumps, and the places where its magnitude
falls to a level. -/
namespace OpenADA.Transfer

section Phase

/-- `_principal_phase_degrees` of an angle in degrees. -/
def principalPhase (phase : ℚ) : ℚ := if 180 ≤ phase then phase - 360 else phase

def lowered (previous candidate : ℚ) : ℚ :=
  if 180 ≤ candidate - previous then lowered previous (candidate - 360) else candidate
termination_by ⌊candidate - previous⌋.toNat
decreasing_by
  have hfloor : ⌊candidate - 360 - previous⌋ = ⌊candidate - previous⌋ - 360 := by
    rw [sub_right_comm, ← Int.floor_sub_ofNat]
  have hpos : 180 ≤ ⌊candidate - previous⌋ := by
    rw [Int.le_floor]
    exact_mod_cast ‹180 ≤ candidate - previous›
  omega

def raised (previous candidate : ℚ) : ℚ :=
  if candidate - previous < -180 then raised previous (candidate + 360) else candidate
termination_by ⌊previous - candidate⌋.toNat
decreasing_by
  have hfloor : ⌊previous - (candidate + 360)⌋ = ⌊previous - candidate⌋ - 360 := by
    rw [← sub_sub, ← Int.floor_sub_ofNat]
  have hpos : 180 ≤ ⌊previous - candidate⌋ := by
    rw [Int.le_floor]
    have : candidate - previous < -180 := by assumption
    push_cast
    linarith
  omega

/-- The phases after the first, each moved by whole turns next to the one before. -/
def unwrapFrom (previous : ℚ) : List ℚ → List ℚ
  | [] => []
  | phase :: rest =>
    let candidate := raised previous (lowered previous phase)
    candidate :: unwrapFrom candidate rest

/-- `_unwrap_phase` of angles in degrees, the first of which exists. -/
def unwrapPhase (angles : List ℚ) : List ℚ :=
  match angles.map principalPhase with
  | [] => []
  | first :: rest => first :: unwrapFrom first rest

def Congruent (u p : ℚ) : Prop := ∃ k : ℤ, u = p + 360 * k

/-- A step between neighbours is half a turn at most, and not half a turn up. -/
def ShortStep (previous next : ℚ) : Prop := -180 ≤ next - previous ∧ next - previous < 180

structure IsUnwrapped (angles unwrapped : List ℚ) : Prop where
  first : unwrapped.head? = angles.head?.map principalPhase
  congruent : List.Forall₂ Congruent unwrapped angles
  steps : unwrapped.IsChain ShortStep

theorem Congruent.refl (p : ℚ) : Congruent p p := ⟨0, by simp⟩

theorem Congruent.trans {a b c : ℚ} (hab : Congruent a b) (hbc : Congruent b c) :
    Congruent a c := by
  obtain ⟨k, rfl⟩ := hab
  obtain ⟨l, rfl⟩ := hbc
  refine ⟨k + l, ?_⟩
  push_cast
  ring

theorem principalPhase_congruent (p : ℚ) : Congruent (principalPhase p) p := by
  unfold principalPhase
  split
  · refine ⟨-1, ?_⟩
    push_cast
    ring
  · exact Congruent.refl p

theorem lowered_spec (previous candidate : ℚ) :
    Congruent (lowered previous candidate) candidate ∧
      lowered previous candidate - previous < 180 ∧
      (lowered previous candidate = candidate ∨ 0 ≤ lowered previous candidate - previous + 180) := by
  induction candidate using lowered.induct previous with
  | case1 candidate hhigh ih =>
    obtain ⟨hcongruent, hlow, hback⟩ := ih
    rw [lowered, if_pos hhigh]
    refine ⟨hcongruent.trans ⟨-1, by push_cast; ring⟩, hlow, Or.inr ?_⟩
    rcases hback with heq | hback
    · rw [heq]
      linarith
    · exact hback
  | case2 candidate hlow =>
    rw [lowered, if_neg hlow]
    exact ⟨Congruent.refl _, not_le.mp hlow, Or.inl rfl⟩

theorem raised_spec (previous candidate : ℚ) :
    Congruent (raised previous candidate) candidate ∧
      -180 ≤ raised previous candidate - previous ∧
      (candidate - previous < 180 → raised previous candidate - previous < 180) := by
  induction candidate using raised.induct previous with
  | case1 candidate hlow ih =>
    obtain ⟨hcongruent, hbound, hback⟩ := ih
    rw [raised, if_pos hlow]
    exact ⟨hcongruent.trans ⟨1, by push_cast; ring⟩, hbound, fun _ => hback (by linarith)⟩
  | case2 candidate hhigh =>
    rw [raised, if_neg hhigh]
    exact ⟨Congruent.refl _, not_lt.mp hhigh, fun h => h⟩

theorem candidate_spec (previous phase : ℚ) :
    Congruent (raised previous (lowered previous phase)) phase ∧
      ShortStep previous (raised previous (lowered previous phase)) := by
  obtain ⟨hlowered, hlow, -⟩ := lowered_spec previous phase
  obtain ⟨hraised, hbound, hback⟩ := raised_spec previous (lowered previous phase)
  exact ⟨hraised.trans hlowered, hbound, hback hlow⟩

theorem ShortStep.unique {previous a b phase : ℚ} (ha : Congruent a phase)
    (hb : Congruent b phase) (hstepA : ShortStep previous a) (hstepB : ShortStep previous b) :
    a = b := by
  obtain ⟨k, rfl⟩ := ha
  obtain ⟨l, rfl⟩ := hb
  obtain ⟨hlowA, hhighA⟩ := hstepA
  obtain ⟨hlowB, hhighB⟩ := hstepB
  have hkl : k - l < 1 := by
    have hcast : ((k - l : ℤ) : ℚ) < 1 := by
      push_cast
      linarith
    exact_mod_cast hcast
  have hlk : l - k < 1 := by
    have hcast : ((l - k : ℤ) : ℚ) < 1 := by
      push_cast
      linarith
    exact_mod_cast hcast
  have heq : k = l := by omega
  rw [heq]

/-- The phases after the first are the ones next to each other that follow the angles. -/
theorem unwrapFrom_iff (previous : ℚ) (angles unwrapped : List ℚ) :
    (List.Forall₂ Congruent unwrapped angles ∧ (previous :: unwrapped).IsChain ShortStep) ↔
      unwrapped = unwrapFrom previous (angles.map principalPhase) := by
  induction angles generalizing previous unwrapped with
  | nil =>
    rw [List.forall₂_nil_right_iff]
    constructor
    · exact fun h => h.1
    · rintro rfl
      exact ⟨rfl, List.isChain_singleton _⟩
  | cons angle rest ih =>
    obtain ⟨hcongruent, hstep⟩ := candidate_spec previous (principalPhase angle)
    have hangle := hcongruent.trans (principalPhase_congruent angle)
    constructor
    · rintro ⟨hall, hchain⟩
      obtain ⟨u, us, hu, hus, rfl⟩ := List.forall₂_cons_right_iff.mp hall
      rw [List.isChain_cons_cons] at hchain
      obtain rfl := ShortStep.unique hu hangle hchain.1 hstep
      rw [(ih _ us).mp ⟨hus, hchain.2⟩]
      rfl
    · rintro rfl
      obtain ⟨hus, hchain⟩ := (ih _ _).mpr rfl
      exact ⟨List.Forall₂.cons hangle hus, List.isChain_cons_cons.mpr ⟨hstep, hchain⟩⟩

/-- The phases are unwrapped into the one sequence without jumps that starts at the principal phase
of the first and follows the angles. -/
theorem unwrapPhase_iff (angles unwrapped : List ℚ) :
    IsUnwrapped angles unwrapped ↔ unwrapped = unwrapPhase angles := by
  cases angles with
  | nil =>
    constructor
    · rintro ⟨-, hall, -⟩
      exact List.forall₂_nil_right_iff.mp hall
    · rintro rfl
      exact ⟨rfl, List.Forall₂.nil, List.isChain_nil⟩
  | cons angle rest =>
    have hrest := unwrapFrom_iff (principalPhase angle) rest
    constructor
    · rintro ⟨hfirst, hall, hchain⟩
      obtain ⟨u, us, -, hus, rfl⟩ := List.forall₂_cons_right_iff.mp hall
      obtain rfl := Option.some.inj hfirst
      rw [(hrest us).mp ⟨hus, hchain⟩]
      rfl
    · rintro rfl
      obtain ⟨hus, hchain⟩ := (hrest _).mpr rfl
      exact ⟨rfl, List.Forall₂.cons (principalPhase_congruent angle) hus, hchain⟩

end Phase

section Crossings

open PolyLine

/-- The logarithm and the power to the base ten, as far as the interpolation rests on them. -/
structure LogScale (K : Type*) [Field K] [LinearOrder K] where
  log10 : K → K
  pow10 : K → K
  log10_lt : ∀ a b, 0 < a → a < b → log10 a < log10 b
  pow10_lt : ∀ a b, a < b → pow10 a < pow10 b
  log10_pow10 : ∀ a, log10 (pow10 a) = a
  pow10_log10 : ∀ a, 0 < a → pow10 (log10 a) = a

structure Sample (K : Type*) where
  frequency : K
  magnitudeDb : K
  phaseDeg : K

structure Crossing (K : Type*) where
  frequencyHz : K
  magnitudeDb : K
  phaseDeg : K

inductive CrossingStatus where
  | measured
  | ambiguous
  | notFound
  deriving DecidableEq

structure CrossingRecord (K : Type*) where
  status : CrossingStatus
  thresholdDb : K
  count : ℕ
  candidates : List (Crossing K)

variable {K : Type*} [Field K] [LinearOrder K]

def fraction (thresholdDb : K) (p q : Sample K) : K :=
  (thresholdDb - p.magnitudeDb) / (q.magnitudeDb - p.magnitudeDb)

/-- One turn of the loop of `_falling_crossings`. -/
def crossingOf (scale : LogScale K) (thresholdDb : K) (segment : Sample K × Sample K) :
    Option (Crossing K) :=
  let p := segment.1
  let q := segment.2
  if thresholdDb < p.magnitudeDb ∧ q.magnitudeDb ≤ thresholdDb then
    some
      { frequencyHz := scale.pow10 (scale.log10 p.frequency + fraction thresholdDb p q *
          (scale.log10 q.frequency - scale.log10 p.frequency))
        magnitudeDb := thresholdDb
        phaseDeg := p.phaseDeg + fraction thresholdDb p q * (q.phaseDeg - p.phaseDeg) }
  else none

/-- `_falling_crossings`. -/
def fallingCrossings (scale : LogScale K) (samples : List (Sample K)) (thresholdDb : K) :
    List (Crossing K) :=
  (segments samples).filterMap (crossingOf scale thresholdDb)

/-- `_crossing_record`. -/
def crossingRecord (crossings : List (Crossing K)) (thresholdDb : K) : CrossingRecord K where
  status := if crossings.length = 1 then .measured else
    if crossings.isEmpty then .notFound else .ambiguous
  thresholdDb := thresholdDb
  count := crossings.length
  candidates := crossings

/-- The record of the bandwidth, three decibels under the gain at the first frequency. -/
def bandwidthRecord (scale : LogScale K) (first : Sample K) (rest : List (Sample K)) :
    CrossingRecord K :=
  let thresholdDb := first.magnitudeDb - (3 : ℕ)
  crossingRecord (fallingCrossings scale (first :: rest) thresholdDb) thresholdDb

/-- The points the interpolation joins: the magnitude over the logarithm of the frequency. -/
def logPoints (scale : LogScale K) (samples : List (Sample K)) : List (K × K) :=
  samples.map fun s => (scale.log10 s.frequency, s.magnitudeDb)

structure IsTrace (samples : List (Sample K)) : Prop where
  increasing : samples.Pairwise fun s t => s.frequency < t.frequency
  positive : ∀ s ∈ samples.head?, 0 < s.frequency

variable {scale : LogScale K} {thresholdDb : K} {p q first : Sample K} {samples rest : List (Sample K)}

theorem IsTrace.pos (h : IsTrace samples) : ∀ s ∈ samples, 0 < s.frequency := by
  intro s hs
  cases samples with
  | nil => cases hs
  | cons first rest =>
    have hfirst := h.positive first rfl
    rcases List.mem_cons.mp hs with rfl | hs
    · exact hfirst
    · exact hfirst.trans (List.rel_of_pairwise_cons h.increasing hs)

theorem IsTrace.logPoints (h : IsTrace samples) : Increasing (logPoints scale samples) := by
  apply List.pairwise_map.mpr
  apply h.increasing.imp_of_mem
  intro s t hs _ hlt
  exact scale.log10_lt _ _ (h.pos s hs) hlt

theorem fallingCrossings_cons_cons : fallingCrossings scale (p :: q :: rest) thresholdDb =
    (crossingOf scale thresholdDb (p, q)).toList ++
      fallingCrossings scale (q :: rest) thresholdDb := by
  unfold fallingCrossings
  rw [segments_cons_cons, List.filterMap_cons]
  cases crossingOf scale thresholdDb (p, q) with
  | none => rfl
  | some c => rfl

theorem mem_fallingCrossings {c : Crossing K} :
    c ∈ fallingCrossings scale samples thresholdDb ↔
      ∃ p q, (p, q) ∈ segments samples ∧ crossingOf scale thresholdDb (p, q) = some c := by
  unfold fallingCrossings
  rw [List.mem_filterMap, Prod.exists]

theorem log10_crossing {c : Crossing K} (h : crossingOf scale thresholdDb (p, q) = some c) :
    scale.log10 c.frequencyHz = timeAt thresholdDb (scale.log10 p.frequency, p.magnitudeDb)
      (scale.log10 q.frequency, q.magnitudeDb) := by
  simp only [crossingOf, Option.ite_none_right_eq_some, Option.some.injEq] at h
  obtain ⟨-, rfl⟩ := h
  rw [scale.log10_pow10, timeAt, fraction, div_mul_eq_mul_div]

variable [IsStrictOrderedRing K]

/-- On the logarithmic axis the crossings are the places where the turned signal passes the turned
threshold upwards. -/
theorem fallingCrossings_times (scale : LogScale K) (thresholdDb : K) (samples : List (Sample K)) :
    (fallingCrossings scale samples thresholdDb).map (fun c => scale.log10 c.frequencyHz) =
      risingTimes (-thresholdDb) (mirrored (logPoints scale samples)) := by
  induction samples with
  | nil => rfl
  | cons p rest ih =>
    cases rest with
    | nil => rfl
    | cons q rest =>
      have hsplit : mirrored (logPoints scale (p :: q :: rest)) =
          (scale.log10 p.frequency, -p.magnitudeDb) :: (scale.log10 q.frequency, -q.magnitudeDb) ::
            mirrored (logPoints scale rest) := rfl
      have htail : mirrored (logPoints scale (q :: rest)) =
          (scale.log10 q.frequency, -q.magnitudeDb) :: mirrored (logPoints scale rest) := rfl
      rw [htail] at ih
      rw [fallingCrossings_cons_cons, List.map_append, ih, hsplit, risingTimes_cons_cons]
      have hrises : Rises (-thresholdDb) ((scale.log10 p.frequency, -p.magnitudeDb),
          (scale.log10 q.frequency, -q.magnitudeDb)) ↔
            thresholdDb < p.magnitudeDb ∧ q.magnitudeDb ≤ thresholdDb := by
        simp only [Rises, neg_lt_neg_iff, neg_le_neg_iff]
      by_cases hfall : thresholdDb < p.magnitudeDb ∧ q.magnitudeDb ≤ thresholdDb
      · obtain ⟨c, hc⟩ : ∃ c, crossingOf scale thresholdDb (p, q) = some c :=
          ⟨_, if_pos hfall⟩
        have htime := timeAt_mirrored thresholdDb (scale.log10 p.frequency, p.magnitudeDb)
          (scale.log10 q.frequency, q.magnitudeDb)
        rw [if_pos (hrises.mpr hfall), hc, htime, ← log10_crossing hc]
        rfl
      · have hc : crossingOf scale thresholdDb (p, q) = none := if_neg hfall
        rw [if_neg fun h => hfall (hrises.mp h), hc]
        rfl

theorem crossingOf_spec {c : Crossing K} (hp : 0 < p.frequency) (hlt : p.frequency < q.frequency)
    (h : crossingOf scale thresholdDb (p, q) = some c) :
    0 < fraction thresholdDb p q ∧ fraction thresholdDb p q ≤ 1 ∧
      p.frequency < c.frequencyHz ∧ c.frequencyHz ≤ q.frequency ∧
      lerp (scale.log10 p.frequency, p.magnitudeDb) (scale.log10 q.frequency, q.magnitudeDb)
        (scale.log10 c.frequencyHz) = c.magnitudeDb := by
  have htime := log10_crossing h
  simp only [crossingOf, Option.ite_none_right_eq_some, Option.some.injEq] at h
  obtain ⟨⟨habove, hbelow⟩, rfl⟩ := h
  have hlog : scale.log10 p.frequency < scale.log10 q.frequency := scale.log10_lt _ _ hp hlt
  have hfall : q.magnitudeDb - p.magnitudeDb < 0 := sub_neg.mpr (hbelow.trans_lt habove)
  have hpos : 0 < fraction thresholdDb p q := div_pos_of_neg_of_neg (sub_neg.mpr habove) hfall
  have hle : fraction thresholdDb p q ≤ 1 := by
    rw [fraction, div_le_one_of_neg hfall]
    exact sub_le_sub_right hbelow _
  have hwidth := sub_pos.mpr hlog
  refine ⟨hpos, hle, ?_, ?_, ?_⟩
  · calc p.frequency = scale.pow10 (scale.log10 p.frequency) := (scale.pow10_log10 _ hp).symm
      _ < _ := scale.pow10_lt _ _ (lt_add_of_pos_right _ (mul_pos hpos hwidth))
  · have hmono : StrictMono scale.pow10 := fun _ _ hab => scale.pow10_lt _ _ hab
    refine (hmono.monotone ?_).trans_eq (scale.pow10_log10 _ (hp.trans hlt))
    have hpart := mul_le_of_le_one_left hwidth.le hle
    linarith
  · rw [htime]
    exact lerp_timeAt hlog (hbelow.trans_lt habove).ne'

omit [IsStrictOrderedRing K] in
/-- Under a first sample above the threshold there is no crossing only if no later one falls. -/
theorem fallingCrossings_eq_nil_iff (habove : thresholdDb < first.magnitudeDb) :
    fallingCrossings scale (first :: rest) thresholdDb = [] ↔
      ∀ s ∈ rest, thresholdDb < s.magnitudeDb := by
  induction rest generalizing first with
  | nil =>
    constructor
    · intro _ s hs
      cases hs
    · intro _
      rfl
  | cons q rest ih =>
    rw [fallingCrossings_cons_cons, List.append_eq_nil_iff, List.forall_mem_cons]
    rcases le_or_gt q.magnitudeDb thresholdDb with hfall | hstay
    · have hc : crossingOf scale thresholdDb (first, q) ≠ none := by
        simp [crossingOf, habove, hfall]
      simp [hc, not_lt.mpr hfall]
    · have hc : crossingOf scale thresholdDb (first, q) = none :=
        if_neg fun h => absurd h.2 (not_le.mpr hstay)
      rw [hc, ih hstay]
      simp [hstay]

/-- What the crossings of a trace are: in order, inside their segments, on the threshold, and
missing only where no sample falls to it. -/
structure AreCrossings (scale : LogScale K) (samples : List (Sample K)) (thresholdDb : K)
    (crossings : List (Crossing K)) : Prop where
  ordered : crossings.Pairwise fun c d => c.frequencyHz < d.frequencyHz
  inside : ∀ c ∈ crossings, ∃ p q, (p, q) ∈ segments samples ∧ 0 < fraction thresholdDb p q ∧
    fraction thresholdDb p q ≤ 1 ∧ p.frequency < c.frequencyHz ∧ c.frequencyHz ≤ q.frequency
  complete : ∀ p q, (p, q) ∈ segments samples → thresholdDb < p.magnitudeDb →
    q.magnitudeDb ≤ thresholdDb →
      ∃ c ∈ crossings, p.frequency < c.frequencyHz ∧ c.frequencyHz ≤ q.frequency
  onThreshold : ∀ c ∈ crossings, c.magnitudeDb = thresholdDb ∧
    signal (logPoints scale samples) (scale.log10 c.frequencyHz) = thresholdDb

omit [IsStrictOrderedRing K] in
theorem IsTrace.segment_lt (h : IsTrace samples) (hmem : (p, q) ∈ segments samples) :
    0 < p.frequency ∧ p.frequency < q.frequency := by
  refine ⟨h.pos p (mem_of_mem_segments hmem).1, ?_⟩
  have hpoints : ((p.frequency, p.magnitudeDb), (q.frequency, q.magnitudeDb)) ∈
      segments (samples.map fun s => (s.frequency, s.magnitudeDb)) := by
    rw [segments_map]
    exact List.mem_map.mpr ⟨(p, q), hmem, rfl⟩
  exact Increasing.segment_lt (List.pairwise_map.mpr h.increasing) hpoints

theorem fallingCrossings_spec (h : IsTrace samples) (scale : LogScale K) (thresholdDb : K) :
    AreCrossings scale samples thresholdDb (fallingCrossings scale samples thresholdDb) := by
  have hlogs : Increasing (logPoints scale samples) := h.logPoints
  constructor
  · have hsorted : (risingTimes (-thresholdDb) (mirrored (logPoints scale samples))).Pairwise
        (· < ·) := (risingTimes_sorted hlogs.mirrored).1
    rw [← fallingCrossings_times, List.pairwise_map] at hsorted
    apply hsorted.imp_of_mem
    intro c d hc hd hlt
    obtain ⟨p, q, hpq, hcross⟩ := mem_fallingCrossings.mp hc
    obtain ⟨r, s, hrs, hcrossD⟩ := mem_fallingCrossings.mp hd
    have hposC := (h.segment_lt hpq).1.trans
      (crossingOf_spec (h.segment_lt hpq).1 (h.segment_lt hpq).2 hcross).2.2.1
    have hposD := (h.segment_lt hrs).1.trans
      (crossingOf_spec (h.segment_lt hrs).1 (h.segment_lt hrs).2 hcrossD).2.2.1
    calc c.frequencyHz = scale.pow10 (scale.log10 c.frequencyHz) :=
          (scale.pow10_log10 _ hposC).symm
      _ < scale.pow10 (scale.log10 d.frequencyHz) := scale.pow10_lt _ _ hlt
      _ = d.frequencyHz := scale.pow10_log10 _ hposD
  · intro c hc
    obtain ⟨p, q, hpq, hcross⟩ := mem_fallingCrossings.mp hc
    obtain ⟨hp, hlt⟩ := h.segment_lt hpq
    obtain ⟨hpos, hle, hleft, hright, -⟩ := crossingOf_spec hp hlt hcross
    exact ⟨p, q, hpq, hpos, hle, hleft, hright⟩
  · intro p q hpq habove hbelow
    obtain ⟨hp, hlt⟩ := h.segment_lt hpq
    obtain ⟨c, hc⟩ : ∃ c, crossingOf scale thresholdDb (p, q) = some c :=
      ⟨_, if_pos ⟨habove, hbelow⟩⟩
    obtain ⟨-, -, hleft, hright, -⟩ := crossingOf_spec hp hlt hc
    exact ⟨c, mem_fallingCrossings.mpr ⟨p, q, hpq, hc⟩, hleft, hright⟩
  · intro c hc
    obtain ⟨p, q, hpq, hcross⟩ := mem_fallingCrossings.mp hc
    obtain ⟨hp, hlt⟩ := h.segment_lt hpq
    obtain ⟨-, -, hleft, hright, hline⟩ := crossingOf_spec hp hlt hcross
    have hmagnitude : c.magnitudeDb = thresholdDb := by
      simp only [crossingOf, Option.ite_none_right_eq_some, Option.some.injEq] at hcross
      obtain ⟨-, rfl⟩ := hcross
      rfl
    have hlogMem : ((scale.log10 p.frequency, p.magnitudeDb),
        (scale.log10 q.frequency, q.magnitudeDb)) ∈ segments (logPoints scale samples) := by
      unfold logPoints
      rw [segments_map]
      exact List.mem_map.mpr ⟨(p, q), hpq, rfl⟩
    have hafter : scale.log10 p.frequency ≤ scale.log10 c.frequencyHz :=
      (scale.log10_lt _ _ hp hleft).le
    have hbefore : scale.log10 c.frequencyHz ≤ scale.log10 q.frequency := by
      rcases eq_or_lt_of_le hright with heq | hlt
      · rw [heq]
      · exact (scale.log10_lt _ _ (hp.trans hleft) hlt).le
    rw [signal_eq_lerp hlogs hlogMem hafter hbefore, hline]
    exact ⟨hmagnitude, hmagnitude⟩

omit [Field K] [LinearOrder K] [IsStrictOrderedRing K] in
theorem crossingRecord_notFound {crossings : List (Crossing K)} :
    (crossingRecord crossings thresholdDb).status = .notFound ↔ crossings = [] := by
  unfold crossingRecord
  cases crossings with
  | nil => simp
  | cons c rest =>
    dsimp only
    split <;> simp

/-- The crossings of a trace on every threshold are its passages downwards, and the bandwidth is
not found only when no later sample lies three decibels under the first. -/
theorem fallingCrossings_correct (scale : LogScale K) (first : Sample K) (rest : List (Sample K))
    (h : IsTrace (first :: rest)) :
    (∀ thresholdDb, AreCrossings scale (first :: rest) thresholdDb
        (fallingCrossings scale (first :: rest) thresholdDb)) ∧
      (∀ thresholdDb < first.magnitudeDb,
        (crossingRecord (fallingCrossings scale (first :: rest) thresholdDb) thresholdDb).status =
            .notFound ↔ ∀ s ∈ rest, thresholdDb < s.magnitudeDb) ∧
      ((bandwidthRecord scale first rest).status = .notFound ↔
        ∀ s ∈ rest, first.magnitudeDb - 3 < s.magnitudeDb) ∧
      AreCrossings scale (first :: rest) (first.magnitudeDb - 3)
        (bandwidthRecord scale first rest).candidates := by
  have hbelow : first.magnitudeDb - 3 < first.magnitudeDb := sub_lt_self _ (by norm_num)
  refine ⟨fun thresholdDb => fallingCrossings_spec h scale thresholdDb, fun thresholdDb habove => ?_,
    ?_, fallingCrossings_spec h scale _⟩
  · rw [crossingRecord_notFound, fallingCrossings_eq_nil_iff habove]
  · rw [bandwidthRecord, Nat.cast_ofNat, crossingRecord_notFound,
      fallingCrossings_eq_nil_iff hbelow]

noncomputable def realScale : LogScale ℝ where
  log10 := Real.logb (10 : ℕ)
  pow10 x := ((10 : ℕ) : ℝ) ^ x
  log10_lt _ _ ha hab := Real.logb_lt_logb (by norm_num) ha hab
  pow10_lt _ _ hab := Real.rpow_lt_rpow_of_exponent_lt (by norm_num) hab
  log10_pow10 _ := Real.logb_rpow (by norm_num) (by norm_num)
  pow10_log10 _ ha := Real.rpow_logb (by norm_num) (by norm_num) ha

theorem fallingCrossings_decade :
    (bandwidthRecord realScale (Sample.mk 1 0 0) [Sample.mk 10 (-6) (-90)]).status ≠ .notFound ∧
      AreCrossings realScale [Sample.mk 1 0 0, Sample.mk 10 (-6) (-90)] (-3)
        (fallingCrossings realScale [Sample.mk 1 0 0, Sample.mk 10 (-6) (-90)] (-3)) := by
  have htrace : IsTrace [Sample.mk (1 : ℝ) 0 0, Sample.mk 10 (-6) (-90)] := by
    constructor
    · simp
    · simp
  obtain ⟨hall, -, hbandwidth, -⟩ := fallingCrossings_correct realScale _ _ htrace
  refine ⟨fun h => ?_, hall (-3)⟩
  have hlater := hbandwidth.mp h _ (List.mem_singleton_self _)
  norm_num at hlater

end Crossings

end OpenADA.Transfer
