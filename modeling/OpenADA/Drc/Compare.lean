import OpenADA.Drc.Markers
import OpenADA.Library.GreedyMatching
import OpenADA.Library.KeyedPartition
import OpenADA.Library.PyDecimal
import Mathlib.Analysis.SpecialFunctions.Sqrt

/-! The comparison of two DRC reports: markers with one fingerprint persist, the others are resolved
or introduced, and resolved ones are matched with introduced ones nearby. -/
namespace OpenADA.Drc

open GreedyMatching KeyedPartition

/-- A marker up to rounding: its box in multiples of `1e-9`. -/
structure Fingerprint where
  category : String
  cell : String
  left : ℤ
  bottom : ℤ
  right : ℤ
  top : ℤ
  waived : Bool
  deriving DecidableEq

/-- `round(value, 9)`, as a multiple of `1e-9`. -/
def quantise (value : ℚ) : ℤ := PyDecimal.roundHalfEven (value * 1000000000)

/-- `_fingerprint`. -/
def fingerprint (marker : Marker) : Fingerprint where
  category := marker.category
  cell := marker.cell
  left := quantise marker.box.left
  bottom := quantise marker.box.bottom
  right := quantise marker.box.right
  top := quantise marker.box.top
  waived := marker.waived

def Fingerprint.tuple (f : Fingerprint) : String ×ₗ String ×ₗ ℤ ×ₗ ℤ ×ₗ ℤ ×ₗ ℤ ×ₗ Bool :=
  toLex (f.category, toLex (f.cell, toLex (f.left, toLex (f.bottom, toLex (f.right,
    toLex (f.top, f.waived))))))

theorem Fingerprint.tuple_injective : Function.Injective Fingerprint.tuple := by
  rintro ⟨category, cell, left, bottom, right, top, waived⟩
    ⟨category', cell', left', bottom', right', top', waived'⟩ h
  simp only [Fingerprint.tuple, EmbeddingLike.apply_eq_iff_eq, Prod.mk.injEq] at h
  obtain ⟨rfl, rfl, rfl, rfl, rfl, rfl, rfl⟩ := h
  rfl

/-- `sorted(keys)`. -/
def sortedKeys (keys : List Fingerprint) : List Fingerprint :=
  keys.insertionSort fun a b => a.tuple ≤ b.tuple

/-- The bound on `distance_um`, which the request gives. -/
structure Tolerance where
  um : ℚ
  nonneg : 0 ≤ um
  le_ten : um ≤ 10

def squaredDistance (first second : Box) : ℚ :=
  ((first.left + first.right) / 2 - (second.left + second.right) / 2) ^ 2 +
    ((first.bottom + first.top) / 2 - (second.bottom + second.top) / 2) ^ 2

def sameCell (first second : Marker) : Bool := decide (first.cell = second.cell)

/-- The square of `_distance`. -/
def markerDistance (first second : Marker) : ℚ := squaredDistance first.box second.box

/-- The matched pairs of `_spatial_correlations`. Distances are compared by their squares. -/
def spatialPairs (baseline candidate : List Marker) (tolerance : Tolerance) :
    List (Marker × Marker × ℕ) :=
  greedy sameCell markerDistance (tolerance.um ^ 2) candidate.zipIdx [] baseline

structure Correlation where
  cell : String
  squaredDistance : ℚ
  baselineCategory : String
  candidateCategory : String
  sameCategory : Bool
  baselineBox : Box
  candidateBox : Box
  deriving DecidableEq

def correlation (pair : Marker × Marker × ℕ) : Correlation where
  cell := pair.1.cell
  squaredDistance := squaredDistance pair.1.box pair.2.1.box
  baselineCategory := pair.1.category
  candidateCategory := pair.2.1.category
  sameCategory := decide (pair.1.category = pair.2.1.category)
  baselineBox := pair.1.box
  candidateBox := pair.2.1.box

/-- `_record`, without the diagnosis. -/
structure MarkerRecord where
  category : String
  cell : String
  box : Box
  waived : Bool
  multiplicity : ℕ
  deriving DecidableEq

def record (marker : Marker) : MarkerRecord :=
  ⟨marker.category, marker.cell, marker.box, marker.waived, marker.multiplicity⟩

structure BoundedExamples where
  baseline : ℕ
  candidate : ℕ
  persistent : List MarkerRecord
  resolved : List MarkerRecord
  introduced : List MarkerRecord
  spatialCorrelations : List Correlation
  spatialTolerance : ℚ
  deriving DecidableEq

section Partition

variable (baseline candidate : List Marker)

def persistentKeys : List Fingerprint :=
  sortedKeys ((byKey fingerprint baseline).keys.filter
    fun key => decide (key ∈ (byKey fingerprint candidate).keys))

def ownKeys : List Fingerprint :=
  sortedKeys ((byKey fingerprint baseline).keys.filter
    fun key => !decide (key ∈ (byKey fingerprint candidate).keys))

def persistent : List Marker := stored (byKey fingerprint baseline) (persistentKeys baseline candidate)

def resolved : List Marker := stored (byKey fingerprint baseline) (ownKeys baseline candidate)

def introduced : List Marker := stored (byKey fingerprint candidate) (ownKeys candidate baseline)

def compareMarkers (tolerance : Tolerance) : BoundedExamples where
  baseline := baseline.length
  candidate := candidate.length
  persistent := (persistent baseline candidate).map record
  resolved := (resolved baseline candidate).map record
  introduced := (introduced baseline candidate).map record
  spatialCorrelations := (spatialPairs (resolved baseline candidate) (introduced baseline candidate)
    tolerance).map correlation
  spatialTolerance := tolerance.um

end Partition

section Claims

noncomputable def distance (first second : Box) : ℝ := √(squaredDistance first second : ℝ)

/-- Every marker of a report either persists, and is then found under a fingerprint that both
reports have, or is among those of this report only. -/
def NothingLost (markers other : List Marker) : Prop :=
  (stored (byKey fingerprint markers) (persistentKeys markers other) ++
    stored (byKey fingerprint markers) (ownKeys markers other)).Perm markers

/-- A one-to-one matching of markers of one cell that are near enough, to which no pair can be
added. -/
structure MaximalMatching (baseline candidate : List Marker) (tolerance : Tolerance)
    (pairs : List (Marker × Marker × ℕ)) : Prop where
  first_sublist : (pairs.map Prod.fst).Sublist baseline
  second_nodup : (pairs.map fun pair => pair.2.2).Nodup
  second_mem : ∀ pair ∈ pairs, candidate[pair.2.2]? = some pair.2.1
  near : ∀ pair ∈ pairs, pair.1.cell = pair.2.1.cell ∧
    distance pair.1.box pair.2.1.box ≤ tolerance.um
  maximal : ∀ first ∈ baseline, ∀ index second, candidate[index]? = some second →
    first.cell = second.cell → distance first.box second.box ≤ tolerance.um →
      first ∈ pairs.map Prod.fst ∨ index ∈ pairs.map fun pair => pair.2.2

/-- The comparison of two reports loses no marker, is dual under swapping them, and correlates by a
maximal matching. -/
structure ComparesExactly (baseline candidate : List Marker) (tolerance : Tolerance) : Prop where
  baseline_kept : NothingLost baseline candidate
  candidate_kept : NothingLost candidate baseline
  swap_resolved : resolved candidate baseline = introduced baseline candidate
  swap_introduced : introduced candidate baseline = resolved baseline candidate
  swap_persistent : persistentKeys candidate baseline = persistentKeys baseline candidate
  matching : MaximalMatching (resolved baseline candidate) (introduced baseline candidate) tolerance
    (spatialPairs (resolved baseline candidate) (introduced baseline candidate) tolerance)

/-- Markers of one report that agree in category, cell, waiver and rounded box have one box. -/
def RoundsApart (markers : List Marker) : Prop :=
  ∀ a ∈ markers, ∀ b ∈ markers, fingerprint a = fingerprint b → a.box = b.box

end Claims

section Keys

theorem sortedKeys_perm (keys : List Fingerprint) : (sortedKeys keys).Perm keys :=
  List.perm_insertionSort _ keys

instance fingerprintTotal : Std.Total fun a b : Fingerprint => a.tuple ≤ b.tuple :=
  ⟨fun a b => le_total a.tuple b.tuple⟩

instance fingerprintTrans : IsTrans Fingerprint fun a b => a.tuple ≤ b.tuple :=
  ⟨fun _ _ _ h h' => le_trans h h'⟩

theorem sortedKeys_congr {keys keys' : List Fingerprint} (h : keys.Perm keys') :
    sortedKeys keys = sortedKeys keys' :=
  List.Perm.eq_of_pairwise
    (fun _ _ _ _ h₁ h₂ => Fingerprint.tuple_injective (le_antisymm h₁ h₂))
    (List.pairwise_insertionSort _ _) (List.pairwise_insertionSort _ _)
    (((sortedKeys_perm keys).trans h).trans (sortedKeys_perm keys').symm)

theorem persistentKeys_swap (baseline candidate : List Marker) :
    persistentKeys candidate baseline = persistentKeys baseline candidate := by
  apply sortedKeys_congr
  refine (List.perm_ext_iff_of_nodup ((InsertionDict.keys_nodup _).filter _)
    ((InsertionDict.keys_nodup _).filter _)).mpr fun key => ?_
  rw [List.mem_filter, List.mem_filter, decide_eq_true_eq, decide_eq_true_eq]
  exact And.comm

theorem nothingLost_iff (markers other : List Marker) :
    NothingLost markers other ↔ (markers.map fingerprint).Nodup := by
  have hparts := stored_partition (d := byKey fingerprint markers)
    (p := fun key => decide (key ∈ (byKey fingerprint other).keys))
    (sortedKeys_perm _) (sortedKeys_perm _)
  rw [← entries_byKey_perm]
  exact ⟨fun h => hparts.symm.trans h, fun h => hparts.trans h⟩

end Keys

section Matching

theorem distance_le_iff (first second : Box) (tolerance : Tolerance) :
    distance first second ≤ tolerance.um ↔ squaredDistance first second ≤ tolerance.um ^ 2 := by
  have hnonneg : (0 : ℝ) ≤ tolerance.um := by exact_mod_cast tolerance.nonneg
  rw [distance, Real.sqrt_le_iff, and_iff_right hnonneg]
  exact_mod_cast Iff.rfl

theorem spatialPairs_maximal (baseline candidate : List Marker) (tolerance : Tolerance) :
    MaximalMatching baseline candidate tolerance (spatialPairs baseline candidate tolerance) where
  first_sublist := greedy_sublist [] baseline
  second_nodup := greedy_nodup [] baseline
  second_mem := fun _ h => List.mk_mem_zipIdx_iff_getElem?.mp (greedy_sound h).2.1
  near := by
    intro pair h
    obtain ⟨-, -, -, hcell, hcost⟩ := greedy_sound h
    exact ⟨of_decide_eq_true hcell, (distance_le_iff _ _ _).mpr hcost⟩
  maximal := by
    intro first hfirst index second hsecond hcell hnear
    have hsame : sameCell first second = true := decide_eq_true hcell
    have hcost : markerDistance first second ≤ tolerance.um ^ 2 :=
      (distance_le_iff _ _ _).mp hnear
    have hpool : (second, index) ∈ candidate.zipIdx := List.mk_mem_zipIdx_iff_getElem?.mpr hsecond
    rcases greedy_maximal hfirst hpool hsame hcost with h | h | h
    · exact .inl h
    · exact absurd h List.not_mem_nil
    · exact .inr h

end Matching

/-- The markers of one report have distinct fingerprints exactly where rounding keeps their boxes
apart. -/
theorem nodup_fingerprints_iff (violations : List Violation) :
    ((markerExamples violations).map fingerprint).Nodup ↔
      RoundsApart (markerExamples violations) := by
  have hkeys := markerExamples_keys violations
  have hmarkers : (markerExamples violations).Nodup := hkeys.of_map _
  rw [List.nodup_map_iff_inj_on hmarkers]
  refine forall₄_congr fun a ha b hb => imp_congr_right fun h => ?_
  constructor
  · rintro rfl
    rfl
  · intro hbox
    refine List.inj_on_of_nodup_map hkeys ha hb ?_
    obtain ⟨hcategory, hcell, -, -, -, -, hwaived⟩ := Fingerprint.mk.inj h
    rw [Marker.key, Marker.key, hcategory, hcell, hbox, hwaived]

/-- For two reports and a tolerance, the comparison is exact if and only if rounding keeps the
markers of each report apart. -/
theorem comparesExactly_iff (baseline candidate : List Violation) (tolerance : Tolerance) :
    ComparesExactly (markerExamples baseline) (markerExamples candidate) tolerance ↔
      RoundsApart (markerExamples baseline) ∧ RoundsApart (markerExamples candidate) := by
  rw [← nodup_fingerprints_iff, ← nodup_fingerprints_iff]
  constructor
  · intro h
    exact ⟨(nothingLost_iff _ _).mp h.baseline_kept, (nothingLost_iff _ _).mp h.candidate_kept⟩
  · rintro ⟨hbaseline, hcandidate⟩
    exact ⟨(nothingLost_iff _ _).mpr hbaseline, (nothingLost_iff _ _).mpr hcandidate, rfl, rfl,
      persistentKeys_swap _ _, spatialPairs_maximal _ _ _⟩

/-- Two spacing markers of one cell whose right edges differ by a tenth of the quantum. -/
def nearBoxes : List Violation :=
  [⟨"M1.S", "TOP", "spacing", false, 1, [.box 0 0 1 1, .box 0 0 (10000000001 / 10000000000) 1]⟩]

/-- Of two boxes that round alike one is dropped: two markers are counted, one is listed. -/
theorem nearBoxes_lost : ¬ComparesExactly (markerExamples nearBoxes) (markerExamples []) ⟨1 / 1000,
    by norm_num, by norm_num⟩ ∧
    (compareMarkers (markerExamples nearBoxes) (markerExamples []) ⟨1 / 1000, by norm_num,
      by norm_num⟩).baseline = 2 ∧
    (resolved (markerExamples nearBoxes) (markerExamples [])).length = 1 := by
  refine ⟨fun h => ?_, by decide +kernel, by decide +kernel⟩
  have hlength := h.baseline_kept.length_eq
  revert hlength
  decide +kernel

end OpenADA.Drc
