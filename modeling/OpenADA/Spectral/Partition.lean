import OpenADA.Library.ExceptFold
import OpenADA.Library.SortedSet
import OpenADA.Spectral.Transform
import Mathlib.Analysis.SpecialFunctions.Log.Base
import Mathlib.Data.Prod.Lex

/-! The partition of the bins of a spectral measurement, with frequencies and powers in exact
arithmetic. -/
namespace OpenADA.Spectral

open Tabulated

inductive Rejection where
  | requestInvalid
  | recordLengthMismatch
  | methodUnsupported
  | overLimit
  | bandInvalid
  | fundamentalInvalid
  | acquisitionInvalid
  | samplingNonUniform
  | coherenceNotEstablished
  | harmonicCollision
  | valueNonFinite
  | indexError
  deriving DecidableEq

structure RawRequest where
  dftLength : ℤ
  uniformityTolerance : ℚ
  coherentTolerance : ℚ
  lower : ℚ
  upper : ℚ
  fundamental : ℚ
  orders : List ℤ

structure Request where
  dftLength : ℕ
  uniformityTolerance : ℚ
  coherentTolerance : ℚ
  lower : ℚ
  upper : ℚ
  fundamental : ℚ
  orders : List ℕ

def maxFftPoints : ℕ := 65536

def maxHarmonicOrder : ℕ := 64

/-- `_integer` -/
def integer (value : ℤ) (minimum maximum : ℕ) : Except Rejection ℕ :=
  if minimum ≤ value ∧ value ≤ maximum then .ok value.toNat else .error .requestInvalid

/-- `_normalize_request` -/
def normalizeRequest (request : RawRequest) (pointCount : ℕ) : Except Rejection Request := do
  let dftLength ← integer request.dftLength 8 maxFftPoints
  if dftLength ≠ pointCount then .error .recordLengthMismatch
  else if dftLength &&& (dftLength - 1) ≠ 0 then .error .methodUnsupported
  else if ¬(0 ≤ request.uniformityTolerance ∧ request.uniformityTolerance ≤ 1 / 1000) then
    .error .requestInvalid
  else if ¬(0 ≤ request.coherentTolerance ∧ request.coherentTolerance ≤ 1 / 1000000) then
    .error .requestInvalid
  else if request.lower < 0 ∨ request.upper ≤ request.lower then .error .bandInvalid
  else if request.fundamental ≤ 0 then .error .fundamentalInvalid
  else if maxHarmonicOrder - 1 < request.orders.length then .error .overLimit
  else do
    let orders ← request.orders.mapM fun item => integer item 2 maxHarmonicOrder
    if orders ≠ orders.toFinset.sortedList then .error .requestInvalid
    else .ok ⟨dftLength, request.uniformityTolerance, request.coherentTolerance, request.lower,
      request.upper, request.fundamental, orders⟩

def samplingInterval (axis : List ℚ) (tolerance : ℚ) : Except Rejection ℚ :=
  if axis.length < 2 then .error .acquisitionInvalid
  else
    let interval := (axis.getLastD 0 - axis.headD 0) / (axis.length - 1)
    let errors := axis.zipWith (fun left right => |right - left - interval| / interval) axis.tail
    if interval ≤ 0 then .error .acquisitionInvalid
    else if tolerance < errors.max?.getD 0 then .error .samplingNonUniform
    else .ok interval

/-- `_fold_frequency` -/
def foldFrequency (frequency sampleRate : ℚ) : ℚ :=
  let wrapped := frequency - sampleRate * ⌊frequency / sampleRate⌋
  min wrapped (sampleRate - wrapped)

/-- `_nearest_bin`, of a frequency that is not negative. -/
def nearestBin (frequency binWidth tolerance : ℚ) : Except Rejection ℕ :=
  let coordinate := frequency / binWidth
  let index := ⌊coordinate + 1 / 2⌋₊
  if tolerance < |coordinate - index| then .error .coherenceNotEstablished else .ok index

def Request.inBand (request : Request) (frequency : ℚ) : Prop :=
  request.lower ≤ frequency ∧ frequency ≤ request.upper

instance (request : Request) (frequency : ℚ) : Decidable (request.inBand frequency) :=
  inferInstanceAs (Decidable (_ ∧ _))

/-- The bin of the declared fundamental, above DC and below the Nyquist bin. -/
def fundamentalBin (request : Request) (count : ℕ) (binWidth : ℚ) : Except Rejection ℕ := do
  let index ← nearestBin request.fundamental binWidth request.coherentTolerance
  if index = 0 ∨ count / 2 ≤ index then .error .fundamentalInvalid
  else if ¬request.inBand (index * binWidth) then .error .fundamentalInvalid
  else .ok index

def bandBins (request : Request) (count : ℕ) (binWidth : ℚ) : Finset ℕ :=
  (Finset.range (count / 2 + 1)).filter fun index => request.inBand (index * binWidth)

section Bins

variable {K : Type} [Field K] [LinearOrder K]

structure Harmonic (K : Type) where
  order : ℕ
  sourceFrequency : ℚ
  foldedFrequency : ℚ
  bin : ℕ
  included : Bool
  power : Option K

structure HarmonicState (K : Type) where
  occupied : Finset ℕ
  harmonicBins : Finset ℕ
  records : List (Harmonic K)

structure Grid (K : Type) where
  sampleRate : ℚ
  binWidth : ℚ
  tolerance : ℚ
  fundamental : ℕ
  band : Finset ℕ
  powers : List K

def harmonicStep (grid : Grid K) (state : HarmonicState K) (order : ℕ) :
    Except Rejection (HarmonicState K) := do
  let sourceFrequency := order * (grid.fundamental * grid.binWidth)
  let foldedFrequency := foldFrequency sourceFrequency grid.sampleRate
  let index ← nearestBin foldedFrequency grid.binWidth grid.tolerance
  if index ∈ state.occupied ∨ index = 0 then .error .harmonicCollision
  else
    let included := decide (index ∈ grid.band)
    .ok
      { occupied := insert index state.occupied
        harmonicBins := if included then insert index state.harmonicBins else state.harmonicBins
        records := state.records ++ [
          { order
            sourceFrequency
            foldedFrequency
            bin := index
            included
            power := if included then grid.powers[index]? else none }] }

structure Analysis (K : Type) where
  grid : Grid K
  harmonicBins : Finset ℕ
  harmonics : List (Harmonic K)

def harmonicLoop (grid : Grid K) (orders : List ℕ) : Except Rejection (Analysis K) := do
  let state ← orders.foldlM (harmonicStep grid) ⟨{grid.fundamental}, ∅, []⟩
  .ok ⟨grid, state.harmonicBins, state.records⟩

namespace Analysis

variable (analysis : Analysis K)

def dcBins : Finset ℕ := {0} ∩ analysis.grid.band

def residualBins : Finset ℕ :=
  (analysis.grid.band \ analysis.dcBins) \ {analysis.grid.fundamental}

def noiseBins : Finset ℕ := analysis.residualBins \ analysis.harmonicBins

def powerAt (index : ℕ) : K := analysis.grid.powers.getD index 0

/-- `math.fsum` over the bins of a set, in their order. -/
def powerOf (bins : Finset ℕ) : K := (bins.sortedList.map analysis.powerAt).sum

def fundamentalPower : K := analysis.powerAt analysis.grid.fundamental

def harmonicPower : K := analysis.powerOf analysis.harmonicBins

def residualPower : K := analysis.powerOf analysis.residualBins

def noisePower : K := analysis.powerOf analysis.noiseBins

/-- The bin of the residual with the greatest power, the first of several. -/
def winningSpurBin : Option ℕ :=
  analysis.residualBins.sortedList.argmin fun index =>
    toLex (OrderDual.toDual (analysis.powerAt index), index)

def winningSpurPower : K := (analysis.winningSpurBin.map analysis.powerAt).getD 0

end Analysis

inductive Metric where
  | snr
  | sinad
  | thd
  | sfdr

def Analysis.denominator (analysis : Analysis K) : Metric → K
  | .snr => analysis.noisePower
  | .sinad => analysis.residualPower
  | .thd => analysis.fundamentalPower
  | .sfdr => analysis.winningSpurPower

def Analysis.numerator (analysis : Analysis K) : Metric → K
  | .thd => analysis.harmonicPower
  | _ => analysis.fundamentalPower

end Bins

inductive Reading where
  | notFound
  | unbounded
  | measured (value : ℝ)

noncomputable section

def Analysis.reading (analysis : Analysis ℝ) (metric : Metric) : Reading :=
  if analysis.fundamentalPower ≤ 0 then .notFound
  else if analysis.numerator metric ≤ 0 ∨ analysis.denominator metric ≤ 0 then .unbounded
  else .measured ((10 : ℕ) *
    Real.logb (10 : ℕ) (analysis.numerator metric / analysis.denominator metric))

def twiddleRoot (width : ℕ) : ℂ := Complex.exp (-(2 : ℕ) * Real.pi * Complex.I / width)

def binPower (count : ℕ) (transformed : List ℂ) (index : ℕ) : Except Rejection ℝ :=
  match transformed[index]? with
  | none => .error .indexError
  | some value =>
    let scale : ℕ := if index = 0 ∨ index = count / 2 then 1 else 2
    let power := scale * ‖value‖ ^ 2 / (count * count)
    if power < 0 then .error .valueNonFinite else .ok power

def centered (count : ℕ) (values : List ℚ) : List ℚ :=
  values.map fun value => value - values.sum / count

def binPowers (count : ℕ) (values : List ℚ) : Except Rejection (List ℝ) :=
  match fft twiddleRoot ((centered count values).map fun value => ((value : ℚ) : ℂ)) with
  | none => .error .indexError
  | some transformed => (List.range (count / 2 + 1)).mapM (binPower count transformed)

/-- `measure_spectrum`, up to the choice of the metric. -/
def measureSpectrum (axis values : List ℚ) (spectral : RawRequest) :
    Except Rejection (Analysis ℝ) := do
  let request ← normalizeRequest spectral axis.length
  let interval ← samplingInterval axis request.uniformityTolerance
  let sampleRate := 1 / interval
  let binWidth := sampleRate / axis.length
  if sampleRate / 2 < request.upper then .error .bandInvalid
  else do
    let fundamental ← fundamentalBin request axis.length binWidth
    let powers ← binPowers axis.length values
    let band := bandBins request axis.length binWidth
    let grid := ⟨sampleRate, binWidth, request.coherentTolerance, fundamental, band, powers⟩
    if fundamental ∉ band then .error .fundamentalInvalid else harmonicLoop grid request.orders

end

section Folding

variable {count order fundamental bin : ℕ} {binWidth tolerance : ℚ}

def foldedBin (count harmonic : ℕ) : ℕ := min (harmonic % count) (count - harmonic % count)

theorem foldFrequency_multiple (hcount : 0 < count) (hwidth : 0 < binWidth) (harmonic : ℕ) :
    foldFrequency (harmonic * binWidth) (count * binWidth) =
      foldedBin count harmonic * binWidth := by
  have hquotient : (harmonic * binWidth) / (count * binWidth) = (harmonic : ℚ) / count :=
    mul_div_mul_right _ _ hwidth.ne'
  have hfloor : (⌊(harmonic : ℚ) / count⌋ : ℚ) = (harmonic / count : ℕ) := by
    rw [Rat.floor_natCast_div_natCast]
    rfl
  have hdivision : ((harmonic % count : ℕ) : ℚ) + count * (harmonic / count : ℕ) = harmonic := by
    exact_mod_cast Nat.mod_add_div harmonic count
  have hwrapped : harmonic * binWidth - count * binWidth * (harmonic / count : ℕ) =
      (harmonic % count : ℕ) * binWidth := by
    linear_combination -binWidth * hdivision
  have hremaining : count * binWidth - (harmonic % count : ℕ) * binWidth =
      (count - harmonic % count : ℕ) * binWidth := by
    rw [Nat.cast_sub (Nat.mod_lt harmonic hcount).le]
    ring
  unfold foldFrequency foldedBin
  dsimp only
  rw [hquotient, hfloor, hwrapped, hremaining, Nat.cast_min, min_mul_of_nonneg _ _ hwidth.le]

theorem floor_add_half (bin : ℕ) : ⌊(bin : ℚ) + 1 / 2⌋₊ = bin := by
  rw [Nat.floor_eq_iff (by positivity)]
  constructor
  · linarith
  · linarith

theorem nearestBin_multiple (hwidth : 0 < binWidth)
    (h : nearestBin (bin * binWidth) binWidth tolerance = .ok order) : order = bin := by
  have hcoordinate : bin * binWidth / binWidth = (bin : ℚ) := mul_div_cancel_right₀ _ hwidth.ne'
  unfold nearestBin at h
  dsimp only at h
  rw [hcoordinate, floor_add_half] at h
  exact (Except.ok.inj (Except.guard_eq_ok.mp h).2).symm

end Folding

section Loop

variable {K : Type} {grid : Grid K} {state next : HarmonicState K}
  {count order : ℕ} {orders : List ℕ}

structure Assigned (count : ℕ) (grid : Grid K) (orders : List ℕ) (state : HarmonicState K) :
    Prop where
  orders : state.records.map Harmonic.order = orders
  folded : ∀ record ∈ state.records, record.bin = foldedBin count (record.order * grid.fundamental)
  included : ∀ record ∈ state.records, record.included = decide (record.bin ∈ grid.band)
  occupied : ∀ index, index ∈ state.occupied ↔
    index ∈ grid.fundamental :: state.records.map Harmonic.bin
  harmonicBins : ∀ index, index ∈ state.harmonicBins ↔
    index ∈ state.records.map Harmonic.bin ∧ index ∈ grid.band
  distinct : (0 :: grid.fundamental :: state.records.map Harmonic.bin).Nodup

theorem harmonicStep_eq_ok (hcount : 0 < count) (hwidth : 0 < grid.binWidth)
    (hrate : grid.sampleRate = count * grid.binWidth)
    (h : harmonicStep grid state order = .ok next) :
    ∃ record : Harmonic K, record.order = order ∧
      record.bin = foldedBin count (order * grid.fundamental) ∧
      record.included = decide (record.bin ∈ grid.band) ∧
      record.bin ∉ state.occupied ∧ record.bin ≠ 0 ∧
      next.occupied = insert record.bin state.occupied ∧
      next.harmonicBins = (if record.bin ∈ grid.band then insert record.bin state.harmonicBins
        else state.harmonicBins) ∧
      next.records = state.records ++ [record] := by
  unfold harmonicStep at h
  obtain ⟨index, hindex, h⟩ := Except.bind_eq_ok.mp h
  obtain ⟨hfree, h⟩ := Except.guard_eq_ok.mp h
  obtain rfl := Except.ok.inj h
  have hsource : (order * (grid.fundamental * grid.binWidth) : ℚ) =
      (order * grid.fundamental : ℕ) * grid.binWidth := by
    push_cast
    ring
  rw [hrate, hsource, foldFrequency_multiple hcount hwidth] at hindex
  have hbin := nearestBin_multiple hwidth hindex
  refine ⟨_, rfl, hbin, rfl, fun hold => hfree (Or.inl hold), fun hzero => hfree (Or.inr hzero),
    rfl, ?_, rfl⟩
  simp only [decide_eq_true_iff]

theorem Assigned.step (hcount : 0 < count) (hwidth : 0 < grid.binWidth)
    (hrate : grid.sampleRate = count * grid.binWidth) (h : Assigned count grid orders state)
    (hstep : harmonicStep grid state order = .ok next) :
    Assigned count grid (orders ++ [order]) next := by
  obtain ⟨record, horder, hbin, hincluded, hfree, hzero, hoccupied, hharmonic, hrecords⟩ :=
    harmonicStep_eq_ok hcount hwidth hrate hstep
  have hmap : next.records.map Harmonic.bin = state.records.map Harmonic.bin ++ [record.bin] := by
    rw [hrecords, List.map_append, List.map_singleton]
  constructor
  · rw [hrecords, List.map_append, h.orders, List.map_singleton, horder]
  · rw [hrecords]
    intro other hother
    rcases List.mem_append.mp hother with hold | hnew
    · exact h.folded other hold
    · obtain rfl := List.mem_singleton.mp hnew
      rw [hbin, horder]
  · rw [hrecords]
    intro other hother
    rcases List.mem_append.mp hother with hold | hnew
    · exact h.included other hold
    · obtain rfl := List.mem_singleton.mp hnew
      exact hincluded
  · intro index
    rw [hoccupied, Finset.mem_insert, h.occupied, hmap, ← List.cons_append, List.mem_append,
      List.mem_singleton, or_comm]
  · intro index
    rw [hharmonic, hmap, List.mem_append, List.mem_singleton]
    split_ifs with hband
    · rw [Finset.mem_insert, h.harmonicBins]
      constructor
      · rintro (rfl | ⟨hold, hin⟩)
        · exact ⟨Or.inr rfl, hband⟩
        · exact ⟨Or.inl hold, hin⟩
      · rintro ⟨hold | rfl, hin⟩
        · exact Or.inr ⟨hold, hin⟩
        · exact Or.inl rfl
    · rw [h.harmonicBins]
      constructor
      · exact fun hold => ⟨Or.inl hold.1, hold.2⟩
      · rintro ⟨hold | rfl, hin⟩
        · exact ⟨hold, hin⟩
        · exact absurd hin hband
  · rw [hmap, ← List.cons_append, ← List.cons_append, List.nodup_append]
    refine ⟨h.distinct, List.nodup_singleton _, ?_⟩
    intro one hone other hother
    obtain rfl := List.mem_singleton.mp hother
    rintro rfl
    rcases List.mem_cons.mp hone with hone | hone
    · exact hzero hone
    · exact hfree ((h.occupied _).mpr hone)

theorem harmonicLoop_assigned (hcount : 0 < count) (hwidth : 0 < grid.binWidth)
    (hrate : grid.sampleRate = count * grid.binWidth) (hfundamental : grid.fundamental ≠ 0)
    {analysis : Analysis K} (h : harmonicLoop grid orders = .ok analysis) :
    analysis.grid = grid ∧ ∃ state, Assigned count grid orders state ∧
      analysis.harmonicBins = state.harmonicBins ∧ analysis.harmonics = state.records := by
  obtain ⟨state, hrun, hresult⟩ := Except.bind_eq_ok.mp h
  obtain rfl := Except.ok.inj hresult
  refine ⟨rfl, state, ?_, rfl, rfl⟩
  refine Except.foldlM_spec (Assigned count grid) ?_ ?_ hrun
  · exact fun done order s s' hinv hstep => hinv.step hcount hwidth hrate hstep
  · constructor
    · rfl
    · simp
    · simp
    · simp
    · simp
    · simp [hfundamental.symm]

end Loop

section Sets

variable {K : Type} {analysis : Analysis K}

structure Separate (analysis : Analysis K) : Prop where
  fundamental_mem : analysis.grid.fundamental ∈ analysis.grid.band
  fundamental_ne : analysis.grid.fundamental ≠ 0
  harmonic_subset : analysis.harmonicBins ⊆ analysis.grid.band
  zero_notMem : 0 ∉ analysis.harmonicBins
  fundamental_notMem : analysis.grid.fundamental ∉ analysis.harmonicBins

theorem mem_residualBins {index : ℕ} : index ∈ analysis.residualBins ↔
    index ∈ analysis.grid.band ∧ index ≠ 0 ∧ index ≠ analysis.grid.fundamental := by
  simp only [Analysis.residualBins, Analysis.dcBins, Finset.mem_sdiff, Finset.mem_inter,
    Finset.mem_singleton, and_assoc]
  tauto

theorem Separate.harmonic_subset_residual (h : Separate analysis) :
    analysis.harmonicBins ⊆ analysis.residualBins := by
  intro index hindex
  apply mem_residualBins.mpr
  refine ⟨h.harmonic_subset hindex, ?_, ?_⟩
  · rintro rfl
    exact h.zero_notMem hindex
  · rintro rfl
    exact h.fundamental_notMem hindex

theorem Separate.disjoint (h : Separate analysis) :
    [analysis.dcBins, {analysis.grid.fundamental}, analysis.harmonicBins,
      analysis.noiseBins].Pairwise Disjoint := by
  have hdc : ∀ index ∈ analysis.dcBins, index = 0 := fun index hindex =>
    Finset.mem_singleton.mp (Finset.mem_of_mem_inter_left hindex)
  have hnoise : ∀ index ∈ analysis.noiseBins, index ≠ 0 ∧ index ≠ analysis.grid.fundamental ∧
      index ∉ analysis.harmonicBins := by
    intro index hindex
    obtain ⟨hresidual, hharmonic⟩ := Finset.mem_sdiff.mp hindex
    obtain ⟨-, hzero, hfundamental⟩ := mem_residualBins.mp hresidual
    exact ⟨hzero, hfundamental, hharmonic⟩
  simp only [List.pairwise_cons, List.forall_mem_cons, List.not_mem_nil, false_implies,
    implies_true, List.Pairwise.nil, and_true, Finset.disjoint_left, Finset.mem_singleton,
    forall_eq]
  refine ⟨⟨?_, ?_, ?_⟩, ⟨h.fundamental_notMem, ?_⟩, ?_⟩
  · intro index hindex
    rw [hdc index hindex]
    exact h.fundamental_ne.symm
  · intro index hindex
    rw [hdc index hindex]
    exact h.zero_notMem
  · exact fun index hindex hother => (hnoise index hother).1 (hdc index hindex)
  · exact fun hother => (hnoise _ hother).2.1 rfl
  · exact fun index hindex hother => (hnoise index hother).2.2 hindex

theorem Separate.cover (h : Separate analysis) :
    analysis.dcBins ∪ {analysis.grid.fundamental} ∪ analysis.harmonicBins ∪ analysis.noiseBins =
      analysis.grid.band := by
  ext index
  simp only [Finset.mem_union, Finset.mem_singleton, Analysis.noiseBins, Finset.mem_sdiff,
    mem_residualBins, Analysis.dcBins, Finset.mem_inter]
  constructor
  · rintro (((⟨-, hband⟩ | rfl) | hharmonic) | ⟨⟨hband, -⟩, -⟩)
    · exact hband
    · exact h.fundamental_mem
    · exact h.harmonic_subset hharmonic
    · exact hband
  · intro hband
    by_cases hzero : index = 0
    · exact Or.inl (Or.inl (Or.inl ⟨hzero, hband⟩))
    by_cases hfundamental : index = analysis.grid.fundamental
    · exact Or.inl (Or.inl (Or.inr hfundamental))
    by_cases hharmonic : index ∈ analysis.harmonicBins
    · exact Or.inl (Or.inr hharmonic)
    · exact Or.inr ⟨⟨hband, hzero, hfundamental⟩, hharmonic⟩

end Sets

section Powers

variable {K : Type} [Field K] {analysis : Analysis K}

theorem powerOf_eq_sum (bins : Finset ℕ) :
    analysis.powerOf bins = ∑ index ∈ bins, analysis.powerAt index :=
  Finset.sum_sortedList bins analysis.powerAt

theorem Separate.residualPower (h : Separate analysis) :
    analysis.residualPower = analysis.harmonicPower + analysis.noisePower := by
  unfold Analysis.residualPower Analysis.harmonicPower Analysis.noisePower Analysis.noiseBins
  rw [powerOf_eq_sum, powerOf_eq_sum, powerOf_eq_sum, add_comm,
    Finset.sum_sdiff h.harmonic_subset_residual]

variable [LinearOrder K] [IsStrictOrderedRing K]

theorem powerOf_nonneg (hpowers : ∀ index, 0 ≤ analysis.powerAt index) (bins : Finset ℕ) :
    0 ≤ analysis.powerOf bins := by
  rw [powerOf_eq_sum]
  exact Finset.sum_nonneg fun index _ => hpowers index

theorem winningSpurPower_le (hpowers : ∀ index, 0 ≤ analysis.powerAt index) :
    analysis.winningSpurPower ≤ analysis.residualPower := by
  unfold Analysis.winningSpurPower
  cases hspur : analysis.winningSpurBin with
  | none => exact powerOf_nonneg hpowers _
  | some index =>
    have hmem : index ∈ analysis.residualBins := Finset.mem_sortedList.mp (List.argmin_mem hspur)
    unfold Analysis.residualPower
    rw [powerOf_eq_sum]
    exact Finset.single_le_sum (fun other _ => hpowers other) hmem

end Powers

section Ratios

variable {analysis : Analysis ℝ}

theorem reading_eq_measured {metric : Metric} {value : ℝ}
    (h : analysis.reading metric = .measured value) :
    0 < analysis.fundamentalPower ∧ 0 < analysis.denominator metric ∧
      value = 10 * Real.logb 10 (analysis.numerator metric / analysis.denominator metric) := by
  unfold Analysis.reading at h
  split_ifs at h with hfundamental hbounded
  obtain ⟨-, hdenominator⟩ := not_or.mp hbounded
  rw [Nat.cast_ofNat] at h
  exact ⟨not_le.mp hfundamental, not_le.mp hdenominator, (Reading.measured.inj h).symm⟩

/-- With the same numerator, the greater denominator has the smaller value. -/
theorem reading_antitone {first second : Metric} {x y : ℝ}
    (hfirst : analysis.reading first = .measured x)
    (hsecond : analysis.reading second = .measured y)
    (hnumerator : analysis.numerator first = analysis.fundamentalPower)
    (hsame : analysis.numerator second = analysis.fundamentalPower)
    (hdenominator : analysis.denominator second ≤ analysis.denominator first) : x ≤ y := by
  obtain ⟨hfundamental, hpositive, rfl⟩ := reading_eq_measured hfirst
  obtain ⟨-, hsmaller, rfl⟩ := reading_eq_measured hsecond
  rw [hnumerator, hsame]
  have hquotient : analysis.fundamentalPower / analysis.denominator first ≤
      analysis.fundamentalPower / analysis.denominator second :=
    div_le_div_of_nonneg_left hfundamental.le hsmaller hdenominator
  have hlog := Real.logb_le_logb_of_le (by norm_num : (1 : ℝ) < 10)
    (div_pos hfundamental hpositive) hquotient
  linarith

end Ratios

section Measure

variable {axis values : List ℚ} {spectral : RawRequest} {analysis : Analysis ℝ}

theorem binPowers_nonneg {count : ℕ} {powers : List ℝ} (h : binPowers count values = .ok powers)
    (index : ℕ) : 0 ≤ powers.getD index 0 := by
  unfold binPowers at h
  cases htransform : fft twiddleRoot ((centered count values).map fun value => ((value : ℚ) : ℂ))
    with
  | none =>
    rw [htransform] at h
    cases h
  | some transformed =>
    rw [htransform] at h
    cases hpower : powers[index]? with
    | none => rw [List.getD_eq_getElem?_getD, hpower, Option.getD_none]
    | some power =>
      rw [List.getD_eq_getElem?_getD, hpower, Option.getD_some]
      obtain ⟨bin, -, hbin⟩ := Except.exists_of_mem_mapM h (List.mem_of_getElem? hpower)
      unfold binPower at hbin
      cases hvalue : transformed[bin]? with
      | none =>
        rw [hvalue] at hbin
        cases hbin
      | some value =>
        rw [hvalue] at hbin
        obtain ⟨hnonneg, hresult⟩ := Except.guard_eq_ok.mp hbin
        rw [← Except.ok.inj hresult]
        exact not_lt.mp hnonneg

/-- The powers of a record are those of its discrete Fourier transform; no read fails. -/
theorem binPowers_eq {k : ℕ} (hlength : values.length = 2 ^ k) :
    binPowers (2 ^ k) values = .ok ((List.range (2 ^ k / 2 + 1)).map fun index =>
      (if index = 0 ∨ index = 2 ^ k / 2 then 1 else 2) *
        ‖(dft (twiddleRoot (2 ^ k)) ((centered (2 ^ k) values).map fun value =>
          ((value : ℚ) : ℂ))).getD index 0‖ ^ 2 / ((2 ^ k : ℕ) * (2 ^ k : ℕ))) := by
  have htransform : fft twiddleRoot ((centered (2 ^ k) values).map fun value =>
      ((value : ℚ) : ℂ)) = some (dft (twiddleRoot (2 ^ k)) ((centered (2 ^ k) values).map
        fun value => ((value : ℚ) : ℂ))) := by
    refine fft_complex k _ ?_
    rw [List.length_map, centered, List.length_map, hlength]
  unfold binPowers
  rw [htransform]
  apply Except.mapM_eq_ok.mpr
  rw [List.forall₂_map_right_iff, List.forall₂_same]
  intro index hindex
  have hpositive : 0 < 2 ^ k := Nat.two_pow_pos k
  have hlt : index < 2 ^ k := by
    have := List.mem_range.mp hindex
    omega
  set transformed := dft (twiddleRoot (2 ^ k)) ((centered (2 ^ k) values).map fun value =>
    ((value : ℚ) : ℂ)) with hdft
  have hsize : transformed.length = 2 ^ k := by
    rw [hdft, dft, List.length_map, List.length_range, List.length_map, centered, List.length_map,
      hlength]
  have hread : transformed[index]? = some (transformed.getD index 0) := by
    rw [List.getD_eq_getElem?_getD, List.getElem?_eq_getElem (hsize ▸ hlt), Option.getD_some]
  unfold binPower
  rw [hread]
  dsimp only
  apply Except.guard_eq_ok.mpr
  rw [Nat.cast_ite, Nat.cast_one, Nat.cast_ofNat]
  refine ⟨not_lt.mpr ?_, rfl⟩
  split_ifs <;> positivity

theorem integer_eq_ok {value : ℤ} {minimum maximum n : ℕ}
    (h : integer value minimum maximum = .ok n) : (n : ℤ) = value ∧ minimum ≤ n ∧ n ≤ maximum := by
  unfold integer at h
  split_ifs at h with hbounds
  obtain rfl := Except.ok.inj h
  omega

theorem normalizeRequest_eq_ok {count : ℕ} {request : Request}
    (h : normalizeRequest spectral count = .ok request) :
    8 ≤ count ∧ count &&& (count - 1) = 0 ∧ request.lower = spectral.lower ∧
      request.upper = spectral.upper ∧
      request.orders.map (fun order : ℕ => (order : ℤ)) = spectral.orders := by
  unfold normalizeRequest at h
  obtain ⟨dftLength, hlength, h⟩ := Except.bind_eq_ok.mp h
  obtain ⟨hcount, h⟩ := Except.guard_eq_ok.mp h
  obtain ⟨hpower, h⟩ := Except.guard_eq_ok.mp h
  obtain ⟨-, h⟩ := Except.guard_eq_ok.mp h
  obtain ⟨-, h⟩ := Except.guard_eq_ok.mp h
  obtain ⟨-, h⟩ := Except.guard_eq_ok.mp h
  obtain ⟨-, h⟩ := Except.guard_eq_ok.mp h
  obtain ⟨-, h⟩ := Except.guard_eq_ok.mp h
  obtain ⟨orders, horders, h⟩ := Except.bind_eq_ok.mp h
  obtain ⟨-, h⟩ := Except.guard_eq_ok.mp h
  obtain rfl := Except.ok.inj h
  obtain rfl := not_ne_iff.mp hcount
  refine ⟨(integer_eq_ok hlength).2.1, not_ne_iff.mp hpower, rfl, rfl, ?_⟩
  have hvalues := (Except.mapM_eq_ok.mp horders).imp fun _ _ hitem => (integer_eq_ok hitem).1.symm
  exact (List.forall₂_eq_eq_eq ▸ List.forall₂_map_right_iff.mpr hvalues).symm

theorem exists_pow_of_accepted {count : ℕ} (hlarge : 8 ≤ count)
    (hbits : count &&& (count - 1) = 0) : ∃ k, count = 2 ^ k :=
  (Nat.and_sub_one_eq_zero_iff_isPowerOfTwo (by omega)).mp hbits

theorem samplingInterval_pos {tolerance interval : ℚ}
    (h : samplingInterval axis tolerance = .ok interval) : 0 < interval := by
  unfold samplingInterval at h
  obtain ⟨-, h⟩ := Except.guard_eq_ok.mp h
  obtain ⟨hpositive, h⟩ := Except.guard_eq_ok.mp h
  obtain ⟨-, h⟩ := Except.guard_eq_ok.mp h
  rw [← Except.ok.inj h]
  exact not_le.mp hpositive

theorem fundamentalBin_ne_zero {request : Request} {count index : ℕ} {binWidth : ℚ}
    (h : fundamentalBin request count binWidth = .ok index) : index ≠ 0 := by
  unfold fundamentalBin at h
  obtain ⟨bin, -, h⟩ := Except.bind_eq_ok.mp h
  obtain ⟨hrange, h⟩ := Except.guard_eq_ok.mp h
  obtain ⟨-, h⟩ := Except.guard_eq_ok.mp h
  rw [← Except.ok.inj h]
  exact fun hzero => hrange (Or.inl hzero)

theorem measureSpectrum_eq_ok (h : measureSpectrum axis values spectral = .ok analysis) :
    ∃ (request : Request) (grid : Grid ℝ),
      normalizeRequest spectral axis.length = .ok request ∧
      0 < grid.binWidth ∧ grid.sampleRate = axis.length * grid.binWidth ∧
      grid.fundamental ≠ 0 ∧ grid.band = bandBins request axis.length grid.binWidth ∧
      grid.fundamental ∈ grid.band ∧ (∀ index, 0 ≤ grid.powers.getD index 0) ∧
      harmonicLoop grid request.orders = .ok analysis := by
  unfold measureSpectrum at h
  obtain ⟨request, hrequest, h⟩ := Except.bind_eq_ok.mp h
  obtain ⟨interval, hinterval, h⟩ := Except.bind_eq_ok.mp h
  obtain ⟨-, h⟩ := Except.guard_eq_ok.mp h
  obtain ⟨fundamental, hfundamental, h⟩ := Except.bind_eq_ok.mp h
  obtain ⟨powers, hpowers, h⟩ := Except.bind_eq_ok.mp h
  obtain ⟨hband, h⟩ := Except.guard_eq_ok.mp h
  have hcount : (0 : ℚ) < axis.length := by
    have := (normalizeRequest_eq_ok hrequest).1
    exact_mod_cast (by omega : 0 < axis.length)
  have hpositive := samplingInterval_pos hinterval
  refine ⟨request, _, hrequest, ?_, ?_, fundamentalBin_ne_zero hfundamental, rfl,
    not_not.mp hband, binPowers_nonneg hpowers, h⟩
  · positivity
  · exact (mul_div_cancel₀ _ hcount.ne').symm

/-- The sets of bins of an accepted measurement are disjoint and cover the band, harmonics are
folded to their bins and none of them meets another, DC or the fundamental, and the residual is
the harmonics and the noise. -/
theorem measureSpectrum_partition
    (h : measureSpectrum axis values spectral = .ok analysis) :
    (∃ k, axis.length = 2 ^ k) ∧
    (∀ index : ℕ, index ∈ analysis.grid.band ↔ index ≤ axis.length / 2 ∧
      spectral.lower ≤ index * analysis.grid.binWidth ∧
      index * analysis.grid.binWidth ≤ spectral.upper) ∧
    [analysis.dcBins, {analysis.grid.fundamental}, analysis.harmonicBins,
      analysis.noiseBins].Pairwise Disjoint ∧
    analysis.dcBins ∪ {analysis.grid.fundamental} ∪ analysis.harmonicBins ∪ analysis.noiseBins =
      analysis.grid.band ∧
    analysis.harmonics.map (fun record : Harmonic ℝ => (record.order : ℤ)) = spectral.orders ∧
    (∀ record ∈ analysis.harmonics, record.bin =
      min (record.order * analysis.grid.fundamental % axis.length)
        (axis.length - record.order * analysis.grid.fundamental % axis.length)) ∧
    (∀ index, index ∈ analysis.harmonicBins ↔
      index ∈ analysis.harmonics.map Harmonic.bin ∧ index ∈ analysis.grid.band) ∧
    (0 :: analysis.grid.fundamental :: analysis.harmonics.map Harmonic.bin).Nodup ∧
    analysis.residualPower = analysis.harmonicPower + analysis.noisePower ∧
    (∀ sinad snr, analysis.reading .sinad = .measured sinad →
      analysis.reading .snr = .measured snr → sinad ≤ snr) ∧
    ∀ sinad sfdr, analysis.reading .sinad = .measured sinad →
      analysis.reading .sfdr = .measured sfdr → sinad ≤ sfdr := by
  obtain ⟨request, grid, hrequest, hwidth, hrate, hfundamental, hband, hmem, hpowers, hloop⟩ :=
    measureSpectrum_eq_ok h
  obtain ⟨hlarge, hbits, hlower, hupper, horders⟩ := normalizeRequest_eq_ok hrequest
  obtain ⟨rfl, state, hassigned, hharmonic, hrecords⟩ :=
    harmonicLoop_assigned (by omega : 0 < axis.length) hwidth hrate hfundamental hloop
  have hdistinct := hassigned.distinct
  have hseparate : Separate analysis := by
    constructor
    · exact hmem
    · exact hfundamental
    · intro index hindex
      rw [hharmonic] at hindex
      exact ((hassigned.harmonicBins index).mp hindex).2
    · intro hzero
      rw [hharmonic] at hzero
      have hbin := ((hassigned.harmonicBins 0).mp hzero).1
      exact (List.nodup_cons.mp hdistinct).1 (List.mem_cons_of_mem _ hbin)
    · intro hcollision
      rw [hharmonic] at hcollision
      have hbin := ((hassigned.harmonicBins _).mp hcollision).1
      exact (List.nodup_cons.mp (List.nodup_cons.mp hdistinct).2).1 hbin
  have hnoise : analysis.noisePower ≤ analysis.residualPower := by
    rw [hseparate.residualPower]
    exact le_add_of_nonneg_left (powerOf_nonneg hpowers _)
  refine ⟨exists_pow_of_accepted hlarge hbits, ?_, hseparate.disjoint, hseparate.cover, ?_, ?_,
    ?_, ?_, hseparate.residualPower, ?_, ?_⟩
  · intro index
    rw [hband, bandBins, Finset.mem_filter, Finset.mem_range, Nat.lt_succ_iff, ← hlower, ← hupper]
    rfl
  · rw [← horders, ← hassigned.orders, hrecords, List.map_map]
    rfl
  · intro record hrecord
    rw [hrecords] at hrecord
    exact hassigned.folded record hrecord
  · intro index
    rw [hharmonic, hrecords]
    exact hassigned.harmonicBins index
  · rw [hrecords]
    exact hdistinct
  · exact fun sinad snr hsinad hsnr => reading_antitone hsinad hsnr rfl rfl hnoise
  · exact fun sinad sfdr hsinad hsfdr =>
      reading_antitone hsinad hsfdr rfl rfl (winningSpurPower_le hpowers)

def twoPeriods : List ℚ := [1, 0, -1, 0, 1, 0, -1, 0]

def twoPeriodsRequest : RawRequest := ⟨8, 0, 0, 0, 1 / 2, 1 / 4, [2]⟩

theorem twoPeriodsRequest_normalized :
    normalizeRequest twoPeriodsRequest 8 = .ok ⟨8, 0, 0, 0, 1 / 2, 1 / 4, [2]⟩ := by
  refine Except.bind_eq_ok.mpr ⟨8, rfl, ?_⟩
  refine Except.guard_eq_ok.mpr ⟨by decide, ?_⟩
  refine Except.guard_eq_ok.mpr ⟨by decide, ?_⟩
  refine Except.guard_eq_ok.mpr ⟨by norm_num [twoPeriodsRequest], ?_⟩
  refine Except.guard_eq_ok.mpr ⟨by norm_num [twoPeriodsRequest], ?_⟩
  refine Except.guard_eq_ok.mpr ⟨by norm_num [twoPeriodsRequest], ?_⟩
  refine Except.guard_eq_ok.mpr ⟨by norm_num [twoPeriodsRequest], ?_⟩
  refine Except.guard_eq_ok.mpr ⟨by decide, ?_⟩
  refine Except.bind_eq_ok.mpr ⟨[2], rfl, ?_⟩
  exact Except.guard_eq_ok.mpr ⟨by decide, rfl⟩

theorem nearestBin_of_multiple {bin : ℕ} {frequency binWidth : ℚ} (hwidth : 0 < binWidth)
    (hfrequency : frequency = bin * binWidth) {tolerance : ℚ} (htolerance : 0 ≤ tolerance) :
    nearestBin frequency binWidth tolerance = .ok bin := by
  have hcoordinate : frequency / binWidth = (bin : ℚ) := by
    rw [hfrequency, mul_div_cancel_right₀ _ hwidth.ne']
  unfold nearestBin
  dsimp only
  rw [hcoordinate, floor_add_half, sub_self, abs_zero, if_neg (not_lt.mpr htolerance)]

/-- The second harmonic of two periods in eight samples is at the Nyquist bin. -/
theorem twoPeriods_loop (band : Finset ℕ) (powers : List ℝ) :
    ∃ analysis, harmonicLoop ⟨1 / 1, 1 / 8, 0, 2, band, powers⟩ [2] = .ok analysis := by
  have hfolded : foldFrequency ((2 : ℕ) * ((2 : ℕ) * (1 / 8))) (1 / 1) = (4 : ℕ) * (1 / 8) := by
    have hmultiple : foldFrequency ((4 : ℕ) * (1 / 8)) ((8 : ℕ) * (1 / 8)) =
        (foldedBin 8 4 : ℕ) * (1 / 8) := foldFrequency_multiple (by norm_num) (by norm_num) 4
    norm_num [foldedBin] at hmultiple ⊢
    exact hmultiple
  have hnearest := nearestBin_of_multiple (by norm_num) hfolded (le_refl (0 : ℚ))
  obtain ⟨next, hnext⟩ : ∃ next,
      harmonicStep ⟨1 / 1, 1 / 8, 0, 2, band, powers⟩ ⟨{2}, ∅, []⟩ 2 = .ok next := by
    unfold harmonicStep
    dsimp only
    rw [hnearest, Except.ok_bind, if_neg (by decide)]
    exact ⟨_, rfl⟩
  refine ⟨⟨⟨1 / 1, 1 / 8, 0, 2, band, powers⟩, next.harmonicBins, next.records⟩, ?_⟩
  refine Except.bind_eq_ok.mpr ⟨next, ?_, rfl⟩
  exact Except.foldlM_cons_eq_ok.mpr ⟨next, hnext, rfl⟩

theorem twoPeriods_accepted : ∃ analysis,
    measureSpectrum [0, 1, 2, 3, 4, 5, 6, 7] twoPeriods twoPeriodsRequest = .ok analysis := by
  have hinterval : samplingInterval [0, 1, 2, 3, 4, 5, 6, 7] 0 = .ok 1 := by
    norm_num [samplingInterval, List.max?]
  have hwidth : (1 : ℚ) / 1 / ([0, 1, 2, 3, 4, 5, 6, 7] : List ℚ).length = 1 / 8 := by
    norm_num
  have hfundamental : fundamentalBin ⟨8, 0, 0, 0, 1 / 2, 1 / 4, [2]⟩ 8 (1 / 8) = .ok 2 := by
    refine Except.bind_eq_ok.mpr ⟨2, ?_, ?_⟩
    · exact nearestBin_of_multiple (by norm_num) (by norm_num) le_rfl
    · refine Except.guard_eq_ok.mpr ⟨by decide, ?_⟩
      exact Except.guard_eq_ok.mpr ⟨by norm_num [Request.inBand], rfl⟩
  obtain ⟨analysis, hloop⟩ := twoPeriods_loop (bandBins ⟨8, 0, 0, 0, 1 / 2, 1 / 4, [2]⟩ 8 (1 / 8))
    _
  refine ⟨analysis, ?_⟩
  unfold measureSpectrum
  refine Except.bind_eq_ok.mpr ⟨_, twoPeriodsRequest_normalized, ?_⟩
  refine Except.bind_eq_ok.mpr ⟨1, hinterval, ?_⟩
  refine Except.guard_eq_ok.mpr ⟨by norm_num, ?_⟩
  rw [hwidth]
  refine Except.bind_eq_ok.mpr ⟨2, hfundamental, ?_⟩
  refine Except.bind_eq_ok.mpr ⟨_, binPowers_eq (k := 3) rfl, ?_⟩
  exact Except.guard_eq_ok.mpr ⟨by norm_num [bandBins, Request.inBand], hloop⟩

theorem measureSpectrum_twoPeriods : ∃ analysis,
    measureSpectrum [0, 1, 2, 3, 4, 5, 6, 7] twoPeriods twoPeriodsRequest = .ok analysis ∧
      analysis.residualPower = analysis.harmonicPower + analysis.noisePower := by
  obtain ⟨analysis, h⟩ := twoPeriods_accepted
  exact ⟨analysis, h, (measureSpectrum_partition h).2.2.2.2.2.2.2.2.1⟩

end Measure

end OpenADA.Spectral
