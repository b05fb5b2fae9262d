import OpenADA.Library.DecimalRound
import OpenADA.Library.ExceptFold
import OpenADA.Runner.Execute

/-! The points of a DC sweep against exact arithmetic, and the count the runner falls back to when
a stage is not compiled. -/
namespace OpenADA.Runner

open OpenADA.Plan OpenADA.Compiler
open PyDecimal (Fits)

def roundedSteps (start stop step : ℚ) : ℚ := PyDecimal.round (PyDecimal.round (stop - start) / step)

def gridPoint (start step : ℚ) (index : ℕ) : ℚ :=
  PyDecimal.round (start + PyDecimal.round (step * index))

def wholeSteps (start stop step : ℚ) : ℕ := ⌊roundedSteps start stop step⌋.toNat

section Grid

variable {start stop step : ℚ}

theorem gridValues_eq (count : ℕ) :
    (List.map (fun index => PyDecimal.add start (PyDecimal.mul step index))
      (do let index ← List.range count; pure (index : ℚ))) =
      (List.range count).map (gridPoint start step) := by
  have hcast : (do let index ← List.range count; pure (index : ℚ)) =
      (List.range count).map (Nat.cast : ℕ → ℚ) :=
    List.flatMap_pure_eq_map _ _
  rw [hcast, List.map_map]
  rfl

theorem dcGrid_eq (hstep : 0 < step) (hrange : start ≤ stop) :
    dcGrid start stop step =
      if maxDcSamples < wholeSteps start stop step + 1 then
        refuse "testbench_plan.compiler.dc_range_over_limit" "/analysis"
          "DC range expands outside 1..1000000 samples"
      else if gridPoint start step (wholeSteps start stop step) ≠ stop then
        refuse "testbench_plan.compiler.dc_range_not_integral" "/analysis"
          "DC range must land exactly on stop"
      else .ok ((List.range (wholeSteps start stop step + 1)).map (gridPoint start step)) := by
  have hquotient : (PyDecimal.div (PyDecimal.sub stop start) step).getD 0 =
      roundedSteps start stop step := by
    rw [PyDecimal.div, if_neg hstep.ne']
    rfl
  have hlast : ((List.range (wholeSteps start stop step + 1)).map
      (gridPoint start step)).getLast? = some (gridPoint start step (wholeSteps start stop step)) := by
    rw [List.range_succ, List.map_append, List.map_singleton, List.getLast?_concat]
  have hwhole : ⌊roundedSteps start stop step⌋.toNat = wholeSteps start stop step := rfl
  unfold dcGrid
  rw [if_neg (not_or.mpr ⟨not_le.mpr hstep, not_lt.mpr hrange⟩)]
  dsimp only
  rw [hquotient, gridValues_eq]
  simp only [hwhole, hlast, ne_eq, Option.some.injEq]

theorem dcGrid_eq_ok (hstep : 0 < step) (hrange : start ≤ stop) {values : List ℚ} :
    dcGrid start stop step = .ok values ↔ wholeSteps start stop step + 1 ≤ maxDcSamples ∧
      gridPoint start step (wholeSteps start stop step) = stop ∧
      values = (List.range (wholeSteps start stop step + 1)).map (gridPoint start step) := by
  rw [dcGrid_eq hstep hrange]
  split_ifs with hcount hstop
  · constructor
    · intro h
      cases h
    · intro h
      omega
  · constructor
    · intro h
      cases h
    · intro h
      exact absurd h.2.1 hstop
  · constructor
    · intro h
      exact ⟨by omega, not_not.mp hstop, (Except.ok.inj h).symm⟩
    · intro h
      rw [h.2.2]

theorem gridSize_eq_some {count : ℕ} (h : gridSize start stop step = some count) :
    0 < step ∧ start ≤ stop ∧ count = wholeSteps start stop step + 1 ∧
      count ≤ maxEnvelopeConditions ∧ roundedSteps start stop step = wholeSteps start stop step := by
  unfold gridSize at h
  split_ifs at h with hrefused
  obtain ⟨hstep, hrange⟩ := not_or.mp hrefused
  have hpos := not_le.mp hstep
  have hquotient : PyDecimal.div (PyDecimal.sub stop start) step =
      some (roundedSteps start stop step) := by
    rw [PyDecimal.div, if_neg hpos.ne']
    rfl
  rw [hquotient] at h
  dsimp only at h
  split_ifs at h with hintegral hcount
  have hcounted := Option.some.inj h
  have hwhole : (wholeSteps start stop step : ℤ) = ⌊roundedSteps start stop step⌋ := by
    unfold wholeSteps
    omega
  refine ⟨hpos, not_lt.mp hrange, ?_, ?_, ?_⟩
  · omega
  · omega
  · rw [not_not.mp hintegral, ← hwhole, Int.cast_natCast]

/-- The points of a grid that starts at `start`, each one step after the one before. -/
theorem chain_range_iff {f : ℕ → ℚ} {n : ℕ} :
    (f 0 = start ∧ ((List.range (n + 1)).map f).IsChain fun a b => a < b ∧ b = a + step) ↔
      (0 < n → 0 < step) ∧ ∀ i ≤ n, f i = start + i * step := by
  rw [List.isChain_map, List.isChain_range_succ]
  constructor
  · rintro ⟨hzero, hchain⟩
    have hpoint : ∀ i ≤ n, f i = start + i * step := by
      intro i
      induction i with
      | zero =>
        intro _
        rw [hzero]
        simp
      | succ i ih =>
        intro hi
        rw [(hchain i (by omega)).2, ih (by omega)]
        push_cast
        ring
    refine ⟨?_, hpoint⟩
    intro hpos
    have hlt := (hchain 0 hpos).1
    rw [(hchain 0 hpos).2] at hlt
    linarith
  · rintro ⟨hstep, hpoint⟩
    refine ⟨by simpa using hpoint 0 (by omega), ?_⟩
    intro m hm
    have hpos := hstep (by omega)
    rw [Nat.succ_eq_add_one, hpoint m (by omega), hpoint (m + 1) (by omega)]
    push_cast
    constructor <;> linarith

end Grid

/-- The contract of a sweep: the grid exists exactly for a whole number of steps within the limit,
it is then the exact one, and a count the runner lists without the compiler is the grid's own. -/
structure GridContract (start stop step : ℚ) : Prop where
  succeeds_iff : (∃ values, dcGrid start stop step = .ok values) ↔
    ∃ n : ℕ, stop - start = n * step ∧ n + 1 ≤ maxDcSamples
  points : ∀ values, dcGrid start stop step = .ok values →
    values.head? = some start ∧ values.getLast? = some stop ∧
      (values.IsChain fun a b => a < b ∧ b = a + step) ∧
      (values.length : ℚ) = (stop - start) / step + 1
  fallback : ∀ count, gridSize start stop step = some count →
    ∃ values, dcGrid start stop step = .ok values ∧ values.length = count

/-- Rounding to 28 digits does no harm: it counts the steps of a whole range and leaves its points
alone, and it neither leads to `stop` over a broken range nor counts one. -/
structure RoundingHarmless (start stop step : ℚ) : Prop where
  whole : ∀ n : ℕ, stop - start = n * step → n + 1 ≤ maxDcSamples →
    wholeSteps start stop step = n ∧ ∀ i ≤ n, gridPoint start step i = start + i * step
  broken : (∀ n : ℕ, stop - start = n * step → maxDcSamples < n + 1) →
    maxDcSamples < wholeSteps start stop step + 1 ∨
      gridPoint start step (wholeSteps start stop step) ≠ stop
  counted : ∀ count, gridSize start stop step = some count →
    gridPoint start step (wholeSteps start stop step) = stop

section Contract

variable {start stop step : ℚ}

theorem GridContract.harmless (hstep : 0 < step) (hrange : start ≤ stop)
    (h : GridContract start stop step) : RoundingHarmless start stop step := by
  refine ⟨?_, ?_, ?_⟩
  · intro n hn hlimit
    obtain ⟨values, hvalues⟩ := h.succeeds_iff.mpr ⟨n, hn, hlimit⟩
    obtain ⟨hhead, _, hchain, hlength⟩ := h.points values hvalues
    obtain ⟨_, _, rfl⟩ := (dcGrid_eq_ok hstep hrange).mp hvalues
    have hcount : wholeSteps start stop step = n := by
      rw [hn, mul_div_assoc, div_self hstep.ne', mul_one, List.length_map, List.length_range] at hlength
      have hsucc : wholeSteps start stop step + 1 = n + 1 := by exact_mod_cast hlength
      omega
    rw [hcount] at hhead hchain
    have hzero : gridPoint start step 0 = start := by
      rw [List.range_succ_eq_map, List.map_cons, List.head?_cons] at hhead
      exact Option.some.inj hhead
    exact ⟨hcount, (chain_range_iff.mp ⟨hzero, hchain⟩).2⟩
  · intro hnone
    by_contra hboth
    obtain ⟨hlimit, hstop⟩ := not_or.mp hboth
    obtain ⟨n, hn, hn'⟩ := h.succeeds_iff.mp ⟨_, (dcGrid_eq_ok hstep hrange).mpr
      ⟨not_lt.mp hlimit, not_not.mp hstop, rfl⟩⟩
    have := hnone n hn
    omega
  · intro count hcount
    obtain ⟨values, hvalues, _⟩ := h.fallback count hcount
    exact ((dcGrid_eq_ok hstep hrange).mp hvalues).2.1

theorem RoundingHarmless.contract (hstep : 0 < step) (hrange : start ≤ stop)
    (h : RoundingHarmless start stop step) : GridContract start stop step := by
  have hsucceeds : (∃ values, dcGrid start stop step = .ok values) ↔
      ∃ n : ℕ, stop - start = n * step ∧ n + 1 ≤ maxDcSamples := by
    constructor
    · rintro ⟨values, hvalues⟩
      obtain ⟨hlimit, hstop, _⟩ := (dcGrid_eq_ok hstep hrange).mp hvalues
      by_contra hnone
      rcases h.broken fun n hn => by
        by_contra hle
        exact hnone ⟨n, hn, not_lt.mp hle⟩ with hover | hmissed
      · omega
      · exact hmissed hstop
    · rintro ⟨n, hn, hlimit⟩
      obtain ⟨hwhole, hpoints⟩ := h.whole n hn hlimit
      refine ⟨_, (dcGrid_eq_ok hstep hrange).mpr ⟨by omega, ?_, rfl⟩⟩
      rw [hwhole, hpoints n le_rfl]
      linarith
  refine ⟨hsucceeds, ?_, ?_⟩
  · intro values hvalues
    obtain ⟨n, hn, hlimit⟩ := hsucceeds.mp ⟨values, hvalues⟩
    obtain ⟨hwhole, hpoints⟩ := h.whole n hn hlimit
    obtain ⟨_, hstop, rfl⟩ := (dcGrid_eq_ok hstep hrange).mp hvalues
    obtain ⟨hzero, hchain⟩ := chain_range_iff.mpr ⟨fun _ => hstep, hpoints⟩
    rw [hwhole] at hstop ⊢
    refine ⟨?_, ?_, hchain, ?_⟩
    · rw [List.range_succ_eq_map, List.map_cons, List.head?_cons, hzero]
    · rw [List.range_succ, List.map_append, List.map_singleton, List.getLast?_concat, hstop]
    · rw [hn, mul_div_assoc, div_self hstep.ne', List.length_map, List.length_range]
      push_cast
      ring
  · intro count hcount
    obtain ⟨_, _, hwhole, hle, _⟩ := gridSize_eq_some hcount
    refine ⟨_, (dcGrid_eq_ok hstep hrange).mpr ⟨?_, h.counted count hcount, rfl⟩, ?_⟩
    · have : maxEnvelopeConditions ≤ maxDcSamples := by decide
      omega
    · rw [List.length_map, List.length_range, hwhole]

end Contract

section Digits

variable {s t p e : ℤ}

/-- A quotient of short integers that rounds to an integer is that integer. -/
theorem eq_mul_of_round {a k : ℤ} (ha : 0 ≤ a) (hlt : a < 2 * 10 ^ 27) (hp : 0 < p)
    (h : PyDecimal.round ((a : ℚ) / p) = k) : a = k * p := by
  have hpos : (0 : ℚ) < p := by exact_mod_cast hp
  have herror := PyDecimal.abs_round_sub_le ((a : ℚ) / p)
  have hnonneg : (0 : ℚ) ≤ a / p := div_nonneg (by exact_mod_cast ha) hpos.le
  rw [h, abs_of_nonneg hnonneg] at herror
  have hscaled : |(k * p - a : ℚ)| < 1 := by
    have hform : (k * p - a : ℚ) = (k - a / p) * p := by field_simp
    have hbound : (a : ℚ) * (1 / (2 * 10 ^ 27)) < 1 := by
      have hcast : (a : ℚ) < 2 * 10 ^ 27 := by exact_mod_cast hlt
      rw [mul_one_div, div_lt_one (by norm_num)]
      exact hcast
    rw [hform, abs_mul, abs_of_pos hpos]
    calc |(k - a / p : ℚ)| * p ≤ a / p * (1 / (2 * 10 ^ 27)) * p :=
          mul_le_mul_of_nonneg_right herror hpos.le
      _ = a * (1 / (2 * 10 ^ 27)) := by field_simp
      _ < 1 := hbound
  have hint : |k * p - a| < 1 := by exact_mod_cast hscaled
  have := Int.abs_lt_one_iff.mp hint
  omega

theorem mul_wholeSteps_le {a : ℤ} (ha : 0 ≤ a) (hp : 0 < p) :
    p * (⌊PyDecimal.round ((a : ℚ) / p)⌋.toNat : ℤ) ≤ 2 * a := by
  have hpos : (0 : ℚ) < p := by exact_mod_cast hp
  have hnonneg : (0 : ℚ) ≤ a / p := div_nonneg (by exact_mod_cast ha) hpos.le
  have herror := (abs_le.mp (PyDecimal.abs_round_sub_le ((a : ℚ) / p))).2
  have hrounded := PyDecimal.round_nonneg hnonneg
  have hfloor : 0 ≤ ⌊PyDecimal.round ((a : ℚ) / p)⌋ := Int.floor_nonneg.mpr hrounded
  have htwice : PyDecimal.round ((a : ℚ) / p) ≤ 2 * (a / p) := by
    have hsmall : (a : ℚ) / p * (1 / (2 * 10 ^ 27)) ≤ a / p * 1 :=
      mul_le_mul_of_nonneg_left (by norm_num) hnonneg
    rw [abs_of_nonneg hnonneg] at herror
    linarith
  rw [Int.toNat_of_nonneg hfloor]
  have hscaled : (p : ℚ) * ⌊PyDecimal.round ((a : ℚ) / p)⌋ ≤ 2 * a := by
    calc (p : ℚ) * ⌊PyDecimal.round ((a : ℚ) / p)⌋ ≤ p * (2 * (a / p)) :=
          mul_le_mul_of_nonneg_left ((Int.floor_le _).trans htwice) hpos.le
      _ = 2 * a := by field_simp
  exact_mod_cast hscaled

theorem gridPoint_digits (hs : |s| < 10 ^ 27) (ht : |t| < 10 ^ 27) (hp : 0 < p) {k : ℕ}
    (hk : p * k ≤ 2 * (t - s)) :
    gridPoint (s * 10 ^ e) (p * 10 ^ e) k = ((s + p * k : ℤ) : ℚ) * 10 ^ e := by
  have hnonneg : 0 ≤ p * k := by positivity
  rw [abs_lt] at hs ht
  have hproduct : (p : ℚ) * 10 ^ e * k = ((p * k : ℤ) : ℚ) * 10 ^ e := by
    push_cast
    ring
  have hsum : (s : ℚ) * 10 ^ e + ((p * k : ℤ) : ℚ) * 10 ^ e = ((s + p * k : ℤ) : ℚ) * 10 ^ e := by
    push_cast
    ring
  have hproductFits : |p * (k : ℤ)| < 10 ^ 28 := by
    rw [abs_lt]
    constructor <;> linarith
  have hsumFits : |s + p * (k : ℤ)| < 10 ^ 28 := by
    rw [abs_lt]
    constructor <;> linarith
  unfold gridPoint
  rw [hproduct, PyDecimal.round_of_fits (PyDecimal.fits_intCast_mul hproductFits), hsum,
    PyDecimal.round_of_fits (PyDecimal.fits_intCast_mul hsumFits)]

/-- Bounds and step of less than 28 digits over one power of ten are never harmed. -/
theorem roundingHarmless_of_digits (hs : |s| < 10 ^ 27) (ht : |t| < 10 ^ 27) (hp : 0 < p)
    (hst : s ≤ t) : RoundingHarmless (s * 10 ^ e) (t * 10 ^ e) (p * 10 ^ e) := by
  have hunit : (0 : ℚ) < 10 ^ e := by positivity
  have hpos : (0 : ℚ) < p := by exact_mod_cast hp
  have hwidth : t - s < 2 * 10 ^ 27 := by
    rw [abs_lt] at hs ht
    linarith
  have hrange : (t : ℚ) * 10 ^ e - s * 10 ^ e = ((t - s : ℤ) : ℚ) * 10 ^ e := by
    push_cast
    ring
  have hsteps : roundedSteps (s * 10 ^ e) (t * 10 ^ e) (p * 10 ^ e) =
      PyDecimal.round (((t - s : ℤ) : ℚ) / p) := by
    have hfits : |t - s| < 10 ^ 28 := by
      rw [abs_of_nonneg (by omega)]
      linarith
    unfold roundedSteps
    rw [hrange, PyDecimal.round_of_fits (PyDecimal.fits_intCast_mul hfits),
      mul_div_mul_right _ _ hunit.ne']
  have hcancel : ∀ n : ℕ, (t : ℚ) * 10 ^ e - s * 10 ^ e = n * (p * 10 ^ e) ↔ t - s = p * n := by
    intro n
    rw [hrange, ← mul_assoc, mul_left_inj' hunit.ne', mul_comm (n : ℚ)]
    exact_mod_cast Iff.rfl
  refine ⟨?_, ?_, ?_⟩
  · intro n hn hlimit
    have hwhole : t - s = p * n := (hcancel n).mp hn
    have hfits : |(n : ℤ)| < 10 ^ 28 := by
      have : maxDcSamples < 10 ^ 28 := by decide
      rw [abs_of_nonneg (by positivity)]
      omega
    have hcount : roundedSteps (s * 10 ^ e) (t * 10 ^ e) (p * 10 ^ e) = (n : ℤ) := by
      rw [hsteps, hwhole]
      push_cast
      rw [mul_div_cancel_left₀ _ hpos.ne', ← Int.cast_natCast]
      exact PyDecimal.round_of_fits (by simpa using PyDecimal.fits_intCast_mul (e := 0) hfits)
    refine ⟨?_, ?_⟩
    · unfold wholeSteps
      rw [hcount, Int.floor_intCast]
      omega
    · intro i hi
      have hle : p * i ≤ p * n := mul_le_mul_of_nonneg_left (by exact_mod_cast hi) hp.le
      rw [gridPoint_digits hs ht hp (by linarith)]
      push_cast
      ring
  · intro hbroken
    by_cases hover : maxDcSamples < wholeSteps (s * 10 ^ e) (t * 10 ^ e) (p * 10 ^ e) + 1
    · exact .inl hover
    · right
      intro hstop
      have hbelow : p * (wholeSteps (s * 10 ^ e) (t * 10 ^ e) (p * 10 ^ e) : ℤ) ≤ 2 * (t - s) := by
        unfold wholeSteps
        rw [hsteps]
        exact mul_wholeSteps_le (by omega) hp
      rw [gridPoint_digits hs ht hp hbelow, mul_left_inj' hunit.ne'] at hstop
      have hint : s + p * (wholeSteps (s * 10 ^ e) (t * 10 ^ e) (p * 10 ^ e) : ℤ) = t := by
        exact_mod_cast hstop
      exact hover (hbroken _ ((hcancel _).mpr (by linarith)))
  · intro count hcount
    obtain ⟨_, _, _, _, hintegral⟩ := gridSize_eq_some hcount
    rw [hsteps] at hintegral
    have hwhole := eq_mul_of_round (k := wholeSteps (s * 10 ^ e) (t * 10 ^ e) (p * 10 ^ e))
      (by omega) hwidth hp (by exact_mod_cast hintegral)
    rw [gridPoint_digits hs ht hp (by linarith)]
    have hstop : s + p * (wholeSteps (s * 10 ^ e) (t * 10 ^ e) (p * 10 ^ e) : ℤ) = t := by linarith
    rw [hstop]

end Digits

section Stages

/-- The conditions the compiler makes of a point whose sweep bounds are literals. -/
def compiledCount (analysis : Analysis) : Option ℕ :=
  match analysis with
  | .dcSweep _ (.literal start) (.literal stop) (.literal step) =>
    (dcGrid start.value stop.value step.value).toOption.map List.length
  | .dcSweep .. => none
  | _ => some 1

def SweepHarmless (analysis : Analysis) : Prop :=
  ∀ source start stop step,
    analysis = .dcSweep source (.literal start) (.literal stop) (.literal step) →
      RoundingHarmless start.value stop.value step.value

theorem uncompiledSuffixes_count {analysis : Analysis} (h : SweepHarmless analysis)
    (hcomplete : (uncompiledSuffixes analysis).2 = true) :
    compiledCount analysis = some (uncompiledSuffixes analysis).1.length := by
  cases analysis with
  | dcSweep source start stop step =>
    cases start with
    | literal start =>
      cases stop with
      | literal stop =>
        cases step with
        | literal step =>
          cases hsize : gridSize start.value stop.value step.value with
          | none => simp [uncompiledSuffixes, hsize] at hcomplete
          | some count =>
            obtain ⟨hstep, hrange, _⟩ := gridSize_eq_some hsize
            obtain ⟨values, hvalues, hlength⟩ :=
              ((h source start stop step rfl).contract hstep hrange).fallback count hsize
            simp [compiledCount, uncompiledSuffixes, hsize, hvalues, hlength, Except.toOption]
        | input inputId unit => cases hcomplete
        | affine inputId factor offset unit => cases hcomplete
      | input inputId unit => cases hcomplete
      | affine inputId factor offset unit => cases hcomplete
    | input inputId unit => cases hcomplete
    | affine inputId factor offset unit => cases hcomplete
  | pulseTrainTransient => rfl
  | phaseOffsetPairTransient => rfl
  | linearAc => rfl

/-- The attempts listed for a stage that was not compiled, when the list is marked complete. -/
theorem uncompiledAttempts_count (host : Host) (stage : Stage) (corner : Id) (reason : String)
    (h : ∀ point ∈ selectedPoints stage corner, SweepHarmless point.analysis)
    (hcomplete : (uncompiledAttempts host stage corner reason).2 = true) :
    ∃ counts, (selectedPoints stage corner).mapM (fun point => compiledCount point.analysis) =
      some counts ∧ (uncompiledAttempts host stage corner reason).1.length = counts.sum := by
  unfold uncompiledAttempts at hcomplete ⊢
  suffices hfold : ∀ (points : List ConditionPoint) (state : List ConditionAttempt × Bool),
      (∀ point ∈ points, SweepHarmless point.analysis) →
      (points.foldl (uncompiledStep host stage.id corner reason) state).2 = true →
      state.2 = true ∧ ∃ counts, points.mapM (fun point => compiledCount point.analysis) =
        some counts ∧ (points.foldl (uncompiledStep host stage.id corner reason) state).1.length =
          state.1.length + counts.sum by
    obtain ⟨_, counts, hcounts, hlength⟩ := hfold _ _ h hcomplete
    exact ⟨counts, hcounts, by simpa using hlength⟩
  intro points
  induction points with
  | nil => exact fun state _ hflag => ⟨hflag, [], rfl, by simp⟩
  | cons point rest ih =>
    intro state hharmless hflag
    rw [List.foldl_cons] at hflag ⊢
    obtain ⟨hstep, counts, hcounts, hlength⟩ :=
      ih _ (fun p hp => hharmless p (List.mem_cons_of_mem _ hp)) hflag
    have hboth : state.2 = true ∧ (uncompiledSuffixes point.analysis).2 = true := by
      simpa [uncompiledStep] using hstep
    have hcount := uncompiledSuffixes_count (hharmless point (List.mem_cons_self ..)) hboth.2
    refine ⟨hboth.1, (uncompiledSuffixes point.analysis).1.length :: counts, ?_, ?_⟩
    · rw [List.mapM_cons, hcount, hcounts]
      rfl
    · rw [hlength, List.sum_cons]
      simp only [uncompiledStep, List.length_append, List.length_map]
      omega

end Stages

section Specimen

def sweepPlan (start stop step : ℚ) : PlanDocument :=
  specimenPlan
    [specimenStage "first" [] [] (specimenPoint (.dcSweep "ramp" (literalSource start .V)
      (literalSource stop .V) (literalSource step .V)) [specimenWave] [specimenRule])]
    [] [⟨"wave", .measurement "first" "p" "wave", .V, .curve⟩]

end Specimen

end OpenADA.Runner
