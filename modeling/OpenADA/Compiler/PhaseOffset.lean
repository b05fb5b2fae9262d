import OpenADA.Compiler.Conditions
import OpenADA.Library.DecimalRound
import OpenADA.Library.ExceptFold
import OpenADA.Plan.Facts

/-! The delays of the two sources of a phase-offset pair. -/
namespace OpenADA.Compiler

open OpenADA.Plan
open PyDecimal (Fits)

/-- The delays the two PULSE lines of a pair carry: the reference keeps the declared one. -/
def pairDelays (stimulusId : Id) (pulse : PulseShape) (phaseOffset : ValueSource)
    (inputs : BoundInputs) : Except CompileFailure (ℚ × ℚ) := do
  discard (pulseTimes stimulusId pulse)
  let phase ← resolveDecimal phaseOffset inputs s!"/stimuli/{stimulusId}/phase_offset"
  let offset ← offsetDelay pulse.delay phase pulse.period
  .ok (tokenValue pulse.delay, tokenValue offset)

theorem pairDelays_of_emitted {plan : PlanDocument} {values : SupplyValues} {inputs : BoundInputs}
    {stimulus : Stimulus} {dcValue : Option ℚ} {names : List String} {supplyId : Id}
    {referencePort offsetPort : String} {referencePolarity offsetPolarity : Polarity}
    {pulse : PulseShape} {phaseOffset : ValueSource}
    (hbody : stimulus.body = .phaseOffsetPair supplyId referencePort offsetPort referencePolarity
      offsetPolarity pulse phaseOffset)
    (h : serializeStimulus plan values inputs stimulus dcValue = .ok names) :
    ∃ delays, pairDelays stimulus.id pulse phaseOffset inputs = .ok delays := by
  unfold serializeStimulus at h
  simp only [hbody, supplyIdOf] at h
  split_ifs at h with hdeclared
  · obtain ⟨_, htimes, h⟩ := Except.bind_eq_ok.mp h
    obtain ⟨phase, hphase, h⟩ := Except.bind_eq_ok.mp h
    obtain ⟨_, hoffset, _⟩ := Except.bind_eq_ok.mp h
    cases hdelay : offsetDelay pulse.delay phase pulse.period with
    | error failure =>
      rw [hdelay] at hoffset
      cases hoffset
    | ok offset =>
      refine ⟨(tokenValue pulse.delay, tokenValue offset),
        Except.bind_eq_ok.mpr ⟨_, htimes, Except.bind_eq_ok.mpr ⟨phase, hphase, ?_⟩⟩⟩
      rw [hdelay]
      rfl
  · cases h

section Reduction

variable {delay phase period offset : ℚ}

theorem offsetDelay_eq_ok (h : offsetDelay delay phase period = .ok offset) :
    ∃ remainder, PyDecimal.rem (PyDecimal.add delay phase) period = some remainder ∧
      PyDecimal.rem (PyDecimal.add remainder period) period = some offset := by
  unfold offsetDelay at h
  cases hvalue : (PyDecimal.rem (PyDecimal.add delay phase) period).bind fun value =>
      PyDecimal.rem (PyDecimal.add value period) period with
  | none =>
    rw [hvalue] at h
    cases h
  | some value =>
    rw [hvalue] at h
    obtain rfl := Except.ok.inj h
    exact Option.bind_eq_some_iff.mp hvalue

theorem offsetDelay_range (hperiod : 0 < period) (hfits : Fits period)
    (h : offsetDelay delay phase period = .ok offset) : 0 ≤ offset ∧ offset < period := by
  obtain ⟨remainder, hfirst, hsecond⟩ := offsetDelay_eq_ok h
  obtain ⟨hsmall, _⟩ := PyDecimal.rem_eq_some (PyDecimal.fits_round _) hfits hperiod hfirst
  obtain ⟨hlt, hnonneg, _⟩ := PyDecimal.rem_eq_some (PyDecimal.fits_round _) hfits hperiod hsecond
  have hsum : 0 ≤ PyDecimal.add remainder period := by
    refine PyDecimal.round_nonneg ?_
    have := (abs_lt.mp hsmall).1
    linarith
  exact ⟨hnonneg hsum, (abs_lt.mp hlt).2⟩

/-- Where both sums are exact the offset is the declared one up to whole periods. -/
theorem offsetDelay_congruent (hperiod : 0 < period) (hfits : Fits period)
    (hsum : Fits (delay + phase)) (hraised : ∀ remainder,
      PyDecimal.rem (PyDecimal.add delay phase) period = some remainder → Fits (remainder + period))
    (h : offsetDelay delay phase period = .ok offset) :
    ∃ n : ℤ, offset - delay = phase + n * period := by
  obtain ⟨remainder, hfirst, hsecond⟩ := offsetDelay_eq_ok h
  obtain ⟨_, _, q, hq⟩ := PyDecimal.rem_eq_some (PyDecimal.fits_round _) hfits hperiod hfirst
  obtain ⟨_, _, r, hr⟩ := PyDecimal.rem_eq_some (PyDecimal.fits_round _) hfits hperiod hsecond
  refine ⟨1 - q - r, ?_⟩
  rw [PyDecimal.round_of_fits hsum] at hq
  rw [PyDecimal.round_of_fits (hraised remainder hfirst), hq] at hr
  rw [hr]
  push_cast
  ring

theorem eq_of_congruent {a b : ℚ} (hperiod : 0 < period) (ha : 0 ≤ a ∧ a < period)
    (hb : 0 ≤ b ∧ b < period) {n : ℤ} (h : a - b = n * period) : a = b := by
  have hone : |(n : ℚ)| * period < 1 * period := by
    rw [← abs_of_pos hperiod, ← abs_mul, ← h, abs_of_pos hperiod, one_mul, abs_lt]
    constructor <;> linarith [ha.1, ha.2, hb.1, hb.2]
  have hzero : |n| < 1 := by
    have hcast := lt_of_mul_lt_mul_right hone hperiod.le
    exact_mod_cast hcast
  rw [Int.abs_lt_one_iff.mp hzero, Int.cast_zero, zero_mul] at h
  linarith

end Reduction

section Accepted

variable {F : Type} [PyFloat F] {plan : PlanDocument}

theorem benchStimulus (h : Accepted F plan) {stimulus : Stimulus} (hs : stimulus ∈ plan.stimuli) :
    (benchContext F plan).stimuli.get? stimulus.id = some stimulus := by
  have hentries : (benchContext F plan).stimuli.entries = plan.stimuli.map fun s => (s.id, s) := by
    refine scan_index_entries Stimulus.id ?_ h.stimuli
    intro d i a hclean
    by_cases hmem : a.id ∈ d.keys
    · simp [stimulusStep, hmem] at hclean
    · exact ⟨hmem, by simp [stimulusStep, hmem]⟩
  rw [InsertionDict.get?_eq_some_iff, hentries]
  exact List.mem_map_of_mem hs

/-- The phase of an active pair is a time: the validator demands seconds. -/
theorem phaseOffset_unit (h : Accepted F plan) {stage : Stage} {point : ConditionPoint}
    (hs : stage ∈ plan.stages) (hp : point ∈ stage.points) {stimulus : Stimulus}
    (hstimulus : stimulus ∈ plan.stimuli) (hactive : stimulus.id ∈ point.activeStimulusIds)
    {supplyId : Id} {referencePort offsetPort : String} {referencePolarity offsetPolarity : Polarity}
    {pulse : PulseShape} {phaseOffset : ValueSource}
    (hbody : stimulus.body = .phaseOffsetPair supplyId referencePort offsetPort referencePolarity
      offsetPolarity pulse phaseOffset) : phaseOffset.unit = .s := by
  obtain ⟨stageInputs, path, hclean⟩ := point_clean h hs hp
  simp only [pointIssues, validateActiveStimuli, List.append_eq_nil_iff] at hclean
  obtain ⟨targets, index, hstep⟩ := Scan.run_clean_mem hclean.1.1.2.2 hactive
  simp only [activeStimulusStep, benchStimulus h hstimulus, hbody, List.append_eq_nil_iff] at hstep
  have hunit := hstep.1.2
  simp only [checkValueSource, List.append_eq_nil_iff, Option.toList_some, List.flatMap_cons,
    List.flatMap_nil, List.append_nil, issueIf_eq_nil, decide_eq_false_iff_not, not_not] at hunit
  exact hunit.2

end Accepted

/-- The delays of an accepted pair. Its phase is a time in seconds. The offset source's delay lies
in one period, and where the two sums of the lowering keep their digits it is the declared delay
plus the phase, up to whole periods. A reference delay below the period then leaves a shift below
the period, and none at all for a zero phase. -/
theorem pair_delays_sound (F : Type) [PyFloat F] (plan : PreparedPlan F) (stage : Stage)
    (hs : stage ∈ plan.document.stages) (point : ConditionPoint) (hp : point ∈ stage.points)
    (stimulus : Stimulus) (hstimulus : stimulus ∈ plan.document.stimuli)
    (hactive : stimulus.id ∈ point.activeStimulusIds) (supplyId : Id)
    (referencePort offsetPort : String) (referencePolarity offsetPolarity : Polarity)
    (pulse : PulseShape) (phaseOffset : ValueSource)
    (hbody : stimulus.body = .phaseOffsetPair supplyId referencePort offsetPort referencePolarity
      offsetPolarity pulse phaseOffset)
    (hperiod : 0 < pulse.period) (hdelay : 0 ≤ pulse.delay) (hdelayFits : Fits pulse.delay)
    (hperiodFits : Fits pulse.period) :
    phaseOffset.unit = .s ∧
    (∀ values inputs dcValue names,
      serializeStimulus plan.document values inputs stimulus dcValue = .ok names →
        ∃ delays, pairDelays stimulus.id pulse phaseOffset inputs = .ok delays) ∧
    ∀ inputs phase first second,
      resolveDecimal phaseOffset inputs s!"/stimuli/{stimulus.id}/phase_offset" = .ok phase →
      pairDelays stimulus.id pulse phaseOffset inputs = .ok (first, second) →
        first = pulse.delay ∧ 0 ≤ second ∧ second < pulse.period ∧
        (Fits (pulse.delay + phase) → (∀ remainder,
            PyDecimal.rem (PyDecimal.add pulse.delay phase) pulse.period = some remainder →
              Fits (remainder + pulse.period)) →
          (∃ n : ℤ, second - first = phase + n * pulse.period) ∧
          (pulse.delay < pulse.period →
            |second - first| < pulse.period ∧ (phase = 0 → second = first))) := by
  refine ⟨phaseOffset_unit (accepted_iff.mp plan.accepted) hs hp hstimulus hactive hbody, ?_, ?_⟩
  · exact fun values inputs dcValue names h => pairDelays_of_emitted hbody h
  · intro inputs phase first second hphase h
    obtain ⟨_, _, h⟩ := Except.bind_eq_ok.mp h
    rw [hphase, Except.ok_bind] at h
    obtain ⟨offset, hoffset, h⟩ := Except.bind_eq_ok.mp h
    obtain ⟨hfirst, hsecond⟩ := Prod.mk.inj (Except.ok.inj h)
    obtain ⟨hnonneg, hlt⟩ := offsetDelay_range hperiod hperiodFits hoffset
    obtain ⟨remainder, _, hlast⟩ := offsetDelay_eq_ok hoffset
    have hexact : tokenValue offset = offset := PyDecimal.round_of_fits (PyDecimal.fits_of_rem hlast)
    have hdelayExact : tokenValue pulse.delay = pulse.delay := PyDecimal.round_of_fits hdelayFits
    rw [hdelayExact] at hfirst
    rw [hexact] at hsecond
    subst hfirst hsecond
    refine ⟨rfl, hnonneg, hlt, ?_⟩
    intro hsum hraised
    obtain ⟨n, hn⟩ := offsetDelay_congruent hperiod hperiodFits hsum hraised hoffset
    refine ⟨⟨n, hn⟩, ?_⟩
    intro hbelow
    refine ⟨?_, ?_⟩
    · rw [abs_lt]
      constructor <;> linarith
    · rintro rfl
      rw [zero_add] at hn
      exact eq_of_congruent hperiod ⟨hnonneg, hlt⟩ ⟨hdelay, hbelow⟩ hn

section Specimen

def pairPulse (delay period : ℚ) : PulseShape :=
  ⟨⟨"main", 0⟩, ⟨"main", 1⟩, delay, 1, 1, 2, period, 4⟩

def pairStimulus (delay period : ℚ) (phase : ValueSource) : Stimulus where
  id := "pair"
  body := .phaseOffsetPair "main" "a" "b" .activeHigh .activeHigh (pairPulse delay period) phase

def pairPoint : ConditionPoint where
  id := "p"
  condition := ⟨"tt", 27, []⟩
  statePolicy := .fresh []
  settlePolicy := .fixedTime 0
  activeStimulusIds := ["pair"]
  analysis := .phaseOffsetPairTransient "pair" (literalSource 1 .s) (literalSource 8 .s)
  measurements := [specimenWave]
  validityRules := [specimenRule]

def pairPlan (delay period phase : ℚ) : PlanDocument :=
  let plan := specimenPlan [specimenStage "first" [] [] pairPoint] []
    [⟨"wave", .measurement "first" "p" "wave", .V, .curve⟩]
  { plan with
    dut := { specimenDut with
      ports := specimenDut.ports ++ [⟨"b", .input, []⟩]
      connections := specimenDut.connections ++ [("b", "b")] }
    stimuli := [pairStimulus delay period (literalSource phase .s)] }

def emittedDelays (delay period phase : ℚ) : Option (ℚ × ℚ) :=
  if validateTestbenchPlan ℚ (pairPlan delay period phase) = [] then
    (pairDelays "pair" (pairPulse delay period) (literalSource phase .s) .empty).toOption
  else none

/-- The two sources of a pair with no phase have one delay. -/
theorem pair_unshifted : ∃ first second,
    pairDelays "pair" (pairPulse 0 8) (literalSource 0 .s) .empty = .ok (first, second) ∧
      second = first := by
  have hfits : ∀ k : ℤ, |k| < 10 ^ 28 → Fits (k : ℚ) := fun k hk => ⟨k, 0, hk, by simp⟩
  have hsound := pair_delays_sound ℚ ⟨pairPlan 0 8 0, by decide +kernel⟩
    (specimenStage "first" [] [] pairPoint) (by simp [pairPlan, specimenPlan]) pairPoint
    (by simp [specimenStage]) (pairStimulus 0 8 (literalSource 0 .s)) (by simp [pairPlan])
    (by decide) "main" "a" "b" .activeHigh .activeHigh (pairPulse 0 8) (literalSource 0 .s) rfl
    (by norm_num [pairPulse]) (by norm_num [pairPulse]) (hfits 0 (by norm_num))
    (hfits 8 (by norm_num))
  have hemitted : (pairDelays "pair" (pairPulse 0 8) (literalSource 0 .s) .empty).toOption.isSome := by
    decide +kernel
  obtain ⟨⟨first, second⟩, hpair⟩ := Except.exists_ok_of_isSome hemitted
  have hphase : resolveDecimal (literalSource 0 .s) .empty "/stimuli/pair/phase_offset" =
      .ok 0 := by
    have hwithin : withinMagnitude 0 = true := by
      unfold withinMagnitude
      rw [abs_zero]
      exact decide_eq_true (Nat.cast_nonneg _)
    simp only [resolveDecimal, literalSource, decimal, hwithin, if_true]
  have hremainder : PyDecimal.rem (PyDecimal.add 0 0) 8 = some 0 := by
    decide +kernel
  have hshift := (hsound.2.2 .empty 0 first second hphase hpair).2.2.2
    (by simpa [pairPulse] using hfits 0 (by norm_num)) ?_
  · exact ⟨first, second, hpair, (hshift.2 (by norm_num [pairPulse])).2 rfl⟩
  · intro remainder hrem
    obtain rfl := Option.some.inj (hremainder.symm.trans hrem)
    simpa [pairPulse] using hfits 8 (by norm_num)

/-- A phase is not an angle, a delay of a period or more is reduced on one source only, and a sum
of more than 28 digits is rounded. -/
theorem phase_not_degrees :
    (emittedDelays 0 8 1 = some (0, 1) ∧ ∀ n : ℤ, (1 : ℚ) - 0 ≠ 1 / 360 * 8 + n * 8) ∧
    emittedDelays 10 8 0 = some (10, 2) ∧
    emittedDelays (1 / 10 ^ 28) 8 0 = some (1 / 10 ^ 28, 0) := by
  refine ⟨⟨by decide +kernel, ?_⟩, by decide +kernel, by decide +kernel⟩
  intro n h
  have hint : (360 : ℤ) = 8 + n * 2880 := by
    have hscaled : (360 : ℚ) = 8 + n * 2880 := by linarith
    exact_mod_cast hscaled
  omega

end Specimen

end OpenADA.Compiler
