import OpenADA.Library.ExceptFold
import OpenADA.Pdk.Parameters
import OpenADA.Scalars.Agreement

/-! The geometry envelope of a MOS card against the width that the simulator bins on. -/
namespace OpenADA.Pdk

open DecimalContext PyText
open Scalars

/-- `ngspice_options` of a profile. -/
def ngspiceOptions (pdkId : String) : List String :=
  if pdkId = "sky130A" then ["wnflag=1"] else []

def outOfRange : BindFault := .request "pdk.device.geometry_out_of_range"

section Card

variable (arithmetic : Arithmetic)

def statedValues (pairs : List (String × List Char)) (key : String) : List ℚ :=
  (pairs.filter fun pair => decide (pair.1 = key)).filterMap fun pair =>
    (parseSpiceNumber arithmetic pair.2).toOption.map FiniteDecimal.value

def fingers (pairs : List (String × List Char)) : ℚ :=
  ((statedValues arithmetic pairs "nf").getLast?).getD 1

/-- The width that the simulator bins on: that of one finger under `wnflag=1`, else the whole. -/
def binnedWidth (binding : BindingParameters) (pairs : List (String × List Char)) (width : ℚ) : ℚ :=
  if "wnflag=1" ∈ ngspiceOptions binding.pdkId then width / fingers arithmetic pairs else width

def LengthOutside (envelope : DeviceGeometry) (pairs : List (String × List Char)) : Prop :=
  ∃ length ∈ statedValues arithmetic pairs "l", envelope.outside "l" length = true

def WidthOutside (envelope : DeviceGeometry) (pairs : List (String × List Char)) : Prop :=
  ∃ width ∈ statedValues arithmetic pairs "w", envelope.outside "w" width = true

def BinnedOutside (binding : BindingParameters) (envelope : DeviceGeometry)
    (pairs : List (String × List Char)) : Prop :=
  ∃ width ∈ statedValues arithmetic pairs "w",
    envelope.outside "w" (binnedWidth arithmetic binding pairs width) = true

def Takeable (binding : BindingParameters) (pair : String × List Char) : Prop :=
  ∃ emitted, mosParameter arithmetic binding.mos none binding.geometryScale pair = .ok emitted

def StatedOutside (envelope : DeviceGeometry) (pair : String × List Char) : Prop :=
  (pair.1 = "l" ∨ pair.1 = "w") ∧ ∃ si, parseSpiceNumber arithmetic pair.2 = .ok si ∧
    envelope.outside pair.1 si.value = true

end Card

section Spec

variable {arithmetic : Arithmetic}

theorem parseSpiceNumber_ne_outOfRange (text : List Char) :
    parseSpiceNumber arithmetic text ≠ .error outOfRange := by
  unfold parseSpiceNumber outOfRange
  split
  · simp
  · split_ifs
    · simp
    · split
      · simp
      · split <;> simp
    · simp

theorem formatNumber_ne_outOfRange (value : Decimal) : formatNumber value ≠ .error outOfRange := by
  unfold formatNumber outOfRange
  split
  · split
    · simp
    · split_ifs <;> simp
  · simp
  · split_ifs <;> simp

theorem inUnit_ne_outOfRange (table : ParameterTable) (divisor : FiniteDecimal) (key : String)
    (value : List Char) (si : FiniteDecimal) : inUnit table divisor key value si ≠ .error outOfRange := by
  unfold inUnit rescaledText
  split_ifs
  · split
    · simp [outOfRange]
    · exact formatNumber_ne_outOfRange _
  · simp

def IsBinned (binding : BindingParameters) : Prop :=
  binding = sky130Parameters ∨ binding = gf180Parameters

variable {binding : BindingParameters} {envelope : DeviceGeometry} {pair : String × List Char}

theorem IsBinned.geometry (h : IsBinned binding) (key : String) :
    binding.mos.isGeometry key = true ↔ key = "l" ∨ key = "w" := by
  rcases h with rfl | rfl
  · simp [ParameterTable.isGeometry, sky130Parameters, lengths, or_comm]
  · simp [ParameterTable.isGeometry, gf180Parameters, lengths, or_comm]

theorem IsBinned.named (h : IsBinned binding) {key : String} (hkey : key = "l" ∨ key = "w") :
    ∃ spelling, binding.mos.parameterNames.lookup key = some spelling := by
  rcases h with rfl | rfl
  · rcases hkey with rfl | rfl
    · exact ⟨"l", by decide⟩
    · exact ⟨"w", by decide⟩
  · rcases hkey with rfl | rfl
    · exact ⟨"l", by decide⟩
    · exact ⟨"w", by decide⟩

/-- A length or a width: read, held against the envelope, and put into the unit. -/
theorem mosParameter_length (h : IsBinned binding) (hkey : pair.1 = "l" ∨ pair.1 = "w")
    (bounds : Option DeviceGeometry) : ∃ spelling,
      mosParameter arithmetic binding.mos bounds binding.geometryScale pair = (do
        let si ← parseSpiceNumber arithmetic pair.2
        if bounds.any fun envelope => envelope.outside pair.1 si.value then .error outOfRange
        else do
          let value ← inUnit binding.mos binding.geometryScale pair.1 pair.2 si
          .ok (some ⟨pair.1, pair.2, [spelling], value⟩)) := by
  obtain ⟨spelling, hspelling⟩ := h.named hkey
  refine ⟨spelling, ?_⟩
  unfold mosParameter
  rw [hspelling]
  dsimp only
  rw [if_pos ((h.geometry pair.1).mpr hkey)]
  rfl

theorem mosParameter_other (h : IsBinned binding) (hkey : ¬(pair.1 = "l" ∨ pair.1 = "w"))
    (bounds : Option DeviceGeometry) : ∃ emitted,
      mosParameter arithmetic binding.mos bounds binding.geometryScale pair = .ok emitted := by
  unfold mosParameter
  cases binding.mos.parameterNames.lookup pair.1 with
  | none => exact ⟨none, rfl⟩
  | some spelling =>
    dsimp only
    rw [if_neg (fun hgeometry => hkey ((h.geometry pair.1).mp hgeometry))]
    exact ⟨_, rfl⟩

theorem mosParameter_outside_iff (h : IsBinned binding) :
    mosParameter arithmetic binding.mos (some envelope) binding.geometryScale pair =
      .error outOfRange ↔ StatedOutside arithmetic envelope pair := by
  by_cases hkey : pair.1 = "l" ∨ pair.1 = "w"
  · obtain ⟨spelling, hparameter⟩ := mosParameter_length h hkey (some envelope)
    rw [hparameter]
    constructor
    · intro herror
      rcases Except.bind_eq_error.mp herror with hparse | ⟨si, hparse, herror⟩
      · exact absurd hparse (parseSpiceNumber_ne_outOfRange _)
      · split_ifs at herror with houtside
        · exact ⟨hkey, si, hparse, by simpa using houtside⟩
        · rcases Except.bind_eq_error.mp herror with hunit | ⟨_, _, herror⟩
          · exact absurd hunit (inUnit_ne_outOfRange _ _ _ _ _)
          · cases herror
    · rintro ⟨_, si, hparse, houtside⟩
      rw [hparse, Except.ok_bind, if_pos (by simpa using houtside)]
  · obtain ⟨emitted, hother⟩ := mosParameter_other h hkey (some envelope)
    rw [hother]
    constructor
    · intro herror
      cases herror
    · intro houtside
      exact absurd houtside.1 hkey

theorem mosParameter_ok_iff (h : IsBinned binding) :
    (∃ emitted, mosParameter arithmetic binding.mos (some envelope) binding.geometryScale pair =
      .ok emitted) ↔ Takeable arithmetic binding pair ∧ ¬StatedOutside arithmetic envelope pair := by
  by_cases hkey : pair.1 = "l" ∨ pair.1 = "w"
  · obtain ⟨spelling, hbounded⟩ :=
      mosParameter_length h hkey (some envelope)
    obtain ⟨spelling', hfree⟩ := mosParameter_length h hkey none
    unfold Takeable
    rw [hbounded, hfree]
    cases hparse : parseSpiceNumber arithmetic pair.2 with
    | error fault =>
      constructor
      · rintro ⟨_, hok⟩
        cases hok
      · rintro ⟨⟨_, hok⟩, _⟩
        cases hok
    | ok si =>
      have hstated : StatedOutside arithmetic envelope pair ↔
          envelope.outside pair.1 si.value = true := by
        constructor
        · rintro ⟨_, si', hparse', houtside⟩
          rw [hparse] at hparse'
          rwa [Except.ok.inj hparse']
        · exact fun houtside => ⟨hkey, si, hparse, houtside⟩
      rw [hstated]
      simp only [Except.ok_bind, Option.any_some, Option.any_none, Bool.false_eq_true, if_false]
      by_cases houtside : envelope.outside pair.1 si.value = true
      · rw [if_pos houtside]
        constructor
        · rintro ⟨_, hok⟩
          cases hok
        · exact fun hboth => absurd houtside hboth.2
      · rw [if_neg houtside]
        cases hunit : inUnit binding.mos binding.geometryScale pair.1 pair.2 si with
        | error fault =>
          constructor
          · rintro ⟨_, hok⟩
            cases hok
          · rintro ⟨⟨_, hok⟩, _⟩
            cases hok
        | ok value => exact ⟨fun _ => ⟨⟨_, rfl⟩, houtside⟩, fun _ => ⟨_, rfl⟩⟩
  · obtain ⟨emitted, hother⟩ := mosParameter_other h hkey (some envelope)
    obtain ⟨emitted', hfree⟩ := mosParameter_other h hkey none
    exact ⟨fun _ => ⟨⟨emitted', hfree⟩, fun houtside => hkey houtside.1⟩, fun _ => ⟨emitted, hother⟩⟩

def FirstOutside (arithmetic : Arithmetic) (binding : BindingParameters) (envelope : DeviceGeometry)
    (pairs : List (String × List Char)) : Prop :=
  ∃ before pair after, pairs = before ++ pair :: after ∧
    (∀ earlier ∈ before, Takeable arithmetic binding earlier) ∧
      StatedOutside arithmetic envelope pair

theorem mapM_outside_iff (h : IsBinned binding) {pairs : List (String × List Char)} :
    pairs.mapM (mosParameter arithmetic binding.mos (some envelope) binding.geometryScale) =
      .error outOfRange ↔ FirstOutside arithmetic binding envelope pairs := by
  rw [Except.mapM_eq_error]
  constructor
  · rintro ⟨before, pair, after, hpairs, hbefore, hpair⟩
    exact ⟨before, pair, after, hpairs,
      fun earlier hearlier => ((mosParameter_ok_iff h).mp (hbefore earlier hearlier)).1,
      (mosParameter_outside_iff h).mp hpair⟩
  · rintro ⟨before, pair, after, hpairs, hbefore, hpair⟩
    -- the first parameter outside is the one that is refused
    induction before generalizing pairs with
    | nil => exact ⟨[], pair, after, hpairs, by simp, (mosParameter_outside_iff h).mpr hpair⟩
    | cons first before ih =>
      by_cases hfirst : StatedOutside arithmetic envelope first
      · exact ⟨[], first, before ++ pair :: after, hpairs, by simp,
          (mosParameter_outside_iff h).mpr hfirst⟩
      · obtain ⟨htaken, hrest⟩ := List.forall_mem_cons.mp hbefore
        obtain ⟨before', pair', after', hsplit, htakes, hrefused⟩ :=
          ih rfl hrest
        refine ⟨first :: before', pair', after', ?_, ?_, hrefused⟩
        · rw [hpairs, List.cons_append, hsplit, List.cons_append]
        · exact List.forall_mem_cons.mpr ⟨(mosParameter_ok_iff h).mpr ⟨htaken, hfirst⟩, htakes⟩

theorem mem_statedValues {pairs : List (String × List Char)} {key : String} {value : ℚ} :
    value ∈ statedValues arithmetic pairs key ↔ ∃ text si, (key, text) ∈ pairs ∧
      parseSpiceNumber arithmetic text = .ok si ∧ si.value = value := by
  unfold statedValues
  rw [List.mem_filterMap]
  constructor
  · rintro ⟨⟨name, text⟩, hmem, hvalue⟩
    obtain ⟨hlisted, hname⟩ := List.mem_filter.mp hmem
    obtain rfl := of_decide_eq_true hname
    cases hparse : parseSpiceNumber arithmetic text with
    | error fault => simp [hparse, Except.toOption] at hvalue
    | ok si => exact ⟨text, si, hlisted, hparse, by simpa [hparse, Except.toOption] using hvalue⟩
  · rintro ⟨text, si, hmem, hparse, rfl⟩
    refine ⟨(key, text), List.mem_filter.mpr ⟨hmem, decide_eq_true rfl⟩, ?_⟩
    rw [hparse]
    rfl

theorem exists_statedOutside_iff {pairs : List (String × List Char)} :
    (∃ pair ∈ pairs, StatedOutside arithmetic envelope pair) ↔
      LengthOutside arithmetic envelope pairs ∨ WidthOutside arithmetic envelope pairs := by
  constructor
  · rintro ⟨⟨key, text⟩, hmem, hkey, si, hparse, houtside⟩
    rcases hkey with rfl | rfl
    · exact .inl ⟨si.value, mem_statedValues.mpr ⟨text, si, hmem, hparse, rfl⟩, houtside⟩
    · exact .inr ⟨si.value, mem_statedValues.mpr ⟨text, si, hmem, hparse, rfl⟩, houtside⟩
  · rintro (⟨value, hvalue, houtside⟩ | ⟨value, hvalue, houtside⟩)
    · obtain ⟨text, si, hmem, hparse, rfl⟩ := mem_statedValues.mp hvalue
      exact ⟨("l", text), hmem, .inl rfl, si, hparse, houtside⟩
    · obtain ⟨text, si, hmem, hparse, rfl⟩ := mem_statedValues.mp hvalue
      exact ⟨("w", text), hmem, .inr rfl, si, hparse, houtside⟩

theorem firstOutside_iff {pairs : List (String × List Char)}
    (hplain : ∀ pair ∈ pairs, Takeable arithmetic binding pair) :
    FirstOutside arithmetic binding envelope pairs ↔
      LengthOutside arithmetic envelope pairs ∨ WidthOutside arithmetic envelope pairs := by
  rw [← exists_statedOutside_iff]
  constructor
  · rintro ⟨before, pair, after, rfl, _, hpair⟩
    exact ⟨pair, by simp, hpair⟩
  · rintro ⟨pair, hmem, hpair⟩
    obtain ⟨before, after, rfl⟩ := List.append_of_mem hmem
    exact ⟨before, pair, after, rfl, fun earlier hearlier => hplain earlier (by simp [hearlier]),
      hpair⟩

end Spec

/-- A matched MOS card in a role of a binned platform that has an envelope. -/
structure BinnedCard (cases : CaseMap) (binding : Profile) (line : List Char) where
  card : CardMatch
  envelope : DeviceGeometry
  platform : IsBinned (parametersOf binding)
  plainLine : isDirectiveLine line = false
  matched : matchCard ['M', 'm'] 4 (splitCardCosmetics line).card = some card
  bound : ∃ target role translated, translateModel cases card.model binding =
    .ok (target, role, translated) ∧
      (parametersOf binding).deviceGeometry.lookup role = some envelope

section Cards

variable {cases : CaseMap} (arithmetic : Arithmetic) {binding : Profile} {line : List Char}

def BinnedCard.pairs (found : BinnedCard cases binding line) : List (String × List Char) :=
  authoredParameters cases found.card

def BinnedCard.Plain (found : BinnedCard cases binding line) : Prop :=
  ∀ pair ∈ found.pairs, Takeable arithmetic (parametersOf binding) pair

def BinnedCard.Unbinned (found : BinnedCard cases binding line) : Prop :=
  LengthOutside arithmetic found.envelope found.pairs ∨
    BinnedOutside arithmetic (parametersOf binding) found.envelope found.pairs

/-- The rewriter refuses the card as out of range exactly where the simulator finds no bin. -/
def BinnedCard.Checked (found : BinnedCard cases binding line) : Prop :=
  rewriteMosCard cases (bindingRules cases arithmetic) line binding = .error outOfRange ↔
    found.Unbinned arithmetic

variable {arithmetic}

theorem BinnedCard.refused_iff (found : BinnedCard cases binding line) :
    rewriteMosCard cases (bindingRules cases arithmetic) line binding = .error outOfRange ↔
      FirstOutside arithmetic (parametersOf binding) found.envelope found.pairs := by
  obtain ⟨target, role, translated, hmodel, henvelope⟩ := found.bound
  rw [← mapM_outside_iff found.platform]
  have hparameters : (bindingRules cases arithmetic).mos binding role found.card =
      .error outOfRange ↔ found.pairs.mapM (mosParameter arithmetic (parametersOf binding).mos
        (some found.envelope) (parametersOf binding).geometryScale) = .error outOfRange := by
    have hmos : mosParameters cases arithmetic (parametersOf binding) role found.card =
        .error outOfRange ↔ found.pairs.mapM (mosParameter arithmetic (parametersOf binding).mos
          (some found.envelope) (parametersOf binding).geometryScale) = .error outOfRange := by
      unfold mosParameters
      rw [henvelope, Except.bind_eq_error]
      constructor
      · rintro (h | ⟨_, _, h⟩)
        · exact h
        · cases h
      · exact Or.inl
    rw [← hmos]
    constructor
    · exact Except.map_eq_error
    · intro h
      show (mosParameters cases arithmetic (parametersOf binding) role found.card).map
        RewrittenParameters.shown = _
      rw [h]
      rfl
  rw [← hparameters]
  unfold rewriteMosCard
  rw [found.plainLine, if_neg Bool.false_ne_true]
  dsimp only
  rw [found.matched]
  dsimp only
  rw [hmodel, Except.ok_bind]
  dsimp only
  rw [Except.bind_eq_error]
  constructor
  · rintro (h | ⟨_, _, h⟩)
    · exact h
    · cases h
  · exact Or.inl

/-- Which cards are checked as the simulator bins them. -/
theorem envelope_checked_iff (cases : CaseMap) (arithmetic : Arithmetic) (binding : Profile)
    (line : List Char) (found : BinnedCard cases binding line) :
    (found.Checked arithmetic ↔
      (FirstOutside arithmetic (parametersOf binding) found.envelope found.pairs ↔
        found.Unbinned arithmetic)) ∧
    (found.Plain arithmetic → (found.Checked arithmetic ↔
      LengthOutside arithmetic found.envelope found.pairs ∨
        (WidthOutside arithmetic found.envelope found.pairs ↔
          BinnedOutside arithmetic (parametersOf binding) found.envelope found.pairs))) ∧
    (found.Plain arithmetic → parametersOf binding = gf180Parameters →
      found.Checked arithmetic) := by
  have hchecked : found.Checked arithmetic ↔
      (FirstOutside arithmetic (parametersOf binding) found.envelope found.pairs ↔
        found.Unbinned arithmetic) := by
    unfold BinnedCard.Checked
    rw [found.refused_iff]
  have hplain : found.Plain arithmetic → (found.Checked arithmetic ↔
      LengthOutside arithmetic found.envelope found.pairs ∨
        (WidthOutside arithmetic found.envelope found.pairs ↔
          BinnedOutside arithmetic (parametersOf binding) found.envelope found.pairs)) := by
    intro hplain
    rw [hchecked, firstOutside_iff hplain]
    unfold BinnedCard.Unbinned
    by_cases hlength : LengthOutside arithmetic found.envelope found.pairs
    · simp only [hlength, true_or]
    · simp only [hlength, false_or]
  refine ⟨hchecked, hplain, ?_⟩
  intro htaken hgf180
  rw [hplain htaken]
  right
  unfold WidthOutside BinnedOutside binnedWidth
  rw [hgf180]
  simp [ngspiceOptions, gf180Parameters]

end Cards

section Specimen

def wideCard : List Char := "M1 d g s b nmos.core w=200u l=1u nf=4".toList

def narrowCard : List Char := "M1 d g s b nmos.core w=1u l=1u nf=10".toList

def specimenCard (width count : List Char) : CardMatch :=
  ⟨"M1".toList, ["d".toList, "g".toList, "s".toList, "b".toList], "nmos.core".toList,
    ["w=".toList ++ width, "l=1u".toList, "nf=".toList ++ count]⟩

def nmosEnvelope : DeviceGeometry := ⟨15 / 10 ^ 8, 1 / 10 ^ 4, 36 / 10 ^ 8, 1 / 10 ^ 4⟩

theorem specimen_bound : ∃ target role translated,
    translateModel asciiCases "nmos.core".toList sky130A = .ok (target, role, translated) ∧
      (parametersOf sky130A).deviceGeometry.lookup role = some nmosEnvelope := by
  obtain ⟨⟨target, role, translated⟩, hmodel, hrole⟩ := Except.exists_ok_of_any
    (x := translateModel asciiCases "nmos.core".toList sky130A)
    (p := fun found => decide (found.2.1 = "nmos.core")) (by decide)
  refine ⟨target, role, translated, hmodel, ?_⟩
  obtain rfl : role = "nmos.core" := of_decide_eq_true hrole
  rfl

def wideBinned : BinnedCard asciiCases sky130A wideCard where
  card := specimenCard "200u".toList "4".toList
  envelope := nmosEnvelope
  platform := .inl rfl
  plainLine := by decide
  matched := by rfl
  bound := specimen_bound

def narrowBinned : BinnedCard asciiCases sky130A narrowCard where
  card := specimenCard "1u".toList "10".toList
  envelope := nmosEnvelope
  platform := .inl rfl
  plainLine := by decide
  matched := by rfl
  bound := specimen_bound

def stated (pairs : List (String × List Char)) : List ℚ × List ℚ × ℚ :=
  (statedValues plainArithmetic pairs "w", statedValues plainArithmetic pairs "l",
    fingers plainArithmetic pairs)

theorem wide_stated : stated wideBinned.pairs = ([1 / 5000], [1 / 10 ^ 6], 4) := by
  decide +kernel

theorem narrow_stated : stated narrowBinned.pairs = ([1 / 10 ^ 6], [1 / 10 ^ 6], 10) := by
  decide +kernel

theorem plain_of_all {line : List Char} {found : BinnedCard asciiCases sky130A line}
    (h : (found.pairs.all fun pair => (mosParameter plainArithmetic (parametersOf sky130A).mos none
      (parametersOf sky130A).geometryScale pair).toOption.isSome) = true) :
    found.Plain plainArithmetic := by
  intro pair hpair
  exact Except.exists_ok_of_isSome (List.all_eq_true.mp h pair hpair)

/-- The legal device of four fingers of 50 µm is refused, and the device of ten fingers of 0.1 µm,
for which there is no bin, is passed. -/
theorem multi_finger_misjudged :
    (rewriteMosCard asciiCases (bindingRules asciiCases plainArithmetic) wideCard sky130A =
        .error outOfRange ∧ ¬ wideBinned.Unbinned plainArithmetic) ∧
      rewriteMosCard asciiCases (bindingRules asciiCases plainArithmetic) narrowCard sky130A ≠
        .error outOfRange ∧ narrowBinned.Unbinned plainArithmetic := by
  have hwide := wide_stated
  have hnarrow := narrow_stated
  simp only [stated, Prod.mk.injEq] at hwide hnarrow
  have hwidePlain : wideBinned.Plain plainArithmetic := plain_of_all (by decide +kernel)
  have hnarrowPlain : narrowBinned.Plain plainArithmetic := plain_of_all (by decide +kernel)
  rw [wideBinned.refused_iff, firstOutside_iff hwidePlain, ne_eq, narrowBinned.refused_iff,
    firstOutside_iff hnarrowPlain]
  have hflag : "wnflag=1" ∈ ngspiceOptions (parametersOf sky130A).pdkId := by decide
  unfold BinnedCard.Unbinned LengthOutside WidthOutside BinnedOutside binnedWidth
  rw [hwide.1, hwide.2.1, hwide.2.2, hnarrow.1, hnarrow.2.1, hnarrow.2.2]
  simp only [hflag, if_true, List.mem_singleton, exists_eq_left]
  decide +kernel

end Specimen

end OpenADA.Pdk
