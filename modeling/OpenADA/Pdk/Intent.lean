import OpenADA.Pdk.DiodeExact
import OpenADA.Pdk.ExactCards
import OpenADA.Pdk.Gating
import OpenADA.Pdk.Instances

/-! What becomes of what an author wrote on a device card: every node and every parameter stands in
the rewritten card, is reported as dropped, or went into the reported geometry of a diode. -/
namespace OpenADA.Pdk

open DecimalContext PyDecimal PyText
open Scalars

section Parameters

variable (arithmetic : Arithmetic) (table : ParameterTable) (divisor : FiniteDecimal)
  (parameters : RewrittenParameters)

/-- A parameter stands in a rewritten card, under the name that the PDK has for its key and in the
unit of the PDK. -/
def IsEmitted (pair : String × List Char) : Prop :=
  ∃ parameter ∈ parameters.emitted, parameter.key = pair.1 ∧ parameter.authored = pair.2 ∧
    parameter.spellings.head? = table.parameterNames.lookup pair.1 ∧
    InUnit arithmetic table divisor parameter

/-- A parameter stands in a rewritten card, or its key is reported as dropped. -/
def IsKept (pair : String × List Char) : Prop :=
  pair.1 ∈ parameters.dropped ∨ IsEmitted arithmetic table divisor parameters pair

variable {arithmetic table divisor parameters} {pair : String × List Char}
  {out : Option EmittedParameter}

/-- A parameter of a MOS card is left out where the PDK has no name for it, and else emitted. -/
theorem mosParameter_cases {envelope : Option DeviceGeometry}
    (h : mosParameter arithmetic table envelope divisor pair = .ok out) :
    (table.parameterNames.lookup pair.1 = none ∧ out = none) ∨
      ∃ spelling value, table.parameterNames.lookup pair.1 = some spelling ∧
        out = some ⟨pair.1, pair.2, [spelling], value⟩ := by
  unfold mosParameter at h
  cases hname : table.parameterNames.lookup pair.1 with
  | none =>
    rw [hname] at h
    exact Or.inl ⟨rfl, (Except.ok.inj h).symm⟩
  | some spelling =>
    simp only [hname] at h
    by_cases hgeometry : table.isGeometry pair.1 = true
    · rw [if_pos hgeometry] at h
      obtain ⟨si, -, h⟩ := Except.bind_eq_ok.mp h
      obtain ⟨-, h⟩ := Except.guard_eq_ok.mp h
      obtain ⟨value, -, h⟩ := Except.bind_eq_ok.mp h
      exact Or.inr ⟨spelling, value, rfl, (Except.ok.inj h).symm⟩
    · rw [if_neg hgeometry] at h
      exact Or.inr ⟨spelling, pair.2, rfl, (Except.ok.inj h).symm⟩

/-- A parameter of an extended card is left out where the PDK has no name for it, and else emitted,
with the companions of its name. -/
theorem extendedParameter_cases (h : extendedParameter arithmetic table divisor pair = .ok out) :
    (table.parameterNames.lookup pair.1 = none ∧ out = none) ∨
      ∃ spelling more value, table.parameterNames.lookup pair.1 = some spelling ∧
        out = some ⟨pair.1, pair.2, spelling :: more, value⟩ := by
  unfold extendedParameter at h
  cases hname : table.parameterNames.lookup pair.1 with
  | none =>
    rw [hname] at h
    exact Or.inl ⟨rfl, (Except.ok.inj h).symm⟩
  | some spelling =>
    simp only [hname] at h
    by_cases hscaled : divisor.value ≠ 1 ∧ table.isGeometry pair.1 = true
    · rw [if_pos hscaled] at h
      obtain ⟨si, -, h⟩ := Except.bind_eq_ok.mp h
      obtain ⟨value, -, h⟩ := Except.bind_eq_ok.mp h
      exact Or.inr ⟨spelling, _, value, rfl, (Except.ok.inj h).symm⟩
    · rw [if_neg hscaled] at h
      exact Or.inr ⟨spelling, _, pair.2, rfl, (Except.ok.inj h).symm⟩

theorem mem_droppedKeys {pairs : List (String × List Char)} (hpair : pair ∈ pairs)
    (hname : table.parameterNames.lookup pair.1 = none) : pair.1 ∈ droppedKeys table pairs := by
  rw [droppedKeys, List.mem_eraseDups, List.mem_filter]
  exact ⟨List.mem_map_of_mem hpair, by rw [hname]; rfl⟩

theorem lookup_ne_none {names : List (String × String)} {entry : String × String}
    (h : entry ∈ names) : names.lookup entry.1 ≠ none := by
  rw [Ne, List.lookup_eq_none_iff]
  intro hnone
  exact absurd (hnone entry h) (by simp)

theorem parametersOf_scale (binding : Profile) :
    (parametersOf binding).geometryScale.value = 1 ∨
      (parametersOf binding).geometryScale = micrometre := by
  unfold parametersOf
  cases hfound : bindingParameters.find? fun entry => entry.pdkId = binding.pdkId with
  | none => exact Or.inl metre_value
  | some found => exact geometryScale_cases (List.mem_of_find?_eq_some hfound)

end Parameters

section Cards

variable {cases : CaseMap} {arithmetic : Arithmetic} {binding : BindingParameters} {role : String}
  {table : ParameterTable} {card : CardMatch} {parameters : RewrittenParameters}

theorem mosParameters_kept
    (hscale : binding.geometryScale.value = 1 ∨ binding.geometryScale = micrometre)
    (h : mosParameters cases arithmetic binding role card = .ok parameters) :
    ∀ pair ∈ authoredParameters cases card,
      IsKept arithmetic binding.mos binding.geometryScale parameters pair := by
  obtain ⟨emitted, hemitted, h⟩ := Except.bind_eq_ok.mp h
  obtain rfl := Except.ok.inj h
  intro pair hpair
  obtain ⟨out, hout, hparameter⟩ := Except.exists_mem_of_mapM hemitted hpair
  rcases mosParameter_cases hparameter with ⟨hname, -⟩ | ⟨spelling, value, hname, rfl⟩
  · exact Or.inl (mem_droppedKeys hpair hname)
  · refine Or.inr ⟨_, List.mem_filterMap.mpr ⟨_, hout, rfl⟩, rfl, rfl, hname.symm, ?_⟩
    exact mosParameter_exact hscale hparameter

/-- The parameters that an extended card is rewritten with are kept, and those that the PDK has a
name for are emitted. -/
theorem extendedParameters_kept
    (hscale : binding.geometryScale.value = 1 ∨ binding.geometryScale = micrometre)
    (htable : table = (binding.deviceCards.lookup role).getD ⟨[], [], [], []⟩)
    (h : extendedParameters cases arithmetic binding role card = .ok parameters) :
    ∃ supplied note, suppliedParameters arithmetic table role (authoredParameters cases card) =
        .ok (supplied, note) ∧
      ∀ key value, supplied.get? key = some value →
        IsKept arithmetic table binding.geometryScale parameters (key, value) ∧
        (key ∈ table.parameterNames.map Prod.fst →
          IsEmitted arithmetic table binding.geometryScale parameters (key, value)) := by
  rw [htable]
  obtain ⟨⟨supplied, note⟩, hsupplied, h⟩ := Except.bind_eq_ok.mp h
  obtain ⟨emitted, hemitted, h⟩ := Except.bind_eq_ok.mp h
  obtain rfl := Except.ok.inj h
  refine ⟨supplied, note, hsupplied, fun key value hvalue => ?_⟩
  have hentry := InsertionDict.get?_eq_some_iff.mp hvalue
  obtain ⟨out, hout, hparameter⟩ := Except.exists_mem_of_mapM hemitted hentry
  rcases extendedParameter_cases hparameter with ⟨hname, -⟩ | ⟨spelling, more, shown, hname, rfl⟩
  · refine ⟨Or.inl (mem_droppedKeys hentry hname), fun hnamed => ?_⟩
    obtain ⟨entry, hmem, rfl⟩ := List.mem_map.mp hnamed
    exact absurd hname (lookup_ne_none hmem)
  · have hstands (dropped : List String) : IsEmitted arithmetic _ binding.geometryScale
        ⟨emitted.filterMap id, dropped⟩ (key, value) :=
      ⟨_, List.mem_filterMap.mpr ⟨_, hout, rfl⟩, rfl, rfl, hname.symm,
        extendedParameter_exact hscale hparameter⟩
    exact ⟨Or.inr (hstands _), fun _ => hstands _⟩

end Cards

def geometryKeys : List String := ["area", "pj", "w", "l"]

section Derivation

variable {T N : Type} {calculus : CardArithmetic T N} {accepted : List String}
  {authored supplied : InsertionDict String T} {note : Option (DiodeDerivation T)}

/-- The sides of a card are replaced by their area, and by their perimeter where the card takes one
and has none. -/
theorem areaOfSides_spec {width length : T}
    (h : calculus.areaOfSides accepted authored width length = .ok (supplied, note)) :
    ∃ area perimeter, note = some (.fromSides area perimeter) ∧ supplied.get? "area" = some area ∧
      (∀ p ∈ perimeter, "pj" ∈ accepted ∧ authored.get? "pj" = none ∧
        supplied.get? "pj" = some p) ∧
      (perimeter = none → supplied.get? "pj" = authored.get? "pj") ∧
      ∀ key ∉ geometryKeys, supplied.get? key = authored.get? key := by
  unfold CardArithmetic.areaOfSides at h
  obtain ⟨x, -, h⟩ := Except.bind_eq_ok.mp h
  obtain ⟨y, -, h⟩ := Except.bind_eq_ok.mp h
  simp only at h
  obtain ⟨-, h⟩ := Except.guard_eq_ok.mp h
  obtain ⟨area, -, h⟩ := Except.bind_eq_ok.mp h
  by_cases hpj : "pj" ∈ accepted ∧ (authored.get? "pj").isNone = true
  · rw [if_pos hpj] at h
    obtain ⟨perimeter, -, h⟩ := Except.bind_eq_ok.mp h
    obtain ⟨rfl, rfl⟩ := Prod.mk.inj (Except.ok.inj h)
    refine ⟨area, some perimeter, rfl, by simp, ?_, nofun, ?_⟩
    · rintro p ⟨⟩
      exact ⟨hpj.1, Option.isNone_iff_eq_none.mp hpj.2, by simp⟩
    · intro key hkey
      simp only [geometryKeys, List.mem_cons, List.not_mem_nil, or_false, not_or] at hkey
      simp [hkey]
  · rw [if_neg hpj] at h
    obtain ⟨rfl, rfl⟩ := Prod.mk.inj (Except.ok.inj h)
    refine ⟨area, none, rfl, by simp, nofun, fun _ => by simp, ?_⟩
    intro key hkey
    simp only [geometryKeys, List.mem_cons, List.not_mem_nil, or_false, not_or] at hkey
    simp [hkey]

/-- The area of a card is replaced by two sides, and its perimeter is taken off. -/
theorem sidesFromArea_spec {areaText : T}
    (h : calculus.sidesFromArea authored areaText = .ok (supplied, note)) :
    ∃ area perimeter width length square widthText lengthText,
      calculus.parse areaText = .ok area ∧
      (authored.get? "pj").mapM calculus.parse = .ok perimeter ∧
      calculus.sidesOfArea area perimeter = (width, length, square) ∧
      calculus.print width = .ok widthText ∧ calculus.print length = .ok lengthText ∧
      note = some (.fromArea perimeter.isSome widthText lengthText square) ∧
      supplied.get? "w" = some widthText ∧ supplied.get? "l" = some lengthText ∧
      ∀ key ∉ geometryKeys, supplied.get? key = authored.get? key := by
  unfold CardArithmetic.sidesFromArea at h
  obtain ⟨area, harea, h⟩ := Except.bind_eq_ok.mp h
  obtain ⟨perimeter, hperimeter, h⟩ := Except.bind_eq_ok.mp h
  obtain ⟨width, length, square, hsides⟩ : ∃ width length square,
      calculus.sidesOfArea area perimeter = (width, length, square) := ⟨_, _, _, rfl⟩
  simp only [hsides] at h
  by_cases hwindow : calculus.inWindow width = true
  · rw [if_pos hwindow] at h
    obtain ⟨widthText, hwidth, h⟩ := Except.bind_eq_ok.mp h
    obtain ⟨lengthText, hlength, h⟩ := Except.bind_eq_ok.mp h
    obtain ⟨rfl, rfl⟩ := Prod.mk.inj (Except.ok.inj h)
    refine ⟨area, perimeter, width, length, square, widthText, lengthText, harea, hperimeter,
      hsides, hwidth, hlength, rfl, by simp, by simp, ?_⟩
    intro key hkey
    simp only [geometryKeys, List.mem_cons, List.not_mem_nil, or_false, not_or] at hkey
    simp [hkey]
  · rw [if_neg hwindow] at h
    cases h

/-- The parameters of a diode: as they were authored, or with an area for two sides, or with two
sides for an area. -/
theorem derive_cases
    (h : deriveDiodeGeometry calculus accepted authored = .ok (supplied, note)) :
    (note = none ∧ supplied = authored) ∨
      (∃ width length, authored.get? "w" = some width ∧ authored.get? "l" = some length ∧
        authored.get? "area" = none ∧ "area" ∈ accepted ∧
        calculus.areaOfSides accepted authored width length = .ok (supplied, note)) ∨
      ∃ area, authored.get? "area" = some area ∧ "w" ∈ accepted ∧ "l" ∈ accepted ∧
        ¬ ((authored.get? "w").isSome = true ∧ (authored.get? "l").isSome = true) ∧
        calculus.sidesFromArea authored area = .ok (supplied, note) := by
  unfold deriveDiodeGeometry at h
  dsimp only at h
  have hlast {derive : Except BindFault (InsertionDict String T × Option (DiodeDerivation T))}
      (hbind : (derive >>= fun derived =>
        if ((requiredGeometry accepted).all fun key => (derived.1.get? key).isSome) = true then
          .ok derived
        else .error (.request "pdk.device.geometry_missing")) = .ok (supplied, note)) :
      derive = .ok (supplied, note) := by
    obtain ⟨derived, hderived, hbind⟩ := Except.bind_eq_ok.mp hbind
    split_ifs at hbind
    rw [hderived, Except.ok.inj hbind]
  have hsame (hok : (.ok (authored, none) : Except BindFault _) = .ok (supplied, note)) :
      note = none ∧ supplied = authored := by
    obtain ⟨rfl, rfl⟩ := Prod.mk.inj (Except.ok.inj hok)
    exact ⟨rfl, rfl⟩
  cases harea : authored.get? "area" with
  | some area =>
    simp only [harea] at h
    by_cases htakes : "w" ∈ accepted ∧ "l" ∈ accepted ∧
        ¬ ((authored.get? "w").isSome = true ∧ (authored.get? "l").isSome = true)
    · rw [if_pos htakes] at h
      exact Or.inr (Or.inr ⟨area, rfl, htakes.1, htakes.2.1, htakes.2.2, hlast h⟩)
    · rw [if_neg htakes] at h
      exact Or.inl (hsame (hlast h))
  | none =>
    cases hwidth : authored.get? "w" with
    | none =>
      simp only [harea, hwidth] at h
      exact Or.inl (hsame (hlast h))
    | some width =>
      cases hlength : authored.get? "l" with
      | none =>
        simp only [harea, hwidth, hlength] at h
        exact Or.inl (hsame (hlast h))
      | some length =>
        simp only [harea, hwidth, hlength] at h
        by_cases htakes : "area" ∈ accepted
        · rw [if_pos htakes] at h
          exact Or.inr (Or.inl ⟨width, length, rfl, rfl, rfl, htakes, hlast h⟩)
        · rw [if_neg htakes] at h
          exact Or.inl (hsame (hlast h))

end Derivation

section Diode

variable (arithmetic : Arithmetic) (table : ParameterTable) (divisor : FiniteDecimal)
  (parameters : RewrittenParameters) (authored : InsertionDict String (List Char))

/-- A parameter of a diode went into the reported conversion of its geometry, whose values stand in
the rewritten card: the area and the perimeter of the authored sides, or the sides that the binding
has for the authored area and perimeter. -/
def IsConverted (key : String) : DiodeDerivation (List Char) → Prop
  | .fromSides area perimeter =>
    key ∈ ["w", "l"] ∧ IsEmitted arithmetic table divisor parameters ("area", area) ∧
      (∀ p ∈ perimeter, IsEmitted arithmetic table divisor parameters ("pj", p)) ∧
      ∃ widthText lengthText width length, authored.get? "w" = some widthText ∧
        authored.get? "l" = some lengthText ∧
        parseSpiceNumber arithmetic widthText = .ok width ∧
        parseSpiceNumber arithmetic lengthText = .ok length ∧
        (∃ a, denoted arithmetic area = some a ∧ (a = width.value * length.value ↔
          bindingContext.Fits (width.value * length.value))) ∧
        ∀ p ∈ perimeter, ∃ q, denoted arithmetic p = some q ∧
          (q = 2 * (width.value + length.value) ↔
            bindingContext.Fits (width.value + length.value) ∧
              bindingContext.Fits (2 * (width.value + length.value)))
  | .fromArea given widthText lengthText square =>
    key ∈ ["area", "pj"] ∧ IsEmitted arithmetic table divisor parameters ("w", widthText) ∧
      IsEmitted arithmetic table divisor parameters ("l", lengthText) ∧
      ∃ areaText area perimeter width length, authored.get? "area" = some areaText ∧
        (bindingArithmetic arithmetic).parse areaText = .ok area ∧
        (authored.get? "pj").mapM (bindingArithmetic arithmetic).parse = .ok perimeter ∧
        given = perimeter.isSome ∧
        (bindingArithmetic arithmetic).sidesOfArea area perimeter = (width, length, square) ∧
        (bindingArithmetic arithmetic).print width = .ok widthText ∧
        (bindingArithmetic arithmetic).print length = .ok lengthText

def IsLoneSide (key : String) (note : Option (DiodeDerivation (List Char))) : Prop :=
  key ∈ ["w", "l"] ∧ ∃ given width length square, note = some (.fromArea given width length square)

variable {arithmetic table divisor parameters authored}
  {supplied : InsertionDict String (List Char)} {note : Option (DiodeDerivation (List Char))}

theorem parse_of_binding {text : List Char} {number : Option FiniteDecimal}
    (h : (bindingArithmetic arithmetic).parse text = .ok number) :
    ∃ value, parseSpiceNumber arithmetic text = .ok value :=
  (Except.map_eq_ok.mp h).imp fun _ => And.left

/-- Every authored parameter of a diode is kept or converted, but for one side beside an area. -/
theorem derived_kept
    (hkept : ∀ key value, supplied.get? key = some value →
      IsKept arithmetic table divisor parameters (key, value) ∧
      (key ∈ table.parameterNames.map Prod.fst →
        IsEmitted arithmetic table divisor parameters (key, value)))
    (h : deriveDiodeGeometry (bindingArithmetic arithmetic) (table.parameterNames.map Prod.fst)
      authored = .ok (supplied, note))
    {key : String} {value : List Char} (hvalue : authored.get? key = some value)
    (hside : ¬ IsLoneSide key note) :
    IsKept arithmetic table divisor parameters (key, value) ∨
      ∃ derivation ∈ note, IsConverted arithmetic table divisor parameters authored key
        derivation := by
  rcases derive_cases h with ⟨-, rfl⟩ | ⟨widthText, lengthText, hw, hl, harea, htakes, hsides⟩ |
    ⟨areaText, harea, hw, hl, -, hderived⟩
  · exact Or.inl (hkept key value hvalue).1
  · obtain ⟨area, perimeter, rfl, hsized, hperimeter, hsame, hother⟩ := areaOfSides_spec hsides
    by_cases hkey : key ∈ geometryKeys
    · simp only [geometryKeys, List.mem_cons, List.not_mem_nil, or_false] at hkey
      rcases hkey with rfl | rfl | hkey
      · rw [harea] at hvalue
        cases hvalue
      · cases perimeter with
        | none => exact Or.inl (hkept "pj" value ((hsame rfl).trans hvalue)).1
        | some p =>
          rw [(hperimeter p rfl).2.1] at hvalue
          cases hvalue
      · right
        have hparses := hsides
        unfold CardArithmetic.areaOfSides at hparses
        obtain ⟨_, hwidth, hparses⟩ := Except.bind_eq_ok.mp hparses
        obtain ⟨_, hlength, -⟩ := Except.bind_eq_ok.mp hparses
        obtain ⟨width, hwidth⟩ := parse_of_binding hwidth
        obtain ⟨length, hlength⟩ := parse_of_binding hlength
        obtain ⟨⟨a, text, htext, ha, haiff⟩, hpj⟩ := areaOfSides_denoted hwidth hlength hsides
        obtain rfl := Option.some.inj (hsized.symm.trans htext)
        refine ⟨_, rfl, by simpa using hkey, (hkept "area" area hsized).2 htakes, ?_, widthText,
          lengthText, width, length, hw, hl, hwidth, hlength, ⟨a, ha, haiff⟩, ?_⟩
        · intro p hp
          obtain ⟨htakesPerimeter, -, hgiven⟩ := hperimeter p hp
          exact (hkept "pj" p hgiven).2 htakesPerimeter
        · intro p hp
          obtain ⟨htakesPerimeter, hnone, hgiven⟩ := hperimeter p hp
          obtain ⟨q, text, htext, hq, hqiff⟩ := hpj htakesPerimeter hnone
          obtain rfl := Option.some.inj (hgiven.symm.trans htext)
          exact ⟨q, hq, hqiff⟩
    · exact Or.inl (hkept key value ((hother key hkey).trans hvalue)).1
  · obtain ⟨area, perimeter, width, length, square, widthText, lengthText, hparse, hperimeter,
      hsides, hwidth, hlength, rfl, hgivenWidth, hgivenLength, hother⟩ := sidesFromArea_spec hderived
    by_cases hkey : key ∈ geometryKeys
    · right
      refine ⟨_, rfl, ?_, (hkept "w" widthText hgivenWidth).2 hw,
        (hkept "l" lengthText hgivenLength).2 hl, areaText, area, perimeter, width, length, harea,
        hparse, hperimeter, rfl, hsides, hwidth, hlength⟩
      by_contra hnot
      refine hside ⟨?_, _, _, _, _, rfl⟩
      simp only [geometryKeys, List.mem_cons, List.not_mem_nil, or_false] at hkey hnot ⊢
      rcases hkey with hkey | hkey | hkey
      · exact absurd (Or.inl hkey) hnot
      · exact absurd (Or.inr hkey) hnot
      · exact hkey
    · exact Or.inl (hkept key value ((hother key hkey).trans hvalue)).1

/-- Every authored parameter of an extended card is kept or converted, but for one side beside an
area. -/
theorem supplied_kept {role : String} {pairs : List (String × List Char)}
    (hkept : ∀ key value, supplied.get? key = some value →
      IsKept arithmetic table divisor parameters (key, value) ∧
      (key ∈ table.parameterNames.map Prod.fst →
        IsEmitted arithmetic table divisor parameters (key, value)))
    (h : suppliedParameters arithmetic table role pairs = .ok (supplied, note))
    {pair : String × List Char} (hpair : pair ∈ pairs) (hside : ¬ IsLoneSide pair.1 note) :
    IsKept arithmetic table divisor parameters pair ∨ role = "diode.core" ∧
      ∃ derivation ∈ note, IsConverted arithmetic table divisor parameters (.ofList pairs) pair.1
        derivation := by
  obtain ⟨given, hgiven, h⟩ := Except.bind_eq_ok.mp h
  unfold validatedExtendedParameters at hgiven
  by_cases hdistinct : (pairs.map Prod.fst).Nodup
  · rw [if_pos hdistinct] at hgiven
    obtain ⟨_, -, hgiven⟩ := Except.bind_eq_ok.mp hgiven
    obtain rfl := Except.ok.inj hgiven
    have hvalue := (InsertionDict.get?_ofList hdistinct).mpr hpair
    by_cases hrole : role = "diode.core"
    · rw [if_pos hrole] at h
      exact (derived_kept hkept h hvalue hside).imp_right fun hconverted => ⟨hrole, hconverted⟩
    · rw [if_neg hrole] at h
      obtain ⟨rfl, rfl⟩ := Prod.mk.inj (Except.ok.inj h)
      exact Or.inl (hkept pair.1 pair.2 hvalue).1
  · rw [if_neg hdistinct] at hgiven
    cases hgiven

end Diode

section Lines

variable (line : List Char) (card : CardMatch) (parameters : RewrittenParameters)

/-- How a rewritten card is made of the card of a line: behind its name, perhaps prefixed, stand its
nodes up to those that are reported, the model, and the parameters, between the indentation and the
comment of the line. -/
structure MadeOf (rewritten : RewrittenCard) : Prop where
  text : ∃ name nodes, (name = card.name ∨ name = 'x' :: card.name) ∧
    nodes ++ rewritten.droppedNodes = card.nodes ∧
    rewritten.text = (splitCardCosmetics line).indent ++
      joinBlank ([name] ++ nodes ++ [rewritten.targetModel.toList] ++
        parameters.emitted.flatMap EmittedParameter.tokens) ++
      (splitCardCosmetics line).comment ++ (splitCardCosmetics line).newline
  dropped : rewritten.dropped = parameters.dropped

variable (cases : CaseMap) (arithmetic : Arithmetic) (binding : Profile)
  (rewritten : RewrittenCard)

/-- The line is a MOS card, and every node and every parameter of it is kept. -/
def MosKept : Prop :=
  ∃ card parameters, matchCard ['M', 'm'] 4 (splitCardCosmetics line).card = some card ∧
    MadeOf line card parameters rewritten ∧
    ∀ pair ∈ authoredParameters cases card, IsKept arithmetic (parametersOf binding).mos
      (parametersOf binding).geometryScale parameters pair

def tableOf (role : String) : ParameterTable :=
  ((parametersOf binding).deviceCards.lookup role).getD ⟨[], [], [], []⟩

/-- The line is an extended card, every node of it is kept, and every parameter is kept or went into
the conversion that `note` reports, but for one side beside an area. -/
def DeviceKept : Prop :=
  ∃ kind ∈ extendedCards, ∃ card parameters, ∃ note : Option (DiodeDerivation (List Char)),
    matchCard [kind.letter.toUpper, kind.letter] kind.nodes (splitCardCosmetics line).card =
      some card ∧
    MadeOf line card parameters rewritten ∧
    (∃ supplied, suppliedParameters arithmetic (tableOf binding rewritten.role) rewritten.role
      (authoredParameters cases card) = .ok (supplied, note)) ∧
    ∀ pair ∈ authoredParameters cases card, ¬ IsLoneSide pair.1 note →
      IsKept arithmetic (tableOf binding rewritten.role) (parametersOf binding).geometryScale
        parameters pair ∨
      rewritten.role = "diode.core" ∧ ∃ derivation ∈ note,
        IsConverted arithmetic (tableOf binding rewritten.role)
          (parametersOf binding).geometryScale parameters
          (.ofList (authoredParameters cases card)) pair.1 derivation

variable {cases arithmetic binding line rewritten}

theorem rewriteMosCard_kept
    (h : rewriteMosCard cases (bindingRules cases arithmetic) line binding = .ok (some rewritten)) :
    MosKept line cases arithmetic binding rewritten := by
  unfold rewriteMosCard at h
  split at h
  · cases h
  simp only at h
  split at h
  · split at h <;> cases h
  rename_i card hcard
  obtain ⟨⟨target, role, translated⟩, -, h⟩ := Except.bind_eq_ok.mp h
  obtain ⟨shown, hshown, h⟩ := Except.bind_eq_ok.mp h
  obtain rfl := Option.some.inj (Except.ok.inj h)
  obtain ⟨parameters, hparameters, rfl⟩ := Except.map_eq_ok.mp hshown
  refine ⟨card, parameters, hcard, ⟨⟨_, card.nodes, ?_, List.append_nil _, rfl⟩, rfl⟩,
    mosParameters_kept (parametersOf_scale binding) hparameters⟩
  by_cases hprefix : binding.devicePrefix = 'x'
  · exact Or.inr (if_pos hprefix)
  · exact Or.inl (if_neg hprefix)

theorem rewriteDeviceCard_kept
    (h : rewriteDeviceCard cases (bindingRules cases arithmetic) line binding =
      .ok (some rewritten)) : DeviceKept line cases arithmetic binding rewritten := by
  unfold rewriteDeviceCard at h
  split at h
  · cases h
  simp only at h
  split at h
  · cases h
  rename_i kind hkind
  split at h
  · cases h
  split at h
  · split at h <;> cases h
  rename_i card hcard
  split at h
  · split at h
    · obtain ⟨_, -, h⟩ := Except.bind_eq_ok.mp h
      cases h
    · cases h
  unfold rewriteExtended at h
  obtain ⟨⟨target, role, translated⟩, -, h⟩ := Except.bind_eq_ok.mp h
  simp only at h
  split at h
  · cases h
  rename_i spec hspec
  obtain ⟨shown, hshown, h⟩ := Except.bind_eq_ok.mp h
  obtain rfl := Option.some.inj (Except.ok.inj h)
  obtain ⟨parameters, hparameters, rfl⟩ := Except.map_eq_ok.mp hshown
  obtain ⟨supplied, note, hsupplied, hkept⟩ :=
    extendedParameters_kept (parametersOf_scale binding) rfl hparameters
  refine ⟨kind, List.mem_of_find?_eq_some hkind, card, parameters, note, hcard,
    ⟨⟨_, card.nodes.take (spec.emitNodes.getD card.nodes.length), ?_, List.take_append_drop _ _,
      rfl⟩, rfl⟩, ⟨supplied, hsupplied⟩,
    fun pair hpair hside => supplied_kept hkept hsupplied hpair hside⟩
  by_cases hsubckt : spec.subckt = true
  · exact Or.inr (if_pos hsubckt)
  · exact Or.inl (if_neg hsubckt)

theorem extendSaveCard_of_card {alnum : Char → Bool} {currents : List (List Char)}
    {initials : List Char} {count : ℕ} {card : CardMatch}
    (hcard : matchCard initials count
      (splitCardCosmetics (extendSaveCard cases alnum currents line)).card = some card)
    (hinitials : (initials.all fun c => !isSpace c && decide (c ≠ '.')) = true) :
    extendSaveCard cases alnum currents line = line := by
  cases hsave : isSaveCard alnum line with
  | true => exact absurd (head_of_save hsave) (head_ne_period hcard hinitials)
  | false =>
    unfold extendSaveCard
    rw [if_neg (by rw [hsave]; exact Bool.false_ne_true)]

theorem bindLine_kept {alnum : Char → Bool} {currents : List (List Char)} {out : BoundLine}
    (h : bindLine cases alnum (bindingRules cases arithmetic) binding currents line = .ok out)
    (hcard : rewritten ∈ out.card?) : out.text = rewritten.text ∧
      (MosKept line cases arithmetic binding rewritten ∨
        DeviceKept line cases arithmetic binding rewritten) := by
  unfold bindLine at h
  obtain ⟨mos, hmos, h⟩ := Except.bind_eq_ok.mp h
  have hline {initials : List Char} {count : ℕ} {card : CardMatch}
      (hmatch : matchCard initials count (splitCardCosmetics (if currents = [] then line
        else extendSaveCard cases alnum currents line)).card = some card)
      (hinitials : (initials.all fun c => !isSpace c && decide (c ≠ '.')) = true) :
      (if currents = [] then line else extendSaveCard cases alnum currents line) = line := by
    by_cases hnone : currents = []
    · rw [if_pos hnone]
    · rw [if_neg hnone] at hmatch ⊢
      exact extendSaveCard_of_card hmatch hinitials
  cases mos with
  | some card =>
    obtain rfl := Except.ok.inj h
    obtain rfl := Option.some.inj hcard
    have hkept := rewriteMosCard_kept hmos
    obtain ⟨_, _, hmatch, -⟩ := hkept
    rw [hline hmatch (by decide)] at hmos
    exact ⟨rfl, Or.inl (rewriteMosCard_kept hmos)⟩
  | none =>
    obtain ⟨device, hdevice, h⟩ := Except.bind_eq_ok.mp h
    cases device with
    | none =>
      obtain rfl := Except.ok.inj h
      cases hcard
    | some card =>
      obtain rfl := Except.ok.inj h
      obtain rfl := Option.some.inj hcard
      have hkept := rewriteDeviceCard_kept hdevice
      obtain ⟨kind, hkind, _, _, _, hmatch, -⟩ := hkept
      rw [hline hmatch (extendedCards_initials kind hkind)] at hdevice
      exact ⟨rfl, Or.inr (rewriteDeviceCard_kept hdevice)⟩

end Lines

section Sides

variable {area width length : ℝ} {perimeter : Option ℝ} {square : Option SquareReason}

/-- In exact arithmetic the sides that stand for an area and a perimeter have both, or they are
reported as those of a square and have the area. -/
theorem sidesOfArea_realise (harea : InWindow area) (hperimeter : ∀ p ∈ perimeter, InWindow p)
    (h : exactArithmetic.sidesOfArea area perimeter = (width, length, square)) :
    width * length = area ∧ (square = none → ∃ p ∈ perimeter, 2 * (width + length) = p) ∧
      (square ≠ none → width = length ∧ ∀ p ∈ perimeter, ¬ HasRectangle area p) := by
  have hsquare : Real.sqrt area * Real.sqrt area = area := Real.mul_self_sqrt harea.pos.le
  cases perimeter with
  | none =>
    obtain ⟨rfl, hrest⟩ := Prod.mk.inj h
    obtain ⟨rfl, rfl⟩ := Prod.mk.inj hrest
    exact ⟨hsquare, nofun, fun _ => ⟨rfl, nofun⟩⟩
  | some p =>
    have hpositive := (hperimeter p rfl).pos
    rcases sidesOfArea_exact harea hpositive with ⟨hrectangle, hsides⟩ | ⟨hnone, reason, hsides⟩
    · obtain ⟨hdiscriminant, hlong, -⟩ := (hasRectangle_iff harea.pos hpositive).mp hrectangle
      rw [hsides] at h
      obtain ⟨rfl, hrest⟩ := Prod.mk.inj h
      obtain ⟨rfl, rfl⟩ := Prod.mk.inj hrest
      refine ⟨mul_div_cancel₀ area hlong.pos.ne', fun _ => ⟨p, rfl, ?_⟩, fun hne => absurd rfl hne⟩
      exact longSide_add hpositive hdiscriminant
    · rw [hsides] at h
      obtain ⟨rfl, hrest⟩ := Prod.mk.inj h
      obtain ⟨rfl, rfl⟩ := Prod.mk.inj hrest
      refine ⟨hsquare, nofun, fun _ => ⟨rfl, ?_⟩⟩
      rintro q ⟨⟩
      exact hnone

end Sides

def unfitDiode : List Char := "D1 a c diode.core area=4p pj=1u\n".toList

end OpenADA.Pdk
