import OpenADA.Library.JsonAccess
import OpenADA.Series.Extract
import Mathlib.Data.List.DropRight

/-! The selection template a simulation leaves for its raw file, and when the extraction accepts
it. -/
namespace OpenADA.Series

open PyStr

section Model

/-- `_VECTOR_UNITS`, in the order of their names. -/
inductive VectorUnit where
  | ampere
  | volt
  deriving DecidableEq

def VectorUnit.name : VectorUnit → String
  | .ampere => "A"
  | .volt => "V"

/-- `_vector_unit`: lowering a name changes no parenthesis, and no letter but v and i becomes one
of these with a parenthesis after it. -/
def vectorUnit : PyStr → Option VectorUnit
  | [] => none
  | c :: rest =>
    if c = point '@' then some .ampere
    else if rest.head? ≠ some (point '(') then none
    else if c = point 'v' ∨ c = point 'V' then some .volt
    else if c = point 'i' ∨ c = point 'I' then some .ampere
    else none

def maxTemplateVectors : ℕ := 8

def uniqueVectors (signals : List PyStr) : List PyStr :=
  signals.foldl (fun unique name =>
    if (vectorUnit name).isSome ∧ name ∉ unique then unique ++ [name] else unique) []

def firstOfUnit (unique : List PyStr) (unit : VectorUnit) : PyStr :=
  (unique.find? fun name => vectorUnit name = some unit).getD []

/-- `_template_vectors`. -/
def templateVectors (signals : List PyStr) : List PyStr :=
  let unique := uniqueVectors signals
  if unique.length ≤ maxTemplateVectors then unique
  else
    let kept := unique.take maxTemplateVectors
    let missing := [VectorUnit.ampere, .volt].filter fun unit =>
      some unit ∈ unique.map vectorUnit ∧ some unit ∉ kept.map vectorUnit
    missing.zipIdx.foldl (fun kept entry =>
      if kept.length ≤ entry.2 then kept
      else kept.set (kept.length - 1 - entry.2) (firstOfUnit unique entry.1)) kept

def isWordChar (c : CodePoint) : Bool :=
  isLower c || (point 'A' ≤ c && c ≤ point 'Z') || isDigit c || c = point '_'

/-- The stem of an output name: other characters become underscores, and none is left at an end. -/
def stem (name : PyStr) : PyStr :=
  ((name.map fun c => if isWordChar c then c else point '_').dropWhile (· = point '_')).rdropWhile
    (· = point '_')

def components (complexPlot : Bool) : List (Component × String) :=
  if complexPlot then [(.real, "_re"), (.imaginary, "_im")] else [(.real, "")]

def Component.name : Component → String
  | .real => "real"
  | .imaginary => "imaginary"

structure TemplateSelector where
  nativeName : PyStr
  outputName : PyStr
  unit : VectorUnit
  component : Component

def TemplateSelector.json {F : Type} (selector : TemplateSelector) : PyJson F :=
  .object [(lit "native_name", .str selector.nativeName),
    (lit "output_name", .str selector.outputName), (lit "unit", .str (lit selector.unit.name)),
    (lit "component", .str (lit selector.component.name))]

def vectorSelectors (complexPlot : Bool) (name : PyStr) : List TemplateSelector :=
  match vectorUnit name with
  | some unit => (components complexPlot).map fun entry =>
      ⟨name, stem name ++ lit entry.2, unit, entry.1⟩
  | none => []

def templateSelectors (signals : List PyStr) (complexPlot : Bool) : List TemplateSelector :=
  (templateVectors signals).flatMap (vectorSelectors complexPlot)

/-- The document `_write_selection_template` writes, if it writes one. -/
def selectionTemplate {F : Type} (signals : List PyStr) (complexPlot : Bool) : Option (PyJson F) :=
  let entries := templateSelectors signals complexPlot
  if entries.isEmpty then none
  else some (.object [(lit "selectors", .array (entries.map TemplateSelector.json)),
    (lit "conditions", .array []), (lit "extensions", .object [])])

end Model

section Vectors

/-- The vectors a template names: all where they fit; else the first eight, of which the last gives
way to the first vector of a unit that none of them has. -/
def namedVectors (signals : List PyStr) : List PyStr :=
  let unique := uniqueVectors signals
  if unique.length ≤ maxTemplateVectors then unique
  else
    match [VectorUnit.ampere, .volt].find? fun unit => some unit ∈ unique.map vectorUnit ∧
        some unit ∉ (unique.take maxTemplateVectors).map vectorUnit with
    | some unit => unique.take 7 ++ [firstOfUnit unique unit]
    | none => unique.take maxTemplateVectors

theorem uniqueVectors_spec (signals : List PyStr) :
    (uniqueVectors signals).Nodup ∧ (uniqueVectors signals).Sublist signals ∧
      ∀ name, name ∈ uniqueVectors signals ↔ name ∈ signals ∧ (vectorUnit name).isSome = true := by
  unfold uniqueVectors
  suffices h : ∀ done rest : List PyStr, ∀ unique : List PyStr, unique.Nodup →
      unique.Sublist done → (∀ name, name ∈ unique ↔ name ∈ done ∧ (vectorUnit name).isSome = true) →
      (rest.foldl (fun unique name =>
        if (vectorUnit name).isSome ∧ name ∉ unique then unique ++ [name] else unique) unique).Nodup ∧
      (rest.foldl (fun unique name =>
        if (vectorUnit name).isSome ∧ name ∉ unique then unique ++ [name] else unique) unique).Sublist
          (done ++ rest) ∧
      ∀ name, name ∈ (rest.foldl (fun unique name =>
        if (vectorUnit name).isSome ∧ name ∉ unique then unique ++ [name] else unique) unique) ↔
          name ∈ done ++ rest ∧ (vectorUnit name).isSome = true by
    simpa using h [] signals [] List.nodup_nil (List.Sublist.refl _) (by simp)
  intro done rest
  induction rest generalizing done with
  | nil =>
    intro unique hnodup hsublist hmem
    simpa using ⟨hnodup, hsublist, hmem⟩
  | cons head rest ih =>
    intro unique hnodup hsublist hmem
    rw [List.foldl_cons, show done ++ head :: rest = done ++ [head] ++ rest by simp]
    apply ih
    · split_ifs with hnew
      · exact List.nodup_append.mpr ⟨hnodup, List.nodup_singleton _, fun a ha b hb heq =>
          hnew.2 (List.mem_singleton.mp hb ▸ heq ▸ ha)⟩
      · exact hnodup
    · split_ifs with hnew
      · exact hsublist.append (List.Sublist.refl _)
      · exact hsublist.trans (List.sublist_append_left _ _)
    · intro name
      rw [List.mem_append, List.mem_singleton]
      split_ifs with hnew
      · rw [List.mem_append, List.mem_singleton, hmem]
        constructor
        · rintro (⟨hdone, hunit⟩ | rfl)
          · exact ⟨.inl hdone, hunit⟩
          · exact ⟨.inr rfl, hnew.1⟩
        · rintro ⟨hdone | rfl, hunit⟩
          · exact .inl ⟨hdone, hunit⟩
          · exact .inr rfl
      · rw [hmem]
        constructor
        · exact fun h => ⟨.inl h.1, h.2⟩
        · rintro ⟨hdone | rfl, hunit⟩
          · exact ⟨hdone, hunit⟩
          · by_contra hout
            exact hnew ⟨hunit, fun h => hout ((hmem name).mp h)⟩

theorem vectorUnit_mem {signals : List PyStr} {name : PyStr} (h : name ∈ uniqueVectors signals) :
    vectorUnit name = some .ampere ∨ vectorUnit name = some .volt := by
  have hsome := (((uniqueVectors_spec signals).2.2 name).mp h).2
  obtain ⟨unit, hunit⟩ := Option.isSome_iff_exists.mp hsome
  cases unit with
  | ampere => exact .inl hunit
  | volt => exact .inr hunit

def missingUnits (unique kept : List PyStr) : List VectorUnit :=
  [VectorUnit.ampere, .volt].filter fun unit =>
    some unit ∈ unique.map vectorUnit ∧ some unit ∉ kept.map vectorUnit

theorem missingUnits_cases {signals kept : List PyStr} (hkept : kept ⊆ uniqueVectors signals)
    (hne : kept ≠ []) : missingUnits (uniqueVectors signals) kept = [] ∨
      ∃ unit, missingUnits (uniqueVectors signals) kept = [unit] := by
  obtain ⟨first, hfirst⟩ := List.exists_mem_of_ne_nil kept hne
  have hpresent := List.mem_map_of_mem (f := vectorUnit) hfirst
  rcases vectorUnit_mem (hkept hfirst) with h | h
  · rw [h] at hpresent
    have hno : decide (some VectorUnit.ampere ∈ (uniqueVectors signals).map vectorUnit ∧
        some VectorUnit.ampere ∉ kept.map vectorUnit) = false :=
      decide_eq_false fun hmissing => hmissing.2 hpresent
    rw [missingUnits, List.filter_cons, hno, List.filter_singleton]
    cases decide (some VectorUnit.volt ∈ (uniqueVectors signals).map vectorUnit ∧
      some VectorUnit.volt ∉ kept.map vectorUnit) with
    | true => exact .inr ⟨.volt, rfl⟩
    | false => exact .inl rfl
  · rw [h] at hpresent
    have hno : decide (some VectorUnit.volt ∈ (uniqueVectors signals).map vectorUnit ∧
        some VectorUnit.volt ∉ kept.map vectorUnit) = false :=
      decide_eq_false fun hmissing => hmissing.2 hpresent
    rw [missingUnits, List.filter_cons, List.filter_singleton, hno]
    cases decide (some VectorUnit.ampere ∈ (uniqueVectors signals).map vectorUnit ∧
      some VectorUnit.ampere ∉ kept.map vectorUnit) with
    | true => exact .inr ⟨.ampere, rfl⟩
    | false => exact .inl rfl

/-- The last slot is given to the first vector of the unit that is missing. -/
theorem templateVectors_eq (signals : List PyStr) :
    templateVectors signals = namedVectors signals := by
  unfold templateVectors namedVectors
  simp only
  split_ifs with hfit
  · rfl
  · have hlong : 7 < (uniqueVectors signals).length :=
      Nat.lt_trans (Nat.lt_succ_self 7) (Nat.lt_of_not_le hfit)
    have htake : (uniqueVectors signals).take maxTemplateVectors =
        (uniqueVectors signals).take 7 ++ [(uniqueVectors signals)[7]] :=
      List.take_succ_eq_append_getElem hlong
    have hseven : ((uniqueVectors signals).take 7).length = 7 := by
      rw [List.length_take]
      exact Nat.min_eq_left hlong.le
    have hset (name : PyStr) : ((uniqueVectors signals).take maxTemplateVectors).set 7 name =
        (uniqueVectors signals).take 7 ++ [name] := by
      rw [htake, List.set_append_right _ _ hseven.le, hseven]
      rfl
    have hkept : ((uniqueVectors signals).take maxTemplateVectors).length = 8 := by
      rw [htake, List.length_append, hseven]
      rfl
    have hne : (uniqueVectors signals).take maxTemplateVectors ≠ [] :=
      List.ne_nil_of_length_pos (by omega)
    have hmissing := missingUnits_cases (List.take_subset maxTemplateVectors _) hne
    rw [← List.head?_filter]
    rcases hmissing with hmissing | ⟨unit, hmissing⟩
    · rw [missingUnits] at hmissing
      rw [hmissing]
      rfl
    · rw [missingUnits] at hmissing
      rw [hmissing, List.zipIdx_singleton, List.foldl_cons, List.foldl_nil, hkept]
      exact hset _

theorem firstOfUnit_spec {unique : List PyStr} {unit : VectorUnit}
    (h : some unit ∈ unique.map vectorUnit) :
    firstOfUnit unique unit ∈ unique ∧ vectorUnit (firstOfUnit unique unit) = some unit := by
  obtain ⟨name, hname, hunit⟩ := List.mem_map.mp h
  rw [firstOfUnit]
  cases hfind : unique.find? fun name => vectorUnit name = some unit with
  | none =>
    have hnone := List.find?_eq_none.mp hfind name hname
    exact absurd (decide_eq_true hunit) hnone
  | some first =>
    have hholds := List.find?_some hfind
    exact ⟨List.mem_of_find?_eq_some hfind, of_decide_eq_true hholds⟩

theorem namedVectors_cases (signals : List PyStr) :
    ((uniqueVectors signals).length ≤ maxTemplateVectors ∧
      namedVectors signals = uniqueVectors signals) ∨
    (maxTemplateVectors < (uniqueVectors signals).length ∧
      namedVectors signals = (uniqueVectors signals).take maxTemplateVectors ∧
      ∀ unit, some unit ∈ (uniqueVectors signals).map vectorUnit →
        some unit ∈ ((uniqueVectors signals).take maxTemplateVectors).map vectorUnit) ∨
    (maxTemplateVectors < (uniqueVectors signals).length ∧ ∃ unit,
      namedVectors signals =
        (uniqueVectors signals).take 7 ++ [firstOfUnit (uniqueVectors signals) unit] ∧
      some unit ∈ (uniqueVectors signals).map vectorUnit ∧
      some unit ∉ ((uniqueVectors signals).take maxTemplateVectors).map vectorUnit) := by
  unfold namedVectors
  simp only
  split_ifs with hfit
  · exact .inl ⟨hfit, rfl⟩
  · refine .inr ?_
    split
    next unit hfind =>
      have hholds := List.find?_some hfind
      exact .inr ⟨Nat.lt_of_not_le hfit, unit, rfl, of_decide_eq_true hholds⟩
    next hfind =>
      refine .inl ⟨Nat.lt_of_not_le hfit, rfl, ?_⟩
      intro unit hpresent
      have hmem : unit ∈ [VectorUnit.ampere, .volt] := by cases unit <;> simp
      have hnone := List.find?_eq_none.mp hfind unit hmem
      by_contra hmissing
      exact hnone (decide_eq_true ⟨hpresent, hmissing⟩)

theorem namedVectors_unit {signals : List PyStr} {name : PyStr} {unit : VectorUnit}
    (hname : name ∈ signals) (hunit : vectorUnit name = some unit) :
    ∃ other ∈ namedVectors signals, vectorUnit other = some unit := by
  have hunique : name ∈ uniqueVectors signals :=
    ((uniqueVectors_spec signals).2.2 name).mpr ⟨hname, by rw [hunit]; rfl⟩
  have hpresent : some unit ∈ (uniqueVectors signals).map vectorUnit :=
    List.mem_map.mpr ⟨name, hunique, hunit⟩
  rcases namedVectors_cases signals with ⟨-, heq⟩ | ⟨-, heq, hall⟩ | ⟨hlong, lost, heq, hlost, hmissing⟩
  · exact ⟨name, heq ▸ hunique, hunit⟩
  · obtain ⟨other, hother, hother'⟩ := List.mem_map.mp (hall unit hpresent)
    exact ⟨other, heq ▸ hother, hother'⟩
  · rw [heq]
    by_cases hsame : unit = lost
    · obtain ⟨-, hfirst⟩ := firstOfUnit_spec hlost
      exact ⟨_, List.mem_append_right _ (List.mem_singleton_self _), hsame ▸ hfirst⟩
    · -- the vectors before the last have the other unit
      have hlength : 0 < ((uniqueVectors signals).take 7).length := by
        rw [List.length_take]
        exact lt_min (Nat.zero_lt_succ 6) (Nat.lt_of_le_of_lt (Nat.zero_le _) hlong)
      obtain ⟨other, hother⟩ := List.exists_mem_of_length_pos hlength
      refine ⟨other, List.mem_append_left _ hother, ?_⟩
      have hkept : other ∈ (uniqueVectors signals).take maxTemplateVectors :=
        (List.take_sublist_take_left (Nat.le_succ 7)).subset hother
      have hne : vectorUnit other ≠ some lost := fun h =>
        hmissing (List.mem_map.mpr ⟨other, hkept, h⟩)
      rcases vectorUnit_mem (List.mem_of_mem_take hother) with h | h
      · rw [h] at hne ⊢
        cases unit with
        | ampere => rfl
        | volt =>
          cases lost with
          | ampere => exact absurd rfl hne
          | volt => exact absurd rfl hsame
      · rw [h] at hne ⊢
        cases unit with
        | volt => rfl
        | ampere =>
          cases lost with
          | ampere => exact absurd rfl hsame
          | volt => exact absurd rfl hne

theorem namedVectors_nodup (signals : List PyStr) :
    (namedVectors signals).Nodup ∧ namedVectors signals ⊆ uniqueVectors signals := by
  have hnodup := (uniqueVectors_spec signals).1
  rcases namedVectors_cases signals with ⟨-, heq⟩ | ⟨-, heq, -⟩ | ⟨-, lost, heq, hlost, hmissing⟩
  · rw [heq]
    exact ⟨hnodup, List.Subset.refl _⟩
  · rw [heq]
    exact ⟨hnodup.sublist (List.take_sublist _ _), List.take_subset _ _⟩
  · rw [heq]
    obtain ⟨hmem, hunit⟩ := firstOfUnit_spec hlost
    constructor
    · refine List.nodup_append.mpr
        ⟨hnodup.sublist (List.take_sublist _ _), List.nodup_singleton _, ?_⟩
      intro a ha b hb heq
      obtain rfl := List.mem_singleton.mp hb
      have hkept : a ∈ (uniqueVectors signals).take maxTemplateVectors :=
        (List.take_sublist_take_left (Nat.le_succ 7)).subset ha
      exact hmissing (List.mem_map.mpr ⟨a, hkept, heq ▸ hunit⟩)
    · intro a ha
      rcases List.mem_append.mp ha with ha | ha
      · exact List.mem_of_mem_take ha
      · exact List.mem_singleton.mp ha ▸ hmem

end Vectors

section Admission

variable {F : Type}

structure TemplateSelector.Valid (selector : TemplateSelector) : Prop where
  native : selector.nativeName ≠ [] ∧ selector.nativeName.length ≤ 256
  output : selector.outputName ≠ [] ∧ selector.outputName.length ≤ 256

theorem VectorUnit.name_valid (unit : VectorUnit) :
    lit unit.name ≠ [] ∧ (lit unit.name).length ≤ 64 := by
  cases unit with
  | ampere => exact ⟨List.cons_ne_nil _ _, Nat.succ_le_succ (Nat.zero_le _)⟩
  | volt => exact ⟨List.cons_ne_nil _ _, Nat.succ_le_succ (Nat.zero_le _)⟩

def TemplateSelector.read (selector : TemplateSelector) (h : selector.Valid) : Selector :=
  ⟨⟨selector.nativeName, h.native⟩, ⟨selector.outputName, h.output⟩,
    ⟨lit selector.unit.name, selector.unit.name_valid⟩, selector.component⟩

theorem componentOf_name (label : String) (component : Component) :
    componentOf label (.str (lit component.name) : PyJson F) = .ok component := by
  unfold componentOf
  cases component with
  | real => exact if_pos rfl
  | imaginary =>
    have hne : lit Component.imaginary.name ≠ lit "real" := fun h => absurd (lit_inj.mp h) (by decide)
    exact (if_neg hne).trans (if_pos rfl)

theorem text_str_eq_ok [PyFloat F] {code label : String} {limit : ℕ} {value : PyStr}
    {read : Text limit} : text code label limit (.str value : PyJson F) = .ok read ↔
      ∃ h : value ≠ [] ∧ value.length ≤ limit, (⟨value, h⟩ : Text limit) = read := by
  by_cases h : value ≠ [] ∧ value.length ≤ limit
  · have heq : text code label limit (.str value : PyJson F) = .ok ⟨value, h⟩ := dif_pos h
    rw [heq]
    exact ⟨fun heq => ⟨h, Except.ok.inj heq⟩, fun ⟨_, heq⟩ => congrArg _ heq⟩
  · have heq : text code label limit (.str value : PyJson F) = refuse code label := dif_neg h
    rw [heq]
    exact ⟨(fun heq => nomatch heq), fun ⟨h', _⟩ => absurd h' h⟩

theorem normalizeSelector_json [PyFloat F] {index : ℕ} {entry : TemplateSelector}
    {selector : Selector} :
    normalizeSelector index (entry.json : PyJson F) = .ok selector ↔
      ∃ h : entry.Valid, entry.read h = selector := by
  have hclosed : closedObject selectorInvalid s!"selectors[{index}]"
      ["native_name", "output_name", "unit", "component"] [] (entry.json : PyJson F) =
        .ok [(lit "native_name", .str entry.nativeName),
          (lit "output_name", .str entry.outputName), (lit "unit", .str (lit entry.unit.name)),
          (lit "component", .str (lit entry.component.name))] := by
    simp [TemplateSelector.json, closedObject, List.lookup_cons]
  unfold normalizeSelector
  simp only [hclosed, Except.ok_bind, field, List.lookup_cons, lit_beq, String.reduceBEq,
    Option.getD_some, Except.bind_eq_ok, text_str_eq_ok, componentOf_name]
  constructor
  · rintro ⟨_, ⟨hnative, rfl⟩, _, ⟨houtput, rfl⟩, _, ⟨_, rfl⟩, hsel⟩
    exact ⟨⟨hnative, houtput⟩, Except.ok.inj hsel⟩
  · rintro ⟨hvalid, rfl⟩
    exact ⟨_, ⟨hvalid.native, rfl⟩, _, ⟨hvalid.output, rfl⟩, _, ⟨entry.unit.name_valid, rfl⟩, rfl⟩

def Clash (first second : PyStr × PyStr × Component) : Prop :=
  (first.1 = second.1 ∧ first.2.2 = second.2.2) ∨ first.2.1 = second.2.1

def Selector.names (selector : Selector) : PyStr × PyStr × Component :=
  (selector.nativeName.1, selector.outputName.1, selector.component)

def TemplateSelector.names (selector : TemplateSelector) : PyStr × PyStr × Component :=
  (selector.nativeName, selector.outputName, selector.component)

/-- The entries are read to the end where each is valid and none clashes with one before it. -/
theorem normalizeSelectors_json [PyFloat F] {entries : List TemplateSelector}
    {seen : List Selector} :
    (∃ selected, normalizeSelectors seen
        (entries.map TemplateSelector.json : List (PyJson F)) = .ok selected) ↔
      (∀ entry ∈ entries, entry.Valid) ∧
      (entries.Pairwise fun first second => ¬ Clash first.names second.names) ∧
      ∀ other ∈ seen, ∀ entry ∈ entries, ¬ Clash other.names entry.names := by
  induction entries generalizing seen with
  | nil => simp [normalizeSelectors]
  | cons entry rest ih =>
    rw [List.map_cons, normalizeSelectors]
    simp only [Except.bind_eq_ok, normalizeSelector_json]
    constructor
    · rintro ⟨selected, _, ⟨hvalid, rfl⟩, hrest⟩
      split_ifs at hrest with hidentity houtput
      · cases hrest
      · cases hrest
      · have hfresh : ∀ other ∈ seen, ¬ Clash other.names entry.names := by
          intro other hother hclash
          rcases hclash with hclash | hclash
          · refine hidentity (List.any_eq_true.mpr ⟨other, hother, decide_eq_true ?_⟩)
            exact ⟨Subtype.ext hclash.1, hclash.2⟩
          · refine houtput (List.any_eq_true.mpr ⟨other, hother, decide_eq_true ?_⟩)
            exact Subtype.ext hclash
        obtain ⟨hvalids, hpairs, hseen⟩ := ih.mp ⟨selected, hrest⟩
        refine ⟨List.forall_mem_cons.mpr ⟨hvalid, hvalids⟩, List.pairwise_cons.mpr ⟨?_, hpairs⟩, ?_⟩
        · exact hseen (entry.read hvalid) (List.mem_append_right _ (List.mem_singleton_self _))
        · intro other hother
          exact List.forall_mem_cons.mpr
            ⟨hfresh other hother, hseen other (List.mem_append_left _ hother)⟩
    · rintro ⟨hvalids, hpairs, hseen⟩
      have hvalid := hvalids entry (List.mem_cons_self ..)
      obtain ⟨hfirst, hpairs⟩ := List.pairwise_cons.mp hpairs
      have hrest := (@ih (seen ++ [entry.read hvalid])).mpr
        ⟨fun other hother => hvalids other (List.mem_cons_of_mem _ hother), hpairs, by
          intro other hother later hlater
          rcases List.mem_append.mp hother with hother | hother
          · exact hseen other hother later (List.mem_cons_of_mem _ hlater)
          · rw [List.mem_singleton.mp hother]
            exact hfirst later hlater⟩
      obtain ⟨selected, hselected⟩ := hrest
      refine ⟨selected, _, ⟨hvalid, rfl⟩, ?_⟩
      rw [if_neg, if_neg, hselected]
      · intro hany
        obtain ⟨other, hother, h⟩ := List.any_eq_true.mp hany
        refine hseen other hother entry (List.mem_cons_self ..) (.inr ?_)
        exact congrArg Subtype.val (of_decide_eq_true h)
      · intro hany
        obtain ⟨other, hother, h⟩ := List.any_eq_true.mp hany
        have h := of_decide_eq_true h
        exact hseen other hother entry (List.mem_cons_self ..)
          (.inl ⟨congrArg Subtype.val h.1, h.2⟩)

theorem normalizeSelectors_read [PyFloat F] {entries : List TemplateSelector}
    {seen selected : List Selector}
    (h : normalizeSelectors seen (entries.map TemplateSelector.json : List (PyJson F)) =
      .ok selected) :
    ∃ read, selected = seen ++ read ∧
      List.Forall₂ (fun entry selector => ∃ h : entry.Valid, entry.read h = selector) entries read := by
  induction entries generalizing seen with
  | nil =>
    rw [List.map_nil, normalizeSelectors] at h
    exact ⟨[], by rw [List.append_nil, Except.ok.inj h], .nil⟩
  | cons entry rest ih =>
    rw [List.map_cons, normalizeSelectors] at h
    simp only [Except.bind_eq_ok, normalizeSelector_json] at h
    obtain ⟨selector, hselector, hrest⟩ := h
    split_ifs at hrest
    · cases hrest
    · cases hrest
    · obtain ⟨read, rfl, hread⟩ := ih hrest
      exact ⟨selector :: read, by rw [List.append_assoc, List.singleton_append],
        .cons hselector hread⟩

/-- The names no underscore makes equal or empty, and which the ceiling on texts admits. -/
structure CleanNames (signals : List PyStr) (complexPlot : Bool) : Prop where
  distinct : ((namedVectors signals).map stem).Nodup
  native : ∀ name ∈ namedVectors signals, name.length ≤ 256
  output : ∀ name ∈ namedVectors signals, ∀ entry ∈ components complexPlot,
    stem name ++ lit entry.2 ≠ [] ∧ (stem name ++ lit entry.2).length ≤ 256

theorem namedVectors_recognised {signals : List PyStr} {name : PyStr}
    (h : name ∈ namedVectors signals) : ∃ unit, vectorUnit name = some unit := by
  have hunique := (namedVectors_nodup signals).2 h
  exact Option.isSome_iff_exists.mp (((uniqueVectors_spec signals).2.2 name).mp hunique).2

theorem vectorSelectors_eq {name : PyStr} {unit : VectorUnit} (h : vectorUnit name = some unit)
    (complexPlot : Bool) : vectorSelectors complexPlot name =
      (components complexPlot).map fun entry =>
        ⟨name, stem name ++ lit entry.2, unit, entry.1⟩ := by
  rw [vectorSelectors, h]

theorem components_ne_nil (complexPlot : Bool) : components complexPlot ≠ [] := by
  cases complexPlot with
  | true => exact List.cons_ne_nil _ _
  | false => exact List.cons_ne_nil _ _

theorem mem_components {entry : Component × String} :
    entry ∈ components true ↔ entry = (.real, "_re") ∨ entry = (.imaginary, "_im") := by
  simp [components]

theorem components_injective {complexPlot : Bool} {first second : Component × String}
    (hfirst : first ∈ components complexPlot) (hsecond : second ∈ components complexPlot)
    (h : first.1 = second.1) : first = second := by
  cases complexPlot with
  | false => rw [List.mem_singleton.mp hfirst, List.mem_singleton.mp hsecond]
  | true =>
    rcases mem_components.mp hfirst with rfl | rfl <;> rcases mem_components.mp hsecond with rfl | rfl
    · rfl
    · cases h
    · cases h
    · rfl

theorem templateSelectors_valid {signals : List PyStr} {complexPlot : Bool} :
    (∀ entry ∈ templateSelectors signals complexPlot, entry.Valid) ↔
      (∀ name ∈ namedVectors signals, name.length ≤ 256) ∧
      ∀ name ∈ namedVectors signals, ∀ entry ∈ components complexPlot,
        stem name ++ lit entry.2 ≠ [] ∧ (stem name ++ lit entry.2).length ≤ 256 := by
  rw [templateSelectors, templateVectors_eq]
  constructor
  · intro hvalid
    have hentry (name) (hname : name ∈ namedVectors signals) (entry)
        (hentry : entry ∈ components complexPlot) : ∃ unit, TemplateSelector.Valid
          ⟨name, stem name ++ lit entry.2, unit, entry.1⟩ := by
      obtain ⟨unit, hunit⟩ := namedVectors_recognised hname
      refine ⟨unit, hvalid _ (List.mem_flatMap.mpr ⟨name, hname, ?_⟩)⟩
      rw [vectorSelectors_eq hunit]
      exact List.mem_map_of_mem hentry
    constructor
    · intro name hname
      obtain ⟨entry, hin⟩ := List.exists_mem_of_ne_nil _ (components_ne_nil complexPlot)
      obtain ⟨_, h⟩ := hentry name hname entry hin
      exact h.native.2
    · intro name hname entry hin
      obtain ⟨_, h⟩ := hentry name hname entry hin
      exact h.output
  · rintro ⟨hnative, houtput⟩ selector hselector
    obtain ⟨name, hname, hselector⟩ := List.mem_flatMap.mp hselector
    obtain ⟨unit, hunit⟩ := namedVectors_recognised hname
    rw [vectorSelectors_eq hunit] at hselector
    obtain ⟨entry, hentry, rfl⟩ := List.mem_map.mp hselector
    have hne : name ≠ [] := by
      rintro rfl
      cases hunit
    exact ⟨⟨hne, hnative name hname⟩, houtput name hname entry hentry⟩

theorem suffix_injective {complexPlot : Bool} {first second : Component × String}
    (hfirst : first ∈ components complexPlot) (hsecond : second ∈ components complexPlot)
    {a b : PyStr} (h : a ++ lit first.2 = b ++ lit second.2) : a = b ∧ first = second := by
  have hsame : first = second := by
    cases complexPlot with
    | false =>
      rw [List.mem_singleton.mp hfirst, List.mem_singleton.mp hsecond]
    | true =>
      have hlast := congrArg List.getLast? h
      have hre : (lit "_re").getLast? = some (point 'e') := rfl
      have him : (lit "_im").getLast? = some (point 'm') := rfl
      rcases mem_components.mp hfirst with rfl | rfl <;> rcases mem_components.mp hsecond with rfl | rfl
      · rfl
      · rw [List.getLast?_append, List.getLast?_append, hre, him] at hlast
        exact absurd (point_injective (Option.some.inj hlast)) (by decide)
      · rw [List.getLast?_append, List.getLast?_append, hre, him] at hlast
        exact absurd (point_injective (Option.some.inj hlast)) (by decide)
      · rfl
  exact ⟨List.append_cancel_right (hsame ▸ h), hsame⟩

theorem templateSelectors_pairwise {signals : List PyStr} {complexPlot : Bool} :
    ((templateSelectors signals complexPlot).Pairwise
      fun first second => ¬ Clash first.names second.names) ↔
      ((namedVectors signals).map stem).Nodup := by
  rw [templateSelectors, templateVectors_eq, List.pairwise_flatMap, List.Nodup, List.pairwise_map]
  constructor
  · rintro ⟨-, hpairs⟩
    refine hpairs.imp_of_mem ?_
    intro first second hfirst hsecond hclash heq
    obtain ⟨unit, hunit⟩ := namedVectors_recognised hfirst
    obtain ⟨other, hother⟩ := namedVectors_recognised hsecond
    obtain ⟨entry, hentry⟩ := List.exists_mem_of_ne_nil _ (components_ne_nil complexPlot)
    rw [vectorSelectors_eq hunit, vectorSelectors_eq hother] at hclash
    refine hclash _ (List.mem_map_of_mem hentry) _ (List.mem_map_of_mem hentry) (.inr ?_)
    exact congrArg (· ++ lit entry.2) heq
  · intro hstems
    constructor
    · intro name hname
      obtain ⟨unit, hunit⟩ := namedVectors_recognised hname
      rw [vectorSelectors_eq hunit, List.pairwise_map]
      have hnodup : (components complexPlot).Nodup := by cases complexPlot <;> decide
      refine hnodup.imp_of_mem ?_
      intro first second hfirst hsecond hne hclash
      rcases hclash with hclash | hclash
      · exact hne (components_injective hfirst hsecond hclash.2)
      · exact hne (suffix_injective hfirst hsecond hclash).2
    · have hnames := (namedVectors_nodup signals).1
      refine (hnames.and hstems).imp_of_mem ?_
      rintro first second hfirst hsecond ⟨hne, hstem⟩ a ha b hb hclash
      obtain ⟨unit, hunit⟩ := namedVectors_recognised hfirst
      obtain ⟨other, hother⟩ := namedVectors_recognised hsecond
      rw [vectorSelectors_eq hunit] at ha
      rw [vectorSelectors_eq hother] at hb
      obtain ⟨entry, hentry, rfl⟩ := List.mem_map.mp ha
      obtain ⟨entry', hentry', rfl⟩ := List.mem_map.mp hb
      rcases hclash with hclash | hclash
      · exact hne hclash.1
      · exact hstem (suffix_injective hentry hentry' hclash).1

theorem namedVectors_length (signals : List PyStr) :
    (namedVectors signals).length ≤ maxTemplateVectors := by
  rcases namedVectors_cases signals with ⟨hfit, heq⟩ | ⟨-, heq, -⟩ | ⟨-, lost, heq, -⟩
  · exact heq ▸ hfit
  · rw [heq]
    exact List.length_take_le _ _
  · rw [heq, List.length_append, List.length_singleton]
    exact Nat.succ_le_succ (List.length_take_le _ _)

theorem templateSelectors_length (signals : List PyStr) (complexPlot : Bool) :
    (templateSelectors signals complexPlot).length ≤ maxSelectors := by
  have hname (name) (hname : name ∈ namedVectors signals) :
      (vectorSelectors complexPlot name).length ≤ 2 := by
    obtain ⟨unit, hunit⟩ := namedVectors_recognised hname
    rw [vectorSelectors_eq hunit, List.length_map]
    cases complexPlot <;> decide
  have hsum := List.sum_le_card_nsmul ((namedVectors signals).map fun name =>
    (vectorSelectors complexPlot name).length) 2 (by
      intro n hn
      obtain ⟨name, hmem, rfl⟩ := List.mem_map.mp hn
      exact hname name hmem)
  rw [List.length_map] at hsum
  have hlength := namedVectors_length signals
  rw [templateSelectors, templateVectors_eq, List.length_flatMap]
  simp only [maxTemplateVectors, smul_eq_mul] at hlength hsum
  simp only [maxSelectors]
  omega

/-- What the extraction reads of a template: no native component and no output twice, each unit of
a recognised vector, and the distinct recognised vectors in their order where they fit. -/
structure Represents (signals : List PyStr) (complexPlot : Bool) (selected : List Selector) :
    Prop where
  distinct : selected.Pairwise fun first second => ¬ Clash first.names second.names
  units : ∀ name ∈ signals, ∀ unit, vectorUnit name = some unit →
    ∃ selector ∈ selected, selector.unit.1 = lit unit.name
  order : ∃ vectors : List PyStr, vectors.Sublist signals ∧ vectors.Nodup ∧
    (∀ name, name ∈ vectors ↔ name ∈ signals ∧ (vectorUnit name).isSome = true) ∧
    (vectors.length ≤ maxTemplateVectors → selected.map (fun selector => selector.nativeName.1) =
      vectors.flatMap fun name => (components complexPlot).map fun _ => name)

theorem map_of_read {β : Type} {entries : List TemplateSelector} {read : List Selector}
    {f : Selector → β} {g : TemplateSelector → β}
    (hfg : ∀ entry (h : TemplateSelector.Valid entry), f (entry.read h) = g entry)
    (h : List.Forall₂ (fun entry selector => ∃ h : entry.Valid, entry.read h = selector)
      entries read) : read.map f = entries.map g := by
  induction h with
  | nil => rfl
  | cons hfirst _ ih =>
    obtain ⟨hvalid, rfl⟩ := hfirst
    rw [List.map_cons, List.map_cons, hfg, ih]

theorem templateSelectors_names (signals : List PyStr) (complexPlot : Bool) :
    (templateSelectors signals complexPlot).map TemplateSelector.nativeName =
      (namedVectors signals).flatMap fun name => (components complexPlot).map fun _ => name := by
  rw [templateSelectors, templateVectors_eq, List.map_flatMap]
  refine List.flatMap_congr ?_
  intro name hname
  obtain ⟨unit, hunit⟩ := namedVectors_recognised hname
  rw [vectorSelectors_eq hunit, List.map_map]
  rfl

theorem represents_of_read {signals : List PyStr} {complexPlot : Bool} {selected : List Selector}
    (hpairs : (templateSelectors signals complexPlot).Pairwise
      fun first second => ¬ Clash first.names second.names)
    (hread : List.Forall₂ (fun entry selector => ∃ h : entry.Valid, entry.read h = selector)
      (templateSelectors signals complexPlot) selected) :
    Represents signals complexPlot selected where
  distinct := by
    have hnames : selected.map Selector.names =
        (templateSelectors signals complexPlot).map TemplateSelector.names :=
      map_of_read (fun _ _ => rfl) hread
    have hmapped : ((templateSelectors signals complexPlot).map TemplateSelector.names).Pairwise
        fun first second => ¬ Clash first second := List.pairwise_map.mpr hpairs
    rw [← hnames] at hmapped
    exact List.pairwise_map.mp hmapped
  units := by
    intro name hname unit hunit
    obtain ⟨other, hother, hunit'⟩ := namedVectors_unit hname hunit
    have hunits : selected.map (fun selector => selector.unit.1) =
        (templateSelectors signals complexPlot).map fun entry => lit entry.unit.name :=
      map_of_read (fun _ _ => rfl) hread
    obtain ⟨entry, hentry⟩ := List.exists_mem_of_ne_nil _ (components_ne_nil complexPlot)
    have hin : (⟨other, stem other ++ lit entry.2, unit, entry.1⟩ : TemplateSelector) ∈
        templateSelectors signals complexPlot := by
      rw [templateSelectors, templateVectors_eq]
      refine List.mem_flatMap.mpr ⟨other, hother, ?_⟩
      rw [vectorSelectors_eq hunit']
      exact List.mem_map_of_mem hentry
    have hmem : lit unit.name ∈ selected.map (fun selector => selector.unit.1) := by
      rw [hunits]
      exact List.mem_map.mpr ⟨_, hin, rfl⟩
    exact List.mem_map.mp hmem
  order := by
    obtain ⟨hnodup, hsublist, hmem⟩ := uniqueVectors_spec signals
    refine ⟨uniqueVectors signals, hsublist, hnodup, hmem, ?_⟩
    intro hfit
    have hnames : selected.map (fun selector => selector.nativeName.1) =
        (templateSelectors signals complexPlot).map TemplateSelector.nativeName :=
      map_of_read (fun _ _ => rfl) hread
    rw [hnames, templateSelectors_names, namedVectors]
    simp only [if_pos hfit]

theorem selectionTemplate_eq_some {signals : List PyStr} {complexPlot : Bool}
    {document : PyJson F} (h : selectionTemplate signals complexPlot = some document) :
    templateSelectors signals complexPlot ≠ [] ∧ document.member "selectors" =
      .array ((templateSelectors signals complexPlot).map TemplateSelector.json) := by
  unfold selectionTemplate at h
  simp only at h
  split_ifs at h with hempty
  obtain rfl := Option.some.inj h
  refine ⟨fun hnil => hempty (by rw [hnil]; rfl), ?_⟩
  simp [PyJson.member]

theorem selectors_array [PyFloat F] {signals : List PyStr} {complexPlot : Bool}
    (hne : templateSelectors signals complexPlot ≠ []) :
    selectors (.array ((templateSelectors signals complexPlot).map TemplateSelector.json) :
      PyJson F) = normalizeSelectors [] ((templateSelectors signals complexPlot).map
        (TemplateSelector.json : TemplateSelector → PyJson F)) := by
  refine if_pos ?_
  rw [List.length_map]
  exact ⟨List.length_pos_iff.mpr hne, templateSelectors_length signals complexPlot⟩

theorem selectors_template [PyFloat F] {signals : List PyStr} {complexPlot : Bool}
    (hne : templateSelectors signals complexPlot ≠ []) :
    (∃ selected, selectors (.array ((templateSelectors signals complexPlot).map
      TemplateSelector.json) : PyJson F) = .ok selected) ↔ CleanNames signals complexPlot := by
  rw [selectors_array hne, normalizeSelectors_json, templateSelectors_valid,
    templateSelectors_pairwise]
  constructor
  · rintro ⟨⟨hnative, houtput⟩, hdistinct, -⟩
    exact ⟨hdistinct, hnative, houtput⟩
  · rintro ⟨hdistinct, hnative, houtput⟩
    refine ⟨⟨hnative, houtput⟩, hdistinct, ?_⟩
    intro other hother
    exact absurd hother List.not_mem_nil

/-- A template that is written is admitted, with every unit and in deck order, exactly where the
stems of its vectors are distinct, none is empty on a real plot, and no text is too long. -/
theorem selectionTemplate_admitted [PyFloat F] (signals : List PyStr) (complexPlot : Bool) :
    (∀ document : PyJson F, selectionTemplate signals complexPlot = some document →
      ∃ selected, selectors (document.member "selectors") = .ok selected ∧
        Represents signals complexPlot selected) ↔ CleanNames signals complexPlot := by
  constructor
  · intro hadmitted
    by_cases hne : templateSelectors signals complexPlot = []
    · have hvalid := templateSelectors_valid.mp
        (fun entry (hentry : entry ∈ templateSelectors signals complexPlot) =>
          absurd (hne ▸ hentry) List.not_mem_nil)
      have hpairs : (templateSelectors signals complexPlot).Pairwise
          fun first second => ¬ Clash first.names second.names := by
        rw [hne]
        exact .nil
      exact ⟨templateSelectors_pairwise.mp hpairs, hvalid.1, hvalid.2⟩
    · have hwritten : ∃ document : PyJson F,
          selectionTemplate signals complexPlot = some document := by
        rw [selectionTemplate]
        exact ⟨_, if_neg (by rwa [List.isEmpty_iff])⟩
      obtain ⟨document, hdocument⟩ := hwritten
      obtain ⟨selected, hselected, -⟩ := hadmitted document hdocument
      rw [(selectionTemplate_eq_some hdocument).2] at hselected
      exact (selectors_template hne).mp ⟨selected, hselected⟩
  · intro hclean document hdocument
    obtain ⟨hne, hmember⟩ := selectionTemplate_eq_some hdocument
    rw [hmember]
    obtain ⟨selected, hselected⟩ := (selectors_template (F := F) hne).mpr hclean
    refine ⟨selected, hselected, ?_⟩
    rw [selectors_array hne] at hselected
    obtain ⟨read, rfl, hread⟩ := normalizeSelectors_read hselected
    exact represents_of_read (templateSelectors_pairwise.mpr hclean.distinct) hread

/-- The names v(a.b) and v(a_b) have one stem, and the extraction refuses the template. -/
theorem punctuation_refused :
    ¬ ∀ document : PyJson ℚ,
      selectionTemplate [lit "v(a.b)", lit "v(a_b)"] false = some document →
        ∃ selected, selectors (document.member "selectors") = .ok selected ∧
          Represents [lit "v(a.b)", lit "v(a_b)"] false selected := by
  intro hadmitted
  have hwritten : (selectionTemplate (F := ℚ) [lit "v(a.b)", lit "v(a_b)"] false).isSome = true := by
    decide
  obtain ⟨document, hdocument⟩ := Option.isSome_iff_exists.mp hwritten
  obtain ⟨selected, hselected, -⟩ := hadmitted document hdocument
  have hrefused : ((selectionTemplate (F := ℚ) [lit "v(a.b)", lit "v(a_b)"] false).all fun document =>
      (selectors (document.member "selectors")).toOption.isNone) = true := by
    decide
  rw [hdocument, Option.all_some, hselected] at hrefused
  cases hrefused

end Admission


end OpenADA.Series
