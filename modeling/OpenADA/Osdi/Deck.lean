import OpenADA.Cosim.Parameters

/-! The use of compiled OSDI blocks in a caller's deck: only through their wrappers, and with
parameters that satisfy the constraints of each block. -/
namespace OpenADA.Osdi

open PyText SpiceText Cosim InsertionDict

/-- Why a deck is refused; a check of parameters is the one of the cosim path under its own code. -/
inductive DeckError where
  | boundDirectly (type name : Name)
  | instantiatedDirectly (card : Name)
  | parameters (error : Cosim.DeckError)

section Model

variable (cases : CaseMap)

def moduleTypes (modules : List Name) : List Name := modules.map cases.lower

def aliases (modules : List Name) : List Name :=
  modules.map fun name => cases.lower name ++ "__osdi".toList

/-- One statement of the caller's deck: no card binds or instantiates a composed module. -/
def checkStatement (modules : List Name) (fields : List Name) : Except DeckError Unit :=
  let lead := (fields.head?.map cases.lower).getD []
  if lead = ".model".toList ∧ 3 ≤ fields.length then
    if cases.lower ((fields.getD 2 []).takeWhile (· ≠ '(')) ∈ moduleTypes cases modules then
      .error (.boundDirectly (fields.getD 2 []) (fields.getD 1 []))
    else .ok ()
  else if lead.head? = some 'n' ∧ ∃ field ∈ fields.tail, cases.lower field ∈ aliases cases modules ∨
      cases.lower field ∈ moduleTypes cases modules then
    .error (.instantiatedDirectly (fields.headD []))
  else .ok ()

variable {F : Type} [PyFloat F]

/-- `OsdiComposition`, with what it keeps of its blocks. -/
structure OsdiComposition (F : Type) where
  modules : List Name
  blocks : List (Block F)

def blockDefaults (block : Block F) : Effective F := .ofList block.parameters

/-- `OsdiComposition.verify_deck`. -/
def OsdiComposition.verifyDeck (composition : OsdiComposition F) (deck : List Char) :
    Except DeckError Unit := do
  (foldedStatements deck).forM fun statement =>
    checkStatement cases composition.modules (words isSpace statement.2)
  composition.blocks.forM fun block =>
    (verifyBlock cases deck block.wrapper block.constraints (blockDefaults block)).mapError
      .parameters

end Model

section Reading

variable (cases : CaseMap)

def BindsModule (modules : List Name) (card : List Char) : Prop :=
  ∃ lead name type rest, words isCSpace card = lead :: name :: type :: rest ∧
    cases.lower lead = ".model".toList ∧
    cases.lower (type.takeWhile (· ≠ '(')) ∈ moduleTypes cases modules

def NamesModule (modules : List Name) (card : List Char) : Prop :=
  ∃ lead rest, words isCSpace card = lead :: rest ∧ (cases.lower lead).head? = some 'n' ∧
    ∃ word ∈ rest, cases.lower word ∈ aliases cases modules ∨
      cases.lower word ∈ moduleTypes cases modules

variable {F : Type} [PyFloat F]

/-- The composed blocks are used only through their wrappers, within their constraints. -/
structure WrapperOnly (composition : OsdiComposition F) (deck : List Char) : Prop where
  unbound : ∀ card ∈ simulatorCards deck, ¬ BindsModule cases composition.modules card
  unnamed : ∀ card ∈ simulatorCards deck, ¬ NamesModule cases composition.modules card
  satisfied : ∀ block ∈ composition.blocks, ∀ card ∈ simulatorCards deck,
    IsInstance cases block.wrapper card → ∀ constraint ∈ block.constraints,
      constraint.Satisfied (instanceValue cases block.parameters card)

/-- What the gate reads as a simulator does: plain line breaks and blanks, contract names in lower
case, and clean overrides on the instances. -/
structure CleanDeck (composition : OsdiComposition F) (deck : List Char) : Prop where
  plain : isPlain deck = true
  lowered : ∀ block ∈ composition.blocks, ∀ parameter ∈ block.parameters,
    cases.lower parameter.1 = parameter.1
  overrides : ∀ block ∈ composition.blocks, block.constraints ≠ [] →
    ∀ card ∈ simulatorCards deck, IsInstance cases block.wrapper card → CleanOverrides cases card

variable {cases}

omit [PyFloat F] in
theorem get?_blockDefaults {block : Block F}
    (h : ∀ parameter ∈ block.parameters, cases.lower parameter.1 = parameter.1) (name : Name) :
    (blockDefaults block).get? name =
      (lastWith (fun parameter => cases.lower parameter.1) name block.parameters).map Prod.snd := by
  have hfilter : (block.parameters.filter fun parameter => parameter.1 = name) =
      block.parameters.filter fun parameter => cases.lower parameter.1 = name := by
    refine List.filter_congr ?_
    intro parameter hparameter
    rw [h parameter hparameter]
  rw [blockDefaults, get?_ofList_last, lastWith, lastWith, hfilter]

theorem checkStatement_ok {modules : List Name} {card : List Char}
    (h : checkStatement cases modules (words isCSpace card) = .ok ()) :
    ¬ BindsModule cases modules card ∧ ¬ NamesModule cases modules card := by
  constructor
  · rintro ⟨lead, name, type, rest, hwords, hlead, htype⟩
    have herror : checkStatement cases modules (lead :: name :: type :: rest) =
        .error (.boundDirectly type name) :=
      (if_pos ⟨hlead, Nat.le_add_left 3 rest.length⟩).trans (if_pos htype)
    rw [hwords, herror] at h
    cases h
  · rintro ⟨lead, rest, hwords, hlead, hword⟩
    have hno : cases.lower lead ≠ ".model".toList := by
      intro heq
      rw [heq] at hlead
      cases hlead
    have herror : checkStatement cases modules (lead :: rest) =
        .error (.instantiatedDirectly lead) :=
      (if_neg fun hmodel => hno hmodel.1).trans (if_pos ⟨hlead, hword⟩)
    rw [hwords, herror] at h
    cases h

end Reading

section Instances

def latencyComposition : OsdiComposition ℚ where
  modules := ["bhv_x_v1".toList]
  blocks := [latencyBlock]

def respelledDeck : List Char := "respelled\nX1 a b bhv_x_v1 td=1n TD=3n td=0\n".toList

def respelledCard : List Char := "X1 a b bhv_x_v1 td=1n TD=3n td=0".toList

end Instances

end OpenADA.Osdi
