import OpenADA.Library.ExceptFold
import OpenADA.Library.InsertionDict
import OpenADA.Library.PyFloat
import OpenADA.Library.SpiceText

/-! What a compiled block composition demands of a caller's deck: one d_cosim instance, and
parameters that satisfy the constraints of each block. -/
namespace OpenADA.Cosim

open PyText SpiceText

abbrev Name := List Char

inductive DeckError where
  | nestedInstance (line : ℕ) (referenced : Name)
  | multiInstance (total : ℕ)
  | uninstantiated
  | unresolvedConstraint (id parameter : Name)
  | unresolvedOverride (wrapper parameter value : Name)
  | violated (id : Name)

section Cards

variable (cases : CaseMap)

def joinEquals (fields : List Name) : List Name :=
  fields.foldl (fun joined token =>
    match joined.getLast? with
    | some last =>
      if token.head? = some '=' ∨ last.getLast? = some '=' then joined.dropLast ++ [last ++ token]
      else joined ++ [token]
    | none => joined ++ [token]) []

def isParamsWord (token : Name) : Bool :=
  cases.lower token = "params:".toList || cases.lower token = "params".toList

/-- The last token before the parameters, after the candidate already read. -/
def childFrom (child : Option Name) : List Name → Option Name
  | [] => child
  | token :: rest =>
    if isParamsWord cases token then child
    else if '=' ∈ token then child
    else childFrom (some (cases.lower token)) rest

/-- `_x_card_child`. -/
def xCardChild (fields : List Name) : Option Name := childFrom cases none (joinEquals fields).tail

/-- `token.partition("=")` of a token with an equals sign. -/
def partition (token : Name) : Name × Name :=
  (token.takeWhile (· ≠ '='), (token.dropWhile (· ≠ '=')).tail)

/-- `_x_card_parameters`. -/
def xCardParameters (fields : List Name) : InsertionDict Name Name :=
  (joinEquals fields).foldl (fun parameters token =>
    if isParamsWord cases token then parameters
    else if '=' ∈ token ∧ (partition token).1 ≠ [] ∧ (partition token).2 ≠ [] then
      parameters.set (partition token).1 (partition token).2
    else parameters) .empty

/-- `_folded_statements`. -/
def foldedStatements (deck : List Char) : List (ℕ × List Char) :=
  statements (lineKind isSpace) (splitLines deck)

end Cards

section Scalars

/-- A letter of `[a-z]` where case is ignored. -/
def isLetter (c : Char) : Bool :=
  ('a' ≤ c && c ≤ 'z') || ('A' ≤ c && c ≤ 'Z') ||
    c.toNat = 0x130 || c.toNat = 0x131 || c.toNat = 0x17F || c.toNat = 0x212A

def digitsValue (digits : List Char) : ℕ := digits.foldl (fun n c => 10 * n + (c.toNat - 48)) 0

def readSign : List Char → ℤ × List Char
  | '+' :: rest => (1, rest)
  | '-' :: rest => (-1, rest)
  | text => (1, text)

def readMantissa (text : List Char) : Option (ℚ × List Char) :=
  let digits := text.takeWhile Char.isDigit
  match text.dropWhile Char.isDigit with
  | '.' :: rest =>
    let fraction := rest.takeWhile Char.isDigit
    if digits.isEmpty ∧ fraction.isEmpty then none
    else some (digitsValue (digits ++ fraction) / 10 ^ fraction.length,
      rest.dropWhile Char.isDigit)
  | rest => if digits.isEmpty then none else some (digitsValue digits, rest)

def readExponent (text : List Char) : ℤ × List Char :=
  match text with
  | c :: rest =>
    let (sign, rest) := readSign rest
    let digits := rest.takeWhile Char.isDigit
    if (c = 'e' ∨ c = 'E') ∧ ¬ digits.isEmpty then
      (sign * digitsValue digits, rest.dropWhile Char.isDigit)
    else (0, text)
  | [] => (0, [])

/-- `_SCALAR_RE`: the number and the letters after it. -/
def scalarParts (text : List Char) : Option (ℚ × List Char) := do
  let (sign, rest) := readSign text
  let (mantissa, rest) ← readMantissa rest
  let (exponent, letters) := readExponent rest
  if letters.all isLetter then some (sign * mantissa * 10 ^ exponent, letters) else none

def scaleFactors : List (String × ℚ) :=
  [("meg", 10 ^ 6), ("mil", 254 / 10 ^ 7), ("t", 10 ^ 12), ("g", 10 ^ 9), ("k", 10 ^ 3),
    ("m", 1 / 10 ^ 3), ("u", 1 / 10 ^ 6), ("n", 1 / 10 ^ 9), ("p", 1 / 10 ^ 12),
    ("f", 1 / 10 ^ 15), ("a", 1 / 10 ^ 18)]

variable {F : Type} [PyFloat F] (cases : CaseMap)

/-- `_scalar_value`. -/
def scalarValue (text : List Char) : Option F :=
  (scalarParts (trim isSpace text)).map fun (number, letters) =>
    match scaleFactors.find? fun factor => factor.1.toList.isPrefixOf (cases.lower letters) with
    | some factor => PyFloat.ofRat number * PyFloat.ofRat factor.2
    | none => PyFloat.ofRat number

end Scalars

section Constraints

def isSchemaName (name : Name) : Bool :=
  name.all fun c => ('a' ≤ c && c ≤ 'z') || c.isDigit || c = '_'

abbrev SchemaName := {name : Name // isSchemaName name = true}

inductive Relation where
  | greater
  | greaterEqual

/-- A declared relation: `left` against the constant and the weighted parameters. -/
structure Constraint (F : Type) where
  id : Name
  left : SchemaName
  relation : Relation
  rightTerms : List (SchemaName × F)
  rightConstant : F

variable {F : Type} [PyFloat F]

def Relation.satisfied (relation : Relation) (left total : F) : Bool :=
  match relation with
  | .greater => PyFloat.lt total left
  | .greaterEqual => PyFloat.le total left

abbrev Effective (F : Type) := InsertionDict Name F

def effectiveValue (id : Name) (effective : Effective F) (name : Name) : Except DeckError F :=
  match effective.get? name with
  | some value => .ok value
  | none => .error (.unresolvedConstraint id name)

/-- One constraint of `verify_parameter_constraints`. -/
def verifyConstraint (effective : Effective F) (constraint : Constraint F) :
    Except DeckError Unit := do
  let left ← effectiveValue constraint.id effective constraint.left
  let total ← constraint.rightTerms.foldlM (fun total term => do
    let value ← effectiveValue constraint.id effective term.1
    .ok (total + term.2 * value)) constraint.rightConstant
  if constraint.relation.satisfied left total then .ok () else .error (.violated constraint.id)

/-- `verify_parameter_constraints`. -/
def verifyParameterConstraints (constraints : List (Constraint F)) (effective : Effective F) :
    Except DeckError Unit :=
  constraints.forM (verifyConstraint effective)

variable (cases : CaseMap)

def applyOverride (wrapper : Name) (effective : Effective F) (entry : Name × Name) :
    Except DeckError (Effective F) :=
  match scalarValue cases entry.2 with
  | some scalar => .ok (effective.set (cases.lower entry.1) scalar)
  | none => .error (.unresolvedOverride wrapper entry.1 entry.2)

def parameterMap (wrapper : Name) (defaults : Effective F) (fields : List Name) :
    Except DeckError (Effective F) :=
  (xCardParameters cases fields).entries.foldlM (applyOverride cases wrapper) defaults

def instantiates (wrapper : Name) (fields : List Name) : Bool :=
  ((fields.head?.bind List.head?).any fun c => cases.lower [c] = ['x']) &&
    xCardChild cases fields = some (cases.lower wrapper)

/-- `instantiation_parameter_maps`. -/
def instantiationParameterMaps (deck : List Char) (wrapper : Name) (defaults : Effective F) :
    Except DeckError (List (Effective F)) :=
  ((foldedStatements deck).map fun statement => words isSpace statement.2).filter
    (instantiates cases wrapper) |>.mapM (parameterMap cases wrapper defaults)

/-- The check of one block: every card of its wrapper, or its defaults where it has none. -/
def verifyBlock (deck : List Char) (wrapper : Name) (constraints : List (Constraint F))
    (defaults : Effective F) : Except DeckError Unit :=
  if constraints.isEmpty then .ok ()
  else do
    let maps ← instantiationParameterMaps cases deck wrapper defaults
    (if maps.isEmpty then [defaults] else maps).forM (verifyParameterConstraints constraints)

end Constraints

section Gate

variable (cases : CaseMap)

inductive CardEvent where
  | enters
  | leaves
  | references (name : Name)
  deriving DecidableEq

/-- A subcircuit line, an X card of a wrapper, or an A card whose last field is a binding model. -/
def cardEvent (wrappers bindings : List Name) (fields : List Name) : Option CardEvent :=
  let token := (fields.head?.map cases.lower).getD []
  if token = ".subckt".toList then some .enters
  else if token = ".ends".toList then some .leaves
  else if token.head? = some 'x' then
    match xCardChild cases fields with
    | some child => if child ∈ wrappers.map cases.lower then some (.references child) else none
    | none => none
  else if token.head? = some 'a' then
    match fields.getLast?.map cases.lower with
    | some model => if model ∈ bindings.map cases.lower then some (.references model) else none
    | none => none
  else none

structure Count where
  depth : ℕ
  total : ℕ

def countCard (wrappers bindings : List Name) (count : Count) (statement : ℕ × List Char) :
    Except DeckError Count :=
  match cardEvent cases wrappers bindings (words isSpace statement.2) with
  | none => .ok count
  | some .enters => .ok { count with depth := count.depth + 1 }
  | some .leaves => .ok { count with depth := count.depth - 1 }
  | some (.references referenced) =>
    if 0 < count.depth then .error (.nestedInstance statement.1 referenced)
    else .ok { count with total := count.total + 1 }

/-- `verify_single_instantiation`, which reads the lines with their comments. -/
def verifySingleInstantiation (deck : List Char) (wrappers bindings : List Name) :
    Except DeckError Unit :=
  if wrappers.isEmpty ∧ bindings.isEmpty then .ok ()
  else do
    let count ← (statements (rawKind isSpace) (splitLines deck)).foldlM
      (countCard cases wrappers bindings) ⟨0, 0⟩
    if 1 < count.total then .error (.multiInstance count.total)
    else if count.total = 0 then .error .uninstantiated
    else .ok ()

variable {F : Type} [PyFloat F]

/-- What a composition keeps of one block: its wrapper, its constraints, and the numeric defaults
of its contract. -/
structure Block (F : Type) where
  wrapper : Name
  constraints : List (Constraint F)
  parameters : List (Name × F)

/-- `CosimComposition`, which has a block. -/
structure CosimComposition (F : Type) where
  blocks : List (Block F)
  modelNames : List Name
  nonempty : blocks ≠ []

/-- `_contract_defaults`. -/
def contractDefaults (block : Block F) : Effective F :=
  .ofList (block.parameters.map fun parameter => (cases.lower parameter.1, parameter.2))

/-- `CosimComposition.verify_deck`. -/
def CosimComposition.verifyDeck (composition : CosimComposition F) (deck : List Char) :
    Except DeckError Unit := do
  verifySingleInstantiation cases deck (composition.blocks.map Block.wrapper)
    composition.modelNames
  composition.blocks.forM fun block =>
    verifyBlock cases deck block.wrapper block.constraints (contractDefaults cases block)

end Gate

end OpenADA.Cosim
