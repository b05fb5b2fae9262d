import OpenADA.Library.ExceptFold
import OpenADA.Library.SpiceText

/-! The prelude that preloads compiled OSDI modules, and the gate it has to pass. -/
namespace OpenADA.Osdi

open PyText SpiceText

inductive PreloadError where
  | noModules
  | duplicate
  | unsafePath
  | invalidInterface
  | invalidParameter
  | unsafeControl
  | missingModule
  | unboundModule
  | tampered
  deriving DecidableEq

section Patterns

/-- `MAX_OSDI_BYTES`. -/
def maxOsdiBytes : ℕ := 8 * 1024 * 1024

def isIdentifierChar (c : Char) : Bool := c.isAlphanum || c = '_'

/-- `_IDENT_RE`. -/
def isIdentifier : List Char → Bool
  | [] => false
  | c :: rest => (c.isAlpha || c = '_') && rest.all isIdentifierChar

/-- `_MODULE_RE`: `bhv_`, a block, `_v` and digits. -/
def isModuleName (name : List Char) : Bool :=
  let front := name.rdropWhile Char.isDigit
  let block := (front.drop 4).take (front.length - 6)
  decide (front.length < name.length) && decide (6 < front.length) &&
    decide (front = "bhv_".toList ++ block ++ "_v".toList) && block.all isIdentifierChar

/-- `_PATH_UNSAFE_RE`. -/
def isPathUnsafe (path : List Char) : Bool :=
  path.any fun c => isSpace c || decide (c.toNat ≤ 0x1f) || decide (c.toNat = 0x7f)

def foldLetter (c : Char) : Char := if c.toNat = 0x212A then 'k' else c.toLower

def scaleSuffixes : List String := ["", "t", "g", "meg", "k", "m", "u", "n", "p", "f", "a"]

def isScaleSuffix (text : List Char) : Bool :=
  (scaleSuffixes.map String.toList).contains (text.map foldLetter)

def dropSign : List Char → List Char
  | '+' :: rest => rest
  | '-' :: rest => rest
  | text => text

variable (digits : DigitClass)

def endsScalar (text : List Char) : Bool :=
  match text with
  | c :: rest =>
    if c = 'e' ∨ c = 'E' then
      !((dropSign rest).takeWhile digits.isDigit).isEmpty &&
        isScaleSuffix ((dropSign rest).dropWhile digits.isDigit)
    else isScaleSuffix text
  | [] => true

/-- `_SPICE_SCALAR_RE`. -/
def isSpiceScalar (text : List Char) : Bool :=
  let whole := (dropSign text).takeWhile digits.isDigit
  match (dropSign text).dropWhile digits.isDigit with
  | '.' :: rest =>
    !(whole.isEmpty && (rest.takeWhile digits.isDigit).isEmpty) &&
      endsScalar digits (rest.dropWhile digits.isDigit)
  | rest => !whole.isEmpty && endsScalar digits rest

end Patterns

section Generator

/-- `OsdiModule`, with what `compile_verilog_a` has checked of its name. -/
structure OsdiModule where
  moduleName : List Char
  osdiPath : List Char
  osdiSha256 : String
  named : isModuleName moduleName = true
  located : osdiPath ≠ []

/-- The value of a parameter; a float is the text `repr` gives it. -/
inductive ParameterValue where
  | bool (value : Bool)
  | int (value : ℤ)
  | float (text : List Char)
  | str (text : List Char)
  | other

/-- `_format_scalar`. -/
def formatScalar : ParameterValue → Except PreloadError (List Char)
  | .bool _ => .error .invalidParameter
  | .int value => .ok (toString value).toList
  | .float text => .ok text
  | .str text => .ok (strip text)
  | .other => .error .invalidParameter

variable (cases : CaseMap) (digits : DigitClass)

/-- One port of `_validate_ports`; `seen` holds the names in lower case. -/
def addPort (seen : List (List Char)) (port : List Char) :
    Except PreloadError (List (List Char)) :=
  if isIdentifier port = false then .error .invalidInterface
  else if cases.lower port ∈ seen then .error .invalidInterface
  else .ok (seen ++ [cases.lower port])

/-- `_validate_ports`. -/
def validatePorts (ports : List (List Char)) : Except PreloadError (List (List Char)) :=
  if ports = [] then .error .invalidInterface
  else (ports.foldlM (addPort cases) []).map fun _ => ports

structure Parameters where
  seen : List (List Char)
  out : List (List Char × List Char)

/-- One parameter of `_validate_parameters`. -/
def addParameter (state : Parameters) (parameter : List Char × ParameterValue) :
    Except PreloadError Parameters :=
  if isIdentifier parameter.1 = false then .error .invalidParameter
  else if cases.lower parameter.1 ∈ state.seen then .error .invalidParameter
  else do
    let text ← formatScalar parameter.2
    if isSpiceScalar digits text = false then .error .invalidParameter
    else .ok ⟨state.seen ++ [cases.lower parameter.1], state.out ++ [(parameter.1, text)]⟩

/-- `_validate_parameters`. -/
def validateParameters (parameters : List (List Char × ParameterValue)) :
    Except PreloadError (List (List Char × List Char)) := do
  let state ← parameters.foldlM (addParameter cases digits) ⟨[], []⟩
  return state.out

def wrapperLines (name : List Char) (ports : List (List Char))
    (parameters : List (List Char × List Char)) : List (List Char) :=
  let model := name ++ "__osdi".toList
  let defaults := parameters.map fun (name, value) => name ++ '=' :: value
  let forwarded := parameters.map fun (name, _) => name ++ "=\x7b".toList ++ name ++ "\x7d".toList
  [joinWords ([".subckt".toList, name] ++ ports ++ defaults),
    joinWords ([".model".toList, model, name] ++ forwarded),
    joinWords (["N1".toList] ++ ports ++ [model]),
    joinWords [".ends".toList, name]]

structure WrappedModule where
  module : OsdiModule
  ports : List (List Char)
  parameters : List (List Char × ParameterValue)

structure Prelude where
  seen : List (List Char)
  preloads : List (List Char)
  wrappers : List (List Char)

/-- One module of `osdi_preload_prelude`. -/
def addModule (state : Prelude) (wrapped : WrappedModule) : Except PreloadError Prelude :=
  if wrapped.module.moduleName ∈ state.seen then .error .duplicate
  else if isPathUnsafe wrapped.module.osdiPath = true then .error .unsafePath
  else do
    let ports ← validatePorts cases wrapped.ports
    let parameters ← validateParameters cases digits wrapped.parameters
    return ⟨state.seen ++ [wrapped.module.moduleName],
      state.preloads ++ [joinWords ["pre_osdi".toList, wrapped.module.osdiPath]],
      state.wrappers ++ wrapperLines wrapped.module.moduleName ports parameters⟩

def Prelude.lines (state : Prelude) : List (List Char) :=
  ".control".toList :: state.preloads ++ ".endc".toList :: state.wrappers

/-- `osdi_preload_prelude`. -/
def osdiPreloadPrelude (modules : List WrappedModule) : Except PreloadError (List Char) :=
  if modules.isEmpty = true then .error .noModules
  else (modules.foldlM (addModule cases digits) ⟨[], [], []⟩).map fun state =>
    joinedLines state.lines

end Generator

section Gate

inductive GatePhase where
  | preControl
  | inControl
  | wrapper
  deriving DecidableEq

structure Gate where
  phase : GatePhase
  paths : List (List Char)

/-- `_PRE_OSDI_LINE_RE` on a line without spaces around it. -/
def preOsdiPath (line : List Char) : Option (List Char) :=
  match words isSpace line with
  | [command, path] => if command = "pre_osdi".toList then some path else none
  | _ => none

variable (cases : CaseMap)

def checkWrapperLine (line : List Char) : Except PreloadError Unit :=
  let lowered := cases.lower line
  let first := (words isSpace lowered).headD []
  if ".control".toList.isPrefixOf lowered ∨ "pre_osdi".toList.isPrefixOf lowered then
    .error .unsafeControl
  else if [".subckt".toList, ".model".toList, ".ends".toList].contains first = false ∧
      first.head? ≠ some 'n' then .error .unsafeControl
  else .ok ()

/-- One line that is neither blank nor a comment. A second control block is refused by the section
it stands in. -/
def gateCard (gate : Gate) (line : List Char) : Except PreloadError Gate :=
  let lowered := cases.lower line
  match gate.phase with
  | .preControl =>
    if lowered = ".control".toList then .ok ⟨.inControl, gate.paths⟩ else .error .unsafeControl
  | .inControl =>
    if lowered = ".endc".toList then .ok ⟨.wrapper, gate.paths⟩
    else if lowered = ".control".toList then .error .unsafeControl
    else
      match preOsdiPath line with
      | none => .error .unsafeControl
      | some path =>
        if isPathUnsafe path = true then .error .unsafePath
        else .ok ⟨.inControl, gate.paths ++ [path]⟩
  | .wrapper => (checkWrapperLine cases line).map fun _ => gate

/-- One line of `validate_osdi_preload`. -/
def gateLine (gate : Gate) (raw : List Char) : Except PreloadError Gate :=
  let line := strip raw
  if line = [] ∨ line.head? = some '*' then .ok gate else gateCard cases gate line

variable (readBytes : List Char → Option (List UInt8)) (sha256 : List UInt8 → String)

def verifyModule (expected : Option (List Char → Option String)) (path : List Char) :
    Except PreloadError (List Char × String) :=
  match readBytes path with
  | none => .error .missingModule
  | some data =>
    if maxOsdiBytes < data.length then .error .missingModule
    else
      match expected with
      | none => .ok (path, sha256 data)
      | some digests =>
        match digests path with
        | none => .error .unboundModule
        | some digest =>
          if sha256 data ≠ digest then .error .tampered else .ok (path, sha256 data)

/-- `validate_osdi_preload`. -/
def validateOsdiPreload (expected : Option (List Char → Option String)) (text : List Char) :
    Except PreloadError (List (List Char × String)) := do
  let gate ← (splitLines text).foldlM (gateLine cases) ⟨.preControl, []⟩
  if gate.phase = .preControl then .error .unsafeControl
  if gate.phase = .inControl then .error .unsafeControl
  if gate.paths = [] then .error .noModules
  gate.paths.mapM (verifyModule readBytes sha256 expected)

end Gate

end OpenADA.Osdi
