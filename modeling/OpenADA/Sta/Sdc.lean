import OpenADA.Library.CharClass
import OpenADA.Library.ExceptFold

/-! The subset of SDC that a timing run accepts, one command a line. -/
namespace OpenADA.Sta

open PyText

/-- `MAX_SDC_COMMANDS`. -/
def maxSdcCommands : ℕ := 4096

/-- `MAX_SDC_LINE_CHARS`. -/
def maxSdcLineChars : ℕ := 16384

abbrev Name := List Char

/-- `_SDC_TOP_COMMANDS`. -/
def sdcTopCommands : List String :=
  ["create_clock", "create_generated_clock", "current_design", "group_path", "set",
    "set_case_analysis", "set_clock_groups", "set_clock_latency", "set_clock_transition",
    "set_clock_uncertainty", "set_disable_timing", "set_driving_cell", "set_false_path",
    "set_ideal_network", "set_input_delay", "set_load", "set_max_capacitance", "set_max_delay",
    "set_max_fanout", "set_max_transition", "set_min_delay", "set_multicycle_path",
    "set_output_delay", "set_propagated_clock"]

/-- `_SDC_QUERY_COMMANDS`. -/
def sdcQueryCommands : List String :=
  ["all_clocks", "all_inputs", "all_outputs", "all_registers", "concat", "expr",
    "filter_collection", "get_cells", "get_clocks", "get_nets", "get_pins", "get_ports", "lindex",
    "list"]

def tops : List Name := sdcTopCommands.map String.toList

def queries : List Name := sdcQueryCommands.map String.toList

/-- `_SDC_RESERVED_VARIABLES`. -/
def sdcReservedVariables : List String :=
  ["argc", "argv", "argv0", "env", "errorCode", "errorInfo", "tcl_interactive", "tcl_library",
    "tcl_patchLevel", "tcl_platform", "tcl_version"]

/-- `_SDC_RESERVED_VARIABLE_PREFIXES`. -/
def sdcReservedVariablePrefixes : List String := ["auto_", "sta_", "tcl_"]

/-- `_sdc_variable_is_reserved`. -/
def sdcVariableIsReserved (name : Name) : Bool :=
  (sdcReservedVariables.map String.toList).contains name ||
    sdcReservedVariablePrefixes.any fun front => front.toList.isPrefixOf name

inductive LineError where
  | tooLong
  | controlCharacter
  | unsupportedTclSyntax
  | unbalancedBracket
  | unsafeSubcommand
  | unbalancedQuote
  | unsafeVariable
  | undeclaredVariable
  | commandNotAllowed
  | unsafeSetVariable
  | reservedSetVariable
  | currentDesignMismatch
  deriving DecidableEq

inductive SdcError where
  | empty
  | tooManyCommands
  | line (number : ℕ) (error : LineError)
  | noCommands
  deriving DecidableEq

section Patterns

def isIdentChar (c : Char) : Bool := c.isAlphanum || c = '_'

def identifier (text : List Char) : Option (Name × List Char) :=
  match text with
  | c :: _ =>
    if c.isAlpha || c = '_' then some (text.takeWhile isIdentChar, text.dropWhile isIdentChar)
    else none
  | [] => none

variable (wordClass : WordClass)

/-- `_SDC_COMMAND`: an identifier with a word boundary behind it. -/
def sdcCommand (text : List Char) : Option Name :=
  match identifier text with
  | some (name, rest) => if rest.head?.any wordClass.isWord then none else some name
  | none => none

/-- `_SDC_VARIABLE` behind its dollar sign, and what follows it. -/
def sdcVariable (text : List Char) : Option (Name × List Char) :=
  match text with
  | '{' :: braced =>
    match identifier braced with
    | some (name, '}' :: rest) => some (name, rest)
    | _ => none
  | _ => identifier text

def isBlank (c : Char) : Bool := c = ' ' || c = '\t'

/-- `_SDC_SET` on a line without spaces around it: the variable it sets. -/
def sdcSet (stripped : List Char) : Option Name :=
  let rest := stripped.drop 3
  if stripped.take 3 ≠ "set".toList ∨ (rest.takeWhile isBlank).isEmpty then none
  else
    match identifier (rest.dropWhile isBlank) with
    | some (name, after) =>
      if (after.takeWhile isBlank).isEmpty ∨ after.tail.isEmpty then none else some name
    | none => none

/-- `current_design` of the top, in quotes or not. -/
def isCurrentDesign (top stripped : List Char) : Bool :=
  let rest := stripped.drop 14
  [top, '"' :: top, top ++ ['"'], '"' :: top ++ ['"']].any fun name =>
    let gap := rest.take (rest.length - name.length)
    decide (stripped.take 14 = "current_design".toList) && decide (rest = gap ++ name) &&
      decide (gap ≠ []) && gap.all isSpace

end Patterns

section Lines

variable (wordClass : WordClass)

structure Brackets where
  quoteOpen : Bool
  starts : List ℕ

def scanBracket (line : List Char) (state : Brackets) (entry : Char × ℕ) :
    Except LineError Brackets :=
  let (c, index) := entry
  if c = '"' then .ok ⟨!state.quoteOpen, state.starts⟩
  else if c = '[' then .ok ⟨state.quoteOpen, index :: state.starts⟩
  else if c = ']' then
    match state.starts with
    | [] => .error .unbalancedBracket
    | start :: starts =>
      match sdcCommand wordClass (strip ((line.take index).drop (start + 1))) with
      | some name =>
        if name ∈ queries then .ok ⟨state.quoteOpen, starts⟩ else .error .unsafeSubcommand
      | none => .error .unsafeSubcommand
  else .ok state

def checkBrackets (line : List Char) : Except LineError Unit := do
  let state ← line.zipIdx.foldlM (scanBracket wordClass line) ⟨false, []⟩
  if state.quoteOpen = true then .error .unbalancedQuote
  else if state.starts ≠ [] then .error .unbalancedBracket
  else .ok ()

def checkVariable (assigned : List Name) (after : List Char) : Except LineError Unit :=
  match sdcVariable after with
  | none => .error .unsafeVariable
  | some (name, rest) =>
    if rest.head?.any fun c => c = '(' || c = ':' then .error .unsafeVariable
    else if name ∉ assigned then .error .undeclaredVariable
    else .ok ()

def dollars : List Char → List (List Char)
  | [] => []
  | c :: rest => if c = '$' then rest :: dollars rest else dollars rest

def checkCommand (top stripped : List Char) : Except LineError (Option Name) :=
  match sdcCommand wordClass stripped with
  | none => .error .commandNotAllowed
  | some name =>
    if name ∉ tops then .error .commandNotAllowed
    else if name = "set".toList then
      match sdcSet stripped with
      | none => .error .unsafeSetVariable
      | some variableName =>
        if sdcVariableIsReserved variableName = true then .error .reservedSetVariable
        else .ok (some variableName)
    else if name = "current_design".toList ∧ isCurrentDesign top stripped = false then
      .error .currentDesignMismatch
    else .ok none

def checkLine (top : List Char) (assigned : List Name) (line : List Char) :
    Except LineError (Option Name) :=
  if maxSdcLineChars < line.length then .error .tooLong
  else if line.any fun c => decide (c.toNat < 32) && decide (c ≠ '\t') then
    .error .controlCharacter
  else if line.any fun c => [';', '\\', '{', '}'].contains c then .error .unsupportedTclSyntax
  else do
    checkBrackets wordClass line
    (dollars line).forM (checkVariable assigned)
    checkCommand wordClass top (strip line)

structure SdcState where
  commandCount : ℕ
  assigned : List Name

def isCommandLine (line : List Char) : Bool :=
  !decide (strip line = [] ∨ (strip line).head? = some '#')

/-- One line of `_load_safe_sdc`. -/
def addLine (top : List Char) (state : SdcState) (entry : List Char × ℕ) :
    Except SdcError SdcState :=
  if isCommandLine entry.1 = false then .ok state
  else if maxSdcCommands < state.commandCount + 1 then .error .tooManyCommands
  else do
    let found ← (checkLine wordClass top state.assigned entry.1).mapError (.line entry.2)
    return ⟨state.commandCount + 1, state.assigned ++ found.toList⟩

/-- `_load_safe_sdc` on a decoded text: the number of its commands. -/
def loadSafeSdc (top text : List Char) : Except SdcError ℕ :=
  if strip text = [] then .error .empty
  else do
    let state ← ((splitLines text).zipIdx 1).foldlM (addLine wordClass top) ⟨0, []⟩
    if state.commandCount = 0 then .error .noCommands else .ok state.commandCount

end Lines

end OpenADA.Sta
