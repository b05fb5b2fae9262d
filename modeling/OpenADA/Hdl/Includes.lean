import OpenADA.Library.LineSearch
import OpenADA.Synth.Liberty

/-! The include directives of a Verilog text: those that the patterns of the closure match, and
those that a preprocessor sees. -/
namespace OpenADA.Hdl

open PyStr LineSearch
open Synth (isSpace)

def isNewline (c : CodePoint) : Bool := c = point '\n'

def isLineEnd (c : CodePoint) : Bool := c = point '\r' || c = point '\n'

def behindInclude (text : PyStr) : Option PyStr :=
  if (lit "`include").isPrefixOf text then some (text.drop 8) else none

section Patterns

/-- `\s+` and a pattern behind it, the longest space first. -/
def spacesThen {β : Type} (pattern : PyStr → Option β) : PyStr → Option β
  | [] => none
  | c :: rest =>
    if isSpace c then (spacesThen pattern rest).orElse fun _ => pattern rest else none

/-- `[^"\r\n]`. -/
def isNameChar (c : CodePoint) : Bool := c ≠ point '"' && !isLineEnd c

/-- `"([^"\r\n]+)"`. -/
def quotedName : PyStr → Option PyStr
  | [] => none
  | c :: rest =>
    if c = point '"' ∧ rest.takeWhile isNameChar ≠ [] ∧
        (rest.dropWhile isNameChar).head? = some (point '"') then
      some (rest.takeWhile isNameChar)
    else none

/-- `_INCLUDE.findall`. No name reaches over the end of a line, so that no match hides another. -/
def includeNames (text : PyStr) : List PyStr :=
  lineMatches isSpace isNewline (fun text => (behindInclude text).bind (spacesThen quotedName))
    true text

/-- `[^\r\n]+`, and the text behind it. -/
def restOfLine (text : PyStr) : Option (PyStr × PyStr) :=
  let argument := text.takeWhile fun c => !isLineEnd c
  if argument = [] then none else some (argument, text.dropWhile fun c => !isLineEnd c)

/-- `_INCLUDE_ARGUMENT.findall`, behind a number of characters of a match. A match may reach over
the start of a line, at which no other match begins then. -/
def argumentsFrom : ℕ → Bool → PyStr → List PyStr
  | _, _, [] => []
  | passed + 1, _, c :: rest => argumentsFrom passed (isNewline c) rest
  | 0, atHead, c :: rest =>
    match if atHead then (behindInclude (c :: rest)).bind (spacesThen restOfLine) else none with
    | some (argument, behind) =>
      argument :: argumentsFrom (rest.length - behind.length) false rest
    | none => argumentsFrom 0 (headAfter isSpace isNewline atHead c) rest

def includeArguments (text : PyStr) : List PyStr := argumentsFrom 0 true text

def isComputed (argument : PyStr) : Bool :=
  (argument.dropWhile isSpace).head? ≠ some (point '"')

end Patterns

section Directives

/-- The characters that a preprocessor takes for white space, and those that end a line for it. -/
structure Preprocessor where
  isWhite : CodePoint → Bool
  endsLine : CodePoint → Bool

/-- A directive with a literal name: whether it is the first of its line for the patterns, and the
white space before the quote. -/
structure Directive where
  atHead : Bool
  gap : PyStr
  name : PyStr
  deriving DecidableEq

def Directive.size (directive : Directive) : ℕ :=
  8 + directive.gap.length + 1 + directive.name.length + 1

inductive Place where
  | code | identifier | quoted | escaped | opening | block | closing | line
  | directive (left : ℕ)
  deriving DecidableEq

variable (lex : Preprocessor)

def Preprocessor.placeAfter (place : Place) (c : CodePoint) (next : Option CodePoint) : Place :=
  match place with
  | .code =>
    if c = point '"' then .quoted
    -- an escaped identifier runs to the next white space
    else if c = point '\\' then .identifier
    else if c = point '/' ∧ next = some (point '/') then .line
    else if c = point '/' ∧ next = some (point '*') then .opening
    else .code
  | .identifier => if lex.isWhite c || lex.endsLine c then .code else .identifier
  | .quoted =>
    if c = point '\\' then .escaped
    else if c = point '"' ∨ lex.endsLine c then .code
    else .quoted
  | .escaped => .quoted
  | .opening => .block
  | .block => if c = point '*' ∧ next = some (point '/') then .closing else .block
  | .closing => .code
  | .line => if lex.endsLine c then .code else .line
  | .directive left => if left ≤ 1 then .code else .directive (left - 1)

/-- The directive at the start of a text, with any white space before the quote or none. -/
def Preprocessor.directiveAt (atHead : Bool) (text : PyStr) : Option Directive := do
  let behind ← behindInclude text
  let quoted := behind.dropWhile lex.isWhite
  let inName (c : CodePoint) : Bool := c ≠ point '"' && !lex.endsLine c
  if quoted.head? = some (point '"') ∧
      (quoted.tail.dropWhile inName).head? = some (point '"') then
    some ⟨atHead, behind.takeWhile lex.isWhite, quoted.tail.takeWhile inName⟩
  else none

def Preprocessor.directivesFrom : Place → Bool → PyStr → List Directive
  | _, _, [] => []
  | place, atHead, c :: rest =>
    let seen := if place = .code then lex.directiveAt atHead (c :: rest) else none
    let after := match seen with
      | some directive => .directive (directive.size - 1)
      | none => lex.placeAfter place c rest.head?
    seen.toList ++
      Preprocessor.directivesFrom after (headAfter isSpace isNewline atHead c) rest

/-- The directives outside comments, strings and escaped identifiers, whatever branches and macros
they stand in. -/
def Preprocessor.directives (text : PyStr) : List Directive := lex.directivesFrom .code true text

end Directives

end OpenADA.Hdl
