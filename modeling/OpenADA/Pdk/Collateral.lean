import OpenADA.Library.PyText

/-! The collateral of a PDK as the snapshot builder reads it: the source tree, the locators
inside it and the directive tokens of one line. -/
namespace OpenADA.Pdk

open PyText

abbrev Path := List String

abbrev Body := List UInt8

/-- A file selected by a section of it, or as a whole. Sections are case-folded. -/
abbrev View := Path × Option String

/-- The installed tree, by absolute path: strict resolution of every symbolic link, and the
stable capture of a regular file. -/
structure SourceTree where
  resolve : Path → Option Path
  capture : Path → Option Body

/-- `str(path)` of a relative path. -/
def posix (path : Path) : String := if path = [] then "." else "/".intercalate path

inductive ClosureFault where
  | locatorInvalid
  | pathEscape
  | missing
  | symlink
  | filesOverLimit
  | fileOverLimit
  | fileUnreadable
  | closureOverLimit
  | transportCycle (trail : List Path)
  | cycle (trail : List View)
  | directiveInvalid
  | sectionInvalid
  | sectionMissing
  | libraryMissing
  deriving DecidableEq

/-- `_without_inline_comment`: `quote` is the open quotation, `escaped` whether the character
before was an escape in it, `previous` the character before. -/
def withoutInlineComment (quote : Option Char) (escaped : Bool) (previous : Option Char) :
    List Char → List Char
  | [] => []
  | c :: rest =>
    if escaped then c :: withoutInlineComment quote false (some c) rest
    else if c = '\\' ∧ quote ≠ none then c :: withoutInlineComment quote true (some c) rest
    else if c ∈ ['\'', '"'] then
      let next := if quote = some c then none else if quote = none then some c else quote
      c :: withoutInlineComment next false (some c) rest
    else if c = '$' ∧ quote = none ∧ previous.all isSpace then []
    else c :: withoutInlineComment quote false (some c) rest

/-- `_directive_tokens`. -/
def directiveTokens (line : List Char) : Except ClosureFault (List String) :=
  let stripped := strip (withoutInlineComment none false none line)
  if stripped.head? ≠ some '.' ∨ stripped.take 2 = ['.', '*'] then .ok []
  else
    match shlex stripped with
    | some tokens => .ok tokens
    | none => .error .directiveInvalid

/-- `text.split("/")`. -/
def locatorParts (locator : String) : Path := locator.toList.splitOn '/' |>.map String.ofList

/-- `os.path.abspath` of the parts of an absolute path. -/
def absoluteParts (parts : Path) : Path :=
  parts.foldl (fun path part =>
    if part = "" ∨ part = "." then path
    else if part = ".." then path.dropLast
    else path ++ [part]) []

/-- `_normalized_source_path`; the second of the two paths it returns. -/
def normalizedSourcePath (tree : SourceTree) (root base : Path) (locator : String) :
    Except ClosureFault Path :=
  if locator = "" ∨ locator.toList.any (fun c => decide (c ∈ ['\x00', '\r', '\n', '$'])) ∨
      locator.toList.head? = some '/' then .error .locatorInvalid
  else
    let lexical := absoluteParts (base ++ locatorParts locator)
    if root.isPrefixOf lexical then
      match tree.resolve lexical with
      | none => .error .missing
      | some resolved =>
        if ¬ root.isPrefixOf resolved then .error .pathEscape
        else if resolved ≠ lexical then .error .symlink
        else .ok (lexical.drop root.length)
    else .error .pathEscape

/-- `body.decode("latin-1").splitlines()`. -/
def textLines (body : Body) : List (List Char) :=
  splitLines (body.map fun byte => Char.ofNat byte.toNat)

/-- `_INCLUDE_DIRECTIVES`. -/
def includeDirectives : List String := [".include", ".inc"]

/-- `tokens[0].casefold()`, or the empty text of a line without tokens. -/
def directiveOf (tokens : List String) : String := (tokens.head?.map casefold).getD ""

end OpenADA.Pdk
