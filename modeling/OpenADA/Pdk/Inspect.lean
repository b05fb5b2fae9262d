import OpenADA.Library.SpiceText
import OpenADA.Pdk.Cards

/-! The findings about the PDK collateral a deck binds by hand. -/
namespace OpenADA.Pdk

open PyText SpiceText

/-- `MAX_INSPECTED_LINES`. -/
def maxInspectedLines : ℕ := 100000

/-- `MAX_REFERENCES`. -/
def maxReferences : ℕ := 256

inductive ReferenceCard where
  | lib
  | inc
  | preOsdi
  deriving DecidableEq

structure ResolvedPath where
  parts : List (List Char)
  present : Bool

structure CollateralReference where
  card : ReferenceCard
  rawPath : List Char
  lineNumber : ℕ
  resolved : Option ResolvedPath

inductive Severity where
  | error
  | warning
  deriving DecidableEq

structure CollateralFinding where
  severity : Severity
  code : String
  deriving DecidableEq

structure CollateralProfile where
  pdkId : List Char
  analog : Bool
  ngspiceOptions : List (List Char)
  corners : List (List Char)
  libraryPaths : List (List Char)
  osdiRelativePaths : List (List Char)
  identityRelativePath : Option (List Char)

section References

def matchesWord (word : String) (text : List Char) : Bool :=
  decide (text.length = word.toList.length) &&
    (word.toList.zip text).all fun pair => equalsIgnoringCase pair.1 pair.2

/-- `_strip_quotes`. -/
def stripQuotes (value : List Char) : List Char :=
  if 2 ≤ value.length ∧ value.head? = value.getLast? ∧ value.head? ∈ [some '"', some '\''] then
    value.tail.dropLast
  else value

/-- `_LIB_RE`, `_INCLUDE_RE` and `_PRE_OSDI_RE` on one line. -/
def matchReference (line : List Char) : Option (ReferenceCard × List Char) :=
  match words isSpace line with
  | [directive, path] =>
    if matchesWord ".lib" directive then some (.lib, path)
    else if matchesWord ".inc" directive || matchesWord ".include" directive then
      some (.inc, path)
    else if matchesWord "osdi" directive || matchesWord "pre_osdi" directive then
      some (.preOsdi, path)
    else none
  | [directive, path, _] => if matchesWord ".lib" directive then some (.lib, path) else none
  | _ => none

def lineReference (resolve : List Char → Option ResolvedPath) (line : List Char × ℕ) :
    Option CollateralReference :=
  if (lstrip isSpace line.1).head? ∈ [none, some '*'] then none
  else (matchReference line.1).map fun (card, path) =>
    ⟨card, stripQuotes path, line.2, resolve (stripQuotes path)⟩

/-- One line of `collateral_references`. -/
def addReference (resolve : List Char → Option ResolvedPath)
    (references : List CollateralReference) (line : List Char × ℕ) : List CollateralReference :=
  if maxInspectedLines < line.2 ∨ maxReferences ≤ references.length then references
  else references ++ (lineReference resolve line).toList

def collateralReferences (resolve : List Char → Option ResolvedPath) (deck : List Char) :
    List CollateralReference :=
  ((splitLines deck).zipIdx 1).foldl (addReference resolve) []

end References

section Options

variable (wordClass : WordClass)

/-- `_OPTION_RE`. -/
def isOptionLine (line : List Char) : Bool :=
  let text := lstrip isSpace line
  let ends (rest : List Char) : Bool := rest.head?.all fun c => !wordClass.isWord c
  (matchesWord ".options" (text.take 8) && ends (text.drop 8)) ||
    (matchesWord ".option" (text.take 7) && ends (text.drop 7))

/-- `_CONTINUATION_RE`: the text after a plus sign and at most one space. -/
def continuationBody (line : List Char) : Option (List Char) :=
  match lstrip isSpace line with
  | '+' :: c :: body => some (if isSpace c then body else c :: body)
  | ['+'] => some []
  | _ => none

structure OptionCards where
  cards : List (List Char)
  current : Option (List Char)

/-- One line of `_option_cards`. -/
def addOptionLine (state : OptionCards) (line : List Char × ℕ) : OptionCards :=
  if maxInspectedLines < line.2 then state
  else if isOptionLine wordClass line.1 then ⟨state.cards ++ state.current.toList, some line.1⟩
  else
    match state.current, continuationBody line.1 with
    | some current, some body => ⟨state.cards, some (current ++ ' ' :: body)⟩
    | some current, none => ⟨state.cards ++ [current], none⟩
    | none, _ => state

/-- `_option_cards`. -/
def optionCards (deck : List Char) : List (List Char) :=
  let state := ((splitLines deck).zipIdx 1).foldl (addOptionLine wordClass) ⟨[], none⟩
  state.cards ++ state.current.toList

def assignsHere (name text : List Char) : Bool :=
  decide (name.length ≤ text.length) &&
    ((name.zip text).all fun pair => equalsIgnoringCase pair.1.toLower pair.2) &&
    (lstrip isSpace (text.drop name.length)).head? = some '='

/-- The search for an assignment at a word boundary; `previous` is the character before. -/
def searchesName (name : List Char) (previous : Option Char) : List Char → Bool
  | [] => false
  | c :: rest =>
    (previous.any wordClass.isWord != wordClass.isWord c && assignsHere name (c :: rest)) ||
      searchesName name (some c) rest

/-- `_declares_option`. -/
def declaresOption (deck name : List Char) : Bool :=
  (optionCards wordClass deck).any (searchesName wordClass name none)

end Options

section Paths

/-- The components of `PurePosixPath(raw)` below its root. -/
def posixNames (raw : List Char) : List (List Char) :=
  (raw.splitOn '/').filter fun part => decide (part ≠ [] ∧ part ≠ ['.'])

/-- `PurePosixPath(raw).parts`. -/
def posixPathParts (raw : List Char) : List (List Char) :=
  (if raw.head? ≠ some '/' then []
    else if raw.take 2 = ['/', '/'] ∧ (raw.drop 2).head? ≠ some '/' then [['/', '/']]
    else [['/']]) ++ posixNames raw

/-- The drive and root of a path that starts with two backslashes, and the rest. -/
def shareAnchor (text : List Char) : List Char × List Char :=
  let start := if (text.take 8).map Char.toUpper = "\\\\?\\UNC\\".toList then 8 else 2
  let server := (text.drop start).takeWhile (· ≠ '\\')
  match text.drop (start + server.length) with
  | [] => (text, [])
  | _ :: rest =>
    let share := rest.takeWhile (· ≠ '\\')
    match rest.drop share.length with
    | [] => (text, [])
    | _ :: relative => (text.take (start + server.length + 1 + share.length) ++ ['\\'], relative)

def windowsAnchor (text : List Char) : List Char × List Char :=
  match text with
  | '\\' :: '\\' :: _ => shareAnchor text
  | '\\' :: rest => (['\\'], rest)
  | drive :: ':' :: '\\' :: rest => ([drive, ':', '\\'], rest)
  | drive :: ':' :: rest => ([drive, ':'], rest)
  | _ => ([], text)

/-- `PureWindowsPath(raw).parts`. -/
def windowsPathParts (raw : List Char) : List (List Char) :=
  let (anchor, relative) := windowsAnchor (raw.map fun c => if c = '/' then '\\' else c)
  (if anchor = [] then [] else [anchor]) ++
    (relative.splitOn '\\').filter fun part => decide (part ≠ [] ∧ part ≠ ['.'])

/-- `_path_parts`. -/
def pathParts (reference : CollateralReference) : List (List Char) :=
  (reference.resolved.map ResolvedPath.parts).getD [] ++ posixPathParts reference.rawPath ++
    windowsPathParts reference.rawPath

variable (cases : CaseMap)

/-- `PurePosixPath(raw).name`. -/
def posixName (raw : List Char) : List Char := (posixNames raw).getLast?.getD []

/-- `_basename`. -/
def referenceName (reference : CollateralReference) : List Char :=
  cases.lower (posixName (reference.rawPath.map fun c => if c = '\\' then '/' else c))

/-- `_profile_basenames`. -/
def profileNames (profile : CollateralProfile) : List (List Char) :=
  let corners := if profile.corners = [] then [[]] else profile.corners
  let libraries := profile.libraryPaths.flatMap fun path =>
    corners.map fun corner => replaceFrom "\x7bcorner\x7d".toList corner 0 path
  let paths := libraries ++ profile.osdiRelativePaths ++ profile.identityRelativePath.toList
  ((paths.map posixName).filter fun name => decide (name ≠ [])).map cases.lower

/-- `_owning_pdk`. -/
def owningPdk (registry : List CollateralProfile) (reference : CollateralReference) :
    Option CollateralProfile :=
  registry.find? fun profile =>
    profile.analog && decide (cases.lower profile.pdkId ∈ (pathParts reference).map cases.lower)

/-- `_shipping_pdks`. -/
def shippingPdks (registry : List CollateralProfile) (name : List Char) : List (List Char) :=
  (registry.filter fun profile =>
    profile.analog && decide (name ∈ profileNames cases profile)).map CollateralProfile.pdkId

end Paths

section Findings

variable (cases : CaseMap) (wordClass : WordClass) (registry : List CollateralProfile)
  (resolve : List Char → Option ResolvedPath)

def referenceFinding (reference : CollateralReference) : CollateralFinding :=
  let owner := owningPdk cases registry reference
  let name := referenceName cases reference
  let isForeign := owner.any fun profile => decide (name ∉ profileNames cases profile) &&
    (shippingPdks cases registry name).any fun id => decide (id ≠ profile.pdkId)
  if isForeign then ⟨.error, "pdk.collateral.foreign"⟩
  else if reference.card = .preOsdi then ⟨.error, "pdk.collateral.hand_bound"⟩
  else if reference.resolved.any fun resolved => !resolved.present then
    ⟨.error, "pdk.collateral.missing"⟩
  else if owner.isSome then ⟨.error, "pdk.collateral.hand_bound"⟩
  else ⟨.warning, "simulation.collateral.unmanaged"⟩

def optionName (assignment : List Char) : Option (List Char) :=
  if '=' ∈ assignment then some (trim isSpace (assignment.takeWhile (· ≠ '='))) else none

def ownedOptions (boundPdk : List Char) : List (List Char) :=
  match registry.find? fun profile => profile.pdkId = boundPdk with
  | some profile => profile.ngspiceOptions.filterMap optionName
  | none => []

/-- `inspect_deck_collateral`. -/
def inspectDeckCollateral (deck : List Char) (boundPdk : Option (List Char)) :
    List CollateralFinding :=
  let references := collateralReferences resolve deck
  match boundPdk with
  | some boundPdk =>
    if references ≠ [] ∨ declaresOption wordClass deck "scale".toList = true ∨
        (ownedOptions registry boundPdk).any (declaresOption wordClass deck) = true then
      [⟨.error, "pdk.collateral.conflict"⟩]
    else []
  | none => references.map (referenceFinding cases registry)

end Findings

end OpenADA.Pdk
