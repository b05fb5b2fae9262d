import OpenADA.Pdk.Registry

/-! The families a deck's text names, the library entries a snapshot keeps for them, and the device
cards: continuation joining, the shape of a card, the rewriting into a PDK's spelling and the loop
over the deck. The numeric rewriting of parameters is an argument of the rewriters. -/
namespace OpenADA.Pdk

open PyText

/-- A character of `[a-z0-9_.]`. -/
def isTokenChar (c : Char) : Bool :=
  ('a' ≤ c && c ≤ 'z') || ('0' ≤ c && c ≤ '9') || c = '_' || c = '.'

def tokenAt (token text : List Char) : Bool :=
  token.isPrefixOf text && (text.drop token.length).head?.all fun c => !isTokenChar c

/-- `re.search` of the token between characters that are not token characters; `previous` is the
character before the text. -/
def findsToken (token : List Char) (previous : Option Char) : List Char → Bool
  | [] => (previous.all fun c => !isTokenChar c) && tokenAt token []
  | c :: rest =>
    ((previous.all fun c => !isTokenChar c) && tokenAt token (c :: rest)) ||
      findsToken token (some c) rest

/-- `scan_deck_families`. -/
def scanDeckFamilies (cases : CaseMap) (deck : List Char) : Except BindFault (Finset String) := do
  let tokens ← extendedFamilyTokens
  .ok (tokens.entries.foldl (fun found entry =>
    if entry.2 ∈ found then found
    else if findsToken entry.1.toList none (cases.lower deck) then insert entry.2 found
    else found) ∅)

/-- `ResolvedPdkBinding`: the binding with the entries it loads, and the families a gated snapshot
can serve. -/
structure Snapshot where
  binding : Profile
  capturedFamilies : Option (Finset String)

def taggedFamilies (entries : List LibraryEntry) : Finset String :=
  (entries.flatMap LibraryEntry.families).toFinset

def loadsFor (used : Finset String) (entry : LibraryEntry) : Bool :=
  entry.families.isEmpty || entry.families.any fun family => decide (family ∈ used)

/-- The gating of `resolve_pdk_binding`. -/
def gateFamilies (cases : CaseMap) (binding : Profile) (deck? : Option (List Char)) :
    Except BindFault Snapshot :=
  match deck? with
  | none => .ok ⟨binding, none⟩
  | some deck => do
    let used ← scanDeckFamilies cases deck
    let kept := binding.libraryEntries.filter (loadsFor used)
    .ok ⟨{ binding with libraryEntries := kept },
      some (extendedDeviceRoles.toFinset \
        (taggedFamilies binding.libraryEntries \ taggedFamilies kept))⟩

def isCrLf (c : Char) : Bool := c = '\r' || c = '\n'

def isBlank (c : Char) : Bool := c = ' ' || c = '\t'

/-- `_split_line_ending`. -/
def splitLineEnding (line : List Char) : List Char × List Char :=
  (rstrip isCrLf line, line.drop (rstrip isCrLf line).length)

/-- One line of `join_spice_continuations`; `logical` is never empty where a line continues. -/
def joinLine (logical : List (List Char)) (line : List Char) : List (List Char) :=
  let (body, ending) := splitLineEnding line
  let stripped := lstrip isBlank body
  match logical.getLast? with
  | some last =>
    if stripped.head? = some '+' then
      let (prev, prevEnding) := splitLineEnding last
      logical.dropLast ++
        [prev ++ [' '] ++ strip stripped.tail ++ if ending = [] then prevEnding else ending]
    else logical ++ [line]
  | none => logical ++ [line]

def logicalLines (deck : List Char) : List (List Char) := (splitKeeping deck).foldl joinLine []

/-- `join_spice_continuations`. -/
def joinSpiceContinuations (deck : List Char) : List Char := (logicalLines deck).flatten

/-- Whether `_TRAILING_COMMENT_RE` has its comment here. -/
def startsComment (text : List Char) : Bool :=
  (lstrip isSpace text).head? = some ';' ||
    match text with
    | space :: '$' :: rest => isSpace space && rest.head?.all isSpace
    | _ => false

/-- The card before a trailing comment and the comment; `none` where there is none. -/
def splitComment : List Char → Option (List Char × List Char)
  | [] => none
  | c :: rest =>
    if startsComment (c :: rest) then some ([], c :: rest)
    else (splitComment rest).map fun parts => (c :: parts.1, parts.2)

/-- The parts of a line: indentation, card, trailing comment and line ending. -/
structure Cosmetics where
  indent : List Char
  card : List Char
  comment : List Char
  newline : List Char

/-- `_split_card_cosmetics`. -/
def splitCardCosmetics (line : List Char) : Cosmetics :=
  let (body, newline) := splitLineEnding line
  let stripped := lstrip isBlank body
  let indent := body.take (body.length - stripped.length)
  match splitComment stripped with
  | some (card, comment) =>
    if stripped.head? = some '*' ∨ stripped.head? = some ';' then ⟨indent, stripped, [], newline⟩
    else ⟨indent, rstrip isSpace card, comment, newline⟩
  | none => ⟨indent, stripped, [], newline⟩

def splitBlank (text : List Char) : List (List Char) :=
  (text.splitOnP isBlank).filter fun token => decide (token ≠ [])

/-- `[^\s]+=[^\s]+`. -/
def isAssignment (token : List Char) : Bool := decide ('=' ∈ token.tail.dropLast)

structure CardMatch where
  name : List Char
  nodes : List (List Char)
  model : List Char
  params : List (List Char)

/-- `MOS_CARD_RE` and `_EXTENDED_CARD_RES`: a name with one of the initials, `count` nodes, a model
without `=` and assignments, all between blanks and free of other white space. -/
def matchCard (initials : List Char) (count : ℕ) (card : List Char) : Option CardMatch :=
  if (card.head?.any fun c => decide (c ∈ initials)) &&
      (splitBlank card).all fun token => token.all fun c => !isSpace c then
    match splitBlank card with
    | name :: rest =>
      match rest.drop count with
      | model :: params =>
        if '=' ∉ model ∧ params.all isAssignment then some ⟨name, rest.take count, model, params⟩
        else none
      | [] => none
    | [] => none
  else none

structure RewrittenCard where
  text : List Char
  modelTranslated : Bool
  sourceModel : List Char
  targetModel : String
  role : String
  dropped : List String
  droppedNodes : List (List Char)
  instanceName : List Char

structure CardParameters where
  kept : List (List Char)
  dropped : List String

/-- The numeric side of the rewriters: which tokens are SPICE numbers, and how the parameters of a
MOS or an extended card of some role are validated, rescaled and renamed. -/
structure ParameterRules where
  isSpiceNumber : List Char → Bool
  mos : Profile → String → CardMatch → Except BindFault CardParameters
  extended : Profile → String → CardMatch → Except BindFault CardParameters

/-- `re.IGNORECASE` equality with a lower-case ASCII letter or another ASCII character. -/
def equalsIgnoringCase (pattern c : Char) : Bool :=
  c.toLower = pattern || (pattern = 's' && c.toNat = 0x17F) || (pattern = 'k' && c.toNat = 0x212A) ||
    (pattern = 'i' && (c.toNat = 0x130 || c.toNat = 0x131))

def namesRole (role : String) (card : List Char) : Bool :=
  (card.splitOnP isBlank).any fun token =>
    decide (token.length = role.toList.length) &&
      (role.toList.zip token).all fun pair => equalsIgnoringCase pair.1 pair.2

/-- `_ROLE_TOKEN_RE`: `nmos.` or `pmos.` and lower-case letters between blanks. -/
def namesMosRole (card : List Char) : Bool :=
  (card.splitOnP isBlank).any fun token =>
    (token.take 5 = "nmos.".toList || token.take 5 = "pmos.".toList) && token.length > 5 &&
      (token.drop 5).all fun c => 'a' ≤ c && c ≤ 'z'

section Rewriting

variable (cases : CaseMap) (rules : ParameterRules)

/-- `translate_model`. -/
def translateModel (model : List Char) (binding : Profile) :
    Except BindFault (String × String × Bool) := do
  let lowered := String.ofList (cases.lower model)
  let native : InsertionDict String (String × String) :=
    .ofList (binding.deviceModels.map fun entry => (lowerName entry.2, entry))
  let resolvedRole := canonicalRole lowered
  match binding.deviceModels.lookup resolvedRole with
  | some target => .ok (target, resolvedRole, true)
  | none =>
    match native.get? lowered with
    | some (role, name) => .ok (name, role, decide (name.toList ≠ model))
    | none =>
      let index ← deviceRoleIndex
      let roleName := (index.get? lowered).orElse fun _ =>
        if resolvedRole ∈ deviceRoles ++ extendedDeviceRoles then some resolvedRole else none
      match roleName with
      | some role =>
        match binding.deviceModels.lookup role with
        | some target => .ok (target, role, true)
        | none => .error .modelUnavailable
      | none => .error .modelUnknown

def isDirectiveLine (line : List Char) : Bool :=
  (lstrip isBlank line).head? = some '.' || (lstrip isBlank line).head? = some '*'

/-- `" ".join(parts)`. -/
def joinBlank (parts : List (List Char)) : List Char := [' '].intercalate parts

/-- `rewrite_mos_card`; `none` is a line left as it is. -/
def rewriteMosCard (line : List Char) (binding : Profile) :
    Except BindFault (Option RewrittenCard) :=
  if isDirectiveLine line then .ok none
  else
    let parts := splitCardCosmetics line
    match matchCard ['M', 'm'] 4 parts.card with
    | none =>
      if namesMosRole parts.card ∧ (parts.card.head? = some 'M' ∨ parts.card.head? = some 'm') then
        .error .deviceUnbindable
      else .ok none
    | some card => do
      let (target, role, translated) ← translateModel cases card.model binding
      let parameters ← rules.mos binding role card
      let name := if binding.devicePrefix = 'x' then 'x' :: card.name else card.name
      .ok (some {
        text := parts.indent ++
          joinBlank ([name] ++ card.nodes ++ [target.toList] ++ parameters.kept) ++
          parts.comment ++ parts.newline
        modelTranslated := translated
        sourceModel := card.model
        targetModel := target
        role := role
        dropped := parameters.dropped
        droppedNodes := []
        instanceName := card.name })

/-- The lower-case model names of the given roles, in the binding or the registry. -/
def knownNative (binding : Profile) (roles : List String) : List String :=
  (binding :: registry).flatMap fun other =>
    (other.deviceModels.filter fun entry => decide (entry.1 ∈ roles)).map fun entry =>
      lowerName entry.2

def rewriteExtended (parts : Cosmetics) (card : CardMatch) (binding : Profile) :
    Except BindFault (Option RewrittenCard) := do
  let (target, role, translated) ← translateModel cases card.model binding
  match binding.deviceCards.lookup role with
  | none => .error .modelUnavailable
  | some spec =>
    let name := if spec.subckt then 'x' :: card.name else card.name
    let parameters ← rules.extended binding role card
    let keep := spec.emitNodes.getD card.nodes.length
    .ok (some {
      text := parts.indent ++
        joinBlank ([name] ++ card.nodes.take keep ++ [target.toList] ++ parameters.kept) ++
        parts.comment ++ parts.newline
      modelTranslated := translated
      sourceModel := card.model
      targetModel := target
      role := role
      dropped := parameters.dropped
      droppedNodes := card.nodes.drop keep
      instanceName := card.name })

/-- `rewrite_device_card`; `none` is a line left as it is. -/
def rewriteDeviceCard (line : List Char) (binding : Profile) :
    Except BindFault (Option RewrittenCard) :=
  if isDirectiveLine line then .ok none
  else
    let parts := splitCardCosmetics line
    match extendedCards.find? fun kind => decide (cases.lower (parts.card.take 1) = [kind.letter]) with
    | none => .ok none
    | some kind =>
      let tokens := (parts.card.splitOnP isSpace).filter fun token => decide (token ≠ [])
      -- an ideal passive: its fourth token is a value
      if kind.letter ∈ ['r', 'c'] ∧ (tokens[3]?.any rules.isSpiceNumber) then .ok none
      else
        match matchCard [kind.letter.toUpper, kind.letter] kind.nodes parts.card with
        | none =>
          if kind.roles.any fun role => namesRole role parts.card then .error .deviceUnbindable
          else .ok none
        | some card =>
          let lowered := String.ofList (cases.lower card.model)
          if canonicalRole lowered ∉ kind.roles ∧ lowered ∉ knownNative binding kind.roles then
            if kind.letter ∈ ['d', 'q'] then do
              -- names the unknown device in its refusal
              let _ ← translateModel cases card.model binding
              .ok none
            else .ok none
          else rewriteExtended cases rules parts card binding

end Rewriting

/-- A line without its `\r?\n?` at the end, and that ending. -/
def splitEol (line : List Char) : List Char × List Char :=
  if line.drop (line.length - 2) = ['\r', '\n'] then (line.take (line.length - 2), ['\r', '\n'])
  else if line.getLast? = some '\r' ∨ line.getLast? = some '\n' then
    (line.dropLast, line.drop (line.length - 1))
  else (line, [])

/-- `_SAVE_CARD_RE` on one line; `alnum` are the alphanumeric characters of its word boundary. -/
def isSaveCard (alnum : Char → Bool) (line : List Char) : Bool :=
  let text := lstrip isSpace line
  decide (5 ≤ text.length) &&
    ((".save".toList.zip text).all fun pair => equalsIgnoringCase pair.1 pair.2) &&
    (text.drop 5).head?.all fun c => !(alnum c || c = '_')

/-- `_extend_save_card`. -/
def extendSaveCard (cases : CaseMap) (alnum : Char → Bool) (currents : List (List Char))
    (line : List Char) : List Char :=
  if isSaveCard alnum line then
    let headLength := line.length - (lstrip isSpace line).length + 5
    let (rest, eol) := splitEol (line.drop headLength)
    let present := ((rest.splitOnP isSpace).filter fun token => decide (token ≠ [])).map cases.lower
    let missing := currents.filter fun vector => !present.contains vector
    if missing = [] then line
    else line.take headLength ++ rest ++ [' '] ++ joinBlank missing ++ eol
  else line

end OpenADA.Pdk
