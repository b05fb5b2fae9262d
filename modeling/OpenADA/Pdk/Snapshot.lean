import OpenADA.Library.InsertionDict
import OpenADA.Pdk.Collateral

/-! The snapshot builder: captures, the transport closure of the library preprocessor and the
walk of the selected sections. Both recursions count the levels left under the depth ceiling. -/
namespace OpenADA.Pdk

open PyText

/-- `MAX_BOUND_FILES`. -/
def maxBoundFiles : ℕ := 512

/-- `MAX_CLOSURE_EDGES`. -/
def maxClosureEdges : ℕ := 1024

/-- `MAX_CLOSURE_DEPTH`. -/
def maxClosureDepth : ℕ := 64

/-- `MAX_PDK_FILE_BYTES`. -/
def maxPdkFileBytes : ℕ := 256 * 1024 * 1024

/-- `MAX_PDK_SNAPSHOT_BYTES`. -/
def maxPdkSnapshotBytes : ℕ := 512 * 1024 * 1024

inductive Form where
  | lib
  | include
  deriving DecidableEq

inductive MaterialRole where
  | parserLibrary
  | transitiveLibrary
  | cornerLibrary
  deriving DecidableEq

def MaterialRole.priority : MaterialRole → ℕ
  | .parserLibrary => 0
  | .transitiveLibrary => 1
  | .cornerLibrary => 2

structure ClosureRecord where
  index : ℕ
  form : Form
  relativePath : Path
  sectionName? : Option String
  bytes : ℕ
  sha256 : String
  deriving DecidableEq

/-- What the builder reads: the installed tree, the PDK directory in it and the digest. -/
structure Source where
  tree : SourceTree
  root : Path
  sha256 : Body → String

/-- `_PdkSnapshotBuilder`. A set of walked files or views lists its members in the order in which
they were added. -/
structure Builder where
  captured : InsertionDict Path Body
  roles : InsertionDict Path MaterialRole
  closureRecords : List ClosureRecord
  namespaceModels : Finset String
  namespaceGlobals : Finset String
  walkedViews : List View
  activeViews : List View
  transportWalked : List Path
  transportActive : List Path
  totalBytes : ℕ

/-- `_PdkSnapshotBuilder.__init__`. -/
def Builder.initial (deviceModels : List String) : Builder where
  captured := .empty
  roles := .empty
  closureRecords := []
  namespaceModels := (deviceModels.map casefold).toFinset
  namespaceGlobals := ∅
  walkedViews := []
  activeViews := []
  transportWalked := []
  transportActive := []
  totalBytes := 0

/-- `_capture`. -/
def capture (source : Source) (b : Builder) (relative : Path) :
    Except ClosureFault (Body × Builder) :=
  match b.captured.get? relative with
  | some body => .ok (body, b)
  | none =>
    if b.captured.entries.length ≥ maxBoundFiles - 1 then .error .filesOverLimit
    else
      match source.tree.capture (source.root ++ relative) with
      | none => .error .fileUnreadable
      | some body =>
        if body.length > maxPdkFileBytes then .error .fileOverLimit
        else if b.totalBytes + body.length > maxPdkSnapshotBytes then .error .filesOverLimit
        else .ok (body, { b with
          captured := b.captured.set relative body
          totalBytes := b.totalBytes + body.length })

def ranked (existing : Option MaterialRole) (role : MaterialRole) : MaterialRole :=
  match existing with
  | none => role
  | some held => if role.priority > held.priority then role else held

/-- `capture_material`. -/
def captureMaterial (source : Source) (b : Builder) (relative : Path) (role : MaterialRole) :
    Except ClosureFault (Body × Builder) := do
  let (body, b) ← capture source b relative
  .ok (body, { b with roles := b.roles.set relative (ranked (b.roles.get? relative) role) })

section Transport

variable (source : Source)

/-- A file named by a line of `relative`. -/
def childPath (relative : Path) (locator : String) : Except ClosureFault Path :=
  normalizedSourcePath source.tree source.root (source.root ++ relative.dropLast) locator

/-- One line of `capture_transport_closure`; `recurse` captures the closure of an included file. -/
def transportLine (recurse : Path → Builder → Except ClosureFault Builder) (relative : Path)
    (b : Builder) (line : List Char) : Except ClosureFault Builder := do
  let tokens ← directiveTokens line
  if directiveOf tokens ∈ includeDirectives then
    match tokens with
    | [_, locator] =>
      let child ← childPath source relative locator
      recurse child b
    | _ => .error .directiveInvalid
  else if directiveOf tokens = ".lib" then
    match tokens with
    | [_, locator, _] =>
      let child ← childPath source relative locator
      -- another section of a file whose lines are read already
      if child ∈ b.transportActive ∨ child ∈ b.transportWalked then
        let (_, b) ← captureMaterial source b child .parserLibrary
        .ok b
      else recurse child b
    | [_, _] => .ok b
    | _ => .error .directiveInvalid
  else .ok b

/-- `capture_transport_closure`. -/
def captureTransportClosure : ℕ → Path → Builder → Except ClosureFault Builder
  | 0, _, _ => .error .closureOverLimit
  | levels + 1, relative, b =>
    if relative ∈ b.transportActive then
      .error (.transportCycle (b.transportActive ++ [relative]))
    else if relative ∈ b.transportWalked then .ok b
    else do
      let (body, b) ← captureMaterial source b relative .parserLibrary
      let b ← (textLines body).foldlM
        (transportLine source (captureTransportClosure levels) relative)
        { b with transportActive := b.transportActive ++ [relative] }
      .ok { b with
        transportWalked := b.transportWalked ++ [relative]
        transportActive := b.transportActive.dropLast }

end Transport

def declaredNames (tokens : List String) : Finset String × Finset String :=
  match tokens with
  | _ :: name :: rest =>
    if directiveOf tokens ∈ [".model", ".subckt"] then ({casefold name}, ∅)
    else if directiveOf tokens = ".global" then
      (∅, (((name :: rest).filter fun token =>
        decide (token ≠ "0") && decide (token.toList.head? ≠ some '$')).map casefold).toFinset)
    else (∅, ∅)
  | _ => (∅, ∅)

/-- `_scan_namespace`. -/
def scanNamespace (b : Builder) (tokens : List String) : Builder :=
  { b with
    namespaceModels := b.namespaceModels ∪ (declaredNames tokens).1
    namespaceGlobals := b.namespaceGlobals ∪ (declaredNames tokens).2 }

/-- The section bookkeeping of `walk`: the open section and whether the requested one was seen. -/
structure Sections where
  current : Option String
  found : Bool

def selects (requested current : Option String) : Bool :=
  match requested, current with
  | some requested, some current => decide (casefold current = casefold requested)
  | _, _ => false

/-- The section bookkeeping of one line, and whether the line is an active one. -/
def sectionStep (requested : Option String) (sections : Sections) (tokens : List String) :
    Except ClosureFault (Sections × Bool) :=
  if directiveOf tokens = ".lib" ∧ tokens.length = 2 then
    if sections.current ≠ none then .error .sectionInvalid
    else
      .ok (⟨tokens[1]?, sections.found || selects requested tokens[1]?⟩, false)
  else if directiveOf tokens ∈ [".endl", ".endlib"] then
    match sections.current, tokens with
    | some _, [_] => .ok (⟨none, sections.found⟩, false)
    | some current, [_, closed] =>
      if casefold closed ≠ casefold current then .error .sectionInvalid
      else .ok (⟨none, sections.found⟩, false)
    | _, _ => .error .sectionInvalid
  else .ok (sections, sections.current.isNone || selects requested sections.current)

section Walk

variable (source : Source)

def selectedChild (relative : Path) (tokens : List String) :
    Except ClosureFault (Option (Path × Option String × Form)) :=
  if directiveOf tokens ∈ includeDirectives then
    match tokens with
    | [_, locator] => do
      let child ← childPath source relative locator
      .ok (some (child, none, .include))
    | _ => .error .directiveInvalid
  else if directiveOf tokens = ".lib" then
    match tokens with
    | [_, locator, name] => do
      let child ← childPath source relative locator
      .ok (some (child, some name, .lib))
    | _ => .error .directiveInvalid
  else .ok none

/-- One line of `walk`; `recurse` walks a selected child. -/
def walkLine (recurse : Path → Option String → Form → Builder → Except ClosureFault Builder)
    (relative : Path) (requested : Option String) (state : Sections × Builder)
    (line : List Char) : Except ClosureFault (Sections × Builder) := do
  let tokens ← directiveTokens line
  let (sections, active) ← sectionStep requested state.1 tokens
  if active then
    let b := scanNamespace state.2 tokens
    match ← selectedChild source relative tokens with
    | some (child, name, form) =>
      let b ← recurse child name form b
      .ok (sections, b)
    | none => .ok (sections, b)
  else .ok (sections, state.2)

/-- `walk`. -/
def walk : ℕ → Path → Option String → Form → Builder → Except ClosureFault Builder
  | 0, _, _, _, _ => .error .closureOverLimit
  | levels + 1, relative, requested, form, b =>
    let view : View := (relative, requested.map casefold)
    if view ∈ b.activeViews then .error (.cycle (b.activeViews ++ [view]))
    else do
      let (body, b) ← captureMaterial source b relative .transitiveLibrary
      if b.closureRecords.length ≥ maxClosureEdges then .error .closureOverLimit
      else
        let b := { b with closureRecords := b.closureRecords ++
          [⟨b.closureRecords.length, form, relative, requested, body.length, source.sha256 body⟩] }
        if view ∈ b.walkedViews then .ok b
        else do
          let (sections, b) ← (textLines body).foldlM
            (walkLine source (walk levels) relative requested)
            (⟨none, requested.isNone⟩, { b with activeViews := b.activeViews ++ [view] })
          if sections.current ≠ none then .error .sectionInvalid
          else if ¬ sections.found then .error .sectionMissing
          else .ok { b with
            walkedViews := b.walkedViews ++ [view]
            activeViews := b.activeViews.dropLast }

end Walk

/-- `PdkLibraryEntry`; `families` are the device roles it exists for. -/
structure LibraryEntry where
  relativePath : String
  form : Form
  sectionName? : Option String
  families : List String
  deriving DecidableEq

/-- `PdkLibraryEntry.resolve`. -/
def LibraryEntry.resolve (entry : LibraryEntry) (corner : String) : String × Option String :=
  (replace "\x7bcorner\x7d" corner entry.relativePath,
    (entry.sectionName?.filter fun name => decide (name ≠ "")).map (replace "\x7bcorner\x7d" corner))

section Resolve

variable (source : Source) (corner : String)

def entryPath (entry : LibraryEntry) : Except ClosureFault Path :=
  match normalizedSourcePath source.tree source.root source.root (entry.resolve corner).1 with
  | .error .missing => .error .libraryMissing
  | other => other

def entrySection (entry : LibraryEntry) : Option String :=
  if entry.form = .lib then (entry.resolve corner).2 else none

def transportEntry (relative : Path) (b : Builder) : Except ClosureFault Builder := do
  let b ← captureTransportClosure source (maxClosureDepth + 1) relative b
  let (_, b) ← captureMaterial source b relative .cornerLibrary
  .ok { b with roles := b.roles.set relative .cornerLibrary }

def walkEntry (entry : LibraryEntry) (relative : Path) (b : Builder) :
    Except ClosureFault Builder :=
  walk source (maxClosureDepth + 1) relative (entrySection corner entry) entry.form b

/-- One profile entry of `resolve_pdk_binding`. -/
def resolveEntry (b : Builder) (entry : LibraryEntry) : Except ClosureFault Builder := do
  let relative ← entryPath source corner entry
  let b ← transportEntry source relative b
  walkEntry source corner entry relative b

/-- The library entries of `resolve_pdk_binding`, in order. -/
def resolveLibraries (deviceModels : List String) (entries : List LibraryEntry) :
    Except ClosureFault Builder :=
  entries.foldlM (resolveEntry source corner) (.initial deviceModels)

end Resolve

end OpenADA.Pdk
