import OpenADA.Hdl.Includes
import OpenADA.Library.ComponentSearch
import Mathlib.Data.Finset.Card
import Mathlib.Data.Finset.Insert

/-! The inputs of a hardware description: its ordered sources and the files they include. -/
namespace OpenADA.Hdl

open PyStr

def maxHdlInputs : ℕ := 4096

def maxUnresolvedIncludes : ℕ := 4096

def maxHdlParseBytes : ℕ := 16 * 1024 * 1024

def maxHdlPathChars : ℕ := 4096

def hasAsciiControl (value : PyStr) : Bool := value.any fun c => c.val < 32 || c.val = 127

/-- What a bounded capture of a file comes to: the path opens as no regular file, the file changes
under the capture, or its bytes. -/
inductive Capture where
  | unavailable
  | changed
  | content (bytes : List UInt8)

/-- A file system that stays the same while the inputs are resolved, with paths of a type `P`. A
question about a path may raise, and then has no answer. -/
structure FileTree (Item P D : Type) where
  /-- `Path(item).expanduser().resolve()`. -/
  locate : Item → Option P
  /-- `str(path)`. -/
  pathText : P → PyStr
  parent : P → P
  /-- `path / requested`. -/
  child : P → PyStr → P
  isFile : P → Option Bool
  isDir : P → Option Bool
  resolve : P → Option P
  capture : P → Capture
  sha256 : List UInt8 → D
  isFile_of_capture : ∀ path bytes, capture path = .content bytes → isFile path = some true

inductive HdlError (Item P : Type) where
  | tooManySources
  | tooManyDirectories
  | invalidPath (label : String) (item : Item)
  | longPath (label : String)
  | controlPath (label : String)
  | missingDirectory (directory : P)
  | unrecorded (path : P)
  | missingSource (path : P)
  | overParseLimit (path : P)
  | unreadable (path : P)
  | computedInclude (path : P) (argument : PyStr)
  | controlInclude (path : P)
  | longResolved
  | controlResolved
  | longUnresolved
  | controlUnresolved
  | tooManyUnresolved
  | tooManyInputs
  | missingInclude (path : P)

/-- The record of a path, which has been resolved; the size and the digest of what exists. -/
structure HdlRecord (P D : Type) where
  kind : String
  role : String
  path : P
  captured : Option (ℕ × D)

variable {Item P D : Type} [DecidableEq P] (tree : FileTree Item P D)

/-- `file_record`, within the limit of a parse. -/
def FileTree.fileRecord (kind role : String) (path : P) :
    Except (HdlError Item P) (HdlRecord P D) :=
  match tree.capture path with
  | .unavailable => .ok ⟨kind, role, path, none⟩
  | .changed => .error (.unrecorded path)
  | .content bytes =>
    if maxHdlParseBytes < bytes.length then .error (.unrecorded path)
    else .ok ⟨kind, role, path, some (bytes.length, tree.sha256 bytes)⟩

def FileTree.sourceText (path : P) : Except (HdlError Item P) PyStr :=
  match tree.capture path with
  | .unavailable | .changed => .error (.unreadable path)
  | .content bytes =>
    if maxHdlParseBytes < bytes.length then .error (.overParseLimit path)
    else
      match JsonReader.decodeUtf8 bytes with
      | none => .error (.unreadable path)
      | some text => .ok text

/-- What one candidate for an include comes to; nothing where it is no file, or a question about
it raises. -/
def FileTree.tryCandidate (candidate : P) : Option (Except (HdlError Item P) P) :=
  if tree.isFile candidate = some true then
    (tree.resolve candidate).map fun resolved =>
      if maxHdlPathChars < (tree.pathText resolved).length then .error .longResolved
      else if hasAsciiControl (tree.pathText resolved) then .error .controlResolved
      else .ok resolved
  else none

/-- The file that an include names, sought beside the including file and then in the directories,
in order. -/
def FileTree.lookup (directories : List P) (current : P) (requested : PyStr) :
    Option (Except (HdlError Item P) P) :=
  (tree.child (tree.parent current) requested ::
    directories.map fun directory => tree.child directory requested).findSome? tree.tryCandidate

def FileTree.identity (current : P) (requested : PyStr) : PyStr :=
  tree.pathText current ++ point ':' :: requested

structure Walk (Item P D : Type) where
  seen : Finset P
  queue : List P
  dependencies : List P
  records : List (HdlRecord P D)
  unresolved : List PyStr
  errors : List (HdlError Item P)

def Walk.fail (walk : Walk Item P D) (error : HdlError Item P) : Walk Item P D :=
  { walk with errors := walk.errors ++ [error] }

def Walk.leave (walk : Walk Item P D) (current : P) (requested : PyStr) :
    ForInStep (Walk Item P D) :=
  let identity := tree.identity current requested
  let walk := if maxHdlPathChars < identity.length then walk.fail .longUnresolved else walk
  let identity := identity.take maxHdlPathChars
  if hasAsciiControl identity then .yield (walk.fail .controlUnresolved)
  else if identity ∈ walk.unresolved then .yield walk
  else if maxUnresolvedIncludes ≤ walk.unresolved.length then
    .done (walk.fail .tooManyUnresolved)
  else .yield { walk with unresolved := walk.unresolved ++ [identity] }

/-- A file that has not been seen becomes a dependency, is recorded and waits for its parse. -/
def Walk.depend (walk : Walk Item P D) (resolved : P) : ForInStep (Walk Item P D) :=
  if resolved ∈ walk.seen then .yield walk
  else
    let walk := { walk with
      seen := insert resolved walk.seen
      dependencies := walk.dependencies ++ [resolved] }
    if maxHdlInputs < walk.seen.card then .done (walk.fail .tooManyInputs)
    else
      match tree.fileRecord "hdl-include" "rtl.include" resolved with
      | .error error => .yield (walk.fail error)
      | .ok record =>
        let walk := { walk with records := walk.records ++ [record] }
        if record.captured.isNone then .yield (walk.fail (.missingInclude resolved))
        else .yield { walk with queue := walk.queue ++ [resolved] }

variable (directories : List P)

def Walk.request (current : P) (walk : Walk Item P D) (requested : PyStr) :
    ForInStep (Walk Item P D) :=
  if hasAsciiControl requested then .yield (walk.fail (.controlInclude current))
  else
    match tree.lookup directories current requested with
    | some (.error error) => .yield (walk.fail error)
    | some (.ok resolved) =>
      -- once there are errors, includes are only looked up
      if walk.errors.isEmpty then walk.depend tree resolved else .yield walk
    | none => if walk.errors.isEmpty then walk.leave tree current requested else .yield walk

def Walk.requestAll (current : P) : List PyStr → Walk Item P D → Walk Item P D
  | [], walk => walk
  | requested :: rest, walk =>
    match walk.request tree directories current requested with
    | .yield walk => Walk.requestAll current rest walk
    | .done walk => walk

def Walk.visit (current : P) (walk : Walk Item P D) : Walk Item P D :=
  match tree.sourceText current with
  | .error error => walk.fail error
  | .ok text =>
    let computed := (includeArguments text).filter isComputed
    let errors := computed.map fun argument => HdlError.computedInclude current argument
    let walk := { walk with errors := walk.errors ++ errors }
    walk.requestAll tree directories current (includeNames text)

/-- The next pass of the loop, while a file waits and there are no errors. -/
def Walk.step (walk : Walk Item P D) : Option (Walk Item P D) :=
  match walk.queue with
  | [] => none
  | current :: rest =>
    if walk.errors.isEmpty then
      some (Walk.visit tree directories current { walk with queue := rest })
    else none

def FileTree.inputPath (label : String) (item : Item) : Except (HdlError Item P) P :=
  match tree.locate item with
  | none => .error (.invalidPath label item)
  | some path =>
    if maxHdlPathChars < (tree.pathText path).length then .error (.longPath label)
    else if hasAsciiControl (tree.pathText path) then .error (.controlPath label)
    else .ok path

def errorOf {ε α : Type} : Except ε α → Option ε
  | .error error => some error
  | .ok _ => none

def FileTree.inputPaths (label : String) (items : List Item) : List P :=
  (items.take maxHdlInputs).filterMap fun item => (tree.inputPath label item).toOption

def FileTree.inputErrors (label : String) (items : List Item) : List (HdlError Item P) :=
  (items.take maxHdlInputs).filterMap fun item => errorOf (tree.inputPath label item)

inductive HdlStop where
  /-- A question about a source or a directory raises. -/
  | raised
  | unfinished
  deriving DecidableEq

def those (question : P → Option Bool) (paths : List P) : Except HdlStop (List P) :=
  if paths.all fun path => (question path).isSome then
    .ok (paths.filter fun path => question path = some true)
  else .error .raised

def sourceLimit (sources : List Item) : List (HdlError Item P) :=
  if maxHdlInputs < sources.length then [.tooManySources] else []

def directoryLimit (items : List Item) : List (HdlError Item P) :=
  if maxHdlInputs < items.length then [.tooManyDirectories] else []

def FileTree.sourceRecords (sources : List P) : List (HdlRecord P D) :=
  sources.filterMap fun path => (tree.fileRecord "hdl-source" "rtl.source" path).toOption

structure HdlClosure (Item P D : Type) where
  sources : List P
  dependencies : List P
  records : List (HdlRecord P D)
  errors : List (HdlError Item P)
  unresolved : List PyStr

/-- The state before the loop: the errors of the caller's paths and of the sources' records. -/
def FileTree.start (sources directoryItems : List Item) : Except HdlStop (Walk Item P D) := do
  let sourcePaths := tree.inputPaths "source" sources
  let directoryPaths := tree.inputPaths "include directory" directoryItems
  let found ← those tree.isDir directoryPaths
  let records := tree.sourceRecords sourcePaths
  let queue ← those tree.isFile sourcePaths
  .ok {
    seen := sourcePaths.toFinset
    queue := queue
    dependencies := []
    records := records
    unresolved := []
    errors := sourceLimit sources ++ directoryLimit directoryItems ++
      tree.inputErrors "source" sources ++
      tree.inputErrors "include directory" directoryItems ++
      (directoryPaths.filter (· ∉ found)).map .missingDirectory ++
      sourcePaths.filterMap (fun path =>
        errorOf (tree.fileRecord "hdl-source" "rtl.source" path)) ++
      (records.filter fun record => record.captured.isNone).map fun record =>
        .missingSource record.path }

/-- `resolve_hdl_inputs`. The loop has as many passes as there can be files to parse. -/
def resolveHdlInputs (sources directoryItems : List Item) :
    Except HdlStop (HdlClosure Item P D) := do
  let start ← tree.start sources directoryItems
  match Loop.run (Walk.step tree (tree.inputPaths "include directory" directoryItems))
      (2 * maxHdlInputs) start with
  | none => .error .unfinished
  | some walk =>
    .ok ⟨tree.inputPaths "source" sources, walk.dependencies, walk.records, walk.errors,
      walk.unresolved⟩

end OpenADA.Hdl
