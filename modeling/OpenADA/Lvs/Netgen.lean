import OpenADA.Library.ExceptFold
import OpenADA.Library.JsonReader

/-! The native JSON evidence of an LVS comparison, and the verdict that joins it with the native
report. -/
namespace OpenADA.Lvs

open PyStr JsonReader

def maxJsonBytes : ℕ := 64 * 1024 * 1024

def maxJsonDepth : ℕ := 64

def maxJsonNodes : ℕ := 1000000

def maxJsonStringChars : ℕ := 65536

def maxComparisons : ℕ := 4096

def maxNormalizedExamples : ℕ := 200

inductive Outcome where
  | pass
  | fail
  | unknown
  deriving DecidableEq

section Shape

variable {F : Type}

mutual

/-- The structural nodes of a value: its keys count as nodes of their own. -/
def shapeNodes : PyJson F → ℕ
  | .array items => 1 + itemShapeNodes items
  | .object fields => 1 + fieldShapeNodes fields
  | _ => 1

def itemShapeNodes : List (PyJson F) → ℕ
  | [] => 0
  | item :: rest => shapeNodes item + itemShapeNodes rest

def fieldShapeNodes : List (PyStr × PyJson F) → ℕ
  | [] => 0
  | (_, value) :: rest => 1 + shapeNodes value + fieldShapeNodes rest

end

variable [PyFloat F]

mutual

def leavesBounded : PyJson F → Bool
  | .str text => text.length ≤ maxJsonStringChars
  | .float x => PyFloat.isFinite x
  | .array items => itemLeavesBounded items
  | .object fields => fieldLeavesBounded fields
  | _ => true

def itemLeavesBounded : List (PyJson F) → Bool
  | [] => true
  | item :: rest => leavesBounded item && itemLeavesBounded rest

def fieldLeavesBounded : List (PyStr × PyJson F) → Bool
  | [] => true
  | (key, value) :: rest =>
    decide (key.length ≤ maxJsonStringChars) && leavesBounded value && fieldLeavesBounded rest

end

/-- `_bounded_json_shape`; the root has depth zero. -/
def boundedJsonShape (value : PyJson F) : Bool :=
  shapeNodes value ≤ maxJsonNodes && value.depth ≤ maxJsonDepth + 1 && leavesBounded value

end Shape

section Records

variable {F : Type}

abbrev DeviceCounts := List (PyStr × ℕ)

structure Comparison (F : Type) where
  names : PyStr × PyStr
  devices : DeviceCounts × DeviceCounts
  nets : ℕ × ℕ
  badnets : List (PyJson F)
  badelements : List (PyJson F)
  properties : List (PyJson F)
  pins : Option (List PyStr × List PyStr)

inductive Record (F : Type) where
  | pinPair (left right : List PyStr)
  | comparison (c : Comparison F)

def pairOf {α : Type} (message : String) (side : PyJson F → Except String α) :
    PyJson F → Except String (α × α)
  | .array [left, right] => do
    let left ← side left
    let right ← side right
    .ok (left, right)
  | _ => .error message

def deviceCount : PyJson F → Except String (PyStr × ℕ)
  | .array [.str name, .int count] =>
    if name ≠ [] ∧ 0 ≤ count then .ok (name, count.toNat) else .error "invalid native device count"
  | _ => .error "invalid native device count"

def deviceEntries : PyJson F → Except String DeviceCounts
  | .array items => do
    let entries ← items.mapM deviceCount
    if (entries.map Prod.fst).Nodup then .ok entries else .error "duplicate native device class"
  | _ => .error "expected a list of device counts"

def countLe (a b : PyStr × ℕ) : Bool :=
  PyStr.le a.1 b.1 && (decide (a.1 ≠ b.1) || decide (a.2 ≤ b.2))

def sortedCounts (entries : DeviceCounts) : DeviceCounts := entries.insertionSort fun a b => countLe a b

/-- `_paired_nonnegative_counts`. -/
def pairedNonnegativeCounts (value : PyJson F) : Except String (DeviceCounts × DeviceCounts) := do
  let (left, right) ← pairOf "expected a two-sided count list" deviceEntries value
  .ok (sortedCounts left, sortedCounts right)

def nonemptyText (message : String) : PyJson F → Except String PyStr
  | .str text => if text ≠ [] then .ok text else .error message
  | _ => .error message

def pinSide : PyJson F → Except String (List PyStr)
  | .array items => do
    let pins ← items.mapM (nonemptyText "invalid native pin list")
    if pins.Nodup then .ok pins else .error "invalid native pin list"
  | _ => .error "invalid native pin list"

/-- `_paired_strings`. -/
def pairedStrings (value : PyJson F) : Except String (List PyStr × List PyStr) :=
  pairOf "expected a two-sided string list" pinSide value

def netCount : PyJson F → Except String ℕ
  | .int count =>
    if 0 ≤ count then .ok count.toNat else .error "native JSON comparison has invalid net counts"
  | _ => .error "native JSON comparison has invalid net counts"

def listField (message : String) : Option (PyJson F) → Except String (List (PyJson F))
  | some (.array items) => .ok items
  | _ => .error message

/-- `comparison.get("properties", [])`. -/
def propertyList : Option (PyJson F) → Except String (List (PyJson F))
  | none => .ok []
  | some value => listField "native JSON properties must be a list" (some value)

def optionalPins : Option (PyJson F) → Except String (Option (List PyStr × List PyStr))
  | none => .ok none
  | some .null => .ok none
  | some value => (pairedStrings value).map some

def get (fields : PyJson.Mapping F) (name : String) : PyJson F :=
  (fields.lookup (lit name)).getD .null

def readComparison (fields : PyJson.Mapping F) : Except String (Comparison F) := do
  let names ← pairOf "native JSON comparison lacks two cell names"
    (nonemptyText "native JSON comparison lacks two cell names") (get fields "name")
  let devices ← pairedNonnegativeCounts (get fields "devices")
  let nets ← pairOf "native JSON comparison has invalid net counts" netCount (get fields "nets")
  let badnets ← listField "native JSON comparison lacks badnets" (fields.lookup (lit "badnets"))
  let badelements ← listField "native JSON comparison lacks badelements"
    (fields.lookup (lit "badelements"))
  let properties ← propertyList (fields.lookup (lit "properties"))
  let pins ← optionalPins (fields.lookup (lit "pins"))
  .ok ⟨names, devices, nets, badnets, badelements, properties, pins⟩

def knownKeys : List String :=
  ["name", "devices", "nets", "pins", "badnets", "badelements", "properties", "goodnets",
    "goodelements"]

def hasKnownKeys (fields : PyJson.Mapping F) : Bool :=
  fields.all fun entry => knownKeys.any fun name => entry.1 = lit name

def isPinsOnly (fields : PyJson.Mapping F) : Bool :=
  !fields.isEmpty && fields.all fun entry => entry.1 = lit "pins"

def readRecord : PyJson F → Except String (Record F)
  | .object fields =>
    if hasKnownKeys fields = false then .error "native JSON comparison has an unknown shape"
    else if isPinsOnly fields then do
      let (left, right) ← pairedStrings (get fields "pins")
      if left = right then .ok (.pinPair left right)
      else .error "native JSON unnamed pin comparison is not equivalent"
    else (readComparison fields).map .comparison
  | _ => .error "native JSON comparison has an unknown shape"

end Records

section Tally

variable {F : Type}

inductive Reason where
  | deviceCounts
  | netCounts
  | pins
  | badnets
  | badelements
  | properties
  | missingPins
  deriving DecidableEq

def Comparison.differingPins (c : Comparison F) : Bool :=
  match c.pins with
  | some (left, right) => left ≠ right
  | none => false

def Comparison.reasons (c : Comparison F) : List Reason :=
  (if c.devices.1 ≠ c.devices.2 then [.deviceCounts] else []) ++
    (if c.nets.1 ≠ c.nets.2 then [.netCounts] else []) ++
    (if c.differingPins then [.pins] else []) ++
    (if c.badnets.isEmpty then [] else [.badnets]) ++
    (if c.badelements.isEmpty then [] else [.badelements]) ++
    (if c.properties.isEmpty then [] else [.properties])

def Comparison.isTop (expectedCell : PyStr) (c : Comparison F) : Bool :=
  c.names = (expectedCell, expectedCell)

structure Tally (F : Type) where
  topMatches : ℕ
  mismatchCount : ℕ
  mismatches : List (ℕ × Reason)
  top : Option (Comparison F)

def Tally.empty : Tally F := ⟨0, 0, [], none⟩

def Tally.note (tally : Tally F) (index : ℕ) (reasons : List Reason) : Tally F :=
  { tally with
    mismatchCount := tally.mismatchCount + reasons.length
    mismatches := (tally.mismatches ++ reasons.map fun reason => (index, reason)).take
      maxNormalizedExamples }

/-- A record is counted; a requested comparison without pins is a mismatch of its own. -/
def Tally.count (expectedCell : PyStr) (tally : Tally F) (index : ℕ) : Record F → Tally F
  | .pinPair _ _ => tally
  | .comparison c =>
    let noted := tally.note index c.reasons
    if c.isTop expectedCell then
      let top := { noted with topMatches := noted.topMatches + 1, top := some c }
      if c.pins.isNone then top.note index [.missingPins] else top
    else noted

def stepRecord (expectedCell : PyStr) (tally : Tally F) (entry : PyJson F × ℕ) :
    Except String (Tally F) := do
  let record ← readRecord entry.1
  .ok (tally.count expectedCell entry.2 record)

variable [PyFloat F]

def assessComparisons (expectedCell : PyStr) (value : PyJson F) : Except String (Tally F) :=
  if boundedJsonShape value = false then .error "native JSON exceeds the structural bounds"
  else
    match value with
    | .array items =>
      if items.isEmpty ∨ maxComparisons < items.length then
        .error "native JSON must be a bounded nonempty comparison array"
      else do
        let tally ← items.zipIdx.foldlM (stepRecord expectedCell) Tally.empty
        if tally.topMatches = 1 then .ok tally
        else .error "native JSON does not contain exactly one requested top comparison"
    | _ => .error "native JSON must be a bounded nonempty comparison array"

structure NativeJson where
  outcome : Outcome
  comparisonCount : ℕ
  topCell : PyStr
  topComparisonCount : ℕ
  deviceCounts : Option (DeviceCounts × DeviceCounts)
  nodeCounts : Option (ℕ × ℕ)
  pinCounts : Option (ℕ × ℕ)
  mismatchCount : ℕ
  mismatches : List (ℕ × Reason)
  mismatchesTruncated : Bool

def Tally.evidence (expectedCell : PyStr) (comparisonCount : ℕ) (tally : Tally F) : NativeJson where
  outcome := if tally.mismatchCount = 0 then .pass else .fail
  comparisonCount := comparisonCount
  topCell := expectedCell
  topComparisonCount := tally.topMatches
  deviceCounts := tally.top.map Comparison.devices
  nodeCounts := tally.top.map Comparison.nets
  pinCounts := (tally.top.bind Comparison.pins).map fun pins => (pins.1.length, pins.2.length)
  mismatchCount := tally.mismatchCount
  mismatches := tally.mismatches
  mismatchesTruncated := tally.mismatches.length < tally.mismatchCount

def comparisonCount : PyJson F → ℕ
  | .array items => items.length
  | _ => 0

def parseNetgenJson (expectedCell : PyStr) (value : PyJson F) : Except String NativeJson :=
  (assessComparisons expectedCell value).map (Tally.evidence expectedCell (comparisonCount value))

end Tally

section Stream

variable {F : Type} [PyFloat F] (floatText : PyStr → F)

/-- The value of an integer token; `int` refuses more digits than its limit. -/
def netgenInteger (token : PyStr) : Except String (PyJson F) :=
  let digits := token.filter JsonReader.isDigit
  if digits.length > 4300 then .error "Exceeds the limit for integer string conversion"
  else
    let value := digits.foldl (fun (n : ℤ) c => n * 10 + (c.val - 48 : ℕ)) 0
    .ok (.int (if token.head? = some (point '-') then -value else value))

/-- `_object_without_duplicates` and `_reject_constant`; an infinite float is refused later. -/
def netgenHooks : Hooks F String where
  malformed := "native JSON is malformed"
  constant _ := .error "non-standard JSON constant"
  integer := netgenInteger
  floating token := .ok (.float (floatText token))
  pairs fields := if (fields.map Prod.fst).Nodup then .ok (.object fields)
    else .error "duplicate JSON key"

inductive ValidationReason where
  | empty
  | tooLarge
  | invalid
  | valid
  deriving DecidableEq

structure JsonValidation where
  reason : ValidationReason
  evidence : Option NativeJson

def JsonValidation.outcome (validation : JsonValidation) : Outcome :=
  (validation.evidence.map NativeJson.outcome).getD .unknown

/-- `parse_netgen_json_stream`, where `body` is what the stream yields up to one byte more than the
bound. -/
def parseNetgenJsonStream (expectedCell : PyStr) (size : ℕ) (body : ByteArray) : JsonValidation :=
  if size = 0 then ⟨.empty, none⟩
  else if maxJsonBytes < size then ⟨.tooLarge, none⟩
  else if body.size ≠ size ∨ maxJsonBytes < body.size then ⟨.invalid, none⟩
  else
    match (loads (netgenHooks floatText) body).bind (parseNetgenJson expectedCell) with
    | .ok evidence => ⟨.valid, some evidence⟩
    | .error _ => ⟨.invalid, none⟩

end Stream

section Verdict

structure NativeReport where
  outcome : Outcome
  deviceCounts : Option (List ℕ)
  nodeCounts : Option (List ℕ)

structure LvsRun where
  processCompleted : Bool
  exitCode : Option ℤ
  inputsStable : Bool
  transcriptValid : Bool
  transcriptClean : Bool
  reportValid : Bool
  jsonValid : Bool
  nativeReport : Option NativeReport
  nativeJson : Option JsonValidation

def total (counts : DeviceCounts) : ℕ := (counts.map Prod.snd).sum

def LvsRun.reportOutcome (run : LvsRun) : Outcome :=
  (run.nativeReport.map NativeReport.outcome).getD .unknown

def LvsRun.jsonOutcome (run : LvsRun) : Outcome :=
  (run.nativeJson.map JsonValidation.outcome).getD .unknown

def LvsRun.jsonEvidence (run : LvsRun) : Option NativeJson :=
  run.nativeJson.bind JsonValidation.evidence

def LvsRun.outcomesAgree (run : LvsRun) : Bool :=
  run.reportOutcome = run.jsonOutcome &&
    (run.reportOutcome = .pass || run.reportOutcome = .fail)

def LvsRun.jsonDeviceTotals (run : LvsRun) : Option (List ℕ) :=
  (run.jsonEvidence.bind NativeJson.deviceCounts).map fun sides => [total sides.1, total sides.2]

def LvsRun.jsonNodeCounts (run : LvsRun) : Option (List ℕ) :=
  (run.jsonEvidence.bind NativeJson.nodeCounts).map fun sides => [sides.1, sides.2]

def twoSided (counts : Option (List ℕ)) : Bool := counts.any fun sides => sides.length = 2

def LvsRun.structuralCountsAgree (run : LvsRun) : Bool :=
  let devices := run.nativeReport.bind NativeReport.deviceCounts
  let nodes := run.nativeReport.bind NativeReport.nodeCounts
  twoSided devices && devices = run.jsonDeviceTotals && twoSided nodes && nodes = run.jsonNodeCounts

def LvsRun.trustworthy (run : LvsRun) : Bool :=
  run.processCompleted && run.exitCode = some 0 && run.inputsStable && run.transcriptValid &&
    run.transcriptClean && run.reportValid && run.jsonValid &&
      (run.outcomesAgree && run.structuralCountsAgree)

/-- The engineering status of `lvs`. -/
def LvsRun.engineeringStatus (run : LvsRun) : Outcome :=
  if run.trustworthy && run.reportOutcome = .pass then .pass
  else if run.trustworthy && run.reportOutcome = .fail then .fail
  else .unknown

end Verdict

end OpenADA.Lvs
