import OpenADA.Library.InsertionDict
import OpenADA.Oracle.Json
import OpenADA.Plan.Bench

/-! Validation of an observed or oracle document into the record the comparison reads. -/
namespace OpenADA.Oracle

open OpenADA.Plan (quoted sortedNames)

abbrev Fields (F : Type) := InsertionDict String (Json F)

variable {F : Type} [PyFloat F]

/-- `root[key]` of a field known to be present. -/
def Fields.at (root : Fields F) (key : String) : Json F := (root.get? key).getD .null

/-- `_closed`. -/
def closed (value : Json F) (label : String) (required optional : List String) :
    Except String (Fields F) :=
  match value with
  | .object fields =>
    let root := InsertionDict.ofList fields
    let missing := sortedNames (required.filter fun key => decide (key ∉ root.keys))
    let unknown := sortedNames (root.keys.filter fun key =>
      decide (key ∉ required ∧ key ∉ optional))
    if missing ≠ [] then .error (s!"{label} is missing field(s): " ++ ", ".intercalate missing)
    else if unknown ≠ [] then
      .error (s!"{label} has unknown field(s): " ++ ", ".intercalate unknown)
    else .ok root
  | _ => .error s!"{label} must be an object"

def require (holds : Bool) (message : String) : Except String Unit :=
  if holds then .ok () else .error message

@[simp] theorem require_eq_ok {holds : Bool} {message : String} :
    require holds message = .ok () ↔ holds = true := by
  cases holds <;> simp [require]

def required {α : Type} (value : Option α) (message : String) : Except String α :=
  match value with
  | some found => .ok found
  | none => .error message

@[simp] theorem required_eq_ok {α : Type} {value : Option α} {message : String} {found : α} :
    required value message = .ok found ↔ value = some found := by
  cases value <;> simp [required]

/-- A finite number of `_finite_number`, converted to float. -/
def number? : Json F → Option F
  | .int value => (PyFloat.ofInt value).filter PyFloat.isFinite
  | .float value => if PyFloat.isFinite value then some value else none
  | _ => none

def text? : Json F → Option String
  | .str text => some text
  | _ => none

def isEmptyObject : Json F → Bool
  | .object fields => fields.isEmpty
  | _ => false

/-- A string of `low` to `high` characters. -/
def boundedText (low high : ℕ) (value : Json F) : Option String :=
  (text? value).filter fun text => decide (low ≤ text.toList.length ∧ text.toList.length ≤ high)

def isHexDigit (c : Char) : Bool := ('0' ≤ c && c ≤ '9') || ('a' ≤ c && c ≤ 'f')

def isDigest (value : Json F) : Bool :=
  ((boundedText 64 64 value).map fun text => text.toList.all isHexDigit).getD false

def isFieldChar (c : Char) : Bool := decide (33 ≤ c.toNat ∧ c.toNat ≠ 127)

def isFieldName (text : String) : Bool :=
  decide (1 ≤ text.toList.length ∧ text.toList.length ≤ 256) && text.toList.all isFieldChar

/-- `_field_name`. -/
def fieldName (value : Json F) (label : String) : Except String String :=
  required ((text? value).filter isFieldName) s!"{label} must be a bounded nonempty field name"

/-- The strings of a `_string_array`, if it is one. -/
def strings? : Json F → Option (List String)
  | .array items => items.mapM text?
  | _ => none

/-- `_string_array`. -/
def stringArray (value : Json F) (label : String) (maximum minimum : ℕ) :
    Except String (List String) :=
  required ((strings? value).filter fun items =>
      decide (minimum ≤ items.length ∧ items.length ≤ maximum) && items.all isFieldName &&
        decide items.Nodup)
    (if minimum = 0 then s!"{label} must be a unique string array"
      else s!"{label} must be a nonempty unique string array")

structure ConditionEntry where
  id : String
  observables : List String
  deriving DecidableEq

structure LineageEntry where
  observable : String
  conditionIds : List String
  deriving DecidableEq

structure Metadata (F : Type) where
  gradingRuntime : F
  conditions : List ConditionEntry
  lineage : List LineageEntry

/-- The normalized document of `_document`. -/
structure Document (F : Type) where
  corner : String
  validity : InsertionDict String String
  observables : Fields F
  metadata : Option (Metadata F)

def requireDigest (root : Fields F) (label field : String) : Except String Unit :=
  require (isDigest (root.at field)) s!"{label}.{field} must be a lowercase SHA-256"

def requireEmpty (value : Json F) (message : String) : Except String Unit :=
  require (isEmptyObject value) message

def boundedArray (value : Json F) (limit : ℕ) (message : String) : Except String (List (Json F)) :=
  match value with
  | .array items => if items.length ≤ limit then .ok items else .error message
  | _ => .error message

def requireReceipt (value : Json F) (label : String) : Except String Unit := do
  let receipt ← closed value label ["compiled_deck_sha256", "waveform_sha256"] []
  requireDigest receipt label "compiled_deck_sha256"
  requireDigest receipt label "waveform_sha256"

/-- One entry of `metadata.conditions`, against the identifiers before it. -/
def conditionEntry (role : String) (seen : List ConditionEntry) (value : Json F × ℕ) :
    Except String (List ConditionEntry) := do
  let label := s!"{role}.metadata.conditions[{value.2}]"
  let item ← closed value.1 label ["id", "observables", "receipt"] []
  let identifier ← fieldName (item.at "id") s!"{label}.id"
  require (decide (identifier ∉ seen.map ConditionEntry.id))
    s!"{role}.metadata condition id {quoted identifier} repeats"
  let observables ← stringArray (item.at "observables") s!"{label}.observables" 10000 0
  requireReceipt (item.at "receipt") s!"{label}.receipt"
  .ok (seen ++ [⟨identifier, observables⟩])

/-- One entry of `metadata.lineage`, against the conditions and the entries before it. -/
def lineageEntry (role : String) (conditions : List ConditionEntry) (seen : List LineageEntry)
    (value : Json F × ℕ) : Except String (List LineageEntry) := do
  let label := s!"{role}.metadata.lineage[{value.2}]"
  let item ← closed value.1 label ["observable", "condition_ids"] []
  let observable ← fieldName (item.at "observable") s!"{label}.observable"
  require (decide (observable ∉ seen.map LineageEntry.observable))
    s!"{role}.metadata lineage for {quoted observable} repeats"
  let ids ← stringArray (item.at "condition_ids") s!"{label}.condition_ids" 10000 1
  let unknown := sortedNames (ids.filter fun id =>
    decide (id ∉ conditions.map ConditionEntry.id))
  require unknown.isEmpty
    (s!"{role}.metadata lineage names unknown condition(s): " ++ ", ".intercalate unknown)
  .ok (seen ++ [⟨observable, ids⟩])

def nonNegative (value : Json F) : Option F :=
  (number? value).filter fun number => !PyFloat.lt number (PyFloat.ofRat 0)

/-- `_metadata`. -/
def metadata (value : Json F) (role : String) : Except String (Metadata F) := do
  let root ← closed value s!"{role}.metadata"
    ["grading_runtime_s", "conditions", "lineage", "extensions"] []
  requireEmpty (root.at "extensions") s!"{role}.metadata.extensions must be empty"
  let runtime ← required (nonNegative (root.at "grading_runtime_s"))
    s!"{role}.metadata.grading_runtime_s must be non-negative"
  let conditionItems ← boundedArray (root.at "conditions") 10000
    s!"{role}.metadata.conditions must be a bounded array"
  let conditions ← conditionItems.zipIdx.foldlM (conditionEntry role) []
  let lineageItems ← boundedArray (root.at "lineage") 10000
    s!"{role}.metadata.lineage must be a bounded array"
  let lineage ← lineageItems.zipIdx.foldlM (lineageEntry role conditions) []
  .ok ⟨runtime, conditions, lineage⟩

def metadata? (value : Json F) (role : String) : Except String (Option (Metadata F)) :=
  match value with
  | .null => .ok none
  | value => (metadata value role).map some

def sizingParameters (value : Json F) : Bool :=
  match value with
  | .object fields => fields.all fun field => decide (field.1 ≠ "") && (number? field.2).isSome
  | _ => false

def fixtureRoot (value : Json F) (role : String) : Except String (Fields F) := do
  let root ← closed value role ["sizing", "corner", "validity", "observables"] ["metadata"]
  let sizing ← closed (root.at "sizing") s!"{role}.sizing" ["topology", "parameters"] []
  require (boundedText 1 256 (sizing.at "topology")).isSome
    s!"{role}.sizing.topology must be bounded nonempty text"
  require (sizingParameters (sizing.at "parameters"))
    s!"{role}.sizing.parameters must map nonempty names to finite numbers"
  .ok root

def emissionRoot (value : Json F) (role : String) : Except String (Fields F) := do
  let root ← closed value role ["schema", "plan_sha256", "dut_sha256", "corner", "validity",
    "observables", "metadata", "extensions"] []
  requireDigest root role "plan_sha256"
  requireDigest root role "dut_sha256"
  requireEmpty (root.at "extensions") s!"{role}.extensions must be empty in v1"
  .ok root

def observablesSchema : String := "simra.testbench-observables/v1"

def isEmission (value : Json F) : Bool :=
  match value with
  | .object fields =>
    match (InsertionDict.ofList fields).get? "schema" with
    | some (.str schema) => decide (schema = observablesSchema)
    | _ => false
  | _ => false

def objectFields (value : Json F) (message : String) : Except String (Fields F) :=
  match value with
  | .object fields => .ok (InsertionDict.ofList fields)
  | _ => .error message

def validityEntry (role : String) (seen : InsertionDict String String) (entry : String × Json F) :
    Except String (InsertionDict String String) :=
  if entry.1.toList.length < 1 ∨ 256 < entry.1.toList.length then
    .error s!"{role}.validity keys must be bounded nonempty strings"
  else match boundedText 1 1024 entry.2 with
    | some verdict => .ok (seen.set entry.1 verdict)
    | none => .error s!"{role}.validity.{entry.1} must be bounded nonempty text"

/-- `_document`. -/
def document (value : Json F) (role : String) : Except String (Document F) := do
  let root ← if isEmission value then emissionRoot value role else fixtureRoot value role
  let corner ← required (boundedText 1 256 (root.at "corner"))
    s!"{role}.corner must be bounded nonempty text"
  let verdicts ← objectFields (root.at "validity") s!"{role}.validity must be an object"
  let observables ← objectFields (root.at "observables") s!"{role}.observables must be an object"
  let validity ← verdicts.entries.foldlM (validityEntry role) .empty
  let metadata ← metadata? (root.at "metadata") role
  .ok ⟨corner, validity, observables, metadata⟩

end OpenADA.Oracle
