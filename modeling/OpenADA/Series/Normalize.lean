import OpenADA.Series.Request

/-! The normalized series: its canonical content with what the normalizer has checked of it, the
text its digest is taken of, and the normalizer. -/
namespace OpenADA.Series

open PyStr

def maxPoints : ℕ := 100000

def maxSignals : ℕ := 32

def maxConditions : ℕ := 64

section Content

variable {F : Type} [PyFloat F]

def isIncreasing : List (FiniteFloat F) → Bool
  | [] => true
  | [_] => true
  | left :: right :: rest => !PyFloat.le right.1 left.1 && isIncreasing (right :: rest)

structure Axis (F : Type) [PyFloat F] where
  name : Text 256
  unit : Text 64
  values : List (FiniteFloat F)
  count : 1 ≤ values.length ∧ values.length ≤ maxPoints
  increasing : isIncreasing values = true

structure Signal (F : Type) [PyFloat F] where
  name : Text 256
  unit : Text 64
  values : List (FiniteFloat F)

structure WellSized (points : ℕ) (signals : List (Signal F)) : Prop where
  lengths : ∀ signal ∈ signals, signal.values.length = points
  names : (signals.map Signal.name).Nodup

structure Content (F : Type) [PyFloat F] where
  axis : Axis F
  signals : List (Signal F)
  conditions : List (Condition F)
  sized : WellSized axis.values.length signals
  signalCount : 1 ≤ signals.length ∧ signals.length ≤ maxSignals
  conditionCount : conditions.length ≤ maxConditions
  conditionNames : (conditions.map Condition.name).Nodup

structure Lineage where
  operation : Text 256
  requestId : Uuid
  artifactRole : Role
  artifactSha256 : Sha256

/-- The source of a series; its artifact role is `measurement.source`. -/
structure Source where
  operation : Text 256
  requestId : Uuid
  artifactSha256 : Sha256
  lineage : Option Lineage

structure CanonicalSeries (F : Type) [PyFloat F] where
  content : Content F
  source : Source
  seriesSha256 : Sha256
  conditionsSha256 : Sha256

end Content

section Documents

variable {F : Type} [PyFloatText F]

open JsonText

/-! The values a digest is taken of, with their fields in sorted order. -/

def numbersDocument (values : List (FiniteFloat F)) : Value :=
  .list (values.map fun x => .number (PyFloatText.repr x))

def ConditionValue.document : ConditionValue F → Value
  | .number value => .number (PyFloatText.repr value)
  | .flag value => .flag value
  | .text value => .text value.1

def Condition.document (condition : Condition F) : Value :=
  .record [(lit "name", .text condition.name.1), (lit "unit", .text condition.unit.1),
    (lit "value", condition.value.document)]

def Axis.document (axis : Axis F) : Value :=
  .record [(lit "name", .text axis.name.1), (lit "unit", .text axis.unit.1),
    (lit "values", numbersDocument axis.values)]

def Signal.document (signal : Signal F) : Value :=
  .record [(lit "name", .text signal.name.1), (lit "unit", .text signal.unit.1),
    (lit "values", numbersDocument signal.values)]

def conditionsDocument (conditions : List (Condition F)) : Value :=
  .list (conditions.map Condition.document)

def Content.document (content : Content F) : Value :=
  .record [(lit "axis", content.axis.document),
    (lit "conditions", conditionsDocument content.conditions),
    (lit "signals", .list (content.signals.map Signal.document))]

end Documents

section Normalizer

variable {F : Type}

def requestInvalid : String := "measurement.request.invalid"

def sourceInvalid : String := "measurement.source.invalid"

def overLimit : String := "measurement.source.over_limit"

/-- `_extensions`. -/
def emptyExtensions (code label : String) : PyJson F → Except Fault Unit
  | .object [] => .ok ()
  | _ => refuse code label

variable [PyFloat F]

def finiteValues (code label : String) : ℕ → (items : List (PyJson F)) →
    Except Fault {values : List (FiniteFloat F) // values.length = items.length}
  | _, [] => .ok ⟨[], rfl⟩
  | index, item :: rest => do
    let value ← finiteNumber code s!"{label}[{index}]" item
    let ⟨values, hlength⟩ ← finiteValues code label (index + 1) rest
    .ok ⟨value :: values, by rw [List.length_cons, List.length_cons, hlength]⟩

def conditionValue (label : String) : PyJson F → Except Fault (ConditionValue F)
  | .int n => (finiteNumber requestInvalid label (.int n)).map .number
  | .float x => (finiteNumber requestInvalid label (.float x)).map .number
  | .str s => (text requestInvalid label 256 (.str s : PyJson F)).map .text
  | .bool b => .ok (.flag b)
  | _ => refuse sourceInvalid label

/-- `_condition`. -/
def normalizeCondition (index : ℕ) (item : PyJson F) : Except Fault (Condition F) := do
  let label := s!"series.conditions[{index}]"
  let fields ← closedObject requestInvalid label ["name", "value", "unit"] [] item
  let value ← conditionValue s!"{label}.value" (field fields "value")
  let name ← text requestInvalid s!"{label}.name" 256 (field fields "name")
  let unit ← text requestInvalid s!"{label}.unit" 64 (field fields "unit")
  .ok ⟨name, value, unit⟩

/-- The lineage of `_normalize_series`. -/
def normalizeLineage (item : PyJson F) : Except Fault Lineage := do
  let label := "series.source.lineage"
  let fields ← closedObject requestInvalid label
    ["operation", "request_id", "artifact_role", "artifact_sha256", "binding"] [] item
  let digest ← sha256Text requestInvalid sourceInvalid s!"{label}.artifact_sha256"
    (field fields "artifact_sha256")
  let role ← roleText requestInvalid sourceInvalid s!"{label}.artifact_role"
    (field fields "artifact_role")
  match field fields "binding" with
  | .str binding =>
    if binding = lit "unverified" then do
      let operation ← text requestInvalid s!"{label}.operation" 256 (field fields "operation")
      let requestId ← uuidText requestInvalid sourceInvalid s!"{label}.request_id"
        (field fields "request_id")
      .ok ⟨operation, requestId, role, digest⟩
    else refuse sourceInvalid s!"{label}.binding"
  | _ => refuse sourceInvalid s!"{label}.binding"

def optionalLineage : Option (PyJson F) → Except Fault (Option Lineage)
  | some item => (normalizeLineage item).map some
  | none => .ok none

/-- The source of `_normalize_series`. -/
def normalizeSource (item : PyJson F) : Except Fault Source := do
  let label := "series.source"
  let fields ← closedObject requestInvalid label
    ["operation", "request_id", "artifact_role", "artifact_sha256"] ["lineage"] item
  let digest ← sha256Text requestInvalid sourceInvalid s!"{label}.artifact_sha256"
    (field fields "artifact_sha256")
  let role ← roleText requestInvalid sourceInvalid s!"{label}.artifact_role"
    (field fields "artifact_role")
  if role.1 ≠ lit "measurement.source" then refuse sourceInvalid s!"{label}.artifact_role"
  else do
    let lineage ← optionalLineage (fields.lookup (lit "lineage"))
    let operation ← text requestInvalid s!"{label}.operation" 256 (field fields "operation")
    let requestId ← uuidText requestInvalid sourceInvalid s!"{label}.request_id"
      (field fields "request_id")
    .ok ⟨operation, requestId, digest, lineage⟩

/-- The axis of `_normalize_series`. -/
def normalizeAxis (item : PyJson F) : Except Fault (Axis F) := do
  let label := "series.axis"
  let fields ← closedObject requestInvalid label ["name", "unit", "values"] [] item
  match field fields "values" with
  | .array items =>
    if hcount : 1 ≤ items.length ∧ items.length ≤ maxPoints then do
      let ⟨values, hlength⟩ ← finiteValues requestInvalid s!"{label}.values" 0 items
      if hincreasing : isIncreasing values = true then do
        let name ← text requestInvalid s!"{label}.name" 256 (field fields "name")
        let unit ← text requestInvalid s!"{label}.unit" 64 (field fields "unit")
        .ok ⟨name, unit, values, by rw [hlength]; exact hcount, hincreasing⟩
      else refuse sourceInvalid s!"{label}.values"
    else refuse overLimit s!"{label}.values"
  | _ => refuse sourceInvalid s!"{label}.values"

/-- One signal over an axis of `points` values, after signals of the given names. -/
def normalizeSignal (points : ℕ) (names : List (Text 256)) (index : ℕ) (item : PyJson F) :
    Except Fault {signal : Signal F // signal.name ∉ names ∧ signal.values.length = points} := do
  let label := s!"series.signals[{index}]"
  let fields ← closedObject requestInvalid label ["name", "unit", "values"] [] item
  let name ← text requestInvalid s!"{label}.name" 256 (field fields "name")
  if hname : name ∈ names then refuse sourceInvalid "series.signals"
  else
    match field fields "values" with
    | .array items =>
      if hpoints : items.length = points then do
        let unit ← text requestInvalid s!"{label}.unit" 64 (field fields "unit")
        let ⟨values, hlength⟩ ← finiteValues requestInvalid s!"{label}.values" 0 items
        .ok ⟨⟨name, unit, values⟩, hname, hlength.trans hpoints⟩
      else refuse sourceInvalid s!"{label}.values"
    | _ => refuse sourceInvalid s!"{label}.values"

/-- The signals of `_normalize_series`. -/
def normalizeSignals (points : ℕ) : (names : List (Text 256)) → (items : List (PyJson F)) →
    names.Nodup → Except Fault {signals : List (Signal F) // signals.length = items.length ∧
      (∀ signal ∈ signals, signal.values.length = points) ∧
        (names ++ signals.map Signal.name).Nodup}
  | names, [], h => .ok ⟨[], rfl, by simp, by simpa using h⟩
  | names, item :: rest, h => do
    let ⟨signal, hname, hlength⟩ ← normalizeSignal points names names.length item
    let ⟨signals, hcount, hlengths, hnames⟩ ← normalizeSignals points (names ++ [signal.name]) rest
      (by rw [List.nodup_append_comm]; exact List.nodup_cons.mpr ⟨hname, h⟩)
    .ok ⟨signal :: signals, by rw [List.length_cons, List.length_cons, hcount],
      List.forall_mem_cons.mpr ⟨hlength, hlengths⟩, by simpa using hnames⟩

/-- The conditions of `_normalize_series`, from the given index on. -/
def normalizeConditions : ℕ → (items : List (PyJson F)) →
    Except Fault {conditions : List (Condition F) // conditions.length = items.length}
  | _, [] => .ok ⟨[], rfl⟩
  | index, item :: rest => do
    let condition ← normalizeCondition index item
    let ⟨conditions, hlength⟩ ← normalizeConditions (index + 1) rest
    .ok ⟨condition :: conditions, by rw [List.length_cons, List.length_cons, hlength]⟩

end Normalizer

section Series

variable {F : Type} [PyFloatText F] (sha256 : ByteArray → Sha256)

/-- `_normalize_series`. -/
def normalizeSeries (verifyDigest : Bool) (series : PyJson F) :
    Except Fault (CanonicalSeries F) := do
  let root ← closedObject requestInvalid "series"
    ["source", "axis", "signals", "conditions", "extensions"] [] series
  emptyExtensions requestInvalid "series.extensions" (field root "extensions")
  let source ← normalizeSource (field root "source")
  let axis ← normalizeAxis (field root "axis")
  match field root "signals" with
  | .array items =>
    if hsignals : 1 ≤ items.length ∧ items.length ≤ maxSignals then do
      let ⟨signals, hcount, hlengths, hnames⟩ ←
        normalizeSignals axis.values.length [] items List.nodup_nil
      match field root "conditions" with
      | .array rows =>
        if hrows : rows.length ≤ maxConditions then do
          let ⟨conditions, hlength⟩ ← normalizeConditions 0 rows
          if hdistinct : (conditions.map Condition.name).Nodup then do
            let content : Content F := ⟨axis, signals, conditions, ⟨hlengths, hnames⟩,
              hcount ▸ hsignals, hlength ▸ hrows, hdistinct⟩
            let digest ← canonicalSha256 sha256 content.document
            if verifyDigest = true ∧ source.artifactSha256 ≠ digest then
              refuse "measurement.source.digest_mismatch" "series.source.artifact_sha256"
            else do
              let conditionsDigest ← canonicalSha256 sha256 (conditionsDocument conditions)
              .ok ⟨content, source, digest, conditionsDigest⟩
          else refuse sourceInvalid "series.conditions"
        else refuse overLimit "series.conditions"
      | _ => refuse overLimit "series.conditions"
    else refuse overLimit "series.signals"
  | _ => refuse overLimit "series.signals"

end Series

end OpenADA.Series
