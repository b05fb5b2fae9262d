import OpenADA.Library.ExceptFold
import OpenADA.Library.FloatText

/-! The field checks shared by the measurement kernels: closed objects, texts, numbers and
identities of a decoded request, and the digest of a canonical value. -/
namespace OpenADA.Series

open PyStr

/-- Why a request is refused: the code of the refusal and the field it names. -/
structure InvalidRequest where
  code : String
  label : String
  deriving DecidableEq

/-- How a check ends without a value: a refusal, the UnicodeEncodeError of a digest, or an
arithmetic exception. -/
inductive Fault where
  | invalid (request : InvalidRequest)
  | unencodable
  | arithmetic
  deriving DecidableEq

def refuse {α : Type} (code label : String) : Except Fault α := .error (.invalid ⟨code, label⟩)

abbrev Text (limit : ℕ) := {text : PyStr // text ≠ [] ∧ text.length ≤ limit}

def isLower (c : CodePoint) : Bool := point 'a' ≤ c && c ≤ point 'z'

def isDigit (c : CodePoint) : Bool := point '0' ≤ c && c ≤ point '9'

def isHex (c : CodePoint) : Bool := isDigit c || (point 'a' ≤ c && c ≤ point 'f')

/-- `_SHA256_RE`. -/
def isSha256 (text : PyStr) : Bool := decide (text.length = 64) && text.all isHex

abbrev Sha256 := {text : PyStr // isSha256 text = true}

/-- The canonical lowercase form of a UUID, which `str(uuid.UUID(text))` gives back unchanged. -/
def isUuid (text : PyStr) : Bool :=
  decide (text.length = 36) && text.zipIdx.all fun (c, index) =>
    if index ∈ [8, 13, 18, 23] then c = point '-' else isHex c

abbrev Uuid := {text : PyStr // isUuid text = true}

/-- The rest of a role; `parted` says that the character before is a separator. -/
def isRoleRest : Bool → PyStr → Bool
  | parted, [] => !parted
  | parted, c :: rest =>
    if isLower c || isDigit c then isRoleRest false rest
    else !parted && decide (c ∈ lit "._-") && isRoleRest true rest

/-- `_ROLE_RE`. -/
def isRole : PyStr → Bool
  | [] => false
  | c :: rest => isLower c && isRoleRest false rest

abbrev Role := {text : PyStr // (text ≠ [] ∧ text.length ≤ 120) ∧ isRole text = true}

variable {F : Type} [PyFloat F]

abbrev Fields (F : Type) := List (PyStr × PyJson F)

def field (fields : Fields F) (name : String) : PyJson F := (fields.lookup (lit name)).getD .null

/-- `_closed_object`. -/
def closedObject (code label : String) (required optional : List String) :
    PyJson F → Except Fault (Fields F)
  | .object fields =>
    if !required.all fun name => (fields.lookup (lit name)).isSome then refuse code label
    else if !fields.all fun entry => (required ++ optional).any fun name => entry.1 = lit name then
      refuse code label
    else .ok fields
  | _ => refuse code label

/-- `_text`. -/
def text (code label : String) (limit : ℕ) : PyJson F → Except Fault (Text limit)
  | .str value =>
    if h : value ≠ [] ∧ value.length ≤ limit then .ok ⟨value, h⟩ else refuse code label
  | _ => refuse code label

/-- `_finite_number`. -/
def finiteNumber (code label : String) : PyJson F → Except Fault (FiniteFloat F)
  | .int n =>
    match PyFloat.ofInt n with
    | some x => if h : PyFloat.isFinite x = true then .ok ⟨x, h⟩ else refuse code label
    | none => refuse code label
  | .float x => if h : PyFloat.isFinite x = true then .ok ⟨x, h⟩ else refuse code label
  | _ => refuse code label

/-- `_uuid_text`; what is no text is refused with `code`. -/
def uuidText (code uuidCode label : String) (value : PyJson F) : Except Fault Uuid := do
  let ⟨text, _⟩ ← text code label 36 value
  if h : isUuid text = true then .ok ⟨text, h⟩ else refuse uuidCode label

def sha256Text (code digestCode label : String) (value : PyJson F) : Except Fault Sha256 := do
  let ⟨text, _⟩ ← text code label 64 value
  if h : isSha256 text = true then .ok ⟨text, h⟩ else refuse digestCode label

def roleText (code roleCode label : String) (value : PyJson F) : Except Fault Role := do
  let ⟨text, bound⟩ ← text code label 120 value
  if h : isRole text = true then .ok ⟨text, bound, h⟩ else refuse roleCode label

inductive ConditionValue (F : Type) [PyFloat F] where
  | number (value : FiniteFloat F)
  | flag (value : Bool)
  | text (value : Text 256)

structure Condition (F : Type) [PyFloat F] where
  name : Text 256
  value : ConditionValue F
  unit : Text 64

/-- `_canonical_sha256`. -/
def canonicalSha256 (sha256 : ByteArray → Sha256) (value : JsonText.Value) : Except Fault Sha256 :=
  match utf8? (JsonText.render value) with
  | some bytes => .ok (sha256 bytes)
  | none => .error .unencodable

end OpenADA.Series
