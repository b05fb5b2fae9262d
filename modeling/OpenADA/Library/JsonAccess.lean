import OpenADA.Library.FloatText

/-! What Python code does with a decoded JSON value: members, truth, equality, and the canonical
value that `json.dumps` with sorted keys writes. -/
namespace PyJson

open PyStr JsonText

variable {F : Type}

inductive Raised where
  | raised
  deriving DecidableEq

abbrev Mapping (F : Type) := List (PyStr × PyJson F)

/-- `value.get(key) if isinstance(value, Mapping) else None`. -/
def member (value : PyJson F) (key : String) : PyJson F :=
  match value with
  | .object fields => (fields.lookup (lit key)).getD .null
  | _ => .null

/-- `value.get(key)`, which only an object has. -/
def getItem (value : PyJson F) (key : String) : Except Raised (PyJson F) :=
  match value with
  | .object _ => .ok (value.member key)
  | _ => .error .raised

def isText (value : PyJson F) (word : String) : Bool :=
  match value with
  | .str text => text = lit word
  | _ => false

def isTrue : PyJson F → Bool
  | .bool true => true
  | _ => false

/-- `value if isinstance(value, str) else None`. -/
def text? : PyJson F → Option PyStr
  | .str text => some text
  | _ => none

mutual

def nodes : PyJson F → ℕ
  | .array items => 1 + itemNodes items
  | .object fields => 1 + fieldNodes fields
  | _ => 1

def itemNodes : List (PyJson F) → ℕ
  | [] => 0
  | item :: rest => item.nodes + itemNodes rest

def fieldNodes : List (PyStr × PyJson F) → ℕ
  | [] => 0
  | (_, value) :: rest => value.nodes + fieldNodes rest

end

mutual

def depth : PyJson F → ℕ
  | .array items => 1 + itemDepth items
  | .object fields => 1 + fieldDepth fields
  | _ => 1

def itemDepth : List (PyJson F) → ℕ
  | [] => 0
  | item :: rest => max item.depth (itemDepth rest)

def fieldDepth : List (PyStr × PyJson F) → ℕ
  | [] => 0
  | (_, value) :: rest => max value.depth (fieldDepth rest)

end

section Numbers

variable [PyFloat F]

def truthy : PyJson F → Bool
  | .null => false
  | .bool value => value
  | .int n => n ≠ 0
  | .float x => !PyFloat.eq x (PyFloat.ofRat 0)
  | .str text => text ≠ []
  | .array items => !items.isEmpty
  | .object fields => !fields.isEmpty

/-- `(value or {}).get(key)`. -/
def orEmptyItem (value : PyJson F) (key : String) : Except Raised (PyJson F) :=
  if value.truthy then value.getItem key else .ok .null

/-- `(value.get(name) or {}).get(key)`. -/
def nested (value : PyJson F) (name key : String) : Except Raised (PyJson F) := do
  (← value.getItem name).orEmptyItem key

def equalsInt (n : ℤ) : PyJson F → Bool
  | .bool value => n = if value then 1 else 0
  | .int m => n = m
  | .float x => (PyFloat.ofInt n).any fun y => PyFloat.eq y x
  | _ => false

mutual

/-- `a == b`. -/
def pyEq : PyJson F → PyJson F → Bool
  | .null, .null => true
  | .str a, .str b => a = b
  | .bool a, b => equalsInt (if a then 1 else 0) b
  | .int n, b => equalsInt n b
  | .float x, .float y => PyFloat.eq x y
  | .float x, .int n => equalsInt n (.float x)
  | .float x, .bool b => equalsInt (if b then 1 else 0) (.float x)
  | .array a, .array b => itemsEq a b
  | .object a, .object b => a.length = b.length && fieldsWithin a b
  | _, _ => false

def itemsEq : List (PyJson F) → List (PyJson F) → Bool
  | [], [] => true
  | a :: as, b :: bs => pyEq a b && itemsEq as bs
  | _, _ => false

def fieldsWithin : List (PyStr × PyJson F) → List (PyStr × PyJson F) → Bool
  | [], _ => true
  | (key, value) :: rest, fields =>
    (match fields.lookup key with
      | some other => pyEq value other
      | none => false) && fieldsWithin rest fields

end

end Numbers

def intText (n : ℤ) : NumberText where
  text := (if n < 0 then [point '-'] else []) ++ natText n.natAbs
  ne_nil h := natText_ne_nil _ (List.append_eq_nil_iff.mp h).2
  chars := by
    have hall : ((lit "0123456789").all isNumberChar) = true := by decide
    rw [List.all_eq_true]
    intro c hc
    rcases List.mem_append.mp hc with hc | hc
    · split_ifs at hc
      · obtain rfl := List.mem_singleton.mp hc
        decide
      · cases hc
    · exact List.all_eq_true.mp hall c (natText_chars hc)

section Canonical

variable [PyFloatText F]

mutual

/-- The value that is written with sorted keys; `none` is the ValueError of a number that is not
finite. -/
def canonical? : PyJson F → Option Value
  | .null => some .null
  | .bool value => some (.flag value)
  | .int n => some (.number (intText n))
  | .float x => if h : PyFloat.isFinite x = true then some (.number (PyFloatText.repr ⟨x, h⟩)) else none
  | .str text => some (.text text)
  | .array items => (canonicalItems? items).map .list
  | .object fields => (canonicalFields? fields).map fun written =>
      .record (written.insertionSort fun a b => PyStr.le a.1 b.1)

def canonicalItems? : List (PyJson F) → Option (List Value)
  | [] => some []
  | item :: rest => do
    let value ← item.canonical?
    let values ← canonicalItems? rest
    some (value :: values)

def canonicalFields? : List (PyStr × PyJson F) → Option (List (PyStr × Value))
  | [] => some []
  | (key, item) :: rest => do
    let value ← item.canonical?
    let values ← canonicalFields? rest
    some ((key, value) :: values)

end

/-- The bytes that `json.dumps` and the UTF-8 encoding give; `none` is a ValueError. -/
def encoded? (value : PyJson F) : Option ByteArray := do
  let written ← value.canonical?
  utf8? (render written)

end Canonical

end PyJson
