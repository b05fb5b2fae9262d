import OpenADA.Native.Loads

/-! The path reports of a timing analysis, as the loader reads them. -/
namespace OpenADA.Sta

open PyStr PyJson Native

def maxReportBytes : ℕ := 32 * 1024 * 1024

def maxPaths : ℕ := 4096

def maxEndpointChars : ℕ := 1000

def maxPathGroupChars : ℕ := 4096

structure TimingPath (F : Type) where
  startpoint : PyStr
  endpoint : PyStr
  pathGroup : Option PyStr
  slack : F

structure PathReport (F : Type) where
  pathCount : ℕ
  criticalPath : TimingPath F

section Loader

variable {F : Type} [PyFloat F]

/-- `isinstance(slack, (int, float)) and not isinstance(slack, bool) and math.isfinite(slack)`, then
`float(slack)`. -/
def slackOf (number : PyJson F) : Except Stop F :=
  match number with
  | .int n =>
    match (PyFloat.ofInt n : Option F) with
    | none => .error (.raised .overflowError)
    | some x => if PyFloat.isFinite x then .ok x else refuse "invalid-slack"
  | .float x => if PyFloat.isFinite x then .ok x else refuse "invalid-slack"
  | _ => refuse "invalid-slack"

def nameOf (reason : String) (maximum : ℕ) (value : PyJson F) : Except Stop (Option PyStr) :=
  match value with
  | .null => .ok none
  | .str name => if name = [] ∨ maximum < name.length then refuse reason else .ok (some name)
  | _ => refuse reason

def normalizePath (expectedPathType : String) (item : PyJson F) : Except Stop (TimingPath F) :=
  if !(item.member "path_type").isText expectedPathType then refuse "invalid-path-type"
  else do
    let slack ← slackOf (item.member "slack")
    let _ ← nameOf "invalid-type" maxPathGroupChars (item.member "type")
    let pathGroup ← nameOf "invalid-path-group" maxPathGroupChars (item.member "path_group")
    let startpoint ← nameOf "invalid-startpoint" maxEndpointChars (item.member "startpoint")
    let endpoint ← nameOf "invalid-endpoint" maxEndpointChars (item.member "endpoint")
    match startpoint, endpoint with
    | some startpoint, some endpoint => .ok ⟨startpoint, endpoint, pathGroup, slack⟩
    | _, _ => refuse "missing-endpoints"

/-- `min(normalized, key=slack)`: the first of the least slacks. -/
def criticalOf (first : TimingPath F) (rest : List (TimingPath F)) : TimingPath F :=
  rest.foldl (fun least path => if PyFloat.lt path.slack least.slack then path else least) first

def validatePaths (expectedPathType : String) (payload : PyJson F) :
    Except Stop (PathReport F) :=
  match payload.member "checks" with
  | .array checks =>
    if checks = [] ∨ maxPaths < checks.length then refuse "missing-or-excessive-checks"
    else do
      let normalized ← checks.mapM (normalizePath expectedPathType)
      match normalized with
      | [] => refuse "missing-or-excessive-checks"
      | first :: rest => .ok ⟨normalized.length, criticalOf first rest⟩
  | _ => refuse "missing-or-excessive-checks"

/-- `_load_path_report` of a file that is read whole. -/
def loadPathReport (interpreter : Interpreter F) (expectedPathType : String)
    (content : List UInt8) : Except Stop (PathReport F) :=
  if maxReportBytes < content.length then refuse "too-large"
  else if content = [] then refuse "empty"
  else do
    let payload ← catching [.unicodeError, .jsonDecodeError, .recursionError] "malformed-json"
      (loadsContent interpreter content)
    validatePaths expectedPathType payload

end Loader

end OpenADA.Sta
