import OpenADA.Library.JsonVisits
import OpenADA.Library.InsertionDict

/-! The reading of JSON that a native tool wrote. A loader ends in a value, in a verdict without one,
or in an exception that leaves it. -/
namespace OpenADA.Native

open PyStr JsonReader

inductive PyException where
  | unicodeError | jsonDecodeError | valueError | recursionError | overflowError | keyError
  deriving DecidableEq

inductive Stop where
  | verdict (reason : String)
  | raised (exception : PyException)
  deriving DecidableEq

def Returns {α : Type} (loaded : Except Stop α) : Prop := ∀ e, loaded ≠ .error (.raised e)

def refuse {α : Type} (reason : String) : Except Stop α := .error (.verdict reason)

/-- `None, reason` unless a condition holds. -/
def demand (reason : String) (condition : Bool) : Except Stop Unit :=
  if condition then .ok () else refuse reason

/-- `value` where it is of a kind, and a verdict elsewhere. -/
def expect {α : Type} (reason : String) (found : Option α) : Except Stop α :=
  match found with
  | some value => .ok value
  | none => refuse reason

def retained {α : Type} (loaded : Option (Except Stop α)) : Except PyException (Option α) :=
  match loaded with
  | none => .ok none
  | some (.ok value) => .ok (some value)
  | some (.error (.verdict _)) => .ok none
  | some (.error (.raised e)) => .error e

/-- `sys.int_info.default_max_str_digits`. -/
def maxStrDigits : ℕ := 4300

/-- The levels of containers that the stack admits, and `float` of a token. -/
structure Interpreter (F : Type) where
  levels : ℕ
  floatText : PyStr → F

section Loads

variable {F : Type} (interpreter : Interpreter F)

def tooLong (token : PyStr) : Bool := maxStrDigits < (token.filter isDigit).length

/-- The hooks of `json.loads` without arguments: the last of equal keys counts. -/
def jsonHooks : Hooks F PyException where
  malformed := .jsonDecodeError
  constant token := .ok (.float (interpreter.floatText token))
  integer token := if tooLong token then .error .valueError else .ok (.int (integerOf token))
  floating token := .ok (.float (interpreter.floatText token))
  pairs fields := .ok (.object (InsertionDict.ofList fields).entries)

theorem jsonHooks_lenient : (jsonHooks interpreter).Lenient where
  constant token := ⟨.float (interpreter.floatText token), rfl⟩
  floating token := ⟨.float (interpreter.floatText token), rfl⟩
  pairs fields := ⟨.object (InsertionDict.ofList fields).entries, rfl⟩

/-- `json.loads(content.decode("utf-8"))`. -/
def loadsContent (content : List UInt8) : Except PyException (PyJson F) :=
  match decodeUtf8 content with
  | none => .error .unicodeError
  | some text => loadsWithin (jsonHooks interpreter) .recursionError interpreter.levels text

/-- `except` of some exceptions, which makes them a verdict. -/
def catching {α : Type} (caught : List PyException) (reason : String) (attempt : Except PyException α) :
    Except Stop α :=
  match attempt with
  | .ok value => .ok value
  | .error e => .error (if e ∈ caught then .verdict reason else .raised e)

def Fits (interpreter : Interpreter F) : Visit → Prop
  | .integer token => tooLong token = false
  | .enters depth => depth < interpreter.levels

/-- Every integer and container of a text is within the limits, up to where the text is no JSON. -/
def Readable (content : List UInt8) : Prop :=
  ∀ text, decodeUtf8 content = some text → ∀ visit ∈ visited text, Fits interpreter visit

/-- An integer that is too long stands behind a container that is too deep. -/
def ReadableOrDeep (content : List UInt8) : Prop :=
  ∀ text, decodeUtf8 content = some text → ∀ front token back,
    visited text = front ++ .integer token :: back → tooLong token = true →
      ∃ visit ∈ front, ¬ Fits interpreter visit

section Faults

variable {interpreter}

abbrev faultOf (interpreter : Interpreter F) : Visit → Option PyException :=
  fault (jsonHooks interpreter) .recursionError interpreter.levels

theorem fault_integer (token : PyStr) : faultOf interpreter (.integer token) =
    if tooLong token then some .valueError else none := by
  rw [faultOf, fault]
  unfold jsonHooks
  simp only
  cases tooLong token with
  | true => rfl
  | false => rfl

theorem fault_enters (depth : ℕ) : faultOf interpreter (.enters depth) =
    if interpreter.levels ≤ depth then some .recursionError else none := rfl

theorem fault_eq_none {visit : Visit} : faultOf interpreter visit = none ↔ Fits interpreter visit := by
  cases visit with
  | integer token =>
    rw [fault_integer, Fits]
    cases tooLong token with
    | true => simp
    | false => simp
  | enters depth =>
    rw [fault_enters, Fits]
    split_ifs with hdeep
    · simpa using hdeep
    · simpa using hdeep

theorem fault_eq_valueError {visit : Visit} : faultOf interpreter visit = some .valueError ↔
    ∃ token, visit = .integer token ∧ tooLong token = true := by
  cases visit with
  | integer token =>
    rw [fault_integer]
    cases htoken : tooLong token with
    | true => simpa using htoken
    | false => simpa using htoken
  | enters depth =>
    rw [fault_enters]
    split_ifs <;> simp

theorem fault_cases {visit : Visit} {e : PyException} (h : faultOf interpreter visit = some e) :
    e = .valueError ∨ e = .recursionError := by
  cases visit with
  | integer token =>
    rw [fault_integer] at h
    split_ifs at h
    exact .inl (Option.some.inj h).symm
  | enters depth =>
    rw [fault_enters] at h
    split_ifs at h
    exact .inr (Option.some.inj h).symm

theorem findSome?_fault {visits : List Visit} {e : PyException} :
    visits.findSome? (faultOf interpreter) = some e ↔ ∃ front visit back,
      visits = front ++ visit :: back ∧ faultOf interpreter visit = some e ∧
        ∀ earlier ∈ front, Fits interpreter earlier := by
  rw [List.findSome?_eq_some_iff]
  simp only [fault_eq_none]

end Faults

section Raising

variable {interpreter} {content : List UInt8} {e : PyException}

/-- The exceptions of a text that can be decoded and is not found to be no JSON before. -/
theorem loadsContent_raises (he : e = .valueError ∨ e = .recursionError) :
    loadsContent interpreter content = .error e ↔ ∃ text, decodeUtf8 content = some text ∧
      (visited text).findSome? (faultOf interpreter) = some e := by
  unfold loadsContent
  cases htext : decodeUtf8 content with
  | none =>
    simp only [reduceCtorEq, false_and, exists_false, iff_false]
    rcases he with rfl | rfl <;> exact fun h => nomatch h
  | some text =>
    obtain ⟨hfault, hclear⟩ := @loadsWithin_spec F PyException (jsonHooks interpreter)
      .recursionError interpreter.levels (jsonHooks_lenient interpreter) text
    simp only [Option.some.injEq, exists_eq_left']
    constructor
    · intro hload
      cases hfind : (visited text).findSome? (faultOf interpreter) with
      | some e' =>
        rw [hfault e' hfind] at hload
        rw [Except.error.inj hload]
      | none =>
        rcases hclear hfind with ⟨value, hvalue⟩ | hmalformed
        · rw [hvalue] at hload
          cases hload
        · rw [hmalformed] at hload
          rcases he with rfl | rfl <;> cases hload
    · exact hfault e

theorem loadsContent_error (h : loadsContent interpreter content = .error e) :
    e ∉ [.overflowError, .keyError] := by
  unfold loadsContent at h
  cases htext : decodeUtf8 content with
  | none =>
    rw [htext] at h
    rw [← Except.error.inj h]
    decide
  | some text =>
    rw [htext] at h
    obtain ⟨hfault, hclear⟩ := @loadsWithin_spec F PyException (jsonHooks interpreter)
      .recursionError interpreter.levels (jsonHooks_lenient interpreter) text
    simp only at h
    cases hfind : (visited text).findSome? (faultOf interpreter) with
    | some e' =>
      rw [hfault e' hfind] at h
      obtain rfl := Except.error.inj h
      obtain ⟨-, visit, -, -, hvisit, -⟩ := findSome?_fault.mp hfind
      rcases fault_cases hvisit with rfl | rfl <;> decide
    | none =>
      rcases hclear hfind with ⟨value, hvalue⟩ | hmalformed
      · rw [hvalue] at h
        cases h
      · rw [hmalformed] at h
        rw [← Except.error.inj h]
        show PyException.jsonDecodeError ∉ [.overflowError, .keyError]
        decide

theorem returns_catching {α : Type} {caught : List PyException} {reason : String}
    {attempt : Except PyException α} : Returns (catching caught reason attempt) ↔
      ∀ e, attempt = .error e → e ∈ caught := by
  cases attempt with
  | ok value =>
    constructor
    · intro _ e he
      cases he
    · intro _ e he
      cases he
  | error raised =>
    unfold Returns catching
    simp only [Except.error.injEq, forall_eq']
    by_cases hcaught : raised ∈ caught
    · simp [hcaught]
    · simp [hcaught]

/-- Where neither a ValueError that is no JSONDecodeError nor a RecursionError is caught. -/
theorem returns_decoded {reason : String} :
    Returns (catching [.unicodeError, .jsonDecodeError] reason (loadsContent interpreter content)) ↔
      Readable interpreter content := by
  rw [returns_catching]
  constructor
  · intro h text htext
    by_contra hunfit
    cases hfind : (visited text).findSome? (faultOf interpreter) with
    | some e =>
      obtain ⟨-, visit, -, -, hvisit, -⟩ := findSome?_fault.mp hfind
      have hkind := fault_cases hvisit
      have hcaught := h e ((loadsContent_raises hkind).mpr ⟨text, htext, hfind⟩)
      rcases hkind with rfl | rfl
      · revert hcaught
        decide
      · revert hcaught
        decide
    | none =>
      refine hunfit fun visit hvisit => ?_
      exact fault_eq_none.mp (List.findSome?_eq_none_iff.mp hfind visit hvisit)
  · intro h e he
    have hraises (hkind : e = .valueError ∨ e = .recursionError) : False := by
      obtain ⟨text, htext, hfind⟩ := (loadsContent_raises hkind).mp he
      obtain ⟨front, visit, back, hvisits, hfault, -⟩ := findSome?_fault.mp hfind
      have hfits := h text htext visit (by rw [hvisits]; simp)
      rw [fault_eq_none.mpr hfits] at hfault
      cases hfault
    cases e with
    | unicodeError => decide
    | jsonDecodeError => decide
    | valueError => exact (hraises (.inl rfl)).elim
    | recursionError => exact (hraises (.inr rfl)).elim
    | overflowError => exact absurd (by decide) (loadsContent_error he)
    | keyError => exact absurd (by decide) (loadsContent_error he)

theorem returns_decoded_deep {reason : String} :
    Returns (catching [.unicodeError, .jsonDecodeError, .recursionError] reason
      (loadsContent interpreter content)) ↔ ReadableOrDeep interpreter content := by
  rw [returns_catching]
  constructor
  · intro h text htext front token back hvisits htoken
    by_contra hnone
    push Not at hnone
    have hfind : (visited text).findSome? (faultOf interpreter) = some .valueError :=
      findSome?_fault.mpr
        ⟨front, .integer token, back, hvisits, fault_eq_valueError.mpr ⟨token, rfl, htoken⟩, hnone⟩
    have hcaught := h .valueError ((loadsContent_raises (.inl rfl)).mpr ⟨text, htext, hfind⟩)
    revert hcaught
    decide
  · intro h e he
    cases e with
    | unicodeError => decide
    | jsonDecodeError => decide
    | recursionError => decide
    | valueError =>
      obtain ⟨text, htext, hfind⟩ := (loadsContent_raises (.inl rfl)).mp he
      obtain ⟨front, visit, back, hvisits, hfault, hfits⟩ := findSome?_fault.mp hfind
      obtain ⟨token, rfl, htoken⟩ := fault_eq_valueError.mp hfault
      obtain ⟨earlier, hmem, hunfit⟩ := h text htext front token back hvisits htoken
      exact absurd (hfits earlier hmem) hunfit
    | overflowError => exact absurd (by decide) (loadsContent_error he)
    | keyError => exact absurd (by decide) (loadsContent_error he)

end Raising

section Returning

variable {α β : Type}

theorem returns_ok (value : α) : Returns (.ok value : Except Stop α) := fun _ h => nomatch h

theorem returns_verdict (reason : String) : Returns (.error (.verdict reason) : Except Stop α) := by
  intro e h
  cases h

theorem returns_demand (reason : String) (condition : Bool) : Returns (demand reason condition) := by
  unfold demand
  split_ifs
  · exact returns_ok ()
  · exact returns_verdict reason

theorem returns_expect (reason : String) (found : Option α) : Returns (expect reason found) := by
  cases found with
  | some value => exact returns_ok value
  | none => exact returns_verdict reason

theorem demand_eq_ok {reason : String} {condition : Bool} {done : Unit} :
    demand reason condition = .ok done ↔ condition = true := by
  unfold demand
  cases condition with
  | true => simp
  | false => simp [refuse]

theorem expect_eq_ok {reason : String} {found : Option α} {value : α} :
    expect reason found = .ok value ↔ found = some value := by
  cases found with
  | some other => simp [expect]
  | none => simp [expect, refuse]

theorem not_returns_raised (e : PyException) : ¬ Returns (.error (.raised e) : Except Stop α) :=
  fun h => h e rfl

theorem returns_bind {x : Except Stop α} {f : α → Except Stop β} :
    Returns (x >>= f) ↔ Returns x ∧ ∀ a, x = .ok a → Returns (f a) := by
  cases x with
  | ok a =>
    constructor
    · intro h
      refine ⟨returns_ok a, fun a' ha => ?_⟩
      obtain rfl := Except.ok.inj ha
      exact h
    · intro h
      exact h.2 a rfl
  | error stop =>
    constructor
    · intro h
      exact ⟨fun e he => h e (congrArg _ (Except.error.inj he)), fun a ha => nomatch ha⟩
    · intro h e he
      exact h.1 e (congrArg _ (Except.error.inj he))

/-- A mapped list raises where the first item that does not succeed does. -/
theorem returns_mapM {f : α → Except Stop β} {items : List α} : Returns (items.mapM f) ↔
    ∀ front item back, items = front ++ item :: back → (∀ earlier ∈ front, ∃ b, f earlier = .ok b) →
      Returns (f item) := by
  induction items with
  | nil =>
    constructor
    · intro _ front item back h
      exact absurd h.symm (by simp)
    · intro _
      exact returns_ok []
  | cons first rest ih =>
    rw [List.mapM_cons, returns_bind]
    constructor
    · rintro ⟨hfirst, hrest⟩ front item back hsplit hfront
      cases front with
      | nil =>
        obtain ⟨rfl, rfl⟩ := List.cons.inj hsplit
        exact hfirst
      | cons earlier front =>
        obtain ⟨rfl, rfl⟩ := List.cons.inj hsplit
        obtain ⟨b, hb⟩ := hfront first (List.mem_cons_self ..)
        exact ih.mp (returns_bind.mp (hrest b hb)).1 front item back rfl fun x hx =>
          hfront x (List.mem_cons_of_mem _ hx)
    · intro h
      refine ⟨h [] first rest rfl fun x hx => absurd hx List.not_mem_nil, fun b hb => ?_⟩
      refine returns_bind.mpr ⟨ih.mpr fun front item back hsplit hfront => ?_,
        fun bs _ => returns_ok _⟩
      refine h (first :: front) item back (by rw [hsplit]; rfl) fun x hx => ?_
      rcases List.mem_cons.mp hx with rfl | hx
      · exact ⟨b, hb⟩
      · exact hfront x hx

theorem returns_foldlM {step : β → α → Except Stop β} (h : ∀ state item, Returns (step state item))
    (items : List α) (state : β) : Returns (items.foldlM step state) := by
  induction items generalizing state with
  | nil => exact returns_ok state
  | cons item rest ih =>
    rw [List.foldlM_cons]
    exact returns_bind.mpr ⟨h state item, fun next _ => ih next⟩

end Returning

end Loads

end OpenADA.Native
