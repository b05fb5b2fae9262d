import OpenADA.Library.ExceptFold
import OpenADA.Library.JsonAccess

/-! The reading of JSON from UTF-8 bytes, with the hooks a caller of `json.loads` gives. -/
namespace JsonReader

open PyStr

def codePoint (n : ℕ) : CodePoint := Fin.ofNat 0x110000 n

section Utf8

def isContinuation (b : UInt8) : Bool := 0x80 ≤ b && b ≤ 0xBF

def low (b : UInt8) : ℕ := b.toNat % 64

/-- `bytes.decode("utf-8")`; `none` is its UnicodeDecodeError. -/
def decodeUtf8 : List UInt8 → Option PyStr
  | [] => some []
  | a :: rest =>
    if a < 0x80 then (decodeUtf8 rest).map (codePoint a.toNat :: ·)
    else
      match rest with
      | [] => none
      | b :: rest =>
        if 0xC2 ≤ a && a ≤ 0xDF && isContinuation b then
          (decodeUtf8 rest).map (codePoint (a.toNat % 32 * 64 + low b) :: ·)
        else
          match rest with
          | [] => none
          | c :: rest =>
            if 0xE0 ≤ a && a ≤ 0xEF && isContinuation b && isContinuation c &&
                (a ≠ 0xE0 || 0xA0 ≤ b) && (a ≠ 0xED || b ≤ 0x9F) then
              (decodeUtf8 rest).map (codePoint (a.toNat % 16 * 4096 + low b * 64 + low c) :: ·)
            else
              match rest with
              | [] => none
              | d :: rest =>
                if 0xF0 ≤ a && a ≤ 0xF4 && isContinuation b && isContinuation c &&
                    isContinuation d && (a ≠ 0xF0 || 0x90 ≤ b) && (a ≠ 0xF4 || b ≤ 0x8F) then
                  (decodeUtf8 rest).map
                    (codePoint (a.toNat % 8 * 262144 + low b * 4096 + low c * 64 + low d) :: ·)
                else none

end Utf8

section Tokens

def isSpace (c : CodePoint) : Bool := (lit " \t\n\r").contains c

def skipSpace (text : PyStr) : PyStr := text.dropWhile isSpace

def isDigit (c : CodePoint) : Bool := point '0' ≤ c && c ≤ point '9'

def hexValue (c : CodePoint) : Option ℕ :=
  if isDigit c then some (c.val - 48)
  else if point 'a' ≤ c && c ≤ point 'f' then some (c.val - 87)
  else if point 'A' ≤ c && c ≤ point 'F' then some (c.val - 55)
  else none

def hexFour : PyStr → Option (ℕ × PyStr)
  | a :: b :: c :: d :: rest => do
    some ((← hexValue a) * 4096 + (← hexValue b) * 256 + (← hexValue c) * 16 + (← hexValue d), rest)
  | _ => none

/-- The character of a `\u` escape: a high surrogate is joined to an escaped low one that follows. -/
def joinSurrogates (high : ℕ) (rest : PyStr) : CodePoint × PyStr :=
  if 0xD800 ≤ high ∧ high ≤ 0xDBFF then
    match rest with
    | back :: u :: more =>
      if back = point '\\' ∧ u = point 'u' then
        match hexFour more with
        | some (second, after) =>
          if 0xDC00 ≤ second ∧ second ≤ 0xDFFF then
            (codePoint (0x10000 + (high - 0xD800) * 1024 + (second - 0xDC00)), after)
          else (codePoint high, rest)
        | none => (codePoint high, rest)
      else (codePoint high, rest)
    | _ => (codePoint high, rest)
  else (codePoint high, rest)

def simpleEscape (c : CodePoint) : Option CodePoint :=
  if (lit "\"\\/").contains c then some c
  else if c = point 'b' then some 8
  else if c = point 'f' then some 12
  else if c = point 'n' then some 10
  else if c = point 'r' then some 13
  else if c = point 't' then some 9
  else none

def readString : ℕ → PyStr → Option (PyStr × PyStr)
  | 0, _ => none
  | _ + 1, [] => none
  | fuel + 1, c :: rest =>
    if c = point '"' then some ([], rest)
    else if c = point '\\' then
      match rest with
      | [] => none
      | d :: rest =>
        if d = point 'u' then do
          let (high, rest) ← hexFour rest
          let (read, rest) := joinSurrogates high rest
          let (more, rest) ← readString fuel rest
          some (read :: more, rest)
        else do
          let read ← simpleEscape d
          let (more, rest) ← readString fuel rest
          some (read :: more, rest)
    else if c.val < 32 then none
    else do
      let (more, rest) ← readString fuel rest
      some (c :: more, rest)

/-- The integer part of a number: a zero, or digits that do not begin with one. -/
def readInteger (text : PyStr) : Option (PyStr × PyStr) :=
  match text with
  | [] => none
  | c :: rest =>
    if c = point '0' then some ([c], rest)
    else if isDigit c then some (text.takeWhile isDigit, text.dropWhile isDigit)
    else none

def readFraction (text : PyStr) : PyStr × PyStr :=
  match text with
  | c :: rest =>
    if c = point '.' ∧ rest.takeWhile isDigit ≠ [] then
      (c :: rest.takeWhile isDigit, rest.dropWhile isDigit)
    else ([], text)
  | [] => ([], text)

def readExponent (text : PyStr) : PyStr × PyStr :=
  match text with
  | e :: rest =>
    if e = point 'e' ∨ e = point 'E' then
      let signed := rest.takeWhile fun c => c = point '+' ∨ c = point '-'
      let after := rest.drop signed.length
      if signed.length ≤ 1 ∧ after.takeWhile isDigit ≠ [] then
        (e :: signed ++ after.takeWhile isDigit, after.dropWhile isDigit)
      else ([], text)
    else ([], text)
  | [] => ([], text)

structure NumberToken where
  text : PyStr
  floating : Bool

def readNumber (text : PyStr) : Option (NumberToken × PyStr) := do
  let negative := text.head? = some (point '-')
  let (whole, rest) ← readInteger (if negative then text.tail else text)
  let (fraction, rest) := readFraction rest
  let (exponent, rest) := readExponent rest
  some (⟨(if negative then [point '-'] else []) ++ whole ++ fraction ++ exponent,
    fraction ≠ [] ∨ exponent ≠ []⟩, rest)

def integerOf (token : PyStr) : ℤ :=
  let value := (token.filter isDigit).foldl (fun (n : ℤ) c => n * 10 + (c.val - 48 : ℕ)) 0
  if token.head? = some (point '-') then -value else value

def afterWord (word : String) (text : PyStr) : Option PyStr :=
  if lit word <+: text then some (text.drop (lit word).length) else none

end Tokens

/-- The hooks of a reader; `malformed` is what the ValueError of a text that is no JSON becomes. -/
structure Hooks (F ε : Type) where
  malformed : ε
  constant : PyStr → Except ε (PyJson F)
  integer : PyStr → Except ε (PyJson F)
  floating : PyStr → Except ε (PyJson F)
  pairs : List (PyStr × PyJson F) → Except ε (PyJson F)

section Values

variable {F ε : Type} (hooks : Hooks F ε)

def readPlain (text : PyStr) : Except ε (PyJson F × PyStr) :=
  match afterWord "null" text, afterWord "true" text, afterWord "false" text with
  | some rest, _, _ => .ok (.null, rest)
  | _, some rest, _ => .ok (.bool true, rest)
  | _, _, some rest => .ok (.bool false, rest)
  | none, none, none =>
    match readNumber text with
    | some (token, rest) =>
      (if token.floating then hooks.floating token.text else hooks.integer token.text).map
        fun value => (value, rest)
    | none =>
      match ["NaN", "Infinity", "-Infinity"].find? fun word => (afterWord word text).isSome with
      | some word => (hooks.constant (lit word)).map fun value =>
          (value, text.drop (lit word).length)
      | none => .error hooks.malformed

mutual

def readValue : ℕ → PyStr → Except ε (PyJson F × PyStr)
  | 0, _ => .error hooks.malformed
  | fuel + 1, text =>
    match text with
    | [] => .error hooks.malformed
    | c :: rest =>
      if c = point '"' then
        match readString rest.length.succ rest with
        | some (read, rest) => .ok (.str read, rest)
        | none => .error hooks.malformed
      else if c = point '[' then
        if (skipSpace rest).head? = some (point ']') then .ok (.array [], (skipSpace rest).tail)
        else (readItems fuel (skipSpace rest)).map fun (items, rest) => (.array items, rest)
      else if c = point '\x7b' then
        if (skipSpace rest).head? = some (point '\x7d') then
          (hooks.pairs []).map fun value => (value, (skipSpace rest).tail)
        else do
          let (fields, rest) ← readFields fuel (skipSpace rest)
          let value ← hooks.pairs fields
          .ok (value, rest)
      else readPlain hooks text

def readItems : ℕ → PyStr → Except ε (List (PyJson F) × PyStr)
  | 0, _ => .error hooks.malformed
  | fuel + 1, text => do
    let (item, rest) ← readValue fuel text
    match skipSpace rest with
    | [] => .error hooks.malformed
    | c :: rest =>
      if c = point ']' then .ok ([item], rest)
      else if c = point ',' then do
        let (items, rest) ← readItems fuel (skipSpace rest)
        .ok (item :: items, rest)
      else .error hooks.malformed

def readFields : ℕ → PyStr → Except ε (List (PyStr × PyJson F) × PyStr)
  | 0, _ => .error hooks.malformed
  | fuel + 1, text =>
    match text with
    | [] => .error hooks.malformed
    | quote :: rest =>
      match (if quote = point '"' then readString rest.length.succ rest else none) with
      | none => .error hooks.malformed
      | some (key, rest) =>
        match skipSpace rest with
        | [] => .error hooks.malformed
        | colon :: rest =>
          if colon ≠ point ':' then .error hooks.malformed
          else do
            let (value, rest) ← readValue fuel (skipSpace rest)
            match skipSpace rest with
            | [] => .error hooks.malformed
            | c :: rest =>
              if c = point '\x7d' then .ok ([(key, value)], rest)
              else if c = point ',' then do
                let (fields, rest) ← readFields fuel (skipSpace rest)
                .ok ((key, value) :: fields, rest)
              else .error hooks.malformed

end

/-- `json.loads(body.decode("utf-8"), ...)`. -/
def loads (body : ByteArray) : Except ε (PyJson F) :=
  match decodeUtf8 body.data.toList with
  | none => .error hooks.malformed
  | some text =>
    if text.head? = some (codePoint 0xFEFF) then .error hooks.malformed
    else do
      let (value, rest) ← readValue hooks (2 * text.length + 1) (skipSpace text)
      if skipSpace rest = [] then .ok value else .error hooks.malformed

end Values

section Errors

variable {F ε : Type}

structure Hooks.ErrorsAre (hooks : Hooks F ε) (kind : ε → Prop) : Prop where
  malformed : kind hooks.malformed
  constant : ∀ token e, hooks.constant token = .error e → kind e
  integer : ∀ token e, hooks.integer token = .error e → kind e
  floating : ∀ token e, hooks.floating token = .error e → kind e
  pairs : ∀ fields e, hooks.pairs fields = .error e → kind e

variable {hooks : Hooks F ε} {kind : ε → Prop}

theorem readPlain_error (h : hooks.ErrorsAre kind) {text : PyStr} {e : ε}
    (hread : readPlain hooks text = .error e) : kind e := by
  unfold readPlain at hread
  split at hread
  · cases hread
  · cases hread
  · cases hread
  · split at hread
    · rename_i token rest _
      cases hfloat : token.floating with
      | true =>
        rw [hfloat, if_pos rfl] at hread
        exact h.floating _ _ (Except.map_eq_error hread)
      | false =>
        rw [hfloat, if_neg Bool.false_ne_true] at hread
        exact h.integer _ _ (Except.map_eq_error hread)
    · split at hread
      · exact h.constant _ _ (Except.map_eq_error hread)
      · obtain rfl := Except.error.inj hread
        exact h.malformed

theorem read_error (h : hooks.ErrorsAre kind) (fuel : ℕ) :
    (∀ text e, readValue hooks fuel text = .error e → kind e) ∧
      (∀ text e, readItems hooks fuel text = .error e → kind e) ∧
        ∀ text e, readFields hooks fuel text = .error e → kind e := by
  have hmalformed {α : Type} {e : ε} (he : (Except.error hooks.malformed : Except ε α) = .error e) :
      kind e := Except.error.inj he ▸ h.malformed
  induction fuel with
  | zero => exact ⟨fun _ _ => hmalformed, fun _ _ => hmalformed, fun _ _ => hmalformed⟩
  | succ fuel ih =>
    obtain ⟨hvalue, hitems, hfields⟩ := ih
    refine ⟨?_, ?_, ?_⟩
    · intro text e hread
      unfold readValue at hread
      split at hread
      · exact hmalformed hread
      · split_ifs at hread
        · split at hread
          · cases hread
          · exact hmalformed hread
        · exact hitems _ _ (Except.map_eq_error hread)
        · exact h.pairs _ _ (Except.map_eq_error hread)
        · rcases Except.bind_eq_error.mp hread with hread | ⟨⟨fields, rest⟩, -, hread⟩
          · exact hfields _ _ hread
          · rcases Except.bind_eq_error.mp hread with hread | ⟨value, -, hread⟩
            · exact h.pairs _ _ hread
            · cases hread
        · exact readPlain_error h hread
    · intro text e hread
      unfold readItems at hread
      rcases Except.bind_eq_error.mp hread with hread | ⟨⟨item, rest⟩, -, hread⟩
      · exact hvalue _ _ hread
      · simp only at hread
        split at hread
        · exact hmalformed hread
        · split_ifs at hread
          · rcases Except.bind_eq_error.mp hread with hread | ⟨⟨items, rest⟩, -, hread⟩
            · exact hitems _ _ hread
            · cases hread
          · exact hmalformed hread
    · intro text e hread
      unfold readFields at hread
      split at hread
      · exact hmalformed hread
      · split at hread
        · exact hmalformed hread
        · split at hread
          · exact hmalformed hread
          · split_ifs at hread
            · exact hmalformed hread
            · rcases Except.bind_eq_error.mp hread with hread | ⟨⟨value, rest⟩, -, hread⟩
              · exact hvalue _ _ hread
              · simp only at hread
                split at hread
                · exact hmalformed hread
                · split_ifs at hread
                  · rcases Except.bind_eq_error.mp hread with hread | ⟨⟨fields, rest⟩, -, hread⟩
                    · exact hfields _ _ hread
                    · cases hread
                  · exact hmalformed hread

theorem loads_error (h : hooks.ErrorsAre kind) {body : ByteArray} {e : ε}
    (hread : loads hooks body = .error e) : kind e := by
  unfold loads at hread
  split at hread
  · exact Except.error.inj hread ▸ h.malformed
  · split_ifs at hread
    · exact Except.error.inj hread ▸ h.malformed
    · rcases Except.bind_eq_error.mp hread with hread | ⟨⟨value, rest⟩, -, hread⟩
      · exact (read_error h _).1 _ _ hread
      · simp only at hread
        split_ifs at hread
        exact Except.error.inj hread ▸ h.malformed

end Errors

end JsonReader
