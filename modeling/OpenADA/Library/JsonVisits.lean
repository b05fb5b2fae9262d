import OpenADA.Library.JsonReader

/-! The reading of JSON on a bounded stack, and what a reader comes past before it stops: the
integers it converts and the containers it enters. -/
namespace JsonReader

open PyStr

section Within

variable {F ε : Type} (hooks : Hooks F ε) (tooDeep : ε) (levels : ℕ)

mutual

/-- A value at the head of a text inside `depth` containers; `tooDeep` is the RecursionError of
more than `levels` of them. -/
def readValueWithin : ℕ → ℕ → PyStr → Except ε (PyJson F × PyStr)
  | 0, _, _ => .error hooks.malformed
  | fuel + 1, depth, text =>
    match text with
    | [] => .error hooks.malformed
    | c :: rest =>
      if c = point '"' then
        match readString rest.length.succ rest with
        | some read => .ok (.str read.1, read.2)
        | none => .error hooks.malformed
      else if c = point '[' then
        if levels ≤ depth then .error tooDeep
        else if (skipSpace rest).head? = some (point ']') then
          .ok (.array [], (skipSpace rest).tail)
        else do
          let items ← readItemsWithin fuel (depth + 1) (skipSpace rest)
          .ok (.array items.1, items.2)
      else if c = point '\x7b' then
        if levels ≤ depth then .error tooDeep
        else if (skipSpace rest).head? = some (point '\x7d') then do
          let value ← hooks.pairs []
          .ok (value, (skipSpace rest).tail)
        else do
          let fields ← readFieldsWithin fuel (depth + 1) (skipSpace rest)
          let value ← hooks.pairs fields.1
          .ok (value, fields.2)
      else readPlain hooks text

def readItemsWithin : ℕ → ℕ → PyStr → Except ε (List (PyJson F) × PyStr)
  | 0, _, _ => .error hooks.malformed
  | fuel + 1, depth, text => do
    let item ← readValueWithin fuel depth text
    match skipSpace item.2 with
    | [] => .error hooks.malformed
    | c :: rest =>
      if c = point ']' then .ok ([item.1], rest)
      else if c = point ',' then do
        let items ← readItemsWithin fuel depth (skipSpace rest)
        .ok (item.1 :: items.1, items.2)
      else .error hooks.malformed

def readFieldsWithin : ℕ → ℕ → PyStr → Except ε (List (PyStr × PyJson F) × PyStr)
  | 0, _, _ => .error hooks.malformed
  | fuel + 1, depth, text =>
    match text with
    | [] => .error hooks.malformed
    | quote :: rest =>
      match (if quote = point '"' then readString rest.length.succ rest else none) with
      | none => .error hooks.malformed
      | some key =>
        match skipSpace key.2 with
        | [] => .error hooks.malformed
        | colon :: rest =>
          if colon ≠ point ':' then .error hooks.malformed
          else do
            let value ← readValueWithin fuel depth (skipSpace rest)
            match skipSpace value.2 with
            | [] => .error hooks.malformed
            | c :: rest =>
              if c = point '\x7d' then .ok ([(key.1, value.1)], rest)
              else if c = point ',' then do
                let fields ← readFieldsWithin fuel depth (skipSpace rest)
                .ok ((key.1, value.1) :: fields.1, fields.2)
              else .error hooks.malformed

end

/-- `json.loads` of a text. -/
def loadsWithin (text : PyStr) : Except ε (PyJson F) :=
  if text.head? = some (codePoint 0xFEFF) then .error hooks.malformed
  else do
    let value ← readValueWithin hooks tooDeep levels (2 * text.length + 1) 0 (skipSpace text)
    if skipSpace value.2 = [] then .ok value.1 else .error hooks.malformed

end Within

/-- What a reader comes past: an integer, or a container inside `depth` others. -/
inductive Visit where
  | integer (token : PyStr)
  | enters (depth : ℕ)

/-- What was come past, and the text behind it unless the text is no JSON. -/
abbrev Scan := List Visit × Option PyStr

def Scan.andThen (scan : Scan) (next : PyStr → Scan) : Scan :=
  match scan.2 with
  | none => (scan.1, none)
  | some rest => (scan.1 ++ (next rest).1, (next rest).2)

section Scans

/-- `readPlain` without the values. -/
def scanPlain (text : PyStr) : Scan :=
  match afterWord "null" text, afterWord "true" text, afterWord "false" text with
  | some rest, _, _ => ([], some rest)
  | _, some rest, _ => ([], some rest)
  | _, _, some rest => ([], some rest)
  | none, none, none =>
    match readNumber text with
    | some number => (if number.1.floating then [] else [.integer number.1.text], some number.2)
    | none =>
      match ["NaN", "Infinity", "-Infinity"].find? fun word => (afterWord word text).isSome with
      | some word => ([], some (text.drop (lit word).length))
      | none => ([], none)

mutual

def scanValue : ℕ → ℕ → PyStr → Scan
  | 0, _, _ => ([], none)
  | fuel + 1, depth, text =>
    match text with
    | [] => ([], none)
    | c :: rest =>
      if c = point '"' then ([], (readString rest.length.succ rest).map Prod.snd)
      else if c = point '[' then
        Scan.andThen ([.enters depth], some rest) fun rest =>
          if (skipSpace rest).head? = some (point ']') then ([], some (skipSpace rest).tail)
          else scanItems fuel (depth + 1) (skipSpace rest)
      else if c = point '\x7b' then
        Scan.andThen ([.enters depth], some rest) fun rest =>
          if (skipSpace rest).head? = some (point '\x7d') then ([], some (skipSpace rest).tail)
          else scanFields fuel (depth + 1) (skipSpace rest)
      else scanPlain text

def scanItems : ℕ → ℕ → PyStr → Scan
  | 0, _, _ => ([], none)
  | fuel + 1, depth, text =>
    (scanValue fuel depth text).andThen fun rest =>
      match skipSpace rest with
      | [] => ([], none)
      | c :: rest =>
        if c = point ']' then ([], some rest)
        else if c = point ',' then scanItems fuel depth (skipSpace rest)
        else ([], none)

def scanFields : ℕ → ℕ → PyStr → Scan
  | 0, _, _ => ([], none)
  | fuel + 1, depth, text =>
    match text with
    | [] => ([], none)
    | quote :: rest =>
      match (if quote = point '"' then readString rest.length.succ rest else none) with
      | none => ([], none)
      | some key =>
        match skipSpace key.2 with
        | [] => ([], none)
        | colon :: rest =>
          if colon ≠ point ':' then ([], none)
          else
            (scanValue fuel depth (skipSpace rest)).andThen fun rest =>
              match skipSpace rest with
              | [] => ([], none)
              | c :: rest =>
                if c = point '\x7d' then ([], some rest)
                else if c = point ',' then scanFields fuel depth (skipSpace rest)
                else ([], none)

end

/-- What `json.loads` comes past before it ends or finds that the text is no JSON. -/
def visited (text : PyStr) : List Visit :=
  if text.head? = some (codePoint 0xFEFF) then []
  else (scanValue (2 * text.length + 1) 0 (skipSpace text)).1

end Scans

section Spec

variable {F ε : Type} (hooks : Hooks F ε) (tooDeep : ε) (levels : ℕ)

def fault : Visit → Option ε
  | .integer token =>
    match hooks.integer token with
    | .ok _ => none
    | .error e => some e
  | .enters depth => if levels ≤ depth then some tooDeep else none

structure Hooks.Lenient (hooks : Hooks F ε) : Prop where
  constant : ∀ token, ∃ value, hooks.constant token = .ok value
  floating : ∀ token, ∃ value, hooks.floating token = .ok value
  pairs : ∀ fields, ∃ value, hooks.pairs fields = .ok value

def EndsAs {α : Type} (read : Except ε (α × PyStr)) (scan : Scan) : Prop :=
  match scan.1.findSome? (fault hooks tooDeep levels), scan.2 with
  | some e, _ => read = .error e
  | none, some rest => ∃ value, read = .ok (value, rest)
  | none, none => read = .error hooks.malformed

variable {hooks tooDeep levels} {α β : Type}

theorem endsAs_ok (value : α) (rest : PyStr) :
    EndsAs hooks tooDeep levels (.ok (value, rest)) ([], some rest) :=
  ⟨value, rfl⟩

theorem endsAs_malformed : EndsAs hooks tooDeep levels
    (.error hooks.malformed : Except ε (α × PyStr)) ([], none) :=
  rfl

/-- What is done with the value and the text behind it ends as the scan of that text. -/
theorem endsAs_bind {read : Except ε (α × PyStr)} {scan : Scan}
    {next : α × PyStr → Except ε (β × PyStr)} {more : PyStr → Scan}
    (hread : EndsAs hooks tooDeep levels read scan)
    (hnext : ∀ value rest, EndsAs hooks tooDeep levels (next (value, rest)) (more rest)) :
    EndsAs hooks tooDeep levels (read >>= next) (scan.andThen more) := by
  obtain ⟨seen, rest⟩ := scan
  unfold EndsAs at hread
  unfold Scan.andThen
  cases hfault : seen.findSome? (fault hooks tooDeep levels) with
  | some e =>
    simp only [hfault] at hread
    rw [hread]
    cases rest with
    | none =>
      unfold EndsAs
      simp only [hfault]
      rfl
    | some rest =>
      unfold EndsAs
      simp only [List.findSome?_append, hfault, Option.some_or]
      rfl
  | none =>
    cases rest with
    | none =>
      simp only [hfault] at hread
      unfold EndsAs
      simp only [hfault]
      rw [hread]
      rfl
    | some rest =>
      simp only [hfault] at hread
      obtain ⟨value, rfl⟩ := hread
      have h := hnext value rest
      unfold EndsAs at h ⊢
      simp only [List.findSome?_append, hfault, Option.none_or]
      exact h

theorem endsAs_enter {read : Except ε (α × PyStr)} {depth : ℕ} {rest : PyStr} {more : PyStr → Scan}
    (h : EndsAs hooks tooDeep levels read (more rest)) :
    EndsAs hooks tooDeep levels (if levels ≤ depth then .error tooDeep else read)
      (Scan.andThen ([.enters depth], some rest) more) := by
  unfold EndsAs Scan.andThen
  by_cases hdeep : levels ≤ depth
  · have hfault : fault hooks tooDeep levels (.enters depth) = some tooDeep := if_pos hdeep
    simp only [List.findSome?_append, List.findSome?_cons, hfault, Option.some_or, if_pos hdeep]
  · have hfault : fault hooks tooDeep levels (.enters depth) = none := if_neg hdeep
    simp only [List.findSome?_append, List.findSome?_cons, hfault, List.findSome?_nil,
      Option.none_or, if_neg hdeep]
    exact h

theorem endsAs_then {read : Except ε (α × PyStr)} {scan : Scan}
    {next : α × PyStr → Except ε (β × PyStr)} (hread : EndsAs hooks tooDeep levels read scan)
    (hnext : ∀ value rest, ∃ made, next (value, rest) = .ok (made, rest)) :
    EndsAs hooks tooDeep levels (read >>= next) scan := by
  unfold EndsAs at hread ⊢
  cases hfault : scan.1.findSome? (fault hooks tooDeep levels) with
  | some e =>
    simp only [hfault] at hread ⊢
    rw [hread]
    rfl
  | none =>
    cases hrest : scan.2 with
    | none =>
      simp only [hfault, hrest] at hread ⊢
      rw [hread]
      rfl
    | some rest =>
      simp only [hfault, hrest] at hread ⊢
      obtain ⟨value, rfl⟩ := hread
      exact hnext value rest

theorem readNumber_endsAs (h : hooks.Lenient) (number : NumberToken × PyStr) :
    EndsAs hooks tooDeep levels
      ((if number.1.floating then hooks.floating number.1.text
        else hooks.integer number.1.text).map fun value => (value, number.2))
      (if number.1.floating then [] else [.integer number.1.text], some number.2) := by
  by_cases hfloating : number.1.floating = true
  · obtain ⟨value, hvalue⟩ := h.floating number.1.text
    rw [if_pos hfloating, if_pos hfloating, hvalue]
    exact endsAs_ok _ _
  · rw [if_neg hfloating, if_neg hfloating]
    cases hinteger : hooks.integer number.1.text with
    | ok value =>
      have hfault : fault hooks tooDeep levels (.integer number.1.text) = none := by
        simp only [fault, hinteger]
      unfold EndsAs
      simp only [List.findSome?_cons, hfault, List.findSome?_nil]
      exact ⟨value, rfl⟩
    | error e =>
      have hfault : fault hooks tooDeep levels (.integer number.1.text) = some e := by
        simp only [fault, hinteger]
      unfold EndsAs
      simp only [List.findSome?_cons, hfault]
      rfl

theorem readPlain_endsAs (h : hooks.Lenient) (text : PyStr) :
    EndsAs hooks tooDeep levels (readPlain hooks text) (scanPlain text) := by
  unfold readPlain scanPlain
  cases afterWord "null" text with
  | some rest => exact endsAs_ok _ _
  | none =>
  cases afterWord "true" text with
  | some rest => exact endsAs_ok _ _
  | none =>
  cases afterWord "false" text with
  | some rest => exact endsAs_ok _ _
  | none =>
  cases readNumber text with
  | some number => exact readNumber_endsAs h number
  | none =>
  simp only
  cases ["NaN", "Infinity", "-Infinity"].find? fun word => (afterWord word text).isSome with
  | some word =>
    obtain ⟨value, hvalue⟩ := h.constant (lit word)
    simp only [hvalue]
    exact endsAs_ok _ _
  | none => exact endsAs_malformed

/-- A reader ends at the first fault of what it comes past, or else as the scan of the text does. -/
theorem readWithin_endsAs (h : hooks.Lenient) (fuel : ℕ) :
    (∀ depth text, EndsAs hooks tooDeep levels
      (readValueWithin hooks tooDeep levels fuel depth text) (scanValue fuel depth text)) ∧
    (∀ depth text, EndsAs hooks tooDeep levels
      (readItemsWithin hooks tooDeep levels fuel depth text) (scanItems fuel depth text)) ∧
    ∀ depth text, EndsAs hooks tooDeep levels
      (readFieldsWithin hooks tooDeep levels fuel depth text) (scanFields fuel depth text) := by
  induction fuel with
  | zero =>
    exact ⟨fun _ _ => endsAs_malformed, fun _ _ => endsAs_malformed, fun _ _ => endsAs_malformed⟩
  | succ fuel ih =>
    obtain ⟨hvalue, hitems, hfields⟩ := ih
    refine ⟨?_, ?_, ?_⟩
    · intro depth text
      unfold readValueWithin scanValue
      cases text with
      | nil => exact endsAs_malformed
      | cons c rest =>
        simp only
        by_cases hquote : c = point '"'
        · rw [if_pos hquote, if_pos hquote]
          cases readString rest.length.succ rest with
          | some read => exact endsAs_ok _ _
          | none => exact endsAs_malformed
        rw [if_neg hquote, if_neg hquote]
        by_cases hbracket : c = point '['
        · rw [if_pos hbracket, if_pos hbracket]
          apply endsAs_enter
          split_ifs
          · exact endsAs_ok _ _
          · exact endsAs_then (hitems (depth + 1) (skipSpace rest)) fun items rest => ⟨_, rfl⟩
        rw [if_neg hbracket, if_neg hbracket]
        by_cases hbrace : c = point '\x7b'
        · rw [if_pos hbrace, if_pos hbrace]
          apply endsAs_enter
          split_ifs
          · obtain ⟨value, hvalue⟩ := h.pairs []
            rw [hvalue]
            exact endsAs_ok _ _
          · refine endsAs_then (hfields (depth + 1) (skipSpace rest)) fun fields rest => ?_
            obtain ⟨value, hvalue⟩ := h.pairs fields
            exact ⟨value, by rw [hvalue]; rfl⟩
        · rw [if_neg hbrace, if_neg hbrace]
          exact readPlain_endsAs h _
    · intro depth text
      unfold readItemsWithin scanItems
      refine endsAs_bind (hvalue depth text) fun item rest => ?_
      simp only
      cases skipSpace rest with
      | nil => exact endsAs_malformed
      | cons c rest =>
        simp only
        split_ifs
        · exact endsAs_ok _ _
        · exact endsAs_then (hitems depth (skipSpace rest)) fun items rest => ⟨_, rfl⟩
        · exact endsAs_malformed
    · intro depth text
      unfold readFieldsWithin scanFields
      cases text with
      | nil => exact endsAs_malformed
      | cons quote rest =>
        simp only
        cases if quote = point '"' then readString rest.length.succ rest else none with
        | none => exact endsAs_malformed
        | some key =>
          simp only
          cases skipSpace key.2 with
          | nil => exact endsAs_malformed
          | cons colon rest =>
            simp only
            split_ifs
            · exact endsAs_malformed
            · refine endsAs_bind (hvalue depth (skipSpace rest)) fun value rest => ?_
              simp only
              cases skipSpace rest with
              | nil => exact endsAs_malformed
              | cons c rest =>
                simp only
                split_ifs
                · exact endsAs_ok _ _
                · exact endsAs_then (hfields depth (skipSpace rest)) fun fields rest => ⟨_, rfl⟩
                · exact endsAs_malformed

/-- `json.loads` ends at the first fault of what it comes past, and where there is none a text is
read or is no JSON. -/
theorem loadsWithin_spec (h : hooks.Lenient) (text : PyStr) :
    (∀ e, (visited text).findSome? (fault hooks tooDeep levels) = some e →
      loadsWithin hooks tooDeep levels text = .error e) ∧
    ((visited text).findSome? (fault hooks tooDeep levels) = none →
      (∃ value, loadsWithin hooks tooDeep levels text = .ok value) ∨
        loadsWithin hooks tooDeep levels text = .error hooks.malformed) := by
  unfold visited loadsWithin
  by_cases hmark : text.head? = some (codePoint 0xFEFF)
  · rw [if_pos hmark, if_pos hmark]
    refine ⟨fun e he => ?_, fun _ => .inr rfl⟩
    cases he
  rw [if_neg hmark, if_neg hmark]
  have hread := (@readWithin_endsAs F ε hooks tooDeep levels h (2 * text.length + 1)).1 0
    (skipSpace text)
  unfold EndsAs at hread
  constructor
  · intro e he
    simp only [he] at hread
    rw [hread]
    rfl
  · intro hnone
    cases hrest : (scanValue (2 * text.length + 1) 0 (skipSpace text)).2 with
    | none =>
      simp only [hnone, hrest] at hread
      rw [hread]
      exact .inr rfl
    | some rest =>
      simp only [hnone, hrest] at hread
      obtain ⟨value, hvalue⟩ := hread
      rw [hvalue, Except.ok_bind]
      split_ifs
      · exact .inl ⟨value, rfl⟩
      · exact .inr rfl

end Spec

end JsonReader
