import OpenADA.Library.PyStr

/-! The text of a JSON value as `json.dumps` writes it without ASCII escapes and with compact
separators, and that no two values have one text. -/
namespace JsonText

open PyStr

def isNumberChar (c : CodePoint) : Bool := c ∈ lit "0123456789+-.e"

structure NumberText where
  text : PyStr
  ne_nil : text ≠ []
  chars : text.all isNumberChar = true

/-- The values that are written; the fields of an object are in the order of their text. -/
inductive Value where
  | null
  | flag (value : Bool)
  | number (token : NumberText)
  | text (value : PyStr)
  | list (items : List Value)
  | record (fields : List (PyStr × Value))

def hexDigit (n : ℕ) : CodePoint := if h : n < 16 then
  point ("0123456789abcdef".toList.get ⟨n, h⟩) else point '0'

def escape (c : CodePoint) : PyStr :=
  if c = point '"' then lit "\\\""
  else if c = point '\\' then lit "\\\\"
  else if c = point '\n' then lit "\\n"
  else if c = point '\r' then lit "\\r"
  else if c = point '\t' then lit "\\t"
  else if c.val = 8 then lit "\\b"
  else if c.val = 12 then lit "\\f"
  else if c.val < 32 then lit "\\u00" ++ [hexDigit (c.val / 16), hexDigit (c.val % 16)]
  else [c]

def escaped (text : PyStr) : PyStr := text.flatMap escape ++ [point '"']

mutual

def render : Value → PyStr
  | .null => lit "null"
  | .flag true => lit "true"
  | .flag false => lit "false"
  | .number token => token.text
  | .text value => point '"' :: escaped value
  | .list [] => lit "[]"
  | .list (item :: rest) => point '[' :: (render item ++ renderItems rest ++ [point ']'])
  | .record [] => lit "\x7b\x7d"
  | .record ((key, value) :: rest) =>
    point '\x7b' :: point '"' ::
      (escaped key ++ [point ':'] ++ render value ++ renderFields rest ++ [point '\x7d'])

def renderItems : List Value → PyStr
  | [] => []
  | item :: rest => point ',' :: (render item ++ renderItems rest)

def renderFields : List (PyStr × Value) → PyStr
  | [] => []
  | (key, value) :: rest =>
    point ',' :: point '"' :: (escaped key ++ [point ':'] ++ render value ++ renderFields rest)

end

section Strings

def unescape : PyStr → Option (CodePoint × PyStr)
  | [] => none
  | c :: rest =>
    if c ≠ point '\\' then some (c, rest)
    else
      match rest with
      | [] => none
      | d :: rest =>
        if d = point 'n' then some (point '\n', rest)
        else if d = point 'r' then some (point '\r', rest)
        else if d = point 't' then some (point '\t', rest)
        else if d = point 'b' then some (8, rest)
        else if d = point 'f' then some (12, rest)
        else if d = point 'u' then
          match rest with
          | _ :: _ :: high :: low :: rest =>
            some (Fin.ofNat _ ((if high = point '1' then 16 else 0) +
              (if low.val < 58 then low.val - 48 else low.val - 87)), rest)
          | _ => none
        else some (d, rest)

theorem unescape_control : ∀ n : Fin 32, ∀ rest : PyStr,
    unescape (lit "\\u00" ++ [hexDigit (n.val / 16), hexDigit (n.val % 16)] ++ rest) =
      some (⟨n.val, by omega⟩, rest) := by
  intro n rest
  fin_cases n <;> rfl

theorem unescape_escape (c : CodePoint) (rest : PyStr) : unescape (escape c ++ rest) = some (c, rest) := by
  unfold escape
  split_ifs with hquote hback hn hr ht hb hf hcontrol
  · rw [hquote]; rfl
  · rw [hback]; rfl
  · rw [hn]; rfl
  · rw [hr]; rfl
  · rw [ht]; rfl
  · have hc : c = 8 := Fin.ext hb
    rw [hc]; rfl
  · have hc : c = 12 := Fin.ext hf
    rw [hc]; rfl
  · exact unescape_control ⟨c.val, hcontrol⟩ rest
  · exact if_pos hback

/-- An escape is the character itself, which is no quotation mark, or begins with a backslash. -/
theorem escape_cases (c : CodePoint) :
    (escape c = [c] ∧ c ≠ point '"') ∨ ∃ rest, escape c = point '\\' :: rest := by
  unfold escape
  split_ifs with hquote
  · exact .inr ⟨[point '"'], rfl⟩
  · exact .inr ⟨[point '\\'], rfl⟩
  · exact .inr ⟨[point 'n'], rfl⟩
  · exact .inr ⟨[point 'r'], rfl⟩
  · exact .inr ⟨[point 't'], rfl⟩
  · exact .inr ⟨[point 'b'], rfl⟩
  · exact .inr ⟨[point 'f'], rfl⟩
  · exact .inr ⟨lit "u00" ++ [hexDigit (c.val / 16), hexDigit (c.val % 16)], rfl⟩
  · exact .inl ⟨rfl, hquote⟩

theorem escape_head (c : CodePoint) (rest : PyStr) :
    (escape c ++ rest).head? ≠ some (point '"') := by
  rcases escape_cases c with ⟨hself, hquote⟩ | ⟨more, hback⟩
  · rw [hself]
    exact fun h => hquote (Option.some.inj h)
  · rw [hback]
    exact fun h => absurd (Option.some.inj h) (by decide)

theorem escaped_cons (c : CodePoint) (text rest : PyStr) :
    escaped (c :: text) ++ rest = escape c ++ (escaped text ++ rest) := by
  simp [escaped]

theorem escaped_inj {a b s t : PyStr} (h : escaped a ++ s = escaped b ++ t) : a = b ∧ s = t := by
  induction a generalizing b with
  | nil =>
    cases b with
    | nil => exact ⟨rfl, (List.cons.inj h).2⟩
    | cons d b =>
      rw [escaped_cons] at h
      exact absurd (congrArg List.head? h).symm (escape_head d _)
  | cons c a ih =>
    cases b with
    | nil =>
      rw [escaped_cons] at h
      exact absurd (congrArg List.head? h) (escape_head c _)
    | cons d b =>
      rw [escaped_cons, escaped_cons] at h
      have hread := congrArg unescape h
      rw [unescape_escape, unescape_escape] at hread
      obtain ⟨rfl, hrest⟩ := Prod.mk.inj (Option.some.inj hread)
      obtain ⟨rfl, hst⟩ := ih hrest
      exact ⟨rfl, hst⟩

end Strings

section Values

theorem render_list_nil (s : PyStr) : render (.list []) ++ s = point '[' :: point ']' :: s := by
  rw [render]
  rfl

theorem render_list_cons (item : Value) (rest : List Value) (s : PyStr) :
    render (.list (item :: rest)) ++ s =
      point '[' :: (render item ++ (renderItems rest ++ point ']' :: s)) := by
  simp [render]

theorem render_record_nil (s : PyStr) :
    render (.record []) ++ s = point '\x7b' :: point '\x7d' :: s := by
  rw [render]
  rfl

theorem render_record_cons (key : PyStr) (value : Value) (rest : List (PyStr × Value)) (s : PyStr) :
    render (.record ((key, value) :: rest)) ++ s = point '\x7b' :: point '"' ::
      (escaped key ++ point ':' :: (render value ++ (renderFields rest ++ point '\x7d' :: s))) := by
  simp [render]

theorem renderItems_cons (item : Value) (rest : List Value) (s : PyStr) :
    renderItems (item :: rest) ++ s = point ',' :: (render item ++ (renderItems rest ++ s)) := by
  simp [renderItems]

theorem renderFields_cons (key : PyStr) (value : Value) (rest : List (PyStr × Value)) (s : PyStr) :
    renderFields ((key, value) :: rest) ++ s = point ',' :: point '"' ::
      (escaped key ++ point ':' :: (render value ++ (renderFields rest ++ s))) := by
  simp [renderFields]

/-- What may follow a value: nothing, or a comma or a closing bracket. -/
def Delimited (rest : PyStr) : Prop :=
  ∀ c ∈ rest.head?, c ∈ lit ",]\x7d"

theorem delimited_cons {c : CodePoint} (h : c ∈ lit ",]\x7d") (rest : PyStr) :
    Delimited (c :: rest) := by
  intro d hd
  obtain rfl := Option.some.inj hd
  exact h

theorem number_inj {a b s t : PyStr} (ha : a.all isNumberChar = true)
    (hb : b.all isNumberChar = true) (hs : Delimited s) (ht : Delimited t)
    (h : a ++ s = b ++ t) : a = b ∧ s = t := by
  have hstop {c : CodePoint} {rest : PyStr} (hrest : Delimited (c :: rest)) :
      isNumberChar c = false := by
    have hc := hrest c rfl
    have hall : ((lit ",]\x7d").all fun d => !isNumberChar d) = true := by decide
    have hstops := List.all_eq_true.mp hall c hc
    simpa using hstops
  induction a generalizing b with
  | nil =>
    cases b with
    | nil => exact ⟨rfl, h⟩
    | cons d b =>
      rw [List.nil_append] at h
      rw [h] at hs
      have hd := (Bool.and_eq_true_iff.mp hb).1
      rw [hstop hs] at hd
      cases hd
  | cons c a ih =>
    cases b with
    | nil =>
      rw [List.nil_append] at h
      rw [← h] at ht
      have hc := (Bool.and_eq_true_iff.mp ha).1
      rw [hstop ht] at hc
      cases hc
    | cons d b =>
      obtain ⟨rfl, hrest⟩ := List.cons.inj h
      obtain ⟨rfl, hst⟩ := ih (Bool.and_eq_true_iff.mp ha).2 (Bool.and_eq_true_iff.mp hb).2 hrest
      exact ⟨rfl, hst⟩

def leading (c : CodePoint) : ℕ :=
  if c = point 'n' then 0
  else if c = point 't' then 1
  else if c = point 'f' then 2
  else if c = point '"' then 4
  else if c = point '[' then 5
  else if c = point '\x7b' then 6
  else 3

def Value.kind : Value → ℕ
  | .null => 0
  | .flag true => 1
  | .flag false => 2
  | .number _ => 3
  | .text _ => 4
  | .list _ => 5
  | .record _ => 6

theorem leading_render (value : Value) (rest : PyStr) :
    ∃ c ∈ (render value ++ rest).head?, leading c = value.kind := by
  cases value with
  | null => exact ⟨_, rfl, rfl⟩
  | flag value => cases value <;> exact ⟨_, rfl, rfl⟩
  | number token =>
    obtain ⟨text, hne, hchars⟩ := token
    cases text with
    | nil => exact absurd rfl hne
    | cons c text =>
      have hc := (Bool.and_eq_true_iff.mp hchars).1
      have hall : ((lit "0123456789+-.e").all fun d => leading d = 3) = true := by
        decide
      have hleads := List.all_eq_true.mp hall c (of_decide_eq_true hc)
      exact ⟨c, rfl, of_decide_eq_true hleads⟩
  | text value => exact ⟨_, rfl, rfl⟩
  | list items => cases items <;> exact ⟨_, rfl, rfl⟩
  | record fields => rcases fields with _ | ⟨⟨key, value⟩, rest⟩ <;> exact ⟨_, rfl, rfl⟩

theorem kind_eq {v w : Value} {s t : PyStr} (h : render v ++ s = render w ++ t) :
    v.kind = w.kind := by
  obtain ⟨c, hc, hv⟩ := leading_render v s
  obtain ⟨d, hd, hw⟩ := leading_render w t
  rw [h] at hc
  obtain rfl := Option.some.inj (hc.symm.trans hd)
  exact hv.symm.trans hw

theorem render_ne_close (value : Value) (rest close : PyStr) :
    render value ++ rest ≠ point ']' :: close := by
  intro h
  cases value with
  | null => exact absurd (List.cons.inj h).1 (by decide)
  | flag value => cases value <;> exact absurd (List.cons.inj h).1 (by decide)
  | number token =>
    obtain ⟨text, hne, hchars⟩ := token
    cases text with
    | nil => exact absurd rfl hne
    | cons c text =>
      obtain rfl : c = point ']' := (List.cons.inj h).1
      exact absurd (Bool.and_eq_true_iff.mp hchars).1 (by decide)
  | text value => exact absurd (List.cons.inj h).1 (by decide)
  | list items => cases items <;> exact absurd (List.cons.inj h).1 (by decide)
  | record fields =>
    rcases fields with _ | ⟨⟨key, value⟩, rest⟩ <;> exact absurd (List.cons.inj h).1 (by decide)

theorem delimited_items (items : List Value) (rest : PyStr) :
    Delimited (renderItems items ++ point ']' :: rest) := by
  cases items <;> exact delimited_cons (by decide) _

theorem delimited_fields (fields : List (PyStr × Value)) (rest : PyStr) :
    Delimited (renderFields fields ++ point '\x7d' :: rest) := by
  rcases fields with _ | ⟨⟨key, value⟩, fields⟩ <;> exact delimited_cons (by decide) _

mutual

theorem render_inj : ∀ (v w : Value) (s t : PyStr), Delimited s → Delimited t →
    render v ++ s = render w ++ t → v = w ∧ s = t
  | .null, w, s, t, _, _, h => by
    have hkind := kind_eq h
    cases w with
    | null => exact ⟨rfl, List.append_cancel_left h⟩
    | flag value => cases value <;> cases hkind
    | _ => cases hkind
  | .flag true, w, s, t, _, _, h => by
    have hkind := kind_eq h
    cases w with
    | flag value =>
      cases value with
      | true => exact ⟨rfl, List.append_cancel_left h⟩
      | false => cases hkind
    | _ => cases hkind
  | .flag false, w, s, t, _, _, h => by
    have hkind := kind_eq h
    cases w with
    | flag value =>
      cases value with
      | true => cases hkind
      | false => exact ⟨rfl, List.append_cancel_left h⟩
    | _ => cases hkind
  | .number token, w, s, t, hs, ht, h => by
    have hkind := kind_eq h
    cases w with
    | number other =>
      obtain ⟨htext, hst⟩ := number_inj token.chars other.chars hs ht h
      refine ⟨?_, hst⟩
      cases token
      cases other
      cases htext
      rfl
    | flag value => cases value <;> cases hkind
    | _ => cases hkind
  | .text value, w, s, t, _, _, h => by
    have hkind := kind_eq h
    cases w with
    | text other =>
      obtain ⟨rfl, hst⟩ := escaped_inj (List.cons.inj h).2
      exact ⟨rfl, hst⟩
    | flag value => cases value <;> cases hkind
    | _ => cases hkind
  | .list [], w, s, t, _, _, h => by
    have hkind := kind_eq h
    cases w with
    | list items =>
      cases items with
      | nil => exact ⟨rfl, List.append_cancel_left h⟩
      | cons item rest =>
        rw [render_list_nil, render_list_cons] at h
        exact absurd (List.cons.inj h).2.symm (render_ne_close item _ _)
    | flag value => cases value <;> cases hkind
    | _ => cases hkind
  | .list (item :: rest), w, s, t, _, _, h => by
    have hkind := kind_eq h
    cases w with
    | list items =>
      rw [render_list_cons] at h
      cases items with
      | nil =>
        rw [render_list_nil] at h
        exact absurd (List.cons.inj h).2 (render_ne_close item _ _)
      | cons other others =>
        rw [render_list_cons] at h
        obtain ⟨rfl, htail⟩ := render_inj item other _ _ (delimited_items rest s)
          (delimited_items others t) (List.cons.inj h).2
        obtain ⟨rfl, hst⟩ := renderItems_inj rest others s t htail
        exact ⟨rfl, hst⟩
    | flag value => cases value <;> cases hkind
    | _ => cases hkind
  | .record [], w, s, t, _, _, h => by
    have hkind := kind_eq h
    cases w with
    | record fields =>
      rcases fields with _ | ⟨⟨key, value⟩, rest⟩
      · exact ⟨rfl, List.append_cancel_left h⟩
      · rw [render_record_nil, render_record_cons] at h
        exact absurd (List.cons.inj (List.cons.inj h).2).1 (by decide)
    | flag value => cases value <;> cases hkind
    | _ => cases hkind
  | .record ((key, value) :: rest), w, s, t, _, _, h => by
    have hkind := kind_eq h
    cases w with
    | record fields =>
      rw [render_record_cons] at h
      rcases fields with _ | ⟨⟨other, otherValue⟩, others⟩
      · rw [render_record_nil] at h
        exact absurd (List.cons.inj (List.cons.inj h).2).1 (by decide)
      · rw [render_record_cons] at h
        obtain ⟨rfl, htail⟩ := escaped_inj (List.cons.inj (List.cons.inj h).2).2
        obtain ⟨rfl, hfields⟩ := render_inj value otherValue _ _ (delimited_fields rest s)
          (delimited_fields others t) (List.cons.inj htail).2
        obtain ⟨rfl, hst⟩ := renderFields_inj rest others s t hfields
        exact ⟨rfl, hst⟩
    | flag value => cases value <;> cases hkind
    | _ => cases hkind

theorem renderItems_inj : ∀ (a b : List Value) (s t : PyStr),
    renderItems a ++ point ']' :: s = renderItems b ++ point ']' :: t → a = b ∧ s = t
  | [], b, s, t, h => by
    cases b with
    | nil => exact ⟨rfl, (List.cons.inj h).2⟩
    | cons w b => exact absurd (List.cons.inj h).1 (by decide)
  | v :: a, b, s, t, h => by
    cases b with
    | nil => exact absurd (List.cons.inj h).1 (by decide)
    | cons w b =>
      rw [renderItems_cons, renderItems_cons] at h
      obtain ⟨rfl, htail⟩ := render_inj v w _ _ (delimited_items a s) (delimited_items b t)
        (List.cons.inj h).2
      obtain ⟨rfl, hst⟩ := renderItems_inj a b s t htail
      exact ⟨rfl, hst⟩

theorem renderFields_inj : ∀ (a b : List (PyStr × Value)) (s t : PyStr),
    renderFields a ++ point '\x7d' :: s = renderFields b ++ point '\x7d' :: t → a = b ∧ s = t
  | [], b, s, t, h => by
    rcases b with _ | ⟨⟨key, value⟩, b⟩
    · exact ⟨rfl, (List.cons.inj h).2⟩
    · exact absurd (List.cons.inj h).1 (by decide)
  | (key, value) :: a, b, s, t, h => by
    rcases b with _ | ⟨⟨other, otherValue⟩, b⟩
    · exact absurd (List.cons.inj h).1 (by decide)
    · rw [renderFields_cons, renderFields_cons] at h
      obtain ⟨rfl, htail⟩ := escaped_inj (List.cons.inj (List.cons.inj h).2).2
      obtain ⟨rfl, hfields⟩ := render_inj value otherValue _ _ (delimited_fields a s)
        (delimited_fields b t) (List.cons.inj htail).2
      obtain ⟨rfl, hst⟩ := renderFields_inj a b s t hfields
      exact ⟨rfl, hst⟩

end

theorem render_injective {v w : Value} (h : render v = render w) : v = w := by
  have hnil : Delimited [] := fun c hc => by cases hc
  refine (render_inj v w [] [] hnil hnil ?_).1
  rw [h]

end Values

end JsonText
