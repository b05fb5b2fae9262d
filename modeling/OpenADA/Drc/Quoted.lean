import OpenADA.Library.SpiceText

/-! The paths and the tags of a native DRC report: components in quotation marks or bare, between
separators. -/
namespace OpenADA.Drc

open PyText

structure TokenLimits where
  separator : Char
  maximumParts : ℕ
  maximumPartChars : ℕ
  maximumTextChars : ℕ
  plain : separator ≠ '\'' ∧ separator ≠ '\\' ∧ isSpace separator = false

def quotedPart : List Char → Option (List Char × List Char)
  | [] => none
  | c :: rest =>
    if c = '\\' then
      match rest with
      | [] => none
      | d :: behind => (quotedPart behind).map fun read => (d :: read.1, read.2)
    else if c = '\'' then some ([], rest)
    else (quotedPart rest).map fun read => (c :: read.1, read.2)

def isMark (c : Char) : Bool := decide (c = '\'' ∨ c = '\\')

/-- The next component, and the text that starts with the separator behind it or is empty. -/
def nextPart (separator : Char) (text : List Char) : Option (List Char × List Char) :=
  match lstrip isSpace text with
  | [] => none
  | c :: rest =>
    if c = '\'' then
      match quotedPart rest with
      | none => none
      | some read =>
        let behind := lstrip isSpace read.2
        if behind = [] ∨ behind.head? = some separator then some (read.1, behind) else none
    else
      let run := (c :: rest).takeWhile fun d => decide (d ≠ separator)
      if run.any isMark then none
      else some (strip run, (c :: rest).dropWhile fun d => decide (d ≠ separator))

/-- A component that is neither empty nor too long nor holds a control character. -/
def admitsPart (limits : TokenLimits) (part : List Char) : Bool :=
  decide (part ≠ []) && decide (part.length ≤ limits.maximumPartChars) &&
    part.all fun c => decide (32 ≤ c.toNat ∧ c.toNat ≠ 127)

/-- The loop of `_parse_native_tokens`; every round reads a component and its separator. -/
def parseParts (limits : TokenLimits) :
    ℕ → List Char → List (List Char) → Option (List (List Char))
  | 0, _, _ => none
  | fuel + 1, text, parts =>
    match nextPart limits.separator text with
    | none => none
    | some (part, behind) =>
      if admitsPart limits part = false then none
      else if limits.maximumParts < parts.length + 1 then none
      else
        match behind with
        | [] => some (parts ++ [part])
        | c :: rest =>
          if c ≠ limits.separator then none
          else if rest = [] then none
          else parseParts limits fuel rest (parts ++ [part])

/-- `_parse_native_tokens`. -/
def parseNativeTokens (limits : TokenLimits) (value : List Char) : Option (List (List Char)) :=
  let text := strip value
  if text = [] then some []
  else if limits.maximumTextChars < text.length then none
  else parseParts limits text.length text []

def categoryPathLimits : TokenLimits where
  separator := '.'
  maximumParts := 128
  maximumPartChars := 512
  maximumTextChars := 4096
  plain := by decide

/-- `_parse_category_path`. -/
def parseCategoryPath (value : List Char) : Option (List (List Char)) :=
  parseNativeTokens categoryPathLimits value

def itemTagLimits : TokenLimits where
  separator := ','
  maximumParts := 256
  maximumPartChars := 512
  maximumTextChars := 4096
  plain := by decide

/-- `_parse_item_tags`. -/
def parseItemTags (value : List Char) : Option (List (List Char)) :=
  match parseNativeTokens itemTagLimits value with
  | none => none
  | some tags => if tags.Nodup then some tags else none

section Grammar

def Spaces (text : List Char) : Prop := ∀ c ∈ text, isSpace c = true

inductive Quoted : List Char → List Char → Prop
  | nil : Quoted [] []
  | plain {c : Char} {body part : List Char} : c ≠ '\'' → c ≠ '\\' → Quoted body part →
      Quoted (c :: body) (c :: part)
  | escaped {c : Char} {body part : List Char} : Quoted body part →
      Quoted ('\\' :: c :: body) (c :: part)

inductive Unclosed : List Char → Prop
  | nil : Unclosed []
  | escape : Unclosed ['\\']
  | plain {c : Char} {body : List Char} : c ≠ '\'' → c ≠ '\\' → Unclosed body → Unclosed (c :: body)
  | escaped {c : Char} {body : List Char} : Unclosed body → Unclosed ('\\' :: c :: body)

inductive Token (separator : Char) : List Char → List Char → Prop
  | quoted {before body after part : List Char} : Spaces before → Quoted body part → Spaces after →
      Token separator (before ++ '\'' :: (body ++ '\'' :: after)) part
  | bare {before : List Char} {c : Char} {run : List Char} : Spaces before → isSpace c = false →
      (∀ d ∈ c :: run, d ≠ separator ∧ isMark d = false) →
      Token separator (before ++ c :: run) (strip (c :: run))

inductive Written (limits : TokenLimits) : List Char → List (List Char) → Prop
  | last {token part : List Char} : Token limits.separator token part →
      admitsPart limits part = true → Written limits token [part]
  | more {token part rest : List Char} {parts : List (List Char)} :
      Token limits.separator token part → admitsPart limits part = true → Written limits rest parts →
      Written limits (token ++ limits.separator :: rest) (part :: parts)

/-- What no component starts: the end, a mark that is never closed, an empty quotation, or a
separator. -/
inductive Broken (limits : TokenLimits) : List Char → Prop
  | ended : Broken limits []
  | unclosed {body : List Char} : Unclosed body → Broken limits ('\'' :: body)
  | emptyQuotation {rest : List Char} : Broken limits ('\'' :: '\'' :: rest)
  | separator {rest : List Char} : Broken limits (limits.separator :: rest)
  | space {c : Char} {rest : List Char} : isSpace c = true → Broken limits rest →
      Broken limits (c :: rest)

end Grammar

def escape (c : Char) : List Char := if isMark c then ['\\', c] else [c]

def quote (part : List Char) : List Char := '\'' :: (part.flatMap escape ++ ['\''])

def quoteAll (separator : Char) (parts : List (List Char)) : List Char :=
  [separator].intercalate (parts.map quote)

section Quotations

variable {text body part rest : List Char}

theorem quotedPart_plain {c : Char} (hmark : c ≠ '\'') (hescape : c ≠ '\\') :
    quotedPart (c :: rest) = (quotedPart rest).map fun read => (c :: read.1, read.2) := by
  rw [quotedPart.eq_def]
  simp only [if_neg hescape, if_neg hmark]

theorem quotedPart_escaped (c : Char) : quotedPart ('\\' :: c :: rest) =
    (quotedPart rest).map fun read => (c :: read.1, read.2) := by
  rw [quotedPart.eq_def]
  rfl

theorem quotedPart_closed : quotedPart ('\'' :: rest) = some ([], rest) := by
  rw [quotedPart.eq_def]
  rfl

theorem quotedPart_quoted (h : Quoted body part) (rest : List Char) :
    quotedPart (body ++ '\'' :: rest) = some (part, rest) := by
  induction h with
  | nil => exact quotedPart_closed
  | plain hmark hescape _ ih =>
    rw [List.cons_append, quotedPart_plain hmark hescape, ih]
    rfl
  | escaped _ ih =>
    rw [List.cons_append, List.cons_append, quotedPart_escaped, ih]
    rfl

theorem quotedPart_unclosed (h : Unclosed body) : quotedPart body = none := by
  induction h with
  | nil => rfl
  | escape => rfl
  | plain hmark hescape _ ih =>
    rw [quotedPart_plain hmark hescape, ih]
    rfl
  | escaped _ ih =>
    rw [quotedPart_escaped, ih]
    rfl

theorem quoted_of_quotedPart (h : quotedPart text = some (part, rest)) :
    ∃ body, text = body ++ '\'' :: rest ∧ Quoted body part := by
  induction text using quotedPart.induct generalizing part with
  | case1 => cases h
  | case2 => cases h
  | case3 d behind ih =>
    rw [quotedPart_escaped] at h
    obtain ⟨⟨read, after⟩, hread, heq⟩ := Option.map_eq_some_iff.mp h
    obtain ⟨rfl, rfl⟩ := Prod.mk.inj heq
    obtain ⟨body, rfl, hbody⟩ := ih hread
    exact ⟨'\\' :: d :: body, rfl, .escaped hbody⟩
  | case4 tail hne =>
    rw [quotedPart_closed] at h
    obtain ⟨rfl, rfl⟩ := Prod.mk.inj (Option.some.inj h)
    exact ⟨[], rfl, .nil⟩
  | case5 c tail hescape hmark ih =>
    rw [quotedPart_plain hmark hescape] at h
    obtain ⟨⟨read, after⟩, hread, heq⟩ := Option.map_eq_some_iff.mp h
    obtain ⟨rfl, rfl⟩ := Prod.mk.inj heq
    obtain ⟨body, rfl, hbody⟩ := ih hread
    exact ⟨c :: body, rfl, .plain hmark hescape hbody⟩

theorem quoted_escape (part : List Char) : Quoted (part.flatMap escape) part := by
  induction part with
  | nil => exact .nil
  | cons c rest ih =>
    rw [List.flatMap_cons, escape]
    by_cases hmark : isMark c = true
    · rw [if_pos hmark]
      exact .escaped ih
    · rw [if_neg hmark]
      have hplain : ¬ (c = '\'' ∨ c = '\\') := fun h => hmark (decide_eq_true h)
      exact .plain (fun h => hplain (.inl h)) (fun h => hplain (.inr h)) ih

end Quotations

section Parts

variable {limits : TokenLimits} {text token part rest : List Char}

theorem lstrip_spaces {before : List Char} (h : Spaces before) (text : List Char) :
    lstrip isSpace (before ++ text) = lstrip isSpace text :=
  List.dropWhile_append_of_pos h

def AtSeparator (limits : TokenLimits) (rest : List Char) : Prop :=
  rest = [] ∨ rest.head? = some limits.separator

theorem AtSeparator.lstrip (h : AtSeparator limits rest) : lstrip isSpace rest = rest := by
  cases rest with
  | nil => rfl
  | cons c rest =>
    rcases h with h | h
    · cases h
    · obtain rfl := Option.some.inj h
      exact List.dropWhile_cons_of_neg (by rw [limits.plain.2.2]; simp)

theorem nextPart_token (h : Token limits.separator token part) (hrest : AtSeparator limits rest) :
    nextPart limits.separator (token ++ rest) = some (part, rest) := by
  unfold nextPart
  cases h with
  | @quoted before body after part hbefore hbody hafter =>
    have htext : lstrip isSpace ((before ++ '\'' :: (body ++ '\'' :: after)) ++ rest) =
        '\'' :: (body ++ '\'' :: (after ++ rest)) := by
      rw [List.append_assoc, lstrip_spaces hbefore]
      simp [lstrip, show isSpace '\'' = false by decide]
    rw [htext]
    simp only [if_pos, quotedPart_quoted hbody, lstrip_spaces hafter, hrest.lstrip]
    exact if_pos hrest
  | @bare before c run hbefore hspace hplain =>
    have htext : lstrip isSpace ((before ++ c :: run) ++ rest) = c :: (run ++ rest) := by
      rw [List.append_assoc, lstrip_spaces hbefore, lstrip, List.cons_append,
        List.dropWhile_cons_of_neg (by simp [hspace])]
    have hall : ∀ d ∈ c :: run, decide (d ≠ limits.separator) = true := fun d hd =>
      decide_eq_true (hplain d hd).1
    have hstop : rest.takeWhile (fun d => decide (d ≠ limits.separator)) = [] ∧
        rest.dropWhile (fun d => decide (d ≠ limits.separator)) = rest := by
      cases rest with
      | nil => exact ⟨rfl, rfl⟩
      | cons d behind =>
        rcases hrest with h | h
        · cases h
        · obtain rfl := Option.some.inj h
          simp
    have hmark : c ≠ '\'' := by
      rintro rfl
      exact absurd (hplain '\'' (List.mem_cons_self ..)).2 (by decide)
    have htake : (c :: (run ++ rest)).takeWhile (fun d => decide (d ≠ limits.separator)) =
        c :: run := by
      rw [← List.cons_append, List.takeWhile_append_of_pos hall, hstop.1, List.append_nil]
    have hdrop : (c :: (run ++ rest)).dropWhile (fun d => decide (d ≠ limits.separator)) = rest := by
      rw [← List.cons_append, List.dropWhile_append_of_pos hall, hstop.2]
    have hany : (c :: run).any isMark = false :=
      List.any_eq_false.mpr fun d hd => by rw [(hplain d hd).2]; simp
    rw [htext]
    simp only [if_neg hmark, htake, hdrop, hany]
    rfl

/-- What is read, unless it is empty, is a written component up to a separator. -/
theorem token_of_nextPart (h : nextPart limits.separator text = some (part, rest))
    (hne : part ≠ []) : ∃ token, text = token ++ rest ∧ Token limits.separator token part ∧
      AtSeparator limits rest := by
  have hbefore : Spaces (text.takeWhile isSpace) := fun c hc => List.mem_takeWhile_imp hc
  have htext : text = text.takeWhile isSpace ++ lstrip isSpace text :=
    List.takeWhile_append_dropWhile.symm
  unfold nextPart at h
  cases hbody : lstrip isSpace text with
  | nil =>
    rw [hbody] at h
    cases h
  | cons c behind =>
    simp only [hbody] at h
    rw [hbody] at htext
    by_cases hmark : c = '\''
    · subst hmark
      simp only [if_pos] at h
      cases hread : quotedPart behind with
      | none =>
        rw [hread] at h
        cases h
      | some read =>
        simp only [hread] at h
        split_ifs at h with hseparator
        obtain ⟨rfl, rfl⟩ := Prod.mk.inj (Option.some.inj h)
        obtain ⟨body, hbehind, hquoted⟩ := quoted_of_quotedPart hread
        have hafter : Spaces (read.2.takeWhile isSpace) := fun c hc => List.mem_takeWhile_imp hc
        refine ⟨_, ?_, .quoted hbefore hquoted hafter, hseparator⟩
        have hsplit : read.2 = read.2.takeWhile isSpace ++ lstrip isSpace read.2 :=
          List.takeWhile_append_dropWhile.symm
        conv_lhs => rw [htext, hbehind, hsplit]
        simp
    · simp only [if_neg hmark] at h
      split_ifs at h with hany
      obtain ⟨rfl, rfl⟩ := Prod.mk.inj (Option.some.inj h)
      have hspace : isSpace c = false := SpiceText.head?_lstrip (by rw [hbody]; rfl)
      by_cases hseparator : c = limits.separator
      · refine absurd ?_ hne
        rw [hseparator, List.takeWhile_cons_of_neg (by simp)]
        rfl
      · have htake : (c :: behind).takeWhile (fun d => decide (d ≠ limits.separator)) =
            c :: behind.takeWhile fun d => decide (d ≠ limits.separator) :=
          List.takeWhile_cons_of_pos (decide_eq_true hseparator)
        refine ⟨text.takeWhile isSpace ++
          (c :: behind.takeWhile fun d => decide (d ≠ limits.separator)), ?_, ?_, ?_⟩
        · rw [← htake, List.append_assoc, List.takeWhile_append_dropWhile]
          exact htext
        · rw [htake]
          refine .bare hbefore hspace fun d hd => ?_
          rw [← htake] at hd
          have hplain := List.mem_takeWhile_imp (p := fun d => decide (d ≠ limits.separator)) hd
          exact ⟨of_decide_eq_true hplain,
            Bool.eq_false_iff.mpr fun hmarked => hany (List.any_eq_true.mpr ⟨d, hd, hmarked⟩)⟩
        · cases hdrop : (c :: behind).dropWhile fun d => decide (d ≠ limits.separator) with
          | nil => exact .inl rfl
          | cons d after =>
            have hhead := List.head?_dropWhile_not (fun d => decide (d ≠ limits.separator))
              (c :: behind)
            rw [hdrop] at hhead
            exact .inr (congrArg some (by simpa using hhead))

end Parts

section Rounds

variable {limits : TokenLimits} {text token part rest : List Char} {parts : List (List Char)}

theorem admitsPart_ne_nil (h : admitsPart limits part = true) : part ≠ [] := by
  unfold admitsPart at h
  rw [Bool.and_eq_true, Bool.and_eq_true, decide_eq_true_eq] at h
  exact h.1.1

theorem Token.ne_nil {separator : Char} (h : Token separator token part) : token ≠ [] := by
  cases h <;> simp

theorem Written.ne_nil (h : Written limits text parts) : text ≠ [] := by
  cases h with
  | last htoken _ => exact htoken.ne_nil
  | more htoken _ _ => simp

theorem parseParts_more (hpart : Token limits.separator token part)
    (hadmits : admitsPart limits part = true) (hrest : rest ≠ []) (fuel : ℕ)
    (read : List (List Char)) :
    parseParts limits (fuel + 1) (token ++ limits.separator :: rest) read =
      if limits.maximumParts < read.length + 1 then none
      else parseParts limits fuel rest (read ++ [part]) := by
  have hnext := @nextPart_token limits token part (limits.separator :: rest) hpart (.inr rfl)
  simp only [parseParts, hnext, hadmits, if_neg hrest]
  simp

theorem parseParts_last (hpart : Token limits.separator token part)
    (hadmits : admitsPart limits part = true) (fuel : ℕ) (read : List (List Char)) :
    parseParts limits (fuel + 1) token read =
      if limits.maximumParts < read.length + 1 then none else some (read ++ [part]) := by
  have hnext := @nextPart_token limits token part [] hpart (.inl rfl)
  rw [List.append_nil] at hnext
  simp only [parseParts, hnext, hadmits]
  simp

theorem parseParts_written (h : Written limits text parts) {fuel : ℕ} (hfuel : text.length ≤ fuel)
    {read : List (List Char)} (hcount : read.length + parts.length ≤ limits.maximumParts) :
    parseParts limits fuel text read = some (read ++ parts) := by
  induction h generalizing fuel read with
  | @last token part htoken hadmits =>
    obtain ⟨fuel, rfl⟩ : ∃ n, fuel = n + 1 :=
      ⟨fuel - 1, by have := List.length_pos_iff.mpr htoken.ne_nil; omega⟩
    rw [List.length_singleton] at hcount
    rw [parseParts_last htoken hadmits, if_neg (by omega)]
  | @more token part rest parts htoken hadmits hrest ih =>
    rw [List.length_append, List.length_cons] at hfuel
    rw [List.length_cons] at hcount
    obtain ⟨fuel, rfl⟩ : ∃ n, fuel = n + 1 := ⟨fuel - 1, by omega⟩
    rw [parseParts_more htoken hadmits hrest.ne_nil, if_neg (by omega), ih (by omega)
      (by rw [List.length_append, List.length_singleton]; omega), List.append_assoc]
    rfl

theorem written_of_parseParts {fuel : ℕ} {read out : List (List Char)}
    (h : parseParts limits fuel text read = some out) :
    ∃ parts, out = read ++ parts ∧ Written limits text parts ∧
      out.length ≤ limits.maximumParts := by
  induction fuel generalizing text read with
  | zero => cases h
  | succ fuel ih =>
    cases hnext : nextPart limits.separator text with
    | none =>
      simp only [parseParts, hnext] at h
      cases h
    | some next =>
      obtain ⟨part, behind⟩ := next
      simp only [parseParts, hnext] at h
      split_ifs at h with hadmits hcount
      rw [Bool.not_eq_false] at hadmits
      obtain ⟨token, rfl, htoken, -⟩ := token_of_nextPart hnext (admitsPart_ne_nil hadmits)
      cases behind with
      | nil =>
        obtain rfl := Option.some.inj h
        refine ⟨[part], rfl, ?_, ?_⟩
        · rw [List.append_nil]
          exact .last htoken hadmits
        · rw [List.length_append, List.length_singleton]
          omega
      | cons c rest =>
        simp only at h
        split_ifs at h with hseparator hrest
        rw [not_not] at hseparator
        subst hseparator
        obtain ⟨parts, rfl, hparts, hlimit⟩ := ih h
        refine ⟨part :: parts, ?_, .more htoken hadmits hparts, hlimit⟩
        rw [List.append_assoc]
        rfl

theorem nextPart_broken (h : Broken limits text) {behind : List Char}
    (hnext : nextPart limits.separator text = some (part, behind)) : part = [] := by
  induction h with
  | ended => cases hnext
  | @unclosed body hbody =>
    have htext : lstrip isSpace ('\'' :: body) = '\'' :: body :=
      List.dropWhile_cons_of_neg (by decide)
    unfold nextPart at hnext
    rw [htext] at hnext
    simp only [if_pos, quotedPart_unclosed hbody] at hnext
    cases hnext
  | @emptyQuotation rest =>
    have htext : lstrip isSpace ('\'' :: '\'' :: rest) = '\'' :: '\'' :: rest :=
      List.dropWhile_cons_of_neg (by decide)
    unfold nextPart at hnext
    rw [htext] at hnext
    simp only [if_pos, quotedPart_closed] at hnext
    split_ifs at hnext
    exact (Prod.mk.inj (Option.some.inj hnext)).1.symm
  | @separator rest =>
    have htext : lstrip isSpace (limits.separator :: rest) = limits.separator :: rest :=
      List.dropWhile_cons_of_neg (by rw [limits.plain.2.2]; simp)
    have hrun : (limits.separator :: rest).takeWhile (fun d => decide (d ≠ limits.separator)) = [] :=
      List.takeWhile_cons_of_neg (by simp)
    unfold nextPart at hnext
    rw [htext] at hnext
    simp only [if_neg limits.plain.1, hrun, List.any_nil] at hnext
    exact (Prod.mk.inj (Option.some.inj hnext)).1.symm
  | @space c rest hspace _ ih =>
    refine ih ?_
    have htext : lstrip isSpace (c :: rest) = lstrip isSpace rest :=
      List.dropWhile_cons_of_pos hspace
    unfold nextPart at hnext ⊢
    rwa [htext] at hnext

theorem parseParts_broken (h : Broken limits text) (fuel : ℕ) (read : List (List Char)) :
    parseParts limits fuel text read = none := by
  cases fuel with
  | zero => rfl
  | succ fuel =>
    cases hnext : nextPart limits.separator text with
    | none => simp only [parseParts, hnext]
    | some next =>
      obtain ⟨part, behind⟩ := next
      obtain rfl := nextPart_broken h hnext
      simp only [parseParts, hnext]
      rfl

theorem parseParts_written_broken (h : Written limits text parts) (hbroken : Broken limits rest)
    (fuel : ℕ) (read : List (List Char)) :
    parseParts limits fuel (text ++ limits.separator :: rest) read = none := by
  by_cases hrest : rest = []
  · subst hrest
    induction h generalizing fuel read with
    | @last token part htoken hadmits =>
      cases fuel with
      | zero => rfl
      | succ fuel =>
        have hnext := @nextPart_token limits token part [limits.separator] htoken (.inr rfl)
        simp only [parseParts, hnext, hadmits]
        simp
    | @more token part next parts htoken hadmits hnext ih =>
      cases fuel with
      | zero => rfl
      | succ fuel =>
        rw [List.append_assoc, List.cons_append, parseParts_more htoken hadmits (by simp), ih]
        exact ite_self none
  · induction h generalizing fuel read with
    | @last token part htoken hadmits =>
      cases fuel with
      | zero => rfl
      | succ fuel =>
        rw [parseParts_more htoken hadmits hrest, parseParts_broken hbroken]
        exact ite_self none
    | @more token part next parts htoken hadmits hnext ih =>
      cases fuel with
      | zero => rfl
      | succ fuel =>
        rw [List.append_assoc, List.cons_append, parseParts_more htoken hadmits (by simp), ih]
        exact ite_self none

end Rounds

section Quoting

variable {limits : TokenLimits} {parts : List (List Char)}

theorem token_quote (separator : Char) (part : List Char) : Token separator (quote part) part := by
  have hspaces : Spaces [] := fun c hc => absurd hc List.not_mem_nil
  exact .quoted hspaces (quoted_escape part) hspaces

theorem quoteAll_singleton (separator : Char) (part : List Char) :
    quoteAll separator [part] = quote part := by
  rw [quoteAll, List.map_singleton, List.intercalate_singleton]

theorem quoteAll_cons_cons (separator : Char) (part next : List Char) (rest : List (List Char)) :
    quoteAll separator (part :: next :: rest) =
      quote part ++ separator :: quoteAll separator (next :: rest) := by
  rw [quoteAll, List.map_cons, List.map_cons, List.intercalate_cons_cons]
  simp [quoteAll]

theorem written_quoteAll (hne : parts ≠ []) (h : ∀ part ∈ parts, admitsPart limits part = true) :
    Written limits (quoteAll limits.separator parts) parts := by
  induction parts with
  | nil => exact absurd rfl hne
  | cons part rest ih =>
    have hpart := h part (List.mem_cons_self ..)
    cases rest with
    | nil =>
      rw [quoteAll_singleton]
      exact .last (token_quote _ _) hpart
    | cons next rest =>
      have hrest := ih (by simp) fun p hp => h p (List.mem_cons_of_mem _ hp)
      rw [quoteAll_cons_cons]
      exact .more (token_quote _ _) hpart hrest

theorem quoteAll_ends (separator : Char) (hne : parts ≠ []) :
    (∃ rest, quoteAll separator parts = '\'' :: rest) ∧
      ∃ front, quoteAll separator parts = front ++ ['\''] := by
  induction parts with
  | nil => exact absurd rfl hne
  | cons part rest ih =>
    cases rest with
    | nil =>
      rw [quoteAll_singleton]
      exact ⟨⟨_, rfl⟩, '\'' :: part.flatMap escape, rfl⟩
    | cons next rest =>
      obtain ⟨-, front, hfront⟩ := ih (by simp)
      rw [quoteAll_cons_cons]
      refine ⟨⟨_, rfl⟩, quote part ++ separator :: front, ?_⟩
      rw [hfront, List.append_assoc, List.cons_append]

theorem strip_quoteAll (separator : Char) (hne : parts ≠ []) :
    strip (quoteAll separator parts) = quoteAll separator parts := by
  obtain ⟨⟨rest, hrest⟩, front, hfront⟩ := quoteAll_ends separator hne
  have hleft : lstrip isSpace (quoteAll separator parts) = quoteAll separator parts := by
    rw [hrest]
    exact List.dropWhile_cons_of_neg (by decide)
  rw [strip, hleft, hfront]
  exact List.rdropWhile_concat_neg _ _ _ (by decide)

theorem parseNativeTokens_quoteAll (hne : parts ≠ [])
    (h : ∀ part ∈ parts, admitsPart limits part = true)
    (hcount : parts.length ≤ limits.maximumParts)
    (htext : (quoteAll limits.separator parts).length ≤ limits.maximumTextChars) :
    parseNativeTokens limits (quoteAll limits.separator parts) = some parts := by
  have hwritten := written_quoteAll hne h
  unfold parseNativeTokens
  rw [strip_quoteAll _ hne]
  simp only [if_neg hwritten.ne_nil, if_neg (not_lt.mpr htext)]
  exact parseParts_written hwritten le_rfl (by simpa using hcount)

theorem quoteAll_injective {first second : List (List Char)}
    (hfirst : ∀ part ∈ first, admitsPart limits part = true)
    (hsecond : ∀ part ∈ second, admitsPart limits part = true)
    (heq : quoteAll limits.separator first = quoteAll limits.separator second) : first = second := by
  by_cases hnone : first = []
  · subst hnone
    by_contra hne
    obtain ⟨⟨rest, hrest⟩, -⟩ := quoteAll_ends limits.separator (Ne.symm hne)
    rw [← heq] at hrest
    cases hrest
  by_cases hother : second = []
  · subst hother
    obtain ⟨⟨rest, hrest⟩, -⟩ := quoteAll_ends limits.separator hnone
    rw [heq] at hrest
    cases hrest
  -- limits wide enough for both
  let wide : TokenLimits := { limits with
    maximumParts := first.length + second.length
    maximumTextChars := (quoteAll limits.separator first).length }
  have hread : parseNativeTokens wide (quoteAll limits.separator first) = some first :=
    @parseNativeTokens_quoteAll wide first hnone hfirst (Nat.le_add_right _ _) le_rfl
  have hreadOther : parseNativeTokens wide (quoteAll limits.separator second) = some second :=
    @parseNativeTokens_quoteAll wide second hother hsecond (Nat.le_add_left _ _) (by rw [← heq])
  rw [heq] at hread
  exact Option.some.inj (hread.symm.trans hreadOther)

end Quoting

section Accepted

variable {limits : TokenLimits} {value : List Char} {parts : List (List Char)}

theorem parseNativeTokens_eq_some : parseNativeTokens limits value = some parts ↔
    strip value = [] ∧ parts = [] ∨
      Written limits (strip value) parts ∧ (strip value).length ≤ limits.maximumTextChars ∧
        parts.length ≤ limits.maximumParts := by
  unfold parseNativeTokens
  by_cases hempty : strip value = []
  · simp only [if_pos hempty, Option.some_inj]
    constructor
    · intro h
      exact .inl ⟨hempty, h.symm⟩
    · rintro (⟨-, h⟩ | ⟨h, -⟩)
      · exact h.symm
      · exact absurd hempty h.ne_nil
  · simp only [if_neg hempty]
    split_ifs with hlong
    · constructor
      · intro h
        cases h
      · rintro (⟨h, -⟩ | ⟨-, h, -⟩)
        · exact absurd h hempty
        · omega
    · constructor
      · intro h
        obtain ⟨read, rfl, hwritten, hcount⟩ := written_of_parseParts h
        exact .inr ⟨hwritten, not_lt.mp hlong, hcount⟩
      · rintro (⟨h, -⟩ | ⟨hwritten, -, hcount⟩)
        · exact absurd h hempty
        · exact parseParts_written hwritten le_rfl (by simpa using hcount)

/-- A text in which nothing starts a component is refused, at its start and behind a separator. -/
theorem parseNativeTokens_broken {rest : List Char} (hbroken : Broken limits rest)
    (h : strip value = rest ∧ rest ≠ [] ∨ ∃ before read, Written limits before read ∧
      strip value = before ++ limits.separator :: rest) :
    parseNativeTokens limits value = none := by
  unfold parseNativeTokens
  rcases h with ⟨htext, hne⟩ | ⟨before, read, hwritten, htext⟩
  · rw [htext]
    simp only [if_neg hne, parseParts_broken hbroken]
    exact ite_self none
  · have hne : strip value ≠ [] := by
      rw [htext]
      simp
    simp only [if_neg hne]
    rw [htext, parseParts_written_broken hwritten hbroken]
    exact ite_self none

end Accepted

/-- Reading inverts quoting: components within the limits are read back from their quoted text, and
different components have different texts. What is read is exactly what is written as components in
marks or bare between separators, each of them admitted; and a mark that is never closed, a
separator at the end and an empty component are refused wherever they stand. -/
theorem native_tokens_invert (limits : TokenLimits) :
    (∀ parts : List (List Char), parts ≠ [] → (∀ part ∈ parts, admitsPart limits part = true) →
      parts.length ≤ limits.maximumParts →
      (quoteAll limits.separator parts).length ≤ limits.maximumTextChars →
        parseNativeTokens limits (quoteAll limits.separator parts) = some parts) ∧
    (∀ first second : List (List Char), (∀ part ∈ first, admitsPart limits part = true) →
      (∀ part ∈ second, admitsPart limits part = true) →
      quoteAll limits.separator first = quoteAll limits.separator second → first = second) ∧
    (∀ value parts, parseNativeTokens limits value = some parts ↔
      strip value = [] ∧ parts = [] ∨
        Written limits (strip value) parts ∧ (strip value).length ≤ limits.maximumTextChars ∧
          parts.length ≤ limits.maximumParts) ∧
    ∀ value rest, Broken limits rest →
      (strip value = rest ∧ rest ≠ [] ∨ ∃ before read, Written limits before read ∧
        strip value = before ++ limits.separator :: rest) →
          parseNativeTokens limits value = none := by
  exact ⟨fun parts hne hadmits hcount htext => parseNativeTokens_quoteAll hne hadmits hcount htext,
    fun first second hfirst hsecond heq => quoteAll_injective hfirst hsecond heq,
    fun value parts => parseNativeTokens_eq_some,
    fun value rest hbroken h => parseNativeTokens_broken hbroken h⟩

end OpenADA.Drc
