import OpenADA.Pdk.Inspect

/-! The cards through which a deck reaches outside itself, and that an inspection without an error
has seen them. -/
namespace OpenADA.Pdk

open PyText SpiceText

section Reading

/-- The file a card names: a library with or without a section, an included file, or an OSDI
module. -/
def spiceReference (card : List Char) : Option (ReferenceCard × List Char) :=
  match words isCSpace card with
  | [directive, path] =>
    if asciiLower directive = ".lib".toList then some (.lib, path)
    else if asciiLower directive = ".inc".toList ∨ asciiLower directive = ".include".toList then
      some (.inc, path)
    else if asciiLower directive = "osdi".toList ∨ asciiLower directive = "pre_osdi".toList then
      some (.preOsdi, path)
    else none
  | [directive, path, _] =>
    if asciiLower directive = ".lib".toList then some (.lib, path) else none
  | _ => none

def PlainCard (line card : List Char) : Prop :=
  lineKind isCSpace line = .card card ∧ withoutInline isCSpace line = line

/-- A card on a line and the continuation lines right below it, without inline comments. -/
inductive Continued : List (List Char) → List Char → Prop where
  | single {line card : List Char} : PlainCard line card → Continued [line] card
  | more {lines : List (List Char)} {line card body text : List Char} : Continued lines card →
      lineKind isCSpace line = .more body text → withoutInline isCSpace line = line →
      Continued (lines ++ [line]) (card ++ ' ' :: body)

def SetsOptions (fields : List (List Char)) : Prop :=
  ∃ directive ∈ fields.head?,
    asciiLower directive = ".option".toList ∨ asciiLower directive = ".options".toList

def OptionCard (deck card : List Char) : Prop :=
  (∃ before lines after, physicalLines deck = before ++ lines ++ after ∧ Continued lines card) ∧
    SetsOptions (words isCSpace card)

/-- A card that assigns an option, with or without spaces around the equals sign. -/
def Assigns (name : List Char) (fields : List (List Char)) : Prop :=
  ∃ front word rest, fields = front ++ word :: rest ∧
    ((∃ spelled value, word = spelled ++ '=' :: value ∧ asciiLower spelled = asciiLower name) ∨
      (asciiLower word = asciiLower name ∧ ∃ value more, rest = ('=' :: value) :: more))

end Reading

section Matching

theorem equalsIgnoringCase_toLower (c : Char) : equalsIgnoringCase c.toLower c = true := by
  simp [equalsIgnoringCase]

theorem matchesWord_of_lower {word : String} {text : List Char}
    (h : asciiLower text = word.toList) : matchesWord word text = true := by
  unfold matchesWord asciiLower at *
  rw [← h, Bool.and_eq_true, decide_eq_true_eq, List.length_map]
  refine ⟨rfl, ?_⟩
  clear h
  induction text with
  | nil => rfl
  | cons c rest ih =>
    rw [List.map_cons, List.zip_cons_cons, List.all_cons, equalsIgnoringCase_toLower]
    exact ih

def sharesSpelling (word spelled : List Char) : Bool :=
  decide (word.length = spelled.length) &&
    (word.zip spelled).all fun pair => pair.1 = pair.2 || ['s', 'k', 'i'].contains pair.1

theorem sharesSpelling_of_matchesWord {word : String} {text : List Char}
    (h : matchesWord word text = true) : sharesSpelling word.toList (asciiLower text) = true := by
  unfold matchesWord at h
  rw [Bool.and_eq_true, decide_eq_true_eq] at h
  unfold sharesSpelling asciiLower
  rw [Bool.and_eq_true, decide_eq_true_eq, List.length_map]
  refine ⟨h.1.symm, ?_⟩
  obtain ⟨hlength, hall⟩ := h
  generalize word.toList = letters at hlength hall
  induction text generalizing letters with
  | nil =>
    rw [List.map_nil, List.zip_nil_right]
    rfl
  | cons c rest ih =>
    cases letters with
    | nil => cases hlength
    | cons letter letters =>
      rw [List.zip_cons_cons, List.all_cons, Bool.and_eq_true] at hall
      rw [List.map_cons, List.zip_cons_cons, List.all_cons, Bool.and_eq_true]
      refine ⟨?_, ih letters (Nat.succ.inj hlength) hall.2⟩
      have hletter := hall.1
      simp only [equalsIgnoringCase, Bool.or_eq_true, Bool.and_eq_true,
        decide_eq_true_eq] at hletter
      rw [Bool.or_eq_true, decide_eq_true_eq]
      rcases hletter with ((hlower | ⟨rfl, -⟩) | ⟨rfl, -⟩) | ⟨rfl, -⟩
      · exact .inl hlower.symm
      · exact .inr rfl
      · exact .inr rfl
      · exact .inr rfl

theorem matchesWord_eq_false {word : String} {text spelled : List Char}
    (h : asciiLower text = spelled) (hother : sharesSpelling word.toList spelled = false) :
    matchesWord word text = false := by
  by_contra hmatch
  rw [Bool.not_eq_false] at hmatch
  have hshares := sharesSpelling_of_matchesWord hmatch
  rw [h, hother] at hshares
  cases hshares

theorem matchReference_of_spiceReference {line card : List Char}
    {reference : ReferenceCard × List Char} (hwords : words isSpace line = words isCSpace card)
    (h : spiceReference card = some reference) : matchReference line = some reference := by
  unfold spiceReference at h
  unfold matchReference
  rw [hwords]
  generalize words isCSpace card = fields at h
  split at h
  next directive path =>
    show (if matchesWord ".lib" directive = true then some (ReferenceCard.lib, path)
      else if (matchesWord ".inc" directive || matchesWord ".include" directive) = true then
        some (ReferenceCard.inc, path)
      else if (matchesWord "osdi" directive || matchesWord "pre_osdi" directive) = true then
        some (ReferenceCard.preOsdi, path)
      else none) = some reference
    split_ifs at h with hlib hinc hosdi
    · rw [if_pos (matchesWord_of_lower hlib)]
      exact h
    · rcases hinc with hinc | hinc
      · rw [matchesWord_eq_false hinc (by decide), matchesWord_of_lower hinc]
        exact h
      · rw [matchesWord_eq_false hinc (by decide), matchesWord_of_lower hinc,
          Bool.or_true]
        exact h
    · rcases hosdi with hosdi | hosdi
      · rw [matchesWord_eq_false hosdi (by decide),
          matchesWord_eq_false hosdi (by decide),
          matchesWord_eq_false hosdi (by decide), matchesWord_of_lower hosdi]
        exact h
      · rw [matchesWord_eq_false hosdi (by decide),
          matchesWord_eq_false hosdi (by decide),
          matchesWord_eq_false hosdi (by decide), matchesWord_of_lower hosdi,
          Bool.or_true]
        exact h
  next directive path file =>
    show (if matchesWord ".lib" directive = true then some (ReferenceCard.lib, path) else none) =
      some reference
    split_ifs at h with hlib
    rw [if_pos (matchesWord_of_lower hlib)]
    exact h
  · cases h

end Matching

section References

variable (resolve : List Char → Option ResolvedPath)

/-- Within the first lines, the references are those of the lines, up to their number. -/
theorem foldl_addReference {lines : List (List Char × ℕ)}
    (hlines : ∀ line ∈ lines, line.2 ≤ maxInspectedLines) (references : List CollateralReference) :
    lines.foldl (addReference resolve) references = references ++
      (lines.filterMap (lineReference resolve)).take (maxReferences - references.length) := by
  induction lines generalizing references with
  | nil => simp
  | cons line rest ih =>
    have hline := hlines line (List.mem_cons_self ..)
    rw [List.foldl_cons, ih fun line hline => hlines line (List.mem_cons_of_mem _ hline)]
    by_cases hfull : maxReferences ≤ references.length
    · rw [addReference, if_pos (.inr hfull), Nat.sub_eq_zero_of_le hfull, List.take_zero,
        List.take_zero]
    · rw [addReference, if_neg (by omega)]
      cases hreference : lineReference resolve line with
      | none => simp [hreference]
      | some reference =>
        have hroom : maxReferences - references.length =
            maxReferences - (references.length + 1) + 1 := by omega
        rw [List.filterMap_cons_some hreference, hroom, List.take_succ_cons]
        simp

theorem zipIdx_le {lines : List (List Char)} (hlines : lines.length ≤ maxInspectedLines) :
    ∀ line ∈ lines.zipIdx 1, line.2 ≤ maxInspectedLines := by
  intro line hline
  have h := (List.mem_zipIdx hline).2.1
  omega

theorem collateralReferences_eq {deck : List Char}
    (hlines : (splitLines deck).length ≤ maxInspectedLines) :
    collateralReferences resolve deck =
      (((splitLines deck).zipIdx 1).filterMap (lineReference resolve)).take maxReferences := by
  rw [collateralReferences, foldl_addReference resolve (zipIdx_le hlines)]
  rfl

def matchedLines (deck : List Char) : ℕ :=
  (splitLines deck).countP fun line => (matchReference line).isSome

theorem length_filterMap_lineReference (lines : List (List Char)) (start : ℕ) :
    ((lines.zipIdx start).filterMap (lineReference resolve)).length ≤
      lines.countP fun line => (matchReference line).isSome := by
  induction lines generalizing start with
  | nil => exact Nat.zero_le _
  | cons line rest ih =>
    rw [List.zipIdx_cons, List.countP_cons]
    cases hreference : lineReference resolve (line, start) with
    | none =>
      rw [List.filterMap_cons_none hreference]
      exact (ih (start + 1)).trans (Nat.le_add_right _ _)
    | some reference =>
      have hmatch : (matchReference line).isSome = true := by
        unfold lineReference at hreference
        split_ifs at hreference
        obtain ⟨found, hfound, -⟩ := Option.map_eq_some_iff.mp hreference
        rw [hfound]
        rfl
      rw [List.filterMap_cons_some hreference, List.length_cons, if_pos hmatch]
      exact Nat.succ_le_succ (ih (start + 1))

theorem lineReference_of_spiceReference {line card : List Char} {kind : ReferenceCard}
    {path : List Char} (hagree : Agree isCSpace isSpace line) (hcard : PlainCard line card)
    (h : spiceReference card = some (kind, path)) (number : ℕ) :
    lineReference resolve (line, number) =
      some ⟨kind, stripQuotes path, number, resolve (stripQuotes path)⟩ := by
  obtain ⟨hkind, hinline⟩ := hcard
  unfold lineKind at hkind
  split_ifs at hkind
  rw [hinline] at hkind
  obtain ⟨rfl, c, hhead, hstar, -⟩ := head_of_rawKind hkind
  have hwords : words isSpace line = words isCSpace (trim isCSpace line) := by
    rw [words_trim, words_congr hagree]
  rw [head?_trim, lstrip_congr hagree] at hhead
  rw [lineReference, hhead, if_neg (by simpa using hstar),
    matchReference_of_spiceReference hwords h]
  rfl

/-- A deck's line with a card that names a file is among those the inspection reads. -/
theorem exists_lineReference {deck line card : List Char} {kind : ReferenceCard} {path : List Char}
    (hplain : isPlain deck = true) (hline : line ∈ physicalLines deck) (hcard : PlainCard line card)
    (h : spiceReference card = some (kind, path)) : ∃ number,
      (⟨kind, stripQuotes path, number, resolve (stripQuotes path)⟩ : CollateralReference) ∈
        ((splitLines deck).zipIdx 1).filterMap (lineReference resolve) := by
  have hsplit : line ∈ splitLines deck := by
    obtain ⟨tail, htail, heq⟩ := newlineLines_eq [] deck (by simp) hplain
    rw [physicalLines, heq] at hline
    rcases List.mem_append.mp hline with hline | hline
    · exact hline
    -- the empty line after the last newline is no card
    · rcases htail with rfl | rfl
      · cases hline
      · obtain rfl := List.mem_singleton.mp hline
        have hkind : lineKind isCSpace [] = .skip := by decide
        rw [PlainCard, hkind] at hcard
        cases hcard.1
  obtain ⟨n, hn⟩ := List.mem_iff_getElem?.mp hsplit
  refine ⟨1 + n, List.mem_filterMap.mpr ⟨(line, 1 + n), ?_, ?_⟩⟩
  · rw [List.mem_zipIdx_iff_le_and_getElem?_sub]
    exact ⟨Nat.le_add_right _ _, by simpa using hn⟩
  · have hagree := agree_of_mem_physicalLines hplain hline
    exact lineReference_of_spiceReference resolve hagree hcard h _

end References

section Assignments

variable (wordClass : WordClass) {name : List Char}

theorem lstrip_append_cons {c : Char} {text rest : List Char} (more : List Char)
    (h : lstrip isSpace text = c :: rest) : lstrip isSpace (text ++ more) = c :: rest ++ more := by
  rw [lstrip, List.dropWhile_append]
  rw [lstrip] at h
  rw [h]
  rfl

theorem zip_append_of_le {name text : List Char} (h : name.length ≤ text.length)
    (more : List Char) : name.zip (text ++ more) = name.zip text := by
  induction name generalizing text with
  | nil => rw [List.zip_nil_left, List.zip_nil_left]
  | cons c name ih =>
    cases text with
    | nil => cases h
    | cons d text =>
      rw [List.cons_append, List.zip_cons_cons, List.zip_cons_cons, ih (Nat.le_of_succ_le_succ h)]

theorem assignsHere_append {text : List Char} (more : List Char)
    (h : assignsHere name text = true) : assignsHere name (text ++ more) = true := by
  unfold assignsHere at h ⊢
  rw [Bool.and_eq_true, Bool.and_eq_true, decide_eq_true_eq, decide_eq_true_eq] at h ⊢
  obtain ⟨⟨hlength, hzip⟩, hequals⟩ := h
  obtain ⟨rest, hrest⟩ := List.head?_eq_some_iff.mp hequals
  refine ⟨⟨?_, ?_⟩, ?_⟩
  · rw [List.length_append]
    exact hlength.trans (Nat.le_add_right _ _)
  · rw [zip_append_of_le hlength]
    exact hzip
  · rw [List.drop_append_of_le_length hlength, lstrip_append_cons more hrest]
    rfl

theorem searchesName_append_right (more : List Char) {text : List Char} {previous : Option Char}
    (h : searchesName wordClass name previous text = true) :
    searchesName wordClass name previous (text ++ more) = true := by
  induction text generalizing previous with
  | nil => cases h
  | cons c rest ih =>
    rw [searchesName, Bool.or_eq_true] at h
    rw [List.cons_append, searchesName, Bool.or_eq_true]
    rcases h with h | h
    · rw [Bool.and_eq_true] at h
      refine .inl ?_
      rw [Bool.and_eq_true]
      exact ⟨h.1, assignsHere_append more h.2⟩
    · exact .inr (ih h)

theorem searchesName_append_left (before : List Char) {text : List Char} {previous : Option Char}
    (h : searchesName wordClass name (before.getLast?.or previous) text = true) :
    searchesName wordClass name previous (before ++ text) = true := by
  induction before generalizing previous with
  | nil => exact h
  | cons c before ih =>
    rw [List.cons_append, searchesName, Bool.or_eq_true]
    refine .inr (ih ?_)
    cases before with
    | nil => exact h
    | cons d before =>
      have hlast : ∃ e, (d :: before).getLast? = some e :=
        ⟨_, List.getLast?_eq_some_getLast (List.cons_ne_nil d before)⟩
      obtain ⟨e, he⟩ := hlast
      rw [List.getLast?_cons_cons, he, Option.some_or] at h
      rw [he, Option.some_or]
      exact h

theorem assignsHere_of_lower {spelled after rest : List Char}
    (hspelled : asciiLower spelled = asciiLower name)
    (hafter : lstrip isSpace after = '=' :: rest) :
    assignsHere name (spelled ++ after) = true := by
  have hlength : spelled.length = name.length := by
    have h := congrArg List.length hspelled
    rwa [asciiLower, asciiLower, List.length_map, List.length_map] at h
  unfold assignsHere
  rw [Bool.and_eq_true, Bool.and_eq_true, decide_eq_true_eq, ← hlength, List.drop_left, hafter,
    zip_append_of_le hlength.ge]
  refine ⟨⟨?_, ?_⟩, rfl⟩
  · rw [List.length_append]
    exact Nat.le_add_right _ _
  · clear hlength
    induction spelled generalizing name with
    | nil =>
      rw [List.zip_nil_right]
      rfl
    | cons c spelled ih =>
      cases name with
      | nil => rfl
      | cons d name =>
        obtain ⟨hc, hrest⟩ := List.cons.inj hspelled
        rw [List.zip_cons_cons, List.all_cons, ← hc, equalsIgnoringCase_toLower]
        exact ih hrest

/-- A name that starts a word and is followed by an equals sign is found. -/
theorem searchesName_word {previous : Option Char} {spelled after rest : List Char}
    (hprevious : ∀ c ∈ previous, isSpace c = true) (hspelled : asciiLower spelled = asciiLower name)
    (hname : ∃ c ∈ name.head?, c.isAlphanum = true) (hafter : lstrip isSpace after = '=' :: rest) :
    searchesName wordClass name previous (spelled ++ after) = true := by
  have hhere := assignsHere_of_lower hspelled hafter
  obtain ⟨d, hd, halnum⟩ := hname
  obtain ⟨ds, rfl⟩ := List.head?_eq_some_iff.mp hd
  cases spelled with
  | nil => cases hspelled
  | cons c cs =>
    have hc := isAlphanum_of_toLower (List.cons.inj hspelled).1 halnum
    have hbefore : previous.any wordClass.isWord = false := by
      cases previous with
      | none => rfl
      | some b => exact wordClass.space b (hprevious b rfl)
    rw [List.cons_append] at hhere ⊢
    rw [searchesName, hbefore, wordClass.ascii c (by rw [hc]; rfl), hhere]
    rfl

theorem searchesName_of_assigns {text : List Char} (hname : ∃ c ∈ name.head?, c.isAlphanum = true)
    (h : Assigns name (words isSpace text)) : searchesName wordClass name none text = true := by
  obtain ⟨front, word, rest, hwords, hassign⟩ := h
  obtain ⟨before, after, rfl, hbefore, hafter, hne, hword, hrest⟩ := exists_of_words_append hwords
  rw [List.append_assoc]
  apply searchesName_append_left
  rw [Option.or_none]
  rcases hassign with ⟨spelled, value, rfl, hspelled⟩ | ⟨hspelled, value, more, rfl⟩
  · rw [List.append_assoc]
    have hequals : lstrip isSpace ('=' :: value ++ after) = '=' :: (value ++ after) := by
      rw [List.cons_append, lstrip, List.dropWhile_cons_of_neg (by decide)]
    exact searchesName_word wordClass hbefore hspelled hname hequals
  · obtain ⟨gap, tail, rfl, hgap, -, -, -, -⟩ := exists_of_words_cons hrest
    have hequals : lstrip isSpace (gap ++ '=' :: value ++ tail) = '=' :: (value ++ tail) := by
      rw [List.append_assoc, lstrip, List.dropWhile_append_of_pos hgap, List.cons_append,
        List.dropWhile_cons_of_neg (by decide)]
    exact searchesName_word wordClass hbefore hspelled hname hequals

end Assignments

section Options

variable (wordClass : WordClass)

def OptionCards.all (state : OptionCards) : List (List Char) :=
  state.cards ++ state.current.toList

def readOption (state : OptionCards) (line : List Char) : OptionCards :=
  addOptionLine wordClass state (line, 0)

theorem foldl_addOptionLine {lines : List (List Char × ℕ)}
    (hlines : ∀ line ∈ lines, line.2 ≤ maxInspectedLines) (state : OptionCards) :
    lines.foldl (addOptionLine wordClass) state =
      (lines.map Prod.fst).foldl (readOption wordClass) state := by
  induction lines generalizing state with
  | nil => rfl
  | cons line rest ih =>
    have hline := hlines line (List.mem_cons_self ..)
    have hread : addOptionLine wordClass state line = readOption wordClass state line.1 := by
      rw [readOption, addOptionLine, addOptionLine, if_neg (Nat.not_lt.mpr hline),
        if_neg (Nat.not_lt.mpr (Nat.zero_le _))]
    rw [List.foldl_cons, List.map_cons, List.foldl_cons, hread]
    exact ih (fun line hline => hlines line (List.mem_cons_of_mem _ hline)) _

theorem all_readOption_nil (state : OptionCards) :
    (readOption wordClass state []).all = state.all := by
  obtain ⟨cards, current⟩ := state
  cases current with
  | none => rfl
  | some current => exact List.append_nil _

theorem optionCards_eq {deck : List Char} (hplain : isPlain deck = true)
    (hlines : (splitLines deck).length ≤ maxInspectedLines) : optionCards wordClass deck =
      ((physicalLines deck).foldl (readOption wordClass) ⟨[], none⟩).all := by
  have hsplit : optionCards wordClass deck =
      ((splitLines deck).foldl (readOption wordClass) ⟨[], none⟩).all := by
    rw [optionCards, foldl_addOptionLine wordClass (zipIdx_le hlines), List.zipIdx_map_fst]
    rfl
  obtain ⟨tail, htail, heq⟩ := newlineLines_eq [] deck (by simp) hplain
  rw [hsplit, physicalLines, heq, List.foldl_append]
  rcases htail with rfl | rfl
  · rfl
  · exact (all_readOption_nil wordClass _).symm

theorem exists_prefix_readOption {text : List Char} {state : OptionCards}
    (h : ∃ card ∈ state.all, text <+: card) (line : List Char) :
    ∃ card ∈ (readOption wordClass state line).all, text <+: card := by
  obtain ⟨card, hcard, hprefix⟩ := h
  obtain ⟨cards, current⟩ := state
  rw [readOption, addOptionLine, if_neg (Nat.not_lt.mpr (Nat.zero_le _))]
  split_ifs with hoption
  · exact ⟨card, List.mem_append_left _ hcard, hprefix⟩
  · cases current with
    | none => exact ⟨card, hcard, hprefix⟩
    | some current =>
      cases hbody : continuationBody line with
      | none => exact ⟨card, List.mem_append_left _ hcard, hprefix⟩
      | some body =>
        rcases List.mem_append.mp hcard with hcard | hcard
        · exact ⟨card, List.mem_append_left _ hcard, hprefix⟩
        · obtain rfl := List.mem_singleton.mp hcard
          exact ⟨card ++ ' ' :: body, List.mem_append_right _ (List.mem_singleton.mpr rfl),
            hprefix.trans (List.prefix_append _ _)⟩

theorem exists_prefix_foldl {text : List Char} (lines : List (List Char)) {state : OptionCards}
    (h : ∃ card ∈ state.all, text <+: card) :
    ∃ card ∈ (lines.foldl (readOption wordClass) state).all, text <+: card := by
  induction lines generalizing state with
  | nil => exact h
  | cons line rest ih => exact ih (exists_prefix_readOption wordClass h line)

theorem isOptionLine_of_words {line : List Char} (h : SetsOptions (words isSpace line)) :
    isOptionLine wordClass line = true := by
  obtain ⟨directive, hhead, hdirective⟩ := h
  obtain ⟨rest, hwords⟩ := List.head?_eq_some_iff.mp hhead
  obtain ⟨gap, after, rfl, hgap, hafter, hne, hword, -⟩ := exists_of_words_cons hwords
  obtain ⟨c, more, rfl⟩ := List.exists_cons_of_ne_nil hne
  have hstrip : lstrip isSpace (gap ++ (c :: more) ++ after) = (c :: more) ++ after := by
    rw [List.append_assoc, lstrip, List.dropWhile_append_of_pos hgap, List.cons_append,
      List.dropWhile_cons_of_neg (by rw [hword c (List.mem_cons_self ..)]; simp)]
  have hends : (after.head?.all fun c => !wordClass.isWord c) = true := by
    cases after with
    | nil => rfl
    | cons d after =>
      have hd := wordClass.space d (hafter d rfl)
      rw [List.head?_cons, Option.all_some, hd]
      rfl
  generalize c :: more = directive at *
  unfold isOptionLine
  rw [hstrip, Bool.or_eq_true, Bool.and_eq_true, Bool.and_eq_true]
  rcases hdirective with hdirective | hdirective
  · have hlength : directive.length = 7 := by
      have h := congrArg List.length hdirective
      rwa [asciiLower, List.length_map] at h
    refine .inr ?_
    rw [← hlength, List.take_left, List.drop_left]
    exact ⟨matchesWord_of_lower hdirective, hends⟩
  · have hlength : directive.length = 8 := by
      have h := congrArg List.length hdirective
      rwa [asciiLower, List.length_map] at h
    refine .inl ?_
    rw [← hlength, List.take_left, List.drop_left]
    exact ⟨matchesWord_of_lower hdirective, hends⟩

theorem PlainCard.words_eq {line card : List Char} (h : PlainCard line card)
    (hagree : Agree isCSpace isSpace line) :
    words isSpace line = words isCSpace card ∧ words isCSpace card ≠ [] := by
  obtain ⟨hkind, hinline⟩ := h
  unfold lineKind at hkind
  split_ifs at hkind
  rw [hinline] at hkind
  obtain ⟨rfl, c, hhead, -, -⟩ := head_of_rawKind hkind
  refine ⟨by rw [words_trim, words_congr hagree], ?_⟩
  have hc := hhead
  rw [head?_trim] at hc
  exact words_ne_nil (List.mem_of_head? hhead) (head?_lstrip hc)

theorem matchesWord_of_head {word : String} {letter c : Char} (text : List Char)
    (hword : word.toList.head? = some letter) (hc : equalsIgnoringCase letter c = false) :
    matchesWord word (c :: text) = false := by
  obtain ⟨letters, hletters⟩ := List.head?_eq_some_iff.mp hword
  rw [matchesWord, hletters, List.zip_cons_cons, List.all_cons, hc, Bool.false_and, Bool.and_false]

theorem continuation_words {line body text : List Char}
    (hkind : lineKind isCSpace line = .more body text)
    (hinline : withoutInline isCSpace line = line) (hagree : Agree isCSpace isSpace line) :
    isOptionLine wordClass line = false ∧ ∃ raw, continuationBody line = some raw ∧
      words isSpace raw = words isCSpace body := by
  unfold lineKind at hkind
  split_ifs at hkind
  rw [hinline] at hkind
  unfold rawKind at hkind
  have htrim := trim_congr hagree
  generalize trim isCSpace line = stripped at hkind htrim
  split at hkind
  · cases hkind
  · cases hkind
  next rest =>
    obtain ⟨rfl, -⟩ := LineKind.more.inj hkind
    have hhead : (lstrip isSpace line).head? = some '+' := by
      rw [← head?_trim, ← htrim]
      rfl
    obtain ⟨tail, htail⟩ := List.head?_eq_some_iff.mp hhead
    have hrest : rest = rstrip isSpace tail := by
      rw [trim, htail, rstrip_cons (by decide)] at htrim
      exact (List.cons.inj htrim).2
    have hsubset : tail ⊆ line := by
      intro c hc
      apply lstrip_subset isSpace line
      rw [htail]
      exact List.mem_cons_of_mem _ hc
    have hwords : words isSpace tail = words isCSpace (trim isCSpace rest) := by
      rw [words_trim, hrest, words_congr ((hagree.subset hsubset).subset (rstrip_subset _ _)),
        words_rstrip]
    constructor
    · unfold isOptionLine
      simp only [htail, List.take_succ_cons]
      rw [matchesWord_of_head _ rfl (by decide), matchesWord_of_head _ rfl (by decide),
        Bool.false_and, Bool.false_and, Bool.false_or]
    · unfold continuationBody
      rw [htail]
      cases tail with
      | nil => exact ⟨[], rfl, hwords⟩
      | cons c tail =>
        by_cases hc : isSpace c = true
        · refine ⟨tail, ?_, ?_⟩
          · simp [hc]
          · rw [← hwords, words_cons_space hc]
        · exact ⟨c :: tail, by simp [hc], hwords⟩
  · cases hkind

theorem Continued.words_ne_nil {lines : List (List Char)} {card : List Char}
    (h : Continued lines card) (hagree : ∀ line ∈ lines, Agree isCSpace isSpace line) :
    words isCSpace card ≠ [] := by
  induction h with
  | single hcard => exact (hcard.words_eq (hagree _ (List.mem_singleton.mpr rfl))).2
  | more _ _ _ ih =>
    rw [words_append_cons rfl]
    intro hempty
    exact ih (fun line hline => hagree line (List.mem_append_left _ hline))
      (List.append_eq_nil_iff.mp hempty).1

theorem Continued.exists_current {lines : List (List Char)} {card : List Char}
    (h : Continued lines card) (hagree : ∀ line ∈ lines, Agree isCSpace isSpace line)
    (hoption : SetsOptions (words isCSpace card)) (state : OptionCards) :
    ∃ raw, (lines.foldl (readOption wordClass) state).current = some raw ∧
      words isSpace raw = words isCSpace card := by
  induction h with
  | @single line card hcard =>
    obtain ⟨hwords, -⟩ := hcard.words_eq (hagree line (List.mem_singleton.mpr rfl))
    refine ⟨line, ?_, hwords⟩
    rw [← hwords] at hoption
    rw [List.foldl_cons, List.foldl_nil, readOption, addOptionLine,
      if_neg (Nat.not_lt.mpr (Nat.zero_le _)), if_pos (isOptionLine_of_words wordClass hoption)]
  | @more lines line card body text hlines hkind hinline ih =>
    have hbefore : ∀ line ∈ lines, Agree isCSpace isSpace line :=
      fun line hline => hagree line (List.mem_append_left _ hline)
    have hline := hagree line (List.mem_append_right _ (List.mem_singleton.mpr rfl))
    rw [words_append_cons rfl] at hoption ⊢
    have hcard : SetsOptions (words isCSpace card) := by
      obtain ⟨first, rest, hfields⟩ :=
        List.exists_cons_of_ne_nil (hlines.words_ne_nil hbefore)
      rw [hfields] at hoption ⊢
      exact hoption
    obtain ⟨raw, hcurrent, hraw⟩ := ih hbefore hcard
    obtain ⟨hnot, added, hadded, hbody⟩ := continuation_words wordClass hkind hinline hline
    refine ⟨raw ++ ' ' :: added, ?_, ?_⟩
    · rw [List.foldl_append, List.foldl_cons, List.foldl_nil, readOption, addOptionLine,
        if_neg (Nat.not_lt.mpr (Nat.zero_le _)), if_neg (by rw [hnot]; simp), hcurrent, hadded]
    · rw [words_append_cons rfl, hraw, hbody]

theorem declaresOption_of_assigns {deck card name : List Char} (hplain : isPlain deck = true)
    (hlines : (splitLines deck).length ≤ maxInspectedLines) (hcard : OptionCard deck card)
    (hname : ∃ c ∈ name.head?, c.isAlphanum = true) (h : Assigns name (words isCSpace card)) :
    declaresOption wordClass deck name = true := by
  obtain ⟨⟨before, lines, after, hdeck, hlines'⟩, hoption⟩ := hcard
  have hagree : ∀ line ∈ lines, Agree isCSpace isSpace line := by
    intro line hline
    apply agree_of_mem_physicalLines hplain
    rw [hdeck]
    exact List.mem_append_left _ (List.mem_append_right _ hline)
  obtain ⟨raw, hcurrent, hraw⟩ := hlines'.exists_current wordClass hagree hoption
    (before.foldl (readOption wordClass) ⟨[], none⟩)
  have hopen : ∃ found ∈ ((before ++ lines).foldl (readOption wordClass) ⟨[], none⟩).all,
      raw <+: found := by
    refine ⟨raw, ?_, List.prefix_refl raw⟩
    rw [List.foldl_append, OptionCards.all, hcurrent]
    exact List.mem_append_right _ (List.mem_singleton.mpr rfl)
  obtain ⟨found, hfound, more, rfl⟩ := exists_prefix_foldl wordClass after hopen
  rw [declaresOption, optionCards_eq wordClass hplain hlines, hdeck, List.foldl_append,
    List.any_eq_true]
  refine ⟨raw ++ more, hfound, searchesName_append_right wordClass more ?_⟩
  rw [← hraw] at h
  exact searchesName_of_assigns wordClass hname h

end Options

section Gate

variable (cases : CaseMap) (wordClass : WordClass) (registry : List CollateralProfile)
  (resolve : List Char → Option ResolvedPath)

/-- A path with a component that is the name of a registered analog PDK, as it is written or
resolved. -/
def InsideTree (path : List Char) : Prop :=
  ∃ profile ∈ registry, profile.analog = true ∧ cases.lower profile.pdkId ∈
    (((resolve path).map ResolvedPath.parts).getD [] ++ posixPathParts path ++
      windowsPathParts path).map cases.lower

/-- A file inside the tree of a PDK, and an OSDI module, is an error without a bound PDK. -/
theorem severity_referenceFinding {reference : CollateralReference}
    (hresolved : reference.resolved = resolve reference.rawPath)
    (h : reference.card = .preOsdi ∨ InsideTree cases registry resolve reference.rawPath) :
    (referenceFinding cases registry reference).severity = .error := by
  unfold referenceFinding
  simp only
  split_ifs with hforeign hosdi hmissing howner
  · rfl
  · rfl
  · rfl
  · rfl
  · refine absurd ?_ howner
    obtain ⟨profile, hprofile, hanalog, hinside⟩ := h.resolve_left hosdi
    rw [owningPdk, List.find?_isSome]
    refine ⟨profile, hprofile, ?_⟩
    rw [Bool.and_eq_true, decide_eq_true_eq, pathParts, hresolved]
    exact ⟨hanalog, hinside⟩

/-- A deck without an error has no card of a file that the bound PDK should bring, and sets no
option of its; with no PDK bound it loads no OSDI module and no file of a registered PDK. -/
theorem inspectDeckCollateral_quiet {deck : List Char} {boundPdk : Option (List Char)}
    (hplain : isPlain deck = true) (hlines : (splitLines deck).length ≤ maxInspectedLines)
    (hcount : boundPdk = none → matchedLines deck ≤ maxReferences)
    (hnames : ∀ id ∈ boundPdk, ∀ name ∈ ownedOptions registry id,
      ∃ c ∈ name.head?, c.isAlphanum = true)
    (hquiet : ∀ finding ∈ inspectDeckCollateral cases wordClass registry resolve deck boundPdk,
      finding.severity ≠ .error) :
    (∀ id ∈ boundPdk,
      (∀ line ∈ physicalLines deck, ∀ card, PlainCard line card → spiceReference card = none) ∧
      ∀ card, OptionCard deck card → ∀ name ∈ "scale".toList :: ownedOptions registry id,
        ¬ Assigns name (words isCSpace card)) ∧
    (boundPdk = none → ∀ line ∈ physicalLines deck, ∀ card kind path, PlainCard line card →
      spiceReference card = some (kind, path) →
        kind ≠ .preOsdi ∧ ¬ InsideTree cases registry resolve (stripQuotes path)) := by
  constructor
  · rintro id ⟨⟩
    have hnone : ¬ (collateralReferences resolve deck ≠ [] ∨
        declaresOption wordClass deck "scale".toList = true ∨
        (ownedOptions registry id).any (declaresOption wordClass deck) = true) := by
      intro hfound
      rw [inspectDeckCollateral] at hquiet
      simp only [if_pos hfound] at hquiet
      exact hquiet _ (List.mem_singleton.mpr rfl) rfl
    rw [not_or, not_or, not_not] at hnone
    obtain ⟨hreferences, hscale, howned⟩ := hnone
    constructor
    · intro line hline card hcard
      cases hreference : spiceReference card with
      | none => rfl
      | some reference =>
        obtain ⟨number, hmem⟩ := exists_lineReference resolve hplain hline hcard hreference
        rw [collateralReferences_eq resolve hlines, List.take_eq_nil_iff] at hreferences
        rw [hreferences.resolve_left (by decide)] at hmem
        cases hmem
    · intro card hcard name hname hassigns
      rcases List.mem_cons.mp hname with rfl | hname
      · apply hscale
        exact declaresOption_of_assigns wordClass hplain hlines hcard ⟨'s', rfl, rfl⟩ hassigns
      · apply howned
        rw [List.any_eq_true]
        refine ⟨name, hname, ?_⟩
        exact declaresOption_of_assigns wordClass hplain hlines hcard (hnames id rfl name hname)
          hassigns
  · rintro rfl line hline card kind path hcard hreference
    obtain ⟨number, hmem⟩ := exists_lineReference resolve hplain hline hcard hreference
    have hall : ((splitLines deck).zipIdx 1).filterMap (lineReference resolve) =
        collateralReferences resolve deck := by
      rw [collateralReferences_eq resolve hlines, List.take_of_length_le]
      exact (length_filterMap_lineReference resolve _ _).trans (hcount rfl)
    rw [hall] at hmem
    have hfinding := hquiet _ (List.mem_map_of_mem hmem)
    rw [← not_or]
    intro hbad
    exact hfinding (severity_referenceFinding cases registry resolve rfl hbad)

def sky130Collateral : CollateralProfile where
  pdkId := "sky130A".toList
  analog := true
  ngspiceOptions := ["wnflag=1".toList]
  corners := ["tt".toList, "ss".toList, "ff".toList, "sf".toList, "fs".toList]
  libraryPaths := ["libs.tech/ngspice/sky130.lib.spice".toList]
  osdiRelativePaths := []
  identityRelativePath := none

def roleDeck : List Char :=
  "* inverter\n.option reltol=1e-4\n+ method=gear\nM1 d g s b nmos.core W=2u L=130n\n.end\n".toList

theorem roleDeck_quiet : (∀ id ∈ some "sky130A".toList,
      (∀ line ∈ physicalLines roleDeck, ∀ card, PlainCard line card →
        spiceReference card = none) ∧
      ∀ card, OptionCard roleDeck card →
        ∀ name ∈ "scale".toList :: ownedOptions [sky130Collateral] id,
          ¬ Assigns name (words isCSpace card)) ∧
    (some "sky130A".toList = none → ∀ line ∈ physicalLines roleDeck, ∀ card kind path,
      PlainCard line card → spiceReference card = some (kind, path) →
        kind ≠ .preOsdi ∧
          ¬ InsideTree asciiCases [sky130Collateral] (fun _ => none) (stripQuotes path)) :=
  inspectDeckCollateral_quiet asciiCases asciiWords [sky130Collateral] (fun _ => none)
    (by decide) (by decide) (fun h => nomatch h)
    (by
      have h : (ownedOptions [sky130Collateral] "sky130A".toList).all fun name =>
          name.head?.any Char.isAlphanum := by
        decide
      rintro id ⟨⟩ name hname
      obtain ⟨c, hc, hletter⟩ := (Option.any_eq_true _ _).mp (List.all_eq_true.mp h name hname)
      exact ⟨c, hc, hletter⟩)
    (by decide)

def commentedDeck : List Char := "* inverter\n.lib sky130A/all.spice tt $ typical\n.end\n".toList

def crowdedDeck : List Char :=
  ("* inverter\n".toList ++ (List.replicate maxReferences ".inc a\n".toList).flatten) ++
    "pre_osdi psp103.osdi\n.end\n".toList

/-- Neither deck has a finding that is an error. -/
theorem references_unseen :
    (inspectDeckCollateral asciiCases asciiWords [sky130Collateral] (fun _ => none)
        commentedDeck (some "sky130A".toList) = [] ∧
      ∃ card ∈ simulatorCards commentedDeck, (spiceReference card).isSome = true) ∧
    ((∀ finding ∈ inspectDeckCollateral asciiCases asciiWords [sky130Collateral] (fun _ => none)
        crowdedDeck none, finding.severity ≠ .error) ∧
      ∃ card ∈ simulatorCards crowdedDeck, ∃ path,
        spiceReference card = some (.preOsdi, path)) := by
  have hcommented : commentedDeck = _ := String.toList_ofList
  have hcrowded : crowdedDeck = _ := append_literal
    (congrArg (· ++ (List.replicate maxReferences ".inc a\n".toList).flatten) String.toList_ofList) _
  rw [hcommented, hcrowded]
  refine ⟨⟨by decide +kernel, ".lib sky130A/all.spice tt".toList, by decide +kernel, ?_⟩,
    by decide +kernel, "pre_osdi psp103.osdi".toList, by decide +kernel, ?_⟩
  · decide
  · exact ⟨"psp103.osdi".toList, by decide⟩

end Gate

end OpenADA.Pdk
