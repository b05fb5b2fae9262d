import OpenADA.Library.Scopes
import OpenADA.Library.SpiceText
import OpenADA.Pdk.Gating
import OpenADA.Pdk.Parameters
import OpenADA.Scalars.Agreement

/-! The names of the instances of a deck, in the subcircuits that hold them, and what binding makes
of them. -/
namespace OpenADA.Pdk

open PyText Scopes
open SpiceText (asciiLower)

def firstWord (line : List Char) : List Char := (lstrip isSpace line).takeWhile fun c => !isSpace c

/-- What a line is to the names of the instances: a line that starts with a letter is an instance
under its first word. -/
def lineEvent (line : List Char) : Event (List Char) :=
  let word := firstWord line
  if word.head?.any Char.isAlpha then .item word
  else if asciiLower word = ".subckt".toList then .opens
  else if asciiLower word = ".ends".toList then .closes
  else if asciiLower word = ".control".toList then .mutes
  else if asciiLower word = ".endc".toList then .unmutes
  else if asciiLower word = ".end".toList then .stops
  else .other

def bodyLines (deck : List Char) : List (List Char) :=
  (splitKeeping (joinSpiceContinuations deck)).tail

/-- No two instances of one subcircuit, or outside of all, have the same name, whatever its case. -/
def DistinctInstances (lines : List (List Char)) : Prop :=
  Distinct asciiLower (lines.map lineEvent)

instance decidableDistinctInstances (lines : List (List Char)) :
    Decidable (DistinctInstances lines) := by
  unfold DistinctInstances Distinct
  infer_instance

section Calls

variable (cases : CaseMap) (rules : ParameterRules) (binding : Profile)

def namesSubcircuit (kind : ExtendedCard) (card : CardMatch) : Bool :=
  let lowered := String.ofList (cases.lower card.model)
  (decide (canonicalRole lowered ∈ kind.roles) || decide (lowered ∈ knownNative binding kind.roles))
    && (translateModel cases card.model binding).toOption.any fun target =>
      (binding.deviceCards.lookup target.2.1).any DeviceCard.subckt

def becomesCall (line : List Char) : Bool :=
  if isDirectiveLine line then false
  else
    let card := (splitCardCosmetics line).card
    match matchCard ['M', 'm'] 4 card with
    | some _ => decide (binding.devicePrefix = 'x')
    | none =>
      match extendedCards.find? fun kind => decide (cases.lower (card.take 1) = [kind.letter]) with
      | none => false
      | some kind =>
        let tokens := (card.splitOnP isSpace).filter fun token => decide (token ≠ [])
        if kind.letter ∈ ['r', 'c'] ∧ (tokens[3]?.any rules.isSpiceNumber) then false
        else (matchCard [kind.letter.toUpper, kind.letter] kind.nodes card).any
          (namesSubcircuit cases binding kind)

/-- The name of an instance of a deck, and whether its card becomes a call. -/
def markedEvent (line : List Char) : Event (List Char × Bool) :=
  (lineEvent line).map fun name => (name, becomesCall cases rules binding line)

/-- Two instances of one subcircuit, or outside of all: the first becomes a call, the second does
not, and the name of the second is that of the first with `x` before it. -/
def PrefixCollides (deck : List Char) : Prop :=
  ∃ called ∈ items ((bodyLines deck).map (markedEvent cases rules binding)),
    ∃ kept ∈ items ((bodyLines deck).map (markedEvent cases rules binding)),
      called.1 = kept.1 ∧ called.2.2 = true ∧ kept.2.2 = false ∧
        asciiLower kept.2.1 = 'x' :: asciiLower called.2.1

instance decidablePrefixCollides (deck : List Char) :
    Decidable (PrefixCollides cases rules binding deck) := by
  unfold PrefixCollides
  infer_instance

end Calls

def boundName (marked : List Char × Bool) : List Char :=
  if marked.2 then 'x' :: marked.1 else marked.1

section Names

variable {initials : List Char} {count : ℕ} {line : List Char} {card : CardMatch}

theorem firstWord_of_append {indent name rest : List Char}
    (hindent : ∀ c ∈ indent, isSpace c = true) (hne : name ≠ []) (hname : ∀ c ∈ name, isSpace c = false)
    (hrest : ∀ c ∈ rest.head?, isSpace c = true) : firstWord (indent ++ (name ++ rest)) = name := by
  obtain ⟨c, more, rfl⟩ := List.exists_cons_of_ne_nil hne
  have hc := hname c (List.mem_cons_self ..)
  have hstripped : lstrip isSpace (indent ++ (c :: more ++ rest)) = c :: more ++ rest := by
    rw [lstrip, List.dropWhile_append_of_pos hindent, List.cons_append, List.dropWhile_cons_of_neg]
    rw [hc]
    exact Bool.false_ne_true
  rw [firstWord, hstripped, List.takeWhile_append_of_pos fun d hd => by rw [hname d hd]; rfl]
  cases rest with
  | nil => simp
  | cons d rest =>
    rw [List.takeWhile_cons, hrest d rfl]
    simp

theorem splitBlank_eq (text : List Char) : splitBlank text = SpiceText.words isBlank text := by
  unfold splitBlank SpiceText.words
  congr 1
  funext token
  cases token <;> rfl

/-- A matched card is its name, a blank and the rest; the name starts with one of the initials. -/
theorem matchCard_name {text : List Char} (h : matchCard initials count text = some card)
    (hinitials : ∀ c ∈ initials, isSpace c = false) :
    ∃ blank rest, isSpace blank = true ∧ text = card.name ++ blank :: rest ∧
      (∃ c ∈ card.name.head?, c ∈ initials) ∧ ∀ d ∈ card.name, isSpace d = false := by
  unfold matchCard at h
  split_ifs at h with hguard
  obtain ⟨hhead, htokens⟩ := Bool.and_eq_true_iff.mp hguard
  obtain ⟨c, hc, hmem⟩ := (Option.any_eq_true _ _).mp hhead
  have hmem := of_decide_eq_true hmem
  split at h
  · rename_i name rest hsplit
    split at h
    · rename_i model params hdrop
      split_ifs at h
      obtain rfl := Option.some.inj h
      have hname : ∀ d ∈ name, isSpace d = false := by
        have hall := List.all_eq_true.mp htokens name (by rw [hsplit]; exact List.mem_cons_self ..)
        intro d hd
        simpa using List.all_eq_true.mp hall d hd
      rw [splitBlank_eq] at hsplit
      obtain ⟨gap, after, rfl, hgap, hafter, hne, -, hrest⟩ :=
        SpiceText.exists_of_words_cons hsplit
      obtain rfl : gap = [] := by
        cases gap with
        | nil => rfl
        | cons d more =>
          obtain rfl := Option.some.inj hc
          have hspace := isSpace_of_isBlank (hgap d (List.mem_cons_self ..))
          rw [hinitials d hmem] at hspace
          cases hspace
      cases after with
      | nil =>
        rw [show SpiceText.words isBlank [] = [] from rfl] at hrest
        rw [← hrest, List.drop_nil] at hdrop
        cases hdrop
      | cons blank more =>
        refine ⟨blank, more, isSpace_of_isBlank (hafter blank rfl), rfl, ⟨c, ?_, hmem⟩, hname⟩
        obtain ⟨d, letters, rfl⟩ := List.exists_cons_of_ne_nil hne
        exact hc
    · cases h
  · cases h

theorem exists_stripped_of_card (line : List Char) :
    ∃ rest, lstrip isBlank (splitLineEnding line).1 = (splitCardCosmetics line).card ++ rest := by
  unfold splitCardCosmetics
  simp only
  split
  · rename_i card comment hcomment
    split_ifs with hstar
    · exact ⟨[], (List.append_nil _).symm⟩
    · obtain ⟨happend, -⟩ := splitComment_append hcomment
      obtain ⟨stripped, hcard, -⟩ := rstrip_append isSpace card
      refine ⟨stripped ++ comment, ?_⟩
      rw [happend]
      conv_lhs => rw [← hcard]
      rw [List.append_assoc]
  · exact ⟨[], (List.append_nil _).symm⟩

theorem line_of_card (line : List Char) :
    ∃ indent rest, line = indent ++ ((splitCardCosmetics line).card ++ rest) ∧
      ∀ c ∈ indent, isSpace c = true := by
  obtain ⟨hbody, -⟩ := splitLineEnding_append line
  obtain ⟨rest, hrest⟩ := exists_stripped_of_card line
  refine ⟨(splitLineEnding line).1.takeWhile isBlank, rest ++ (splitLineEnding line).2, ?_, ?_⟩
  · rw [← List.append_assoc _ rest, ← hrest, ← List.append_assoc, lstrip_append, hbody]
  · exact fun c hc => isSpace_of_isBlank (List.mem_takeWhile_imp hc)

theorem lineEvent_matched
    (h : matchCard initials count (splitCardCosmetics line).card = some card)
    (hinitials : ∀ c ∈ initials, isSpace c = false ∧ c.isAlpha = true) :
    lineEvent line = .item card.name := by
  obtain ⟨blank, rest, hblank, hcard, ⟨c, hc, hmem⟩, hname⟩ :=
    matchCard_name h fun d hd => (hinitials d hd).1
  obtain ⟨indent, behind, hline, hindent⟩ := line_of_card line
  have hne : card.name ≠ [] := by
    intro hempty
    rw [hempty] at hc
    cases hc
  have hword : firstWord line = card.name := by
    rw [hline, hcard, List.append_assoc]
    refine firstWord_of_append hindent hne hname ?_
    intro d hd
    obtain rfl := Option.some.inj hd
    exact hblank
  simp only [lineEvent, hword]
  rw [if_pos]
  rw [Option.mem_def.mp hc]
  exact (hinitials c hmem).2

/-- A card that is put together from words begins with the first of them. -/
theorem lineEvent_rebuilt {indent name rest : List Char} {parts : List (List Char)}
    (hindent : ∀ c ∈ indent, isSpace c = true) (hname : ∀ c ∈ name, isSpace c = false)
    (hhead : ∃ c ∈ name.head?, c.isAlpha = true) (hparts : parts ≠ []) :
    lineEvent (indent ++ joinBlank ([name] ++ parts) ++ rest) = .item name := by
  obtain ⟨c, hc, halpha⟩ := hhead
  have hne : name ≠ [] := by
    intro hempty
    rw [hempty] at hc
    cases hc
  have hjoined : joinBlank ([name] ++ parts) = name ++ ' ' :: joinBlank parts := by
    obtain ⟨second, more, rfl⟩ := List.exists_cons_of_ne_nil hparts
    rw [joinBlank, joinBlank, List.singleton_append, List.intercalate_cons_cons, List.append_assoc,
      List.singleton_append]
  have hword : firstWord (indent ++ joinBlank ([name] ++ parts) ++ rest) = name := by
    rw [hjoined, List.append_assoc, List.append_assoc]
    refine firstWord_of_append hindent hne hname ?_
    intro d hd
    obtain rfl := Option.some.inj hd
    rfl
  simp only [lineEvent, hword]
  rw [if_pos]
  rw [Option.mem_def.mp hc]
  exact halpha

end Names

section Lines

variable {cases : CaseMap} {alnum : Char → Bool} {rules : ParameterRules} {binding : Profile}
  {currents : List (List Char)} {line : List Char}

theorem isSpace_of_ignoringCase {c : Char}
    (h : equalsIgnoringCase 's' c = true ∨ equalsIgnoringCase 'a' c = true) :
    isSpace c = false := by
  by_contra hspace
  rw [Bool.not_eq_false] at hspace
  have hlower := SpiceText.isSpace_toLower c
  rw [hspace] at hlower
  have hrange : ¬ (c.toNat = 0x17F) := by
    intro hlong
    simp [isSpace, hlong] at hspace
  simp only [equalsIgnoringCase, Bool.or_eq_true, Bool.and_eq_true, decide_eq_true_eq] at h
  rcases h with (((h | h) | h) | h) | (((h | h) | h) | h)
  · rw [h] at hlower
    revert hlower
    decide
  · exact hrange h.2
  · exact absurd h.1 (by decide)
  · exact absurd h.1 (by decide)
  · rw [h] at hlower
    revert hlower
    decide
  · exact absurd h.1 (by decide)
  · exact absurd h.1 (by decide)
  · exact absurd h.1 (by decide)

/-- A line that begins as a save card does is none of the lines that names are read from. -/
theorem lineEvent_save {s a : Char} {rest text : List Char}
    (hs : equalsIgnoringCase 's' s = true) (ha : equalsIgnoringCase 'a' a = true)
    (h : lstrip isSpace text = '.' :: s :: a :: rest) : lineEvent text = .other := by
  have hword : ∃ more, firstWord text = '.' :: s :: a :: more := by
    refine ⟨rest.takeWhile fun c => !isSpace c, ?_⟩
    rw [firstWord, h, List.takeWhile_cons_of_pos (by rfl), List.takeWhile_cons_of_pos,
      List.takeWhile_cons_of_pos]
    · rw [isSpace_of_ignoringCase (Or.inr ha)]
      rfl
    · rw [isSpace_of_ignoringCase (Or.inl hs)]
      rfl
  obtain ⟨more, hword⟩ := hword
  have hlower : a.toLower = 'a' := by
    simpa [equalsIgnoringCase] using ha
  have hne : ∀ word : List Char, word[2]? ≠ some 'a' →
      asciiLower ('.' :: s :: a :: more) ≠ word := by
    rintro _ hthird rfl
    exact hthird (congrArg some hlower)
  simp only [lineEvent, hword]
  rw [if_neg (by rw [List.head?_cons]; decide), if_neg (hne _ (by decide)),
    if_neg (hne _ (by decide)), if_neg (hne _ (by decide)), if_neg (hne _ (by decide)),
    if_neg (hne _ (by decide))]

theorem lineEvent_extended (h : isSaveCard alnum line = true) :
    lineEvent (extendSaveCard cases alnum currents line) = .other ∧ lineEvent line = .other := by
  obtain ⟨s, a, v, e, rest, hstripped, hs, ha⟩ := letters_of_save h
  obtain ⟨more, hmore⟩ := @lstrip_extendSaveCard cases alnum currents line h
  rw [hstripped] at hmore
  exact ⟨lineEvent_save hs ha hmore, lineEvent_save hs ha hstripped⟩

theorem initials_mos : ∀ c ∈ ['M', 'm'], isSpace c = false ∧ c.isAlpha = true :=
  forall_chars (by decide)

theorem initials_extended {kind : ExtendedCard} (h : kind ∈ extendedCards) :
    ∀ c ∈ [kind.letter.toUpper, kind.letter], isSpace c = false ∧ c.isAlpha = true := by
  simp only [extendedCards, List.mem_cons, List.not_mem_nil, or_false] at h
  rcases h with rfl | rfl | rfl | rfl <;> exact forall_chars (by decide)

theorem isSpace_of_mem_indent (line : List Char) :
    ∀ c ∈ (splitCardCosmetics line).indent, isSpace c = true := by
  have hindent : (splitCardCosmetics line).indent =
      (splitLineEnding line).1.takeWhile isBlank := by
    have hbody := lstrip_append isBlank (splitLineEnding line).1
    have htake : (splitLineEnding line).1.take ((splitLineEnding line).1.length -
        (lstrip isBlank (splitLineEnding line).1).length) =
        (splitLineEnding line).1.takeWhile isBlank := by
      have hcut : (splitLineEnding line).1.length -
          (lstrip isBlank (splitLineEnding line).1).length =
          ((splitLineEnding line).1.takeWhile isBlank).length := by
        have hlength := congrArg List.length hbody
        rw [List.length_append] at hlength
        omega
      have hfront := congrArg (List.take ((splitLineEnding line).1.takeWhile isBlank).length) hbody
      rw [List.take_left] at hfront
      rw [hcut]
      exact hfront.symm
    unfold splitCardCosmetics
    simp only
    split
    · split_ifs <;> exact htake
    · exact htake
  rw [hindent]
  exact fun c hc => isSpace_of_isBlank (List.mem_takeWhile_imp hc)

theorem lineEvent_named {initials : List Char} {count : ℕ} {card : CardMatch}
    (h : matchCard initials count (splitCardCosmetics line).card = some card)
    (hinitials : ∀ c ∈ initials, isSpace c = false ∧ c.isAlpha = true) (called : Bool)
    {parts : List (List Char)} (hparts : parts ≠ []) (rest : List Char) :
    lineEvent line = .item card.name ∧
      lineEvent ((splitCardCosmetics line).indent ++
        joinBlank ([boundName (card.name, called)] ++ parts) ++ rest) =
          .item (boundName (card.name, called)) := by
  refine ⟨lineEvent_matched h hinitials, ?_⟩
  obtain ⟨blank, behind, -, -, ⟨c, hc, hmem⟩, hname⟩ :=
    matchCard_name h fun d hd => (hinitials d hd).1
  refine lineEvent_rebuilt (isSpace_of_mem_indent line) ?_ ?_ hparts
  · intro d hd
    cases called with
    | false => exact hname d hd
    | true =>
      rcases List.mem_cons.mp hd with rfl | hd
      · rfl
      · exact hname d hd
  · cases called with
    | false => exact ⟨c, hc, (hinitials c hmem).2⟩
    | true => exact ⟨'x', rfl, rfl⟩

/-- A MOS card is rewritten under its name, which takes an `x` where the PDK has subcircuits. -/
theorem rewriteMosCard_event {card : RewrittenCard}
    (h : rewriteMosCard cases rules line binding = .ok (some card)) :
    ∃ name, lineEvent line = .item name ∧
      lineEvent card.text = .item (boundName (name, becomesCall cases rules binding line)) := by
  unfold rewriteMosCard at h
  split at h
  · cases h
  rename_i hdirective
  simp only at h
  split at h
  · split at h <;> cases h
  rename_i parsed hparsed
  obtain ⟨⟨target, role, translated⟩, -, h⟩ := Except.bind_eq_ok.mp h
  obtain ⟨parameters, -, h⟩ := Except.bind_eq_ok.mp h
  obtain rfl := Option.some.inj (Except.ok.inj h)
  have hcall : becomesCall cases rules binding line = decide (binding.devicePrefix = 'x') := by
    rw [becomesCall, if_neg hdirective]
    simp only [hparsed]
  have hname : (if binding.devicePrefix = 'x' then 'x' :: parsed.name else parsed.name) =
      boundName (parsed.name, decide (binding.devicePrefix = 'x')) := by
    simp only [boundName, decide_eq_true_eq]
  obtain ⟨hline, htext⟩ := @lineEvent_named line ['M', 'm'] 4 parsed hparsed initials_mos
    (decide (binding.devicePrefix = 'x'))
    (parsed.nodes ++ [target.toList] ++ parameters.kept) (by simp)
    ((splitCardCosmetics line).comment ++ (splitCardCosmetics line).newline)
  refine ⟨parsed.name, hline, ?_⟩
  rw [hcall, ← htext, ← hname]
  simp only [List.append_assoc]

theorem matchCard_of_mos_none (hdirective : ¬ isDirectiveLine line = true)
    (h : rewriteMosCard cases rules line binding = .ok none) :
    matchCard ['M', 'm'] 4 (splitCardCosmetics line).card = none := by
  unfold rewriteMosCard at h
  rw [if_neg hdirective] at h
  simp only at h
  cases hparsed : matchCard ['M', 'm'] 4 (splitCardCosmetics line).card with
  | none => rfl
  | some parsed =>
    rw [hparsed] at h
    obtain ⟨_, -, h⟩ := Except.bind_eq_ok.mp h
    obtain ⟨_, -, h⟩ := Except.bind_eq_ok.mp h
    cases h

/-- An extended card is rewritten under its name, which takes an `x` where the PDK's device is a
subcircuit. -/
theorem rewriteDeviceCard_event {card : RewrittenCard}
    (hmos : rewriteMosCard cases rules line binding = .ok none)
    (h : rewriteDeviceCard cases rules line binding = .ok (some card)) :
    ∃ name, lineEvent line = .item name ∧
      lineEvent card.text = .item (boundName (name, becomesCall cases rules binding line)) := by
  unfold rewriteDeviceCard at h
  split at h
  · cases h
  rename_i hdirective
  have hnone := matchCard_of_mos_none hdirective hmos
  simp only at h
  split at h
  · cases h
  rename_i kind hkind
  split at h
  · cases h
  rename_i hpassive
  split at h
  · split at h <;> cases h
  rename_i parsed hparsed
  split at h
  · split at h
    · obtain ⟨_, -, h⟩ := Except.bind_eq_ok.mp h
      cases h
    · cases h
  rename_i hknown
  unfold rewriteExtended at h
  obtain ⟨⟨target, role, translated⟩, htranslate, h⟩ := Except.bind_eq_ok.mp h
  simp only at h
  split at h
  · cases h
  rename_i spec hspec
  obtain ⟨parameters, -, h⟩ := Except.bind_eq_ok.mp h
  obtain rfl := Option.some.inj (Except.ok.inj h)
  have hcall : becomesCall cases rules binding line = spec.subckt := by
    rw [becomesCall, if_neg hdirective]
    simp only [hnone, hkind, if_neg hpassive, hparsed, Option.any_some, namesSubcircuit, htranslate,
      Except.toOption, hspec]
    have hnative :
        (decide (canonicalRole (String.ofList (cases.lower parsed.model)) ∈ kind.roles) ||
          decide (String.ofList (cases.lower parsed.model) ∈ knownNative binding kind.roles)) =
          true := by
      rw [Bool.or_eq_true, decide_eq_true_eq, decide_eq_true_eq]
      by_contra hneither
      exact hknown (not_or.mp hneither)
    rw [hnative, Bool.true_and]
  have hname : (if spec.subckt = true then 'x' :: parsed.name else parsed.name) =
      boundName (parsed.name, spec.subckt) := rfl
  obtain ⟨hline, htext⟩ := lineEvent_named hparsed
    (initials_extended (List.mem_of_find?_eq_some hkind)) spec.subckt
    (show parsed.nodes.take (spec.emitNodes.getD parsed.nodes.length) ++ [target.toList] ++
      parameters.kept ≠ [] by simp)
    ((splitCardCosmetics line).comment ++ (splitCardCosmetics line).newline)
  refine ⟨parsed.name, hline, ?_⟩
  rw [hcall, ← htext, ← hname]
  simp only [List.append_assoc]

theorem becomesCall_of_none
    (hmos : rewriteMosCard cases rules line binding = .ok none)
    (h : rewriteDeviceCard cases rules line binding = .ok none) :
    becomesCall cases rules binding line = false := by
  unfold becomesCall
  split
  · rfl
  rename_i hdirective
  simp only [matchCard_of_mos_none hdirective hmos]
  unfold rewriteDeviceCard at h
  rw [if_neg hdirective] at h
  simp only at h
  cases hkind : extendedCards.find? fun kind =>
      decide (cases.lower ((splitCardCosmetics line).card.take 1) = [kind.letter]) with
  | none => rfl
  | some kind =>
  rw [hkind] at h
  simp only at h ⊢
  by_cases hpassive : kind.letter ∈ ['r', 'c'] ∧
      ((((splitCardCosmetics line).card.splitOnP isSpace).filter
        fun token => decide (token ≠ []))[3]?.any rules.isSpiceNumber) = true
  · rw [if_pos hpassive]
  rw [if_neg hpassive] at h ⊢
  cases hparsed : matchCard [kind.letter.toUpper, kind.letter] kind.nodes
      (splitCardCosmetics line).card with
  | none => rfl
  | some parsed =>
  rw [hparsed] at h
  simp only at h
  rw [Option.any_some]
  split at h
  · rename_i hunknown
    unfold namesSubcircuit
    simp only [hunknown.1, hunknown.2, decide_false, Bool.or_self, Bool.false_and]
  · unfold rewriteExtended at h
    obtain ⟨⟨target, role, translated⟩, -, h⟩ := Except.bind_eq_ok.mp h
    simp only at h
    split at h
    · cases h
    · obtain ⟨_, -, h⟩ := Except.bind_eq_ok.mp h
      cases h

theorem rewritten_event {bound : BoundLine}
    (h : bindLine cases alnum rules binding [] line = .ok bound) :
    lineEvent bound.text = (markedEvent cases rules binding line).map boundName := by
  unfold bindLine at h
  rw [if_pos rfl] at h
  obtain ⟨mos, hmos, h⟩ := Except.bind_eq_ok.mp h
  cases mos with
  | some rewritten =>
    obtain rfl := Except.ok.inj h
    obtain ⟨name, hline, htext⟩ := rewriteMosCard_event hmos
    rw [markedEvent, hline]
    exact htext
  | none =>
    obtain ⟨device, hdevice, h⟩ := Except.bind_eq_ok.mp h
    cases device with
    | some rewritten =>
      obtain rfl := Except.ok.inj h
      obtain ⟨name, hline, htext⟩ := rewriteDeviceCard_event hmos hdevice
      rw [markedEvent, hline]
      exact htext
    | none =>
      obtain rfl := Except.ok.inj h
      rw [markedEvent, becomesCall_of_none hmos hdevice]
      cases lineEvent line <;> rfl

/-- What binding makes of a line: the event of the line, with the name that the instance has in the
bound deck. -/
theorem bindLine_event {bound : BoundLine}
    (h : bindLine cases alnum rules binding currents line = .ok bound) :
    lineEvent bound.text = (markedEvent cases rules binding line).map boundName := by
  by_cases hcurrents : currents = []
  · rw [hcurrents] at h
    exact rewritten_event h
  have hmoved : bindLine cases alnum rules binding []
      (extendSaveCard cases alnum currents line) = .ok bound := by
    unfold bindLine at h ⊢
    rw [if_neg hcurrents] at h
    rwa [if_pos rfl]
  have hrewritten := rewritten_event hmoved
  cases hsave : isSaveCard alnum line with
  | true =>
    obtain ⟨hextended, hline⟩ := @lineEvent_extended cases alnum currents line hsave
    rw [markedEvent, hextended] at hrewritten
    rw [hrewritten, markedEvent, hline]
    rfl
  | false =>
    rwa [extendSaveCard, if_neg (by rw [hsave]; exact Bool.false_ne_true)] at hrewritten

end Lines

section Decks

variable {cases : CaseMap} {alnum : Char → Bool} {rules : ParameterRules} {snapshot : Snapshot}
  {deck : List Char} {rawName : Option (List Char)}
  {currents : Except BindFault (List (List Char))} {bound : BoundDeck}

theorem bindDeck_lines
    (h : bindDeck cases alnum rules snapshot deck rawName currents = .ok bound) :
    ∃ kept, (bodyLines deck).mapM (bindLine cases alnum rules snapshot.binding kept) =
      .ok bound.body := by
  unfold bindDeck at h
  split at h
  · cases h
  obtain ⟨_, -, h⟩ := Except.bind_eq_ok.mp h
  split at h
  · cases h
  split at h
  · cases h
  rename_i title lines hlines
  obtain ⟨vectors, -, h⟩ := Except.bind_eq_ok.mp h
  obtain ⟨body, hbody, h⟩ := Except.bind_eq_ok.mp h
  obtain rfl := Except.ok.inj h
  rw [bodyLines, hlines]
  exact ⟨_, hbody⟩

theorem bindDeck_events
    (h : bindDeck cases alnum rules snapshot deck rawName currents = .ok bound) :
    (bound.body.map BoundLine.text).map lineEvent =
      ((bodyLines deck).map (markedEvent cases rules snapshot.binding)).map
        (Event.map boundName) := by
  obtain ⟨kept, hlines⟩ := bindDeck_lines h
  have hpaired := Except.mapM_eq_ok.mp hlines
  generalize bodyLines deck = lines at hpaired ⊢
  generalize bound.body = body at hpaired ⊢
  induction hpaired with
  | nil => rfl
  | cons hfirst hrest ih =>
    simp only [List.map_cons]
    rw [bindLine_event hfirst, ih]

theorem lineEvents_eq (binding : Profile) (lines : List (List Char)) :
    lines.map lineEvent =
      (lines.map (markedEvent cases rules binding)).map (Event.map Prod.fst) := by
  rw [List.map_map]
  apply List.map_congr_left
  intro line _
  show lineEvent line = ((lineEvent line).map _).map Prod.fst
  cases lineEvent line <;> rfl

theorem asciiLower_boundName (marked : List Char × Bool) : asciiLower (boundName marked) =
    if marked.2 then 'x' :: asciiLower marked.1 else asciiLower marked.1 := by
  unfold boundName
  split_ifs <;> rfl

/-- The names in a bound deck are again distinct in each subcircuit just where no name of a card
that becomes a call collides, with `x` before it, with the name of another card. -/
theorem bindDeck_distinct_iff (cases : CaseMap) (alnum : Char → Bool) (rules : ParameterRules) :
    ∀ snapshot deck rawName currents bound,
      bindDeck cases alnum rules snapshot deck rawName currents = .ok bound →
      DistinctInstances (bodyLines deck) →
      (DistinctInstances (bound.body.map BoundLine.text) ↔
        ¬ PrefixCollides cases rules snapshot.binding deck) := by
  intro snapshot deck rawName currents bound hbound hdistinct
  rw [DistinctInstances, @lineEvents_eq cases rules snapshot.binding, distinct_map] at hdistinct
  rw [DistinctInstances, bindDeck_events hbound, distinct_map,
    distinct_iff_of_distinct hdistinct]
  constructor
  · rintro hkeys ⟨called, hcalled, kept, hkept, hscope, hcall, hplain, hname⟩
    have hequal := hkeys called hcalled kept hkept hscope (by
      rw [asciiLower_boundName, asciiLower_boundName, hcall, hplain, hname]
      rfl)
    rw [hequal] at hname
    exact absurd (congrArg List.length hname) (by simp)
  · intro hfree a ha b hb hscope hequal
    rw [asciiLower_boundName, asciiLower_boundName] at hequal
    cases hfirst : a.2.2 <;> cases hsecond : b.2.2 <;> simp only [hfirst, hsecond] at hequal
    · exact hequal
    · exact absurd ⟨b, hb, a, ha, hscope.symm, hsecond, hfirst, hequal⟩ hfree
    · exact absurd ⟨a, ha, b, hb, hscope, hfirst, hsecond, hequal.symm⟩ hfree
    · exact (List.cons.inj hequal).2

end Decks

def separateDeck : List Char :=
  "t\nM1 d g s b nmos.core\nXM2 d s cell\n".toList

theorem separateDeck_distinct : ∃ bound,
    bindDeck asciiCases Char.isAlphanum (bindingRules asciiCases Scalars.plainArithmetic)
      ⟨ihpSg13g2, none⟩ separateDeck none (.ok []) = .ok bound ∧
    DistinctInstances (bound.body.map BoundLine.text) := by
  obtain ⟨bound, hbound⟩ := Except.exists_ok_of_isSome (show (bindDeck asciiCases Char.isAlphanum
    (bindingRules asciiCases Scalars.plainArithmetic) ⟨ihpSg13g2, none⟩ separateDeck none
    (.ok [])).toOption.isSome = true by decide)
  exact ⟨bound, hbound, (bindDeck_distinct_iff _ _ _ _ _ _ _ _ hbound (by decide)).mpr
    (by decide)⟩

/-- A transistor beside the instance of a subcircuit that is called as the transistor's call is. -/
def collidingDeck : List Char :=
  "t\nM1 d g s b nmos.core\nXM1 d s cell\n".toList

/-- Two names that differ in the deck are one in the bound deck. -/
theorem prefixed_name_collides : ∃ bound,
    bindDeck asciiCases Char.isAlphanum (bindingRules asciiCases Scalars.plainArithmetic)
      ⟨ihpSg13g2, none⟩ collidingDeck none (.ok []) = .ok bound ∧
    DistinctInstances (bodyLines collidingDeck) ∧
    ¬ DistinctInstances (bound.body.map BoundLine.text) := by
  have hrun : (bindDeck asciiCases Char.isAlphanum
      (bindingRules asciiCases Scalars.plainArithmetic) ⟨ihpSg13g2, none⟩ collidingDeck none
      (.ok [])).toOption.any (fun bound =>
        decide (¬ DistinctInstances (bound.body.map BoundLine.text))) = true := by
    decide
  obtain ⟨bound, hbound, hnot⟩ := Except.exists_ok_of_any hrun
  exact ⟨bound, hbound, by decide, of_decide_eq_true hnot⟩

end OpenADA.Pdk
