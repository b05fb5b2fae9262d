import OpenADA.Library.ExceptFold
import OpenADA.Library.Occurrence
import OpenADA.Pdk.Cards

/-! Binding a deck against a snapshot, and the words of its cards: the model of a card is a word of
the raw deck as long as joining the continuations merges no two lines. -/
namespace OpenADA.Pdk

open PyText Occurrence

/-- Whether `UNRESOLVED_TOKEN_RE` matches at the head of the text. -/
def placeholderAt (text : List Char) : Bool :=
  let opening := "\x7bSIMRA_UNRESOLVED_".toList
  let name := (text.drop opening.length).takeWhile fun c => c.isAlphanum || c = '_'
  opening.isPrefixOf text && name ≠ [] &&
    decide ((text.drop (opening.length + name.length)).head? = some '\x7d')

def hasPlaceholder (deck : List Char) : Bool := deck.tails.any placeholderAt

/-- `_RAW_NAME_RE.match`; its `$` also matches before a final line feed. -/
def isRawName (name : List Char) : Bool :=
  let bounded (text : List Char) : Bool :=
    decide (text.length ≤ 128) && (text.head?.any Char.isAlphanum) &&
      text.all fun c => c.isAlphanum || c ∈ ['.', '_', '-']
  bounded name || (name.getLast? = some '\n' && bounded name.dropLast)

def checkFamilies (cases : CaseMap) (snapshot : Snapshot) (deck : List Char) :
    Except BindFault Unit :=
  match snapshot.capturedFamilies with
  | none => .ok ()
  | some captured => do
    let used ← scanDeckFamilies cases deck
    if used \ captured = ∅ then .ok () else .error .familyMissing

structure BoundLine where
  text : List Char
  card? : Option RewrittenCard

/-- The lines of a bound deck: its title and what follows the prelude, without the control block. -/
structure BoundDeck where
  title : List Char
  body : List BoundLine

def BoundDeck.rewritten (bound : BoundDeck) : List RewrittenCard := bound.body.filterMap (·.card?)

section Binding

variable (cases : CaseMap) (alnum : Char → Bool) (rules : ParameterRules)

/-- One line of the loop of `bind_deck`. -/
def bindLine (binding : Profile) (currents : List (List Char)) (line : List Char) :
    Except BindFault BoundLine := do
  let line := if currents = [] then line else extendSaveCard cases alnum currents line
  match ← rewriteMosCard cases rules line binding with
  | some card => .ok ⟨card.text, some card⟩
  | none =>
    match ← rewriteDeviceCard cases rules line binding with
    | some card => .ok ⟨card.text, some card⟩
    | none => .ok ⟨line, none⟩

/-- `bind_deck`; `currents` are the vectors of the sources the request retains, or the refusal of
its saved nets or sources. -/
def bindDeck (snapshot : Snapshot) (deck : List Char) (rawName : Option (List Char))
    (currents : Except BindFault (List (List Char))) : Except BindFault BoundDeck := do
  if hasPlaceholder deck then .error .deckUnresolved
  else do
    checkFamilies cases snapshot deck
    if rawName.any fun name => !isRawName name then .error (.request "pdk.raw_name.invalid")
    else
      match splitKeeping (joinSpiceContinuations deck) with
      | [] => .error .deckEmpty
      | title :: lines => do
        let vectors ← currents
        let body ← lines.mapM (bindLine cases alnum rules snapshot.binding
          (if rawName.isSome then vectors else []))
        .ok ⟨title ++ (if title.getLast? = some '\n' then [] else ['\n']), body⟩

variable {cases alnum rules}

/-- A deck that is bound passed the check of its families, and every line after the title was. -/
theorem bindDeck_ok {snapshot : Snapshot} {deck : List Char} {rawName : Option (List Char)}
    {currents : Except BindFault (List (List Char))} {bound : BoundDeck}
    (h : bindDeck cases alnum rules snapshot deck rawName currents = .ok bound) :
    checkFamilies cases snapshot deck = .ok () ∧ ∃ kept, ∀ out ∈ bound.body,
      ∃ line ∈ (splitKeeping (joinSpiceContinuations deck)).tail,
        bindLine cases alnum rules snapshot.binding kept line = .ok out := by
  unfold bindDeck at h
  split at h
  · cases h
  obtain ⟨_, hfamilies, h⟩ := Except.bind_eq_ok.mp h
  split at h
  · cases h
  split at h
  · cases h
  rename_i title lines hlines
  obtain ⟨vectors, -, h⟩ := Except.bind_eq_ok.mp h
  obtain ⟨body, hbody, h⟩ := Except.bind_eq_ok.mp h
  obtain rfl := Except.ok.inj h
  rw [hlines]
  exact ⟨hfamilies, _, fun out hout => Except.exists_of_mem_mapM hbody hout⟩

end Binding

/-- Joining the continuations merges no two lines: every logical line but the last keeps a line
break at its end. -/
def Unmerged (deck : List Char) : Prop :=
  ∀ line ∈ (logicalLines deck).dropLast, line.getLast?.any isLineBreak = true

instance (deck : List Char) : Decidable (Unmerged deck) :=
  List.decidableBAll _ _

section Words

/-- What stands around a word of a card, in the card or in the deck it comes from. -/
def IsGap (c : Char) : Prop := isSpace c = true ∨ c ∈ ['+', ';']

variable {word : List Char}

theorem isSpace_of_isBlank {c : Char} (h : isBlank c = true) : isSpace c = true := by
  simp only [isBlank, Bool.or_eq_true, decide_eq_true_eq] at h
  rcases h with rfl | rfl <;> rfl

theorem isGap_of_isBlank {c : Char} (h : isBlank c = true) : IsGap c := by
  left
  simp only [isBlank, Bool.or_eq_true, decide_eq_true_eq] at h
  rcases h with rfl | rfl <;> decide

theorem isGap_of_isCrLf {c : Char} (h : isCrLf c = true) : IsGap c := by
  left
  simp only [isCrLf, Bool.or_eq_true, decide_eq_true_eq] at h
  rcases h with rfl | rfl <;> decide

theorem isGap_of_isLineBreak {c : Char} (h : isLineBreak c = true) : IsGap c :=
  .inl (isSpace_of_isLineBreak h)

theorem lstrip_append (strips : Char → Bool) (text : List Char) :
    text.takeWhile strips ++ lstrip strips text = text :=
  List.takeWhile_append_dropWhile

theorem rstrip_append (strips : Char → Bool) (text : List Char) :
    ∃ stripped, rstrip strips text ++ stripped = text ∧ ∀ c ∈ stripped, strips c = true := by
  refine ⟨text.rtakeWhile strips, List.rdropWhile_append_rtakeWhile, ?_⟩
  intro c hc
  exact List.mem_rtakeWhile_imp hc

theorem splitLineEnding_append (line : List Char) :
    (splitLineEnding line).1 ++ (splitLineEnding line).2 = line ∧
      ∀ c ∈ (splitLineEnding line).2, IsGap c := by
  obtain ⟨stripped, hline, hstripped⟩ := rstrip_append isCrLf line
  have hending : (splitLineEnding line).2 = stripped := by
    have hdrop := congrArg (List.drop (rstrip isCrLf line).length) hline
    rw [List.drop_left] at hdrop
    exact hdrop.symm
  rw [hending]
  exact ⟨hline, fun c hc => isGap_of_isCrLf (hstripped c hc)⟩

theorem occurs_between {before text after : List Char} (h : Occurs IsGap word text)
    (hbefore : EndsInGap IsGap before) (hafter : ∀ c ∈ after.head?, IsGap c) :
    Occurs IsGap word (before ++ text ++ after) :=
  (h.append_left hbefore).append_right hafter

theorem occurs_of_strip {text : List Char} (h : Occurs IsGap word (strip text)) :
    Occurs IsGap word text := by
  obtain ⟨stripped, htext, hstripped⟩ := rstrip_append isSpace (lstrip isSpace text)
  rw [← lstrip_append isSpace text, ← htext, ← List.append_assoc]
  apply occurs_between h
  · intro c hc
    exact .inl (List.mem_takeWhile_imp (List.mem_of_getLast? hc))
  · intro c hc
    exact .inl (hstripped c (List.mem_of_mem_head? hc))

theorem occurs_joinLine (hn : word ≠ []) (hw : ∀ c ∈ word, ¬ IsGap c)
    {logical : List (List Char)} {line joined : List Char} (hmem : joined ∈ joinLine logical line)
    (h : Occurs IsGap word joined) :
    (∃ found ∈ logical, Occurs IsGap word found) ∨ Occurs IsGap word line := by
  have happend (hmem : joined ∈ logical ++ [line]) :
      (∃ found ∈ logical, Occurs IsGap word found) ∨ Occurs IsGap word line := by
    rcases List.mem_append.mp hmem with hmem | hmem
    · exact .inl ⟨joined, hmem, h⟩
    · obtain rfl := List.mem_singleton.mp hmem
      exact .inr h
  unfold joinLine at hmem
  cases hlast : logical.getLast? with
  | none =>
    rw [hlast] at hmem
    exact happend hmem
  | some last =>
    rw [hlast] at hmem
    simp only at hmem
    by_cases hplus : (lstrip isBlank (splitLineEnding line).1).head? = some '+'
    · rw [if_pos hplus] at hmem
      rcases List.mem_append.mp hmem with hmem | hmem
      · exact .inl ⟨joined, List.dropLast_subset _ hmem, h⟩
      obtain rfl := List.mem_singleton.mp hmem
      obtain ⟨hprev, hprevEnding⟩ := splitLineEnding_append last
      obtain ⟨hbody, hending⟩ := splitLineEnding_append line
      have hgaps : ∀ c ∈ (if (splitLineEnding line).2 = [] then (splitLineEnding last).2
          else (splitLineEnding line).2), IsGap c := by
        split_ifs
        · exact hprevEnding
        · exact hending
      have hspace : ∀ c ∈ [' '], IsGap c := by
        intro c hc
        obtain rfl := List.mem_singleton.mp hc
        exact isGap_of_isBlank rfl
      have hpart := h.of_append_gaps hn hw hgaps
      rcases hpart.split hw (fun c hc => hspace c (by simpa using hc.symm)) with hpart | hpart
      · left
        refine ⟨last, List.mem_of_getLast? hlast, ?_⟩
        rw [← hprev]
        exact (hpart.of_append_gaps hn hw hspace).append_right fun c hc =>
          hprevEnding c (List.mem_of_mem_head? hc)
      · right
        -- the continuation sign stands before the text that was appended
        have hcons : lstrip isBlank (splitLineEnding line).1 =
            ['+'] ++ (lstrip isBlank (splitLineEnding line).1).tail := by
          cases hstripped : lstrip isBlank (splitLineEnding line).1 with
          | nil =>
            rw [hstripped] at hplus
            cases hplus
          | cons c rest =>
            rw [hstripped] at hplus
            obtain rfl := Option.some.inj hplus
            rfl
        rw [← hbody, ← lstrip_append isBlank (splitLineEnding line).1, hcons, ← List.append_assoc]
        apply occurs_between (occurs_of_strip hpart)
        · intro c hc
          rw [List.getLast?_concat] at hc
          obtain rfl := Option.some.inj hc
          exact .inr (List.mem_cons_self ..)
        · intro c hc
          exact hending c (List.mem_of_mem_head? hc)
    · rw [if_neg hplus] at hmem
      exact happend hmem

theorem occurs_foldl_joinLine (hn : word ≠ []) (hw : ∀ c ∈ word, ¬ IsGap c)
    {lines logical : List (List Char)} {joined : List Char}
    (hmem : joined ∈ lines.foldl joinLine logical) (h : Occurs IsGap word joined) :
    (∃ found ∈ logical, Occurs IsGap word found) ∨ ∃ found ∈ lines, Occurs IsGap word found := by
  induction lines generalizing logical with
  | nil => exact .inl ⟨joined, hmem, h⟩
  | cons line rest ih =>
    rcases ih hmem with ⟨found, hfound, hoccurs⟩ | ⟨found, hfound, hoccurs⟩
    · rcases occurs_joinLine hn hw hfound hoccurs with hprevious | hline
      · exact .inl hprevious
      · exact .inr ⟨line, List.mem_cons_self .., hline⟩
    · exact .inr ⟨found, List.mem_cons_of_mem _ hfound, hoccurs⟩

theorem splitKeeping_ends (text : List Char) :
    ∀ line ∈ (splitKeeping text).dropLast, ∃ c ∈ line.getLast?, IsGap c := by
  intro line hline
  unfold splitKeeping at hline
  rw [← List.map_dropLast] at hline
  obtain ⟨broken, hbroken, rfl⟩ := List.mem_map.mp hline
  obtain ⟨c, hc, hbreak⟩ := breakLines_ends [] text broken hbroken
  refine ⟨c, ?_, isGap_of_isLineBreak hbreak⟩
  rw [List.getLast?_append, hc]
  rfl

theorem occurs_of_joined {deck line : List Char} (hmerge : Unmerged deck) (hn : word ≠ [])
    (hw : ∀ c ∈ word, ¬ IsGap c) (hline : line ∈ splitKeeping (joinSpiceContinuations deck))
    (h : Occurs IsGap word line) : Occurs IsGap word deck := by
  have hjoined : Occurs IsGap word (joinSpiceContinuations deck) := by
    rw [← flatten_splitKeeping (joinSpiceContinuations deck)]
    exact h.flatten hline hn hw (splitKeeping_ends _)
  obtain ⟨logical, hlogical, hoccurs⟩ := hjoined.of_flatten hn hw fun l hl c hc => by
    obtain ⟨d, hd, hbreak⟩ := (Option.any_eq_true _ _).mp (hmerge l hl)
    obtain rfl := Option.some.inj (hc.symm.trans hd)
    exact isGap_of_isLineBreak hbreak
  rcases occurs_foldl_joinLine hn hw hlogical hoccurs with ⟨found, hfound, -⟩ | ⟨found, hfound, ho⟩
  · cases hfound
  · rw [← flatten_splitKeeping deck]
    exact ho.flatten hfound hn hw (splitKeeping_ends deck)

theorem head_of_startsComment {text : List Char} (h : startsComment text = true) :
    ∃ c ∈ text.head?, IsGap c := by
  unfold startsComment at h
  rcases Bool.or_eq_true_iff.mp h with h | h
  · cases text with
    | nil => simp [lstrip] at h
    | cons c rest =>
      refine ⟨c, rfl, ?_⟩
      by_cases hc : isSpace c = true
      · exact .inl hc
      · simp only [lstrip, List.dropWhile_cons, if_neg hc, List.head?_cons, decide_eq_true_eq] at h
        obtain rfl := Option.some.inj h
        exact .inr (by simp)
  · split at h
    · rename_i space rest _
      exact ⟨space, rfl, .inl (Bool.and_eq_true_iff.mp h).1⟩
    · cases h

theorem splitComment_append {text card comment : List Char}
    (h : splitComment text = some (card, comment)) :
    text = card ++ comment ∧ ∃ c ∈ comment.head?, IsGap c := by
  induction text generalizing card with
  | nil => cases h
  | cons c rest ih =>
    unfold splitComment at h
    split_ifs at h with hstarts
    · obtain ⟨rfl, rfl⟩ := Prod.mk.inj (Option.some.inj h)
      exact ⟨rfl, head_of_startsComment hstarts⟩
    · obtain ⟨parts, hparts, hsome⟩ := Option.map_eq_some_iff.mp h
      obtain ⟨rfl, rfl⟩ := Prod.mk.inj hsome
      obtain ⟨hrest, hhead⟩ := ih hparts
      exact ⟨by rw [hrest]; rfl, hhead⟩

theorem occurs_of_card {line : List Char}
    (h : Occurs IsGap word (splitCardCosmetics line).card) : Occurs IsGap word line := by
  obtain ⟨hbody, hnewline⟩ := splitLineEnding_append line
  have hindent : EndsInGap IsGap ((splitLineEnding line).1.takeWhile isBlank) := fun c hc =>
    isGap_of_isBlank (List.mem_takeWhile_imp (List.mem_of_getLast? hc))
  suffices hstripped : Occurs IsGap word (lstrip isBlank (splitLineEnding line).1) by
    rw [← hbody, ← lstrip_append isBlank (splitLineEnding line).1]
    apply occurs_between hstripped hindent
    intro c hc
    exact hnewline c (List.mem_of_mem_head? hc)
  unfold splitCardCosmetics at h
  simp only at h
  split at h
  · rename_i card comment hcomment
    split_ifs at h with hstar
    · exact h
    · obtain ⟨happend, d, hd, hgap⟩ := splitComment_append hcomment
      obtain ⟨stripped, hcard, hstripped⟩ := rstrip_append isSpace card
      rw [happend, ← hcard, List.append_assoc]
      apply h.append_right
      intro c hc
      cases stripped with
      | nil => exact Option.some.inj (hd.symm.trans hc) ▸ hgap
      | cons e rest => exact Option.some.inj hc ▸ .inl (hstripped e (List.mem_cons_self ..))
  · exact h

theorem occurs_model {initials : List Char} {count : ℕ} {text : List Char} {card : CardMatch}
    (h : matchCard initials count text = some card) : Occurs IsGap card.model text := by
  unfold matchCard at h
  split_ifs at h
  split at h
  · rename_i name rest hsplit
    split at h
    · rename_i model params hdrop
      split_ifs at h
      obtain rfl := Option.some.inj h
      have hrest : model ∈ rest := List.drop_subset count rest (by rw [hdrop]; exact List.mem_cons_self ..)
      have hmem : model ∈ splitBlank text := by
        rw [hsplit]
        exact List.mem_cons_of_mem _ hrest
      exact (occurs_of_mem_splitOnP (List.mem_of_mem_filter hmem)).mono fun c hc =>
        isGap_of_isBlank hc
    · cases h
  · cases h

end Words

section Save

theorem head_lstrip_append {strips : Char → Bool} {text : List Char} {c : Char}
    (h : (lstrip strips text).head? = some c) (more : List Char) :
    (lstrip strips (text ++ more)).head? = some c := by
  induction text with
  | nil => cases h
  | cons d rest ih =>
    unfold lstrip at h ih ⊢
    rw [List.cons_append]
    rw [List.dropWhile_cons] at h ⊢
    split_ifs at h ⊢
    · exact ih h
    · exact h

theorem head_lstrip_mono {narrow wide : Char → Bool} (hle : ∀ c, narrow c = true → wide c = true)
    {text : List Char} {c : Char} (h : (lstrip narrow text).head? = some c) (hc : wide c = false) :
    (lstrip wide text).head? = some c := by
  induction text with
  | nil => cases h
  | cons d rest ih =>
    unfold lstrip at h ih ⊢
    rw [List.dropWhile_cons] at h ⊢
    split_ifs at h with hnarrow
    · rw [if_pos (hle d hnarrow)]
      exact ih h
    · obtain rfl := Option.some.inj h
      rw [if_neg (by rw [hc]; exact Bool.false_ne_true)]
      rfl

theorem head_of_card {line : List Char} {c : Char}
    (h : (splitCardCosmetics line).card.head? = some c) : (lstrip isBlank line).head? = some c := by
  obtain ⟨hbody, -⟩ := splitLineEnding_append line
  rw [← hbody]
  apply head_lstrip_append
  unfold splitCardCosmetics at h
  simp only at h
  split at h
  · rename_i card comment hcomment
    split_ifs at h with hstar
    · exact h
    · obtain ⟨happend, -⟩ := splitComment_append hcomment
      obtain ⟨stripped, hcard, -⟩ := rstrip_append isSpace card
      rw [happend, ← hcard]
      cases hfront : rstrip isSpace card with
      | nil =>
        rw [hfront] at h
        cases h
      | cons d rest =>
        rw [hfront] at h
        exact h
  · exact h

/-- A matched card begins, after the white space of its line, with one of the initials. -/
theorem head_of_matchCard {line : List Char} {initials : List Char} {count : ℕ} {card : CardMatch}
    (h : matchCard initials count (splitCardCosmetics line).card = some card)
    (hinitials : ∀ c ∈ initials, isSpace c = false) :
    ∃ c ∈ initials, (lstrip isSpace line).head? = some c := by
  unfold matchCard at h
  split_ifs at h with hguard
  obtain ⟨c, hc, hmem⟩ := (Option.any_eq_true _ _).mp (Bool.and_eq_true_iff.mp hguard).1
  have hmem := of_decide_eq_true hmem
  have hblank : ∀ d, isBlank d = true → isSpace d = true := by
    intro d hd
    simp only [isBlank, Bool.or_eq_true, decide_eq_true_eq] at hd
    rcases hd with rfl | rfl <;> decide
  exact ⟨c, hmem, head_lstrip_mono hblank (head_of_card hc) (hinitials c hmem)⟩

theorem eq_period_of_ignoringCase {c : Char} (h : equalsIgnoringCase '.' c = true) : c = '.' := by
  have hlower : c.toLower = '.' := by
    simpa [equalsIgnoringCase] using h
  delta Char.toLower at hlower
  split at hlower
  · rename_i hupper
    have hlow : 65 ≤ c.toNat := UInt32.le_iff_toNat_le.mp hupper.1
    have hhigh : c.toNat ≤ 90 := UInt32.le_iff_toNat_le.mp hupper.2
    have hval := congrArg (fun d : Char => d.val.toNat) hlower
    simp only [UInt32.toNat_add] at hval
    have hc : c.val.toNat = c.toNat := rfl
    rw [hc, show ('a'.val - 'A'.val).toNat = 32 from rfl, show '.'.val.toNat = 46 from rfl] at hval
    omega
  · exact hlower

theorem letters_of_save {alnum : Char → Bool} {line : List Char}
    (h : isSaveCard alnum line = true) : ∃ s a v e rest,
      lstrip isSpace line = '.' :: s :: a :: v :: e :: rest ∧
      equalsIgnoringCase 's' s = true ∧ equalsIgnoringCase 'a' a = true := by
  unfold isSaveCard at h
  simp only [Bool.and_eq_true, decide_eq_true_eq] at h
  obtain ⟨⟨hlength, hletters⟩, -⟩ := h
  match hstripped : lstrip isSpace line, hlength with
  | c :: s :: a :: v :: e :: rest, _ =>
    rw [hstripped] at hletters
    have hall := List.all_eq_true.mp hletters
    obtain rfl : c = '.' := eq_period_of_ignoringCase (hall ('.', c) (List.mem_cons_self ..))
    refine ⟨s, a, v, e, rest, rfl, hall ('s', s) ?_, hall ('a', a) ?_⟩
    · exact List.mem_cons_of_mem _ (List.mem_cons_self ..)
    · exact List.mem_cons_of_mem _ (List.mem_cons_of_mem _ (List.mem_cons_self ..))

theorem lstrip_extendSaveCard {cases : CaseMap} {alnum : Char → Bool}
    {currents : List (List Char)} {line : List Char} (h : isSaveCard alnum line = true) :
    ∃ more, lstrip isSpace (extendSaveCard cases alnum currents line) =
      (lstrip isSpace line).take 5 ++ more := by
  obtain ⟨s, a, v, e, rest, hstripped, -, -⟩ := letters_of_save h
  have hline := lstrip_append isSpace line
  have hcut : line.take (line.length - (lstrip isSpace line).length + 5) =
      line.takeWhile isSpace ++ (lstrip isSpace line).take 5 := by
    have hlength : line.length - (lstrip isSpace line).length + 5 =
        (line.takeWhile isSpace).length + 5 := by
      have := congrArg List.length hline
      rw [List.length_append] at this
      omega
    have htake := congrArg (List.take ((line.takeWhile isSpace).length + 5)) hline
    rw [List.take_length_add_append] at htake
    rw [hlength]
    exact htake.symm
  have hkeeps : ∀ behind, lstrip isSpace
      (line.take (line.length - (lstrip isSpace line).length + 5) ++ behind) =
        (lstrip isSpace line).take 5 ++ behind := by
    intro behind
    rw [hcut, hstripped, List.append_assoc]
    exact List.dropWhile_append_of_pos fun d hd => List.mem_takeWhile_imp hd
  unfold extendSaveCard
  rw [if_pos h]
  simp only
  split_ifs
  · exact ⟨_, (List.take_append_drop 5 _).symm⟩
  · simp only [List.append_assoc]
    exact ⟨_, hkeeps _⟩

theorem head_of_save {cases : CaseMap} {alnum : Char → Bool} {currents : List (List Char)}
    {line : List Char} (h : isSaveCard alnum line = true) :
    (lstrip isSpace (extendSaveCard cases alnum currents line)).head? = some '.' := by
  obtain ⟨s, a, v, e, rest, hstripped, -, -⟩ := letters_of_save h
  obtain ⟨more, hmore⟩ := @lstrip_extendSaveCard cases alnum currents line h
  rw [hmore, hstripped]
  rfl

end Save

end OpenADA.Pdk
