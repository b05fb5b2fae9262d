import OpenADA.Pdk.Continuations
import OpenADA.Pdk.Currents
import OpenADA.Pdk.Outside

/-! Where the branch currents that a bound deck retains are those of the sources that a simulator
sees. -/
namespace OpenADA.Pdk

open PyText Scopes
open SpiceText (words withoutInline lineKind simulatorCards isCSpace asciiLower LineKind)

section Sources

variable {alnum : Char → Bool} {deck : List Char}

/-- The scan collects the sources in no subcircuit, each once, up to its bound. -/
theorem scanSources_eq {most : ℕ} (lines : List (List Char)) (depth : ℕ) {names : List (List Char)}
    (h : names.length < most) : scanSources alnum (some most) names depth lines =
      (names ++ ((outer depth (lines.map (scanEvent alnum))).filter
        fun name => decide (name ∉ names)).eraseDups).take most := by
  induction lines generalizing depth names with
  | nil =>
    rw [scanSources, List.map_nil, outer, List.filter_nil, List.eraseDups_nil, List.append_nil,
      List.take_of_length_le h.le]
  | cons line rest ih =>
    rw [scanSources, List.map_cons]
    cases scanEvent alnum line with
    | opens => exact ih _ h
    | closes => exact ih _ h
    | mutes => exact ih _ h
    | unmutes => exact ih _ h
    | stops => exact ih _ h
    | other => exact ih _ h
    | item name =>
      simp only [outer, Option.any_some, decide_eq_true_eq]
      by_cases hdepth : depth = 0
      · subst hdepth
        rw [if_pos rfl]
        by_cases hmem : name ∈ names
        · rw [if_pos (.inr hmem), ih 0 h, List.filter_cons_of_neg (by simpa using hmem)]
        · rw [if_neg (by simpa using hmem), List.filter_cons_of_pos (by simpa using hmem),
            List.eraseDups_cons]
          by_cases hfull : most ≤ names.length + 1
          · have hlength : (names ++ [name]).length = most := by
              rw [List.length_append, List.length_singleton]
              omega
            rw [if_pos hfull]
            generalize (List.filter (fun b => !b == name) _).eraseDups = more
            rw [List.append_cons names name more, List.take_left' hlength]
          · have hnext : (names ++ [name]).length < most := by
              rw [List.length_append, List.length_singleton]
              omega
            rw [if_neg hfull, ih 0 hnext, List.filter_filter, List.append_assoc,
              List.singleton_append]
            congr 4
            apply List.filter_congr
            intro other _
            by_cases hother : other = name <;> simp [hother]
      · rw [if_neg hdepth, if_pos (.inl hdepth)]
        exact ih depth h

def startEvent (line : List Char) : Option (Event (List Char)) :=
  match lineKind isCSpace line with
  | .card text => some (cardEvent text)
  | _ => none

theorem readEvent_eq (line : List Char) : readEvent line = (startEvent line).getD .other := by
  unfold readEvent startEvent
  cases lineKind isCSpace line <;> rfl

theorem words_of_card {line text : List Char} (h : lineKind isCSpace line = .card text) :
    words isCSpace text ≠ [] := by
  unfold lineKind at h
  split_ifs at h
  obtain ⟨rfl, c, hc, -, -⟩ := SpiceText.head_of_rawKind h
  have hmem := List.mem_of_mem_head? hc
  rw [SpiceText.head?_trim] at hc
  exact SpiceText.words_ne_nil hmem (SpiceText.head?_lstrip hc)

theorem cardEvent_more {before : List Char} (h : words isCSpace before ≠ []) (body : List Char) :
    cardEvent (before ++ ' ' :: body) = cardEvent before := by
  have hspace : isCSpace ' ' = true := rfl
  obtain ⟨word, rest, hwords⟩ := List.exists_cons_of_ne_nil h
  unfold cardEvent
  rw [SpiceText.words_append_cons hspace, hwords]
  rfl

theorem cardEvents_foldl (lines : List (List Char)) {cards : List (List Char)}
    (h : ∀ card ∈ cards, words isCSpace card ≠ []) :
    (lines.foldl (SpiceText.readLine (lineKind isCSpace)) cards).map cardEvent =
      cards.map cardEvent ++ lines.filterMap startEvent := by
  induction lines generalizing cards with
  | nil => rw [List.foldl_nil, List.filterMap_nil, List.append_nil]
  | cons line rest ih =>
    rw [List.foldl_cons, SpiceText.readLine]
    cases hkind : lineKind isCSpace line with
    | skip =>
      rw [List.filterMap_cons_none (by simp [startEvent, hkind])]
      exact ih h
    | card text =>
      have hevent : startEvent line = some (cardEvent text) := by simp [startEvent, hkind]
      rw [List.filterMap_cons_some hevent]
      simp only
      rw [ih, List.map_append, List.append_assoc]
      · rfl
      · intro card hcard
        rcases List.mem_append.mp hcard with hcard | hcard
        · exact h card hcard
        · rw [List.mem_singleton.mp hcard]
          exact words_of_card hkind
    | more body text =>
      rw [List.filterMap_cons_none (by simp [startEvent, hkind])]
      simp only
      cases hlast : cards.getLast? with
      | none => exact ih h
      | some before =>
        have hfront := List.dropLast_append_getLast? before hlast
        have hbefore := h before (List.mem_of_getLast? hlast)
        simp only
        rw [ih, List.map_append, List.map_singleton, cardEvent_more hbefore]
        · conv_rhs => rw [← hfront, List.map_append, List.map_singleton]
        · intro card hcard
          rcases List.mem_append.mp hcard with hcard | hcard
          · exact h card (List.dropLast_subset _ hcard)
          · rw [List.mem_singleton.mp hcard, SpiceText.words_append_cons (by rfl)]
            exact List.append_ne_nil_of_left_ne_nil hbefore _

theorem simulatorEvents_eq (h : SpiceText.plainBreaks deck = true) :
    topItems ((simulatorCards deck).map cardEvent) =
      outer 0 (heard false ((splitLines deck).tail.map readEvent)) := by
  have hlines : ((SpiceText.physicalLines deck).tail.filterMap startEvent) =
      (splitLines deck).tail.filterMap startEvent := by
    obtain ⟨tail, htail, heq⟩ := SpiceText.newlineLines_of_breaks [] deck (by simp) h
    have hquiet : tail.filterMap startEvent = [] := by
      rcases htail with rfl | rfl <;> rfl
    rw [SpiceText.physicalLines, heq, ← splitLines]
    cases splitLines deck with
    | nil => rcases htail with rfl | rfl <;> rfl
    | cons title rest =>
      rw [List.cons_append, List.tail_cons, List.tail_cons, List.filterMap_append, hquiet,
        List.append_nil]
  have hcards := cardEvents_foldl (SpiceText.physicalLines deck).tail
    (fun card hcard => absurd hcard List.not_mem_nil)
  rw [simulatorCards, SpiceText.readCards, hcards, List.map_nil, List.nil_append, hlines,
    topItems_filterMap, topItems_eq, ← funext readEvent_eq]

theorem topLevelVoltageSources_eq {cases : CaseMap} (h : Retainable cases alnum deck) :
    topLevelVoltageSources alnum deck = simulatorSources deck := by
  unfold topLevelVoltageSources simulatorSources
  rw [scanSources_eq (splitLines deck) 0 (show ([] : List (List Char)).length < maxProbedSources by
    decide), List.nil_append, simulatorEvents_eq h.breaks, ← outer_eq_of_surface h.aligned]
  have hnone (names : List (List Char)) :
      names.filter (fun name => decide (name ∉ ([] : List (List Char)))) = names := by simp
  rw [hnone]
  cases hlines : splitLines deck with
  | nil => rfl
  | cons title rest =>
    have htitle := h.title title (by rw [hlines]; rfl)
    rw [List.map_cons, htitle]
    rfl

end Sources

section Saves

variable {cases : CaseMap} {alnum : Char → Bool} {line : List Char}

theorem isSpace_of_isCSpace {c : Char} (h : isCSpace c = true) : isSpace c = true := by
  simp only [isCSpace, Bool.or_eq_true, Bool.and_eq_true, decide_eq_true_eq] at h
  rcases h with rfl | h
  · rfl
  · simp only [isSpace, Bool.or_eq_true, Bool.and_eq_true, decide_eq_true_eq]
    omega

/-- The parts of a save card that ends in a line feed: what stands in front of its first word, the
word, and what stands behind it. -/
structure SaveParts (line gap word tail : List Char) : Prop where
  line_eq : line = gap ++ word ++ tail ++ ['\n']
  spaces : ∀ c ∈ gap, isCSpace c = true
  word_eq : asciiLower word = ".save".toList
  boundary : ∀ c ∈ tail.head?, c = ';' ∨ c = '/' ∨ c = ',' ∨ isCSpace c = true
  no_feed : '\n' ∉ gap ++ word ++ tail

theorem takeWhile_feed {text : List Char} (h : '\n' ∉ text) (more : List Char) :
    (text ++ '\n' :: more).takeWhile (fun c => decide (c ≠ '\n')) = text := by
  rw [List.takeWhile_append_of_pos, List.takeWhile_cons_of_neg (by simp), List.append_nil]
  intro c hc
  exact decide_eq_true fun heq => h (heq ▸ hc)

theorem no_feed_of_mem {text : List Char} (hline : line ∈ splitKeeping text)
    (hfeed : line.getLast? = some '\n') : ∃ body, line = body ++ ['\n'] ∧ '\n' ∉ body := by
  have hbroken : Broken line ∨ ∀ c ∈ line, isLineBreak c = false := by
    have hlined := lined_splitKeeping text
    generalize splitKeeping text = lines at hline hlined
    induction lines with
    | nil => cases hline
    | cons first rest ih =>
      rcases List.mem_cons.mp hline with rfl | hline
      · exact hlined.head
      · cases rest with
        | nil => cases hline
        | cons next rest => exact ih hline hlined.2
  have hnot (body : List Char) (hbody : ∀ c ∈ body, isLineBreak c = false) : '\n' ∉ body := by
    intro h
    exact absurd (hbody _ h) (by decide)
  rcases hbroken with ⟨body, ending, rfl, hbody, hending⟩ | hbody
  · rcases hending with rfl | ⟨c, -, rfl⟩
    · refine ⟨body ++ ['\r'], by simp, ?_⟩
      rw [List.mem_append, not_or]
      exact ⟨hnot body hbody, by decide⟩
    · rw [List.getLast?_concat] at hfeed
      obtain rfl := Option.some.inj hfeed
      exact ⟨body, rfl, hnot body hbody⟩
  · exact absurd (hbody _ (List.mem_of_getLast? hfeed)) (by decide)

theorem exists_saveParts {text : List Char} (hline : line ∈ splitKeeping text)
    (hfeed : line.getLast? = some '\n') (hsave : isSave line = true) :
    ∃ gap word tail, SaveParts line gap word tail := by
  obtain ⟨body, rfl, hbody⟩ := no_feed_of_mem hline hfeed
  have hword := of_decide_eq_true hsave
  rw [effectiveWords, takeWhile_feed hbody] at hword
  obtain ⟨cut, hcut, hhead⟩ := SpiceText.exists_cut isCSpace body
  cases hwords : words isCSpace (withoutInline isCSpace body) with
  | nil =>
    rw [hwords] at hword
    cases hword
  | cons word rest =>
    rw [hwords] at hword
    obtain ⟨gap, after, hparts, hgap, hafter, -, -, -⟩ := SpiceText.exists_of_words_cons hwords
    have hall : body = gap ++ word ++ (after ++ cut) := by
      rw [← List.append_assoc, ← hparts]
      exact hcut
    refine ⟨gap, word, after ++ cut, ?_, hgap, Option.some.inj hword, ?_, hall ▸ hbody⟩
    · rw [← hall]
    · intro c hc
      cases after with
      | nil => exact hhead c hc
      | cons d after => exact .inr (.inr (.inr (hafter c hc)))

theorem splitEol_feed (tail : List Char) : ∃ rest carriage,
    tail = rest ++ carriage ∧ (carriage = [] ∨ carriage = ['\r']) ∧
      splitEol (tail ++ ['\n']) = (rest, carriage ++ ['\n']) := by
  unfold splitEol
  by_cases hreturn : (tail ++ ['\n']).drop ((tail ++ ['\n']).length - 2) = ['\r', '\n']
  · rw [if_pos hreturn]
    have hparts := List.take_append_drop ((tail ++ ['\n']).length - 2) (tail ++ ['\n'])
    rw [hreturn] at hparts
    refine ⟨(tail ++ ['\n']).take ((tail ++ ['\n']).length - 2), ['\r'], ?_, .inr rfl, rfl⟩
    have hfeed : tail ++ ['\n'] =
        (tail ++ ['\n']).take ((tail ++ ['\n']).length - 2) ++ ['\r'] ++ ['\n'] := by
      rw [List.append_assoc]
      exact hparts.symm
    exact List.append_cancel_right hfeed
  · rw [if_neg hreturn, if_pos (.inr (List.getLast?_concat ..))]
    refine ⟨tail, [], (List.append_nil _).symm, .inl rfl, ?_⟩
    rw [List.dropLast_concat, List.length_append, List.length_singleton, Nat.add_sub_cancel,
      List.drop_left]
    rfl

/-- A vector in lower case, of letters that neither end a word nor start a comment. -/
structure PlainVector (vector : List Char) : Prop where
  ne_nil : vector ≠ []
  letters : ∀ c ∈ vector, c ≠ ';' ∧ c ≠ '/' ∧ c ≠ ',' ∧ isCSpace c = false
  head : vector.head? ≠ some '$'
  lower : asciiLower vector = vector

/-- The words of a physical line, with or without a carriage return at its end. -/
theorem effectiveWords_ended {text carriage : List Char} (h : '\n' ∉ text)
    (hcarriage : carriage = [] ∨ carriage = ['\r']) (more : List Char) :
    effectiveWords (text ++ carriage ++ '\n' :: more) =
      words isCSpace (withoutInline isCSpace text) := by
  have hfeed : '\n' ∉ text ++ carriage := by
    rw [List.mem_append, not_or]
    exact ⟨h, by rcases hcarriage with rfl | rfl <;> decide⟩
  rw [effectiveWords, takeWhile_feed hfeed]
  by_cases hclean : withoutInline isCSpace text = text
  · rcases hcarriage with rfl | rfl
    · rw [List.append_nil]
    · have hreturn : isCSpace '\r' = true := rfl
      rw [SpiceText.withoutInline_append hclean (fun c hc => by
        obtain rfl := Option.some.inj hc
        exact ⟨by decide, by decide⟩), hclean]
      exact (SpiceText.words_append_cons hreturn text []).trans (List.append_nil _)
  · rw [SpiceText.withoutInline_append_of_ne hclean]

/-- The words of a line to which vectors are added: they follow its own words if it has no
comment, and are hidden if it has one. -/
theorem effectiveWords_added {text carriage : List Char} (h : '\n' ∉ text)
    (hcarriage : carriage = [] ∨ carriage = ['\r']) {vectors : List (List Char)}
    (hvectors : ∀ vector ∈ vectors, PlainVector vector) (more : List Char) :
    effectiveWords (text ++ SpiceText.behindBlanks vectors ++ carriage ++ '\n' :: more) =
      words isCSpace (withoutInline isCSpace text) ++
        if withoutInline isCSpace text = text then vectors else [] := by
  have hblank : isCSpace ' ' = true := rfl
  have hnone : '\n' ∉ text ++ SpiceText.behindBlanks vectors := by
    intro hmem
    rcases List.mem_append.mp hmem with hmem | hmem
    · exact h hmem
    · obtain ⟨vector, hvector, hmem⟩ := List.mem_flatMap.mp hmem
      rcases List.mem_cons.mp hmem with hmem | hmem
      · cases hmem
      · exact absurd ((hvectors vector hvector).letters _ hmem).2.2.2 (by decide)
  have hhead : ∀ c ∈ (SpiceText.behindBlanks vectors).head?, c = ' ' := by
    cases vectors with
    | nil => exact fun c hc => by cases hc
    | cons vector rest => exact fun c hc => (Option.some.inj hc).symm
  rw [effectiveWords_ended hnone hcarriage]
  by_cases hclean : withoutInline isCSpace text = text
  · rw [if_pos hclean, SpiceText.withoutInline_append hclean (by
      intro c hc
      rw [hhead c hc]
      exact ⟨by decide, by decide⟩), hclean, SpiceText.withoutInline_behindBlanks hblank
        fun vector hvector => ⟨(hvectors vector hvector).letters, (hvectors vector hvector).head⟩]
    cases vectors with
    | nil => simp [SpiceText.behindBlanks]
    | cons first rest =>
      have hfields := @SpiceText.words_behindBlanks isCSpace [] hblank (first :: rest)
        (fun vector hvector => ⟨(hvectors vector hvector).ne_nil,
          fun c hc => ((hvectors vector hvector).letters c hc).2.2.2⟩)
        (fun c hc => by cases hc)
      have hnil : words isCSpace [] = [] := rfl
      rw [List.append_nil, hnil, List.append_nil, SpiceText.behindBlanks_eq,
        SpiceText.words_cons_space hblank] at hfields
      rw [SpiceText.behindBlanks_eq, SpiceText.words_append_cons hblank, hfields]
  · rw [if_neg hclean, SpiceText.withoutInline_append_of_ne hclean, List.append_nil]

namespace SaveParts

variable {gap word tail : List Char}

theorem length_word (h : SaveParts line gap word tail) : word.length = 5 := by
  have hlength := congrArg List.length h.word_eq
  rwa [asciiLower, List.length_map] at hlength

theorem stripped (h : SaveParts line gap word tail) :
    lstrip isSpace line = word ++ (tail ++ ['\n']) := by
  have hgap : ∀ c ∈ gap, isSpace c = true := fun c hc => isSpace_of_isCSpace (h.spaces c hc)
  obtain ⟨c, rest, hword⟩ := List.exists_cons_of_ne_nil
    (show word ≠ [] by
      intro hempty
      have hlength := h.length_word
      rw [hempty] at hlength
      cases hlength)
  have hlower : c.toLower = '.' := by
    have heq := h.word_eq
    rw [hword] at heq
    exact (List.cons.inj heq).1
  have hc : isSpace c = false := by
    rw [← SpiceText.isSpace_toLower, hlower]
    rfl
  rw [h.line_eq, List.append_assoc, List.append_assoc, lstrip, List.dropWhile_append_of_pos hgap,
    hword, List.cons_append, List.dropWhile_cons_of_neg (by rw [hc]; exact Bool.false_ne_true)]

theorem isSaveCard_eq (h : SaveParts line gap word tail)
    (hascii : ∀ c : Char, c.toNat < 128 → alnum c = c.isAlphanum)
    (hspace : ∀ c, isSpace c = true → alnum c = false) : isSaveCard alnum line = true := by
  have hlength := h.length_word
  have hmatches := matchesWord_of_lower h.word_eq
  unfold matchesWord at hmatches
  unfold isSaveCard
  simp only [h.stripped]
  rw [Bool.and_eq_true, Bool.and_eq_true]
  refine ⟨⟨?_, ?_⟩, ?_⟩
  · rw [decide_eq_true_eq, List.length_append, hlength]
    exact Nat.le_add_right _ _
  · rw [zip_append_of_le (by rw [hlength]; decide)]
    exact (Bool.and_eq_true_iff.mp hmatches).2
  · have hdrop : (word ++ (tail ++ ['\n'])).drop 5 = tail ++ ['\n'] := by
      rw [← hlength, List.drop_left]
    rw [hdrop]
    have hboundary : ∀ c : Char, (c = ';' ∨ c = '/' ∨ c = ',' ∨ isCSpace c = true) →
        (!(alnum c || decide (c = '_'))) = true := by
      rintro c (rfl | rfl | rfl | hc)
      · rw [hascii _ (by decide)]
        rfl
      · rw [hascii _ (by decide)]
        rfl
      · rw [hascii _ (by decide)]
        rfl
      · rw [hspace c (isSpace_of_isCSpace hc)]
        have hne : c ≠ '_' := by
          rintro rfl
          exact absurd hc (by decide)
        rw [decide_eq_false hne]
        rfl
    cases htail : tail with
    | nil => exact hboundary '\n' (.inr (.inr (.inr rfl)))
    | cons c rest => exact hboundary c (h.boundary c (by rw [htail]; rfl))

theorem headLength_eq (h : SaveParts line gap word tail) :
    line.length - (lstrip isSpace line).length + 5 = (gap ++ word).length := by
  have hline := congrArg List.length h.line_eq
  have hstripped := congrArg List.length h.stripped
  have hword := h.length_word
  simp only [List.length_append, List.length_singleton] at hline hstripped ⊢
  omega

theorem parts_eq (h : SaveParts line gap word tail) :
    line.take (gap ++ word).length = gap ++ word ∧
      line.drop (gap ++ word).length = tail ++ ['\n'] := by
  rw [h.line_eq, List.append_assoc (gap ++ word)]
  exact ⟨List.take_left, List.drop_left⟩

theorem extend_eq (h : SaveParts line gap word tail) (hcard : isSaveCard alnum line = true)
    {rest ending : List Char} (hparts : splitEol (tail ++ ['\n']) = (rest, ending))
    {missing vectors : List (List Char)}
    (hmissing : vectors.filter (fun vector => !(savedTokens cases line).contains vector) =
      missing) :
    extendSaveCard cases alnum vectors line =
      if missing = [] then line
      else gap ++ word ++ rest ++ SpiceText.behindBlanks missing ++ ending := by
  obtain ⟨htake, hdrop⟩ := h.parts_eq
  unfold savedTokens at hmissing
  unfold extendSaveCard
  rw [if_pos hcard]
  simp only [h.headLength_eq, htake, hdrop, hparts] at hmissing ⊢
  rw [hmissing]
  cases missing with
  | nil => rfl
  | cons first more =>
    rw [if_neg (List.cons_ne_nil _ _), if_neg (List.cons_ne_nil _ _), SpiceText.behindBlanks_eq]
    simp only [List.append_assoc, List.cons_append, joinBlank, SpiceText.joinWords]
    rfl

/-- Every vector is a word of a save card that takes the vectors, whatever stands behind its
line. -/
theorem effective (h : SaveParts line gap word tail) (hcard : isSaveCard alnum line = true)
    {vectors : List (List Char)} (hvectors : ∀ vector ∈ vectors, PlainVector vector)
    (hready : SaveReady cases vectors line) (more : List Char) : ∀ vector ∈ vectors,
      vector ∈ (effectiveWords (extendSaveCard cases alnum vectors line ++ more)).map
        asciiLower := by
  intro vector hvector
  obtain ⟨rest, carriage, rfl, hcarriage, hparts⟩ := splitEol_feed tail
  have hno : '\n' ∉ gap ++ word ++ rest := by
    have hno := h.no_feed
    rw [← List.append_assoc, List.mem_append, not_or] at hno
    exact hno.1
  have hline : line = gap ++ word ++ rest ++ carriage ++ ['\n'] := by
    rw [h.line_eq]
    simp only [List.append_assoc]
  have hown (behind : List Char) : effectiveWords (line ++ behind) =
      words isCSpace (withoutInline isCSpace (gap ++ word ++ rest)) := by
    rw [hline, List.append_assoc _ ['\n'], List.singleton_append]
    exact effectiveWords_ended hno hcarriage behind
  have hvisible := hready.2 vector hvector
  rw [← List.append_nil line, hown, List.append_nil] at hvisible
  rw [h.extend_eq hcard hparts rfl]
  split_ifs with hmissing
  · rw [hown]
    rcases hvisible with hword | ⟨-, habsent⟩
    · exact hword
    · have hmem : vector ∈ vectors.filter
          fun vector => !(savedTokens cases line).contains vector :=
        List.mem_filter.mpr ⟨hvector, by simpa using habsent⟩
      rw [hmissing] at hmem
      cases hmem
  · have hmissing : ∀ other ∈ vectors.filter
        (fun vector => !(savedTokens cases line).contains vector), PlainVector other :=
      fun other hother => hvectors other (List.mem_of_mem_filter hother)
    have hadded := effectiveWords_added hno hcarriage hmissing more
    rw [List.append_assoc _ (carriage ++ ['\n']), List.append_assoc carriage,
      List.singleton_append, ← List.append_assoc _ carriage, hadded, List.map_append]
    rcases hvisible with hword | ⟨hclean, habsent⟩
    · exact List.mem_append_left _ hword
    · have htext : withoutInline isCSpace (gap ++ word ++ rest) = gap ++ word ++ rest := by
        by_contra hcomment
        rw [hline, List.append_assoc _ carriage,
          SpiceText.withoutInline_append_of_ne hcomment] at hclean
        have hlength := congrArg List.length hclean
        obtain ⟨cut, hcut, -⟩ := SpiceText.exists_cut isCSpace (gap ++ word ++ rest)
        have hparts := congrArg List.length hcut
        simp only [List.length_append, List.length_singleton] at hlength hparts
        omega
      rw [if_pos htext]
      apply List.mem_append_right
      rw [← (hvectors vector hvector).lower]
      exact List.mem_map_of_mem (List.mem_filter.mpr ⟨hvector, by simpa using habsent⟩)

end SaveParts

theorem mem_outer {α : Type} {a : α} (events : List (Event α)) (depth : ℕ)
    (h : a ∈ outer depth events) : .item a ∈ events := by
  induction events generalizing depth with
  | nil => cases h
  | cons event rest ih =>
    cases event with
    | item b =>
      rw [outer] at h
      split_ifs at h
      · rcases List.mem_cons.mp h with rfl | h
        · exact List.mem_cons_self ..
        · exact List.mem_cons_of_mem _ (ih _ h)
      · exact List.mem_cons_of_mem _ (ih _ h)
    | opens => exact List.mem_cons_of_mem _ (ih _ h)
    | closes => exact List.mem_cons_of_mem _ (ih _ h)
    | mutes => exact List.mem_cons_of_mem _ (ih _ h)
    | unmutes => exact List.mem_cons_of_mem _ (ih _ h)
    | stops => exact List.mem_cons_of_mem _ (ih _ h)
    | other => exact List.mem_cons_of_mem _ (ih _ h)

theorem isSourceChar_of_sourceName {name : List Char} (h : sourceName line = some name) :
    ∃ letters, name = asciiLower letters ∧ ∀ c ∈ letters, isSourceChar c = true := by
  cases line with
  | nil => cases h
  | cons c rest =>
    simp only [sourceName] at h
    split_ifs at h with hcard
    refine ⟨_, (Option.some.inj h).symm, ?_⟩
    intro d hd
    rcases List.mem_cons.mp hd with rfl | hd
    · rcases hcard.1 with rfl | rfl <;> rfl
    · exact List.mem_takeWhile_imp hd

theorem plain_of_isSourceChar {c : Char} (h : isSourceChar c = true) :
    c ≠ ';' ∧ c ≠ '/' ∧ c ≠ ',' ∧ isCSpace c = false := by
  rw [isSourceChar, Bool.or_eq_true, decide_eq_true_eq] at h
  rcases h with halnum | hmem
  · have hspace := isSpace_eq_false_of_alnum halnum
    refine ⟨?_, ?_, ?_, ?_⟩
    · rintro rfl
      cases halnum
    · rintro rfl
      cases halnum
    · rintro rfl
      cases halnum
    · by_contra hcspace
      rw [isSpace_of_isCSpace ((Bool.not_eq_false _).mp hcspace)] at hspace
      cases hspace
  · have hmarks : ∀ d ∈ ['_', '.', '$', '#', '+', '-'],
        d ≠ ';' ∧ d ≠ '/' ∧ d ≠ ',' ∧ isCSpace d = false := forall_chars (by decide)
    exact hmarks c hmem

theorem isSourceChar_toLower {c : Char} (h : isSourceChar c = true) :
    isSourceChar c.toLower = true := by
  rw [isSourceChar, Bool.or_eq_true, decide_eq_true_eq] at h ⊢
  rcases h with halnum | hmem
  · left
    rw [isAlphanum_iff, SpiceText.toNat_toLower]
    rw [isAlphanum_iff] at halnum
    split_ifs <;> omega
  · have hmarks : ∀ d ∈ ['_', '.', '$', '#', '+', '-'],
        d.toLower ∈ ['_', '.', '$', '#', '+', '-'] := forall_chars (by decide)
    exact .inr (hmarks c hmem)

theorem plainVector_currentVector {letters : List Char}
    (h : ∀ c ∈ letters, isSourceChar c = true) :
    PlainVector (currentVector (asciiLower letters)) where
  ne_nil := List.cons_ne_nil _ _
  letters := by
    have hfront : ∀ c ∈ "i(".toList ++ ")".toList,
        c ≠ ';' ∧ c ≠ '/' ∧ c ≠ ',' ∧ isCSpace c = false := forall_chars (by decide)
    intro c hc
    rcases List.mem_append.mp hc with hc | hc
    · rcases List.mem_append.mp hc with hc | hc
      · exact hfront c (List.mem_append_left _ hc)
      · obtain ⟨d, hd, rfl⟩ := List.mem_map.mp hc
        exact plain_of_isSourceChar (isSourceChar_toLower (h d hd))
    · exact hfront c (List.mem_append_right _ hc)
  head := by
    show some 'i' ≠ some '$'
    decide
  lower := by
    have hname : asciiLower (asciiLower letters) = asciiLower letters := by
      rw [asciiLower, asciiLower, List.map_map]
      exact List.map_congr_left fun c _ => SpiceText.toLower_toLower c
    have happend (first second : List Char) :
        asciiLower (first ++ second) = asciiLower first ++ asciiLower second := List.map_append
    rw [currentVector, happend, happend, hname]
    rfl

theorem plainVector_source {deck : List Char} :
    ∀ vector ∈ sourceCurrentVectors alnum deck, PlainVector vector := by
  intro vector hvector
  obtain ⟨name, hname, rfl⟩ := List.mem_map.mp hvector
  have hbound : ([] : List (List Char)).length < maxProbedSources := by decide
  rw [topLevelVoltageSources, scanSources_eq (splitLines deck) 0 hbound, List.nil_append] at hname
  have hmem := List.mem_eraseDups.mp (List.mem_of_mem_take hname)
  have hevent := mem_outer _ 0 (List.mem_of_mem_filter hmem)
  obtain ⟨line, -, hline⟩ := List.mem_map.mp hevent
  unfold scanEvent at hline
  split_ifs at hline
  cases hsource : sourceName line with
  | none =>
    rw [hsource] at hline
    cases hline
  | some found =>
    rw [hsource] at hline
    obtain rfl := Event.item.inj hline
    obtain ⟨letters, rfl, hletters⟩ := isSourceChar_of_sourceName hsource
    exact plainVector_currentVector hletters

theorem bindLine_save {rules : ParameterRules} {binding : Profile} {currents : List (List Char)}
    {out : BoundLine} (hcard : isSaveCard alnum line = true)
    (h : bindLine cases alnum rules binding currents line = .ok out) :
    out.text = if currents = [] then line else extendSaveCard cases alnum currents line := by
  have hnone : out.card? = none := by
    cases hrewritten : out.card? with
    | none => rfl
    | some card =>
      have hnamed := bindLine_named h hrewritten
      obtain ⟨s, a, v, e, rest, hstripped, -, -⟩ := letters_of_save hcard
      exact absurd (by rw [hstripped]; rfl) hnamed.head
  unfold bindLine at h
  obtain ⟨mos, -, h⟩ := Except.bind_eq_ok.mp h
  cases mos with
  | some card =>
    obtain rfl := Except.ok.inj h
    cases hnone
  | none =>
    obtain ⟨device, -, h⟩ := Except.bind_eq_ok.mp h
    cases device with
    | some card =>
      obtain rfl := Except.ok.inj h
      cases hnone
    | none => exact congrArg BoundLine.text (Except.ok.inj h).symm

end Saves

section Decks

variable {cases : CaseMap} {alnum : Char → Bool} {rules : ParameterRules} {snapshot : Snapshot}
  {deck : List Char} {bound : BoundDeck}

theorem bindDeck_body {rawName : List Char} {vectors : List (List Char)}
    (h : bindDeck cases alnum rules snapshot deck (some rawName) (.ok vectors) = .ok bound) :
    List.Forall₂
      (fun line out => bindLine cases alnum rules snapshot.binding vectors line = .ok out)
      (bodyLines deck) bound.body := by
  unfold bindDeck at h
  split at h
  · cases h
  obtain ⟨_, -, h⟩ := Except.bind_eq_ok.mp h
  split at h
  · cases h
  split at h
  · cases h
  rename_i title lines hlines
  obtain ⟨kept, hkept, h⟩ := Except.bind_eq_ok.mp h
  obtain ⟨body, hbody, h⟩ := Except.bind_eq_ok.mp h
  obtain rfl := Except.ok.inj h
  obtain rfl := Except.ok.inj hkept
  rw [bodyLines, hlines]
  exact Except.mapM_eq_ok.mp hbody

theorem foldl_addVector {currents : List (List Char)} (hnodup : currents.Nodup)
    {seen vectors : List (List Char)} (hseen : ∀ vector ∈ currents, vector ∉ seen) :
    (currents.foldl addVector (vectors, seen)).1 = vectors ++ currents := by
  induction currents generalizing seen vectors with
  | nil => rw [List.foldl_nil, List.append_nil]
  | cons vector rest ih =>
    obtain ⟨hvector, hrest⟩ := List.nodup_cons.mp hnodup
    rw [List.foldl_cons, addVector, if_neg (hseen vector (List.mem_cons_self ..)), ih hrest,
      List.append_assoc, List.singleton_append]
    intro other hother hmem
    rcases List.mem_cons.mp hmem with rfl | hmem
    · exact hvector hother
    · exact hseen other (List.mem_cons_of_mem _ hother) hmem

theorem currentVector_injective : Function.Injective currentVector := by
  intro first second h
  exact List.append_cancel_left (List.append_cancel_right h)

theorem nodup_eraseDups {α : Type} [BEq α] [LawfulBEq α] (items : List α) :
    items.eraseDups.Nodup := by
  induction hlength : items.length using Nat.strong_induction_on generalizing items with
  | _ length ih =>
    cases items with
    | nil => exact List.nodup_nil
    | cons a rest =>
      rw [List.eraseDups_cons, List.nodup_cons]
      refine ⟨fun h => ?_, ih _ ?_ _ rfl⟩
      · simpa using List.of_mem_filter (List.mem_eraseDups.mp h)
      · rw [← hlength]
        exact Nat.lt_succ_of_le (List.length_filter_le _ _)

theorem nodup_simulatorSources (deck : List Char) : (simulatorSources deck).Nodup :=
  (nodup_eraseDups _).sublist (List.take_sublist _ _)

theorem writeVectors_eq {saved currents : List (List Char)} (hsaved : saved ≠ [])
    (hnodup : currents.Nodup) : writeVectors cases saved (currents.map currentVector) false =
      saved.map voltageVector ++ currents.map currentVector := by
  unfold writeVectors
  rw [if_neg fun h => hsaved h.1]
  apply foldl_addVector (hnodup.map currentVector_injective)
  intro vector hvector hseen
  obtain ⟨name, -, rfl⟩ := List.mem_map.mp hvector
  obtain ⟨voltage, hvoltage, hlower⟩ := List.mem_map.mp hseen
  obtain ⟨net, -, rfl⟩ := List.mem_map.mp hvoltage
  have hhead : (cases.lower (voltageVector net)).head? = some 'v' := by
    show (cases.lowerFrom [] ('v' :: ('(' :: (net ++ [')'])))).head? = some 'v'
    rw [CaseMap.lowerFrom, if_neg (by decide), cases.ascii 'v' (by decide)]
    rfl
  rw [hlower] at hhead
  cases hhead

end Decks

/-- A divider whose title names no source, with a save card without a comment. -/
def dividerDeck : List Char :=
  "* divider\nV1 in 0 1\nR1 in out 1k\nR2 out 0 1k\n.save v(out)\n.op\n.end\n".toList

theorem dividerDeck_retainable : Retainable asciiCases Char.isAlphanum dividerDeck where
  breaks := by decide
  title := by decide
  aligned := by decide
  saves := by decide

/-- A divider whose title begins with a `V`. -/
def titledDeck : List Char :=
  "Voltage divider\nV1 in 0 1\nR1 in out 1k\nR2 out 0 1k\n.save v(out)\n.op\n.end\n".toList

def hiddenDeck : List Char :=
  "* divider\nV1 in 0 1\nR1 in out 1k\nR2 out 0 1k\n.save v(out) ; output\n.op\n.end\n".toList

end OpenADA.Pdk
