import OpenADA.Lvs.Report

/-! What the expressions of a native report match: the texts of its results, and the words that a
line of a failure holds. -/
namespace OpenADA.Lvs

open PyText LinePattern Scalars SpiceText

section Letters

theorem looseLetter_cases (c : Char) :
    (c ∈ ['\u212a', '\u0130', '\u0131', '\u017f'] ∧ looseLetter c ∈ ['k', 'i', 's']) ∨
      looseLetter c = c.toLower := by
  unfold looseLetter
  split_ifs with hk hi hs
  · exact .inl ⟨by simp [hk], by decide⟩
  · exact .inl ⟨by rcases hi with rfl | rfl <;> decide, by decide⟩
  · exact .inl ⟨by simp [hs], by decide⟩
  · exact .inr rfl

theorem looseLetter_of_toNat {c : Char} (h : c.toNat < 128) : looseLetter c = c.toLower := by
  rcases looseLetter_cases c with ⟨hc, -⟩ | hc
  · fin_cases hc <;> exact absurd h (by decide)
  · exact hc

theorem toNat_looseLetter (c : Char) : (looseLetter c).toNat < 128 ∨ looseLetter c = c := by
  rcases looseLetter_cases c with ⟨-, hc⟩ | hc
  · have hascii : ∀ d ∈ ['k', 'i', 's'], d.toNat < 128 := forall_chars (by decide)
    exact .inl (hascii _ hc)
  · rw [hc, ← Char.toNat_inj, toNat_toLower]
    split_ifs
    · left
      omega
    · exact .inr rfl

theorem looseLetter_looseLetter (c : Char) : looseLetter (looseLetter c) = looseLetter c := by
  rcases toNat_looseLetter c with h | h
  · rcases looseLetter_cases c with ⟨-, hc⟩ | hc
    · have hletters : ∀ d ∈ ['k', 'i', 's'], looseLetter d = d := forall_chars (by decide)
      exact hletters _ hc
    · rw [looseLetter_of_toNat h, hc, toLower_toLower]
  · rw [h, h]

theorem isSpace_looseLetter (c : Char) : isSpace (looseLetter c) = isSpace c := by
  rcases looseLetter_cases c with ⟨hc, hd⟩ | hc
  · fin_cases hc <;> rfl
  · rw [hc, isSpace_toLower]

theorem isWord_of_looseLetter (alphabet : Alphabet) {c : Char} (h : (looseLetter c).toNat < 128) :
    asciiWords.isWord (looseLetter c) = alphabet.words.isWord c := by
  rcases looseLetter_cases c with ⟨hc, hd⟩ | hc
  · have hletters : ∀ d ∈ ['k', 'i', 's'], asciiWords.isWord d = true := forall_chars (by decide)
    rw [alphabet.letters c hc, hletters _ hd]
  · have hascii : c.toNat < 128 := by
      rw [hc, toNat_toLower] at h
      split_ifs at h <;> omega
    rw [hc, alphabet.ascii c hascii]
    show (_ || _) = _
    congr 1
    · rw [Bool.eq_iff_iff]
      exact ⟨isAlphanum_of_toLower (toLower_toLower c).symm,
        isAlphanum_of_toLower (toLower_toLower c)⟩
    · rw [decide_eq_decide, ← Char.toNat_inj, ← Char.toNat_inj, toNat_toLower]
      show _ = 95 ↔ _ = 95
      split_ifs <;> omega

end Letters

section Results

variable (alphabet : Alphabet)

theorem respects_phrase (text : String) : (phrase text).Respects looseLetter :=
  respects_word looseLetter_looseLetter text.toList

theorem respects_plural (text : String) : (plural text).Respects looseLetter :=
  ⟨respects_phrase text, respects_optional (respects_phrase "s")⟩

theorem respects_blanks : blanks.Respects looseLetter := isSpace_looseLetter

theorem respects_space : space.Respects looseLetter := ⟨isSpace_looseLetter, isSpace_looseLetter⟩

theorem respects_sign :
    (Pattern.char fun c => decide (c = ':' ∨ c = '=')).Respects looseLetter := by
  intro c
  rw [decide_eq_decide]
  rcases looseLetter_cases c with ⟨hc, -⟩ | hc
  · fin_cases hc <;> decide
  · simp only [hc, ← Char.toNat_inj, toNat_toLower]
    show _ = 58 ∨ _ = 61 ↔ _ = 58 ∨ _ = 61
    split_ifs <;> omega

theorem respects_failureRe : failureRe.Respects looseLetter := by
  simp only [failureRe, Pattern.anyOf, Pattern.sequence, List.foldr, Pattern.Respects,
    respects_phrase, respects_plural, respects_space, respects_optional, and_self]

theorem respects_negatedMismatchRe : negatedMismatchRe.Respects looseLetter := by
  simp only [negatedMismatchRe, Pattern.anyOf, Pattern.sequence, List.foldr, Pattern.Respects,
    respects_phrase, respects_plural, respects_space, respects_optional, respects_blanks, and_self,
    true_and, and_true]
  exact respects_sign

def failureTexts : List (List Char) :=
  ["circuits do not match.".toList, "netlists do not match.".toList,
    "circuits match uniquely with port errors.".toList,
    "top level cell failed pin matching.".toList, "subcell(s) failed matching.".toList,
    "property errors were found.".toList, "the following cells had property errors:".toList]

theorem statesFailure_of_mem {line : List Char} (h : line.map looseLetter ∈ failureTexts) :
    statesFailure alphabet line = true := by
  have hascii : ∀ text ∈ failureTexts, ∀ c ∈ text, c.toNat < 128 := by
    simp only [failureTexts, List.forall_mem_cons]
    exact ⟨forall_chars (by decide), forall_chars (by decide), forall_chars (by decide),
      forall_chars (by decide), forall_chars (by decide), forall_chars (by decide),
      forall_chars (by decide), fun text htext => absurd htext List.not_mem_nil⟩
  have hword : ∀ c ∈ line, asciiWords.isWord (looseLetter c) = alphabet.words.isWord c :=
    fun c hc => isWord_of_looseLetter alphabet (hascii _ h _ (List.mem_map_of_mem hc))
  rw [statesFailure, finds, finds, ← search_map respects_failureRe hword,
    ← search_map respects_negatedMismatchRe hword]
  have hall : (failureTexts.all fun text => search asciiWords.isWord failureRe text &&
      !search asciiWords.isWord negatedMismatchRe text) = true := by
    decide +kernel
  exact List.all_eq_true.mp hall _ h

variable {alphabet}

/-- Blanks at the end of an expression match nothing where a line does not end in one. -/
theorem eq_nil_of_blanks {front blank : List Char} (hblank : ∀ c ∈ blank, isSpace c = true)
    (hend : ∀ c ∈ (front ++ blank).getLast?, isSpace c = false) : blank = [] := by
  by_contra hne
  have hlast : (front ++ blank).getLast? = some (blank.getLast hne) := by
    rw [List.getLast?_append_of_ne_nil _ hne, List.getLast?_eq_some_getLast hne]
  have hspace := hblank _ (List.getLast_mem hne)
  rw [hend _ hlast] at hspace
  cases hspace

theorem map_mem_of_terminalFailure {line : List Char}
    (hend : ∀ c ∈ line.getLast?, isSpace c = false)
    (h : matchesWhole alphabet terminalFailureRe line = true) :
    line.map looseLetter ∈ failureTexts := by
  obtain ⟨result, rest, rfl, hresult, dot, after, rfl, hdot, blank, nothing, rfl, hblank, rfl⟩ :=
    fullmatch_iff.mp h
  rw [List.append_nil, ← List.append_assoc] at hend
  rw [eq_nil_of_blanks hblank hend, List.append_nil, List.append_nil, List.map_append,
    matches_word.mp hdot]
  rcases hresult with ⟨name, verb, rfl, hname, hverb⟩ | hresult | hresult | hresult | hresult
  · obtain ⟨verb, nothing, rfl, hverb, rfl⟩ := hverb
    rw [List.append_nil, List.map_append, matches_word.mp hverb]
    rcases hname with hname | hname <;> rw [matches_word.mp hname] <;> decide
  all_goals
    rw [matches_word.mp hresult]
    decide

theorem map_mem_of_propertyFailure {line : List Char}
    (hend : ∀ c ∈ line.getLast?, isSpace c = false)
    (h : matchesWhole alphabet propertyFailureRe line = true) :
    line.map looseLetter ∈ failureTexts := by
  obtain ⟨result, rest, rfl, hresult, blank, nothing, rfl, hblank, rfl⟩ := fullmatch_iff.mp h
  rw [List.append_nil] at hend
  rw [eq_nil_of_blanks hblank hend, List.append_nil, List.append_nil]
  rcases hresult with hresult | hresult <;> rw [matches_word.mp hresult] <;> decide

end Results

section Markers

def failureMarkers : List (List Char) :=
  ["donotmatch".toList, "mismatche".toList, "propertyerror".toList, "porterror".toList,
    "matching".toList, "matchlocallybutnotglobally".toList]

abbrev denseLine (line : List Char) : List Char := dense looseLetter isSpace line

def IsUnmarked (line : List Char) : Prop :=
  ∀ word ∈ failureMarkers, ¬ word <:+: denseLine line

instance decidableUnmarked (line : List Char) : Decidable (IsUnmarked line) :=
  inferInstanceAs (Decidable (∀ word ∈ failureMarkers, ¬ word <:+: denseLine line))

theorem denseLine_strip (line : List Char) : denseLine (strip line) = denseLine line := by
  have hspaces : ∀ {text : List Char}, (∀ c ∈ text, isSpace c = true) →
      dense looseLetter isSpace text = [] := fun htext =>
    dense_eq_nil fun c hc => by rw [isSpace_looseLetter, htext c hc]
  have hleft : denseLine (lstrip isSpace line) = denseLine line := by
    conv_rhs => rw [← List.takeWhile_append_dropWhile (p := isSpace) (l := line)]
    rw [denseLine, denseLine, dense_append,
      hspaces fun c hc => List.mem_takeWhile_imp hc]
    rfl
  have hright : denseLine (strip line) = denseLine (lstrip isSpace line) := by
    conv_rhs =>
      rw [← List.rdropWhile_append_rtakeWhile (p := isSpace) (l := lstrip isSpace line)]
    rw [denseLine, denseLine, dense_append,
      hspaces fun c hc => List.mem_rtakeWhile_imp hc, List.append_nil]
    rfl
  rw [hright, hleft]

variable {isWord : Char → Bool}

theorem spells_phrase (text : String) : Spells isWord looseLetter isSpace (phrase text)
    [text.toList.filter fun c => !isSpace c] := spells_word text.toList

theorem spells_blanks : Spells isWord looseLetter isSpace blanks [[]] :=
  spells_gap fun c hc => by rw [isSpace_looseLetter, hc]

theorem spells_space : Spells isWord looseLetter isSpace space [[]] :=
  (spells_char fun c hc => by rw [isSpace_looseLetter, hc]).seq spells_blanks

theorem holds_phrase {text : String}
    (h : (failureMarkers.any fun word =>
      decide (word <:+: text.toList.filter fun c => !isSpace c)) = true) :
    Holds isWord looseLetter isSpace failureMarkers (phrase text) := by
  obtain ⟨word, hmem, hword⟩ := List.any_eq_true.mp h
  exact holds_word hmem (of_decide_eq_true hword)

theorem holds_mismatch : Holds isWord looseLetter isSpace failureMarkers
    (.sequence [.boundary, .anyOf [plural "netlist", plural "circuit"], space, phrase "do", space,
      phrase "not", space, phrase "match", .boundary]) :=
  .right (.right (.right (Spells.holds ((spells_phrase "do").seq (spells_space.seq
    ((spells_phrase "not").seq (spells_space.seq ((spells_phrase "match").seq
      (spells_boundary.seq spells_empty)))))) (by decide))))

theorem holds_failureRe : Holds isWord looseLetter isSpace failureMarkers failureRe :=
  .either holds_mismatch (.either (.right (.left (.left (holds_phrase (by decide)))))
    (.either (.right (.left (.left (holds_phrase (by decide)))))
    (.either (.right (.left (.left (holds_phrase (by decide)))))
    (.either (.right (.right (.right (.left (holds_phrase (by decide))))))
    (.either (.right (.right (.left (holds_phrase (by decide)))))
      (.right (.left (holds_phrase (by decide)))))))))

theorem holds_failureResult : Holds isWord looseLetter isSpace failureMarkers failureResult :=
  .either (.right (.left (holds_phrase (by decide)))) (.either (holds_phrase (by decide))
    (.either (holds_phrase (by decide)) (.either (holds_phrase (by decide))
      (holds_phrase (by decide)))))

theorem spells_bothNames : Spells isWord looseLetter isSpace bothNames
    ["circuits".toList, "netlists".toList] :=
  (spells_phrase "circuits").either (spells_phrase "netlists")

theorem spells_uniqueMatchRe : Spells isWord looseLetter isSpace uniqueMatchRe
    ["circuitsmatchuniquely.".toList, "netlistsmatchuniquely.".toList] :=
  spells_bothNames.seq ((spells_phrase " match uniquely.").seq (spells_blanks.seq spells_empty))

theorem spells_finalMatchRe : Spells isWord looseLetter isSpace finalMatchRe
    ["finalresult:circuitsmatchuniquely.".toList, "finalresult:netlistsmatchuniquely.".toList] :=
  (spells_phrase "final result:").seq (spells_blanks.seq (spells_bothNames.seq
    ((spells_phrase " match uniquely.").seq (spells_blanks.seq spells_empty))))

variable {alphabet : Alphabet}

theorem isUnmarked_of_finalMatch {line : List Char}
    (h : matchesWhole alphabet finalMatchRe line = true) : IsUnmarked line := by
  have hlacks : ∀ text ∈ ["finalresult:circuitsmatchuniquely.".toList,
      "finalresult:netlistsmatchuniquely.".toList], ∀ word ∈ failureMarkers, ¬ word <:+: text := by
    decide +kernel
  exact hlacks _ (spells_finalMatchRe none line [] (fullmatch_iff.mp h))

theorem isUnmarked_of_uniqueMatch {line : List Char}
    (h : matchesWhole alphabet uniqueMatchRe line = true) : IsUnmarked line := by
  have hlacks : ∀ text ∈ ["circuitsmatchuniquely.".toList, "netlistsmatchuniquely.".toList],
      ∀ word ∈ failureMarkers, ¬ word <:+: text := by
    decide +kernel
  exact hlacks _ (spells_uniqueMatchRe none line [] (fullmatch_iff.mp h))

theorem not_isUnmarked_of_finalFailure {line : List Char}
    (h : matchesWhole alphabet finalFailureRe line = true) : ¬ IsUnmarked line := by
  intro hline
  obtain ⟨word, hmem, hword⟩ : ∃ word ∈ failureMarkers, word <:+: denseLine line :=
    Holds.right (.right (.left holds_failureResult)) none line [] (fullmatch_iff.mp h)
  exact hline word hmem hword

end Markers

end OpenADA.Lvs
