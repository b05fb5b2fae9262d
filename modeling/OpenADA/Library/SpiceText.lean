import OpenADA.Library.CharClass

/-! The text of a SPICE deck: words, inline comments, physical lines, and the cards that
continuation lines make of them. -/
namespace SpiceText

open PyText

section Lexing

variable (space : Char → Bool)

def words (text : List Char) : List (List Char) :=
  (text.splitOnP space).filter fun word => !word.isEmpty

def trim (text : List Char) : List Char := rstrip space (lstrip space text)

/-- A semicolon, two slashes, or a dollar sign after a space or a comma start a comment. -/
def startsInline (c : Char) (rest : List Char) : Bool :=
  c = ';' || (c = '/' && rest.head? = some '/') || ((space c || c = ',') && rest.head? = some '$')

def withoutInline : List Char → List Char
  | [] => []
  | c :: rest => if startsInline space c rest then [] else c :: withoutInline rest

/-- What a line is to the lines before it: nothing, a card of its own, or more of the last card. -/
inductive LineKind where
  | skip
  | card (text : List Char)
  | more (body text : List Char)
  deriving DecidableEq

def rawKind (line : List Char) : LineKind :=
  match trim space line with
  | [] => .skip
  | '*' :: _ => .skip
  | '+' :: body => .more (trim space body) ('+' :: body)
  | text => .card text

def lineKind (line : List Char) : LineKind :=
  if (lstrip space line).head? ∈ [some '$', some '#'] then .skip
  else rawKind space (withoutInline space line)

end Lexing

section Stitching

variable (kind : List Char → LineKind)

/-- One line of a fold of numbered lines; a continuation of nothing is a statement of its own. -/
def stitch (statements : List (ℕ × List Char)) (line : List Char × ℕ) : List (ℕ × List Char) :=
  match kind line.1 with
  | .skip => statements
  | .card text => statements ++ [(line.2, text)]
  | .more body text =>
    match statements.getLast? with
    | some (first, before) => statements.dropLast ++ [(first, before ++ ' ' :: body)]
    | none => statements ++ [(line.2, text)]

def statements (lines : List (List Char)) : List (ℕ × List Char) :=
  (lines.zipIdx 1).foldl (stitch kind) []

/-- One line of a simulator's deck; a continuation of nothing is dropped. -/
def readLine (cards : List (List Char)) (line : List Char) : List (List Char) :=
  match kind line with
  | .skip => cards
  | .card text => cards ++ [text]
  | .more body _ =>
    match cards.getLast? with
    | some before => cards.dropLast ++ [before ++ ' ' :: body]
    | none => cards

def readCards (lines : List (List Char)) : List (List Char) := lines.foldl (readLine kind) []

/-- What is read of a deck from some card on does not depend on what stands before it. -/
theorem foldl_readLine_suffix {lines : List (List Char)} {start : ℕ}
    {before : List (ℕ × List Char)} {cards : List (List Char)}
    (h : cards <:+ before.map Prod.snd) :
    lines.foldl (readLine kind) cards <:+
      ((lines.zipIdx start).foldl (stitch kind) before).map Prod.snd := by
  induction lines generalizing start before cards with
  | nil => exact h
  | cons line rest ih =>
    rw [List.zipIdx_cons, List.foldl_cons, List.foldl_cons]
    apply ih
    obtain ⟨front, hfront⟩ := h
    unfold readLine stitch
    cases kind line with
    | skip => exact ⟨front, hfront⟩
    | card text =>
      rw [List.map_append, ← hfront, List.append_assoc]
      exact List.suffix_append _ _
    | more body text =>
      cases hcards : cards.getLast? with
      | none =>
        rw [List.getLast?_eq_none_iff] at hcards
        simp only [hcards]
        exact List.nil_suffix
      | some last =>
        have hlast : (before.map Prod.snd).getLast? = some last := by
          rw [← hfront, List.getLast?_append, hcards, Option.some_or]
        rw [List.getLast?_map, Option.map_eq_some_iff] at hlast
        obtain ⟨⟨first, text'⟩, hbefore, rfl⟩ := hlast
        have hne : cards ≠ [] := by
          rintro rfl
          cases hcards
        simp only [hbefore]
        refine ⟨front, ?_⟩
        rw [List.map_append, List.map_dropLast, ← hfront, List.dropLast_append_of_ne_nil hne,
          List.append_assoc]
        rfl

/-- A simulator's cards are the last statements of the fold of all lines, the title among them. -/
theorem readCards_suffix (lines : List (List Char)) :
    readCards kind lines.tail <:+ (statements kind lines).map Prod.snd := by
  cases lines with
  | nil => exact List.nil_suffix
  | cons title rest =>
    rw [List.tail_cons, readCards, statements, List.zipIdx_cons, List.foldl_cons]
    exact foldl_readLine_suffix kind List.nil_suffix

end Stitching

section Agreement

variable {p q : Char → Bool}

def Agree (p q : Char → Bool) (text : List Char) : Prop := ∀ c ∈ text, p c = q c

theorem Agree.subset {text part : List Char} (h : Agree p q text) (hpart : part ⊆ text) :
    Agree p q part := fun c hc => h c (hpart hc)

theorem lstrip_congr {text : List Char} (h : Agree p q text) : lstrip p text = lstrip q text := by
  induction text with
  | nil => rfl
  | cons c rest ih =>
    have hc := h c (List.mem_cons_self ..)
    rw [lstrip, lstrip, List.dropWhile_cons, List.dropWhile_cons, hc]
    split_ifs with hq
    · exact ih (h.subset (List.subset_cons_self _ _))
    · rfl

theorem rstrip_congr {text : List Char} (h : Agree p q text) : rstrip p text = rstrip q text := by
  have hreverse : Agree p q text.reverse := h.subset fun c hc => List.mem_reverse.mp hc
  rw [rstrip, rstrip, List.rdropWhile, List.rdropWhile]
  exact congrArg List.reverse (lstrip_congr hreverse)

theorem lstrip_subset (p : Char → Bool) (text : List Char) : lstrip p text ⊆ text :=
  (List.dropWhile_suffix p).subset

theorem rstrip_subset (p : Char → Bool) (text : List Char) : rstrip p text ⊆ text :=
  (List.rdropWhile_prefix p text).subset

theorem trim_subset (p : Char → Bool) (text : List Char) : trim p text ⊆ text :=
  List.Subset.trans (rstrip_subset p _) (lstrip_subset p text)

theorem trim_congr {text : List Char} (h : Agree p q text) : trim p text = trim q text := by
  rw [trim, trim, lstrip_congr h]
  exact rstrip_congr (h.subset (lstrip_subset q text))

theorem words_congr {text : List Char} (h : Agree p q text) : words p text = words q text := by
  have hsplit : text.splitOnP p = text.splitOnP q := by
    induction text with
    | nil => rfl
    | cons c rest ih =>
      rw [List.splitOnP_cons_eq_if_modifyHead, List.splitOnP_cons_eq_if_modifyHead,
        h c (List.mem_cons_self ..), ih (h.subset (List.subset_cons_self _ _))]
  rw [words, words, hsplit]

theorem withoutInline_subset (p : Char → Bool) (text : List Char) :
    withoutInline p text ⊆ text := by
  induction text with
  | nil => exact List.Subset.refl _
  | cons c rest ih =>
    rw [withoutInline]
    split_ifs
    · exact List.nil_subset _
    · exact List.cons_subset_cons c ih

theorem withoutInline_congr {text : List Char} (h : Agree p q text) :
    withoutInline p text = withoutInline q text := by
  induction text with
  | nil => rfl
  | cons c rest ih =>
    have hstart : startsInline p c rest = startsInline q c rest := by
      rw [startsInline, startsInline, h c (List.mem_cons_self ..)]
    rw [withoutInline, withoutInline, hstart, ih (h.subset (List.subset_cons_self _ _))]

theorem rawKind_congr {line : List Char} (h : Agree p q line) :
    rawKind p line = rawKind q line := by
  have htrim := trim_congr h
  have hsubset := trim_subset q line
  unfold rawKind
  rw [htrim]
  generalize trim q line = text at hsubset
  split
  · rfl
  · rfl
  next body =>
    rw [trim_congr (h.subset fun c hc => hsubset (List.mem_cons_of_mem _ hc))]
  · rfl

theorem lineKind_congr {line : List Char} (h : Agree p q line) :
    lineKind p line = lineKind q line := by
  rw [lineKind, lineKind, lstrip_congr h, withoutInline_congr h,
    rawKind_congr (h.subset (withoutInline_subset q line))]

structure Within (kind : List Char → LineKind) : Prop where
  card : ∀ {line text}, kind line = .card text → text ⊆ line
  more : ∀ {line body text}, kind line = .more body text → body ⊆ line ∧ text ⊆ line

theorem within_rawKind (p : Char → Bool) : Within (rawKind p) where
  card := by
    intro line text h
    have hsubset := trim_subset p line
    unfold rawKind at h
    generalize trim p line = stripped at hsubset h
    split at h
    · cases h
    · cases h
    · cases h
    · rwa [← LineKind.card.inj h]
  more := by
    intro line body text h
    have hsubset := trim_subset p line
    unfold rawKind at h
    generalize trim p line = stripped at hsubset h
    split at h
    · cases h
    · cases h
    next rest =>
      obtain ⟨rfl, rfl⟩ := LineKind.more.inj h
      exact ⟨fun c hc => hsubset (List.mem_cons_of_mem _ (trim_subset p rest hc)), hsubset⟩
    · cases h

theorem within_lineKind (p : Char → Bool) : Within (lineKind p) where
  card := by
    intro line text h
    unfold lineKind at h
    split_ifs at h
    exact List.Subset.trans ((within_rawKind p).card h) (withoutInline_subset p line)
  more := by
    intro line body text h
    unfold lineKind at h
    split_ifs at h
    obtain ⟨hbody, htext⟩ := (within_rawKind p).more h
    have hline := withoutInline_subset p line
    exact ⟨List.Subset.trans hbody hline, List.Subset.trans htext hline⟩

theorem readCards_forall {kind : List Char → LineKind} (hkind : Within kind) {G : Char → Prop}
    (hblank : G ' ') {lines : List (List Char)} (hlines : ∀ line ∈ lines, ∀ c ∈ line, G c) :
    ∀ card ∈ readCards kind lines, ∀ c ∈ card, G c := by
  unfold readCards
  suffices h : ∀ cards : List (List Char), (∀ card ∈ cards, ∀ c ∈ card, G c) →
      ∀ card ∈ lines.foldl (readLine kind) cards, ∀ c ∈ card, G c from
    h [] (by simp)
  induction lines with
  | nil => exact fun _ hcards => hcards
  | cons line rest ih =>
    intro cards hcards
    rw [List.foldl_cons]
    apply ih fun line hline => hlines line (List.mem_cons_of_mem _ hline)
    have hline := hlines line (List.mem_cons_self ..)
    unfold readLine
    cases hline' : kind line with
    | skip => exact hcards
    | card text =>
      intro card hcard
      rcases List.mem_append.mp hcard with hcard | hcard
      · exact hcards card hcard
      · rw [List.mem_singleton.mp hcard]
        exact fun c hc => hline c (hkind.card hline' hc)
    | more body text =>
      cases hlast : cards.getLast? with
      | none => exact hcards
      | some before =>
        intro card hcard
        rcases List.mem_append.mp hcard with hcard | hcard
        · exact hcards card ((List.dropLast_subset cards) hcard)
        · rw [List.mem_singleton.mp hcard]
          intro c hc
          rcases List.mem_append.mp hc with hc | hc
          · exact hcards before (List.mem_of_getLast? hlast) c hc
          · rcases List.mem_cons.mp hc with rfl | hc
            · exact hblank
            · exact hline c ((hkind.more hline').1 hc)

theorem statements_forall {kind : List Char → LineKind} (hkind : Within kind)
    {G : Char → Prop} (hblank : G ' ') {lines : List (List Char)}
    (hlines : ∀ line ∈ lines, ∀ c ∈ line, G c) :
    ∀ statement ∈ statements kind lines, ∀ c ∈ statement.2, G c := by
  unfold statements
  suffices h : ∀ (start : ℕ) (before : List (ℕ × List Char)),
      (∀ statement ∈ before, ∀ c ∈ statement.2, G c) →
      ∀ statement ∈ (lines.zipIdx start).foldl (stitch kind) before, ∀ c ∈ statement.2, G c from
    h 1 [] (by simp)
  induction lines with
  | nil => exact fun _ _ hbefore => hbefore
  | cons line rest ih =>
    intro start before hbefore
    rw [List.zipIdx_cons, List.foldl_cons]
    apply ih fun line hline => hlines line (List.mem_cons_of_mem _ hline)
    have hline := hlines line (List.mem_cons_self ..)
    have hnew {text : List Char} (htext : text ⊆ line) : ∀ statement ∈ before ++ [(start, text)],
        ∀ c ∈ statement.2, G c := by
      intro statement hstatement
      rcases List.mem_append.mp hstatement with hstatement | hstatement
      · exact hbefore statement hstatement
      · rw [List.mem_singleton.mp hstatement]
        exact fun c hc => hline c (htext hc)
    unfold stitch
    cases hline' : kind line with
    | skip => exact hbefore
    | card text => exact hnew (hkind.card hline')
    | more body text =>
      cases hlast : before.getLast? with
      | none => exact hnew (hkind.more hline').2
      | some last =>
        intro statement hstatement
        rcases List.mem_append.mp hstatement with hstatement | hstatement
        · exact hbefore statement ((List.dropLast_subset before) hstatement)
        · rw [List.mem_singleton.mp hstatement]
          intro c hc
          rcases List.mem_append.mp hc with hc | hc
          · exact hbefore last (List.mem_of_getLast? hlast) c hc
          · rcases List.mem_cons.mp hc with rfl | hc
            · exact hblank
            · exact hline c ((hkind.more hline').1 hc)

theorem readCards_congr {kind kind' : List Char → LineKind} {lines : List (List Char)}
    (h : ∀ line ∈ lines, kind line = kind' line) :
    readCards kind lines = readCards kind' lines := by
  unfold readCards
  refine List.foldl_ext _ _ _ ?_
  intro cards line hline
  rw [readLine, readLine, h line hline]

theorem statements_congr {kind kind' : List Char → LineKind} {lines : List (List Char)}
    (h : ∀ line ∈ lines, kind line = kind' line) :
    statements kind lines = statements kind' lines := by
  unfold statements
  refine List.foldl_ext _ _ _ ?_
  intro before line hline
  rw [stitch, stitch, h line.1 (List.fst_mem_of_mem_zipIdx hline)]

end Agreement

section Words

variable {p : Char → Bool}

theorem head?_lstrip {text : List Char} {c : Char} (h : (lstrip p text).head? = some c) :
    p c = false := by
  induction text with
  | nil => cases h
  | cons d rest ih =>
    rw [lstrip, List.dropWhile_cons] at h
    split_ifs at h with hd
    · exact ih h
    · rw [← Option.some.inj h]
      exact Bool.eq_false_iff.mpr hd

theorem words_append_cons {c : Char} (hc : p c = true) (x y : List Char) :
    words p (x ++ c :: y) = words p x ++ words p y := by
  rw [words, words, words, List.splitOnP_append_cons x y hc, List.filter_append]

theorem words_cons_space {c : Char} (hc : p c = true) (text : List Char) :
    words p (c :: text) = words p text := words_append_cons hc [] text

theorem words_lstrip (p : Char → Bool) (text : List Char) :
    words p (lstrip p text) = words p text := by
  induction text with
  | nil => rfl
  | cons c rest ih =>
    rw [lstrip, List.dropWhile_cons]
    split_ifs with hc
    · rw [words_cons_space hc]
      exact ih
    · rfl

theorem words_rstrip (p : Char → Bool) (text : List Char) :
    words p (rstrip p text) = words p text := by
  induction text using List.reverseRecOn with
  | nil => rfl
  | append_singleton text c ih =>
    by_cases hc : p c = true
    · rw [rstrip, List.rdropWhile_concat_pos _ _ _ hc, words_append_cons hc]
      exact ih.trans (List.append_nil _).symm
    · rw [rstrip, List.rdropWhile_concat_neg _ _ _ hc]

theorem words_trim (p : Char → Bool) (text : List Char) : words p (trim p text) = words p text := by
  rw [trim, words_rstrip, words_lstrip]

theorem flatten_words (p : Char → Bool) (text : List Char) :
    (words p text).flatten = text.filter fun c => !p c := by
  have hfilter (parts : List (List Char)) :
      (parts.filter fun word => !word.isEmpty).flatten = parts.flatten := by
    induction parts with
    | nil => rfl
    | cons part rest ih => cases part <;> simp [ih]
  rw [words, hfilter]
  induction text with
  | nil => rfl
  | cons c rest ih =>
    obtain ⟨first, others, hsplit⟩ := List.exists_cons_of_ne_nil (List.splitOnP_ne_nil p rest)
    rw [List.splitOnP_cons_eq_if_modifyHead, List.filter_cons, ← ih, hsplit]
    by_cases hc : p c = true
    · simp [hc]
    · simp [hc]

theorem words_of_forall {word : List Char} (hne : word ≠ []) (h : ∀ c ∈ word, p c = false) :
    words p word = [word] := by
  rw [words, List.splitOnP_eq_singleton h]
  simp [hne]

theorem exists_of_words_cons {text word : List Char} {rest : List (List Char)}
    (h : words p text = word :: rest) : ∃ gap after, text = gap ++ word ++ after ∧
      (∀ c ∈ gap, p c = true) ∧ (∀ c ∈ after.head?, p c = true) ∧ word ≠ [] ∧
      (∀ c ∈ word, p c = false) ∧ words p after = rest := by
  have hword : words p (lstrip p text) = word :: rest := (words_lstrip p text).trans h
  have hgap : text = text.takeWhile p ++ lstrip p text := (List.takeWhile_append_dropWhile).symm
  have hgap' : ∀ c ∈ text.takeWhile p, p c = true := fun c hc => List.mem_takeWhile_imp hc
  have hstart : ∀ c ∈ (lstrip p text).head?, p c = false := fun c hc => head?_lstrip hc
  generalize lstrip p text = stripped at hword hgap hstart
  have hsplit : stripped = stripped.takeWhile (fun c => !p c) ++ stripped.dropWhile fun c => !p c :=
    (List.takeWhile_append_dropWhile).symm
  have hletters : ∀ c ∈ stripped.takeWhile fun c => !p c, p c = false := fun c hc => by
    simpa using List.mem_takeWhile_imp hc
  have hafter : ∀ c ∈ (stripped.dropWhile fun c => !p c).head?, p c = true := by
    intro c hc
    have h := List.head?_dropWhile_not (fun c => !p c) stripped
    rw [Option.mem_def.mp hc] at h
    simpa using h
  have hne : stripped.takeWhile (fun c => !p c) ≠ [] := by
    cases stripped with
    | nil => cases hword
    | cons c more =>
      have hc := hstart c rfl
      rw [List.takeWhile_cons, hc]
      exact List.cons_ne_nil _ _
  have hwords : words p stripped = stripped.takeWhile (fun c => !p c) ::
      words p (stripped.dropWhile fun c => !p c) := by
    cases hrest : stripped.dropWhile (fun c => !p c) with
    | nil =>
      rw [hrest, List.append_nil] at hsplit
      conv_lhs => rw [hsplit]
      exact words_of_forall hne hletters
    | cons c more =>
      have hc : p c = true := hafter c (by rw [hrest]; rfl)
      rw [hrest] at hsplit
      conv_lhs => rw [hsplit]
      rw [words_append_cons hc, words_of_forall hne hletters, words_cons_space hc]
      rfl
  rw [hwords] at hword
  obtain ⟨rfl, rfl⟩ := List.cons.inj hword
  refine ⟨_, _, ?_, hgap', hafter, hne, hletters, rfl⟩
  rw [List.append_assoc, ← hsplit]
  exact hgap

theorem exists_of_words_append {text word : List Char} {front rest : List (List Char)}
    (h : words p text = front ++ word :: rest) : ∃ before after, text = before ++ word ++ after ∧
      (∀ c ∈ before.getLast?, p c = true) ∧ (∀ c ∈ after.head?, p c = true) ∧ word ≠ [] ∧
      (∀ c ∈ word, p c = false) ∧ words p after = rest := by
  induction front generalizing text with
  | nil =>
    obtain ⟨gap, after, htext, hgap, hafter, hne, hword, hrest⟩ := exists_of_words_cons h
    refine ⟨gap, after, htext, ?_, hafter, hne, hword, hrest⟩
    exact fun c hc => hgap c (List.mem_of_getLast? hc)
  | cons first front ih =>
    obtain ⟨gap, after, rfl, hgap, hafter, hne, -, hrest⟩ := exists_of_words_cons h
    obtain ⟨before, tail, rfl, hbefore, htail, hne', hword, hwords⟩ := ih hrest
    refine ⟨gap ++ first ++ before, tail, by simp, ?_, htail, hne', hword, hwords⟩
    intro c hc
    rw [List.getLast?_append] at hc
    cases hlast : before.getLast? with
    | some d =>
      rw [hlast, Option.some_or] at hc
      exact hbefore c (hlast ▸ hc)
    | none =>
      -- then the word itself follows the one before it, which a space must
      rw [List.getLast?_eq_none_iff] at hlast
      subst hlast
      obtain ⟨d, more, rfl⟩ := List.exists_cons_of_ne_nil hne'
      have hspace := hafter d rfl
      rw [hword d (List.mem_cons_self ..)] at hspace
      cases hspace

theorem words_ne_nil {text : List Char} {c : Char} (hmem : c ∈ text) (hc : p c = false) :
    words p text ≠ [] := by
  obtain ⟨before, after, rfl⟩ := List.append_of_mem hmem
  induction before with
  | nil =>
    rw [List.nil_append, words, List.splitOnP_cons_eq_if_modifyHead, if_neg (by rw [hc]; simp)]
    obtain ⟨first, rest, hsplit⟩ := List.exists_cons_of_ne_nil (List.splitOnP_ne_nil p after)
    rw [hsplit]
    simp
  | cons d before ih =>
    by_cases hd : p d = true
    · rw [List.cons_append, words_cons_space hd]
      exact ih (by simp)
    · rw [List.cons_append, words, List.splitOnP_cons_eq_if_modifyHead, if_neg hd]
      obtain ⟨first, rest, hsplit⟩ :=
        List.exists_cons_of_ne_nil (List.splitOnP_ne_nil p (before ++ c :: after))
      rw [hsplit]
      simp

theorem rstrip_cons {c : Char} (hc : p c = false) (text : List Char) :
    rstrip p (c :: text) = c :: rstrip p text := by
  induction text using List.reverseRecOn with
  | nil =>
    have hkeep := List.rdropWhile_concat_neg p [] c (by rw [hc]; simp)
    exact hkeep
  | append_singleton text d ih =>
    rw [← List.cons_append]
    by_cases hd : p d = true
    · rw [rstrip, List.rdropWhile_concat_pos _ _ _ hd, rstrip, List.rdropWhile_concat_pos _ _ _ hd]
      exact ih
    · rw [rstrip, List.rdropWhile_concat_neg _ _ _ hd, rstrip, List.rdropWhile_concat_neg _ _ _ hd]
      rfl

theorem lstrip_rstrip (p : Char → Bool) (text : List Char) :
    lstrip p (rstrip p text) = trim p text := by
  induction text using List.reverseRecOn with
  | nil => rfl
  | append_singleton text c ih =>
    rw [trim]
    by_cases hc : p c = true
    · rw [rstrip, List.rdropWhile_concat_pos _ _ _ hc, ← rstrip, ih, trim, lstrip, lstrip,
        List.dropWhile_append]
      split_ifs with hempty
      · rw [List.isEmpty_iff.mp hempty, List.dropWhile_cons_of_pos hc]
        rfl
      · rw [rstrip, rstrip, List.rdropWhile_concat_pos _ _ _ hc]
    · have hkeep (front : List Char) : rstrip p (front ++ [c]) = front ++ [c] :=
        List.rdropWhile_concat_neg _ _ _ hc
      rw [hkeep, lstrip, List.dropWhile_append]
      split_ifs with hempty
      · rw [List.dropWhile_cons_of_neg hc]
        exact (hkeep []).symm
      · exact (hkeep _).symm

theorem trim_rstrip (p : Char → Bool) (text : List Char) :
    trim p (rstrip p text) = trim p text := by
  rw [← lstrip_rstrip p (rstrip p text)]
  have hidem : rstrip p (rstrip p text) = rstrip p text := List.rdropWhile_idempotent p text
  rw [hidem, lstrip_rstrip]

end Words

section Heads

variable {p : Char → Bool}

theorem head?_trim (p : Char → Bool) (text : List Char) :
    (trim p text).head? = (lstrip p text).head? := by
  unfold trim
  cases hlstrip : lstrip p text with
  | nil => rfl
  | cons c rest =>
    have hc : p c = false := head?_lstrip (by rw [hlstrip, List.head?_cons])
    have hne : rstrip p (c :: rest) ≠ [] := by
      intro hempty
      rw [rstrip, List.rdropWhile_eq_nil_iff] at hempty
      have hspace := hempty c (List.mem_cons_self ..)
      rw [hc] at hspace
      cases hspace
    obtain ⟨d, front, hcons⟩ := List.exists_cons_of_ne_nil hne
    have hprefix := List.rdropWhile_prefix p (c :: rest)
    rw [← rstrip, hcons] at hprefix
    rw [hcons, List.head?_cons, List.head?_cons, (List.cons_prefix_cons.mp hprefix).1]

theorem head?_lstrip_withoutInline {line : List Char} {c : Char}
    (h : (lstrip p (withoutInline p line)).head? = some c) : (lstrip p line).head? = some c := by
  induction line with
  | nil => cases h
  | cons d rest ih =>
    rw [withoutInline] at h
    split_ifs at h
    · cases h
    · rw [lstrip, List.dropWhile_cons] at h ⊢
      split_ifs at h ⊢
      · exact ih h
      · exact h

theorem rawKind_of_head {line : List Char} {c : Char} (h : (trim p line).head? = some c)
    (hstar : c ≠ '*') (hplus : c ≠ '+') : rawKind p line = .card (trim p line) := by
  unfold rawKind
  generalize trim p line = text at h
  split
  · cases h
  · exact absurd (Option.some.inj h).symm hstar
  · exact absurd (Option.some.inj h).symm hplus
  · rfl

theorem head_of_rawKind {line text : List Char} (h : rawKind p line = .card text) :
    text = trim p line ∧ ∃ c, text.head? = some c ∧ c ≠ '*' ∧ c ≠ '+' := by
  unfold rawKind at h
  generalize trim p line = stripped at h
  split at h
  · cases h
  · cases h
  · cases h
  next hnil hstar hplus =>
    obtain rfl := LineKind.card.inj h
    refine ⟨rfl, ?_⟩
    cases stripped with
    | nil => exact absurd rfl hnil
    | cons c rest =>
      refine ⟨c, rfl, ?_, ?_⟩
      · rintro rfl
        exact hstar rest rfl
      · rintro rfl
        exact hplus rest rfl

theorem exists_rawKind_card {line text : List Char} (h : lineKind p line = .card text) :
    ∃ raw, rawKind p line = .card raw := by
  unfold lineKind at h
  split_ifs at h
  obtain ⟨rfl, c, hc, hstar, hplus⟩ := head_of_rawKind h
  rw [head?_trim] at hc
  have hline := head?_lstrip_withoutInline hc
  rw [← head?_trim] at hline
  exact ⟨_, rawKind_of_head hline hstar hplus⟩

end Heads

section Physical

def isCSpace (c : Char) : Bool := c = ' ' || (9 ≤ c.toNat && c.toNat ≤ 13)

/-- The lines that newlines end; `line` is the line read so far. -/
def newlineLines (line : List Char) : List Char → List (List Char)
  | [] => [rstrip (· = '\r') line]
  | c :: rest =>
    if c = '\n' then rstrip (· = '\r') line :: newlineLines [] rest
    else newlineLines (line ++ [c]) rest

/-- The lines a simulator reads; a carriage return before a newline belongs to the line ending. -/
def physicalLines (text : List Char) : List (List Char) := newlineLines [] text

/-- The cards a simulator reads of a deck, whose first line is its title. -/
def simulatorCards (text : List Char) : List (List Char) :=
  readCards (lineKind isCSpace) (physicalLines text).tail

/-- The only spaces are blanks and tabs, and the only line breaks newlines, with or without a
carriage return. -/
def isPlain : List Char → Bool
  | [] => true
  | c :: rest =>
    (if c = '\r' then rest.head? = some '\n'
      else !isSpace c || c = ' ' || c = '\t' || c = '\n') && isPlain rest

theorem isCSpace_eq_of_isPlain {text : List Char} (h : isPlain text = true) :
    Agree isCSpace isSpace text := by
  induction text with
  | nil => exact fun c hc => absurd hc List.not_mem_nil
  | cons c rest ih =>
    rw [isPlain, Bool.and_eq_true] at h
    intro d hd
    rcases List.mem_cons.mp hd with rfl | hd
    · have hhead := h.1
      split_ifs at hhead with hreturn
      · rw [hreturn]
        rfl
      · simp only [Bool.or_eq_true, Bool.not_eq_true', decide_eq_true_eq] at hhead
        rcases hhead with ((hspace | rfl) | rfl) | rfl
        · rw [hspace]
          by_contra hc
          rw [Bool.not_eq_false] at hc
          have hspace' : isSpace d = true := by
            simp only [isCSpace, Bool.or_eq_true, Bool.and_eq_true, decide_eq_true_eq] at hc
            simp only [isSpace, Bool.or_eq_true, Bool.and_eq_true, decide_eq_true_eq]
            rcases hc with rfl | hc
            · decide
            · omega
          rw [hspace] at hspace'
          cases hspace'
        · rfl
        · rfl
        · rfl
    · exact ih h.2 d hd

theorem rstrip_return {line : List Char} (h : '\r' ∉ line) : rstrip (· = '\r') line = line := by
  rw [rstrip, List.rdropWhile_eq_self_iff]
  intro hne hlast
  exact h (of_decide_eq_true hlast ▸ List.getLast_mem hne)

/-- The only line breaks are newlines, with or without a carriage return. -/
def plainBreaks : List Char → Bool
  | [] => true
  | c :: rest =>
    (if c = '\r' then rest.head? = some '\n' else !isLineBreak c || c = '\n') && plainBreaks rest

theorem plainBreaks_of_isPlain {text : List Char} (h : isPlain text = true) :
    plainBreaks text = true := by
  induction text with
  | nil => rfl
  | cons c rest ih =>
    rw [isPlain, Bool.and_eq_true] at h
    rw [plainBreaks, Bool.and_eq_true]
    refine ⟨?_, ih h.2⟩
    have hhead := h.1
    split_ifs at hhead ⊢ with hreturn
    · exact hhead
    · cases hbreak : isLineBreak c with
      | false => rfl
      | true =>
        rw [isSpace_of_isLineBreak hbreak] at hhead
        simp only [Bool.not_true, Bool.false_or, Bool.or_eq_true, decide_eq_true_eq] at hhead
        rcases hhead with (rfl | rfl) | rfl
        · cases hbreak
        · cases hbreak
        · rfl

theorem eq_newline {c : Char} {rest : List Char} (hplain : plainBreaks (c :: rest) = true)
    (hreturn : c ≠ '\r') (hbreak : isLineBreak c = true) : c = '\n' := by
  rw [plainBreaks, Bool.and_eq_true, if_neg hreturn, hbreak] at hplain
  simpa using hplain.1

theorem plainBreaks_tail {c : Char} {rest : List Char} (h : plainBreaks (c :: rest) = true) :
    plainBreaks rest = true := by
  rw [plainBreaks, Bool.and_eq_true] at h
  exact h.2

/-- The lines of a text with plain line breaks are those `str.splitlines` breaks it into, with an
empty one after a newline at its end. -/
theorem newlineLines_of_breaks (line text : List Char) (hline : '\r' ∉ line)
    (htext : plainBreaks text = true) : ∃ tail, (tail = [] ∨ tail = [[]]) ∧
      newlineLines line text = (breakLines line text).map Prod.fst ++ tail := by
  fun_induction breakLines line text with
  | case1 line hempty =>
    rw [List.isEmpty_iff] at hempty
    subst hempty
    exact ⟨[[]], .inr rfl, rfl⟩
  | case2 line hne => exact ⟨[], .inl rfl, by rw [newlineLines, rstrip_return hline]; rfl⟩
  | case3 line c hbreak =>
    have hreturn : c ≠ '\r' := by
      rintro rfl
      cases htext
    obtain rfl := eq_newline htext hreturn hbreak
    refine ⟨[[]], .inr rfl, ?_⟩
    rw [newlineLines, if_pos rfl, rstrip_return hline]
    rfl
  | case4 line c hbreak =>
    have hreturn : c ≠ '\r' := by
      rintro rfl
      cases htext
    have hnewline : c ≠ '\n' := by
      rintro rfl
      exact hbreak rfl
    refine ⟨[], .inl rfl, ?_⟩
    rw [newlineLines, if_neg hnewline, newlineLines, rstrip_return]
    · rfl
    · intro h
      rcases List.mem_append.mp h with h | h
      · exact hline h
      · exact hreturn (List.mem_singleton.mp h).symm
  | case5 line c next rest hreturn ih =>
    obtain ⟨rfl, rfl⟩ := hreturn
    obtain ⟨tail, htail, heq⟩ := ih (by simp) (plainBreaks_tail (plainBreaks_tail htext))
    refine ⟨tail, htail, ?_⟩
    have hstrip : rstrip (· = '\r') (line ++ ['\r']) = line := by
      rw [rstrip, List.rdropWhile_concat_pos _ _ _ rfl]
      exact rstrip_return hline
    rw [newlineLines, if_neg (by decide), newlineLines, if_pos rfl, hstrip, heq]
    rfl
  | case6 line c next rest hreturn hbreak ih =>
    have hreturn : c ≠ '\r' := by
      rintro rfl
      rw [plainBreaks, Bool.and_eq_true, if_pos rfl] at htext
      have hnext := of_decide_eq_true htext.1
      exact hreturn ⟨rfl, Option.some.inj hnext⟩
    obtain rfl := eq_newline htext hreturn hbreak
    obtain ⟨tail, htail, heq⟩ := ih (by simp) (plainBreaks_tail htext)
    refine ⟨tail, htail, ?_⟩
    rw [newlineLines, if_pos rfl, rstrip_return hline, heq]
    rfl
  | case7 line c next rest hreturn hbreak ih =>
    have hnewline : c ≠ '\n' := by
      rintro rfl
      exact hbreak rfl
    have hreturn' : c ≠ '\r' := by
      rintro rfl
      exact hbreak rfl
    obtain ⟨tail, htail, heq⟩ := ih (by
      intro h
      rcases List.mem_append.mp h with h | h
      · exact hline h
      · exact hreturn' (List.mem_singleton.mp h).symm) (plainBreaks_tail htext)
    refine ⟨tail, htail, ?_⟩
    rw [newlineLines, if_neg hnewline, heq]

/-- The lines of a plain text are those `str.splitlines` breaks it into, with an empty one after a
newline at its end. -/
theorem newlineLines_eq (line text : List Char) (hline : '\r' ∉ line)
    (htext : isPlain text = true) : ∃ tail, (tail = [] ∨ tail = [[]]) ∧
      newlineLines line text = (breakLines line text).map Prod.fst ++ tail :=
  newlineLines_of_breaks line text hline (plainBreaks_of_isPlain htext)

theorem mem_of_mem_newlineLines {line text physical : List Char} {c : Char}
    (hphysical : physical ∈ newlineLines line text) (hc : c ∈ physical) : c ∈ line ++ text := by
  induction text generalizing line with
  | nil =>
    rw [newlineLines, List.mem_singleton] at hphysical
    subst hphysical
    exact List.mem_append_left _ (rstrip_subset _ _ hc)
  | cons d rest ih =>
    rw [newlineLines] at hphysical
    split_ifs at hphysical with hnewline
    · rcases List.mem_cons.mp hphysical with rfl | hphysical
      · exact List.mem_append_left _ (rstrip_subset _ _ hc)
      · have h := ih hphysical
        rw [List.nil_append] at h
        exact List.mem_append_right _ (List.mem_cons_of_mem _ h)
    · have h := ih hphysical
      rwa [List.append_assoc, List.singleton_append] at h

theorem agree_of_mem_physicalLines {text line : List Char} (h : isPlain text = true)
    (hline : line ∈ physicalLines text) : Agree isCSpace isSpace line :=
  (isCSpace_eq_of_isPlain h).subset fun _ hc => mem_of_mem_newlineLines hline hc

theorem statements_physicalLines {text : List Char} (h : isPlain text = true) :
    statements (rawKind isCSpace) (physicalLines text) =
      statements (rawKind isSpace) (splitLines text) := by
  have hcongr : statements (rawKind isCSpace) (physicalLines text) =
      statements (rawKind isSpace) (physicalLines text) :=
    statements_congr fun line hline => rawKind_congr (agree_of_mem_physicalLines h hline)
  obtain ⟨tail, htail, hlines⟩ := newlineLines_eq [] text (by simp) h
  rw [hcongr, physicalLines, hlines, ← splitLines]
  rcases htail with rfl | rfl
  · rw [List.append_nil]
  · rw [statements, statements, List.zipIdx_append, List.foldl_append]
    rfl

/-- The cards of a plain deck are the last statements of the fold of its Python lines. -/
theorem simulatorCards_suffix {text : List Char} (h : isPlain text = true) :
    simulatorCards text <:+
      (statements (lineKind isSpace) (splitLines text)).map Prod.snd := by
  obtain ⟨tail, htail, hlines⟩ := newlineLines_eq [] text (by simp) h
  have hcongr : simulatorCards text = readCards (lineKind isSpace) (physicalLines text).tail := by
    refine readCards_congr ?_
    intro line hline
    exact lineKind_congr (agree_of_mem_physicalLines h (List.mem_of_mem_tail hline))
  have htails : readCards (lineKind isSpace) (physicalLines text).tail =
      readCards (lineKind isSpace) (splitLines text).tail := by
    rw [physicalLines, hlines, ← splitLines]
    rcases htail with rfl | rfl
    · rw [List.append_nil]
    · cases splitLines text with
      | nil => rfl
      | cons title rest =>
        rw [List.cons_append, List.tail_cons, List.tail_cons, readCards, readCards,
          List.foldl_append]
        rfl
  rw [hcongr, htails]
  exact readCards_suffix _ _

theorem agree_of_mem_simulatorCards {text card : List Char} (h : isPlain text = true)
    (hcard : card ∈ simulatorCards text) : Agree isCSpace isSpace card :=
  readCards_forall (within_lineKind isCSpace) (G := fun c => isCSpace c = isSpace c) rfl
    (fun _ hline => agree_of_mem_physicalLines h (List.mem_of_mem_tail hline)) card hcard

theorem agree_of_mem_statements {text : List Char} {statement : ℕ × List Char}
    (h : isPlain text = true)
    (hstatement : statement ∈ statements (rawKind isCSpace) (physicalLines text)) :
    Agree isCSpace isSpace statement.2 :=
  statements_forall (within_rawKind isCSpace) (G := fun c => isCSpace c = isSpace c) rfl
    (fun _ hline => agree_of_mem_physicalLines h hline) statement hstatement

end Physical

section Letters

def asciiLower (text : List Char) : List Char := text.map Char.toLower

theorem toNat_toLower (c : Char) :
    c.toLower.toNat = if 65 ≤ c.toNat ∧ c.toNat ≤ 90 then c.toNat + 32 else c.toNat := by
  delta Char.toLower
  simp only [ge_iff_le, UInt32.le_iff_toNat_le]
  split_ifs with hupper hupper' hupper'
  · rw [← Char.toNat_val, UInt32.toNat_add]
    show (c.toNat + 32) % _ = _
    omega
  · exact absurd hupper hupper'
  · exact absurd hupper' hupper
  · rfl

theorem toLower_toLower (c : Char) : c.toLower.toLower = c.toLower := by
  have hnat : c.toLower.toLower.toNat = c.toLower.toNat := by
    rw [toNat_toLower, toNat_toLower c]
    split_ifs <;> omega
  exact Char.toNat_inj.mp hnat

theorem isAlphanum_of_toLower {c d : Char} (h : c.toLower = d.toLower)
    (hd : d.isAlphanum = true) : c.isAlphanum = true := by
  have hnat := congrArg Char.toNat h
  rw [toNat_toLower, toNat_toLower] at hnat
  rw [isAlphanum_iff] at hd ⊢
  split_ifs at hnat <;> omega

theorem isSpace_toLower (c : Char) : isSpace c.toLower = isSpace c := by
  by_cases h : 65 ≤ c.toNat ∧ c.toNat ≤ 90
  · simp only [isSpace, toNat_toLower, if_pos h]
    rw [Bool.eq_iff_iff]
    simp only [Bool.or_eq_true, Bool.and_eq_true, decide_eq_true_eq]
    omega
  · simp only [isSpace, toNat_toLower, if_neg h]

/-- What the interpreter's case mapping does to a word of ASCII, whatever follows. -/
theorem lowerFrom_ascii (cases : CaseMap) {word : List Char} (hword : ∀ c ∈ word, c.toNat < 128)
    (before rest : List Char) : cases.lowerFrom before (word ++ rest) =
      asciiLower word ++ cases.lowerFrom (before ++ word) rest := by
  induction word generalizing before with
  | nil => rw [List.append_nil]; rfl
  | cons c word ih =>
    have hc := hword c (List.mem_cons_self ..)
    have hsigma : c ≠ 'Σ' := by
      rintro rfl
      revert hc
      decide
    rw [List.cons_append, CaseMap.lowerFrom, if_neg hsigma, cases.ascii c hc,
      ih (fun d hd => hword d (List.mem_cons_of_mem _ hd)), List.append_assoc]
    rfl

theorem lowerFrom_space (cases : CaseMap) {c : Char} (hc : isSpace c = true)
    (before rest : List Char) :
    cases.lowerFrom before (c :: rest) = c :: cases.lowerFrom (before ++ [c]) rest := by
  have hsigma : c ≠ 'Σ' := by
    rintro rfl
    revert hc
    decide
  rw [CaseMap.lowerFrom, if_neg hsigma, cases.space c hc]
  rfl

theorem head_words_lower (cases : CaseMap) {text word : List Char} {rest : List (List Char)}
    (h : words isSpace text = word :: rest) (hascii : ∀ c ∈ word, c.toNat < 128) :
    ∃ more, words isSpace (cases.lower text) = asciiLower word :: more := by
  obtain ⟨gap, after, rfl, hgap, hafter, hne, hword, -⟩ := exists_of_words_cons h
  have hlower : asciiLower word ≠ [] := by
    intro hempty
    exact hne (List.map_eq_nil_iff.mp hempty)
  have hletters : ∀ c ∈ asciiLower word, isSpace c = false := by
    intro c hc
    obtain ⟨d, hd, rfl⟩ := List.mem_map.mp hc
    rw [isSpace_toLower]
    exact hword d hd
  have hstart : ∀ before, ∃ more, words isSpace (cases.lowerFrom before (word ++ after)) =
      asciiLower word :: more := by
    intro before
    rw [lowerFrom_ascii cases hascii]
    cases after with
    | nil =>
      refine ⟨[], ?_⟩
      rw [CaseMap.lowerFrom, List.append_nil]
      exact words_of_forall hlower hletters
    | cons c after =>
      have hc := hafter c rfl
      rw [lowerFrom_space cases hc, words_append_cons hc, words_of_forall hlower hletters]
      exact ⟨_, rfl⟩
  rw [CaseMap.lower, List.append_assoc]
  clear h
  generalize ([] : List Char) = before
  induction gap generalizing before with
  | nil => exact hstart before
  | cons c gap ih =>
    rw [List.cons_append, lowerFrom_space cases (hgap c (List.mem_cons_self ..)),
      words_cons_space (hgap c (List.mem_cons_self ..))]
    exact ih (fun d hd => hgap d (List.mem_cons_of_mem _ hd)) _

end Letters

section Joined

def joinedLines (lines : List (List Char)) : List Char := lines.flatMap fun line => line ++ ['\n']

theorem breakLines_append {line : List Char} (h : ∀ c ∈ line, isLineBreak c = false)
    (before rest : List Char) :
    breakLines before (line ++ '\n' :: rest) = (before ++ line, ['\n']) :: breakLines [] rest := by
  induction line generalizing before with
  | nil =>
    cases rest with
    | nil =>
      rw [List.nil_append, List.append_nil]
      rfl
    | cons c rest =>
      rw [List.nil_append, breakLines, if_neg (by simp), if_pos (by decide), List.append_nil]
  | cons c line ih =>
    have hc := h c (List.mem_cons_self ..)
    have hreturn : c ≠ '\r' := by
      rintro rfl
      revert hc
      decide
    obtain ⟨d, more, hmore⟩ := List.exists_cons_of_ne_nil
      (List.append_ne_nil_of_right_ne_nil line (List.cons_ne_nil '\n' rest))
    rw [List.cons_append, hmore, breakLines, if_neg (fun hd => hreturn hd.1),
      if_neg (by rw [hc]; simp), ← hmore, ih (fun d hd => h d (List.mem_cons_of_mem _ hd)),
      List.append_assoc]
    rfl

theorem splitLines_joinedLines {lines : List (List Char)}
    (h : ∀ line ∈ lines, ∀ c ∈ line, isLineBreak c = false) :
    splitLines (joinedLines lines) = lines := by
  unfold splitLines joinedLines
  induction lines with
  | nil => rfl
  | cons line rest ih =>
    rw [List.flatMap_cons, List.append_assoc, List.singleton_append,
      breakLines_append (h line (List.mem_cons_self ..)), List.map_cons, List.nil_append,
      ih fun line hline => h line (List.mem_cons_of_mem _ hline)]

def joinWords (fields : List (List Char)) : List Char := [' '].intercalate fields

theorem joinWords_cons_cons (first second : List Char) (rest : List (List Char)) :
    joinWords (first :: second :: rest) = first ++ ' ' :: joinWords (second :: rest) := by
  rw [joinWords, joinWords, List.intercalate_cons_cons, List.append_assoc, List.singleton_append]

/-- Texts that `str.split()` would read back. -/
def AreWords (fields : List (List Char)) : Prop :=
  ∀ field ∈ fields, field ≠ [] ∧ ∀ c ∈ field, isSpace c = false

theorem AreWords.cons {first : List Char} {rest : List (List Char)}
    (hfirst : first ≠ [] ∧ ∀ c ∈ first, isSpace c = false) (hrest : AreWords rest) :
    AreWords (first :: rest) := List.forall_mem_cons.mpr ⟨hfirst, hrest⟩

theorem AreWords.append {first second : List (List Char)} (hfirst : AreWords first)
    (hsecond : AreWords second) : AreWords (first ++ second) := by
  intro field hfield
  rcases List.mem_append.mp hfield with hfield | hfield
  · exact hfirst field hfield
  · exact hsecond field hfield

theorem word_append {first second : List Char}
    (hfirst : first ≠ [] ∧ ∀ c ∈ first, isSpace c = false)
    (hsecond : ∀ c ∈ second, isSpace c = false) :
    first ++ second ≠ [] ∧ ∀ c ∈ first ++ second, isSpace c = false := by
  refine ⟨List.append_ne_nil_of_left_ne_nil hfirst.1 second, ?_⟩
  intro c hc
  rcases List.mem_append.mp hc with hc | hc
  · exact hfirst.2 c hc
  · exact hsecond c hc

theorem words_joinWords {fields : List (List Char)} (h : AreWords fields) :
    words isSpace (joinWords fields) = fields := by
  induction fields with
  | nil => rfl
  | cons first rest ih =>
    obtain ⟨hne, hletters⟩ := h first (List.mem_cons_self ..)
    cases rest with
    | nil =>
      rw [joinWords, List.intercalate_singleton]
      exact words_of_forall hne hletters
    | cons second rest =>
      rw [joinWords_cons_cons, words_append_cons rfl, words_of_forall hne hletters,
        ih fun field hfield => h field (List.mem_cons_of_mem _ hfield)]
      rfl

theorem isLineBreak_joinWords {fields : List (List Char)} (h : AreWords fields) :
    ∀ c ∈ joinWords fields, isLineBreak c = false := by
  induction fields with
  | nil => exact fun c hc => absurd hc List.not_mem_nil
  | cons first rest ih =>
    have hfirst : ∀ c ∈ first, isLineBreak c = false := by
      intro c hc
      by_contra hbreak
      rw [Bool.not_eq_false] at hbreak
      have hspace := isSpace_of_isLineBreak hbreak
      rw [(h first (List.mem_cons_self ..)).2 c hc] at hspace
      cases hspace
    cases rest with
    | nil =>
      rw [joinWords, List.intercalate_singleton]
      exact hfirst
    | cons second rest =>
      rw [joinWords_cons_cons]
      intro c hc
      rcases List.mem_append.mp hc with hc | hc
      · exact hfirst c hc
      · rcases List.mem_cons.mp hc with rfl | hc
        · rfl
        · exact ih (fun field hfield => h field (List.mem_cons_of_mem _ hfield)) c hc

theorem strip_eq_self {text : List Char} (hhead : ∀ c ∈ text.head?, isSpace c = false)
    (hlast : ∀ c ∈ text.getLast?, isSpace c = false) : strip text = text := by
  have hleft : lstrip isSpace text = text := by
    cases text with
    | nil => rfl
    | cons c rest =>
      rw [lstrip, List.dropWhile_cons_of_neg]
      rw [hhead c rfl]
      exact Bool.false_ne_true
  rw [strip, hleft, rstrip, List.rdropWhile_eq_self_iff]
  intro hne
  rw [hlast _ (List.getLast?_eq_some_getLast hne)]
  exact Bool.false_ne_true

theorem strip_joinWords {fields : List (List Char)} (h : AreWords fields) :
    strip (joinWords fields) = joinWords fields := by
  have hends : (∀ c ∈ (joinWords fields).head?, isSpace c = false) ∧
      ∀ c ∈ (joinWords fields).getLast?, isSpace c = false := by
    induction fields with
    | nil => exact ⟨(fun c hc => nomatch hc), (fun c hc => nomatch hc)⟩
    | cons first rest ih =>
      obtain ⟨hne, hletters⟩ := h first (List.mem_cons_self ..)
      obtain ⟨c, more, rfl⟩ := List.exists_cons_of_ne_nil hne
      cases rest with
      | nil =>
        rw [joinWords, List.intercalate_singleton]
        exact ⟨fun d hd => hletters d (List.mem_of_head? hd),
          fun d hd => hletters d (List.mem_of_getLast? hd)⟩
      | cons second rest =>
        have hrest := (ih fun field hfield => h field (List.mem_cons_of_mem _ hfield)).2
        rw [joinWords_cons_cons]
        refine ⟨fun d hd => hletters d ?_, ?_⟩
        · rw [List.cons_append, List.head?_cons, Option.mem_some_iff] at hd
          exact hd ▸ List.mem_cons_self ..
        · intro d hd
          have hword : joinWords (second :: rest) ≠ [] := by
            intro hempty
            have hfields : AreWords (second :: rest) :=
              fun field hfield => h field (List.mem_cons_of_mem _ hfield)
            have hwords := words_joinWords hfields
            rw [hempty] at hwords
            cases hwords
          rw [List.getLast?_append_of_ne_nil _ (List.cons_ne_nil _ _),
            List.getLast?_cons_of_ne_nil hword] at hd
          exact hrest d hd
  exact strip_eq_self hends.1 hends.2

end Joined

section Inline

variable {p : Char → Bool} {text more : List Char}

/-- What is cut from a text starts with the mark of a comment, or with the space or comma before
one. -/
theorem exists_cut (p : Char → Bool) (text : List Char) :
    ∃ cut, text = withoutInline p text ++ cut ∧
      ∀ c ∈ cut.head?, c = ';' ∨ c = '/' ∨ c = ',' ∨ p c = true := by
  induction text with
  | nil => exact ⟨[], rfl, fun c hc => by cases hc⟩
  | cons c rest ih =>
    rw [withoutInline]
    by_cases hstart : startsInline p c rest = true
    · rw [if_pos hstart]
      refine ⟨c :: rest, rfl, fun d hd => ?_⟩
      obtain rfl := Option.some.inj hd
      simp only [startsInline, Bool.or_eq_true, Bool.and_eq_true, decide_eq_true_eq] at hstart
      rcases hstart with (h | h) | h
      · exact .inl h
      · exact .inr (.inl h.1)
      · rcases h.1 with hspace | hcomma
        · exact .inr (.inr (.inr hspace))
        · exact .inr (.inr (.inl hcomma))
    · obtain ⟨cut, hcut, hhead⟩ := ih
      rw [if_neg hstart]
      exact ⟨cut, congrArg (c :: ·) hcut, hhead⟩

theorem startsInline_append {c : Char} {rest : List Char} (hrest : rest ≠ []) (more : List Char) :
    startsInline p c (rest ++ more) = startsInline p c rest := by
  rw [startsInline, startsInline, List.head?_append_of_ne_nil rest hrest]

theorem withoutInline_append_of_ne (h : withoutInline p text ≠ text) (more : List Char) :
    withoutInline p (text ++ more) = withoutInline p text := by
  induction text with
  | nil => exact absurd rfl h
  | cons c rest ih =>
    by_cases hstart : startsInline p c rest = true
    · have hnew : startsInline p c (rest ++ more) = true := by
        by_cases hrest : rest = []
        · subst hrest
          simp only [startsInline, List.head?_nil, reduceCtorEq, decide_false, Bool.and_false,
            Bool.or_false] at hstart
          simp [startsInline, hstart]
        · rw [startsInline_append hrest]
          exact hstart
      rw [List.cons_append, withoutInline, withoutInline, if_pos hstart, if_pos hnew]
    · rw [withoutInline, if_neg hstart] at h
      have hne : withoutInline p rest ≠ rest := fun heq => h (congrArg (c :: ·) heq)
      have hrest : rest ≠ [] := by
        rintro rfl
        exact hne rfl
      rw [List.cons_append, withoutInline, withoutInline, startsInline_append hrest,
        if_neg hstart, ih hne, if_neg hstart]

theorem withoutInline_append (h : withoutInline p text = text)
    (hmore : ∀ c ∈ more.head?, c ≠ '/' ∧ c ≠ '$') :
    withoutInline p (text ++ more) = text ++ withoutInline p more := by
  induction text with
  | nil => rfl
  | cons c rest ih =>
    by_cases hstart : startsInline p c rest = true
    · rw [withoutInline, if_pos hstart] at h
      cases h
    · rw [withoutInline, if_neg hstart] at h
      have hrest := (List.cons.inj h).2
      have hnew : ¬ startsInline p c (rest ++ more) = true := by
        cases rest with
        | cons d rest =>
          rw [startsInline_append (List.cons_ne_nil d rest)]
          exact hstart
        | nil =>
          have hslash : more.head? ≠ some '/' := fun hhead => (hmore '/' hhead).1 rfl
          have hdollar : more.head? ≠ some '$' := fun hhead => (hmore '$' hhead).2 rfl
          simp only [startsInline, List.head?_nil, reduceCtorEq, decide_false, Bool.and_false,
            Bool.or_false, decide_eq_true_eq] at hstart
          simp [startsInline, hstart, hslash, hdollar]
      rw [List.cons_append, withoutInline, if_neg hnew, ih hrest]
      rfl

theorem withoutInline_word (h : ∀ c ∈ text, c ≠ ';' ∧ c ≠ '/' ∧ c ≠ ',' ∧ p c = false) :
    withoutInline p text = text := by
  induction text with
  | nil => rfl
  | cons c rest ih =>
    obtain ⟨hsemicolon, hslash, hcomma, hspace⟩ := h c (List.mem_cons_self ..)
    rw [withoutInline, if_neg, ih fun d hd => h d (List.mem_cons_of_mem _ hd)]
    simp [startsInline, hsemicolon, hslash, hcomma, hspace]

def behindBlanks (fields : List (List Char)) : List Char := fields.flatMap fun field => ' ' :: field

theorem behindBlanks_eq {first : List Char} {rest : List (List Char)} :
    behindBlanks (first :: rest) = ' ' :: joinWords (first :: rest) := by
  induction rest generalizing first with
  | nil => simp [behindBlanks, joinWords]
  | cons second rest ih =>
    rw [joinWords_cons_cons, ← ih]
    rfl

/-- Fields behind blanks are read as they are, and what stands behind them in its own right. -/
theorem words_behindBlanks (hblank : p ' ' = true) {fields : List (List Char)}
    (h : ∀ field ∈ fields, field ≠ [] ∧ ∀ c ∈ field, p c = false)
    (hmore : ∀ c ∈ more.head?, p c = true) :
    words p (behindBlanks fields ++ more) = fields ++ words p more := by
  induction fields with
  | nil => rfl
  | cons field rest ih =>
    obtain ⟨hne, hletters⟩ := h field (List.mem_cons_self ..)
    have hrest := ih fun other hother => h other (List.mem_cons_of_mem _ hother)
    have hword (tail : List Char) (htail : ∀ c ∈ tail.head?, p c = true) :
        words p (field ++ tail) = field :: words p tail := by
      cases tail with
      | nil => rw [List.append_nil, words_of_forall hne hletters]; rfl
      | cons d tail =>
        have hd := htail d rfl
        rw [words_append_cons hd, words_of_forall hne hletters, words_cons_space hd]
        rfl
    have hhead : ∀ c ∈ (behindBlanks rest ++ more).head?, p c = true := by
      cases rest with
      | nil => exact hmore
      | cons other rest =>
        intro c hc
        obtain rfl := Option.some.inj hc
        exact hblank
    show words p (' ' :: field ++ behindBlanks rest ++ more) = _
    rw [List.append_assoc, List.cons_append, words_cons_space hblank, hword _ hhead, hrest]
    rfl

theorem withoutInline_behindBlanks (hblank : p ' ' = true) {fields : List (List Char)}
    (h : ∀ field ∈ fields, (∀ c ∈ field, c ≠ ';' ∧ c ≠ '/' ∧ c ≠ ',' ∧ p c = false) ∧
      field.head? ≠ some '$') :
    withoutInline p (behindBlanks fields) = behindBlanks fields := by
  induction fields with
  | nil => rfl
  | cons field rest ih =>
    obtain ⟨hletters, hdollar⟩ := h field (List.mem_cons_self ..)
    have hfirst : withoutInline p (' ' :: field) = ' ' :: field := by
      rw [withoutInline, if_neg, withoutInline_word hletters]
      simp [startsInline, hdollar, hblank]
    have hhead : ∀ c ∈ (behindBlanks rest).head?, c ≠ '/' ∧ c ≠ '$' := by
      cases rest with
      | nil => exact fun c hc => by cases hc
      | cons other rest =>
        intro c hc
        obtain rfl := Option.some.inj hc
        exact ⟨by decide, by decide⟩
    show withoutInline p (' ' :: field ++ behindBlanks rest) = ' ' :: field ++ behindBlanks rest
    rw [withoutInline_append hfirst hhead,
      ih fun other hother => h other (List.mem_cons_of_mem _ hother)]

end Inline

end SpiceText
