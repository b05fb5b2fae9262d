import OpenADA.Library.SpiceText
import OpenADA.Pdk.Binding

/-! The cards that a SPICE reader finds in a deck, before and after its continuation lines are
joined. -/
namespace OpenADA.Pdk

open PyText
open SpiceText (words LineKind)

section Reading

def commented (text : List Char) : Bool := (splitComment text).isSome

def visible (text : List Char) : List Char := ((splitComment text).map Prod.fst).getD text

def cardKind (line : List Char) : LineKind :=
  match lstrip isBlank (visible (splitLineEnding line).1) with
  | '*' :: _ => .skip
  | '+' :: body => .more body ('+' :: body)
  | text => if words isSpace text = [] then .skip else .card text

abbrev Card := List (List Char)

def extend (cards : List Card) (more : Card) : List Card :=
  match cards.getLast? with
  | some last => cards.dropLast ++ [last ++ more]
  | none => cards

def readCard (cards : List Card) (line : List Char) : List Card :=
  match cardKind line with
  | .skip => cards
  | .card text => cards ++ [words isSpace text]
  | .more body text =>
    if cards = [] then [words isSpace text] else extend cards (words isSpace body)

def logicalCards (deck : List Char) : List Card := (splitKeeping deck).foldl readCard []

end Reading

section Condition

def continues (line : List Char) : Bool :=
  decide ((lstrip isBlank (splitLineEnding line).1).head? = some '+')

def addition (line : List Char) : List Char := (lstrip isBlank (splitLineEnding line).1).tail

def gluedComment (text : List Char) : Bool :=
  decide (text.head? = some '$') && text.tail.head?.all isSpace

def takesMore (line : List Char) : Bool :=
  let body := (splitLineEnding line).1
  !commented body && decide ((lstrip isBlank body).head? ≠ some '*') &&
    decide (words isSpace body ≠ [])

/-- Where the reading of a deck stands: whether it has found a card, and whether the line that
continuation lines are joined to, with what was joined to it, takes more words into its card. -/
structure Place where
  anyCard : Bool
  takes : Bool

def Place.start (anyCard : Bool) (line : List Char) : Place :=
  ⟨anyCard || decide (cardKind line ≠ .skip), takesMore line⟩

def Place.continue (place : Place) (line : List Char) : Place :=
  ⟨place.anyCard, place.takes && !commented (addition line)⟩

/-- A continuation line that joining leaves in its card: it stands behind a card with no comment
between them, or it adds nothing to a card. -/
def Place.Admits (place : Place) (line : List Char) : Prop :=
  (place.takes = true ∧ gluedComment (addition line) = false) ∨
    (place.anyCard = true ∧ words isSpace (visible (addition line)) = [])

def Attached (place : Place) : List (List Char) → Prop
  | [] => True
  | line :: rest =>
    if continues line then place.Admits line ∧ Attached (place.continue line) rest
    else Attached (.start place.anyCard line) rest

/-- Every logical line that is continued starts with a line that ends in CR or LF. -/
def PlainlyContinued (start : List Char) : List (List Char) → Prop
  | [] => True
  | line :: rest =>
    if continues line then (splitLineEnding start).2 ≠ [] ∧ PlainlyContinued start rest
    else PlainlyContinued line rest

instance decidablePlainlyContinued : (start : List Char) → (lines : List (List Char)) →
    Decidable (PlainlyContinued start lines)
  | _, [] => inferInstanceAs (Decidable True)
  | start, line :: rest =>
    have := decidablePlainlyContinued start rest
    have := decidablePlainlyContinued line rest
    inferInstanceAs (Decidable (if continues line then _ else _))

def AttachedLines : List (List Char) → Prop
  | [] => True
  | first :: rest => Attached (.start false first) rest

def PlainLines : List (List Char) → Prop
  | [] => True
  | first :: rest => PlainlyContinued first rest

instance decidablePlainLines : (lines : List (List Char)) → Decidable (PlainLines lines)
  | [] => inferInstanceAs (Decidable True)
  | first :: rest => decidablePlainlyContinued first rest

def AttachedDeck (deck : List Char) : Prop := AttachedLines (splitKeeping deck)

def PlainDeck (deck : List Char) : Prop := PlainLines (splitKeeping deck)

instance decidablePlainDeck (deck : List Char) : Decidable (PlainDeck deck) :=
  decidablePlainLines (splitKeeping deck)

end Condition

section Comments

variable {text more : List Char}

@[simp] theorem commented_nil : commented [] = false := rfl

@[simp] theorem visible_nil : visible [] = [] := rfl

theorem startsComment_iff : startsComment text = true ↔
    (lstrip isSpace text).head? = some ';' ∨ ∃ space rest, text = space :: '$' :: rest ∧
      isSpace space = true ∧ rest.head?.all isSpace = true := by
  unfold startsComment
  rw [Bool.or_eq_true, decide_eq_true_eq]
  refine or_congr_right ?_
  split
  · rename_i space rest
    rw [Bool.and_eq_true]
    constructor
    · exact fun h => ⟨space, rest, rfl, h⟩
    · rintro ⟨space', rest', heq, h⟩
      obtain ⟨rfl, htail⟩ := List.cons.inj heq
      rw [(List.cons.inj htail).2]
      exact h
  · rename_i hshape
    refine iff_of_false Bool.false_ne_true ?_
    rintro ⟨space, rest, rfl, -⟩
    exact hshape space rest rfl

theorem commented_cons (c : Char) (rest : List Char) :
    commented (c :: rest) = (startsComment (c :: rest) || commented rest) := by
  unfold commented
  rw [splitComment]
  cases h : startsComment (c :: rest) with
  | true => rfl
  | false =>
    rw [if_neg Bool.false_ne_true, Option.isSome_map]
    rfl

theorem visible_cons (c : Char) (rest : List Char) :
    visible (c :: rest) = if startsComment (c :: rest) then [] else c :: visible rest := by
  unfold visible
  rw [splitComment]
  split_ifs with h
  · rfl
  · cases splitComment rest <;> rfl

theorem visible_of_not_commented (h : commented text = false) : visible text = text := by
  rw [visible, Option.not_isSome_iff_eq_none.mp (Bool.eq_false_iff.mp h)]
  rfl

theorem not_startsComment_of_space (h : ∀ c ∈ text, isSpace c = true) :
    startsComment text = false := by
  refine Bool.eq_false_iff.mpr fun hstarts => ?_
  rcases startsComment_iff.mp hstarts with hhead | ⟨space, rest, rfl, -, -⟩
  · have hstrip : lstrip isSpace text = [] := List.dropWhile_eq_nil_iff.mpr h
    rw [hstrip] at hhead
    cases hhead
  · exact absurd (h '$' (by simp)) (by decide)

theorem not_commented_of_space (h : ∀ c ∈ text, isSpace c = true) : commented text = false := by
  induction text with
  | nil => rfl
  | cons c rest ih =>
    rw [commented_cons, not_startsComment_of_space h,
      ih fun d hd => h d (List.mem_cons_of_mem _ hd)]
    rfl

/-- A comment at the front of a text is one with more text behind a space. -/
theorem startsComment_append (hmore : more.head?.all isSpace = true)
    (h : startsComment text = true) : startsComment (text ++ more) = true := by
  apply startsComment_iff.mpr
  rcases startsComment_iff.mp h with hhead | ⟨space, rest, rfl, hspace, hrest⟩
  · exact .inl (head_lstrip_append hhead more)
  · refine .inr ⟨space, rest ++ more, rfl, hspace, ?_⟩
    cases rest with
    | nil => exact hmore
    | cons d rest => exact hrest

/-- A comment that is new with more text behind a space is the one of that text. -/
theorem startsComment_of_append (hne : text ≠ []) (hmore : more.head?.all isSpace = true)
    (h : startsComment (text ++ more) = true) : startsComment text = true ∨
      (∀ d ∈ text, isSpace d = true) ∧ (lstrip isSpace more).head? = some ';' := by
  rcases startsComment_iff.mp h with hhead | ⟨space, rest, heq, hspace, hrest⟩
  · unfold lstrip at hhead
    rw [List.dropWhile_append] at hhead
    split_ifs at hhead with hempty
    · exact .inr ⟨List.dropWhile_eq_nil_iff.mp (List.isEmpty_iff.mp hempty), hhead⟩
    · left
      apply startsComment_iff.mpr
      left
      unfold lstrip
      cases hdrop : text.dropWhile isSpace with
      | nil =>
        rw [hdrop] at hempty
        exact absurd rfl hempty
      | cons d drop =>
        rw [hdrop] at hhead
        exact hhead
  · obtain ⟨c, text, rfl⟩ := List.exists_cons_of_ne_nil hne
    obtain rfl : c = space := (List.cons.inj heq).1
    have htail : text ++ more = '$' :: rest := (List.cons.inj heq).2
    cases text with
    | nil =>
      -- the dollar sign would stand where the space is
      rw [List.nil_append] at htail
      rw [htail] at hmore
      have hdollar : isSpace '$' = true := hmore
      exact absurd hdollar (by decide)
    | cons d text =>
      obtain ⟨rfl, rfl⟩ := List.cons.inj htail
      refine .inl (startsComment_iff.mpr (.inr ⟨c, text, rfl, hspace, ?_⟩))
      cases text with
      | nil => rfl
      | cons e text => exact hrest

theorem commented_of_startsComment (h : startsComment text = true) : commented text = true := by
  cases text with
  | nil => cases h
  | cons c rest =>
    rw [commented_cons, h]
    rfl

theorem visible_of_startsComment (h : startsComment text = true) : visible text = [] := by
  cases text with
  | nil => rfl
  | cons c rest => rw [visible_cons, if_pos h]

theorem commented_append (hmore : more.head?.all isSpace = true) :
    commented (text ++ more) = (commented text || commented more) := by
  induction text with
  | nil => rfl
  | cons c rest ih =>
    rw [List.cons_append, commented_cons, ih, commented_cons, ← List.cons_append]
    cases hnew : startsComment (c :: rest ++ more) with
    | true =>
      rcases startsComment_of_append (List.cons_ne_nil _ _) hmore hnew with hold | ⟨-, hhead⟩
      · rw [hold]
        rfl
      · rw [commented_of_startsComment (startsComment_iff.mpr (.inl hhead))]
        simp
    | false =>
      cases hold : startsComment (c :: rest) with
      | true =>
        rw [startsComment_append hmore hold] at hnew
        cases hnew
      | false => rw [Bool.false_or, Bool.false_or]

theorem visible_append_of_commented (hmore : more.head?.all isSpace = true)
    (h : commented text = true) : visible (text ++ more) = visible text := by
  induction text with
  | nil => cases h
  | cons c rest ih =>
    rw [List.cons_append, visible_cons, visible_cons, ← List.cons_append]
    by_cases hstarts : startsComment (c :: rest) = true
    · rw [if_pos hstarts, if_pos (startsComment_append hmore hstarts)]
    · have hrest : commented rest = true := by
        rw [commented_cons] at h
        exact (Bool.or_eq_true_iff.mp h).resolve_left hstarts
      have hnew : ¬ startsComment (c :: rest ++ more) = true := by
        intro hnew
        rcases startsComment_of_append (List.cons_ne_nil _ _) hmore hnew with hold | ⟨hspace, -⟩
        · exact hstarts hold
        · rw [not_commented_of_space fun d hd => hspace d (List.mem_cons_of_mem _ hd)] at hrest
          cases hrest
      rw [if_neg hstarts, if_neg hnew, ih hrest]

/-- Where a text has no comment, that of the text behind it is all that goes, but for spaces. -/
theorem visible_append (hmore : more.head?.all isSpace = true) (h : commented text = false) :
    ∃ gap, (∀ c ∈ gap, isSpace c = true) ∧
      visible (text ++ more) ++ gap = text ++ visible more := by
  induction text with
  | nil => exact ⟨[], fun c hc => absurd hc List.not_mem_nil, List.append_nil _⟩
  | cons c rest ih =>
    rw [commented_cons, Bool.or_eq_false_iff] at h
    by_cases hnew : startsComment (c :: rest ++ more) = true
    · rcases startsComment_of_append (List.cons_ne_nil _ _) hmore hnew with hold | ⟨hspace, hhead⟩
      · rw [h.1] at hold
        cases hold
      · refine ⟨c :: rest, hspace, ?_⟩
        rw [visible_of_startsComment (startsComment_iff.mpr (.inl hhead)), List.cons_append,
          visible_cons, ← List.cons_append, if_pos hnew, List.append_nil]
        rfl
    · obtain ⟨gap, hgap, hparts⟩ := ih h.2
      refine ⟨gap, hgap, ?_⟩
      rw [List.cons_append, visible_cons, ← List.cons_append, if_neg hnew, List.cons_append, hparts]
      rfl

/-! Words of a text without its comment. -/

theorem words_eq_nil_iff : words isSpace text = [] ↔ ∀ c ∈ text, isSpace c = true := by
  constructor
  · intro h c hc
    by_contra hspace
    exact SpiceText.words_ne_nil hc (Bool.not_eq_true _ ▸ hspace) h
  · intro h
    rw [← SpiceText.words_lstrip]
    have hstrip : lstrip isSpace text = [] := List.dropWhile_eq_nil_iff.mpr h
    rw [hstrip]
    rfl

theorem words_append_space {gap : List Char} (h : ∀ c ∈ gap, isSpace c = true) :
    words isSpace (text ++ gap) = words isSpace text := by
  cases gap with
  | nil => rw [List.append_nil]
  | cons c gap =>
    rw [SpiceText.words_append_cons (h c (List.mem_cons_self ..)),
      words_eq_nil_iff.mpr fun d hd => h d (List.mem_cons_of_mem _ hd), List.append_nil]

theorem words_space_append {gap : List Char} (h : ∀ c ∈ gap, isSpace c = true) :
    words isSpace (gap ++ text) = words isSpace text := by
  induction gap with
  | nil => rfl
  | cons c gap ih =>
    rw [List.cons_append, SpiceText.words_cons_space (h c (List.mem_cons_self ..))]
    exact ih fun d hd => h d (List.mem_cons_of_mem _ hd)

theorem words_visible_append (hmore : more.head?.all isSpace = true) (h : commented text = false) :
    words isSpace (visible (text ++ more)) = words isSpace (text ++ visible more) := by
  obtain ⟨gap, hgap, hparts⟩ := visible_append hmore h
  rw [← hparts, words_append_space hgap]

theorem reading_append_space {gap : List Char} (h : ∀ c ∈ gap, isSpace c = true) :
    words isSpace (visible (text ++ gap)) = words isSpace (visible text) ∧
      commented (text ++ gap) = commented text := by
  have hhead : gap.head?.all isSpace = true := by
    cases gap with
    | nil => rfl
    | cons c gap => exact h c (List.mem_cons_self ..)
  have hgap := not_commented_of_space h
  constructor
  · by_cases htext : commented text = true
    · rw [visible_append_of_commented hhead htext]
    · have htext := Bool.eq_false_iff.mpr htext
      rw [words_visible_append hhead htext, visible_of_not_commented hgap, words_append_space h,
        visible_of_not_commented htext]
  · rw [commented_append hhead, hgap, Bool.or_false]

theorem startsComment_cons_space {c : Char} (hc : isSpace c = true) (rest : List Char) :
    startsComment (c :: rest) =
      (decide ((lstrip isSpace rest).head? = some ';') || gluedComment rest) := by
  have hstrip : lstrip isSpace (c :: rest) = lstrip isSpace rest := List.dropWhile_cons_of_pos hc
  rw [Bool.eq_iff_iff, startsComment_iff, hstrip, Bool.or_eq_true, decide_eq_true_eq]
  refine or_congr_right ?_
  unfold gluedComment
  rw [Bool.and_eq_true, decide_eq_true_eq]
  constructor
  · rintro ⟨space, tail, heq, -, htail⟩
    rw [(List.cons.inj heq).2]
    exact ⟨rfl, htail⟩
  · rintro ⟨hhead, htail⟩
    cases rest with
    | nil => cases hhead
    | cons d tail =>
      obtain rfl := Option.some.inj hhead
      exact ⟨c, tail, rfl, hc, htail⟩

theorem not_gluedComment_of_space {c : Char} (hc : isSpace c = true) (rest : List Char) :
    gluedComment (c :: rest) = false := by
  have hdollar : c ≠ '$' := by
    rintro rfl
    exact absurd hc (by decide)
  unfold gluedComment
  rw [List.head?_cons, decide_eq_false (fun h => hdollar (Option.some.inj h)), Bool.false_and]

/-- A text behind a space: what stands before its words does not matter, unless a dollar sign at its
front becomes a comment. -/
theorem reading_cons_space {c : Char} (hc : isSpace c = true) (hglued : gluedComment text = false) :
    words isSpace (visible (c :: text)) = words isSpace (visible text) ∧
      commented (c :: text) = commented text := by
  rw [visible_cons, commented_cons, startsComment_cons_space hc, hglued, Bool.or_false]
  by_cases hhead : (lstrip isSpace text).head? = some ';'
  · have hstarts := startsComment_iff.mpr (.inl hhead)
    rw [decide_eq_true hhead, if_pos rfl, visible_of_startsComment hstarts,
      commented_of_startsComment hstarts]
    exact ⟨rfl, rfl⟩
  · rw [decide_eq_false hhead, if_neg Bool.false_ne_true, SpiceText.words_cons_space hc]
    exact ⟨rfl, rfl⟩

theorem reading_lstrip {c : Char} (hc : isSpace c = true) :
    words isSpace (visible (c :: text)) = words isSpace (visible (' ' :: lstrip isSpace text)) ∧
      commented (c :: text) = commented (' ' :: lstrip isSpace text) := by
  induction text generalizing c with
  | nil =>
    have hspaces (d : Char) (hd : isSpace d = true) :
        words isSpace (visible [d]) = [] ∧ commented [d] = false := by
      have hall : ∀ e ∈ [d], isSpace e = true := fun e he => List.mem_singleton.mp he ▸ hd
      have hcomment := not_commented_of_space hall
      rw [visible_of_not_commented hcomment]
      exact ⟨words_eq_nil_iff.mpr hall, hcomment⟩
    have hblank := hspaces ' ' (by decide)
    rw [(hspaces c hc).1, (hspaces c hc).2]
    exact ⟨hblank.1.symm, hblank.2.symm⟩
  | cons d rest ih =>
    by_cases hd : isSpace d = true
    · have hstrip : lstrip isSpace (d :: rest) = lstrip isSpace rest :=
        List.dropWhile_cons_of_pos hd
      obtain ⟨hwords, hcomment⟩ := reading_cons_space hc (not_gluedComment_of_space hd rest)
      rw [hstrip, hwords, hcomment]
      exact ih hd
    · have hstrip : lstrip isSpace (d :: rest) = d :: rest := List.dropWhile_cons_of_neg hd
      have hblank : isSpace ' ' = true := by decide
      rw [hstrip, visible_cons c, visible_cons ' ', commented_cons c, commented_cons ' ',
        startsComment_cons_space hc, startsComment_cons_space hblank]
      refine ⟨?_, rfl⟩
      split_ifs
      · rfl
      · rw [SpiceText.words_cons_space hc, SpiceText.words_cons_space hblank]

theorem reading_addition (hglued : gluedComment text = false) :
    words isSpace (visible (' ' :: strip text)) = words isSpace (visible text) ∧
      commented (' ' :: strip text) = commented text := by
  obtain ⟨gap, hparts, hgap⟩ := rstrip_append isSpace (lstrip isSpace text)
  obtain ⟨hwords, hcomment⟩ := @reading_append_space (' ' :: strip text) gap hgap
  rw [List.cons_append, strip, hparts] at hwords hcomment
  rw [strip, ← hwords, ← hcomment]
  cases text with
  | nil => exact reading_cons_space rfl hglued
  | cons c rest =>
    by_cases hc : isSpace c = true
    · have hstrip : lstrip isSpace (c :: rest) = lstrip isSpace rest :=
        List.dropWhile_cons_of_pos hc
      rw [hstrip]
      exact ⟨(reading_lstrip hc).1.symm, (reading_lstrip hc).2.symm⟩
    · have hstrip : lstrip isSpace (c :: rest) = c :: rest := List.dropWhile_cons_of_neg hc
      rw [hstrip]
      exact reading_cons_space (by decide) hglued

/-- A dollar sign behind the continuation sign takes the whole addition with it. -/
theorem visible_glued (h : gluedComment text = true) : visible (' ' :: strip text) = [] := by
  obtain ⟨hhead, htail⟩ := Bool.and_eq_true_iff.mp h
  cases text with
  | nil => cases of_decide_eq_true hhead
  | cons c rest =>
    obtain rfl := Option.some.inj (of_decide_eq_true hhead)
    have hstrip : lstrip isSpace ('$' :: rest) = '$' :: rest :=
      List.dropWhile_cons_of_neg (by decide)
    have hfront : strip ('$' :: rest) = '$' :: rstrip isSpace rest := by
      rw [strip, hstrip]
      exact SpiceText.rstrip_cons (by decide) rest
    apply visible_of_startsComment
    rw [hfront]
    refine startsComment_iff.mpr (.inr ⟨' ', rstrip isSpace rest, rfl, by decide, ?_⟩)
    obtain ⟨gap, hparts, hgap⟩ := rstrip_append isSpace rest
    cases hrest : rstrip isSpace rest with
    | nil => rfl
    | cons d kept =>
      rw [hrest] at hparts
      rw [← hparts] at htail
      exact htail

theorem words_visible_glued (h : gluedComment text = true) : words isSpace (visible text) ≠ [] := by
  obtain ⟨hhead, -⟩ := Bool.and_eq_true_iff.mp h
  cases text with
  | nil => cases of_decide_eq_true hhead
  | cons c rest =>
    obtain rfl := Option.some.inj (of_decide_eq_true hhead)
    have hstarts : ¬ startsComment ('$' :: rest) = true := by
      intro hstarts
      rcases startsComment_iff.mp hstarts with hhead | ⟨space, tail, heq, hspace, -⟩
      · have hstrip : lstrip isSpace ('$' :: rest) = '$' :: rest :=
          List.dropWhile_cons_of_neg (by decide)
        rw [hstrip] at hhead
        exact absurd (Option.some.inj hhead) (by decide)
      · rw [← (List.cons.inj heq).1] at hspace
        exact absurd hspace (by decide)
    rw [visible_cons, if_neg hstarts]
    exact SpiceText.words_ne_nil (List.mem_cons_self ..) (by decide)

end Comments

section Lines

variable {previous line : List Char}

def joinTo (previous line : List Char) : List Char :=
  (splitLineEnding previous).1 ++ [' '] ++ strip (addition line) ++
    if (splitLineEnding line).2 = [] then (splitLineEnding previous).2 else (splitLineEnding line).2

/-- The logical lines from one on, with the lines that are still to be read. -/
def joinFrom (logical : List Char) : List (List Char) → List (List Char)
  | [] => [logical]
  | line :: rest =>
    if continues line then joinFrom (joinTo logical line) rest else logical :: joinFrom line rest

theorem foldl_joinLine (front lines : List (List Char)) (logical : List Char) :
    lines.foldl joinLine (front ++ [logical]) = front ++ joinFrom logical lines := by
  induction lines generalizing front logical with
  | nil => rfl
  | cons line rest ih =>
    rw [List.foldl_cons, joinFrom]
    have hjoin : joinLine (front ++ [logical]) line =
        if continues line then front ++ [joinTo logical line]
        else front ++ [logical] ++ [line] := by
      unfold joinLine continues
      rw [List.getLast?_concat]
      simp only [decide_eq_true_eq, List.dropLast_concat]
      rfl
    rw [hjoin]
    split_ifs
    · exact ih front (joinTo logical line)
    · rw [ih (front ++ [logical]) line, List.append_assoc]
      rfl

theorem logicalLines_eq {deck first : List Char} {rest : List (List Char)}
    (h : splitKeeping deck = first :: rest) : logicalLines deck = joinFrom first rest := by
  unfold logicalLines
  rw [h]
  exact foldl_joinLine [] rest first

theorem lstrip_append_of_ne_nil {strips : Char → Bool} {text : List Char}
    (h : lstrip strips text ≠ []) (more : List Char) :
    lstrip strips (text ++ more) = lstrip strips text ++ more := by
  unfold lstrip at h ⊢
  rw [List.dropWhile_append, if_neg (by rw [List.isEmpty_iff]; exact h)]

theorem isCrLf_both : ∀ c ∈ ['\r', '\n'], isCrLf c = true := forall_chars (by decide)

theorem isSpace_of_isCrLf {c : Char} (h : isCrLf c = true) : isSpace c = true := by
  rcases Bool.or_eq_true_iff.mp h with h | h <;> rw [of_decide_eq_true h] <;> decide

theorem reading_plus {gap : List Char} (hgap : ∀ c ∈ gap, isBlank c = true) (rest : List Char) :
    visible (gap ++ '+' :: rest) = gap ++ '+' :: visible rest ∧
      commented (gap ++ '+' :: rest) = commented rest := by
  induction gap with
  | nil =>
    have hstarts : startsComment ('+' :: rest) = false := by
      refine Bool.eq_false_iff.mpr fun hstarts => ?_
      rcases startsComment_iff.mp hstarts with hhead | ⟨space, tail, heq, hspace, -⟩
      · have hstrip : lstrip isSpace ('+' :: rest) = '+' :: rest :=
          List.dropWhile_cons_of_neg (by decide)
        rw [hstrip] at hhead
        exact absurd (Option.some.inj hhead) (by decide)
      · rw [← (List.cons.inj heq).1] at hspace
        exact absurd hspace (by decide)
    rw [List.nil_append, visible_cons, commented_cons, hstarts]
    exact ⟨rfl, rfl⟩
  | cons c gap ih =>
    have hrest : ∀ d ∈ gap, isBlank d = true := fun d hd => hgap d (List.mem_cons_of_mem _ hd)
    have hc := isSpace_of_isBlank (hgap c (List.mem_cons_self ..))
    have hhead : (lstrip isSpace (gap ++ '+' :: rest)).head? = some '+' := by
      unfold lstrip
      rw [List.dropWhile_append_of_pos fun d hd => isSpace_of_isBlank (hrest d hd),
        List.dropWhile_cons_of_neg (by decide)]
      rfl
    have hglued : gluedComment (gap ++ '+' :: rest) = false := by
      unfold gluedComment
      cases gap with
      | nil => rfl
      | cons d gap =>
        have hd := isSpace_of_isBlank (hrest d (List.mem_cons_self ..))
        exact not_gluedComment_of_space hd _
    have hstarts : startsComment (c :: (gap ++ '+' :: rest)) = false := by
      rw [startsComment_cons_space hc, hhead, hglued]
      decide
    rw [List.cons_append, visible_cons, commented_cons, hstarts, (ih hrest).1, (ih hrest).2]
    exact ⟨rfl, rfl⟩

theorem continues_parts (h : continues line = true) :
    ∃ gap, (∀ c ∈ gap, isBlank c = true) ∧
      (splitLineEnding line).1 = gap ++ '+' :: addition line := by
  have hhead := of_decide_eq_true h
  refine ⟨(splitLineEnding line).1.takeWhile isBlank, fun c hc => List.mem_takeWhile_imp hc, ?_⟩
  unfold addition
  have hcons : lstrip isBlank (splitLineEnding line).1 =
      '+' :: (lstrip isBlank (splitLineEnding line).1).tail := by
    cases hstrip : lstrip isBlank (splitLineEnding line).1 with
    | nil =>
      rw [hstrip] at hhead
      cases hhead
    | cons c rest =>
      rw [hstrip] at hhead
      rw [Option.some.inj hhead]
      rfl
  rw [← hcons]
  exact (lstrip_append isBlank _).symm

theorem cardKind_of_continues (h : continues line = true) :
    cardKind line = .more (visible (addition line)) ('+' :: visible (addition line)) := by
  obtain ⟨gap, hgap, hbody⟩ := continues_parts h
  have hstrip : lstrip isBlank (gap ++ '+' :: visible (addition line)) =
      '+' :: visible (addition line) := by
    unfold lstrip
    rw [List.dropWhile_append_of_pos hgap, List.dropWhile_cons_of_neg (by decide)]
  unfold cardKind
  rw [hbody, (reading_plus hgap _).1, hstrip]
  rfl

theorem readCard_of_continues (h : continues line = true) (cards : List Card) :
    readCard cards line = if cards = [] then [words isSpace ('+' :: visible (addition line))]
      else extend cards (words isSpace (visible (addition line))) := by
  unfold readCard
  rw [cardKind_of_continues h]

theorem visible_prefix (text : List Char) : ∃ hidden, visible text ++ hidden = text := by
  unfold visible
  cases h : splitComment text with
  | none => exact ⟨[], List.append_nil _⟩
  | some parts => exact ⟨parts.2, (splitComment_append h).1.symm⟩

theorem readCard_of_not_continues (h : continues line = false) (cards : List Card) :
    readCard cards line = cards ++ readCard [] line := by
  have hkind : ∀ body text, cardKind line ≠ .more body text := by
    intro body text hmore
    unfold cardKind at hmore
    split at hmore
    · cases hmore
    · rename_i rest hstrip
      obtain ⟨hidden, hparts⟩ := visible_prefix (splitLineEnding line).1
      have hhead : (lstrip isBlank (visible (splitLineEnding line).1)).head? = some '+' := by
        rw [hstrip]
        rfl
      have hbody := head_lstrip_append hhead hidden
      rw [hparts] at hbody
      unfold continues at h
      rw [decide_eq_true hbody] at h
      cases h
    · split_ifs at hmore
  unfold readCard
  cases hcase : cardKind line with
  | skip => exact (List.append_nil _).symm
  | card text => rfl
  | more body text => exact absurd hcase (hkind body text)

theorem rstrip_eq_self {text : List Char} (h : ∀ c ∈ text.getLast?, isCrLf c = false) :
    rstrip isCrLf text = text := by
  rw [rstrip, List.rdropWhile_eq_self_iff]
  intro hne
  rw [h _ (List.getLast?_eq_some_getLast hne)]
  exact Bool.false_ne_true

theorem splitLineEnding_of_append {body ending : List Char}
    (hbody : ∀ c ∈ body.getLast?, isCrLf c = false) (hending : ∀ c ∈ ending, isCrLf c = true) :
    splitLineEnding (body ++ ending) = (body, ending) := by
  have hstrip : rstrip isCrLf (body ++ ending) = body := by
    have happend : rstrip isCrLf (body ++ ending) = rstrip isCrLf body := by
      unfold rstrip
      induction ending using List.reverseRecOn with
      | nil => rw [List.append_nil]
      | append_singleton ending c ih =>
        rw [← List.append_assoc, List.rdropWhile_concat_pos _ _ _ (hending c (by simp))]
        exact ih fun d hd => hending d (List.mem_append_left _ hd)
    rw [happend, rstrip_eq_self hbody]
  unfold splitLineEnding
  rw [hstrip, List.drop_left]

theorem splitLineEnding_isCrLf (line : List Char) :
    ∀ c ∈ (splitLineEnding line).2, isCrLf c = true := by
  obtain ⟨stripped, hline, hstripped⟩ := rstrip_append isCrLf line
  have hending : (splitLineEnding line).2 = stripped := by
    have hdrop := congrArg (List.drop (rstrip isCrLf line).length) hline
    rw [List.drop_left] at hdrop
    exact hdrop.symm
  rw [hending]
  exact hstripped

theorem getLast?_strip (text : List Char) : ∀ c ∈ (strip text).getLast?, isSpace c = false := by
  intro c hc
  refine Bool.eq_false_iff.mpr fun hspace => ?_
  have hne : strip text ≠ [] := by
    intro hempty
    rw [hempty] at hc
    cases hc
  have hlast := List.rdropWhile_last_not isSpace (lstrip isSpace text) hne
  rw [List.getLast?_eq_some_getLast hne, Option.mem_some_iff] at hc
  exact hlast (hc ▸ hspace)

theorem splitLineEnding_joinTo (previous line : List Char) :
    splitLineEnding (joinTo previous line) =
      ((splitLineEnding previous).1 ++ ' ' :: strip (addition line),
        if (splitLineEnding line).2 = [] then (splitLineEnding previous).2
        else (splitLineEnding line).2) := by
  have hjoin : joinTo previous line =
      ((splitLineEnding previous).1 ++ ' ' :: strip (addition line)) ++
      if (splitLineEnding line).2 = [] then (splitLineEnding previous).2
      else (splitLineEnding line).2 := by
    unfold joinTo
    rw [List.append_assoc _ [' '], List.singleton_append]
  rw [hjoin]
  apply splitLineEnding_of_append
  · intro c hc
    rw [List.getLast?_append] at hc
    cases hstrip : strip (addition line) with
    | nil =>
      rw [hstrip] at hc
      rw [← Option.some.inj hc]
      decide
    | cons d rest =>
      have hlast := getLast?_strip (addition line)
      rw [hstrip] at hc hlast
      rw [List.getLast?_cons_cons] at hc
      have hspace := hlast c (by
        rw [List.getLast?_eq_some_getLast (List.cons_ne_nil _ _)] at hc ⊢
        exact hc)
      refine Bool.eq_false_iff.mpr fun hcrlf => ?_
      rw [isSpace_of_isCrLf hcrlf] at hspace
      cases hspace
  · split_ifs
    · exact splitLineEnding_isCrLf previous
    · exact splitLineEnding_isCrLf line

end Lines

section Weight

def size (card : Card) : ℕ := card.flatten.length

def weight (cards : List Card) : ℕ := (cards.map size).sum

theorem weight_append (cards more : List Card) :
    weight (cards ++ more) = weight cards + weight more := by
  unfold weight
  rw [List.map_append, List.sum_append]

theorem size_append (card more : Card) : size (card ++ more) = size card + size more := by
  unfold size
  rw [List.flatten_append, List.length_append]

@[simp] theorem weight_singleton (card : Card) : weight [card] = size card := by
  simp [weight]

theorem size_pos {text : List Char} (h : words isSpace text ≠ []) :
    0 < size (words isSpace text) := by
  unfold size
  rw [SpiceText.flatten_words, List.length_pos_iff]
  intro hempty
  apply h
  apply words_eq_nil_iff.mpr
  intro c hc
  by_contra hspace
  exact List.filter_eq_nil_iff.mp hempty c hc (by simp [hspace])

theorem size_cons {c : Char} (hc : isSpace c = false) (text : List Char) :
    size (words isSpace (c :: text)) = size (words isSpace text) + 1 := by
  unfold size
  rw [SpiceText.flatten_words, SpiceText.flatten_words, List.filter_cons, if_pos (by rw [hc]; rfl),
    List.length_cons]

theorem extend_eq {cards : List Card} (hne : cards ≠ []) (more : Card) :
    ∃ front last, cards = front ++ [last] ∧ extend cards more = front ++ [last ++ more] := by
  obtain ⟨front, last, rfl⟩ := (List.eq_nil_or_concat' cards).resolve_left hne
  refine ⟨front, last, rfl, ?_⟩
  unfold extend
  rw [List.getLast?_concat, List.dropLast_concat]

theorem extend_nil {cards : List Card} (hne : cards ≠ []) : extend cards [] = cards := by
  obtain ⟨front, last, hcards, hextend⟩ := extend_eq hne []
  rw [hextend, hcards, List.append_nil]

theorem weight_extend {cards : List Card} (hne : cards ≠ []) (more : Card) :
    weight (extend cards more) = weight cards + size more ∧
      (extend cards more).length = cards.length := by
  obtain ⟨front, last, rfl, hextend⟩ := extend_eq hne more
  rw [hextend, weight_append, weight_append, weight_singleton, weight_singleton, size_append]
  constructor
  · omega
  · rw [List.length_append, List.length_append]
    rfl

theorem words_lstrip_isBlank (text : List Char) :
    words isSpace (lstrip isBlank text) = words isSpace text := by
  conv_rhs => rw [← lstrip_append isBlank text]
  rw [words_space_append fun c hc => isSpace_of_isBlank (List.mem_takeWhile_imp hc)]

/-- What a line gives to the cards: at most its words, and no fewer cards; where it gives all of
its words and no card, it has none. -/
theorem readCard_gains (cards : List Card) (line : List Char) :
    let given := words isSpace (visible (splitLineEnding line).1)
    weight (readCard cards line) ≤ weight cards + size given ∧
      cards.length ≤ (readCard cards line).length ∧
      (weight (readCard cards line) = weight cards + size given →
        (readCard cards line).length = cards.length →
        given = [] ∧ readCard cards line = cards) := by
  intro given
  have hgiven : given = words isSpace (lstrip isBlank (visible (splitLineEnding line).1)) :=
    (words_lstrip_isBlank _).symm
  unfold readCard cardKind
  generalize lstrip isBlank (visible (splitLineEnding line).1) = text at hgiven
  split
  · rename_i hkind
    have hsize : size given = 0 → given = [] := by
      intro hzero
      by_contra hne
      rw [hgiven] at hne hzero
      exact absurd (size_pos hne) (by omega)
    exact ⟨by omega, le_refl _, fun hweight _ => ⟨hsize (by omega), rfl⟩⟩
  · rename_i body hkind
    have hbody : given = words isSpace body := by
      split at hkind
      · cases hkind
      · cases hkind
      · split_ifs at hkind
        cases hkind
        exact hgiven
    rw [weight_append, weight_singleton, ← hbody, List.length_append]
    refine ⟨le_refl _, by simp, fun _ hlength => ?_⟩
    simp at hlength
  · rename_i body plus hkind
    have hbody : given = words isSpace ('+' :: body) ∧ plus = '+' :: body := by
      split at hkind
      · cases hkind
      · cases hkind
        exact ⟨hgiven, rfl⟩
      · split_ifs at hkind
    have hsize : size given = size (words isSpace body) + 1 := by
      rw [hbody.1]
      exact size_cons (by decide) body
    rw [hbody.2, ← hbody.1]
    by_cases hne : cards = []
    · rw [if_pos hne, hne, weight_singleton]
      refine ⟨by omega, by simp, fun _ hlength => ?_⟩
      simp at hlength
    · rw [if_neg hne]
      obtain ⟨hweight, hlength⟩ := weight_extend hne (words isSpace body)
      refine ⟨by omega, by omega, fun hequal => ?_⟩
      omega

end Weight

section Joining

variable {logical line : List Char} {cards : List Card}

def joinedWords (line : List Char) : Card := words isSpace (visible (' ' :: strip (addition line)))

theorem joinedWords_eq (h : gluedComment (addition line) = false) :
    joinedWords line = words isSpace (visible (addition line)) := (reading_addition h).1

theorem joinedWords_glued (h : gluedComment (addition line) = true) : joinedWords line = [] := by
  rw [joinedWords, visible_glued h]
  rfl

theorem size_joinedWords (line : List Char) :
    size (joinedWords line) ≤ size (words isSpace (visible (addition line))) := by
  cases h : gluedComment (addition line) with
  | true =>
    rw [joinedWords_glued h]
    exact Nat.zero_le _
  | false => rw [joinedWords_eq h]

theorem words_append_joined (text : List Char) :
    words isSpace (text ++ visible (' ' :: strip (addition line))) =
      words isSpace text ++ joinedWords line := by
  unfold joinedWords
  rw [visible_cons]
  split_ifs
  · rw [List.append_nil]
    exact (List.append_nil _).symm
  · rw [SpiceText.words_append_cons (by decide), SpiceText.words_cons_space (by decide)]

/-- A line whose body starts, behind blanks, with an asterisk is a comment to a reader. -/
theorem cardKind_of_star
    (h : (lstrip isBlank (visible (splitLineEnding line).1)).head? = some '*') : cardKind line = .skip := by
  unfold cardKind
  split
  · rfl
  · rename_i body hstrip
    rw [hstrip] at h
    exact absurd (Option.some.inj h) (by decide)
  · rename_i hstar _
    obtain ⟨rest, hstrip⟩ := List.head?_eq_some_iff.mp h
    exact absurd hstrip (hstar rest)

/-- The first letter of a text is one of it without its comment, if the comment is not all. -/
theorem head_of_visible {text more : List Char} {c : Char} (hc : isSpace c = false)
    (h : (lstrip isBlank text).head? = some c) (hmore : more.head?.all isSpace = true)
    (hcomment : commented text = false) :
    (lstrip isBlank (visible (text ++ more))).head? = some c := by
  obtain ⟨gap, hgap, hparts⟩ := visible_append hmore hcomment
  have hwhole := head_lstrip_append h (visible more)
  rw [← hparts] at hwhole
  cases hstrip : lstrip isBlank (visible (text ++ more)) with
  | nil =>
    -- the letter would be one of the spaces behind
    have hspace : ∀ d ∈ visible (text ++ more) ++ gap, isSpace d = true := by
      intro d hd
      rcases List.mem_append.mp hd with hd | hd
      · exact isSpace_of_isBlank (List.dropWhile_eq_nil_iff.mp hstrip d hd)
      · exact hgap d hd
    have hmem := (List.dropWhile_sublist isBlank).subset (List.mem_of_mem_head? hwhole)
    rw [hspace c hmem] at hc
    cases hc
  | cons d rest =>
    have hd := head_lstrip_append (c := d) (by rw [hstrip]; rfl) gap
    rw [hwhole] at hd
    rw [Option.some.inj hd]
    rfl

theorem readCard_joinTo (h : takesMore logical = true) :
    readCard cards logical ≠ [] ∧ readCard cards (joinTo logical line) =
      extend (readCard cards logical) (joinedWords line) := by
  unfold takesMore at h
  simp only [Bool.and_eq_true, Bool.not_eq_true', decide_eq_true_eq] at h
  obtain ⟨⟨hcomment, hstar⟩, hwords⟩ := h
  obtain ⟨gap, hgap, hparts⟩ :=
    @visible_append _ (' ' :: strip (addition line)) rfl hcomment
  have hstrip : lstrip isBlank (splitLineEnding logical).1 ≠ [] := by
    intro hempty
    rw [← words_lstrip_isBlank, hempty] at hwords
    exact hwords rfl
  have hjoined :
      words isSpace (visible ((splitLineEnding logical).1 ++ ' ' :: strip (addition line))) =
        words isSpace (splitLineEnding logical).1 ++ joinedWords line := by
    rw [← words_append_space hgap, hparts, words_append_joined]
  have hstrip' : lstrip isBlank
      (visible ((splitLineEnding logical).1 ++ ' ' :: strip (addition line))) ≠ [] := by
    intro hempty
    rw [← words_lstrip_isBlank, hempty] at hjoined
    exact hwords (List.append_eq_nil_iff.mp hjoined.symm).1
  have hlstrip := congrArg (lstrip isBlank) hparts
  rw [lstrip_append_of_ne_nil hstrip', lstrip_append_of_ne_nil hstrip] at hlstrip
  obtain ⟨c, text, htext⟩ := List.exists_cons_of_ne_nil hstrip
  obtain ⟨d, text', htext'⟩ := List.exists_cons_of_ne_nil hstrip'
  rw [htext, htext', List.cons_append, List.cons_append] at hlstrip
  obtain ⟨rfl, htails⟩ := List.cons.inj hlstrip
  have htail : words isSpace text' = words isSpace text ++ joinedWords line := by
    rw [← words_append_space hgap, htails, words_append_joined]
  rw [← words_lstrip_isBlank, htext', ← words_lstrip_isBlank (splitLineEnding logical).1, htext]
    at hjoined
  rw [← words_lstrip_isBlank, htext] at hwords
  rw [htext] at hstar
  have hne : d ≠ '*' := fun heq => hstar (congrArg some heq)
  have hvisible : visible (splitLineEnding logical).1 = (splitLineEnding logical).1 :=
    visible_of_not_commented hcomment
  have hlast (front : List Card) (card more : Card) :
      front ++ [card ++ more] = extend (front ++ [card]) more := by
    unfold extend
    rw [List.getLast?_concat, List.dropLast_concat]
  by_cases hplus : d = '+'
  · have hbefore : cardKind logical = .more text ('+' :: text) := by
      unfold cardKind
      rw [hvisible, htext, hplus]
      rfl
    have hafter : cardKind (joinTo logical line) = .more text' ('+' :: text') := by
      unfold cardKind
      rw [splitLineEnding_joinTo, htext', hplus]
      rfl
    rw [hplus] at hjoined
    unfold readCard
    rw [hbefore, hafter]
    by_cases hcards : cards = []
    · simp only [if_pos hcards]
      exact ⟨List.cons_ne_nil _ _, by rw [hjoined]; exact hlast [] _ _⟩
    · simp only [if_neg hcards]
      obtain ⟨front, last, rfl, hextend⟩ := extend_eq hcards (words isSpace text)
      rw [hextend, htail, ← hlast, ← hlast, List.append_assoc]
      exact ⟨by simp, rfl⟩
  · have hkind (rest : List Char) (hrest : words isSpace (d :: rest) ≠ []) (physical : List Char)
        (hphysical : lstrip isBlank (visible (splitLineEnding physical).1) = d :: rest) :
        cardKind physical = .card (d :: rest) := by
      unfold cardKind
      rw [hphysical]
      split
      · rename_i heq
        exact absurd (List.cons.inj heq).1 hne
      · rename_i heq
        exact absurd (List.cons.inj heq).1 hplus
      · rw [if_neg hrest]
    have hbefore := hkind text hwords logical (by rw [hvisible, htext])
    have hafter := hkind text' (by rw [hjoined]; simp [hwords]) (joinTo logical line)
      (by rw [splitLineEnding_joinTo, htext'])
    unfold readCard
    rw [hbefore, hafter]
    simp only
    rw [hjoined]
    exact ⟨by simp, hlast cards _ _⟩

/-- A line that takes no more words: joining changes nothing, or the line is blank. -/
theorem readCard_joinTo_hidden (h : takesMore logical = false) (cards : List Card) :
    readCard cards (joinTo logical line) = readCard cards logical ∨
      (readCard cards logical = cards ∧
        words isSpace (visible (splitLineEnding (joinTo logical line)).1) = joinedWords line) := by
  have hspace : (' ' :: strip (addition line)).head?.all isSpace = true := rfl
  have hskip {physical : List Char} (hkind : cardKind physical = .skip) :
      readCard cards physical = cards := by
    unfold readCard
    rw [hkind]
  by_cases hcomment : commented (splitLineEnding logical).1 = true
  · left
    have hkind : cardKind (joinTo logical line) = cardKind logical := by
      unfold cardKind
      rw [splitLineEnding_joinTo]
      simp only
      rw [visible_append_of_commented hspace hcomment]
    unfold readCard
    rw [hkind]
  have hcomment := Bool.eq_false_iff.mpr hcomment
  have hvisible : visible (splitLineEnding logical).1 = (splitLineEnding logical).1 :=
    visible_of_not_commented hcomment
  by_cases hstar : (lstrip isBlank (splitLineEnding logical).1).head? = some '*'
  · left
    have hbefore : cardKind logical = .skip := cardKind_of_star (by rw [hvisible, hstar])
    have hafter : cardKind (joinTo logical line) = .skip := by
      apply cardKind_of_star
      rw [splitLineEnding_joinTo]
      exact head_of_visible (by decide) hstar hspace hcomment
    rw [hskip hbefore, hskip hafter]
  · right
    have hwords : words isSpace (splitLineEnding logical).1 = [] := by
      by_contra hwords
      have htakes : takesMore logical = true := by
        unfold takesMore
        simp only [hcomment, decide_eq_true hstar, decide_eq_true hwords]
        rfl
      rw [htakes] at h
      cases h
    refine ⟨?_, ?_⟩
    · have hall := words_eq_nil_iff.mp hwords
      apply hskip
      have hstrip : ∀ c ∈ lstrip isBlank (splitLineEnding logical).1, isSpace c = true :=
        fun c hc => hall c ((List.dropWhile_sublist isBlank).subset hc)
      unfold cardKind
      rw [hvisible]
      split
      · rfl
      · rename_i heq
        rw [heq] at hstrip
        exact absurd (hstrip '+' (List.mem_cons_self ..)) (by decide)
      · rw [if_pos (words_eq_nil_iff.mpr hstrip)]
    · rw [splitLineEnding_joinTo]
      rw [words_visible_append hspace hcomment, words_append_joined, hwords]
      rfl

/-- Joining gives the cards at most the words that are joined, and takes no card away; where the
logical line takes no more words, words that are joined are not all given, or make a card. -/
theorem joinTo_gains (cards : List Card) :
    weight (readCard cards (joinTo logical line)) ≤
        weight (readCard cards logical) + size (joinedWords line) ∧
      (readCard cards logical).length ≤ (readCard cards (joinTo logical line)).length ∧
      (takesMore logical = false →
        weight (readCard cards (joinTo logical line)) =
          weight (readCard cards logical) + size (joinedWords line) →
        (readCard cards (joinTo logical line)).length = (readCard cards logical).length →
        joinedWords line = [] ∧ readCard cards (joinTo logical line) = readCard cards logical) := by
  cases h : takesMore logical with
  | true =>
    obtain ⟨hne, hjoin⟩ := @readCard_joinTo logical line cards h
    obtain ⟨hweight, hlength⟩ := weight_extend hne (joinedWords line)
    rw [hjoin]
    exact ⟨hweight.le, hlength.ge, fun htakes => absurd htakes Bool.true_eq_false_eq_False⟩
  | false =>
    rcases @readCard_joinTo_hidden logical line h cards with hsame | ⟨hlogical, hwords⟩
    · rw [hsame]
      refine ⟨Nat.le_add_right _ _, le_refl _, fun _ hweight _ => ⟨?_, rfl⟩⟩
      by_contra hne
      exact absurd (size_pos hne) (by unfold joinedWords at hweight; omega)
    · rw [hlogical, ← hwords]
      obtain ⟨hweight, hlength, hgives⟩ := readCard_gains cards (joinTo logical line)
      exact ⟨hweight, hlength, fun _ => hgives⟩

/-- What holds of the logical line at a place, and of the cards read so far. -/
structure Stands (place : Place) (logical : List Char) (cards : List Card) : Prop where
  takes : place.takes = takesMore logical
  anyCard : place.anyCard = true ↔ cards ≠ []

theorem Place.Admits.not_glued {place : Place} (h : place.Admits line) :
    gluedComment (addition line) = false := by
  rcases h with ⟨-, hglued⟩ | ⟨-, hwords⟩
  · exact hglued
  · exact Bool.eq_false_iff.mpr fun hglued => words_visible_glued hglued hwords

theorem takesMore_joinTo (hglued : gluedComment (addition line) = false)
    (hwords : takesMore logical = true ∨ words isSpace (visible (addition line)) = []) :
    takesMore (joinTo logical line) = (takesMore logical && !commented (addition line)) := by
  have hspace : (' ' :: strip (addition line)).head?.all isSpace = true := rfl
  have hjoined : commented ((splitLineEnding logical).1 ++ ' ' :: strip (addition line)) =
      (commented (splitLineEnding logical).1 || commented (addition line)) := by
    rw [commented_append hspace, (reading_addition hglued).2]
  unfold takesMore
  rw [splitLineEnding_joinTo]
  simp only
  rw [hjoined]
  by_cases hcomment : commented (splitLineEnding logical).1 = true
  · rw [hcomment]
    rfl
  have hcomment := Bool.eq_false_iff.mpr hcomment
  rw [hcomment, Bool.false_or, Bool.not_false, Bool.true_and]
  by_cases hadded : commented (addition line) = true
  · rw [hadded]
    simp
  have hadded := Bool.eq_false_iff.mpr hadded
  have hjoinedWords : words isSpace ((splitLineEnding logical).1 ++ ' ' :: strip (addition line)) =
      words isSpace (splitLineEnding logical).1 ++ words isSpace (visible (addition line)) := by
    have hnone : commented (' ' :: strip (addition line)) = false :=
      (reading_addition hglued).2.trans hadded
    have hparts := @words_append_joined line (splitLineEnding logical).1
    rwa [visible_of_not_commented hnone, joinedWords_eq hglued] at hparts
  rw [hadded, hjoinedWords, Bool.not_false, Bool.true_and, Bool.and_true]
  by_cases hstrip : lstrip isBlank (splitLineEnding logical).1 = []
  · -- a blank line takes no words, and none come to it
    have hblank : words isSpace (splitLineEnding logical).1 = [] := by
      rw [← words_lstrip_isBlank, hstrip]
      rfl
    rcases hwords with htakes | hnone
    · unfold takesMore at htakes
      simp only [hblank] at htakes
      simp at htakes
    · rw [hblank, hnone]
      simp
  · rw [lstrip_append_of_ne_nil hstrip]
    obtain ⟨c, text, htext⟩ := List.exists_cons_of_ne_nil hstrip
    rw [htext, List.cons_append, List.head?_cons, List.head?_cons]
    congr 1
    rw [decide_eq_decide]
    rcases hwords with htakes | hnone
    · have hne : words isSpace (splitLineEnding logical).1 ≠ [] := by
        unfold takesMore at htakes
        simp only [Bool.and_eq_true, decide_eq_true_eq] at htakes
        exact htakes.2
      simp [hne]
    · rw [hnone, List.append_nil]

variable {place : Place}

theorem readCard_joinTo_of_admits (hline : continues line = true)
    (h : Stands place logical (readCard cards logical)) (hadmits : place.Admits line) :
    readCard cards (joinTo logical line) = readCard (readCard cards logical) line ∧
      Stands (place.continue line) (joinTo logical line)
        (readCard (readCard cards logical) line) := by
  have hglued := hadmits.not_glued
  have htakes : takesMore logical = true ∨ words isSpace (visible (addition line)) = [] := by
    rcases hadmits with ⟨htakes, -⟩ | ⟨-, hwords⟩
    · exact .inl (h.takes ▸ htakes)
    · exact .inr hwords
  have hcards : readCard cards logical ≠ [] := by
    rcases hadmits with ⟨htakes, -⟩ | ⟨hany, -⟩
    · exact (@readCard_joinTo logical line cards (h.takes ▸ htakes)).1
    · exact h.anyCard.mp hany
  have hread : readCard (readCard cards logical) line =
      extend (readCard cards logical) (joinedWords line) := by
    rw [readCard_of_continues hline, if_neg hcards, joinedWords_eq hglued]
  have hjoin : readCard cards (joinTo logical line) =
      extend (readCard cards logical) (joinedWords line) := by
    cases hlogical : takesMore logical with
    | true => exact (readCard_joinTo hlogical).2
    | false =>
      have hnone : joinedWords line = [] := by
        rw [joinedWords_eq hglued]
        exact htakes.resolve_left (by rw [hlogical]; exact Bool.false_ne_true)
      rw [hnone, extend_nil hcards]
      rcases @readCard_joinTo_hidden logical line hlogical cards with hsame | ⟨hbefore, hwords⟩
      · exact hsame
      · rw [hbefore] at hcards ⊢
        have hkind : cardKind (joinTo logical line) = .skip := by
          rw [hnone, ← words_lstrip_isBlank] at hwords
          have hall := words_eq_nil_iff.mp hwords
          unfold cardKind
          split
          · rfl
          · rename_i heq
            rw [heq] at hall
            exact absurd (hall '+' (List.mem_cons_self ..)) (by decide)
          · rw [if_pos hwords]
        unfold readCard
        rw [hkind]
  refine ⟨hjoin.trans hread.symm, ⟨?_, ?_⟩⟩
  · rw [takesMore_joinTo hglued htakes, ← h.takes]
    rfl
  · rw [hread]
    refine iff_of_true (h.anyCard.mpr hcards) ?_
    have hlength := (weight_extend hcards (joinedWords line)).2
    intro hempty
    rw [hempty] at hlength
    exact hcards (List.length_eq_zero_iff.mp hlength.symm)

/-- The cards of a joined deck have lost letters to the cards of the deck, or have become more. -/
def Lags (joined cards : List Card) : Prop :=
  weight joined < weight cards ∨ (weight joined = weight cards ∧ cards.length < joined.length)

theorem Lags.ne {joined cards : List Card} (h : Lags joined cards) : joined ≠ cards := by
  rintro rfl
  rcases h with h | ⟨-, h⟩
  · exact lt_irrefl _ h
  · exact lt_irrefl _ h

theorem weight_continues (hline : continues line = true) (cards : List Card) :
    (cards = [] ∧ weight (readCard cards line) =
        size (words isSpace (visible (addition line))) + 1) ∨
      (cards ≠ [] ∧ weight (readCard cards line) =
        weight cards + size (words isSpace (visible (addition line))) ∧
        (readCard cards line).length = cards.length) := by
  rw [readCard_of_continues hline]
  by_cases hcards : cards = []
  · rw [if_pos hcards, weight_singleton, size_cons (by decide)]
    exact .inl ⟨hcards, rfl⟩
  · rw [if_neg hcards]
    exact .inr ⟨hcards, weight_extend hcards _⟩

/-- A continuation line that is not admitted loses letters, or becomes a card. -/
theorem lags_of_not_admits (hline : continues line = true)
    (h : Stands place logical (readCard cards logical)) (hadmits : ¬ place.Admits line) :
    Lags (readCard cards (joinTo logical line)) (readCard (readCard cards logical) line) := by
  obtain ⟨hweight, hlength, hgives⟩ := @joinTo_gains logical line cards
  have hsize := size_joinedWords line
  rcases weight_continues hline (readCard cards logical) with ⟨hnone, hread⟩ | ⟨hany, hread, hcount⟩
  · rw [hnone] at hweight
    have hzero : weight ([] : List Card) = 0 := rfl
    exact .inl (by omega)
  · by_contra hlags
    unfold Lags at hlags
    push Not at hlags
    have hequal : weight (readCard cards (joinTo logical line)) =
        weight (readCard cards logical) + size (joinedWords line) := by omega
    have hsizes : size (joinedWords line) = size (words isSpace (visible (addition line))) := by
      omega
    have hwords : words isSpace (visible (addition line)) ≠ [] := by
      intro hwords
      exact hadmits (.inr ⟨h.anyCard.mpr hany, hwords⟩)
    have hpos := size_pos hwords
    have hne : joinedWords line ≠ [] := by
      intro hempty
      rw [hempty] at hsizes
      have hzero : size [] = 0 := rfl
      omega
    have hglued : gluedComment (addition line) = false :=
      Bool.eq_false_iff.mpr fun hglued => hne (joinedWords_glued hglued)
    cases htakes : takesMore logical with
    | true => exact hadmits (.inl ⟨h.takes.trans htakes, hglued⟩)
    | false =>
      have hcounts := hlags.2 (by omega)
      exact hne (hgives htakes hequal (by omega)).1

theorem lags_joinTo {read : List Card} (h : Lags (readCard cards logical) read)
    (hline : continues line = true) :
    Lags (readCard cards (joinTo logical line)) (readCard read line) := by
  obtain ⟨hweight, hlength, -⟩ := @joinTo_gains logical line cards
  have hsize := size_joinedWords line
  unfold Lags at h ⊢
  rcases weight_continues hline read with ⟨rfl, hread⟩ | ⟨-, hread, hcount⟩
  · have hzero : weight ([] : List Card) = 0 := rfl
    omega
  · omega

theorem lags_readCard {joined read : List Card} (h : Lags joined read)
    (hline : continues line = false) : Lags (readCard joined line) (readCard read line) := by
  unfold Lags at h ⊢
  rw [readCard_of_not_continues hline joined, readCard_of_not_continues hline read, weight_append,
    weight_append, List.length_append, List.length_append]
  omega

end Joining

section Runs

variable {cards : List Card} {logical : List Char} {place : Place}

theorem lags_run {read : List Card} (h : Lags (readCard cards logical) read)
    (lines : List (List Char)) :
    Lags ((joinFrom logical lines).foldl readCard cards) (lines.foldl readCard read) := by
  induction lines generalizing cards logical read with
  | nil => exact h
  | cons line rest ih =>
    rw [joinFrom, List.foldl_cons]
    by_cases hline : continues line = true
    · rw [if_pos hline]
      exact ih (lags_joinTo h hline)
    · rw [if_neg hline, List.foldl_cons]
      exact ih (lags_readCard h (Bool.eq_false_iff.mpr hline))

theorem readCard_nil_iff (line : List Char) : readCard [] line = [] ↔ cardKind line = .skip := by
  unfold readCard
  cases cardKind line <;> simp

theorem stands_start {line : List Char} (hline : continues line = false) {read : List Card}
    {anyCard : Bool} (hany : anyCard = true ↔ read ≠ []) :
    Stands (.start anyCard line) line (readCard read line) where
  takes := rfl
  anyCard := by
    rw [readCard_of_not_continues hline, Ne, List.append_eq_nil_iff, readCard_nil_iff, not_and_or]
    unfold Place.start
    rw [Bool.or_eq_true, hany, decide_eq_true_eq]

theorem stands_first (line : List Char) : Stands (.start false line) line (readCard [] line) where
  takes := rfl
  anyCard := by
    rw [Ne, readCard_nil_iff]
    unfold Place.start
    rw [Bool.false_or, decide_eq_true_eq]

/-- The cards of the joined lines are those of the lines just where every continuation line is
admitted. -/
theorem foldl_joinFrom_iff (lines : List (List Char))
    (h : Stands place logical (readCard cards logical)) :
    (joinFrom logical lines).foldl readCard cards = lines.foldl readCard (readCard cards logical) ↔
      Attached place lines := by
  induction lines generalizing cards logical place with
  | nil => exact iff_of_true rfl trivial
  | cons line rest ih =>
    rw [joinFrom, Attached, List.foldl_cons]
    by_cases hline : continues line = true
    · rw [if_pos hline, if_pos hline]
      by_cases hadmits : place.Admits line
      · obtain ⟨hjoin, hstands⟩ := readCard_joinTo_of_admits hline h hadmits
        rw [← hjoin] at hstands ⊢
        rw [ih hstands]
        exact (and_iff_right hadmits).symm
      · have hlags := lags_run (lags_of_not_admits hline h hadmits) rest
        exact iff_of_false hlags.ne fun hattached => hadmits hattached.1
    · have hline := Bool.eq_false_iff.mpr hline
      rw [if_neg (Bool.eq_false_iff.mp hline), if_neg (Bool.eq_false_iff.mp hline), List.foldl_cons]
      exact ih (stands_start hline h.anyCard)

end Runs

section Text

def Broken (line : List Char) : Prop :=
  ∃ body ending, line = body ++ ending ∧ (∀ c ∈ body, isLineBreak c = false) ∧
    (ending = ['\r', '\n'] ∨ ∃ c, isLineBreak c = true ∧ ending = [c])

/-- The lines of a text: all but the last have a line break, and none has two. -/
def Lined : List (List Char) → Prop
  | [] => True
  | [line] => Broken line ∨ ∀ c ∈ line, isLineBreak c = false
  | line :: next :: rest => Broken line ∧ Lined (next :: rest)

theorem breakLines_front {body : List Char} (h : ∀ c ∈ body, isLineBreak c = false)
    {rest : List Char} (hne : rest ≠ []) (before : List Char) :
    breakLines before (body ++ rest) = breakLines (before ++ body) rest := by
  induction body generalizing before with
  | nil => rw [List.nil_append, List.append_nil]
  | cons c body ih =>
    have hc := h c (List.mem_cons_self ..)
    have hreturn : c ≠ '\r' := by
      rintro rfl
      revert hc
      decide
    obtain ⟨d, more, hmore⟩ := List.exists_cons_of_ne_nil
      (List.append_ne_nil_of_right_ne_nil body hne)
    rw [List.cons_append, hmore, breakLines, if_neg (fun hd => hreturn hd.1),
      if_neg (by rw [hc]; exact Bool.false_ne_true), ← hmore,
      ih (fun d hd => h d (List.mem_cons_of_mem _ hd)), List.append_assoc]
    rfl

theorem splitKeeping_of_no_break {line : List Char} (h : ∀ c ∈ line, isLineBreak c = false) :
    splitKeeping line = if line = [] then [] else [line] := by
  cases hline : line.reverse with
  | nil =>
    rw [List.reverse_eq_nil_iff.mp hline]
    rfl
  | cons c front =>
    have hparts : line = front.reverse ++ [c] := by
      rw [← List.reverse_cons, ← hline, List.reverse_reverse]
    have hc : isLineBreak c = false := h c (by rw [hparts]; simp)
    rw [if_neg (by rw [hparts]; simp)]
    unfold splitKeeping
    rw [hparts, breakLines_front (fun d hd => h d (by rw [hparts]; simp [List.mem_reverse.mp hd]))
      (List.cons_ne_nil _ _), breakLines, if_neg (by rw [hc]; exact Bool.false_ne_true)]
    simp

theorem readCard_ending {body ending ending' : List Char}
    (hbody : ∀ c ∈ body.getLast?, isCrLf c = false) (hending : ∀ c ∈ ending, isCrLf c = true)
    (hending' : ∀ c ∈ ending', isCrLf c = true) (cards : List Card) :
    readCard cards (body ++ ending) = readCard cards (body ++ ending') := by
  have hkind : cardKind (body ++ ending) = cardKind (body ++ ending') := by
    unfold cardKind
    rw [splitLineEnding_of_append hbody hending, splitLineEnding_of_append hbody hending']
  unfold readCard
  rw [hkind]

theorem isLineBreak_of_isCrLf {c : Char} (h : isCrLf c = true) : isLineBreak c = true := by
  rcases Bool.or_eq_true_iff.mp h with h | h <;> rw [of_decide_eq_true h] <;> decide

theorem not_isCrLf_of_not_break {body : List Char} (h : ∀ c ∈ body, isLineBreak c = false) :
    ∀ c ∈ body.getLast?, isCrLf c = false := by
  intro c hc
  refine Bool.eq_false_iff.mpr fun hcrlf => ?_
  have hbreak := h c (List.mem_of_getLast? hc)
  rw [isLineBreak_of_isCrLf hcrlf] at hbreak
  cases hbreak

theorem foldl_splitKeeping_append {line : List Char} (h : Broken line) (text : List Char)
    (cards : List Card) :
    (splitKeeping (line ++ text)).foldl readCard cards =
      (splitKeeping text).foldl readCard (readCard cards line) := by
  obtain ⟨body, ending, rfl, hbody, hending⟩ := h
  have hne : ending ++ text ≠ [] := by
    rcases hending with rfl | ⟨c, -, rfl⟩ <;> exact List.cons_ne_nil _ _
  have hlines : splitKeeping (body ++ ending ++ text) =
      (breakLines body (ending ++ text)).map fun line => line.1 ++ line.2 := by
    unfold splitKeeping
    rw [List.append_assoc, breakLines_front hbody hne, List.nil_append]
  rw [hlines]
  rcases hending with rfl | ⟨c, hc, rfl⟩
  · rw [List.cons_append, List.cons_append, List.nil_append, breakLines, if_pos ⟨rfl, rfl⟩]
    rfl
  · cases text with
    | nil =>
      rw [List.append_nil, breakLines, if_pos hc]
      rfl
    | cons d rest =>
      rw [List.cons_append, List.nil_append, breakLines]
      by_cases hboth : c = '\r' ∧ d = '\n'
      · -- the two characters become one line break: the empty line between them goes
        obtain ⟨rfl, rfl⟩ := hboth
        have hempty : splitKeeping ('\n' :: rest) = ['\n'] :: splitKeeping rest := by
          unfold splitKeeping
          cases rest with
          | nil => rfl
          | cons e rest =>
            rw [breakLines, if_neg (fun h => absurd h.1 (by decide)), if_pos (by decide)]
            rfl
        have hskip (cards : List Card) : readCard cards ['\n'] = cards := by
          have hkind : cardKind ['\n'] = .skip := by decide
          unfold readCard
          rw [hkind]
        rw [if_pos ⟨rfl, rfl⟩, hempty, List.map_cons, List.foldl_cons, List.foldl_cons, hskip]
        have hread := @readCard_ending body ['\r', '\n'] ['\r'] (not_isCrLf_of_not_break hbody)
          isCrLf_both (forall_chars (by decide)) cards
        rw [hread]
        rfl
      · rw [if_neg hboth, if_pos hc, List.map_cons, List.foldl_cons]
        rfl

theorem foldl_splitKeeping_flatten {lines : List (List Char)} (h : Lined lines)
    (cards : List Card) :
    (splitKeeping lines.flatten).foldl readCard cards = lines.foldl readCard cards := by
  induction lines generalizing cards with
  | nil => rfl
  | cons line rest ih =>
    rw [List.flatten_cons, List.foldl_cons]
    cases rest with
    | nil =>
      rcases h with hbroken | hwhole
      · rw [foldl_splitKeeping_append hbroken]
        rfl
      · rw [List.flatten_nil, List.append_nil, splitKeeping_of_no_break hwhole]
        split_ifs with hempty
        · rw [hempty]
          rfl
        · rfl
    | cons next rest =>
      rw [foldl_splitKeeping_append h.1]
      exact ih h.2 _

theorem Lined.cons {line : List Char} {rest : List (List Char)} (hline : Broken line)
    (hrest : Lined rest) : Lined (line :: rest) := by
  cases rest with
  | nil => exact .inl hline
  | cons next rest => exact ⟨hline, hrest⟩

theorem Lined.head {line : List Char} {rest : List (List Char)} (h : Lined (line :: rest)) :
    Broken line ∨ ∀ c ∈ line, isLineBreak c = false := by
  cases rest with
  | nil => exact h
  | cons next rest => exact .inl h.1

theorem lined_splitKeeping (text : List Char) : Lined (splitKeeping text) := by
  have hbreaks (line : List Char) (hline : ∀ c ∈ line, isLineBreak c = false) :
      Lined ((breakLines line text).map fun broken => broken.1 ++ broken.2) := by
    fun_induction breakLines line text with
    | case1 => exact trivial
    | case2 line h =>
      right
      simpa using hline
    | case3 line c hc => exact .inl ⟨line, [c], rfl, hline, .inr ⟨c, hc, rfl⟩⟩
    | case4 line c hc =>
      right
      intro d hd
      have hd : d ∈ line ++ [c] := by simpa using hd
      rcases List.mem_append.mp hd with hd | hd
      · exact hline d hd
      · rw [List.mem_singleton.mp hd]
        exact Bool.eq_false_iff.mpr hc
    | case5 line c next rest h ih =>
      refine .cons ⟨line, [c, next], rfl, hline, .inl ?_⟩
        (ih fun d hd => absurd hd List.not_mem_nil)
      rw [h.1, h.2]
    | case6 line c next rest h hc ih =>
      exact .cons ⟨line, [c], rfl, hline, .inr ⟨c, hc, rfl⟩⟩
        (ih fun d hd => absurd hd List.not_mem_nil)
    | case7 line c next rest h hc ih =>
      refine ih fun d hd => ?_
      rcases List.mem_append.mp hd with hd | hd
      · exact hline d hd
      · rw [List.mem_singleton.mp hd]
        exact Bool.eq_false_iff.mpr hc
  exact hbreaks [] fun c hc => absurd hc List.not_mem_nil

/-- The ending of a physical line, where it is one of CR and LF, is all of its line break. -/
theorem Broken.ending {line : List Char} (h : Broken line) (hne : (splitLineEnding line).2 ≠ []) :
    (∀ c ∈ (splitLineEnding line).1, isLineBreak c = false) ∧
      ((splitLineEnding line).2 = ['\r', '\n'] ∨
        ∃ c, isLineBreak c = true ∧ (splitLineEnding line).2 = [c]) := by
  obtain ⟨body, ending, rfl, hbody, hending⟩ := h
  have hcrlf : ∀ c ∈ ending, isCrLf c = true := by
    rcases hending with rfl | ⟨c, -, rfl⟩
    · exact isCrLf_both
    · intro d hd
      rw [List.mem_singleton.mp hd]
      by_contra hc
      -- another line break would belong to the body
      have hsplit := @splitLineEnding_of_append (body ++ [c]) [] (by
        intro e he
        rw [List.getLast?_concat, Option.mem_some_iff] at he
        exact he ▸ Bool.eq_false_iff.mpr hc) (fun e he => absurd he List.not_mem_nil)
      rw [List.append_nil] at hsplit
      rw [hsplit] at hne
      exact hne rfl
  rw [splitLineEnding_of_append (not_isCrLf_of_not_break hbody) hcrlf]
  exact ⟨hbody, hending⟩

theorem dropLast_body {line : List Char}
    (h : Broken line ∨ ∀ c ∈ line, isLineBreak c = false) :
    ∀ c ∈ (splitLineEnding line).1.dropLast, isLineBreak c = false := by
  intro c hc
  obtain ⟨hparts, -⟩ := splitLineEnding_append line
  rcases h with hbroken | hwhole
  · by_cases hne : (splitLineEnding line).2 = []
    · obtain ⟨body, ending, rfl, hbody, hending⟩ := hbroken
      rw [hne, List.append_nil] at hparts
      rw [hparts] at hc
      rcases hending with rfl | ⟨d, -, rfl⟩
      · have hsplit := @splitLineEnding_of_append body ['\r', '\n'] (not_isCrLf_of_not_break hbody)
          isCrLf_both
        rw [hsplit] at hne
        cases hne
      · rw [List.dropLast_concat] at hc
        exact hbody c hc
    · exact (hbroken.ending hne).1 c (List.dropLast_subset _ hc)
  · apply hwhole
    rw [← hparts]
    exact List.mem_append_left _ (List.dropLast_subset _ hc)

theorem not_break_addition {line : List Char} (hline : continues line = true)
    (h : Broken line ∨ ∀ c ∈ line, isLineBreak c = false) :
    ∀ c ∈ strip (addition line), isLineBreak c = false := by
  obtain ⟨gap, -, hbody⟩ := continues_parts hline
  have hfront : ∀ c ∈ (addition line).dropLast, isLineBreak c = false := by
    intro c hc
    apply dropLast_body h
    rw [hbody]
    cases hadd : addition line with
    | nil =>
      rw [hadd] at hc
      cases hc
    | cons d rest =>
      rw [hadd] at hc
      rw [List.dropLast_append_of_ne_nil (List.cons_ne_nil _ _), List.dropLast_cons_cons]
      exact List.mem_append_right _ (List.mem_cons_of_mem _ hc)
  intro c hc
  have hstrip : strip (addition line) = lstrip isSpace (rstrip isSpace (addition line)) :=
    (SpiceText.lstrip_rstrip isSpace _).symm
  rw [hstrip] at hc
  have hc := (List.dropWhile_sublist isSpace).subset hc
  rcases List.eq_nil_or_concat' (addition line) with hnil | ⟨front, d, hconcat⟩
  · rw [hnil] at hc
    cases hc
  · rw [hconcat, List.dropLast_concat] at hfront
    rw [hconcat] at hc
    by_cases hd : isSpace d = true
    · rw [rstrip, List.rdropWhile_concat_pos _ _ _ hd] at hc
      exact hfront c ((List.rdropWhile_prefix _ _).subset hc)
    · rw [rstrip, List.rdropWhile_concat_neg _ _ _ hd] at hc
      rcases List.mem_append.mp hc with hc | hc
      · exact hfront c hc
      · rw [List.mem_singleton.mp hc]
        exact Bool.eq_false_iff.mpr fun hbreak => hd (isSpace_of_isLineBreak hbreak)

/-- A logical line that ends in CR or LF is a line still when another is joined to it. -/
theorem broken_joinTo {logical line : List Char} (hlogical : Broken logical)
    (hending : (splitLineEnding logical).2 ≠ []) (hline : continues line = true)
    (h : Broken line ∨ ∀ c ∈ line, isLineBreak c = false) :
    Broken (joinTo logical line) ∧ (splitLineEnding (joinTo logical line)).2 ≠ [] := by
  obtain ⟨hbody, hbreak⟩ := hlogical.ending hending
  have hjoin := splitLineEnding_joinTo logical line
  refine ⟨⟨(splitLineEnding (joinTo logical line)).1, (splitLineEnding (joinTo logical line)).2,
    (splitLineEnding_append _).1.symm, ?_, ?_⟩, ?_⟩
  · rw [hjoin]
    intro c hc
    rcases List.mem_append.mp hc with hc | hc
    · exact hbody c hc
    · rcases List.mem_cons.mp hc with rfl | hc
      · decide
      · exact not_break_addition hline h c hc
  · rw [hjoin]
    simp only
    split_ifs with hnone
    · exact hbreak
    · rcases h with hbroken | hwhole
      · exact (hbroken.ending hnone).2
      · -- a line without a break has no ending
        exfalso
        apply hnone
        rw [List.eq_nil_iff_forall_not_mem]
        intro c hc
        have hmem := hwhole c (by
          rw [← (splitLineEnding_append line).1]
          exact List.mem_append_right _ hc)
        rw [isLineBreak_of_isCrLf (splitLineEnding_isCrLf line c hc)] at hmem
        cases hmem
  · rw [hjoin]
    simp only
    split_ifs with hnone
    · exact hending
    · exact hnone

theorem lined_joinFrom {start logical : List Char} {lines : List (List Char)}
    (h : Lined (logical :: lines)) (hplain : PlainlyContinued start lines)
    (hstart : (splitLineEnding start).2 ≠ [] → (splitLineEnding logical).2 ≠ []) :
    Lined (joinFrom logical lines) := by
  induction lines generalizing start logical with
  | nil => exact h
  | cons line rest ih =>
    rw [joinFrom]
    rw [PlainlyContinued] at hplain
    by_cases hline : continues line = true
    · rw [if_pos hline] at hplain ⊢
      obtain ⟨hbroken, hending⟩ :=
        broken_joinTo h.1 (hstart hplain.1) hline (Lined.head h.2)
      have hrest : Lined rest := by
        cases rest with
        | nil => exact trivial
        | cons next rest => exact h.2.2
      exact ih (.cons hbroken hrest) hplain.2 fun _ => hending
    · rw [if_neg hline] at hplain ⊢
      exact .cons h.1 (ih h.2 hplain id)

/-- Where no logical line that is continued starts with a line that ends in another line break than
CR and LF, joining the continuations of a deck leaves its logical cards as they are just where each
continuation line that adds a word stands behind a card, with no comment between them and no dollar
sign at its front. -/
theorem joinSpiceContinuations_cards (deck : List Char) (hplain : PlainDeck deck) :
    logicalCards (joinSpiceContinuations deck) = logicalCards deck ↔ AttachedDeck deck := by
  unfold logicalCards joinSpiceContinuations AttachedDeck
  unfold PlainDeck at hplain
  have hlined := lined_splitKeeping deck
  cases hlines : splitKeeping deck with
  | nil =>
    unfold logicalLines
    rw [hlines]
    exact iff_of_true rfl trivial
  | cons first rest =>
    rw [logicalLines_eq hlines]
    rw [hlines] at hplain hlined
    rw [foldl_splitKeeping_flatten (lined_joinFrom hlined hplain id), List.foldl_cons]
    exact foldl_joinFrom_iff rest (stands_first first)

/-- A card over three lines, with a comment behind the last. -/
theorem cards_of_continued_mos :
    let deck := "m1 d g s b nmos.core\r\n+ w=1u\n\t+l=130n $ gate\n\nr1 a b 1k\n".toList
    logicalCards (joinSpiceContinuations deck) = logicalCards deck ↔ AttachedDeck deck :=
  joinSpiceContinuations_cards _ (by decide)

/-- A parameter behind a comment line goes into the comment. -/
theorem length_lost_in_comment : ¬ ∀ deck,
    logicalCards (joinSpiceContinuations deck) = logicalCards deck := by
  intro h
  have hdeck := h "m1 d g s b nmos.core w=1u\n* note\n+ l=130n\n".toList
  exact absurd hdeck (by decide)

end Text

end OpenADA.Pdk
