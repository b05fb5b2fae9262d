import OpenADA.Library.PyText

/-! Regular expressions without groups, whose repetitions are of one character class: where they
end, what they match, and which words a match must hold where the case is ignored. -/
namespace LinePattern

inductive Pattern where
  | empty
  | char (p : Char → Bool)
  | gap (p : Char → Bool)
  | boundary
  | seq (first second : Pattern)
  | either (first second : Pattern)

namespace Pattern

def sequence (parts : List Pattern) : Pattern := parts.foldr .seq .empty

def anyOf : List Pattern → Pattern
  | [] => .char fun _ => false
  | [pattern] => pattern
  | pattern :: rest => .either pattern (anyOf rest)

/-- A word, its letters compared by what `fold` makes of them. -/
def word (fold : Char → Char) (text : List Char) : Pattern :=
  sequence (text.map fun c => .char fun d => decide (fold d = c))

def optional (pattern : Pattern) : Pattern := .either pattern .empty

def some (p : Char → Bool) : Pattern := .seq (.char p) (.gap p)

end Pattern

abbrev Place := Option Char × List Char

def gapEnds (p : Char → Bool) (previous : Option Char) : List Char → List Place
  | [] => [(previous, [])]
  | c :: rest => (previous, c :: rest) :: if p c then gapEnds p (some c) rest else []

section Search

variable (isWord : Char → Bool)

def ends : Pattern → Place → List Place
  | .empty, place => [place]
  | .char p, place =>
    match place.2 with
    | [] => []
    | c :: rest => if p c then [(some c, rest)] else []
  | .gap p, place => gapEnds p place.1 place.2
  | .boundary, place => if place.1.any isWord = place.2.head?.any isWord then [] else [place]
  | .seq first second, place => (ends first place).flatMap (ends second)
  | .either first second, place => ends first place ++ ends second place

/-- `re.fullmatch`. -/
def fullmatch (pattern : Pattern) (text : List Char) : Bool :=
  (ends isWord pattern (none, text)).any fun place => place.2.isEmpty

def searchFrom (pattern : Pattern) (previous : Option Char) : List Char → Bool
  | [] => !(ends isWord pattern (previous, [])).isEmpty
  | c :: rest =>
    !(ends isWord pattern (previous, c :: rest)).isEmpty || searchFrom pattern (some c) rest

/-- `re.search`. -/
def search (pattern : Pattern) (text : List Char) : Bool := searchFrom isWord pattern none text

def lastOr (previous : Option Char) (text : List Char) : Option Char := text.getLast?.or previous

def Matches : Pattern → Option Char → List Char → List Char → Prop
  | .empty, _, found, _ => found = []
  | .char p, _, found, _ => ∃ c, found = [c] ∧ p c = true
  | .gap p, _, found, _ => ∀ c ∈ found, p c = true
  | .boundary, previous, found, rest =>
    found = [] ∧ previous.any isWord ≠ rest.head?.any isWord
  | .seq first second, previous, found, rest => ∃ a b, found = a ++ b ∧
      Matches first previous a (b ++ rest) ∧ Matches second (lastOr previous a) b rest
  | .either first second, previous, found, rest =>
    Matches first previous found rest ∨ Matches second previous found rest

end Search

section Semantics

variable {isWord : Char → Bool} {p : Char → Bool} {previous : Option Char} {text : List Char}
  {place : Place}

theorem lastOr_nil (previous : Option Char) : lastOr previous [] = previous := by
  cases previous <;> rfl

theorem lastOr_cons (previous : Option Char) (c : Char) (text : List Char) :
    lastOr previous (c :: text) = lastOr (some c) text := by
  cases text with
  | nil => rfl
  | cons d rest =>
    rw [lastOr, lastOr, List.getLast?_cons_cons, List.getLast?_eq_some_getLast (by simp)]
    rfl

theorem lastOr_append (previous : Option Char) (first second : List Char) :
    lastOr previous (first ++ second) = lastOr (lastOr previous first) second := by
  induction first generalizing previous with
  | nil => rw [List.nil_append, lastOr_nil]
  | cons c rest ih => rw [List.cons_append, lastOr_cons, lastOr_cons, ih]

theorem mem_gapEnds : place ∈ gapEnds p previous text ↔ ∃ found, text = found ++ place.2 ∧
    place.1 = lastOr previous found ∧ ∀ c ∈ found, p c = true := by
  induction text generalizing previous with
  | nil =>
    rw [gapEnds, List.mem_singleton]
    constructor
    · rintro rfl
      exact ⟨[], rfl, (lastOr_nil previous).symm, fun c hc => absurd hc List.not_mem_nil⟩
    · rintro ⟨found, htext, hlast, -⟩
      obtain ⟨rfl, hrest⟩ := List.append_eq_nil_iff.mp htext.symm
      rw [lastOr_nil] at hlast
      exact Prod.ext hlast hrest
  | cons c rest ih =>
    rw [gapEnds, List.mem_cons]
    constructor
    · rintro (rfl | h)
      · exact ⟨[], rfl, (lastOr_nil previous).symm, fun c hc => absurd hc List.not_mem_nil⟩
      · split_ifs at h with hc
        · obtain ⟨found, hrest, hlast, hall⟩ := ih.mp h
          refine ⟨c :: found, by rw [hrest]; rfl, by rw [lastOr_cons]; exact hlast, ?_⟩
          exact List.forall_mem_cons.mpr ⟨hc, hall⟩
        · cases h
    · rintro ⟨found, htext, hlast, hall⟩
      cases found with
      | nil =>
        rw [lastOr_nil] at hlast
        exact .inl (Prod.ext hlast htext.symm)
      | cons d found =>
        obtain ⟨rfl, hrest⟩ := List.cons.inj htext
        obtain ⟨hd, hfound⟩ := List.forall_mem_cons.mp hall
        rw [lastOr_cons] at hlast
        rw [if_pos hd]
        exact .inr (ih.mpr ⟨found, hrest, hlast, hfound⟩)

theorem mem_ends {pattern : Pattern} : place ∈ ends isWord pattern (previous, text) ↔
    ∃ found, text = found ++ place.2 ∧ place.1 = lastOr previous found ∧
      Matches isWord pattern previous found place.2 := by
  induction pattern generalizing previous text place with
  | empty =>
    rw [ends, List.mem_singleton]
    constructor
    · rintro rfl
      exact ⟨[], rfl, (lastOr_nil previous).symm, rfl⟩
    · rintro ⟨found, htext, hlast, rfl⟩
      rw [lastOr_nil] at hlast
      exact Prod.ext hlast htext.symm
  | char p =>
    cases text with
    | nil =>
      constructor
      · intro h
        cases h
      · rintro ⟨found, htext, -, c, rfl, -⟩
        cases htext
    | cons c rest =>
      show place ∈ (if p c then [(some c, rest)] else []) ↔ _
      constructor
      · intro h
        split_ifs at h with hc
        · obtain rfl := List.mem_singleton.mp h
          exact ⟨[c], rfl, rfl, c, rfl, hc⟩
        · cases h
      · rintro ⟨found, htext, hlast, d, rfl, hd⟩
        obtain ⟨rfl, hrest⟩ := List.cons.inj htext
        rw [if_pos hd, List.mem_singleton]
        exact Prod.ext hlast hrest.symm
  | gap p => exact mem_gapEnds
  | boundary =>
    show place ∈ (if previous.any isWord = text.head?.any isWord then [] else [(previous, text)]) ↔ _
    constructor
    · intro h
      split_ifs at h with hsame
      · cases h
      · obtain rfl := List.mem_singleton.mp h
        exact ⟨[], rfl, (lastOr_nil previous).symm, rfl, hsame⟩
    · rintro ⟨found, htext, hlast, rfl, hsame⟩
      rw [lastOr_nil] at hlast
      rw [List.nil_append] at htext
      rw [htext, if_neg hsame, List.mem_singleton]
      exact Prod.ext hlast rfl
  | seq first second ihFirst ihSecond =>
    rw [ends, List.mem_flatMap]
    constructor
    · rintro ⟨⟨before, middle⟩, hfirst, hsecond⟩
      obtain ⟨a, htext, hbefore, ha⟩ := ihFirst.mp hfirst
      obtain ⟨b, hmiddle, hlast, hb⟩ := ihSecond.mp hsecond
      dsimp only at htext hbefore ha
      rw [hbefore] at hlast hb
      refine ⟨a ++ b, by rw [htext, hmiddle, List.append_assoc], by rw [lastOr_append]; exact hlast,
        a, b, rfl, ?_, hb⟩
      rw [← hmiddle]
      exact ha
    · rintro ⟨found, htext, hlast, a, b, rfl, ha, hb⟩
      refine ⟨(lastOr previous a, b ++ place.2), ihFirst.mpr ⟨a, ?_, rfl, ha⟩,
        ihSecond.mpr ⟨b, rfl, ?_, hb⟩⟩
      · rw [htext, List.append_assoc]
      · rw [hlast, lastOr_append]
  | either first second ihFirst ihSecond =>
    rw [ends, List.mem_append, ihFirst, ihSecond]
    constructor
    · rintro (⟨found, htext, hlast, h⟩ | ⟨found, htext, hlast, h⟩)
      · exact ⟨found, htext, hlast, .inl h⟩
      · exact ⟨found, htext, hlast, .inr h⟩
    · rintro ⟨found, htext, hlast, h | h⟩
      · exact .inl ⟨found, htext, hlast, h⟩
      · exact .inr ⟨found, htext, hlast, h⟩

theorem fullmatch_iff {pattern : Pattern} :
    fullmatch isWord pattern text = true ↔ Matches isWord pattern none text [] := by
  rw [fullmatch, List.any_eq_true]
  constructor
  · rintro ⟨place, hplace, hend⟩
    obtain ⟨found, htext, -, hfound⟩ := mem_ends.mp hplace
    rw [List.isEmpty_iff.mp hend] at htext hfound
    rw [htext, List.append_nil]
    exact hfound
  · intro h
    exact ⟨(lastOr none text, []), mem_ends.mpr ⟨text, (List.append_nil text).symm, rfl, h⟩, rfl⟩

theorem searchFrom_iff {pattern : Pattern} : searchFrom isWord pattern previous text = true ↔
    ∃ before found after, text = before ++ (found ++ after) ∧
      Matches isWord pattern (lastOr previous before) found after := by
  have hhere : ∀ previous text, (!(ends isWord pattern (previous, text)).isEmpty) = true ↔
      ∃ found after, text = found ++ after ∧ Matches isWord pattern previous found after := by
    intro previous text
    rw [Bool.not_eq_true', List.isEmpty_eq_false_iff_exists_mem]
    constructor
    · rintro ⟨place, hplace⟩
      obtain ⟨found, htext, -, hfound⟩ := mem_ends.mp hplace
      exact ⟨found, place.2, htext, hfound⟩
    · rintro ⟨found, after, htext, hfound⟩
      exact ⟨(lastOr previous found, after), mem_ends.mpr ⟨found, htext, rfl, hfound⟩⟩
  induction text generalizing previous with
  | nil =>
    rw [searchFrom, hhere]
    constructor
    · rintro ⟨found, after, htext, hfound⟩
      exact ⟨[], found, after, htext, by rwa [lastOr_nil]⟩
    · rintro ⟨before, found, after, htext, hfound⟩
      obtain ⟨rfl, hrest⟩ := List.append_eq_nil_iff.mp htext.symm
      rw [lastOr_nil] at hfound
      exact ⟨found, after, hrest.symm, hfound⟩
  | cons c rest ih =>
    rw [searchFrom, Bool.or_eq_true, hhere]
    constructor
    · rintro (⟨found, after, htext, hfound⟩ | hlater)
      · exact ⟨[], found, after, htext, by rwa [lastOr_nil]⟩
      · obtain ⟨before, found, after, hrest, hfound⟩ := ih.mp hlater
        exact ⟨c :: before, found, after, by rw [hrest]; rfl, by rwa [lastOr_cons]⟩
    · rintro ⟨before, found, after, htext, hfound⟩
      cases before with
      | nil =>
        rw [lastOr_nil] at hfound
        exact .inl ⟨found, after, htext, hfound⟩
      | cons d before =>
        obtain ⟨rfl, hrest⟩ := List.cons.inj htext
        rw [lastOr_cons] at hfound
        exact .inr (ih.mpr ⟨before, found, after, hrest, hfound⟩)

theorem search_iff {pattern : Pattern} : search isWord pattern text = true ↔
    ∃ before found after, text = before ++ (found ++ after) ∧
      Matches isWord pattern before.getLast? found after := by
  have hlast : ∀ before : List Char, lastOr none before = before.getLast? := fun before => by
    rw [lastOr, Option.or_none]
  simp only [search, searchFrom_iff, hlast]

end Semantics

section Spelling

variable {isWord : Char → Bool} {fold : Char → Char} {blank : Char → Bool}

theorem matches_word {text found rest : List Char} {previous : Option Char} :
    Matches isWord (.word fold text) previous found rest ↔ found.map fold = text := by
  induction text generalizing previous found with
  | nil =>
    rw [List.map_eq_nil_iff]
    rfl
  | cons c text ih =>
    constructor
    · rintro ⟨a, b, rfl, ⟨d, rfl, hd⟩, hb⟩
      rw [List.map_append, ih.mp hb, List.map_singleton, of_decide_eq_true hd]
      rfl
    · intro h
      obtain ⟨d, found, rfl, hd, hfound⟩ := List.map_eq_cons_iff.mp h
      exact ⟨[d], found, rfl, ⟨d, rfl, decide_eq_true hd⟩, ih.mpr hfound⟩

def dense (fold : Char → Char) (blank : Char → Bool) (text : List Char) : List Char :=
  (text.map fold).filter fun c => !blank c

theorem dense_append (first second : List Char) :
    dense fold blank (first ++ second) = dense fold blank first ++ dense fold blank second := by
  rw [dense, List.map_append, List.filter_append]
  rfl

theorem dense_eq_nil {text : List Char} (h : ∀ c ∈ text, blank (fold c) = true) :
    dense fold blank text = [] := by
  refine List.filter_eq_nil_iff.mpr fun c hc => ?_
  obtain ⟨d, hd, rfl⟩ := List.mem_map.mp hc
  simp [h d hd]

def Spells (isWord : Char → Bool) (fold : Char → Char) (blank : Char → Bool) (pattern : Pattern)
    (texts : List (List Char)) : Prop :=
  ∀ previous found rest, Matches isWord pattern previous found rest →
    dense fold blank found ∈ texts

theorem spells_empty : Spells isWord fold blank .empty [[]] := by
  rintro previous found rest rfl
  exact List.mem_singleton.mpr rfl

theorem spells_boundary : Spells isWord fold blank .boundary [[]] := by
  rintro previous found rest ⟨rfl, -⟩
  exact List.mem_singleton.mpr rfl

theorem spells_word (text : List Char) :
    Spells isWord fold blank (.word fold text) [text.filter fun c => !blank c] := by
  intro previous found rest h
  rw [dense, matches_word.mp h]
  exact List.mem_singleton.mpr rfl

theorem spells_char {p : Char → Bool} (h : ∀ c, p c = true → blank (fold c) = true) :
    Spells isWord fold blank (.char p) [[]] := by
  rintro previous found rest ⟨c, rfl, hc⟩
  refine List.mem_singleton.mpr (dense_eq_nil fun d hd => ?_)
  rw [List.mem_singleton.mp hd]
  exact h c hc

theorem spells_gap {p : Char → Bool} (h : ∀ c, p c = true → blank (fold c) = true) :
    Spells isWord fold blank (.gap p) [[]] := fun _ _ _ hfound =>
  List.mem_singleton.mpr (dense_eq_nil fun c hc => h c (hfound c hc))

theorem Spells.either {first second : Pattern} {a b : List (List Char)}
    (ha : Spells isWord fold blank first a) (hb : Spells isWord fold blank second b) :
    Spells isWord fold blank (.either first second) (a ++ b) := by
  rintro previous found rest (h | h)
  · exact List.mem_append_left _ (ha previous found rest h)
  · exact List.mem_append_right _ (hb previous found rest h)

theorem Spells.seq {first second : Pattern} {a b : List (List Char)}
    (ha : Spells isWord fold blank first a) (hb : Spells isWord fold blank second b) :
    Spells isWord fold blank (.seq first second) (a.flatMap fun x => b.map fun y => x ++ y) := by
  rintro previous found rest ⟨x, y, rfl, hx, hy⟩
  rw [dense_append, List.mem_flatMap]
  exact ⟨_, ha _ _ _ hx, List.mem_map.mpr ⟨_, hb _ _ _ hy, rfl⟩⟩

def Holds (isWord : Char → Bool) (fold : Char → Char) (blank : Char → Bool)
    (words : List (List Char)) (pattern : Pattern) : Prop :=
  ∀ previous found rest, Matches isWord pattern previous found rest →
    ∃ word ∈ words, word <:+: dense fold blank found

variable {words : List (List Char)}

theorem holds_word {text word : List Char} (hmem : word ∈ words)
    (h : word <:+: text.filter fun c => !blank c) :
    Holds isWord fold blank words (.word fold text) := by
  intro previous found rest hfound
  refine ⟨word, hmem, ?_⟩
  rwa [dense, matches_word.mp hfound]

theorem Spells.holds {pattern : Pattern} {texts : List (List Char)}
    (h : Spells isWord fold blank pattern texts)
    (hwords : ∀ text ∈ texts, ∃ word ∈ words, word <:+: text) :
    Holds isWord fold blank words pattern :=
  fun previous found rest hfound => hwords _ (h previous found rest hfound)

theorem Holds.left {first second : Pattern} (h : Holds isWord fold blank words first) :
    Holds isWord fold blank words (.seq first second) := by
  rintro previous found rest ⟨x, y, rfl, hx, -⟩
  obtain ⟨word, hmem, hword⟩ := h _ _ _ hx
  rw [dense_append]
  exact ⟨word, hmem, hword.trans (List.prefix_append _ _).isInfix⟩

theorem Holds.right {first second : Pattern} (h : Holds isWord fold blank words second) :
    Holds isWord fold blank words (.seq first second) := by
  rintro previous found rest ⟨x, y, rfl, -, hy⟩
  obtain ⟨word, hmem, hword⟩ := h _ _ _ hy
  rw [dense_append]
  exact ⟨word, hmem, hword.trans (List.suffix_append _ _).isInfix⟩

theorem Holds.either {first second : Pattern} (hfirst : Holds isWord fold blank words first)
    (hsecond : Holds isWord fold blank words second) :
    Holds isWord fold blank words (.either first second) := by
  rintro previous found rest (h | h)
  · exact hfirst previous found rest h
  · exact hsecond previous found rest h

theorem Holds.of_search {pattern : Pattern} {text : List Char}
    (h : Holds isWord fold blank words pattern) (hfound : search isWord pattern text = true) :
    ∃ word ∈ words, word <:+: dense fold blank text := by
  obtain ⟨before, found, after, rfl, hmatch⟩ := search_iff.mp hfound
  obtain ⟨word, hmem, hword⟩ := h _ _ _ hmatch
  rw [dense_append, dense_append]
  exact ⟨word, hmem, hword.trans
    ((List.prefix_append _ _).isInfix.trans (List.suffix_append _ _).isInfix)⟩

end Spelling

section Renaming

variable {isWord isWord' : Char → Bool} {f : Char → Char}

def Pattern.Respects (f : Char → Char) : Pattern → Prop
  | .empty | .boundary => True
  | .char p | .gap p => ∀ c, p (f c) = p c
  | .seq first second | .either first second => first.Respects f ∧ second.Respects f

theorem respects_sequence {parts : List Pattern} (h : ∀ part ∈ parts, part.Respects f) :
    (Pattern.sequence parts).Respects f := by
  induction parts with
  | nil => trivial
  | cons part rest ih => exact ⟨h part List.mem_cons_self, ih (List.forall_mem_cons.mp h).2⟩

theorem respects_word {fold : Char → Char} (h : ∀ c, fold (f c) = fold c) (text : List Char) :
    (Pattern.word fold text).Respects f := by
  refine respects_sequence fun part hpart => ?_
  obtain ⟨c, -, rfl⟩ := List.mem_map.mp hpart
  exact fun d => congrArg (fun e => decide (e = c)) (h d)

theorem respects_optional {pattern : Pattern} (h : pattern.Respects f) :
    pattern.optional.Respects f := ⟨h, trivial⟩

theorem gapEnds_map {p : Char → Bool} (hp : ∀ c, p (f c) = p c) (previous : Option Char)
    (text : List Char) : gapEnds p (previous.map f) (text.map f) =
      (gapEnds p previous text).map fun place => (place.1.map f, place.2.map f) := by
  induction text generalizing previous with
  | nil => rfl
  | cons c rest ih =>
    rw [List.map_cons, gapEnds, gapEnds, hp, List.map_cons]
    split_ifs
    · exact congrArg _ (ih (some c))
    · rfl

theorem ends_map {pattern : Pattern} (hpattern : pattern.Respects f) (previous : Option Char)
    (text : List Char) (hprevious : ∀ c ∈ previous, isWord' (f c) = isWord c)
    (hword : ∀ c ∈ text, isWord' (f c) = isWord c) :
    ends isWord' pattern (previous.map f, text.map f) =
      (ends isWord pattern (previous, text)).map fun place => (place.1.map f, place.2.map f) := by
  induction pattern generalizing previous text with
  | empty => rfl
  | char p =>
    cases text with
    | nil => rfl
    | cons c rest =>
      have hc : p (f c) = p c := hpattern c
      simp only [ends, List.map_cons, hc]
      split_ifs <;> rfl
  | gap p => exact gapEnds_map hpattern previous text
  | boundary =>
    have hany : ∀ o : Option Char, (∀ c ∈ o, isWord' (f c) = isWord c) →
        (o.map f).any isWord' = o.any isWord := fun o ho => by
      cases o with
      | none => rfl
      | some c => exact ho c rfl
    have hhead : (text.map f).head?.any isWord' = text.head?.any isWord := by
      rw [List.head?_map]
      exact hany _ fun c hc => hword c (List.mem_of_head? hc)
    simp only [ends, hany previous hprevious, hhead]
    split_ifs <;> rfl
  | seq first second ihFirst ihSecond =>
    simp only [ends, ihFirst hpattern.1 previous text hprevious hword, List.flatMap_map,
      List.map_flatMap]
    refine List.flatMap_congr fun place hplace => ?_
    obtain ⟨found, htext, hlast, -⟩ := mem_ends.mp hplace
    refine ihSecond hpattern.2 place.1 place.2 (fun c hc => ?_) fun c hc => ?_
    · rw [hlast, lastOr] at hc
      rcases Option.or_eq_some_iff.mp hc with hc | ⟨-, hc⟩
      · exact hword c (htext ▸ List.mem_append_left _ (List.mem_of_getLast? hc))
      · exact hprevious c hc
    · exact hword c (htext ▸ List.mem_append_right _ hc)
  | either first second ihFirst ihSecond =>
    simp only [ends, ihFirst hpattern.1 previous text hprevious hword,
      ihSecond hpattern.2 previous text hprevious hword, List.map_append]

/-- A pattern is found in the image of a text where it is found in the text. -/
theorem search_map {pattern : Pattern} (hpattern : pattern.Respects f) {text : List Char}
    (hword : ∀ c ∈ text, isWord' (f c) = isWord c) :
    search isWord' pattern (text.map f) = search isWord pattern text := by
  have hfrom : ∀ previous : Option Char, (∀ c ∈ previous, isWord' (f c) = isWord c) →
      searchFrom isWord' pattern (previous.map f) (text.map f) =
        searchFrom isWord pattern previous text := by
    induction text with
    | nil =>
      intro previous hprevious
      have hhere := ends_map hpattern previous [] hprevious hword
      rw [searchFrom, ← List.isEmpty_map, ← hhere]
      rfl
    | cons c rest ih =>
      intro previous hprevious
      obtain ⟨hc, hrest⟩ := List.forall_mem_cons.mp hword
      have hhere := ends_map hpattern previous (c :: rest) hprevious hword
      have hlater := ih hrest (some c) fun d hd => Option.mem_some_iff.mp hd ▸ hc
      rw [searchFrom, ← List.isEmpty_map, ← hhere, ← hlater]
      rfl
  exact hfrom none fun c hc => absurd hc (by simp)

end Renaming

end LinePattern
