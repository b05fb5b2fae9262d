import Mathlib.Data.List.DropRight
import Mathlib.Tactic

/-! Whole words in a text, and the search for them through windows of a text that is read in
chunks. -/
namespace WordSearch

variable {α : Type}

/-- Words that are compared after `fold`. No word character may follow one, and none may stand
before it where the pattern is bounded. -/
structure Pattern (α : Type) where
  fold : α → α
  words : List (List α)
  isWord : α → Bool
  bounded : Bool

section Chunks

theorem rdrop_append_rtake (text : List α) (n : ℕ) : text.rdrop n ++ text.rtake n = text := by
  rw [List.rdrop, List.rtake, List.take_append_drop]

theorem rtake_rtake_append (done chunk : List α) (n : ℕ) :
    (done.rtake n ++ chunk).rtake n = (done ++ chunk).rtake n := by
  simp only [List.rtake, List.length_append, List.length_drop, List.drop_append, List.drop_drop]
  congr 1
  · congr 1
    omega
  · congr 1
    omega

/-- The windows of a text read in chunks, each with the text before and behind it. -/
structure Window (overlap : ℕ) (chunks : List (List α)) (left window right : List α) : Prop where
  exists_chunk : ∃ front chunk back, chunks = front ++ chunk :: back ∧
    left = front.flatten.rdrop overlap ∧ window = front.flatten.rtake overlap ++ chunk ∧
    right = back.flatten

variable {overlap : ℕ}

theorem Window.text_eq {chunks : List (List α)} {left window right : List α}
    (h : Window overlap chunks left window right) : chunks.flatten = left ++ window ++ right := by
  obtain ⟨front, chunk, back, rfl, rfl, rfl, rfl⟩ := h
  rw [List.flatten_append, List.flatten_cons, ← List.append_assoc (front.flatten.rdrop overlap),
    rdrop_append_rtake, List.append_assoc]

theorem exists_chunk_of_length {chunks : List (List α)} {n : ℕ} (hpos : 0 < n)
    (hle : n ≤ chunks.flatten.length) : ∃ front chunk back, chunks = front ++ chunk :: back ∧
      front.flatten.length < n ∧ n ≤ front.flatten.length + chunk.length := by
  induction chunks generalizing n with
  | nil =>
    rw [List.flatten_nil, List.length_nil] at hle
    omega
  | cons first rest ih =>
    by_cases hfirst : n ≤ first.length
    · refine ⟨[], first, rest, rfl, ?_, ?_⟩
      · simpa using hpos
      · simpa using hfirst
    · rw [List.flatten_cons, List.length_append] at hle
      obtain ⟨front, chunk, back, rfl, hlt, hend⟩ := @ih (n - first.length) (by omega) (by omega)
      refine ⟨first :: front, chunk, back, rfl, ?_, ?_⟩
      · rw [List.flatten_cons, List.length_append]
        omega
      · rw [List.flatten_cons, List.length_append]
        omega

theorem getLast?_cons_or (c : α) (before : List α) (previous : Option α) :
    (c :: before).getLast?.or previous = before.getLast?.or (some c) := by
  cases before with
  | nil => rfl
  | cons d rest =>
    rw [List.getLast?_cons_cons, List.getLast?_eq_some_getLast (List.cons_ne_nil d rest)]
    rfl

end Chunks

section Ends

variable (p : Pattern α)

def Pattern.endsBefore (next : Option α) : Bool := !next.any p.isWord

def Pattern.startsAfter (previous : Option α) : Bool := !p.bounded || !previous.any p.isWord

structure Pattern.Found (previous : Option α) (before found after : List α) : Prop where
  word : found.map p.fold ∈ p.words
  starts : p.startsAfter (before.getLast?.or previous) = true
  ends : p.endsBefore after.head? = true

def Pattern.Matches (text : List α) : Prop :=
  ∃ before found after, text = before ++ found ++ after ∧ p.Found none before found after

/-- No word that a window shows at one of its ends is a part of a longer one in the text. -/
def Pattern.Uncut (overlap : ℕ) (chunks : List (List α)) : Prop :=
  ∀ left window right, Window overlap chunks left window right →
    ∀ before found after, window = before ++ found ++ after → p.Found none before found after →
      (before = [] → p.startsAfter left.getLast? = true) ∧
        (after = [] → p.endsBefore right.head? = true)

variable {p}

theorem startsAfter_none : p.startsAfter none = true := by
  rw [Pattern.startsAfter, Option.any_none, Bool.not_false, Bool.or_true]

theorem endsBefore_none : p.endsBefore none = true := by
  rw [Pattern.endsBefore, Option.any_none, Bool.not_false]

end Ends

section Search

variable [DecidableEq α] (p : Pattern α)

def Pattern.here (text : List α) : Bool :=
  p.words.any fun word =>
    decide ((text.take word.length).map p.fold = word) && p.endsBefore (text.drop word.length).head?

/-- `re.search`, where `previous` is the character before the text. -/
def Pattern.search (previous : Option α) : List α → Bool
  | [] => p.startsAfter previous && p.here []
  | c :: rest => (p.startsAfter previous && p.here (c :: rest)) || search (some c) rest

variable {p}

theorem here_iff {text : List α} : p.here text = true ↔ ∃ found after, text = found ++ after ∧
    found.map p.fold ∈ p.words ∧ p.endsBefore after.head? = true := by
  simp only [Pattern.here, List.any_eq_true, Bool.and_eq_true, decide_eq_true_eq]
  constructor
  · rintro ⟨word, hword, hfound, hends⟩
    exact ⟨text.take word.length, text.drop word.length, (List.take_append_drop _ _).symm,
      hfound.symm ▸ hword, hends⟩
  · rintro ⟨found, after, rfl, hword, hends⟩
    refine ⟨found.map p.fold, hword, ?_, ?_⟩
    · rw [List.length_map, List.take_left]
    · rwa [List.length_map, List.drop_left]

theorem search_iff {previous : Option α} {text : List α} : p.search previous text = true ↔
    ∃ before found after, text = before ++ found ++ after ∧ p.Found previous before found after := by
  induction text generalizing previous with
  | nil =>
    rw [Pattern.search, Bool.and_eq_true, here_iff]
    constructor
    · rintro ⟨hstarts, found, after, htext, hword, hends⟩
      exact ⟨[], found, after, htext, hword, hstarts, hends⟩
    · rintro ⟨before, found, after, htext, hword, hstarts, hends⟩
      obtain ⟨hfront, rfl⟩ := List.append_eq_nil_iff.mp htext.symm
      obtain ⟨rfl, rfl⟩ := List.append_eq_nil_iff.mp hfront
      exact ⟨hstarts, [], [], rfl, hword, hends⟩
  | cons c rest ih =>
    rw [Pattern.search, Bool.or_eq_true, Bool.and_eq_true, here_iff, ih]
    constructor
    · rintro (⟨hstarts, found, after, htext, hword, hends⟩ | ⟨before, found, after, rfl, h⟩)
      · exact ⟨[], found, after, htext, hword, hstarts, hends⟩
      · exact ⟨c :: before, found, after, rfl, h.word,
          (getLast?_cons_or c before previous).symm ▸ h.starts, h.ends⟩
    · rintro ⟨before, found, after, htext, h⟩
      cases before with
      | nil => exact .inl ⟨h.starts, found, after, htext, h.word, h.ends⟩
      | cons d before =>
        obtain ⟨rfl, rfl⟩ := List.cons.inj htext
        exact .inr ⟨before, found, after, rfl, h.word,
          getLast?_cons_or c before previous ▸ h.starts, h.ends⟩

theorem search_iff_matches {text : List α} : p.search none text = true ↔ p.Matches text :=
  search_iff

end Search

section Windows

variable [DecidableEq α] (p : Pattern α) (overlap : ℕ)

def Pattern.scan (tail : List α) : List (List α) → Bool
  | [] => false
  | chunk :: rest =>
    p.search none (tail ++ chunk) || scan ((tail ++ chunk).rtake overlap) rest

variable {p overlap}

theorem scan_iff {done : List α} {chunks : List (List α)} :
    p.scan overlap (done.rtake overlap) chunks = true ↔ ∃ front chunk back,
      chunks = front ++ chunk :: back ∧
        p.Matches ((done ++ front.flatten).rtake overlap ++ chunk) := by
  induction chunks generalizing done with
  | nil => simp [Pattern.scan]
  | cons first rest ih =>
    rw [Pattern.scan, Bool.or_eq_true, rtake_rtake_append, ih, search_iff_matches]
    constructor
    · rintro (h | ⟨front, chunk, back, rfl, h⟩)
      · refine ⟨[], first, rest, rfl, ?_⟩
        rwa [List.flatten_nil, List.append_nil]
      · refine ⟨first :: front, chunk, back, rfl, ?_⟩
        rwa [List.flatten_cons, ← List.append_assoc]
    · rintro ⟨front, chunk, back, hsplit, h⟩
      cases front with
      | nil =>
        obtain ⟨rfl, rfl⟩ := List.cons.inj hsplit
        rw [List.flatten_nil, List.append_nil] at h
        exact .inl h
      | cons other front =>
        obtain ⟨rfl, rfl⟩ := List.cons.inj hsplit
        refine .inr ⟨front, chunk, back, rfl, ?_⟩
        rwa [List.flatten_cons, ← List.append_assoc] at h

theorem scan_iff_window {chunks : List (List α)} : p.scan overlap [] chunks = true ↔
    ∃ left window right, Window overlap chunks left window right ∧ p.Matches window := by
  have hstart : p.scan overlap [] chunks = p.scan overlap (([] : List α).rtake overlap) chunks := by
    simp [List.rtake]
  rw [hstart, scan_iff]
  constructor
  · rintro ⟨front, chunk, back, rfl, h⟩
    exact ⟨_, _, _, ⟨front, chunk, back, rfl, rfl, rfl, rfl⟩, h⟩
  · rintro ⟨_, _, _, ⟨front, chunk, back, rfl, rfl, rfl, rfl⟩, h⟩
    exact ⟨front, chunk, back, rfl, h⟩

/-- A word of the text is seen through the window of the chunk it ends in. -/
theorem scan_of_matches (hwords : ∀ word ∈ p.words, word ≠ [] ∧ word.length ≤ overlap)
    {chunks : List (List α)} (h : p.Matches chunks.flatten) : p.scan overlap [] chunks = true := by
  obtain ⟨before, found, after, htext, hfound⟩ := h
  obtain ⟨hne, hlength⟩ := hwords _ hfound.word
  rw [List.length_map] at hlength
  have hpos : 0 < found.length := List.length_pos_iff.mpr (List.map_eq_nil_iff.not.mp hne)
  have hend : (before ++ found).length ≤ chunks.flatten.length := by
    rw [htext]
    exact (List.prefix_append _ _).length_le
  obtain ⟨front, chunk, back, rfl, hlt, hle⟩ :=
    exists_chunk_of_length (by rw [List.length_append]; omega) hend
  rw [List.length_append] at hlt hle
  refine scan_iff_window.mpr ⟨_, _, _, ⟨front, chunk, back, rfl, rfl, rfl, rfl⟩, ?_⟩
  -- the window is what is left of the text up to the end of the chunk, a front of it dropped
  have hsplit : front.flatten ++ chunk = before ++ found ++
      after.take (front.flatten.length + chunk.length - (before.length + found.length)) := by
    have hflat : (front.flatten ++ chunk) ++ back.flatten = (before ++ found) ++ after := by
      rw [← htext, List.flatten_append, List.flatten_cons, List.append_assoc]
    have htake := congrArg (List.take (front.flatten ++ chunk).length) hflat
    rw [List.take_left, List.take_append, List.take_of_length_le
      (by rw [List.length_append, List.length_append]; omega), List.length_append,
      List.length_append] at htake
    exact htake
  have hdrop : front.flatten.length - overlap ≤ before.length := by omega
  have hwindow : front.flatten.rtake overlap ++ chunk =
      (front.flatten ++ chunk).drop (front.flatten.length - overlap) := by
    rw [List.rtake, List.drop_append_of_le_length (by omega)]
  rw [hwindow, hsplit, List.append_assoc, List.drop_append_of_le_length hdrop, ← List.append_assoc]
  refine ⟨_, found, _, rfl, hfound.word, ?_, ?_⟩
  · have hstarts := hfound.starts
    rw [Option.or_none] at hstarts ⊢
    rw [List.getLast?_drop]
    split_ifs
    · exact startsAfter_none
    · exact hstarts
  · rw [List.head?_take]
    split_ifs
    · exact endsBefore_none
    · exact hfound.ends

/-- The windows show the words of the text, and no others where no window cuts a longer one. -/
theorem scan_iff_matches (hwords : ∀ word ∈ p.words, word ≠ [] ∧ word.length ≤ overlap)
    {chunks : List (List α)} : (p.scan overlap [] chunks = true ↔ p.Matches chunks.flatten) ↔
      p.Matches chunks.flatten ∨ p.Uncut overlap chunks := by
  constructor
  · intro h
    by_cases hmatches : p.Matches chunks.flatten
    · exact .inl hmatches
    · refine .inr fun left window right hwindow before found after heq hfound => ?_
      exact absurd (h.mp (scan_iff_window.mpr
        ⟨left, window, right, hwindow, before, found, after, heq, hfound⟩)) hmatches
  · rintro (hmatches | huncut)
    · exact ⟨fun _ => hmatches, scan_of_matches hwords⟩
    · refine ⟨fun hscan => ?_, scan_of_matches hwords⟩
      obtain ⟨left, window, right, hwindow, before, found, after, rfl, hfound⟩ :=
        scan_iff_window.mp hscan
      obtain ⟨hstarts, hends⟩ := huncut _ _ _ hwindow before found after rfl hfound
      refine ⟨left ++ before, found, after ++ right, ?_, hfound.word, ?_, ?_⟩
      · rw [hwindow.text_eq]
        simp only [List.append_assoc]
      · cases before with
        | nil => simpa using hstarts rfl
        | cons c rest =>
          have hlast := hfound.starts
          rwa [List.getLast?_append_of_ne_nil _ (List.cons_ne_nil c rest)]
      · cases after with
        | nil => simpa using hends rfl
        | cons c rest => exact hfound.ends

end Windows

section Bytes

def ascii (text : String) : List UInt8 := text.toList.map fun c => c.toNat.toUInt8

def lowerByte (b : UInt8) : UInt8 := if 65 ≤ b ∧ b ≤ 90 then b + 32 else b

/-- `[A-Za-z0-9_]`. -/
def isWordByte (b : UInt8) : Bool :=
  decide ((48 ≤ b ∧ b ≤ 57) ∨ (65 ≤ b ∧ b ≤ 90) ∨ (97 ≤ b ∧ b ≤ 122) ∨ b = 95)

def byteWords (words : List String) (bounded : Bool) : Pattern UInt8 :=
  ⟨lowerByte, words.map ascii, isWordByte, bounded⟩

end Bytes

end WordSearch

