import OpenADA.Library.SpiceText
import OpenADA.Library.PyDecimal

/-! The numeric literals of SPICE as regular expressions read them: a number and the letters behind
it. -/
namespace OpenADA.Scalars

open PyText SpiceText

/-- The sign, the digits before and behind the point, and the exponent of a number. -/
structure Number where
  negative : Bool
  whole : List Char
  fraction : List Char
  exponent : ℤ
  deriving DecidableEq

structure Literal where
  number : Number
  letters : List Char
  deriving DecidableEq

/-- The characters `\d` matches with their values, and what the number types of Python make of a
number: whether `Decimal` reads it, whether its product with a scale stays in the range of the
binding context, and whether it and its product with a scale are finite floats. -/
structure Arithmetic where
  isDigit : Char → Bool
  digit : Char → ℕ
  ascii : ∀ c, c.toNat < 128 → isDigit c = c.isDigit
  digit_ascii : ∀ c, c.isDigit = true → digit c = c.toNat - 48
  not_space : ∀ c, isDigit c = true → isSpace c = false
  not_letter : ∀ c ∈ ['\u0130', '\u0131', '\u017f', '\u212a'], isDigit c = false
  decimalReads : Number → Bool
  productFits : Number → ℚ → Bool
  floatFinite : Number → ℚ → Bool

/-- `[+-]?`. -/
def signOf (text : List Char) : Bool × List Char :=
  if text.head? = some '-' then (true, text.tail)
  else if text.head? = some '+' then (false, text.tail)
  else (false, text)

def natOf (digit : Char → ℕ) (digits : List Char) : ℕ := digits.foldl (fun n c => 10 * n + digit c) 0

section Grammar

variable (isDigit : Char → Bool) (digit : Char → ℕ)

/-- `(?:\.\d*)?`. -/
def fractionOf (text : List Char) : List Char × List Char :=
  if text.head? = some '.' then (text.tail.takeWhile isDigit, text.tail.dropWhile isDigit)
  else ([], text)

/-- `(?:[eE][+-]?\d+)?`. -/
def exponentOf (text : List Char) : ℤ × List Char :=
  if text.head? = some 'e' ∨ text.head? = some 'E' then
    let (negative, body) := signOf text.tail
    let digits := body.takeWhile isDigit
    if digits = [] then (0, text)
    else ((if negative then -1 else 1) * natOf digit digits, body.dropWhile isDigit)
  else (0, text)

/-- `[+-]?(?:\d+(?:\.\d*)?|\.\d+)(?:[eE][+-]?\d+)?` and the text behind it. No shorter number is
followed by letters only. -/
def numberOf (text : List Char) : Option (Number × List Char) :=
  let (negative, body) := signOf text
  let whole := body.takeWhile isDigit
  let (fraction, behind) := fractionOf isDigit (body.dropWhile isDigit)
  if whole = [] ∧ fraction = [] then none
  else
    let (exponent, letters) := exponentOf isDigit digit behind
    some (⟨negative, whole, fraction, exponent⟩, letters)

def literalOf (isLetter : Char → Bool) (text : List Char) : Option Literal :=
  match numberOf isDigit digit text with
  | none => none
  | some (number, letters) => if letters.all isLetter then some ⟨number, letters⟩ else none

end Grammar

def isLetter (c : Char) : Bool := c.isAlpha

/-- `[A-Za-z]` where the case is ignored: four letters more. -/
def isLetterIgnoringCase (c : Char) : Bool :=
  c.isAlpha || decide (c ∈ ['\u0130', '\u0131', '\u017f', '\u212a'])

def Number.value (digit : Char → ℕ) (number : Number) : ℚ :=
  (if number.negative then -1 else 1) * natOf digit (number.whole ++ number.fraction) *
    10 ^ (number.exponent - number.fraction.length)

theorem takeWhile_congr {p q : Char → Bool} {text : List Char} (h : Agree p q text) :
    text.takeWhile p = text.takeWhile q := by
  induction text with
  | nil => rfl
  | cons c rest ih =>
    rw [List.takeWhile_cons, List.takeWhile_cons, h c (List.mem_cons_self ..),
      ih (h.subset (List.subset_cons_self c rest))]

theorem signOf_subset (text : List Char) : (signOf text).2 ⊆ text := by
  unfold signOf
  split_ifs
  · exact List.tail_subset text
  · exact List.tail_subset text
  · exact List.Subset.refl text

theorem dropWhile_congr {p q : Char → Bool} {text : List Char} (h : Agree p q text) :
    text.dropWhile p = text.dropWhile q := lstrip_congr h

section Congruence

variable {p q : Char → Bool} {digit : Char → ℕ} {text : List Char}

theorem exponentOf_congr (h : Agree p q text) : exponentOf p digit text = exponentOf q digit text := by
  have hbody : Agree p q (signOf text.tail).2 :=
    h.subset (List.Subset.trans (signOf_subset _) (List.tail_subset text))
  simp only [exponentOf, takeWhile_congr hbody, dropWhile_congr hbody]

theorem fractionOf_congr (h : Agree p q text) : fractionOf p text = fractionOf q text := by
  have htail : Agree p q text.tail := h.subset (List.tail_subset text)
  rw [fractionOf, fractionOf, takeWhile_congr htail, dropWhile_congr htail]

theorem fractionOf_subset (text : List Char) : (fractionOf q text).2 ⊆ text := by
  unfold fractionOf
  split_ifs
  · exact List.Subset.trans (List.dropWhile_subset q) (List.tail_subset text)
  · exact List.Subset.refl text

theorem numberOf_congr (h : Agree p q text) : numberOf p digit text = numberOf q digit text := by
  have hbody : Agree p q (signOf text).2 := h.subset (signOf_subset text)
  have hafter : Agree p q ((signOf text).2.dropWhile q) := hbody.subset (List.dropWhile_subset q)
  have hbehind := hafter.subset (@fractionOf_subset q _)
  simp only [numberOf, takeWhile_congr hbody, dropWhile_congr hbody, fractionOf_congr hafter,
    exponentOf_congr hbehind]

end Congruence

section Characters

variable {isDigit : Char → Bool} {digit : Char → ℕ} {c : Char}

/-- A character of a number: a digit, a sign, the point or the mark of an exponent. -/
def InNumber (isDigit : Char → Bool) (c : Char) : Prop :=
  isDigit c = true ∨ c ∈ ['+', '-', '.', 'e', 'E']

theorem eq_of_mem_head {text : List Char} {d : Char} (hhead : text.head? = some d) (h : c ∈ text) :
    c = d ∨ c ∈ text.tail := by
  cases text with
  | nil => exact absurd h List.not_mem_nil
  | cons e rest =>
    obtain rfl := Option.some.inj hhead
    exact List.mem_cons.mp h

theorem mem_signOf {text : List Char} (h : c ∈ text) : c ∈ (signOf text).2 ∨ InNumber isDigit c := by
  unfold signOf
  split_ifs with hminus hplus
  · rcases eq_of_mem_head hminus h with rfl | h
    · exact .inr (.inr (by decide))
    · exact .inl h
  · rcases eq_of_mem_head hplus h with rfl | h
    · exact .inr (.inr (by decide))
    · exact .inl h
  · exact .inl h

theorem mem_span {text : List Char} (h : c ∈ text) :
    c ∈ text.dropWhile isDigit ∨ InNumber isDigit c := by
  rw [← List.takeWhile_append_dropWhile (p := isDigit) (l := text), List.mem_append] at h
  rcases h with h | h
  · exact .inr (.inl (List.mem_takeWhile_imp h))
  · exact .inl h

theorem mem_fractionOf {text : List Char} (h : c ∈ text) :
    c ∈ (fractionOf isDigit text).2 ∨ InNumber isDigit c := by
  unfold fractionOf
  split_ifs with hpoint
  · rcases eq_of_mem_head hpoint h with rfl | h
    · exact .inr (.inr (by decide))
    · exact mem_span h
  · exact .inl h

theorem mem_exponentOf {text : List Char} (h : c ∈ text) :
    c ∈ (exponentOf isDigit digit text).2 ∨ InNumber isDigit c := by
  unfold exponentOf
  split_ifs with hmark
  · have htail : c ∈ text.tail ∨ InNumber isDigit c := by
      rcases hmark with hmark | hmark
      · rcases eq_of_mem_head hmark h with rfl | h
        · exact .inr (.inr (by decide))
        · exact .inl h
      · rcases eq_of_mem_head hmark h with rfl | h
        · exact .inr (.inr (by decide))
        · exact .inl h
    simp only
    by_cases hdigits : (signOf text.tail).2.takeWhile isDigit = []
    · rw [if_pos hdigits]
      exact .inl h
    · rw [if_neg hdigits]
      rcases htail with htail | hin
      · rcases mem_signOf htail with hbody | hin
        · exact mem_span hbody
        · exact .inr hin
      · exact .inr hin
  · exact .inl h

theorem mem_numberOf {text letters : List Char} {number : Number}
    (hnumber : numberOf isDigit digit text = some (number, letters)) (h : c ∈ text) :
    c ∈ letters ∨ InNumber isDigit c := by
  unfold numberOf at hnumber
  simp only at hnumber
  split_ifs at hnumber
  obtain ⟨-, rfl⟩ := Prod.mk.inj (Option.some.inj hnumber)
  rcases mem_signOf h with hbody | hin
  · rcases mem_span hbody with hafter | hin
    · rcases mem_fractionOf hafter with hbehind | hin
      · exact mem_exponentOf hbehind
      · exact .inr hin
    · exact .inr hin
  · exact .inr hin

end Characters

section Literals

variable {arithmetic : Arithmetic} {text : List Char} {literal : Literal}

theorem isLetterIgnoringCase_of_isLetter {c : Char} (h : isLetter c = true) :
    isLetterIgnoringCase c = true := by
  rw [isLetterIgnoringCase, Bool.or_eq_true]
  exact .inl h

theorem literalOf_eq_some {isDigit isLetter : Char → Bool} {digit : Char → ℕ} :
    literalOf isDigit digit isLetter text = some literal ↔
      numberOf isDigit digit text = some (literal.number, literal.letters) ∧
        literal.letters.all isLetter = true := by
  unfold literalOf
  cases numberOf isDigit digit text with
  | none => simp
  | some pair =>
    simp only [Option.some.injEq]
    constructor
    · intro h
      split_ifs at h with hall
      obtain rfl := Option.some.inj h
      exact ⟨rfl, hall⟩
    · rintro ⟨rfl, hall⟩
      rw [if_pos hall]

theorem literalOf_mono {isDigit isLetter isLetter' : Char → Bool} {digit : Char → ℕ}
    (hletters : ∀ c, isLetter c = true → isLetter' c = true)
    (h : literalOf isDigit digit isLetter text = some literal) :
    literalOf isDigit digit isLetter' text = some literal := by
  rw [literalOf_eq_some] at h ⊢
  refine ⟨h.1, List.all_eq_true.mpr fun c hc => hletters c (List.all_eq_true.mp h.2 c hc)⟩

theorem toNat_lt_of_isAlphanum {c : Char} (h : c.isAlphanum = true) : c.toNat < 128 := by
  rw [isAlphanum_iff] at h
  omega

theorem isAlphanum_of_isAlpha {c : Char} (h : c.isAlpha = true) : c.isAlphanum = true := by
  rw [Char.isAlphanum, h, Bool.true_or]

theorem isAlphanum_of_isDigit {c : Char} (h : c.isDigit = true) : c.isAlphanum = true := by
  rw [Char.isAlphanum, h, Bool.or_true]

theorem literalOf_ascii (h : literalOf Char.isDigit arithmetic.digit isLetterIgnoringCase text =
    some literal) :
    literalOf arithmetic.isDigit arithmetic.digit isLetterIgnoringCase text = some literal := by
  rw [literalOf_eq_some] at h ⊢
  refine ⟨?_, h.2⟩
  rw [← h.1]
  refine numberOf_congr fun c hc => ?_
  rcases mem_numberOf h.1 hc with hletter | hdigit | hmark
  · have hletter := List.all_eq_true.mp h.2 c hletter
    rw [isLetterIgnoringCase, Bool.or_eq_true, decide_eq_true_eq] at hletter
    rcases hletter with halpha | hforeign
    · exact arithmetic.ascii c (toNat_lt_of_isAlphanum (isAlphanum_of_isAlpha halpha))
    · rw [arithmetic.not_letter c hforeign]
      simp only [List.mem_cons, List.not_mem_nil, or_false] at hforeign
      rcases hforeign with rfl | rfl | rfl | rfl <;> rfl
  · exact arithmetic.ascii c (toNat_lt_of_isAlphanum (isAlphanum_of_isDigit hdigit))
  · simp only [List.mem_cons, List.not_mem_nil, or_false] at hmark
    refine arithmetic.ascii c ?_
    rcases hmark with rfl | rfl | rfl | rfl | rfl <;> decide

theorem isSpace_of_mem_literalOf (h : literalOf arithmetic.isDigit arithmetic.digit
    isLetterIgnoringCase text = some literal) {c : Char} (hc : c ∈ text) : isSpace c = false := by
  rw [literalOf_eq_some] at h
  rcases mem_numberOf h.1 hc with hletter | hdigit | hmark
  · have hletter := List.all_eq_true.mp h.2 c hletter
    rw [isLetterIgnoringCase, Bool.or_eq_true, decide_eq_true_eq] at hletter
    rcases hletter with halpha | hforeign
    · exact isSpace_eq_false_of_alnum (isAlphanum_of_isAlpha halpha)
    · simp only [List.mem_cons, List.not_mem_nil, or_false] at hforeign
      rcases hforeign with rfl | rfl | rfl | rfl <;> rfl
  · exact arithmetic.not_space c hdigit
  · simp only [List.mem_cons, List.not_mem_nil, or_false] at hmark
    rcases hmark with rfl | rfl | rfl | rfl | rfl <;> rfl

/-- Nothing is stripped of a literal, and nothing but a newline of one with a newline behind it. -/
theorem strip_literalOf (h : literalOf arithmetic.isDigit arithmetic.digit isLetterIgnoringCase
    text = some literal) : strip text = text ∧ strip (text ++ ['\n']) = text := by
  have hspace : ∀ c ∈ text, isSpace c = false := fun c hc => isSpace_of_mem_literalOf h hc
  have hstrip : strip text = text :=
    strip_eq_self (fun c hc => hspace c (List.mem_of_head? hc))
      fun c hc => hspace c (List.mem_of_getLast? hc)
  refine ⟨hstrip, ?_⟩
  have hnewline : rstrip isSpace (text ++ ['\n']) = rstrip isSpace text :=
    List.rdropWhile_concat_pos _ _ _ (by decide)
  have htrim : trim isSpace (text ++ ['\n']) = trim isSpace text := by
    rw [← lstrip_rstrip, hnewline, lstrip_rstrip]
  exact htrim.trans hstrip

end Literals

end OpenADA.Scalars
