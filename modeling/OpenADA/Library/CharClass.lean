import OpenADA.Library.PyText

/-! The classes of characters that a regular expression knows, as far as a program relies on them. -/
namespace PyText

/-- The characters `\w` matches: those of ASCII, and no space. -/
structure WordClass where
  isWord : Char → Bool
  ascii : ∀ c, (c.isAlphanum || c = '_') = true → isWord c = true
  space : ∀ c, isSpace c = true → isWord c = false

/-- The characters `\d` matches: the digits of ASCII and those of other scripts, and no space. -/
structure DigitClass where
  isDigit : Char → Bool
  ascii : ∀ c, c.isDigit = true → isDigit c = true
  space : ∀ c, isSpace c = true → isDigit c = false

theorem forall_chars {text : List Char} {p : Char → Prop} [DecidablePred p]
    (h : text.all (fun c => decide (p c)) = true) : ∀ c ∈ text, p c :=
  fun c hc => of_decide_eq_true (List.all_eq_true.mp h c hc)

theorem isAlphanum_iff (c : Char) : c.isAlphanum = true ↔ (65 ≤ c.toNat ∧ c.toNat ≤ 90) ∨
    (97 ≤ c.toNat ∧ c.toNat ≤ 122) ∨ (48 ≤ c.toNat ∧ c.toNat ≤ 57) := by
  delta Char.isAlphanum Char.isAlpha Char.isUpper Char.isLower Char.isDigit
  simp [UInt32.le_iff_toNat_le, or_assoc]

theorem isSpace_eq_false_of_alnum {c : Char} (h : c.isAlphanum = true) : isSpace c = false := by
  by_contra hspace
  rw [Bool.not_eq_false] at hspace
  rw [isAlphanum_iff] at h
  simp only [isSpace, Bool.or_eq_true, Bool.and_eq_true, decide_eq_true_eq] at hspace
  omega

def asciiWords : WordClass where
  isWord c := c.isAlphanum || c = '_'
  ascii _ h := h
  space c hc := by
    rw [Bool.or_eq_false_iff, decide_eq_false_iff_not]
    constructor
    · by_contra halnum
      rw [Bool.not_eq_false] at halnum
      rw [isSpace_eq_false_of_alnum halnum] at hc
      cases hc
    · rintro rfl
      revert hc
      decide

def asciiDigits : DigitClass where
  isDigit := Char.isDigit
  ascii _ h := h
  space c hc := by
    by_contra hdigit
    rw [Bool.not_eq_false] at hdigit
    rw [isSpace_eq_false_of_alnum (by rw [Char.isAlphanum, hdigit, Bool.or_true])] at hc
    cases hc

/-- `int` of a digit. -/
def asciiDigitValue (c : Char) : ℕ := c.toNat - 48

end PyText
