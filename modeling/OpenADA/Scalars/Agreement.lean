import OpenADA.Scalars.Readers

/-! When the readers of SPICE numbers agree: on which texts, and on which of them a scalar of an
experiment is read back. -/
namespace OpenADA.Scalars

open PyText SpiceText

/-- No two readers split over the letters of a text. The letter `a` is an atto to blocks only, `mil`
is a thousandth to the deck inspection only, and the deck inspection reads letters of ASCII and
numbers that are finite floats before they are scaled. -/
structure SpelledApart (arithmetic : Arithmetic) (text : List Char) : Prop where
  atto : ∀ literal, literalOf Char.isDigit arithmetic.digit isLetterIgnoringCase
      (withoutNewline text) = some literal → startsAtto literal.letters = true →
    parameterAdmits arithmetic literal.number 1 = true →
    arithmetic.floatFinite literal.number attoScale = true →
    literal.number.value arithmetic.digit = 0
  mil : ∀ literal, literalOf arithmetic.isDigit arithmetic.digit isLetter text = some literal →
    startsMil literal.letters = true → arithmetic.floatFinite literal.number (1 / 1000) = true →
    (parameterAdmits arithmetic literal.number milScale = true ∨
      (literalOf Char.isDigit arithmetic.digit isLetterIgnoringCase text).isSome = true ∧
        arithmetic.floatFinite literal.number milScale = true ∨
      literal.letters.length = 3 ∧ scalarAdmits arithmetic literal.number milScale = true) →
    literal.number.value arithmetic.digit = 0
  back : ∀ literal scale, literalOf arithmetic.isDigit arithmetic.digit isLetterIgnoringCase text =
      some literal → scalarScale literal.letters = some scale →
    scalarAdmits arithmetic literal.number scale = true →
    literal.letters.all isLetter = true ∧ ∀ factor, deckScale literal.letters = some factor →
      arithmetic.floatFinite literal.number factor = true

section Readings

variable {arithmetic : Arithmetic} {text : List Char} {literal : Literal} {a b : Literal × ℚ}

theorem readWith_eq_some {found : Option Literal} {scale : List Char → Option ℚ}
    {admits : Number → ℚ → Bool} : readWith found scale admits = some a ↔
      found = some a.1 ∧ scale a.1.letters = some a.2 ∧ admits a.1.number a.2 = true := by
  unfold readWith
  constructor
  · intro h
    obtain ⟨literal, hfound, h⟩ := Option.bind_eq_some_iff.mp h
    obtain ⟨factor, hscale, h⟩ := Option.bind_eq_some_iff.mp h
    split_ifs at h with hadmits
    obtain rfl := Option.some.inj h
    exact ⟨hfound, hscale, hadmits⟩
  · intro h
    rw [h.1, Option.bind_eq_bind, Option.bind_some, h.2.1, Option.bind_eq_bind, Option.bind_some,
      if_pos h.2.2]

theorem blockReading_eq_some : blockReading arithmetic text = some a ↔
    literalOf Char.isDigit arithmetic.digit isLetterIgnoringCase (strip text) = some a.1 ∧
      some (blockScale a.1.letters) = some a.2 ∧ arithmetic.floatFinite a.1.number a.2 = true :=
  readWith_eq_some

/-- Only the letters `mil` themselves are read as a scalar. -/
theorem length_of_scalarScale {letters : List Char} {scale : ℚ} (hmil : startsMil letters = true)
    (h : scalarScale letters = some scale) : letters.length = 3 := by
  obtain ⟨c, d, e, rest, rfl, hc, hd, he⟩ := exists_of_isPrefixOf_three hmil
  have hsuffix : suffixOf (c :: d :: e :: rest) = [c, d, e] := by
    rw [suffixOf]
    simp only [List.map_cons, hc, hd, he]
    rfl
  rw [scalarScale] at h
  split_ifs at h with hwhole
  rw [← hwhole, hsuffix]
  rfl

theorem withoutNewline_cases (text : List Char) :
    text = withoutNewline text ∨ text = withoutNewline text ++ ['\n'] := by
  unfold withoutNewline
  split_ifs with hlast
  · obtain ⟨front, rfl⟩ := List.getLast?_eq_some_iff.mp hlast
    exact .inr (by rw [List.dropLast_concat])
  · exact .inl rfl

/-- The literal that stands before a newline at the end is what is left of the text without the
spaces at both ends. -/
theorem strip_eq_withoutNewline (h : literalOf arithmetic.isDigit arithmetic.digit
    isLetterIgnoringCase (withoutNewline text) = some literal) :
    strip text = withoutNewline text := by
  have hstrip := strip_literalOf h
  rcases withoutNewline_cases text with heq | heq
  · rw [← heq] at hstrip ⊢
    exact hstrip.1
  · rw [← heq] at hstrip
    exact hstrip.2

theorem withoutNewline_literalOf (h : literalOf arithmetic.isDigit arithmetic.digit
    isLetterIgnoringCase text = some literal) : withoutNewline text = text := by
  unfold withoutNewline
  split_ifs with hlast
  · have hspace := isSpace_of_mem_literalOf h (List.mem_of_getLast? hlast)
    exact absurd hspace (by decide)
  · rfl

theorem literalOf_ignoringCase (h : literalOf arithmetic.isDigit arithmetic.digit isLetter text =
    some literal) : literalOf arithmetic.isDigit arithmetic.digit isLetterIgnoringCase text =
      some literal :=
  literalOf_mono (fun _ hc => isLetterIgnoringCase_of_isLetter hc) h

def Reader.scale (reader : Reader) (letters : List Char) : Option ℚ :=
  match reader with
  | .parameter => parameterScale letters
  | .block => some (blockScale letters)
  | .scalar => scalarScale letters
  | .deck => deckScale letters

/-- Every reader takes the literal between the spaces at both ends, each with its own scale. -/
theorem Reader.read_literal {reader : Reader} (h : reader.read arithmetic text = some a) :
    literalOf arithmetic.isDigit arithmetic.digit isLetterIgnoringCase (strip text) = some a.1 ∧
      reader.scale a.1.letters = some a.2 := by
  cases reader with
  | parameter =>
    obtain ⟨hliteral, hscale, -⟩ := readWith_eq_some.mp h
    exact ⟨by rw [strip_eq_withoutNewline hliteral, hliteral], hscale⟩
  | block =>
    obtain ⟨hliteral, hscale, -⟩ := blockReading_eq_some.mp h
    exact ⟨literalOf_ascii hliteral, hscale⟩
  | scalar =>
    obtain ⟨hliteral, hscale, -⟩ := readWith_eq_some.mp h
    exact ⟨by rw [(strip_literalOf hliteral).1, hliteral], hscale⟩
  | deck =>
    obtain ⟨hliteral, hscale, -⟩ := readWith_eq_some.mp h
    have hloose := literalOf_ignoringCase hliteral
    exact ⟨by rw [(strip_literalOf hloose).1, hloose], hscale⟩

theorem Reader.read_same {first second : Reader} (ha : first.read arithmetic text = some a)
    (hb : second.read arithmetic text = some b) : a.1 = b.1 :=
  Option.some.inj ((Reader.read_literal ha).1.symm.trans (Reader.read_literal hb).1)

theorem quantity_eq (hliteral : a.1 = b.1)
    (h : a.2 = b.2 ∨ a.1.number.value arithmetic.digit = 0) :
    quantity arithmetic a = quantity arithmetic b := by
  rw [quantity, quantity, ← hliteral]
  rcases h with hscale | hzero
  · rw [hscale]
  · rw [hzero, zero_mul, zero_mul]

theorem scalar_agrees (ha : Reader.scalar.read arithmetic text = some a) :
    (∀ b, Reader.parameter.read arithmetic text = some b →
      quantity arithmetic a = quantity arithmetic b) ∧
    ∀ b, Reader.block.read arithmetic text = some b →
      quantity arithmetic a = quantity arithmetic b := by
  obtain ⟨hparameter, hatto⟩ := parameterScale_of_scalarScale (Reader.read_literal ha).2
  constructor
  · intro b hb
    have hsame := Reader.read_same ha hb
    have hscale : parameterScale b.1.letters = some b.2 := (Reader.read_literal hb).2
    rw [← hsame, hparameter] at hscale
    exact quantity_eq hsame (.inl (Option.some.inj hscale))
  · intro b hb
    have hsame := Reader.read_same ha hb
    have hscale : some (blockScale b.1.letters) = some b.2 := (Reader.read_literal hb).2
    rw [← hsame, blockScale_of_parameterScale hparameter hatto] at hscale
    exact quantity_eq hsame (.inl (Option.some.inj hscale))

theorem parameter_block_agree (h : SpelledApart arithmetic text)
    (ha : Reader.parameter.read arithmetic text = some a)
    (hb : Reader.block.read arithmetic text = some b) :
    quantity arithmetic a = quantity arithmetic b := by
  have hsame := Reader.read_same ha hb
  refine quantity_eq hsame ?_
  obtain ⟨hliteral, hparameter, hadmits⟩ := readWith_eq_some.mp ha
  obtain ⟨hblock, hscale, hfinite⟩ := blockReading_eq_some.mp hb
  by_cases hatto : startsAtto a.1.letters = true
  · right
    obtain ⟨hone, hattoScale⟩ := atto_scales hatto
    rw [strip_eq_withoutNewline hliteral] at hblock
    rw [← hsame] at hblock hscale hfinite
    rw [hparameter, Option.some_inj] at hone
    rw [hattoScale, Option.some_inj] at hscale
    rw [hone] at hadmits
    rw [← hscale] at hfinite
    exact h.atto a.1 hblock hatto hadmits hfinite
  · left
    rw [← hsame, blockScale_of_parameterScale hparameter (Bool.not_eq_true _ ▸ hatto)] at hscale
    exact Option.some.inj hscale

/-- The letters `mil` apart, the deck inspection reads what every other reader reads. -/
theorem deck_agrees_elsewhere (ha : Reader.deck.read arithmetic text = some a)
    (hmil : startsMil a.1.letters = false) {reader : Reader}
    (hb : reader.read arithmetic text = some b) :
    quantity arithmetic a = quantity arithmetic b := by
  have hsame := Reader.read_same ha hb
  refine quantity_eq hsame (.inl ?_)
  obtain ⟨hliteral, hdeck, -⟩ := readWith_eq_some.mp ha
  obtain ⟨hparameter, hatto⟩ :=
    parameterScale_of_deckScale (literalOf_eq_some.mp hliteral).2 hmil hdeck
  have hscale := (Reader.read_literal hb).2
  rw [← hsame] at hscale
  cases reader with
  | parameter => exact Option.some.inj (hparameter.symm.trans hscale)
  | block =>
    rw [Reader.scale, blockScale_of_parameterScale hparameter hatto] at hscale
    exact Option.some.inj hscale
  | scalar =>
    have hother := (parameterScale_of_scalarScale hscale).1
    exact Option.some.inj (hparameter.symm.trans hother)
  | deck => exact Option.some.inj (hdeck.symm.trans hscale)

theorem deck_agrees (h : SpelledApart arithmetic text)
    (ha : Reader.deck.read arithmetic text = some a) {reader : Reader} (hreader : reader ≠ .deck)
    (hb : reader.read arithmetic text = some b) : quantity arithmetic a =
      quantity arithmetic b := by
  by_cases hmil : startsMil a.1.letters = true
  · have hsame := Reader.read_same ha hb
    refine quantity_eq hsame (.inr ?_)
    obtain ⟨hliteral, hdeck, hfinite⟩ := readWith_eq_some.mp ha
    obtain ⟨hthousandth, hparameterMil, hblockMil, hscalarMil⟩ :=
      mil_scales (literalOf_eq_some.mp hliteral).2 hmil
    rw [hthousandth, Option.some_inj] at hdeck
    rw [← hdeck] at hfinite
    have hloose := literalOf_ignoringCase hliteral
    apply h.mil a.1 hliteral hmil hfinite
    cases reader with
    | parameter =>
      obtain ⟨-, hscale, hadmits⟩ := readWith_eq_some.mp hb
      rw [← hsame] at hscale hadmits
      rw [hparameterMil, Option.some_inj] at hscale
      rw [← hscale] at hadmits
      exact .inl hadmits
    | block =>
      obtain ⟨hblock, hscale, hadmits⟩ := blockReading_eq_some.mp hb
      rw [(strip_literalOf hloose).1] at hblock
      rw [← hsame] at hscale hadmits
      rw [hblockMil, Option.some_inj] at hscale
      rw [← hscale] at hadmits
      exact .inr (.inl ⟨by rw [hblock]; rfl, hadmits⟩)
    | scalar =>
      obtain ⟨-, hscale, hadmits⟩ := readWith_eq_some.mp hb
      rw [← hsame] at hscale hadmits
      have hlength : a.1.letters.length = 3 := length_of_scalarScale hmil hscale
      rw [hscalarMil hlength, Option.some_inj] at hscale
      rw [← hscale] at hadmits
      exact .inr (.inr ⟨hlength, hadmits⟩)
    | deck => exact absurd rfl hreader
  · exact deck_agrees_elsewhere ha (Bool.not_eq_true _ ▸ hmil) hb

theorem readers_agree (h : SpelledApart arithmetic text) (first second : Reader)
    (ha : first.read arithmetic text = some a) (hb : second.read arithmetic text = some b) :
    quantity arithmetic a = quantity arithmetic b := by
  by_cases hsame : first = second
  · subst hsame
    rw [Option.some.inj (ha.symm.trans hb)]
  by_cases hfirst : first = .deck
  · subst hfirst
    exact deck_agrees h ha (Ne.symm hsame) hb
  by_cases hsecond : second = .deck
  · subst hsecond
    exact (deck_agrees h hb hsame ha).symm
  cases first with
  | parameter =>
    cases second with
    | parameter => exact absurd rfl hsame
    | block => exact parameter_block_agree h ha hb
    | scalar => exact ((scalar_agrees hb).1 a ha).symm
    | deck => exact absurd rfl hsecond
  | block =>
    cases second with
    | parameter => exact (parameter_block_agree h hb ha).symm
    | block => exact absurd rfl hsame
    | scalar => exact ((scalar_agrees hb).2 a ha).symm
    | deck => exact absurd rfl hsecond
  | scalar =>
    cases second with
    | parameter => exact (scalar_agrees ha).1 b hb
    | block => exact (scalar_agrees ha).2 b hb
    | scalar => exact absurd rfl hsame
    | deck => exact absurd rfl hsecond
  | deck => exact absurd rfl hfirst

/-- A scalar that is spelled in letters of ASCII and stays a finite float is read back. -/
theorem scalar_read_back (h : SpelledApart arithmetic text)
    (ha : scalarReading arithmetic text = some a) :
    ∃ b, deckReading arithmetic text = some b ∧ quantity arithmetic b = quantity arithmetic a := by
  obtain ⟨hliteral, hscale, hadmits⟩ := readWith_eq_some.mp ha
  obtain ⟨hall, hfinite⟩ := h.back a.1 a.2 hliteral hscale hadmits
  have hascii : literalOf arithmetic.isDigit arithmetic.digit isLetter text = some a.1 :=
    literalOf_eq_some.mpr ⟨(literalOf_eq_some.mp hliteral).1, hall⟩
  have hdeck : ∃ factor, deckScale a.1.letters = some factor := by
    by_cases hmil : startsMil a.1.letters = true
    · exact ⟨_, (mil_scales hall hmil).1⟩
    · exact ⟨_, deckScale_of_scalarScale hall (Bool.not_eq_true _ ▸ hmil) hscale⟩
  obtain ⟨factor, hfactor⟩ := hdeck
  have hread : Reader.deck.read arithmetic text = some (a.1, factor) :=
    readWith_eq_some.mpr ⟨hascii, hfactor, hfinite factor hfactor⟩
  have hscalar : Reader.scalar.read arithmetic text = some a := ha
  exact ⟨(a.1, factor), hread, readers_agree h .deck .scalar hread hscalar⟩

end Readings

section Split

variable {arithmetic : Arithmetic} {text : List Char} {literal : Literal}

theorem eq_zero_of_scales {first second value : ℚ} (hne : first ≠ second)
    (h : value * first = value * second) : value = 0 := by
  rcases mul_eq_mul_left_iff.mp h with heq | hzero
  · exact absurd heq hne
  · exact hzero

theorem atto_of_readAlike (h : ReadAlike arithmetic text)
    (hliteral : literalOf Char.isDigit arithmetic.digit isLetterIgnoringCase (withoutNewline text) =
      some literal) (hatto : startsAtto literal.letters = true)
    (hadmits : parameterAdmits arithmetic literal.number 1 = true)
    (hfinite : arithmetic.floatFinite literal.number attoScale = true) :
    literal.number.value arithmetic.digit = 0 := by
  obtain ⟨hone, hscale⟩ := atto_scales hatto
  have hwide := literalOf_ascii hliteral
  have hparameter : Reader.parameter.read arithmetic text = some (literal, 1) :=
    readWith_eq_some.mpr ⟨hwide, hone, hadmits⟩
  have hblock : Reader.block.read arithmetic text = some (literal, attoScale) := by
    refine blockReading_eq_some.mpr ⟨?_, congrArg some hscale, hfinite⟩
    rw [strip_eq_withoutNewline hwide, hliteral]
  have hquantity := h.agree .parameter .block _ _ hparameter hblock
  exact eq_zero_of_scales (by norm_num [attoScale]) hquantity

/-- The deck inspection reads a thousandth, and another reader a thousandth of an inch. -/
theorem mil_of_readAlike (h : ReadAlike arithmetic text)
    (hliteral : literalOf arithmetic.isDigit arithmetic.digit isLetter text = some literal)
    (hmil : startsMil literal.letters = true)
    (hfinite : arithmetic.floatFinite literal.number (1 / 1000) = true)
    (hother : parameterAdmits arithmetic literal.number milScale = true ∨
      (literalOf Char.isDigit arithmetic.digit isLetterIgnoringCase text).isSome = true ∧
        arithmetic.floatFinite literal.number milScale = true ∨
      literal.letters.length = 3 ∧ scalarAdmits arithmetic literal.number milScale = true) :
    literal.number.value arithmetic.digit = 0 := by
  obtain ⟨hdeckScale, hparameterScale, hblockScale, hscalarScale⟩ :=
    mil_scales (literalOf_eq_some.mp hliteral).2 hmil
  have hloose := literalOf_ignoringCase hliteral
  have hdeck : Reader.deck.read arithmetic text = some (literal, 1 / 1000) :=
    readWith_eq_some.mpr ⟨hliteral, hdeckScale, hfinite⟩
  have hread : ∃ reader : Reader, reader.read arithmetic text = some (literal, milScale) := by
    rcases hother with hadmits | ⟨hascii, hadmits⟩ | ⟨hlength, hadmits⟩
    · refine ⟨.parameter, readWith_eq_some.mpr ⟨?_, hparameterScale, hadmits⟩⟩
      rw [withoutNewline_literalOf hloose, hloose]
    · refine ⟨.block, blockReading_eq_some.mpr ⟨?_, congrArg some hblockScale, hadmits⟩⟩
      obtain ⟨other, hother⟩ := Option.isSome_iff_exists.mp hascii
      rw [(strip_literalOf hloose).1, hother, ← hloose, literalOf_ascii hother]
    · exact ⟨.scalar, readWith_eq_some.mpr ⟨hloose, hscalarScale hlength, hadmits⟩⟩
  obtain ⟨reader, hread⟩ := hread
  have hquantity := h.agree .deck reader _ _ hdeck hread
  exact eq_zero_of_scales (by norm_num [milScale]) hquantity

/-- The deck inspection reads the letters of a scalar, and its number as a float. -/
theorem back_of_readAlike (h : ReadAlike arithmetic text) {scale : ℚ}
    (hliteral : literalOf arithmetic.isDigit arithmetic.digit isLetterIgnoringCase text =
      some literal) (hscale : scalarScale literal.letters = some scale)
    (hadmits : scalarAdmits arithmetic literal.number scale = true) :
    literal.letters.all isLetter = true ∧ ∀ factor, deckScale literal.letters = some factor →
      arithmetic.floatFinite literal.number factor = true := by
  have hscalar : scalarReading arithmetic text = some (literal, scale) :=
    readWith_eq_some.mpr ⟨hliteral, hscale, hadmits⟩
  obtain ⟨b, hb, -⟩ := h.back _ hscalar
  obtain ⟨hdeck, hdeckScale, hfinite⟩ := readWith_eq_some.mp hb
  have hsame : b.1 = literal :=
    Option.some.inj ((literalOf_ignoringCase hdeck).symm.trans hliteral)
  rw [hsame] at hdeck hdeckScale hfinite
  refine ⟨(literalOf_eq_some.mp hdeck).2, fun factor hfactor => ?_⟩
  rw [← Option.some.inj (hdeckScale.symm.trans hfactor)]
  exact hfinite

end Split

/-- The readers agree on a text, and a scalar of an experiment is read back, exactly where the
letters of the text and the range of its number set no two readings apart. -/
theorem readAlike_iff (arithmetic : Arithmetic) (text : List Char) :
    ReadAlike arithmetic text ↔ SpelledApart arithmetic text := by
  constructor
  · intro h
    exact
      { atto := fun _ hliteral hatto hadmits hfinite =>
          atto_of_readAlike h hliteral hatto hadmits hfinite
        mil := fun _ hliteral hmil hfinite hother =>
          mil_of_readAlike h hliteral hmil hfinite hother
        back := fun _ _ hliteral hscale hadmits => back_of_readAlike h hliteral hscale hadmits }
  · intro h
    exact
      { agree := fun first second _ _ ha hb => readers_agree h first second ha hb
        back := fun _ ha => scalar_read_back h ha }

theorem isDigit_foreign :
    ∀ c ∈ ['\u0130', '\u0131', '\u017f', '\u212a'], Char.isDigit c = false :=
  forall_chars (by decide)

def plainArithmetic : Arithmetic where
  isDigit := Char.isDigit
  digit c := c.toNat - 48
  ascii _ _ := rfl
  digit_ascii _ _ := rfl
  not_space _ h := isSpace_eq_false_of_alnum (isAlphanum_of_isDigit h)
  not_letter := isDigit_foreign
  decimalReads _ := true
  productFits _ _ := true
  floatFinite _ _ := true

/-- A thousandth of an inch in a device card and in the sweep that the validator accepts, a
thousandth when the sweep is read back; and an ampere in a device card, an atto in a block. -/
theorem oneMil_split :
    (parameterReading plainArithmetic "1mil".toList).map (quantity plainArithmetic) =
      some (254 / 10000000) ∧
    (scalarReading plainArithmetic "1mil".toList).map (quantity plainArithmetic) =
      some (254 / 10000000) ∧
    (deckReading plainArithmetic "1mil".toList).map (quantity plainArithmetic) = some (1 / 1000) ∧
    (parameterReading plainArithmetic "1A".toList).map (quantity plainArithmetic) = some 1 ∧
    (blockReading plainArithmetic "1A".toList).map (quantity plainArithmetic) =
      some (1 / 1000000000000000000) ∧
    ¬ ReadAlike plainArithmetic "1mil".toList := by
  have hscalar : (scalarReading plainArithmetic "1mil".toList).map (quantity plainArithmetic) =
      some (254 / 10000000) := by decide +kernel
  have hdeck : (deckReading plainArithmetic "1mil".toList).map (quantity plainArithmetic) =
      some (1 / 1000) := by decide +kernel
  refine ⟨by decide +kernel, hscalar, hdeck, by decide +kernel, by decide +kernel, fun h => ?_⟩
  obtain ⟨a, ha, hquantity⟩ := Option.map_eq_some_iff.mp hscalar
  obtain ⟨b, hb, hback⟩ := h.back a ha
  rw [hb, Option.map_some, Option.some_inj, hback, hquantity] at hdeck
  norm_num at hdeck

end OpenADA.Scalars
