import OpenADA.Scalars.Literal

/-! The four readers of SPICE numbers: of bound device parameters, of the headers of behavioral
blocks, of the scalars of an experiment, and of the analysis lines of a deck. Their values are
exact; what a number type rounds is left out. -/
namespace OpenADA.Scalars

open PyText SpiceText

def looseLetter (c : Char) : Char :=
  if c = '\u212a' then 'k'
  else if c = '\u0130' ∨ c = '\u0131' then 'i'
  else if c = '\u017f' then 's'
  else c.toLower

/-- `str.lower` of a letter. -/
def lowerLetter (c : Char) : List Char :=
  if c = '\u212a' then ['k'] else if c = '\u0130' then ['i', '\u0307'] else [c.toLower]

/-- `str.casefold` of a letter. -/
def casefoldLetter (c : Char) : List Char := if c = '\u017f' then ['s'] else lowerLetter c

/-- What `(meg|mil|[tgkmunpf])?` matches of the letters behind a number. -/
def suffixOf (letters : List Char) : List Char :=
  let loose := letters.map looseLetter
  if "meg".toList.isPrefixOf loose then letters.take 3
  else if "mil".toList.isPrefixOf loose then letters.take 3
  else if loose.head?.any fun c => decide (c ∈ "tgkmunpf".toList) then letters.take 1
  else []

/-- `_SPICE_SCALE`, the table of the parameters and of the experiments. -/
def spiceScale : List (List Char × ℚ) :=
  [([], 1), (['t'], 1000000000000), (['g'], 1000000000), (['m', 'e', 'g'], 1000000), (['k'], 1000),
    (['m', 'i', 'l'], 254 / 10000000), (['m'], 1 / 1000), (['u'], 1 / 1000000),
    (['n'], 1 / 1000000000), (['p'], 1 / 1000000000000), (['f'], 1 / 1000000000000000)]

/-- `_SPICE_SCALE_FACTORS` of the block library. -/
def spiceScaleFactors : List (List Char × ℚ) :=
  [(['m', 'e', 'g'], 1000000), (['m', 'i', 'l'], 254 / 10000000), (['t'], 1000000000000),
    (['g'], 1000000000), (['k'], 1000), (['m'], 1 / 1000), (['u'], 1 / 1000000),
    (['n'], 1 / 1000000000), (['p'], 1 / 1000000000000), (['f'], 1 / 1000000000000000),
    (['a'], 1 / 1000000000000000000)]

/-- The candidates of the deck inspection in their order, with their `_SPICE_SUFFIXES`. -/
def spiceSuffixes : List (List Char × ℚ) :=
  [(['m', 'e', 'g'], 1000000), (['t'], 1000000000000), (['g'], 1000000000), (['k'], 1000),
    (['m'], 1 / 1000), (['u'], 1 / 1000000), (['n'], 1 / 1000000000), (['p'], 1 / 1000000000000),
    (['f'], 1 / 1000000000000000)]

def firstFactor (factors : List (List Char × ℚ)) (text : List Char) : Option ℚ :=
  (factors.find? fun factor => factor.1.isPrefixOf text).map Prod.snd

/-- The scale that the letters of a bound parameter denote; none is the KeyError of the table. -/
def parameterScale (letters : List Char) : Option ℚ :=
  spiceScale.lookup ((suffixOf letters).flatMap lowerLetter)

def blockScale (letters : List Char) : ℚ :=
  (firstFactor spiceScaleFactors (letters.flatMap lowerLetter)).getD 1

def scalarScale (letters : List Char) : Option ℚ :=
  if suffixOf letters = letters then spiceScale.lookup (letters.flatMap casefoldLetter) else none

def deckScale (letters : List Char) : Option ℚ :=
  let suffix := letters.flatMap casefoldLetter
  match firstFactor spiceSuffixes suffix with
  | some factor => some factor
  | none => if suffix = [] ∨ suffix = ['s'] then some 1 else none

def maxScalarSignificantDigits : ℕ := 128

def maxScalarAdjustedExponent : ℤ := 300

section Letters

theorem lowerLetter_of_loose {c p : Char} (h : looseLetter c = p) (hi : p ≠ 'i') (hs : p ≠ 's') :
    lowerLetter c = [p] := by
  unfold looseLetter at h
  unfold lowerLetter
  by_cases hk : c = '\u212a'
  · rw [if_pos hk] at h ⊢
    rw [h]
  rw [if_neg hk] at h ⊢
  by_cases hdot : c = '\u0130' ∨ c = '\u0131'
  · rw [if_pos hdot] at h
    exact absurd h.symm hi
  rw [if_neg hdot] at h
  by_cases hlong : c = '\u017f'
  · rw [if_pos hlong] at h
    exact absurd h.symm hs
  rw [if_neg hlong] at h
  rw [if_neg (fun h => hdot (.inl h)), h]

theorem casefoldLetter_eq {c : Char} (h : looseLetter c ≠ 's') : casefoldLetter c = lowerLetter c := by
  rw [casefoldLetter, if_neg]
  rintro rfl
  exact h rfl

theorem looseLetter_of_isLetter {c : Char} (h : isLetter c = true) :
    looseLetter c = c.toLower ∧ lowerLetter c = [c.toLower] ∧ casefoldLetter c = [c.toLower] := by
  have hne : c ≠ '\u212a' ∧ c ≠ '\u0130' ∧ c ≠ '\u0131' ∧ c ≠ '\u017f' := by
    refine ⟨?_, ?_, ?_, ?_⟩ <;>
    · rintro rfl
      revert h
      decide
  refine ⟨?_, ?_, ?_⟩
  · rw [looseLetter, if_neg hne.1, if_neg (not_or.mpr ⟨hne.2.1, hne.2.2.1⟩), if_neg hne.2.2.2]
  · rw [lowerLetter, if_neg hne.1, if_neg hne.2.1]
  · rw [casefoldLetter, if_neg hne.2.2.2, lowerLetter, if_neg hne.1, if_neg hne.2.1]

def IsLower (c : Char) : Prop := c ∈ "abcdefghijklmnopqrstuvwxyz".toList

instance decidableIsLower : DecidablePred IsLower := fun c =>
  inferInstanceAs (Decidable (c ∈ "abcdefghijklmnopqrstuvwxyz".toList))

/-- What a text in lower case starts with, the text starts with where the case is ignored. -/
theorem loose_of_prefix_lower {word letters : List Char} (hword : ∀ c ∈ word, IsLower c)
    (h : word.isPrefixOf (letters.flatMap lowerLetter) = true) :
    word.isPrefixOf (letters.map looseLetter) = true := by
  induction word generalizing letters with
  | nil => rfl
  | cons p word ih =>
    cases letters with
    | nil => exact absurd h (by simp)
    | cons c rest =>
      have hp := hword p (List.mem_cons_self ..)
      have hrest : ∀ d ∈ word, IsLower d := fun d hd => hword d (List.mem_cons_of_mem _ hd)
      rw [List.flatMap_cons] at h
      rw [List.map_cons]
      by_cases hdotted : c = '\u0130'
      · subst hdotted
        have hlower : lowerLetter '\u0130' = ['i', '\u0307'] := by decide
        rw [hlower] at h
        cases word with
        | nil => simpa [looseLetter] using h
        | cons q word =>
          have hq := hrest q (List.mem_cons_self ..)
          simp only [List.cons_append, List.isPrefixOf_cons_cons, Bool.and_eq_true, beq_iff_eq] at h
          rw [h.2.1] at hq
          exact absurd hq (by decide)
      · have hlower : ∃ x, lowerLetter c = [x] ∧ (IsLower x → looseLetter c = x) := by
          unfold lowerLetter looseLetter
          split_ifs with hk hdot hlong
          · exact ⟨'k', rfl, fun _ => rfl⟩
          · obtain rfl := hdot.resolve_left hdotted
            exact ⟨_, rfl, fun h => absurd h (by decide)⟩
          · subst hlong
            exact ⟨_, rfl, fun h => absurd h (by decide)⟩
          · exact ⟨_, rfl, fun _ => rfl⟩
        obtain ⟨x, hx, hloose⟩ := hlower
        rw [hx] at h
        simp only [List.cons_append, List.nil_append, List.isPrefixOf_cons_cons, Bool.and_eq_true,
          beq_iff_eq] at h ⊢
        exact ⟨by rw [hloose (h.1 ▸ hp), h.1], ih hrest h.2⟩

/-- The letters behind a number start with `mil` or with `a`, in any case. -/
def startsMil (letters : List Char) : Bool := ['m', 'i', 'l'].isPrefixOf (letters.map looseLetter)

def startsAtto (letters : List Char) : Bool := decide ((letters.map looseLetter).head? = some 'a')

def suffixHeads : List Char := ['t', 'g', 'k', 'm', 'u', 'n', 'p', 'f']

inductive SuffixCase (letters : List Char) : Prop where
  | meg (c d e : Char) (rest : List Char) (heq : letters = c :: d :: e :: rest)
      (hc : looseLetter c = 'm') (hd : looseLetter d = 'e') (he : looseLetter e = 'g')
      (hsuffix : suffixOf letters = [c, d, e])
  | mil (c d e : Char) (rest : List Char) (heq : letters = c :: d :: e :: rest)
      (hc : looseLetter c = 'm') (hd : looseLetter d = 'i') (he : looseLetter e = 'l')
      (hsuffix : suffixOf letters = [c, d, e])
  | one (c : Char) (rest : List Char) (heq : letters = c :: rest)
      (hc : looseLetter c ∈ suffixHeads)
      (hmeg : ['m', 'e', 'g'].isPrefixOf (letters.map looseLetter) = false)
      (hmil : startsMil letters = false) (hsuffix : suffixOf letters = [c])
  | none (hnone : ∀ c ∈ (letters.map looseLetter).head?,
        c ∉ suffixHeads)
      (hmil : startsMil letters = false) (hsuffix : suffixOf letters = [])

theorem exists_of_isPrefixOf_three {x y z : Char} {letters : List Char}
    (h : [x, y, z].isPrefixOf (letters.map looseLetter) = true) : ∃ c d e rest,
      letters = c :: d :: e :: rest ∧ looseLetter c = x ∧ looseLetter d = y ∧ looseLetter e = z := by
  match letters, h with
  | c :: d :: e :: rest, h =>
    simp only [List.map_cons, List.isPrefixOf_cons_cons, Bool.and_eq_true, beq_iff_eq] at h
    exact ⟨c, d, e, rest, rfl, h.1.symm, h.2.1.symm, h.2.2.1.symm⟩
  | [], h => simp at h
  | [_], h => simp at h
  | [_, _], h => simp at h

theorem suffixCase (letters : List Char) : SuffixCase letters := by
  by_cases hmeg : ['m', 'e', 'g'].isPrefixOf (letters.map looseLetter) = true
  · obtain ⟨c, d, e, rest, rfl, hc, hd, he⟩ := exists_of_isPrefixOf_three hmeg
    exact .meg c d e rest rfl hc hd he (if_pos hmeg)
  by_cases hmil : startsMil letters = true
  · obtain ⟨c, d, e, rest, rfl, hc, hd, he⟩ := exists_of_isPrefixOf_three hmil
    exact .mil c d e rest rfl hc hd he ((if_neg hmeg).trans (if_pos hmil))
  have hsuffix : suffixOf letters = if (letters.map looseLetter).head?.any fun c =>
      decide (c ∈ "tgkmunpf".toList) then letters.take 1 else [] := (if_neg hmeg).trans (if_neg hmil)
  rw [Bool.not_eq_true] at hmeg hmil
  have hset : "tgkmunpf".toList = suffixHeads := by decide
  rw [hset] at hsuffix
  cases letters with
  | nil => exact .none (by simp) hmil hsuffix
  | cons c rest =>
    simp only [List.map_cons, List.head?_cons, Option.any_some, decide_eq_true_eq] at hsuffix
    by_cases hc : looseLetter c ∈ suffixHeads
    · rw [if_pos hc] at hsuffix
      exact .one c rest rfl hc hmeg hmil hsuffix
    · rw [if_neg hc] at hsuffix
      refine .none ?_ hmil hsuffix
      intro d hd
      rw [List.map_cons, List.head?_cons, Option.mem_some_iff] at hd
      exact hd ▸ hc

/-- A factor that no text in lower case starts with, because no letter of its starts with the same
letter. -/
theorem not_prefix_lower {p : Char} {word letters : List Char}
    (hword : ∀ c ∈ p :: word, IsLower c) (h : (letters.map looseLetter).head? ≠ some p) :
    (p :: word).isPrefixOf (letters.flatMap lowerLetter) = false := by
  by_contra hprefix
  have hloose := loose_of_prefix_lower hword (Bool.not_eq_false _ ▸ hprefix)
  cases hletters : letters.map looseLetter with
  | nil =>
    rw [hletters] at hloose
    cases hloose
  | cons q rest =>
    rw [hletters] at h hloose
    rw [List.isPrefixOf_cons_cons, Bool.and_eq_true, beq_iff_eq] at hloose
    exact h (congrArg some hloose.1.symm)

theorem lower_of_loose_i {d : Char} (h : looseLetter d = 'i') :
    lowerLetter d = ['i'] ∨ lowerLetter d = ['i', '\u0307'] ∨ lowerLetter d = ['\u0131'] := by
  unfold looseLetter at h
  unfold lowerLetter
  split_ifs at h with hk hdot hlong
  · exact absurd h (by decide)
  · rw [if_neg hk]
    rcases hdot with rfl | rfl
    · exact .inr (.inl rfl)
    · exact .inr (.inr rfl)
  · exact absurd h (by decide)
  · rw [if_neg hk, if_neg fun hdotted => hdot (.inl hdotted), h]
    exact .inl rfl

theorem lower_of_head {c : Char} (hc : looseLetter c ∈ suffixHeads) :
    lowerLetter c = [looseLetter c] := by
  refine lowerLetter_of_loose rfl ?_ ?_ <;>
  · intro h
    rw [h] at hc
    revert hc
    decide

theorem lower_of_one {letters rest : List Char} {c : Char} (heq : letters = c :: rest)
    (hc : looseLetter c ∈ suffixHeads)
    (hmeg : ['m', 'e', 'g'].isPrefixOf (letters.map looseLetter) = false)
    (hmil : startsMil letters = false) :
    ∃ more, letters.flatMap lowerLetter = looseLetter c :: more ∧
      ['m', 'e', 'g'].isPrefixOf (looseLetter c :: more) = false ∧
      ['m', 'i', 'l'].isPrefixOf (looseLetter c :: more) = false := by
  have hlower : letters.flatMap lowerLetter = looseLetter c :: rest.flatMap lowerLetter := by
    rw [heq, List.flatMap_cons, lower_of_head hc, List.singleton_append]
  refine ⟨_, hlower, ?_, ?_⟩
  · rw [← hlower]
    by_contra hprefix
    rw [loose_of_prefix_lower (forall_chars (by decide)) (Bool.not_eq_false _ ▸ hprefix)] at hmeg
    cases hmeg
  · rw [← hlower]
    by_contra hprefix
    rw [startsMil, loose_of_prefix_lower (forall_chars (by decide))
      (Bool.not_eq_false _ ▸ hprefix)] at hmil
    cases hmil

theorem firstFactor_eq_none {factors : List (List Char × ℚ)} {letters : List Char}
    (hlower : factors.all fun factor => decide (factor.1 ≠ []) && factor.1.all fun c =>
      decide (IsLower c))
    (hheads : ∀ factor ∈ factors, ∀ p ∈ factor.1.head?, (letters.map looseLetter).head? ≠ some p) :
    firstFactor factors (letters.flatMap lowerLetter) = none := by
  rw [firstFactor, Option.map_eq_none_iff, List.find?_eq_none]
  intro factor hfactor
  have hword := List.all_eq_true.mp hlower factor hfactor
  rw [Bool.and_eq_true, decide_eq_true_eq, List.all_eq_true] at hword
  obtain ⟨p, word, hcons⟩ := List.exists_cons_of_ne_nil hword.1
  have hhead := hheads factor hfactor p (by rw [hcons]; rfl)
  rw [hcons] at hword ⊢
  rw [not_prefix_lower (fun c hc => of_decide_eq_true (hword.2 c hc)) hhead]
  exact Bool.false_ne_true

def milScale : ℚ := 254 / 10000000

def attoScale : ℚ := 1 / 1000000000000000000

/-- The two readers of parameters and blocks agree on the letters, apart from `a`. -/
theorem blockScale_of_parameterScale {letters : List Char} {scale : ℚ}
    (h : parameterScale letters = some scale) (hatto : startsAtto letters = false) :
    blockScale letters = scale := by
  cases suffixCase letters with
  | meg c d e rest heq hc hd he hsuffix =>
    have hc' := lowerLetter_of_loose hc (by decide) (by decide)
    have hd' := lowerLetter_of_loose hd (by decide) (by decide)
    have he' := lowerLetter_of_loose he (by decide) (by decide)
    rw [parameterScale, hsuffix] at h
    simp only [List.flatMap_cons, List.flatMap_nil, hc', hd', he'] at h
    rw [blockScale, heq]
    simp only [List.flatMap_cons, hc', hd', he']
    rw [← Option.some_inj, ← h]
    rfl
  | mil c d e rest heq hc hd he hsuffix =>
    have hc' := lowerLetter_of_loose hc (by decide) (by decide)
    have he' := lowerLetter_of_loose he (by decide) (by decide)
    rw [parameterScale, hsuffix] at h
    rcases lower_of_loose_i hd with hd' | hd' | hd'
    · simp only [List.flatMap_cons, List.flatMap_nil, hc', hd', he'] at h
      rw [blockScale, heq]
      simp only [List.flatMap_cons, hc', hd', he']
      rw [← Option.some_inj, ← h]
      rfl
    · simp only [List.flatMap_cons, List.flatMap_nil, hc', hd', he'] at h
      cases h
    · simp only [List.flatMap_cons, List.flatMap_nil, hc', hd', he'] at h
      cases h
  | one c rest heq hc hmeg hmil hsuffix =>
    obtain ⟨more, hlower, hmeg', hmil'⟩ := lower_of_one heq hc hmeg hmil
    rw [parameterScale, hsuffix, List.flatMap_singleton, lower_of_head hc] at h
    rw [blockScale, hlower, ← Option.some_inj, ← h]
    generalize looseLetter c = p at hc hmeg' hmil'
    simp only [suffixHeads, List.mem_cons, List.not_mem_nil, or_false] at hc
    rcases hc with rfl | rfl | rfl | rfl | rfl | rfl | rfl | rfl
    · rfl
    · rfl
    · rfl
    · simp only [firstFactor, spiceScaleFactors, List.find?_cons, hmeg', hmil']
      rfl
    · rfl
    · rfl
    · rfl
    · rfl
  | none hnone hmil hsuffix =>
    have hfirst : firstFactor spiceScaleFactors (letters.flatMap lowerLetter) = none := by
      refine firstFactor_eq_none (by decide) fun factor hfactor p hp hhead => ?_
      have hheads : p ∈ suffixHeads ∨ p = 'a' := by
        simp only [spiceScaleFactors, List.mem_cons, List.not_mem_nil, or_false] at hfactor
        rcases hfactor with rfl | rfl | rfl | rfl | rfl | rfl | rfl | rfl | rfl | rfl | rfl <;>
          obtain rfl := Option.some.inj hp <;> decide
      rcases hheads with hheads | rfl
      · exact hnone p hhead hheads
      · exact absurd (decide_eq_true hhead) (by rw [← startsAtto, hatto]; exact Bool.false_ne_true)
    rw [parameterScale, hsuffix] at h
    rw [blockScale, hfirst, Option.getD_none]
    exact Option.some.inj h

theorem atto_scales {letters : List Char} (h : startsAtto letters = true) :
    parameterScale letters = some 1 ∧ blockScale letters = attoScale := by
  rw [startsAtto, decide_eq_true_eq] at h
  cases letters with
  | nil => cases h
  | cons c rest =>
    rw [List.map_cons, List.head?_cons, Option.some.injEq] at h
    have hlower := lowerLetter_of_loose h (by decide) (by decide)
    constructor
    · cases suffixCase (c :: rest) with
      | meg c' d e rest' heq hc hd he hsuffix =>
        obtain ⟨rfl, -⟩ := List.cons.inj heq
        rw [h] at hc
        exact absurd hc (by decide)
      | mil c' d e rest' heq hc hd he hsuffix =>
        obtain ⟨rfl, -⟩ := List.cons.inj heq
        rw [h] at hc
        exact absurd hc (by decide)
      | one c' rest' heq hc hmeg hmil hsuffix =>
        obtain ⟨rfl, -⟩ := List.cons.inj heq
        rw [h] at hc
        exact absurd hc (by decide)
      | none hnone hmil hsuffix =>
        rw [parameterScale, hsuffix]
        rfl
    · rw [blockScale, List.flatMap_cons, hlower]
      rfl

theorem casefold_of_all {letters : List Char} (h : letters.all isLetter = true) :
    letters.flatMap casefoldLetter = letters.flatMap lowerLetter := by
  induction letters with
  | nil => rfl
  | cons c rest ih =>
    rw [List.all_cons, Bool.and_eq_true] at h
    obtain ⟨-, hlower, hfold⟩ := looseLetter_of_isLetter h.1
    rw [List.flatMap_cons, List.flatMap_cons, hlower, hfold, ih h.2]

/-- The letters `mil` are a thousandth of an inch to three readers, and a thousandth to the deck
inspection. -/
theorem mil_scales {letters : List Char} (hall : letters.all isLetter = true)
    (h : startsMil letters = true) : deckScale letters = some (1 / 1000) ∧
      parameterScale letters = some milScale ∧ blockScale letters = milScale ∧
        (letters.length = 3 → scalarScale letters = some milScale) := by
  obtain ⟨c, d, e, rest, rfl, hc, hd, he⟩ := exists_of_isPrefixOf_three h
  have hsuffix : suffixOf (c :: d :: e :: rest) = [c, d, e] := by
    rw [suffixOf]
    simp only [List.map_cons, hc, hd, he]
    rfl
  have hfold := casefold_of_all hall
  simp only [List.all_cons, Bool.and_eq_true] at hall
  have hc' := looseLetter_of_isLetter hall.1
  have hd' := looseLetter_of_isLetter hall.2.1
  have he' := looseLetter_of_isLetter hall.2.2.1
  rw [hc'.1] at hc
  rw [hd'.1] at hd
  rw [he'.1] at he
  have hlower (more : List Char) : (c :: d :: e :: more).flatMap lowerLetter =
      'm' :: 'i' :: 'l' :: more.flatMap lowerLetter := by
    rw [List.flatMap_cons, List.flatMap_cons, List.flatMap_cons, hc'.2.1, hd'.2.1, he'.2.1, hc, hd,
      he]
    rfl
  refine ⟨?_, ?_, ?_, fun hlength => ?_⟩
  · rw [deckScale, hfold, hlower]
    rfl
  · rw [parameterScale, hsuffix, hlower]
    rfl
  · rw [blockScale, hlower]
    rfl
  · obtain rfl : rest = [] := List.length_eq_zero_iff.mp (by simpa using hlength)
    rw [scalarScale, if_pos hsuffix, hfold, hlower]
    rfl

theorem parameterScale_of_deckScale {letters : List Char} {scale : ℚ}
    (hall : letters.all isLetter = true) (hmil : startsMil letters = false)
    (h : deckScale letters = some scale) :
    parameterScale letters = some scale ∧ startsAtto letters = false := by
  have hfold := casefold_of_all hall
  rw [deckScale, hfold] at h
  cases suffixCase letters with
  | meg c d e rest heq hc hd he hsuffix =>
    have hc' := lowerLetter_of_loose hc (by decide) (by decide)
    have hd' := lowerLetter_of_loose hd (by decide) (by decide)
    have he' := lowerLetter_of_loose he (by decide) (by decide)
    rw [heq] at h
    simp only [List.flatMap_cons, hc', hd', he'] at h
    constructor
    · rw [parameterScale, hsuffix, ← h]
      simp only [List.flatMap_cons, List.flatMap_nil, hc', hd', he']
      rfl
    · rw [startsAtto, heq, List.map_cons, hc]
      rfl
  | mil c d e rest heq hc hd he hsuffix =>
    rw [startsMil, heq, List.map_cons, List.map_cons, List.map_cons, hc, hd, he] at hmil
    cases hmil
  | one c rest heq hc hmeg hmil hsuffix =>
    obtain ⟨more, hlower, hmeg', hmil'⟩ := lower_of_one heq hc hmeg hmil
    rw [parameterScale, hsuffix, List.flatMap_singleton, lower_of_head hc, ← h, hlower, startsAtto,
      heq, List.map_cons, List.head?_cons]
    generalize looseLetter c = p at hc hmeg'
    simp only [suffixHeads, List.mem_cons, List.not_mem_nil, or_false] at hc
    rcases hc with rfl | rfl | rfl | rfl | rfl | rfl | rfl | rfl
    · exact ⟨rfl, rfl⟩
    · exact ⟨rfl, rfl⟩
    · exact ⟨rfl, rfl⟩
    · simp only [firstFactor, spiceSuffixes, List.find?_cons, hmeg']
      exact ⟨rfl, rfl⟩
    · exact ⟨rfl, rfl⟩
    · exact ⟨rfl, rfl⟩
    · exact ⟨rfl, rfl⟩
    · exact ⟨rfl, rfl⟩
  | none hnone hmil' hsuffix =>
    have hfirst : firstFactor spiceSuffixes (letters.flatMap lowerLetter) = none := by
      refine firstFactor_eq_none (by decide) fun factor hfactor p hp hhead => ?_
      refine hnone p hhead ?_
      simp only [spiceSuffixes, List.mem_cons, List.not_mem_nil, or_false] at hfactor
      rcases hfactor with rfl | rfl | rfl | rfl | rfl | rfl | rfl | rfl | rfl <;>
        obtain rfl := Option.some.inj hp <;> decide
    simp only [hfirst] at h
    split_ifs at h with hempty
    obtain rfl := Option.some.inj h
    refine ⟨by rw [parameterScale, hsuffix]; rfl, ?_⟩
    cases letters with
    | nil => rfl
    | cons c rest =>
      rw [List.all_cons, Bool.and_eq_true] at hall
      obtain ⟨hloose, hlower, -⟩ := looseLetter_of_isLetter hall.1
      rw [List.flatMap_cons, hlower] at hempty
      rcases hempty with hempty | hempty
      · cases hempty
      · rw [startsAtto, List.map_cons, List.head?_cons, hloose, (List.cons.inj hempty).1]
        rfl

theorem parameterScale_of_scalarScale {letters : List Char} {scale : ℚ}
    (h : scalarScale letters = some scale) :
    parameterScale letters = some scale ∧ startsAtto letters = false := by
  rw [scalarScale] at h
  split_ifs at h with hsuffix
  have hsafe : (∀ c ∈ letters, looseLetter c ≠ 's') ∧ startsAtto letters = false := by
    cases suffixCase letters with
    | meg c d e rest heq hc hd he hsuffix' =>
      rw [← hsuffix, hsuffix']
      refine ⟨fun x hx => ?_, by rw [startsAtto, List.map_cons, hc]; rfl⟩
      simp only [List.mem_cons, List.not_mem_nil, or_false] at hx
      rcases hx with rfl | rfl | rfl
      · rw [hc]
        decide
      · rw [hd]
        decide
      · rw [he]
        decide
    | mil c d e rest heq hc hd he hsuffix' =>
      rw [← hsuffix, hsuffix']
      refine ⟨fun x hx => ?_, by rw [startsAtto, List.map_cons, hc]; rfl⟩
      simp only [List.mem_cons, List.not_mem_nil, or_false] at hx
      rcases hx with rfl | rfl | rfl
      · rw [hc]
        decide
      · rw [hd]
        decide
      · rw [he]
        decide
    | one c rest heq hc hmeg hmil hsuffix' =>
      rw [← hsuffix, hsuffix']
      refine ⟨fun x hx => ?_, ?_⟩
      · rw [List.mem_singleton.mp hx]
        intro heq'
        rw [heq'] at hc
        revert hc
        decide
      · rw [startsAtto, List.map_cons, List.head?_cons, decide_eq_false_iff_not, Option.some.injEq]
        intro heq'
        rw [heq'] at hc
        revert hc
        decide
    | none hnone hmil hsuffix' =>
      rw [← hsuffix, hsuffix']
      exact ⟨fun x hx => absurd hx List.not_mem_nil, rfl⟩
  refine ⟨?_, hsafe.2⟩
  have hfold (l : List Char) (hl : ∀ c ∈ l, looseLetter c ≠ 's') :
      l.flatMap casefoldLetter = l.flatMap lowerLetter := by
    induction l with
    | nil => rfl
    | cons c rest ih =>
      rw [List.flatMap_cons, List.flatMap_cons, casefoldLetter_eq (hl c (List.mem_cons_self ..)),
        ih fun x hx => hl x (List.mem_cons_of_mem _ hx)]
  rw [parameterScale, hsuffix, ← h, hfold letters hsafe.1]

theorem deckScale_of_scalarScale {letters : List Char} {scale : ℚ}
    (hall : letters.all isLetter = true) (hmil : startsMil letters = false)
    (h : scalarScale letters = some scale) : deckScale letters = some scale := by
  rw [scalarScale] at h
  split_ifs at h with hwhole
  rw [deckScale]
  have hfold := casefold_of_all hall
  rw [hfold] at h ⊢
  cases suffixCase letters with
  | meg c d e rest heq hc hd he hsuffix =>
    have hc' := lowerLetter_of_loose hc (by decide) (by decide)
    have hd' := lowerLetter_of_loose hd (by decide) (by decide)
    have he' := lowerLetter_of_loose he (by decide) (by decide)
    rw [← hwhole, hsuffix] at h ⊢
    simp only [List.flatMap_cons, List.flatMap_nil, hc', hd', he'] at h ⊢
    rw [← h]
    rfl
  | mil c d e rest heq hc hd he hsuffix =>
    rw [startsMil, heq, List.map_cons, List.map_cons, List.map_cons, hc, hd, he] at hmil
    cases hmil
  | one c rest heq hc hmeg hmil' hsuffix =>
    rw [← hwhole, hsuffix, List.flatMap_singleton, lower_of_head hc] at h ⊢
    rw [← h]
    generalize looseLetter c = p at hc
    simp only [suffixHeads, List.mem_cons, List.not_mem_nil, or_false] at hc
    rcases hc with rfl | rfl | rfl | rfl | rfl | rfl | rfl | rfl <;> rfl
  | none hnone hmil' hsuffix =>
    rw [← hwhole, hsuffix] at h ⊢
    rw [← h]
    rfl

end Letters

section Readers

variable (arithmetic : Arithmetic)

def significantDigits (number : Number) : List Char :=
  ((number.whole ++ number.fraction).dropWhile (· = '0')).rdropWhile (· = '0')

/-- `len(number.as_tuple().digits)`. -/
def coefficientLength (number : Number) : ℕ :=
  PyDecimal.digitCount (natOf arithmetic.digit (number.whole ++ number.fraction))

/-- Whether a nonzero scalar has an exponent that is too large or too small. -/
def exponentOutside (number : Number) (scale : ℚ) : Bool :=
  let adjusted := (coefficientLength arithmetic number : ℤ) - 1 + number.exponent -
    number.fraction.length
  decide (number.value arithmetic.digit ≠ 0 ∧
    maxScalarAdjustedExponent < |adjusted + PyDecimal.adjusted scale|)

/-- The literal and the scale a reader takes from a text; the other limits are `admits`. -/
def readWith (literal : Option Literal) (scale : List Char → Option ℚ)
    (admits : Number → ℚ → Bool) : Option (Literal × ℚ) := do
  let literal ← literal
  let factor ← scale literal.letters
  if admits literal.number factor then some (literal, factor) else none

def parameterAdmits (number : Number) (scale : ℚ) : Bool :=
  decide ((significantDigits number).length ≤ 200) && arithmetic.decimalReads number &&
    arithmetic.productFits number scale

def scalarAdmits (number : Number) (scale : ℚ) : Bool :=
  arithmetic.decimalReads number &&
    decide (coefficientLength arithmetic number ≤ maxScalarSignificantDigits) &&
    !exponentOutside arithmetic number scale

/-- `$` also stands before a newline at the end. -/
def withoutNewline (text : List Char) : List Char :=
  if text.getLast? = some '\n' then text.dropLast else text

/-- `pdk_bindings.parse_spice_number`. -/
def parameterReading (text : List Char) : Option (Literal × ℚ) :=
  readWith (literalOf arithmetic.isDigit arithmetic.digit isLetterIgnoringCase (withoutNewline text))
    parameterScale (parameterAdmits arithmetic)

/-- `block_library._spice_literal`. -/
def blockReading (text : List Char) : Option (Literal × ℚ) :=
  readWith (literalOf Char.isDigit arithmetic.digit isLetterIgnoringCase (strip text))
    (fun letters => some (blockScale letters)) arithmetic.floatFinite

/-- `experiment._parse_scalar` of a token. -/
def scalarReading (text : List Char) : Option (Literal × ℚ) :=
  readWith (literalOf arithmetic.isDigit arithmetic.digit isLetterIgnoringCase text) scalarScale
    (scalarAdmits arithmetic)

/-- `circuit_simulate._spice_number`. -/
def deckReading (text : List Char) : Option (Literal × ℚ) :=
  readWith (literalOf arithmetic.isDigit arithmetic.digit isLetter text) deckScale
    arithmetic.floatFinite

def quantity (reading : Literal × ℚ) : ℚ := reading.1.number.value arithmetic.digit * reading.2

inductive Reader where
  | parameter | block | scalar | deck
  deriving DecidableEq

def Reader.read (reader : Reader) (text : List Char) : Option (Literal × ℚ) :=
  match reader with
  | .parameter => parameterReading arithmetic text
  | .block => blockReading arithmetic text
  | .scalar => scalarReading arithmetic text
  | .deck => deckReading arithmetic text

/-- Readers that accept a text read the same quantity, and a scalar of an experiment is read back by
the deck inspection. -/
structure ReadAlike (text : List Char) : Prop where
  agree : ∀ (first second : Reader) (a b : Literal × ℚ), first.read arithmetic text = some a →
    second.read arithmetic text = some b → quantity arithmetic a = quantity arithmetic b
  back : ∀ a, scalarReading arithmetic text = some a → ∃ b, deckReading arithmetic text = some b ∧
    quantity arithmetic b = quantity arithmetic a

end Readers

end OpenADA.Scalars
