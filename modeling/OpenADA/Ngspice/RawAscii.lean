import Mathlib.Data.PNat.Basic
import OpenADA.Library.CharClass
import OpenADA.Ngspice.Wrdata

/-! The values of a raw file that is written as text: how many scalars each point has, and that the
reader takes these and nothing behind them. -/
namespace OpenADA.Ngspice

open PyText SpiceText Scalars

section Table

abbrev VariableLength (points : ℕ+) := {length : ℕ // 1 ≤ length ∧ length ≤ points}

/-- The loop of `_parse_dimensions`; the product of the dimensions never exceeds the points. -/
def dimensionsFrom (points : ℕ+) (length : VariableLength points) :
    List (List Char) → Except String (VariableLength points)
  | [] => .ok length
  | dimension :: rest =>
    let pointsText := Nat.toDigits 10 points
    if dimension = [] ∨ !dimension.all Char.isDigit ∨ pointsText.length < dimension.length ∨
        (dimension.length = pointsText.length ∧ pointsText < dimension) then
      .error "raw.variable_dimensions_invalid"
    else
      let parsed := natOf asciiDigitValue dimension
      if h : parsed ≤ 0 ∨ points < parsed ∨ points / parsed < length.1 then
        .error "raw.variable_dimensions_invalid"
      else
        dimensionsFrom points ⟨length.1 * parsed, by
          obtain ⟨hpositive, -, hquotient⟩ := not_or.mp h |>.imp_right not_or.mp
          rw [not_le] at hpositive
          rw [not_lt, Nat.le_div_iff_mul_le hpositive] at hquotient
          exact ⟨Nat.mul_pos length.2.1 hpositive, hquotient⟩⟩ rest

/-- `_parse_dimensions` -/
def parseDimensions (points : ℕ+) (token : List Char) : Except String (VariableLength points) :=
  let rawDimensions := token.drop 5
  if rawDimensions = [] then .error "raw.variable_dimensions_invalid"
  else dimensionsFrom points ⟨1, le_rfl, points.2⟩ (rawDimensions.splitOn ',')

/-- `_parse_variable_line` -/
def parseVariableLine (points : ℕ+) (index : ℕ) (line : List Char) :
    Except String (VariableLength points × List Char) :=
  match words isCSpace line with
  | number :: name :: _ :: more =>
    if number ≠ Nat.toDigits 10 index then .error "raw.variable_table_invalid"
    else
      match (more.map (List.map Char.toLower)).filter ("dims=".toList.isPrefixOf ·) with
      | [] => .ok (⟨points, points.2, le_rfl⟩, name)
      | [token] => (parseDimensions points token).map fun length => (length, name)
      | _ => .error "raw.variable_dimensions_invalid"
  | _ => .error "raw.variable_table_invalid"

/-- A dimension in decimal digits, no more of them than the number of the points has. -/
structure IsDimension (points : ℕ+) (field : List Char) (dimension : ℕ) : Prop where
  nonempty : field ≠ []
  digits : field.all Char.isDigit = true
  short : field.length ≤ (Nat.toDigits 10 points).length
  value : natOf asciiDigitValue field = dimension
  pos : 0 < dimension

theorem digit_toNat {c : Char} (h : c.isDigit = true) : 48 ≤ c.toNat ∧ c.toNat ≤ 57 := by
  delta Char.isDigit at h
  simpa [UInt32.le_iff_toNat_le] using h

theorem asciiDigitValue_le {c : Char} (h : c.isDigit = true) : asciiDigitValue c ≤ 9 := by
  have hrange := digit_toNat h
  unfold asciiDigitValue
  omega

theorem foldl_digits_lt {first second : List Char} (hfirst : ∀ c ∈ first, c.isDigit = true)
    (hlength : first.length = second.length) {m n : ℕ} (h : m < n) :
    first.foldl (fun n c => 10 * n + asciiDigitValue c) m <
      second.foldl (fun n c => 10 * n + asciiDigitValue c) n := by
  induction first generalizing second m n with
  | nil =>
    obtain rfl := List.eq_nil_of_length_eq_zero hlength.symm
    exact h
  | cons c first ih =>
    obtain ⟨d, second, rfl⟩ := List.exists_cons_of_length_eq_add_one hlength.symm
    rw [List.forall_mem_cons] at hfirst
    have hdigit := asciiDigitValue_le hfirst.1
    apply ih hfirst.2 (Nat.succ.inj hlength)
    show 10 * m + asciiDigitValue c < 10 * n + asciiDigitValue d
    omega

theorem foldl_digits_lt_of_lt {first second : List Char} (hfirst : ∀ c ∈ first, c.isDigit = true)
    (hsecond : ∀ c ∈ second, c.isDigit = true) (hlength : first.length = second.length)
    (h : first < second) (n : ℕ) : first.foldl (fun n c => 10 * n + asciiDigitValue c) n <
      second.foldl (fun n c => 10 * n + asciiDigitValue c) n := by
  induction first generalizing second n with
  | nil =>
    obtain rfl := List.eq_nil_of_length_eq_zero hlength.symm
    exact absurd h (List.not_lt_nil _)
  | cons c first ih =>
    obtain ⟨d, second, rfl⟩ := List.exists_cons_of_length_eq_add_one hlength.symm
    rw [List.forall_mem_cons] at hfirst hsecond
    rcases List.cons_lt_cons_iff.mp h with hless | ⟨rfl, hless⟩
    · apply foldl_digits_lt hfirst.2 (Nat.succ.inj hlength)
      have hc := digit_toNat hfirst.1
      have hlt : c.toNat < d.toNat := hless
      show 10 * n + (c.toNat - 48) < 10 * n + (d.toNat - 48)
      omega
    · exact ih hfirst.2 hsecond.2 (Nat.succ.inj hlength) hless _

theorem natOf_toDigits (n : ℕ) : natOf asciiDigitValue (Nat.toDigits 10 n) = n :=
  Nat.ofDigitChars_ten_toDigits

theorem IsDimension.not_text_gt {points : ℕ+} {field : List Char} {dimension : ℕ}
    (h : IsDimension points field dimension) (hle : dimension ≤ points) :
    ¬(field.length = (Nat.toDigits 10 points).length ∧ Nat.toDigits 10 points < field) := by
  rintro ⟨hlength, hless⟩
  have hpoints : ∀ c ∈ Nat.toDigits 10 points, c.isDigit = true := fun c hc =>
    Nat.isDigit_of_mem_toDigits (by decide) (by decide) hc
  have hlt := foldl_digits_lt_of_lt hpoints (List.all_eq_true.mp h.digits) hlength.symm hless 0
  have hvalue := natOf_toDigits points
  rw [natOf] at hvalue
  have hfield := h.value
  rw [natOf] at hfield
  omega

theorem dimensionsFrom_eq_ok {points : ℕ+} {start length : VariableLength points}
    {fields : List (List Char)} : dimensionsFrom points start fields = .ok length ↔
      ∃ dimensions, List.Forall₂ (IsDimension points) fields dimensions ∧
        length.1 = start.1 * dimensions.prod := by
  induction fields generalizing start with
  | nil =>
    rw [dimensionsFrom, Except.ok.injEq]
    constructor
    · rintro rfl
      exact ⟨[], .nil, (Nat.mul_one _).symm⟩
    · rintro ⟨dimensions, hall, hlength⟩
      obtain rfl := List.forall₂_nil_left_iff.mp hall
      exact Subtype.ext (hlength.trans (Nat.mul_one _)).symm
  | cons field fields ih =>
    rw [dimensionsFrom]
    dsimp only
    rw [Except.guard_eq_ok]
    constructor
    · rintro ⟨htext, h⟩
      by_cases hvalue : natOf asciiDigitValue field ≤ 0 ∨ points < natOf asciiDigitValue field ∨
          points / natOf asciiDigitValue field < start.1
      · rw [dif_pos hvalue] at h
        cases h
      · rw [dif_neg hvalue] at h
        obtain ⟨dimensions, hall, hlength⟩ := ih.mp h
        simp only [not_or, Bool.not_eq_true', Bool.not_eq_false] at htext
        have hdimension : IsDimension points field (natOf asciiDigitValue field) :=
          ⟨htext.1, htext.2.1, not_lt.mp htext.2.2.1, rfl, not_le.mp (not_or.mp hvalue).1⟩
        refine ⟨_ :: dimensions, .cons hdimension hall, ?_⟩
        rw [hlength, List.prod_cons, Nat.mul_assoc]
    · rintro ⟨dimensions, hall, hlength⟩
      obtain ⟨dimension, dimensions, hfield, hrest, rfl⟩ := List.forall₂_cons_left_iff.mp hall
      rw [List.prod_cons, ← Nat.mul_assoc] at hlength
      have hprod : 0 < dimensions.prod := by
        rw [Nat.pos_iff_ne_zero]
        intro hzero
        rw [hzero, Nat.mul_zero] at hlength
        exact (Nat.lt_of_lt_of_le Nat.zero_lt_one length.2.1).ne' hlength
      have hfits : start.1 * dimension ≤ points := by
        calc start.1 * dimension ≤ start.1 * dimension * dimensions.prod :=
              Nat.le_mul_of_pos_right _ hprod
          _ = length.1 := hlength.symm
          _ ≤ points := length.2.2
      have hle : dimension ≤ points :=
        (Nat.le_mul_of_pos_left _ start.2.1).trans hfits
      have hvalue : ¬(natOf asciiDigitValue field ≤ 0 ∨ points < natOf asciiDigitValue field ∨
          points / natOf asciiDigitValue field < start.1) := by
        rw [hfield.value, not_or, not_or, not_le, not_lt, not_lt, Nat.le_div_iff_mul_le hfield.pos]
        exact ⟨hfield.pos, hle, hfits⟩
      refine ⟨?_, ?_⟩
      · simp only [not_or, Bool.not_eq_true', Bool.not_eq_false]
        exact ⟨hfield.nonempty, hfield.digits, not_lt.mpr hfield.short, hfield.not_text_gt hle⟩
      · rw [dif_neg hvalue, ih]
        refine ⟨dimensions, hrest, ?_⟩
        show length.1 = start.1 * natOf asciiDigitValue field * dimensions.prod
        rw [hlength, hfield.value]

/-- The length of a variable is the product of its dimensions. -/
theorem parseDimensions_eq_ok {points : ℕ+} {token : List Char} {length : VariableLength points} :
    parseDimensions points token = .ok length ↔ token.drop 5 ≠ [] ∧ ∃ dimensions,
      List.Forall₂ (IsDimension points) ((token.drop 5).splitOn ',') dimensions ∧
        length.1 = dimensions.prod := by
  rw [parseDimensions, Except.guard_eq_ok, dimensionsFrom_eq_ok]
  simp only [Nat.one_mul, ne_eq]

end Table

section Values

inductive Scalar where
  | real (value : ℚ)
  | complex (real imaginary : ℚ)
  deriving DecidableEq

def Scalar.axisReal : Scalar → ℚ
  | .real x => x
  | .complex x _ => x

/-- `float` of a matched number, none where that is not finite. -/
def finiteFloat (number : Number) : Option ℚ := Binary64.nearest (number.value asciiDigitValue)

/-- `_FLOAT_RE` from the start of a text, and what is behind it. -/
def matchFloat (text : List Char) : Option (Number × List Char) :=
  numberOf Char.isDigit asciiDigitValue (text.map exponentMark)

/-- `_parse_real` -/
def parseReal (value : List Char) : Except String Scalar :=
  match matchFloat (trim isCSpace value) with
  | some (number, []) =>
    match finiteFloat number with
    | some x => .ok (.real x)
    | none => .error "raw.non_finite_value"
  | _ => .error "raw.ascii_value_invalid"

def dropOptional (c : Char) (text : List Char) : List Char :=
  if text.head? = some c then text.tail else text

/-- `_COMPLEX_RE.fullmatch` -/
def matchComplex (text : List Char) : Option (Number × Number) := do
  let (real, behind) ← matchFloat (lstrip isCSpace (dropOptional '(' text))
  match lstrip isCSpace behind with
  | ',' :: more =>
    let (imaginary, rest) ← matchFloat (lstrip isCSpace more)
    if dropOptional ')' (lstrip isCSpace rest) = [] then some (real, imaginary) else none
  | _ => none

/-- `_parse_complex` -/
def parseComplex (value : List Char) : Except String Scalar :=
  match matchComplex (trim isCSpace value) with
  | none => .error "raw.ascii_value_invalid"
  | some (real, imaginary) =>
    match finiteFloat real, finiteFloat imaginary with
    | some x, some y => .ok (.complex x y)
    | _, _ => .error "raw.non_finite_value"

def parseScalar (complexValues : Bool) (value : List Char) : Except String Scalar :=
  if complexValues then parseComplex value else parseReal value

def indexedValue (index : ℕ) (line : List Char) : Except String (List Char) :=
  let stripped := trim isCSpace line
  let digits := stripped.takeWhile Char.isDigit
  let behind := stripped.dropWhile Char.isDigit
  if behind.takeWhile isCSpace = [] ∨ lstrip isCSpace behind = [] ∨
      digits ≠ Nat.toDigits 10 index then .error "raw.ascii_point_index_invalid"
  else .ok (lstrip isCSpace behind)

end Values

section Reader

abbrev Lines := List (List Char)

variable (limits : ValidationLimits) (complexValues : Bool)

/-- `_read_nonempty_line` -/
def readNonemptyLine : Lines → Except String (List Char × Lines)
  | [] => .error "raw.truncated_ascii_payload"
  | line :: rest =>
    if limits.maxLineBytes < line.length then .error "raw.line_too_long"
    else if trim isCSpace line = [] then readNonemptyLine rest
    else .ok (line, rest)

def readScalars : ℕ → Lines → Except String (List Scalar × Lines)
  | 0, lines => .ok ([], lines)
  | count + 1, lines => do
    let (line, lines) ← readNonemptyLine limits lines
    let value ← parseScalar complexValues line
    let (values, lines) ← readScalars count lines
    .ok (value :: values, lines)

def readPoint (index activeValues : ℕ) (lines : Lines) : Except String (List Scalar × Lines) := do
  let (line, lines) ← readNonemptyLine limits lines
  let text ← indexedValue index line
  let value ← parseScalar complexValues text
  let (values, lines) ← readScalars limits complexValues (activeValues - 1) lines
  .ok (value :: values, lines)

/-- The loop of `_validate_ascii_payload`: the points from `index` on, with the variables that are
still active before the first of them. -/
def readPoints (expirations : ℕ → ℕ) : (points index activeValues : ℕ) → Lines →
    Except String (List (List Scalar) × Lines)
  | 0, _, _, lines => .ok ([], lines)
  | points + 1, index, activeValues, lines =>
    let activeValues := activeValues - expirations index
    if activeValues = 0 then .error "raw.variable_dimensions_invalid"
    else do
      let (values, lines) ← readPoint limits complexValues index activeValues lines
      let (later, lines) ← readPoints expirations points (index + 1) activeValues lines
      .ok (values :: later, lines)

/-- `_validate_ascii_payload`: the values of the axis, and the lines behind the payload. -/
def validateAsciiPayload {points : ℕ+} (variableLengths : List (VariableLength points))
    (unpadded : Bool) (lines : Lines) : Except String (List ℚ × Lines) := do
  let expirations index := if unpadded then (variableLengths.map Subtype.val).count index else 0
  let (values, lines) ← readPoints limits complexValues expirations points 0
    variableLengths.length lines
  .ok (values.flatMap fun point => (point.head?.map Scalar.axisReal).toList, lines)

def valueCount {points : ℕ+} (variableLengths : List (VariableLength points)) (unpadded : Bool) :
    ℕ :=
  if unpadded then (variableLengths.map Subtype.val).sum else variableLengths.length * points

/-- The end of `_parse_raw_plot` for a payload that is text. -/
def asciiPayload {points : ℕ+} (variableLengths : List (VariableLength points)) (unpadded : Bool)
    (lines : Lines) : Except String (List ℚ × Lines) :=
  let values := valueCount variableLengths unpadded
  let scalars := values * if complexValues then 2 else 1
  if values = 0 ∨ limits.maxNumericValues < values then .error "raw.value_count_too_large"
  else if limits.maxNumericValues < scalars then .error "raw.value_count_too_large"
  else validateAsciiPayload limits complexValues variableLengths unpadded lines

end Reader

section Lines

variable {limits : ValidationLimits} {lines rest read taken : Lines} {line : List Char}

def isBlank (line : List Char) : Bool := (trim isCSpace line).isEmpty

/-- Lines that are read for the lines taken from them: no line is too long, the blank lines are
passed over, and nothing is read behind the last line that is taken. -/
structure IsRead (limits : ValidationLimits) (read taken : Lines) : Prop where
  short : ∀ line ∈ read, line.length ≤ limits.maxLineBytes
  taken_eq : read.filter (fun line => !isBlank line) = taken
  last : ∀ line ∈ read.getLast?, isBlank line = false

def Reads (limits : ValidationLimits) (lines taken rest : Lines) : Prop :=
  ∃ read, lines = read ++ rest ∧ IsRead limits read taken

theorem isRead_nil : IsRead limits read [] ↔ read = [] := by
  constructor
  · rintro ⟨-, htaken, hlast⟩
    rcases List.eq_nil_or_concat' read with rfl | ⟨front, line, rfl⟩
    · rfl
    · have hblank := hlast line (by simp)
      have hmem : line ∈ (front ++ [line]).filter (fun line => !isBlank line) := by
        simp [hblank]
      rw [htaken] at hmem
      cases hmem
  · rintro rfl
    exact ⟨by simp, rfl, by simp⟩

theorem isRead_cons : IsRead limits read (line :: taken) ↔ ∃ blanks more,
    read = blanks ++ line :: more ∧ (∀ blank ∈ blanks, isBlank blank = true) ∧
      (∀ blank ∈ blanks, blank.length ≤ limits.maxLineBytes) ∧ isBlank line = false ∧
        line.length ≤ limits.maxLineBytes ∧ IsRead limits more taken := by
  constructor
  · rintro ⟨hshort, htaken, hlast⟩
    obtain ⟨blanks, more, rfl, hblanks, hline, hmore⟩ := List.filter_eq_cons_iff.mp htaken
    have hshort' := List.forall_mem_append.mp hshort
    have hshort'' := List.forall_mem_cons.mp hshort'.2
    refine ⟨blanks, more, rfl, fun blank hblank => ?_, hshort'.1, ?_, hshort''.1, hshort''.2,
      hmore, fun last hmem => hlast last ?_⟩
    · simpa using hblanks blank hblank
    · simpa using hline
    · rw [List.getLast?_append, List.getLast?_cons, Option.mem_def.mp hmem]
      rfl
  · rintro ⟨blanks, more, rfl, hblanks, hshort, hline, hlength, hmore⟩
    refine ⟨List.forall_mem_append.mpr ⟨hshort, List.forall_mem_cons.mpr ⟨hlength, hmore.short⟩⟩,
      List.filter_eq_cons_iff.mpr ⟨blanks, more, rfl, ?_, ?_, hmore.taken_eq⟩, fun last hmem => ?_⟩
    · intro blank hblank
      simp [hblanks blank hblank]
    · simp [hline]
    · rw [List.getLast?_append, List.getLast?_cons] at hmem
      cases hlast : more.getLast? with
      | none =>
        rw [hlast] at hmem
        obtain rfl : line = last := by simpa using hmem
        exact hline
      | some other =>
        rw [hlast] at hmem
        obtain rfl : other = last := by simpa using hmem
        exact hmore.last other hlast

theorem readNonemptyLine_eq_ok : readNonemptyLine limits lines = .ok (line, rest) ↔ ∃ blanks,
    lines = blanks ++ line :: rest ∧ (∀ blank ∈ blanks, isBlank blank = true) ∧
      (∀ blank ∈ blanks, blank.length ≤ limits.maxLineBytes) ∧ isBlank line = false ∧
        line.length ≤ limits.maxLineBytes := by
  induction lines with
  | nil =>
    constructor
    · intro h
      cases h
    · rintro ⟨blanks, hlines, -⟩
      exact absurd hlines (by simp)
  | cons first others ih =>
    rw [readNonemptyLine, Except.guard_eq_ok, not_lt]
    by_cases hblank : trim isCSpace first = []
    · have hfirst : isBlank first = true := by rw [isBlank, hblank]; rfl
      rw [if_pos hblank, ih]
      constructor
      · rintro ⟨hlength, blanks, rfl, hblanks, hshort, hline⟩
        exact ⟨first :: blanks, rfl, List.forall_mem_cons.mpr ⟨hfirst, hblanks⟩,
          List.forall_mem_cons.mpr ⟨hlength, hshort⟩, hline⟩
      · rintro ⟨blanks, hlines, hblanks, hshort, hline⟩
        cases blanks with
        | nil =>
          obtain ⟨rfl, -⟩ := List.cons.inj hlines
          rw [hfirst] at hline
          cases hline.1
        | cons blank blanks =>
          obtain ⟨rfl, rfl⟩ := List.cons.inj hlines
          rw [List.forall_mem_cons] at hblanks hshort
          exact ⟨hshort.1, blanks, rfl, hblanks.2, hshort.2, hline⟩
    · have hfirst : isBlank first = false := by
        rw [isBlank, List.isEmpty_eq_false_iff]
        exact hblank
      rw [if_neg hblank, Except.ok.injEq, Prod.mk.injEq]
      constructor
      · rintro ⟨hlength, rfl, rfl⟩
        exact ⟨[], rfl, by simp, by simp, hfirst, hlength⟩
      · rintro ⟨blanks, hlines, hblanks, -, hline⟩
        cases blanks with
        | nil =>
          obtain ⟨rfl, rfl⟩ := List.cons.inj hlines
          exact ⟨hline.2, rfl, rfl⟩
        | cons blank blanks =>
          obtain ⟨rfl, rfl⟩ := List.cons.inj hlines
          rw [hblanks first (List.mem_cons_self ..)] at hfirst
          cases hfirst

theorem reads_nil : Reads limits lines [] rest ↔ lines = rest := by
  constructor
  · rintro ⟨read, rfl, hread⟩
    rw [isRead_nil.mp hread, List.nil_append]
  · rintro rfl
    exact ⟨[], rfl, isRead_nil.mpr rfl⟩

theorem reads_cons : Reads limits lines (line :: taken) rest ↔
    ∃ behind, readNonemptyLine limits lines = .ok (line, behind) ∧
      Reads limits behind taken rest := by
  constructor
  · rintro ⟨read, rfl, hread⟩
    obtain ⟨blanks, more, rfl, hblanks, hshort, hline, hlength, hmore⟩ := isRead_cons.mp hread
    refine ⟨more ++ rest, readNonemptyLine_eq_ok.mpr ⟨blanks, ?_, hblanks, hshort, hline, hlength⟩,
      more, rfl, hmore⟩
    rw [List.append_assoc, List.cons_append]
  · rintro ⟨behind, hfirst, more, rfl, hmore⟩
    obtain ⟨blanks, rfl, hblanks, hshort, hline, hlength⟩ := readNonemptyLine_eq_ok.mp hfirst
    refine ⟨blanks ++ line :: more, ?_,
      isRead_cons.mpr ⟨blanks, more, rfl, hblanks, hshort, hline, hlength, hmore⟩⟩
    rw [List.append_assoc, List.cons_append]

theorem reads_append {first second : Lines} : Reads limits lines (first ++ second) rest ↔
    ∃ behind, Reads limits lines first behind ∧ Reads limits behind second rest := by
  induction first generalizing lines with
  | nil =>
    simp only [List.nil_append, reads_nil, exists_eq_left']
  | cons line first ih =>
    simp only [List.cons_append, reads_cons, ih]
    constructor
    · rintro ⟨mid, hline, behind, hfirst, hsecond⟩
      exact ⟨behind, ⟨mid, hline, hfirst⟩, hsecond⟩
    · rintro ⟨behind, ⟨mid, hline, hfirst⟩, hsecond⟩
      exact ⟨mid, hline, behind, hfirst, hsecond⟩

end Lines

section Points

variable {limits : ValidationLimits} {complexValues : Bool} {points : ℕ+} {lines rest : Lines}
  {index count : ℕ} {line text : List Char} {scalars : List Scalar}

/-- A line gives the index of a point, and behind spaces the text of its first value. -/
structure IsIndexed (index : ℕ) (line text : List Char) : Prop where
  line_eq : ∃ gap, gap ≠ [] ∧ (∀ c ∈ gap, isCSpace c = true) ∧
    trim isCSpace line = Nat.toDigits 10 index ++ gap ++ text
  text_start : ∃ c rest, text = c :: rest ∧ isCSpace c = false

theorem not_isDigit_of_isCSpace {c : Char} (h : isCSpace c = true) : c.isDigit = false := by
  by_contra hdigit
  rw [Bool.not_eq_false] at hdigit
  have halnum := (isAlphanum_iff c).mp (isAlphanum_of_isDigit hdigit)
  simp only [isCSpace, Bool.or_eq_true, Bool.and_eq_true, decide_eq_true_eq] at h
  rcases h with rfl | h
  · revert hdigit
    decide
  · omega

theorem indexedValue_eq_ok : indexedValue index line = .ok text ↔ IsIndexed index line text := by
  unfold indexedValue
  dsimp only
  rw [Except.guard_eq_ok, Except.ok.injEq]
  generalize hstripped : trim isCSpace line = stripped
  constructor
  · rintro ⟨hfirst, rfl⟩
    rw [not_or, not_or, not_not] at hfirst
    obtain ⟨hgap, htext, hindex⟩ := hfirst
    refine ⟨⟨_, hgap, fun c hc => List.mem_takeWhile_imp hc, ?_⟩, ?_⟩
    · rw [hstripped, ← hindex, List.append_assoc, lstrip, List.takeWhile_append_dropWhile,
        List.takeWhile_append_dropWhile]
    · obtain ⟨c, rest, hcons⟩ := List.exists_cons_of_ne_nil htext
      refine ⟨c, rest, hcons, ?_⟩
      have hhead := List.head?_dropWhile_not isCSpace (stripped.dropWhile Char.isDigit)
      rw [← lstrip, hcons] at hhead
      simpa using hhead
  · rintro ⟨⟨gap, hgap, hspaces, hline⟩, c, rest, rfl, hc⟩
    rw [hstripped, List.append_assoc] at hline
    subst hline
    have hdigits : ∀ d ∈ Nat.toDigits 10 index, d.isDigit = true := fun d hd =>
      Nat.isDigit_of_mem_toDigits (by decide) (by decide) hd
    obtain ⟨space, more, rfl⟩ := List.exists_cons_of_ne_nil hgap
    have hspace := not_isDigit_of_isCSpace (hspaces space (List.mem_cons_self ..))
    have hbehind : (Nat.toDigits 10 index ++ (space :: more ++ c :: rest)).dropWhile Char.isDigit =
        space :: more ++ c :: rest := by
      rw [List.dropWhile_append_of_pos hdigits, List.cons_append, List.dropWhile_cons_of_neg]
      simp [hspace]
    have hindex : (Nat.toDigits 10 index ++ (space :: more ++ c :: rest)).takeWhile Char.isDigit =
        Nat.toDigits 10 index := by
      rw [List.takeWhile_append_of_pos hdigits, List.cons_append, List.takeWhile_cons_of_neg,
        List.append_nil]
      simp [hspace]
    have htake : (space :: more ++ c :: rest).takeWhile isCSpace = space :: more := by
      rw [List.takeWhile_append_of_pos hspaces, List.takeWhile_cons_of_neg, List.append_nil]
      simp [hc]
    have hdrop : lstrip isCSpace (space :: more ++ c :: rest) = c :: rest := by
      rw [lstrip, List.dropWhile_append_of_pos hspaces, List.dropWhile_cons_of_neg]
      simp [hc]
    rw [hbehind, hindex, htake, hdrop]
    exact ⟨by simp, rfl⟩

structure IsPoint (complexValues : Bool) (index : ℕ) (scalars : List Scalar) (lines : Lines) :
    Prop where
  split : ∃ line text value more others, lines = line :: more ∧ scalars = value :: others ∧
    IsIndexed index line text ∧ parseScalar complexValues text = .ok value ∧
      List.Forall₂ (fun line value => parseScalar complexValues line = .ok value) more others

theorem IsPoint.ne_nil (h : IsPoint complexValues index scalars lines) : scalars ≠ [] := by
  obtain ⟨line, text, value, more, others, -, rfl, -⟩ := h.split
  exact List.cons_ne_nil _ _

theorem IsPoint.length_eq (h : IsPoint complexValues index scalars lines) :
    lines.length = scalars.length := by
  obtain ⟨line, text, value, more, others, rfl, rfl, -, -, hothers⟩ := h.split
  rw [List.length_cons, List.length_cons, hothers.length_eq]

theorem readScalars_eq_ok : readScalars limits complexValues count lines = .ok (scalars, rest) ↔
    ∃ taken, Reads limits lines taken rest ∧
      List.Forall₂ (fun line value => parseScalar complexValues line = .ok value) taken scalars ∧
        scalars.length = count := by
  induction count generalizing lines scalars with
  | zero =>
    rw [readScalars, Except.ok.injEq, Prod.mk.injEq]
    constructor
    · rintro ⟨rfl, rfl⟩
      exact ⟨[], reads_nil.mpr rfl, .nil, rfl⟩
    · rintro ⟨taken, hread, hvalues, hlength⟩
      obtain rfl := List.eq_nil_of_length_eq_zero hlength
      obtain rfl := List.forall₂_nil_right_iff.mp hvalues
      exact ⟨rfl, reads_nil.mp hread⟩
  | succ count ih =>
    rw [readScalars, Except.bind_eq_ok]
    constructor
    · rintro ⟨⟨line, behind⟩, hline, h⟩
      obtain ⟨value, hvalue, h⟩ := Except.bind_eq_ok.mp h
      obtain ⟨⟨others, last⟩, hothers, h⟩ := Except.bind_eq_ok.mp h
      obtain ⟨rfl, rfl⟩ := Prod.mk.inj (Except.ok.inj h)
      obtain ⟨taken, hread, hvalues, rfl⟩ := ih.mp hothers
      exact ⟨line :: taken, reads_cons.mpr ⟨behind, hline, hread⟩, .cons hvalue hvalues, rfl⟩
    · rintro ⟨taken, hread, hvalues, hlength⟩
      obtain ⟨value, others, rfl⟩ := List.exists_cons_of_length_eq_add_one hlength
      obtain ⟨line, more, hvalue, hothers, rfl⟩ := List.forall₂_cons_right_iff.mp hvalues
      obtain ⟨behind, hline, hread⟩ := reads_cons.mp hread
      refine ⟨(line, behind), hline, Except.bind_eq_ok.mpr ⟨value, hvalue, ?_⟩⟩
      exact Except.bind_eq_ok.mpr
        ⟨(others, rest), ih.mpr ⟨more, hread, hothers, Nat.succ.inj hlength⟩, rfl⟩

theorem readPoint_eq_ok (hcount : 0 < count) :
    readPoint limits complexValues index count lines = .ok (scalars, rest) ↔
      ∃ taken, Reads limits lines taken rest ∧ IsPoint complexValues index scalars taken ∧
        scalars.length = count := by
  rw [readPoint, Except.bind_eq_ok]
  constructor
  · rintro ⟨⟨line, behind⟩, hline, h⟩
    obtain ⟨text, htext, h⟩ := Except.bind_eq_ok.mp h
    obtain ⟨value, hvalue, h⟩ := Except.bind_eq_ok.mp h
    obtain ⟨⟨others, last⟩, hothers, h⟩ := Except.bind_eq_ok.mp h
    obtain ⟨rfl, rfl⟩ := Prod.mk.inj (Except.ok.inj h)
    obtain ⟨taken, hread, hvalues, hlength⟩ := readScalars_eq_ok.mp hothers
    refine ⟨line :: taken, reads_cons.mpr ⟨behind, hline, hread⟩,
      ⟨line, text, value, taken, others, rfl, rfl, indexedValue_eq_ok.mp htext, hvalue, hvalues⟩,
      ?_⟩
    rw [List.length_cons, hlength]
    omega
  · rintro ⟨taken, hread, ⟨line, text, value, more, others, rfl, rfl, htext, hvalue, hothers⟩, rfl⟩
    obtain ⟨behind, hline, hread⟩ := reads_cons.mp hread
    refine ⟨(line, behind), hline, Except.bind_eq_ok.mpr ⟨text, indexedValue_eq_ok.mpr htext, ?_⟩⟩
    refine Except.bind_eq_ok.mpr ⟨value, hvalue, Except.bind_eq_ok.mpr ⟨(others, rest), ?_, rfl⟩⟩
    exact readScalars_eq_ok.mpr ⟨more, hread, hothers, rfl⟩

def ArePoints (complexValues : Bool) (index : ℕ) (values : List (List Scalar))
    (blocks : List Lines) : Prop :=
  List.Forall₂ (fun point block => IsPoint complexValues point.2 point.1 block)
    (values.zipIdx index) blocks

theorem ArePoints.length_eq {values : List (List Scalar)} {blocks : List Lines}
    (h : ArePoints complexValues index values blocks) :
    blocks.flatten.length = values.flatten.length := by
  induction values generalizing index blocks with
  | nil =>
    obtain rfl := List.forall₂_nil_left_iff.mp h
    rfl
  | cons point later ih =>
    obtain ⟨block, blocks, hpoint, hlater, rfl⟩ := List.forall₂_cons_left_iff.mp h
    rw [List.flatten_cons, List.flatten_cons, List.length_append, List.length_append,
      hpoint.length_eq, ih hlater]

theorem readPoints_eq_ok {expirations active : ℕ → ℕ}
    (hactive : ∀ i, active i - expirations (i + 1) = active (i + 1)) {total : ℕ}
    {values : List (List Scalar)} {before : ℕ}
    (hbefore : before - expirations index = active index) :
    readPoints limits complexValues expirations total index before lines = .ok (values, rest) ↔
      ∃ blocks, Reads limits lines blocks.flatten rest ∧
        ArePoints complexValues index values blocks ∧
          values.map List.length = (List.range' index total).map active := by
  induction total generalizing index before lines values with
  | zero =>
    rw [readPoints, Except.ok.injEq, Prod.mk.injEq, List.range'_zero, List.map_nil]
    constructor
    · rintro ⟨rfl, rfl⟩
      exact ⟨[], reads_nil.mpr rfl, .nil, rfl⟩
    · rintro ⟨blocks, hread, hpoints, hlengths⟩
      obtain rfl := List.map_eq_nil_iff.mp hlengths
      obtain rfl := List.forall₂_nil_left_iff.mp hpoints
      exact ⟨rfl, reads_nil.mp hread⟩
  | succ total ih =>
    rw [readPoints]
    dsimp only
    rw [hbefore, Except.guard_eq_ok, Except.bind_eq_ok, List.range'_succ, List.map_cons]
    constructor
    · rintro ⟨hpos, ⟨point, behind⟩, hpoint, h⟩
      obtain ⟨⟨later, last⟩, hlater, h⟩ := Except.bind_eq_ok.mp h
      obtain ⟨rfl, rfl⟩ := Prod.mk.inj (Except.ok.inj h)
      obtain ⟨block, hread, hpoint, hlength⟩ :=
        (readPoint_eq_ok (Nat.pos_of_ne_zero hpos)).mp hpoint
      obtain ⟨blocks, hreads, hpoints, hlengths⟩ := (ih (hactive index)).mp hlater
      refine ⟨block :: blocks, reads_append.mpr ⟨behind, hread, hreads⟩, .cons hpoint hpoints, ?_⟩
      rw [List.map_cons, hlength, hlengths]
    · rintro ⟨blocks, hreads, hpoints, hlengths⟩
      cases values with
      | nil => cases hlengths
      | cons point later =>
        obtain ⟨hlength, hlengths⟩ := List.cons.inj hlengths
        obtain ⟨block, blocks, hpoint, hlater, rfl⟩ := List.forall₂_cons_left_iff.mp hpoints
        obtain ⟨behind, hread, hreads⟩ := reads_append.mp hreads
        have hpos : 0 < active index := by
          rw [← hlength]
          exact List.length_pos_iff.mpr hpoint.ne_nil
        refine ⟨hpos.ne', (point, behind),
          (readPoint_eq_ok hpos).mpr ⟨block, hread, hpoint, hlength⟩, ?_⟩
        exact Except.bind_eq_ok.mpr
          ⟨(later, rest), (ih (hactive index)).mpr ⟨blocks, hreads, hlater, hlengths⟩, rfl⟩

end Points

section Payload

variable {limits : ValidationLimits} {complexValues unpadded : Bool} {points : ℕ+}
  {variableLengths : List (VariableLength points)} {lines rest read : Lines}
  {values : List (List Scalar)}

/-- The variables that have a value at a point: without padding a variable ends at its length. -/
def activeCount (variableLengths : List (VariableLength points)) (unpadded : Bool) (index : ℕ) :
    ℕ :=
  if unpadded then (variableLengths.map Subtype.val).countP fun length => index < length
  else variableLengths.length

/-- The lines read hold the points in order, each with a scalar for every variable it has. -/
structure IsPayload (limits : ValidationLimits) (complexValues unpadded : Bool)
    (variableLengths : List (VariableLength points)) (read : Lines) (values : List (List Scalar)) :
    Prop where
  split : ∃ blocks, IsRead limits read blocks.flatten ∧ ArePoints complexValues 0 values blocks
  counts : values.map List.length =
    (List.range points).map (activeCount variableLengths unpadded)

def axisOf (values : List (List Scalar)) : List ℚ :=
  values.flatMap fun point => (point.head?.map Scalar.axisReal).toList

theorem IsPayload.lines_eq
    (h : IsPayload limits complexValues unpadded variableLengths read values) :
    (read.filter fun line => !isBlank line).length = values.flatten.length := by
  obtain ⟨⟨blocks, hread, hpoints⟩, -⟩ := h
  rw [hread.taken_eq, hpoints.length_eq]

theorem countP_lt_sub_count (lengths : List ℕ) (index : ℕ) :
    lengths.countP (fun length => index < length) - lengths.count (index + 1) =
      lengths.countP fun length => index + 1 < length := by
  have hcount : lengths.countP (fun length => index < length) =
      lengths.count (index + 1) + lengths.countP fun length => index + 1 < length := by
    induction lengths with
    | nil => rfl
    | cons length lengths ih =>
      rw [List.countP_cons, List.countP_cons, List.count_cons, ih]
      simp only [beq_iff_eq, decide_eq_true_eq]
      split_ifs <;> omega
  omega

theorem sum_countP_lt {total : ℕ} {lengths : List ℕ} (h : ∀ length ∈ lengths, length ≤ total) :
    ((List.range total).map fun index => lengths.countP fun length => index < length).sum =
      lengths.sum := by
  induction lengths with
  | nil => simp
  | cons length lengths ih =>
    rw [List.forall_mem_cons] at h
    simp only [List.countP_cons, List.sum_map_add, List.sum_cons, decide_eq_true_eq, ih h.2]
    have hindicator : ((List.range total).map fun index => if index < length then 1 else 0).sum =
        length := by
      have hfilter : (Finset.range total).filter (· < length) = Finset.range length := by
        ext index
        rw [Finset.mem_filter, Finset.mem_range, Finset.mem_range]
        omega
      show (∑ index ∈ Finset.range total, if index < length then 1 else 0) = length
      rw [Finset.sum_boole, hfilter, Finset.card_range, Nat.cast_id]
    omega

theorem IsPayload.length_eq
    (h : IsPayload limits complexValues unpadded variableLengths read values) :
    values.flatten.length = valueCount variableLengths unpadded := by
  rw [List.length_flatten, h.counts, valueCount]
  cases unpadded with
  | false =>
    unfold activeCount
    simp [mul_comm]
  | true =>
    apply sum_countP_lt
    intro length hlength
    obtain ⟨length, -, rfl⟩ := List.mem_map.mp hlength
    exact length.2.2

def expirations (variableLengths : List (VariableLength points)) (unpadded : Bool) (index : ℕ) :
    ℕ :=
  if unpadded then (variableLengths.map Subtype.val).count index else 0

theorem activeCount_succ (index : ℕ) : activeCount variableLengths unpadded index -
    expirations variableLengths unpadded (index + 1) =
      activeCount variableLengths unpadded (index + 1) := by
  cases unpadded with
  | false => rfl
  | true => exact countP_lt_sub_count _ index

theorem activeCount_zero : variableLengths.length - expirations variableLengths unpadded 0 =
    activeCount variableLengths unpadded 0 := by
  cases unpadded with
  | false => rfl
  | true =>
    have hpos : ∀ length ∈ variableLengths.map Subtype.val, 0 < length := by
      intro length hlength
      obtain ⟨length, -, rfl⟩ := List.mem_map.mp hlength
      exact length.2.1
    have hcount : (variableLengths.map Subtype.val).count 0 = 0 :=
      List.count_eq_zero.mpr fun hmem => (hpos 0 hmem).false
    have hall : (variableLengths.map Subtype.val).countP (fun length => 0 < length) =
        variableLengths.length :=
      (List.countP_eq_length.mpr fun length hlength => decide_eq_true (hpos length hlength)).trans
        (List.length_map _)
    simp only [expirations, activeCount, if_true, hcount, hall, Nat.sub_zero]

theorem validateAsciiPayload_eq_ok {axis : List ℚ} :
    validateAsciiPayload limits complexValues variableLengths unpadded lines = .ok (axis, rest) ↔
      ∃ read values, lines = read ++ rest ∧
        IsPayload limits complexValues unpadded variableLengths read values ∧
          axis = axisOf values := by
  have hrun (values : List (List Scalar)) : readPoints limits complexValues
      (expirations variableLengths unpadded) points 0 variableLengths.length lines =
        .ok (values, rest) ↔ ∃ blocks, Reads limits lines blocks.flatten rest ∧
          ArePoints complexValues 0 values blocks ∧ values.map List.length =
            (List.range points).map (activeCount variableLengths unpadded) := by
    rw [List.range_eq_range']
    exact readPoints_eq_ok activeCount_succ activeCount_zero
  rw [validateAsciiPayload, Except.bind_eq_ok]
  constructor
  · rintro ⟨⟨values, behind⟩, hvalues, h⟩
    obtain ⟨rfl, rfl⟩ := Prod.mk.inj (Except.ok.inj h)
    obtain ⟨blocks, ⟨read, rfl, hread⟩, hpoints, hcounts⟩ := (hrun values).mp hvalues
    exact ⟨read, values, rfl, ⟨⟨blocks, hread, hpoints⟩, hcounts⟩, rfl⟩
  · rintro ⟨read, values, rfl, ⟨⟨blocks, hread, hpoints⟩, hcounts⟩, rfl⟩
    exact ⟨(values, rest), (hrun values).mpr ⟨blocks, ⟨read, rfl, hread⟩, hpoints, hcounts⟩, rfl⟩

theorem IsPayload.pos (h : IsPayload limits complexValues unpadded variableLengths read values) :
    0 < valueCount variableLengths unpadded := by
  rw [← h.length_eq]
  obtain ⟨⟨blocks, -, hpoints⟩, hcounts⟩ := h
  cases values with
  | nil =>
    have hlength := congrArg List.length hcounts
    rw [List.length_map, List.length_map, List.length_range, List.length_nil] at hlength
    exact absurd hlength points.ne_zero.symm
  | cons point later =>
    obtain ⟨block, blocks, hpoint, -, -⟩ := List.forall₂_cons_left_iff.mp hpoints
    rw [List.flatten_cons, List.length_append]
    exact Nat.add_pos_left (List.length_pos_iff.mpr hpoint.ne_nil) _

/-- The reader takes a payload just when it gives every point in order with a scalar for each
variable that reaches the point, and reads nothing behind the last of these. -/
theorem asciiPayload_accounts (limits : ValidationLimits) (complexValues unpadded : Bool)
    {points : ℕ+} (variableLengths : List (VariableLength points)) (text : List Char) :
    (∀ axis rest, asciiPayload limits complexValues variableLengths unpadded (fileLines [] text) =
        .ok (axis, rest) ↔
      valueCount variableLengths unpadded * (if complexValues then 2 else 1) ≤
          limits.maxNumericValues ∧
        ∃ read values, fileLines [] text = read ++ rest ∧
          IsPayload limits complexValues unpadded variableLengths read values ∧
            axis = axisOf values) ∧
    ∀ read values, IsPayload limits complexValues unpadded variableLengths read values →
      values.flatten.length = valueCount variableLengths unpadded ∧
        (read.filter fun line => !isBlank line).length = valueCount variableLengths unpadded := by
  refine ⟨fun axis rest => ?_, fun read values h => ⟨h.length_eq, h.lines_eq.trans h.length_eq⟩⟩
  unfold asciiPayload
  dsimp only
  rw [Except.guard_eq_ok, Except.guard_eq_ok, validateAsciiPayload_eq_ok, not_lt]
  constructor
  · rintro ⟨-, hscalars, h⟩
    exact ⟨hscalars, h⟩
  · rintro ⟨hscalars, read, values, hlines, hpayload, haxis⟩
    refine ⟨?_, hscalars, read, values, hlines, hpayload, haxis⟩
    have hpos := hpayload.pos
    have hle : valueCount variableLengths unpadded ≤
        valueCount variableLengths unpadded * if complexValues then 2 else 1 := by
      apply Nat.le_mul_of_pos_right
      split_ifs <;> omega
    omega

/-- Two variables over two points, of which the second ends behind the first point. -/
def shortVariable : List (VariableLength 2) := [⟨2, by decide⟩, ⟨1, by decide⟩]

/-- A variable without padding has no scalar behind its length, and the payload is taken. -/
theorem shortVariable_accepted :
    (asciiPayload defaultLimits false shortVariable true
      (fileLines [] "0 1\n2\n1 3\n".toList)).toOption.isSome = true ∧
      ∀ read values, IsPayload defaultLimits false true shortVariable read values →
        values.flatten.length ≠ 2 * shortVariable.length := by
  refine ⟨by decide +kernel, fun read values h => ?_⟩
  rw [h.length_eq]
  decide

end Payload

end OpenADA.Ngspice
