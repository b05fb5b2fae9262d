import OpenADA.Library.Binary64
import OpenADA.Library.ExceptFold
import OpenADA.Scalars.Literal

/-! The validator of the tables that the simulator writes as text. The bytes of a file are the
characters of the same numbers. -/
namespace OpenADA.Ngspice

open PyText SpiceText Scalars

structure ValidationLimits where
  maxFileBytes : ℕ
  maxLineBytes : ℕ
  maxNumericValues : ℕ
  maxWrdataRows : ℕ
  maxWrdataColumns : ℕ
  maxWrdataHeaders : ℕ
  maxWrdataSections : ℕ

/-- `DEFAULT_LIMITS`. -/
def defaultLimits : ValidationLimits where
  maxFileBytes := 268435456
  maxLineBytes := 65536
  maxNumericValues := 33554432
  maxWrdataRows := 25000000
  maxWrdataColumns := 16384
  maxWrdataHeaders := 100000
  maxWrdataSections := 100000

section Reader

def nonFiniteTokens : List (List Char) :=
  ["+inf", "+infinity", "-inf", "-infinity", "inf", "infinity", "nan"].map String.toList

def exponentMark (c : Char) : Char := if c = 'd' then 'e' else if c = 'D' then 'E' else c

/-- `_wrdata_number`: the float of a token that is a number, none where that is not finite. -/
def wrdataNumber (token : List Char) : Option (Option ℚ) :=
  if token.map Char.toLower ∈ nonFiniteTokens then some none
  else
    match numberOf Char.isDigit (fun c => c.toNat - 48) (token.map exponentMark) with
    | some (number, []) => some (Binary64.nearest (number.value fun c => c.toNat - 48))
    | _ => none

/-- The lines of a file with their newlines; `line` is the line read so far. -/
def fileLines (line : List Char) : List Char → List (List Char)
  | [] => if line.isEmpty then [] else [line]
  | c :: rest =>
    if c = '\n' then (line ++ [c]) :: fileLines [] rest else fileLines (line ++ [c]) rest

/-- What a line is: nothing, the names of columns, or a row of finite numbers. -/
inductive Line where
  | blank
  | header (columns : ℕ)
  | data (columns : ℕ)
  deriving DecidableEq

def readLine (limits : ValidationLimits) (line : List Char) : Except String Line :=
  let tokens := words isCSpace line
  let parsed := tokens.map wrdataNumber
  let numericTokens := (parsed.filter Option.isSome).length
  if limits.maxLineBytes < line.length then .error "wrdata.line_too_long"
  else if tokens = [] then .ok .blank
  else if limits.maxWrdataColumns < tokens.length then .error "wrdata.too_many_columns"
  else if numericTokens = 0 then
    if tokens.length < 2 then .error "wrdata.header_invalid" else .ok (.header tokens.length)
  else if numericTokens ≠ tokens.length then .error "wrdata.mixed_row"
  else if tokens.length < 2 then .error "wrdata.row_shape_invalid"
  else if parsed.any fun value => !value.any Option.isSome then .error "wrdata.non_finite_value"
  else .ok (.data tokens.length)

structure State where
  rowCount : ℕ
  numericValueCount : ℕ
  headerCount : ℕ
  sectionCount : ℕ
  columnCounts : Finset ℕ
  currentColumns : Option ℕ
  pendingHeaderColumns : Option ℕ
  deriving DecidableEq

def State.start : State := ⟨0, 0, 0, 0, ∅, none, none⟩

/-- A data row in its section, without the limits; a change of width starts a new section. -/
def State.withRow (state : State) (columns : ℕ) : State where
  rowCount := state.rowCount + 1
  numericValueCount := state.numericValueCount + columns
  headerCount := state.headerCount
  sectionCount :=
    if state.pendingHeaderColumns.isSome then state.sectionCount + 1
    else if state.currentColumns.isNone then state.sectionCount + 1
    else if state.currentColumns ≠ some columns then state.sectionCount + 1
    else state.sectionCount
  columnCounts := insert columns state.columnCounts
  currentColumns := some columns
  pendingHeaderColumns := none

def advance (limits : ValidationLimits) (state : State) : Line → Except String State
  | .blank => .ok { state with currentColumns := none }
  | .header columns =>
    if state.pendingHeaderColumns.isSome then .error "wrdata.header_without_data"
    else if limits.maxWrdataHeaders < state.headerCount + 1 then .error "wrdata.too_many_headers"
    else .ok { state with
      headerCount := state.headerCount + 1
      pendingHeaderColumns := some columns
      currentColumns := none }
  | .data columns =>
    if state.pendingHeaderColumns.any fun pending => decide (columns ≠ pending) then
      .error "wrdata.header_shape_mismatch"
    else if limits.maxWrdataSections < (state.withRow columns).sectionCount then
      .error "wrdata.too_many_sections"
    else if limits.maxWrdataRows < (state.withRow columns).rowCount then
      .error "wrdata.too_many_rows"
    else if limits.maxNumericValues < (state.withRow columns).numericValueCount then
      .error "wrdata.too_many_values"
    else .ok (state.withRow columns)

structure Metadata where
  bytes : ℕ
  rowCount : ℕ
  numericValueCount : ℕ
  headerRowCount : ℕ
  sectionCount : ℕ
  shapeCount : ℕ
  columnCountMin : ℕ
  columnCountMax : ℕ
  deriving DecidableEq

def State.metadata (state : State) (bytes : ℕ) : Metadata where
  bytes := bytes
  rowCount := state.rowCount
  numericValueCount := state.numericValueCount
  headerRowCount := state.headerCount
  sectionCount := state.sectionCount
  shapeCount := state.columnCounts.card
  columnCountMin := state.columnCounts.min.untopD 0
  columnCountMax := state.columnCounts.max.unbotD 0

/-- `validate_ngspice_wrdata` of the bytes of a file. -/
def validateNgspiceWrdata (limits : ValidationLimits) (text : List Char) :
    Except String Metadata :=
  if text = [] then .error "file.empty"
  else if limits.maxFileBytes < text.length then .error "file.too_large"
  else do
    let state ← (fileLines [] text).foldlM
      (fun state line => readLine limits line >>= advance limits state) .start
    if state.pendingHeaderColumns.isSome then .error "wrdata.header_without_data"
    else if state.rowCount = 0 ∨ state.numericValueCount = 0 then .error "wrdata.no_finite_data"
    else .ok (state.metadata text.length)

end Reader

section Sections

/-- Data rows of one width, with their header row if there is one: the blank lines before them, the
blank lines below the header row, the width, and the number of rows after the first. -/
structure Section where
  before : ℕ
  header : Option ℕ
  columns : ℕ
  more : ℕ

def Section.rows (s : Section) : ℕ := s.more + 1

def blanks (count : ℕ) : List Line := List.replicate count .blank

def Section.lines (s : Section) : List Line :=
  blanks s.before ++ (s.header.elim [] fun gap => .header s.columns :: blanks gap) ++
    List.replicate s.rows (.data s.columns)

/-- Without a header row a section is told from the one before it by a blank line or its width. -/
def Separate (first second : Section) : Prop :=
  second.header.isSome ∨ 0 < second.before ∨ first.columns ≠ second.columns

/-- What comes behind the sections: blank lines, or a header row without its data. -/
inductive Tail where
  | blank (count : ℕ)
  | header (before columns gap : ℕ)

def Tail.lines : Tail → List Line
  | .blank count => blanks count
  | .header before columns gap => blanks before ++ .header columns :: blanks gap

structure Partial where
  sections : List Section
  tail : Tail

def Partial.lines (x : Partial) : List Line := x.sections.flatMap Section.lines ++ x.tail.lines

def Partial.currentColumns (x : Partial) : Option ℕ :=
  match x.tail with
  | .blank 0 => x.sections.getLast?.map Section.columns
  | _ => none

def Partial.pendingHeaderColumns (x : Partial) : Option ℕ :=
  match x.tail with
  | .blank _ => none
  | .header _ columns _ => some columns

def Partial.state (x : Partial) : State where
  rowCount := (x.sections.map Section.rows).sum
  numericValueCount := (x.sections.map fun s => s.rows * s.columns).sum
  headerCount := x.sections.countP (fun s => s.header.isSome) + x.pendingHeaderColumns.toList.length
  sectionCount := x.sections.length
  columnCounts := (x.sections.map Section.columns).toFinset
  currentColumns := x.currentColumns
  pendingHeaderColumns := x.pendingHeaderColumns

inductive Extends : Partial → Line → Partial → Prop
  | blank (sections : List Section) (n : ℕ) :
    Extends ⟨sections, .blank n⟩ .blank ⟨sections, .blank (n + 1)⟩
  | gap (sections : List Section) (before columns gap : ℕ) :
    Extends ⟨sections, .header before columns gap⟩ .blank
      ⟨sections, .header before columns (gap + 1)⟩
  | header (sections : List Section) (n columns : ℕ) :
    Extends ⟨sections, .blank n⟩ (.header columns) ⟨sections, .header n columns 0⟩
  | named (sections : List Section) (before columns gap : ℕ) :
    Extends ⟨sections, .header before columns gap⟩ (.data columns)
      ⟨sections ++ [⟨before, some gap, columns, 0⟩], .blank 0⟩
  | more (sections : List Section) (last : Section) :
    Extends ⟨sections ++ [last], .blank 0⟩ (.data last.columns)
      ⟨sections ++ [{ last with more := last.more + 1 }], .blank 0⟩
  | fresh (sections : List Section) (n columns : ℕ)
      (hfresh : ∀ last ∈ sections.getLast?, 0 < n ∨ last.columns ≠ columns) :
    Extends ⟨sections, .blank n⟩ (.data columns)
      ⟨sections ++ [⟨n, none, columns, 0⟩], .blank 0⟩

variable {x y : Partial} {line : Line} {limits : ValidationLimits} {state next : State}

def Partial.start : Partial := ⟨[], .blank 0⟩

def Partial.Told (x : Partial) : Prop := x.sections.IsChain Separate

theorem blanks_succ (n : ℕ) : blanks (n + 1) = blanks n ++ [.blank] := List.replicate_succ'

theorem Extends.lines_eq (h : Extends x line y) : y.lines = x.lines ++ [line] := by
  cases h with
  | blank sections n =>
    simp only [Partial.lines, Tail.lines, blanks_succ, List.append_assoc]
  | gap sections before columns gap =>
    simp only [Partial.lines, Tail.lines, blanks_succ, List.append_assoc, List.cons_append]
  | header sections n columns =>
    simp only [Partial.lines, Tail.lines, blanks, List.replicate_zero, List.append_assoc]
  | named sections before columns gap =>
    simp [Partial.lines, Tail.lines, Section.lines, Section.rows, blanks]
  | more sections last =>
    simp only [Partial.lines, Tail.lines, Section.lines, Section.rows, blanks, List.replicate_zero,
      List.append_nil, List.flatMap_append, List.flatMap_singleton, List.append_assoc]
    rw [List.replicate_succ' (n := last.more + 1)]
  | fresh sections n columns hfresh =>
    simp [Partial.lines, Tail.lines, Section.lines, Section.rows, blanks]

theorem isChain_concat {sections : List Section} {s : Section} :
    (sections ++ [s]).IsChain Separate ↔
      sections.IsChain Separate ∧ ∀ last ∈ sections.getLast?, Separate last s := by
  rw [List.isChain_append]
  simp

theorem Extends.told_iff (h : Extends x line y) : y.Told ↔ x.Told := by
  cases h with
  | blank sections n => exact Iff.rfl
  | gap sections before columns gap => exact Iff.rfl
  | header sections n columns => exact Iff.rfl
  | named sections before columns gap =>
    unfold Partial.Told
    rw [isChain_concat]
    exact and_iff_left fun last _ => Or.inl rfl
  | more sections last =>
    unfold Partial.Told
    rw [isChain_concat, isChain_concat]
    rfl
  | fresh sections n columns hfresh =>
    unfold Partial.Told
    rw [isChain_concat]
    exact and_iff_left fun last hlast => Or.inr (hfresh last hlast)

theorem exists_extends (htold : y.Told) (hne : y.lines ≠ []) : ∃ x line, Extends x line y := by
  obtain ⟨sections, tail⟩ := y
  cases tail with
  | blank n =>
    cases n with
    | succ n => exact ⟨_, _, .blank sections n⟩
    | zero =>
      rcases List.eq_nil_or_concat' sections with rfl | ⟨front, last, rfl⟩
      · exact absurd rfl hne
      · obtain ⟨before, header, columns, more⟩ := last
        cases more with
        | succ more => exact ⟨_, _, .more front ⟨before, header, columns, more⟩⟩
        | zero =>
          cases header with
          | some gap => exact ⟨_, _, .named front before columns gap⟩
          | none =>
            refine ⟨_, _, .fresh front before columns fun last hlast => ?_⟩
            have hseparate := (isChain_concat.mp htold).2 last hlast
            rcases hseparate with hnamed | hblank | hwidth
            · cases hnamed
            · exact Or.inl hblank
            · exact Or.inr hwidth
  | header before columns gap =>
    cases gap with
    | succ gap => exact ⟨_, _, .gap sections before columns gap⟩
    | zero => exact ⟨_, _, .header sections before columns⟩

def State.after (state : State) : Line → State
  | .blank => { state with currentColumns := none }
  | .header columns => { state with
      headerCount := state.headerCount + 1
      pendingHeaderColumns := some columns
      currentColumns := none }
  | .data columns => state.withRow columns

/-- A header row needs data rows of its width below it. -/
def State.Allows (state : State) : Line → Prop
  | .blank => True
  | .header _ => state.pendingHeaderColumns = none
  | .data columns => ∀ pending ∈ state.pendingHeaderColumns, columns = pending

structure Fits (limits : ValidationLimits) (state : State) : Prop where
  headers : state.headerCount ≤ limits.maxWrdataHeaders
  sections : state.sectionCount ≤ limits.maxWrdataSections
  rows : state.rowCount ≤ limits.maxWrdataRows
  values : state.numericValueCount ≤ limits.maxNumericValues

theorem withRow_sectionCount (state : State) (columns : ℕ) :
    state.sectionCount ≤ (state.withRow columns).sectionCount := by
  unfold State.withRow
  dsimp only
  split_ifs <;> omega

theorem Fits.of_after (h : Fits limits (state.after line)) : Fits limits state := by
  obtain ⟨hheaders, hsections, hrows, hvalues⟩ := h
  cases line with
  | blank => exact ⟨hheaders, hsections, hrows, hvalues⟩
  | header columns => exact ⟨(Nat.le_succ _).trans hheaders, hsections, hrows, hvalues⟩
  | data columns =>
    exact ⟨hheaders, (withRow_sectionCount state columns).trans hsections,
      (Nat.le_succ _).trans hrows, (Nat.le_add_right _ _).trans hvalues⟩

theorem advance_eq_ok (hfits : Fits limits state) : advance limits state line = .ok next ↔
    state.Allows line ∧ next = state.after line ∧ Fits limits next := by
  obtain ⟨hheaders, hsections, hrows, hvalues⟩ := hfits
  cases line with
  | blank =>
    rw [advance, Except.ok.injEq]
    constructor
    · rintro rfl
      exact ⟨trivial, rfl, hheaders, hsections, hrows, hvalues⟩
    · exact fun h => h.2.1.symm
  | header columns =>
    rw [advance]
    constructor
    · intro h
      split_ifs at h with hpending hlimit
      obtain rfl := Except.ok.inj h
      refine ⟨Option.not_isSome_iff_eq_none.mp hpending, rfl, ?_, hsections, hrows, hvalues⟩
      exact not_lt.mp hlimit
    · rintro ⟨hpending, rfl, hfits⟩
      have hnone : ¬state.pendingHeaderColumns.isSome = true :=
        Option.not_isSome_iff_eq_none.mpr hpending
      have hlimit : ¬limits.maxWrdataHeaders < state.headerCount + 1 := not_lt.mpr hfits.headers
      rw [if_neg hnone, if_neg hlimit]
      rfl
  | data columns =>
    rw [advance]
    have hallows : ¬(state.pendingHeaderColumns.any fun pending => decide (columns ≠ pending)) =
        true ↔ state.Allows (.data columns) := by
      rw [Option.any_eq_true]
      simp [State.Allows]
    constructor
    · intro h
      split_ifs at h with hwidth hsection hrow hvalue
      obtain rfl := Except.ok.inj h
      exact ⟨hallows.mp hwidth, rfl, hheaders, not_lt.mp hsection, not_lt.mp hrow,
        not_lt.mp hvalue⟩
    · rintro ⟨hwidth, rfl, hfits⟩
      obtain ⟨-, hsection, hrow, hvalue⟩ : Fits limits (state.withRow columns) := hfits
      rw [if_neg (hallows.mpr hwidth), if_neg (not_lt.mpr hsection), if_neg (not_lt.mpr hrow),
        if_neg (not_lt.mpr hvalue)]
      rfl

theorem currentColumns_concat (sections : List Section) (s : Section) :
    (Partial.mk (sections ++ [s]) (.blank 0)).currentColumns = some s.columns := by
  simp [Partial.currentColumns]

/-- A row starts a section where a blank line or another width stands before it. -/
theorem currentColumns_eq_some {sections : List Section} {n columns : ℕ} :
    (Partial.mk sections (.blank n)).currentColumns = some columns ↔
      n = 0 ∧ ∃ last ∈ sections.getLast?, last.columns = columns := by
  cases n with
  | zero =>
    show sections.getLast?.map Section.columns = some columns ↔ _
    rw [Option.map_eq_some_iff]
    exact (and_iff_right rfl).symm
  | succ n =>
    constructor
    · intro h
      cases h
    · rintro ⟨h, -⟩
      cases h

theorem Extends.state_eq (h : Extends x line y) : y.state = x.state.after line := by
  cases h with
  | blank sections n => rfl
  | gap sections before columns gap => rfl
  | header sections n columns => rfl
  | named sections before columns gap =>
    simp [Partial.state, State.after, State.withRow, Partial.currentColumns,
      Partial.pendingHeaderColumns, Section.rows]
  | more sections last =>
    simp only [Partial.state, State.after, State.withRow, currentColumns_concat]
    simp [Partial.pendingHeaderColumns, Section.rows]
    constructor
    · omega
    · ring
  | fresh sections n columns hfresh =>
    have hcurrent : (Partial.mk sections (.blank n)).currentColumns ≠ some columns := by
      rw [Ne, currentColumns_eq_some]
      rintro ⟨rfl, last, hlast, hwidth⟩
      rcases hfresh last hlast with hblank | hother
      · exact lt_irrefl _ hblank
      · exact hother hwidth
    simp only [Partial.state, State.after, State.withRow, currentColumns_concat]
    simp [Partial.pendingHeaderColumns, Section.rows, hcurrent]

theorem exists_extends_iff : x.state.Allows line ↔ ∃ y, Extends x line y := by
  obtain ⟨sections, tail⟩ := x
  cases line with
  | blank =>
    refine iff_of_true trivial ?_
    cases tail with
    | blank n => exact ⟨_, .blank sections n⟩
    | header before columns gap => exact ⟨_, .gap sections before columns gap⟩
  | header columns =>
    cases tail with
    | blank n => exact iff_of_true rfl ⟨_, .header sections n columns⟩
    | header before width gap =>
      constructor
      · intro h
        cases h
      · rintro ⟨y, h⟩
        cases h
  | data columns =>
    cases tail with
    | header before width gap =>
      constructor
      · intro h
        obtain rfl := h width rfl
        exact ⟨_, .named sections before columns gap⟩
      · rintro ⟨y, h⟩ pending hpending
        obtain rfl := Option.some.inj hpending
        cases h
        rfl
    | blank n =>
      have hallows : (Partial.mk sections (.blank n)).state.Allows (.data columns) := by
        intro pending hpending
        cases hpending
      refine iff_of_true hallows ?_
      by_cases hcurrent : (Partial.mk sections (.blank n)).currentColumns = some columns
      · obtain ⟨rfl, last, hlast, rfl⟩ := currentColumns_eq_some.mp hcurrent
        obtain ⟨front, rfl⟩ := List.getLast?_eq_some_iff.mp hlast
        exact ⟨_, .more front last⟩
      · rw [currentColumns_eq_some] at hcurrent
        refine ⟨_, .fresh sections n columns fun last hlast => ?_⟩
        by_contra hneither
        rw [not_or, not_not, Nat.not_lt, Nat.le_zero] at hneither
        exact hcurrent ⟨hneither.1, last, hlast, hneither.2⟩

theorem eq_start_of_lines (h : x.lines = []) : x = .start := by
  obtain ⟨sections, tail⟩ := x
  obtain ⟨hsections, htail⟩ := List.append_eq_nil_iff.mp h
  cases sections with
  | cons s rest =>
    rw [List.flatMap_cons, List.append_eq_nil_iff, Section.lines, List.append_eq_nil_iff] at hsections
    cases hsections.1.2
  | nil =>
    cases tail with
    | blank n =>
      cases n with
      | zero => rfl
      | succ n => cases htail
    | header before columns gap =>
      cases (List.append_eq_nil_iff.mp htail).2

theorem advance_run {lines : List Line} : lines.foldlM (advance limits) .start = .ok state ↔
    ∃ x : Partial, x.lines = lines ∧ x.Told ∧ state = x.state ∧ Fits limits state := by
  induction lines using List.reverseRecOn generalizing state with
  | nil =>
    constructor
    · intro h
      obtain rfl := Except.ok.inj h
      exact ⟨.start, rfl, List.isChain_nil, rfl, Nat.zero_le _, Nat.zero_le _, Nat.zero_le _,
        Nat.zero_le _⟩
    · rintro ⟨x, hlines, -, rfl, -⟩
      rw [eq_start_of_lines hlines]
      rfl
  | append_singleton lines line ih =>
    rw [List.foldlM_append, Except.bind_eq_ok]
    simp only [List.foldlM_cons, List.foldlM_nil]
    constructor
    · rintro ⟨before, hbefore, hstep⟩
      obtain ⟨x, rfl, htold, rfl, hfits⟩ := ih.mp hbefore
      obtain ⟨after, hafter, hlast⟩ := Except.bind_eq_ok.mp hstep
      obtain rfl := Except.ok.inj hlast
      obtain ⟨hallows, rfl, hfitsAfter⟩ := (advance_eq_ok hfits).mp hafter
      obtain ⟨y, hextends⟩ := exists_extends_iff.mp hallows
      exact ⟨y, hextends.lines_eq, hextends.told_iff.mpr htold, hextends.state_eq.symm, hfitsAfter⟩
    · rintro ⟨y, hlines, htold, rfl, hfits⟩
      obtain ⟨x, last, hextends⟩ := exists_extends htold (by rw [hlines]; simp)
      have hparts := hextends.lines_eq.symm.trans hlines
      obtain ⟨hfront, hlast⟩ := List.append_inj' hparts rfl
      obtain rfl := List.singleton_inj.mp hlast
      rw [hextends.state_eq] at hfits ⊢
      refine ⟨x.state, ih.mpr ⟨x, hfront, hextends.told_iff.mp htold, rfl, hfits.of_after⟩, ?_⟩
      rw [(advance_eq_ok hfits.of_after).mpr ⟨exists_extends_iff.mpr ⟨y, hextends⟩, rfl, hfits⟩]
      rfl

end Sections

section Validation

variable {limits : ValidationLimits} {text : List Char} {line : Line}

def KindOf (tokens : List (List Char)) : Line → Prop
  | .blank => tokens = []
  | .header columns => columns = tokens.length ∧ 2 ≤ columns ∧
    ∀ token ∈ tokens, wrdataNumber token = none
  | .data columns => columns = tokens.length ∧ 2 ≤ columns ∧
    ∀ token ∈ tokens, ∃ value, wrdataNumber token = some (some value)

structure IsLine (limits : ValidationLimits) (text : List Char) (line : Line) : Prop where
  bytes : text.length ≤ limits.maxLineBytes
  columns : (words isCSpace text).length ≤ limits.maxWrdataColumns
  kind : KindOf (words isCSpace text) line

theorem filter_isSome_eq_zero {tokens : List (List Char)} :
    ((tokens.map wrdataNumber).filter Option.isSome).length = 0 ↔
      ∀ token ∈ tokens, wrdataNumber token = none := by
  rw [List.length_eq_zero_iff, List.filter_eq_nil_iff, List.forall_mem_map]
  simp only [Option.not_isSome_iff_eq_none]

theorem filter_isSome_eq_length {tokens : List (List Char)} :
    ((tokens.map wrdataNumber).filter Option.isSome).length = tokens.length ↔
      ∀ token ∈ tokens, (wrdataNumber token).isSome := by
  rw [← List.length_map (f := wrdataNumber), List.length_filter_eq_length_iff, List.forall_mem_map]

theorem any_nonFinite_eq_false {tokens : List (List Char)} :
    ((tokens.map wrdataNumber).any fun value => !value.any Option.isSome) = false ↔
      ∀ token ∈ tokens, ∃ value, wrdataNumber token = some (some value) := by
  rw [List.any_eq_false, List.forall_mem_map]
  apply forall₂_congr
  intro token _
  cases wrdataNumber token with
  | none => simp
  | some value => cases value <;> simp

theorem readLine_eq_ok : readLine limits text = .ok line ↔ IsLine limits text line := by
  unfold readLine
  dsimp only
  constructor
  · intro h
    split_ifs at h with hbytes hblank hcolumns hnone hshort hmixed hshape hfinite
    · obtain rfl := Except.ok.inj h
      refine ⟨not_lt.mp hbytes, ?_, hblank⟩
      rw [hblank]
      exact Nat.zero_le _
    · obtain rfl := Except.ok.inj h
      exact ⟨not_lt.mp hbytes, not_lt.mp hcolumns, rfl, not_lt.mp hshort,
        filter_isSome_eq_zero.mp hnone⟩
    · obtain rfl := Except.ok.inj h
      exact ⟨not_lt.mp hbytes, not_lt.mp hcolumns, rfl, not_lt.mp hshape,
        any_nonFinite_eq_false.mp (Bool.eq_false_of_not_eq_true hfinite)⟩
  · rintro ⟨hbytes, hcolumns, hkind⟩
    rw [if_neg (not_lt.mpr hbytes)]
    cases line with
    | blank => rw [if_pos (show words isCSpace text = [] from hkind)]
    | header columns =>
      obtain ⟨rfl, hlong, hnone⟩ := hkind
      have htokens : words isCSpace text ≠ [] := fun h => by simp [h] at hlong
      rw [if_neg htokens, if_neg (not_lt.mpr hcolumns), if_pos (filter_isSome_eq_zero.mpr hnone),
        if_neg (not_lt.mpr hlong)]
    | data columns =>
      obtain ⟨rfl, hlong, hfinite⟩ := hkind
      have htokens : words isCSpace text ≠ [] := fun h => by simp [h] at hlong
      have hall : ((words isCSpace text).map wrdataNumber |>.filter Option.isSome).length =
          (words isCSpace text).length := filter_isSome_eq_length.mpr fun token htoken => by
        obtain ⟨value, hvalue⟩ := hfinite token htoken
        rw [hvalue]
        rfl
      have hnumbers : ((words isCSpace text).map wrdataNumber |>.filter Option.isSome).length ≠ 0 := by
        rw [hall]
        omega
      have hany := any_nonFinite_eq_false.mpr hfinite
      rw [if_neg htokens, if_neg (not_lt.mpr hcolumns), if_neg hnumbers, if_neg (not_not.mpr hall),
        if_neg (not_lt.mpr hlong), hany]
      rfl

def tableMetadata (sections : List Section) (bytes : ℕ) : Metadata where
  bytes := bytes
  rowCount := (sections.map Section.rows).sum
  numericValueCount := (sections.map fun s => s.rows * s.columns).sum
  headerRowCount := sections.countP fun s => s.header.isSome
  sectionCount := sections.length
  shapeCount := (sections.map Section.columns).toFinset.card
  columnCountMin := (sections.map Section.columns).toFinset.min.untopD 0
  columnCountMax := (sections.map Section.columns).toFinset.max.unbotD 0

/-- The lines are the sections with blank lines behind them, and the sections are told apart. -/
structure IsTable (lines : List Line) (sections : List Section) : Prop where
  nonempty : sections ≠ []
  lines_eq : ∃ trailing, lines = sections.flatMap Section.lines ++ blanks trailing
  separate : sections.IsChain Separate

structure Metadata.Within (metadata : Metadata) (limits : ValidationLimits) : Prop where
  bytes : metadata.bytes ≤ limits.maxFileBytes
  headers : metadata.headerRowCount ≤ limits.maxWrdataHeaders
  sections : metadata.sectionCount ≤ limits.maxWrdataSections
  rows : metadata.rowCount ≤ limits.maxWrdataRows
  values : metadata.numericValueCount ≤ limits.maxNumericValues

theorem table_counts {sections : List Section} (hne : sections ≠ [])
    (hcolumns : ∀ s ∈ sections, 2 ≤ s.columns) : (sections.map Section.rows).sum ≠ 0 ∧
      (sections.map fun s => s.rows * s.columns).sum ≠ 0 := by
  obtain ⟨s, hs⟩ := List.exists_mem_of_ne_nil sections hne
  have hwidth := hcolumns s hs
  have hrows : s.rows ≤ (sections.map Section.rows).sum :=
    List.le_sum_of_mem (List.mem_map.mpr ⟨s, hs, rfl⟩)
  have hvalues : s.rows * s.columns ≤ (sections.map fun s => s.rows * s.columns).sum :=
    List.le_sum_of_mem (List.mem_map.mpr ⟨s, hs, rfl⟩)
  have hpos : 0 < s.rows := Nat.succ_pos _
  have hproduct : 0 < s.rows * s.columns := Nat.mul_pos hpos (by omega)
  constructor
  · omega
  · omega

/-- A file is a table just when its lines are names of columns and rows of finite numbers that form
sections, and the counts are those of the sections. -/
theorem validateNgspiceWrdata_iff (limits : ValidationLimits) (text : List Char)
    (metadata : Metadata) : validateNgspiceWrdata limits text = .ok metadata ↔
      ∃ lines sections, List.Forall₂ (IsLine limits) (fileLines [] text) lines ∧
        IsTable lines sections ∧ metadata = tableMetadata sections text.length ∧
        metadata.Within limits := by
  have hforall {out : List Line} : List.Forall₂ (fun a b => readLine limits a = .ok b)
      (fileLines [] text) out ↔ List.Forall₂ (IsLine limits) (fileLines [] text) out := by
    simp only [readLine_eq_ok]
  unfold validateNgspiceWrdata
  constructor
  · intro h
    split_ifs at h with hempty hlarge
    obtain ⟨state, hrun, h⟩ := Except.bind_eq_ok.mp h
    split_ifs at h with hpending hnone
    obtain rfl := Except.ok.inj h
    obtain ⟨lines, hlines, hfold⟩ := Except.foldlM_bind_eq_ok.mp hrun
    obtain ⟨⟨sections, tail⟩, rfl, htold, rfl, hfits⟩ := advance_run.mp hfold
    rw [not_or] at hnone
    cases tail with
    | header before columns gap => exact absurd rfl hpending
    | blank n =>
      refine ⟨_, sections, hforall.mp hlines, ⟨?_, ⟨n, rfl⟩, htold⟩, rfl, not_lt.mp hlarge,
        hfits.headers, hfits.sections, hfits.rows, hfits.values⟩
      rintro rfl
      exact hnone.1 rfl
  · rintro ⟨lines, sections, hlines, ⟨hne, ⟨n, rfl⟩, hseparate⟩, rfl, hwithin⟩
    have hempty : text ≠ [] := by
      rintro rfl
      have hnil : sections.flatMap Section.lines ++ blanks n = [] :=
        List.forall₂_nil_left_iff.mp hlines
      have hstart := eq_start_of_lines (x := ⟨sections, .blank n⟩) hnil
      exact hne (congrArg Partial.sections hstart)
    have hrun := Except.foldlM_bind_eq_ok.mpr ⟨_, hforall.mpr hlines, advance_run.mpr
      ⟨⟨sections, .blank n⟩, rfl, hseparate, rfl, hwithin.headers, hwithin.sections, hwithin.rows,
        hwithin.values⟩⟩
    have hcolumns : ∀ s ∈ sections, 2 ≤ s.columns := by
      intro s hs
      have hmem : Line.data s.columns ∈ sections.flatMap Section.lines ++ blanks n := by
        refine List.mem_append_left _ (List.mem_flatMap.mpr ⟨s, hs, List.mem_append_right _ ?_⟩)
        exact List.mem_replicate.mpr ⟨Nat.succ_ne_zero _, rfl⟩
      obtain ⟨row, -, hrow⟩ :=
        Except.exists_of_mem_mapM (Except.mapM_eq_ok.mpr (hforall.mpr hlines)) hmem
      exact (readLine_eq_ok.mp hrow).kind.2.1
    obtain ⟨hrows, hvalues⟩ := table_counts hne hcolumns
    have hsize : ¬limits.maxFileBytes < text.length := not_lt.mpr hwithin.bytes
    rw [if_neg hempty, if_neg hsize, hrun, Except.ok_bind]
    have hcounts : ¬((Partial.mk sections (.blank n)).state.rowCount = 0 ∨
        (Partial.mk sections (.blank n)).state.numericValueCount = 0) := by
      rw [not_or]
      exact ⟨hrows, hvalues⟩
    have hpending : ¬(Partial.mk sections (.blank n)).state.pendingHeaderColumns.isSome = true :=
      Bool.noConfusion
    rw [if_neg hpending, if_neg hcounts]
    rfl

/-- Rows without a header row are a table. -/
theorem bare_rows_accepted :
    (validateNgspiceWrdata defaultLimits "0 1\n".toList).toOption.isSome = true ∧
      ∀ columns, ∀ line ∈ fileLines [] "0 1\n".toList,
        ¬IsLine defaultLimits line (.header columns) := by
  have hlines : fileLines [] "0 1\n".toList = ["0 1\n".toList] := by decide
  have hzero : ['0'] ∈ words isCSpace "0 1\n".toList := by decide
  refine ⟨by decide +kernel, fun columns line hline h => ?_⟩
  rw [hlines, List.mem_singleton] at hline
  subst hline
  have hnone := h.kind.2.2 ['0'] hzero
  revert hnone
  decide

end Validation

end OpenADA.Ngspice
