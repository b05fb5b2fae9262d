import OpenADA.Library.Binary64
import OpenADA.Ngspice.Log

/-! The measurements that a log of the simulator reports: which lines are read, and which of their
values are kept. -/
namespace OpenADA.Ngspice

open PyText LinePattern Scalars

section Reader

/-- The classes of characters, the digits and the case mapping of the interpreter. -/
structure Unicode where
  words : WordClass
  digits : DigitClass
  digit : Char → ℕ
  cases : CaseMap

variable (unicode : Unicode)

def greedy (p : Char → Bool) (previous : Option Char) : List Char → List (List Char × Place)
  | [] => [([], (previous, []))]
  | c :: rest =>
    if p c then
      ((greedy p (some c) rest).map fun found => (c :: found.1, found.2)) ++
        [([], (previous, c :: rest))]
    else [([], (previous, c :: rest))]

def tried : Pattern → Place → List (List Char × Place)
  | .empty, place => [([], place)]
  | .char p, place =>
    match place.2 with
    | [] => []
    | c :: rest => if p c then [([c], (some c, rest))] else []
  | .gap p, place => greedy p place.1 place.2
  | .boundary, place =>
    if place.1.any unicode.words.isWord = place.2.head?.any unicode.words.isWord then []
    else [([], place)]
  | .seq first second, place => (tried first place).flatMap fun found =>
      (tried second found.2).map fun more => (found.1 ++ more.1, more.2)
  | .either first second, place => tried first place ++ tried second place

/-- The texts of the two groups of a pattern, where the match that is tried first has them. -/
def groups (before first between second after : Pattern) (line : List Char) :
    Option (List Char × List Char) :=
  ((tried unicode before (none, line)).flatMap fun start =>
    (tried unicode first start.2).flatMap fun one =>
      (tried unicode between one.2).flatMap fun middle =>
        (tried unicode second middle.2).flatMap fun two =>
          (tried unicode after two.2).map fun _ => (one.1, two.1)).head?

def nameTail : Pattern :=
  .gap fun c => unicode.words.isWord c || decide (c ∈ ['.', '$', '#', '-'])

def optionalSign : Pattern := .optional (.char fun c => c = '+' || c = '-')

def digits : Pattern := .some unicode.digits.isDigit

/-- `[+-]?(?:\d+(?:\.\d*)?|\.\d+)(?:[eE][+-]?\d+)?` -/
def signedNumber : Pattern :=
  .sequence [optionalSign,
    .either (.seq (digits unicode)
        (.optional (.seq (.char (· = '.')) (.gap unicode.digits.isDigit))))
      (.seq (.char (· = '.')) (digits unicode)),
    .optional (.sequence [.char fun c => c = 'e' || c = 'E', optionalSign, digits unicode])]

def equals : Pattern := .sequence [spaces, phrase "=", spaces]

/-- `MEASUREMENT_RE.match`: the name and the text of the value. -/
def measurementMatch (line : List Char) : Option (List Char × List Char) :=
  groups unicode spaces (.seq (.char fun c => isLetter c || c = '_') (nameTail unicode)) equals
    (signedNumber unicode) .boundary line

/-- `NONFINITE_MEASUREMENT_RE.match`: the name. -/
def nonfiniteMatch (line : List Char) : Option (List Char) :=
  (groups unicode spaces (.seq (.char fun c => isLetterIgnoringCase c || c = '_')
    (nameTail unicode)) equals (.seq optionalSign (.anyOf [phrase "nan",
      .seq (phrase "inf") (.optional (phrase "inity"))])) .boundary line).map Prod.fst

/-- A name with the text of its value, unless that is not a finite number by its spelling. -/
structure Entry where
  name : List Char
  raw : Option (List Char)

inductive LogLine where
  | heading
  | blank
  | entry (entry : Entry)
  | other

def logLine (line : List Char) : LogLine :=
  if fullmatch unicode.words.isWord measurementSection line then .heading
  else if strip line = [] then .blank
  else
    match measurementMatch unicode line with
    | some (name, raw) => .entry ⟨name, some raw⟩
    | none =>
      match nonfiniteMatch unicode line with
      | some name => .entry ⟨name, none⟩
      | none => .other

/-- `float` of the text of a value, none where that is infinite. -/
def floatOf (raw : List Char) : Option ℚ :=
  match numberOf unicode.digits.isDigit unicode.digit raw with
  | some (number, _) => Binary64.nearest (number.value unicode.digit)
  | none => none

structure Measurement where
  name : List Char
  value : ℚ
  raw : List Char

/-- Where the scan stands: outside of a section, below its heading, or in its entries. -/
inductive Phase where
  | outside
  | waiting
  | reading
  deriving DecidableEq

structure ScanState where
  measurements : List Measurement
  invalid : List (List Char)
  duplicate : List (List Char)
  observed : List (List Char)
  phase : Phase
  sectionCount : ℕ

def ScanState.start : ScanState := ⟨[], [], [], [], .outside, 0⟩

def ScanState.observe (expected : List (List Char)) (state : ScanState) (entry : Entry) :
    ScanState :=
  let name := unicode.cases.lower entry.name
  let state := { state with phase := .reading }
  if name ∉ expected then state
  else if name ∈ state.observed then { state with duplicate := name :: state.duplicate }
  else
    let state := { state with observed := name :: state.observed }
    match entry.raw with
    | none => { state with invalid := name :: state.invalid }
    | some raw =>
      match floatOf unicode raw with
      | some value =>
        { state with measurements := state.measurements ++ [⟨entry.name, value, raw⟩] }
      | none => { state with invalid := name :: state.invalid }

def measurementStep (expected : List (List Char)) (state : ScanState) : LogLine → ScanState
  | .heading => { state with phase := .waiting, sectionCount := state.sectionCount + 1 }
  | .blank =>
    match state.phase with
    | .reading => { state with phase := .outside }
    | _ => state
  | .entry entry =>
    match state.phase with
    | .outside => state
    | _ => state.observe unicode expected entry
  | .other => { state with phase := .outside }

structure MeasurementReport where
  measurements : List Measurement
  invalid : List (List Char)
  duplicate : List (List Char)
  sectionCount : ℕ

/-- `_parse_measurement_sections`. -/
def parseMeasurementSections (expected : List (List Char)) (text : List Char) :
    MeasurementReport :=
  let state := ((splitLines text).map (logLine unicode)).foldl (measurementStep unicode expected)
    .start
  { measurements := state.measurements.filter fun item =>
      decide (unicode.cases.lower item.name ∉ state.duplicate)
    invalid := state.invalid
    duplicate := state.duplicate
    sectionCount := state.sectionCount }

end Reader

section Places

variable {lines : List LogLine} {line : LogLine} {i : ℕ} {entry : Entry}

def Waiting (lines : List LogLine) : Prop :=
  ∃ before gap, lines = before ++ .heading :: List.replicate gap .blank

def Reading (lines : List LogLine) : Prop :=
  ∃ (before : List LogLine) (gap : ℕ) (items : List Entry) (last : Entry), lines =
    before ++ .heading :: (List.replicate gap .blank ++ (items.map .entry ++ [.entry last]))

/-- The entry stands at the position, in a section: blank lines and entries only are between its
heading and the entry, and no blank line is behind an entry. -/
def Inside (lines : List LogLine) (i : ℕ) (entry : Entry) : Prop :=
  ∃ (before : List LogLine) (gap : ℕ) (items : List Entry) (after : List LogLine),
    lines = before ++ .heading ::
      (List.replicate gap .blank ++ (items.map .entry ++ .entry entry :: after)) ∧
    i = (before ++ LogLine.heading :: (List.replicate gap LogLine.blank ++
      items.map LogLine.entry)).length

theorem Inside.lt_length (h : Inside lines i entry) : i < lines.length := by
  obtain ⟨before, gap, items, after, rfl, rfl⟩ := h
  simp

theorem waiting_concat : Waiting (lines ++ [line]) ↔
    line = .heading ∨ (line = .blank ∧ Waiting lines) := by
  constructor
  · rintro ⟨before, gap, h⟩
    cases gap with
    | zero =>
      obtain ⟨-, hline⟩ := List.append_inj' h rfl
      exact Or.inl (List.singleton_inj.mp hline)
    | succ gap =>
      rw [List.replicate_succ', ← List.cons_append, ← List.append_assoc] at h
      obtain ⟨hlines, hline⟩ := List.append_inj' h rfl
      exact Or.inr ⟨List.singleton_inj.mp hline, before, gap, hlines⟩
  · rintro (rfl | ⟨rfl, before, gap, rfl⟩)
    · exact ⟨lines, 0, rfl⟩
    · refine ⟨before, gap + 1, ?_⟩
      rw [List.replicate_succ', List.append_assoc, List.cons_append]

theorem reading_concat : Reading (lines ++ [line]) ↔
    (∃ entry, line = .entry entry) ∧ (Waiting lines ∨ Reading lines) := by
  constructor
  · rintro ⟨before, gap, items, last, h⟩
    rw [← List.append_assoc, ← List.cons_append, ← List.append_assoc] at h
    obtain ⟨hlines, hline⟩ := List.append_inj' h rfl
    refine ⟨⟨last, List.singleton_inj.mp hline⟩, ?_⟩
    rcases List.eq_nil_or_concat' items with rfl | ⟨front, middle, rfl⟩
    · rw [List.map_nil, List.append_nil] at hlines
      exact Or.inl ⟨before, gap, hlines⟩
    · rw [List.map_append] at hlines
      exact Or.inr ⟨before, gap, front, middle, hlines⟩
  · rintro ⟨⟨entry, rfl⟩, ⟨before, gap, rfl⟩ | ⟨before, gap, items, last, rfl⟩⟩
    · refine ⟨before, gap, [], entry, ?_⟩
      rw [List.append_assoc, List.cons_append]
      rfl
    · refine ⟨before, gap, items ++ [last], entry, ?_⟩
      rw [List.append_assoc, List.cons_append, List.append_assoc, List.map_append]
      rfl

theorem inside_concat : Inside (lines ++ [line]) i entry ↔
    Inside lines i entry ∨
      (i = lines.length ∧ line = .entry entry ∧ (Waiting lines ∨ Reading lines)) := by
  constructor
  · rintro ⟨before, gap, items, after, h, rfl⟩
    rcases List.eq_nil_or_concat' after with rfl | ⟨after, last, rfl⟩
    · rw [← List.append_assoc, ← List.cons_append, ← List.append_assoc] at h
      obtain ⟨hlines, hline⟩ := List.append_inj' h rfl
      refine Or.inr ⟨congrArg List.length hlines.symm, List.singleton_inj.mp hline, ?_⟩
      rcases List.eq_nil_or_concat' items with rfl | ⟨front, middle, rfl⟩
      · rw [List.map_nil, List.append_nil] at hlines
        exact Or.inl ⟨before, gap, hlines⟩
      · rw [List.map_append] at hlines
        exact Or.inr ⟨before, gap, front, middle, hlines⟩
    · rw [← List.cons_append, ← List.append_assoc, ← List.append_assoc, ← List.cons_append,
        ← List.append_assoc] at h
      obtain ⟨hlines, -⟩ := List.append_inj' h rfl
      rw [List.append_assoc, List.append_assoc, List.cons_append] at hlines
      exact Or.inl ⟨before, gap, items, after, hlines, rfl⟩
  · rintro (⟨before, gap, items, after, rfl, rfl⟩ | ⟨rfl, rfl, hopen⟩)
    · refine ⟨before, gap, items, after ++ [line], ?_, rfl⟩
      simp only [List.append_assoc, List.cons_append]
    · rcases hopen with ⟨before, gap, rfl⟩ | ⟨before, gap, items, last, rfl⟩
      · refine ⟨before, gap, [], [], ?_, ?_⟩
        · rw [List.append_assoc, List.cons_append]
          rfl
        · rw [List.map_nil, List.append_nil]
      · refine ⟨before, gap, items ++ [last], [], ?_, ?_⟩
        · rw [List.append_assoc, List.cons_append, List.append_assoc, List.map_append]
          rfl
        · rw [List.map_append]
          rfl

end Places

section Invariant

variable {unicode : Unicode} {expected : List (List Char)} {lines : List LogLine} {line : LogLine}
  {state : ScanState} {i : ℕ} {entry : Entry}

/-- The entry stands in a section, and its name is this one in small letters. -/
def Named (unicode : Unicode) (lines : List LogLine) (name : List Char) (i : ℕ) (entry : Entry) :
    Prop :=
  Inside lines i entry ∧ unicode.cases.lower entry.name = name

structure Measures (unicode : Unicode) (entry : Entry) (item : Measurement) : Prop where
  name : entry.name = item.name
  raw : entry.raw = some item.raw
  value : floatOf unicode item.raw = some item.value

structure Scanned (unicode : Unicode) (expected : List (List Char)) (lines : List LogLine)
    (state : ScanState) : Prop where
  waiting : state.phase = .waiting ↔ Waiting lines
  reading : state.phase = .reading ↔ Reading lines
  observed : ∀ name, name ∈ state.observed ↔
    name ∈ expected ∧ ∃ i entry, Named unicode lines name i entry
  duplicate : ∀ name, name ∈ state.duplicate ↔ name ∈ expected ∧
    ∃ i j entry other, i ≠ j ∧ Named unicode lines name i entry ∧ Named unicode lines name j other
  measured : ∀ item ∈ state.measurements, unicode.cases.lower item.name ∈ expected ∧
    ∃ i entry, Inside lines i entry ∧ Measures unicode entry item
  complete : ∀ i entry item, Inside lines i entry → Measures unicode entry item →
    unicode.cases.lower item.name ∈ expected →
    (∀ j other, Named unicode lines (unicode.cases.lower item.name) j other → j = i) →
      item ∈ state.measurements
  distinct : (state.measurements.map fun item => unicode.cases.lower item.name).Nodup

theorem scanned_nil : Scanned unicode expected [] .start := by
  have hnone : ∀ i entry, ¬Inside [] i entry :=
    fun i entry h => absurd h.lt_length (Nat.not_lt_zero i)
  have hwaiting : ¬Waiting [] := by
    rintro ⟨before, gap, h⟩
    exact List.append_ne_nil_of_right_ne_nil _ (List.cons_ne_nil _ _) h.symm
  have hreading : ¬Reading [] := by
    rintro ⟨before, gap, items, last, h⟩
    exact List.append_ne_nil_of_right_ne_nil _ (List.cons_ne_nil _ _) h.symm
  constructor
  · exact iff_of_false (by simp [ScanState.start]) hwaiting
  · exact iff_of_false (by simp [ScanState.start]) hreading
  · simp [ScanState.start, Named, hnone]
  · simp [ScanState.start, Named, hnone]
  · simp [ScanState.start]
  · exact fun i entry item h => absurd h (hnone i entry)
  · exact List.nodup_nil

/-- A line that is no entry of a section leaves what is known of the entries. -/
theorem Scanned.skip (h : Scanned unicode expected lines state) {next : ScanState}
    (hinside : ∀ i entry, Inside (lines ++ [line]) i entry ↔ Inside lines i entry)
    (hobserved : next.observed = state.observed) (hduplicate : next.duplicate = state.duplicate)
    (hmeasured : next.measurements = state.measurements)
    (hwaiting : next.phase = .waiting ↔ Waiting (lines ++ [line]))
    (hreading : next.phase = .reading ↔ Reading (lines ++ [line])) :
    Scanned unicode expected (lines ++ [line]) next := by
  have hnamed : ∀ name i entry, Named unicode (lines ++ [line]) name i entry ↔
      Named unicode lines name i entry := fun name i entry => and_congr_left' (hinside i entry)
  constructor
  · exact hwaiting
  · exact hreading
  · simpa only [hobserved, hnamed] using h.observed
  · simpa only [hduplicate, hnamed] using h.duplicate
  · simpa only [hmeasured, hinside] using h.measured
  · simpa only [hmeasured, hinside, hnamed] using h.complete
  · simpa only [hmeasured] using h.distinct

theorem Scanned.opened (h : Scanned unicode expected lines state) :
    state.phase ≠ .outside ↔ Waiting lines ∨ Reading lines := by
  rw [← h.waiting, ← h.reading]
  cases state.phase <;> simp

def measurementOf (unicode : Unicode) (entry : Entry) : Option Measurement :=
  entry.raw.bind fun raw => (floatOf unicode raw).map fun value => ⟨entry.name, value, raw⟩

theorem measurementOf_eq_some {item : Measurement} :
    measurementOf unicode entry = some item ↔ Measures unicode entry item := by
  obtain ⟨name, raw⟩ := entry
  obtain ⟨itemName, value, itemRaw⟩ := item
  unfold measurementOf
  constructor
  · intro h
    obtain ⟨text, rfl, hvalue⟩ := Option.bind_eq_some_iff.mp h
    obtain ⟨number, hnumber, hitem⟩ := Option.map_eq_some_iff.mp hvalue
    obtain ⟨rfl, rfl, rfl⟩ := Measurement.mk.inj hitem
    exact ⟨rfl, rfl, hnumber⟩
  · intro h
    obtain rfl : name = itemName := h.name
    obtain rfl : raw = some itemRaw := h.raw
    have hvalue : floatOf unicode itemRaw = some value := h.value
    simp only [Option.bind_some, hvalue, Option.map_some]

theorem observe_fields (unicode : Unicode) (expected : List (List Char)) (state : ScanState)
    (entry : Entry) :
    let name := unicode.cases.lower entry.name
    let next := state.observe unicode expected entry
    next.phase = .reading ∧
      next.observed = (if name ∈ expected ∧ name ∉ state.observed then name :: state.observed
        else state.observed) ∧
      next.duplicate = (if name ∈ expected ∧ name ∈ state.observed then name :: state.duplicate
        else state.duplicate) ∧
      next.measurements = (if name ∈ expected ∧ name ∉ state.observed then
        state.measurements ++ (measurementOf unicode entry).toList else state.measurements) := by
  obtain ⟨text, raw⟩ := entry
  dsimp only [ScanState.observe, measurementOf]
  by_cases hexpected : unicode.cases.lower text ∈ expected
  · by_cases hobserved : unicode.cases.lower text ∈ state.observed
    · simp [hexpected, hobserved]
    · cases raw with
      | none => simp [hexpected, hobserved]
      | some raw =>
        cases hvalue : floatOf unicode raw with
        | none => simp [hexpected, hobserved, hvalue]
        | some value => simp [hexpected, hobserved, hvalue]
  · simp [hexpected]

theorem named_concat (hopen : Waiting lines ∨ Reading lines) {name : List Char} {other : Entry} :
    Named unicode (lines ++ [.entry entry]) name i other ↔ Named unicode lines name i other ∨
      (i = lines.length ∧ other = entry ∧ unicode.cases.lower entry.name = name) := by
  unfold Named
  rw [inside_concat]
  constructor
  · rintro ⟨hold | ⟨rfl, hentry, -⟩, hname⟩
    · exact Or.inl ⟨hold, hname⟩
    · obtain rfl := LogLine.entry.inj hentry
      exact Or.inr ⟨rfl, rfl, hname⟩
  · rintro (⟨hold, hname⟩ | ⟨rfl, rfl, hname⟩)
    · exact ⟨Or.inl hold, hname⟩
    · exact ⟨Or.inr ⟨rfl, rfl, hopen⟩, hname⟩

theorem mem_observe_observed {name : List Char} :
    name ∈ (state.observe unicode expected entry).observed ↔ name ∈ state.observed ∨
      (unicode.cases.lower entry.name = name ∧ name ∈ expected) := by
  rw [(observe_fields unicode expected state entry).2.1]
  split_ifs with h
  · rw [List.mem_cons]
    constructor
    · rintro (rfl | hold)
      · exact Or.inr ⟨rfl, h.1⟩
      · exact Or.inl hold
    · rintro (hold | ⟨rfl, -⟩)
      · exact Or.inr hold
      · exact Or.inl rfl
  · constructor
    · exact Or.inl
    · rintro (hold | ⟨rfl, hexpected⟩)
      · exact hold
      · exact not_not.mp fun hnot => h ⟨hexpected, hnot⟩

theorem mem_observe_duplicate {name : List Char} :
    name ∈ (state.observe unicode expected entry).duplicate ↔ name ∈ state.duplicate ∨
      (unicode.cases.lower entry.name = name ∧ name ∈ expected ∧ name ∈ state.observed) := by
  rw [(observe_fields unicode expected state entry).2.2.1]
  split_ifs with h
  · rw [List.mem_cons]
    constructor
    · rintro (rfl | hold)
      · exact Or.inr ⟨rfl, h⟩
      · exact Or.inl hold
    · rintro (hold | ⟨rfl, -⟩)
      · exact Or.inr hold
      · exact Or.inl rfl
  · constructor
    · exact Or.inl
    · rintro (hold | ⟨rfl, hagain⟩)
      · exact hold
      · exact absurd hagain h

theorem mem_observe_measurements {item : Measurement} :
    item ∈ (state.observe unicode expected entry).measurements ↔ item ∈ state.measurements ∨
      (unicode.cases.lower entry.name ∈ expected ∧
        unicode.cases.lower entry.name ∉ state.observed ∧ Measures unicode entry item) := by
  rw [(observe_fields unicode expected state entry).2.2.2, ← measurementOf_eq_some]
  split_ifs with h
  · rw [List.mem_append, Option.mem_toList]
    exact or_congr_right ⟨fun hitem => ⟨h.1, h.2, hitem⟩, fun hitem => hitem.2.2⟩
  · exact ⟨Or.inl, fun hitem => hitem.resolve_right fun hnew => h ⟨hnew.1, hnew.2.1⟩⟩

theorem Scanned.name_observed (h : Scanned unicode expected lines state) {item : Measurement}
    (hitem : item ∈ state.measurements) : unicode.cases.lower item.name ∈ state.observed := by
  obtain ⟨hexpected, i, entry, hinside, hmeasures⟩ := h.measured item hitem
  apply (h.observed _).mpr
  exact ⟨hexpected, i, entry, hinside, congrArg unicode.cases.lower hmeasures.name⟩

/-- The names of the measurements stay distinct: an entry whose name was observed adds none. -/
theorem Scanned.observe_distinct (h : Scanned unicode expected lines state) (entry : Entry) :
    ((state.observe unicode expected entry).measurements.map fun item =>
      unicode.cases.lower item.name).Nodup := by
  rw [(observe_fields unicode expected state entry).2.2.2]
  split_ifs with hnew
  · rw [List.map_append, List.nodup_append]
    refine ⟨h.distinct, ?_, ?_⟩
    · cases measurementOf unicode entry with
      | none => exact List.nodup_nil
      | some item => exact List.nodup_singleton _
    · intro name hname other hother
      obtain ⟨item, hitem, rfl⟩ := List.mem_map.mp hname
      obtain ⟨added, hadded, rfl⟩ := List.mem_map.mp hother
      have hmeasures := measurementOf_eq_some.mp (Option.mem_toList.mp hadded)
      intro hsame
      apply hnew.2
      rw [hmeasures.name, ← hsame]
      exact h.name_observed hitem
  · exact h.distinct

theorem Scanned.observe (h : Scanned unicode expected lines state)
    (hopen : Waiting lines ∨ Reading lines) (entry : Entry) :
    Scanned unicode expected (lines ++ [.entry entry]) (state.observe unicode expected entry) := by
  have hphase := (observe_fields unicode expected state entry).1
  have hlength {name : List Char} {other : Entry} : ¬Named unicode lines name lines.length other :=
    fun hnamed => lt_irrefl _ hnamed.1.lt_length
  constructor
  · rw [hphase, waiting_concat]
    simp
  · rw [hphase, reading_concat]
    simp [hopen]
  · intro name
    rw [mem_observe_observed, h.observed]
    constructor
    · rintro (⟨hexpected, j, other, hnamed⟩ | ⟨hname, hexpected⟩)
      · exact ⟨hexpected, j, other, (named_concat hopen).mpr (Or.inl hnamed)⟩
      · exact ⟨hexpected, _, _, (named_concat hopen).mpr (Or.inr ⟨rfl, rfl, hname⟩)⟩
    · rintro ⟨hexpected, j, other, hnamed⟩
      rcases (named_concat hopen).mp hnamed with hold | ⟨-, -, hname⟩
      · exact Or.inl ⟨hexpected, j, other, hold⟩
      · exact Or.inr ⟨hname, hexpected⟩
  · intro name
    rw [mem_observe_duplicate, h.duplicate, h.observed]
    constructor
    · rintro (⟨hexpected, i, j, one, other, hne, hi, hj⟩ | ⟨hname, hexpected, -, i, one, hi⟩)
      · refine ⟨hexpected, i, j, one, other, hne, ?_, ?_⟩
        · exact (named_concat hopen).mpr (Or.inl hi)
        · exact (named_concat hopen).mpr (Or.inl hj)
      · refine ⟨hexpected, i, lines.length, one, entry, ?_, ?_, ?_⟩
        · exact hi.1.lt_length.ne
        · exact (named_concat hopen).mpr (Or.inl hi)
        · exact (named_concat hopen).mpr (Or.inr ⟨rfl, rfl, hname⟩)
    · rintro ⟨hexpected, i, j, one, other, hne, hi, hj⟩
      -- one of the two places is behind the new entry
      rcases (named_concat hopen).mp hi with hfirst | ⟨hi, -, hname⟩
      · rcases (named_concat hopen).mp hj with hsecond | ⟨-, -, hname⟩
        · exact Or.inl ⟨hexpected, i, j, one, other, hne, hfirst, hsecond⟩
        · exact Or.inr ⟨hname, hexpected, hexpected, i, one, hfirst⟩
      · rcases (named_concat hopen).mp hj with hsecond | ⟨hj, -, -⟩
        · exact Or.inr ⟨hname, hexpected, hexpected, j, other, hsecond⟩
        · exact absurd (hi.trans hj.symm) hne
  · intro item hitem
    rcases mem_observe_measurements.mp hitem with hold | ⟨hexpected, -, hmeasures⟩
    · obtain ⟨hexpected, j, other, hinside, hmeasures⟩ := h.measured item hold
      exact ⟨hexpected, j, other, inside_concat.mpr (Or.inl hinside), hmeasures⟩
    · rw [hmeasures.name] at hexpected
      exact ⟨hexpected, _, entry, inside_concat.mpr (Or.inr ⟨rfl, rfl, hopen⟩), hmeasures⟩
  · intro i one item hinside hmeasures hexpected honly
    apply mem_observe_measurements.mpr
    rcases inside_concat.mp hinside with hold | ⟨rfl, hentry, -⟩
    · refine Or.inl (h.complete i one item hold hmeasures hexpected ?_)
      intro j other hnamed
      exact honly j other ((named_concat hopen).mpr (Or.inl hnamed))
    · obtain rfl := LogLine.entry.inj hentry
      refine Or.inr ⟨by rwa [hmeasures.name], ?_, hmeasures⟩
      intro hobserved
      obtain ⟨-, j, other, hnamed⟩ := (h.observed _).mp hobserved
      rw [hmeasures.name] at hnamed
      have hj := honly j other ((named_concat hopen).mpr (Or.inl hnamed))
      exact hlength (hj ▸ hnamed)
  · exact h.observe_distinct entry

theorem Scanned.heading (h : Scanned unicode expected lines state) :
    Scanned unicode expected (lines ++ [.heading])
      (measurementStep unicode expected state .heading) := by
  refine h.skip ?_ rfl rfl rfl ?_ ?_
  · intro i entry
    rw [inside_concat]
    simp
  · rw [waiting_concat]
    exact iff_of_true rfl (Or.inl rfl)
  · rw [reading_concat]
    exact iff_of_false (by simp [measurementStep]) (by simp)

/-- A blank line ends the entries of a section, and is passed over before them. -/
theorem Scanned.blank (h : Scanned unicode expected lines state) :
    Scanned unicode expected (lines ++ [.blank])
      (measurementStep unicode expected state .blank) := by
  have hinside (i : ℕ) (entry : Entry) :
      Inside (lines ++ [.blank]) i entry ↔ Inside lines i entry := by
    rw [inside_concat]
    simp
  have hreading : ¬Reading (lines ++ [.blank]) := by
    rw [reading_concat]
    simp
  have hwaiting : Waiting (lines ++ [.blank]) ↔ state.phase = .waiting := by
    rw [waiting_concat, h.waiting]
    simp
  cases hphase : state.phase <;> simp only [measurementStep, hphase]
  · refine h.skip hinside rfl rfl rfl ?_ (iff_of_false (by simp [hphase]) hreading)
    rw [hwaiting]
  · refine h.skip hinside rfl rfl rfl ?_ (iff_of_false (by simp [hphase]) hreading)
    rw [hwaiting]
  · refine h.skip hinside rfl rfl rfl ?_ (iff_of_false (by simp) hreading)
    rw [hwaiting, hphase]
    simp

theorem Scanned.other (h : Scanned unicode expected lines state) :
    Scanned unicode expected (lines ++ [.other])
      (measurementStep unicode expected state .other) := by
  refine h.skip ?_ rfl rfl rfl ?_ ?_
  · intro i entry
    rw [inside_concat]
    simp
  · rw [waiting_concat]
    exact iff_of_false (by simp [measurementStep]) (by simp)
  · rw [reading_concat]
    exact iff_of_false (by simp [measurementStep]) (by simp)

theorem Scanned.read (h : Scanned unicode expected lines state) (entry : Entry) :
    Scanned unicode expected (lines ++ [.entry entry])
      (measurementStep unicode expected state (.entry entry)) := by
  by_cases hphase : state.phase = .outside
  · have hclosed : ¬(Waiting lines ∨ Reading lines) := by
      rw [← h.opened]
      exact not_not.mpr hphase
    simp only [measurementStep, hphase]
    refine h.skip ?_ rfl rfl rfl ?_ ?_
    · intro i other
      rw [inside_concat]
      simp [hclosed]
    · rw [waiting_concat]
      exact iff_of_false (by simp [hphase]) (by simp)
    · rw [reading_concat]
      exact iff_of_false (by simp [hphase]) (by simp [hclosed])
  · have hstep : measurementStep unicode expected state (.entry entry) =
        state.observe unicode expected entry := by
      cases hcase : state.phase with
      | outside => exact absurd hcase hphase
      | waiting => simp only [measurementStep, hcase]
      | reading => simp only [measurementStep, hcase]
    rw [hstep]
    exact h.observe (h.opened.mp hphase) entry

theorem Scanned.step (h : Scanned unicode expected lines state) (line : LogLine) :
    Scanned unicode expected (lines ++ [line]) (measurementStep unicode expected state line) := by
  cases line with
  | heading => exact h.heading
  | blank => exact h.blank
  | entry entry => exact h.read entry
  | other => exact h.other

theorem scanned_foldl (unicode : Unicode) (expected : List (List Char)) (lines : List LogLine) :
    Scanned unicode expected lines (lines.foldl (measurementStep unicode expected) .start) := by
  induction lines using List.reverseRecOn with
  | nil => exact scanned_nil
  | append_singleton lines line ih =>
    rw [List.foldl_concat]
    exact ih.step line

end Invariant

section Report

variable (unicode : Unicode) (expected : List (List Char))

/-- The measurements reported for a log are exactly the finite ones of the entries whose name is
expected and occurs once in the sections, and their names are distinct. -/
theorem parseMeasurementSections_unique (text : List Char) :
    let lines := (splitLines text).map (logLine unicode)
    let report := (parseMeasurementSections unicode expected text).measurements
    (∀ item, item ∈ report ↔ unicode.cases.lower item.name ∈ expected ∧
      ∃ i entry, Inside lines i entry ∧ Measures unicode entry item ∧
        ∀ j other, Named unicode lines (unicode.cases.lower item.name) j other → j = i) ∧
    (report.map fun item => unicode.cases.lower item.name).Nodup := by
  intro lines report
  have hscanned := scanned_foldl unicode expected lines
  have hmem (item : Measurement) : item ∈ report ↔
      item ∈ (lines.foldl (measurementStep unicode expected) .start).measurements ∧
        unicode.cases.lower item.name ∉
          (lines.foldl (measurementStep unicode expected) .start).duplicate := by
    dsimp only [report, parseMeasurementSections]
    rw [List.mem_filter, decide_eq_true_iff]
  constructor
  · intro item
    rw [hmem]
    constructor
    · rintro ⟨hmeasured, honce⟩
      obtain ⟨hexpected, i, entry, hinside, hmeasures⟩ := hscanned.measured item hmeasured
      have hnamed : Named unicode lines (unicode.cases.lower item.name) i entry :=
        ⟨hinside, congrArg unicode.cases.lower hmeasures.name⟩
      refine ⟨hexpected, i, entry, hinside, hmeasures, ?_⟩
      intro j other hother
      by_contra hne
      apply honce
      apply (hscanned.duplicate _).mpr
      exact ⟨hexpected, j, i, other, entry, hne, hother, hnamed⟩
    · rintro ⟨hexpected, i, entry, hinside, hmeasures, honly⟩
      refine ⟨hscanned.complete i entry item hinside hmeasures hexpected honly, ?_⟩
      intro hduplicate
      obtain ⟨-, j, k, one, other, hne, hj, hk⟩ := (hscanned.duplicate _).mp hduplicate
      exact hne ((honly j one hj).trans (honly k other hk).symm)
  · exact hscanned.distinct.sublist (List.filter_sublist.map _)

end Report

end OpenADA.Ngspice
