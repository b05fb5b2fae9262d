import OpenADA.Library.CharClass
import OpenADA.Library.LinePattern
import OpenADA.Lvs.Netgen
import OpenADA.Scalars.Readers

/-! The native report of an LVS comparison, read line by line: its terminal result, the blocks of
its comparisons and the failures that its lines state. -/
namespace OpenADA.Lvs

open PyText LinePattern Scalars

/-- The characters `\w` and `\d` match, with the values of the digits. -/
structure Alphabet where
  words : WordClass
  digits : DigitClass
  digitValue : Char → ℕ
  ascii : ∀ c, c.toNat < 128 → words.isWord c = (c.isAlphanum || decide (c = '_'))
  letters : ∀ c ∈ ['\u212a', '\u0130', '\u0131', '\u017f'], words.isWord c = true
  value : ∀ c, c.isDigit = true → digitValue c = c.toNat - 48

def maxReportBytes : ℕ := 256 * 1024 * 1024

def maxReportLineBytes : ℕ := 256 * 1024

/-- The digits `int` reads at most. -/
def maxIntegerDigits : ℕ := 4300

section Patterns

def phrase (text : String) : Pattern := .word looseLetter text.toList

def blanks : Pattern := .gap isSpace

/-- `\s+`. -/
def space : Pattern := .some isSpace

def bothNames : Pattern := .anyOf [phrase "circuits", phrase "netlists"]

/-- `_FINAL_MATCH_RE`. -/
def finalMatchRe : Pattern :=
  .sequence [phrase "final result:", blanks, bothNames, phrase " match uniquely.", blanks]

def failureResult : Pattern :=
  .anyOf [.sequence [bothNames, phrase " do not match"],
    phrase "circuits match uniquely with port errors",
    phrase "top level cell failed pin matching", phrase "subcell(s) failed matching",
    phrase "property errors were found"]

/-- `_FINAL_FAILURE_RE`. -/
def finalFailureRe : Pattern :=
  .sequence [phrase "final result:", blanks, failureResult, phrase ".", blanks]

/-- `_PROPERTY_FAILURE_RE`. -/
def propertyFailureRe : Pattern :=
  .sequence [.anyOf [phrase "property errors were found.",
    phrase "the following cells had property errors:"], blanks]

/-- `_UNIQUE_MATCH_RE`. -/
def uniqueMatchRe : Pattern := .sequence [bothNames, phrase " match uniquely.", blanks]

/-- `_TERMINAL_FAILURE_RE`. -/
def terminalFailureRe : Pattern := .sequence [failureResult, phrase ".", blanks]

/-- A phrase and an `s` that may be missing. -/
def plural (text : String) : Pattern := .seq (phrase text) (.optional (phrase "s"))

/-- `_NEGATED_MISMATCH_RE`. -/
def negatedMismatchRe : Pattern :=
  .anyOf [
    .sequence [.boundary, .anyOf [phrase "no", phrase "zero"], space, plural "mismatche", .boundary],
    .sequence [.boundary, phrase "mismatch", .optional (phrase "es"), blanks,
      .optional (phrase "count"), blanks, .char fun c => decide (c = ':' ∨ c = '='), blanks,
      phrase "0", .boundary]]

/-- `_FAILURE_RE`. -/
def failureRe : Pattern :=
  .anyOf [
    .sequence [.boundary, .anyOf [plural "netlist", plural "circuit"], space, phrase "do", space,
      phrase "not", space, phrase "match", .boundary],
    .sequence [.boundary, plural "mismatche", .boundary],
    .sequence [.boundary, plural "property error", .boundary],
    .sequence [.boundary, plural "port error", .boundary],
    .sequence [.boundary, phrase "failed ", .optional (phrase "pin "), phrase "matching",
      .boundary],
    .sequence [.boundary, plural "network", phrase " match locally but not globally", .boundary],
    .sequence [.boundary, phrase "no matching", .boundary]]

end Patterns

section Fields

def afterPhrase (text : String) (line : List Char) : Option (List Char) :=
  if text.toList.isPrefixOf (line.map looseLetter) then some (line.drop text.toList.length) else none

def splitAtPhrase (text : String) : List Char → Option (List Char × List Char)
  | [] => none
  | c :: rest =>
    match afterPhrase text (c :: rest) with
    | some behind => some ([], behind)
    | none => (splitAtPhrase text rest).map fun sides => (c :: sides.1, sides.2)

abbrev Binding := List Char × List Char

/-- `_CIRCUIT_PAIR_RE`. -/
def circuitPair (line : List Char) : Option Binding :=
  (afterPhrase "circuit 1:" line).bind fun rest =>
    (splitAtPhrase "|circuit 2:" (lstrip isSpace rest)).map fun sides =>
      (rstrip isSpace sides.1, strip sides.2)

/-- A word and the spaces before it, which may not be missing: `\s+(\S+)`. -/
def spacedWord (text : List Char) : Option (List Char × List Char) :=
  let rest := lstrip isSpace text
  let word := rest.takeWhile fun c => !isSpace c
  if text.head?.any isSpace = true ∧ word ≠ [] then
    some (word, rest.dropWhile fun c => !isSpace c)
  else none

/-- `_DEVICE_EQUIVALENCE_RE`. -/
def deviceEquivalence (line : List Char) : Option Binding := do
  let rest ← afterPhrase "device classes" line
  let (left, rest) ← spacedWord rest
  let (middle, rest) ← spacedWord rest
  let (right, rest) ← spacedWord rest
  let tail ← afterPhrase "are equivalent." (lstrip isSpace rest)
  if middle.map looseLetter = "and".toList ∧ rest.head?.any isSpace = true ∧ strip tail = [] then
    some (left, right)
  else none

variable (alphabet : Alphabet)

/-- The numerals of a line of counts: those of `_DEVICE_COUNT_RE` and of `_NET_COUNT_RE`. -/
def countDigits (label : String) (line : List Char) : Option Binding := do
  let rest ← afterPhrase label line
  let left := (lstrip isSpace rest).takeWhile alphabet.digits.isDigit
  let behind := lstrip isSpace ((lstrip isSpace rest).dropWhile alphabet.digits.isDigit)
  let rest ← afterPhrase "|" behind
  let rest ← afterPhrase label rest
  let right := (lstrip isSpace rest).takeWhile alphabet.digits.isDigit
  let tail := (lstrip isSpace rest).dropWhile alphabet.digits.isDigit
  if left ≠ [] ∧ right ≠ [] ∧ strip tail = [] then some (left, right) else none

def deviceDigits (line : List Char) : Option Binding := countDigits alphabet "number of devices:" line

def netDigits (line : List Char) : Option Binding := countDigits alphabet "number of nets:" line

def integer (digits : List Char) : ℕ :=
  digits.foldl (fun n c => 10 * n + alphabet.digitValue c) 0

def integers (digits : Binding) : ℕ × ℕ := (integer alphabet digits.1, integer alphabet digits.2)

/-- `int` raises no error for the numerals. -/
def areReadable (digits : Option Binding) : Bool :=
  digits.all fun sides =>
    decide (sides.1.length ≤ maxIntegerDigits ∧ sides.2.length ≤ maxIntegerDigits)

end Fields

section Comparisons

structure ReportComparison where
  summaryBinding : Option Binding
  pinsBinding : Option Binding
  deviceCounts : Option (ℕ × ℕ)
  nodeCounts : Option (ℕ × ℕ)
  pinListsEquivalent : Bool
  deviceClassesBinding : Option Binding
  deriving DecidableEq

def ReportComparison.new : ReportComparison := ⟨none, none, none, none, false, none⟩

inductive ReportSection where
  | summary
  | pins
  deriving DecidableEq

variable (alphabet : Alphabet)

/-- A line of the comparison; of a binding or a count the first one is kept. -/
def ReportComparison.note (reading : Option ReportSection) (comparison : ReportComparison)
    (line : List Char) : ReportComparison where
  summaryBinding :=
    if reading = some .summary then comparison.summaryBinding.or (circuitPair line)
    else comparison.summaryBinding
  pinsBinding :=
    if reading = some .pins then comparison.pinsBinding.or (circuitPair line)
    else comparison.pinsBinding
  deviceCounts :=
    if reading = some .summary then
      comparison.deviceCounts.or ((deviceDigits alphabet line).map (integers alphabet))
    else comparison.deviceCounts
  nodeCounts :=
    if reading = some .summary then
      comparison.nodeCounts.or ((netDigits alphabet line).map (integers alphabet))
    else comparison.nodeCounts
  pinListsEquivalent :=
    comparison.pinListsEquivalent || decide (line = "Cell pin lists are equivalent.".toList)
  deviceClassesBinding := (deviceEquivalence line).or comparison.deviceClassesBinding

/-- The comparisons before the current one, and the section that is read of the current one. -/
structure Sections where
  closed : List ReportComparison
  current : Option ReportComparison
  reading : Option ReportSection

def Sections.comparisons (sections : Sections) : List ReportComparison :=
  sections.closed ++ sections.current.toList

def summaryHeading : List Char := "Subcircuit summary:".toList

def pinsHeading : List Char := "Subcircuit pins:".toList

def Sections.opened (sections : Sections) (line : List Char) : Sections :=
  if line = summaryHeading then ⟨sections.comparisons, some .new, some .summary⟩
  else if line = pinsHeading then { sections with reading := some .pins }
  else sections

def Sections.misses (sections : Sections) (counts : ReportComparison → Option (ℕ × ℕ)) : Bool :=
  decide (sections.reading = some .summary) &&
    sections.current.any fun comparison => (counts comparison).isNone

def Sections.noted (sections : Sections) (line : List Char) : Sections :=
  { sections with
    current := sections.current.map fun comparison => comparison.note alphabet sections.reading line }

/-- The headings and fields of a line; nothing is the `ValueError` that ends the reading. -/
def Sections.read (sections : Sections) (line : List Char) : Option Sections :=
  if line = summaryHeading ∧ maxComparisons ≤ sections.comparisons.length then none
  else
    let opened := sections.opened line
    if (opened.misses ReportComparison.deviceCounts = true →
          areReadable (deviceDigits alphabet line) = true) ∧
        (opened.misses ReportComparison.nodeCounts = true →
          areReadable (netDigits alphabet line) = true) then
      some (opened.noted alphabet line)
    else none

end Comparisons

section Evidence

variable (alphabet : Alphabet)

def matchesWhole (pattern : Pattern) (line : List Char) : Bool :=
  fullmatch alphabet.words.isWord pattern line

def finds (pattern : Pattern) (line : List Char) : Bool :=
  search alphabet.words.isWord pattern line

def statesFailure (line : List Char) : Bool :=
  finds alphabet failureRe line && !finds alphabet negatedMismatchRe line

structure Evidence where
  sawFinalMatch : Bool
  sawUniqueMatch : Bool
  failureCount : ℕ
  failures : List (List Char)
  trailing : List (List Char)
  finalResults : List (ℕ × Outcome)
  propertyFailures : List ℕ
  nonemptyLine : ℕ

def Evidence.empty : Evidence := ⟨false, false, 0, [], [], [], [], 0⟩

def Evidence.note (evidence : Evidence) (line : List Char) : Evidence :=
  let number := if line = [] then evidence.nonemptyLine else evidence.nonemptyLine + 1
  { sawFinalMatch := evidence.sawFinalMatch || matchesWhole alphabet finalMatchRe line
    sawUniqueMatch := evidence.sawUniqueMatch || matchesWhole alphabet uniqueMatchRe line
    failureCount := evidence.failureCount + if statesFailure alphabet line = true then 1 else 0
    failures :=
      if statesFailure alphabet line = true ∧ evidence.failures.length < maxNormalizedExamples then
        evidence.failures ++ [line.take 1000]
      else evidence.failures
    trailing := if line = [] then evidence.trailing else (evidence.trailing ++ [line]).rtake 8
    finalResults :=
      if matchesWhole alphabet finalMatchRe line = true then
        evidence.finalResults ++ [(number, .pass)]
      else if matchesWhole alphabet finalFailureRe line = true then
        evidence.finalResults ++ [(number, .fail)]
      else evidence.finalResults
    propertyFailures :=
      if matchesWhole alphabet propertyFailureRe line = true then
        evidence.propertyFailures ++ [number]
      else evidence.propertyFailures
    nonemptyLine := number }

inductive TerminalStyle where
  | finalResult
  | postFinalPropertyError
  | legacyPropertyError
  | legacyTerminal
  deriving DecidableEq

structure Terminal where
  outcome : Option Outcome
  style : Option TerminalStyle
  conflict : Bool

/-- The last lines are a final match, but for a lone dot that may follow it. -/
def endsInFinalMatch (trailing : List (List Char)) : Bool :=
  trailing.getLast?.any fun last =>
    matchesWhole alphabet finalMatchRe last ||
      (decide (last = ['.']) &&
        trailing.dropLast.getLast?.any (matchesWhole alphabet finalMatchRe))

/-- The result of a report that names final results; `number` is the line of the last one. -/
def finalTerminal (evidence : Evidence) (number : ℕ) (outcome : Outcome) : Terminal :=
  let conflict := evidence.finalResults.any fun result => decide (result.2 ≠ outcome)
  if (outcome = .pass ∧ (evidence.propertyFailures.any fun line => decide (number < line)) = true) ∧
      conflict = false then
    ⟨if 0 < number then some .fail else none, some .postFinalPropertyError, conflict⟩
  else if outcome = .pass then
    ⟨if endsInFinalMatch alphabet evidence.trailing = true ∧ 0 < number then some outcome else none,
      some .finalResult, conflict⟩
  else ⟨if 0 < number then some outcome else none, some .finalResult, conflict⟩

def legacyTerminal (evidence : Evidence) : Terminal :=
  match evidence.trailing.getLast? with
  | none => ⟨none, none, false⟩
  | some last =>
    let before := evidence.trailing.dropLast.rtake 3
    if evidence.propertyFailures ≠ [] then ⟨some .fail, some .legacyPropertyError, false⟩
    else if matchesWhole alphabet uniqueMatchRe last = true then
      ⟨some .pass, some .legacyTerminal, before.any (matchesWhole alphabet terminalFailureRe)⟩
    else if matchesWhole alphabet terminalFailureRe last = true then
      ⟨some .fail, some .legacyTerminal, before.any (matchesWhole alphabet uniqueMatchRe)⟩
    else ⟨none, none, false⟩

def terminal (evidence : Evidence) : Terminal :=
  match evidence.finalResults.getLast? with
  | some result => finalTerminal alphabet evidence result.1 result.2
  | none => legacyTerminal alphabet evidence

end Evidence

section Verdict

def expectedBinding (expectedCell : Option (List Char)) (comparisons : List ReportComparison) :
    Option Binding :=
  match expectedCell with
  | some cell => some (cell, cell)
  | none =>
    (comparisons.getLast?.bind ReportComparison.summaryBinding).filter fun binding =>
      decide (binding.1 = binding.2)

def topComparisons (expectedCell : Option (List Char)) (comparisons : List ReportComparison) :
    List ReportComparison :=
  match expectedCell with
  | some cell =>
    comparisons.filter fun comparison => decide (comparison.summaryBinding = some (cell, cell))
  | none =>
    if (expectedBinding none comparisons).isSome then comparisons.getLast?.toList else []

def topComparisonOf (expectedCell : Option (List Char)) (comparisons : List ReportComparison) :
    Option ReportComparison :=
  match topComparisons expectedCell comparisons with
  | [comparison] => some comparison
  | _ => none

def countsAgree (counts : Option (ℕ × ℕ)) : Bool := counts.any fun sides => decide (sides.1 = sides.2)

def failStructure (binding : Option Binding) (top : Option ReportComparison) : Bool :=
  top.any fun comparison =>
    binding.isSome && decide (comparison.summaryBinding = binding) &&
      comparison.deviceCounts.isSome && comparison.nodeCounts.isSome

def passStructure (binding : Option Binding) (top : Option ReportComparison) : Bool :=
  failStructure binding top && top.any fun comparison =>
    countsAgree comparison.deviceCounts && countsAgree comparison.nodeCounts &&
      decide (comparison.pinsBinding = binding) && comparison.pinListsEquivalent &&
      decide (comparison.deviceClassesBinding = binding)

inductive ReportReason where
  | empty
  | tooLarge
  | invalid
  | conflictingTerminalResults
  | valid
  | unboundTopCell
  | conflictingEvidence
  | noTerminalResult
  deriving DecidableEq

def reportVerdict (terminal : Terminal) (passes fails : Bool) (failureCount : ℕ) :
    Outcome × ReportReason :=
  if terminal.conflict = true then (.unknown, .conflictingTerminalResults)
  else if terminal.outcome = some .pass ∧ passes = true ∧ failureCount = 0 then (.pass, .valid)
  else if terminal.outcome = some .fail ∧ fails = true then (.fail, .valid)
  else if terminal.outcome ≠ none ∧
      (if terminal.outcome = some .pass then passes else fails) = false then
    (.unknown, .unboundTopCell)
  else if terminal.outcome = some .pass ∧ failureCount ≠ 0 then (.unknown, .conflictingEvidence)
  else (.unknown, .noTerminalResult)

structure ReportDetails where
  finalMatch : Bool
  legacyTerminalMatch : Bool
  uniqueMatchMarkers : Bool
  terminal : Terminal
  topCell : Option (List Char)
  comparisonCount : ℕ
  topComparisonCount : ℕ
  top : Option ReportComparison
  structureComplete : Bool
  mismatchCount : ℕ
  mismatches : List (List Char)
  mismatchesTruncated : Bool

structure Report where
  outcome : Outcome
  reason : ReportReason
  details : Option ReportDetails

variable (alphabet : Alphabet)

def assess (expectedCell : Option (List Char)) (evidence : Evidence) (sections : Sections) :
    Report :=
  let terminal := terminal alphabet evidence
  let top := topComparisonOf expectedCell sections.comparisons
  let binding := expectedBinding expectedCell sections.comparisons
  let passes := passStructure binding top
  let fails := failStructure binding top
  let verdict := reportVerdict terminal passes fails evidence.failureCount
  { outcome := verdict.1
    reason := verdict.2
    details := some
      { finalMatch := evidence.sawFinalMatch
        legacyTerminalMatch :=
          decide (terminal.style = some .legacyTerminal) && decide (verdict.1 = .pass)
        uniqueMatchMarkers := evidence.sawUniqueMatch
        terminal
        topCell := expectedCell
        comparisonCount := sections.comparisons.length
        topComparisonCount := (topComparisons expectedCell sections.comparisons).length
        top
        structureComplete :=
          if terminal.outcome = some .pass then passes
          else if terminal.outcome = some .fail then fails
          else false
        mismatchCount := evidence.failureCount
        mismatches := evidence.failures
        mismatchesTruncated := decide (evidence.failures.length < evidence.failureCount) } }

/-- The lines `readline` reads, newlines included; `line` is what was read of the next one. -/
def nativeLines (line : List Char) : List Char → List (List Char)
  | [] => if line = [] then [] else [line]
  | c :: rest =>
    if c = '\n' then (line ++ [c]) :: nativeLines [] rest else nativeLines (line ++ [c]) rest

def encodedLength (text : List Char) : ℕ := (text.map Char.utf8Size).sum

def readReportLine (state : Evidence × Sections) (line : List Char) :
    Option (Evidence × Sections) :=
  if maxReportLineBytes < encodedLength line then none
  else
    (state.2.read alphabet (strip line)).map fun sections =>
      (state.1.note alphabet (strip line), sections)

def readReport (text : List Char) : Option (Evidence × Sections) :=
  (nativeLines [] text).foldlM (readReportLine alphabet) (.empty, ⟨[], none, none⟩)

/-- `parse_netgen_report_stream` for the text that the bytes encode; `size` is the size that the
file had before. -/
def parseNetgenReportStream (expectedCell : Option (List Char)) (size : ℕ) (text : List Char) :
    Report :=
  if size = 0 then ⟨.unknown, .empty, none⟩
  else if maxReportBytes < size then ⟨.unknown, .tooLarge, none⟩
  else
    match readReport alphabet text with
    | none => ⟨.unknown, .invalid, none⟩
    | some (evidence, sections) =>
      if encodedLength text ≠ size then ⟨.unknown, .invalid, none⟩
      else assess alphabet expectedCell evidence sections

end Verdict

end OpenADA.Lvs
