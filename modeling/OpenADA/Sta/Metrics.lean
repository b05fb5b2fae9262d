import OpenADA.Library.LineSearch
import OpenADA.Scalars.Readers
import OpenADA.Native.Loads

/-! The transcript of a timing analysis: its marked blocks, the metrics in them and the issues that
the tool reports. Values are exact. -/
namespace OpenADA.Sta

open PyText Native Scalars

section Markers

/-- `text.count(marker)`; the number counts the characters of a match that are still to be passed. -/
def countFrom (marker : List Char) : ℕ → List Char → ℕ
  | _, [] => 0
  | skip + 1, _ :: rest => countFrom marker skip rest
  | 0, c :: rest =>
    if marker.isPrefixOf (c :: rest) then 1 + countFrom marker (marker.length - 1) rest
    else countFrom marker 0 rest

def count (marker text : List Char) : ℕ := countFrom marker 0 text

def behindMarker (marker : List Char) : List Char → Option (List Char)
  | [] => none
  | c :: rest =>
    if marker.isPrefixOf (c :: rest) then some ((c :: rest).drop marker.length)
    else behindMarker marker rest

def beforeMarker (marker : List Char) : List Char → Option (List Char)
  | [] => none
  | c :: rest =>
    if marker.isPrefixOf (c :: rest) then some []
    else (beforeMarker marker rest).map (c :: ·)

def beginMarker (name : String) : List Char :=
  "OPENADA_".toList ++ name.toList ++ "_BEGIN".toList

def endMarker (name : String) : List Char := "OPENADA_".toList ++ name.toList ++ "_END".toList

/-- `_marker_block`. -/
def markerBlock (text : List Char) (name : String) : Option (List Char) :=
  if count (beginMarker name) text ≠ 1 ∨ count (endMarker name) text ≠ 1 then none
  else (behindMarker (beginMarker name) text).bind (beforeMarker (endMarker name))

end Markers

section Patterns

def keyword (word : List Char) (text : List Char) : Option (List Char) :=
  if (text.take word.length).map looseLetter = word then some (text.drop word.length) else none

/-- `\s+`. -/
def spaces (text : List Char) : Option (List Char) :=
  if text.head?.any isSpace then some (text.dropWhile isSpace) else none

/-- `\s*$` where `$` stands before every newline and at the end. -/
def endsLine (text : List Char) : Bool :=
  decide ('\n' ∈ text.takeWhile isSpace) || decide (text.dropWhile isSpace = [])

/-- The matches of `^\s*` and a pattern that begins with a letter. A match ends before the newline
that the next one may begin behind, so that none hides another. -/
def lineMatches {α : Type} (pattern : List Char → Option α) : Bool → List Char → List α :=
  LineSearch.lineMatches isSpace (fun c => decide (c = '\n')) pattern

variable (isDigit : Char → Bool) (digit : Char → ℕ)

/-- `worst slack` or `tns`, the mode and a number. -/
def metricAt (label mode : List Char) (text : List Char) : Option ℚ := do
  let text ← spaces (← keyword label text)
  let text ← spaces (← keyword mode text)
  let (number, text) ← numberOf isDigit digit text
  if endsLine text then some (number.value digit) else none

/-- `\d+(?:\.\d+)?`. -/
def unitNumber (text : List Char) : Option (Number × List Char) :=
  let whole := text.takeWhile isDigit
  let behind := text.dropWhile isDigit
  let fraction := if behind.head? = some '.' then behind.tail.takeWhile isDigit else []
  if whole = [] then none
  else some (⟨false, whole, fraction, 0⟩, if fraction = [] then behind else
    behind.tail.dropWhile isDigit)

def timeScales : List (List Char × ℚ) :=
  [(['s'], 1), (['m', 's'], 1 / 10 ^ 3), (['u', 's'], 1 / 10 ^ 6), (['n', 's'], 1 / 10 ^ 9),
    (['p', 's'], 1 / 10 ^ 12), (['f', 's'], 1 / 10 ^ 15)]

def unitName (text : List Char) : Option (List Char) :=
  (timeScales.find? fun scale => (keyword scale.1 text).any endsLine).map fun scale =>
    text.take scale.1.length

/-- `time`, a number and a unit. -/
def unitAt (text : List Char) : Option (ℚ × List Char) := do
  let text ← spaces (← keyword "time".toList text)
  let (number, text) ← unitNumber isDigit text
  let name ← unitName (text.dropWhile isSpace)
  some (number.value digit, name.flatMap lowerLetter)

end Patterns

/-- The seconds of the time unit, and the worst and the total negative slacks in seconds. -/
structure Metrics where
  timeUnitSeconds : ℚ
  setupWns : ℚ
  setupTns : ℚ
  holdWns : ℚ
  holdTns : ℚ
  deriving DecidableEq

def completionMarker : List Char := "OPENADA_ANALYSIS_COMPLETE".toList

section Parsing

variable (isDigit : Char → Bool) (digit : Char → ℕ)

def unitSeconds (text : List Char) : Except Stop ℚ := do
  let units ← expect "missing-or-duplicate-units-markers" (markerBlock text "UNITS")
  match lineMatches (unitAt isDigit digit) true units with
  | [(coefficient, name)] =>
    if coefficient ≤ 0 then refuse "invalid-time-unit"
    else
      match timeScales.lookup name with
      | some scale => .ok (coefficient * scale)
      | none => .error (.raised .keyError)
  | _ => refuse "unparseable-time-unit"

def metricSeconds (key marker : String) (label mode : List Char) (unit : ℚ) (text : List Char) :
    Except Stop ℚ := do
  let block ← expect s!"missing-or-duplicate-{key}-markers" (markerBlock text marker)
  match lineMatches (metricAt isDigit digit label mode) true block with
  | [value] => .ok (value * unit)
  | _ => refuse s!"unparseable-{key}"

def worstSlack : List Char := "worst slack".toList

def tns : List Char := "tns".toList

/-- `_parse_metrics`. -/
def parseMetrics (text : List Char) : Except Stop Metrics := do
  let unit ← unitSeconds isDigit digit text
  let setupWns ← metricSeconds isDigit digit "setup-wns" "SETUP_WNS" worstSlack "max".toList unit text
  let setupTns ← metricSeconds isDigit digit "setup-tns" "SETUP_TNS" tns "max".toList unit text
  let holdWns ← metricSeconds isDigit digit "hold-wns" "HOLD_WNS" worstSlack "min".toList unit text
  let holdTns ← metricSeconds isDigit digit "hold-tns" "HOLD_TNS" tns "min".toList unit text
  if count completionMarker text ≠ 1 then refuse "missing-or-duplicate-completion-marker"
  else .ok ⟨unit, setupWns, setupTns, holdWns, holdTns⟩

end Parsing

/-- A line of the tool that begins with `Error` or `Warning`. -/
def isNativeIssue (line : List Char) : Bool :=
  let text := line.dropWhile isSpace
  ["error".toList, "warning".toList].any fun word =>
    (keyword word text).any fun rest => rest.head?.any fun c => decide (c = ':') || isSpace c

section Consistency

/-- What `_metric_consistency` asks of one mode. -/
def modeConsistent (tolerance wns tns : ℚ) : Bool :=
  decide (tns ≤ tolerance) && (decide (wns < 0) || decide (|tns| ≤ tolerance)) &&
    (decide (0 ≤ wns) || decide (tns ≤ -tolerance))

/-- `_metric_consistency`. -/
def metricConsistency (metrics : Metrics) : Bool :=
  let tolerance := metrics.timeUnitSeconds * (5 / 10 ^ 9)
  modeConsistent tolerance metrics.setupWns metrics.setupTns &&
    modeConsistent tolerance metrics.holdWns metrics.holdTns

/-- `_slack_agrees`. -/
def slackAgrees (metric reported timeUnitSeconds : ℚ) : Bool :=
  let tolerance := max (max (timeUnitSeconds * (5 / 10 ^ 4)) (|metric| * (5 / 10 ^ 4))) (1 / 10 ^ 18)
  decide (metric < 0 ↔ reported < 0) && decide (|metric - reported| ≤ tolerance)

end Consistency

end OpenADA.Sta
