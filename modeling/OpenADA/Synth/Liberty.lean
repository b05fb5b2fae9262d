import OpenADA.Library.JsonReader
import OpenADA.Library.WordSearch

/-! The Liberty text of a synthesis run: the search for files it would include, and the names of
the cells it declares. -/
namespace OpenADA.Synth

open PyStr WordSearch

def libertyTransitiveRead : Pattern UInt8 := byteWords ["include", "include_file"] true

def maxLibertyParseBytes : ℕ := 128 * 1024 * 1024

def maxCellTypes : ℕ := 8192

/-- `str.isspace` of one character, which is also `\s`. -/
def isSpace (c : CodePoint) : Bool :=
  (9 ≤ c.val && c.val ≤ 13) || (28 ≤ c.val && c.val ≤ 32) || c.val = 0x85 || c.val = 0xA0 ||
    c.val = 0x1680 || (0x2000 ≤ c.val && c.val ≤ 0x200A) || c.val = 0x2028 || c.val = 0x2029 ||
    c.val = 0x202F || c.val = 0x205F || c.val = 0x3000

def strip (drops : CodePoint → Bool) (text : PyStr) : PyStr := (text.dropWhile drops).rdropWhile drops

def afterWord (word : PyStr) (text : PyStr) : Option PyStr :=
  if text.take word.length = word then some ((text.drop word.length).dropWhile isSpace) else none

def isParen (c : CodePoint) : Bool := c = point '(' || c = point ')'

/-- The name in `\s*cell\s*\(\s*([^()]+?)\s*\)\s*\{` at the start of a text. There is one way to
match it: no name holds a parenthesis. -/
def cellHeader (text : PyStr) : Option PyStr := do
  let behind ← afterWord (lit "cell") (text.dropWhile isSpace)
  let inside ← afterWord (lit "(") behind
  let name := inside.takeWhile fun c => !isParen c
  -- what is between the parentheses may be space alone, but not nothing
  if (behind.drop 1).takeWhile (fun c => !isParen c) = [] then none
  else
    let brace ← afterWord (lit ")") (inside.drop name.length)
    let _ ← afterWord (lit "\x7b") brace
    some (strip (fun c => c = point '"') (strip isSpace name))

def cellHeaders (lineStart : Bool) : PyStr → List PyStr
  | [] => []
  | c :: rest =>
    (if lineStart then (cellHeader (c :: rest)).toList else []) ++
      cellHeaders (decide (c = point '\n')) rest

inductive LibertyRefusal where
  | empty | tooLarge | changedOrIncomplete | invalid | transitiveIncludeDirective | invalidUtf8
  | missingOrExcessiveCells
  deriving DecidableEq

/-- The names of the cells of a file of some size with some content; `none` where the file cannot
be opened or changes while it is read. -/
def libertyCells : Option (ℕ × List UInt8) → Except LibertyRefusal (List PyStr)
  | none => .error .invalid
  | some (size, payload) =>
    if size = 0 then .error .empty
    else if maxLibertyParseBytes < size then .error .tooLarge
    else if payload.length ≠ size then .error .changedOrIncomplete
    else if libertyTransitiveRead.search none payload then .error .transitiveIncludeDirective
    else match JsonReader.decodeUtf8 payload with
      | none => .error .invalidUtf8
      | some text =>
        let cells := (cellHeaders true text).dedup
        if cells = [] ∨ maxCellTypes < cells.length then .error .missingOrExcessiveCells
        else .ok cells

/-- A file that can be read whole is refused for what it includes where a word for that stands in
it. -/
theorem libertyCells_transitive {payload : List UInt8} (hne : payload ≠ [])
    (hsize : payload.length ≤ maxLibertyParseBytes) :
    libertyCells (some (payload.length, payload)) = .error .transitiveIncludeDirective ↔
      libertyTransitiveRead.Matches payload := by
  rw [← search_iff_matches, libertyCells, if_neg (List.length_eq_zero_iff.not.mpr hne),
    if_neg (not_lt.mpr hsize), if_neg (by simp)]
  by_cases hsearch : libertyTransitiveRead.search none payload = true
  · simp [hsearch]
  · simp only [hsearch, Bool.false_eq_true, if_false, iff_false]
    cases JsonReader.decodeUtf8 payload with
    | none => simp
    | some text =>
      simp only
      split_ifs <;> simp

end OpenADA.Synth
