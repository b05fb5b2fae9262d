import OpenADA.Pdk.Instances

/-! The branch currents that a bound deck retains: the sources that are found in its lines, the
vectors that are written, and the sources that a simulator sees. -/
namespace OpenADA.Pdk

open PyText Scopes
open SpiceText (words withoutInline lineKind simulatorCards isCSpace asciiLower)

/-- `MAX_PROBED_SOURCES`. -/
def maxProbedSources : ℕ := 16

section Scan

variable (alnum : Char → Bool)

/-- A word at the front of a line, whatever its case, and a word boundary behind it. -/
def startsWithWord (word : List Char) (line : List Char) : Bool :=
  let text := lstrip isSpace line
  decide (word.length ≤ text.length) &&
    ((word.zip text).all fun pair => equalsIgnoringCase pair.1 pair.2) &&
    (text.drop word.length).head?.all fun c => !(alnum c || c = '_')

/-- `[A-Za-z0-9_.$#+-]`. -/
def isSourceChar (c : Char) : Bool := c.isAlphanum || c ∈ ['_', '.', '$', '#', '+', '-']

/-- `_VSOURCE_CARD_RE` on one line: the name of the source in lower case. -/
def sourceName : List Char → Option (List Char)
  | [] => none
  | c :: rest =>
    let behind := rest.dropWhile isSourceChar
    if (c = 'V' ∨ c = 'v') ∧ behind.head?.any isBlank = true ∧
        ((lstrip isBlank behind).head?.any fun d => !isSpace d) = true then
      some (asciiLower (c :: rest.takeWhile isSourceChar))
    else none

def scanEvent (line : List Char) : Event (List Char) :=
  if startsWithWord alnum ".subckt".toList line then .opens
  else if startsWithWord alnum ".ends".toList line then .closes
  else match sourceName line with
    | some name => .item name
    | none => .other

/-- The lines of `_top_level_voltage_sources` behind those that have given `names`. -/
def scanSources (maximum : Option ℕ) (names : List (List Char)) :
    ℕ → List (List Char) → List (List Char)
  | _, [] => names
  | depth, line :: rest =>
    match scanEvent alnum line with
    | .opens => scanSources maximum names (depth + 1) rest
    | .closes => scanSources maximum names (depth - 1) rest
    | .item name =>
      if depth ≠ 0 ∨ name ∈ names then scanSources maximum names depth rest
      else if maximum.any (fun most => decide (most ≤ names.length + 1)) then names ++ [name]
      else scanSources maximum (names ++ [name]) depth rest
    | _ => scanSources maximum names depth rest

/-- `top_level_voltage_sources`. -/
def topLevelVoltageSources (deck : List Char) : List (List Char) :=
  scanSources alnum (some maxProbedSources) [] 0 (splitLines deck)

def currentVector (name : List Char) : List Char := "i(".toList ++ name ++ ")".toList

def voltageVector (net : List Char) : List Char := "v(".toList ++ net ++ ")".toList

/-- `source_current_vectors`. -/
def sourceCurrentVectors (deck : List Char) : List (List Char) :=
  (topLevelVoltageSources alnum deck).map currentVector

end Scan

section Writing

variable (cases : CaseMap)

/-- One vector of the loop of `_write_vectors`, with those that were seen. -/
def addVector (state : List (List Char) × List (List Char)) (vector : List Char) :
    List (List Char) × List (List Char) :=
  if vector ∈ state.2 then state else (state.1 ++ [vector], vector :: state.2)

/-- `_write_vectors`; no vectors are a bare `write`, which writes all of them. -/
def writeVectors (saved currents : List (List Char)) (exactCurrentSet : Bool) :
    List (List Char) :=
  if saved = [] ∧ exactCurrentSet = false then []
  else
    let vectors := saved.map voltageVector
    (currents.foldl addVector (vectors, vectors.map cases.lower)).1

def savedTokens (line : List Char) : List (List Char) :=
  let headLength := line.length - (lstrip isSpace line).length + 5
  let (rest, _) := splitEol (line.drop headLength)
  ((rest.splitOnP isSpace).filter fun token => decide (token ≠ [])).map cases.lower

end Writing

section Simulator

/-- What a card is to the sources of a deck: a card whose name starts with a `v` is a source. -/
def cardEvent (card : List Char) : Event (List Char) :=
  match words isCSpace card with
  | [] => .other
  | word :: _ =>
    let word := asciiLower word
    if word.head? = some 'v' then .item word
    else if word = ".subckt".toList then .opens
    else if word = ".ends".toList then .closes
    else if word = ".control".toList then .mutes
    else if word = ".endc".toList then .unmutes
    else if word = ".end".toList then .stops
    else .other

/-- The voltage sources that a simulator sees in no subcircuit, each once, and no more than are
probed. -/
def simulatorSources (deck : List Char) : List (List Char) :=
  (topItems ((simulatorCards deck).map cardEvent)).eraseDups.take maxProbedSources

/-- The words of the line that a text begins with, as a simulator reads it without its comment. -/
def effectiveWords (text : List Char) : List (List Char) :=
  words isCSpace (withoutInline isCSpace (text.takeWhile fun c => decide (c ≠ '\n')))

def isSave (line : List Char) : Bool :=
  decide ((effectiveWords line).head?.map asciiLower = some ".save".toList)

/-- What the card on a line is to the sources of a deck; other lines start no card. -/
def readEvent (line : List Char) : Event (List Char) :=
  match lineKind isCSpace line with
  | .card text => cardEvent text
  | _ => .other

end Simulator

section Condition

variable (cases : CaseMap) (alnum : Char → Bool)

/-- A save card that takes the vectors: it ends in a line feed, and each vector is among its words,
or the card has no comment and no word that is the vector in lower case. -/
def SaveReady (vectors : List (List Char)) (line : List Char) : Prop :=
  line.getLast? = some '\n' ∧ ∀ vector ∈ vectors,
    vector ∈ (effectiveWords line).map asciiLower ∨
      (withoutInline isCSpace line = line ∧ vector ∉ savedTokens cases line)

instance decidableSaveReady (vectors : List (List Char)) (line : List Char) :
    Decidable (SaveReady cases vectors line) := inferInstanceAs (Decidable (_ ∧ _))

/-- The scan finds nothing in the title, on every other line what the simulator reads there (outside
of control blocks, in front of the end, and of the sources those that are in no subcircuit), and
each save card takes the vectors. -/
structure Retainable (deck : List Char) : Prop where
  breaks : SpiceText.plainBreaks deck = true
  title : ∀ line ∈ (splitLines deck).head?, scanEvent alnum line = .other
  aligned : surface 0 ((splitLines deck).tail.map (scanEvent alnum)) =
    surface 0 (heard false ((splitLines deck).tail.map readEvent))
  saves : ∀ line ∈ bodyLines deck, isSave line = true →
    SaveReady cases ((simulatorSources deck).map currentVector) line

end Condition

end OpenADA.Pdk
