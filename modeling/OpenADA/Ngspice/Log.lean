import OpenADA.Library.CharClass
import OpenADA.Library.LinePattern
import OpenADA.Scalars.Readers

/-! The evidence that a run of the simulator leaves in its log and its streams. -/
namespace OpenADA.Ngspice

open PyText LinePattern Scalars

section Patterns

def phrase (text : String) : Pattern := .word looseLetter text.toList

def spaces : Pattern := .gap isSpace

/-- `\s+`. -/
def space : Pattern := .some isSpace

/-- `.*`. -/
def anything : Pattern := .gap fun c => c ≠ '\n'

structure Rule where
  anchored : Bool
  pattern : Pattern

def Rule.finds (words : WordClass) (rule : Rule) (line : List Char) : Bool :=
  if rule.anchored then !(ends words.isWord rule.pattern (none, line)).isEmpty
  else search words.isWord rule.pattern line

def anywhere (parts : List Pattern) : Rule := ⟨false, .sequence parts⟩

def atStart (parts : List Pattern) : Rule := ⟨true, .sequence (spaces :: parts)⟩

/-- `TERMINAL_CONVERGENCE_PATTERNS`. -/
def terminalConvergencePatterns : List Rule :=
  [anywhere [phrase "do not converge"], anywhere [phrase "timestep too small"],
    anywhere [phrase "transient op failed"]]

/-- `RECOVERABLE_SOLVER_PATTERNS`. -/
def recoverableSolverPatterns : List Rule :=
  [anywhere [phrase "convergence failure"], anywhere [phrase "singular matrix"],
    anywhere [phrase "matrix is singular"], anywhere [phrase "iteration limit reached"],
    anywhere [phrase "failed to converge"]]

/-- `NATIVE_ERROR_PATTERNS`. -/
def nativeErrorPatterns : List Rule :=
  [anywhere [phrase "simulation interrupted due to error"],
    anywhere [phrase "run simulation not started"], anywhere [phrase "fatal error"],
    atStart [phrase "error on line", .boundary],
    atStart [phrase "error:", space, phrase "no such vector", .boundary],
    anywhere [phrase "unknown subckt"], anywhere [phrase "could not find a valid modelname"],
    anywhere [phrase "cannot find model"]]

/-- `MEASUREMENT_SECTION_RE`, up to the end of a line. -/
def measurementSection : Pattern :=
  .sequence [spaces, phrase "measurements for", space, .char fun c => !isSpace c, anything, space,
    phrase "analysis", spaces]

/-- The first of `ANALYSIS_COMPLETE_PATTERNS`, up to the end of a line. -/
def dataRows : Pattern :=
  .sequence [spaces, phrase "no. of data rows", spaces, phrase ":", spaces,
    .char fun c => '1' ≤ c && c ≤ '9', .gap Char.isDigit, spaces]

def circuitTitle : Rule := atStart [phrase "circuit", spaces, phrase ":"]

/-- `COLLATERAL_LOAD_FAILURE_PATTERNS`. -/
def collateralLoadFailurePatterns : List Rule :=
  [atStart [phrase "error opening osdi lib", .boundary],
    atStart [phrase "error:", spaces, phrase "library", .boundary, anything, .boundary,
      phrase "couldn't be loaded", .boundary]]

def collateralLoadSummary : Rule :=
  atStart [phrase "warning:", spaces, phrase "osdi libs have not been loaded successfully"]

/-- `NGSPICE_BANNER_RE`. -/
def banner : Pattern :=
  .sequence [spaces, .some (· = '*'), spaces, phrase "ngspice-", .some fun c => !isSpace c, spaces,
    phrase ":"]

/-- `GENERIC_NATIVE_ERROR_RE`. -/
def genericNativeError : Rule :=
  atStart [.optional (.sequence [phrase "fatal", space]), phrase "error",
    .either (.sequence [spaces, phrase ":"]) (.sequence [space, phrase "on", .boundary])]

def harmlessGraphicsError : Rule :=
  atStart [phrase "error:", spaces, phrase "(external)", space, phrase "no graphics interface",
    .boundary]

def batchMeasurementWarning : Rule :=
  anywhere [phrase "no", space, phrase ".measure", space, phrase "possible", space, phrase "in",
    space, phrase "batch", space, phrase "mode", anything, phrase "-r", space, phrase "rawfile"]

def noFailures : Rule :=
  anywhere [phrase "failure", .optional (phrase "s"), spaces, .char fun c => c = ':' || c = '=',
    spaces, phrase "0", .boundary]

end Patterns

section Scan

variable (words : WordClass)

structure LineEvidence where
  convergence : Option (List Char)
  solverWarning : Option (List Char)
  nativeError : Option (List Char)
  measurementWarning : Bool
  completedAnalysis : Bool
  collateral : Option (List Char)
  deriving DecidableEq

def LineEvidence.nothing : LineEvidence := ⟨none, none, none, false, false, none⟩

/-- `_scan_line`. -/
def scanLine (line : List Char) : LineEvidence :=
  let excerpt := (strip line).take 1000
  let found (rules : List Rule) : Option (List Char) :=
    if rules.any fun rule => rule.finds words line then some excerpt else none
  if circuitTitle.finds words line then .nothing
  else if (found collateralLoadFailurePatterns).isSome then
    { LineEvidence.nothing with collateral := some excerpt }
  else if collateralLoadSummary.finds words line then .nothing
  else
    { convergence :=
        if noFailures.finds words line then none else found terminalConvergencePatterns
      solverWarning := found recoverableSolverPatterns
      nativeError := (found nativeErrorPatterns).or
        (if harmlessGraphicsError.finds words line then none else found [genericNativeError])
      measurementWarning := batchMeasurementWarning.finds words line
      completedAnalysis := fullmatch words.isWord dataRows line ||
        fullmatch words.isWord measurementSection line
      collateral := none }

structure Examples where
  seen : List (List Char)
  kept : List (List Char)
  deriving DecidableEq

def Examples.add (limit : ℕ) (examples : Examples) (text : List Char) : Examples :=
  if text ∈ examples.seen then examples
  else ⟨text :: examples.seen,
    if examples.kept.length < limit then examples.kept ++ [text] else examples.kept⟩

structure LogState where
  convergenceError : Option (List Char)
  solverWarnings : List (List Char)
  solverWarningCount : ℕ
  nativeError : Option (List Char)
  startupFailure : Option (List Char)
  collateral : Examples
  batchMeasurementWarning : Bool
  completedAnalysis : Bool
  deriving DecidableEq

def LogState.start : LogState := ⟨none, [], 0, none, none, ⟨[], []⟩, false, false⟩

def maxSolverWarningExamples : ℕ := 50

def maxCollateralFailureExamples : ℕ := 8

def keepWarning (kept : List (List Char)) (warning : List Char) : List (List Char) :=
  if kept.length < maxSolverWarningExamples ∧ warning ∉ kept then kept ++ [warning] else kept

def LogState.count (state : LogState) (found : LineEvidence) : LogState where
  convergenceError := state.convergenceError.or found.convergence
  solverWarnings := (found.solverWarning.map (keepWarning state.solverWarnings)).getD
    state.solverWarnings
  solverWarningCount := state.solverWarningCount + found.solverWarning.toList.length
  nativeError := state.nativeError.or found.nativeError
  startupFailure := state.startupFailure
  collateral := (found.collateral.map (state.collateral.add maxCollateralFailureExamples)).getD
    state.collateral
  batchMeasurementWarning := state.batchMeasurementWarning || found.measurementWarning
  completedAnalysis := state.completedAnalysis || found.completedAnalysis

/-- The evidence of a line above the banner: a startup failure, or a library that failed to load. -/
def LogState.startup (state : LogState) (found : LineEvidence) : LogState where
  convergenceError := state.convergenceError
  solverWarnings := state.solverWarnings
  solverWarningCount := state.solverWarningCount
  nativeError := state.nativeError
  startupFailure :=
    if found.collateral.isNone then state.startupFailure.or found.nativeError
    else state.startupFailure
  collateral := (found.collateral.map (state.collateral.add maxCollateralFailureExamples)).getD
    state.collateral
  batchMeasurementWarning := state.batchMeasurementWarning
  completedAnalysis := state.completedAnalysis

def isBanner (line : List Char) : Bool := !(ends words.isWord banner (none, line)).isEmpty

def scanStep (state : Bool × LogState) (line : List Char) : Bool × LogState :=
  let bannerSeen := state.1 || isBanner words line
  let found := scanLine words line
  (bannerSeen, if bannerSeen then state.2.count found else state.2.startup found)

/-- `re.search` of a pattern that starts at the head of a line. -/
def searchHeads (pattern : Pattern) (previous : Option Char) : List Char → Bool
  | [] => (previous.all (· = '\n')) && !(ends words.isWord pattern (previous, [])).isEmpty
  | c :: rest =>
    ((previous.all (· = '\n')) && !(ends words.isWord pattern (previous, c :: rest)).isEmpty) ||
      searchHeads pattern (some c) rest

def scanText (state : LogState) (captured : List Char) : LogState :=
  let bannerSeen := !searchHeads words banner none captured
  ((splitLines captured).foldl (scanStep words) (bannerSeen, state)).2

def logConvergenceError (log : List Char) : Option (List Char) :=
  (splitLines log).foldl (fun found line => found.or (scanLine words line).convergence) none

structure LogVerdict where
  convergenceError : Option (List Char)
  nativeError : Option (List Char)
  batchMeasurementWarning : Bool
  completedAnalysis : Bool
  conclusiveConvergence : Bool
  deriving DecidableEq

def logVerdict (stdout stderr log : List Char) : LogVerdict :=
  let state := [stdout, stderr, log].foldl (scanText words) .start
  { convergenceError := state.convergenceError
    nativeError := state.nativeError
    batchMeasurementWarning := state.batchMeasurementWarning
    completedAnalysis := state.completedAnalysis
    conclusiveConvergence := (logConvergenceError words log).isSome }

structure RunFacts where
  completed : Bool
  exitZero : Bool
  validLog : Bool
  validOutputs : Bool
  rawEvidence : Bool
  measurementsSound : Bool
  inputsStable : Bool
  streamsWhole : Bool
  validScript : Bool

inductive EngineeringStatus where
  | pass
  | fail
  | unknown
  deriving DecidableEq

def engineeringStatus (facts : RunFacts) (verdict : LogVerdict) : EngineeringStatus :=
  if verdict.conclusiveConvergence && verdict.nativeError.isNone && facts.completed &&
      facts.validLog && facts.inputsStable && facts.streamsWhole && facts.validOutputs &&
      facts.validScript then .fail
  else if facts.completed && facts.exitZero && verdict.convergenceError.isNone &&
      verdict.nativeError.isNone && !verdict.batchMeasurementWarning && facts.validLog &&
      facts.validOutputs && (facts.rawEvidence || verdict.completedAnalysis) &&
      facts.measurementsSound && facts.inputsStable && facts.validScript then .pass
  else .unknown

end Scan

end OpenADA.Ngspice
