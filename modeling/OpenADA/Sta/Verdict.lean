import OpenADA.Sta.Metrics
import OpenADA.Sta.PathReport

/-! The verdict of a timing analysis from its transcript, its check of the setup and its path
reports. -/
namespace OpenADA.Sta

open PyText Native

structure TimingProcess where
  stdout : List Char
  stderr : List Char
  completed : Bool
  exitCode : Option ℤ
  captureComplete : Bool

/-- `"\n".join((process.stdout, process.stderr))`. -/
def TimingProcess.text (process : TimingProcess) : List Char :=
  process.stdout ++ '\n' :: process.stderr

/-- A run: its process unless it was not launched, the native outputs that were produced, and the
flags of its other evidence. -/
structure TimingRun where
  process : Option TimingProcess
  checkSetup : Option (List UInt8)
  setupPaths : Option (List UInt8)
  holdPaths : Option (List UInt8)
  transcriptRetained : Bool
  outputsClean : Bool
  artifactsClean : Bool
  inputsStable : Bool
  toolIdentityStable : Bool

inductive TimingStatus where
  | pass | fail | unknown
  deriving DecidableEq

def maxCheckSetupBytes : ℕ := 4 * 1024 * 1024

/-- Whether `_load_check_setup` finds a report without any issue. -/
def constraintsComplete (content : List UInt8) : Bool :=
  decide (content.length ≤ maxCheckSetupBytes) &&
    (JsonReader.decodeUtf8 content).any fun text => text.all fun c => (PyStr.toChar? c).any isSpace

section Judging

variable (run : TimingRun) (setup hold : Option (PathReport ℚ)) (metrics : Option Metrics)

def reportsAgree : Bool :=
  metrics.any fun metrics => setup.any fun setup => hold.any fun hold =>
    slackAgrees metrics.setupWns setup.criticalPath.slack metrics.timeUnitSeconds &&
      slackAgrees metrics.holdWns hold.criticalPath.slack metrics.timeUnitSeconds

def TimingProcess.clean (process : TimingProcess) : Bool :=
  process.completed && decide (process.exitCode = some 0) && process.captureComplete &&
    !(splitLines process.text).any isNativeIssue

def evidenceComplete : Bool :=
  run.process.any TimingProcess.clean && run.transcriptRetained && run.outputsClean &&
    run.artifactsClean && run.inputsStable && run.toolIdentityStable &&
    run.checkSetup.any constraintsComplete && metrics.any metricConsistency &&
    reportsAgree setup hold metrics

def Metrics.satisfied (metrics : Metrics) : Bool :=
  decide (0 ≤ metrics.setupWns) && decide (0 ≤ metrics.holdWns)

def judge : TimingStatus :=
  if evidenceComplete run setup hold metrics then
    if metrics.any Metrics.satisfied then .pass else .fail
  else .unknown

end Judging

section Verdict

variable (isDigit : Char → Bool) (digit : Char → ℕ) (interpreter : Interpreter ℚ)

def runMetrics (run : TimingRun) : Except PyException (Option Metrics) :=
  retained (run.process.map fun process => parseMetrics isDigit digit process.text)

/-- The verdict of `timing_analyze`. -/
def timingVerdict (run : TimingRun) : Except PyException TimingStatus := do
  let setup ← retained (run.setupPaths.map (loadPathReport interpreter "max"))
  let hold ← retained (run.holdPaths.map (loadPathReport interpreter "min"))
  let metrics ← runMetrics isDigit digit run
  .ok (judge run setup hold metrics)

end Verdict

end OpenADA.Sta
