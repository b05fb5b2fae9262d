import OpenADA.Synth.Statistics

/-! The verdict of a synthesis run on its mapped netlist. -/
namespace OpenADA.Synth

open PyStr PyJson Native

section Declarations

inductive Place where
  | code | quoted | opening | block | closing | line

/-- A Liberty text with its comments blank: those between `/*` and `*/`, and those from `//` to the
end of a line. -/
def blankComments : Place → PyStr → PyStr
  | _, [] => []
  | .code, c :: rest =>
    if c = point '"' then c :: blankComments .quoted rest
    else if c = point '/' ∧ rest.head? = some (point '*') then
      point ' ' :: blankComments .opening rest
    else if c = point '/' ∧ rest.head? = some (point '/') then point ' ' :: blankComments .line rest
    else c :: blankComments .code rest
  | .quoted, c :: rest => c :: blankComments (if c = point '"' then .code else .quoted) rest
  | .opening, _ :: rest => point ' ' :: blankComments .block rest
  | .block, c :: rest =>
    if c = point '*' ∧ rest.head? = some (point '/') then point ' ' :: blankComments .closing rest
    else (if c = point '\n' then c else point ' ') :: blankComments .block rest
  | .closing, _ :: rest => point ' ' :: blankComments .code rest
  | .line, c :: rest =>
    if c = point '\n' then c :: blankComments .code rest
    else point ' ' :: blankComments .line rest

def isWordPoint (c : CodePoint) : Bool :=
  (48 ≤ c.val && c.val ≤ 57) || (65 ≤ c.val && c.val ≤ 90) || c.val = 95 ||
    (97 ≤ c.val && c.val ≤ 122)

/-- The names of the headers of cells anywhere in a text, out of its strings. -/
def groupNames (quoted inWord : Bool) : PyStr → List PyStr
  | [] => []
  | c :: rest =>
    (if quoted || inWord || isSpace c then [] else (cellHeader (c :: rest)).toList) ++
      groupNames (if c = point '"' then !quoted else quoted) (isWordPoint c) rest

def declaredCells (text : PyStr) : List PyStr := groupNames false false (blankComments .code text)

end Declarations

/-- What is known of a run apart from its native outputs; each native error with whether it is one
of engineering. -/
structure RunEvidence where
  completed : Bool
  captureComplete : Bool
  inputsStable : Bool
  dependencyClosureStable : Bool
  toolIdentityStable : Bool
  abcToolIdentityStable : Bool
  generatedEvidenceStable : Bool
  artifactRecordsStable : Bool
  nativeCaptureSafe : Bool
  exitCode : Option ℤ
  nativeErrors : List (PyStr × Bool)

def RunEvidence.trustworthy (evidence : RunEvidence) : Bool :=
  evidence.completed && evidence.captureComplete && evidence.inputsStable &&
    evidence.dependencyClosureStable && evidence.toolIdentityStable &&
    evidence.abcToolIdentityStable && evidence.generatedEvidenceStable &&
    evidence.artifactRecordsStable && evidence.nativeCaptureSafe

/-- The outputs that were captured: the size of the netlist, and the JSON of the other files or why
there is none. -/
structure NativeOutputs (F : Type) where
  netlistBytes : Option ℕ
  mappedJson : Option (Except Stop (PyJson F))
  mappedStats : Option (Except Stop (PyJson F))
  inferenceStats : Option (Except Stop (PyJson F))

inductive Status where
  | pass | fail | unknown
  deriving DecidableEq

structure SynthesisReport where
  mappingComplete : Bool
  status : Status

section Verdict

variable {F : Type} [PyFloat F]

structure Documents where
  stats : Option Statistics
  mapped : Option MappedStructure
  inference : Option Statistics

def loadDocuments (requestedTop : PyStr) (outputs : NativeOutputs F) :
    Except PyException Documents := do
  let stats ← retained (outputs.mappedStats.map (· >>= validateStatistics requestedTop))
  let mapped ← retained (outputs.mappedJson.map (· >>= validateStructure requestedTop))
  let inference ← retained (outputs.inferenceStats.map (· >>= validateStatistics requestedTop))
  .ok ⟨stats, mapped, inference⟩

def agrees (mapped : MappedStructure) (stats : Statistics) : Bool :=
  mapped.numCells = stats.numCells && mapped.numCellsByType.sameAs stats.numCellsByType

def mappedOutputsComplete (outputs : NativeOutputs F) (documents : Documents) : Bool :=
  documents.stats.any (fun stats => documents.mapped.any (fun mapped => agrees mapped stats)) &&
    documents.inference.isSome && outputs.netlistBytes.any (fun bytes => decide (0 < bytes)) &&
    outputs.mappedJson.isSome && outputs.mappedStats.isSome && outputs.inferenceStats.isSome

def unmapped (libertyCellNames : List PyStr) (stats : Statistics) : List PyStr :=
  stats.numCellsByType.keys.filter fun name =>
    decide (name.head? = some (point '$')) || decide (name ∉ libertyCellNames)

def structuralMappingFailure (libertyCellNames : List PyStr) (stats : Statistics) : Bool :=
  stats.numProcesses ≠ 0 || stats.numMemories ≠ 0 || stats.numMemoryBits ≠ 0 ||
    unmapped libertyCellNames stats ≠ []

/-- The verdict of `synthesize` on a run. -/
def judge (evidence : RunEvidence) (libertyCellNames : List PyStr) (outputs : NativeOutputs F)
    (documents : Documents) : SynthesisReport :=
  let complete := mappedOutputsComplete outputs documents
  let failure := complete && documents.stats.any (structuralMappingFailure libertyCellNames)
  let mappingComplete := evidence.trustworthy && decide (evidence.exitCode = some 0) &&
    evidence.nativeErrors.isEmpty && complete && !failure
  ⟨mappingComplete,
    if mappingComplete then .pass
    else if evidence.trustworthy && (evidence.nativeErrors.any Prod.snd || failure) then .fail
    else .unknown⟩

/-- `synthesize` from the Liberty text and the captured run on. -/
def synthesize (evidence : RunEvidence) (liberty : Option (ℕ × List UInt8)) (requestedTop : PyStr)
    (outputs : NativeOutputs F) : Except PyException SynthesisReport :=
  match libertyCells liberty with
  | .error _ => .ok ⟨false, .unknown⟩
  | .ok libertyCellNames =>
    (loadDocuments requestedTop outputs).map (judge evidence libertyCellNames outputs)

end Verdict

end OpenADA.Synth
