import OpenADA.Library.JsonReader
import OpenADA.Receipt.Shape

/-! The reading of a receipt before its seal is trusted: strict JSON, the closed shape and the
signature. -/
namespace OpenADA.Receipt

open PyStr Series JsonReader

def jsonInvalid : String := "receipt.json.invalid"

/-- `MAX_JSON_STRUCTURE_DEPTH`. -/
def maxStructureDepth : ℕ := 64

def maxStructureNodes : ℕ := 1000000

section Decoder

variable {F : Type} [PyFloat F] (floatText : PyStr → F)

/-- The hooks of `_strict_json`: `floatText` is `float` of a token. -/
def strictHooks (label : String) : Hooks F ReceiptError where
  malformed := .refused jsonInvalid label
  constant _ := fail jsonInvalid label
  integer token :=
    if (token.dropWhile fun c => c = point '-').length > 1000 then fail jsonInvalid label
    else .ok (.int (integerOf token))
  floating token :=
    if PyFloat.isFinite (floatText token) then .ok (.float (floatText token))
    else fail jsonInvalid label
  pairs fields := if (fields.map Prod.fst).Nodup then .ok (.object fields) else fail jsonInvalid label

/-- `_strict_json`. -/
def strictJson (label : String) (body : ByteArray) : Except ReceiptError (PyJson F) := do
  let value ← loads (strictHooks floatText label) body
  demand jsonInvalid label (isMapping value)
  demand jsonInvalid label (value.nodes ≤ maxStructureNodes && value.depth ≤ maxStructureDepth)
  .ok value

end Decoder

section Reader

variable {F : Type} [PyFloatText F] (floatText : PyStr → F) (sha256 : ByteArray → Sha256)
  (valid : ByteArray → PyStr → ByteArray → Bool)

def readReceipt (pinnedPublicKey body : ByteArray) : Except ReceiptError (ReceiptShape F) := do
  let receipt ← strictJson floatText "receipt" body
  let shape ← validateReceiptShape receipt
  verifySignature sha256 valid pinnedPublicKey shape
  .ok shape

end Reader

section Typed

variable {F : Type}

def isUnhashable : PyJson F → Bool
  | .array _ => true
  | .object _ => true
  | _ => false

def HasUnhashableSection (index : ℕ) (value : PyJson F) : Prop :=
  ∃ record, closed s!"receipt.evidence.simulation_files[{index}]"
      ["section", "index", "kind", "role", "path", "bytes", "sha256"] value = .ok record ∧
    isUnhashable (field record "section") = true

/-- The receipt is in order up to a simulation file whose section is unhashable. -/
structure ReachesUnhashableSection (receipt : PyJson F) : Prop where
  reached : ∃ root job evidence records before file after,
    closed "receipt" ["schema", "job", "evidence", "extensions", "seal"] receipt = .ok root ∧
    (field root "schema").isText receiptSchema = true ∧ field root "extensions" = .object [] ∧
    validateJob (field root "job") = .ok job ∧
    closed "receipt.evidence" (evidenceRoles.map EvidenceRole.name ++ ["simulation_files"])
      (field root "evidence") = .ok evidence ∧
    validateEvidenceRecords evidence = .ok records ∧
    field evidence "simulation_files" = .array (before ++ file :: after) ∧
    2 ≤ (before ++ file :: after).length ∧
    (before ++ file :: after).length ≤ maxSimulationFileRecords ∧
    (∀ earlier ∈ before.zipIdx, validateSimulationFile earlier.2 earlier.1 = .ok ()) ∧
    HasUnhashableSection before.length file

end Typed

end OpenADA.Receipt
