import OpenADA.Series.Simulation

/-! The sealed receipt: its closed shape, the roles of its evidence, and the seal over its canonical
unsigned form. -/
namespace OpenADA.Receipt

open PyStr Series

/-- How a verification ends without a result: the code of a conformance error and the part it
names, or another exception. -/
inductive ReceiptError where
  | refused (code label : String)
  | raised
  deriving DecidableEq

def fail {α : Type} (code label : String) : Except ReceiptError α := .error (.refused code label)

def structureInvalid : String := "receipt.structure.invalid"

def demand (code label : String) (holds : Bool) : Except ReceiptError Unit :=
  if holds then .ok () else fail code label

variable {F : Type}

/-- `_closed`. -/
def closed (label : String) (required : List String) (value : PyJson F) :
    Except ReceiptError (Fields F) :=
  match closedObject structureInvalid label required [] value with
  | .ok fields => .ok fields
  | .error _ => fail structureInvalid label

/-- `_sha256`. -/
def sha256Field (label : String) (value : PyJson F) : Except ReceiptError Sha256 :=
  match digestOf? value with
  | some digest => .ok digest
  | none => fail structureInvalid label

/-- `_EVIDENCE_ROLES`. -/
inductive EvidenceRole where
  | simulationEnvelope
  | simulationArtifact
  | selectionRequest
  | extractionEnvelope
  | measurementRequest
  | measurementEnvelope
  deriving DecidableEq

def EvidenceRole.name : EvidenceRole → String
  | .simulationEnvelope => "simulation_envelope"
  | .simulationArtifact => "simulation_artifact"
  | .selectionRequest => "selection_request"
  | .extractionEnvelope => "extraction_envelope"
  | .measurementRequest => "measurement_request"
  | .measurementEnvelope => "measurement_envelope"

def evidenceRoles : List EvidenceRole :=
  [.simulationEnvelope, .simulationArtifact, .selectionRequest, .extractionEnvelope,
    .measurementRequest, .measurementEnvelope]

/-- `RECEIPT_SCHEMA`. -/
def receiptSchema : String := "openada.conformance-receipt/v0alpha1"

/-- `SIGNATURE_DOMAIN`. -/
def signatureDomain : ByteArray := receiptSchema.toUTF8.push 0

/-- `MAX_SIMULATION_FILE_RECORDS`. -/
def maxSimulationFileRecords : ℕ := maxInputRecords + 64

structure Job where
  name : PyStr
  subjectSha256 : Sha256
  deriving DecidableEq

structure EvidenceRecord where
  bytes : ℕ
  sha256 : Sha256

structure Seal where
  keyId : Sha256
  signatureHex : PyStr

/-- A receipt of the right shape; its simulation files are compared as they stand. -/
structure ReceiptShape (F : Type) where
  fields : Fields F
  job : Job
  records : EvidenceRole → EvidenceRecord
  simulationFiles : PyJson F
  signed : Seal

def isJobName (name : PyStr) : Bool := !name.isEmpty && name.length ≤ 256

def validateJob (value : PyJson F) : Except ReceiptError Job := do
  let job ← closed "receipt.job" ["instance", "subject_sha256"] value
  match field job "instance" with
  | .str name =>
    if isJobName name then do
      let subject ← sha256Field "receipt.job.subject_sha256" (field job "subject_sha256")
      .ok ⟨name, subject⟩
    else fail structureInvalid "receipt.job.instance"
  | _ => fail structureInvalid "receipt.job.instance"

def validateEvidenceRecord (role : EvidenceRole) (evidence : Fields F) :
    Except ReceiptError EvidenceRecord := do
  let label := s!"receipt.evidence.{role.name}"
  let record ← closed label ["bytes", "sha256"] (field evidence role.name)
  match sizeOf? (field record "bytes") with
  | some size =>
    if role = .simulationArtifact ∧ size = 0 then fail structureInvalid s!"{label}.bytes"
    else do
      let digest ← sha256Field s!"{label}.sha256" (field record "sha256")
      .ok ⟨size, digest⟩
  | none => fail structureInvalid s!"{label}.bytes"

def isPlainText : PyJson F → Bool
  | .str value => !value.isEmpty && value.length ≤ 4095 && value.all fun c => 32 ≤ c.val
  | _ => false

def validateFileFields (label : String) (record : Fields F) : Except ReceiptError Unit := do
  let part := field record "section"
  demand structureInvalid s!"{label}.section" (part.isText "inputs" || part.isText "artifacts")
  demand structureInvalid s!"{label}.index" (sizeOf? (field record "index")).isSome
  demand structureInvalid s!"{label}.text"
    (["kind", "role", "path"].all fun name => isPlainText (field record name))
  demand structureInvalid s!"{label}.bytes" (sizeOf? (field record "bytes")).isSome
  (sha256Field s!"{label}.sha256" (field record "sha256")).map fun _ => ()

/-- One simulation file; a section that is a list or an object raises the TypeError of a set. -/
def validateSimulationFile (index : ℕ) (value : PyJson F) : Except ReceiptError Unit := do
  let label := s!"receipt.evidence.simulation_files[{index}]"
  let record ← closed label ["section", "index", "kind", "role", "path", "bytes", "sha256"] value
  match field record "section" with
  | .array _ => .error .raised
  | .object _ => .error .raised
  | _ => validateFileFields label record

def validateSimulationFiles (value : PyJson F) : Except ReceiptError Unit :=
  match value with
  | .array items =>
    if 2 ≤ items.length ∧ items.length ≤ maxSimulationFileRecords then
      (items.zipIdx.mapM fun entry => validateSimulationFile entry.2 entry.1).map fun _ => ()
    else fail structureInvalid "receipt.evidence.simulation_files"
  | _ => fail structureInvalid "receipt.evidence.simulation_files"

/-- `_SIGNATURE_RE`. -/
def isSignature (text : PyStr) : Bool := decide (text.length = 128) && text.all isHex

def validateSeal (value : PyJson F) : Except ReceiptError Seal := do
  let signed ← closed "receipt.seal" ["algorithm", "key_id", "signature_hex"] value
  demand structureInvalid "receipt.seal.algorithm" ((field signed "algorithm").isText "ed25519")
  let keyId ← sha256Field "receipt.seal.key_id" (field signed "key_id")
  match field signed "signature_hex" with
  | .str signature =>
    if isSignature signature then .ok ⟨keyId, signature⟩
    else fail structureInvalid "receipt.seal.signature_hex"
  | _ => fail structureInvalid "receipt.seal.signature_hex"

def validateEvidenceRecords (evidence : Fields F) :
    Except ReceiptError (EvidenceRole → EvidenceRecord) := do
  let envelope ← validateEvidenceRecord .simulationEnvelope evidence
  let artifact ← validateEvidenceRecord .simulationArtifact evidence
  let selection ← validateEvidenceRecord .selectionRequest evidence
  let extraction ← validateEvidenceRecord .extractionEnvelope evidence
  let request ← validateEvidenceRecord .measurementRequest evidence
  let measurement ← validateEvidenceRecord .measurementEnvelope evidence
  .ok fun
    | .simulationEnvelope => envelope
    | .simulationArtifact => artifact
    | .selectionRequest => selection
    | .extractionEnvelope => extraction
    | .measurementRequest => request
    | .measurementEnvelope => measurement

/-- `_validate_receipt_shape`. -/
def validateReceiptShape (receipt : PyJson F) : Except ReceiptError (ReceiptShape F) := do
  let root ← closed "receipt" ["schema", "job", "evidence", "extensions", "seal"] receipt
  demand structureInvalid "receipt.schema" ((field root "schema").isText receiptSchema)
  match field root "extensions" with
  | .object [] => do
    let job ← validateJob (field root "job")
    let evidence ← closed "receipt.evidence"
      (evidenceRoles.map EvidenceRole.name ++ ["simulation_files"]) (field root "evidence")
    let records ← validateEvidenceRecords evidence
    validateSimulationFiles (field evidence "simulation_files")
    let signed ← validateSeal (field root "seal")
    .ok ⟨root, job, records, field evidence "simulation_files", signed⟩
  | _ => fail structureInvalid "receipt.extensions"

section Signature

variable [PyFloatText F]

/-- `_canonical_unsigned`. -/
def canonicalUnsigned (receipt : Fields F) : Option ByteArray :=
  ((PyJson.object (receipt.filter fun entry => entry.1 ≠ lit "seal")).encoded?).map
    fun encoded => signatureDomain ++ encoded

/-- `_verify_signature`; `valid` is the Ed25519 check of a signature over a message. -/
def verifySignature (sha256 : ByteArray → Sha256)
    (valid : ByteArray → PyStr → ByteArray → Bool) (pinnedPublicKey : ByteArray)
    (receipt : ReceiptShape F) : Except ReceiptError Unit := do
  demand "receipt.key.invalid" "pinned_public_key" (pinnedPublicKey.size = 32)
  demand "receipt.key.mismatch" "receipt.seal.key_id" (receipt.signed.keyId = sha256 pinnedPublicKey)
  match canonicalUnsigned receipt.fields with
  | none => fail structureInvalid "receipt"
  | some message =>
    demand "receipt.signature.invalid" "receipt.seal"
      (valid pinnedPublicKey receipt.signed.signatureHex message)

end Signature

end OpenADA.Receipt
