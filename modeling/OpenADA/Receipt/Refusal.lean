import OpenADA.Receipt.Read

/-! The receipt reader ends with its own error, except where the section of a simulation file is a
list or an object. -/
namespace OpenADA.Receipt

open PyStr Series JsonReader

section Typed

def Typed {α : Type} (x : Except ReceiptError α) : Prop := x ≠ .error .raised

variable {α β : Type}

theorem typed_iff {x : Except ReceiptError α} :
    Typed x ↔ (∃ a, x = .ok a) ∨ ∃ code label, x = .error (.refused code label) := by
  cases x with
  | ok a => exact ⟨fun _ => .inl ⟨a, rfl⟩, fun _ h => nomatch h⟩
  | error e =>
    cases e with
    | refused code label => exact ⟨fun _ => .inr ⟨code, label, rfl⟩, fun _ h => nomatch h⟩
    | raised =>
      constructor
      · exact fun h => absurd rfl h
      · rintro (⟨a, h⟩ | ⟨code, label, h⟩) <;> cases h

theorem typed_ok (a : α) : Typed (.ok a) := fun h => nomatch h

theorem typed_fail (code label : String) : Typed (fail code label : Except ReceiptError α) :=
  fun h => nomatch h

theorem typed_demand (code label : String) (holds : Bool) : Typed (demand code label holds) := by
  cases holds
  · exact typed_fail code label
  · exact typed_ok ()

theorem Typed.bind {x : Except ReceiptError α} {f : α → Except ReceiptError β} (hx : Typed x)
    (hf : ∀ a, Typed (f a)) : Typed (x >>= f) := by
  intro h
  rcases Except.bind_eq_error.mp h with h | ⟨a, -, h⟩
  · exact hx h
  · exact hf a h

theorem raised_bind {x : Except ReceiptError α} {f : α → Except ReceiptError β} (hx : Typed x) :
    (x >>= f) = .error .raised ↔ ∃ a, x = .ok a ∧ f a = .error .raised := by
  rw [Except.bind_eq_error]
  exact ⟨fun h => h.resolve_left hx, .inr⟩

end Typed

section Fields

variable {F : Type}

theorem typed_closed (label : String) (required : List String) (value : PyJson F) :
    Typed (closed label required value) := by
  unfold closed
  split
  · exact typed_ok _
  · exact typed_fail _ _

theorem typed_sha256Field (label : String) (value : PyJson F) : Typed (sha256Field label value) := by
  unfold sha256Field
  split
  · exact typed_ok _
  · exact typed_fail _ _

theorem typed_validateJob (value : PyJson F) : Typed (validateJob value) := by
  refine (typed_closed _ _ _).bind fun job => ?_
  split
  · split
    · exact (typed_sha256Field _ _).bind fun subject => typed_ok _
    · exact typed_fail _ _
  · exact typed_fail _ _

theorem typed_validateEvidenceRecord (role : EvidenceRole) (evidence : Fields F) :
    Typed (validateEvidenceRecord role evidence) := by
  refine (typed_closed _ _ _).bind fun record => ?_
  split
  · split
    · exact typed_fail _ _
    · exact (typed_sha256Field _ _).bind fun digest => typed_ok _
  · exact typed_fail _ _

theorem typed_validateEvidenceRecords (evidence : Fields F) :
    Typed (validateEvidenceRecords evidence) := by
  have hrole (role : EvidenceRole) := typed_validateEvidenceRecord role evidence
  refine (hrole _).bind fun _ => (hrole _).bind fun _ => (hrole _).bind fun _ => ?_
  exact (hrole _).bind fun _ => (hrole _).bind fun _ => (hrole _).bind fun _ => typed_ok _

theorem typed_validateSeal (value : PyJson F) : Typed (validateSeal value) := by
  refine (typed_closed _ _ _).bind fun signed => (typed_demand _ _ _).bind fun _ => ?_
  refine (typed_sha256Field _ _).bind fun keyId => ?_
  split
  · split
    · exact typed_ok _
    · exact typed_fail _ _
  · exact typed_fail _ _

theorem typed_validateFileFields (label : String) (record : Fields F) :
    Typed (validateFileFields label record) := by
  refine (typed_demand _ _ _).bind fun _ => (typed_demand _ _ _).bind fun _ => ?_
  refine (typed_demand _ _ _).bind fun _ => (typed_demand _ _ _).bind fun _ => ?_
  exact fun h => typed_sha256Field _ _ (Except.map_eq_error h)

theorem validateSimulationFile_raised {index : ℕ} {value : PyJson F} :
    validateSimulationFile index value = .error .raised ↔ HasUnhashableSection index value := by
  unfold validateSimulationFile HasUnhashableSection
  rw [raised_bind (typed_closed _ _ _)]
  refine exists_congr fun record => and_congr_right fun _ => ?_
  have htyped := typed_validateFileFields s!"receipt.evidence.simulation_files[{index}]" record
  cases field record "section" with
  | array items => exact ⟨fun _ => rfl, fun _ => rfl⟩
  | object fields => exact ⟨fun _ => rfl, fun _ => rfl⟩
  | _ => exact ⟨fun h => absurd h htyped, fun h => nomatch h⟩

theorem validateSimulationFiles_raised {value : PyJson F} :
    validateSimulationFiles value = .error .raised ↔ ∃ before file after,
      value = .array (before ++ file :: after) ∧ 2 ≤ (before ++ file :: after).length ∧
        (before ++ file :: after).length ≤ maxSimulationFileRecords ∧
        (∀ earlier ∈ before.zipIdx, validateSimulationFile earlier.2 earlier.1 = .ok ()) ∧
          HasUnhashableSection before.length file := by
  cases value with
  | array items =>
    constructor
    · intro h
      rw [validateSimulationFiles] at h
      split at h
      · rename_i hlength
        obtain ⟨before, file, after, rfl, hbefore, hfile⟩ :=
          Except.mapM_zipIdx_eq_error.mp (Except.map_eq_error h)
        rw [Nat.zero_add] at hfile
        refine ⟨before, file, after, rfl, hlength.1, hlength.2, ?_,
          validateSimulationFile_raised.mp hfile⟩
        intro earlier hearlier
        obtain ⟨⟨⟩, hok⟩ := hbefore earlier hearlier
        exact hok
      · cases h
    · rintro ⟨before, file, after, hitems, hlow, hhigh, hbefore, hfile⟩
      obtain rfl := PyJson.array.inj hitems
      rw [validateSimulationFiles, if_pos ⟨hlow, hhigh⟩,
        Except.mapM_zipIdx_eq_error.mpr ⟨before, file, after, rfl, fun earlier hearlier =>
          ⟨(), hbefore earlier hearlier⟩, by
            rw [Nat.zero_add]
            exact validateSimulationFile_raised.mpr hfile⟩]
      rfl
  | _ =>
    constructor
    · exact fun h => nomatch h
    · rintro ⟨_, _, _, h, -⟩
      cases h

/-- The shape check raises exactly where it reaches an unhashable section. -/
theorem validateReceiptShape_raised {receipt : PyJson F} :
    validateReceiptShape receipt = .error .raised ↔ ReachesUnhashableSection receipt := by
  unfold validateReceiptShape
  rw [raised_bind (typed_closed _ _ _)]
  constructor
  · rintro ⟨root, hroot, h⟩
    obtain ⟨_, hschema, h⟩ := (raised_bind (typed_demand _ _ _)).mp h
    split at h
    · rename_i hextensions
      obtain ⟨job, hjob, h⟩ := (raised_bind (typed_validateJob _)).mp h
      obtain ⟨evidence, hevidence, h⟩ := (raised_bind (typed_closed _ _ _)).mp h
      obtain ⟨records, hrecords, h⟩ := (raised_bind (typed_validateEvidenceRecords _)).mp h
      rcases Except.bind_eq_error.mp h with h | ⟨_, -, h⟩
      · obtain ⟨before, file, after, hfiles, hlow, hhigh, hbefore, hfile⟩ :=
          validateSimulationFiles_raised.mp h
        refine ⟨root, job, evidence, records, before, file, after, hroot, ?_, hextensions, hjob,
          hevidence, hrecords, hfiles, hlow, hhigh, hbefore, hfile⟩
        by_contra hne
        rw [Bool.eq_false_iff.mpr hne] at hschema
        cases hschema
      · exact absurd h ((typed_validateSeal _).bind fun _ => typed_ok _)
    · cases h
  · rintro ⟨root, job, evidence, records, before, file, after, hroot, hschema, hextensions, hjob,
      hevidence, hrecords, hfiles, hlow, hhigh, hbefore, hfile⟩
    refine ⟨root, hroot, ?_⟩
    rw [hschema, show demand structureInvalid "receipt.schema" true = .ok () from rfl,
      Except.ok_bind, hextensions]
    simp only
    rw [hjob, Except.ok_bind, hevidence, Except.ok_bind, hrecords, Except.ok_bind,
      validateSimulationFiles_raised.mpr ⟨before, file, after, hfiles, hlow, hhigh, hbefore, hfile⟩]
    rfl

end Fields

section Reader

variable {F : Type}

theorem typed_strictJson [PyFloat F] (floatText : PyStr → F) (label : String) (body : ByteArray) :
    Typed (strictJson floatText label body) := by
  have hhooks : (strictHooks floatText label).ErrorsAre fun e => e ≠ ReceiptError.raised := by
    refine ⟨(fun h => nomatch h), ?_, ?_, ?_, ?_⟩
    · rintro token e h rfl
      cases h
    · rintro token e h rfl
      simp only [strictHooks] at h
      split at h <;> cases h
    · rintro token e h rfl
      simp only [strictHooks] at h
      split at h <;> cases h
    · rintro fields e h rfl
      simp only [strictHooks] at h
      split at h <;> cases h
  have hloads : Typed (loads (strictHooks floatText label) body) :=
    fun h => loads_error hhooks h rfl
  refine hloads.bind fun value => (typed_demand _ _ _).bind fun _ => ?_
  exact (typed_demand _ _ _).bind fun _ => typed_ok _

variable [PyFloatText F]

theorem typed_verifySignature (sha256 : ByteArray → Sha256)
    (valid : ByteArray → PyStr → ByteArray → Bool) (pinnedPublicKey : ByteArray)
    (receipt : ReceiptShape F) : Typed (verifySignature sha256 valid pinnedPublicKey receipt) := by
  refine (typed_demand _ _ _).bind fun _ => (typed_demand _ _ _).bind fun _ => ?_
  split
  · exact typed_fail _ _
  · exact typed_demand _ _ _

/-- The reader succeeds or refuses with its own error exactly on the receipts that do not reach a
simulation file whose section is a list or an object. -/
theorem receipt_refused_typed (floatText : PyStr → F) (sha256 : ByteArray → Sha256)
    (valid : ByteArray → PyStr → ByteArray → Bool) (pinnedPublicKey body : ByteArray) :
    ((∃ shape, readReceipt floatText sha256 valid pinnedPublicKey body = .ok shape) ∨
        ∃ code label, readReceipt floatText sha256 valid pinnedPublicKey body =
          .error (.refused code label)) ↔
      ¬ ∃ receipt, strictJson floatText "receipt" body = .ok receipt ∧
        ReachesUnhashableSection receipt := by
  rw [← typed_iff, Typed, not_iff_not]
  unfold readReceipt
  rw [raised_bind (typed_strictJson _ _ _)]
  refine exists_congr fun receipt => and_congr_right fun _ => ?_
  rw [← validateReceiptShape_raised, Except.bind_eq_error]
  constructor
  · rintro (h | ⟨shape, -, h⟩)
    · exact h
    · exact absurd h ((typed_verifySignature _ _ _ _).bind fun _ => typed_ok _)
  · exact .inl

end Reader

section Failing

def zeroDigest : PyStr := List.replicate 64 (point '0')

def sealedRecord : PyJson SignedRat :=
  .object [(lit "bytes", .int 1), (lit "sha256", .str zeroDigest)]

def simulationFile (part : PyJson SignedRat) (index : ℤ) : PyJson SignedRat :=
  .object [(lit "section", part), (lit "index", .int index), (lit "kind", .str (lit "log")),
    (lit "role", .str (lit "simulation.log")), (lit "path", .str (lit "/run.log")),
    (lit "bytes", .int 1), (lit "sha256", .str zeroDigest)]

def listSectionReceipt : PyJson SignedRat :=
  .object [(lit "schema", .str (lit receiptSchema)),
    (lit "job", .object [(lit "instance", .str (lit "job")), (lit "subject_sha256", .str zeroDigest)]),
    (lit "evidence", .object (evidenceRoles.map (fun role => (lit role.name, sealedRecord)) ++
      [(lit "simulation_files", .array [simulationFile (.array []) 0,
        simulationFile (.str (lit "inputs")) 1])])),
    (lit "extensions", .object []), (lit "seal", .object [])]

def asciiBytes (text : PyStr) : ByteArray := ⟨⟨text.map fun c => UInt8.ofNat c.val⟩⟩

def listSectionBody : ByteArray :=
  asciiBytes ((listSectionReceipt.canonical?.map JsonText.render).getD [])

def isRaised {α : Type} : Except ReceiptError α → Bool
  | .error .raised => true
  | _ => false

theorem raised_of_isRaised {α : Type} {x : Except ReceiptError α} (h : isRaised x = true) :
    x = .error .raised := by
  cases x with
  | ok a => cases h
  | error e =>
    cases e with
    | refused code label => cases h
    | raised => rfl

/-- No conformance error is raised for this receipt, whatever follows the reading of its shape. -/
theorem list_section_raises (sha256 : ByteArray → Sha256)
    (valid : ByteArray → PyStr → ByteArray → Bool) (pinnedPublicKey : ByteArray) :
    readReceipt (fun _ => SignedRat.rat 0) sha256 valid pinnedPublicKey listSectionBody =
      .error .raised := by
  have hshape : isRaised (strictJson (fun _ => SignedRat.rat 0) "receipt" listSectionBody >>=
      fun receipt => validateReceiptShape receipt) = true := by decide +kernel
  obtain ⟨receipt, hreceipt, hraised⟩ :=
    (raised_bind (typed_strictJson _ _ _)).mp (raised_of_isRaised hshape)
  unfold readReceipt
  rw [hreceipt, Except.ok_bind, hraised]
  rfl

/-- A receipt with a list for the section of a simulation file raises a TypeError. -/
theorem list_section_untyped :
    ¬ Typed (readReceipt (fun _ => SignedRat.rat 0)
      (fun _ => ⟨zeroDigest, by decide⟩) (fun _ _ _ => true) ⟨Array.replicate 32 0⟩
        listSectionBody) :=
  fun h => h (list_section_raises _ _ _)

end Failing

end OpenADA.Receipt
