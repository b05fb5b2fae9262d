import OpenADA.Oracle.Compare
import OpenADA.Runner.Outputs

/-! The runner's evidence envelope as the JSON value the comparator is given, and the document
the comparator reads out of it. -/
namespace OpenADA.Evidence

open OpenADA.Plan (Id)
open OpenADA.Compiler (Sha256)
open OpenADA.Runner OpenADA.Oracle

variable {F : Type} [PyFloat F]

def renderNumbers (values : List F) : Json F := .array (values.map .float)

def renderPayload : Payload F → Json F
  | .scalar value => .float value
  | .curve x y => .object [("x", renderNumbers x), ("y", renderNumbers y)]
  | .fit slope intercept r2 =>
    .object [("slope", .float slope), ("intercept", .float intercept), ("r2", .float r2)]
  | .interval lower upper => .object [("lower", .float lower), ("upper", .float upper)]
  | .signs values => .array (values.map .int)

def renderObserved : Observed F → Json F
  | .measured value => renderPayload value
  | .verdict text => .str text

def renderTexts (texts : List String) : Json F := .array (texts.map .str)

def renderDigest (digest : Sha256) : Json F := .str digest.1

def renderCondition (condition : ConditionRecord) : Json F :=
  .object [("id", .str condition.id), ("observables", renderTexts condition.observables),
    ("receipt", .object [("compiled_deck_sha256", renderDigest condition.compiledDeckSha256),
      ("waveform_sha256", renderDigest condition.waveformSha256)])]

def renderLineage (record : LineageRecord) : Json F :=
  .object [("observable", .str record.observable),
    ("condition_ids", renderTexts record.conditionIds)]

def renderMetadata (envelope : Envelope F) : Json F :=
  .object [("grading_runtime_s", .float envelope.gradingRuntime),
    ("conditions", .array (envelope.conditions.map renderCondition)),
    ("lineage", .array (envelope.lineage.map renderLineage)), ("extensions", .object [])]

def renderVerdicts (validity : InsertionDict String String) : List (String × Json F) :=
  validity.entries.map fun entry => (entry.1, .str entry.2)

def renderObservables (observables : InsertionDict Id (Observed F)) : List (String × Json F) :=
  observables.entries.map fun entry => (entry.1, renderObserved entry.2)

def envelopeFields (envelope : Envelope F) : List (String × Json F) :=
  [("schema", .str observablesSchema), ("plan_sha256", renderDigest envelope.planSha256),
    ("dut_sha256", renderDigest envelope.dutSha256), ("corner", .str envelope.corner),
    ("validity", .object (renderVerdicts envelope.validity)),
    ("observables", .object (renderObservables envelope.observables)),
    ("metadata", renderMetadata envelope), ("extensions", .object [])]

def renderEnvelope (envelope : Envelope F) : Json F := .object (envelopeFields envelope)

def conditionEntryOf (condition : ConditionRecord) : ConditionEntry :=
  ⟨condition.id, condition.observables⟩

def lineageEntryOf (record : LineageRecord) : LineageEntry :=
  ⟨record.observable, record.conditionIds⟩

def metadataOf (envelope : Envelope F) : Metadata F :=
  ⟨envelope.gradingRuntime, envelope.conditions.map conditionEntryOf,
    envelope.lineage.map lineageEntryOf⟩

def documentOf (envelope : Envelope F) : Document F where
  corner := envelope.corner
  validity := envelope.validity
  observables := envelope.observables.mapValues fun _ value => renderObserved value
  metadata := some (metadataOf envelope)

omit [PyFloat F] in
theorem closed_object {fields : List (String × Json F)} {label : String} {required : List String}
    (hn : (fields.map Prod.fst).Nodup) (hkeys : ∀ key, key ∈ fields.map Prod.fst ↔ key ∈ required) :
    closed (.object fields) label required [] = .ok (InsertionDict.ofList fields) := by
  have hentries : (InsertionDict.ofList fields).keys = fields.map Prod.fst :=
    congrArg (List.map Prod.fst) (InsertionDict.entries_ofList hn)
  have hmissing : required.filter (fun key =>
      decide (key ∉ (InsertionDict.ofList fields).keys)) = [] := by
    rw [List.filter_eq_nil_iff]
    intro key hkey
    simpa [hentries] using List.mem_map.mp ((hkeys key).mpr hkey)
  have hunknown : (InsertionDict.ofList fields).keys.filter (fun key =>
      decide (key ∉ required ∧ key ∉ ([] : List String))) = [] := by
    rw [List.filter_eq_nil_iff]
    intro key hkey
    rw [hentries] at hkey
    simp [(hkeys key).mp hkey]
  simp only [closed, hmissing, hunknown]
  rfl

omit [PyFloat F] in
theorem strings?_renderTexts (texts : List String) :
    strings? (renderTexts texts : Json F) = some texts := by
  change (texts.map (Json.str (F := F))).mapM text? = some texts
  induction texts with
  | nil => rfl
  | cons text rest ih =>
    rw [List.map_cons, List.mapM_cons, ih]
    rfl

def TextsOk (minimum maximum : ℕ) (texts : List String) : Prop :=
  (minimum ≤ texts.length ∧ texts.length ≤ maximum) ∧ (∀ text ∈ texts, isFieldName text = true) ∧
    texts.Nodup

omit [PyFloat F] in
theorem stringArray_eq_ok {texts out : List String} {label : String} {maximum minimum : ℕ} :
    stringArray (renderTexts texts : Json F) label maximum minimum = .ok out ↔
      out = texts ∧ TextsOk minimum maximum texts := by
  unfold stringArray TextsOk
  rw [strings?_renderTexts, required_eq_ok, Option.filter_some]
  split_ifs with h
  · simp only [Bool.and_eq_true, decide_eq_true_eq, List.all_eq_true, and_assoc] at h
    simp only [Option.some.injEq, and_assoc]
    exact ⟨fun he => ⟨he.symm, h⟩, fun he => he.1.symm⟩
  · simp only [Bool.and_eq_true, decide_eq_true_eq, List.all_eq_true, and_assoc] at h
    simp only [and_assoc, h, and_false]

omit [PyFloat F] in
theorem isDigest_renderDigest (digest : Sha256) : isDigest (renderDigest digest : Json F) = true := by
  obtain ⟨text, hlen, hhex⟩ := digest
  have hall : text.toList.all OpenADA.Oracle.isHexDigit = true := hhex
  have hbound : 64 ≤ text.toList.length ∧ text.toList.length ≤ 64 := by omega
  simp only [isDigest, renderDigest, boundedText, text?, Option.filter_some, hbound, and_self,
    decide_true, if_true, Option.map_some, Option.getD_some, hall]

omit [PyFloat F] in
theorem fieldName_eq_ok {text out label : String} :
    fieldName (.str text : Json F) label = .ok out ↔ out = text ∧ isFieldName text = true := by
  unfold fieldName
  rw [required_eq_ok, text?, Option.filter_some]
  split_ifs with h
  · simp only [Option.some.injEq, h, and_true]
    exact eq_comm
  · simp [h]

/-- What the comparator requires of one condition record after the earlier ones. -/
def ConditionOk (seen : List ConditionEntry) (condition : ConditionRecord) : Prop :=
  isFieldName condition.id = true ∧ condition.id ∉ seen.map ConditionEntry.id ∧
    TextsOk 0 10000 condition.observables

/-- What the comparator requires of one lineage record after the earlier ones. -/
def LineageOk (conditions : List ConditionEntry) (seen : List LineageEntry)
    (record : LineageRecord) : Prop :=
  isFieldName record.observable = true ∧
    record.observable ∉ seen.map LineageEntry.observable ∧
    TextsOk 1 10000 record.conditionIds ∧
    ∀ id ∈ record.conditionIds, id ∈ conditions.map ConditionEntry.id

omit [PyFloat F] in
theorem requireReceipt_render (compiledDeckSha256 waveformSha256 : Sha256) (label : String) :
    requireReceipt (.object [("compiled_deck_sha256", renderDigest (F := F) compiledDeckSha256),
      ("waveform_sha256", renderDigest waveformSha256)]) label = .ok () := by
  have hroot : closed (.object [("compiled_deck_sha256", renderDigest (F := F) compiledDeckSha256),
      ("waveform_sha256", renderDigest waveformSha256)]) label
      ["compiled_deck_sha256", "waveform_sha256"] [] =
      .ok (InsertionDict.ofList [("compiled_deck_sha256", renderDigest compiledDeckSha256),
        ("waveform_sha256", renderDigest waveformSha256)]) := rfl
  unfold requireReceipt
  rw [hroot, Except.ok_bind, Except.bind_eq_ok]
  exact ⟨(), require_eq_ok.mpr (isDigest_renderDigest compiledDeckSha256),
    require_eq_ok.mpr (isDigest_renderDigest waveformSha256)⟩

omit [PyFloat F] in
theorem conditionEntry_render (role : String) (seen : List ConditionEntry)
    (item : ConditionRecord × ℕ) (out : List ConditionEntry) :
    conditionEntry role seen (renderCondition (F := F) item.1, item.2) = .ok out ↔
      out = seen ++ [conditionEntryOf item.1] ∧ ConditionOk seen item.1 := by
  obtain ⟨condition, index⟩ := item
  have hroot : closed (renderCondition (F := F) condition)
      s!"{role}.metadata.conditions[{index}]" ["id", "observables", "receipt"] [] =
      .ok (InsertionDict.ofList [("id", .str condition.id),
        ("observables", renderTexts condition.observables),
        ("receipt", .object [("compiled_deck_sha256", renderDigest condition.compiledDeckSha256),
          ("waveform_sha256", renderDigest condition.waveformSha256)])]) := rfl
  unfold conditionEntry
  simp only [hroot, Except.ok_bind, Except.bind_eq_ok]
  constructor
  · rintro ⟨identifier, hid, _, hfresh, observables, hobs, _, _, hout⟩
    obtain ⟨rfl, hname⟩ := fieldName_eq_ok.mp hid
    obtain ⟨rfl, htexts⟩ := stringArray_eq_ok.mp hobs
    exact ⟨(Except.ok.inj hout).symm, hname, of_decide_eq_true (require_eq_ok.mp hfresh), htexts⟩
  · rintro ⟨rfl, hname, hfresh, htexts⟩
    exact ⟨_, fieldName_eq_ok.mpr ⟨rfl, hname⟩, (), by simpa using hfresh, _,
      stringArray_eq_ok.mpr ⟨rfl, htexts⟩, (), requireReceipt_render _ _ _, rfl⟩

omit [PyFloat F] in
theorem lineageEntry_render (role : String) (conditions : List ConditionEntry)
    (seen : List LineageEntry) (item : LineageRecord × ℕ) (out : List LineageEntry) :
    lineageEntry role conditions seen (renderLineage (F := F) item.1, item.2) = .ok out ↔
      out = seen ++ [lineageEntryOf item.1] ∧ LineageOk conditions seen item.1 := by
  obtain ⟨record, index⟩ := item
  have hroot : closed (renderLineage (F := F) record)
      s!"{role}.metadata.lineage[{index}]" ["observable", "condition_ids"] [] =
      .ok (InsertionDict.ofList [("observable", .str record.observable),
        ("condition_ids", renderTexts record.conditionIds)]) := rfl
  have hknown : (OpenADA.Plan.sortedNames (record.conditionIds.filter fun id =>
      decide (id ∉ conditions.map ConditionEntry.id))).isEmpty = true ↔
      ∀ id ∈ record.conditionIds, id ∈ conditions.map ConditionEntry.id := by
    rw [List.isEmpty_iff, List.eq_nil_iff_forall_not_mem]
    simp [OpenADA.Plan.sortedNames, List.mem_insertionSort]
  unfold lineageEntry
  simp only [hroot, Except.ok_bind, Except.bind_eq_ok]
  constructor
  · rintro ⟨observable, hid, _, hfresh, ids, hids, _, hunknown, hout⟩
    obtain ⟨rfl, hname⟩ := fieldName_eq_ok.mp hid
    obtain ⟨rfl, htexts⟩ := stringArray_eq_ok.mp hids
    exact ⟨(Except.ok.inj hout).symm, hname, of_decide_eq_true (require_eq_ok.mp hfresh), htexts,
      hknown.mp (require_eq_ok.mp hunknown)⟩
  · rintro ⟨rfl, hname, hfresh, htexts, hall⟩
    exact ⟨_, fieldName_eq_ok.mpr ⟨rfl, hname⟩, (), by simpa using hfresh, _,
      stringArray_eq_ok.mpr ⟨rfl, htexts⟩, (), require_eq_ok.mpr (hknown.mpr hall), rfl⟩

omit [PyFloat F] in
theorem foldlM_render {α β : Type} {render : α → Json F} {entryOf : α → β}
    {step : List β → Json F × ℕ → Except String (List β)} {check : List β → α → Prop}
    (hstep : ∀ seen (item : α × ℕ) out, step seen (render item.1, item.2) = .ok out ↔
      out = seen ++ [entryOf item.1] ∧ check seen item.1) {items : List α} {out : List β} :
    (items.map render).zipIdx.foldlM step [] = .ok out ↔ out = items.map entryOf ∧
      ∀ before a after, items = before ++ a :: after → check (before.map entryOf) a := by
  rw [List.zipIdx_map, List.foldlM_map, Except.foldlM_append_eq_ok (f := fun item => entryOf item.1)
    (c := fun seen item => check seen item.1) hstep]
  have hmap : ∀ rest : List α, ∀ k, (rest.zipIdx k).map (fun item => entryOf item.1) =
      rest.map entryOf := by
    intro rest k
    rw [← List.zipIdx_map_fst k rest, List.map_map, List.zipIdx_map_fst]
    rfl
  rw [List.nil_append, hmap]
  refine and_congr_right fun _ => ⟨?_, ?_⟩
  · intro hall before a after hsplit
    have h := hall (before.zipIdx) (a, before.length) (after.zipIdx (before.length + 1)) (by
      rw [hsplit, List.zipIdx_append, List.zipIdx_cons]
      simp)
    rwa [List.nil_append, hmap] at h
  · intro hall before a after hsplit
    have h := hall (before.map Prod.fst) a.1 (after.map Prod.fst) (by
      rw [← List.zipIdx_map_fst 0 items, hsplit, List.map_append, List.map_cons])
    rwa [List.map_map] at h

structure MetadataOk (envelope : Envelope F) : Prop where
  runtime : nonNegative (.float envelope.gradingRuntime) = some envelope.gradingRuntime
  conditionCount : envelope.conditions.length ≤ 10000
  conditions : ∀ before condition after, envelope.conditions = before ++ condition :: after →
    ConditionOk (before.map conditionEntryOf) condition
  lineageCount : envelope.lineage.length ≤ 10000
  lineage : ∀ before record after, envelope.lineage = before ++ record :: after →
    LineageOk (envelope.conditions.map conditionEntryOf) (before.map lineageEntryOf) record

omit [PyFloat F] in
theorem boundedArray_eq_ok {items out : List (Json F)} {limit : ℕ} {message : String} :
    boundedArray (.array items) limit message = .ok out ↔ out = items ∧ items.length ≤ limit := by
  unfold boundedArray
  by_cases h : items.length ≤ limit
  · simp only [h, if_true, Except.ok.injEq, and_true]
    exact eq_comm
  · simp [h]

theorem nonNegative_eq_some {value found : F} (h : nonNegative (.float value) = some found) :
    found = value := by
  simp only [nonNegative, number?, Option.filter_eq_some_iff] at h
  split_ifs at h
  · exact (Option.some.inj h.1).symm
  · exact nomatch h.1

theorem metadata_render (envelope : Envelope F) (role : String) (out : Metadata F) :
    metadata (renderMetadata envelope) role = .ok out ↔
      out = metadataOf envelope ∧ MetadataOk envelope := by
  have hroot : closed (renderMetadata envelope) s!"{role}.metadata"
      ["grading_runtime_s", "conditions", "lineage", "extensions"] [] =
      .ok (InsertionDict.ofList [("grading_runtime_s", .float envelope.gradingRuntime),
        ("conditions", .array (envelope.conditions.map renderCondition)),
        ("lineage", .array (envelope.lineage.map renderLineage)),
        ("extensions", .object [])]) := rfl
  unfold metadata
  simp only [hroot, Except.ok_bind, Except.bind_eq_ok]
  constructor
  · rintro ⟨_, _, runtime, hruntime, conditionItems, hitems, conditions, hconditions, lineageItems,
      hlines, lineage, hlineage, hout⟩
    have hruntime' := required_eq_ok.mp hruntime
    obtain rfl := nonNegative_eq_some hruntime'
    obtain ⟨rfl, hcount⟩ := boundedArray_eq_ok.mp hitems
    obtain ⟨rfl, hlineCount⟩ := boundedArray_eq_ok.mp hlines
    obtain ⟨rfl, hconditionsOk⟩ :=
      (foldlM_render (conditionEntry_render (F := F) role)).mp hconditions
    obtain ⟨rfl, hlineageOk⟩ :=
      (foldlM_render (lineageEntry_render (F := F) role _)).mp hlineage
    exact ⟨(Except.ok.inj hout).symm, hruntime', by simpa using hcount, hconditionsOk,
      by simpa using hlineCount, hlineageOk⟩
  · rintro ⟨rfl, hok⟩
    exact ⟨(), rfl, _, required_eq_ok.mpr hok.runtime, _,
      boundedArray_eq_ok.mpr ⟨rfl, by simpa using hok.conditionCount⟩, _,
      (foldlM_render (conditionEntry_render (F := F) role)).mpr ⟨rfl, hok.conditions⟩, _,
      boundedArray_eq_ok.mpr ⟨rfl, by simpa using hok.lineageCount⟩, _,
      (foldlM_render (lineageEntry_render (F := F) role _)).mpr ⟨rfl, hok.lineage⟩, rfl⟩

theorem metadata?_render (envelope : Envelope F) (role : String) (out : Option (Metadata F)) :
    metadata? (renderMetadata envelope) role = .ok out ↔
      out = some (metadataOf envelope) ∧ MetadataOk envelope := by
  change (metadata (renderMetadata envelope) role).map some = .ok out ↔ _
  cases hm : metadata (renderMetadata envelope) role with
  | error text =>
    have hbad : ¬ MetadataOk envelope := fun hok => by
      rw [(metadata_render envelope role _).mpr ⟨rfl, hok⟩] at hm
      exact nomatch hm
    simp [Except.map, hbad]
  | ok found =>
    obtain ⟨rfl, hok⟩ := (metadata_render envelope role found).mp hm
    simp only [Except.map, Except.ok.injEq, hok, and_true]
    exact eq_comm

def TextWithin (low high : ℕ) (text : String) : Prop :=
  low ≤ text.toList.length ∧ text.toList.length ≤ high

structure DocumentOk (envelope : Envelope F) : Prop where
  corner : TextWithin 1 256 envelope.corner
  validity : ∀ entry ∈ envelope.validity.entries,
    TextWithin 1 256 entry.1 ∧ TextWithin 1 1024 entry.2
  metadata : MetadataOk envelope

omit [PyFloat F] in
theorem boundedText_str {low high : ℕ} {text found : String} :
    boundedText low high (.str text : Json F) = some found ↔
      found = text ∧ TextWithin low high text := by
  unfold boundedText TextWithin
  rw [text?, Option.filter_some]
  split_ifs with h
  · simp only [Option.some.injEq, of_decide_eq_true h, and_self, and_true]
    exact eq_comm
  · rw [decide_eq_true_eq] at h
    simp [h]

omit [PyFloat F] in
theorem validityEntry_render (role : String) (seen : InsertionDict String String)
    (entry : String × String) (out : InsertionDict String String) :
    validityEntry role seen (entry.1, (.str entry.2 : Json F)) = .ok out ↔
      out = seen.set entry.1 entry.2 ∧ TextWithin 1 256 entry.1 ∧ TextWithin 1 1024 entry.2 := by
  simp only [validityEntry, TextWithin]
  by_cases hkey : 1 ≤ entry.1.toList.length ∧ entry.1.toList.length ≤ 256
  · rw [if_neg (by omega)]
    cases htext : boundedText 1 1024 (.str entry.2 : Json F) with
    | none =>
      have hnot : ¬ TextWithin 1 1024 entry.2 := fun h => by
        rw [boundedText_str.mpr ⟨rfl, h⟩] at htext
        exact nomatch htext
      unfold TextWithin at hnot
      simp [hnot]
    | some verdict =>
      obtain ⟨rfl, hverdict⟩ := boundedText_str.mp htext
      unfold TextWithin at hverdict
      simp only [hkey, hverdict, and_self, and_true, Except.ok.injEq]
      exact eq_comm
  · rw [if_pos (by omega)]
    simp [hkey]

omit [PyFloat F] in
theorem validity_fold (role : String) (validity out : InsertionDict String String) :
    (renderVerdicts (F := F) validity).foldlM (validityEntry role) .empty = .ok out ↔
      out = validity ∧ ∀ entry ∈ validity.entries,
        TextWithin 1 256 entry.1 ∧ TextWithin 1 1024 entry.2 := by
  unfold renderVerdicts
  rw [List.foldlM_map, Except.foldlM_checked_eq_ok (validityEntry_render role)]
  have hfold : validity.entries.foldl (fun acc entry => acc.set entry.1 entry.2) .empty = validity :=
    InsertionDict.ofList_entries validity
  rw [hfold]

omit [PyFloat F] in
theorem isEmission_render (envelope : Envelope F) :
    isEmission (renderEnvelope envelope) = true := rfl

omit [PyFloat F] in
theorem emissionRoot_render (envelope : Envelope F) (role : String) :
    emissionRoot (renderEnvelope envelope) role =
      .ok (InsertionDict.ofList (envelopeFields envelope)) := by
  have hroot : closed (renderEnvelope envelope) role ["schema", "plan_sha256", "dut_sha256",
      "corner", "validity", "observables", "metadata", "extensions"] [] =
      .ok (InsertionDict.ofList (envelopeFields envelope)) :=
    closed_object (by simp [envelopeFields]) (by simp [envelopeFields])
  unfold emissionRoot
  simp only [hroot, Except.ok_bind, Except.bind_eq_ok]
  exact ⟨(), require_eq_ok.mpr (isDigest_renderDigest envelope.planSha256), (),
    require_eq_ok.mpr (isDigest_renderDigest envelope.dutSha256), (), rfl, trivial⟩

omit [PyFloat F] in
theorem ofList_renderVerdicts (validity : InsertionDict String String) :
    InsertionDict.ofList (renderVerdicts (F := F) validity) =
      validity.mapValues fun _ verdict => .str verdict :=
  InsertionDict.ofList_map_entries (fun _ verdict => Json.str verdict) validity

omit [PyFloat F] in
theorem ofList_renderObservables (observables : InsertionDict Id (Observed F)) :
    InsertionDict.ofList (renderObservables observables) =
      observables.mapValues fun _ value => renderObserved value :=
  InsertionDict.ofList_map_entries (fun _ value => renderObserved value) observables

/-- The comparator reads exactly the envelope's own content, or refuses it. -/
theorem document_render (envelope : Envelope F) (role : String) (out : Document F) :
    document (renderEnvelope envelope) role = .ok out ↔
      out = documentOf envelope ∧ DocumentOk envelope := by
  have hverdicts : objectFields (.object (renderVerdicts envelope.validity) : Json F)
      s!"{role}.validity must be an object" =
      .ok (envelope.validity.mapValues fun _ verdict => .str verdict) := by
    rw [← ofList_renderVerdicts]
    rfl
  have hobservables : objectFields (.object (renderObservables envelope.observables) : Json F)
      s!"{role}.observables must be an object" =
      .ok (envelope.observables.mapValues fun _ value => renderObserved value) := by
    rw [← ofList_renderObservables]
    rfl
  unfold document
  rw [isEmission_render, if_pos rfl, emissionRoot_render, Except.ok_bind]
  simp only [Except.bind_eq_ok]
  constructor
  · rintro ⟨corner, hcorner, verdicts, hv, observables, ho, validity, hvalidity, found, hmeta, hout⟩
    obtain ⟨rfl, hcornerOk⟩ := boundedText_str.mp (required_eq_ok.mp hcorner)
    obtain rfl := Except.ok.inj (hverdicts.symm.trans hv)
    obtain rfl := Except.ok.inj (hobservables.symm.trans ho)
    obtain ⟨rfl, hvalidityOk⟩ := (validity_fold role envelope.validity validity).mp hvalidity
    obtain ⟨rfl, hmetadataOk⟩ := (metadata?_render envelope role found).mp hmeta
    exact ⟨(Except.ok.inj hout).symm, hcornerOk, hvalidityOk, hmetadataOk⟩
  · rintro ⟨rfl, hok⟩
    have hvalidity := (validity_fold (F := F) role envelope.validity _).mpr ⟨rfl, hok.validity⟩
    exact ⟨_, required_eq_ok.mpr (boundedText_str.mpr ⟨rfl, hok.corner⟩), _, hverdicts, _,
      hobservables, _, hvalidity, _, (metadata?_render envelope role _).mpr ⟨rfl, hok.metadata⟩, rfl⟩

end OpenADA.Evidence
