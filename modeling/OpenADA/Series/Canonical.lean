import OpenADA.Series.Normalize

/-! What the normalizer keeps: a series rebuilt from canonical content normalizes to it again, an
integer and the float it converts to are one number, and distinct contents have distinct texts. -/
namespace OpenADA.Series

open PyStr JsonText

section Rebuilt

variable {F : Type} [PyFloat F]

def numbersJson (values : List (FiniteFloat F)) : PyJson F :=
  .array (values.map fun x => .float x.1)

def ConditionValue.json : ConditionValue F → PyJson F
  | .number value => .float value.1
  | .flag value => .bool value
  | .text value => .str value.1

def Condition.json (condition : Condition F) : PyJson F :=
  .object [(lit "name", .str condition.name.1), (lit "value", condition.value.json),
    (lit "unit", .str condition.unit.1)]

def Axis.json (axis : Axis F) : PyJson F :=
  .object [(lit "name", .str axis.name.1), (lit "unit", .str axis.unit.1),
    (lit "values", numbersJson axis.values)]

def Signal.json (signal : Signal F) : PyJson F :=
  .object [(lit "name", .str signal.name.1), (lit "unit", .str signal.unit.1),
    (lit "values", numbersJson signal.values)]

def Lineage.json (lineage : Lineage) : PyJson F :=
  .object [(lit "operation", .str lineage.operation.1), (lit "request_id", .str lineage.requestId.1),
    (lit "artifact_role", .str lineage.artifactRole.1),
    (lit "artifact_sha256", .str lineage.artifactSha256.1), (lit "binding", .str (lit "unverified"))]

def Source.json (source : Source) : PyJson F :=
  .object ([(lit "operation", .str source.operation.1), (lit "request_id", .str source.requestId.1),
    (lit "artifact_role", .str (lit "measurement.source")),
    (lit "artifact_sha256", .str source.artifactSha256.1)] ++
      match source.lineage with
      | some lineage => [(lit "lineage", lineage.json)]
      | none => [])

def Content.series (content : Content F) (source : Source) : PyJson F :=
  .object [(lit "source", source.json), (lit "axis", content.axis.json),
    (lit "signals", .array (content.signals.map Signal.json)),
    (lit "conditions", .array (content.conditions.map Condition.json)), (lit "extensions", .object [])]

def CanonicalSeries.json (canonical : CanonicalSeries F) : PyJson F :=
  .object [(lit "axis", canonical.content.axis.json),
    (lit "signals", .array (canonical.content.signals.map Signal.json)),
    (lit "conditions", .array (canonical.content.conditions.map Condition.json)),
    (lit "source", .object [(lit "operation", .str canonical.source.operation.1),
      (lit "request_id", .str canonical.source.requestId.1),
      (lit "artifact_role", .str (lit "measurement.source")),
      (lit "artifact_sha256", .str canonical.source.artifactSha256.1),
      (lit "series_sha256", .str canonical.seriesSha256.1),
      (lit "conditions_sha256", .str canonical.conditionsSha256.1),
      (lit "conditions", .array (canonical.content.conditions.map Condition.json)),
      (lit "lineage", (canonical.source.lineage.map Lineage.json).getD .null)])]

omit [PyFloat F] in
theorem text_str {limit : ℕ} (code label : String) (value : Text limit) :
    text code label limit (.str value.1 : PyJson F) = .ok value :=
  dif_pos value.2

theorem finiteNumber_float (code label : String) (value : FiniteFloat F) :
    finiteNumber code label (.float value.1) = .ok value :=
  dif_pos value.2

theorem finiteValues_float (code label : String) (index : ℕ) (values : List (FiniteFloat F)) :
    finiteValues code label index (values.map fun x => .float x.1) =
      .ok ⟨values, (List.length_map _).symm⟩ := by
  induction values generalizing index with
  | nil => rfl
  | cons value rest ih =>
    show finiteValues code label index (.float value.1 :: rest.map fun x => .float x.1) = _
    rw [finiteValues, finiteNumber_float, Except.ok_bind, ih]
    rfl

theorem length_uuid {text : PyStr} (h : isUuid text = true) : text ≠ [] ∧ text.length ≤ 36 := by
  have hlength := of_decide_eq_true (Bool.and_eq_true_iff.mp h).1
  refine ⟨?_, hlength.le⟩
  rintro rfl
  cases hlength

theorem length_sha256 {text : PyStr} (h : isSha256 text = true) :
    text ≠ [] ∧ text.length ≤ 64 := by
  have hlength := of_decide_eq_true (Bool.and_eq_true_iff.mp h).1
  refine ⟨?_, hlength.le⟩
  rintro rfl
  cases hlength

omit [PyFloat F] in
theorem uuidText_str (code uuidCode label : String) (value : Uuid) :
    uuidText code uuidCode label (.str value.1 : PyJson F) = .ok value := by
  unfold uuidText
  rw [show text code label 36 (.str value.1 : PyJson F) = .ok ⟨value.1, length_uuid value.2⟩ from
    dif_pos (length_uuid value.2), Except.ok_bind]
  exact dif_pos value.2

omit [PyFloat F] in
theorem sha256Text_str (code digestCode label : String) (value : Sha256) :
    sha256Text code digestCode label (.str value.1 : PyJson F) = .ok value := by
  unfold sha256Text
  rw [show text code label 64 (.str value.1 : PyJson F) = .ok ⟨value.1, length_sha256 value.2⟩ from
    dif_pos (length_sha256 value.2), Except.ok_bind]
  exact dif_pos value.2

omit [PyFloat F] in
theorem roleText_str (code roleCode label : String) (value : Role) :
    roleText code roleCode label (.str value.1 : PyJson F) = .ok value := by
  unfold roleText
  rw [show text code label 120 (.str value.1 : PyJson F) = .ok ⟨value.1, value.2.1⟩ from
    dif_pos value.2.1, Except.ok_bind]
  exact dif_pos value.2.2

omit [PyFloat F] in
theorem closedObject_object {code label : String} {required optional : List String}
    {fields : Fields F}
    (hrequired : required.all (fun name => (fields.lookup (lit name)).isSome) = true)
    (hknown : fields.all (fun entry =>
      (required ++ optional).any fun name => entry.1 = lit name) = true) :
    closedObject code label required optional (.object fields) = .ok fields := by
  rw [closedObject, hrequired, hknown]
  rfl

theorem conditionValue_json (label : String) (value : ConditionValue F) :
    conditionValue label value.json = .ok value := by
  cases value with
  | number value =>
    rw [ConditionValue.json, conditionValue, finiteNumber_float]
    rfl
  | flag value => rfl
  | text value =>
    rw [ConditionValue.json, conditionValue, text_str]
    rfl

theorem normalizeCondition_json (index : ℕ) (condition : Condition F) :
    normalizeCondition index condition.json = .ok condition := by
  unfold normalizeCondition Condition.json
  simp only
  rw [closedObject_object (by simp [List.lookup_cons]) (by simp), Except.ok_bind]
  simp only [field, List.lookup_cons, lit_beq, String.reduceBEq, Option.getD_some]
  rw [conditionValue_json, Except.ok_bind, text_str, Except.ok_bind, text_str]
  rfl

theorem normalizeConditions_json (index : ℕ) (conditions : List (Condition F)) :
    normalizeConditions index (conditions.map Condition.json) =
      .ok ⟨conditions, (List.length_map _).symm⟩ := by
  induction conditions generalizing index with
  | nil => rfl
  | cons condition rest ih =>
    show normalizeConditions index (condition.json :: rest.map Condition.json) = _
    rw [normalizeConditions, normalizeCondition_json, Except.ok_bind, ih]
    rfl

theorem normalizeAxis_json (axis : Axis F) : normalizeAxis axis.json = .ok axis := by
  obtain ⟨name, unit, values, hcount, hincreasing⟩ := axis
  unfold normalizeAxis Axis.json numbersJson
  simp only
  rw [closedObject_object (by simp [List.lookup_cons]) (by simp), Except.ok_bind]
  simp only [field, List.lookup_cons, lit_beq, String.reduceBEq, Option.getD_some]
  rw [dif_pos (by rw [List.length_map]; exact hcount), finiteValues_float, Except.ok_bind]
  simp only
  rw [dif_pos hincreasing, text_str, Except.ok_bind, text_str]
  rfl

theorem normalizeSignal_json {points : ℕ} {names : List (Text 256)} (index : ℕ) {signal : Signal F}
    (hname : signal.name ∉ names) (hpoints : signal.values.length = points) :
    normalizeSignal points names index signal.json = .ok ⟨signal, hname, hpoints⟩ := by
  obtain ⟨name, unit, values⟩ := signal
  unfold normalizeSignal Signal.json numbersJson
  simp only
  rw [closedObject_object (by simp [List.lookup_cons]) (by simp), Except.ok_bind]
  simp only [field, List.lookup_cons, lit_beq, String.reduceBEq, Option.getD_some]
  rw [text_str, Except.ok_bind, dif_neg hname, dif_pos (by rw [List.length_map]; exact hpoints),
    text_str, Except.ok_bind, finiteValues_float]
  rfl

theorem normalizeSignals_json {points : ℕ} {names : List (Text 256)} (hn : names.Nodup)
    {signals : List (Signal F)} (hlengths : ∀ signal ∈ signals, signal.values.length = points)
    (hnames : (names ++ signals.map Signal.name).Nodup) :
    normalizeSignals points names (signals.map Signal.json) hn =
      .ok ⟨signals, (List.length_map _).symm, hlengths, hnames⟩ := by
  induction signals generalizing names with
  | nil => rfl
  | cons signal rest ih =>
    have hname : signal.name ∉ names := fun hmem =>
      (List.disjoint_of_nodup_append hnames) hmem (List.mem_cons_self ..)
    show normalizeSignals points names (signal.json :: rest.map Signal.json) hn = _
    rw [normalizeSignals, normalizeSignal_json _ hname (hlengths signal (List.mem_cons_self ..)),
      Except.ok_bind]
    simp only
    rw [ih _ (fun other hother => hlengths other (List.mem_cons_of_mem _ hother))
      (by simpa using hnames)]
    rfl

omit [PyFloat F] in
theorem normalizeLineage_json (lineage : Lineage) :
    normalizeLineage (lineage.json : PyJson F) = .ok lineage := by
  obtain ⟨operation, requestId, role, digest⟩ := lineage
  unfold normalizeLineage Lineage.json
  simp only
  rw [closedObject_object (by simp [List.lookup_cons]) (by simp), Except.ok_bind]
  simp only [field, List.lookup_cons, lit_beq, String.reduceBEq, Option.getD_some]
  rw [sha256Text_str, Except.ok_bind, roleText_str, Except.ok_bind, if_pos trivial, text_str,
    Except.ok_bind, uuidText_str]
  rfl

theorem measurementSource_role : (lit "measurement.source" ≠ [] ∧
    (lit "measurement.source").length ≤ 120) ∧ isRole (lit "measurement.source") = true := by
  decide

omit [PyFloat F] in
theorem normalizeSource_json (source : Source) :
    normalizeSource (source.json : PyJson F) = .ok source := by
  obtain ⟨operation, requestId, digest, lineage⟩ := source
  have hrole (label : String) : roleText requestInvalid sourceInvalid label
      (.str (lit "measurement.source") : PyJson F) =
        .ok ⟨lit "measurement.source", measurementSource_role⟩ :=
    roleText_str _ _ label ⟨lit "measurement.source", measurementSource_role⟩
  unfold normalizeSource Source.json
  simp only
  cases lineage with
  | none =>
    rw [closedObject_object (by simp [List.lookup_cons]) (by simp), Except.ok_bind]
    simp only [field, List.append_nil, List.lookup_cons, List.lookup_nil, lit_beq, String.reduceBEq,
      Option.getD_some]
    rw [sha256Text_str, Except.ok_bind, hrole, Except.ok_bind, if_neg (fun h => h rfl),
      optionalLineage, Except.ok_bind, text_str, Except.ok_bind, uuidText_str]
    rfl
  | some lineage =>
    rw [closedObject_object (by simp [List.lookup_cons]) (by simp), Except.ok_bind]
    simp only [field, List.cons_append, List.nil_append, List.lookup_cons, lit_beq,
      String.reduceBEq, Option.getD_some]
    rw [sha256Text_str, Except.ok_bind, hrole, Except.ok_bind, if_neg (fun h => h rfl),
      optionalLineage, normalizeLineage_json]
    show (text _ _ _ _ >>= fun operation => _) = _
    rw [text_str, Except.ok_bind, uuidText_str]
    rfl

end Rebuilt

section Texts

variable {F : Type} [PyFloatText F]

theorem numbersDocument_injective : Function.Injective (numbersDocument (F := F)) := by
  intro a b h
  refine List.map_injective_iff.mpr (fun x y hxy => ?_) (Value.list.inj h)
  exact PyFloatText.repr_injective (Value.number.inj hxy)

theorem conditionValue_document_injective :
    Function.Injective (ConditionValue.document (F := F)) := by
  intro a b h
  cases a with
  | number x =>
    cases b with
    | number y => rw [PyFloatText.repr_injective (Value.number.inj h)]
    | flag y => cases h
    | text y => cases h
  | flag x =>
    cases b with
    | number y => cases h
    | flag y => rw [Value.flag.inj h]
    | text y => cases h
  | text x =>
    cases b with
    | number y => cases h
    | flag y => cases h
    | text y => rw [Subtype.ext (Value.text.inj h)]

theorem condition_document_injective : Function.Injective (Condition.document (F := F)) := by
  rintro ⟨name, value, unit⟩ ⟨name', value', unit'⟩ h
  simp only [Condition.document, Value.record.injEq, List.cons.injEq, Prod.mk.injEq, true_and,
    and_true, Value.text.injEq] at h
  obtain ⟨hname, hunit, hvalue⟩ := h
  rw [Subtype.ext hname, Subtype.ext hunit, conditionValue_document_injective hvalue]

theorem axis_document_injective : Function.Injective (Axis.document (F := F)) := by
  rintro ⟨name, unit, values, hcount, hincreasing⟩ ⟨name', unit', values', hcount', hincreasing'⟩ h
  simp only [Axis.document, Value.record.injEq, List.cons.injEq, Prod.mk.injEq, true_and, and_true,
    Value.text.injEq] at h
  obtain ⟨hname, hunit, hvalues⟩ := h
  obtain rfl := Subtype.ext hname
  obtain rfl := Subtype.ext hunit
  obtain rfl := numbersDocument_injective hvalues
  rfl

theorem signal_document_injective : Function.Injective (Signal.document (F := F)) := by
  rintro ⟨name, unit, values⟩ ⟨name', unit', values'⟩ h
  simp only [Signal.document, Value.record.injEq, List.cons.injEq, Prod.mk.injEq, true_and,
    and_true, Value.text.injEq] at h
  obtain ⟨hname, hunit, hvalues⟩ := h
  rw [Subtype.ext hname, Subtype.ext hunit, numbersDocument_injective hvalues]

theorem content_document_injective : Function.Injective (Content.document (F := F)) := by
  rintro ⟨axis, signals, conditions, _, _, _, _⟩ ⟨axis', signals', conditions', _, _, _, _⟩ h
  simp only [Content.document, conditionsDocument, Value.record.injEq, List.cons.injEq,
    Prod.mk.injEq, true_and, and_true, Value.list.injEq] at h
  obtain ⟨haxis, hconditions, hsignals⟩ := h
  obtain rfl := axis_document_injective haxis
  obtain rfl := List.map_injective_iff.mpr condition_document_injective hconditions
  obtain rfl := List.map_injective_iff.mpr signal_document_injective hsignals
  rfl

theorem encoding_injective {a b : Content F} {bytes : ByteArray}
    (ha : utf8? (render a.document) = some bytes) (hb : utf8? (render b.document) = some bytes) :
    a = b :=
  content_document_injective (render_injective (utf8?_injective ha hb))

end Texts

section Normalized

variable {F : Type} [PyFloatText F] (sha256 : ByteArray → Sha256)

/-- A request rebuilt from canonical content is normalized to that content, once the digests of the
content can be taken and the source names the right one. -/
theorem normalizeSeries_series {verifyDigest : Bool} (content : Content F) (source : Source)
    {digest conditionsDigest : Sha256}
    (hdigest : canonicalSha256 sha256 content.document = .ok digest)
    (hconditions : canonicalSha256 sha256 (conditionsDocument content.conditions) =
      .ok conditionsDigest)
    (hverify : verifyDigest = true → source.artifactSha256 = digest) :
    normalizeSeries sha256 verifyDigest (content.series source) =
      .ok ⟨content, source, digest, conditionsDigest⟩ := by
  obtain ⟨axis, signals, conditions, hsized, hcount, hrows, hnames⟩ := content
  unfold normalizeSeries Content.series
  rw [closedObject_object (by simp [List.lookup_cons]) (by simp), Except.ok_bind]
  simp only [field, List.lookup_cons, lit_beq, String.reduceBEq, Option.getD_some]
  rw [emptyExtensions, Except.ok_bind, normalizeSource_json, Except.ok_bind, normalizeAxis_json,
    Except.ok_bind, dif_pos (by rw [List.length_map]; exact hcount),
    normalizeSignals_json List.nodup_nil hsized.lengths (by simpa using hsized.names),
    Except.ok_bind]
  simp only
  rw [dif_pos (by rw [List.length_map]; exact hrows), normalizeConditions_json, Except.ok_bind]
  simp only
  rw [dif_pos hnames, hdigest, Except.ok_bind,
    if_neg (fun h => h.2 (hverify h.1)), hconditions]
  rfl

structure Reads (verifyDigest : Bool) (root : Fields F) (items rows : List (PyJson F))
    (canonical : CanonicalSeries F) : Prop where
  source : normalizeSource (field root "source") = .ok canonical.source
  axis : normalizeAxis (field root "axis") = .ok canonical.content.axis
  signalItems : field root "signals" = .array items
  signals : (normalizeSignals canonical.content.axis.values.length [] items List.nodup_nil).map
    Subtype.val = .ok canonical.content.signals
  conditionRows : field root "conditions" = .array rows
  conditions : (normalizeConditions 0 rows).map Subtype.val = .ok canonical.content.conditions
  digest : canonicalSha256 sha256 canonical.content.document = .ok canonical.seriesSha256
  conditionsDigest : canonicalSha256 sha256 (conditionsDocument canonical.content.conditions) =
    .ok canonical.conditionsSha256
  verified : verifyDigest = true → canonical.source.artifactSha256 = canonical.seriesSha256

theorem normalizeSeries_reads {verifyDigest : Bool} {series : PyJson F}
    {canonical : CanonicalSeries F}
    (h : normalizeSeries sha256 verifyDigest series = .ok canonical) :
    ∃ root items rows, closedObject requestInvalid "series"
        ["source", "axis", "signals", "conditions", "extensions"] [] series = .ok root ∧
      Reads sha256 verifyDigest root items rows canonical := by
  unfold normalizeSeries at h
  obtain ⟨root, hroot, h⟩ := Except.bind_eq_ok.mp h
  obtain ⟨_, -, h⟩ := Except.bind_eq_ok.mp h
  obtain ⟨source, hsource, h⟩ := Except.bind_eq_ok.mp h
  obtain ⟨axis, haxis, h⟩ := Except.bind_eq_ok.mp h
  split at h
  · rename_i items hitems
    split at h
    · obtain ⟨⟨signals, hcount, hlengths, hnames⟩, hsignals, h⟩ := Except.bind_eq_ok.mp h
      simp only at h
      split at h
      · rename_i rows hrows
        split at h
        · obtain ⟨⟨conditions, hlength⟩, hconditions, h⟩ := Except.bind_eq_ok.mp h
          simp only at h
          split at h
          · obtain ⟨digest, hdigest, h⟩ := Except.bind_eq_ok.mp h
            split at h
            · cases h
            · rename_i hverify
              obtain ⟨conditionsDigest, hconditionsDigest, h⟩ := Except.bind_eq_ok.mp h
              obtain rfl := Except.ok.inj h
              refine ⟨root, items, rows, hroot, hsource, haxis, hitems, ?_, hrows, ?_, hdigest,
                hconditionsDigest, fun hv => by_contra fun hne => hverify ⟨hv, hne⟩⟩
              · rw [hsignals]
                rfl
              · rw [hconditions]
                rfl
          · cases h
        · cases h
      · cases h
    · cases h
  · cases h

end Normalized

end OpenADA.Series
