import OpenADA.Series.Numbers
import OpenADA.Series.Extract

/-! The provenance of a series: what an extraction emits is the canonical content the normalizer
reads back from it, under the digest it names. -/
namespace OpenADA.Series

open PyStr JsonText

section Vectors

variable {F : Type}

theorem text_eq_ok {code label : String} {limit : ℕ} {value : PyJson F} {read : Text limit}
    (h : text code label limit value = .ok read) : value = .str read.1 := by
  cases value with
  | str s =>
    rw [text] at h
    split at h
    · obtain rfl := Except.ok.inj h
      rfl
    · cases h
  | _ => cases h

variable [PyFloat F]

theorem finiteNumber_float_eq_ok {code label : String} {x : F} {read : FiniteFloat F}
    (h : finiteNumber code label (.float x) = .ok read) : read.1 = x := by
  rw [finiteNumber] at h
  split at h
  · obtain rfl := Except.ok.inj h
    rfl
  · cases h

theorem finiteValues_float_eq_ok {code label : String} {index : ℕ} {values : List F}
    {read : {read : List (FiniteFloat F) // read.length = (values.map (PyJson.float)).length}}
    (h : finiteValues code label index (values.map .float) = .ok read) :
    read.1.map Subtype.val = values := by
  induction values generalizing index with
  | nil =>
    obtain rfl := Except.ok.inj h
    rfl
  | cons x rest ih =>
    change finiteValues code label index (.float x :: rest.map .float) = _ at h
    rw [finiteValues] at h
    obtain ⟨value, hvalue, h⟩ := Except.bind_eq_ok.mp h
    obtain ⟨⟨values, hlength⟩, hvalues, h⟩ := Except.bind_eq_ok.mp h
    obtain rfl := Except.ok.inj h
    rw [List.map_cons, finiteNumber_float_eq_ok hvalue, ih hvalues]

theorem numbersJson_eq {values : List F} {read : List (FiniteFloat F)}
    (h : read.map Subtype.val = values) : numbersJson read = .array (values.map .float) := by
  rw [numbersJson, ← h, List.map_map]
  rfl

theorem normalizeAxis_vectorJson {name unit : PyStr} {values : List F} {axis : Axis F}
    (h : normalizeAxis (vectorJson name unit values) = .ok axis) :
    axis.json = vectorJson name unit values := by
  unfold normalizeAxis vectorJson at h
  simp only at h
  rw [closedObject_object (by simp [List.lookup_cons]) (by simp), Except.ok_bind] at h
  simp only [field, List.lookup_cons, lit_beq, String.reduceBEq, Option.getD_some] at h
  split at h
  · obtain ⟨⟨read, hlength⟩, hread, h⟩ := Except.bind_eq_ok.mp h
    simp only at h
    split at h
    · obtain ⟨readName, hname, h⟩ := Except.bind_eq_ok.mp h
      obtain ⟨readUnit, hunit, h⟩ := Except.bind_eq_ok.mp h
      obtain rfl := Except.ok.inj h
      rw [Axis.json, numbersJson_eq (finiteValues_float_eq_ok hread), ← text_eq_ok hname,
        ← text_eq_ok hunit]
      rfl
    · cases h
  · cases h

theorem normalizeSignal_vectorJson {points index : ℕ} {names : List (Text 256)}
    {name unit : PyStr} {values : List F}
    {signal : {signal : Signal F // signal.name ∉ names ∧ signal.values.length = points}}
    (h : normalizeSignal points names index (vectorJson name unit values) = .ok signal) :
    signal.1.json = vectorJson name unit values := by
  unfold normalizeSignal vectorJson at h
  simp only at h
  rw [closedObject_object (by simp [List.lookup_cons]) (by simp), Except.ok_bind] at h
  simp only [field, List.lookup_cons, lit_beq, String.reduceBEq, Option.getD_some] at h
  obtain ⟨readName, hname, h⟩ := Except.bind_eq_ok.mp h
  split at h
  · cases h
  · split at h
    · obtain ⟨readUnit, hunit, h⟩ := Except.bind_eq_ok.mp h
      obtain ⟨⟨read, hlength⟩, hread, h⟩ := Except.bind_eq_ok.mp h
      obtain rfl := Except.ok.inj h
      rw [Signal.json, numbersJson_eq (finiteValues_float_eq_ok hread), ← text_eq_ok hname,
        ← text_eq_ok hunit]
      rfl
    · cases h

theorem normalizeSignals_vectorJson {points : ℕ} {names : List (Text 256)} (hn : names.Nodup)
    {items : List (PyJson F)} {signals : List (Signal F)}
    (hitems : ∀ item ∈ items, ∃ name unit values, item = vectorJson name unit values)
    (h : (normalizeSignals points names items hn).map Subtype.val = .ok signals) :
    signals.map Signal.json = items := by
  induction items generalizing names signals with
  | nil =>
    obtain rfl := Except.ok.inj h
    rfl
  | cons item rest ih =>
    rw [normalizeSignals] at h
    cases hitem : normalizeSignal points names names.length item with
    | error fault =>
      rw [hitem] at h
      cases h
    | ok read =>
      obtain ⟨signal, hname, hlength⟩ := read
      rw [hitem, Except.ok_bind] at h
      simp only at h
      cases hrest : normalizeSignals points (names ++ [signal.name]) rest
          (by rw [List.nodup_append_comm]; exact List.nodup_cons.mpr ⟨hname, hn⟩) with
      | error fault =>
        rw [hrest] at h
        cases h
      | ok read =>
        obtain ⟨others, hcount, hlengths, hnames⟩ := read
        rw [hrest, Except.ok_bind] at h
        obtain rfl := Except.ok.inj h
        obtain ⟨name, unit, values, rfl⟩ := hitems item (List.mem_cons_self ..)
        have hothers := ih _ (fun other hother => hitems other (List.mem_cons_of_mem _ hother))
          (congrArg (Except.map Subtype.val) hrest)
        show signal.json :: others.map Signal.json = _
        rw [normalizeSignal_vectorJson hitem, hothers]

theorem axisDefinition_vector {analysis : RequestedAnalysis F} {extracted : RawSeriesExtraction F}
    {axis : PyJson F} (h : axisDefinition analysis extracted = .ok axis) :
    ∃ name unit values, axis = vectorJson name unit values := by
  unfold axisDefinition at h
  split at h
  · obtain rfl := Except.ok.inj h
    exact ⟨_, _, _, rfl⟩
  · obtain ⟨expected, -, h⟩ := Except.bind_eq_ok.mp h
    rcases expected with _ | ⟨name, unit, nativeType⟩
    · cases h
    · simp only at h
      split at h
      · cases h
      · split at h
        · cases h
        · obtain rfl := Except.ok.inj h
          exact ⟨_, _, _, rfl⟩

omit [PyFloat F] in
theorem selectedSignal_vector {extracted : RawSeriesExtraction F} {selector : Selector}
    {signal : PyJson F} (h : selectedSignal extracted selector = .ok signal) :
    ∃ name unit values, signal = vectorJson name unit values := by
  unfold selectedSignal at h
  split at h
  · cases h
  · split at h
    · split at h
      · split at h
        · obtain rfl := Except.ok.inj h
          exact ⟨_, _, _, rfl⟩
        · cases h
      · cases h
      · obtain rfl := Except.ok.inj h
        exact ⟨_, _, _, rfl⟩
    · cases h

end Vectors

section Emission

variable {F : Type} [PyFloatText F] (sha256 : ByteArray → Sha256)

def extractionSource (correlationId : Uuid) (source : SimulationSource F) (digest : Sha256) :
    Source :=
  ⟨⟨lit operationProfile, by decide⟩, correlationId, digest,
    some ⟨⟨lit "circuit.simulate", by decide⟩, source.requestId,
      ⟨lit "simulation.result", by decide⟩, source.artifact.sha256⟩⟩

/-- The digest of vectors is the digest of canonical content that writes them. -/
theorem normalizedSeriesSha256_content {axis : PyJson F} {signals : List (PyJson F)}
    {conditions : List (Condition F)} {digest : Sha256}
    (haxis : ∃ name unit values, axis = vectorJson name unit values)
    (hsignals : ∀ item ∈ signals, ∃ name unit values, item = vectorJson name unit values)
    (h : normalizedSeriesSha256 sha256 axis signals (conditions.map Condition.json) = .ok digest) :
    ∃ content : Content F, content.axis.json = axis ∧ content.signals.map Signal.json = signals ∧
      content.conditions = conditions ∧ canonicalSha256 sha256 content.document = .ok digest ∧
      ∃ conditionsDigest, canonicalSha256 sha256 (conditionsDocument content.conditions) =
        .ok conditionsDigest := by
  unfold normalizedSeriesSha256 at h
  cases hseries : normalizeSeries sha256 false (.object [(lit "source", digestSource),
      (lit "axis", axis), (lit "signals", .array signals),
      (lit "conditions", .array (conditions.map Condition.json)),
      (lit "extensions", .object [])]) with
  | error fault =>
    rw [hseries] at h
    cases h
  | ok canonical =>
    rw [hseries] at h
    obtain rfl := Except.ok.inj h
    obtain ⟨root, items, rows, hroot, hreads⟩ := normalizeSeries_reads sha256 hseries
    rw [closedObject_object (by simp [List.lookup_cons]) (by simp)] at hroot
    obtain rfl := Except.ok.inj hroot
    obtain ⟨_, hreadAxis, hitems, hreadSignals, hrows, hreadConditions, hdigest,
      hconditionsDigest, _⟩ := hreads
    simp only [field, List.lookup_cons, lit_beq, String.reduceBEq, Option.getD_some]
      at hreadAxis hitems hrows
    obtain rfl := PyJson.array.inj hitems
    obtain rfl := PyJson.array.inj hrows
    rw [normalizeConditions_json] at hreadConditions
    obtain ⟨name, unit, values, rfl⟩ := haxis
    exact ⟨canonical.content, normalizeAxis_vectorJson hreadAxis,
      normalizeSignals_vectorJson List.nodup_nil hsignals hreadSignals,
      (Except.ok.inj hreadConditions).symm, hdigest, _, hconditionsDigest⟩

/-- The series an extraction emits is a request for canonical content under the digest of it. -/
theorem extractResultSeries_emits
    {extract : SimulationSource F → List PyStr → Except String (RawSeriesExtraction F)}
    {correlationId : Uuid} {source : SimulationSource F} {selectorItems conditionItems : PyJson F}
    {extraction : Extraction F}
    (h : extractResultSeries sha256 extract correlationId source selectorItems conditionItems =
      .ok extraction) :
    ∃ (content : Content F) (digest conditionsDigest : Sha256),
      extraction.series = content.series (extractionSource correlationId source digest) ∧
      canonicalSha256 sha256 content.document = .ok digest ∧
      canonicalSha256 sha256 (conditionsDocument content.conditions) = .ok conditionsDigest := by
  unfold extractResultSeries at h
  obtain ⟨selected, -, h⟩ := Except.bind_eq_ok.mp h
  obtain ⟨conditions, -, h⟩ := Except.bind_eq_ok.mp h
  obtain ⟨requestDigest, -, h⟩ := Except.bind_eq_ok.mp h
  obtain ⟨extracted, -, h⟩ := Except.bind_eq_ok.mp h
  split at h
  · cases h
  · obtain ⟨axis, haxis, h⟩ := Except.bind_eq_ok.mp h
    obtain ⟨signals, hsignals, h⟩ := Except.bind_eq_ok.mp h
    obtain ⟨digest, hdigest, h⟩ := Except.bind_eq_ok.mp h
    obtain rfl := Except.ok.inj h
    have hvectors : ∀ item ∈ signals, ∃ name unit values, item = vectorJson name unit values := by
      intro item hitem
      obtain ⟨selector, -, hselector⟩ := Except.exists_of_mem_mapM hsignals hitem
      exact selectedSignal_vector hselector
    have hnormalized : normalizedSeriesSha256 sha256 axis signals (conditions.map Condition.json) =
        .ok digest := by
      cases hresult : normalizedSeriesSha256 sha256 axis signals
          (conditions.map Condition.json) with
      | error fault =>
        rw [hresult] at hdigest
        cases hdigest
      | ok result =>
        rw [hresult] at hdigest
        obtain rfl := Except.ok.inj hdigest
        rfl
    obtain ⟨content, rfl, rfl, rfl, hcontent, conditionsDigest, hconditions⟩ :=
      normalizedSeriesSha256_content sha256 (axisDefinition_vector haxis) hvectors hnormalized
    exact ⟨content, digest, conditionsDigest, rfl, hcontent, hconditions⟩

theorem canonicalSha256_eq_ok {value : Value} {digest : Sha256}
    (h : canonicalSha256 sha256 value = .ok digest) :
    ∃ bytes, utf8? (render value) = some bytes ∧ digest = sha256 bytes := by
  unfold canonicalSha256 at h
  split at h
  · rename_i bytes hbytes
    exact ⟨bytes, hbytes, (Except.ok.inj h).symm⟩
  · cases h

/-- Canonical content survives being asked for again, does not tell an integer from the float it
converts to, has an encoding of its own, and is what an extraction emits. -/
theorem canonical_series_sound :
    (∀ (verifyDigest : Bool) (series : PyJson F) (canonical : CanonicalSeries F),
      normalizeSeries sha256 verifyDigest series = .ok canonical →
        normalizeSeries sha256 verifyDigest (canonical.content.series canonical.source) =
          .ok canonical) ∧
    (∀ (verifyDigest : Bool) (series other : PyJson F), series.asFloats = other.asFloats →
      normalizeSeries sha256 verifyDigest series = normalizeSeries sha256 verifyDigest other) ∧
    (∀ (verifyDigest verifyOther : Bool) (series other : PyJson F) (a b : CanonicalSeries F),
      normalizeSeries sha256 verifyDigest series = .ok a →
      normalizeSeries sha256 verifyOther other = .ok b → a.content ≠ b.content →
        ∃ encoded encodedOther, utf8? (render a.content.document) = some encoded ∧
          utf8? (render b.content.document) = some encodedOther ∧ encoded ≠ encodedOther ∧
          a.seriesSha256 = sha256 encoded ∧ b.seriesSha256 = sha256 encodedOther) ∧
    (∀ (extract : SimulationSource F → List PyStr → Except String (RawSeriesExtraction F))
        (correlationId : Uuid) (source : SimulationSource F)
        (selectorItems conditionItems : PyJson F) (extraction : Extraction F),
      extractResultSeries sha256 extract correlationId source selectorItems conditionItems =
        .ok extraction →
        ∃ canonical, normalizeSeries sha256 true extraction.series = .ok canonical ∧
          extraction.series = canonical.content.series canonical.source ∧
          canonical.source.artifactSha256 = canonical.seriesSha256) := by
  refine ⟨?_, ?_, ?_, ?_⟩
  · intro verifyDigest series canonical h
    obtain ⟨root, items, rows, -, hreads⟩ := normalizeSeries_reads sha256 h
    exact normalizeSeries_series sha256 canonical.content canonical.source hreads.digest
      hreads.conditionsDigest hreads.verified
  · intro verifyDigest series other h
    rw [← normalizeSeries_asFloats sha256 verifyDigest series, h,
      normalizeSeries_asFloats sha256 verifyDigest other]
  · intro verifyDigest verifyOther series other a b ha hb hne
    obtain ⟨_, _, _, -, hreads⟩ := normalizeSeries_reads sha256 ha
    obtain ⟨_, _, _, -, hother⟩ := normalizeSeries_reads sha256 hb
    obtain ⟨encoded, hencoded, hdigest⟩ := canonicalSha256_eq_ok sha256 hreads.digest
    obtain ⟨encodedOther, hencodedOther, hdigestOther⟩ :=
      canonicalSha256_eq_ok sha256 hother.digest
    refine ⟨encoded, encodedOther, hencoded, hencodedOther, ?_, hdigest, hdigestOther⟩
    rintro rfl
    exact hne (encoding_injective hencoded hencodedOther)
  · intro extract correlationId source selectorItems conditionItems extraction h
    obtain ⟨content, digest, conditionsDigest, hseries, hdigest, hconditions⟩ :=
      extractResultSeries_emits sha256 h
    refine ⟨⟨content, extractionSource correlationId source digest, digest, conditionsDigest⟩, ?_,
      hseries, rfl⟩
    rw [hseries]
    exact normalizeSeries_series sha256 content _ hdigest hconditions fun _ => rfl

end Emission

section Runs

/-- A digest that tells texts of even and odd length apart. -/
def parityHash (bytes : ByteArray) : Sha256 :=
  if bytes.size % 2 = 0 then ⟨List.replicate 64 (point '0'), by decide⟩
  else ⟨List.replicate 64 (point '1'), by decide⟩

def pointSeries (digest : Char) (place : PyJson SignedRat) : PyJson SignedRat :=
  .object [(lit "source", .object [(lit "operation", .str (lit "bench")),
      (lit "request_id", .str (lit "00000000-0000-4000-8000-000000000000")),
      (lit "artifact_role", .str (lit "measurement.source")),
      (lit "artifact_sha256", .str (List.replicate 64 (point digest)))]),
    (lit "axis", .object [(lit "name", .str (lit "time")), (lit "unit", .str (lit "s")),
      (lit "values", .array [place])]),
    (lit "signals", .array [.object [(lit "name", .str (lit "out")), (lit "unit", .str (lit "V")),
      (lit "values", .array [.int 3])]]),
    (lit "conditions", .array []), (lit "extensions", .object [])]

theorem normalizeSeries_json {F : Type} [PyFloatText F] (sha256 : ByteArray → Sha256)
    (verifyDigest : Bool) (canonical : CanonicalSeries F) :
    normalizeSeries sha256 verifyDigest canonical.json =
      .error (.invalid ⟨requestInvalid, "series"⟩) := by
  unfold normalizeSeries CanonicalSeries.json
  rw [closedObject, if_pos (by simp [List.lookup_cons])]
  rfl

theorem canonical_object_refused :
    ∃ a b : CanonicalSeries SignedRat,
      normalizeSeries parityHash true (pointSeries '1' (.int 0)) = .ok a ∧
      normalizeSeries parityHash true a.json = .error (.invalid ⟨requestInvalid, "series"⟩) ∧
      normalizeSeries parityHash true (pointSeries '0' (.float .negZero)) = .ok b ∧
      PyFloat.eq (SignedRat.rat 0) SignedRat.negZero = true ∧ a.seriesSha256 ≠ b.seriesSha256 := by
  obtain ⟨a, ha, hdigest⟩ := Except.exists_ok_of_any
    (x := normalizeSeries parityHash true (pointSeries '1' (.int 0)))
    (p := fun canonical => canonical.seriesSha256.1.contains (point '1')) (by decide +kernel)
  obtain ⟨b, hb, hother⟩ := Except.exists_ok_of_any
    (x := normalizeSeries parityHash true (pointSeries '0' (.float .negZero)))
    (p := fun canonical => !canonical.seriesSha256.1.contains (point '1')) (by decide +kernel)
  refine ⟨a, b, ha, normalizeSeries_json _ _ a, hb, by decide, ?_⟩
  intro h
  rw [h] at hdigest
  rw [hdigest] at hother
  cases hother

def voltageSource : SimulationSource SignedRat :=
  ⟨⟨lit "00000000-0000-4000-8000-000000000000", by decide⟩,
    lit "org.openada.driver.ngspice", ⟨lit "1", by decide⟩, .ngspice, ⟨.tran, [], .null, []⟩,
    ⟨lit "ngspice-raw", lit "/run.raw", 96, ⟨List.replicate 64 (point '0'), by decide⟩⟩,
    ⟨2, 1, 2⟩⟩

def voltageRun : RawSeriesExtraction SignedRat :=
  ⟨lit "Transient Analysis", lit "binary", 2, 2, false, some (lit "time"), some (lit "time"),
    [.rat 0, .rat 1],
    [⟨lit "v(out)", lit "Voltage", [.negZero, .rat 3], none⟩]⟩

def voltageSelectors : PyJson SignedRat :=
  .array [.object [(lit "native_name", .str (lit "v(out)")), (lit "output_name", .str (lit "out")),
    (lit "unit", .str (lit "V")), (lit "component", .str (lit "real"))]]

theorem voltage_series_sound :
    (∃ canonical : CanonicalSeries SignedRat,
      normalizeSeries parityHash true (pointSeries '1' (.int 0)) = .ok canonical ∧
      normalizeSeries parityHash true (canonical.content.series canonical.source) = .ok canonical) ∧
    ∃ extraction canonical, extractResultSeries parityHash (fun _ _ => .ok voltageRun)
        voltageSource.requestId voltageSource voltageSelectors (.array []) = .ok extraction ∧
      normalizeSeries parityHash true extraction.series = .ok canonical ∧
      extraction.series = canonical.content.series canonical.source := by
  obtain ⟨hrebuilt, -, -, hemitted⟩ := canonical_series_sound (F := SignedRat) parityHash
  constructor
  · obtain ⟨canonical, hcanonical⟩ := Except.exists_ok_of_isSome
      (x := normalizeSeries parityHash true (pointSeries '1' (.int 0))) (by decide +kernel)
    exact ⟨canonical, hcanonical, hrebuilt _ _ _ hcanonical⟩
  · obtain ⟨extraction, hextraction⟩ := Except.exists_ok_of_isSome
      (x := extractResultSeries parityHash (fun _ _ => .ok voltageRun) voltageSource.requestId
        voltageSource voltageSelectors (.array [])) (by decide +kernel)
    obtain ⟨canonical, hcanonical, hseries, -⟩ := hemitted _ _ _ _ _ _ hextraction
    exact ⟨extraction, canonical, hextraction, hcanonical, hseries⟩

end Runs

end OpenADA.Series
