import OpenADA.Series.Normalize

/-! Integers and the floats they convert to are the same numbers: the normalizer cannot tell a
request from the one in which every integer is written as its float. -/
namespace OpenADA.Series

open PyStr PyJson

variable {F : Type}

theorem same_result {α : Type} {p q : α → Prop} {x : Except Fault {a // p a}}
    {y : Except Fault {a // q a}} (h : x.map Subtype.val = y.map Subtype.val) :
    (∃ fault, x = .error fault ∧ y = .error fault) ∨
      ∃ a hp hq, x = .ok ⟨a, hp⟩ ∧ y = .ok ⟨a, hq⟩ := by
  cases x with
  | error fault =>
    cases y with
    | error other =>
      obtain rfl := Except.error.inj h
      exact .inl ⟨fault, rfl, rfl⟩
    | ok b => cases h
  | ok a =>
    cases y with
    | error other => cases h
    | ok b =>
      obtain ⟨a, hp⟩ := a
      obtain ⟨b, hq⟩ := b
      have hab : a = b := Except.ok.inj h
      subst hab
      exact .inr ⟨a, hp, hq, rfl, rfl⟩

section Fields

variable [PyFloat F]

theorem field_asFloats (fields : Fields F) (name : String) :
    field (fieldsAsFloats fields) name = (field fields name).asFloats := by
  unfold field
  rw [lookup_asFloats]
  cases fields.lookup (lit name) with
  | none => rfl
  | some value => rfl

theorem closedObject_asFloats (code label : String) (required optional : List String)
    (value : PyJson F) :
    closedObject code label required optional value.asFloats =
      (closedObject code label required optional value).map fieldsAsFloats := by
  cases value with
  | int n =>
    rw [asFloats]
    cases PyFloat.ofInt (F := F) n with
    | none => rfl
    | some x => rfl
  | object fields =>
    rw [asFloats, closedObject, closedObject]
    have hrequired : (required.all fun name => ((fieldsAsFloats fields).lookup (lit name)).isSome) =
        required.all fun name => (fields.lookup (lit name)).isSome := by
      congr 1
      funext name
      rw [lookup_asFloats, Option.isSome_map]
    have hknown : ((fieldsAsFloats fields).all fun entry =>
        (required ++ optional).any fun name => entry.1 = lit name) =
        fields.all fun entry => (required ++ optional).any fun name => entry.1 = lit name := by
      rw [fieldsAsFloats_eq, List.all_map]
      rfl
    rw [hrequired, hknown]
    split_ifs <;> rfl
  | _ => rfl

theorem text_asFloats (code label : String) (limit : ℕ) (value : PyJson F) :
    text code label limit value.asFloats = text code label limit value := by
  cases value with
  | int n =>
    rw [asFloats]
    cases PyFloat.ofInt (F := F) n with
    | none => rfl
    | some x => rfl
  | _ => rfl

theorem finiteNumber_asFloats (code label : String) (value : PyJson F) :
    finiteNumber code label value.asFloats = finiteNumber code label value := by
  cases value with
  | int n =>
    rw [asFloats, finiteNumber]
    cases h : PyFloat.ofInt (F := F) n with
    | none =>
      simp only
      rw [finiteNumber, h]
    | some x => rfl
  | _ => rfl

theorem finiteValues_asFloats (code label : String) (index : ℕ) (items : List (PyJson F)) :
    (finiteValues code label index (itemsAsFloats items)).map Subtype.val =
      (finiteValues code label index items).map Subtype.val := by
  induction items generalizing index with
  | nil => rfl
  | cons item rest ih =>
    rw [itemsAsFloats, finiteValues, finiteValues, finiteNumber_asFloats]
    cases finiteNumber code s!"{label}[{index}]" item with
    | error fault => rfl
    | ok value =>
      rw [Except.ok_bind, Except.ok_bind]
      rcases same_result (ih (index + 1)) with ⟨fault, hx, hy⟩ | ⟨values, hp, hq, hx, hy⟩
      · rw [hx, hy]
        rfl
      · rw [hx, hy]
        rfl

theorem conditionValue_asFloats (label : String) (value : PyJson F) :
    conditionValue label value.asFloats = conditionValue label value := by
  cases value with
  | int n =>
    rw [asFloats, conditionValue, finiteNumber]
    cases h : PyFloat.ofInt (F := F) n with
    | none =>
      simp only
      rw [conditionValue, finiteNumber, h]
    | some x => rfl
  | _ => rfl

theorem normalizeCondition_asFloats (index : ℕ) (value : PyJson F) :
    normalizeCondition index value.asFloats = normalizeCondition index value := by
  unfold normalizeCondition
  simp only
  rw [closedObject_asFloats]
  cases closedObject requestInvalid s!"series.conditions[{index}]" ["name", "value", "unit"] []
    value with
  | error fault => rfl
  | ok fields =>
    show (conditionValue _ (field (fieldsAsFloats fields) "value") >>= fun value => _) = _
    simp only [field_asFloats, conditionValue_asFloats, text_asFloats]
    rfl

theorem normalizeConditions_asFloats (index : ℕ) (items : List (PyJson F)) :
    (normalizeConditions index (itemsAsFloats items)).map Subtype.val =
      (normalizeConditions index items).map Subtype.val := by
  induction items generalizing index with
  | nil => rfl
  | cons item rest ih =>
    rw [itemsAsFloats, normalizeConditions, normalizeConditions, normalizeCondition_asFloats]
    cases normalizeCondition index item with
    | error fault => rfl
    | ok condition =>
      rw [Except.ok_bind, Except.ok_bind]
      rcases same_result (ih (index + 1)) with ⟨fault, hx, hy⟩ | ⟨values, hp, hq, hx, hy⟩
      · rw [hx, hy]
        rfl
      · rw [hx, hy]
        rfl

theorem uuidText_asFloats (code uuidCode label : String) (value : PyJson F) :
    uuidText code uuidCode label value.asFloats = uuidText code uuidCode label value := by
  rw [uuidText, text_asFloats, uuidText]

theorem sha256Text_asFloats (code digestCode label : String) (value : PyJson F) :
    sha256Text code digestCode label value.asFloats = sha256Text code digestCode label value := by
  rw [sha256Text, text_asFloats, sha256Text]

theorem roleText_asFloats (code roleCode label : String) (value : PyJson F) :
    roleText code roleCode label value.asFloats = roleText code roleCode label value := by
  rw [roleText, text_asFloats, roleText]

theorem normalizeLineage_asFloats (value : PyJson F) :
    normalizeLineage value.asFloats = normalizeLineage value := by
  unfold normalizeLineage
  simp only
  rw [closedObject_asFloats]
  cases closedObject requestInvalid "series.source.lineage"
    ["operation", "request_id", "artifact_role", "artifact_sha256", "binding"] [] value with
  | error fault => rfl
  | ok fields =>
    show (sha256Text _ _ _ (field (fieldsAsFloats fields) "artifact_sha256") >>= fun digest => _) = _
    simp only [field_asFloats, sha256Text_asFloats, roleText_asFloats, text_asFloats,
      uuidText_asFloats]
    rw [Except.ok_bind]
    cases hbinding : field fields "binding" with
    | int n =>
      rw [asFloats]
      cases PyFloat.ofInt (F := F) n with
      | none => rfl
      | some x => rfl
    | _ => rfl

theorem optionalLineage_asFloats (value : Option (PyJson F)) :
    optionalLineage (value.map asFloats) = optionalLineage value := by
  cases value with
  | none => rfl
  | some item =>
    show (normalizeLineage item.asFloats).map some = (normalizeLineage item).map some
    rw [normalizeLineage_asFloats]

theorem normalizeSource_asFloats (value : PyJson F) :
    normalizeSource value.asFloats = normalizeSource value := by
  unfold normalizeSource
  simp only
  rw [closedObject_asFloats]
  cases closedObject requestInvalid "series.source"
    ["operation", "request_id", "artifact_role", "artifact_sha256"] ["lineage"] value with
  | error fault => rfl
  | ok fields =>
    show (sha256Text _ _ _ (field (fieldsAsFloats fields) "artifact_sha256") >>= fun digest => _) = _
    simp only [field_asFloats, sha256Text_asFloats, roleText_asFloats, text_asFloats,
      uuidText_asFloats, lookup_asFloats, optionalLineage_asFloats]
    rfl

theorem normalizeAxis_asFloats (value : PyJson F) :
    normalizeAxis value.asFloats = normalizeAxis value := by
  unfold normalizeAxis
  simp only
  rw [closedObject_asFloats]
  cases closedObject requestInvalid "series.axis" ["name", "unit", "values"] [] value with
  | error fault => rfl
  | ok fields =>
    rw [show (Except.ok fields : Except Fault (Fields F)).map fieldsAsFloats =
      .ok (fieldsAsFloats fields) from rfl, Except.ok_bind, Except.ok_bind]
    simp only [field_asFloats, text_asFloats]
    cases field fields "values" with
    | int n =>
      rw [asFloats]
      cases PyFloat.ofInt (F := F) n with
      | none => rfl
      | some x => rfl
    | array items =>
      rw [asFloats]
      simp only
      have hlength : (itemsAsFloats items).length = items.length := by
        rw [itemsAsFloats_eq, List.length_map]
      by_cases hcount : 1 ≤ items.length ∧ items.length ≤ maxPoints
      · rw [dif_pos (by rw [hlength]; exact hcount), dif_pos hcount]
        rcases same_result (finiteValues_asFloats requestInvalid _ 0 items) with
          ⟨fault, hx, hy⟩ | ⟨values, hp, hq, hx, hy⟩
        · rw [hx, hy]
          rfl
        · rw [hx, hy]
          rfl
      · rw [dif_neg (by rw [hlength]; exact hcount), dif_neg hcount]
    | _ => rfl

theorem normalizeSignal_asFloats (points : ℕ) (names : List (Text 256)) (index : ℕ)
    (value : PyJson F) :
    normalizeSignal points names index value.asFloats =
      normalizeSignal points names index value := by
  unfold normalizeSignal
  simp only
  rw [closedObject_asFloats]
  cases closedObject requestInvalid s!"series.signals[{index}]" ["name", "unit", "values"] []
    value with
  | error fault => rfl
  | ok fields =>
    show (text _ _ _ (field (fieldsAsFloats fields) "name") >>= fun name => _) = _
    simp only [field_asFloats, text_asFloats]
    rw [Except.ok_bind]
    cases text requestInvalid _ 256 (field fields "name") with
    | error fault => rfl
    | ok name =>
      rw [Except.ok_bind, Except.ok_bind]
      split
      · rfl
      · cases field fields "values" with
        | int n =>
          rw [asFloats]
          cases PyFloat.ofInt (F := F) n with
          | none => rfl
          | some x => rfl
        | array items =>
          rw [asFloats]
          simp only
          have hlength : (itemsAsFloats items).length = items.length := by
            rw [itemsAsFloats_eq, List.length_map]
          by_cases hpoints : items.length = points
          · rw [dif_pos (hlength.trans hpoints), dif_pos hpoints]
            cases text requestInvalid _ 64 (field fields "unit") with
            | error fault => rfl
            | ok unit =>
              rw [Except.ok_bind, Except.ok_bind]
              rcases same_result (finiteValues_asFloats requestInvalid _ 0 items) with
                ⟨fault, hx, hy⟩ | ⟨values, hp, hq, hx, hy⟩
              · rw [hx, hy]
                rfl
              · rw [hx, hy]
                rfl
          · rw [dif_neg (fun h => hpoints (hlength.symm.trans h)), dif_neg hpoints]
        | _ => rfl

theorem normalizeSignals_asFloats (points : ℕ) (names : List (Text 256)) (hn : names.Nodup)
    (items : List (PyJson F)) :
    (normalizeSignals points names (itemsAsFloats items) hn).map Subtype.val =
      (normalizeSignals points names items hn).map Subtype.val := by
  induction items generalizing names with
  | nil => rfl
  | cons item rest ih =>
    show (normalizeSignals points names (item.asFloats :: itemsAsFloats rest) hn).map _ = _
    rw [normalizeSignals, normalizeSignals, normalizeSignal_asFloats]
    cases normalizeSignal points names names.length item with
    | error fault => rfl
    | ok signal =>
      obtain ⟨signal, hname, hlength⟩ := signal
      rw [Except.ok_bind, Except.ok_bind]
      simp only
      rcases same_result (ih (names ++ [signal.name])
        (by rw [List.nodup_append_comm]; exact List.nodup_cons.mpr ⟨hname, hn⟩)) with
        ⟨fault, hx, hy⟩ | ⟨signals, hp, hq, hx, hy⟩
      · rw [hx, hy]
        rfl
      · obtain ⟨_, _, _⟩ := hp
        obtain ⟨_, _, _⟩ := hq
        rw [hx, hy]
        rfl

end Fields

theorem normalizeSeries_asFloats [PyFloatText F] (sha256 : ByteArray → Sha256) (verifyDigest : Bool)
    (series : PyJson F) :
    normalizeSeries sha256 verifyDigest series.asFloats =
      normalizeSeries sha256 verifyDigest series := by
  unfold normalizeSeries
  rw [closedObject_asFloats]
  cases closedObject requestInvalid "series"
    ["source", "axis", "signals", "conditions", "extensions"] [] series with
  | error fault => rfl
  | ok root =>
    have hextensions (label : String) (value : PyJson F) :
        emptyExtensions requestInvalid label value.asFloats =
          emptyExtensions requestInvalid label value := by
      cases value with
      | int n =>
        rw [asFloats]
        cases PyFloat.ofInt (F := F) n with
        | none => rfl
        | some x => rfl
      | object fields => cases fields <;> rfl
      | _ => rfl
    show (emptyExtensions _ _ (field (fieldsAsFloats root) "extensions") >>= fun _ => _) = _
    simp only [field_asFloats, hextensions, normalizeSource_asFloats, normalizeAxis_asFloats]
    rw [Except.ok_bind]
    cases emptyExtensions requestInvalid "series.extensions" (field root "extensions") with
    | error fault => rfl
    | ok _ =>
      rw [Except.ok_bind, Except.ok_bind]
      cases normalizeSource (field root "source") with
      | error fault => rfl
      | ok source =>
        rw [Except.ok_bind, Except.ok_bind]
        cases normalizeAxis (field root "axis") with
        | error fault => rfl
        | ok axis =>
          rw [Except.ok_bind, Except.ok_bind]
          cases field root "signals" with
          | int n =>
            rw [asFloats]
            cases PyFloat.ofInt (F := F) n with
            | none => rfl
            | some x => rfl
          | array items =>
            rw [asFloats]
            simp only
            have hitems : (itemsAsFloats items).length = items.length := by
              rw [itemsAsFloats_eq, List.length_map]
            by_cases hsignals : 1 ≤ items.length ∧ items.length ≤ maxSignals
            · rw [dif_pos (by rw [hitems]; exact hsignals), dif_pos hsignals]
              rcases same_result (normalizeSignals_asFloats axis.values.length [] List.nodup_nil
                items) with ⟨fault, hx, hy⟩ | ⟨signals, hp, hq, hx, hy⟩
              · rw [hx, hy]
                rfl
              · obtain ⟨hcount, hlengths, hnames⟩ := hp
                obtain ⟨hcount', _, _⟩ := hq
                rw [hx, hy, Except.ok_bind, Except.ok_bind]
                simp only
                cases field root "conditions" with
                | int n =>
                  rw [asFloats]
                  cases PyFloat.ofInt (F := F) n with
                  | none => rfl
                  | some x => rfl
                | array rows =>
                  rw [asFloats]
                  simp only
                  have hrowCount : (itemsAsFloats rows).length = rows.length := by
                    rw [itemsAsFloats_eq, List.length_map]
                  by_cases hrows : rows.length ≤ maxConditions
                  · rw [dif_pos (by rw [hrowCount]; exact hrows), dif_pos hrows]
                    rcases same_result (normalizeConditions_asFloats 0 rows) with
                      ⟨fault, hx, hy⟩ | ⟨conditions, hp, hq, hx, hy⟩
                    · rw [hx, hy]
                      rfl
                    · rw [hx, hy]
                      rfl
                  · rw [dif_neg (by rw [hrowCount]; exact hrows), dif_neg hrows]
                | _ => rfl
            · rw [dif_neg (by rw [hitems]; exact hsignals), dif_neg hsignals]
          | _ => rfl

end OpenADA.Series
