import OpenADA.Synth.Statistics
import OpenADA.Sta.PathReport

/-! Which native outputs a loader of JSON evidence returns from, and from which an exception leaves
it. -/
namespace OpenADA.Native

open PyStr PyJson Synth Sta

section Documents

variable {F : Type} [PyFloat F]

def Huge (number : PyJson F) : Prop := ∃ n, number = .int n ∧ (PyFloat.ofInt n : Option F) = none

def AreaAdmitted (number : PyJson F) : Prop := number = .null ∨ finiteSign number = .ok (some false)

def AreasConvert (record : PyJson F) : Prop :=
  (∃ statistics, IsStatistics record statistics) → ¬ Huge (record.member "area") ∧
    (AreaAdmitted (record.member "area") → ¬ Huge (record.member "sequential_area"))

def RecordAdmitted (record : PyJson F) : Prop :=
  (∃ statistics, IsStatistics record statistics) ∧ AreaAdmitted (record.member "area") ∧
    AreaAdmitted (record.member "sequential_area")

def IsTopRecord (requestedTop : PyStr) (payload record : PyJson F) : Prop :=
  ∃ modules, mapping? (payload.member "modules") = some modules ∧ modules ≠ [] ∧
    modules.length ≤ 4096 ∧
    [requestedTop, topPrefixed requestedTop].filterMap (fun key => modules.lookup key) = [record]

/-- No area that the validation of the statistics comes to is a huge integer. -/
structure StatisticsConvert (requestedTop : PyStr) (payload : PyJson F) : Prop where
  design : AreasConvert (payload.member "design")
  top : ∀ record, RecordAdmitted (payload.member "design") →
    IsTopRecord requestedTop payload record → AreasConvert record

def IsPath (expectedPathType : String) (item : PyJson F) : Prop :=
  ∃ path, normalizePath expectedPathType item = .ok path

/-- The first item that is no path does not have the path type and a huge integer as slack. -/
def SlacksConvert (expectedPathType : String) (payload : PyJson F) : Prop :=
  ∀ front item back, payload.member "checks" = .array (front ++ item :: back) →
    (front ++ item :: back).length ≤ maxPaths →
    (∀ earlier ∈ front, IsPath expectedPathType earlier) →
    (item.member "path_type").isText expectedPathType = true → ¬ Huge (item.member "slack")

theorem finiteSign_overflow {number : PyJson F} :
    (∀ e, finiteSign number ≠ .error e) ↔ ¬ Huge number := by
  cases number with
  | int n =>
    unfold finiteSign Huge
    cases hfloat : (PyFloat.ofInt n : Option F) with
    | none => simp [hfloat]
    | some x => simp [hfloat]
  | null => simp [finiteSign, Huge]
  | bool b => simp [finiteSign, Huge]
  | float x => simp [finiteSign, Huge]
  | str text => simp [finiteSign, Huge]
  | array items => simp [finiteSign, Huge]
  | object fields => simp [finiteSign, Huge]

theorem checkArea_of_ne {reason : String} {number : PyJson F} (h : number ≠ .null) :
    checkArea reason number = (catching [] reason (finiteSign number) >>= fun sign =>
      demand reason (sign = some false)) := by
  cases number with
  | null => exact absurd rfl h
  | int n => rfl
  | bool b => rfl
  | float x => rfl
  | str text => rfl
  | array items => rfl
  | object fields => rfl

theorem returns_checkArea {reason : String} {number : PyJson F} :
    Returns (checkArea reason number) ↔ ¬ Huge number := by
  by_cases hnull : number = .null
  · subst hnull
    refine ⟨fun _ => ?_, fun _ => returns_ok ()⟩
    rintro ⟨n, hn, -⟩
    cases hn
  · rw [checkArea_of_ne hnull, returns_bind, returns_catching, ← finiteSign_overflow]
    constructor
    · intro h e he
      exact absurd (h.1 e he) List.not_mem_nil
    · intro h
      exact ⟨fun e he => absurd he (h e), fun sign _ => returns_demand _ _⟩

theorem checkArea_eq_ok {reason : String} {number : PyJson F} {done : Unit} :
    checkArea reason number = .ok done ↔ AreaAdmitted number := by
  by_cases hnull : number = .null
  · subst hnull
    exact ⟨fun _ => .inl rfl, fun _ => rfl⟩
  · rw [checkArea_of_ne hnull, Except.bind_eq_ok]
    simp only [demand_eq_ok, decide_eq_true_eq]
    unfold AreaAdmitted
    rw [or_iff_right hnull]
    constructor
    · rintro ⟨sign, hsign, rfl⟩
      cases hfinite : finiteSign number with
      | ok value =>
        rw [hfinite] at hsign
        exact congrArg _ (Except.ok.inj hsign)
      | error e =>
        rw [hfinite] at hsign
        cases hsign
    · intro h
      exact ⟨some false, by rw [h]; rfl, rfl⟩

omit [PyFloat F] in
theorem returns_validateCounts (record : PyJson F) : Returns (validateCounts record) := by
  unfold validateCounts
  refine returns_bind.mpr ⟨returns_expect _ _, fun _ _ => ?_⟩
  refine returns_bind.mpr ⟨returns_demand _ _, fun _ _ => ?_⟩
  refine returns_bind.mpr ⟨returns_expect _ _, fun _ _ => ?_⟩
  refine returns_bind.mpr ⟨returns_expect _ _, fun _ _ => ?_⟩
  refine returns_bind.mpr ⟨returns_expect _ _, fun _ _ => ?_⟩
  refine returns_bind.mpr ⟨returns_expect _ _, fun _ _ => ?_⟩
  refine returns_bind.mpr ⟨returns_expect _ _, fun _ _ => ?_⟩
  exact returns_bind.mpr ⟨returns_demand _ _, fun _ _ => returns_ok _⟩

theorem returns_validateStatisticsRecord {record : PyJson F} :
    Returns (validateStatisticsRecord record) ↔ AreasConvert record := by
  unfold validateStatisticsRecord AreasConvert
  rw [returns_bind]
  simp only [returns_bind, returns_checkArea, checkArea_eq_ok, validateCounts_eq_ok]
  constructor
  · rintro ⟨-, h⟩ ⟨statistics, hstatistics⟩
    obtain ⟨harea, hnext⟩ := h statistics hstatistics
    exact ⟨harea, fun hadmitted => (hnext () hadmitted).1⟩
  · intro h
    refine ⟨returns_validateCounts record, fun statistics hstatistics => ?_⟩
    obtain ⟨harea, hnext⟩ := h ⟨statistics, hstatistics⟩
    exact ⟨harea, fun _ hadmitted => ⟨hnext hadmitted, fun _ _ => returns_ok _⟩⟩

theorem validateStatisticsRecord_eq_ok {record : PyJson F} :
    (∃ statistics, validateStatisticsRecord record = .ok statistics) ↔ RecordAdmitted record := by
  unfold validateStatisticsRecord RecordAdmitted
  simp only [Except.bind_eq_ok, checkArea_eq_ok, validateCounts_eq_ok]
  constructor
  · rintro ⟨statistics, _, hstatistics, -, harea, -, hsequential, -⟩
    exact ⟨⟨_, hstatistics⟩, harea, hsequential⟩
  · rintro ⟨⟨statistics, hstatistics⟩, harea, hsequential⟩
    exact ⟨statistics, statistics, hstatistics, (), harea, (), hsequential, rfl⟩

theorem returns_topStop {α : Type} {x : Except Stop α} : Returns (x.mapError topStop) ↔ Returns x := by
  cases x with
  | ok value => exact ⟨fun _ => returns_ok value, fun _ => returns_ok value⟩
  | error stop =>
    cases stop with
    | verdict reason => exact ⟨fun _ => returns_verdict _, fun _ => returns_verdict _⟩
    | raised e =>
      exact ⟨fun h => absurd h (not_returns_raised e), fun h => absurd h (not_returns_raised e)⟩

omit [PyFloat F] in
theorem member_of_mapping_none {payload : PyJson F} (h : mapping? payload = none) (key : String) :
    payload.member key = .null := by
  cases payload with
  | object fields => cases h
  | null => rfl
  | bool b => rfl
  | int n => rfl
  | float x => rfl
  | str text => rfl
  | array items => rfl

omit [PyFloat F] in
theorem not_isStatistics_null {statistics : Statistics} :
    ¬ IsStatistics (.null : PyJson F) statistics := by
  intro h
  have hcells := h.numCells
  cases hcells

theorem returns_validateStatistics {requestedTop : PyStr} {payload : PyJson F} :
    Returns (validateStatistics requestedTop payload) ↔ StatisticsConvert requestedTop payload := by
  unfold validateStatistics
  cases hpayload : mapping? payload with
  | none =>
    have hdesign : ∀ statistics, ¬ IsStatistics (payload.member "design") statistics := by
      intro statistics
      rw [member_of_mapping_none hpayload]
      exact not_isStatistics_null
    refine ⟨fun _ => ⟨?_, ?_⟩, fun _ => returns_verdict _⟩
    · rintro ⟨statistics, hstatistics⟩
      exact absurd hstatistics (hdesign statistics)
    · rintro record ⟨⟨statistics, hstatistics⟩, -⟩
      exact absurd hstatistics (hdesign statistics)
  | some fields =>
  rw [expect, Except.ok_bind, returns_bind, returns_validateStatisticsRecord]
  simp only [returns_bind, expect_eq_ok, demand_eq_ok]
  constructor
  · rintro ⟨hdesign, hrest⟩
    refine ⟨hdesign, fun record hadmitted htop => ?_⟩
    obtain ⟨statistics, hstatistics⟩ := validateStatisticsRecord_eq_ok.mpr hadmitted
    obtain ⟨modules, hmodules, hne, hlength, hfound⟩ := htop
    have hmatch := ((hrest statistics hstatistics).2 modules hmodules).2 ()
      (by rw [decide_eq_true hne, decide_eq_true hlength]; rfl)
    simp only [hfound] at hmatch
    exact returns_validateStatisticsRecord.mp (returns_topStop.mp (returns_bind.mp hmatch).1)
  · intro h
    refine ⟨h.design, fun statistics hstatistics => ⟨returns_expect _ _, fun modules hmodules =>
      ⟨returns_demand _ _, fun _ hsize => ?_⟩⟩⟩
    rw [Bool.and_eq_true, decide_eq_true_eq, decide_eq_true_eq] at hsize
    cases hfound : [requestedTop, topPrefixed requestedTop].filterMap
        (fun key => modules.lookup key) with
    | nil => exact returns_verdict _
    | cons record more =>
      cases more with
      | cons other more => exact returns_verdict _
      | nil =>
        have hrecord := h.top record (validateStatisticsRecord_eq_ok.mp ⟨statistics, hstatistics⟩)
          ⟨modules, hmodules, hsize.1, hsize.2, hfound⟩
        refine returns_bind.mpr ⟨returns_topStop.mpr (returns_validateStatisticsRecord.mpr hrecord),
          fun _ _ => returns_bind.mpr ⟨returns_demand _ _, fun _ _ => returns_ok _⟩⟩

omit [PyFloat F] in
theorem returns_countCell (counted : InsertionDict PyStr ℕ) (entry : PyStr × PyJson F) :
    Returns (countCell counted entry) := by
  unfold countCell
  refine returns_bind.mpr ⟨returns_demand _ _, fun _ _ => ?_⟩
  refine returns_bind.mpr ⟨returns_expect _ _, fun _ _ => ?_⟩
  refine returns_bind.mpr ⟨returns_demand _ _, fun _ _ => ?_⟩
  exact returns_bind.mpr ⟨returns_demand _ _, fun _ _ => returns_ok _⟩

theorem returns_validateStructure (requestedTop : PyStr) (payload : PyJson F) :
    Returns (validateStructure requestedTop payload) := by
  unfold validateStructure
  refine returns_bind.mpr ⟨returns_expect _ _, fun _ _ => ?_⟩
  refine returns_bind.mpr ⟨returns_demand _ _, fun _ _ => ?_⟩
  refine returns_bind.mpr ⟨returns_expect _ _, fun _ _ => ?_⟩
  refine returns_bind.mpr ⟨returns_demand _ _, fun _ _ => ?_⟩
  refine returns_bind.mpr ⟨returns_expect _ _, fun _ _ => ?_⟩
  refine returns_bind.mpr ⟨returns_demand _ _, fun _ _ => ?_⟩
  exact returns_bind.mpr ⟨returns_foldlM returns_countCell _ _, fun _ _ => returns_ok _⟩

omit [PyFloat F] in
theorem returns_validateNetlist (payload : PyJson F) : Returns (validateNetlist payload) := by
  unfold validateNetlist
  refine returns_bind.mpr ⟨returns_expect _ _, fun _ _ => ?_⟩
  exact returns_bind.mpr ⟨returns_expect _ _, fun _ _ => returns_demand _ _⟩

theorem not_huge {number : PyJson F} (h : ∀ n, number ≠ .int n) : ¬ Huge number := by
  rintro ⟨n, hn, -⟩
  exact h n hn

theorem returns_slackOf {number : PyJson F} : Returns (slackOf number) ↔ ¬ Huge number := by
  have hother (hne : ∀ n, number ≠ .int n) (h : Returns (slackOf number)) :
      Returns (slackOf number) ↔ ¬ Huge number := ⟨fun _ => not_huge hne, fun _ => h⟩
  cases number with
  | int n =>
    cases hfloat : (PyFloat.ofInt n : Option F) with
    | none =>
      simp only [slackOf, hfloat]
      constructor
      · exact fun h => absurd h (not_returns_raised .overflowError)
      · exact fun h => absurd ⟨n, rfl, hfloat⟩ h
    | some x =>
      have hsmall : ¬ Huge (.int n : PyJson F) := by
        rintro ⟨m, hm, hnone⟩
        rw [← PyJson.int.inj hm, hfloat] at hnone
        cases hnone
      refine ⟨fun _ => hsmall, fun _ => ?_⟩
      simp only [slackOf, hfloat]
      split_ifs
      · exact returns_ok x
      · exact returns_verdict _
  | float x =>
    refine hother (fun n => by simp) ?_
    simp only [slackOf]
    split_ifs
    · exact returns_ok x
    · exact returns_verdict _
  | null => exact hother (fun n => by simp) (returns_verdict _)
  | bool b => exact hother (fun n => by simp) (returns_verdict _)
  | str text => exact hother (fun n => by simp) (returns_verdict _)
  | array items => exact hother (fun n => by simp) (returns_verdict _)
  | object fields => exact hother (fun n => by simp) (returns_verdict _)

omit [PyFloat F] in
theorem returns_nameOf (reason : String) (maximum : ℕ) (value : PyJson F) :
    Returns (nameOf reason maximum value) := by
  cases value with
  | null => exact returns_ok _
  | str name =>
    simp only [nameOf]
    split_ifs
    · exact returns_verdict _
    · exact returns_ok _
  | bool b => exact returns_verdict _
  | int n => exact returns_verdict _
  | float x => exact returns_verdict _
  | array items => exact returns_verdict _
  | object fields => exact returns_verdict _

theorem returns_normalizePath {expectedPathType : String} {item : PyJson F} :
    Returns (normalizePath expectedPathType item) ↔
      ((item.member "path_type").isText expectedPathType = true → ¬ Huge (item.member "slack")) := by
  unfold normalizePath
  by_cases htype : (item.member "path_type").isText expectedPathType = true
  · simp only [htype, Bool.not_true, Bool.false_eq_true, if_false, true_imp_iff]
    rw [returns_bind, returns_slackOf]
    refine ⟨fun h => h.1, fun h => ⟨h, fun slack _ => ?_⟩⟩
    refine returns_bind.mpr ⟨returns_nameOf _ _ _, fun _ _ => ?_⟩
    refine returns_bind.mpr ⟨returns_nameOf _ _ _, fun pathGroup _ => ?_⟩
    refine returns_bind.mpr ⟨returns_nameOf _ _ _, fun startpoint _ => ?_⟩
    refine returns_bind.mpr ⟨returns_nameOf _ _ _, fun endpoint _ => ?_⟩
    cases startpoint with
    | none => exact returns_verdict _
    | some startpoint =>
      cases endpoint with
      | none => exact returns_verdict _
      | some endpoint => exact returns_ok _
  · simp only [htype, Bool.not_false, if_true]
    refine ⟨fun _ h => ?_, fun _ => returns_verdict _⟩
    cases h

theorem returns_validatePaths {expectedPathType : String} {payload : PyJson F} :
    Returns (validatePaths expectedPathType payload) ↔ SlacksConvert expectedPathType payload := by
  by_cases hlist : ∃ checks, payload.member "checks" = .array checks
  · obtain ⟨checks, hchecks⟩ := hlist
    unfold validatePaths SlacksConvert
    simp only [hchecks, PyJson.array.injEq]
    by_cases hsize : checks = [] ∨ maxPaths < checks.length
    · rw [if_pos hsize]
      refine ⟨fun _ front item back hsplit hlength => ?_, fun _ => returns_verdict _⟩
      subst hsplit
      rcases hsize with hempty | hlarge
      · exact absurd hempty (by simp)
      · exact absurd hlength (not_le.mpr hlarge)
    · rw [if_neg hsize, returns_bind, returns_mapM]
      push Not at hsize
      simp only [returns_normalizePath]
      constructor
      · rintro ⟨h, -⟩ front item back hsplit - hfront
        exact h front item back hsplit hfront
      · intro h
        refine ⟨fun front item back hsplit hfront =>
          h front item back hsplit (hsplit ▸ hsize.2) hfront, fun normalized _ => ?_⟩
        cases normalized with
        | nil => exact returns_verdict _
        | cons first rest => exact returns_ok _
  · constructor
    · intro _ front item back hchecks
      exact absurd ⟨_, hchecks⟩ hlist
    · intro _
      unfold validatePaths
      split
      · exact absurd ⟨_, by assumption⟩ hlist
      · exact returns_verdict _

end Documents

section Contents

variable {F : Type} [PyFloat F] {interpreter : Interpreter F} {content : List UInt8}

omit [PyFloat F] in
theorem returns_loadSized {α : Type} {maximum : ℕ} {tooLarge : String}
    {validate : PyJson F → Except Stop α} :
    Returns (loadSized interpreter maximum tooLarge validate content) ↔
      (content ≠ [] → content.length ≤ maximum → Readable interpreter content ∧
        ∀ payload, loadsContent interpreter content = .ok payload → Returns (validate payload)) := by
  unfold loadSized readSized
  simp only [bind_assoc, returns_bind, demand_eq_ok, returns_decoded, decide_eq_true_eq]
  constructor
  · rintro ⟨-, h⟩ hne hsize
    obtain ⟨-, hrest⟩ := h () hne
    obtain ⟨hreadable, hvalid⟩ := hrest () hsize
    exact ⟨hreadable, fun payload hpayload => hvalid payload (by rw [hpayload]; rfl)⟩
  · intro h
    refine ⟨returns_demand _ _, fun _ hne => ⟨returns_demand _ _, fun _ hsize => ?_⟩⟩
    obtain ⟨hreadable, hvalid⟩ := h hne hsize
    refine ⟨hreadable, fun payload hpayload => hvalid payload ?_⟩
    cases hload : loadsContent interpreter content with
    | ok value =>
      rw [hload] at hpayload
      exact congrArg _ (Except.ok.inj hpayload)
    | error e =>
      rw [hload] at hpayload
      cases hpayload

theorem returns_loadPathReport {expectedPathType : String} :
    Returns (loadPathReport interpreter expectedPathType content) ↔
      (content ≠ [] → content.length ≤ maxReportBytes → ReadableOrDeep interpreter content ∧
        ∀ payload, loadsContent interpreter content = .ok payload →
          SlacksConvert expectedPathType payload) := by
  unfold loadPathReport
  by_cases hsize : maxReportBytes < content.length
  · rw [if_pos hsize]
    exact ⟨fun _ _ h => absurd h (not_le.mpr hsize), fun _ => returns_verdict _⟩
  rw [if_neg hsize]
  by_cases hne : content = []
  · rw [if_pos hne]
    exact ⟨fun _ h => absurd hne h, fun _ => returns_verdict _⟩
  rw [if_neg hne, returns_bind, returns_decoded_deep]
  simp only [returns_validatePaths]
  constructor
  · rintro ⟨hreadable, hvalid⟩ - -
    exact ⟨hreadable, fun payload hpayload => hvalid payload (by rw [hpayload]; rfl)⟩
  · intro h
    obtain ⟨hreadable, hvalid⟩ := h hne (not_lt.mp hsize)
    refine ⟨hreadable, fun payload hpayload => hvalid payload ?_⟩
    cases hload : loadsContent interpreter content with
    | ok value =>
      rw [hload] at hpayload
      exact congrArg _ (Except.ok.inj hpayload)
    | error e =>
      rw [hload] at hpayload
      unfold catching at hpayload
      simp only [reduceCtorEq] at hpayload

end Contents

/-- The loaders return a verdict exactly where every integer they come past has no more digits than
the interpreter converts, every container is within its stack, and no area or slack that is asked to
be finite is an integer out of the range of floats. A container that is too deep is a verdict of the
path reports. -/
theorem loaders_return {F : Type} [PyFloat F] (interpreter : Interpreter F) (requestedTop : PyStr)
    (expectedPathType : String) (content : List UInt8) :
    (Returns (loadSynthesisStats interpreter requestedTop content) ↔
      (content ≠ [] → content.length ≤ maxSynthesisJsonBytes → Readable interpreter content ∧
        ∀ payload, loadsContent interpreter content = .ok payload →
          StatisticsConvert requestedTop payload)) ∧
    (Returns (loadMappedStructure interpreter requestedTop content) ↔
      (content ≠ [] → content.length ≤ maxSynthesisJsonBytes → Readable interpreter content)) ∧
    (Returns (validateJsonNetlist interpreter content) ↔
      (content ≠ [] → content.length ≤ maxJsonParseBytes → Readable interpreter content)) ∧
    (Returns (loadPathReport interpreter expectedPathType content) ↔
      (content ≠ [] → content.length ≤ maxReportBytes → ReadableOrDeep interpreter content ∧
        ∀ payload, loadsContent interpreter content = .ok payload →
          SlacksConvert expectedPathType payload)) := by
  refine ⟨?_, ?_, ?_, returns_loadPathReport⟩
  · unfold loadSynthesisStats
    simp only [returns_loadSized, returns_validateStatistics]
  · unfold loadMappedStructure
    simp only [returns_loadSized, returns_validateStructure, implies_true, and_true]
  · unfold validateJsonNetlist
    simp only [returns_loadSized, returns_validateNetlist, implies_true, and_true]

section Ones

def one : CodePoint := point '1'

theorem decodeUtf8_ones (n : ℕ) :
    JsonReader.decodeUtf8 (List.replicate n 0x31) = some (List.replicate n one) := by
  induction n with
  | zero => rfl
  | succ n ih =>
    have hone : JsonReader.codePoint (0x31 : UInt8).toNat = one := by decide
    rw [List.replicate_succ, JsonReader.decodeUtf8.eq_def]
    simp only [show (0x31 : UInt8) < 0x80 by decide, if_true, ih, hone]
    rfl

theorem afterWord_ones {word : String} {first : CodePoint} {rest : PyStr} (n : ℕ)
    (hword : lit word = first :: rest) (hfirst : first ≠ one) :
    JsonReader.afterWord word (List.replicate (n + 1) one) = none := by
  rw [JsonReader.afterWord, if_neg]
  rw [hword, List.replicate_succ, List.cons_prefix_cons]
  exact fun h => hfirst h.1

theorem readNumber_ones (n : ℕ) : JsonReader.readNumber (List.replicate (n + 1) one) =
    some (⟨List.replicate (n + 1) one, false⟩, []) := by
  have hdigit : JsonReader.isDigit one = true := by decide
  have htake : (List.replicate (n + 1) one).takeWhile JsonReader.isDigit =
      List.replicate (n + 1) one := by
    rw [List.takeWhile_eq_self_iff]
    intro c hc
    rw [List.eq_of_mem_replicate hc]
    exact hdigit
  have hdrop : (List.replicate (n + 1) one).dropWhile JsonReader.isDigit = [] := by
    rw [List.dropWhile_eq_nil_iff]
    intro c hc
    rw [List.eq_of_mem_replicate hc]
    exact hdigit
  have hinteger : JsonReader.readInteger (List.replicate (n + 1) one) =
      some (List.replicate (n + 1) one, []) := by
    have hzero : one ≠ point '0' := by decide
    rw [List.replicate_succ] at htake hdrop ⊢
    simp only [JsonReader.readInteger, if_neg hzero, if_pos hdigit, htake, hdrop]
  have hsign : (List.replicate (n + 1) one).head? ≠ some (point '-') := by
    rw [List.replicate_succ, List.head?_cons, Ne, Option.some.injEq]
    decide
  unfold JsonReader.readNumber
  simp only [hsign, if_false, hinteger]
  simp [JsonReader.readFraction, JsonReader.readExponent]

theorem visited_ones (n : ℕ) : JsonReader.visited (List.replicate (n + 1) one) =
    [.integer (List.replicate (n + 1) one)] := by
  have hplain : JsonReader.scanPlain (List.replicate (n + 1) one) =
      ([.integer (List.replicate (n + 1) one)], some []) := by
    unfold JsonReader.scanPlain
    rw [afterWord_ones n (show lit "null" = point 'n' :: lit "ull" by decide) (by decide),
      afterWord_ones n (show lit "true" = point 't' :: lit "rue" by decide) (by decide),
      afterWord_ones n (show lit "false" = point 'f' :: lit "alse" by decide) (by decide)]
    simp only [readNumber_ones]
    rfl
  have hspace : JsonReader.skipSpace (List.replicate (n + 1) one) = List.replicate (n + 1) one := by
    rw [JsonReader.skipSpace, List.replicate_succ, List.dropWhile_cons_of_neg]
    decide
  have hmark : (List.replicate (n + 1) one).head? ≠ some (JsonReader.codePoint 0xFEFF) := by
    rw [List.replicate_succ, List.head?_cons, Ne, Option.some.injEq]
    decide
  have hvalue (fuel depth : ℕ) : JsonReader.scanValue (fuel + 1) depth (List.replicate (n + 1) one) =
      JsonReader.scanPlain (List.replicate (n + 1) one) := by
    rw [List.replicate_succ, JsonReader.scanValue]
    simp only [show one ≠ point '"' by decide, show one ≠ point '[' by decide,
      show one ≠ point '\x7b' by decide, if_false]
  rw [JsonReader.visited, if_neg hmark, hspace, hvalue, hplain]

end Ones

def longNumber : List UInt8 := List.replicate (maxStrDigits + 1) 0x31

/-- A ValueError leaves every loader of a file that holds one long integer. -/
theorem longNumber_raises :
    ¬ Returns (loadSynthesisStats (⟨1000, fun _ => 0⟩ : Interpreter ℚ) (lit "top") longNumber) ∧
    ¬ Returns (loadMappedStructure (⟨1000, fun _ => 0⟩ : Interpreter ℚ) (lit "top") longNumber) ∧
    ¬ Returns (validateJsonNetlist (⟨1000, fun _ => 0⟩ : Interpreter ℚ) longNumber) ∧
    ¬ Returns (loadPathReport (⟨1000, fun _ => 0⟩ : Interpreter ℚ) "max" longNumber) := by
  have htext : JsonReader.decodeUtf8 longNumber = some (List.replicate (maxStrDigits + 1) one) :=
    decodeUtf8_ones _
  have hvisited := visited_ones maxStrDigits
  have hlong : tooLong (List.replicate (maxStrDigits + 1) one) = true := by
    rw [tooLong, List.filter_replicate_of_pos (by decide), List.length_replicate]
    decide
  have hne : longNumber ≠ [] := by
    rw [longNumber, List.replicate_succ]
    exact List.cons_ne_nil _ _
  have hsize : longNumber.length = maxStrDigits + 1 := List.length_replicate ..
  have hreadable : ¬ Readable (⟨1000, fun _ => 0⟩ : Interpreter ℚ) longNumber := by
    intro h
    have hfits := h _ htext (.integer (List.replicate (maxStrDigits + 1) one))
      (by rw [hvisited]; exact List.mem_singleton_self _)
    rw [Fits, hlong] at hfits
    cases hfits
  have hdeep : ¬ ReadableOrDeep (⟨1000, fun _ => 0⟩ : Interpreter ℚ) longNumber := by
    intro h
    obtain ⟨visit, hvisit, -⟩ := h _ htext [] (List.replicate (maxStrDigits + 1) one) [] hvisited hlong
    exact absurd hvisit List.not_mem_nil
  refine ⟨fun h => hreadable ?_, fun h => hreadable ?_, fun h => hreadable ?_, fun h => hdeep ?_⟩
  · exact (returns_loadSized.mp h hne (by rw [hsize]; decide)).1
  · exact (returns_loadSized.mp h hne (by rw [hsize]; decide)).1
  · exact (returns_loadSized.mp h hne (by rw [hsize]; decide)).1
  · exact (returns_loadPathReport.mp h hne (by rw [hsize]; decide)).1

end OpenADA.Native
