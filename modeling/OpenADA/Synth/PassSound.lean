import OpenADA.Synth.Mapping

/-! What a pass of a synthesis run says of its mapped netlist. -/
namespace OpenADA.Synth

open PyStr PyJson Native

def cellType? {F : Type} (entry : PyStr × PyJson F) : Option PyStr := (entry.2.member "type").text?

structure HasType {F : Type} (entry : PyStr × PyJson F) (name : PyStr) : Prop where
  type : cellType? entry = some name
  ne_nil : name ≠ []
  length_le : name.length ≤ 256

def tally (names : List PyStr) (name : PyStr) : Option ℕ :=
  if name ∈ names then some (names.count name) else none

def moduleOf {F : Type} (payload : PyJson F) (name : PyStr) : PyJson F :=
  ((mapping? (payload.member "modules")).bind fun modules => modules.lookup name).getD .null

/-- A netlist whose top module has cells of the declared types only, and statistics that count them
and leave nothing unmapped. -/
structure FullyMapped {F : Type} [PyFloat F] (declared : List PyStr) (requestedTop : PyStr)
    (payload : PyJson F) (cells : List (PyStr × PyJson F)) (statistics : Statistics) : Prop where
  marked : yosysTopAttribute
    (((moduleOf payload requestedTop).member "attributes").member "top") = true
  topCells : (moduleOf payload requestedTop).member "cells" = .object cells
  types : ∀ entry ∈ cells, ∃ name, HasType entry name ∧ name.head? ≠ some (point '$') ∧
    name ∈ declared
  histogram : ∀ name, statistics.numCellsByType.get? name = tally (cells.filterMap cellType?) name
  total : (statistics.numCellsByType.entries.map Prod.snd).sum = cells.length
  numCells : statistics.numCells = cells.length
  processes : statistics.numProcesses = 0
  memories : statistics.numMemories = 0
  memoryBits : statistics.numMemoryBits = 0

section Counting

variable {F : Type} {names : List PyStr}

theorem tally_append (names : List PyStr) (last name : PyStr) :
    tally (names ++ [last]) name =
      if name = last then some ((tally names last).getD 0 + 1) else tally names name := by
  unfold tally
  by_cases hname : name = last
  · subst hname
    rw [if_pos rfl, if_pos (by simp), List.count_append, List.count_singleton_self]
    by_cases hmem : name ∈ names
    · rw [if_pos hmem]
      rfl
    · rw [if_neg hmem, List.count_eq_zero_of_not_mem hmem]
      rfl
  · rw [if_neg hname, List.count_append, List.count_singleton]
    have hne : (last == name) = false := by simpa using fun h => hname h.symm
    simp only [List.mem_append, List.mem_singleton, hname, or_false, hne, Bool.false_eq_true,
      if_false, Nat.add_zero]

theorem get?_modify (counted : InsertionDict PyStr ℕ) (name other : PyStr) :
    (counted.modify name 0 (· + 1)).get? other =
      if other = name then some ((counted.get? name).getD 0 + 1) else counted.get? other := by
  rw [InsertionDict.modify, InsertionDict.get?_set]

theorem countCell_eq_ok {counted counted' : InsertionDict PyStr ℕ} {entry : PyStr × PyJson F}
    (h : countCell counted entry = .ok counted') :
    ∃ name, HasType entry name ∧ counted' = counted.modify name 0 (· + 1) := by
  unfold countCell at h
  simp only [Except.bind_eq_ok, expect_eq_ok, demand_eq_ok] at h
  obtain ⟨-, -, name, hname, -, hvalid, -, -, hcounted⟩ := h
  rw [Bool.and_eq_true, decide_eq_true_eq, decide_eq_true_eq] at hvalid
  exact ⟨name, ⟨hname, hvalid.1, hvalid.2⟩, (Except.ok.inj hcounted).symm⟩

theorem foldlM_countCell {cells : List (PyStr × PyJson F)} {counted : InsertionDict PyStr ℕ}
    (h : cells.foldlM countCell InsertionDict.empty = .ok counted) :
    (∀ entry ∈ cells, ∃ name, HasType entry name) ∧
      ∀ name, counted.get? name = tally (cells.filterMap cellType?) name := by
  refine Except.foldlM_spec (fun done counted =>
    (∀ entry ∈ done, ∃ name, HasType entry name) ∧
      ∀ name, counted.get? name = tally (done.filterMap cellType?) name) ?_ ?_ h
  · rintro done entry counted counted' ⟨htypes, hcounts⟩ hstep
    obtain ⟨last, hlast, rfl⟩ := countCell_eq_ok hstep
    constructor
    · intro other hother
      rcases List.mem_append.mp hother with hdone | hnew
      · exact htypes other hdone
      · rw [List.mem_singleton.mp hnew]
        exact ⟨last, hlast⟩
    · intro name
      have hsingle : [entry].filterMap cellType? = [last] := by simp [hlast.type]
      rw [List.filterMap_append, hsingle, tally_append, get?_modify, hcounts, hcounts]
  · exact ⟨fun entry hentry => absurd hentry List.not_mem_nil, fun name => rfl⟩

end Counting

section Passing

variable {F : Type} [PyFloat F] {requestedTop : PyStr} {payload : PyJson F}

theorem validateStatistics_eq_ok {statistics : Statistics}
    (h : validateStatistics requestedTop payload = .ok statistics) :
    IsStatistics (payload.member "design") statistics := by
  unfold validateStatistics at h
  simp only [Except.bind_eq_ok] at h
  obtain ⟨-, -, design, hdesign, modules, -, -, -, hfound⟩ := h
  have heq : statistics = design := by
    cases hkeys : [requestedTop, topPrefixed requestedTop].filterMap
        fun key => modules.lookup key with
    | nil =>
      rw [hkeys] at hfound
      cases hfound
    | cons record more =>
      rw [hkeys] at hfound
      cases more with
      | cons other more => cases hfound
      | nil =>
        obtain ⟨top, -, hsame⟩ := Except.bind_eq_ok.mp hfound
        obtain ⟨-, -, hdone⟩ := Except.bind_eq_ok.mp hsame
        exact (Except.ok.inj hdone).symm
  unfold validateStatisticsRecord at hdesign
  obtain ⟨counts, hcounts, hareas⟩ := Except.bind_eq_ok.mp hdesign
  obtain ⟨-, -, hareas⟩ := Except.bind_eq_ok.mp hareas
  obtain ⟨-, -, hdone⟩ := Except.bind_eq_ok.mp hareas
  rw [heq, ← Except.ok.inj hdone]
  exact validateCounts_eq_ok.mp hcounts

theorem validateStructure_eq_ok {mapped : MappedStructure}
    (h : validateStructure requestedTop payload = .ok mapped) :
    yosysTopAttribute (((moduleOf payload requestedTop).member "attributes").member "top") = true ∧
      ∃ cells, (moduleOf payload requestedTop).member "cells" = .object cells ∧
        mapped.numCells = cells.length ∧
        cells.foldlM countCell InsertionDict.empty = .ok mapped.numCellsByType := by
  unfold validateStructure at h
  simp only [Except.bind_eq_ok, expect_eq_ok, demand_eq_ok, Bool.and_eq_true] at h
  obtain ⟨modules, hmodules, -, -, -, -, -, hattributes, cells, hcells, -, -, counted, hcounted,
    hdone⟩ := h
  have htop : moduleOf payload requestedTop = (modules.lookup requestedTop).getD .null := by
    rw [moduleOf, hmodules, Option.bind_some]
  rw [htop]
  obtain rfl := Except.ok.inj hdone
  refine ⟨hattributes.2, cells, ?_, rfl, hcounted⟩
  cases hmember : ((modules.lookup requestedTop).getD .null).member "cells" with
  | object fields =>
    rw [hmember] at hcells
    exact congrArg _ (Option.some.inj hcells)
  | null => rw [hmember] at hcells; cases hcells
  | bool b => rw [hmember] at hcells; cases hcells
  | int n => rw [hmember] at hcells; cases hcells
  | float x => rw [hmember] at hcells; cases hcells
  | str text => rw [hmember] at hcells; cases hcells
  | array items => rw [hmember] at hcells; cases hcells

omit [PyFloat F] in
theorem retained_eq_some {α : Type} {output : Option (Except Stop (PyJson F))}
    {validate : PyJson F → Except Stop α} {value : α}
    (h : retained (output.map (· >>= validate)) = .ok (some value)) :
    ∃ payload, output = some (.ok payload) ∧ validate payload = .ok value := by
  cases output with
  | none => cases h
  | some loaded =>
    cases loaded with
    | error stop =>
      cases stop with
      | verdict reason => cases h
      | raised e => cases h
    | ok payload =>
      refine ⟨payload, rfl, ?_⟩
      rw [Option.map_some, Except.ok_bind] at h
      cases hvalue : validate payload with
      | ok other =>
        rw [hvalue] at h
        exact congrArg _ (Option.some.inj (Except.ok.inj h))
      | error stop =>
        rw [hvalue] at h
        cases stop with
        | verdict reason => cases h
        | raised e => cases h

/-- The types of a netlist whose statistics leave none unmapped are those of the library. -/
theorem mem_of_unmapped_eq_nil {names : List PyStr} {statistics : Statistics} {name : PyStr}
    (h : unmapped names statistics = []) (hname : name ∈ statistics.numCellsByType.keys) :
    name.head? ≠ some (point '$') ∧ name ∈ names := by
  have hpass := List.filter_eq_nil_iff.mp h name hname
  rw [Bool.or_eq_true, decide_eq_true_eq, decide_eq_true_eq, not_or, not_not] at hpass
  exact hpass

/-- The netlist of a run whose mapping is complete has only cells that the Liberty text was found to
name. -/
theorem fullyMapped_of_complete {evidence : RunEvidence} {liberty : Option (ℕ × List UInt8)}
    {outputs : NativeOutputs F} {report : SynthesisReport}
    (h : synthesize evidence liberty requestedTop outputs = .ok report)
    (hcomplete : report.mappingComplete = true) :
    ∃ names payload cells stats statistics, libertyCells liberty = .ok names ∧
      outputs.mappedJson = some (.ok payload) ∧ outputs.mappedStats = some (.ok stats) ∧
      IsStatistics (stats.member "design") statistics ∧
      FullyMapped names requestedTop payload cells statistics := by
  unfold synthesize at h
  cases hnames : libertyCells liberty with
  | error refusal =>
    rw [hnames] at h
    rw [← Except.ok.inj h] at hcomplete
    cases hcomplete
  | ok names =>
  rw [hnames] at h
  cases hdocuments : loadDocuments requestedTop outputs with
  | error e =>
    rw [hdocuments] at h
    cases h
  | ok documents =>
  rw [hdocuments] at h
  obtain rfl := Except.ok.inj h
  simp only [judge, Bool.and_eq_true, Bool.not_eq_true', Bool.and_eq_false_iff] at hcomplete
  obtain ⟨⟨-, houtputs⟩, hnone⟩ := hcomplete
  have hfailure := hnone.resolve_left (by simp [houtputs])
  clear hnone
  unfold mappedOutputsComplete at houtputs
  simp only [Bool.and_eq_true, Option.any_eq_true] at houtputs
  obtain ⟨⟨⟨⟨⟨⟨statistics, hstats, mapped, hmapped, hagrees⟩, -⟩, -⟩, -⟩, -⟩, -⟩ := houtputs
  rw [hstats, Option.any_some] at hfailure
  unfold loadDocuments at hdocuments
  simp only [Except.bind_eq_ok] at hdocuments
  obtain ⟨stats', hloadStats, mapped', hloadMapped, inference, -, hdone⟩ := hdocuments
  obtain rfl := Except.ok.inj hdone
  simp only at hstats hmapped
  subst hstats hmapped
  obtain ⟨statsPayload, houtStats, hvalidStats⟩ := retained_eq_some hloadStats
  obtain ⟨payload, houtMapped, hvalidMapped⟩ := retained_eq_some hloadMapped
  have hrecord := validateStatistics_eq_ok hvalidStats
  obtain ⟨hmarked, cells, hcells, hlength, hcounted⟩ := validateStructure_eq_ok hvalidMapped
  obtain ⟨htypes, hcounts⟩ := foldlM_countCell hcounted
  simp only [agrees, Bool.and_eq_true, decide_eq_true_eq] at hagrees
  have hhistogram (name : PyStr) :
      statistics.numCellsByType.get? name = tally (cells.filterMap cellType?) name := by
    rw [← InsertionDict.get?_eq_of_sameAs hagrees.2, hcounts]
  simp only [structuralMappingFailure, Bool.or_eq_false_iff, decide_eq_false_iff_not,
    not_not] at hfailure
  obtain ⟨⟨⟨hprocesses, hmemories⟩, hbits⟩, hunmapped⟩ := hfailure
  have hnum : statistics.numCells = cells.length := by rw [← hagrees.1, hlength]
  refine ⟨names, payload, cells, statsPayload, statistics, rfl, houtMapped, houtStats, hrecord,
    { marked := hmarked
      topCells := hcells
      types := ?_
      histogram := hhistogram
      total := by rw [hrecord.total, hnum]
      numCells := hnum
      processes := hprocesses
      memories := hmemories
      memoryBits := hbits }⟩
  intro entry hentry
  obtain ⟨name, hname⟩ := htypes entry hentry
  have hmem : name ∈ cells.filterMap cellType? := List.mem_filterMap.mpr ⟨entry, hentry, hname.type⟩
  have hkey : name ∈ statistics.numCellsByType.keys :=
    InsertionDict.mem_keys_iff.mpr ⟨_, by rw [hhistogram, tally, if_pos hmem]⟩
  obtain ⟨hinternal, hlibrary⟩ := mem_of_unmapped_eq_nil hunmapped hkey
  exact ⟨name, hname, hinternal, hlibrary⟩

end Passing

section Specimens

variable {F : Type}

def oneCellRecord (name : PyStr) : PyJson F :=
  .object [(lit "num_cells", .int 1), (lit "num_memories", .int 0), (lit "num_memory_bits", .int 0),
    (lit "num_processes", .int 0), (lit "num_cells_by_type", .object [(name, .int 1)])]

def oneCellStats (name : PyStr) : PyJson F :=
  .object [(lit "design", oneCellRecord name),
    (lit "modules", .object [(lit "top", oneCellRecord name)])]

def oneCell (name : PyStr) : PyStr × PyJson F := (lit "c", .object [(lit "type", .str name)])

def oneCellModule (name : PyStr) : PyJson F :=
  .object [(lit "attributes", .object [(lit "top", .int 1)]),
    (lit "cells", .object [oneCell name])]

def oneCellNetlist (name : PyStr) : PyJson F :=
  .object [(lit "modules", .object [(lit "top", oneCellModule name)])]

def oneCellOutputs (name : PyStr) : NativeOutputs F :=
  ⟨some 1, some (.ok (oneCellNetlist name)), some (.ok (oneCellStats name)),
    some (.ok (oneCellStats name))⟩

def cleanEvidence : RunEvidence :=
  ⟨true, true, true, true, true, true, true, true, true, some 0, []⟩

def oneCellStatistics (name : PyStr) : Statistics :=
  ⟨1, 0, 0, 0, InsertionDict.ofList [(name, 1)]⟩

variable {name : PyStr}

theorem isStatistics_oneCell (hne : name ≠ []) (hlength : name.length ≤ 256) :
    IsStatistics (oneCellRecord name : PyJson F) (oneCellStatistics name) where
  numCells := rfl
  numMemories := rfl
  numMemoryBits := rfl
  numProcesses := rfl
  histogram := by
    have hcount : cellCount? (name, (.int 1 : PyJson F)) = some (name, 1) := by
      rw [cellCount?, if_neg (not_or.mpr ⟨hne, not_lt.mpr hlength⟩)]
      rfl
    have hmember : (oneCellRecord name : PyJson F).member "num_cells_by_type" =
        .object [(name, .int 1)] := rfl
    rw [hmember, histogram?]
    simp only [mapping?, Option.bind_eq_bind, Option.bind_some, List.mapM_cons, List.mapM_nil,
      hcount]
    rfl
  total := rfl

variable [PyFloat F]

theorem validateStatistics_oneCell (hne : name ≠ []) (hlength : name.length ≤ 256) :
    validateStatistics (lit "top") (oneCellStats name : PyJson F) = .ok (oneCellStatistics name) := by
  have hrecord : validateStatisticsRecord (oneCellRecord name : PyJson F) =
      .ok (oneCellStatistics name) := by
    rw [validateStatisticsRecord, validateCounts_eq_ok.mpr (isStatistics_oneCell hne hlength)]
    rfl
  have hsame : (oneCellStatistics name).sameAs (oneCellStatistics name) = true := by
    simp [Statistics.sameAs, oneCellStatistics, InsertionDict.sameAs, InsertionDict.ofList,
      InsertionDict.set, InsertionDict.setEntries, InsertionDict.empty, InsertionDict.get?]
  have hmodules : (oneCellStats name : PyJson F).member "modules" =
      .object [(lit "top", oneCellRecord name)] := rfl
  have hdesign : (oneCellStats name : PyJson F).member "design" = oneCellRecord name := rfl
  have hobject : mapping? (oneCellStats name : PyJson F) = some
      [(lit "design", oneCellRecord name),
        (lit "modules", .object [(lit "top", oneCellRecord name)])] := rfl
  have hfound : [lit "top", topPrefixed (lit "top")].filterMap
      (fun key => [(lit "top", (oneCellRecord name : PyJson F))].lookup key) =
        [oneCellRecord name] := rfl
  unfold validateStatistics
  simp only [hobject, hdesign, hmodules, hrecord, expect, Except.ok_bind, mapping_object, hfound]
  simp [demand, Except.mapError, hsame, Except.ok_bind]

theorem validateStructure_oneCell (hne : name ≠ []) (hlength : name.length ≤ 256) :
    validateStructure (lit "top") (oneCellNetlist name : PyJson F) =
      .ok ⟨1, InsertionDict.ofList [(name, 1)]⟩ := by
  have hcell : countCell InsertionDict.empty (oneCell name : PyStr × PyJson F) =
      .ok (InsertionDict.ofList [(name, 1)]) := by
    have htype : (oneCell name : PyStr × PyJson F).2.member "type" = .str name := rfl
    unfold countCell
    simp only [htype, text?, expect, Except.ok_bind]
    simp [oneCell, demand, hne, hlength, Except.ok_bind, lit, InsertionDict.modify,
      InsertionDict.ofList]
    rfl
  have hmodules : (oneCellNetlist name : PyJson F).member "modules" =
      .object [(lit "top", oneCellModule name)] := rfl
  have htop : [(lit "top", (oneCellModule name : PyJson F))].lookup (lit "top") =
      some (oneCellModule name) := rfl
  have hattributes : (oneCellModule name : PyJson F).member "attributes" =
      .object [(lit "top", .int 1)] := rfl
  have hmark : (.object [(lit "top", .int 1)] : PyJson F).member "top" = .int 1 := rfl
  have hcells : (oneCellModule name : PyJson F).member "cells" = .object [oneCell name] := rfl
  have hmodule : mapping? (oneCellModule name : PyJson F) =
      some [(lit "attributes", .object [(lit "top", .int 1)]),
        (lit "cells", .object [oneCell name])] := rfl
  unfold validateStructure
  simp only [hmodules, htop, hattributes, hmark, hcells, hmodule, mapping_object, expect,
    Except.ok_bind, Option.getD_some, List.foldlM_cons, List.foldlM_nil, hcell]
  rfl

/-- The mapping of one cell is complete where the Liberty text was found to name its type. -/
theorem oneCell_complete {liberty : Option (ℕ × List UInt8)} {names : List PyStr}
    (hnames : libertyCells liberty = .ok names) (hmem : name ∈ names) (hne : name ≠ [])
    (hlength : name.length ≤ 256) (hinternal : name.head? ≠ some (point '$')) :
    ∃ report, synthesize cleanEvidence liberty (lit "top") (oneCellOutputs name : NativeOutputs F) =
      .ok report ∧ report.mappingComplete = true := by
  have hdocuments : loadDocuments (lit "top") (oneCellOutputs name : NativeOutputs F) =
      .ok ⟨some (oneCellStatistics name), some ⟨1, InsertionDict.ofList [(name, 1)]⟩,
        some (oneCellStatistics name)⟩ := by
    unfold loadDocuments oneCellOutputs
    simp only [Option.map_some, Except.ok_bind, validateStatistics_oneCell hne hlength,
      validateStructure_oneCell hne hlength, retained]
  have hagrees : agrees ⟨1, InsertionDict.ofList [(name, 1)]⟩ (oneCellStatistics name) = true := by
    simp [agrees, oneCellStatistics, InsertionDict.sameAs, InsertionDict.ofList,
      InsertionDict.set, InsertionDict.setEntries, InsertionDict.empty, InsertionDict.get?]
  have hunmapped : unmapped names (oneCellStatistics name) = [] := by
    have hkeys : (oneCellStatistics name).numCellsByType.keys = [name] := rfl
    rw [unmapped, hkeys, List.filter_singleton]
    simp [hmem, hinternal]
  have hfailure : structuralMappingFailure names (oneCellStatistics name) = false := by
    rw [structuralMappingFailure, hunmapped]
    rfl
  refine ⟨_, by rw [synthesize, hnames, hdocuments]; rfl, ?_⟩
  simp only [judge, mappedOutputsComplete, Option.any_some, hagrees, hfailure]
  rfl

end Specimens

theorem judge_status {F : Type} (evidence : RunEvidence) (names : List PyStr)
    (outputs : NativeOutputs F) (documents : Documents) :
    (judge evidence names outputs documents).status = .pass ↔
      (judge evidence names outputs documents).mappingComplete = true := by
  simp only [judge]
  split_ifs with hcomplete hfail
  · exact ⟨fun _ => hcomplete, fun _ => rfl⟩
  · exact ⟨fun h => (nomatch h), fun h => absurd h hcomplete⟩
  · exact ⟨fun h => (nomatch h), fun h => absurd h hcomplete⟩

theorem synthesize_status {F : Type} [PyFloat F] {evidence : RunEvidence}
    {liberty : Option (ℕ × List UInt8)} {requestedTop : PyStr} {outputs : NativeOutputs F}
    {report : SynthesisReport} (h : synthesize evidence liberty requestedTop outputs = .ok report) :
    report.status = .pass ↔ report.mappingComplete = true := by
  unfold synthesize at h
  cases hnames : libertyCells liberty with
  | error refusal =>
    rw [hnames] at h
    rw [← Except.ok.inj h]
    exact ⟨fun h => (nomatch h), fun h => (nomatch h)⟩
  | ok names =>
    rw [hnames] at h
    cases hdocuments : loadDocuments requestedTop outputs with
    | error e =>
      rw [hdocuments] at h
      cases h
    | ok documents =>
      rw [hdocuments] at h
      rw [← Except.ok.inj h]
      exact judge_status evidence names outputs documents

def libertyText (liberty : Option (ℕ × List UInt8)) : PyStr :=
  (liberty.bind fun file => JsonReader.decodeUtf8 file.2).getD []

/-- A run that passes, or reports that the mapping is complete, has a netlist whose cells the Liberty
text declares outside comments. -/
def PassSound (F : Type) [PyFloat F] (liberty : Option (ℕ × List UInt8)) : Prop :=
  ∀ (evidence : RunEvidence) (requestedTop : PyStr) (outputs : NativeOutputs F)
    (report : SynthesisReport), synthesize evidence liberty requestedTop outputs = .ok report →
    (report.status = .pass ∨ report.mappingComplete = true) →
    ∃ payload cells stats statistics, outputs.mappedJson = some (.ok payload) ∧
      outputs.mappedStats = some (.ok stats) ∧
      IsStatistics (stats.member "design") statistics ∧
      FullyMapped (declaredCells (libertyText liberty)) requestedTop payload cells statistics

/-- A pass is sound for a Liberty text exactly where each name that the search for headers finds,
and that can be the type of a cell, is declared outside comments. -/
theorem passSound_iff (F : Type) [PyFloat F] (liberty : Option (ℕ × List UInt8)) :
    PassSound F liberty ↔ ∀ names, libertyCells liberty = .ok names → ∀ name ∈ names,
      name ≠ [] → name.length ≤ 256 → name.head? ≠ some (point '$') →
        name ∈ declaredCells (libertyText liberty) := by
  constructor
  · intro h names hnames name hname hne hlength hinternal
    obtain ⟨report, hreport, hcomplete⟩ :=
      @oneCell_complete F name _ liberty names hnames hname hne hlength hinternal
    obtain ⟨payload, cells, stats, statistics, hpayload, -, -, hmapped⟩ :=
      h cleanEvidence (lit "top") (oneCellOutputs name) report hreport (.inr hcomplete)
    obtain rfl := Except.ok.inj (Option.some.inj hpayload)
    have hcells : [oneCell name] = cells := PyJson.object.inj hmapped.topCells
    obtain ⟨name', htype, -, hdeclared⟩ := hmapped.types (oneCell name)
      (by rw [← hcells]; exact List.mem_singleton_self _)
    have hsame : name = name' := Option.some.inj htype.type
    rw [hsame]
    exact hdeclared
  · intro h evidence requestedTop outputs report hreport hpass
    have hcomplete : report.mappingComplete = true := by
      rcases hpass with hpass | hcomplete
      · exact (synthesize_status hreport).mp hpass
      · exact hcomplete
    obtain ⟨names, payload, cells, stats, statistics, hnames, hpayload, hstats, hrecord, hmapped⟩ :=
      fullyMapped_of_complete hreport hcomplete
    refine ⟨payload, cells, stats, statistics, hpayload, hstats, hrecord,
      { hmapped with types := fun entry hentry => ?_ }⟩
    obtain ⟨name, htype, hinternal, hname⟩ := hmapped.types entry hentry
    exact ⟨name, htype, hinternal,
      h names hnames name hname htype.ne_nil htype.length_le hinternal⟩

def commentedLiberty : List UInt8 :=
  [0x2f, 0x2a, 0xa, 0x63, 0x65, 0x6c, 0x6c, 0x28, 0x4f, 0x4c, 0x44, 0x29, 0x7b, 0x7d, 0xa,
    0x2a, 0x2f, 0xa, 0x63, 0x65, 0x6c, 0x6c, 0x28, 0x4e, 0x45, 0x57, 0x29, 0x7b, 0x7d]

/-- A netlist of a cell that only a comment of the Liberty text declares passes. -/
theorem commentedCell_passes :
    (∃ report, synthesize cleanEvidence (some (commentedLiberty.length, commentedLiberty))
      (lit "top") (oneCellOutputs (lit "OLD") : NativeOutputs ℚ) = .ok report ∧
        report.status = .pass) ∧
    declaredCells (libertyText (some (commentedLiberty.length, commentedLiberty))) =
      [lit "NEW"] ∧
    ¬ PassSound ℚ (some (commentedLiberty.length, commentedLiberty)) := by
  have hdeclared : declaredCells (libertyText (some (commentedLiberty.length, commentedLiberty))) =
      [lit "NEW"] := by decide
  have hfound : (libertyCells (some (commentedLiberty.length, commentedLiberty))).toOption.any
      (fun names => decide (lit "OLD" ∈ names)) = true := by decide
  obtain ⟨names, hnames, hmem⟩ := Except.exists_ok_of_any hfound
  obtain ⟨report, hreport, hcomplete⟩ := @oneCell_complete ℚ (lit "OLD") _
    (some (commentedLiberty.length, commentedLiberty)) names hnames (of_decide_eq_true hmem)
    (by decide) (by decide) (by decide)
  refine ⟨⟨report, hreport, (synthesize_status hreport).mpr hcomplete⟩, hdeclared, fun h => ?_⟩
  obtain ⟨payload, cells, stats, statistics, hpayload, -, -, hmapped⟩ :=
    h cleanEvidence (lit "top") (oneCellOutputs (lit "OLD")) report hreport (.inr hcomplete)
  obtain rfl := Except.ok.inj (Option.some.inj hpayload)
  have hcells : [oneCell (lit "OLD")] = cells := PyJson.object.inj hmapped.topCells
  obtain ⟨name, htype, -, hname⟩ := hmapped.types (oneCell (lit "OLD"))
    (by rw [← hcells]; exact List.mem_singleton_self _)
  have hsame : lit "OLD" = name := Option.some.inj htype.type
  rw [← hsame, hdeclared] at hname
  revert hname
  decide

end OpenADA.Synth
