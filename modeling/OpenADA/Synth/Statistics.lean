import OpenADA.Native.Loads
import OpenADA.Synth.Liberty

/-! The JSON that a synthesis run leaves: its statistics and the structure of its mapped netlist. -/
namespace OpenADA.Synth

open PyStr PyJson Native

def maxSynthesisJsonBytes : ℕ := 32 * 1024 * 1024

def maxJsonParseBytes : ℕ := 5 * 1024 * 1024

def maxJsonCells : ℕ := 2000000

structure Statistics where
  numCells : ℕ
  numMemories : ℕ
  numMemoryBits : ℕ
  numProcesses : ℕ
  numCellsByType : InsertionDict PyStr ℕ

structure MappedStructure where
  numCells : ℕ
  numCellsByType : InsertionDict PyStr ℕ

section Records

variable {F : Type} [PyFloat F]

def natural? : PyJson F → Option ℕ
  | .int n => if n < 0 then none else some n.toNat
  | _ => none

def mapping? : PyJson F → Option (List (PyStr × PyJson F))
  | .object fields => some fields
  | _ => none

omit [PyFloat F] in
@[simp] theorem mapping_object (fields : List (PyStr × PyJson F)) :
    mapping? (.object fields) = some fields := rfl

def requiredCounts : List String :=
  ["num_cells", "num_memories", "num_memory_bits", "num_processes", "num_cells_by_type"]

def cellCount? (entry : PyStr × PyJson F) : Option (PyStr × ℕ) :=
  if entry.1 = [] ∨ 256 < entry.1.length then none
  else (natural? entry.2).map fun count => (entry.1, count)

def histogram? (value : PyJson F) : Option (InsertionDict PyStr ℕ) := do
  let entries ← mapping? value
  if maxCellTypes < entries.length then none
  else
    let counts ← entries.mapM cellCount?
    some (InsertionDict.ofList counts)

/-- `number < 0` of a number of JSON, after `math.isfinite`. -/
def finiteSign (number : PyJson F) : Except PyException (Option Bool) :=
  match number with
  | .int n =>
    match (PyFloat.ofInt n : Option F) with
    | none => .error .overflowError
    | some x => .ok (if PyFloat.isFinite x then some (decide (n < 0)) else none)
  | .float x =>
    .ok (if PyFloat.isFinite x then some (PyFloat.lt x (PyFloat.ofRat 0)) else none)
  | _ => .ok none

def checkArea (reason : String) (number : PyJson F) : Except Stop Unit :=
  match number with
  | .null => .ok ()
  | number => do
    let sign ← catching [] reason (finiteSign number)
    demand reason (sign = some false)

/-- The counts of `_validate_statistics_record`, before it turns to the areas. -/
def validateCounts (value : PyJson F) : Except Stop Statistics := do
  let fields ← expect "invalid-shape" (mapping? value)
  demand "invalid-shape" (requiredCounts.all fun key => lit key ∈ fields.map Prod.fst)
  let numCells ← expect "invalid-count" (natural? (value.member "num_cells"))
  let numMemories ← expect "invalid-count" (natural? (value.member "num_memories"))
  let numMemoryBits ← expect "invalid-count" (natural? (value.member "num_memory_bits"))
  let numProcesses ← expect "invalid-count" (natural? (value.member "num_processes"))
  let histogram ← expect "invalid-histogram" (histogram? (value.member "num_cells_by_type"))
  demand "inconsistent-cell-count" ((histogram.entries.map Prod.snd).sum = numCells)
  .ok ⟨numCells, numMemories, numMemoryBits, numProcesses, histogram⟩

/-- `_validate_statistics_record`. -/
def validateStatisticsRecord (value : PyJson F) : Except Stop Statistics := do
  let statistics ← validateCounts value
  checkArea "invalid-area" (value.member "area")
  checkArea "invalid-sequential-area" (value.member "sequential_area")
  .ok statistics

def Statistics.sameAs (a b : Statistics) : Bool :=
  a.numCells = b.numCells && a.numMemories = b.numMemories && a.numMemoryBits = b.numMemoryBits &&
    a.numProcesses = b.numProcesses && a.numCellsByType.sameAs b.numCellsByType

def topStop : Stop → Stop
  | .verdict reason => .verdict ("top-" ++ reason)
  | .raised e => .raised e

def topPrefixed (requestedTop : PyStr) : PyStr := point '\\' :: requestedTop

/-- The verdict on a document of `stat -json`. -/
def validateStatistics (requestedTop : PyStr) (payload : PyJson F) : Except Stop Statistics := do
  let _ ← expect "invalid-shape" (mapping? payload)
  let design ← validateStatisticsRecord (payload.member "design")
  let modules ← expect "invalid-modules" (mapping? (payload.member "modules"))
  demand "invalid-modules" (modules ≠ [] && modules.length ≤ 4096)
  let found := [requestedTop, topPrefixed requestedTop].filterMap fun key => modules.lookup key
  match found with
  | [record] => do
    let top ← (validateStatisticsRecord record).mapError fun stop =>
      match stop with
      | .verdict reason => .verdict ("top-" ++ reason)
      | .raised e => .raised e
    demand "top-design-mismatch" (top.sameAs design)
    .ok design
  | _ => refuse "top-mismatch"

/-- `_yosys_top_attribute`. -/
def yosysTopAttribute (value : PyJson F) : Bool :=
  match value with
  | .str text => text.getLast? = some (point '1') && text.dropLast.all fun c => c = point '0'
  | value => value.equalsInt 1

def countCell (counted : InsertionDict PyStr ℕ) (entry : PyStr × PyJson F) :
    Except Stop (InsertionDict PyStr ℕ) := do
  demand "invalid-top-cell" (entry.1 ≠ [] && entry.1.length ≤ 4096 && (mapping? entry.2).isSome)
  let cellType ← expect "invalid-top-cell-type" (entry.2.member "type").text?
  demand "invalid-top-cell-type" (cellType ≠ [] && cellType.length ≤ 256)
  let counted := counted.modify cellType 0 (· + 1)
  demand "excessive-top-cell-types" (counted.entries.length ≤ maxCellTypes)
  .ok counted

/-- The verdict on a document of `write_json`. -/
def validateStructure (requestedTop : PyStr) (payload : PyJson F) : Except Stop MappedStructure := do
  let modules ← expect "missing-modules" (mapping? (payload.member "modules"))
  demand "missing-modules" (modules ≠ [])
  let topModule := (modules.lookup requestedTop).getD .null
  let _ ← expect "missing-requested-top" (mapping? topModule)
  let attributes := topModule.member "attributes"
  demand "incoherent-top-identity" ((mapping? attributes).isSome &&
    yosysTopAttribute (attributes.member "top"))
  let cells ← expect "invalid-top-cells" (mapping? (topModule.member "cells"))
  demand "invalid-top-cells" (cells.length ≤ maxJsonCells)
  let counted ← cells.foldlM countCell InsertionDict.empty
  .ok ⟨cells.length, counted⟩

/-- The verdict on a document of `write_json` before mapping. -/
def validateNetlist (payload : PyJson F) : Except Stop Unit := do
  let _ ← expect "invalid-root" (mapping? payload)
  let modules ← expect "missing-modules" (mapping? (payload.member "modules"))
  demand "missing-modules" (modules ≠ [])

def readSized (interpreter : Interpreter F) (maximum : ℕ) (tooLarge : String)
    (content : List UInt8) : Except Stop (PyJson F) := do
  demand "empty" (content ≠ [])
  demand tooLarge (content.length ≤ maximum)
  catching [.unicodeError, .jsonDecodeError] "invalid" (loadsContent interpreter content)

def loadSized {α : Type} (interpreter : Interpreter F) (maximum : ℕ) (tooLarge : String)
    (validate : PyJson F → Except Stop α) (content : List UInt8) : Except Stop α :=
  readSized interpreter maximum tooLarge content >>= validate

/-- `_load_synthesis_stats`. -/
def loadSynthesisStats (interpreter : Interpreter F) (requestedTop : PyStr) (content : List UInt8) :
    Except Stop Statistics :=
  loadSized interpreter maxSynthesisJsonBytes "too-large" (validateStatistics requestedTop) content

/-- `_load_mapped_structure`. -/
def loadMappedStructure (interpreter : Interpreter F) (requestedTop : PyStr)
    (content : List UInt8) : Except Stop MappedStructure :=
  loadSized interpreter maxSynthesisJsonBytes "too-large-to-validate"
    (validateStructure requestedTop) content

/-- `_validate_json_netlist`. -/
def validateJsonNetlist (interpreter : Interpreter F) (content : List UInt8) : Except Stop Unit :=
  loadSized interpreter maxJsonParseBytes "too-large-to-validate" validateNetlist content

end Records

section Specification

variable {F : Type} {value : PyJson F} {statistics : Statistics}

structure IsStatistics (value : PyJson F) (statistics : Statistics) : Prop where
  numCells : natural? (value.member "num_cells") = some statistics.numCells
  numMemories : natural? (value.member "num_memories") = some statistics.numMemories
  numMemoryBits : natural? (value.member "num_memory_bits") = some statistics.numMemoryBits
  numProcesses : natural? (value.member "num_processes") = some statistics.numProcesses
  histogram : histogram? (value.member "num_cells_by_type") = some statistics.numCellsByType
  total : (statistics.numCellsByType.entries.map Prod.snd).sum = statistics.numCells

theorem mapping_of_member {key : String} (h : value.member key ≠ .null) :
    ∃ fields, value = .object fields ∧ lit key ∈ fields.map Prod.fst := by
  cases value with
  | object fields =>
    refine ⟨fields, rfl, ?_⟩
    by_contra hkey
    have hlookup : fields.lookup (lit key) = none := by
      rw [List.lookup_eq_none_iff]
      intro entry hentry
      rw [bne_iff_ne]
      intro heq
      exact hkey (List.mem_map.mpr ⟨entry, hentry, heq.symm⟩)
    exact h (by rw [PyJson.member, hlookup]; rfl)
  | null => exact absurd rfl h
  | bool b => exact absurd rfl h
  | int n => exact absurd rfl h
  | float x => exact absurd rfl h
  | str text => exact absurd rfl h
  | array items => exact absurd rfl h

theorem validateCounts_eq_ok :
    validateCounts value = .ok statistics ↔ IsStatistics value statistics := by
  unfold validateCounts
  simp only [Except.bind_eq_ok, expect_eq_ok, demand_eq_ok]
  constructor
  · rintro ⟨fields, -, -, -, cells, hcells, memories, hmemories, bits, hbits, processes, hprocesses,
      histogram, hhistogram, -, htotal, h⟩
    obtain rfl := Except.ok.inj h
    exact ⟨hcells, hmemories, hbits, hprocesses, hhistogram, of_decide_eq_true htotal⟩
  · intro h
    have hne {key : String} {n : ℕ} (hkey : natural? (value.member key) = some n) :
        value.member key ≠ .null := by
      intro hnull
      rw [hnull] at hkey
      cases hkey
    have hhistogram : value.member "num_cells_by_type" ≠ .null := by
      intro hnull
      have hfound := h.histogram
      rw [hnull] at hfound
      cases hfound
    obtain ⟨fields, rfl, hcells⟩ := mapping_of_member (hne h.numCells)
    have hkeys {key : String} (hmember : (PyJson.object fields).member key ≠ .null) :
        lit key ∈ fields.map Prod.fst := by
      obtain ⟨fields', heq, hkey⟩ := mapping_of_member hmember
      rw [PyJson.object.inj heq]
      exact hkey
    refine ⟨fields, rfl, (), ?_, _, h.numCells, _, h.numMemories, _, h.numMemoryBits, _,
      h.numProcesses, _, h.histogram, (), decide_eq_true h.total, rfl⟩
    rw [List.all_eq_true]
    intro key hkey
    simp only [requiredCounts, List.mem_cons, List.not_mem_nil, or_false] at hkey
    rw [decide_eq_true_eq]
    rcases hkey with rfl | rfl | rfl | rfl | rfl
    · exact hcells
    · exact hkeys (hne h.numMemories)
    · exact hkeys (hne h.numMemoryBits)
    · exact hkeys (hne h.numProcesses)
    · exact hkeys hhistogram

end Specification

end OpenADA.Synth
