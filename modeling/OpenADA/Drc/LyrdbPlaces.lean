import OpenADA.Drc.Lyrdb

/-! What the start and the end of an element can do to what was read of a report, and where its
elements stand when it is accepted. -/
namespace OpenADA.Drc.Lyrdb

open PyText TreeEvents Scalars

variable {F D : Type} {host : Host F D} {tags : List Tag} {element : Element}
  {summary next : Summary F D}

section Steps

structure Opened (tags : List Tag) (tag : Tag) : Prop where
  depth : tags.length ≤ maxXmlDepth
  root : tags.length = 1 → tag = .reportDatabase
  field : tag = .generator ∨ tag = .topCell → tags = [.reportDatabase, tag]
  categories : tag = .categories → categoryContainerAncestry tags = true
  cells : tag = .cells → tags = [.reportDatabase, .cells]
  items : tag = .items → tags = [.reportDatabase, .items]
  item : tag = .item → tags = itemPath

def openedSummary (tags : List Tag) (tag : Tag) (summary : Summary F D) : Summary F D :=
  { summary with
    sections :=
      if tags.length = 2 ∧ tags.head? = some .reportDatabase then summary.sections ++ [tag]
      else summary.sections
    inItem := if tag = .item then true else summary.inItem
    item := if tag = .item then .new else summary.item }

theorem openElement_eq_ok (h : openElement tags element summary = .ok next) :
    Opened tags element.kind ∧ (element.kind = .item → summary.inItem = false) ∧
      next = openedSummary tags element.kind summary := by
  unfold openElement at h
  dsimp only at h
  obtain ⟨-, h⟩ := Except.guard_eq_ok.mp h
  obtain ⟨hdepth, h⟩ := Except.guard_eq_ok.mp h
  obtain ⟨hroot, h⟩ := Except.guard_eq_ok.mp h
  obtain ⟨hfield, h⟩ := Except.guard_eq_ok.mp h
  obtain ⟨hcategories, h⟩ := Except.guard_eq_ok.mp h
  obtain ⟨hcells, h⟩ := Except.guard_eq_ok.mp h
  obtain ⟨hitems, h⟩ := Except.guard_eq_ok.mp h
  obtain ⟨hitem, h⟩ := Except.guard_eq_ok.mp h
  rw [not_and, not_or, not_not, Bool.not_eq_true] at hitem
  refine ⟨?_, fun hkind => (hitem hkind).1, ?_⟩
  · exact {
      depth := Nat.not_lt.mp hdepth
      root := fun hlength => not_not.mp fun hne => hroot ⟨hlength, hne⟩
      field := fun hkind => not_not.mp fun hne => hfield ⟨hkind, hne⟩
      categories := fun hkind => Bool.not_eq_false _ |>.mp fun hne => hcategories ⟨hkind, hne⟩
      cells := fun hkind => not_not.mp fun hne => hcells ⟨hkind, hne⟩
      items := fun hkind => not_not.mp fun hne => hitems ⟨hkind, hne⟩
      item := fun hkind => (hitem hkind).2 }
  · unfold openedSummary
    by_cases hkind : element.kind = .item
    · rw [if_pos hkind] at h
      rw [if_pos hkind, if_pos hkind]
      exact (Except.ok.inj h).symm
    · rw [if_neg hkind] at h
      rw [if_neg hkind, if_neg hkind]
      exact (Except.ok.inj h).symm

inductive FieldRead (tags : List Tag) (element : Element) (item : Item F) : Item F → Prop
  | category {part : List Char} {rest : CategoryPath} : element.kind = .category →
      isItemField tags = true → item.categoryFields = 0 →
      parseCategoryPath (element.shown.text.getD []) = some (part :: rest) →
      FieldRead tags element item
        { item with categoryFields := item.categoryFields + 1, category := part :: rest }
  | cell : element.kind = .cell → isItemField tags = true → item.cellFields = 0 →
      FieldRead tags element item
        { item with cellFields := item.cellFields + 1, cell := element.strippedText }
  | tags {parsed : List (List Char)} : element.kind = .tags → tags = itemPath ++ [Tag.tags] →
      item.tagsFields = 0 → parseItemTags (element.shown.text.getD []) = some parsed →
      FieldRead tags element item
        { item with
          tagsFields := item.tagsFields + 1
          tags := parsed
          waived := decide (waivedTag ∈ parsed) }
  | multiplicity {parsed : ℕ} : element.kind = .multiplicity →
      tags = itemPath ++ [Tag.multiplicity] → item.multiplicityFields = 0 →
      parsePositiveCount element.strippedText = some parsed →
      FieldRead tags element item
        { item with
          multiplicityFields := item.multiplicityFields + 1
          multiplicity := parsed }

theorem readItemCategory_eq_ok {item read : Item F} (hkind : element.kind = .category)
    (h : readItemCategory tags element item = .ok read) : FieldRead tags element item read := by
  obtain ⟨hplace, h⟩ := Except.guard_eq_ok.mp h
  obtain ⟨hcount, h⟩ := Except.guard_eq_ok.mp h
  cases hparse : parseCategoryPath (element.shown.text.getD []) with
  | none =>
    rw [hparse] at h
    cases h
  | some path =>
    rw [hparse] at h
    cases path with
    | nil => cases h
    | cons part rest =>
      obtain rfl := Except.ok.inj h
      exact .category hkind (Bool.not_eq_false _ |>.mp hplace) (by omega) hparse

theorem readItemCell_eq_ok {item read : Item F} (hkind : element.kind = .cell)
    (h : readItemCell tags element item = .ok read) : FieldRead tags element item read := by
  obtain ⟨hplace, h⟩ := Except.guard_eq_ok.mp h
  obtain ⟨hcount, h⟩ := Except.guard_eq_ok.mp h
  obtain ⟨-, h⟩ := Except.guard_eq_ok.mp h
  obtain rfl := Except.ok.inj h
  exact .cell hkind (Bool.not_eq_false _ |>.mp hplace) (by omega)

theorem readItemTags_eq_ok {item read : Item F} (hkind : element.kind = .tags)
    (h : readItemTags tags element item = .ok read) : FieldRead tags element item read := by
  obtain ⟨hplace, h⟩ := Except.guard_eq_ok.mp h
  obtain ⟨hcount, h⟩ := Except.guard_eq_ok.mp h
  cases hparse : parseItemTags (element.shown.text.getD []) with
  | none =>
    rw [hparse] at h
    cases h
  | some parsed =>
    rw [hparse] at h
    obtain rfl := Except.ok.inj h
    exact .tags hkind (not_not.mp hplace) (by omega) hparse

theorem readItemMultiplicity_eq_ok {item read : Item F} (hkind : element.kind = .multiplicity)
    (h : readItemMultiplicity tags element item = .ok read) :
    FieldRead tags element item read := by
  obtain ⟨hplace, h⟩ := Except.guard_eq_ok.mp h
  obtain ⟨hcount, h⟩ := Except.guard_eq_ok.mp h
  cases hparse : parsePositiveCount element.strippedText with
  | none =>
    rw [hparse] at h
    cases h
  | some parsed =>
    rw [hparse] at h
    obtain rfl := Except.ok.inj h
    exact .multiplicity hkind (not_not.mp hplace) (by omega) hparse

/-- Everything the end of an element can do to the summary, but for its header. -/
inductive Closes [DecidableEq D] (host : Host F D) (tags : List Tag) (element : Element)
    (summary : Summary F D) : Summary F D → Prop
  | field {item : Item F} : summary.inItem = true → FieldRead tags element summary.item item →
      Closes host tags element summary { summary with item }
  | value : summary.inItem = true → element.kind = .value → tags = valuePath →
      Closes host tags element summary
        { summary with
          item := (keepGeometry host element summary.item summary.kept).1
          kept := (keepGeometry host element summary.item summary.kept).2 }
  | category : summary.inItem = false → element.kind = .category →
      categoryDeclarationAncestry tags = true →
      Closes host tags element summary
        { summary with catalog := summary.catalog.declare (declaredCategory host tags element) }
  | cell : summary.inItem = false → element.kind = .cell → tags.length = 3 →
      (tags.drop 1).head? = some .cells → cellIdentity element ∉ summary.cells.identities →
      Closes host tags element summary { summary with cells := summary.cells.add element }
  | item {totals : Totals F} : element.kind = .item →
      countItem summary.catalog summary.cells summary.item summary.totals = .ok totals →
      Closes host tags element summary { summary with totals, inItem := false }
  | other : (element.kind ≠ .category ∧ element.kind ≠ .cell ∧ element.kind ≠ .item) →
      (element.kind = .tags ∨ element.kind = .multiplicity ∨ element.kind = .value →
        summary.inItem = false) →
      Closes host tags element summary summary

theorem declareCategory_eq_ok [DecidableEq D] {catalog read : Catalog D}
    (h : declareCategory host tags element catalog = .ok read) :
    categoryDeclarationAncestry tags = true ∧
      read = catalog.declare (declaredCategory host tags element) := by
  obtain ⟨hplace, h⟩ := Except.guard_eq_ok.mp h
  obtain ⟨-, h⟩ := Except.guard_eq_ok.mp h
  obtain ⟨-, h⟩ := Except.guard_eq_ok.mp h
  obtain ⟨-, h⟩ := Except.guard_eq_ok.mp h
  obtain ⟨-, h⟩ := Except.guard_eq_ok.mp h
  obtain ⟨-, h⟩ := Except.guard_eq_ok.mp h
  exact ⟨Bool.not_eq_false _ |>.mp hplace, (Except.ok.inj h).symm⟩

theorem declareCell_eq_ok {cells read : Cells} (h : declareCell tags element cells = .ok read) :
    tags.length = 3 ∧ (tags.drop 1).head? = some .cells ∧
      cellIdentity element ∉ cells.identities ∧ read = cells.add element := by
  obtain ⟨hplace, h⟩ := Except.guard_eq_ok.mp h
  obtain ⟨-, h⟩ := Except.guard_eq_ok.mp h
  obtain ⟨-, h⟩ := Except.guard_eq_ok.mp h
  obtain ⟨-, h⟩ := Except.guard_eq_ok.mp h
  obtain ⟨hnew, h⟩ := Except.guard_eq_ok.mp h
  obtain ⟨-, h⟩ := Except.guard_eq_ok.mp h
  have hplace := (not_not.mp hplace).2
  exact ⟨hplace.1, hplace.2, hnew, (Except.ok.inj h).symm⟩

theorem readElement_eq_ok [DecidableEq D] (h : readElement host tags element summary = .ok next) :
    Closes host tags element summary next := by
  unfold readElement at h
  cases hkind : element.kind with
  | category =>
    simp only [hkind] at h
    by_cases hitem : summary.inItem = true
    · rw [if_pos hitem] at h
      obtain ⟨item, hread, rfl⟩ := Except.map_eq_ok.mp h
      exact .field hitem (readItemCategory_eq_ok hkind hread)
    · rw [if_neg hitem] at h
      obtain ⟨catalog, hread, rfl⟩ := Except.map_eq_ok.mp h
      obtain ⟨hplace, rfl⟩ := declareCategory_eq_ok hread
      exact .category (Bool.eq_false_iff.mpr hitem) hkind hplace
  | cell =>
    simp only [hkind] at h
    by_cases hitem : summary.inItem = true
    · rw [if_pos hitem] at h
      obtain ⟨item, hread, rfl⟩ := Except.map_eq_ok.mp h
      exact .field hitem (readItemCell_eq_ok hkind hread)
    · rw [if_neg hitem] at h
      obtain ⟨cells, hread, rfl⟩ := Except.map_eq_ok.mp h
      obtain ⟨hlength, hsection, hnew, rfl⟩ := declareCell_eq_ok hread
      exact .cell (Bool.eq_false_iff.mpr hitem) hkind hlength hsection hnew
  | tags =>
    simp only [hkind] at h
    by_cases hitem : summary.inItem = true
    · rw [if_pos hitem] at h
      obtain ⟨item, hread, rfl⟩ := Except.map_eq_ok.mp h
      exact .field hitem (readItemTags_eq_ok hkind hread)
    · rw [if_neg hitem] at h
      obtain rfl := Except.ok.inj h
      exact .other (by simp [hkind]) fun _ => Bool.eq_false_iff.mpr hitem
  | multiplicity =>
    simp only [hkind] at h
    by_cases hitem : summary.inItem = true
    · rw [if_pos hitem] at h
      obtain ⟨item, hread, rfl⟩ := Except.map_eq_ok.mp h
      exact .field hitem (readItemMultiplicity_eq_ok hkind hread)
    · rw [if_neg hitem] at h
      obtain rfl := Except.ok.inj h
      exact .other (by simp [hkind]) fun _ => Bool.eq_false_iff.mpr hitem
  | value =>
    simp only [hkind] at h
    by_cases hitem : summary.inItem = true
    · rw [if_pos hitem] at h
      obtain ⟨hplace, h⟩ := Except.guard_eq_ok.mp h
      obtain rfl := Except.ok.inj h
      exact .value hitem hkind (not_not.mp hplace)
    · rw [if_neg hitem] at h
      obtain rfl := Except.ok.inj h
      exact .other (by simp [hkind]) fun _ => Bool.eq_false_iff.mpr hitem
  | item =>
    simp only [hkind] at h
    obtain ⟨totals, hread, rfl⟩ := Except.map_eq_ok.mp h
    exact .item hkind hread
  | _ =>
    simp only [hkind] at h
    obtain rfl := Except.ok.inj h
    exact .other (by simp [hkind]) (by simp [hkind])

theorem closeElement_eq_ok [DecidableEq D]
    (h : closeElement host tags element summary = .ok next) :
    ∃ header, Closes host tags element { summary with header } next := by
  obtain ⟨header, -, h⟩ := Except.bind_eq_ok.mp h
  exact ⟨header, readElement_eq_ok h⟩

end Steps

section Limits

def Geometry.pairs : Geometry F → ℕ
  | .box .. => 2
  | .polygon coordinates _ | .edgePair coordinates _ => coordinates.length
  | .unknown _ => 0

def Geometry.chars : Geometry F → ℕ
  | .unknown raw => raw.length
  | _ => 0

theorem length_bounded {text : List Char} {limit : ℕ}
    (h : " ... [truncated] ... ".toList.length ≤ limit) : (bounded text limit).length ≤ limit := by
  unfold bounded
  dsimp only
  split_ifs with hshort
  · exact hshort
  · rw [List.length_append, List.length_append, List.length_take, List.rtake, List.length_drop]
    omega

theorem length_of_mapM {α β : Type} {f : α → Option β} {items : List α} {out : List β}
    (h : items.mapM f = some out) : out.length = items.length := by
  induction items generalizing out with
  | nil =>
    obtain rfl := Option.some.inj h
    rfl
  | cons item rest ih =>
    rw [List.mapM_cons] at h
    obtain ⟨first, -, h⟩ := Option.bind_eq_some_iff.mp h
    obtain ⟨others, hothers, h⟩ := Option.bind_eq_some_iff.mp h
    obtain rfl := Option.some.inj h
    rw [List.length_cons, List.length_cons, ih hothers]

theorem pairs_parseGeometry {text : List Char} {maximum cost : ℕ} {geometry : Geometry F}
    (h : parseGeometry host text maximum = (some geometry, cost)) :
    geometry.pairs ≤ max 2 maximum ∧ geometry.chars ≤ maxGeometryTextChars := by
  have hunknown : ∀ text : List Char, (bounded text maxGeometryTextChars).length ≤
      maxGeometryTextChars := fun text => length_bounded (by decide)
  unfold parseGeometry at h
  dsimp only at h
  by_cases hempty : strip text = []
  · rw [if_pos hempty] at h
    cases h
  · rw [if_neg hempty] at h
    split at h
    · split at h
      · cases h
        exact ⟨le_max_left _ _, Nat.zero_le _⟩
      · cases h
        exact ⟨Nat.zero_le _, hunknown _⟩
    · split at h
      · cases h
        exact ⟨Nat.zero_le _, hunknown _⟩
      · next coordinates hcoordinates =>
        have hlength : coordinates.length ≤ maximum := by
          rw [length_of_mapM hcoordinates]
          exact List.length_take_le _ _
        split_ifs at h <;> cases h
        · exact ⟨hlength.trans (le_max_right _ _), Nat.zero_le _⟩
        · exact ⟨hlength.trans (le_max_right _ _), Nat.zero_le _⟩
        · exact ⟨Nat.zero_le _, hunknown _⟩

/-- A geometry is kept only while the limits of its item and of the report allow it. -/
theorem keepGeometry_cases (host : Host F D) (element : Element) (item : Item F) (kept : Kept) :
    ∃ geometries, (keepGeometry host element item kept).1 =
        { item with geometries, geometryValues := item.geometryValues + 1 } ∧
      (geometries = item.geometries ∧
          (keepGeometry host element item kept).2.geometries = kept.geometries ∨
        ∃ geometry : Geometry F, geometries = item.geometries ++ [geometry] ∧
          geometry.pairs ≤ maxCoordinatesPerGeometry ∧ geometry.chars ≤ maxGeometryTextChars ∧
          item.geometries.length < maxGeometriesPerViolation ∧
          kept.geometries < maxGeometriesTotal ∧
          (keepGeometry host element item kept).2.geometries = kept.geometries + 1) := by
  unfold keepGeometry
  dsimp only
  by_cases hroom : item.geometries.length < maxGeometriesPerViolation ∧
      kept.geometries < maxGeometriesTotal ∧ kept.coordinates < maxCoordinatesTotal
  · rw [if_pos hroom]
    cases hparse : parseGeometry host (element.shown.text.getD [])
        (min maxCoordinatesPerGeometry (maxCoordinatesTotal - kept.coordinates)) with
    | mk parsed cost =>
      cases parsed with
      | none => exact ⟨item.geometries, rfl, .inl ⟨rfl, rfl⟩⟩
      | some geometry =>
        obtain ⟨hpairs, hchars⟩ := pairs_parseGeometry hparse
        exact ⟨item.geometries ++ [geometry], rfl, .inr ⟨geometry, rfl,
          hpairs.trans (max_le (by decide) (min_le_left _ _)), hchars, hroom.1, hroom.2.1, rfl⟩⟩
  · rw [if_neg hroom]
    exact ⟨item.geometries, rfl, .inl ⟨rfl, rfl⟩⟩

def WithinLimits (geometries : List (Geometry F)) : Prop :=
  geometries.length ≤ maxGeometriesPerViolation ∧
    ∀ geometry ∈ geometries, geometry.pairs ≤ maxCoordinatesPerGeometry ∧
      geometry.chars ≤ maxGeometryTextChars

structure Violation.Retained (violation : Violation F) : Prop where
  category : violation.category.length ≤ maxCategoryPathChars
  description : violation.description.length ≤ maxDescriptionChars
  cell : violation.cell.length ≤ maxCellNameChars
  geometries : WithinLimits violation.geometries

def keptOf (violations : List (Violation F)) : ℕ :=
  (violations.map fun violation => violation.geometries.length).sum

structure Limits (summary : Summary F D) : Prop where
  fields : summary.item.categoryFields ≤ 1
  item : WithinLimits summary.item.geometries
  violations : summary.totals.violations.length ≤ maxViolationExamples
  each : ∀ violation ∈ summary.totals.violations, violation.Retained
  sum : keptOf summary.totals.violations +
    (if summary.inItem = true then summary.item.geometries.length else 0) ≤ summary.kept.geometries
  total : summary.kept.geometries ≤ maxGeometriesTotal
  cells : summary.cells.identities.Nodup
  descriptions : ∀ entry ∈ summary.catalog.entries, entry.description.length ≤ maxDescriptionChars

theorem limits_empty : Limits (Summary.empty : Summary F D) where
  fields := Nat.zero_le _
  item := ⟨Nat.zero_le _, fun _ h => absurd h List.not_mem_nil⟩
  violations := Nat.zero_le _
  each _ h := absurd h List.not_mem_nil
  sum := Nat.zero_le _
  total := Nat.zero_le _
  cells := List.nodup_nil
  descriptions _ h := absurd h List.not_mem_nil

theorem Limits.opened {tag : Tag} (h : Limits summary) (hitem : tag = .item → summary.inItem = false) :
    Limits (openedSummary tags tag summary) := by
  by_cases hkind : tag = .item
  · have hsum := h.sum
    rw [hitem hkind] at hsum
    exact {
      fields := by simp [openedSummary, hkind, Item.new]
      item := by simp [openedSummary, hkind, Item.new, WithinLimits]
      violations := h.violations
      each := h.each
      sum := by simpa [openedSummary, hkind, Item.new] using hsum
      total := h.total
      cells := h.cells
      descriptions := h.descriptions }
  · exact {
      fields := by simpa [openedSummary, hkind] using h.fields
      item := by simpa [openedSummary, hkind] using h.item
      violations := h.violations
      each := h.each
      sum := by simpa [openedSummary, hkind] using h.sum
      total := h.total
      cells := h.cells
      descriptions := h.descriptions }

theorem geometries_fieldRead {item read : Item F} (h : FieldRead tags element item read) :
    read.geometries = item.geometries ∧ read.categoryFields ≤ max 1 item.categoryFields := by
  cases h with
  | category _ _ hcount _ => exact ⟨rfl, by simp [hcount]⟩
  | _ => exact ⟨rfl, le_max_right _ _⟩

theorem totals_countItem {catalog : Catalog D} {cells : Cells} {item : Item F} {totals counted : Totals F}
    (h : countItem catalog cells item totals = .ok counted) :
    item.category ≠ [] ∧ item.cellFields = 1 ∧ item.tagsFields = 1 ∧ item.multiplicityFields = 1 ∧
      (catalog.find item.category).isSome = true ∧ item.category ∉ catalog.conflicts ∧
      item.cell ∈ cells.identities ∧ counted = totals.count item (violationOf catalog item) := by
  obtain ⟨hfields, h⟩ := Except.guard_eq_ok.mp h
  obtain ⟨hknown, h⟩ := Except.guard_eq_ok.mp h
  obtain ⟨hclear, h⟩ := Except.guard_eq_ok.mp h
  obtain ⟨hcell, h⟩ := Except.guard_eq_ok.mp h
  obtain ⟨-, h⟩ := Except.guard_eq_ok.mp h
  obtain ⟨-, h⟩ := Except.guard_eq_ok.mp h
  simp only [not_or, not_not, ne_eq] at hfields
  obtain ⟨hcategory, hcells, htags, hmultiplicity⟩ := hfields
  rw [Option.isNone_iff_eq_none, ← ne_eq, Option.ne_none_iff_isSome] at hknown
  exact ⟨hcategory, hcells, htags, hmultiplicity, hknown, hclear, not_not.mp hcell,
    (Except.ok.inj h).symm⟩

theorem descriptions_declare [DecidableEq D] {catalog : Catalog D}
    (h : ∀ entry ∈ catalog.entries, entry.description.length ≤ maxDescriptionChars) :
    ∀ entry ∈ (catalog.declare (declaredCategory host tags element)).entries,
      entry.description.length ≤ maxDescriptionChars := by
  unfold Catalog.declare
  cases catalog.find (declaredCategory host tags element).path with
  | some _ => exact h
  | none =>
    intro entry hentry
    rcases List.mem_append.mp hentry with hentry | hentry
    · exact h entry hentry
    · rw [List.mem_singleton.mp hentry]
      exact length_bounded (by decide)

theorem retained_violationOf {catalog : Catalog D} {item : Item F}
    (h : ∀ entry ∈ catalog.entries, entry.description.length ≤ maxDescriptionChars)
    (hitem : WithinLimits item.geometries) : (violationOf catalog item).Retained where
  category := length_bounded (by decide)
  description := by
    show (((catalog.find item.category).map Category.description).getD []).length ≤ _
    cases hfind : catalog.find item.category with
    | none => exact Nat.zero_le _
    | some entry => exact h entry (List.mem_of_find?_eq_some hfind)
  cell := length_bounded (by decide)
  geometries := hitem

theorem Limits.closed [DecidableEq D] (h : Limits summary)
    (hitem : element.kind = .item → summary.inItem = true)
    (hclose : Closes host tags element summary next) : Limits next := by
  cases hclose with
  | field _ hread =>
    obtain ⟨hgeometries, hfields⟩ := geometries_fieldRead hread
    exact {
      fields := hfields.trans (max_le le_rfl h.fields)
      item := hgeometries ▸ h.item
      violations := h.violations
      each := h.each
      sum := by
        show _ + (if _ then List.length _ else 0) ≤ _
        rw [hgeometries]
        exact h.sum
      total := h.total
      cells := h.cells
      descriptions := h.descriptions }
  | value hin _ _ =>
    obtain ⟨geometries, hread, hcases⟩ := keepGeometry_cases host element summary.item summary.kept
    have hsum := h.sum
    have htotal := h.total
    rw [if_pos hin] at hsum
    have hkept : (keepGeometry host element summary.item summary.kept).1.geometries = geometries := by
      rw [hread]
    have hfields : (keepGeometry host element summary.item summary.kept).1.categoryFields =
        summary.item.categoryFields := by
      rw [hread]
    rcases hcases with ⟨rfl, hcount⟩ | ⟨geometry, rfl, hpairs, hchars, hroom, hmore, hcount⟩
    · exact {
        fields := hfields.trans_le h.fields
        item := hkept.symm ▸ h.item
        violations := h.violations
        each := h.each
        sum := by
          show keptOf _ + (if summary.inItem = true then List.length _ else 0) ≤ _
          rw [if_pos hin, hkept, hcount]
          exact hsum
        total := hcount.trans_le htotal
        cells := h.cells
        descriptions := h.descriptions }
    · exact {
        fields := hfields.trans_le h.fields
        item := by
          show WithinLimits (keepGeometry host element summary.item summary.kept).1.geometries
          rw [hkept]
          refine ⟨by rw [List.length_append, List.length_singleton]; omega, fun other hother => ?_⟩
          rcases List.mem_append.mp hother with hother | hother
          · exact h.item.2 other hother
          · rw [List.mem_singleton.mp hother]
            exact ⟨hpairs, hchars⟩
        violations := h.violations
        each := h.each
        sum := by
          show keptOf _ + (if summary.inItem = true then List.length _ else 0) ≤ _
          rw [if_pos hin, hkept, hcount, List.length_append, List.length_singleton]
          exact Nat.succ_le_succ hsum
        total := hcount.trans_le hmore
        cells := h.cells
        descriptions := h.descriptions }
  | category _ _ _ =>
    exact ⟨h.fields, h.item, h.violations, h.each, h.sum, h.total, h.cells,
      descriptions_declare h.descriptions⟩
  | cell _ _ _ _ hnew =>
    exact ⟨h.fields, h.item, h.violations, h.each, h.sum, h.total,
      List.nodup_append.mpr ⟨h.cells, List.nodup_singleton _, fun identity hmem other hother =>
        fun heq => hnew (List.mem_singleton.mp hother ▸ heq ▸ hmem)⟩, h.descriptions⟩
  | item hkind hcount =>
    obtain ⟨-, -, -, -, -, -, -, rfl⟩ := totals_countItem hcount
    have hsum := h.sum
    rw [if_pos (hitem hkind)] at hsum
    by_cases hroom : summary.totals.violations.length < maxViolationExamples
    · have hviolations : (summary.totals.count summary.item
          (violationOf summary.catalog summary.item)).violations =
          summary.totals.violations ++ [violationOf summary.catalog summary.item] := if_pos hroom
      exact {
        fields := h.fields
        item := h.item
        violations := by
          show List.length (Totals.violations _) ≤ _
          rw [hviolations, List.length_append, List.length_singleton]
          exact hroom
        each := by
          show ∀ violation ∈ Totals.violations _, _
          rw [hviolations]
          intro violation hviolation
          rcases List.mem_append.mp hviolation with hviolation | hviolation
          · exact h.each violation hviolation
          · rw [List.mem_singleton.mp hviolation]
            exact retained_violationOf h.descriptions h.item
        sum := by
          show keptOf (Totals.violations _) + 0 ≤ _
          rw [hviolations, keptOf, List.map_append, List.sum_append]
          exact hsum
        total := h.total
        cells := h.cells
        descriptions := h.descriptions }
    · have hviolations : (summary.totals.count summary.item
          (violationOf summary.catalog summary.item)).violations = summary.totals.violations :=
        if_neg hroom
      exact {
        fields := h.fields
        item := h.item
        violations := by
          show List.length (Totals.violations _) ≤ _
          rw [hviolations]
          exact h.violations
        each := by
          show ∀ violation ∈ Totals.violations _, _
          rw [hviolations]
          exact h.each
        sum := by
          show keptOf (Totals.violations _) + 0 ≤ _
          rw [hviolations]
          exact (Nat.le_add_right _ _).trans hsum
        total := h.total
        cells := h.cells
        descriptions := h.descriptions }
  | other _ _ => exact h

end Limits

section Places

structure Placed (tags : List Tag) (tag : Tag) : Prop where
  opened : Opened tags tag
  category : tag = .category →
    tags = itemPath ++ [Tag.category] ∨ categoryDeclarationAncestry tags = true
  cell : tag = .cell → tags = itemPath ++ [Tag.cell] ∨ tags = cellPath
  field : itemPath <+: tags → tag = .tags ∨ tag = .multiplicity → tags = itemPath ++ [tag]
  value : itemPath <+: tags → tag = .value → tags = valuePath

/-- Whether an item is read goes by the path, which starts at the root of a report. -/
structure Consistent (path : List Tag) (summary : Summary F D) : Prop where
  inItem : summary.inItem = true ↔ itemPath <+: path
  root : ∀ tag ∈ path.head?, tag = .reportDatabase

theorem eq_of_isItemField {path : List Tag} {tag : Tag}
    (hroot : ∀ other ∈ (path ++ [tag]).head?, other = .reportDatabase)
    (h : isItemField (path ++ [tag]) = true) : path ++ [tag] = itemPath ++ [tag] := by
  obtain ⟨-, hlength, hmiddle⟩ := of_decide_eq_true h
  rw [List.length_append, List.length_singleton] at hlength
  obtain ⟨first, second, third, rfl⟩ := List.length_eq_three.mp (Nat.succ.inj hlength)
  obtain ⟨rfl, hthird⟩ := List.cons.inj hmiddle
  obtain ⟨rfl, -⟩ := List.cons.inj hthird
  rw [hroot first rfl]
  rfl

theorem prefix_concat {path : List Tag} {tag : Tag} (h : tag ≠ .item) :
    itemPath <+: path ++ [tag] ↔ itemPath <+: path := by
  rw [List.prefix_concat_iff]
  constructor
  · rintro (heq | h)
    · have hlast := congrArg List.getLast? heq
      rw [List.getLast?_concat] at hlast
      exact absurd (Option.some.inj hlast).symm h
    · exact h
  · exact .inr

theorem Consistent.opened {path : List Tag} {tag : Tag} (h : Consistent path summary)
    (hopened : Opened (path ++ [tag]) tag) :
    Consistent (path ++ [tag]) (openedSummary (path ++ [tag]) tag summary) where
  inItem := by
    by_cases hkind : tag = .item
    · rw [hopened.item hkind]
      simp [openedSummary, hkind]
    · rw [prefix_concat hkind]
      simpa [openedSummary, hkind] using h.inItem
  root := by
    cases path with
    | nil =>
      intro other hother
      rw [← Option.mem_some_iff.mp hother]
      exact hopened.root rfl
    | cons first rest => exact h.root

theorem not_prefix_of_eq {path : List Tag} {tag : Tag} (h : path ++ [tag] = itemPath) :
    ¬ itemPath <+: path := by
  intro hprefix
  have hlength := hprefix.length_le
  rw [← h, List.length_append] at hlength
  simp at hlength

theorem kind_of_fieldRead {item read : Item F} (h : FieldRead tags element item read) :
    element.kind = .category ∨ element.kind = .cell ∨ element.kind = .tags ∨
      element.kind = .multiplicity := by
  cases h with
  | category hkind _ _ _ => exact .inl hkind
  | cell hkind _ _ => exact .inr (.inl hkind)
  | tags hkind _ _ _ => exact .inr (.inr (.inl hkind))
  | multiplicity hkind _ _ _ => exact .inr (.inr (.inr hkind))

theorem eq_of_fieldRead {path : List Tag} {item read : Item F}
    (hroot : ∀ other ∈ (path ++ [element.kind]).head?, other = .reportDatabase)
    (h : FieldRead (path ++ [element.kind]) element item read) :
    path ++ [element.kind] = itemPath ++ [element.kind] := by
  cases h with
  | category _ hfield _ _ => exact eq_of_isItemField hroot hfield
  | cell _ hfield _ => exact eq_of_isItemField hroot hfield
  | tags hkind hplace _ _ => rw [hplace, hkind]
  | multiplicity hkind hplace _ _ => rw [hplace, hkind]

theorem Closes.placed [DecidableEq D] {path : List Tag}
    (h : Consistent (path ++ [element.kind]) summary)
    (hopened : Opened (path ++ [element.kind]) element.kind)
    (hclose : Closes host (path ++ [element.kind]) element summary next) :
    Placed (path ++ [element.kind]) element.kind := by
  have hin : itemPath <+: path ++ [element.kind] → summary.inItem = true := h.inItem.mpr
  cases hclose with
  | field _ hread =>
    have hplace := eq_of_fieldRead h.root hread
    have hkinds := kind_of_fieldRead hread
    refine ⟨hopened, fun hkind => .inl (by rw [hplace, hkind]),
      fun hkind => .inl (by rw [hplace, hkind]), fun _ _ => hplace, fun _ hkind => ?_⟩
    simp [hkind] at hkinds
  | value _ hkind hplace =>
    exact ⟨hopened, by simp [hkind], by simp [hkind], by simp [hkind], fun _ _ => hplace⟩
  | category _ hkind hplace =>
    exact ⟨hopened, fun _ => .inr hplace, by simp [hkind], by simp [hkind], by simp [hkind]⟩
  | cell _ hkind hlength hsection _ =>
    refine ⟨hopened, by simp [hkind], fun _ => .inr ?_, by simp [hkind], by simp [hkind]⟩
    rw [List.length_append, List.length_singleton] at hlength
    obtain ⟨first, second, rfl⟩ := List.length_eq_two.mp (Nat.succ.inj hlength)
    obtain rfl := Option.some.inj hsection
    rw [h.root first rfl, hkind]
    rfl
  | item hkind _ =>
    exact ⟨hopened, by simp [hkind], by simp [hkind], by simp [hkind], by simp [hkind]⟩
  | other hkinds hfalse =>
    refine ⟨hopened, fun hkind => absurd hkind hkinds.1, fun hkind => absurd hkind hkinds.2.1,
      fun hprefix hkind => ?_, fun hprefix hkind => ?_⟩
    · have hnot := hfalse (hkind.imp_right .inl)
      rw [hin hprefix] at hnot
      cases hnot
    · have hnot := hfalse (.inr (.inr hkind))
      rw [hin hprefix] at hnot
      cases hnot

theorem Consistent.closed [DecidableEq D] {path : List Tag}
    (h : Consistent (path ++ [element.kind]) summary)
    (hopened : Opened (path ++ [element.kind]) element.kind)
    (hclose : Closes host (path ++ [element.kind]) element summary next) :
    Consistent path next where
  inItem := by
    by_cases hitem : element.kind = .item
    · have hplace := hopened.item hitem
      cases hclose with
      | item _ _ =>
        constructor
        · intro hfalse
          cases hfalse
        · exact fun hprefix => absurd hprefix (not_prefix_of_eq hplace)
      | field _ hread =>
        have hkinds := kind_of_fieldRead hread
        simp [hitem] at hkinds
      | value _ hkind _ => simp [hitem] at hkind
      | category _ hkind _ => simp [hitem] at hkind
      | cell _ hkind _ _ _ => simp [hitem] at hkind
      | other hkinds _ => exact absurd hitem hkinds.2.2
    · have hsame : next.inItem = summary.inItem := by
        cases hclose with
        | item hkind _ => exact absurd hkind hitem
        | _ => rfl
      rw [hsame, h.inItem, prefix_concat hitem]
  root := by
    cases path with
    | nil =>
      intro tag htag
      cases htag
    | cons first rest => exact h.root

structure Readable (path : List Tag) (element : Element) : Prop where
  tags : path = itemPath ++ [Tag.tags] →
    (parseItemTags (element.shown.text.getD [])).isSome = true
  multiplicity : path = itemPath ++ [Tag.multiplicity] →
    (parsePositiveCount element.strippedText).isSome = true

theorem kind_of_path {path path' : List Tag} {tag tag' : Tag} (h : path ++ [tag] = path' ++ [tag']) :
    tag = tag' := List.singleton_inj.mp (List.append_inj' h rfl).2

theorem Closes.readable [DecidableEq D] {path : List Tag}
    (h : Consistent (path ++ [element.kind]) summary)
    (hclose : Closes host (path ++ [element.kind]) element summary next) :
    Readable (path ++ [element.kind]) element := by
  have hin : ∀ {tag}, path ++ [element.kind] = itemPath ++ [tag] → summary.inItem = true :=
    fun hplace => h.inItem.mpr (hplace ▸ List.prefix_append _ _)
  cases hclose with
  | field _ hread =>
    cases hread with
    | tags hkind _ _ hparse =>
      refine ⟨fun _ => by rw [hparse]; rfl, fun hplace => ?_⟩
      exact absurd (hkind.symm.trans (kind_of_path hplace)) (by decide)
    | multiplicity hkind _ _ hparse =>
      refine ⟨fun hplace => ?_, fun _ => by rw [hparse]; rfl⟩
      exact absurd (hkind.symm.trans (kind_of_path hplace)) (by decide)
    | category hkind _ _ _ =>
      exact ⟨fun hplace => absurd (hkind.symm.trans (kind_of_path hplace)) (by decide),
        fun hplace => absurd (hkind.symm.trans (kind_of_path hplace)) (by decide)⟩
    | cell hkind _ _ =>
      exact ⟨fun hplace => absurd (hkind.symm.trans (kind_of_path hplace)) (by decide),
        fun hplace => absurd (hkind.symm.trans (kind_of_path hplace)) (by decide)⟩
  | value _ hkind _ =>
    exact ⟨fun hplace => absurd (hkind.symm.trans (kind_of_path hplace)) (by decide),
      fun hplace => absurd (hkind.symm.trans (kind_of_path hplace)) (by decide)⟩
  | category hfalse _ _ =>
    exact ⟨fun hplace => absurd ((hin hplace).symm.trans hfalse) (by decide),
      fun hplace => absurd ((hin hplace).symm.trans hfalse) (by decide)⟩
  | cell hfalse _ _ _ _ =>
    exact ⟨fun hplace => absurd ((hin hplace).symm.trans hfalse) (by decide),
      fun hplace => absurd ((hin hplace).symm.trans hfalse) (by decide)⟩
  | item hkind _ =>
    exact ⟨fun hplace => absurd (hkind.symm.trans (kind_of_path hplace)) (by decide),
      fun hplace => absurd (hkind.symm.trans (kind_of_path hplace)) (by decide)⟩
  | other _ hfalse =>
    refine ⟨fun hplace => ?_, fun hplace => ?_⟩
    · have hnot := hfalse (.inl (kind_of_path hplace))
      exact absurd ((hin hplace).symm.trans hnot) (by decide)
    · have hnot := hfalse (.inr (.inl (kind_of_path hplace)))
      exact absurd ((hin hplace).symm.trans hnot) (by decide)

theorem lyrdb_rule [DecidableEq D] (host : Host F D) :
    Rule Element.kind (lyrdbReader host) (fun _ => True)
      (fun path summary => Consistent path summary ∧ Limits summary)
      (fun path element => Opened path element.kind)
      (fun path element => Placed path element.kind ∧ Readable path element) where
  below _ := trivial
  opens _ hs hopen := by
    obtain ⟨hopened, hitem, rfl⟩ := openElement_eq_ok hopen
    exact ⟨⟨hs.1.opened hopened, hs.2.opened hitem⟩, hopened⟩
  closes {path element summary next} _ hs hopened hclose := by
    obtain ⟨header, hclose⟩ := closeElement_eq_ok hclose
    have hconsistent : Consistent (path ++ [element.kind]) { summary with header } :=
      ⟨hs.1.inItem, hs.1.root⟩
    have hlimits : Limits { summary with header } :=
      ⟨hs.2.fields, hs.2.item, hs.2.violations, hs.2.each, hs.2.sum, hs.2.total, hs.2.cells,
        hs.2.descriptions⟩
    refine ⟨⟨hconsistent.closed hopened hclose, hlimits.closed (fun hkind => ?_) hclose⟩,
      hclose.placed hconsistent hopened, hclose.readable hconsistent⟩
    exact hconsistent.inItem.mpr (by rw [hopened.item hkind])

end Places

end OpenADA.Drc.Lyrdb
