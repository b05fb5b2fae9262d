import OpenADA.Drc.LyrdbPlaces

/-! What the elements of a report leave of its categories, its cells and its items: declarations
by their places, and one count for each item of the items section. -/
namespace OpenADA.Drc.Lyrdb

open PyText TreeEvents Scalars

variable {F D : Type} [DecidableEq D] {host : Host F D} {summary next : Summary F D}

/-- What is kept of a summary at a path: see `lyrdb_rule`. -/
def Sound (path : List Tag) (summary : Summary F D) : Prop :=
  Consistent path summary ∧ Limits summary

def OpenedElement (path : List Tag) (element : Element) : Prop := Opened path element.kind

def PlacedElement (path : List Tag) (element : Element) : Prop :=
  Placed path element.kind ∧ Readable path element

theorem sound_rule (host : Host F D) {E : List Tag → Prop}
    (hbelow : ∀ {path} {element : Element}, E path → E (path ++ [element.kind])) :
    Rule Element.kind (lyrdbReader host) E Sound OpenedElement PlacedElement :=
  (lyrdb_rule host).restrict hbelow fun _ => trivial

section Declarations

def declares (path : List Tag) (element : Element) : Prop :=
  element.kind = .category ∧ categoryDeclarationAncestry path = true

instance decidableDeclares (path : List Tag) (element : Element) :
    Decidable (declares path element) := inferInstanceAs (Decidable (_ ∧ _))

def updateCatalog (host : Host F D) (path : List Tag) (element : Element) (catalog : Catalog D) :
    Catalog D :=
  if declares path element then catalog.declare (declaredCategory host path element) else catalog

def updateCells (path : List Tag) (element : Element) (cells : Cells) : Cells :=
  if path = cellPath then cells.add element else cells

theorem follows_catalog (host : Host F D) : Follows Element.kind (lyrdbReader host) (fun _ => True)
    Sound OpenedElement Summary.catalog (updateCatalog host) where
  opens _ _ hopen := by
    obtain ⟨-, -, rfl⟩ := openElement_eq_ok hopen
    rfl
  closes {path element summary next} _ hs hopened hclose := by
    obtain ⟨header, hclose⟩ := closeElement_eq_ok hclose
    have hother : ∀ {catalog : Catalog D}, element.kind ≠ .category →
        updateCatalog host (path ++ [element.kind]) element catalog = catalog := fun hkind =>
      if_neg fun h => hkind h.1
    cases hclose with
    | field _ hread =>
      have hplace := eq_of_fieldRead hs.1.root hread
      refine (if_neg fun h => ?_).symm
      rw [declares, hplace, h.1] at h
      exact absurd h.2 (by decide)
    | value _ hkind _ => exact (hother (by simp [hkind])).symm
    | category _ hkind hplace => exact (if_pos ⟨hkind, hplace⟩).symm
    | cell _ hkind _ _ _ => exact (hother (by simp [hkind])).symm
    | item hkind _ => exact (hother (by simp [hkind])).symm
    | other hkinds _ => exact (hother hkinds.1).symm

theorem follows_cells (host : Host F D) : Follows Element.kind (lyrdbReader host) (fun _ => True)
    Sound OpenedElement Summary.cells updateCells where
  opens _ _ hopen := by
    obtain ⟨-, -, rfl⟩ := openElement_eq_ok hopen
    rfl
  closes {path element summary next} _ hs hopened hclose := by
    obtain ⟨header, hclose⟩ := closeElement_eq_ok hclose
    have hconsistent : Consistent (path ++ [element.kind]) { summary with header } :=
      ⟨hs.1.inItem, hs.1.root⟩
    have hplaced := hclose.placed hconsistent hopened
    have hother : ∀ {cells : Cells}, element.kind ≠ .cell →
        updateCells (path ++ [element.kind]) element cells = cells := by
      intro cells hkind
      refine if_neg fun h => hkind ?_
      have hplace : path ++ [element.kind] = [Tag.reportDatabase, Tag.cells] ++ [Tag.cell] := h
      exact kind_of_path hplace
    cases hclose with
    | field _ hread =>
      have hplace := eq_of_fieldRead hs.1.root hread
      refine (if_neg fun h => ?_).symm
      rw [hplace] at h
      have hlength := congrArg List.length h
      rw [List.length_append] at hlength
      exact absurd hlength (by decide : ¬ (4 = 3))
    | value _ hkind _ => exact (hother (by simp [hkind])).symm
    | category _ hkind _ => exact (hother (by simp [hkind])).symm
    | cell hfalse hkind _ _ _ =>
      rcases hplaced.cell hkind with hplace | hplace
      · have hin := hs.1.inItem.mpr (hplace ▸ List.prefix_append _ _)
        rw [show summary.inItem = false from hfalse] at hin
        cases hin
      · exact (if_pos hplace).symm
    | item hkind _ => exact (hother (by simp [hkind])).symm
    | other hkinds _ => exact (hother hkinds.2.1).symm

end Declarations

section Fields

def ofKind (tag : Tag) (tree : RoseTree Element) : Bool := decide (tree.label.kind = tag)

def fieldsOf (item : RoseTree Element) (tag : Tag) : List (RoseTree Element) :=
  item.content.filter (ofKind tag)

def itemCategoryOf (element : Element) : CategoryPath :=
  (parseCategoryPath (element.shown.text.getD [])).getD []

def itemTagsOf (element : Element) : List (List Char) :=
  (parseItemTags (element.shown.text.getD [])).getD []

def itemMultiplicityOf (element : Element) : ℕ :=
  (parsePositiveCount element.strippedText).getD 1

def fieldStep (element : Element) (item : Item F) : Item F :=
  match element.kind with
  | .category =>
    { item with
      categoryFields := item.categoryFields + 1
      category := itemCategoryOf element }
  | .cell => { item with cellFields := item.cellFields + 1, cell := element.strippedText }
  | .tags =>
    { item with
      tagsFields := item.tagsFields + 1
      tags := itemTagsOf element
      waived := decide (waivedTag ∈ itemTagsOf element) }
  | .multiplicity =>
    { item with
      multiplicityFields := item.multiplicityFields + 1
      multiplicity := itemMultiplicityOf element }
  | _ => item

def updateFields (path : List Tag) (element : Element) (item : Item F) : Item F :=
  if path = itemPath ++ [element.kind] then fieldStep element item else item

def Item.withoutGeometries (item : Item F) : Item F :=
  { item with geometries := [], geometryValues := 0 }

theorem fieldStep_of_fieldRead {tags : List Tag} {element : Element} {item read : Item F}
    (h : FieldRead tags element item read) :
    read.withoutGeometries = fieldStep element item.withoutGeometries := by
  cases h with
  | category hkind _ _ hparse => simp [fieldStep, hkind, itemCategoryOf, hparse, Item.withoutGeometries]
  | cell hkind _ _ => simp [fieldStep, hkind, Item.withoutGeometries]
  | tags hkind _ _ hparse => simp [fieldStep, hkind, itemTagsOf, hparse, Item.withoutGeometries]
  | multiplicity hkind _ _ hparse =>
    simp [fieldStep, hkind, itemMultiplicityOf, hparse, Item.withoutGeometries]

def InItem (path : List Tag) : Prop := itemPath <+: path

theorem inItem_below {path : List Tag} {element : Element} (h : InItem path) :
    InItem (path ++ [element.kind]) := h.trans (List.prefix_append _ _)

theorem kind_ne_item {path : List Tag} {element : Element} (h : InItem path)
    (hopened : OpenedElement (path ++ [element.kind]) element) : element.kind ≠ .item :=
  fun hkind => not_prefix_of_eq (hopened.item hkind) h

theorem follows_fields (host : Host F D) : Follows Element.kind (lyrdbReader host) InItem Sound
    OpenedElement (fun summary => summary.item.withoutGeometries) updateFields where
  opens {path element summary next} hpath hs hopen := by
    obtain ⟨hopened, -, rfl⟩ := openElement_eq_ok hopen
    show (if _ then _ else _ : Item F).withoutGeometries = _
    rw [if_neg (kind_ne_item hpath hopened)]
  closes {path element summary next} hpath hs hopened hclose := by
    obtain ⟨header, hclose⟩ := closeElement_eq_ok hclose
    have hin : summary.inItem = true := hs.1.inItem.mpr (inItem_below hpath)
    cases hclose with
    | field _ hread =>
      have hplace := eq_of_fieldRead hs.1.root hread
      exact (fieldStep_of_fieldRead hread).trans (if_pos hplace).symm
    | value _ hkind _ =>
      obtain ⟨geometries, hread, -⟩ := keepGeometry_cases host element summary.item summary.kept
      show (keepGeometry host element summary.item summary.kept).1.withoutGeometries = _
      rw [hread, updateFields]
      simp [fieldStep, hkind, Item.withoutGeometries]
    | category hfalse _ _ => exact absurd (hin.symm.trans hfalse) (by decide)
    | cell hfalse _ _ _ _ => exact absurd (hin.symm.trans hfalse) (by decide)
    | item hkind _ => exact absurd hkind (kind_ne_item hpath hopened)
    | other hkinds hfalse =>
      have hfields : ¬ (element.kind = .tags ∨ element.kind = .multiplicity ∨
          element.kind = .value) := fun h => absurd (hin.symm.trans (hfalse h)) (by decide)
      have hstep : fieldStep element summary.item.withoutGeometries =
          summary.item.withoutGeometries := by
        unfold fieldStep
        cases hkind : element.kind with
        | category => exact absurd hkind hkinds.1
        | cell => exact absurd hkind hkinds.2.1
        | tags => exact absurd (.inl hkind) hfields
        | multiplicity => exact absurd (.inr (.inl hkind)) hfields
        | _ => rfl
      rw [updateFields, hstep, ite_self]

theorem follows_rest (host : Host F D) : Follows Element.kind (lyrdbReader host) InItem Sound
    OpenedElement (fun summary => (summary.catalog, summary.cells, summary.totals))
    (fun _ _ rest => rest) where
  opens _ _ hopen := by
    obtain ⟨-, -, rfl⟩ := openElement_eq_ok hopen
    rfl
  closes {path element summary next} hpath hs hopened hclose := by
    obtain ⟨header, hclose⟩ := closeElement_eq_ok hclose
    have hin : summary.inItem = true := hs.1.inItem.mpr (inItem_below hpath)
    cases hclose with
    | category hfalse _ _ => exact absurd (hin.symm.trans hfalse) (by decide)
    | cell hfalse _ _ _ _ => exact absurd (hin.symm.trans hfalse) (by decide)
    | item hkind _ => exact absurd hkind (kind_ne_item hpath hopened)
    | _ => rfl

end Fields

section Counting

variable {V : Type}

def countField (tag : Tag) (value : Element → V) (field : ℕ × V) (child : RoseTree Element) : ℕ × V :=
  if child.label.kind = tag then (field.1 + 1, value child.label) else field

theorem foldl_countField (tag : Tag) (value : Element → V) (content : List (RoseTree Element))
    (field : ℕ × V) :
    content.foldl (countField tag value) field =
      (field.1 + (content.filter (ofKind tag)).length,
        (content.filter (ofKind tag)).foldl
          (fun _ child => value child.label) field.2) := by
  induction content generalizing field with
  | nil => rfl
  | cons child rest ih =>
    rw [List.foldl_cons, ih, countField]
    by_cases hkind : child.label.kind = tag
    · have hchild : ofKind tag child = true := decide_eq_true hkind
      rw [if_pos hkind, List.filter_cons_of_pos hchild, List.length_cons, List.foldl_cons]
      refine Prod.ext ?_ rfl
      show field.1 + 1 + _ = field.1 + (_ + 1)
      omega
    · have hchild : ¬ ofKind tag child = true := fun h => hkind (of_decide_eq_true h)
      rw [if_neg hkind, List.filter_cons_of_neg hchild]

theorem exists_field {tag : Tag} {value : Element → V} {item : RoseTree Element}
    {init field : ℕ × V} (h : item.content.foldl (countField tag value) init = field)
    (hnew : init.1 = 0) (hone : field.1 = 1) :
    ∃ child, fieldsOf item tag = [child] ∧ field.2 = value child.label := by
  rw [foldl_countField, hnew] at h
  rw [← h, Nat.zero_add] at hone
  obtain ⟨child, hchild⟩ := List.length_eq_one_iff.mp hone
  refine ⟨child, hchild, ?_⟩
  rw [← h, hchild]
  rfl

theorem foldl_fieldStep {tag : Tag} {value : Element → V} {part : Item F → ℕ × V}
    (h : ∀ element item, part (fieldStep element item) =
      if element.kind = tag then ((part item).1 + 1, value element) else part item)
    (content : List (RoseTree Element)) (item : Item F) :
    part (content.foldl (fun item child => fieldStep child.label item) item) =
      content.foldl (countField tag value) (part item) := by
  induction content generalizing item with
  | nil => rfl
  | cons child rest ih => rw [List.foldl_cons, ih, h, List.foldl_cons, countField]

theorem fieldStep_category (element : Element) (item : Item F) :
    ((fieldStep element item).categoryFields, (fieldStep element item).category) =
      if element.kind = .category then (item.categoryFields + 1, itemCategoryOf element)
      else (item.categoryFields, item.category) := by
  unfold fieldStep
  split <;> simp_all

theorem fieldStep_cell (element : Element) (item : Item F) :
    ((fieldStep element item).cellFields, (fieldStep element item).cell) =
      if element.kind = .cell then (item.cellFields + 1, element.strippedText)
      else (item.cellFields, item.cell) := by
  unfold fieldStep
  split <;> simp_all

theorem fieldStep_tags (element : Element) (item : Item F) :
    ((fieldStep element item).tagsFields, (fieldStep element item).tags,
        (fieldStep element item).waived) =
      if element.kind = .tags then
        (item.tagsFields + 1, itemTagsOf element, decide (waivedTag ∈ itemTagsOf element))
      else (item.tagsFields, item.tags, item.waived) := by
  unfold fieldStep
  split <;> simp_all

theorem fieldStep_multiplicity (element : Element) (item : Item F) :
    ((fieldStep element item).multiplicityFields, (fieldStep element item).multiplicity) =
      if element.kind = .multiplicity then
        (item.multiplicityFields + 1, itemMultiplicityOf element)
      else (item.multiplicityFields, item.multiplicity) := by
  unfold fieldStep
  split <;> simp_all

end Counting

section Items

structure Counted (item : RoseTree Element) (record : Item F) : Prop where
  category : ∃ field, fieldsOf item .category = [field] ∧
    parseCategoryPath (field.label.shown.text.getD []) = some record.category
  named : record.category ≠ []
  cell : ∃ field, fieldsOf item .cell = [field] ∧ record.cell = field.label.strippedText
  tags : ∃ field, fieldsOf item .tags = [field] ∧
    parseItemTags (field.label.shown.text.getD []) = some record.tags
  waived : record.waived = decide (waivedTag ∈ record.tags)
  multiplicity : ∃ field, fieldsOf item .multiplicity = [field] ∧
    parsePositiveCount field.label.strippedText = some record.multiplicity

/-- The category and the cell of an item are declared, the category with one description. -/
structure Known (catalog : Catalog D) (cells : Cells) (record : Item F) : Prop where
  category : (catalog.find record.category).isSome = true
  clear : record.category ∉ catalog.conflicts
  cell : record.cell ∈ cells.identities

omit [DecidableEq D] in
theorem content_of_fields {item : RoseTree Element} {tag : Tag} {field : RoseTree Element}
    (h : fieldsOf item tag = [field]) : field ∈ item.content ∧ field.label.kind = tag := by
  have hmem : field ∈ fieldsOf item tag := h ▸ List.mem_cons_self
  exact ⟨(List.mem_filter.mp hmem).1, of_decide_eq_true (List.mem_filter.mp hmem).2⟩

omit [DecidableEq D] in
theorem foldl_updateFields (content : List (RoseTree Element)) (item : Item F) :
    (placesOf Element.kind itemPath content).foldl
        (fun item place => updateFields place.1 place.2 item) item =
      content.foldl (fun item child => fieldStep child.label item) item := by
  have hdeep : ∀ path element (item : Item F), itemPath.length + 1 < path.length →
      updateFields path element item = item := by
    intro path element item hlength
    refine if_neg fun hpath => ?_
    rw [hpath, List.length_append] at hlength
    exact Nat.lt_irrefl _ hlength
  rw [foldl_placesOf content hdeep]
  exact List.foldl_ext _ _ _ fun item child _ => if_pos rfl

/-- An item of which each field was counted once says what its fields say. -/
theorem counted_of_foldl {item : RoseTree Element} {record : Item F}
    (hfold : record.withoutGeometries =
      item.content.foldl (fun item child => fieldStep child.label item) .new)
    (hreadable : ∀ child ∈ item.content, Readable (itemPath ++ [child.label.kind]) child.label)
    (hcategory : record.category ≠ []) (hfields : record.categoryFields ≤ 1)
    (hcell : record.cellFields = 1) (htags : record.tagsFields = 1)
    (hmultiplicity : record.multiplicityFields = 1) : Counted item record := by
  have hpart : ∀ {V : Type} {tag : Tag} {value : Element → V} (part : Item F → ℕ × V),
      (∀ element item, part (fieldStep element item) =
        if element.kind = tag then ((part item).1 + 1, value element) else part item) →
      item.content.foldl (countField tag value) (part .new) = part record.withoutGeometries :=
    fun part hstep => by rw [hfold, foldl_fieldStep hstep]
  have hnamed := hpart (fun item => (item.categoryFields, item.category)) fieldStep_category
  have hone : record.categoryFields = 1 := by
    rw [foldl_countField] at hnamed
    obtain ⟨hcount, hvalue⟩ := Prod.mk.inj hnamed
    by_contra hne
    have hzero : (item.content.filter (ofKind .category)).length = 0 := by
      have hcount : 0 + (item.content.filter (ofKind .category)).length =
        record.categoryFields := hcount
      omega
    rw [List.eq_nil_of_length_eq_zero hzero] at hvalue
    exact hcategory hvalue.symm
  obtain ⟨category, hcategories, hpath⟩ := exists_field hnamed rfl hone
  obtain ⟨cell, hcells, hname⟩ := exists_field
    (hpart (fun item => (item.cellFields, item.cell)) fieldStep_cell) rfl hcell
  obtain ⟨tags, htagFields, hlist⟩ := exists_field
    (hpart (fun item => (item.tagsFields, item.tags, item.waived)) fieldStep_tags) rfl htags
  obtain ⟨multiplicity, hmultiplicities, hnumber⟩ := exists_field
    (hpart (fun item => (item.multiplicityFields, item.multiplicity)) fieldStep_multiplicity)
    rfl hmultiplicity
  obtain ⟨htagsEq, hwaivedEq⟩ := Prod.mk.inj hlist
  have hreadTags : parseItemTags (tags.label.shown.text.getD []) = some record.tags := by
    obtain ⟨hmem, hkind⟩ := content_of_fields htagFields
    have hsome := (hreadable tags hmem).tags (by rw [hkind])
    have hvalue : record.tags = (parseItemTags (tags.label.shown.text.getD [])).getD [] := htagsEq
    obtain ⟨parsed, hparse⟩ := Option.isSome_iff_exists.mp hsome
    rw [hvalue, hparse]
    rfl
  have hreadNumber : parsePositiveCount multiplicity.label.strippedText =
      some record.multiplicity := by
    obtain ⟨hmem, hkind⟩ := content_of_fields hmultiplicities
    have hsome := (hreadable multiplicity hmem).multiplicity (by rw [hkind])
    have hvalue : record.multiplicity =
      (parsePositiveCount multiplicity.label.strippedText).getD 1 := hnumber
    obtain ⟨parsed, hparse⟩ := Option.isSome_iff_exists.mp hsome
    rw [hvalue, hparse]
    rfl
  have hreadPath : parseCategoryPath (category.label.shown.text.getD []) =
      some record.category := by
    have hvalue : record.category = (parseCategoryPath (category.label.shown.text.getD [])).getD [] :=
      hpath
    cases hparse : parseCategoryPath (category.label.shown.text.getD []) with
    | none =>
      rw [hparse] at hvalue
      exact absurd hvalue hcategory
    | some path =>
      rw [hparse] at hvalue
      rw [hvalue]
      rfl
  have hwaived : record.waived = decide (waivedTag ∈ record.tags) := by
    have htags : record.tags = itemTagsOf tags.label := htagsEq
    rw [htags]
    exact hwaivedEq
  exact ⟨⟨category, hcategories, hreadPath⟩, hcategory, ⟨cell, hcells, hname⟩,
    ⟨tags, htagFields, hreadTags⟩, hwaived, ⟨multiplicity, hmultiplicities, hreadNumber⟩⟩

theorem walk_item {item : RoseTree Element} (hkind : item.label.kind = .item)
    (hs : Sound [.reportDatabase, .items] summary)
    (h : (lyrdbReader host).walk Element.kind [.reportDatabase, .items] summary item = .ok next) :
    ∃ record : Item F, Counted item record ∧ Known summary.catalog summary.cells record ∧
      next.totals = summary.totals.count record (violationOf summary.catalog record) ∧
      next.catalog = summary.catalog ∧ next.cells = summary.cells := by
  obtain ⟨label, content⟩ := item
  have hkind : label.kind = .item := hkind
  obtain ⟨s₁, s₂, hopen, hcontent, hclose⟩ := walk_eq_ok h
  have hrule := sound_rule host (E := InItem) inItem_below
  obtain ⟨hs₁, hopened⟩ := (lyrdb_rule host).opens trivial hs hopen
  have hpath : [Tag.reportDatabase, Tag.items] ++ [label.kind] = itemPath := by
    rw [hkind]
    rfl
  have hfirst : s₁.item = .new ∧
      (s₁.catalog, s₁.cells, s₁.totals) = (summary.catalog, summary.cells, summary.totals) := by
    obtain ⟨-, -, rfl⟩ := openElement_eq_ok hopen
    exact ⟨if_pos hkind, rfl⟩
  rw [hpath] at hs₁ hcontent hclose
  obtain ⟨hs₂, hplaces⟩ := hrule.walkOf List.prefix_rfl hs₁ hcontent
  have hrest := (follows_rest host).walkOf hrule List.prefix_rfl hs₁ hcontent
  rw [foldl_eq_of_forall fun _ _ _ => rfl, hfirst.2] at hrest
  obtain ⟨hcatalog, hrest⟩ := Prod.mk.inj hrest
  obtain ⟨hcells, htotals⟩ := Prod.mk.inj hrest
  have hfields := (follows_fields host).walkOf hrule List.prefix_rfl hs₁ hcontent
  rw [foldl_updateFields, hfirst.1] at hfields
  have hclose : closeElement host itemPath label s₂ = .ok next := hclose
  obtain ⟨header, hclose⟩ := closeElement_eq_ok hclose
  have hcount : ∃ totals, countItem s₂.catalog s₂.cells s₂.item s₂.totals = .ok totals ∧
      next.totals = totals ∧ next.catalog = s₂.catalog ∧ next.cells = s₂.cells := by
    cases hclose with
    | item _ hcount => exact ⟨_, hcount, rfl, rfl, rfl⟩
    | field _ hread =>
      have hkinds := kind_of_fieldRead hread
      simp [hkind] at hkinds
    | value _ hother _ => exact absurd (hkind.symm.trans hother) (by decide)
    | category _ hother _ => exact absurd (hkind.symm.trans hother) (by decide)
    | cell _ hother _ _ _ => exact absurd (hkind.symm.trans hother) (by decide)
    | other hkinds _ => exact absurd hkind hkinds.2.2
  obtain ⟨totals, hcount, hnext, hnextCatalog, hnextCells⟩ := hcount
  obtain ⟨hcategory, hcell, htags, hmultiplicity, hknown, hclear, hcellKnown, rfl⟩ :=
    totals_countItem hcount
  refine ⟨s₂.item, counted_of_foldl hfields (fun child hchild => ?_) hcategory
    hs₂.2.fields hcell htags hmultiplicity,
    ⟨hcatalog ▸ hknown, hcatalog ▸ hclear, hcells ▸ hcellKnown⟩, ?_, ?_, ?_⟩
  · exact (hplaces _ (mem_placesOf.mpr ⟨child, hchild, root_mem_places child⟩)).2.2
  · rw [hnext, hcatalog, htotals]
  · rw [hnextCatalog, hcatalog]
  · rw [hnextCells, hcells]

end Items

end OpenADA.Drc.Lyrdb
