import OpenADA.Drc.LyrdbItems

/-! The accounting of an accepted report: its totals are those of its items, each of which names a
category and a cell that the report declares. -/
namespace OpenADA.Drc.Lyrdb

open PyText TreeEvents Scalars

variable {F D : Type} [DecidableEq D] {host : Host F D} {summary next : Summary F D}

section Aside

def itemsSection : List Tag := [.reportDatabase, .items]

def Aside (path : List Tag) : Prop := ¬ itemPath <+: path ∧ ¬ path <+: itemsSection

theorem aside_below {path : List Tag} {element : Element} (h : Aside path) :
    Aside (path ++ [element.kind]) := by
  refine ⟨fun hprefix => ?_, fun hprefix => h.2 ((List.prefix_append _ _).trans hprefix)⟩
  rcases List.prefix_concat_iff.mp hprefix with heq | hprefix
  · have hsplit : path ++ [element.kind] = itemsSection ++ [Tag.item] := heq.symm
    obtain ⟨hpath, -⟩ := List.append_inj' hsplit rfl
    exact h.2 (hpath ▸ List.prefix_rfl)
  · exact h.1 hprefix

theorem kind_ne_item_of_aside {path : List Tag} {element : Element}
    (h : Aside (path ++ [element.kind])) (hopened : OpenedElement (path ++ [element.kind]) element) :
    element.kind ≠ .item := fun hkind => h.1 (hopened.item hkind ▸ List.prefix_rfl)

theorem totals_of_closes {tags : List Tag} {element : Element}
    (hkind : element.kind ≠ .item) (h : Closes host tags element summary next) :
    next.totals = summary.totals := by
  cases h with
  | item hitem _ => exact absurd hitem hkind
  | _ => rfl

theorem follows_totals (host : Host F D) : Follows Element.kind (lyrdbReader host) Aside Sound
    OpenedElement Summary.totals (fun _ _ totals => totals) where
  opens _ _ hopen := by
    obtain ⟨-, -, rfl⟩ := openElement_eq_ok hopen
    rfl
  closes hpath _ hopened hclose := by
    obtain ⟨header, hclose⟩ := closeElement_eq_ok hclose
    have hsame := totals_of_closes (kind_ne_item_of_aside (aside_below hpath) hopened) hclose
    exact hsame

theorem totals_of_aside {path : List Tag} {tree : RoseTree Element}
    (hpath : Aside (path ++ [tree.label.kind])) (hs : Sound path summary)
    (h : (lyrdbReader host).walk Element.kind path summary tree = .ok next) :
    next.totals = summary.totals := by
  obtain ⟨label, content⟩ := tree
  obtain ⟨s₁, s₂, hopen, hcontent, hclose⟩ := walk_eq_ok h
  have hrule := sound_rule host (E := Aside) aside_below
  obtain ⟨hs₁, hopened⟩ := (lyrdb_rule host).opens trivial hs hopen
  have hrest := (follows_totals host).walkOf hrule hpath hs₁ hcontent
  rw [foldl_eq_of_forall fun _ _ _ => rfl] at hrest
  obtain ⟨header, hclose⟩ := closeElement_eq_ok hclose
  obtain ⟨-, -, rfl⟩ := openElement_eq_ok hopen
  exact (totals_of_closes (kind_ne_item_of_aside hpath hopened) hclose).trans hrest

theorem rule_of_all (host : Host F D) :
    Rule Element.kind (lyrdbReader host) (fun _ => True) Sound OpenedElement PlacedElement :=
  sound_rule host fun _ => trivial

theorem take_two_of_mem_places {path : List Tag} {tree : RoseTree Element}
    {place : List Tag × Element} (hpath : path ≠ []) (h : place ∈ tree.places Element.kind path) :
    place.1.take 2 = (path ++ [tree.label.kind]).take 2 := by
  obtain ⟨rest, hplace⟩ := prefix_of_mem_places tree h
  have hlength : 2 ≤ (path ++ [tree.label.kind]).length := by
    rw [List.length_append, List.length_singleton]
    have hpos := List.length_pos_iff.mpr hpath
    omega
  rw [← hplace, List.take_append_of_le_length hlength]

theorem catalog_of_outside {path : List Tag} {tree : RoseTree Element} (hpath : path ≠ [])
    (houtside : (path ++ [tree.label.kind]).take 2 ≠ [Tag.reportDatabase, Tag.categories])
    (hs : Sound path summary)
    (h : (lyrdbReader host).walk Element.kind path summary tree = .ok next) :
    next.catalog = summary.catalog := by
  rw [(follows_catalog host).walk (rule_of_all host) tree trivial hs h]
  refine foldl_eq_of_forall fun place hplace catalog => if_neg fun hdeclares => houtside ?_
  rw [← take_two_of_mem_places hpath hplace]
  have hancestry := hdeclares.2
  rw [categoryDeclarationAncestry, Bool.and_eq_true] at hancestry
  exact (of_decide_eq_true hancestry.1).2

theorem cells_of_outside {path : List Tag} {tree : RoseTree Element} (hpath : path ≠ [])
    (houtside : (path ++ [tree.label.kind]).take 2 ≠ [Tag.reportDatabase, Tag.cells])
    (hs : Sound path summary)
    (h : (lyrdbReader host).walk Element.kind path summary tree = .ok next) :
    next.cells = summary.cells := by
  rw [(follows_cells host).walk (rule_of_all host) tree trivial hs h]
  refine foldl_eq_of_forall fun place hplace cells => if_neg fun hcell => houtside ?_
  rw [← take_two_of_mem_places hpath hplace, hcell]
  rfl

end Aside

section Sections

def countAll (catalog : Catalog D) (totals : Totals F) (records : List (Item F)) : Totals F :=
  records.foldl (fun totals record => totals.count record (violationOf catalog record)) totals

theorem walkOf_items {content : List (RoseTree Element)} (hs : Sound itemsSection summary)
    (h : (lyrdbReader host).walkOf Element.kind itemsSection summary content = .ok next) :
    ∃ records : List (Item F), List.Forall₂ Counted (content.filter (ofKind .item)) records ∧
      (∀ record ∈ records, Known summary.catalog summary.cells record) ∧
      next.totals = countAll summary.catalog summary.totals records ∧
      next.catalog = summary.catalog ∧ next.cells = summary.cells := by
  induction content generalizing summary with
  | nil =>
    obtain rfl := Except.ok.inj h
    exact ⟨[], .nil, fun _ hmem => absurd hmem List.not_mem_nil, rfl, rfl, rfl⟩
  | cons tree rest ih =>
    obtain ⟨s₁, htree, hrest⟩ := walkOf_cons_eq_ok h
    have hs₁ := ((rule_of_all host).walk tree trivial hs htree).1
    obtain ⟨records, hcounted, hknown, htotals, hcatalog, hcells⟩ := ih hs₁ hrest
    by_cases hkind : tree.label.kind = .item
    · obtain ⟨record, hrecord, hnew, hcount, hcatalog₁, hcells₁⟩ := walk_item hkind hs htree
      rw [hcatalog₁, hcells₁] at hknown
      rw [hcatalog₁, hcount] at htotals
      refine ⟨record :: records, ?_, List.forall_mem_cons.mpr ⟨hnew, hknown⟩, htotals,
        hcatalog.trans hcatalog₁, hcells.trans hcells₁⟩
      rw [List.filter_cons_of_pos (p := ofKind .item) (decide_eq_true hkind)]
      exact .cons hrecord hcounted
    · have haside : Aside (itemsSection ++ [tree.label.kind]) := by
        refine ⟨fun hprefix => ?_, fun hprefix => ?_⟩
        · have heq : itemsSection ++ [Tag.item] = itemsSection ++ [tree.label.kind] :=
            hprefix.eq_of_length rfl
          exact hkind (kind_of_path heq).symm
        · have hlength := hprefix.length_le
          rw [List.length_append] at hlength
          exact absurd hlength (by decide : ¬ (3 ≤ 2))
      have htake : ∀ tag : Tag, (itemsSection ++ [tag]).take 2 = itemsSection := fun _ => rfl
      have hcatalog₁ := catalog_of_outside (by decide) (by rw [htake]; decide) hs htree
      have hcells₁ := cells_of_outside (by decide) (by rw [htake]; decide) hs htree
      rw [hcatalog₁, hcells₁] at hknown
      rw [hcatalog₁, totals_of_aside haside hs htree] at htotals
      refine ⟨records, ?_, hknown, htotals, hcatalog.trans hcatalog₁, hcells.trans hcells₁⟩
      rw [List.filter_cons_of_neg (p := ofKind .item) fun h => hkind (of_decide_eq_true h)]
      exact hcounted

theorem eq_of_closes {tags : List Tag} {element : Element}
    (hkind : element.kind = .items ∨ element.kind = .reportDatabase)
    (h : Closes host tags element summary next) : next = summary := by
  have hother : ∀ {tag : Tag}, element.kind = tag → tag ≠ .items → tag ≠ .reportDatabase → False := by
    rintro tag rfl hitems hroot
    exact hkind.elim hitems hroot
  cases h with
  | field _ hread =>
    have hkinds := kind_of_fieldRead hread
    rcases hkinds with h | h | h | h <;> exact (hother h (by decide) (by decide)).elim
  | value _ h _ => exact (hother h (by decide) (by decide)).elim
  | category _ h _ => exact (hother h (by decide) (by decide)).elim
  | cell _ h _ _ _ => exact (hother h (by decide) (by decide)).elim
  | item h _ => exact (hother h (by decide) (by decide)).elim
  | other _ _ => rfl

theorem walk_itemsSection {tree : RoseTree Element} (hkind : tree.label.kind = .items)
    (hs : Sound [.reportDatabase] summary)
    (h : (lyrdbReader host).walk Element.kind [.reportDatabase] summary tree = .ok next) :
    ∃ records : List (Item F), List.Forall₂ Counted (fieldsOf tree .item) records ∧
      (∀ record ∈ records, Known summary.catalog summary.cells record) ∧
      next.totals = countAll summary.catalog summary.totals records ∧
      next.catalog = summary.catalog ∧ next.cells = summary.cells := by
  obtain ⟨label, content⟩ := tree
  have hkind : label.kind = .items := hkind
  obtain ⟨s₁, s₂, hopen, hcontent, hclose⟩ := walk_eq_ok h
  obtain ⟨hs₁, -⟩ := (lyrdb_rule host).opens trivial hs hopen
  have hpath : [Tag.reportDatabase] ++ [label.kind] = itemsSection := by
    rw [hkind]
    rfl
  rw [hpath] at hs₁ hcontent
  obtain ⟨records, hcounted, hknown, htotals, hcatalog, hcells⟩ := walkOf_items hs₁ hcontent
  obtain ⟨-, -, rfl⟩ := openElement_eq_ok hopen
  obtain ⟨header, hclose⟩ := closeElement_eq_ok hclose
  obtain rfl := eq_of_closes (.inl hkind) hclose
  exact ⟨records, hcounted, hknown, htotals, hcatalog, hcells⟩

theorem totals_of_sections {content : List (RoseTree Element)}
    (hkinds : ∀ tree ∈ content, tree.label.kind ≠ .items) (hs : Sound [.reportDatabase] summary)
    (h : (lyrdbReader host).walkOf Element.kind [.reportDatabase] summary content = .ok next) :
    next.totals = summary.totals := by
  induction content generalizing summary with
  | nil =>
    obtain rfl := Except.ok.inj h
    rfl
  | cons tree rest ih =>
    obtain ⟨hkind, hrest⟩ := List.forall_mem_cons.mp hkinds
    obtain ⟨s₁, htree, hlater⟩ := walkOf_cons_eq_ok h
    have hs₁ := ((rule_of_all host).walk tree trivial hs htree).1
    have haside : Aside ([Tag.reportDatabase] ++ [tree.label.kind]) := by
      refine ⟨fun hprefix => ?_, fun hprefix => ?_⟩
      · have hlength := hprefix.length_le
        rw [List.length_append] at hlength
        exact absurd hlength (by decide : ¬ (3 ≤ 2))
      · have heq : [Tag.reportDatabase] ++ [tree.label.kind] = [Tag.reportDatabase] ++ [Tag.items] :=
          hprefix.eq_of_length rfl
        exact hkind (kind_of_path heq)
    rw [ih hrest hs₁ hlater, totals_of_aside haside hs htree]

theorem catalog_of_sections {content : List (RoseTree Element)}
    (hkinds : ∀ tree ∈ content, tree.label.kind ≠ .categories)
    (hs : Sound [.reportDatabase] summary)
    (h : (lyrdbReader host).walkOf Element.kind [.reportDatabase] summary content = .ok next) :
    next.catalog = summary.catalog := by
  induction content generalizing summary with
  | nil =>
    obtain rfl := Except.ok.inj h
    rfl
  | cons tree rest ih =>
    obtain ⟨hkind, hrest⟩ := List.forall_mem_cons.mp hkinds
    obtain ⟨s₁, htree, hlater⟩ := walkOf_cons_eq_ok h
    have hs₁ := ((rule_of_all host).walk tree trivial hs htree).1
    have houtside : ([Tag.reportDatabase] ++ [tree.label.kind]).take 2 ≠
        [Tag.reportDatabase, Tag.categories] := by
      intro hplace
      have heq : [Tag.reportDatabase] ++ [tree.label.kind] = [Tag.reportDatabase] ++ [Tag.categories] :=
        hplace
      exact hkind (kind_of_path heq)
    rw [ih hrest hs₁ hlater, catalog_of_outside (by decide) houtside hs htree]

theorem mem_cells_of_walkOf {path : List Tag} {content : List (RoseTree Element)}
    {identity : List Char} (hs : Sound path summary)
    (h : (lyrdbReader host).walkOf Element.kind path summary content = .ok next)
    (hmem : identity ∈ summary.cells.identities) : identity ∈ next.cells.identities := by
  rw [(follows_cells host).walkOf (rule_of_all host) trivial hs h]
  generalize summary.cells = cells at hmem
  induction placesOf Element.kind path content generalizing cells with
  | nil => exact hmem
  | cons place rest ih =>
    refine ih _ ?_
    show identity ∈ (updateCells place.1 place.2 cells).identities
    unfold updateCells
    split_ifs
    · exact List.mem_append_left _ hmem
    · exact hmem

theorem follows_sections (host : Host F D) : Follows Element.kind (lyrdbReader host)
    (fun path => 2 ≤ path.length) Sound OpenedElement Summary.sections
    (fun _ _ sections => sections) where
  opens {path element summary next} hpath _ hopen := by
    obtain ⟨-, -, rfl⟩ := openElement_eq_ok hopen
    refine if_neg fun hlength => ?_
    have hlength := hlength.1
    rw [List.length_append, List.length_singleton] at hlength
    omega
  closes _ _ _ hclose := by
    obtain ⟨header, hclose⟩ := closeElement_eq_ok hclose
    cases hclose <;> rfl

theorem sections_of_walkOf {content : List (RoseTree Element)}
    (hs : Sound [.reportDatabase] summary)
    (h : (lyrdbReader host).walkOf Element.kind [.reportDatabase] summary content = .ok next) :
    next.sections = summary.sections ++ content.map fun tree => tree.label.kind := by
  induction content generalizing summary with
  | nil =>
    obtain rfl := Except.ok.inj h
    exact (List.append_nil _).symm
  | cons tree rest ih =>
    obtain ⟨s₁, htree, hlater⟩ := walkOf_cons_eq_ok h
    have hs₁ := ((rule_of_all host).walk tree trivial hs htree).1
    have hsection : s₁.sections = summary.sections ++ [tree.label.kind] := by
      obtain ⟨label, inner⟩ := tree
      obtain ⟨t₁, t₂, hopen, hcontent, hclose⟩ := walk_eq_ok htree
      obtain ⟨ht₁, -⟩ := (lyrdb_rule host).opens trivial hs hopen
      have hrule := sound_rule host (E := fun path => 2 ≤ path.length) fun hpath => by
        rw [List.length_append]
        omega
      have hinner := (follows_sections host).walkOf hrule le_rfl ht₁ hcontent
      rw [foldl_eq_of_forall fun _ _ _ => rfl] at hinner
      obtain ⟨-, -, rfl⟩ := openElement_eq_ok hopen
      obtain ⟨header, hclose⟩ := closeElement_eq_ok hclose
      have hsame : s₁.sections = t₂.sections := by
        cases hclose <;> rfl
      have hopened : (openedSummary ([Tag.reportDatabase] ++ [label.kind]) label.kind summary).sections =
          summary.sections ++ [label.kind] := rfl
      rw [hsame, hinner, hopened]
      rfl
    rw [ih hs₁ hlater, hsection, List.append_assoc]
    rfl

theorem split_of_count {α β : Type} [DecidableEq β] {f : α → β} {items : List α} {b : β}
    (h : (items.map f).count b = 1) : ∃ before item after, items = before ++ item :: after ∧
      f item = b ∧ ∀ other ∈ before ++ after, f other ≠ b := by
  have hmem : b ∈ items.map f := List.count_pos_iff.mp (by omega)
  obtain ⟨item, hitem, rfl⟩ := List.mem_map.mp hmem
  obtain ⟨before, after, rfl⟩ := List.append_of_mem hitem
  refine ⟨before, item, after, rfl, rfl, fun other hother heq => ?_⟩
  rw [List.map_append, List.map_cons, List.count_append, List.count_cons_self] at h
  have hpos : 0 < ((before ++ after).map f).count (f item) :=
    List.count_pos_iff.mpr (heq ▸ List.mem_map_of_mem hother)
  rw [List.map_append, List.count_append] at hpos
  omega

/-- What holds of the sections of a report, one of which holds its items and one its categories. -/
theorem walkOf_report {content : List (RoseTree Element)} (hs : Sound [.reportDatabase] summary)
    (hempty : summary.catalog.entries = [])
    (h : (lyrdbReader host).walkOf Element.kind [.reportDatabase] summary content = .ok next)
    (hitems : (content.map fun tree => tree.label.kind).count .items = 1)
    (hcategories : (content.map fun tree => tree.label.kind).count .categories = 1) :
    ∃ before items after, content = before ++ items :: after ∧ items.label.kind = .items ∧
      (∀ tree ∈ before ++ after, tree.label.kind ≠ .items) ∧
      ∃ records : List (Item F), List.Forall₂ Counted (fieldsOf items .item) records ∧
        (∀ record ∈ records, Known next.catalog next.cells record) ∧
        next.totals = countAll next.catalog summary.totals records := by
  obtain ⟨before, items, after, rfl, hkind, hothers⟩ := split_of_count hitems
  refine ⟨before, items, after, rfl, hkind, hothers, ?_⟩
  obtain ⟨s₁, hbefore, hrest⟩ := walkOf_append_eq_ok h
  obtain ⟨s₂, hsection, hafter⟩ := walkOf_cons_eq_ok hrest
  have hs₁ := ((rule_of_all host).walkOf trivial hs hbefore).1
  have hs₂ := ((rule_of_all host).walk items trivial hs₁ hsection).1
  obtain ⟨records, hcounted, hknown, htotals, hcatalog, hcells⟩ :=
    walk_itemsSection hkind hs₁ hsection
  rw [totals_of_sections (fun tree htree => hothers tree (List.mem_append_left _ htree)) hs
    hbefore] at htotals
  rw [← totals_of_sections (fun tree htree => hothers tree (List.mem_append_right _ htree)) hs₂
    hafter] at htotals
  refine ⟨records, hcounted, ?_⟩
  by_cases hlate : ∀ tree ∈ after, tree.label.kind ≠ .categories
  · rw [← hcatalog, ← catalog_of_sections hlate hs₂ hafter, ← hcells] at hknown
    rw [← hcatalog, ← catalog_of_sections hlate hs₂ hafter] at htotals
    exact ⟨fun record hrecord => ⟨(hknown record hrecord).category, (hknown record hrecord).clear,
      mem_cells_of_walkOf hs₂ hafter (hknown record hrecord).cell⟩, htotals⟩
  · -- categories behind the items leave none that an item could name
    have hearly : ∀ tree ∈ before, tree.label.kind ≠ .categories := by
      intro tree htree heq
      push Not at hlate
      obtain ⟨other, hother, hcategory⟩ := hlate
      have hfirst : 0 < (before.map fun tree => tree.label.kind).count .categories :=
        List.count_pos_iff.mpr (List.mem_map.mpr ⟨tree, htree, heq⟩)
      have hsecond : 0 < (after.map fun tree => tree.label.kind).count .categories :=
        List.count_pos_iff.mpr (List.mem_map.mpr ⟨other, hother, hcategory⟩)
      rw [List.map_append, List.map_cons, List.count_append, List.count_cons] at hcategories
      omega
    have hnone : records = [] := by
      rw [List.eq_nil_iff_forall_not_mem]
      intro record hrecord
      have hsome := (hknown record hrecord).category
      rw [catalog_of_sections hearly hs hbefore, Catalog.find, hempty] at hsome
      cases hsome
    subst hnone
    exact ⟨fun record hrecord => absurd hrecord List.not_mem_nil, htotals⟩

omit [DecidableEq D] in
theorem sound_empty : Sound [] (Summary.empty : Summary F D) := by
  refine ⟨⟨⟨fun h => ?_, fun h => ?_⟩, fun tag htag => ?_⟩, limits_empty⟩
  · cases h
  · cases List.prefix_nil.mp h
  · cases htag

theorem walk_root {document : RoseTree Element}
    (h : (lyrdbReader host).walk Element.kind [] .empty document = .ok next) :
    ∃ s₁ s₂ : Summary F D, Sound [.reportDatabase] s₁ ∧ s₁.sections = [] ∧
      s₁.catalog.entries = [] ∧ s₁.totals = ⟨0, 0, 0, [], []⟩ ∧
      (lyrdbReader host).walkOf Element.kind [.reportDatabase] s₁ document.content = .ok s₂ ∧
      next.sections = s₂.sections ∧ next.catalog = s₂.catalog ∧ next.cells = s₂.cells ∧
      next.totals = s₂.totals := by
  obtain ⟨label, content⟩ := document
  obtain ⟨s₁, s₂, hopen, hcontent, hclose⟩ := walk_eq_ok h
  obtain ⟨hs₁, hopened⟩ := (lyrdb_rule host).opens trivial sound_empty hopen
  have hkind : label.kind = .reportDatabase := hopened.root rfl
  have hpath : [] ++ [label.kind] = [Tag.reportDatabase] := by
    rw [hkind]
    rfl
  rw [hpath] at hs₁ hcontent
  obtain ⟨-, -, rfl⟩ := openElement_eq_ok hopen
  have hclose : closeElement host ([] ++ [label.kind]) label s₂ = .ok next := hclose
  obtain ⟨header, hclose⟩ := closeElement_eq_ok hclose
  obtain rfl := eq_of_closes (.inr hkind) hclose
  exact ⟨_, s₂, hs₁, rfl, rfl, rfl, hcontent, rfl, rfl, rfl, rfl⟩

end Sections

section Declared

def declarationsOf (host : Host F D) (document : RoseTree Element) : List (Category D) :=
  ((document.places Element.kind []).filter fun place => decide (declares place.1 place.2)).map
    fun place => declaredCategory host place.1 place.2

def cellsOf (document : RoseTree Element) : List (List Char) :=
  ((document.places Element.kind []).filter fun place => decide (place.1 = cellPath)).map
    fun place => cellIdentity place.2

theorem foldl_updateCatalog (places : List (List Tag × Element)) (catalog : Catalog D) :
    places.foldl (fun catalog place => updateCatalog host place.1 place.2 catalog) catalog =
      ((places.filter fun place => decide (declares place.1 place.2)).map fun place =>
        declaredCategory host place.1 place.2).foldl Catalog.declare catalog := by
  induction places generalizing catalog with
  | nil => rfl
  | cons place rest ih =>
    rw [List.foldl_cons, ih, List.filter_cons, updateCatalog]
    by_cases hdeclares : declares place.1 place.2
    · rw [if_pos hdeclares, if_pos (decide_eq_true hdeclares)]
      rfl
    · rw [if_neg hdeclares, if_neg (by simpa using hdeclares)]

theorem identities_foldl (places : List (List Tag × Element)) (cells : Cells) :
    (places.foldl (fun cells place => updateCells place.1 place.2 cells) cells).identities =
      cells.identities ++ (places.filter fun place => decide (place.1 = cellPath)).map fun place =>
        cellIdentity place.2 := by
  induction places generalizing cells with
  | nil => exact (List.append_nil _).symm
  | cons place rest ih =>
    rw [List.foldl_cons, ih, List.filter_cons, updateCells]
    by_cases hcell : place.1 = cellPath
    · rw [if_pos hcell, if_pos (decide_eq_true hcell), List.map_cons, Cells.add,
        List.append_assoc]
      rfl
    · rw [if_neg hcell, if_neg (by simpa using hcell)]

def firstOf (declarations : List (Category D)) (path : CategoryPath) : Option (Category D) :=
  declarations.find? fun declared => decide (declared.path = path)

omit [DecidableEq D] in
theorem firstOf_concat (done : List (Category D)) (declared : Category D) (path : CategoryPath) :
    firstOf (done ++ [declared]) path =
      (firstOf done path).or (if declared.path = path then some declared else none) := by
  rw [firstOf, List.find?_append, firstOf, List.find?_singleton]
  simp only [decide_eq_true_eq]

/-- A catalog keeps the first declaration of each path, and the paths declared otherwise later. -/
theorem declared_spec (declarations : List (Category D)) : ∀ path,
    (declarations.foldl Catalog.declare ⟨[], [], 0⟩).find path = firstOf declarations path ∧
      (path ∉ (declarations.foldl Catalog.declare ⟨[], [], 0⟩).conflicts →
        ∀ first ∈ firstOf declarations path, ∀ declared ∈ declarations, declared.path = path →
          declared.identity = first.identity) := by
  induction declarations using List.reverseRecOn with
  | nil => exact fun path => ⟨rfl, fun _ _ _ declared hmem => absurd hmem List.not_mem_nil⟩
  | append_singleton done declared ih =>
    intro path
    obtain ⟨hfind, hclear⟩ := ih path
    rw [List.foldl_concat, firstOf_concat, Catalog.declare, (ih declared.path).1]
    cases hfirst : firstOf done declared.path with
    | some entry =>
      dsimp only
      refine ⟨?_, fun hconflict first hmem other hother hpath => ?_⟩
      · by_cases hsame : declared.path = path
        · rw [if_pos hsame, ← hsame, hfirst, Option.some_or]
          exact (ih declared.path).1.trans hfirst
        · rw [if_neg hsame, Option.or_none]
          exact hfind
      · have hkept : path ∉ (done.foldl Catalog.declare ⟨[], [], 0⟩).conflicts ∧
            (declared.path = path → entry.identity = declared.identity) := by
          by_cases hidentity : entry.identity = declared.identity
          · rw [if_pos hidentity] at hconflict
            exact ⟨hconflict, fun _ => hidentity⟩
          · rw [if_neg hidentity, List.mem_append, List.mem_singleton, not_or] at hconflict
            exact ⟨hconflict.1, fun hsame => absurd hsame.symm hconflict.2⟩
        by_cases hsame : declared.path = path
        · rw [if_pos hsame, ← hsame, hfirst, Option.some_or] at hmem
          obtain rfl := Option.mem_some_iff.mp hmem
          rcases List.mem_append.mp hother with hother | hother
          · exact hclear hkept.1 entry (hsame ▸ hfirst) other hother hpath
          · rw [List.mem_singleton.mp hother]
            exact (hkept.2 hsame).symm
        · rw [if_neg hsame, Option.or_none] at hmem
          rcases List.mem_append.mp hother with hother | hother
          · exact hclear hkept.1 first hmem other hother hpath
          · exact absurd (List.mem_singleton.mp hother ▸ hpath) hsame
    | none =>
      dsimp only
      refine ⟨?_, fun hconflict first hmem other hother hpath => ?_⟩
      · show firstOf (_ ++ [declared]) path = _
        rw [firstOf_concat]
        exact congrArg (fun found => Option.or found _) hfind
      · by_cases hsame : declared.path = path
        · rw [if_pos hsame, ← hsame, hfirst, Option.none_or] at hmem
          obtain rfl := Option.mem_some_iff.mp hmem
          rcases List.mem_append.mp hother with hother | hother
          · have hnew := List.find?_eq_none.mp hfirst other hother
            exact absurd (decide_eq_true (hpath.trans hsame.symm)) hnew
          · rw [List.mem_singleton.mp hother]
        · rw [if_neg hsame, Option.or_none] at hmem
          rcases List.mem_append.mp hother with hother | hother
          · exact hclear hconflict first hmem other hother hpath
          · exact absurd (List.mem_singleton.mp hother ▸ hpath) hsame

/-- A category that a report declares, with one description however often it declares it. -/
def DeclaredOnce (host : Host F D) (document : RoseTree Element) (path : CategoryPath) : Prop :=
  ∃ declared ∈ declarationsOf host document, declared.path = path ∧
    ∀ other ∈ declarationsOf host document, other.path = path → other.identity = declared.identity

theorem declaredOnce_of_known {document : RoseTree Element} {record : Item F}
    (hcatalog : summary.catalog = (declarationsOf host document).foldl Catalog.declare ⟨[], [], 0⟩)
    (hknown : Known summary.catalog summary.cells record) :
    DeclaredOnce host document record.category := by
  obtain ⟨hfind, hclear⟩ := declared_spec (declarationsOf host document) record.category
  obtain ⟨declared, hdeclared⟩ := Option.isSome_iff_exists.mp hknown.category
  rw [hcatalog] at hdeclared
  have hfirst := hfind.symm.trans hdeclared
  have hpath : declared.path = record.category := by
    have hsome := List.find?_some (p := fun declared : Category D =>
      decide (declared.path = record.category)) hfirst
    exact of_decide_eq_true hsome
  refine ⟨declared, List.mem_of_find?_eq_some hfirst, hpath, fun other hother hpath => ?_⟩
  exact hclear (hcatalog ▸ hknown.clear) declared hfirst other hother hpath

end Declared

section Totals

variable (catalog : Catalog D)

omit [DecidableEq D] in
theorem markers_countAll (totals : Totals F) (records : List (Item F)) :
    (countAll catalog totals records).markers =
      totals.markers + (records.map Item.multiplicity).sum := by
  induction records generalizing totals with
  | nil => rfl
  | cons record rest ih =>
    have hstep : (totals.count record (violationOf catalog record)).markers =
        totals.markers + record.multiplicity := rfl
    rw [countAll, List.foldl_cons, ← countAll, ih, hstep, List.map_cons, List.sum_cons]
    omega

omit [DecidableEq D] in
theorem waived_countAll (totals : Totals F) (records : List (Item F)) :
    (countAll catalog totals records).waived =
      totals.waived + ((records.filter Item.waived).map Item.multiplicity).sum := by
  induction records generalizing totals with
  | nil => rfl
  | cons record rest ih =>
    have hstep : (totals.count record (violationOf catalog record)).waived =
        if record.waived then totals.waived + record.multiplicity else totals.waived := rfl
    rw [countAll, List.foldl_cons, ← countAll, ih, hstep, List.filter_cons]
    by_cases hwaived : record.waived = true
    · rw [if_pos hwaived, if_pos hwaived, List.map_cons, List.sum_cons]
      omega
    · rw [if_neg hwaived, if_neg hwaived]

omit [DecidableEq D] in
theorem items_countAll (totals : Totals F) (records : List (Item F)) :
    (countAll catalog totals records).items = totals.items + records.length := by
  induction records generalizing totals with
  | nil => rfl
  | cons record rest ih =>
    have hstep : (totals.count record (violationOf catalog record)).items = totals.items + 1 := rfl
    rw [countAll, List.foldl_cons, ← countAll, ih, hstep, List.length_cons]
    omega

omit [DecidableEq D] in
theorem counts_countAll (totals : Totals F) (records : List (Item F)) :
    (countAll catalog totals records).counts =
      records.foldl (fun counts record => addCount record.category record.multiplicity counts)
        totals.counts := by
  induction records generalizing totals with
  | nil => rfl
  | cons record rest ih => exact ih _

def countOf (counts : List (CategoryPath × ℕ)) (path : CategoryPath) : ℕ :=
  ((counts.filter fun entry => decide (entry.1 = path)).map Prod.snd).sum

theorem sum_addCount (path : CategoryPath) (amount : ℕ) (counts : List (CategoryPath × ℕ)) :
    ((addCount path amount counts).map Prod.snd).sum = (counts.map Prod.snd).sum + amount := by
  induction counts with
  | nil => simp [addCount]
  | cons entry rest ih =>
    obtain ⟨other, count⟩ := entry
    rw [addCount]
    split_ifs
    · simp only [List.map_cons, List.sum_cons]
      omega
    · simp only [List.map_cons, List.sum_cons, ih]
      omega

theorem countOf_cons (first : CategoryPath) (count : ℕ) (rest : List (CategoryPath × ℕ))
    (path : CategoryPath) : countOf ((first, count) :: rest) path =
      (if first = path then count else 0) + countOf rest path := by
  by_cases hfirst : first = path <;> simp [countOf, hfirst]

theorem countOf_addCount (path other : CategoryPath) (amount : ℕ)
    (counts : List (CategoryPath × ℕ)) :
    countOf (addCount path amount counts) other =
      countOf counts other + if path = other then amount else 0 := by
  induction counts with
  | nil =>
    by_cases hsame : path = other <;> simp [addCount, countOf, hsame]
  | cons entry rest ih =>
    obtain ⟨first, count⟩ := entry
    rw [addCount]
    by_cases hfirst : first = path
    · rw [if_pos hfirst, countOf_cons, countOf_cons, hfirst]
      split_ifs <;> omega
    · rw [if_neg hfirst, countOf_cons, countOf_cons, ih]
      omega

theorem mem_keys_addCount {path other : CategoryPath} {amount : ℕ}
    {counts : List (CategoryPath × ℕ)} :
    other ∈ (addCount path amount counts).map Prod.fst ↔
      other ∈ counts.map Prod.fst ∨ other = path := by
  induction counts with
  | nil => simp [addCount]
  | cons entry rest ih =>
    obtain ⟨first, count⟩ := entry
    rw [addCount]
    split_ifs with hfirst
    · rw [List.map_cons, List.map_cons, List.mem_cons, hfirst]
      exact ⟨.inl, fun h => h.elim id .inl⟩
    · rw [List.map_cons, List.map_cons, List.mem_cons, List.mem_cons, ih, or_assoc]

theorem nodup_addCount {path : CategoryPath} {amount : ℕ} {counts : List (CategoryPath × ℕ)}
    (h : (counts.map Prod.fst).Nodup) : ((addCount path amount counts).map Prod.fst).Nodup := by
  induction counts with
  | nil => exact List.nodup_singleton path
  | cons entry rest ih =>
    obtain ⟨first, count⟩ := entry
    obtain ⟨hnew, hrest⟩ := List.nodup_cons.mp h
    rw [addCount]
    split_ifs with hfirst
    · exact h
    · refine List.nodup_cons.mpr ⟨fun hmem => ?_, ih hrest⟩
      rcases mem_keys_addCount.mp hmem with hmem | hsame
      · exact hnew hmem
      · exact hfirst hsame

theorem countOf_eq_zero {counts : List (CategoryPath × ℕ)} {path : CategoryPath}
    (h : path ∉ counts.map Prod.fst) : countOf counts path = 0 := by
  have hnone : (counts.filter fun entry => decide (entry.1 = path)) = [] := by
    refine List.filter_eq_nil_iff.mpr fun entry hmem heq => h ?_
    exact List.mem_map.mpr ⟨entry, hmem, of_decide_eq_true heq⟩
  rw [countOf, hnone]
  rfl

theorem countOf_of_mem {counts : List (CategoryPath × ℕ)} (h : (counts.map Prod.fst).Nodup)
    {entry : CategoryPath × ℕ} (hmem : entry ∈ counts) : countOf counts entry.1 = entry.2 := by
  induction counts with
  | nil => cases hmem
  | cons first rest ih =>
    obtain ⟨hnew, hrest⟩ := List.nodup_cons.mp h
    obtain ⟨path, count⟩ := first
    rw [countOf_cons]
    rcases List.mem_cons.mp hmem with rfl | hlater
    · rw [if_pos rfl, countOf_eq_zero hnew, Nat.add_zero]
    · have hne : path ≠ entry.1 := fun heq =>
        hnew (List.mem_map.mpr ⟨entry, hlater, heq.symm⟩)
      rw [if_neg hne, ih hrest hlater, Nat.zero_add]

/-- The counts of items are those of their categories, and sum up to those of all items. -/
theorem counts_spec (records : List (Item F)) (counts : List (CategoryPath × ℕ))
    (h : (counts.map Prod.fst).Nodup) :
    let counted := records.foldl
      (fun counts record => addCount record.category record.multiplicity counts) counts
    (counted.map Prod.fst).Nodup ∧
      (counted.map Prod.snd).sum = (counts.map Prod.snd).sum + (records.map Item.multiplicity).sum ∧
      ∀ path, countOf counted path = countOf counts path +
        ((records.filter fun record => decide (record.category = path)).map
          Item.multiplicity).sum := by
  induction records generalizing counts with
  | nil => exact ⟨h, rfl, fun path => rfl⟩
  | cons record rest ih =>
    obtain ⟨hnodup, hsum, hcount⟩ := ih (addCount record.category record.multiplicity counts)
      (nodup_addCount h)
    refine ⟨hnodup, ?_, fun path => ?_⟩
    · rw [List.foldl_cons, hsum, sum_addCount, List.map_cons, List.sum_cons]
      omega
    · rw [List.foldl_cons, hcount, countOf_addCount, List.filter_cons]
      by_cases hpath : record.category = path
      · rw [if_pos hpath, if_pos (decide_eq_true hpath), List.map_cons, List.sum_cons]
        omega
      · rw [if_neg hpath, if_neg (by simpa using hpath), Nat.add_zero]

theorem countBefore_total (a b : CategoryPath × ℕ) :
    countBefore a b = true ∨ countBefore b a = true := by
  simp only [countBefore, Bool.or_eq_true, Bool.and_eq_true, decide_eq_true_eq]
  rcases lt_trichotomy a.2 b.2 with h | h | h
  · exact .inr (.inl h)
  · exact (le_total a.1 b.1).imp (fun hle => .inr ⟨h, hle⟩) fun hle => .inr ⟨h.symm, hle⟩
  · exact .inl (.inl h)

theorem countBefore_trans {a b c : CategoryPath × ℕ} (h : countBefore a b = true)
    (h' : countBefore b c = true) : countBefore a c = true := by
  simp only [countBefore, Bool.or_eq_true, Bool.and_eq_true, decide_eq_true_eq] at h h' ⊢
  rcases h with h | ⟨h, hle⟩ <;> rcases h' with h' | ⟨h', hle'⟩
  · exact .inl (h'.trans h)
  · exact .inl (h' ▸ h)
  · exact .inl (h.symm ▸ h')
  · exact .inr ⟨h.trans h', hle.trans hle'⟩

theorem sorted_sortedCounts (counts : List (CategoryPath × ℕ)) :
    (sortedCounts counts).Pairwise fun a b => countBefore a b = true := by
  have : Std.Total fun a b : CategoryPath × ℕ => countBefore a b = true := ⟨countBefore_total⟩
  have : IsTrans (CategoryPath × ℕ) fun a b => countBefore a b = true :=
    ⟨fun _ _ _ => countBefore_trans⟩
  exact List.pairwise_insertionSort _ counts

theorem decreasing_countSummaries (counts : List (CategoryPath × ℕ)) :
    (countSummaries counts).Pairwise fun a b => b.2.2 ≤ a.2.2 := by
  refine List.pairwise_map.mpr (((sorted_sortedCounts counts).sublist
    (List.take_sublist _ _)).imp fun {a b} h => ?_)
  rw [countBefore, Bool.or_eq_true, Bool.and_eq_true, decide_eq_true_eq, decide_eq_true_eq] at h
  exact h.elim le_of_lt fun h => h.1.ge

end Totals

section Accounts

def itemsOf (document : RoseTree Element) : List (RoseTree Element) :=
  (document.content.filter (ofKind .items)).flatMap fun tree => fieldsOf tree .item

structure Tallied (host : Host F D) (document : RoseTree Element) (report : Report F)
    (records : List (Item F)) : Prop where
  counted : List.Forall₂ Counted (itemsOf document) records
  category : ∀ record ∈ records, DeclaredOnce host document record.category
  cell : ∀ record ∈ records, record.cell ∈ cellsOf document
  items : report.itemCount = records.length
  total : report.totalViolations = (records.map Item.multiplicity).sum
  waived : report.waivedViolations = ((records.filter Item.waived).map Item.multiplicity).sum
  each : ∀ entry ∈ report.categoryCounts, entry.2.2 =
    ((records.filter fun record => decide (record.category = entry.2.1)).map Item.multiplicity).sum

structure Accounts (host : Host F D) (document : RoseTree Element) (report : Report F) : Prop where
  placed : ∀ place ∈ document.places Element.kind [], Placed place.1 place.2.kind
  sections : ∀ tag ∈ [Tag.generator, .topCell, .categories, .cells, .items],
    (document.content.map fun tree => tree.label.kind).count tag = 1
  cells : (cellsOf document).Nodup
  tallied : ∃ records, Tallied host document report records
  waived : report.waivedViolations ≤ report.totalViolations
  counts : report.categoryCountsTruncated = false →
    (report.categoryCounts.map fun entry => entry.2.2).sum = report.totalViolations
  sorted : report.categoryCounts.Pairwise fun a b => b.2.2 ≤ a.2.2
  summaries : report.categoryCounts.length ≤ maxCategoryCountSummaries
  examples : report.violations.length ≤ maxViolationExamples
  each : ∀ violation ∈ report.violations, violation.Retained
  kept : keptOf report.violations ≤ report.normalization.retainedGeometries
  retained : report.normalization.retainedGeometries ≤ maxGeometriesTotal

omit [DecidableEq D] in
theorem finishReport_eq_ok {deck topCell : Option (List Char)} {report : Report F}
    (h : finishReport host deck topCell summary = .ok report) :
    (∀ tag ∈ [Tag.generator, .topCell, .categories, .cells, .items],
      summary.sections.count tag = 1) ∧ ∃ script, report = reportOf summary script := by
  unfold finishReport at h
  dsimp only at h
  obtain ⟨hgenerator, h⟩ := Except.guard_eq_ok.mp h
  obtain ⟨htop, h⟩ := Except.guard_eq_ok.mp h
  obtain ⟨hcategories, h⟩ := Except.guard_eq_ok.mp h
  obtain ⟨hcells, h⟩ := Except.guard_eq_ok.mp h
  obtain ⟨hitems, h⟩ := Except.guard_eq_ok.mp h
  obtain ⟨-, h⟩ := Except.guard_eq_ok.mp h
  obtain ⟨-, h⟩ := Except.guard_eq_ok.mp h
  refine ⟨?_, ?_⟩
  · simp only [List.forall_mem_cons, List.not_mem_nil, false_imp_iff, implies_true, and_true]
    exact ⟨not_not.mp hgenerator, not_not.mp fun hne => htop (.inl hne), not_not.mp hcategories,
      not_not.mp hcells, not_not.mp hitems⟩
  · cases hscript : generatorScript host summary.header.generator with
    | none =>
      rw [hscript] at h
      cases h
    | some script =>
      rw [hscript] at h
      obtain ⟨-, h⟩ := Except.guard_eq_ok.mp h
      obtain ⟨-, h⟩ := Except.guard_eq_ok.mp h
      exact ⟨script, (Except.ok.inj h).symm⟩

theorem parseLyrdbStream_eq_ok {deck topCell : Option (List Char)} {document : RoseTree Element}
    {report : Report F} (h : parseLyrdbStream host deck topCell document.events = .ok report) :
    ∃ final : Summary F D, (lyrdbReader host).walk Element.kind [] .empty document = .ok final ∧
      finishReport host deck topCell final = .ok report := by
  obtain ⟨state, hread, h⟩ := Except.bind_eq_ok.mp h
  rw [foldlM_events] at hread
  obtain ⟨final, hwalk, rfl⟩ := Except.map_eq_ok.mp hread
  exact ⟨final, hwalk, (Except.guard_eq_ok.mp h).2⟩

theorem cells_of_walk {document : RoseTree Element}
    (h : (lyrdbReader host).walk Element.kind [] .empty document = .ok next) :
    next.cells.identities = cellsOf document := by
  rw [(follows_cells host).walk (rule_of_all host) document trivial sound_empty h, identities_foldl]
  rfl

theorem catalog_of_walk {document : RoseTree Element}
    (h : (lyrdbReader host).walk Element.kind [] .empty document = .ok next) :
    next.catalog = (declarationsOf host document).foldl Catalog.declare ⟨[], [], 0⟩ := by
  rw [(follows_catalog host).walk (rule_of_all host) document trivial sound_empty h,
    foldl_updateCatalog]
  rfl

omit [DecidableEq D] in
theorem mem_countSummaries {counts : List (CategoryPath × ℕ)}
    {entry : List Char × CategoryPath × ℕ} (h : entry ∈ countSummaries counts) :
    entry.2 ∈ counts := by
  obtain ⟨count, hcount, rfl⟩ := List.mem_map.mp h
  exact (List.perm_insertionSort _ counts).mem_iff.mp (List.mem_of_mem_take hcount)

omit [DecidableEq D] in
theorem sum_countSummaries {counts : List (CategoryPath × ℕ)}
    (h : counts.length ≤ (countSummaries counts).length) :
    ((countSummaries counts).map fun entry => entry.2.2).sum = (counts.map Prod.snd).sum := by
  have hperm : (sortedCounts counts).Perm counts := List.perm_insertionSort _ counts
  have htake : (sortedCounts counts).take maxCategoryCountSummaries = sortedCounts counts := by
    refine List.take_of_length_le ?_
    rw [countSummaries, List.length_map, List.length_take] at h
    exact hperm.length_eq ▸ h.trans (min_le_left _ _)
  rw [countSummaries, htake, List.map_map]
  exact (hperm.map Prod.snd).sum_eq

theorem tallied_of_walk {document : RoseTree Element} (script : List Char)
    (hwalk : (lyrdbReader host).walk Element.kind [] .empty document = .ok next)
    (hitems : next.sections.count .items = 1) (hcategories : next.sections.count .categories = 1) :
    ∃ records, Tallied host document (reportOf next script) records ∧
      next.totals = countAll next.catalog ⟨0, 0, 0, [], []⟩ records := by
  obtain ⟨s₁, s₂, hs₁, hnone, hempty, hzero, hcontent, hsections, hcatalog, hcells, htotals⟩ :=
    walk_root hwalk
  have hkinds : next.sections = document.content.map fun tree => tree.label.kind := by
    rw [hsections, sections_of_walkOf hs₁ hcontent, hnone]
    rfl
  rw [hkinds] at hitems hcategories
  obtain ⟨before, items, after, hsplit, hkind, hothers, records, hcounted, hknown, hall⟩ :=
    walkOf_report hs₁ hempty hcontent hitems hcategories
  rw [← hcatalog, ← hcells] at hknown
  rw [← htotals, hzero, ← hcatalog] at hall
  have hitemsOf : itemsOf document = fieldsOf items .item := by
    have hrest : ∀ trees : List (RoseTree Element), (∀ tree ∈ trees, tree.label.kind ≠ .items) →
        trees.filter (ofKind .items) = [] := fun trees h =>
      List.filter_eq_nil_iff.mpr fun tree htree heq => h tree htree (of_decide_eq_true heq)
    have hbefore := hrest before fun tree htree => hothers tree (List.mem_append_left _ htree)
    have hafter := hrest after fun tree htree => hothers tree (List.mem_append_right _ htree)
    rw [itemsOf, hsplit, List.filter_append, hbefore, List.nil_append,
      List.filter_cons_of_pos (p := ofKind .items) (decide_eq_true hkind), hafter]
    exact List.append_nil _
  obtain ⟨hnodup, -, hcount⟩ := counts_spec records [] List.nodup_nil
  have hcounts : next.totals.counts = records.foldl
      (fun counts record => addCount record.category record.multiplicity counts) [] := by
    rw [hall, counts_countAll]
  have hzeroed : ∀ {total : ℕ}, 0 + total = total := Nat.zero_add _
  refine ⟨records, ⟨hitemsOf ▸ hcounted, fun record hrecord => ?_, fun record hrecord => ?_, ?_, ?_,
    ?_, fun entry hentry => ?_⟩, hall⟩
  · exact declaredOnce_of_known (catalog_of_walk hwalk) (hknown record hrecord)
  · exact cells_of_walk hwalk ▸ (hknown record hrecord).cell
  · show next.totals.items = _
    rw [hall, items_countAll, hzeroed]
  · show next.totals.markers = _
    rw [hall, markers_countAll, hzeroed]
  · show next.totals.waived = _
    rw [hall, waived_countAll, hzeroed]
  · have hmem := mem_countSummaries hentry
    rw [hcounts] at hmem
    rw [← countOf_of_mem hnodup hmem, hcount entry.2.1]
    exact hzeroed

/-- The accounting of the report that is read from a document: its totals are those of its items,
each of which stands in its place with exactly one of its fields and names a category and a cell
that the document declares. -/
theorem lyrdb_accounting (host : Host F D) (expectedDeck expectedTopCell : Option (List Char))
    (document : RoseTree Element) (report : Report F)
    (h : parseLyrdbStream host expectedDeck expectedTopCell document.events = .ok report) :
    Accounts host document report := by
  obtain ⟨final, hwalk, hfinish⟩ := parseLyrdbStream_eq_ok h
  obtain ⟨hsections, script, rfl⟩ := finishReport_eq_ok hfinish
  obtain ⟨⟨-, hlimits⟩, hplaces⟩ := (lyrdb_rule host).walk document trivial sound_empty hwalk
  obtain ⟨s₁, s₂, hs₁, hnone, -, -, hcontent, hkinds, -, -, -⟩ := walk_root hwalk
  rw [sections_of_walkOf hs₁ hcontent, hnone, List.nil_append] at hkinds
  obtain ⟨records, htallied, hall⟩ := tallied_of_walk script hwalk
    (hsections .items (by decide)) (hsections .categories (by decide))
  have hsum : (final.totals.counts.map Prod.snd).sum = final.totals.markers := by
    obtain ⟨-, hsum, -⟩ := counts_spec records [] List.nodup_nil
    rw [hall, counts_countAll, hsum, markers_countAll]
    rfl
  have hkept := hlimits.sum
  exact {
    placed := fun place hplace => (hplaces place hplace).2.1
    sections := fun tag htag => hkinds ▸ hsections tag htag
    cells := cells_of_walk hwalk ▸ hlimits.cells
    tallied := ⟨records, htallied⟩
    waived := by
      rw [htallied.waived, htallied.total]
      exact (List.filter_sublist.map _).sum_le_sum fun _ _ => Nat.zero_le _
    counts := fun htruncated => by
      have hall := of_decide_eq_false htruncated
      exact (sum_countSummaries (not_lt.mp hall)).trans hsum
    sorted := decreasing_countSummaries _
    summaries := by
      show (countSummaries _).length ≤ _
      rw [countSummaries, List.length_map]
      exact List.length_take_le _ _
    examples := hlimits.violations
    each := hlimits.each
    kept := (Nat.le_add_right _ _).trans hkept
    retained := hlimits.total }

/-- Numbers that stand for their floats, and texts for their digests and paths. -/
def plainHost : Host Number (List Char) where
  digits := asciiDigits
  digitValue c := c.toNat - 48
  float := some
  digest := id
  resolve := some

def field (tag text : String) : RoseTree Element :=
  .node ⟨tag.toList, ⟨some text.toList, []⟩, []⟩ []

def around (tag : String) (content : List (RoseTree Element)) : RoseTree Element :=
  .node ⟨tag.toList,
    ⟨none, content.map fun child => (child.label.tag, child.label.shown.text)⟩, []⟩ content

/-- A report with the tags section of the tool, with two markers in one item. -/
def markerDocument : RoseTree Element :=
  let category := around "category" [field "name" "M1", field "description" "width"]
  around "report-database"
    [field "generator" "drc: script='/d'", field "top-cell" "T", field "tags" "",
      around "categories" [category, category],
      around "cells" [around "cell" [field "name" "T"]],
      around "items"
        [around "item"
          [field "tags" "waived", field "category" "M1", field "cell" "T",
            field "multiplicity" "2", around "values" [field "value" "box: (0,0;1,1)"]]]]

theorem markerDocument_accounting :
    ∃ report, parseLyrdbStream plainHost none none markerDocument.events = .ok report ∧
      Accounts plainHost markerDocument report := by
  have haccepted : (parseLyrdbStream plainHost none none markerDocument.events).toOption.isSome =
      true := by
    decide +kernel
  obtain ⟨report, hreport⟩ := Except.exists_ok_of_isSome haccepted
  exact ⟨report, hreport, lyrdb_accounting plainHost none none markerDocument report hreport⟩

/-- A report is accepted with tags outside of its items and with a category declared twice. -/
theorem markerDocument_accepted :
    (parseLyrdbStream plainHost none none markerDocument.events).toOption.isSome = true ∧
      ((declarationsOf plainHost markerDocument).map Category.path) =
        [["M1".toList], ["M1".toList]] ∧
      [Tag.reportDatabase, Tag.tags] ∈ (markerDocument.places Element.kind []).map Prod.fst ∧
      [Tag.reportDatabase, Tag.tags] ≠ itemPath ++ [Tag.tags] := by
  decide +kernel

end Accounts

end OpenADA.Drc.Lyrdb
