import OpenADA.Lvs.Netgen

/-! When the native JSON of an LVS comparison passes and when it fails, and what an LVS verdict
rests on. -/
namespace OpenADA.Lvs

open PyStr

section Spec

variable {F : Type}

/-! The records a comparison array is made of, described by the JSON they are written as. -/

def countsJson (entries : DeviceCounts) : PyJson F :=
  .array (entries.map fun entry => .array [.str entry.1, .int entry.2])

def textsJson (texts : List PyStr) : PyJson F := .array (texts.map .str)

def sidesJson {α : Type} (side : α → PyJson F) (sides : α × α) : PyJson F :=
  .array [side sides.1, side sides.2]

structure WellCounted (entries : DeviceCounts) : Prop where
  named : ∀ entry ∈ entries, entry.1 ≠ []
  distinct : (entries.map Prod.fst).Nodup

structure WellPinned (pins : List PyStr) : Prop where
  named : ∀ pin ∈ pins, pin ≠ []
  distinct : pins.Nodup

/-- The object of a named comparison; its device counts stand in any order. -/
structure Named (fields : PyJson.Mapping F) (c : Comparison F) : Prop where
  names : get fields "name" = textsJson [c.names.1, c.names.2]
  named : c.names.1 ≠ [] ∧ c.names.2 ≠ []
  devices : get fields "devices" = sidesJson countsJson c.devices
  counted : WellCounted c.devices.1 ∧ WellCounted c.devices.2
  nets : get fields "nets" = .array [.int c.nets.1, .int c.nets.2]
  badnets : fields.lookup (lit "badnets") = some (.array c.badnets)
  badelements : fields.lookup (lit "badelements") = some (.array c.badelements)
  properties : fields.lookup (lit "properties") = some (.array c.properties) ∨
    fields.lookup (lit "properties") = none ∧ c.properties = []
  pins : (∃ sides, c.pins = some sides ∧
      fields.lookup (lit "pins") = some (sidesJson textsJson sides) ∧
        WellPinned sides.1 ∧ WellPinned sides.2) ∨
    c.pins = none ∧ (fields.lookup (lit "pins") = none ∨ fields.lookup (lit "pins") = some .null)

inductive Shaped : PyJson F → Record F → Prop where
  | unnamed {fields : PyJson.Mapping F} {left right : List PyStr} (honly : isPinsOnly fields = true)
      (hpins : get fields "pins" = sidesJson textsJson (left, right)) (hleft : WellPinned left)
      (hright : WellPinned right) : Shaped (.object fields) (.pinPair left right)
  | named {fields : PyJson.Mapping F} {c : Comparison F} (hknown : hasKnownKeys fields = true)
      (hmore : isPinsOnly fields = false) (hnamed : Named fields c) :
      Shaped (.object fields) (.comparison c)

structure Comparison.EqualSides (c : Comparison F) : Prop where
  devices : c.devices.1.Perm c.devices.2
  nets : c.nets.1 = c.nets.2
  pins : ∀ sides, c.pins = some sides → sides.1 = sides.2
  badnets : c.badnets = []
  badelements : c.badelements = []
  properties : c.properties = []

def Record.EqualSides : Record F → Prop
  | .pinPair left right => left = right
  | .comparison c => c.EqualSides

def Record.isTop (expectedCell : PyStr) : Record F → Bool
  | .pinPair _ _ => false
  | .comparison c => c.isTop expectedCell

def Record.hasPins : Record F → Prop
  | .pinPair _ _ => True
  | .comparison c => c.pins ≠ none

def Record.IsUnnamed : Record F → Prop
  | .pinPair _ _ => True
  | .comparison _ => False

structure ComparisonArray [PyFloat F] (expectedCell : PyStr) (value : PyJson F)
    (records : List (Record F)) : Prop where
  items : ∃ items, value = .array items ∧ items ≠ [] ∧ items.length ≤ maxComparisons ∧
    List.Forall₂ Shaped items records
  bounded : boundedJsonShape value = true
  top : (records.countP (Record.isTop expectedCell)) = 1

end Spec

section Readers

variable {F : Type}

theorem pairOf_eq_ok {α : Type} {message : String} {side : PyJson F → Except String α}
    {value : PyJson F} {sides : α × α} :
    pairOf message side value = .ok sides ↔
      ∃ left right, value = .array [left, right] ∧ side left = .ok sides.1 ∧
        side right = .ok sides.2 := by
  constructor
  · intro h
    unfold pairOf at h
    split at h
    · rename_i left right
      obtain ⟨a, ha, h⟩ := Except.bind_eq_ok.mp h
      obtain ⟨b, hb, h⟩ := Except.bind_eq_ok.mp h
      obtain rfl := Except.ok.inj h
      exact ⟨left, right, rfl, ha, hb⟩
    · cases h
  · rintro ⟨left, right, rfl, hleft, hright⟩
    rw [pairOf, hleft, Except.ok_bind, hright]
    rfl

/-- A mapped reader gives a list exactly when the items are what the list is written as. -/
theorem mapM_read {α : Type} {read : PyJson F → Except String α} {write : α → PyJson F}
    {good : α → Prop} (hread : ∀ item a, read item = .ok a ↔ item = write a ∧ good a)
    {items : List (PyJson F)} {out : List α} :
    items.mapM read = .ok out ↔ items = out.map write ∧ ∀ a ∈ out, good a := by
  rw [Except.mapM_eq_ok]
  induction out generalizing items with
  | nil => simp
  | cons a out ih =>
    constructor
    · intro h
      obtain ⟨item, rest, hitem, hrest, rfl⟩ := List.forall₂_cons_right_iff.mp h
      obtain ⟨rfl, ha⟩ := (hread item a).mp hitem
      obtain ⟨rfl, hgood⟩ := ih.mp hrest
      exact ⟨rfl, List.forall_mem_cons.mpr ⟨ha, hgood⟩⟩
    · rintro ⟨rfl, hgood⟩
      obtain ⟨ha, hgood⟩ := List.forall_mem_cons.mp hgood
      exact .cons ((hread _ _).mpr ⟨rfl, ha⟩) (ih.mpr ⟨rfl, hgood⟩)

theorem deviceCount_eq_ok {item : PyJson F} {entry : PyStr × ℕ} :
    deviceCount item = .ok entry ↔
      item = .array [.str entry.1, .int entry.2] ∧ entry.1 ≠ [] := by
  constructor
  · intro h
    unfold deviceCount at h
    split at h
    · rename_i name count
      split at h
      · rename_i hvalid
        obtain rfl := Except.ok.inj h
        refine ⟨?_, hvalid.1⟩
        rw [Int.toNat_of_nonneg hvalid.2]
      · cases h
    · cases h
  · rintro ⟨rfl, hname⟩
    rw [deviceCount, if_pos ⟨hname, Int.natCast_nonneg _⟩, Int.toNat_natCast]

theorem deviceEntries_eq_ok {value : PyJson F} {entries : DeviceCounts} :
    deviceEntries value = .ok entries ↔ value = countsJson entries ∧ WellCounted entries := by
  constructor
  · intro h
    unfold deviceEntries at h
    split at h
    · rename_i items
      obtain ⟨read, hread, h⟩ := Except.bind_eq_ok.mp h
      split at h
      · rename_i hdistinct
        obtain rfl := Except.ok.inj h
        obtain ⟨rfl, hnamed⟩ := (mapM_read fun _ _ => deviceCount_eq_ok).mp hread
        exact ⟨rfl, hnamed, hdistinct⟩
      · cases h
    · cases h
  · rintro ⟨rfl, hnamed, hdistinct⟩
    rw [countsJson, deviceEntries, (mapM_read fun _ _ => deviceCount_eq_ok).mpr ⟨rfl, hnamed⟩,
      Except.ok_bind, if_pos hdistinct]

theorem nonemptyText_eq_ok {message : String} {item : PyJson F} {text : PyStr} :
    nonemptyText message item = .ok text ↔ item = .str text ∧ text ≠ [] := by
  constructor
  · intro h
    unfold nonemptyText at h
    split at h
    · split at h
      · rename_i hne
        obtain rfl := Except.ok.inj h
        exact ⟨rfl, hne⟩
      · cases h
    · cases h
  · rintro ⟨rfl, hne⟩
    exact if_pos hne

theorem pinSide_eq_ok {value : PyJson F} {pins : List PyStr} :
    pinSide value = .ok pins ↔ value = textsJson pins ∧ WellPinned pins := by
  constructor
  · intro h
    unfold pinSide at h
    split at h
    · obtain ⟨read, hread, h⟩ := Except.bind_eq_ok.mp h
      split at h
      · rename_i hdistinct
        obtain rfl := Except.ok.inj h
        obtain ⟨rfl, hnamed⟩ := (mapM_read fun _ _ => nonemptyText_eq_ok).mp hread
        exact ⟨rfl, hnamed, hdistinct⟩
      · cases h
    · cases h
  · rintro ⟨rfl, hnamed, hdistinct⟩
    rw [textsJson, pinSide, (mapM_read fun _ _ => nonemptyText_eq_ok).mpr ⟨rfl, hnamed⟩,
      Except.ok_bind, if_pos hdistinct]

theorem pairedStrings_eq_ok {value : PyJson F} {sides : List PyStr × List PyStr} :
    pairedStrings value = .ok sides ↔
      value = sidesJson textsJson sides ∧ WellPinned sides.1 ∧ WellPinned sides.2 := by
  unfold pairedStrings
  rw [pairOf_eq_ok]
  constructor
  · rintro ⟨left, right, rfl, hleft, hright⟩
    obtain ⟨rfl, hl⟩ := pinSide_eq_ok.mp hleft
    obtain ⟨rfl, hr⟩ := pinSide_eq_ok.mp hright
    exact ⟨rfl, hl, hr⟩
  · rintro ⟨rfl, hleft, hright⟩
    exact ⟨_, _, rfl, pinSide_eq_ok.mpr ⟨rfl, hleft⟩, pinSide_eq_ok.mpr ⟨rfl, hright⟩⟩

theorem pairedNonnegativeCounts_eq_ok {value : PyJson F} {sorted : DeviceCounts × DeviceCounts} :
    pairedNonnegativeCounts value = .ok sorted ↔ ∃ sides, value = sidesJson countsJson sides ∧
      WellCounted sides.1 ∧ WellCounted sides.2 ∧
        sorted = (sortedCounts sides.1, sortedCounts sides.2) := by
  unfold pairedNonnegativeCounts
  rw [Except.bind_eq_ok]
  constructor
  · rintro ⟨sides, hsides, h⟩
    obtain ⟨left, right, rfl, hleft, hright⟩ := pairOf_eq_ok.mp hsides
    obtain ⟨rfl, hl⟩ := deviceEntries_eq_ok.mp hleft
    obtain ⟨rfl, hr⟩ := deviceEntries_eq_ok.mp hright
    exact ⟨sides, rfl, hl, hr, (Except.ok.inj h).symm⟩
  · rintro ⟨sides, rfl, hleft, hright, rfl⟩
    exact ⟨sides, pairOf_eq_ok.mpr ⟨_, _, rfl, deviceEntries_eq_ok.mpr ⟨rfl, hleft⟩,
      deviceEntries_eq_ok.mpr ⟨rfl, hright⟩⟩, rfl⟩

theorem netCount_eq_ok {item : PyJson F} {n : ℕ} : netCount item = .ok n ↔ item = .int n := by
  constructor
  · intro h
    unfold netCount at h
    split at h
    · split at h
      · rename_i hnonneg
        obtain rfl := Except.ok.inj h
        rw [Int.toNat_of_nonneg hnonneg]
      · cases h
    · cases h
  · rintro rfl
    rw [netCount, if_pos (Int.natCast_nonneg _), Int.toNat_natCast]

theorem listField_eq_ok {message : String} {value : Option (PyJson F)} {items : List (PyJson F)} :
    listField message value = .ok items ↔ value = some (.array items) := by
  constructor
  · intro h
    unfold listField at h
    split at h
    · rw [Except.ok.inj h]
    · cases h
  · rintro rfl
    rfl

theorem propertyList_eq_ok {value : Option (PyJson F)} {items : List (PyJson F)} :
    propertyList value = .ok items ↔ value = some (.array items) ∨ value = none ∧ items = [] := by
  cases value with
  | none =>
    constructor
    · exact fun h => .inr ⟨rfl, (Except.ok.inj h).symm⟩
    · rintro (h | ⟨-, rfl⟩)
      · cases h
      · rfl
  | some value =>
    rw [propertyList, listField_eq_ok]
    exact ⟨.inl, fun h => h.resolve_right fun h => nomatch h.1⟩

theorem optionalPins_eq_ok {value : Option (PyJson F)} {pins : Option (List PyStr × List PyStr)} :
    optionalPins value = .ok pins ↔
      (∃ sides, pins = some sides ∧ value = some (sidesJson textsJson sides) ∧
        WellPinned sides.1 ∧ WellPinned sides.2) ∨
      pins = none ∧ (value = none ∨ value = some .null) := by
  constructor
  · intro h
    unfold optionalPins at h
    split at h
    · exact .inr ⟨(Except.ok.inj h).symm, .inl rfl⟩
    · exact .inr ⟨(Except.ok.inj h).symm, .inr rfl⟩
    · rename_i value _
      cases hsides : pairedStrings value with
      | error message =>
        rw [hsides] at h
        cases h
      | ok sides =>
        rw [hsides] at h
        obtain ⟨rfl, hwell⟩ := pairedStrings_eq_ok.mp hsides
        exact .inl ⟨sides, (Except.ok.inj h).symm, rfl, hwell⟩
  · rintro (⟨sides, rfl, rfl, hwell⟩ | ⟨rfl, rfl | rfl⟩)
    · show (pairedStrings _).map some = _
      rw [pairedStrings_eq_ok.mpr ⟨rfl, hwell⟩]
      rfl
    · rfl
    · rfl

/-- A comparison with the device counts in the order the reader puts them. -/
def Comparison.sorted (c : Comparison F) : Comparison F :=
  { c with devices := (sortedCounts c.devices.1, sortedCounts c.devices.2) }

theorem readComparison_eq_ok {fields : PyJson.Mapping F} {read : Comparison F} :
    readComparison fields = .ok read ↔ ∃ c, Named fields c ∧ read = c.sorted := by
  constructor
  · intro h
    unfold readComparison at h
    obtain ⟨names, hnames, h⟩ := Except.bind_eq_ok.mp h
    obtain ⟨devices, hdevices, h⟩ := Except.bind_eq_ok.mp h
    obtain ⟨nets, hnets, h⟩ := Except.bind_eq_ok.mp h
    obtain ⟨badnets, hbadnets, h⟩ := Except.bind_eq_ok.mp h
    obtain ⟨badelements, hbadelements, h⟩ := Except.bind_eq_ok.mp h
    obtain ⟨properties, hproperties, h⟩ := Except.bind_eq_ok.mp h
    obtain ⟨pins, hpins, h⟩ := Except.bind_eq_ok.mp h
    obtain rfl := Except.ok.inj h
    obtain ⟨left, right, hname, hleft, hright⟩ := pairOf_eq_ok.mp hnames
    obtain ⟨rfl, hl⟩ := nonemptyText_eq_ok.mp hleft
    obtain ⟨rfl, hr⟩ := nonemptyText_eq_ok.mp hright
    obtain ⟨sides, hsides, hcl, hcr, rfl⟩ := pairedNonnegativeCounts_eq_ok.mp hdevices
    obtain ⟨first, second, hnet, hfirst, hsecond⟩ := pairOf_eq_ok.mp hnets
    obtain rfl := netCount_eq_ok.mp hfirst
    obtain rfl := netCount_eq_ok.mp hsecond
    exact ⟨⟨names, sides, nets, badnets, badelements, properties, pins⟩,
      ⟨hname, ⟨hl, hr⟩, hsides, ⟨hcl, hcr⟩, hnet, listField_eq_ok.mp hbadnets,
        listField_eq_ok.mp hbadelements, propertyList_eq_ok.mp hproperties,
        optionalPins_eq_ok.mp hpins⟩, rfl⟩
  · rintro ⟨c, hc, rfl⟩
    unfold readComparison
    rw [pairOf_eq_ok.mpr ⟨_, _, hc.names, nonemptyText_eq_ok.mpr ⟨rfl, hc.named.1⟩,
        nonemptyText_eq_ok.mpr ⟨rfl, hc.named.2⟩⟩, Except.ok_bind,
      pairedNonnegativeCounts_eq_ok.mpr ⟨c.devices, hc.devices, hc.counted.1, hc.counted.2, rfl⟩,
      Except.ok_bind, pairOf_eq_ok.mpr ⟨_, _, hc.nets, netCount_eq_ok.mpr rfl,
        netCount_eq_ok.mpr rfl⟩, Except.ok_bind, listField_eq_ok.mpr hc.badnets, Except.ok_bind,
      listField_eq_ok.mpr hc.badelements, Except.ok_bind, propertyList_eq_ok.mpr hc.properties,
      Except.ok_bind, optionalPins_eq_ok.mpr hc.pins]
    rfl

def Record.sorted : Record F → Record F
  | .pinPair left right => .pinPair left right
  | .comparison c => .comparison c.sorted

/-- A record is read exactly where its shape is right and, if it is unnamed, its sides are equal. -/
theorem readRecord_eq_ok {item : PyJson F} {read : Record F} :
    readRecord item = .ok read ↔ ∃ record, Shaped item record ∧
      (record.IsUnnamed → record.EqualSides) ∧ read = record.sorted := by
  constructor
  · intro h
    unfold readRecord at h
    split at h
    · rename_i fields
      split_ifs at h with hknown honly
      · obtain ⟨⟨left, right⟩, hpins, h⟩ := Except.bind_eq_ok.mp h
        simp only at h
        split_ifs at h with hequal
        obtain rfl := Except.ok.inj h
        obtain ⟨hfield, hleft, hright⟩ := pairedStrings_eq_ok.mp hpins
        exact ⟨.pinPair left right, .unnamed honly hfield hleft hright, fun _ => hequal, rfl⟩
      · cases hread : readComparison fields with
        | error message =>
          rw [hread] at h
          cases h
        | ok comparison =>
          rw [hread] at h
          obtain ⟨c, hc, rfl⟩ := readComparison_eq_ok.mp hread
          exact ⟨.comparison c, .named (Bool.eq_true_of_not_eq_false hknown)
            (Bool.eq_false_of_not_eq_true honly) hc, fun h => h.elim, (Except.ok.inj h).symm⟩
    · cases h
  · rintro ⟨record, hshape, hequal, rfl⟩
    cases hshape with
    | @unnamed fields left right honly hpins hleft hright =>
      have hknown : hasKnownKeys fields = true := by
        unfold hasKnownKeys
        rw [List.all_eq_true]
        intro entry hentry
        have hkey := List.all_eq_true.mp (Bool.and_eq_true_iff.mp honly).2 entry hentry
        exact List.any_eq_true.mpr ⟨"pins", by simp [knownKeys], hkey⟩
      rw [readRecord, if_neg (by rw [hknown]; exact Bool.true_eq_false.mp), if_pos honly,
        pairedStrings_eq_ok.mpr ⟨hpins, hleft, hright⟩, Except.ok_bind]
      exact if_pos (hequal trivial)
    | @named fields c hknown hmore hnamed =>
      rw [readRecord, if_neg (by rw [hknown]; exact Bool.true_eq_false.mp),
        if_neg (by rw [hmore]; exact Bool.false_ne_true), readComparison_eq_ok.mpr ⟨c, hnamed, rfl⟩]
      rfl

theorem mapM_readRecord_eq_ok {items : List (PyJson F)} {read : List (Record F)} :
    items.mapM readRecord = .ok read ↔ ∃ records, List.Forall₂ Shaped items records ∧
      (∀ record ∈ records, record.IsUnnamed → record.EqualSides) ∧
        read = records.map Record.sorted := by
  rw [Except.mapM_eq_ok]
  constructor
  · intro h
    induction h with
    | nil => exact ⟨[], .nil, by simp, rfl⟩
    | cons hitem hrest ih =>
      obtain ⟨records, hshaped, hequal, rfl⟩ := ih
      obtain ⟨record, hshape, hunnamed, rfl⟩ := readRecord_eq_ok.mp hitem
      exact ⟨record :: records, .cons hshape hshaped,
        List.forall_mem_cons.mpr ⟨hunnamed, hequal⟩, rfl⟩
  · rintro ⟨records, hshaped, hequal, rfl⟩
    rw [List.forall₂_map_right_iff]
    induction hshaped with
    | nil => exact .nil
    | cons hshape hrest ih =>
      obtain ⟨hfirst, hmore⟩ := List.forall_mem_cons.mp hequal
      exact .cons (readRecord_eq_ok.mpr ⟨_, hshape, hfirst, rfl⟩) (ih hmore)

end Readers

section Sorting

theorem countLe_total (a b : PyStr × ℕ) : countLe a b = true ∨ countLe b a = true := by
  by_cases hname : a.1 = b.1
  · have hself := or_self_iff.mp (PyStr.le_total b.1 b.1)
    simp only [countLe, hname, hself, Bool.true_and, ne_eq, not_true_eq_false, decide_false,
      Bool.false_or, decide_eq_true_eq]
    exact Nat.le_total a.2 b.2
  · have hname' : ¬ b.1 = a.1 := fun h => hname h.symm
    simp only [countLe, ne_eq, hname, hname', not_false_eq_true, decide_true, Bool.true_or,
      Bool.and_true]
    exact PyStr.le_total a.1 b.1

theorem countLe_antisymm {a b : PyStr × ℕ} (h : countLe a b = true) (h' : countLe b a = true) :
    a = b := by
  simp only [countLe, Bool.and_eq_true, Bool.or_eq_true, decide_eq_true_eq] at h h'
  have hname : a.1 = b.1 := PyStr.le_antisymm h.1 h'.1
  have hle : a.2 ≤ b.2 := h.2.resolve_left fun hne => hne hname
  have hge : b.2 ≤ a.2 := h'.2.resolve_left fun hne => hne hname.symm
  exact Prod.ext hname (Nat.le_antisymm hle hge)

theorem countLe_trans {a b c : PyStr × ℕ} (h : countLe a b = true) (h' : countLe b c = true) :
    countLe a c = true := by
  simp only [countLe, Bool.and_eq_true, Bool.or_eq_true, decide_eq_true_eq] at h h' ⊢
  refine ⟨PyStr.le_trans h.1 h'.1, ?_⟩
  by_cases hname : a.1 = c.1
  · -- a name between two equal names is that name
    have hb : b.1 = c.1 := PyStr.le_antisymm h'.1 (hname ▸ h.1)
    have hab : a.2 ≤ b.2 := h.2.resolve_left fun hne => hne (hname.trans hb.symm)
    have hbc : b.2 ≤ c.2 := h'.2.resolve_left fun hne => hne hb
    exact .inr (hab.trans hbc)
  · exact .inl hname

instance : Std.Total fun a b : PyStr × ℕ => countLe a b = true := ⟨countLe_total⟩

instance : IsTrans (PyStr × ℕ) fun a b => countLe a b = true := ⟨fun _ _ _ => countLe_trans⟩

instance : Std.Antisymm fun a b : PyStr × ℕ => countLe a b = true :=
  ⟨fun _ _ => countLe_antisymm⟩

theorem sortedCounts_eq_iff {a b : DeviceCounts} : sortedCounts a = sortedCounts b ↔ a.Perm b := by
  have hperm (entries : DeviceCounts) : (sortedCounts entries).Perm entries :=
    List.perm_insertionSort _ entries
  constructor
  · intro h
    exact (hperm a).symm.trans (h ▸ hperm b)
  · intro h
    have hsorted : (sortedCounts a).Perm (sortedCounts b) :=
      ((hperm a).trans h).trans (hperm b).symm
    exact hsorted.eq_of_pairwise' (List.pairwise_insertionSort _ a) (List.pairwise_insertionSort _ b)

end Sorting

section Reasons

variable {F : Type}

theorem differingPins_eq_false {c : Comparison F} :
    c.differingPins = false ↔ ∀ sides, c.pins = some sides → sides.1 = sides.2 := by
  unfold Comparison.differingPins
  cases hpins : c.pins with
  | none => simp
  | some sides => simp

theorem reasons_eq_nil {c : Comparison F} : c.sorted.reasons = [] ↔ c.EqualSides := by
  have hpins : c.sorted.differingPins = c.differingPins := rfl
  have hdevices : c.sorted.devices.1 = c.sorted.devices.2 ↔ c.devices.1.Perm c.devices.2 :=
    sortedCounts_eq_iff
  simp only [Comparison.reasons, List.append_eq_nil_iff, ite_eq_right_iff, ite_eq_left_iff,
    List.cons_ne_nil, imp_false, not_not, ne_eq, List.isEmpty_iff, hpins, hdevices,
    Bool.not_eq_true, differingPins_eq_false]
  constructor
  · rintro ⟨⟨⟨⟨⟨hdevices, hnets⟩, hpins⟩, hbadnets⟩, hbadelements⟩, hproperties⟩
    exact ⟨hdevices, hnets, hpins, hbadnets, hbadelements, hproperties⟩
  · intro h
    exact ⟨⟨⟨⟨⟨h.devices, h.nets⟩, h.pins⟩, h.badnets⟩, h.badelements⟩, h.properties⟩

def Record.defects (expectedCell : PyStr) : Record F → ℕ
  | .pinPair _ _ => 0
  | .comparison c => c.reasons.length +
      if c.isTop expectedCell = true ∧ c.pins = none then 1 else 0

theorem count_mismatchCount (expectedCell : PyStr) (tally : Tally F) (index : ℕ)
    (record : Record F) : (tally.count expectedCell index record).mismatchCount =
      tally.mismatchCount + record.defects expectedCell := by
  cases record with
  | pinPair left right => rfl
  | comparison c =>
    simp only [Tally.count, Record.defects]
    cases htop : c.isTop expectedCell with
    | false => simp [Tally.note]
    | true =>
      cases hpins : c.pins with
      | none => simp [Tally.note, Nat.add_assoc]
      | some sides => simp [Tally.note]

theorem count_topMatches (expectedCell : PyStr) (tally : Tally F) (index : ℕ)
    (record : Record F) : (tally.count expectedCell index record).topMatches =
      tally.topMatches + if record.isTop expectedCell then 1 else 0 := by
  cases record with
  | pinPair left right => rfl
  | comparison c =>
    by_cases htop : c.isTop expectedCell = true
    · cases hpins : c.pins <;> simp [Tally.count, Record.isTop, Tally.note, htop, hpins]
    · simp [Tally.count, Record.isTop, Tally.note, htop]

/-- The loop reads every record, and counts the mismatches and the requested comparisons. -/
theorem foldlM_stepRecord {expectedCell : PyStr} {items : List (PyJson F)} {start : ℕ}
    {tally out : Tally F} :
    (items.zipIdx start).foldlM (stepRecord expectedCell) tally = .ok out →
      ∃ read, items.mapM readRecord = .ok read ∧
        out.mismatchCount = tally.mismatchCount + (read.map (Record.defects expectedCell)).sum ∧
        out.topMatches = tally.topMatches + read.countP (Record.isTop expectedCell) := by
  induction items generalizing start tally with
  | nil =>
    intro h
    obtain rfl := Except.foldlM_nil_eq_ok.mp h
    exact ⟨[], rfl, rfl, rfl⟩
  | cons item rest ih =>
    intro h
    rw [List.zipIdx_cons] at h
    obtain ⟨next, hnext, hrest⟩ := Except.foldlM_cons_eq_ok.mp h
    obtain ⟨record, hrecord, hcount⟩ := Except.bind_eq_ok.mp hnext
    obtain rfl := Except.ok.inj hcount
    obtain ⟨read, hread, hmismatches, htop⟩ := ih hrest
    refine ⟨record :: read, ?_, ?_, ?_⟩
    · exact Except.mapM_eq_ok.mpr (.cons hrecord (Except.mapM_eq_ok.mp hread))
    · rw [hmismatches, count_mismatchCount, List.map_cons, List.sum_cons, Nat.add_assoc]
    · rw [htop, count_topMatches, List.countP_cons]
      omega

theorem foldlM_stepRecord_total {expectedCell : PyStr} {items : List (PyJson F)} {start : ℕ}
    {tally : Tally F} {read : List (Record F)} (h : items.mapM readRecord = .ok read) :
    ∃ out, (items.zipIdx start).foldlM (stepRecord expectedCell) tally = .ok out := by
  induction items generalizing start tally read with
  | nil => exact ⟨tally, rfl⟩
  | cons item rest ih =>
    obtain ⟨record, records, hrecord, hrecords, rfl⟩ :=
      List.forall₂_cons_left_iff.mp (Except.mapM_eq_ok.mp h)
    obtain ⟨out, hout⟩ := @ih (start + 1) (tally.count expectedCell start record) _
      (Except.mapM_eq_ok.mpr hrecords)
    refine ⟨out, ?_⟩
    rw [List.zipIdx_cons, List.foldlM_cons]
    show (readRecord item >>= fun record => _) >>= _ = _
    rw [hrecord]
    exact hout

theorem isTop_sorted (expectedCell : PyStr) (record : Record F) :
    record.sorted.isTop expectedCell = record.isTop expectedCell := by
  cases record <;> rfl

/-- A record adds no mismatch exactly where its sides are equal and a requested one has pins. -/
theorem defects_sorted {expectedCell : PyStr} {record : Record F} :
    record.sorted.defects expectedCell = 0 ↔ ((¬ record.IsUnnamed → record.EqualSides) ∧
      (record.isTop expectedCell = true → record.hasPins)) := by
  cases record with
  | pinPair left right => simp [Record.sorted, Record.defects, Record.IsUnnamed, Record.isTop]
  | comparison c =>
    show c.sorted.reasons.length + (if c.isTop expectedCell = true ∧ c.pins = none then 1 else 0) = 0
      ↔ _
    rw [Nat.add_eq_zero_iff, List.length_eq_zero_iff, reasons_eq_nil]
    simp [Record.IsUnnamed, Record.EqualSides, Record.isTop, Record.hasPins]

end Reasons

section Verdicts

variable {F : Type} [PyFloat F]

def jsonOutcome (expectedCell : PyStr) (value : PyJson F) : Outcome :=
  match parseNetgenJson expectedCell value with
  | .ok evidence => evidence.outcome
  | .error _ => .unknown

def Matching (expectedCell : PyStr) (records : List (Record F)) : Prop :=
  (∀ record ∈ records, record.EqualSides) ∧
    ∀ record ∈ records, record.isTop expectedCell = true → record.hasPins

/-- The equalities of the unnamed records hold, and one of a named record fails or the requested
comparison has no pins. -/
def Mismatching (expectedCell : PyStr) (records : List (Record F)) : Prop :=
  (∀ record ∈ records, record.IsUnnamed → record.EqualSides) ∧ ¬ Matching expectedCell records

/-- A value is assessed exactly where it is a comparison array with equal unnamed records, and then
by the mismatches of its records. -/
theorem assessComparisons_eq_ok {expectedCell : PyStr} {value : PyJson F} {tally : Tally F}
    (h : assessComparisons expectedCell value = .ok tally) : ∃ records,
      ComparisonArray expectedCell value records ∧
        (∀ record ∈ records, record.IsUnnamed → record.EqualSides) ∧
        tally.mismatchCount = (records.map fun record =>
          record.sorted.defects expectedCell).sum := by
  unfold assessComparisons at h
  split_ifs at h with hbounded
  split at h
  · rename_i items
    split_ifs at h with hcount
    obtain ⟨counted, hfold, h⟩ := Except.bind_eq_ok.mp h
    split_ifs at h with htop
    obtain rfl := Except.ok.inj h
    obtain ⟨read, hread, hmismatches, hmatches⟩ := foldlM_stepRecord hfold
    obtain ⟨records, hshaped, hequal, rfl⟩ := mapM_readRecord_eq_ok.mp hread
    refine ⟨records, ⟨⟨items, rfl, ?_, ?_, hshaped⟩, Bool.eq_true_of_not_eq_false hbounded, ?_⟩,
      hequal, ?_⟩
    · rintro rfl
      exact hcount (.inl rfl)
    · exact Nat.le_of_not_lt fun hlt => hcount (.inr hlt)
    · rw [hmatches, List.countP_map] at htop
      simpa [Tally.empty, Function.comp_def, isTop_sorted] using htop
    · rw [hmismatches, List.map_map]
      simp [Tally.empty, Function.comp_def]
  · cases h

theorem assessComparisons_total {expectedCell : PyStr} {value : PyJson F} {records : List (Record F)}
    (harray : ComparisonArray expectedCell value records)
    (hequal : ∀ record ∈ records, record.IsUnnamed → record.EqualSides) :
    ∃ tally, assessComparisons expectedCell value = .ok tally ∧
      tally.mismatchCount = (records.map fun record => record.sorted.defects expectedCell).sum := by
  obtain ⟨⟨items, rfl, hne, hlength, hshaped⟩, hbounded, htop⟩ := harray
  have hread : items.mapM readRecord = .ok (records.map Record.sorted) :=
    mapM_readRecord_eq_ok.mpr ⟨records, hshaped, hequal, rfl⟩
  obtain ⟨tally, htally⟩ := @foldlM_stepRecord_total _ expectedCell _ 0 Tally.empty _ hread
  obtain ⟨read, hread', hmismatches, hmatches⟩ := foldlM_stepRecord htally
  obtain rfl := Except.ok.inj (hread'.symm.trans hread)
  refine ⟨tally, ?_, ?_⟩
  · unfold assessComparisons
    rw [if_neg (by rw [hbounded]; exact Bool.true_eq_false.mp)]
    simp only
    rw [if_neg (by simp [hne, hlength]), htally, Except.ok_bind, if_pos]
    rw [hmatches, List.countP_map]
    simpa [Tally.empty, Function.comp_def, isTop_sorted] using htop
  · rw [hmismatches, List.map_map]
    simp [Tally.empty, Function.comp_def]

omit [PyFloat F] in
theorem matching_iff {expectedCell : PyStr} {records : List (Record F)}
    (hequal : ∀ record ∈ records, record.IsUnnamed → record.EqualSides) :
    (records.map fun record => record.sorted.defects expectedCell).sum = 0 ↔
      Matching expectedCell records := by
  rw [List.sum_eq_zero_iff]
  simp only [List.forall_mem_map, defects_sorted]
  constructor
  · intro h
    refine ⟨fun record hrecord => ?_, fun record hrecord => (h record hrecord).2⟩
    by_cases hunnamed : record.IsUnnamed
    · exact hequal record hrecord hunnamed
    · exact (h record hrecord).1 hunnamed
  · exact fun h record hrecord => ⟨fun _ => h.1 record hrecord, h.2 record hrecord⟩

/-- A value is assessed by its records, and every other value is unknown. -/
theorem jsonOutcome_cases (expectedCell : PyStr) (value : PyJson F) :
    (∃ records, ComparisonArray expectedCell value records ∧
        (∀ record ∈ records, record.IsUnnamed → record.EqualSides) ∧
        (jsonOutcome expectedCell value = .pass ∧ Matching expectedCell records ∨
          jsonOutcome expectedCell value = .fail ∧ ¬ Matching expectedCell records)) ∨
      jsonOutcome expectedCell value = .unknown ∧ ¬ ∃ records,
        ComparisonArray expectedCell value records ∧
          ∀ record ∈ records, record.IsUnnamed → record.EqualSides := by
  cases hassess : assessComparisons expectedCell value with
  | error message =>
    refine .inr ⟨?_, ?_⟩
    · simp only [jsonOutcome, parseNetgenJson, hassess, Except.map]
    · rintro ⟨records, harray, hequal⟩
      obtain ⟨tally, htally, -⟩ := assessComparisons_total harray hequal
      rw [hassess] at htally
      cases htally
  | ok tally =>
    obtain ⟨records, harray, hequal, hcount⟩ := assessComparisons_eq_ok hassess
    have hmatching := @matching_iff _ expectedCell _ hequal
    refine .inl ⟨records, harray, hequal, ?_⟩
    rw [← hcount] at hmatching
    simp only [jsonOutcome, parseNetgenJson, hassess, Except.map, Tally.evidence]
    by_cases h : Matching expectedCell records
    · exact .inl ⟨if_pos (hmatching.mpr h), h⟩
    · exact .inr ⟨if_neg fun hzero => h (hmatching.mp hzero), h⟩

theorem matching_of_array {expectedCell : PyStr} {value : PyJson F} {a b : List (Record F)}
    (ha : ComparisonArray expectedCell value a)
    (hequal : ∀ record ∈ a, record.IsUnnamed → record.EqualSides)
    (hb : ComparisonArray expectedCell value b)
    (hequal' : ∀ record ∈ b, record.IsUnnamed → record.EqualSides) :
    Matching expectedCell a ↔ Matching expectedCell b := by
  obtain ⟨tally, htally, hcount⟩ := assessComparisons_total ha hequal
  obtain ⟨tally', htally', hcount'⟩ := assessComparisons_total hb hequal'
  obtain rfl := Except.ok.inj (htally.symm.trans htally')
  rw [← matching_iff hequal, ← matching_iff hequal', ← hcount, ← hcount']

theorem parseNetgenJsonStream_outcome (floatText : PyStr → F) (expectedCell : PyStr)
    {body : ByteArray} {value : PyJson F} (hsize : body.size ≤ maxJsonBytes)
    (hvalue : JsonReader.loads (netgenHooks floatText) body = .ok value) :
    (parseNetgenJsonStream floatText expectedCell body.size body).outcome =
      jsonOutcome expectedCell value := by
  have hne : body.size ≠ 0 := by
    intro h
    obtain rfl : body = ByteArray.empty := ByteArray.size_eq_zero_iff.mp h
    cases hvalue
  unfold parseNetgenJsonStream jsonOutcome
  rw [if_neg hne, if_neg (Nat.not_lt.mpr hsize),
    if_neg (fun h => h.elim (fun h => h rfl) (Nat.not_lt.mpr hsize)), hvalue]
  simp only [Except.bind]
  cases parseNetgenJson expectedCell value <;> rfl

theorem parseNetgenJsonStream_unknown (floatText : PyStr → F) (expectedCell : PyStr) {size : ℕ}
    {body : ByteArray} (h : maxJsonBytes < size ∨ body.size ≠ size ∨
      ∃ message, JsonReader.loads (netgenHooks floatText) body = .error message) :
    (parseNetgenJsonStream floatText expectedCell size body).outcome = .unknown := by
  unfold parseNetgenJsonStream
  split_ifs with hzero hlarge hbody
  · rfl
  · rfl
  · rfl
  · rcases h with h | h | ⟨message, h⟩
    · exact absurd h hlarge
    · exact absurd (.inl h) hbody
    · rw [h]
      rfl

end Verdicts

section Evidence

theorem twoSided_eq_true {counts : Option (List ℕ)} (h : twoSided counts = true) :
    ∃ left right, counts = some [left, right] := by
  obtain ⟨sides, rfl, hlength⟩ := (Option.any_eq_true _ _).mp h
  obtain ⟨left, right, rfl⟩ := List.length_eq_two.mp (of_decide_eq_true hlength)
  exact ⟨left, right, rfl⟩

/-- The two documents agree on the device totals and the net counts of both sides. -/
def LvsRun.CountsCoincide (run : LvsRun) : Prop :=
  ∃ report evidence devices nets, run.nativeReport = some report ∧
    run.jsonEvidence = some evidence ∧ evidence.deviceCounts = some devices ∧
    report.deviceCounts = some [total devices.1, total devices.2] ∧
    evidence.nodeCounts = some nets ∧ report.nodeCounts = some [nets.1, nets.2]

theorem countsCoincide_of_agree {run : LvsRun} (h : run.structuralCountsAgree = true) :
    run.CountsCoincide := by
  simp only [LvsRun.structuralCountsAgree, Bool.and_eq_true, decide_eq_true_eq] at h
  obtain ⟨⟨⟨hdevices, hdevicesEq⟩, hnodes⟩, hnodesEq⟩ := h
  obtain ⟨left, right, hsides⟩ := twoSided_eq_true hdevices
  obtain ⟨first, second, hnets⟩ := twoSided_eq_true hnodes
  obtain ⟨report, hreport, hreportDevices⟩ := Option.bind_eq_some_iff.mp hsides
  obtain ⟨report', hreport', hreportNodes⟩ := Option.bind_eq_some_iff.mp hnets
  obtain rfl := Option.some.inj (hreport.symm.trans hreport')
  rw [hsides] at hdevicesEq
  rw [hnets] at hnodesEq
  obtain ⟨devices, hevidenceDevices, htotals⟩ := Option.map_eq_some_iff.mp hdevicesEq.symm
  obtain ⟨nodes, hevidenceNodes, hcounts⟩ := Option.map_eq_some_iff.mp hnodesEq.symm
  obtain ⟨evidence, hevidence, hdeviceCounts⟩ := Option.bind_eq_some_iff.mp hevidenceDevices
  obtain ⟨evidence', hevidence', hnodeCounts⟩ := Option.bind_eq_some_iff.mp hevidenceNodes
  obtain rfl := Option.some.inj (hevidence.symm.trans hevidence')
  exact ⟨report, evidence, devices, nodes, hreport, hevidence, hdeviceCounts, htotals ▸ hreportDevices,
    hnodeCounts, hcounts ▸ hreportNodes⟩

theorem engineeringStatus_sound {run : LvsRun} (h : run.engineeringStatus ≠ .unknown) :
    run.reportOutcome = run.engineeringStatus ∧ run.jsonOutcome = run.engineeringStatus ∧
      run.CountsCoincide := by
  have htrusted (htrust : run.trustworthy = true) :
      run.reportOutcome = run.jsonOutcome ∧ run.CountsCoincide := by
    have hagree := (Bool.and_eq_true_iff.mp htrust).2
    obtain ⟨houtcomes, hcounts⟩ := Bool.and_eq_true_iff.mp hagree
    exact ⟨of_decide_eq_true (Bool.and_eq_true_iff.mp houtcomes).1, countsCoincide_of_agree hcounts⟩
  unfold LvsRun.engineeringStatus at h ⊢
  split_ifs at h ⊢ with hpass hfail
  · obtain ⟨htrust, hreport⟩ := Bool.and_eq_true_iff.mp hpass
    obtain ⟨heq, hcounts⟩ := htrusted htrust
    have hreport := of_decide_eq_true hreport
    exact ⟨hreport, heq ▸ hreport, hcounts⟩
  · obtain ⟨htrust, hreport⟩ := Bool.and_eq_true_iff.mp hfail
    obtain ⟨heq, hcounts⟩ := htrusted htrust
    have hreport := of_decide_eq_true hreport
    exact ⟨hreport, heq ▸ hreport, hcounts⟩
  · exact absurd rfl h

end Evidence

section Claims

variable {F : Type} [PyFloat F]

/-- A comparison array passes exactly where all its equalities hold and the requested comparison
has pins; it fails exactly where its unnamed records are equal and something else is not; every
other value is unknown. A verdict is the outcome of both documents. -/
theorem lvs_verdict_sound (floatText : PyStr → F) (expectedCell : PyStr) :
    (∀ value : PyJson F,
      (jsonOutcome expectedCell value = .pass ↔ ∃ records,
        ComparisonArray expectedCell value records ∧ Matching expectedCell records) ∧
      (jsonOutcome expectedCell value = .fail ↔ ∃ records,
        ComparisonArray expectedCell value records ∧ Mismatching expectedCell records) ∧
      (jsonOutcome expectedCell value = .unknown ↔ ¬ ∃ records,
        ComparisonArray expectedCell value records ∧
          ∀ record ∈ records, record.IsUnnamed → record.EqualSides)) ∧
    (∀ (body : ByteArray) (value : PyJson F), body.size ≤ maxJsonBytes →
      JsonReader.loads (netgenHooks floatText) body = .ok value →
      (parseNetgenJsonStream floatText expectedCell body.size body).outcome =
        jsonOutcome expectedCell value) ∧
    (∀ (size : ℕ) (body : ByteArray), maxJsonBytes < size ∨ body.size ≠ size ∨
        (∃ message, JsonReader.loads (netgenHooks floatText) body = .error message) →
      (parseNetgenJsonStream floatText expectedCell size body).outcome = .unknown) ∧
    ∀ run : LvsRun, run.engineeringStatus ≠ .unknown →
      run.reportOutcome = run.engineeringStatus ∧ run.jsonOutcome = run.engineeringStatus ∧
        run.CountsCoincide := by
  refine ⟨fun value => ?_, fun body value hsize hvalue => parseNetgenJsonStream_outcome floatText
    expectedCell hsize hvalue, fun size body h => parseNetgenJsonStream_unknown floatText
    expectedCell h, fun run h => engineeringStatus_sound h⟩
  rcases jsonOutcome_cases expectedCell value with
    ⟨records, harray, hequal, ⟨houtcome, hmatch⟩ | ⟨houtcome, hmatch⟩⟩ | ⟨houtcome, hnone⟩
  · rw [houtcome]
    refine ⟨⟨fun _ => ⟨records, harray, hmatch⟩, fun _ => rfl⟩, ⟨(fun h => nomatch h), ?_⟩,
      ⟨(fun h => nomatch h), fun h => absurd ⟨records, harray, hequal⟩ h⟩⟩
    rintro ⟨other, hother, hequal', hmismatch⟩
    exact absurd ((matching_of_array harray hequal hother hequal').mp hmatch) hmismatch
  · rw [houtcome]
    refine ⟨⟨(fun h => nomatch h), ?_⟩, ⟨fun _ => ⟨records, harray, hequal, hmatch⟩, fun _ => rfl⟩,
      ⟨(fun h => nomatch h), fun h => absurd ⟨records, harray, hequal⟩ h⟩⟩
    rintro ⟨other, hother, hmatching⟩
    exact absurd ((matching_of_array harray hequal hother
      fun record hrecord _ => hmatching.1 record hrecord).mpr hmatching) hmatch
  · rw [houtcome]
    refine ⟨⟨(fun h => nomatch h), ?_⟩, ⟨(fun h => nomatch h), ?_⟩, ⟨fun _ => hnone, fun _ => rfl⟩⟩
    · rintro ⟨other, hother, hmatching⟩
      exact absurd ⟨other, hother, fun record hrecord _ => hmatching.1 record hrecord⟩ hnone
    · rintro ⟨other, hother, hequal', -⟩
      exact absurd ⟨other, hother, hequal'⟩ hnone

end Claims

section Unnamed

def topComparison : Comparison SignedRat :=
  ⟨(lit "top", lit "top"), ([], []), (1, 1), [], [], [], some ([lit "a"], [lit "a"])⟩

def topFields : PyJson.Mapping SignedRat :=
  [(lit "name", textsJson [lit "top", lit "top"]),
    (lit "devices", sidesJson countsJson ([], [])), (lit "nets", .array [.int 1, .int 1]),
    (lit "badnets", .array []), (lit "badelements", .array []),
    (lit "pins", sidesJson textsJson ([lit "a"], [lit "a"]))]

def unnamedFields : PyJson.Mapping SignedRat :=
  [(lit "pins", sidesJson textsJson ([lit "a"], [lit "b"]))]

def unequalPlaceholder : PyJson SignedRat := .array [.object topFields, .object unnamedFields]

theorem wellPinned_singleton (name : PyStr) (h : name ≠ []) : WellPinned [name] :=
  ⟨fun _ hpin => List.mem_singleton.mp hpin ▸ h, List.nodup_singleton name⟩

/-- A well-formed array in which only the pins of an unnamed record differ does not fail. -/
theorem unnamed_mismatch_unknown : ∃ records,
    ComparisonArray (lit "top") unequalPlaceholder records ∧
      (∃ record ∈ records, ¬ record.EqualSides) ∧
      jsonOutcome (lit "top") unequalPlaceholder = .unknown := by
  have hne (word : String) (h : (lit word).isEmpty = false) : lit word ≠ [] := by
    intro heq
    rw [heq] at h
    cases h
  have hpins (word : String) (h : (lit word).isEmpty = false) : WellPinned [lit word] :=
    wellPinned_singleton _ (hne word h)
  have hnamed : Named topFields topComparison :=
    ⟨rfl, ⟨hne "top" rfl, hne "top" rfl⟩, rfl, ⟨⟨by simp [topComparison], by simp [topComparison]⟩,
      ⟨by simp [topComparison], by simp [topComparison]⟩⟩, rfl, rfl, rfl, .inr ⟨rfl, rfl⟩,
      .inl ⟨_, rfl, rfl, hpins "a" rfl, hpins "a" rfl⟩⟩
  refine ⟨[.comparison topComparison, .pinPair [lit "a"] [lit "b"]],
    ⟨⟨_, rfl, by simp, by simp [maxComparisons], .cons (.named (by decide) (by decide)
      hnamed) (.cons (.unnamed (by decide) rfl (hpins "a" rfl) (hpins "b" rfl)) .nil)⟩,
      by decide, by decide⟩, ⟨.pinPair [lit "a"] [lit "b"], by simp, ?_⟩,
        by decide⟩
  show ¬ [lit "a"] = [lit "b"]
  decide

end Unnamed

end OpenADA.Lvs
