import OpenADA.Library.ComponentSearch
import Mathlib.Data.Char
import Mathlib.Data.Finset.Sort
import Mathlib.Data.List.Lex

/-! The external nets of an experiment: which spellings collide, which nets dangle, and which
components of the elements float. -/
namespace OpenADA.Experiment

open ComponentSearch

/-- `_NAME_RE`. -/
def isName (text : List Char) : Bool :=
  match text with
  | [] => false
  | c :: rest =>
    c.isAlpha && rest.all (fun d => d.isAlphanum || decide (d = '_')) && decide (rest.length ≤ 63)

/-- `str.casefold` of a text in ASCII. -/
def casefold (text : List Char) : List Char := text.map Char.toLower

/-- The texts `_Validator.net` lets pass: the ground, and names that are no other spelling of it. -/
def isNet (text : List Char) : Bool :=
  decide (text = ['0']) ||
    isName text && decide (casefold text ∉ ["gnd".toList, "ground".toList])

abbrev Net := {text : List Char // isNet text = true}

def ground : Net := ⟨['0'], rfl⟩

structure Element where
  plus : Net
  minus : Net

inductive Incidence where
  | plus (index : ℕ)
  | minus (index : ℕ)
  | connection (port : List Char)

def Incidence.path : Incidence → List Char
  | .plus index => "/elements/".toList ++ Nat.toDigits 10 index ++ "/plus".toList
  | .minus index => "/elements/".toList ++ Nat.toDigits 10 index ++ "/minus".toList
  | .connection port => "/dut/connections/".toList ++ port

/-- The entries of `paths` in the order in which they are appended. -/
def incidences (elements : List Element) (connections : List (List Char × Net)) :
    List (Net × Incidence) :=
  elements.zipIdx.flatMap (fun item =>
    [(item.1.plus, .plus item.2), (item.1.minus, .minus item.2)]) ++
    connections.map fun entry => (entry.2, .connection entry.1)

structure NetIssue where
  code : String
  path : List Char
  nets : List Net

section Reports

variable (found : List (Net × Incidence))

/-- `set(paths)`. -/
def knownNets : Finset Net := (found.map Prod.fst).toFinset

/-- `paths[net]`. -/
def netPaths (net : Net) : List (List Char) :=
  (found.filter fun entry => decide (entry.1 = net)).map fun entry => entry.2.path

def firstPath (net : Net) : List Char := (netPaths found net).headD []

/-- `spellings[key]`. -/
def spellings (key : List Char) : Finset Net :=
  (knownNets found).filter fun net => casefold net.val = key

/-- The keys of `spellings` in their order. -/
def foldedKeys : List (List Char) := (found.map fun entry => casefold entry.1.val).eraseDups

def collisionIssue (group : List Net) (spelling : Net) : NetIssue :=
  ⟨"experiment.net.case_collision", firstPath found spelling, group⟩

/-- What `_nets` reports. -/
def caseCollisions : List NetIssue :=
  (foldedKeys found).flatMap fun key =>
    let ordered := (spellings found key).sort
    ordered.tail.map (collisionIssue found ordered)

def groundIssues : List NetIssue :=
  if ground ∈ knownNets found then []
  else [⟨"experiment.net.ground_invalid", "/dut/connections".toList, []⟩]

def danglingIssue (net : Net) : NetIssue :=
  ⟨"experiment.net.dangling", firstPath found net, [net]⟩

def danglingIssues : List NetIssue :=
  ((knownNets found).sort.filter fun net => decide ((netPaths found net).length = 1)).map
    (danglingIssue found)

def floatingIssue (component : Finset Net) : NetIssue :=
  ⟨"experiment.net.floating_component", (component.sort.head?.map (firstPath found)).getD [],
    component.sort⟩

end Reports

section Graph

variable (elements : List Element)

/-- `graph[net]`. -/
def neighbours (net : Net) : Finset Net :=
  ((elements.filter fun element => decide (element.plus = net)).map Element.minus ++
    (elements.filter fun element => decide (element.minus = net)).map Element.plus).toFinset

theorem mem_neighbours {elements : List Element} {a b : Net} : b ∈ neighbours elements a ↔
    ∃ element ∈ elements, element.plus = a ∧ element.minus = b ∨
      element.minus = a ∧ element.plus = b := by
  simp only [neighbours, List.mem_toFinset, List.mem_append, List.mem_map, List.mem_filter,
    decide_eq_true_eq]
  constructor
  · rintro (⟨element, ⟨helement, ha⟩, hb⟩ | ⟨element, ⟨helement, ha⟩, hb⟩)
    · exact ⟨element, helement, .inl ⟨ha, hb⟩⟩
    · exact ⟨element, helement, .inr ⟨ha, hb⟩⟩
  · rintro ⟨element, helement, ⟨ha, hb⟩ | ⟨ha, hb⟩⟩
    · exact .inl ⟨element, ⟨helement, ha⟩, hb⟩
    · exact .inr ⟨element, ⟨helement, ha⟩, hb⟩

/-- The keys of `graph`. -/
def terminalNets : Finset Net := (elements.map Element.plus ++ elements.map Element.minus).toFinset

theorem mem_terminalNets {elements : List Element} {a : Net} : a ∈ terminalNets elements ↔
    ∃ element ∈ elements, element.plus = a ∨ element.minus = a := by
  simp only [terminalNets, List.mem_toFinset, List.mem_append, List.mem_map]
  constructor
  · rintro (⟨element, helement, ha⟩ | ⟨element, helement, ha⟩)
    · exact ⟨element, helement, .inl ha⟩
    · exact ⟨element, helement, .inr ha⟩
  · rintro ⟨element, helement, ha | ha⟩
    · exact .inl ⟨element, helement, ha⟩
    · exact .inr ⟨element, helement, ha⟩

def elementGraph : Graph Net where
  nodes := terminalNets elements
  next := neighbours elements
  next_subset a b hb := by
    obtain ⟨element, helement, ⟨-, hminus⟩ | ⟨-, hplus⟩⟩ := mem_neighbours.mp hb
    · exact mem_terminalNets.mpr ⟨element, helement, .inr hminus⟩
    · exact mem_terminalNets.mpr ⟨element, helement, .inl hplus⟩
  symm a b hb := by
    obtain ⟨element, helement, hends⟩ := mem_neighbours.mp hb
    exact mem_neighbours.mpr ⟨element, helement, hends.symm.imp And.symm And.symm⟩

def anchors (connections : List (List Char × Net)) : Finset Net :=
  insert ground (connections.map Prod.snd).toFinset

/-- `_net_connectivity`; nothing is left where the fuel does not last. -/
def netConnectivity (order : SetOrder Net) (fuel : ℕ) :
    Option (List (List Char × Net)) → Option (List NetIssue)
  | none => some []
  | some connections => do
    let found := incidences elements connections
    let components ← components order (elementGraph elements) fuel fuel (terminalNets elements)
    let floating := components.filter fun component =>
      decide (Disjoint component (anchors connections))
    some (groundIssues found ++ danglingIssues found ++ floating.map (floatingIssue found))

end Graph

section Specification

variable (elements : List Element) (connections : List (List Char × Net))

def Named (net : Net) : Prop :=
  (∃ element ∈ elements, element.plus = net ∨ element.minus = net) ∨
    ∃ entry ∈ connections, entry.2 = net

def incidenceCount (net : Net) : ℕ :=
  elements.countP (fun element => decide (element.plus = net)) +
    elements.countP (fun element => decide (element.minus = net)) +
    connections.countP fun entry => decide (entry.2 = net)

def Joined (a b : Net) : Prop :=
  ∃ element ∈ elements, element.plus = a ∧ element.minus = b ∨ element.minus = a ∧ element.plus = b

/-- A connected component of the elements without the ground and without a net of the DUT. -/
def Floating (component : Finset Net) : Prop :=
  (∃ a, (∃ element ∈ elements, element.plus = a ∨ element.minus = a) ∧
    ∀ x, x ∈ component ↔ Relation.ReflTransGen (Joined elements) a x) ∧
  ground ∉ component ∧ ∀ entry ∈ connections, entry.2 ∉ component

end Specification

section Incidences

variable {elements : List Element} {connections : List (List Char × Net)} {net : Net}

theorem length_netPaths_terminals (start : ℕ) :
    (netPaths ((elements.zipIdx start).flatMap fun item =>
      [(item.1.plus, .plus item.2), (item.1.minus, .minus item.2)]) net).length =
      elements.countP (fun element => decide (element.plus = net)) +
        elements.countP fun element => decide (element.minus = net) := by
  induction elements generalizing start with
  | nil => rfl
  | cons element rest ih =>
    have hrest := ih (start + 1)
    unfold netPaths at hrest ⊢
    rw [List.length_map] at hrest ⊢
    rw [List.zipIdx_cons, List.flatMap_cons, List.filter_append, List.length_append, hrest,
      List.countP_cons, List.countP_cons]
    by_cases hplus : element.plus = net <;> by_cases hminus : element.minus = net <;>
      simp [hplus, hminus] <;> omega

theorem length_netPaths :
    (netPaths (incidences elements connections) net).length =
      incidenceCount elements connections net := by
  have hterminals := @length_netPaths_terminals elements net 0
  unfold netPaths at hterminals ⊢
  rw [List.length_map] at hterminals ⊢
  rw [incidences, List.filter_append, List.length_append, hterminals, incidenceCount,
    List.countP_eq_length_filter (l := connections), List.filter_map, List.length_map]
  rfl

theorem mem_knownNets :
    net ∈ knownNets (incidences elements connections) ↔ Named elements connections net := by
  simp only [knownNets, incidences, List.mem_toFinset, List.map_append, List.mem_append,
    List.map_flatMap, List.mem_flatMap, List.map_map, List.mem_map, Named]
  constructor
  · rintro (⟨item, hitem, entry, hentry, rfl⟩ | ⟨entry, hentry, rfl⟩)
    · have helement : item.1 ∈ elements := (List.mem_zipIdx hitem).2.2 ▸ List.getElem_mem _
      rcases List.mem_cons.mp hentry with rfl | hentry
      · exact .inl ⟨item.1, helement, .inl rfl⟩
      · rw [List.mem_singleton.mp hentry]
        exact .inl ⟨item.1, helement, .inr rfl⟩
    · exact .inr ⟨entry, hentry, rfl⟩
  · rintro (⟨element, helement, hnet⟩ | ⟨entry, hentry, rfl⟩)
    · obtain ⟨index, hindex, rfl⟩ := List.getElem_of_mem helement
      refine .inl ⟨(elements[index], index),
        List.mk_mem_zipIdx_iff_getElem?.mpr (List.getElem?_eq_getElem hindex), ?_⟩
      rcases hnet with rfl | rfl
      · exact ⟨_, List.mem_cons_self .., rfl⟩
      · exact ⟨_, List.mem_cons_of_mem _ (List.mem_cons_self ..), rfl⟩
    · exact .inr ⟨entry, hentry, rfl⟩

theorem named_of_count (h : incidenceCount elements connections net ≠ 0) :
    Named elements connections net := by
  by_contra hnone
  refine h ?_
  have hterminals : ∀ element ∈ elements, element.plus ≠ net ∧ element.minus ≠ net :=
    fun element helement => ⟨fun hplus => hnone (.inl ⟨element, helement, .inl hplus⟩),
      fun hminus => hnone (.inl ⟨element, helement, .inr hminus⟩)⟩
  have hports : ∀ entry ∈ connections, entry.2 ≠ net :=
    fun entry hentry heq => hnone (.inr ⟨entry, hentry, heq⟩)
  unfold incidenceCount
  rw [List.countP_eq_zero.mpr fun element helement => by simpa using (hterminals element helement).1,
    List.countP_eq_zero.mpr fun element helement => by simpa using (hterminals element helement).2,
    List.countP_eq_zero.mpr fun entry hentry => by simpa using hports entry hentry]

end Incidences

section Collisions

variable {found : List (Net × Incidence)}

/-- Behind the first of a set in its order stand those that are not the least. -/
theorem mem_tail_sort {s : Finset Net} {a : Net} :
    a ∈ s.sort.tail ↔ a ∈ s ∧ ∃ b ∈ s, b < a := by
  have hsorted := s.sortedLT_sort.pairwise
  have hmem : ∀ x, x ∈ s.sort ↔ x ∈ s := fun x => Finset.mem_sort _
  cases hlist : s.sort with
  | nil =>
    rw [hlist] at hmem
    constructor
    · intro ha
      exact absurd ha List.not_mem_nil
    · rintro ⟨ha, -⟩
      exact absurd ((hmem a).mpr ha) List.not_mem_nil
  | cons least rest =>
    rw [hlist] at hmem hsorted
    obtain ⟨hleast, -⟩ := List.pairwise_cons.mp hsorted
    rw [List.tail_cons]
    constructor
    · intro ha
      exact ⟨(hmem a).mp (List.mem_cons_of_mem _ ha), least, (hmem least).mp (List.mem_cons_self ..),
        hleast a ha⟩
    · rintro ⟨ha, b, hb, hlt⟩
      rcases List.mem_cons.mp ((hmem a).mpr ha) with rfl | ha
      · rcases List.mem_cons.mp ((hmem b).mpr hb) with rfl | hb
        · exact absurd hlt (lt_irrefl _)
        · exact absurd hlt (hleast b hb).asymm
      · exact ha

theorem mem_spellings {key : List Char} {a : Net} :
    a ∈ spellings found key ↔ a ∈ knownNets found ∧ casefold a.val = key :=
  Finset.mem_filter

theorem mem_caseCollisions {issue : NetIssue} : issue ∈ caseCollisions found ↔
    ∃ a ∈ knownNets found, (∃ b ∈ knownNets found, casefold b.val = casefold a.val ∧ b < a) ∧
      issue = collisionIssue found (spellings found (casefold a.val)).sort a := by
  unfold caseCollisions
  rw [List.mem_flatMap]
  constructor
  · rintro ⟨key, -, hissue⟩
    obtain ⟨a, ha, rfl⟩ := List.mem_map.mp hissue
    obtain ⟨hgroup, b, hb, hlt⟩ := mem_tail_sort.mp ha
    obtain ⟨hknown, rfl⟩ := mem_spellings.mp hgroup
    obtain ⟨hother, hfold⟩ := mem_spellings.mp hb
    exact ⟨a, hknown, ⟨b, hother, hfold, hlt⟩, rfl⟩
  · rintro ⟨a, ha, ⟨b, hb, hfold, hlt⟩, rfl⟩
    refine ⟨casefold a.val, ?_, List.mem_map.mpr ⟨a, mem_tail_sort.mpr ?_, rfl⟩⟩
    · obtain ⟨entry, hentry, rfl⟩ := List.mem_map.mp (List.mem_toFinset.mp ha)
      exact List.mem_eraseDups.mpr (List.mem_map.mpr ⟨entry, hentry, rfl⟩)
    · exact ⟨mem_spellings.mpr ⟨ha, rfl⟩, b, mem_spellings.mpr ⟨hb, hfold⟩, hlt⟩

end Collisions

section Connectivity

variable {elements : List Element} {connections : List (List Char × Net)}

theorem floating_iff {component : Finset Net} : Floating elements connections component ↔
    (elementGraph elements).IsComponent component ∧ Disjoint component (anchors connections) := by
  have hjoined : (fun x y => y ∈ (elementGraph elements).next x) = Joined elements :=
    funext fun x => funext fun y => propext mem_neighbours
  unfold Floating Graph.IsComponent Graph.Reach
  rw [hjoined]
  refine and_congr (exists_congr fun a => and_congr mem_terminalNets.symm Iff.rfl) ?_
  rw [Finset.disjoint_right]
  constructor
  · rintro ⟨hground, hports⟩ x hx
    rcases Finset.mem_insert.mp hx with rfl | hx
    · exact hground
    · obtain ⟨entry, hentry, rfl⟩ := List.mem_map.mp (List.mem_toFinset.mp hx)
      exact hports entry hentry
  · intro h
    refine ⟨h (Finset.mem_insert_self ..), fun entry hentry => h (Finset.mem_insert_of_mem ?_)⟩
    exact List.mem_toFinset.mpr (List.mem_map.mpr ⟨entry, hentry, rfl⟩)

end Connectivity

/-- The checks of the external nets are exact: every spelling with a lesser one is reported, and so
are, each once, the nets with one incidence and the components that float; the search ends. -/
theorem nets_exact (order : SetOrder Net) (elements : List Element)
    (connections : List (List Char × Net)) :
    let found := incidences elements connections
    (∀ issue, issue ∈ caseCollisions found ↔ ∃ a, Named elements connections a ∧
      (∃ b, Named elements connections b ∧ casefold b.val = casefold a.val ∧ b < a) ∧
      issue = collisionIssue found (spellings found (casefold a.val)).sort a) ∧
    (caseCollisions found ≠ [] ↔ ∃ a b, Named elements connections a ∧ Named elements connections b ∧
      a ≠ b ∧ casefold a.val = casefold b.val) ∧
    ∃ bound, ∀ fuel, bound ≤ fuel → ∃ (dangling : List Net) (floating : List (Finset Net)),
      netConnectivity elements order fuel (some connections) =
        some (groundIssues found ++ dangling.map (danglingIssue found) ++
          floating.map (floatingIssue found)) ∧
      dangling.Nodup ∧ (∀ net, net ∈ dangling ↔ incidenceCount elements connections net = 1) ∧
      floating.Nodup ∧ ∀ component, component ∈ floating ↔
        Floating elements connections component := by
  intro found
  have hcollisions : ∀ issue, issue ∈ caseCollisions found ↔ ∃ a, Named elements connections a ∧
      (∃ b, Named elements connections b ∧ casefold b.val = casefold a.val ∧ b < a) ∧
      issue = collisionIssue found (spellings found (casefold a.val)).sort a := by
    intro issue
    rw [mem_caseCollisions]
    simp only [found, mem_knownNets]
  refine ⟨hcollisions, ?_, (elementGraph elements).worklistBound, fun fuel hfuel => ?_⟩
  · constructor
    · intro hne
      obtain ⟨issue, hissue⟩ := List.exists_mem_of_ne_nil _ hne
      obtain ⟨a, ha, ⟨b, hb, hfold, hlt⟩, -⟩ := (hcollisions issue).mp hissue
      exact ⟨a, b, ha, hb, hlt.ne', hfold.symm⟩
    · rintro ⟨a, b, ha, hb, hne, hfold⟩
      rcases lt_or_gt_of_ne hne with hlt | hlt
      · exact List.ne_nil_of_mem ((hcollisions _).mpr ⟨b, hb, ⟨a, ha, hfold, hlt⟩, rfl⟩)
      · exact List.ne_nil_of_mem ((hcollisions _).mpr ⟨a, ha, ⟨b, hb, hfold.symm, hlt⟩, rfl⟩)
  · have hrounds : (elementGraph elements).nodes.card ≤ fuel := by
      have hle : (elementGraph elements).nodes.card ≤
          (elementGraph elements).nodes.card * ((elementGraph elements).nodes.card + 1) :=
        Nat.le_mul_of_pos_right _ (by omega)
      unfold Graph.worklistBound at hfuel
      omega
    obtain ⟨all, hall, hnodup, hmem⟩ : ∃ all,
        components order (elementGraph elements) fuel fuel (terminalNets elements) = some all ∧
          all.Nodup ∧ ∀ c, c ∈ all ↔ (elementGraph elements).IsComponent c :=
      components_spec hfuel hrounds
    refine ⟨(knownNets found).sort.filter fun net => decide ((netPaths found net).length = 1),
      all.filter fun component => decide (Disjoint component (anchors connections)), ?_,
      (Finset.sort_nodup _ _).filter _, fun net => ?_, hnodup.filter _, fun component => ?_⟩
    · rw [netConnectivity, hall]
      rfl
    · rw [List.mem_filter, Finset.mem_sort, mem_knownNets, decide_eq_true_eq, length_netPaths]
      exact ⟨fun h => h.2, fun h => ⟨named_of_count (by omega), h⟩⟩
    · rw [List.mem_filter, hmem, decide_eq_true_eq, floating_iff]

end OpenADA.Experiment
