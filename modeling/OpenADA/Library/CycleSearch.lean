import Mathlib.Data.List.Chain
import Mathlib.Logic.Relation
import Mathlib.Tactic

/-! Depth-first cycle search over a finite adjacency table, with the two node sets
of the classical three-colour algorithm and the reported trails as its only output. -/
namespace CycleSearch

variable {α : Type} [DecidableEq α]

abbrev Table (α : Type) := List (α × List α)

def Table.nodes (graph : Table α) : List α := graph.map Prod.fst

/-- The parents of the first row of a node; a node without a row has none. -/
def Table.parents (graph : Table α) (node : α) : List α :=
  (graph.lookup node).getD []

def Table.Edge (graph : Table α) (a b : α) : Prop :=
  b ∈ graph.parents a ∧ b ∈ graph.nodes

def Table.Cyclic (graph : Table α) : Prop :=
  ∃ node, Relation.TransGen graph.Edge node node

structure State (α : Type) where
  active : List α
  complete : List α
  reports : List (List α)
  deriving DecidableEq, Repr

/-- One visit. The fuel bounds the recursion depth, never the number of visited nodes. -/
def visit (graph : Table α) : ℕ → α → List α → State α → State α
  | 0, _, _, st => st
  | fuel + 1, node, trail, st =>
    if node ∈ st.complete then st
    else if node ∈ st.active then { st with reports := st.reports ++ [trail ++ [node]] }
    else
      let entered := { st with active := node :: st.active }
      let left := (graph.parents node).foldl (fun s parent =>
        if parent ∈ graph.nodes then visit graph fuel parent (trail ++ [node]) s else s) entered
      { left with active := left.active.erase node, complete := node :: left.complete }

def search (graph : Table α) : State α :=
  graph.nodes.foldl (fun s node => visit graph (graph.nodes.length + 1) node [] s) ⟨[], [], []⟩

/-- Every node listed before its own edge targets: a completion order read backwards. -/
def Ordered (graph : Table α) : List α → Prop
  | [] => True
  | node :: rest => (∀ b, graph.Edge node b → b ∈ rest) ∧ Ordered graph rest

theorem Ordered.closed {graph : Table α} {done : List α} (h : Ordered graph done) {a b : α}
    (ha : a ∈ done) (hab : graph.Edge a b) : b ∈ done := by
  induction done with
  | nil => cases ha
  | cons node rest ih =>
    rcases List.mem_cons.mp ha with rfl | ha
    · exact List.mem_cons_of_mem _ (h.1 b hab)
    · exact List.mem_cons_of_mem _ (ih h.2 ha)

theorem Ordered.reach {graph : Table α} {done : List α} (h : Ordered graph done) {a b : α}
    (ha : a ∈ done) (hab : Relation.TransGen graph.Edge a b) : b ∈ done := by
  induction hab with
  | single hab => exact h.closed ha hab
  | tail _ hbc ih => exact h.closed ih hbc

theorem Ordered.acyclic {graph : Table α} {done : List α} (h : Ordered graph done)
    (hn : done.Nodup) {a : α} (ha : a ∈ done) : ¬ Relation.TransGen graph.Edge a a := by
  induction done with
  | nil => cases ha
  | cons node rest ih =>
    intro hc
    have hrest : ∀ c, Relation.TransGen graph.Edge node c → c ∈ rest := by
      intro c hreach
      obtain ⟨b, hnb, hbc⟩ := Relation.TransGen.head'_iff.mp hreach
      rcases Relation.reflTransGen_iff_eq_or_transGen.mp hbc with rfl | hbc
      · exact h.1 _ hnb
      · exact h.2.reach (h.1 b hnb) hbc
    rcases List.mem_cons.mp ha with rfl | ha
    · exact (List.nodup_cons.mp hn).1 (hrest a hc)
    · exact ih h.2 (List.nodup_cons.mp hn).2 ha hc

/-- The active nodes form the walk by which the search reached the current node. -/
def Walk (graph : Table α) (path : List α) : Prop :=
  List.IsChain (fun a b => graph.Edge b a) path

theorem Walk.reach {graph : Table α} {node : α} {path : List α}
    (h : Walk graph (node :: path)) {a : α} (ha : a ∈ path) :
    Relation.TransGen graph.Edge a node := by
  induction path generalizing node with
  | nil => cases ha
  | cons b rest ih =>
    have hb : graph.Edge b node := (List.isChain_cons_cons.mp h).1
    rcases List.mem_cons.mp ha with rfl | ha
    · exact .single hb
    · exact (ih (List.isChain_cons_cons.mp h).2 ha).tail hb

structure Inv (graph : Table α) (st : State α) : Prop where
  activeNodup : st.active.Nodup
  activeNodes : st.active ⊆ graph.nodes
  completeNodup : st.complete.Nodup
  disjoint : ∀ a ∈ st.complete, a ∉ st.active

structure Extends (graph : Table α) (st out : State α) : Prop where
  inv : Inv graph out
  active : out.active = st.active
  complete : st.complete ⊆ out.complete
  reports : st.reports <+: out.reports

omit [DecidableEq α] in
theorem Extends.refl {graph : Table α} {st : State α} (h : Inv graph st) : Extends graph st st :=
  ⟨h, rfl, List.Subset.refl _, List.prefix_rfl⟩

omit [DecidableEq α] in
theorem Extends.trans {graph : Table α} {a b c : State α} (hab : Extends graph a b)
    (hbc : Extends graph b c) : Extends graph a c :=
  ⟨hbc.inv, hbc.active.trans hab.active, List.Subset.trans hab.complete hbc.complete,
    hab.reports.trans hbc.reports⟩

omit [DecidableEq α] in
theorem Extends.clean {graph : Table α} {st out : State α} (h : Extends graph st out)
    (ho : out.reports = []) : st.reports = [] := by
  have hp := h.reports
  rw [ho] at hp
  exact List.prefix_nil.mp hp

omit [DecidableEq α] in
/-- The state on entering a node keeps the invariant and pushes the node on the walk. -/
theorem Inv.enter {graph : Table α} {st : State α} (h : Inv graph st) {node : α}
    (hn : node ∈ graph.nodes) (hc : node ∉ st.complete) (ha : node ∉ st.active) :
    Inv graph { st with active := node :: st.active } where
  activeNodup := List.nodup_cons.mpr ⟨ha, h.activeNodup⟩
  activeNodes := List.cons_subset.mpr ⟨hn, h.activeNodes⟩
  completeNodup := h.completeNodup
  disjoint := by
    intro a hac hmem
    rcases List.mem_cons.mp hmem with rfl | hmem
    · exact hc hac
    · exact h.disjoint a hac hmem

/-- The state on leaving a node: popped from the walk and marked complete. -/
theorem Inv.leave {graph : Table α} {st left : State α} {node : α} (h : Inv graph left)
    (ha : left.active = node :: st.active) :
    Inv graph { left with active := left.active.erase node, complete := node :: left.complete } := by
  have hnd : (node :: st.active).Nodup := ha ▸ h.activeNodup
  have hmem : node ∈ left.active := ha ▸ List.mem_cons_self
  have herase : left.active.erase node = st.active := by rw [ha, List.erase_cons_head]
  constructor
  · exact h.activeNodup.erase _
  · exact fun a haa => h.activeNodes (List.mem_of_mem_erase haa)
  · exact List.nodup_cons.mpr ⟨fun hc => h.disjoint node hc hmem, h.completeNodup⟩
  · intro a hac
    rw [herase]
    rcases List.mem_cons.mp hac with rfl | hac
    · exact (List.nodup_cons.mp hnd).1
    · exact fun hst => h.disjoint a hac (ha ▸ List.mem_cons_of_mem _ hst)

omit [DecidableEq α] in
theorem foldl_extends {β : Type} {graph : Table α} (step : State α → β → State α) (items : List β)
    {st : State α} (h : Inv graph st)
    (hstep : ∀ s, Extends graph st s → ∀ b ∈ items, Extends graph s (step s b)) :
    Extends graph st (items.foldl step st) := by
  induction items generalizing st with
  | nil => exact Extends.refl h
  | cons b rest ih =>
    have hb := hstep st (Extends.refl h) b List.mem_cons_self
    refine hb.trans (ih hb.inv fun s hs c hc => ?_)
    exact hstep s (hb.trans hs) c (List.mem_cons_of_mem _ hc)

theorem visit_extends (graph : Table α) (fuel : ℕ) (node : α) (trail : List α) (st : State α)
    (h : Inv graph st) (hf : graph.nodes.length < fuel + st.active.length)
    (hn : node ∈ graph.nodes) : Extends graph st (visit graph fuel node trail st) := by
  induction fuel generalizing node trail st with
  | zero => exact Extends.refl h
  | succ fuel ih =>
    simp only [visit]
    split_ifs with hc ha
    · exact Extends.refl h
    · exact ⟨⟨h.activeNodup, h.activeNodes, h.completeNodup, h.disjoint⟩, rfl,
        List.Subset.refl _, List.prefix_append _ _⟩
    · have henter := h.enter hn hc ha
      have hleft := foldl_extends (fun s parent =>
        if parent ∈ graph.nodes then visit graph fuel parent (trail ++ [node]) s else s)
        (graph.parents node) henter (by
          intro s hs parent _
          split_ifs with hp
          · refine ih parent _ s hs.inv ?_ hp
            rw [hs.active, List.length_cons]
            omega
          · exact Extends.refl hs.inv)
      refine ⟨hleft.inv.leave hleft.active, ?_, ?_, hleft.reports⟩
      · simp only [hleft.active, List.erase_cons_head]
      · exact List.Subset.trans hleft.complete (List.subset_cons_self _ _)

/-- A fold without reports completes every declared item and keeps the completion order. -/
theorem foldl_clean {graph : Table α} (step : State α → α → State α) (items : List α)
    {st : State α} (h : Inv graph st)
    (hstep : ∀ s, Extends graph st s → ∀ b ∈ items, Extends graph s (step s b))
    (hclean : ∀ s, Extends graph st s → ∀ b ∈ items, (step s b).reports = [] →
      Ordered graph s.complete →
      Ordered graph (step s b).complete ∧ (b ∈ graph.nodes → b ∈ (step s b).complete))
    (ho : (items.foldl step st).reports = []) (hord : Ordered graph st.complete) :
    Ordered graph (items.foldl step st).complete ∧
      ∀ b ∈ items, b ∈ graph.nodes → b ∈ (items.foldl step st).complete := by
  induction items generalizing st with
  | nil => exact ⟨hord, by simp⟩
  | cons b rest ih =>
    have hb := hstep st (Extends.refl h) b List.mem_cons_self
    have hstep' : ∀ s, Extends graph (step st b) s → ∀ c ∈ rest, Extends graph s (step s c) :=
      fun s hs c hc => hstep s (hb.trans hs) c (List.mem_cons_of_mem _ hc)
    have hrest := foldl_extends step rest hb.inv hstep'
    have hbclean := hclean st (Extends.refl h) b List.mem_cons_self (hrest.clean ho) hord
    obtain ⟨hord', hall⟩ := ih hb.inv hstep'
      (fun s hs c hc => hclean s (hb.trans hs) c (List.mem_cons_of_mem _ hc)) ho hbclean.1
    refine ⟨hord', fun c hc hn => ?_⟩
    rcases List.mem_cons.mp hc with rfl | hc
    · exact hrest.complete (hbclean.2 hn)
    · exact hall c hc hn

/-- A visit without reports completes its node after all the node's edge targets. -/
theorem visit_clean (graph : Table α) (fuel : ℕ) (node : α) (trail : List α) (st : State α)
    (h : Inv graph st) (hf : graph.nodes.length < fuel + st.active.length)
    (hn : node ∈ graph.nodes) (ho : (visit graph fuel node trail st).reports = [])
    (hord : Ordered graph st.complete) :
    Ordered graph (visit graph fuel node trail st).complete ∧
      node ∈ (visit graph fuel node trail st).complete := by
  induction fuel generalizing node trail st with
  | zero =>
    have hle := (h.activeNodup.subperm h.activeNodes).length_le
    omega
  | succ fuel ih =>
    simp only [visit] at ho ⊢
    split_ifs with hc ha
    · exact ⟨hord, hc⟩
    · rw [if_neg hc, if_pos ha] at ho
      simp at ho
    · rw [if_neg hc, if_neg ha] at ho
      have henter := h.enter hn hc ha
      have hfuel : ∀ s, Extends graph { st with active := node :: st.active } s →
          graph.nodes.length < fuel + s.active.length := by
        intro s hs
        rw [hs.active, List.length_cons]
        omega
      obtain ⟨hord', hall⟩ := foldl_clean (fun s parent =>
        if parent ∈ graph.nodes then visit graph fuel parent (trail ++ [node]) s else s)
        (graph.parents node) henter (by
          intro s hs parent _
          split_ifs with hp
          · exact visit_extends graph fuel parent _ s hs.inv (hfuel s hs) hp
          · exact Extends.refl hs.inv) (by
          intro s hs parent _ hr hord
          split_ifs at hr ⊢ with hp
          · obtain ⟨h1, h2⟩ := ih parent _ s hs.inv (hfuel s hs) hp hr hord
            exact ⟨h1, fun _ => h2⟩
          · exact ⟨hord, fun hp' => absurd hp' hp⟩) ho hord
      exact ⟨⟨fun b hb => hall b hb.1 hb.2, hord'⟩, List.mem_cons_self⟩

theorem visit_acyclic (graph : Table α) (hacyc : ¬ graph.Cyclic) (fuel : ℕ) (node : α)
    (trail : List α) (st : State α) (h : Inv graph st)
    (hf : graph.nodes.length < fuel + st.active.length) (hn : node ∈ graph.nodes)
    (hw : Walk graph (node :: st.active)) :
    (visit graph fuel node trail st).reports = st.reports := by
  induction fuel generalizing node trail st with
  | zero => rfl
  | succ fuel ih =>
    simp only [visit]
    split_ifs with hc ha
    · rfl
    · exact absurd ⟨node, hw.reach ha⟩ hacyc
    · have henter := h.enter hn hc ha
      -- Folding over the parents keeps both the reports and the walk down to this node.
      suffices hfold : ∀ (items : List α), items ⊆ graph.parents node → ∀ s,
          Extends graph { st with active := node :: st.active } s →
          (items.foldl (fun s parent =>
            if parent ∈ graph.nodes then visit graph fuel parent (trail ++ [node]) s else s)
            s).reports = s.reports from
        hfold _ (List.Subset.refl _) _ (Extends.refl henter)
      intro items
      induction items with
      | nil => intro _ s _; rfl
      | cons parent rest ihl =>
        intro hsub s hs
        have hrest := List.Subset.trans (List.subset_cons_self _ _) hsub
        simp only [List.foldl_cons]
        split_ifs with hp
        · have hfuel : graph.nodes.length < fuel + s.active.length := by
            rw [hs.active, List.length_cons]
            omega
          have hv := visit_extends graph fuel parent (trail ++ [node]) s hs.inv hfuel hp
          have hwalk : Walk graph (parent :: s.active) := by
            rw [hs.active]
            exact List.isChain_cons_cons.mpr ⟨⟨hsub List.mem_cons_self, hp⟩, hw⟩
          rw [ihl hrest _ (hs.trans hv), ih parent _ s hs.inv hfuel hp hwalk]
        · exact ihl hrest s hs

omit [DecidableEq α] in
theorem inv_initial (graph : Table α) : Inv graph ⟨[], [], []⟩ :=
  ⟨List.nodup_nil, List.nil_subset _, List.nodup_nil, by simp⟩

theorem search_step (graph : Table α) (s : State α) (hs : Extends graph ⟨[], [], []⟩ s)
    (node : α) (hn : node ∈ graph.nodes) :
    Extends graph s (visit graph (graph.nodes.length + 1) node [] s) :=
  visit_extends graph _ node [] s hs.inv (by omega) hn

/-- A search without reports leaves every declared node in a completion order. -/
theorem search_clean (graph : Table α) (ho : (search graph).reports = []) :
    Ordered graph (search graph).complete ∧ (search graph).complete.Nodup ∧
      graph.nodes ⊆ (search graph).complete := by
  obtain ⟨hord, hall⟩ := foldl_clean
    (fun s node => visit graph (graph.nodes.length + 1) node [] s) graph.nodes
    (inv_initial graph) (search_step graph) (by
      intro s hs b hb hr hord
      obtain ⟨h1, h2⟩ := visit_clean graph _ b [] s hs.inv (by omega) hb hr hord
      exact ⟨h1, fun _ => h2⟩) ho trivial
  have hinv := (foldl_extends _ graph.nodes (inv_initial graph) (search_step graph)).inv
  exact ⟨hord, hinv.completeNodup, fun node hn => hall node hn hn⟩

theorem search_reports_eq_nil_iff (graph : Table α) :
    (search graph).reports = [] ↔ ¬ graph.Cyclic := by
  constructor
  · rintro ho ⟨node, hcycle⟩
    obtain ⟨hord, hnodup, hall⟩ := search_clean graph ho
    obtain ⟨_, _, hlast⟩ := Relation.TransGen.tail'_iff.mp hcycle
    exact hord.acyclic hnodup (hall hlast.2) hcycle
  · intro hacyc
    suffices hfold : ∀ (items : List α), items ⊆ graph.nodes → ∀ s,
        Extends graph ⟨[], [], []⟩ s → s.reports = [] →
        (items.foldl (fun s node => visit graph (graph.nodes.length + 1) node [] s) s).reports
          = [] from
      hfold _ (List.Subset.refl _) _ (Extends.refl (inv_initial graph)) rfl
    intro items
    induction items with
    | nil => intro _ s _ hr; exact hr
    | cons node rest ih =>
      intro hsub s hs hr
      have hn := hsub List.mem_cons_self
      have hwalk : Walk graph (node :: s.active) := by
        rw [hs.active]
        exact List.isChain_singleton _
      have hvisit := visit_acyclic graph hacyc _ node [] s hs.inv
        (show graph.nodes.length < graph.nodes.length + 1 + s.active.length by omega) hn hwalk
      exact ih (List.Subset.trans (List.subset_cons_self _ _) hsub) _
        (hs.trans (search_step graph s hs node hn)) (hvisit.trans hr)

end CycleSearch
