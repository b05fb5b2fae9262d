import OpenADA.Library.CycleSearch

/-! Layer-by-layer topological ordering: emit every node without a remaining parent,
remove the emitted layer, and repeat until nothing remains. -/
namespace LayeredOrder
open CycleSearch

variable {α : Type} [DecidableEq α]

inductive Failure where
  /-- No remaining node is free of remaining parents. -/
  | stuck
  /-- The round budget ran out; by `order_spec` an acyclic table never meets it. -/
  | exhausted
  deriving DecidableEq, Repr

def ready (graph : Table α) (remaining : List α) : List α :=
  graph.nodes.filter fun node =>
    decide (node ∈ remaining) && (graph.parents node).all fun parent => decide (parent ∉ remaining)

def layers (graph : Table α) : ℕ → List α → Except Failure (List α)
  | _, [] => .ok []
  | 0, _ :: _ => .error .exhausted
  | rounds + 1, node :: rest =>
    match ready graph (node :: rest) with
    | [] => .error .stuck
    | first :: layer =>
      (layers graph rounds ((node :: rest).filter (· ∉ first :: layer))).map
        (first :: layer ++ ·)

def order (graph : Table α) : Except Failure (List α) :=
  layers graph graph.nodes.length graph.nodes

/-- `b` stands strictly before `a` in the list. -/
def Precedes (items : List α) (b a : α) : Prop :=
  ∃ before after, items = before ++ a :: after ∧ b ∈ before

omit [DecidableEq α] in
theorem Precedes.append_left {items : List α} {b a : α} (h : Precedes items b a)
    (front : List α) : Precedes (front ++ items) b a := by
  obtain ⟨before, after, rfl, hb⟩ := h
  exact ⟨front ++ before, after, by simp, List.mem_append_right _ hb⟩

omit [DecidableEq α] in
theorem precedes_of_mem {front items : List α} {b a : α} (hb : b ∈ front) (ha : a ∈ items) :
    Precedes (front ++ items) b a := by
  obtain ⟨before, after, rfl⟩ := List.append_of_mem ha
  exact ⟨front ++ before, after, by simp, List.mem_append_left _ hb⟩

theorem mem_ready {graph : Table α} {remaining : List α} {node : α} :
    node ∈ ready graph remaining ↔
      node ∈ graph.nodes ∧ node ∈ remaining ∧ ∀ p ∈ graph.parents node, p ∉ remaining := by
  simp [ready]

theorem nodup_ready {graph : Table α} (hn : graph.nodes.Nodup) (remaining : List α) :
    (ready graph remaining).Nodup := hn.filter _

/-- A completion order exposes a node of any remaining set without remaining targets. -/
theorem exists_minimal {graph : Table α} {done : List α} (h : Ordered graph done)
    {remaining : List α} (hex : ∃ a ∈ done, a ∈ remaining) :
    ∃ a ∈ done, a ∈ remaining ∧ ∀ b, graph.Edge a b → b ∉ remaining := by
  induction done with
  | nil => obtain ⟨a, ha, _⟩ := hex; cases ha
  | cons node rest ih =>
    by_cases hrest : ∃ a ∈ rest, a ∈ remaining
    · obtain ⟨a, ha, hr, hb⟩ := ih h.2 hrest
      exact ⟨a, List.mem_cons_of_mem _ ha, hr, hb⟩
    · push Not at hrest
      obtain ⟨a, ha, hr⟩ := hex
      rcases List.mem_cons.mp ha with rfl | ha
      · exact ⟨a, List.mem_cons_self, hr, fun b hb => hrest b (h.1 b hb)⟩
      · exact absurd hr (hrest a ha)

theorem ready_ne_nil {graph : Table α} {done : List α} (h : Ordered graph done)
    (hall : graph.nodes ⊆ done) {remaining : List α} (hsub : remaining ⊆ graph.nodes)
    (hne : remaining ≠ []) : ready graph remaining ≠ [] := by
  obtain ⟨b, hb⟩ := List.exists_mem_of_ne_nil remaining hne
  obtain ⟨a, _, ha, hmin⟩ := exists_minimal h ⟨b, hall (hsub hb), hb⟩
  refine List.ne_nil_of_mem (mem_ready.mpr ⟨hsub ha, ha, fun p hp hr => ?_⟩)
  exact hmin p ⟨hp, hsub hr⟩ hr

theorem layer_perm {graph : Table α} (hn : graph.nodes.Nodup) {remaining : List α}
    (hr : remaining.Nodup) :
    (ready graph remaining ++ remaining.filter (· ∉ ready graph remaining)).Perm remaining := by
  have hlayer : (ready graph remaining).Perm
      (remaining.filter fun node => decide (node ∈ ready graph remaining)) := by
    apply (List.perm_ext_iff_of_nodup (nodup_ready hn remaining) (hr.filter _)).mpr
    intro node
    simp only [List.mem_filter, decide_eq_true_eq]
    exact ⟨fun h => ⟨(mem_ready.mp h).2.1, h⟩, And.right⟩
  have hsplit := List.filter_append_perm
    (fun node => decide (node ∈ ready graph remaining)) remaining
  have hkeep : (remaining.filter fun node => !decide (node ∈ ready graph remaining)) =
      remaining.filter (· ∉ ready graph remaining) := by
    congr 1
    funext node
    simp
  rw [hkeep] at hsplit
  exact (hlayer.append_right _).trans hsplit

/-- From any remaining set of an acyclic table the rounds emit all of it, parents first. -/
theorem layers_spec {graph : Table α} (hn : graph.nodes.Nodup) {done : List α}
    (h : Ordered graph done) (hall : graph.nodes ⊆ done) (rounds : ℕ) (remaining : List α)
    (hr : remaining.Nodup) (hsub : remaining ⊆ graph.nodes) (hlen : remaining.length ≤ rounds) :
    ∃ out, layers graph rounds remaining = .ok out ∧ out.Perm remaining ∧
      ∀ a ∈ out, ∀ b ∈ graph.parents a, b ∈ remaining → Precedes out b a := by
  induction rounds generalizing remaining with
  | zero =>
    have hnil : remaining = [] := List.length_eq_zero_iff.mp (by omega)
    subst hnil
    exact ⟨[], by simp [layers], .nil, by simp⟩
  | succ rounds ih =>
    cases remaining with
    | nil => exact ⟨[], by simp [layers], .nil, by simp⟩
    | cons node rest =>
      have hne := ready_ne_nil h hall hsub (List.cons_ne_nil node rest)
      have hperm := layer_perm hn hr
      cases hready : ready graph (node :: rest) with
      | nil => exact absurd hready hne
      | cons first layer =>
        rw [hready] at hperm
        have hkeepSub : (node :: rest).filter (· ∉ first :: layer) ⊆ node :: rest :=
          fun _ hm => (List.mem_filter.mp hm).1
        have hlen' : ((node :: rest).filter (· ∉ first :: layer)).length ≤ rounds := by
          have hl := hperm.length_eq
          rw [List.length_append, List.length_cons] at hl
          rw [List.length_cons] at hl hlen
          omega
        obtain ⟨tail, htail, hperm', hprec⟩ := ih _ (hr.filter _)
          (List.Subset.trans hkeepSub hsub) hlen'
        refine ⟨first :: layer ++ tail, ?_, ?_, ?_⟩
        · simp only [layers, hready, htail, Except.map]
        · exact (hperm'.append_left _).trans hperm
        · intro a ha b hb hrem
          rcases List.mem_append.mp ha with ha | ha
          · rw [← hready] at ha
            exact absurd hrem ((mem_ready.mp ha).2.2 b hb)
          · by_cases hlayer : b ∈ first :: layer
            · exact precedes_of_mem hlayer ha
            · have hkept : b ∈ (node :: rest).filter (· ∉ first :: layer) :=
                List.mem_filter.mpr ⟨hrem, by simpa using hlayer⟩
              exact (hprec a ha b hb hkept).append_left _

/-- An acyclic table has an order: every node once, after all its declared parents. -/
theorem order_spec {graph : Table α} (hn : graph.nodes.Nodup) (hacyc : ¬ graph.Cyclic) :
    ∃ out, order graph = .ok out ∧ out.Perm graph.nodes ∧
      ∀ a b, graph.Edge a b → a ∈ graph.nodes → Precedes out b a := by
  obtain ⟨hord, _, hall⟩ := search_clean graph ((search_reports_eq_nil_iff graph).mpr hacyc)
  obtain ⟨out, hout, hperm, hprec⟩ := layers_spec hn hord hall graph.nodes.length graph.nodes hn
    (List.Subset.refl _) le_rfl
  exact ⟨out, hout, hperm, fun a b hab ha => hprec a (hperm.mem_iff.mpr ha) b hab.1 hab.2⟩

end LayeredOrder
