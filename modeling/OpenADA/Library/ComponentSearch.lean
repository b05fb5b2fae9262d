import Mathlib.Data.Finset.Card
import Mathlib.Data.List.Nodup
import Mathlib.Data.Nat.Basic
import Mathlib.Logic.Relation
import Mathlib.Tactic

/-! A loop that takes a step as long as there is one, within a number of steps; and the components
of a finite graph, found one after another by a worklist that meets the members of a set in any
order. -/
namespace Loop

variable {S : Type*} (step : S → Option S)

/-- The state in which the loop ends; nothing where the steps run out before. -/
def run : ℕ → S → Option S
  | fuel, s =>
    match step s, fuel with
    | none, _ => some s
    | some _, 0 => none
    | some next, fuel + 1 => run fuel next

variable {step}

/-- What every step keeps holds at the end of the loop, where no step is left. -/
theorem run_invariant {invariant : S → Prop}
    (hstep : ∀ s next, invariant s → step s = some next → invariant next)
    {fuel : ℕ} {s last : S} (h : invariant s) (hrun : run step fuel s = some last) :
    invariant last ∧ step last = none := by
  induction fuel generalizing s with
  | zero =>
    unfold run at hrun
    cases hnext : step s with
    | none =>
      obtain rfl : s = last := by simpa [hnext] using hrun
      exact ⟨h, hnext⟩
    | some next => simp [hnext] at hrun
  | succ fuel ih =>
    unfold run at hrun
    cases hnext : step s with
    | none =>
      obtain rfl : s = last := by simpa [hnext] using hrun
      exact ⟨h, hnext⟩
    | some next =>
      simp only [hnext] at hrun
      exact ih (hstep s next h hnext) hrun

theorem run_ends {invariant : S → Prop} (measure : S → ℕ)
    (hstep : ∀ s next, invariant s → step s = some next →
      invariant next ∧ measure next < measure s)
    {fuel : ℕ} {s : S} (h : invariant s) (hfuel : measure s ≤ fuel) :
    ∃ last, run step fuel s = some last := by
  induction fuel generalizing s with
  | zero =>
    unfold run
    cases hnext : step s with
    | none => exact ⟨s, rfl⟩
    | some next =>
      have hless := (hstep s next h hnext).2
      omega
  | succ fuel ih =>
    unfold run
    cases hnext : step s with
    | none => exact ⟨s, rfl⟩
    | some next =>
      obtain ⟨hinv, hless⟩ := hstep s next h hnext
      exact ih hinv (by omega)

end Loop

namespace ComponentSearch

variable {α : Type}

structure SetOrder (α : Type) where
  list : Finset α → List α
  nodup : ∀ s, (list s).Nodup
  mem_list : ∀ s a, a ∈ list s ↔ a ∈ s

/-- The neighbours of every node of a finite graph; edges have no direction. -/
structure Graph (α : Type) where
  nodes : Finset α
  next : α → Finset α
  next_subset : ∀ a, next a ⊆ nodes
  symm : ∀ a b, b ∈ next a → a ∈ next b

/-- The nodes that wait, the last one first, and the nodes that are found. -/
structure State (α : Type) where
  active : List α
  component : Finset α

section Search

variable [DecidableEq α] (order : SetOrder α) (graph : Graph α)

def step (s : State α) : Option (State α) :=
  match s.active with
  | [] => none
  | node :: rest =>
    if node ∈ s.component then some ⟨rest, s.component⟩
    else
      let component := insert node s.component
      some ⟨(order.list (graph.next node \ component)).reverse ++ rest, component⟩

def component (fuel : ℕ) (first : α) : Option (Finset α) :=
  (Loop.run (step order graph) fuel ⟨[first], ∅⟩).map State.component

def components (fuel : ℕ) : ℕ → Finset α → Option (List (Finset α))
  | rounds, remaining =>
    match order.list remaining, rounds with
    | [], _ => some []
    | _ :: _, 0 => none
    | first :: _, rounds + 1 => do
      let found ← component order graph fuel first
      let others ← components fuel rounds (remaining \ found)
      some (found :: others)

end Search

namespace Graph

variable (graph : Graph α)

def Reach (a b : α) : Prop := Relation.ReflTransGen (fun x y => y ∈ graph.next x) a b

def IsComponent (c : Finset α) : Prop := ∃ a ∈ graph.nodes, ∀ x, x ∈ c ↔ graph.Reach a x

def worklistBound : ℕ := graph.nodes.card * (graph.nodes.card + 1) + 1

variable {graph} {a b c : α}

theorem Reach.symm (h : graph.Reach a b) : graph.Reach b a := by
  induction h with
  | refl => exact .refl
  | tail _ hedge ih => exact .head (graph.symm _ _ hedge) ih

theorem Reach.mem_nodes (h : graph.Reach a b) (ha : a ∈ graph.nodes) : b ∈ graph.nodes := by
  induction h with
  | refl => exact ha
  | tail _ hedge _ => exact graph.next_subset _ hedge

/-- What holds at the start and goes along every edge holds of all that is reached. -/
theorem Reach.closed {p : α → Prop} (h : graph.Reach a b) (ha : p a)
    (hstep : ∀ x y, p x → y ∈ graph.next x → p y) : p b := by
  induction h with
  | refl => exact ha
  | tail _ hedge ih => exact hstep _ _ ih hedge

end Graph

section Worklist

variable {order : SetOrder α} {graph : Graph α} {first : α} {s next : State α}

/-- What a worklist from one node keeps: all that is found or waits is reached, and the neighbours
of what is found are found or wait. -/
structure Searching (graph : Graph α) (first : α) (s : State α) : Prop where
  started : first ∈ s.component ∨ first ∈ s.active
  reached : ∀ x, x ∈ s.component ∨ x ∈ s.active → graph.Reach first x
  explored : ∀ a ∈ s.component, ∀ b ∈ graph.next a, b ∈ s.component ∨ b ∈ s.active

theorem searching_start (graph : Graph α) (first : α) : Searching graph first ⟨[first], ∅⟩ where
  started := .inr (List.mem_singleton.mpr rfl)
  reached := by
    rintro x (hx | hx)
    · exact absurd hx (Finset.notMem_empty x)
    · rw [List.mem_singleton.mp hx]
      exact .refl
  explored := fun a ha => absurd ha (Finset.notMem_empty a)

variable [DecidableEq α]

/-- What one round does: it drops a node that is found already, or finds one and lets its
neighbours wait. -/
theorem step_cases (h : step order graph s = some next) :
    ∃ node rest, s.active = node :: rest ∧
      (node ∈ s.component ∧ next = ⟨rest, s.component⟩ ∨
        node ∉ s.component ∧ next.component = insert node s.component ∧
          next.active = (order.list (graph.next node \ insert node s.component)).reverse ++ rest) := by
  unfold step at h
  cases hactive : s.active with
  | nil =>
    rw [hactive] at h
    cases h
  | cons node rest =>
    rw [hactive] at h
    refine ⟨node, rest, rfl, ?_⟩
    by_cases hfound : node ∈ s.component
    · simp only [if_pos hfound] at h
      exact .inl ⟨hfound, (Option.some.inj h).symm⟩
    · simp only [if_neg hfound] at h
      obtain rfl := Option.some.inj h
      exact .inr ⟨hfound, rfl, rfl⟩

theorem Searching.step (hs : Searching graph first s) (h : step order graph s = some next) :
    Searching graph first next := by
  obtain ⟨node, rest, hactive, ⟨hfound, rfl⟩ | ⟨hnew, hcomponent, hwaiting⟩⟩ := step_cases h
  · have hmoved : ∀ x, x ∈ s.component ∨ x ∈ s.active → x ∈ s.component ∨ x ∈ rest := by
      intro x hx
      rw [hactive, List.mem_cons] at hx
      rcases hx with hx | rfl | hx
      · exact .inl hx
      · exact .inl hfound
      · exact .inr hx
    refine ⟨hmoved first hs.started, fun x hx => hs.reached x ?_, fun a ha b hb =>
      hmoved b (hs.explored a ha b hb)⟩
    rw [hactive, List.mem_cons]
    exact hx.imp_right .inr
  · have hmem : ∀ x, x ∈ next.component ∨ x ∈ next.active ↔
        (x ∈ s.component ∨ x ∈ s.active) ∨ x ∈ graph.next node := by
      intro x
      rw [hcomponent, hwaiting, hactive, List.mem_append, List.mem_reverse, order.mem_list,
        Finset.mem_sdiff, Finset.mem_insert, List.mem_cons]
      tauto
    refine ⟨(hmem first).mpr (.inl hs.started), fun x hx => ?_, fun a ha b hb => ?_⟩
    · rcases (hmem x).mp hx with hx | hx
      · exact hs.reached x hx
      · have hnode := hs.reached node (.inr (hactive ▸ List.mem_cons_self ..))
        exact hnode.tail hx
    · rw [hcomponent, Finset.mem_insert] at ha
      rw [hmem]
      rcases ha with rfl | ha
      · exact .inr hb
      · exact .inl (hs.explored a ha b hb)

/-- The nodes that are not found yet, each with all that it may let wait, and what waits. -/
def pending (graph : Graph α) (s : State α) : ℕ :=
  (graph.nodes \ s.component).card * (graph.nodes.card + 1) + s.active.length

theorem pending_step (hfirst : first ∈ graph.nodes) (hs : Searching graph first s)
    (h : step order graph s = some next) : pending graph next < pending graph s := by
  obtain ⟨node, rest, hactive, ⟨hfound, rfl⟩ | ⟨hnew, hcomponent, hwaiting⟩⟩ := step_cases h
  · simp only [pending, hactive, List.length_cons]
    omega
  · have hnode : node ∈ graph.nodes :=
      (hs.reached node (.inr (hactive ▸ List.mem_cons_self ..))).mem_nodes hfirst
    have hfewer : (graph.nodes \ next.component).card + 1 = (graph.nodes \ s.component).card := by
      rw [hcomponent, Finset.sdiff_insert]
      exact Finset.card_erase_add_one (Finset.mem_sdiff.mpr ⟨hnode, hnew⟩)
    have hlength : (order.list (graph.next node \ insert node s.component)).length ≤
        graph.nodes.card := by
      rw [← List.toFinset_card_of_nodup (order.nodup _)]
      refine Finset.card_le_card fun x hx => ?_
      rw [List.mem_toFinset, order.mem_list, Finset.mem_sdiff] at hx
      exact graph.next_subset node hx.1
    rw [pending, pending, ← hfewer, hactive, hwaiting, List.length_append, List.length_reverse,
      List.length_cons, Nat.add_mul]
    omega

/-- Within its bound the worklist ends, with the nodes that are reached from the first. -/
theorem component_spec (hfirst : first ∈ graph.nodes) {fuel : ℕ}
    (hfuel : graph.worklistBound ≤ fuel) :
    ∃ c, component order graph fuel first = some c ∧ ∀ x, x ∈ c ↔ graph.Reach first x := by
  have hbound : pending graph ⟨[first], ∅⟩ ≤ fuel := by
    simpa [pending, Graph.worklistBound] using hfuel
  obtain ⟨last, hlast⟩ := Loop.run_ends (pending graph)
    (fun s next hs h => ⟨hs.step h, pending_step hfirst hs h⟩) (searching_start graph first) hbound
  obtain ⟨hs, hend⟩ := Loop.run_invariant (fun s next hs h => Searching.step hs h)
    (searching_start graph first) hlast
  have hactive : last.active = [] := by
    cases hlist : last.active with
    | nil => rfl
    | cons node rest =>
      unfold step at hend
      rw [hlist] at hend
      dsimp only at hend
      split_ifs at hend
  refine ⟨last.component, by rw [component, hlast]; rfl, fun x => ⟨fun hx => hs.reached x (.inl hx),
    fun hx => ?_⟩⟩
  have hwaits : ∀ y, y ∈ last.component ∨ y ∈ last.active → y ∈ last.component := by
    rintro y (hy | hy)
    · exact hy
    · rw [hactive] at hy
      exact absurd hy List.not_mem_nil
  exact hx.closed (hwaits first hs.started) fun a b ha hb => hwaits b (hs.explored a ha b hb)

end Worklist

section Components

variable [DecidableEq α] {order : SetOrder α} {graph : Graph α}

/-- Components of some nodes: every node is in one, and no two share a node. -/
structure Covers (graph : Graph α) (remaining : Finset α) (found : List (Finset α)) : Prop where
  reached : ∀ c ∈ found, ∃ a ∈ remaining, ∀ x, x ∈ c ↔ graph.Reach a x
  covered : ∀ a ∈ remaining, ∃ c ∈ found, a ∈ c
  disjoint : found.Pairwise Disjoint

theorem components_covers {fuel : ℕ} (hfuel : graph.worklistBound ≤ fuel) {rounds : ℕ}
    {remaining : Finset α} (hnodes : remaining ⊆ graph.nodes)
    (hclosed : ∀ a ∈ remaining, ∀ b ∈ graph.next a, b ∈ remaining)
    (hrounds : remaining.card ≤ rounds) :
    ∃ found, components order graph fuel rounds remaining = some found ∧
      Covers graph remaining found := by
  induction rounds generalizing remaining with
  | zero =>
    obtain rfl : remaining = ∅ := Finset.card_eq_zero.mp (by omega)
    have hlist : order.list (∅ : Finset α) = [] :=
      List.eq_nil_iff_forall_not_mem.mpr fun a ha =>
        absurd ((order.mem_list ∅ a).mp ha) (Finset.notMem_empty a)
    refine ⟨[], ?_, ⟨fun c hc => absurd hc List.not_mem_nil,
      fun a ha => absurd ha (Finset.notMem_empty a), List.Pairwise.nil⟩⟩
    unfold components
    rw [hlist]
  | succ rounds ih =>
    cases hlist : order.list remaining with
    | nil =>
      have hempty : ∀ a, a ∉ remaining := fun a ha => by
        have := (order.mem_list remaining a).mpr ha
        rw [hlist] at this
        exact absurd this List.not_mem_nil
      refine ⟨[], ?_, ⟨fun c hc => absurd hc List.not_mem_nil,
        fun a ha => absurd ha (hempty a), List.Pairwise.nil⟩⟩
      unfold components
      rw [hlist]
    | cons first others =>
      have hfirst : first ∈ remaining :=
        (order.mem_list remaining first).mp (hlist ▸ List.mem_cons_self ..)
      obtain ⟨c, hc, hmem⟩ : ∃ c, component order graph fuel first = some c ∧
          ∀ x, x ∈ c ↔ graph.Reach first x := component_spec (hnodes hfirst) hfuel
      have hfound : first ∈ c := (hmem first).mpr .refl
      have hinside : ∀ x ∈ c, x ∈ remaining := fun x hx =>
        ((hmem x).mp hx).closed hfirst fun a b ha hb => hclosed a ha b hb
      have hrest : ∀ a ∈ remaining \ c, ∀ b ∈ graph.next a, b ∈ remaining \ c := by
        intro a ha b hb
        rw [Finset.mem_sdiff] at ha ⊢
        refine ⟨hclosed a ha.1 b hb, fun hbc => ha.2 ((hmem a).mpr ?_)⟩
        exact ((hmem b).mp hbc).tail (graph.symm a b hb)
      have hfewer : (remaining \ c).card < remaining.card :=
        Finset.card_lt_card ⟨Finset.sdiff_subset, fun hsub =>
          (Finset.mem_sdiff.mp (hsub hfirst)).2 hfound⟩
      obtain ⟨found, hcomponents, hcovers⟩ :=
        ih (Finset.sdiff_subset.trans hnodes) hrest (by omega)
      refine ⟨c :: found, ?_, ⟨?_, ?_, ?_⟩⟩
      · unfold components
        simp only [hlist, hc, hcomponents, Option.bind_eq_bind, Option.bind_some]
      · intro d hd
        rcases List.mem_cons.mp hd with rfl | hd
        · exact ⟨first, hfirst, hmem⟩
        · obtain ⟨a, ha, hreach⟩ := hcovers.reached d hd
          exact ⟨a, (Finset.mem_sdiff.mp ha).1, hreach⟩
      · intro a ha
        by_cases hac : a ∈ c
        · exact ⟨c, List.mem_cons_self .., hac⟩
        · obtain ⟨d, hd, had⟩ := hcovers.covered a (Finset.mem_sdiff.mpr ⟨ha, hac⟩)
          exact ⟨d, List.mem_cons_of_mem _ hd, had⟩
      · refine List.pairwise_cons.mpr ⟨fun d hd => ?_, hcovers.disjoint⟩
        obtain ⟨a, ha, hreach⟩ := hcovers.reached d hd
        rw [Finset.disjoint_left]
        intro x hxc hxd
        have hax := (hreach x).mp hxd
        exact (Finset.mem_sdiff.mp ha).2 ((hmem a).mpr (((hmem x).mp hxc).trans hax.symm))

theorem components_spec {fuel rounds : ℕ} (hfuel : graph.worklistBound ≤ fuel)
    (hrounds : graph.nodes.card ≤ rounds) :
    ∃ found, components order graph fuel rounds graph.nodes = some found ∧ found.Nodup ∧
      ∀ c, c ∈ found ↔ graph.IsComponent c := by
  obtain ⟨found, hfound, hcovers⟩ : ∃ found,
      components order graph fuel rounds graph.nodes = some found ∧ Covers graph graph.nodes found :=
    components_covers hfuel (Finset.Subset.refl graph.nodes)
      (fun a _ b hb => graph.next_subset a hb) hrounds
  refine ⟨found, hfound, ?_, fun c => ⟨fun hc => hcovers.reached c hc, ?_⟩⟩
  · refine List.Pairwise.imp_of_mem (fun {c d} hc hd hdisjoint heq => ?_) hcovers.disjoint
    subst heq
    obtain ⟨a, -, hreach⟩ := hcovers.reached c hc
    have ha := (hreach a).mpr .refl
    exact Finset.disjoint_left.mp hdisjoint ha ha
  · rintro ⟨a, ha, hreach⟩
    obtain ⟨d, hd, had⟩ := hcovers.covered a ha
    obtain ⟨b, -, hother⟩ := hcovers.reached d hd
    have hba := (hother a).mp had
    have hsame : c = d := by
      ext x
      rw [hreach, hother]
      exact ⟨fun hx => hba.trans hx, fun hx => hba.symm.trans hx⟩
    exact hsame ▸ hd

end Components

end ComponentSearch
