import OpenADA.Library.ExceptFold
import Mathlib.Data.List.Nodup
import Mathlib.Logic.Relation
import Mathlib.Tactic

/-! Completion orders of a depth-first traversal over an arbitrary edge relation: lists in which
every node stands after its own targets; and a depth-first search that lists every node so and stops
at the first node it meets again on its way down, or does not know. -/
namespace CompletionOrder

variable {α : Type} {edge : α → α → Prop} {done : List α}

def Ordered (edge : α → α → Prop) (done : List α) : Prop :=
  ∀ before a after, done = before ++ a :: after → ∀ b, edge a b → b ∈ before

theorem Ordered.nil : Ordered edge [] := by
  intro before a after h
  exact absurd h (by simp)

theorem Ordered.snoc (h : Ordered edge done) {a : α} (ha : ∀ b, edge a b → b ∈ done) :
    Ordered edge (done ++ [a]) := by
  intro before c after hsplit b hcb
  rcases List.eq_nil_or_concat after with rfl | ⟨rest, last, rfl⟩
  · obtain ⟨rfl, hlast⟩ := List.append_inj' hsplit rfl
    obtain rfl := List.singleton_inj.mp hlast
    exact ha b hcb
  · have hparts : done ++ [a] = (before ++ c :: rest) ++ [last] := by
      rw [hsplit]
      simp
    obtain ⟨hdone, _⟩ := List.append_inj' hparts rfl
    exact h before c rest hdone b hcb

theorem Ordered.closed (h : Ordered edge done) {a b : α} (ha : a ∈ done) (hab : edge a b) :
    b ∈ done := by
  obtain ⟨before, after, hsplit⟩ := List.append_of_mem ha
  rw [hsplit]
  exact List.mem_append_left _ (h before a after hsplit b hab)

theorem Ordered.reach (h : Ordered edge done) {a b : α} (ha : a ∈ done)
    (hab : Relation.ReflTransGen edge a b) : b ∈ done := by
  induction hab with
  | refl => exact ha
  | tail _ hbc ih => exact h.closed ih hbc

/-- Whatever a listed node reaches by at least one edge stands before it. -/
theorem Ordered.before (h : Ordered edge done) {a b : α} {before after : List α}
    (hsplit : done = before ++ a :: after) (hab : Relation.TransGen edge a b) : b ∈ before := by
  induction hab with
  | single hab => exact h before a after hsplit _ hab
  | @tail b c _ hbc ih =>
    obtain ⟨front, back, hfront⟩ := List.append_of_mem ih
    have hdone : done = front ++ b :: (back ++ a :: after) := by
      rw [hsplit, hfront]
      simp
    rw [hfront]
    exact List.mem_append_left _ (h front b _ hdone c hbc)

theorem Ordered.acyclic (h : Ordered edge done) (hn : done.Nodup) {a : α} (ha : a ∈ done) :
    ¬ Relation.TransGen edge a a := by
  intro hc
  obtain ⟨before, after, hsplit⟩ := List.append_of_mem ha
  have hmem := h.before hsplit hc
  rw [hsplit] at hn
  exact (List.nodup_append.mp hn).2.2 a hmem a (List.mem_cons_self ..) rfl

end CompletionOrder

namespace CompletionSearch

open CompletionOrder

variable {α : Type}

inductive Failure (α : Type) where
  | cycle (chain : List α)
  | unknown (node : α)
  | depth
  deriving DecidableEq

structure State (α : Type) where
  visiting : List α
  ordered : List α

def Edge (targets : α → Option (List α)) (a b : α) : Prop := ∃ next, targets a = some next ∧ b ∈ next

section Search

variable [DecidableEq α] (targets : α → Option (List α))

/-- One visit below a chain of nodes; `depth` counts the visits that may still be nested. -/
def visit : ℕ → α → List α → State α → Except (Failure α) (State α)
  | 0, _, _, _ => .error .depth
  | depth + 1, node, chain, state =>
    if node ∈ state.ordered then .ok state
    else if node ∈ state.visiting then .error (.cycle (chain ++ [node]))
    else match targets node with
      | none => .error (.unknown node)
      | some next => do
        let left ← next.foldlM (fun s target => visit depth target (chain ++ [node]) s)
          ⟨node :: state.visiting, state.ordered⟩
        .ok ⟨left.visiting.erase node, left.ordered ++ [node]⟩

def search (depth : ℕ) (roots : List α) : Except (Failure α) (State α) :=
  roots.foldlM (fun s root => visit targets depth root [] s) ⟨[], []⟩

end Search

variable {targets : α → Option (List α)} {nodes : List α}

/-- The completed nodes are listed once and after their targets, and none is on the way down. -/
structure Ready (targets : α → Option (List α)) (nodes : List α) (state : State α) : Prop where
  ordered : Ordered (Edge targets) state.ordered
  nodup : state.ordered.Nodup
  visiting : state.visiting.Nodup
  known : state.visiting ⊆ nodes
  apart : ∀ a ∈ state.visiting, a ∉ state.ordered

structure Grown (targets : α → Option (List α)) (nodes : List α) (reach : α → Prop)
    (state out : State α) : Prop where
  ready : Ready targets nodes out
  visiting : out.visiting = state.visiting
  kept : state.ordered ⊆ out.ordered
  reached : ∀ a ∈ out.ordered, a ∈ state.ordered ∨ reach a

def Outcome (targets : α → Option (List α)) (nodes : List α) (reach : α → Prop) (state : State α)
    (done : State α → Prop) : Except (Failure α) (State α) → Prop
  | .ok out => Grown targets nodes reach state out ∧ done out
  | .error (.cycle _) => ∃ a, reach a ∧ Relation.TransGen (Edge targets) a a
  | .error (.unknown a) => reach a ∧ targets a = none
  | .error .depth => False

theorem Outcome.mono {reach reach' : α → Prop} {state : State α} {done : State α → Prop}
    {r : Except (Failure α) (State α)} (h : Outcome targets nodes reach state done r)
    (hreach : ∀ a, reach a → reach' a) : Outcome targets nodes reach' state done r := by
  cases r with
  | ok out =>
    obtain ⟨hgrown, hdone⟩ := h
    exact ⟨⟨hgrown.ready, hgrown.visiting, hgrown.kept, fun a ha => (hgrown.reached a ha).imp_right
      (hreach a)⟩, hdone⟩
  | error failure =>
    cases failure with
    | cycle chain =>
      obtain ⟨a, ha, hcycle⟩ := h
      exact ⟨a, hreach a ha, hcycle⟩
    | unknown a => exact ⟨hreach a h.1, h.2⟩
    | depth => exact h

theorem Grown.refl {reach : α → Prop} {state : State α} (h : Ready targets nodes state) :
    Grown targets nodes reach state state :=
  ⟨h, rfl, List.Subset.refl _, fun _ ha => .inl ha⟩

theorem Grown.trans {reach : α → Prop} {a b c : State α} (hab : Grown targets nodes reach a b)
    (hbc : Grown targets nodes reach b c) : Grown targets nodes reach a c :=
  ⟨hbc.ready, hbc.visiting.trans hab.visiting, List.Subset.trans hab.kept hbc.kept, fun x hx =>
    (hbc.reached x hx).elim (hab.reached x) .inr⟩

/-- The search through a list of nodes, from what a visit of each of them comes to. -/
theorem outcome_foldlM {step : State α → α → Except (Failure α) (State α)} {reach : α → Prop}
    {items : List α} {state : State α} (hready : Ready targets nodes state)
    (hstep : ∀ a ∈ items, ∀ s, Grown targets nodes reach state s →
      Outcome targets nodes reach s (a ∈ ·.ordered) (step s a)) :
    Outcome targets nodes reach state (fun out => items ⊆ out.ordered)
      (items.foldlM step state) := by
  induction items generalizing state with
  | nil => exact ⟨.refl hready, List.nil_subset _⟩
  | cons a rest ih =>
    have ha := hstep a (List.mem_cons_self ..) state (.refl hready)
    rw [List.foldlM_cons]
    cases hnext : step state a with
    | error failure =>
      rw [hnext] at ha
      cases failure with
      | cycle chain => exact ha
      | unknown b => exact ha
      | depth => exact ha
    | ok next =>
      rw [hnext] at ha
      obtain ⟨hgrown, hmem⟩ := ha
      have hrest := ih hgrown.ready fun b hb s hs =>
        hstep b (List.mem_cons_of_mem _ hb) s (hgrown.trans hs)
      rw [Except.ok_bind]
      cases hout : rest.foldlM step next with
      | error failure =>
        rw [hout] at hrest
        cases failure with
        | cycle chain => exact hrest
        | unknown b => exact hrest
        | depth => exact hrest
      | ok out =>
        rw [hout] at hrest
        exact ⟨hgrown.trans hrest.1, List.cons_subset.mpr ⟨hrest.1.kept hmem, hrest.2⟩⟩

theorem Ready.enter {state : State α} (h : Ready targets nodes state) {node : α}
    (hordered : node ∉ state.ordered) (hvisiting : node ∉ state.visiting) (hnode : node ∈ nodes) :
    Ready targets nodes ⟨node :: state.visiting, state.ordered⟩ where
  ordered := h.ordered
  nodup := h.nodup
  visiting := List.nodup_cons.mpr ⟨hvisiting, h.visiting⟩
  known := List.cons_subset.mpr ⟨hnode, h.known⟩
  apart := by
    intro a ha
    rcases List.mem_cons.mp ha with rfl | ha
    · exact hordered
    · exact h.apart a ha

section Leaving

variable [DecidableEq α]

theorem Grown.leave {state left : State α} {node : α} (hvisiting : node ∉ state.visiting)
    (h : Grown targets nodes (Relation.ReflTransGen (Edge targets) node)
      ⟨node :: state.visiting, state.ordered⟩ left)
    (htargets : ∀ b, Edge targets node b → b ∈ left.ordered) :
    Grown targets nodes (Relation.ReflTransGen (Edge targets) node) state
      ⟨left.visiting.erase node, left.ordered ++ [node]⟩ := by
  have hleft : left.visiting = node :: state.visiting := h.visiting
  have hfresh : node ∉ left.ordered :=
    h.ready.apart node (by rw [hleft]; exact List.mem_cons_self ..)
  have hnodup := h.ready.visiting
  rw [hleft, List.nodup_cons] at hnodup
  rw [hleft, List.erase_cons_head]
  refine ⟨⟨h.ready.ordered.snoc htargets, ?_, hnodup.2, ?_, ?_⟩, rfl, ?_, ?_⟩
  · exact List.nodup_append.mpr ⟨h.ready.nodup, List.nodup_singleton _, fun a ha b hb hab =>
      hfresh (by rwa [← List.mem_singleton.mp hb, ← hab])⟩
  · exact fun a ha => h.ready.known (by rw [hleft]; exact List.mem_cons_of_mem _ ha)
  · intro a ha hmem
    rcases List.mem_append.mp hmem with hmem | hmem
    · exact h.ready.apart a (by rw [hleft]; exact List.mem_cons_of_mem _ ha) hmem
    · rw [List.mem_singleton.mp hmem] at ha
      exact hvisiting ha
  · exact fun a ha => List.mem_append_left _ (h.kept ha)
  · intro a ha
    rcases List.mem_append.mp ha with ha | ha
    · exact h.reached a ha
    · rw [List.mem_singleton.mp ha]
      exact .inr .refl

theorem visit_outcome (hnodes : ∀ a, targets a ≠ none → a ∈ nodes) (depth : ℕ) (node : α)
    (chain : List α) (state : State α) (hready : Ready targets nodes state)
    (habove : ∀ a ∈ state.visiting, Relation.TransGen (Edge targets) a node)
    (hdepth : nodes.length < depth + state.visiting.length) :
    Outcome targets nodes (Relation.ReflTransGen (Edge targets) node) state (node ∈ ·.ordered)
      (visit targets depth node chain state) := by
  induction depth generalizing node chain state with
  | zero =>
    have hle := (hready.visiting.subperm hready.known).length_le
    omega
  | succ depth ih =>
    rw [visit]
    split_ifs with hordered hvisiting
    · exact ⟨.refl hready, hordered⟩
    · exact ⟨node, .refl, habove node hvisiting⟩
    · cases htargets : targets node with
      | none => exact ⟨.refl, htargets⟩
      | some next =>
        have hnode : node ∈ nodes := hnodes node (by rw [htargets]; exact Option.some_ne_none _)
        have hbelow : Outcome targets nodes (Relation.ReflTransGen (Edge targets) node)
            ⟨node :: state.visiting, state.ordered⟩ (next ⊆ ·.ordered)
            (next.foldlM (fun s target => visit targets depth target (chain ++ [node]) s)
              ⟨node :: state.visiting, state.ordered⟩) :=
          outcome_foldlM (hready.enter hordered hvisiting hnode) fun b hb s hs => by
            have hedge : Edge targets node b := ⟨next, htargets, hb⟩
            refine (ih b (chain ++ [node]) s hs.ready ?_ ?_).mono fun a ha => .head hedge ha
            · intro a ha
              rw [hs.visiting] at ha
              rcases List.mem_cons.mp ha with rfl | ha
              · exact .single hedge
              · exact (habove a ha).tail hedge
            · rw [hs.visiting, List.length_cons]
              omega
        simp only
        cases hleft : next.foldlM (fun s target => visit targets depth target (chain ++ [node]) s)
            ⟨node :: state.visiting, state.ordered⟩ with
        | error failure =>
          rw [hleft] at hbelow
          cases failure with
          | cycle chain => exact hbelow
          | unknown b => exact hbelow
          | depth => exact hbelow
        | ok left =>
          rw [hleft] at hbelow
          rw [Except.ok_bind]
          refine ⟨hbelow.1.leave hvisiting ?_, ?_⟩
          · rintro b ⟨next', hnext', hb⟩
            obtain rfl := Option.some.inj (htargets.symm.trans hnext')
            exact hbelow.2 hb
          · exact List.mem_append_right _ (List.mem_singleton_self _)

def Reached (targets : α → Option (List α)) (roots : List α) (a : α) : Prop :=
  ∃ root ∈ roots, Relation.ReflTransGen (Edge targets) root a

/-- With more nested visits than nodes, the search completes what the roots reach or fails for
it. -/
theorem search_outcome (hnodes : ∀ a, targets a ≠ none → a ∈ nodes) {depth : ℕ}
    (hdepth : nodes.length < depth) (roots : List α) :
    Outcome targets nodes (Reached targets roots) ⟨[], []⟩ (fun out => roots ⊆ out.ordered)
      (search targets depth roots) := by
  refine outcome_foldlM ⟨.nil, List.nodup_nil, List.nodup_nil, List.nil_subset _, ?_⟩ ?_
  · exact fun a ha => absurd ha List.not_mem_nil
  · intro root hroot s hs
    refine (visit_outcome hnodes depth root [] s hs.ready ?_ ?_).mono fun a ha => ⟨root, hroot, ha⟩
    · rw [hs.visiting]
      exact fun a ha => absurd ha List.not_mem_nil
    · rw [hs.visiting]
      exact hdepth

/-- A completed search lists what the roots reach, every node once and after its targets, and none
of it lies on a cycle. -/
theorem search_ok (hnodes : ∀ a, targets a ≠ none → a ∈ nodes) {depth : ℕ}
    (hdepth : nodes.length < depth) {roots : List α} {out : State α}
    (h : search targets depth roots = .ok out) :
    (∀ a, a ∈ out.ordered ↔ Reached targets roots a) ∧ out.ordered.Nodup ∧
      Ordered (Edge targets) out.ordered ∧
      ∀ a, Reached targets roots a → ¬Relation.TransGen (Edge targets) a a := by
  have hout := search_outcome hnodes hdepth roots
  rw [h] at hout
  obtain ⟨hgrown, hroots⟩ := hout
  have hmem (a : α) (ha : Reached targets roots a) : a ∈ out.ordered := by
    obtain ⟨root, hroot, hreach⟩ := ha
    exact hgrown.ready.ordered.reach (hroots hroot) hreach
  refine ⟨fun a => ⟨fun ha => ?_, hmem a⟩, hgrown.ready.nodup, hgrown.ready.ordered, ?_⟩
  · exact (hgrown.reached a ha).resolve_left List.not_mem_nil
  · exact fun a ha => hgrown.ready.ordered.acyclic hgrown.ready.nodup (hmem a ha)

/-- Where all nodes that the roots reach are known, the search reports a cycle exactly where they
reach one. -/
theorem search_cycle_iff (hnodes : ∀ a, targets a ≠ none → a ∈ nodes) {depth : ℕ}
    (hdepth : nodes.length < depth) {roots : List α}
    (hknown : ∀ a, Reached targets roots a → targets a ≠ none) :
    (∃ chain, search targets depth roots = .error (.cycle chain)) ↔
      ∃ a, Reached targets roots a ∧ Relation.TransGen (Edge targets) a a := by
  have hout := search_outcome hnodes hdepth roots
  constructor
  · rintro ⟨chain, h⟩
    rw [h] at hout
    exact hout
  · rintro ⟨a, ha, hcycle⟩
    cases h : search targets depth roots with
    | ok out => exact absurd hcycle ((search_ok hnodes hdepth h).2.2.2 a ha)
    | error failure =>
      rw [h] at hout
      cases failure with
      | cycle chain => exact ⟨chain, rfl⟩
      | unknown b => exact absurd hout.2 (hknown b hout.1)
      | depth => exact hout.elim

end Leaving

end CompletionSearch
