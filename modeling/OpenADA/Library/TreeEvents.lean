import OpenADA.Library.ExceptFold
import Mathlib.Data.List.Basic

/-! Trees as the events at which their nodes start and finish, and readers of such events that keep
the path to the node that is open. -/
namespace TreeEvents

inductive RoseTree (α : Type) where
  | node (label : α) (content : List (RoseTree α))

inductive Event (α : Type) where
  | start (label : α)
  | finish (label : α)

variable {α τ σ κ ε : Type}

def RoseTree.label : RoseTree α → α
  | .node label _ => label

def RoseTree.content : RoseTree α → List (RoseTree α)
  | .node _ content => content

theorem RoseTree.induct {P : RoseTree α → Prop}
    (h : ∀ label content, (∀ child ∈ content, P child) → P (.node label content)) :
    ∀ tree, P tree
  | .node label content => h label content fun child _ => RoseTree.induct h child

mutual

def RoseTree.events : RoseTree α → List (Event α)
  | .node label content => .start label :: (eventsOf content ++ [.finish label])

def eventsOf : List (RoseTree α) → List (Event α)
  | [] => []
  | tree :: rest => tree.events ++ eventsOf rest

end

variable (tag : α → τ)

mutual

/-- The nodes of a tree with their paths; a node comes behind those below it. -/
def RoseTree.places (path : List τ) : RoseTree α → List (List τ × α)
  | .node label content =>
    placesOf (path ++ [tag label]) content ++ [(path ++ [tag label], label)]

def placesOf (path : List τ) : List (RoseTree α) → List (List τ × α)
  | [] => []
  | tree :: rest => tree.places path ++ placesOf path rest

end

section Places

variable {tag} {path : List τ}

theorem prefix_of_mem_places (tree : RoseTree α) : ∀ {path : List τ} {place : List τ × α},
    place ∈ tree.places tag path → path ++ [tag tree.label] <+: place.1 := by
  induction tree using RoseTree.induct with
  | h label content ih =>
    have hcontent : ∀ {path : List τ} {place : List τ × α},
        place ∈ placesOf tag path content → path <+: place.1 := by
      intro path place hplace
      induction content with
      | nil => cases hplace
      | cons tree rest ihRest =>
        obtain ⟨htree, hrest⟩ := List.forall_mem_cons.mp ih
        rcases List.mem_append.mp hplace with hplace | hplace
        · exact (List.prefix_append _ _).trans (htree hplace)
        · exact ihRest hrest hplace
    intro path place hplace
    rcases List.mem_append.mp hplace with hplace | hplace
    · exact hcontent hplace
    · rw [List.mem_singleton.mp hplace]
      exact List.prefix_rfl

theorem root_mem_places (tree : RoseTree α) :
    (path ++ [tag tree.label], tree.label) ∈ tree.places tag path := by
  cases tree with
  | node label content => exact List.mem_append_right _ List.mem_cons_self

theorem mem_placesOf {content : List (RoseTree α)} {place : List τ × α} :
    place ∈ placesOf tag path content ↔ ∃ tree ∈ content, place ∈ tree.places tag path := by
  induction content with
  | nil => simp [placesOf]
  | cons tree rest ih => rw [placesOf, List.mem_append, ih, List.exists_mem_cons_iff]

theorem length_of_mem_placesOf {content : List (RoseTree α)} {place : List τ × α}
    (h : place ∈ placesOf tag path content) : path.length < place.1.length := by
  obtain ⟨tree, -, hplace⟩ := mem_placesOf.mp h
  have hlength := (prefix_of_mem_places tree hplace).length_le
  rw [List.length_append, List.length_singleton] at hlength
  omega

theorem foldl_eq_of_forall {β : Type} {f : κ → β → κ} {items : List β} {k : κ}
    (h : ∀ item ∈ items, ∀ k, f k item = k) : items.foldl f k = k := by
  induction items generalizing k with
  | nil => rfl
  | cons item rest ih =>
    obtain ⟨hitem, hrest⟩ := List.forall_mem_cons.mp h
    rw [List.foldl_cons, hitem, ih hrest]

/-- An update that passes over deeper nodes follows the trees of a list themselves. -/
theorem foldl_placesOf {update : List τ → α → κ → κ} (content : List (RoseTree α))
    (h : ∀ p label k, path.length + 1 < p.length → update p label k = k) (k : κ) :
    (placesOf tag path content).foldl (fun k place => update place.1 place.2 k) k =
      content.foldl (fun k tree => update (path ++ [tag tree.label]) tree.label k) k := by
  induction content generalizing k with
  | nil => rfl
  | cons tree rest ih =>
    obtain ⟨label, inner⟩ := tree
    have hinner : ∀ place ∈ placesOf tag (path ++ [tag label]) inner, ∀ k,
        update place.1 place.2 k = k := fun place hplace k => by
      have hlength := length_of_mem_placesOf hplace
      rw [List.length_append, List.length_singleton] at hlength
      exact h _ _ _ hlength
    rw [placesOf, List.foldl_append, RoseTree.places, List.foldl_append, foldl_eq_of_forall hinner,
      List.foldl_cons, List.foldl_nil, ih, List.foldl_cons]
    rfl

end Places

section Reader

/-- What a reader does when a node opens and when it closes, by the path to the node. -/
structure Reader (τ α σ ε : Type) where
  onOpen : List τ → α → σ → Except ε σ
  onClose : List τ → α → σ → Except ε σ

variable (reader : Reader τ α σ ε)

def Reader.read (state : List τ × σ) : Event α → Except ε (List τ × σ)
  | .start label =>
    (reader.onOpen (state.1 ++ [tag label]) label state.2).map fun s =>
      (state.1 ++ [tag label], s)
  | .finish label => (reader.onClose state.1 label state.2).map fun s => (state.1.dropLast, s)

mutual

def Reader.walk (path : List τ) (s : σ) : RoseTree α → Except ε σ
  | .node label content =>
    (reader.onOpen (path ++ [tag label]) label s).bind fun s =>
      (Reader.walkOf (path ++ [tag label]) s content).bind fun s =>
        reader.onClose (path ++ [tag label]) label s

def Reader.walkOf (path : List τ) (s : σ) : List (RoseTree α) → Except ε σ
  | [] => .ok s
  | tree :: rest => (Reader.walk path s tree).bind fun s => Reader.walkOf path s rest

end

variable {tag reader} {path : List τ}

theorem walk_eq_ok {s read : σ} {label : α} {content : List (RoseTree α)}
    (h : reader.walk tag path s (.node label content) = .ok read) :
    ∃ s₁ s₂, reader.onOpen (path ++ [tag label]) label s = .ok s₁ ∧
      reader.walkOf tag (path ++ [tag label]) s₁ content = .ok s₂ ∧
      reader.onClose (path ++ [tag label]) label s₂ = .ok read := by
  rw [Reader.walk] at h
  obtain ⟨s₁, hopen, h⟩ := Except.bind_eq_ok.mp h
  obtain ⟨s₂, hcontent, hclose⟩ := Except.bind_eq_ok.mp h
  exact ⟨s₁, s₂, hopen, hcontent, hclose⟩

theorem walkOf_cons_eq_ok {s read : σ} {tree : RoseTree α} {rest : List (RoseTree α)}
    (h : reader.walkOf tag path s (tree :: rest) = .ok read) :
    ∃ s₁, reader.walk tag path s tree = .ok s₁ ∧ reader.walkOf tag path s₁ rest = .ok read :=
  Except.bind_eq_ok.mp h

theorem walkOf_append_eq_ok {s read : σ} {front back : List (RoseTree α)}
    (h : reader.walkOf tag path s (front ++ back) = .ok read) :
    ∃ s₁, reader.walkOf tag path s front = .ok s₁ ∧ reader.walkOf tag path s₁ back = .ok read := by
  induction front generalizing s with
  | nil => exact ⟨s, rfl, h⟩
  | cons tree rest ih =>
    obtain ⟨s₁, htree, hrest⟩ := walkOf_cons_eq_ok h
    obtain ⟨s₂, hfront, hback⟩ := ih hrest
    refine ⟨s₂, ?_, hback⟩
    rw [Reader.walkOf, htree]
    exact hfront

theorem foldlM_events (tree : RoseTree α) (path : List τ) (s : σ) :
    tree.events.foldlM (reader.read tag) (path, s) =
      (reader.walk tag path s tree).map fun read => (path, read) := by
  induction tree using RoseTree.induct generalizing path s with
  | h label content ih =>
    have hcontent : ∀ (path : List τ) (s : σ),
        (eventsOf content).foldlM (reader.read tag) (path, s) =
          (reader.walkOf tag path s content).map fun read => (path, read) := by
      intro path s
      induction content generalizing s with
      | nil => rfl
      | cons tree rest ihRest =>
        obtain ⟨htree, hrest⟩ := List.forall_mem_cons.mp ih
        rw [eventsOf, List.foldlM_append, htree path s, Reader.walkOf]
        cases reader.walk tag path s tree with
        | error e => rfl
        | ok s₁ => exact ihRest hrest s₁
    rw [RoseTree.events, List.foldlM_cons, Reader.walk, Reader.read]
    cases reader.onOpen (path ++ [tag label]) label s with
    | error e => rfl
    | ok s₁ =>
      show ((eventsOf content ++ [Event.finish label]).foldlM (reader.read tag)
        (path ++ [tag label], s₁)) = _
      rw [List.foldlM_append, hcontent]
      show _ = ((reader.walkOf tag (path ++ [tag label]) s₁ content).bind _).map _
      cases reader.walkOf tag (path ++ [tag label]) s₁ content with
      | error e => rfl
      | ok s₂ =>
        show ([Event.finish label].foldlM (reader.read tag) (path ++ [tag label], s₂)) =
          (reader.onClose (path ++ [tag label]) label s₂).map _
        rw [List.foldlM_cons, Reader.read]
        cases reader.onClose (path ++ [tag label]) label s₂ with
        | error e => rfl
        | ok s₃ =>
          show Except.ok ((path ++ [tag label]).dropLast, s₃) = _
          rw [List.dropLast_concat]
          rfl

end Reader

section Rules

variable {tag : α → τ} {reader : Reader τ α σ ε}

/-- What opening and closing a node preserve below the paths of a kind, and what is known of a node
that was opened or closed. -/
structure Rule (tag : α → τ) (reader : Reader τ α σ ε) (D : List τ → Prop)
    (I : List τ → σ → Prop) (O C : List τ → α → Prop) : Prop where
  below : ∀ {path label}, D path → D (path ++ [tag label])
  opens : ∀ {path label s next}, D path → I path s →
    reader.onOpen (path ++ [tag label]) label s = .ok next →
    I (path ++ [tag label]) next ∧ O (path ++ [tag label]) label
  closes : ∀ {path label s next}, D path → I (path ++ [tag label]) s →
    O (path ++ [tag label]) label → reader.onClose (path ++ [tag label]) label s = .ok next →
    I path next ∧ C (path ++ [tag label]) label

variable {D : List τ → Prop} {I : List τ → σ → Prop} {O C : List τ → α → Prop} {path : List τ}

theorem Rule.restrict (rule : Rule tag reader D I O C) {E : List τ → Prop}
    (hbelow : ∀ {path label}, E path → E (path ++ [tag label])) (h : ∀ {path}, E path → D path) :
    Rule tag reader E I O C where
  below := hbelow
  opens hpath := rule.opens (h hpath)
  closes hpath := rule.closes (h hpath)

theorem walkOf_of {content : List (RoseTree α)}
    (h : ∀ tree ∈ content, ∀ {path s next}, D path → I path s →
      reader.walk tag path s tree = .ok next →
      I path next ∧ ∀ place ∈ tree.places tag path, O place.1 place.2 ∧ C place.1 place.2)
    {s next : σ} (hpath : D path) (hs : I path s)
    (hwalk : reader.walkOf tag path s content = .ok next) :
    I path next ∧ ∀ place ∈ placesOf tag path content, O place.1 place.2 ∧ C place.1 place.2 := by
  induction content generalizing s with
  | nil =>
    obtain rfl := Except.ok.inj hwalk
    exact ⟨hs, fun place hplace => absurd hplace List.not_mem_nil⟩
  | cons tree rest ih =>
    obtain ⟨htree, hrest⟩ := List.forall_mem_cons.mp h
    obtain ⟨s₁, hfirst, hlater⟩ := walkOf_cons_eq_ok hwalk
    obtain ⟨hs₁, hplaces⟩ := htree hpath hs hfirst
    obtain ⟨hnext, hothers⟩ := ih hrest hs₁ hlater
    refine ⟨hnext, fun place hplace => ?_⟩
    rcases List.mem_append.mp hplace with hplace | hplace
    · exact hplaces place hplace
    · exact hothers place hplace

/-- An invariant of the events holds behind a tree, and every node of it was opened and closed. -/
theorem Rule.walk (rule : Rule tag reader D I O C) (tree : RoseTree α) : ∀ {path s next}, D path →
    I path s → reader.walk tag path s tree = .ok next →
    I path next ∧ ∀ place ∈ tree.places tag path, O place.1 place.2 ∧ C place.1 place.2 := by
  induction tree using RoseTree.induct with
  | h label content ih =>
    intro path s next hpath hs hwalk
    obtain ⟨s₁, s₂, hopen, hcontent, hclose⟩ := walk_eq_ok hwalk
    obtain ⟨hs₁, hopened⟩ := rule.opens hpath hs hopen
    obtain ⟨hs₂, hplaces⟩ := walkOf_of ih (rule.below hpath) hs₁ hcontent
    obtain ⟨hnext, hclosed⟩ := rule.closes hpath hs₂ hopened hclose
    refine ⟨hnext, fun place hplace => ?_⟩
    rcases List.mem_append.mp hplace with hplace | hplace
    · exact hplaces place hplace
    · obtain rfl := List.mem_singleton.mp hplace
      exact ⟨hopened, hclosed⟩

theorem Rule.walkOf (rule : Rule tag reader D I O C) {content : List (RoseTree α)} {s next : σ}
    (hpath : D path) (hs : I path s) (hwalk : reader.walkOf tag path s content = .ok next) :
    I path next ∧ ∀ place ∈ placesOf tag path content, O place.1 place.2 ∧ C place.1 place.2 :=
  walkOf_of (fun tree _ => rule.walk tree) hpath hs hwalk

/-- A part of the state that only the closing of a node changes, by the path and the node. -/
structure Follows (tag : α → τ) (reader : Reader τ α σ ε) (D : List τ → Prop)
    (I : List τ → σ → Prop) (O : List τ → α → Prop) (part : σ → κ)
    (update : List τ → α → κ → κ) : Prop where
  opens : ∀ {path label s next}, D path → I path s →
    reader.onOpen (path ++ [tag label]) label s = .ok next → part next = part s
  closes : ∀ {path label s next}, D path → I (path ++ [tag label]) s →
    O (path ++ [tag label]) label → reader.onClose (path ++ [tag label]) label s = .ok next →
    part next = update (path ++ [tag label]) label (part s)

variable {part : σ → κ} {update : List τ → α → κ → κ}

theorem Follows.walkOf_of (rule : Rule tag reader D I O C) {content : List (RoseTree α)}
    (h : ∀ tree ∈ content, ∀ {path s next}, D path → I path s →
      reader.walk tag path s tree = .ok next →
      part next = (tree.places tag path).foldl (fun k place => update place.1 place.2 k) (part s))
    {s next : σ} (hpath : D path) (hs : I path s)
    (hwalk : reader.walkOf tag path s content = .ok next) :
    part next =
      (placesOf tag path content).foldl (fun k place => update place.1 place.2 k) (part s) := by
  induction content generalizing s with
  | nil =>
    obtain rfl := Except.ok.inj hwalk
    rfl
  | cons tree rest ih =>
    obtain ⟨htree, hrest⟩ := List.forall_mem_cons.mp h
    obtain ⟨s₁, hfirst, hlater⟩ := walkOf_cons_eq_ok hwalk
    rw [ih hrest (rule.walk tree hpath hs hfirst).1 hlater, htree hpath hs hfirst, placesOf,
      List.foldl_append]

theorem Follows.walk (follows : Follows tag reader D I O part update)
    (rule : Rule tag reader D I O C) (tree : RoseTree α) : ∀ {path s next}, D path → I path s →
    reader.walk tag path s tree = .ok next →
    part next =
      (tree.places tag path).foldl (fun k place => update place.1 place.2 k) (part s) := by
  induction tree using RoseTree.induct with
  | h label content ih =>
    intro path s next hpath hs hwalk
    obtain ⟨s₁, s₂, hopen, hcontent, hclose⟩ := walk_eq_ok hwalk
    obtain ⟨hs₁, hopened⟩ := rule.opens hpath hs hopen
    have hs₂ := (rule.walkOf (rule.below hpath) hs₁ hcontent).1
    rw [follows.closes hpath hs₂ hopened hclose,
      Follows.walkOf_of rule ih (rule.below hpath) hs₁ hcontent, follows.opens hpath hs hopen,
      RoseTree.places, List.foldl_append]
    rfl

theorem Follows.walkOf (follows : Follows tag reader D I O part update)
    (rule : Rule tag reader D I O C) {content : List (RoseTree α)} {s next : σ} (hpath : D path)
    (hs : I path s) (hwalk : reader.walkOf tag path s content = .ok next) :
    part next =
      (placesOf tag path content).foldl (fun k place => update place.1 place.2 k) (part s) :=
  Follows.walkOf_of rule (fun tree _ => follows.walk rule tree) hpath hs hwalk

end Rules

end TreeEvents
