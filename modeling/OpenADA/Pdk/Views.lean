import Mathlib.Logic.Relation
import OpenADA.Library.ExceptFold
import OpenADA.Pdk.Snapshot

/-! The view graph of a source tree: which lines of a file are active when one section of it is
selected, the views and names these lines select, and the faults of a view on its own. -/
namespace OpenADA.Pdk

open PyText

inductive NameKind where
  | model
  | global
  deriving DecidableEq

def Builder.names (b : Builder) : NameKind → Finset String
  | .model => b.namespaceModels
  | .global => b.namespaceGlobals

def lineNames (tokens : List String) : NameKind → Finset String
  | .model => (declaredNames tokens).1
  | .global => (declaredNames tokens).2

@[simp] theorem scanNamespace_names (b : Builder) (tokens : List String) (kind : NameKind) :
    (scanNamespace b tokens).names kind = b.names kind ∪ lineNames tokens kind := by
  cases kind <;> rfl

@[simp] theorem scanNamespace_walkedViews (b : Builder) (tokens : List String) :
    (scanNamespace b tokens).walkedViews = b.walkedViews := rfl

def Delimiter (tokens : List String) : Prop :=
  (directiveOf tokens = ".lib" ∧ tokens.length = 2) ∨ directiveOf tokens ∈ [".endl", ".endlib"]

def nextSection (current : Option String) (tokens : List String) : Option String :=
  if directiveOf tokens = ".lib" ∧ tokens.length = 2 then tokens[1]?
  else if directiveOf tokens ∈ [".endl", ".endlib"] then none
  else current

def openSection (lines : List (List Char)) : Option String :=
  lines.foldl (fun current line =>
    nextSection current ((directiveTokens line).toOption.getD [])) none

/-- A line that is read when the given section of its file is selected: it stands in no section,
or in one of that name. -/
def ActiveLine (selected : Option String) (text : List (List Char)) (tokens : List String) : Prop :=
  ∃ before line after, text = before ++ line :: after ∧ directiveTokens line = .ok tokens ∧
    ¬ Delimiter tokens ∧ ∀ current, openSection before = some current →
      selected = some (casefold current)

section Graph

variable (source : Source)

def Edge (v w : View) : Prop :=
  ∃ body tokens child name form, source.tree.capture (source.root ++ v.1) = some body ∧
    ActiveLine v.2 (textLines body) tokens ∧
    selectedChild source v.1 tokens = .ok (some (child, name, form)) ∧
    w = (child, name.map casefold)

def Declares (v : View) (kind : NameKind) (name : String) : Prop :=
  ∃ body tokens, source.tree.capture (source.root ++ v.1) = some body ∧
    ActiveLine v.2 (textLines body) tokens ∧ name ∈ lineNames tokens kind

def Cyclic (origin : View) : Prop :=
  ∃ v, Relation.ReflTransGen (Edge source) origin v ∧ Relation.TransGen (Edge source) v v

def viewLine (relative : Path) (requested : Option String) (sections : Sections)
    (line : List Char) : Except ClosureFault Sections := do
  let tokens ← directiveTokens line
  let (sections, active) ← sectionStep requested sections tokens
  if active then
    let _ ← selectedChild source relative tokens
    .ok sections
  else .ok sections

def readView (relative : Path) (requested : Option String) (body : Body) :
    Except ClosureFault Unit := do
  let sections ← (textLines body).foldlM (viewLine source relative requested)
    ⟨none, requested.isNone⟩
  if sections.current ≠ none then .error .sectionInvalid
  else if ¬ sections.found then .error .sectionMissing
  else .ok ()

/-- The view has a fault of its own: a malformed section or directive, a section that is not
there, or a locator outside the tree. -/
def Faulty (v : View) (fault : ClosureFault) : Prop :=
  ∃ body requested, source.tree.capture (source.root ++ v.1) = some body ∧
    requested.map casefold = v.2 ∧ readView source v.1 requested body = .error fault

/-- A line of the file, in whichever section, names another file of the transport closure. -/
def TransportEdge (f g : Path) : Prop :=
  ∃ body line tokens locator, source.tree.capture (source.root ++ f) = some body ∧
    line ∈ textLines body ∧ directiveTokens line = .ok tokens ∧
    (directiveOf tokens ∈ includeDirectives ∧ tokens.tail = [locator] ∨
      directiveOf tokens = ".lib" ∧ ∃ name, tokens.tail = [locator, name]) ∧
    childPath source f locator = .ok g

end Graph

theorem selects_iff {requested current : Option String} :
    selects requested current = true ↔
      ∃ open?, current = some open? ∧ requested.map casefold = some (casefold open?) := by
  cases requested <;> cases current <;> simp [selects, eq_comm]

theorem sectionStep_ok {requested : Option String} {sections next : Sections}
    {tokens : List String} {active : Bool}
    (h : sectionStep requested sections tokens = .ok (next, active)) :
    next.current = nextSection sections.current tokens ∧
      (active = true ↔ ¬ Delimiter tokens ∧ ∀ current, sections.current = some current →
        requested.map casefold = some (casefold current)) := by
  unfold sectionStep at h
  unfold nextSection
  by_cases hopen : directiveOf tokens = ".lib" ∧ tokens.length = 2
  · rw [if_pos hopen] at h
    rw [if_pos hopen]
    split at h
    · cases h
    · obtain ⟨rfl, rfl⟩ := Prod.mk.inj (Except.ok.inj h)
      exact ⟨rfl, by simp [Delimiter, hopen]⟩
  · rw [if_neg hopen] at h
    rw [if_neg hopen]
    by_cases hclose : directiveOf tokens ∈ [".endl", ".endlib"]
    · rw [if_pos hclose] at h
      rw [if_pos hclose]
      have hnext : next.current = none ∧ active = false := by
        split at h
        · obtain ⟨rfl, rfl⟩ := Prod.mk.inj (Except.ok.inj h)
          exact ⟨rfl, rfl⟩
        · split at h
          · cases h
          · obtain ⟨rfl, rfl⟩ := Prod.mk.inj (Except.ok.inj h)
            exact ⟨rfl, rfl⟩
        · cases h
      exact ⟨hnext.1, by simp [Delimiter, hclose, hnext.2]⟩
    · rw [if_neg hclose] at h
      rw [if_neg hclose]
      obtain ⟨rfl, rfl⟩ := Prod.mk.inj (Except.ok.inj h)
      refine ⟨rfl, ?_⟩
      have hplain : ¬ Delimiter tokens := by
        rintro (hd | hd)
        · exact hopen hd
        · exact hclose hd
      rw [Bool.or_eq_true, selects_iff, Option.isNone_iff_eq_none]
      cases hcurrent : sections.current with
      | none => simp [hplain]
      | some current => simp [hplain]

theorem openSection_append (before : List (List Char)) (line : List Char) :
    openSection (before ++ [line]) =
      nextSection (openSection before) ((directiveTokens line).toOption.getD []) := by
  unfold openSection
  rw [List.foldl_append, List.foldl_cons, List.foldl_nil]

theorem selectedChild_some {source : Source} {relative child : Path} {tokens : List String}
    {name : Option String} {form : Form}
    (h : selectedChild source relative tokens = .ok (some (child, name, form))) :
    ∃ locator, (directiveOf tokens ∈ includeDirectives ∧ tokens.tail = [locator] ∨
      directiveOf tokens = ".lib" ∧ ∃ sectionName?, tokens.tail = [locator, sectionName?]) ∧
      childPath source relative locator = .ok child := by
  unfold selectedChild at h
  by_cases hinclude : directiveOf tokens ∈ includeDirectives
  · rw [if_pos hinclude] at h
    rcases tokens with _ | ⟨directive, _ | ⟨locator, _ | _⟩⟩ <;> try cases h
    obtain ⟨found, hfound, hout⟩ := Except.bind_eq_ok.mp h
    obtain ⟨rfl, _⟩ := Prod.mk.inj (Option.some.inj (Except.ok.inj hout))
    exact ⟨locator, .inl ⟨hinclude, rfl⟩, hfound⟩
  · rw [if_neg hinclude] at h
    by_cases hlib : directiveOf tokens = ".lib"
    · rw [if_pos hlib] at h
      rcases tokens with _ | ⟨directive, _ | ⟨locator, _ | ⟨sectionName?, _ | _⟩⟩⟩ <;> try cases h
      obtain ⟨found, hfound, hout⟩ := Except.bind_eq_ok.mp h
      obtain ⟨rfl, _⟩ := Prod.mk.inj (Option.some.inj (Except.ok.inj hout))
      exact ⟨locator, .inr ⟨hlib, sectionName?, rfl⟩, hfound⟩
    · rw [if_neg hlib] at h
      cases h

/-- A view on an active line of a file is in the transport closure of the file. -/
theorem Edge.transport {source : Source} {v w : View} (h : Edge source v w) :
    TransportEdge source v.1 w.1 := by
  obtain ⟨body, tokens, child, name, form, hbody, hactive, hchild, rfl⟩ := h
  obtain ⟨before, line, after, htext, htokens, _⟩ := hactive
  obtain ⟨locator, hshape, hpath⟩ := selectedChild_some hchild
  have hline : line ∈ textLines body := by
    rw [htext]
    simp
  exact ⟨body, line, tokens, locator, hbody, hline, htokens, hshape, hpath⟩

end OpenADA.Pdk
