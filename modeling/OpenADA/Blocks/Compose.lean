import OpenADA.Blocks.Statements
import OpenADA.Library.CompletionSearch
import OpenADA.Library.SortedSet
import Mathlib.Data.String.Basic

/-! The composition of selected blocks with their dependencies into one prelude. -/
namespace OpenADA.Blocks

open CompletionOrder CompletionSearch PyText SpiceText

def maxCompositionBytes : ℕ := 2097152

def maxClosureBlocks : ℕ := 64

/-- `_BLOCK_ID_RE.match`; its `$` also stands before a newline at the end. -/
def matchesBlockId (blockId : String) : Bool :=
  let body := if blockId.toList.getLast? = some '\n' then blockId.toList.dropLast else blockId.toList
  body.head?.any Char.isLower && decide (2 ≤ body.length ∧ body.length ≤ 48) &&
    body.tail.all fun c => c.isLower || c.isDigit || c = '_'

structure BlockBackend where
  file : List Char
  sourceText : List Char
  sourceSha256 : List Char
  deriving DecidableEq

structure Block where
  contractVersion : List Char
  contractSha256 : List Char
  abiVersion : List Char
  depends : List String
  native : Option BlockBackend
  deriving DecidableEq

/-- A loaded library. The loader checks the identities and that every dependency is a block. -/
structure BlockLibrary where
  libraryId : List Char
  libraryVersion : List Char
  libraryDigest : List Char
  blocks : List (String × Block)
  identities : ∀ entry ∈ blocks, matchesBlockId entry.1 = true
  declared : ∀ entry ∈ blocks, ∀ dependency ∈ entry.2.depends, dependency ∈ blocks.map Prod.fst

inductive ComposeRefusal where
  | empty
  | unknownBlock (blockId : String)
  | dependencyCycle (chain : List String)
  | closureOversize (count : ℕ)
  | backendUnavailable (blockId : String)
  | source (refusal : SourceRefusal)
  -- the IndexErrors of `statement.split()[0]` and `statement.split()[1]`
  | missingToken
  | symbolCollision (name : List Char) (owner blockId : String)
  | oversize
  | recursionLimit
  deriving DecidableEq

structure Composition where
  libraryId : List Char
  libraryVersion : List Char
  libraryDigest : List Char
  requested : List String
  closure : List String
  closureDigest : List Char
  text : List Char
  textSha256 : List Char
  deriving DecidableEq

def BlockLibrary.block? (library : BlockLibrary) (blockId : String) : Option Block :=
  library.blocks.lookup blockId

/-- `sorted(library.blocks[block_id].depends)`, where there is such a block. -/
def BlockLibrary.targets (library : BlockLibrary) (blockId : String) : Option (List String) :=
  (library.block? blockId).map fun block => block.depends.insertionSort (· ≤ ·)

/-- `sorted(dict.fromkeys(block_ids))`. -/
def requestedBlocks (blockIds : List String) : List String :=
  blockIds.dedup.insertionSort (· ≤ ·)

/-- `_closure`; `frames` counts the visits that the interpreter's stack can nest. -/
def closure (frames : ℕ) (library : BlockLibrary) (requested : List String) :
    Except ComposeRefusal (List String) :=
  match search library.targets frames requested with
  | .error (.cycle chain) => .error (.dependencyCycle chain)
  | .error (.unknown blockId) => .error (.unknownBlock blockId)
  | .error .depth => .error .recursionLimit
  | .ok state =>
    if maxClosureBlocks < state.ordered.length then .error (.closureOversize state.ordered.length)
    else .ok state.ordered

section Compose

variable (cases : CaseMap) (casefoldKey : List Char → List Char) (sha256 : List Char → List Char)

def ownSymbol (blockId : String) (symbols : List (List Char × String)) (statement : Statement) :
    Except ComposeRefusal (List (List Char × String)) :=
  match words isSpace statement.2 with
  | [] => .error .missingToken
  | token :: rest =>
    if cases.lower token ∈ [".subckt".toList, ".model".toList] then
      match rest with
      | [] => .error .missingToken
      | name :: _ =>
        match symbols.lookup (casefoldKey name) with
        | some owner =>
          if owner ≠ blockId then .error (.symbolCollision (casefoldKey name) owner blockId)
          else .ok ((casefoldKey name, blockId) :: symbols)
        | none => .ok ((casefoldKey name, blockId) :: symbols)
    else .ok symbols

def ownBlock (library : BlockLibrary) (symbols : List (List Char × String)) (blockId : String) :
    Except ComposeRefusal (List (List Char × String)) :=
  match (library.block? blockId).bind Block.native with
  | none => .error (.backendUnavailable blockId)
  | some backend =>
    match sourceStatements backend.sourceText with
    | .error refusal => .error (.source refusal)
    | .ok statements => statements.foldlM (ownSymbol cases casefoldKey blockId) symbols

def joinLines (lines : List (List Char)) : List Char := ['\n'].intercalate lines

def digestLine (blockId : String) (block : Block) (backend : BlockBackend) : List Char :=
  blockId.toList ++ '\t' :: block.contractVersion ++ '\t' :: block.abiVersion ++
    '\t' :: block.contractSha256 ++ '\t' :: backend.sourceSha256 ++ ['\n']

def blockLine (blockId : String) (block : Block) (backend : BlockBackend) : List Char :=
  "* block ".toList ++ blockId.toList ++ " contract ".toList ++ block.contractVersion ++
    " abi v".toList ++ block.abiVersion ++ " source sha256 ".toList ++ backend.sourceSha256

def sourceLines (blockId : String) (backend : BlockBackend) : List (List Char) :=
  ["* ---- begin block ".toList ++ blockId.toList ++ " (".toList ++ backend.file ++ ") ----".toList,
    rstrip (· = '\n') backend.sourceText,
    "* ---- end block ".toList ++ blockId.toList ++ " ----".toList, []]

def nativeBlocks (library : BlockLibrary) (blockIds : List String) :
    List (String × Block × BlockBackend) :=
  blockIds.filterMap fun blockId => do
    let block ← library.block? blockId
    let backend ← block.native
    some (blockId, block, backend)

def closureDigest (library : BlockLibrary) (blocks : List (String × Block × BlockBackend)) :
    List Char :=
  sha256 ("openada.behavioral-block-composition/v0alpha1\n".toList ++
    library.libraryId ++ '@' :: library.libraryVersion ++ '\n' :: library.libraryDigest ++
    '\n' :: blocks.flatMap fun (blockId, block, backend) => digestLine blockId block backend)

def composedText (library : BlockLibrary) (blocks : List (String × Block × BlockBackend))
    (digest : List Char) : List Char :=
  let text := joinLines (["* openada behavioral-block composition".toList,
      "* library ".toList ++ library.libraryId ++ '@' :: library.libraryVersion ++
        " digest ".toList ++ library.libraryDigest] ++
    blocks.map (fun (blockId, block, backend) => blockLine blockId block backend) ++
    ["* closure digest ".toList ++ digest, []] ++
    blocks.flatMap fun (blockId, _, backend) => sourceLines blockId backend)
  if text.getLast? = some '\n' then text else text ++ ['\n']

def utf8Length (text : List Char) : ℕ := (text.map Char.utf8Size).sum

def composeBlocks (frames : ℕ) (library : BlockLibrary) (blockIds : List String) :
    Except ComposeRefusal Composition :=
  if blockIds = [] then .error .empty
  else match blockIds.find? fun blockId => !matchesBlockId blockId with
    | some blockId => .error (.unknownBlock blockId)
    | none => do
      let requested := requestedBlocks blockIds
      let ordered ← closure frames library requested
      let _ ← ordered.foldlM (ownBlock cases casefoldKey library) []
      let blocks := nativeBlocks library ordered
      let digest := closureDigest sha256 library blocks
      let text := composedText library blocks digest
      if maxCompositionBytes < utf8Length text then .error .oversize
      else .ok ⟨library.libraryId, library.libraryVersion, library.libraryDigest, requested, ordered,
        digest, text, sha256 text⟩

end Compose

def BlockLibrary.DependsOn (library : BlockLibrary) (a b : String) : Prop :=
  ∃ block, library.block? a = some block ∧ b ∈ block.depends

def BlockLibrary.Reaches (library : BlockLibrary) (blockIds : List String) (a : String) : Prop :=
  ∃ requested ∈ blockIds, Relation.ReflTransGen library.DependsOn requested a

def BlockLibrary.ReachesCycle (library : BlockLibrary) (blockIds : List String) : Prop :=
  ∃ a, library.Reaches blockIds a ∧ Relation.TransGen library.DependsOn a a

section Requests

theorem mem_requestedBlocks {blockIds : List String} {a : String} :
    a ∈ requestedBlocks blockIds ↔ a ∈ blockIds := by
  rw [requestedBlocks, List.mem_insertionSort, List.mem_dedup]

theorem requestedBlocks_congr {blockIds blockIds' : List String}
    (h : ∀ a, a ∈ blockIds ↔ a ∈ blockIds') :
    requestedBlocks blockIds = requestedBlocks blockIds' := by
  have hperm : List.Perm blockIds.dedup blockIds'.dedup :=
    (List.perm_ext_iff_of_nodup (List.nodup_dedup _) (List.nodup_dedup _)).mpr fun a => by
      rw [List.mem_dedup, List.mem_dedup]
      exact h a
  exact List.Perm.eq_of_pairwise (fun _ _ _ _ h₁ h₂ => le_antisymm h₁ h₂)
    (List.pairwise_insertionSort _ _) (List.pairwise_insertionSort _ _)
    (((List.perm_insertionSort _ _).trans hperm).trans (List.perm_insertionSort _ _).symm)

end Requests

section Graph

variable {library : BlockLibrary}

theorem mem_of_block? {a : String} {block : Block} (h : library.block? a = some block) :
    (a, block) ∈ library.blocks := by
  obtain ⟨front, back, hsplit, -⟩ := List.lookup_eq_some_iff.mp h
  rw [hsplit]
  exact List.mem_append_right _ (List.mem_cons_self ..)

theorem exists_block? {a : String} (h : a ∈ library.blocks.map Prod.fst) :
    ∃ block, library.block? a = some block := by
  obtain ⟨entry, hentry, rfl⟩ := List.mem_map.mp h
  rw [← Option.isSome_iff_exists, BlockLibrary.block?, List.lookup_isSome_iff]
  exact ⟨entry, hentry, beq_self_eq_true entry.1⟩

theorem matchesBlockId_of_mem {a : String} (h : a ∈ library.blocks.map Prod.fst) :
    matchesBlockId a = true := by
  obtain ⟨entry, hentry, rfl⟩ := List.mem_map.mp h
  exact library.identities entry hentry

theorem edge_targets : Edge library.targets = library.DependsOn := by
  funext a b
  apply propext
  unfold Edge BlockLibrary.targets BlockLibrary.DependsOn
  simp only [Option.map_eq_some_iff, exists_exists_and_eq_and, List.mem_insertionSort]

theorem targets_ne_none {a : String} :
    library.targets a ≠ none ↔ a ∈ library.blocks.map Prod.fst := by
  rw [BlockLibrary.targets, ne_eq, Option.map_eq_none_iff]
  constructor
  · intro h
    obtain ⟨block, hblock⟩ := Option.ne_none_iff_exists'.mp h
    exact List.mem_map_of_mem (mem_of_block? hblock)
  · intro h hnone
    obtain ⟨block, hblock⟩ := exists_block? h
    rw [hblock] at hnone
    cases hnone

theorem reached_requestedBlocks {blockIds : List String} {a : String} :
    Reached library.targets (requestedBlocks blockIds) a ↔ library.Reaches blockIds a := by
  unfold Reached BlockLibrary.Reaches
  simp only [edge_targets, mem_requestedBlocks]

theorem known_of_reaches {blockIds : List String}
    (h : ∀ a ∈ blockIds, a ∈ library.blocks.map Prod.fst) {a : String}
    (ha : library.Reaches blockIds a) : a ∈ library.blocks.map Prod.fst := by
  obtain ⟨requested, hmem, hreach⟩ := ha
  induction hreach with
  | refl => exact h requested hmem
  | tail _ hedge _ =>
    obtain ⟨block, hblock, hdepends⟩ := hedge
    exact library.declared _ (mem_of_block? hblock) _ hdepends

end Graph

section Closure

variable {frames : ℕ} {library : BlockLibrary} {blockIds : List String}

/-- A closure lists the blocks that the request reaches, each once and after its dependencies. -/
structure IsClosure (library : BlockLibrary) (blockIds closure : List String) : Prop where
  mem_iff : ∀ a, a ∈ closure ↔ library.Reaches blockIds a
  nodup : closure.Nodup
  ordered : Ordered library.DependsOn closure

theorem closure_ok (hframes : library.blocks.length < frames) {ordered : List String}
    (h : closure frames library (requestedBlocks blockIds) = .ok ordered) :
    IsClosure library blockIds ordered ∧ ¬library.ReachesCycle blockIds := by
  unfold closure at h
  cases hsearch : search library.targets frames (requestedBlocks blockIds) with
  | error failure =>
    rw [hsearch] at h
    cases failure <;> cases h
  | ok state =>
    rw [hsearch] at h
    simp only at h
    split_ifs at h
    obtain rfl := Except.ok.inj h
    obtain ⟨hmem, hnodup, hordered, hcycle⟩ := search_ok
      (fun a => targets_ne_none.mp) (by rwa [List.length_map]) hsearch
    simp only [reached_requestedBlocks, edge_targets] at hmem hordered hcycle
    exact ⟨⟨hmem, hnodup, hordered⟩, fun ⟨a, ha, hc⟩ => hcycle a ha hc⟩

theorem closure_cycle_iff (hframes : library.blocks.length < frames)
    (hknown : ∀ a ∈ blockIds, a ∈ library.blocks.map Prod.fst) :
    (∃ chain, closure frames library (requestedBlocks blockIds) = .error (.dependencyCycle chain)) ↔
      library.ReachesCycle blockIds := by
  have hsearch := search_cycle_iff (fun a => targets_ne_none.mp)
    (by rwa [List.length_map]) fun a (ha : Reached library.targets (requestedBlocks blockIds) a) =>
      targets_ne_none.mpr (known_of_reaches hknown (reached_requestedBlocks.mp ha))
  simp only [reached_requestedBlocks, edge_targets] at hsearch
  rw [BlockLibrary.ReachesCycle, ← hsearch]
  unfold closure
  constructor
  · rintro ⟨chain, h⟩
    cases hrun : search library.targets frames (requestedBlocks blockIds) with
    | ok state =>
      rw [hrun] at h
      simp only at h
      split_ifs at h
      cases Except.error.inj h
    | error failure =>
      rw [hrun] at h
      cases failure with
      | cycle chain' => exact ⟨chain', rfl⟩
      | unknown a => cases Except.error.inj h
      | depth => cases Except.error.inj h
  · rintro ⟨chain, h⟩
    exact ⟨chain, by rw [h]⟩

end Closure

section Composition

variable {cases : CaseMap} {casefoldKey sha256 : List Char → List Char} {frames : ℕ}
  {library : BlockLibrary} {blockIds : List String}

theorem ownSymbol_ne_cycle {blockId : String} {symbols : List (List Char × String)}
    {statement : Statement} (chain : List String) :
    ownSymbol cases casefoldKey blockId symbols statement ≠ .error (.dependencyCycle chain) := by
  unfold ownSymbol
  split
  · simp
  · split_ifs
    · split
      · simp
      · split
        · split_ifs <;> simp
        · simp
    · simp

theorem ownBlock_ne_cycle {blockId : String} {symbols : List (List Char × String)}
    (chain : List String) :
    ownBlock cases casefoldKey library symbols blockId ≠ .error (.dependencyCycle chain) := by
  unfold ownBlock
  split
  · simp
  · split
    · simp
    · intro h
      obtain ⟨_, _, _, _, _, _, hstep⟩ := Except.foldlM_eq_error h
      exact ownSymbol_ne_cycle chain hstep

theorem find?_matchesBlockId (hknown : ∀ a ∈ blockIds, a ∈ library.blocks.map Prod.fst) :
    (blockIds.find? fun blockId => !matchesBlockId blockId) = none := by
  rw [List.find?_eq_none]
  intro a ha
  rw [matchesBlockId_of_mem (hknown a ha)]
  simp

theorem composeBlocks_cycle_iff (hne : blockIds ≠ [])
    (hknown : ∀ a ∈ blockIds, a ∈ library.blocks.map Prod.fst) {chain : List String} :
    composeBlocks cases casefoldKey sha256 frames library blockIds =
        .error (.dependencyCycle chain) ↔
      closure frames library (requestedBlocks blockIds) = .error (.dependencyCycle chain) := by
  rw [composeBlocks, if_neg hne, find?_matchesBlockId hknown]
  simp only
  cases closure frames library (requestedBlocks blockIds) with
  | error refusal =>
    constructor
    · exact fun h => congrArg Except.error (Except.error.inj h)
    · exact fun h => congrArg Except.error (Except.error.inj h)
  | ok ordered =>
    rw [Except.ok_bind]
    constructor
    · intro h
      rcases Except.bind_eq_error.mp h with h | ⟨_, _, h⟩
      · obtain ⟨_, _, _, _, _, _, hstep⟩ := Except.foldlM_eq_error h
        exact absurd hstep (ownBlock_ne_cycle chain)
      · split_ifs at h
        cases Except.error.inj h
    · intro h
      cases h

theorem composeBlocks_closure {composition : Composition}
    (h : composeBlocks cases casefoldKey sha256 frames library blockIds = .ok composition) :
    closure frames library (requestedBlocks blockIds) = .ok composition.closure := by
  rw [composeBlocks] at h
  split_ifs at h
  split at h
  · cases h
  · obtain ⟨ordered, hclosure, h⟩ := Except.bind_eq_ok.mp h
    obtain ⟨_, _, h⟩ := Except.bind_eq_ok.mp h
    simp only at h
    split_ifs at h
    obtain rfl := Except.ok.inj h
    exact hclosure

theorem composeBlocks_congr {blockIds' : List String} (h : ∀ a, a ∈ blockIds ↔ a ∈ blockIds')
    {composition : Composition}
    (hcompose : composeBlocks cases casefoldKey sha256 frames library blockIds = .ok composition) :
    composeBlocks cases casefoldKey sha256 frames library blockIds' = .ok composition := by
  rw [composeBlocks] at hcompose ⊢
  split_ifs at hcompose with hne
  split at hcompose
  · cases hcompose
  next hfind =>
    have hne' : blockIds' ≠ [] := by
      rintro rfl
      exact hne (List.eq_nil_iff_forall_not_mem.mpr fun a ha => List.not_mem_nil ((h a).mp ha))
    have hfind' : (blockIds'.find? fun blockId => !matchesBlockId blockId) = none := by
      rw [List.find?_eq_none] at hfind ⊢
      exact fun a ha => hfind a ((h a).mpr ha)
    rw [if_neg hne', hfind', ← requestedBlocks_congr h]
    exact hcompose

end Composition

/-- With a stack for a chain of all blocks: a request of blocks of the library is refused for a
cycle exactly where it reaches one; a composition lists what the request reaches, each block once
and after its dependencies, and reaches no cycle; and no composition depends on the order or the
repetitions of the request. -/
theorem composeBlocks_order (cases : CaseMap) (casefoldKey sha256 : List Char → List Char)
    (frames : ℕ) (library : BlockLibrary) (hframes : library.blocks.length < frames)
    (blockIds : List String) :
    (blockIds ≠ [] → (∀ a ∈ blockIds, a ∈ library.blocks.map Prod.fst) →
      ((∃ chain, composeBlocks cases casefoldKey sha256 frames library blockIds =
        .error (.dependencyCycle chain)) ↔ library.ReachesCycle blockIds)) ∧
    (∀ composition, composeBlocks cases casefoldKey sha256 frames library blockIds =
      .ok composition →
        IsClosure library blockIds composition.closure ∧ ¬library.ReachesCycle blockIds) ∧
    ∀ blockIds', (∀ a, a ∈ blockIds ↔ a ∈ blockIds') → ∀ composition,
      composeBlocks cases casefoldKey sha256 frames library blockIds = .ok composition ↔
        composeBlocks cases casefoldKey sha256 frames library blockIds' = .ok composition := by
  refine ⟨fun hne hknown => ?_, fun composition h => ?_, fun blockIds' h composition => ?_⟩
  · simp only [composeBlocks_cycle_iff hne hknown]
    exact closure_cycle_iff hframes hknown
  · exact closure_ok hframes (composeBlocks_closure h)
  · exact ⟨composeBlocks_congr h, composeBlocks_congr fun a => (h a).symm⟩

section Samples

def block (depends : List String) (backend : Option BlockBackend) : Block :=
  ⟨"1.0.0".toList, "c0".toList, "1".toList, depends, backend⟩

def backend (source : String) : BlockBackend := ⟨"net.cir".toList, source.toList, "50".toList⟩

def stacked : BlockLibrary where
  libraryId := "lib".toList
  libraryVersion := "1.0.0".toList
  libraryDigest := "d0".toList
  blocks := [("top", block ["leaf"] (backend ".subckt bhv_top_v1 a\n.ends\n")),
    ("leaf", block [] (backend ".subckt bhv_leaf_v1 a\n.ends\n"))]
  identities := by decide
  declared := by decide

theorem stacked_composed :
    (∃ composition, composeBlocks asciiCases id id 3 stacked ["top", "leaf", "top"] =
      .ok composition ∧ IsClosure stacked ["top", "leaf", "top"] composition.closure) ∧
    ¬∃ chain, composeBlocks asciiCases id id 3 stacked ["top", "leaf", "top"] =
      .error (.dependencyCycle chain) := by
  have horder := composeBlocks_order asciiCases id id 3 stacked (by decide) ["top", "leaf", "top"]
  obtain ⟨composition, hcomposition⟩ : ∃ composition,
      composeBlocks asciiCases id id 3 stacked ["top", "leaf", "top"] = .ok composition :=
    Except.exists_ok_of_isSome (by decide +kernel)
  refine ⟨⟨composition, hcomposition, (horder.2.1 composition hcomposition).1⟩, ?_⟩
  rintro ⟨chain, h⟩
  rw [hcomposition] at h
  cases h

def looped : BlockLibrary where
  libraryId := "lib".toList
  libraryVersion := "1.0.0".toList
  libraryDigest := "d0".toList
  blocks := [("one", block ["two"] (backend "")), ("two", block ["one"] (backend "")),
    ("bare", block [] none)]
  identities := by decide
  declared := by decide

/-- An unknown block before a cycle hides the cycle, and a block without a cycle has no composition
where it has no backend. -/
theorem looped_hidden :
    (looped.ReachesCycle ["absent", "one"] ∧
      composeBlocks asciiCases id id 9 looped ["absent", "one"] = .error (.unknownBlock "absent")) ∧
    ¬looped.ReachesCycle ["bare"] ∧
      composeBlocks asciiCases id id 9 looped ["bare"] = .error (.backendUnavailable "bare") := by
  have hone : looped.DependsOn "one" "two" := ⟨block ["two"] (backend ""), by decide⟩
  have htwo : looped.DependsOn "two" "one" := ⟨block ["one"] (backend ""), by decide⟩
  have hbare : closure 9 looped (requestedBlocks ["bare"]) = .ok ["bare"] := by decide
  refine ⟨⟨⟨"one", ⟨"one", by decide, .refl⟩, .tail (.single hone) htwo⟩, by decide⟩,
    (closure_ok (by decide) hbare).2, by decide⟩

end Samples

end OpenADA.Blocks
