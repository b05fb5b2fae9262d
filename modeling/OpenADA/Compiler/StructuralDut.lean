import OpenADA.Library.ExceptFold
import OpenADA.Library.SpiceText

/-! The seal of a structural device under test: a text of one subcircuit, whose cards are all on an
allowlist, is renamed and written in a canonical form, and the seal of that form changes the name
only. -/
namespace OpenADA.StructuralDut

open PyText SpiceText

section Model

structure DutRefusal where
  code : String
  path : List Char
  deriving DecidableEq

/-- `str.casefold` of a character, by the interpreter's Unicode version. -/
structure FoldMap where
  foldChar : Char → List Char
  ascii : ∀ c, c.toNat < 128 → foldChar c = [c.toLower]

def FoldMap.casefold (fold : FoldMap) (text : List Char) : List Char := text.flatMap fold.foldChar

structure Sha256 where
  digest : List Char → List Char
  shape : ∀ text, (digest text).length = 64 ∧ ∀ c ∈ digest text, c.isDigit ∨ ('a' ≤ c ∧ c ≤ 'f')

/-- `MAX_DUT_BYTES` -/
def maxDutBytes : ℕ := 4 * 1024 * 1024

/-- `_SPICE_NAME_RE` -/
def isSpiceName : List Char → Bool
  | [] => false
  | c :: rest => c.isAlpha && rest.all (fun d => d.isAlphanum || d = '_') && rest.length ≤ 127

/-- `_SHA256_RE` -/
def isDigest (text : List Char) : Bool :=
  text.length = 64 && text.all fun c => c.isDigit || ('a' ≤ c && c ≤ 'f')

/-- `_ALLOWED_DEVICE_PREFIXES` -/
def allowedDevicePrefixes : List (List Char) :=
  ["c", "d", "j", "l", "m", "q", "r"].map String.toList

def forbiddenToken (c : Char) : Bool := c ∈ [';', '$', '\\', '\x7b', '\x7d', '"', '\'']

/-- `_compiler_top` -/
def compilerTop (dutNamespace top : List Char) : Except DutRefusal (List Char) :=
  let name := "OPENADA_".toList ++ dutNamespace ++ '_' :: top
  if !isSpiceName name then
    .error ⟨"testbench_plan.compiler.namespace_invalid", "/dut/namespace".toList⟩
  else .ok name

structure SealState where
  output : List (List Char)
  inside : Bool
  seenSubckt : Bool
  seenEnds : Bool
  instances : List (List Char)

def SealState.start : SealState := ⟨[], false, false, false, []⟩

def SealState.noted (state : SealState) (line : List Char) : SealState :=
  { state with output := state.output ++ [line] }

def SealState.opened (state : SealState) (line : List Char) : SealState :=
  { state with output := state.output ++ [line], inside := true, seenSubckt := true }

def SealState.closed (state : SealState) (line : List Char) : SealState :=
  { state with output := state.output ++ [line], inside := false, seenEnds := true }

def SealState.placed (state : SealState) (name line : List Char) : SealState :=
  { state with output := state.output ++ [line], instances := name :: state.instances }

variable (fold : FoldMap) (top sealedTop : List Char) (ports : List (List Char))

/-- `.SUBCKT` with the sealed name and the ports. -/
def headerLine : List Char := ".SUBCKT ".toList ++ joinWords (sealedTop :: ports)

/-- `.ENDS` with the sealed name. -/
def footerLine : List Char := ".ENDS ".toList ++ sealedTop

def sealedLines (before inside after : List (List Char)) : List (List Char) :=
  before ++ headerLine sealedTop ports :: (inside ++ footerLine sealedTop :: after)

def canonicalText (output : List (List Char)) : List Char := ['\n'].intercalate output ++ ['\n']

/-- A card, as its words, in the loop of `seal_structural_dut`. -/
def sealCard (state : SealState) (number : ℕ) (head : List Char) (rest : List (List Char)) :
    Except DutRefusal SealState :=
  let pointer := "/dut/artifact/line/".toList ++ Nat.toDigits 10 number
  if fold.casefold head = ".subckt".toList then
    if state.inside ∨ state.seenSubckt ∨ state.seenEnds then
      .error ⟨"testbench_plan.compiler.dut_shadowing", pointer⟩
    else if rest.length < 2 ∨ rest.head?.map fold.casefold ≠ some (fold.casefold top) then
      .error ⟨"testbench_plan.compiler.dut_top_mismatch", pointer⟩
    else if rest.tail ≠ ports then
      .error ⟨"testbench_plan.compiler.dut_ports_mismatch", pointer⟩
    else .ok (state.opened (headerLine sealedTop ports))
  else if fold.casefold head = ".ends".toList then
    if ¬state.inside ∨ state.seenEnds ∨ 1 < rest.length then
      .error ⟨"testbench_plan.compiler.dut_boundary_invalid", pointer⟩
    else if rest.any fun name => fold.casefold name ≠ fold.casefold top then
      .error ⟨"testbench_plan.compiler.dut_top_mismatch", pointer⟩
    else .ok (state.closed (footerLine sealedTop))
  else if head.head? = some '.' then
    .error ⟨"testbench_plan.compiler.dut_directive_forbidden", pointer⟩
  else if ¬state.inside then
    .error ⟨"testbench_plan.compiler.dut_top_level_card", pointer⟩
  else if ¬isSpiceName head then
    .error ⟨"testbench_plan.compiler.dut_instance_invalid", pointer⟩
  else if fold.casefold (head.take 1) ∉ allowedDevicePrefixes then
    .error ⟨"testbench_plan.compiler.dut_element_forbidden", pointer⟩
  else if fold.casefold head ∈ state.instances then
    .error ⟨"testbench_plan.compiler.dut_instance_collision", pointer⟩
  else .ok (state.placed (fold.casefold head) (joinWords (head :: rest)))

/-- One turn of the loop of `seal_structural_dut`: a line and its number. -/
def sealLine (state : SealState) (entry : List Char × ℕ) : Except DutRefusal SealState :=
  let line := strip entry.1
  let pointer := "/dut/artifact/line/".toList ++ Nat.toDigits 10 entry.2
  if line = [] then .ok state
  else if line.head? = some '*' then .ok (state.noted line)
  else if line.head? = some '+' then
    .error ⟨"testbench_plan.compiler.dut_continuation_forbidden", pointer⟩
  else if line.any forbiddenToken then
    .error ⟨"testbench_plan.compiler.dut_token_forbidden", pointer⟩
  else
    match words isSpace line with
    | head :: rest => sealCard fold top sealedTop ports state entry.2 head rest
    | [] => .ok state

structure SealedDut where
  raw : List Char
  rawSha256 : List Char
  canonical : List Char
  canonicalSha256 : List Char
  originalTop : List Char
  sealedTop : List Char

/-- `seal_structural_dut` of the text that the bytes encode. -/
def sealStructuralDut (sha256 : Sha256) (raw expectedSha256 dutNamespace : List Char) :
    Except DutRefusal SealedDut :=
  let rawSha256 := sha256.digest raw
  let size := (raw.map Char.utf8Size).sum
  if ¬isDigest expectedSha256 then
    .error ⟨"testbench_plan.compiler.dut_digest_invalid", "/dut/sha256".toList⟩
  else if ¬(1 ≤ size ∧ size ≤ maxDutBytes) then
    .error ⟨"testbench_plan.compiler.dut_size_invalid", "/dut/artifact".toList⟩
  else if rawSha256 ≠ expectedSha256 then
    .error ⟨"testbench_plan.compiler.dut_digest_mismatch", "/dut/sha256".toList⟩
  else if '\x00' ∈ raw ∨ '\r' ∈ raw then
    .error ⟨"testbench_plan.compiler.dut_text_invalid", "/dut/artifact".toList⟩
  else if ports = [] ∨ ports.any fun port => !isSpiceName port then
    .error ⟨"testbench_plan.compiler.dut_ports_invalid", "/dut/ports".toList⟩
  else if ¬(ports.map fold.casefold).Nodup then
    .error ⟨"testbench_plan.compiler.dut_ports_invalid", "/dut/ports".toList⟩
  else do
    let sealedTop ← compilerTop dutNamespace top
    let state ← ((raw.splitOn '\n').zipIdx 1).foldlM (sealLine fold top sealedTop ports) .start
    if state.inside ∨ ¬state.seenSubckt ∨ ¬state.seenEnds then
      .error ⟨"testbench_plan.compiler.dut_boundary_invalid", "/dut/artifact".toList⟩
    else
      let canonical := canonicalText state.output
      .ok ⟨raw, rawSha256, canonical, sha256.digest canonical, top, sealedTop⟩

end Model

section Grammar

variable (fold : FoldMap) (top : List Char) (ports : List (List Char))

/-- A line with these words, none of them a comment, a continuation or forbidden. -/
structure IsCard (line : List Char) (tokens : List (List Char)) : Prop where
  start : ∀ c ∈ (strip line).head?, c ≠ '*' ∧ c ≠ '+'
  plain : ∀ c ∈ strip line, forbiddenToken c = false
  tokens_eq : words isSpace line = tokens

structure IsHeader (line : List Char) : Prop where
  card : ∃ head name, IsCard line (head :: name :: ports) ∧
    fold.casefold head = ".subckt".toList ∧ fold.casefold name = fold.casefold top

structure IsFooter (line : List Char) : Prop where
  card : ∃ head rest, IsCard line (head :: rest) ∧ fold.casefold head = ".ends".toList ∧
    rest.length ≤ 1 ∧ ∀ name ∈ rest, fold.casefold name = fold.casefold top

structure IsDevice (line head : List Char) (more : List (List Char)) : Prop where
  card : IsCard line (head :: more)
  name : isSpiceName head = true
  allowed : fold.casefold (head.take 1) ∈ allowedDevicePrefixes

/-- Lines that are blank, comments or devices, with the names of the devices and the lines that they
become. -/
inductive AreCards : List (List Char) → List (List Char) → List (List Char) → Prop
  | nil : AreCards [] [] []
  | blank {line : List Char} {lines names output : List (List Char)} (hline : strip line = [])
    (hrest : AreCards lines names output) : AreCards (line :: lines) names output
  | comment {line : List Char} {lines names output : List (List Char)}
    (hline : (strip line).head? = some '*') (hrest : AreCards lines names output) :
    AreCards (line :: lines) names (strip line :: output)
  | device {line head : List Char} {more lines names output : List (List Char)}
    (hline : IsDevice fold line head more) (hrest : AreCards lines names output) :
    AreCards (line :: lines) (fold.casefold head :: names) (joinWords (head :: more) :: output)

structure IsSubcircuit (lines before inside after : List (List Char)) : Prop where
  split : ∃ above header body footer below names,
    lines = above ++ header :: (body ++ footer :: below) ∧ AreCards fold above [] before ∧
    IsHeader fold top ports header ∧ AreCards fold body names inside ∧ names.Nodup ∧
    IsFooter fold top footer ∧ AreCards fold below [] after

end Grammar

section Steps

variable {fold : FoldMap} {top sealedTop : List Char} {ports : List (List Char)}
  {state next : SealState} {line head : List Char} {rest more tokens : List (List Char)}
  {number : ℕ}

theorem casefold_ascii {text : List Char} (h : ∀ c ∈ text, c.toNat < 128) :
    fold.casefold text = text.map Char.toLower := by
  rw [FoldMap.casefold]
  induction text with
  | nil => rfl
  | cons c text ih =>
    rw [List.forall_mem_cons] at h
    rw [List.flatMap_cons, fold.ascii c h.1, ih h.2]
    rfl

theorem isSpiceName_cons {c : Char} {text : List Char} : isSpiceName (c :: text) = true ↔
    c.isAlpha = true ∧ (∀ d ∈ text, d.isAlphanum = true ∨ d = '_') ∧ text.length ≤ 127 := by
  simp [isSpiceName, and_assoc]

theorem exists_of_isSpiceName {text : List Char} (h : isSpiceName text = true) :
    ∃ c rest, text = c :: rest ∧ c.isAlpha = true ∧ ∀ d ∈ text, d.isAlphanum = true ∨ d = '_' := by
  cases text with
  | nil => cases h
  | cons c rest =>
    obtain ⟨hc, hrest, -⟩ := isSpiceName_cons.mp h
    refine ⟨c, rest, rfl, hc, List.forall_mem_cons.mpr ⟨Or.inl ?_, hrest⟩⟩
    rw [Char.isAlphanum, hc, Bool.true_or]

theorem toNat_lt_of_name {c : Char} (h : c.isAlphanum = true ∨ c = '_') : c.toNat < 128 := by
  rcases h with h | rfl
  · have hrange := (isAlphanum_iff c).mp h
    omega
  · decide

theorem casefold_ne_dot (h : isSpiceName head = true) (text : List Char) :
    fold.casefold head ≠ '.' :: text := by
  obtain ⟨c, rest, rfl, hc, hall⟩ := exists_of_isSpiceName h
  rw [casefold_ascii fun d hd => toNat_lt_of_name (hall d hd), List.map_cons]
  intro heq
  have hdot := (List.cons.inj heq).1
  have halnum : c.isAlphanum = true := by rw [Char.isAlphanum, hc, Bool.true_or]
  have hrange := (isAlphanum_iff c).mp halnum
  have hlower := toNat_toLower c
  rw [hdot] at hlower
  have hvalue : '.'.toNat = 46 := rfl
  split_ifs at hlower <;> omega

theorem sealCard_eq_ok (hports : ports ≠ []) :
    sealCard fold top sealedTop ports state number head rest = .ok next ↔
      (fold.casefold head = ".subckt".toList ∧
        (∃ name, rest = name :: ports ∧ fold.casefold name = fold.casefold top) ∧
        (state.inside = false ∧ state.seenSubckt = false ∧ state.seenEnds = false) ∧
        next = state.opened (headerLine sealedTop ports)) ∨
      (fold.casefold head = ".ends".toList ∧
        (rest.length ≤ 1 ∧ ∀ name ∈ rest, fold.casefold name = fold.casefold top) ∧
        (state.inside = true ∧ state.seenEnds = false) ∧
        next = state.closed (footerLine sealedTop)) ∨
      ((isSpiceName head = true ∧ fold.casefold (head.take 1) ∈ allowedDevicePrefixes) ∧
        (state.inside = true ∧ fold.casefold head ∉ state.instances) ∧
        next = state.placed (fold.casefold head) (joinWords (head :: rest))) := by
  unfold sealCard
  dsimp only
  by_cases hsubckt : fold.casefold head = ".subckt".toList
  · have hends : fold.casefold head ≠ ".ends".toList := by
      rw [hsubckt]
      decide
    have hname : ¬isSpiceName head = true := fun h => casefold_ne_dot h _ hsubckt
    rw [if_pos hsubckt, Except.guard_eq_ok, Except.guard_eq_ok, Except.guard_eq_ok, Except.ok.injEq]
    constructor
    · rintro ⟨hseen, hname', htail, rfl⟩
      simp only [not_or, Bool.not_eq_true] at hseen
      rw [not_or, not_lt, not_not] at hname'
      rw [not_not] at htail
      cases rest with
      | nil => cases hname'.2
      | cons name others =>
        exact Or.inl ⟨hsubckt, ⟨name, congrArg (name :: ·) htail, Option.some.inj hname'.2⟩, hseen,
          rfl⟩
    · rintro (⟨-, ⟨name, rfl, htop⟩, hseen, rfl⟩ | ⟨h, -⟩ | ⟨⟨h, -⟩, -⟩)
      · refine ⟨by simp [hseen], ?_, by simp, rfl⟩
        rw [not_or, not_lt, not_not]
        refine ⟨?_, congrArg some htop⟩
        rw [List.length_cons]
        have hpos := List.length_pos_iff.mpr hports
        omega
      · exact absurd h hends
      · exact absurd h hname
  rw [if_neg hsubckt]
  by_cases hends : fold.casefold head = ".ends".toList
  · have hname : ¬isSpiceName head = true := fun h => casefold_ne_dot h _ hends
    rw [if_pos hends, Except.guard_eq_ok, Except.guard_eq_ok, Except.ok.injEq]
    constructor
    · rintro ⟨hseen, htop, rfl⟩
      simp only [not_or, not_lt, Bool.not_eq_true, Bool.not_eq_false] at hseen
      refine Or.inr (Or.inl ⟨hends, ⟨hseen.2.2, ?_⟩, ⟨hseen.1, hseen.2.1⟩, rfl⟩)
      simpa using htop
    · rintro (⟨h, -⟩ | ⟨-, ⟨hlength, htop⟩, hseen, rfl⟩ | ⟨⟨h, -⟩, -⟩)
      · exact absurd h hsubckt
      · exact ⟨by simp [hseen, hlength], by simpa using htop, rfl⟩
      · exact absurd h hname
  rw [if_neg hends, Except.guard_eq_ok, Except.guard_eq_ok, Except.guard_eq_ok, Except.guard_eq_ok,
    Except.guard_eq_ok, Except.ok.injEq]
  constructor
  · rintro ⟨-, hinside, hname, hallowed, hinstance, rfl⟩
    rw [not_not] at hinside hname hallowed
    exact Or.inr (Or.inr ⟨⟨hname, hallowed⟩, ⟨hinside, hinstance⟩, rfl⟩)
  · rintro (⟨h, -⟩ | ⟨h, -⟩ | ⟨⟨hname, hallowed⟩, ⟨hinside, hinstance⟩, rfl⟩)
    · exact absurd h hsubckt
    · exact absurd h hends
    · refine ⟨?_, not_not.mpr hinside, not_not.mpr hname, not_not.mpr hallowed, hinstance, rfl⟩
      obtain ⟨c, others, rfl, hc, -⟩ := exists_of_isSpiceName hname
      rw [List.head?_cons, Option.some.injEq]
      rintro rfl
      revert hc
      decide

theorem words_strip (line : List Char) : words isSpace (strip line) = words isSpace line :=
  words_trim isSpace line

theorem IsCard.strip_ne_nil (h : IsCard line (head :: rest)) : strip line ≠ [] := by
  intro hnil
  have hwords := h.tokens_eq
  rw [← words_strip, hnil] at hwords
  cases hwords

theorem sealLine_cases (fold : FoldMap) (top sealedTop : List Char) (ports : List (List Char))
    (state : SealState) (line : List Char) (number : ℕ) :
    (strip line = [] ∧ sealLine fold top sealedTop ports state (line, number) = .ok state) ∨
      ((strip line).head? = some '*' ∧ sealLine fold top sealedTop ports state (line, number) =
        .ok (state.noted (strip line))) ∨
      (∃ head rest, IsCard line (head :: rest) ∧
        sealLine fold top sealedTop ports state (line, number) =
          sealCard fold top sealedTop ports state number head rest) ∨
      ((strip line ≠ [] ∧ (strip line).head? ≠ some '*' ∧ ∀ tokens, ¬IsCard line tokens) ∧
        ∃ e, sealLine fold top sealedTop ports state (line, number) = .error e) := by
  unfold sealLine
  dsimp only
  by_cases hblank : strip line = []
  · exact Or.inl ⟨hblank, if_pos hblank⟩
  rw [if_neg hblank]
  by_cases hcomment : (strip line).head? = some '*'
  · exact Or.inr (Or.inl ⟨hcomment, if_pos hcomment⟩)
  rw [if_neg hcomment]
  by_cases hplus : (strip line).head? = some '+'
  · rw [if_pos hplus]
    refine Or.inr (Or.inr (Or.inr ⟨⟨hblank, hcomment, fun tokens h => ?_⟩, _, rfl⟩))
    exact (h.start '+' hplus).2 rfl
  rw [if_neg hplus]
  by_cases htoken : (strip line).any forbiddenToken = true
  · rw [if_pos htoken]
    refine Or.inr (Or.inr (Or.inr ⟨⟨hblank, hcomment, fun tokens h => ?_⟩, _, rfl⟩))
    obtain ⟨c, hc, hforbidden⟩ := List.any_eq_true.mp htoken
    rw [h.plain c hc] at hforbidden
    cases hforbidden
  rw [if_neg htoken]
  obtain ⟨c, others, hcons⟩ := List.exists_cons_of_ne_nil hblank
  have hspace : isSpace c = false := by
    have hhead : (lstrip isSpace line).head? = some c := by
      rw [← head?_trim]
      show (strip line).head? = some c
      rw [hcons, List.head?_cons]
    exact head?_lstrip hhead
  have hwords : words isSpace line ≠ [] := by
    rw [← words_strip]
    exact words_ne_nil (hcons ▸ List.mem_cons_self) hspace
  obtain ⟨head, rest, htokens⟩ := List.exists_cons_of_ne_nil hwords
  rw [words_strip, htokens]
  refine Or.inr (Or.inr (Or.inl ⟨head, rest, ⟨fun c hc => ⟨?_, ?_⟩, fun c hc => ?_, htokens⟩, rfl⟩))
  · rintro rfl
    exact hcomment hc
  · rintro rfl
    exact hplus hc
  · rw [Bool.not_eq_true, List.any_eq_false] at htoken
    simpa using htoken c hc

end Steps

section Runs

variable {fold : FoldMap} {top sealedTop : List Char} {ports lines names : List (List Char)}
  {state next final : SealState} {line : List Char} {number : ℕ} {output : List (List Char)}

theorem IsCard.not_blank {tokens : List (List Char)} (h : IsCard line tokens) (hne : tokens ≠ []) :
    strip line ≠ [] ∧ (strip line).head? ≠ some '*' := by
  obtain ⟨head, rest, rfl⟩ := List.exists_cons_of_ne_nil hne
  exact ⟨h.strip_ne_nil, fun hstar => (h.start '*' hstar).1 rfl⟩

theorem sealLine_eq_ok (hports : ports ≠ []) :
    sealLine fold top sealedTop ports state (line, number) = .ok next ↔
      (strip line = [] ∧ next = state) ∨
      ((strip line).head? = some '*' ∧
        next = state.noted (strip line)) ∨
      (IsHeader fold top ports line ∧
        (state.inside = false ∧ state.seenSubckt = false ∧ state.seenEnds = false) ∧
        next = state.opened (headerLine sealedTop ports)) ∨
      (IsFooter fold top line ∧ (state.inside = true ∧ state.seenEnds = false) ∧
        next = state.closed (footerLine sealedTop)) ∨
      (∃ head more, IsDevice fold line head more ∧
        (state.inside = true ∧ fold.casefold head ∉ state.instances) ∧
        next = state.placed (fold.casefold head) (joinWords (head :: more))) := by
  have hcard {tokens : List (List Char)} (h : IsCard line tokens) (hne : tokens ≠ []) :
      ∃ head rest, tokens = head :: rest ∧
        sealLine fold top sealedTop ports state (line, number) =
          sealCard fold top sealedTop ports state number head rest := by
    obtain ⟨hblank, hcomment⟩ := h.not_blank hne
    rcases sealLine_cases fold top sealedTop ports state line number with
      ⟨h', -⟩ | ⟨h', -⟩ | ⟨head, rest, h', hstep⟩ | ⟨⟨-, -, h'⟩, -⟩
    · exact absurd h' hblank
    · exact absurd h' hcomment
    · exact ⟨head, rest, h.tokens_eq.symm.trans h'.tokens_eq, hstep⟩
    · exact absurd h (h' tokens)
  constructor
  · intro h
    rcases sealLine_cases fold top sealedTop ports state line number with
      ⟨hblank, hstep⟩ | ⟨hcomment, hstep⟩ | ⟨head, rest, hline, hstep⟩ | ⟨-, e, hstep⟩
    · rw [hstep] at h
      exact Or.inl ⟨hblank, (Except.ok.inj h).symm⟩
    · rw [hstep] at h
      exact Or.inr (Or.inl ⟨hcomment, (Except.ok.inj h).symm⟩)
    · rw [hstep, sealCard_eq_ok hports] at h
      rcases h with ⟨hhead, ⟨name, rfl, hname⟩, hseen⟩ | ⟨hhead, ⟨hlength, hname⟩, hseen⟩ |
        ⟨⟨hname, hallowed⟩, hseen⟩
      · exact Or.inr (Or.inr (Or.inl ⟨⟨head, name, hline, hhead, hname⟩, hseen⟩))
      · exact Or.inr (Or.inr (Or.inr (Or.inl ⟨⟨head, rest, hline, hhead, hlength, hname⟩, hseen⟩)))
      · exact Or.inr (Or.inr (Or.inr (Or.inr ⟨head, rest, ⟨hline, hname, hallowed⟩, hseen⟩)))
    · rw [hstep] at h
      cases h
  · rintro (⟨hblank, rfl⟩ | ⟨hcomment, rfl⟩ | ⟨⟨head, name, hline, hhead, hname⟩, hseen⟩ |
      ⟨⟨head, rest, hline, hhead, hlength, hname⟩, hseen⟩ | ⟨head, more, hdevice, hseen⟩)
    · unfold sealLine
      exact if_pos hblank
    · have hne : strip line ≠ [] := by
        intro hnil
        rw [hnil] at hcomment
        cases hcomment
      unfold sealLine
      dsimp only
      rw [if_neg hne, if_pos hcomment]
    · obtain ⟨head', rest', htokens, hstep⟩ := hcard hline (List.cons_ne_nil _ _)
      obtain ⟨rfl, rfl⟩ := List.cons.inj htokens
      rw [hstep, sealCard_eq_ok hports]
      exact Or.inl ⟨hhead, ⟨name, rfl, hname⟩, hseen⟩
    · obtain ⟨head', rest', htokens, hstep⟩ := hcard hline (List.cons_ne_nil _ _)
      obtain ⟨rfl, rfl⟩ := List.cons.inj htokens
      rw [hstep, sealCard_eq_ok hports]
      exact Or.inr (Or.inl ⟨hhead, ⟨hlength, hname⟩, hseen⟩)
    · obtain ⟨head', rest', htokens, hstep⟩ := hcard hdevice.card (List.cons_ne_nil _ _)
      obtain ⟨rfl, rfl⟩ := List.cons.inj htokens
      rw [hstep, sealCard_eq_ok hports]
      exact Or.inr (Or.inr ⟨⟨hdevice.name, hdevice.allowed⟩, hseen⟩)

theorem run_behind (hports : ports ≠ []) (state : SealState) (hinside : state.inside = false)
    (hseen : state.seenSubckt = true) :
    (lines.zipIdx number).foldlM (sealLine fold top sealedTop ports) state = .ok final ↔
      ∃ output, AreCards fold lines [] output ∧
        final = { state with output := state.output ++ output } := by
  induction lines generalizing state number with
  | nil =>
    rw [List.zipIdx_nil, List.foldlM_nil]
    constructor
    · intro h
      exact ⟨[], .nil, by rw [List.append_nil]; exact (Except.ok.inj h).symm⟩
    · rintro ⟨output, hcards, rfl⟩
      cases hcards
      rw [List.append_nil]
      rfl
  | cons line lines ih =>
    rw [List.zipIdx_cons, Except.foldlM_cons_eq_ok]
    constructor
    · rintro ⟨next, hstep, hrun⟩
      rcases (sealLine_eq_ok hports).mp hstep with ⟨hblank, rfl⟩ | ⟨hcomment, rfl⟩ |
        ⟨-, ⟨-, h, -⟩, -⟩ | ⟨-, ⟨h, -⟩, -⟩ | ⟨head, more, -, ⟨h, -⟩, -⟩
      · obtain ⟨output, hcards, rfl⟩ := (ih next hinside hseen).mp hrun
        exact ⟨output, .blank hblank hcards, rfl⟩
      · obtain ⟨output, hcards, rfl⟩ :=
          (ih (state.noted (strip line)) hinside hseen).mp hrun
        exact ⟨_, .comment hcomment hcards, by simp [SealState.noted]⟩
      · rw [hseen] at h
        cases h
      · rw [hinside] at h
        cases h
      · rw [hinside] at h
        cases h
    · rintro ⟨output, hcards, rfl⟩
      cases hcards with
      | blank hblank hcards =>
        exact ⟨state, (sealLine_eq_ok hports).mpr (Or.inl ⟨hblank, rfl⟩),
          (ih state hinside hseen).mpr ⟨output, hcards, rfl⟩⟩
      | comment hcomment hcards =>
        refine ⟨_, (sealLine_eq_ok hports).mpr (Or.inr (Or.inl ⟨hcomment, rfl⟩)),
          (ih (state.noted (strip line)) hinside hseen).mpr
            ⟨_, hcards, ?_⟩⟩
        simp [SealState.noted]

/-- Inside the subcircuit there are devices up to the line that closes it. -/
theorem run_inside (hports : ports ≠ []) (state : SealState) (hinside : state.inside = true)
    (hsubckt : state.seenSubckt = true) (hends : state.seenEnds = false) :
    (lines.zipIdx number).foldlM (sealLine fold top sealedTop ports) state = .ok final ∧
        final.inside = false ↔
      ∃ body footer below names devices after, lines = body ++ footer :: below ∧
        AreCards fold body names devices ∧
        (names.Nodup ∧ ∀ name ∈ names, name ∉ state.instances) ∧ IsFooter fold top footer ∧
        AreCards fold below [] after ∧
        final = ⟨state.output ++ devices ++ footerLine sealedTop :: after, false, true, true,
          names.reverse ++ state.instances⟩ := by
  induction lines generalizing state number with
  | nil =>
    rw [List.zipIdx_nil, List.foldlM_nil]
    constructor
    · rintro ⟨h, hfinal⟩
      rw [← Except.ok.inj h, hinside] at hfinal
      cases hfinal
    · rintro ⟨body, footer, below, names, devices, after, hlines, -⟩
      exact absurd hlines (by simp)
  | cons line lines ih =>
    rw [List.zipIdx_cons, Except.foldlM_cons_eq_ok]
    constructor
    · rintro ⟨⟨next, hstep, hrun⟩, hfinal⟩
      rcases (sealLine_eq_ok hports).mp hstep with ⟨hblank, rfl⟩ | ⟨hcomment, rfl⟩ |
        ⟨-, ⟨h, -⟩, -⟩ | ⟨hfooter, -, rfl⟩ | ⟨head, more, hdevice, ⟨-, hfresh⟩, rfl⟩
      · obtain ⟨body, footer, below, names, devices, after, rfl, hbody, hrest⟩ :=
          (ih next hinside hsubckt hends).mp ⟨hrun, hfinal⟩
        exact ⟨line :: body, footer, below, names, devices, after, rfl, .blank hblank hbody, hrest⟩
      · obtain ⟨body, footer, below, names, devices, after, rfl, hbody, hnames, hfooter, hbelow,
          rfl⟩ :=
          (ih (state.noted (strip line)) hinside hsubckt hends).mp
            ⟨hrun, hfinal⟩
        refine ⟨line :: body, footer, below, names, _, after, rfl, .comment hcomment hbody, hnames,
          hfooter, hbelow, ?_⟩
        simp [SealState.noted]
      · rw [hinside] at h
        cases h
      · obtain ⟨after, hbelow, rfl⟩ :=
          (run_behind hports (state.closed (footerLine sealedTop)) rfl hsubckt).mp hrun
        refine ⟨[], line, lines, [], [], after, rfl, .nil, ⟨List.nodup_nil, by simp⟩, hfooter,
          hbelow, ?_⟩
        simp [hsubckt, SealState.closed]
      · obtain ⟨body, footer, below, names, devices, after, rfl, hbody, ⟨hnodup, hnames⟩, hfooter,
          hbelow, rfl⟩ := (ih (state.placed (fold.casefold head) (joinWords (head :: more)))
            hinside hsubckt hends).mp
              ⟨hrun, hfinal⟩
        refine ⟨line :: body, footer, below, _, _, after, rfl, .device hdevice hbody,
          ⟨List.nodup_cons.mpr ⟨?_, hnodup⟩, List.forall_mem_cons.mpr ⟨hfresh, ?_⟩⟩, hfooter,
          hbelow, ?_⟩
        · exact fun hmem => hnames _ hmem List.mem_cons_self
        · exact fun name hname hmem => hnames name hname (List.mem_cons_of_mem _ hmem)
        · simp [SealState.placed]
    · rintro ⟨body, footer, below, names, devices, after, hlines, hbody, ⟨hnodup, hnames⟩, hfooter,
        hbelow, rfl⟩
      refine ⟨?_, rfl⟩
      cases hbody with
      | nil =>
        obtain ⟨rfl, rfl⟩ := List.cons.inj hlines
        refine ⟨_, (sealLine_eq_ok hports).mpr (Or.inr (Or.inr (Or.inr (Or.inl
          ⟨hfooter, ⟨hinside, hends⟩, rfl⟩)))), (run_behind hports
            (state.closed (footerLine sealedTop)) rfl hsubckt).mpr ⟨after, hbelow, ?_⟩⟩
        simp [hsubckt, SealState.closed]
      | blank hblank hbody =>
        obtain ⟨rfl, rfl⟩ := List.cons.inj hlines
        exact ⟨state, (sealLine_eq_ok hports).mpr (Or.inl ⟨hblank, rfl⟩),
          ((ih state hinside hsubckt hends).mpr ⟨_, footer, below, names, devices, after, rfl,
            hbody, ⟨hnodup, hnames⟩, hfooter, hbelow, rfl⟩).1⟩
      | comment hcomment hbody =>
        obtain ⟨rfl, rfl⟩ := List.cons.inj hlines
        refine ⟨_, (sealLine_eq_ok hports).mpr (Or.inr (Or.inl ⟨hcomment, rfl⟩)),
          ((ih (state.noted (strip line)) hinside hsubckt hends).mpr
            ⟨_, footer, below, names, _, after, rfl, hbody, ⟨hnodup, hnames⟩, hfooter, hbelow,
              ?_⟩).1⟩
        simp [SealState.noted]
      | device hdevice hbody =>
        obtain ⟨rfl, rfl⟩ := List.cons.inj hlines
        obtain ⟨hfirst, hnodup⟩ := List.nodup_cons.mp hnodup
        obtain ⟨hfresh, hnames⟩ := List.forall_mem_cons.mp hnames
        refine ⟨_, (sealLine_eq_ok hports).mpr (Or.inr (Or.inr (Or.inr (Or.inr
          ⟨_, _, hdevice, ⟨hinside, hfresh⟩, rfl⟩)))),
          ((ih (state.placed _ _) hinside hsubckt hends).mpr ⟨_, footer, below, _, _, after, rfl,
            hbody, ⟨hnodup, fun name hname hmem => ?_⟩, hfooter, hbelow, ?_⟩).1⟩
        · rcases List.mem_cons.mp hmem with rfl | hmem
          · exact hfirst hname
          · exact hnames name hname hmem
        · simp [SealState.placed]

end Runs

section Whole

variable {fold : FoldMap} {top sealedTop line : List Char} {number : ℕ}
  {ports lines before inside after : List (List Char)}

theorem IsSubcircuit.blank (hline : strip line = [])
    (h : IsSubcircuit fold top ports lines before inside after) :
    IsSubcircuit fold top ports (line :: lines) before inside after := by
  obtain ⟨above, header, body, footer, below, names, rfl, habove, hrest⟩ := h.split
  exact ⟨line :: above, header, body, footer, below, names, rfl, .blank hline habove, hrest⟩

theorem IsSubcircuit.comment (hline : (strip line).head? = some '*')
    (h : IsSubcircuit fold top ports lines before inside after) :
    IsSubcircuit fold top ports (line :: lines) (strip line :: before) inside after := by
  obtain ⟨above, header, body, footer, below, names, rfl, habove, hrest⟩ := h.split
  exact ⟨line :: above, header, body, footer, below, names, rfl, .comment hline habove, hrest⟩

theorem run_before (hports : ports ≠ []) (state : SealState) (hinside : state.inside = false)
    (hsubckt : state.seenSubckt = false) (hends : state.seenEnds = false)
    (hinstances : state.instances = []) (output : List (List Char)) :
    (∃ final, (lines.zipIdx number).foldlM (sealLine fold top sealedTop ports) state = .ok final ∧
        (final.inside = false ∧ final.seenSubckt = true ∧ final.seenEnds = true) ∧
        final.output = output) ↔
      ∃ before inside after, IsSubcircuit fold top ports lines before inside after ∧
        output = state.output ++ sealedLines sealedTop ports before inside after := by
  induction lines generalizing state number output with
  | nil =>
    constructor
    · rintro ⟨final, hrun, ⟨-, hfinal, -⟩, -⟩
      rw [List.zipIdx_nil, List.foldlM_nil] at hrun
      rw [← Except.ok.inj hrun, hsubckt] at hfinal
      cases hfinal
    · rintro ⟨before, inside, after, ⟨above, header, body, footer, below, names, hlines, -⟩, -⟩
      exact absurd hlines (by simp)
  | cons line lines ih =>
    constructor
    · rintro ⟨final, hrun, hfinal, rfl⟩
      rw [List.zipIdx_cons, Except.foldlM_cons_eq_ok] at hrun
      obtain ⟨next, hstep, hrun⟩ := hrun
      rcases (sealLine_eq_ok hports).mp hstep with ⟨hblank, rfl⟩ | ⟨hcomment, rfl⟩ |
        ⟨hheader, -, rfl⟩ | ⟨-, ⟨h, -⟩, -⟩ | ⟨head, more, -, ⟨h, -⟩, -⟩
      · obtain ⟨before, inside, after, hlines, houtput⟩ :=
          (ih next hinside hsubckt hends hinstances _).mp ⟨final, hrun, hfinal, rfl⟩
        exact ⟨before, inside, after, hlines.blank hblank, houtput⟩
      · obtain ⟨before, inside, after, hlines, houtput⟩ :=
          (ih (state.noted (strip line)) hinside hsubckt hends hinstances _).mp
            ⟨final, hrun, hfinal, rfl⟩
        refine ⟨_, inside, after, hlines.comment hcomment, houtput.trans ?_⟩
        simp [SealState.noted, sealedLines]
      · obtain ⟨body, footer, below, names, devices, after, rfl, hbody, ⟨hnodup, -⟩, hfooter,
          hbelow, rfl⟩ := (run_inside hports (state.opened (headerLine sealedTop ports)) rfl rfl
            hends).mp ⟨hrun, hfinal.1⟩
        refine ⟨[], devices, after, ⟨[], line, body, footer, below, names, rfl, .nil, hheader,
          hbody, hnodup, hfooter, hbelow⟩, ?_⟩
        simp [SealState.opened, sealedLines]
      · rw [hinside] at h
        cases h
      · rw [hinside] at h
        cases h
    · rintro ⟨before, inside, after, ⟨above, header, body, footer, below, names, hlines, habove,
        hheader, hbody, hnodup, hfooter, hbelow⟩, rfl⟩
      have hfirst {next final : SealState}
          (hstep : sealLine fold top sealedTop ports state (line, number) = .ok next)
          (hrun : (lines.zipIdx (number + 1)).foldlM (sealLine fold top sealedTop ports) next =
            .ok final) :
          ((line :: lines).zipIdx number).foldlM (sealLine fold top sealedTop ports) state =
            .ok final := by
        rw [List.zipIdx_cons, Except.foldlM_cons_eq_ok]
        exact ⟨next, hstep, hrun⟩
      cases habove with
      | nil =>
        obtain ⟨rfl, rfl⟩ := List.cons.inj hlines
        have hfresh : ∀ name ∈ names,
            name ∉ (state.opened (headerLine sealedTop ports)).instances := by
          intro name _ hmem
          rw [SealState.opened, hinstances] at hmem
          exact List.not_mem_nil hmem
        refine ⟨_, hfirst ((sealLine_eq_ok hports).mpr (Or.inr (Or.inr (Or.inl
          ⟨hheader, ⟨hinside, hsubckt, hends⟩, rfl⟩)))) ((run_inside hports
            (state.opened (headerLine sealedTop ports)) rfl rfl hends).mpr ⟨body, footer, below,
              names, inside, after, rfl, hbody, ⟨hnodup, hfresh⟩, hfooter, hbelow, rfl⟩).1,
          ⟨rfl, rfl, rfl⟩, ?_⟩
        simp [SealState.opened, sealedLines]
      | blank hblank habove =>
        obtain ⟨rfl, rfl⟩ := List.cons.inj hlines
        obtain ⟨final, hrun, hfinal, houtput⟩ := (ih state hinside hsubckt hends hinstances _).mpr
          ⟨before, inside, after, ⟨_, header, body, footer, below, names, rfl, habove, hheader,
            hbody, hnodup, hfooter, hbelow⟩, rfl⟩
        exact ⟨final, hfirst ((sealLine_eq_ok hports).mpr (Or.inl ⟨hblank, rfl⟩)) hrun, hfinal,
          houtput⟩
      | comment hcomment habove =>
        obtain ⟨rfl, rfl⟩ := List.cons.inj hlines
        obtain ⟨final, hrun, hfinal, houtput⟩ :=
          (ih (state.noted (strip line)) hinside hsubckt hends hinstances _).mpr
            ⟨_, inside, after, ⟨_, header, body, footer, below, names, rfl, habove, hheader, hbody,
              hnodup, hfooter, hbelow⟩, rfl⟩
        refine ⟨final, hfirst ((sealLine_eq_ok hports).mpr (Or.inr (Or.inl ⟨hcomment, rfl⟩))) hrun,
          hfinal, houtput.trans ?_⟩
        simp [SealState.noted, sealedLines]

end Whole

section Canonical

variable {fold : FoldMap} {top sealedTop line head : List Char} {more : List (List Char)}
  {ports lines names output before inside after : List (List Char)}

theorem strip_strip (line : List Char) : strip (strip line) = strip line := by
  have hlstrip : lstrip isSpace (lstrip isSpace line) = lstrip isSpace line :=
    List.dropWhile_idempotent isSpace line
  have htrim : strip (strip line) = strip (lstrip isSpace line) :=
    trim_rstrip isSpace (lstrip isSpace line)
  rw [htrim, strip, hlstrip]
  rfl

theorem areWords_words (line : List Char) : AreWords (words isSpace line) := by
  intro word hword
  obtain ⟨front, rest, hsplit⟩ := List.append_of_mem hword
  obtain ⟨_, _, -, -, -, hne, hletters, -⟩ := exists_of_words_append hsplit
  exact ⟨hne, hletters⟩

theorem mem_of_mem_words {word : List Char} (hword : word ∈ words isSpace line) {c : Char}
    (hc : c ∈ word) : c ∈ strip line := by
  rw [← words_strip] at hword
  obtain ⟨front, rest, hsplit⟩ := List.append_of_mem hword
  obtain ⟨before, after, heq, -⟩ := exists_of_words_append hsplit
  rw [heq]
  exact List.mem_append_left _ (List.mem_append_right _ hc)

theorem mem_intercalate {a c : Char} {fields : List (List Char)} (h : c ∈ [a].intercalate fields) :
    c = a ∨ ∃ field ∈ fields, c ∈ field := by
  induction fields with
  | nil => cases h
  | cons first rest ih =>
    cases rest with
    | nil =>
      rw [List.intercalate_singleton] at h
      exact Or.inr ⟨first, List.mem_cons_self, h⟩
    | cons second rest =>
      rw [List.intercalate_cons_cons, List.mem_append, List.mem_append, List.mem_singleton] at h
      rcases h with (h | h) | h
      · exact Or.inr ⟨first, List.mem_cons_self, h⟩
      · exact Or.inl h
      · obtain h | ⟨field, hfield, hc⟩ := ih h
        · exact Or.inl h
        · exact Or.inr ⟨field, List.mem_cons_of_mem _ hfield, hc⟩

theorem head?_joinWords (c : Char) (word : List Char) (more : List (List Char)) :
    (joinWords ((c :: word) :: more)).head? = some c := by
  cases more with
  | nil => rfl
  | cons second rest => rw [joinWords_cons_cons]; rfl

theorem isCard_joinWords {c : Char} {word : List Char} (hwords : AreWords ((c :: word) :: more))
    (hstart : c ≠ '*' ∧ c ≠ '+')
    (hplain : ∀ field ∈ (c :: word) :: more, ∀ d ∈ field, forbiddenToken d = false) :
    IsCard (joinWords ((c :: word) :: more)) ((c :: word) :: more) where
  start d hd := by
    rw [strip_joinWords hwords, head?_joinWords, Option.mem_some_iff] at hd
    exact hd ▸ hstart
  plain d hd := by
    rw [strip_joinWords hwords] at hd
    obtain rfl | ⟨field, hfield, hd⟩ := mem_intercalate hd
    · decide
    · exact hplain field hfield d hd
  tokens_eq := words_joinWords hwords

theorem IsDevice.joined (h : IsDevice fold line head more) :
    IsDevice fold (joinWords (head :: more)) head more := by
  obtain ⟨c, rest, rfl, hc, -⟩ := exists_of_isSpiceName h.name
  have htokens := h.card.tokens_eq
  refine ⟨isCard_joinWords (htokens ▸ areWords_words line) ⟨?_, ?_⟩ ?_, h.name, h.allowed⟩
  · rintro rfl
    revert hc
    decide
  · rintro rfl
    revert hc
    decide
  · intro field hfield d hd
    exact h.card.plain d (mem_of_mem_words (htokens ▸ hfield) hd)

theorem AreCards.again (h : AreCards fold lines names output) :
    AreCards fold output names output := by
  induction h with
  | nil => exact .nil
  | blank _ _ ih => exact ih
  | @comment line lines names output hline _ ih =>
    have hcomment : AreCards fold (strip line :: output) names (strip (strip line) :: output) :=
      .comment (by rw [strip_strip]; exact hline) ih
    rw [strip_strip] at hcomment
    exact hcomment
  | device hline _ ih => exact .device hline.joined ih

theorem AreCards.forall_output (h : AreCards fold lines names output) :
    ∀ line ∈ output, line.head? = some '*' ∨
      ∃ head more, IsDevice fold line head more ∧ line = joinWords (head :: more) := by
  induction h with
  | nil => exact fun line hline => absurd hline List.not_mem_nil
  | blank _ _ ih => exact ih
  | comment hline _ ih => exact List.forall_mem_cons.mpr ⟨Or.inl hline, ih⟩
  | device hline _ ih =>
    exact List.forall_mem_cons.mpr ⟨Or.inr ⟨_, _, hline.joined, rfl⟩, ih⟩

theorem AreCards.forall_comment (h : AreCards fold lines [] output) :
    ∀ line ∈ output, line.head? = some '*' := by
  generalize hnames : ([] : List (List Char)) = names at h
  induction h with
  | nil => exact fun line hline => absurd hline List.not_mem_nil
  | blank _ _ ih => exact ih hnames
  | comment hline _ ih => exact List.forall_mem_cons.mpr ⟨hline, ih hnames⟩
  | device => cases hnames

theorem AreCards.forall_chars {good : Char → Prop} (hspace : good ' ')
    (h : AreCards fold lines names output) (hlines : ∀ line ∈ lines, ∀ c ∈ line, good c) :
    ∀ line ∈ output, ∀ c ∈ line, good c := by
  induction h with
  | nil => exact fun line hline => absurd hline List.not_mem_nil
  | blank _ _ ih => exact ih (List.forall_mem_cons.mp hlines).2
  | comment _ _ ih =>
    obtain ⟨hfirst, hrest⟩ := List.forall_mem_cons.mp hlines
    exact List.forall_mem_cons.mpr ⟨fun c hc => hfirst c (trim_subset _ _ hc), ih hrest⟩
  | device hline _ ih =>
    obtain ⟨hfirst, hrest⟩ := List.forall_mem_cons.mp hlines
    refine List.forall_mem_cons.mpr ⟨fun c hc => ?_, ih hrest⟩
    obtain rfl | ⟨field, hfield, hc⟩ := mem_intercalate hc
    · exact hspace
    · exact hfirst c (trim_subset _ _ (mem_of_mem_words (hline.card.tokens_eq ▸ hfield) hc))

theorem AreCards.head?_ne_dot (h : AreCards fold lines names output) :
    ∀ line ∈ output, line.head? ≠ some '.' := by
  intro line hline hdot
  rcases h.forall_output line hline with hcomment | ⟨head, more, hdevice, rfl⟩
  · rw [hdot] at hcomment
    cases hcomment
  · obtain ⟨c, rest, rfl, hc, -⟩ := exists_of_isSpiceName hdevice.name
    rw [head?_joinWords, Option.some.injEq] at hdot
    rw [hdot] at hc
    revert hc
    decide

theorem AreCards.append {lines' names' output' : List (List Char)}
    (h : AreCards fold lines names output) (h' : AreCards fold lines' names' output') :
    AreCards fold (lines ++ lines') (names ++ names') (output ++ output') := by
  induction h with
  | nil => exact h'
  | blank hline _ ih => exact .blank hline ih
  | comment hline _ ih => exact .comment hline ih
  | device hline _ ih => exact .device hline ih

theorem name_char {text : List Char} (h : isSpiceName text = true) {c : Char} (hc : c ∈ text) :
    forbiddenToken c = false ∧ isSpace c = false ∧ c ≠ '\x00' := by
  obtain ⟨-, -, -, -, hall⟩ := exists_of_isSpiceName h
  rcases hall c hc with halnum | rfl
  · refine ⟨?_, isSpace_eq_false_of_alnum halnum, ?_⟩
    · by_contra hforbidden
      rw [Bool.not_eq_false, forbiddenToken, decide_eq_true_eq] at hforbidden
      simp only [List.mem_cons, List.not_mem_nil, or_false] at hforbidden
      rcases hforbidden with rfl | rfl | rfl | rfl | rfl | rfl | rfl <;> revert halnum <;> decide
    · rintro rfl
      revert halnum
      decide
  · decide

theorem name_word {text : List Char} (h : isSpiceName text = true) :
    text ≠ [] ∧ ∀ c ∈ text, isSpace c = false := by
  refine ⟨?_, fun c hc => (name_char h hc).2.1⟩
  rintro rfl
  cases h

theorem headerLine_eq (sealedTop : List Char) (ports : List (List Char)) :
    headerLine sealedTop ports = joinWords (".SUBCKT".toList :: sealedTop :: ports) := by
  rw [joinWords_cons_cons]
  rfl

theorem footerLine_eq (sealedTop : List Char) :
    footerLine sealedTop = joinWords [".ENDS".toList, sealedTop] := by
  rw [joinWords_cons_cons, joinWords, List.intercalate_singleton]
  rfl

theorem isHeader_headerLine (htop : isSpiceName sealedTop = true)
    (hports : ∀ port ∈ ports, isSpiceName port = true) :
    IsHeader fold sealedTop ports (headerLine sealedTop ports) := by
  refine ⟨".SUBCKT".toList, sealedTop, ?_, ?_, rfl⟩
  · rw [headerLine_eq]
    refine isCard_joinWords (.cons ⟨by decide, forall_chars (by decide)⟩ (.cons (name_word htop)
      fun port hport => name_word (hports port hport))) (by decide) ?_
    refine List.forall_mem_cons.mpr ⟨forall_chars (by decide), List.forall_mem_cons.mpr
      ⟨fun c hc => (name_char htop hc).1,
        fun port hport c hc => (name_char (hports port hport) hc).1⟩⟩
  · exact casefold_ascii (forall_chars (by decide))

theorem isFooter_footerLine (htop : isSpiceName sealedTop = true) :
    IsFooter fold sealedTop (footerLine sealedTop) := by
  refine ⟨".ENDS".toList, [sealedTop], ?_, ?_, le_rfl, ?_⟩
  · rw [footerLine_eq]
    refine isCard_joinWords (.cons ⟨by decide, forall_chars (by decide)⟩ (.cons (name_word htop)
      fun field hfield => absurd hfield List.not_mem_nil)) (by decide) ?_
    refine List.forall_mem_cons.mpr ⟨forall_chars (by decide), List.forall_mem_singleton.mpr
      fun c hc => (name_char htop hc).1⟩
  · exact casefold_ascii (forall_chars (by decide))
  · exact List.forall_mem_singleton.mpr rfl

/-- The sealed lines are a subcircuit of the sealed name with the same lines. -/
theorem IsSubcircuit.again (h : IsSubcircuit fold top ports lines before inside after)
    (htop : isSpiceName sealedTop = true) (hports : ∀ port ∈ ports, isSpiceName port = true) :
    IsSubcircuit fold sealedTop ports (sealedLines sealedTop ports before inside after ++ [[]])
      before inside after := by
  obtain ⟨above, header, body, footer, below, names, rfl, habove, -, hbody, hnodup, -, hbelow⟩ :=
    h.split
  have hend : AreCards fold (after ++ [[]]) [] after := by
    have happend := hbelow.again.append (AreCards.blank rfl AreCards.nil : AreCards fold [[]] [] [])
    rw [List.append_nil, List.append_nil] at happend
    exact happend
  refine ⟨before, headerLine sealedTop ports, inside, footerLine sealedTop, after ++ [[]], names,
    ?_, habove.again, isHeader_headerLine htop hports, hbody.again, hnodup,
    isFooter_footerLine htop, hend⟩
  simp [sealedLines]

theorem mem_splitOn {text part : List Char} {a : Char} (h : part ∈ text.splitOn a) :
    a ∉ part ∧ part ⊆ text := by
  induction text generalizing part with
  | nil =>
    rw [List.splitOn_nil, List.mem_singleton] at h
    rw [h]
    exact ⟨List.not_mem_nil, List.Subset.refl _⟩
  | cons c text ih =>
    obtain ⟨first, rest, hsplit⟩ := List.exists_cons_of_ne_nil (List.splitOn_ne_nil a text)
    rw [List.splitOn_cons_eq_if_modifyHead, hsplit] at h
    rw [hsplit] at ih
    obtain ⟨hfirst, hrest⟩ := List.forall_mem_cons.mp fun p hp => @ih p hp
    by_cases hc : (c == a) = true
    · rw [if_pos hc] at h
      rcases List.mem_cons.mp h with rfl | h
      · exact ⟨List.not_mem_nil, List.nil_subset _⟩
      · exact ⟨(ih h).1, List.subset_cons_of_subset c (ih h).2⟩
    · rw [if_neg hc, List.modifyHead_cons] at h
      rcases List.mem_cons.mp h with rfl | h
      · refine ⟨?_, List.cons_subset_cons c hfirst.2⟩
        rw [List.mem_cons, not_or]
        refine ⟨?_, hfirst.1⟩
        rintro rfl
        exact hc (beq_self_eq_true _)
      · exact ⟨(hrest part h).1, List.subset_cons_of_subset c (hrest part h).2⟩

theorem splitOn_canonicalText (hne : output ≠ []) (hlines : ∀ line ∈ output, '\n' ∉ line) :
    (canonicalText output).splitOn '\n' = output ++ [[]] := by
  have heq : canonicalText output = ['\n'].intercalate (output ++ [[]]) := by
    clear hlines
    induction output with
    | nil => exact absurd rfl hne
    | cons line output ih =>
      cases output with
      | nil => simp [canonicalText]
      | cons next output =>
        have hrest := ih (List.cons_ne_nil _ _)
        simp only [canonicalText, List.cons_append, List.intercalate_cons_cons] at hrest ⊢
        rw [← hrest]
        simp
  rw [heq]
  refine List.splitOn_intercalate '\n' ?_ (by simp)
  intro line hline
  rcases List.mem_append.mp hline with hline | hline
  · exact hlines line hline
  · rw [List.mem_singleton.mp hline]
    exact List.not_mem_nil

end Canonical

section Sealing

variable {fold : FoldMap} {sha256 : Sha256}
  {top sealedTop raw expectedSha256 dutNamespace : List Char}
  {ports lines before inside after : List (List Char)}

structure IsSealRequest (fold : FoldMap) (sha256 : Sha256) (ports : List (List Char))
    (raw expectedSha256 : List Char) : Prop where
  digest : isDigest expectedSha256 = true
  size : 1 ≤ (raw.map Char.utf8Size).sum ∧ (raw.map Char.utf8Size).sum ≤ maxDutBytes
  pinned : sha256.digest raw = expectedSha256
  text : '\x00' ∉ raw ∧ '\r' ∉ raw
  names : ports ≠ [] ∧ ∀ port ∈ ports, isSpiceName port = true
  distinct : (ports.map fold.casefold).Nodup

def sealedOf (sha256 : Sha256) (top sealedTop raw : List Char)
    (ports before inside after : List (List Char)) : SealedDut :=
  let canonical := canonicalText (sealedLines sealedTop ports before inside after)
  ⟨raw, sha256.digest raw, canonical, sha256.digest canonical, top, sealedTop⟩

theorem compilerTop_eq_ok {name : List Char} (h : compilerTop dutNamespace top = .ok name) :
    isSpiceName name = true := by
  unfold compilerTop at h
  dsimp only at h
  rw [Except.guard_eq_ok, Bool.not_eq_true, Bool.not_eq_false'] at h
  obtain ⟨hname, hok⟩ := h
  rw [← Except.ok.inj hok]
  exact hname

theorem isDigest_digest (sha256 : Sha256) (text : List Char) :
    isDigest (sha256.digest text) = true := by
  obtain ⟨hlength, hchars⟩ := sha256.shape text
  simp only [isDigest, hlength, Bool.and_eq_true, List.all_eq_true, Bool.or_eq_true]
  exact ⟨by decide, fun c hc => by simpa using hchars c hc⟩

theorem sealStructuralDut_eq_ok {sealedDut : SealedDut} :
    sealStructuralDut fold top ports sha256 raw expectedSha256 dutNamespace = .ok sealedDut ↔
      IsSealRequest fold sha256 ports raw expectedSha256 ∧ ∃ sealedTop before inside after,
        compilerTop dutNamespace top = .ok sealedTop ∧
        IsSubcircuit fold top ports (raw.splitOn '\n') before inside after ∧
        sealedDut = sealedOf sha256 top sealedTop raw ports before inside after := by
  unfold sealStructuralDut
  dsimp only
  rw [Except.guard_eq_ok, Except.guard_eq_ok, Except.guard_eq_ok, Except.guard_eq_ok,
    Except.guard_eq_ok, Except.guard_eq_ok]
  constructor
  · rintro ⟨hdigest, hsize, hpinned, htext, hports, hdistinct, hrun⟩
    rw [not_not] at hdigest hsize hpinned hdistinct
    rw [not_or] at htext hports
    have hnames : ∀ port ∈ ports, isSpiceName port = true := by simpa using hports.2
    obtain ⟨sealedTop, htop, hrun⟩ := Except.bind_eq_ok.mp hrun
    obtain ⟨final, hrun, hok⟩ := Except.bind_eq_ok.mp hrun
    rw [Except.guard_eq_ok, not_or, not_or, not_not, not_not,
      Bool.not_eq_true] at hok
    obtain ⟨hfinal, hok⟩ := hok
    obtain ⟨before, inside, after, hlines, houtput⟩ :=
      (run_before hports.1 .start rfl rfl rfl rfl _).mp ⟨final, hrun, hfinal, rfl⟩
    refine ⟨⟨hdigest, hsize, hpinned, htext, ⟨hports.1, hnames⟩, hdistinct⟩, sealedTop, before,
      inside, after, htop, hlines, ?_⟩
    rw [← Except.ok.inj hok, houtput]
    rfl
  · rintro ⟨⟨hdigest, hsize, hpinned, htext, hports, hdistinct⟩, sealedTop, before, inside, after,
      htop, hlines, rfl⟩
    obtain ⟨final, hrun, hfinal, houtput⟩ := (run_before hports.1 .start rfl rfl rfl rfl _).mpr
      ⟨before, inside, after, hlines, rfl⟩
    refine ⟨not_not.mpr hdigest, not_not.mpr hsize, not_not.mpr hpinned, not_or.mpr htext,
      not_or.mpr ⟨hports.1, by simpa using hports.2⟩, not_not.mpr hdistinct, ?_⟩
    refine Except.bind_eq_ok.mpr ⟨sealedTop, htop, Except.bind_eq_ok.mpr ⟨final, hrun, ?_⟩⟩
    rw [Except.guard_eq_ok, not_or, not_or, not_not, not_not, Bool.not_eq_true, houtput]
    exact ⟨hfinal, rfl⟩

def isTextChar (c : Char) : Prop := c ≠ '\n' ∧ c ≠ '\x00' ∧ c ≠ '\r'

instance decidableIsTextChar : DecidablePred isTextChar := fun c =>
  inferInstanceAs (Decidable (c ≠ '\n' ∧ c ≠ '\x00' ∧ c ≠ '\r'))

theorem isTextChar_name {text : List Char} (h : isSpiceName text = true) :
    ∀ c ∈ text, isTextChar c := by
  intro c hc
  obtain ⟨-, hspace, hnul⟩ := name_char h hc
  refine ⟨?_, hnul, ?_⟩
  · rintro rfl
    revert hspace
    decide
  · rintro rfl
    revert hspace
    decide

theorem isTextChar_joinWords {fields : List (List Char)}
    (h : ∀ field ∈ fields, ∀ c ∈ field, isTextChar c) : ∀ c ∈ joinWords fields, isTextChar c := by
  intro c hc
  obtain rfl | ⟨field, hfield, hc⟩ := mem_intercalate hc
  · decide
  · exact h field hfield c hc

/-- The lines of the sealed text have no line end, and nothing that the seal refuses. -/
theorem IsSubcircuit.textChars (h : IsSubcircuit fold top ports lines before inside after)
    (hlines : ∀ line ∈ lines, ∀ c ∈ line, isTextChar c) (htop : isSpiceName sealedTop = true)
    (hports : ∀ port ∈ ports, isSpiceName port = true) :
    ∀ line ∈ sealedLines sealedTop ports before inside after, ∀ c ∈ line, isTextChar c := by
  obtain ⟨above, header, body, footer, below, names, rfl, habove, -, hbody, -, -, hbelow⟩ := h.split
  have hblank : isTextChar ' ' := by decide
  simp only [List.forall_mem_append, List.forall_mem_cons] at hlines
  obtain ⟨hfirst, -, hmiddle, -, hlast⟩ := hlines
  rw [sealedLines, List.forall_mem_append, List.forall_mem_cons, List.forall_mem_append,
    List.forall_mem_cons, headerLine_eq, footerLine_eq]
  refine ⟨habove.forall_chars hblank hfirst, isTextChar_joinWords ?_,
    hbody.forall_chars hblank hmiddle, isTextChar_joinWords ?_, hbelow.forall_chars hblank hlast⟩
  · exact List.forall_mem_cons.mpr ⟨PyText.forall_chars (by decide), List.forall_mem_cons.mpr
      ⟨isTextChar_name htop, fun port hport => isTextChar_name (hports port hport)⟩⟩
  · exact List.forall_mem_cons.mpr ⟨PyText.forall_chars (by decide), List.forall_mem_singleton.mpr
      (isTextChar_name htop)⟩

theorem IsSubcircuit.directives (h : IsSubcircuit fold top ports lines before inside after) :
    (sealedLines sealedTop ports before inside after ++ [[]]).filter
        (fun line => line.head? = some '.') =
      [headerLine sealedTop ports, footerLine sealedTop] := by
  obtain ⟨above, header, body, footer, below, names, -, habove, -, hbody, -, -, hbelow⟩ := h.split
  have hnone {output : List (List Char)} (hout : ∀ line ∈ output, line.head? ≠ some '.') :
      output.filter (fun line => line.head? = some '.') = [] := by
    rw [List.filter_eq_nil_iff]
    exact fun line hline => by simpa using hout line hline
  rw [sealedLines, List.filter_append, List.filter_append, hnone habove.head?_ne_dot,
    List.filter_cons_of_pos (by rfl), List.filter_append, hnone hbody.head?_ne_dot,
    List.filter_cons_of_pos (by rfl), hnone hbelow.head?_ne_dot]
  rfl

theorem mem_canonicalText {output : List (List Char)}
    (h : ∀ line ∈ output, ∀ c ∈ line, isTextChar c) {c : Char} (hc : c ∈ canonicalText output) :
    c ≠ '\x00' ∧ c ≠ '\r' := by
  rw [canonicalText, List.mem_append, List.mem_singleton] at hc
  rcases hc with hc | rfl
  · obtain rfl | ⟨line, hline, hc⟩ := mem_intercalate hc
    · decide
    · exact (h line hline c hc).2
  · decide

/-- What the seal accepts, what it writes, and the seal of what it writes. -/
theorem sealStructuralDut_exact (fold : FoldMap) (sha256 : Sha256)
    (top raw expectedSha256 dutNamespace : List Char) (ports : List (List Char)) :
    (∀ sealedDut, sealStructuralDut fold top ports sha256 raw expectedSha256 dutNamespace =
        .ok sealedDut ↔
      IsSealRequest fold sha256 ports raw expectedSha256 ∧ ∃ sealedTop before inside after,
        compilerTop dutNamespace top = .ok sealedTop ∧
        IsSubcircuit fold top ports (raw.splitOn '\n') before inside after ∧
        sealedDut = sealedOf sha256 top sealedTop raw ports before inside after) ∧
    ∀ sealedDut, sealStructuralDut fold top ports sha256 raw expectedSha256 dutNamespace =
        .ok sealedDut → ∃ before inside after,
      sealedDut.canonical =
        canonicalText (sealedLines sealedDut.sealedTop ports before inside after) ∧
      (sealedDut.canonical.splitOn '\n').filter (fun line => line.head? = some '.') =
        [headerLine sealedDut.sealedTop ports, footerLine sealedDut.sealedTop] ∧
      (∀ line ∈ before ++ after, line.head? = some '*') ∧
      (∀ line ∈ inside, line.head? = some '*' ∨
        ∃ head more, IsDevice fold line head more ∧ line = joinWords (head :: more)) ∧
      ∀ dutNamespace' sealedTop', compilerTop dutNamespace' sealedDut.sealedTop = .ok sealedTop' →
        (sealedDut.canonical.map Char.utf8Size).sum ≤ maxDutBytes →
        sealStructuralDut fold sealedDut.sealedTop ports sha256 sealedDut.canonical
            sealedDut.canonicalSha256 dutNamespace' =
          .ok (sealedOf sha256 sealedDut.sealedTop sealedTop' sealedDut.canonical ports before
            inside after) := by
  refine ⟨fun sealedDut => sealStructuralDut_eq_ok, fun sealedDut hok => ?_⟩
  obtain ⟨⟨-, -, -, ⟨hnul, hreturn⟩, hports, hdistinct⟩, sealedTop, before, inside, after, htop,
    hlines, rfl⟩ := sealStructuralDut_eq_ok.mp hok
  have hname := compilerTop_eq_ok htop
  have hraw : ∀ line ∈ raw.splitOn '\n', ∀ c ∈ line, isTextChar c := by
    intro line hline c hc
    obtain ⟨hnewline, hsub⟩ := mem_splitOn hline
    exact ⟨fun h => hnewline (h ▸ hc), fun h => hnul (h ▸ hsub hc), fun h => hreturn (h ▸ hsub hc)⟩
  have hchars := hlines.textChars hraw hname hports.2
  have hsplit :
      (sealedOf sha256 top sealedTop raw ports before inside after).canonical.splitOn '\n' =
        sealedLines sealedTop ports before inside after ++ [[]] :=
    splitOn_canonicalText (by simp [sealedLines])
      fun line hline hc => (hchars line hline _ hc).1 rfl
  have hagain := hlines.again hname hports.2
  obtain ⟨above, header, body, footer, below, names, -, habove, -, hbody, -, -, hbelow⟩ :=
    hlines.split
  refine ⟨before, inside, after, rfl, ?_, ?_, hbody.forall_output, ?_⟩
  · rw [hsplit]
    exact hlines.directives
  · exact List.forall_mem_append.mpr ⟨habove.forall_comment, hbelow.forall_comment⟩
  · intro dutNamespace' sealedTop' htop' hsize
    refine sealStructuralDut_eq_ok.mpr ⟨⟨isDigest_digest sha256 _, ⟨?_, hsize⟩, rfl, ⟨?_, ?_⟩,
      hports, hdistinct⟩, sealedTop', before, inside, after, htop', hsplit ▸ hagain, rfl⟩
    · show 1 ≤ ((canonicalText _).map Char.utf8Size).sum
      rw [canonicalText, List.map_append, List.sum_append]
      exact Nat.le_add_left 1 _
    · exact fun hmem => (mem_canonicalText hchars hmem).1 rfl
    · exact fun hmem => (mem_canonicalText hchars hmem).2 rfl

end Sealing

section Limits

def asciiFold : FoldMap := ⟨asciiCases.lowerChar, asciiCases.ascii⟩

/-- A text is accepted when the checks in front of its lines and the reading of them pass. -/
theorem exists_sealed_iff (fold : FoldMap) (sha256 : Sha256) (top raw dutNamespace : List Char)
    (ports : List (List Char)) :
    (∃ sealedDut, sealStructuralDut fold top ports sha256 raw (sha256.digest raw) dutNamespace =
        .ok sealedDut) ↔
      IsSealRequest fold sha256 ports raw (sha256.digest raw) ∧
        ∃ sealedTop, compilerTop dutNamespace top = .ok sealedTop ∧
          ∃ final, ((raw.splitOn '\n').zipIdx 1).foldlM (sealLine fold top sealedTop ports) .start =
              .ok final ∧
            final.inside = false ∧ final.seenSubckt = true ∧ final.seenEnds = true := by
  constructor
  · rintro ⟨sealedDut, hok⟩
    obtain ⟨hrequest, sealedTop, before, inside, after, htop, hlines, -⟩ :=
      sealStructuralDut_eq_ok.mp hok
    obtain ⟨final, hrun, hfinal, -⟩ :=
      (run_before hrequest.names.1 .start rfl rfl rfl rfl _).mpr
        ⟨before, inside, after, hlines, rfl⟩
    exact ⟨hrequest, sealedTop, htop, final, hrun, hfinal⟩
  · rintro ⟨hrequest, sealedTop, htop, final, hrun, hfinal⟩
    obtain ⟨before, inside, after, hlines, -⟩ :=
      (run_before hrequest.names.1 .start rfl rfl rfl rfl _).mp ⟨final, hrun, hfinal, rfl⟩
    exact ⟨_, sealStructuralDut_eq_ok.mpr
      ⟨hrequest, sealedTop, before, inside, after, htop, hlines, rfl⟩⟩

/-- A resistor without nodes is accepted, and a header with a continuation line is refused. -/
theorem bareResistor_accepted :
    (∀ sha256 : Sha256, ∃ sealedDut,
      sealStructuralDut asciiFold "dut".toList ["in".toList] sha256
        ".subckt dut in\nr1\n.ends".toList (sha256.digest ".subckt dut in\nr1\n.ends".toList)
        "a".toList = .ok sealedDut) ∧
    ∀ sha256 : Sha256, ¬∃ sealedDut,
      sealStructuralDut asciiFold "dut".toList ["in".toList] sha256
        ".subckt dut\n+ in\nr1 in 0 1k\n.ends".toList
        (sha256.digest ".subckt dut\n+ in\nr1 in 0 1k\n.ends".toList) "a".toList =
          .ok sealedDut := by
  constructor
  · intro sha256
    rw [exists_sealed_iff]
    refine ⟨⟨isDigest_digest sha256 _, by decide, rfl, by decide, by decide, by decide⟩,
      "OPENADA_a_dut".toList, rfl, ?_⟩
    exact ⟨⟨[".SUBCKT OPENADA_a_dut in".toList, "r1".toList, ".ENDS OPENADA_a_dut".toList], false,
      true, true, ["r1".toList]⟩, rfl, rfl, rfl, rfl⟩
  · intro sha256
    rw [exists_sealed_iff]
    rintro ⟨-, sealedTop, htop, final, hrun, -⟩
    obtain rfl : "OPENADA_a_dut".toList = sealedTop := Except.ok.inj htop
    have hnone : (((".subckt dut\n+ in\nr1 in 0 1k\n.ends".toList.splitOn '\n').zipIdx 1).foldlM
        (sealLine asciiFold "dut".toList "OPENADA_a_dut".toList ["in".toList])
          .start).toOption.isSome = false := by decide
    rw [hrun] at hnone
    cases hnone

end Limits

end OpenADA.StructuralDut
