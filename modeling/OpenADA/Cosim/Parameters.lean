import OpenADA.Cosim.Deck

/-! The parameters a simulator gives an instance of a wrapper, and the constraints the gate has
checked of them. -/
namespace OpenADA.Cosim

open PyText SpiceText InsertionDict

section Reading

variable (cases : CaseMap)

def bareToken (token : Name) : Name :=
  if cases.lower (token.take 7) = "params:".toList then token.drop 7 else token

def assignment (token : Name) : Option (Name × Name) :=
  if '=' ∈ bareToken cases token then
    some (cases.lower (partition (bareToken cases token)).1, (partition (bareToken cases token)).2)
  else none

def overrides (space : Char → Bool) (card : List Char) : List (Name × Name) :=
  (joinEquals (words space card)).filterMap (assignment cases)

variable {F : Type} [PyFloat F]

def chosenValue (override : Option (Name × Name)) (default : Option F) : Option F :=
  match override with
  | some override => scalarValue cases override.2
  | none => default

/-- The value an instance has for a parameter: the last override of the name, or the default of the
contract, whatever the case of the letters. -/
def instanceValue (parameters : List (Name × F)) (card : List Char) (name : Name) : Option F :=
  chosenValue cases (lastWith Prod.fst name (overrides cases isCSpace card))
    ((lastWith (fun parameter => cases.lower parameter.1) name parameters).map Prod.snd)

def IsInstance (wrapper : Name) (card : List Char) : Prop :=
  instantiates cases wrapper (words isCSpace card) = true

def Constraint.names (constraint : Constraint F) : List Name :=
  constraint.left.1 :: constraint.rightTerms.map fun term => term.1.1

def Constraint.Satisfied (constraint : Constraint F) (values : Name → Option F) : Prop :=
  ∃ value : Name → F, (∀ name ∈ constraint.names, values name = some (value name)) ∧
    constraint.relation.satisfied (value constraint.left) (constraint.rightTerms.foldl
      (fun total term => total + term.2 * value term.1) constraint.rightConstant) = true

/-- In exact arithmetic: the left parameter against the constant and the weighted sum. -/
def Constraint.Holds (constraint : Constraint ℚ) (values : Name → Option ℚ) : Prop :=
  ∃ value : Name → ℚ, (∀ name ∈ constraint.names, values name = some (value name)) ∧
    match constraint.relation with
    | .greater => constraint.rightConstant +
        (constraint.rightTerms.map fun term => term.2 * value term.1).sum < value constraint.left
    | .greaterEqual => constraint.rightConstant +
        (constraint.rightTerms.map fun term => term.2 * value term.1).sum ≤ value constraint.left

def spelledOverride (token : Name) : Option (Name × Name) :=
  if '=' ∈ token then some (partition token) else none

/-- Overrides the code reads as a simulator does: none is glued to params:, each has a name and a
value, and no spelling of a name comes again after another spelling of it. -/
structure CleanOverrides (card : List Char) : Prop where
  apart : ∀ token ∈ joinEquals (words isCSpace card),
    cases.lower (token.take 7) = "params:".toList → token.length ≤ 7
  complete : ∀ token ∈ joinEquals (words isCSpace card), '=' ∈ token →
    (partition token).1 ≠ [] ∧ (partition token).2 ≠ []
  settled : Settled cases.lower
    ((joinEquals (words isCSpace card)).filterMap spelledOverride)

end Reading

section Tokens

variable {cases : CaseMap}

theorem mem_lower {text : List Char} (h : '=' ∈ text) : '=' ∈ cases.lower text := by
  unfold CaseMap.lower
  suffices hfrom : ∀ before, '=' ∈ cases.lowerFrom before text from hfrom []
  induction text with
  | nil => cases h
  | cons c rest ih =>
    intro before
    rw [CaseMap.lowerFrom]
    rcases List.mem_cons.mp h with rfl | h
    · refine List.mem_append_left _ ?_
      rw [if_neg (by decide), cases.ascii '=' (by decide)]
      exact List.mem_singleton_self _
    · exact List.mem_append_right _ (ih h _)

theorem isParamsWord_eq_false {token : Name} (h : '=' ∈ token) :
    isParamsWord cases token = false := by
  have hlower : '=' ∈ cases.lower token := mem_lower h
  rw [isParamsWord, Bool.or_eq_false_iff]
  constructor
  · refine decide_eq_false fun heq => ?_
    rw [heq] at hlower
    exact absurd hlower (by decide)
  · refine decide_eq_false fun heq => ?_
    rw [heq] at hlower
    exact absurd hlower (by decide)

theorem xCardParameters_eq {fields : List Name}
    (h : ∀ token ∈ joinEquals fields, '=' ∈ token →
      (partition token).1 ≠ [] ∧ (partition token).2 ≠ []) :
    xCardParameters cases fields =
      ofList ((joinEquals fields).filterMap spelledOverride) := by
  unfold xCardParameters ofList
  generalize joinEquals fields = tokens at h
  generalize (InsertionDict.empty : InsertionDict Name Name) = d
  induction tokens generalizing d with
  | nil => rfl
  | cons token rest ih =>
    have hrest := ih fun other hother => h other (List.mem_cons_of_mem _ hother)
    rw [List.foldl_cons, hrest, List.filterMap_cons]
    by_cases hequals : '=' ∈ token
    · have hparts := h token (List.mem_cons_self ..) hequals
      simp [spelledOverride, hequals, hparts, isParamsWord_eq_false hequals]
    · simp [spelledOverride, hequals]

theorem overrides_eq {card : List Char} (h : CleanOverrides cases card) :
    overrides cases isCSpace card = ((joinEquals (words isCSpace card)).filterMap
      spelledOverride).map fun override => (cases.lower override.1, override.2) := by
  unfold overrides
  rw [List.map_filterMap]
  refine List.filterMap_congr ?_
  intro token htoken
  have hapart := h.apart token htoken
  by_cases hglued : cases.lower (token.take 7) = "params:".toList
  · -- the token is the word itself, which has no equals sign
    have hlength := hapart hglued
    have hno : '=' ∉ token := by
      intro hequals
      rw [List.take_of_length_le hlength] at hglued
      have hlower : '=' ∈ cases.lower token := mem_lower hequals
      rw [hglued] at hlower
      exact absurd hlower (by decide)
    have hbare : bareToken cases token = [] :=
      (if_pos hglued).trans (List.drop_eq_nil_of_le hlength)
    rw [assignment, hbare, if_neg List.not_mem_nil, spelledOverride, if_neg hno]
    rfl
  · have hbare : bareToken cases token = token := if_neg hglued
    rw [assignment, hbare, spelledOverride]
    by_cases hequals : '=' ∈ token
    · rw [if_pos hequals, if_pos hequals]
      rfl
    · rw [if_neg hequals, if_neg hequals]
      rfl

end Tokens

section Maps

variable {cases : CaseMap} {F : Type} [PyFloat F]

/-- The loop over the overrides of one card: all are literals, and the last of a name counts. -/
theorem foldlM_applyOverride {wrapper : Name} {entries : List (Name × Name)}
    {defaults effective : Effective F}
    (h : entries.foldlM (applyOverride cases wrapper) defaults = .ok effective) :
    (∀ entry ∈ entries, ∃ scalar : F, scalarValue cases entry.2 = some scalar) ∧
      ∀ name, effective.get? name = chosenValue cases
        (lastWith (fun entry => cases.lower entry.1) name entries) (defaults.get? name) := by
  induction entries generalizing defaults with
  | nil =>
    rw [Except.foldlM_nil_eq_ok] at h
    subst h
    exact ⟨by simp, fun _ => rfl⟩
  | cons entry rest ih =>
    obtain ⟨next, hnext, hrest⟩ := Except.foldlM_cons_eq_ok.mp h
    obtain ⟨hliterals, hvalues⟩ := ih hrest
    rw [applyOverride] at hnext
    cases hscalar : (scalarValue cases entry.2 : Option F) with
    | none =>
      rw [hscalar] at hnext
      cases hnext
    | some scalar =>
      rw [hscalar] at hnext
      obtain rfl := Except.ok.inj hnext
      refine ⟨List.forall_mem_cons.mpr ⟨⟨scalar, hscalar⟩, hliterals⟩, ?_⟩
      intro name
      rw [hvalues, lastWith_cons]
      cases lastWith (fun entry => cases.lower entry.1) name rest with
      | some last => rfl
      | none =>
        rw [get?_set]
        by_cases hname : cases.lower entry.1 = name
        · rw [if_pos hname.symm, if_pos hname]
          exact hscalar.symm
        · rw [if_neg (Ne.symm hname), if_neg hname]
          rfl

theorem parameterMap_eq {wrapper : Name} {parameters : List (Name × F)}
    {defaults effective : Effective F} {card : List Char}
    (hdefaults : ∀ name, defaults.get? name =
      (lastWith (fun parameter => cases.lower parameter.1) name parameters).map Prod.snd)
    (hclean : CleanOverrides cases card)
    (h : parameterMap cases wrapper defaults (words isCSpace card) = .ok effective) (name : Name) :
    effective.get? name = instanceValue cases parameters card name := by
  rw [parameterMap, xCardParameters_eq hclean.complete] at h
  rw [(foldlM_applyOverride h).2, hdefaults, lastWith_entries_ofList hclean.settled, instanceValue,
    overrides_eq hclean, lastWith_map]
  cases lastWith (fun override => cases.lower override.1) name
    ((joinEquals (words isCSpace card)).filterMap spelledOverride) with
  | none => rfl
  | some override => rfl

omit [PyFloat F] in
theorem effectiveValue_ok {id name : Name} {effective : Effective F} {value : F} :
    effectiveValue id effective name = .ok value ↔ effective.get? name = some value := by
  unfold effectiveValue
  cases effective.get? name with
  | none => exact ⟨(fun h => nomatch h), fun h => nomatch h⟩
  | some found => exact ⟨fun h => congrArg some (Except.ok.inj h), fun h =>
      congrArg Except.ok (Option.some.inj h)⟩

theorem foldlM_terms {id : Name} {effective : Effective F} {value : Name → F}
    (hvalue : ∀ name found, effective.get? name = some found → value name = found)
    {terms : List (SchemaName × F)} {start total : F}
    (h : terms.foldlM (fun total term => do
      let found ← effectiveValue id effective term.1
      Except.ok (total + term.2 * found)) start = .ok total) :
    (∀ term ∈ terms, effective.get? term.1 = some (value term.1)) ∧
      total = terms.foldl (fun total term => total + term.2 * value term.1) start := by
  induction terms generalizing start with
  | nil =>
    rw [Except.foldlM_nil_eq_ok] at h
    exact ⟨by simp, h⟩
  | cons term rest ih =>
    obtain ⟨next, hnext, hrest⟩ := Except.foldlM_cons_eq_ok.mp h
    obtain ⟨found, hfound, hnext⟩ := Except.bind_eq_ok.mp hnext
    rw [effectiveValue_ok] at hfound
    obtain rfl := hvalue term.1 found hfound
    obtain rfl := Except.ok.inj hnext
    obtain ⟨hterms, htotal⟩ := ih hrest
    exact ⟨List.forall_mem_cons.mpr ⟨hfound, hterms⟩, htotal⟩

theorem verifyConstraint_ok {effective : Effective F} {constraint : Constraint F}
    (h : verifyConstraint effective constraint = .ok ()) :
    constraint.Satisfied effective.get? := by
  obtain ⟨left, hleft, h⟩ := Except.bind_eq_ok.mp h
  obtain ⟨total, htotal, h⟩ := Except.bind_eq_ok.mp h
  rw [effectiveValue_ok] at hleft
  have hvalue (name : Name) (found : F) (hfound : effective.get? name = some found) :
      (effective.get? name).getD left = found := by
    rw [hfound]
    rfl
  obtain ⟨hterms, rfl⟩ := foldlM_terms hvalue htotal
  refine ⟨fun name => (effective.get? name).getD left, ?_, ?_⟩
  · refine List.forall_mem_cons.mpr ⟨?_, ?_⟩
    · show effective.get? constraint.left = some ((effective.get? constraint.left).getD left)
      rw [hvalue _ left hleft]
      exact hleft
    · intro name hname
      obtain ⟨term, hterm, rfl⟩ := List.mem_map.mp hname
      exact hterms term hterm
  · split_ifs at h with hsatisfied
    show constraint.relation.satisfied ((effective.get? constraint.left).getD left) _ = true
    rw [hvalue _ left hleft]
    exact hsatisfied

theorem Constraint.holds_of_satisfied {constraint : Constraint ℚ} {values : Name → Option ℚ}
    (h : constraint.Satisfied values) : constraint.Holds values := by
  obtain ⟨value, hnames, hsatisfied⟩ := h
  refine ⟨value, hnames, ?_⟩
  have hfold (terms : List (SchemaName × ℚ)) (start : ℚ) :
      terms.foldl (fun total term => total + term.2 * value term.1) start =
        start + (terms.map fun term => term.2 * value term.1).sum := by
    induction terms generalizing start with
    | nil => simp
    | cons term rest ih => rw [List.foldl_cons, ih, List.map_cons, List.sum_cons, add_assoc]
  rw [hfold] at hsatisfied
  cases hrelation : constraint.relation with
  | greater =>
    rw [hrelation] at hsatisfied
    exact of_decide_eq_true hsatisfied
  | greaterEqual =>
    rw [hrelation] at hsatisfied
    exact of_decide_eq_true hsatisfied

theorem Constraint.Satisfied.congr {constraint : Constraint F} {values values' : Name → Option F}
    (h : constraint.Satisfied values) (heq : ∀ name, values name = values' name) :
    constraint.Satisfied values' := by
  obtain ⟨value, hnames, hsatisfied⟩ := h
  exact ⟨value, fun name hname => heq name ▸ hnames name hname, hsatisfied⟩

/-- What an accepted deck says of one block: the checks of every card of its wrapper, whatever the
other cards are. -/
theorem verifyBlock_card {deck : List Char} {wrapper : Name} {constraints : List (Constraint F)}
    {parameters : List (Name × F)} {defaults : Effective F} (hplain : isPlain deck = true)
    (hdefaults : ∀ name, defaults.get? name =
      (lastWith (fun parameter => cases.lower parameter.1) name parameters).map Prod.snd)
    (hconstraints : constraints ≠ [])
    (h : verifyBlock cases deck wrapper constraints defaults = .ok ()) {card : List Char}
    (hcard : card ∈ simulatorCards deck) (hinstance : IsInstance cases wrapper card)
    (hclean : CleanOverrides cases card) :
    (∀ name override, lastWith Prod.fst name (overrides cases isCSpace card) = some override →
      ∃ scalar : F, scalarValue cases override.2 = some scalar) ∧
    ∀ constraint ∈ constraints,
      constraint.Satisfied (instanceValue cases parameters card) := by
  rw [verifyBlock, if_neg (by rwa [List.isEmpty_iff]), Except.bind_eq_ok] at h
  obtain ⟨maps, hmaps, hchecks⟩ := h
  -- the card is a statement of the fold, and its words are the same there
  have hwords : words isSpace card = words isCSpace card :=
    (words_congr (agree_of_mem_simulatorCards hplain hcard)).symm
  obtain ⟨statement, hstatement, rfl⟩ := List.mem_map.mp
    ((simulatorCards_suffix hplain).subset hcard)
  have hfields : words isCSpace statement.2 ∈ ((foldedStatements deck).map fun statement =>
      words isSpace statement.2).filter (instantiates cases wrapper) :=
    List.mem_filter.mpr ⟨List.mem_map.mpr ⟨statement, hstatement, hwords⟩, hinstance⟩
  obtain ⟨effective, heffective, hmap⟩ := Except.exists_mem_of_mapM hmaps hfields
  have hne : ¬ maps.isEmpty = true := fun hempty =>
    List.ne_nil_of_mem heffective (List.isEmpty_iff.mp hempty)
  rw [if_neg hne, Except.forM_eq_ok] at hchecks
  have hconstraint := Except.forM_eq_ok.mp (hchecks effective heffective)
  constructor
  · intro name override hlast
    rw [overrides_eq hclean, lastWith_map, Option.map_eq_some_iff] at hlast
    obtain ⟨entry, hentry, rfl⟩ := hlast
    rw [parameterMap, xCardParameters_eq hclean.complete] at hmap
    rw [← lastWith_entries_ofList hclean.settled] at hentry
    obtain ⟨before, after, heq, -, -⟩ := lastWith_eq_some_iff.mp hentry
    exact (foldlM_applyOverride hmap).1 entry
      (heq ▸ List.mem_append_right _ (List.mem_cons_self ..))
  · intro constraint hmem
    exact (verifyConstraint_ok (hconstraint constraint hmem)).congr
      (parameterMap_eq hdefaults hclean hmap)

omit [PyFloat F] in
theorem get?_contractDefaults (block : Block F) (name : Name) :
    (contractDefaults cases block).get? name =
      (lastWith (fun parameter => cases.lower parameter.1) name block.parameters).map Prod.snd := by
  rw [contractDefaults, get?_ofList_last, lastWith_map]
  cases lastWith (fun parameter => cases.lower parameter.1) name block.parameters with
  | none => rfl
  | some parameter => rfl

end Maps

section Composition

variable {cases : CaseMap}

/-- In an accepted deck every instance of a block with constraints has literal overrides and
parameters that satisfy the constraints, whatever the other cards are. -/
theorem CosimComposition.instances_satisfy {composition : CosimComposition ℚ} {deck : List Char}
    (hplain : isPlain deck = true) (h : composition.verifyDeck cases deck = .ok ())
    {block : Block ℚ} (hblock : block ∈ composition.blocks) (hconstraints : block.constraints ≠ [])
    {card : List Char} (hcard : card ∈ simulatorCards deck)
    (hinstance : IsInstance cases block.wrapper card) (hclean : CleanOverrides cases card) :
    (∀ name override, lastWith Prod.fst name (overrides cases isCSpace card) = some override →
      ∃ scalar : ℚ, scalarValue cases override.2 = some scalar) ∧
    ∀ constraint ∈ block.constraints,
      constraint.Holds (instanceValue cases block.parameters card) := by
  obtain ⟨_, -, hblocks⟩ := Except.bind_eq_ok.mp h
  have hcheck := Except.forM_eq_ok.mp hblocks block hblock
  obtain ⟨hliterals, hsatisfied⟩ := verifyBlock_card hplain (get?_contractDefaults block)
    hconstraints hcheck hcard hinstance hclean
  exact ⟨hliterals, fun constraint hconstraint =>
    Constraint.holds_of_satisfied (hsatisfied constraint hconstraint)⟩

def latencyBlock : Block ℚ where
  wrapper := "bhv_x_v1".toList
  constraints := [⟨"headroom".toList, ⟨"td".toList, by decide⟩, .greater,
    [(⟨"tedge".toList, by decide⟩, 1 / 2)], 0⟩]
  parameters := [("td".toList, 2 / 10 ^ 9), ("tedge".toList, 1 / 10 ^ 9)]

def latencyComposition : CosimComposition ℚ where
  blocks := [latencyBlock]
  modelNames := ["bhv_x_cosim".toList]
  nonempty := List.cons_ne_nil _ _

def latencyDeck : List Char :=
  "latency\nX1 a b\n+ bhv_x_v1 params: TD = 3n ; late\nR1 a 0 1k\n".toList

def latencyCard : List Char := "X1 a b bhv_x_v1 params: TD = 3n".toList

theorem latencyComposition_satisfies :
    (∀ name override, lastWith Prod.fst name (overrides asciiCases isCSpace latencyCard) =
        some override → ∃ scalar : ℚ, scalarValue asciiCases override.2 = some scalar) ∧
      ∀ constraint ∈ latencyBlock.constraints,
        constraint.Holds (instanceValue asciiCases latencyBlock.parameters latencyCard) := by
  have haccepted : (latencyComposition.verifyDeck asciiCases latencyDeck).toOption.isSome = true := by
    decide +kernel
  obtain ⟨_, hok⟩ := Except.exists_ok_of_isSome haccepted
  have hinstance : instantiates asciiCases latencyBlock.wrapper (words isCSpace latencyCard) = true := by
    decide
  have hclean : CleanOverrides asciiCases latencyCard :=
    ⟨by decide, by decide, settled_of_nodup _ (by decide)⟩
  exact CosimComposition.instances_satisfy (by decide) hok (List.mem_singleton_self _)
    (List.cons_ne_nil _ _) (by decide) hinstance hclean

def freeComposition : CosimComposition ℚ where
  blocks := [⟨"bhv_x_v1".toList, [], [("td".toList, 2 / 10 ^ 9)]⟩]
  modelNames := ["bhv_x_cosim".toList]
  nonempty := List.cons_ne_nil _ _

def expressionDeck : List Char := "expression\nX1 a b bhv_x_v1 td=\x7bfoo\x7d\n".toList

def expressionCard : List Char := "X1 a b bhv_x_v1 td=\x7bfoo\x7d".toList

/-- The override of a block without constraints is accepted though it is no literal. -/
theorem expression_accepted : ¬ ∀ (cases : CaseMap) (composition : CosimComposition ℚ)
    (deck : List Char), composition.verifyDeck cases deck = .ok () →
      ∀ block ∈ composition.blocks, ∀ card ∈ simulatorCards deck,
        IsInstance cases block.wrapper card →
        (∀ override ∈ overrides cases isCSpace card,
          ∃ scalar : ℚ, scalarValue cases override.2 = some scalar) ∧
        ∀ constraint ∈ block.constraints,
          constraint.Holds (instanceValue cases block.parameters card) := by
  intro hall
  have haccepted :
      (freeComposition.verifyDeck asciiCases expressionDeck).toOption.isSome = true := by
    decide
  obtain ⟨_, hok⟩ := Except.exists_ok_of_isSome haccepted
  have hinstance : instantiates asciiCases "bhv_x_v1".toList (words isCSpace expressionCard) = true := by
    decide
  have hliterals := (hall asciiCases freeComposition expressionDeck hok _
    (List.mem_singleton_self _) expressionCard (by decide) hinstance).1
  obtain ⟨scalar, hscalar⟩ := hliterals ("td".toList, "\x7bfoo\x7d".toList) (by decide)
  have hnone : (scalarValue asciiCases "\x7bfoo\x7d".toList : Option ℚ) = none := by
    decide
  rw [hnone] at hscalar
  cases hscalar

end Composition

end OpenADA.Cosim
