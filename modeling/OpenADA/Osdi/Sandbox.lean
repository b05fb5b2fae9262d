import OpenADA.Osdi.Preload

/-! What a simulator does with a preload that passed its gate, and that every generated prelude
passes. -/
namespace OpenADA.Osdi

open PyText SpiceText

section Simulator

/-- The lines of a preload that are neither blank nor comments, as the gate reads them. -/
def gateLines (text : List Char) : List (List Char) :=
  ((splitLines text).map strip).filter fun line => !decide (line = [] ∨ line.head? = some '*')

/-- The lines of a preload that are neither blank nor comments, as a simulator reads them. -/
def simulatorLines (text : List Char) : List (List Char) :=
  readCards (lineKind isCSpace) (physicalLines text)

/-- What a simulator does with a line: run a command, or read a card of the circuit. -/
inductive Action where
  | control (command : List Char)
  | card (text : List Char)
  deriving DecidableEq

/-- A control block lasts to the end of it, and runs what stands between. -/
def actions (inControl : Bool) : List (List Char) → List Action
  | [] => []
  | line :: rest =>
    if inControl then
      if ".endc".toList.isPrefixOf (asciiLower line) then actions false rest
      else .control line :: actions true rest
    else if ".control".toList.isPrefixOf (asciiLower line) then actions true rest
    else .card line :: actions false rest

def isTokenGap (c : Char) : Bool := isCSpace c || ['(', ')', ',', '='].contains c

def BindsLoaded (loaded : List (List Char)) (card : List Char) : Prop :=
  ∃ type ∈ (words isTokenGap card)[2]?, ∃ name ∈ loaded, isModuleName name = true ∧
    asciiLower type = asciiLower name

def Action.Allowed (paths loaded : List (List Char)) : Action → Prop
  | .control command => ∃ lead path, words isCSpace command = [lead, path] ∧
      asciiLower lead = "pre_osdi".toList ∧ path ∈ paths
  | .card text => ∃ lead rest, words isCSpace text = lead :: rest ∧
      (asciiLower lead = ".subckt".toList ∨ asciiLower lead = ".ends".toList ∨
        (asciiLower lead).head? = some 'n' ∨
        (asciiLower lead = ".model".toList ∧ BindsLoaded loaded text))

/-- A simulator that reads the text loads the given paths and wraps their modules, and does nothing
else; `provides` is what a file holds. -/
def Sandboxed (provides : List Char → List (List Char)) (paths : List (List Char))
    (text : List Char) : Prop :=
  ∀ action ∈ actions false (simulatorLines text), action.Allowed paths (paths.flatMap provides)

/-- The gate and a simulator read the same lines, word by word, and their first words are ASCII. -/
structure ReadAlike (text : List Char) : Prop where
  lines : simulatorLines text = gateLines text
  spaces : ∀ line ∈ gateLines text, Agree isCSpace isSpace line
  ascii : ∀ line ∈ gateLines text, ∀ word ∈ (words isSpace line).head?, ∀ c ∈ word, c.toNat < 128

/-- Every .model card of the text has the type of a module that its pre_osdi lines load. -/
def ModelsLoaded (provides : List Char → List (List Char)) (text : List Char) : Prop :=
  ∀ line ∈ gateLines text, (words isSpace line).head?.map asciiLower = some ".model".toList →
    BindsLoaded (((gateLines text).filterMap preOsdiPath).flatMap provides) line

end Simulator

section Shape

variable (cases : CaseMap)

structure Shape (lines paths : List (List Char)) : Prop where
  split : ∃ opening loads closing wrappers, lines = opening :: loads ++ closing :: wrappers ∧
    cases.lower opening = ".control".toList ∧ cases.lower closing = ".endc".toList ∧
    loads.map preOsdiPath = paths.map some ∧ (∀ path ∈ paths, isPathUnsafe path = false) ∧
    ∀ line ∈ wrappers, checkWrapperLine cases line = .ok ()

theorem foldlM_gateLine (lines : List (List Char)) (gate : Gate) :
    lines.foldlM (gateLine cases) gate =
      ((lines.map strip).filter fun line => !decide (line = [] ∨ line.head? = some '*')).foldlM
        (gateCard cases) gate := by
  induction lines generalizing gate with
  | nil => rfl
  | cons line rest ih =>
    rw [List.foldlM_cons, List.map_cons]
    by_cases hskip : strip line = [] ∨ (strip line).head? = some '*'
    · rw [List.filter_cons_of_neg (by rw [decide_eq_true hskip]; simp), gateLine]
      simp only [if_pos hskip]
      exact ih gate
    · rw [List.filter_cons_of_pos (by simpa using hskip), List.foldlM_cons, gateLine]
      simp only [if_neg hskip]
      cases gateCard cases gate (strip line) with
      | error e => rfl
      | ok next => exact ih next

theorem foldlM_wrapper {lines paths : List (List Char)} {gate : Gate} :
    lines.foldlM (gateCard cases) ⟨.wrapper, paths⟩ = .ok gate ↔
      gate = ⟨.wrapper, paths⟩ ∧ ∀ line ∈ lines, checkWrapperLine cases line = .ok () := by
  induction lines with
  | nil =>
    rw [Except.foldlM_nil_eq_ok]
    simp
  | cons line rest ih =>
    rw [Except.foldlM_cons_eq_ok, List.forall_mem_cons]
    constructor
    · rintro ⟨next, hnext, hrest⟩
      have hnext : (checkWrapperLine cases line).map (fun _ => (⟨.wrapper, paths⟩ : Gate)) =
        .ok next := hnext
      cases hcheck : checkWrapperLine cases line with
      | error e =>
        rw [hcheck] at hnext
        cases hnext
      | ok _ =>
        rw [hcheck] at hnext
        obtain rfl := Except.ok.inj hnext
        obtain ⟨hgate, hall⟩ := ih.mp hrest
        exact ⟨hgate, rfl, hall⟩
    · rintro ⟨hgate, hline, hall⟩
      refine ⟨⟨.wrapper, paths⟩, ?_, ih.mpr ⟨hgate, hall⟩⟩
      show (checkWrapperLine cases line).map (fun _ => (⟨.wrapper, paths⟩ : Gate)) = _
      rw [hline]
      rfl

theorem words_of_preOsdiPath {line path : List Char} (h : preOsdiPath line = some path) :
    words isSpace line = ["pre_osdi".toList, path] := by
  unfold preOsdiPath at h
  generalize words isSpace line = fields at h ⊢
  split at h
  next command found =>
    split_ifs at h with hcommand
    rw [hcommand, Option.some.inj h]
  · cases h

theorem lower_ne_of_preOsdiPath {line path directive : List Char}
    (h : preOsdiPath line = some path) (hdirective : words isSpace directive = [directive])
    (hne : directive ≠ "pre_osdi".toList) : cases.lower line ≠ directive := by
  intro hlower
  obtain ⟨more, hmore⟩ := head_words_lower cases (words_of_preOsdiPath h)
    (forall_chars (by decide))
  rw [hlower, hdirective] at hmore
  exact hne (List.cons.inj hmore).1

theorem gateCard_preOsdiPath {line path : List Char} (paths : List (List Char))
    (h : preOsdiPath line = some path) (hsafe : isPathUnsafe path = false) :
    gateCard cases ⟨.inControl, paths⟩ line = .ok ⟨.inControl, paths ++ [path]⟩ := by
  have hend : cases.lower line ≠ ".endc".toList :=
    lower_ne_of_preOsdiPath cases h (by decide) (by decide)
  have hbegin : cases.lower line ≠ ".control".toList :=
    lower_ne_of_preOsdiPath cases h (by decide) (by decide)
  unfold gateCard
  simp only [if_neg hend, if_neg hbegin, h, hsafe, Bool.false_eq_true, if_false]

theorem foldlM_control {lines : List (List Char)} {gate : Gate} (paths : List (List Char)) :
    lines.foldlM (gateCard cases) ⟨.inControl, paths⟩ = .ok gate ∧ gate.phase = .wrapper ↔
      ∃ loads closing wrappers found, lines = loads ++ closing :: wrappers ∧
        cases.lower closing = ".endc".toList ∧ loads.map preOsdiPath = found.map some ∧
        (∀ path ∈ found, isPathUnsafe path = false) ∧
        (∀ line ∈ wrappers, checkWrapperLine cases line = .ok ()) ∧
        gate = ⟨.wrapper, paths ++ found⟩ := by
  induction lines generalizing paths with
  | nil =>
    rw [Except.foldlM_nil_eq_ok]
    constructor
    · rintro ⟨rfl, hphase⟩
      cases hphase
    · rintro ⟨loads, closing, wrappers, found, hlines, -⟩
      cases loads <;> cases hlines
  | cons line rest ih =>
    rw [Except.foldlM_cons_eq_ok]
    constructor
    · rintro ⟨⟨next, hnext, hrest⟩, hphase⟩
      unfold gateCard at hnext
      simp only at hnext
      split_ifs at hnext with hend hbegin
      · obtain rfl := Except.ok.inj hnext
        obtain ⟨rfl, hall⟩ := (foldlM_wrapper cases).mp hrest
        exact ⟨[], line, rest, [], rfl, hend, rfl, by simp, hall, by rw [List.append_nil]⟩
      · cases hpath : preOsdiPath line with
        | none =>
          rw [hpath] at hnext
          cases hnext
        | some path =>
          rw [hpath] at hnext
          simp only at hnext
          split_ifs at hnext with hrisky
          obtain rfl := Except.ok.inj hnext
          obtain ⟨loads, closing, wrappers, found, rfl, hclosing, hloads, hsafe, hall, rfl⟩ :=
            (ih _).mp ⟨hrest, hphase⟩
          refine ⟨line :: loads, closing, wrappers, path :: found, rfl, hclosing, ?_, ?_, hall, ?_⟩
          · rw [List.map_cons, List.map_cons, hpath, hloads]
          · rw [Bool.not_eq_true] at hrisky
            exact List.forall_mem_cons.mpr ⟨hrisky, hsafe⟩
          · rw [List.append_assoc, List.singleton_append]
    · rintro ⟨loads, closing, wrappers, found, hlines, hclosing, hloads, hsafe, hall, rfl⟩
      cases loads with
      | nil =>
        obtain ⟨rfl, rfl⟩ := List.cons.inj hlines
        obtain rfl : found = [] := List.map_eq_nil_iff.mp hloads.symm
        refine ⟨⟨⟨.wrapper, paths⟩, ?_, ?_⟩, rfl⟩
        · unfold gateCard
          simp only [if_pos hclosing]
        · rw [List.append_nil]
          exact (foldlM_wrapper cases).mpr ⟨rfl, hall⟩
      | cons load loads =>
        obtain ⟨rfl, rfl⟩ := List.cons.inj hlines
        cases found with
        | nil => cases hloads
        | cons path found =>
          obtain ⟨hpath, hloads⟩ := List.cons.inj hloads
          obtain ⟨hsafe, hsafes⟩ := List.forall_mem_cons.mp hsafe
          refine ⟨⟨_, gateCard_preOsdiPath cases paths hpath hsafe, ((ih _).mpr ?_).1⟩, rfl⟩
          exact ⟨loads, closing, wrappers, found, rfl, hclosing, hloads, hsafes, hall, by simp⟩

theorem foldlM_gateCard {lines paths : List (List Char)} :
    lines.foldlM (gateCard cases) ⟨.preControl, []⟩ = .ok ⟨.wrapper, paths⟩ ↔
      Shape cases lines paths := by
  cases lines with
  | nil =>
    rw [Except.foldlM_nil_eq_ok]
    constructor
    · rintro ⟨⟩
    · rintro ⟨⟨opening, loads, closing, wrappers, hlines, -⟩⟩
      cases hlines
  | cons line rest =>
    rw [Except.foldlM_cons_eq_ok]
    constructor
    · rintro ⟨next, hnext, hrest⟩
      unfold gateCard at hnext
      simp only at hnext
      split_ifs at hnext with hopen
      obtain rfl := Except.ok.inj hnext
      obtain ⟨loads, closing, wrappers, found, rfl, hclosing, hloads, hsafe, hall, hgate⟩ :=
        (foldlM_control cases []).mp ⟨hrest, rfl⟩
      obtain rfl : paths = found := congrArg Gate.paths hgate
      exact ⟨line, loads, closing, wrappers, rfl, hopen, hclosing, hloads, hsafe, hall⟩
    · rintro ⟨⟨opening, loads, closing, wrappers, hlines, hopen, hclosing, hloads, hsafe, hall⟩⟩
      obtain ⟨rfl, rfl⟩ := List.cons.inj hlines
      obtain ⟨hrest, -⟩ := (foldlM_control cases []).mpr
        ⟨loads, closing, wrappers, paths, rfl, hclosing, hloads, hsafe, hall, rfl⟩
      refine ⟨⟨.inControl, []⟩, ?_, hrest⟩
      unfold gateCard
      simp only [if_pos hopen]

theorem head_of_checkWrapperLine {line : List Char} (h : checkWrapperLine cases line = .ok ()) :
    ∃ word, (words isSpace (cases.lower line)).headD [] = word ∧
      ([".subckt".toList, ".model".toList, ".ends".toList].contains word = true ∨
        word.head? = some 'n') := by
  unfold checkWrapperLine at h
  simp only at h
  split_ifs at h with hcontrol hfirst
  refine ⟨_, rfl, ?_⟩
  rw [not_and_or, not_not, Bool.not_eq_false] at hfirst
  exact hfirst

theorem Shape.filterMap_eq {lines paths : List (List Char)} (h : Shape cases lines paths) :
    lines.filterMap preOsdiPath = paths := by
  obtain ⟨opening, loads, closing, wrappers, rfl, hopen, hclosing, hloads, -, hall⟩ := h.split
  have hnone {line directive : List Char} (hlower : cases.lower line = directive)
      (hdirective : words isSpace directive = [directive])
      (hne : directive ≠ "pre_osdi".toList) : preOsdiPath line = none := by
    by_contra hsome
    obtain ⟨path, hpath⟩ := Option.ne_none_iff_exists'.mp hsome
    exact lower_ne_of_preOsdiPath cases hpath hdirective hne hlower
  have hwrappers : wrappers.filterMap preOsdiPath = [] := by
    rw [List.filterMap_eq_nil_iff]
    intro line hline
    by_contra hsome
    obtain ⟨path, hpath⟩ := Option.ne_none_iff_exists'.mp hsome
    obtain ⟨more, hmore⟩ :=
      head_words_lower cases (words_of_preOsdiPath hpath) (forall_chars (by decide))
    obtain ⟨word, hword, hkind⟩ := head_of_checkWrapperLine cases (hall line hline)
    rw [hmore, List.headD_cons] at hword
    subst hword
    revert hkind
    decide
  have hmap : loads.filterMap preOsdiPath = paths := by
    have h := congrArg (List.filterMap id) hloads
    rw [List.filterMap_map, List.filterMap_map] at h
    simpa using h
  have hfirst := hnone hopen (by decide) (by decide)
  have hlast := hnone hclosing (by decide) (by decide)
  rw [List.cons_append, List.filterMap_cons_none hfirst, List.filterMap_append, hmap,
    List.filterMap_cons_none hlast, hwrappers, List.append_nil]

end Shape

section Verdict

variable (cases : CaseMap) (readBytes : List Char → Option (List UInt8))
  (sha256 : List UInt8 → String) (expected : Option (List Char → Option String))

def Checked (entry : List Char × String) : Prop :=
  ∃ data, readBytes entry.1 = some data ∧ data.length ≤ maxOsdiBytes ∧ entry.2 = sha256 data ∧
    ∀ digests ∈ expected, digests entry.1 = some entry.2

theorem verifyModule_eq_ok {path : List Char} {entry : List Char × String} :
    verifyModule readBytes sha256 expected path = .ok entry ↔
      entry.1 = path ∧ Checked readBytes sha256 expected entry := by
  unfold verifyModule
  constructor
  · intro h
    cases hread : readBytes path with
    | none =>
      rw [hread] at h
      cases h
    | some data =>
      rw [hread] at h
      simp only at h
      split_ifs at h with hlarge
      cases hexpected : expected with
      | none =>
        rw [hexpected] at h
        obtain rfl := Except.ok.inj h
        refine ⟨rfl, data, hread, Nat.le_of_not_lt hlarge, rfl, ?_⟩
        exact fun digests hdigests => nomatch hdigests
      | some digests =>
        rw [hexpected] at h
        simp only at h
        cases hdigest : digests path with
        | none =>
          rw [hdigest] at h
          cases h
        | some digest =>
          rw [hdigest] at h
          simp only at h
          split_ifs at h with hne
          obtain rfl := Except.ok.inj h
          rw [not_not] at hne
          refine ⟨rfl, data, hread, Nat.le_of_not_lt hlarge, rfl, ?_⟩
          rintro _ ⟨⟩
          rw [hdigest, hne]
  · rintro ⟨rfl, data, hread, hsize, hdata, hexpected⟩
    rw [hread]
    simp only [if_neg (Nat.not_lt.mpr hsize)]
    cases expected with
    | none =>
      rw [← hdata]
    | some digests =>
      simp only [hexpected digests rfl, hdata, ne_eq, not_true_eq_false, if_false]
      rw [← hdata]

theorem mapM_verifyModule {paths : List (List Char)} {verified : List (List Char × String)} :
    paths.mapM (verifyModule readBytes sha256 expected) = .ok verified ↔
      verified.map Prod.fst = paths ∧
        ∀ entry ∈ verified, Checked readBytes sha256 expected entry := by
  rw [Except.mapM_eq_ok]
  constructor
  · intro h
    induction h with
    | nil => exact ⟨rfl, by simp⟩
    | cons hfirst hrest ih =>
      obtain ⟨hpath, hchecked⟩ := (verifyModule_eq_ok readBytes sha256 expected).mp hfirst
      rw [List.map_cons, hpath, ih.1]
      exact ⟨rfl, List.forall_mem_cons.mpr ⟨hchecked, ih.2⟩⟩
  · rintro ⟨rfl, hchecked⟩
    induction verified with
    | nil => exact .nil
    | cons entry rest ih =>
      obtain ⟨hentry, hrest⟩ := List.forall_mem_cons.mp hchecked
      exact .cons ((verifyModule_eq_ok readBytes sha256 expected).mpr ⟨rfl, hentry⟩) (ih hrest)

theorem validateOsdiPreload_eq_ok {text : List Char} {verified : List (List Char × String)} :
    validateOsdiPreload cases readBytes sha256 expected text = .ok verified ↔
      Shape cases (gateLines text) (verified.map Prod.fst) ∧ verified ≠ [] ∧
        ∀ entry ∈ verified, Checked readBytes sha256 expected entry := by
  unfold validateOsdiPreload
  rw [Except.bind_eq_ok, foldlM_gateLine, ← gateLines]
  constructor
  · rintro ⟨⟨phase, paths⟩, hgate, hrest⟩
    cases phase with
    | preControl => cases hrest
    | inControl => cases hrest
    | wrapper =>
      cases paths with
      | nil => cases hrest
      | cons path paths =>
        obtain ⟨hpaths, hchecked⟩ := (mapM_verifyModule readBytes sha256 expected).mp hrest
        rw [hpaths]
        refine ⟨(foldlM_gateCard cases).mp hgate, ?_, hchecked⟩
        rintro rfl
        cases hpaths
  · rintro ⟨hshape, hne, hchecked⟩
    refine ⟨_, (foldlM_gateCard cases).mpr hshape, ?_⟩
    have hmap := (mapM_verifyModule readBytes sha256 expected).mpr ⟨rfl, hchecked⟩
    have hpaths : verified.map Prod.fst ≠ [] := by
      rw [ne_eq, List.map_eq_nil_iff]
      exact hne
    generalize verified.map Prod.fst = paths at hmap hpaths
    cases paths with
    | nil => exact absurd rfl hpaths
    | cons path paths => exact hmap

end Verdict

section Actions

theorem actions_cards {lines : List (List Char)}
    (h : ∀ line ∈ lines, ".control".toList.isPrefixOf (asciiLower line) = false) :
    actions false lines = lines.map .card := by
  induction lines with
  | nil => rfl
  | cons line rest ih =>
    rw [actions, if_neg Bool.false_ne_true, if_neg (by rw [h line (List.mem_cons_self ..)]; simp),
      ih fun line hline => h line (List.mem_cons_of_mem _ hline), List.map_cons]

theorem actions_control {loads : List (List Char)} {closing : List Char} (rest : List (List Char))
    (h : ∀ line ∈ loads, ".endc".toList.isPrefixOf (asciiLower line) = false)
    (hclosing : ".endc".toList.isPrefixOf (asciiLower closing) = true) :
    actions true (loads ++ closing :: rest) = loads.map .control ++ actions false rest := by
  induction loads with
  | nil => rw [List.nil_append, actions, if_pos rfl, if_pos hclosing]; rfl
  | cons line loads ih =>
    have hline := h line (List.mem_cons_self ..)
    rw [List.cons_append, actions, if_pos rfl, if_neg (by rw [hline]; simp),
      ih fun line hline => h line (List.mem_cons_of_mem _ hline)]
    rfl

structure LeadsWith (line word : List Char) : Prop where
  split : ∃ after, line = word ++ after
  gate : ∃ rest, words isSpace line = word :: rest
  simulator : words isCSpace line = words isSpace line
  ascii : ∀ c ∈ word, c.toNat < 128

theorem ReadAlike.exists_leadsWith {text line : List Char} (h : ReadAlike text)
    (hline : line ∈ gateLines text) : ∃ word, LeadsWith line word := by
  have hstripped : line ≠ [] ∧ (∀ c ∈ line.head?, isSpace c = false) := by
    obtain ⟨hmem, hskip⟩ := List.mem_filter.mp hline
    obtain ⟨raw, -, rfl⟩ := List.mem_map.mp hmem
    rw [Bool.not_eq_true', decide_eq_false_iff_not, not_or] at hskip
    refine ⟨hskip.1, fun c hc => ?_⟩
    have hc : (trim isSpace raw).head? = some c := hc
    rw [head?_trim] at hc
    exact head?_lstrip hc
  obtain ⟨hne, hhead⟩ := hstripped
  obtain ⟨c, more, rfl⟩ := List.exists_cons_of_ne_nil hne
  have hc := hhead c rfl
  obtain ⟨word, rest, hwords⟩ :=
    List.exists_cons_of_ne_nil (words_ne_nil (List.mem_cons_self (a := c) (l := more)) hc)
  have hascii := h.ascii _ hline word (by rw [hwords]; rfl)
  refine ⟨word, ?_, ⟨rest, hwords⟩, words_congr (h.spaces _ hline), hascii⟩
  obtain ⟨gap, after, htext, hgap, -⟩ := exists_of_words_cons hwords
  cases gap with
  | nil => exact ⟨after, htext⟩
  | cons d gap =>
    have hd := hgap d (List.mem_cons_self ..)
    rw [List.cons_append, List.cons_append] at htext
    rw [← (List.cons.inj htext).1, hc] at hd
    cases hd

theorem LeadsWith.lower_eq {cases : CaseMap} {line word directive : List Char}
    (h : LeadsWith line word) (hdirective : words isSpace directive = [directive])
    (hlower : cases.lower line = directive) : asciiLower word = directive := by
  obtain ⟨rest, hwords⟩ := h.gate
  obtain ⟨more, hmore⟩ := head_words_lower cases hwords h.ascii
  rw [hlower, hdirective] at hmore
  exact (List.cons.inj hmore).1.symm

theorem LeadsWith.isPrefixOf {line word directive : List Char} (h : LeadsWith line word)
    (hword : asciiLower word = directive) : directive.isPrefixOf (asciiLower line) = true := by
  obtain ⟨after, rfl⟩ := h.split
  rw [List.isPrefixOf_iff_prefix, asciiLower, List.map_append, ← hword]
  exact List.prefix_append _ _

theorem LeadsWith.isPrefixOf_eq_false {line word directive front : List Char}
    (h : LeadsWith line word) (hword : asciiLower word = front)
    (hother : ∀ more, directive.isPrefixOf (front ++ more) = false) :
    directive.isPrefixOf (asciiLower line) = false := by
  obtain ⟨after, rfl⟩ := h.split
  rw [asciiLower, List.map_append, ← asciiLower, hword]
  exact hother _

variable (cases : CaseMap)

theorem LeadsWith.wrapper {line word : List Char} (h : LeadsWith line word)
    (hcheck : checkWrapperLine cases line = .ok ()) :
    asciiLower word = ".subckt".toList ∨ asciiLower word = ".model".toList ∨
      asciiLower word = ".ends".toList ∨ (asciiLower word).head? = some 'n' := by
  obtain ⟨rest, hwords⟩ := h.gate
  obtain ⟨more, hmore⟩ := head_words_lower cases hwords h.ascii
  obtain ⟨lead, hlead, hkind⟩ := head_of_checkWrapperLine cases hcheck
  rw [hmore, List.headD_cons] at hlead
  rw [hlead]
  rcases hkind with hkind | hkind
  · rw [List.contains_iff_mem] at hkind
    rcases List.mem_cons.mp hkind with hkind | hkind
    · exact .inl hkind
    · rcases List.mem_cons.mp hkind with hkind | hkind
      · exact .inr (.inl hkind)
      · exact .inr (.inr (.inl (List.mem_singleton.mp hkind)))
  · exact .inr (.inr (.inr hkind))

theorem LeadsWith.not_control {line word : List Char} (h : LeadsWith line word)
    (hcheck : checkWrapperLine cases line = .ok ()) :
    ".control".toList.isPrefixOf (asciiLower line) = false := by
  rcases h.wrapper cases hcheck with hword | hword | hword | hword
  · exact h.isPrefixOf_eq_false hword fun more => rfl
  · exact h.isPrefixOf_eq_false hword fun more => rfl
  · exact h.isPrefixOf_eq_false hword fun more => rfl
  · obtain ⟨letters, hletters⟩ := List.head?_eq_some_iff.mp hword
    exact h.isPrefixOf_eq_false hletters fun more => rfl

theorem actions_of_shape {text : List Char} {paths : List (List Char)} (halike : ReadAlike text)
    (hshape : Shape cases (gateLines text) paths) : ∃ loads wrappers : List (List Char),
      actions false (simulatorLines text) = loads.map .control ++ wrappers.map .card ∧
      loads.map preOsdiPath = paths.map some ∧
      (∀ line ∈ wrappers, checkWrapperLine cases line = .ok ()) ∧
      (∀ line ∈ loads ++ wrappers, line ∈ gateLines text) ∧
      ∀ line ∈ gateLines text, ∀ word, LeadsWith line word →
        asciiLower word = ".model".toList → line ∈ wrappers := by
  obtain ⟨opening, loads, closing, wrappers, hlines, hopen, hclosing, hloads, -, hall⟩ :=
    hshape.split
  have hleads : ∀ line ∈ gateLines text, ∃ word, LeadsWith line word :=
    fun line hline => halike.exists_leadsWith hline
  rw [halike.lines]
  rw [hlines] at hleads ⊢
  obtain ⟨first, hfirst⟩ := hleads opening (by simp)
  obtain ⟨last, hlast⟩ := hleads closing (by simp)
  have hfirst' := hfirst.lower_eq (by decide) hopen
  have hlast' := hlast.lower_eq (by decide) hclosing
  have hload : ∀ line ∈ loads, ∀ word, LeadsWith line word → word = "pre_osdi".toList := by
    intro line hline word hword
    obtain ⟨rest, hwords⟩ := hword.gate
    have hsome : preOsdiPath line ∈ paths.map some := by
      rw [← hloads]
      exact List.mem_map_of_mem hline
    obtain ⟨path, -, hpath⟩ := List.mem_map.mp hsome
    rw [words_of_preOsdiPath hpath.symm] at hwords
    exact (List.cons.inj hwords).1.symm
  refine ⟨loads, wrappers, ?_, hloads, hall, ?_, ?_⟩
  · rw [List.cons_append, actions, if_neg Bool.false_ne_true, if_pos (hfirst.isPrefixOf hfirst'),
      actions_control wrappers ?_ (hlast.isPrefixOf hlast'), actions_cards]
    · intro line hline
      obtain ⟨word, hword⟩ := hleads line (by simp [hline])
      exact hword.not_control cases (hall line hline)
    · intro line hline
      obtain ⟨word, hword⟩ := hleads line (by simp [hline])
      have hpre : asciiLower word = "pre_osdi".toList := by
        rw [hload line hline word hword]
        decide
      exact hword.isPrefixOf_eq_false hpre fun more => rfl
  · intro line hline
    rcases List.mem_append.mp hline with hline | hline
    · simp [hline]
    · simp [hline]
  · intro line hline word hword hmodel
    rw [List.cons_append, List.mem_cons, List.mem_append, List.mem_cons] at hline
    rcases hline with rfl | hline | rfl | hline
    · rw [hword.lower_eq (by decide) hopen] at hmodel
      exact absurd hmodel (by decide)
    · rw [hload line hline word hword] at hmodel
      exact absurd hmodel (by decide)
    · rw [hword.lower_eq (by decide) hclosing] at hmodel
      exact absurd hmodel (by decide)
    · exact hline

/-- A text of the accepted shape, read alike, is sandboxed when every .model card is of a module
it loads, and only then. -/
theorem sandboxed_iff {text : List Char} {paths : List (List Char)} (halike : ReadAlike text)
    (hshape : Shape cases (gateLines text) paths)
    (provides : List Char → List (List Char)) :
    Sandboxed provides paths text ↔ ModelsLoaded provides text := by
  obtain ⟨loads, wrappers, hactions, hloads, hall, hmem, hmodels⟩ :=
    actions_of_shape cases halike hshape
  unfold Sandboxed ModelsLoaded
  rw [hactions, hshape.filterMap_eq]
  constructor
  · intro hsandboxed line hline hmodel
    obtain ⟨word, hword⟩ := halike.exists_leadsWith hline
    obtain ⟨rest, hwords⟩ := hword.gate
    rw [hwords, List.head?_cons, Option.map_some, Option.some_inj] at hmodel
    have hcard := hmodels line hline word hword hmodel
    have hallowed := hsandboxed (.card line) (List.mem_append_right _ (List.mem_map_of_mem hcard))
    obtain ⟨lead, others, hlead, hkind⟩ := hallowed
    rw [hword.simulator, hwords] at hlead
    obtain ⟨rfl, -⟩ := List.cons.inj hlead
    rw [hmodel] at hkind
    rcases hkind with hkind | hkind | hkind | hkind
    · exact absurd hkind (by decide)
    · exact absurd hkind (by decide)
    · exact absurd hkind (by decide)
    · exact hkind.2
  · intro hloaded action haction
    rcases List.mem_append.mp haction with haction | haction
    · obtain ⟨line, hline, rfl⟩ := List.mem_map.mp haction
      obtain ⟨word, hword⟩ := halike.exists_leadsWith (hmem line (List.mem_append_left _ hline))
      have hsome : preOsdiPath line ∈ paths.map some := by
        rw [← hloads]
        exact List.mem_map_of_mem hline
      obtain ⟨path, hpath, hline'⟩ := List.mem_map.mp hsome
      refine ⟨"pre_osdi".toList, path, ?_, ?_, hpath⟩
      · rw [hword.simulator, words_of_preOsdiPath hline'.symm]
      · decide
    · obtain ⟨line, hline, rfl⟩ := List.mem_map.mp haction
      have hgate := hmem line (List.mem_append_right _ hline)
      obtain ⟨word, hword⟩ := halike.exists_leadsWith hgate
      obtain ⟨rest, hwords⟩ := hword.gate
      refine ⟨word, rest, by rw [hword.simulator, hwords], ?_⟩
      rcases hword.wrapper cases (hall line hline) with hkind | hkind | hkind | hkind
      · exact .inl hkind
      · refine .inr (.inr (.inr ⟨hkind, hloaded line hgate ?_⟩))
        rw [hwords, List.head?_cons, Option.map_some, hkind]
      · exact .inr (.inl hkind)
      · exact .inr (.inr (.inl hkind))

end Actions

section Generated

theorem isSpace_identifierChar {c : Char} (h : isIdentifierChar c = true) : isSpace c = false := by
  rw [isIdentifierChar, Bool.or_eq_true, decide_eq_true_eq] at h
  rcases h with h | rfl
  · exact isSpace_eq_false_of_alnum h
  · rfl

theorem isIdentifier_word {name : List Char} (h : isIdentifier name = true) :
    name ≠ [] ∧ ∀ c ∈ name, isSpace c = false := by
  cases name with
  | nil => cases h
  | cons c rest =>
    refine ⟨List.cons_ne_nil _ _, ?_⟩
    rw [isIdentifier, Bool.and_eq_true, List.all_eq_true] at h
    intro d hd
    apply isSpace_identifierChar
    rcases List.mem_cons.mp hd with rfl | hd
    · rw [isIdentifierChar, Char.isAlphanum]
      cases hstart : d.isAlpha with
      | true => rfl
      | false =>
        have hline := h.1
        rw [hstart, Bool.false_or] at hline
        rw [hline, Bool.or_true]
    · exact h.2 d hd

theorem isModuleName_word {name : List Char} (h : isModuleName name = true) :
    name ≠ [] ∧ ∀ c ∈ name, isSpace c = false := by
  unfold isModuleName at h
  simp only [Bool.and_eq_true, decide_eq_true_eq, List.all_eq_true] at h
  obtain ⟨⟨⟨hshort, -⟩, hfront⟩, hblock⟩ := h
  constructor
  · rintro rfl
    cases hshort
  · intro c hc
    rw [← List.rdropWhile_append_rtakeWhile (p := Char.isDigit) (l := name)] at hc
    rcases List.mem_append.mp hc with hc | hc
    · rw [hfront] at hc
      rcases List.mem_append.mp hc with hc | hc
      · rcases List.mem_append.mp hc with hc | hc
        · have hletters : ∀ d ∈ "bhv_".toList, isSpace d = false :=
            forall_chars (by decide)
          exact hletters c hc
        · exact isSpace_identifierChar (hblock c hc)
      · have hletters : ∀ d ∈ "_v".toList, isSpace d = false :=
          forall_chars (by decide)
        exact hletters c hc
    · have hdigit := List.mem_rtakeWhile_imp hc
      exact isSpace_eq_false_of_alnum (by rw [Char.isAlphanum, hdigit, Bool.or_true])

variable (digits : DigitClass)

theorem isSpace_foldLetter (c : Char) : isSpace (foldLetter c) = isSpace c := by
  unfold foldLetter
  split_ifs with hkelvin
  · simp [isSpace, hkelvin]
  · exact isSpace_toLower c

theorem isSpace_scaleSuffix {text : List Char} (h : isScaleSuffix text = true) :
    ∀ c ∈ text, isSpace c = false := by
  rw [isScaleSuffix, List.contains_iff_mem] at h
  have hall : (scaleSuffixes.map String.toList).all fun suffix =>
      suffix.all fun c => decide (isSpace c = false) := by
    decide
  have hletters : ∀ suffix ∈ scaleSuffixes.map String.toList, ∀ c ∈ suffix, isSpace c = false :=
    fun suffix hsuffix => forall_chars (List.all_eq_true.mp hall suffix hsuffix)
  intro c hc
  rw [← isSpace_foldLetter]
  exact hletters _ h _ (List.mem_map_of_mem hc)

theorem isSpace_dropSign {text : List Char} (h : ∀ c ∈ dropSign text, isSpace c = false) :
    ∀ c ∈ text, isSpace c = false := by
  unfold dropSign at h
  split at h
  · exact List.forall_mem_cons.mpr ⟨rfl, h⟩
  · exact List.forall_mem_cons.mpr ⟨rfl, h⟩
  · exact h

theorem isSpace_dropDigits {text : List Char}
    (h : ∀ c ∈ text.dropWhile digits.isDigit, isSpace c = false) :
    ∀ c ∈ text, isSpace c = false := by
  intro c hc
  rw [← List.takeWhile_append_dropWhile (p := digits.isDigit) (l := text)] at hc
  rcases List.mem_append.mp hc with hc | hc
  · by_contra hspace
    rw [Bool.not_eq_false] at hspace
    have hdigit := List.mem_takeWhile_imp hc
    rw [digits.space c hspace] at hdigit
    cases hdigit
  · exact h c hc

theorem isSpace_endsScalar {text : List Char} (h : endsScalar digits text = true) :
    ∀ c ∈ text, isSpace c = false := by
  cases text with
  | nil => exact fun c hc => nomatch hc
  | cons c rest =>
    unfold endsScalar at h
    simp only at h
    split_ifs at h with hexponent
    · rw [Bool.and_eq_true] at h
      have hrest := isSpace_dropSign (isSpace_dropDigits digits (isSpace_scaleSuffix h.2))
      rcases hexponent with rfl | rfl
      · exact List.forall_mem_cons.mpr ⟨rfl, hrest⟩
      · exact List.forall_mem_cons.mpr ⟨rfl, hrest⟩
    · exact isSpace_scaleSuffix h

theorem isSpace_spiceScalar {text : List Char} (h : isSpiceScalar digits text = true) :
    ∀ c ∈ text, isSpace c = false := by
  unfold isSpiceScalar at h
  simp only at h
  apply isSpace_dropSign
  apply isSpace_dropDigits digits
  generalize (dropSign text).dropWhile digits.isDigit = rest at h
  split at h
  next after =>
    rw [Bool.and_eq_true] at h
    have hafter := isSpace_dropDigits digits (isSpace_endsScalar digits h.2)
    exact List.forall_mem_cons.mpr ⟨rfl, hafter⟩
  · rw [Bool.and_eq_true] at h
    exact isSpace_endsScalar digits h.2

variable (cases : CaseMap)

theorem validatePorts_words {ports out : List (List Char)}
    (h : validatePorts cases ports = .ok out) : out = ports ∧ ports ≠ [] ∧ AreWords ports := by
  unfold validatePorts at h
  split_ifs at h with hempty
  cases hrun : ports.foldlM (addPort cases) [] with
  | error e =>
    rw [hrun] at h
    cases h
  | ok seen =>
    rw [hrun] at h
    refine ⟨(Except.ok.inj h).symm, hempty, ?_⟩
    refine Except.foldlM_spec (fun done _ => AreWords done) ?_ ?_ hrun
    · intro done port before after hdone hstep
      unfold addPort at hstep
      split_ifs at hstep with hname
      rw [Bool.not_eq_false] at hname
      intro field hfield
      rcases List.mem_append.mp hfield with hfield | hfield
      · exact hdone field hfield
      · rw [List.mem_singleton.mp hfield]
        exact isIdentifier_word hname
    · exact fun field hfield => absurd hfield List.not_mem_nil

theorem validateParameters_words {parameters : List (List Char × ParameterValue)}
    {out : List (List Char × List Char)}
    (h : validateParameters cases digits parameters = .ok out) :
    ∀ entry ∈ out, (entry.1 ≠ [] ∧ ∀ c ∈ entry.1, isSpace c = false) ∧
      ∀ c ∈ entry.2, isSpace c = false := by
  obtain ⟨state, hrun, hout⟩ := Except.bind_eq_ok.mp h
  obtain rfl := Except.ok.inj hout
  refine Except.foldlM_spec (fun _ (state : Parameters) => ∀ entry ∈ state.out,
    (entry.1 ≠ [] ∧ ∀ c ∈ entry.1, isSpace c = false) ∧ ∀ c ∈ entry.2, isSpace c = false)
    ?_ ?_ hrun
  · intro done parameter before after hdone hstep
    unfold addParameter at hstep
    split_ifs at hstep with hname hrepeated
    obtain ⟨text, -, htext⟩ := Except.bind_eq_ok.mp hstep
    split_ifs at htext with hscalar
    rw [Bool.not_eq_false] at hname hscalar
    obtain rfl := Except.ok.inj htext
    intro entry hentry
    rcases List.mem_append.mp hentry with hentry | hentry
    · exact hdone entry hentry
    · rw [List.mem_singleton.mp hentry]
      exact ⟨isIdentifier_word hname, isSpace_spiceScalar digits hscalar⟩
  · exact fun entry hentry => absurd hentry List.not_mem_nil

structure PrintedLine (line : List Char) : Prop where
  stripped : strip line = line
  read : ¬ (line = [] ∨ line.head? = some '*')
  unbroken : ∀ c ∈ line, isLineBreak c = false

theorem printedLine_joinWords {lead : List Char} {fields : List (List Char)}
    (h : AreWords (lead :: fields)) (hstar : lead.head? ≠ some '*') :
    PrintedLine (joinWords (lead :: fields)) := by
  refine ⟨strip_joinWords h, ?_, isLineBreak_joinWords h⟩
  obtain ⟨c, more, rfl⟩ := List.exists_cons_of_ne_nil (h lead (List.mem_cons_self ..)).1
  rw [List.head?_cons] at hstar
  cases fields with
  | nil =>
    rw [joinWords, List.intercalate_singleton, List.head?_cons]
    exact fun hbad => hbad.elim (List.cons_ne_nil _ _) hstar
  | cons second rest =>
    rw [joinWords_cons_cons, List.cons_append, List.head?_cons]
    exact fun hbad => hbad.elim (List.cons_ne_nil _ _) hstar

theorem gateLines_joinedLines {lines : List (List Char)} (h : ∀ line ∈ lines, PrintedLine line) :
    gateLines (joinedLines lines) = lines := by
  rw [gateLines, splitLines_joinedLines fun line hline => (h line hline).unbroken]
  have hstrip : lines.map strip = lines := by
    conv_rhs => rw [← List.map_id lines]
    exact List.map_congr_left fun line hline => (h line hline).stripped
  rw [hstrip, List.filter_eq_self]
  intro line hline
  rw [decide_eq_false (h line hline).read]
  rfl

theorem checkWrapperLine_joinWords {lead second : List Char} {rest : List (List Char)}
    (h : AreWords (lead :: second :: rest)) (hascii : ∀ c ∈ lead, c.toNat < 128)
    (hlead : [".subckt".toList, ".model".toList, ".ends".toList].contains (asciiLower lead) = true ∨
      (asciiLower lead).head? = some 'n')
    (hcontrol : ∀ more, ".control".toList.isPrefixOf (asciiLower lead ++ more) = false)
    (hload : ∀ more, "pre_osdi".toList.isPrefixOf (asciiLower lead ++ more) = false) :
    checkWrapperLine cases (joinWords (lead :: second :: rest)) = .ok () := by
  obtain ⟨more, hmore⟩ := head_words_lower cases (words_joinWords h) hascii
  unfold checkWrapperLine
  simp only
  rw [hmore, List.headD_cons, joinWords_cons_cons, CaseMap.lower, lowerFrom_ascii cases hascii,
    hcontrol, hload, if_neg (by simp), if_neg]
  rintro ⟨hnone, hnot⟩
  rcases hlead with hlead | hlead
  · rw [hnone] at hlead
    cases hlead
  · exact hnot hlead

theorem wrapperLines_pass {name : List Char} {ports : List (List Char)}
    {parameters : List (List Char × List Char)} (hname : isModuleName name = true)
    (hports : AreWords ports) (hne : ports ≠ [])
    (hparameters : ∀ entry ∈ parameters, (entry.1 ≠ [] ∧ ∀ c ∈ entry.1, isSpace c = false) ∧
      ∀ c ∈ entry.2, isSpace c = false) :
    ∀ line ∈ wrapperLines name ports parameters,
      PrintedLine line ∧ checkWrapperLine cases line = .ok () := by
  have hnil : AreWords [] := fun field hfield => absurd hfield List.not_mem_nil
  have hword := isModuleName_word hname
  have hsuffix : ∀ c ∈ "__osdi".toList, isSpace c = false := forall_chars (by decide)
  have hmodel := word_append hword hsuffix
  have hdefaults : AreWords (parameters.map fun entry => entry.1 ++ '=' :: entry.2) := by
    intro field hfield
    obtain ⟨⟨key, value⟩, hentry, rfl⟩ := List.mem_map.mp hfield
    obtain ⟨hkey, hvalue⟩ := hparameters _ hentry
    exact word_append hkey (List.forall_mem_cons.mpr ⟨rfl, hvalue⟩)
  have hforwarded : AreWords (parameters.map fun entry =>
      entry.1 ++ "=\x7b".toList ++ entry.1 ++ "\x7d".toList) := by
    intro field hfield
    obtain ⟨⟨key, value⟩, hentry, rfl⟩ := List.mem_map.mp hfield
    obtain ⟨hkey, -⟩ := hparameters _ hentry
    have hbrace : ∀ c ∈ "=\x7b".toList, isSpace c = false := forall_chars (by decide)
    have hopen := word_append (word_append hkey hbrace) hkey.2
    exact word_append hopen (forall_chars (by decide))
  intro line hline
  simp only [wrapperLines, List.mem_cons, List.not_mem_nil, or_false] at hline
  rcases hline with rfl | rfl | rfl | rfl
  · have hlead : ".subckt".toList ≠ [] ∧ ∀ c ∈ ".subckt".toList, isSpace c = false :=
      ⟨by decide, forall_chars (by decide)⟩
    have hfields := ((hnil.cons hword).cons hlead).append hports |>.append hdefaults
    refine ⟨printedLine_joinWords hfields (by decide), ?_⟩
    exact checkWrapperLine_joinWords cases hfields
      (forall_chars (by decide)) (.inl (by decide)) (fun more => rfl) fun more => rfl
  · have hlead : ".model".toList ≠ [] ∧ ∀ c ∈ ".model".toList, isSpace c = false :=
      ⟨by decide, forall_chars (by decide)⟩
    have hfields := (((hnil.cons hword).cons hmodel).cons hlead).append hforwarded
    refine ⟨printedLine_joinWords hfields (by decide), ?_⟩
    exact checkWrapperLine_joinWords cases hfields
      (forall_chars (by decide)) (.inl (by decide)) (fun more => rfl) fun more => rfl
  · obtain ⟨port, rest, rfl⟩ := List.exists_cons_of_ne_nil hne
    have hlead : "N1".toList ≠ [] ∧ ∀ c ∈ "N1".toList, isSpace c = false :=
      ⟨by decide, forall_chars (by decide)⟩
    have hfields := ((hnil.cons hlead).append hports).append (hnil.cons hmodel)
    refine ⟨printedLine_joinWords hfields (by decide), ?_⟩
    exact checkWrapperLine_joinWords cases hfields
      (forall_chars (by decide)) (.inr (by decide)) (fun more => rfl) fun more => rfl
  · have hlead : ".ends".toList ≠ [] ∧ ∀ c ∈ ".ends".toList, isSpace c = false :=
      ⟨by decide, forall_chars (by decide)⟩
    have hfields := (hnil.cons hword).cons hlead
    refine ⟨printedLine_joinWords hfields (by decide), ?_⟩
    exact checkWrapperLine_joinWords cases hfields
      (forall_chars (by decide)) (.inl (by decide)) (fun more => rfl) fun more => rfl

structure Generated (modules : List WrappedModule) (state : Prelude) : Prop where
  preloads : state.preloads =
    modules.map fun wrapped => joinWords ["pre_osdi".toList, wrapped.module.osdiPath]
  safe : ∀ wrapped ∈ modules, isPathUnsafe wrapped.module.osdiPath = false
  wrappers : ∀ line ∈ state.wrappers, PrintedLine line ∧ checkWrapperLine cases line = .ok ()

theorem generated_foldlM {modules : List WrappedModule} {state : Prelude}
    (h : modules.foldlM (addModule cases digits) ⟨[], [], []⟩ = .ok state) :
    Generated cases modules state := by
  refine Except.foldlM_spec (Generated cases) ?_ ⟨rfl, by simp, by simp⟩ h
  intro done wrapped before after hdone hstep
  unfold addModule at hstep
  split_ifs at hstep with hrepeated hrisky
  obtain ⟨ports, hports, hstep⟩ := Except.bind_eq_ok.mp hstep
  obtain ⟨parameters, hparameters, hstep⟩ := Except.bind_eq_ok.mp hstep
  obtain rfl := Except.ok.inj hstep
  obtain ⟨rfl, hne, hwords⟩ := validatePorts_words cases hports
  rw [Bool.not_eq_true] at hrisky
  refine ⟨?_, ?_, ?_⟩
  · rw [List.map_append, hdone.preloads]
    rfl
  · intro other hother
    rcases List.mem_append.mp hother with hother | hother
    · exact hdone.safe other hother
    · rw [List.mem_singleton.mp hother]
      exact hrisky
  · intro line hline
    rcases List.mem_append.mp hline with hline | hline
    · exact hdone.wrappers line hline
    · exact wrapperLines_pass cases wrapped.module.named hwords hne
        (validateParameters_words digits cases hparameters) line hline

end Generated

section Preload

variable (cases : CaseMap) (digits : DigitClass) (readBytes : List Char → Option (List UInt8))
  (sha256 : List UInt8 → String) (expected : Option (List Char → Option String))

theorem shape_osdiPreloadPrelude {modules : List WrappedModule} {text : List Char}
    (h : osdiPreloadPrelude cases digits modules = .ok text) : modules ≠ [] ∧
      Shape cases (gateLines text) (modules.map fun wrapped => wrapped.module.osdiPath) := by
  unfold osdiPreloadPrelude at h
  split_ifs at h with hempty
  cases hrun : modules.foldlM (addModule cases digits) ⟨[], [], []⟩ with
  | error e =>
    rw [hrun] at h
    cases h
  | ok state =>
    rw [hrun] at h
    obtain rfl := Except.ok.inj h
    obtain ⟨hpreloads, hsafe, hwrappers⟩ := generated_foldlM digits cases hrun
    have hpath : ∀ wrapped ∈ modules, wrapped.module.osdiPath ≠ [] ∧
        ∀ c ∈ wrapped.module.osdiPath, isSpace c = false := by
      intro wrapped hwrapped
      refine ⟨wrapped.module.located, fun c hc => ?_⟩
      have hrisky := List.any_eq_false.mp (hsafe wrapped hwrapped) c hc
      simp only [Bool.or_eq_true, not_or, Bool.not_eq_true] at hrisky
      exact hrisky.1.1
    have hload : ∀ wrapped ∈ modules, AreWords ["pre_osdi".toList, wrapped.module.osdiPath] := by
      intro wrapped hwrapped field hfield
      rcases List.mem_cons.mp hfield with rfl | hfield
      · exact ⟨by decide, forall_chars (by decide)⟩
      · rw [List.mem_singleton.mp hfield]
        exact hpath wrapped hwrapped
    have hdirective : PrintedLine ".control".toList ∧ PrintedLine ".endc".toList := by
      constructor
      · exact ⟨by decide, by decide, forall_chars (by decide)⟩
      · exact ⟨by decide, by decide, forall_chars (by decide)⟩
    have hprinted : ∀ line ∈ state.lines, PrintedLine line := by
      intro line hline
      rw [Prelude.lines, List.cons_append, List.mem_cons, List.mem_append, List.mem_cons] at hline
      rcases hline with rfl | hline | rfl | hline
      · exact hdirective.1
      · rw [hpreloads] at hline
        obtain ⟨wrapped, hwrapped, rfl⟩ := List.mem_map.mp hline
        exact printedLine_joinWords (hload wrapped hwrapped) (by decide)
      · exact hdirective.2
      · exact (hwrappers line hline).1
    have hlower {directive : List Char} (hascii : ∀ c ∈ directive, c.toNat < 128)
        (hlower : asciiLower directive = directive) : cases.lower directive = directive := by
      have h := lowerFrom_ascii cases hascii [] []
      rw [List.append_nil, hlower, CaseMap.lowerFrom, List.append_nil] at h
      exact h
    refine ⟨?_, ?_⟩
    · rintro rfl
      exact hempty rfl
    · rw [gateLines_joinedLines hprinted]
      refine ⟨".control".toList, state.preloads, ".endc".toList, state.wrappers, rfl,
        hlower (forall_chars (by decide)) (by decide),
        hlower (forall_chars (by decide)) (by decide), ?_, ?_, fun line hline =>
          (hwrappers line hline).2⟩
      · rw [hpreloads, List.map_map, List.map_map]
        apply List.map_congr_left
        intro wrapped hwrapped
        show preOsdiPath _ = some _
        unfold preOsdiPath
        rw [words_joinWords (hload wrapped hwrapped)]
        exact if_pos rfl
      · intro path hpath
        obtain ⟨wrapped, hwrapped, rfl⟩ := List.mem_map.mp hpath
        exact hsafe wrapped hwrapped

end Preload

section Samples

def opampModule : OsdiModule where
  moduleName := "bhv_opamp_v1".toList
  osdiPath := "/o/bhv_opamp_v1.osdi".toList
  osdiSha256 := "1"
  named := by decide
  located := by decide

def opampWrapped : WrappedModule where
  module := opampModule
  ports := ["p".toList, "n".toList, "out".toList]
  parameters := [("gain".toList, .str " 1e5 ".toList)]

def opampPrelude : List Char :=
  ".control\npre_osdi /o/bhv_opamp_v1.osdi\n.endc\n".toList ++
    ".subckt bhv_opamp_v1 p n out gain=1e5\n".toList ++
    ".model bhv_opamp_v1__osdi bhv_opamp_v1 gain=\x7bgain\x7d\n".toList ++
    "N1 p n out bhv_opamp_v1__osdi\n.ends bhv_opamp_v1\n".toList

def opampFile (path : List Char) : Option (List UInt8) :=
  if path = opampModule.osdiPath then some [127, 69, 76, 70] else none

def provided (path : List Char) : List (List Char) :=
  if path = opampModule.osdiPath then [opampModule.moduleName] else []

theorem readAlike_opampPrelude : ReadAlike opampPrelude := by
  have hchars : opampPrelude = _ :=
    append_literal (append_literal (append_literal String.toList_ofList _) _) _
  have hspaces : (gateLines opampPrelude).all fun line =>
      line.all fun c => decide (isCSpace c = isSpace c) := by
    rw [hchars]
    decide +kernel
  have hascii : (gateLines opampPrelude).all fun line =>
      (words isSpace line).head?.all fun word => word.all fun c => decide (c.toNat < 128) := by
    rw [hchars]
    decide +kernel
  constructor
  · rw [hchars]
    decide +kernel
  · exact fun line hline => forall_chars (List.all_eq_true.mp hspaces line hline)
  · intro line hline word hword c hc
    have hline := List.all_eq_true.mp hascii line hline
    rw [hword, Option.all_some, List.all_eq_true] at hline
    exact of_decide_eq_true (hline c hc)

def processPrelude : List Char :=
  ".control\npre_osdi /o/bhv_opamp_v1.osdi\n.endc\n.subckt bhv_opamp_v1 p n out\n".toList ++
    ".model agent d_process (process_file=\"/bin/agent\")\n".toList ++
    "N1 p n out agent\n.ends bhv_opamp_v1\n".toList

end Samples

end OpenADA.Osdi
