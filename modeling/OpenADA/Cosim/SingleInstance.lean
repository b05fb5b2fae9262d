import OpenADA.Cosim.Deck

/-! The count of d_cosim instances against the cards a simulator reads. -/
namespace OpenADA.Cosim

open PyText SpiceText

section Events

variable (cases : CaseMap) (wrappers bindings : List Name)

def eventOf (space : Char → Bool) (text : List Char) : Option CardEvent :=
  cardEvent cases wrappers bindings (words space text)

def CardEvent.isReference : CardEvent → Bool
  | .references _ => true
  | _ => false

def depthAfter (depth : ℕ) (trace : List CardEvent) : ℕ :=
  trace.foldl (fun depth event =>
    match event with
    | .enters => depth + 1
    | .leaves => depth - 1
    | .references _ => depth) depth

def Creates (card : List Char) : Prop :=
  ∃ name, eventOf cases wrappers bindings isCSpace card = some (.references name)

def OneTopInstance (cards : List (List Char)) : Prop :=
  ∃ before card after, cards = before ++ card :: after ∧ Creates cases wrappers bindings card ∧
    (∀ other ∈ before ++ after, ¬ Creates cases wrappers bindings other) ∧
    depthAfter 0 (before.filterMap (eventOf cases wrappers bindings isCSpace)) = 0

end Events

section Traces

def AllTop (depth : ℕ) : List CardEvent → Prop
  | [] => True
  | .enters :: rest => AllTop (depth + 1) rest
  | .leaves :: rest => AllTop (depth - 1) rest
  | .references _ :: rest => depth = 0 ∧ AllTop depth rest

theorem allTop_of_no_reference {trace : List CardEvent}
    (h : ∀ event ∈ trace, event.isReference = false) (depth : ℕ) : AllTop depth trace := by
  induction trace generalizing depth with
  | nil => trivial
  | cons event rest ih =>
    have hrest := ih fun other hother => h other (List.mem_cons_of_mem _ hother)
    have hevent := h event (List.mem_cons_self ..)
    cases event with
    | enters => exact hrest _
    | leaves => exact hrest _
    | references name => cases hevent

theorem allTop_append {before after : List CardEvent} {depth : ℕ} :
    AllTop depth (before ++ after) ↔
      AllTop depth before ∧ AllTop (depthAfter depth before) after := by
  induction before generalizing depth with
  | nil =>
    rw [List.nil_append]
    exact (and_iff_right trivial).symm
  | cons event rest ih =>
    rw [List.cons_append]
    cases event with
    | enters => exact ih
    | leaves => exact ih
    | references name =>
      show depth = 0 ∧ AllTop depth (rest ++ after) ↔ (depth = 0 ∧ AllTop depth rest) ∧ _
      rw [ih, and_assoc]
      rfl

theorem countP_eq_one_iff {trace : List CardEvent} :
    (AllTop 0 trace ∧ trace.countP CardEvent.isReference = 1) ↔
      ∃ before name after, trace = before ++ .references name :: after ∧
        (∀ event ∈ before ++ after, event.isReference = false) ∧ depthAfter 0 before = 0 := by
  constructor
  · rintro ⟨htop, hcount⟩
    have hpos : 0 < trace.countP CardEvent.isReference := by omega
    obtain ⟨event, hevent, href⟩ := List.countP_pos_iff.mp hpos
    obtain ⟨before, after, rfl⟩ := List.append_of_mem hevent
    cases event with
    | enters => cases href
    | leaves => cases href
    | references name =>
      refine ⟨before, name, after, rfl, ?_, (allTop_append.mp htop).2.1⟩
      rw [List.countP_append, List.countP_cons_of_pos rfl] at hcount
      have hzero : (before ++ after).countP CardEvent.isReference = 0 := by
        rw [List.countP_append]
        omega
      intro event hevent
      exact Bool.eq_false_iff.mpr (List.countP_eq_zero.mp hzero event hevent)
  · rintro ⟨before, name, after, rfl, hnone, hdepth⟩
    have hnone' : ∀ event ∈ before ++ after, ¬ event.isReference = true := fun event hevent =>
      Bool.eq_false_iff.mp (hnone event hevent)
    constructor
    · rw [allTop_append]
      refine ⟨allTop_of_no_reference (fun event hevent =>
        hnone event (List.mem_append_left _ hevent)) 0, hdepth, ?_⟩
      exact allTop_of_no_reference (fun event hevent =>
        hnone event (List.mem_append_right _ hevent)) _
    · have hzero := List.countP_eq_zero.mpr hnone'
      rw [List.countP_append] at hzero
      rw [List.countP_append, List.countP_cons_of_pos rfl]
      omega

variable {cases : CaseMap} {wrappers bindings : List Name}

theorem foldlM_countCard {items : List (ℕ × List Char)} {count count' : Count} :
    items.foldlM (countCard cases wrappers bindings) count = .ok count' ↔
      AllTop count.depth
        (items.filterMap fun item => eventOf cases wrappers bindings isSpace item.2) ∧
      count' = ⟨depthAfter count.depth
          (items.filterMap fun item => eventOf cases wrappers bindings isSpace item.2),
        count.total + (items.filterMap fun item =>
          eventOf cases wrappers bindings isSpace item.2).countP CardEvent.isReference⟩ := by
  induction items generalizing count with
  | nil =>
    rw [Except.foldlM_nil_eq_ok]
    exact (and_iff_right trivial).symm
  | cons item rest ih =>
    rw [Except.foldlM_cons_eq_ok, List.filterMap_cons]
    cases hevent : eventOf cases wrappers bindings isSpace item.2 with
    | none =>
      have hstep : countCard cases wrappers bindings count item = .ok count := by
        rw [countCard, ← eventOf, hevent]
      simp only [hstep, Except.ok.injEq, exists_eq_left', ih]
    | some event =>
      cases event with
      | enters =>
        have hstep : countCard cases wrappers bindings count item =
            .ok { count with depth := count.depth + 1 } := by
          rw [countCard, ← eventOf, hevent]
        simp [hstep, ih, AllTop, depthAfter, CardEvent.isReference]
      | leaves =>
        have hstep : countCard cases wrappers bindings count item =
            .ok { count with depth := count.depth - 1 } := by
          rw [countCard, ← eventOf, hevent]
        simp [hstep, ih, AllTop, depthAfter, CardEvent.isReference]
      | references name =>
        have hstep : countCard cases wrappers bindings count item =
            if 0 < count.depth then .error (.nestedInstance item.1 name)
            else .ok { count with total := count.total + 1 } := by
          rw [countCard, ← eventOf, hevent]
        by_cases hdepth : count.depth = 0
        · simp [hstep, ih, AllTop, depthAfter, CardEvent.isReference, hdepth, List.countP_cons,
            Nat.add_assoc, Nat.add_comm 1]
        · simp [hstep, AllTop, hdepth, Nat.pos_of_ne_zero hdepth]

/-- The gate accepts where the statements it reads have one reference, and that at the top. -/
theorem verifySingleInstantiation_ok {deck : List Char} (hnames : wrappers ≠ []) :
    verifySingleInstantiation cases deck wrappers bindings = .ok () ↔
      AllTop 0 ((statements (rawKind isSpace) (splitLines deck)).filterMap fun item =>
        eventOf cases wrappers bindings isSpace item.2) ∧
      ((statements (rawKind isSpace) (splitLines deck)).filterMap fun item =>
        eventOf cases wrappers bindings isSpace item.2).countP CardEvent.isReference = 1 := by
  have hne : ¬ (wrappers.isEmpty = true ∧ bindings.isEmpty = true) := fun h =>
    hnames (List.isEmpty_iff.mp h.1)
  rw [verifySingleInstantiation, if_neg hne, Except.bind_eq_ok]
  simp only [foldlM_countCard, Nat.zero_add]
  constructor
  · rintro ⟨count, ⟨htop, rfl⟩, hcount⟩
    refine ⟨htop, ?_⟩
    split_ifs at hcount with hmany hzero
    simp only at hmany hzero
    omega
  · rintro ⟨htop, hcount⟩
    refine ⟨_, ⟨htop, rfl⟩, ?_⟩
    simp only [hcount]
    rfl

end Traces

section Readings

/-- A statement of the gate and the card a simulator reads in its place, where it reads one. -/
structure Reading where
  raw : List Char
  card : Option (List Char)

def readRaw (readings : List Reading) : LineKind → List Reading
  | .skip => readings
  | .card text => readings ++ [⟨text, none⟩]
  | .more body text =>
    match readings.getLast? with
    | some last => readings.dropLast ++ [{ last with raw := last.raw ++ ' ' :: body }]
    | none => readings ++ [⟨text, none⟩]

def continueCard (body : List Char) : List Reading → List Reading
  | [] => []
  | reading :: rest =>
    if rest.any (·.card.isSome) then reading :: continueCard body rest
    else { reading with card := reading.card.map fun card => card ++ ' ' :: body } :: rest

def setCard (text : List Char) (readings : List Reading) : List Reading :=
  match readings.getLast? with
  | some last => readings.dropLast ++ [{ last with card := some text }]
  | none => []

/-- One line after the title: the gate's statement, then the simulator's card. -/
def readBoth (readings : List Reading) (line : List Char) : List Reading :=
  match lineKind isCSpace line with
  | .skip => readRaw readings (rawKind isCSpace line)
  | .card text => setCard text (readRaw readings (rawKind isCSpace line))
  | .more body _ => continueCard body (readRaw readings (rawKind isCSpace line))

def deckReadings (deck : List Char) : List Reading :=
  (physicalLines deck).tail.foldl readBoth
    (readRaw [] (rawKind isCSpace ((physicalLines deck).head?.getD [])))

variable {p : Char → Bool}

theorem map_raw_setCard {text : List Char} {readings : List Reading} :
    (setCard text readings).map Reading.raw = readings.map Reading.raw := by
  unfold setCard
  cases hlast : readings.getLast? with
  | none =>
    rw [List.getLast?_eq_none_iff] at hlast
    rw [hlast]
  | some last =>
    obtain ⟨front, rfl⟩ := List.getLast?_eq_some_iff.mp hlast
    simp

theorem map_raw_continueCard {body : List Char} {readings : List Reading} :
    (continueCard body readings).map Reading.raw = readings.map Reading.raw := by
  induction readings with
  | nil => rfl
  | cons reading rest ih =>
    rw [continueCard]
    split_ifs
    · rw [List.map_cons, List.map_cons, ih]
    · rfl

theorem map_raw_readBoth {readings : List Reading} {line : List Char} :
    (readBoth readings line).map Reading.raw =
      (readRaw readings (rawKind isCSpace line)).map Reading.raw := by
  unfold readBoth
  cases lineKind isCSpace line with
  | skip => rfl
  | card text => exact map_raw_setCard
  | more body text => exact map_raw_continueCard

theorem map_snd_stitch {kind : List Char → LineKind} {before : List (ℕ × List Char)}
    {readings : List Reading} {line : List Char × ℕ}
    (h : before.map Prod.snd = readings.map Reading.raw) :
    (stitch kind before line).map Prod.snd = (readRaw readings (kind line.1)).map Reading.raw := by
  unfold stitch
  cases kind line.1 with
  | skip => exact h
  | card text => simp [readRaw, h]
  | more body text =>
    have hlast := congrArg List.getLast? h
    rw [List.getLast?_map, List.getLast?_map] at hlast
    cases hbefore : before.getLast? with
    | none =>
      rw [hbefore, Option.map_none, eq_comm, Option.map_eq_none_iff] at hlast
      simp [readRaw, hlast, h]
    | some entry =>
      rw [hbefore, Option.map_some, eq_comm, Option.map_eq_some_iff] at hlast
      obtain ⟨last, hlast, hraw⟩ := hlast
      simp [readRaw, hlast, List.map_dropLast, h, hraw]

theorem map_raw_deckReadings (deck : List Char) :
    (deckReadings deck).map Reading.raw =
      (statements (rawKind isCSpace) (physicalLines deck)).map Prod.snd := by
  have hfold (lines : List (List Char)) (start : ℕ) (before : List (ℕ × List Char))
      (readings : List Reading) (h : before.map Prod.snd = readings.map Reading.raw) :
      ((lines.zipIdx start).foldl (stitch (rawKind isCSpace)) before).map Prod.snd =
        (lines.foldl readBoth readings).map Reading.raw := by
    induction lines generalizing start before readings with
    | nil => exact h
    | cons line rest ih =>
      rw [List.zipIdx_cons, List.foldl_cons, List.foldl_cons]
      exact ih _ _ _ ((map_snd_stitch h).trans map_raw_readBoth.symm)
  unfold deckReadings statements
  cases physicalLines deck with
  | nil => rfl
  | cons title rest =>
    rw [List.zipIdx_cons, List.foldl_cons]
    have htitle : (stitch (rawKind isCSpace) [] (title, 1)).map Prod.snd =
        (readRaw [] (rawKind isCSpace title)).map Reading.raw :=
      map_snd_stitch List.map_nil
    exact (hfold rest 2 _ _ htitle).symm

theorem filterMap_card_readRaw {readings : List Reading} {kind : LineKind} :
    (readRaw readings kind).filterMap Reading.card = readings.filterMap Reading.card := by
  cases kind with
  | skip => rfl
  | card text => simp [readRaw]
  | more body text =>
    rw [readRaw]
    cases hlast : readings.getLast? with
    | none => simp [List.getLast?_eq_none_iff.mp hlast]
    | some last =>
      obtain ⟨front, rfl⟩ := List.getLast?_eq_some_iff.mp hlast
      simp [List.filterMap_cons]

theorem filterMap_card_continueCard {body : List Char} {readings : List Reading} :
    (continueCard body readings).filterMap Reading.card =
      readLine (fun _ => .more body []) (readings.filterMap Reading.card) [] := by
  induction readings with
  | nil => rfl
  | cons reading rest ih =>
    rw [continueCard]
    unfold readLine at ih ⊢
    split_ifs with hany
    · have hne : rest.filterMap Reading.card ≠ [] := by
        obtain ⟨other, hother, hcard⟩ := List.any_eq_true.mp hany
        obtain ⟨card, hcard⟩ := Option.isSome_iff_exists.mp hcard
        exact List.ne_nil_of_mem (List.mem_filterMap.mpr ⟨other, hother, hcard⟩)
      obtain ⟨last, hlast⟩ := Option.ne_none_iff_exists'.mp
        (mt List.getLast?_eq_none_iff.mp hne)
      rw [hlast] at ih
      cases hcard : reading.card with
      | none => simp only [List.filterMap_cons, hcard, ih, hlast]
      | some card =>
        have hcons : (card :: rest.filterMap Reading.card).getLast? = some last := by
          rw [List.getLast?_cons, hlast]
          rfl
        simp only [List.filterMap_cons, hcard, ih, hcons, List.dropLast_cons_of_ne_nil hne,
          List.cons_append]
    · have hnil : rest.filterMap Reading.card = [] := by
        rw [List.filterMap_eq_nil_iff]
        intro other hother
        by_contra hcard
        exact hany (List.any_eq_true.mpr ⟨other, hother, Option.isSome_iff_ne_none.mpr hcard⟩)
      cases hcard : reading.card with
      | none => simp [hcard, hnil]
      | some card => simp [hcard, hnil]

theorem filterMap_card_readBoth {readings : List Reading} {line : List Char} :
    (readBoth readings line).filterMap Reading.card =
      readLine (lineKind isCSpace) (readings.filterMap Reading.card) line := by
  unfold readBoth readLine
  cases hkind : lineKind isCSpace line with
  | skip => exact filterMap_card_readRaw
  | card text =>
    obtain ⟨raw, hraw⟩ := exists_rawKind_card hkind
    simp [hraw, readRaw, setCard]
  | more body text =>
    rw [filterMap_card_continueCard, filterMap_card_readRaw]
    rfl

theorem filterMap_card_deckReadings (deck : List Char) :
    (deckReadings deck).filterMap Reading.card = simulatorCards deck := by
  have hfold (lines : List (List Char)) (readings : List Reading) :
      (lines.foldl readBoth readings).filterMap Reading.card =
        lines.foldl (readLine (lineKind isCSpace)) (readings.filterMap Reading.card) := by
    induction lines generalizing readings with
    | nil => rfl
    | cons line rest ih => rw [List.foldl_cons, List.foldl_cons, ih, filterMap_card_readBoth]
  rw [deckReadings, hfold, filterMap_card_readRaw]
  rfl

end Readings

section Gate

variable (cases : CaseMap) (wrappers bindings : List Name)

/-- Each statement the gate folds means to the count what the simulator's card there means; a title
and a comment line mean nothing. -/
structure Legible (deck : List Char) : Prop where
  plain : isPlain deck = true
  same : ∀ reading ∈ deckReadings deck, eventOf cases wrappers bindings isCSpace reading.raw =
    reading.card.bind (eventOf cases wrappers bindings isCSpace)

variable {cases wrappers bindings}

/-- On a legible deck the gate reads the events of the simulator's cards. -/
theorem Legible.trace {deck : List Char} (h : Legible cases wrappers bindings deck) :
    ((statements (rawKind isSpace) (splitLines deck)).filterMap fun item =>
      eventOf cases wrappers bindings isSpace item.2) =
        (simulatorCards deck).filterMap (eventOf cases wrappers bindings isCSpace) := by
  have hraw : ((statements (rawKind isSpace) (splitLines deck)).filterMap fun item =>
      eventOf cases wrappers bindings isSpace item.2) =
        ((deckReadings deck).map Reading.raw).filterMap
          (eventOf cases wrappers bindings isCSpace) := by
    rw [map_raw_deckReadings, statements_physicalLines h.plain, List.filterMap_map]
    refine List.filterMap_congr ?_
    intro item hitem
    rw [← statements_physicalLines h.plain] at hitem
    rw [eventOf, Function.comp_apply, eventOf, words_congr (agree_of_mem_statements h.plain hitem)]
  rw [hraw, ← filterMap_card_deckReadings, List.filterMap_map, List.filterMap_filterMap]
  exact List.filterMap_congr h.same

theorem oneTopInstance_iff {cards : List (List Char)} :
    OneTopInstance cases wrappers bindings cards ↔ ∃ before name after,
      cards.filterMap (eventOf cases wrappers bindings isCSpace) =
        before ++ .references name :: after ∧
      (∀ event ∈ before ++ after, event.isReference = false) ∧ depthAfter 0 before = 0 := by
  constructor
  · rintro ⟨before, card, after, rfl, ⟨name, hname⟩, hothers, hdepth⟩
    refine ⟨_, name, after.filterMap (eventOf cases wrappers bindings isCSpace), ?_, ?_, hdepth⟩
    · rw [List.filterMap_append, List.filterMap_cons, hname]
    · rw [← List.filterMap_append]
      intro event hevent
      obtain ⟨other, hother, hevent⟩ := List.mem_filterMap.mp hevent
      cases event with
      | enters => rfl
      | leaves => rfl
      | references name' => exact absurd ⟨name', hevent⟩ (hothers other hother)
  · rintro ⟨before, name, after, htrace, hothers, hdepth⟩
    obtain ⟨front, back, rfl, hfront, hback⟩ := List.filterMap_eq_append_iff.mp htrace
    obtain ⟨gap, card, rest, rfl, hgap, hcard, hrest⟩ := List.filterMap_eq_cons_iff.mp hback
    have hnone : gap.filterMap (eventOf cases wrappers bindings isCSpace) = [] :=
      List.filterMap_eq_nil_iff.mpr hgap
    refine ⟨front ++ gap, card, rest, by rw [List.append_assoc], ⟨name, hcard⟩, ?_, ?_⟩
    · rintro other hother ⟨name', hname'⟩
      have hevent : CardEvent.references name' ∈ before ++ after := by
        rw [← hfront, ← hrest, ← List.filterMap_append]
        rcases List.mem_append.mp hother with hother | hother
        · rcases List.mem_append.mp hother with hother | hother
          · exact List.mem_filterMap.mpr ⟨other, List.mem_append_left _ hother, hname'⟩
          · rw [hgap other hother] at hname'
            cases hname'
        · exact List.mem_filterMap.mpr ⟨other, List.mem_append_right _ hother, hname'⟩
      have hno := hothers _ hevent
      cases hno
    · rw [List.filterMap_append, hnone, List.append_nil, hfront]
      exact hdepth

/-- A deck with a comment line, a blank line, a continued card and one instance. -/
def plainDeck : List Char :=
  "one instance\n* wrapper\nX1 a b\n\n+ BHV_X_V1 td = 1n ; latency\nR1 a 0 1k\n.end\n".toList

/-- An A card of the binding model beside the wrapper, with a comment after the model's name. -/
def commentedDeck : List Char :=
  "two instances\nX1 a b bhv_x_v1\nA1 [p] [q] bhv_x_cosim ; direct\n.end\n".toList

end Gate

end OpenADA.Cosim
