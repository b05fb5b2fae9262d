import OpenADA.Library.CharClass

/-! A reader of Tcl scripts, one character after another: which commands run, at the top level or in
brackets, and which variables they read. Backslashes, braces, array elements and namespaces are
beyond it, and are told. -/
namespace TclReader

structure Word where
  text : List Char
  literal : Bool
  deriving DecidableEq

def Word.empty : Word := ⟨[], true⟩

def Word.of (text : List Char) : Word := ⟨text, true⟩

def Word.add (word : Word) (c : Char) : Word := { word with text := word.text ++ [c] }

def Word.substitute (word : Word) : Word := { word with literal := false }

/-- Where a script is read: before a command, in a comment, between words, in a word, in quotes or
right behind them. -/
inductive Mode where
  | start
  | comment (escaped : Bool)
  | gap
  | bare
  | quoted
  | closed
  deriving DecidableEq

structure Frame where
  mode : Mode
  words : List Word
  word : Word
  deriving DecidableEq

def Frame.fresh : Frame := ⟨.start, [], .empty⟩

inductive Event where
  | read (name : List Char)
  | command (nested : Bool) (words : List Word)
  /-- a character right behind a closing quote -/
  | trailing
  /-- a construct that is not followed -/
  | beyond
  deriving DecidableEq

/-- The script that is read, the scripts around its brackets, and the name after a dollar sign. -/
structure Reader where
  frame : Frame
  outer : List Frame
  reading : Option (List Char)
  deriving DecidableEq

def Reader.ready : Reader := ⟨.fresh, [], none⟩

def isGap (c : Char) : Bool := c = ' ' || c = '\t' || c = '\r' || c.toNat = 11 || c.toNat = 12

def isNameChar (c : Char) : Bool := c.isAlphanum || c = '_'

def endsCommand (c : Char) : Bool := c = '\n' || c = ';'

def Frame.endWord (frame : Frame) : Frame := ⟨.gap, frame.words ++ [frame.word], .empty⟩

def Frame.command? (frame : Frame) : Option (List Word) :=
  match frame.mode with
  | .gap => some frame.words
  | .bare => some (frame.words ++ [frame.word])
  | .closed => some (frame.words ++ [frame.word])
  | _ => none

def Reader.ended (reader : Reader) : List Event :=
  (reader.frame.command?.map (Event.command (!reader.outer.isEmpty))).toList

def Reader.pop (reader : Reader) : Reader :=
  match reader.outer with
  | [] => { reader with frame := .fresh }
  | frame :: rest => { reader with frame := frame, outer := rest }

def Reader.inWord (mode : Mode) (reader : Reader) (c : Char) : Reader × List Event :=
  let word := reader.frame.word
  if c = '$' then
    ({ reader with frame := ⟨mode, reader.frame.words, word.substitute⟩, reading := some [] }, [])
  else if c = '[' then
    ({ reader with
        frame := .fresh
        outer := ⟨mode, reader.frame.words, word.substitute⟩ :: reader.outer }, [])
  else
    ({ reader with frame := ⟨mode, reader.frame.words, word.add c⟩ },
      if c = '\\' then [.beyond] else [])

def Reader.beginWord (reader : Reader) (c : Char) : Reader × List Event :=
  if c = '"' then ({ reader with frame := ⟨.quoted, reader.frame.words, .empty⟩ }, [])
  else if c = '{' then
    ({ reader with frame := ⟨.bare, reader.frame.words, Word.empty.add c⟩ }, [.beyond])
  else Reader.inWord .bare { reader with frame := ⟨.bare, reader.frame.words, .empty⟩ } c

/-- The end of a word or of a command, or else what `next` says. -/
def Reader.endOr (reader : Reader) (c : Char) (frame : Frame) (next : Reader × List Event) :
    Reader × List Event :=
  if isGap c then ({ reader with frame := frame }, [])
  else if endsCommand c then ({ reader with frame := .fresh }, reader.ended)
  else if c = ']' ∧ reader.outer ≠ [] then (reader.pop, reader.ended)
  else next

def Reader.stepText (reader : Reader) (c : Char) : Reader × List Event :=
  match reader.frame.mode with
  | .start =>
    if isGap c ∨ endsCommand c then (reader, [])
    else if c = '#' then ({ reader with frame := ⟨.comment false, [], .empty⟩ }, [])
    else if c = ']' ∧ reader.outer ≠ [] then (reader.pop, [])
    else reader.beginWord c
  | .comment escaped =>
    if c = '\n' ∧ escaped = false then ({ reader with frame := .fresh }, [])
    else ({ reader with frame := ⟨.comment (c = '\\' && !escaped), [], .empty⟩ }, [])
  | .gap => reader.endOr c reader.frame (reader.beginWord c)
  | .bare => reader.endOr c reader.frame.endWord (Reader.inWord .bare reader c)
  | .quoted =>
    if c = '"' then ({ reader with frame := { reader.frame with mode := .closed } }, [])
    else Reader.inWord .quoted reader c
  | .closed =>
    reader.endOr c reader.frame.endWord
      ({ reader with frame := ⟨.bare, reader.frame.words, reader.frame.word.add c⟩ }, [.trailing])

/-- The event of a name that ends before `c`. -/
def readEvent (name : List Char) (c : Char) : Event :=
  if name = [] ∨ ['(', ':', '{'].contains c then .beyond else .read name

def step (reader : Reader) (c : Char) : Reader × List Event :=
  match reader.reading with
  | none => reader.stepText c
  | some name =>
    if isNameChar c then ({ reader with reading := some (name ++ [c]) }, [])
    else
      let next := Reader.stepText { reader with reading := none } c
      (next.1, readEvent name c :: next.2)

def run (reader : Reader) : List Char → Reader × List Event
  | [] => (reader, [])
  | c :: rest =>
    let next := step reader c
    let last := run next.1 rest
    (last.1, next.2 ++ last.2)

/-- What a whole script does. A bracket or a quotation that does not end is told, too. -/
def script (text : List Char) : List Event :=
  let last := run .ready (text ++ ['\n'])
  if last.1 = .ready then last.2 else last.2 ++ [Event.beyond]

theorem run_append (reader : Reader) (first second : List Char) :
    run reader (first ++ second) =
      ((run (run reader first).1 second).1,
        (run reader first).2 ++ (run (run reader first).1 second).2) := by
  induction first generalizing reader with
  | nil => rfl
  | cons c rest ih =>
    rw [List.cons_append, run, ih, run]
    simp only [List.append_assoc]

section Checked

variable (queries assigned : List (List Char))

def IsName (name : List Char) : Prop := name ≠ [] ∧ ∀ c ∈ name, isNameChar c = true

def EndsName (nested : Bool) (tail : List Char) : Prop :=
  ∀ c ∈ tail.head?, isGap c = true ∨ (nested = true ∧ c = ']')

instance {nested : Bool} {tail : List Char} : Decidable (EndsName nested tail) :=
  decidable_of_iff (tail.head?.all fun c => isGap c || (nested && decide (c = ']'))) <| by
    rw [Option.all_eq_true]
    simp only [Bool.or_eq_true, Bool.and_eq_true, decide_eq_true_eq]
    rfl

inductive Ahead (nested : Bool) : List (List Char) → List Char → Prop where
  | nil {rest : List Char} : Ahead nested [] rest
  | cons {gap name tail : List Char} {names : List (List Char)} : (∀ c ∈ gap, isGap c = true) →
      IsName name → EndsName nested tail → Ahead nested names tail →
      Ahead nested (name :: names) (gap ++ name ++ tail)

def ReadsNext (begun rest : List Char) : Prop :=
  ∃ more tail, rest = more ++ tail ∧ (∀ c ∈ more, isNameChar c = true) ∧
    begun ++ more ∈ assigned ∧ begun ++ more ≠ [] ∧
    ∀ c ∈ tail.head?, isNameChar c = false ∧ ['(', ':', '{'].contains c = false

/-- A text of one line in which every bracket opens a query and every dollar sign reads a variable
that was assigned. -/
structure Checked (text : List Char) : Prop where
  plain : ∀ c ∈ text, ['\n', ';', '\\', '{'].contains c = false
  opens : ∀ before after, text = before ++ '[' :: after →
    ∃ name ∈ queries, Ahead true [name] after
  reads : ∀ before after, text = before ++ '$' :: after → ReadsNext assigned [] after

def Allowed : Event → Prop
  | .read name => name ∈ assigned
  | .command true words => ∃ name ∈ queries, words.head? = some (.of name)
  | .command false _ => False
  | .trailing => False
  | .beyond => False

def Mode.isOpen : Mode → Bool
  | .gap => true
  | .bare => true
  | .quoted => true
  | .closed => true
  | _ => false

variable (top : List (List Char))

inductive Past : List Word → List Frame → Prop where
  | top {words : List Word} : top.map .of <+: words → Past words []
  | nested {name : List Char} {words : List Word} {frame : Frame} {outer : List Frame} :
      name ∈ queries → words.head? = some (.of name) → frame.mode.isOpen = true →
      Past frame.words outer → Past words (frame :: outer)

inductive Around : List Frame → List (List Char) → Prop where
  | top : Around [] top
  | nested {name : List Char} {frame : Frame} {outer : List Frame} : name ∈ queries →
      frame.mode.isOpen = true → Past queries top frame.words outer → Around (frame :: outer) [name]

inductive Stage (nested : Bool) (names : List (List Char)) : Frame → List Char → Prop where
  | start {rest : List Char} : Ahead nested names rest → Stage nested names .fresh rest
  | between {done todo : List (List Char)} {rest : List Char} : names = done ++ todo → todo ≠ [] →
      Ahead nested todo rest → Stage nested names ⟨.gap, done.map .of, .empty⟩ rest
  | within {done todo : List (List Char)} {letters more tail : List Char} :
      names = done ++ (letters ++ more) :: todo → (∀ c ∈ more, isNameChar c = true) →
      EndsName nested tail → Ahead nested todo tail →
      Stage nested names ⟨.bare, done.map .of, .of letters⟩ (more ++ tail)

inductive Good : Reader → List Char → Prop where
  | past {mode : Mode} {words : List Word} {word : Word} {outer : List Frame} {rest : List Char} :
      Past queries top words outer → mode.isOpen = true → Good ⟨⟨mode, words, word⟩, outer, none⟩ rest
  | reading {mode : Mode} {words : List Word} {word : Word} {outer : List Frame}
      {name rest : List Char} : Past queries top words outer → mode.isOpen = true →
      ReadsNext assigned name rest → Good ⟨⟨mode, words, word⟩, outer, some name⟩ rest
  | ahead {frame : Frame} {outer : List Frame} {names : List (List Char)} {rest : List Char} :
      Around queries top outer names → names ≠ [] → Stage (!outer.isEmpty) names frame rest →
      Good ⟨frame, outer, none⟩ rest

variable {queries assigned top} {words : List Word} {word : Word} {outer : List Frame} {mode : Mode}
  {c : Char} {rest : List Char}

theorem Checked.tail (h : Checked queries assigned (c :: rest)) : Checked queries assigned rest where
  plain d hd := h.plain d (List.mem_cons_of_mem _ hd)
  opens before after hrest := h.opens (c :: before) after (by rw [hrest, List.cons_append])
  reads before after hrest := h.reads (c :: before) after (by rw [hrest, List.cons_append])

theorem Around.past {names : List (List Char)} (h : Around queries top outer names)
    (hwords : names.map .of <+: words) : Past queries top words outer := by
  cases h with
  | top => exact .top hwords
  | nested hname hopen hpast =>
    obtain ⟨more, rfl⟩ := hwords
    exact .nested hname rfl hopen hpast

theorem Past.append (h : Past queries top words outer) (more : List Word) :
    Past queries top (words ++ more) outer := by
  cases h with
  | top hwords => exact .top (hwords.trans (List.prefix_append _ _))
  | nested hname hhead hopen hpast =>
    refine .nested hname ?_ hopen hpast
    obtain ⟨others, rfl⟩ := List.head?_eq_some_iff.mp hhead
    rfl

theorem inWord_good (h : Past queries top words outer) (hopen : mode.isOpen = true)
    (hc : Checked queries assigned (c :: rest)) (before : Mode) :
    Good queries assigned top (Reader.inWord mode ⟨⟨before, words, word⟩, outer, none⟩ c).1 rest ∧
      (Reader.inWord mode ⟨⟨before, words, word⟩, outer, none⟩ c).2 = [] := by
  unfold Reader.inWord
  simp only
  split_ifs with hdollar hbracket hslash
  · subst hdollar
    exact ⟨.reading h hopen (hc.reads [] rest rfl), rfl⟩
  · subst hbracket
    obtain ⟨name, hname, hahead⟩ := hc.opens [] rest rfl
    exact ⟨.ahead (.nested hname hopen h) (List.cons_ne_nil _ _) (.start hahead), rfl⟩
  · subst hslash
    exact absurd (hc.plain '\\' (List.mem_cons_self ..)) (by decide)
  · exact ⟨.past h hopen, rfl⟩

theorem beginWord_good (h : Past queries top words outer)
    (hc : Checked queries assigned (c :: rest)) (before : Mode) :
    Good queries assigned top (Reader.beginWord ⟨⟨before, words, word⟩, outer, none⟩ c).1 rest ∧
      (Reader.beginWord ⟨⟨before, words, word⟩, outer, none⟩ c).2 = [] := by
  unfold Reader.beginWord
  split_ifs with hquote hbrace
  · exact ⟨.past h rfl, rfl⟩
  · subst hbrace
    exact absurd (hc.plain '{' (List.mem_cons_self ..)) (by decide)
  · exact inWord_good h rfl hc .bare

theorem endsCommand_eq_false (hc : Checked queries assigned (c :: rest)) :
    endsCommand c = false := by
  have hplain := hc.plain c (List.mem_cons_self ..)
  simp only [List.contains_cons, List.contains_nil, Bool.or_eq_false_iff, beq_eq_false_iff_ne]
    at hplain
  simp only [endsCommand, Bool.or_eq_false_iff, decide_eq_false_iff_not]
  exact ⟨hplain.1, hplain.2.1⟩

theorem pop_good {frame : Frame} {words : List Word} (hne : outer ≠ [])
    (h : Past queries top words outer) (hwords : frame.command? = some words) (rest : List Char) :
    Good queries assigned top (Reader.pop ⟨frame, outer, none⟩) rest ∧
      ∀ event ∈ Reader.ended ⟨frame, outer, none⟩, Allowed queries assigned event := by
  cases h with
  | top => exact absurd rfl hne
  | @nested name _ around outer hname hhead hopen hpast =>
    constructor
    · exact .past hpast hopen
    · intro event hevent
      rw [Reader.ended, hwords] at hevent
      obtain rfl := List.mem_singleton.mp hevent
      exact ⟨name, hname, hhead⟩

theorem endOr_good {frame next : Frame} {words : List Word} {read : Reader × List Event}
    (hc : Checked queries assigned (c :: rest)) (hwords : frame.command? = some words)
    (h : Past queries top words outer)
    (hnext : Good queries assigned top ⟨next, outer, none⟩ rest)
    (hread : .trailing ∉ read.2 → Good queries assigned top read.1 rest ∧
      ∀ event ∈ read.2, Allowed queries assigned event)
    (htrailing : .trailing ∉ (Reader.endOr ⟨frame, outer, none⟩ c next read).2) :
    Good queries assigned top (Reader.endOr ⟨frame, outer, none⟩ c next read).1 rest ∧
      ∀ event ∈ (Reader.endOr ⟨frame, outer, none⟩ c next read).2,
        Allowed queries assigned event := by
  unfold Reader.endOr at htrailing ⊢
  split_ifs at htrailing ⊢ with hgap hend hclose
  · exact ⟨hnext, fun event hevent => absurd hevent List.not_mem_nil⟩
  · rw [endsCommand_eq_false hc] at hend
    cases hend
  · exact pop_good hclose.2 h hwords rest
  · exact hread htrailing

theorem stepText_past (h : Past queries top words outer) (hopen : mode.isOpen = true)
    (hc : Checked queries assigned (c :: rest))
    (htrailing : .trailing ∉ (Reader.stepText ⟨⟨mode, words, word⟩, outer, none⟩ c).2) :
    Good queries assigned top (Reader.stepText ⟨⟨mode, words, word⟩, outer, none⟩ c).1 rest ∧
      ∀ event ∈ (Reader.stepText ⟨⟨mode, words, word⟩, outer, none⟩ c).2,
        Allowed queries assigned event := by
  have hnone {event : Event} (hevent : event ∈ ([] : List Event)) :
      Allowed queries assigned event := absurd hevent List.not_mem_nil
  cases mode with
  | start => cases hopen
  | comment escaped => cases hopen
  | gap =>
    obtain ⟨hgood, hevents⟩ := @beginWord_good _ _ _ _ word _ _ _ h hc .gap
    refine endOr_good hc rfl h (.past h rfl) (fun _ => ⟨hgood, ?_⟩) htrailing
    intro event hevent
    rw [hevents] at hevent
    exact hnone hevent
  | bare =>
    obtain ⟨hgood, hevents⟩ := @inWord_good _ _ _ _ word _ .bare _ _ h rfl hc .bare
    refine endOr_good hc rfl (h.append _) (.past (h.append _) rfl) (fun _ => ⟨hgood, ?_⟩)
      htrailing
    intro event hevent
    rw [hevents] at hevent
    exact hnone hevent
  | quoted =>
    by_cases hquote : c = '"'
    · have hstep : Reader.stepText ⟨⟨.quoted, words, word⟩, outer, none⟩ c =
          (⟨⟨.closed, words, word⟩, outer, none⟩, []) := if_pos hquote
      rw [hstep]
      exact ⟨.past h rfl, fun event hevent => hnone hevent⟩
    · have hstep : Reader.stepText ⟨⟨.quoted, words, word⟩, outer, none⟩ c =
          Reader.inWord .quoted ⟨⟨.quoted, words, word⟩, outer, none⟩ c := if_neg hquote
      obtain ⟨hgood, hevents⟩ := @inWord_good _ _ _ _ word _ .quoted _ _ h rfl hc .quoted
      rw [hstep, hevents]
      exact ⟨hgood, fun event hevent => hnone hevent⟩
  | closed =>
    exact endOr_good hc rfl (h.append _) (.past (h.append _) rfl)
      (fun hread => absurd (List.mem_singleton.mpr rfl) hread) htrailing

theorem ne_of_name {d : Char} (hc : isNameChar c = true) (hd : isNameChar d = false) : c ≠ d := by
  rintro rfl
  rw [hc] at hd
  cases hd

theorem gap_of_name (hc : isNameChar c = true) : isGap c = false ∧ endsCommand c = false := by
  constructor
  · by_contra hgap
    rw [Bool.not_eq_false] at hgap
    simp only [isGap, Bool.or_eq_true, decide_eq_true_eq] at hgap
    simp only [isNameChar, Bool.or_eq_true, decide_eq_true_eq, PyText.isAlphanum_iff] at hc
    rcases hgap with (((rfl | rfl) | rfl) | hgap) | hgap
    · revert hc
      decide
    · revert hc
      decide
    · revert hc
      decide
    · rcases hc with hc | rfl
      · omega
      · revert hgap
        decide
    · rcases hc with hc | rfl
      · omega
      · revert hgap
        decide
  · simp only [endsCommand, Bool.or_eq_false_iff, decide_eq_false_iff_not]
    exact ⟨ne_of_name hc (by decide), ne_of_name hc (by decide)⟩

theorem inWord_name (hc : isNameChar c = true) (reader : Reader) :
    Reader.inWord mode reader c =
      ({ reader with frame := ⟨mode, reader.frame.words, reader.frame.word.add c⟩ }, []) := by
  unfold Reader.inWord
  simp only
  rw [if_neg (ne_of_name hc (by decide)), if_neg (ne_of_name hc (by decide)),
    if_neg (ne_of_name hc (by decide))]

theorem beginWord_name (hc : isNameChar c = true) (reader : Reader) :
    reader.beginWord c =
      ({ reader with frame := ⟨.bare, reader.frame.words, .of [c]⟩ }, []) := by
  rw [Reader.beginWord, if_neg (ne_of_name hc (by decide)), if_neg (ne_of_name hc (by decide)),
    inWord_name hc]
  rfl

theorem endOr_name (hc : isNameChar c = true) (reader : Reader) (frame : Frame)
    (next : Reader × List Event) : reader.endOr c frame next = next := by
  obtain ⟨hgap, hend⟩ := gap_of_name hc
  rw [Reader.endOr, hgap, hend, if_neg Bool.false_ne_true, if_neg Bool.false_ne_true, if_neg]
  exact fun hclose => ne_of_name hc (by decide) hclose.1

theorem Ahead.cons_inv {nested : Bool} {name : List Char} {names : List (List Char)}
    (h : Ahead nested (name :: names) (c :: rest)) :
    (isGap c = true ∧ Ahead nested (name :: names) rest) ∨
      (isNameChar c = true ∧ ∃ more tail, name = c :: more ∧ rest = more ++ tail ∧
        (∀ d ∈ more, isNameChar d = true) ∧ EndsName nested tail ∧ Ahead nested names tail) := by
  generalize htext : c :: rest = text at h
  generalize hall : name :: names = all at h
  cases h with
  | nil => cases hall
  | @cons gap found tail others hgap hname hends hahead =>
    obtain ⟨rfl, rfl⟩ := List.cons.inj hall
    cases gap with
    | nil =>
      obtain ⟨d, more, rfl⟩ := List.exists_cons_of_ne_nil hname.1
      obtain ⟨rfl, rfl⟩ := List.cons.inj htext
      obtain ⟨hd, hmore⟩ := List.forall_mem_cons.mp hname.2
      exact .inr ⟨hd, more, tail, rfl, rfl, hmore, hends, hahead⟩
    | cons d gap =>
      obtain ⟨rfl, rfl⟩ := List.cons.inj htext
      obtain ⟨hd, hmore⟩ := List.forall_mem_cons.mp hgap
      exact .inl ⟨hd, .cons hmore hname hends hahead⟩

theorem stepText_ahead {frame : Frame} {names : List (List Char)}
    (h : Around queries top outer names) (hne : names ≠ [])
    (hstage : Stage (!outer.isEmpty) names frame (c :: rest)) :
    Good queries assigned top (Reader.stepText ⟨frame, outer, none⟩ c).1 rest ∧
      ∀ event ∈ (Reader.stepText ⟨frame, outer, none⟩ c).2,
        Allowed queries assigned event := by
  have hnone : ∀ event ∈ ([] : List Event), Allowed queries assigned event :=
    fun event hevent => absurd hevent List.not_mem_nil
  generalize htext : c :: rest = text at hstage
  cases hstage with
  | start hahead =>
    obtain ⟨name, others, rfl⟩ := List.exists_cons_of_ne_nil hne
    rw [← htext] at hahead
    rcases hahead.cons_inv with ⟨hgap, hahead⟩ | ⟨hc, more, tail, rfl, rfl, hmore, hends, hahead⟩
    · have hstep : Reader.stepText ⟨.fresh, outer, none⟩ c = (⟨.fresh, outer, none⟩, []) :=
        if_pos (.inl hgap)
      rw [hstep]
      exact ⟨.ahead h hne (.start hahead), hnone⟩
    · obtain ⟨hgap, hend⟩ := gap_of_name hc
      have hstep : Reader.stepText ⟨.fresh, outer, none⟩ c =
          (⟨⟨.bare, [], .of [c]⟩, outer, none⟩, []) := by
        show (if _ then _ else _) = _
        rw [if_neg (by rw [hgap, hend]; simp), if_neg (ne_of_name hc (by decide)),
          if_neg (fun hclose => ne_of_name hc (by decide) hclose.1), beginWord_name hc]
        rfl
      rw [hstep]
      have hstage : Stage (!outer.isEmpty) (([c] ++ more) :: others)
          ⟨.bare, [].map .of, .of [c]⟩ (more ++ tail) := .within rfl hmore hends hahead
      exact ⟨.ahead h hne hstage, hnone⟩
  | @between done todo _ hnames htodo hahead =>
    obtain ⟨name, others, rfl⟩ := List.exists_cons_of_ne_nil htodo
    rw [← htext] at hahead
    rcases hahead.cons_inv with ⟨hgap, hahead⟩ | ⟨hc, more, tail, rfl, rfl, hmore, hends, hahead⟩
    · have hstep : Reader.stepText ⟨⟨.gap, done.map .of, .empty⟩, outer, none⟩ c =
          (⟨⟨.gap, done.map .of, .empty⟩, outer, none⟩, []) := if_pos hgap
      rw [hstep]
      exact ⟨.ahead h hne (.between hnames htodo hahead), hnone⟩
    · have hstep : Reader.stepText ⟨⟨.gap, done.map .of, .empty⟩, outer, none⟩ c =
          (⟨⟨.bare, done.map .of, .of [c]⟩, outer, none⟩, []) := by
        show Reader.endOr _ _ _ _ = _
        rw [endOr_name hc, beginWord_name hc]
      rw [hstep]
      have hletters : names = done ++ ([c] ++ more) :: others := hnames
      exact ⟨.ahead h hne (.within hletters hmore hends hahead), hnone⟩
  | @within done todo letters more tail hnames hmore hends hahead =>
    cases more with
    | cons d more =>
      obtain ⟨rfl, rfl⟩ := List.cons.inj htext
      obtain ⟨hc, hmore⟩ := List.forall_mem_cons.mp hmore
      have hstep : Reader.stepText ⟨⟨.bare, done.map .of, .of letters⟩, outer, none⟩ c =
          (⟨⟨.bare, done.map .of, .of (letters ++ [c])⟩, outer, none⟩, []) := by
        show Reader.endOr _ _ _ _ = _
        rw [endOr_name hc, inWord_name hc]
        rfl
      rw [hstep]
      have hletters : names = done ++ ((letters ++ [c]) ++ more) :: todo := by
        rw [hnames, List.append_assoc, List.singleton_append]
      exact ⟨.ahead h hne (.within hletters hmore hends hahead), hnone⟩
    | nil =>
      rw [List.append_nil] at hnames
      rw [List.nil_append] at htext
      subst htext
      -- the word is one of the names, and the last of them unless others are ahead
      have hwords : done.map Word.of ++ [Word.of letters] = (done ++ [letters]).map .of := by
        rw [List.map_append, List.map_singleton]
      rcases hends c rfl with hgap | ⟨hnested, rfl⟩
      · have hstep : Reader.stepText ⟨⟨.bare, done.map .of, .of letters⟩, outer, none⟩ c =
            (⟨⟨.gap, (done ++ [letters]).map .of, .empty⟩, outer, none⟩, []) := by
          show Reader.endOr _ _ _ _ = _
          rw [Reader.endOr, if_pos hgap, Frame.endWord, hwords]
        rw [hstep]
        cases todo with
        | nil =>
          refine ⟨.past (h.past ?_) rfl, hnone⟩
          rw [hnames]
        | cons name todo =>
          rcases hahead.cons_inv with ⟨-, hahead⟩ | ⟨hc, -⟩
          · refine ⟨.ahead h hne (.between ?_ (List.cons_ne_nil _ _) hahead), hnone⟩
            rw [hnames, List.append_assoc, List.singleton_append]
          · rw [(gap_of_name hc).1] at hgap
            cases hgap
      · have houter : outer ≠ [] := by
          rintro rfl
          cases hnested
        have hstep : Reader.stepText ⟨⟨.bare, done.map .of, .of letters⟩, outer, none⟩ ']' =
            (Reader.pop ⟨⟨.bare, done.map .of, .of letters⟩, outer, none⟩,
              Reader.ended ⟨⟨.bare, done.map .of, .of letters⟩, outer, none⟩) := by
          show Reader.endOr _ _ _ _ = _
          rw [Reader.endOr, if_neg (by decide), if_neg (by decide), if_pos ⟨rfl, houter⟩]
        rw [hstep]
        cases todo with
        | nil =>
          have hpast : Past queries top ((done ++ [letters]).map .of) outer := by
            apply h.past
            rw [hnames]
          have hcommand : Frame.command? ⟨.bare, done.map .of, .of letters⟩ =
              some ((done ++ [letters]).map .of) := congrArg some hwords
          exact pop_good houter hpast hcommand rest
        | cons name todo =>
          rcases hahead.cons_inv with ⟨hgap, -⟩ | ⟨hc, -⟩
          · cases hgap
          · cases hc

theorem step_good {reader : Reader} (h : Good queries assigned top reader (c :: rest))
    (hc : Checked queries assigned (c :: rest)) (htrailing : .trailing ∉ (step reader c).2) :
    Good queries assigned top (step reader c).1 rest ∧
      ∀ event ∈ (step reader c).2, Allowed queries assigned event := by
  generalize htext : c :: rest = text at h
  cases h with
  | past hpast hopen => exact stepText_past hpast hopen hc htrailing
  | ahead haround hne hstage =>
    subst htext
    exact stepText_ahead haround hne hstage
  | @reading mode words word outer name _ hpast hopen hreads =>
    subst htext
    obtain ⟨more, tail, htext, hmore, hmem, hname, htail⟩ := hreads
    by_cases hletter : isNameChar c = true
    · have hstep : step ⟨⟨mode, words, word⟩, outer, some name⟩ c =
          (⟨⟨mode, words, word⟩, outer, some (name ++ [c])⟩, []) := if_pos hletter
      rw [hstep]
      refine ⟨.reading hpast hopen ?_, fun event hevent => absurd hevent List.not_mem_nil⟩
      cases more with
      | nil =>
        rw [List.nil_append] at htext
        subst htext
        rw [(htail c rfl).1] at hletter
        cases hletter
      | cons d more =>
        obtain ⟨rfl, rfl⟩ := List.cons.inj htext
        refine ⟨more, tail, rfl, (List.forall_mem_cons.mp hmore).2, ?_, ?_, htail⟩
        · rwa [List.append_assoc, List.singleton_append]
        · simp
    · have hstep : step ⟨⟨mode, words, word⟩, outer, some name⟩ c =
          ((Reader.stepText ⟨⟨mode, words, word⟩, outer, none⟩ c).1,
            readEvent name c :: (Reader.stepText ⟨⟨mode, words, word⟩, outer, none⟩ c).2) :=
        if_neg hletter
      cases more with
      | cons d more =>
        obtain ⟨rfl, -⟩ := List.cons.inj htext
        exact absurd (hmore c (List.mem_cons_self ..)) hletter
      | nil =>
        rw [List.nil_append] at htext
        subst htext
        rw [List.append_nil] at hmem hname
        have hevent : readEvent name c = .read name := by
          rw [readEvent, if_neg]
          rw [(htail c rfl).2]
          simp [hname]
        rw [hstep] at htrailing ⊢
        obtain ⟨hgood, hevents⟩ := stepText_past hpast hopen hc
          fun hmem => htrailing (List.mem_cons_of_mem _ hmem)
        refine ⟨hgood, List.forall_mem_cons.mpr ⟨?_, hevents⟩⟩
        rw [hevent]
        exact hmem

/-- A checked line does only what is allowed, as far as its quotations end their words. -/
theorem run_good {text : List Char} {reader : Reader} (h : Good queries assigned top reader text)
    (hc : Checked queries assigned text) (htrailing : .trailing ∉ (run reader text).2) :
    Good queries assigned top (run reader text).1 [] ∧
      ∀ event ∈ (run reader text).2, Allowed queries assigned event := by
  induction text generalizing reader with
  | nil => exact ⟨h, fun event hevent => absurd hevent List.not_mem_nil⟩
  | cons c rest ih =>
    rw [run] at htrailing ⊢
    simp only [List.mem_append, not_or] at htrailing
    obtain ⟨hgood, hevents⟩ := step_good h hc htrailing.1
    obtain ⟨hlast, hrest⟩ := ih hgood hc.tail htrailing.2
    refine ⟨hlast, ?_⟩
    intro event hevent
    rcases List.mem_append.mp hevent with hevent | hevent
    · exact hevents event hevent
    · exact hrest event hevent

/-- A reader at the end of a line that is open nowhere has a command to run. -/
theorem Good.exists_command {reader : Reader} (h : Good queries assigned top reader [])
    (htop : top ≠ []) (houter : reader.outer = []) (hmode : reader.frame.mode ≠ .quoted) :
    ∃ words, reader.frame.command? = some words ∧ top.map .of <+: words := by
  have hnil {nested : Bool} {names : List (List Char)} (hahead : Ahead nested names []) :
      names = [] := by
    generalize htext : ([] : List Char) = text at hahead
    cases hahead with
    | nil => rfl
    | cons _ hname _ _ =>
      rw [eq_comm, List.append_eq_nil_iff, List.append_eq_nil_iff] at htext
      exact absurd htext.1.2 hname.1
  have hpast {mode : Mode} {words : List Word} {word : Word} (hwords : top.map .of <+: words)
      (hopen : mode.isOpen = true) (hmode : mode ≠ .quoted) :
      ∃ words', Frame.command? ⟨mode, words, word⟩ = some words' ∧ top.map .of <+: words' := by
    cases mode with
    | start => cases hopen
    | comment escaped => cases hopen
    | gap => exact ⟨words, rfl, hwords⟩
    | bare => exact ⟨words ++ [word], rfl, hwords.trans (List.prefix_append _ _)⟩
    | quoted => exact absurd rfl hmode
    | closed => exact ⟨words ++ [word], rfl, hwords.trans (List.prefix_append _ _)⟩
  generalize htext : ([] : List Char) = text at h
  cases h with
  | past h hopen =>
    subst houter
    cases h with
    | top hwords => exact hpast hwords hopen hmode
  | reading h hopen _ =>
    subst houter
    cases h with
    | top hwords => exact hpast hwords hopen hmode
  | ahead haround _ hstage =>
    subst houter
    cases haround with
    | top =>
      subst htext
      generalize htext : ([] : List Char) = text at hstage
      cases hstage with
      | start hahead => exact absurd (hnil (htext ▸ hahead)) htop
      | between _ htodo hahead => exact absurd (hnil (htext ▸ hahead)) htodo
      | @within done todo letters more tail hnames _ _ hahead =>
        obtain ⟨rfl, rfl⟩ := List.append_eq_nil_iff.mp htext.symm
        obtain rfl := hnil hahead
        refine ⟨done.map .of ++ [Word.of letters], rfl, ?_⟩
        rw [hnames, List.append_nil, List.map_append, List.map_singleton]

def IsEnding (ending : List Char) : Prop := ending = ['\n'] ∨ ending = ['\r', '\n']

instance {ending : List Char} : Decidable (IsEnding ending) :=
  inferInstanceAs (Decidable (ending = ['\n'] ∨ ending = ['\r', '\n']))

theorem run_ending {frame : Frame} {words : List Word} (hwords : frame.command? = some words)
    {ending : List Char} (hending : IsEnding ending) :
    run ⟨frame, [], none⟩ ending = (.ready, [.command false words]) := by
  have hnewline {frame : Frame} (hwords : frame.command? = some words) :
      Reader.stepText ⟨frame, [], none⟩ '\n' = (.ready, [.command false words]) := by
    obtain ⟨mode, before, word⟩ := frame
    have hended : Reader.ended ⟨⟨mode, before, word⟩, [], none⟩ = [.command false words] := by
      rw [Reader.ended, hwords]
      rfl
    rw [← hended]
    cases mode with
    | gap => rfl
    | bare => rfl
    | closed => rfl
    | start => cases hwords
    | comment escaped => cases hwords
    | quoted => cases hwords
  rcases hending with rfl | rfl
  · rw [run, show step ⟨frame, [], none⟩ '\n' = _ from hnewline hwords]
    rfl
  · have hreturn : ∃ next, Reader.stepText ⟨frame, [], none⟩ '\r' = (⟨next, [], none⟩, []) ∧
        next.command? = some words := by
      obtain ⟨mode, before, word⟩ := frame
      cases mode with
      | gap => exact ⟨_, rfl, hwords⟩
      | bare => exact ⟨_, rfl, hwords⟩
      | closed => exact ⟨_, rfl, hwords⟩
      | start => cases hwords
      | comment escaped => cases hwords
      | quoted => cases hwords
    obtain ⟨next, hstep, hnext⟩ := hreturn
    rw [run, show step ⟨frame, [], none⟩ '\r' = _ from hstep]
    simp only [List.nil_append]
    rw [run, show step ⟨next, [], none⟩ '\n' = _ from hnewline hnext]
    rfl

def ClosesItself (line : List Char) : Prop :=
  (run .ready line).1.outer = [] ∧ (run .ready line).1.frame.mode ≠ .quoted ∧
    .trailing ∉ (run .ready line).2

instance {line : List Char} : Decidable (ClosesItself line) :=
  inferInstanceAs (Decidable ((run .ready line).1.outer = [] ∧
    (run .ready line).1.frame.mode ≠ .quoted ∧ .trailing ∉ (run .ready line).2))

/-- A checked line that Tcl reads to its end runs its own command, and only what is allowed
before it. -/
theorem run_line {line ending : List Char} (htop : top ≠ []) (hahead : Ahead false top line)
    (hc : Checked queries assigned line) (hcloses : ClosesItself line)
    (hending : IsEnding ending) : ∃ before words,
      run .ready (line ++ ending) = (.ready, before ++ [Event.command false words]) ∧
      (∀ event ∈ before, Allowed queries assigned event) ∧ top.map .of <+: words ∧
      (run .ready line).1.frame.command? = some words := by
  obtain ⟨houter, hmode, htrailing⟩ := hcloses
  have hready : Good queries assigned top .ready line := .ahead .top htop (.start hahead)
  obtain ⟨hgood, hevents⟩ := run_good hready hc htrailing
  obtain ⟨words, hwords, hprefix⟩ := hgood.exists_command htop houter hmode
  rw [run_append]
  generalize (run .ready line).1 = reader at hgood houter hwords
  obtain ⟨frame, outer, reading⟩ := reader
  obtain rfl : outer = [] := houter
  cases reading with
  | none =>
    rw [run_ending hwords hending]
    exact ⟨_, words, rfl, hevents, hprefix, hwords⟩
  | some name =>
    have hname : name ∈ assigned ∧ name ≠ [] := by
      cases hgood with
      | reading _ _ hreads =>
        obtain ⟨more, tail, htext, -, hmem, hne, -⟩ := hreads
        obtain ⟨rfl, rfl⟩ := List.append_eq_nil_iff.mp htext.symm
        rw [List.append_nil] at hmem hne
        exact ⟨hmem, hne⟩
    have hrun : run ⟨frame, [], some name⟩ ending =
        (.ready, [Event.read name] ++ [Event.command false words]) := by
      have h := run_ending hwords hending
      rcases hending with rfl | rfl
      · have hevent : readEvent name '\n' = .read name := if_neg (by simp [hname.2])
        rw [run] at h ⊢
        rw [show step ⟨frame, [], some name⟩ '\n' =
          ((step ⟨frame, [], none⟩ '\n').1, readEvent name '\n' :: (step ⟨frame, [], none⟩ '\n').2)
          from rfl, hevent]
        obtain ⟨hreader, hmore⟩ := Prod.mk.inj h
        exact Prod.ext hreader (congrArg (List.cons _) hmore)
      · have hevent : readEvent name '\r' = .read name := if_neg (by simp [hname.2])
        rw [run] at h ⊢
        rw [show step ⟨frame, [], some name⟩ '\r' =
          ((step ⟨frame, [], none⟩ '\r').1, readEvent name '\r' :: (step ⟨frame, [], none⟩ '\r').2)
          from rfl, hevent]
        obtain ⟨hreader, hmore⟩ := Prod.mk.inj h
        exact Prod.ext hreader (congrArg (List.cons _) hmore)
    rw [hrun]
    refine ⟨(run .ready line).2 ++ [Event.read name], words, ?_, ?_, hprefix, hwords⟩
    · rw [List.append_assoc]
    · intro event hevent
      rcases List.mem_append.mp hevent with hevent | hevent
      · exact hevents event hevent
      · rw [List.mem_singleton.mp hevent]
        exact hname.1

end Checked

section Counting

def Reader.bottom (reader : Reader) : Frame := reader.outer.getLast?.getD reader.frame

def Frame.count (frame : Frame) : ℕ :=
  frame.words.length + if [Mode.bare, .quoted, .closed].contains frame.mode then 1 else 0

theorem Frame.count_of_command {frame : Frame} {words : List Word}
    (h : frame.command? = some words) : words.length = frame.count := by
  obtain ⟨mode, before, word⟩ := frame
  cases mode with
  | gap => exact congrArg List.length (Option.some.inj h).symm
  | bare => rw [← Option.some.inj h, List.length_append]; rfl
  | closed => rw [← Option.some.inj h, List.length_append]; rfl
  | start => cases h
  | comment escaped => cases h
  | quoted => cases h

structure Grows (frame frame' : Frame) : Prop where
  isOpen : frame'.mode.isOpen = true
  count : frame.count ≤ frame'.count

theorem grows_of_words {mode mode' : Mode} {words : List Word} (word word' : Word)
    (hmode : [Mode.bare, .quoted, .closed].contains mode' = true) :
    Grows ⟨mode, words, word⟩ ⟨mode', words, word'⟩ where
  isOpen := by
    show mode'.isOpen = true
    cases mode' <;> first | rfl | cases hmode
  count := by
    rw [Frame.count, Frame.count, hmode, if_pos rfl]
    split_ifs <;> simp

theorem bottom_cons (frame frame' next : Frame) {outer : List Frame} (houter : outer ≠ [])
    (reading reading' : Option (List Char)) :
    Reader.bottom ⟨frame, next :: outer, reading⟩ = Reader.bottom ⟨frame', outer, reading'⟩ := by
  obtain ⟨after, rest, rfl⟩ := List.exists_cons_of_ne_nil houter
  rw [Reader.bottom, Reader.bottom, List.getLast?_cons_cons, List.getLast?_eq_some_getLast
    (List.cons_ne_nil after rest)]
  rfl

theorem bottom_nested (frame frame' : Frame) {outer : List Frame} (houter : outer ≠ [])
    (reading reading' : Option (List Char)) :
    Reader.bottom ⟨frame, outer, reading⟩ = Reader.bottom ⟨frame', outer, reading'⟩ := by
  rw [Reader.bottom, Reader.bottom, List.getLast?_eq_some_getLast houter]
  rfl

theorem bottom_pop (frame : Frame) {outer : List Frame} (houter : outer ≠ [])
    (reading : Option (List Char)) :
    (Reader.pop ⟨frame, outer, reading⟩).bottom = Reader.bottom ⟨frame, outer, reading⟩ := by
  obtain ⟨next, rest, rfl⟩ := List.exists_cons_of_ne_nil houter
  cases rest with
  | nil => rfl
  | cons after rest => exact (bottom_cons frame next next (List.cons_ne_nil _ _) _ _).symm

theorem inWord_nested (mode : Mode) {reader : Reader} (c : Char) (houter : reader.outer ≠ []) :
    (Reader.inWord mode reader c).1.bottom = reader.bottom := by
  unfold Reader.inWord
  simp only
  split_ifs
  · exact bottom_nested _ _ houter _ _
  · exact bottom_cons _ _ _ houter _ _
  · exact bottom_nested _ _ houter _ _
  · exact bottom_nested _ _ houter _ _

theorem beginWord_nested {reader : Reader} (c : Char) (houter : reader.outer ≠ []) :
    (reader.beginWord c).1.bottom = reader.bottom := by
  unfold Reader.beginWord
  split_ifs
  · exact bottom_nested _ _ houter _ _
  · exact bottom_nested _ _ houter _ _
  · have hword := @inWord_nested .bare
      ⟨⟨.bare, reader.frame.words, .empty⟩, reader.outer, reader.reading⟩ c houter
    exact hword.trans (bottom_nested _ _ houter _ _)

theorem endOr_nested {reader : Reader} (c : Char) (frame : Frame) {next : Reader × List Event}
    (houter : reader.outer ≠ []) (hnext : next.1.bottom = reader.bottom) :
    (reader.endOr c frame next).1.bottom = reader.bottom := by
  unfold Reader.endOr
  split_ifs
  · exact bottom_nested _ _ houter _ _
  · exact bottom_nested _ _ houter _ _
  · exact bottom_pop _ houter _
  · exact hnext

theorem stepText_nested {reader : Reader} (c : Char) (houter : reader.outer ≠ []) :
    (reader.stepText c).1.bottom = reader.bottom := by
  unfold Reader.stepText
  split
  · split_ifs
    · rfl
    · exact bottom_nested _ _ houter _ _
    · exact bottom_pop _ houter _
    · exact beginWord_nested c houter
  · split_ifs
    · exact bottom_nested _ _ houter _ _
    · exact bottom_nested _ _ houter _ _
  · exact endOr_nested c _ houter (beginWord_nested c houter)
  · exact endOr_nested c _ houter (inWord_nested .bare c houter)
  · split_ifs
    · exact bottom_nested _ _ houter _ _
    · exact inWord_nested .quoted c houter
  · exact endOr_nested c _ houter (bottom_nested _ _ houter _ _)

theorem inWord_grows {mode mode' : Mode} (words : List Word) (word : Word) (c : Char)
    (reading : Option (List Char))
    (hmode : [Mode.bare, .quoted, .closed].contains mode' = true) :
    Grows ⟨mode, words, word⟩
      (Reader.inWord mode' ⟨⟨mode, words, word⟩, [], reading⟩ c).1.bottom := by
  unfold Reader.inWord
  simp only
  split_ifs
  · exact grows_of_words _ _ hmode
  · exact grows_of_words _ _ hmode
  · exact grows_of_words _ _ hmode
  · exact grows_of_words _ _ hmode

theorem beginWord_grows {mode : Mode} (words : List Word) (word : Word) (c : Char)
    (reading : Option (List Char)) :
    Grows ⟨mode, words, word⟩
      (Reader.beginWord ⟨⟨mode, words, word⟩, [], reading⟩ c).1.bottom := by
  unfold Reader.beginWord
  split_ifs
  · exact grows_of_words _ _ rfl
  · exact grows_of_words _ _ rfl
  · have hfirst : Grows ⟨mode, words, word⟩ ⟨.bare, words, .empty⟩ := grows_of_words _ _ rfl
    have hnext := @inWord_grows .bare .bare words .empty c reading rfl
    exact ⟨hnext.isOpen, hfirst.count.trans hnext.count⟩

theorem endOr_grows {frame frame' : Frame} {c : Char} {next : Reader × List Event}
    (hc : endsCommand c = false) (hframe : Grows frame frame')
    (hnext : Grows frame next.1.bottom) :
    Grows frame (Reader.endOr ⟨frame, [], none⟩ c frame' next).1.bottom := by
  unfold Reader.endOr
  split_ifs with hgap hend hclose
  · exact hframe
  · rw [hc] at hend
    cases hend
  · exact absurd rfl hclose.2
  · exact hnext

theorem stepText_grows {frame : Frame} {c : Char} (hopen : frame.mode.isOpen = true)
    (hc : endsCommand c = false) :
    Grows frame (Reader.stepText ⟨frame, [], none⟩ c).1.bottom := by
  obtain ⟨mode, words, word⟩ := frame
  have hend (mode : Mode) (hmode : [Mode.bare, .quoted, .closed].contains mode = true) :
      Grows ⟨mode, words, word⟩ (Frame.endWord ⟨mode, words, word⟩) := by
    refine ⟨rfl, ?_⟩
    rw [Frame.count, Frame.endWord, Frame.count, hmode, if_pos rfl, List.length_append]
    exact Nat.le_add_right _ _
  cases mode with
  | start => cases hopen
  | comment escaped => cases hopen
  | gap => exact endOr_grows hc ⟨rfl, le_refl _⟩ (beginWord_grows words word c none)
  | bare => exact endOr_grows hc (hend .bare rfl) (inWord_grows words word c none rfl)
  | quoted =>
    unfold Reader.stepText
    simp only
    split_ifs
    · exact grows_of_words _ _ rfl
    · exact inWord_grows words word c none rfl
  | closed => exact endOr_grows hc (hend .closed rfl) (grows_of_words _ _ rfl)

theorem step_grows {reader : Reader} {c : Char} (hopen : reader.bottom.mode.isOpen = true)
    (hc : endsCommand c = false) : Grows reader.bottom (step reader c).1.bottom := by
  obtain ⟨frame, outer, reading⟩ := reader
  have hsame : ∀ reading', Grows (Reader.bottom ⟨frame, outer, reading⟩)
      (Reader.bottom ⟨frame, outer, reading'⟩) := fun _ => ⟨hopen, le_refl _⟩
  have htext : Grows (Reader.bottom ⟨frame, outer, reading⟩)
      (Reader.stepText ⟨frame, outer, none⟩ c).1.bottom := by
    by_cases houter : outer = []
    · subst houter
      exact stepText_grows hopen hc
    · rw [stepText_nested c houter]
      exact hsame none
  cases reading with
  | none => exact htext
  | some name =>
    unfold step
    simp only
    split_ifs
    · exact hsame _
    · exact htext

theorem run_grows {text : List Char} {reader : Reader} (hopen : reader.bottom.mode.isOpen = true)
    (htext : ∀ c ∈ text, endsCommand c = false) : Grows reader.bottom (run reader text).1.bottom := by
  induction text generalizing reader with
  | nil => exact ⟨hopen, le_refl _⟩
  | cons c rest ih =>
    obtain ⟨hc, hrest⟩ := List.forall_mem_cons.mp htext
    have hstep := step_grows hopen hc
    have hlast := ih hstep.isOpen hrest
    exact ⟨hlast.isOpen, hstep.count.trans hlast.count⟩

theorem count_step_gap {words : List Word} {word : Word} {c : Char} (hgap : isGap c = false)
    (hc : endsCommand c = false) :
    words.length < (step ⟨⟨.gap, words, word⟩, [], none⟩ c).1.bottom.count ∧
      (step ⟨⟨.gap, words, word⟩, [], none⟩ c).1.bottom.mode.isOpen = true := by
  have hstep : step ⟨⟨.gap, words, word⟩, [], none⟩ c =
      Reader.beginWord ⟨⟨.gap, words, word⟩, [], none⟩ c := by
    show Reader.endOr _ _ _ _ = _
    rw [Reader.endOr, hgap, hc, if_neg Bool.false_ne_true, if_neg Bool.false_ne_true,
      if_neg fun hclose => hclose.2 rfl]
  rw [hstep]
  unfold Reader.beginWord Reader.inWord
  simp only
  split_ifs <;> exact ⟨Nat.lt_succ_self _, rfl⟩

theorem run_word {mode : Mode} {words : List Word} {gap name : List Char} {c : Char}
    (hmode : mode = .gap ∨ mode = .start ∧ words = []) (hgap : ∀ d ∈ gap, isGap d = true)
    (hname : IsName name) (hc : isGap c = true) :
    run ⟨⟨mode, words, .empty⟩, [], none⟩ (gap ++ name ++ [c]) =
      (⟨⟨.gap, words ++ [Word.of name], .empty⟩, [], none⟩, []) := by
  have hskip : run ⟨⟨mode, words, .empty⟩, [], none⟩ gap =
      (⟨⟨mode, words, .empty⟩, [], none⟩, []) := by
    induction gap with
    | nil => rfl
    | cons d gap ih =>
      obtain ⟨hd, hrest⟩ := List.forall_mem_cons.mp hgap
      have hstep : step ⟨⟨mode, words, .empty⟩, [], none⟩ d =
          (⟨⟨mode, words, .empty⟩, [], none⟩, []) := by
        rcases hmode with rfl | ⟨rfl, rfl⟩
        · exact if_pos hd
        · exact if_pos (.inl hd)
      rw [run, hstep]
      simp only [ih hrest, List.append_nil]
  have hletters : ∀ (letters : List Char) (begun : List Char), (∀ d ∈ letters, isNameChar d = true) →
      run ⟨⟨.bare, words, .of begun⟩, [], none⟩ (letters ++ [c]) =
        (⟨⟨.gap, words ++ [Word.of (begun ++ letters)], .empty⟩, [], none⟩, []) := by
    intro letters
    induction letters with
    | nil =>
      intro begun _
      have hstep : step ⟨⟨.bare, words, .of begun⟩, [], none⟩ c =
          (⟨⟨.gap, words ++ [Word.of begun], .empty⟩, [], none⟩, []) := if_pos hc
      rw [List.nil_append, run, hstep, List.append_nil]
      rfl
    | cons d letters ih =>
      intro begun hall
      obtain ⟨hd, hrest⟩ := List.forall_mem_cons.mp hall
      have hstep : step ⟨⟨.bare, words, .of begun⟩, [], none⟩ d =
          (⟨⟨.bare, words, .of (begun ++ [d])⟩, [], none⟩, []) := by
        show Reader.endOr _ _ _ _ = _
        rw [endOr_name hd, inWord_name hd]
        rfl
      rw [List.cons_append, run, hstep]
      simp only [ih _ hrest, List.append_assoc, List.singleton_append, List.nil_append]
  obtain ⟨d, letters, rfl⟩ := List.exists_cons_of_ne_nil hname.1
  obtain ⟨hd, hrest⟩ := List.forall_mem_cons.mp hname.2
  have hstep : step ⟨⟨mode, words, .empty⟩, [], none⟩ d =
      (⟨⟨.bare, words, .of [d]⟩, [], none⟩, []) := by
    rcases hmode with rfl | ⟨rfl, rfl⟩
    · show Reader.endOr _ _ _ _ = _
      rw [endOr_name hd, beginWord_name hd]
    · obtain ⟨hgap, hend⟩ := gap_of_name hd
      show (if _ then _ else _) = _
      rw [if_neg (by rw [hgap, hend]; simp), if_neg (ne_of_name hd (by decide)),
        if_neg (fun hclose => ne_of_name hd (by decide) hclose.1), beginWord_name hd]
  rw [List.append_assoc, run_append, hskip, List.cons_append, run]
  simp only [hstep, hletters letters [d] hrest, List.nil_append, List.singleton_append]

theorem run_spaces {words : List Word} {gap : List Char} (hgap : ∀ c ∈ gap, isGap c = true) :
    run ⟨⟨.gap, words, .empty⟩, [], none⟩ gap = (⟨⟨.gap, words, .empty⟩, [], none⟩, []) := by
  induction gap with
  | nil => rfl
  | cons c gap ih =>
    obtain ⟨hc, hrest⟩ := List.forall_mem_cons.mp hgap
    rw [run, show step ⟨⟨.gap, words, .empty⟩, [], none⟩ c =
      (⟨⟨.gap, words, .empty⟩, [], none⟩, []) from if_pos hc]
    simp only [ih hrest, List.append_nil]

/-- Two names with something behind them are the first of at least three words. -/
theorem two_lt_count {before first between second after back : List Char} {b b' c : Char}
    (hbefore : ∀ d ∈ before, isGap d = true) (hfirst : IsName first) (hb : isGap b = true)
    (hbetween : ∀ d ∈ between, isGap d = true) (hsecond : IsName second) (hb' : isGap b' = true)
    (hafter : ∀ d ∈ after, isGap d = true) (hc : isGap c = false)
    (hback : ∀ d ∈ c :: back, endsCommand d = false) :
    2 < (run .ready ((before ++ first ++ [b]) ++ ((between ++ second ++ [b']) ++
      (after ++ c :: back)))).1.bottom.count := by
  have hword := @run_word .start [] _ _ _ (.inr ⟨rfl, rfl⟩) hbefore hfirst hb
  have hword' := @run_word .gap [.of first] _ _ _ (.inl rfl) hbetween hsecond hb'
  obtain ⟨hend, hback⟩ := List.forall_mem_cons.mp hback
  obtain ⟨hcount, hopen⟩ :=
    @count_step_gap [.of first, .of second] .empty _ hc hend
  rw [run_append, run_append]
  simp only
  rw [show run .ready (before ++ first ++ [b]) = _ from hword]
  simp only [List.nil_append]
  rw [hword', run_append]
  simp only [List.singleton_append]
  rw [run_spaces hafter, run]
  exact hcount.trans_le (run_grows hopen hback).count

end Counting

section Skipped

theorem run_gap {text : List Char} (h : ∀ c ∈ text, isGap c = true ∨ endsCommand c = true) :
    run .ready text = (.ready, []) := by
  induction text with
  | nil => rfl
  | cons c rest ih =>
    obtain ⟨hc, hrest⟩ := List.forall_mem_cons.mp h
    rw [run, show step .ready c = (.ready, []) from if_pos hc]
    simp only [ih hrest, List.append_nil]

def escapes (escaped : Bool) (text : List Char) : Bool :=
  text.foldl (fun escaped c => c = '\\' && !escaped) escaped

theorem run_comment {text ending : List Char} {escaped : Bool} (htext : '\n' ∉ text)
    (hescapes : escapes escaped text = false) (hending : IsEnding ending) :
    run ⟨⟨.comment escaped, [], .empty⟩, [], none⟩ (text ++ ending) = (.ready, []) := by
  induction text generalizing escaped with
  | nil =>
    obtain rfl : escaped = false := hescapes
    rcases hending with rfl | rfl <;> rfl
  | cons c rest ih =>
    have hc : c ≠ '\n' := fun h => htext (h ▸ List.mem_cons_self ..)
    rw [List.cons_append, run, show step ⟨⟨.comment escaped, [], .empty⟩, [], none⟩ c =
      (⟨⟨.comment (c = '\\' && !escaped), [], .empty⟩, [], none⟩, []) from
      if_neg fun h => hc h.1]
    simp only [List.nil_append]
    exact ih (fun h => htext (List.mem_cons_of_mem _ h)) hescapes

theorem run_commentLine {gap text ending : List Char} (hgap : ∀ c ∈ gap, isGap c = true)
    (htext : '\n' ∉ text) (hescapes : escapes false (gap ++ '#' :: text) = false)
    (hending : IsEnding ending) :
    run .ready (gap ++ '#' :: text ++ ending) = (.ready, []) := by
  have hskip : escapes false (gap ++ '#' :: text) = escapes false text := by
    induction gap with
    | nil => rfl
    | cons c gap ih =>
      obtain ⟨hc, hrest⟩ := List.forall_mem_cons.mp hgap
      have hslash : c ≠ '\\' := by
        rintro rfl
        cases hc
      rw [List.cons_append, escapes, List.foldl_cons, decide_eq_false hslash, Bool.false_and,
        ← escapes]
      refine ih hrest ?_
      rwa [List.cons_append, escapes, List.foldl_cons, decide_eq_false hslash, Bool.false_and,
        ← escapes] at hescapes
  rw [List.append_assoc, run_append, run_gap fun c hc => .inl (hgap c hc), List.nil_append,
    List.cons_append, run]
  simp only
  rw [show step .ready '#' = (⟨⟨.comment false, [], .empty⟩, [], none⟩, []) from rfl]
  simp only [List.nil_append]
  rw [run_comment htext (hskip ▸ hescapes) hending]

end Skipped

example : script "set a 1\n[list \"$a b\"] c # d".toList =
    [.command false [.of "set".toList, .of "a".toList, .of "1".toList], .read "a".toList,
      .command true [.of "list".toList, ⟨" b".toList, false⟩],
      .command false [⟨[], false⟩, .of "c".toList, .of "#".toList, .of "d".toList]] := by
  decide

end TclReader
