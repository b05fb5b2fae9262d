import OpenADA.Library.SpiceText
import OpenADA.Library.TclReader
import OpenADA.Sta.Sdc

/-! What Tcl runs of an accepted constraint file. -/
namespace OpenADA.Sta

open PyText TclReader

section Claims

/-- A run of allowed commands and queries, in which every variable that is read was set before, and
whose commands at the top level are the given ones. -/
inductive Sandboxed : List Name → List Name → List Event → Prop where
  | nil {assigned : List Name} : Sandboxed assigned [] []
  | read {assigned names : List Name} {name : Name} {rest : List Event} : name ∈ assigned →
      Sandboxed assigned names rest → Sandboxed assigned names (.read name :: rest)
  | query {assigned names : List Name} {name : Name} {words : List Word} {rest : List Event} :
      name ∈ queries → words.head? = some (.of name) → Sandboxed assigned names rest →
      Sandboxed assigned names (.command true words :: rest)
  | command {assigned names : List Name} {name : Name} {words : List Word} {rest : List Event} :
      name ∈ tops → name ≠ "set".toList → words.head? = some (.of name) →
      Sandboxed assigned names rest →
      Sandboxed assigned (name :: names) (.command false words :: rest)
  | set {assigned names : List Name} {target : Name} {value : Word} {words : List Word}
      {rest : List Event} : sdcVariableIsReserved target = false →
      Sandboxed (assigned ++ [target]) names rest →
      Sandboxed assigned ("set".toList :: names)
        (.command false (.of "set".toList :: .of target :: value :: words) :: rest)

variable (wordClass : WordClass)

def commandNames (lines : List (List Char)) : List Name :=
  (lines.filter isCommandLine).filterMap fun line => sdcCommand wordClass (strip line)

def afterName (text : List Char) : List Char := (lstrip isSpace text).dropWhile isIdentChar

def TclMargin (text : List Char) : Prop := ∀ c ∈ text.takeWhile isSpace, isGap c = true

/-- A command line that Tcl reads as it is checked: a space follows the name of its command and of
every query, or the bracket that closes the query, and its quotations and brackets end in it. -/
structure CommandLike (line : List Char) : Prop where
  command : EndsName false (afterName line)
  query : ∀ before after, line = before ++ '[' :: after →
    TclMargin after ∧ EndsName true (afterName after)
  closes : ClosesItself line

structure LineLike (line : List Char) : Prop where
  margin : TclMargin line
  comment : (strip line).head? = some '#' → escapes false line = false
  command : isCommandLine line = true → CommandLike line

structure TclLike (text : List Char) : Prop where
  breaks : ∀ broken ∈ breakLines [] text, broken.2 = [] ∨ IsEnding broken.2
  lines : ∀ line ∈ splitLines text, LineLike line

instance {text : List Char} : Decidable (TclMargin text) :=
  decidable_of_iff ((text.takeWhile isSpace).all isGap = true) List.all_eq_true

instance {line : List Char} : Decidable (CommandLike line) :=
  decidable_of_iff (EndsName false (afterName line) ∧ (∀ tail ∈ line.tails, tail.head? = some '[' →
    TclMargin tail.tail ∧ EndsName true (afterName tail.tail)) ∧ ClosesItself line) <| by
  constructor
  · rintro ⟨hcommand, hquery, hcloses⟩
    refine ⟨hcommand, ?_, hcloses⟩
    intro before after hline
    refine hquery ('[' :: after) ?_ rfl
    rw [List.mem_tails]
    exact ⟨before, hline.symm⟩
  · rintro ⟨hcommand, hquery, hcloses⟩
    refine ⟨hcommand, ?_, hcloses⟩
    intro tail htail hopen
    obtain ⟨before, hline⟩ := (List.mem_tails _ _).mp htail
    obtain ⟨after, rfl⟩ := List.head?_eq_some_iff.mp hopen
    exact hquery before after hline.symm

instance {line : List Char} : Decidable (LineLike line) :=
  decidable_of_iff (TclMargin line ∧ ((strip line).head? = some '#' → escapes false line = false) ∧
    (isCommandLine line = true → CommandLike line))
    ⟨fun ⟨hmargin, hcomment, hcommand⟩ => ⟨hmargin, hcomment, hcommand⟩,
      fun ⟨hmargin, hcomment, hcommand⟩ => ⟨hmargin, hcomment, hcommand⟩⟩

instance {text : List Char} : Decidable (TclLike text) :=
  decidable_of_iff ((∀ broken ∈ breakLines [] text, broken.2 = [] ∨ IsEnding broken.2) ∧
    ∀ line ∈ splitLines text, LineLike line)
    ⟨fun ⟨hbreaks, hlines⟩ => ⟨hbreaks, hlines⟩, fun ⟨hbreaks, hlines⟩ => ⟨hbreaks, hlines⟩⟩

end Claims

section Scanning

theorem isSpace_of_ident {c : Char} (h : isIdentChar c = true) : isSpace c = false := by
  rw [isIdentChar, Bool.or_eq_true, decide_eq_true_eq] at h
  rcases h with h | rfl
  · exact isSpace_eq_false_of_alnum h
  · rfl

/-- The identifier a text starts with, which no more of its characters follow. -/
theorem identifier_eq_some {text name rest : List Char} (h : identifier text = some (name, rest)) :
    text = name ++ rest ∧ IsName name ∧ ∀ c ∈ rest.head?, isIdentChar c = false := by
  unfold identifier at h
  split at h
  next c tail =>
    split_ifs at h with hstart
    obtain ⟨rfl, rfl⟩ := Prod.mk.inj (Option.some.inj h)
    have hc : isIdentChar c = true := by
      rw [isIdentChar, Char.isAlphanum]
      rw [Bool.or_eq_true] at hstart
      rcases hstart with hstart | hstart
      · rw [hstart, Bool.true_or, Bool.true_or]
      · rw [hstart, Bool.or_true]
    refine ⟨List.takeWhile_append_dropWhile.symm, ⟨?_, ?_⟩, ?_⟩
    · rw [List.takeWhile_cons, hc]
      exact List.cons_ne_nil _ _
    · exact fun d hd => List.mem_takeWhile_imp hd
    · intro d hd
      have hnot := List.head?_dropWhile_not isIdentChar (c :: tail)
      rw [Option.mem_def.mp hd] at hnot
      simpa using hnot
  · cases h

structure StartsWith (text : List Char) (gap name after : List Char) : Prop where
  split : text = gap ++ name ++ after
  gap : ∀ c ∈ gap, isSpace c = true
  name : IsName name
  ends : ∀ c ∈ after.head?, isIdentChar c = false

theorem StartsWith.afterName_eq {text gap name after : List Char}
    (h : StartsWith text gap name after) : afterName text = after := by
  obtain ⟨rfl, hgap, ⟨hne, hname⟩, hends⟩ := h
  obtain ⟨c, more, rfl⟩ := List.exists_cons_of_ne_nil hne
  have hname : ∀ d ∈ c :: more, isIdentChar d = true := hname
  have hc := isSpace_of_ident (hname c (List.mem_cons_self ..))
  rw [afterName, lstrip, List.append_assoc, List.dropWhile_append_of_pos hgap, List.cons_append,
    List.dropWhile_cons_of_neg (by rw [hc]; simp), ← List.cons_append,
    List.dropWhile_append_of_pos hname]
  cases after with
  | nil => rfl
  | cons d rest => exact List.dropWhile_cons_of_neg (by rw [hends d rfl]; simp)

theorem StartsWith.append {text gap name after : List Char} (h : StartsWith text gap name after)
    {more : List Char} (hmore : ∀ c ∈ more.head?, isIdentChar c = false) :
    StartsWith (text ++ more) gap name (after ++ more) where
  split := by rw [h.split, List.append_assoc]
  gap := h.gap
  name := h.name
  ends := by
    intro c hc
    cases hafter : after with
    | nil =>
      rw [hafter] at hc
      exact hmore c hc
    | cons d rest =>
      rw [hafter] at hc
      exact h.ends c (by rw [hafter]; exact hc)

theorem exists_strip (text : List Char) : ∃ gap trailing, text = gap ++ strip text ++ trailing ∧
    (∀ c ∈ gap, isSpace c = true) ∧ ∀ c ∈ trailing, isSpace c = true := by
  refine ⟨text.takeWhile isSpace, (lstrip isSpace text).rtakeWhile isSpace, ?_, ?_, ?_⟩
  · rw [List.append_assoc, strip, rstrip, List.rdropWhile_append_rtakeWhile, lstrip,
      List.takeWhile_append_dropWhile]
  · exact fun c hc => List.mem_takeWhile_imp hc
  · exact fun c hc => List.mem_rtakeWhile_imp hc

theorem isIdentChar_of_space {c : Char} (h : isSpace c = true) : isIdentChar c = false := by
  by_contra hident
  rw [Bool.not_eq_false] at hident
  rw [isSpace_of_ident hident] at h
  cases h

variable {wordClass : WordClass}

theorem sdcCommand_eq_some {text name : List Char} (h : sdcCommand wordClass text = some name) :
    ∃ rest, identifier text = some (name, rest) := by
  unfold sdcCommand at h
  split at h
  next found rest hfound =>
    split_ifs at h
    exact ⟨rest, hfound.trans (by rw [Option.some.inj h])⟩
  · cases h

theorem exists_startsWith {text name : List Char}
    (h : sdcCommand wordClass (strip text) = some name) :
    ∃ gap after, StartsWith text gap name after := by
  obtain ⟨rest, hrest⟩ := sdcCommand_eq_some h
  obtain ⟨hsplit, hname, hends⟩ := identifier_eq_some hrest
  obtain ⟨gap, trailing, htext, hgap, htrailing⟩ := exists_strip text
  refine ⟨gap, rest ++ trailing, ?_, hgap, hname, ?_⟩
  · rw [htext, hsplit]
    simp only [List.append_assoc]
  · intro c hc
    cases rest with
    | nil => exact isIdentChar_of_space (htrailing c (List.mem_of_head? hc))
    | cons d rest => exact hends c hc

theorem TclMargin.of_append {gap rest : List Char} (h : TclMargin (gap ++ rest))
    (hgap : ∀ c ∈ gap, isSpace c = true) : ∀ c ∈ gap, isGap c = true := by
  intro c hc
  apply h
  rw [List.takeWhile_append_of_pos hgap]
  exact List.mem_append_left _ hc

theorem StartsWith.ahead {text gap name after : List Char} {nested : Bool} {names : List Name}
    (h : StartsWith text gap name after) (hmargin : TclMargin text)
    (hends : EndsName nested (afterName text)) (hahead : Ahead nested names after) :
    Ahead nested (name :: names) text := by
  rw [h.afterName_eq] at hends
  have hsplit := h.split
  subst hsplit
  rw [List.append_assoc] at hmargin
  exact .cons (hmargin.of_append h.gap) h.name hends hahead

end Scanning

section Lines

variable {wordClass : WordClass} {text : List Char}

def QueryAt (wordClass : WordClass) (text : List Char) (start : ℕ) : Prop :=
  ∃ index, text[index]? = some ']' ∧ ∃ name ∈ queries,
    sdcCommand wordClass (strip ((text.take index).drop (start + 1))) = some name

theorem queryAt_of_checkBrackets (h : checkBrackets wordClass text = .ok ()) {start : ℕ}
    (hstart : text[start]? = some '[') : QueryAt wordClass text start := by
  obtain ⟨state, hrun, hstate⟩ := Except.bind_eq_ok.mp h
  have hinv : ∀ entry ∈ text.zipIdx, entry.1 = '[' →
      entry.2 ∈ state.starts ∨ QueryAt wordClass text entry.2 := by
    refine Except.foldlM_invariant (fun done (state : Brackets) => ∀ entry ∈ done, entry.1 = '[' →
      entry.2 ∈ state.starts ∨ QueryAt wordClass text entry.2) (fun _ => True)
      (fun _ _ _ _ _ => trivial) ?_ (by simp) hrun trivial
    intro done entry rest before after hitems hdone hstep _
    obtain ⟨c, index⟩ := entry
    have hget : text[index]? = some c := by
      have hmem : (c, index) ∈ text.zipIdx := by
        rw [hitems]
        simp
      exact (List.mem_zipIdx_iff_getElem?.mp hmem)
    unfold scanBracket at hstep
    simp only at hstep
    split_ifs at hstep with hquote hopen hclose
    · obtain rfl := Except.ok.inj hstep
      intro entry hentry hbracket
      rcases List.mem_append.mp hentry with hentry | hentry
      · exact hdone entry hentry hbracket
      · obtain rfl := List.mem_singleton.mp hentry
        rw [hquote] at hbracket
        cases hbracket
    · obtain rfl := Except.ok.inj hstep
      intro entry hentry hbracket
      rcases List.mem_append.mp hentry with hentry | hentry
      · exact (hdone entry hentry hbracket).imp_left (List.mem_cons_of_mem _)
      · obtain rfl := List.mem_singleton.mp hentry
        exact .inl (List.mem_cons_self ..)
    · cases hstarts : before.starts with
      | nil =>
        rw [hstarts] at hstep
        cases hstep
      | cons first starts =>
        rw [hstarts] at hstep
        simp only at hstep
        cases hname : sdcCommand wordClass (strip ((text.take index).drop (first + 1))) with
        | none =>
          rw [hname] at hstep
          cases hstep
        | some name =>
          rw [hname] at hstep
          simp only at hstep
          split_ifs at hstep with hquery
          obtain rfl := Except.ok.inj hstep
          have hfirst : QueryAt wordClass text first := ⟨index, hclose ▸ hget, name, hquery, hname⟩
          intro entry hentry hbracket
          rcases List.mem_append.mp hentry with hentry | hentry
          · rcases hdone entry hentry hbracket with hmem | hquery
            · rw [hstarts] at hmem
              rcases List.mem_cons.mp hmem with hmem | hmem
              · exact .inr (hmem ▸ hfirst)
              · exact .inl hmem
            · exact .inr hquery
          · obtain rfl := List.mem_singleton.mp hentry
            rw [hclose] at hbracket
            cases hbracket
    · obtain rfl := Except.ok.inj hstep
      intro entry hentry hbracket
      rcases List.mem_append.mp hentry with hentry | hentry
      · exact hdone entry hentry hbracket
      · obtain rfl := List.mem_singleton.mp hentry
        exact absurd hbracket hopen
  have hmem : ('[', start) ∈ text.zipIdx := List.mem_zipIdx_iff_getElem?.mpr hstart
  split_ifs at hstate with hquote hstarts
  rw [not_not] at hstarts
  rcases hinv _ hmem rfl with hopen | hquery
  · rw [hstarts] at hopen
    cases hopen
  · exact hquery

theorem exists_query {before after : List Char} (h : checkBrackets wordClass text = .ok ())
    (hline : text = before ++ '[' :: after) :
    ∃ name ∈ queries, ∃ gap tail, StartsWith after gap name tail := by
  have hstart : text[before.length]? = some '[' := by
    rw [hline, List.getElem?_append_right (le_refl _), Nat.sub_self]
    rfl
  obtain ⟨index, hindex, name, hname, hcommand⟩ := queryAt_of_checkBrackets h hstart
  obtain ⟨gap, tail, hnested⟩ := exists_startsWith hcommand
  have hafter : text.drop (before.length + 1) = after := by
    rw [hline, List.drop_append]
    simp
  have hlt : before.length + 1 ≤ index := by
    by_contra hge
    rw [List.drop_take, Nat.sub_eq_zero_of_le (by omega), List.take_zero] at hcommand
    obtain ⟨rest, hrest⟩ := sdcCommand_eq_some hcommand
    cases hrest
  refine ⟨name, hname, gap, tail ++ text.drop index, ?_⟩
  have hsplit : after = (text.take index).drop (before.length + 1) ++ text.drop index := by
    rw [← hafter, List.drop_take]
    conv_lhs => rw [← List.take_append_drop (index - (before.length + 1))
      (text.drop (before.length + 1))]
    rw [List.drop_drop, Nat.add_sub_cancel' hlt]
  rw [hsplit]
  refine hnested.append ?_
  intro c hc
  rw [List.head?_drop, hindex] at hc
  rw [← Option.some.inj hc]
  rfl

theorem mem_dollars {before after : List Char} (hline : text = before ++ '$' :: after) :
    after ∈ dollars text := by
  subst hline
  induction before with
  | nil =>
    rw [List.nil_append, dollars, if_pos rfl]
    exact List.mem_cons_self ..
  | cons c before ih =>
    rw [List.cons_append, dollars]
    split_ifs
    · exact List.mem_cons_of_mem _ ih
    · exact ih

structure LinePassed (wordClass : WordClass) (top : List Char) (assigned : List Name)
    (text : List Char) (found : Option Name) : Prop where
  plain : ∀ c ∈ text, ¬ (c.toNat < 32 ∧ c ≠ '\t') ∧ [';', '\\', '{', '}'].contains c = false
  brackets : checkBrackets wordClass text = .ok ()
  reads : ∀ after ∈ dollars text, checkVariable assigned after = .ok ()
  command : checkCommand wordClass top (strip text) = .ok found

theorem linePassed_of_checkLine {top : List Char} {assigned : List Name} {found : Option Name}
    (h : checkLine wordClass top assigned text = .ok found) :
    LinePassed wordClass top assigned text found := by
  unfold checkLine at h
  split_ifs at h with hlong hcontrol hsyntax
  obtain ⟨_, hbrackets, h⟩ := Except.bind_eq_ok.mp h
  obtain ⟨_, hvariables, hcommand⟩ := Except.bind_eq_ok.mp h
  refine ⟨?_, hbrackets, Except.forM_eq_ok.mp hvariables, hcommand⟩
  rw [Bool.not_eq_true, List.any_eq_false] at hcontrol hsyntax
  intro c hc
  have hfirst := hcontrol c hc
  have hsecond := hsyntax c hc
  rw [Bool.and_eq_true, decide_eq_true_eq, decide_eq_true_eq] at hfirst
  rw [Bool.not_eq_true] at hsecond
  exact ⟨hfirst, hsecond⟩

theorem checked_of_linePassed {top : List Char} {assigned : List Name} {found : Option Name}
    (h : LinePassed wordClass top assigned text found) (hlike : CommandLike text) :
    Checked queries assigned text where
  plain := by
    intro c hc
    obtain ⟨hcontrol, hsyntax⟩ := h.plain c hc
    have hnewline : c ≠ '\n' := by
      rintro rfl
      exact hcontrol ⟨by decide, by decide⟩
    simp only [List.contains_cons, List.contains_nil, Bool.or_eq_false_iff,
      beq_eq_false_iff_ne] at hsyntax ⊢
    exact ⟨hnewline, hsyntax.1, hsyntax.2.1, hsyntax.2.2.1, trivial⟩
  opens := by
    intro before after hline
    obtain ⟨name, hname, gap, tail, hstarts⟩ := exists_query h.brackets hline
    obtain ⟨hmargin, hends⟩ := hlike.query before after hline
    exact ⟨name, hname, hstarts.ahead hmargin hends .nil⟩
  reads := by
    intro before after hline
    have hcheck := h.reads after (mem_dollars hline)
    unfold checkVariable at hcheck
    have hbrace : ∀ rest, after ≠ '{' :: rest := by
      rintro rest rfl
      have hsyntax := (h.plain '{' (by rw [hline]; simp)).2
      cases hsyntax
    have hvariable : sdcVariable after = identifier after := by
      unfold sdcVariable
      split
      · exact absurd rfl (hbrace _)
      · rfl
    rw [hvariable] at hcheck
    cases hfound : identifier after with
    | none =>
      rw [hfound] at hcheck
      cases hcheck
    | some pair =>
      obtain ⟨name, rest⟩ := pair
      rw [hfound] at hcheck
      simp only at hcheck
      split_ifs at hcheck with hpunctuation hassigned
      obtain ⟨hsplit, hname, hends⟩ := identifier_eq_some hfound
      refine ⟨name, rest, hsplit, hname.2, hassigned, hname.1, ?_⟩
      intro c hc
      refine ⟨hends c hc, ?_⟩
      rw [Option.mem_def.mp hc, Option.any_some, Bool.or_eq_true, decide_eq_true_eq,
        decide_eq_true_eq, not_or] at hpunctuation
      obtain ⟨more, rfl⟩ := List.head?_eq_some_iff.mp hc
      have hopen : c ≠ '{' := by
        rintro rfl
        have hsyntax := (h.plain '{' (by rw [hline, hsplit]; simp)).2
        cases hsyntax
      simp only [List.contains_cons, List.contains_nil, Bool.or_eq_false_iff, beq_eq_false_iff_ne]
      exact ⟨hpunctuation.1, hpunctuation.2, hopen, trivial⟩

end Lines

section Commands

variable {wordClass : WordClass} {top text : List Char} {assigned : List Name}

theorem Sandboxed.append {names : List Name} {before rest : List Event}
    (hbefore : ∀ event ∈ before, Allowed queries assigned event)
    (h : Sandboxed assigned names rest) : Sandboxed assigned names (before ++ rest) := by
  induction before with
  | nil => exact h
  | cons event before ih =>
    obtain ⟨hevent, hmore⟩ := List.forall_mem_cons.mp hbefore
    cases event with
    | read name => exact .read hevent (ih hmore)
    | trailing => exact absurd hevent id
    | beyond => exact absurd hevent id
    | command nested words =>
      cases nested with
      | true =>
        obtain ⟨name, hname, hhead⟩ := hevent
        exact .query hname hhead (ih hmore)
      | false => exact absurd hevent id

theorem sdcSet_eq_some {stripped : List Char} {target : Name} (h : sdcSet stripped = some target) :
    ∃ b between b' after, stripped = "set".toList ++ [b] ++ (between ++ target ++ [b'] ++ after) ∧
      isBlank b = true ∧ (∀ c ∈ between, isBlank c = true) ∧ IsName target ∧ isBlank b' = true ∧
      after ≠ [] := by
  unfold sdcSet at h
  simp only at h
  split_ifs at h with hset
  rw [not_or, not_not] at hset
  obtain ⟨hset, hblank⟩ := hset
  cases hfound : identifier ((stripped.drop 3).dropWhile isBlank) with
  | none =>
    rw [hfound] at h
    cases h
  | some pair =>
    obtain ⟨name, after⟩ := pair
    rw [hfound] at h
    simp only at h
    split_ifs at h with hend
    obtain rfl := Option.some.inj h
    rw [not_or] at hend
    obtain ⟨hsplit, hname, -⟩ := identifier_eq_some hfound
    rw [List.isEmpty_iff] at hblank
    obtain ⟨b, between, hbetween⟩ := List.exists_cons_of_ne_nil hblank
    have hblanks : ∀ c ∈ b :: between, isBlank c = true := by
      rw [← hbetween]
      exact fun c hc => List.mem_takeWhile_imp hc
    obtain ⟨hb, hblanks⟩ := List.forall_mem_cons.mp hblanks
    cases after with
    | nil => exact absurd rfl hend.1
    | cons b' after =>
      have hb' : isBlank b' = true := by
        by_contra hb'
        rw [List.takeWhile_cons_of_neg hb'] at hend
        exact hend.1 rfl
      refine ⟨b, between, b', after, ?_, hb, hblanks, hname, hb', ?_⟩
      · have hdrop : stripped.drop 3 = (b :: between) ++ (name ++ b' :: after) := by
          rw [← hbetween, ← hsplit, List.takeWhile_append_dropWhile]
        rw [← List.take_append_drop 3 stripped, hset, hdrop]
        simp
      · rintro rfl
        exact hend.2 rfl

theorem gap_of_blank {c : Char} (h : isBlank c = true) : isGap c = true := by
  rw [isBlank, Bool.or_eq_true, decide_eq_true_eq, decide_eq_true_eq] at h
  rcases h with rfl | rfl <;> rfl

theorem space_of_gap {c : Char} (h : isGap c = true) : isSpace c = true := by
  simp only [isGap, Bool.or_eq_true, decide_eq_true_eq] at h
  simp only [isSpace, Bool.or_eq_true, Bool.and_eq_true, decide_eq_true_eq]
  rcases h with (((rfl | rfl) | rfl) | h) | h
  · decide
  · decide
  · decide
  · omega
  · omega

theorem getLast?_rstrip {p : Char → Bool} {text : List Char} {c : Char}
    (h : c ∈ (rstrip p text).getLast?) : p c = false := by
  induction text using List.reverseRecOn with
  | nil => cases h
  | append_singleton text d ih =>
    by_cases hd : p d = true
    · rw [rstrip, List.rdropWhile_concat_pos _ _ _ hd] at h
      exact ih h
    · rw [rstrip, List.rdropWhile_concat_neg _ _ _ hd, List.getLast?_concat,
        Option.mem_some_iff] at h
      rw [← h]
      exact Bool.eq_false_iff.mpr hd

/-- A stripped text with more behind a prefix of it holds a character there that is no space. -/
theorem exists_of_strip {front rest : List Char} (h : strip text = front ++ rest) (hne : rest ≠ [])
    (trailing : List Char) : ∃ gap c back, rest ++ trailing = gap ++ c :: back ∧
      (∀ d ∈ gap, isGap d = true) ∧ isGap c = false := by
  have hspace : isGap (rest.getLast hne) = false := by
    by_contra hgap
    rw [Bool.not_eq_false] at hgap
    have hlast : rest.getLast hne ∈ (rstrip isSpace (lstrip isSpace text)).getLast? := by
      rw [show rstrip isSpace (lstrip isSpace text) = front ++ rest from h,
        List.getLast?_append_of_ne_nil _ hne, List.getLast?_eq_some_getLast hne]
      rfl
    have hnot := getLast?_rstrip hlast
    rw [space_of_gap hgap] at hnot
    cases hnot
  have hdrop : (rest ++ trailing).dropWhile isGap ≠ [] := by
    intro hempty
    rw [List.dropWhile_eq_nil_iff] at hempty
    have hgap := hempty _ (List.mem_append_left _ (List.getLast_mem hne))
    rw [hspace] at hgap
    cases hgap
  obtain ⟨c, back, hback⟩ := List.exists_cons_of_ne_nil hdrop
  refine ⟨(rest ++ trailing).takeWhile isGap, c, back, ?_, ?_, ?_⟩
  · rw [← hback, List.takeWhile_append_dropWhile]
  · exact fun d hd => List.mem_takeWhile_imp hd
  · have hhead := List.head?_dropWhile_not isGap (rest ++ trailing)
    rw [hback] at hhead
    simpa using hhead

theorem ahead_of_sdcSet {found : Option Name} {target : Name}
    (h : LinePassed wordClass top assigned text found) (hmargin : TclMargin text)
    (htarget : sdcSet (strip text) = some target) :
    Ahead false ["set".toList, target] text ∧ 2 < (run .ready text).1.bottom.count := by
  obtain ⟨b, between, b', rest, hstripped, hb, hbetween, hname, hb', hrest⟩ := sdcSet_eq_some htarget
  obtain ⟨front, trailing, htext, hfront, -⟩ := exists_strip text
  have hset : IsName "set".toList := ⟨by decide, forall_chars (by decide)⟩
  have hfront' : ∀ c ∈ front, isGap c = true := by
    rw [htext, List.append_assoc] at hmargin
    exact hmargin.of_append hfront
  have hends : ∀ c ∈ text, endsCommand c = false := by
    intro c hc
    obtain ⟨hcontrol, hsyntax⟩ := h.plain c hc
    simp only [endsCommand, Bool.or_eq_false_iff, decide_eq_false_iff_not]
    constructor
    · rintro rfl
      exact hcontrol ⟨by decide, by decide⟩
    · rintro rfl
      cases hsyntax
  constructor
  · have hsplit : text = front ++ "set".toList ++
        ((b :: between) ++ target ++ (b' :: (rest ++ trailing))) := by
      rw [htext, hstripped]
      simp
    rw [hsplit]
    refine .cons hfront' hset ?_ (.cons ?_ hname ?_ .nil)
    · rintro c ⟨⟩
      exact .inl (gap_of_blank hb)
    · exact List.forall_mem_cons.mpr ⟨gap_of_blank hb, fun c hc => gap_of_blank (hbetween c hc)⟩
    · rintro c ⟨⟩
      exact .inl (gap_of_blank hb')
  · have hfield : strip text = ("set".toList ++ [b] ++ (between ++ target ++ [b'])) ++ rest := by
      rw [hstripped]
      simp
    obtain ⟨gap, c, back, hmore, hgap, hc⟩ := exists_of_strip hfield hrest trailing
    have hsplit : text = (front ++ "set".toList ++ [b]) ++ ((between ++ target ++ [b']) ++
        (gap ++ c :: back)) := by
      conv_lhs => rw [htext, hfield, List.append_assoc, List.append_assoc, hmore]
      simp
    rw [hsplit]
    refine two_lt_count hfront' hset (gap_of_blank hb) (fun d hd => gap_of_blank (hbetween d hd))
      hname (gap_of_blank hb') hgap hc ?_
    intro d hd
    apply hends
    rw [hsplit]
    exact List.mem_append_right _ (List.mem_append_right _ (List.mem_append_right _ hd))

theorem run_commandLine {found : Option Name} {ending : List Char}
    (h : LinePassed wordClass top assigned text found) (hmargin : TclMargin text)
    (hlike : CommandLike text) (hending : IsEnding ending) :
    ∃ name events, sdcCommand wordClass (strip text) = some name ∧
      run .ready (text ++ ending) = (.ready, events) ∧
      ∀ names rest, Sandboxed (assigned ++ found.toList) names rest →
        Sandboxed assigned (name :: names) (events ++ rest) := by
  have hchecked := checked_of_linePassed h hlike
  have hcommand := h.command
  unfold checkCommand at hcommand
  cases hname : sdcCommand wordClass (strip text) with
  | none =>
    rw [hname] at hcommand
    cases hcommand
  | some name =>
    rw [hname] at hcommand
    simp only at hcommand
    split_ifs at hcommand with htop hset
    · subst hset
      cases htarget : sdcSet (strip text) with
      | none =>
        rw [htarget] at hcommand
        cases hcommand
      | some target =>
        rw [htarget] at hcommand
        simp only at hcommand
        split_ifs at hcommand with hreserved
        obtain rfl := Except.ok.inj hcommand
        rw [Bool.not_eq_true] at hreserved
        obtain ⟨hahead, hcount⟩ := ahead_of_sdcSet h hmargin htarget
        obtain ⟨before, words, hrun, hevents, hprefix, hwords⟩ :=
          run_line (List.cons_ne_nil _ _) hahead hchecked hlike.closes hending
        have hbottom : (run .ready text).1.bottom = (run .ready text).1.frame := by
          rw [Reader.bottom, hlike.closes.1]
          rfl
        rw [hbottom, ← Frame.count_of_command hwords] at hcount
        refine ⟨_, before ++ [Event.command false words], rfl, hrun, ?_⟩
        intro names rest hrest
        obtain ⟨more, rfl⟩ := hprefix
        cases more with
        | nil => exact absurd hcount (by simp)
        | cons value more =>
          rw [List.append_assoc]
          exact .append hevents (.set hreserved hrest)
    · obtain rfl := Except.ok.inj hcommand
      obtain ⟨gap, after, hstarts⟩ := exists_startsWith hname
      have hahead : Ahead false [name] text := hstarts.ahead hmargin hlike.command .nil
      obtain ⟨before, words, hrun, hevents, hprefix, -⟩ :=
        run_line (List.cons_ne_nil _ _) hahead hchecked hlike.closes hending
      refine ⟨name, before ++ [Event.command false words], rfl, hrun, ?_⟩
      intro names rest hrest
      rw [Option.toList_none, List.append_nil] at hrest
      obtain ⟨more, rfl⟩ := hprefix
      rw [List.append_assoc]
      exact .append hevents (.command htop hset rfl hrest)

end Commands

section Files

theorem exists_endings {text : List Char}
    (h : ∀ broken ∈ breakLines [] text, broken.2 = [] ∨ IsEnding broken.2) :
    ∃ (pairs : List (List Char × List Char)) (tail : List (List Char)), (tail = [] ∨ tail = [[]]) ∧
      text ++ ['\n'] = (pairs.map fun pair => pair.1 ++ pair.2).flatten ∧
      (∀ pair ∈ pairs, IsEnding pair.2) ∧ pairs.map Prod.fst = splitLines text ++ tail := by
  have hflatten := flatten_breakLines [] text
  have hends := breakLines_ends [] text
  rw [splitLines]
  rcases List.eq_nil_or_concat' (breakLines [] text) with hnil | ⟨front, last, hbroken⟩
  · rw [hnil] at hflatten ⊢
    obtain rfl : [] = text := hflatten
    refine ⟨[([], ['\n'])], [[]], .inr rfl, rfl, ?_, rfl⟩
    exact List.forall_mem_singleton.mpr (.inl rfl)
  · rw [hbroken] at hflatten hends h ⊢
    obtain ⟨hfront, hlast⟩ := List.forall_mem_append.mp h
    replace hlast := List.forall_mem_singleton.mp hlast
    rw [List.dropLast_concat] at hends
    rw [List.map_append, List.flatten_append, List.nil_append] at hflatten
    have hfront : ∀ pair ∈ front, IsEnding pair.2 := by
      intro pair hpair
      rcases hfront pair hpair with hempty | hending
      · obtain ⟨c, hc, -⟩ := hends pair hpair
        rw [hempty] at hc
        cases hc
      · exact hending
    rcases hlast with hempty | hending
    · refine ⟨front ++ [(last.1, ['\n'])], [], .inl rfl, ?_, ?_, by simp⟩
      · rw [← hflatten, List.map_append, List.flatten_append]
        simp [hempty]
      · exact List.forall_mem_append.mpr ⟨hfront, List.forall_mem_singleton.mpr (.inl rfl)⟩
    · refine ⟨front ++ [last] ++ [([], ['\n'])], [[]], .inr rfl, ?_, ?_, by simp⟩
      · rw [← hflatten, List.map_append, List.flatten_append, List.map_append,
          List.flatten_append]
        rfl
      · refine List.forall_mem_append.mpr ⟨?_, List.forall_mem_singleton.mpr (.inl rfl)⟩
        exact List.forall_mem_append.mpr ⟨hfront, List.forall_mem_singleton.mpr hending⟩

theorem not_mem_breakLines (line text : List Char) (hline : '\n' ∉ line) :
    ∀ broken ∈ breakLines line text, '\n' ∉ broken.1 := by
  have hadd {line : List Char} {c : Char} (hline : '\n' ∉ line) (hbreak : ¬ isLineBreak c = true) :
      '\n' ∉ line ++ [c] := by
    intro hmem
    rcases List.mem_append.mp hmem with hmem | hmem
    · exact hline hmem
    · rw [← List.mem_singleton.mp hmem] at hbreak
      exact hbreak rfl
  fun_induction breakLines line text with
  | case1 line hempty => exact fun _ hmem => absurd hmem List.not_mem_nil
  | case2 line hne => simpa using hline
  | case3 line c hbreak => simpa using hline
  | case4 line c hbreak => simpa using hadd hline hbreak
  | case5 line c next rest hreturn ih =>
    exact List.forall_mem_cons.mpr ⟨hline, ih List.not_mem_nil⟩
  | case6 line c next rest hreturn hbreak ih =>
    exact List.forall_mem_cons.mpr ⟨hline, ih List.not_mem_nil⟩
  | case7 line c next rest hreturn hbreak ih => exact ih (hadd hline hbreak)

theorem not_mem_splitLines {text line : List Char} (h : line ∈ splitLines text) : '\n' ∉ line := by
  obtain ⟨broken, hbroken, rfl⟩ := List.mem_map.mp h
  exact not_mem_breakLines [] text List.not_mem_nil broken hbroken

theorem run_skipped {line ending : List Char} (hlike : LineLike line) (hnewline : '\n' ∉ line)
    (hskip : isCommandLine line = false) (hending : IsEnding ending) :
    run .ready (line ++ ending) = (.ready, []) := by
  rw [isCommandLine, Bool.not_eq_false', decide_eq_true_eq] at hskip
  rcases hskip with hempty | hhash
  · obtain ⟨gap, trailing, hline, hgap, htrailing⟩ := exists_strip line
    rw [hempty, List.append_nil] at hline
    have hspaces : ∀ c ∈ line, isSpace c = true := by
      rw [hline]
      exact List.forall_mem_append.mpr ⟨hgap, htrailing⟩
    have hmargin := hlike.margin
    rw [← List.append_nil line] at hmargin
    apply run_gap
    refine List.forall_mem_append.mpr ⟨fun c hc => .inl (hmargin.of_append hspaces c hc), ?_⟩
    rcases hending with rfl | rfl
    · exact List.forall_mem_singleton.mpr (.inr rfl)
    · exact List.forall_mem_cons.mpr ⟨.inl rfl, List.forall_mem_singleton.mpr (.inr rfl)⟩
  · obtain ⟨gap, trailing, hline, hgap, -⟩ := exists_strip line
    obtain ⟨more, hmore⟩ := List.head?_eq_some_iff.mp hhash
    have hsplit : line = gap ++ '#' :: (more ++ trailing) := by
      rw [hline, hmore]
      simp
    have hescapes := hlike.comment hhash
    have hmargin := hlike.margin
    rw [hsplit] at hescapes hmargin hnewline ⊢
    refine run_commentLine (hmargin.of_append hgap) ?_ hescapes hending
    exact fun hmem => hnewline (List.mem_append_right _ (List.mem_cons_of_mem _ hmem))

variable {wordClass : WordClass} {top : List Char}

theorem addLine_eq_ok {state next : SdcState} {entry : List Char × ℕ}
    (hcounted : isCommandLine entry.1 = true) (h : addLine wordClass top state entry = .ok next) :
    ∃ found, checkLine wordClass top state.assigned entry.1 = .ok found ∧
      next = ⟨state.commandCount + 1, state.assigned ++ found.toList⟩ := by
  unfold addLine at h
  rw [if_neg (by simp [hcounted])] at h
  split_ifs at h
  obtain ⟨found, hfound, hnext⟩ := Except.bind_eq_ok.mp h
  refine ⟨found, ?_, (Except.ok.inj hnext).symm⟩
  cases hcheck : checkLine wordClass top state.assigned entry.1 with
  | error error =>
    rw [hcheck] at hfound
    cases hfound
  | ok value =>
    rw [hcheck] at hfound
    rw [Except.ok.inj hfound]

theorem run_lines {pairs : List (List Char × List Char)} {number : ℕ} {state last : SdcState}
    (hendings : ∀ pair ∈ pairs, IsEnding pair.2)
    (hlines : ∀ line ∈ pairs.map Prod.fst, LineLike line ∧ '\n' ∉ line)
    (h : ((pairs.map Prod.fst).zipIdx number).foldlM (addLine wordClass top) state = .ok last) :
    ∃ events, run .ready (pairs.map fun pair => pair.1 ++ pair.2).flatten = (.ready, events) ∧
      last.commandCount =
        state.commandCount + (commandNames wordClass (pairs.map Prod.fst)).length ∧
      ∀ names rest, Sandboxed last.assigned names rest → Sandboxed state.assigned
        (commandNames wordClass (pairs.map Prod.fst) ++ names) (events ++ rest) := by
  induction pairs generalizing number state with
  | nil =>
    obtain rfl := Except.ok.inj h
    exact ⟨[], rfl, rfl, fun names rest hrest => hrest⟩
  | cons pair pairs ih =>
    obtain ⟨line, ending⟩ := pair
    obtain ⟨hending, hendings⟩ := List.forall_mem_cons.mp hendings
    obtain ⟨⟨hlike, hnewline⟩, hlines⟩ := List.forall_mem_cons.mp hlines
    rw [List.map_cons, List.zipIdx_cons, List.foldlM_cons] at h
    obtain ⟨next, hnext, hrest⟩ := Except.bind_eq_ok.mp h
    obtain ⟨events, hrun, hcount, hsandboxed⟩ := ih hendings hlines hrest
    rw [List.map_cons, List.flatten_cons, List.map_cons, run_append]
    cases hcounted : isCommandLine line with
    | false =>
      have hsame : state = next := by
        unfold addLine at hnext
        rw [if_pos hcounted] at hnext
        exact Except.ok.inj hnext
      subst hsame
      have hnames : commandNames wordClass (line :: pairs.map Prod.fst) =
          commandNames wordClass (pairs.map Prod.fst) := by
        rw [commandNames, List.filter_cons_of_neg (by simp [hcounted]), ← commandNames]
      rw [hnames, run_skipped hlike hnewline hcounted hending, hrun]
      exact ⟨events, rfl, hcount, hsandboxed⟩
    | true =>
      obtain ⟨found, hcheck, rfl⟩ := addLine_eq_ok hcounted hnext
      obtain ⟨name, lineEvents, hname, hline, hstep⟩ := run_commandLine
        (linePassed_of_checkLine hcheck) hlike.margin (hlike.command hcounted) hending
      have hnames : commandNames wordClass (line :: pairs.map Prod.fst) =
          name :: commandNames wordClass (pairs.map Prod.fst) := by
        rw [commandNames, List.filter_cons_of_pos hcounted]
        exact List.filterMap_cons_some hname
      rw [hnames, hline, hrun]
      refine ⟨lineEvents ++ events, rfl, ?_, ?_⟩
      · rw [hcount, List.length_cons]
        simp only
        omega
      · intro names rest hmore
        rw [List.append_assoc]
        exact hstep _ _ (hsandboxed names rest hmore)

end Files

/-- An accepted text that Tcl reads line by line runs the commands that were counted, one after
another, and in their brackets only the allowed queries. -/
theorem loadSafeSdc_sandboxed {wordClass : WordClass} {top text : List Char} {count : ℕ}
    (h : loadSafeSdc wordClass top text = .ok count) (hlike : TclLike text) :
    (commandNames wordClass (splitLines text)).length = count ∧
      Sandboxed [] (commandNames wordClass (splitLines text)) (script text) := by
  unfold loadSafeSdc at h
  split_ifs at h
  obtain ⟨state, hfold, hcount⟩ := Except.bind_eq_ok.mp h
  split_ifs at hcount
  replace hcount := Except.ok.inj hcount
  obtain ⟨pairs, tail, htail, htext, hendings, hmap⟩ := exists_endings hlike.breaks
  have hskipped : ∀ line ∈ tail, line = [] := by
    rcases htail with rfl | rfl
    · exact fun _ hmem => absurd hmem List.not_mem_nil
    · exact fun _ hmem => List.mem_singleton.mp hmem
  have hlines : ∀ line ∈ pairs.map Prod.fst, LineLike line ∧ '\n' ∉ line := by
    rw [hmap]
    refine List.forall_mem_append.mpr ⟨fun line hline => ?_, fun line hline => ?_⟩
    · exact ⟨hlike.lines line hline, not_mem_splitLines hline⟩
    · obtain rfl := hskipped line hline
      exact ⟨⟨fun _ hmem => absurd hmem List.not_mem_nil, nofun, nofun⟩, List.not_mem_nil⟩
  have hfolded : ((pairs.map Prod.fst).zipIdx 1).foldlM (addLine wordClass top) ⟨0, []⟩ =
      .ok state := by
    rw [hmap, List.zipIdx_append, List.foldlM_append, hfold, Except.ok_bind]
    rcases htail with rfl | rfl <;> rfl
  have hnames : commandNames wordClass (pairs.map Prod.fst) =
      commandNames wordClass (splitLines text) := by
    rw [hmap, commandNames, List.filter_append]
    rcases htail with rfl | rfl <;> simp [commandNames, isCommandLine, strip, lstrip, rstrip]
  obtain ⟨events, hrun, hlength, hsandboxed⟩ := run_lines hendings hlines hfolded
  rw [hnames] at hlength hsandboxed
  constructor
  · rw [← hcount, hlength, Nat.zero_add]
  · have hall := hsandboxed [] [] .nil
    rw [List.append_nil, List.append_nil] at hall
    unfold script
    rw [htext, hrun]
    exact hall

def clockText : List Char :=
  "# Clock\nset period 10\ncreate_clock -period $period [get_ports clk]\n\n".toList ++
    "set_input_delay 1 -clock [get_clocks clk] [all_inputs]\n".toList

theorem clockText_sandboxed : TclLike clockText ∧
    loadSafeSdc asciiWords "top".toList clockText = .ok 3 ∧
    Sandboxed [] ["set".toList, "create_clock".toList, "set_input_delay".toList]
      (script clockText) := by
  have hchars : clockText = _ := append_literal String.toList_ofList _
  have hlike : TclLike clockText := by
    rw [hchars]
    decide +kernel
  have haccepted : loadSafeSdc asciiWords "top".toList clockText = .ok 3 := by
    obtain ⟨count, h⟩ := Except.exists_ok_of_isSome
      (show (loadSafeSdc asciiWords "top".toList clockText).toOption.isSome = true by
        rw [hchars]
        decide +kernel)
    have hcount := (loadSafeSdc_sandboxed h hlike).1
    rw [h, ← hcount]
    rfl
  refine ⟨hlike, haccepted, ?_⟩
  have hsandboxed := (loadSafeSdc_sandboxed haccepted hlike).2
  have hnames : commandNames asciiWords (splitLines clockText) =
      ["set".toList, "create_clock".toList, "set_input_delay".toList] := by
    rw [hchars]
    decide +kernel
  rw [← hnames]
  exact hsandboxed

/-- A quotation that the lines open and close each for themselves, with a bracket in a comment. -/
def hiddenText : List Char :=
  "set a b\" \"\n# [exec id]\nset c \" d\"\n".toList

theorem hiddenText_runs : loadSafeSdc asciiWords "top".toList hiddenText = .ok 2 ∧
    .command true [.of "exec".toList, .of "id".toList] ∈ script hiddenText ∧
    ¬ Sandboxed [] (commandNames asciiWords (splitLines hiddenText)) (script hiddenText) := by
  have hevents : script hiddenText = [.command true [.of "exec".toList, .of "id".toList],
      .command false [.of "set".toList, .of "a".toList, .of "b\"".toList,
        ⟨"\n# \nset c ".toList, false⟩, .of "d\"".toList]] := by
    decide
  refine ⟨?_, ?_, ?_⟩
  · decide
  · rw [hevents]
    exact List.mem_cons_self ..
  · rw [hevents]
    intro h
    cases h with
    | query hquery hhead _ =>
      obtain rfl := (Word.mk.inj (Option.some.inj hhead)).1
      revert hquery
      decide

end OpenADA.Sta
