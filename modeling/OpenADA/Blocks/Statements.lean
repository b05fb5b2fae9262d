import OpenADA.Library.ExceptFold
import OpenADA.Library.SpiceText

/-! The statements of a behavioral block source, as the library validates them and as a simulator
reads the same text, with blanks and tabs as its only separators. -/
namespace OpenADA.Blocks

open Except PyText SpiceText

/-- `_FORBIDDEN_CONTROL_RE`. -/
def forbiddenControl (c : Char) : Bool :=
  let n := c.toNat
  n ≤ 8 || (0x0B ≤ n && n ≤ 0x1F) || n = 0x7F || n = 0x85 || n = 0x2028 || n = 0x2029

/-- One of `;`, `$` and `//`. -/
def hasInlineComment : List Char → Bool
  | [] => false
  | c :: rest => c = ';' || c = '$' || (c = '/' && rest.head? = some '/') || hasInlineComment rest

/-- `text.replace("\r\n", "\n")`. -/
def normalizeLines : List Char → List Char
  | [] => []
  | c :: rest => if c = '\r' ∧ rest.head? = some '\n' then normalizeLines rest
    else c :: normalizeLines rest

inductive SourceRefusal where
  | forbiddenControl (number : ℕ)
  | controlCommand (number : ℕ)
  | inlineComment (number : ℕ)
  | nothingToContinue (number : ℕ)
  deriving DecidableEq

abbrev Statement := ℕ × List Char

def sourceLine (statements : List Statement) (raw : List Char × ℕ) :
    Except SourceRefusal (List Statement) :=
  if raw.1.any forbiddenControl then .error (.forbiddenControl raw.2)
  else
    let line := rstrip isSpace raw.1
    if line = [] then .ok statements
    else if (lstrip isSpace line).head? = some '*' then
      if (lstrip isSpace line).tail.head? = some '#' then .error (.controlCommand raw.2)
      else .ok statements
    else if hasInlineComment line then .error (.inlineComment raw.2)
    else if (strip line).head? = some '+' then
      match statements.getLast? with
      | none => .error (.nothingToContinue raw.2)
      | some (first, body) => .ok (statements.dropLast ++
          [(first, rstrip isSpace (body ++ ' ' :: strip (strip line).tail))])
    else .ok (statements ++ [(raw.2, strip line)])

def sourceStatements (text : List Char) : Except SourceRefusal (List Statement) :=
  (((normalizeLines text).splitOn '\n').zipIdx 1).foldlM sourceLine []

section Reading

variable (space : Char → Bool)

def isComment (line : List Char) : Bool := (lstrip space line).head? = some '*'

/-- One line as a simulator reads it with some notion of a space; a continuation of nothing is a
statement of its own. -/
def readSourceLine (statements : List Statement) (raw : List Char × ℕ) : List Statement :=
  match rawKind space raw.1 with
  | .skip => statements
  | .card text => statements ++ [(raw.2, text)]
  | .more body text =>
    match statements.getLast? with
    | some (first, before) => statements.dropLast ++ [(first, rstrip space (before ++ ' ' :: body))]
    | none => statements ++ [(raw.2, text)]

def readLines (lines : List (List Char)) : List Statement :=
  (lines.zipIdx 1).foldl (readSourceLine space) []

def tokens (statements : List Statement) : List (ℕ × List Char × List (List Char)) :=
  statements.map fun s => (s.1, s.2, words space s.2)

end Reading

def isBlank (c : Char) : Bool := c = ' ' || c = '\t'

/-- The lines that a newline ends, with or without a carriage return before it; `line` is the line
read so far. -/
def simulatorLinesFrom (line : List Char) : List Char → List (List Char)
  | [] => [line]
  | c :: rest =>
    if c = '\r' ∧ rest.head? = some '\n' then simulatorLinesFrom line rest
    else if c = '\n' then line :: simulatorLinesFrom [] rest
    else simulatorLinesFrom (line ++ [c]) rest

def simulatorLines (text : List Char) : List (List Char) := simulatorLinesFrom [] text

/-- The validator's statements and their tokens are those a simulator reads. -/
def SeesSimulatorText (text : List Char) (statements : List Statement) : Prop :=
  tokens isSpace statements = tokens isBlank (readLines isBlank (simulatorLines text))

/-- Every line that holds another space than a blank or a tab is a comment to the simulator. -/
def OddSpacesInComments (text : List Char) : Prop :=
  ∀ line ∈ simulatorLines text, ∀ c ∈ line, isSpace c = true → isBlank c = false →
    isComment isBlank line = true

theorem splitOn_normalizeLines (line text : List Char) (hline : '\n' ∉ line) :
    (line ++ normalizeLines text).splitOn '\n' = simulatorLinesFrom line text := by
  induction text generalizing line with
  | nil =>
    rw [normalizeLines, simulatorLinesFrom, List.append_nil]
    refine List.splitOnP_eq_singleton fun c hc => ?_
    rw [beq_eq_false_iff_ne]
    rintro rfl
    exact hline hc
  | cons c rest ih =>
    rw [normalizeLines, simulatorLinesFrom]
    split_ifs with hreturn hnewline
    · exact ih line hline
    · rw [hnewline, List.splitOn, List.splitOnP_append_cons_of_forall_mem]
      · exact congrArg (line :: ·) (ih [] List.not_mem_nil)
      · intro d hd
        rw [beq_eq_false_iff_ne]
        rintro rfl
        exact hline hd
      · exact beq_self_eq_true '\n'
    · rw [← List.singleton_append, ← List.append_assoc]
      refine ih (line ++ [c]) ?_
      rw [List.mem_append, List.mem_singleton]
      rintro (h | h)
      · exact hline h
      · exact hnewline h.symm

theorem lines_eq (text : List Char) :
    (normalizeLines text).splitOn '\n' = simulatorLines text :=
  splitOn_normalizeLines [] text List.not_mem_nil

theorem rawKind_of_trim (space : Char → Bool) {line : List Char} {c : Char} {body : List Char}
    (h : trim space line = c :: body) : rawKind space line =
      if c = '*' then .skip
      else if c = '+' then .more (trim space body) (c :: body)
      else .card (c :: body) := by
  split_ifs with hstar hplus
  · subst hstar
    rw [rawKind, h]
    rfl
  · subst hplus
    rw [rawKind, h]
    rfl
  · rw [← h]
    exact rawKind_of_head (by rw [h, List.head?_cons]) hstar hplus

theorem trim_eq_nil (space : Char → Bool) {line : List Char} (h : rstrip space line = []) :
    trim space line = [] := by
  rw [← lstrip_rstrip, h]
  rfl

theorem trim_ne_nil (space : Char → Bool) {line : List Char} (h : rstrip space line ≠ []) :
    trim space line ≠ [] := by
  rw [← lstrip_rstrip, lstrip, ne_eq, List.dropWhile_eq_nil_iff]
  intro hall
  exact List.rdropWhile_last_not space line h (hall _ (List.getLast_mem h))

/-- An accepted line holds no forbidden character, and is read as it would be by a simulator whose
spaces are Python's. -/
theorem sourceLine_ok {statements out : List Statement} {raw : List Char × ℕ}
    (h : sourceLine statements raw = .ok out) :
    raw.1.any forbiddenControl = false ∧ out = readSourceLine isSpace statements raw := by
  have htrim : strip (rstrip isSpace raw.1) = trim isSpace raw.1 := trim_rstrip isSpace raw.1
  simp only [sourceLine, lstrip_rstrip, htrim] at h
  split_ifs at h with hcontrol hempty hstar hcommand hinline hplus
  · refine ⟨Bool.eq_false_iff.mpr hcontrol, ?_⟩
    rw [readSourceLine, rawKind, trim_eq_nil isSpace hempty]
    exact (Except.ok.inj h).symm
  all_goals
    refine ⟨Bool.eq_false_iff.mpr hcontrol, ?_⟩
    obtain ⟨c, body, hcons⟩ := List.exists_cons_of_ne_nil (trim_ne_nil isSpace hempty)
    rw [readSourceLine, rawKind_of_trim isSpace hcons]
    simp only [hcons, List.head?_cons, List.tail_cons, Option.some.injEq] at h hstar
  · rw [if_pos hstar]
    exact (Except.ok.inj h).symm
  · simp only [hcons, List.head?_cons, Option.some.injEq] at hplus
    rw [if_neg hstar, if_pos hplus]
    split at h
    · cases h
    next first before hlast =>
      simp only [hlast]
      exact (Except.ok.inj h).symm
  · simp only [hcons, List.head?_cons, Option.some.injEq] at hplus
    rw [if_neg hstar, if_neg hplus]
    exact (Except.ok.inj h).symm

/-- An accepted text holds no forbidden character, and its statements are those of a reading with
Python's spaces. -/
theorem sourceStatements_ok {text : List Char} {statements : List Statement}
    (h : sourceStatements text = .ok statements) :
    (∀ line ∈ simulatorLines text, line.any forbiddenControl = false) ∧
      statements = readLines isSpace (simulatorLines text) := by
  rw [sourceStatements, lines_eq] at h
  have hinv := foldlM_spec (fun done s => (∀ raw ∈ done, raw.1.any forbiddenControl = false) ∧
    s = done.foldl (readSourceLine isSpace) []) (fun done raw s s' hs hstep => ?_)
    ⟨by simp, rfl⟩ h
  · refine ⟨fun line hline => ?_, hinv.2⟩
    rw [← List.zipIdx_map_fst 1 (simulatorLines text), List.mem_map] at hline
    obtain ⟨raw, hraw, rfl⟩ := hline
    exact hinv.1 raw hraw
  · obtain ⟨hcontrol, rfl⟩ := sourceLine_ok hstep
    refine ⟨fun other hother => ?_, ?_⟩
    · rcases List.mem_append.mp hother with hother | hother
      · exact hs.1 other hother
      · rw [List.mem_singleton.mp hother]
        exact hcontrol
    · rw [List.foldl_append, ← hs.2]
      rfl

section Agreement

theorem isSpace_of_isBlank {c : Char} (h : isBlank c = true) : isSpace c = true := by
  rw [isBlank, Bool.or_eq_true, decide_eq_true_eq, decide_eq_true_eq] at h
  rcases h with rfl | rfl
  · rfl
  · rfl

theorem isComment_of_blank {line : List Char} (h : isComment isBlank line = true) :
    isComment isSpace line = true := by
  rw [isComment, decide_eq_true_eq] at h ⊢
  induction line with
  | nil => exact h
  | cons c rest ih =>
    rw [lstrip, List.dropWhile_cons] at h ⊢
    by_cases hblank : isBlank c = true
    · rw [if_pos hblank] at h
      rw [if_pos (isSpace_of_isBlank hblank)]
      exact ih h
    · rw [if_neg hblank, List.head?_cons, Option.some.injEq] at h
      subst h
      rfl

theorem readSourceLine_of_isComment {space : Char → Bool} {statements : List Statement}
    {raw : List Char × ℕ} (h : isComment space raw.1 = true) :
    readSourceLine space statements raw = statements := by
  rw [isComment, decide_eq_true_eq, ← head?_trim] at h
  obtain ⟨body, hbody⟩ : ∃ body, trim space raw.1 = '*' :: body := by
    obtain ⟨c, body, hcons⟩ := List.exists_cons_of_ne_nil
      (l := trim space raw.1) (fun hnil => by rw [hnil] at h; cases h)
    rw [hcons, List.head?_cons, Option.some.injEq] at h
    exact ⟨body, h ▸ hcons⟩
  rw [readSourceLine, rawKind_of_trim space hbody, if_pos rfl]

def AllAgree (statements : List Statement) : Prop := ∀ s ∈ statements, Agree isSpace isBlank s.2

theorem AllAgree.concat {statements : List Statement} (h : AllAgree statements) {number : ℕ}
    {text : List Char} (htext : Agree isSpace isBlank text) :
    AllAgree (statements ++ [(number, text)]) := by
  intro s hs
  rcases List.mem_append.mp hs with hs | hs
  · exact h s hs
  · rw [List.mem_singleton.mp hs]
    exact htext

theorem readSourceLine_agree {statements : List Statement} (hstatements : AllAgree statements)
    {raw : List Char × ℕ} (hline : Agree isSpace isBlank raw.1 ∨ isComment isBlank raw.1 = true) :
    readSourceLine isSpace statements raw = readSourceLine isBlank statements raw ∧
      AllAgree (readSourceLine isBlank statements raw) := by
  rcases hline with hagree | hcomment
  · have hwithin := within_rawKind isBlank
    unfold readSourceLine
    rw [rawKind_congr hagree]
    cases hkind : rawKind isBlank raw.1 with
    | skip => exact ⟨rfl, hstatements⟩
    | card text => exact ⟨rfl, hstatements.concat (hagree.subset (hwithin.card hkind))⟩
    | more body text =>
      obtain ⟨hbody, htext⟩ := hwithin.more hkind
      cases hlast : statements.getLast? with
      | none => exact ⟨rfl, hstatements.concat (hagree.subset htext)⟩
      | some last =>
        have hjoined : Agree isSpace isBlank (last.2 ++ ' ' :: body) := by
          intro c hc
          rcases List.mem_append.mp hc with hc | hc
          · exact hstatements last (List.mem_of_getLast? hlast) c hc
          · rcases List.mem_cons.mp hc with rfl | hc
            · rfl
            · exact hagree c (hbody hc)
        have hinit : AllAgree statements.dropLast :=
          fun s hs => hstatements s (List.mem_of_mem_dropLast hs)
        refine ⟨?_, hinit.concat (hjoined.subset (rstrip_subset isBlank _))⟩
        simp only [rstrip_congr hjoined]
  · rw [readSourceLine_of_isComment hcomment, readSourceLine_of_isComment
      (isComment_of_blank hcomment)]
    exact ⟨rfl, hstatements⟩

theorem readLines_agree {lines : List (List Char)}
    (h : ∀ line ∈ lines, Agree isSpace isBlank line ∨ isComment isBlank line = true) :
    readLines isSpace lines = readLines isBlank lines ∧ AllAgree (readLines isBlank lines) := by
  unfold readLines
  generalize 1 = start
  suffices hfold : ∀ statements, AllAgree statements →
      (lines.zipIdx start).foldl (readSourceLine isSpace) statements =
        (lines.zipIdx start).foldl (readSourceLine isBlank) statements ∧
      AllAgree ((lines.zipIdx start).foldl (readSourceLine isBlank) statements) from
    hfold [] fun _ hs => absurd hs List.not_mem_nil
  induction lines generalizing start with
  | nil => exact fun statements hs => ⟨rfl, hs⟩
  | cons line rest ih =>
    intro statements hs
    obtain ⟨heq, hnext⟩ := @readSourceLine_agree statements hs (line, start)
      (h line (List.mem_cons_self ..))
    rw [List.zipIdx_cons, List.foldl_cons, List.foldl_cons, heq]
    exact ih (fun other hother => h other (List.mem_cons_of_mem _ hother)) _ _ hnext

theorem tokens_agree {statements : List Statement} (h : AllAgree statements) :
    tokens isSpace statements = tokens isBlank statements := by
  unfold tokens
  refine List.map_congr_left fun s hs => ?_
  rw [words_congr (h s hs)]

end Agreement

section Shown

variable {space : Char → Bool} {c : Char}

theorem mem_rstrip (hc : space c = false) {text : List Char} (h : c ∈ text) :
    c ∈ rstrip space text := by
  rw [← (List.rdropWhile_append_rtakeWhile (p := space) (l := text)), List.mem_append] at h
  rcases h with h | h
  · exact h
  · have hspace := List.mem_rtakeWhile_imp h
    rw [hc] at hspace
    cases hspace

theorem mem_trim (hc : space c = false) {text : List Char} (h : c ∈ text) : c ∈ trim space text := by
  refine mem_rstrip hc ?_
  rw [← List.takeWhile_append_dropWhile (p := space) (l := text), List.mem_append] at h
  rcases h with h | h
  · have hspace := List.mem_takeWhile_imp h
    rw [hc] at hspace
    cases hspace
  · exact h

def Shows (statements : List Statement) (c : Char) : Prop := ∃ s ∈ statements, c ∈ s.2

theorem Shows.readSourceLine (hc : space c = false) {statements : List Statement}
    (h : Shows statements c) (raw : List Char × ℕ) :
    Shows (readSourceLine space statements raw) c := by
  obtain ⟨s, hs, hmem⟩ := h
  unfold Blocks.readSourceLine
  cases rawKind space raw.1 with
  | skip => exact ⟨s, hs, hmem⟩
  | card text => exact ⟨s, List.mem_append_left _ hs, hmem⟩
  | more body text =>
    cases hlast : statements.getLast? with
    | none => exact ⟨s, List.mem_append_left _ hs, hmem⟩
    | some last =>
      have hsplit : statements = statements.dropLast ++ [last] := by
        rw [← List.dropLast_append_getLast? last hlast]
        simp
      rw [hsplit, List.mem_append, List.mem_singleton] at hs
      rcases hs with hs | rfl
      · exact ⟨s, List.mem_append_left _ hs, hmem⟩
      · exact ⟨_, List.mem_append_right _ (List.mem_singleton_self _),
          mem_rstrip hc (List.mem_append_left _ hmem)⟩

theorem shows_of_mem (hc : space c = false) (hplus : c ≠ '+') {raw : List Char × ℕ}
    (hmem : c ∈ raw.1) (hcomment : isComment space raw.1 = false) (statements : List Statement) :
    Shows (readSourceLine space statements raw) c := by
  have htrim := mem_trim hc hmem
  obtain ⟨d, body, hcons⟩ := List.exists_cons_of_ne_nil (List.ne_nil_of_mem htrim)
  rw [hcons] at htrim
  rw [isComment, decide_eq_false_iff_not, ← head?_trim, hcons, List.head?_cons,
    Option.some.injEq] at hcomment
  rw [readSourceLine, rawKind_of_trim space hcons, if_neg hcomment]
  by_cases hd : d = '+'
  · have hbody : c ∈ body := (List.mem_cons.mp htrim).resolve_left fun h => hplus (h.trans hd)
    rw [if_pos hd]
    cases statements.getLast? with
    | none => exact ⟨_, List.mem_append_right _ (List.mem_singleton_self _), htrim⟩
    | some last =>
      refine ⟨_, List.mem_append_right _ (List.mem_singleton_self _), mem_rstrip hc ?_⟩
      exact List.mem_append_right _ (List.mem_cons_of_mem _ (mem_trim hc hbody))
  · rw [if_neg hd]
    exact ⟨_, List.mem_append_right _ (List.mem_singleton_self _), htrim⟩

theorem shows_readLines (hc : space c = false) (hplus : c ≠ '+') {lines : List (List Char)}
    {line : List Char} (hline : line ∈ lines) (hmem : c ∈ line)
    (hcomment : isComment space line = false) : Shows (readLines space lines) c := by
  have hfold (items : List (List Char × ℕ)) (statements : List Statement)
      (h : Shows statements c) : Shows (items.foldl (readSourceLine space) statements) c := by
    induction items generalizing statements with
    | nil => exact h
    | cons raw rest ih => exact ih _ (h.readSourceLine hc raw)
  rw [← List.zipIdx_map_fst 1 lines, List.mem_map] at hline
  obtain ⟨raw, hraw, rfl⟩ := hline
  obtain ⟨front, back, hsplit⟩ := List.append_of_mem hraw
  rw [readLines, hsplit, List.foldl_append, List.foldl_cons]
  exact hfold back _ (shows_of_mem hc hplus hmem hcomment _)

theorem mem_tokens {statements : List Statement} :
    (∃ token ∈ tokens space statements, c ∈ token.2.2.flatten) ↔
      Shows statements c ∧ space c = false := by
  unfold tokens Shows
  simp only [List.mem_map, exists_exists_and_eq_and, flatten_words, List.mem_filter,
    Bool.not_eq_true']
  constructor
  · rintro ⟨s, hs, hmem, hc⟩
    exact ⟨⟨s, hs, hmem⟩, hc⟩
  · rintro ⟨⟨s, hs, hmem⟩, hc⟩
    exact ⟨s, hs, hmem, hc⟩

end Shown

/-- The validator sees the statements of an accepted text as a simulator does exactly where every
line that holds another space than a blank or a tab is a comment to the simulator. -/
theorem sees_iff_oddSpaces (text : List Char) (statements : List Statement)
    (h : sourceStatements text = .ok statements) :
    SeesSimulatorText text statements ↔ OddSpacesInComments text := by
  obtain ⟨-, rfl⟩ := sourceStatements_ok h
  constructor
  · intro hsees line hline c hmem hspace hblank
    by_contra hcomment
    rw [Bool.not_eq_true] at hcomment
    have hplus : c ≠ '+' := by
      rintro rfl
      revert hspace
      decide
    have hshown := mem_tokens.mpr ⟨shows_readLines hblank hplus hline hmem hcomment, hblank⟩
    rw [← hsees] at hshown
    rw [(mem_tokens.mp hshown).2] at hspace
    cases hspace
  · intro hodd
    obtain ⟨heq, hagree⟩ := @readLines_agree (simulatorLines text) fun line hline => by
      by_cases hcomment : isComment isBlank line = true
      · exact .inr hcomment
      · refine .inl fun c hc => ?_
        cases hspace : isSpace c with
        | true =>
          by_contra hblank
          exact hcomment (hodd line hline c hc hspace (Bool.eq_false_iff.mpr fun h => hblank h.symm))
        | false =>
          by_contra hblank
          rw [isSpace_of_isBlank (Bool.of_not_eq_false fun h => hblank h.symm)] at hspace
          cases hspace
    rw [SeesSimulatorText, heq]
    exact tokens_agree hagree

def oddComment : List Char := "* a\u00a0b\nr1 a b 1k\n".toList

theorem oddComment_seen : SeesSimulatorText oddComment [(2, "r1 a b 1k".toList)] ↔
    OddSpacesInComments oddComment :=
  sees_iff_oddSpaces oddComment _ (by decide)

/-- A card with a no-break space, which separates tokens for the validator only. -/
def oddCard : List Char := "r1 a\u00a0b 1k\n".toList

theorem oddCard_unseen : sourceStatements oddCard = .ok [(1, "r1 a\u00a0b 1k".toList)] ∧
    ¬SeesSimulatorText oddCard [(1, "r1 a\u00a0b 1k".toList)] := by
  constructor
  · decide
  · rw [SeesSimulatorText]
    decide

end OpenADA.Blocks
