import OpenADA.Ngspice.Log

/-! What the lines above the banner of the simulator have to do with the verdict on a run. -/
namespace OpenADA.Ngspice

open PyText LinePattern

section Lines

theorem breakLines_newline_append (line before tail : List Char) :
    breakLines line (before ++ '\n' :: tail) =
      breakLines line (before ++ ['\n']) ++ breakLines [] tail := by
  have hbreak (line tail : List Char) :
      breakLines line ('\n' :: tail) = (line, ['\n']) :: breakLines [] tail := by
    cases tail with
    | nil => rfl
    | cons c rest => rw [breakLines, if_neg (by simp), if_pos (by decide)]
  fun_induction breakLines line before with
  | case1 line _ => exact hbreak line tail
  | case2 line _ => exact hbreak line tail
  | case3 line c hc =>
    show breakLines line (c :: '\n' :: tail) = breakLines line [c, '\n'] ++ breakLines [] tail
    by_cases hreturn : c = '\r'
    · rw [breakLines, if_pos ⟨hreturn, rfl⟩, breakLines, if_pos ⟨hreturn, rfl⟩]
      rfl
    · have hneither : ¬(c = '\r' ∧ '\n' = '\n') := fun h => hreturn h.1
      rw [breakLines, if_neg hneither, if_pos hc, breakLines, if_neg hneither, if_pos hc,
        hbreak [] tail]
      rfl
  | case4 line c hc =>
    show breakLines line (c :: '\n' :: tail) = breakLines line [c, '\n'] ++ breakLines [] tail
    have hneither : ¬(c = '\r' ∧ '\n' = '\n') := by
      rintro ⟨rfl, -⟩
      exact hc (by decide)
    rw [breakLines, if_neg hneither, if_neg hc, breakLines, if_neg hneither, if_neg hc,
      hbreak _ tail]
    rfl
  | case5 line c next rest h ih =>
    rw [List.cons_append, List.cons_append, breakLines, if_pos h, ih, List.cons_append,
      List.cons_append, breakLines, if_pos h]
    rfl
  | case6 line c next rest h hc ih =>
    rw [List.cons_append, List.cons_append, breakLines, if_neg h, if_pos hc, List.cons_append,
      List.cons_append, breakLines, if_neg h, if_pos hc, ← List.cons_append, ih]
    rfl
  | case7 line c next rest h hc ih =>
    rw [List.cons_append, List.cons_append, breakLines, if_neg h, if_neg hc, List.cons_append,
      List.cons_append, breakLines, if_neg h, if_neg hc, ← List.cons_append, ih]
    rfl

def WholeLines (text : List Char) : Prop := ∀ c ∈ text.getLast?, c = '\n'

theorem splitLines_append {before : List Char} (h : WholeLines before) (tail : List Char) :
    splitLines (before ++ tail) = splitLines before ++ splitLines tail := by
  rcases List.eq_nil_or_concat' before with rfl | ⟨front, last, rfl⟩
  · rfl
  · obtain rfl := h last (by simp)
    unfold splitLines
    rw [List.append_assoc, List.singleton_append, breakLines_newline_append, List.map_append]

theorem splitLines_head_prefix {text line : List Char} (h : (splitLines text).head? = some line) :
    ∃ rest, text = line ++ rest := by
  have hwhole := flatten_breakLines [] text
  unfold splitLines at h
  cases hbroken : breakLines [] text with
  | nil =>
    rw [hbroken] at h
    cases h
  | cons first rest =>
    rw [hbroken] at h hwhole
    obtain rfl := Option.some.inj h
    rw [List.map_cons, List.flatten_cons, List.nil_append, List.append_assoc] at hwhole
    exact ⟨_, hwhole.symm⟩

end Lines

section Banner

variable {words : WordClass}

def Bounded : Pattern → Prop
  | .boundary => False
  | .seq first second | .either first second => Bounded first ∧ Bounded second
  | _ => True

theorem Bounded.matches_iff {isWord : Char → Bool} {pattern : Pattern} (h : Bounded pattern)
    {found : List Char} {previous previous' : Option Char} {rest rest' : List Char} :
    Matches isWord pattern previous found rest ↔ Matches isWord pattern previous' found rest' := by
  induction pattern generalizing found previous previous' rest rest' with
  | empty => exact Iff.rfl
  | char p => exact Iff.rfl
  | gap p => exact Iff.rfl
  | boundary => cases h
  | seq first second ihFirst ihSecond =>
    apply exists_congr
    intro a
    apply exists_congr
    intro b
    exact and_congr_right' (and_congr (ihFirst h.1) (ihSecond h.2))
  | either first second ihFirst ihSecond =>
    exact or_congr (ihFirst h.1) (ihSecond h.2)

theorem bounded_sequence {parts : List Pattern} (h : ∀ part ∈ parts, Bounded part) :
    Bounded (.sequence parts) := by
  induction parts with
  | nil => trivial
  | cons part rest ih =>
    obtain ⟨hpart, hrest⟩ := List.forall_mem_cons.mp h
    exact ⟨hpart, ih hrest⟩

theorem bounded_phrase (text : String) : Bounded (phrase text) := by
  apply bounded_sequence
  intro part hpart
  obtain ⟨c, -, rfl⟩ := List.mem_map.mp hpart
  trivial

theorem bounded_banner : Bounded banner := by
  apply bounded_sequence
  simp only [List.forall_mem_cons]
  exact ⟨trivial, ⟨trivial, trivial⟩, trivial, bounded_phrase _, ⟨trivial, trivial⟩, trivial,
    bounded_phrase _, fun part hpart => absurd hpart List.not_mem_nil⟩

theorem ends_of_isBanner {line : List Char} (h : isBanner words line = true)
    (previous : Option Char) (rest : List Char) :
    (ends words.isWord banner (previous, line ++ rest)).isEmpty = false := by
  unfold isBanner at h
  rw [Bool.not_eq_true', List.isEmpty_eq_false_iff_exists_mem] at h
  obtain ⟨⟨last, behind⟩, hplace⟩ := h
  obtain ⟨found, hline, -, hfound⟩ := mem_ends.mp hplace
  dsimp only at hline hfound
  rw [List.isEmpty_eq_false_iff_exists_mem]
  refine ⟨(lastOr previous found, behind ++ rest), mem_ends.mpr ⟨found, ?_, rfl, ?_⟩⟩
  · rw [hline, List.append_assoc]
  · exact bounded_banner.matches_iff.mp hfound

theorem searchHeads_of_ends {pattern : Pattern} {previous : Option Char} {before tail : List Char}
    (hhead : (lastOr previous before).all (· = '\n') = true)
    (hends : (ends words.isWord pattern (lastOr previous before, tail)).isEmpty = false) :
    searchHeads words pattern previous (before ++ tail) = true := by
  induction before generalizing previous with
  | nil =>
    rw [lastOr_nil] at hhead hends
    rw [List.nil_append]
    cases tail with
    | nil =>
      rw [searchHeads, hhead, hends]
      rfl
    | cons c rest =>
      rw [searchHeads, hhead, hends]
      rfl
  | cons c before ih =>
    rw [lastOr_cons] at hhead hends
    rw [List.cons_append, searchHeads, ih hhead hends, Bool.or_true]

def StartsWithBanner (words : WordClass) (tail : List Char) : Prop :=
  ∃ line, (splitLines tail).head? = some line ∧ isBanner words line = true

structure Above (words : WordClass) (before : List Char) : Prop where
  whole : WholeLines before
  noBanner : ∀ line ∈ splitLines before, isBanner words line = false

theorem searchHeads_banner {before tail : List Char} (hbefore : WholeLines before)
    (htail : StartsWithBanner words tail) :
    searchHeads words banner none (before ++ tail) = true := by
  obtain ⟨line, hline, hbanner⟩ := htail
  obtain ⟨rest, rfl⟩ := splitLines_head_prefix hline
  apply searchHeads_of_ends
  · rw [lastOr, Option.or_none, Option.all_eq_true]
    exact fun c hc => decide_eq_true (hbefore c hc)
  · exact ends_of_isBanner hbanner _ _

end Banner

section Scan

variable {words : WordClass} {state other : LogState} {line : List Char}
  {before before' tail : List Char}

structure SameVerdict (state other : LogState) : Prop where
  convergence : state.convergenceError = other.convergenceError
  native : state.nativeError = other.nativeError
  warning : state.batchMeasurementWarning = other.batchMeasurementWarning
  completed : state.completedAnalysis = other.completedAnalysis

theorem SameVerdict.refl (state : LogState) : SameVerdict state state := ⟨rfl, rfl, rfl, rfl⟩

theorem SameVerdict.trans {third : LogState} (h : SameVerdict state other)
    (h' : SameVerdict other third) : SameVerdict state third :=
  ⟨h.convergence.trans h'.convergence, h.native.trans h'.native, h.warning.trans h'.warning,
    h.completed.trans h'.completed⟩

theorem SameVerdict.symm (h : SameVerdict state other) : SameVerdict other state :=
  ⟨h.convergence.symm, h.native.symm, h.warning.symm, h.completed.symm⟩

theorem scanStep_above (h : isBanner words line = false) :
    (scanStep words (false, state) line).1 = false ∧
      SameVerdict state (scanStep words (false, state) line).2 := by
  unfold scanStep
  rw [h]
  exact ⟨rfl, rfl, rfl, rfl, rfl⟩

theorem foldl_above {lines : List (List Char)} (h : ∀ line ∈ lines, isBanner words line = false) :
    (lines.foldl (scanStep words) (false, state)).1 = false ∧
      SameVerdict state (lines.foldl (scanStep words) (false, state)).2 := by
  induction lines generalizing state with
  | nil => exact ⟨rfl, SameVerdict.refl state⟩
  | cons line rest ih =>
    obtain ⟨hline, hrest⟩ := List.forall_mem_cons.mp h
    obtain ⟨hseen, hsame⟩ : (scanStep words (false, state) line).1 = false ∧
        SameVerdict state (scanStep words (false, state) line).2 := scanStep_above hline
    have hpair : scanStep words (false, state) line =
        (false, (scanStep words (false, state) line).2) := Prod.ext hseen rfl
    rw [List.foldl_cons, hpair]
    obtain ⟨hfinal, hlater⟩ := ih hrest
    exact ⟨hfinal, hsame.trans hlater⟩

theorem scanStep_sameVerdict (h : SameVerdict state other) (seen : Bool) :
    (scanStep words (seen, state) line).1 = (scanStep words (seen, other) line).1 ∧
      SameVerdict (scanStep words (seen, state) line).2 (scanStep words (seen, other) line).2 := by
  obtain ⟨hconvergence, hnative, hwarning, hcompleted⟩ := h
  refine ⟨rfl, ?_⟩
  unfold scanStep
  dsimp only
  split
  · constructor
    · simp only [LogState.count, hconvergence]
    · simp only [LogState.count, hnative]
    · simp only [LogState.count, hwarning]
    · simp only [LogState.count, hcompleted]
  · exact ⟨hconvergence, hnative, hwarning, hcompleted⟩

theorem foldl_sameVerdict (h : SameVerdict state other) (seen : Bool) (lines : List (List Char)) :
    SameVerdict (lines.foldl (scanStep words) (seen, state)).2
      (lines.foldl (scanStep words) (seen, other)).2 := by
  induction lines generalizing state other seen with
  | nil => exact h
  | cons line rest ih =>
    obtain ⟨hseen, hsame⟩ : (scanStep words (seen, state) line).1 =
          (scanStep words (seen, other) line).1 ∧
        SameVerdict (scanStep words (seen, state) line).2 (scanStep words (seen, other) line).2 :=
      scanStep_sameVerdict h seen
    rw [List.foldl_cons, List.foldl_cons]
    have hpair : scanStep words (seen, other) line =
        ((scanStep words (seen, state) line).1, (scanStep words (seen, other) line).2) :=
      Prod.ext hseen.symm rfl
    rw [hpair]
    exact ih hsame _

theorem scanText_above (hbefore : Above words before) (htail : StartsWithBanner words tail) :
    SameVerdict (scanText words state (before ++ tail)) (scanText words state tail) := by
  have hwhole : WholeLines [] := fun c hc => by cases hc
  have hnone := searchHeads_banner hwhole htail
  rw [List.nil_append] at hnone
  unfold scanText
  dsimp only
  rw [searchHeads_banner hbefore.whole htail, hnone, splitLines_append hbefore.whole,
    List.foldl_append]
  obtain ⟨hseen, hsame⟩ : ((splitLines before).foldl (scanStep words) (false, state)).1 = false ∧
      SameVerdict state ((splitLines before).foldl (scanStep words) (false, state)).2 :=
    foldl_above hbefore.noBanner
  have hpair : (splitLines before).foldl (scanStep words) (false, state) =
      (false, ((splitLines before).foldl (scanStep words) (false, state)).2) :=
    Prod.ext hseen rfl
  show SameVerdict ((splitLines tail).foldl (scanStep words)
    ((splitLines before).foldl (scanStep words) (false, state))).2 _
  rw [hpair]
  exact foldl_sameVerdict hsame.symm false _

def Reports (words : WordClass) (text : List Char) : Prop :=
  ∃ line ∈ splitLines text, (scanLine words line).convergence.isSome = true

theorem foldl_or_isSome {α β : Type} (f : α → Option β) (items : List α) (found : Option β) :
    (items.foldl (fun found item => found.or (f item)) found).isSome = true ↔
      found.isSome = true ∨ ∃ item ∈ items, (f item).isSome = true := by
  induction items generalizing found with
  | nil => simp
  | cons item rest ih =>
    rw [List.foldl_cons, ih, Option.isSome_or, Bool.or_eq_true]
    simp [or_assoc]

theorem logConvergenceError_isSome {log : List Char} :
    (logConvergenceError words log).isSome = true ↔ Reports words log := by
  unfold logConvergenceError
  rw [foldl_or_isSome]
  simp [Reports]

theorem reports_append (h : WholeLines before) :
    Reports words (before ++ tail) ↔ Reports words before ∨ Reports words tail := by
  unfold Reports
  rw [splitLines_append h]
  simp [or_and_right, exists_or]

/-- Two logs that differ above the banner only give the same verdict just when both or neither of
them reports a failure to converge there, or both report one from the banner on. -/
theorem logVerdict_isolated_iff (words : WordClass) (stdout stderr before before' tail : List Char)
    (hbefore : Above words before) (hbefore' : Above words before')
    (htail : StartsWithBanner words tail) :
    logVerdict words stdout stderr (before ++ tail) =
        logVerdict words stdout stderr (before' ++ tail) ↔
      Reports words tail ∨ (Reports words before ↔ Reports words before') := by
  have hscan : SameVerdict
      (scanText words (scanText words (scanText words .start stdout) stderr) (before ++ tail))
      (scanText words (scanText words (scanText words .start stdout) stderr) (before' ++ tail)) :=
    (scanText_above hbefore htail).trans (scanText_above hbefore' htail).symm
  have hverdict : logVerdict words stdout stderr (before ++ tail) =
        logVerdict words stdout stderr (before' ++ tail) ↔
      (logConvergenceError words (before ++ tail)).isSome =
        (logConvergenceError words (before' ++ tail)).isSome := by
    unfold logVerdict
    rw [LogVerdict.mk.injEq]
    exact ⟨fun h => h.2.2.2.2,
      fun h => ⟨hscan.convergence, hscan.native, hscan.warning, hscan.completed, h⟩⟩
  rw [hverdict, Bool.eq_iff_iff, logConvergenceError_isSome, logConvergenceError_isSome,
    reports_append hbefore.whole, reports_append hbefore'.whole]
  tauto

def startupLines : List Char := "init: timestep too small\n".toList

def completeLog : List Char := "** ngspice-46 : x\nNo. of Data Rows : 5\n".toList

def soundRun : RunFacts := ⟨true, true, true, true, true, true, true, true, true⟩

theorem startupLines_above : Above asciiWords startupLines := by
  have hlines : splitLines startupLines = ["init: timestep too small".toList] := by decide
  constructor
  · intro c hc
    have hlast : startupLines.getLast? = some '\n' := by decide
    rw [hlast] at hc
    exact (Option.some.inj hc).symm
  · intro line hline
    rw [hlines, List.mem_singleton] at hline
    rw [hline]
    decide

theorem above_nil (words : WordClass) : Above words [] := by
  constructor
  · intro c hc
    cases hc
  · intro line hline
    cases hline

theorem completeLog_banner : StartsWithBanner asciiWords completeLog :=
  ⟨"** ngspice-46 : x".toList, by decide, by decide⟩

theorem startupLines_report : Reports asciiWords startupLines :=
  ⟨"init: timestep too small".toList, by decide, by decide⟩

/-- A line above the banner makes a run that passes a failed one. -/
theorem startup_line_decides :
    Above asciiWords startupLines ∧ StartsWithBanner asciiWords completeLog ∧
      engineeringStatus soundRun (logVerdict asciiWords [] [] completeLog) = .pass ∧
      engineeringStatus soundRun (logVerdict asciiWords [] [] (startupLines ++ completeLog)) =
        .fail :=
  ⟨startupLines_above, completeLog_banner, by decide, by decide⟩

/-- The verdicts on the two runs differ. -/
theorem startup_verdicts_differ : logVerdict asciiWords [] [] (startupLines ++ completeLog) ≠
    logVerdict asciiWords [] [] ([] ++ completeLog) := by
  rw [Ne, logVerdict_isolated_iff asciiWords [] [] _ _ _ startupLines_above
    (above_nil asciiWords) completeLog_banner]
  have hnone : ¬Reports asciiWords [] := by
    rintro ⟨line, hline, -⟩
    cases hline
  have hquiet : ¬Reports asciiWords completeLog := by
    rintro ⟨line, hline, hreport⟩
    have hlines : splitLines completeLog =
        ["** ngspice-46 : x".toList, "No. of Data Rows : 5".toList] := by decide
    rw [hlines, List.mem_cons, List.mem_singleton] at hline
    rcases hline with rfl | rfl
    · exact absurd hreport (by decide)
    · exact absurd hreport (by decide)
  rintro (h | h)
  · exact hquiet h
  · exact hnone (h.mp startupLines_report)

end Scan

end OpenADA.Ngspice
