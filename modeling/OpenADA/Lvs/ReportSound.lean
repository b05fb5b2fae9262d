import OpenADA.Lvs.ReportPhrases

/-! A report passes only when it ends in a match, one of its comparisons binds the cell, and none
of its lines states a failure; a line of a failure at the end of a report keeps it from passing. -/
namespace OpenADA.Lvs

open PyText LinePattern Scalars

section Lines

def reportLines (text : List Char) : List (List Char) := (nativeLines [] text).map strip

def blocks : List (List Char) → List (List (List Char))
  | [] => []
  | line :: rest =>
    if line = summaryHeading then
      (rest.takeWhile fun line => decide (line ≠ summaryHeading)) :: blocks rest
    else blocks rest

def summaryLines (block : List (List Char)) : List (List Char) :=
  block.takeWhile fun line => decide (line ≠ pinsHeading)

def pinsLines (block : List (List Char)) : List (List Char) :=
  block.dropWhile fun line => decide (line ≠ pinsHeading)

variable (alphabet : Alphabet)

def deviceCountOf (line : List Char) : Option (ℕ × ℕ) :=
  (deviceDigits alphabet line).map (integers alphabet)

def netCountOf (line : List Char) : Option (ℕ × ℕ) :=
  (netDigits alphabet line).map (integers alphabet)

/-- What a block says of its comparison: the first bindings and counts of its sections, and the
last classes. -/
def comparisonOf (block : List (List Char)) : ReportComparison where
  summaryBinding := (summaryLines block).findSome? circuitPair
  pinsBinding := (pinsLines block).findSome? circuitPair
  deviceCounts := (summaryLines block).findSome? (deviceCountOf alphabet)
  nodeCounts := (summaryLines block).findSome? (netCountOf alphabet)
  pinListsEquivalent := decide ("Cell pin lists are equivalent.".toList ∈ block)
  deviceClassesBinding := block.reverse.findSome? deviceEquivalence

structure ReportComparison.Binds (cell : List Char) (comparison : ReportComparison) : Prop where
  summary : comparison.summaryBinding = some (cell, cell)
  devices : ∃ n, comparison.deviceCounts = some (n, n)
  nodes : ∃ n, comparison.nodeCounts = some (n, n)
  pins : comparison.pinsBinding = some (cell, cell)
  pinLists : comparison.pinListsEquivalent = true
  classes : comparison.deviceClassesBinding = some (cell, cell)

/-- The last lines that are not empty are a final match, with or without a dot behind it, or the
unique match of a report without final results. -/
def EndsInMatch (lines : List (List Char)) : Prop :=
  (∃ front last, lines.filter (· ≠ []) = front ++ last ∧ ∃ line,
    matchesWhole alphabet finalMatchRe line = true ∧ (last = [line] ∨ last = [line, ['.']])) ∨
  (∃ front line, lines.filter (· ≠ []) = front ++ [line] ∧
    matchesWhole alphabet uniqueMatchRe line = true ∧
    ∀ other ∈ lines, matchesWhole alphabet finalMatchRe other = false)

def Opposes (line : List Char) : Prop :=
  matchesWhole alphabet finalFailureRe line = true ∨
    matchesWhole alphabet terminalFailureRe line = true ∨
    matchesWhole alphabet propertyFailureRe line = true

structure PassReport (cell : List Char) (lines : List (List Char)) : Prop where
  ends : EndsInMatch alphabet lines
  unopposed : ∀ line ∈ lines, ¬ Opposes alphabet line
  bound : ∃ before block after, blocks lines = before ++ block :: after ∧
    (comparisonOf alphabet block).Binds cell ∧
    ∀ other ∈ before ++ after, (comparisonOf alphabet other).summaryBinding ≠ some (cell, cell)
  clean : ∀ line ∈ lines, statesFailure alphabet line = false

end Lines

section Reading

variable (alphabet : Alphabet)

def Sections.next (sections : Sections) (line : List Char) : Sections :=
  (sections.opened line).noted alphabet line

theorem read_eq_some {sections read : Sections} {line : List Char}
    (h : sections.read alphabet line = some read) : read = sections.next alphabet line := by
  unfold Sections.read at h
  dsimp only at h
  by_cases hfull : line = summaryHeading ∧ maxComparisons ≤ sections.comparisons.length
  · rw [if_pos hfull] at h
    cases h
  · rw [if_neg hfull] at h
    split_ifs at h
    exact (Option.some.inj h).symm

theorem foldlM_readReportLine {lines : List (List Char)} {state read : Evidence × Sections}
    (h : lines.foldlM (readReportLine alphabet) state = some read) :
    read = ((lines.map strip).foldl (Evidence.note alphabet) state.1,
      (lines.map strip).foldl (Sections.next alphabet) state.2) := by
  induction lines generalizing state with
  | nil => exact (Option.some.inj h).symm
  | cons line rest ih =>
    rw [List.foldlM_cons] at h
    obtain ⟨middle, hmiddle, hrest⟩ := Option.bind_eq_some_iff.mp h
    unfold readReportLine at hmiddle
    split_ifs at hmiddle
    obtain ⟨sections, hsections, rfl⟩ := Option.map_eq_some_iff.mp hmiddle
    rw [ih hrest, read_eq_some alphabet hsections]
    rfl

theorem readReport_eq_some {text : List Char} {read : Evidence × Sections}
    (h : readReport alphabet text = some read) :
    read = ((reportLines text).foldl (Evidence.note alphabet) .empty,
      (reportLines text).foldl (Sections.next alphabet) ⟨[], none, none⟩) :=
  foldlM_readReportLine alphabet h

def ReportComparison.follow :
    Option ReportSection → ReportComparison → List (List Char) → ReportComparison
  | _, comparison, [] => comparison
  | reading, comparison, line :: rest =>
    let reading := if line = pinsHeading then some .pins else reading
    follow reading (comparison.note alphabet reading line) rest

theorem findSome_cons {α β : Type} (f : α → Option β) (a : α) (rest : List α) :
    (a :: rest).findSome? f = (f a).or (rest.findSome? f) := by
  rw [List.findSome?_cons]
  cases f a <;> rfl

theorem findSome_reverse_cons {α β : Type} (f : α → Option β) (a : α) (rest : List α) :
    (a :: rest).reverse.findSome? f = (rest.reverse.findSome? f).or (f a) := by
  rw [List.reverse_cons, List.findSome?_append, findSome_cons, List.findSome?_nil, Option.or_none]

theorem follow_pins (comparison : ReportComparison) (lines : List (List Char)) :
    comparison.follow alphabet (some .pins) lines =
      { comparison with
        pinsBinding := comparison.pinsBinding.or (lines.findSome? circuitPair)
        pinListsEquivalent := comparison.pinListsEquivalent ||
          decide ("Cell pin lists are equivalent.".toList ∈ lines)
        deviceClassesBinding :=
          (lines.reverse.findSome? deviceEquivalence).or comparison.deviceClassesBinding } := by
  induction lines generalizing comparison with
  | nil => simp [ReportComparison.follow]
  | cons line rest ih =>
    have hreading : (if line = pinsHeading then some ReportSection.pins else some .pins) =
        some .pins := ite_self _
    have hsection : ¬ some ReportSection.pins = some .summary := by decide
    rw [ReportComparison.follow, hreading, ih]
    simp only [ReportComparison.note, if_neg hsection, if_true, findSome_cons,
      findSome_reverse_cons, Option.or_assoc, List.mem_cons, Bool.or_assoc, Bool.decide_or,
      eq_comm (a := line)]

theorem follow_summary (comparison : ReportComparison) (lines : List (List Char)) :
    comparison.follow alphabet (some .summary) lines =
      { summaryBinding := comparison.summaryBinding.or ((comparisonOf alphabet lines).summaryBinding)
        pinsBinding := comparison.pinsBinding.or ((comparisonOf alphabet lines).pinsBinding)
        deviceCounts := comparison.deviceCounts.or ((comparisonOf alphabet lines).deviceCounts)
        nodeCounts := comparison.nodeCounts.or ((comparisonOf alphabet lines).nodeCounts)
        pinListsEquivalent :=
          comparison.pinListsEquivalent || (comparisonOf alphabet lines).pinListsEquivalent
        deviceClassesBinding :=
          (comparisonOf alphabet lines).deviceClassesBinding.or comparison.deviceClassesBinding } := by
  induction lines generalizing comparison with
  | nil => simp [ReportComparison.follow, comparisonOf, summaryLines, pinsLines]
  | cons line rest ih =>
    have hsection : ¬ some ReportSection.summary = some .pins := by decide
    by_cases hpins : line = pinsHeading
    · have hfollow : comparison.follow alphabet (some .summary) (line :: rest) =
          comparison.follow alphabet (some .pins) (line :: rest) := by
        rw [ReportComparison.follow, ReportComparison.follow, if_pos hpins, if_pos hpins]
      rw [hfollow, follow_pins]
      simp [comparisonOf, summaryLines, pinsLines, hpins]
    · rw [ReportComparison.follow, if_neg hpins, ih]
      have htake : summaryLines (line :: rest) = line :: summaryLines rest :=
        List.takeWhile_cons_of_pos (decide_eq_true hpins)
      have hdrop : pinsLines (line :: rest) = pinsLines rest :=
        List.dropWhile_cons_of_pos (decide_eq_true hpins)
      simp only [ReportComparison.note, comparisonOf, htake, hdrop, if_neg hsection, if_true,
        findSome_cons, findSome_reverse_cons, Option.or_assoc, List.mem_cons, Bool.or_assoc,
        Bool.decide_or, eq_comm (a := line), deviceCountOf, netCountOf]

theorem follow_new (block : List (List Char)) :
    ReportComparison.new.follow alphabet (some .summary) block = comparisonOf alphabet block := by
  rw [follow_summary]
  simp [ReportComparison.new]

theorem comparisons_foldl (lines : List (List Char)) (sections : Sections) :
    (lines.foldl (Sections.next alphabet) sections).comparisons =
      sections.closed ++ (sections.current.map fun comparison =>
        comparison.follow alphabet sections.reading
          (lines.takeWhile fun line => decide (line ≠ summaryHeading))).toList ++
        (blocks lines).map (comparisonOf alphabet) := by
  induction lines generalizing sections with
  | nil =>
    cases hcurrent : sections.current <;>
      simp [Sections.comparisons, blocks, ReportComparison.follow, hcurrent]
  | cons line rest ih =>
    rw [List.foldl_cons, ih]
    by_cases hsummary : line = summaryHeading
    · have hnext : sections.next alphabet line = ⟨sections.comparisons, some .new, some .summary⟩ := by
        rw [Sections.next, Sections.opened, if_pos hsummary, hsummary]
        rfl
      rw [hnext, blocks, if_pos hsummary, List.takeWhile_cons_of_neg (by simp [hsummary])]
      cases hcurrent : sections.current <;>
        simp [Sections.comparisons, ReportComparison.follow, hcurrent, follow_new]
    · have hnext : sections.next alphabet line =
          { sections with
            reading := if line = pinsHeading then some .pins else sections.reading
            current := sections.current.map fun comparison =>
              comparison.note alphabet
                (if line = pinsHeading then some .pins else sections.reading) line } := by
        rw [Sections.next, Sections.opened, if_neg hsummary]
        split_ifs <;> rfl
      have htake : ((line :: rest).takeWhile fun line => decide (line ≠ summaryHeading)) =
          line :: rest.takeWhile fun line => decide (line ≠ summaryHeading) :=
        List.takeWhile_cons_of_pos (decide_eq_true hsummary)
      rw [hnext, blocks, if_neg hsummary, htake]
      cases hcurrent : sections.current <;> rfl

end Reading

section Evidence

variable (alphabet : Alphabet)

def finalOutcome (line : List Char) : Option Outcome :=
  if matchesWhole alphabet finalMatchRe line = true then some .pass
  else if matchesWhole alphabet finalFailureRe line = true then some .fail
  else none

theorem failureCount_foldl (lines : List (List Char)) (evidence : Evidence) :
    (lines.foldl (Evidence.note alphabet) evidence).failureCount =
      evidence.failureCount + lines.countP (statesFailure alphabet) := by
  induction lines generalizing evidence with
  | nil => rfl
  | cons line rest ih =>
    have hstep : (evidence.note alphabet line).failureCount =
        evidence.failureCount + if statesFailure alphabet line = true then 1 else 0 := rfl
    rw [List.foldl_cons, ih, hstep, List.countP_cons]
    omega

theorem finalResults_foldl (lines : List (List Char)) (evidence : Evidence) :
    (lines.foldl (Evidence.note alphabet) evidence).finalResults.map Prod.snd =
      evidence.finalResults.map Prod.snd ++ lines.filterMap (finalOutcome alphabet) := by
  induction lines generalizing evidence with
  | nil => simp
  | cons line rest ih =>
    have hstep : (evidence.note alphabet line).finalResults.map Prod.snd =
        evidence.finalResults.map Prod.snd ++ (finalOutcome alphabet line).toList := by
      simp only [Evidence.note, finalOutcome]
      split_ifs <;> simp
    rw [List.foldl_cons, ih, hstep, List.filterMap_cons]
    cases finalOutcome alphabet line <;> simp

theorem trailing_foldl (lines : List (List Char)) (evidence : Evidence) {done : List (List Char)}
    (h : evidence.trailing <:+ done) :
    (lines.foldl (Evidence.note alphabet) evidence).trailing <:+ done ++ lines.filter (· ≠ []) := by
  induction lines generalizing evidence done with
  | nil => simpa using h
  | cons line rest ih =>
    rw [List.foldl_cons]
    by_cases hempty : line = []
    · have hstep : (evidence.note alphabet line).trailing = evidence.trailing := if_pos hempty
      rw [List.filter_cons_of_neg (by simpa using hempty)]
      exact ih _ (hstep ▸ h)
    · have hstep : (evidence.note alphabet line).trailing = (evidence.trailing ++ [line]).rtake 8 :=
        if_neg hempty
      have hdone : (evidence.note alphabet line).trailing <:+ done ++ [line] := by
        rw [hstep]
        exact (List.drop_suffix _ _).trans (List.suffix_append_self_iff.mpr h)
      rw [List.filter_cons_of_pos (by simpa using hempty), ← List.singleton_append,
        ← List.append_assoc]
      exact ih _ hdone

theorem finalTerminal_pass {evidence : Evidence} {number : ℕ} {outcome : Outcome}
    (h : (finalTerminal alphabet evidence number outcome).outcome = some .pass)
    (hconflict : (finalTerminal alphabet evidence number outcome).conflict = false) :
    endsInFinalMatch alphabet evidence.trailing = true ∧
      ∀ result ∈ evidence.finalResults, result.2 = .pass := by
  have hsame : ((evidence.finalResults.any fun result => decide (result.2 ≠ outcome)) = false) := by
    unfold finalTerminal at hconflict
    dsimp only at hconflict
    split_ifs at hconflict <;> exact hconflict
  unfold finalTerminal at h
  dsimp only at h
  split_ifs at h with hafter hnumber hpass hends hnumber
  · cases h
  · refine ⟨hends.1, fun result hresult => ?_⟩
    have hresult := List.any_eq_false.mp hsame result hresult
    rw [decide_eq_true_eq, not_ne_iff] at hresult
    rw [hresult, hpass]
  · exact absurd (Option.some.inj h) hpass

theorem legacyTerminal_pass {evidence : Evidence}
    (h : (legacyTerminal alphabet evidence).outcome = some .pass) :
    ∃ last, evidence.trailing.getLast? = some last ∧
      matchesWhole alphabet uniqueMatchRe last = true := by
  unfold legacyTerminal at h
  cases hlast : evidence.trailing.getLast? with
  | none =>
    rw [hlast] at h
    cases h
  | some last =>
    rw [hlast] at h
    dsimp only at h
    split_ifs at h with hproperty hunique hfailure
    · cases h
    · exact ⟨last, rfl, hunique⟩
    · cases h

theorem terminal_pass {evidence : Evidence}
    (h : (terminal alphabet evidence).outcome = some .pass)
    (hconflict : (terminal alphabet evidence).conflict = false) :
    (endsInFinalMatch alphabet evidence.trailing = true ∧
      ∀ result ∈ evidence.finalResults, result.2 = .pass) ∨
    (evidence.finalResults = [] ∧ ∃ last, evidence.trailing.getLast? = some last ∧
      matchesWhole alphabet uniqueMatchRe last = true) := by
  unfold terminal at h hconflict
  cases hfinal : evidence.finalResults.getLast? with
  | none =>
    rw [hfinal] at h
    exact .inr ⟨List.getLast?_eq_none_iff.mp hfinal, legacyTerminal_pass alphabet h⟩
  | some result =>
    rw [hfinal] at h hconflict
    exact .inl (finalTerminal_pass alphabet h hconflict)

theorem reportVerdict_pass {result : Terminal} {passes fails : Bool} {failureCount : ℕ}
    (h : (reportVerdict result passes fails failureCount).1 = .pass) :
    result.conflict = false ∧ result.outcome = some .pass ∧ passes = true ∧ failureCount = 0 := by
  unfold reportVerdict at h
  split_ifs at h with hconflict hpass hfail
  exact ⟨Bool.eq_false_iff.mpr hconflict, hpass⟩

theorem exists_read_of_pass {expectedCell : Option (List Char)} {size : ℕ} {text : List Char}
    (h : (parseNetgenReportStream alphabet expectedCell size text).outcome = .pass) :
    ∃ evidence sections, readReport alphabet text = some (evidence, sections) ∧
      (terminal alphabet evidence).conflict = false ∧
      (terminal alphabet evidence).outcome = some .pass ∧
      passStructure (expectedBinding expectedCell sections.comparisons)
        (topComparisonOf expectedCell sections.comparisons) = true ∧
      evidence.failureCount = 0 := by
  unfold parseNetgenReportStream at h
  cases hread : readReport alphabet text with
  | none =>
    rw [hread] at h
    split_ifs at h
  | some read =>
    obtain ⟨evidence, sections⟩ := read
    rw [hread] at h
    dsimp only at h
    split_ifs at h
    exact ⟨evidence, sections, rfl, reportVerdict_pass h⟩

end Evidence

section Ends

variable {alphabet : Alphabet}

theorem exists_of_endsInFinalMatch {trailing : List (List Char)}
    (h : endsInFinalMatch alphabet trailing = true) : ∃ front last, trailing = front ++ last ∧
      ∃ line, matchesWhole alphabet finalMatchRe line = true ∧
        (last = [line] ∨ last = [line, ['.']]) := by
  obtain ⟨last, hlast, hmatch⟩ := Option.any_eq_true _ _ |>.mp h
  obtain ⟨front, rfl⟩ := List.getLast?_eq_some_iff.mp hlast
  rw [Bool.or_eq_true, Bool.and_eq_true, decide_eq_true_eq, List.dropLast_concat] at hmatch
  rcases hmatch with hmatch | ⟨rfl, hbefore⟩
  · exact ⟨front, [last], rfl, last, hmatch, .inl rfl⟩
  · obtain ⟨line, hline, hmatch⟩ := Option.any_eq_true _ _ |>.mp hbefore
    obtain ⟨front, rfl⟩ := List.getLast?_eq_some_iff.mp hline
    exact ⟨front, [line, ['.']], by rw [List.append_assoc]; rfl, line, hmatch, .inr rfl⟩

theorem strip_ends (line : List Char) : ∀ c ∈ (strip line).getLast?, isSpace c = false := by
  intro c hc
  have hne : strip line ≠ [] := by
    intro hempty
    rw [hempty] at hc
    cases hc
  rw [List.getLast?_eq_some_getLast hne, Option.mem_some_iff] at hc
  rw [← hc]
  exact Bool.eq_false_iff.mpr (List.rdropWhile_last_not isSpace _ hne)

theorem exists_of_filter_map {α β : Type} {f : α → β} {p : β → Bool} {items : List α} {b : β}
    (h : (items.map f).filter p = [b]) : ∃ before item after, items = before ++ item :: after ∧
      f item = b ∧ ∀ other ∈ before ++ after, p (f other) = false := by
  rw [List.filter_map] at h
  obtain ⟨item, hitem, hb⟩ := List.map_eq_singleton_iff.mp h
  obtain ⟨before, after, hitems, hbefore, -, hafter⟩ := List.filter_eq_cons_iff.mp hitem
  refine ⟨before, item, after, hitems, hb, fun other hother => Bool.eq_false_iff.mpr ?_⟩
  rcases List.mem_append.mp hother with hother | hother
  · exact hbefore other hother
  · exact List.filter_eq_nil_iff.mp hafter other hother

theorem binds_of_passStructure {cell : List Char} {comparisons : List ReportComparison}
    (h : passStructure (expectedBinding (some cell) comparisons)
      (topComparisonOf (some cell) comparisons) = true) :
    ∃ comparison, (comparisons.filter fun comparison =>
        decide (comparison.summaryBinding = some (cell, cell))) = [comparison] ∧
      comparison.Binds cell := by
  have hequal : ∀ {counts : Option (ℕ × ℕ)}, countsAgree counts = true →
      ∃ n, counts = some (n, n) := fun {counts} hcounts => by
    obtain ⟨⟨n, m⟩, rfl, hsame⟩ := Option.any_eq_true _ _ |>.mp hcounts
    have hsame : n = m := of_decide_eq_true hsame
    exact ⟨m, by rw [hsame]⟩
  unfold topComparisonOf topComparisons at h
  dsimp only at h
  cases htop : comparisons.filter fun comparison =>
      decide (comparison.summaryBinding = some (cell, cell)) with
  | nil =>
    rw [htop] at h
    cases h
  | cons comparison rest =>
    rw [htop] at h
    cases rest with
    | cons other rest => cases h
    | nil =>
      refine ⟨comparison, rfl, ?_⟩
      have hsummary : comparison.summaryBinding = some (cell, cell) := by
        have hmem : comparison ∈ comparisons.filter fun comparison =>
            decide (comparison.summaryBinding = some (cell, cell)) := htop ▸ List.mem_cons_self
        exact of_decide_eq_true (List.mem_filter.mp hmem).2
      have hagree := (Bool.and_eq_true_iff.mp h).2
      simp only [Option.any_some, Bool.and_eq_true, decide_eq_true_eq] at hagree
      obtain ⟨⟨⟨⟨hdevices, hnodes⟩, hpins⟩, hlists⟩, hclasses⟩ := hagree
      exact ⟨hsummary, hequal hdevices, hequal hnodes, hpins, hlists, hclasses⟩

theorem passReport_of_pass {cell : List Char} {size : ℕ} {text : List Char}
    (h : (parseNetgenReportStream alphabet (some cell) size text).outcome = .pass) :
    PassReport alphabet cell (reportLines text) := by
  obtain ⟨evidence, sections, hread, hconflict, houtcome, hstructure, hcount⟩ :=
    exists_read_of_pass alphabet h
  obtain ⟨rfl, rfl⟩ := Prod.mk.inj (readReport_eq_some alphabet hread)
  have hclean : ∀ line ∈ reportLines text, statesFailure alphabet line = false := by
    rw [failureCount_foldl] at hcount
    have hnone : (reportLines text).countP (statesFailure alphabet) = 0 := by omega
    exact fun line hline => Bool.eq_false_iff.mpr (List.countP_eq_zero.mp hnone line hline)
  have htrailing : ((reportLines text).foldl (Evidence.note alphabet) .empty).trailing <:+
      (reportLines text).filter (· ≠ []) :=
    trailing_foldl alphabet (reportLines text) .empty (List.suffix_refl [])
  have hresults := finalResults_foldl alphabet (reportLines text) .empty
  have hfinals := terminal_pass alphabet houtcome hconflict
  have hpass : ∀ line ∈ reportLines text, finalOutcome alphabet line ≠ some .fail := by
    intro line hline hfail
    have hmem : Outcome.fail ∈ (reportLines text).filterMap (finalOutcome alphabet) :=
      List.mem_filterMap.mpr ⟨line, hline, hfail⟩
    rw [← List.nil_append (List.filterMap _ _)] at hmem
    obtain ⟨result, hresult, houtcome⟩ := List.mem_map.mp (hresults ▸ hmem)
    rcases hfinals with ⟨-, hall⟩ | ⟨hnone, -⟩
    · rw [hall result hresult] at houtcome
      cases houtcome
    · rw [hnone] at hresult
      cases hresult
  refine ⟨?_, fun line hline => ?_, ?_, hclean⟩
  · obtain ⟨done, hdone⟩ := htrailing
    rcases hfinals with ⟨hends, -⟩ | ⟨hnone, last, hlast, hunique⟩
    · obtain ⟨front, last, hfront, hmatch⟩ := exists_of_endsInFinalMatch hends
      exact .inl ⟨done ++ front, last, by rw [← hdone, hfront, List.append_assoc], hmatch⟩
    · obtain ⟨front, hfront⟩ := List.getLast?_eq_some_iff.mp hlast
      refine .inr ⟨done ++ front, last, by rw [← hdone, hfront, List.append_assoc], hunique,
        fun other hother => Bool.eq_false_iff.mpr fun hmatch => ?_⟩
      rw [hnone] at hresults
      have hmem : Outcome.pass ∈ (reportLines text).filterMap (finalOutcome alphabet) :=
        List.mem_filterMap.mpr ⟨other, hother, if_pos hmatch⟩
      rw [← List.nil_append (List.filterMap _ _)] at hmem
      exact absurd (hresults ▸ hmem) List.not_mem_nil
  · obtain ⟨native, -, hstrip⟩ := List.mem_map.mp hline
    have hends : ∀ c ∈ line.getLast?, isSpace c = false := hstrip ▸ strip_ends native
    rintro (hfinal | hterminal | hproperty)
    · apply hpass line hline
      rw [finalOutcome, if_neg fun hmatch =>
        not_isUnmarked_of_finalFailure hfinal (isUnmarked_of_finalMatch hmatch), if_pos hfinal]
    · have hfailure := statesFailure_of_mem alphabet (map_mem_of_terminalFailure hends hterminal)
      rw [hclean line hline] at hfailure
      cases hfailure
    · have hfailure := statesFailure_of_mem alphabet (map_mem_of_propertyFailure hends hproperty)
      rw [hclean line hline] at hfailure
      cases hfailure
  · rw [comparisons_foldl] at hstructure
    obtain ⟨comparison, hfilter, hbinds⟩ := binds_of_passStructure hstructure
    obtain ⟨before, block, after, hblocks, rfl, hothers⟩ := exists_of_filter_map hfilter
    exact ⟨before, block, after, hblocks, hbinds, fun other hother =>
      of_decide_eq_false (hothers other hother)⟩

end Ends

section Appended

variable {alphabet : Alphabet} {line ending : List Char}

theorem nativeLines_of_line (hline : '\n' ∉ line) (hending : ending = [] ∨ ending = ['\n'])
    (before : List Char) (hne : before ++ line ≠ []) :
    nativeLines before (line ++ ending) = [before ++ (line ++ ending)] := by
  induction line generalizing before with
  | nil =>
    rw [List.append_nil] at hne
    rcases hending with rfl | rfl
    · rw [List.append_nil, nativeLines, if_neg hne, List.append_nil]
    · rfl
  | cons c rest ih =>
    obtain ⟨hc, hrest⟩ := List.ne_and_not_mem_of_not_mem_cons hline
    rw [List.cons_append, nativeLines, if_neg hc.symm, ih hrest _ (by simp), List.append_assoc]
    rfl

/-- A line at the end of a text is the end of the last line that is read. -/
theorem nativeLines_append (hline : '\n' ∉ line) (hending : ending = [] ∨ ending = ['\n'])
    (hne : line ≠ []) (text before : List Char) :
    ∃ front start, nativeLines before (text ++ (line ++ ending)) =
      front ++ [start ++ (line ++ ending)] := by
  induction text generalizing before with
  | nil =>
    refine ⟨[], before, nativeLines_of_line hline hending before fun hempty => ?_⟩
    exact hne (List.append_eq_nil_iff.mp hempty).2
  | cons c rest ih =>
    rw [List.cons_append, nativeLines]
    split_ifs
    · obtain ⟨front, start, hlines⟩ := ih []
      exact ⟨(before ++ [c]) :: front, start, by rw [hlines]; rfl⟩
    · exact ih (before ++ [c])

theorem trailing_note {evidence : Evidence} (hne : line ≠ []) :
    (evidence.note alphabet line).trailing.getLast? = some line := by
  have hstep : (evidence.note alphabet line).trailing = (evidence.trailing ++ [line]).rtake 8 :=
    if_neg hne
  rw [hstep, List.rtake_concat_succ, List.getLast?_concat]

theorem outcome_ne_pass_of_marked {evidence : Evidence} (hlast : evidence.trailing.getLast? = some line)
    (hmarked : ¬ IsUnmarked line)
    (hconflict : (terminal alphabet evidence).conflict = false) :
    (terminal alphabet evidence).outcome ≠ some .pass := by
  intro hpass
  rcases terminal_pass alphabet hpass hconflict with ⟨hends, -⟩ | ⟨-, last, hunique, hmatch⟩
  · rw [endsInFinalMatch, hlast, Option.any_some, Bool.or_eq_true, Bool.and_eq_true,
      decide_eq_true_eq] at hends
    rcases hends with hfinal | ⟨rfl, -⟩
    · exact hmarked (isUnmarked_of_finalMatch hfinal)
    · exact hmarked (by decide)
  · rw [hlast] at hunique
    obtain rfl := Option.some.inj hunique
    exact hmarked (isUnmarked_of_uniqueMatch hmatch)

/-- A line in which a failure is found keeps a report from passing when it is its last one. -/
theorem appended_failure (expectedCell : Option (List Char)) (size : ℕ) (text : List Char)
    (hline : '\n' ∉ line) (hending : ending = [] ∨ ending = ['\n'])
    (hfailure : finds alphabet failureRe line = true) :
    (parseNetgenReportStream alphabet expectedCell size (text ++ (line ++ ending))).outcome ≠
      .pass := by
  intro hpass
  obtain ⟨word, hword, hinfix⟩ := holds_failureRe.of_search hfailure
  have hne : line ≠ [] := by
    rintro rfl
    rw [List.infix_nil.mp hinfix] at hword
    revert hword
    decide
  obtain ⟨front, start, hlines⟩ := nativeLines_append hline hending hne text []
  have hmarked : ¬ IsUnmarked (strip (start ++ (line ++ ending))) := by
    intro hunmarked
    apply hunmarked word hword
    rw [denseLine_strip, denseLine, dense_append, dense_append]
    exact hinfix.trans ((List.prefix_append _ _).isInfix.trans (List.suffix_append _ _).isInfix)
  obtain ⟨evidence, sections, hread, hconflict, houtcome, -, -⟩ := exists_read_of_pass alphabet hpass
  obtain ⟨rfl, rfl⟩ := Prod.mk.inj (readReport_eq_some alphabet hread)
  refine outcome_ne_pass_of_marked ?_ hmarked hconflict houtcome
  rw [reportLines, hlines, List.map_append, List.foldl_append]
  refine trailing_note fun hempty => hmarked ?_
  rw [hempty]
  decide

/-- A pass speaks for the report as a whole, and no report passes with a failure at its end. -/
theorem report_pass_sound (alphabet : Alphabet) :
    (∀ (cell : List Char) (size : ℕ) (text : List Char),
      (parseNetgenReportStream alphabet (some cell) size text).outcome = .pass →
        PassReport alphabet cell (reportLines text)) ∧
    ∀ (expectedCell : Option (List Char)) (size : ℕ) (text line ending : List Char),
      '\n' ∉ line → (ending = [] ∨ ending = ['\n']) → finds alphabet failureRe line = true →
        (parseNetgenReportStream alphabet expectedCell size (text ++ (line ++ ending))).outcome ≠
          .pass :=
  ⟨fun _ _ _ h => passReport_of_pass h, fun expectedCell size text _ _ hline hending hfailure =>
    appended_failure expectedCell size text hline hending hfailure⟩

end Appended

section Dotted

/-- The words and digits of ASCII, and the letters that are compared as ones of ASCII. -/
def asciiAlphabet : Alphabet where
  words :=
    { isWord := fun c =>
        c.isAlphanum || decide (c = '_' ∨ c ∈ ['\u212a', '\u0130', '\u0131', '\u017f'])
      ascii := fun c h => by
        rw [Bool.or_eq_true, decide_eq_true_eq] at h ⊢
        exact h.imp_right .inl
      space := fun c hc => by
        rw [Bool.or_eq_false_iff, decide_eq_false_iff_not]
        constructor
        · by_contra halnum
          rw [isSpace_eq_false_of_alnum (Bool.of_not_eq_false halnum)] at hc
          cases hc
        · intro hletter
          have hletters : ∀ d ∈ ['_', '\u212a', '\u0130', '\u0131', '\u017f'],
              isSpace d = false := forall_chars (by decide)
          rw [hletters c (List.mem_cons.mpr hletter)] at hc
          cases hc }
  digits := asciiDigits
  digitValue := asciiDigitValue
  ascii c hc := by
    have hletter : c ∉ ['\u212a', '\u0130', '\u0131', '\u017f'] := by
      have hletters : ∀ d ∈ ['\u212a', '\u0130', '\u0131', '\u017f'], 128 ≤ d.toNat :=
        forall_chars (by decide)
      intro hmem
      exact absurd hc (Nat.not_lt.mpr (hletters c hmem))
    simp only [hletter, or_false]
  letters := forall_chars (by decide)
  value _ _ := rfl

def dottedReport : List Char :=
  "Subcircuit summary:\nCircuit 1: top |Circuit 2: top\n".toList ++
    "Number of devices: 1 |Number of devices: 1\nNumber of nets: 2 |Number of nets: 2\n".toList ++
    "Subcircuit pins:\nCircuit 1: top |Circuit 2: top\n".toList ++
    "Cell pin lists are equivalent.\nDevice classes top and top are equivalent.\n".toList ++
    "Final result: Circuits match uniquely.\n.\n".toList

/-- A report passes although a line of its own follows the match. -/
theorem dottedReport_passes :
    (parseNetgenReportStream asciiAlphabet (some "top".toList) 294 dottedReport).outcome = .pass ∧
      (reportLines dottedReport).getLast? = some ['.'] ∧
      matchesWhole asciiAlphabet finalMatchRe ['.'] = false ∧
      matchesWhole asciiAlphabet uniqueMatchRe ['.'] = false := by
  have hchars : dottedReport = _ := append_literal (append_literal (append_literal
    (append_literal String.toList_ofList _) _) _) _
  rw [hchars]
  decide +kernel

end Dotted

end OpenADA.Lvs
