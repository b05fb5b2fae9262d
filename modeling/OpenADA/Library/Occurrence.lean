import Mathlib.Data.List.Basic
import Mathlib.Tactic

/-! Words in a text that stand between gaps: how such occurrences survive when texts are joined
and how they are found again when they are split. -/
namespace Occurrence

variable {α : Type} {gap : α → Prop} {word text : List α}

def Occurs (gap : α → Prop) (word text : List α) : Prop :=
  ∃ before after, text = before ++ word ++ after ∧ (∀ c ∈ before.getLast?, gap c) ∧
    ∀ c ∈ after.head?, gap c

def EndsInGap (gap : α → Prop) (text : List α) : Prop := ∀ c ∈ text.getLast?, gap c

theorem EndsInGap.append {more : List α} (h : EndsInGap gap text) (hm : EndsInGap gap more) :
    EndsInGap gap (text ++ more) := by
  intro c hc
  rw [List.getLast?_append] at hc
  cases hlast : more.getLast? with
  | none =>
    rw [hlast] at hc
    exact h c hc
  | some d =>
    rw [hlast] at hc
    obtain rfl := Option.some.inj hc
    exact hm d hlast

/-- A word without gaps is not found at the end of a text that ends in one. -/
theorem Occurs.extend (h : Occurs gap word text) (hn : word ≠ []) (hw : ∀ c ∈ word, ¬ gap c)
    (hend : ∃ c ∈ text.getLast?, gap c) (more : List α) : Occurs gap word (text ++ more) := by
  obtain ⟨before, after, rfl, hbefore, hafter⟩ := h
  refine ⟨before, after ++ more, by simp, hbefore, ?_⟩
  have hne : after ≠ [] := by
    rintro rfl
    obtain ⟨c, hc, hgap⟩ := hend
    rw [List.append_nil, List.getLast?_append_of_ne_nil _ hn] at hc
    exact hw c (List.mem_of_getLast? hc) hgap
  rw [List.head?_append_of_ne_nil _ hne]
  exact hafter

theorem Occurs.append_right (h : Occurs gap word text) {more : List α}
    (hmore : ∀ c ∈ more.head?, gap c) : Occurs gap word (text ++ more) := by
  obtain ⟨before, after, rfl, hbefore, hafter⟩ := h
  refine ⟨before, after ++ more, by simp, hbefore, ?_⟩
  cases after with
  | nil => exact hmore
  | cons c rest => exact hafter

theorem Occurs.append_left (h : Occurs gap word text) {more : List α}
    (hmore : EndsInGap gap more) : Occurs gap word (more ++ text) := by
  obtain ⟨before, after, rfl, hbefore, hafter⟩ := h
  exact ⟨more ++ before, after, by simp, EndsInGap.append hmore hbefore, hafter⟩

/-- A word without gaps lies in one of two texts of which the first ends in a gap. -/
theorem Occurs.split {first second : List α} (h : Occurs gap word (first ++ second))
    (hw : ∀ c ∈ word, ¬ gap c) (hend : EndsInGap gap first) :
    Occurs gap word first ∨ Occurs gap word second := by
  obtain ⟨before, after, htext, hbefore, hafter⟩ := h
  rcases List.append_eq_append_iff.mp htext with ⟨rest, hleft, hright⟩ | ⟨rest, hleft, hright⟩
  · rcases List.append_eq_append_iff.mp hleft with ⟨part, hfirst, hword⟩ | ⟨part, hfirst, hword⟩
    · rcases List.eq_nil_or_concat part with rfl | ⟨front, last, rfl⟩
      · right
        refine ⟨[], after, by rw [hright, hword]; rfl, ?_, hafter⟩
        intro c hc
        cases hc
      · have hlast : gap last := hend last (by rw [hfirst]; simp)
        exact absurd hlast (hw last (by rw [hword]; simp))
    · right
      refine ⟨part, after, by rw [hright, hword], ?_, hafter⟩
      intro c hc
      apply hbefore
      rw [hfirst, List.getLast?_append_of_ne_nil _ (by rintro rfl; cases hc)]
      exact hc
  · left
    refine ⟨before, rest, hleft, hbefore, ?_⟩
    intro c hc
    apply hafter
    rw [hright, List.head?_append_of_ne_nil _ (by rintro rfl; cases hc)]
    exact hc

/-- A word without gaps lies in one of the lines of a text whose lines end in gaps. -/
theorem Occurs.of_flatten {lines : List (List α)} (h : Occurs gap word lines.flatten)
    (hn : word ≠ []) (hw : ∀ c ∈ word, ¬ gap c)
    (hlines : ∀ line ∈ lines.dropLast, EndsInGap gap line) :
    ∃ line ∈ lines, Occurs gap word line := by
  induction lines with
  | nil =>
    obtain ⟨before, after, htext, _⟩ := h
    have hnil : word = [] := by
      have := congrArg List.length htext
      simp only [List.flatten_nil, List.length_nil, List.length_append] at this
      exact List.length_eq_zero_iff.mp (by omega)
    exact absurd hnil hn
  | cons line rest ih =>
    rw [List.flatten_cons] at h
    cases rest with
    | nil =>
      rw [List.flatten_nil, List.append_nil] at h
      exact ⟨line, List.mem_cons_self .., h⟩
    | cons next rest =>
      rcases h.split hw (hlines line (by simp)) with h | h
      · exact ⟨line, List.mem_cons_self .., h⟩
      · obtain ⟨found, hmem, hfound⟩ := ih h fun l hl => hlines l (by simp [hl])
        exact ⟨found, List.mem_cons_of_mem _ hmem, hfound⟩

theorem Occurs.flatten {lines : List (List α)} {line : List α} (hmem : line ∈ lines)
    (h : Occurs gap word line) (hn : word ≠ []) (hw : ∀ c ∈ word, ¬ gap c)
    (hlines : ∀ line ∈ lines.dropLast, ∃ c ∈ line.getLast?, gap c) :
    Occurs gap word lines.flatten := by
  induction lines with
  | nil => cases hmem
  | cons head rest ih =>
    rw [List.flatten_cons]
    cases rest with
    | nil =>
      obtain rfl := List.mem_singleton.mp hmem
      rw [List.flatten_nil, List.append_nil]
      exact h
    | cons next rest =>
      have hhead := hlines head (by simp)
      rcases List.mem_cons.mp hmem with rfl | hmem
      · exact h.extend hn hw hhead _
      · refine (ih hmem fun l hl => hlines l (by simp [hl])).append_left ?_
        intro c hc
        obtain ⟨d, hd, hgap⟩ := hhead
        obtain rfl := Option.some.inj (hc.symm.trans hd)
        exact hgap

theorem Occurs.of_append_gaps {gaps : List α} (h : Occurs gap word (text ++ gaps)) (hn : word ≠ [])
    (hw : ∀ c ∈ word, ¬ gap c) (hgaps : ∀ c ∈ gaps, gap c) : Occurs gap word text := by
  induction gaps using List.reverseRecOn with
  | nil => rwa [List.append_nil] at h
  | append_singleton gaps last ih =>
    apply ih _ fun c hc => hgaps c (List.mem_append_left _ hc)
    obtain ⟨before, after, htext, hbefore, hafter⟩ := h
    rcases List.eq_nil_or_concat after with rfl | ⟨front, final, rfl⟩
    · -- the last character would be one of the word
      have hlast : word.getLast? = some last := by
        have := congrArg List.getLast? htext
        rw [← List.append_assoc, List.getLast?_concat, List.append_nil,
          List.getLast?_append_of_ne_nil _ hn] at this
        exact this.symm
      exact absurd (hgaps last (by simp)) (hw last (List.mem_of_getLast? hlast))
    · have hfront : text ++ gaps = before ++ word ++ front := by
        rw [← List.append_assoc, List.concat_eq_append, ← List.append_assoc] at htext
        exact (List.append_inj' htext rfl).1
      refine ⟨before, front, hfront, hbefore, ?_⟩
      intro c hc
      apply hafter
      rw [List.concat_eq_append, List.head?_append_of_ne_nil _ (by rintro rfl; cases hc)]
      exact hc

theorem Occurs.mono {gap' : α → Prop} (h : Occurs gap word text) (hle : ∀ c, gap c → gap' c) :
    Occurs gap' word text := by
  obtain ⟨before, after, htext, hbefore, hafter⟩ := h
  exact ⟨before, after, htext, fun c hc => hle c (hbefore c hc), fun c hc => hle c (hafter c hc)⟩

/-- The first part between separators heads the text, every later one follows a separator. -/
theorem splitOnP_parts (p : α → Bool) (text : List α) :
    (∀ first ∈ (text.splitOnP p).head?, ∃ after, text = first ++ after ∧
      ∀ c ∈ after.head?, p c = true) ∧
    ∀ part ∈ (text.splitOnP p).tail, ∃ before after, text = before ++ part ++ after ∧
      (∃ c ∈ before.getLast?, p c = true) ∧ ∀ c ∈ after.head?, p c = true := by
  induction text with
  | nil => exact ⟨fun first hfirst => ⟨[], by simpa using hfirst.symm, by simp⟩, by simp⟩
  | cons c rest ih =>
    obtain ⟨ihfirst, ihpart⟩ := ih
    rw [List.splitOnP_cons_eq_if_modifyHead]
    by_cases hc : p c = true
    · rw [if_pos hc]
      refine ⟨fun first hfirst => ?_, fun part hpart => ?_⟩
      · obtain rfl := Option.some.inj hfirst
        exact ⟨c :: rest, rfl, fun d hd => Option.some.inj hd ▸ hc⟩
      · rw [List.tail_cons] at hpart
        cases hsplit : rest.splitOnP p with
        | nil => exact absurd hsplit (List.splitOnP_ne_nil p rest)
        | cons head tail =>
          rw [hsplit] at ihfirst ihpart hpart
          rcases List.mem_cons.mp hpart with rfl | hpart
          · obtain ⟨after, hrest, hafter⟩ := ihfirst _ rfl
            exact ⟨[c], after, by rw [hrest]; rfl, ⟨c, rfl, hc⟩, hafter⟩
          · obtain ⟨before, after, hrest, ⟨d, hd, hgap⟩, hafter⟩ := ihpart part hpart
            refine ⟨c :: before, after, by rw [hrest]; rfl, ⟨d, ?_, hgap⟩, hafter⟩
            rw [List.getLast?_cons_of_ne_nil (by rintro rfl; cases hd)]
            exact hd
    · rw [if_neg hc]
      cases hsplit : rest.splitOnP p with
      | nil => exact absurd hsplit (List.splitOnP_ne_nil p rest)
      | cons head tail =>
        rw [hsplit] at ihfirst ihpart
        obtain ⟨after, hrest, hafter⟩ := ihfirst head rfl
        rw [List.modifyHead_cons]
        refine ⟨fun first hfirst => ?_, fun part hpart => ?_⟩
        · obtain rfl := Option.some.inj hfirst
          exact ⟨after, by rw [hrest]; rfl, hafter⟩
        · obtain ⟨before, after, hrest, ⟨d, hd, hgap⟩, hafter⟩ := ihpart part hpart
          refine ⟨c :: before, after, by rw [hrest]; rfl, ⟨d, ?_, hgap⟩, hafter⟩
          rw [List.getLast?_cons_of_ne_nil (by rintro rfl; cases hd)]
          exact hd

theorem occurs_of_mem_splitOnP {p : α → Bool} {part : List α} (h : part ∈ text.splitOnP p) :
    Occurs (fun c => p c = true) part text := by
  obtain ⟨hfirst, hparts⟩ := splitOnP_parts p text
  cases hsplit : text.splitOnP p with
  | nil => exact absurd hsplit (List.splitOnP_ne_nil p text)
  | cons head tail =>
    rw [hsplit] at h hfirst hparts
    rcases List.mem_cons.mp h with rfl | h
    · obtain ⟨after, htext, hafter⟩ := hfirst _ rfl
      exact ⟨[], after, htext, by simp, hafter⟩
    · obtain ⟨before, after, htext, ⟨c, hc, hgap⟩, hafter⟩ := hparts part h
      refine ⟨before, after, htext, ?_, hafter⟩
      intro d hd
      obtain rfl := Option.some.inj (hd.symm.trans hc)
      exact hgap

end Occurrence
