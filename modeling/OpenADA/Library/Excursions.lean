import Mathlib.Data.List.Infix
import Mathlib.Tactic

/-! The excursions of a sequence from a low item to a high one: a trigger of two states, which a
low item arms and a high item releases. -/
namespace Excursions

variable {α : Type*} (low high : α → Bool)

/-- The excursions of a sequence that comes after an armed run, or after none. Each starts at a low
item, and ends at the first high one behind it. -/
def excursions : Option (List α) → List α → List (List α)
  | _, [] => []
  | none, p :: rest => if low p then excursions (some [p]) rest else excursions none rest
  | some run, p :: rest =>
    if low p then excursions (some [p]) rest
    else if high p then (run ++ [p]) :: excursions none rest
    else excursions (some (run ++ [p])) rest

/-- A low item, and behind it items that are neither low nor high. -/
structure IsArmed (run : List α) : Prop where
  starts : ∃ trough middle, run = trough :: middle ∧ low trough = true ∧
    ∀ m ∈ middle, low m = false ∧ high m = false

def IsExcursion (run : List α) : Prop :=
  ∃ front peak, run = front ++ [peak] ∧ IsArmed low high front ∧ low peak = false ∧
    high peak = true

variable {low high} {armed : Option (List α)} {points run : List α} {p : α}

theorem IsArmed.singleton (hp : low p = true) : IsArmed low high [p] :=
  ⟨p, [], rfl, hp, fun _ hm => absurd hm List.not_mem_nil⟩

theorem excursions_low {rest : List α} (hp : low p = true) (armed : Option (List α)) :
    excursions low high armed (p :: rest) = excursions low high (some [p]) rest := by
  cases armed with
  | none => rw [excursions, if_pos hp]
  | some run => rw [excursions, if_pos hp]

theorem excursions_idle {rest : List α} (hp : low p = false) :
    excursions low high none (p :: rest) = excursions low high none rest := by
  rw [excursions, if_neg (by rw [hp]; exact Bool.false_ne_true)]

theorem excursions_high {rest : List α} (hp : low p = false) (hhigh : high p = true) :
    excursions low high (some run) (p :: rest) = (run ++ [p]) :: excursions low high none rest := by
  rw [excursions, if_neg (by rw [hp]; exact Bool.false_ne_true), if_pos hhigh]

theorem excursions_between {rest : List α} (hp : low p = false) (hhigh : high p = false) :
    excursions low high (some run) (p :: rest) = excursions low high (some (run ++ [p])) rest := by
  rw [excursions, if_neg (by rw [hp]; exact Bool.false_ne_true),
    if_neg (by rw [hhigh]; exact Bool.false_ne_true)]

theorem IsArmed.concat (h : IsArmed low high run) (hlow : low p = false) (hhigh : high p = false) :
    IsArmed low high (run ++ [p]) := by
  obtain ⟨trough, middle, rfl, htrough, hmiddle⟩ := h.starts
  refine ⟨trough, middle ++ [p], List.cons_append, htrough, ?_⟩
  intro m hm
  rcases List.mem_append.mp hm with hm | hm
  · exact hmiddle m hm
  · obtain rfl := List.mem_singleton.mp hm
    exact ⟨hlow, hhigh⟩

theorem isExcursion_of_mem (harmed : ∀ run ∈ armed, IsArmed low high run)
    (h : run ∈ excursions low high armed points) : IsExcursion low high run := by
  induction points generalizing armed with
  | nil => exact absurd h List.not_mem_nil
  | cons p rest ih =>
    by_cases hlow : low p = true
    · rw [excursions_low hlow] at h
      apply ih _ h
      intro other hother
      obtain rfl := Option.some.inj hother
      exact IsArmed.singleton hlow
    cases armed with
    | none =>
      rw [excursions, if_neg hlow] at h
      exact ih (fun other hother => by cases hother) h
    | some front =>
      have hfront := harmed front rfl
      rw [excursions, if_neg hlow] at h
      rw [Bool.not_eq_true] at hlow
      by_cases hhigh : high p = true
      · rw [if_pos hhigh] at h
        rcases List.mem_cons.mp h with rfl | h
        · exact ⟨front, p, rfl, hfront, hlow, hhigh⟩
        · exact ih (fun other hother => by cases hother) h
      · rw [if_neg hhigh] at h
        apply ih _ h
        intro other hother
        obtain rfl := Option.some.inj hother
        exact hfront.concat hlow (Bool.of_not_eq_true hhigh)

theorem flatten_excursions_sublist (armed : Option (List α)) (points : List α) :
    (excursions low high armed points).flatten.Sublist (armed.getD [] ++ points) := by
  induction points generalizing armed with
  | nil => exact List.nil_sublist _
  | cons p rest ih =>
    by_cases hlow : low p = true
    · rw [excursions_low hlow]
      exact (ih (some [p])).trans (List.sublist_append_right _ _)
    cases armed with
    | none =>
      rw [excursions, if_neg hlow]
      exact (ih none).trans (List.sublist_cons_self p rest)
    | some run =>
      rw [excursions, if_neg hlow]
      have hsplit : (some run).getD [] ++ p :: rest = (run ++ [p]) ++ rest := by simp
      rw [hsplit]
      by_cases hhigh : high p = true
      · rw [if_pos hhigh, List.flatten_cons]
        exact (List.Sublist.refl _).append (ih none)
      · rw [if_neg hhigh]
        exact ih (some (run ++ [p]))

theorem infix_of_mem_excursions (h : run ∈ excursions low high armed points) :
    run <:+: armed.getD [] ++ points := by
  induction points generalizing armed with
  | nil => exact absurd h List.not_mem_nil
  | cons p rest ih =>
    by_cases hlow : low p = true
    · rw [excursions_low hlow] at h
      exact (ih h).trans (List.suffix_append _ _).isInfix
    cases armed with
    | none =>
      rw [excursions, if_neg hlow] at h
      exact (ih h).trans (List.suffix_cons p rest).isInfix
    | some front =>
      rw [excursions, if_neg hlow] at h
      have hsplit : (some front).getD [] ++ p :: rest = (front ++ [p]) ++ rest := by simp
      rw [hsplit]
      by_cases hhigh : high p = true
      · rw [if_pos hhigh] at h
        rcases List.mem_cons.mp h with rfl | h
        · exact (List.prefix_append _ _).isInfix
        · exact (ih h).trans (List.suffix_append _ _).isInfix
      · rw [if_neg hhigh] at h
        exact ih h

theorem excursions_complete {trough peak : α} {front middle after : List α}
    (hfront : ∀ m ∈ middle, low m = false ∧ high m = false) (hpeak : low peak = false)
    (hhigh : high peak = true) :
    ∃ others, excursions low high (some (trough :: front)) (middle ++ peak :: after) =
      (trough :: (front ++ middle ++ [peak])) :: others := by
  induction middle generalizing front with
  | nil =>
    refine ⟨excursions low high none after, ?_⟩
    rw [List.nil_append, excursions, if_neg (by rw [hpeak]; decide), if_pos hhigh,
      List.append_nil, List.cons_append]
  | cons m middle ih =>
    rw [List.forall_mem_cons] at hfront
    obtain ⟨others, hothers⟩ := @ih (front ++ [m]) hfront.2
    refine ⟨others, ?_⟩
    rw [List.cons_append, excursions, if_neg (by rw [hfront.1.1]; decide),
      if_neg (by rw [hfront.1.2]; decide), List.cons_append, hothers]
    simp

/-- Each low item with a high one behind it, and neither of them between, gives an excursion. -/
theorem mem_excursions_of_split {trough peak : α} {before middle after : List α}
    (htrough : low trough = true) (hmiddle : ∀ m ∈ middle, low m = false ∧ high m = false)
    (hpeak : low peak = false) (hhigh : high peak = true) (armed : Option (List α)) :
    trough :: (middle ++ [peak]) ∈
      excursions low high armed (before ++ trough :: (middle ++ peak :: after)) := by
  induction before generalizing armed with
  | nil =>
    obtain ⟨others, hothers⟩ := @excursions_complete _ low high trough peak [] middle after hmiddle
      hpeak hhigh
    rw [List.nil_append, excursions_low htrough, hothers, List.nil_append]
    exact List.mem_cons_self
  | cons p before ih =>
    rw [List.cons_append]
    by_cases hlow : low p = true
    · rw [excursions_low hlow]
      exact ih _
    cases armed with
    | none =>
      rw [excursions, if_neg hlow]
      exact ih _
    | some run =>
      rw [excursions, if_neg hlow]
      by_cases hp : high p = true
      · rw [if_pos hp]
        exact List.mem_cons_of_mem _ (ih _)
      · rw [if_neg hp]
        exact ih _

end Excursions
