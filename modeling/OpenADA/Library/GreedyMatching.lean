import Mathlib.Data.List.MinMax
import Mathlib.Data.Prod.Lex
import Mathlib.Tactic

/-! Greedy matching: each item in turn takes the cheapest member of a pool that fits it, is not
taken yet and costs no more than a bound. -/
namespace GreedyMatching

variable {α β κ : Type} [LinearOrder κ]

section Greedy

variable (fits : α → β → Bool) (cost : α → β → κ) (bound : κ) (pool : List (β × ℕ))

def choices (used : List ℕ) (a : α) : List (β × ℕ) :=
  pool.filter fun b => decide (b.2 ∉ used) && fits a b.1

/-- The cheapest choice of an item; the first of several that cost the same. -/
def cheapest (used : List ℕ) (a : α) : Option (β × ℕ) :=
  (choices fits pool used a).argmin fun b => toLex (cost a b.1, b.2)

/-- The pairs that are matched, when some members of the pool are taken already. -/
def greedy (used : List ℕ) : List α → List (α × β × ℕ)
  | [] => []
  | a :: rest =>
    match cheapest fits cost pool used a with
    | none => greedy used rest
    | some b =>
      if bound < cost a b.1 then greedy used rest else (a, b) :: greedy (b.2 :: used) rest

end Greedy

variable {fits : α → β → Bool} {cost : α → β → κ} {bound : κ} {pool : List (β × ℕ)}

theorem mem_choices {used : List ℕ} {a : α} {b : β × ℕ} :
    b ∈ choices fits pool used a ↔ b ∈ pool ∧ b.2 ∉ used ∧ fits a b.1 = true := by
  rw [choices, List.mem_filter, Bool.and_eq_true, decide_eq_true_eq]

theorem mem_of_cheapest {used : List ℕ} {a : α} {b : β × ℕ}
    (h : cheapest fits cost pool used a = some b) : b ∈ pool ∧ b.2 ∉ used ∧ fits a b.1 = true :=
  mem_choices.mp (List.argmin_mem h)

theorem cost_le_of_cheapest {used : List ℕ} {a : α} {b c : β × ℕ}
    (h : cheapest fits cost pool used a = some b) (hpool : c ∈ pool) (hused : c.2 ∉ used)
    (hfits : fits a c.1 = true) : cost a b.1 ≤ cost a c.1 := by
  have hle := List.le_of_mem_argmin (f := fun b : β × ℕ => toLex (cost a b.1, b.2))
    (mem_choices.mpr ⟨hpool, hused, hfits⟩) h
  rcases Prod.Lex.le_iff.mp hle with hlt | ⟨heq, _⟩
  · exact hlt.le
  · exact heq.le

theorem used_of_cheapest_none {used : List ℕ} {a : α} (h : cheapest fits cost pool used a = none)
    {c : β × ℕ} (hpool : c ∈ pool) (hfits : fits a c.1 = true) : c.2 ∈ used := by
  by_contra hused
  have hmem := mem_choices.mpr ⟨hpool, hused, hfits⟩
  rw [cheapest, List.argmin_eq_none] at h
  rw [h] at hmem
  exact List.not_mem_nil hmem

/-- Every pair is a member of the pool with an item it fits, within the bound and not taken
before. -/
theorem greedy_sound {used : List ℕ} {items : List α} {m : α × β × ℕ}
    (h : m ∈ greedy fits cost bound pool used items) : m.1 ∈ items ∧ m.2 ∈ pool ∧ m.2.2 ∉ used ∧
      fits m.1 m.2.1 = true ∧ cost m.1 m.2.1 ≤ bound := by
  induction items generalizing used with
  | nil => exact absurd h List.not_mem_nil
  | cons a rest ih =>
    rw [greedy] at h
    split at h
    · exact (ih h).imp_left (List.mem_cons_of_mem a)
    next b hb =>
      split_ifs at h with hbound
      · exact (ih h).imp_left (List.mem_cons_of_mem a)
      · rcases List.mem_cons.mp h with rfl | h
        · obtain ⟨hpool, hused, hfits⟩ := mem_of_cheapest hb
          exact ⟨List.mem_cons_self .., hpool, hused, hfits, not_lt.mp hbound⟩
        · obtain ⟨hmem, hpool, hused, hrest⟩ := ih h
          exact ⟨List.mem_cons_of_mem a hmem, hpool,
            fun hm => hused (List.mem_cons_of_mem _ hm), hrest⟩

theorem greedy_sublist (used : List ℕ) (items : List α) :
    ((greedy fits cost bound pool used items).map Prod.fst).Sublist items := by
  induction items generalizing used with
  | nil => exact List.Sublist.slnil
  | cons a rest ih =>
    rw [greedy]
    split
    · exact (ih used).cons a
    · split_ifs
      · exact (ih used).cons a
      · exact (ih _).cons_cons a

theorem greedy_nodup (used : List ℕ) (items : List α) :
    ((greedy fits cost bound pool used items).map fun m => m.2.2).Nodup := by
  induction items generalizing used with
  | nil => exact List.nodup_nil
  | cons a rest ih =>
    rw [greedy]
    split
    · exact ih used
    next b hb =>
      split_ifs
      · exact ih used
      · rw [List.map_cons, List.nodup_cons]
        refine ⟨fun hmem => ?_, ih _⟩
        obtain ⟨m, hm, heq⟩ := List.mem_map.mp hmem
        exact (greedy_sound hm).2.2.1 (heq ▸ List.mem_cons_self ..)

/-- The matching is maximal: of an item and a member of the pool that it fits within the bound, one
is matched or was taken before. -/
theorem greedy_maximal {used : List ℕ} {items : List α} {a : α} (ha : a ∈ items) {b : β × ℕ}
    (hb : b ∈ pool) (hfits : fits a b.1 = true) (hcost : cost a b.1 ≤ bound) :
    a ∈ (greedy fits cost bound pool used items).map Prod.fst ∨ b.2 ∈ used ∨
      b.2 ∈ (greedy fits cost bound pool used items).map fun m => m.2.2 := by
  induction items generalizing used with
  | nil => exact absurd ha List.not_mem_nil
  | cons first rest ih =>
    rw [greedy]
    rcases List.mem_cons.mp ha with rfl | hrest
    · split
      next hnone => exact .inr (.inl (used_of_cheapest_none hnone hb hfits))
      next c hc =>
        split_ifs with hbound
        · refine .inr (.inl ?_)
          by_contra hused
          exact absurd ((cost_le_of_cheapest hc hb hused hfits).trans hcost) (not_le.mpr hbound)
        · exact .inl (List.mem_cons_self ..)
    · split
      · exact ih hrest
      next c hc =>
        split_ifs
        · exact ih hrest
        · simp only [List.map_cons, List.mem_cons]
          rcases @ih (c.2 :: used) hrest with h | h | h
          · exact .inl (.inr h)
          · rcases List.mem_cons.mp h with heq | h
            · exact .inr (.inr (.inl heq))
            · exact .inr (.inl h)
          · exact .inr (.inr (.inr h))

end GreedyMatching
