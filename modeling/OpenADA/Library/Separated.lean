import Mathlib.Data.List.Basic

/-! Lists joined by a separator that none of the joined parts contains. -/
namespace Separated

variable {α : Type} {sep : α}

def Tail (sep : α) (rest : List α) : Prop := rest = [] ∨ ∃ more, rest = sep :: more

theorem tail_cons (sep : α) (more : List α) : Tail sep (sep :: more) := .inr ⟨more, rfl⟩

theorem Tail.head_eq {c : α} {rest : List α} (h : Tail sep (c :: rest)) : c = sep := by
  rcases h with hnil | ⟨more, hcons⟩
  · cases hnil
  · exact (List.cons.inj hcons).1

theorem append_inj {a b s t : List α} (ha : sep ∉ a) (hb : sep ∉ b) (hs : Tail sep s)
    (ht : Tail sep t) (h : a ++ s = b ++ t) : a = b ∧ s = t := by
  induction a generalizing b with
  | nil =>
    cases b with
    | nil => exact ⟨rfl, h⟩
    | cons y b =>
      have hhead : Tail sep (y :: (b ++ t)) := by
        rw [List.nil_append, List.cons_append] at h
        exact h ▸ hs
      exact absurd (hhead.head_eq ▸ List.mem_cons_self) hb
  | cons x a ih =>
    cases b with
    | nil =>
      have hhead : Tail sep (x :: (a ++ s)) := by
        rw [List.nil_append, List.cons_append] at h
        exact h ▸ ht
      exact absurd (hhead.head_eq ▸ List.mem_cons_self) ha
    | cons y b =>
      rw [List.cons_append, List.cons_append] at h
      obtain ⟨hxy, hrest⟩ := List.cons.inj h
      have hparts := ih (fun hm => ha (List.mem_cons_of_mem _ hm))
        (fun hm => hb (List.mem_cons_of_mem _ hm)) hrest
      exact ⟨by rw [hxy, hparts.1], hparts.2⟩

theorem join_inj {a b c d s t : List α} (ha : sep ∉ a) (hb : sep ∉ b) (hc : sep ∉ c)
    (hd : sep ∉ d) (hs : Tail sep s) (ht : Tail sep t)
    (h : a ++ sep :: (c ++ s) = b ++ sep :: (d ++ t)) : a = b ∧ c = d ∧ s = t := by
  obtain ⟨hab, hrest⟩ := append_inj ha hb (tail_cons sep _) (tail_cons sep _) h
  obtain ⟨hcd, hst⟩ := append_inj hc hd hs ht (List.cons.inj hrest).2
  exact ⟨hab, hcd, hst⟩

end Separated
