import Mathlib.Algebra.BigOperators.Group.Finset.Basic
import Mathlib.Data.Finset.Basic
import Mathlib.Data.List.Sort
import Mathlib.Tactic

/-! The sorted list of a finite set, by insertion so that it evaluates structurally. -/
namespace Finset

variable {α : Type} [LinearOrder α]

/-- `sorted(s)` of a set. -/
def sortedList (s : Finset α) : List α :=
  Quot.liftOn s.1 (fun items => items.insertionSort (· ≤ ·)) fun a b h =>
    List.Perm.eq_of_pairwise (fun _ _ _ _ h₁ h₂ => le_antisymm h₁ h₂)
      (List.pairwise_insertionSort _ a) (List.pairwise_insertionSort _ b)
      (((List.perm_insertionSort _ a).trans h).trans (List.perm_insertionSort _ b).symm)

theorem coe_sortedList (s : Finset α) : (s.sortedList : Multiset α) = s.1 := by
  obtain ⟨items, hn⟩ := s
  induction items using Quot.ind with
  | mk items => exact Quot.sound (List.perm_insertionSort _ items)

@[simp] theorem mem_sortedList {s : Finset α} {a : α} : a ∈ s.sortedList ↔ a ∈ s := by
  rw [← Multiset.mem_coe, coe_sortedList]
  rfl

theorem nodup_sortedList (s : Finset α) : s.sortedList.Nodup := by
  rw [← Multiset.coe_nodup, coe_sortedList]
  exact s.2

theorem pairwise_sortedList (s : Finset α) : s.sortedList.Pairwise (· < ·) := by
  have hle : s.sortedList.Pairwise (· ≤ ·) := by
    obtain ⟨items, hn⟩ := s
    induction items using Quot.ind with
    | mk items => exact List.pairwise_insertionSort _ items
  exact hle.imp₂ (fun _ _ hle hne => lt_of_le_of_ne hle hne) s.nodup_sortedList

theorem sum_sortedList {M : Type} [AddCommMonoid M] (s : Finset α) (f : α → M) :
    (s.sortedList.map f).sum = ∑ a ∈ s, f a := by
  rw [← Multiset.sum_coe, ← Multiset.map_coe, coe_sortedList]
  rfl

@[simp] theorem sortedList_eq_nil {s : Finset α} : s.sortedList = [] ↔ s = ∅ := by
  constructor
  · intro h
    ext a
    rw [← mem_sortedList, h]
    simp
  · rintro rfl
    rfl

end Finset
