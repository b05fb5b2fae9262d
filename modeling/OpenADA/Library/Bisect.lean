import Mathlib.Data.List.TakeWhile
import Mathlib.Order.Lattice
import Mathlib.Tactic

/-! The places of a sorted list where an item belongs. -/
namespace Bisect

variable {α : Type*} [LinearOrder α] {items : List α} {x y start stop : α}

def left (items : List α) (x : α) : ℕ := (items.takeWhile (· < x)).length

def right (items : List α) (x : α) : ℕ := (items.takeWhile (· ≤ x)).length

theorem left_cons_of_lt (h : y < x) : left (y :: items) x = left items x + 1 := by
  rw [left, List.takeWhile_cons_of_pos (by simpa using h), List.length_cons, left]

theorem left_cons_of_le (h : x ≤ y) : left (y :: items) x = 0 := by
  rw [left, List.takeWhile_cons_of_neg (by simpa using h), List.length_nil]

theorem lt_of_lt_left {i : ℕ} (h : i < left items x) (hy : items[i]? = some y) : y < x := by
  induction items generalizing i with
  | nil => cases hy
  | cons z rest ih =>
    by_cases hz : z < x
    · rw [left_cons_of_lt hz] at h
      cases i with
      | zero =>
        rw [List.getElem?_cons_zero] at hy
        exact (Option.some.inj hy) ▸ hz
      | succ i =>
        rw [List.getElem?_cons_succ] at hy
        exact ih (by omega) hy
    · rw [left_cons_of_le (not_lt.mp hz)] at h
      omega

theorem le_of_left_le {i : ℕ} (hsorted : items.Pairwise (· < ·)) (h : left items x ≤ i)
    (hy : items[i]? = some y) : x ≤ y := by
  induction items generalizing i with
  | nil => cases hy
  | cons z rest ih =>
    rw [List.pairwise_cons] at hsorted
    by_cases hz : z < x
    · rw [left_cons_of_lt hz] at h
      obtain ⟨i, rfl⟩ : ∃ k, i = k + 1 := ⟨i - 1, by omega⟩
      rw [List.getElem?_cons_succ] at hy
      exact ih hsorted.2 (by omega) hy
    · rw [not_lt] at hz
      cases i with
      | zero =>
        rw [List.getElem?_cons_zero] at hy
        exact (Option.some.inj hy) ▸ hz
      | succ i =>
        rw [List.getElem?_cons_succ] at hy
        exact hz.trans (hsorted.1 y (List.mem_of_getElem? hy)).le

theorem take_left : items.take (left items x) = items.takeWhile (· < x) :=
  (List.prefix_iff_eq_take.mp (List.takeWhile_prefix _)).symm

theorem takeWhile_lt_eq_filter (hsorted : items.Pairwise (· < ·)) :
    items.takeWhile (· < x) = items.filter (· < x) := by
  induction items with
  | nil => rfl
  | cons y rest ih =>
    rw [List.pairwise_cons] at hsorted
    by_cases hy : y < x
    · rw [List.takeWhile_cons_of_pos (by simpa using hy),
        List.filter_cons_of_pos (by simpa using hy), ih hsorted.2]
    · have hnone : (y :: rest).filter (· < x) = [] := by
        rw [List.filter_eq_nil_iff]
        intro z hz
        rw [decide_eq_true_eq, not_lt]
        rcases List.mem_cons.mp hz with rfl | hz
        · exact not_lt.mp hy
        · exact (not_lt.mp hy).trans (hsorted.1 z hz).le
      rw [List.takeWhile_cons_of_neg (by simpa using hy), hnone]

theorem drop_right_eq_filter (hsorted : items.Pairwise (· < ·)) :
    items.drop (right items x) = items.filter (x < ·) := by
  induction items with
  | nil => rfl
  | cons y rest ih =>
    rw [List.pairwise_cons] at hsorted
    by_cases hy : y ≤ x
    · rw [right, List.takeWhile_cons_of_pos (by simpa using hy), List.length_cons,
        List.drop_succ_cons, List.filter_cons_of_neg (by simpa using hy)]
      exact ih hsorted.2
    · have hall : (y :: rest).filter (x < ·) = y :: rest := by
        rw [List.filter_eq_self]
        intro z hz
        rw [decide_eq_true_eq]
        rcases List.mem_cons.mp hz with rfl | hz
        · exact not_le.mp hy
        · exact (not_le.mp hy).trans (hsorted.1 z hz)
      rw [right, List.takeWhile_cons_of_neg (by simpa using hy), hall]
      rfl

theorem between_eq_filter (hsorted : items.Pairwise (· < ·)) (h : start < stop) :
    (items.take (left items stop)).drop (right items start) =
      items.filter fun x => start < x ∧ x < stop := by
  have hright : right items start = right (items.filter (· < stop)) start := by
    rw [right, right, ← takeWhile_lt_eq_filter hsorted, List.takeWhile_takeWhile]
    congr 2
    funext x
    by_cases hx : x ≤ start
    · simp [hx, hx.trans_lt h]
    · simp [hx]
  rw [take_left, takeWhile_lt_eq_filter hsorted, hright,
    drop_right_eq_filter (hsorted.sublist List.filter_sublist), List.filter_filter]
  simp

end Bisect
