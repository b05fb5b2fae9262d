import Mathlib.Data.List.Basic
import Mathlib.Data.Nat.Bitwise
import Mathlib.Logic.Function.Basic
import Mathlib.Tactic

/-! Lists written as the table of a function: reads and in-place writes become function
application and update. Also the reversal of the low `k` bits of an index, and the reversed
increment: adding one to an index carries its reversal from the top bit down. -/
namespace Tabulated

variable {α : Type}

def table (n : ℕ) (f : ℕ → α) : List α := (List.range n).map f

@[simp] theorem length_table (n : ℕ) (f : ℕ → α) : (table n f).length = n := by
  simp [table]

theorem getElem?_table {n i : ℕ} (f : ℕ → α) (h : i < n) : (table n f)[i]? = some (f i) := by
  simp [table, h]

theorem table_congr {n : ℕ} {f g : ℕ → α} (h : ∀ i < n, f i = g i) : table n f = table n g :=
  List.map_congr_left fun i hi => h i (List.mem_range.mp hi)

theorem set_table {n i : ℕ} (f : ℕ → α) (v : α) :
    (table n f).set i v = table n (Function.update f i v) := by
  apply List.ext_getElem?
  intro j
  by_cases hj : j < n
  · rw [List.getElem?_set, getElem?_table _ hj, getElem?_table _ hj, length_table]
    by_cases hij : i = j
    · subst hij
      simp [hj]
    · have hji : j ≠ i := fun h => hij h.symm
      simp [hij, hji]
  · have hnone : ∀ g : ℕ → α, (table n g)[j]? = none := by
      intro g
      simp [table, hj]
    rw [List.getElem?_set, hnone, hnone, length_table]
    by_cases hij : i = j
    · subst hij
      simp [hj]
    · simp [hij]

theorem eq_table (xs : List α) (d : α) : xs = table xs.length fun i => xs.getD i d := by
  apply List.ext_getElem?
  intro j
  by_cases hj : j < xs.length
  · rw [getElem?_table _ hj]
    simp [List.getD, List.getElem?_eq_getElem hj]
  · simp [table, hj]

end Tabulated

namespace BitReversal

/-- The low `k` bits of `i` in reverse order. -/
def reverse : ℕ → ℕ → ℕ
  | 0, _ => 0
  | k + 1, i => (i % 2) * 2 ^ k + reverse k (i / 2)

theorem reverse_lt (k i : ℕ) : reverse k i < 2 ^ k := by
  induction k generalizing i with
  | zero => exact Nat.one_pos
  | succ k ih =>
    have hbit : i % 2 ≤ 1 := by omega
    have hrest := ih (i / 2)
    have hmul : (i % 2) * 2 ^ k ≤ 1 * 2 ^ k := Nat.mul_le_mul_right _ hbit
    rw [reverse, pow_succ]
    omega

theorem reverse_top (k b r : ℕ) (hb : b < 2) (hr : r < 2 ^ k) :
    reverse (k + 1) (b * 2 ^ k + r) = 2 * reverse k r + b := by
  induction k generalizing r with
  | zero =>
    obtain rfl : r = 0 := by omega
    have hmod : b % 2 = b := Nat.mod_eq_of_lt hb
    simp [reverse, hmod]
  | succ k ih =>
    have hmod : (b * 2 ^ (k + 1) + r) % 2 = r % 2 := by
      rw [pow_succ, ← mul_assoc]
      omega
    have hdiv : (b * 2 ^ (k + 1) + r) / 2 = b * 2 ^ k + r / 2 := by
      rw [pow_succ, ← mul_assoc]
      omega
    have hhalf : r / 2 < 2 ^ k := by
      rw [pow_succ] at hr
      omega
    rw [reverse, hmod, hdiv, ih (r / 2) hhalf, reverse, pow_succ]
    ring

theorem reverse_reverse {k i : ℕ} (h : i < 2 ^ k) : reverse k (reverse k i) = i := by
  induction k generalizing i with
  | zero =>
    have hi : i = 0 := by simpa using h
    rw [hi]
    rfl
  | succ k ih =>
    have hhalf : i / 2 < 2 ^ k := by
      rw [pow_succ] at h
      omega
    have hbit : i % 2 < 2 := by omega
    calc reverse (k + 1) (reverse (k + 1) i)
        = 2 * reverse k (reverse k (i / 2)) + i % 2 :=
          reverse_top k (i % 2) (reverse k (i / 2)) hbit (reverse_lt k (i / 2))
      _ = 2 * (i / 2) + i % 2 := by rw [ih hhalf]
      _ = i := by omega

theorem reverse_zero (k : ℕ) : reverse k 0 = 0 := by
  induction k with
  | zero => rfl
  | succ k ih => simp [reverse, ih]

theorem reverse_even (k m : ℕ) : reverse (k + 1) (2 * m) = reverse k m := by
  have hmod : 2 * m % 2 = 0 := by omega
  have hdiv : 2 * m / 2 = m := by omega
  rw [reverse, hmod, hdiv, zero_mul, zero_add]

theorem reverse_odd (k m : ℕ) : reverse (k + 1) (2 * m + 1) = 2 ^ k + reverse k m := by
  have hmod : (2 * m + 1) % 2 = 1 := by omega
  have hdiv : (2 * m + 1) / 2 = m := by omega
  rw [reverse, hmod, hdiv, one_mul]

theorem xor_top {j r : ℕ} (hr : r < 2 ^ j) : r ^^^ 2 ^ j = 2 ^ j + r := by
  apply Nat.eq_of_testBit_eq
  intro m
  rw [Nat.testBit_xor, Nat.testBit_two_pow]
  rcases Nat.lt_trichotomy m j with hm | rfl | hm
  · have hne : j ≠ m := by omega
    rw [Nat.testBit_two_pow_add_gt hm]
    simp [hne]
  · rw [Nat.testBit_two_pow_add_eq, Nat.testBit_lt_two_pow hr]
    simp
  · have hne : j ≠ m := by omega
    have hpow : 2 ^ (j + 1) ≤ 2 ^ m := Nat.pow_le_pow_right (by omega) hm
    have hlow : r < 2 ^ m := by
      rw [pow_succ] at hpow
      omega
    have hhigh : 2 ^ j + r < 2 ^ m := by
      rw [pow_succ] at hpow
      omega
    rw [Nat.testBit_lt_two_pow hlow, Nat.testBit_lt_two_pow hhigh]
    simp [hne]

theorem and_top_clear {j r : ℕ} (hr : r < 2 ^ j) : r &&& 2 ^ j = 0 := by
  rw [Nat.and_two_pow, Nat.testBit_lt_two_pow hr]
  simp

theorem and_top_set {j r : ℕ} (hr : r < 2 ^ j) : (2 ^ j + r) &&& 2 ^ j = 2 ^ j := by
  rw [Nat.and_two_pow, Nat.testBit_two_pow_add_eq, Nat.testBit_lt_two_pow hr]
  simp

theorem xor_top_set {j r : ℕ} (hr : r < 2 ^ j) : (2 ^ j + r) ^^^ 2 ^ j = r := by
  rw [← xor_top hr, Nat.xor_assoc, Nat.xor_self, Nat.xor_zero]

end BitReversal
