import OpenADA.Library.BitReversal
import Mathlib.Algebra.BigOperators.Intervals
import Mathlib.Tactic

/-! The in-place radix-2 transform of the spectral measurement, over any ring the twiddle roots
live in. Every read is checked and every `while` loop counts rounds, so a run that would index
outside the list or not end comes back as `none`. -/
namespace OpenADA.Spectral

/-- The carry loop: `while target & bit`. -/
def carry : ℕ → ℕ → ℕ → Option (ℕ × ℕ)
  | 0, _, _ => none
  | rounds + 1, target, bit =>
    if target &&& bit ≠ 0 then carry rounds (target ^^^ bit) (bit >>> 1)
    else some (target, bit)

/-- The reversed index that follows `target`. -/
def nextTarget (count target : ℕ) : Option ℕ := do
  let (target, bit) ← carry count target (count >>> 1)
  some (target ^^^ bit)

/-- The sources of the reversal loop with the target each of them is paired with. -/
def visits (count : ℕ) : Option (List (ℕ × ℕ)) := do
  let state ← (List.range' 1 (count - 1)).foldlM (fun (state : ℕ × List (ℕ × ℕ)) source => do
    let target ← nextTarget count state.1
    some (target, state.2 ++ [(source, target)])) (0, [])
  some state.2

section

variable {R : Type} [CommRing R]

def swapAt (transformed : List R) (source target : ℕ) : Option (List R) := do
  let first ← transformed[target]?
  let second ← transformed[source]?
  some ((transformed.set source first).set target second)

def swapVisit (transformed : List R) (visit : ℕ × ℕ) : Option (List R) :=
  if visit.1 < visit.2 then swapAt transformed visit.1 visit.2 else some transformed

def bitReversal (transformed : List R) : Option (List R) := do
  let pairs ← visits transformed.length
  pairs.foldlM swapVisit transformed

def butterfly (root : R) (start half : ℕ) (state : List R × R) (offset : ℕ) :
    Option (List R × R) := do
  let even ← state.1[start + offset]?
  let selected ← state.1[start + offset + half]?
  let odd := selected * state.2
  some (((state.1.set (start + offset) (even + odd)).set (start + offset + half) (even - odd)),
    state.2 * root)

def block (root : R) (half : ℕ) (transformed : List R) (start : ℕ) : Option (List R) := do
  let state ← (List.range half).foldlM (butterfly root start half) (transformed, 1)
  some state.1

/-- `range(0, count, width)`. -/
def starts (count width : ℕ) : List ℕ :=
  (List.range ((count + width - 1) / width)).map fun index => index * width

def pass (root : R) (width : ℕ) (transformed : List R) : Option (List R) :=
  (starts transformed.length width).foldlM (block root (width / 2)) transformed

def passes (root : ℕ → R) : ℕ → ℕ → List R → Option (List R)
  | 0, _, _ => none
  | rounds + 1, width, transformed =>
    if width ≤ transformed.length then do
      let next ← pass (root width) width transformed
      passes root rounds (width * 2) next
    else some transformed

/-- `_fft` with the root of every width. -/
def fft (root : ℕ → R) (values : List R) : Option (List R) := do
  let transformed ← bitReversal values
  passes root (values.length + 1) 2 transformed

def dft (w : R) (values : List R) : List R :=
  (List.range values.length).map fun k =>
    ∑ j ∈ Finset.range values.length, values.getD j 0 * w ^ (j * k)

end

section Reversal

open BitReversal

/-- The carry loop ends for every target and bit: the bit halves in each round. -/
theorem carry_terminates (target bit : ℕ) : ∃ result, carry (bit + 1) target bit = some result := by
  suffices h : ∀ rounds target bit, bit < rounds → ∃ result, carry rounds target bit = some result
    from h (bit + 1) target bit (Nat.lt_succ_self bit)
  intro rounds
  induction rounds with
  | zero => exact fun _ _ h => absurd h (Nat.not_lt_zero _)
  | succ rounds ih =>
    intro target bit hlt
    rw [carry]
    by_cases hcarry : target &&& bit ≠ 0
    · rw [if_pos hcarry]
      have hpos : 0 < bit := by
        rcases Nat.eq_zero_or_pos bit with rfl | hpos
        · exact absurd (Nat.and_zero target) hcarry
        · exact hpos
      have hhalf : bit >>> 1 < rounds := by
        rw [Nat.shiftRight_one]
        omega
      exact ih _ _ hhalf
    · rw [if_neg hcarry]
      exact ⟨_, rfl⟩

theorem carry_reverse {k i rounds : ℕ} (hi : i + 1 < 2 ^ (k + 1)) (hrounds : k < rounds) :
    ∃ target bit, carry rounds (reverse (k + 1) i) (2 ^ k) = some (target, bit) ∧
      target ^^^ bit = reverse (k + 1) (i + 1) := by
  induction k generalizing i rounds with
  | zero =>
    obtain rfl : i = 0 := by omega
    obtain ⟨rounds, rfl⟩ := Nat.exists_eq_add_of_lt hrounds
    exact ⟨0, 1, by simp [carry, reverse], by simp [reverse]⟩
  | succ k ih =>
    obtain ⟨rounds, rfl⟩ : ∃ n, rounds = n + 1 := ⟨rounds - 1, by omega⟩
    obtain ⟨m, rfl | rfl⟩ := Nat.even_or_odd' i
    · have hlow := reverse_lt (k + 1) m
      refine ⟨reverse (k + 1) m, 2 ^ (k + 1), ?_, ?_⟩
      · rw [reverse_even, carry, and_top_clear hlow]
        simp
      · rw [xor_top hlow, reverse_odd]
    · have hlow := reverse_lt (k + 1) m
      have hm : m + 1 < 2 ^ (k + 1) := by
        rw [pow_succ] at hi
        omega
      have hfewer : k < rounds := by omega
      obtain ⟨target, bit, hrun, hxor⟩ := ih hm hfewer
      refine ⟨target, bit, ?_, ?_⟩
      · have hset : (2 ^ (k + 1) + reverse (k + 1) m) &&& 2 ^ (k + 1) ≠ 0 := by
          rw [and_top_set hlow]
          exact (Nat.two_pow_pos _).ne'
        have hshift : 2 ^ (k + 1) >>> 1 = 2 ^ k := by
          rw [Nat.shiftRight_one, pow_succ]
          omega
        rw [reverse_odd, carry, if_pos hset, xor_top_set hlow, hshift, hrun]
      · rw [hxor, show 2 * m + 1 + 1 = 2 * (m + 1) by ring, reverse_even]

theorem nextTarget_reverse {k i : ℕ} (hi : i + 1 < 2 ^ k) :
    nextTarget (2 ^ k) (reverse k i) = some (reverse k (i + 1)) := by
  cases k with
  | zero => simp at hi
  | succ k =>
    have hhalf : 2 ^ (k + 1) >>> 1 = 2 ^ k := by
      rw [Nat.shiftRight_one, pow_succ]
      omega
    have hrounds : k < 2 ^ (k + 1) := lt_trans (Nat.lt_succ_self k) Nat.lt_two_pow_self
    obtain ⟨target, bit, hrun, hxor⟩ := carry_reverse hi hrounds
    unfold nextTarget
    rw [hhalf, hrun]
    exact congrArg some hxor

theorem visits_reverse (k : ℕ) :
    visits (2 ^ k) = some ((List.range' 1 (2 ^ k - 1)).map fun i => (i, reverse k i)) := by
  have hloop : ∀ m, m + 1 ≤ 2 ^ k →
      (List.range' 1 m).foldlM (fun (state : ℕ × List (ℕ × ℕ)) source => do
        let target ← nextTarget (2 ^ k) state.1
        some (target, state.2 ++ [(source, target)])) (0, []) =
      some (reverse k m, (List.range' 1 m).map fun i => (i, reverse k i)) := by
    intro m
    induction m with
    | zero => simp [reverse_zero]
    | succ m ih =>
      intro hm
      have hone : 1 + m = m + 1 := by omega
      rw [List.range'_1_concat, List.foldlM_append, ih (by omega), hone, List.map_append]
      simp [nextTarget_reverse (show m + 1 < 2 ^ k by omega)]
  have hpos : 0 < 2 ^ k := Nat.two_pow_pos k
  unfold visits
  rw [hloop (2 ^ k - 1) (by omega)]
  rfl

end Reversal

end OpenADA.Spectral
