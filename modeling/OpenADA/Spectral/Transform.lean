import OpenADA.Spectral.Passes
import OpenADA.Spectral.Reversal
import Mathlib.Analysis.SpecialFunctions.Complex.Circle
import Mathlib.Data.ZMod.Basic
import Mathlib.RingTheory.RootsOfUnity.Complex

/-! Correctness of the transform over any root that is -1 half way round, with the complex roots
of the source as an instance. -/
namespace OpenADA.Spectral

open BitReversal Tabulated

variable {R : Type} [CommRing R]

theorem bitReversal_eq {k : ℕ} {values : List R} (hlength : values.length = 2 ^ k) :
    bitReversal values = some (table (2 ^ k) fun i => values.getD (reverse k i) 0) := by
  have hvalues : values = table (2 ^ k) fun i => values.getD i 0 := hlength ▸ eq_table values 0
  conv_lhs => rw [hvalues]
  rw [bitReversal_table]

/-- The transform of a list over roots that are the powers of one root, -1 half way round. -/
theorem fft_eq_dft {k : ℕ} {w : R} {root : ℕ → R} {values : List R}
    (hlength : values.length = 2 ^ k)
    (hroot : ∀ width, width ∣ 2 ^ k → root width = w ^ (2 ^ k / width))
    (hhalf : k ≠ 0 → w ^ 2 ^ (k - 1) = -1) : fft root values = some (dft w values) := by
  have hpower : ∀ s ≤ k, root (2 ^ s) = w ^ 2 ^ (k - s) := by
    intro s hs
    rw [hroot _ (pow_dvd_pow 2 hs), Nat.pow_div hs (by omega)]
  have hsquare : ∀ s < k, root (2 ^ (s + 1)) ^ 2 = root (2 ^ s) := by
    intro s hs
    rw [hpower (s + 1) hs, hpower s (by omega), ← pow_mul, ← pow_succ]
    congr 2
    omega
  have hnegative : ∀ s < k, root (2 ^ (s + 1)) ^ 2 ^ s = -1 := by
    intro s hs
    rw [hpower (s + 1) hs, ← pow_mul, ← pow_add, ← hhalf (by omega)]
    congr 2
    omega
  have hstart : table (2 ^ k) (fun i => values.getD (reverse k i) 0) = table (2 ^ k)
      (blockTransform (fun t => root (2 ^ t)) (fun i => values.getD (reverse k i) 0) 0) := by
    refine table_congr fun i _ => ?_
    simp [blockTransform, reverse, Nat.div_one]
  have hend : table (2 ^ k) (blockTransform (fun t => root (2 ^ t))
      (fun i => values.getD (reverse k i) 0) k) = dft w values := by
    unfold dft
    rw [hlength]
    refine table_congr fun i hi => ?_
    have hone : root (2 ^ k) = w := by rw [hpower k le_rfl, Nat.sub_self, pow_zero, pow_one]
    unfold blockTransform
    rw [Nat.div_eq_of_lt hi, Nat.mod_eq_of_lt hi]
    refine Finset.sum_congr rfl fun m hm => ?_
    simp only [hone, Nat.zero_mul, Nat.zero_add]
    rw [reverse_reverse (Finset.mem_range.mp hm)]
  have hrounds : k - 0 < 2 ^ k + 1 := lt_trans Nat.lt_two_pow_self (Nat.lt_succ_self _)
  have hpasses := passes_table (fun i => values.getD (reverse k i) 0) hsquare hnegative
    (Nat.zero_le k) hrounds
  rw [pow_zero, Nat.mul_one, ← hstart, hend] at hpasses
  unfold fft
  rw [bitReversal_eq hlength, hlength]
  exact hpasses

/-- The transform returns the discrete Fourier transform of every list whose length is a power of
two; its reversal loop exchanges every moved pair once, and its carry loop always ends. -/
theorem fft_correct (R : Type) [CommRing R] (k : ℕ) (w : R) (root : ℕ → R) (values : List R)
    (hlength : values.length = 2 ^ k)
    (hroot : ∀ width, width ∣ 2 ^ k → root width = w ^ (2 ^ k / width))
    (hhalf : k ≠ 0 → w ^ 2 ^ (k - 1) = -1) :
    fft root values = some (dft w values) ∧
      bitReversal values = some (table (2 ^ k) fun i => values.getD (reverse k i) 0) ∧
      (∀ i < 2 ^ k, reverse k i < 2 ^ k ∧ reverse k (reverse k i) = i) ∧
      (∃ pairs, swaps (2 ^ k) = some pairs ∧ pairs.Nodup ∧
        ∀ i < 2 ^ k, reverse k i ≠ i → ∃ pair ∈ pairs, (i = pair.1 ∨ i = pair.2) ∧
          ∀ other ∈ pairs, i = other.1 ∨ i = other.2 → other = pair) ∧
      ∀ target bit, ∃ result, carry (bit + 1) target bit = some result := by
  exact ⟨fft_eq_dft hlength hroot hhalf, bitReversal_eq hlength,
    fun i hi => ⟨reverse_lt k i, reverse_reverse hi⟩, swaps_once k, carry_terminates⟩

/-- Four samples over the integers modulo 17, where 4 squares to -1. -/
theorem fft_correct_seventeen :
    fft (fun width => (4 : ZMod 17) ^ (4 / width)) [1, 2, 3, 4] = some (dft 4 [1, 2, 3, 4]) :=
  (fft_correct (ZMod 17) 2 4 (fun width => (4 : ZMod 17) ^ (4 / width)) [1, 2, 3, 4] rfl
    (fun _ _ => rfl) (fun _ => by decide)).1

/-- With zero divisors a primitive root need not be -1 half way round: modulo 8, 3 is a
primitive square root of unity, and the butterfly subtracts where the transform multiplies. -/
theorem fft_zero_divisors : ¬ ∀ (R : Type) [CommRing R] (k : ℕ) (w : R) (root : ℕ → R)
    (values : List R), values.length = 2 ^ k → IsPrimitiveRoot w (2 ^ k) →
      (∀ width, width ∣ 2 ^ k → root width = w ^ (2 ^ k / width)) →
      fft root values = some (dft w values) := by
  intro hall
  have hroot : IsPrimitiveRoot (3 : ZMod 8) (2 ^ 1) := by
    rw [IsPrimitiveRoot.iff (by decide)]
    refine ⟨by decide, ?_⟩
    intro l hpos hlt
    obtain rfl : l = 1 := by omega
    decide
  have hrun := hall (ZMod 8) 1 3 (fun width => 3 ^ (2 / width)) [0, 1] rfl hroot (fun _ _ => rfl)
  have hfft : fft (fun width => (3 : ZMod 8) ^ (2 / width)) [0, 1] = some [1, 7] := by
    decide
  have hdft : dft (3 : ZMod 8) [0, 1] = [1, 3] := by decide
  rw [hfft, hdft] at hrun
  exact absurd hrun (by decide)

theorem primitive_half [IsDomain R] {k : ℕ} {w : R} (h : IsPrimitiveRoot w (2 ^ k)) (hk : k ≠ 0) :
    w ^ 2 ^ (k - 1) = -1 := by
  obtain ⟨j, rfl⟩ := Nat.exists_eq_succ_of_ne_zero hk
  have hpow : w ^ 2 ^ j * w ^ 2 ^ j = 1 := by
    rw [← pow_add, ← two_mul, ← pow_succ']
    exact h.pow_eq_one
  rcases mul_self_eq_one_iff.mp hpow with hone | hneg
  · have hdvd := (h.pow_eq_one_iff_dvd (2 ^ j)).mp hone
    have hle := Nat.le_of_dvd (Nat.two_pow_pos j) hdvd
    rw [Nat.succ_eq_add_one, pow_succ] at hle
    have hpos := Nat.two_pow_pos j
    omega
  · exact hneg

open Complex in
theorem complexRoot_pow (k : ℕ) {width : ℕ} (h : width ∣ 2 ^ k) :
    exp (-2 * Real.pi * I / width) = exp (-2 * Real.pi * I / (2 ^ k : ℕ)) ^ (2 ^ k / width) := by
  obtain ⟨factor, hfactor⟩ := h
  have hpos : 0 < width * factor := hfactor ▸ Nat.two_pow_pos k
  have hwidth : width ≠ 0 := by
    rintro rfl
    simp at hpos
  have hfactor' : (factor : ℂ) ≠ 0 := by
    have hne : factor ≠ 0 := by
      rintro rfl
      simp at hpos
    exact_mod_cast hne
  have hwidth' : (width : ℂ) ≠ 0 := by exact_mod_cast hwidth
  rw [← exp_nat_mul, hfactor, Nat.mul_div_cancel_left _ (Nat.pos_of_ne_zero hwidth)]
  congr 1
  push_cast
  field_simp

open Complex in
theorem fft_complex (k : ℕ) (values : List ℂ) (hlength : values.length = 2 ^ k) :
    fft (fun width => exp (-2 * Real.pi * I / width)) values =
      some (dft (exp (-2 * Real.pi * I / (2 ^ k : ℕ))) values) := by
  have hn : 2 ^ k ≠ 0 := (Nat.two_pow_pos k).ne'
  have hprimitive : IsPrimitiveRoot (exp (-2 * Real.pi * I / (2 ^ k : ℕ))) (2 ^ k) := by
    have hinv := (isPrimitiveRoot_exp (2 ^ k) hn).inv
    rw [← exp_neg, ← neg_div, ← neg_mul, ← neg_mul] at hinv
    exact hinv
  exact fft_eq_dft hlength (fun _ h => complexRoot_pow k h) (primitive_half hprimitive)

end OpenADA.Spectral
