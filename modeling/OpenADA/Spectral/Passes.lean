import OpenADA.Spectral.Fft

/-! The passes of the transform: each combines the halves of its blocks, and so takes the
transforms of all blocks of one width to those of the next. -/
namespace OpenADA.Spectral

open BitReversal Tabulated

variable {R : Type} [CommRing R]

section Passes

/-- One entry of a pass: both halves of a block combined with the root's power. -/
def combined (root : R) (half : ℕ) (f : ℕ → R) (i : ℕ) : R :=
  let offset := i % (2 * half)
  if offset < half then f i + f (i + half) * root ^ offset
  else f (i - half) - f i * root ^ (offset - half)

/-- The entries while the block at `start` has its first `m` butterflies done. -/
def partlyCombined (root : R) (half start m : ℕ) (f : ℕ → R) (i : ℕ) : R :=
  if start ≤ i ∧ i < start + m then f i + f (i + half) * root ^ (i - start)
  else if start + half ≤ i ∧ i < start + half + m then
    f (i - half) - f i * root ^ (i - half - start)
  else f i

theorem butterfly_table {n half start m : ℕ} (root : R) (f : ℕ → R) (hm : m < half)
    (hn : start + 2 * half ≤ n) :
    butterfly root start half (table n (partlyCombined root half start m f), root ^ m) m =
      some (table n (partlyCombined root half start (m + 1) f), root ^ (m + 1)) := by
  have heven : partlyCombined root half start m f (start + m) = f (start + m) := by
    unfold partlyCombined
    rw [if_neg (by omega), if_neg (by omega)]
  have hodd : partlyCombined root half start m f (start + m + half) = f (start + m + half) := by
    unfold partlyCombined
    rw [if_neg (by omega), if_neg (by omega)]
  unfold butterfly
  rw [getElem?_table _ (show start + m < n by omega),
    getElem?_table _ (show start + m + half < n by omega)]
  simp only [Option.bind_eq_bind, Option.bind_some, set_table, heven, hodd]
  rw [pow_succ]
  congr 2
  apply table_congr
  intro i hi
  by_cases hhigh : i = start + m + half
  · subst hhigh
    rw [Function.update_self]
    unfold partlyCombined
    have hback : start + m + half - half = start + m := by omega
    have hpow : start + m + half - half - start = m := by omega
    rw [if_neg (by omega), if_pos (by omega), hpow, hback]
  · rw [Function.update_of_ne hhigh]
    by_cases hlow : i = start + m
    · subst hlow
      rw [Function.update_self]
      unfold partlyCombined
      have hpow : start + m - start = m := by omega
      rw [if_pos (by omega), hpow]
    · rw [Function.update_of_ne hlow]
      unfold partlyCombined
      by_cases h1 : start ≤ i ∧ i < start + m
      · rw [if_pos h1, if_pos (by omega)]
      · by_cases h2 : start + half ≤ i ∧ i < start + half + m
        · rw [if_neg h1, if_pos h2, if_neg (by omega), if_pos (by omega)]
        · rw [if_neg h1, if_neg h2, if_neg (by omega), if_neg (by omega)]

theorem block_table {n half start : ℕ} (root : R) (f : ℕ → R) (hn : start + 2 * half ≤ n) :
    block root half (table n f) start =
      some (table n (partlyCombined root half start half f)) := by
  have hloop : ∀ m, m ≤ half → (List.range m).foldlM (butterfly root start half) (table n f, 1) =
      some (table n (partlyCombined root half start m f), root ^ m) := by
    intro m
    induction m with
    | zero =>
      intro _
      have hstart : table n f = table n (partlyCombined root half start 0 f) := by
        apply table_congr
        intro i _
        unfold partlyCombined
        rw [if_neg (by omega), if_neg (by omega)]
      simp only [List.range_zero, List.foldlM_nil, pow_zero, ← hstart]
      rfl
    | succ m ih =>
      intro hm
      rw [List.range_succ, List.foldlM_append, ih (by omega)]
      simp [butterfly_table root f (show m < half by omega) hn]
  unfold block
  rw [hloop half le_rfl]
  rfl

/-- Entries of the blocks before `m` combined, the others as they were. -/
def partlyPassed (root : R) (half m : ℕ) (f : ℕ → R) (i : ℕ) : R :=
  if i / (2 * half) < m then combined root half f i else f i

theorem partlyCombined_passed {half m i : ℕ} (root : R) (f : ℕ → R) (hhalf : 0 < half) :
    partlyCombined root half (m * (2 * half)) half (partlyPassed root half m f) i =
      partlyPassed root half (m + 1) f i := by
  have hwidth : 0 < 2 * half := by omega
  have hsplit := Nat.div_add_mod' i (2 * half)
  have hrest := Nat.mod_lt i hwidth
  have hblock : ∀ j, m * (2 * half) ≤ j → j < m * (2 * half) + 2 * half →
      j / (2 * half) = m ∧ j % (2 * half) = j - m * (2 * half) := by
    intro j hlow hhigh
    have hj : j = (j - m * (2 * half)) + (2 * half) * m := by
      rw [Nat.mul_comm (2 * half) m]
      omega
    have hsmall : j - m * (2 * half) < 2 * half := by omega
    constructor
    · rw [hj, Nat.add_mul_div_left _ _ hwidth, Nat.div_eq_of_lt hsmall, Nat.zero_add]
    · conv_lhs => rw [hj]
      rw [Nat.add_mul_mod_self_left, Nat.mod_eq_of_lt hsmall]
  have hkeep : ∀ j, m * (2 * half) ≤ j → j < m * (2 * half) + 2 * half →
      partlyPassed root half m f j = f j := by
    intro j hlow hhigh
    unfold partlyPassed
    rw [(hblock j hlow hhigh).1, if_neg (Nat.lt_irrefl m)]
  have hdone : ∀ j, m * (2 * half) ≤ j → j < m * (2 * half) + 2 * half →
      partlyPassed root half (m + 1) f j = combined root half f j := by
    intro j hlow hhigh
    unfold partlyPassed
    rw [(hblock j hlow hhigh).1, if_pos (Nat.lt_succ_self m)]
  unfold partlyCombined
  by_cases h1 : m * (2 * half) ≤ i ∧ i < m * (2 * half) + half
  · have hoffset := (hblock i h1.1 (by omega)).2
    rw [if_pos h1, hkeep i h1.1 (by omega), hkeep (i + half) (by omega) (by omega),
      hdone i h1.1 (by omega)]
    unfold combined
    simp only [hoffset]
    rw [if_pos (by omega)]
  · rw [if_neg h1]
    by_cases h2 : m * (2 * half) + half ≤ i ∧ i < m * (2 * half) + half + half
    · have hoffset := (hblock i (by omega) (by omega)).2
      rw [if_pos h2, hkeep i (by omega) (by omega), hkeep (i - half) (by omega) (by omega),
        hdone i (by omega) (by omega)]
      unfold combined
      simp only [hoffset]
      have hpow : i - half - m * (2 * half) = i - m * (2 * half) - half := by omega
      rw [if_neg (by omega), hpow]
    · rw [if_neg h2]
      have hne : i / (2 * half) ≠ m := by
        intro heq
        rw [heq] at hsplit
        omega
      unfold partlyPassed
      by_cases hlt : i / (2 * half) < m
      · rw [if_pos hlt, if_pos (by omega)]
      · rw [if_neg hlt, if_neg (by omega)]

theorem pass_table {half : ℕ} (blocks : ℕ) (root : R) (f : ℕ → R) (hhalf : 0 < half) :
    pass root (2 * half) (table (blocks * (2 * half)) f) =
      some (table (blocks * (2 * half)) (combined root half f)) := by
  have hwidth : 0 < 2 * half := by omega
  have hcount : (blocks * (2 * half) + 2 * half - 1) / (2 * half) = blocks := by
    have hsum : blocks * (2 * half) + 2 * half - 1 = (2 * half - 1) + (2 * half) * blocks := by
      rw [Nat.mul_comm (2 * half) blocks]
      omega
    rw [hsum, Nat.add_mul_div_left _ _ hwidth, Nat.div_eq_of_lt (by omega), Nat.zero_add]
  have hdiv : 2 * half / 2 = half := by omega
  have hloop : ∀ m, m ≤ blocks →
      ((List.range m).map fun index => index * (2 * half)).foldlM (block root half)
        (table (blocks * (2 * half)) f) =
      some (table (blocks * (2 * half)) (partlyPassed root half m f)) := by
    intro m
    induction m with
    | zero =>
      intro _
      have hstart : table (blocks * (2 * half)) f =
          table (blocks * (2 * half)) (partlyPassed root half 0 f) := by
        apply table_congr
        intro i _
        unfold partlyPassed
        rw [if_neg (Nat.not_lt_zero _)]
      exact congrArg some hstart
    | succ m ih =>
      intro hm
      have hfits : m * (2 * half) + 2 * half ≤ blocks * (2 * half) := by
        rw [← Nat.succ_mul]
        exact Nat.mul_le_mul_right _ hm
      rw [List.range_succ, List.map_append, List.foldlM_append, ih (by omega)]
      simp only [List.map_cons, List.map_nil, Option.bind_eq_bind, Option.bind_some,
        List.foldlM_cons, block_table root _ hfits, List.foldlM_nil]
      refine congrArg some (table_congr ?_)
      intro i _
      exact partlyCombined_passed root f hhalf
  unfold pass starts
  rw [length_table, hcount, hdiv, hloop blocks le_rfl]
  congr 1
  apply table_congr
  intro i hi
  unfold partlyPassed
  rw [if_pos ((Nat.div_lt_iff_lt_mul hwidth).mpr hi)]

end Passes

section Decimation

/-- The transform of every block of width `2 ^ s` of a reversed list. -/
def blockTransform (root : ℕ → R) (f : ℕ → R) (s i : ℕ) : R :=
  ∑ m ∈ Finset.range (2 ^ s), f (i / 2 ^ s * 2 ^ s + reverse s m) * root s ^ (m * (i % 2 ^ s))

theorem sum_even_odd (n : ℕ) (g : ℕ → R) : ∑ m ∈ Finset.range (2 * n), g m =
    ∑ m ∈ Finset.range n, g (2 * m) + ∑ m ∈ Finset.range n, g (2 * m + 1) := by
  induction n with
  | zero => simp
  | succ n ih =>
    rw [show 2 * (n + 1) = 2 * n + 1 + 1 by ring, Finset.sum_range_succ, Finset.sum_range_succ, ih,
      Finset.sum_range_succ, Finset.sum_range_succ]
    ring

/-- A block of the next width is its even and odd members, transformed at the same place of the
two blocks it is made of. -/
theorem blockTransform_split {root : ℕ → R} {s : ℕ} (f : ℕ → R) (b o : ℕ) (sign : R)
    (hsquare : root (s + 1) ^ 2 = root s) (place : ℕ) (hplace : place % (2 * 2 ^ s) = place)
    (hbase : o < 2 ^ s) (hpow : root (s + 1) ^ place = sign * root (s + 1) ^ o)
    (hsign : sign ^ 2 = 1) :
    blockTransform root f (s + 1) (b * (2 * 2 ^ s) + place) =
      blockTransform root f s ((2 * b) * 2 ^ s + o) +
        sign * (blockTransform root f s ((2 * b + 1) * 2 ^ s + o) * root (s + 1) ^ o) := by
  have hpos : 0 < 2 ^ s := Nat.two_pow_pos s
  have hsmall : place < 2 * 2 ^ s := hplace ▸ Nat.mod_lt place (by omega)
  have hdiv : ∀ c w r : ℕ, r < w → (c * w + r) / w = c ∧ (c * w + r) % w = r := by
    intro c w r hr
    constructor
    · rw [Nat.mul_comm, Nat.mul_add_div (by omega), Nat.div_eq_of_lt hr, Nat.add_zero]
    · rw [Nat.mul_comm, Nat.mul_add_mod, Nat.mod_eq_of_lt hr]
  have heven : ∀ m, root (s + 1) ^ (2 * m * place) = root s ^ (m * o) := by
    intro m
    calc root (s + 1) ^ (2 * m * place) = (root (s + 1) ^ place) ^ (2 * m) := by
          rw [← pow_mul, Nat.mul_comm]
      _ = (sign ^ 2) ^ m * (root (s + 1) ^ 2) ^ (m * o) := by
          rw [hpow, mul_pow, ← pow_mul, ← pow_mul, ← pow_mul]
          ring_nf
      _ = root s ^ (m * o) := by rw [hsign, one_pow, one_mul, hsquare]
  have hodd : ∀ m, root (s + 1) ^ ((2 * m + 1) * place) =
      sign * (root s ^ (m * o) * root (s + 1) ^ o) := by
    intro m
    rw [Nat.add_mul, Nat.one_mul, pow_add, heven, hpow]
    ring
  have hwidth : 2 ^ (s + 1) = 2 * 2 ^ s := by rw [pow_succ, Nat.mul_comm]
  unfold blockTransform
  rw [hwidth, (hdiv b (2 * 2 ^ s) place hsmall).1, (hdiv b (2 * 2 ^ s) place hsmall).2,
    (hdiv (2 * b) (2 ^ s) o hbase).1, (hdiv (2 * b) (2 ^ s) o hbase).2,
    (hdiv (2 * b + 1) (2 ^ s) o hbase).1, (hdiv (2 * b + 1) (2 ^ s) o hbase).2, sum_even_odd,
    Finset.sum_mul, Finset.mul_sum]
  congr 1
  · refine Finset.sum_congr rfl fun m _ => ?_
    rw [reverse_even, heven, show b * (2 * 2 ^ s) = 2 * b * 2 ^ s by ring]
  · refine Finset.sum_congr rfl fun m _ => ?_
    rw [reverse_odd, hodd, show b * (2 * 2 ^ s) + (2 ^ s + reverse s m) =
      (2 * b + 1) * 2 ^ s + reverse s m by ring]
    ring

/-- Combining the halves of a pass takes the block transforms to the next width. -/
theorem combined_blockTransform (root : ℕ → R) {s : ℕ} (f : ℕ → R)
    (hsquare : root (s + 1) ^ 2 = root s) (hhalf : root (s + 1) ^ 2 ^ s = -1) (i : ℕ) :
    combined (root (s + 1)) (2 ^ s) (blockTransform root f s) i =
      blockTransform root f (s + 1) i := by
  have hpos : 0 < 2 ^ s := Nat.two_pow_pos s
  have hi : i = i / (2 * 2 ^ s) * (2 * 2 ^ s) + i % (2 * 2 ^ s) := (Nat.div_add_mod' i _).symm
  have hrest := Nat.mod_lt i (show 0 < 2 * 2 ^ s by omega)
  set b := i / (2 * 2 ^ s)
  set place := i % (2 * 2 ^ s) with hplaceDef
  have hplace : place % (2 * 2 ^ s) = place := Nat.mod_eq_of_lt hrest
  have heven : b * (2 * 2 ^ s) = 2 * b * 2 ^ s := by ring
  have hodd : b * (2 * 2 ^ s) + 2 ^ s = (2 * b + 1) * 2 ^ s := by ring
  unfold combined
  simp only [← hplaceDef]
  by_cases hlow : place < 2 ^ s
  · have hsplit := blockTransform_split f b place 1 hsquare place hplace hlow (one_mul _).symm
      (one_pow 2)
    have hsecond : i + 2 ^ s = (2 * b + 1) * 2 ^ s + place := by
      rw [← hodd]
      omega
    rw [if_pos hlow, hsecond, one_mul] at *
    rw [← hi] at hsplit
    rw [hsplit, show i = 2 * b * 2 ^ s + place by rw [← heven]; exact hi]
  · have hoffset : place - 2 ^ s < 2 ^ s := by omega
    have hpow : root (s + 1) ^ place = -1 * root (s + 1) ^ (place - 2 ^ s) := by
      rw [← hhalf, ← pow_add]
      congr 1
      omega
    have hsplit := blockTransform_split f b (place - 2 ^ s) (-1) hsquare place hplace hoffset hpow
      (by ring)
    have hfirst : i - 2 ^ s = 2 * b * 2 ^ s + (place - 2 ^ s) := by
      rw [← heven]
      omega
    have hself : i = (2 * b + 1) * 2 ^ s + (place - 2 ^ s) := by
      rw [← hodd]
      omega
    rw [← hi] at hsplit
    rw [if_neg hlow, hsplit, hfirst, ← hself]
    ring

/-- The passes from width `2 ^ (s + 1)` on leave the transform of the whole list. -/
theorem passes_table {k : ℕ} {root : ℕ → R} (f : ℕ → R)
    (hsquare : ∀ s < k, root (2 ^ (s + 1)) ^ 2 = root (2 ^ s))
    (hhalf : ∀ s < k, root (2 ^ (s + 1)) ^ 2 ^ s = -1) {s : ℕ} (hs : s ≤ k) {rounds : ℕ}
    (hrounds : k - s < rounds) :
    passes root rounds (2 * 2 ^ s) (table (2 ^ k) (blockTransform (fun t => root (2 ^ t)) f s)) =
      some (table (2 ^ k) (blockTransform (fun t => root (2 ^ t)) f k)) := by
  induction rounds generalizing s with
  | zero => exact absurd hrounds (Nat.not_lt_zero _)
  | succ rounds ih =>
    rw [passes, length_table]
    rcases Nat.lt_or_eq_of_le hs with hlt | rfl
    · have hwidth : 2 * 2 ^ s = 2 ^ (s + 1) := by rw [pow_succ, Nat.mul_comm]
      have hle : 2 * 2 ^ s ≤ 2 ^ k := by
        rw [hwidth]
        exact Nat.pow_le_pow_right (by omega) hlt
      have hblocks : 2 ^ k = 2 ^ (k - s - 1) * (2 * 2 ^ s) := by
        rw [hwidth, ← pow_add]
        congr 1
        omega
      have hpass : pass (root (2 * 2 ^ s)) (2 * 2 ^ s)
          (table (2 ^ k) (blockTransform (fun t => root (2 ^ t)) f s)) =
          some (table (2 ^ k) (blockTransform (fun t => root (2 ^ t)) f (s + 1))) := by
        have h := pass_table (2 ^ (k - s - 1)) (root (2 ^ (s + 1)))
          (blockTransform (fun t => root (2 ^ t)) f s) (Nat.two_pow_pos s)
        rw [← hblocks] at h
        rw [hwidth] at h ⊢
        rw [h]
        refine congrArg some (table_congr fun i _ => ?_)
        exact combined_blockTransform (fun t => root (2 ^ t)) f (hsquare s hlt)
          (hhalf s hlt) i
      rw [if_pos hle, hpass]
      simp only [Option.bind_eq_bind, Option.bind_some]
      rw [Nat.mul_comm (2 * 2 ^ s) 2, hwidth]
      exact ih hlt (by omega)
    · have hgt : ¬ 2 * 2 ^ s ≤ 2 ^ s := by
        have hpos := Nat.two_pow_pos s
        omega
      rw [if_neg hgt]

end Decimation

end OpenADA.Spectral
