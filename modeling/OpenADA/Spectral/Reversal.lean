import OpenADA.Spectral.Fft

/-! The reversal loop permutes its list by bit reversal, with every exchange made once. -/
namespace OpenADA.Spectral

open BitReversal Tabulated

variable {R : Type}

theorem swapAt_table {n i j : ℕ} (f : ℕ → R) (hi : i < n) (hj : j < n) :
    swapAt (table n f) i j =
      some (table n (Function.update (Function.update f i (f j)) j (f i))) := by
  unfold swapAt
  rw [getElem?_table f hj, getElem?_table f hi]
  simp only [Option.bind_eq_bind, Option.bind_some, set_table]

/-- The list after the first `m` sources: the pairs with a member up to `m` are exchanged. -/
def partlyReversed (k : ℕ) (f : ℕ → R) (m i : ℕ) : R :=
  if min i (reverse k i) ≤ m then f (reverse k i) else f i

theorem swapVisit_partlyReversed {k m : ℕ} (f : ℕ → R) (hm : m + 1 < 2 ^ k) :
    swapVisit (table (2 ^ k) (partlyReversed k f m)) (m + 1, reverse k (m + 1)) =
      some (table (2 ^ k) (partlyReversed k f (m + 1))) := by
  have ht := reverse_lt k (m + 1)
  have hback := reverse_reverse hm
  unfold swapVisit
  by_cases hlt : m + 1 < reverse k (m + 1)
  · rw [if_pos hlt, swapAt_table _ hm ht]
    congr 1
    apply table_congr
    intro i hi
    by_cases hit : i = reverse k (m + 1)
    · subst hit
      rw [Function.update_self]
      unfold partlyReversed
      rw [hback, if_neg (by omega), if_pos (by omega)]
    · by_cases his : i = m + 1
      · subst his
        rw [Function.update_of_ne hit, Function.update_self]
        unfold partlyReversed
        rw [hback, if_neg (by omega), if_pos (by omega)]
      · rw [Function.update_of_ne hit, Function.update_of_ne his]
        have hri : reverse k i ≠ m + 1 := by
          intro heq
          have hfix := reverse_reverse hi
          rw [heq] at hfix
          exact hit hfix.symm
        unfold partlyReversed
        by_cases hle : min i (reverse k i) ≤ m
        · rw [if_pos hle, if_pos (by omega)]
        · rw [if_neg hle, if_neg (by omega)]
  · rw [if_neg hlt]
    congr 1
    apply table_congr
    intro i hi
    have hfix := reverse_reverse hi
    unfold partlyReversed
    by_cases hle : min i (reverse k i) ≤ m
    · rw [if_pos hle, if_pos (by omega)]
    · by_cases hnext : min i (reverse k i) ≤ m + 1
      · -- Only a fixed index is still open: a smaller partner was exchanged before.
        rw [if_neg hle, if_pos hnext]
        have hself : reverse k i = i := by
          rcases Nat.lt_trichotomy i (reverse k i) with h | h | h
          · have hi' : i = m + 1 := by omega
            rw [hi'] at h
            exact absurd h hlt
          · exact h.symm
          · have hi' : reverse k i = m + 1 := by omega
            rw [hi'] at hfix h
            omega
        rw [hself]
      · rw [if_neg hle, if_neg hnext]

theorem bitReversal_table (k : ℕ) (f : ℕ → R) :
    bitReversal (table (2 ^ k) f) = some (table (2 ^ k) fun i => f (reverse k i)) := by
  have hloop : ∀ m, m + 1 ≤ 2 ^ k →
      ((List.range' 1 m).map fun i => (i, reverse k i)).foldlM swapVisit (table (2 ^ k) f) =
        some (table (2 ^ k) (partlyReversed k f m)) := by
    intro m
    induction m with
    | zero =>
      intro _
      have hstart : table (2 ^ k) f = table (2 ^ k) (partlyReversed k f 0) := by
        apply table_congr
        intro i hi
        have hfix := reverse_reverse hi
        unfold partlyReversed
        by_cases hzero : min i (reverse k i) ≤ 0
        · have hself : reverse k i = i := by
            rcases Nat.eq_zero_or_pos i with rfl | hpos
            · exact reverse_zero k
            · have hr : reverse k i = 0 := by omega
              rw [hr, reverse_zero] at hfix
              omega
          rw [if_pos hzero, hself]
        · rw [if_neg hzero]
      exact congrArg some hstart
    | succ m ih =>
      intro hm
      have hone : 1 + m = m + 1 := by omega
      rw [List.range'_1_concat, List.map_append, List.foldlM_append, ih (by omega), hone]
      simp [swapVisit_partlyReversed f (show m + 1 < 2 ^ k by omega)]
  have hpos : 0 < 2 ^ k := Nat.two_pow_pos k
  unfold bitReversal
  rw [length_table, visits_reverse]
  simp only [Option.bind_eq_bind, Option.bind_some]
  rw [hloop (2 ^ k - 1) (by omega)]
  congr 1
  apply table_congr
  intro i hi
  unfold partlyReversed
  rw [if_pos (by omega)]

def swaps (count : ℕ) : Option (List (ℕ × ℕ)) :=
  (visits count).map fun pairs => pairs.filter fun visit => decide (visit.1 < visit.2)

/-- Every exchange happens once, and every index a reversal moves is in exactly one of them. -/
theorem swaps_once (k : ℕ) : ∃ pairs, swaps (2 ^ k) = some pairs ∧ pairs.Nodup ∧
    ∀ i < 2 ^ k, reverse k i ≠ i →
      ∃ pair ∈ pairs, (i = pair.1 ∨ i = pair.2) ∧
        ∀ other ∈ pairs, i = other.1 ∨ i = other.2 → other = pair := by
  have hvisits := visits_reverse k
  refine ⟨_, congrArg (Option.map _) hvisits, ?_, ?_⟩
  · refine List.Nodup.filter _ (List.Nodup.map ?_ List.nodup_range')
    exact fun a b h => (Prod.mk.inj h).1
  · intro i hi hmoved
    have hfix := reverse_reverse hi
    have hr := reverse_lt k i
    have hmem : ∀ pair : ℕ × ℕ, pair ∈ ((List.range' 1 (2 ^ k - 1)).map fun i =>
        (i, reverse k i)).filter (fun visit => decide (visit.1 < visit.2)) ↔
        1 ≤ pair.1 ∧ pair.1 < 2 ^ k ∧ pair.2 = reverse k pair.1 ∧ pair.1 < pair.2 := by
      rintro ⟨a, b⟩
      simp only [List.mem_filter, List.mem_map, List.mem_range'_1, Prod.mk.injEq,
        decide_eq_true_eq]
      constructor
      · rintro ⟨⟨_, ⟨h1, h2⟩, rfl, rfl⟩, hlt⟩
        exact ⟨h1, by omega, rfl, hlt⟩
      · rintro ⟨h1, h2, rfl, hlt⟩
        exact ⟨⟨a, ⟨h1, by omega⟩, rfl, rfl⟩, hlt⟩
    have hpositive : ∀ j, reverse k j ≠ j → 1 ≤ j := by
      intro j hj
      rcases Nat.eq_zero_or_pos j with rfl | hpos
      · exact absurd (reverse_zero k) hj
      · exact hpos
    have hother : ∀ other : ℕ × ℕ, other.1 < 2 ^ k → other.2 = reverse k other.1 →
        i = other.1 ∨ i = other.2 → other = (i, reverse k i) ∨ other = (reverse k i, i) := by
      rintro ⟨a, b⟩ ha hb h
      simp only at ha hb h
      rcases h with rfl | rfl
      · exact .inl (by rw [hb])
      · refine .inr ?_
        rw [hb, reverse_reverse ha]
    rcases Nat.lt_or_gt_of_ne hmoved with hlt | hlt
    · refine ⟨(reverse k i, i), (hmem _).mpr ⟨hpositive _ ?_, hr, hfix.symm, hlt⟩, .inr rfl, ?_⟩
      · rw [hfix]
        exact hmoved.symm
      · intro other hin h
        obtain ⟨_, ha, hb, hord⟩ := (hmem other).mp hin
        rcases hother other ha hb h with rfl | rfl
        · exact absurd hord (by simp only; omega)
        · rfl
    · refine ⟨(i, reverse k i), (hmem _).mpr ⟨hpositive _ hmoved, hi, rfl, hlt⟩, .inl rfl, ?_⟩
      intro other hin h
      obtain ⟨_, ha, hb, hord⟩ := (hmem other).mp hin
      rcases hother other ha hb h with rfl | rfl
      · rfl
      · exact absurd hord (by simp only; omega)

end OpenADA.Spectral
