import OpenADA.Library.DecimalRound

/-! The middles between neighbouring decimals of 28 digits decide what a number is rounded to: two
numbers are rounded alike exactly when no middle lies between them. -/
namespace PyDecimal

open DecimalContext (digitCount_le_iff digitCount_pos pow_digitCount_le lt_pow_digitCount)

/-- A number up to the middle between `c * 10 ^ e` and the next decimal, the middle with it where
the last digit is even. -/
def UpTo (c e : ℤ) (value : ℚ) : Prop :=
  2 * value < (2 * c + 1) * 10 ^ e ∨ 2 * value = (2 * c + 1) * 10 ^ e ∧ c % 2 = 0

def Parted (a b : ℚ) : Prop :=
  ∃ c e : ℤ, 10 ^ 27 ≤ c ∧ c < 10 ^ 28 ∧ (UpTo c e a ∧ ¬ UpTo c e b ∨ UpTo c e b ∧ ¬ UpTo c e a)

theorem roundHalfEven_le_iff {value : ℚ} {c : ℤ} :
    roundHalfEven value ≤ c ↔ 2 * value < 2 * c + 1 ∨ 2 * value = 2 * c + 1 ∧ c % 2 = 0 := by
  have hlow := Int.floor_le value
  have hhigh := Int.lt_floor_add_one value
  unfold roundHalfEven
  dsimp only
  rcases lt_trichotomy c ⌊value⌋ with hlt | rfl | hgt
  · have hstep : ((c + 1 : ℤ) : ℚ) ≤ ⌊value⌋ := by exact_mod_cast hlt
    push_cast at hstep
    constructor
    · intro h
      split_ifs at h <;> omega
    · rintro (h | ⟨h, -⟩) <;> linarith
  · split_ifs with hbelow habove heven
    · exact ⟨fun _ => .inl (by linarith), fun _ => le_rfl⟩
    · constructor
      · intro h
        omega
      · rintro (h | ⟨h, -⟩) <;> linarith
    · exact ⟨fun _ => .inr ⟨by linarith, heven⟩, fun _ => le_rfl⟩
    · constructor
      · intro h
        omega
      · rintro (h | ⟨-, h⟩)
        · linarith
        · exact absurd h heven
  · have hstep : ((⌊value⌋ + 1 : ℤ) : ℚ) ≤ c := by exact_mod_cast hgt
    push_cast at hstep
    constructor
    · intro _
      exact .inl (by linarith)
    · intro _
      split_ifs <;> omega

theorem zpow_add_natCast (e : ℤ) (n : ℕ) : (10 : ℚ) ^ (e + n) = 10 ^ n * 10 ^ e := by
  rw [add_comm, zpow_add₀ (by norm_num), zpow_natCast]

theorem zpow_leading (k : ℤ) : (10 : ℚ) ^ k = 10 ^ 27 * 10 ^ (k - 27) := by
  rw [← zpow_add_natCast]
  congr 1
  push_cast
  ring

theorem zpow_next (k : ℤ) : (10 : ℚ) ^ (k + 1) = 10 ^ 28 * 10 ^ (k - 27) := by
  rw [← zpow_add_natCast]
  congr 1
  push_cast
  ring

section Positive

variable {a b value : ℚ}

/-- A positive number lies between the powers of ten of its leading digit, and so does what it is
rounded to. -/
theorem round_bounds (h : 0 < value) :
    (10 : ℚ) ^ adjusted value ≤ round value ∧ round value ≤ 10 ^ (adjusted value + 1) := by
  have hlow := le_abs_of_adjusted h.ne'
  have hhigh := abs_lt_of_adjusted h.ne'
  rw [abs_of_pos h] at hlow hhigh
  have hunit : (0 : ℚ) < 10 ^ (adjusted value - 27) := by positivity
  rw [zpow_leading] at hlow ⊢
  rw [zpow_next] at hhigh ⊢
  obtain ⟨hfloor, hceil⟩ := roundHalfEven_bounds (value / 10 ^ (adjusted value - 27))
  have hbelow : 10 ^ 27 ≤ ⌊value / 10 ^ (adjusted value - 27)⌋ := by
    refine Int.le_floor.mpr ?_
    push_cast
    exact (le_div_iff₀ hunit).mpr hlow
  have habove : ⌈value / 10 ^ (adjusted value - 27)⌉ ≤ 10 ^ 28 := by
    refine Int.ceil_le.mpr ?_
    push_cast
    exact (div_le_iff₀ hunit).mpr hhigh.le
  rw [round, if_neg h.ne']
  constructor
  · refine mul_le_mul_of_nonneg_right ?_ hunit.le
    exact_mod_cast hbelow.trans hfloor
  · refine mul_le_mul_of_nonneg_right ?_ hunit.le
    exact_mod_cast hceil.trans habove

theorem round_le_iff (h : 0 < value) {c e : ℤ} (hlow : 10 ^ 27 ≤ c) (hhigh : c < 10 ^ 28) :
    round value ≤ c * 10 ^ e ↔ UpTo c e value := by
  have hlead := le_abs_of_adjusted h.ne'
  have hnext := abs_lt_of_adjusted h.ne'
  rw [abs_of_pos h] at hlead hnext
  obtain ⟨hrounded, hcarried⟩ := round_bounds h
  have hunit : (0 : ℚ) < 10 ^ e := by positivity
  have hcLow : (10 : ℚ) ^ 27 ≤ c := by exact_mod_cast hlow
  have hcHigh : (c : ℚ) + 1 ≤ 10 ^ 28 := by exact_mod_cast hhigh
  rcases lt_trichotomy (adjusted value) (e + 27) with hlt | heq | hgt
  · -- fewer digits before the point
    have hpow : (10 : ℚ) ^ (adjusted value + 1) ≤ 10 ^ 27 * 10 ^ e := by
      rw [← zpow_add_natCast]
      exact zpow_le_zpow_right₀ (by norm_num) (by push_cast; omega)
    have hle : (10 : ℚ) ^ 27 * 10 ^ e ≤ c * 10 ^ e := mul_le_mul_of_nonneg_right hcLow hunit.le
    refine ⟨fun _ => .inl ?_, fun _ => hcarried.trans (hpow.trans hle)⟩
    have hexpand : (2 * (c : ℚ) + 1) * 10 ^ e = 2 * (c * 10 ^ e) + 10 ^ e := by ring
    rw [hexpand]
    linarith
  · have hexponent : adjusted value - 27 = e := by omega
    rw [round, if_neg h.ne']
    show (roundHalfEven (value / 10 ^ (adjusted value - 27)) : ℚ) * 10 ^ (adjusted value - 27) ≤
      _ ↔ _
    rw [hexponent, mul_le_mul_iff_left₀ hunit, Int.cast_le, roundHalfEven_le_iff, UpTo,
      mul_div_assoc', div_lt_iff₀ hunit, div_eq_iff hunit.ne']
  · -- more digits before the point
    have hpow : (10 : ℚ) ^ 28 * 10 ^ e ≤ 10 ^ adjusted value := by
      rw [← zpow_add_natCast]
      exact zpow_le_zpow_right₀ (by norm_num) (by push_cast; omega)
    have hle : ((c : ℚ) + 1) * 10 ^ e ≤ 10 ^ 28 * 10 ^ e := mul_le_mul_of_nonneg_right hcHigh hunit.le
    constructor
    · intro hround
      linarith
    · rintro (hupto | ⟨hupto, -⟩) <;> linarith

theorem round_pos (h : 0 < value) : 0 < round value :=
  lt_of_lt_of_le (by positivity) (round_bounds h).1

theorem exists_round_eq (h : 0 < value) :
    ∃ c e : ℤ, 10 ^ 27 ≤ c ∧ c < 10 ^ 28 ∧ round value = c * 10 ^ e := by
  obtain ⟨hlow, hhigh⟩ := round_bounds h
  have hunit : (0 : ℚ) < 10 ^ (adjusted value - 27) := by positivity
  rcases hhigh.lt_or_eq with hlt | heq
  · have hround : round value =
        roundHalfEven (value / 10 ^ (adjusted value - 27)) * 10 ^ (adjusted value - 27) := by
      rw [round, if_neg h.ne']
      rfl
    rw [hround, zpow_leading] at hlow
    rw [hround, zpow_next] at hlt
    have hdigitsLow := le_of_mul_le_mul_right hlow hunit
    have hdigitsHigh := lt_of_mul_lt_mul_right hlt hunit.le
    exact ⟨_, _, by exact_mod_cast hdigitsLow, by exact_mod_cast hdigitsHigh, hround⟩
  · refine ⟨10 ^ 27, adjusted value + 1 - 27, le_rfl, by norm_num, ?_⟩
    rw [heq, zpow_leading]
    norm_cast

/-- Two numbers are rounded alike if and only if no middle lies between them. -/
theorem round_eq_iff (ha : 0 < a) (hb : 0 < b) : round a = round b ↔ ¬ Parted a b := by
  constructor
  · rintro heq ⟨c, e, hlow, hhigh, ⟨hfirst, hsecond⟩ | ⟨hfirst, hsecond⟩⟩
    · rw [← round_le_iff ha hlow hhigh] at hfirst
      rw [← round_le_iff hb hlow hhigh] at hsecond
      exact hsecond (heq ▸ hfirst)
    · rw [← round_le_iff hb hlow hhigh] at hfirst
      rw [← round_le_iff ha hlow hhigh] at hsecond
      exact hsecond (heq ▸ hfirst)
  · intro hparted
    obtain ⟨c, e, hlow, hhigh, hround⟩ := exists_round_eq ha
    obtain ⟨c', e', hlow', hhigh', hround'⟩ := exists_round_eq hb
    have hself := (round_le_iff ha hlow hhigh).mp hround.le
    have hself' := (round_le_iff hb hlow' hhigh').mp hround'.le
    apply le_antisymm
    · rw [hround', round_le_iff ha hlow' hhigh']
      by_contra hnot
      exact hparted ⟨c', e', hlow', hhigh', .inr ⟨hself', hnot⟩⟩
    · rw [hround, round_le_iff hb hlow hhigh]
      by_contra hnot
      exact hparted ⟨c, e, hlow, hhigh, .inl ⟨hself, hnot⟩⟩

theorem parted_of_fits (ha : 0 < a) (hb : 0 < b) (hfa : Fits a) (hfb : Fits b) (hne : a ≠ b) :
    Parted a b := by
  by_contra hnot
  have hround := (round_eq_iff ha hb).mpr hnot
  rw [round_of_fits hfa, round_of_fits hfb] at hround
  exact hne hround

end Positive

section Integers

def halfUnit (n : ℕ) : ℚ := if n = 0 then 0 else 10 ^ ((digitCount n : ℤ) - 28) / 2

theorem round_le_natCast_iff {value : ℚ} (h : 0 < value) {n : ℕ} (hn : n < 10 ^ 27) :
    round value ≤ n ↔ value ≤ n + halfUnit n := by
  by_cases hzero : n = 0
  · subst hzero
    have hpos := round_pos h
    rw [halfUnit, if_pos rfl]
    simp only [Nat.cast_zero, add_zero]
    constructor <;> intro hle <;> linarith
  · have hdigits := digitCount_pos n
    have hcount : digitCount n ≤ 27 := (digitCount_le_iff (by norm_num)).mpr hn
    obtain ⟨k, hk⟩ : ∃ k, 28 - digitCount n = k + 1 := ⟨27 - digitCount n, by omega⟩
    have hsum : digitCount n + (k + 1) = 28 := by omega
    have hsum' : digitCount n - 1 + (k + 1) = 27 := by omega
    have hlow : (10 : ℤ) ^ 27 ≤ ((n * 10 ^ (k + 1) : ℕ) : ℤ) := by
      have hle := Nat.mul_le_mul_right (10 ^ (k + 1)) (pow_digitCount_le (Nat.pos_of_ne_zero hzero))
      rw [← pow_add, hsum'] at hle
      exact_mod_cast hle
    have hhigh : ((n * 10 ^ (k + 1) : ℕ) : ℤ) < 10 ^ 28 := by
      have hlt := Nat.mul_lt_mul_of_pos_right (lt_pow_digitCount n)
        (show 0 < 10 ^ (k + 1) by positivity)
      rw [← pow_add, hsum] at hlt
      exact_mod_cast hlt
    have hexponent : (digitCount n : ℤ) - 28 = -((k + 1 : ℕ) : ℤ) := by omega
    have hunit : (10 : ℚ) ^ (k + 1) * 10 ^ (-((k + 1 : ℕ) : ℤ)) = 1 := by
      rw [← zpow_add_natCast]
      simp
    have hvalue : (((n * 10 ^ (k + 1) : ℕ) : ℤ) : ℚ) * 10 ^ (-((k + 1 : ℕ) : ℤ)) = n := by
      push_cast
      rw [mul_assoc, ← Nat.cast_succ, hunit, mul_one]
    have heven : ((n * 10 ^ (k + 1) : ℕ) : ℤ) % 2 = 0 := by
      rw [pow_succ, ← mul_assoc]
      omega
    have hmiddle : (2 * (((n * 10 ^ (k + 1) : ℕ) : ℤ) : ℚ) + 1) * 10 ^ (-((k + 1 : ℕ) : ℤ)) =
        2 * (n + halfUnit n) := by
      rw [halfUnit, if_neg hzero, hexponent, add_mul, mul_assoc, hvalue]
      ring
    have hround := round_le_iff h (e := -((k + 1 : ℕ) : ℤ)) hlow hhigh
    rw [hvalue] at hround
    rw [hround, UpTo, hmiddle]
    constructor
    · rintro (hlt | ⟨heq, -⟩) <;> linarith
    · intro hle
      rcases hle.lt_or_eq with hlt | heq
      · exact .inl (by linarith)
      · exact .inr ⟨by rw [heq], heven⟩

theorem halfUnit_nonneg (n : ℕ) : 0 ≤ halfUnit n := by
  unfold halfUnit
  split_ifs <;> positivity

theorem halfUnit_le (n : ℕ) : halfUnit n ≤ n * (1 / (2 * 10 ^ 27)) := by
  unfold halfUnit
  split_ifs with hzero
  · positivity
  · have hdigits := digitCount_pos n
    have hlead : (10 : ℚ) ^ (digitCount n - 1) ≤ n := by
      exact_mod_cast pow_digitCount_le (Nat.pos_of_ne_zero hzero)
    have hexponent : (digitCount n : ℤ) - 28 = -27 + (digitCount n - 1 : ℕ) := by omega
    rw [hexponent, zpow_add_natCast]
    calc (10 : ℚ) ^ (digitCount n - 1) * 10 ^ (-27 : ℤ) / 2
        ≤ n * 10 ^ (-27 : ℤ) / 2 := by gcongr
      _ = n * (1 / (2 * 10 ^ 27)) := by
        rw [zpow_neg]
        norm_num
        ring

end Integers

end PyDecimal
