import OpenADA.Library.DecimalContext

/-! What rounding to 28 significant digits leaves alone: exactly the numbers with at most 28 digits.
Sums, products and remainders of such numbers over one power of ten stay among them. -/
namespace PyDecimal

open DecimalContext (pow_digitCount_le lt_pow_digitCount digitCount_pos)

def Fits (value : ℚ) : Prop := ∃ n e : ℤ, |n| < 10 ^ 28 ∧ value = n * 10 ^ e

theorem fits_zero : Fits 0 := ⟨0, 0, by norm_num, by norm_num⟩

theorem fits_intCast_mul {n e : ℤ} (h : |n| < 10 ^ 28) : Fits (n * 10 ^ e) := ⟨n, e, h, rfl⟩

theorem le_abs_of_adjusted {value : ℚ} (h : value ≠ 0) : (10 : ℚ) ^ adjusted value ≤ |value| := by
  have hpos : 0 < |value| := abs_pos.mpr h
  unfold adjusted
  split_ifs with hone
  · have hfloor : 0 < ⌊|value|⌋₊ := Nat.floor_pos.mpr hone
    have hdigits := digitCount_pos ⌊|value|⌋₊
    have hle : (10 : ℚ) ^ (digitCount ⌊|value|⌋₊ - 1) ≤ ⌊|value|⌋₊ := by
      exact_mod_cast pow_digitCount_le hfloor
    have hexponent : (digitCount ⌊|value|⌋₊ : ℤ) - 1 = (digitCount ⌊|value|⌋₊ - 1 : ℕ) := by omega
    rw [hexponent, zpow_natCast]
    exact hle.trans (Nat.floor_le hpos.le)
  · have hinv : |value|⁻¹ ≤ ((⌈|value|⁻¹⌉₊ - 1 : ℕ) : ℚ) + 1 := by
      have hceil := Nat.le_ceil |value|⁻¹
      have hceilPos : 0 < ⌈|value|⁻¹⌉₊ := Nat.ceil_pos.mpr (inv_pos.mpr hpos)
      have hcast : ((⌈|value|⁻¹⌉₊ - 1 : ℕ) : ℚ) + 1 = ⌈|value|⁻¹⌉₊ := by
        rw [← Nat.cast_succ]
        congr 1
        omega
      rw [hcast]
      exact hceil
    have hlt : ((⌈|value|⁻¹⌉₊ - 1 : ℕ) : ℚ) + 1 ≤
        (10 : ℚ) ^ digitCount (⌈|value|⁻¹⌉₊ - 1) := by
      exact_mod_cast lt_pow_digitCount (⌈|value|⁻¹⌉₊ - 1)
    rw [zpow_neg, zpow_natCast]
    exact inv_le_of_inv_le₀ hpos (hinv.trans hlt)

theorem abs_lt_of_adjusted {value : ℚ} (h : value ≠ 0) : |value| < (10 : ℚ) ^ (adjusted value + 1) := by
  have hpos : 0 < |value| := abs_pos.mpr h
  unfold adjusted
  split_ifs with hone
  · rw [sub_add_cancel, zpow_natCast]
    have hfloor : |value| < (⌊|value|⌋₊ : ℚ) + 1 := Nat.lt_floor_add_one _
    have hlt : (⌊|value|⌋₊ : ℚ) + 1 ≤ (10 : ℚ) ^ digitCount ⌊|value|⌋₊ := by
      exact_mod_cast lt_pow_digitCount ⌊|value|⌋₊
    exact hfloor.trans_le hlt
  · have hsmall : 1 < |value|⁻¹ := (one_lt_inv₀ hpos).mpr (not_le.mp hone)
    have hceil : 1 < ⌈|value|⁻¹⌉₊ := Nat.lt_ceil.mpr (by exact_mod_cast hsmall)
    have hcount : 0 < ⌈|value|⁻¹⌉₊ - 1 := by omega
    have hbelow : ((⌈|value|⁻¹⌉₊ - 1 : ℕ) : ℚ) < |value|⁻¹ := by
      have hceilLt := Nat.ceil_lt_add_one (inv_pos.mpr hpos).le
      rw [Nat.cast_sub hceil.le, Nat.cast_one]
      linarith
    have hdigits := digitCount_pos (⌈|value|⁻¹⌉₊ - 1)
    have hle : (10 : ℚ) ^ (digitCount (⌈|value|⁻¹⌉₊ - 1) - 1) ≤ ((⌈|value|⁻¹⌉₊ - 1 : ℕ) : ℚ) := by
      exact_mod_cast pow_digitCount_le hcount
    have hexponent : -(digitCount (⌈|value|⁻¹⌉₊ - 1) : ℤ) + 1 =
        -((digitCount (⌈|value|⁻¹⌉₊ - 1) - 1 : ℕ) : ℤ) := by omega
    rw [hexponent, zpow_neg, zpow_natCast]
    exact lt_inv_of_lt_inv₀ (by positivity) (hle.trans_lt hbelow)

theorem roundHalfEven_intCast (n : ℤ) : roundHalfEven (n : ℚ) = n := by
  simp [roundHalfEven]

theorem roundHalfEven_bounds (value : ℚ) :
    ⌊value⌋ ≤ roundHalfEven value ∧ roundHalfEven value ≤ ⌈value⌉ := by
  have hrest : 1 / 2 ≤ value - ⌊value⌋ → ⌊value⌋ + 1 ≤ ⌈value⌉ := by
    intro h
    refine Int.add_one_le_of_lt (Int.lt_ceil.mpr ?_)
    linarith
  have hceil : ⌊value⌋ ≤ ⌈value⌉ := Int.floor_le_ceil value
  unfold roundHalfEven
  dsimp only
  split_ifs with hlow hhigh heven
  · exact ⟨le_rfl, hceil⟩
  · exact ⟨by omega, hrest hhigh.le⟩
  · exact ⟨le_rfl, hceil⟩
  · exact ⟨by omega, hrest (not_lt.mp hlow)⟩

theorem abs_roundHalfEven_sub_le (value : ℚ) : |(roundHalfEven value : ℚ) - value| ≤ 1 / 2 := by
  have hlow := Int.floor_le value
  have hhigh := Int.lt_floor_add_one value
  unfold roundHalfEven
  dsimp only
  rw [abs_le]
  split_ifs with hbelow habove heven
  · constructor <;> linarith
  · push_cast
    constructor <;> linarith
  · constructor <;> linarith
  · push_cast
    constructor <;> linarith

theorem abs_round_sub_le (value : ℚ) : |round value - value| ≤ |value| * (1 / (2 * 10 ^ 27)) := by
  unfold round
  split_ifs with hzero
  · rw [hzero]
    simp
  · show |(roundHalfEven (value / 10 ^ (adjusted value - 27)) : ℚ) * 10 ^ (adjusted value - 27) -
      value| ≤ _
    have hunit : (0 : ℚ) < 10 ^ (adjusted value - 27) := by positivity
    have hhalf := abs_roundHalfEven_sub_le (value / 10 ^ (adjusted value - 27))
    have hscaled : (roundHalfEven (value / 10 ^ (adjusted value - 27)) : ℚ) *
        10 ^ (adjusted value - 27) - value =
        (roundHalfEven (value / 10 ^ (adjusted value - 27)) - value / 10 ^ (adjusted value - 27)) *
          10 ^ (adjusted value - 27) := by
      rw [sub_mul, div_mul_cancel₀ _ hunit.ne']
    have hleading : (10 : ℚ) ^ (adjusted value - 27) * 10 ^ 27 ≤ |value| := by
      have hsplit : (10 : ℚ) ^ (adjusted value - 27) * 10 ^ 27 = 10 ^ adjusted value := by
        rw [← zpow_natCast, ← zpow_add₀ (by norm_num)]
        congr 1
        push_cast
        ring
      rw [hsplit]
      exact le_abs_of_adjusted hzero
    rw [hscaled, abs_mul, abs_of_pos hunit]
    calc _ ≤ 1 / 2 * (10 : ℚ) ^ (adjusted value - 27) := mul_le_mul_of_nonneg_right hhalf hunit.le
      _ = 10 ^ (adjusted value - 27) * 10 ^ 27 * (1 / (2 * 10 ^ 27)) := by ring
      _ ≤ |value| * (1 / (2 * 10 ^ 27)) := mul_le_mul_of_nonneg_right hleading (by positivity)

theorem round_of_fits {value : ℚ} (h : Fits value) : round value = value := by
  obtain ⟨n, e, hn, hvalue⟩ := h
  unfold round
  split_ifs with hzero
  · exact hzero.symm
  · have hraise : adjusted value - 27 ≤ e := by
      by_contra hlt
      have hsmall : |value| < (10 : ℚ) ^ (28 + e) := by
        rw [hvalue, abs_mul, abs_of_pos (show (0 : ℚ) < 10 ^ e by positivity),
          zpow_add₀ (by norm_num)]
        have hcast : |(n : ℚ)| < 10 ^ 28 := by exact_mod_cast hn
        exact mul_lt_mul_of_pos_right (by exact_mod_cast hcast) (by positivity)
      have hlarge : (10 : ℚ) ^ (28 + e) ≤ 10 ^ adjusted value :=
        zpow_le_zpow_right₀ (by norm_num) (by omega)
      have := le_abs_of_adjusted hzero
      linarith
    have hscaled : value / 10 ^ (adjusted value - 27) =
        ((n * 10 ^ (e - (adjusted value - 27)).toNat : ℤ) : ℚ) := by
      have hsplit : (10 : ℚ) ^ e =
          10 ^ (e - (adjusted value - 27)).toNat * 10 ^ (adjusted value - 27) := by
        rw [← zpow_natCast, ← zpow_add₀ (by norm_num)]
        congr 1
        omega
      rw [div_eq_iff (by positivity)]
      push_cast
      rw [mul_assoc, ← hsplit]
      exact hvalue
    show (roundHalfEven (value / 10 ^ (adjusted value - 27)) : ℚ) * 10 ^ (adjusted value - 27) = value
    rw [hscaled, roundHalfEven_intCast, ← hscaled]
    exact div_mul_cancel₀ value (by positivity)

theorem fits_round (value : ℚ) : Fits (round value) := by
  unfold round
  split_ifs with hzero
  · exact fits_zero
  · show Fits (roundHalfEven (value / 10 ^ (adjusted value - 27)) * 10 ^ (adjusted value - 27))
    have hbound : |value / 10 ^ (adjusted value - 27)| < 10 ^ 28 := by
      rw [abs_div, abs_of_pos (show (0 : ℚ) < 10 ^ (adjusted value - 27) by positivity),
        div_lt_iff₀ (by positivity)]
      have hsplit : (10 : ℚ) ^ 28 * 10 ^ (adjusted value - 27) = 10 ^ (adjusted value + 1) := by
        rw [← zpow_natCast, ← zpow_add₀ (by norm_num)]
        congr 1
        push_cast
        ring
      rw [hsplit]
      exact abs_lt_of_adjusted hzero
    obtain ⟨hfloor, hceil⟩ := roundHalfEven_bounds (value / 10 ^ (adjusted value - 27))
    obtain ⟨hlow, hhigh⟩ := abs_lt.mp hbound
    have hupper : ⌈value / 10 ^ (adjusted value - 27)⌉ ≤ 10 ^ 28 := by
      refine Int.ceil_le.mpr ?_
      push_cast
      exact hhigh.le
    have hlower : -10 ^ 28 ≤ ⌊value / 10 ^ (adjusted value - 27)⌋ := by
      refine Int.le_floor.mpr ?_
      push_cast
      exact hlow.le
    generalize roundHalfEven (value / 10 ^ (adjusted value - 27)) = kept at *
    -- a significand rounded up to a power of ten has a zero to give away
    rcases lt_or_eq_of_le (abs_le.mpr ⟨hlower.trans hfloor, hceil.trans hupper⟩) with hlt | heq
    · exact ⟨kept, _, hlt, rfl⟩
    · rcases eq_or_eq_neg_of_abs_eq heq with rfl | rfl
      · refine ⟨1, 28 + (adjusted value - 27), by norm_num, ?_⟩
        rw [zpow_add₀ (by norm_num)]
        norm_num
      · refine ⟨-1, 28 + (adjusted value - 27), by norm_num, ?_⟩
        rw [zpow_add₀ (by norm_num)]
        norm_num

theorem round_nonneg {value : ℚ} (h : 0 ≤ value) : 0 ≤ round value := by
  unfold round
  split_ifs with hzero
  · exact le_rfl
  · refine mul_nonneg ?_ (by positivity)
    have hfloor : 0 ≤ ⌊value / 10 ^ (adjusted value - 27)⌋ :=
      Int.floor_nonneg.mpr (div_nonneg h (by positivity))
    exact_mod_cast hfloor.trans (roundHalfEven_bounds _).1

/-- The remainder of two short numbers is short: it is a multiple of the finer unit, and no larger
than the number with that unit. -/
theorem fits_remainder {a b : ℚ} (ha : Fits a) (hb : Fits b) {q : ℤ}
    (hsmall : |a - b * q| ≤ |a|) (hlt : |a - b * q| < |b|) : Fits (a - b * q) := by
  obtain ⟨n, e, hn, rfl⟩ := ha
  obtain ⟨m, f, hm, rfl⟩ := hb
  have hfine : ∀ (k : ℤ) (unit : ℚ) (bound : ℤ), 0 < unit → |(k : ℚ) * unit| ≤ |(bound : ℚ) * unit| →
      |bound| < 10 ^ 28 → |k| < 10 ^ 28 := by
    intro k unit bound hunit hle hbound
    rw [abs_mul, abs_mul] at hle
    have hcast := le_of_mul_le_mul_right hle (abs_pos.mpr hunit.ne')
    have hint : |k| ≤ |bound| := by exact_mod_cast hcast
    exact hint.trans_lt hbound
  rcases le_total e f with hef | hfe
  · have hpow : (10 : ℚ) ^ f = 10 ^ (f - e).toNat * 10 ^ e := by
      rw [← zpow_natCast, ← zpow_add₀ (by norm_num)]
      congr 1
      omega
    have hform : (n : ℚ) * 10 ^ e - m * 10 ^ f * q =
        ((n - m * 10 ^ (f - e).toNat * q : ℤ) : ℚ) * 10 ^ e := by
      rw [hpow]
      push_cast
      ring
    rw [hform] at hsmall ⊢
    exact ⟨_, e, hfine _ _ n (by positivity) hsmall hn, rfl⟩
  · have hpow : (10 : ℚ) ^ e = 10 ^ (e - f).toNat * 10 ^ f := by
      rw [← zpow_natCast, ← zpow_add₀ (by norm_num)]
      congr 1
      omega
    have hform : (n : ℚ) * 10 ^ e - m * 10 ^ f * q =
        ((n * 10 ^ (e - f).toNat - m * q : ℤ) : ℚ) * 10 ^ f := by
      rw [hpow]
      push_cast
      ring
    rw [hform] at hlt ⊢
    exact ⟨_, f, hfine _ _ m (by positivity) hlt.le hm, rfl⟩

/-- The quotient of `rem`: truncated towards zero. -/
theorem truncated_bounds {a b : ℚ} (hb : 0 < b) {q : ℤ}
    (hq : q = if 0 ≤ a / b then ⌊a / b⌋ else ⌈a / b⌉) :
    |a - b * q| ≤ |a| ∧ |a - b * q| < b := by
  have hdiv : a = b * (a / b) := by field_simp
  have hrest : a - b * q = b * (a / b - q) := by
    rw [mul_sub, ← hdiv]
  generalize a / b = x at *
  rw [hrest, hdiv, abs_mul, abs_mul, abs_of_pos hb]
  suffices hunit : |x - q| ≤ |x| ∧ |x - q| < 1 by
    refine ⟨mul_le_mul_of_nonneg_left hunit.1 hb.le, ?_⟩
    calc b * |x - q| < b * 1 := mul_lt_mul_of_pos_left hunit.2 hb
      _ = b := mul_one b
  split_ifs at hq with hx
  · subst hq
    have hfloor : (0 : ℚ) ≤ ⌊x⌋ := by exact_mod_cast Int.floor_nonneg.mpr hx
    have hle := Int.floor_le x
    have hlt := Int.lt_floor_add_one x
    rw [abs_of_nonneg hx, abs_of_nonneg (by linarith)]
    constructor <;> linarith
  · subst hq
    have hneg := not_le.mp hx
    have hceil : (⌈x⌉ : ℚ) ≤ 0 := by exact_mod_cast Int.ceil_le.mpr (by simpa using hneg.le)
    have hle := Int.le_ceil x
    have hlt := Int.ceil_lt_add_one x
    rw [abs_of_neg hneg, abs_of_nonpos (by linarith)]
    constructor <;> linarith

theorem fits_of_rem {a b value : ℚ} (h : rem a b = some value) : Fits value := by
  unfold rem at h
  dsimp only at h
  split_ifs at h
  all_goals
    obtain rfl := Option.some.inj h
    exact fits_round _

theorem rem_eq_some {a b value : ℚ} (ha : Fits a) (hb : Fits b) (hpos : 0 < b)
    (h : rem a b = some value) :
    |value| < b ∧ (0 ≤ a → 0 ≤ value) ∧ ∃ q : ℤ, value = a - b * q := by
  unfold rem at h
  rw [if_neg hpos.ne'] at h
  dsimp only at h
  generalize hq : (if 0 ≤ a / b then ⌊a / b⌋ else ⌈a / b⌉) = q at h
  obtain ⟨hsmall, hlt⟩ := truncated_bounds (a := a) hpos hq.symm
  split_ifs at h
  obtain rfl := Option.some.inj h
  rw [round_of_fits (fits_remainder ha hb hsmall (by rwa [abs_of_pos hpos]))]
  refine ⟨hlt, ?_, q, rfl⟩
  intro hnonneg
  have hquotient : 0 ≤ a / b := div_nonneg hnonneg hpos.le
  rw [if_pos hquotient] at hq
  have hfloor := Int.floor_le (a / b)
  rw [hq, le_div_iff₀ hpos] at hfloor
  linarith

end PyDecimal
