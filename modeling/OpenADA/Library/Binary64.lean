import Mathlib.Data.Int.Log
import OpenADA.Library.PyDecimal

/-! The finite floats of a program, as the rational numbers they are, and the float that is nearest
to a number, the even one of two. -/
namespace Binary64

open PyDecimal (roundHalfEven)

section Integers

theorem abs_roundHalfEven_sub_le (q : ℚ) : |(roundHalfEven q : ℚ) - q| ≤ 1 / 2 := by
  have hlow := Int.floor_le q
  have hhigh := Int.lt_floor_add_one q
  unfold roundHalfEven
  dsimp only
  rw [abs_le]
  split_ifs <;> push_cast <;> constructor <;> linarith

@[simp] theorem roundHalfEven_intCast (n : ℤ) : roundHalfEven n = n := by
  simp [roundHalfEven]

theorem roundHalfEven_mono {p q : ℚ} (h : p ≤ q) : roundHalfEven p ≤ roundHalfEven q := by
  rcases h.eq_or_lt with rfl | hlt
  · exact le_refl _
  by_contra hgt
  have hstep : ((roundHalfEven q + 1 : ℤ) : ℚ) ≤ roundHalfEven p := by
    exact_mod_cast Int.add_one_le_iff.mpr (not_le.mp hgt)
  push_cast at hstep
  have hp := (abs_le.mp (abs_roundHalfEven_sub_le p)).2
  have hq := (abs_le.mp (abs_roundHalfEven_sub_le q)).1
  linarith

theorem roundHalfEven_neg (q : ℚ) : roundHalfEven (-q) = -roundHalfEven q := by
  by_cases hint : q = ⌊q⌋
  · rw [hint, ← Int.cast_neg, roundHalfEven_intCast, roundHalfEven_intCast]
  · have hlow : (⌊q⌋ : ℚ) < q := lt_of_le_of_ne (Int.floor_le q) (Ne.symm hint)
    have hhigh := Int.lt_floor_add_one q
    have hfloor : ⌊-q⌋ = -⌊q⌋ - 1 := by
      rw [Int.floor_eq_iff]
      push_cast
      constructor <;> linarith
    unfold roundHalfEven
    dsimp only
    rw [hfloor, Int.cast_sub, Int.cast_neg, Int.cast_one]
    rcases lt_trichotomy (q - ⌊q⌋) (1 / 2) with h | h | h
    · rw [if_neg (by linarith), if_pos (by linarith), if_pos h]
      ring
    · -- a tie: the even one of the two neighbours is the same on both sides of zero
      have hback : -q - (-(⌊q⌋ : ℚ) - 1) = 1 / 2 := by linarith
      simp only [h, hback, lt_irrefl, if_false]
      by_cases heven : ⌊q⌋ % 2 = 0
      · rw [if_neg (by omega), if_pos heven]
        ring
      · rw [if_pos (by omega), if_neg heven]
        ring
    · rw [if_pos (by linarith), if_neg (by linarith), if_pos h]
      ring

end Integers

def unitExponent (q : ℚ) : ℤ := max (Int.log 2 |q| - 52) (-1074)

def rounded (q : ℚ) : ℚ := roundHalfEven (q / 2 ^ unitExponent q) * 2 ^ unitExponent q

def nearest (q : ℚ) : Option ℚ := if |rounded q| < 2 ^ 1024 then some (rounded q) else none

section Rounding

variable {p q : ℚ}

theorem unit_pos (e : ℤ) : (0 : ℚ) < 2 ^ e := zpow_pos two_pos e

@[simp] theorem rounded_zero : rounded 0 = 0 := by
  have hzero : roundHalfEven 0 = 0 := roundHalfEven_intCast 0
  rw [rounded, zero_div, hzero, Int.cast_zero, zero_mul]

theorem rounded_neg (q : ℚ) : rounded (-q) = -rounded q := by
  have hunit : unitExponent (-q) = unitExponent q := by rw [unitExponent, unitExponent, abs_neg]
  rw [rounded, rounded, hunit, neg_div, roundHalfEven_neg, Int.cast_neg, neg_mul]

theorem rounded_of_multiple {m : ℤ} (h : q = m * 2 ^ unitExponent q) : rounded q = q := by
  have hdiv : q / 2 ^ unitExponent q = m := by
    rw [div_eq_iff (unit_pos _).ne', ← h]
  rw [rounded, hdiv, roundHalfEven_intCast, ← h]

theorem rounded_le {m : ℤ} (h : q ≤ m * 2 ^ unitExponent q) :
    rounded q ≤ m * 2 ^ unitExponent q := by
  have hdiv : q / 2 ^ unitExponent q ≤ m := (div_le_iff₀ (unit_pos _)).mpr h
  have hround := roundHalfEven_mono hdiv
  rw [roundHalfEven_intCast] at hround
  exact mul_le_mul_of_nonneg_right (by exact_mod_cast hround) (unit_pos _).le

theorem le_rounded {m : ℤ} (h : m * 2 ^ unitExponent q ≤ q) :
    m * 2 ^ unitExponent q ≤ rounded q := by
  have hdiv : (m : ℚ) ≤ q / 2 ^ unitExponent q := (le_div_iff₀ (unit_pos _)).mpr h
  have hround := roundHalfEven_mono hdiv
  rw [roundHalfEven_intCast] at hround
  exact mul_le_mul_of_nonneg_right (by exact_mod_cast hround) (unit_pos _).le

theorem rounded_nonneg (h : 0 ≤ q) : 0 ≤ rounded q := by
  have hle := @le_rounded q 0 (by simpa using h)
  simpa using hle

theorem zpow_eq_multiple {e k : ℤ} (h : e ≤ k) :
    ((2 ^ (k - e).toNat : ℤ) : ℚ) * 2 ^ e = 2 ^ k := by
  rw [Int.cast_pow, Int.cast_ofNat, ← zpow_natCast, Int.toNat_of_nonneg (by omega),
    ← zpow_add₀ two_ne_zero]
  congr 1
  omega

theorem rounded_mono_of_pos (hp : 0 < p) (h : p ≤ q) : rounded p ≤ rounded q := by
  have hq := hp.trans_le h
  have hlog : Int.log 2 |p| ≤ Int.log 2 |q| := by
    rw [abs_of_pos hp, abs_of_pos hq]
    exact Int.log_mono_right hp h
  have hunits : unitExponent p ≤ unitExponent q := max_le_max (by omega) le_rfl
  rcases hunits.eq_or_lt with heq | hlt
  · rw [rounded, rounded, ← heq]
    apply mul_le_mul_of_nonneg_right _ (unit_pos _).le
    exact_mod_cast roundHalfEven_mono (div_le_div_of_nonneg_right h (unit_pos _).le)
  · -- the power of two at which the larger unit starts lies between the two numbers
    have hunit : unitExponent q = Int.log 2 |q| - 52 := by
      unfold unitExponent at hlt ⊢
      omega
    have hbelow : p ≤ 2 ^ (unitExponent q + 52) := by
      have hp' := Int.lt_zpow_succ_log_self (b := 2) one_lt_two |p|
      rw [abs_of_pos hp] at hp'
      refine hp'.le.trans (zpow_le_zpow_right₀ one_le_two ?_)
      have hle : Int.log 2 |p| - 52 ≤ unitExponent p := le_max_left _ _
      rw [abs_of_pos hp] at hle
      omega
    have habove : (2 : ℚ) ^ (unitExponent q + 52) ≤ q := by
      rw [hunit, sub_add_cancel, abs_of_pos hq]
      exact_mod_cast Int.zpow_log_le_self (b := 2) one_lt_two hq
    have hlow : rounded p ≤ 2 ^ (unitExponent q + 52) := by
      have hmultiple := @zpow_eq_multiple (unitExponent p) (unitExponent q + 52) (by omega)
      rw [← hmultiple] at hbelow ⊢
      exact rounded_le hbelow
    have hhigh : 2 ^ (unitExponent q + 52) ≤ rounded q := by
      have hmultiple := @zpow_eq_multiple (unitExponent q) (unitExponent q + 52) (by omega)
      rw [← hmultiple] at habove ⊢
      exact le_rounded habove
    exact hlow.trans hhigh

theorem rounded_mono (h : p ≤ q) : rounded p ≤ rounded q := by
  rcases lt_trichotomy p 0 with hp | rfl | hp
  · rcases le_or_gt 0 q with hq | hq
    · have hneg := rounded_nonneg (neg_nonneg.mpr hp.le)
      rw [rounded_neg] at hneg
      linarith [rounded_nonneg hq]
    · have hmono := rounded_mono_of_pos (neg_pos.mpr hq) (neg_le_neg h)
      rw [rounded_neg, rounded_neg] at hmono
      linarith
  · rw [rounded_zero]
    exact rounded_nonneg h
  · exact rounded_mono_of_pos hp h

theorem rounded_of_bits {m e : ℤ} (hm : |m| ≤ 2 ^ 53) (he : -1074 ≤ e) :
    rounded (m * 2 ^ e) = m * 2 ^ e := by
  by_cases hzero : m = 0
  · rw [hzero, Int.cast_zero, zero_mul, rounded_zero]
  have habs : |((m : ℚ) * 2 ^ e)| = |m| * 2 ^ e := by
    rw [abs_mul, abs_of_pos (unit_pos e), Int.cast_abs]
  have hpos : (0 : ℚ) < |m| := by exact_mod_cast abs_pos.mpr hzero
  rcases hm.eq_or_lt with htop | hlt
  · -- the largest one is a power of two
    have hpower : |((m : ℚ) * 2 ^ e)| = 2 ^ (e + 53) := by
      rw [habs, htop, Int.cast_pow, Int.cast_ofNat, ← zpow_natCast, ← zpow_add₀ two_ne_zero,
        add_comm, Nat.cast_ofNat]
    have hlog : Int.log 2 |((m : ℚ) * 2 ^ e)| = e + 53 := by
      rw [hpower]
      exact_mod_cast Int.log_zpow (R := ℚ) one_lt_two (e + 53)
    have hunit : unitExponent (m * 2 ^ e) = e + 1 := by
      rw [unitExponent, hlog]
      omega
    have hhalf : (2 ^ 53 : ℤ) = 2 * 2 ^ 52 := by norm_num
    obtain ⟨n, hn⟩ : (2 : ℤ) ∣ m := by
      rw [← dvd_abs, htop, hhalf]
      exact dvd_mul_right _ _
    apply @rounded_of_multiple _ n
    rw [hunit, hn, zpow_add₀ two_ne_zero]
    push_cast
    ring
  · have hlog : Int.log 2 |((m : ℚ) * 2 ^ e)| < e + 53 := by
      rw [← Int.lt_zpow_iff_log_lt one_lt_two (by rw [habs]; exact mul_pos hpos (unit_pos e)), habs]
      have hbits : |(m : ℚ)| < 2 ^ (53 : ℤ) := by exact_mod_cast hlt
      push_cast
      rw [add_comm, zpow_add₀ two_ne_zero]
      exact mul_lt_mul_of_pos_right hbits (unit_pos e)
    have hunit : unitExponent (m * 2 ^ e) ≤ e := by
      unfold unitExponent
      omega
    apply @rounded_of_multiple _ (m * 2 ^ (e - unitExponent (m * 2 ^ e)).toNat)
    rw [Int.cast_mul, mul_assoc, zpow_eq_multiple hunit]

end Rounding

@[ext]
structure Double where
  value : ℚ
  nearest_value : nearest value = some value

theorem nearest_eq_some {p q : ℚ} (h : nearest q = some p) : rounded q = p ∧ |p| < 2 ^ 1024 := by
  unfold nearest at h
  split_ifs at h with hbound
  rw [← Option.some.inj h]
  exact ⟨rfl, hbound⟩

theorem nearest_of_nearest {p q : ℚ} (h : nearest q = some p) : nearest p = some p := by
  obtain ⟨rfl, hbound⟩ := nearest_eq_some h
  have hunit : -1074 ≤ unitExponent q := le_max_right _ _
  have hwidth : |q| ≤ 2 ^ (53 : ℤ) * 2 ^ unitExponent q := by
    have hlog := Int.lt_zpow_succ_log_self (b := 2) one_lt_two |q|
    rw [← zpow_add₀ two_ne_zero]
    refine hlog.le.trans (zpow_le_zpow_right₀ one_le_two ?_)
    have hle : Int.log 2 |q| - 52 ≤ unitExponent q := le_max_left _ _
    omega
  obtain ⟨hlow, hhigh⟩ := abs_le.mp hwidth
  have hbits : |roundHalfEven (q / 2 ^ unitExponent q)| ≤ 2 ^ 53 := by
    have hupper : q / 2 ^ unitExponent q ≤ ((2 ^ 53 : ℤ) : ℚ) := by
      rw [div_le_iff₀ (unit_pos _)]
      exact_mod_cast hhigh
    have hlower : ((-2 ^ 53 : ℤ) : ℚ) ≤ q / 2 ^ unitExponent q := by
      rw [le_div_iff₀ (unit_pos _), Int.cast_neg, neg_mul]
      exact_mod_cast hlow
    have hmax := roundHalfEven_mono hupper
    have hmin := roundHalfEven_mono hlower
    rw [roundHalfEven_intCast] at hmax hmin
    exact abs_le.mpr ⟨hmin, hmax⟩
  have hfixed : rounded (rounded q) = rounded q := rounded_of_bits hbits hunit
  rw [nearest, hfixed, if_pos hbound]

def doubleOf (q : ℚ) : Option Double :=
  if h : |rounded q| < 2 ^ 1024 then some ⟨rounded q, nearest_of_nearest (if_pos h)⟩ else none

theorem doubleOf_eq_some {q : ℚ} {x : Double} : doubleOf q = some x ↔ nearest q = some x.value := by
  unfold doubleOf nearest
  split_ifs with h
  · rw [Option.some_inj, Option.some_inj, Double.ext_iff]
  · simp

theorem Double.exists_multiple (x : Double) : ∃ m : ℤ, x.value = m * 2 ^ (-1074 : ℤ) := by
  have hfixed := (nearest_eq_some x.nearest_value).1
  have hunit : -1074 ≤ unitExponent x.value := le_max_right _ _
  refine ⟨roundHalfEven (x.value / 2 ^ unitExponent x.value) *
    2 ^ (unitExponent x.value - -1074).toNat, ?_⟩
  rw [Int.cast_mul, mul_assoc, zpow_eq_multiple hunit]
  exact hfixed.symm

/-- The texts of the floats, as the numbers that they denote: each is nearest to its own float. -/
structure Printing where
  shown : Double → ℚ
  nearest_shown : ∀ x, nearest (shown x) = some x.value

namespace Printing

variable (printing : Printing) {x y : Double}

theorem doubleOf_shown (x : Double) : doubleOf (printing.shown x) = some x :=
  doubleOf_eq_some.mpr (printing.nearest_shown x)

theorem shown_injective : Function.Injective printing.shown := by
  intro x y h
  have hfloats := congrArg doubleOf h
  rw [doubleOf_shown, doubleOf_shown] at hfloats
  exact Option.some.inj hfloats

theorem shown_lt_iff : printing.shown x < printing.shown y ↔ x.value < y.value := by
  have hx := (nearest_eq_some (printing.nearest_shown x)).1
  have hy := (nearest_eq_some (printing.nearest_shown y)).1
  constructor
  · intro h
    have hle := rounded_mono h.le
    rw [hx, hy] at hle
    refine lt_of_le_of_ne hle fun heq => h.ne ?_
    rw [Double.ext heq]
  · intro h
    by_contra hge
    have hle := rounded_mono (not_lt.mp hge)
    rw [hx, hy] at hle
    exact absurd h (not_lt.mpr hle)

end Printing

end Binary64
