import OpenADA.Library.PyDecimal

/-! Finite decimals in a context that bounds their digits and their exponents. The result of an
operation is the exact one, rounded half to even where it does not fit; a result that is too large
raises. -/
namespace DecimalContext

open PyDecimal (digitCount stripZeros plainDigits)

structure FiniteDecimal where
  negative : Bool
  coefficient : ℕ
  exponent : ℤ
  deriving DecidableEq

structure Context where
  prec : ℕ
  emax : ℤ
  emin : ℤ
  prec_pos : 0 < prec
  emin_lt : emin < emax

theorem defaultExponents_lt : (-999999 : ℤ) < 999999 := by decide

namespace FiniteDecimal

def magnitude (x : FiniteDecimal) : ℚ := x.coefficient * 10 ^ x.exponent

def value (x : FiniteDecimal) : ℚ := (if x.negative then -1 else 1) * x.magnitude

/-- The decimal of a rational number whose denominator divides a power of ten. -/
def ofRat (q : ℚ) : FiniteDecimal :=
  ⟨decide (q < 0), q.num.natAbs * (10 ^ q.den.log2 / q.den), -q.den.log2⟩

/-- `-x`. -/
def neg (x : FiniteDecimal) : FiniteDecimal := { x with negative := !x.negative }

def signedAt (x : FiniteDecimal) (exponent : ℤ) : ℤ :=
  (if x.negative then -1 else 1) * (x.coefficient * 10 ^ (x.exponent - exponent).toNat : ℕ)

end FiniteDecimal

def roundedQuotient (coefficient places : ℕ) : ℕ :=
  let kept := coefficient / 10 ^ places
  let rest := coefficient % 10 ^ places
  if 10 ^ places < 2 * rest ∨ (2 * rest = 10 ^ places ∧ kept % 2 = 1) then kept + 1 else kept

namespace Context

variable (context : Context)

/-- `Etiny()`: the least exponent of a result. -/
def etiny : ℤ := context.emin - context.prec + 1

/-- `Etop()`: the largest exponent of a result with all its digits. -/
def etop : ℤ := context.emax - context.prec + 1

def leastExponent (x : FiniteDecimal) : ℤ := digitCount x.coefficient + x.exponent - context.prec

/-- `_fix`: a number rounded to the context, unless it is too large. -/
def fix (x : FiniteDecimal) : Option FiniteDecimal :=
  if x.coefficient = 0 then
    some { x with exponent := min (max x.exponent context.etiny) context.emax }
  else if context.etop < context.leastExponent x then none
  else
    let least := max (context.leastExponent x) context.etiny
    if x.exponent < least then
      let kept := roundedQuotient x.coefficient (least - x.exponent).toNat
      if context.prec < digitCount kept then
        if context.etop < least + 1 then none else some ⟨x.negative, kept / 10, least + 1⟩
      else some ⟨x.negative, kept, least⟩
    else some x

def exactSum (x y : FiniteDecimal) : FiniteDecimal :=
  let exponent := min x.exponent y.exponent
  let sum := x.signedAt exponent + y.signedAt exponent
  ⟨if sum = 0 then x.negative && y.negative else decide (sum < 0), sum.natAbs, exponent⟩

def exactProduct (x y : FiniteDecimal) : FiniteDecimal :=
  ⟨xor x.negative y.negative, x.coefficient * y.coefficient, x.exponent + y.exponent⟩

def add (x y : FiniteDecimal) : Option FiniteDecimal := context.fix (exactSum x y)

def sub (x y : FiniteDecimal) : Option FiniteDecimal := context.fix (exactSum x y.neg)

def mul (x y : FiniteDecimal) : Option FiniteDecimal := context.fix (exactProduct x y)

/-- The quotient with one digit more than the context has, or two; a last digit that rounding could
not place is moved off the middle, and an exact quotient keeps no zero that it does not need. -/
def longQuotient (x y : FiniteDecimal) : FiniteDecimal :=
  let shift : ℤ := (digitCount y.coefficient : ℤ) - digitCount x.coefficient + context.prec + 1
  let dividend := x.coefficient * 10 ^ shift.toNat
  let divisor := y.coefficient * 10 ^ (-shift).toNat
  let quotient := dividend / divisor
  let exponent := x.exponent - y.exponent - shift
  if dividend % divisor = 0 then
    let stripped := stripZeros shift.toNat quotient exponent
    ⟨xor x.negative y.negative, stripped.1, stripped.2⟩
  else
    ⟨xor x.negative y.negative, if quotient % 5 = 0 then quotient + 1 else quotient, exponent⟩

def div (x y : FiniteDecimal) : Option FiniteDecimal :=
  if y.coefficient = 0 then none else context.fix (context.longQuotient x y)

def longRoot (x : FiniteDecimal) : FiniteDecimal :=
  let half := x.exponent / 2
  let coefficient := if x.exponent % 2 = 0 then x.coefficient else x.coefficient * 10
  let shift : ℤ := context.prec + 1 - (digitCount coefficient + 1) / 2
  let scaled := coefficient * 100 ^ shift.toNat / 100 ^ (-shift).toNat
  let root := scaled.sqrt
  if root * root = scaled ∧ scaled * 100 ^ (-shift).toNat = coefficient * 100 ^ shift.toNat then
    ⟨false, root * 10 ^ (-shift).toNat / 10 ^ shift.toNat, half⟩
  else ⟨false, if root % 5 = 0 then root + 1 else root, half - shift⟩

/-- `sqrt`: a negative number raises. -/
def sqrt (x : FiniteDecimal) : Option FiniteDecimal :=
  if x.coefficient = 0 then context.fix { x with exponent := x.exponent / 2 }
  else if x.negative then none
  else context.fix (context.longRoot x)

/-- `normalize`: a rounded number without zeros at its end. -/
def normalize (x : FiniteDecimal) : Option FiniteDecimal :=
  (context.fix x).map fun y =>
    if y.coefficient = 0 then { y with exponent := 0 }
    else
      let stripped := stripZeros (digitCount y.coefficient) y.coefficient y.exponent
      ⟨y.negative, stripped.1, stripped.2⟩

/-- Whether a number has a representation within the digits and the exponents of the context. -/
def Fits (q : ℚ) : Prop :=
  ∃ (coefficient : ℕ) (exponent : ℤ), coefficient < 10 ^ context.prec ∧
    context.etiny ≤ exponent ∧ |q| = coefficient * 10 ^ exponent

end Context

section Digits

theorem digitCount_le_iff {n k : ℕ} (hk : 0 < k) : digitCount n ≤ k ↔ n < 10 ^ k :=
  Nat.length_toDigits_le_iff (by norm_num) hk

theorem digitCount_pos (n : ℕ) : 0 < digitCount n := Nat.length_toDigits_pos

theorem lt_pow_digitCount (n : ℕ) : n < 10 ^ digitCount n :=
  (digitCount_le_iff (digitCount_pos n)).mp le_rfl

theorem pow_digitCount_le {n : ℕ} (hn : 0 < n) : 10 ^ (digitCount n - 1) ≤ n := by
  by_cases h : digitCount n - 1 = 0
  · rw [h, pow_zero]
    omega
  · by_contra hlt
    have := (digitCount_le_iff (Nat.pos_of_ne_zero h)).mpr (not_le.mp hlt)
    omega

theorem coefficient_eq {c m : ℕ} {e k : ℤ} (hle : e ≤ k)
    (h : (c : ℚ) * 10 ^ e = m * 10 ^ k) : c = m * 10 ^ (k - e).toNat := by
  have hk : k = (k - e).toNat + e := by omega
  have hpow : (10 : ℚ) ^ e ≠ 0 := by positivity
  rw [hk, zpow_add₀ (by norm_num), zpow_natCast, ← mul_assoc] at h
  have hcast := mul_right_cancel₀ hpow h
  exact_mod_cast hcast

theorem mul_zpow_raise {c kept : ℕ} {e least : ℤ} (he : e ≤ least)
    (hc : c = kept * 10 ^ (least - e).toNat) : (kept : ℚ) * 10 ^ least = c * 10 ^ e := by
  have hleast : (10 : ℚ) ^ least = 10 ^ (least - e).toNat * 10 ^ e := by
    rw [← zpow_natCast, ← zpow_add₀ (by norm_num)]
    congr 1
    omega
  rw [hleast, hc]
  push_cast
  ring

end Digits

section Rounding

theorem roundedQuotient_le (c n : ℕ) : roundedQuotient c n ≤ c / 10 ^ n + 1 := by
  simp only [roundedQuotient]
  split_ifs <;> omega

theorem le_roundedQuotient (c n : ℕ) : c / 10 ^ n ≤ roundedQuotient c n := by
  simp only [roundedQuotient]
  split_ifs <;> omega

theorem roundedQuotient_mul {q n : ℕ} : roundedQuotient (q * 10 ^ n) n = q := by
  have hpos : 0 < 10 ^ n := by positivity
  simp only [roundedQuotient, Nat.mul_mod_left, Nat.mul_div_cancel q hpos]
  rw [if_neg]
  omega

theorem pow_le_roundedQuotient_iff {c n prec : ℕ} (hprec : 0 < prec)
    (hc : c < 10 ^ (prec + n)) :
    10 ^ prec ≤ roundedQuotient c n ↔ 2 * 10 ^ (prec + n) ≤ 2 * c + 10 ^ n := by
  rw [pow_add] at hc ⊢
  have hsplit := Nat.div_add_mod c (10 ^ n)
  have hrest := Nat.mod_lt c (show 0 < 10 ^ n by positivity)
  have hkept : c / 10 ^ n < 10 ^ prec := Nat.div_lt_of_lt_mul (by rwa [mul_comm])
  have hodd : (10 ^ prec - 1) % 2 = 1 := by
    obtain ⟨k, rfl⟩ := Nat.exists_eq_succ_of_ne_zero hprec.ne'
    rw [pow_succ]
    have : 0 < 10 ^ k := by positivity
    omega
  simp only [roundedQuotient]
  generalize c / 10 ^ n = kept at hsplit hkept
  generalize c % 10 ^ n = rest at hsplit hrest
  generalize 10 ^ n = unit at *
  generalize 10 ^ prec = bound at *
  subst hsplit
  constructor
  · intro h
    split_ifs at h with hup
    · obtain rfl : kept = bound - 1 := by omega
      have hbound : bound = (bound - 1) + 1 := by omega
      have hproduct : bound * unit = (bound - 1) * unit + unit := by
        conv_lhs => rw [hbound]
        ring
      rw [hproduct, mul_comm unit]
      omega
    · omega
  · intro h
    have hlast : kept = bound - 1 := by
      by_contra hne
      have hle : (kept + 2) * unit ≤ bound * unit := Nat.mul_le_mul_right unit (by omega)
      have hexpand : (kept + 2) * unit = unit * kept + 2 * unit := by ring
      omega
    subst hlast
    have hbound : bound = (bound - 1) + 1 := by omega
    have hproduct : bound * unit = unit * (bound - 1) + unit := by
      conv_lhs => rw [hbound]
      ring
    rw [if_pos]
    · omega
    · rw [hproduct] at h
      omega

end Rounding

namespace FiniteDecimal

theorem magnitude_nonneg (x : FiniteDecimal) : 0 ≤ x.magnitude := by
  unfold magnitude
  positivity

theorem abs_value (x : FiniteDecimal) : |x.value| = x.magnitude := by
  unfold value
  rw [abs_mul, abs_of_nonneg x.magnitude_nonneg]
  split_ifs <;> simp

theorem value_eq_iff {x y : FiniteDecimal} (h : x.negative = y.negative) :
    x.value = y.value ↔ x.magnitude = y.magnitude := by
  unfold value
  rw [h]
  split_ifs <;> simp

theorem magnitude_lt (x : FiniteDecimal) :
    x.magnitude < 10 ^ ((digitCount x.coefficient : ℤ) + x.exponent) := by
  rw [zpow_add₀ (by norm_num), zpow_natCast, magnitude]
  gcongr
  exact_mod_cast lt_pow_digitCount x.coefficient

theorem le_magnitude {x : FiniteDecimal} (hx : x.coefficient ≠ 0) :
    10 ^ ((digitCount x.coefficient : ℤ) - 1 + x.exponent) ≤ x.magnitude := by
  have hdigits := digitCount_pos x.coefficient
  have hcast : ((digitCount x.coefficient : ℤ) - 1) = (digitCount x.coefficient - 1 : ℕ) := by omega
  rw [zpow_add₀ (by norm_num), hcast, zpow_natCast, magnitude]
  gcongr
  exact_mod_cast pow_digitCount_le (Nat.pos_of_ne_zero hx)

theorem signedAt_mul (x : FiniteDecimal) {exponent : ℤ} (h : exponent ≤ x.exponent) :
    (x.signedAt exponent : ℚ) * 10 ^ exponent = x.value := by
  have hexponent : x.exponent = (x.exponent - exponent).toNat + exponent := by omega
  have hpow : (10 : ℚ) ^ x.exponent = 10 ^ (x.exponent - exponent).toNat * 10 ^ exponent := by
    conv_lhs => rw [hexponent]
    rw [zpow_add₀ (by norm_num), zpow_natCast]
  unfold signedAt value magnitude
  rw [hpow]
  split_ifs <;> push_cast <;> ring

@[simp] theorem value_neg (x : FiniteDecimal) : x.neg.value = -x.value := by
  cases x with
  | mk negative coefficient exponent => cases negative <;> simp [neg, value, magnitude]

end FiniteDecimal

namespace Context

variable {context : Context} {x y z : FiniteDecimal}

/-- The exponent of a representation with few digits is not too low for the others. -/
theorem leastExponent_le {c m prec : ℕ} {e k : ℤ} (hc : 0 < c) (hm : m < 10 ^ prec)
    (h : (c : ℚ) * 10 ^ e = m * 10 ^ k) : digitCount c + e - prec ≤ k := by
  by_contra hlt
  have hlow : (10 : ℚ) ^ ((digitCount c : ℤ) - 1 + e) ≤ c * 10 ^ e :=
    @FiniteDecimal.le_magnitude ⟨false, c, e⟩ hc.ne'
  have hhigh : (m : ℚ) * 10 ^ k < 10 ^ ((prec : ℤ) + k) := by
    rw [zpow_add₀ (by norm_num), zpow_natCast]
    gcongr
    exact_mod_cast hm
  have hmono : (10 : ℚ) ^ ((prec : ℤ) + k) ≤ 10 ^ ((digitCount c : ℤ) - 1 + e) :=
    zpow_le_zpow_right₀ (by norm_num) (by omega)
  rw [h] at hlow
  exact absurd (hlow.trans_lt hhigh) (not_lt.mpr hmono)

theorem exactProduct_value : (exactProduct x y).value = x.value * y.value := by
  unfold exactProduct FiniteDecimal.value FiniteDecimal.magnitude
  simp only [Nat.cast_mul, zpow_add₀ (by norm_num : (10 : ℚ) ≠ 0)]
  cases x.negative <;> cases y.negative <;> simp <;> ring

theorem natAbs_mul_sign (sum : ℤ) (sign : Bool) :
    (if (if sum = 0 then sign else decide (sum < 0)) then -1 else 1) * (sum.natAbs : ℚ) = sum := by
  rw [Nat.cast_natAbs]
  by_cases hzero : sum = 0
  · simp [hzero]
  · by_cases hneg : sum < 0
    · simp [hzero, hneg, abs_of_neg hneg]
    · simp [hzero, hneg, abs_of_nonneg (not_lt.mp hneg)]

theorem exactSum_value : (exactSum x y).value = x.value + y.value := by
  have hx := x.signedAt_mul (min_le_left x.exponent y.exponent)
  have hy := y.signedAt_mul (min_le_right x.exponent y.exponent)
  rw [← hx, ← hy, ← add_mul, ← Int.cast_add, ← natAbs_mul_sign, mul_assoc]
  rfl

theorem fits_zero (context : Context) : context.Fits 0 :=
  ⟨0, context.etiny, by positivity, le_rfl, by simp⟩

theorem fix_negative (h : context.fix x = some y) : y.negative = x.negative := by
  simp only [fix] at h
  split_ifs at h <;> (obtain rfl := Option.some.inj h; rfl)

theorem quotient_lt_pow {c : ℕ} {e least : ℤ} (he : e < least)
    (hdigits : digitCount c + e - context.prec ≤ least) :
    c / 10 ^ (least - e).toNat < 10 ^ context.prec := by
  have hlt := lt_pow_digitCount c
  have hpow : 10 ^ digitCount c ≤ 10 ^ (context.prec + (least - e).toNat) :=
    Nat.pow_le_pow_right (by norm_num) (by omega)
  rw [pow_add] at hpow
  exact Nat.div_lt_of_lt_mul (by rw [mul_comm]; omega)

theorem roundedQuotient_le_pow {c : ℕ} {e least : ℤ} (he : e < least)
    (hdigits : digitCount c + e - context.prec ≤ least) :
    roundedQuotient c (least - e).toNat ≤ 10 ^ context.prec := by
  have hquotient := quotient_lt_pow he hdigits
  have hle := roundedQuotient_le c (least - e).toNat
  omega

/-- Rounding a coefficient that has a short representation drops zeros only. -/
theorem roundedQuotient_of_fits {c m : ℕ} {e k least : ℤ}
    (h : (c : ℚ) * 10 ^ e = m * 10 ^ k) (hleast : least ≤ k) (he : e < least)
    (hdigits : digitCount c + e - context.prec ≤ least) :
    c = roundedQuotient c (least - e).toNat * 10 ^ (least - e).toNat ∧
      roundedQuotient c (least - e).toNat < 10 ^ context.prec := by
  have hc := coefficient_eq (by omega) h
  have hsplit : (k - e).toNat = (k - least).toNat + (least - e).toNat := by omega
  rw [hsplit, pow_add, ← mul_assoc] at hc
  have hlt := quotient_lt_pow he hdigits
  have hquotient : c / 10 ^ (least - e).toNat = m * 10 ^ (k - least).toNat := by
    rw [hc, Nat.mul_div_cancel _ (by positivity)]
  have hkept : roundedQuotient c (least - e).toNat = m * 10 ^ (k - least).toNat := by
    rw [hc, roundedQuotient_mul]
  rw [hkept]
  exact ⟨hc, hquotient ▸ hlt⟩

theorem fix_of_fits (h : context.fix x = some y) (hfits : context.Fits x.value) :
    y.value = x.value := by
  rw [FiniteDecimal.value_eq_iff (fix_negative h)]
  obtain ⟨m, k, hm, hk, heq⟩ := hfits
  rw [x.abs_value] at heq
  by_cases hzero : x.coefficient = 0
  · rw [fix, if_pos hzero] at h
    obtain rfl := Option.some.inj h
    simp [FiniteDecimal.magnitude, hzero]
  have hlow := leastExponent_le (Nat.pos_of_ne_zero hzero) hm heq
  simp only [fix, if_neg hzero] at h
  split_ifs at h with hover hround hcarry htop
  · obtain ⟨-, hkept⟩ := roundedQuotient_of_fits heq (max_le hlow hk) hround (le_max_left _ _)
    exact absurd ((digitCount_le_iff context.prec_pos).mpr hkept) (not_le.mpr hcarry)
  · obtain ⟨hc, -⟩ := roundedQuotient_of_fits heq (max_le hlow hk) hround (le_max_left _ _)
    obtain rfl := Option.some.inj h
    exact mul_zpow_raise hround.le hc
  · obtain rfl := Option.some.inj h
    rfl

/-- What a context makes of a number is within its digits and its exponents. -/
theorem bounds_of_fix (h : context.fix x = some y) :
    y.coefficient < 10 ^ context.prec ∧ context.etiny ≤ y.exponent := by
  have hprec : 0 < 10 ^ context.prec := by positivity
  by_cases hzero : x.coefficient = 0
  · rw [fix, if_pos hzero] at h
    obtain rfl := Option.some.inj h
    have hrange := context.emin_lt
    have hpositive := context.prec_pos
    refine ⟨hzero ▸ hprec, le_min (le_max_right _ _) ?_⟩
    unfold etiny
    omega
  simp only [fix, if_neg hzero] at h
  split_ifs at h with hover hround hcarry htop
  · obtain rfl := Option.some.inj h
    constructor
    · have hle := roundedQuotient_le_pow hround (le_max_left (context.leastExponent x) _)
      exact lt_of_le_of_lt (Nat.div_le_div_right hle) (Nat.div_lt_self hprec (by norm_num))
    · have := le_max_right (context.leastExponent x) context.etiny
      show context.etiny ≤ _ + 1
      omega
  · obtain rfl := Option.some.inj h
    exact ⟨(digitCount_le_iff context.prec_pos).mp (not_lt.mp hcarry), le_max_right _ _⟩
  · obtain rfl := Option.some.inj h
    rw [not_lt, max_le_iff, leastExponent] at hround
    exact ⟨(digitCount_le_iff context.prec_pos).mp (by omega), hround.2⟩

theorem fits_of_fix (h : context.fix x = some y) : context.Fits y.value :=
  ⟨_, _, (bounds_of_fix h).1, (bounds_of_fix h).2, y.abs_value⟩

theorem fix_value_eq_iff (h : context.fix x = some y) :
    y.value = x.value ↔ context.Fits x.value :=
  ⟨fun heq => heq ▸ fits_of_fix h, fix_of_fits h⟩

def rounded (context : Context) (x : FiniteDecimal) : FiniteDecimal :=
  let least := max (context.leastExponent x) context.etiny
  if x.exponent < least then
    ⟨x.negative, roundedQuotient x.coefficient (least - x.exponent).toNat, least⟩
  else x

theorem magnitude_of_fix (h : context.fix x = some y) :
    y.magnitude = (context.rounded x).magnitude := by
  by_cases hzero : x.coefficient = 0
  · rw [fix, if_pos hzero] at h
    obtain rfl := Option.some.inj h
    simp only [rounded]
    split_ifs <;> simp [FiniteDecimal.magnitude, hzero, roundedQuotient]
  simp only [fix, if_neg hzero] at h
  simp only [rounded]
  split_ifs at h with hover hround hcarry htop
  · obtain rfl := Option.some.inj h
    have hle := roundedQuotient_le_pow hround (le_max_left (context.leastExponent x) _)
    have hkept := hle.antisymm
      (not_lt.mp fun hlt => hcarry.not_ge ((digitCount_le_iff context.prec_pos).mpr hlt))
    rw [if_pos hround]
    simp only [FiniteDecimal.magnitude]
    obtain ⟨k, hk⟩ := Nat.exists_eq_succ_of_ne_zero context.prec_pos.ne'
    rw [hkept, hk, pow_succ, Nat.mul_div_cancel _ (by norm_num), zpow_add_one₀ (by norm_num)]
    push_cast
    ring
  · obtain rfl := Option.some.inj h
    rw [if_pos hround]
  · obtain rfl := Option.some.inj h
    rw [if_neg hround]

section Representations

theorem leastExponent_congr (hx : x.coefficient ≠ 0) (hy : y.coefficient ≠ 0)
    (h : x.magnitude = y.magnitude) : context.leastExponent x = context.leastExponent y := by
  have hle {x y : FiniteDecimal} (hy : y.coefficient ≠ 0) (h : x.magnitude = y.magnitude) :
      (digitCount y.coefficient : ℤ) + y.exponent ≤ digitCount x.coefficient + x.exponent := by
    by_contra hlt
    have hmono : (10 : ℚ) ^ ((digitCount x.coefficient : ℤ) + x.exponent) ≤
        10 ^ ((digitCount y.coefficient : ℤ) - 1 + y.exponent) :=
      zpow_le_zpow_right₀ (by norm_num) (by omega)
    exact absurd (hmono.trans (FiniteDecimal.le_magnitude hy))
      (not_le.mpr (h ▸ x.magnitude_lt))
  unfold leastExponent
  rw [le_antisymm (hle hx h.symm) (hle hy h)]

theorem roundedQuotient_mul_mul {c n j : ℕ} :
    roundedQuotient (c * 10 ^ j) (n + j) = roundedQuotient c n := by
  have hpos : 0 < 10 ^ j := by positivity
  have hmod : c * 10 ^ j % (10 ^ n * 10 ^ j) = c % 10 ^ n * 10 ^ j := Nat.mul_mod_mul_right ..
  simp only [roundedQuotient, pow_add, Nat.mul_div_mul_right _ _ hpos, hmod]
  have hlt : 10 ^ n * 10 ^ j < 2 * (c % 10 ^ n * 10 ^ j) ↔ 10 ^ n < 2 * (c % 10 ^ n) := by
    rw [← mul_assoc, Nat.mul_lt_mul_right hpos]
  have heq : 2 * (c % 10 ^ n * 10 ^ j) = 10 ^ n * 10 ^ j ↔ 2 * (c % 10 ^ n) = 10 ^ n := by
    rw [← mul_assoc, Nat.mul_left_inj hpos.ne']
  simp only [hlt, heq]

theorem rounded_congr (h : x.magnitude = y.magnitude) :
    (context.rounded x).magnitude = (context.rounded y).magnitude := by
  by_cases hx : x.coefficient = 0
  · have hzero : x.magnitude = 0 := by simp [FiniteDecimal.magnitude, hx]
    have hy : y.coefficient = 0 := by
      by_contra hne
      have hpos := FiniteDecimal.le_magnitude hne
      rw [← h, hzero] at hpos
      exact absurd hpos (not_le.mpr (by positivity))
    simp only [rounded]
    split_ifs <;> simp [FiniteDecimal.magnitude, hx, hy, roundedQuotient]
  have hy : y.coefficient ≠ 0 := by
    intro hzero
    have hpos := FiniteDecimal.le_magnitude hx
    rw [h, FiniteDecimal.magnitude, hzero, Nat.cast_zero, zero_mul] at hpos
    exact absurd hpos (not_le.mpr (by positivity))
  -- the one with the lower exponent has more zeros at its end
  wlog hle : y.exponent ≤ x.exponent generalizing x y
  · exact (this h.symm hy hx (by omega)).symm
  have hcoefficient := coefficient_eq hle h.symm
  simp only [rounded, leastExponent_congr hx hy h]
  generalize max (context.leastExponent y) context.etiny = least
  by_cases hlow : x.exponent < least
  · have hplaces : (least - y.exponent).toNat =
        (least - x.exponent).toNat + (x.exponent - y.exponent).toNat := by omega
    rw [if_pos hlow, if_pos (by omega), FiniteDecimal.magnitude, FiniteDecimal.magnitude,
      hcoefficient, hplaces, roundedQuotient_mul_mul]
  · rw [if_neg hlow]
    by_cases hlower : y.exponent < least
    · have hzeros : (x.exponent - y.exponent).toNat =
          (x.exponent - least).toNat + (least - y.exponent).toNat := by omega
      have hraise := @mul_zpow_raise y.coefficient (x.coefficient * 10 ^ (x.exponent - least).toNat)
        y.exponent least hlower.le (by rw [mul_assoc, ← pow_add, ← hzeros, hcoefficient])
      rw [if_pos hlower, hcoefficient, hzeros, pow_add, ← mul_assoc, roundedQuotient_mul, h]
      exact hraise.symm
    · rw [if_neg hlower]
      exact h

theorem fix_congr {x' y' : FiniteDecimal} (hx : context.fix x = some x')
    (hy : context.fix y = some y') (h : x.value = y.value) : x'.value = y'.value := by
  have hmagnitude : x.magnitude = y.magnitude := by rw [← x.abs_value, h, y.abs_value]
  have hrounded : x'.magnitude = y'.magnitude := by
    rw [magnitude_of_fix hx, magnitude_of_fix hy, rounded_congr hmagnitude]
  by_cases hsign : x.negative = y.negative
  · rw [FiniteDecimal.value_eq_iff (by rw [fix_negative hx, fix_negative hy, hsign])]
    exact hrounded
  · -- the signs differ at zero only
    have hneg : x.value = -y.value := by
      unfold FiniteDecimal.value
      rw [hmagnitude]
      cases hx : x.negative <;> cases hy : y.negative <;> simp_all
    have hzero : x.value = 0 := by linarith
    have hfitsx := fix_of_fits hx (hzero ▸ fits_zero context)
    have hfitsy := fix_of_fits hy (h ▸ hzero ▸ fits_zero context)
    rw [hfitsx, hfitsy, h]

end Representations

section Bound

variable {N : ℤ}

theorem half_unit_lt (context : Context) (N : ℤ) :
    (10 : ℚ) ^ (N - 1) < 10 ^ N - 10 ^ (N - context.prec) / 2 := by
  have hprec := context.prec_pos
  have hunit : (10 : ℚ) ^ (N - context.prec) ≤ 10 ^ (N - 1) :=
    zpow_le_zpow_right₀ (by norm_num) (by omega)
  have hten : (10 : ℚ) ^ N = 10 * 10 ^ (N - 1) := by
    rw [mul_comm, ← zpow_add_one₀ (by norm_num), sub_add_cancel]
  have hpos : (0 : ℚ) < 10 ^ (N - 1) := by positivity
  linarith

theorem le_rounded (hx : x.coefficient ≠ 0) (hleast : context.etiny ≤ context.leastExponent x) :
    10 ^ ((digitCount x.coefficient : ℤ) - 1 + x.exponent) ≤ (context.rounded x).magnitude := by
  have hprec := context.prec_pos
  simp only [rounded, max_eq_left hleast]
  split_ifs with hround
  · have hkept : 10 ^ (context.prec - 1) ≤
        roundedQuotient x.coefficient (context.leastExponent x - x.exponent).toNat := by
      refine le_trans ?_ (le_roundedQuotient _ _)
      rw [Nat.le_div_iff_mul_le (by positivity), ← pow_add]
      refine le_trans (Nat.pow_le_pow_right (by norm_num) ?_)
        (pow_digitCount_le (Nat.pos_of_ne_zero hx))
      unfold leastExponent at hround ⊢
      omega
    have hexponent : (digitCount x.coefficient : ℤ) - 1 + x.exponent =
        (context.prec - 1 : ℕ) + context.leastExponent x := by
      unfold leastExponent
      omega
    rw [hexponent, zpow_add₀ (by norm_num), zpow_natCast, FiniteDecimal.magnitude]
    gcongr
    exact_mod_cast hkept
  · exact FiniteDecimal.le_magnitude hx

theorem rounded_le (hdigits : (digitCount x.coefficient : ℤ) + x.exponent ≤ N)
    (hN : context.etiny ≤ N - context.prec) : (context.rounded x).magnitude ≤ 10 ^ N := by
  simp only [rounded]
  split_ifs with hround
  · have hle := roundedQuotient_le_pow hround (le_max_left (context.leastExponent x) _)
    have hleast : max (context.leastExponent x) context.etiny ≤ N - context.prec :=
      max_le (by unfold leastExponent; omega) hN
    calc (_ : ℚ) ≤ 10 ^ context.prec * 10 ^ max (context.leastExponent x) context.etiny := by
          rw [FiniteDecimal.magnitude]
          gcongr
          exact_mod_cast hle
      _ ≤ 10 ^ context.prec * 10 ^ (N - context.prec) := by
          gcongr
          norm_num
      _ = 10 ^ N := by
          rw [← zpow_natCast, ← zpow_add₀ (by norm_num)]
          congr 1
          omega
  · exact x.magnitude_lt.le.trans (zpow_le_zpow_right₀ (by norm_num) hdigits)

/-- Where the leading digit is the last before a power of ten, the number is rounded up to that
power just where it lies within half a unit of it. -/
theorem pow_le_rounded_at (hleast : context.etiny ≤ context.leastExponent x)
    (hN : (digitCount x.coefficient : ℤ) + x.exponent = N) :
    10 ^ N ≤ (context.rounded x).magnitude ↔
      10 ^ N - 10 ^ (N - context.prec) / 2 ≤ x.magnitude := by
  have hunit : N - context.prec = context.leastExponent x := by
    unfold leastExponent
    omega
  have hpow : (10 : ℚ) ^ N = 10 ^ context.prec * 10 ^ context.leastExponent x := by
    rw [← zpow_natCast, ← zpow_add₀ (by norm_num), ← hunit]
    congr 1
    omega
  have hpos : (0 : ℚ) < 10 ^ context.leastExponent x := by positivity
  rw [hunit, hpow]
  simp only [rounded, max_eq_left hleast]
  by_cases hround : x.exponent < context.leastExponent x
  · rw [if_pos hround]
    have hsplit : (10 : ℚ) ^ context.leastExponent x =
        10 ^ (context.leastExponent x - x.exponent).toNat * 10 ^ x.exponent := by
      rw [← zpow_natCast, ← zpow_add₀ (by norm_num)]
      congr 1
      omega
    have hdigits : x.coefficient <
        10 ^ (context.prec + (context.leastExponent x - x.exponent).toNat) := by
      refine lt_of_lt_of_le (lt_pow_digitCount _) (Nat.pow_le_pow_right (by norm_num) ?_)
      unfold leastExponent
      omega
    have hnat := pow_le_roundedQuotient_iff context.prec_pos hdigits
    have hfirst : (10 : ℚ) ^ context.prec * 10 ^ context.leastExponent x ≤
        (roundedQuotient x.coefficient (context.leastExponent x - x.exponent).toNat : ℚ) *
          10 ^ context.leastExponent x ↔ 10 ^ context.prec ≤
        roundedQuotient x.coefficient (context.leastExponent x - x.exponent).toNat := by
      rw [mul_le_mul_iff_left₀ hpos]
      exact_mod_cast Iff.rfl
    simp only [FiniteDecimal.magnitude]
    rw [hfirst, hnat, hsplit, pow_add]
    generalize (context.leastExponent x - x.exponent).toNat = n
    have hbase : (0 : ℚ) < 10 ^ x.exponent := by positivity
    rw [show (10 : ℚ) ^ context.prec * (10 ^ n * 10 ^ x.exponent) - 10 ^ n * 10 ^ x.exponent / 2 =
      (10 ^ context.prec * 10 ^ n - 10 ^ n / 2) * 10 ^ x.exponent by ring,
      mul_le_mul_iff_left₀ hbase]
    constructor
    · intro h
      have hcast : (2 : ℚ) * (10 ^ context.prec * 10 ^ n) ≤ 2 * x.coefficient + 10 ^ n := by
        exact_mod_cast h
      linarith
    · intro h
      have hcast : (2 : ℚ) * (10 ^ context.prec * 10 ^ n) ≤ 2 * x.coefficient + 10 ^ n := by
        linarith
      exact_mod_cast hcast
  · rw [if_neg hround]
    have hlt := x.magnitude_lt
    rw [hN, hpow] at hlt
    have hwhole : x.magnitude = (x.coefficient *
        10 ^ (x.exponent - context.leastExponent x).toNat : ℕ) * 10 ^ context.leastExponent x := by
      have hexponent : (10 : ℚ) ^ x.exponent =
          10 ^ (x.exponent - context.leastExponent x).toNat * 10 ^ context.leastExponent x := by
        rw [← zpow_natCast, ← zpow_add₀ (by norm_num)]
        congr 1
        omega
      rw [FiniteDecimal.magnitude, hexponent]
      push_cast
      ring
    rw [hwhole] at hlt ⊢
    generalize x.coefficient * 10 ^ (x.exponent - context.leastExponent x).toNat = k at hlt ⊢
    rw [mul_lt_mul_iff_left₀ hpos] at hlt
    have hk : (k : ℚ) + 1 ≤ 10 ^ context.prec := by exact_mod_cast hlt
    have hproduct : ((k : ℚ) + 1) * 10 ^ context.leastExponent x ≤
        10 ^ context.prec * 10 ^ context.leastExponent x :=
      mul_le_mul_of_nonneg_right hk hpos.le
    constructor
    · intro h
      nlinarith
    · intro h
      nlinarith

theorem pow_le_rounded_iff (hN : context.etiny < N - context.prec) :
    10 ^ N ≤ (context.rounded x).magnitude ↔
      10 ^ N - 10 ^ (N - context.prec) / 2 ≤ x.magnitude := by
  have hhalf := half_unit_lt context N
  by_cases hzero : x.coefficient = 0
  · have hpos : (0 : ℚ) < 10 ^ (N - 1) := by positivity
    have hpow : (0 : ℚ) < 10 ^ N := by positivity
    have hmagnitude : (context.rounded x).magnitude = 0 := by
      simp only [rounded]
      split_ifs <;> simp [FiniteDecimal.magnitude, hzero, roundedQuotient]
    have hnone : x.magnitude = 0 := by simp [FiniteDecimal.magnitude, hzero]
    rw [hmagnitude, hnone]
    constructor <;> intro h <;> linarith
  have hleast : context.leastExponent x =
      (digitCount x.coefficient : ℤ) + x.exponent - context.prec := rfl
  rcases lt_trichotomy ((digitCount x.coefficient : ℤ) + x.exponent) N with hlt | heq | hgt
  · have hsmall : (10 : ℚ) ^ ((digitCount x.coefficient : ℤ) + x.exponent) ≤ 10 ^ (N - 1) :=
      zpow_le_zpow_right₀ (by norm_num) (by omega)
    have hexact := x.magnitude_lt.le.trans hsmall
    have hrounded := @rounded_le context x (N - 1) (by omega) (by omega)
    have hnext : (10 : ℚ) ^ (N - 1) < 10 ^ N := zpow_lt_zpow_right₀ (by norm_num) (by omega)
    exact ⟨fun h => by linarith, fun h => by linarith⟩
  · exact pow_le_rounded_at (by omega) heq
  · have hlarge : (10 : ℚ) ^ N ≤ 10 ^ ((digitCount x.coefficient : ℤ) - 1 + x.exponent) :=
      zpow_le_zpow_right₀ (by norm_num) (by omega)
    have hrounded := hlarge.trans (@le_rounded context x hzero (by omega))
    have hexact := hlarge.trans (FiniteDecimal.le_magnitude hzero)
    have hunit : (0 : ℚ) < 10 ^ (N - context.prec) := by positivity
    exact ⟨fun _ => by linarith, fun _ => hrounded⟩

end Bound

def Overflows (context : Context) (q : ℚ) : Prop :=
  10 ^ (context.emax + 1) - 10 ^ context.etop / 2 ≤ |q|

/-- A number raises just where its digits, once rounded, are those of too large a number. -/
theorem fix_eq_none_iff_rounded :
    context.fix x = none ↔ 10 ^ (context.emax + 1) ≤ (context.rounded x).magnitude := by
  have hprec := context.prec_pos
  have hrange := context.emin_lt
  have htop : context.etop = context.emax + 1 - context.prec := by
    unfold etop
    omega
  have htiny : context.etiny < context.etop := by
    unfold etiny etop
    omega
  have hpow : (10 : ℚ) ^ (context.emax + 1) = 10 ^ context.prec * 10 ^ context.etop := by
    rw [← zpow_natCast, ← zpow_add₀ (by norm_num)]
    congr 1
    omega
  by_cases hzero : x.coefficient = 0
  · have hmagnitude : (context.rounded x).magnitude = 0 := by
      simp only [rounded]
      split_ifs <;> simp [FiniteDecimal.magnitude, hzero, roundedQuotient]
    have hlarge : (0 : ℚ) < 10 ^ (context.emax + 1) := by positivity
    rw [fix, if_pos hzero, hmagnitude]
    simp [hlarge]
  by_cases hover : context.etop < context.leastExponent x
  · simp only [fix, if_neg hzero, if_pos hover, true_iff]
    refine le_trans (zpow_le_zpow_right₀ (by norm_num) ?_) (le_rounded hzero (by omega))
    unfold leastExponent at hover
    omega
  simp only [fix, if_neg hzero, if_neg hover, rounded]
  have hleast : max (context.leastExponent x) context.etiny ≤ context.etop :=
    max_le (not_lt.mp hover) htiny.le
  split_ifs with hround hcarry htop'
  · have hkept := not_lt.mp fun hlt => hcarry.not_ge ((digitCount_le_iff hprec).mpr hlt)
    simp only [FiniteDecimal.magnitude, true_iff, hpow]
    have hexponent : context.etop = max (context.leastExponent x) context.etiny := by omega
    rw [hexponent]
    gcongr
    exact_mod_cast hkept
  · have hle := roundedQuotient_le_pow hround (le_max_left (context.leastExponent x) _)
    have hlower : max (context.leastExponent x) context.etiny ≤ context.etop - 1 := by omega
    simp only [FiniteDecimal.magnitude, false_iff, not_le, hpow]
    calc (_ : ℚ) ≤ 10 ^ context.prec * 10 ^ max (context.leastExponent x) context.etiny := by
          gcongr
          exact_mod_cast hle
      _ < 10 ^ context.prec * 10 ^ context.etop := by
          gcongr
          · norm_num
          · omega
  · have hlt := (digitCount_le_iff hprec).mp (not_lt.mp hcarry)
    simp only [FiniteDecimal.magnitude, false_iff, not_le, hpow]
    calc (_ : ℚ) < 10 ^ context.prec * 10 ^ max (context.leastExponent x) context.etiny := by
          gcongr
          exact_mod_cast hlt
      _ ≤ 10 ^ context.prec * 10 ^ context.etop := by
          gcongr
          norm_num
  · simp only [false_iff, not_le]
    refine lt_of_lt_of_le x.magnitude_lt (zpow_le_zpow_right₀ (by norm_num) ?_)
    unfold leastExponent at hover
    omega

theorem fix_eq_none_iff : context.fix x = none ↔ context.Overflows x.value := by
  have hrange := context.emin_lt
  have htop : context.etop = context.emax + 1 - context.prec := by
    unfold etop
    omega
  rw [fix_eq_none_iff_rounded, Overflows, x.abs_value, htop]
  refine pow_le_rounded_iff ?_
  unfold etiny
  omega

theorem pow_le_fix_iff {N : ℤ} (h : context.fix x = some y)
    (hN : context.etiny < N - context.prec) :
    10 ^ N ≤ |y.value| ↔ 10 ^ N - 10 ^ (N - context.prec) / 2 ≤ |x.value| := by
  rw [y.abs_value, x.abs_value, magnitude_of_fix h, pow_le_rounded_iff hN]

theorem mul_value_eq_iff (h : context.mul x y = some z) :
    z.value = x.value * y.value ↔ context.Fits (x.value * y.value) := by
  rw [← exactProduct_value]
  exact fix_value_eq_iff h

theorem middle_of_double {c m : ℕ} {e k least : ℤ} (hleast : least ≤ k) (he : e < least)
    (h : ((2 * c : ℕ) : ℚ) * 10 ^ e = m * 10 ^ k)
    (hmultiple : ∀ q, c ≠ q * 10 ^ (least - e).toNat) :
    m = 2 * (c / 10 ^ (least - e).toNat) + 1 := by
  have hdouble := coefficient_eq (by omega) h
  obtain ⟨n, hn⟩ : ∃ n, (least - e).toNat = n + 1 := ⟨(least - e).toNat - 1, by omega⟩
  have hk : k = least := by
    by_contra hne
    have hsplit : (k - e).toNat = (k - least - 1).toNat + 1 + (least - e).toNat := by omega
    refine hmultiple (5 * m * 10 ^ (k - least - 1).toNat) ?_
    rw [hsplit, pow_add, pow_succ] at hdouble
    have hten : 2 * c = 2 * (5 * m * 10 ^ (k - least - 1).toNat * 10 ^ (least - e).toNat) := by
      rw [hdouble]
      ring
    omega
  rw [hk] at hdouble
  obtain ⟨half, hhalf⟩ : ∃ half, 10 ^ (least - e).toNat = 2 * half :=
    ⟨5 * 10 ^ n, by rw [hn, pow_succ]; ring⟩
  have hpos : 0 < 10 ^ (least - e).toNat := by positivity
  rcases Nat.even_or_odd' m with ⟨j, rfl | rfl⟩
  · exact absurd (by linarith) (hmultiple j)
  · have hc : c = half + 10 ^ (least - e).toNat * j := by
      rw [hhalf] at hdouble ⊢
      linarith
    rw [hc, Nat.add_mul_div_left _ _ hpos, Nat.div_eq_of_lt (by omega), zero_add]

/-- A number of which only the double fits lies in the middle between two numbers that fit, and the
double of either fits. -/
theorem fits_double_of_fix (h : context.fix x = some y) (hx : ¬ context.Fits x.value)
    (hdouble : context.Fits (2 * x.value)) : context.Fits (2 * y.value) := by
  have hzero : x.coefficient ≠ 0 := by
    intro hzero
    refine hx ?_
    have hvalue : x.value = 0 := by simp [FiniteDecimal.value, FiniteDecimal.magnitude, hzero]
    rw [hvalue]
    exact fits_zero context
  obtain ⟨m, k, hm, hk, heq⟩ := hdouble
  rw [abs_mul, x.abs_value, abs_two, FiniteDecimal.magnitude, ← mul_assoc] at heq
  have hdigits : digitCount x.coefficient ≤ digitCount (2 * x.coefficient) := by
    rw [digitCount_le_iff (digitCount_pos _)]
    have := lt_pow_digitCount (2 * x.coefficient)
    omega
  have hcast : ((2 * x.coefficient : ℕ) : ℚ) * 10 ^ x.exponent = m * 10 ^ k := by
    push_cast
    exact heq
  have hlow := leastExponent_le (show 0 < 2 * x.coefficient by omega) hm hcast
  have hleast : max (context.leastExponent x) context.etiny ≤ k := by
    refine max_le ?_ hk
    unfold leastExponent
    omega
  have hround : x.exponent < max (context.leastExponent x) context.etiny := by
    by_contra hnot
    rw [not_lt, max_le_iff] at hnot
    refine hx ⟨x.coefficient, x.exponent, ?_, hnot.2, x.abs_value⟩
    refine (digitCount_le_iff context.prec_pos).mp ?_
    have := hnot.1
    unfold leastExponent at this
    omega
  have hmagnitude := magnitude_of_fix h
  simp only [rounded, if_pos hround] at hmagnitude
  have hdigit : digitCount x.coefficient + x.exponent - context.prec ≤
      max (context.leastExponent x) context.etiny := le_max_left _ _
  have htiny : context.etiny ≤ max (context.leastExponent x) context.etiny := le_max_right _ _
  generalize max (context.leastExponent x) context.etiny = least at *
  have hlt := quotient_lt_pow hround hdigit
  -- a multiple of the last place would fit
  have hmultiple : ∀ q, x.coefficient ≠ q * 10 ^ (least - x.exponent).toNat := by
    intro q hq
    refine hx ⟨q, least, ?_, htiny, ?_⟩
    · rwa [hq, Nat.mul_div_cancel _ (by positivity)] at hlt
    · rw [x.abs_value, FiniteDecimal.magnitude]
      exact (mul_zpow_raise hround.le hq).symm
  have hodd := middle_of_double hleast hround hcast hmultiple
  have hhigh := roundedQuotient_le x.coefficient (least - x.exponent).toNat
  have hdoubled : |2 * y.value| =
      (2 * roundedQuotient x.coefficient (least - x.exponent).toNat : ℕ) * 10 ^ least := by
    rw [abs_mul, abs_two, y.abs_value, hmagnitude, FiniteDecimal.magnitude]
    push_cast
    ring
  by_cases hcarry : 2 * roundedQuotient x.coefficient (least - x.exponent).toNat <
      10 ^ context.prec
  · exact ⟨_, least, hcarry, htiny, hdoubled⟩
  · refine ⟨1, context.prec + least, ?_, by omega, ?_⟩
    · exact Nat.one_lt_pow context.prec_pos.ne' (by norm_num)
    · have htop : 2 * roundedQuotient x.coefficient (least - x.exponent).toNat =
          10 ^ context.prec := by omega
      rw [hdoubled, htop, zpow_add₀ (by norm_num), zpow_natCast]
      push_cast
      ring

theorem double_value_eq_iff (h : context.fix x = some y) (hz : z.value = 2 * y.value)
    {w : FiniteDecimal} (hw : context.fix z = some w) :
    w.value = 2 * x.value ↔ context.Fits x.value ∧ context.Fits (2 * x.value) := by
  constructor
  · intro heq
    have hdouble : context.Fits (2 * x.value) := heq ▸ fits_of_fix hw
    refine ⟨?_, hdouble⟩
    by_contra hx
    have hrounded := fits_double_of_fix h hx hdouble
    rw [← hz] at hrounded
    have hexact := fix_of_fits hw hrounded
    rw [hz, heq] at hexact
    refine hx ?_
    rw [mul_left_cancel₀ two_ne_zero hexact]
    exact fits_of_fix h
  · rintro ⟨hx, hdouble⟩
    have hy := fix_of_fits h hx
    rw [fix_of_fits hw (by rwa [hz, hy]), hz, hy]

theorem stripZeros_value (fuel digits : ℕ) (exponent : ℤ) :
    ((stripZeros fuel digits exponent).1 : ℚ) * 10 ^ (stripZeros fuel digits exponent).2 =
      digits * 10 ^ exponent := by
  induction fuel generalizing digits exponent with
  | zero => rfl
  | succ fuel ih =>
    rw [stripZeros]
    split_ifs with hzero
    · have hdigits : digits = digits / 10 * 10 := by omega
      rw [ih, zpow_add_one₀ (by norm_num)]
      conv_rhs => rw [hdigits]
      push_cast
      ring
    · rfl

theorem stripZeros_le (fuel digits : ℕ) (exponent : ℤ) :
    (stripZeros fuel digits exponent).1 ≤ digits := by
  induction fuel generalizing digits exponent with
  | zero => exact le_rfl
  | succ fuel ih =>
    rw [stripZeros]
    split_ifs with hzero
    · exact (ih _ _).trans (Nat.div_le_self digits 10)
    · exact le_rfl

theorem stripZeros_last {fuel digits : ℕ} (exponent : ℤ) (hne : digits ≠ 0)
    (hfuel : digits < 10 ^ fuel) : (stripZeros fuel digits exponent).1 % 10 ≠ 0 := by
  induction fuel generalizing digits exponent with
  | zero => omega
  | succ fuel ih =>
    rw [pow_succ] at hfuel
    rw [stripZeros]
    split_ifs with hzero
    · exact ih _ (by omega) (by omega)
    · exact hzero

theorem digits_unique {c m : ℕ} {e k : ℤ} (hc : c % 10 ≠ 0) (hm : m % 10 ≠ 0)
    (h : (c : ℚ) * 10 ^ e = m * 10 ^ k) : c = m ∧ e = k := by
  have hle {c m : ℕ} {e k : ℤ} (hc : c % 10 ≠ 0) (h : (c : ℚ) * 10 ^ e = m * 10 ^ k)
      (hek : e ≤ k) : e = k := by
    by_contra hne
    have hdigits := coefficient_eq hek h
    obtain ⟨n, hn⟩ : ∃ n, (k - e).toNat = n + 1 := ⟨(k - e).toNat - 1, by omega⟩
    rw [hn, pow_succ, ← mul_assoc] at hdigits
    omega
  have hexponent : e = k := by
    rcases le_total e k with hek | hke
    · exact hle hc h hek
    · exact (hle hm h.symm hke).symm
  subst hexponent
  have hpow : (10 : ℚ) ^ e ≠ 0 := by positivity
  exact ⟨by exact_mod_cast mul_right_cancel₀ hpow h, rfl⟩

theorem normalize_value (h : context.normalize x = some z) :
    ∃ y, context.fix x = some y ∧ z.value = y.value ∧ z.coefficient ≤ y.coefficient := by
  obtain ⟨y, hy, rfl⟩ := Option.map_eq_some_iff.mp h
  refine ⟨y, hy, ?_⟩
  split_ifs with hzero
  · simp [FiniteDecimal.value, FiniteDecimal.magnitude, hzero]
  · have hvalue := stripZeros_value (digitCount y.coefficient) y.coefficient y.exponent
    refine ⟨?_, stripZeros_le _ _ _⟩
    simp only [FiniteDecimal.value, FiniteDecimal.magnitude, hvalue]

theorem normalize_last (h : context.normalize x = some z) (hz : z.coefficient ≠ 0) :
    z.coefficient % 10 ≠ 0 := by
  obtain ⟨y, -, rfl⟩ := Option.map_eq_some_iff.mp h
  split_ifs at hz ⊢ with hzero
  · exact absurd hzero hz
  · exact stripZeros_last _ hzero (lt_pow_digitCount _)

theorem exponent_of_normalize (h : context.normalize x = some z) (hz : z.coefficient = 0) :
    z.exponent = 0 := by
  obtain ⟨y, -, rfl⟩ := Option.map_eq_some_iff.mp h
  split_ifs at hz ⊢ with hzero
  · rfl
  · have hvalue := stripZeros_value (digitCount y.coefficient) y.coefficient y.exponent
    simp only at hz
    rw [hz, Nat.cast_zero, zero_mul] at hvalue
    have hpos : (0 : ℚ) < y.coefficient * 10 ^ y.exponent := by
      have := Nat.pos_of_ne_zero hzero
      positivity
    exact absurd hvalue hpos.ne

theorem fits_mul_pow {q : ℚ} (h : context.Fits q) (n : ℕ) : context.Fits (q * 10 ^ n) := by
  obtain ⟨m, k, hm, hk, hq⟩ := h
  refine ⟨m, k + n, hm, by omega, ?_⟩
  rw [abs_mul, hq, abs_of_pos (by positivity), zpow_add₀ (by norm_num), zpow_natCast, mul_assoc]

theorem longQuotient_pow_ten (hy : y.coefficient = 1)
    (hx : x.coefficient < 10 ^ context.prec) :
    (context.longQuotient x y).value = x.value / y.value := by
  have hdigits := (digitCount_le_iff context.prec_pos).mpr hx
  have hone : digitCount 1 = 1 := by decide
  have hshift : (0 : ℤ) ≤ (digitCount y.coefficient : ℤ) - digitCount x.coefficient +
      context.prec + 1 := by
    rw [hy, hone]
    omega
  simp only [longQuotient]
  generalize (digitCount y.coefficient : ℤ) - digitCount x.coefficient + context.prec + 1 = shift
    at hshift
  have hdivisor : y.coefficient * 10 ^ (-shift).toNat = 1 := by
    rw [hy, one_mul, Int.toNat_eq_zero.mpr (by omega), pow_zero]
  rw [hdivisor, Nat.mod_one, if_pos rfl, Nat.div_one]
  have hstripped := stripZeros_value shift.toNat (x.coefficient * 10 ^ shift.toNat)
    (x.exponent - y.exponent - shift)
  have hpow : (10 : ℚ) ^ (x.exponent - y.exponent - shift) * 10 ^ shift.toNat =
      10 ^ x.exponent / 10 ^ y.exponent := by
    rw [← zpow_natCast, ← zpow_add₀ (by norm_num), ← zpow_sub₀ (by norm_num)]
    congr 1
    omega
  simp only [FiniteDecimal.value, FiniteDecimal.magnitude, hstripped, hy]
  push_cast
  rw [mul_assoc (x.coefficient : ℚ), mul_comm ((10 : ℚ) ^ shift.toNat), hpow]
  cases x.negative <;> cases y.negative <;> simp <;> ring

theorem div_value_eq_iff (hy : y.coefficient = 1) (hx : x.coefficient < 10 ^ context.prec)
    (h : context.div x y = some z) :
    z.value = x.value / y.value ↔ context.Fits (x.value / y.value) := by
  rw [div, if_neg (by rw [hy]; exact one_ne_zero)] at h
  rw [← longQuotient_pow_ten hy hx]
  exact fix_value_eq_iff h

section Results

def RoundsTo (context : Context) (q r : ℚ) : Prop :=
  ∃ x y, FiniteDecimal.value x = q ∧ context.fix x = some y ∧ y.value = r

theorem RoundsTo.unique {q r s : ℚ} (hr : context.RoundsTo q r) (hs : context.RoundsTo q s) :
    r = s := by
  obtain ⟨x, x', hx, hfix, rfl⟩ := hr
  obtain ⟨y, y', hy, hfix', rfl⟩ := hs
  exact fix_congr hfix hfix' (hx.trans hy.symm)

/-- A number with fewer digits before the point than the largest one is not too large. -/
theorem not_overflows {q : ℚ} {N : ℤ} (hN : N ≤ context.emax) (hq : |q| < 10 ^ N) :
    ¬ context.Overflows q := by
  have hlarge : (10 : ℚ) ^ N ≤ 10 ^ context.emax := zpow_le_zpow_right₀ (by norm_num) hN
  have htop : (10 : ℚ) ^ context.etop ≤ 10 ^ context.emax := by
    have hprec := context.prec_pos
    refine zpow_le_zpow_right₀ (by norm_num) ?_
    unfold etop
    omega
  have hnext : (10 : ℚ) ^ (context.emax + 1) = 10 * 10 ^ context.emax := by
    rw [zpow_add_one₀ (by norm_num), mul_comm]
  have hpos : (0 : ℚ) < 10 ^ context.emax := by positivity
  unfold Overflows
  rw [hnext]
  linarith

theorem exists_fix {N : ℤ} (hN : N ≤ context.emax) (hx : |x.value| < 10 ^ N) :
    ∃ y, context.fix x = some y := by
  refine Option.ne_none_iff_exists'.mp fun hnone => ?_
  exact not_overflows hN hx (fix_eq_none_iff.mp hnone)

end Results

end Context

end DecimalContext
