import OpenADA.Library.JsonText
import OpenADA.Library.PyFloat
import OpenADA.Library.Separated

/-! JSON values as `json.loads` returns them, and the text of a finite float. -/

/-- A decoded JSON value. Integers are unbounded, strings may hold lone surrogates, and the keys of
an object stand in the order they were read. -/
inductive PyJson (F : Type) where
  | null
  | bool (value : Bool)
  | int (value : ℤ)
  | float (value : F)
  | str (text : PyStr)
  | array (items : List (PyJson F))
  | object (fields : List (PyStr × PyJson F))

abbrev FiniteFloat (F : Type) [PyFloat F] := {x : F // PyFloat.isFinite x = true}

/-- Floats with `repr`, which tells any two finite floats apart, the two zeros among them. -/
class PyFloatText (F : Type) extends PyFloat F where
  repr : FiniteFloat F → JsonText.NumberText
  repr_injective : Function.Injective repr

namespace PyJson

variable {F : Type} [PyFloat F]

mutual

/-- The value with every integer written as the float it converts to, where there is one. -/
def asFloats : PyJson F → PyJson F
  | .int n =>
    match PyFloat.ofInt n with
    | some x => .float x
    | none => .int n
  | .array items => .array (itemsAsFloats items)
  | .object fields => .object (fieldsAsFloats fields)
  | .null => .null
  | .bool value => .bool value
  | .float value => .float value
  | .str text => .str text

def itemsAsFloats : List (PyJson F) → List (PyJson F)
  | [] => []
  | item :: rest => item.asFloats :: itemsAsFloats rest

def fieldsAsFloats : List (PyStr × PyJson F) → List (PyStr × PyJson F)
  | [] => []
  | (key, value) :: rest => (key, value.asFloats) :: fieldsAsFloats rest

end

theorem itemsAsFloats_eq (items : List (PyJson F)) : itemsAsFloats items = items.map asFloats := by
  induction items with
  | nil => rfl
  | cons item rest ih => rw [itemsAsFloats, ih, List.map_cons]

theorem fieldsAsFloats_eq (fields : List (PyStr × PyJson F)) :
    fieldsAsFloats fields = fields.map fun field => (field.1, field.2.asFloats) := by
  induction fields with
  | nil => rfl
  | cons field rest ih => rw [fieldsAsFloats, ih, List.map_cons]

theorem lookup_asFloats (fields : List (PyStr × PyJson F)) (key : PyStr) :
    (fieldsAsFloats fields).lookup key = (fields.lookup key).map asFloats := by
  induction fields with
  | nil => rfl
  | cons field rest ih =>
    rw [fieldsAsFloats, List.lookup_cons, List.lookup_cons]
    cases key == field.1 with
    | true => rfl
    | false => exact ih

end PyJson

/-! Rational numbers with a negative zero, as a concrete model of floats. -/

inductive SignedRat where
  | negZero
  | rat (value : ℚ)
  deriving DecidableEq

namespace SignedRat

open PyStr JsonText

def value : SignedRat → ℚ
  | negZero => 0
  | rat q => q

/-- Exact arithmetic, in which a negated zero is the negative zero. -/
instance : PyFloat SignedRat where
  add a b := rat (a.value + b.value)
  sub a b := rat (a.value - b.value)
  mul a b := rat (a.value * b.value)
  neg a := if a = rat 0 then negZero else rat (-a.value)
  ofRat q := rat q
  ofInt n := some (rat n)
  abs a := rat |a.value|
  isFinite _ := true
  lt a b := decide (a.value < b.value)
  le a b := decide (a.value ≤ b.value)
  eq a b := decide (a.value = b.value)
  div a b := if b.value = 0 then none else some (rat (a.value / b.value))
  square a := some (rat (a.value * a.value))
  sum items := rat (items.map value).sum
  toDecimal a := some a.value

def negative : SignedRat → Bool
  | negZero => true
  | rat q => decide (q < 0)

/-- An integer is written as `repr` writes the float; the digits after the point of another number
are its denominator less one. -/
def text (x : SignedRat) : PyStr :=
  (if x.negative then [point '-'] else []) ++
    (natText x.value.num.natAbs ++ point '.' :: natText (x.value.den - 1))

theorem text_chars (x : SignedRat) : x.text.all isNumberChar = true := by
  have hdigit {c : CodePoint} (h : c ∈ lit "0123456789") : isNumberChar c = true := by
    have hall : ((lit "0123456789").all isNumberChar) = true := by decide
    exact List.all_eq_true.mp hall c h
  rw [List.all_eq_true]
  intro c hc
  rcases List.mem_append.mp hc with hc | hc
  · split_ifs at hc
    · obtain rfl := List.mem_singleton.mp hc
      decide
    · cases hc
  · rcases List.mem_append.mp hc with hc | hc
    · exact hdigit (natText_chars hc)
    · rcases List.mem_cons.mp hc with rfl | hc
      · decide
      · exact hdigit (natText_chars hc)

theorem text_injective : Function.Injective text := by
  intro x y h
  have hminus : point '-' ∉ lit "0123456789" := by decide
  have hdot : point '.' ∉ lit "0123456789" := by decide
  have hhead (n : ℕ) (rest : PyStr) : (natText n ++ rest).head? ≠ some (point '-') := by
    intro hminusHead
    cases htext : natText n with
    | nil => exact natText_ne_nil n htext
    | cons c more =>
      rw [htext] at hminusHead
      obtain rfl := Option.some.inj hminusHead
      exact notMem_natText hminus n (by rw [htext]; exact List.mem_cons_self ..)
  have hsplit : x.negative = y.negative ∧ natText x.value.num.natAbs ++ point '.' ::
      natText (x.value.den - 1) = natText y.value.num.natAbs ++ point '.' ::
        natText (y.value.den - 1) := by
    unfold text at h
    cases hx : x.negative with
    | true =>
      cases hy : y.negative with
      | true =>
        rw [hx, hy] at h
        exact ⟨rfl, (List.cons.inj h).2⟩
      | false =>
        rw [hx, hy] at h
        exact absurd (congrArg List.head? h).symm (hhead _ _)
    | false =>
      cases hy : y.negative with
      | true =>
        rw [hx, hy] at h
        exact absurd (congrArg List.head? h) (hhead _ _)
      | false =>
        rw [hx, hy] at h
        exact ⟨rfl, h⟩
  obtain ⟨hsign, htext⟩ := hsplit
  obtain ⟨hnum, hden⟩ := Separated.append_inj (notMem_natText hdot _) (notMem_natText hdot _)
    (Separated.tail_cons _ _) (Separated.tail_cons _ _) htext
  have hnum := natText_injective hnum
  have hden := natText_injective (List.cons.inj hden).2
  cases x with
  | negZero =>
    cases y with
    | negZero => rfl
    | rat q =>
      have hq : q < 0 := of_decide_eq_true hsign.symm
      have hzero : q.num = 0 := Int.natAbs_eq_zero.mp hnum.symm
      exact absurd (Rat.num_eq_zero.mp hzero) hq.ne
  | rat p =>
    cases y with
    | negZero =>
      have hp : p < 0 := of_decide_eq_true hsign
      have hzero : p.num = 0 := Int.natAbs_eq_zero.mp hnum
      exact absurd (Rat.num_eq_zero.mp hzero) hp.ne
    | rat q =>
      have hneg : (p < 0) = (q < 0) := propext (by simpa [negative] using hsign)
      have hpos := p.den_pos
      have hqpos := q.den_pos
      have hsame : p.num = q.num := by
        have hp := @Rat.num_neg p
        have hq := @Rat.num_neg q
        have habs : p.num.natAbs = q.num.natAbs := hnum
        by_cases hlt : p < 0
        · have hlt' : q < 0 := hneg ▸ hlt
          have h1 := hp.mpr hlt
          have h2 := hq.mpr hlt'
          omega
        · have hlt' : ¬ q < 0 := hneg ▸ hlt
          have h1 : ¬ p.num < 0 := fun h => hlt (hp.mp h)
          have h2 : ¬ q.num < 0 := fun h => hlt' (hq.mp h)
          omega
      have hdenEq : p.den = q.den := by
        have hdens : p.den - 1 = q.den - 1 := hden
        omega
      rw [Rat.ext hsame hdenEq]

instance : PyFloatText SignedRat where
  repr x := ⟨x.1.text, by
    intro h
    exact natText_ne_nil _ (List.append_eq_nil_iff.mp (List.append_eq_nil_iff.mp h).2).1,
    text_chars x.1⟩
  repr_injective x y h := Subtype.ext (text_injective (congrArg NumberText.text h))

example : text (rat 12) = lit "12.0" ∧ text negZero = lit "-0.0" := by decide

end SignedRat

/-! The float functions of a measurement kernel: exactly rounded sums, square roots and exact
ratios, with the exceptions they raise. -/

inductive FloatFault where
  | overflow
  | value
  deriving DecidableEq

class PyFloatMath (F : Type) extends PyFloatText F where
  /-- `math.fsum`. -/
  fsum : List F → Except FloatFault F
  /-- `math.sqrt`; `none` is its ValueError. -/
  sqrt : F → Option F
  /-- `x.as_integer_ratio()`. -/
  ratio : F → Option ℚ
  /-- `float(Fraction)`; `none` is its OverflowError. -/
  ofRatio : ℚ → Option F

/-- Exact sums; the square root of a rational is its floor at sixteen decimals. -/
instance : PyFloatMath SignedRat where
  fsum items := .ok (.rat (items.map SignedRat.value).sum)
  sqrt x := if x.value < 0 then none
    else some (.rat (Nat.sqrt (x.value * 10 ^ 32).floor.toNat / 10 ^ 16))
  ratio x := some x.value
  ofRatio q := some (.rat q)
