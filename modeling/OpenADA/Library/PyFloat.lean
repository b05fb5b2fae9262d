import Mathlib.Algebra.Order.Field.Rat
import Mathlib.Data.Rat.Cast.Order
import Mathlib.Tactic

/-! The float operations a Python program can observe. Partial operations return `none`
where the interpreter raises: division by zero, and overflow of `x ** 2`. -/

class PyFloat (F : Type) extends Add F, Sub F, Mul F, Neg F where
  /-- The float read from a JSON number of modest magnitude, or from an exact integer. -/
  ofRat : ℚ → F
  /-- `float(n)`; `none` is the interpreter's OverflowError. -/
  ofInt : ℤ → Option F
  abs : F → F
  isFinite : F → Bool
  lt : F → F → Bool
  le : F → F → Bool
  eq : F → F → Bool
  div : F → F → Option F
  square : F → Option F
  /-- The builtin `sum` over floats. -/
  sum : List F → F
  /-- `Decimal(str(x))` of a finite float. -/
  toDecimal : F → Option ℚ

namespace PyFloat

variable {F : Type} [PyFloat F]

/-- `max(a, b)`: the first argument unless the second is strictly greater. -/
def max (a b : F) : F := if lt a b then b else a

/-- `max(items)` of a nonempty sequence, keeping the first of equal maxima. -/
def maxOf : List F → Option F
  | [] => none
  | x :: rest => some (rest.foldl max x)

/-- `min(items)` of a nonempty sequence, keeping the first of equal minima. -/
def minOf : List F → Option F
  | [] => none
  | x :: rest => some (rest.foldl (fun acc y => if lt y acc then y else acc) x)

/-- Exact rational arithmetic: every number is finite and only division by zero raises. -/
instance : PyFloat ℚ where
  ofRat q := q
  ofInt n := some n
  abs q := |q|
  isFinite _ := true
  lt a b := decide (a < b)
  le a b := decide (a ≤ b)
  eq a b := decide (a = b)
  div a b := if b = 0 then none else some (a / b)
  square q := some (q * q)
  sum items := items.sum
  toDecimal q := some q

end PyFloat
