import Mathlib.Algebra.Order.Field.Rat
import Mathlib.Algebra.Order.Floor.Ring
import Mathlib.Data.Rat.Floor
import Mathlib.Tactic

/-! Python's `decimal` arithmetic in the default context, over exact rational values: every
operation rounds its exact result to 28 significant digits, half to even. -/
namespace PyDecimal

def digitCount (n : ℕ) : ℕ := (Nat.toDigits 10 n).length

/-- `Decimal.adjusted()`: the exponent of the leading digit. -/
def adjusted (value : ℚ) : ℤ :=
  if 1 ≤ |value| then digitCount ⌊|value|⌋₊ - 1
  else -(digitCount (⌈|value|⁻¹⌉₊ - 1) : ℤ)

def roundHalfEven (value : ℚ) : ℤ :=
  let low := ⌊value⌋
  let rest := value - low
  if rest < 1 / 2 then low
  else if 1 / 2 < rest then low + 1
  else if low % 2 = 0 then low else low + 1

/-- The significant digits of a rounded value and the exponent of the last of them. -/
def significand (value : ℚ) : ℤ × ℤ :=
  let exponent := adjusted value - 27
  (roundHalfEven (value / 10 ^ exponent), exponent)

def round (value : ℚ) : ℚ :=
  if value = 0 then 0 else (significand value).1 * 10 ^ (significand value).2

def add (a b : ℚ) : ℚ := round (a + b)

def sub (a b : ℚ) : ℚ := round (a - b)

def mul (a b : ℚ) : ℚ := round (a * b)

def div (a b : ℚ) : Option ℚ := if b = 0 then none else some (round (a / b))

/-- `a % b`, with the sign of the dividend; a quotient beyond the precision raises. -/
def rem (a b : ℚ) : Option ℚ :=
  if b = 0 then none
  else
    let quotient : ℤ := if 0 ≤ a / b then ⌊a / b⌋ else ⌈a / b⌉
    if 10 ^ 28 ≤ quotient.natAbs then none else some (round (a - b * quotient))

/-- `normalize()`: drops trailing zeros from a significand. -/
def stripZeros : ℕ → ℕ → ℤ → ℕ × ℤ
  | 0, digits, exponent => (digits, exponent)
  | fuel + 1, digits, exponent =>
    if digits % 10 = 0 then stripZeros fuel (digits / 10) (exponent + 1) else (digits, exponent)

/-- The digits before and after the point of `digits * 10 ^ exponent`. -/
def plainDigits (digits : List Char) (exponent : ℤ) : String :=
  if 0 ≤ exponent then String.ofList (digits ++ List.replicate exponent.toNat '0')
  else
    let places := exponent.natAbs
    let padded := List.replicate (places + 1 - digits.length) '0' ++ digits
    String.ofList (padded.take (padded.length - places)) ++ "." ++
      String.ofList (padded.drop (padded.length - places))

def scientificDigits (digits : List Char) (leading : ℤ) : String :=
  let mantissa := match digits with
    | [] => ""
    | [digit] => String.ofList [digit]
    | digit :: rest => String.ofList (digit :: '.' :: rest)
  mantissa ++ "e" ++ toString leading

/-- The deck token of a decimal: plain within a small exponent range, else scientific. -/
def token (value : ℚ) : String :=
  if value = 0 then "0"
  else
    let raw := significand value
    let stripped := stripZeros 28 raw.1.natAbs raw.2
    let digits := Nat.toDigits 10 stripped.1
    let leading := stripped.2 + (digits.length - 1)
    let body := if -3 ≤ leading ∧ leading ≤ 6 then plainDigits digits stripped.2
      else scientificDigits digits leading
    if value < 0 then "-" ++ body else body

end PyDecimal
