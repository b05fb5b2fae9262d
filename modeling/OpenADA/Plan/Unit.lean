import Mathlib.Algebra.Group.Pi.Basic
import Mathlib.Algebra.Group.TypeTags.Basic
import Mathlib.Data.Fintype.Pi
import Mathlib.Tactic

/-! The closed unit table of a testbench plan, its two algebra tables, and the physical
dimension each unit symbol stands for. -/
namespace OpenADA.Plan

/-- The `unit` enumeration of the plan schema. -/
inductive PlanUnit where
  | one | V | A | s | C | degC | VPerS | APerS | CPerS | APerV | CPerV | VPerV
  | Hz | deg | HzPerV | Ohm | F
  deriving DecidableEq

instance : Fintype PlanUnit where
  elems := {.one, .V, .A, .s, .C, .degC, .VPerS, .APerS, .CPerS, .APerV, .CPerV, .VPerV,
    .Hz, .deg, .HzPerV, .Ohm, .F}
  complete unit := by cases unit <;> decide

def PlanUnit.symbol : PlanUnit → String
  | .one => "1" | .V => "V" | .A => "A" | .s => "s" | .C => "C" | .degC => "degC"
  | .VPerS => "V/s" | .APerS => "A/s" | .CPerS => "C/s" | .APerV => "A/V" | .CPerV => "C/V"
  | .VPerV => "V/V" | .Hz => "Hz" | .deg => "deg" | .HzPerV => "Hz/V" | .Ohm => "Ohm" | .F => "F"

/-- `_divide_units`. -/
def divideUnits (numerator denominator : PlanUnit) : Option PlanUnit :=
  if denominator = .one then some numerator
  else if numerator = denominator then some .one
  else match numerator, denominator with
    | .C, .A => some .s
    | .A, .V => some .APerV
    | .C, .V => some .CPerV
    | .V, .s => some .VPerS
    | .A, .s => some .APerS
    | .C, .s => some .A
    | _, _ => none

/-- `_multiply_units`, whose table is indexed by unordered pairs. -/
def multiplyUnits (left right : PlanUnit) : Option PlanUnit :=
  if left = .one then some right
  else if right = .one then some left
  else match left, right with
    | .A, .s | .s, .A => some .C
    | .APerV, .V | .V, .APerV => some .A
    | .CPerV, .V | .V, .CPerV => some .C
    | .VPerS, .s | .s, .VPerS => some .V
    | _, _ => none

/-- `_fit_unit`. -/
def fitUnit : PlanUnit → PlanUnit
  | .A => .APerV
  | .C => .CPerV
  | .V => .VPerV
  | parent => parent

/-- `_fit_intercept_unit`. -/
def fitInterceptUnit : PlanUnit → PlanUnit
  | .APerV => .A
  | .CPerV => .C
  | .VPerV => .V
  | slope => slope

inductive BaseDimension where
  | volt | ampere | second | kelvin
  deriving DecidableEq

instance : Fintype BaseDimension where
  elems := {.volt, .ampere, .second, .kelvin}
  complete dimension := by cases dimension <;> decide

abbrev Dimension := Multiplicative (BaseDimension → ℤ)

namespace Dimension

def base (b : BaseDimension) : Dimension := Multiplicative.ofAdd (Pi.single b 1)

def volt : Dimension := base .volt
def ampere : Dimension := base .ampere
def second : Dimension := base .second
def kelvin : Dimension := base .kelvin

end Dimension

open Dimension in
/-- The dimension a unit symbol denotes; `1`, `deg` and `V/V` are dimensionless. -/
def PlanUnit.dimension : PlanUnit → Dimension
  | .one | .deg | .VPerV => 1
  | .V => volt
  | .A => ampere
  | .s => second
  | .C => ampere * second
  | .degC => kelvin
  | .VPerS => volt / second
  | .APerS => ampere / second
  | .CPerS => ampere * second / second
  | .APerV => ampere / volt
  | .CPerV => ampere * second / volt
  | .Hz => 1 / second
  | .HzPerV => 1 / second / volt
  | .Ohm => volt / ampere
  | .F => ampere * second / volt

theorem divideUnits_dimension : ∀ numerator denominator quotient : PlanUnit,
    divideUnits numerator denominator = some quotient →
      quotient.dimension = numerator.dimension / denominator.dimension := by
  decide +kernel

theorem multiplyUnits_dimension : ∀ left right product : PlanUnit,
    multiplyUnits left right = some product →
      product.dimension = left.dimension * right.dimension := by
  decide +kernel

end OpenADA.Plan
