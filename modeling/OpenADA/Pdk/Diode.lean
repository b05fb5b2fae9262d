import OpenADA.Pdk.Registry

/-! The geometry of a diode card, between the area and perimeter of a device and the sides of a
rectangle. The arithmetic is an argument: that of the binding, or an exact one. -/
namespace OpenADA.Pdk

/-- Arithmetic on the parameters of a card, whose texts are of a type `T` and whose numbers are of a
type `N`. -/
structure CardArithmetic (T N : Type) where
  /-- `parse_spice_number`. -/
  parse : T → Except BindFault N
  /-- `_format_number`. -/
  print : N → Except BindFault T
  constant : ℚ → N
  add : N → N → N
  sub : N → N → N
  mul : N → N → N
  div : N → N → N
  sqrt : N → N
  isFinite : N → Bool
  le : N → N → Bool
  lt : N → N → Bool

inductive SquareReason where
  | outOfWindow | noPerimeter | noRectangle
  deriving DecidableEq

/-- The record of a conversion: the area and the perimeter that the sides give, or the sides that
the area gives, with the perimeter or without. -/
inductive DiodeDerivation (T : Type) where
  | fromSides (area : T) (perimeter : Option T)
  | fromArea (perimeterGiven : Bool) (width length : T) (square : Option SquareReason)

section Derivation

variable {T N : Type} (arithmetic : CardArithmetic T N)

/-- `_in_scalar_window`. -/
def CardArithmetic.inWindow (value : N) : Bool :=
  arithmetic.le (arithmetic.constant (1 / 10 ^ 60)) value &&
    arithmetic.le value (arithmetic.constant (10 ^ 60))

def CardArithmetic.areaOfSides (accepted : List String) (supplied : InsertionDict String T)
    (widthText lengthText : T) :
    Except BindFault (InsertionDict String T × Option (DiodeDerivation T)) := do
  let width ← arithmetic.parse widthText
  let length ← arithmetic.parse lengthText
  let area := arithmetic.mul width length
  let perimeter := arithmetic.mul (arithmetic.constant 2) (arithmetic.add width length)
  if !arithmetic.inWindow area || ("pj" ∈ accepted && !arithmetic.inWindow perimeter) then
    .error (.request "pdk.device.geometry_missing")
  else do
    let areaText ← arithmetic.print area
    let sized := supplied.set "area" areaText
    if "pj" ∈ accepted ∧ (supplied.get? "pj").isNone then do
      let perimeterText ← arithmetic.print perimeter
      let sized := sized.set "pj" perimeterText
      .ok (((sized.erase "w").erase "l").leading ["area", "pj"],
        some (.fromSides areaText (some perimeterText)))
    else
      .ok (((sized.erase "w").erase "l").leading ["area", "pj"], some (.fromSides areaText none))

def CardArithmetic.rectangle (area perimeter : N) : Option (N × N) :=
  let half := arithmetic.div perimeter (arithmetic.constant 2)
  let discriminant := arithmetic.sub (arithmetic.mul half half)
    (arithmetic.mul (arithmetic.constant 4) area)
  if arithmetic.le (arithmetic.constant 0) discriminant then
    let width := arithmetic.div (arithmetic.add half (arithmetic.sqrt discriminant))
      (arithmetic.constant 2)
    if arithmetic.lt (arithmetic.constant 0) width then some (width, arithmetic.div area width)
    else none
  else none

def CardArithmetic.isLength (value : N) : Bool :=
  arithmetic.isFinite value && arithmetic.lt (arithmetic.constant 0) value

def CardArithmetic.sidesOfArea (area : N) (perimeter : Option N) : N × N × Option SquareReason :=
  let square (reason : SquareReason) :=
    (arithmetic.sqrt area, arithmetic.sqrt area, some reason)
  match perimeter with
  | none => square .noPerimeter
  | some perimeter =>
    match arithmetic.rectangle area perimeter with
    | none => square .noRectangle
    | some (width, length) =>
      if arithmetic.isLength width && arithmetic.isLength length then
        if arithmetic.inWindow width && arithmetic.inWindow length then (width, length, none)
        else square .outOfWindow
      else square .noRectangle

def CardArithmetic.sidesFromArea (supplied : InsertionDict String T) (areaText : T) :
    Except BindFault (InsertionDict String T × Option (DiodeDerivation T)) := do
  let area ← arithmetic.parse areaText
  let perimeter ← (supplied.get? "pj").mapM arithmetic.parse
  let (width, length, square) := arithmetic.sidesOfArea area perimeter
  if arithmetic.inWindow width then do
    let widthText ← arithmetic.print width
    let lengthText ← arithmetic.print length
    let sized := (supplied.set "w" widthText).set "l" lengthText
    .ok (((sized.erase "area").erase "pj").leading ["w", "l"],
      some (.fromArea perimeter.isSome widthText lengthText square))
  else .error (.request "pdk.device.geometry_missing")

def requiredGeometry (accepted : List String) : List String :=
  if "area" ∈ accepted then ["area"]
  else if "w" ∈ accepted ∧ "l" ∈ accepted then ["w", "l"]
  else []

/-- `_derive_diode_geometry`, for a device card that accepts some keys. -/
def deriveDiodeGeometry (accepted : List String) (supplied : InsertionDict String T) :
    Except BindFault (InsertionDict String T × Option (DiodeDerivation T)) := do
  let derived ← match supplied.get? "area", supplied.get? "w", supplied.get? "l" with
    | none, some width, some length =>
      if "area" ∈ accepted then arithmetic.areaOfSides accepted supplied width length
      else .ok (supplied, none)
    | some area, width, length =>
      if "w" ∈ accepted ∧ "l" ∈ accepted ∧ ¬ (width.isSome ∧ length.isSome) then
        arithmetic.sidesFromArea supplied area
      else .ok (supplied, none)
    | _, _, _ => .ok (supplied, none)
  if (requiredGeometry accepted).all fun key => (derived.1.get? key).isSome then .ok derived
  else .error (.request "pdk.device.geometry_missing")

end Derivation

end OpenADA.Pdk
