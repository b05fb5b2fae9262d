import OpenADA.Library.InsertionDict
import OpenADA.Library.PyFloat
import OpenADA.Library.SortedSet
import OpenADA.Plan.Document
import Mathlib.Data.String.Basic

/-! The measurement kernels of the runner over any float-like type. An exception is its text. -/
namespace OpenADA.Runner

open OpenADA.Plan

abbrev IdSet := Finset String

/-- A measured value: the number, list or mapping a measurement stores. -/
inductive Payload (F : Type) where
  | scalar (value : F)
  | curve (x y : List F)
  | fit (slope intercept r2 : F)
  | interval (lower upper : F)
  | signs (values : List ℤ)

structure Waveform (F : Type) where
  axisName : String
  axis : List F
  signals : InsertionDict String (List F)

variable {F : Type} [PyFloat F]

def number (value : ℚ) : F := PyFloat.ofRat value

def zeroDivision {α : Type} : Except String α := .error "float division by zero"

def divide (a b : F) : Except String F :=
  match PyFloat.div a b with
  | some value => .ok value
  | none => zeroDivision

def squared (a : F) : Except String F :=
  match PyFloat.square a with
  | some value => .ok value
  | none => .error "(34, 'Numerical result out of range')"

def at? (items : List F) (index : ℕ) : Except String F :=
  match items[index]? with
  | some value => .ok value
  | none => .error "list index out of range"

/-- `_literal`. -/
def literal (value : ValueSource) (label : String) : Except String F :=
  match value with
  | .literal quantity =>
    if PyFloat.isFinite (number (F := F) quantity.value) then .ok (number quantity.value)
    else .error s!"{label} is non-finite"
  | _ => .error s!"{label} requires a compiler-resolved literal"

/-- `_literal` of a plain quantity. -/
def literalQuantity (quantity : Quantity) (label : String) : Except String F :=
  literal (.literal quantity) label

/-- `_window_indices`. -/
def windowIndices (axis : List F) (window : Window) : Except String (List ℕ) := do
  let start ← literal (F := F) window.start "window.start"
  let stop ← literal window.stop "window.stop"
  let selected := (axis.zipIdx.filter fun entry =>
    PyFloat.le start entry.1 && PyFloat.le entry.1 stop).map Prod.snd
  if selected.length < 2 then
    .error "measurement window has fewer than two waveform samples"
  else .ok selected

/-- `_interpolate_at`, from a sample whose predecessor is given. -/
def interpolateFrom (target : F) : Option (F × F) → List (F × F) → Except String F
  | _, [] => .error "integration boundary is outside the waveform axis"
  | previous, (x, y) :: rest =>
    if PyFloat.eq x target then .ok y
    else match previous with
      | some (leftX, leftY) =>
        if PyFloat.lt leftX target && PyFloat.lt target x then do
          let ratio ← divide (target - leftX) (x - leftX)
          .ok (leftY + ratio * (y - leftY))
        else interpolateFrom target (some (x, y)) rest
      | none => interpolateFrom target (some (x, y)) rest

def interpolateAt (axis values : List F) (target : F) : Except String F :=
  interpolateFrom target none (axis.zip values)

def trapezoids : List (F × F) → Except String (List F)
  | (leftX, leftY) :: (rightX, rightY) :: rest => do
    let area ← divide ((rightX - leftX) * (leftY + rightY)) (number 2)
    let areas ← trapezoids ((rightX, rightY) :: rest)
    .ok (area :: areas)
  | _ => .ok []

def strictlyIncreasing : List F → Bool
  | before :: after :: rest => !PyFloat.le after before && strictlyIncreasing (after :: rest)
  | _ => true

/-- `_integrate_window`. -/
def integrateWindow (axis values : List F) (window : Window) : Except String F := do
  if axis.length ≠ values.length ∨ axis.length < 2 then
    .error "integration requires at least two paired waveform samples"
  if !strictlyIncreasing axis then
    .error "integration axis must be strictly increasing"
  let start ← literal (F := F) window.start "window.start"
  let stop ← literal window.stop "window.stop"
  let first ← at? axis 0
  let last ← at? axis (axis.length - 1)
  if PyFloat.le stop start || PyFloat.lt start first || PyFloat.lt last stop then
    .error "integration window is outside the waveform axis"
  let left ← interpolateAt axis values start
  let interior := (axis.zip values).filter fun point =>
    PyFloat.lt start point.1 && PyFloat.lt point.1 stop
  let right ← interpolateAt axis values stop
  let areas ← trapezoids ((start, left) :: interior ++ [(stop, right)])
  let result := PyFloat.sum areas
  if PyFloat.isFinite result then .ok result
  else .error "integrated result is non-finite"

def isRising (threshold before after : F) : Bool :=
  PyFloat.lt before threshold && PyFloat.le threshold after

def isFalling (threshold before after : F) : Bool :=
  PyFloat.lt threshold before && PyFloat.le after threshold

def crosses (direction : CrossingDirection) (threshold before after : F) : Bool :=
  match direction with
  | .rising => isRising threshold before after
  | .falling => isFalling threshold before after
  | .either => isRising threshold before after || isFalling threshold before after

def crossingPosition (axis : List F) (index : ℕ) (threshold before after : F) :
    Except String F :=
  if PyFloat.eq after before then at? axis (index + 1)
  else do
    let ratio ← divide (threshold - before) (after - before)
    let left ← at? axis index
    let right ← at? axis (index + 1)
    .ok (left + ratio * (right - left))

/-- The loop of `_crossing`; `remaining` counts the occurrences still to pass. -/
def crossingFrom (axis : List F) (threshold : F) (direction : CrossingDirection) :
    ℕ → ℕ → List F → Except String F
  | index, remaining, before :: after :: rest =>
    if crosses direction threshold before after then
      if remaining = 1 then crossingPosition axis index threshold before after
      else crossingFrom axis threshold direction (index + 1) (remaining - 1) (after :: rest)
    else crossingFrom axis threshold direction (index + 1) remaining (after :: rest)
  | _, _, _ => .error "declared crossing occurrence was not observed"

/-- `_crossing`. -/
def crossing (axis values : List F) (threshold : F) (direction : CrossingDirection)
    (occurrence : ℕ) : Except String F :=
  crossingFrom axis threshold direction 0 occurrence values

def mean (items : List F) : Except String F :=
  divide (PyFloat.sum items) (number items.length)

structure LinearFit (F : Type) where
  slope : F
  intercept : F
  r2 : F

def goodness (residual spread : F) : Except String F :=
  if PyFloat.eq spread (number 0) && PyFloat.eq residual (number 0) then .ok (number 1)
  else if PyFloat.eq spread (number 0) then .ok (number 0)
  else do
    let ratio ← divide residual spread
    .ok (number 1 - ratio)

/-- `_linear_fit`. -/
def linearFit (x y : List F) : Except String (LinearFit F) := do
  if x.length ≠ y.length ∨ x.length < 2 then
    .error "linear fit needs at least two paired samples"
  let xmean ← mean x
  let ymean ← mean y
  let squares ← x.mapM fun item => squared (item - xmean)
  let denominator := PyFloat.sum squares
  if PyFloat.eq denominator (number 0) then
    .error "linear fit axis has zero variance"
  let products := (x.zip y).map fun pair => (pair.1 - xmean) * (pair.2 - ymean)
  let slope ← divide (PyFloat.sum products) denominator
  let intercept := ymean - slope * xmean
  let residuals ← (x.zip y).mapM fun pair => squared (pair.2 - (slope * pair.1 + intercept))
  let spreads ← y.mapM fun item => squared (item - ymean)
  let r2 ← goodness (PyFloat.sum residuals) (PyFloat.sum spreads)
  .ok ⟨slope, intercept, r2⟩

/-- `curve["x"]` and `curve["y"]` of a parent value. -/
def curveOf : Payload F → Except String (List F × List F)
  | .curve x y => .ok (x, y)
  | .scalar _ => .error "'float' object is not subscriptable"
  | .signs _ => .error "list indices must be integers or slices, not str"
  | .fit .. => .error "'x'"
  | .interval .. => .error "'x'"

/-- `float(value)` of a stored value. -/
def floatOf : Payload F → Except String F
  | .scalar value => .ok value
  | .signs _ => .error "float() argument must be a string or a real number, not 'list'"
  | _ => .error "float() argument must be a string or a real number, not 'dict'"

def ordinatesOf : Payload F → Except String (List F)
  | .curve _ y => .ok y
  | .scalar value => .ok [value]
  | .signs values => .ok (values.map fun sign => number sign)
  | .fit .. => .error "'y'"
  | .interval .. => .error "'y'"

def signOf (tolerance item : F) : ℤ :=
  if PyFloat.le (PyFloat.abs item) tolerance then 0
  else if PyFloat.lt (number 0) item then 1 else -1

def signValues (tolerance : F) (parent : Payload F) : Except String (Payload F) :=
  match parent with
  | .signs _ => .error "bad operand type for abs(): 'list'"
  | _ => do
    let items ← ordinatesOf parent
    .ok (.signs (items.map (signOf tolerance)))

def maxAbs (parent : Payload F) : Except String (Payload F) := do
  let items ← ordinatesOf parent
  match PyFloat.maxOf (items.map PyFloat.abs) with
  | some value => .ok (.scalar value)
  | none => .error "max() iterable argument is empty"

def contiguous : List ℕ → Bool
  | left :: right :: rest => decide (right = left + 1) && contiguous (right :: rest)
  | _ => true

def complianceInterval (lower upper : F) (parent : Payload F) : Except String (Payload F) := do
  let (x, y) ← curveOf parent
  let accepted := (y.zipIdx.filter fun entry =>
    PyFloat.le lower entry.1 && PyFloat.le entry.1 upper).map Prod.snd
  match accepted with
  | [] => .error "compliance interval has no accepted samples"
  | first :: _ =>
    if !contiguous accepted then .error "compliance interval is disjoint"
    else do
      let low ← at? x first
      let high ← at? x (accepted.getLastD first)
      .ok (.interval low high)

def mismatchFraction (actual reference floor : F) : Except String F :=
  divide (PyFloat.abs (actual - reference))
    (PyFloat.max (PyFloat.max (PyFloat.abs actual) (PyFloat.abs reference)) floor)

/-- `_finite_json`. -/
def finiteJson : Payload F → Bool
  | .scalar value => PyFloat.isFinite value
  | .curve x y => x.all PyFloat.isFinite && y.all PyFloat.isFinite
  | .fit slope intercept r2 =>
    PyFloat.isFinite slope && PyFloat.isFinite intercept && PyFloat.isFinite r2
  | .interval lower upper => PyFloat.isFinite lower && PyFloat.isFinite upper
  | .signs _ => true

end OpenADA.Runner
