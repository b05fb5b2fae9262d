import OpenADA.Library.FloatText
import OpenADA.Series.Normalize

/-! The measurement kernel: one scalar of a normalized series by a closed vocabulary of
algorithms. -/
namespace OpenADA.Series

open PyStr

inductive MeasurementKind where
  | sampleAt
  | minimum
  | maximum
  | mean
  | rms
  | crossing
  | riseTime
  | fallTime
  | settlingTime
  | slope
  deriving DecidableEq

def MeasurementKind.name : MeasurementKind → String
  | .sampleAt => "sample_at"
  | .minimum => "minimum"
  | .maximum => "maximum"
  | .mean => "mean"
  | .rms => "rms"
  | .crossing => "crossing"
  | .riseTime => "rise_time"
  | .fallTime => "fall_time"
  | .settlingTime => "settling_time"
  | .slope => "slope"

/-- `MEASUREMENT_KINDS`. -/
def measurementKinds : List MeasurementKind :=
  [.sampleAt, .minimum, .maximum, .mean, .rms, .crossing, .riseTime, .fallTime, .settlingTime,
    .slope]

def kind? (text : PyStr) : Option MeasurementKind :=
  measurementKinds.find? fun kind => lit kind.name = text

def nonFinite : String := "measurement.value.non_finite"

def domainInvalid : String := "measurement.domain.invalid"

def maxExactSlopeSamples : ℕ := 8192

inductive Direction where
  | rising
  | falling
  | either
  deriving DecidableEq

structure Measured (F : Type) where
  value : Option F
  location : Option F
  unit : PyStr
  sampleCount : ℕ

section Parameters

variable {F : Type} [PyFloat F]

/-- `_quantity`. -/
def quantity (label : String) (expectedUnit : PyStr) (value : PyJson F) :
    Except Fault (FiniteFloat F) := do
  let item ← closedObject requestInvalid label ["value", "unit"] [] value
  let unit ← text requestInvalid s!"{label}.unit" 64 (field item "unit")
  if unit.1 ≠ expectedUnit then refuse "measurement.unit.mismatch" s!"{label}.unit"
  else finiteNumber requestInvalid s!"{label}.value" (field item "value")

/-- `_window`. -/
def windowOf (axisUnit : PyStr) (value : PyJson F) : Except Fault (F × F) := do
  let label := "measurement.parameters.window"
  let item ← closedObject requestInvalid label ["start", "stop"] [] value
  let start ← quantity s!"{label}.start" axisUnit (field item "start")
  let stop ← quantity s!"{label}.stop" axisUnit (field item "stop")
  if PyFloat.le stop.1 start.1 then refuse requestInvalid s!"{label}.stop"
  else .ok (start.1, stop.1)

def optionalWindow (axisUnit : PyStr) (fields : Fields F) : Except Fault (Option (F × F)) :=
  match fields.lookup (lit "window") with
  | some value => (windowOf axisUnit value).map some
  | none => .ok none

def parametersLabel : String := "measurement.parameters"

def occurrenceOf (value : PyJson F) : Except Fault ℕ :=
  match value with
  | .int n =>
    if 1 ≤ n ∧ n ≤ maxPoints then .ok n.toNat
    else refuse requestInvalid "measurement.parameters.occurrence"
  | _ => refuse requestInvalid "measurement.parameters.occurrence"

def directionOf (value : PyJson F) : Except Fault Direction := do
  let name ← text requestInvalid "measurement.parameters.direction" 20 value
  if name.1 = lit "rising" then .ok .rising
  else if name.1 = lit "falling" then .ok .falling
  else if name.1 = lit "either" then .ok .either
  else refuse requestInvalid "measurement.parameters.direction"

end Parameters

section Kernels

variable {F : Type} [PyFloatMath F]

def pointsInWindow (points : List (F × F)) : Option (F × F) → List (F × F)
  | none => points
  | some (start, stop) =>
    points.filter fun point => PyFloat.le start point.1 && PyFloat.le point.1 stop

def quotient (a b : F) : Except Fault F :=
  match PyFloat.div a b with
  | some q => .ok q
  | none => .error .arithmetic

/-- `_interpolate`. -/
def interpolate (x0 y0 x1 y1 x : F) : Except Fault F := do
  let part ← quotient (x - x0) (x1 - x0)
  .ok (y0 + (y1 - y0) * part)

/-- `_sample_at` from the point before on. -/
def sampleAt (place : F) (linear : Bool) : Option (F × F) → List (F × F) → Except Fault (Option F)
  | _, [] => .ok none
  | before, (x, y) :: rest =>
    if PyFloat.eq x place then .ok (some y)
    else if PyFloat.lt place x then
      match before with
      | some (x0, y0) => if linear then (interpolate x0 y0 x y place).map some else .ok none
      | none => .ok none
    else sampleAt place linear (some (x, y)) rest

/-- `_crossings`. -/
def crossings (threshold : F) (direction : Direction) (window : Option (F × F)) :
    List (F × F) → Except Fault (List F)
  | [] => .ok []
  | [_] => .ok []
  | (x0, y0) :: (x1, y1) :: rest => do
    let found ← crossings threshold direction window ((x1, y1) :: rest)
    if window.any fun (start, stop) => PyFloat.lt x0 start || PyFloat.lt stop x1 then .ok found
    else
      let rising := PyFloat.lt y0 threshold && PyFloat.le threshold y1 && PyFloat.lt y0 y1
      let falling := PyFloat.lt threshold y0 && PyFloat.le y1 threshold && PyFloat.lt y1 y0
      if (direction ≠ .falling ∧ rising) ∨ (direction ≠ .rising ∧ falling) then do
        let offset ← quotient ((threshold - y0) * (x1 - x0)) (y1 - y0)
        .ok ((x0 + offset) :: found)
      else .ok found

def locate (points : List (F × F)) (value : F) : Except Fault F :=
  match points.find? fun point => PyFloat.eq point.2 value with
  | some point => .ok point.1
  | none => .error .arithmetic

def meanOf (label : String) (items : List F) : Except Fault F :=
  match PyFloatMath.fsum items with
  | .error .overflow => refuse nonFinite label
  | .error .value => .error .arithmetic
  | .ok total => quotient total (PyFloat.ofRat items.length)

def rmsOf (items : List F) : Except Fault F := do
  let meanSquare ← meanOf "rms" (items.map fun item => item * item)
  match PyFloatMath.sqrt meanSquare with
  | some root => .ok root
  | none => .error .arithmetic

def exactSlope (points : List (ℚ × ℚ)) : Option ℚ :=
  let n : ℚ := points.length
  let sx := (points.map Prod.fst).sum
  let sy := (points.map Prod.snd).sum
  let sxy := (points.map fun (x, y) => x * y).sum
  let sxx := (points.map fun (x, _) => x * x).sum
  if n * sxx - sx * sx = 0 then none else some ((n * sxy - sx * sy) / (n * sxx - sx * sx))

/-- The slope where the scaled one is zero: a zero is only returned where it is exact. -/
def slopeFallback (points : List (F × F)) : Option F := do
  if points.length > maxExactSlopeSamples then none
  else do
    let exactPoints ← points.mapM fun (x, y) => do
      let x ← PyFloatMath.ratio x
      let y ← PyFloatMath.ratio y
      some (x, y)
    let exact ← exactSlope exactPoints
    let value ← PyFloatMath.ofRatio exact
    if exact ≠ 0 ∧ PyFloat.eq value (PyFloat.ofRat 0 : F) = true then none else some value

def sumOf (items : List F) : Option F := (PyFloatMath.fsum items).toOption

/-- The least-squares slope; `none` is an exception or a refusal, both answered with one code. -/
def slopeOf (points : List (F × F)) : Option F := do
  let zero : F := PyFloat.ofRat 0
  let count : F := PyFloat.ofRat points.length
  let xMean ← PyFloat.div (← sumOf (points.map Prod.fst)) count
  let yMean ← PyFloat.div (← sumOf (points.map Prod.snd)) count
  let xScale ← PyFloat.maxOf (points.map fun point => PyFloat.abs (point.1 - xMean))
  let yScale ← PyFloat.maxOf (points.map fun point => PyFloat.abs (point.2 - yMean))
  if PyFloat.eq xScale zero then none
  else if PyFloat.eq yScale zero then some zero
  else do
    let scaled ← points.mapM fun point => do
      let u ← PyFloat.div (point.1 - xMean) xScale
      let v ← PyFloat.div (point.2 - yMean) yScale
      some (u, v)
    let suu ← sumOf (scaled.map fun (u, _) => u * u)
    let suv ← sumOf (scaled.map fun (u, v) => u * v)
    if PyFloat.eq suv zero then slopeFallback points
    else do
      let value := (← PyFloat.div suv suu) * (← PyFloat.div yScale xScale)
      if PyFloat.eq value zero then slopeFallback points else some value

/-- The earliest point of the suffix of points that stays within the tolerance and lasts. -/
def settledPoint (target tolerance holdFor : F) (points : List (F × F)) : Option (F × F) :=
  match points.getLast? with
  | none => none
  | some final =>
    (points.reverse.takeWhile fun point =>
        PyFloat.le (PyFloat.abs (point.2 - target)) tolerance).foldl
      (fun settled point =>
        if PyFloat.le holdFor (final.1 - point.1) then some point else settled) none

end Kernels

section Measurement

variable {F : Type} [PyFloatMath F]

def signalPoints (axis : Axis F) (signal : Signal F) : List (F × F) :=
  (axis.values.map Subtype.val).zip (signal.values.map Subtype.val)

def outsideDomain (axis : Axis F) (place : F) : Bool :=
  !(axis.values.head?.any fun first => PyFloat.le first.1 place) ||
    !(axis.values.getLast?.any fun last => PyFloat.le place last.1)

def measureSampleAt (axis : Axis F) (signal : Signal F) (parameters : PyJson F) :
    Except Fault (Measured F) := do
  let fields ← closedObject requestInvalid parametersLabel ["at", "interpolation"] [] parameters
  let place ← quantity "measurement.parameters.at" axis.unit.1 (field fields "at")
  let interpolation ← text requestInvalid "measurement.parameters.interpolation" 20
    (field fields "interpolation")
  if interpolation.1 ≠ lit "exact" ∧ interpolation.1 ≠ lit "linear" then
    refuse requestInvalid "measurement.parameters.interpolation"
  else if outsideDomain axis place.1 then refuse domainInvalid "measurement.parameters.at"
  else do
    let value ← sampleAt place.1 (interpolation.1 = lit "linear") none (signalPoints axis signal)
    .ok ⟨value, value.map fun _ => place.1, signal.unit.1, if value.isSome then 1 else 0⟩

/-- The minimum, the maximum, the mean or the root mean square of the points of a window. -/
def measureStatistic (kind : MeasurementKind) (axis : Axis F) (signal : Signal F)
    (parameters : PyJson F) : Except Fault (Measured F) := do
  let fields ← closedObject requestInvalid parametersLabel [] ["window"] parameters
  let window ← optionalWindow axis.unit.1 fields
  let points := pointsInWindow (signalPoints axis signal) window
  let samples := points.map Prod.snd
  let measured (value location : Option F) : Measured F :=
    ⟨value, location, signal.unit.1, points.length⟩
  if points.isEmpty then .ok (measured none none)
  else
    match kind with
    | .minimum =>
      match PyFloat.minOf samples with
      | some value => do
        let location ← locate points value
        .ok (measured (some value) (some location))
      | none => .ok (measured none none)
    | .maximum =>
      match PyFloat.maxOf samples with
      | some value => do
        let location ← locate points value
        .ok (measured (some value) (some location))
      | none => .ok (measured none none)
    | .mean => do
      let value ← meanOf "mean" samples
      .ok (measured (some value) none)
    | _ => do
      let value ← rmsOf samples
      .ok (measured (some value) none)

def measureCrossing (axis : Axis F) (signal : Signal F) (parameters : PyJson F) :
    Except Fault (Measured F) := do
  let fields ← closedObject requestInvalid parametersLabel ["threshold", "direction", "occurrence"]
    ["window"] parameters
  let threshold ← quantity "measurement.parameters.threshold" signal.unit.1
    (field fields "threshold")
  let direction ← directionOf (field fields "direction")
  let occurrence ← occurrenceOf (field fields "occurrence")
  let window ← optionalWindow axis.unit.1 fields
  let found ← crossings threshold.1 direction window (signalPoints axis signal)
  let value := found[occurrence - 1]?
  .ok ⟨value, value, axis.unit.1, (pointsInWindow (signalPoints axis signal) window).length⟩

def measureSlope (axis : Axis F) (signal : Signal F) (parameters : PyJson F) :
    Except Fault (Measured F) := do
  let fields ← closedObject requestInvalid parametersLabel [] ["window"] parameters
  let window ← optionalWindow axis.unit.1 fields
  let points := pointsInWindow (signalPoints axis signal) window
  let unit := signal.unit.1 ++ point '/' :: axis.unit.1
  if unit.length > 64 then refuse requestInvalid "slope"
  else if points.length < 2 then .ok ⟨none, none, unit, points.length⟩
  else
    match slopeOf points with
    | some value => .ok ⟨some value, none, unit, points.length⟩
    | none => refuse nonFinite "slope"

def measureTransition (rising : Bool) (axis : Axis F) (signal : Signal F)
    (parameters : PyJson F) : Except Fault (Measured F) := do
  let fields ← closedObject requestInvalid parametersLabel
    ["lower_threshold", "upper_threshold", "occurrence"] ["window"] parameters
  let lower ← quantity "measurement.parameters.lower_threshold" signal.unit.1
    (field fields "lower_threshold")
  let upper ← quantity "measurement.parameters.upper_threshold" signal.unit.1
    (field fields "upper_threshold")
  if PyFloat.le upper.1 lower.1 then refuse requestInvalid "upper_threshold"
  else do
    let occurrence ← occurrenceOf (field fields "occurrence")
    let window ← optionalWindow axis.unit.1 fields
    let points := signalPoints axis signal
    let direction : Direction := if rising then .rising else .falling
    let starts ← crossings (if rising then lower.1 else upper.1) direction window points
    let ends ← crossings (if rising then upper.1 else lower.1) direction window points
    let matching := starts[occurrence - 1]?.bind fun start =>
      (ends.find? fun item => PyFloat.le start item &&
        (starts[occurrence]?.all fun next => PyFloat.lt item next)).map fun found => (start, found)
    .ok ⟨matching.map fun (start, found) => found - start, matching.map Prod.snd, axis.unit.1,
      (pointsInWindow points window).length⟩

def measureSettling (axis : Axis F) (signal : Signal F) (parameters : PyJson F) :
    Except Fault (Measured F) := do
  let fields ← closedObject requestInvalid parametersLabel
    ["target", "tolerance", "reference", "hold_for"] ["window"] parameters
  let target ← quantity "measurement.parameters.target" signal.unit.1 (field fields "target")
  let tolerance ← quantity "measurement.parameters.tolerance" signal.unit.1
    (field fields "tolerance")
  let reference ← quantity "measurement.parameters.reference" axis.unit.1
    (field fields "reference")
  let holdFor ← quantity "measurement.parameters.hold_for" axis.unit.1 (field fields "hold_for")
  let zero : F := PyFloat.ofRat 0
  if PyFloat.le tolerance.1 zero || PyFloat.le holdFor.1 zero then
    refuse requestInvalid "settling_time"
  else do
    let window ← optionalWindow axis.unit.1 fields
    if outsideDomain axis reference.1 then refuse domainInvalid "settling_time"
    else
      let points := (pointsInWindow (signalPoints axis signal) window).filter fun point =>
        PyFloat.le reference.1 point.1
      let settled := settledPoint target.1 tolerance.1 holdFor.1 points
      .ok ⟨settled.map fun point => point.1 - reference.1, settled.map Prod.fst, axis.unit.1,
        points.length⟩

def measureSignal (kind : MeasurementKind) (axis : Axis F) (signal : Signal F)
    (parameters : PyJson F) : Except Fault (Measured F) :=
  match kind with
  | .sampleAt => measureSampleAt axis signal parameters
  | .crossing => measureCrossing axis signal parameters
  | .slope => measureSlope axis signal parameters
  | .riseTime => measureTransition true axis signal parameters
  | .fallTime => measureTransition false axis signal parameters
  | .settlingTime => measureSettling axis signal parameters
  | kind => measureStatistic kind axis signal parameters

structure Derived (F : Type) where
  measurementId : Role
  kind : MeasurementKind
  signal : Text 256
  measured : Measured F

def measureContent (content : Content F) (measurement : PyJson F) : Except Fault (Derived F) := do
  let request ← closedObject requestInvalid "measurement"
    ["measurement_id", "kind", "signal", "parameters", "extensions"] [] measurement
  emptyExtensions requestInvalid "measurement.extensions" (field request "extensions")
  let measurementId ← roleText requestInvalid requestInvalid "measurement.measurement_id"
    (field request "measurement_id")
  let name ← text requestInvalid "measurement.kind" 40 (field request "kind")
  match kind? name.1 with
  | none => refuse "measurement.kind.unsupported" "measurement.kind"
  | some kind => do
    let signalName ← text requestInvalid "measurement.signal" 256 (field request "signal")
    match content.signals.filter fun signal => signal.name = signalName with
    | [signal] => do
      let measured ← measureSignal kind content.axis signal (field request "parameters")
      .ok ⟨measurementId, kind, signalName, measured⟩
    | _ => refuse "measurement.signal.missing" "measurement.signal"

end Measurement

end OpenADA.Series
