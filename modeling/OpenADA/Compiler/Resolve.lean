import OpenADA.Library.PyDecimal
import OpenADA.Plan.Validator

/-! The numeric side of the ngspice compiler: bound values, affine sources and the DC grid. A
decimal is its exact rational value; its token is what the deck and the receipts carry. -/
namespace OpenADA.Compiler

open OpenADA.Plan

def Sha256 := {text : String // text.toList.length = 64 ∧ text.toList.all isHexDigit = true}

instance : DecidableEq Sha256 := inferInstanceAs (DecidableEq (Subtype _))

/-- Why a compilation stopped: a typed refusal, or another exception with its text. -/
inductive CompileFailure where
  | refused (issue : Issue)
  | raised (text : String)
  deriving DecidableEq

/-- `str(exc)`. -/
def CompileFailure.text : CompileFailure → String
  | .refused issue => issue.message
  | .raised text => text

def refuse {α : Type} (code path message : String) : Except CompileFailure α :=
  .error (.refused ⟨code, path, message⟩)

/-- `KeyError` of a missing key. -/
def keyError {α : Type} (key : String) : Except CompileFailure α := .error (.raised (quoted key))

def withinMagnitude (value : ℚ) : Bool := decide (|value| ≤ ((10 ^ 300 : ℕ) : ℚ))

/-- `_decimal` of a number whose decimal value is known; `none` is a non-finite number. -/
def decimal (value : Option ℚ) (path : String) : Except CompileFailure ℚ :=
  match value with
  | some exact =>
    if withinMagnitude exact then .ok exact
    else refuse "testbench_plan.compiler.number_invalid" path
      "value must be finite and bounded by 1e300"
  | none => refuse "testbench_plan.compiler.number_invalid" path
      "value must be finite and bounded by 1e300"

structure ResolvedBindingValue (F : Type) where
  bindingId : Id
  value : F
  unit : PlanUnit
  sourceReceiptSha256 : Sha256

structure BoundInput where
  bindingId : Id
  sourceValue : String
  resolvedValue : ℚ
  unit : PlanUnit
  sourceReceiptSha256 : Sha256
  transform : BindingTransform
  deriving DecidableEq

def tokenValue (value : ℚ) : ℚ := PyDecimal.round value

section

variable {F : Type} [PyFloat F]

def transformed (binding : Binding) (source : ℚ) : Except CompileFailure ℚ :=
  match binding.transform with
  | .identity => .ok source
  | .scale factor => do
    let exact ← decimal (some factor) s!"/bindings/{binding.id}/transform/factor"
    .ok (PyDecimal.mul source exact)

/-- The last step of a provided value: the bound on the transformed number and its record. -/
def storeBound (output : InsertionDict Id BoundInput) (path : String) (binding : Binding)
    (item : ResolvedBindingValue F) (source resolved : ℚ) :
    Except CompileFailure (InsertionDict Id BoundInput) :=
  if withinMagnitude resolved then
    .ok (output.set item.bindingId
      ⟨item.bindingId, PyDecimal.token source, tokenValue resolved, item.unit,
        item.sourceReceiptSha256, binding.transform⟩)
  else
    refuse "testbench_plan.compiler.number_invalid" s!"{path}/value"
      "resolved binding value must be finite and bounded by 1e300"

/-- One provided value of `_resolve_binding_values`. -/
def resolveBindingValue (plan : PlanDocument) (output : InsertionDict Id BoundInput)
    (index : ℕ) (item : ResolvedBindingValue F) :
    Except CompileFailure (InsertionDict Id BoundInput) :=
  let path := s!"/binding_values/{index}"
  match (InsertionDict.ofList (plan.bindings.map fun b => (b.id, b))).get? item.bindingId with
  | none => refuse "testbench_plan.compiler.binding_unknown" s!"{path}/binding_id"
      s!"unknown binding {quoted item.bindingId}"
  | some binding =>
    if item.bindingId ∈ output.keys then
      refuse "testbench_plan.compiler.binding_duplicate" s!"{path}/binding_id"
        s!"duplicate binding {quoted item.bindingId}"
    else if item.unit ≠ binding.unit then
      refuse "testbench_plan.compiler.binding_unit_mismatch" s!"{path}/unit"
        s!"binding requires unit {quoted binding.unit.symbol}"
    else do
      let source ← decimal (PyFloat.toDecimal item.value) s!"{path}/value"
      let resolved ← transformed binding source
      storeBound output path binding item source resolved

/-- `_resolve_binding_values`. -/
def resolveBindingValues (plan : PlanDocument) (values : List (ResolvedBindingValue F)) :
    Except CompileFailure (InsertionDict Id BoundInput) :=
  values.zipIdx.foldlM (fun output item => resolveBindingValue plan output item.2 item.1) .empty

end

abbrev BoundInputs := InsertionDict Id BoundInput

def boundByTarget (plan : PlanDocument) (stageId : Id) (values : InsertionDict Id BoundInput) :
    BoundInputs :=
  plan.bindings.foldl (fun byTarget binding =>
    if binding.target.stageId = stageId then
      match values.get? binding.id with
      | some provided => byTarget.set binding.target.inputId provided
      | none => byTarget
    else byTarget) .empty

/-- `_stage_input_values`. -/
def stageInputValues (plan : PlanDocument) (stage : Stage)
    (values : InsertionDict Id BoundInput) : Except CompileFailure BoundInputs :=
  let byTarget := boundByTarget plan stage.id values
  match stage.inputs.find? fun item => decide (item.id ∉ byTarget.keys) with
  | some item => refuse "testbench_plan.compiler.binding_unresolved"
      s!"/stages/{stage.id}/inputs/{item.id}"
      s!"stage input {quoted item.id} requires a receipt-backed binding value"
  | none => .ok byTarget

def boundValue (inputs : BoundInputs) (inputId : Id) (unit : PlanUnit) (path : String) :
    Except CompileFailure ℚ :=
  match inputs.get? inputId with
  | none => refuse "testbench_plan.compiler.binding_unresolved" path
      s!"stage input {quoted inputId} has no receipt-backed binding value"
  | some bound =>
    if bound.unit ≠ unit then
      refuse "testbench_plan.compiler.binding_unit_mismatch" path
        (s!"input {quoted inputId} has unit {quoted bound.unit.symbol}, " ++
          s!"expected {quoted unit.symbol}")
    else .ok bound.resolvedValue

def bounded (value : ℚ) (path : String) : Except CompileFailure ℚ :=
  if withinMagnitude value then .ok value
  else refuse "testbench_plan.compiler.number_invalid" path
    "resolved affine value must be finite and bounded by 1e300"

def affineOffset (offset : Quantity) (unit : PlanUnit) (path : String) :
    Except CompileFailure ℚ :=
  if offset.unit ≠ unit then
    refuse "testbench_plan.compiler.binding_unit_mismatch" s!"{path}/offset/unit"
      "affine offset unit must match the resolved value unit"
  else decimal (some offset.value) s!"{path}/offset/value"

/-- `_resolve_decimal`. -/
def resolveDecimal (source : ValueSource) (inputs : BoundInputs) (path : String) :
    Except CompileFailure ℚ :=
  match source with
  | .literal quantity => decimal (some quantity.value) s!"{path}/value"
  | .input inputId unit => do
    let value ← boundValue inputs inputId unit path
    bounded value path
  | .affine inputId factor offset unit => do
    let value ← boundValue inputs inputId unit path
    let exact ← decimal (some factor) s!"{path}/factor"
    let shift ← affineOffset offset unit path
    bounded (PyDecimal.add (PyDecimal.mul value exact) shift) path

/-- `_resolved_quantity`: the token and the unit of a resolved source. -/
structure ResolvedQuantity where
  value : String
  unit : PlanUnit
  deriving DecidableEq

def resolvedQuantity (source : ValueSource) (inputs : BoundInputs) (path : String) :
    Except CompileFailure ResolvedQuantity := do
  let value ← resolveDecimal source inputs path
  .ok ⟨PyDecimal.token value, source.unit⟩

def maxDcSamples : ℕ := 1000000

/-- `_dc_grid`. -/
def dcGrid (start stop step : ℚ) : Except CompileFailure (List ℚ) :=
  if step ≤ 0 ∨ stop < start then
    refuse "testbench_plan.compiler.dc_range_invalid" "/analysis"
      "DC range requires stop >= start and a positive step"
  else
    let quotient := (PyDecimal.div (PyDecimal.sub stop start) step).getD 0
    let count := ⌊quotient⌋.toNat + 1
    if maxDcSamples < count then
      refuse "testbench_plan.compiler.dc_range_over_limit" "/analysis"
        "DC range expands outside 1..1000000 samples"
    else
      let values := (List.range count).map fun index =>
        PyDecimal.add start (PyDecimal.mul step index)
      if values.getLast? ≠ some stop then
        refuse "testbench_plan.compiler.dc_range_not_integral" "/analysis"
          "DC range must land exactly on stop"
      else .ok values

end OpenADA.Compiler
