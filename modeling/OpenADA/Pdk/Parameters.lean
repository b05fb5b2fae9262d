import OpenADA.Pdk.Cards
import OpenADA.Pdk.Diode
import OpenADA.Pdk.Numbers

/-! The parameters of a device card: which are checked, converted, renamed and put into the unit of
a PDK, and which are dropped. -/
namespace OpenADA.Pdk

open DecimalContext PyText
open Scalars

/-- The parameters of one kind of card: the names a PDK has for them, which are lengths, which are
areas, and what else takes the value of one. -/
structure ParameterTable where
  parameterNames : List (String × String)
  geometryParameters : List String
  areaParameters : List String
  companionParameters : List (String × List String)

/-- `DeviceGeometry`. -/
structure DeviceGeometry where
  lMin : ℚ
  lMax : ℚ
  wMin : ℚ
  wMax : ℚ

structure BindingParameters where
  pdkId : String
  mos : ParameterTable
  deviceGeometry : List (String × DeviceGeometry)
  deviceCards : List (String × ParameterTable)
  geometryScale : FiniteDecimal

section Tables

def lengths : List String := ["w", "l"]

def multiplicityTable (companions : List (String × List String)) : ParameterTable :=
  ⟨[("m", "m")], [], [], companions⟩

/-- The table of a card that takes the sides of a rectangle, under some names. -/
def sidesTable (width length : String) (companions : List (String × List String)) :
    ParameterTable :=
  ⟨[("w", width), ("l", length), ("m", "m")], lengths, [], companions⟩

/-- The parameters of `IHP_SG13G2`. -/
def ihpParameters : BindingParameters where
  pdkId := "ihp-sg13g2"
  mos := ⟨[("w", "w"), ("l", "l"), ("m", "m"), ("nf", "ng")], lengths, [], []⟩
  deviceGeometry := []
  deviceCards :=
    [("diode.core", sidesTable "w" "l" []), ("bjt.npn", multiplicityTable []),
      ("bjt.pnp", multiplicityTable []), ("resistor.poly", sidesTable "w" "l" []),
      ("cap.mim", sidesTable "w" "l" [])]
  geometryScale := ⟨false, 1, 0⟩

/-- The parameters of `SKY130A`. -/
def sky130Parameters : BindingParameters where
  pdkId := "sky130A"
  mos := ⟨[("w", "w"), ("l", "l"), ("m", "m"), ("nf", "nf")], lengths, [], []⟩
  deviceGeometry :=
    [("nmos.core", ⟨15 / 10 ^ 8, 1 / 10 ^ 4, 36 / 10 ^ 8, 1 / 10 ^ 4⟩),
      ("pmos.core", ⟨15 / 10 ^ 8, 1 / 10 ^ 4, 42 / 10 ^ 8, 1 / 10 ^ 4⟩)]
  deviceCards :=
    [("diode.core", ⟨[("area", "area"), ("pj", "pj"), ("m", "m")], ["pj"], ["area"], []⟩),
      ("bjt.npn", multiplicityTable [("m", ["mult"])]),
      ("bjt.pnp", multiplicityTable [("m", ["mult"])]),
      ("resistor.poly", sidesTable "w" "l" [("m", ["mult"])]),
      ("cap.mim", sidesTable "w" "l" [("m", ["mf"])])]
  geometryScale := ⟨false, 1, -6⟩

/-- The parameters of `GF180MCUD`. -/
def gf180Parameters : BindingParameters where
  pdkId := "gf180mcuD"
  mos := ⟨[("w", "w"), ("l", "l"), ("m", "m"), ("nf", "nf")], lengths, [], []⟩
  deviceGeometry :=
    [("nmos.core", ⟨28 / 10 ^ 8, 50001 / 10 ^ 9, 22 / 10 ^ 8, 100001 / 10 ^ 9⟩),
      ("pmos.core", ⟨28 / 10 ^ 8, 50001 / 10 ^ 9, 22 / 10 ^ 8, 100001 / 10 ^ 9⟩)]
  deviceCards :=
    [("diode.core", ⟨[("area", "area"), ("pj", "pj"), ("m", "m")], [], [], []⟩),
      ("bjt.npn", multiplicityTable []), ("bjt.pnp", multiplicityTable [("m", ["par"])]),
      ("resistor.poly", sidesTable "r_width" "r_length" []),
      ("cap.mim", sidesTable "c_width" "c_length" [])]
  geometryScale := ⟨false, 1, 0⟩

/-- The parameters of `FREEPDK45`. -/
def freepdk45Parameters : BindingParameters where
  pdkId := "freepdk45"
  mos := ⟨[("w", "w"), ("l", "l"), ("m", "m"), ("nf", "nf")], lengths, [], []⟩
  deviceGeometry := []
  deviceCards := []
  geometryScale := ⟨false, 1, 0⟩

def digitalParameters (pdkId : String) : BindingParameters where
  pdkId := pdkId
  mos := ⟨[], lengths, [], []⟩
  deviceGeometry := []
  deviceCards := []
  geometryScale := ⟨false, 1, 0⟩

def bindingParameters : List BindingParameters :=
  [ihpParameters, sky130Parameters, gf180Parameters, freepdk45Parameters]

def parametersOf (binding : Profile) : BindingParameters :=
  (bindingParameters.find? fun entry => entry.pdkId = binding.pdkId).getD
    (digitalParameters binding.pdkId)

end Tables

/-- The first match of `PARAMETER_RE` in a token: a key without `=` and a value. -/
def parameterOf (token : List Char) : Option (List Char × List Char) :=
  let body := token.dropWhile fun c => decide (c = '=')
  let key := body.takeWhile fun c => decide (c ≠ '=')
  let value := (body.drop key.length).tail
  if value = [] then none else some (key, value)

/-- A parameter of a rewritten card: the key and the value that were authored, and the spellings and
the value that stand in the card. -/
structure EmittedParameter where
  key : String
  authored : List Char
  spellings : List String
  value : List Char

def EmittedParameter.tokens (parameter : EmittedParameter) : List (List Char) :=
  parameter.spellings.map fun spelling => spelling.toList ++ '=' :: parameter.value

/-- `DeviceGeometry.check`. -/
def DeviceGeometry.outside (envelope : DeviceGeometry) (dimension : String) (value : ℚ) : Bool :=
  if dimension = "l" then decide (value < envelope.lMin ∨ envelope.lMax < value)
  else decide (value < envelope.wMin ∨ envelope.wMax < value)

/-- `_in_scalar_window`. -/
def inScalarWindow (value : ℚ) : Bool := decide (1 / 10 ^ 60 ≤ value ∧ value ≤ 10 ^ 60)

section Rewriting

variable (cases : CaseMap) (arithmetic : Arithmetic)

def authoredParameters (card : CardMatch) : List (String × List Char) :=
  (card.params.filterMap parameterOf).map fun pair => (String.ofList (cases.lower pair.1), pair.2)

/-- `_format_number(_rescaled(si, divisor, squared))`; an overflow raises. -/
def rescaledText (divisor : FiniteDecimal) (squared : Bool) (si : FiniteDecimal) :
    Except BindFault (List Char) :=
  match rescaled si divisor squared with
  | none => .error (.request "Overflow")
  | some quotient => formatNumber (.finite quotient)

def inUnit (table : ParameterTable) (divisor : FiniteDecimal) (key : String) (value : List Char)
    (si : FiniteDecimal) : Except BindFault (List Char) :=
  if divisor.value ≠ 1 then rescaledText divisor (decide (key ∈ table.areaParameters)) si
  else .ok value

def ParameterTable.isGeometry (table : ParameterTable) (key : String) : Bool :=
  decide (key ∈ table.geometryParameters ∨ key ∈ table.areaParameters)

/-- One parameter of a MOS card; `none` is dropped. -/
def mosParameter (table : ParameterTable) (envelope : Option DeviceGeometry)
    (divisor : FiniteDecimal) (pair : String × List Char) :
    Except BindFault (Option EmittedParameter) :=
  match table.parameterNames.lookup pair.1 with
  | none => .ok none
  | some spelling =>
    if table.isGeometry pair.1 then do
      let si ← parseSpiceNumber arithmetic pair.2
      if envelope.any fun envelope => envelope.outside pair.1 si.value then
        .error (.request "pdk.device.geometry_out_of_range")
      else do
        let value ← inUnit table divisor pair.1 pair.2 si
        .ok (some ⟨pair.1, pair.2, [spelling], value⟩)
    else .ok (some ⟨pair.1, pair.2, [spelling], pair.2⟩)

def droppedKeys (table : ParameterTable) (pairs : List (String × List Char)) : List String :=
  ((pairs.map Prod.fst).filter fun key => (table.parameterNames.lookup key).isNone).eraseDups

structure RewrittenParameters where
  emitted : List EmittedParameter
  dropped : List String

/-- The parameters of `rewrite_mos_card` in a role. -/
def mosParameters (binding : BindingParameters) (role : String) (card : CardMatch) :
    Except BindFault RewrittenParameters := do
  let pairs := authoredParameters cases card
  let emitted ← pairs.mapM (mosParameter arithmetic binding.mos (binding.deviceGeometry.lookup role)
    binding.geometryScale)
  .ok ⟨emitted.filterMap id, droppedKeys binding.mos pairs⟩

/-- One check of `_validated_extended_parameters`. -/
def checkExtended (pair : String × List Char) : Except BindFault Unit :=
  if pair.1 ∈ ["w", "l", "pj", "area"] then do
    let magnitude ← parseSpiceNumber arithmetic pair.2
    if 0 < magnitude.value ∧ inScalarWindow magnitude.value then .ok ()
    else .error (.request "pdk.parameter.invalid")
  else if pair.1 = "m" then do
    let magnitude ← parseSpiceNumber arithmetic pair.2
    if 1 ≤ magnitude.value ∧ magnitude.value.den = 1 ∧ magnitude.value ≤ 10 ^ 60 then .ok ()
    else .error (.request "pdk.parameter.invalid")
  else .ok ()

/-- `_validated_extended_parameters`. -/
def validatedExtendedParameters (pairs : List (String × List Char)) :
    Except BindFault (InsertionDict String (List Char)) :=
  if (pairs.map Prod.fst).Nodup then do
    pairs.forM (checkExtended arithmetic)
    .ok (.ofList pairs)
  else .error (.request "pdk.parameter.invalid")

/-- The arithmetic of the binding. A raised overflow is a number that compares with none, so that
it is refused as one out of the window is. -/
def bindingArithmetic : CardArithmetic (List Char) (Option FiniteDecimal) where
  parse text := (parseSpiceNumber arithmetic text).map some
  print value := match value with
    | none => .error (.request "Overflow")
    | some number => formatNumber (.finite number)
  constant q := some (.ofRat q)
  add a b := do bindingContext.add (← a) (← b)
  sub a b := do bindingContext.sub (← a) (← b)
  mul a b := do bindingContext.mul (← a) (← b)
  div a b := do bindingContext.div (← a) (← b)
  sqrt a := do bindingContext.sqrt (← a)
  isFinite value := value.isSome
  le a b := a.any fun x => b.any fun y => decide (x.value ≤ y.value)
  lt a b := a.any fun x => b.any fun y => decide (x.value < y.value)

/-- One parameter of an extended card; `none` is dropped. -/
def extendedParameter (table : ParameterTable) (divisor : FiniteDecimal)
    (pair : String × List Char) : Except BindFault (Option EmittedParameter) :=
  match table.parameterNames.lookup pair.1 with
  | none => .ok none
  | some spelling =>
    let spellings := spelling :: (table.companionParameters.lookup pair.1).getD []
    if divisor.value ≠ 1 ∧ table.isGeometry pair.1 then do
      let si ← parseSpiceNumber arithmetic pair.2
      let value ← inUnit table divisor pair.1 pair.2 si
      .ok (some ⟨pair.1, pair.2, spellings, value⟩)
    else .ok (some ⟨pair.1, pair.2, spellings, pair.2⟩)

/-- The parameters that an extended card in a role is rewritten with, and the record of a diode's
conversion. -/
def suppliedParameters (table : ParameterTable) (role : String)
    (pairs : List (String × List Char)) : Except BindFault
      (InsertionDict String (List Char) × Option (DiodeDerivation (List Char))) := do
  let supplied ← validatedExtendedParameters arithmetic pairs
  if role = "diode.core" then
    deriveDiodeGeometry (bindingArithmetic arithmetic) (table.parameterNames.map Prod.fst) supplied
  else .ok (supplied, none)

/-- The parameters of `rewrite_device_card` in a role. -/
def extendedParameters (binding : BindingParameters) (role : String) (card : CardMatch) :
    Except BindFault RewrittenParameters := do
  let table := (binding.deviceCards.lookup role).getD ⟨[], [], [], []⟩
  let (supplied, _) ← suppliedParameters arithmetic table role (authoredParameters cases card)
  let emitted ← supplied.entries.mapM (extendedParameter arithmetic table binding.geometryScale)
  .ok ⟨emitted.filterMap id, droppedKeys table supplied.entries⟩

def RewrittenParameters.shown (parameters : RewrittenParameters) : CardParameters :=
  ⟨parameters.emitted.flatMap EmittedParameter.tokens, parameters.dropped⟩

def bindingRules : ParameterRules where
  isSpiceNumber token := (parseSpiceNumber arithmetic token).toOption.isSome
  mos binding role card :=
    (mosParameters cases arithmetic (parametersOf binding) role card).map RewrittenParameters.shown
  extended binding role card :=
    (extendedParameters cases arithmetic (parametersOf binding) role card).map
      RewrittenParameters.shown

end Rewriting

end OpenADA.Pdk
