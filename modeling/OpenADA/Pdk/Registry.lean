import OpenADA.Pdk.Snapshot

/-! The registered PDK profiles, the device roles and the alias table derived from them. Of a
profile only what the device vocabulary and the library gating read is kept. -/
namespace OpenADA.Pdk

open PyText

/-- `DEVICE_ROLES`. -/
def deviceRoles : List String :=
  ["nmos.core", "pmos.core", "nmos.svt", "pmos.svt", "nmos.lvt", "pmos.lvt", "nmos.hvt", "pmos.hvt",
    "nmos.io", "pmos.io"]

/-- `canonical_role`. -/
def canonicalRole (role : String) : String :=
  if role = "nmos.svt" then "nmos.core" else if role = "pmos.svt" then "pmos.core" else role

/-- `EXTENDED_DEVICE_ROLES`. -/
def extendedDeviceRoles : List String :=
  ["diode.core", "bjt.npn", "bjt.pnp", "resistor.poly", "cap.mim"]

/-- What an extended card may be: its letter, its node count and its roles. -/
structure ExtendedCard where
  letter : Char
  nodes : ℕ
  roles : List String

/-- `_EXTENDED_CARD_NODES` and `_EXTENDED_CARD_ROLES`. -/
def extendedCards : List ExtendedCard :=
  [⟨'d', 2, ["diode.core"]⟩, ⟨'q', 4, ["bjt.npn", "bjt.pnp"]⟩, ⟨'r', 3, ["resistor.poly"]⟩,
    ⟨'c', 2, ["cap.mim"]⟩]

/-- `PdkDeviceCard`: the model, whether it is a subcircuit, and how many nodes it takes. -/
structure DeviceCard where
  model : String
  subckt : Bool
  emitNodes : Option ℕ

/-- `PdkBinding`. -/
structure Profile where
  pdkId : String
  analog : Bool
  devicePrefix : Char
  deviceModels : List (String × String)
  deviceCards : List (String × DeviceCard)
  libraryEntries : List LibraryEntry

def cornerSection : Option String := some "\x7bcorner\x7d"

/-- `IHP_SG13G2`. -/
def ihpSg13g2 : Profile where
  pdkId := "ihp-sg13g2"
  analog := true
  devicePrefix := 'x'
  deviceModels :=
    [("nmos.core", "sg13_lv_nmos"), ("pmos.core", "sg13_lv_pmos"), ("nmos.io", "sg13_hv_nmos"),
      ("pmos.io", "sg13_hv_pmos"), ("diode.core", "dantenna"), ("bjt.npn", "npn13G2"),
      ("bjt.pnp", "pnpMPA"), ("resistor.poly", "rppd"), ("cap.mim", "cap_cmim")]
  deviceCards :=
    [("diode.core", ⟨"dantenna", true, none⟩), ("bjt.npn", ⟨"npn13G2", true, none⟩),
      ("bjt.pnp", ⟨"pnpMPA", true, some 3⟩), ("resistor.poly", ⟨"rppd", true, none⟩),
      ("cap.mim", ⟨"cap_cmim", true, none⟩)]
  libraryEntries :=
    [⟨"libs.tech/ngspice/models/cornerMOSlv.lib", .lib, cornerSection, []⟩,
      ⟨"libs.tech/ngspice/models/cornerMOShv.lib", .lib, cornerSection, []⟩,
      ⟨"libs.tech/ngspice/models/cornerRES.lib", .lib, some "res_typ", ["resistor.poly"]⟩,
      ⟨"libs.tech/ngspice/models/cornerCAP.lib", .lib, some "cap_typ", ["cap.mim"]⟩,
      ⟨"libs.tech/ngspice/models/cornerHBT.lib", .lib, some "hbt_typ", ["bjt.npn", "bjt.pnp"]⟩,
      ⟨"libs.tech/ngspice/models/diodes.lib", .include, none, ["diode.core"]⟩]

/-- `SKY130A`. -/
def sky130A : Profile where
  pdkId := "sky130A"
  analog := true
  devicePrefix := 'x'
  deviceModels :=
    [("nmos.core", "sky130_fd_pr__nfet_01v8"), ("pmos.core", "sky130_fd_pr__pfet_01v8"),
      ("nmos.lvt", "sky130_fd_pr__nfet_01v8_lvt"), ("pmos.lvt", "sky130_fd_pr__pfet_01v8_lvt"),
      ("pmos.hvt", "sky130_fd_pr__pfet_01v8_hvt"), ("nmos.io", "sky130_fd_pr__nfet_g5v0d10v5"),
      ("pmos.io", "sky130_fd_pr__pfet_g5v0d10v5"), ("diode.core", "sky130_fd_pr__diode_pw2nd_05v5"),
      ("bjt.npn", "sky130_fd_pr__npn_05v5_W1p00L1p00"),
      ("bjt.pnp", "sky130_fd_pr__pnp_05v5_W0p68L0p68"),
      ("resistor.poly", "sky130_fd_pr__res_high_po"), ("cap.mim", "sky130_fd_pr__cap_mim_m3_1")]
  deviceCards :=
    [("diode.core", ⟨"sky130_fd_pr__diode_pw2nd_05v5", false, none⟩),
      ("bjt.npn", ⟨"sky130_fd_pr__npn_05v5_W1p00L1p00", true, none⟩),
      ("bjt.pnp", ⟨"sky130_fd_pr__pnp_05v5_W0p68L0p68", true, some 3⟩),
      ("resistor.poly", ⟨"sky130_fd_pr__res_high_po", true, none⟩),
      ("cap.mim", ⟨"sky130_fd_pr__cap_mim_m3_1", true, none⟩)]
  libraryEntries := [⟨"libs.tech/ngspice/sky130.lib.spice", .lib, cornerSection, []⟩]

/-- `GF180MCUD`. -/
def gf180mcuD : Profile where
  pdkId := "gf180mcuD"
  analog := true
  devicePrefix := 'x'
  deviceModels :=
    [("nmos.core", "nfet_03v3"), ("pmos.core", "pfet_03v3"), ("nmos.io", "nfet_06v0"),
      ("pmos.io", "pfet_06v0"), ("diode.core", "diode_nd2ps_03v3"), ("bjt.npn", "npn_10p00x10p00"),
      ("bjt.pnp", "pnp_10p00x10p00"), ("resistor.poly", "ppolyf_u"),
      ("cap.mim", "cap_mim_2f0_m2m3_noshield")]
  deviceCards :=
    [("diode.core", ⟨"diode_nd2ps_03v3", false, none⟩), ("bjt.npn", ⟨"npn_10p00x10p00", true, none⟩),
      ("bjt.pnp", ⟨"pnp_10p00x10p00", true, some 3⟩), ("resistor.poly", ⟨"ppolyf_u", true, none⟩),
      ("cap.mim", ⟨"cap_mim_2f0_m2m3_noshield", true, none⟩)]
  libraryEntries :=
    [⟨"libs.tech/ngspice/design.ngspice", .include, none, []⟩,
      ⟨"libs.tech/ngspice/sm141064.ngspice", .lib, cornerSection, []⟩,
      ⟨"libs.tech/ngspice/sm141064.ngspice", .lib, some "diode_typical", ["diode.core"]⟩,
      ⟨"libs.tech/ngspice/sm141064.ngspice", .lib, some "bjt_typical", ["bjt.npn", "bjt.pnp"]⟩,
      ⟨"libs.tech/ngspice/sm141064.ngspice", .lib, some "res_typical", ["resistor.poly"]⟩,
      ⟨"libs.tech/ngspice/sm141064.ngspice", .lib, some "mimcap_typical", ["cap.mim"]⟩]

/-- `FREEPDK45`. -/
def freepdk45 : Profile where
  pdkId := "freepdk45"
  analog := true
  devicePrefix := 'm'
  deviceModels :=
    [("nmos.core", "NMOS_VTG"), ("pmos.core", "PMOS_VTG"), ("nmos.lvt", "NMOS_VTL"),
      ("pmos.lvt", "PMOS_VTL"), ("nmos.hvt", "NMOS_VTH"), ("pmos.hvt", "PMOS_VTH"),
      ("nmos.io", "NMOS_THKOX"), ("pmos.io", "PMOS_THKOX")]
  deviceCards := []
  libraryEntries :=
    ["NMOS_VTG", "PMOS_VTG", "NMOS_VTL", "PMOS_VTL", "NMOS_VTH", "PMOS_VTH", "NMOS_THKOX",
      "PMOS_THKOX"].map fun name =>
      ⟨"ncsu_basekit/models/hspice/tran_models/models_\x7bcorner\x7d/" ++ name ++ ".inc", .include,
        none, []⟩

/-- `_digital_only`. -/
def digitalOnly (pdkId : String) : Profile where
  pdkId := pdkId
  analog := false
  devicePrefix := 'm'
  deviceModels := []
  deviceCards := []
  libraryEntries := []

/-- `REGISTRY`. -/
def registry : List Profile :=
  [ihpSg13g2, sky130A, gf180mcuD, freepdk45, digitalOnly "asap7", digitalOnly "nangate45",
    digitalOnly "gt2n"]

inductive BindFault where
  | deckUnresolved
  | familyMissing
  | deckEmpty
  | deviceUnbindable
  | modelUnavailable
  | modelUnknown
  | aliasAmbiguous
  /-- A refusal of the parameters of a card, of the raw name or of the requested vectors. -/
  | request (code : String)
  deriving DecidableEq

/-- `str.lower` of a registered name; the registry is written in ASCII. -/
def lowerName (name : String) : String := String.ofList (name.toList.map Char.toLower)

/-- One model name of `device_role_index`. -/
def indexModel (index : InsertionDict String String) (entry : String × String) :
    Except BindFault (InsertionDict String String) :=
  if (index.get? (lowerName entry.2)).any fun existing => decide (existing ≠ entry.1) then
    .error .aliasAmbiguous
  else .ok (index.set (lowerName entry.2) entry.1)

/-- `device_role_index`. -/
def deviceRoleIndex : Except BindFault (InsertionDict String String) :=
  (registry.flatMap Profile.deviceModels).foldlM indexModel .empty

/-- `_extended_family_tokens`. -/
def extendedFamilyTokens : Except BindFault (InsertionDict String String) := do
  let index ← deviceRoleIndex
  .ok ((index.entries.filter fun entry => decide (entry.2 ∈ extendedDeviceRoles)).foldl
    (fun tokens entry => tokens.set entry.1 entry.2)
    (.ofList (extendedDeviceRoles.map fun role => (role, role))))

end OpenADA.Pdk
