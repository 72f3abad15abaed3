import Syscape.LinuxFile
import Syscape.Numbers
import Syscape.Lib.StdSort
import Mathlib.Data.List.Lex
import Mathlib.Data.Rat.Init

/-!
# Batteries and power sources

The kernel has a directory for each power supply, with one file for each attribute that
the supply has. Three queries walk over these directories: the list of the batteries, the
list of the other supplies, and the question whether one of those is online.
-/
namespace Syscape.Power
open Checked Text LinuxFile Numbers StdSort

section Values

/-- The blanks of `trim_attribute`. -/
def isBlank (letter : UInt8) : Bool :=
  letter == 0x20 || letter == 0x09 || letter == 0x0D || letter == 0x0A

/-- `trim_attribute`. -/
def trimAttribute (value : List UInt8) : List UInt8 :=
  (value.dropWhile isBlank).rdropWhile isBlank

/-- `supply_class`. -/
inductive SupplyClass where
  | battery
  | externalSource
  deriving DecidableEq, Repr

/-- `battery_condition`. -/
inductive BatteryCondition where
  | unknown
  | charging
  | discharging
  | notCharging
  | full
  deriving DecidableEq, Repr

/-- `battery_health`. -/
inductive BatteryHealth where
  | unknown
  | good
  | overheat
  | dead
  | overVoltage
  | underVoltage
  | blownFuse
  | cellImbalance
  | unspecifiedFailure
  | cold
  | warm
  | cool
  | hot
  deriving DecidableEq, Repr

/-- `battery_technology`. -/
inductive BatteryTechnology where
  | unknown
  | lithiumIon
  | lithiumPolymer
  | nickelMetalHydride
  | nickelCadmium
  | leadAcid
  | other
  deriving DecidableEq, Repr

/-- `power_source_type`. -/
inductive PowerSourceType where
  | unknown
  | mains
  | usb
  | usbPd
  | wireless
  | ups
  | other
  deriving DecidableEq, Repr

/-- The first entry of a table that lists the trimmed text. -/
def lookUp {α : Type} (table : List (List String × α)) (value : List UInt8) : Option α :=
  (table.find? fun entry => value ∈ entry.1.map ascii).map Prod.snd

/-- `parse_status`. -/
def parseStatus (input : List UInt8) : Result BatteryCondition :=
  match lookUp [(["Charging"], .charging), (["Discharging"], .discharging),
    (["Not charging"], .notCharging), (["Full"], .full), (["Unknown"], .unknown)]
    (trimAttribute input) with
  | some condition => .ok condition
  | none => fail .malformedData

/-- `parse_health`. -/
def parseHealth (input : List UInt8) : Result BatteryHealth :=
  match lookUp [(["Good"], .good), (["Overheat", "Over heat"], .overheat), (["Dead"], .dead),
    (["Over voltage", "Overvoltage"], .overVoltage),
    (["Under voltage", "Undervoltage"], .underVoltage), (["Blown fuse"], .blownFuse),
    (["Cell imbalance"], .cellImbalance),
    (["Unspecified failure", "Safety timer expire", "Watchdog timer expire",
      "Calibration required", "Over current"], .unspecifiedFailure),
    (["Cold"], .cold), (["Warm"], .warm), (["Cool"], .cool), (["Hot"], .hot),
    (["Unknown", "No battery"], .unknown)] (trimAttribute input) with
  | some health => .ok health
  | none => fail .malformedData

/-- `parse_technology`. -/
def parseTechnology (input : List UInt8) : Result BatteryTechnology :=
  let value := trimAttribute input
  match lookUp [(["Li-ion", "Li-Ion", "Lithium-ion"], .lithiumIon),
    (["Li-poly", "Li-Poly", "Li-Po", "Lithium-polymer"], .lithiumPolymer),
    (["NiMH", "Ni-MH"], .nickelMetalHydride), (["NiCd", "Ni-Cd"], .nickelCadmium),
    (["Lead-acid", "Pb-acid", "PbAc"], .leadAcid), (["Unknown"], .unknown)] value with
  | some technology => .ok technology
  | none => if value ≠ [] then .ok .other else fail .malformedData

/-- `parse_power_source_type`. -/
def parsePowerSourceType (input : List UInt8) : Result PowerSourceType :=
  let value := trimAttribute input
  if value = ascii "Mains" then .ok .mains
  else if value = ascii "USB" then .ok .usb
  else if value = ascii "Wireless" then .ok .wireless
  else if value = ascii "UPS" then .ok .ups
  else if value = ascii "Battery" then fail .malformedData
  else if value = ascii "Unknown" then .ok .unknown
  else if value ≠ [] then .ok .other
  else fail .malformedData

/-- The texts that stand for USB Power Delivery between brackets. -/
def usbPdTypes : List (List UInt8) :=
  [ascii "PD", ascii "PD_DRP", ascii "PD_PPS", ascii "USB_PD", ascii "USB_PD_DRP"]

/-- The position of a byte at or behind another position. -/
def findFrom (c : UInt8) (text : List UInt8) (start : ℕ) : Option ℕ :=
  ((text.drop start).idxOf? c).map (start + ·)

/-- `parse_usb_power_type`. -/
def parseUsbPowerType (usbTypeContent : List UInt8) : PowerSourceType :=
  let trimmed := trimAttribute usbTypeContent
  let unbracketed :=
    if trimmed ∈ usbPdTypes ∨ trimmed = ascii "USB-PD" then PowerSourceType.usbPd else .usb
  match trimmed.idxOf? 0x5B with
  | none => unbracketed
  | some openBracket =>
    match findFrom 0x5D trimmed openBracket with
    | none => unbracketed
    | some closeBracket =>
      if closeBracket > openBracket + 1 then
        let active := (trimmed.drop (openBracket + 1)).take (closeBracket - openBracket - 1)
        if active ∈ usbPdTypes then .usbPd else .usb
      else unbracketed

/-- `parse_u64`. -/
def parseU64 (input : List UInt8) : Result ℕ := wholeUnsigned uint64Max (trimAttribute input)

/-- `parse_cycle_count`. -/
def parseCycleCount (input : List UInt8) : Result ℕ :=
  wholeUnsigned uint64Max (trimAttribute input)

/-- `parse_i64`. -/
def parseI64 (input : List UInt8) : Result ℤ := wholeSigned 64 (trimAttribute input)

/-- `parse_temperature`, in degrees; every failure counts as malformed. It is the number that the
source approximates by a `double`. -/
def parseTemperature (input : List UInt8) : Result ℚ :=
  match wholeSigned 64 (trimAttribute input) with
  | .ok raw => .ok (raw / 10)
  | .error _ => fail .malformedData

/-- `parse_capacity_percent`; every failure counts as malformed. -/
def parseCapacityPercent (input : List UInt8) : Result ℕ :=
  match wholeUnsigned uint32Max (trimAttribute input) with
  | .ok percent => if percent > 100 then fail .malformedData else .ok percent
  | .error _ => fail .malformedData

/-- `parse_flag`. -/
def parseFlag (input : List UInt8) : Result Bool :=
  match lookUp [(["0"], false), (["1"], true)] (trimAttribute input) with
  | some flag => .ok flag
  | none => fail .malformedData

/-- `parse_online`. -/
def parseOnline (input : List UInt8) : Result Bool :=
  match lookUp [(["0"], false), (["1", "2"], true)] (trimAttribute input) with
  | some flag => .ok flag
  | none => fail .malformedData

/-- `classify_supply_type`. -/
def classifySupplyType (input : List UInt8) : Result SupplyClass :=
  let value := trimAttribute input
  if value = ascii "Battery" then .ok .battery
  else if value = ascii "Mains" ∨ value = ascii "UPS" ∨ value = ascii "USB" ∨
      value = ascii "Wireless" ∨ value = ascii "Unknown" then .ok .externalSource
  else fail .malformedData

end Values

section Attributes

/-- `power_supply_root`. -/
def powerSupplyRoot : Path := ascii "/sys/class/power_supply/"

def attributePath (entry attr : List UInt8) : Path :=
  powerSupplyRoot ++ entry ++ ascii "/" ++ attr

/-- `read_optional_attribute`: no value where there is no such file. -/
def readOptionalAttribute (fs : FileSystem) (entry attr : List UInt8) :
    Result (Option (List UInt8)) :=
  match readTextFile fs (attributePath entry attr) (1024 * 1024) with
  | .ok content => .ok (some content)
  | .error f => if f = .fail (.generic enoent) then .ok none else .error f

/-- An attribute that is parsed where it exists. -/
def optionalAttribute {α : Type} (fs : FileSystem) (entry : List UInt8) (attr : String)
    (parse : List UInt8 → Result α) : Result (Option α) := do
  match ← readOptionalAttribute fs entry (ascii attr) with
  | none => .ok none
  | some content =>
    let value ← parse content
    .ok (some value)

/-- An attribute in micro-units, reported in milli-units. -/
def optionalMilli (fs : FileSystem) (entry : List UInt8) (attr : String) :
    Result (Option ℕ) := do
  let value ← optionalAttribute fs entry attr parseU64
  .ok (value.map (· / 1000))

def optionalText (fs : FileSystem) (entry : List UInt8) (attr : String) :
    Result (List UInt8) := do
  let value ← optionalAttribute fs entry attr fun content => .ok (trimAttribute content)
  .ok (value.getD [])

end Attributes

section Collecting

/-- `battery_record`; a value and the flag that it exists are an optional value. The temperature
is the number that the source approximates by a `double`. -/
structure BatteryRecord where
  identifier : List UInt8
  present : Bool
  condition : BatteryCondition
  chargePercent : Option ℕ
  cycleCount : Option ℕ
  health : BatteryHealth
  technology : BatteryTechnology
  manufacturer : List UInt8
  modelName : List UInt8
  serialNumber : List UInt8
  healthPercent : Option ℕ
  energyDesignMwh : Option ℕ
  energyFullMwh : Option ℕ
  energyNowMwh : Option ℕ
  chargeDesignMah : Option ℕ
  chargeFullMah : Option ℕ
  chargeNowMah : Option ℕ
  voltageMillivolts : Option ℕ
  voltageMinDesignMillivolts : Option ℕ
  powerRateMilliwatts : Option ℤ
  temperatureCelsius : Option ℚ
  deriving DecidableEq

/-- The health of a battery: the ratio of its full capacity to the design, in percent. -/
def healthPercent (energyFull energyDesign chargeFull chargeDesign : Option ℕ) : Option ℕ :=
  let percent (full design : ℕ) : ℕ := full * 100 % 2 ^ 64 / design % 2 ^ 32
  match energyFull, energyDesign with
  | some full, some design =>
    if design > 0 then some (percent full design)
    else ofCharge percent
  | _, _ => ofCharge percent
where
  ofCharge (percent : ℕ → ℕ → ℕ) : Option ℕ :=
    match chargeFull, chargeDesign with
    | some full, some design => if design > 0 then some (percent full design) else none
    | _, _ => none

/-- The power that a battery takes in or gives off, negative while it discharges. -/
def powerRate (fs : FileSystem) (entry : List UInt8) (condition : BatteryCondition)
    (uvNow : ℕ) : Result (Option ℤ) := do
  match ← readOptionalAttribute fs entry (ascii "power_now") with
  | some content =>
    let rawUw ← parseI64 content
    let mw := rawUw.tdiv 1000
    if condition = .discharging then .ok (some (if mw < 0 then mw else -mw))
    else .ok (some (if mw < 0 then -mw else mw))
  | none =>
    match ← readOptionalAttribute fs entry (ascii "current_now") with
    | none => .ok none
    | some content =>
      if uvNow > 0 then do
        let rawUa ← parseI64 content
        -- the least number has no negative
        if rawUa = -(2 ^ 63) then .error .signedOverflow
        else
          let absUa := rawUa.natAbs
          let mw : ℤ := (absUa * uvNow % 2 ^ 64 / 1000000000 : ℕ)
          .ok (some (if condition = .discharging then -mw else mw))
      else .ok none

/-- `collect_battery`. -/
def collectBattery (fs : FileSystem) (entry : List UInt8) : Result (Option BatteryRecord) := do
  match ← optionalAttribute fs entry "type" classifySupplyType with
  | none => .ok none
  | some .externalSource => .ok none
  | some .battery =>
    let present ← optionalAttribute fs entry "present" parseFlag
    let condition := (← optionalAttribute fs entry "status" parseStatus).getD .unknown
    let health ← optionalAttribute fs entry "health" parseHealth
    let technology ← optionalAttribute fs entry "technology" parseTechnology
    let manufacturer ← optionalText fs entry "manufacturer"
    let modelName ← optionalText fs entry "model_name"
    let serialNumber ← optionalText fs entry "serial_number"
    let chargePercent ← optionalAttribute fs entry "capacity" parseCapacityPercent
    let cycleCount ← optionalAttribute fs entry "cycle_count" parseCycleCount
    let energyDesignMwh ← optionalMilli fs entry "energy_full_design"
    let energyFullMwh ← optionalMilli fs entry "energy_full"
    let energyNowMwh ← optionalMilli fs entry "energy_now"
    let chargeDesignMah ← optionalMilli fs entry "charge_full_design"
    let chargeFullMah ← optionalMilli fs entry "charge_full"
    let chargeNowMah ← optionalMilli fs entry "charge_now"
    let uvNow ← optionalAttribute fs entry "voltage_now" parseU64
    let voltageMinDesign ← optionalMilli fs entry "voltage_min_design"
    let powerRateMilliwatts ← powerRate fs entry condition (uvNow.getD 0)
    let temperatureCelsius ← optionalAttribute fs entry "temp" parseTemperature
    .ok (some {
      identifier := entry
      present := present.getD true
      condition
      chargePercent
      cycleCount := cycleCount.filter (· ≠ 0)
      health := health.getD .unknown
      technology := technology.getD .unknown
      manufacturer
      modelName
      serialNumber
      healthPercent := healthPercent energyFullMwh energyDesignMwh chargeFullMah chargeDesignMah
      energyDesignMwh
      energyFullMwh
      energyNowMwh
      chargeDesignMah
      chargeFullMah
      chargeNowMah
      voltageMillivolts := uvNow.map fun uv => uv / 1000 % 2 ^ 32
      voltageMinDesignMillivolts := voltageMinDesign.map (· % 2 ^ 32)
      powerRateMilliwatts
      temperatureCelsius })

/-- `power_source_record`; no query of this system sets the largest power. -/
structure PowerSourceRecord where
  identifier : List UInt8
  type : PowerSourceType
  online : Option Bool
  description : List UInt8
  maxVoltageMillivolts : Option ℕ
  deriving DecidableEq, Repr

/-- The type of a supply that is no battery, as `collect_power_source` decides it. -/
def sourceType (fs : FileSystem) (entry typeStr : List UInt8) : Result PowerSourceType :=
  if typeStr = ascii "Mains" then .ok .mains
  else if typeStr = ascii "UPS" then .ok .ups
  else if typeStr = ascii "Wireless" then .ok .wireless
  else if typeStr = ascii "USB" then do
    let usbType ← optionalAttribute fs entry "usb_type" fun content =>
      .ok (parseUsbPowerType content)
    .ok (usbType.getD .usb)
  else if typeStr = ascii "Unknown" then .ok .unknown
  else if typeStr ≠ [] then .ok .other
  else fail .malformedData

/-- `collect_power_source`. -/
def collectPowerSource (fs : FileSystem) (entry : List UInt8) :
    Result (Option PowerSourceRecord) := do
  match ← readOptionalAttribute fs entry (ascii "type") with
  | none => .ok none
  | some content =>
    let typeStr := trimAttribute content
    if typeStr = ascii "Battery" then .ok none
    else do
      let type ← sourceType fs entry typeStr
      let online ← optionalAttribute fs entry "online" parseOnline
      let description ← optionalText fs entry "model_name"
      let maxVoltage ← optionalMilli fs entry "voltage_max"
      .ok (some {
        identifier := entry
        type
        online
        description
        maxVoltageMillivolts := maxVoltage.map (· % 2 ^ 32) })

end Collecting

section Queries

/-- What `opendir` and a sequence of `readdir` calls report for the directory of the
supplies: opening fails, or the entries are listed, possibly with an error at the end. -/
inductive Supplies where
  | openFails (errno : ℤ)
  | listing (entries : List (List UInt8)) (readError : Option ℤ)
  deriving DecidableEq, Repr

/-- `walk_supplies`, with what the visits leave behind. -/
def walkSupplies {σ : Type} (supplies : Supplies) (visit : σ → List UInt8 → Result σ) (s : σ) :
    Result σ :=
  match supplies with
  | .openFails errno => if errno = enoent then .ok s else failErrno errno
  | .listing entries readError => do
    let s ← (entries.filter fun name => name.head? ≠ some 0x2E).foldlM visit s
    match readError with
    | none => .ok s
    | some errno => failErrno errno

/-- `operator<` of `std::string`, for the identifiers of two records. -/
def identifierLess {α : Type} (identifier : α → List UInt8) (left right : α) : Bool :=
  decide ((identifier left).map UInt8.toNat < (identifier right).map UInt8.toNat)

/-- `batteries`. -/
def batteries (sorter : Sorter (identifierLess BatteryRecord.identifier)) (fs : FileSystem)
    (supplies : Supplies) : Result (List BatteryRecord) := do
  let records ← walkSupplies supplies (fun records name => do
    let snapshot ← collectBattery fs name
    .ok (records ++ snapshot.toList)) []
  .ok (sorter.sort records)

/-- `power_sources`. -/
def powerSources (sorter : Sorter (identifierLess PowerSourceRecord.identifier))
    (fs : FileSystem) (supplies : Supplies) : Result (List PowerSourceRecord) := do
  let records ← walkSupplies supplies (fun records name => do
    let snapshot ← collectPowerSource fs name
    .ok (records ++ snapshot.toList)) []
  .ok (sorter.sort records)

/-- `external_presence`. -/
inductive ExternalPresence where
  | noEvidence
  | connected
  | disconnected
  deriving DecidableEq, Repr

/-- The two flags of `external_power_online`. -/
structure Evidence where
  sawConnected : Bool
  sawDisconnected : Bool
  deriving DecidableEq, Repr

/-- What one supply tells about external power. -/
def considerSupply (fs : FileSystem) (seen : Evidence) (entry : List UInt8) : Result Evidence := do
  match ← optionalAttribute fs entry "type" classifySupplyType with
  | none => .ok seen
  | some .externalSource =>
    match ← optionalAttribute fs entry "online" parseOnline with
    | none => .ok seen
    | some true => .ok { seen with sawConnected := true }
    | some false => .ok { seen with sawDisconnected := true }
  | some .battery =>
    match ← optionalAttribute fs entry "status" parseStatus with
    | some .discharging => .ok { seen with sawDisconnected := true }
    | _ => .ok seen

/-- `external_power_online`. -/
def externalPowerOnline (fs : FileSystem) (supplies : Supplies) : Result ExternalPresence := do
  let seen ← walkSupplies supplies (considerSupply fs) ⟨false, false⟩
  if seen.sawConnected then .ok .connected
  else if seen.sawDisconnected then .ok .disconnected
  else .ok .noEvidence

end Queries

end Syscape.Power
