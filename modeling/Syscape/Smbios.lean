import Syscape.Error
import Syscape.Lib.StdSort
import Mathlib.Algebra.Group.Nat.Defs

/-!
# Memory devices in an SMBIOS table

`parse_smbios_memory_devices` walks over the structures of a table. Each has a formatted
area of a given length and a set of strings that a double zero closes. Structures of
type 17 describe memory devices; type 127 ends the table. A pointer of the source is an
index into the table here, and every access through it is checked.
-/
namespace Syscape.Smbios
open Checked StdSort

/-- `memory_form_factor`. -/
inductive MemoryFormFactor where
  | unknown | other | simm | sip | chip | dip | zip | soj | proprietary | dimm | tsop
  | rowOfChips | rimm | sodimm | srimm | fbDimm | die | camm
  deriving DecidableEq, Repr

/-- `memory_type`. -/
inductive MemoryType where
  | unknown | other | dram | edram | vram | sram | ram | rom | flash | eeprom | feprom | eprom
  | cdram | threeDRam | sdram | sgram | rdram | ddr | ddr2 | ddr2FbDimm | ddr3 | fbd2 | ddr4
  | lpddr | lpddr2 | lpddr3 | lpddr4 | logicalNonVolatile | hbm | hbm2 | ddr5 | lpddr5 | hbm3
  deriving DecidableEq, Repr

/-- `memory_device_state`. -/
inductive MemoryDeviceState where
  | unknown
  | notInstalled
  | installed
  deriving DecidableEq, Repr

/-- The value of the enumerator. -/
def MemoryDeviceState.number : MemoryDeviceState → ℕ
  | .unknown => 0
  | .notInstalled => 1
  | .installed => 2

/-- `memory_speed_unit`. -/
inductive MemorySpeedUnit where
  | unknown
  | megahertz
  | megatransfersPerSecond
  deriving DecidableEq, Repr

/-- `memory_speed`. -/
structure MemorySpeed where
  value : ℕ
  unit : MemorySpeedUnit
  deriving DecidableEq, Repr

/-- `memory_device`. -/
structure MemoryDevice where
  locator : List UInt8
  bankLocator : Option (List UInt8)
  state : MemoryDeviceState
  sizeBytes : Option ℕ
  formFactor : MemoryFormFactor
  type : MemoryType
  speed : Option MemorySpeed
  configuredSpeed : Option MemorySpeed
  manufacturer : Option (List UInt8)
  serialNumber : Option (List UInt8)
  partNumber : Option (List UInt8)
  deriving DecidableEq, Repr

/-- `classify_memory_form_factor`. -/
def classifyMemoryFormFactor : ℕ → MemoryFormFactor
  | 0x01 => .other
  | 0x02 => .unknown
  | 0x03 => .simm
  | 0x04 => .sip
  | 0x05 => .chip
  | 0x06 => .dip
  | 0x07 => .zip
  | 0x08 => .soj
  | 0x09 => .proprietary
  | 0x0A => .dimm
  | 0x0B => .tsop
  | 0x0C => .rowOfChips
  | 0x0D => .rimm
  | 0x0E => .sodimm
  | 0x0F => .srimm
  | 0x10 => .fbDimm
  | 0x11 => .die
  | 0x12 => .camm
  | _ => .unknown

/-- `classify_memory_type`. -/
def classifyMemoryType : ℕ → MemoryType
  | 0x01 => .other
  | 0x02 => .unknown
  | 0x03 => .dram
  | 0x04 => .edram
  | 0x05 => .vram
  | 0x06 => .sram
  | 0x07 => .ram
  | 0x08 => .rom
  | 0x09 => .flash
  | 0x0A => .eeprom
  | 0x0B => .feprom
  | 0x0C => .eprom
  | 0x0D => .cdram
  | 0x0E => .threeDRam
  | 0x0F => .sdram
  | 0x10 => .sgram
  | 0x11 => .rdram
  | 0x12 => .ddr
  | 0x13 => .ddr2
  | 0x14 => .ddr2FbDimm
  | 0x18 => .ddr3
  | 0x19 => .fbd2
  | 0x1A => .ddr4
  | 0x1B => .lpddr
  | 0x1C => .lpddr2
  | 0x1D => .lpddr3
  | 0x1E => .lpddr4
  | 0x1F => .logicalNonVolatile
  | 0x20 => .hbm
  | 0x21 => .hbm2
  | 0x22 => .ddr5
  | 0x23 => .lpddr5
  | 0x24 => .hbm3
  | _ => .unknown

/-- `operator<` of `std::string`, which compares unsigned bytes. -/
def bytesLess (a b : List UInt8) : Bool := decide (a.map UInt8.toNat < b.map UInt8.toNat)

/-- `compare_memory_devices`. -/
def compareMemoryDevices : MemoryDevice → MemoryDevice → Bool :=
  fieldThen (·.locator) bytesLess <|
  fieldThen (·.bankLocator) (optionLess bytesLess) <|
  fieldThen (·.state) (fun a b => decide (a.number < b.number)) <|
  fieldThen (·.sizeBytes) (optionLess fun a b => decide (a < b)) <|
  fieldThen (·.manufacturer) (optionLess bytesLess) <|
  fieldThen (·.serialNumber) (optionLess bytesLess) <|
  fun a b => optionLess bytesLess a.partNumber b.partNumber

theorem strictTotal_bytesLess : StrictTotal bytesLess := by
  have hinj : Function.Injective (List.map UInt8.toNat) :=
    List.map_injective_iff.mpr fun _ _ h => UInt8.toNat_inj.mp h
  convert StrictTotal.of_injective hinj using 3 with a b
  exact decide_eq_decide.mpr Iff.rfl

theorem strictTotal_optionBytes : StrictTotal (optionLess bytesLess) :=
  strictTotal_bytesLess.option

theorem strictTotal_state :
    StrictTotal fun a b : MemoryDeviceState => decide (a.number < b.number) := by
  apply StrictTotal.of_injective
  intro a b h
  cases a <;> cases b <;> simp_all [MemoryDeviceState.number]

theorem strictTotal_size : StrictTotal (optionLess fun a b : ℕ => decide (a < b)) :=
  (StrictTotal.of_injective Function.injective_id).option

/-- The comparison is one that the standard sort may be given. -/
theorem strictWeak_compareMemoryDevices : StrictWeak compareMemoryDevices := by
  apply StrictWeak.fieldThen strictTotal_bytesLess
  apply StrictWeak.fieldThen strictTotal_optionBytes
  apply StrictWeak.fieldThen strictTotal_state
  apply StrictWeak.fieldThen strictTotal_size
  apply StrictWeak.fieldThen strictTotal_optionBytes
  apply StrictWeak.fieldThen strictTotal_optionBytes
  exact strictTotal_optionBytes.on _

/-- `structure_view`: where the formatted area and the strings begin, and their sizes. -/
structure StructureView where
  formatted : ℕ
  formattedSize : ℕ
  strings : ℕ
  stringsSize : ℕ
  deriving DecidableEq, Repr

/-- `read_le_u16`. -/
def readLeU16 (data : List UInt8) (value : ℕ) : Result ℕ := do
  let b0 ← readByte data value
  let b1 ← readByte data (value + 1)
  return b0 ||| (b1 <<< 8)

/-- `read_le_u32`. -/
def readLeU32 (data : List UInt8) (value : ℕ) : Result ℕ := do
  let b0 ← readByte data value
  let b1 ← readByte data (value + 1)
  let b2 ← readByte data (value + 2)
  let b3 ← readByte data (value + 3)
  return b0 ||| (b1 <<< 8) ||| (b2 <<< 16) ||| (b3 <<< 24)

/-- The inner loop of `extract_string`: the end of the string that an index is in. -/
def stringEnd (data : List UInt8) (view : StructureView) (i : ℕ) : Result { j : ℕ // i ≤ j } :=
  if i < view.stringsSize then do
    let b ← readByte data (view.strings + i)
    if b ≠ 0 then do
      let j ← stringEnd data view (i + 1)
      .ok ⟨j.1, Nat.le_of_succ_le j.2⟩
    else .ok ⟨i, le_rfl⟩
  else .ok ⟨i, le_rfl⟩
termination_by view.stringsSize - i

/-- The outer loop of `extract_string`, at the string with number `seen`. -/
def extractFrom (data : List UInt8) (view : StructureView) (index : UInt8) (start : ℕ)
    (seen : UInt8) : Result (Option (List UInt8)) :=
  if _h : start ≥ view.stringsSize then fail .malformedData
  else do
    let stop ← stringEnd data view start
    if seen = index then
      if stop.1 > start then do
        let bytes ← slice data (view.strings + start) (stop.1 - start)
        .ok (some bytes)
      else .ok none
    else if stop.1 ≥ view.stringsSize then fail .malformedData
    else extractFrom data view index (stop.1 + 1) (seen + 1)
termination_by view.stringsSize - start
decreasing_by
  have := stop.2
  omega

/-- `extract_string`; a string that is not present is `none`. -/
def extractString (data : List UInt8) (view : StructureView) (index : UInt8) :
    Result (Option (List UInt8)) :=
  if index = 0 then .ok none else extractFrom data view index 0 1

/-- The string whose index is at an offset of the formatted area, through `store_string`. -/
def storedString (data : List UInt8) (view : StructureView) (offset : ℕ) :
    Result (Option (List UInt8)) := do
  let index ← read data (view.formatted + offset)
  extractString data view index

/-- A string field that only structures of some size have. -/
def optionalString (data : List UInt8) (view : StructureView) (minSize offset : ℕ) :
    Result (Option (List UInt8)) :=
  if view.formattedSize ≥ minSize then storedString data view offset else .ok none

/-- The size field: the state and the bytes, from the extended size where it is needed. -/
def deviceSize (data : List UInt8) (view : StructureView) :
    Result (MemoryDeviceState × Option ℕ) := do
  let rawSize ← readLeU16 data (view.formatted + 0x0C)
  if rawSize = 0x0000 then .ok (.notInstalled, none)
  else if rawSize = 0xFFFF then .ok (.installed, none)
  else if rawSize = 0x7FFF then
    if view.formattedSize < 0x20 then fail .malformedData
    else do
      let extSize ← readLeU32 data (view.formatted + 0x1C)
      if extSize &&& 0x80000000 ≠ 0 ∨ extSize = 0 then fail .malformedData
      else .ok (.installed, some (extSize * 1024 * 1024))
  else if rawSize &&& 0x8000 ≠ 0 then
    let sizeKb := rawSize &&& 0x7FFF
    if sizeKb = 0 then fail .malformedData else .ok (.installed, some (sizeKb * 1024))
  else .ok (.installed, some (rawSize * 1024 * 1024))

/-- A speed field at an offset, with its extension for speeds that do not fit. -/
def deviceSpeed (data : List UInt8) (view : StructureView) (unit : MemorySpeedUnit)
    (minSize offset extMinSize extOffset : ℕ) : Result (Option MemorySpeed) :=
  if view.formattedSize ≥ minSize then do
    let speed ← readLeU16 data (view.formatted + offset)
    if speed ≠ 0 ∧ speed ≠ 0xFFFF then .ok (some ⟨speed, unit⟩)
    else if speed = 0xFFFF ∧ view.formattedSize ≥ extMinSize then do
      let extSpeed ← readLeU32 data (view.formatted + extOffset)
      if extSpeed &&& 0x80000000 ≠ 0 then fail .malformedData
      else if extSpeed ≠ 0 then .ok (some ⟨extSpeed, unit⟩)
      else .ok none
    else .ok none
  else .ok none

/-- The memory device of a structure of type 17. -/
def memoryDevice (data : List UInt8) (view : StructureView) (unit : MemorySpeedUnit) :
    Result MemoryDevice :=
  if view.formattedSize < 0x15 then fail .malformedData
  else do
    let locator ← storedString data view 0x10
    let bankLocator ← storedString data view 0x11
    let (state, sizeBytes) ← deviceSize data view
    let formFactor ← readByte data (view.formatted + 0x0E)
    let type ← readByte data (view.formatted + 0x12)
    let speed ← deviceSpeed data view unit 0x17 0x15 0x58 0x54
    let manufacturer ← optionalString data view 0x18 0x17
    let serialNumber ← optionalString data view 0x19 0x18
    let partNumber ← optionalString data view 0x1B 0x1A
    let configuredSpeed ← deviceSpeed data view unit 0x22 0x20 0x5C 0x58
    .ok
      { locator := locator.getD []
        bankLocator := bankLocator
        state := state
        sizeBytes := sizeBytes
        formFactor := classifyMemoryFormFactor formFactor
        type := classifyMemoryType type
        speed := speed
        configuredSpeed := configuredSpeed
        manufacturer := manufacturer
        serialNumber := serialNumber
        partNumber := partNumber }

/-- What a structure adds to the devices. -/
def appendDevice (data : List UInt8) (view : StructureView) (unit : MemorySpeedUnit) (type : ℕ)
    (devices : List MemoryDevice) : Result (List MemoryDevice) :=
  if type = 17 then do
    let dev ← memoryDevice data view unit
    .ok (devices ++ [dev])
  else .ok devices

/-- The scan for the double zero that closes a set of strings. -/
def scanDoubleNull (data : List UInt8) (scan : ℕ) : Result ℕ :=
  if scan + 1 < data.length then do
    let b0 ← readByte data scan
    if b0 = 0 then do
      let b1 ← readByte data (scan + 1)
      if b1 = 0 then .ok scan else scanDoubleNull data (scan + 1)
    else scanDoubleNull data (scan + 1)
  else .ok scan
termination_by data.length - scan

/-- The loop over the bytes behind the end of the table. -/
def checkPadding (data : List UInt8) (index : ℕ) : Result Unit :=
  if index < data.length then do
    let b ← readByte data index
    if b ≠ 0 then fail .malformedData else checkPadding data (index + 1)
  else .ok ()
termination_by data.length - index

/-- The loop over the structures. The size of the strings is a `std::uint32_t`. -/
def parseStructures (data : List UInt8) (unit : MemorySpeedUnit) (cursor : ℕ)
    (devices : List MemoryDevice) : Result (List MemoryDevice) :=
  if _hcursor : cursor < data.length then
    if data.length - cursor < 4 then fail .malformedData
    else do
      let type ← readByte data cursor
      let formattedSize ← readByte data (cursor + 1)
      if formattedSize < 4 ∨ formattedSize > data.length - cursor then fail .malformedData
      else do
        let stringsOffset := cursor + formattedSize
        let scan ← scanDoubleNull data stringsOffset
        if scan + 1 ≥ data.length then fail .malformedData
        else do
          let view : StructureView :=
            ⟨cursor, formattedSize, stringsOffset, (scan - stringsOffset) % 2 ^ 32⟩
          if type = 127 then
            if formattedSize ≠ 4 then fail .malformedData
            else do
              checkPadding data (scan + 2)
              .ok devices
          else do
            let devices ← appendDevice data view unit type devices
            parseStructures data unit (cursor + formattedSize + (scan - stringsOffset) % 2 ^ 32 + 2)
              devices
  else fail .malformedData
termination_by data.length - cursor

/-- `parse_smbios_memory_devices`, with the sort as a parameter. -/
def parseSmbiosMemoryDevices (sorter : Sorter compareMemoryDevices) (data : List UInt8)
    (unit : MemorySpeedUnit) : Result (List MemoryDevice) :=
  if data = [] then fail .malformedData
  else do
    let devices ← parseStructures data unit 0 []
    .ok (sorter.sort devices)

end Syscape.Smbios
