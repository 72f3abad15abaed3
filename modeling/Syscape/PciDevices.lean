import Syscape.LinuxFile
import Syscape.Numbers
import Syscape.Smbios
import Syscape.Lib.Paths

/-!
# PCI devices

The kernel lists the functions of the PCI bus as a directory of links whose names are their
addresses. The enumeration reads the attributes of each entry whose name it understands and
sorts the records by their addresses.
-/
namespace Syscape.Hardware
open Checked Text Numbers LinuxFile Paths StdSort
open Syscape.Smbios (bytesLess strictTotal_bytesLess)

section Records

/-- `pci_class`. -/
inductive PciClass where
  | unknown
  | unclassified
  | massStorage
  | networkController
  | displayController
  | multimediaController
  | memoryController
  | bridge
  | communicationController
  | genericSystemPeripheral
  | inputDeviceController
  | dockingStation
  | processor
  | serialBusController
  | wirelessController
  | intelligentController
  | satelliteCommunication
  | encryptionController
  | signalProcessingController
  | processingAccelerator
  | nonEssentialInstrumentation
  deriving DecidableEq, Repr

/-- `classify_pci_class`. -/
def classifyPciClass : ℕ → PciClass
  | 0x00 => .unclassified
  | 0x01 => .massStorage
  | 0x02 => .networkController
  | 0x03 => .displayController
  | 0x04 => .multimediaController
  | 0x05 => .memoryController
  | 0x06 => .bridge
  | 0x07 => .communicationController
  | 0x08 => .genericSystemPeripheral
  | 0x09 => .inputDeviceController
  | 0x0A => .dockingStation
  | 0x0B => .processor
  | 0x0C => .serialBusController
  | 0x0D => .wirelessController
  | 0x0E => .intelligentController
  | 0x0F => .satelliteCommunication
  | 0x10 => .encryptionController
  | 0x11 => .signalProcessingController
  | 0x12 => .processingAccelerator
  | 0x13 => .nonEssentialInstrumentation
  | _ => .unknown

/-- `pci_device`. -/
structure PciDevice where
  domain : Option ℕ := none
  bus : Option ℕ := none
  device : Option ℕ := none
  function : Option ℕ := none
  vendorId : ℕ := 0
  deviceId : ℕ := 0
  subsystemVendorId : Option ℕ := none
  subsystemDeviceId : Option ℕ := none
  classCode : Option ℕ := none
  subclassCode : Option ℕ := none
  programmingInterface : Option ℕ := none
  deviceClass : PciClass := .unknown
  driver : Option (List UInt8) := none
  slotName : Option (List UInt8) := none
  deriving DecidableEq, Repr

/-- `operator<` of two numbers. -/
def numberLess (a b : ℕ) : Bool := decide (a < b)

/-- `compare_pci_devices`. -/
def comparePciDevices : PciDevice → PciDevice → Bool :=
  fieldThen (·.domain) (optionLess numberLess) <|
  fieldThen (·.bus) (optionLess numberLess) <|
  fieldThen (·.device) (optionLess numberLess) <|
  fieldThen (·.function) (optionLess numberLess) <|
  fieldThen (·.vendorId) numberLess <|
  fieldThen (·.deviceId) numberLess <|
  fieldThen (·.subsystemVendorId) (optionLess numberLess) <|
  fieldThen (·.subsystemDeviceId) (optionLess numberLess) <|
  fieldThen (·.classCode) (optionLess numberLess) <|
  fieldThen (·.subclassCode) (optionLess numberLess) <|
  fieldThen (·.programmingInterface) (optionLess numberLess) <|
  fieldThen (·.driver) (optionLess bytesLess) <|
  fun a b => optionLess bytesLess a.slotName b.slotName

/-- The comparison is one that the standard sort may be given. -/
theorem strictWeak_comparePciDevices : StrictWeak comparePciDevices := by
  have hnumber : StrictTotal numberLess := StrictTotal.of_injective Function.injective_id
  have hoption : StrictTotal (optionLess numberLess) := hnumber.option
  have htext : StrictTotal (optionLess bytesLess) := strictTotal_bytesLess.option
  apply StrictWeak.fieldThen hoption
  apply StrictWeak.fieldThen hoption
  apply StrictWeak.fieldThen hoption
  apply StrictWeak.fieldThen hoption
  apply StrictWeak.fieldThen hnumber
  apply StrictWeak.fieldThen hnumber
  apply StrictWeak.fieldThen hoption
  apply StrictWeak.fieldThen hoption
  apply StrictWeak.fieldThen hoption
  apply StrictWeak.fieldThen hoption
  apply StrictWeak.fieldThen hoption
  apply StrictWeak.fieldThen htext
  exact htext.on _

end Records

section Texts

def attributeBlank (letter : UInt8) : Bool :=
  letter == 0x20 || letter == 0x09 || letter == 0x0D || letter == 0x0A

/-- `trim_attribute`. -/
def trimAttribute (value : List UInt8) : List UInt8 :=
  (value.dropWhile attributeBlank).rdropWhile attributeBlank

/-- `parse_hex_u32`. -/
def parseHexU32 (input : List UInt8) : Result ℕ :=
  let value := trimAttribute input
  let digits :=
    if ascii "0x" <+: value ∨ ascii "0X" <+: value then value.drop 2 else value
  match numberOf 16 uint32Max digits with
  | some parsed => .ok parsed
  | none => fail .malformedData

/-- The address of a function. -/
structure PciAddress where
  domain : ℕ
  bus : ℕ
  device : ℕ
  function : ℕ
  deriving DecidableEq, Repr

/-- A part of an address: a hexadecimal number that is not above the bound. -/
def bdfPart (bound : ℕ) (text : List UInt8) : Option ℕ :=
  match numberOf 16 uint32Max text with
  | some value => if value > bound then none else some value
  | none => none

/-- `parse_pci_bdf`. -/
def parsePciBdf (name : List UInt8) : Option PciAddress :=
  match name.idxOf? 0x3A with
  | none => none
  | some firstColon =>
    if firstColon = 0 then none
    else
      let behindDomain := name.drop (firstColon + 1)
      match behindDomain.idxOf? 0x3A with
      | none => none
      | some busLength =>
        let behindBus := behindDomain.drop (busLength + 1)
        match behindBus.idxOf? 0x2E with
        | none => none
        | some deviceLength => do
          let domain ← bdfPart 0xFFFF (name.take firstColon)
          let bus ← bdfPart 0xFF (behindDomain.take busLength)
          let device ← bdfPart 0x1F (behindBus.take deviceLength)
          let function ← bdfPart 0x07 (behindBus.drop (deviceLength + 1))
          some ⟨domain, bus, device, function⟩

end Texts

section Enumeration

def enodev : ℤ := 19

def enotdir : ℤ := 20

def einval : ℤ := 22

/-- What `opendir` and the calls of `readdir` report: the names, and the error that ends
them if there is one. -/
inductive PciDirectory where
  | openFails (errno : ℤ)
  | listing (names : List Path) (readError : Option ℤ)
  deriving DecidableEq, Repr

/-- The state of the system that an enumeration sees; a link is an error or its target. -/
structure PciBus where
  directory : PciDirectory
  files : FileSystem
  links : Path → Except ℤ (List UInt8)

/-- `device_attribute_disappeared`. -/
def deviceAttributeDisappeared : Fault ErrorCode → Bool
  | .fail (.generic errno) => errno == enoent || errno == enodev
  | _ => false

def pciDirPath : Path := ascii "/sys/bus/pci/devices"

/-- The path of an attribute of a listed function. -/
def attributePath (name file : List UInt8) : Path :=
  pciDirPath ++ ascii "/" ++ name ++ ascii "/" ++ file

/-- A number of the attribute; nothing where the attribute has disappeared. -/
def readHexAttribute (bus : PciBus) (path : Path) (bound : ℕ) : Result (Option ℕ) :=
  match readTextFile bus.files path (1024 * 1024) with
  | .ok content => do
    let value ← parseHexU32 content
    if value > bound then fail .malformedData else .ok (some value)
  | .error e => if deviceAttributeDisappeared e then .ok none else .error e

/-- The driver that the link names; the buffer has room for 1023 bytes. -/
def readDriver (bus : PciBus) (path : Path) : Result (Option (List UInt8)) :=
  match bus.links path with
  | .ok target =>
    let driverBuf := target.take 1023
    if driverBuf = [] then .ok none
    else if driverBuf.length = 1023 then fail .valueTooLarge
    else
      let linkView :=
        match rfind 0x2F driverBuf with
        | some lastSlash => driverBuf.drop (lastSlash + 1)
        | none => driverBuf
      .ok (if linkView = [] then none else some linkView)
  | .error errno =>
    if errno ≠ enoent ∧ errno ≠ enodev ∧ errno ≠ einval then failErrno errno else .ok none

/-- The body of the loop for one name; nothing where the entry is passed over. -/
def pciDevice (bus : PciBus) (name : Path) : Result (Option PciDevice) :=
  if name.head? = some 0x2E then .ok none
  else
    match parsePciBdf name with
    | none => .ok none
    | some address => do
      match ← readHexAttribute bus (attributePath name (ascii "vendor")) 0xFFFF with
      | none => .ok none
      | some vendorId =>
      match ← readHexAttribute bus (attributePath name (ascii "device")) 0xFFFF with
      | none => .ok none
      | some deviceId =>
      match ← readHexAttribute bus (attributePath name (ascii "class")) 0xFFFFFF with
      | none => .ok none
      | some classVal =>
      let baseClass := classVal / 2 ^ 16 % 2 ^ 8
      let subsystemVendorId ←
        readHexAttribute bus (attributePath name (ascii "subsystem_vendor")) 0xFFFF
      let subsystemDeviceId ←
        readHexAttribute bus (attributePath name (ascii "subsystem_device")) 0xFFFF
      let driver ← readDriver bus (attributePath name (ascii "driver"))
      .ok (some {
        domain := some address.domain
        bus := some address.bus
        device := some address.device
        function := some address.function
        vendorId
        deviceId
        classCode := some baseClass
        subclassCode := some (classVal / 2 ^ 8 % 2 ^ 8)
        programmingInterface := some (classVal % 2 ^ 8)
        deviceClass := classifyPciClass baseClass
        subsystemVendorId
        subsystemDeviceId
        driver })

/-- One turn of the loop. -/
def addPciDevice (bus : PciBus) (resultDevices : List PciDevice) (name : Path) :
    Result (List PciDevice) := do
  match ← pciDevice bus name with
  | none => .ok resultDevices
  | some dev => .ok (resultDevices ++ [dev])

/-- `pci_devices`. -/
def pciDevices (sorter : Sorter comparePciDevices) (bus : PciBus) : Result (List PciDevice) :=
  match bus.directory with
  | .openFails errno =>
    if errno = enoent ∨ errno = enotdir then fail .notSupported else failErrno errno
  | .listing names readError => do
    let resultDevices ← names.foldlM (addPciDevice bus) []
    match readError with
    | some errno => failErrno errno
    | none => .ok (sorter.sort resultDevices)

end Enumeration

end Syscape.Hardware
