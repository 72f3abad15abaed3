import Syscape.CupsRequests
import Syscape.HttpFraming
import Syscape.NetworkStatistics
import Syscape.PrinterConf
import Syscape.NaturalOrder
import Syscape.LinuxFile

/-!
# The printers of a Linux system

`query_printer_snapshot` asks the print daemon, or reads the configuration when there is no
daemon, adds the USB printers that these do not have, marks the default printer, and sorts the
list. The other queries take what they return from such a snapshot.
-/
namespace Syscape.Printer
open Checked Text Ipp LinuxFile Network StdSort

section Identity

/-- `hex_value`; no value is its `-1`. -/
def hexValue (c : UInt8) : Option ℕ :=
  if 0x30 ≤ c ∧ c ≤ 0x39 then some (c.toNat - 0x30)
  else if 0x61 ≤ c ∧ c ≤ 0x66 then some (c.toNat - 0x61 + 10)
  else if 0x41 ≤ c ∧ c ≤ 0x46 then some (c.toNat - 0x41 + 10)
  else none

/-- The byte that a percent sign and two digits stand for. -/
def percentByte (c h l : UInt8) : Option UInt8 :=
  if c = 0x25 then
    match hexValue h, hexValue l with
    | some high, some low => some (UInt8.ofNat (high <<< 4 ||| low))
    | _, _ => none
  else none

/-- What a byte adds to the identity. -/
def identityByte (b : UInt8) : List UInt8 :=
  if (0x61 ≤ b ∧ b ≤ 0x7A) ∨ (0x30 ≤ b ∧ b ≤ 0x39) ∨ 0x80 ≤ b then [b]
  else if 0x41 ≤ b ∧ b ≤ 0x5A then [b - 0x41 + 0x61]
  else []

/-- The loop in `normalized_printer_identity`. -/
def identityBytes : List UInt8 → List UInt8
  | [] => []
  | c :: h :: l :: rest =>
    match percentByte c h l with
    | some b => identityByte b ++ identityBytes rest
    | none => identityByte c ++ identityBytes (h :: l :: rest)
  | c :: rest => identityByte c ++ identityBytes rest

/-- `normalized_printer_identity`. -/
def normalizedPrinterIdentity (text : List UInt8) : List UInt8 :=
  let text := if startsWithIgnoreCase text (ascii "usb://") then text.drop 6 else text
  identityBytes (text.takeWhile (· ≠ 0x3F))

end Identity

section Merging

/-- The test for an item in `merge_usb_printers`. -/
def isDuplicate (usb item : PrinterInfo) : Bool :=
  let usbIdentity := normalizedPrinterIdentity usb.name
  let matchingIdentity := usbIdentity ≠ [] ∧
    (normalizedPrinterIdentity item.id = usbIdentity ∨
      normalizedPrinterIdentity item.name = usbIdentity ∨
      (startsWithIgnoreCase item.uri (ascii "usb://") ∧
        normalizedPrinterIdentity item.uri = usbIdentity))
  item.id = usb.id ∨ (usb.uri ≠ [] ∧ item.uri = usb.uri) ∨
    ((startsWithIgnoreCase item.uri (ascii "usb://") ∨ item.type = .localPrinter) ∧
      (matchingIdentity ∨ (usb.name ≠ [] ∧ equalsIgnoreCase item.name usb.name) ∨
        (usb.driverName ≠ [] ∧ equalsIgnoreCase item.driverName usb.driverName)))

/-- The body of the loop in `merge_usb_printers`. -/
def mergeUsbPrinter (list : List PrinterInfo) (usb : PrinterInfo) : List PrinterInfo :=
  if list.any (isDuplicate usb) then list else list ++ [usb]

/-- `merge_usb_printers`. -/
def mergeUsbPrinters (list usbList : List PrinterInfo) : List PrinterInfo :=
  usbList.foldl mergeUsbPrinter list

end Merging

section Discovery

/-- `ENOTDIR`. -/
def enotdir : ℤ := 20

/-- What `stat` reports of a device node. -/
inductive NodeStatus where
  | fails (errno : ℤ)
  | characterDevice
  | other
  deriving DecidableEq, Repr

/-- What `opendir` and the calls of `readdir` report: the names, and the error that ends them if
there is one. -/
inductive UsbDirectory where
  | openFails (errno : ℤ)
  | listing (names : List Path) (readError : Option ℤ)
  deriving DecidableEq, Repr

/-- What the queries see of the system: the environment, the daemon's answer to a request, the
files, the directory of USB printers and their device nodes. -/
structure PrintSystem where
  getenv : List UInt8 → Option (List UInt8)
  daemon : List UInt8 → Result (List UInt8)
  files : FileSystem
  usbmisc : UsbDirectory
  nodes : Path → NodeStatus

/-- `lp` and digits behind it. -/
def isPrinterNode (name : Path) : Bool :=
  2 < name.length ∧ name.take 2 = ascii "lp" ∧
    (name.drop 2).all fun c => decide (0x30 ≤ c ∧ c ≤ 0x39)

/-- The node of a printer as its `uri`. -/
def nodeUri (m : PrintSystem) (deviceNode : Path) : Result (List UInt8) :=
  match m.nodes deviceNode with
  | .characterDevice => .ok deviceNode
  | .other => .ok []
  | .fails errno => if errno ≠ enoent ∧ errno ≠ enotdir then failErrno errno else .ok []

/-- A text of the USB device, unless there is no such file. -/
def readDeviceText (m : PrintSystem) (path : Path) : Result (Option (List UInt8)) :=
  match readTextFile m.files path (1024 * 1024) with
  | .ok text => .ok (some text)
  | .error f => if isNoSuchFile f then .ok none else .error f

/-- `full_name`. -/
def fullName (vendor product : Option (List UInt8)) : Result (List UInt8) := do
  let name ←
    match vendor with
    | none => .ok []
    | some vendor => validateUtf8 (trimLineEnd vendor)
  match product with
  | none => .ok name
  | some product =>
    let prodStr ← validateUtf8 (trimLineEnd product)
    .ok ((if name ≠ [] ∧ prodStr ≠ [] then name ++ ascii " " else name) ++ prodStr)

/-- The body of the loop in `discover_sysfs_usb_printers`, for a printer. -/
def usbPrinter (m : PrintSystem) (name : Path) : Result PrinterInfo := do
  let uri ← nodeUri m (ascii "/dev/usb/" ++ name)
  let devPath := ascii "/sys/class/usbmisc/" ++ name ++ ascii "/device"
  let vendor := readDeviceText m (devPath ++ ascii "/../manufacturer")
  let product := readDeviceText m (devPath ++ ascii "/../product")
  let vendor ← vendor
  let product ← product
  let full ← fullName vendor product
  .ok
    { id := name
      name := if full ≠ [] then full else name
      driverName := full
      type := .localPrinter
      uri := uri }

/-- `discover_sysfs_usb_printers`. -/
def discoverSysfsUsbPrinters (m : PrintSystem) : Result (List PrinterInfo) :=
  match m.usbmisc with
  | .openFails errno => if errno = enoent ∨ errno = enotdir then .ok [] else failErrno errno
  | .listing names readError => do
    let found ← (names.filter isPrinterNode).mapM (usbPrinter m)
    match readError with
    | none => .ok found
    | some errno => failErrno errno

end Discovery

section Snapshot

/-- A variable that is set and not empty. -/
def nonEmptyVariable (m : PrintSystem) (name : List UInt8) : Option (List UInt8) :=
  (m.getenv name).filter (· ≠ [])

/-- `environment_default_printer`. -/
def environmentDefaultPrinter (m : PrintSystem) : Result (Option (List UInt8)) :=
  match (nonEmptyVariable m (ascii "LPDEST")).or (nonEmptyVariable m (ascii "PRINTER")) with
  | none => .ok none
  | some value => do
    let validated ← validateUtf8 value
    .ok (some validated)

/-- `set_default_by_name`. -/
def setDefaultByName (printers : List PrinterInfo) (name : List UInt8) : List PrinterInfo :=
  printers.map fun item => { item with isDefault := some (item.id = name ∨ item.name = name) }

/-- `marked_default_printer`. -/
def markedDefaultPrinter (printers : List PrinterInfo) : Result PrinterInfo :=
  match printers.find? fun item => item.isDefault.getD false with
  | some item => .ok item
  | none => fail .notFound

/-- `resolve_snapshot_default`. -/
def resolveSnapshotDefault (printers : List PrinterInfo) (defaultKnown : Bool)
    (defaultError : Option (Fault ErrorCode)) : Result PrinterInfo :=
  if printers = [] then fail .notFound
  else
    match markedDefaultPrinter printers with
    | .ok selected => .ok selected
    | .error _ =>
      match defaultError with
      | some e => .error e
      | none => if !defaultKnown then fail .notSupported else fail .notFound

/-- `printer_snapshot`. -/
structure PrinterSnapshot where
  items : List PrinterInfo := []
  defaultError : Option (Fault ErrorCode) := none
  defaultKnown : Bool := false
  defaultName : List UInt8 := []
  deriving DecidableEq

/-- The error code compares equal to `errc::not_supported`. -/
def isNotSupported (f : Fault ErrorCode) : Bool := f = .fail (.syscape .notSupported)

/-- The error code compares equal to `errc::not_found`. -/
def isNotFound (f : Fault ErrorCode) : Bool := f = .fail (.syscape .notFound)

/-- What the daemon tells of the default printer. -/
def askDefault (m : PrintSystem) (snapshot : PrinterSnapshot) : PrinterSnapshot :=
  match m.daemon (buildGetDefaultRequest 1) with
  | .error e =>
    let e := if isNotSupported e then .fail (.syscape .temporarilyUnavailable) else e
    { snapshot with defaultError := some e }
  | .ok body =>
    match parseIppPrintersResponse body with
    | .error e =>
      if isNotFound e then { snapshot with defaultKnown := true }
      else { snapshot with defaultError := some e }
    | .ok [] => { snapshot with defaultKnown := true }
    | .ok (p :: _) => { snapshot with defaultKnown := true, defaultName := p.name }

/-- What the configuration tells of the default printer. -/
def confDefault (items : List PrinterInfo) (snapshot : PrinterSnapshot) : PrinterSnapshot :=
  match items.find? fun item => item.isDefault.getD false with
  | some item => { snapshot with defaultKnown := true, defaultName := item.name }
  | none => { snapshot with defaultKnown := true }

/-- The printers of the configuration, for a system without a daemon. -/
def readConfiguration (m : PrintSystem) (environmentDefault : Option (List UInt8))
    (snapshot : PrinterSnapshot) : Result PrinterSnapshot :=
  match readTextFile m.files (ascii "/etc/cups/printers.conf") (1024 * 1024) with
  | .error f => if isNoSuchFile f then .ok snapshot else .error f
  | .ok text => do
    let parsed ← parseCupsPrintersConf text
    let snapshot := { snapshot with items := parsed }
    .ok (if environmentDefault.isSome then snapshot else confDefault parsed snapshot)

/-- The printers of the daemon, or else of the configuration. -/
def queueSnapshot (m : PrintSystem) (environmentDefault : Option (List UInt8))
    (snapshot : PrinterSnapshot) : Result PrinterSnapshot :=
  match m.daemon (buildGetPrintersRequest 1) with
  | .ok body => do
    let parsed ← parseIppPrintersResponse body
    let snapshot := { snapshot with items := parsed }
    .ok (if environmentDefault.isSome then snapshot else askDefault m snapshot)
  | .error e =>
    if isNotSupported e then readConfiguration m environmentDefault snapshot else .error e

/-- How printers are sorted. -/
def nameLess (signed : Bool) (a b : PrinterInfo) : Bool := naturalLess signed a.name b.name

variable {signed : Bool} (sorter : Sorter (nameLess signed))

/-- `query_printer_snapshot`. -/
def queryPrinterSnapshot (m : PrintSystem) : Result PrinterSnapshot := do
  let environmentDefault ← environmentDefaultPrinter m
  let snapshot : PrinterSnapshot :=
    match environmentDefault with
    | none => {}
    | some name => { defaultKnown := true, defaultName := name }
  let snapshot ← queueSnapshot m environmentDefault snapshot
  let usbList ← discoverSysfsUsbPrinters m
  let items := mergeUsbPrinters snapshot.items usbList
  let items :=
    if snapshot.defaultKnown then setDefaultByName items snapshot.defaultName else items
  .ok { snapshot with items := sorter.sort items }

/-- `printers`. -/
def printers (m : PrintSystem) : Result (List PrinterInfo) := do
  let snapshot ← queryPrinterSnapshot sorter m
  .ok snapshot.items

/-- `printer_count`. -/
def printerCount (m : PrintSystem) : Result ℕ := do
  let list ← printers sorter m
  .ok list.length

/-- `default_printer`. -/
def defaultPrinter (m : PrintSystem) : Result PrinterInfo := do
  let snapshot ← queryPrinterSnapshot sorter m
  resolveSnapshotDefault snapshot.items snapshot.defaultKnown snapshot.defaultError

/-- `find_printer`. -/
def findPrinter (m : PrintSystem) (nameOrId : List UInt8) : Result PrinterInfo := do
  let list ← printers sorter m
  match list.find? fun item => item.id = nameOrId ∨ item.name = nameOrId with
  | some item => .ok item
  | none =>
    match list.find? fun item =>
        equalsIgnoreCase item.id nameOrId ∨ equalsIgnoreCase item.name nameOrId with
    | some item => .ok item
    | none => fail .notFound

end Snapshot

end Syscape.Printer
