import Syscape.Printer
import Syscape.Numbers
import Syscape.Lib.Lines

/-!
# Input devices

The records of the input module, and how a device is classified from its name, its handlers and
the bitmaps of its capabilities. Trimming and the search without regard to case are written as in
the printer module.
-/
namespace Syscape.Input
open Checked Text FromChars Numbers Utf8
open Syscape.Printer (isBlank trimWhitespace)

section Records

/-- `device_type`. -/
inductive DeviceType where
  | unknown
  | keyboard
  | mouse
  | touchpad
  | touchscreen
  | joystick
  | gamepad
  | drawingTablet
  | buttonOrSwitch
  deriving DecidableEq, Repr

/-- `bus_type`. -/
inductive BusType where
  | unknown
  | usb
  | bluetooth
  | pci
  | i2c
  | isaSerio
  | virtualBus
  deriving DecidableEq, Repr

/-- `input_device_id`. -/
structure InputDeviceId where
  bus : BusType := .unknown
  vendorId : ℕ := 0
  productId : ℕ := 0
  version : ℕ := 0
  deriving DecidableEq, Repr

/-- `input_device`. -/
structure InputDevice where
  id : List UInt8 := []
  name : List UInt8 := []
  type : DeviceType := .unknown
  bus : BusType := .unknown
  hardwareId : Option InputDeviceId := none
  physicalLocation : Option (List UInt8) := none
  sysfsPath : Option (List UInt8) := none
  uniqueId : Option (List UInt8) := none
  handlers : List (List UInt8) := []
  isIntegrated : Option Bool := none
  deriving DecidableEq, Repr

/-- `raw_input_entry`. -/
structure RawInputEntry where
  bus : ℕ := 0
  vendor : ℕ := 0
  product : ℕ := 0
  version : ℕ := 0
  name : List UInt8 := []
  phys : List UInt8 := []
  sysfs : List UInt8 := []
  uniq : List UInt8 := []
  handlers : List (List UInt8) := []
  propMask : List UInt8 := []
  evMask : List UInt8 := []
  keyMask : List UInt8 := []
  relMask : List UInt8 := []
  absMask : List UInt8 := []
  swMask : List UInt8 := []
  deriving DecidableEq, Repr

end Records

section Common

/-- `contains_ignore_case`. -/
def containsIgnoreCase (text needle : List UInt8) : Bool := Printer.containsIgnoreCase text needle

/-- `parse_hex_u16`. -/
def parseHexU16 (input : List UInt8) : Result ℕ :=
  let trimmed := trimWhitespace input
  if trimmed = [] then fail .malformedData
  else
    let res := fromChars 16 65535 trimmed
    if res.OutOfRange then fail .valueTooLarge
    else
      match res.value with
      | some value => if res.read ≠ trimmed.length then fail .malformedData else .ok value
      | none => fail .malformedData

/-- `bus_from_numeric_id`. -/
def busFromNumericId (busId : ℕ) : BusType :=
  match busId with
  | 0x01 => .pci
  | 0x02 | 0x10 | 0x11 | 0x12 => .isaSerio
  | 0x03 => .usb
  | 0x05 => .bluetooth
  | 0x06 | 0x19 => .virtualBus
  | 0x18 => .i2c
  | _ => .unknown

theorem isBlank_numeral {base n : ℕ} {text : List UInt8} (h : Numeral base n text)
    (hbase : base ≤ 36) : ∀ c ∈ text, isBlank c = false := by
  intro c hc
  have hlow : (0x30 : ℕ) ≤ c.toNat := (Numerals.mem_numeral h hbase hc).1
  apply decide_eq_false
  intro hle
  have hle : c.toNat ≤ 0x20 := hle
  omega

theorem parseHexU16_numeral {n : ℕ} {text : List UInt8} (h : Numeral 16 n text)
    (hfits : n < 2 ^ 16) : parseHexU16 text = .ok n := by
  have hmax : n ≤ 65535 := Nat.le_of_lt_succ hfits
  have hsolid := isBlank_numeral h (by decide)
  have htrim : trimWhitespace text = text := by
    rw [trimWhitespace, dropWhile_eq_self hsolid, rdropWhile_eq_self hsolid]
  unfold parseHexU16
  dsimp only
  rw [htrim, if_neg h.ne_nil, h.fromChars, if_pos hmax]
  simp [Outcome.OutOfRange]

end Common

section Bitmaps

/-- `split_words`. -/
def splitWords (text : List UInt8) : List (List UInt8) := splitBlank isBlank text

/-- `has_handler`. -/
def hasHandler (handlers : List (List UInt8)) (needle : List UInt8) : Bool :=
  handlers.any fun h => h == needle

/-- `has_handler_prefix`. -/
def hasHandlerPrefix (handlers : List (List UInt8)) (start : List UInt8) : Bool :=
  handlers.any fun h => start <+: h

/-- `low_bitmap_bit_is_set`: the last word counts, behind the last blank or tab. -/
def lowBitmapBitIsSet (bitmap : List UInt8) (bit : ℕ) : Bool :=
  if bit ≥ 64 then false
  else
    let trimmed := trimWhitespace bitmap
    if trimmed = [] then false
    else
      let word := trimmed.rtakeWhile fun c => c ≠ 0x20 ∧ c ≠ 0x09
      (numberOf 16 uint64Max word).any fun value => value.testBit bit

/-- `is_valid_hex_bitmap`. -/
def isValidHexBitmap (bitmap : List UInt8) : Bool :=
  let words := splitWords bitmap
  words ≠ [] ∧ ∀ word ∈ words, (numberOf 16 uint64Max word).isSome

end Bitmaps

/-- `classify_device`. -/
def classifyDevice (entry : RawInputEntry) : DeviceType :=
  let named (words : List (List UInt8)) : Bool := words.any (containsIgnoreCase entry.name)
  let hasKeys := lowBitmapBitIsSet entry.evMask 1
  let hasRelativeAxes := lowBitmapBitIsSet entry.evMask 2
  let hasAbsoluteAxes := lowBitmapBitIsSet entry.evMask 3
  let hasSwitches := lowBitmapBitIsSet entry.evMask 5
  let direct := lowBitmapBitIsSet entry.propMask 1
  let pointer := lowBitmapBitIsSet entry.propMask 0
  let buttonpad := lowBitmapBitIsSet entry.propMask 2
  if (hasKeys ∨ hasAbsoluteAxes) ∧ (hasHandlerPrefix entry.handlers (ascii "js") ∨
      named [ascii "gamepad", ascii "joystick", ascii "controller"]) then .gamepad
  else if hasAbsoluteAxes ∧ (direct ∧ pointer ∨
      named [ascii "tablet", ascii "wacom", ascii "digitizer", ascii "stylus"]) then .drawingTablet
  else if hasAbsoluteAxes ∧ (buttonpad ∨ pointer ∧ ¬ direct ∨
      named [ascii "touchpad", ascii "trackpad", ascii "synaptics", ascii "glidepoint",
        ascii "clickpad"]) then .touchpad
  else if hasAbsoluteAxes ∧ (direct ∧ ¬ pointer ∨
      named [ascii "touchscreen", ascii "touch screen"]) then .touchscreen
  else if hasSwitches ∨ hasKeys ∧
      named [ascii "power button", ascii "sleep button", ascii "lid switch", ascii "video bus",
        ascii "switch", ascii "pwrbtn"] then .buttonOrSwitch
  else if (hasRelativeAxes ∨ hasAbsoluteAxes) ∧ (hasHandlerPrefix entry.handlers (ascii "mouse") ∨
      named [ascii "mouse", ascii "trackball", ascii "pointing stick", ascii "trackpoint"]) then
    .mouse
  else if hasKeys ∧ (hasHandler entry.handlers (ascii "kbd") ∨
      named [ascii "keyboard", ascii "keypad"]) then .keyboard
  else .unknown

end Syscape.Input
