import Syscape.IppPrinters
import Syscape.Lib.Endian
import Syscape.Lib.Hex
import Syscape.Lib.LastValue

/-!
# The attributes of a printer

The attributes that the parser knows, each with its name and the bytes of its value. What
some attributes say about a printer is stated field by field: the last attribute that
bears on a field decides it. What states, flags, addresses and names mean is stated in tables
apart from the parser. The parser's step for an attribute agrees with that.
-/
namespace Syscape.Ipp
open Checked Text Endian LastValue Printer Utf8

section Words

lemma ofNat_and_FF (n : ℕ) : UInt8.ofNat (n &&& 0xFF) = UInt8.ofNat n := by
  apply UInt8.toNat_inj.mp
  rw [Nat.and_two_pow_sub_one_eq_mod n 8, UInt8.toNat_ofNat', UInt8.toNat_ofNat']
  omega

theorem appendUint16_eq (buf : List UInt8) (val : ℕ) :
    appendUint16 buf val = buf ++ encode .big 2 val := by
  rw [appendUint16, ofNat_and_FF, ofNat_and_FF, Nat.shiftRight_eq_div_pow]
  rfl

theorem appendUint32_eq (buf : List UInt8) (val : ℕ) :
    appendUint32 buf val = buf ++ encode .big 4 val := by
  have h16 : val >>> 16 = val / 256 / 256 := by rw [Nat.shiftRight_eq_div_pow]; omega
  have h24 : val >>> 24 = val / 256 / 256 / 256 := by rw [Nat.shiftRight_eq_div_pow]; omega
  rw [appendUint32, ofNat_and_FF, ofNat_and_FF, ofNat_and_FF, ofNat_and_FF, h24, h16,
    Nat.shiftRight_eq_div_pow]
  rfl

theorem readUint16_append {pre bytes post : List UInt8} (h : bytes.length = 2) :
    readUint16 (pre ++ bytes ++ post) pre.length = .ok (some (value .big bytes)) := by
  obtain ⟨b0, b1, rfl⟩ := List.length_eq_two.mp h
  have hvalue : (b0.toNat <<< 8) ||| b1.toNat = value .big [b0, b1] := by
    rw [Nat.or_comm, or_shift b1.toNat_lt]
    simp [value, leValue]
  rw [readUint16, if_neg (by simp), List.append_assoc, readByte_append_length, readByte_append_right]
  simp [hvalue]

theorem readUint32_append {pre bytes post : List UInt8} (h : bytes.length = 4) :
    readUint32 (pre ++ bytes ++ post) pre.length = .ok (some (value .big bytes)) := by
  obtain ⟨b0, b1, b2, b3, rfl⟩ : ∃ b0 b1 b2 b3, bytes = [b0, b1, b2, b3] := by
    match bytes, h with
    | [b0, b1, b2, b3], _ => exact ⟨b0, b1, b2, b3, rfl⟩
  have hvalue : (b0.toNat <<< 24) ||| (b1.toNat <<< 16) ||| (b2.toNat <<< 8) ||| b3.toNat =
      value .big [b0, b1, b2, b3] := by
    have hshift := or_shift_four b3.toNat_lt b2.toNat_lt b1.toNat_lt b0.toNat
    calc (b0.toNat <<< 24) ||| (b1.toNat <<< 16) ||| (b2.toNat <<< 8) ||| b3.toNat
        = b3.toNat ||| (b2.toNat <<< 8) ||| (b1.toNat <<< 16) ||| (b0.toNat <<< 24) := by
          rw [Nat.or_comm _ b3.toNat, Nat.or_comm _ (b2.toNat <<< 8), Nat.or_comm (b0.toNat <<< 24),
            ← Nat.or_assoc, ← Nat.or_assoc]
      _ = value .big [b0, b1, b2, b3] := by
          rw [hshift]
          change _ = b3.toNat + 256 * (b2.toNat + 256 * (b1.toNat + 256 * (b0.toNat + 256 * 0)))
          ring
  rw [readUint32, if_neg (by simp), List.append_assoc, readByte_append_length,
    readByte_append_right, readByte_append_right, readByte_append_right]
  simp [hvalue]

/-- A number of two bytes is read back. -/
theorem readUint16_encode {n : ℕ} (h : n < 2 ^ 16) (pre post : List UInt8) :
    readUint16 (pre ++ encode .big 2 n ++ post) pre.length = .ok (some n) := by
  rw [readUint16_append (length_encode .big 2 n), value_encode .big (show n < 256 ^ 2 by omega)]

/-- A number of four bytes is read back. -/
theorem readUint32_encode {n : ℕ} (h : n < 2 ^ 32) (pre post : List UInt8) :
    readUint32 (pre ++ encode .big 4 n ++ post) pre.length = .ok (some n) := by
  rw [readUint32_append (length_encode .big 4 n), value_encode .big (show n < 256 ^ 4 by omega)]

end Words

section Attributes

/-- A text of an attribute: Unicode scalar values in UTF-8. -/
structure Utf8Value where
  bytes : List UInt8
  valid : ∃ cs : List Char, cs.flatMap String.utf8EncodeChar = bytes
  length_lt : bytes.length < 2 ^ 16

/-- The positive numbers of an IPP integer. -/
abbrev Positive := { n : ℕ // 0 < n ∧ n < 2 ^ 31 }

/-- The attributes that the parser looks for. -/
def recognisedNames : List (List UInt8) :=
  [ascii "printer-name", ascii "printer-info", ascii "printer-location",
    ascii "printer-make-and-model", ascii "device-uri", ascii "printer-state",
    ascii "printer-is-accepting-jobs", ascii "printer-is-shared", ascii "queued-job-count",
    ascii "color-supported", ascii "printer-type", ascii "media-supported",
    ascii "printer-resolution-supported", ascii "copies-supported", ascii "sides-supported"]

/-- An attribute that the parser does not look for. -/
structure Unrecognised where
  name : List UInt8
  name_ne : name ≠ []
  name_lt : name.length < 2 ^ 16
  not_mem : name ∉ recognisedNames
  value : List UInt8
  value_lt : value.length < 2 ^ 16

/-- An attribute of a printer. -/
inductive PrinterAttribute where
  | printerName (text : Utf8Value)
  | printerInfo (text : Utf8Value)
  | printerLocation (text : Utf8Value)
  | printerMakeAndModel (text : Utf8Value)
  | deviceUri (text : Utf8Value)
  | printerState (state : Fin (2 ^ 31))
  | printerIsAcceptingJobs (b : Bool)
  | printerIsShared (b : Bool)
  | queuedJobCount (n : Fin (2 ^ 31))
  | colorSupported (b : Bool)
  | printerType (flags : Fin (2 ^ 32))
  | mediaSupported (media : Utf8Value)
  | printerResolutionSupported (x y : Positive) (dpcm : Bool)
  | copiesSupported (maxC : Positive)
  | copiesSupportedRange (minC maxC : Positive) (h : minC.1 ≤ maxC.1)
  | sidesSupported (sides : Utf8Value)
  | unrecognised (u : Unrecognised)

namespace PrinterAttribute

/-- The name of the attribute. -/
def name : PrinterAttribute → List UInt8
  | printerName _ => ascii "printer-name"
  | printerInfo _ => ascii "printer-info"
  | printerLocation _ => ascii "printer-location"
  | printerMakeAndModel _ => ascii "printer-make-and-model"
  | deviceUri _ => ascii "device-uri"
  | printerState _ => ascii "printer-state"
  | printerIsAcceptingJobs _ => ascii "printer-is-accepting-jobs"
  | printerIsShared _ => ascii "printer-is-shared"
  | queuedJobCount _ => ascii "queued-job-count"
  | colorSupported _ => ascii "color-supported"
  | printerType _ => ascii "printer-type"
  | mediaSupported _ => ascii "media-supported"
  | printerResolutionSupported _ _ _ => ascii "printer-resolution-supported"
  | copiesSupported _ => ascii "copies-supported"
  | copiesSupportedRange _ _ _ => ascii "copies-supported"
  | sidesSupported _ => ascii "sides-supported"
  | unrecognised u => u.name

/-- The bytes of a truth value. -/
def boolBytes (b : Bool) : List UInt8 := [if b then 1 else 0]

/-- The bytes of the value. -/
def value : PrinterAttribute → List UInt8
  | printerName text => text.bytes
  | printerInfo text => text.bytes
  | printerLocation text => text.bytes
  | printerMakeAndModel text => text.bytes
  | deviceUri text => text.bytes
  | printerState state => appendUint32 [] state
  | printerIsAcceptingJobs b => boolBytes b
  | printerIsShared b => boolBytes b
  | queuedJobCount n => appendUint32 [] n
  | colorSupported b => boolBytes b
  | printerType flags => appendUint32 [] flags
  | mediaSupported media => media.bytes
  | printerResolutionSupported x y dpcm =>
      appendUint32 (appendUint32 [] x) y ++ [if dpcm then 4 else 3]
  | copiesSupported maxC => appendUint32 [] maxC
  | copiesSupportedRange minC maxC _ => appendUint32 (appendUint32 [] minC) maxC
  | sidesSupported sides => sides.bytes
  | unrecognised u => u.value

theorem name_ne (a : PrinterAttribute) : a.name ≠ [] := by
  cases a with
  | unrecognised u => exact u.name_ne
  | _ => simp [name, ascii]

theorem length_name_lt (a : PrinterAttribute) : a.name.length < 2 ^ 16 := by
  cases a with
  | unrecognised u => exact u.name_lt
  | _ => simp [name, ascii]

theorem length_value_lt (a : PrinterAttribute) : a.value.length < 2 ^ 16 := by
  cases a with
  | printerName text => exact text.length_lt
  | printerInfo text => exact text.length_lt
  | printerLocation text => exact text.length_lt
  | printerMakeAndModel text => exact text.length_lt
  | deviceUri text => exact text.length_lt
  | mediaSupported media => exact media.length_lt
  | sidesSupported sides => exact sides.length_lt
  | unrecognised u => exact u.value_lt
  | _ => simp [value, appendUint32, boolBytes]

/-- The text of a resolution. -/
def resolutionText (x y : ℕ) (dpcm : Bool) : List UInt8 :=
  Digits.decimal x ++ ascii "x" ++ Digits.decimal y ++
    (if dpcm then ascii " dpcm" else ascii " dpi")

/-- What the attribute changes in the record. -/
def update (p : PrinterInfo) : PrinterAttribute → PrinterInfo
  | printerName text => if text.bytes = [] then p else { p with id := text.bytes, name := text.bytes }
  | printerInfo text => { p with description := text.bytes }
  | printerLocation text => { p with location := text.bytes }
  | printerMakeAndModel text => { p with driverName := text.bytes }
  | deviceUri text => { p with uri := text.bytes }
  | printerState state => { p with state := mapIppPrinterState state }
  | printerIsAcceptingJobs b => { p with isAcceptingJobs := some b }
  | printerIsShared b => { p with isShared := some b }
  | queuedJobCount n => { p with queuedJobCount := some n }
  | colorSupported b => { p with capabilities := { p.capabilities with color := some b } }
  | printerType flags => applyTypeFlags flags p
  | mediaSupported media =>
      if media.bytes = [] then p
      else { p with capabilities :=
        { p.capabilities with supportedMedia := p.capabilities.supportedMedia ++ [media.bytes] } }
  | printerResolutionSupported x y dpcm =>
      { p with capabilities := { p.capabilities with
        supportedResolutions := p.capabilities.supportedResolutions ++ [resolutionText x y dpcm] } }
  | copiesSupported maxC | copiesSupportedRange _ maxC _ =>
      { p with capabilities :=
        { p.capabilities with maxCopies := some maxC.1, copies := some true } }
  | sidesSupported sides =>
      if ascii "two-sided" <:+: sides.bytes then
        { p with capabilities := { p.capabilities with duplex := some true } }
      else p
  | unrecognised _ => p

end PrinterAttribute

end Attributes

section Meanings
open Hex

/-- The states that have a number. -/
def ippStates : List (ℕ × PrinterState) := [(3, .idle), (4, .processing), (5, .stopped)]

def stateOfNumber (n : ℕ) : PrinterState := (ippStates.lookup n).getD .unknown

theorem mapIppPrinterState_eq (n : ℕ) : mapIppPrinterState n = stateOfNumber n := by
  match n with
  | 0 | 1 | 2 | 3 | 4 | 5 => rfl
  | n + 6 => rfl

/-- The flags in a printer type. -/
inductive TypeFlag where
  | remote
  | color
  | duplex
  | copies
  | collate
  | fax
  | pdf

namespace TypeFlag

/-- The place of the flag, the lowest bit being at 0. -/
def bit : TypeFlag → ℕ
  | remote => 1
  | color => 2
  | duplex => 3
  | copies => 5
  | collate => 6
  | fax => 7
  | pdf => 17

def In (flag : TypeFlag) (flags : ℕ) : Prop := flags.testBit flag.bit = true

instance (flag : TypeFlag) (flags : ℕ) : Decidable (flag.In flags) :=
  inferInstanceAs (Decidable (_ = true))

/-- The constant of the parser. -/
def mask : TypeFlag → ℕ
  | remote => cupsPrinterRemote
  | color => cupsPrinterColor
  | duplex => cupsPrinterDuplex
  | copies => cupsPrinterCopies
  | collate => cupsPrinterCollate
  | fax => cupsPrinterFax
  | pdf => cupsPrinterPdf

theorem mask_eq (flag : TypeFlag) : flag.mask = 2 ^ flag.bit := by cases flag <;> rfl

theorem hasFlag_mask (flag : TypeFlag) (flags : ℕ) : HasFlag flags flag.mask ↔ flag.In flags := by
  rw [HasFlag, mask_eq, Nat.and_two_pow, In]
  cases flags.testBit flag.bit <;> simp

end TypeFlag

/-- How the addresses of virtual printers begin, in lower case. -/
def virtualAddresses : List (List UInt8) :=
  [ascii "cups-pdf:", ascii "cups-pdf://", ascii "pdf:", ascii "file:", ascii "portprompt:",
    ascii "nul:"]

/-- What the names of virtual printers contain. -/
def virtualNames : List (List UInt8) :=
  [ascii "pdf", ascii "xps", ascii "fax", ascii "document writer"]

/-- What the names of drivers for virtual printers contain. -/
def virtualDrivers : List (List UInt8) := [ascii "pdf", ascii "xps", ascii "fax"]

/-- How the addresses of printers in the network begin. -/
def networkAddresses : List (List UInt8) :=
  [ascii "ipp://", ascii "ipps://", ascii "socket://", ascii "lpd://", ascii "smb://",
    ascii "dnssd://", ascii "mdns://", ascii "http://", ascii "https://", ascii "wsd://",
    ascii "ip_", ascii "wsd-"]

/-- How the addresses of local printers begin. -/
def localAddresses : List (List UInt8) :=
  [ascii "usb://", ascii "parallel://", ascii "/dev/usb/lp", ascii "/dev/lp", ascii "usb",
    ascii "lpt", ascii "com"]

/-- The text begins with one of these, in any case. -/
def BeginsWith (starts : List (List UInt8)) (text : List UInt8) : Prop :=
  ∃ start ∈ starts, start <+: text.map lower

instance (starts : List (List UInt8)) (text : List UInt8) : Decidable (BeginsWith starts text) :=
  inferInstanceAs (Decidable (∃ start ∈ starts, _))

/-- The text contains one of these, in any case. -/
def Mentions (words : List (List UInt8)) (text : List UInt8) : Prop :=
  ∃ word ∈ words, word <:+: text.map lower

instance (words : List (List UInt8)) (text : List UInt8) : Decidable (Mentions words text) :=
  inferInstanceAs (Decidable (∃ word ∈ words, _))

/-- The type that the address, the name and the driver of a printer tell. -/
def typeByNames (uri name driver : List UInt8) : PrinterType :=
  if BeginsWith virtualAddresses uri ∨ Mentions virtualNames name ∨
      Mentions virtualDrivers driver then .virtualPrinter
  else if BeginsWith networkAddresses uri then .network
  else if BeginsWith localAddresses uri then .localPrinter
  else .unknown

theorem startsWithIgnoreCase_iff (text start : List UInt8) :
    startsWithIgnoreCase text start = true ↔ start.map lower <+: text.map lower := by
  rw [startsWithIgnoreCase]
  split_ifs with hlength
  · refine iff_of_false (by simp) fun h => ?_
    have hle := h.length_le
    rw [List.length_map, List.length_map] at hle
    omega
  · rw [equalsIgnoreCase_iff, List.prefix_iff_eq_take, List.length_map, ← List.map_take]
    exact eq_comm

theorem containsIgnoreCase_iff (text part : List UInt8) :
    containsIgnoreCase text part = true ↔ part.map lower <:+: text.map lower := by
  rw [containsIgnoreCase]
  split_ifs with hnil hlength
  · simp [hnil]
  · refine iff_of_false (by simp) fun h => ?_
    have hle := h.length_le
    rw [List.length_map, List.length_map] at hle
    omega
  · rw [List.any_eq_true]
    constructor
    · rintro ⟨i, -, hi⟩
      rw [equalsIgnoreCase_iff] at hi
      have hsame : part.map lower = ((text.drop i).take part.length).map lower := hi.symm
      rw [hsame]
      exact ((List.take_prefix _ _).isInfix.trans (List.drop_suffix i text).isInfix).map lower
    · rintro ⟨front, back, h⟩
      have hsum := congrArg List.length h
      rw [List.length_append, List.length_append, List.length_map, List.length_map] at hsum
      refine ⟨front.length, List.mem_range.mpr (by omega), (equalsIgnoreCase_iff _ _).mpr ?_⟩
      show ((text.drop front.length).take part.length).map lower = part.map lower
      rw [List.map_take, List.map_drop, ← h, List.append_assoc, List.drop_left,
        List.take_left' (List.length_map _)]

theorem any_startsWithIgnoreCase (starts : List (List UInt8)) (text : List UInt8) :
    starts.any (startsWithIgnoreCase text) = true ↔
      BeginsWith (starts.map (List.map lower)) text := by
  simp only [List.any_eq_true, startsWithIgnoreCase_iff, BeginsWith, List.mem_map, exists_exists_and_eq_and]

theorem any_containsIgnoreCase (words : List (List UInt8)) (text : List UInt8) :
    words.any (containsIgnoreCase text) = true ↔ Mentions (words.map (List.map lower)) text := by
  simp only [List.any_eq_true, containsIgnoreCase_iff, Mentions, List.mem_map, exists_exists_and_eq_and]

/-- The parser's classification is by these tables. -/
theorem classifyPrinterType_eq (uri name driver : List UInt8) :
    classifyPrinterType uri name driver = typeByNames uri name driver := by
  unfold classifyPrinterType typeByNames
  simp only [any_startsWithIgnoreCase, any_containsIgnoreCase]
  rfl

end Meanings

section Decoding
open PrinterAttribute

theorem isValidUtf8_iff {bytes : List UInt8} :
    isValidUtf8 bytes = .ok true ↔ ∃ cs : List Char, cs.flatMap String.utf8EncodeChar = bytes := by
  obtain ⟨b, hb, hiff⟩ := isValidUtf8_spec bytes
  simp only [encodeScalars_eq] at hiff
  rw [hb, Except.ok.injEq, hiff]

theorem booleanValue_bytes (b : Bool) : booleanValue (boolBytes b) = .ok b := by
  cases b <;> rfl

theorem wordValue_bytes {n : ℕ} (h : n < 2 ^ 32) : wordValue (appendUint32 [] n) = .ok n := by
  have hread := readUint32_encode h [] []
  rw [List.nil_append, List.append_nil] at hread
  rw [appendUint32_eq, List.nil_append, wordValue, if_neg (by simp)]
  rw [List.length_nil] at hread
  rw [hread]
  rfl

theorem integerValue_bytes {n : ℕ} (h : n < 2 ^ 31) : integerValue (appendUint32 [] n) = .ok n := by
  rw [integerValue, wordValue_bytes (by omega), ok_bind, if_neg (by omega)]

theorem resolutionValue_bytes (x y : Positive) (dpcm : Bool) :
    resolutionValue (appendUint32 (appendUint32 [] x) y ++ [if dpcm then 4 else 3]) =
      .ok (resolutionText x y dpcm) := by
  have hx := x.2
  have hy := y.2
  have hvalue : appendUint32 (appendUint32 [] x) y ++ [if dpcm then 4 else 3] =
      encode .big 4 x ++ encode .big 4 y ++ [if dpcm then 4 else 3] := by
    rw [appendUint32_eq, appendUint32_eq, List.nil_append]
  have hxres := readUint32_encode (show x.1 < 2 ^ 32 by omega) []
    (encode .big 4 y ++ [if dpcm then 4 else 3])
  have hyres := readUint32_encode (show y.1 < 2 ^ 32 by omega) (encode .big 4 x)
    [if dpcm then 4 else 3]
  have hunits : (readByte (encode .big 4 x ++ encode .big 4 y ++ [if dpcm then 4 else 3]) 8 :
      Result ℕ) = .ok (if dpcm then 4 else 3) := by
    have h := readByte_append_length (ε := ErrorCode) (encode .big 4 x ++ encode .big 4 y)
      [if dpcm then 4 else 3]
    rw [List.length_append, length_encode, length_encode] at h
    rw [h, readByte_cons_zero]
    cases dpcm <;> rfl
  rw [List.nil_append, List.length_nil, ← List.append_assoc] at hxres
  rw [length_encode] at hyres
  rw [hvalue, resolutionValue, if_neg (by simp), hxres, ok_bind, hyres, ok_bind, hunits, ok_bind]
  dsimp only
  rw [if_pos ⟨by omega, by omega, by omega, by omega, by cases dpcm <;> simp⟩]
  cases dpcm <;> rfl

theorem copiesValue_bytes (maxC : Positive) :
    copiesValue (appendUint32 [] maxC) = .ok maxC.1 := by
  have hmax := maxC.2
  have hread := readUint32_encode (show maxC.1 < 2 ^ 32 by omega) [] []
  rw [List.nil_append, List.append_nil, List.length_nil] at hread
  rw [appendUint32_eq, List.nil_append, copiesValue, if_pos (by simp), hread, ok_bind]
  exact if_pos ⟨by omega, by omega⟩

theorem copiesValue_range {minC maxC : Positive} (h : minC.1 ≤ maxC.1) :
    copiesValue (appendUint32 (appendUint32 [] minC) maxC) = .ok maxC.1 := by
  have hmin := minC.2
  have hmax := maxC.2
  have hlower := readUint32_encode (show minC.1 < 2 ^ 32 by omega) [] (encode .big 4 maxC)
  have hupper := readUint32_encode (show maxC.1 < 2 ^ 32 by omega) (encode .big 4 minC) []
  rw [List.nil_append, List.length_nil] at hlower
  rw [List.append_nil, length_encode] at hupper
  rw [appendUint32_eq, appendUint32_eq, List.nil_append, copiesValue, if_neg (by simp),
    if_pos (by simp), hlower, ok_bind, hupper, ok_bind]
  exact if_pos ⟨by omega, h, by omega⟩

/-- Decoding the value of an attribute makes the change that the attribute stands for. -/
theorem decodeAttribute_bytes (a : PrinterAttribute) (p : PrinterInfo) :
    decodeAttribute a.name a.value p = .ok (a.update p) := by
  have htext : ∀ text : Utf8Value, validateUtf8 text.bytes = .ok text.bytes :=
    fun text => validateUtf8_valid (isValidUtf8_iff.mpr text.valid)
  -- the tests of the name in front of the one that holds fail
  cases a <;> dsimp only [PrinterAttribute.name, PrinterAttribute.value, update] <;>
    unfold decodeAttribute
  case unrecognised u =>
    have hmem := u.not_mem
    simp only [recognisedNames, List.mem_cons, List.not_mem_nil, or_false, not_or] at hmem
    simp only [hmem, if_false]
  all_goals
    repeat rw [if_neg (by decide)]
    rw [if_pos rfl]
  case printerState state => rw [integerValue_bytes state.isLt, ok_bind]
  case printerIsAcceptingJobs b => rw [booleanValue_bytes, ok_bind]
  case printerIsShared b => rw [booleanValue_bytes, ok_bind]
  case queuedJobCount n => rw [integerValue_bytes n.isLt, ok_bind]
  case colorSupported b => rw [booleanValue_bytes, ok_bind]
  case printerType flags => rw [wordValue_bytes flags.isLt, ok_bind]
  case printerResolutionSupported x y dpcm => rw [resolutionValue_bytes, ok_bind]
  case copiesSupported maxC => rw [copiesValue_bytes, ok_bind]
  case copiesSupportedRange minC maxC h => rw [copiesValue_range h, ok_bind]
  all_goals rw [htext, ok_bind]

end Decoding

section Fields
open PrinterAttribute

/-- Which attributes bear on a field of the record, and how. -/
def nameOf : PrinterAttribute → Option (List UInt8)
  | printerName text => if text.bytes = [] then none else some text.bytes
  | _ => none

def descriptionOf : PrinterAttribute → Option (List UInt8)
  | printerInfo text => some text.bytes
  | _ => none

def locationOf : PrinterAttribute → Option (List UInt8)
  | printerLocation text => some text.bytes
  | _ => none

def driverNameOf : PrinterAttribute → Option (List UInt8)
  | printerMakeAndModel text => some text.bytes
  | _ => none

def uriOf : PrinterAttribute → Option (List UInt8)
  | deviceUri text => some text.bytes
  | _ => none

def stateOf : PrinterAttribute → Option PrinterState
  | .printerState state => some (stateOfNumber state)
  | _ => none

def isAcceptingJobsOf : PrinterAttribute → Option Bool
  | printerIsAcceptingJobs b => some b
  | _ => none

def isSharedOf : PrinterAttribute → Option Bool
  | printerIsShared b => some b
  | _ => none

def queuedJobCountOf : PrinterAttribute → Option ℕ
  | queuedJobCount n => some n
  | _ => none

/-- The type that the flags tell. -/
def typeOf : PrinterAttribute → Option PrinterType
  | .printerType flags =>
      if TypeFlag.fax.In flags ∨ TypeFlag.pdf.In flags then some .virtualPrinter
      else if TypeFlag.remote.In flags then some .network
      else none
  | _ => none

def colorOf : PrinterAttribute → Option Bool
  | colorSupported b => some b
  | .printerType flags => if TypeFlag.color.In flags then some true else none
  | _ => none

def duplexOf : PrinterAttribute → Option Bool
  | sidesSupported sides => if ascii "two-sided" <:+: sides.bytes then some true else none
  | .printerType flags => if TypeFlag.duplex.In flags then some true else none
  | _ => none

def copiesOf : PrinterAttribute → Option Bool
  | copiesSupported _ | copiesSupportedRange _ _ _ => some true
  | .printerType flags => if TypeFlag.copies.In flags then some true else none
  | _ => none

def collateOf : PrinterAttribute → Option Bool
  | .printerType flags => if TypeFlag.collate.In flags then some true else none
  | _ => none

def maxCopiesOf : PrinterAttribute → Option ℕ
  | copiesSupported maxC | copiesSupportedRange _ maxC _ => some maxC.1
  | _ => none

def mediaOf : PrinterAttribute → Option (List UInt8)
  | mediaSupported media => if media.bytes = [] then none else some media.bytes
  | _ => none

def resolutionOf : PrinterAttribute → Option (List UInt8)
  | printerResolutionSupported x y dpcm => some (resolutionText x y dpcm)
  | _ => none

/-- What the attributes of a printer say about it, apart from a type that its names tell. -/
def collected (attributes : List PrinterAttribute) : PrinterInfo where
  id := (lastOf nameOf attributes).getD []
  name := (lastOf nameOf attributes).getD []
  driverName := (lastOf driverNameOf attributes).getD []
  location := (lastOf locationOf attributes).getD []
  description := (lastOf descriptionOf attributes).getD []
  uri := (lastOf uriOf attributes).getD []
  type := (lastOf typeOf attributes).getD .unknown
  state := (lastOf stateOf attributes).getD .unknown
  isDefault := none
  isShared := lastOf isSharedOf attributes
  isAcceptingJobs := lastOf isAcceptingJobsOf attributes
  queuedJobCount := lastOf queuedJobCountOf attributes
  capabilities :=
    { color := lastOf colorOf attributes
      duplex := lastOf duplexOf attributes
      copies := lastOf copiesOf attributes
      collate := lastOf collateOf attributes
      supportedMedia := attributes.filterMap mediaOf
      supportedResolutions := attributes.filterMap resolutionOf
      maxCopies := lastOf maxCopiesOf attributes }

/-- The flags of a printer type change what they say. -/
theorem applyTypeFlags_eq (flags : ℕ) (p : PrinterInfo) :
    applyTypeFlags flags p =
      { p with
        capabilities :=
          { p.capabilities with
            color := if TypeFlag.color.In flags then some true else p.capabilities.color
            duplex := if TypeFlag.duplex.In flags then some true else p.capabilities.duplex
            copies := if TypeFlag.copies.In flags then some true else p.capabilities.copies
            collate := if TypeFlag.collate.In flags then some true else p.capabilities.collate }
        type :=
          if TypeFlag.fax.In flags ∨ TypeFlag.pdf.In flags then .virtualPrinter
          else if TypeFlag.remote.In flags then .network
          else p.type } := by
  simp only [← TypeFlag.hasFlag_mask]
  rfl

/-- One more attribute changes what is collected as the parser changes its record. -/
theorem collected_concat (attributes : List PrinterAttribute) (a : PrinterAttribute) :
    collected (attributes ++ [a]) = a.update (collected attributes) := by
  unfold collected
  simp only [lastOf_concat, List.filterMap_append]
  cases a <;> simp only [update, applyTypeFlags_eq, mapIppPrinterState_eq, nameOf, descriptionOf, locationOf, driverNameOf,
    uriOf, stateOf, isAcceptingJobsOf, isSharedOf, queuedJobCountOf, typeOf, colorOf, duplexOf,
    copiesOf, collateOf, maxCopiesOf, mediaOf, resolutionOf, List.filterMap_cons,
    List.filterMap_nil, List.append_nil, Option.none_or, Option.some_or, Option.getD_some]
  case printerName text => split_ifs <;> rfl
  case mediaSupported media => split_ifs <;> simp
  case sidesSupported sides => split_ifs <;> rfl
  case printerType flags => split_ifs <;> rfl

/-- The parser's record after some attributes. -/
theorem foldl_update (attributes : List PrinterAttribute) :
    attributes.foldl PrinterAttribute.update {} = collected attributes := by
  induction attributes using List.reverseRecOn with
  | nil => rfl
  | append_singleton attributes a ih =>
    rw [List.foldl_append, List.foldl_cons, List.foldl_nil, ih, collected_concat]

/-- The printer that attributes describe: flags tell its type, or else its names do. -/
def printerOf (attributes : List PrinterAttribute) : PrinterInfo :=
  let p := collected attributes
  { p with
    type := (lastOf typeOf attributes).getD (typeByNames p.uri p.name p.driverName) }

/-- Attributes say the same about each field of a printer. -/
structure SameFields (l l' : List PrinterAttribute) : Prop where
  name : lastOf nameOf l = lastOf nameOf l'
  description : (lastOf descriptionOf l).getD [] = (lastOf descriptionOf l').getD []
  location : (lastOf locationOf l).getD [] = (lastOf locationOf l').getD []
  driverName : (lastOf driverNameOf l).getD [] = (lastOf driverNameOf l').getD []
  uri : (lastOf uriOf l).getD [] = (lastOf uriOf l').getD []
  state : lastOf stateOf l = lastOf stateOf l'
  isAcceptingJobs : lastOf isAcceptingJobsOf l = lastOf isAcceptingJobsOf l'
  isShared : lastOf isSharedOf l = lastOf isSharedOf l'
  queuedJobCount : lastOf queuedJobCountOf l = lastOf queuedJobCountOf l'
  type : lastOf typeOf l = lastOf typeOf l'
  color : lastOf colorOf l = lastOf colorOf l'
  duplex : lastOf duplexOf l = lastOf duplexOf l'
  copies : lastOf copiesOf l = lastOf copiesOf l'
  collate : lastOf collateOf l = lastOf collateOf l'
  maxCopies : lastOf maxCopiesOf l = lastOf maxCopiesOf l'
  media : l.filterMap mediaOf = l'.filterMap mediaOf
  resolution : l.filterMap resolutionOf = l'.filterMap resolutionOf

theorem SameFields.printerOf_eq {l l' : List PrinterAttribute} (h : SameFields l l') :
    printerOf l = printerOf l' := by
  unfold printerOf collected
  rw [h.name, h.description, h.location, h.driverName, h.uri, h.state, h.isAcceptingJobs, h.isShared,
    h.queuedJobCount, h.type, h.color, h.duplex, h.copies, h.collate, h.maxCopies, h.media,
    h.resolution]

theorem typeOf_ne (a : PrinterAttribute) : typeOf a ≠ some .unknown := by
  cases a with
  | printerType flags =>
    simp only [typeOf]
    split_ifs <;> simp
  | _ => simp [typeOf]

theorem nameOf_ne (a : PrinterAttribute) : nameOf a ≠ some [] := by
  cases a with
  | printerName text =>
    simp only [nameOf]
    split_ifs with h
    · simp
    · simpa using h
  | _ => simp [nameOf]

/-- A record with a name is completed to the printer. -/
theorem completePrinter_collected {attributes : List PrinterAttribute} {name : List UInt8}
    (hname : lastOf nameOf attributes = some name) :
    (collected attributes).id ≠ [] ∧
      completePrinter (collected attributes) = printerOf attributes := by
  have hne : (collected attributes).id ≠ [] := by
    intro h
    have hnil : name = [] := by simpa [collected, hname] using h
    obtain ⟨a, -, ha⟩ := exists_of_lastOf nameOf hname
    exact nameOf_ne a (by rw [ha, hnil])
  have hname' : (collected attributes).name ≠ [] := hne
  refine ⟨hne, ?_⟩
  unfold completePrinter
  simp only [hne, hname', if_false, classifyPrinterType_eq]
  cases htype : lastOf typeOf attributes with
  | none =>
    have hunknown : (collected attributes).type = .unknown := by simp [collected, htype]
    simp [hunknown, printerOf, htype]
  | some type =>
    have hknown : type ≠ .unknown := by
      rintro rfl
      obtain ⟨a, -, ha⟩ := exists_of_lastOf typeOf htype
      exact typeOf_ne a ha
    have htype' : (collected attributes).type = type := by simp [collected, htype]
    rw [htype', if_neg hknown]
    simp [printerOf, htype, ← htype']

end Fields

end Syscape.Ipp
