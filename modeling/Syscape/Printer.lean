import Syscape.Utf8Language
import Syscape.Lib.FromChars
import Syscape.Lib.Text

/-!
# Texts and records of the printer module

The helpers that the printer queries share: trimming, comparisons that ignore the case
of ASCII letters, numbers, and the records that describe a printer. The C locale is in
effect, and `std::size_t` has 64 bits.
-/
namespace Syscape.Printer
open Checked Text FromChars Utf8

/-- The white space of the printer module's `trim_whitespace`. -/
def isBlank (c : UInt8) : Bool := c ≤ 0x20

/-- `trim_whitespace` of the printer module. -/
def trimWhitespace (text : List UInt8) : List UInt8 :=
  (text.dropWhile isBlank).rdropWhile isBlank

/-- `std::tolower`. -/
def tolower (c : UInt8) : UInt8 := if 0x41 ≤ c ∧ c ≤ 0x5A then c + 0x20 else c

/-- `equals_ignore_case`. -/
def equalsIgnoreCase (left right : List UInt8) : Bool :=
  if left.length ≠ right.length then false
  else (left.zip right).all fun (a, b) => tolower a == tolower b

/-- `starts_with_ignore_case`. -/
def startsWithIgnoreCase (text start : List UInt8) : Bool :=
  if text.length < start.length then false
  else equalsIgnoreCase (text.take start.length) start

/-- `contains_ignore_case`. -/
def containsIgnoreCase (text part : List UInt8) : Bool :=
  if part = [] then true
  else if part.length > text.length then false
  else
    (List.range (text.length - part.length + 1)).any fun i =>
      equalsIgnoreCase ((text.drop i).take part.length) part

/-- `find` of a `std::string_view`, for one byte. -/
def findByte (c : UInt8) : List UInt8 → Option ℕ
  | [] => none
  | b :: text => if b = c then some 0 else (findByte c text).map (· + 1)

/-- The largest values of `unsigned` and of `std::size_t`. -/
def unsignedMax : ℕ := 2 ^ 32 - 1

def sizeMax : ℕ := 2 ^ 64 - 1

/-- `parse_int`, for an unsigned type with a largest value. -/
def parseInt (max : ℕ) (text : List UInt8) (base : ℕ) : Option ℕ :=
  let text := trimWhitespace text
  let text :=
    if base = 16 ∧ (ascii "0x" <+: text ∨ ascii "0X" <+: text) then text.drop 2 else text
  if text = [] then none
  else
    let outcome := fromChars base max text
    if outcome.read = text.length then outcome.value else none

/-- `validate_utf8`. -/
def validateUtf8 (text : List UInt8) : Result (List UInt8) := do
  if ← isValidUtf8 text then .ok text else fail .invalidEncoding

section Records

/-- `printer_state`. -/
inductive PrinterState where
  | unknown
  | idle
  | processing
  | stopped
  deriving DecidableEq, Repr

/-- `printer_type`. -/
inductive PrinterType where
  | unknown
  | localPrinter
  | network
  | virtualPrinter
  deriving DecidableEq, Repr

/-- `printer_capabilities`. -/
structure PrinterCapabilities where
  color : Option Bool := none
  duplex : Option Bool := none
  copies : Option Bool := none
  collate : Option Bool := none
  supportedMedia : List (List UInt8) := []
  supportedResolutions : List (List UInt8) := []
  maxCopies : Option ℕ := none
  deriving DecidableEq, Repr

/-- `printer_info`. -/
structure PrinterInfo where
  id : List UInt8 := []
  name : List UInt8 := []
  driverName : List UInt8 := []
  location : List UInt8 := []
  description : List UInt8 := []
  uri : List UInt8 := []
  type : PrinterType := .unknown
  state : PrinterState := .unknown
  isDefault : Option Bool := none
  isShared : Option Bool := none
  isAcceptingJobs : Option Bool := none
  queuedJobCount : Option ℕ := none
  capabilities : PrinterCapabilities := {}
  deriving DecidableEq, Repr

/-- `classify_printer_type`. -/
def classifyPrinterType (uri name driver : List UInt8) : PrinterType :=
  let uriStarts (starts : List (List UInt8)) : Bool := starts.any (startsWithIgnoreCase uri)
  if uriStarts [ascii "cups-pdf:", ascii "cups-pdf://", ascii "pdf:", ascii "file:",
        ascii "PORTPROMPT:", ascii "nul:"] ∨
      [ascii "PDF", ascii "XPS", ascii "Fax", ascii "Document Writer"].any
        (containsIgnoreCase name) ∨
      [ascii "PDF", ascii "XPS", ascii "Fax"].any (containsIgnoreCase driver) then
    .virtualPrinter
  else if uriStarts [ascii "ipp://", ascii "ipps://", ascii "socket://", ascii "lpd://",
      ascii "smb://", ascii "dnssd://", ascii "mdns://", ascii "http://", ascii "https://",
      ascii "wsd://", ascii "IP_", ascii "WSD-"] then
    .network
  else if uriStarts [ascii "usb://", ascii "parallel://", ascii "/dev/usb/lp", ascii "/dev/lp",
      ascii "USB", ascii "LPT", ascii "COM"] then
    .localPrinter
  else .unknown

/-- `map_ipp_printer_state`. -/
def mapIppPrinterState : ℕ → PrinterState
  | 3 => .idle
  | 4 => .processing
  | 5 => .stopped
  | _ => .unknown

end Records

theorem defined_validateUtf8 (text : List UInt8) : Defined (validateUtf8 text) := by
  obtain ⟨b, hb, -⟩ := isValidUtf8_spec text
  rw [validateUtf8, hb, ok_bind]
  exact Defined.ite (fun _ => defined_ok _) fun _ => defined_failErrc _

theorem validateUtf8_valid {text : List UInt8} (h : isValidUtf8 text = .ok true) :
    validateUtf8 text = .ok text := by
  rw [validateUtf8, h, ok_bind, if_pos rfl]

theorem equalsIgnoreCase_iff (left right : List UInt8) :
    equalsIgnoreCase left right = true ↔ left.map tolower = right.map tolower := by
  induction left generalizing right with
  | nil => cases right <;> simp [equalsIgnoreCase]
  | cons a left ih =>
    cases right with
    | nil => simp [equalsIgnoreCase]
    | cons b right =>
      have htail := ih right
      unfold equalsIgnoreCase at htail ⊢
      by_cases hlen : left.length = right.length
      · simp only [hlen, ne_eq, not_true_eq_false, if_false] at htail
        simp [hlen, htail]
      · have hne : left.map tolower ≠ right.map tolower := by
          intro h
          exact hlen (by simpa using congrArg List.length h)
        simp [hlen, hne]

theorem findByte_append {c : UInt8} {text : List UInt8} (h : c ∉ text) (rest : List UInt8) :
    findByte c (text ++ c :: rest) = some text.length := by
  induction text with
  | nil => simp [findByte]
  | cons b text ih =>
    have hne : b ≠ c := fun hb => h (by simp [hb])
    rw [List.cons_append, findByte, if_neg hne, ih fun hc => h (by simp [hc])]
    rfl

theorem findByte_eq_none {c : UInt8} {text : List UInt8} :
    findByte c text = none ↔ c ∉ text := by
  induction text with
  | nil => simp [findByte]
  | cons b text ih =>
    rw [findByte]
    by_cases hb : b = c
    · simp [hb]
    · rw [if_neg hb, Option.map_eq_none_iff, ih]
      simp [Ne.symm hb]

section Numerals
variable {base n : ℕ} {text : List UInt8}

theorem isBlank_numeral (h : Numeral base n text) (hbase : base ≤ 36) {c : UInt8}
    (hc : c ∈ text) : isBlank c = false := by
  have halpha := h.alphanumeric hbase hc
  simp only [isBlank, UInt8.le_iff_toNat_le, decide_eq_false_iff_not, UInt8.reduceToNat]
  omega

theorem trimWhitespace_numeral (h : Numeral base n text) (hbase : base ≤ 36)
    {front back : List UInt8} (hfront : ∀ c ∈ front, isBlank c = true)
    (hback : ∀ c ∈ back, isBlank c = true) : trimWhitespace (front ++ text ++ back) = text := by
  apply trim_blanks hfront hback
  · intro c hc
    exact isBlank_numeral h hbase (List.mem_of_mem_head? hc)
  · intro c hc
    exact isBlank_numeral h hbase (List.mem_of_mem_getLast? hc)

/-- A numeral is read as a whole, and gives its number when that fits. -/
theorem parseInt_numeral (h : Numeral base n text) (hbase : base ≤ 16) (max : ℕ) :
    parseInt max text base = if n ≤ max then some n else none := by
  have hx : ∀ x : UInt8, digit x = 33 → ¬ [0x30, x] <+: text := by
    intro x hx hstart
    have hdigit := h.digits x (hstart.subset (by simp))
    omega
  have hplain : ¬ (base = 16 ∧ (ascii "0x" <+: text ∨ ascii "0X" <+: text)) := by
    rintro ⟨-, hlower | hupper⟩
    · exact hx 0x78 (by decide) hlower
    · exact hx 0x58 (by decide) hupper
  have htrim : trimWhitespace text = text := by
    have hself := @trimWhitespace_numeral _ _ _ h (by omega) [] [] (by simp) (by simp)
    rwa [List.nil_append, List.append_nil] at hself
  unfold parseInt
  rw [htrim]
  simp only [hplain, if_false, h.ne_nil, h.fromChars, if_true]

end Numerals

end Syscape.Printer
