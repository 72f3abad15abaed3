import Syscape.Input
import Syscape.Utf8Text

/-!
# The table of the input devices

`/proc/bus/input/devices` has a block of lines for each device. A block is read into one record,
which becomes a device at an empty line, at the first line of the next block, or at the end.
-/
namespace Syscape.Input
open Checked Text Lines FromChars Numbers Digits Numerals Utf8
open Syscape.Printer (isBlank trimWhitespace findByte findByte_append)

section Source

/-- The variables of `parse_proc_bus_input_devices`. -/
structure ParserState where
  devices : List InputDevice := []
  current : RawInputEntry := {}
  inEntry : Bool := false
  deriving DecidableEq, Repr

/-- The checks of the texts of a device, which end at the first that fails. -/
def requireUtf8 : List (List UInt8) → Result Unit
  | [] => .ok ()
  | text :: texts => do
    let valid ← isValidUtf8 text
    if ¬ valid then fail .malformedData else requireUtf8 texts

/-- The identifier of a device: the last part of its path, or else a handler. -/
def deviceId (sysfs : List UInt8) (handlers : List (List UInt8)) : List UInt8 :=
  if sysfs ≠ [] then
    -- without a slash, the part is the whole path
    let leaf := sysfs.rtakeWhile (· ≠ 0x2F)
    if leaf ≠ [] then leaf else sysfs
  else (handlers.find? (ascii "event" <+: ·)).getD (handlers.headD [])

/-- A text, unless it is empty. -/
def nonEmpty (text : List UInt8) : Option (List UInt8) := if text ≠ [] then some text else none

/-- The device that `finish_entry` makes of an entry. -/
def inputDevice (entry : RawInputEntry) : InputDevice where
  id := deviceId entry.sysfs entry.handlers
  name := entry.name
  type := classifyDevice entry
  bus := busFromNumericId entry.bus
  hardwareId := some {
    bus := busFromNumericId entry.bus
    vendorId := entry.vendor
    productId := entry.product
    version := entry.version }
  physicalLocation := nonEmpty entry.phys
  sysfsPath := nonEmpty entry.sysfs
  uniqueId := nonEmpty entry.uniq
  handlers := entry.handlers

/-- The texts that `finish_entry` checks. -/
def RawInputEntry.texts (entry : RawInputEntry) : List (List UInt8) :=
  [entry.name, entry.phys, entry.sysfs, entry.uniq] ++ entry.handlers

/-- `finish_entry`. -/
def finishEntry (st : ParserState) : Result ParserState :=
  if ¬ st.inEntry then .ok st
  else do
    requireUtf8 st.current.texts
    .ok { devices := st.devices ++ [inputDevice st.current] }

/-- `parse_key_hex`. -/
def parseKeyHex (payload key : List UInt8) : Result ℕ :=
  match findText key payload with
  | none => fail .malformedData
  | some pos => parseHexU16 ((payload.drop (pos + key.length)).takeWhile fun c => !isBlank c)

/-- The line with the numbers of a device. -/
def identityLine (current : RawInputEntry) (payload : List UInt8) : Result RawInputEntry :=
  match parseKeyHex payload (ascii "Bus="), parseKeyHex payload (ascii "Vendor="),
      parseKeyHex payload (ascii "Product="), parseKeyHex payload (ascii "Version=") with
  | .ok bus, .ok vendor, .ok product, .ok version =>
    .ok { current with bus := bus, vendor := vendor, product := product, version := version }
  | _, _, _, _ => fail .malformedData

/-- The line with the name, which stands in quotes. -/
def nameLine (current : RawInputEntry) (payload : List UInt8) : Result RawInputEntry :=
  match findText (ascii "Name=") payload with
  | none => fail .malformedData
  | some namePos =>
    let val := payload.drop (namePos + 5)
    let val :=
      if val.length ≥ 2 ∧ val.head? = some 0x22 ∧ val.getLast? = some 0x22 then
        (val.drop 1).take (val.length - 2)
      else val
    .ok { current with name := val }

/-- Where a bitmap is kept. -/
def storeBitmap (current : RawInputEntry) (payload : List UInt8) : RawInputEntry :=
  if ascii "PROP=" <+: payload then { current with propMask := payload.drop 5 }
  else if ascii "EV=" <+: payload then { current with evMask := payload.drop 3 }
  else if ascii "KEY=" <+: payload then { current with keyMask := payload.drop 4 }
  else if ascii "REL=" <+: payload then { current with relMask := payload.drop 4 }
  else if ascii "ABS=" <+: payload then { current with absMask := payload.drop 4 }
  else if ascii "SW=" <+: payload then { current with swMask := payload.drop 3 }
  else current

/-- A line with a bitmap. -/
def bitmapLine (current : RawInputEntry) (payload : List UInt8) : Result RawInputEntry :=
  match findByte 0x3D payload with
  | none => fail .malformedData
  | some equals =>
    if equals = 0 ∨ ¬ isValidHexBitmap (payload.drop (equals + 1)) then fail .malformedData
    else .ok (storeBitmap current payload)

/-- A line of a block behind the first. -/
def fieldLine (current : RawInputEntry) (tag : UInt8) (payload : List UInt8) :
    Result RawInputEntry :=
  if tag = 0x4E then nameLine current payload
  else if tag = 0x50 then
    .ok (if ascii "Phys=" <+: payload then { current with phys := payload.drop 5 } else current)
  else if tag = 0x53 then
    .ok (if ascii "Sysfs=" <+: payload then { current with sysfs := payload.drop 6 } else current)
  else if tag = 0x55 then
    .ok (if ascii "Uniq=" <+: payload then { current with uniq := payload.drop 5 } else current)
  else if tag = 0x48 then
    .ok (if ascii "Handlers=" <+: payload then
      { current with handlers := splitWords (payload.drop 9) } else current)
  else if tag = 0x42 then bitmapLine current payload
  else fail .malformedData

/-- A line with its tag. -/
def taggedLine (st : ParserState) (tag : UInt8) (payload : List UInt8) : Result ParserState :=
  if tag = 0x49 then do
    let st ← if st.inEntry then finishEntry st else .ok st
    let current ← identityLine st.current payload
    .ok { st with current := current, inEntry := true }
  else if ¬ st.inEntry then fail .malformedData
  else do
    let current ← fieldLine st.current tag payload
    .ok { st with current := current }

/-- A line of `parse_proc_bus_input_devices`. -/
def deviceLine (st : ParserState) (line : List UInt8) : Result ParserState :=
  match trimWhitespace line with
  | [] => finishEntry st
  | tag :: behind =>
    if behind.length < 2 ∨ behind.head? ≠ some 0x3A then fail .malformedData
    else taggedLine st tag (trimWhitespace (behind.drop 1))

/-- `parse_proc_bus_input_devices`. -/
def parseProcBusInputDevices (content : List UInt8) : Result (List InputDevice) := do
  let st ← (lines 0x0A content).foldlM deviceLine {}
  let st ← finishEntry st
  .ok st.devices

end Source

section Kernel

/-- The name of a device. -/
structure DeviceName where
  text : List UInt8
  valid : ValidUtf8 text
  no_newline : 0x0A ∉ text

/-- A path or an identifier, without blanks at its end. -/
structure FieldText where
  text : List UInt8
  valid : ValidUtf8 text
  no_newline : 0x0A ∉ text
  last_solid : ∀ c ∈ text.getLast?, isBlank c = false

/-- The words of a bitmap, the lowest one last. -/
structure Bitmap where
  words : List UInt64
  ne_nil : words ≠ []

def Bitmap.text (bitmap : Bitmap) : List UInt8 :=
  [0x20].intercalate (bitmap.words.map fun word => lowerHexadecimal word.toNat)

/-- The kinds of events that have a bitmap of their own. -/
inductive EventKind where
  | key
  | rel
  | abs
  | msc
  | led
  | snd
  | ff
  | sw
  deriving DecidableEq, Repr

def EventKind.name : EventKind → List UInt8
  | .key => ascii "KEY"
  | .rel => ascii "REL"
  | .abs => ascii "ABS"
  | .msc => ascii "MSC"
  | .led => ascii "LED"
  | .snd => ascii "SND"
  | .ff => ascii "FF"
  | .sw => ascii "SW"

/-- A device of the kernel. -/
structure KernelDevice where
  bus : UInt16
  vendor : UInt16
  product : UInt16
  version : UInt16
  name : DeviceName
  phys : FieldText
  sysfs : FieldText
  uniq : FieldText
  handlers : List (List UInt8)
  blank_free : ∀ handler ∈ handlers, ∀ c ∈ handler, isBlank c = false
  prop : Bitmap
  ev : Bitmap
  bitmaps : List (EventKind × Bitmap)

/-- A line with a tag, a key and a value. -/
def tagged (tag : UInt8) (key value : List UInt8) : List UInt8 :=
  tag :: 0x3A :: 0x20 :: (key ++ 0x3D :: value)

/-- A number with its key, and what follows behind a blank. -/
def keyed (key : List UInt8) (number : UInt16) (rest : List UInt8) : List UInt8 :=
  key ++ (paddedLowerHex 4 number.toNat ++ rest)

/-- The numbers of a device, behind the first key. -/
def KernelDevice.identity (d : KernelDevice) : List UInt8 :=
  keyed [] d.bus (0x20 :: keyed (ascii "Vendor=") d.vendor (0x20 ::
    keyed (ascii "Product=") d.product (0x20 :: keyed (ascii "Version=") d.version [])))

/-- The lines behind the first. -/
def KernelDevice.fields (d : KernelDevice) : List (List UInt8) :=
  [tagged 0x4E (ascii "Name") (0x22 :: (d.name.text ++ [0x22])),
    tagged 0x50 (ascii "Phys") d.phys.text,
    tagged 0x53 (ascii "Sysfs") d.sysfs.text,
    tagged 0x55 (ascii "Uniq") d.uniq.text,
    tagged 0x48 (ascii "Handlers") (d.handlers.flatMap fun handler => handler ++ [0x20]),
    tagged 0x42 (ascii "PROP") d.prop.text,
    tagged 0x42 (ascii "EV") d.ev.text] ++
  d.bitmaps.map fun bitmap => tagged 0x42 bitmap.1.name bitmap.2.text

def KernelDevice.lines (d : KernelDevice) : List (List UInt8) :=
  tagged 0x49 (ascii "Bus") d.identity :: d.fields

/-- A block for each device, with a number of empty lines behind it. -/
def blockLines (blocks : List (KernelDevice × ℕ)) : List (List UInt8) :=
  blocks.flatMap fun block => block.1.lines ++ List.replicate block.2 []

/-- The text with the blocks. -/
def blockText (blocks : List (KernelDevice × ℕ)) : List UInt8 :=
  (blockLines blocks).flatMap (· ++ [0x0A])

/-- The device that a block describes. -/
def KernelDevice.device (d : KernelDevice) : InputDevice where
  id := deviceId d.sysfs.text d.handlers
  name := d.name.text
  type := classifyDevice {
    name := d.name.text
    handlers := d.handlers
    propMask := d.prop.text
    evMask := d.ev.text }
  bus := busFromNumericId d.bus.toNat
  hardwareId := some {
    bus := busFromNumericId d.bus.toNat
    vendorId := d.vendor.toNat
    productId := d.product.toNat
    version := d.version.toNat }
  physicalLocation := nonEmpty d.phys.text
  sysfsPath := nonEmpty d.sysfs.text
  uniqueId := nonEmpty d.uniq.text
  handlers := d.handlers

end Kernel

section Bitmaps
variable {bitmap : Bitmap}

lemma Bitmap.solid {word : List UInt8}
    (hword : word ∈ bitmap.words.map fun word => lowerHexadecimal word.toNat) :
    word ≠ [] ∧ ∀ c ∈ word, isBlank c = false := by
  obtain ⟨value, -, rfl⟩ := List.mem_map.mp hword
  have hnumeral := numeral_lowerHexadecimal value.toNat
  exact ⟨hnumeral.ne_nil, isBlank_numeral hnumeral (by decide)⟩

lemma splitWords_text (bitmap : Bitmap) :
    splitWords bitmap.text = bitmap.words.map fun word => lowerHexadecimal word.toNat :=
  splitBlank_intercalate rfl fun _ hword => bitmap.solid hword

/-- The bitmaps that the kernel writes are valid. -/
lemma isValidHexBitmap_text (bitmap : Bitmap) : isValidHexBitmap bitmap.text = true := by
  unfold isValidHexBitmap
  rw [decide_eq_true_iff, splitWords_text]
  refine ⟨by simpa using bitmap.ne_nil, ?_⟩
  intro word hword
  obtain ⟨value, -, rfl⟩ := List.mem_map.mp hword
  have hvalue : value.toNat ≤ uint64Max := le_uint64Max value.toNat_lt
  rw [numberOf_numeral (numeral_lowerHexadecimal value.toNat) hvalue]
  rfl

lemma rdropWhile_text (bitmap : Bitmap) : bitmap.text.rdropWhile isBlank = bitmap.text := by
  apply rdropWhile_of_getLast?
  intro c hc
  obtain ⟨word, hword, hmem⟩ :=
    getLast?_intercalate (fun word hword => (bitmap.solid hword).1) c hc
  exact (bitmap.solid hword).2 c (List.mem_of_getLast? hmem)

end Bitmaps

section Fields
variable {devices : List InputDevice} {current next : RawInputEntry} {tag : UInt8}
  {key value : List UInt8}

/-- A line is taken apart into its tag and what is behind it. -/
lemma deviceLine_tagged (st : ParserState) (htag : isBlank tag = false)
    (hkey : key.head?.all (fun c => !isBlank c) = true) :
    deviceLine st (tagged tag key value) =
      taggedLine st tag (key ++ 0x3D :: value.rdropWhile isBlank) := by
  have hend (front : List UInt8) (rest : List UInt8) :
      (front ++ 0x3D :: rest).rdropWhile isBlank = front ++ 0x3D :: rest.rdropWhile isBlank :=
    rdropWhile_append_cons rfl front rest
  have hline : trimWhitespace (tagged tag key value) =
      tag :: 0x3A :: 0x20 :: (key ++ 0x3D :: value.rdropWhile isBlank) := by
    rw [trimWhitespace, tagged, List.dropWhile_cons_of_neg (by simp [htag])]
    exact hend (tag :: 0x3A :: 0x20 :: key) value
  have htwice : (value.rdropWhile isBlank).rdropWhile isBlank = value.rdropWhile isBlank :=
    List.rdropWhile_idempotent _ _
  have hpayload : trimWhitespace (0x20 :: (key ++ 0x3D :: value.rdropWhile isBlank)) =
      key ++ 0x3D :: value.rdropWhile isBlank := by
    rw [trimWhitespace, List.dropWhile_cons_of_pos rfl]
    have hhead : (key ++ 0x3D :: value.rdropWhile isBlank).dropWhile isBlank =
        key ++ 0x3D :: value.rdropWhile isBlank := by
      cases key with
      | nil => rfl
      | cons c key =>
        have hc : isBlank c = false := by simpa using hkey
        rw [List.cons_append, List.dropWhile_cons_of_neg (by simp [hc])]
    rw [hhead, hend, htwice]
  unfold deviceLine
  rw [hline]
  dsimp only
  rw [if_neg (by simp), List.drop_succ_cons, List.drop_zero, hpayload]

/-- A line of an entry behind its first. -/
lemma deviceLine_field (htag : isBlank tag = false) (hfirst : tag ≠ 0x49)
    (hkey : key.head?.all (fun c => !isBlank c) = true)
    (h : fieldLine current tag (key ++ 0x3D :: value.rdropWhile isBlank) = .ok next) :
    deviceLine ⟨devices, current, true⟩ (tagged tag key value) = .ok ⟨devices, next, true⟩ := by
  rw [deviceLine_tagged _ htag hkey, taggedLine, if_neg hfirst, if_neg (by simp), h]
  rfl

lemma nameLine_quoted (name : List UInt8) :
    nameLine current (ascii "Name=" ++ 0x22 :: (name ++ [0x22])) =
      .ok { current with name := name } := by
  have hdrop : (ascii "Name=" ++ 0x22 :: (name ++ [0x22])).drop (0 + 5) =
      0x22 :: (name ++ [0x22]) := rfl
  have hlast : (0x22 :: (name ++ [0x22])).getLast? = some 0x22 := by
    rw [← List.cons_append, List.getLast?_concat]
  unfold nameLine
  rw [findText_start]
  dsimp only
  rw [hdrop, if_pos ⟨by simp, rfl, hlast⟩]
  simp

lemma bitmapLine_text (bitmap : Bitmap) (hne : key ≠ []) (hkey : 0x3D ∉ key) :
    bitmapLine current (key ++ 0x3D :: bitmap.text) =
      .ok (storeBitmap current (key ++ 0x3D :: bitmap.text)) := by
  have hlength : key.length ≠ 0 := by simpa using hne
  have hdrop : (key ++ 0x3D :: bitmap.text).drop (key.length + 1) = bitmap.text := by
    rw [← List.drop_drop, List.drop_left, List.drop_succ_cons, List.drop_zero]
  unfold bitmapLine
  rw [findByte_append hkey]
  dsimp only
  rw [hdrop, isValidHexBitmap_text, if_neg (by simp [hlength])]

/-- A bitmap of events changes nothing that the device is made of. -/
lemma storeBitmap_event (current : RawInputEntry) (kind : EventKind) (text : List UInt8) :
    inputDevice (storeBitmap current (kind.name ++ 0x3D :: text)) = inputDevice current ∧
      (storeBitmap current (kind.name ++ 0x3D :: text)).texts = current.texts := by
  unfold storeBitmap
  have hprop : ¬ ascii "PROP=" <+: kind.name ++ 0x3D :: text := by
    cases kind <;> simp [ascii, EventKind.name]
  have hev : ¬ ascii "EV=" <+: kind.name ++ 0x3D :: text := by
    cases kind <;> simp [ascii, EventKind.name]
  rw [if_neg hprop, if_neg hev]
  split_ifs
  all_goals exact ⟨rfl, rfl⟩

end Fields

section Identity
variable {n : ℕ} {key text rest payload : List UInt8}

/-- The number behind a key, up to a blank or the end. -/
lemma parseKeyHex_start (h : Numeral 16 n text) (hfits : n < 2 ^ 16)
    (hrest : ∀ c ∈ rest.head?, isBlank c = true) :
    parseKeyHex (key ++ (text ++ rest)) key = .ok n := by
  have hdrop : (key ++ (text ++ rest)).drop (0 + key.length) = text ++ rest := by
    rw [Nat.zero_add, List.drop_left]
  have htake : (text ++ rest).takeWhile (fun c => !isBlank c) = text := by
    have hsolid : ∀ c ∈ text, (!isBlank c) = true := by
      intro c hc
      rw [isBlank_numeral h (by decide) c hc]
      rfl
    rw [List.takeWhile_append_of_pos hsolid]
    cases rest with
    | nil => simp
    | cons c rest =>
      have hc : isBlank c = true := by simpa using hrest
      rw [List.takeWhile_cons_of_neg (by simp [hc]), List.append_nil]
  unfold parseKeyHex
  rw [findText_start]
  dsimp only
  rw [hdrop, htake, parseHexU16_numeral h hfits]

lemma parseKeyHex_next {c : UInt8} (h : ¬ key <+: c :: payload) :
    parseKeyHex (c :: payload) key = parseKeyHex payload key := by
  unfold parseKeyHex
  rw [findText, if_neg h]
  cases findText key payload with
  | none => rfl
  | some pos =>
    dsimp only [Option.map_some]
    rw [Nat.add_right_comm, List.drop_succ_cons]

/-- A key is not found among bytes that it does not begin with. -/
lemma parseKeyHex_skip {c : UInt8} {front : List UInt8} (h : c ∉ front) :
    parseKeyHex (front ++ payload) (c :: key) = parseKeyHex payload (c :: key) := by
  induction front with
  | nil => rfl
  | cons d front ih =>
    rw [List.mem_cons, not_or] at h
    have hnot : ¬ c :: key <+: d :: (front ++ payload) := by
      rw [List.cons_prefix_cons]
      exact fun hstart => h.1 hstart.1
    rw [List.cons_append, parseKeyHex_next hnot, ih h.2]

/-- A key that begins with no digit is not found in the number of another one. -/
lemma parseKeyHex_keyed {c : UInt8} {other : List UInt8} (number : UInt16)
    (hother : other.all (fun d => d ≠ c) = true) (hdigit : ¬ FromChars.digit c < 16)
    (hblank : c ≠ 0x20) :
    parseKeyHex (keyed other number (0x20 :: payload)) (c :: key) =
      parseKeyHex payload (c :: key) := by
  have hnumber : c ∉ paddedLowerHex 4 number.toNat :=
    fun hmem => hdigit ((numeral_paddedLowerHex 4 number.toNat).digits c hmem)
  have hfront : c ∉ other := fun hmem => by simpa using List.all_eq_true.mp hother c hmem
  have hskip := @parseKeyHex_skip key payload c [0x20] (by simpa using hblank)
  rw [keyed, parseKeyHex_skip hfront, parseKeyHex_skip hnumber]
  exact hskip

lemma parseKeyHex_own (number : UInt16) (hrest : ∀ c ∈ rest.head?, isBlank c = true) :
    parseKeyHex (keyed key number rest) key = .ok number.toNat :=
  parseKeyHex_start (numeral_paddedLowerHex 4 number.toNat) number.toNat_lt hrest

/-- The entry behind the first line of a block. -/
def KernelDevice.identified (d : KernelDevice) : RawInputEntry where
  bus := d.bus.toNat
  vendor := d.vendor.toNat
  product := d.product.toNat
  version := d.version.toNat

lemma identityLine_identity (d : KernelDevice) :
    identityLine {} (ascii "Bus" ++ 0x3D :: d.identity) = .ok d.identified := by
  have hblank (rest : List UInt8) : ∀ c ∈ (0x20 :: rest).head?, isBlank c = true := by
    simp [isBlank]
  set version := keyed (ascii "Version=") d.version []
  set product := keyed (ascii "Product=") d.product (0x20 :: version)
  set vendor := keyed (ascii "Vendor=") d.vendor (0x20 :: product)
  have hpayload : ascii "Bus" ++ 0x3D :: d.identity =
      keyed (ascii "Bus=") d.bus (0x20 :: vendor) := rfl
  have hbus : parseKeyHex (keyed (ascii "Bus=") d.bus (0x20 :: vendor)) (ascii "Bus=") =
      .ok d.bus.toNat := parseKeyHex_own _ (hblank _)
  have hvendor : parseKeyHex (keyed (ascii "Bus=") d.bus (0x20 :: vendor)) (ascii "Vendor=") =
      .ok d.vendor.toNat := by
    refine (parseKeyHex_keyed _ rfl (by decide) (by decide)).trans ?_
    exact parseKeyHex_own _ (hblank _)
  have hproduct : parseKeyHex (keyed (ascii "Bus=") d.bus (0x20 :: vendor)) (ascii "Product=") =
      .ok d.product.toNat := by
    refine (parseKeyHex_keyed _ rfl (by decide) (by decide)).trans ?_
    refine (parseKeyHex_keyed _ rfl (by decide) (by decide)).trans ?_
    exact parseKeyHex_own _ (hblank _)
  have hversion : parseKeyHex (keyed (ascii "Bus=") d.bus (0x20 :: vendor)) (ascii "Version=") =
      .ok d.version.toNat := by
    refine (parseKeyHex_keyed _ rfl (by decide) (by decide)).trans ?_
    -- the two keys with the same first letter differ behind it
    have hnext :
        ¬ ascii "Version=" <+: 0x56 :: keyed (ascii "endor=") d.vendor (0x20 :: product) := by
      simp [ascii, keyed]
    refine (parseKeyHex_next hnext).trans ?_
    refine (parseKeyHex_keyed _ rfl (by decide) (by decide)).trans ?_
    refine (parseKeyHex_keyed _ rfl (by decide) (by decide)).trans ?_
    exact parseKeyHex_own _ (by simp)
  unfold identityLine
  rw [hpayload, hbus, hvendor, hproduct, hversion]
  rfl

end Identity

section Blocks
variable {st : ParserState} {devices : List InputDevice} {blocks : List (KernelDevice × ℕ)}

/-- Empty handlers are not seen. -/
def KernelDevice.seenHandlers (d : KernelDevice) : List (List UInt8) :=
  d.handlers.filter fun handler => handler ≠ []

/-- The entry behind the lines of a block, but for the bitmaps of the events. -/
def KernelDevice.described (d : KernelDevice) : RawInputEntry :=
  { d.identified with
    name := d.name.text
    phys := d.phys.text
    sysfs := d.sysfs.text
    uniq := d.uniq.text
    handlers := d.seenHandlers
    propMask := d.prop.text
    evMask := d.ev.text }

/-- The entry behind all lines of a block. -/
def KernelDevice.entry (d : KernelDevice) : RawInputEntry :=
  d.bitmaps.foldl
    (fun entry bitmap => storeBitmap entry (bitmap.1.name ++ 0x3D :: bitmap.2.text)) d.described

lemma inputDevice_entry (d : KernelDevice) :
    inputDevice d.entry = inputDevice d.described ∧ d.entry.texts = d.described.texts := by
  unfold KernelDevice.entry
  generalize d.described = entry
  induction d.bitmaps generalizing entry with
  | nil => exact ⟨rfl, rfl⟩
  | cons bitmap bitmaps ih =>
    obtain ⟨hdevice, htexts⟩ := storeBitmap_event entry bitmap.1 bitmap.2.text
    rw [List.foldl_cons, (ih _).1, (ih _).2, hdevice, htexts]
    exact ⟨rfl, rfl⟩

lemma FieldText.rdropWhile (field : FieldText) : field.text.rdropWhile isBlank = field.text :=
  rdropWhile_of_getLast? field.last_solid

lemma splitWords_rdropWhile (text : List UInt8) :
    splitWords (text.rdropWhile isBlank) = splitWords text := by
  obtain ⟨core, back, rfl, hback, hcore⟩ := exists_trimmed isBlank text
  rw [rdropWhile_append_blanks hback, rdropWhile_of_getLast? hcore, splitWords, splitWords,
    splitBlank_trailing _ hback]

/-- The bitmaps of the events are read in any order. -/
lemma foldlM_bitmaps (bitmaps : List (EventKind × Bitmap)) (current : RawInputEntry) :
    (bitmaps.map fun bitmap => tagged 0x42 bitmap.1.name bitmap.2.text).foldlM deviceLine
      ⟨devices, current, true⟩ = .ok ⟨devices, bitmaps.foldl (fun entry bitmap =>
        storeBitmap entry (bitmap.1.name ++ 0x3D :: bitmap.2.text)) current, true⟩ := by
  induction bitmaps generalizing current with
  | nil => rfl
  | cons bitmap bitmaps ih =>
    obtain ⟨kind, bitmap⟩ := bitmap
    have hname : kind.name.head?.all (fun c => !isBlank c) = true := by cases kind <;> rfl
    have hne : kind.name ≠ [] := by cases kind <;> decide
    have hequals : 0x3D ∉ kind.name := by cases kind <;> decide
    have hline : fieldLine current 0x42 (kind.name ++ 0x3D :: bitmap.text.rdropWhile isBlank) =
        .ok (storeBitmap current (kind.name ++ 0x3D :: bitmap.text)) := by
      rw [rdropWhile_text]
      exact bitmapLine_text bitmap hne hequals
    rw [List.map_cons, List.foldlM_cons, deviceLine_field rfl (by decide) hname hline, ok_bind, ih]
    rfl

/-- The lines of a block behind the first give its entry. -/
lemma foldlM_fields (d : KernelDevice) :
    d.fields.foldlM deviceLine ⟨devices, d.identified, true⟩ = .ok ⟨devices, d.entry, true⟩ := by
  have hname {current : RawInputEntry} : deviceLine ⟨devices, current, true⟩
      (tagged 0x4E (ascii "Name") (0x22 :: (d.name.text ++ [0x22]))) =
      .ok ⟨devices, { current with name := d.name.text }, true⟩ := by
    have hquoted : (0x22 :: (d.name.text ++ [0x22])).rdropWhile isBlank =
        0x22 :: (d.name.text ++ [0x22]) :=
      @rdropWhile_append_cons isBlank 0x22 rfl (0x22 :: d.name.text) []
    refine deviceLine_field rfl (by decide) rfl ?_
    rw [hquoted]
    exact nameLine_quoted d.name.text
  have hphys {current : RawInputEntry} : deviceLine ⟨devices, current, true⟩
      (tagged 0x50 (ascii "Phys") d.phys.text) =
      .ok ⟨devices, { current with phys := d.phys.text }, true⟩ := by
    refine deviceLine_field rfl (by decide) rfl ?_
    rw [d.phys.rdropWhile]
    rfl
  have hsysfs {current : RawInputEntry} : deviceLine ⟨devices, current, true⟩
      (tagged 0x53 (ascii "Sysfs") d.sysfs.text) =
      .ok ⟨devices, { current with sysfs := d.sysfs.text }, true⟩ := by
    refine deviceLine_field rfl (by decide) rfl ?_
    rw [d.sysfs.rdropWhile]
    rfl
  have huniq {current : RawInputEntry} : deviceLine ⟨devices, current, true⟩
      (tagged 0x55 (ascii "Uniq") d.uniq.text) =
      .ok ⟨devices, { current with uniq := d.uniq.text }, true⟩ := by
    refine deviceLine_field rfl (by decide) rfl ?_
    rw [d.uniq.rdropWhile]
    rfl
  have hhandlers {current : RawInputEntry} : deviceLine ⟨devices, current, true⟩
      (tagged 0x48 (ascii "Handlers") (d.handlers.flatMap fun handler => handler ++ [0x20])) =
      .ok ⟨devices, { current with handlers := d.seenHandlers }, true⟩ := by
    have hwords : splitWords ((d.handlers.flatMap fun handler => handler ++ [0x20]).rdropWhile
        isBlank) = d.seenHandlers := by
      rw [splitWords_rdropWhile]
      exact splitBlank_flatMap rfl d.blank_free
    refine deviceLine_field rfl (by decide) rfl ?_
    rw [← hwords]
    rfl
  have hprop {current : RawInputEntry} : deviceLine ⟨devices, current, true⟩
      (tagged 0x42 (ascii "PROP") d.prop.text) =
      .ok ⟨devices, { current with propMask := d.prop.text }, true⟩ := by
    refine deviceLine_field rfl (by decide) rfl ?_
    rw [rdropWhile_text]
    exact @bitmapLine_text _ (ascii "PROP") d.prop (by decide) (by decide)
  have hev {current : RawInputEntry} : deviceLine ⟨devices, current, true⟩
      (tagged 0x42 (ascii "EV") d.ev.text) =
      .ok ⟨devices, { current with evMask := d.ev.text }, true⟩ := by
    refine deviceLine_field rfl (by decide) rfl ?_
    rw [rdropWhile_text]
    exact @bitmapLine_text _ (ascii "EV") d.ev (by decide) (by decide)
  unfold KernelDevice.fields
  simp only [List.foldlM_append, List.foldlM_cons, List.foldlM_nil, hname, hphys, hsysfs, huniq,
    hhandlers, hprop, hev, ok_bind, pure_eq_ok, foldlM_bitmaps]
  rfl

end Blocks

section Runs
variable {st next : ParserState} {blocks : List (KernelDevice × ℕ)}

lemma requireUtf8_eq (texts : List (List UInt8)) :
    requireUtf8 texts =
      if ∀ text ∈ texts, ValidUtf8 text then .ok () else fail .malformedData := by
  induction texts with
  | nil => rfl
  | cons text texts ih =>
    rw [requireUtf8, isValidUtf8_eq, ok_bind, ih]
    by_cases h : ValidUtf8 text
    · simp [h]
    · simp [h]

/-- Outside an entry nothing is left of the last one. -/
def Settled (st : ParserState) : Prop := st.inEntry = false → st.current = {}

/-- An entry that is finished is left behind. -/
lemma finishEntry_settles (hst : Settled st) (h : finishEntry st = .ok next) :
    next = { devices := next.devices } := by
  obtain ⟨devices, current, inEntry⟩ := st
  cases inEntry with
  | false =>
    have hcurrent : current = {} := hst rfl
    cases h
    rw [hcurrent]
  | true =>
    obtain ⟨_, -, hok⟩ := bind_eq_ok.mp h
    cases hok
    rfl

lemma KernelDevice.rdropWhile_identity (d : KernelDevice) :
    d.identity.rdropWhile isBlank = d.identity := by
  have hnumeral := numeral_paddedLowerHex 4 d.version.toNat
  have hend : d.identity = keyed [] d.bus (0x20 :: keyed (ascii "Vendor=") d.vendor (0x20 ::
      keyed (ascii "Product=") d.product (0x20 :: ascii "Version="))) ++
        paddedLowerHex 4 d.version.toNat := by
    simp [KernelDevice.identity, keyed]
  apply rdropWhile_of_getLast?
  intro c hc
  rw [hend, List.getLast?_append_of_ne_nil _ hnumeral.ne_nil] at hc
  exact isBlank_numeral hnumeral (by decide) c (List.mem_of_getLast? hc)

/-- A first line finishes the entry before it, if there is one. -/
lemma taggedLine_first (st : ParserState) (payload : List UInt8) :
    taggedLine st 0x49 payload = finishEntry st >>= fun st =>
      identityLine st.current payload >>= fun current =>
        .ok { st with current := current, inEntry := true } := by
  unfold taggedLine
  cases hin : st.inEntry with
  | false =>
    have hfinish : finishEntry st = .ok st := by
      unfold finishEntry
      rw [hin]
      rfl
    rw [hfinish]
    rfl
  | true => rfl

/-- The first line of a block finishes the entry before it. -/
lemma deviceLine_identity (d : KernelDevice) (hst : Settled st) :
    deviceLine st (tagged 0x49 (ascii "Bus") d.identity) =
      finishEntry st >>= fun st => .ok ⟨st.devices, d.identified, true⟩ := by
  rw [deviceLine_tagged st rfl rfl, d.rdropWhile_identity, taggedLine_first]
  cases hnext : finishEntry st with
  | error e => rfl
  | ok next =>
    rw [ok_bind, finishEntry_settles hst hnext, identityLine_identity]
    rfl

/-- One more device, as the end of its entry adds it. -/
def addDevice (devices : List InputDevice) (d : KernelDevice) : Result (List InputDevice) := do
  requireUtf8 d.entry.texts
  .ok (devices ++ [inputDevice d.entry])

/-- The devices of the blocks, behind those before. -/
def addDevices (blocks : List (KernelDevice × ℕ)) (devices : List InputDevice) :
    Result ParserState := do
  let devices ← (blocks.map Prod.fst).foldlM addDevice devices
  .ok { devices := devices }

/-- Empty lines behind a block finish its entry, if there are any. -/
lemma foldlM_gap (gap : ℕ) (hst : Settled st)
    (hrest : ∀ st, Settled st → (blockLines blocks).foldlM deviceLine st >>= finishEntry =
      finishEntry st >>= fun st => addDevices blocks st.devices) :
    (List.replicate gap [] ++ blockLines blocks).foldlM deviceLine st >>= finishEntry =
      finishEntry st >>= fun st => addDevices blocks st.devices := by
  induction gap generalizing st with
  | zero => exact hrest st hst
  | succ gap ih =>
    have hempty : deviceLine st [] = finishEntry st := rfl
    rw [List.replicate_succ, List.cons_append, List.foldlM_cons, hempty]
    cases hnext : finishEntry st with
    | error e => rfl
    | ok next =>
      have hsettled := finishEntry_settles hst hnext
      rw [ok_bind, hsettled, ih fun _ => rfl]
      rfl

/-- Every block adds its device, and nothing of it is left for the next one. -/
theorem foldlM_blocks (hst : Settled st) :
    (blockLines blocks).foldlM deviceLine st >>= finishEntry =
      finishEntry st >>= fun st => addDevices blocks st.devices := by
  induction blocks generalizing st with
  | nil =>
    have hrun : (blockLines []).foldlM deviceLine st >>= finishEntry = finishEntry st := rfl
    rw [hrun]
    cases hnext : finishEntry st with
    | error e => rfl
    | ok next => exact congrArg _ (finishEntry_settles hst hnext)
  | cons block blocks ih =>
    obtain ⟨d, gap⟩ := block
    have hlines : blockLines ((d, gap) :: blocks) =
        tagged 0x49 (ascii "Bus") d.identity ::
          (d.fields ++ (List.replicate gap [] ++ blockLines blocks)) := by
      simp [blockLines, KernelDevice.lines]
    rw [hlines, List.foldlM_cons, deviceLine_identity d hst]
    cases hnext : finishEntry st with
    | error e => rfl
    | ok next =>
      have hset : Settled ⟨next.devices, d.entry, true⟩ := fun h => nomatch h
      rw [ok_bind, ok_bind, ok_bind, List.foldlM_append, foldlM_fields, ok_bind,
        foldlM_gap gap hset fun st hst => ih hst]
      unfold addDevices
      rw [List.map_cons, List.foldlM_cons, addDevice]
      show (requireUtf8 d.entry.texts >>= _) >>= _ = _
      cases requireUtf8 d.entry.texts with
      | error e => rfl
      | ok _ => rfl

/-- A device is added unless one of its handlers is not valid. -/
lemma addDevice_eq (devices : List InputDevice) (d : KernelDevice) :
    addDevice devices d =
      if ∀ handler ∈ d.handlers, ValidUtf8 handler then
        .ok (devices ++ [inputDevice d.described])
      else fail .malformedData := by
  have htexts : (∀ text ∈ d.described.texts, ValidUtf8 text) ↔
      ∀ handler ∈ d.handlers, ValidUtf8 handler := by
    unfold RawInputEntry.texts
    constructor
    · intro h handler hhandler
      by_cases hnil : handler = []
      · rw [hnil]
        exact validUtf8_nil
      · refine h handler (List.mem_append_right _ ?_)
        exact List.mem_filter.mpr ⟨hhandler, by simpa using hnil⟩
    · intro h text htext
      rcases List.mem_append.mp htext with hfield | hhandler
      · simp only [List.mem_cons, List.not_mem_nil, or_false] at hfield
        rcases hfield with rfl | rfl | rfl | rfl
        · exact d.name.valid
        · exact d.phys.valid
        · exact d.sysfs.valid
        · exact d.uniq.valid
      · exact h text (List.mem_of_mem_filter hhandler)
  obtain ⟨hdevice, hsame⟩ := inputDevice_entry d
  rw [addDevice, hdevice, hsame, requireUtf8_eq]
  by_cases h : ∀ handler ∈ d.handlers, ValidUtf8 handler
  · rw [if_pos h, if_pos (htexts.mpr h), ok_bind]
  · rw [if_neg h, if_neg fun hall => h (htexts.mp hall), fail_bind]

lemma foldlM_addDevice (ds : List KernelDevice) (devices : List InputDevice) :
    ds.foldlM addDevice devices =
      if ∀ d ∈ ds, ∀ handler ∈ d.handlers, ValidUtf8 handler then
        .ok (devices ++ ds.map fun d => inputDevice d.described)
      else fail .malformedData :=
  @foldlM_guard _ _ _ _ _ id _ _ _ _ addDevice_eq ds devices

section Newlines

lemma not_mem_tagged {tag : UInt8} {key value : List UInt8} (htag : tag ≠ 0x0A)
    (hkey : 0x0A ∉ key) (hvalue : 0x0A ∉ value) : 0x0A ∉ tagged tag key value := by
  simp [tagged, htag.symm, hkey, hvalue]

lemma not_mem_numeral {base n : ℕ} {text : List UInt8} (h : Numeral base n text)
    (hbase : base ≤ 36) : 0x0A ∉ text := by
  intro hmem
  have hsolid := isBlank_numeral h hbase 0x0A hmem
  cases hsolid

lemma Bitmap.no_newline (bitmap : Bitmap) : 0x0A ∉ bitmap.text := by
  intro hmem
  rcases mem_intercalate hmem with hblank | ⟨word, hword, hin⟩
  · cases hblank
  · have hsolid := (bitmap.solid hword).2 0x0A hin
    cases hsolid

lemma KernelDevice.no_newline (d : KernelDevice) : ∀ line ∈ d.lines, 0x0A ∉ line := by
  have hnumber (number : UInt16) : 0x0A ∉ paddedLowerHex 4 number.toNat :=
    not_mem_numeral (numeral_paddedLowerHex 4 number.toNat) (by decide)
  have hidentity : 0x0A ∉ d.identity := by
    simp [KernelDevice.identity, keyed, hnumber, ascii]
  have hhandlers : 0x0A ∉ d.handlers.flatMap fun handler => handler ++ [0x20] := by
    intro hmem
    obtain ⟨handler, hhandler, hin⟩ := List.mem_flatMap.mp hmem
    rcases List.mem_append.mp hin with hin | hin
    · have hsolid := d.blank_free handler hhandler 0x0A hin
      cases hsolid
    · simp at hin
  intro line hline
  simp only [KernelDevice.lines, KernelDevice.fields, List.mem_cons, List.mem_append,
    List.not_mem_nil, or_false, List.mem_map] at hline
  rcases hline with rfl | (rfl | rfl | rfl | rfl | rfl | rfl | rfl) | ⟨⟨kind, bitmap⟩, -, rfl⟩
  · exact not_mem_tagged (by decide) (by decide) hidentity
  · refine not_mem_tagged (by decide) (by decide) ?_
    simp [d.name.no_newline]
  · exact not_mem_tagged (by decide) (by decide) d.phys.no_newline
  · exact not_mem_tagged (by decide) (by decide) d.sysfs.no_newline
  · exact not_mem_tagged (by decide) (by decide) d.uniq.no_newline
  · exact not_mem_tagged (by decide) (by decide) hhandlers
  · exact not_mem_tagged (by decide) (by decide) d.prop.no_newline
  · exact not_mem_tagged (by decide) (by decide) d.ev.no_newline
  · have hname : 0x0A ∉ kind.name := by cases kind <;> decide
    exact not_mem_tagged (by decide) hname bitmap.no_newline

lemma lines_blockText (blocks : List (KernelDevice × ℕ)) :
    lines 0x0A (blockText blocks) = blockLines blocks := by
  have hlines : ∀ line ∈ blockLines blocks, 0x0A ∉ line := by
    intro line hline
    obtain ⟨block, -, hmem⟩ := List.mem_flatMap.mp hline
    rcases List.mem_append.mp hmem with hmem | hmem
    · exact block.1.no_newline line hmem
    · rw [(List.mem_replicate.mp hmem).2]
      simp
  exact lines_flatMap_sep hlines

end Newlines

/-- The devices are those of the blocks, unless a handler is not valid. -/
theorem parseProcBusInputDevices_blockText (blocks : List (KernelDevice × ℕ)) :
    parseProcBusInputDevices (blockText blocks) =
      if ∀ block ∈ blocks, ∀ handler ∈ block.1.handlers, ValidUtf8 handler then
        .ok (blocks.map fun block => inputDevice block.1.described)
      else fail .malformedData := by
  have hrun := @foldlM_blocks {} blocks fun _ => rfl
  have hall : (∀ d ∈ blocks.map Prod.fst, ∀ handler ∈ d.handlers, ValidUtf8 handler) ↔
      ∀ block ∈ blocks, ∀ handler ∈ block.1.handlers, ValidUtf8 handler := List.forall_mem_map
  have hstart : finishEntry {} = .ok {} := rfl
  unfold parseProcBusInputDevices
  rw [lines_blockText, ← bind_assoc, hrun, hstart, ok_bind, addDevices, foldlM_addDevice]
  by_cases h : ∀ block ∈ blocks, ∀ handler ∈ block.1.handlers, ValidUtf8 handler
  · rw [if_pos h, if_pos (hall.mpr h), List.map_map]
    rfl
  · rw [if_neg h, if_neg fun hvalid => h (hall.mp hvalid)]
    rfl

/-- A block is read as its device just when every handler is seen. -/
lemma inputDevice_described (d : KernelDevice) :
    inputDevice d.described = d.device ↔ ∀ handler ∈ d.handlers, handler ≠ [] := by
  have hseen : d.seenHandlers = d.handlers ↔ ∀ handler ∈ d.handlers, handler ≠ [] := by
    rw [KernelDevice.seenHandlers, List.filter_eq_self]
    simp
  rw [← hseen]
  constructor
  · intro h
    exact congrArg InputDevice.handlers h
  · intro h
    unfold KernelDevice.device
    rw [← h]
    rfl

/-- Each block is read as its own device just when all handlers are texts that can be shown; and
empty lines between the blocks do not matter. -/
theorem parse_proc_bus_input_devices :
    (∀ blocks : List (KernelDevice × ℕ),
      parseProcBusInputDevices (blockText blocks) = .ok (blocks.map fun block => block.1.device) ↔
        ∀ block ∈ blocks, ∀ handler ∈ block.1.handlers, handler ≠ [] ∧ ValidUtf8 handler) ∧
    ∀ blocks : List (KernelDevice × ℕ),
      parseProcBusInputDevices (blockText blocks) =
        parseProcBusInputDevices (blockText (blocks.map fun block => (block.1, 0))) := by
  constructor
  · intro blocks
    rw [parseProcBusInputDevices_blockText]
    by_cases h : ∀ block ∈ blocks, ∀ handler ∈ block.1.handlers, ValidUtf8 handler
    · rw [if_pos h, Except.ok.injEq, List.map_inj_left]
      refine forall₂_congr fun block hblock => ?_
      rw [inputDevice_described]
      exact ⟨fun hne handler hmem => ⟨hne handler hmem, h block hblock handler hmem⟩,
        fun hall handler hmem => (hall handler hmem).1⟩
    · rw [if_neg h]
      constructor
      · intro hfail
        cases hfail
      · intro hall
        exact absurd (fun block hblock handler hmem => (hall block hblock handler hmem).2) h
  · intro blocks
    rw [parseProcBusInputDevices_blockText, parseProcBusInputDevices_blockText, List.map_map]
    have hsame : (∀ block ∈ blocks, ∀ handler ∈ block.1.handlers, ValidUtf8 handler) ↔
        ∀ block ∈ blocks.map fun block => (block.1, 0),
          ∀ handler ∈ block.1.handlers, ValidUtf8 handler := by
      rw [List.forall_mem_map]
    exact if_congr hsame rfl rfl

/-- A device with handlers and nothing else. -/
def handlerDevice (handlers : List (List UInt8))
    (h : ∀ handler ∈ handlers, ∀ c ∈ handler, isBlank c = false) : KernelDevice where
  bus := 0x03
  vendor := 0x1532
  product := 0x98
  version := 0x111
  name := ⟨[], validUtf8_nil, by simp⟩
  phys := ⟨[], validUtf8_nil, by simp, by simp⟩
  sysfs := ⟨[], validUtf8_nil, by simp, by simp⟩
  uniq := ⟨[], validUtf8_nil, by simp, by simp⟩
  handlers := handlers
  blank_free := h
  prop := ⟨[0], by simp⟩
  ev := ⟨[0x17], by simp⟩
  bitmaps := []

/-- A handler that is not UTF-8 makes the whole text malformed. -/
theorem parse_proc_bus_input_devices_handler :
    parseProcBusInputDevices (blockText [(handlerDevice [[0xFF]] (by simp [isBlank]), 1)]) ≠
      .ok [(handlerDevice [[0xFF]] (by simp [isBlank])).device] := by
  rw [parseProcBusInputDevices_blockText, if_neg]
  · exact fail_ne_ok _ _
  · intro h
    have hvalid : ValidUtf8 [0xFF] :=
      h _ (List.mem_singleton.mpr rfl) [0xFF] (List.mem_singleton.mpr rfl)
    exact not_validUtf8_ff hvalid

end Runs

end Syscape.Input
