import Syscape.Printer

/-!
# IPP responses about printers

`parse_ipp_printers_response` reads the header of a response and then one tag after the
other: the beginning of a group of attributes, the value of an attribute, or the end. The
attributes of a printer group are collected in one record, which the next group or the
end completes. Positions are indices into the response, and every access is checked.
-/
namespace Syscape.Ipp
open Checked Text Printer

section Writing

/-- `append_uint16`. -/
def appendUint16 (buf : List UInt8) (val : ℕ) : List UInt8 :=
  buf ++ [UInt8.ofNat ((val >>> 8) &&& 0xFF), UInt8.ofNat (val &&& 0xFF)]

/-- `append_uint32`. -/
def appendUint32 (buf : List UInt8) (val : ℕ) : List UInt8 :=
  buf ++ [UInt8.ofNat ((val >>> 24) &&& 0xFF), UInt8.ofNat ((val >>> 16) &&& 0xFF),
    UInt8.ofNat ((val >>> 8) &&& 0xFF), UInt8.ofNat (val &&& 0xFF)]

/-- `append_string_attr`. -/
def appendStringAttr (buf : List UInt8) (tag : UInt8) (name val : List UInt8) : List UInt8 :=
  appendUint16 (appendUint16 (buf ++ [tag]) (name.length % 2 ^ 16) ++ name)
    (val.length % 2 ^ 16) ++ val

end Writing

section Reading

/-- `read_uint16`. -/
def readUint16 (data : List UInt8) (offset : ℕ) : Result (Option ℕ) :=
  if offset + 2 > data.length then .ok none
  else do
    let b0 ← readByte data offset
    let b1 ← readByte data (offset + 1)
    .ok (some ((b0 <<< 8) ||| b1))

/-- `read_uint32`. -/
def readUint32 (data : List UInt8) (offset : ℕ) : Result (Option ℕ) :=
  if offset + 4 > data.length then .ok none
  else do
    let b0 ← readByte data offset
    let b1 ← readByte data (offset + 1)
    let b2 ← readByte data (offset + 2)
    let b3 ← readByte data (offset + 3)
    .ok (some ((b0 <<< 24) ||| (b1 <<< 16) ||| (b2 <<< 8) ||| b3))

/-- The value of an attribute of one byte, which is zero or one. -/
def booleanValue (value : List UInt8) : Result Bool :=
  if value.length ≠ 1 then fail .malformedData
  else do
    let b ← readByte value 0
    if b > 1 then fail .malformedData else .ok (b ≠ 0)

/-- The value of an attribute of four bytes, as they are. -/
def wordValue (value : List UInt8) : Result ℕ :=
  if value.length ≠ 4 then fail .malformedData
  else do
    match ← readUint32 value 0 with
    | none => fail .malformedData
    | some n => .ok n

/-- The value of an attribute of four bytes, which is not negative. -/
def integerValue (value : List UInt8) : Result ℕ := do
  let n ← wordValue value
  if n > 0x7FFFFFFF then fail .malformedData else .ok n

/-- The value of `printer-resolution-supported`, as a text. -/
def resolutionValue (value : List UInt8) : Result (List UInt8) :=
  if value.length ≠ 9 then fail .malformedData
  else do
    let xres ← readUint32 value 0
    let yres ← readUint32 value 4
    let units ← readByte value 8
    match xres, yres with
    | some x, some y =>
      if x ≠ 0 ∧ y ≠ 0 ∧ x ≤ 0x7FFFFFFF ∧ y ≤ 0x7FFFFFFF ∧ (units = 3 ∨ units = 4) then
        .ok (Digits.decimal x ++ ascii "x" ++ Digits.decimal y ++
          (if units = 4 then ascii " dpcm" else ascii " dpi"))
      else fail .malformedData
    | _, _ => fail .malformedData

/-- The value of `copies-supported`: a number, or the upper end of a range. -/
def copiesValue (value : List UInt8) : Result ℕ :=
  if value.length = 4 then do
    match ← readUint32 value 0 with
    | some maxC => if maxC ≠ 0 ∧ maxC ≤ 0x7FFFFFFF then .ok maxC else fail .malformedData
    | none => fail .malformedData
  else if value.length = 8 then do
    let minC ← readUint32 value 0
    let maxC ← readUint32 value 4
    match minC, maxC with
    | some minC, some maxC =>
      if minC ≠ 0 ∧ minC ≤ maxC ∧ maxC ≤ 0x7FFFFFFF then .ok maxC else fail .malformedData
    | _, _ => fail .malformedData
  else fail .malformedData

/-- The flags of `printer-type`. -/
def cupsPrinterRemote : ℕ := 0x0002
def cupsPrinterColor : ℕ := 0x0004
def cupsPrinterDuplex : ℕ := 0x0008
def cupsPrinterCopies : ℕ := 0x0020
def cupsPrinterCollate : ℕ := 0x0040
def cupsPrinterFax : ℕ := 0x0080
def cupsPrinterPdf : ℕ := 0x20000

/-- The flag is set. -/
abbrev HasFlag (flags flag : ℕ) : Prop := flags &&& flag ≠ 0

/-- What the flags of `printer-type` change. -/
def applyTypeFlags (flags : ℕ) (p : PrinterInfo) : PrinterInfo :=
  { p with
    capabilities :=
      { p.capabilities with
        color := if HasFlag flags cupsPrinterColor then some true else p.capabilities.color
        duplex := if HasFlag flags cupsPrinterDuplex then some true else p.capabilities.duplex
        copies := if HasFlag flags cupsPrinterCopies then some true else p.capabilities.copies
        collate := if HasFlag flags cupsPrinterCollate then some true else p.capabilities.collate }
    type :=
      if HasFlag flags cupsPrinterFax ∨ HasFlag flags cupsPrinterPdf then .virtualPrinter
      else if HasFlag flags cupsPrinterRemote then .network
      else p.type }

/-- The value of an attribute, by the name of the attribute. -/
def decodeAttribute (name value : List UInt8) (p : PrinterInfo) : Result PrinterInfo :=
  if name = ascii "printer-name" then do
    let text ← validateUtf8 value
    .ok (if text = [] then p else { p with id := text, name := text })
  else if name = ascii "printer-info" then do
    let text ← validateUtf8 value
    .ok { p with description := text }
  else if name = ascii "printer-location" then do
    let text ← validateUtf8 value
    .ok { p with location := text }
  else if name = ascii "printer-make-and-model" then do
    let text ← validateUtf8 value
    .ok { p with driverName := text }
  else if name = ascii "device-uri" then do
    let text ← validateUtf8 value
    .ok { p with uri := text }
  else if name = ascii "printer-state" then do
    let ival ← integerValue value
    .ok { p with state := mapIppPrinterState ival }
  else if name = ascii "printer-is-accepting-jobs" then do
    let b ← booleanValue value
    .ok { p with isAcceptingJobs := some b }
  else if name = ascii "printer-is-shared" then do
    let b ← booleanValue value
    .ok { p with isShared := some b }
  else if name = ascii "queued-job-count" then do
    let ival ← integerValue value
    .ok { p with queuedJobCount := some ival }
  else if name = ascii "color-supported" then do
    let b ← booleanValue value
    .ok { p with capabilities := { p.capabilities with color := some b } }
  else if name = ascii "printer-type" then do
    let flags ← wordValue value
    .ok (applyTypeFlags flags p)
  else if name = ascii "media-supported" then do
    let media ← validateUtf8 value
    .ok (if media = [] then p
      else { p with capabilities :=
        { p.capabilities with supportedMedia := p.capabilities.supportedMedia ++ [media] } })
  else if name = ascii "printer-resolution-supported" then do
    let res ← resolutionValue value
    .ok { p with capabilities :=
      { p.capabilities with
        supportedResolutions := p.capabilities.supportedResolutions ++ [res] } }
  else if name = ascii "copies-supported" then do
    let maxC ← copiesValue value
    .ok { p with capabilities := { p.capabilities with maxCopies := some maxC, copies := some true } }
  else if name = ascii "sides-supported" then do
    let sides ← validateUtf8 value
    .ok (if ascii "two-sided" <:+: sides then
      { p with capabilities := { p.capabilities with duplex := some true } }
      else p)
  else .ok p

end Reading

section Parsing

/-- The locals of the parser across its loop. -/
structure ParserState where
  resultPrinters : List PrinterInfo
  currentPrinter : PrinterInfo
  inPrinterGroup : Bool
  currentGroupHasAttributes : Bool
  currentAttrName : List UInt8
  deriving DecidableEq, Repr

/-- The record of a printer, once its group is read. -/
def completePrinter (p : PrinterInfo) : PrinterInfo :=
  let p := if p.id = [] then { p with id := p.name } else p
  let p := if p.name = [] then { p with name := p.id } else p
  if p.type = .unknown then { p with type := classifyPrinterType p.uri p.name p.driverName } else p

/-- `finish_current_printer`; no state is its `false`. -/
def finishCurrentPrinter (s : ParserState) : Option ParserState :=
  if s.currentGroupHasAttributes ∧ s.currentPrinter.id = [] ∧ s.currentPrinter.name = [] then none
  else
    some
      { s with
        resultPrinters :=
          if s.currentPrinter.id ≠ [] ∨ s.currentPrinter.name ≠ [] then
            s.resultPrinters ++ [completePrinter s.currentPrinter]
          else s.resultPrinters
        currentPrinter := {}
        currentGroupHasAttributes := false }

/-- A tag that begins a group of attributes. -/
def delimiterTag (tag : ℕ) (s : ParserState) : Result ParserState :=
  if tag = 0x04 ∨ tag = 0x01 ∨ tag = 0x02 ∨ tag = 0x05 then
    match if s.inPrinterGroup then finishCurrentPrinter s else some s with
    | none => fail .malformedData
    | some s => .ok { s with inPrinterGroup := tag = 0x04, currentAttrName := [] }
  else fail .malformedData

/-- An attribute behind some position: its name, its value, and where it ends. -/
structure AttributeAt (data : List UInt8) (pos : ℕ) where
  name : List UInt8
  value : List UInt8
  next : ℕ
  lt : pos < next
  le : next ≤ data.length

/-- The name of an attribute; an empty one stands for the name before. -/
def attributeName (data : List UInt8) (pos nameLen : ℕ) (currentAttrName : List UInt8) :
    Result (List UInt8) :=
  if nameLen > 0 then slice data pos nameLen
  else if currentAttrName = [] then fail .malformedData
  else .ok currentAttrName

/-- The name and the value behind a tag. -/
def readAttribute (data : List UInt8) (pos : ℕ) (currentAttrName : List UInt8) :
    Result (AttributeAt data pos) := do
  match ← readUint16 data pos with
  | none => fail .malformedData
  | some nameLen =>
    if pos + 2 + nameLen > data.length then fail .malformedData
    else do
      let name ← attributeName data (pos + 2) nameLen currentAttrName
      match ← readUint16 data (pos + 2 + nameLen) with
      | none => fail .malformedData
      | some valLen =>
        if hle : pos + 2 + nameLen + 2 + valLen > data.length then fail .malformedData
        else do
          let value ← slice data (pos + 2 + nameLen + 2) valLen
          .ok ⟨name, value, pos + 2 + nameLen + 2 + valLen, by omega, by omega⟩

/-- What an attribute changes; outside of printer groups only its name matters. -/
def addAttribute (name value : List UInt8) (s : ParserState) : Result ParserState :=
  if s.inPrinterGroup then do
    let p ← decodeAttribute name value s.currentPrinter
    .ok { s with currentPrinter := p, currentGroupHasAttributes := true, currentAttrName := name }
  else .ok { s with currentAttrName := name }

/-- The loop over the tags: the state, the position behind it, whether the end tag came. -/
def parseLoop (data : List UInt8) (pos : ℕ) (s : ParserState) : Result (ParserState × ℕ × Bool) :=
  if _hpos : pos < data.length then do
    let tag ← readByte data pos
    if tag = 0x03 then .ok (s, pos + 1, true)
    else if tag ≤ 0x0F then do
      let s ← delimiterTag tag s
      parseLoop data (pos + 1) s
    else do
      let attr ← readAttribute data (pos + 1) s.currentAttrName
      let s ← addAttribute attr.name attr.value s
      parseLoop data attr.next s
  else .ok (s, pos, false)
termination_by data.length - pos
decreasing_by
  · omega
  · have := attr.lt
    omega

/-- The error for a status code that is not successful. -/
def statusCodeError (statusCode : ℕ) : Errc :=
  if statusCode = 0x0401 ∨ statusCode = 0x0402 ∨ statusCode = 0x0403 then .permissionDenied
  else if statusCode = 0x0406 then .notFound
  else if statusCode = 0x0405 ∨ statusCode = 0x0502 ∨ statusCode = 0x0507 then
    .temporarilyUnavailable
  else .ioError

/-- The header: it is checked, and nothing of it is needed later. -/
def checkHeader (data : List UInt8) : Result Unit :=
  if data.length < 8 then fail .malformedData
  else do
    let b0 ← readByte data 0
    let b1 ← readByte data 1
    if (b0 ≠ 1 ∧ b0 ≠ 2) ∨ b1 > 2 then fail .malformedData
    else
      match ← readUint32 data 4 with
      | none => fail .malformedData
      | some requestId =>
        if requestId = 0 ∨ requestId > 0x7FFFFFFF then fail .malformedData
        else
          match ← readUint16 data 2 with
          | none => fail .malformedData
          | some statusCode =>
            if statusCode > 0x00FF then fail (statusCodeError statusCode) else .ok ()

/-- `parse_ipp_printers_response`. -/
def parseIppPrintersResponse (data : List UInt8) : Result (List PrinterInfo) := do
  checkHeader data
  let (s, pos, sawEndOfAttributes) ← parseLoop data 8 ⟨[], {}, false, false, []⟩
  if !sawEndOfAttributes ∨ pos ≠ data.length then fail .malformedData
  else
    match if s.inPrinterGroup then finishCurrentPrinter s else some s with
    | none => fail .malformedData
    | some s => .ok s.resultPrinters

end Parsing

end Syscape.Ipp
