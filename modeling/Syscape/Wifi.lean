import Syscape.Printer
import Syscape.Utf8Text

/-!
# Names of wireless networks

The names of saved networks come from configuration files in which they are escaped: in
the key files of NetworkManager by backslashes or as a list of bytes, in the profiles of
Windows by the entities and character references of XML.
-/
namespace Syscape.Wifi
open Checked Text Utf8
open Syscape.Printer (isBlank)

/-- `trim_whitespace`; the printer module has the same function. -/
def trimWhitespace (text : List UInt8) : List UInt8 := Printer.trimWhitespace text

/-- `parse_int` for an unsigned type with a largest value; the printer module has the same
function. -/
def parseInt (max : ℕ) (text : List UInt8) (base : ℕ) : Option ℕ := Printer.parseInt max text base

/-- A decoded text, if it is valid UTF-8. -/
def validText (text : List UInt8) : Result (List UInt8) := do
  let valid ← isValidUtf8 text
  if ¬ valid then fail .invalidEncoding else .ok text

section NetworkManager

/-- The first loop of `decode_network_manager_string`: the bytes of a decimal list, unless
the text is no such list. -/
def decimalList (value : List UInt8) : Option (List UInt8) :=
  if value = [] then some []
  else
    match value.idxOf? 0x3B with
    | none => none
    | some stop => do
      let token := trimWhitespace (value.take stop)
      let bytes ←
        if token = [] then some []
        else (parseInt 255 token 10).map fun byte => [UInt8.ofNat byte]
      let more ← decimalList (value.drop (stop + 1))
      some (bytes ++ more)
termination_by value.length
decreasing_by
  have hpos := List.length_pos_iff.mpr ‹value ≠ []›
  rw [List.length_drop]
  omega

/-- The byte that stands behind a backslash for another. -/
def escapedByte (c : UInt8) : Option UInt8 :=
  if c = 0x73 then some 0x20
  else if c = 0x6E then some 0x0A
  else if c = 0x74 then some 0x09
  else if c = 0x72 then some 0x0D
  else if c = 0x5C then some 0x5C
  else if c = 0x3B then some 0x3B
  else if c = 0x2C then some 0x2C
  else none

/-- The second loop of `decode_network_manager_string`. -/
def unescape : List UInt8 → Result (List UInt8)
  | [] => .ok []
  | c :: value =>
    if c ≠ 0x5C then do
      let decoded ← unescape value
      .ok (c :: decoded)
    else
      match value with
      | [] => fail .malformedData
      | e :: value =>
        match escapedByte e with
        | none => fail .malformedData
        | some byte => do
          let decoded ← unescape value
          .ok (byte :: decoded)

/-- `decode_network_manager_string`. -/
def decodeNetworkManagerString (value : List UInt8) : Result (List UInt8) :=
  let bytes := if value.getLast? = some 0x3B then decimalList value else none
  match bytes with
  | some bytes => validText bytes
  | none => do
    let decoded ← unescape value
    validText decoded

end NetworkManager

section Xml

/-- The predefined entities. -/
def predefinedEntities : List (List UInt8 × UInt8) :=
  [(ascii "amp", 0x26), (ascii "lt", 0x3C), (ascii "gt", 0x3E), (ascii "quot", 0x22),
    (ascii "apos", 0x27)]

/-- The code point that a character reference names, from the text between the number sign
and the semicolon. -/
def referencedCodePoint (body : List UInt8) : Result ℕ :=
  let hexadecimal := body.head? = some 0x78 ∨ body.head? = some 0x58
  let codePoint :=
    if hexadecimal then parseInt (2 ^ 32 - 1) (body.drop 1) 16 else parseInt (2 ^ 32 - 1) body 10
  match codePoint with
  | none => fail .invalidEncoding
  | some n =>
    if n = 0 ∨ n > 0x10FFFF ∨ 0xD800 ≤ n ∧ n ≤ 0xDFFF then fail .invalidEncoding else .ok n

/-- What an entity between an ampersand and a semicolon adds to the output. -/
def decodeEntity (entity decoded : List UInt8) : Result (List UInt8) :=
  match predefinedEntities.lookup entity with
  | some c => .ok (decoded ++ [c])
  | none =>
    if entity.head? = some 0x23 then do
      let codePoint ← referencedCodePoint (entity.drop 1)
      .ok (appendUtf8 decoded codePoint)
    else fail .malformedData

/-- The loop of `decode_xml_text`. -/
def decodeXml (value decoded : List UInt8) : Result (List UInt8) :=
  match value with
  | [] => .ok decoded
  | c :: value =>
    if c ≠ 0x26 then decodeXml value (decoded ++ [c])
    else
      match value.idxOf? 0x3B with
      | none => fail .malformedData
      | some stop => do
        let decoded ← decodeEntity (value.take stop) decoded
        decodeXml (value.drop (stop + 1)) decoded
termination_by value.length

/-- `decode_xml_text`. -/
def decodeXmlText (value : List UInt8) : Result (List UInt8) := do
  let decoded ← decodeXml value []
  validText decoded

end Xml

end Syscape.Wifi
