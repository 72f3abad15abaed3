import Syscape.IppBounds
import Syscape.IppAttributes

/-!
# IPP responses as they are written

A response is a header, groups of attributes, and the tag that ends them. Each printer
group describes a printer; the other groups say nothing about printers. The parser gives
the printers back, in their order. A further value of an attribute may be written without
the name.
-/
namespace Syscape.Ipp
open Checked Text Endian LastValue Printer

section Wire

/-- The bytes of a value with its tag, behind the name that is written. -/
def attributeBytes (tag : UInt8) (written value : List UInt8) : List UInt8 :=
  [tag] ++ encode .big 2 written.length ++ written ++ encode .big 2 value.length ++ value

/-- The name of a value: the one that is written, or else the name before. -/
def takenName (written previous : List UInt8) : Option (List UInt8) :=
  if written ≠ [] then some written
  else if previous ≠ [] then some previous
  else none

/-- An attribute as it is written: with any value tag, and maybe without its name. -/
structure WireAttribute where
  tag : UInt8
  tag_gt : 0x0F < tag.toNat
  continued : Bool
  name : List UInt8
  name_ne : name ≠ []
  name_lt : name.length < 2 ^ 16
  value : List UInt8
  value_lt : value.length < 2 ^ 16

namespace WireAttribute

/-- The name that is written. -/
def writtenName (w : WireAttribute) : List UInt8 := if w.continued then [] else w.name

def bytes (w : WireAttribute) : List UInt8 := appendStringAttr [] w.tag w.writtenName w.value

theorem length_writtenName_lt (w : WireAttribute) : w.writtenName.length < 2 ^ 16 := by
  have h := w.name_lt
  unfold writtenName
  split_ifs
  · simp
  · exact h

theorem bytes_eq (w : WireAttribute) :
    w.bytes = attributeBytes w.tag w.writtenName w.value := by
  rw [bytes, appendStringAttr, appendUint16_eq, appendUint16_eq,
    Nat.mod_eq_of_lt w.length_writtenName_lt, Nat.mod_eq_of_lt w.value_lt]
  rfl

end WireAttribute

variable {data : List UInt8}

/-- A value is read with its name, if there is one. -/
theorem readAttribute_written {tag : UInt8} {written value pre rest : List UInt8}
    (hwritten : written.length < 2 ^ 16) (hvalue : value.length < 2 ^ 16)
    (hdata : data = pre ++ attributeBytes tag written value ++ rest) (previous : List UInt8) :
    match takenName written previous with
    | none => readAttribute data (pre.length + 1) previous = fail .malformedData
    | some name =>
      ∃ a : AttributeAt data (pre.length + 1), readAttribute data (pre.length + 1) previous = .ok a ∧
        a.name = name ∧ a.value = value ∧
          a.next = pre.length + (attributeBytes tag written value).length := by
  -- the four parts behind the tag, each behind what comes before it
  have hlen1 : data = (pre ++ [tag]) ++ encode .big 2 written.length ++
      (written ++ encode .big 2 value.length ++ value ++ rest) := by
    rw [hdata, attributeBytes]
    simp
  have hpart1 : data = (pre ++ [tag] ++ encode .big 2 written.length) ++ written ++
      (encode .big 2 value.length ++ value ++ rest) := by
    rw [hlen1]
    simp
  have hlen2 : data = (pre ++ [tag] ++ encode .big 2 written.length ++ written) ++
      encode .big 2 value.length ++ (value ++ rest) := by
    rw [hpart1]
    simp
  have hpart2 : data = (pre ++ [tag] ++ encode .big 2 written.length ++ written ++
      encode .big 2 value.length) ++ value ++ rest := by
    rw [hlen2]
    simp
  have hread1 : readUint16 data (pre.length + 1) = .ok (some written.length) := by
    have h := readUint16_encode hwritten (pre ++ [tag])
      (written ++ encode .big 2 value.length ++ value ++ rest)
    rwa [← hlen1, List.length_append] at h
  have hslice1 : (slice data (pre.length + 1 + 2) written.length : Result (List UInt8)) =
      .ok written := by
    have h := slice_append (ε := ErrorCode) (pre ++ [tag] ++ encode .big 2 written.length)
      written (encode .big 2 value.length ++ value ++ rest)
    rwa [← hpart1, List.length_append, List.length_append, length_encode] at h
  have hread2 : readUint16 data (pre.length + 1 + 2 + written.length) = .ok (some value.length) := by
    have h := readUint16_encode hvalue (pre ++ [tag] ++ encode .big 2 written.length ++ written)
      (value ++ rest)
    rwa [← hlen2, List.length_append, List.length_append, List.length_append, length_encode] at h
  have hslice2 : (slice data (pre.length + 1 + 2 + written.length + 2) value.length :
      Result (List UInt8)) = .ok value := by
    have h := slice_append (ε := ErrorCode) (pre ++ [tag] ++ encode .big 2 written.length ++
      written ++ encode .big 2 value.length) value rest
    rwa [← hpart2, List.length_append, List.length_append, List.length_append,
      List.length_append, length_encode, length_encode] at h
  have hname : attributeName data (pre.length + 1 + 2) written.length previous =
      match takenName written previous with
      | none => fail .malformedData
      | some name => .ok name := by
    unfold attributeName takenName
    by_cases hnil : written = []
    · rw [if_neg (by simp [hnil]), if_neg (not_not_intro hnil)]
      by_cases hprevious : previous = []
      · rw [if_pos hprevious, if_neg (not_not_intro hprevious)]
      · rw [if_neg hprevious, if_pos hprevious]
    · rw [if_pos (List.length_pos_iff.mpr hnil), hslice1, if_pos hnil]
  have hlen : data.length =
      pre.length + 1 + 2 + written.length + 2 + value.length + rest.length := by
    rw [hpart2]
    simp
    omega
  have hbytes : pre.length + 1 + 2 + written.length + 2 + value.length =
      pre.length + (attributeBytes tag written value).length := by
    rw [attributeBytes]
    simp
    omega
  rw [readAttribute, hread1, ok_bind]
  dsimp only
  rw [if_neg (by omega), hname]
  cases takenName written previous with
  | none => rfl
  | some name =>
    refine ⟨⟨name, value, pre.length + 1 + 2 + written.length + 2 + value.length,
      by omega, by omega⟩, ?_, rfl, rfl, hbytes⟩
    rw [ok_bind, hread2, ok_bind]
    dsimp only
    rw [dif_neg (by omega), hslice2, ok_bind]

/-- An attribute is read as it is meant, if a missing name is the name before. -/
theorem readAttribute_bytes (w : WireAttribute) {pre rest previous : List UInt8}
    (hdata : data = pre ++ w.bytes ++ rest) (hprevious : w.continued = true → previous = w.name) :
    ∃ a : AttributeAt data (pre.length + 1),
      readAttribute data (pre.length + 1) previous = .ok a ∧ a.name = w.name ∧
        a.value = w.value ∧ a.next = pre.length + w.bytes.length := by
  have htaken : takenName w.writtenName previous = some w.name := by
    have hne := w.name_ne
    cases hcontinued : w.continued with
    | false => simp [takenName, WireAttribute.writtenName, hcontinued, hne]
    | true => simp [takenName, WireAttribute.writtenName, hcontinued, hprevious hcontinued, hne]
  rw [w.bytes_eq] at hdata ⊢
  have hread := readAttribute_written w.length_writtenName_lt w.value_lt hdata previous
  rwa [htaken] at hread

/-- The loop takes over an attribute and goes on behind it. -/
theorem parseLoop_attribute (w : WireAttribute) {pre rest : List UInt8} {i : ℕ}
    (hi : i = pre.length) (hdata : data = pre ++ w.bytes ++ rest) {s : ParserState}
    (hprevious : w.continued = true → s.currentAttrName = w.name) :
    parseLoop data i s =
      addAttribute w.name w.value s >>= parseLoop data (i + w.bytes.length) := by
  subst hi
  have hgt := w.tag_gt
  have htag : (readByte data pre.length : Result ℕ) = .ok w.tag.toNat := by
    rw [hdata, w.bytes_eq, attributeBytes]
    simp only [List.append_assoc]
    rw [readByte_append_length, List.singleton_append, readByte_cons_zero]
  have hpos : pre.length < data.length := by
    rw [hdata, w.bytes_eq, attributeBytes]
    simp
  obtain ⟨a, ha, hname, hvalue, hnext⟩ := readAttribute_bytes w hdata hprevious
  rw [parseLoop, dif_pos hpos, htag, ok_bind, if_neg (by omega), if_neg (by omega), ha, ok_bind,
    hname, hvalue, hnext]

/-- Only values behind a value of the same name may be written without it. -/
def Continues : List UInt8 → List WireAttribute → Prop
  | _, [] => True
  | previous, w :: attributes =>
      (w.continued = true → previous = w.name) ∧ Continues w.name attributes

/-- Outside of printer groups, attributes change nothing but the name before. -/
theorem parseLoop_attributes (attributes : List WireAttribute) {pre rest : List UInt8} {i : ℕ}
    (hi : i = pre.length) (hdata : data = pre ++ attributes.flatMap (·.bytes) ++ rest)
    {s : ParserState} (hs : s.inPrinterGroup = false)
    (hcontinues : Continues s.currentAttrName attributes) :
    ∃ name, parseLoop data i s =
      parseLoop data (i + (attributes.flatMap (·.bytes)).length)
        { s with currentAttrName := name } := by
  induction attributes generalizing pre i s with
  | nil => exact ⟨s.currentAttrName, rfl⟩
  | cons w attributes ih =>
    obtain ⟨hprevious, hmore⟩ := hcontinues
    have hw : data = pre ++ w.bytes ++ (attributes.flatMap (·.bytes) ++ rest) := by
      rw [hdata]
      simp
    have hadd : addAttribute w.name w.value s = .ok { s with currentAttrName := w.name } := by
      rw [addAttribute, if_neg (by simp [hs])]
    obtain ⟨name, hname⟩ := @ih (pre ++ w.bytes) (i + w.bytes.length) (by simp [hi])
      (by rw [hw]; simp) { s with currentAttrName := w.name } hs hmore
    refine ⟨name, ?_⟩
    rw [parseLoop_attribute w hi hw hprevious, hadd, ok_bind, hname]
    simp [Nat.add_assoc]

end Wire

section Walks
variable {data : List UInt8}

/-- What the loop steps over: a tag that begins a group, or a value with its tag. -/
inductive Token where
  | delimiter (tag : UInt8) (tag_le : tag.toNat ≤ 0x0F) (tag_ne : tag.toNat ≠ 0x03)
  | value (tag : UInt8) (tag_gt : 0x0F < tag.toNat) (written bytes : List UInt8)
      (written_lt : written.length < 2 ^ 16) (bytes_lt : bytes.length < 2 ^ 16)

def Token.bytes : Token → List UInt8
  | delimiter tag _ _ => [tag]
  | value tag _ written bytes _ _ => attributeBytes tag written bytes

/-- The loop ends at a token with an error, or goes on behind it. -/
theorem parseLoop_token (t : Token) {pre rest : List UInt8} (hdata : data = pre ++ t.bytes ++ rest)
    (s : ParserState) :
    (∃ e, parseLoop data pre.length s = .error e) ∨
      ∃ s', parseLoop data pre.length s = parseLoop data (pre ++ t.bytes).length s' := by
  cases t with
  | delimiter tag hle hne =>
    have htag : (readByte data pre.length : Result ℕ) = .ok tag.toNat := by
      rw [hdata, List.append_assoc, readByte_append_length]
      rfl
    have hpos : pre.length < data.length := by
      rw [hdata]
      simp [Token.bytes]
    rw [parseLoop, dif_pos hpos, htag, ok_bind, if_neg hne, if_pos hle]
    cases hdelimiter : delimiterTag tag.toNat s with
    | error e => exact .inl ⟨e, rfl⟩
    | ok s' => exact .inr ⟨s', by simp [Token.bytes]⟩
  | value tag hgt written bytes hwritten hbytes =>
    have htag : (readByte data pre.length : Result ℕ) = .ok tag.toNat := by
      rw [hdata, List.append_assoc, readByte_append_length]
      rfl
    have hpos : pre.length < data.length := by
      rw [hdata]
      simp [Token.bytes, attributeBytes]
    have hread := readAttribute_written hwritten hbytes hdata s.currentAttrName
    rw [parseLoop, dif_pos hpos, htag, ok_bind, if_neg (by omega), if_neg (by omega)]
    cases htaken : takenName written s.currentAttrName with
    | none =>
      rw [htaken] at hread
      rw [show readAttribute data (pre.length + 1) s.currentAttrName = _ from hread]
      exact .inl ⟨_, rfl⟩
    | some name =>
      rw [htaken] at hread
      obtain ⟨a, ha, -, -, hnext⟩ := hread
      rw [ha, ok_bind]
      cases addAttribute a.name a.value s with
      | error e => exact .inl ⟨e, rfl⟩
      | ok s' => exact .inr ⟨s', by rw [ok_bind, hnext, List.length_append]; rfl⟩

/-- So it does over many tokens. -/
theorem parseLoop_tokens (tokens : List Token) {pre rest : List UInt8}
    (hdata : data = pre ++ tokens.flatMap Token.bytes ++ rest) (s : ParserState) :
    (∃ e, parseLoop data pre.length s = .error e) ∨
      ∃ s', parseLoop data pre.length s =
        parseLoop data (pre ++ tokens.flatMap Token.bytes).length s' := by
  induction tokens generalizing pre s with
  | nil => exact .inr ⟨s, by simp⟩
  | cons t tokens ih =>
    have ht : data = pre ++ t.bytes ++ (tokens.flatMap Token.bytes ++ rest) := by
      rw [hdata]
      simp
    have hmore : data = (pre ++ t.bytes) ++ tokens.flatMap Token.bytes ++ rest := by
      rw [ht]
      simp
    rcases parseLoop_token t ht s with herror | ⟨s', hs'⟩
    · exact .inl herror
    · rw [hs', List.flatMap_cons, ← List.append_assoc]
      exact ih hmore s'

/-- A number of two bytes that is read stands in the response. -/
theorem drop_of_readUint16 {pos n : ℕ} (h : readUint16 data pos = .ok (some n)) :
    n < 2 ^ 16 ∧ data.drop pos = encode .big 2 n ++ data.drop (pos + 2) := by
  have hle : pos + 2 ≤ data.length := by
    by_contra hlt
    rw [readUint16, if_pos (by omega)] at h
    cases h
  have hbytes : ((data.drop pos).take 2).length = 2 := by
    rw [List.length_take, List.length_drop]
    omega
  have hsplit : data = data.take pos ++ (data.drop pos).take 2 ++ data.drop (pos + 2) := by
    rw [List.append_assoc, ← List.drop_drop, List.take_append_drop, List.take_append_drop]
  have hread := @readUint16_append (data.take pos) _ (data.drop (pos + 2)) hbytes
  rw [← hsplit, List.length_take, Nat.min_eq_left (by omega), h] at hread
  obtain rfl : n = value .big ((data.drop pos).take 2) := Option.some.inj (Except.ok.inj hread)
  refine ⟨?_, ?_⟩
  · have hlt := value_lt .big ((data.drop pos).take 2)
    rw [hbytes] at hlt
    exact hlt
  · rw [encode_value .big hbytes, ← List.drop_drop, List.take_append_drop]

/-- A value that is read stands behind its tag. -/
theorem drop_of_readAttribute {pos : ℕ} {previous : List UInt8} {a : AttributeAt data pos}
    (h : readAttribute data pos previous = .ok a) :
    ∃ written bytes : List UInt8, written.length < 2 ^ 16 ∧ bytes.length < 2 ^ 16 ∧
      data.drop pos = encode .big 2 written.length ++ written ++ encode .big 2 bytes.length ++
        bytes ++ data.drop a.next := by
  have hpart : ∀ {i k : ℕ}, i + k ≤ data.length →
      ((data.drop i).take k).length = k ∧ data.drop i = (data.drop i).take k ++ data.drop (i + k) := by
    intro i k hle
    refine ⟨by rw [List.length_take, List.length_drop]; omega, ?_⟩
    rw [← List.drop_drop, List.take_append_drop]
  unfold readAttribute at h
  obtain ⟨nameLen, hnameLen, h⟩ := bind_eq_ok.mp h
  cases nameLen with
  | none => cases h
  | some nameLen =>
    dsimp only at h
    split_ifs at h with hname
    · cases h
    · obtain ⟨name, -, h⟩ := bind_eq_ok.mp h
      obtain ⟨valLen, hvalLen, h⟩ := bind_eq_ok.mp h
      cases valLen with
      | none => cases h
      | some valLen =>
        dsimp only at h
        split_ifs at h with hvalue
        · cases h
        · obtain ⟨bytes, -, h⟩ := bind_eq_ok.mp h
          cases h
          obtain ⟨hlt, hdrop⟩ := drop_of_readUint16 hnameLen
          obtain ⟨hlt', hdrop'⟩ := drop_of_readUint16 hvalLen
          obtain ⟨hlength, hwritten⟩ := @hpart (pos + 2) nameLen (by omega)
          obtain ⟨hlength', hbytes⟩ := @hpart (pos + 2 + nameLen + 2) valLen (by omega)
          refine ⟨(data.drop (pos + 2)).take nameLen,
            (data.drop (pos + 2 + nameLen + 2)).take valLen, by omega, by omega, ?_⟩
          rw [hlength, hlength', hdrop, hwritten, hdrop', hbytes]
          simp only [List.append_assoc, List.take_left' hlength, List.take_left' hlength']

/-- When the loop has met the end tag, all before it are tokens. -/
theorem drop_of_parseLoop {pos stop : ℕ} {s s' : ParserState}
    (h : parseLoop data pos s = .ok (s', stop, true)) :
    ∃ tokens : List Token, data.drop pos = tokens.flatMap Token.bytes ++ 0x03 :: data.drop stop := by
  induction hn : data.length - pos using Nat.strongRecOn generalizing pos s with
  | ind n ih =>
    rw [parseLoop] at h
    by_cases hpos : pos < data.length
    · rw [dif_pos hpos, readByte_of_lt hpos, ok_bind] at h
      have hdrop : data.drop pos = data[pos] :: data.drop (pos + 1) :=
        List.drop_eq_getElem_cons hpos
      by_cases hend : data[pos].toNat = 0x03
      · rw [if_pos hend] at h
        obtain ⟨-, hstop⟩ := Prod.mk.inj (Except.ok.inj h)
        obtain ⟨rfl, -⟩ := Prod.mk.inj hstop
        have hbyte : data[pos] = 0x03 := UInt8.toNat_inj.mp hend
        exact ⟨[], by rw [hdrop, hbyte]; rfl⟩
      · rw [if_neg hend] at h
        by_cases hdelimiter : data[pos].toNat ≤ 0x0F
        · rw [if_pos hdelimiter] at h
          obtain ⟨s'', -, h⟩ := bind_eq_ok.mp h
          obtain ⟨tokens, htokens⟩ := ih _ (by omega) h rfl
          refine ⟨.delimiter data[pos] hdelimiter hend :: tokens, ?_⟩
          rw [hdrop, htokens]
          rfl
        · rw [if_neg hdelimiter] at h
          obtain ⟨attr, hattr, h⟩ := bind_eq_ok.mp h
          obtain ⟨s'', -, h⟩ := bind_eq_ok.mp h
          have hlt := attr.lt
          obtain ⟨tokens, htokens⟩ := ih _ (by omega) h rfl
          obtain ⟨written, bytes, hwritten, hbytes, hvalue⟩ := drop_of_readAttribute hattr
          refine ⟨.value data[pos] (by omega) written bytes hwritten hbytes :: tokens, ?_⟩
          rw [hdrop, hvalue, htokens]
          simp [Token.bytes, attributeBytes]
    · rw [dif_neg hpos] at h
      cases h

/-- The loop behind all tokens, where nothing is left or the end tag is not the last byte. -/
theorem parse_tokens_refused {header : List UInt8} (hheader : header.length = 8)
    (tokens : List Token) {rest : List UInt8} (hrest : rest = [] ∨ ∃ extra ≠ [], rest = 0x03 :: extra)
    (printers : List PrinterInfo) :
    parseIppPrintersResponse (header ++ tokens.flatMap Token.bytes ++ rest) ≠ .ok printers := by
  intro h
  unfold parseIppPrintersResponse at h
  obtain ⟨-, -, h⟩ := bind_eq_ok.mp h
  obtain ⟨⟨s, stop, sawEnd⟩, hloop, h⟩ := bind_eq_ok.mp h
  dsimp only at h
  rw [← hheader] at hloop
  rcases parseLoop_tokens tokens rfl ⟨[], {}, false, false, []⟩ with ⟨e, he⟩ | ⟨s', hs'⟩
  · rw [he] at hloop
    cases hloop
  · rw [hs', parseLoop] at hloop
    rcases hrest with rfl | ⟨extra, hextra, rfl⟩
    · rw [List.append_nil, dif_neg (lt_irrefl _)] at hloop
      cases hloop
      rw [if_pos (.inl rfl)] at h
      cases h
    · rw [dif_pos (by simp), readByte_append_length, readByte_cons_zero, ok_bind] at hloop
      cases hloop
      have hlength := List.length_pos_iff.mpr hextra
      rw [if_pos (.inr (by simp; omega))] at h
      cases h

/-- What is accepted is a header, tokens, and the end tag as the last byte. -/
theorem tokens_of_parse {data : List UInt8} {printers : List PrinterInfo}
    (h : parseIppPrintersResponse data = .ok printers) :
    ∃ (header : List UInt8) (tokens : List Token), header.length = 8 ∧
      data = header ++ tokens.flatMap Token.bytes ++ [0x03] := by
  unfold parseIppPrintersResponse at h
  obtain ⟨_, hheader, h⟩ := bind_eq_ok.mp h
  obtain ⟨⟨s, stop, sawEnd⟩, hloop, h⟩ := bind_eq_ok.mp h
  have hlength : 8 ≤ data.length := by
    by_contra hlt
    unfold checkHeader at hheader
    rw [if_pos (by omega)] at hheader
    cases hheader
  dsimp only at h
  by_cases hbad : (!sawEnd) = true ∨ stop ≠ data.length
  · rw [if_pos hbad] at h
    cases h
  · obtain ⟨hsaw, hstop⟩ := not_or.mp hbad
    obtain rfl : sawEnd = true := by simpa using hsaw
    obtain ⟨tokens, htokens⟩ := drop_of_parseLoop hloop
    rw [not_not.mp hstop, List.drop_length] at htokens
    refine ⟨data.take 8, tokens, by rw [List.length_take]; omega, ?_⟩
    rw [List.append_assoc, ← htokens, List.take_append_drop]

end Walks

section Groups
variable {data : List UInt8}

/-- An attribute of a printer, and how it is written. -/
structure Item where
  content : PrinterAttribute
  tag : UInt8
  tag_gt : 0x0F < tag.toNat
  continued : Bool

def Item.wire (item : Item) : WireAttribute where
  tag := item.tag
  tag_gt := item.tag_gt
  continued := item.continued
  name := item.content.name
  name_ne := item.content.name_ne
  name_lt := item.content.length_name_lt
  value := item.content.value
  value_lt := item.content.length_value_lt

/-- In a printer group, attributes change the record as they are meant to. -/
theorem parseLoop_items (items : List Item) {pre rest : List UInt8} {i : ℕ} (hi : i = pre.length)
    (hdata : data = pre ++ items.flatMap (·.wire.bytes) ++ rest) {s : ParserState}
    (hs : s.inPrinterGroup = true) (hcontinues : Continues s.currentAttrName (items.map Item.wire)) :
    ∃ has name, parseLoop data i s =
      parseLoop data (i + (items.flatMap (·.wire.bytes)).length)
        { s with
          currentPrinter := (items.map (·.content)).foldl PrinterAttribute.update s.currentPrinter
          currentGroupHasAttributes := has
          currentAttrName := name } := by
  induction items generalizing pre i s with
  | nil => exact ⟨s.currentGroupHasAttributes, s.currentAttrName, rfl⟩
  | cons item items ih =>
    obtain ⟨hprevious, hmore⟩ := hcontinues
    have hitem : data = pre ++ item.wire.bytes ++ (items.flatMap (·.wire.bytes) ++ rest) := by
      rw [hdata]
      simp
    have hadd : addAttribute item.wire.name item.wire.value s =
        .ok
          { s with
            currentPrinter := item.content.update s.currentPrinter
            currentGroupHasAttributes := true
            currentAttrName := item.wire.name } := by
      have hdecode := decodeAttribute_bytes item.content s.currentPrinter
      rw [addAttribute, if_pos hs]
      change decodeAttribute item.content.name item.content.value s.currentPrinter >>= _ = _
      rw [hdecode, ok_bind]
    obtain ⟨has, name, hname⟩ := @ih (pre ++ item.wire.bytes) (i + item.wire.bytes.length)
      (by simp [hi]) (by rw [hitem]; simp)
      { s with
        currentPrinter := item.content.update s.currentPrinter
        currentGroupHasAttributes := true
        currentAttrName := item.wire.name } hs hmore
    refine ⟨has, name, ?_⟩
    rw [parseLoop_attribute item.wire hi hitem hprevious, hadd, ok_bind, hname]
    simp [Nat.add_assoc]

/-- The groups that say nothing about printers, by their delimiter tags. -/
inductive OtherGroup where
  | operation
  | job
  | unsupported
  deriving DecidableEq, Repr

def OtherGroup.tag : OtherGroup → UInt8
  | .operation => 0x01
  | .job => 0x02
  | .unsupported => 0x05

/-- A group of attributes; a printer has a name that is not empty. -/
inductive Group where
  | other (kind : OtherGroup) (attributes : List WireAttribute)
      (continues : Continues [] attributes)
  | printer (items : List Item) (continues : Continues [] (items.map Item.wire))
      (named : (lastOf nameOf (items.map (·.content))).isSome)

namespace Group

def bytes : Group → List UInt8
  | other kind attributes _ => kind.tag :: attributes.flatMap (·.bytes)
  | printer items _ _ => 0x04 :: items.flatMap (·.wire.bytes)

/-- The printer that a group describes. -/
def printer? : Group → Option PrinterInfo
  | other _ _ _ => none
  | printer items _ _ => some (printerOf (items.map (·.content)))

end Group

/-- The state after some groups: finishing it gives the printers, and nothing is left over. -/
def Settled (s : ParserState) (printers : List PrinterInfo) : Prop :=
  ∃ s', (if s.inPrinterGroup then finishCurrentPrinter s else some s) = some s' ∧
    s'.resultPrinters = printers ∧ s'.currentPrinter = {}

/-- The loop at a delimiter tag. -/
theorem parseLoop_delimiter {tag : UInt8} (hgroup : tag.toNat ≤ 0x0F) (hend : tag.toNat ≠ 0x03)
    {pre rest : List UInt8} {i : ℕ} (hi : i = pre.length) (hdata : data = pre ++ tag :: rest)
    (s : ParserState) :
    parseLoop data i s = delimiterTag tag.toNat s >>= parseLoop data (i + 1) := by
  have htag : (readByte data i : Result ℕ) = .ok tag.toNat := by
    rw [hdata, hi, readByte_append_length, readByte_cons_zero]
  have hpos : i < data.length := by
    rw [hdata, hi]
    simp
  rw [parseLoop, dif_pos hpos, htag, ok_bind, if_neg hend, if_pos hgroup]

/-- A group that is no printer group. -/
theorem parseLoop_other (kind : OtherGroup) (attributes : List WireAttribute)
    (hcontinues : Continues [] attributes) {pre rest : List UInt8} {i : ℕ} (hi : i = pre.length)
    (hdata : data = pre ++ (Group.other kind attributes hcontinues).bytes ++ rest)
    {s : ParserState} {printers : List PrinterInfo} (hs : Settled s printers) :
    ∃ s', parseLoop data i s =
        parseLoop data (i + (Group.other kind attributes hcontinues).bytes.length) s' ∧
      Settled s' printers := by
  obtain ⟨s', hfinish, hprinters, hcurrent⟩ := hs
  have htag : data = pre ++ kind.tag :: (attributes.flatMap (·.bytes) ++ rest) := by
    rw [hdata]
    simp [Group.bytes]
  have hattributes : data = (pre ++ [kind.tag]) ++ attributes.flatMap (·.bytes) ++ rest := by
    rw [htag]
    simp
  have hdelimiter : delimiterTag kind.tag.toNat s =
      .ok { s' with inPrinterGroup := false, currentAttrName := [] } := by
    unfold delimiterTag
    rw [if_pos (by cases kind <;> decide), hfinish]
    cases kind <;> rfl
  obtain ⟨name, hname⟩ := @parseLoop_attributes data attributes _ rest (i + 1) (by simp [hi])
    hattributes { s' with inPrinterGroup := false, currentAttrName := [] } rfl hcontinues
  have hlen : i + 1 + (attributes.flatMap (·.bytes)).length =
      i + (Group.other kind attributes hcontinues).bytes.length := by
    simp [Group.bytes]
    omega
  refine ⟨{ s' with inPrinterGroup := false, currentAttrName := name }, ?_, ?_⟩
  · rw [parseLoop_delimiter (by cases kind <;> decide) (by cases kind <;> decide) hi htag,
      hdelimiter, ok_bind, hname, hlen]
  · exact ⟨_, rfl, hprinters, hcurrent⟩

/-- A printer group; finishing it gives one more printer. -/
theorem parseLoop_printer (items : List Item) (hcontinues : Continues [] (items.map Item.wire))
    (hnamed : (lastOf nameOf (items.map (·.content))).isSome) {pre rest : List UInt8} {i : ℕ}
    (hi : i = pre.length)
    (hdata : data = pre ++ (Group.printer items hcontinues hnamed).bytes ++ rest)
    {s : ParserState} {printers : List PrinterInfo} (hs : Settled s printers) :
    ∃ s', parseLoop data i s =
        parseLoop data (i + (Group.printer items hcontinues hnamed).bytes.length) s' ∧
      Settled s' (printers ++ [printerOf (items.map (·.content))]) := by
  obtain ⟨s', hfinish, hprinters, hcurrent⟩ := hs
  have htag : data = pre ++ 0x04 :: (items.flatMap (·.wire.bytes) ++ rest) := by
    rw [hdata]
    simp [Group.bytes]
  have hitems : data = (pre ++ [0x04]) ++ items.flatMap (·.wire.bytes) ++ rest := by
    rw [htag]
    simp
  have hdelimiter : delimiterTag (0x04 : UInt8).toNat s =
      .ok { s' with inPrinterGroup := true, currentAttrName := [] } := by
    unfold delimiterTag
    rw [if_pos (by decide), hfinish]
    rfl
  obtain ⟨has, name, hname⟩ := @parseLoop_items data items _ rest (i + 1) (by simp [hi]) hitems
    { s' with inPrinterGroup := true, currentAttrName := [] } rfl hcontinues
  have hlen : i + 1 + (items.flatMap (·.wire.bytes)).length =
      i + (Group.printer items hcontinues hnamed).bytes.length := by
    simp [Group.bytes]
    omega
  obtain ⟨text, htext⟩ := Option.isSome_iff_exists.mp hnamed
  obtain ⟨hne, hcomplete⟩ := completePrinter_collected htext
  rw [hcurrent, foldl_update] at hname
  refine ⟨⟨s'.resultPrinters, collected (items.map (·.content)), true, has, name⟩, ?_, ?_⟩
  · rw [parseLoop_delimiter (by decide) (by decide) hi htag, hdelimiter, ok_bind, hcurrent, hname,
      hlen]
  · have hkept : ¬ (has = true ∧ (collected (items.map (·.content))).id = [] ∧
        (collected (items.map (·.content))).name = []) := fun h => hne h.2.1
    refine ⟨_, by rw [if_pos rfl, finishCurrentPrinter, if_neg hkept], ?_, rfl⟩
    dsimp only
    rw [if_pos (.inl hne), hcomplete, hprinters]

/-- The loop over groups: finishing the state gives the printers of all groups. -/
theorem parseLoop_groups (groups : List Group) {pre rest : List UInt8} {i : ℕ}
    (hi : i = pre.length) (hdata : data = pre ++ groups.flatMap Group.bytes ++ rest)
    {s : ParserState} {printers : List PrinterInfo} (hs : Settled s printers) :
    ∃ s', parseLoop data i s = parseLoop data (i + (groups.flatMap Group.bytes).length) s' ∧
      Settled s' (printers ++ groups.filterMap Group.printer?) := by
  induction groups generalizing pre i s printers with
  | nil => exact ⟨s, rfl, by simpa using hs⟩
  | cons g groups ih =>
    have hg : data = pre ++ g.bytes ++ (groups.flatMap Group.bytes ++ rest) := by
      rw [hdata]
      simp
    obtain ⟨s', hloop, hs'⟩ : ∃ s', parseLoop data i s = parseLoop data (i + g.bytes.length) s' ∧
        Settled s' (printers ++ g.printer?.toList) := by
      cases g with
      | other kind attributes hcontinues =>
        obtain ⟨s', hloop, hs'⟩ := parseLoop_other kind attributes hcontinues hi hg hs
        exact ⟨s', hloop, by simpa [Group.printer?] using hs'⟩
      | printer items hcontinues hnamed => exact parseLoop_printer items hcontinues hnamed hi hg hs
    obtain ⟨s'', hloop', hs''⟩ := @ih (pre ++ g.bytes) (i + g.bytes.length) (by simp [hi])
      (by rw [hg]; simp) s' _ hs'
    refine ⟨s'', ?_, ?_⟩
    · rw [hloop, hloop']
      simp [Nat.add_assoc]
    · cases hp : g.printer? <;> simpa [List.filterMap_cons, hp] using hs''

end Groups

section Responses

/-- The header of a successful response. -/
structure Header where
  major : ℕ
  major_valid : major = 1 ∨ major = 2
  minor : ℕ
  minor_le : minor ≤ 2
  statusCode : ℕ
  statusCode_le : statusCode ≤ 0x00FF
  requestId : ℕ
  requestId_pos : 0 < requestId
  requestId_lt : requestId < 2 ^ 31

def Header.bytes (h : Header) : List UInt8 :=
  appendUint32 (appendUint16 [UInt8.ofNat h.major, UInt8.ofNat h.minor] h.statusCode) h.requestId

theorem Header.bytes_eq (h : Header) : h.bytes =
    [UInt8.ofNat h.major, UInt8.ofNat h.minor] ++ encode .big 2 h.statusCode ++
      encode .big 4 h.requestId := by
  rw [bytes, appendUint32_eq, appendUint16_eq]

@[simp] theorem Header.length_bytes (h : Header) : h.bytes.length = 8 := by
  simp [h.bytes_eq]

theorem checkHeader_bytes (h : Header) (rest : List UInt8) :
    checkHeader (h.bytes ++ rest) = .ok () := by
  have hmajor := h.major_valid
  have hminor := h.minor_le
  have hcode := h.statusCode_le
  have hpos := h.requestId_pos
  have hlt := h.requestId_lt
  have h0 : (readByte (h.bytes ++ rest) 0 : Result ℕ) = .ok h.major := by
    rw [h.bytes_eq]
    change Except.ok (UInt8.ofNat h.major).toNat = _
    rw [UInt8.toNat_ofNat', Nat.mod_eq_of_lt (by omega)]
  have h1 : (readByte (h.bytes ++ rest) 1 : Result ℕ) = .ok h.minor := by
    rw [h.bytes_eq]
    change Except.ok (UInt8.ofNat h.minor).toNat = _
    rw [UInt8.toNat_ofNat', Nat.mod_eq_of_lt (by omega)]
  have hstatus : readUint16 (h.bytes ++ rest) 2 = .ok (some h.statusCode) := by
    have hread := readUint16_encode (show h.statusCode < 2 ^ 16 by omega)
      [UInt8.ofNat h.major, UInt8.ofNat h.minor] (encode .big 4 h.requestId ++ rest)
    rwa [← List.append_assoc, ← h.bytes_eq] at hread
  have hrequest : readUint32 (h.bytes ++ rest) 4 = .ok (some h.requestId) := by
    have hread := readUint32_encode (show h.requestId < 2 ^ 32 by omega)
      ([UInt8.ofNat h.major, UInt8.ofNat h.minor] ++ encode .big 2 h.statusCode) rest
    rw [← h.bytes_eq] at hread
    simpa using hread
  rw [checkHeader, if_neg (by simp), h0, ok_bind, h1, ok_bind, if_neg (by omega), hrequest,
    ok_bind]
  dsimp only
  rw [if_neg (by omega), hstatus, ok_bind]
  exact if_neg (by omega)

/-- A response with some groups of attributes. -/
def response (h : Header) (groups : List Group) : List UInt8 :=
  h.bytes ++ groups.flatMap Group.bytes ++ [0x03]

/-- A response gives the printers of its groups, if nothing is behind it. -/
theorem parse_response (h : Header) (groups : List Group) (extra : List UInt8) :
    parseIppPrintersResponse (response h groups ++ extra) =
      if extra = [] then .ok (groups.filterMap Group.printer?) else fail .malformedData := by
  have hdata : response h groups ++ extra =
      h.bytes ++ groups.flatMap Group.bytes ++ (0x03 :: extra) := by
    simp [response]
  have hstart : Settled ⟨[], {}, false, false, []⟩ [] := ⟨_, rfl, rfl, rfl⟩
  obtain ⟨s, hloop, s', hfinish, hprinters, -⟩ :=
    parseLoop_groups groups h.length_bytes.symm hdata hstart
  have hpos : 8 + (groups.flatMap Group.bytes).length =
      (h.bytes ++ groups.flatMap Group.bytes).length := by simp
  have htag : (readByte (response h groups ++ extra) (8 + (groups.flatMap Group.bytes).length) :
      Result ℕ) = .ok 0x03 := by
    rw [hdata, hpos, readByte_append_length]
    rfl
  have hlen : (response h groups ++ extra).length =
      8 + (groups.flatMap Group.bytes).length + 1 + extra.length := by
    rw [hdata]
    simp
    omega
  have hend : parseLoop (response h groups ++ extra) (8 + (groups.flatMap Group.bytes).length) s =
      .ok (s, 8 + (groups.flatMap Group.bytes).length + 1, true) := by
    rw [parseLoop, dif_pos (by omega), htag, ok_bind, if_pos rfl]
  have hheader : checkHeader (response h groups ++ extra) = .ok () := by
    rw [hdata, List.append_assoc]
    exact checkHeader_bytes h _
  rw [parseIppPrintersResponse, hheader, ok_bind, hloop, hend, ok_bind]
  dsimp only
  rw [hlen]
  by_cases hextra : extra = []
  · rw [if_neg (by simp [hextra]), hfinish, if_pos hextra, ← List.nil_append (groups.filterMap _),
      ← hprinters]
  · have hne := List.length_pos_iff.mpr hextra
    rw [if_pos (.inr (by omega)), if_neg hextra]

/-- A response that is written from groups gives the printers of the groups, in their
order, with the fields that their attributes tell. What is accepted is a header and tokens, with
the end tag as the last byte behind them: tokens without an end tag, or with anything behind it,
are refused. No response makes the parser leave it. -/
theorem ipp_response_decodes :
    (∀ (h : Header) (groups : List Group),
        parseIppPrintersResponse (response h groups) = .ok (groups.filterMap Group.printer?)) ∧
      (∀ (h : Header) (groups : List Group) (extra : List UInt8), extra ≠ [] →
        parseIppPrintersResponse (response h groups ++ extra) = fail .malformedData) ∧
      (∀ data printers, parseIppPrintersResponse data = .ok printers →
        ∃ (header : List UInt8) (tokens : List Token), header.length = 8 ∧
          data = header ++ tokens.flatMap Token.bytes ++ [0x03]) ∧
      (∀ (header : List UInt8) (tokens : List Token) printers, header.length = 8 →
        parseIppPrintersResponse (header ++ tokens.flatMap Token.bytes) ≠ .ok printers ∧
          ∀ extra ≠ [], parseIppPrintersResponse
            (header ++ tokens.flatMap Token.bytes ++ 0x03 :: extra) ≠ .ok printers) ∧
      ∀ data, Defined (parseIppPrintersResponse data) := by
  refine ⟨?_, ?_, fun _ _ => tokens_of_parse, ?_, defined_parseIppPrintersResponse⟩
  · intro h groups
    have hparse := parse_response h groups []
    rwa [List.append_nil, if_pos rfl] at hparse
  · intro h groups extra hextra
    rw [parse_response, if_neg hextra]
  · intro header tokens printers hheader
    refine ⟨?_, fun extra hextra => parse_tokens_refused hheader tokens (.inr ⟨extra, hextra, rfl⟩) _⟩
    have hrefused := parse_tokens_refused hheader tokens (.inl rfl) printers
    rwa [List.append_nil] at hrefused

end Responses

end Syscape.Ipp
