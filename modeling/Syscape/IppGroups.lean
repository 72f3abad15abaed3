import Syscape.IppRoundTrip

/-!
# IPP responses group by group

A response with any attributes in its groups, whether the parser can decode them or not.
The parser's loop puts off the end of a printer group to the next delimiter; taken group
by group, each group by itself gives a printer, nothing, or an error, and the first error
is the result.
-/
namespace Syscape.Ipp
open Checked Text Endian Printer

section Attributes

/-- A value with its tag. -/
structure AttributeValue where
  tag : UInt8
  tag_gt : 0x0F < tag.toNat
  bytes : List UInt8
  bytes_lt : bytes.length < 2 ^ 16
  deriving DecidableEq

/-- An attribute with its values; those behind the first are written without the name. -/
structure Attribute where
  name : List UInt8
  name_ne : name ≠ []
  name_lt : name.length < 2 ^ 16
  first : AttributeValue
  additional : List AttributeValue
  deriving DecidableEq

namespace Attribute

def values (a : Attribute) : List AttributeValue := a.first :: a.additional

/-- A value of the attribute as it is written. -/
def wire (a : Attribute) (continued : Bool) (v : AttributeValue) : WireAttribute :=
  ⟨v.tag, v.tag_gt, continued, a.name, a.name_ne, a.name_lt, v.bytes, v.bytes_lt⟩

def wires (a : Attribute) : List WireAttribute :=
  a.wire false a.first :: a.additional.map (a.wire true)

/-- The values under the name. -/
def pairs (a : Attribute) : List (List UInt8 × List UInt8) :=
  a.values.map fun v => (a.name, v.bytes)

theorem wires_pairs (a : Attribute) : a.wires.map (fun w => (w.name, w.value)) = a.pairs := by
  simp [wires, pairs, values, wire, Function.comp_def]

theorem pairs_ne_nil (a : Attribute) : a.pairs ≠ [] := by
  simp [pairs, values]

end Attribute

/-- A group of attributes behind a delimiter tag. -/
structure AttributeGroup where
  tag : UInt8
  tag_le : tag.toNat ≤ 0x0F
  tag_ne : tag.toNat ≠ 0x03
  attributes : List Attribute
  deriving DecidableEq

namespace AttributeGroup

/-- The attributes of a printer, behind the tag for them. -/
def printer (attributes : List Attribute) : AttributeGroup where
  tag := 0x04
  tag_le := by decide
  tag_ne := by decide
  attributes := attributes

@[simp] theorem attributes_printer (attributes : List Attribute) :
    (printer attributes).attributes = attributes := rfl

def wires (g : AttributeGroup) : List WireAttribute := g.attributes.flatMap Attribute.wires

def pairs (g : AttributeGroup) : List (List UInt8 × List UInt8) :=
  g.attributes.flatMap Attribute.pairs

def bytes (g : AttributeGroup) : List UInt8 := g.tag :: g.wires.flatMap (·.bytes)

theorem wires_pairs (g : AttributeGroup) :
    g.wires.map (fun w => (w.name, w.value)) = g.pairs := by
  rw [wires, pairs, List.map_flatMap]
  simp only [Attribute.wires_pairs]

theorem pairs_eq_nil_iff (g : AttributeGroup) : g.pairs = [] ↔ g.attributes = [] := by
  rw [pairs, List.flatMap_eq_nil_iff]
  constructor
  · intro h
    rw [List.eq_nil_iff_forall_not_mem]
    intro a ha
    exact a.pairs_ne_nil (h a ha)
  · rintro h a ha
    simp [h] at ha

end AttributeGroup

/-- The header, the groups, and the end tag. -/
def responseBytes (header : List UInt8) (groups : List AttributeGroup) : List UInt8 :=
  header ++ groups.flatMap AttributeGroup.bytes ++ [0x03]

theorem continues_append {previous : List UInt8} {first second : List WireAttribute}
    (hfirst : Continues previous first) (hsecond : ∀ name, Continues name second) :
    Continues previous (first ++ second) := by
  induction first generalizing previous with
  | nil => exact hsecond previous
  | cons w first ih => exact ⟨hfirst.1, ih hfirst.2⟩

/-- Only the additional values of an attribute are written without its name. -/
theorem continues_wires (a : Attribute) (previous : List UInt8) :
    Continues previous a.wires := by
  have hadditional : ∀ values : List AttributeValue,
      Continues a.name (values.map (a.wire true)) := by
    intro values
    induction values with
    | nil => trivial
    | cons v values ih => exact ⟨fun _ => rfl, ih⟩
  refine ⟨?_, hadditional a.additional⟩
  intro h
  exact absurd h (by simp [Attribute.wire])

theorem AttributeGroup.continues (g : AttributeGroup) (previous : List UInt8) :
    Continues previous g.wires := by
  unfold AttributeGroup.wires
  induction g.attributes generalizing previous with
  | nil => trivial
  | cons a attributes ih => exact continues_append (continues_wires a previous) ih

end Attributes

section Loop
variable {data : List UInt8}

/-- The loop over attributes adds them one by one. -/
theorem parseLoop_wires (ws : List WireAttribute) {pre rest : List UInt8} {i : ℕ}
    (hi : i = pre.length) (hdata : data = pre ++ ws.flatMap (·.bytes) ++ rest)
    {s : ParserState} (hcontinues : Continues s.currentAttrName ws) :
    parseLoop data i s =
      ws.foldlM (fun s w => addAttribute w.name w.value s) s >>=
        parseLoop data (i + (ws.flatMap (·.bytes)).length) := by
  induction ws generalizing pre i s with
  | nil => rfl
  | cons w ws ih =>
    obtain ⟨hprevious, hmore⟩ := hcontinues
    have hw : data = pre ++ w.bytes ++ (ws.flatMap (·.bytes) ++ rest) := by
      rw [hdata]
      simp
    rw [parseLoop_attribute w hi hw hprevious, List.foldlM_cons]
    cases hadd : addAttribute w.name w.value s with
    | error e => rfl
    | ok s' =>
      have hname : s'.currentAttrName = w.name := by
        unfold addAttribute at hadd
        split_ifs at hadd
        · obtain ⟨p, -, hp⟩ := bind_eq_ok.mp hadd
          cases hp
          rfl
        · cases hadd
          rfl
      rw [ok_bind, ok_bind, @ih (pre ++ w.bytes) (i + w.bytes.length) (by simp [hi])
        (by rw [hw]; simp) s' (by rwa [hname])]
      simp [Nat.add_assoc]

/-- What a group does to the state of the parser. -/
def groupStep (s : ParserState) (g : AttributeGroup) : Result ParserState := do
  let s ← delimiterTag g.tag.toNat s
  g.wires.foldlM (fun s w => addAttribute w.name w.value s) s

theorem parseLoop_attributeGroups (groups : List AttributeGroup) {pre rest : List UInt8} {i : ℕ}
    (hi : i = pre.length) (hdata : data = pre ++ groups.flatMap AttributeGroup.bytes ++ rest)
    (s : ParserState) :
    parseLoop data i s =
      groups.foldlM groupStep s >>=
        parseLoop data (i + (groups.flatMap AttributeGroup.bytes).length) := by
  induction groups generalizing pre i s with
  | nil => rfl
  | cons g groups ih =>
    have htag : data = pre ++ g.tag ::
        (g.wires.flatMap (·.bytes) ++ (groups.flatMap AttributeGroup.bytes ++ rest)) := by
      rw [hdata]
      simp [AttributeGroup.bytes]
    have hwires : data = (pre ++ [g.tag]) ++ g.wires.flatMap (·.bytes) ++
        (groups.flatMap AttributeGroup.bytes ++ rest) := by
      rw [htag]
      simp
    have hgroups : data = (pre ++ g.bytes) ++ groups.flatMap AttributeGroup.bytes ++ rest := by
      rw [htag]
      simp [AttributeGroup.bytes]
    have hlen : i + 1 + (g.wires.flatMap (·.bytes)).length = i + g.bytes.length := by
      simp [AttributeGroup.bytes]
      omega
    rw [parseLoop_delimiter g.tag_le g.tag_ne hi htag, List.foldlM_cons, groupStep]
    cases delimiterTag g.tag.toNat s with
    | error e => rfl
    | ok s' =>
      rw [ok_bind, ok_bind, parseLoop_wires g.wires (by simp [hi]) hwires (g.continues _), hlen]
      cases g.wires.foldlM (fun s w => addAttribute w.name w.value s) s' with
      | error e => rfl
      | ok s'' =>
        rw [ok_bind, ok_bind, @ih (pre ++ g.bytes) (i + g.bytes.length) (by simp [hi]) hgroups s'']
        simp [Nat.add_assoc]

end Loop

section Groups

/-- The record after some attributes. -/
def decodePairs (pairs : List (List UInt8 × List UInt8)) (p : PrinterInfo) : Result PrinterInfo :=
  pairs.foldlM (fun p pair => decodeAttribute pair.1 pair.2 p) p

/-- What the end of a printer group makes of its record. -/
def finishPrinter (hasAttributes : Bool) (p : PrinterInfo) : Result (Option PrinterInfo) :=
  if hasAttributes ∧ p.id = [] ∧ p.name = [] then fail .malformedData
  else .ok (if p.id ≠ [] ∨ p.name ≠ [] then some (completePrinter p) else none)

/-- A group by itself: a printer, nothing, or an error. -/
def groupResult (g : AttributeGroup) : Result (Option PrinterInfo) :=
  if g.tag = 0x04 then do
    let p ← decodePairs g.pairs {}
    finishPrinter (g.pairs ≠ []) p
  else if g.tag = 0x01 ∨ g.tag = 0x02 ∨ g.tag = 0x05 then .ok none
  else fail .malformedData

/-- The printers of the groups, in their order. -/
def interpret : List AttributeGroup → Result (List PrinterInfo)
  | [] => .ok []
  | g :: groups => do
    let printer ← groupResult g
    let printers ← interpret groups
    .ok (printer.toList ++ printers)

/-- The printers when the state is finished. -/
def settle (s : ParserState) : Result (List PrinterInfo) :=
  match if s.inPrinterGroup then finishCurrentPrinter s else some s with
  | none => fail .malformedData
  | some s => .ok s.resultPrinters

/-- The record of the state is that of the printer group it is in. -/
def Current (s : ParserState) : Prop :=
  s.inPrinterGroup = false → s.currentPrinter = {} ∧ s.currentGroupHasAttributes = false

theorem settle_printer {s : ParserState} (h : s.inPrinterGroup = true) :
    settle s = finishPrinter s.currentGroupHasAttributes s.currentPrinter >>= fun printer =>
      .ok (s.resultPrinters ++ printer.toList) := by
  rw [settle, if_pos h, finishCurrentPrinter, finishPrinter]
  split_ifs <;> simp_all

theorem settle_other {s : ParserState} (h : s.inPrinterGroup = false) :
    settle s = .ok s.resultPrinters := by
  rw [settle, if_neg (by simp [h])]

/-- A delimiter finishes what was there, and begins its group with an empty record. -/
theorem delimiterTag_eq {s : ParserState} (hs : Current s) (tag : ℕ) :
    delimiterTag tag s =
      if tag = 0x04 ∨ tag = 0x01 ∨ tag = 0x02 ∨ tag = 0x05 then
        settle s >>= fun printers => .ok ⟨printers, {}, tag = 0x04, false, []⟩
      else fail .malformedData := by
  unfold delimiterTag settle
  split_ifs with htag hin
  · unfold finishCurrentPrinter
    split_ifs <;> rfl
  · have hempty := hs (by simpa using hin)
    simp [hempty.1, hempty.2]
  · rfl

/-- Attributes of a printer group change the record. -/
theorem addAttributes_printer (ws : List WireAttribute) {s : ParserState}
    (hs : s.inPrinterGroup = true) :
    ∃ name, ws.foldlM (fun s w => addAttribute w.name w.value s) s =
      decodePairs (ws.map fun w => (w.name, w.value)) s.currentPrinter >>= fun p =>
        .ok ⟨s.resultPrinters, p, true, s.currentGroupHasAttributes || ws ≠ [], name⟩ := by
  induction ws generalizing s with
  | nil =>
    refine ⟨s.currentAttrName, ?_⟩
    cases s
    simp_all [decodePairs]
  | cons w ws ih =>
    unfold decodePairs
    rw [List.foldlM_cons, List.map_cons, List.foldlM_cons, addAttribute, if_pos hs]
    cases decodeAttribute w.name w.value s.currentPrinter with
    | error e => exact ⟨[], rfl⟩
    | ok p =>
      obtain ⟨name, hname⟩ := @ih { s with
        currentPrinter := p
        currentGroupHasAttributes := true
        currentAttrName := w.name } hs
      refine ⟨name, ?_⟩
      rw [ok_bind, ok_bind, ok_bind, hname]
      simp [decodePairs]

/-- Attributes of another group change the name only. -/
theorem addAttributes_other (ws : List WireAttribute) {s : ParserState}
    (hs : s.inPrinterGroup = false) :
    ∃ name, ws.foldlM (fun s w => addAttribute w.name w.value s) s =
      .ok { s with currentAttrName := name } := by
  induction ws generalizing s with
  | nil => exact ⟨s.currentAttrName, rfl⟩
  | cons w ws ih =>
    obtain ⟨name, hname⟩ := @ih { s with currentAttrName := w.name } hs
    refine ⟨name, ?_⟩
    rw [List.foldlM_cons, addAttribute, if_neg (by simp [hs]), ok_bind, hname]

/-- The attributes of a printer group, from its beginning to its end. -/
theorem settle_printerWires (g : AttributeGroup) (printers : List PrinterInfo) :
    (g.wires.foldlM (fun s w => addAttribute w.name w.value s) ⟨printers, {}, true, false, []⟩ >>=
        settle =
      decodePairs g.pairs {} >>= fun p => finishPrinter (g.pairs ≠ []) p >>= fun printer =>
        .ok (printers ++ printer.toList)) ∧
      ∀ s', g.wires.foldlM (fun s w => addAttribute w.name w.value s)
        ⟨printers, {}, true, false, []⟩ = .ok s' → Current s' := by
  obtain ⟨name, hname⟩ := addAttributes_printer g.wires (s := ⟨printers, {}, true, false, []⟩) rfl
  have hne : (g.wires ≠ [] : Bool) = (g.pairs ≠ [] : Bool) := by
    rw [← g.wires_pairs]
    simp
  rw [hname, g.wires_pairs]
  dsimp only
  rw [Bool.false_or, hne]
  constructor
  · cases decodePairs g.pairs {} with
    | error e => rfl
    | ok p => rw [ok_bind, ok_bind, ok_bind, settle_printer rfl]
  · intro s' hs'
    obtain ⟨p, -, hp⟩ := bind_eq_ok.mp hs'
    cases hp
    intro h
    cases h

/-- Those of another group give nothing. -/
theorem settle_otherWires (g : AttributeGroup) (printers : List PrinterInfo) :
    (g.wires.foldlM (fun s w => addAttribute w.name w.value s) ⟨printers, {}, false, false, []⟩ >>=
        settle = .ok printers) ∧
      ∀ s', g.wires.foldlM (fun s w => addAttribute w.name w.value s)
        ⟨printers, {}, false, false, []⟩ = .ok s' → Current s' := by
  obtain ⟨name, hname⟩ := addAttributes_other g.wires (s := ⟨printers, {}, false, false, []⟩) rfl
  rw [hname]
  constructor
  · rw [ok_bind, settle_other rfl]
  · intro s' hs'
    cases hs'
    exact fun _ => ⟨rfl, rfl⟩

/-- Finishing the state behind a group gives the printers of before and that of the group. -/
theorem settle_groupStep {s : ParserState} (hs : Current s) (g : AttributeGroup) :
    (groupStep s g >>= settle =
        settle s >>= fun printers => groupResult g >>= fun printer =>
          .ok (printers ++ printer.toList)) ∧
      ∀ s', groupStep s g = .ok s' → Current s' := by
  have hbyte : ∀ c : UInt8, g.tag.toNat = c.toNat ↔ g.tag = c := fun c => UInt8.toNat_inj
  have h4 : g.tag.toNat = 0x04 ↔ g.tag = 0x04 := hbyte 0x04
  have h1 : g.tag.toNat = 0x01 ↔ g.tag = 0x01 := hbyte 0x01
  have h2 : g.tag.toNat = 0x02 ↔ g.tag = 0x02 := hbyte 0x02
  have h5 : g.tag.toNat = 0x05 ↔ g.tag = 0x05 := hbyte 0x05
  rw [groupStep, delimiterTag_eq hs, groupResult]
  simp only [h4, h1, h2, h5]
  -- an error of what was there comes first in either way
  cases hsettle : settle s with
  | error e =>
    have hmalformed : settle s = fail .malformedData := by
      unfold settle at hsettle ⊢
      split <;> simp_all
    rw [← hsettle, hmalformed]
    by_cases htag : g.tag = 0x04 ∨ g.tag = 0x01 ∨ g.tag = 0x02 ∨ g.tag = 0x05
    · rw [if_pos htag]
      exact ⟨rfl, by simp⟩
    · rw [if_neg htag]
      exact ⟨rfl, by simp⟩
  | ok printers =>
    by_cases hprinter : g.tag = 0x04
    · simp only [hprinter, true_or, if_true, ok_bind, decide_true]
      obtain ⟨hfinish, hcurrent⟩ := settle_printerWires g printers
      refine ⟨?_, hcurrent⟩
      rw [hfinish]
      cases decodePairs g.pairs {} with
      | error e => rfl
      | ok p => rw [ok_bind, ok_bind]
    · rw [if_neg hprinter]
      by_cases hother : g.tag = 0x01 ∨ g.tag = 0x02 ∨ g.tag = 0x05
      · rw [if_pos (.inr hother), if_pos hother, ok_bind]
        simp only [hprinter, decide_false, ok_bind]
        obtain ⟨hfinish, hcurrent⟩ := settle_otherWires g printers
        refine ⟨?_, hcurrent⟩
        rw [hfinish]
        simp
      · rw [if_neg (by simp [hprinter, hother]), if_neg hother]
        exact ⟨rfl, by simp⟩

/-- Finishing the state behind groups gives the printers of all groups. -/
theorem settle_groups (groups : List AttributeGroup) {s : ParserState} (hs : Current s) :
    groups.foldlM groupStep s >>= settle =
      settle s >>= fun printers => interpret groups >>= fun more => .ok (printers ++ more) := by
  induction groups generalizing s with
  | nil =>
    rw [List.foldlM_nil, pure_eq_ok, ok_bind]
    cases settle s with
    | error e => rfl
    | ok printers => simp [interpret]
  | cons g groups ih =>
    obtain ⟨hstep, hcurrent⟩ := settle_groupStep hs g
    rw [List.foldlM_cons, interpret]
    cases hg : groupStep s g with
    | error e =>
      rw [hg] at hstep
      cases hsettle : settle s with
      | error e' =>
        rw [hsettle] at hstep
        exact hstep
      | ok printers =>
        rw [hsettle, ok_bind] at hstep
        rw [error_bind, error_bind] at *
        rw [ok_bind]
        cases hresult : groupResult g with
        | error e' =>
          rw [hresult] at hstep
          exact hstep
        | ok printer =>
          rw [hresult] at hstep
          cases hstep
    | ok s' =>
      rw [hg, ok_bind] at hstep
      rw [ok_bind, ih (hcurrent s' hg), hstep]
      cases settle s with
      | error e => rfl
      | ok printers =>
        cases groupResult g with
        | error e => rfl
        | ok printer =>
          cases interpret groups with
          | error e => rfl
          | ok more => simp

end Groups

section Responses
variable {header : List UInt8}

/-- The header is checked by itself. -/
theorem checkHeader_append (hheader : header.length = 8) (rest : List UInt8) :
    checkHeader (header ++ rest) = checkHeader header := by
  have hbyte : ∀ i < 8, (readByte (header ++ rest) i : Result ℕ) = readByte header i := by
    intro i hi
    rw [readByte, readByte, read_append_left (by omega)]
  have h16 : readUint16 (header ++ rest) 2 = readUint16 header 2 := by
    rw [readUint16, readUint16, if_neg (by simp; omega), if_neg (by omega), hbyte 2 (by omega),
      hbyte 3 (by omega)]
  have h32 : readUint32 (header ++ rest) 4 = readUint32 header 4 := by
    rw [readUint32, readUint32, if_neg (by simp; omega), if_neg (by omega), hbyte 4 (by omega),
      hbyte 5 (by omega), hbyte 6 (by omega), hbyte 7 (by omega)]
  rw [checkHeader, checkHeader, if_neg (by simp; omega), if_neg (by omega), hbyte 0 (by omega),
    hbyte 1 (by omega), h16, h32]

/-- A response gives what its groups give, one after the other. -/
theorem parse_responseBytes (hheader : header.length = 8) (groups : List AttributeGroup) :
    parseIppPrintersResponse (responseBytes header groups) =
      checkHeader header >>= fun _ => interpret groups := by
  have hdata : responseBytes header groups =
      header ++ groups.flatMap AttributeGroup.bytes ++ [0x03] := rfl
  have hcheck : checkHeader (responseBytes header groups) = checkHeader header := by
    rw [hdata, List.append_assoc, checkHeader_append hheader]
  have hpos : 8 + (groups.flatMap AttributeGroup.bytes).length =
      (header ++ groups.flatMap AttributeGroup.bytes).length := by
    rw [List.length_append, hheader]
  have hlen : (responseBytes header groups).length =
      8 + (groups.flatMap AttributeGroup.bytes).length + 1 := by
    rw [hdata, List.length_append, ← hpos, List.length_singleton]
  have htag : (readByte (responseBytes header groups)
      (8 + (groups.flatMap AttributeGroup.bytes).length) : Result ℕ) = .ok 0x03 := by
    rw [hpos, hdata, readByte_append_length]
    rfl
  have hend : ∀ s, parseLoop (responseBytes header groups)
      (8 + (groups.flatMap AttributeGroup.bytes).length) s =
        .ok (s, 8 + (groups.flatMap AttributeGroup.bytes).length + 1, true) := by
    intro s
    rw [parseLoop, dif_pos (by omega), htag, ok_bind, if_pos rfl]
  have hsettle := @settle_groups groups ⟨[], {}, false, false, []⟩ fun _ => ⟨rfl, rfl⟩
  have hstart : settle ⟨[], {}, false, false, []⟩ = .ok [] := rfl
  rw [hstart, ok_bind] at hsettle
  rw [parseIppPrintersResponse, hcheck, parseLoop_attributeGroups groups hheader.symm hdata]
  cases checkHeader header with
  | error e => rfl
  | ok _ =>
    rw [ok_bind, ok_bind]
    cases hfold : groups.foldlM groupStep ⟨[], {}, false, false, []⟩ with
    | error e =>
      rw [hfold] at hsettle
      cases hinterpret : interpret groups with
      | error e' =>
        rw [hinterpret] at hsettle
        exact hsettle
      | ok printers =>
        rw [hinterpret] at hsettle
        cases hsettle
    | ok s =>
      rw [hfold, ok_bind] at hsettle
      rw [ok_bind, hend, ok_bind]
      dsimp only
      rw [if_neg (by simp [hlen])]
      change settle s = _
      rw [hsettle]
      cases interpret groups with
      | error e => rfl
      | ok printers => simp

end Responses

end Syscape.Ipp
