import Syscape.PrinterSnapshot
import Syscape.Lib.FirstSeen
import Syscape.Lib.Hex

/-!
# Physical printers

A USB printer is left out of the list when a queue of the daemon stands for the same device.
The queue's `usb://` address may spell the name of the device in many ways: with percent signs,
in another case, with or without punctuation, and with a query behind it.
-/
namespace Syscape.Printer
open Text Hex FirstSeen FromChars

section Spelling
variable {name text rest : List UInt8}

/-- An ASCII byte that is neither a letter nor a digit. -/
def Punctuation (b : UInt8) : Prop := b < 0x80 ∧ digit b = 36

instance (b : UInt8) : Decidable (Punctuation b) := inferInstanceAs (Decidable (_ ∧ _))

/-- The text spells the name: byte by byte in any case or as a percent sign with two digits,
where punctuation may be left out or put in. -/
inductive Spells : List UInt8 → List UInt8 → Prop where
  | nil : Spells [] []
  | byte {name text : List UInt8} (b c : UInt8) (hcase : lower b = lower c)
      (hpercent : c ≠ 0x25) (hquery : c ≠ 0x3F) (rest : Spells name text) :
      Spells (b :: name) (c :: text)
  | percent {name text : List UInt8} (b high low : UInt8) (hhigh : digit high = b.toNat / 16)
      (hlow : digit low = b.toNat % 16) (rest : Spells name text) :
      Spells (b :: name) (0x25 :: high :: low :: text)
  | left {name text : List UInt8} (b : UInt8) (hb : Punctuation b) (rest : Spells name text) :
      Spells (b :: name) text
  | put {name text : List UInt8} (c : UInt8) (hc : Punctuation c) (hpercent : c ≠ 0x25)
      (hquery : c ≠ 0x3F) (rest : Spells name text) : Spells name (c :: text)

theorem identityByte_lower (b : UInt8) : identityByte (lower b) = identityByte b :=
  forall_byte (p := fun b => identityByte (lower b) = identityByte b) (by decide +kernel) b

/-- Punctuation is what the identity leaves out. -/
theorem identityByte_eq_nil_iff (b : UInt8) : identityByte b = [] ↔ Punctuation b :=
  forall_byte (p := fun b => identityByte b = [] ↔ Punctuation b) (by decide +kernel) b

theorem hexValue_eq {c : UInt8} (h : digit c < 16) : hexValue c = some (digit c) :=
  forall_byte (p := fun c => digit c < 16 → hexValue c = some (digit c)) (by decide +kernel) c h

theorem identityBytes_cons {c : UInt8} (hc : c ≠ 0x25) (text : List UInt8) :
    identityBytes (c :: text) = identityByte c ++ identityBytes text := by
  match text with
  | [] => rfl
  | [h] => rfl
  | h :: l :: rest =>
    have hnone : percentByte c h l = none := if_neg hc
    rw [identityBytes, hnone]

theorem identityBytes_percent {b high low : UInt8} (hhigh : digit high = b.toNat / 16)
    (hlow : digit low = b.toNat % 16) (text : List UInt8) :
    identityBytes (0x25 :: high :: low :: text) = identityByte b ++ identityBytes text := by
  have hb := b.toNat_lt
  have hvalue : (b.toNat / 16) <<< 4 ||| b.toNat % 16 = b.toNat := by
    have hlt : b.toNat % 16 < 2 ^ 4 := Nat.mod_lt _ (by decide)
    rw [Nat.shiftLeft_eq, Nat.mul_comm, ← Nat.two_pow_add_eq_or_of_lt hlt]
    exact Nat.div_add_mod b.toNat 16
  have hbyte : percentByte 0x25 high low = some b := by
    rw [percentByte, if_pos rfl, hexValue_eq (by omega), hexValue_eq (by omega), hhigh, hlow]
    simp only [hvalue, UInt8.ofNat_toNat]
  rw [identityBytes, hbyte]

/-- What is spelled is what is left of the name. -/
theorem Spells.identity (h : Spells name text) :
    identityBytes text = name.flatMap identityByte ∧ 0x3F ∉ text := by
  induction h with
  | nil => exact ⟨rfl, by simp⟩
  | byte b c hcase hpercent hquery _ ih =>
    refine ⟨?_, by simp [hquery.symm, ih.2]⟩
    rw [identityBytes_cons hpercent, ih.1, List.flatMap_cons, ← identityByte_lower c, ← hcase,
      identityByte_lower]
  | percent b high low hhigh hlow _ ih =>
    have hb := b.toNat_lt
    have hne : ∀ {c : UInt8}, digit c < 16 → 0x3F ≠ c := by
      rintro c hc rfl
      exact absurd hc (by decide)
    refine ⟨?_, ?_⟩
    · rw [identityBytes_percent hhigh hlow, ih.1, List.flatMap_cons]
    · simp only [List.mem_cons, not_or]
      exact ⟨by decide, hne (by omega), hne (by omega), ih.2⟩
  | left b hb _ ih =>
    rw [← identityByte_eq_nil_iff] at hb
    exact ⟨by rw [ih.1, List.flatMap_cons, hb, List.nil_append], ih.2⟩
  | put c hc hpercent hquery _ ih =>
    rw [← identityByte_eq_nil_iff] at hc
    refine ⟨?_, by simp [hquery.symm, ih.2]⟩
    rw [identityBytes_cons hpercent, ih.1, hc, List.nil_append]

/-- A name that spells itself: it has no percent sign and no query, and is no address. -/
structure Plain (name : List UInt8) : Prop where
  no_percent : 0x25 ∉ name
  no_query : 0x3F ∉ name
  no_scheme : startsWithIgnoreCase name (ascii "usb://") = false

theorem spells_self (hpercent : 0x25 ∉ name) (hquery : 0x3F ∉ name) : Spells name name := by
  induction name with
  | nil => exact .nil
  | cons b name ih =>
    rw [List.mem_cons, not_or] at hpercent hquery
    exact .byte b b rfl (Ne.symm hpercent.1) (Ne.symm hquery.1) (ih hpercent.2 hquery.2)

theorem takeWhile_query {query : List UInt8} (htext : 0x3F ∉ text)
    (hquery : ∀ c ∈ query.head?, c = 0x3F) : (text ++ query).takeWhile (· ≠ 0x3F) = text := by
  have hall : ∀ c ∈ text, decide (c ≠ 0x3F) = true := by
    intro c hc
    simpa using fun h : c = 0x3F => htext (h ▸ hc)
  rw [List.takeWhile_append_of_pos hall]
  cases query with
  | nil => simp
  | cons c query =>
    obtain rfl := hquery c rfl
    simp

theorem normalizedPrinterIdentity_plain (h : Plain name) :
    normalizedPrinterIdentity name = name.flatMap identityByte := by
  obtain ⟨hidentity, hquery⟩ := (spells_self h.no_percent h.no_query).identity
  have htake := @takeWhile_query name [] hquery (by simp)
  rw [List.append_nil] at htake
  rw [normalizedPrinterIdentity, if_neg (by simp [h.no_scheme]), htake, hidentity]

/-- The address of a queue names a device: the name has more than punctuation, and the address
spells it, with any query behind it. -/
structure Names (uri name : List UInt8) : Prop where
  plain : Plain name
  identity : ∃ b ∈ name, ¬ Punctuation b
  spelled : ∃ scheme text query, uri = scheme ++ text ++ query ∧
    scheme.map lower = ascii "usb://" ∧ Spells name text ∧ ∀ c ∈ query.head?, c = 0x3F

theorem startsWithIgnoreCase_append {scheme start : List UInt8}
    (h : equalsIgnoreCase scheme start = true) (rest : List UInt8) :
    startsWithIgnoreCase (scheme ++ rest) start = true := by
  have hlength : scheme.length = start.length := by
    simpa using congrArg List.length ((equalsIgnoreCase_iff scheme start).mp h)
  rw [startsWithIgnoreCase, if_neg (by simp [hlength]), ← hlength, List.take_left, h]

theorem Names.same_identity {uri : List UInt8} (h : Names uri name) :
    startsWithIgnoreCase uri (ascii "usb://") = true ∧
      normalizedPrinterIdentity uri = normalizedPrinterIdentity name := by
  obtain ⟨scheme, text, query, rfl, hscheme, hspells, hquery⟩ := h.spelled
  obtain ⟨hidentity, hno⟩ := hspells.identity
  have hlength : scheme.length = 6 := by
    have hsame := congrArg List.length hscheme
    rwa [List.length_map] at hsame
  rw [List.append_assoc]
  have hstarts := startsWithIgnoreCase_append
    ((equalsIgnoreCase_iff scheme (ascii "usb://")).mpr hscheme) (text ++ query)
  refine ⟨hstarts, ?_⟩
  rw [normalizedPrinterIdentity_plain h.plain, normalizedPrinterIdentity, if_pos hstarts, ← hlength,
    List.drop_left, takeWhile_query hno hquery, hidentity]

theorem Names.identity_ne {uri : List UInt8} (h : Names uri name) :
    normalizedPrinterIdentity name ≠ [] := by
  obtain ⟨b, hb, hne⟩ := h.identity
  rw [normalizedPrinterIdentity_plain h.plain, ne_eq, List.flatMap_eq_nil_iff]
  exact fun hall => hne ((identityByte_eq_nil_iff b).mp (hall b hb))

/-- In another case, with a percent sign for the blank, without the hyphen and with a query. -/
example : Names (ascii "USB://acme%20x2?serial=7") (ascii "Acme X-2") := by
  refine ⟨⟨by decide, by decide, by decide⟩, ⟨0x41, by decide, by decide⟩, ascii "USB://",
    ascii "acme%20x2", ascii "?serial=7", by decide, by decide, ?_, by decide⟩
  -- the blank is written with a percent sign, and the hyphen is left out
  have hblank : Spells (ascii " X-2") (ascii "%20x2") :=
    .percent _ _ _ (by decide) (by decide) <| .byte _ _ (by decide) (by decide) (by decide) <|
      .left _ (by decide) <| .byte _ _ (by decide) (by decide) (by decide) .nil
  exact .byte _ _ (by decide) (by decide) (by decide) <|
    .byte _ _ (by decide) (by decide) (by decide) <|
      .byte _ _ (by decide) (by decide) (by decide) <|
        .byte _ _ (by decide) (by decide) (by decide) hblank

end Spelling

section Merging
variable {list usbList : List PrinterInfo} {usb item : PrinterInfo}

theorem isDuplicate_of_names (h : Names item.uri usb.name) : isDuplicate usb item = true := by
  obtain ⟨hstarts, hidentity⟩ := h.same_identity
  simp [isDuplicate, hstarts, hidentity, h.identity_ne]

theorem isDuplicate_self (usb : PrinterInfo) : isDuplicate usb usb = true := by
  simp [isDuplicate]

end Merging

end Syscape.Printer
