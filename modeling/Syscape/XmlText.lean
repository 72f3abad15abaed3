import Syscape.Wifi
import Syscape.Lib.Paths
import Syscape.Lib.Numerals

/-!
# Character data in Windows profiles

The grammar of the texts that the profiles contain, and the decoder that accepts it. The
helper that reads the numbers of references skips blanks and one prefix for hexadecimal
numbers, so the two are compared for references without these.
-/
namespace Syscape.Wifi
open Checked Text FromChars Utf8 Digits Numerals
open Syscape.Printer (isBlank)

section Grammar

/-- The bytes of an ampersand, what stands behind it, and a semicolon. -/
def entityText (entity : List UInt8) : List UInt8 := 0x26 :: (entity ++ [0x3B])

/-- The characters that have a name. -/
def namedCharacters : List (UInt8 × List UInt8) :=
  [(0x22, ascii "quot"), (0x26, ascii "amp"), (0x27, ascii "apos"), (0x3C, ascii "lt"),
    (0x3E, ascii "gt")]

/-- The number of a character reference: decimal digits, or a letter and hexadecimal digits. -/
def ReferenceNumeral (n : ℕ) (body : List UInt8) : Prop :=
  Numeral 10 n body ∨
    ∃ x digits, (x = 0x78 ∨ x = 0x58) ∧ body = x :: digits ∧ Numeral 16 n digits

/-- The text consists of bytes other than ampersands, predefined entities and references to
characters other than NUL, and stands for the bytes. -/
inductive XmlText : List UInt8 → List UInt8 → Prop where
  | nil : XmlText [] []
  | plain {text out : List UInt8} (c : UInt8) (ampersand : c ≠ 0x26) (rest : XmlText text out) :
      XmlText (c :: text) (c :: out)
  | entity {text out : List UInt8} (name : List UInt8) (c : UInt8)
      (named : (c, name) ∈ namedCharacters) (rest : XmlText text out) :
      XmlText (entityText name ++ text) (c :: out)
  | reference {text out : List UInt8} (body : List UInt8) (c : Char) (zero : c.toNat ≠ 0)
      (numeral : ReferenceNumeral c.toNat body) (rest : XmlText text out) :
      XmlText (entityText (0x23 :: body) ++ text) (String.utf8EncodeChar c ++ out)

/-- The text is the characters with some of them escaped: every ampersand, and of the others
any; NUL is not written as a reference. -/
inductive Escaped : List Char → List UInt8 → Prop where
  | nil : Escaped [] []
  | plain {cs : List Char} {text : List UInt8} (c : Char) (ampersand : c ≠ '&')
      (rest : Escaped cs text) : Escaped (c :: cs) (String.utf8EncodeChar c ++ text)
  | entity {cs : List Char} {text : List UInt8} (name : List UInt8) (c : Char)
      (named : (UInt8.ofNat c.toNat, name) ∈ namedCharacters ∧ c.toNat < 0x80)
      (rest : Escaped cs text) : Escaped (c :: cs) (entityText name ++ text)
  | reference {cs : List Char} {text : List UInt8} (body : List UInt8) (c : Char)
      (zero : c.toNat ≠ 0) (numeral : ReferenceNumeral c.toNat body) (rest : Escaped cs text) :
      Escaped (c :: cs) (entityText (0x23 :: body) ++ text)

/-- What stands between the number sign and the semicolon of the references of a text. -/
def references (text : List UInt8) : List (List UInt8) :=
  match text with
  | [] => []
  | c :: text =>
    if c ≠ 0x26 then references text
    else
      match text.idxOf? 0x3B with
      | none => []
      | some stop =>
        let entity := text.take stop
        let rest := references (text.drop (stop + 1))
        if entity.head? = some 0x23 then entity.drop 1 :: rest else rest
termination_by text.length

/-- A reference has no blanks, and no more than one letter that marks hexadecimal digits. -/
def Strict (body : List UInt8) : Prop :=
  (∀ c ∈ body, isBlank c = false) ∧
    ∀ x ∈ [0x78, 0x58], ∀ y ∈ [0x78, 0x58], ¬ ([x, 0x30, y] : List UInt8) <+: body

instance (body : List UInt8) : Decidable (Strict body) := inferInstanceAs (Decidable (_ ∧ _))

end Grammar

section Numbers

theorem trimWhitespace_eq_self {text : List UInt8} (h : ∀ c ∈ text, isBlank c = false) :
    trimWhitespace text = text := by
  show (text.dropWhile isBlank).rdropWhile isBlank = text
  rw [dropWhile_eq_self h, rdropWhile_eq_self h]

/-- Without blanks and a prefix, the helper reads numerals and nothing else. -/
theorem parseInt_eq_some {base max n : ℕ} {text : List UInt8}
    (hblank : ∀ c ∈ text, isBlank c = false)
    (hx : base = 16 → ¬ ascii "0x" <+: text ∧ ¬ ascii "0X" <+: text) :
    parseInt max text base = some n ↔ Numeral base n text ∧ n ≤ max := by
  have hplain : ¬ (base = 16 ∧ (ascii "0x" <+: text ∨ ascii "0X" <+: text)) := by
    rintro ⟨h16, h | h⟩
    · exact (hx h16).1 h
    · exact (hx h16).2 h
  have htrim : Printer.trimWhitespace text = text := trimWhitespace_eq_self hblank
  unfold parseInt Printer.parseInt
  simp only [htrim, hplain, if_false]
  constructor
  · intro h
    split_ifs at h with hnil hread
    exact Numeral.of_fromChars hnil hread h
  · rintro ⟨hnumeral, hmax⟩
    rw [if_neg hnumeral.ne_nil, hnumeral.fromChars, if_pos hmax]
    exact if_pos rfl

theorem numeral_unblank {base n : ℕ} {text : List UInt8} (h : Numeral base n text)
    (hbase : base ≤ 36) : ∀ c ∈ text, isBlank c = false :=
  fun _ hc => Printer.isBlank_numeral h hbase hc

end Numbers

section References
variable {n : ℕ} {body : List UInt8}

/-- The numbers that the decoder refuses are not those of characters. -/
theorem exists_char_iff : (∃ c : Char, c.toNat = n) ↔
    ¬ (n > 0x10FFFF ∨ 0xD800 ≤ n ∧ n ≤ 0xDFFF) := by
  constructor
  · rintro ⟨c, rfl⟩
    have hvalid : c.toNat < 0xD800 ∨ 0xDFFF < c.toNat ∧ c.toNat < 0x110000 := c.valid
    omega
  · intro h
    exact exists_char (by omega)

theorem ReferenceNumeral.strict (h : ReferenceNumeral n body) : Strict body := by
  have hhead {base : ℕ} {digits : List UInt8} (hnumeral : Numeral base n digits) (hbase : base ≤ 16) :
      ∀ y ∈ [(0x78 : UInt8), 0x58], y ∉ digits := by
    intro y hy hmem
    have hdigit := hnumeral.digits y hmem
    have hlarge : digit y = 33 := by
      simp only [List.mem_cons, List.not_mem_nil, or_false] at hy
      rcases hy with rfl | rfl <;> rfl
    omega
  rcases h with h | ⟨x, digits, hx, rfl, h⟩
  · refine ⟨numeral_unblank h (by decide), ?_⟩
    intro x hx y _ hstart
    exact hhead h (by decide) x hx (hstart.subset (by simp))
  · constructor
    · intro c hc
      rcases List.mem_cons.mp hc with rfl | hc
      · rcases hx with rfl | rfl <;> rfl
      · exact numeral_unblank h (by decide) c hc
    · intro x' _ y hy hstart
      rw [List.cons_prefix_cons] at hstart
      exact hhead h (by decide) y hy (hstart.2.subset (by simp))

/-- A strict reference is accepted if it is the numeral of a character other than NUL. -/
theorem referencedCodePoint_eq_ok (h : Strict body) :
    referencedCodePoint body = .ok n ↔
      ReferenceNumeral n body ∧ n ≠ 0 ∧ ∃ c : Char, c.toNat = n := by
  have hread : (if body.head? = some 0x78 ∨ body.head? = some 0x58 then
      parseInt (2 ^ 32 - 1) (body.drop 1) 16 else parseInt (2 ^ 32 - 1) body 10) = some n ↔
      ReferenceNumeral n body ∧ n ≤ 2 ^ 32 - 1 := by
    split_ifs with hx
    · obtain ⟨x, digits, rfl⟩ : ∃ x digits, body = x :: digits := by
        cases body with
        | nil => simp at hx
        | cons x digits => exact ⟨x, digits, rfl⟩
      have hxs : x = 0x78 ∨ x = 0x58 := by simpa using hx
      have hxm : x ∈ [(0x78 : UInt8), 0x58] := by simpa using hxs
      have hblank : ∀ c ∈ digits, isBlank c = false := fun c hc => h.1 c (by simp [hc])
      have hprefix : ¬ ascii "0x" <+: digits ∧ ¬ ascii "0X" <+: digits := by
        constructor
        · intro hstart
          exact h.2 x hxm 0x78 (by simp) (List.cons_prefix_cons.mpr ⟨rfl, hstart⟩)
        · intro hstart
          exact h.2 x hxm 0x58 (by simp) (List.cons_prefix_cons.mpr ⟨rfl, hstart⟩)
      rw [List.drop_one, List.tail_cons, parseInt_eq_some hblank fun _ => hprefix]
      refine and_congr_left fun _ => ⟨fun hnumeral => .inr ⟨x, digits, hxs, rfl, hnumeral⟩, ?_⟩
      rintro (hdecimal | ⟨_, _, -, hcons, hnumeral⟩)
      · have hdigit := hdecimal.digits x (by simp)
        rcases hxs with rfl | rfl <;> exact absurd hdigit (by decide)
      · cases hcons
        exact hnumeral
    · rw [parseInt_eq_some h.1 fun h16 => absurd h16 (by decide)]
      refine and_congr_left fun _ => ⟨.inl, ?_⟩
      rintro (hdecimal | ⟨x, digits, hxs, rfl, -⟩)
      · exact hdecimal
      · exact absurd (by simpa using hxs) hx
  unfold referencedCodePoint
  dsimp only
  constructor
  · intro hok
    split at hok
    · cases hok
    · next m hm =>
      split_ifs at hok with hbad
      · cases hok
      · cases hok
        rw [not_or] at hbad
        exact ⟨(hread.mp hm).1, hbad.1, exists_char_iff.mpr hbad.2⟩
  · rintro ⟨hnumeral, hzero, hchar⟩
    have hscalar := exists_char_iff.mp hchar
    rw [hread.mpr ⟨hnumeral, by omega⟩]
    exact if_neg (not_or.mpr ⟨hzero, hscalar⟩)

end References

section Decoding

theorem ReferenceNumeral.no_semicolon {n : ℕ} {body : List UInt8} (h : ReferenceNumeral n body) :
    0x3B ∉ body := by
  have hnumeral {base : ℕ} {digits : List UInt8} (hd : Numeral base n digits) (hbase : base ≤ 36) :
      0x3B ∉ digits := by
    intro hc
    have halpha := hd.alphanumeric hbase hc
    simp at halpha
  rcases h with h | ⟨x, digits, hx, rfl, h⟩
  · exact hnumeral h (by decide)
  · rw [List.mem_cons, not_or]
    refine ⟨?_, hnumeral h (by decide)⟩
    rcases hx with rfl | rfl <;> decide

theorem namedCharacters_ok {name : List UInt8} {c : UInt8} (h : (c, name) ∈ namedCharacters) :
    0x3B ∉ name ∧ predefinedEntities.lookup name = some c := by
  simp only [namedCharacters, List.mem_cons, Prod.mk.injEq, List.not_mem_nil, or_false] at h
  rcases h with ⟨rfl, rfl⟩ | ⟨rfl, rfl⟩ | ⟨rfl, rfl⟩ | ⟨rfl, rfl⟩ | ⟨rfl, rfl⟩ <;> decide

theorem namedCharacters_of_lookup {name : List UInt8} {c : UInt8}
    (h : predefinedEntities.lookup name = some c) : (c, name) ∈ namedCharacters := by
  obtain ⟨before, after, hsplit, -⟩ := List.lookup_eq_some_iff.mp h
  have hmem : (name, c) ∈ predefinedEntities := by simp [hsplit]
  simp only [predefinedEntities, List.mem_cons, Prod.mk.injEq, List.not_mem_nil, or_false] at hmem
  rcases hmem with ⟨rfl, rfl⟩ | ⟨rfl, rfl⟩ | ⟨rfl, rfl⟩ | ⟨rfl, rfl⟩ | ⟨rfl, rfl⟩ <;> decide

/-- One entity, and what follows it. -/
theorem decodeXml_entityText {entity text decoded decoded' : List UInt8} (hend : 0x3B ∉ entity)
    (h : decodeEntity entity decoded = .ok decoded') :
    decodeXml (entityText entity ++ text) decoded = decodeXml text decoded' := by
  have htext : entityText entity ++ text = 0x26 :: (entity ++ 0x3B :: text) := by
    simp [entityText]
  rw [htext, decodeXml]
  simp only [ne_eq, not_true_eq_false, if_false, Paths.idxOf?_append_cons hend, List.take_left,
    List.drop_length_add_append, List.drop_succ_cons, List.drop_zero, h, ok_bind]

theorem decodeEntity_reference {body : List UInt8} (c : Char) (zero : c.toNat ≠ 0)
    (h : ReferenceNumeral c.toNat body) (decoded : List UInt8) :
    decodeEntity (0x23 :: body) decoded = .ok (decoded ++ String.utf8EncodeChar c) := by
  have hlookup : predefinedEntities.lookup (0x23 :: body) = none := rfl
  have hread := (referencedCodePoint_eq_ok h.strict).mpr ⟨h, zero, c, rfl⟩
  rw [decodeEntity, hlookup]
  simp only [List.head?_cons, if_true, List.drop_one, List.tail_cons, hread, ok_bind, appendUtf8_eq]

/-- Every text of the grammar is decoded. -/
theorem XmlText.decodeXml_eq {text out : List UInt8} (h : XmlText text out)
    (decoded : List UInt8) : decodeXml text decoded = .ok (decoded ++ out) := by
  induction h generalizing decoded with
  | nil => rw [decodeXml, List.append_nil]
  | plain c hampersand _ ih => rw [decodeXml, if_pos hampersand, ih, List.append_assoc]; rfl
  | entity name c hnamed _ ih =>
    obtain ⟨hend, hlookup⟩ := namedCharacters_ok hnamed
    have hentity : decodeEntity name decoded = .ok (decoded ++ [c]) := by
      rw [decodeEntity, hlookup]
    rw [decodeXml_entityText hend hentity, ih, List.append_assoc]
    rfl
  | reference body c hzero hnumeral _ ih =>
    have hend : 0x3B ∉ 0x23 :: body := by
      rw [List.mem_cons, not_or]
      exact ⟨by decide, hnumeral.no_semicolon⟩
    rw [decodeXml_entityText hend (decodeEntity_reference c hzero hnumeral decoded), ih,
      List.append_assoc]

/-- What the decoder accepts for one entity. -/
theorem decodeEntity_cases {entity decoded decoded' : List UInt8}
    (hstrict : entity.head? = some 0x23 → Strict (entity.drop 1))
    (h : decodeEntity entity decoded = .ok decoded') :
    (∃ c, (c, entity) ∈ namedCharacters ∧ decoded' = decoded ++ [c]) ∨
      ∃ body c, entity = 0x23 :: body ∧ c.toNat ≠ 0 ∧ ReferenceNumeral c.toNat body ∧
        decoded' = decoded ++ String.utf8EncodeChar c := by
  unfold decodeEntity at h
  split at h
  · next c hlookup =>
    cases h
    exact .inl ⟨c, namedCharacters_of_lookup hlookup, rfl⟩
  · split_ifs at h with hhead
    · obtain ⟨n, hn, hok⟩ := bind_eq_ok.mp h
      obtain ⟨hnumeral, hzero, c, rfl⟩ := (referencedCodePoint_eq_ok (hstrict hhead)).mp hn
      obtain ⟨body, rfl⟩ : ∃ body, entity = 0x23 :: body := by
        cases entity with
        | nil => cases hhead
        | cons d body => exact ⟨body, by rw [Option.some_inj.mp hhead]⟩
      cases hok
      exact .inr ⟨body, c, rfl, hzero, hnumeral, appendUtf8_eq decoded c⟩
    · cases h

/-- The decoder accepts only texts of the grammar, as long as their references are strict. -/
theorem xmlText_of_decodeXml {text decoded out : List UInt8}
    (hstrict : ∀ body ∈ references text, Strict body) (h : decodeXml text decoded = .ok out) :
    ∃ more, out = decoded ++ more ∧ XmlText text more := by
  induction hn : text.length using Nat.strong_induction_on generalizing text decoded with
  | h n ih =>
    cases text with
    | nil =>
      rw [decodeXml] at h
      cases h
      exact ⟨[], by simp, .nil⟩
    | cons c text =>
      rw [decodeXml] at h
      rw [references] at hstrict
      split_ifs at h with hc
      · rw [if_pos hc] at hstrict
        obtain ⟨more, rfl, hmore⟩ := ih text.length (by simp [← hn]) hstrict h rfl
        exact ⟨c :: more, by simp, .plain c hc hmore⟩
      · obtain rfl : c = 0x26 := not_not.mp hc
        rw [if_neg hc] at hstrict
        cases hstop : text.idxOf? 0x3B with
        | none =>
          rw [hstop] at h
          cases h
        | some stop =>
          obtain ⟨entity, rest, rfl, -, rfl⟩ := Paths.exists_of_idxOf?_eq_some hstop
          simp only [hstop, List.take_left, List.drop_length_add_append, List.drop_succ_cons,
            List.drop_zero] at h hstrict
          obtain ⟨decoded', hentity, hrest⟩ := bind_eq_ok.mp h
          have hrests : ∀ body ∈ references rest, Strict body := by
            intro body hbody
            apply hstrict
            split_ifs
            · exact List.mem_cons_of_mem _ hbody
            · exact hbody
          have hfirst : entity.head? = some 0x23 → Strict (entity.drop 1) := by
            intro hhead
            rw [if_pos hhead] at hstrict
            exact hstrict _ (by simp)
          obtain ⟨more, rfl, hmore⟩ := ih rest.length (by simp [← hn]; omega) hrests hrest rfl
          have htext : 0x26 :: (entity ++ 0x3B :: rest) = entityText entity ++ rest := by
            simp [entityText]
          rw [htext]
          rcases decodeEntity_cases hfirst hentity with
            ⟨c, hnamed, rfl⟩ | ⟨body, c, rfl, hzero, hnumeral, rfl⟩
          · exact ⟨c :: more, by simp, .entity entity c hnamed hmore⟩
          · exact ⟨_, List.append_assoc .., .reference body c hzero hnumeral hmore⟩

end Decoding

section Escaping

/-- Bytes that are no ampersands stand for themselves. -/
theorem XmlText.plain_append {text out : List UInt8} (h : XmlText text out) {bytes : List UInt8}
    (hbytes : 0x26 ∉ bytes) : XmlText (bytes ++ text) (bytes ++ out) := by
  induction bytes with
  | nil => exact h
  | cons c bytes ih =>
    rw [List.mem_cons, not_or] at hbytes
    exact .plain c (Ne.symm hbytes.1) (ih hbytes.2)

theorem utf8EncodeChar_of_lt {c : Char} (h : c.toNat < 0x80) :
    String.utf8EncodeChar c = [UInt8.ofNat c.toNat] := by
  have hle : c.val.toNat ≤ 0x7F := Nat.le_of_lt_succ h
  simp only [String.utf8EncodeChar, if_pos hle]
  rfl

theorem ampersand_not_mem {c : Char} (h : c ≠ '&') : 0x26 ∉ String.utf8EncodeChar c := by
  intro hmem
  have hencode := utf8EncodeChar_of_ascii hmem (by decide)
  simp only [String.utf8EncodeChar] at hencode
  split_ifs at hencode with hle
  · have hbyte := congrArg UInt8.toNat (List.singleton_inj.mp hencode)
    rw [UInt8.toNat_ofNat'] at hbyte
    have hval : c.val.toNat = 0x26 := by
      have hself : c.val.toNat % 2 ^ 8 = c.val.toNat := Nat.mod_eq_of_lt (by omega)
      exact hself ▸ hbyte
    exact h (Char.ext (UInt32.toNat_inj.mp hval))
  all_goals simp at hencode

/-- Escaped characters are a text of the grammar. -/
theorem Escaped.xmlText {cs : List Char} {text : List UInt8} (h : Escaped cs text) :
    XmlText text (encodeScalars cs) := by
  induction h with
  | nil => exact .nil
  | plain c hampersand _ ih =>
    rw [encodeScalars_cons]
    exact ih.plain_append (ampersand_not_mem hampersand)
  | entity name c hnamed _ ih =>
    rw [encodeScalars_cons, utf8EncodeChar_of_lt hnamed.2]
    exact .entity name _ hnamed.1 ih
  | reference body c hzero hnumeral _ ih =>
    rw [encodeScalars_cons]
    exact .reference body c hzero hnumeral ih

end Escaping

/-- Escaped characters are decoded to their encoding; and of the texts with strict
references the decoder accepts those of the grammar that stand for valid UTF-8. -/
theorem xml_text_decoded :
    (∀ (cs : List Char) (text : List UInt8), Escaped cs text →
      decodeXmlText text = .ok (encodeScalars cs)) ∧
    ∀ text : List UInt8, (∀ body ∈ references text, Strict body) → ∀ out : List UInt8,
      decodeXmlText text = .ok out ↔ XmlText text out ∧ ValidUtf8 out := by
  have hgrammar {text out : List UInt8} (h : XmlText text out) (hvalid : ValidUtf8 out) :
      decodeXmlText text = .ok out := by
    have htrue : isValidUtf8 out = .ok true := hvalid
    rw [decodeXmlText, h.decodeXml_eq, ok_bind, List.nil_append, validText, htrue, ok_bind]
    rfl
  constructor
  · intro cs text h
    exact hgrammar h.xmlText (validUtf8_iff.mpr ⟨cs, rfl⟩)
  · intro text hstrict out
    constructor
    · intro h
      obtain ⟨decoded, hdecoded, hvalid⟩ := bind_eq_ok.mp h
      obtain ⟨more, rfl, hmore⟩ := xmlText_of_decodeXml hstrict hdecoded
      rw [validText, isValidUtf8_eq, ok_bind] at hvalid
      split_ifs at hvalid with hv
      · cases hvalid
        exact ⟨hmore, by simpa using hv⟩
      · cases hvalid
    · rintro ⟨h, hvalid⟩
      exact hgrammar h hvalid

/-- An escaped name with an entity, and decimal and hexadecimal references; and a text with a
strict reference. -/
theorem cafe_decoded :
    decodeXmlText (ascii "Caf&#233;&amp;&#x4e;") =
        .ok (encodeScalars ['C', 'a', 'f', 'é', '&', 'N']) ∧
      decodeXmlText (ascii "&#x4e;") = .ok (ascii "N") := by
  have hhex : ReferenceNumeral 'N'.toNat (ascii "x4e") :=
    .inr ⟨0x78, ascii "4e", by decide, by decide, by decide, forall_of_all (by decide), by decide⟩
  have hescaped : Escaped ['C', 'a', 'f', 'é', '&', 'N'] (ascii "Caf&#233;&amp;&#x4e;") :=
    .plain 'C' (by decide) <| .plain 'a' (by decide) <| .plain 'f' (by decide) <|
    .reference (ascii "233") 'é' (by decide) (.inl ⟨by decide, forall_of_all (by decide), by decide⟩) <|
    .entity (ascii "amp") '&' (by decide) <| .reference (ascii "x4e") 'N' (by decide) hhex .nil
  have hstrict : ∀ body ∈ references (ascii "&#x4e;"), Strict body := by decide +kernel
  have hgrammar : XmlText (ascii "&#x4e;") (ascii "N") :=
    .reference (ascii "x4e") 'N' (by decide) hhex .nil
  exact ⟨xml_text_decoded.1 _ _ hescaped,
    (xml_text_decoded.2 _ hstrict _).mpr ⟨hgrammar, by decide +kernel⟩⟩

/-- NUL cannot be written as a reference, and hexadecimal digits may be marked by either
letter. -/
theorem nul_reference_refused :
    ValidUtf8 [0] ∧ decodeXmlText (ascii "&#0;") = fail .invalidEncoding ∧
      decodeXmlText (ascii "&#X41;") = .ok (ascii "A") := by
  decide +kernel

end Syscape.Wifi
