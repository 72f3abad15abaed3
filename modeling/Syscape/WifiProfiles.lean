import Syscape.MacAddress

/-!
# Names in hexadecimal

Two kinds of saved networks give a name by its bytes in hexadecimal digits: the files of
iwd when a name cannot be that of a file, and the profiles of Windows in an element beside
the plain name. The helper that reads the numbers skips blanks in a pair of digits, so what
is accepted is described for texts without blanks.
-/
namespace Syscape.Wifi
open Checked Text FromChars Utf8 Numerals Hex
open Syscape.Printer (isBlank)

section Decoders

/-- The byte that a round of the loops below adds. -/
def hexPair (pair : List UInt8) : Result UInt8 :=
  match parseInt 255 pair 16 with
  | none => fail .malformedData
  | some value => .ok (UInt8.ofNat value)

/-- The loop over the pairs in `decode_iwd_ssid` and in `parse_profile_xml`. -/
def decodeHexPairs : List UInt8 → Result (List UInt8)
  | [] => .ok []
  | [c] => do
    let byte ← hexPair [c]
    .ok [byte]
  | high :: low :: hex => do
    let byte ← hexPair [high, low]
    let decoded ← decodeHexPairs hex
    .ok (byte :: decoded)

/-- What both do with a text of digits. -/
def decodeHex (hex : List UInt8) : Result (List UInt8) :=
  if hex = [] ∨ hex.length % 2 ≠ 0 then fail .malformedData
  else do
    let decoded ← decodeHexPairs hex
    validText decoded

/-- `decode_iwd_ssid`. -/
def decodeIwdSsid (encoded : List UInt8) : Result (List UInt8) :=
  if encoded.head? = some 0x3D then decodeHex (encoded.drop 1) else validText encoded

end Decoders

section Profiles

/-- `security_type`. -/
inductive SecurityType where
  | unknown
  | openNetwork
  | wep
  | wpaPersonal
  | wpaEnterprise
  | wpa2Personal
  | wpa2Enterprise
  | wpa3Personal
  | wpa3Enterprise
  | wpa3Owe
  deriving DecidableEq, Repr

/-- `configured_network`. -/
structure ConfiguredNetwork where
  ssid : List UInt8
  adapterId : Option (List UInt8) := none
  security : SecurityType := .unknown
  autoConnect : Option Bool := none
  isHidden : Option Bool := none
  deriving DecidableEq, Repr

def openTag (tag : List UInt8) : List UInt8 := 0x3C :: (tag ++ [0x3E])

def closeTag (tag : List UInt8) : List UInt8 := 0x3C :: 0x2F :: (tag ++ [0x3E])

/-- `xml_element`. -/
def xmlElement (xml tag : List UInt8) : Option (List UInt8) := do
  let start ← findText (openTag tag) xml
  let content := xml.drop (start + (openTag tag).length)
  let stop ← findText (closeTag tag) content
  some (content.take stop)

/-- The types of the names that `parse_profile_xml` knows. -/
def authenticationTypes : List (List UInt8 × SecurityType) :=
  [(ascii "open", .openNetwork), (ascii "shared", .wep), (ascii "WPA", .wpaEnterprise),
    (ascii "WPAPSK", .wpaPersonal), (ascii "WPA2", .wpa2Enterprise),
    (ascii "WPA2PSK", .wpa2Personal), (ascii "WPA3SAE", .wpa3Personal),
    (ascii "WPA3", .wpa3Enterprise), (ascii "WPA3ENT", .wpa3Enterprise),
    (ascii "WPA3ENT192", .wpa3Enterprise), (ascii "OWE", .wpa3Owe)]

/-- The name in the part of `parse_profile_xml` that has been found to hold it. -/
def profileSsid (ssidElement : List UInt8) : Result (List UInt8) :=
  match xmlElement ssidElement (ascii "hex") with
  | some hexSsid => decodeHex (trimWhitespace hexSsid)
  | none =>
    match xmlElement ssidElement (ascii "name") with
    | none => fail .malformedData
    | some name => decodeXmlText name

/-- The element that names the authentication, if the profile has it. -/
def profileAuthentication (xml : List UInt8) : Option (List UInt8) := do
  let msm ← xmlElement xml (ascii "MSM")
  let security ← xmlElement msm (ascii "security")
  let authEncryption ← xmlElement security (ascii "authEncryption")
  xmlElement authEncryption (ascii "authentication")

/-- `parse_profile_xml`, which returns true whenever it returns; beside its result the
profile that it leaves. -/
def parseProfileXml (xml : List UInt8) (profile : ConfiguredNetwork) :
    Result Bool × ConfiguredNetwork :=
  match xmlElement xml (ascii "SSIDConfig") with
  | none => (fail .malformedData, profile)
  | some ssidConfig =>
    match xmlElement ssidConfig (ascii "SSID") with
    | none => (fail .malformedData, profile)
    | some ssidElement =>
      match profileSsid ssidElement with
      | .error e => (.error e, profile)
      | .ok ssid =>
        let known := (profileAuthentication xml).bind fun authentication =>
          authenticationTypes.lookup (trimWhitespace authentication)
        let connectionMode := xmlElement xml (ascii "connectionMode")
        let nonBroadcast := xmlElement ssidConfig (ascii "nonBroadcast")
        (.ok true, {
          profile with
          ssid := ssid
          security := known.getD profile.security
          autoConnect := some (connectionMode.all fun mode => trimWhitespace mode = ascii "auto")
          isHidden := some (nonBroadcast.any fun hidden => trimWhitespace hidden = ascii "true") })

end Profiles

section Pairs

variable {high low : UInt8}

theorem hexPair_eq_ok_iff {pair : List UInt8} {b : UInt8} :
    hexPair pair = .ok b ↔ ∃ n, parseInt 255 pair 16 = some n ∧ UInt8.ofNat n = b := by
  rw [hexPair]
  cases parseInt 255 pair 16 <;> simp

theorem numeral_pair {n : ℕ} : Numeral 16 n [high, low] ↔
    digit high < 16 ∧ digit low < 16 ∧ n = digit high * 16 + digit low := by
  have hvalue : Digits.value 16 0 ([high, low].map digit) = digit high * 16 + digit low := by
    simp
  constructor
  · intro h
    exact ⟨h.digits high (by simp), h.digits low (by simp), h.value_eq.symm.trans hvalue⟩
  · rintro ⟨hhigh, hlow, rfl⟩
    exact ⟨by simp, by simp [hhigh, hlow], hvalue⟩

/-- The pairs that the helper takes for the mark of a hexadecimal number leave nothing to
read. -/
theorem parseInt_pair {n : ℕ} (hhigh : isBlank high = false) (hlow : isBlank low = false) :
    parseInt 255 [high, low] 16 = some n ↔
      digit high < 16 ∧ digit low < 16 ∧ n = digit high * 16 + digit low := by
  by_cases hmark : ascii "0x" <+: [high, low] ∨ ascii "0X" <+: [high, low]
  · have hnone : parseInt 255 [high, low] 16 = none ∧ ¬ digit low < 16 := by
      rcases hmark with h | h
      · rw [← h.eq_of_length rfl]
        cases h.eq_of_length rfl
        decide
      · cases h.eq_of_length rfl
        decide
    rw [hnone.1]
    simp [hnone.2]
  · rw [not_or] at hmark
    rw [parseInt_eq_some (by simp [hhigh, hlow]) fun _ => hmark, numeral_pair]
    constructor
    · exact fun h => h.1
    · intro h
      exact ⟨h, by omega⟩

/-- A pair of digits is read as the byte that it spells. -/
theorem hexPair_eq_ok {b : UInt8} (hhigh : isBlank high = false) (hlow : isBlank low = false) :
    hexPair [high, low] = .ok b ↔ Spells [b] [high, low] := by
  rw [hexPair_eq_ok_iff]
  simp only [parseInt_pair hhigh hlow]
  constructor
  · rintro ⟨_, ⟨_, _, rfl⟩, rfl⟩
    refine .cons _ _ _ ?_ ?_ .nil
    · rw [UInt8.toNat_ofNat']
      omega
    · rw [UInt8.toNat_ofNat']
      omega
  · intro h
    cases h with
    | cons _ _ _ hhigh hlow _ =>
      have hb := b.toNat_lt
      refine ⟨b.toNat, ⟨by omega, by omega, by omega⟩, UInt8.ofNat_toNat⟩

/-- Nothing but digits and blanks is read. -/
theorem digits_of_hexPair {b : UInt8} (h : hexPair [high, low] = .ok b) :
    ∀ c ∈ [high, low], digit c < 16 ∨ isBlank c = true := by
  obtain ⟨n, hn, _⟩ := hexPair_eq_ok_iff.mp h
  have hcongr {text more : List UInt8} (h : trimWhitespace text = trimWhitespace more) :
      parseInt 255 text 16 = parseInt 255 more 16 := by
    unfold trimWhitespace at h
    rw [parseInt, parseInt, Printer.parseInt, Printer.parseInt, h]
  have hone {c : UInt8} (h : parseInt 255 [c] 16 = some n) : digit c < 16 := by
    by_contra hc
    rw [parseInt_singleton, if_neg hc] at h
    cases h
  rw [List.forall_mem_cons, List.forall_mem_singleton]
  cases hhigh : isBlank high with
  | true =>
    have htrim : trimWhitespace [high, low] = trimWhitespace [low] := by
      rw [trimWhitespace, trimWhitespace, Printer.trimWhitespace, Printer.trimWhitespace,
        List.dropWhile_cons_of_pos hhigh]
    exact ⟨.inr rfl, .inl (hone (hcongr htrim ▸ hn))⟩
  | false =>
    cases hlow : isBlank low with
    | true =>
      have htrim : trimWhitespace ([high] ++ [low]) = trimWhitespace [high] :=
        trim_append_blanks (by simpa using hlow)
      exact ⟨.inl (hone (hcongr htrim ▸ hn)), .inr rfl⟩
    | false =>
      obtain ⟨hdhigh, hdlow, _⟩ := (parseInt_pair hhigh hlow).mp hn
      exact ⟨.inl hdhigh, .inl hdlow⟩

end Pairs

section Texts

variable {text out : List UInt8}

/-- The loop gives the bytes that the text spells. -/
theorem decodeHexPairs_eq_ok (heven : text.length % 2 = 0)
    (hblank : ∀ c ∈ text, isBlank c = false) :
    decodeHexPairs text = .ok out ↔ Spells out text := by
  fun_induction decodeHexPairs text generalizing out with
  | case1 =>
    constructor
    · rintro ⟨⟩
      exact .nil
    · rintro ⟨⟩
      rfl
  | case2 c => simp at heven
  | case3 high low text ih =>
    simp only [List.forall_mem_cons] at hblank
    obtain ⟨hhigh, hlow, hrest⟩ := hblank
    have hih {more : List UInt8} : decodeHexPairs text = .ok more ↔ Spells more text := by
      refine ih ?_ hrest
      simp only [List.length_cons] at heven
      omega
    simp only [bind_eq_ok, hexPair_eq_ok hhigh hlow, hih, Except.ok.injEq]
    constructor
    · rintro ⟨b, hb, more, hmore, rfl⟩
      exact hb.append hmore
    · intro h
      cases h with
      | cons b _ _ hbhigh hblow hmore =>
        exact ⟨b, .cons b _ _ hbhigh hblow .nil, _, hmore, rfl⟩

theorem digits_of_decodeHexPairs (heven : text.length % 2 = 0)
    (h : decodeHexPairs text = .ok out) : ∀ c ∈ text, digit c < 16 ∨ isBlank c = true := by
  fun_induction decodeHexPairs text generalizing out with
  | case1 => simp
  | case2 c => simp at heven
  | case3 high low text ih =>
    obtain ⟨b, hb, h⟩ := bind_eq_ok.mp h
    obtain ⟨more, hmore, _⟩ := bind_eq_ok.mp h
    have hrest : text.length % 2 = 0 := by
      simp only [List.length_cons] at heven
      omega
    have hpair := digits_of_hexPair hb
    rw [List.forall_mem_cons, List.forall_mem_singleton] at hpair
    rw [List.forall_mem_cons, List.forall_mem_cons]
    exact ⟨hpair.1, hpair.2, ih hrest hmore⟩

theorem validText_eq_ok : validText text = .ok out ↔ ValidUtf8 text ∧ text = out := by
  rw [validText, isValidUtf8_eq]
  by_cases h : ValidUtf8 text <;> simp [h]

theorem decodeHex_eq_ok_iff : decodeHex text = .ok out ↔
    text ≠ [] ∧ text.length % 2 = 0 ∧ decodeHexPairs text = .ok out ∧ ValidUtf8 out := by
  rw [decodeHex, guard_eq_ok, not_or, not_not, bind_eq_ok, and_assoc]
  simp only [validText_eq_ok]
  constructor
  · rintro ⟨hne, heven, _, hpairs, hvalid, rfl⟩
    exact ⟨hne, heven, hpairs, hvalid⟩
  · rintro ⟨hne, heven, hpairs, hvalid⟩
    exact ⟨hne, heven, out, hpairs, hvalid, rfl⟩

/-- A text that gives a name: pairs of digits, at least one, for bytes that are valid. -/
structure HexName (text : List UInt8) : Prop where
  ne_nil : text ≠ []
  even : text.length % 2 = 0
  digits : ∀ c ∈ text, digit c < 16
  valid : ∀ bytes, Spells bytes text → ValidUtf8 bytes

theorem unblank_of_spells {bytes : List UInt8} (h : Spells bytes text) :
    ∀ c ∈ text, isBlank c = false :=
  fun c hc => isBlank_of_digit (h.digits c hc)

/-- What is accepted of the texts without blanks, and what is made of it. -/
theorem decodeHex_eq_ok (hblank : ∀ c ∈ text, isBlank c = false) :
    decodeHex text = .ok out ↔ HexName text ∧ Spells out text := by
  rw [decodeHex_eq_ok_iff]
  constructor
  · rintro ⟨hne, heven, hpairs, hvalid⟩
    rw [decodeHexPairs_eq_ok heven hblank] at hpairs
    exact ⟨⟨hne, heven, hpairs.digits, fun bytes hbytes => hbytes.unique hpairs ▸ hvalid⟩, hpairs⟩
  · rintro ⟨hname, hspells⟩
    exact ⟨hname.ne_nil, hname.even, (decodeHexPairs_eq_ok hname.even hblank).mpr hspells,
      hname.valid out hspells⟩

theorem exists_decodeHex_iff (hblank : ∀ c ∈ text, isBlank c = false) :
    (∃ out, decodeHex text = .ok out) ↔ HexName text := by
  constructor
  · rintro ⟨out, h⟩
    exact ((decodeHex_eq_ok hblank).mp h).1
  · intro h
    obtain ⟨out, hout⟩ := exists_spells_iff.mpr ⟨h.even, h.digits⟩
    exact ⟨out, (decodeHex_eq_ok hblank).mpr ⟨h, hout⟩⟩

/-- The bytes of a name are read back from their digits. -/
theorem decodeHex_spells (h : Spells out text) (hne : out ≠ []) (hvalid : ValidUtf8 out) :
    decodeHex text = .ok out := by
  rw [decodeHex_eq_ok (unblank_of_spells h)]
  refine ⟨⟨?_, ?_, h.digits, fun bytes hbytes => hbytes.unique h ▸ hvalid⟩, h⟩
  · rintro rfl
    cases h
    exact hne rfl
  · rw [h.length_eq, Nat.mul_mod_right]

end Texts

section Windows

variable {xml content : List UInt8}

/-- The content of the element that gives the name in hexadecimal. -/
def hexElement (xml : List UInt8) : Option (List UInt8) := do
  let ssidConfig ← xmlElement xml (ascii "SSIDConfig")
  let ssidElement ← xmlElement ssidConfig (ascii "SSID")
  xmlElement ssidElement (ascii "hex")

/-- An element reaches from the first mark of its beginning to the next one of its end. -/
theorem xmlElement_eq_some_iff {tag : List UInt8} : xmlElement xml tag = some content ↔
    ∃ front back, xml = front ++ openTag tag ++ (content ++ closeTag tag ++ back) ∧
      (∀ j < front.length, ¬ openTag tag <+: xml.drop j) ∧
      ∀ j < content.length, ¬ closeTag tag <+: (content ++ closeTag tag ++ back).drop j := by
  have hopen : openTag tag ≠ [] := List.cons_ne_nil _ _
  have hclose : closeTag tag ≠ [] := List.cons_ne_nil _ _
  rw [xmlElement]
  simp only [Option.bind_eq_bind, Option.bind_eq_some_iff, findText_eq_some_iff_split hopen,
    findText_eq_some_iff_split hclose, Option.some_inj]
  constructor
  · rintro ⟨_, ⟨front, rest, rfl, rfl, hfront⟩, _, ⟨inside, back, hrest, rfl, hcontent⟩, htake⟩
    rw [← List.length_append, List.drop_left] at hrest hcontent htake
    subst hrest
    rw [List.append_assoc, List.take_left] at htake
    subst htake
    exact ⟨front, back, rfl, hfront, hcontent⟩
  · rintro ⟨front, back, rfl, hfront, hcontent⟩
    refine ⟨_, ⟨front, _, rfl, rfl, hfront⟩, content.length, ⟨content, back, ?_, rfl, ?_⟩, ?_⟩
    all_goals rw [← List.length_append, List.drop_left]
    · exact hcontent
    · rw [List.append_assoc, List.take_left]

/-- The profile takes its name from that element, and fails only where the decoder does. -/
theorem parseProfileXml_hex {profile : ConfiguredNetwork} (h : hexElement xml = some content) :
    (parseProfileXml xml profile).1 = (decodeHex (trimWhitespace content)).map (fun _ => true) ∧
      ∀ out, decodeHex (trimWhitespace content) = .ok out →
        (parseProfileXml xml profile).2.ssid = out := by
  obtain ⟨ssidConfig, hconfig, h⟩ := Option.bind_eq_some_iff.mp h
  obtain ⟨ssidElement, helement, h⟩ := Option.bind_eq_some_iff.mp h
  have hssid : profileSsid ssidElement = decodeHex (trimWhitespace content) := by
    rw [profileSsid, h]
  unfold parseProfileXml
  simp only [hconfig, helement, hssid]
  cases decodeHex (trimWhitespace content) with
  | error e => exact ⟨rfl, by simp⟩
  | ok ssid => exact ⟨rfl, by simp⟩

/-- A profile that is refused is left alone. -/
theorem parseProfileXml_error {profile : ConfiguredNetwork} {e : Fault ErrorCode}
    (h : (parseProfileXml xml profile).1 = .error e) : (parseProfileXml xml profile).2 = profile := by
  unfold parseProfileXml at h ⊢
  split
  · rfl
  · split
    · rfl
    · split
      · rfl
      · simp_all

theorem exists_parseProfileXml_iff {profile : ConfiguredNetwork} (h : hexElement xml = some content) :
    (parseProfileXml xml profile).1 = .ok true ↔
      ∃ out, decodeHex (trimWhitespace content) = .ok out := by
  rw [(parseProfileXml_hex h).1, map_eq_ok]
  simp

end Windows

/-- A name of valid UTF-8 is read back from both forms, and nothing stands for the empty
name. A text without blanks is accepted in both if and only if it is the digits of a name,
and no other byte than a digit or a blank is ever accepted. -/
theorem decode_hex_ssid :
    (∀ bytes hex, bytes ≠ [] → ValidUtf8 bytes → Spells bytes hex →
      decodeIwdSsid (0x3D :: hex) = .ok bytes ∧
      ∀ xml content profile, hexElement xml = some content → trimWhitespace content = hex →
        (parseProfileXml xml profile).1 = .ok true ∧ (parseProfileXml xml profile).2.ssid = bytes) ∧
    (decodeIwdSsid [0x3D] = fail .malformedData ∧
      ∀ xml content profile, hexElement xml = some content → trimWhitespace content = [] →
        parseProfileXml xml profile = (fail .malformedData, profile)) ∧
    (∀ hex, (∀ c ∈ hex, isBlank c = false) →
      ((∃ out, decodeIwdSsid (0x3D :: hex) = .ok out) ↔ HexName hex) ∧
      ∀ xml content profile, hexElement xml = some content → trimWhitespace content = hex →
        ((parseProfileXml xml profile).1 = .ok true ↔ HexName hex)) ∧
    ∀ hex c, c ∈ hex → ¬ digit c < 16 → isBlank c = false →
      (∀ out, decodeIwdSsid (0x3D :: hex) ≠ .ok out) ∧
      ∀ xml content profile, hexElement xml = some content → trimWhitespace content = hex →
        (parseProfileXml xml profile).1 ≠ .ok true := by
  have hiwd (hex : List UInt8) : decodeIwdSsid (0x3D :: hex) = decodeHex hex := rfl
  refine ⟨?_, ⟨rfl, ?_⟩, ?_, ?_⟩
  · intro bytes hex hne hvalid hspells
    have hread := decodeHex_spells hspells hne hvalid
    refine ⟨hread, ?_⟩
    intro xml content profile hcontent htrim
    rw [exists_parseProfileXml_iff hcontent, htrim]
    exact ⟨⟨bytes, hread⟩, (parseProfileXml_hex hcontent).2 bytes (htrim ▸ hread)⟩
  · intro xml content profile hcontent htrim
    have herror : (parseProfileXml xml profile).1 = fail .malformedData := by
      rw [(parseProfileXml_hex hcontent).1, htrim]
      rfl
    exact Prod.ext herror (parseProfileXml_error herror)
  · intro hex hblank
    refine ⟨exists_decodeHex_iff hblank, ?_⟩
    intro xml content profile hcontent htrim
    rw [exists_parseProfileXml_iff hcontent, htrim, exists_decodeHex_iff hblank]
  · intro hex c hc hdigit hblank
    have hnone (out : List UInt8) : decodeHex hex ≠ .ok out := by
      intro h
      obtain ⟨_, heven, hpairs, _⟩ := decodeHex_eq_ok_iff.mp h
      exact (digits_of_decodeHexPairs heven hpairs c hc).elim hdigit (by simp [hblank])
    refine ⟨hnone, ?_⟩
    intro xml content profile hcontent htrim h
    obtain ⟨out, hout⟩ := (exists_parseProfileXml_iff hcontent).mp h
    exact hnone out (htrim ▸ hout)

/-- A profile with the name of a network in hexadecimal. -/
def cafeProfile : List UInt8 :=
  ascii "<SSIDConfig><SSID><hex> 436166C3A9 </hex><name>Cafe</name></SSID></SSIDConfig>"

/-- A profile of which nothing has been read. -/
def emptyProfile : ConfiguredNetwork where
  ssid := []

/-- The same name from a file name of iwd, and from the profile. -/
theorem decode_hex_ssid_cafe : decodeIwdSsid (ascii "=436166c3a9") = .ok [0x43, 0x61, 0x66, 0xC3, 0xA9] ∧
    ((parseProfileXml cafeProfile emptyProfile).1 = .ok true ∧
      (parseProfileXml cafeProfile emptyProfile).2.ssid = [0x43, 0x61, 0x66, 0xC3, 0xA9]) := by
  have hvalid : ValidUtf8 [0x43, 0x61, 0x66, 0xC3, 0xA9] := by decide +kernel
  have hlower : Spells [0x43, 0x61, 0x66, 0xC3, 0xA9] (ascii "436166c3a9") :=
    .cons _ _ _ rfl rfl <| .cons _ _ _ rfl rfl <| .cons _ _ _ rfl rfl <| .cons _ _ _ rfl rfl <|
      .cons _ _ _ rfl rfl .nil
  have hupper : Spells [0x43, 0x61, 0x66, 0xC3, 0xA9] (ascii "436166C3A9") :=
    .cons _ _ _ rfl rfl <| .cons _ _ _ rfl rfl <| .cons _ _ _ rfl rfl <| .cons _ _ _ rfl rfl <|
      .cons _ _ _ rfl rfl .nil
  have helement : hexElement cafeProfile = some (ascii " 436166C3A9 ") := by decide +kernel
  exact ⟨(decode_hex_ssid.1 _ _ (by decide) hvalid hlower).1,
    (decode_hex_ssid.1 _ _ (by decide) hvalid hupper).2 _ _ _ helement (by decide)⟩

/-- The empty name is valid, its digits are a text of even length, and are refused. -/
theorem empty_hex_ssid_refused : ValidUtf8 [] ∧ Spells [] [] ∧
    decodeIwdSsid [0x3D] = fail .malformedData :=
  ⟨validUtf8_nil, .nil, rfl⟩

end Syscape.Wifi
