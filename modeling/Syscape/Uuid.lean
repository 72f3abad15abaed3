import Syscape.Error
import Syscape.Lib.Endian
import Syscape.Lib.Hex

/-!
# Hardware identifiers

The identifier of a machine has 16 bytes and is shown as hexadecimal digits in five groups
with hyphens between them. The boundary of the library takes such a text in any letter case
and hands it on in lower case, unless it stands for one of the two values that record no
identifier.
-/
namespace Syscape.Hardware
open Checked FromChars Numerals Hex

section Source

/-- `uuid_octets`. -/
abbrev UuidOctets := Vector UInt8 16

/-- `uuid_records_no_identifier`. -/
def uuidRecordsNoIdentifier (uuid : UuidOctets) : Bool :=
  let sawNonzero := uuid.toList.any (· != 0x00)
  let sawNotFf := uuid.toList.any (· != 0xFF)
  !sawNonzero || !sawNotFf

/-- `render_canonical_uuid`. -/
def renderCanonicalUuid (timeLow timeMid timeHiAndVersion : ℕ) (remaining : List UInt8) :
    List UInt8 :=
  fixed timeLow 8 ++ [0x2D] ++ fixed timeMid 4 ++ [0x2D] ++ fixed timeHiAndVersion 4 ++ [0x2D] ++
    (remaining.take 2).flatMap (fun b => fixed b.toNat 2) ++ [0x2D] ++
    (remaining.drop 2).flatMap fun b => fixed b.toNat 2

/-- The rendering of the octets in `interpret_uuid`: the first three fields are stored with
the lowest byte first, or with the highest. -/
def renderUuid (littleEndianFields : Bool) (uuid : UuidOctets) : List UInt8 :=
  let bytes (i : Fin 16) : ℕ := uuid[i].toNat
  let timeLow :=
    if littleEndianFields then bytes 0 ||| bytes 1 <<< 8 ||| bytes 2 <<< 16 ||| bytes 3 <<< 24
    else bytes 0 <<< 24 ||| bytes 1 <<< 16 ||| bytes 2 <<< 8 ||| bytes 3
  let timeMid :=
    if littleEndianFields then bytes 4 ||| bytes 5 <<< 8 else bytes 4 <<< 8 ||| bytes 5
  let timeHiAndVersion :=
    if littleEndianFields then bytes 6 ||| bytes 7 <<< 8 else bytes 6 <<< 8 ||| bytes 7
  renderCanonicalUuid timeLow timeMid timeHiAndVersion (uuid.toList.drop 8)

/-- `interpret_uuid`, for the octets of a table of some version, if there are any. -/
def interpretUuid (uuid : Option UuidOctets) (majorVersion minorVersion : UInt8) :
    Result (List UInt8) :=
  match uuid with
  | none => fail .notFound
  | some uuid =>
    if uuidRecordsNoIdentifier uuid then fail .notFound
    else
      .ok (renderUuid (majorVersion > 2 ∨ majorVersion = 2 ∧ minorVersion ≥ 6) uuid)

/-- `hex_digit_value`; there is none where the source has minus one. -/
def hexDigitValue (letter : UInt8) : Option ℕ :=
  if 0x30 ≤ letter ∧ letter ≤ 0x39 then some (letter.toNat - 0x30)
  else if 0x61 ≤ letter ∧ letter ≤ 0x66 then some (letter.toNat - 0x61 + 10)
  else if 0x41 ≤ letter ∧ letter ≤ 0x46 then some (letter.toNat - 0x41 + 10)
  else none

def hyphenPositions : List ℕ := [8, 13, 18, 23]

/-- The variables of `validate_uuid_text`. -/
structure UuidState where
  allZero : Bool := true
  allFf : Bool := true
  canonical : List UInt8 := []
  deriving DecidableEq, Repr

/-- The body of the loop in `validate_uuid_text`. -/
def uuidLetter (st : UuidState) (letter : UInt8 × ℕ) : Result UuidState :=
  let (letter, position) := letter
  if position ∈ hyphenPositions then
    if letter ≠ 0x2D then fail .malformedData
    else .ok { st with canonical := st.canonical ++ [0x2D] }
  else
    match hexDigitValue letter with
    | none => fail .malformedData
    | some digit => .ok {
        allZero := st.allZero && digit == 0
        allFf := st.allFf && digit == 0xF
        canonical := st.canonical ++
          [if digit < 10 then UInt8.ofNat (0x30 + digit) else UInt8.ofNat (0x61 + digit - 10)] }

/-- `validate_uuid_text`. -/
def validateUuidText (value : Result (List UInt8)) : Result (List UInt8) := do
  let value ← value
  if value.length ≠ 36 then fail .malformedData
  else do
    let st ← value.zipIdx.foldlM uuidLetter {}
    if st.allZero ∨ st.allFf then fail .notFound else .ok st.canonical

end Source

section Shape

/-- What may stand at a position: hyphens at their places, and digits everywhere else. -/
def Fits (letter : UInt8) (position : ℕ) : Prop :=
  if position ∈ hyphenPositions then letter = 0x2D else digit letter < 16

instance (letter : UInt8) (position : ℕ) : Decidable (Fits letter position) := by
  unfold Fits
  infer_instance

/-- The digits without the hyphens. -/
def uuidDigits (text : List UInt8) : List UInt8 := text.filter (· ≠ 0x2D)

/-- The number that the text denotes. -/
def uuidValue (text : List UInt8) : ℕ := number (uuidDigits text)

/-- A text of the shape of an identifier, with other values than the two that stand for
none. -/
structure UuidText (text : List UInt8) : Prop where
  length_eq : text.length = 36
  fits : ∀ p ∈ text.zipIdx, Fits p.1 p.2
  not_zero : ∃ c ∈ uuidDigits text, digit c ≠ 0
  not_ff : ∃ c ∈ uuidDigits text, digit c ≠ 15

end Shape

section Letters

theorem hexDigitValue_eq (letter : UInt8) :
    hexDigitValue letter = if digit letter < 16 then some (digit letter) else none :=
  forall_byte (p := fun c => hexDigitValue c = if digit c < 16 then some (digit c) else none)
    (by decide +kernel) letter

/-- A digit is written again in lower case. -/
theorem rendered_digit {letter : UInt8} (h : digit letter < 16) :
    (if digit letter < 10 then UInt8.ofNat (0x30 + digit letter)
      else UInt8.ofNat (0x61 + digit letter - 10)) = lower letter :=
  forall_byte (p := fun c => digit c < 16 →
      (if digit c < 10 then UInt8.ofNat (0x30 + digit c) else UInt8.ofNat (0x61 + digit c - 10)) =
        lower c)
    (by decide +kernel) letter h

theorem ne_hyphen {letter : UInt8} (h : digit letter < 16) : letter ≠ 0x2D := by
  rintro rfl
  exact absurd h (by decide)

@[simp] theorem lower_hyphen : lower 0x2D = 0x2D := by decide

/-- Folding the case moves no letter to or from a place where it fits. -/
theorem fits_lower {letter : UInt8} {position : ℕ} :
    Fits (lower letter) position ↔ Fits letter position := by
  unfold Fits
  split
  · exact lower_eq_iff (by decide)
  · rw [digit_lower]

/-- What the loop has computed from the letters so far. -/
def stateOf (done : List UInt8) : UuidState where
  allZero := done.all fun c => c == 0x2D || digit c == 0
  allFf := done.all fun c => c == 0x2D || digit c == 15
  canonical := done.map lower

theorem uuidLetter_eq (done : List UInt8) (letter : UInt8 × ℕ) :
    uuidLetter (stateOf done) letter =
      if Fits letter.1 letter.2 then .ok (stateOf (done ++ [letter.1]))
      else .error (.fail (.syscape .malformedData)) := by
  obtain ⟨c, position⟩ := letter
  by_cases hposition : position ∈ hyphenPositions
  · by_cases hc : c = 0x2D
    · subst c
      simp [uuidLetter, Fits, hposition, stateOf]
    · simp [uuidLetter, Fits, hposition, hc, fail]
  · by_cases hc : digit c < 16
    · have hne : (c == 0x2D) = false := beq_eq_false_iff_ne.mpr (ne_hyphen hc)
      simp only [uuidLetter, Fits, hposition, hexDigitValue_eq, if_pos hc, if_false, stateOf,
        rendered_digit hc]
      simp [hne]
    · simp [uuidLetter, Fits, hposition, hexDigitValue_eq, hc, fail]

end Letters

section Accepted

variable {text : List UInt8}

theorem allDigits_iff {v : ℕ} :
    text.all (fun c => c == 0x2D || digit c == v) = true ↔ ¬ ∃ c ∈ uuidDigits text, digit c ≠ v := by
  rw [List.all_eq_true]
  constructor
  · rintro hall ⟨c, hc, hne⟩
    obtain ⟨hmem, hhyphen⟩ := List.mem_filter.mp hc
    have hone := hall c hmem
    simp only [Bool.or_eq_true, beq_iff_eq] at hone
    exact hone.elim (by simpa using hhyphen) hne
  · intro hnone c hc
    by_cases hhyphen : c = 0x2D
    · simp [hhyphen]
    · by_contra hne
      refine hnone ⟨c, List.mem_filter.mpr ⟨hc, by simpa using hhyphen⟩, ?_⟩
      simpa [hhyphen] using hne

/-- The texts that are accepted, and what is made of them. -/
theorem validateUuidText_eq_ok {out : List UInt8} :
    validateUuidText (.ok text) = .ok out ↔ UuidText text ∧ text.map lower = out := by
  have hloop := foldlM_guard uuidLetter_eq text.zipIdx []
  rw [show stateOf [] = {} from rfl, List.nil_append, List.zipIdx_map_fst] at hloop
  rw [validateUuidText, ok_bind, guard_eq_ok, hloop]
  by_cases hfits : ∀ p ∈ text.zipIdx, Fits p.1 p.2
  · rw [if_pos hfits, ok_bind, guard_eq_ok]
    have hstate : ¬ ((stateOf text).allZero = true ∨ (stateOf text).allFf = true) ↔
        (∃ c ∈ uuidDigits text, digit c ≠ 0) ∧ ∃ c ∈ uuidDigits text, digit c ≠ 15 := by
      rw [stateOf, allDigits_iff, allDigits_iff, not_or, not_not, not_not]
    rw [hstate, not_not, Except.ok.injEq]
    constructor
    · rintro ⟨hlength, ⟨hzero, hff⟩, hout⟩
      exact ⟨⟨hlength, hfits, hzero, hff⟩, hout⟩
    · rintro ⟨hshape, hout⟩
      exact ⟨hshape.length_eq, ⟨hshape.not_zero, hshape.not_ff⟩, hout⟩
  · rw [if_neg hfits, error_bind]
    constructor
    · rintro ⟨_, h⟩
      cases h
    · rintro ⟨hshape, _⟩
      exact absurd hshape.fits hfits

theorem uuidDigits_map_lower (text : List UInt8) :
    uuidDigits (text.map lower) = (uuidDigits text).map lower := by
  rw [uuidDigits, uuidDigits, List.filter_map]
  congr 1
  apply List.filter_congr
  intro c _
  simp [lower_eq_iff (show digit 0x2D = 36 by decide)]

theorem uuidValue_map_lower (text : List UInt8) : uuidValue (text.map lower) = uuidValue text := by
  rw [uuidValue, uuidDigits_map_lower, number_map_lower, uuidValue]

/-- The shape does not depend on the case. -/
theorem uuidText_map_lower : UuidText (text.map lower) ↔ UuidText text := by
  have hfits : (∀ p ∈ (text.map lower).zipIdx, Fits p.1 p.2) ↔ ∀ p ∈ text.zipIdx, Fits p.1 p.2 := by
    rw [List.zipIdx_map, List.forall_mem_map]
    exact forall₂_congr fun p _ => fits_lower
  have hdigits (v : ℕ) :
      (∃ c ∈ uuidDigits (text.map lower), digit c ≠ v) ↔ ∃ c ∈ uuidDigits text, digit c ≠ v := by
    rw [uuidDigits_map_lower]
    simp
  constructor
  · intro h
    exact ⟨by simpa using h.length_eq, hfits.mp h.fits, (hdigits 0).mp h.not_zero,
      (hdigits 15).mp h.not_ff⟩
  · intro h
    exact ⟨by simpa using h.length_eq, hfits.mpr h.fits, (hdigits 0).mpr h.not_zero,
      (hdigits 15).mpr h.not_ff⟩

/-- A text is put together again from its digits. -/
theorem eq_of_digits_eq {more : List UInt8} {k : ℕ} (hlength : text.length = more.length)
    (htext : ∀ p ∈ text.zipIdx k, Fits p.1 p.2) (hmore : ∀ p ∈ more.zipIdx k, Fits p.1 p.2)
    (h : uuidDigits text = uuidDigits more) : text = more := by
  induction text generalizing more k with
  | nil => exact (List.length_eq_zero_iff.mp hlength.symm).symm
  | cons c text ih =>
    cases more with
    | nil => simp at hlength
    | cons d more =>
      rw [List.zipIdx_cons, List.forall_mem_cons] at htext hmore
      rw [List.length_cons, List.length_cons, Nat.add_right_cancel_iff] at hlength
      obtain ⟨hc, htext⟩ := htext
      obtain ⟨hd, hmore⟩ := hmore
      by_cases hk : k ∈ hyphenPositions
      · simp only [Fits, hk, if_true] at hc hd
        subst c d
        rw [ih hlength htext hmore (by simpa [uuidDigits] using h)]
      · simp only [Fits, hk, if_false] at hc hd
        have hcons : c = d ∧ uuidDigits text = uuidDigits more := by
          simpa [uuidDigits, ne_hyphen hc, ne_hyphen hd] using h
        rw [hcons.1, ih hlength htext hmore hcons.2]

/-- A digit stands at each place that is not one of a hyphen. -/
theorem length_uuidDigits {k : ℕ} (h : ∀ p ∈ text.zipIdx k, Fits p.1 p.2) :
    (uuidDigits text).length =
      ((List.range' k text.length).filter (· ∉ hyphenPositions)).length := by
  induction text generalizing k with
  | nil => rfl
  | cons c text ih =>
    rw [List.zipIdx_cons, List.forall_mem_cons] at h
    obtain ⟨hc, hrest⟩ := h
    rw [List.length_cons, List.range'_succ]
    by_cases hk : k ∈ hyphenPositions
    · simp only [Fits, hk, if_true] at hc
      rw [List.filter_cons_of_neg (by simpa using hk), ← ih hrest, uuidDigits,
        List.filter_cons_of_neg (by simpa using hc), uuidDigits]
    · simp only [Fits, hk, if_false] at hc
      rw [List.filter_cons_of_pos (by simpa using hk), List.length_cons, ← ih hrest, uuidDigits,
        List.filter_cons_of_pos (by simpa using ne_hyphen hc), List.length_cons, uuidDigits]

theorem UuidText.digits (h : UuidText text) : ∀ c ∈ uuidDigits text, digit c < 16 := by
  intro c hc
  obtain ⟨hmem, hne⟩ := List.mem_filter.mp hc
  obtain ⟨i, hi, rfl⟩ := List.getElem_of_mem hmem
  have hfits := h.fits (text[i], i) (List.mem_zipIdx_iff_getElem?.mpr (by simp [hi]))
  unfold Fits at hfits
  split at hfits
  · exact absurd hfits (by simpa using hne)
  · exact hfits

theorem UuidText.length_digits (h : UuidText text) : (uuidDigits text).length = 32 := by
  rw [length_uuidDigits h.fits, h.length_eq]
  decide

theorem UuidText.value_lt (h : UuidText text) : uuidValue text < 2 ^ 128 := by
  have hdigits : ∀ d ∈ (uuidDigits text).map digit, d < 16 := by simpa using h.digits
  have hlt := Digits.value_lt_pow hdigits
  rw [List.length_map, h.length_digits] at hlt
  exact hlt.trans_eq (by norm_num)

/-- Two texts are the same value if and only if they differ in the case only. -/
theorem UuidText.map_lower_eq_iff {more : List UInt8} (h : UuidText text) (hmore : UuidText more) :
    text.map lower = more.map lower ↔ uuidValue text = uuidValue more := by
  constructor
  · intro heq
    rw [← uuidValue_map_lower text, heq, uuidValue_map_lower]
  · intro heq
    have hdigits : (uuidDigits text).map lower = (uuidDigits more).map lower :=
      map_lower_eq_of_number_eq (h.length_digits.trans hmore.length_digits.symm) h.digits
        hmore.digits heq
    apply eq_of_digits_eq
    · rw [List.length_map, List.length_map, h.length_eq, hmore.length_eq]
    · exact (uuidText_map_lower.mpr h).fits
    · exact (uuidText_map_lower.mpr hmore).fits
    · rw [uuidDigits_map_lower, uuidDigits_map_lower, hdigits]

end Accepted

section Rendered

/-- Every byte as two digits. -/
def spell (bytes : List UInt8) : List UInt8 := bytes.flatMap fun b => fixed b.toNat 2

theorem spells_spell (bytes : List UInt8) : Spells bytes (spell bytes) := by
  induction bytes with
  | nil => exact .nil
  | cons b bytes ih => exact (spells_fixed b).append ih

theorem lower_spell (bytes : List UInt8) : (spell bytes).map lower = spell bytes := by
  have hlower : ∀ c ∈ spell bytes, lower c = id c := by
    intro c hc
    obtain ⟨b, _, hb⟩ := List.mem_flatMap.mp hc
    exact lower_of_mem_fixed hb
  rw [List.map_congr_left hlower, List.map_id]

/-- Some digit is not the one that a byte of two of them repeats, if some byte is not that
byte. -/
theorem exists_digit_ne_iff {bytes text : List UInt8} (h : Spells bytes text) {v : ℕ}
    (hv : v < 16) :
    (∃ c ∈ text, digit c ≠ v) ↔ ∃ b ∈ bytes, b ≠ UInt8.ofNat (17 * v) := by
  induction h with
  | nil => simp
  | cons b high low hhigh hlow _ ih =>
    have hbyte : (17 * v) % 2 ^ 8 = 17 * v := Nat.mod_eq_of_lt (by omega)
    have hpair : (digit high ≠ v ∨ digit low ≠ v) ↔ b ≠ UInt8.ofNat (17 * v) := by
      rw [hhigh, hlow, Ne, Ne, Ne, ← UInt8.toNat_inj, UInt8.toNat_ofNat', hbyte]
      omega
    rw [List.exists_mem_cons_iff, List.exists_mem_cons_iff, List.exists_mem_cons_iff, ih, ← or_assoc,
      hpair]

/-- Five groups of digits with hyphens between them. -/
def grouped (bytes : List UInt8) : List UInt8 :=
  spell (bytes.take 4) ++ [0x2D] ++ spell ((bytes.drop 4).take 2) ++ [0x2D] ++
    spell ((bytes.drop 6).take 2) ++ [0x2D] ++ spell ((bytes.drop 8).take 2) ++ [0x2D] ++
    spell (bytes.drop 10)

/-- The bytes in the order in which they are shown. -/
def presented (littleEndianFields : Bool) (uuid : UuidOctets) : List UInt8 :=
  if littleEndianFields then
    (uuid.toList.take 4).reverse ++ ((uuid.toList.drop 4).take 2).reverse ++
      ((uuid.toList.drop 6).take 2).reverse ++ uuid.toList.drop 8
  else uuid.toList

theorem exists_octets (uuid : UuidOctets) : ∃ u0 u1 u2 u3 u4 u5 u6 u7 u8 u9 u10 u11 u12 u13 u14 u15,
    uuid = #v[u0, u1, u2, u3, u4, u5, u6, u7, u8, u9, u10, u11, u12, u13, u14, u15] := by
  refine ⟨uuid[0], uuid[1], uuid[2], uuid[3], uuid[4], uuid[5], uuid[6], uuid[7], uuid[8], uuid[9],
    uuid[10], uuid[11], uuid[12], uuid[13], uuid[14], uuid[15], ?_⟩
  apply Vector.ext
  intro i hi
  interval_cases i <;> rfl

theorem presented_perm (littleEndianFields : Bool) (uuid : UuidOctets) :
    (presented littleEndianFields uuid).Perm uuid.toList := by
  cases littleEndianFields with
  | false => exact .refl _
  | true =>
    have hsplit : uuid.toList = uuid.toList.take 4 ++ (uuid.toList.drop 4).take 2 ++
        (uuid.toList.drop 6).take 2 ++ uuid.toList.drop 8 := by
      obtain ⟨_, _, _, _, _, _, _, _, _, _, _, _, _, _, _, _, rfl⟩ := exists_octets uuid
      rfl
    rw [hsplit]
    exact (((List.reverse_perm _).append (List.reverse_perm _)).append
      (List.reverse_perm _)).append_right _

theorem fixed_four {low : ℕ} (hlow : low < 16 ^ 2) (high : ℕ) :
    fixed (high * 256 + low) 4 = fixed high 2 ++ fixed low 2 :=
  fixed_append hlow high 2

theorem fixed_eight {b1 b2 b3 : ℕ} (h1 : b1 < 256) (h2 : b2 < 256) (h3 : b3 < 256) (b0 : ℕ) :
    fixed (((b0 * 256 + b1) * 256 + b2) * 256 + b3) 8 =
      fixed b0 2 ++ fixed b1 2 ++ (fixed b2 2 ++ fixed b3 2) := by
  have hlow : b2 * 256 + b3 < 16 ^ 4 := by omega
  have hsplit : ((b0 * 256 + b1) * 256 + b2) * 256 + b3 =
      (b0 * 256 + b1) * 16 ^ 4 + (b2 * 256 + b3) := by
    omega
  rw [hsplit, fixed_append hlow _ 4, fixed_four h1, fixed_four h3]

/-- Both renderings group the bytes as they are presented. -/
theorem renderUuid_eq (littleEndianFields : Bool) (uuid : UuidOctets) :
    renderUuid littleEndianFields uuid = grouped (presented littleEndianFields uuid) := by
  have hlt (b : UInt8) : b.toNat < 2 ^ 8 := b.toNat_lt
  have hword (b0 b1 : UInt8) : b1.toNat ||| b0.toNat <<< 8 = b0.toNat * 256 + b1.toNat := by
    rw [Endian.or_shift (hlt b1)]
    omega
  have hdword (b0 b1 b2 b3 : UInt8) :
      b3.toNat ||| b2.toNat <<< 8 ||| b1.toNat <<< 16 ||| b0.toNat <<< 24 =
        ((b0.toNat * 256 + b1.toNat) * 256 + b2.toNat) * 256 + b3.toNat := by
    rw [Endian.or_shift_four (hlt b3) (hlt b2) (hlt b1)]
    omega
  have hdword' (b0 b1 b2 b3 : UInt8) :
      b0.toNat <<< 24 ||| b1.toNat <<< 16 ||| b2.toNat <<< 8 ||| b3.toNat =
        ((b0.toNat * 256 + b1.toNat) * 256 + b2.toNat) * 256 + b3.toNat := by
    rw [← hdword, Nat.or_comm _ b3.toNat, Nat.or_comm _ (b2.toNat <<< 8), Nat.or_comm (b0.toNat <<< 24),
      ← Nat.or_assoc, ← Nat.or_assoc]
  obtain ⟨u0, u1, u2, u3, u4, u5, u6, u7, _, _, _, _, _, _, _, _, rfl⟩ := exists_octets uuid
  cases littleEndianFields with
  | true =>
    show renderCanonicalUuid
        (u0.toNat ||| u1.toNat <<< 8 ||| u2.toNat <<< 16 ||| u3.toNat <<< 24)
        (u4.toNat ||| u5.toNat <<< 8) (u6.toNat ||| u7.toNat <<< 8) _ = _
    rw [hdword, hword, hword, renderCanonicalUuid, fixed_eight (hlt _) (hlt _) (hlt _),
      fixed_four (hlt _), fixed_four (hlt _)]
    rfl
  | false =>
    show renderCanonicalUuid
        (u0.toNat <<< 24 ||| u1.toNat <<< 16 ||| u2.toNat <<< 8 ||| u3.toNat)
        (u4.toNat <<< 8 ||| u5.toNat) (u6.toNat <<< 8 ||| u7.toNat) _ = _
    rw [hdword', Nat.or_comm, hword, Nat.or_comm, hword, renderCanonicalUuid,
      fixed_eight (hlt _) (hlt _) (hlt _), fixed_four (hlt _), fixed_four (hlt _)]
    rfl

theorem fits_of_digits {digits : List UInt8} {k : ℕ} (h : ∀ c ∈ digits, digit c < 16)
    (hfree : ∀ position ∈ hyphenPositions, position < k ∨ k + digits.length ≤ position) :
    ∀ p ∈ digits.zipIdx k, Fits p.1 p.2 := by
  rintro ⟨c, position⟩ hp
  obtain ⟨hle, hlt, hc⟩ := List.mem_zipIdx hp
  rw [Fits, if_neg]
  · rw [hc]
    exact h _ (List.getElem_mem _)
  · intro hposition
    have := hfree position hposition
    omega

theorem length_spell (bytes : List UInt8) : (spell bytes).length = 2 * bytes.length :=
  (spells_spell bytes).length_eq

variable {bytes : List UInt8}

theorem length_grouped (h : bytes.length = 16) : (grouped bytes).length = 36 := by
  simp [grouped, length_spell, h]

theorem fits_grouped (h : bytes.length = 16) : ∀ p ∈ (grouped bytes).zipIdx, Fits p.1 p.2 := by
  have hdigits (part : List UInt8) := (spells_spell part).digits
  simp only [grouped, List.zipIdx_append, List.forall_mem_append, List.length_append, length_spell,
    List.length_take, List.length_drop, List.length_singleton, h]
  refine ⟨⟨⟨⟨⟨⟨⟨⟨?_, ?_⟩, ?_⟩, ?_⟩, ?_⟩, ?_⟩, ?_⟩, ?_⟩, ?_⟩
  all_goals first
    | decide
    | refine fits_of_digits (hdigits _) ?_
      simp [hyphenPositions, length_spell, h]

theorem uuidDigits_spell (part : List UInt8) : uuidDigits (spell part) = spell part := by
  rw [uuidDigits, List.filter_eq_self]
  intro c hc
  simpa using ne_hyphen ((spells_spell part).digits c hc)

/-- Without the hyphens there are only the bytes. -/
theorem uuidDigits_grouped (bytes : List UInt8) : uuidDigits (grouped bytes) = spell bytes := by
  have happend (a b : List UInt8) : uuidDigits (a ++ b) = uuidDigits a ++ uuidDigits b :=
    List.filter_append a b
  have hspell (a b : List UInt8) : spell a ++ spell b = spell (a ++ b) :=
    List.flatMap_append.symm
  have hhyphen : uuidDigits [0x2D] = [] := rfl
  simp only [grouped, happend, uuidDigits_spell, hhyphen, List.append_nil]
  rw [hspell, ← List.take_add, hspell, ← List.take_add, hspell, ← List.take_add, hspell,
    List.take_append_drop]

theorem lower_grouped (bytes : List UInt8) : (grouped bytes).map lower = grouped bytes := by
  simp only [grouped, List.map_append, lower_spell, List.map_cons, List.map_nil, lower_hyphen]

/-- A machine with an identifier shows one that is accepted. -/
theorem uuidText_grouped (h : bytes.length = 16) (hzero : ∃ b ∈ bytes, b ≠ 0x00)
    (hff : ∃ b ∈ bytes, b ≠ 0xFF) : UuidText (grouped bytes) where
  length_eq := length_grouped h
  fits := fits_grouped h
  not_zero := by
    rw [uuidDigits_grouped, exists_digit_ne_iff (spells_spell bytes) (by decide)]
    exact hzero
  not_ff := by
    rw [uuidDigits_grouped, exists_digit_ne_iff (spells_spell bytes) (by decide)]
    exact hff

theorem uuidRecordsNoIdentifier_eq_false {uuid : UuidOctets} :
    uuidRecordsNoIdentifier uuid = false ↔
      (∃ b ∈ uuid.toList, b ≠ 0x00) ∧ ∃ b ∈ uuid.toList, b ≠ 0xFF := by
  simp only [uuidRecordsNoIdentifier, Bool.or_eq_false_iff, Bool.not_eq_false', List.any_eq_true,
    bne_iff_ne]

/-- The boundary hands on what a table renders as it is. -/
theorem validateUuidText_renderUuid (littleEndianFields : Bool) {uuid : UuidOctets}
    (h : uuidRecordsNoIdentifier uuid = false) :
    validateUuidText (.ok (renderUuid littleEndianFields uuid)) =
      .ok (renderUuid littleEndianFields uuid) := by
  have hperm := presented_perm littleEndianFields uuid
  obtain ⟨⟨b, hb, hzero⟩, ⟨c, hc, hff⟩⟩ := uuidRecordsNoIdentifier_eq_false.mp h
  rw [renderUuid_eq, validateUuidText_eq_ok]
  refine ⟨uuidText_grouped ?_ ⟨b, hperm.mem_iff.mpr hb, hzero⟩ ⟨c, hperm.mem_iff.mpr hc, hff⟩,
    lower_grouped _⟩
  rw [hperm.length_eq, Vector.length_toList]

/-- So it changes nothing about the answer of the backend that reads the table. -/
theorem validateUuidText_interpretUuid (uuid : Option UuidOctets) (majorVersion minorVersion : UInt8) :
    validateUuidText (interpretUuid uuid majorVersion minorVersion) =
      interpretUuid uuid majorVersion minorVersion := by
  cases uuid with
  | none => rfl
  | some uuid =>
    cases h : uuidRecordsNoIdentifier uuid with
    | true => simp [interpretUuid, h, validateUuidText]
    | false =>
      simp only [interpretUuid, h, Bool.false_eq_true, if_false]
      exact validateUuidText_renderUuid _ h

end Rendered

/-- The boundary computes a canonical form: one text for each value, which it leaves alone.
What a table renders for a machine that has an identifier is in this form. -/
theorem validate_uuid_text :
    (∀ text out, validateUuidText (.ok text) = .ok out →
      validateUuidText (.ok out) = .ok out ∧
      (∀ text', text'.map lower = text.map lower → validateUuidText (.ok text') = .ok out) ∧
      ∀ text' out', validateUuidText (.ok text') = .ok out' →
        (out = out' ↔ uuidValue text = uuidValue text')) ∧
    ∀ (littleEndianFields : Bool) (uuid : UuidOctets), uuidRecordsNoIdentifier uuid = false →
      validateUuidText (.ok (renderUuid littleEndianFields uuid)) =
        .ok (renderUuid littleEndianFields uuid) := by
  refine ⟨?_, fun littleEndianFields uuid h => validateUuidText_renderUuid littleEndianFields h⟩
  intro text out h
  obtain ⟨htext, rfl⟩ := validateUuidText_eq_ok.mp h
  refine ⟨?_, ?_, ?_⟩
  · rw [validateUuidText_eq_ok, uuidText_map_lower, List.map_map]
    exact ⟨htext, List.map_congr_left fun c _ => lower_lower c⟩
  · intro text' hcase
    rw [validateUuidText_eq_ok, ← uuidText_map_lower, hcase, uuidText_map_lower]
    exact ⟨htext, rfl⟩
  · intro text' out' h'
    obtain ⟨htext', rfl⟩ := validateUuidText_eq_ok.mp h'
    exact htext.map_lower_eq_iff htext'

theorem validate_uuid_text_of_bytes :
    validateUuidText (.ok (renderUuid true #v[0, 1, 2, 3, 4, 5, 6, 7, 8, 9, 10, 11, 12, 13, 14, 15])) =
      .ok (renderUuid true #v[0, 1, 2, 3, 4, 5, 6, 7, 8, 9, 10, 11, 12, 13, 14, 15]) :=
  validate_uuid_text.2 true _ (by decide)

end Syscape.Hardware
