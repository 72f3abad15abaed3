import Syscape.Display

/-!
# Descriptions of displays as blocks

A description of a display is what a base block can say. The block built from it is read
as the description, but for a product code of zero, a size with a side of zero and the
padding at the ends of a name.
-/
namespace Syscape.Display
open Checked Text Utf8 Endian
open Binary64 (Double)

section Descriptions

/-- Three letters, each by its place in the alphabet. -/
structure Manufacturer where
  first : Fin 26
  second : Fin 26
  third : Fin 26

/-- A detailed timing: the pixel clock in units of 10 kHz, the pixels and lines that are
shown and those that are not, and ten bytes for what is not read. -/
structure DetailedTiming where
  clock : ℕ
  hActive : ℕ
  hBlanking : ℕ
  vActive : ℕ
  vBlanking : ℕ
  rest : List UInt8
  clock_pos : 0 < clock
  clock_lt : clock < 2 ^ 16
  hActive_lt : hActive < 2 ^ 12
  hBlanking_lt : hBlanking < 2 ^ 12
  vActive_lt : vActive < 2 ^ 12
  vBlanking_lt : vBlanking < 2 ^ 12
  length_rest : rest.length = 10

/-- A name of at most thirteen bytes. -/
structure DisplayName where
  text : List UInt8
  length_le : text.length ≤ 13
  valid : ValidUtf8 text

/-- One of the four descriptors; the last kind stands for all that are not read. -/
inductive Descriptor where
  | timing (t : DetailedTiming)
  | name (n : DisplayName)
  | other (tag : UInt8) (body : List UInt8) (tag_ne : tag ≠ 0xFC) (length_body : body.length = 14)

/-- What a base block can say of a display. The bytes of `production` are its serial number,
date and version, and those of `features` its colours and the standard timings. -/
structure Description where
  manufacturer : Manufacturer
  productCode : ℕ
  production : List UInt8
  widthCm : UInt8
  heightCm : UInt8
  features : List UInt8
  descriptors : List Descriptor
  productCode_lt : productCode < 2 ^ 16
  length_production : production.length = 9
  length_features : features.length = 31
  length_descriptors : descriptors.length = 4

end Descriptions

section Encoding

def letter (l : Fin 26) : UInt8 := UInt8.ofNat (0x41 + l)

def Manufacturer.text (m : Manufacturer) : List UInt8 :=
  [letter m.first, letter m.second, letter m.third]

/-- Five bits for each letter, `A` being one. -/
def Manufacturer.code (m : Manufacturer) : ℕ :=
  1024 * (m.first + 1) + 32 * (m.second + 1) + (m.third + 1)

/-- The low eight bits of every number have a byte of their own, and the high four bits of
two numbers share one. -/
def DetailedTiming.bytes (t : DetailedTiming) : List UInt8 :=
  encode .little 2 t.clock ++
    [UInt8.ofNat t.hActive, UInt8.ofNat t.hBlanking,
      UInt8.ofNat (16 * (t.hActive / 256) + t.hBlanking / 256),
      UInt8.ofNat t.vActive, UInt8.ofNat t.vBlanking,
      UInt8.ofNat (16 * (t.vActive / 256) + t.vBlanking / 256)] ++ t.rest

/-- A name that is shorter than its field ends with a line feed, and spaces fill the rest. -/
def DisplayName.field (n : DisplayName) : List UInt8 :=
  n.text ++ (0x0A :: List.replicate 12 0x20).take (13 - n.text.length)

def Descriptor.bytes : Descriptor → List UInt8
  | .timing t => t.bytes
  | .name n => [0, 0, 0, 0xFC, 0] ++ n.field
  | .other tag body _ _ => [0, 0, 0, tag] ++ body

/-- The block without its checksum. -/
def Description.body (d : Description) : List UInt8 :=
  expectedHeader ++ encode .big 2 d.manufacturer.code ++ encode .little 2 d.productCode ++
    d.production ++ [d.widthCm, d.heightCm] ++ d.features ++
    d.descriptors.flatMap Descriptor.bytes ++ [0]

/-- The block of a description, without extensions. -/
def Description.block (d : Description) : List UInt8 := d.body ++ [-d.body.sum]

end Encoding

section Reported

/-- The pixel clock by the number of all pixels, also those that are not shown. -/
def DetailedTiming.refreshRateHz (t : DetailedTiming) : ℚ :=
  t.clock * 10000 / ((t.hActive + t.hBlanking) * (t.vActive + t.vBlanking))

/-- The refresh rate as a double. -/
def DetailedTiming.reportedRateHz (t : DetailedTiming) : Double := .ofRat t.refreshRateHz

/-- A descriptor as a timing with pixels to show. -/
def Descriptor.validTiming : Descriptor → Option DetailedTiming
  | .timing t => if 0 < t.hActive ∧ 0 < t.vActive then some t else none
  | _ => none

/-- A descriptor as a name with something to show, without the padding. -/
def Descriptor.reportedName : Descriptor → Option (List UInt8)
  | .name n => if trimWhitespace n.text = [] then none else some (trimWhitespace n.text)
  | _ => none

/-- The facts with a timing and a name. -/
def EdidFacts.withDescriptors (facts : EdidFacts) (timing : Option DetailedTiming)
    (name : Option (List UInt8)) : EdidFacts :=
  { facts with
    monitorName := name
    preferredWidth := timing.map DetailedTiming.hActive
    preferredHeight := timing.map DetailedTiming.vActive
    preferredRefreshRateHz := timing.map DetailedTiming.reportedRateHz }

/-- What is reported of a description: the first valid timing and the last name count. -/
def Description.facts (d : Description) : EdidFacts :=
  EdidFacts.withDescriptors
    (.identity (some d.manufacturer.text) (if d.productCode = 0 then none else some d.productCode)
      (if 0 < d.widthCm ∧ 0 < d.heightCm then
        some (10 * d.widthCm.toNat, 10 * d.heightCm.toNat) else none))
    (d.descriptors.filterMap Descriptor.validTiming).head?
    (d.descriptors.filterMap Descriptor.reportedName).getLast?

@[simp] theorem EdidFacts.identity_withDescriptors (manufacturer : Option (List UInt8))
    (productCode : Option ℕ) (size : Option (ℕ × ℕ)) :
    (identity manufacturer productCode size).withDescriptors none none =
      identity manufacturer productCode size := rfl

theorem DetailedTiming.refreshRateHz_eq (t : DetailedTiming) : t.refreshRateHz =
    (t.clock * 10000 : ℕ) / ((t.hActive + t.hBlanking) * (t.vActive + t.vBlanking) : ℕ) := by
  rw [refreshRateHz]
  push_cast
  rfl

/-- The source multiplies and divides doubles, and only the quotient is rounded. -/
theorem DetailedTiming.div_eq_reportedRateHz (t : DetailedTiming) (hh : 0 < t.hActive)
    (hv : 0 < t.vActive) :
    ((Double.ofNat t.clock).mul (.ofNat 10000)).div
      ((Double.ofNat (t.hActive + t.hBlanking)).mul (.ofNat (t.vActive + t.vBlanking))) =
      t.reportedRateHz := by
  have hclock := t.clock_lt
  have h1 := t.hActive_lt
  have h2 := t.hBlanking_lt
  have h3 := t.vActive_lt
  have h4 := t.vBlanking_lt
  have hpixels : (t.hActive + t.hBlanking) * (t.vActive + t.vBlanking) ≤ 2 ^ 13 * 2 ^ 13 :=
    Nat.mul_le_mul (by omega) (by omega)
  have hpos : 0 < (t.hActive + t.hBlanking) * (t.vActive + t.vBlanking) :=
    Nat.mul_pos (by omega) (by omega)
  rw [Double.mul_ofNat (by omega) (by omega), Double.mul_ofNat (by omega) (by omega),
    Double.div_ofNat (by omega) (by omega) hpos, reportedRateHz, refreshRateHz_eq]

theorem DetailedTiming.isNearest_reportedRateHz (t : DetailedTiming) (hh : 0 < t.hActive)
    (hv : 0 < t.vActive) : t.reportedRateHz.IsNearest t.refreshRateHz := by
  have hclock := t.clock_lt
  have hpos : 0 < (t.hActive + t.hBlanking) * (t.vActive + t.vBlanking) :=
    Nat.mul_pos (by omega) (by omega)
  rw [reportedRateHz, refreshRateHz_eq]
  apply Double.isNearest_ofRat
  · positivity
  · exact (div_le_self (Nat.cast_nonneg _) (Nat.one_le_cast.mpr hpos)).trans_lt
      (Double.natCast_lt (by omega))

end Reported

section Lengths

@[simp] theorem DisplayName.length_field (n : DisplayName) : n.field.length = 13 := by
  have := n.length_le
  rw [DisplayName.field, List.length_append, List.length_take]
  simp only [List.length_cons, List.length_replicate]
  omega

@[simp] theorem Descriptor.length_bytes (d : Descriptor) : d.bytes.length = 18 := by
  cases d with
  | timing t => simp [Descriptor.bytes, DetailedTiming.bytes, t.length_rest]
  | name n => simp [Descriptor.bytes]
  | other tag body _ hbody => simp [Descriptor.bytes, hbody]

theorem Description.length_body (d : Description) : d.body.length = 127 := by
  simp [Description.body, d.length_production, d.length_features, d.length_descriptors]

@[simp] theorem Description.length_block (d : Description) : d.block.length = 128 := by
  simp [Description.block, d.length_body]

theorem Description.wellFormed_block (d : Description) : WellFormed d.block where
  header := by
    simp only [Description.block, Description.body, List.append_assoc]
    exact List.take_left' length_expectedHeader
  length_eq := by
    have hlast : d.block[126]? = some 0 := by
      rw [Description.block, List.getElem?_append_left (by simp [d.length_body]), Description.body,
        List.getElem?_append_right] <;>
        simp [d.length_production, d.length_features, d.length_descriptors]
    exact ⟨0, hlast, d.length_block⟩
  sum_eq_zero := by
    intro k hk
    have hk : k = 0 := by
      rw [d.length_block] at hk
      unfold edidBlockSize at hk
      omega
    have hblock : Display.block d.block 0 = d.block := by
      rw [Display.block, Nat.zero_mul, List.drop_zero, List.take_of_length_le]
      exact d.length_block.le
    rw [hk, hblock, Description.block, List.sum_append, List.sum_singleton, add_neg_cancel]

end Lengths

section Manufacturer

/-- The letters of a code are its digits to the base 32. -/
theorem Manufacturer.digits (m : Manufacturer) :
    (m.code >>> 10) &&& 0x1F = m.first + 1 ∧ (m.code >>> 5) &&& 0x1F = m.second + 1 ∧
      m.code &&& 0x1F = m.third + 1 := by
  have hmask (n : ℕ) : n &&& 0x1F = n % 32 := Nat.and_two_pow_sub_one_eq_mod n 5
  have h1 := m.first.isLt
  have h2 := m.second.isLt
  have h3 := m.third.isLt
  simp only [hmask, Nat.shiftRight_eq_div_pow, Manufacturer.code]
  omega

theorem readManufacturer_bytes (m : Manufacturer) (rest : List UInt8) :
    readManufacturer (expectedHeader ++ (encode .big 2 m.code ++ rest)) = .ok (some m.text) := by
  have hcode : m.code < 2 ^ 16 := by
    have h1 := m.first.isLt
    unfold Manufacturer.code
    omega
  have hraw : (m.code / 256 % 256) <<< 8 ||| (m.code % 256) = m.code := by
    have hlow : m.code % 256 < 2 ^ 8 := Nat.mod_lt _ (by decide)
    rw [Nat.or_comm, or_shift hlow]
    omega
  obtain ⟨h1, h2, h3⟩ := m.digits
  have hb1 := m.first.isLt
  have hb2 := m.second.isLt
  have hb3 := m.third.isLt
  have hbytes : encode .big 2 m.code = [UInt8.ofNat (m.code / 256), UInt8.ofNat m.code] := rfl
  simp only [readManufacturer, hbytes, expectedHeader, List.cons_append, List.nil_append,
    readByte_cons_succ, readByte_cons_zero, ok_bind, UInt8.toNat_ofNat', hraw, h1, h2, h3]
  rw [if_pos (by omega)]
  simp only [Manufacturer.text, letter]
  have hletter (n : ℕ) : n + 1 + 0x41 - 1 = 0x41 + n := by omega
  simp only [hletter]

end Manufacturer

section Pairs
variable {pre : List UInt8} {n : ℕ}

theorem readByte_pair (hpre : pre.length = n) (b0 b1 : UInt8) (rest : List UInt8) :
    (readByte (pre ++ b0 :: b1 :: rest) n : Result ℕ) = .ok b0.toNat ∧
      (readByte (pre ++ b0 :: b1 :: rest) (n + 1) : Result ℕ) = .ok b1.toNat := by
  subst hpre
  constructor
  · rw [readByte_append_length, readByte_cons_zero]
  · rw [readByte_append_right, readByte_cons_succ, readByte_cons_zero]

theorem low_or_high {n : ℕ} (h : n < 2 ^ 16) :
    (UInt8.ofNat n).toNat ||| ((UInt8.ofNat (n / 256)).toNat <<< 8) = n := by
  rw [or_shift (UInt8.toNat_lt _), UInt8.toNat_ofNat', UInt8.toNat_ofNat']
  omega

theorem readProductCode_bytes (hpre : pre.length = 10) {code : ℕ} (hcode : code < 2 ^ 16)
    (rest : List UInt8) :
    readProductCode (pre ++ (encode .little 2 code ++ rest)) =
      .ok (if code = 0 then none else some code) := by
  have hbytes : encode .little 2 code = [UInt8.ofNat code, UInt8.ofNat (code / 256)] := rfl
  obtain ⟨h10, h11⟩ := readByte_pair hpre (UInt8.ofNat code) (UInt8.ofNat (code / 256)) rest
  rw [readProductCode, hbytes, List.cons_append, List.cons_append, List.nil_append, h10, ok_bind, h11,
    ok_bind]
  dsimp only
  rw [low_or_high hcode]
  by_cases h : code = 0
  · simp [h]
  · simp [h]

theorem readPhysicalSize_bytes (hpre : pre.length = 21) (w h : UInt8) (rest : List UInt8) :
    readPhysicalSize (pre ++ w :: h :: rest) =
      .ok (if 0 < w ∧ 0 < h then some (10 * w.toNat, 10 * h.toNat) else none) := by
  obtain ⟨h21, h22⟩ := readByte_pair hpre w h rest
  rw [readPhysicalSize, h21, ok_bind, h22, ok_bind, Nat.mul_comm, Nat.mul_comm h.toNat]
  rfl

end Pairs

section Descriptors
variable {base : EdidFacts} {timing : Option DetailedTiming} {name : Option (List UInt8)}

/-- The high bits of two numbers in the two halves of a byte. -/
theorem nibbles : ∀ h < 16, ∀ l < 16,
    ((16 * h + l) &&& 0xF0) <<< 4 = h <<< 8 ∧ ((16 * h + l) &&& 0x0F) <<< 8 = l <<< 8 := by
  decide

/-- Two numbers of twelve bits in three bytes. -/
theorem twelve_bits {x y : ℕ} (hx : x < 2 ^ 12) (hy : y < 2 ^ 12) {shared : UInt8}
    (h : shared = UInt8.ofNat (16 * (x / 256) + y / 256)) :
    (UInt8.ofNat x).toNat ||| ((shared.toNat &&& 0xF0) <<< 4) = x ∧
      (UInt8.ofNat y).toNat ||| ((shared.toNat &&& 0x0F) <<< 8) = y := by
  have hshared : shared.toNat = 16 * (x / 256) + y / 256 := by
    rw [h]
    rw [UInt8.toNat_ofNat']
    omega
  obtain ⟨hhigh, hlow⟩ := nibbles (x / 256) (by omega) (y / 256) (by omega)
  rw [hshared, hhigh, hlow, or_shift (UInt8.toNat_lt _), or_shift (UInt8.toNat_lt _),
    UInt8.toNat_ofNat', UInt8.toNat_ofNat']
  omega

theorem readDetailedTiming_bytes (pre rest : List UInt8) (t : DetailedTiming) :
    readDetailedTiming (pre ++ (t.bytes ++ rest)) pre.length (base.withDescriptors timing name) =
      .ok (base.withDescriptors (timing.or (Descriptor.timing t).validTiming) name) := by
  have hbytes : encode .little 2 t.clock = [UInt8.ofNat t.clock, UInt8.ofNat (t.clock / 256)] := rfl
  obtain ⟨hhActive, hhBlanking⟩ := twelve_bits t.hActive_lt t.hBlanking_lt rfl
  obtain ⟨hvActive, hvBlanking⟩ := twelve_bits t.vActive_lt t.vBlanking_lt rfl
  have hclock := low_or_high t.clock_lt
  have hpos := t.clock_pos
  simp only [readDetailedTiming, DetailedTiming.bytes, hbytes, List.cons_append, List.nil_append,
    readByte_append_length, readByte_append_right, readByte_cons_succ, readByte_cons_zero, ok_bind,
    hclock, hhActive, hhBlanking, hvActive, hvBlanking]
  cases timing with
  | some first => simp [EdidFacts.withDescriptors]
  | none =>
    rw [if_pos ⟨hpos, rfl⟩]
    by_cases hvalid : 0 < t.hActive ∧ 0 < t.vActive
    · rw [if_pos ⟨hvalid.1, hvalid.2, by omega, by omega⟩]
      rw [t.div_eq_reportedRateHz hvalid.1 hvalid.2]
      simp [Descriptor.validTiming, hvalid, EdidFacts.withDescriptors]
    · rw [if_neg fun h => hvalid ⟨h.1, h.2.1⟩]
      simp [Descriptor.validTiming, hvalid]

theorem trimWhitespace_append {text padding : List UInt8} (h : ∀ c ∈ padding, isPadding c = true) :
    trimWhitespace (text ++ padding) = trimWhitespace text := by
  rw [trimWhitespace, rdropWhile_append_blanks h, trimWhitespace]

theorem DisplayName.trim_field (n : DisplayName) :
    trimWhitespace n.field = trimWhitespace n.text := by
  apply trimWhitespace_append
  intro c hc
  have hc := List.mem_of_mem_take hc
  rw [List.mem_cons, List.mem_replicate] at hc
  obtain rfl | ⟨-, rfl⟩ := hc <;> rfl

theorem isPadding_lt {c : UInt8} (h : isPadding c = true) : c < 0x80 := by
  simp only [isPadding, Bool.or_eq_true, beq_iff_eq] at h
  obtain (((rfl | rfl) | rfl) | rfl) | rfl := h <;> decide

/-- A valid text is valid without its padding. -/
theorem validUtf8_trimWhitespace {text : List UInt8} (h : ValidUtf8 text) :
    ValidUtf8 (trimWhitespace text) := by
  have hcut : ValidUtf8 (text.rdropWhile isPadding) := by
    rw [← List.rdropWhile_append_rtakeWhile (p := isPadding) (l := text)] at h
    exact h.of_append_ascii fun c hc => isPadding_lt (List.mem_rtakeWhile_imp hc)
  rw [← List.takeWhile_append_dropWhile (p := isPadding) (l := text.rdropWhile isPadding)] at hcut
  exact hcut.of_ascii_append fun c hc => isPadding_lt (List.mem_takeWhile_imp hc)

theorem readDisplayDescriptor_name (pre rest : List UInt8) (n : DisplayName) :
    readDisplayDescriptor (pre ++ ((Descriptor.name n).bytes ++ rest)) pre.length
        (base.withDescriptors timing name) =
      .ok (base.withDescriptors timing ((Descriptor.name n).reportedName.or name)) := by
  have hfield : (slice (pre ++ ((Descriptor.name n).bytes ++ rest)) (pre.length + 5) 13 :
      Result (List UInt8)) = .ok n.field := by
    have h : (slice (pre ++ [0, 0, 0, 0xFC, 0] ++ n.field ++ rest)
        (pre ++ [0, 0, 0, 0xFC, 0]).length n.field.length : Result (List UInt8)) = .ok n.field :=
      slice_append _ _ _
    rw [List.length_append, n.length_field] at h
    simpa [Descriptor.bytes] using h
  have htag : (readByte (pre ++ ((Descriptor.name n).bytes ++ rest)) (pre.length + 3) : Result ℕ) =
      .ok 0xFC := by
    rw [readByte_append_right]
    rfl
  rw [readDisplayDescriptor, htag, ok_bind, if_pos rfl, hfield, ok_bind]
  dsimp only
  rw [n.trim_field]
  by_cases hname : trimWhitespace n.text = []
  · rw [if_neg (not_not_intro hname)]
    simp [Descriptor.reportedName, hname]
  · rw [if_pos hname, isValidUtf8_eq, ok_bind]
    simp [validUtf8_trimWhitespace n.valid, Descriptor.reportedName, hname,
      EdidFacts.withDescriptors]

/-- Three zeros tell a display descriptor from a timing. -/
theorem readDescriptor_cons (pre rest : List UInt8) (b0 b1 b2 : UInt8) (facts : EdidFacts) :
    readDescriptor (pre ++ b0 :: b1 :: b2 :: rest) facts pre.length =
      if b0.toNat = 0 ∧ b1.toNat = 0 ∧ b2.toNat = 0 then
        readDisplayDescriptor (pre ++ b0 :: b1 :: b2 :: rest) pre.length facts
      else readDetailedTiming (pre ++ b0 :: b1 :: b2 :: rest) pre.length facts := by
  simp only [readDescriptor, readByte_append_length, readByte_append_right, readByte_cons_succ,
    readByte_cons_zero, ok_bind]

theorem readDescriptor_bytes (pre rest : List UInt8) (d : Descriptor) :
    readDescriptor (pre ++ (d.bytes ++ rest)) (base.withDescriptors timing name) pre.length =
      .ok (base.withDescriptors (timing.or d.validTiming) (d.reportedName.or name)) := by
  cases d with
  | timing t =>
    have hnonzero : ¬ ((UInt8.ofNat t.clock).toNat = 0 ∧ (UInt8.ofNat (t.clock / 256)).toNat = 0 ∧
        (UInt8.ofNat t.hActive).toNat = 0) := by
      intro ⟨h0, h1, _⟩
      have hclock := low_or_high t.clock_lt
      rw [h0, h1] at hclock
      exact absurd hclock t.clock_pos.ne
    have hread := readDescriptor_cons pre ((t.bytes ++ rest).drop 3) (UInt8.ofNat t.clock)
      (UInt8.ofNat (t.clock / 256)) (UInt8.ofNat t.hActive) (base.withDescriptors timing name)
    rw [if_neg hnonzero] at hread
    exact hread.trans (readDetailedTiming_bytes pre rest t)
  | name n =>
    have hread := readDescriptor_cons pre (((Descriptor.name n).bytes ++ rest).drop 3) 0 0 0
      (base.withDescriptors timing name)
    rw [if_pos ⟨rfl, rfl, rfl⟩] at hread
    rw [Descriptor.validTiming, Option.or_none]
    · exact hread.trans (readDisplayDescriptor_name pre rest n)
    · intro t h
      cases h
  | other tag body htag hbody =>
    have hread := readDescriptor_cons pre (tag :: (body ++ rest)) 0 0 0
      (base.withDescriptors timing name)
    have htag : tag.toNat ≠ 0xFC := fun h => htag (UInt8.toNat_inj.mp h)
    rw [if_pos ⟨rfl, rfl, rfl⟩, readDisplayDescriptor, readByte_append_right, readByte_cons_succ,
      readByte_cons_succ, readByte_cons_succ, readByte_cons_zero, ok_bind, if_neg htag] at hread
    have hbytes : (Descriptor.other tag body ‹_› hbody).bytes ++ rest =
        0 :: 0 :: 0 :: tag :: (body ++ rest) := rfl
    rw [hbytes]
    simpa only [Descriptor.validTiming, Descriptor.reportedName, Option.or_none, Option.none_or]
      using hread

/-- The loop over descriptors that follow each other. -/
theorem foldlM_descriptors (pre rest : List UInt8) (ds : List Descriptor) :
    ((List.range ds.length).map fun k => pre.length + 18 * k).foldlM
        (readDescriptor (pre ++ (ds.flatMap Descriptor.bytes ++ rest)))
        (base.withDescriptors timing name) =
      .ok (base.withDescriptors (timing.or (ds.filterMap Descriptor.validTiming).head?)
        ((ds.filterMap Descriptor.reportedName).getLast?.or name)) := by
  induction ds generalizing pre timing name with
  | nil => simp
  | cons d ds ih =>
    have hoffsets : ((List.range (d :: ds).length).map fun k => pre.length + 18 * k) =
        pre.length :: (List.range ds.length).map fun k => (pre ++ d.bytes).length + 18 * k := by
      rw [List.length_cons, List.range_succ_eq_map, List.map_cons, List.map_map, Nat.mul_zero,
        Nat.add_zero, List.length_append, d.length_bytes]
      congr 1
      apply List.map_congr_left
      intro k _
      simp only [Function.comp_apply]
      omega
    have hdata : pre ++ ((d :: ds).flatMap Descriptor.bytes ++ rest) =
        pre ++ d.bytes ++ (ds.flatMap Descriptor.bytes ++ rest) := by
      simp
    have htiming : (timing.or d.validTiming).or (ds.filterMap Descriptor.validTiming).head? =
        timing.or ((d :: ds).filterMap Descriptor.validTiming).head? := by
      rw [Option.or_assoc, List.filterMap_cons]
      cases d.validTiming <;> rfl
    have hname : (ds.filterMap Descriptor.reportedName).getLast?.or (d.reportedName.or name) =
        ((d :: ds).filterMap Descriptor.reportedName).getLast?.or name := by
      rw [← Option.or_assoc, List.filterMap_cons]
      cases d.reportedName with
      | none => rw [Option.or_none]
      | some n =>
        rw [List.getLast?_cons]
        cases (ds.filterMap Descriptor.reportedName).getLast? <;> rfl
    rw [hoffsets, List.foldlM_cons, hdata, List.append_assoc, readDescriptor_bytes, ok_bind,
      ← List.append_assoc, ih, htiming, hname]

end Descriptors

section Blocks

theorem readFacts_block (d : Description) : readFacts d.block = .ok d.facts := by
  have hmanufacturer : readManufacturer d.block = .ok (some d.manufacturer.text) := by
    simp only [Description.block, Description.body, List.append_assoc]
    exact readManufacturer_bytes _ _
  have hproduct : readProductCode d.block =
      .ok (if d.productCode = 0 then none else some d.productCode) := by
    simp only [Description.block, Description.body, List.append_assoc]
    rw [← List.append_assoc]
    exact readProductCode_bytes (by simp) d.productCode_lt _
  have hsize : readPhysicalSize d.block = .ok (if 0 < d.widthCm ∧ 0 < d.heightCm then
      some (10 * d.widthCm.toNat, 10 * d.heightCm.toNat) else none) := by
    obtain ⟨pre, rest, hpre, hblock⟩ : ∃ pre rest : List UInt8, pre.length = 21 ∧
        d.block = pre ++ d.widthCm :: d.heightCm :: rest :=
      ⟨expectedHeader ++ encode .big 2 d.manufacturer.code ++ encode .little 2 d.productCode ++
        d.production, d.features ++ (d.descriptors.flatMap Descriptor.bytes ++ [0, -d.body.sum]),
        by simp [d.length_production], by simp [Description.block, Description.body]⟩
    rw [hblock]
    exact readPhysicalSize_bytes hpre _ _ _
  have hdescriptors (facts : EdidFacts) : descriptorOffsets.foldlM (readDescriptor d.block)
      (facts.withDescriptors none none) = .ok (facts.withDescriptors
        (d.descriptors.filterMap Descriptor.validTiming).head?
        (d.descriptors.filterMap Descriptor.reportedName).getLast?) := by
    obtain ⟨pre, rest, hpre, hblock⟩ : ∃ pre rest : List UInt8, pre.length = 54 ∧
        d.block = pre ++ (d.descriptors.flatMap Descriptor.bytes ++ rest) :=
      ⟨expectedHeader ++ encode .big 2 d.manufacturer.code ++ encode .little 2 d.productCode ++
        d.production ++ [d.widthCm, d.heightCm] ++ d.features, [0, -d.body.sum],
        by simp [d.length_production, d.length_features],
        by simp [Description.block, Description.body]⟩
    have hoffsets : descriptorOffsets =
        (List.range d.descriptors.length).map fun k => pre.length + 18 * k := by
      rw [d.length_descriptors, hpre]
      rfl
    rw [hoffsets, hblock, foldlM_descriptors, Option.none_or, Option.or_none]
  rw [readFacts, hmanufacturer, ok_bind, hproduct, ok_bind, hsize, ok_bind,
    ← EdidFacts.identity_withDescriptors, hdescriptors]
  rfl

/-- A block that is built from a description is read as the description. -/
theorem parseEdidBlock_block (d : Description) :
    parseEdidBlock (some d.block) 128 = .ok d.facts := by
  rw [← d.length_block, d.wellFormed_block.parse, readFacts_block]

/-- The first valid timing of a description has pixels to show. -/
theorem pos_of_validTiming {ds : List Descriptor} {t : DetailedTiming}
    (h : (ds.filterMap Descriptor.validTiming).head? = some t) : 0 < t.hActive ∧ 0 < t.vActive := by
  obtain ⟨d, -, hd⟩ := List.mem_filterMap.mp (List.mem_of_head? h)
  cases d with
  | timing t' =>
    rw [Descriptor.validTiming] at hd
    split_ifs at hd with hvalid
    cases hd
    exact hvalid
  | name | other => cases hd

/-- Data with one byte changed is refused, every description is read from its block, the refresh
rate is a double that no other one is nearer to the exact rate than, and every read is inside the
data. -/
theorem edid_blocks_read :
    (∀ (data : List UInt8) (facts : EdidFacts),
      parseEdidBlock (some data) data.length = .ok facts →
      ∀ (i : ℕ) (hi : i < data.length) (b : UInt8), b ≠ data[i] →
        parseEdidBlock (some (data.set i b)) data.length = fail .malformedData) ∧
    (∀ d : Description, parseEdidBlock (some d.block) 128 = .ok d.facts ∧
      ∀ t, (d.descriptors.filterMap Descriptor.validTiming).head? = some t →
        ∃ rate, d.facts.preferredRefreshRateHz = some rate ∧ rate.IsNearest t.refreshRateHz) ∧
    ∀ (data : Option (List UInt8)) (size : ℕ), (∀ bytes ∈ data, size = bytes.length) →
      Defined (parseEdidBlock data size) := by
  refine ⟨?_, fun d => ⟨parseEdidBlock_block d, ?_⟩, fun data size => defined_parseEdidBlock data⟩
  · intro data facts hparse i hi b hb
    have hwell := WellFormed.of_parse hparse
    have hset := parse_malformed (hwell.not_set hi hb)
    rwa [List.length_set] at hset
  · intro t ht
    obtain ⟨hh, hv⟩ := pos_of_validTiming ht
    exact ⟨t.reportedRateHz, congrArg (Option.map _) ht, t.isNearest_reportedRateHz hh hv⟩

/-- All values of a description, as they are. -/
def Description.values (d : Description) : EdidFacts :=
  EdidFacts.withDescriptors
    (.identity (some d.manufacturer.text) (some d.productCode)
      (some (10 * d.widthCm.toNat, 10 * d.heightCm.toNat)))
    (d.descriptors.filterMap Descriptor.validTiming).head?
    (d.descriptors.filterMap fun
      | .name n => some n.text
      | _ => none).getLast?

/-- A display without a product code, whose name begins with a space. Its refresh rate is 839/14. -/
def television : Description where
  manufacturer := ⟨18, 0, 12⟩
  productCode := 0
  production := List.replicate 9 0
  widthCm := 60
  heightCm := 34
  features := List.replicate 31 0
  descriptors :=
    [.timing ⟨2517, 640, 160, 480, 45, List.replicate 10 0, by decide, by decide, by decide,
      by decide, by decide, by decide, rfl⟩,
     .name ⟨ascii " TV", by decide, validUtf8_ascii (forall_of_all (by decide))⟩,
     .other 0x10 (List.replicate 14 0) (by decide) rfl,
     .other 0x10 (List.replicate 14 0) (by decide) rfl]
  productCode_lt := by decide
  length_production := rfl
  length_features := rfl
  length_descriptors := rfl

/-- One changed byte in the block of the television. -/
theorem television_changed_refused :
    parseEdidBlock (some (television.block.set 20 1)) television.block.length =
      fail .malformedData := by
  have hparse : parseEdidBlock (some television.block) television.block.length =
      .ok television.facts := by
    rw [television.length_block]
    exact parseEdidBlock_block television
  have hbyte : television.block[20]? = some 0 := rfl
  obtain ⟨hlt, hbyte⟩ := List.getElem?_eq_some_iff.mp hbyte
  have hne : (1 : UInt8) ≠ television.block[20] := by
    rw [hbyte]
    decide
  exact edid_blocks_read.1 television.block television.facts hparse 20 hlt 1 hne

/-- The refresh rate of the television is no double. -/
theorem not_representable_rate : ¬ Binary64.Representable (839 / 14) := by
  rintro ⟨m, e, -, -, -, h⟩
  obtain ⟨k, rfl | rfl⟩ := Int.eq_nat_or_neg e
  · rw [zpow_natCast, div_eq_iff (by norm_num)] at h
    have hnat : 839 = m * 2 ^ k * 14 := by exact_mod_cast h
    omega
  · rw [zpow_neg, zpow_natCast, ← div_eq_mul_inv, div_eq_div_iff (by norm_num) (by positivity)] at h
    have hnat : 839 * 2 ^ k = m * 14 := by exact_mod_cast h
    have hdvd : 7 ∣ 839 * 2 ^ k := ⟨m * 2, by omega⟩
    have hcoprime : Nat.Coprime 7 (2 ^ k) := Nat.Coprime.pow_right k (by decide)
    exact absurd (hcoprime.dvd_of_dvd_mul_right hdvd) (by decide)

/-- The product code and the space are not read, and the refresh rate is rounded. -/
theorem television_not_exact : ∃ facts, parseEdidBlock (some television.block) 128 = .ok facts ∧
    facts.productCode = none ∧ facts.monitorName = some (ascii "TV") ∧
    facts ≠ television.values ∧
    ∀ t ∈ television.descriptors.filterMap Descriptor.validTiming, ∀ h,
      facts.preferredRefreshRateHz ≠ some (.finite t.refreshRateHz h) := by
  have hname : television.facts.monitorName = some (ascii "TV") := by decide
  refine ⟨television.facts, parseEdidBlock_block television, rfl, hname, ?_, ?_⟩
  · intro h
    have hcode := congrArg EdidFacts.productCode h
    cases hcode
  · intro t ht hrate
    obtain rfl := List.mem_singleton.mp ht
    refine absurd hrate ?_
    rw [show DetailedTiming.refreshRateHz _ = (839 / 14 : ℚ) by norm_num [DetailedTiming.refreshRateHz]]
    exact not_representable_rate

end Blocks

end Syscape.Display
