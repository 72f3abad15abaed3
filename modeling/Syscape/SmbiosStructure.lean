import Syscape.SmbiosStrings
import Syscape.Lib.Endian

/-!
# Structures of an SMBIOS table

A structure has a type, formatted bytes and strings that the formatted bytes refer to by
number. A structure of type 17 is well formed when its fields make sense; decoding its
encoding succeeds exactly then, and gives the device that the fields describe.
-/
namespace Syscape.Smbios
open Checked StdSort Endian

section Structures

/-- The strings of a structure. -/
structure StringSet where
  strings : List (List UInt8)
  length_le : strings.length ≤ 255
  nonempty : ∀ s ∈ strings, s ≠ []
  no_null : ∀ s ∈ strings, 0 ∉ s

/-- The strings in memory, with a zero between them. -/
def StringSet.area (set : StringSet) : List UInt8 := [0].intercalate set.strings

/-- The string with an index that counts from one; the index zero stands for no string. -/
def StringSet.get (set : StringSet) (index : ℕ) : Option (List UInt8) :=
  if index = 0 then none else set.strings[index - 1]?

/-- A structure: its type, the formatted bytes behind its type and length, its strings. -/
structure SmbiosStructure where
  type : UInt8
  type_ne : type ≠ 127
  body : List UInt8
  body_ge : 2 ≤ body.length
  body_le : body.length ≤ 253
  strings : StringSet

namespace SmbiosStructure

/-- The length of the formatted area. -/
def size (s : SmbiosStructure) : ℕ := s.body.length + 2

def formatted (s : SmbiosStructure) : List UInt8 := s.type :: UInt8.ofNat s.size :: s.body

def encode (s : SmbiosStructure) : List UInt8 := s.formatted ++ s.strings.area ++ [0, 0]

theorem length_formatted (s : SmbiosStructure) : s.formatted.length = s.size := by
  simp [formatted, size]

/-- Fields of the formatted area, by offset; the least significant byte comes first. -/
def byteAt (s : SmbiosStructure) (offset : ℕ) : ℕ := (s.formatted.getD offset 0).toNat

def word16 (s : SmbiosStructure) (offset : ℕ) : ℕ := s.byteAt offset + 2 ^ 8 * s.byteAt (offset + 1)

def word32 (s : SmbiosStructure) (offset : ℕ) : ℕ :=
  s.word16 offset + 2 ^ 16 * s.word16 (offset + 2)

/-- The string whose index a field holds. -/
def stringAt (s : SmbiosStructure) (offset : ℕ) : Option (List UInt8) :=
  s.strings.get (s.byteAt offset)

end SmbiosStructure

end Structures

section WellFormed
variable (s : SmbiosStructure)

/-- The field holds the index of a string of the structure, or zero. -/
def IndexValid (offset : ℕ) : Prop := s.byteAt offset ≤ s.strings.strings.length

/-- The size is not the empty number of kilobytes, and an extended size is there and is
a positive number of 31 bits. -/
def SizeValid : Prop :=
  s.word16 0x0C ≠ 0x8000 ∧
    (s.word16 0x0C = 0x7FFF → 0x20 ≤ s.size ∧ 0 < s.word32 0x1C ∧ s.word32 0x1C < 2 ^ 31)

/-- A speed that refers to an extension refers to a number of 31 bits, if it is there. -/
def SpeedValid (minSize offset extMinSize extOffset : ℕ) : Prop :=
  minSize ≤ s.size → s.word16 offset = 0xFFFF → extMinSize ≤ s.size →
    s.word32 extOffset < 2 ^ 31

/-- A structure of type 17 that describes a memory device. -/
structure WellFormed : Prop where
  long : 0x15 ≤ s.size
  locator : IndexValid s 0x10
  bankLocator : IndexValid s 0x11
  deviceSize : SizeValid s
  speed : SpeedValid s 0x17 0x15 0x58 0x54
  manufacturer : 0x18 ≤ s.size → IndexValid s 0x17
  serialNumber : 0x19 ≤ s.size → IndexValid s 0x18
  partNumber : 0x1B ≤ s.size → IndexValid s 0x1A
  configuredSpeed : SpeedValid s 0x22 0x20 0x5C 0x58

instance (offset : ℕ) : Decidable (IndexValid s offset) := inferInstanceAs (Decidable (_ ≤ _))

instance : Decidable (SizeValid s) := inferInstanceAs (Decidable (_ ∧ (_ → _)))

instance (minSize offset extMinSize extOffset : ℕ) :
    Decidable (SpeedValid s minSize offset extMinSize extOffset) :=
  inferInstanceAs (Decidable (_ → _ → _ → _))

/-- Well-formedness as the conjunction of its fields, in the order of the parser. -/
theorem wellFormed_iff : WellFormed s ↔
    0x15 ≤ s.size ∧ IndexValid s 0x10 ∧ IndexValid s 0x11 ∧ SizeValid s ∧
      SpeedValid s 0x17 0x15 0x58 0x54 ∧ (0x18 ≤ s.size → IndexValid s 0x17) ∧
      (0x19 ≤ s.size → IndexValid s 0x18) ∧ (0x1B ≤ s.size → IndexValid s 0x1A) ∧
      SpeedValid s 0x22 0x20 0x5C 0x58 := by
  constructor
  · intro ⟨h1, h2, h3, h4, h5, h6, h7, h8, h9⟩
    exact ⟨h1, h2, h3, h4, h5, h6, h7, h8, h9⟩
  · intro ⟨h1, h2, h3, h4, h5, h6, h7, h8, h9⟩
    exact ⟨h1, h2, h3, h4, h5, h6, h7, h8, h9⟩

instance : Decidable (WellFormed s) := decidable_of_iff' _ (wellFormed_iff s)

/-- The state and the capacity that the size fields give: 0 is an empty socket, 0xFFFF an
unknown capacity, 0x7FFF refers to the extended size in megabytes, and the highest bit
tells kilobytes from megabytes. -/
def sizeField : MemoryDeviceState × Option ℕ :=
  if s.word16 0x0C = 0 then (.notInstalled, none)
  else if s.word16 0x0C = 0xFFFF then (.installed, none)
  else if s.word16 0x0C = 0x7FFF then (.installed, some (s.word32 0x1C * 2 ^ 20))
  else if 0x8000 ≤ s.word16 0x0C then (.installed, some ((s.word16 0x0C - 0x8000) * 2 ^ 10))
  else (.installed, some (s.word16 0x0C * 2 ^ 20))

/-- The speed that a field and its extension give; zero is an unknown speed. -/
def speedField (unit : MemorySpeedUnit) (minSize offset extMinSize extOffset : ℕ) :
    Option MemorySpeed :=
  if s.size < minSize ∨ s.word16 offset = 0 then none
  else if s.word16 offset ≠ 0xFFFF then some ⟨s.word16 offset, unit⟩
  else if s.size < extMinSize ∨ s.word32 extOffset = 0 then none
  else some ⟨s.word32 extOffset, unit⟩

/-- A string that only structures of some size have. -/
def stringField (minSize offset : ℕ) : Option (List UInt8) :=
  if minSize ≤ s.size then s.stringAt offset else none

/-- The memory device that a structure of type 17 describes. -/
def deviceOf (unit : MemorySpeedUnit) : MemoryDevice where
  locator := (s.stringAt 0x10).getD []
  bankLocator := s.stringAt 0x11
  state := (sizeField s).1
  sizeBytes := (sizeField s).2
  formFactor := classifyMemoryFormFactor (s.byteAt 0x0E)
  type := classifyMemoryType (s.byteAt 0x12)
  speed := speedField s unit 0x17 0x15 0x58 0x54
  configuredSpeed := speedField s unit 0x22 0x20 0x5C 0x58
  manufacturer := stringField s 0x18 0x17
  serialNumber := stringField s 0x19 0x18
  partNumber := stringField s 0x1B 0x1A

end WellFormed

section Fields
variable (pre : List UInt8) (s : SmbiosStructure) (post : List UInt8)

/-- The view that the walk builds for a structure behind some bytes. -/
abbrev viewAt : StructureView :=
  ⟨pre.length, s.size, pre.length + s.size, s.strings.area.length⟩

variable {pre s post}

lemma byteAt_lt (s : SmbiosStructure) (offset : ℕ) : s.byteAt offset < 2 ^ 8 :=
  (s.formatted.getD offset 0).toNat_lt

lemma word16_lt (s : SmbiosStructure) (offset : ℕ) : s.word16 offset < 2 ^ 16 := by
  have h0 := byteAt_lt s offset
  have h1 := byteAt_lt s (offset + 1)
  unfold SmbiosStructure.word16
  omega

lemma word32_lt (s : SmbiosStructure) (offset : ℕ) : s.word32 offset < 2 ^ 32 := by
  have h0 := word16_lt s offset
  have h1 := word16_lt s (offset + 2)
  unfold SmbiosStructure.word32
  omega

theorem read_formatted {offset : ℕ} (h : offset < s.size) :
    (read (pre ++ s.encode ++ post) (pre.length + offset) : Result UInt8) =
      .ok (s.formatted.getD offset 0) := by
  have hlt : offset < s.formatted.length := by rwa [s.length_formatted]
  rw [List.append_assoc, read_append_right, SmbiosStructure.encode, List.append_assoc,
    List.append_assoc, read_append_left hlt, read_of_lt hlt, List.getD_eq_getElem _ _ hlt]

theorem readByte_formatted {offset : ℕ} (h : offset < s.size) :
    (readByte (pre ++ s.encode ++ post) (pre.length + offset) : Result ℕ) =
      .ok (s.byteAt offset) := by
  rw [readByte, read_formatted h]
  rfl

theorem readLeU16_formatted {offset : ℕ} (h : offset + 1 < s.size) :
    readLeU16 (pre ++ s.encode ++ post) (pre.length + offset) = .ok (s.word16 offset) := by
  have hshift := or_shift (byteAt_lt s offset) (s.byteAt (offset + 1))
  rw [readLeU16, readByte_formatted (by omega), ok_bind, Nat.add_assoc, readByte_formatted h,
    ok_bind, pure_eq_ok, hshift]
  rfl

theorem readLeU32_formatted {offset : ℕ} (h : offset + 3 < s.size) :
    readLeU32 (pre ++ s.encode ++ post) (pre.length + offset) = .ok (s.word32 offset) := by
  have hshift := or_shift_four (byteAt_lt s offset) (byteAt_lt s (offset + 1))
    (byteAt_lt s (offset + 2)) (s.byteAt (offset + 3))
  rw [readLeU32, readByte_formatted (by omega), ok_bind, Nat.add_assoc,
    readByte_formatted (by omega), ok_bind, Nat.add_assoc, readByte_formatted (by omega), ok_bind,
    Nat.add_assoc, readByte_formatted h, ok_bind, pure_eq_ok, hshift]
  rfl

/-- The size field of a structure is read as it is meant. -/
theorem deviceSize_formatted (h : 0x15 ≤ s.size) :
    deviceSize (pre ++ s.encode ++ post) (viewAt pre s) =
      if SizeValid s then .ok (sizeField s) else fail .malformedData := by
  have hword := word16_lt s 0x0C
  have hext := word32_lt s 0x1C
  have hhigh : s.word16 0x0C &&& 0x8000 ≠ 0 ↔ 0x8000 ≤ s.word16 0x0C :=
    and_high_bit (k := 15) hword
  have hexthigh : s.word32 0x1C &&& 0x80000000 ≠ 0 ↔ 0x80000000 ≤ s.word32 0x1C :=
    and_high_bit (k := 31) hext
  have hlow : s.word16 0x0C &&& 0x7FFF = s.word16 0x0C % 0x8000 :=
    Nat.and_two_pow_sub_one_eq_mod _ 15
  unfold deviceSize SizeValid sizeField
  simp only
  rw [readLeU16_formatted (by omega), ok_bind]
  by_cases hzero : s.word16 0x0C = 0
  · simp [hzero]
  by_cases hunknown : s.word16 0x0C = 0xFFFF
  · simp [hunknown]
  by_cases hextended : s.word16 0x0C = 0x7FFF
  · simp only [hextended, Nat.reduceEqDiff, if_false, if_true, ne_eq, not_false_eq_true, true_and,
      forall_const]
    by_cases hlong : s.size < 0x20
    · rw [if_pos hlong, if_neg (by omega)]
    · rw [if_neg hlong, readLeU32_formatted (by omega), ok_bind]
      by_cases hbad : s.word32 0x1C &&& 0x80000000 ≠ 0 ∨ s.word32 0x1C = 0
      · rw [if_pos hbad, if_neg]
        rw [hexthigh] at hbad
        omega
      · rw [if_neg hbad, if_pos]
        · rw [Nat.mul_assoc]
          rfl
        · rw [hexthigh] at hbad
          omega
  · simp only [hzero, hunknown, hextended, if_false, false_implies, and_true]
    by_cases hkb : s.word16 0x0C &&& 0x8000 ≠ 0
    · have hkb' := hhigh.mp hkb
      rw [if_pos hkb, if_pos hkb', hlow]
      by_cases hempty : s.word16 0x0C = 0x8000
      · simp [hempty]
      · have hpos : ¬ s.word16 0x0C % 0x8000 = 0 := by omega
        have hkilo : s.word16 0x0C % 0x8000 = s.word16 0x0C - 0x8000 := by omega
        rw [if_neg hpos, if_pos hempty, hkilo]
        rfl
    · have hmb : ¬ 0x8000 ≤ s.word16 0x0C := fun h => hkb (hhigh.mpr h)
      have hne : s.word16 0x0C ≠ 0x8000 := by omega
      rw [if_neg hkb, if_neg hmb, if_pos hne, Nat.mul_assoc]
      rfl

/-- So is a speed field. -/
theorem deviceSpeed_formatted (unit : MemorySpeedUnit) {minSize offset extMinSize extOffset : ℕ}
    (hoffset : offset + 2 ≤ minSize) (hextOffset : extOffset + 4 ≤ extMinSize) :
    deviceSpeed (pre ++ s.encode ++ post) (viewAt pre s) unit minSize offset extMinSize extOffset =
      if SpeedValid s minSize offset extMinSize extOffset then
        .ok (speedField s unit minSize offset extMinSize extOffset)
      else fail .malformedData := by
  have hext := word32_lt s extOffset
  have hexthigh : s.word32 extOffset &&& 0x80000000 ≠ 0 ↔ 0x80000000 ≤ s.word32 extOffset :=
    and_high_bit (k := 31) hext
  unfold deviceSpeed speedField
  simp only
  by_cases hmin : minSize ≤ s.size
  · have hnotmin : ¬ s.size < minSize := by omega
    rw [if_pos hmin, readLeU16_formatted (by omega), ok_bind]
    by_cases hfits : s.word16 offset = 0xFFFF
    · simp only [hfits, hnotmin, ne_eq, not_true_eq_false, and_false, if_false, true_and, false_or,
        Nat.reduceEqDiff]
      by_cases hextMin : extMinSize ≤ s.size
      · have hnotext : ¬ s.size < extMinSize := by omega
        rw [if_pos hextMin, readLeU32_formatted (by omega), ok_bind]
        by_cases hbad : s.word32 extOffset &&& 0x80000000 ≠ 0
        · have hinvalid : ¬ SpeedValid s minSize offset extMinSize extOffset := by
            intro hvalid
            have hlt := hvalid hmin hfits hextMin
            have hge := hexthigh.mp hbad
            omega
          rw [if_pos hbad, if_neg hinvalid]
        · have hvalid : SpeedValid s minSize offset extMinSize extOffset := by
            intro _ _ _
            have hlt := mt hexthigh.mpr hbad
            omega
          rw [if_neg hbad, if_pos hvalid]
          simp only [hnotext, false_or]
          split_ifs <;> rfl
      · have hvalid : SpeedValid s minSize offset extMinSize extOffset :=
          fun _ _ h => absurd h hextMin
        rw [if_neg hextMin, if_pos hvalid, if_pos (.inl (by omega))]
    · have hvalid : SpeedValid s minSize offset extMinSize extOffset :=
        fun _ h => absurd h hfits
      rw [if_pos hvalid]
      by_cases hzero : s.word16 offset = 0
      · simp [hzero]
      · simp [hzero, hfits, hnotmin]
  · have hvalid : SpeedValid s minSize offset extMinSize extOffset := fun h => absurd h hmin
    rw [if_neg hmin, if_pos hvalid, if_pos (.inl (by omega))]

end Fields

section Strings
variable {data : List UInt8} {view : StructureView}

variable {pre : List UInt8} {s : SmbiosStructure} {post : List UInt8}

theorem stringSet_viewAt :
    (viewAt pre s).stringSet (pre ++ s.encode ++ post) = s.strings.strings := by
  apply stringSet_of_written
  · exact fun str hstr => ⟨s.strings.no_null str hstr, s.strings.nonempty str hstr⟩
  · have hdata : pre ++ s.encode ++ post =
        (pre ++ s.formatted) ++ (s.strings.area ++ ([0, 0] ++ post)) := by
      simp [SmbiosStructure.encode]
    have hstart : (viewAt pre s).strings = (pre ++ s.formatted).length := by
      simp [s.length_formatted]
    rw [StructureView.area, hdata, hstart, List.drop_left]
    exact List.take_left

theorem extractString_eq (index : UInt8) :
    extractString (pre ++ s.encode ++ post) (viewAt pre s) index =
      if index.toNat ≤ s.strings.strings.length then .ok (s.strings.get index.toNat)
      else fail .malformedData := by
  by_cases hindex : index = 0
  · simp [hindex, StringSet.get, extractString_zero]
  have hpos : index.toNat ≠ 0 := fun h => hindex (UInt8.toNat_inj.mp h)
  have hinside : (viewAt pre s).strings + (viewAt pre s).stringsSize ≤
      (pre ++ s.encode ++ post).length := by
    simp [SmbiosStructure.encode, s.length_formatted]
    omega
  rw [extractString_lines hinside hindex, stringSet_viewAt, StringSet.get, if_neg hpos]
  by_cases hle : index.toNat ≤ s.strings.strings.length
  · have hlt : index.toNat - 1 < s.strings.strings.length := by omega
    have hne := s.strings.nonempty _ (List.getElem_mem hlt)
    rw [if_pos hle, List.getElem?_eq_getElem hlt]
    exact congrArg Except.ok (if_neg hne)
  · rw [if_neg hle, List.getElem?_eq_none (by omega)]

theorem storedString_eq {offset : ℕ} (h : offset < s.size) :
    storedString (pre ++ s.encode ++ post) (viewAt pre s) offset =
      if IndexValid s offset then .ok (s.stringAt offset) else fail .malformedData := by
  rw [storedString, read_formatted h, ok_bind, extractString_eq]
  rfl

theorem optionalString_eq {minSize offset : ℕ} (h : offset < minSize) :
    optionalString (pre ++ s.encode ++ post) (viewAt pre s) minSize offset =
      if minSize ≤ s.size → IndexValid s offset then .ok (stringField s minSize offset)
      else fail .malformedData := by
  unfold optionalString stringField
  simp only [viewAt]
  by_cases hmin : minSize ≤ s.size
  · rw [if_pos hmin, storedString_eq (by omega), if_pos hmin]
    simp [hmin]
  · simp [hmin]

lemma ite_bind {α β : Type} (p : Prop) [Decidable p] (a : α) (f : α → Result β) :
    ((if p then .ok a else fail .malformedData : Result α) >>= f) =
      if p then f a else fail .malformedData := by
  split_ifs <;> rfl

/-- Decoding a structure of type 17 succeeds exactly when it is well formed. -/
theorem memoryDevice_eq (unit : MemorySpeedUnit) :
    memoryDevice (pre ++ s.encode ++ post) (viewAt pre s) unit =
      if WellFormed s then .ok (deviceOf s unit) else fail .malformedData := by
  unfold memoryDevice
  simp only [viewAt]
  by_cases hlong : s.size < 0x15
  · rw [if_pos hlong, if_neg fun h => absurd h.long (by omega)]
  rw [if_neg hlong, storedString_eq (by omega), storedString_eq (by omega),
    deviceSize_formatted (by omega), readByte_formatted (by omega), readByte_formatted (by omega),
    deviceSpeed_formatted unit (by omega) (by omega),
    deviceSpeed_formatted unit (by omega) (by omega),
    optionalString_eq (by omega), optionalString_eq (by omega), optionalString_eq (by omega)]
  simp only [ite_bind, ok_bind, ← ite_and]
  have hfields := (and_iff_right (Nat.le_of_not_lt hlong)).symm.trans (wellFormed_iff s).symm
  exact if_congr hfields rfl rfl

end Strings

end Syscape.Smbios
