import Syscape.SmbiosStructure
import Syscape.SmbiosIdentity

/-!
# Structures that identify a machine

What the structures of types 0 to 3 say, from their fields alone. Adding the encoding of a
structure to the variables of the walk succeeds exactly when the structure is valid and
none of its type stands before it where the source allows only one.
-/
namespace Syscape.Smbios
open Checked

section Records
variable (s : SmbiosStructure)

/-- BIOS Information: the indices of vendor, version and release date are in the record. -/
def FirmwareValid : Prop := 0x12 ≤ s.size ∧ IndexValid s 4 ∧ IndexValid s 5 ∧ IndexValid s 8

/-- The indices of manufacturer, product and version of a system or a board. -/
def ProductValid : Prop := 0x08 ≤ s.size ∧ IndexValid s 4 ∧ IndexValid s 5 ∧ IndexValid s 6

/-- A board that counts contained objects has the handle of each of them. -/
def ContainmentValid : Prop := 0x0F ≤ s.size → 0x0F + s.byteAt 0x0E * 2 ≤ s.size

/-- A structure that the walk accepts, as far as it looks at it. -/
def RecordValid : Prop :=
  (s.type = 0 → FirmwareValid s) ∧ (s.type = 1 → ProductValid s) ∧
    (s.type = 2 → ProductValid s ∧ ContainmentValid s) ∧ (s.type = 3 → 0x09 ≤ s.size)

instance : Decidable (FirmwareValid s) := inferInstanceAs (Decidable (_ ∧ _))

instance : Decidable (ProductValid s) := inferInstanceAs (Decidable (_ ∧ _))

instance : Decidable (ContainmentValid s) := inferInstanceAs (Decidable (_ → _))

instance : Decidable (RecordValid s) := inferInstanceAs (Decidable (_ ∧ _))

/-- The UUID of a system. -/
def uuidOf : Option (List UInt8) :=
  if 0x18 ≤ s.size then some ((s.formatted.drop 0x08).take 16) else none

/-- A board that hosts others or has the type of a motherboard. -/
def IdentifiesMotherboard : Prop :=
  0x0A ≤ s.size ∧ s.byteAt 9 % 2 = 1 ∨ 0x0E ≤ s.size ∧ s.byteAt 0x0D = 0x0A

instance : Decidable (IdentifiesMotherboard s) := inferInstanceAs (Decidable (_ ∨ _))

/-- The handle of a structure. -/
def handleOf : ℕ := s.word16 2

/-- The handle of the enclosure that a board names. -/
def enclosureHandle : Option ℕ := if 0x0D ≤ s.size then some (s.word16 0x0B) else none

/-- The type of an enclosure; the highest bit tells of a lock. -/
def enclosureType : ℕ := s.byteAt 5 % 2 ^ 7

/-- The board of a structure of type 2. -/
def boardOf : BoardCandidate where
  manufacturer := s.stringAt 4
  productName := s.stringAt 5
  version := s.stringAt 6
  handle := handleOf s
  identifiesMotherboard := decide (IdentifiesMotherboard s)
  chassisHandle := enclosureHandle s
  hasContainmentFields := decide (0x0F ≤ s.size)

/-- The enclosure of a structure of type 3. -/
def enclosureOf : ChassisCandidate := ⟨handleOf s, enclosureType s⟩

/-- No structure of its type stands before one that may be there only once. -/
def Unrepeated (st : WalkState) : Prop :=
  (s.type = 0 → st.sawFirmware = false) ∧ (s.type = 1 → st.sawSystem = false)

instance (st : WalkState) : Decidable (Unrepeated s st) := inferInstanceAs (Decidable (_ ∧ _))

/-- The variables of the walk behind a structure. -/
def recorded (st : WalkState) : WalkState :=
  if s.type = 0 then
    { st with
      sawFirmware := true
      facts := { st.facts with
        firmwareVendor := s.stringAt 4
        firmwareVersion := s.stringAt 5
        firmwareReleaseDate := s.stringAt 8 } }
  else if s.type = 1 then
    { st with
      sawSystem := true
      facts := { st.facts with
        systemManufacturer := s.stringAt 4
        systemProductName := s.stringAt 5
        systemProductVersion := s.stringAt 6
        uuid := uuidOf s } }
  else if s.type = 2 then { st with boards := st.boards ++ [boardOf s] }
  else if s.type = 3 then { st with chassisRecords := st.chassisRecords ++ [enclosureOf s] }
  else st

end Records

section Reading
variable {pre post : List UInt8} {s : SmbiosStructure}

lemma slice_formatted {offset length : ℕ} (h : offset + length ≤ s.size) :
    (slice (pre ++ s.encode ++ post) (pre.length + offset) length : Result (List UInt8)) =
      .ok ((s.formatted.drop offset).take length) := by
  have hlen := s.length_formatted
  rw [List.append_assoc, SmbiosStructure.encode, List.append_assoc, List.append_assoc,
    slice_of_le (by simp; omega), List.drop_length_add_append,
    List.drop_append_of_le_length (by omega),
    List.take_append_of_le_length (by rw [List.length_drop]; omega)]

lemma recordUuid_formatted :
    recordUuid (pre ++ s.encode ++ post) (viewAt pre s) = .ok (uuidOf s) := by
  unfold recordUuid uuidOf
  simp only
  by_cases hlong : 0x18 ≤ s.size
  · rw [if_pos hlong, slice_formatted (by omega), ok_bind, if_pos hlong]
  · rw [if_neg hlong, if_neg hlong]

lemma hostsMotherboard_formatted :
    hostsMotherboard (pre ++ s.encode ++ post) (viewAt pre s) =
      .ok (decide (0x0A ≤ s.size ∧ s.byteAt 9 % 2 = 1)) := by
  unfold hostsMotherboard
  simp only
  by_cases hlong : 0x0A ≤ s.size
  · rw [if_pos hlong, readByte_formatted (by omega), ok_bind, Nat.and_one_is_mod]
    simp [hlong]
  · simp [hlong]

lemma boardChassisHandle_formatted :
    boardChassisHandle (pre ++ s.encode ++ post) (viewAt pre s) = .ok (enclosureHandle s) := by
  unfold boardChassisHandle enclosureHandle
  simp only
  by_cases hlong : 0x0D ≤ s.size
  · rw [if_pos hlong, readLeU16_formatted (by omega), ok_bind, if_pos hlong]
  · rw [if_neg hlong, if_neg hlong]

lemma typedMotherboard_formatted :
    typedMotherboard (pre ++ s.encode ++ post) (viewAt pre s) =
      .ok (decide (0x0E ≤ s.size ∧ s.byteAt 0x0D = 0x0A)) := by
  unfold typedMotherboard
  simp only
  by_cases hlong : 0x0E ≤ s.size
  · rw [if_pos hlong, readByte_formatted (by omega), ok_bind]
    simp [hlong]
  · simp [hlong]

lemma containmentFields_formatted :
    containmentFields (pre ++ s.encode ++ post) (viewAt pre s) =
      if ContainmentValid s then .ok (decide (0x0F ≤ s.size)) else fail .malformedData := by
  unfold containmentFields ContainmentValid
  simp only
  by_cases hlong : 0x0F ≤ s.size
  · rw [if_pos hlong, readByte_formatted (by omega), ok_bind]
    by_cases hfits : 0x0F + s.byteAt 0x0E * 2 ≤ s.size
    · simp [hlong, hfits]
    · simp [hlong, hfits]
  · simp [hlong]

theorem addFirmware_formatted (st : WalkState) :
    addFirmware (pre ++ s.encode ++ post) (viewAt pre s) st =
      if st.sawFirmware = false ∧ FirmwareValid s then
        .ok { st with
          sawFirmware := true
          facts := { st.facts with
            firmwareVendor := s.stringAt 4
            firmwareVersion := s.stringAt 5
            firmwareReleaseDate := s.stringAt 8 } }
      else fail .malformedData := by
  unfold addFirmware FirmwareValid
  dsimp only [viewAt]
  by_cases hsaw : st.sawFirmware = true
  · simp [hsaw]
  by_cases hlong : s.size < 0x12
  · simp [hsaw, hlong]
  rw [if_neg hsaw, if_neg hlong, storedString_eq (by omega), storedString_eq (by omega),
    storedString_eq (by omega)]
  simp only [ite_bind, ← ite_and]
  have hlong' : 0x12 ≤ s.size := by omega
  simp [hsaw, hlong']

theorem addSystem_formatted (st : WalkState) :
    addSystem (pre ++ s.encode ++ post) (viewAt pre s) st =
      if st.sawSystem = false ∧ ProductValid s then
        .ok { st with
          sawSystem := true
          facts := { st.facts with
            systemManufacturer := s.stringAt 4
            systemProductName := s.stringAt 5
            systemProductVersion := s.stringAt 6
            uuid := uuidOf s } }
      else fail .malformedData := by
  unfold addSystem ProductValid
  by_cases hsaw : st.sawSystem = true
  · simp [hsaw]
  by_cases hlong : s.size < 0x08
  · simp [hsaw, hlong]
  rw [if_neg hsaw, if_neg hlong, storedString_eq (by omega), storedString_eq (by omega),
    storedString_eq (by omega), recordUuid_formatted]
  simp only [ite_bind, ok_bind, ← ite_and]
  have hlong' : 0x08 ≤ s.size := by omega
  simp [hsaw, hlong']

theorem boardCandidate_formatted :
    boardCandidate (pre ++ s.encode ++ post) (viewAt pre s) =
      if ProductValid s ∧ ContainmentValid s then .ok (boardOf s) else fail .malformedData := by
  unfold boardCandidate ProductValid
  by_cases hlong : s.size < 0x08
  · simp [hlong]
  rw [if_neg hlong, readLeU16_formatted (by omega), storedString_eq (by omega),
    storedString_eq (by omega), storedString_eq (by omega), hostsMotherboard_formatted,
    boardChassisHandle_formatted, typedMotherboard_formatted, containmentFields_formatted]
  simp only [ite_bind, ok_bind, ← ite_and]
  have hlong' : 0x08 ≤ s.size := by omega
  have hidentifies : (decide (0x0A ≤ s.size ∧ s.byteAt 9 % 2 = 1) ||
      decide (0x0E ≤ s.size ∧ s.byteAt 0x0D = 0x0A)) = decide (IdentifiesMotherboard s) :=
    (Bool.decide_or _ _).symm
  rw [hidentifies]
  simp [hlong', boardOf, handleOf, and_assoc]

theorem chassisCandidate_formatted :
    chassisCandidate (pre ++ s.encode ++ post) (viewAt pre s) =
      if 0x09 ≤ s.size then .ok (enclosureOf s) else fail .malformedData := by
  have hlow : s.byteAt 5 &&& 0x7F = s.byteAt 5 % 2 ^ 7 := Nat.and_two_pow_sub_one_eq_mod _ 7
  unfold chassisCandidate
  by_cases hlong : s.size < 0x09
  · simp [hlong]
  rw [if_neg hlong, readLeU16_formatted (by omega), ok_bind, readByte_formatted (by omega),
    ok_bind, if_pos (by omega), hlow]
  rfl

/-- Adding a structure to the variables of the walk. -/
theorem addStructure_formatted (st : WalkState) :
    addStructure (pre ++ s.encode ++ post) (viewAt pre s) s.type.toNat st =
      if RecordValid s ∧ Unrepeated s st then .ok (recorded s st) else fail .malformedData := by
  have htype (n : UInt8) : s.type.toNat = n.toNat ↔ s.type = n := UInt8.toNat_inj
  have h0 := htype 0
  have h1 := htype 1
  have h2 := htype 2
  have h3 := htype 3
  simp only [UInt8.reduceToNat] at h0 h1 h2 h3
  unfold addStructure RecordValid Unrepeated recorded
  simp only [h0, h1, h2, h3]
  by_cases hfirmware : s.type = 0
  · rw [if_pos hfirmware, addFirmware_formatted]
    simp [hfirmware, and_comm]
  by_cases hsystem : s.type = 1
  · rw [if_neg hfirmware, if_pos hsystem, addSystem_formatted]
    simp [hsystem, and_comm]
  by_cases hboard : s.type = 2
  · rw [if_neg hfirmware, if_neg hsystem, if_pos hboard, boardCandidate_formatted, ite_bind]
    simp [hboard]
  by_cases henclosure : s.type = 3
  · rw [if_neg hfirmware, if_neg hsystem, if_neg hboard, if_pos henclosure,
      chassisCandidate_formatted, ite_bind]
    simp [henclosure]
  · simp [hfirmware, hsystem, hboard, henclosure]

end Reading

end Syscape.Smbios
