import Syscape.Smbios

/-!
# One round over the structures of an SMBIOS table

Two loops of the source walk over tables. A round of either reads the header of a
structure and searches for the end of its strings before it looks at the type.
-/
namespace Syscape.Smbios
open Checked

variable {data : List UInt8}

/-- What both loops read of a structure: its view, its type, and where its strings end. -/
def structureAt (data : List UInt8) (cursor : ℕ) : Result (StructureView × ℕ × ℕ) :=
  if data.length - cursor < 4 then fail .malformedData
  else do
    let type ← readByte data cursor
    let formattedSize ← readByte data (cursor + 1)
    if formattedSize < 4 ∨ formattedSize > data.length - cursor then fail .malformedData
    else do
      let scan ← scanDoubleNull data (cursor + formattedSize)
      if scan + 1 ≥ data.length then fail .malformedData
      else .ok (⟨cursor, formattedSize, cursor + formattedSize,
        (scan - (cursor + formattedSize)) % 2 ^ 32⟩, type, scan)

/-- Where the loops go on. -/
def StructureView.next (view : StructureView) : ℕ := view.strings + view.stringsSize + 2

theorem lt_next_of_structureAt {cursor scan type : ℕ} {view : StructureView}
    (h : structureAt data cursor = .ok (view, type, scan)) : cursor < view.next := by
  unfold structureAt at h
  split_ifs at h
  · cases h
  · obtain ⟨_, _, h⟩ := bind_eq_ok.mp h
    obtain ⟨formattedSize, _, h⟩ := bind_eq_ok.mp h
    split_ifs at h
    · cases h
    · obtain ⟨_, _, h⟩ := bind_eq_ok.mp h
      split_ifs at h
      · cases h
      · cases h
        unfold StructureView.next
        dsimp only
        omega

/-- The beginning of a round of either loop, whatever the round does then. -/
theorem structureAt_bind {α : Type} (cursor : ℕ) (f : StructureView × ℕ × ℕ → Result α) :
    (structureAt data cursor >>= f) =
      (if data.length - cursor < 4 then fail .malformedData
      else do
        let type ← readByte data cursor
        let formattedSize ← readByte data (cursor + 1)
        if formattedSize < 4 ∨ formattedSize > data.length - cursor then fail .malformedData
        else do
          let scan ← scanDoubleNull data (cursor + formattedSize)
          if scan + 1 ≥ data.length then fail .malformedData
          else f (⟨cursor, formattedSize, cursor + formattedSize,
            (scan - (cursor + formattedSize)) % 2 ^ 32⟩, type, scan)) := by
  rw [structureAt]
  split_ifs
  · rfl
  · cases readByte data cursor with
    | error e => rfl
    | ok type =>
      rw [ok_bind, ok_bind]
      cases readByte data (cursor + 1) with
      | error e => rfl
      | ok formattedSize =>
        rw [ok_bind, ok_bind]
        by_cases hsize : formattedSize < 4 ∨ formattedSize > data.length - cursor
        · rw [if_pos hsize, if_pos hsize]
          rfl
        · rw [if_neg hsize, if_neg hsize]
          cases scanDoubleNull data (cursor + formattedSize) with
          | error e => rfl
          | ok scan =>
            rw [ok_bind, ok_bind]
            by_cases hclosed : scan + 1 ≥ data.length
            · rw [if_pos hclosed, if_pos hclosed]
              rfl
            · rw [if_neg hclosed, if_neg hclosed]
              rfl

theorem parseStructures_eq (unit : MemorySpeedUnit) (cursor : ℕ) (devices : List MemoryDevice) :
    parseStructures data unit cursor devices =
      if cursor < data.length then do
        let (view, type, scan) ← structureAt data cursor
        if type = 127 then
          if view.formattedSize ≠ 4 then fail .malformedData
          else do
            checkPadding data (scan + 2)
            .ok devices
        else do
          let devices ← appendDevice data view unit type devices
          parseStructures data unit view.next devices
      else fail .malformedData := by
  rw [parseStructures, structureAt_bind]
  rfl

end Syscape.Smbios
