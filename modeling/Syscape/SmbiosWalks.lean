import Syscape.SmbiosIdentity

/-!
# Two walks over one SMBIOS table

The identity of a machine and its memory devices are read by two loops. Each is given a
list of the offsets where it finds a structure. Where both succeed, the lists are equal.
-/
namespace Syscape.Smbios
open Checked StdSort

section Identity
variable {data : List UInt8}

/-- Recording a structure, with its offset. -/
def addVisited (data : List UInt8) (view : StructureView) (type : ℕ)
    (visited : WalkState × List ℕ) : Result (WalkState × List ℕ) := do
  let st ← addStructure data view type visited.1
  .ok (st, visited.2 ++ [view.formatted])

/-- The walk of `parse_smbios_table`, with the offsets of the structures. -/
def visitTable (data : List UInt8) (cursor : ℕ) (visited : WalkState × List ℕ) :
    Result ((WalkState × List ℕ) × Bool) :=
  walkTable (addVisited data) data cursor visited

/-- Without the offsets it is the walk itself. -/
theorem visitTable_fst (cursor : ℕ) (visited : WalkState × List ℕ) :
    (visitTable data cursor visited).map (fun walked => (walked.1.1, walked.2)) =
      walkTable (addStructure data) data cursor visited.1 := by
  induction hn : data.length - cursor using Nat.strongRecOn generalizing cursor visited with
  | ind n ih =>
    rw [visitTable, walkTable_eq, walkTable_eq (addStructure data)]
    split_ifs with hcursor
    · cases hat : structureAt data cursor with
      | error e => rfl
      | ok found =>
        obtain ⟨view, type, scan⟩ := found
        have hnext := lt_next_of_structureAt hat
        rw [ok_bind, ok_bind]
        dsimp only
        split_ifs
        · rfl
        · rw [addVisited]
          cases addStructure data view type visited.1 with
          | error e => rfl
          | ok st => exact ih _ (by omega) view.next (st, visited.2 ++ [view.formatted]) rfl
    · rfl

end Identity

section Memory
variable {data : List UInt8}

/-- The walk of `parse_smbios_memory_devices`, with the offsets of the structures. -/
def visitStructures (data : List UInt8) (unit : MemorySpeedUnit) (cursor : ℕ)
    (visited : List MemoryDevice × List ℕ) : Result (List MemoryDevice × List ℕ) :=
  if _hcursor : cursor < data.length then
    if data.length - cursor < 4 then fail .malformedData
    else do
      let type ← readByte data cursor
      let formattedSize ← readByte data (cursor + 1)
      if formattedSize < 4 ∨ formattedSize > data.length - cursor then fail .malformedData
      else do
        let stringsOffset := cursor + formattedSize
        let scan ← scanDoubleNull data stringsOffset
        if scan + 1 ≥ data.length then fail .malformedData
        else do
          let view : StructureView :=
            ⟨cursor, formattedSize, stringsOffset, (scan - stringsOffset) % 2 ^ 32⟩
          if type = 127 then
            if formattedSize ≠ 4 then fail .malformedData
            else do
              checkPadding data (scan + 2)
              .ok visited
          else do
            let devices ← appendDevice data view unit type visited.1
            visitStructures data unit
              (cursor + formattedSize + (scan - stringsOffset) % 2 ^ 32 + 2)
              (devices, visited.2 ++ [view.formatted])
  else fail .malformedData
termination_by data.length - cursor

theorem visitStructures_eq (unit : MemorySpeedUnit) (cursor : ℕ)
    (visited : List MemoryDevice × List ℕ) :
    visitStructures data unit cursor visited =
      if cursor < data.length then do
        let (view, type, scan) ← structureAt data cursor
        if type = 127 then
          if view.formattedSize ≠ 4 then fail .malformedData
          else do
            checkPadding data (scan + 2)
            .ok visited
        else do
          let devices ← appendDevice data view unit type visited.1
          visitStructures data unit view.next (devices, visited.2 ++ [view.formatted])
      else fail .malformedData := by
  rw [visitStructures, structureAt_bind]
  rfl

/-- Without the offsets it is the walk itself. -/
theorem visitStructures_fst (unit : MemorySpeedUnit) (cursor : ℕ)
    (visited : List MemoryDevice × List ℕ) :
    (visitStructures data unit cursor visited).map Prod.fst =
      parseStructures data unit cursor visited.1 := by
  induction hn : data.length - cursor using Nat.strongRecOn generalizing cursor visited with
  | ind n ih =>
    rw [visitStructures_eq, parseStructures_eq]
    split_ifs with hcursor
    · cases hat : structureAt data cursor with
      | error e => rfl
      | ok found =>
        obtain ⟨view, type, scan⟩ := found
        have hnext := lt_next_of_structureAt hat
        rw [ok_bind, ok_bind]
        dsimp only
        split_ifs
        · rfl
        · cases checkPadding data (scan + 2) <;> rfl
        · cases appendDevice data view unit type visited.1 with
          | error e => rfl
          | ok devices =>
            exact ih _ (by omega) view.next (devices, visited.2 ++ [view.formatted]) rfl
    · rfl

end Memory

section Agreement
variable {data : List UInt8}

/-- From one offset on, the walks find the same structures if both reach the end. -/
theorem visited_eq {unit : MemorySpeedUnit} {cursor : ℕ} {offsets : List ℕ} {st : WalkState}
    {devices : List MemoryDevice} {walked : (WalkState × List ℕ) × Bool}
    {visited : List MemoryDevice × List ℕ}
    (htable : visitTable data cursor (st, offsets) = .ok walked)
    (hmemory : visitStructures data unit cursor (devices, offsets) = .ok visited) :
    walked.1.2 = visited.2 := by
  induction hn : data.length - cursor using Nat.strongRecOn
    generalizing cursor offsets st devices with
  | ind n ih =>
    rw [visitTable, walkTable_eq] at htable
    rw [visitStructures_eq] at hmemory
    split_ifs at htable hmemory with hcursor
    · obtain ⟨⟨view, type, scan⟩, hat, hmemory⟩ := bind_eq_ok.mp hmemory
      have hnext := lt_next_of_structureAt hat
      rw [hat, ok_bind] at htable
      dsimp only at htable hmemory
      split_ifs at htable hmemory
      · cases hmemory
      · obtain ⟨_, -, hmemory⟩ := bind_eq_ok.mp hmemory
        cases htable
        cases hmemory
        rfl
      · obtain ⟨st', hadd, htable⟩ := bind_eq_ok.mp htable
        obtain ⟨devices', -, hmemory⟩ := bind_eq_ok.mp hmemory
        obtain ⟨facts, -, hadd⟩ := bind_eq_ok.mp hadd
        cases hadd
        exact ih _ (by omega) htable hmemory rfl
    · cases hmemory

/-- Where `parse_smbios_table` finds structures. -/
def tableOffsets (data : List UInt8) (major minor : UInt8) : Result (List ℕ) :=
  (visitTable data 0 ({ facts := { majorVersion := major, minorVersion := minor } }, [])).map
    (·.1.2)

/-- Where `parse_smbios_memory_devices` finds structures. -/
def memoryOffsets (data : List UInt8) (unit : MemorySpeedUnit) : Result (List ℕ) :=
  (visitStructures data unit 0 ([], [])).map Prod.snd

/-- When both functions accept a buffer, they find structures at the same offsets. -/
theorem offsets_eq {major minor : UInt8} {unit : MemorySpeedUnit} {facts : IdentityFacts}
    {sorter : Sorter compareMemoryDevices} {devices : List MemoryDevice}
    (htable : parseSmbiosTable data major minor = .ok facts)
    (hmemory : parseSmbiosMemoryDevices sorter data unit = .ok devices) :
    ∃ offsets, tableOffsets data major minor = .ok offsets ∧
      memoryOffsets data unit = .ok offsets := by
  obtain ⟨found, hfound, -⟩ := bind_eq_ok.mp htable
  unfold parseSmbiosMemoryDevices at hmemory
  split_ifs at hmemory
  · cases hmemory
  · obtain ⟨unsorted, hunsorted, -⟩ := bind_eq_ok.mp hmemory
    have hwalk := @visitTable_fst data 0
      ({ facts := { majorVersion := major, minorVersion := minor } }, [])
    have hvisit := @visitStructures_fst data unit 0 ([], [])
    rw [hfound] at hwalk
    rw [hunsorted] at hvisit
    obtain ⟨walked, hwalked, -⟩ := map_eq_ok.mp hwalk
    obtain ⟨visited, hvisited, -⟩ := map_eq_ok.mp hvisit
    refine ⟨walked.1.2, ?_, ?_⟩
    · rw [tableOffsets, hwalked]
      rfl
    · rw [memoryOffsets, hvisited, visited_eq hwalked hvisited]
      rfl

end Agreement

end Syscape.Smbios
