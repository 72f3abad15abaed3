import Mathlib.Data.List.Induction
import Syscape.SmbiosTable
import Syscape.SmbiosRecords
import Syscape.SmbiosWalks

/-!
# The identity that an SMBIOS table gives

The board and the enclosure are chosen from the structures of a table without regard to
their order. The walk over the encoding of the table makes the same choice, so it gives
the same result for every order of the structures.
-/
namespace Syscape.Smbios
open Checked StdSort Only

section Choice

/-- The structures of one type. -/
def ofType (type : UInt8) (structures : List SmbiosStructure) : List SmbiosStructure :=
  structures.filter (·.type = type)

theorem ofType_append_singleton (type : UInt8) (structures : List SmbiosStructure)
    (s : SmbiosStructure) : ofType type (structures ++ [s]) =
      ofType type structures ++ if s.type = type then [s] else [] := by
  simp [ofType, List.filter_append, List.filter_singleton]

theorem ofType_perm {structures structures' : List SmbiosStructure} (type : UInt8)
    (h : structures.Perm structures') : (ofType type structures).Perm (ofType type structures') :=
  h.filter _

/-- The only board, or the only one that identifies a motherboard. -/
def selectedBoard (boards : List SmbiosStructure) : Option SmbiosStructure :=
  (only boards).or (only (boards.filter fun s => IdentifiesMotherboard s))

/-- The only enclosure, or the only one with the handle that the board names. -/
def selectedEnclosure (enclosures : List SmbiosStructure) (board : Option SmbiosStructure) :
    Option SmbiosStructure :=
  (only enclosures).or
    ((board.bind enclosureHandle).bind fun handle => only (enclosures.filter (handleOf · = handle)))

theorem selectedBoard_eq_some_iff {boards : List SmbiosStructure} {s : SmbiosStructure} :
    selectedBoard boards = some s ↔
      boards = [s] ∨ boards.length ≠ 1 ∧ boards.filter (fun s => IdentifiesMotherboard s) = [s] := by
  rw [selectedBoard, Option.or_eq_some_iff, only_eq_some_iff, only_eq_none_iff, only_eq_some_iff]

theorem selectedEnclosure_eq_some_iff {enclosures : List SmbiosStructure}
    {board : Option SmbiosStructure} {s : SmbiosStructure} :
    selectedEnclosure enclosures board = some s ↔
      enclosures = [s] ∨ enclosures.length ≠ 1 ∧ ∃ handle,
        board.bind enclosureHandle = some handle ∧
          enclosures.filter (handleOf · = handle) = [s] := by
  rw [selectedEnclosure, Option.or_eq_some_iff, only_eq_some_iff, only_eq_none_iff,
    Option.bind_eq_some_iff]
  simp only [only_eq_some_iff]

variable (structures : List SmbiosStructure) (major minor : UInt8)

/-- The board of a table. -/
def boardOfTable : Option SmbiosStructure := selectedBoard (ofType 2 structures)

/-- The enclosure of a table. -/
def enclosureOfTable : Option SmbiosStructure :=
  selectedEnclosure (ofType 3 structures) (boardOfTable structures)

/-- What a table says about firmware and system. -/
def recordFacts : IdentityFacts where
  majorVersion := major
  minorVersion := minor
  firmwareVendor := (only (ofType 0 structures)).bind (·.stringAt 4)
  firmwareVersion := (only (ofType 0 structures)).bind (·.stringAt 5)
  firmwareReleaseDate := (only (ofType 0 structures)).bind (·.stringAt 8)
  systemManufacturer := (only (ofType 1 structures)).bind (·.stringAt 4)
  systemProductName := (only (ofType 1 structures)).bind (·.stringAt 5)
  systemProductVersion := (only (ofType 1 structures)).bind (·.stringAt 6)
  uuid := (only (ofType 1 structures)).bind uuidOf

/-- The identity that a table gives. -/
def factsOf : IdentityFacts :=
  { recordFacts structures major minor with
    boardManufacturer := (boardOfTable structures).bind (·.stringAt 4)
    boardProductName := (boardOfTable structures).bind (·.stringAt 5)
    boardVersion := (boardOfTable structures).bind (·.stringAt 6)
    boardSelectionAmbiguous :=
      decide (2 ≤ (ofType 2 structures).length ∧ boardOfTable structures = none)
    chassisType := (enclosureOfTable structures).map enclosureType
    chassisSelectionAmbiguous :=
      decide (2 ≤ (ofType 3 structures).length ∧ enclosureOfTable structures = none) }

/-- The structures are valid, with one of type 0 and one of type 1 at most. -/
def Readable : Prop :=
  (∀ s ∈ structures, RecordValid s) ∧ (ofType 0 structures).length ≤ 1 ∧
    (ofType 1 structures).length ≤ 1

/-- Where there are several boards, each counts what it contains. -/
def BoardsComparable (boards : List SmbiosStructure) : Prop :=
  2 ≤ boards.length → ∀ s ∈ boards, 0x0F ≤ s.size

/-- The structures of a table that gives an identity. -/
def Accepted : Prop := Readable structures ∧ BoardsComparable (ofType 2 structures)

instance : Decidable (Readable structures) := inferInstanceAs (Decidable (_ ∧ _))

instance (boards : List SmbiosStructure) : Decidable (BoardsComparable boards) :=
  inferInstanceAs (Decidable (_ → _))

instance : Decidable (Accepted structures) := inferInstanceAs (Decidable (_ ∧ _))

variable {structures} {structures' : List SmbiosStructure}

/-- Neither acceptance nor identity depends on the order. -/
theorem accepted_perm (h : structures.Perm structures') :
    Accepted structures ↔ Accepted structures' := by
  have hboards := ofType_perm 2 h
  simp only [Accepted, Readable, BoardsComparable, h.mem_iff, (ofType_perm 0 h).length_eq,
    (ofType_perm 1 h).length_eq, hboards.length_eq, hboards.mem_iff]

theorem boardOfTable_perm (h : structures.Perm structures') :
    boardOfTable structures = boardOfTable structures' := by
  have hboards := ofType_perm 2 h
  rw [boardOfTable, boardOfTable, selectedBoard, selectedBoard, only_perm hboards,
    only_perm (hboards.filter _)]

theorem enclosureOfTable_perm (h : structures.Perm structures') :
    enclosureOfTable structures = enclosureOfTable structures' := by
  have henclosures := ofType_perm 3 h
  rw [enclosureOfTable, enclosureOfTable, selectedEnclosure, selectedEnclosure,
    only_perm henclosures, boardOfTable_perm h]
  simp only [only_perm (henclosures.filter _)]

theorem factsOf_perm (h : structures.Perm structures') :
    factsOf structures major minor = factsOf structures' major minor := by
  unfold factsOf recordFacts
  rw [only_perm (ofType_perm 0 h), only_perm (ofType_perm 1 h), boardOfTable_perm h,
    enclosureOfTable_perm h, (ofType_perm 2 h).length_eq, (ofType_perm 3 h).length_eq]

end Choice

section Selection

/-- The loop over several boards. -/
theorem foldlM_boards (boards : List BoardCandidate) (kept : Option BoardCandidate × ℕ) :
    boards.foldlM (fun kept board =>
        if ¬ board.hasContainmentFields then fail .malformedData
        else .ok (keepLast BoardCandidate.identifiesMotherboard kept board)) kept =
      if ∀ board ∈ boards, board.hasContainmentFields = true then
        .ok (boards.foldl (keepLast BoardCandidate.identifiesMotherboard) kept)
      else (fail .malformedData : Result (Option BoardCandidate × ℕ)) := by
  induction boards generalizing kept with
  | nil => simp
  | cons board boards ih =>
    rw [List.foldlM_cons]
    by_cases hboard : board.hasContainmentFields = true
    · rw [if_neg (by simpa using hboard), ok_bind, ih]
      simp [hboard]
    · rw [if_pos hboard]
      simp [hboard]

lemma decide_eq_none {α : Type} (o : Option α) : decide (o = none) = o.isNone := by
  cases o <;> rfl

theorem selectBoard_several {boards : List BoardCandidate} (h : 2 ≤ boards.length) :
    selectBoard boards =
      if ∀ board ∈ boards, board.hasContainmentFields = true then
        .ok (only (boards.filter (·.identifiesMotherboard)),
          (only (boards.filter (·.identifiesMotherboard))).isNone)
      else fail .malformedData := by
  match boards, h with
  | board :: next :: boards, _ =>
    rw [selectBoard, foldlM_boards, ite_bind]
    · simp only [← apply_ite Except.ok, kept_eq_only_isNone]
    · simp
    · simp

/-- The board that the walk selects from candidates is that of the selected structure. -/
theorem selectBoard_map (boards : List SmbiosStructure) :
    selectBoard (boards.map boardOf) =
      if BoardsComparable boards then
        .ok ((selectedBoard boards).map boardOf,
          decide (2 ≤ boards.length ∧ selectedBoard boards = none))
      else fail .malformedData := by
  by_cases hseveral : 2 ≤ boards.length
  · have hnone : only boards = none := only_eq_none_iff.mpr (by omega)
    have hfilter : (boards.map boardOf).filter (·.identifiesMotherboard) =
        (boards.filter fun s => IdentifiesMotherboard s).map boardOf := by
      rw [List.filter_map]
      rfl
    rw [selectBoard_several (by rwa [List.length_map]), hfilter, only_map, selectedBoard, hnone,
      Option.none_or]
    have hcomparable : (∀ board ∈ boards.map boardOf, board.hasContainmentFields = true) ↔
        BoardsComparable boards := by
      simp [BoardsComparable, hseveral, boardOf]
    simp only [hcomparable, Option.isNone_map, hseveral, true_and, decide_eq_none]
  · obtain _ | ⟨board, _ | ⟨other, boards⟩⟩ := boards
    · rfl
    · simp [selectBoard, selectedBoard, BoardsComparable, only]
    · simp at hseveral

/-- So is the enclosure. -/
theorem selectChassis_map (enclosures : List SmbiosStructure) (board : Option SmbiosStructure) :
    selectChassis (enclosures.map enclosureOf) (board.map boardOf) =
      (selectedEnclosure enclosures board).map enclosureOf := by
  have hhandle : (board.map boardOf).bind BoardCandidate.chassisHandle =
      board.bind enclosureHandle := by
    cases board <;> rfl
  by_cases hone : enclosures.length = 1
  · obtain ⟨enclosure, rfl⟩ := List.length_eq_one_iff.mp hone
    rfl
  · rw [selectedEnclosure, only_eq_none_iff.mpr hone, Option.none_or]
    match enclosures, hone with
    | [], _ => cases board.bind enclosureHandle <;> rfl
    | first :: second :: enclosures, _ =>
      rw [List.map_cons, List.map_cons, selectChassis, hhandle]
      · cases hnamed : board.bind enclosureHandle with
        | none => rfl
        | some handle =>
          have hfilter : ((first :: second :: enclosures).map enclosureOf).filter
              (fun chassis => chassis.handle == handle) =
                ((first :: second :: enclosures).filter (handleOf · = handle)).map enclosureOf := by
            rw [List.filter_map]
            rfl
          rw [Option.bind_some, ← only_map, ← hfilter, ← kept_eq_only]
          rfl
      · simp
      · simp

end Selection

section Run

/-- The variables of the walk behind some structures. -/
def walkedState (structures : List SmbiosStructure) (major minor : UInt8) : WalkState where
  facts := recordFacts structures major minor
  sawFirmware := decide (ofType 0 structures ≠ [])
  sawSystem := decide (ofType 1 structures ≠ [])
  boards := (ofType 2 structures).map boardOf
  chassisRecords := (ofType 3 structures).map enclosureOf

/-- One round of the walk over encoded structures. -/
def addRecord (st : WalkState) (s : SmbiosStructure) : Result WalkState :=
  if RecordValid s ∧ Unrepeated s st then .ok (recorded s st) else fail .malformedData

variable {structures : List SmbiosStructure} {s : SmbiosStructure} {major minor : UInt8}

theorem readable_append_singleton : Readable (structures ++ [s]) ↔
    Readable structures ∧ RecordValid s ∧ Unrepeated s (walkedState structures major minor) := by
  have hatMost (type : UInt8) : (ofType type (structures ++ [s])).length ≤ 1 ↔
      (ofType type structures).length ≤ 1 ∧ (s.type = type → ofType type structures = []) := by
    rw [ofType_append_singleton]
    by_cases htype : s.type = type
    · rw [if_pos htype, List.length_append, List.length_singleton, ← List.length_eq_zero_iff]
      simp only [htype, forall_const]
      omega
    · rw [if_neg htype, List.append_nil]
      simp [htype]
  have hvalid : (∀ t ∈ structures ++ [s], RecordValid t) ↔
      (∀ t ∈ structures, RecordValid t) ∧ RecordValid s := by
    simp [or_imp, forall_and]
  have hunrepeated : Unrepeated s (walkedState structures major minor) ↔
      (s.type = 0 → ofType 0 structures = []) ∧ (s.type = 1 → ofType 1 structures = []) := by
    simp [Unrepeated, walkedState]
  rw [Readable, Readable, hvalid, hatMost, hatMost, hunrepeated]
  tauto

theorem recorded_walkedState (h : Unrepeated s (walkedState structures major minor)) :
    recorded s (walkedState structures major minor) =
      walkedState (structures ++ [s]) major minor := by
  obtain ⟨hfirmware, hsystem⟩ := h
  simp only [walkedState, decide_eq_false_iff_not, not_not] at hfirmware hsystem
  unfold walkedState recordFacts recorded
  simp only [ofType_append_singleton]
  by_cases h0 : s.type = 0
  · rw [hfirmware h0]
    simp [h0, only]
  by_cases h1 : s.type = 1
  · rw [hsystem h1]
    simp [h1, only]
  by_cases h2 : s.type = 2
  · simp [h2]
  by_cases h3 : s.type = 3
  · simp [h3]
  · simp [h0, h1, h2, h3]

/-- All rounds. -/
theorem foldlM_addRecord (structures : List SmbiosStructure) (major minor : UInt8) :
    structures.foldlM addRecord (walkedState [] major minor) =
      if Readable structures then .ok (walkedState structures major minor)
      else fail .malformedData := by
  induction structures using List.reverseRecOn with
  | nil => rfl
  | append_singleton structures s ih =>
    have happend : Readable (structures ++ [s]) ↔ Readable structures ∧
        RecordValid s ∧ Unrepeated s (walkedState structures major minor) :=
      readable_append_singleton
    rw [List.foldlM_append, ih, ite_bind, List.foldlM_cons]
    simp only [List.foldlM_nil, bind_pure, happend, ite_and, addRecord]
    by_cases hunrepeated : Unrepeated s (walkedState structures major minor)
    · rw [recorded_walkedState hunrepeated]
    · simp only [if_neg hunrepeated]

theorem finishTable_walkedState :
    finishTable (walkedState structures major minor) =
      if BoardsComparable (ofType 2 structures) then .ok (factsOf structures major minor)
      else fail .malformedData := by
  have hflag (n : ℕ) (enclosure : Option SmbiosStructure) :
      (enclosure.isNone && decide (n > 1)) = decide (2 ≤ n ∧ enclosure = none) := by
    rw [Bool.decide_and, decide_eq_none, Bool.and_comm]
    rfl
  unfold finishTable walkedState
  simp only
  rw [selectBoard_map, ite_bind]
  simp only [selectChassis_map, factsOf, boardOfTable, enclosureOfTable, Option.bind_map,
    Option.map_map, Option.isNone_map, List.length_map, hflag]
  rfl

end Run

section Table

/-- A table, with whatever stands behind it in the buffer. The strings of a structure are
shorter than the table, whose length has 32 bits where the walk is called. -/
structure IdentityTable where
  structures : List SmbiosStructure
  strings_lt : ∀ s ∈ structures, s.strings.area.length < 2 ^ 32
  ending : EndOfTable
  behind : List UInt8

def IdentityTable.bytes (t : IdentityTable) : List UInt8 :=
  t.structures.flatMap SmbiosStructure.encode ++ t.ending.encode ++ t.behind

variable {data pre post : List UInt8}

/-- One structure of the walk. -/
theorem walkTable_structure (s : SmbiosStructure) (hsmall : s.strings.area.length < 2 ^ 32)
    (hdata : data = pre ++ s.encode ++ post) (st : WalkState) :
    walkTable (addStructure data) data pre.length st =
      (addRecord st s >>= walkTable (addStructure data) data (pre ++ s.encode).length) := by
  have hnext : pre.length + s.size + s.strings.area.length + 2 = (pre ++ s.encode).length := by
    simp [SmbiosStructure.encode, s.length_formatted]
    omega
  have hadd : addStructure data
      ⟨pre.length, s.size, pre.length + s.size, s.strings.area.length⟩ s.type.toNat st =
        addRecord st s := by
    rw [hdata]
    exact addStructure_formatted st
  rw [walkTable_eq, if_pos (lt_length_of_encode s hdata), structureAt_structure s hdata, ok_bind]
  dsimp only
  rw [if_neg (toNat_type_ne s), Nat.mod_eq_of_lt hsmall, hadd, ← hnext]
  rfl

/-- The end of the table. -/
theorem walkTable_end (e : EndOfTable) (hdata : data = pre ++ e.encode ++ post) (st : WalkState) :
    walkTable (addStructure data) data pre.length st = .ok (st, true) := by
  have hlt : pre.length < data.length := by
    rw [hdata]
    simp [EndOfTable.encode]
  rw [walkTable_eq, if_pos hlt, structureAt_end e hdata, ok_bind]
  rfl

/-- The walk over a table, from where some structures are found already. -/
theorem walkTable_table (structures : List SmbiosStructure) (e : EndOfTable)
    (hsmall : ∀ s ∈ structures, s.strings.area.length < 2 ^ 32)
    (hdata : data = pre ++ structures.flatMap SmbiosStructure.encode ++ e.encode ++ post)
    (st : WalkState) :
    walkTable (addStructure data) data pre.length st =
      (structures.foldlM addRecord st >>= fun st => .ok (st, true)) := by
  induction structures generalizing pre st with
  | nil => exact walkTable_end e (by simpa using hdata) st
  | cons s structures ih =>
    rw [List.forall_mem_cons] at hsmall
    have hdata' : data = pre ++ s.encode ++
        (structures.flatMap SmbiosStructure.encode ++ e.encode ++ post) := by
      rw [hdata]
      simp
    rw [walkTable_structure s hsmall.1 hdata', List.foldlM_cons, bind_assoc]
    congr 1
    funext next
    exact ih hsmall.2 (by rw [hdata']; simp) next

variable (t : IdentityTable) (major minor : UInt8)

/-- The identity of a table, whatever ends it and stands behind it. -/
theorem parseSmbiosTable_bytes :
    parseSmbiosTable t.bytes major minor =
      if Accepted t.structures then .ok (factsOf t.structures major minor)
      else fail .malformedData := by
  have hwalk := @walkTable_table t.bytes [] t.behind t.structures t.ending t.strings_lt
    (by simp [IdentityTable.bytes]) (walkedState [] major minor)
  rw [List.length_nil, foldlM_addRecord, ite_bind] at hwalk
  have hstart : walkedState [] major minor =
      { facts := { majorVersion := major, minorVersion := minor } } := rfl
  have haccepted : Accepted t.structures ↔
      Readable t.structures ∧ BoardsComparable (ofType 2 t.structures) := Iff.rfl
  rw [hstart] at hwalk
  rw [parseSmbiosTable, hwalk, ite_bind]
  simp only [haccepted, ite_and, not_true_eq_false, and_false, if_false, finishTable_walkedState]

/-- The facts are those of one board of several, or leave the choice open. -/
structure ReportsBoard (facts : IdentityFacts) (boards : List SmbiosStructure)
    (board : Option SmbiosStructure) : Prop where
  chosen : ∀ s, board = some s ↔
    boards = [s] ∨ boards.length ≠ 1 ∧ boards.filter (fun s => IdentifiesMotherboard s) = [s]
  manufacturer : facts.boardManufacturer = board.bind (·.stringAt 4)
  productName : facts.boardProductName = board.bind (·.stringAt 5)
  version : facts.boardVersion = board.bind (·.stringAt 6)
  ambiguous : facts.boardSelectionAmbiguous = true ↔ 2 ≤ boards.length ∧ board = none

/-- The facts are those of one enclosure of several, or leave the choice open. -/
structure ReportsEnclosure (facts : IdentityFacts) (enclosures : List SmbiosStructure)
    (board enclosure : Option SmbiosStructure) : Prop where
  chosen : ∀ s, enclosure = some s ↔
    enclosures = [s] ∨ enclosures.length ≠ 1 ∧ ∃ handle,
      board.bind enclosureHandle = some handle ∧ enclosures.filter (handleOf · = handle) = [s]
  type : facts.chassisType = enclosure.map enclosureType
  ambiguous : facts.chassisSelectionAmbiguous = true ↔ 2 ≤ enclosures.length ∧ enclosure = none

variable (structures : List SmbiosStructure)

theorem factsOf_board : ReportsBoard (factsOf structures major minor) (ofType 2 structures)
    (boardOfTable structures) where
  chosen _ := selectedBoard_eq_some_iff
  manufacturer := rfl
  productName := rfl
  version := rfl
  ambiguous := decide_eq_true_iff

theorem factsOf_enclosure : ReportsEnclosure (factsOf structures major minor)
    (ofType 3 structures) (boardOfTable structures) (enclosureOfTable structures) where
  chosen _ := selectedEnclosure_eq_some_iff
  type := rfl
  ambiguous := decide_eq_true_iff

/-- A table with two structures of type 0 or of type 1 gives no identity. -/
theorem not_accepted_of_repeated (h : 2 ≤ (ofType 0 structures).length ∨
    2 ≤ (ofType 1 structures).length) : ¬ Accepted structures := by
  rintro ⟨⟨-, hfirmware, hsystem⟩, -⟩
  omega

/-- The identity does not depend on the order of the structures. It is refused where two
structures of type 0 or 1 are, and its board and enclosure are the chosen ones. The walk
stays inside every buffer, and finds structures where the parser of memory devices does. -/
theorem identity_reduction :
    (∀ t' : IdentityTable, t.structures.Perm t'.structures →
        parseSmbiosTable t'.bytes major minor = parseSmbiosTable t.bytes major minor) ∧
      (2 ≤ (ofType 0 t.structures).length ∨ 2 ≤ (ofType 1 t.structures).length →
        parseSmbiosTable t.bytes major minor = fail .malformedData) ∧
      ((∃ facts, parseSmbiosTable t.bytes major minor = .ok facts) ↔ Accepted t.structures) ∧
      (∀ facts, parseSmbiosTable t.bytes major minor = .ok facts → ∃ board enclosure,
        ReportsBoard facts (ofType 2 t.structures) board ∧
          ReportsEnclosure facts (ofType 3 t.structures) board enclosure) ∧
      ∀ data, Defined (parseSmbiosTable data major minor) ∧
        ∀ (sorter : Sorter compareMemoryDevices) (unit : MemorySpeedUnit) facts devices,
          parseSmbiosTable data major minor = .ok facts →
          parseSmbiosMemoryDevices sorter data unit = .ok devices →
          ∃ offsets, tableOffsets data major minor = .ok offsets ∧
            memoryOffsets data unit = .ok offsets := by
  have hbytes := parseSmbiosTable_bytes t major minor
  refine ⟨?_, ?_, ?_, ?_, ?_⟩
  · intro t' hperm
    rw [hbytes, parseSmbiosTable_bytes, factsOf_perm major minor hperm]
    simp only [accepted_perm hperm]
  · intro hrepeated
    rw [hbytes, if_neg (not_accepted_of_repeated t.structures hrepeated)]
  · rw [hbytes]
    by_cases haccepted : Accepted t.structures
    · simp [haccepted]
    · simp [haccepted]
  · intro facts hfacts
    rw [hbytes] at hfacts
    split_ifs at hfacts
    · cases hfacts
      exact ⟨_, _, factsOf_board major minor _, factsOf_enclosure major minor _⟩
    · cases hfacts
  · intro data
    refine ⟨defined_parseSmbiosTable data major minor, ?_⟩
    intro sorter unit facts devices htable hmemory
    exact offsets_eq htable hmemory

end Table

end Syscape.Smbios
