import Syscape.SmbiosBounds
import Syscape.Lib.Only

/-!
# The identity of a machine in an SMBIOS table

`parse_smbios_table` of the Windows backend walks over the structures of a table as the
parser of memory devices does, in code of its own. It takes the facts about firmware and
system from the structures of types 0 and 1. Boards and enclosures are only collected, and
chosen from when all of them are known.
-/
namespace Syscape.Smbios
open Checked StdSort Only

section Source

/-- `identity_facts`; a text or number that is not present is `none`. -/
structure IdentityFacts where
  majorVersion : UInt8 := 0
  minorVersion : UInt8 := 0
  firmwareVendor : Option (List UInt8) := none
  firmwareVersion : Option (List UInt8) := none
  firmwareReleaseDate : Option (List UInt8) := none
  systemManufacturer : Option (List UInt8) := none
  systemProductName : Option (List UInt8) := none
  systemProductVersion : Option (List UInt8) := none
  uuid : Option (List UInt8) := none
  boardManufacturer : Option (List UInt8) := none
  boardProductName : Option (List UInt8) := none
  boardVersion : Option (List UInt8) := none
  boardSelectionAmbiguous : Bool := false
  chassisType : Option ℕ := none
  chassisSelectionAmbiguous : Bool := false
  deriving DecidableEq, Repr

/-- `board_candidate`. -/
structure BoardCandidate where
  manufacturer : Option (List UInt8)
  productName : Option (List UInt8)
  version : Option (List UInt8)
  handle : ℕ
  identifiesMotherboard : Bool
  chassisHandle : Option ℕ
  hasContainmentFields : Bool
  deriving DecidableEq, Repr

/-- `chassis_candidate`. -/
structure ChassisCandidate where
  handle : ℕ
  type : ℕ
  deriving DecidableEq, Repr

/-- The variables of the walk. -/
structure WalkState where
  facts : IdentityFacts
  sawFirmware : Bool := false
  sawSystem : Bool := false
  boards : List BoardCandidate := []
  chassisRecords : List ChassisCandidate := []
  deriving DecidableEq, Repr

/-- A structure of type 0, BIOS Information. -/
def addFirmware (data : List UInt8) (view : StructureView) (st : WalkState) : Result WalkState :=
  if st.sawFirmware then fail .malformedData
  else if view.formattedSize < 0x12 then fail .malformedData
  else do
    let vendor ← storedString data view 4
    let version ← storedString data view 5
    let date ← storedString data view 8
    .ok { st with
      sawFirmware := true
      facts := { st.facts with
        firmwareVendor := vendor
        firmwareVersion := version
        firmwareReleaseDate := date } }

/-- The UUID, which only longer records have. -/
def recordUuid (data : List UInt8) (view : StructureView) : Result (Option (List UInt8)) :=
  if view.formattedSize ≥ 0x18 then do
    let octets ← slice data (view.formatted + 0x08) 16
    .ok (some octets)
  else .ok none

/-- A structure of type 1, System Information. -/
def addSystem (data : List UInt8) (view : StructureView) (st : WalkState) : Result WalkState :=
  if st.sawSystem then fail .malformedData
  else if view.formattedSize < 0x08 then fail .malformedData
  else do
    let manufacturer ← storedString data view 4
    let productName ← storedString data view 5
    let version ← storedString data view 6
    let uuid ← recordUuid data view
    .ok { st with
      sawSystem := true
      facts := { st.facts with
        systemManufacturer := manufacturer
        systemProductName := productName
        systemProductVersion := version
        uuid := uuid } }

/-- The feature flag of a hosting board. -/
def hostsMotherboard (data : List UInt8) (view : StructureView) : Result Bool :=
  if view.formattedSize ≥ 0x0A then do
    let flags ← readByte data (view.formatted + 9)
    .ok (flags &&& 0x01 ≠ 0)
  else .ok false

/-- The handle of the enclosure; `memcpy` on a host that stores the low byte first. -/
def boardChassisHandle (data : List UInt8) (view : StructureView) : Result (Option ℕ) :=
  if view.formattedSize ≥ 0x0D then do
    let handle ← readLeU16 data (view.formatted + 0x0B)
    .ok (some handle)
  else .ok none

/-- The board type of a motherboard. -/
def typedMotherboard (data : List UInt8) (view : StructureView) : Result Bool :=
  if view.formattedSize ≥ 0x0E then do
    let type ← readByte data (view.formatted + 0x0D)
    .ok (type = 0x0A)
  else .ok false

/-- The number of contained objects, whose handles have to be in the record. -/
def containmentFields (data : List UInt8) (view : StructureView) : Result Bool :=
  if view.formattedSize ≥ 0x0F then do
    let contained ← readByte data (view.formatted + 0x0E)
    if 0x0F + contained * 2 > view.formattedSize then fail .malformedData else .ok true
  else .ok false

/-- A structure of type 2, Base Board. -/
def boardCandidate (data : List UInt8) (view : StructureView) : Result BoardCandidate :=
  if view.formattedSize < 0x08 then fail .malformedData
  else do
    let handle ← readLeU16 data (view.formatted + 2)
    let manufacturer ← storedString data view 4
    let productName ← storedString data view 5
    let version ← storedString data view 6
    let hosting ← hostsMotherboard data view
    let chassisHandle ← boardChassisHandle data view
    let typed ← typedMotherboard data view
    let containment ← containmentFields data view
    .ok
      { manufacturer := manufacturer
        productName := productName
        version := version
        handle := handle
        identifiesMotherboard := hosting || typed
        chassisHandle := chassisHandle
        hasContainmentFields := containment }

/-- A structure of type 3, System Enclosure. -/
def chassisCandidate (data : List UInt8) (view : StructureView) : Result ChassisCandidate :=
  if view.formattedSize < 0x09 then fail .malformedData
  else do
    let handle ← readLeU16 data (view.formatted + 2)
    let type ← readByte data (view.formatted + 5)
    .ok ⟨handle, type &&& 0x7F⟩

/-- What a structure adds to the variables of the walk. -/
def addStructure (data : List UInt8) (view : StructureView) (type : ℕ) (st : WalkState) :
    Result WalkState :=
  if type = 0 then addFirmware data view st
  else if type = 1 then addSystem data view st
  else if type = 2 then do
    let candidate ← boardCandidate data view
    .ok { st with boards := st.boards ++ [candidate] }
  else if type = 3 then do
    let candidate ← chassisCandidate data view
    .ok { st with chassisRecords := st.chassisRecords ++ [candidate] }
  else .ok st

/-- The loop over the structures, with what it does to each of them as a parameter. The
second part of the result is `saw_end`. -/
def walkTable {σ : Type} (add : StructureView → ℕ → σ → Result σ) (data : List UInt8)
    (cursor : ℕ) (st : σ) : Result (σ × Bool) :=
  if _hcursor : cursor < data.length then
    if data.length - cursor < 4 then fail .malformedData
    else do
      let type ← readByte data cursor
      let formattedSize ← readByte data (cursor + 1)
      if formattedSize < 4 ∨ formattedSize > data.length - cursor then fail .malformedData
      else do
        let stringsOffset := cursor + formattedSize
        let scan ← scanDoubleNull data stringsOffset
        if scan + 1 ≥ data.length then fail .malformedData
        else if type = 127 then .ok (st, true)
        else do
          let st ← add
            ⟨cursor, formattedSize, stringsOffset, (scan - stringsOffset) % 2 ^ 32⟩ type st
          walkTable add data (cursor + formattedSize + (scan - stringsOffset) % 2 ^ 32 + 2) st
  else .ok (st, false)
termination_by data.length - cursor

/-- The board, and whether the choice between several is open. -/
def selectBoard (boards : List BoardCandidate) : Result (Option BoardCandidate × Bool) :=
  match boards with
  | [] => .ok (none, false)
  | [board] => .ok (some board, false)
  | _ => do
    let kept ← boards.foldlM (fun kept board =>
      if ¬ board.hasContainmentFields then fail .malformedData
      else .ok (keepLast BoardCandidate.identifiesMotherboard kept board)) (none, 0)
    if kept.2 ≠ 1 then .ok (none, true) else .ok (kept.1, false)

/-- The enclosure that goes with a board. -/
def selectChassis (records : List ChassisCandidate) (board : Option BoardCandidate) :
    Option ChassisCandidate :=
  match records with
  | [] => none
  | [chassis] => some chassis
  | _ =>
    match board.bind BoardCandidate.chassisHandle with
    | none => none
    | some handle =>
      let kept := records.foldl (keepLast fun chassis => chassis.handle == handle) (none, 0)
      if kept.2 = 1 then kept.1 else none

/-- What follows the walk in `parse_smbios_table`. -/
def finishTable (st : WalkState) : Result IdentityFacts := do
  let (board, ambiguous) ← selectBoard st.boards
  let chassis := selectChassis st.chassisRecords board
  .ok { st.facts with
    boardManufacturer := board.bind (·.manufacturer)
    boardProductName := board.bind (·.productName)
    boardVersion := board.bind (·.version)
    boardSelectionAmbiguous := ambiguous
    chassisType := chassis.map (·.type)
    chassisSelectionAmbiguous := chassis.isNone && decide (st.chassisRecords.length > 1) }

/-- `parse_smbios_table`. -/
def parseSmbiosTable (data : List UInt8) (major minor : UInt8) : Result IdentityFacts := do
  let (st, sawEnd) ← walkTable (addStructure data) data 0
    { facts := { majorVersion := major, minorVersion := minor } }
  let requiresEnd := major > 2 ∨ (major = 2 ∧ minor ≥ 2)
  if requiresEnd ∧ ¬ sawEnd then fail .malformedData
  else finishTable st

end Source

section Bounds
variable {data : List UInt8} {view : StructureView}

theorem defined_addFirmware (h : view.Inside data) (st : WalkState) :
    Defined (addFirmware data view st) := by
  refine Defined.ite (fun _ => defined_failErrc _) fun _ => ?_
  refine Defined.ite (fun _ => defined_failErrc _) fun hsize => ?_
  apply (defined_storedString h (by omega)).bind
  intro vendor _
  apply (defined_storedString h (by omega)).bind
  intro version _
  exact (defined_storedString h (by omega)).bind fun _ _ => defined_ok _

theorem defined_addSystem (h : view.Inside data) (st : WalkState) :
    Defined (addSystem data view st) := by
  have hformatted := h.formatted
  refine Defined.ite (fun _ => defined_failErrc _) fun _ => ?_
  refine Defined.ite (fun _ => defined_failErrc _) fun hsize => ?_
  apply (defined_storedString h (by omega)).bind
  intro manufacturer _
  apply (defined_storedString h (by omega)).bind
  intro productName _
  apply (defined_storedString h (by omega)).bind
  intro version _
  have huuid : Defined (recordUuid data view) := by
    refine Defined.ite (fun hlong => ?_) fun _ => defined_ok _
    exact (defined_slice (by omega)).bind fun _ _ => defined_ok _
  exact huuid.bind fun _ _ => defined_ok _

theorem defined_boardCandidate (h : view.Inside data) : Defined (boardCandidate data view) := by
  have hformatted := h.formatted
  refine Defined.ite (fun _ => defined_failErrc _) fun hsize => ?_
  apply (defined_readLeU16 (by omega)).bind
  intro handle _
  apply (defined_storedString h (by omega)).bind
  intro manufacturer _
  apply (defined_storedString h (by omega)).bind
  intro productName _
  apply (defined_storedString h (by omega)).bind
  intro version _
  have hhosting : Defined (hostsMotherboard data view) := by
    refine Defined.ite (fun hlong => ?_) fun _ => defined_ok _
    exact (defined_readByte (by omega)).bind fun _ _ => defined_ok _
  have hchassis : Defined (boardChassisHandle data view) := by
    refine Defined.ite (fun hlong => ?_) fun _ => defined_ok _
    exact (defined_readLeU16 (by omega)).bind fun _ _ => defined_ok _
  have htyped : Defined (typedMotherboard data view) := by
    refine Defined.ite (fun hlong => ?_) fun _ => defined_ok _
    exact (defined_readByte (by omega)).bind fun _ _ => defined_ok _
  have hcontainment : Defined (containmentFields data view) := by
    refine Defined.ite (fun hlong => ?_) fun _ => defined_ok _
    apply (defined_readByte (by omega)).bind
    intro contained _
    exact Defined.ite (fun _ => defined_failErrc _) fun _ => defined_ok _
  apply hhosting.bind
  intro hosting _
  apply hchassis.bind
  intro chassisHandle _
  apply htyped.bind
  intro typed _
  exact hcontainment.bind fun _ _ => defined_ok _

theorem defined_chassisCandidate (h : view.Inside data) : Defined (chassisCandidate data view) := by
  have hformatted := h.formatted
  refine Defined.ite (fun _ => defined_failErrc _) fun hsize => ?_
  apply (defined_readLeU16 (by omega)).bind
  intro handle _
  exact (defined_readByte (by omega)).bind fun _ _ => defined_ok _

theorem defined_addStructure (h : view.Inside data) (type : ℕ) (st : WalkState) :
    Defined (addStructure data view type st) := by
  refine Defined.ite (fun _ => defined_addFirmware h st) fun _ => ?_
  refine Defined.ite (fun _ => defined_addSystem h st) fun _ => ?_
  refine Defined.ite (fun _ => ?_) fun _ => ?_
  · exact (defined_boardCandidate h).bind fun _ _ => defined_ok _
  · refine Defined.ite (fun _ => ?_) fun _ => defined_ok _
    exact (defined_chassisCandidate h).bind fun _ _ => defined_ok _

theorem walkTable_eq {σ : Type} (add : StructureView → ℕ → σ → Result σ) (cursor : ℕ) (st : σ) :
    walkTable add data cursor st =
      if cursor < data.length then do
        let (view, type, _) ← structureAt data cursor
        if type = 127 then .ok (st, true)
        else do
          let st ← add view type st
          walkTable add data view.next st
      else .ok (st, false) := by
  rw [walkTable, structureAt_bind]
  rfl

/-- The walk stays inside the table when what it does with a structure does. -/
theorem defined_walkTable {σ : Type} {add : StructureView → ℕ → σ → Result σ}
    (h : ∀ view : StructureView, view.Inside data → ∀ type st, Defined (add view type st))
    (cursor : ℕ) (st : σ) : Defined (walkTable add data cursor st) := by
  induction hn : data.length - cursor using Nat.strongRecOn generalizing cursor st with
  | ind n ih =>
    rw [walkTable_eq]
    refine Defined.ite (fun hcursor => ?_) fun _ => defined_ok _
    apply (defined_structureAt cursor).bind
    rintro ⟨view, type, scan⟩ hat
    have hnext := lt_next_of_structureAt hat
    refine Defined.ite (fun _ => defined_ok _) fun _ => ?_
    apply (h view (inside_of_structureAt hat) type st).bind
    intro next _
    exact ih _ (by omega) view.next next rfl

/-- Choosing the board fails only as the source says. -/
theorem defined_selectBoard (boards : List BoardCandidate) : Defined (selectBoard boards) := by
  unfold selectBoard
  split
  · exact defined_ok _
  · exact defined_ok _
  · apply Defined.bind
    · apply Defined.foldlM
      intro kept board _
      exact Defined.ite (fun _ => defined_failErrc _) fun _ => defined_ok _
    · intro kept _
      exact Defined.ite (fun _ => defined_ok _) fun _ => defined_ok _

/-- No access of the walk is outside the buffer, whatever its bytes are. -/
theorem defined_parseSmbiosTable (data : List UInt8) (major minor : UInt8) :
    Defined (parseSmbiosTable data major minor) := by
  apply (defined_walkTable (fun _ hview type st => defined_addStructure hview type st) 0 _).bind
  intro walked _
  refine Defined.ite (fun _ => defined_failErrc _) fun _ => ?_
  exact (defined_selectBoard _).bind fun _ _ => defined_ok _

end Bounds

end Syscape.Smbios
