import Syscape.Ipc

/-!
# System V objects

The tables of shared memory segments, message queues and semaphore sets have a header and a
row for each object. The parsers read the columns of a row by their positions, and refuse
the whole table at the first row that is not as they expect.
-/
namespace Syscape.Ipc
open Checked Text Lines FromChars Numbers

section Records

/-- `ipc_mechanism`. -/
inductive IpcMechanism where
  | unknown
  | posix
  | sysv
  | system
  deriving DecidableEq, Repr

/-- `shared_memory_segment`. -/
structure SharedMemorySegment where
  mechanism : IpcMechanism := .unknown
  key : Option ℤ := none
  id : ℕ := 0
  name : List UInt8 := []
  sizeBytes : ℕ := 0
  permissions : ℕ := 0
  attachedProcesses : Option ℕ := none
  creatorUid : Option ℕ := none
  creatorGid : Option ℕ := none
  ownerUid : Option ℕ := none
  ownerGid : Option ℕ := none
  creatorPid : Option ℤ := none
  lastChangePid : Option ℤ := none
  lastAttachTime : Option ℕ := none
  lastDetachTime : Option ℕ := none
  lastChangeTime : Option ℕ := none
  deriving DecidableEq, Repr

/-- `message_queue`. -/
structure MessageQueue where
  mechanism : IpcMechanism := .unknown
  key : Option ℤ := none
  id : ℕ := 0
  name : List UInt8 := []
  currentMessages : Option ℕ := none
  maxMessages : Option ℕ := none
  currentBytes : Option ℕ := none
  maxMessageBytes : Option ℕ := none
  permissions : ℕ := 0
  ownerUid : Option ℕ := none
  ownerGid : Option ℕ := none
  lastSendPid : Option ℤ := none
  lastReceivePid : Option ℤ := none
  lastSendTime : Option ℕ := none
  lastReceiveTime : Option ℕ := none
  lastChangeTime : Option ℕ := none
  deriving DecidableEq, Repr

/-- `semaphore_set`. -/
structure SemaphoreSet where
  mechanism : IpcMechanism := .unknown
  key : Option ℤ := none
  id : ℕ := 0
  name : List UInt8 := []
  semaphoreCount : ℕ := 0
  permissions : ℕ := 0
  ownerUid : Option ℕ := none
  ownerGid : Option ℕ := none
  lastOperationTime : Option ℕ := none
  lastChangeTime : Option ℕ := none
  deriving DecidableEq, Repr

end Records

section Helpers

/-- `parse_signed`. -/
def parseSigned (base bits : ℕ) (text : List UInt8) : Option ℤ :=
  let parsed := fromCharsSigned base bits text
  match parsed.value with
  | some value => if text ≠ [] ∧ parsed.read = text.length then some value else none
  | none => none

/-- A signed number that a column has to be. -/
def requireSigned (base bits : ℕ) (text : List UInt8) : Result ℤ :=
  match parseSigned base bits text with
  | some value => .ok value
  | none => fail .malformedData

/-- A value that is recorded when it is above zero. -/
def positive {α : Type} [LT α] [DecidableLT α] [Zero α] (value : α) : Option α :=
  if value > 0 then some value else none

/-- One turn of the loop over the rows. -/
def addRow {α : Type} (parseRow : List (List UInt8) → Result α) (list : List α)
    (line : List UInt8) : Result (List α) :=
  if line = [] then .ok list
  else do
    let record ← parseRow (splitWhitespace line)
    .ok (list ++ [record])

/-- What the three parsers have in common: the header they expect, and what they make of the
columns of a row. -/
def parseSysv {α : Type} (expectedHeader : List (List UInt8))
    (parseRow : List (List UInt8) → Result α) (content : List UInt8) : Result (List α) :=
  match lines 0x0A content with
  | [] => fail .malformedData
  | header :: rows =>
    if ¬ headerStartsWith (splitWhitespace header) expectedHeader then fail .malformedData
    else rows.foldlM (addRow parseRow) []

end Helpers

section Shm

def shmHeader : List (List UInt8) :=
  [ascii "key", ascii "shmid", ascii "perms", ascii "size", ascii "cpid", ascii "lpid",
    ascii "nattch", ascii "uid", ascii "gid", ascii "cuid", ascii "cgid", ascii "atime",
    ascii "dtime", ascii "ctime"]

/-- A row of `parse_sysv_shm`. -/
def shmRow : List (List UInt8) → Result SharedMemorySegment
  | key :: shmid :: perms :: size :: cpid :: lpid :: nattch :: uid :: gid :: cuid :: cgid ::
      atime :: dtime :: ctime :: _ => do
    let k ← requireSigned 10 64 key
    let id ← requireUnsigned 10 uint64Max shmid
    let permissions ← requireUnsigned 8 uint32Max perms
    let sizeBytes ← requireUnsigned 10 uint64Max size
    let cpid ← requireSigned 10 64 cpid
    let lpid ← requireSigned 10 64 lpid
    let nattch ← requireUnsigned 10 uint32Max nattch
    let uid ← requireUnsigned 10 uint32Max uid
    let gid ← requireUnsigned 10 uint32Max gid
    let cuid ← requireUnsigned 10 uint32Max cuid
    let cgid ← requireUnsigned 10 uint32Max cgid
    let atime ← requireUnsigned 10 uint64Max atime
    let dtime ← requireUnsigned 10 uint64Max dtime
    let ctime ← requireUnsigned 10 uint64Max ctime
    .ok {
      mechanism := .sysv
      key := some k
      id
      permissions
      sizeBytes
      creatorPid := positive cpid
      lastChangePid := positive lpid
      attachedProcesses := some nattch
      ownerUid := some uid
      ownerGid := some gid
      creatorUid := some cuid
      creatorGid := some cgid
      lastAttachTime := positive atime
      lastDetachTime := positive dtime
      lastChangeTime := positive ctime }
  | _ => fail .malformedData

/-- `parse_sysv_shm`. -/
def parseSysvShm (content : List UInt8) : Result (List SharedMemorySegment) :=
  parseSysv shmHeader shmRow content

end Shm

section Msg

def msgHeader : List (List UInt8) :=
  [ascii "key", ascii "msqid", ascii "perms", ascii "cbytes", ascii "qnum", ascii "lspid",
    ascii "lrpid", ascii "uid", ascii "gid", ascii "cuid", ascii "cgid", ascii "stime",
    ascii "rtime", ascii "ctime"]

/-- A row of `parse_sysv_msg`; the creator is read and not kept. -/
def msgRow : List (List UInt8) → Result MessageQueue
  | key :: msqid :: perms :: cbytes :: qnum :: lspid :: lrpid :: uid :: gid :: cuid :: cgid ::
      stime :: rtime :: ctime :: _ => do
    let k ← requireSigned 10 64 key
    let id ← requireUnsigned 10 uint64Max msqid
    let permissions ← requireUnsigned 8 uint32Max perms
    let cbytes ← requireUnsigned 10 uint64Max cbytes
    let qnum ← requireUnsigned 10 uint64Max qnum
    let lspid ← requireSigned 10 64 lspid
    let lrpid ← requireSigned 10 64 lrpid
    let uid ← requireUnsigned 10 uint32Max uid
    let gid ← requireUnsigned 10 uint32Max gid
    let _ ← requireUnsigned 10 uint32Max cuid
    let _ ← requireUnsigned 10 uint32Max cgid
    let stime ← requireUnsigned 10 uint64Max stime
    let rtime ← requireUnsigned 10 uint64Max rtime
    let ctime ← requireUnsigned 10 uint64Max ctime
    .ok {
      mechanism := .sysv
      key := some k
      id
      permissions
      currentBytes := some cbytes
      currentMessages := some qnum
      lastSendPid := positive lspid
      lastReceivePid := positive lrpid
      ownerUid := some uid
      ownerGid := some gid
      lastSendTime := positive stime
      lastReceiveTime := positive rtime
      lastChangeTime := positive ctime }
  | _ => fail .malformedData

/-- `parse_sysv_msg`. -/
def parseSysvMsg (content : List UInt8) : Result (List MessageQueue) :=
  parseSysv msgHeader msgRow content

end Msg

section Sem

def semHeader : List (List UInt8) :=
  [ascii "key", ascii "semid", ascii "perms", ascii "nsems", ascii "uid", ascii "gid",
    ascii "cuid", ascii "cgid", ascii "otime", ascii "ctime"]

/-- A row of `parse_sysv_sem`; the creator is read and not kept. -/
def semRow : List (List UInt8) → Result SemaphoreSet
  | key :: semid :: perms :: nsems :: uid :: gid :: cuid :: cgid :: otime :: ctime :: _ => do
    let k ← requireSigned 10 64 key
    let id ← requireUnsigned 10 uint64Max semid
    let permissions ← requireUnsigned 8 uint32Max perms
    let semaphoreCount ← requireUnsigned 10 uint32Max nsems
    let uid ← requireUnsigned 10 uint32Max uid
    let gid ← requireUnsigned 10 uint32Max gid
    let _ ← requireUnsigned 10 uint32Max cuid
    let _ ← requireUnsigned 10 uint32Max cgid
    let otime ← requireUnsigned 10 uint64Max otime
    let ctime ← requireUnsigned 10 uint64Max ctime
    .ok {
      mechanism := .sysv
      key := some k
      id
      permissions
      semaphoreCount
      ownerUid := some uid
      ownerGid := some gid
      lastOperationTime := positive otime
      lastChangeTime := positive ctime }
  | _ => fail .malformedData

/-- `parse_sysv_sem`. -/
def parseSysvSem (content : List UInt8) : Result (List SemaphoreSet) :=
  parseSysv semHeader semRow content

end Sem

end Syscape.Ipc
