import Syscape.Software
import Syscape.Numbers
import Syscape.Utf8Text

/-!
# Local sockets

The table of the UNIX sockets has seven columns and, for a socket that is bound, its path
behind a blank. A path is not quoted in any way.
-/
namespace Syscape.Ipc
open Checked Text Lines Numbers
open Syscape.Software (isspace)

/-- `ipc_socket_type`. -/
inductive IpcSocketType where
  | unknown
  | stream
  | datagram
  | sequentialPacket
  deriving DecidableEq, Repr

/-- `ipc_socket_state`. -/
inductive IpcSocketState where
  | unknown
  | unconnected
  | connecting
  | connected
  | disconnecting
  | listening
  deriving DecidableEq, Repr

/-- `local_socket`. -/
structure LocalSocket where
  path : List UInt8
  inode : ℕ
  type : IpcSocketType
  state : IpcSocketState
  refCount : ℕ
  processIds : List ℤ
  deriving DecidableEq, Repr

/-- `inode_pid_map_type`; an inode that is no key has no processes. -/
abbrev InodePidMap := ℕ → List ℤ

/-- `parse_unsigned`. -/
def parseUnsigned (base max : ℕ) (text : List UInt8) : Option ℕ := numberOf base max text

/-- A number that a column has to be. -/
def requireUnsigned (base max : ℕ) (text : List UInt8) : Result ℕ :=
  match parseUnsigned base max text with
  | some value => .ok value
  | none => fail .malformedData

/-- `split_whitespace`. -/
def splitWhitespace (line : List UInt8) : List (List UInt8) := splitBlank isspace line

/-- `header_starts_with`. -/
def headerStartsWith (tokens expected : List (List UInt8)) : Bool := expected.isPrefixOf tokens

def expectedHeader : List (List UInt8) :=
  [ascii "Num", ascii "RefCount", ascii "Protocol", ascii "Flags", ascii "Type", ascii "St",
    ascii "Inode", ascii "Path"]

/-- The blanks that are skipped in front of a path. -/
def isPathBlank (c : UInt8) : Bool := c == 0x20 || c == 0x09

def socketType : ℕ → IpcSocketType
  | 1 => .stream
  | 2 => .datagram
  | 5 => .sequentialPacket
  | _ => .unknown

/-- The state of a socket; a flag says that it is listening. -/
def socketState (flags state : ℕ) : IpcSocketState :=
  if flags &&& 0x00010000 ≠ 0 ∨ flags &&& 0x00020000 ≠ 0 then .listening
  else
    match state with
    | 1 => .unconnected
    | 2 => .connecting
    | 3 => .connected
    | 4 => .disconnecting
    | _ => .unknown

/-- One row of the table. -/
def parseUnixLine (pidMap : InodePidMap) (line : List UInt8) : Result LocalSocket :=
  match takeTokens isspace 7 line with
  | some ([num, refCnt, proto, flags, type, state, inode], remaining) => do
    let num := if num.getLast? = some 0x3A then num.dropLast else num
    let _ ← requireUnsigned 16 uint64Max num
    let _ ← requireUnsigned 16 uint32Max proto
    let path := remaining.dropWhile isPathBlank
    let valid ← Utf8.isValidUtf8 path
    if ¬ valid then fail .invalidEncoding
    else do
      let inode ← requireUnsigned 10 uint64Max inode
      let refCount ← requireUnsigned 16 uint32Max refCnt
      let flags ← requireUnsigned 16 uint32Max flags
      let typeVal ← requireUnsigned 16 uint32Max type
      let stateVal ← requireUnsigned 16 uint32Max state
      .ok {
        path
        inode
        type := socketType typeVal
        state := socketState flags stateVal
        refCount
        processIds := pidMap inode }
  | _ => fail .malformedData

/-- One turn of the loop over the rows. -/
def addUnixLine (pidMap : InodePidMap) (list : List LocalSocket) (line : List UInt8) :
    Result (List LocalSocket) :=
  if line = [] then .ok list
  else do
    let sock ← parseUnixLine pidMap line
    .ok (list ++ [sock])

/-- `parse_proc_net_unix`. -/
def parseProcNetUnix (content : List UInt8) (pidMap : InodePidMap) : Result (List LocalSocket) :=
  match lines 0x0A content with
  | [] => fail .malformedData
  | header :: rows =>
    if ¬ headerStartsWith (splitWhitespace header) expectedHeader then fail .malformedData
    else rows.foldlM (addUnixLine pidMap) []

end Syscape.Ipc
