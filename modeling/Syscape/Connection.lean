import Syscape.Software
import Syscape.Numbers
import Syscape.Lib.Endian
import Syscape.Lib.StdSort
import Mathlib.Logic.Function.Basic

/-!
# Connections and sockets

The kernel lists its sockets in four tables, one row a socket. A row names the inode of its
socket, and the descriptors of the processes name the inodes that these have open, so each
row is reported once for every owner. Address words and port numbers are hexadecimal; the
words of an address are printed as the machine stores them.
-/
namespace Syscape.Connection
open Checked Text Lines FromChars StdSort Endian Numbers
open Syscape.Software (isspace)

section Records

/-- `protocol`. -/
inductive Protocol where
  | tcp
  | udp
  deriving DecidableEq, Repr

/-- `tcp_state`. -/
inductive TcpState where
  | unknown
  | established
  | synSent
  | synRecv
  | finWait1
  | finWait2
  | timeWait
  | closed
  | closeWait
  | lastAck
  | listen
  | closing
  deriving DecidableEq, Repr

/-- `address_family`. -/
inductive AddressFamily where
  | ipv4
  | ipv6
  deriving DecidableEq, Repr

/-- `ip_address_record`. -/
structure IpAddressRecord where
  family : AddressFamily
  value : Vector UInt8 16
  scopeId : ℕ
  deriving DecidableEq, Repr

/-- `socket_endpoint_record`. -/
structure SocketEndpointRecord where
  address : IpAddressRecord
  port : ℕ
  deriving DecidableEq, Repr

/-- `connection_record`. -/
structure ConnectionRecord where
  transportProtocol : Protocol
  localEndpoint : SocketEndpointRecord
  remoteEndpoint : Option SocketEndpointRecord
  state : TcpState
  pid : Option ℕ
  uid : Option ℕ
  inode : Option ℕ
  sendQueueBytes : Option ℕ
  receiveQueueBytes : Option ℕ
  deriving DecidableEq, Repr

end Records

section Comparing

/-- The value of the enumerator. -/
def Protocol.number : Protocol → ℕ
  | .tcp => 0
  | .udp => 1

/-- The value of the enumerator. -/
def AddressFamily.number : AddressFamily → ℕ
  | .ipv4 => 0
  | .ipv6 => 1

/-- The value of the enumerator, which is also the number that the kernel uses. -/
def TcpState.number : TcpState → ℕ
  | .unknown => 0
  | .established => 1
  | .synSent => 2
  | .synRecv => 3
  | .finWait1 => 4
  | .finWait2 => 5
  | .timeWait => 6
  | .closed => 7
  | .closeWait => 8
  | .lastAck => 9
  | .listen => 10
  | .closing => 11

/-- `compare_ip_addresses`. -/
def compareIpAddresses : IpAddressRecord → IpAddressRecord → Bool :=
  fieldThen (·.family) (fun a b => decide (a.number < b.number)) <|
  fieldThen (·.value) (fun a b => decide (a.toList.map UInt8.toNat < b.toList.map UInt8.toNat)) <|
  fun a b => decide (a.scopeId < b.scopeId)

/-- `compare_endpoints`. -/
def compareEndpoints : SocketEndpointRecord → SocketEndpointRecord → Bool :=
  fieldThen (·.address) compareIpAddresses <|
  fun a b => decide (a.port < b.port)

/-- `compare_connection_records`. -/
def compareConnectionRecords : ConnectionRecord → ConnectionRecord → Bool :=
  fieldThen (·.transportProtocol) (fun a b => decide (a.number < b.number)) <|
  fieldThen (·.localEndpoint) compareEndpoints <|
  fieldThen (·.remoteEndpoint) (optionLess compareEndpoints) <|
  fieldThen (·.state) (fun a b => decide (a.number < b.number)) <|
  fieldThen (·.pid.getD 0) (fun a b => decide (a < b)) <|
  fun a b => decide (a.inode.getD 0 < b.inode.getD 0)

theorem strictTotal_compareIpAddresses : StrictTotal compareIpAddresses := by
  have hfamily : StrictTotal fun a b : AddressFamily => decide (a.number < b.number) := by
    apply StrictTotal.of_injective
    intro a b h
    cases a <;> cases b <;> simp_all [AddressFamily.number]
  have hvalue : StrictTotal fun a b : Vector UInt8 16 =>
      decide (a.toList.map UInt8.toNat < b.toList.map UInt8.toNat) := by
    have hinj : Function.Injective fun a : Vector UInt8 16 => a.toList.map UInt8.toNat := by
      intro a b h
      exact Vector.toList_inj.mp (List.map_injective_iff.mpr (fun _ _ h => UInt8.toNat_inj.mp h) h)
    convert StrictTotal.of_injective hinj using 3
    exact decide_eq_decide.mpr Iff.rfl
  have hscope : StrictTotal fun a b : ℕ => decide (a < b) :=
    StrictTotal.of_injective Function.injective_id
  refine ⟨.fieldThen hfamily (.fieldThen hvalue (hscope.on IpAddressRecord.scopeId)), ?_⟩
  intro a b hab hba
  have htie : Tie compareIpAddresses a b := ⟨hab, hba⟩
  rw [compareIpAddresses, tie_fieldThen_iff hfamily, tie_fieldThen_iff hvalue] at htie
  obtain ⟨hfamilies, hvalues, hscopes⟩ := htie
  have hscopeId : a.scopeId = b.scopeId := hscope.eq_of_not_lt _ _ hscopes.1 hscopes.2
  cases a
  cases b
  simp_all

theorem strictTotal_compareEndpoints : StrictTotal compareEndpoints := by
  have hport : StrictTotal fun a b : ℕ => decide (a < b) :=
    StrictTotal.of_injective Function.injective_id
  refine ⟨.fieldThen strictTotal_compareIpAddresses (hport.on SocketEndpointRecord.port), ?_⟩
  intro a b hab hba
  have htie : Tie compareEndpoints a b := ⟨hab, hba⟩
  rw [compareEndpoints, tie_fieldThen_iff strictTotal_compareIpAddresses] at htie
  have hports : a.port = b.port := hport.eq_of_not_lt _ _ htie.2.1 htie.2.2
  cases a
  cases b
  simp_all

/-- The comparison is one that the standard sort may be given. -/
theorem strictWeak_compareConnectionRecords : StrictWeak compareConnectionRecords := by
  have hprotocol : StrictTotal fun a b : Protocol => decide (a.number < b.number) := by
    apply StrictTotal.of_injective
    intro a b h
    cases a <;> cases b <;> simp_all [Protocol.number]
  have hstate : StrictTotal fun a b : TcpState => decide (a.number < b.number) := by
    apply StrictTotal.of_injective
    intro a b h
    cases a <;> cases b <;> simp_all [TcpState.number]
  have hnumber : StrictTotal fun a b : ℕ => decide (a < b) :=
    StrictTotal.of_injective Function.injective_id
  apply StrictWeak.fieldThen hprotocol
  apply StrictWeak.fieldThen strictTotal_compareEndpoints
  apply StrictWeak.fieldThen strictTotal_compareEndpoints.option
  apply StrictWeak.fieldThen hstate
  apply StrictWeak.fieldThen hnumber
  exact hnumber.on fun record : ConnectionRecord => record.inode.getD 0

end Comparing

section Addresses

/-- `parse_unsigned`. -/
def parseUnsigned (base max : ℕ) (text : List UInt8) : Option ℕ := numberOf base max text

/-- `store_proc_address_word`; the byte order is the one of the machine. -/
def storeProcAddressWord (order : ByteOrder) (value : ℕ) : Vector UInt8 4 :=
  match order with
  | .little =>
    #v[UInt8.ofNat (value &&& 0xFF), UInt8.ofNat (value >>> 8 &&& 0xFF),
      UInt8.ofNat (value >>> 16 &&& 0xFF), UInt8.ofNat (value >>> 24 &&& 0xFF)]
  | .big =>
    #v[UInt8.ofNat (value >>> 24 &&& 0xFF), UInt8.ofNat (value >>> 16 &&& 0xFF),
      UInt8.ofNat (value >>> 8 &&& 0xFF), UInt8.ofNat (value &&& 0xFF)]

/-- `parse_hex_ipv4`. -/
def parseHexIpv4 (order : ByteOrder) (hex : List UInt8) : Option (Vector UInt8 16) :=
  if hex.length ≠ 8 then none
  else do
    let value ← parseUnsigned 16 uint32Max hex
    some (storeProcAddressWord order value ++ (Vector.replicate 12 0 : Vector UInt8 12))

/-- `parse_hex_ipv6`. -/
def parseHexIpv6 (order : ByteOrder) (hex : List UInt8) : Option (Vector UInt8 16) :=
  if hex.length ≠ 32 then none
  else do
    let word0 ← parseUnsigned 16 uint32Max (hex.take 8)
    let word1 ← parseUnsigned 16 uint32Max ((hex.drop 8).take 8)
    let word2 ← parseUnsigned 16 uint32Max ((hex.drop 16).take 8)
    let word3 ← parseUnsigned 16 uint32Max ((hex.drop 24).take 8)
    some (storeProcAddressWord order word0 ++ storeProcAddressWord order word1 ++
      storeProcAddressWord order word2 ++ storeProcAddressWord order word3)

/-- `map_linux_tcp_state`. -/
def mapLinuxTcpState : ℕ → TcpState
  | 1 => .established
  | 2 => .synSent
  | 3 => .synRecv
  | 4 => .finWait1
  | 5 => .finWait2
  | 6 => .timeWait
  | 7 => .closed
  | 8 => .closeWait
  | 9 => .lastAck
  | 10 => .listen
  | 11 => .closing
  | _ => .unknown

def parseHexAddress (order : ByteOrder) (family : AddressFamily) (hex : List UInt8) :
    Option (Vector UInt8 16) :=
  match family with
  | .ipv4 => parseHexIpv4 order hex
  | .ipv6 => parseHexIpv6 order hex

/-- `parse_endpoint`. -/
def parseEndpoint (order : ByteOrder) (family : AddressFamily) (text : List UInt8) :
    Option SocketEndpointRecord :=
  match text.idxOf? 0x3A with
  | none => none
  | some colon => do
    let value ← parseHexAddress order family (text.take colon)
    let port ← parseUnsigned 16 uint32Max (text.drop (colon + 1))
    if port > 65535 then none else some ⟨⟨family, value, 0⟩, port⟩

/-- `is_unspecified_address`. -/
def isUnspecifiedAddress (family : AddressFamily) (value : Vector UInt8 16) : Bool :=
  match family with
  | .ipv4 => (value.toList.take 4).all (· == 0)
  | .ipv6 => value.toList.all (· == 0)

end Addresses

section Owners

/-- `inode_pid_map_type`; an inode that is no key has no owners. -/
abbrev InodePidMap := ℕ → List ℕ

/-- An entry of a descriptor directory: its name and what `readlink` reports. -/
structure FdEntry where
  name : List UInt8
  target : Option (List UInt8)
  deriving DecidableEq, Repr

/-- An entry of `/proc`: its name, and the entries of its descriptor directory, if that can
be opened. -/
structure ProcEntry where
  name : List UInt8
  fds : Option (List FdEntry)
  deriving DecidableEq, Repr

/-- The inode that the target of a link names; the buffer holds 255 bytes of it. -/
def socketInode (target : List UInt8) : Option ℕ :=
  let seen := target.take 255
  if seen.take 8 = ascii "socket:[" ∧ seen.length > 9 ∧ seen.getLast? = some 0x5D then
    parseUnsigned 10 uint64Max ((seen.drop 8).dropLast.takeWhile (· ≠ 0))
  else none

/-- An owner is noted once. -/
def addOwner (pid : ℕ) (map : InodePidMap) (inode : ℕ) : InodePidMap :=
  if pid ∈ map inode then map else Function.update map inode (map inode ++ [pid])

def scanDescriptor (pid : ℕ) (map : InodePidMap) (fd : FdEntry) : InodePidMap :=
  if fd.name.head? = some 0x2E then map
  else
    match fd.target.bind socketInode with
    | some inode => addOwner pid map inode
    | none => map

/-- The process number of an entry, if it is a directory of a process. -/
def entryPid (entry : ProcEntry) : Option ℕ :=
  if entry.name.head?.any (fun c => 0x30 ≤ c && c ≤ 0x39) then
    (parseUnsigned 10 uint32Max entry.name).filter (· ≠ 0)
  else none

def scanProcess (map : InodePidMap) (entry : ProcEntry) : InodePidMap :=
  match entryPid entry with
  | some pid => (entry.fds.getD []).foldl (scanDescriptor pid) map
  | none => map

/-- `build_inode_pid_map`, for the entries of `/proc` if that can be opened. -/
def buildInodePidMap (proc : Option (List ProcEntry)) : InodePidMap := fun inode =>
  ((proc.getD []).foldl scanProcess (fun _ => []) inode).mergeSort

end Owners

section Tables

/-- `parse_proc_net_line`. -/
def parseProcNetLine (order : ByteOrder) (line : List UInt8) (proto : Protocol)
    (family : AddressFamily) (inodePidMap : InodePidMap) : Option ConnectionRecord :=
  match splitBlank isspace line with
  | sl :: localAddr :: remAddr :: state :: queues :: _timer :: _retrans :: uid :: _timeout ::
      inode :: _ => do
    if sl.getLast? ≠ some 0x3A then none
    let localEndpoint ← parseEndpoint order family localAddr
    let remote ← parseEndpoint order family remAddr
    let stVal ← parseUnsigned 16 uint32Max state
    let colon ← queues.idxOf? 0x3A
    if 0x3A ∈ queues.drop (colon + 1) then none
    let txVal ← parseUnsigned 16 uint32Max (queues.take colon)
    let rxVal ← parseUnsigned 16 uint32Max (queues.drop (colon + 1))
    let uidVal ← parseUnsigned 10 uint32Max uid
    let inodeNum ← parseUnsigned 10 uint64Max inode
    some {
      transportProtocol := proto
      localEndpoint
      remoteEndpoint :=
        if isUnspecifiedAddress family remote.address.value ∧ remote.port = 0 then none
        else some remote
      state := if proto = .tcp then mapLinuxTcpState stVal else .unknown
      pid := (inodePidMap inodeNum).head?
      uid := some uidVal
      inode := some inodeNum
      sendQueueBytes := some txVal
      receiveQueueBytes := some rxVal }
  | _ => none

/-- `append_record_for_owners`. -/
def appendRecordForOwners (record : ConnectionRecord) (inodePidMap : InodePidMap)
    (outRecords : List ConnectionRecord) : List ConnectionRecord :=
  let owners := record.inode.elim [] inodePidMap
  if owners ≠ [] then outRecords ++ owners.map fun pid => { record with pid := some pid }
  else outRecords ++ [{ record with pid := none }]

/-- `ENOTDIR`. -/
def enotdir : ℤ := 20

/-- `EIO`. -/
def eio : ℤ := 5

/-- A table as a stream: it cannot be opened, or gives a text and then ends, or fails. -/
inductive NetFile where
  | unopenable (errno : ℤ)
  | opened (text : List UInt8) (readError : Option ℤ)
  deriving DecidableEq, Repr

/-- The lines that `std::getline` gives; a line that a failure cuts off is not among them. -/
def NetFile.lines (text : List UInt8) (readError : Option ℤ) : List (List UInt8) :=
  match readError with
  | none => Lines.lines 0x0A text
  | some _ => complete 0x0A text

/-- One row of a table. -/
def readProcNetLine (order : ByteOrder) (proto : Protocol) (family : AddressFamily)
    (inodePidMap : InodePidMap) (outRecords : List ConnectionRecord) (line : List UInt8) :
    Result (List ConnectionRecord) :=
  if line = [] then .ok outRecords
  else
    match parseProcNetLine order line proto family inodePidMap with
    | none => fail .malformedData
    | some record => .ok (appendRecordForOwners record inodePidMap outRecords)

/-- `read_proc_net_file`: whether there is such a table, and the records with those of its
rows. -/
def readProcNetFile (order : ByteOrder) (file : NetFile) (proto : Protocol)
    (family : AddressFamily) (inodePidMap : InodePidMap) (outRecords : List ConnectionRecord) :
    Result (Bool × List ConnectionRecord) :=
  match file with
  | .unopenable errno =>
    if errno = enoent ∨ errno = enotdir then .ok (false, outRecords)
    else failErrno (if errno ≠ 0 then errno else eio)
  | .opened text readError =>
    match NetFile.lines text readError with
    | [] => fail .malformedData
    | _header :: rows => do
      let records ← rows.foldlM (readProcNetLine order proto family inodePidMap) outRecords
      match readError with
      | none => .ok (true, records)
      | some errno => failErrno (if errno ≠ 0 then errno else eio)

/-- A table that `connections` reads. -/
structure Source where
  path : List UInt8
  protocol : Protocol
  family : AddressFamily
  deriving DecidableEq, Repr

def sources : List Source :=
  [⟨ascii "/proc/net/tcp", .tcp, .ipv4⟩, ⟨ascii "/proc/net/tcp6", .tcp, .ipv6⟩,
    ⟨ascii "/proc/net/udp", .udp, .ipv4⟩, ⟨ascii "/proc/net/udp6", .udp, .ipv6⟩]

/-- `connections`. -/
def connections (sorter : Sorter compareConnectionRecords) (order : ByteOrder)
    (proc : Option (List ProcEntry)) (files : List UInt8 → NetFile) :
    Result (List ConnectionRecord) := do
  let inodePidMap := buildInodePidMap proc
  let (anySourceFound, records) ← sources.foldlM (fun (found, records) item => do
    let (present, records) ←
      readProcNetFile order (files item.path) item.protocol item.family inodePidMap records
    .ok (found || present, records)) (false, [])
  if ¬ anySourceFound then fail .notSupported
  else .ok (sorter.sort records)

end Tables

end Syscape.Connection
