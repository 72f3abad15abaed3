import Syscape.Error
import Syscape.Network
import Syscape.Lib.Endian
import Syscape.Lib.Frames

/-!
# Routes from a Linux netlink dump

The kernel answers a route request with datagrams of messages. A route message holds
attributes, and a multipath attribute holds next hops with attributes of their own; the
three loops are walks over length-prefixed records. Numbers are in the byte order of
the machine.
-/
namespace Syscape.Routes
open Checked Endian Frames Network

def afInet : ℕ := 2
def afInet6 : ℕ := 10

/-- The attribute types that `parse_route_attributes` looks at. -/
def rtaDst : ℕ := 1
def rtaOif : ℕ := 4
def rtaGateway : ℕ := 5
def rtaPriority : ℕ := 6
def rtaMultipath : ℕ := 9
def rtaVia : ℕ := 18
def linuxRtaNhId : ℕ := 30

def rtnUnicast : ℕ := 1

/-- The message types of a dump. -/
def nlmsgError : ℕ := 2
def nlmsgDone : ℕ := 3
def nlmsgOverrun : ℕ := 4
def rtmNewroute : ℕ := 24

def nlmFDumpIntr : ℕ := 0x10

/-- `netlink_align`, in the arithmetic of a 64-bit `std::size_t`. -/
def netlinkAlign (value : ℕ) : ℕ :=
  let padded := (value + 3) % 2 ^ 64
  padded - padded % 4

theorem le_netlinkAlign {value : ℕ} (h : value < 2 ^ 32) : value ≤ netlinkAlign value := by
  have hmod : (value + 3) % 2 ^ 64 = value + 3 := Nat.mod_eq_of_lt (by omega)
  simp only [netlinkAlign, hmod]
  omega

/-- The error with which the loops report a broken record. -/
def malformed : ErrorCode := .syscape .malformedData

/-- `netlink_address`. -/
def netlinkAddress (family : ℕ) (data : List UInt8) : Result IpAddressRecord :=
  if family = afInet then
    if data.length ≠ 4 then fail .malformedData
    else do
      let bytes ← slice data 0 4
      .ok ⟨.ipv4, addressValue bytes, 0⟩
  else if family = afInet6 then
    if data.length ≠ 16 then fail .malformedData
    else do
      let bytes ← slice data 0 16
      .ok ⟨.ipv6, addressValue bytes, 0⟩
  else fail .notSupported

/-- `linux_route_attributes`; `multipath` and `multipath_size` are the payload, if any. -/
structure LinuxRouteAttributes where
  destination : Option IpAddressRecord
  gateway : Option IpAddressRecord
  interfaceIndex : Option ℕ
  metric : Option ℕ
  hasNexthopId : Bool
  multipath : Option (List UInt8)
  deriving DecidableEq, Repr

def LinuxRouteAttributes.empty : LinuxRouteAttributes := ⟨none, none, none, none, false, none⟩

/-- `rtattr`: the length and the type, two bytes each. -/
def rtattrLayout (order : ByteOrder) : Layout where
  headerSize := 4
  headerSize_pos := by decide
  lengthField header := value order (header.take 2)
  align := netlinkAlign

/-- A payload that has to be one 32-bit number. -/
def payloadUInt32 (order : ByteOrder) (payload : List UInt8) : Result ℕ :=
  if payload.length ≠ 4 then fail .malformedData
  else do
    let bytes ← slice payload 0 4
    .ok (value order bytes)

/-- The body of the loop in `parse_route_attributes`. -/
def routeAttribute (order : ByteOrder) (family : ℕ) (parsed : LinuxRouteAttributes)
    (rtattr : Frame) : Result LinuxRouteAttributes :=
  let rtaType := value order (rtattr.header.drop 2)
  if rtaType = rtaDst then do
    let address ← netlinkAddress family rtattr.payload
    .ok { parsed with destination := some address }
  else if rtaType = rtaGateway then do
    let address ← netlinkAddress family rtattr.payload
    .ok { parsed with gateway := some address }
  else if rtaType = rtaOif then do
    let index ← payloadUInt32 order rtattr.payload
    .ok { parsed with interfaceIndex := some index }
  else if rtaType = rtaPriority then do
    let metric ← payloadUInt32 order rtattr.payload
    .ok { parsed with metric := some metric }
  else if rtaType = rtaMultipath then .ok { parsed with multipath := some rtattr.payload }
  else if rtaType = linuxRtaNhId then do
    let id ← payloadUInt32 order rtattr.payload
    if id = 0 then fail .malformedData else .ok { parsed with hasNexthopId := true }
  else if rtaType = rtaVia then fail .notSupported
  else .ok parsed

/-- `parse_route_attributes`. -/
def parseRouteAttributes (order : ByteOrder) (family : ℕ) (data : List UInt8) :
    Result LinuxRouteAttributes :=
  walk (rtattrLayout order) malformed (routeAttribute order family) .empty data

/-- `ipv6_link_local`. -/
def ipv6LinkLocal (address : IpAddressRecord) : Bool :=
  address.family = .ipv6 && address.value[0] == 0xFE && address.value[1] &&& 0xC0 == 0x80

/-- `make_linux_route`. -/
def makeLinuxRoute (family prefixLength : ℕ) (attributes : LinuxRouteAttributes)
    (interfaceIndex : ℕ) (gateway : Option IpAddressRecord) : RouteRecord where
  destination :=
    attributes.destination.getD
      ⟨if family = afInet then .ipv4 else .ipv6, addressValue [], 0⟩
  prefixLength := prefixLength
  nextHop := gateway.map fun address =>
    if ipv6LinkLocal address then { address with scopeId := interfaceIndex } else address
  interfaceIndex := interfaceIndex
  metric := attributes.metric

/-- `rtnexthop`: the length in two bytes, flags, hops, and the interface index. -/
def rtnexthopLayout (order : ByteOrder) : Layout where
  headerSize := 8
  headerSize_pos := by decide
  lengthField header := value order (header.take 2)
  align := netlinkAlign

/-- The body of the loop in `append_linux_multipath_routes`. -/
def multipathHop (order : ByteOrder) (family prefixLength : ℕ) (attributes : LinuxRouteAttributes)
    (routes : List RouteRecord) (hop : Frame) : Result (List RouteRecord) :=
  let ifindex := signed32 (value order (hop.header.drop 4))
  if ifindex ≤ 0 then fail .malformedData
  else do
    let nested ← parseRouteAttributes order family hop.payload
    .ok (routes ++ [makeLinuxRoute family prefixLength attributes ifindex.toNat nested.gateway])

/-- `append_linux_multipath_routes`. -/
def appendLinuxMultipathRoutes (order : ByteOrder) (family prefixLength : ℕ)
    (attributes : LinuxRouteAttributes) (multipath : List UInt8) (routes : List RouteRecord) :
    Result (List RouteRecord) :=
  if multipath = [] then fail .malformedData
  else
    walk (rtnexthopLayout order) malformed (multipathHop order family prefixLength attributes)
      routes multipath

/-- What `append_linux_route_message` does once it has the attributes. -/
def appendRoute (order : ByteOrder) (family prefixLength : ℕ) (attributes : LinuxRouteAttributes)
    (routes : List RouteRecord) : Result (List RouteRecord) :=
  if prefixLength ≠ 0 ∧ attributes.destination = none then fail .malformedData
  else
    match attributes.multipath with
    | some multipath =>
      appendLinuxMultipathRoutes order family prefixLength attributes multipath routes
    | none =>
      let index := attributes.interfaceIndex.getD 0
      if index = 0 then
        if attributes.hasNexthopId then fail .notSupported else fail .malformedData
      else .ok (routes ++ [makeLinuxRoute family prefixLength attributes index attributes.gateway])

/-- `append_linux_route_message`. The family, the destination length and the type are
the bytes 0, 1 and 7 of the twelve bytes of `rtmsg`. -/
def appendLinuxRouteMessage (order : ByteOrder) (data : List UInt8) (routes : List RouteRecord) :
    Result (List RouteRecord) :=
  if data.length < 12 then fail .malformedData
  else do
    let message ← slice data 0 12
    let family ← readByte message 0
    let dstLen ← readByte message 1
    let type ← readByte message 7
    if family ≠ afInet ∧ family ≠ afInet6 then .ok routes
    else if type ≠ rtnUnicast then .ok routes
    else if dstLen > maximumPrefixLength (if family = afInet then .ipv4 else .ipv6) then
      fail .malformedData
    else
      let attributeOffset := netlinkAlign 12
      if attributeOffset > data.length then fail .malformedData
      else
        let attributeBytes ← slice data attributeOffset (data.length - attributeOffset)
        let attributes ← parseRouteAttributes order family attributeBytes
        appendRoute order family dstLen attributes routes

/-- `linux_route_dump_state`. -/
structure LinuxRouteDumpState where
  routes : List RouteRecord
  complete : Bool
  deriving DecidableEq, Repr

def LinuxRouteDumpState.start : LinuxRouteDumpState := ⟨[], false⟩

/-- `nlmsghdr`: length, type, flags, sequence number and port. -/
def nlmsghdrLayout (order : ByteOrder) : Layout where
  headerSize := 16
  headerSize_pos := by decide
  lengthField header := value order (header.take 4)
  align := netlinkAlign

def messageType (order : ByteOrder) (message : Frame) : ℕ :=
  value order ((message.header.drop 4).take 2)

def messageFlags (order : ByteOrder) (message : Frame) : ℕ :=
  value order ((message.header.drop 6).take 2)

def messageSequence (order : ByteOrder) (message : Frame) : ℕ :=
  value order ((message.header.drop 8).take 4)

/-- `-error.error`, which the type `int` cannot hold for its least value. -/
def negateInt (n : ℤ) : Result ℤ := if n = -2 ^ 31 then .error .signedOverflow else .ok (-n)

/-- An `NLMSG_ERROR` message; the error is the first number of `nlmsgerr`. -/
def dumpError (order : ByteOrder) (state : LinuxRouteDumpState) (payload : List UInt8) :
    Result LinuxRouteDumpState :=
  if payload.length < 20 then fail .malformedData
  else do
    let nlmsgerr ← slice payload 0 20
    let error := signed32 (value order (nlmsgerr.take 4))
    if error ≠ 0 then
      let native ← if error < 0 then negateInt error else .ok error
      failErrno native
    else .ok state

/-- The body of the loop in `parse_linux_route_datagram`. -/
def dumpMessage (order : ByteOrder) (sequence : ℕ) (state : LinuxRouteDumpState)
    (message : Frame) : Result LinuxRouteDumpState :=
  if messageSequence order message ≠ sequence then fail .malformedData
  else if messageFlags order message &&& nlmFDumpIntr ≠ 0 then fail .temporarilyUnavailable
  else if messageType order message = nlmsgDone then .ok { state with complete := true }
  else if messageType order message = nlmsgError then dumpError order state message.payload
  else if messageType order message = rtmNewroute then do
    let routes ← appendLinuxRouteMessage order message.payload state.routes
    .ok { state with routes := routes }
  else if messageType order message = nlmsgOverrun then fail .temporarilyUnavailable
  else .ok state

/-- `parse_linux_route_datagram`. The data are the received bytes of the buffer. -/
def parseLinuxRouteDatagram (order : ByteOrder) (data : List UInt8) (sequence : ℕ)
    (state : LinuxRouteDumpState) : Result LinuxRouteDumpState :=
  walk (nlmsghdrLayout order) malformed (dumpMessage order sequence) state data

/-- What one `recvmsg` reports. -/
inductive Received where
  | failed (errno : ℤ)
  | datagram (data : List UInt8) (truncated : Bool) (senderPid : ℕ)
  deriving DecidableEq, Repr

/-- The receive loop of `routes`. It ends with a complete state; with a state that is not
complete it waits for the next datagram. -/
def receiveLoop (order : ByteOrder) (sequence : ℕ) :
    LinuxRouteDumpState → List Received → Result LinuxRouteDumpState
  | state, [] => .ok state
  | state, next :: received =>
    if state.complete then .ok state
    else
      match next with
      | .failed errno =>
        if errno = eintr then receiveLoop order sequence state received else failErrno errno
      | .datagram data truncated senderPid =>
        if data = [] then fail .temporarilyUnavailable
        else if truncated ∨ senderPid ≠ 0 then fail .malformedData
        else do
          let state ← parseLinuxRouteDatagram order data sequence state
          receiveLoop order sequence state received

/-- How the request of the dump goes: a system call fails, less than the request is sent,
or the kernel begins to answer. -/
inductive DumpRequest where
  | failed (errno : ℤ)
  | sentShort
  | answered (received : List Received)
  deriving DecidableEq, Repr

/-- `routes`; nothing is returned while the answer is not complete. -/
def routes (order : ByteOrder) : DumpRequest → Result (Option (List RouteRecord))
  | .failed errno => failErrno errno
  | .sentShort => fail .ioError
  | .answered received => do
    let state ← receiveLoop order 1 .start received
    .ok (if state.complete then some state.routes else none)

end Syscape.Routes
