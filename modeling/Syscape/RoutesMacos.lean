import Syscape.NetworkCommon
import Syscape.Numbers
import Syscape.Lib.Endian
import Syscape.Lib.Frames

/-!
# Routes from a Darwin routing dump

The system answers with messages of a fixed header and socket addresses of varying length
behind it, selected by a bit mask. A socket address is known by its position in the message.
Numbers are in the byte order of the machine, and the layouts are those of Darwin.
-/
namespace Syscape.RoutesMacos
open Checked Endian Frames Network

section Source

def afInet : ℕ := 2
def afInet6 : ℕ := 30

def rtmVersion : ℕ := 5

def rtfUp : ℕ := 0x1
def rtfGateway : ℕ := 0x2
def rtfHost : ℕ := 0x4

/-- `excluded_flags`: reject, blackhole, unresolved, link-layer, local, broadcast, multicast,
condemned and dead routes. -/
def excludedFlags : ℕ :=
  0x8 ||| 0x1000 ||| 0x200 ||| 0x400 ||| 0x200000 ||| 0x400000 ||| 0x800000 ||| 0x2000000 |||
    0x20000000

/-- The socket addresses that are looked at, of `RTAX_MAX` kinds. -/
def rtaxDst : ℕ := 0
def rtaxGateway : ℕ := 1
def rtaxNetmask : ℕ := 2
def rtaxMax : ℕ := 8

/-- `darwin_sockaddr_size`. -/
def darwinSockaddrSize (saLen : ℕ) : ℕ :=
  let length := if saLen = 0 then 4 else saLen
  length + 3 - (length + 3) % 4

/-- The loop of `parse_darwin_sockaddrs` over the kinds of addresses. -/
def sockaddrLoop (mask : ℕ) (data : List UInt8) : List ℕ → ℕ → Result (List (Option ℕ))
  | [], _ => .ok []
  | index :: indices, offset =>
    if mask.testBit index = false then do
      let values ← sockaddrLoop mask data indices offset
      .ok (none :: values)
    else if data.length - offset < 2 then fail .malformedData
    else do
      let recorded ← readByte data offset
      let advance := darwinSockaddrSize recorded
      if (recorded ≠ 0 ∧ recorded < 2) ∨ advance > data.length - offset then fail .malformedData
      else do
        let values ← sockaddrLoop mask data indices (offset + advance)
        .ok (some offset :: values)

/-- `parse_darwin_sockaddrs`. -/
def parseDarwinSockaddrs (mask : ℕ) (data : List UInt8) : Result (List (Option ℕ)) :=
  sockaddrLoop mask data (List.range rtaxMax) 0

/-- `darwin_ip_address` of the socket address at a position. -/
def darwinIpAddress (order : ByteOrder) (data : List UInt8) (source expectedFamily : ℕ) :
    Result IpAddressRecord := do
  let saLen ← readByte data source
  let saFamily ← readByte data (source + 1)
  if expectedFamily = afInet then
    if saFamily ≠ afInet ∨ saLen < 16 then fail .malformedData
    else do
      let bytes ← slice data (source + 4) 4
      .ok ⟨.ipv4, addressValue bytes, 0⟩
  else if expectedFamily = afInet6 then
    if saFamily ≠ afInet6 ∨ saLen < 28 then fail .malformedData
    else do
      let bytes ← slice data (source + 8) 16
      let scope ← slice data (source + 24) 4
      .ok ⟨.ipv6, addressValue bytes, value order scope⟩
  else fail .notSupported

/-- The loop of `prefix_from_netmask` over the bits of a byte, of which the first `k` from below
are left: the prefix so far, and the mask at the end. -/
def maskLoop (byte : ℕ) : ℕ → ℕ → ℕ × ℕ
  | 0, length => (length, 0)
  | k + 1, length => if byte.testBit k then maskLoop byte k (length + 1) else (length, 2 ^ k)

/-- The loop of `prefix_from_netmask` over the bytes. -/
def netmaskLoop : List UInt8 → ℕ → Bool → Result ℕ
  | [], length, _ => .ok length
  | byte :: bytes, length, partialSeen =>
    if partialSeen then
      if byte ≠ 0 then fail .malformedData else netmaskLoop bytes length true
    else if byte = 0xFF then netmaskLoop bytes (length + 8) false
    else
      let (length, mask) := maskLoop byte.toNat 8 length
      if byte.toNat &&& (mask - 1) ≠ 0 then fail .malformedData
      else netmaskLoop bytes length true

/-- `prefix_from_netmask`; sixteen bytes have fewer bits than an 8-bit number counts. -/
def prefixFromNetmask (bytes : List UInt8) (maximum : ℕ) : Result ℕ := do
  let length ← netmaskLoop bytes 0 false
  if length > maximum then fail .malformedData else .ok length

/-- The bytes that `darwin_prefix_length` copies out of the netmask, with zeros behind them. -/
def netmaskBytes (data : List UInt8) (mask recorded addressOffset addressSize : ℕ) :
    Result (List UInt8) :=
  if recorded > addressOffset then do
    let copied ← slice data (mask + addressOffset) (min (recorded - addressOffset) addressSize)
    .ok (copied ++ List.replicate (addressSize - copied.length) 0)
  else .ok (List.replicate addressSize 0)

/-- `darwin_prefix_length`; no socket address is a null pointer. -/
def darwinPrefixLength (data : List UInt8) (mask : Option ℕ) (family : ℕ) : Result ℕ :=
  match mask with
  | none => .ok 0
  | some mask => do
    let addressOffset := if family = afInet then 4 else 8
    let addressSize := if family = afInet then 4 else 16
    let recorded ← readByte data mask
    let bytes ← netmaskBytes data mask recorded addressOffset addressSize
    prefixFromNetmask bytes (if family = afInet then 32 else 128)

/-- `rt_msghdr2`: length, version, type, interface index, flags and mask of addresses; the hop
count is among the metrics. -/
structure RtMsghdr2 where
  version : ℕ
  index : ℕ
  flags : ℕ
  addrs : ℕ
  hopcount : ℕ
  deriving DecidableEq, Repr

def readHeader (order : ByteOrder) (header : List UInt8) : Result RtMsghdr2 := do
  let version ← readByte header 2
  let index ← slice header 4 2
  let flags ← slice header 8 4
  let addrs ← slice header 12 4
  let hopcount ← slice header 44 4
  .ok ⟨version, value order index, value order flags, value order addrs, value order hopcount⟩

/-- The next hop of `append_darwin_route_message`. -/
def darwinNextHop (order : ByteOrder) (flags family : ℕ) (payload : List UInt8)
    (gateway : Option ℕ) : Result (Option IpAddressRecord) :=
  match gateway with
  | none => .ok none
  | some gateway => do
    let saFamily ← readByte payload (gateway + 1)
    if flags &&& rtfGateway ≠ 0 ∧ saFamily = family then do
      let convertedGateway ← darwinIpAddress order payload gateway family
      .ok (if isUnspecified convertedGateway then none else some convertedGateway)
    else .ok none

/-- `append_darwin_route_message`. -/
def appendDarwinRouteMessage (order : ByteOrder) (header : RtMsghdr2) (payload : List UInt8)
    (routes : List RouteRecord) : Result (List RouteRecord) :=
  if header.flags &&& rtfUp = 0 ∨ header.flags &&& excludedFlags ≠ 0 then .ok routes
  else if header.index = 0 then fail .malformedData
  else do
    let addresses ← parseDarwinSockaddrs header.addrs payload
    match addresses.getD rtaxDst none with
    | none => fail .malformedData
    | some destination => do
      let family ← readByte payload (destination + 1)
      if family ≠ afInet ∧ family ≠ afInet6 then .ok routes
      else do
        let convertedDestination ← darwinIpAddress order payload destination family
        let length ← darwinPrefixLength payload (addresses.getD rtaxNetmask none) family
        let nextHop ←
          darwinNextHop order header.flags family payload (addresses.getD rtaxGateway none)
        if header.hopcount > Numbers.uint32Max then fail .valueTooLarge
        else
          .ok (routes ++ [⟨convertedDestination, length, nextHop, header.index, some header.hopcount⟩])

/-- The messages of a dump: `sizeof(rt_msghdr2)` bytes, of which the first two give the length. -/
def messageLayout (order : ByteOrder) : Layout where
  headerSize := 92
  headerSize_pos := by decide
  lengthField header := value order (header.take 2)
  align length := length

/-- The body of the loop in `parse_darwin_route_dump`. -/
def dumpMessage (order : ByteOrder) (routes : List RouteRecord) (message : Frame) :
    Result (List RouteRecord) := do
  let header ← readHeader order message.header
  if header.version ≠ rtmVersion then fail .malformedData
  else appendDarwinRouteMessage order header message.payload routes

/-- `parse_darwin_route_dump`. -/
def parseDarwinRouteDump (order : ByteOrder) (data : List UInt8) : Result (List RouteRecord) :=
  walk (messageLayout order) (.syscape .malformedData) (dumpMessage order) [] data

end Source

section Bounds
variable {order : ByteOrder} {data : List UInt8}

/-- The bytes that a socket address takes are in the message. -/
def Stored (data : List UInt8) (offset : ℕ) : Prop :=
  ∃ b, data[offset]? = some b ∧ offset + darwinSockaddrSize b.toNat ≤ data.length

theorem le_darwinSockaddrSize (n : ℕ) : n ≤ darwinSockaddrSize n ∧ 2 ≤ darwinSockaddrSize n := by
  unfold darwinSockaddrSize
  split_ifs <;> dsimp only <;> omega

/-- What the scan of the addresses gives lies in the message. -/
theorem sockaddrLoop_stored (data : List UInt8) (mask : ℕ) (indices : List ℕ) (offset : ℕ)
    (hoffset : offset ≤ data.length) :
    Defined (sockaddrLoop mask data indices offset) ∧
      ∀ values, sockaddrLoop mask data indices offset = .ok values →
        ∀ source, some source ∈ values → Stored data source := by
  induction indices generalizing offset with
  | nil =>
    refine ⟨defined_ok _, ?_⟩
    intro values hvalues source hsource
    cases hvalues
    cases hsource
  | cons index indices ih =>
    unfold sockaddrLoop
    by_cases hbit : mask.testBit index = false
    · rw [if_pos hbit]
      obtain ⟨hdefined, hstored⟩ := ih offset hoffset
      refine ⟨hdefined.bind fun _ _ => defined_ok _, ?_⟩
      intro values hvalues source hsource
      obtain ⟨rest, hrest, hok⟩ := bind_eq_ok.mp hvalues
      cases hok
      simp only [List.mem_cons, reduceCtorEq, false_or] at hsource
      exact hstored rest hrest source hsource
    · rw [if_neg hbit]
      by_cases hshort : data.length - offset < 2
      · rw [if_pos hshort]
        exact ⟨defined_failErrc _, by simp⟩
      · rw [if_neg hshort, readByte_of_lt (by omega), ok_bind]
        simp only
        split_ifs with hmalformed
        · exact ⟨defined_failErrc _, by simp⟩
        · have hle : offset + darwinSockaddrSize data[offset].toNat ≤ data.length := by omega
          obtain ⟨hdefined, hstored⟩ := ih _ hle
          refine ⟨hdefined.bind fun _ _ => defined_ok _, ?_⟩
          intro values hvalues source hsource
          obtain ⟨rest, hrest, hok⟩ := bind_eq_ok.mp hvalues
          cases hok
          rcases List.mem_cons.mp hsource with hsource | hsource
          · cases hsource
            exact ⟨data[offset], List.getElem?_eq_getElem (by omega), hle⟩
          · exact hstored rest hrest source hsource

/-- Inside a socket address, its length and its family can be read, and so many bytes as its
length says. -/
theorem Stored.reads {source : ℕ} (h : Stored data source) :
    ∃ saLen, (readByte data source : Result ℕ) = .ok saLen ∧ source + saLen ≤ data.length ∧
      Defined (readByte data (source + 1) : Result ℕ) := by
  obtain ⟨b, hb, hle⟩ := h
  obtain ⟨hsize, htwo⟩ := le_darwinSockaddrSize b.toNat
  refine ⟨b.toNat, ?_, by omega, defined_readByte (by omega)⟩
  unfold readByte Checked.read
  rw [hb]
  rfl

theorem defined_darwinIpAddress {source : ℕ} (h : Stored data source) (expectedFamily : ℕ) :
    Defined (darwinIpAddress order data source expectedFamily) := by
  obtain ⟨saLen, hlen, hle, hfamily⟩ := h.reads
  unfold darwinIpAddress
  rw [hlen, ok_bind]
  apply hfamily.bind
  intro saFamily _
  refine Defined.ite (fun _ => ?_) fun _ => Defined.ite (fun _ => ?_) fun _ => defined_failErrc _
  · refine Defined.ite (fun _ => defined_failErrc _) fun hlong => ?_
    exact (defined_slice (by omega)).bind fun _ _ => defined_ok _
  · refine Defined.ite (fun _ => defined_failErrc _) fun hlong => ?_
    apply (defined_slice (by omega)).bind
    intro _ _
    exact (defined_slice (by omega)).bind fun _ _ => defined_ok _

theorem defined_netmaskLoop (bytes : List UInt8) (length : ℕ) (partialSeen : Bool) :
    Defined (netmaskLoop bytes length partialSeen) := by
  induction bytes generalizing length partialSeen with
  | nil => exact defined_ok _
  | cons byte bytes ih =>
    unfold netmaskLoop
    refine Defined.ite (fun _ => ?_) fun _ => Defined.ite (fun _ => ih _ _) fun _ => ?_
    · exact Defined.ite (fun _ => defined_failErrc _) fun _ => ih _ _
    · exact Defined.ite (fun _ => defined_failErrc _) fun _ => ih _ _

theorem defined_darwinPrefixLength {mask : Option ℕ} (h : ∀ source ∈ mask, Stored data source)
    (family : ℕ) : Defined (darwinPrefixLength data mask family) := by
  cases mask with
  | none => exact defined_ok _
  | some source =>
    obtain ⟨saLen, hlen, hle, -⟩ := (h source rfl).reads
    unfold darwinPrefixLength
    simp only [hlen, ok_bind]
    apply Defined.bind
    · refine Defined.ite (fun hlong => ?_) fun _ => defined_ok _
      exact (defined_slice (by omega)).bind fun _ _ => defined_ok _
    · intro bytes _
      apply (defined_netmaskLoop _ _ _).bind
      intro length _
      exact Defined.ite (fun _ => defined_failErrc _) fun _ => defined_ok _

theorem defined_darwinNextHop {gateway : Option ℕ} (h : ∀ source ∈ gateway, Stored data source)
    (flags family : ℕ) : Defined (darwinNextHop order flags family data gateway) := by
  cases gateway with
  | none => exact defined_ok _
  | some source =>
    obtain ⟨-, -, -, hfamily⟩ := (h source rfl).reads
    apply hfamily.bind
    intro saFamily _
    refine Defined.ite (fun _ => ?_) fun _ => defined_ok _
    exact (defined_darwinIpAddress (h source rfl) family).bind fun _ _ => defined_ok _

theorem defined_appendDarwinRouteMessage (header : RtMsghdr2) (routes : List RouteRecord) :
    Defined (appendDarwinRouteMessage order header data routes) := by
  obtain ⟨hdefined, hstored⟩ :=
    sockaddrLoop_stored data header.addrs (List.range rtaxMax) 0 (Nat.zero_le _)
  unfold appendDarwinRouteMessage
  refine Defined.ite (fun _ => defined_ok _) fun _ => ?_
  refine Defined.ite (fun _ => defined_failErrc _) fun _ => ?_
  apply hdefined.bind
  intro addresses haddresses
  have hvalue (kind : ℕ) : ∀ source ∈ addresses.getD kind none, Stored data source := by
    intro source hsource
    apply hstored addresses haddresses
    rw [List.getD_eq_getElem?_getD] at hsource
    cases hget : addresses[kind]? with
    | none => simp [hget] at hsource
    | some found =>
      rw [hget] at hsource
      exact Option.mem_def.mp hsource ▸ List.mem_of_getElem? hget
  cases hdestination : addresses.getD rtaxDst none with
  | none => exact defined_failErrc _
  | some destination =>
    have hplace : Stored data destination := hvalue rtaxDst destination (by rw [hdestination]; rfl)
    obtain ⟨-, -, -, hfamily⟩ := hplace.reads
    apply hfamily.bind
    intro family _
    refine Defined.ite (fun _ => defined_ok _) fun _ => ?_
    apply (defined_darwinIpAddress hplace family).bind
    intro _ _
    apply (defined_darwinPrefixLength (hvalue rtaxNetmask) family).bind
    intro _ _
    apply (defined_darwinNextHop (hvalue rtaxGateway) _ family).bind
    intro _ _
    exact Defined.ite (fun _ => defined_failErrc _) fun _ => defined_ok _

theorem defined_readHeader {header : List UInt8} (h : header.length = 92) :
    Defined (readHeader order header) := by
  unfold readHeader
  apply (defined_readByte (by omega)).bind
  intro version _
  apply (defined_slice (by omega)).bind
  intro index _
  apply (defined_slice (by omega)).bind
  intro flags _
  apply (defined_slice (by omega)).bind
  intro addrs _
  exact (defined_slice (by omega)).bind fun _ _ => defined_ok _

/-- Every read of a dump lies inside it. -/
theorem defined_parseDarwinRouteDump (data : List UInt8) :
    Defined (parseDarwinRouteDump order data) := by
  apply defined_walk
  intro routes message hmessage
  apply (defined_readHeader (length_header_of_mem_split hmessage)).bind
  intro header _
  exact Defined.ite (fun _ => defined_failErrc _) fun _ => defined_appendDarwinRouteMessage _ _

end Bounds

end Syscape.RoutesMacos
