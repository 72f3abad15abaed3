import Syscape.RouteMessages

/-!
# The datagrams of a route dump

The messages of a dump come in any number of datagrams, the last of which ends with
`NLMSG_DONE`. Folding the parser over the datagrams gives the records of all routes, in
order, wherever the datagrams are cut.
-/
namespace Syscape.Routes
open Checked Endian Frames Network LastValue

section Route
variable (order : ByteOrder)

/-- A forwarding route of the kernel, as the attributes of its message. The bytes of the
message header that the parser does not look at are free. -/
structure Route where
  family : AddressFamily
  prefixLength : ℕ
  prefix_le : prefixLength ≤ maximumPrefixLength family
  srcLen : UInt8
  tos : UInt8
  table : UInt8
  protocol : UInt8
  scope : UInt8
  flags : UInt32
  attributes : List (RouteAttribute order family)
  destination_given : prefixLength = 0 ∨
    lastOf (·.destination) (attributes.map RouteAttribute.fields) ≠ none
  egress : (∃ hops, lastOf RouteAttribute.hops attributes = some hops ∧ hops ≠ []) ∨
    (lastOf RouteAttribute.hops attributes = none ∧
      ∃ index, lastOf (·.interfaceIndex) (attributes.map RouteAttribute.fields) = some index ∧
        index ≠ 0)
  fits : 28 + (attributes.flatMap RouteAttribute.bytes).length < 2 ^ 32

variable {order}

lemma multipath_collected {family : AddressFamily}
    (attributes : List (RouteAttribute order family)) :
    (collected (attributes.map RouteAttribute.fields)).multipath =
      (lastOf RouteAttribute.hops attributes).map fun hops => hops.flatMap NextHop.bytes := by
  have hfields : ∀ attr : RouteAttribute order family,
      attr.fields.multipath = attr.hops.map fun hops => hops.flatMap NextHop.bytes := by
    intro attr
    cases attr with
    | plain attr => cases attr <;> rfl
    | multipath hops fits => rfl
  simp only [collected, lastOf_of_map, hfields, lastOf_map]

namespace Route

/-- `rtmsg`. -/
def header (route : Route order) : List UInt8 :=
  [UInt8.ofNat (familyNumber route.family), UInt8.ofNat route.prefixLength, route.srcLen, route.tos,
    route.table, route.protocol, route.scope, UInt8.ofNat rtnUnicast] ++
    encode order 4 route.flags.toNat

def payload (route : Route order) : List UInt8 :=
  route.header ++ route.attributes.flatMap RouteAttribute.bytes

/-- The record of one way to forward: a link-local gateway is scoped to the interface. -/
def record (route : Route order) (interfaceIndex : ℕ) (gateway : Option IpAddressRecord) :
    RouteRecord where
  destination :=
    (lastOf (·.destination) (route.attributes.map RouteAttribute.fields)).getD
      ⟨route.family, .replicate 16 0, 0⟩
  prefixLength := route.prefixLength
  nextHop := gateway.map fun address =>
    if LinkLocal address then { address with scopeId := interfaceIndex } else address
  interfaceIndex := interfaceIndex
  metric := lastOf (·.metric) (route.attributes.map RouteAttribute.fields)

/-- The records of a route: one for each next hop of a multipath, else one. -/
def records (route : Route order) : List RouteRecord :=
  match lastOf RouteAttribute.hops route.attributes with
  | some hops => hops.map fun hop => route.record hop.ifindex hop.gateway
  | none =>
    [route.record ((lastOf (·.interfaceIndex) (route.attributes.map RouteAttribute.fields)).getD 0)
      (lastOf (·.gateway) (route.attributes.map RouteAttribute.fields))]

theorem length_header (route : Route order) : route.header.length = 12 := by simp [header]

lemma makeLinuxRoute_eq (route : Route order) (interfaceIndex : ℕ)
    (gateway : Option IpAddressRecord) :
    makeLinuxRoute (familyNumber route.family) route.prefixLength
        (collected (route.attributes.map RouteAttribute.fields)) interfaceIndex gateway =
      route.record interfaceIndex gateway := by
  have hfamily : (if familyNumber route.family = afInet then AddressFamily.ipv4 else .ipv6) =
      route.family := by
    cases route.family <;> rfl
  have hzero : addressValue [] = .replicate 16 0 := rfl
  simp only [makeLinuxRoute, record, collected, hfamily, hzero, ipv6LinkLocal_iff]

theorem appendRoute_route (route : Route order) (routes : List RouteRecord) :
    appendRoute order (familyNumber route.family) route.prefixLength
        (collected (route.attributes.map RouteAttribute.fields)) routes =
      .ok (routes ++ route.records) := by
  have hgiven : ¬ (route.prefixLength ≠ 0 ∧
      (collected (route.attributes.map RouteAttribute.fields)).destination = none) := by
    rintro ⟨hne, hnone⟩
    rcases route.destination_given with h | h
    · exact hne h
    · exact h hnone
  unfold appendRoute records
  rw [if_neg hgiven, multipath_collected]
  rcases route.egress with ⟨hops, hhops, hne⟩ | ⟨hhops, index, hindex, hpos⟩
  · simp only [hhops, Option.map_some]
    rw [appendLinuxMultipathRoutes_bytes hops hne]
    simp only [makeLinuxRoute_eq]
  · have hcollected : (collected (route.attributes.map RouteAttribute.fields)).interfaceIndex =
        some index := hindex
    simp only [hhops, Option.map_none, hcollected, hindex, Option.getD_some, makeLinuxRoute_eq]
    rw [if_neg hpos]
    rfl

lemma readByte_header (route : Route order) :
    (readByte route.header 0 : Result ℕ) = .ok (familyNumber route.family) ∧
      (readByte route.header 1 : Result ℕ) = .ok route.prefixLength ∧
      (readByte route.header 7 : Result ℕ) = .ok rtnUnicast := by
  have hprefix : (UInt8.ofNat route.prefixLength).toNat = route.prefixLength := by
    have hle := route.prefix_le
    have h128 : maximumPrefixLength route.family ≤ 128 := by
      cases route.family <;> simp [maximumPrefixLength]
    rw [UInt8.toNat_ofNat']
    omega
  have hfamily : (UInt8.ofNat (familyNumber route.family)).toNat = familyNumber route.family := by
    cases route.family <;> rfl
  simp only [header, List.cons_append, readByte_cons_zero, readByte_cons_succ, hprefix, hfamily,
    true_and]
  rfl

/-- Reading the message of a route appends its records. -/
theorem appendLinuxRouteMessage_payload (route : Route order) (routes : List RouteRecord) :
    appendLinuxRouteMessage order route.payload routes = .ok (routes ++ route.records) := by
  have hheader := route.length_header
  obtain ⟨h0, h1, h7⟩ := route.readByte_header
  have halign : netlinkAlign 12 = 12 := rfl
  have hmessage : (slice route.payload 0 12 : Result (List UInt8)) = .ok route.header := by
    rw [slice_of_le (by simp [payload, hheader]), List.drop_zero, payload, List.take_left' hheader]
  have hattributes : (slice route.payload 12 (route.payload.length - 12) : Result (List UInt8)) =
      .ok (route.attributes.flatMap RouteAttribute.bytes) := by
    rw [slice_of_le (by simp [payload, hheader]), payload, List.drop_left' hheader,
      List.take_of_length_le (by simp [hheader])]
  have hfamily : ¬ (familyNumber route.family ≠ afInet ∧ familyNumber route.family ≠ afInet6) := by
    cases route.family <;> simp [familyNumber]
  have hprefix : ¬ route.prefixLength >
      maximumPrefixLength (if familyNumber route.family = afInet then .ipv4 else .ipv6) := by
    have hsame : (if familyNumber route.family = afInet then AddressFamily.ipv4 else .ipv6) =
        route.family := by
      cases route.family <;> rfl
    rw [hsame]
    exact Nat.not_lt.mpr route.prefix_le
  rw [appendLinuxRouteMessage, if_neg (by simp [payload, hheader]), hmessage, ok_bind, h0, ok_bind,
    h1, ok_bind, h7, ok_bind, if_neg hfamily, if_neg (by simp), if_neg hprefix, halign,
    if_neg (by simp [payload, hheader]), hattributes, ok_bind, parseRouteAttributes_route, ok_bind,
    appendRoute_route]

end Route

variable (order) in
/-- The payload of an `RTM_NEWROUTE` message: a forwarding route, or a message that the
query has no use for (another family, or a type other than `RTN_UNICAST`). -/
inductive RouteMessage where
  | forwarding (route : Route order)
  | skipped (family type : UInt8) (six : Vector UInt8 6) (rest : List UInt8)
    (other : (family.toNat ≠ afInet ∧ family.toNat ≠ afInet6) ∨ type.toNat ≠ rtnUnicast)
    (size : 4 ≤ rest.length) (fits : 24 + rest.length < 2 ^ 32)

namespace RouteMessage

def payload : RouteMessage order → List UInt8
  | .forwarding route => route.payload
  | .skipped family type six rest _ _ _ => family :: six.toList ++ type :: rest

/-- The records that a message stands for. -/
def records : RouteMessage order → List RouteRecord
  | .forwarding route => route.records
  | .skipped _ _ _ _ _ _ _ => []

theorem length_payload_lt (message : RouteMessage order) :
    16 + message.payload.length < 2 ^ 32 := by
  cases message with
  | forwarding route =>
    have hfits := route.fits
    have hheader := route.length_header
    simp only [payload, Route.payload, List.length_append, hheader]
    omega
  | skipped family type six rest other size fits =>
    simp [payload]
    omega

theorem appendLinuxRouteMessage_payload (message : RouteMessage order)
    (routes : List RouteRecord) :
    appendLinuxRouteMessage order message.payload routes = .ok (routes ++ message.records) := by
  cases message with
  | forwarding route => exact route.appendLinuxRouteMessage_payload routes
  | skipped family type six rest other size fits =>
    have hsplit : payload (.skipped family type six rest other size fits : RouteMessage order) =
        (family :: six.toList ++ type :: rest.take 4) ++ rest.drop 4 := by
      simp [payload]
    have hmessage : (family :: six.toList ++ type :: rest.take 4).length = 12 := by
      simp
      omega
    have h1 : ∃ dstLen, (readByte (family :: six.toList ++ type :: rest.take 4) 1 : Result ℕ) =
        .ok dstLen := ⟨_, readByte_of_lt (by omega)⟩
    have h7 : (readByte (family :: six.toList ++ type :: rest.take 4) 7 : Result ℕ) =
        .ok type.toNat := by
      have hsix : (readByte (six.toList ++ type :: rest.take 4) six.toList.length : Result ℕ) =
          readByte (type :: rest.take 4) 0 := readByte_append_length _ _
      rw [Vector.length_toList, readByte_cons_zero] at hsix
      rw [List.cons_append, readByte_cons_succ, hsix]
    obtain ⟨dstLen, h1⟩ := h1
    have hslice : (slice (payload (.skipped family type six rest other size fits :
        RouteMessage order)) 0 12 : Result (List UInt8)) =
          .ok (family :: six.toList ++ type :: rest.take 4) := by
      rw [hsplit, slice_of_le (by rw [List.length_append, hmessage]; omega), List.drop_zero,
        List.take_left' hmessage]
    rw [appendLinuxRouteMessage, if_neg (by rw [hsplit, List.length_append, hmessage]; omega),
      hslice, ok_bind, List.cons_append, readByte_cons_zero, ok_bind, ← List.cons_append, h1,
      ok_bind, h7, ok_bind]
    simp only [records, List.append_nil]
    by_cases hfamily : family.toNat ≠ afInet ∧ family.toNat ≠ afInet6
    · rw [if_pos hfamily]
    · rw [if_neg hfamily, if_pos (other.resolve_left hfamily)]

end RouteMessage

end Route

section Datagrams
variable {order : ByteOrder}

/-- The part of a message header that is free; the dump was not interrupted. -/
structure Envelope where
  flags : UInt16
  pid : UInt32
  not_interrupted : flags.toNat &&& nlmFDumpIntr = 0

/-- A message in memory. -/
def messageFrame (order : ByteOrder) (sequence : UInt32) (type : ℕ) (envelope : Envelope)
    (payload : List UInt8) : Frame where
  header := encode order 4 (16 + payload.length) ++ encode order 2 type ++
    encode order 2 envelope.flags.toNat ++ encode order 4 sequence.toNat ++
    encode order 4 envelope.pid.toNat
  payload := payload

section Fields
variable (sequence : UInt32) {type : ℕ} (envelope : Envelope) {payload : List UInt8}

theorem wellFormed_messageFrame (h : 16 + payload.length < 2 ^ 32) :
    (nlmsghdrLayout order).WellFormed (messageFrame order sequence type envelope payload) := by
  have hlength : (nlmsghdrLayout order).lengthField
      (messageFrame order sequence type envelope payload).header = 16 + payload.length := by
    simp only [nlmsghdrLayout, messageFrame, List.append_assoc]
    rw [List.take_left' (length_encode _ _ _)]
    exact value_encode order (by omega)
  constructor
  · simp [messageFrame, nlmsghdrLayout]
  · exact hlength
  · rw [Layout.advance, hlength]
    exact le_netlinkAlign h

theorem messageType_frame (h : type < 2 ^ 16) :
    messageType order (messageFrame order sequence type envelope payload) = type := by
  simp only [messageType, messageFrame, List.append_assoc]
  rw [List.drop_left' (length_encode _ _ _), List.take_left' (length_encode _ _ _)]
  exact value_encode order (by omega)

theorem messageFlags_frame :
    messageFlags order (messageFrame order sequence type envelope payload) =
      envelope.flags.toNat := by
  have hlt := envelope.flags.toNat_lt
  simp only [messageFlags, messageFrame]
  rw [List.append_assoc, List.append_assoc, List.drop_left' (by simp),
    List.take_left' (length_encode _ _ _)]
  exact value_encode order (by omega)

theorem messageSequence_frame :
    messageSequence order (messageFrame order sequence type envelope payload) =
      sequence.toNat := by
  have hlt := sequence.toNat_lt
  simp only [messageSequence, messageFrame]
  rw [List.append_assoc, List.drop_left' (by simp), List.take_left' (length_encode _ _ _)]
  exact value_encode order (by omega)

end Fields

variable (order) in
/-- A message of a dump with its envelope. -/
structure DumpRoute where
  envelope : Envelope
  message : RouteMessage order

def DumpRoute.frame (sequence : UInt32) (item : DumpRoute order) : Frame :=
  messageFrame order sequence rtmNewroute item.envelope item.message.payload

theorem dumpMessage_route (sequence : UInt32) (item : DumpRoute order)
    (state : LinuxRouteDumpState) :
    dumpMessage order sequence.toNat state (item.frame sequence) =
      .ok { state with routes := state.routes ++ item.message.records } := by
  have htype : messageType order (item.frame sequence) = rtmNewroute :=
    messageType_frame sequence item.envelope (by decide)
  have hflags : messageFlags order (item.frame sequence) = item.envelope.flags.toNat :=
    messageFlags_frame sequence item.envelope
  have hsequence : messageSequence order (item.frame sequence) = sequence.toNat :=
    messageSequence_frame sequence item.envelope
  have hpayload : (item.frame sequence).payload = item.message.payload := rfl
  unfold dumpMessage
  simp [htype, hflags, hsequence, hpayload, item.envelope.not_interrupted, rtmNewroute, nlmsgDone,
    nlmsgError, item.message.appendLinuxRouteMessage_payload]

/-- The message that ends a dump with the status zero. -/
def doneFrame (order : ByteOrder) (sequence : UInt32) (envelope : Envelope) : Frame :=
  messageFrame order sequence nlmsgDone envelope (encode order 4 0)

theorem dumpMessage_done (sequence : UInt32) (envelope : Envelope) (state : LinuxRouteDumpState) :
    dumpMessage order sequence.toNat state (doneFrame order sequence envelope) =
      .ok { state with complete := true } := by
  have htype : messageType order (doneFrame order sequence envelope) = nlmsgDone :=
    messageType_frame sequence envelope (by decide)
  have hflags : messageFlags order (doneFrame order sequence envelope) = envelope.flags.toNat :=
    messageFlags_frame sequence envelope
  have hsequence : messageSequence order (doneFrame order sequence envelope) = sequence.toNat :=
    messageSequence_frame sequence envelope
  unfold dumpMessage
  simp [htype, hflags, hsequence, envelope.not_interrupted]

/-- Some routes in one datagram. -/
def datagram (sequence : UInt32) (items : List (DumpRoute order)) : List UInt8 :=
  (items.map (DumpRoute.frame sequence)).flatMap (nlmsghdrLayout order).encode

/-- The last datagram: the last routes, then the end of the dump. -/
def lastDatagram (sequence : UInt32) (items : List (DumpRoute order)) (done : Envelope) :
    List UInt8 :=
  datagram sequence items ++ (nlmsghdrLayout order).encode (doneFrame order sequence done)

def recordsOf (items : List (DumpRoute order)) : List RouteRecord :=
  items.flatMap fun item => item.message.records

theorem wellFormed_frames (sequence : UInt32) (items : List (DumpRoute order)) :
    ∀ frame ∈ items.map (DumpRoute.frame sequence), (nlmsghdrLayout order).WellFormed frame := by
  intro frame hframe
  obtain ⟨item, -, rfl⟩ := List.mem_map.mp hframe
  exact wellFormed_messageFrame sequence item.envelope item.message.length_payload_lt

theorem foldlM_dumpMessage (sequence : UInt32) (items : List (DumpRoute order))
    (state : LinuxRouteDumpState) :
    (items.map (DumpRoute.frame sequence)).foldlM (dumpMessage order sequence.toNat) state =
      .ok { state with routes := state.routes ++ recordsOf items } := by
  induction items generalizing state with
  | nil => simp [recordsOf]
  | cons item items ih =>
    rw [List.map_cons, List.foldlM_cons, dumpMessage_route, ok_bind, ih]
    simp [recordsOf]

theorem parseLinuxRouteDatagram_datagram (sequence : UInt32) (items : List (DumpRoute order))
    (state : LinuxRouteDumpState) :
    parseLinuxRouteDatagram order (datagram sequence items) sequence.toNat state =
      .ok { state with routes := state.routes ++ recordsOf items } := by
  rw [parseLinuxRouteDatagram, datagram, walk_encode _ _ _ _ (wellFormed_frames sequence items),
    foldlM_dumpMessage]

theorem parseLinuxRouteDatagram_lastDatagram (sequence : UInt32) (items : List (DumpRoute order))
    (done : Envelope) (state : LinuxRouteDumpState) :
    parseLinuxRouteDatagram order (lastDatagram sequence items done) sequence.toNat state =
      .ok ⟨state.routes ++ recordsOf items, true⟩ := by
  have hbytes : lastDatagram sequence items done =
      (items.map (DumpRoute.frame sequence) ++ [doneFrame order sequence done]).flatMap
        (nlmsghdrLayout order).encode := by
    rw [List.flatMap_append, List.flatMap_singleton]
    rfl
  have hwell : ∀ frame ∈ items.map (DumpRoute.frame sequence) ++ [doneFrame order sequence done],
      (nlmsghdrLayout order).WellFormed frame := by
    intro frame hframe
    rcases List.mem_append.mp hframe with h | h
    · exact wellFormed_frames sequence items frame h
    · obtain rfl := List.mem_singleton.mp h
      exact wellFormed_messageFrame sequence done (by simp)
  rw [parseLinuxRouteDatagram, hbytes, walk_encode _ _ _ _ hwell, List.foldlM_append,
    foldlM_dumpMessage, ok_bind, List.foldlM_cons, dumpMessage_done]
  rfl

/-- The parser folded over datagrams, as `routes` calls it. -/
def foldDatagrams (order : ByteOrder) (sequence : ℕ) (datagrams : List (List UInt8)) :
    Result LinuxRouteDumpState :=
  datagrams.foldlM (fun state data => parseLinuxRouteDatagram order data sequence state) .start

theorem foldDatagrams_eq (sequence : UInt32) (parts : List (List (DumpRoute order)))
    (last : List (DumpRoute order)) (done : Envelope) :
    foldDatagrams order sequence.toNat
        (parts.map (datagram sequence) ++ [lastDatagram sequence last done]) =
      .ok ⟨recordsOf (parts.flatten ++ last), true⟩ := by
  have hparts : ∀ state : LinuxRouteDumpState, (parts.map (datagram sequence)).foldlM
      (fun state data => parseLinuxRouteDatagram order data sequence.toNat state) state =
        .ok { state with routes := state.routes ++ recordsOf parts.flatten } := by
    induction parts with
    | nil => simp [recordsOf]
    | cons part parts ih =>
      intro state
      rw [List.map_cons, List.foldlM_cons, parseLinuxRouteDatagram_datagram, ok_bind, ih]
      simp [recordsOf]
  rw [foldDatagrams, List.foldlM_append, hparts, ok_bind, List.foldlM_cons,
    parseLinuxRouteDatagram_lastDatagram]
  simp [recordsOf, LinuxRouteDumpState.start]

end Datagrams

/-- However the messages of the routes are split into datagrams, folding the parser gives
the records of all messages in order and completes the dump; and whatever a buffer holds
and however much of it was received, no walk reads behind what was received. -/
theorem route_dump_records (order : ByteOrder) :
    (∀ (sequence : UInt32) (parts : List (List (DumpRoute order))) (last : List (DumpRoute order))
      (done : Envelope),
      foldDatagrams order sequence.toNat
          (parts.map (datagram sequence) ++ [lastDatagram sequence last done]) =
        .ok ⟨(parts.flatten ++ last).flatMap fun item => item.message.records, true⟩) ∧
    (∀ (sequence : UInt32) (parts parts' : List (List (DumpRoute order)))
      (last last' : List (DumpRoute order)) (done done' : Envelope),
      parts.flatten ++ last = parts'.flatten ++ last' →
      foldDatagrams order sequence.toNat
          (parts.map (datagram sequence) ++ [lastDatagram sequence last done]) =
        foldDatagrams order sequence.toNat
          (parts'.map (datagram sequence) ++ [lastDatagram sequence last' done'])) ∧
    (∀ (buffer : List UInt8) (received sequence : ℕ) (state : LinuxRouteDumpState),
      Avoids .outOfBounds
        (parseLinuxRouteDatagram order (buffer.take received) sequence state)) := by
  refine ⟨foldDatagrams_eq, ?_, ?_⟩
  · intro sequence parts parts' last last' done done' hsame
    rw [foldDatagrams_eq, foldDatagrams_eq, hsame]
  · intro buffer received sequence state
    exact parseLinuxRouteDatagram_avoids _ sequence state

end Syscape.Routes
