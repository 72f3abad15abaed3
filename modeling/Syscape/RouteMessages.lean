import Syscape.RoutesLinux
import Syscape.Lib.Hex
import Syscape.Lib.LastValue
import Mathlib.Data.List.Induction

/-!
# Route messages as the kernel writes them

A route is a list of attributes; it is written as an `RTM_NEWROUTE` message whose
attributes and next hops are padded to four bytes. Reading the messages of any datagrams
gives the records of the routes, and no walk leaves the received bytes.
-/
namespace Syscape.Routes
open Checked Endian Frames Network LastValue

section Bounds
variable {order : ByteOrder}

theorem defined_netlinkAddress (family : ℕ) (data : List UInt8) :
    Defined (netlinkAddress family data) := by
  unfold netlinkAddress
  split_ifs with h4 hlen h6 hlen
  · exact defined_failErrc _
  · exact (defined_slice (by omega)).bind fun _ _ => defined_ok _
  · exact defined_failErrc _
  · exact (defined_slice (by omega)).bind fun _ _ => defined_ok _
  · exact defined_failErrc _

theorem defined_payloadUInt32 (payload : List UInt8) : Defined (payloadUInt32 order payload) := by
  unfold payloadUInt32
  split_ifs with h
  · exact defined_failErrc _
  · exact (defined_slice (by omega)).bind fun _ _ => defined_ok _

theorem defined_routeAttribute (family : ℕ) (parsed : LinuxRouteAttributes) (rtattr : Frame) :
    Defined (routeAttribute order family parsed rtattr) := by
  unfold routeAttribute
  simp only
  split_ifs
  · exact (defined_netlinkAddress _ _).bind fun _ _ => defined_ok _
  · exact (defined_netlinkAddress _ _).bind fun _ _ => defined_ok _
  · exact (defined_payloadUInt32 _).bind fun _ _ => defined_ok _
  · exact (defined_payloadUInt32 _).bind fun _ _ => defined_ok _
  · exact defined_ok _
  · apply (defined_payloadUInt32 _).bind
    intro id _
    split_ifs
    · exact defined_failErrc _
    · exact defined_ok _
  · exact defined_failErrc _
  · exact defined_ok _

theorem defined_parseRouteAttributes (family : ℕ) (data : List UInt8) :
    Defined (parseRouteAttributes order family data) :=
  defined_walk _ _ fun parsed rtattr _ => defined_routeAttribute family parsed rtattr

theorem defined_multipathHop (family prefixLength : ℕ) (attributes : LinuxRouteAttributes)
    (routes : List RouteRecord) (hop : Frame) :
    Defined (multipathHop order family prefixLength attributes routes hop) := by
  unfold multipathHop
  simp only
  split_ifs
  · exact defined_failErrc _
  · exact (defined_parseRouteAttributes _ _).bind fun _ _ => defined_ok _

theorem defined_appendRoute (family prefixLength : ℕ) (attributes : LinuxRouteAttributes)
    (routes : List RouteRecord) :
    Defined (appendRoute order family prefixLength attributes routes) := by
  unfold appendRoute
  refine Defined.ite (fun _ => defined_failErrc _) fun _ => ?_
  cases attributes.multipath with
  | some multipath =>
    refine Defined.ite (fun _ => defined_failErrc _) fun _ => ?_
    exact defined_walk _ _ fun routes hop _ => defined_multipathHop _ _ _ routes hop
  | none =>
    refine Defined.ite (fun _ => ?_) fun _ => defined_ok _
    exact Defined.ite (fun _ => defined_failErrc _) fun _ => defined_failErrc _

theorem defined_appendLinuxRouteMessage (data : List UInt8) (routes : List RouteRecord) :
    Defined (appendLinuxRouteMessage order data routes) := by
  unfold appendLinuxRouteMessage
  refine Defined.ite (fun _ => defined_failErrc _) fun hlen => ?_
  apply (defined_slice (by omega)).bind
  intro message hmessage
  have hlength : message.length = 12 := by
    obtain ⟨-, rfl⟩ := slice_eq_ok.mp hmessage
    rw [List.drop_zero, List.length_take]
    omega
  apply (defined_readByte (by omega)).bind
  intro family _
  apply (defined_readByte (by omega)).bind
  intro dstLen _
  apply (defined_readByte (by omega)).bind
  intro type _
  refine Defined.ite (fun _ => defined_ok _) fun _ => ?_
  refine Defined.ite (fun _ => defined_ok _) fun _ => ?_
  refine Defined.ite (fun _ => defined_failErrc _) fun _ => ?_
  refine Defined.ite (fun _ => defined_failErrc _) fun _ => ?_
  apply (defined_slice (by omega)).bind
  intro attributeBytes _
  apply (defined_parseRouteAttributes _ _).bind
  intro attributes _
  exact defined_appendRoute _ _ _ _

theorem dumpError_avoids (state : LinuxRouteDumpState) (payload : List UInt8) :
    Avoids .outOfBounds (dumpError order state payload) := by
  unfold dumpError
  split_ifs with hlen
  · simp [Avoids, fail]
  · rw [slice_of_le (by omega), ok_bind]
    simp only
    split_ifs
    · simp [Avoids, negateInt]
      split_ifs <;> simp [failErrno]
    · simp [Avoids, failErrno]
    · exact avoids_ok _ _

theorem dumpMessage_avoids (sequence : ℕ) (state : LinuxRouteDumpState) (message : Frame) :
    Avoids .outOfBounds (dumpMessage order sequence state message) := by
  unfold dumpMessage
  split_ifs
  · simp [Avoids, fail]
  · simp [Avoids, fail]
  · exact avoids_ok _ _
  · exact dumpError_avoids state message.payload
  · apply Avoids.bind
    · exact (defined_appendLinuxRouteMessage _ _).avoids (by simp)
    · intro routes _
      exact avoids_ok _ _
  · simp [Avoids, fail]
  · exact avoids_ok _ _

/-- Every read of a datagram lies inside the bytes that were received. -/
theorem parseLinuxRouteDatagram_avoids (data : List UInt8) (sequence : ℕ)
    (state : LinuxRouteDumpState) :
    Avoids .outOfBounds (parseLinuxRouteDatagram order data sequence state) :=
  walk_avoids (by simp) _ _ fun state message _ => dumpMessage_avoids sequence state message

end Bounds

section Attributes

/-- The number of bytes of an address. -/
def addressSize : AddressFamily → ℕ
  | .ipv4 => 4
  | .ipv6 => 16

/-- The number of a family in a message. -/
def familyNumber : AddressFamily → ℕ
  | .ipv4 => afInet
  | .ipv6 => afInet6

/-- The bytes of an address of a family. -/
structure Address (family : AddressFamily) where
  bytes : List UInt8
  length_eq : bytes.length = addressSize family

/-- The bytes of the address, and zeros behind them. -/
def Address.record {family : AddressFamily} (address : Address family) : IpAddressRecord where
  family := family
  value :=
    ⟨(address.bytes ++ List.replicate (16 - addressSize family) 0).toArray, by
      rw [List.size_toArray, List.length_append, List.length_replicate, address.length_eq]
      cases family <;> rfl⟩
  scopeId := 0

theorem addressValue_bytes {family : AddressFamily} (address : Address family) :
    addressValue address.bytes = address.record.value := by
  apply Vector.ext
  intro i hi
  rw [addressValue, Vector.getElem_ofFn, Address.record, Vector.getElem_mk, List.getElem_toArray,
    List.getElem_append, List.getD_eq_getElem?_getD]
  split_ifs with h
  · rw [List.getElem?_eq_getElem h, Option.getD_some]
  · rw [List.getElem?_eq_none (Nat.le_of_not_lt h), Option.getD_none, List.getElem_replicate]

/-- The address lies between `fe80::` and `febf:ffff:…`. -/
def LinkLocal (address : IpAddressRecord) : Prop :=
  address.family = .ipv6 ∧ address.value[0]! = 0xFE ∧ (0x80 : UInt8) ≤ address.value[1]! ∧
    address.value[1]! ≤ 0xBF

instance (address : IpAddressRecord) : Decidable (LinkLocal address) :=
  inferInstanceAs (Decidable (_ ∧ _))

theorem ipv6LinkLocal_iff (address : IpAddressRecord) :
    ipv6LinkLocal address = true ↔ LinkLocal address := by
  have hmask : ∀ c : UInt8, c &&& 0xC0 = 0x80 ↔ 0x80 ≤ c ∧ c ≤ 0xBF :=
    Hex.forall_byte (by decide +kernel)
  simp [ipv6LinkLocal, LinkLocal, hmask, and_assoc]

/-- The attribute types that the parser reacts to. -/
def recognisedTypes : List ℕ :=
  [rtaDst, rtaOif, rtaGateway, rtaPriority, rtaMultipath, rtaVia, linuxRtaNhId]

/-- An attribute that is not a multipath. -/
inductive Attribute (family : AddressFamily) where
  | destination (address : Address family)
  | gateway (address : Address family)
  | oif (index : UInt32)
  | priority (metric : UInt32)
  | nexthopId (id : UInt32) (nonzero : id ≠ 0)
  | other (rtaType : ℕ) (payload : List UInt8) (type_lt : rtaType < 2 ^ 16)
    (unrecognised : rtaType ∉ recognisedTypes) (fits : 4 + payload.length < 2 ^ 16)

namespace Attribute
variable {family : AddressFamily}

def rtaType : Attribute family → ℕ
  | .destination _ => rtaDst
  | .gateway _ => rtaGateway
  | .oif _ => rtaOif
  | .priority _ => rtaPriority
  | .nexthopId _ _ => linuxRtaNhId
  | .other rtaType _ _ _ _ => rtaType

def payload (order : ByteOrder) : Attribute family → List UInt8
  | .destination address => address.bytes
  | .gateway address => address.bytes
  | .oif index => encode order 4 index.toNat
  | .priority metric => encode order 4 metric.toNat
  | .nexthopId id _ => encode order 4 id.toNat
  | .other _ payload _ _ _ => payload

/-- What the attribute says about each field of the route. -/
def fields : Attribute family → LinuxRouteAttributes
  | .destination address => { LinuxRouteAttributes.empty with destination := some address.record }
  | .gateway address => { LinuxRouteAttributes.empty with gateway := some address.record }
  | .oif index => { LinuxRouteAttributes.empty with interfaceIndex := some index.toNat }
  | .priority metric => { LinuxRouteAttributes.empty with metric := some metric.toNat }
  | .nexthopId _ _ => { LinuxRouteAttributes.empty with hasNexthopId := true }
  | .other _ _ _ _ _ => LinuxRouteAttributes.empty

theorem length_payload_lt (order : ByteOrder) (attr : Attribute family) :
    4 + (attr.payload order).length < 2 ^ 16 := by
  cases attr with
  | destination address => cases family <;> simp [payload, address.length_eq, addressSize]
  | gateway address => cases family <;> simp [payload, address.length_eq, addressSize]
  | oif index => simp [payload]
  | priority metric => simp [payload]
  | nexthopId id nonzero => simp [payload]
  | other rtaType payload type_lt unrecognised fits => exact fits

theorem rtaType_lt (attr : Attribute family) : attr.rtaType < 2 ^ 16 := by
  cases attr with
  | other rtaType payload type_lt unrecognised fits => exact type_lt
  | _ => simp [rtaType, rtaDst, rtaGateway, rtaOif, rtaPriority, linuxRtaNhId]

end Attribute

/-- An attribute in memory. -/
def attributeFrame (order : ByteOrder) (rtaType : ℕ) (payload : List UInt8) : Frame where
  header := encode order 2 (4 + payload.length) ++ encode order 2 rtaType
  payload := payload

theorem wellFormed_attributeFrame (order : ByteOrder) (rtaType : ℕ) {payload : List UInt8}
    (h : 4 + payload.length < 2 ^ 16) :
    (rtattrLayout order).WellFormed (attributeFrame order rtaType payload) := by
  have hlength : (rtattrLayout order).lengthField (attributeFrame order rtaType payload).header =
      4 + payload.length := by
    simp only [rtattrLayout, attributeFrame]
    rw [List.take_left' (length_encode _ _ _)]
    exact value_encode order (by omega)
  constructor
  · simp [attributeFrame, rtattrLayout]
  · exact hlength
  · rw [Layout.advance, hlength]
    exact le_netlinkAlign (by omega)

theorem rtaType_attributeFrame (order : ByteOrder) {rtaType : ℕ} (payload : List UInt8)
    (h : rtaType < 2 ^ 16) :
    value order ((attributeFrame order rtaType payload).header.drop 2) = rtaType := by
  simp only [attributeFrame]
  rw [List.drop_left' (length_encode _ _ _)]
  exact value_encode order (by omega)

/-- Later fields replace earlier ones. -/
def LinuxRouteAttributes.update (parsed new : LinuxRouteAttributes) : LinuxRouteAttributes where
  destination := new.destination.or parsed.destination
  gateway := new.gateway.or parsed.gateway
  interfaceIndex := new.interfaceIndex.or parsed.interfaceIndex
  metric := new.metric.or parsed.metric
  hasNexthopId := parsed.hasNexthopId || new.hasNexthopId
  multipath := new.multipath.or parsed.multipath

lemma netlinkAddress_bytes {family : AddressFamily} (address : Address family) :
    netlinkAddress (familyNumber family) address.bytes = .ok address.record := by
  have hlength := address.length_eq
  cases family with
  | ipv4 =>
    have h4 : address.bytes.length = 4 := hlength
    have hslice : (slice address.bytes 0 4 : Result (List UInt8)) = .ok address.bytes := by
      rw [slice_of_le (by omega), List.drop_zero, ← h4, List.take_length]
    simp [netlinkAddress, familyNumber, h4, hslice, addressValue_bytes, Address.record]
  | ipv6 =>
    have h16 : address.bytes.length = 16 := hlength
    have hslice : (slice address.bytes 0 16 : Result (List UInt8)) = .ok address.bytes := by
      rw [slice_of_le (by omega), List.drop_zero, ← h16, List.take_length]
    simp [netlinkAddress, familyNumber, afInet, afInet6, h16, hslice, addressValue_bytes, Address.record]

lemma payloadUInt32_encode (order : ByteOrder) (n : UInt32) :
    payloadUInt32 order (encode order 4 n.toNat) = .ok n.toNat := by
  have hslice : (slice (encode order 4 n.toNat) 0 4 : Result (List UInt8)) =
      .ok (encode order 4 n.toNat) := by
    rw [slice_of_le (by simp), List.drop_zero, List.take_of_length_le (by simp)]
  have hlt := n.toNat_lt
  simp [payloadUInt32, hslice, value_encode order (show n.toNat < 256 ^ 4 by omega)]

/-- The body of the attribute loop on an attribute. -/
theorem routeAttribute_frame (order : ByteOrder) {family : AddressFamily}
    (parsed : LinuxRouteAttributes) (attr : Attribute family) :
    routeAttribute order (familyNumber family) parsed
        (attributeFrame order attr.rtaType (attr.payload order)) =
      .ok (parsed.update attr.fields) := by
  unfold routeAttribute
  simp only
  rw [rtaType_attributeFrame order _ attr.rtaType_lt]
  cases attr with
  | destination address =>
    simp [Attribute.rtaType, Attribute.payload, Attribute.fields, attributeFrame,
      netlinkAddress_bytes, LinuxRouteAttributes.update, LinuxRouteAttributes.empty]
  | gateway address =>
    simp [Attribute.rtaType, Attribute.payload, Attribute.fields, attributeFrame, rtaDst, rtaGateway,
      netlinkAddress_bytes, LinuxRouteAttributes.update, LinuxRouteAttributes.empty]
  | oif index =>
    simp [Attribute.rtaType, Attribute.payload, Attribute.fields, attributeFrame, rtaDst, rtaGateway,
      rtaOif, payloadUInt32_encode, LinuxRouteAttributes.update, LinuxRouteAttributes.empty]
  | priority metric =>
    simp [Attribute.rtaType, Attribute.payload, Attribute.fields, attributeFrame, rtaDst, rtaGateway,
      rtaOif, rtaPriority, payloadUInt32_encode, LinuxRouteAttributes.update,
      LinuxRouteAttributes.empty]
  | nexthopId id nonzero =>
    have hid : id.toNat ≠ 0 := by
      intro h
      exact nonzero (UInt32.toNat_inj.mp (by simpa using h))
    simp [Attribute.rtaType, Attribute.payload, Attribute.fields, attributeFrame, rtaDst, rtaGateway,
      rtaOif, rtaPriority, rtaMultipath, linuxRtaNhId, payloadUInt32_encode, hid,
      LinuxRouteAttributes.update, LinuxRouteAttributes.empty]
  | other rtaType payload type_lt unrecognised fits =>
    simp only [recognisedTypes, List.mem_cons, List.not_mem_nil, or_false, not_or] at unrecognised
    obtain ⟨h1, h2, h3, h4, h5, h6, h7⟩ := unrecognised
    simp [Attribute.rtaType, Attribute.fields, h1, h2, h3, h4, h5, h6, h7,
      LinuxRouteAttributes.update, LinuxRouteAttributes.empty]

/-- The fields after a list of attributes: each the one that is given last. -/
def collected (items : List LinuxRouteAttributes) : LinuxRouteAttributes where
  destination := lastOf (·.destination) items
  gateway := lastOf (·.gateway) items
  interfaceIndex := lastOf (·.interfaceIndex) items
  metric := lastOf (·.metric) items
  hasNexthopId := items.any (·.hasNexthopId)
  multipath := lastOf (·.multipath) items

theorem collected_concat (items : List LinuxRouteAttributes) (new : LinuxRouteAttributes) :
    collected (items ++ [new]) = (collected items).update new := by
  simp [collected, LinuxRouteAttributes.update, lastOf_concat]

/-- A loop whose body updates the fields collects them. -/
theorem foldlM_update {ι : Type} (items : List ι) (fields : ι → LinuxRouteAttributes)
    (body : LinuxRouteAttributes → ι → Result LinuxRouteAttributes)
    (h : ∀ parsed, ∀ item ∈ items, body parsed item = .ok (parsed.update (fields item))) :
    items.foldlM body .empty = .ok (collected (items.map fields)) := by
  induction items using List.reverseRecOn with
  | nil => rfl
  | append_singleton items item ih =>
    rw [List.foldlM_append, ih fun parsed i hi => h parsed i (by simp [hi]), ok_bind,
      List.map_append, List.map_singleton, collected_concat]
    simp [h _ item (by simp)]

variable {family : AddressFamily}

def Attribute.bytes (order : ByteOrder) (attr : Attribute family) : List UInt8 :=
  (rtattrLayout order).encode (attributeFrame order attr.rtaType (attr.payload order))

theorem parseRouteAttributes_bytes (order : ByteOrder) (attributes : List (Attribute family)) :
    parseRouteAttributes order (familyNumber family) (attributes.flatMap (Attribute.bytes order)) =
      .ok (collected (attributes.map Attribute.fields)) := by
  have hbytes : attributes.flatMap (Attribute.bytes order) =
      (attributes.map fun attr => attributeFrame order attr.rtaType (attr.payload order)).flatMap
        (rtattrLayout order).encode := by
    rw [List.flatMap_map]
    rfl
  rw [parseRouteAttributes, hbytes, walk_encode, List.foldlM_map]
  · exact foldlM_update attributes Attribute.fields _ fun parsed attr _ =>
      routeAttribute_frame order parsed attr
  · intro frame hframe
    obtain ⟨attr, -, rfl⟩ := List.mem_map.mp hframe
    exact wellFormed_attributeFrame order _ (attr.length_payload_lt order)

end Attributes

section Hops
variable (order : ByteOrder) (family : AddressFamily)

/-- A next hop of a multipath attribute, with attributes of its own. -/
structure NextHop where
  flags : UInt8
  hops : UInt8
  ifindex : ℕ
  ifindex_pos : 0 < ifindex
  ifindex_lt : ifindex < 2 ^ 31
  attributes : List (Attribute family)
  fits : 8 + (attributes.flatMap (Attribute.bytes order)).length < 2 ^ 16

variable {order family}

namespace NextHop

def payload (hop : NextHop order family) : List UInt8 :=
  hop.attributes.flatMap (Attribute.bytes order)

def frame (hop : NextHop order family) : Frame where
  header := encode order 2 (8 + hop.payload.length) ++ [hop.flags, hop.hops] ++
    encode order 4 hop.ifindex
  payload := hop.payload

def bytes (hop : NextHop order family) : List UInt8 := (rtnexthopLayout order).encode hop.frame

/-- The gateway of the hop, if it has one. -/
def gateway (hop : NextHop order family) : Option IpAddressRecord :=
  lastOf (·.gateway) (hop.attributes.map Attribute.fields)

theorem wellFormed_frame (hop : NextHop order family) :
    (rtnexthopLayout order).WellFormed hop.frame := by
  have hfits : 8 + hop.payload.length < 2 ^ 16 := hop.fits
  have hlength : (rtnexthopLayout order).lengthField hop.frame.header = 8 + hop.payload.length := by
    simp only [rtnexthopLayout, frame]
    rw [List.append_assoc, List.take_left' (length_encode _ _ _)]
    exact value_encode order (by omega)
  constructor
  · simp [frame, rtnexthopLayout]
  · exact hlength
  · rw [Layout.advance, hlength]
    exact le_netlinkAlign (by omega)

/-- The body of the hop loop on a hop. -/
theorem multipathHop_frame (hop : NextHop order family) (prefixLength : ℕ)
    (attributes : LinuxRouteAttributes) (routes : List RouteRecord) :
    multipathHop order (familyNumber family) prefixLength attributes routes hop.frame =
      .ok (routes ++ [makeLinuxRoute (familyNumber family) prefixLength attributes hop.ifindex
        hop.gateway]) := by
  have hpos := hop.ifindex_pos
  have hlt := hop.ifindex_lt
  have hindex : signed32 (value order (hop.frame.header.drop 4)) = hop.ifindex := by
    have hvalue : value order (hop.frame.header.drop 4) = hop.ifindex := by
      simp only [frame]
      rw [List.drop_left' (by simp)]
      exact value_encode order (by omega)
    rw [hvalue, signed32, if_pos hlt]
  have hnested : parseRouteAttributes order (familyNumber family) hop.frame.payload =
      .ok (collected (hop.attributes.map Attribute.fields)) := parseRouteAttributes_bytes order _
  unfold multipathHop
  simp only [hindex, hnested, ok_bind]
  rw [if_neg (by omega)]
  rfl

end NextHop

theorem appendLinuxMultipathRoutes_bytes (hops : List (NextHop order family)) (hne : hops ≠ [])
    (prefixLength : ℕ) (attributes : LinuxRouteAttributes) (routes : List RouteRecord) :
    appendLinuxMultipathRoutes order (familyNumber family) prefixLength attributes
        (hops.flatMap NextHop.bytes) routes =
      .ok (routes ++ hops.map fun hop =>
        makeLinuxRoute (familyNumber family) prefixLength attributes hop.ifindex hop.gateway) := by
  have hbytes : hops.flatMap NextHop.bytes =
      (hops.map NextHop.frame).flatMap (rtnexthopLayout order).encode := by
    rw [List.flatMap_map]
    rfl
  have hwell : ∀ frame ∈ hops.map NextHop.frame, (rtnexthopLayout order).WellFormed frame := by
    intro frame hframe
    obtain ⟨hop, -, rfl⟩ := List.mem_map.mp hframe
    exact hop.wellFormed_frame
  have hbytes_ne : hops.flatMap NextHop.bytes ≠ [] := by
    obtain ⟨hop, more, rfl⟩ := List.exists_cons_of_ne_nil hne
    simp [NextHop.bytes, Layout.encode, NextHop.frame]
  rw [appendLinuxMultipathRoutes, if_neg hbytes_ne, hbytes, walk_encode _ _ _ _ hwell,
    List.foldlM_map, List.map_eq_flatMap]
  exact foldlM_flatMap
    (fun routes hop _ => hop.multipathHop_frame prefixLength attributes routes) routes

end Hops

section Messages
variable (order : ByteOrder) (family : AddressFamily)

/-- An attribute of a route. -/
inductive RouteAttribute where
  | plain (attr : Attribute family)
  | multipath (hops : List (NextHop order family))
    (fits : 4 + (hops.flatMap NextHop.bytes).length < 2 ^ 16)

variable {order family}

namespace RouteAttribute

def frame : RouteAttribute order family → Frame
  | .plain attr => attributeFrame order attr.rtaType (attr.payload order)
  | .multipath hops _ => attributeFrame order rtaMultipath (hops.flatMap NextHop.bytes)

def bytes (attr : RouteAttribute order family) : List UInt8 := (rtattrLayout order).encode attr.frame

/-- The next hops that the attribute gives. -/
def hops : RouteAttribute order family → Option (List (NextHop order family))
  | .plain _ => none
  | .multipath hops _ => some hops

def fields : RouteAttribute order family → LinuxRouteAttributes
  | .plain attr => attr.fields
  | .multipath hops _ =>
    { LinuxRouteAttributes.empty with multipath := some (hops.flatMap NextHop.bytes) }

theorem wellFormed_frame (attr : RouteAttribute order family) :
    (rtattrLayout order).WellFormed attr.frame := by
  cases attr with
  | plain attr => exact wellFormed_attributeFrame order _ (attr.length_payload_lt order)
  | multipath hops fits => exact wellFormed_attributeFrame order _ fits

theorem routeAttribute_frame (parsed : LinuxRouteAttributes) (attr : RouteAttribute order family) :
    routeAttribute order (familyNumber family) parsed attr.frame =
      .ok (parsed.update attr.fields) := by
  cases attr with
  | plain attr => exact Routes.routeAttribute_frame order parsed attr
  | multipath hops fits =>
    show routeAttribute order (familyNumber family) parsed
      (attributeFrame order rtaMultipath (hops.flatMap NextHop.bytes)) = _
    unfold routeAttribute
    simp only
    rw [rtaType_attributeFrame order _ (by decide)]
    simp [fields, attributeFrame, rtaDst, rtaGateway, rtaOif, rtaPriority, rtaMultipath,
      LinuxRouteAttributes.update, LinuxRouteAttributes.empty]

end RouteAttribute

theorem parseRouteAttributes_route (attributes : List (RouteAttribute order family)) :
    parseRouteAttributes order (familyNumber family) (attributes.flatMap RouteAttribute.bytes) =
      .ok (collected (attributes.map RouteAttribute.fields)) := by
  have hbytes : attributes.flatMap RouteAttribute.bytes =
      (attributes.map RouteAttribute.frame).flatMap (rtattrLayout order).encode := by
    rw [List.flatMap_map]
    rfl
  rw [parseRouteAttributes, hbytes, walk_encode, List.foldlM_map]
  · exact foldlM_update attributes RouteAttribute.fields _ fun parsed attr _ =>
      RouteAttribute.routeAttribute_frame parsed attr
  · intro frame hframe
    obtain ⟨attr, -, rfl⟩ := List.mem_map.mp hframe
    exact attr.wellFormed_frame

end Messages

end Syscape.Routes
