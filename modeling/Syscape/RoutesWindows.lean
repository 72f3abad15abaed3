import Syscape.NetworkCommon
import Mathlib.Tactic.IntervalCases
import Mathlib.Tactic.Positivity
import Mathlib.Data.List.ReduceOption

/-!
# Routes from the Windows forwarding table

The rows of the table have no route type. Whether a row is for forwarding is told by the
first bytes of its destination, by its prefix and by the addresses of its interface.
-/
namespace Syscape.RoutesWindows
open Checked Network

section Source

def afInet : ℕ := 2
def afInet6 : ℕ := 23

/-- `SOCKADDR_INET`: the family, and the fields of either kind of address. -/
structure SockaddrInet where
  siFamily : ℕ
  sinAddr : Vector UInt8 4
  sin6Addr : Vector UInt8 16
  sin6ScopeId : ℕ
  deriving DecidableEq, Repr

/-- `MIB_IPFORWARD_ROW2`. -/
structure ForwardRow where
  interfaceIndex : ℕ
  destinationPrefix : SockaddrInet
  prefixLength : ℕ
  nextHop : SockaddrInet
  metric : ℕ
  loopback : Bool
  deriving DecidableEq, Repr

/-- `MIB_UNICASTIPADDRESS_ROW`. -/
structure UnicastAddressRow where
  address : SockaddrInet
  interfaceIndex : ℕ
  onLinkPrefixLength : ℕ
  deriving DecidableEq, Repr

/-- `convert_sockaddr_inet`. -/
def convertSockaddrInet (source : SockaddrInet) : Result IpAddressRecord :=
  if source.siFamily = afInet then .ok ⟨.ipv4, addressValue source.sinAddr.toList, 0⟩
  else if source.siFamily = afInet6 then .ok ⟨.ipv6, source.sin6Addr, source.sin6ScopeId⟩
  else fail .malformedData

/-- `windows_addresses_equal`. -/
def windowsAddressesEqual (left right : IpAddressRecord) : Bool :=
  left.family = right.family ∧ left.octets = right.octets

/-- `windows_non_unicast_destination`. -/
def windowsNonUnicastDestination (destination : IpAddressRecord) (prefixLength : ℕ) : Bool :=
  match destination.family with
  | .ipv4 =>
    if destination.value[0]! = 127 ∨ destination.value[0]! ≥ 224 then true
    else prefixLength ≠ 0 && isUnspecified destination
  | .ipv6 =>
    let loopback : Bool := destination.value.toList = List.replicate 15 0 ++ [1]
    destination.value[0]! = 0xFF || loopback || (prefixLength ≠ 0 && isUnspecified destination)

/-- `windows_ipv4_value`. -/
def windowsIpv4Value (address : IpAddressRecord) : ℕ :=
  address.value[0]!.toNat <<< 24 ||| address.value[1]!.toNat <<< 16 |||
    address.value[2]!.toNat <<< 8 ||| address.value[3]!.toNat

/-- The number of a family in a socket address. -/
def siFamilyOf : AddressFamily → ℕ
  | .ipv4 => afInet
  | .ipv6 => afInet6

/-- `host_prefix` of `windows_local_or_broadcast_route`. -/
def hostPrefix : AddressFamily → ℕ
  | .ipv4 => 32
  | .ipv6 => 128

/-- `windows_local_or_broadcast_route`, over the rows of the table of addresses. -/
def windowsLocalOrBroadcastRoute (destination : IpAddressRecord)
    (prefixLength interfaceIndex : ℕ) : List UnicastAddressRow → Result Bool
  | [] => .ok false
  | row :: rows =>
    if row.interfaceIndex ≠ interfaceIndex ∨
        row.address.siFamily ≠ siFamilyOf destination.family then
      windowsLocalOrBroadcastRoute destination prefixLength interfaceIndex rows
    else do
      let localAddress ← convertSockaddrInet row.address
      if prefixLength = hostPrefix destination.family ∧
          windowsAddressesEqual destination localAddress then
        .ok true
      else if destination.family = .ipv4 ∧ prefixLength = 32 ∧ row.onLinkPrefixLength ≤ 30 ∧
          windowsIpv4Value destination =
            (windowsIpv4Value localAddress ||| (2 ^ 32 - 1) >>> row.onLinkPrefixLength) then
        .ok true
      else windowsLocalOrBroadcastRoute destination prefixLength interfaceIndex rows

/-- The body of the loop in `convert_route_table`; a null pointer is no table of addresses. -/
def convertRow (addresses : Option (List UnicastAddressRow)) (row : ForwardRow) :
    Result (Option RouteRecord) :=
  if row.loopback then .ok none
  else do
    let destination ← convertSockaddrInet row.destinationPrefix
    if row.prefixLength > maximumPrefixLength destination.family then fail .malformedData
    else if windowsNonUnicastDestination destination row.prefixLength then .ok none
    else do
      let localOrBroadcast ← match addresses with
        | none => .ok false
        | some rows =>
          windowsLocalOrBroadcastRoute destination row.prefixLength row.interfaceIndex rows
      if localOrBroadcast then .ok none
      else do
        let nextHop ← convertSockaddrInet row.nextHop
        .ok (some
          { destination := destination
            prefixLength := row.prefixLength
            nextHop := if isUnspecified nextHop then none else some nextHop
            interfaceIndex := row.interfaceIndex
            metric := some row.metric })

/-- `convert_route_table`. -/
def convertRouteTable (table : List ForwardRow) (addresses : Option (List UnicastAddressRow)) :
    Result (List RouteRecord) := do
  let routes ← table.mapM (convertRow addresses)
  .ok routes.reduceOption

end Source

section Rows

/-- The family is one of the two that the tables have. -/
def SockaddrInet.Known (source : SockaddrInet) : Prop :=
  source.siFamily = afInet ∨ source.siFamily = afInet6

/-- The address, in the one family or else in the other. -/
def SockaddrInet.record (source : SockaddrInet) : IpAddressRecord :=
  if source.siFamily = afInet then ⟨.ipv4, addressValue source.sinAddr.toList, 0⟩
  else ⟨.ipv6, source.sin6Addr, source.sin6ScopeId⟩

/-- A row as the system has it: the families are known, and no bit is set behind the prefix. -/
structure ForwardRow.Valid (row : ForwardRow) : Prop where
  destination : row.destinationPrefix.Known
  nextHop : row.nextHop.Known
  prefixLength_le : row.prefixLength ≤ maximumPrefixLength row.destinationPrefix.record.family
  hostBits : ∀ b ∈ row.destinationPrefix.record.bits.drop row.prefixLength, b = false

/-- The route of a row. -/
def ForwardRow.record (row : ForwardRow) : RouteRecord where
  destination := row.destinationPrefix.record
  prefixLength := row.prefixLength
  nextHop := if isUnspecified row.nextHop.record then none else some row.nextHop.record
  interfaceIndex := row.interfaceIndex
  metric := some row.metric

theorem convertSockaddrInet_eq {source : SockaddrInet} (h : source.Known) :
    convertSockaddrInet source = .ok source.record := by
  unfold convertSockaddrInet SockaddrInet.record
  split_ifs with hinet hinet6
  · rfl
  · rfl
  · rcases h with h | h
    · exact absurd h hinet
    · exact absurd h hinet6

theorem record_family (source : SockaddrInet) :
    source.record.family = if source.siFamily = afInet then .ipv4 else .ipv6 := by
  unfold SockaddrInet.record
  split_ifs <;> rfl

end Rows

section Subnets

/-- Some first bits, and the addresses that begin with them. -/
structure Subnet where
  family : AddressFamily
  octets : List UInt8
  length : ℕ

/-- All addresses of a prefix are in the subnet. -/
def Subnet.Contains (s : Subnet) (a : IpAddressRecord) (prefixLength : ℕ) : Prop :=
  a.family = s.family ∧ s.length ≤ prefixLength ∧
    a.bits.take s.length = (Bits.ofBytes s.octets).take s.length

/-- 127.0.0.0/8, 224.0.0.0/3 and ff00::/8. -/
def neverForwarded : List Subnet :=
  [⟨.ipv4, [127, 0, 0, 0], 8⟩, ⟨.ipv4, [224, 0, 0, 0], 3⟩,
    ⟨.ipv6, 0xFF :: List.replicate 15 0, 8⟩]

/-- 0.0.0.0/8, ::1/128 and ::/128. -/
def notExpected : List Subnet :=
  [⟨.ipv4, [0, 0, 0, 0], 8⟩, ⟨.ipv6, List.replicate 15 0 ++ [1], 128⟩,
    ⟨.ipv6, List.replicate 16 0, 128⟩]

/-- The prefix is the host route of an address of the interface, or that of the directed
broadcast of an IPv4 address: the first bits of the address, and ones. -/
def LocalOrBroadcast (row : UnicastAddressRow) (destination : IpAddressRecord)
    (prefixLength interfaceIndex : ℕ) : Prop :=
  row.interfaceIndex = interfaceIndex ∧ row.address.Known ∧
  row.address.record.family = destination.family ∧
  (prefixLength = maximumPrefixLength destination.family ∧
      destination.octets = row.address.record.octets ∨
    destination.family = .ipv4 ∧ prefixLength = 32 ∧ row.onLinkPrefixLength ≤ 30 ∧
      destination.bits = row.address.record.bits.take row.onLinkPrefixLength ++
        List.replicate (32 - row.onLinkPrefixLength) true)

/-- A row that the filter has to remove, unless it is flagged anyway. -/
def NotForwarding (addresses : List UnicastAddressRow) (row : ForwardRow) : Prop :=
  (∃ s ∈ neverForwarded, s.Contains row.destinationPrefix.record row.prefixLength) ∨
    ∃ address ∈ addresses,
      LocalOrBroadcast address row.destinationPrefix.record row.prefixLength row.interfaceIndex

/-- A row that the filter has to keep. -/
def Forwarding (addresses : List UnicastAddressRow) (row : ForwardRow) : Prop :=
  row.loopback = false ∧ ¬ NotForwarding addresses row ∧
    ¬ ∃ s ∈ notExpected, s.Contains row.destinationPrefix.record row.prefixLength

/-- The filter keeps and removes the rows that it should, and the order of the table of
addresses is of no matter. -/
structure Filtered (table : List ForwardRow) (addresses : List UnicastAddressRow) : Prop where
  exact : ∃ keep : ForwardRow → Bool,
    convertRouteTable table (some addresses) = .ok ((table.filter keep).map ForwardRow.record) ∧
    (∀ row ∈ table, Forwarding addresses row → keep row = true) ∧
    ∀ row ∈ table, NotForwarding addresses row → keep row = false
  order : ∀ addresses', addresses'.Perm addresses →
    convertRouteTable table (some addresses') = convertRouteTable table (some addresses)

/-- The prefix starts at the address of zeros, but is longer than nothing and shorter than
what is left out of the table: 0.0.0.0/1 to 0.0.0.0/7 and ::/1 to ::/127. -/
def HalfDefault (row : ForwardRow) : Prop :=
  isUnspecified row.destinationPrefix.record = true ∧ 1 ≤ row.prefixLength ∧
    row.prefixLength < match row.destinationPrefix.record.family with
      | .ipv4 => 8
      | .ipv6 => 128

end Subnets

section Broadcast
variable {a b : IpAddressRecord}

theorem octets_ipv4 (h : a.family = .ipv4) :
    a.octets = [a.value[0]!, a.value[1]!, a.value[2]!, a.value[3]!] := by
  rw [IpAddressRecord.octets, h]
  apply List.ext_getElem
  · simp [octetCount]
  · intro i hi _
    have hlt : i < 4 := by simpa [octetCount] using hi
    interval_cases i <;> simp

/-- The bits of an IPv4 address are those of its number. -/
theorem bits_ipv4 (h : a.family = .ipv4) : a.bits = Bits.ofNat 32 (windowsIpv4Value a) := by
  have hvalue : windowsIpv4Value a =
      ((a.value[0]!.toNat <<< 8 ||| a.value[1]!.toNat) <<< 8 |||
        a.value[2]!.toNat) <<< 8 ||| a.value[3]!.toNat := by
    simp only [windowsIpv4Value, Nat.shiftLeft_or_distrib, ← Nat.shiftLeft_add]
  rw [hvalue, Bits.ofNat_append 24 _ a.value[3]!.toNat_lt,
    Bits.ofNat_append 16 _ a.value[2]!.toNat_lt,
    Bits.ofNat_append 8 _ a.value[1]!.toNat_lt, IpAddressRecord.bits, octets_ipv4 h]
  simp [Bits.ofBytes]

theorem windowsIpv4Value_lt (a : IpAddressRecord) : windowsIpv4Value a < 2 ^ 32 := by
  have hshift {n k : ℕ} (hn : n < 2 ^ 8) (hk : k ≤ 24) : n <<< k < 2 ^ 32 := by
    rw [Nat.shiftLeft_eq]
    calc n * 2 ^ k < 2 ^ 8 * 2 ^ k := Nat.mul_lt_mul_of_pos_right hn (by positivity)
      _ = 2 ^ (8 + k) := (pow_add 2 8 k).symm
      _ ≤ 2 ^ 32 := Nat.pow_le_pow_right (by decide) (by omega)
  have hlast := a.value[3]!.toNat_lt
  exact Nat.or_lt_two_pow (Nat.or_lt_two_pow (Nat.or_lt_two_pow
    (hshift a.value[0]!.toNat_lt (by decide)) (hshift a.value[1]!.toNat_lt (by decide)))
    (hshift a.value[2]!.toNat_lt (by decide))) (by omega)

/-- The number that the source compares with is that of the directed broadcast. -/
theorem directed_broadcast_iff (ha : a.family = .ipv4) (hb : b.family = .ipv4) {n : ℕ}
    (hn : n ≤ 30) :
    windowsIpv4Value a = (windowsIpv4Value b ||| (2 ^ 32 - 1) >>> n) ↔
      a.bits = b.bits.take n ++ List.replicate (32 - n) true := by
  have hones : (2 ^ 32 - 1) >>> n < 2 ^ 32 := lt_of_le_of_lt (Nat.shiftRight_le _ _) (by decide)
  rw [bits_ipv4 ha, bits_ipv4 hb, ← Bits.ofNat_or_ones (by omega), Bits.ofNat_inj
    (windowsIpv4Value_lt a) (Nat.or_lt_two_pow (windowsIpv4Value_lt b) hones)]

end Broadcast

section Addresses
variable {destination : IpAddressRecord} {prefixLength interfaceIndex : ℕ}

theorem siFamily_eq_iff (source : SockaddrInet) (family : AddressFamily) :
    source.siFamily = siFamilyOf family ↔ source.Known ∧ source.record.family = family := by
  have hne : afInet ≠ afInet6 := by decide
  rw [record_family, SockaddrInet.Known]
  cases family <;> by_cases h : source.siFamily = afInet <;> simp [h, hne, siFamilyOf]

/-- What the source tests for a row of the table of addresses. -/
theorem localOrBroadcast_iff (row : UnicastAddressRow) :
    LocalOrBroadcast row destination prefixLength interfaceIndex ↔
      (row.interfaceIndex = interfaceIndex ∧
        row.address.siFamily = siFamilyOf destination.family) ∧
      (prefixLength = hostPrefix destination.family ∧
          windowsAddressesEqual destination row.address.record = true ∨
        destination.family = .ipv4 ∧ prefixLength = 32 ∧ row.onLinkPrefixLength ≤ 30 ∧
          windowsIpv4Value destination =
            (windowsIpv4Value row.address.record ||| (2 ^ 32 - 1) >>> row.onLinkPrefixLength)) := by
  have hhost : hostPrefix destination.family = maximumPrefixLength destination.family := by
    cases destination.family <;> rfl
  rw [LocalOrBroadcast, siFamily_eq_iff, hhost, and_assoc, and_assoc]
  refine and_congr_right fun _ => and_congr_right fun _ => and_congr_right fun hfamily => ?_
  refine or_congr ?_ ?_
  · simp [windowsAddressesEqual, hfamily]
  · refine and_congr_right fun hipv4 => and_congr_right fun _ => and_congr_right fun hle => ?_
    rw [directed_broadcast_iff hipv4 (hfamily.trans hipv4) hle]

/-- The scan of the addresses does not fail, and finds what it is for. -/
theorem windowsLocalOrBroadcastRoute_eq (destination : IpAddressRecord)
    (prefixLength interfaceIndex : ℕ) (rows : List UnicastAddressRow) :
    ∃ found, windowsLocalOrBroadcastRoute destination prefixLength interfaceIndex rows = .ok found ∧
      (found = true ↔
        ∃ row ∈ rows, LocalOrBroadcast row destination prefixLength interfaceIndex) := by
  induction rows with
  | nil => exact ⟨false, rfl, by simp⟩
  | cons row rows ih =>
    obtain ⟨found, hrest, hfound⟩ := ih
    unfold windowsLocalOrBroadcastRoute
    simp only [List.exists_mem_cons_iff, ← hfound]
    rw [localOrBroadcast_iff row]
    by_cases hrow : row.interfaceIndex = interfaceIndex ∧
        row.address.siFamily = siFamilyOf destination.family
    · have hknown := ((siFamily_eq_iff _ _).mp hrow.2).1
      rw [if_neg (by simp [hrow]), convertSockaddrInet_eq hknown, ok_bind]
      split_ifs with hlocal hbroadcast
      · exact ⟨true, rfl, by simp [hrow, hlocal]⟩
      · exact ⟨true, rfl, by simp only [hrow, hbroadcast, and_self, or_true, true_or]⟩
      · exact ⟨found, hrest, by simp only [hlocal, hbroadcast, or_false, and_false, false_or]⟩
    · rw [if_pos (by rwa [← not_and_or])]
      exact ⟨found, hrest, by simp only [hrow, false_and, false_or]⟩

end Addresses

section Destinations
variable {a : IpAddressRecord} {prefixLength : ℕ}

/-- A prefix reaches behind every bit that is set. -/
theorem lt_of_bit {i : ℕ} (hclear : ∀ b ∈ a.bits.drop prefixLength, b = false)
    (h : a.bits[i]? = some true) : i < prefixLength := by
  by_contra hle
  obtain ⟨k, rfl⟩ := Nat.exists_eq_add_of_le (Nat.not_lt.mp hle)
  have hmem : true ∈ a.bits.drop prefixLength :=
    List.mem_of_getElem? (i := k) (by rwa [List.getElem?_drop])
  exact absurd (hclear true hmem) (by decide)

/-- The bits of the first byte. -/
theorem take_bits_eight (a : IpAddressRecord) :
    a.bits.take 8 = Bits.ofNat 8 a.value[0]!.toNat := by
  obtain ⟨rest, hrest⟩ := octets_eq_cons a
  rw [IpAddressRecord.bits, hrest, Bits.ofBytes_cons]
  exact List.take_left' (Bits.length_ofNat _ _)

theorem take_bits_three (a : IpAddressRecord) :
    a.bits.take 3 = List.replicate 3 true ↔ a.value[0]! ≥ 224 := by
  have hbytes : ∀ n < 256, (Bits.ofNat 8 n).take 3 = List.replicate 3 true ↔ 224 ≤ n := by
    decide +kernel
  have htake : a.bits.take 3 = (a.bits.take 8).take 3 := by
    rw [List.take_take]
    rfl
  rw [htake, take_bits_eight, hbytes _ a.value[0]!.toNat_lt]
  rfl

/-- The bits of the first byte say which subnet an address is in. -/
theorem contains_eight {family : AddressFamily} {b : UInt8} {rest : List UInt8} :
    (⟨family, b :: rest, 8⟩ : Subnet).Contains a prefixLength ↔
      a.family = family ∧ 8 ≤ prefixLength ∧ a.value[0]! = b := by
  have hnetwork : (Bits.ofBytes (b :: rest)).take 8 = Bits.ofNat 8 b.toNat :=
    List.take_left' (Bits.length_ofNat _ _)
  unfold Subnet.Contains
  rw [take_bits_eight, hnetwork, Bits.ofByte_inj]

/-- A subnet of one IPv6 address. -/
theorem contains_host (octets : List UInt8) (hlength : octets.length = 16) :
    (⟨.ipv6, octets, 128⟩ : Subnet).Contains a prefixLength ↔
      a.family = .ipv6 ∧ 128 ≤ prefixLength ∧ a.octets = octets := by
  unfold Subnet.Contains
  refine and_congr_right fun hfamily => and_congr_right fun _ => ?_
  have hipv6 : a.family = .ipv6 := hfamily
  have hbits : a.bits.length ≤ 128 := by
    rw [length_bits, hipv6]
    exact le_refl _
  rw [List.take_of_length_le hbits, List.take_of_length_le (by simp [hlength])]
  exact Bits.ofBytes_inj

/-- Told by the first byte: no bit is set behind the prefix. -/
theorem neverForwarded_iff (hclear : ∀ b ∈ a.bits.drop prefixLength, b = false) :
    (∃ s ∈ neverForwarded, s.Contains a prefixLength) ↔
      a.family = .ipv4 ∧ (a.value[0]! = 127 ∨ a.value[0]! ≥ 224) ∨
        a.family = .ipv6 ∧ a.value[0]! = 0xFF := by
  have hbit {i : ℕ} (hi : i < 8) (h : a.value[0]!.toNat.testBit (7 - i) = true) :
      i < prefixLength := by
    apply lt_of_bit hclear
    have htake : (a.bits.take 8)[i]? = a.bits[i]? := List.getElem?_take_of_lt hi
    rw [← htake, take_bits_eight, Bits.getElem?_ofNat hi, h]
  have hmulticast : (⟨.ipv4, [224, 0, 0, 0], 3⟩ : Subnet).Contains a prefixLength ↔
      a.family = .ipv4 ∧ 3 ≤ prefixLength ∧ a.value[0]! ≥ 224 := by
    rw [← take_bits_three]
    rfl
  have h127 (h : a.value[0]! = 127) : 8 ≤ prefixLength :=
    hbit (i := 7) (by decide) (by rw [h]; rfl)
  have h255 (h : a.value[0]! = 0xFF) : 8 ≤ prefixLength :=
    hbit (i := 7) (by decide) (by rw [h]; rfl)
  have h224 (h : a.value[0]! ≥ 224) : 3 ≤ prefixLength := by
    have hbytes : ∀ n < 256, 224 ≤ n → n.testBit 5 = true := by decide +kernel
    exact hbit (i := 2) (by decide) (hbytes _ a.value[0]!.toNat_lt h)
  simp only [neverForwarded, List.exists_mem_cons_iff, contains_eight, hmulticast]
  constructor
  · rintro (⟨hfamily, -, h⟩ | ⟨hfamily, -, h⟩ | ⟨hfamily, -, h⟩ | h)
    · exact .inl ⟨hfamily, .inl h⟩
    · exact .inl ⟨hfamily, .inr h⟩
    · exact .inr ⟨hfamily, h⟩
    · simp at h
  · rintro (⟨hfamily, h | h⟩ | ⟨hfamily, h⟩)
    · exact .inl ⟨hfamily, h127 h, h⟩
    · exact .inr (.inl ⟨hfamily, h224 h, h⟩)
    · exact .inr (.inr (.inl ⟨hfamily, h255 h, h⟩))

/-- What the source takes for no unicast destination. -/
theorem windowsNonUnicastDestination_iff (hclear : ∀ b ∈ a.bits.drop prefixLength, b = false) :
    windowsNonUnicastDestination a prefixLength = true ↔
      (∃ s ∈ neverForwarded, s.Contains a prefixLength) ∨
      a.family = .ipv6 ∧ a.octets = List.replicate 15 0 ++ [1] ∨
      prefixLength ≠ 0 ∧ isUnspecified a = true := by
  rw [neverForwarded_iff hclear, windowsNonUnicastDestination]
  cases hfamily : a.family with
  | ipv4 =>
    generalize a.value[0]! = first
    split_ifs with hfirst
    · simp [hfirst]
    · simp [hfirst]
  | ipv6 =>
    have hoctets : a.octets = a.value.toList := by
      rw [IpAddressRecord.octets, hfamily]
      exact List.take_of_length_le (by simp [octetCount])
    simp [hoctets, or_assoc]

/-- The prefix of the loopback address is the whole address. -/
theorem loopback_length (hclear : ∀ b ∈ a.bits.drop prefixLength, b = false)
    (h : a.octets = List.replicate 15 0 ++ [1]) : 128 ≤ prefixLength := by
  have hlast : a.bits[127]? = some true := by
    rw [IpAddressRecord.bits, h]
    rfl
  exact lt_of_bit hclear hlast

/-- The subnets of which nothing is said are told by the bytes too. -/
theorem notExpected_iff :
    (∃ s ∈ notExpected, s.Contains a prefixLength) ↔
      a.family = .ipv4 ∧ 8 ≤ prefixLength ∧ a.value[0]! = 0 ∨
      a.family = .ipv6 ∧ 128 ≤ prefixLength ∧ a.octets = List.replicate 15 0 ++ [1] ∨
      a.family = .ipv6 ∧ 128 ≤ prefixLength ∧ a.octets = List.replicate 16 0 := by
  simp only [notExpected, List.exists_mem_cons_iff, contains_eight,
    contains_host (List.replicate 15 0 ++ [1]) rfl, contains_host (List.replicate 16 0) rfl]
  simp

theorem isUnspecified_zero (h : isUnspecified a = true) : a.value[0]! = 0 := by
  obtain ⟨rest, hrest⟩ := octets_eq_cons a
  rw [isUnspecified, hrest, List.all_cons, Bool.and_eq_true] at h
  exact eq_of_beq h.1

end Destinations

section Rows
variable {addresses : List UnicastAddressRow} {row : ForwardRow}

/-- The rows that the source leaves out. -/
def Dropped (addresses : List UnicastAddressRow) (row : ForwardRow) : Prop :=
  row.loopback = true ∨
  windowsNonUnicastDestination row.destinationPrefix.record row.prefixLength = true ∨
  ∃ address ∈ addresses,
    LocalOrBroadcast address row.destinationPrefix.record row.prefixLength row.interfaceIndex

theorem Dropped.of_notForwarding (hvalid : row.Valid) (h : NotForwarding addresses row) :
    Dropped addresses row := by
  rcases h with h | h
  · exact .inr (.inl ((windowsNonUnicastDestination_iff hvalid.hostBits).mpr (.inl h)))
  · exact .inr (.inr h)

/-- A row that is left out wrongly is one of those that start at zero. -/
theorem Dropped.halfDefault (hvalid : row.Valid) (h : Dropped addresses row)
    (hforwarding : Forwarding addresses row) : HalfDefault row := by
  obtain ⟨hflag, hnot, hexpected⟩ := hforwarding
  rw [notExpected_iff] at hexpected
  rcases h with h | h | h
  · rw [hflag] at h
    cases h
  · rcases (windowsNonUnicastDestination_iff hvalid.hostBits).mp h with
      h | ⟨hfamily, hloopback⟩ | ⟨hlength, hzero⟩
    · exact absurd (.inl h) hnot
    · have hle := loopback_length hvalid.hostBits hloopback
      exact absurd (.inr (.inl ⟨hfamily, hle, hloopback⟩)) hexpected
    · refine ⟨hzero, Nat.one_le_iff_ne_zero.mpr hlength, ?_⟩
      by_contra hle
      rw [Nat.not_lt] at hle
      cases hfamily : row.destinationPrefix.record.family with
      | ipv4 =>
        rw [hfamily] at hle
        exact hexpected (.inl ⟨hfamily, hle, isUnspecified_zero hzero⟩)
      | ipv6 =>
        rw [hfamily] at hle
        rw [isUnspecified_iff, hfamily] at hzero
        exact hexpected (.inr (.inr ⟨hfamily, hle, hzero⟩))
  · exact absurd (.inr h) hnot

/-- Such a row is no host route. -/
theorem HalfDefault.not_localOrBroadcast (h : HalfDefault row) (address : UnicastAddressRow) :
    ¬ LocalOrBroadcast address row.destinationPrefix.record row.prefixLength row.interfaceIndex := by
  obtain ⟨-, -, hlt⟩ := h
  rintro ⟨-, -, -, ⟨hhost, -⟩ | ⟨hfamily, hlength, -⟩⟩
  · rw [hhost] at hlt
    cases hfamily : row.destinationPrefix.record.family <;> simp [hfamily, maximumPrefixLength] at hlt
  · rw [hfamily, hlength] at hlt
    simp at hlt

/-- Those rows are for forwarding. -/
theorem HalfDefault.forwarding (hvalid : row.Valid) (hflag : row.loopback = false)
    (h : HalfDefault row) : Forwarding addresses row := by
  have hlocal := h.not_localOrBroadcast
  obtain ⟨hzero, hpos, hlt⟩ := h
  have hfirst := isUnspecified_zero hzero
  refine ⟨hflag, ?_, ?_⟩
  · rintro (h | ⟨address, -, h⟩)
    · rw [neverForwarded_iff hvalid.hostBits, hfirst] at h
      rcases h with ⟨-, h | h⟩ | ⟨-, h⟩ <;> exact absurd h (by decide)
    · exact hlocal address h
  · rw [notExpected_iff]
    rintro (⟨hfamily, hle, -⟩ | ⟨hfamily, hle, -⟩ | ⟨hfamily, hle, -⟩)
    all_goals
      simp only [hfamily] at hlt
      omega

/-- Those rows are left out. -/
theorem HalfDefault.dropped (hvalid : row.Valid) (h : HalfDefault row) : Dropped addresses row := by
  right
  left
  rw [windowsNonUnicastDestination_iff hvalid.hostBits]
  exact .inr (.inr ⟨Nat.one_le_iff_ne_zero.mp h.2.1, h.1⟩)

open Classical in
/-- What the loop does with a row. -/
theorem convertRow_eq (hvalid : row.Valid) :
    convertRow (some addresses) row =
      .ok (if Dropped addresses row then none else some row.record) := by
  obtain ⟨found, hscan, hfound⟩ := windowsLocalOrBroadcastRoute_eq row.destinationPrefix.record
    row.prefixLength row.interfaceIndex addresses
  unfold convertRow Dropped
  rw [convertSockaddrInet_eq hvalid.destination, convertSockaddrInet_eq hvalid.nextHop, ← hfound]
  simp only [ok_bind, hscan, if_neg (Nat.not_lt.mpr hvalid.prefixLength_le)]
  by_cases hflag : row.loopback = true
  · simp [hflag]
  · by_cases hunicast :
        windowsNonUnicastDestination row.destinationPrefix.record row.prefixLength = true
    · simp [hunicast]
    · cases found with
      | true => simp [hunicast]
      | false =>
        simp only [hflag, hunicast, if_false, or_self, Bool.false_eq_true]
        rfl

end Rows

section Table
variable {addresses : List UnicastAddressRow} {table : List ForwardRow}

theorem reduceOption_map_ite {α β : Type} (p : α → Prop) [DecidablePred p] (f : α → β) (l : List α) :
    (l.map fun a => if p a then none else some (f a)).reduceOption =
      (l.filter fun a => ¬ p a).map f := by
  induction l with
  | nil => rfl
  | cons a l ih =>
    rw [List.map_cons]
    by_cases h : p a
    · rw [if_pos h, List.reduceOption_cons_of_none, ih, List.filter_cons_of_neg (by simp [h])]
    · rw [if_neg h, List.reduceOption_cons_of_some, ih, List.filter_cons_of_pos (by simp [h]),
        List.map_cons]

open Classical in
/-- The table without the rows that are left out. -/
theorem convertRouteTable_eq (hvalid : ∀ row ∈ table, row.Valid) :
    convertRouteTable table (some addresses) =
      .ok ((table.filter fun row => ¬ Dropped addresses row).map ForwardRow.record) := by
  have hrows : table.mapM (convertRow (some addresses)) =
      .ok (table.map fun row => if Dropped addresses row then none else some row.record) :=
    mapM_eq_ok fun row hrow => convertRow_eq (hvalid row hrow)
  rw [convertRouteTable, hrows, ok_bind, reduceOption_map_ite]

/-- Without a table of addresses the rows are treated as with an empty one. -/
theorem convertRouteTable_none (table : List ForwardRow) :
    convertRouteTable table none = convertRouteTable table (some []) := rfl

/-- Whether a row is left out depends on its route, unless it is flagged. -/
theorem dropped_congr {row other : ForwardRow} (hflag : row.loopback = false)
    (hrecord : row.record = other.record) (h : Dropped addresses row) :
    Dropped addresses other := by
  simp only [ForwardRow.record, RouteRecord.mk.injEq] at hrecord
  obtain ⟨hdestination, hlength, -, hindex, -⟩ := hrecord
  unfold Dropped at h ⊢
  rw [hflag, hdestination, hlength, hindex] at h
  rcases h with h | h
  · cases h
  · exact .inr h

theorem dropped_perm {addresses' : List UnicastAddressRow} (h : addresses'.Perm addresses)
    (row : ForwardRow) : Dropped addresses' row ↔ Dropped addresses row := by
  unfold Dropped
  simp only [h.mem_iff]

open Classical in
/-- The table of routes is filtered as it should be just if every row that starts at zero and is
shorter than what is left out is flagged. -/
theorem routes_filtered_iff (hvalid : ∀ row ∈ table, row.Valid) :
    Filtered table addresses ↔ ∀ row ∈ table, row.loopback = false → ¬ HalfDefault row := by
  constructor
  · intro ⟨⟨keep, htable, hkeep, _⟩, _⟩ row hrow hflag hhalf
    rw [convertRouteTable_eq hvalid, Except.ok.injEq] at htable
    have hkept := hkeep row hrow (hhalf.forwarding (hvalid row hrow) hflag)
    have hmem : row.record ∈ (table.filter keep).map ForwardRow.record :=
      List.mem_map_of_mem (List.mem_filter.mpr ⟨hrow, hkept⟩)
    rw [← htable] at hmem
    obtain ⟨other, hother, hrecord⟩ := List.mem_map.mp hmem
    have hnot := (List.mem_filter.mp hother).2
    rw [decide_eq_true_eq] at hnot
    exact hnot (dropped_congr hflag hrecord.symm (hhalf.dropped (hvalid row hrow)))
  · intro hhalf
    refine ⟨⟨fun row => ¬ Dropped addresses row, convertRouteTable_eq hvalid, ?_, ?_⟩, ?_⟩
    · intro row hrow hforwarding
      rw [decide_eq_true_eq]
      intro hdropped
      exact hhalf row hrow hforwarding.1 (hdropped.halfDefault (hvalid row hrow) hforwarding)
    · intro row hrow hnot
      rw [decide_eq_false_iff_not, not_not]
      exact .of_notForwarding (hvalid row hrow) hnot
    · intro addresses' hperm
      rw [convertRouteTable_eq hvalid, convertRouteTable_eq hvalid]
      simp only [dropped_perm hperm]

end Table

section Examples

/-- A row for an IPv4 prefix, with a gateway. -/
def ipv4Row (destination gateway : Vector UInt8 4) (prefixLength : ℕ) : ForwardRow where
  interfaceIndex := 8
  destinationPrefix := ⟨afInet, destination, .replicate 16 0, 0⟩
  prefixLength := prefixLength
  nextHop := ⟨afInet, gateway, .replicate 16 0, 0⟩
  metric := 42
  loopback := false

theorem ipv4Row_valid {destination gateway : Vector UInt8 4} {prefixLength : ℕ}
    (hle : prefixLength ≤ 32)
    (hclear : (ipv4Row destination gateway prefixLength).destinationPrefix.record.bits.drop
      prefixLength = List.replicate (32 - prefixLength) false) :
    (ipv4Row destination gateway prefixLength).Valid where
  destination := .inl rfl
  nextHop := .inl rfl
  prefixLength_le := hle
  hostBits := by
    intro b hb
    rw [show (ipv4Row destination gateway prefixLength).prefixLength = prefixLength from rfl,
      hclear] at hb
    exact (List.mem_replicate.mp hb).2

/-- The address 10.0.0.8, with the mask of eight bits of its network. -/
def clientAddress : UnicastAddressRow where
  address := ⟨afInet, #v[10, 0, 0, 8], .replicate 16 0, 0⟩
  interfaceIndex := 8
  onLinkPrefixLength := 8

/-- A default route and the route of the network, with the host route of the address and its
directed broadcast. -/
def clientRoutes : List ForwardRow :=
  [ipv4Row #v[0, 0, 0, 0] #v[10, 0, 0, 1] 0, ipv4Row #v[10, 0, 0, 0] #v[0, 0, 0, 0] 8,
    ipv4Row #v[10, 0, 0, 8] #v[0, 0, 0, 0] 32, ipv4Row #v[10, 255, 255, 255] #v[0, 0, 0, 0] 32]

/-- The first two routes are kept, and nothing else. -/
theorem default_route_kept : Filtered clientRoutes [clientAddress] ∧
    convertRouteTable clientRoutes (some [clientAddress]) =
      .ok ((clientRoutes.take 2).map ForwardRow.record) := by
  refine ⟨(routes_filtered_iff ?_).mpr ?_, by decide +kernel⟩
  · intro row hrow
    simp only [clientRoutes, List.mem_cons, List.not_mem_nil, or_false] at hrow
    rcases hrow with rfl | rfl | rfl | rfl
    all_goals exact ipv4Row_valid (by decide) (by decide +kernel)
  · intro row hrow _
    simp only [clientRoutes, List.mem_cons, List.not_mem_nil, or_false] at hrow
    rcases hrow with rfl | rfl | rfl | rfl
    · exact fun h => absurd h.2.1 (by decide)
    all_goals exact fun h => absurd h.1 (by decide +kernel)

/-- The half-default route of a VPN client is left out. -/
theorem half_default_dropped :
    (ipv4Row #v[0, 0, 0, 0] #v[10, 8, 0, 1] 1).Valid ∧
    Forwarding [] (ipv4Row #v[0, 0, 0, 0] #v[10, 8, 0, 1] 1) ∧
    convertRouteTable [ipv4Row #v[0, 0, 0, 0] #v[10, 8, 0, 1] 1] (some []) = .ok [] ∧
    ¬ Filtered [ipv4Row #v[0, 0, 0, 0] #v[10, 8, 0, 1] 1] [] := by
  have hvalid : (ipv4Row #v[0, 0, 0, 0] #v[10, 8, 0, 1] 1).Valid :=
    ipv4Row_valid (by decide) (by decide +kernel)
  have hforwarding : Forwarding [] (ipv4Row #v[0, 0, 0, 0] #v[10, 8, 0, 1] 1) :=
    HalfDefault.forwarding hvalid rfl ⟨by decide +kernel, by decide, by decide⟩
  have hempty : convertRouteTable [ipv4Row #v[0, 0, 0, 0] #v[10, 8, 0, 1] 1] (some []) = .ok [] := by
    decide +kernel
  refine ⟨hvalid, hforwarding, hempty, ?_⟩
  intro ⟨⟨keep, htable, hkeep, _⟩, _⟩
  rw [hempty, Except.ok.injEq, List.filter_cons_of_pos (hkeep _ (by simp) hforwarding)] at htable
  cases htable

end Examples

end Syscape.RoutesWindows
