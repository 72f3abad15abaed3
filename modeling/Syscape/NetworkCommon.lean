import Syscape.Error
import Syscape.Network
import Syscape.Lib.Bits

/-!
# The boundary of the network backends

What every backend asks of an address and of a route before it hands them on. An address is
the bits of its bytes, and a route is for all addresses that begin with the bits of its prefix.
-/
namespace Syscape.Network
open Checked

/-- How many bytes of the value an address takes. -/
def octetCount : AddressFamily → ℕ
  | .ipv4 => 4
  | .ipv6 => 16

/-- The bytes of an address. -/
def IpAddressRecord.octets (address : IpAddressRecord) : List UInt8 :=
  address.value.toList.take (octetCount address.family)

/-- `is_unspecified`. -/
def isUnspecified (address : IpAddressRecord) : Bool := address.octets.all (· == 0)

/-- `validate_ip_address`. -/
def validateIpAddress (address : IpAddressRecord) : Result Unit :=
  match address.family with
  | .ipv4 =>
    if address.scopeId ≠ 0 then fail .malformedData
    else if (address.value.toList.drop 4).any (· != 0) then fail .malformedData
    else .ok ()
  | .ipv6 => .ok ()

/-- The body of the loop in `validate_route_records`. -/
def validateRouteRecord (entry : RouteRecord) : Result Unit := do
  validateIpAddress entry.destination
  if entry.interfaceIndex = 0 ∨
      entry.prefixLength > maximumPrefixLength entry.destination.family then
    fail .malformedData
  else
    let bytes := entry.destination.octets
    let whole := entry.prefixLength / 8
    let remainder := entry.prefixLength % 8
    let hostMask := (1 <<< (8 - remainder)) - 1
    let partBits := (bytes.getD whole 0).toNat &&& hostMask
    if remainder ≠ 0 ∧ whole < bytes.length ∧ partBits ≠ 0 then fail .malformedData
    else
      let hostStart := whole + if remainder = 0 then 0 else 1
      if (bytes.drop hostStart).any (· != 0) then fail .malformedData
      else
        match entry.nextHop with
        | none => .ok ()
        | some nextHop => do
          validateIpAddress nextHop
          if nextHop.family ≠ entry.destination.family then fail .malformedData else .ok ()

/-- `validate_route_records`. -/
def validateRouteRecords (records : Result (List RouteRecord)) : Result (List RouteRecord) := do
  let records ← records
  records.forM validateRouteRecord
  .ok records

/-- The bits of an address. -/
def IpAddressRecord.bits (address : IpAddressRecord) : List Bool := Bits.ofBytes address.octets

section Octets
variable {address : IpAddressRecord}

@[simp] theorem length_octets (address : IpAddressRecord) :
    address.octets.length = octetCount address.family := by
  rw [IpAddressRecord.octets, List.length_take, Vector.length_toList]
  cases address.family <;> rfl

@[simp] theorem length_bits (address : IpAddressRecord) :
    address.bits.length = maximumPrefixLength address.family := by
  rw [IpAddressRecord.bits, Bits.length_ofBytes, length_octets]
  cases address.family <;> rfl

theorem octets_eq_cons (address : IpAddressRecord) :
    ∃ rest, address.octets = address.value[0]! :: rest := by
  have hlength := length_octets address
  have hzero : address.octets[0]? = some address.value[0]! := by
    rw [IpAddressRecord.octets, List.getElem?_take_of_lt (by cases address.family <;> decide)]
    simp
  cases h : address.octets with
  | nil =>
    rw [h] at hzero
    cases hzero
  | cons b rest =>
    rw [h] at hzero
    cases hzero
    exact ⟨rest, rfl⟩

theorem isUnspecified_iff :
    isUnspecified address = true ↔
      address.octets = List.replicate (octetCount address.family) 0 := by
  rw [isUnspecified, List.all_eq_true, List.eq_replicate_iff]
  simp

/-- A bit of a byte behind the prefix is not set. -/
theorem testBit_of_clear {p i j : ℕ} {b : UInt8} (hclear : ∀ b ∈ address.bits.drop p, b = false)
    (hb : address.octets[i]? = some b) (hj : j < 8) (h : p ≤ 8 * i + j) :
    b.toNat.testBit (7 - j) = false := by
  have hbit := Bits.getElem?_ofBytes address.octets i hj
  rw [hb] at hbit
  obtain ⟨k, hk⟩ := Nat.exists_eq_add_of_le h
  apply hclear
  apply List.mem_of_getElem? (i := k)
  rw [List.getElem?_drop, ← hk]
  exact hbit

end Octets

section Validation
variable {entry : RouteRecord}

/-- The bytes that the source looks at are zero where no bit is set behind the prefix. -/
theorem hostBytes_eq_zero {address : IpAddressRecord} {p : ℕ}
    (hclear : ∀ b ∈ address.bits.drop p, b = false) :
    (address.octets.drop (p / 8 + if p % 8 = 0 then 0 else 1)).any (· != 0) = false := by
  rw [List.any_eq_false]
  intro b hb
  obtain ⟨k, hk⟩ := List.mem_iff_getElem?.mp hb
  rw [List.getElem?_drop] at hk
  have hzero : b = 0 := by
    apply Bits.eq_zero_of_testBit
    intro j hj
    apply testBit_of_clear hclear hk hj
    split_ifs <;> omega
  simp [hzero]

theorem partBits_eq_zero {address : IpAddressRecord} {p : ℕ}
    (hclear : ∀ b ∈ address.bits.drop p, b = false) :
    (address.octets.getD (p / 8) 0).toNat &&& ((1 <<< (8 - p % 8)) - 1) = 0 := by
  apply Nat.eq_of_testBit_eq
  intro k
  rw [Nat.one_shiftLeft, Nat.testBit_and, Nat.testBit_two_pow_sub_one, Nat.zero_testBit]
  by_cases hk : k < 8 - p % 8
  · cases hb : address.octets[p / 8]? with
    | none => simp [List.getD_eq_getElem?_getD, hb]
    | some b =>
      have hbit := testBit_of_clear hclear hb (j := 7 - k) (by omega) (by omega)
      rw [show 7 - (7 - k) = k by omega] at hbit
      simp [List.getD_eq_getElem?_getD, hb, hbit]
  · simp [hk]

/-- A route whose addresses are valid and whose prefix has no bit behind it is accepted. -/
theorem validateRouteRecord_eq (hdestination : validateIpAddress entry.destination = .ok ())
    (hindex : entry.interfaceIndex ≠ 0)
    (hlength : entry.prefixLength ≤ maximumPrefixLength entry.destination.family)
    (hclear : ∀ b ∈ entry.destination.bits.drop entry.prefixLength, b = false)
    (hnext : ∀ hop ∈ entry.nextHop,
      validateIpAddress hop = .ok () ∧ hop.family = entry.destination.family) :
    validateRouteRecord entry = .ok () := by
  unfold validateRouteRecord
  rw [hdestination, ok_bind, if_neg (by omega)]
  simp only [partBits_eq_zero hclear, hostBytes_eq_zero hclear, ne_eq, not_true_eq_false, and_false,
    if_false, Bool.false_eq_true]
  cases hhop : entry.nextHop with
  | none => rfl
  | some hop =>
    obtain ⟨hvalid, hfamily⟩ := hnext hop hhop
    simp [hvalid, hfamily]

theorem validateRouteRecords_eq {records : List RouteRecord}
    (h : ∀ entry ∈ records, validateRouteRecord entry = .ok ()) :
    validateRouteRecords (.ok records) = .ok records := by
  rw [validateRouteRecords, ok_bind, forM_eq_ok.mpr h]
  rfl

end Validation

section WellFormed
variable {address : IpAddressRecord} {entry : RouteRecord} {p : ℕ}

/-- An address as its record describes it: IPv4 has no scope and leaves the bytes behind the
first four zero. -/
structure IpAddressRecord.WellFormed (address : IpAddressRecord) : Prop where
  scope : address.family = .ipv4 → address.scopeId = 0
  padding : address.family = .ipv4 → ∀ b ∈ address.value.toList.drop 4, b = 0

/-- A route for all addresses that begin with a prefix: no bit is set behind the prefix. -/
structure RouteRecord.WellFormed (entry : RouteRecord) : Prop where
  destination : entry.destination.WellFormed
  interfaceIndex : entry.interfaceIndex ≠ 0
  prefixLength : entry.prefixLength ≤ maximumPrefixLength entry.destination.family
  hostBits : ∀ b ∈ entry.destination.bits.drop entry.prefixLength, b = false
  nextHop : ∀ hop ∈ entry.nextHop, hop.WellFormed ∧ hop.family = entry.destination.family

theorem validateIpAddress_eq_ok : validateIpAddress address = .ok () ↔ address.WellFormed := by
  unfold validateIpAddress
  cases hfamily : address.family with
  | ipv6 =>
    refine iff_of_true rfl ⟨?_, ?_⟩
    · simp [hfamily]
    · simp [hfamily]
  | ipv4 =>
    rw [guard_eq_ok, guard_eq_ok, List.any_eq_true, not_exists]
    constructor
    · intro ⟨hscope, hpadding, _⟩
      refine ⟨fun _ => not_not.mp hscope, fun _ b hb => ?_⟩
      simpa [hb] using hpadding b
    · intro h
      refine ⟨not_not.mpr (h.scope hfamily), fun b hb => ?_, rfl⟩
      simp [h.padding hfamily b hb.1] at hb

/-- The bytes and the part of a byte that the source looks at are all that is behind a
prefix. -/
theorem clear_of_hostBytes
    (hpart : ¬ (p % 8 ≠ 0 ∧ p / 8 < address.octets.length ∧
      (address.octets.getD (p / 8) 0).toNat &&& ((1 <<< (8 - p % 8)) - 1) ≠ 0))
    (hbytes : (address.octets.drop (p / 8 + if p % 8 = 0 then 0 else 1)).any (· != 0) = false) :
    ∀ b ∈ address.bits.drop p, b = false := by
  intro bit hbit
  obtain ⟨k, hk⟩ := List.mem_iff_getElem?.mp hbit
  rw [List.getElem?_drop] at hk
  -- the byte of the bit, and its place in the byte
  have hplace : p + k = 8 * ((p + k) / 8) + (p + k) % 8 := (Nat.div_add_mod _ _).symm
  have hlt : (p + k) % 8 < 8 := Nat.mod_lt _ (by decide)
  rw [hplace, IpAddressRecord.bits, Bits.getElem?_ofBytes _ _ hlt, Option.map_eq_some_iff] at hk
  obtain ⟨byte, hbyte, rfl⟩ := hk
  by_cases hwithin : p % 8 ≠ 0 ∧ (p + k) / 8 = p / 8
  · rw [hwithin.2] at hbyte
    have hmask := not_not.mp fun h => hpart
      ⟨hwithin.1, (List.getElem?_eq_some_iff.mp hbyte).1, h⟩
    rw [List.getD_eq_getElem?_getD, hbyte, Option.getD_some, Nat.one_shiftLeft] at hmask
    have htest := congrArg (Nat.testBit · (7 - (p + k) % 8)) hmask
    rw [Nat.testBit_and, Nat.testBit_two_pow_sub_one, Nat.zero_testBit] at htest
    simpa only [show 7 - (p + k) % 8 < 8 - p % 8 by omega, decide_true, Bool.and_true] using htest
  · have hstart : p / 8 + (if p % 8 = 0 then 0 else 1) ≤ (p + k) / 8 := by
      split_ifs <;> omega
    obtain ⟨j, hj⟩ := Nat.exists_eq_add_of_le hstart
    rw [hj, ← List.getElem?_drop] at hbyte
    have hzero := List.any_eq_false.mp hbytes byte (List.mem_of_getElem? hbyte)
    rw [bne_iff_ne, ne_eq, not_not] at hzero
    rw [hzero]
    exact Nat.zero_testBit _

theorem validateRouteRecord_eq_ok : validateRouteRecord entry = .ok () ↔ entry.WellFormed := by
  constructor
  · intro h
    obtain ⟨⟨⟩, hdestination, h⟩ := bind_eq_ok.mp h
    obtain ⟨hfields, h⟩ := guard_eq_ok.mp h
    obtain ⟨hpart, h⟩ := guard_eq_ok.mp h
    obtain ⟨hbytes, h⟩ := guard_eq_ok.mp h
    rw [not_or, not_lt] at hfields
    refine ⟨validateIpAddress_eq_ok.mp hdestination, hfields.1, hfields.2,
      clear_of_hostBytes hpart (Bool.not_eq_true _ ▸ hbytes), ?_⟩
    intro hop hhop
    rw [Option.mem_def.mp hhop] at h
    obtain ⟨⟨⟩, hvalid, h⟩ := bind_eq_ok.mp h
    exact ⟨validateIpAddress_eq_ok.mp hvalid, not_not.mp (guard_eq_ok.mp h).1⟩
  · intro h
    apply validateRouteRecord_eq
    · exact validateIpAddress_eq_ok.mpr h.destination
    · exact h.interfaceIndex
    · exact h.prefixLength
    · exact h.hostBits
    · exact fun hop hhop => ⟨validateIpAddress_eq_ok.mpr (h.nextHop hop hhop).1,
        (h.nextHop hop hhop).2⟩

/-- The lists of well-formed routes are accepted, and no others; none is changed. -/
theorem validate_route_records (records accepted : List RouteRecord) :
    validateRouteRecords (.ok records) = .ok accepted ↔
      (∀ entry ∈ records, entry.WellFormed) ∧ accepted = records := by
  have hloop : records.forM validateRouteRecord = .ok () ↔ ∀ entry ∈ records, entry.WellFormed := by
    rw [forM_eq_ok]
    exact forall₂_congr fun _ _ => validateRouteRecord_eq_ok
  rw [validateRouteRecords, ok_bind, bind_eq_ok, ← hloop]
  constructor
  · rintro ⟨⟨⟩, hchecked, haccepted⟩
    cases haccepted
    exact ⟨hchecked, rfl⟩
  · rintro ⟨hchecked, rfl⟩
    exact ⟨(), hchecked, rfl⟩

end WellFormed

end Syscape.Network
