import Syscape.RoutesMacos
import Mathlib.Data.List.DropRight
import Mathlib.Tactic.IntervalCases

/-!
# Darwin routes and the dumps of them

The routes of a system as they are and as Darwin writes them down: a message for each route,
with a socket address for the destination, for the gateway and for the netmask, which is cut
behind its last byte that is not zero.
-/
namespace Syscape.RoutesMacos
open Checked Endian Frames Network

section Slices

/-- A slice of a part is one of the whole. -/
theorem slice_inside (pre s rest : List UInt8) {k n : ℕ} (h : k + n ≤ s.length) :
    (slice (pre ++ s ++ rest) (pre.length + k) n : Result (List UInt8)) =
      .ok ((s.drop k).take n) := by
  rw [slice_of_le (by simp only [List.length_append]; omega), List.append_assoc, ← List.drop_drop,
    List.drop_left, List.drop_append_of_le_length (by omega),
    List.take_append_of_le_length (by rw [List.length_drop]; omega)]

theorem readByte_inside (pre s rest : List UInt8) {k : ℕ} (h : k < s.length) :
    (readByte (pre ++ s ++ rest) (pre.length + k) : Result ℕ) = .ok s[k].toNat := by
  rw [List.append_assoc, readByte_append_right, readByte_of_lt (by rw [List.length_append]; omega),
    List.getElem_append_left h]

end Slices

section Sockaddrs

/-- A socket address with what stands behind it up to the next one. -/
structure Sockaddr where
  saLen : UInt8
  rest : List UInt8
  saLen_ne : saLen ≠ 1
  length_rest : rest.length + 1 = darwinSockaddrSize saLen.toNat

def Sockaddr.bytes (s : Sockaddr) : List UInt8 := s.saLen :: s.rest

@[simp] theorem Sockaddr.length_bytes (s : Sockaddr) :
    s.bytes.length = darwinSockaddrSize s.saLen.toNat := by
  rw [bytes, List.length_cons, s.length_rest]

/-- The socket addresses of a message, those that there are. -/
def payloadOf (stored : List (Option Sockaddr)) : List UInt8 :=
  stored.flatMap fun s => s.elim [] Sockaddr.bytes

/-- The mask that tells which there are. -/
def addrsOf : List (Option Sockaddr) → ℕ
  | [] => 0
  | s :: stored => s.isSome.toNat + 2 * addrsOf stored

/-- Where they stand. -/
def offsetsOf : List (Option Sockaddr) → ℕ → List (Option ℕ)
  | [], _ => []
  | none :: stored, offset => none :: offsetsOf stored offset
  | some s :: stored, offset => some offset :: offsetsOf stored (offset + s.bytes.length)

theorem testBit_addrsOf (stored : List (Option Sockaddr)) (j : ℕ) :
    (addrsOf stored).testBit j = (stored.getD j none).isSome := by
  induction stored generalizing j with
  | nil => simp [addrsOf]
  | cons s stored ih =>
    have hbit : s.isSome.toNat < 2 := by cases s.isSome <;> decide
    cases j with
    | zero =>
      rw [addrsOf, Nat.testBit_zero, show (s.isSome.toNat + 2 * addrsOf stored) % 2 =
        s.isSome.toNat by omega]
      cases s <;> rfl
    | succ j =>
      rw [addrsOf, Nat.testBit_succ, show (s.isSome.toNat + 2 * addrsOf stored) / 2 =
        addrsOf stored by omega, ih]
      rfl

/-- The scan finds the socket addresses where they stand. -/
theorem sockaddrLoop_payload (mask : ℕ) (stored : List (Option Sockaddr)) (i : ℕ)
    (pre : List UInt8) (h : ∀ j, mask.testBit (i + j) = (stored.getD j none).isSome) :
    sockaddrLoop mask (pre ++ payloadOf stored) (List.range' i stored.length) pre.length =
      .ok (offsetsOf stored pre.length) := by
  induction stored generalizing i pre with
  | nil => rfl
  | cons s stored ih =>
    have htail : ∀ j, mask.testBit (i + 1 + j) = (stored.getD j none).isSome := by
      intro j
      have hnext := h (j + 1)
      rwa [show i + (j + 1) = i + 1 + j by omega] at hnext
    have hhead : mask.testBit i = s.isSome := h 0
    rw [List.length_cons, List.range'_succ, sockaddrLoop]
    cases s with
    | none =>
      have hrest := ih (i + 1) pre htail
      simp only [payloadOf, List.flatMap_cons, Option.elim, List.nil_append] at hrest ⊢
      rw [if_pos (by simpa using hhead), hrest]
      rfl
    | some s =>
      have hrest := ih (i + 1) (pre ++ s.bytes) htail
      obtain ⟨hsize, htwo⟩ := le_darwinSockaddrSize s.saLen.toNat
      have hone : s.saLen.toNat ≠ 1 := fun hone => s.saLen_ne (UInt8.toNat_inj.mp hone)
      have hpayload : payloadOf (some s :: stored) = s.bytes ++ payloadOf stored := rfl
      have hread : (readByte (pre ++ (s.bytes ++ payloadOf stored)) pre.length : Result ℕ) =
          .ok s.saLen.toNat := by
        rw [readByte_append_length]
        rfl
      have hlength : (pre ++ (s.bytes ++ payloadOf stored)).length - pre.length =
          darwinSockaddrSize s.saLen.toNat + (payloadOf stored).length := by
        simp
      rw [hpayload, if_neg (by simp [hhead]), hlength, if_neg (by omega), hread, ok_bind,
        if_neg (by omega), ← List.append_assoc, ← s.length_bytes, ← List.length_append, hrest]
      rw [List.length_append]
      rfl

/-- The socket address of a kind stands at its offset. -/
theorem offsetsOf_split (stored : List (Option Sockaddr)) (j : ℕ) (pre : List UInt8) :
    (stored.getD j none = none ∧ (offsetsOf stored pre.length).getD j none = none) ∨
      ∃ s front rest, stored.getD j none = some s ∧
        pre ++ payloadOf stored = front ++ s.bytes ++ rest ∧
        (offsetsOf stored pre.length).getD j none = some front.length := by
  induction stored generalizing j pre with
  | nil => exact .inl ⟨rfl, rfl⟩
  | cons s stored ih =>
    cases s with
    | none =>
      cases j with
      | zero => exact .inl ⟨rfl, rfl⟩
      | succ j => exact ih j pre
    | some s =>
      cases j with
      | zero =>
        refine .inr ⟨s, pre, payloadOf stored, rfl, ?_, rfl⟩
        rw [List.append_assoc]
        rfl
      | succ j =>
        have hrest := ih j (pre ++ s.bytes)
        rw [List.length_append] at hrest
        rw [show payloadOf (some s :: stored) = s.bytes ++ payloadOf stored from rfl,
          ← List.append_assoc]
        exact hrest

theorem parseDarwinSockaddrs_payload {stored : List (Option Sockaddr)} (h : stored.length = rtaxMax) :
    parseDarwinSockaddrs (addrsOf stored) (payloadOf stored) = .ok (offsetsOf stored 0) := by
  have hscan := sockaddrLoop_payload (addrsOf stored) stored 0 [] fun j => by
    rw [Nat.zero_add, testBit_addrsOf]
  rw [h] at hscan
  rw [parseDarwinSockaddrs, List.range_eq_range']
  exact hscan

theorem getD_offsetsOf_some {stored : List (Option Sockaddr)} {j : ℕ} {s : Sockaddr}
    (h : stored.getD j none = some s) : ∃ front rest, payloadOf stored = front ++ s.bytes ++ rest ∧
      (offsetsOf stored 0).getD j none = some front.length := by
  rcases offsetsOf_split stored j [] with ⟨hnone, -⟩ | ⟨s', front, rest, hsome, hpayload, hoffset⟩
  · rw [h] at hnone
    cases hnone
  · rw [h] at hsome
    cases hsome
    exact ⟨front, rest, hpayload, hoffset⟩

theorem getD_offsetsOf_none {stored : List (Option Sockaddr)} {j : ℕ}
    (h : stored.getD j none = none) : (offsetsOf stored 0).getD j none = none := by
  rcases offsetsOf_split stored j [] with ⟨-, hoffset⟩ | ⟨s', front, rest, hsome, -⟩
  · exact hoffset
  · rw [h] at hsome
    cases hsome

end Sockaddrs

section Addresses
variable {order : ByteOrder} {front rest : List UInt8}

/-- An address as Darwin has it. -/
inductive DarwinAddress where
  | ipv4 (octets : Vector UInt8 4)
  | ipv6 (octets : Vector UInt8 16) (scopeId : UInt32)
  deriving DecidableEq, Repr

namespace DarwinAddress

def family : DarwinAddress → AddressFamily
  | .ipv4 _ => .ipv4
  | .ipv6 _ _ => .ipv6

def record : DarwinAddress → IpAddressRecord
  | .ipv4 octets => ⟨.ipv4, addressValue octets.toList, 0⟩
  | .ipv6 octets scopeId => ⟨.ipv6, octets, scopeId.toNat⟩

/-- `sockaddr_in` or `sockaddr_in6`. -/
def sockaddr (order : ByteOrder) : DarwinAddress → Sockaddr
  | .ipv4 octets =>
    { saLen := 16
      rest := [2, 0, 0] ++ octets.toList ++ List.replicate 8 0
      saLen_ne := by decide
      length_rest := by simp [darwinSockaddrSize] }
  | .ipv6 octets scopeId =>
    { saLen := 28
      rest := [30, 0, 0, 0, 0, 0, 0] ++ octets.toList ++ encode order 4 scopeId.toNat
      saLen_ne := by decide
      length_rest := by simp [darwinSockaddrSize] }

@[simp] theorem record_family (a : DarwinAddress) : a.record.family = a.family := by
  cases a <;> rfl

end DarwinAddress

/-- The number of a family in a socket address. -/
def saFamilyOf : AddressFamily → ℕ
  | .ipv4 => afInet
  | .ipv6 => afInet6

theorem addressValue_toList (octets : Vector UInt8 16) : addressValue octets.toList = octets := by
  apply Vector.ext
  intro i hi
  simp [addressValue]

/-- The family of an address is the second byte. -/
theorem readByte_family (a : DarwinAddress) :
    (readByte (front ++ (a.sockaddr order).bytes ++ rest) (front.length + 1) : Result ℕ) =
      .ok (saFamilyOf a.family) := by
  rw [List.append_assoc, readByte_append_right]
  cases a <;> rfl

/-- A stored address is read. -/
theorem darwinIpAddress_sockaddr (a : DarwinAddress) :
    darwinIpAddress order (front ++ (a.sockaddr order).bytes ++ rest) front.length
      (saFamilyOf a.family) = .ok a.record := by
  have hlen : (readByte (front ++ (a.sockaddr order).bytes ++ rest) front.length : Result ℕ) =
      .ok (a.sockaddr order).saLen.toNat := by
    rw [List.append_assoc, readByte_append_length]
    rfl
  unfold darwinIpAddress
  rw [hlen, readByte_family, ok_bind, ok_bind]
  cases a with
  | ipv4 octets =>
    have hslice := slice_inside front ((DarwinAddress.ipv4 octets).sockaddr order).bytes rest
      (k := 4) (n := 4) (by simp [darwinSockaddrSize, DarwinAddress.sockaddr])
    have hbytes : (((DarwinAddress.ipv4 octets).sockaddr order).bytes.drop 4).take 4 =
        octets.toList := by
      rw [Sockaddr.bytes, DarwinAddress.sockaddr]
      simp
    have hfamily : saFamilyOf (DarwinAddress.ipv4 octets).family = afInet := rfl
    rw [hfamily, if_pos rfl, if_neg (by simp [DarwinAddress.sockaddr]), hslice, hbytes]
    rfl
  | ipv6 octets scopeId =>
    have hlength : ((DarwinAddress.ipv6 octets scopeId).sockaddr order).bytes.length = 28 := by
      simp [darwinSockaddrSize, DarwinAddress.sockaddr]
    have hslice := slice_inside front ((DarwinAddress.ipv6 octets scopeId).sockaddr order).bytes rest
      (k := 8) (n := 16) (by omega)
    have hscope := slice_inside front ((DarwinAddress.ipv6 octets scopeId).sockaddr order).bytes rest
      (k := 24) (n := 4) (by omega)
    have hbytes : (((DarwinAddress.ipv6 octets scopeId).sockaddr order).bytes.drop 8).take 16 =
        octets.toList := by
      rw [Sockaddr.bytes, DarwinAddress.sockaddr]
      simp
    have hscopeBytes : (((DarwinAddress.ipv6 octets scopeId).sockaddr order).bytes.drop 24).take 4 =
        encode order 4 scopeId.toNat := by
      rw [Sockaddr.bytes, DarwinAddress.sockaddr]
      simp
    have hfamily : saFamilyOf (DarwinAddress.ipv6 octets scopeId).family = afInet6 := rfl
    rw [hfamily, if_neg (by decide), if_pos rfl, if_neg (by simp [DarwinAddress.sockaddr]), hslice, hbytes,
      ok_bind, hscope, hscopeBytes, ok_bind, value_encode order scopeId.toNat_lt, addressValue_toList]
    rfl

end Addresses

section Netmasks
variable {family : AddressFamily} {front rest : List UInt8}

/-- So many bytes with the first `p` bits set. -/
def netmask : ℕ → ℕ → List UInt8
  | 0, _ => []
  | size + 1, p => UInt8.ofNat (256 - 2 ^ (8 - p)) :: netmask size (p - 8)

@[simp] theorem length_netmask (size p : ℕ) : (netmask size p).length = size := by
  induction size generalizing p with
  | zero => rfl
  | succ size ih => rw [netmask, List.length_cons, ih]

theorem netmask_zero (size : ℕ) : netmask size 0 = List.replicate size 0 := by
  induction size with
  | zero => rfl
  | succ size ih =>
    rw [netmask, Nat.zero_sub, ih]
    rfl

/-- The bits of a netmask: ones, then zeros. -/
theorem ofBytes_netmask {size p : ℕ} (h : p ≤ 8 * size) :
    Bits.ofBytes (netmask size p) =
      List.replicate p true ++ List.replicate (8 * size - p) false := by
  induction size generalizing p with
  | zero =>
    obtain rfl : p = 0 := by omega
    rfl
  | succ size ih =>
    rw [netmask, Bits.ofBytes_cons]
    by_cases hp : 8 ≤ p
    · obtain ⟨k, rfl⟩ := Nat.exists_eq_add_of_le hp
      rw [show 8 - (8 + k) = 0 by omega, Nat.add_sub_cancel_left, ih (by omega), List.replicate_add,
        List.append_assoc, show 8 * (size + 1) - (8 + k) = 8 * size - k by omega]
      rfl
    · have hbyte : ∀ k < 8, Bits.ofNat 8 (UInt8.ofNat (256 - 2 ^ (8 - k))).toNat =
          List.replicate k true ++ List.replicate (8 - k) false := by decide
      rw [hbyte p (by omega), show p - 8 = 0 by omega, ih (by omega), List.append_assoc,
        List.replicate_zero, List.nil_append, ← List.replicate_add,
        show 8 - p + (8 * size - 0) = 8 * (size + 1) - p by omega]

/-- Zeros behind the last bit are accepted. -/
theorem netmaskLoop_zeros (size n : ℕ) :
    netmaskLoop (List.replicate size 0) n true = .ok n := by
  induction size with
  | zero => rfl
  | succ size ih =>
    rw [List.replicate_succ, netmaskLoop]
    simpa using ih

/-- The length of a netmask is found. -/
theorem netmaskLoop_netmask {size p : ℕ} (h : p ≤ 8 * size) (n : ℕ) :
    netmaskLoop (netmask size p) n false = .ok (n + p) := by
  induction size generalizing p n with
  | zero =>
    obtain rfl : p = 0 := by omega
    rfl
  | succ size ih =>
    rw [netmask, netmaskLoop, if_neg (by decide)]
    by_cases hp : 8 ≤ p
    · rw [show 8 - p = 0 by omega, if_pos (by decide), ih (by omega),
        show n + 8 + (p - 8) = n + p by omega]
    · have hbyte : ∀ k < 8, UInt8.ofNat (256 - 2 ^ (8 - k)) ≠ 0xFF := by decide
      have hmask : maskLoop (UInt8.ofNat (256 - 2 ^ (8 - p))).toNat 8 n = (n + p, 2 ^ (7 - p)) := by
        have hlt : p < 8 := by omega
        interval_cases p <;> rfl
      have hpart : ∀ k < 8,
          (UInt8.ofNat (256 - 2 ^ (8 - k))).toNat &&& (2 ^ (7 - k) - 1) = 0 := by decide
      rw [if_neg (hbyte p (by omega)), hmask]
      simp only [hpart p (by omega), ne_eq, not_true_eq_false, if_false]
      rw [show p - 8 = 0 by omega, netmask_zero, netmaskLoop_zeros]

/-- A netmask as Darwin has it: of the bytes in front of the mask only the family may be set,
and what stands behind the last byte is anything. -/
structure Netmask (family : AddressFamily) where
  length : ℕ
  length_le : length ≤ maximumPrefixLength family
  saFamily : UInt8
  padding : ℕ → UInt8

/-- Where an address begins in a socket address. -/
def addressOffset : AddressFamily → ℕ
  | .ipv4 => 4
  | .ipv6 => 8

namespace Netmask
variable (m : Netmask family)

/-- The bytes behind the length of the whole socket address. -/
def whole : List UInt8 :=
  m.saFamily :: List.replicate (addressOffset family - 2) 0 ++ netmask (octetCount family) m.length

/-- What is left when the zeros at the end are cut. -/
def trimmed : List UInt8 := m.whole.rdropWhile (· == 0)

def saLen : ℕ := if m.trimmed = [] then 0 else m.trimmed.length + 1

theorem length_whole : m.whole.length = addressOffset family - 1 + octetCount family := by
  rw [whole, List.length_append, List.length_cons, List.length_replicate, length_netmask]
  cases family <;> rfl

theorem length_trimmed_le : m.trimmed.length ≤ addressOffset family - 1 + octetCount family := by
  rw [← m.length_whole]
  exact (List.rdropWhile_prefix _ _).length_le

theorem length_trimmed_lt : m.trimmed.length < 24 := by
  have hle := m.length_trimmed_le
  cases family <;> simp only [addressOffset, octetCount] at hle <;> omega

/-- The socket address of a netmask. -/
def sockaddr : Sockaddr where
  saLen := UInt8.ofNat m.saLen
  rest := m.trimmed ++
    (List.range (darwinSockaddrSize m.saLen - 1 - m.trimmed.length)).map m.padding
  saLen_ne := by
    intro h
    have hlt := m.length_trimmed_lt
    have hone := congrArg UInt8.toNat h
    rw [UInt8.toNat_ofNat', saLen] at hone
    split_ifs at hone with hnil
    · cases hone
    · have hpos := List.length_pos_iff.mpr hnil
      have htwo : (m.trimmed.length + 1) % 2 ^ 8 = 1 := hone
      omega
  length_rest := by
    have hlt := m.length_trimmed_lt
    have hsmall : m.saLen < 256 := by
      unfold saLen
      split_ifs <;> omega
    obtain ⟨hsize, htwo⟩ := le_darwinSockaddrSize m.saLen
    have hle : m.trimmed.length + 1 ≤ darwinSockaddrSize m.saLen := by
      unfold saLen at hsize htwo ⊢
      split_ifs at hsize htwo ⊢ with hnil
      · rw [hnil, List.length_nil]
        omega
      · exact hsize
    rw [UInt8.toNat_ofNat', Nat.mod_eq_of_lt hsmall, List.length_append, List.length_map,
      List.length_range]
    omega

/-- With zeros behind it the rest of the mask is the mask. -/
theorem drop_trimmed : m.trimmed.drop (addressOffset family - 1) ++
    List.replicate (octetCount family - (m.trimmed.length - (addressOffset family - 1))) 0 =
      netmask (octetCount family) m.length := by
  have hzeros : ∀ b ∈ m.whole.rtakeWhile (· == 0), b = 0 := by
    intro b hb
    simpa using List.mem_rtakeWhile_imp hb
  have hwhole : m.whole = m.trimmed ++
      List.replicate (m.whole.rtakeWhile (· == 0)).length 0 := by
    rw [← List.eq_replicate_of_mem hzeros, trimmed, List.rdropWhile_append_rtakeWhile]
  have hdrop : m.whole.drop (addressOffset family - 1) = netmask (octetCount family) m.length := by
    rw [whole]
    cases family <;> rfl
  have hlength := congrArg List.length hwhole
  rw [length_whole, List.length_append, List.length_replicate] at hlength
  rw [← hdrop, hwhole, List.drop_append, List.drop_replicate]
  congr 2
  omega

theorem toNat_saLen : m.sockaddr.saLen.toNat = m.saLen := by
  have hlt := m.length_trimmed_lt
  have hsmall : m.saLen < 256 := by
    unfold saLen
    split_ifs <;> omega
  show (UInt8.ofNat m.saLen).toNat = m.saLen
  rw [UInt8.toNat_ofNat', Nat.mod_eq_of_lt hsmall]

/-- The copied bytes and zeros behind them are the mask. -/
theorem netmaskBytes_sockaddr :
    netmaskBytes (front ++ m.sockaddr.bytes ++ rest) front.length m.saLen (addressOffset family)
      (octetCount family) = .ok (netmask (octetCount family) m.length) := by
  have hle := m.length_trimmed_le
  have hsmall : m.saLen ≤ m.sockaddr.bytes.length := by
    rw [Sockaddr.length_bytes, toNat_saLen]
    exact (le_darwinSockaddrSize _).1
  have hoffset : 1 ≤ addressOffset family := by cases family <;> decide
  have hdrop := m.drop_trimmed
  unfold netmaskBytes
  by_cases hlong : m.saLen > addressOffset family
  · have hlen : m.saLen = m.trimmed.length + 1 := by
      unfold saLen at hlong ⊢
      split_ifs at hlong ⊢ with hnil
      · omega
      · rfl
    obtain ⟨k, hk⟩ := Nat.exists_eq_add_of_le hoffset
    have hmin : min (m.saLen - addressOffset family) (octetCount family) =
        m.trimmed.length - k := by omega
    have hbytes : (m.sockaddr.bytes.drop (addressOffset family)).take (m.trimmed.length - k) =
        m.trimmed.drop k := by
      rw [Sockaddr.bytes, hk, Nat.add_comm, List.drop_succ_cons]
      show ((m.trimmed ++ _).drop k).take _ = _
      rw [List.drop_append_of_le_length (by omega), List.take_append_of_le_length (by simp),
        List.take_of_length_le (by simp)]
    rw [if_pos hlong, hmin, slice_inside _ _ _ (by omega), hbytes, ok_bind, List.length_drop, ← hdrop,
      show addressOffset family - 1 = k by omega]
  · have hshort : m.trimmed.length ≤ addressOffset family - 1 := by
      unfold saLen at hlong
      split_ifs at hlong with hnil
      · simp [hnil]
      · omega
    rw [if_neg hlong, ← hdrop, List.drop_eq_nil_of_le hshort, Nat.sub_eq_zero_of_le hshort]
    rfl

/-- The prefix length of a stored netmask is read. -/
theorem darwinPrefixLength_sockaddr :
    darwinPrefixLength (front ++ m.sockaddr.bytes ++ rest) (some front.length) (saFamilyOf family) =
      .ok m.length := by
  have hlen : (readByte (front ++ m.sockaddr.bytes ++ rest) front.length : Result ℕ) =
      .ok m.saLen := by
    rw [List.append_assoc, readByte_append_length, ← m.toNat_saLen]
    rfl
  have hoffset : (if saFamilyOf family = afInet then 4 else 8) = addressOffset family := by
    cases family <;> rfl
  have hsize : (if saFamilyOf family = afInet then 4 else 16) = octetCount family := by
    cases family <;> rfl
  have hmax : (if saFamilyOf family = afInet then 32 else 128) = maximumPrefixLength family := by
    cases family <;> rfl
  have hbits : m.length ≤ 8 * octetCount family := by
    have hle := m.length_le
    cases family <;> exact hle
  unfold darwinPrefixLength prefixFromNetmask
  simp only [hlen, ok_bind, hoffset, hsize, hmax]
  rw [netmaskBytes_sockaddr, ok_bind, netmaskLoop_netmask hbits, Nat.zero_add, ok_bind,
    if_neg (Nat.not_lt.mpr m.length_le)]

end Netmask

end Netmasks

section Routes
variable {order : ByteOrder}

/-- The prefix length that a netmask says; without one the route is for one host. -/
def prefixLengthOf {family : AddressFamily} : Option (Netmask family) → ℕ
  | some m => m.length
  | none => maximumPrefixLength family

/-- A unicast route that is up and not excluded. A network route has a netmask, and a host route
the flag of one. Without a next hop there may be anything in place of the gateway, and behind
the netmask there may be more socket addresses. -/
structure DarwinRoute where
  destination : DarwinAddress
  netmask : Option (Netmask destination.family)
  nextHop : Option DarwinAddress
  link : Option Sockaddr
  others : Vector (Option Sockaddr) 5
  index : ℕ
  flags : ℕ
  hopcount : UInt32
  messageType : UInt8
  gap : Vector UInt8 2
  counts : Vector UInt8 28
  metrics : Vector UInt8 44
  hostBits : ∀ b ∈ destination.record.bits.drop (prefixLengthOf netmask), b = false
  nextHop_valid : ∀ hop ∈ nextHop, hop.family = destination.family ∧ isUnspecified hop.record = false
  index_pos : 0 < index
  index_lt : index < 2 ^ 16
  flags_lt : flags < 2 ^ 32
  up : flags &&& rtfUp ≠ 0
  included : flags &&& excludedFlags = 0
  gateway_flag : flags &&& rtfGateway ≠ 0 ↔ nextHop.isSome = true
  host_flag : flags &&& rtfHost ≠ 0 ↔ netmask = none

namespace DarwinRoute
variable (route : DarwinRoute)

/-- The route as it is. -/
def record : RouteRecord where
  destination := route.destination.record
  prefixLength := prefixLengthOf route.netmask
  nextHop := route.nextHop.map DarwinAddress.record
  interfaceIndex := route.index
  metric := some route.hopcount.toNat

/-- What stands at the place of the gateway. -/
def gateway (order : ByteOrder) : Option Sockaddr :=
  match route.nextHop with
  | some hop => some (hop.sockaddr order)
  | none => route.link

def sockaddrs (order : ByteOrder) : List (Option Sockaddr) :=
  some (route.destination.sockaddr order) :: route.gateway order ::
    route.netmask.map Netmask.sockaddr :: route.others.toList

/-- `rt_msghdr2` of a message with a payload of some length. -/
def header (order : ByteOrder) (payloadLength : ℕ) : List UInt8 :=
  encode order 2 (92 + payloadLength) ++ [5, route.messageType] ++ encode order 2 route.index ++
    route.gap.toList ++ encode order 4 route.flags ++
    encode order 4 (addrsOf (route.sockaddrs order)) ++ route.counts.toList ++
    encode order 4 route.hopcount.toNat ++ route.metrics.toList

def message (order : ByteOrder) : List UInt8 :=
  route.header order (payloadOf (route.sockaddrs order)).length ++
    payloadOf (route.sockaddrs order)

@[simp] theorem length_sockaddrs : (route.sockaddrs order).length = rtaxMax := by
  simp [sockaddrs, rtaxMax]

@[simp] theorem length_header (n : ℕ) : (route.header order n).length = 92 := by
  simp [header]

end DarwinRoute

/-- The dump of the routes, one message behind the other. -/
def dump (order : ByteOrder) (routes : List DarwinRoute) : List UInt8 :=
  routes.flatMap fun route => route.message order

theorem length_payloadOf_le (stored : List (Option Sockaddr)) :
    (payloadOf stored).length ≤ 256 * stored.length := by
  induction stored with
  | nil => rfl
  | cons s stored ih =>
    rw [payloadOf, List.flatMap_cons, List.length_append, List.length_cons]
    have hone : (s.elim [] Sockaddr.bytes).length ≤ 256 := by
      cases s with
      | none => simp
      | some s =>
        have hlt := s.saLen.toNat_lt
        show s.bytes.length ≤ 256
        rw [Sockaddr.length_bytes, darwinSockaddrSize]
        split_ifs <;> omega
    have hrest : (stored.flatMap fun s => s.elim [] Sockaddr.bytes).length ≤ 256 * stored.length := ih
    omega

theorem addrsOf_lt (stored : List (Option Sockaddr)) : addrsOf stored < 2 ^ stored.length := by
  induction stored with
  | nil => simp [addrsOf]
  | cons s stored ih =>
    have hbit : s.isSome.toNat < 2 := by cases s.isSome <;> decide
    rw [addrsOf, List.length_cons, pow_succ]
    omega

/-- The fields of a header are read. -/
theorem readHeader_header (route : DarwinRoute) (n : ℕ) :
    readHeader order (route.header order n) =
      .ok ⟨rtmVersion, route.index, route.flags, addrsOf (route.sockaddrs order),
        route.hopcount.toNat⟩ := by
  have haddrs := addrsOf_lt (route.sockaddrs order)
  rw [route.length_sockaddrs] at haddrs
  have hread (pre field rest : List UInt8) (h : route.header order n = pre ++ field ++ rest) :
      (slice (route.header order n) pre.length field.length : Result (List UInt8)) = .ok field := by
    rw [h, slice_append]
  have hversion : (readByte (route.header order n) 2 : Result ℕ) = .ok rtmVersion := by
    rw [readByte_of_lt (by simp)]
    simp [DarwinRoute.header, rtmVersion]
  have hindex := hread (encode order 2 (92 + n) ++ [5, route.messageType])
    (encode order 2 route.index) _ (by simp only [DarwinRoute.header, List.append_assoc]; rfl)
  have hflags := hread (encode order 2 (92 + n) ++ [5, route.messageType] ++
      encode order 2 route.index ++ route.gap.toList) (encode order 4 route.flags) _
    (by simp only [DarwinRoute.header, List.append_assoc]; rfl)
  have hmask := hread (encode order 2 (92 + n) ++ [5, route.messageType] ++
      encode order 2 route.index ++ route.gap.toList ++ encode order 4 route.flags)
    (encode order 4 (addrsOf (route.sockaddrs order))) _
    (by simp only [DarwinRoute.header, List.append_assoc]; rfl)
  have hhops := hread (encode order 2 (92 + n) ++ [5, route.messageType] ++
      encode order 2 route.index ++ route.gap.toList ++ encode order 4 route.flags ++
      encode order 4 (addrsOf (route.sockaddrs order)) ++ route.counts.toList)
    (encode order 4 route.hopcount.toNat) route.metrics.toList
    (by simp only [DarwinRoute.header, List.append_assoc])
  simp only [List.length_append, length_encode, List.length_cons, List.length_nil,
    Vector.length_toList, Nat.reduceAdd] at hindex hflags hmask hhops
  unfold readHeader
  rw [hversion, hindex, hflags, hmask, hhops]
  simp only [ok_bind]
  rw [value_encode order (k := 2) route.index_lt, value_encode order (k := 4) route.flags_lt,
    value_encode order (k := 4) (lt_trans haddrs (by decide)),
    value_encode order (k := 4) route.hopcount.toNat_lt]

end Routes

section Conversion
variable {order : ByteOrder} (route : DarwinRoute)

/-- The record that the source makes of a route: one without a netmask has no prefix. -/
def DarwinRoute.converted : RouteRecord :=
  { route.record with prefixLength := route.netmask.elim 0 Netmask.length }

theorem darwinNextHop_route (order : ByteOrder) :
    darwinNextHop order route.flags (saFamilyOf route.destination.family)
        (payloadOf (route.sockaddrs order))
        ((offsetsOf (route.sockaddrs order) 0).getD rtaxGateway none) =
      .ok (route.nextHop.map DarwinAddress.record) := by
  have hget : (route.sockaddrs order).getD rtaxGateway none = route.gateway order := rfl
  have hflag := route.gateway_flag
  cases hhop : route.nextHop with
  | some hop =>
    obtain ⟨hfamily, hspecified⟩ := route.nextHop_valid hop hhop
    have hgateway : route.gateway order = some (hop.sockaddr order) := by
      rw [DarwinRoute.gateway, hhop]
    rw [hhop] at hflag
    obtain ⟨front, rest, hpayload, hoffset⟩ := getD_offsetsOf_some (hget.trans hgateway)
    rw [hoffset, hpayload, darwinNextHop, readByte_family, ok_bind, hfamily,
      if_pos ⟨hflag.mpr rfl, rfl⟩, ← hfamily, darwinIpAddress_sockaddr, ok_bind, hspecified]
    rfl
  | none =>
    have hgateway : route.gateway order = route.link := by rw [DarwinRoute.gateway, hhop]
    have hclear : ¬ route.flags &&& rtfGateway ≠ 0 := by simp [hflag, hhop]
    cases hlink : route.link with
    | none =>
      rw [getD_offsetsOf_none ((hget.trans hgateway).trans hlink)]
      rfl
    | some s =>
      obtain ⟨front, rest, hpayload, hoffset⟩ :=
        getD_offsetsOf_some ((hget.trans hgateway).trans hlink)
      have htwo : 1 < s.bytes.length := by
        rw [Sockaddr.length_bytes]
        exact (le_darwinSockaddrSize _).2
      rw [hoffset, hpayload, darwinNextHop, readByte_inside _ _ _ htwo, ok_bind,
        if_neg fun h => hclear h.1]
      rfl

theorem darwinPrefixLength_route (order : ByteOrder) :
    darwinPrefixLength (payloadOf (route.sockaddrs order))
        ((offsetsOf (route.sockaddrs order) 0).getD rtaxNetmask none)
        (saFamilyOf route.destination.family) =
      .ok (route.netmask.elim 0 Netmask.length) := by
  have hget : (route.sockaddrs order).getD rtaxNetmask none = route.netmask.map Netmask.sockaddr :=
    rfl
  cases hmask : route.netmask with
  | none =>
    rw [hmask] at hget
    rw [getD_offsetsOf_none hget]
    rfl
  | some m =>
    rw [hmask] at hget
    obtain ⟨front, rest, hpayload, hoffset⟩ := getD_offsetsOf_some hget
    rw [hoffset, hpayload, m.darwinPrefixLength_sockaddr]
    rfl

/-- What the source makes of the message of a route. -/
theorem appendDarwinRouteMessage_route (routes : List RouteRecord) :
    appendDarwinRouteMessage order
        ⟨rtmVersion, route.index, route.flags, addrsOf (route.sockaddrs order),
          route.hopcount.toNat⟩ (payloadOf (route.sockaddrs order)) routes =
      .ok (routes ++ [route.converted]) := by
  have hget : (route.sockaddrs order).getD rtaxDst none = some (route.destination.sockaddr order) :=
    rfl
  obtain ⟨front, rest, hpayload, hoffset⟩ := getD_offsetsOf_some hget
  have hfamily : saFamilyOf route.destination.family = afInet ∨
      saFamilyOf route.destination.family = afInet6 := by
    cases route.destination.family
    · exact .inl rfl
    · exact .inr rfl
  have hused : ¬ (route.flags &&& rtfUp = 0 ∨ route.flags &&& excludedFlags ≠ 0) := by
    simp [route.up, route.included]
  have hnetwork := darwinPrefixLength_route route order
  have hhop := darwinNextHop_route route order
  rw [hpayload] at hnetwork hhop
  unfold appendDarwinRouteMessage
  simp only [parseDarwinSockaddrs_payload route.length_sockaddrs]
  rw [if_neg hused, if_neg route.index_pos.ne', ok_bind, hoffset, hpayload]
  simp only [readByte_family, ok_bind, darwinIpAddress_sockaddr, hnetwork, hhop]
  rw [if_neg (by tauto), if_neg (Nat.not_lt.mpr (Numbers.le_uint32Max route.hopcount.toNat_lt))]
  rfl

end Conversion

section Dumps
variable {order : ByteOrder}

/-- A message is a record whose header gives its length. -/
theorem wellFormed_message (route : DarwinRoute) :
    (messageLayout order).WellFormed ⟨route.header order (payloadOf (route.sockaddrs order)).length,
      payloadOf (route.sockaddrs order)⟩ where
  header_length := route.length_header _
  length_eq := by
    have hle := length_payloadOf_le (route.sockaddrs order)
    rw [route.length_sockaddrs, rtaxMax] at hle
    show value order (List.take 2 _) = 92 + _
    rw [DarwinRoute.header]
    simp only [List.append_assoc]
    rw [List.take_left' (length_encode order 2 _), value_encode order (by omega)]
  le_advance := le_refl _

/-- A dump is read as the records that the source makes of its routes. -/
theorem parseDarwinRouteDump_dump (order : ByteOrder) (routes : List DarwinRoute) :
    parseDarwinRouteDump order (dump order routes) = .ok (routes.map DarwinRoute.converted) := by
  have hdump : dump order routes = (routes.map fun route =>
      (⟨route.header order (payloadOf (route.sockaddrs order)).length,
        payloadOf (route.sockaddrs order)⟩ : Frame)).flatMap (messageLayout order).encode := by
    rw [dump, List.flatMap_map]
    apply List.flatMap_congr
    intro route _
    simp [Layout.encode, Layout.advance, messageLayout, DarwinRoute.message]
  have hloop : (routes.map fun route =>
      (⟨route.header order (payloadOf (route.sockaddrs order)).length,
        payloadOf (route.sockaddrs order)⟩ : Frame)).foldlM (dumpMessage order) [] =
      .ok (routes.map DarwinRoute.converted) := by
    rw [List.foldlM_map, List.map_eq_flatMap]
    refine foldlM_flatMap (fun records route _ => ?_) []
    rw [dumpMessage, readHeader_header, ok_bind, if_neg (by simp), appendDarwinRouteMessage_route]
  rw [parseDarwinRouteDump, hdump, walk_encode _ _ _ _ (by
    intro frame hframe
    obtain ⟨route, -, rfl⟩ := List.mem_map.mp hframe
    exact wellFormed_message route), hloop]

theorem validateIpAddress_record (a : DarwinAddress) : validateIpAddress a.record = .ok () := by
  cases a with
  | ipv4 octets =>
    have htail : ((addressValue octets.toList).toList.drop 4).any (· != 0) = false := by
      rw [List.any_eq_false]
      intro b hb
      obtain ⟨i, hi⟩ := List.mem_iff_getElem?.mp hb
      rw [List.getElem?_drop, List.getElem?_eq_some_iff] at hi
      obtain ⟨hlt, hi⟩ := hi
      have hzero : b = 0 := by
        rw [← hi]
        simp [addressValue]
      simp [hzero]
    unfold validateIpAddress DarwinAddress.record
    simp only [htail]
    rfl
  | ipv6 octets scopeId => rfl

/-- The boundary accepts a route as it is. -/
theorem validateRouteRecord_record (route : DarwinRoute) :
    validateRouteRecord route.record = .ok () := by
  apply validateRouteRecord_eq
  · exact validateIpAddress_record _
  · exact route.index_pos.ne'
  · show prefixLengthOf route.netmask ≤ maximumPrefixLength route.destination.record.family
    rw [DarwinAddress.record_family]
    cases hmask : route.netmask with
    | none => exact le_refl _
    | some m => exact m.length_le
  · exact route.hostBits
  · intro hop hhop
    obtain ⟨address, haddress, rfl⟩ := Option.map_eq_some_iff.mp hhop
    refine ⟨validateIpAddress_record address, ?_⟩
    show address.record.family = route.destination.record.family
    rw [DarwinAddress.record_family, DarwinAddress.record_family]
    exact (route.nextHop_valid address haddress).1

/-- What is claimed of a list of routes: the dump is read as the routes are, in order, and the
boundary accepts them; and no read of any dump leaves it. -/
structure Converted (order : ByteOrder) (routes : List DarwinRoute) : Prop where
  records : parseDarwinRouteDump order (dump order routes) = .ok (routes.map DarwinRoute.record)
  accepted : validateRouteRecords (parseDarwinRouteDump order (dump order routes)) =
    .ok (routes.map DarwinRoute.record)
  bounded : ∀ data, Defined (parseDarwinRouteDump order data)

/-- A route is converted as it is just if it has a netmask. -/
theorem converted_eq_record_iff (route : DarwinRoute) :
    route.converted = route.record ↔ route.netmask ≠ none := by
  have hlength : route.converted = route.record ↔
      route.netmask.elim 0 Netmask.length = prefixLengthOf route.netmask := by
    simp [DarwinRoute.converted, DarwinRoute.record]
  rw [hlength]
  cases hmask : route.netmask with
  | none =>
    have hpos : 0 ≠ maximumPrefixLength route.destination.family := by
      cases route.destination.family <;> decide
    simpa [prefixLengthOf] using hpos
  | some m => simp [prefixLengthOf]

/-- The routes of a system are converted as they are just if none is a host route. -/
theorem dump_converted_iff (order : ByteOrder) (routes : List DarwinRoute) :
    Converted order routes ↔ ∀ route ∈ routes, route.flags &&& rtfHost = 0 := by
  have hmask (route : DarwinRoute) : route.flags &&& rtfHost = 0 ↔ route.netmask ≠ none := by
    rw [← not_iff_not, not_not]
    exact route.host_flag
  simp only [hmask, ← converted_eq_record_iff]
  rw [← List.map_inj_left]
  constructor
  · intro h
    have hrecords := h.records
    rw [parseDarwinRouteDump_dump, Except.ok.injEq] at hrecords
    exact hrecords
  · intro h
    have hparse := parseDarwinRouteDump_dump order routes
    rw [h] at hparse
    refine ⟨hparse, ?_, fun data => defined_parseDarwinRouteDump data⟩
    rw [hparse]
    apply validateRouteRecords_eq
    intro entry hentry
    obtain ⟨route, -, rfl⟩ := List.mem_map.mp hentry
    exact validateRouteRecord_record route

/-- The route to one host in the local network. -/
def hostRoute : DarwinRoute where
  destination := .ipv4 #v[192, 168, 1, 5]
  netmask := none
  nextHop := none
  link := none
  others := .replicate 5 none
  index := 6
  flags := 0x5
  hopcount := 0
  messageType := 20
  gap := .replicate 2 0
  counts := .replicate 28 0
  metrics := .replicate 44 0
  hostBits := by decide
  nextHop_valid := by simp
  index_pos := by decide
  index_lt := by decide
  flags_lt := by decide
  up := by decide
  included := by decide
  gateway_flag := by decide
  host_flag := by decide

/-- The route to a host is read as a default route that starts at the host, and then refused. -/
theorem host_route_rejected :
    parseDarwinRouteDump .little (dump .little [hostRoute]) =
      .ok [{ hostRoute.record with prefixLength := 0 }] ∧
    validateRouteRecords (parseDarwinRouteDump .little (dump .little [hostRoute])) =
      fail .malformedData ∧
    ¬ Converted .little [hostRoute] := by
  have hparse : parseDarwinRouteDump .little (dump .little [hostRoute]) =
      .ok [{ hostRoute.record with prefixLength := 0 }] := parseDarwinRouteDump_dump .little [hostRoute]
  refine ⟨hparse, ?_, ?_⟩
  · rw [hparse]
    decide +kernel
  · intro h
    have hrecords := h.records
    rw [hparse] at hrecords
    exact absurd hrecords (by decide +kernel)

end Dumps

end Syscape.RoutesMacos
