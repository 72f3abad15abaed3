import Mathlib.Data.Nat.Notation
import Mathlib.Tactic.Common

/-!
# Addresses and routes

The records that the network backends hand to the boundary of the library.
-/
namespace Syscape.Network

/-- `address_family`. -/
inductive AddressFamily where
  | ipv4
  | ipv6
  deriving DecidableEq, Repr

/-- `maximum_prefix_length`. -/
def maximumPrefixLength : AddressFamily → ℕ
  | .ipv4 => 32
  | .ipv6 => 128

/-- `ip_address_record`; an IPv4 address takes the first four bytes of the value. -/
structure IpAddressRecord where
  family : AddressFamily
  value : Vector UInt8 16
  scopeId : ℕ
  deriving DecidableEq, Repr

/-- `route_record`. -/
structure RouteRecord where
  destination : IpAddressRecord
  prefixLength : ℕ
  nextHop : Option IpAddressRecord
  interfaceIndex : ℕ
  metric : Option ℕ
  deriving DecidableEq, Repr

/-- `memcpy` of at most sixteen bytes into a zeroed address value. -/
def addressValue (bytes : List UInt8) : Vector UInt8 16 := Vector.ofFn fun i => bytes.getD i 0

end Syscape.Network
