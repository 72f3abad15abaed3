import Syscape.Error
import Syscape.Lib.Digits
import Syscape.Lib.Endian
import Syscape.Lib.Text
import Mathlib.Data.Nat.Bitwise

/-!
# Texts of the security module

The helpers that the security queries share: trimming, hexadecimal masks, and the
names of the Linux capabilities in a mask.
-/
namespace Syscape.Security
open Checked Text

/-- The blanks of the security module's `trim_whitespace`. -/
def isBlank (c : UInt8) : Bool := c == 0x20 || c == 0x09 || c == 0x0D || c == 0x0A

/-- `trim_whitespace` of the security module. -/
def trimWhitespace (text : List UInt8) : List UInt8 :=
  (text.dropWhile isBlank).rdropWhile isBlank

/-- A byte that is no blank in front of a text stays in front of the trimmed text. -/
theorem trimWhitespace_cons {c : UInt8} (hc : isBlank c = false) (text : List UInt8) :
    ∃ more, trimWhitespace (c :: text) = c :: more := by
  unfold trimWhitespace
  rw [List.dropWhile_cons_of_neg (by simp [hc]), List.rdropWhile, List.reverse_cons]
  by_cases h : text.reverse.all isBlank
  · rw [List.dropWhile_append_of_pos (by simpa using h), List.dropWhile_cons_of_neg (by simp [hc])]
    exact ⟨[], rfl⟩
  · have hne : text.reverse.dropWhile isBlank ≠ [] := by
      simpa [List.dropWhile_eq_nil_iff] using h
    rw [List.dropWhile_append, if_neg (by simpa using hne), List.reverse_append]
    exact ⟨_, rfl⟩

/-- The value of a hexadecimal digit, as the loop of `parse_hex_u64` computes it. -/
def hexDigit (c : UInt8) : Option UInt64 :=
  if 0x30 ≤ c ∧ c ≤ 0x39 then some (c - 0x30).toUInt64
  else if 0x61 ≤ c ∧ c ≤ 0x66 then some (c - 0x61 + 10).toUInt64
  else if 0x41 ≤ c ∧ c ≤ 0x46 then some (c - 0x41 + 10).toUInt64
  else none

/-- The loop of `parse_hex_u64`. -/
def parseHexDigits (val : UInt64) : List UInt8 → Result UInt64
  | [] => .ok val
  | c :: digits =>
    match hexDigit c with
    | none => fail .malformedData
    | some digit =>
      if val > (0xFFFFFFFFFFFFFFFF : UInt64) >>> 4 then fail .valueTooLarge
      else parseHexDigits ((val <<< 4) ||| digit) digits

/-- `parse_hex_u64`. -/
def parseHexU64 (text : List UInt8) : Result UInt64 :=
  let trimmed := trimWhitespace text
  if trimmed = [] then fail .malformedData
  else
    let start := if ascii "0x" <+: trimmed ∨ ascii "0X" <+: trimmed then 2 else 0
    if start ≥ trimmed.length then fail .malformedData
    else parseHexDigits 0 (trimmed.drop start)

/-- `k_cap_names`, by bit. -/
def capNames : List (List UInt8) :=
  [ascii "cap_chown", ascii "cap_dac_override", ascii "cap_dac_read_search", ascii "cap_fowner",
    ascii "cap_fsetid", ascii "cap_kill", ascii "cap_setgid", ascii "cap_setuid",
    ascii "cap_setpcap", ascii "cap_linux_immutable", ascii "cap_net_bind_service",
    ascii "cap_net_broadcast", ascii "cap_net_admin", ascii "cap_net_raw", ascii "cap_ipc_lock",
    ascii "cap_ipc_owner", ascii "cap_sys_module", ascii "cap_sys_rawio", ascii "cap_sys_chroot",
    ascii "cap_sys_ptrace", ascii "cap_sys_pacct", ascii "cap_sys_admin", ascii "cap_sys_boot",
    ascii "cap_sys_nice", ascii "cap_sys_resource", ascii "cap_sys_time",
    ascii "cap_sys_tty_config", ascii "cap_mknod", ascii "cap_lease", ascii "cap_audit_write",
    ascii "cap_audit_control", ascii "cap_setfcap", ascii "cap_mac_override",
    ascii "cap_mac_admin", ascii "cap_syslog", ascii "cap_wake_alarm", ascii "cap_block_suspend",
    ascii "cap_audit_read", ascii "cap_perfmon", ascii "cap_bpf", ascii "cap_checkpoint_restore"]

/-- The name of a capability bit; a bit without a name is written with its number. -/
def capName (bit : ℕ) : List UInt8 := capNames.getD bit (ascii "cap_" ++ Digits.decimal bit)

/-- `decode_linux_capabilities`. -/
def decodeLinuxCapabilities (mask : UInt64) : List (List UInt8) :=
  ((List.range 64).filter fun bit => mask &&& (1 <<< UInt64.ofNat bit) != 0).map capName

theorem capName_injective : ((List.range 64).map capName).Nodup := by
  -- the names are told apart as numbers, which are compared faster than lists
  have hvalues : (((List.range 64).map capName).map Endian.leValue).Nodup := by decide +kernel
  exact List.Nodup.of_map _ hvalues

lemma and_bit_ne_zero (mask : UInt64) {bit : ℕ} (hbit : bit < 64) :
    (mask &&& (1 <<< UInt64.ofNat bit) != 0) = mask.toNat.testBit bit := by
  have hshift : (1 <<< UInt64.ofNat bit : UInt64).toNat = 2 ^ bit := by
    have hmod : (UInt64.ofNat bit).toNat % 64 = bit := by
      rw [UInt64.toNat_ofNat']
      omega
    have hlt : 2 ^ bit < 2 ^ 64 := Nat.pow_lt_pow_right (by decide) hbit
    rw [UInt64.toNat_shiftLeft, hmod, UInt64.toNat_one, Nat.one_shiftLeft, Nat.mod_eq_of_lt hlt]
  have hand : (mask &&& (1 <<< UInt64.ofNat bit)).toNat = (mask.toNat.testBit bit).toNat * 2 ^ bit := by
    rw [UInt64.toNat_and, hshift, Nat.and_two_pow]
  rw [Bool.eq_iff_iff, bne_iff_ne, ne_eq, ← UInt64.toNat_inj, hand, UInt64.toNat_zero]
  cases mask.toNat.testBit bit <;> simp

/-- Different masks decode to different lists of names. -/
theorem decodeLinuxCapabilities_injective {mask mask' : UInt64}
    (h : decodeLinuxCapabilities mask = decodeLinuxCapabilities mask') : mask = mask' := by
  have hbits : ∀ bit < 64, mask.toNat.testBit bit = mask'.toNat.testBit bit := by
    have hname : ∀ m : UInt64, ∀ bit < 64,
        capName bit ∈ decodeLinuxCapabilities m ↔ m.toNat.testBit bit = true := by
      intro m bit hbit
      simp only [decodeLinuxCapabilities, List.mem_map, List.mem_filter, List.mem_range]
      constructor
      · rintro ⟨bit', ⟨hbit', htest⟩, hsame⟩
        obtain rfl := List.inj_on_of_nodup_map capName_injective (List.mem_range.mpr hbit')
          (List.mem_range.mpr hbit) hsame
        rwa [and_bit_ne_zero m hbit'] at htest
      · intro htest
        exact ⟨bit, ⟨hbit, by rwa [and_bit_ne_zero m hbit]⟩, rfl⟩
    intro bit hbit
    rw [Bool.eq_iff_iff, ← hname mask bit hbit, ← hname mask' bit hbit, h]
  apply UInt64.toNat_inj.mp
  apply Nat.eq_of_testBit_eq
  intro bit
  by_cases hbit : bit < 64
  · exact hbits bit hbit
  · have hle : 2 ^ 64 ≤ 2 ^ bit := Nat.pow_le_pow_right (by decide) (by omega)
    rw [Nat.testBit_lt_two_pow (lt_of_lt_of_le mask.toNat_lt hle),
      Nat.testBit_lt_two_pow (lt_of_lt_of_le mask'.toNat_lt hle)]

@[simp] theorem decodeLinuxCapabilities_zero : decodeLinuxCapabilities 0 = [] := by
  decide +kernel

end Syscape.Security
