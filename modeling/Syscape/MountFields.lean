import Syscape.CgroupCpu
import Syscape.Security
import Syscape.Lib.OctalEscape

/-!
# Fields of the mount table

Four modules read the mount table of the kernel, and each has its own decoder of the
octal escapes in a field. The decoders of the file systems and of the storage devices
know four escapes and refuse every other backslash; those of the cgroup mounts and of the
security module take any three octal digits and leave other backslashes as they are.
-/
namespace Syscape
open Checked OctalEscape

namespace MountFields

/-- `octal_digit_value`. -/
def octalDigitValue (value : UInt8) : ℤ :=
  if 0x30 ≤ value ∧ value ≤ 0x37 then value.toNat - 0x30 else -1

/-- `decode_mount_escape`, on what is left of the field from the backslash on. -/
def decodeMountEscape : List UInt8 → Result UInt8
  | _ :: h :: t :: o :: _ =>
    let hundreds := octalDigitValue h
    let tens := octalDigitValue t
    let ones := octalDigitValue o
    if hundreds < 0 ∨ tens < 0 ∨ ones < 0 then fail .malformedData
    else
      let code := hundreds * 64 + tens * 8 + ones
      if code = 0o40 then .ok 0x20
      else if code = 0o11 then .ok 0x09
      else if code = 0o12 then .ok 0x0A
      else if code = 0o134 then .ok 0x5C
      else fail .malformedData
  | _ => fail .malformedData

/-- The decoder that knows four escapes. -/
def decodeKnownEscapes (field : List UInt8) : Result (List UInt8) :=
  match field with
  | [] => .ok []
  | c :: rest =>
    if c ≠ 0x5C then do
      let output ← decodeKnownEscapes rest
      .ok (c :: output)
    else do
      let decoded ← decodeMountEscape (c :: rest)
      let output ← decodeKnownEscapes (rest.drop 3)
      .ok (decoded :: output)
termination_by field.length

/-- The decoder that takes any three octal digits behind a backslash; their value is cut
to a byte. -/
def decodeAnyOctal (text : List UInt8) : List UInt8 :=
  match text with
  | [] => []
  | [c] => [c]
  | [c, h] => [c, h]
  | [c, h, t] => [c, h, t]
  | c :: h :: t :: o :: rest =>
    if c = 0x5C ∧ isDigit h ∧ isDigit t ∧ isDigit o then
      UInt8.ofNat (((h.toNat - 0x30) <<< 6) ||| ((t.toNat - 0x30) <<< 3) ||| (o.toNat - 0x30)) ::
        decodeAnyOctal rest
    else c :: decodeAnyOctal (h :: t :: o :: rest)
termination_by text.length

theorem octalDigitValue_of_isDigit {c : UInt8} (h : isDigit c = true) :
    octalDigitValue c = digitValue c := by
  have hle : (0x30 : UInt8) ≤ c ∧ c ≤ 0x37 := by simpa [isDigit] using h
  have hnat : 0x30 ≤ c.toNat := UInt8.le_iff_toNat_le.mp hle.1
  rw [octalDigitValue, if_pos hle, digitValue]
  omega

/-- The bytes whose escapes are known. -/
def isKnown (b : UInt8) : Bool := b == 0x20 || b == 0x09 || b == 0x0A || b == 0x5C

/-- The escape of a byte gives the byte, if it is one of the four. -/
theorem decodeMountEscape_digits (b : UInt8) (rest : List UInt8) :
    decodeMountEscape (0x5C :: digits b ++ rest) =
      if isKnown b then .ok b else fail .malformedData := by
  obtain ⟨h, t, o, hdigits, hh, ht, ho, hvalue⟩ := digits_spec b
  have hcode : octalDigitValue h * 64 + octalDigitValue t * 8 + octalDigitValue o = b.toNat := by
    rw [octalDigitValue_of_isDigit hh, octalDigitValue_of_isDigit ht,
      octalDigitValue_of_isDigit ho]
    exact_mod_cast hvalue
  have hnonneg : ¬ (octalDigitValue h < 0 ∨ octalDigitValue t < 0 ∨ octalDigitValue o < 0) := by
    rw [octalDigitValue_of_isDigit hh, octalDigitValue_of_isDigit ht,
      octalDigitValue_of_isDigit ho]
    omega
  have heq : ∀ c : UInt8, (b.toNat : ℤ) = c.toNat ↔ b = c := by
    intro c
    rw [Nat.cast_inj, UInt8.toNat_inj]
  have hspace : (b.toNat : ℤ) = 32 ↔ b = 0x20 := heq 0x20
  have htab : (b.toNat : ℤ) = 9 ↔ b = 0x09 := heq 0x09
  have hnewline : (b.toNat : ℤ) = 10 ↔ b = 0x0A := heq 0x0A
  have hbackslash : (b.toNat : ℤ) = 92 ↔ b = 0x5C := heq 0x5C
  rw [hdigits]
  simp only [List.cons_append, decodeMountEscape, hcode]
  rw [if_neg hnonneg]
  simp only [hspace, htab, hnewline, hbackslash]
  split_ifs with h1 h2 h3 h4 <;> simp_all [isKnown]

theorem decodeKnownEscapes_cons {c : UInt8} (hc : c ≠ 0x5C) (rest : List UInt8) :
    decodeKnownEscapes (c :: rest) = (decodeKnownEscapes rest).map (c :: ·) := by
  rw [decodeKnownEscapes, if_pos hc]
  cases decodeKnownEscapes rest <;> rfl

theorem decodeKnownEscapes_escape (b : UInt8) (rest : List UInt8) :
    decodeKnownEscapes (0x5C :: digits b ++ rest) =
      if isKnown b then (decodeKnownEscapes rest).map (b :: ·) else fail .malformedData := by
  have hrest : (digits b ++ rest).drop 3 = rest := rfl
  rw [List.cons_append, decodeKnownEscapes, if_neg (by simp), ← List.cons_append,
    decodeMountEscape_digits, hrest]
  by_cases hb : isKnown b = true
  · rw [if_pos hb, if_pos hb, ok_bind]
    cases decodeKnownEscapes rest <;> rfl
  · rw [if_neg hb, if_neg hb, fail_bind]

theorem decodeAnyOctal_cons {c : UInt8} (hc : c ≠ 0x5C) (rest : List UInt8) :
    decodeAnyOctal (c :: rest) = c :: decodeAnyOctal rest := by
  match rest with
  | [] => simp [decodeAnyOctal]
  | [_] => simp [decodeAnyOctal]
  | [_, _] => simp [decodeAnyOctal]
  | _ :: _ :: _ :: _ => rw [decodeAnyOctal, if_neg (by simp [hc])]

theorem decodeAnyOctal_escape (b : UInt8) (rest : List UInt8) :
    decodeAnyOctal (0x5C :: digits b ++ rest) = b :: decodeAnyOctal rest := by
  obtain ⟨h, t, o, hdigits, hh, ht, ho, hvalue⟩ := digits_spec b
  have hbyte : UInt8.ofNat (((h.toNat - 0x30) <<< 6) ||| ((t.toNat - 0x30) <<< 3) |||
      (o.toNat - 0x30)) = b := by
    have hor := or_digits (h := digitValue h) (digitValue_lt ht) (digitValue_lt ho)
    rw [hvalue] at hor
    change UInt8.ofNat ((digitValue h <<< 6) ||| (digitValue t <<< 3) ||| digitValue o) = b
    rw [hor, UInt8.ofNat_toNat]
  rw [hdigits]
  simp only [List.cons_append, List.nil_append]
  rw [decodeAnyOctal, if_pos ⟨rfl, hh, ht, ho⟩, hbyte]

end MountFields

open MountFields

/-- `decode_mount_field` of the file systems. -/
def Filesystem.decodeMountField (field : List UInt8) : Result (List UInt8) :=
  decodeKnownEscapes field

/-- `decode_mount_field` of the storage devices. -/
def Storage.decodeMountField (field : List UInt8) : Result (List UInt8) :=
  decodeKnownEscapes field

/-- `unescape_mountinfo_path`. -/
def Cgroup.unescapeMountinfoPath (text : List UInt8) : List UInt8 := decodeAnyOctal text

/-- `decode_mount_entry`. -/
def Security.decodeMountEntry (text : List UInt8) : List UInt8 := decodeAnyOctal text

namespace MountFields

section Decoders
variable {special : UInt8 → Bool}

/-- The decoder of the four escapes reads every text back in which no other byte is
escaped. -/
theorem decodeKnownEscapes_append (hspecial : special 0x5C = true) {s : List UInt8}
    (hs : ∀ b ∈ s, special b = true → isKnown b = true) (rest : List UInt8) :
    decodeKnownEscapes (escape special s ++ rest) = (decodeKnownEscapes rest).map (s ++ ·) := by
  apply read_escape
  intro b hb more
  unfold escapeByte
  split_ifs with h
  · rw [decodeKnownEscapes_escape, if_pos (hs b hb h)]
  · exact decodeKnownEscapes_cons (by rintro rfl; exact h hspecial) more

/-- Another escaped byte is refused, whatever is around it. -/
theorem decodeKnownEscapes_unknown (hspecial : special 0x5C = true) {s : List UInt8} {b : UInt8}
    (hb : b ∈ s) (hb' : special b = true) (hknown : isKnown b = false) (rest : List UInt8) :
    decodeKnownEscapes (escape special s ++ rest) = fail .malformedData := by
  induction s with
  | nil => exact absurd hb (by simp)
  | cons c s ih =>
    rw [escape_cons, List.append_assoc, escapeByte]
    by_cases hc : special c = true ∧ isKnown c = false
    · rw [if_pos hc.1, decodeKnownEscapes_escape, if_neg (by simp [hc.2])]
    · have hmem : b ∈ s := by
        rcases List.mem_cons.mp hb with rfl | h
        · exact absurd ⟨hb', hknown⟩ hc
        · exact h
      split_ifs with h
      · rw [decodeKnownEscapes_escape, if_pos (by simpa [h] using hc), ih hmem]
        rfl
      · rw [List.singleton_append, decodeKnownEscapes_cons (by rintro rfl; exact h hspecial),
          ih hmem]
        rfl

/-- The decoder of all escapes reads every text back. -/
theorem decodeAnyOctal_append (hspecial : special 0x5C = true) (s rest : List UInt8) :
    decodeAnyOctal (escape special s ++ rest) = s ++ decodeAnyOctal rest := by
  induction s with
  | nil => rfl
  | cons b s ih =>
    rw [escape_cons, List.append_assoc, escapeByte]
    split_ifs with h
    · rw [decodeAnyOctal_escape, ih, List.cons_append]
    · rw [List.singleton_append, decodeAnyOctal_cons (by rintro rfl; exact h hspecial), ih,
        List.cons_append]

end Decoders

section Mangle

/-- The bytes that the kernel escapes in device names and file-system types. -/
def isMangled (b : UInt8) : Bool := isKnown b || b == 0x23

/-- The kernel's `mangle`. -/
def mangle (s : List UInt8) : List UInt8 := escape isMangled s

theorem isMangled_and_unknown {b : UInt8} (h : isMangled b = true) :
    isKnown b = false ↔ b = 0x23 := by
  unfold isMangled at h
  constructor
  · intro hb
    simpa [hb] using h
  · rintro rfl
    rfl

/-- The decoders of the file systems and of the storage devices fail exactly on the texts
with a hash sign, which the kernel escapes and they do not know. -/
theorem decodeKnownEscapes_mangle (s : List UInt8) :
    decodeKnownEscapes (mangle s) = if 0x23 ∈ s then fail .malformedData else .ok s := by
  have happend : mangle s = mangle s ++ [] := (List.append_nil _).symm
  rw [happend]
  split_ifs with h
  · exact decodeKnownEscapes_unknown rfl h rfl rfl []
  · have hs : ∀ b ∈ s, isMangled b = true → isKnown b = true := by
      intro b hb hb'
      by_contra hknown
      rw [Bool.not_eq_true, isMangled_and_unknown hb'] at hknown
      exact h (hknown ▸ hb)
    rw [mangle, decodeKnownEscapes_append rfl hs]
    simp [decodeKnownEscapes, Except.map]

theorem decodeAnyOctal_mangle (s : List UInt8) : decodeAnyOctal (mangle s) = s := by
  have h := @decodeAnyOctal_append isMangled rfl s []
  rwa [List.append_nil, decodeAnyOctal, List.append_nil] at h

/-- The four decoders read back what the kernel has written. -/
def DecodersInvert (s : List UInt8) : Prop :=
  Cgroup.unescapeMountinfoPath (mangle s) = s ∧ Security.decodeMountEntry (mangle s) = s ∧
    Storage.decodeMountField (mangle s) = .ok s ∧ Filesystem.decodeMountField (mangle s) = .ok s

/-- They all do exactly for the texts without a hash sign. -/
theorem decoders_invert_iff (s : List UInt8) : DecodersInvert s ↔ 0x23 ∉ s := by
  have hknown : decodeKnownEscapes (mangle s) = .ok s ↔ 0x23 ∉ s := by
    rw [decodeKnownEscapes_mangle]
    split_ifs with h <;> simp [h]
  constructor
  · intro h
    exact hknown.mp h.2.2.1
  · intro h
    have hs := hknown.mpr h
    exact ⟨decodeAnyOctal_mangle s, decodeAnyOctal_mangle s, hs, hs⟩

/-- A device `#1` fails in two of the modules. -/
theorem hash_not_inverted :
    ¬ ∀ s : List UInt8, 0x00 ∉ s → DecodersInvert s := by
  intro h
  have hs := (h (Text.ascii "#1") (by decide)).2.2.1
  change decodeKnownEscapes (mangle (Text.ascii "#1")) = _ at hs
  rw [decodeKnownEscapes_mangle, if_pos (by decide)] at hs
  exact fail_ne_ok _ _ hs

end Mangle

end MountFields

end Syscape
