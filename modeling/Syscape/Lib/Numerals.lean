import Syscape.Lib.FromChars
import Mathlib.Data.List.Basic

/-!
# Numbers as they are printed

The decimal and hexadecimal texts of `printf`, with a width, and what the readers of
numbers find in them.
-/
namespace Numerals
open Digits FromChars

variable {base n width : ℕ} {c : UInt8}

section Digits

/-- A digit below sixteen as an ASCII byte, letters in upper case. -/
def hexDigit (d : ℕ) : UInt8 := if d < 10 then UInt8.ofNat (0x30 + d) else UInt8.ofNat (0x37 + d)

/-- The text that `%X` prints. -/
def hexadecimal (n : ℕ) : List UInt8 := (ofNat 16 n).map hexDigit

/-- A digit below sixteen as an ASCII byte, letters in lower case. -/
def lowerHexDigit (d : ℕ) : UInt8 :=
  if d < 10 then UInt8.ofNat (0x30 + d) else UInt8.ofNat (0x57 + d)

/-- The text that `%x` prints. -/
def lowerHexadecimal (n : ℕ) : List UInt8 := (ofNat 16 n).map lowerHexDigit

/-- The text that `%lld` prints. -/
def signedDecimal (z : ℤ) : List UInt8 :=
  if z < 0 then 0x2D :: decimal z.natAbs else decimal z.natAbs

@[simp] theorem signedDecimal_natCast (n : ℕ) : signedDecimal n = decimal n := by
  rw [signedDecimal, if_neg (by omega), Int.natAbs_natCast]

theorem digit_asciiDigit {d : ℕ} (h : d < 10) : digit (asciiDigit d) = d := by
  interval_cases d <;> rfl

theorem digit_hexDigit {d : ℕ} (h : d < 16) : digit (hexDigit d) = d := by
  interval_cases d <;> rfl

theorem digit_lowerHexDigit {d : ℕ} (h : d < 16) : digit (lowerHexDigit d) = d := by
  interval_cases d <;> rfl

/-- Digits as bytes that stand for them are a numeral. -/
theorem numeral_map {write : ℕ → UInt8} (hbase : 1 < base)
    (h : ∀ d < base, digit (write d) = d) (n : ℕ) :
    Numeral base n ((ofNat base n).map write) where
  ne_nil := by simpa using ofNat_ne_nil base n
  digits := by
    intro c hc
    obtain ⟨d, hd, rfl⟩ := List.mem_map.mp hc
    have hlt := ofNat_lt hbase hd
    rwa [h d hlt]
  value_eq := by
    have hself : ((ofNat base n).map write).map digit = ofNat base n := by
      rw [List.map_map, List.map_congr_left, List.map_id]
      intro d hd
      exact h d (ofNat_lt hbase hd)
    rw [hself, value_ofNat]

theorem numeral_decimal (n : ℕ) : Numeral 10 n (decimal n) :=
  numeral_map (by decide) (fun _ => digit_asciiDigit) n

theorem decimal_injective : Function.Injective decimal := by
  intro m n h
  rw [← (numeral_decimal m).value_eq, h, (numeral_decimal n).value_eq]

theorem numeral_hexadecimal (n : ℕ) : Numeral 16 n (hexadecimal n) :=
  numeral_map (by decide) (fun _ => digit_hexDigit) n

theorem numeral_lowerHexadecimal (n : ℕ) : Numeral 16 n (lowerHexadecimal n) :=
  numeral_map (by decide) (fun _ => digit_lowerHexDigit) n

end Digits

section Padding

theorem numeral_zeros {text : List UInt8} (h : Numeral base n text) (hbase : 0 < base) (k : ℕ) :
    Numeral base n (List.replicate k 0x30 ++ text) where
  ne_nil := by simp [h.ne_nil]
  digits := by
    intro c hc
    rcases List.mem_append.mp hc with hc | hc
    · rw [(List.mem_replicate.mp hc).2]
      exact hbase
    · exact h.digits c hc
  value_eq := by
    rw [← h.value_eq]
    induction k with
    | zero => rfl
    | succ k ih =>
      rw [List.replicate_succ, List.cons_append, List.map_cons, value_cons, ← ih]
      congr 1
      show 0 * base + 0 = 0
      rw [Nat.zero_mul]

/-- The text that `%0*X` prints: zeros in front up to the width. -/
def paddedHex (width n : ℕ) : List UInt8 := (hexadecimal n).leftpad width 0x30

theorem numeral_paddedHex (width n : ℕ) : Numeral 16 n (paddedHex width n) :=
  numeral_zeros (numeral_hexadecimal n) (by decide) _

/-- The text that `%0*x` prints. -/
def paddedLowerHex (width n : ℕ) : List UInt8 := (lowerHexadecimal n).leftpad width 0x30

theorem numeral_paddedLowerHex (width n : ℕ) : Numeral 16 n (paddedLowerHex width n) :=
  numeral_zeros (numeral_lowerHexadecimal n) (by decide) _

theorem length_paddedHex (hwidth : 0 < width) (h : n < 16 ^ width) :
    (paddedHex width n).length = width := by
  have hle : (hexadecimal n).length ≤ width := by
    rw [hexadecimal, List.length_map]
    exact length_ofNat_le (by decide) hwidth h
  rw [paddedHex, List.leftpad, List.length_append, List.length_replicate]
  omega

/-- The text that `%*llu` prints: blanks in front up to the width. -/
def paddedDecimal (width n : ℕ) : List UInt8 := (decimal n).leftpad width 0x20

end Padding

/-- What is printed for a number has no blanks and no punctuation. -/
theorem mem_numeral {text : List UInt8} (h : Numeral base n text) (hbase : base ≤ 36)
    (hc : c ∈ text) : 0x30 ≤ c ∧ c ≤ 0x7A ∧ c ≠ 0x3A := by
  have hrange := h.alphanumeric hbase hc
  refine ⟨?_, ?_, ?_⟩
  · show 0x30 ≤ c.toNat
    omega
  · show c.toNat ≤ 0x7A
    omega
  · rintro rfl
    simp at hrange

end Numerals
