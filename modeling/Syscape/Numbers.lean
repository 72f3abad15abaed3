import Syscape.Error
import Syscape.Lib.Numerals

/-!
# Numbers in texts

Many parsers of the library want a token to be a number from its first byte to its last,
and tell a number that does not fit from a text that is no number.
-/
namespace Syscape.Numbers
open Checked FromChars Numerals

/-- `UINT64_MAX`. -/
def uint64Max : ℕ := 2 ^ 64 - 1

/-- `UINT32_MAX`. -/
def uint32Max : ℕ := 2 ^ 32 - 1

theorem le_uint64Max {n : ℕ} (h : n < 2 ^ 64) : n ≤ uint64Max := Nat.le_pred_of_lt h

theorem le_uint32Max {n : ℕ} (h : n < 2 ^ 32) : n ≤ uint32Max := Nat.le_pred_of_lt h

/-- A token that is an unsigned number from its first byte to its last. -/
def wholeUnsigned (max : ℕ) (token : List UInt8) : Result ℕ :=
  if token = [] then fail .malformedData
  else
    let parsed := fromChars 10 max token
    if parsed.OutOfRange then fail .valueTooLarge
    else
      match parsed.value with
      | some value => if parsed.read ≠ token.length then fail .malformedData else .ok value
      | none => fail .malformedData

/-- A token that is a signed number from its first byte to its last. -/
def wholeSigned (bits : ℕ) (token : List UInt8) : Result ℤ :=
  if token = [] then fail .malformedData
  else
    let parsed := fromCharsSigned 10 bits token
    if parsed.OutOfRange then fail .valueTooLarge
    else
      match parsed.value with
      | some value => if parsed.read ≠ token.length then fail .malformedData else .ok value
      | none => fail .malformedData

/-- The number that a text is from its first byte to its last, if the type holds it. -/
def numberOf (base max : ℕ) (text : List UInt8) : Option ℕ :=
  let parsed := fromChars base max text
  match parsed.value with
  | some value => if text ≠ [] ∧ parsed.read = text.length then some value else none
  | none => none

theorem numberOf_numeral {base n max : ℕ} {text : List UInt8} (h : Numeral base n text)
    (hmax : n ≤ max) : numberOf base max text = some n := by
  unfold numberOf
  rw [h.fromChars, if_pos hmax]
  simp [h.ne_nil]

/-- Only numerals are taken. -/
theorem numberOf_eq_some {base n max : ℕ} {text : List UInt8}
    (h : numberOf base max text = some n) : Numeral base n text ∧ n ≤ max := by
  unfold numberOf at h
  cases hvalue : (fromChars base max text).value with
  | none => simp [hvalue] at h
  | some value =>
    simp only [hvalue] at h
    split_ifs at h with hread
    cases h
    exact Numeral.of_fromChars hread.1 hread.2 hvalue

theorem wholeUnsigned_numeral {n max : ℕ} {token : List UInt8} (h : Numeral 10 n token)
    (hmax : n ≤ max) : wholeUnsigned max token = .ok n := by
  unfold wholeUnsigned
  rw [if_neg h.ne_nil, h.fromChars, if_pos hmax]
  simp [Outcome.OutOfRange]

/-- A number that is taken fits into the type. -/
theorem le_of_wholeUnsigned {n max : ℕ} {token : List UInt8}
    (h : wholeUnsigned max token = .ok n) : n ≤ max := by
  unfold wholeUnsigned at h
  by_cases hnil : token = []
  · simp [hnil] at h
  · cases hvalue : (fromChars 10 max token).value with
    | none =>
      simp only [hnil, hvalue, if_false] at h
      split_ifs at h <;> simp at h
    | some value =>
      simp only [hnil, hvalue, if_false] at h
      split_ifs at h with _ hread
      · simp at h
      · simp at h
      · cases h
        exact (Numeral.of_fromChars hnil (not_not.mp hread) hvalue).2

theorem wholeUnsigned_decimal {n max : ℕ} (h : n ≤ max) :
    wholeUnsigned max (Digits.decimal n) = .ok n :=
  wholeUnsigned_numeral (numeral_decimal n) h

theorem wholeSigned_signedDecimal {bits : ℕ} {z : ℤ} (hmin : -(2 ^ (bits - 1) : ℕ) ≤ z)
    (hmax : z < (2 ^ (bits - 1) : ℕ)) : wholeSigned bits (signedDecimal z) = .ok z := by
  have hnumeral := numeral_decimal z.natAbs
  have hne := hnumeral.ne_nil
  unfold wholeSigned signedDecimal fromCharsSigned
  generalize 2 ^ (bits - 1) = bound at hmin hmax ⊢
  by_cases hneg : z < 0
  · have hfits : z.natAbs ≤ bound := by omega
    simp [hneg, hnumeral.fromChars, hfits, hne, SignedOutcome.OutOfRange, abs_of_neg]
  · have hfits : z.natAbs ≤ bound - 1 := by omega
    have habs : (z.natAbs : ℤ) = z := by omega
    have hhead := hnumeral.head?_ne_minus (by decide)
    simp only [hneg, if_false, hhead, hne, hnumeral.fromChars, if_pos hfits]
    simp [SignedOutcome.OutOfRange, habs]

end Syscape.Numbers
