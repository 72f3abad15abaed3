import Mathlib.Data.Nat.Bitwise
import Mathlib.Data.List.Basic
import Mathlib.Data.List.Range
import Mathlib.Tactic.Common

/-!
# Numbers and bytes as bits

The bits of a number of some width and those of a string of bytes, the most significant
one first, as prefixes of addresses are counted.
-/
namespace Bits

/-- The lowest `w` bits of a number, the most significant one first. -/
def ofNat (w n : ℕ) : List Bool := (List.range w).map fun i => n.testBit (w - 1 - i)

/-- The bits of a string of bytes. -/
def ofBytes (bytes : List UInt8) : List Bool := bytes.flatMap fun b => ofNat 8 b.toNat

section Number
variable {w m n : ℕ}

@[simp] theorem length_ofNat (w n : ℕ) : (ofNat w n).length = w := by simp [ofNat]

theorem getElem_ofNat {i : ℕ} (h : i < (ofNat w n).length) :
    (ofNat w n)[i] = n.testBit (w - 1 - i) := by
  simp [ofNat]

theorem getElem?_ofNat {i : ℕ} (h : i < w) : (ofNat w n)[i]? = some (n.testBit (w - 1 - i)) := by
  rw [List.getElem?_eq_getElem (by simpa using h), getElem_ofNat]

/-- A number that fits is determined by its bits. -/
theorem ofNat_inj (hm : m < 2 ^ w) (hn : n < 2 ^ w) : ofNat w m = ofNat w n ↔ m = n := by
  constructor
  · intro h
    apply Nat.eq_of_testBit_eq
    intro j
    by_cases hj : j < w
    · have hbit : (ofNat w m)[w - 1 - j]? = (ofNat w n)[w - 1 - j]? := by rw [h]
      rw [getElem?_ofNat (by omega), getElem?_ofNat (by omega), Option.some_inj] at hbit
      rwa [show w - 1 - (w - 1 - j) = j by omega] at hbit
    · have hle : 2 ^ w ≤ 2 ^ j := Nat.pow_le_pow_right (by decide) (by omega)
      rw [Nat.testBit_lt_two_pow (by omega), Nat.testBit_lt_two_pow (by omega)]
  · intro h
    rw [h]

/-- Two numbers one above the other. -/
theorem ofNat_append (v m : ℕ) (h : n < 2 ^ w) :
    ofNat (v + w) (m <<< w ||| n) = ofNat v m ++ ofNat w n := by
  apply List.ext_getElem
  · simp
  · intro i hi _
    rw [length_ofNat] at hi
    rw [getElem_ofNat, Nat.testBit_or, Nat.testBit_shiftLeft]
    by_cases hv : i < v
    · have hhigh : n.testBit (v + w - 1 - i) = false := by
        apply Nat.testBit_lt_two_pow
        have hle : 2 ^ w ≤ 2 ^ (v + w - 1 - i) := Nat.pow_le_pow_right (by decide) (by omega)
        omega
      rw [List.getElem_append_left (by simpa using hv), getElem_ofNat, hhigh]
      simp only [show v + w - 1 - i ≥ w by omega, decide_true, Bool.true_and, Bool.or_false]
      congr 1
      omega
    · rw [List.getElem_append_right (by simpa using Nat.not_lt.mp hv), getElem_ofNat]
      simp only [show ¬ v + w - 1 - i ≥ w by omega, decide_false, Bool.false_and, Bool.false_or,
        length_ofNat]
      congr 1
      omega

/-- Setting all bits behind the first `p`. -/
theorem ofNat_or_ones {p : ℕ} (h : p ≤ w) :
    ofNat w (n ||| (2 ^ w - 1) >>> p) = (ofNat w n).take p ++ List.replicate (w - p) true := by
  apply List.ext_getElem
  · simp
    omega
  · intro i hi _
    rw [length_ofNat] at hi
    rw [getElem_ofNat, Nat.testBit_or, Nat.testBit_shiftRight, Nat.testBit_two_pow_sub_one]
    by_cases hp : i < p
    · rw [List.getElem_append_left (by simp; omega), List.getElem_take, getElem_ofNat]
      simp only [show ¬ p + (w - 1 - i) < w by omega, decide_false, Bool.or_false]
    · rw [List.getElem_append_right (by simp; omega), List.getElem_replicate]
      simp only [show p + (w - 1 - i) < w by omega, decide_true, Bool.or_true]

end Number

section Bytes
variable {bytes : List UInt8} {b : UInt8}

@[simp] theorem ofBytes_nil : ofBytes [] = [] := rfl

theorem ofBytes_cons (b : UInt8) (bytes : List UInt8) :
    ofBytes (b :: bytes) = ofNat 8 b.toNat ++ ofBytes bytes := rfl

@[simp] theorem length_ofBytes (bytes : List UInt8) : (ofBytes bytes).length = 8 * bytes.length := by
  induction bytes with
  | nil => rfl
  | cons b bytes ih => rw [ofBytes_cons, List.length_append, length_ofNat, ih, List.length_cons]; omega

theorem ofByte_inj {b c : UInt8} : ofNat 8 b.toNat = ofNat 8 c.toNat ↔ b = c := by
  rw [ofNat_inj b.toNat_lt c.toNat_lt, UInt8.toNat_inj]

/-- A string of bytes is determined by its bits. -/
theorem ofBytes_inj {bytes more : List UInt8} : ofBytes bytes = ofBytes more ↔ bytes = more := by
  constructor
  · intro h
    induction bytes generalizing more with
    | nil =>
      have hlength := congrArg List.length h
      simpa [eq_comm] using hlength
    | cons b bytes ih =>
      cases more with
      | nil =>
        have hlength := congrArg List.length h
        simp at hlength
      | cons c more =>
        rw [ofBytes_cons, ofBytes_cons] at h
        obtain ⟨hbyte, hrest⟩ := List.append_inj h (by simp)
        rw [ofByte_inj.mp hbyte, ih hrest]
  · intro h
    rw [h]

/-- A bit of a byte of the string. -/
theorem getElem?_ofBytes (bytes : List UInt8) (i : ℕ) {j : ℕ} (hj : j < 8) :
    (ofBytes bytes)[8 * i + j]? = bytes[i]?.map fun b => b.toNat.testBit (7 - j) := by
  induction bytes generalizing i with
  | nil => simp
  | cons b bytes ih =>
    rw [ofBytes_cons]
    cases i with
    | zero =>
      rw [Nat.mul_zero, Nat.zero_add, List.getElem?_append_left (by simpa using hj), getElem?_ofNat hj]
      rfl
    | succ i =>
      rw [List.getElem?_append_right (by rw [length_ofNat]; omega), length_ofNat,
        show 8 * (i + 1) + j - 8 = 8 * i + j by omega, ih]
      rfl

/-- A byte without a bit is zero. -/
theorem eq_zero_of_testBit (h : ∀ j < 8, b.toNat.testBit (7 - j) = false) : b = 0 := by
  apply UInt8.toNat_inj.mp
  apply Nat.eq_of_testBit_eq
  intro k
  by_cases hk : k < 8
  · have hbit := h (7 - k) (by omega)
    rw [show 7 - (7 - k) = k by omega] at hbit
    simp [hbit]
  · have hle : 2 ^ 8 ≤ 2 ^ k := Nat.pow_le_pow_right (by decide) (by omega)
    have hlt := b.toNat_lt
    rw [Nat.testBit_lt_two_pow (by omega)]
    simp

end Bytes

end Bits
