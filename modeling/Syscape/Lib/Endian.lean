import Mathlib.Data.Nat.Notation
import Mathlib.Data.Int.Notation
import Mathlib.Data.Nat.Bitwise
import Mathlib.Tactic.Common
import Mathlib.Tactic.Ring

/-!
# Numbers in memory

A number of `k` bytes in one of the two byte orders, and the signed reading of a word.
-/
namespace Endian

/-- The number that some bytes stand for, the least significant one first. -/
def leValue : List UInt8 → ℕ
  | [] => 0
  | b :: bytes => b.toNat + 256 * leValue bytes

/-- The `k` bytes of a number, the least significant one first. -/
def leBytes : ℕ → ℕ → List UInt8
  | 0, _ => []
  | k + 1, n => UInt8.ofNat n :: leBytes k (n / 256)

@[simp] theorem length_leBytes (k n : ℕ) : (leBytes k n).length = k := by
  induction k generalizing n with
  | zero => rfl
  | succ k ih => simp [leBytes, ih]

theorem leValue_leBytes {k n : ℕ} (h : n < 256 ^ k) : leValue (leBytes k n) = n := by
  induction k generalizing n with
  | zero =>
    have : n = 0 := by simpa using h
    simp [leBytes, leValue, this]
  | succ k ih =>
    have hdiv : n / 256 < 256 ^ k := by
      rw [Nat.div_lt_iff_lt_mul (by decide), ← pow_succ]
      exact h
    rw [leBytes, leValue, ih hdiv, UInt8.toNat_ofNat']
    omega

theorem leValue_lt (bytes : List UInt8) : leValue bytes < 256 ^ bytes.length := by
  induction bytes with
  | nil => simp [leValue]
  | cons b bytes ih =>
    have hb := b.toNat_lt
    rw [leValue, List.length_cons, pow_succ]
    omega

theorem leValue_append (low high : List UInt8) :
    leValue (low ++ high) = leValue low + 256 ^ low.length * leValue high := by
  induction low with
  | nil => simp [leValue]
  | cons b low ih =>
    rw [List.cons_append, leValue, leValue, ih, List.length_cons, pow_succ]
    ring

theorem leBytes_leValue (bytes : List UInt8) : leBytes bytes.length (leValue bytes) = bytes := by
  induction bytes with
  | nil => rfl
  | cons b bytes ih =>
    have hb := b.toNat_lt
    have hdiv : (b.toNat + 256 * leValue bytes) / 256 = leValue bytes := by omega
    rw [List.length_cons, leBytes, leValue, hdiv, ih]
    congr 1
    apply UInt8.toNat_inj.mp
    rw [UInt8.toNat_ofNat']
    omega

/-- Which byte of a number has the lowest address. -/
inductive ByteOrder where
  | little
  | big
  deriving DecidableEq, Repr

/-- The number in memory. -/
def value : ByteOrder → List UInt8 → ℕ
  | .little, bytes => leValue bytes
  | .big, bytes => leValue bytes.reverse

/-- A number as `k` bytes of memory. -/
def encode : ByteOrder → ℕ → ℕ → List UInt8
  | .little, k, n => leBytes k n
  | .big, k, n => (leBytes k n).reverse

@[simp] theorem length_encode (order : ByteOrder) (k n : ℕ) : (encode order k n).length = k := by
  cases order <;> simp [encode]

theorem value_encode (order : ByteOrder) {k n : ℕ} (h : n < 256 ^ k) :
    value order (encode order k n) = n := by
  cases order <;> simp [value, encode, leValue_leBytes h]

theorem value_lt (order : ByteOrder) (bytes : List UInt8) :
    value order bytes < 256 ^ bytes.length := by
  cases order with
  | little => exact leValue_lt bytes
  | big => simpa [value] using leValue_lt bytes.reverse

theorem encode_value (order : ByteOrder) {k : ℕ} {bytes : List UInt8} (h : bytes.length = k) :
    encode order k (value order bytes) = bytes := by
  subst h
  cases order with
  | little => exact leBytes_leValue bytes
  | big =>
    have hreverse := leBytes_leValue bytes.reverse
    rw [List.length_reverse] at hreverse
    rw [encode, value, hreverse, List.reverse_reverse]

/-- The two's complement reading of a 32-bit word. -/
def signed32 (n : ℕ) : ℤ := if n < 2 ^ 31 then n else n - 2 ^ 32

section Shifts

/-- Two bytes put together by a shift. -/
theorem or_shift {b0 : ℕ} (h : b0 < 2 ^ 8) (b1 : ℕ) : b0 ||| (b1 <<< 8) = b0 + 2 ^ 8 * b1 := by
  rw [Nat.or_comm, ← Nat.shiftLeft_add_eq_or_of_lt h, Nat.shiftLeft_eq]
  omega

/-- Four bytes put together by shifts. -/
theorem or_shift_four {b0 b1 b2 : ℕ} (h0 : b0 < 2 ^ 8) (h1 : b1 < 2 ^ 8) (h2 : b2 < 2 ^ 8) (b3 : ℕ) :
    b0 ||| (b1 <<< 8) ||| (b2 <<< 16) ||| (b3 <<< 24) =
      (b0 + 2 ^ 8 * b1) + 2 ^ 16 * (b2 + 2 ^ 8 * b3) := by
  rw [or_shift h0, Nat.or_comm _ (b2 <<< 16),
    ← Nat.shiftLeft_add_eq_or_of_lt (show b0 + 2 ^ 8 * b1 < 2 ^ 16 by omega), Nat.or_comm,
    ← Nat.shiftLeft_add_eq_or_of_lt
      (show b2 <<< 16 + (b0 + 2 ^ 8 * b1) < 2 ^ 24 by rw [Nat.shiftLeft_eq]; omega),
    Nat.shiftLeft_eq, Nat.shiftLeft_eq]
  omega

/-- Bytes put together by shifts, one after another. -/
theorem foldl_or_shift (bytes : List UInt8) :
    bytes.zipIdx.foldl (fun n (b, i) => n ||| b.toNat <<< (i * 8)) 0 = leValue bytes := by
  have hgo (k acc : ℕ) (hacc : acc < 2 ^ (k * 8)) :
      (bytes.zipIdx k).foldl (fun n (b, i) => n ||| b.toNat <<< (i * 8)) acc =
        acc + 2 ^ (k * 8) * leValue bytes := by
    induction bytes generalizing k acc with
    | nil => simp [leValue]
    | cons b bytes ih =>
      have hb := b.toNat_lt
      have hpow : 2 ^ ((k + 1) * 8) = 2 ^ (k * 8) * 256 := by
        rw [Nat.succ_mul, pow_add]
        norm_num
      have hone : acc ||| b.toNat <<< (k * 8) = acc + 2 ^ (k * 8) * b.toNat := by
        rw [Nat.or_comm, ← Nat.shiftLeft_add_eq_or_of_lt hacc, Nat.shiftLeft_eq]
        ring
      have hlt : acc + 2 ^ (k * 8) * b.toNat < 2 ^ ((k + 1) * 8) := by
        have hle : 2 ^ (k * 8) * b.toNat ≤ 2 ^ (k * 8) * 255 := Nat.mul_le_mul_left _ (by omega)
        omega
      rw [List.zipIdx_cons, List.foldl_cons]
      show (bytes.zipIdx (k + 1)).foldl _ (acc ||| b.toNat <<< (k * 8)) = _
      rw [hone, ih (k + 1) _ hlt, leValue, hpow]
      ring
  simpa using hgo 0 0 (by simp)

/-- The test of the highest bit compares with it. -/
theorem and_high_bit {n k : ℕ} (h : n < 2 ^ (k + 1)) : n &&& 2 ^ k ≠ 0 ↔ 2 ^ k ≤ n := by
  rw [Nat.and_two_pow]
  have hpos : 0 < 2 ^ k := Nat.two_pow_pos k
  by_cases hle : 2 ^ k ≤ n
  · have hbit : n.testBit k = true := Nat.testBit_of_two_pow_le_and_two_pow_add_one_gt hle h
    simp [hbit, hle]
  · have hbit : n.testBit k = false := Nat.testBit_lt_two_pow (Nat.lt_of_not_le hle)
    simp [hbit, hle]

end Shifts

end Endian
