import Mathlib.Data.Nat.Digits.Lemmas
import Mathlib.Tactic.Common
import Mathlib.Tactic.Ring

/-!
# Positional numerals

The value of a digit sequence read from its most significant digit, as a
left-to-right accumulation computes it, and the canonical digits of a number.
-/
namespace Digits

/-- What accumulating the digits on top of `v` gives. -/
def value (b v : ℕ) (ds : List ℕ) : ℕ := ds.foldl (fun v d => v * b + d) v

@[simp] theorem value_nil (b v : ℕ) : value b v [] = v := rfl

@[simp] theorem value_cons (b v d : ℕ) (ds : List ℕ) :
    value b v (d :: ds) = value b (v * b + d) ds := rfl

/-- Accumulation never goes down, so the first prefix above a bound decides. -/
theorem le_value {b : ℕ} (hb : 0 < b) (v : ℕ) (ds : List ℕ) : v ≤ value b v ds := by
  induction ds generalizing v with
  | nil => exact le_rfl
  | cons d ds ih =>
    calc v ≤ v * b := Nat.le_mul_of_pos_right v hb
      _ ≤ v * b + d := Nat.le_add_right _ _
      _ ≤ value b v (d :: ds) := ih _

/-- What is accumulated already counts for as many places as digits follow. -/
theorem value_eq_add (b v : ℕ) (ds : List ℕ) :
    value b v ds = v * b ^ ds.length + value b 0 ds := by
  induction ds generalizing v with
  | nil => simp
  | cons d ds ih =>
    rw [value_cons, value_cons, ih, ih (0 * b + d), List.length_cons, Nat.pow_succ']
    ring

theorem value_lt_pow {b : ℕ} {ds : List ℕ} (h : ∀ d ∈ ds, d < b) :
    value b 0 ds < b ^ ds.length := by
  induction ds with
  | nil => simp
  | cons d ds ih =>
    rw [List.forall_mem_cons] at h
    have hrest := ih h.2
    have hfirst : (d + 1) * b ^ ds.length ≤ b * b ^ ds.length := Nat.mul_le_mul_right _ h.1
    rw [value_cons, value_eq_add, List.length_cons, Nat.pow_succ', Nat.zero_mul, Nat.zero_add]
    rw [Nat.add_mul, Nat.one_mul] at hfirst
    omega

/-- So many digits are determined by their value. -/
theorem value_inj {b : ℕ} {ds es : List ℕ} (hlength : ds.length = es.length)
    (hds : ∀ d ∈ ds, d < b) (hes : ∀ e ∈ es, e < b) (h : value b 0 ds = value b 0 es) : ds = es := by
  induction ds generalizing es with
  | nil => exact (List.length_eq_zero_iff.mp hlength.symm).symm
  | cons d ds ih =>
    cases es with
    | nil => simp at hlength
    | cons e es =>
      rw [List.forall_mem_cons] at hds hes
      rw [List.length_cons, List.length_cons, Nat.add_right_cancel_iff] at hlength
      have hdslt := value_lt_pow hds.2
      have heslt := value_lt_pow hes.2
      have hpos : 0 < b ^ es.length := Nat.pow_pos (by omega)
      rw [value_cons, value_cons, value_eq_add, value_eq_add b (0 * b + e), hlength] at h
      rw [hlength] at hdslt
      have hdigit : d = e := by
        have hquotient := congrArg (· / b ^ es.length) h
        simpa [Nat.add_div_of_dvd_right, Nat.div_eq_of_lt hdslt, Nat.div_eq_of_lt heslt,
          Nat.mul_div_cancel _ hpos] using hquotient
      rw [hdigit, Nat.add_left_cancel_iff] at h
      rw [hdigit, ih hlength hds.2 hes.2 h]

/-- The digits of `n`, most significant first; zero has the one digit zero. -/
def ofNat (b n : ℕ) : List ℕ := if n = 0 then [0] else (Nat.digits b n).reverse

theorem value_ofNat (b n : ℕ) : value b 0 (ofNat b n) = n := by
  unfold ofNat
  split_ifs with h
  · simp [h]
  · have hv : value b 0 (Nat.digits b n).reverse = Nat.ofDigits b (Nat.digits b n) := by
      rw [value, List.foldl_reverse, Nat.ofDigits_eq_foldr]
      simp only [Nat.cast_id, Nat.add_comm, Nat.mul_comm]
    rw [hv, Nat.ofDigits_digits]

theorem ofNat_ne_nil (b n : ℕ) : ofNat b n ≠ [] := by
  unfold ofNat
  split_ifs with h
  · simp
  · simpa [Nat.digits_eq_nil_iff_eq_zero] using h

theorem ofNat_lt {b n d : ℕ} (hb : 1 < b) (h : d ∈ ofNat b n) : d < b := by
  unfold ofNat at h
  split_ifs at h
  · simp only [List.mem_singleton] at h
    omega
  · exact Nat.digits_lt_base hb (List.mem_reverse.mp h)

/-- A number below `b ^ k` has at most `k` digits, but always one. -/
theorem length_ofNat_le {b n k : ℕ} (hb : 1 < b) (hk : 0 < k) (h : n < b ^ k) :
    (ofNat b n).length ≤ k := by
  unfold ofNat
  split_ifs
  · exact hk
  · rw [List.length_reverse]
    exact (Nat.digits_length_le_iff hb n).mpr h

/-- A digit below ten as an ASCII byte. -/
def asciiDigit (d : ℕ) : UInt8 := UInt8.ofNat (0x30 + d)

theorem toNat_asciiDigit {d : ℕ} (h : d < 10) : (asciiDigit d).toNat = 0x30 + d := by
  rw [asciiDigit, UInt8.toNat_ofNat']
  omega

/-- The decimal text of a number, without leading zeros. -/
def decimal (n : ℕ) : List UInt8 := (ofNat 10 n).map asciiDigit

theorem decimal_ne_nil (n : ℕ) : decimal n ≠ [] := by
  simpa [decimal] using ofNat_ne_nil 10 n

theorem mem_decimal {n : ℕ} {c : UInt8} (h : c ∈ decimal n) :
    0x30 ≤ c.toNat ∧ c.toNat ≤ 0x39 := by
  obtain ⟨d, hd, rfl⟩ := List.mem_map.mp h
  have hlt : d < 10 := ofNat_lt (by decide) hd
  rw [toNat_asciiDigit hlt]
  omega

theorem length_decimal_le {n k : ℕ} (hk : 0 < k) (h : n < 10 ^ k) : (decimal n).length ≤ k := by
  rw [decimal, List.length_map]
  exact length_ofNat_le (by decide) hk h

end Digits
