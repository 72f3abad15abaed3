import Mathlib.Algebra.Order.Field.Power
import Mathlib.Data.Int.Log
import Mathlib.Data.Rat.Floor
import Mathlib.Tactic.Linarith
import Mathlib.Tactic.Positivity

/-!
# Rounding to doubles

The numbers of the binary64 format that are not negative. A result is rounded to a number of the
format that no other one is nearer to, and of two that are equally near to the even one.
-/
namespace Binary64

section Numbers

/-- A finite number of the format: at most 53 bits, in units of a power of two. -/
def Representable (q : ℚ) : Prop :=
  ∃ (m : ℕ) (e : ℤ), m < 2 ^ 53 ∧ -1074 ≤ e ∧ e ≤ 971 ∧ q = m * 2 ^ e

/-- A double that is not negative. -/
inductive Double where
  | finite (value : ℚ) (representable : Representable value)
  | infinite
  | nan
  deriving DecidableEq, Repr

theorem representable_zero : Representable 0 := ⟨0, 0, by decide, by decide, by decide, by simp⟩

theorem Representable.nonneg {q : ℚ} (h : Representable q) : 0 ≤ q := by
  obtain ⟨m, e, -, -, -, rfl⟩ := h
  positivity

end Numbers

section Rounding

/-- The nearest natural number, the even one of two. -/
def roundEven (x : ℚ) : ℕ :=
  let n := ⌊x⌋₊
  if x - n < 1 / 2 ∨ x - n = 1 / 2 ∧ n % 2 = 0 then n else n + 1

/-- The exponent of the last bit that is kept. -/
def unitExponent (q : ℚ) : ℤ := max (Int.log 2 q - 52) (-1074)

/-- The number rounded to the format, without a bound on the exponent. -/
def nearest (q : ℚ) : ℚ := roundEven (q / 2 ^ unitExponent q) * 2 ^ unitExponent q

theorem abs_sub_roundEven_le {x : ℚ} (h : 0 ≤ x) : |x - roundEven x| ≤ 1 / 2 := by
  have hfloor := Nat.floor_le h
  have hlt := Nat.lt_floor_add_one x
  unfold roundEven
  dsimp only
  split_ifs with hlow
  · have hhalf : x - ⌊x⌋₊ ≤ 1 / 2 := by
      rcases hlow with hlow | ⟨hlow, -⟩
      · exact hlow.le
      · exact hlow.le
    rw [abs_of_nonneg (by linarith)]
    exact hhalf
  · have hhalf : 1 / 2 ≤ x - ⌊x⌋₊ := not_lt.mp fun hlt => hlow (.inl hlt)
    push_cast
    rw [abs_of_nonpos (by linarith)]
    linarith

/-- No natural number is nearer. -/
theorem abs_sub_roundEven_le_abs {x : ℚ} (h : 0 ≤ x) (k : ℕ) : |x - roundEven x| ≤ |x - k| := by
  by_cases hk : k = roundEven x
  · rw [hk]
  · have hhalf := abs_sub_roundEven_le h
    have hone : (1 : ℚ) ≤ |(k : ℚ) - roundEven x| := by
      have hint : (1 : ℤ) ≤ |(k : ℤ) - roundEven x| := Int.one_le_abs (by omega)
      exact_mod_cast hint
    have htriangle : |(k : ℚ) - roundEven x| ≤ |x - k| + |x - roundEven x| := by
      have hsum := abs_sub_le (k : ℚ) x (roundEven x)
      rwa [abs_sub_comm (k : ℚ) x] at hsum
    linarith

theorem le_roundEven {x : ℚ} {k : ℕ} (h : (k : ℚ) ≤ x) : k ≤ roundEven x := by
  have hfloor : k ≤ ⌊x⌋₊ := Nat.le_floor h
  unfold roundEven
  dsimp only
  split_ifs
  · exact hfloor
  · omega

theorem roundEven_le {x : ℚ} {k : ℕ} (h0 : 0 ≤ x) (h : x < k) : roundEven x ≤ k := by
  have hfloor : ⌊x⌋₊ < k := (Nat.floor_lt h0).mpr h
  unfold roundEven
  dsimp only
  split_ifs
  · exact hfloor.le
  · exact hfloor

end Rounding

section Nearest
variable {q : ℚ}

theorem two_zpow_pos (e : ℤ) : (0 : ℚ) < 2 ^ e := by positivity

/-- Powers of two of which the sum of the exponents is known. -/
theorem two_pow_mul_zpow {k : ℕ} {e f : ℤ} (h : k + e = f) : (2 : ℚ) ^ k * 2 ^ e = 2 ^ f := by
  rw [← zpow_natCast, ← zpow_add₀ two_ne_zero, h]

/-- A number has at most 53 bits before the last one that is kept. -/
theorem div_unit_lt (q : ℚ) : q / 2 ^ unitExponent q < (2 ^ 53 : ℕ) := by
  rw [div_lt_iff₀ (two_zpow_pos _)]
  calc q < 2 ^ (Int.log 2 q + 1) := by exact_mod_cast Int.lt_zpow_succ_log_self one_lt_two q
    _ ≤ 2 ^ (53 + unitExponent q) := by
        apply zpow_le_zpow_right₀ one_le_two
        have hle : Int.log 2 q - 52 ≤ unitExponent q := le_max_left _ _
        omega
    _ = (2 ^ 53 : ℕ) * 2 ^ unitExponent q := by
        rw [Nat.cast_pow, Nat.cast_two, two_pow_mul_zpow rfl]
        rfl

/-- It has exactly 53 of them above the smallest unit. -/
theorem le_div_unit (hq : 0 < q) (h : -1074 < unitExponent q) :
    ((2 ^ 52 : ℕ) : ℚ) ≤ q / 2 ^ unitExponent q := by
  have hunit : 52 + unitExponent q = Int.log 2 q := by
    unfold unitExponent at h ⊢
    omega
  rw [le_div_iff₀ (two_zpow_pos _), Nat.cast_pow, Nat.cast_two, two_pow_mul_zpow hunit]
  exact_mod_cast Int.zpow_log_le_self one_lt_two hq

theorem nearest_of_nonpos (hq : q ≤ 0) : nearest q = 0 := by
  have hx : q / 2 ^ unitExponent q ≤ 0 := div_nonpos_of_nonpos_of_nonneg hq (two_zpow_pos _).le
  have hfloor : ⌊q / 2 ^ unitExponent q⌋₊ = 0 := Nat.floor_of_nonpos hx
  have hround : roundEven (q / 2 ^ unitExponent q) = 0 := by
    unfold roundEven
    dsimp only
    rw [hfloor, Nat.cast_zero, sub_zero]
    exact if_pos (.inl (by linarith))
  rw [nearest, hround, Nat.cast_zero, zero_mul]

/-- No number of the format is nearer. -/
theorem abs_sub_nearest_le (hq : 0 ≤ q) {d : ℚ} (hd : Representable d) :
    |q - nearest q| ≤ |q - d| := by
  rcases hq.eq_or_lt with rfl | hpos
  · rw [nearest_of_nonpos le_rfl, sub_zero, abs_zero]
    exact abs_nonneg _
  have hw := two_zpow_pos (unitExponent q)
  have hx : 0 ≤ q / 2 ^ unitExponent q := by positivity
  have hscale : ∀ k : ℕ, |q - k * 2 ^ unitExponent q| =
      |q / 2 ^ unitExponent q - k| * 2 ^ unitExponent q := by
    intro k
    rw [← abs_of_pos hw, ← abs_mul, abs_of_pos hw, sub_mul, div_mul_cancel₀ _ hw.ne']
  have hmultiple : ∀ k : ℕ, |q - nearest q| ≤ |q - k * 2 ^ unitExponent q| := by
    intro k
    rw [nearest, hscale, hscale]
    exact mul_le_mul_of_nonneg_right (abs_sub_roundEven_le_abs hx k) hw.le
  obtain ⟨m, e, hm, he, -, rfl⟩ := hd
  by_cases hunit : unitExponent q ≤ e
  · -- a number in units that are not smaller is a multiple of the unit
    obtain ⟨i, hi⟩ := Int.le.dest hunit
    have hsame : (m : ℚ) * 2 ^ e = (m * 2 ^ i : ℕ) * 2 ^ unitExponent q := by
      have hexponent : (i : ℤ) + unitExponent q = e := by omega
      rw [Nat.cast_mul, Nat.cast_pow, Nat.cast_two, mul_assoc, two_pow_mul_zpow hexponent]
    rw [hsame]
    exact hmultiple _
  · -- any other number is below the smallest one of 53 bits
    have hlow := le_div_unit hpos (by omega)
    have hbits : ((m * 2 ^ e : ℚ)) ≤ (2 ^ 52 : ℕ) * 2 ^ unitExponent q := by
      have hcast : (m : ℚ) ≤ 2 ^ 53 := by exact_mod_cast hm.le
      calc (m * 2 ^ e : ℚ) ≤ 2 ^ 53 * 2 ^ e := mul_le_mul_of_nonneg_right hcast (two_zpow_pos e).le
        _ = 2 ^ (53 + e) := two_pow_mul_zpow rfl
        _ ≤ 2 ^ (52 + unitExponent q) := zpow_le_zpow_right₀ one_le_two (by omega)
        _ = (2 ^ 52 : ℕ) * 2 ^ unitExponent q := by
            rw [Nat.cast_pow, Nat.cast_two, two_pow_mul_zpow rfl]
            rfl
    have hbelow : ((2 ^ 52 : ℕ) : ℚ) * 2 ^ unitExponent q ≤ q := (le_div_iff₀ hw).mp hlow
    have hmiddle := hmultiple (2 ^ 52)
    rw [abs_of_nonneg (sub_nonneg.mpr hbelow)] at hmiddle
    rw [abs_of_nonneg (sub_nonneg.mpr (hbits.trans hbelow))]
    linarith

/-- The result is a number of the format, unless it is too large. -/
theorem representable_nearest (h : nearest q < 2 ^ 1024) : Representable (nearest q) := by
  rcases le_or_gt q 0 with hq | hq
  · rw [nearest_of_nonpos hq]
    exact representable_zero
  have hw := two_zpow_pos (unitExponent q)
  have hle : roundEven (q / 2 ^ unitExponent q) ≤ 2 ^ 53 :=
    roundEven_le (by positivity) (div_unit_lt q)
  have hmin : -1074 ≤ unitExponent q := le_max_right _ _
  have hmax : ∀ {k : ℕ}, k ≤ roundEven (q / 2 ^ unitExponent q) → ∀ {i : ℕ}, k = 2 ^ i →
      i + unitExponent q < 1024 := by
    intro k hk i hi
    have hpower : (2 : ℚ) ^ (i + unitExponent q) < 2 ^ (1024 : ℤ) := by
      calc (2 : ℚ) ^ (i + unitExponent q) = (k : ℚ) * 2 ^ unitExponent q := by
            rw [hi, Nat.cast_pow, Nat.cast_two, two_pow_mul_zpow rfl]
        _ ≤ nearest q := mul_le_mul_of_nonneg_right (by exact_mod_cast hk) hw.le
        _ < 2 ^ 1024 := h
        _ = 2 ^ (1024 : ℤ) := (zpow_natCast 2 1024).symm
    exact (zpow_lt_zpow_iff_right₀ one_lt_two).mp hpower
  rcases hle.lt_or_eq with hlt | heq
  · refine ⟨_, _, hlt, hmin, ?_, rfl⟩
    by_cases hunit : -1074 < unitExponent q
    · have hbits := hmax (le_roundEven (le_div_unit hq hunit)) rfl
      omega
    · omega
  · -- a carry into one bit more
    have hbits := hmax heq.ge rfl
    refine ⟨2 ^ 52, 1 + unitExponent q, by decide, by omega, by omega, ?_⟩
    rw [nearest, heq, Nat.cast_pow, Nat.cast_two, Nat.cast_pow, Nat.cast_two, two_pow_mul_zpow rfl,
      two_pow_mul_zpow (f := 53 + unitExponent q) (by omega)]
    rfl

theorem nearest_lt (hq : 0 ≤ q) (h : q < 2 ^ 1023) : nearest q < 2 ^ 1024 := by
  have hzero := abs_sub_nearest_le hq representable_zero
  rw [sub_zero, abs_of_nonneg hq] at hzero
  have hle := (abs_le.mp hzero).1
  calc nearest q ≤ 2 * q := by linarith
    _ < 2 * 2 ^ 1023 := mul_lt_mul_of_pos_left h two_pos
    _ = 2 ^ 1024 := by rw [pow_succ' 2 1023]

end Nearest

namespace Double

/-- The double for a number that is not negative; too large ones are infinite. -/
def ofRat (q : ℚ) : Double :=
  if h : nearest q < 2 ^ 1024 then .finite (nearest q) (representable_nearest h) else .infinite

def ofNat (n : ℕ) : Double := ofRat n

def mul : Double → Double → Double
  | .finite x _, .finite y _ => ofRat (x * y)
  | .finite x _, .infinite => if x = 0 then .nan else .infinite
  | .infinite, .finite y _ => if y = 0 then .nan else .infinite
  | .infinite, .infinite => .infinite
  | .nan, _ => .nan
  | _, .nan => .nan

def div : Double → Double → Double
  | .finite x _, .finite y _ =>
    if y ≠ 0 then ofRat (x / y) else if x = 0 then .nan else .infinite
  | .finite _ _, .infinite => .finite 0 representable_zero
  | .infinite, .finite _ _ => .infinite
  | .infinite, .infinite => .nan
  | .nan, _ => .nan
  | _, .nan => .nan

/-- A finite double that no other one is nearer to the number than. -/
def IsNearest (q : ℚ) (d : Double) : Prop :=
  ∃ value h, d = .finite value h ∧ ∀ other, Representable other → |q - value| ≤ |q - other|

variable {q : ℚ}

theorem ofRat_eq_finite (hq : 0 ≤ q) (h : q < 2 ^ 1023) :
    ∃ hvalue, ofRat q = .finite (nearest q) hvalue := by
  have hlt := nearest_lt hq h
  exact ⟨representable_nearest hlt, dif_pos hlt⟩

theorem isNearest_ofRat (hq : 0 ≤ q) (h : q < 2 ^ 1023) : IsNearest q (ofRat q) := by
  obtain ⟨hvalue, heq⟩ := ofRat_eq_finite hq h
  exact ⟨_, hvalue, heq, fun _ => abs_sub_nearest_le hq⟩

theorem ofRat_of_representable (hq : Representable q) (h : q < 2 ^ 1023) :
    ofRat q = .finite q hq := by
  obtain ⟨hvalue, heq⟩ := ofRat_eq_finite hq.nonneg h
  have hzero := abs_sub_nearest_le hq.nonneg hq
  rw [sub_self, abs_zero, abs_nonpos_iff, sub_eq_zero] at hzero
  rw [heq]
  congr 1
  exact hzero.symm

theorem representable_natCast {n : ℕ} (h : n < 2 ^ 53) : Representable n :=
  ⟨n, 0, h, by decide, by decide, by simp⟩

theorem natCast_lt {n : ℕ} (h : n < 2 ^ 53) : (n : ℚ) < 2 ^ 1023 := by
  have hcast : (n : ℚ) < 2 ^ 53 := by exact_mod_cast h
  exact hcast.trans_le (pow_le_pow_right₀ one_le_two (by decide))

/-- Natural numbers of at most 53 bits are exact. -/
theorem ofNat_eq {n : ℕ} (h : n < 2 ^ 53) : ofNat n = .finite n (representable_natCast h) :=
  ofRat_of_representable _ (natCast_lt h)

/-- A product is rounded once. -/
theorem mul_ofNat {m n : ℕ} (hm : m < 2 ^ 53) (hn : n < 2 ^ 53) :
    mul (ofNat m) (ofNat n) = ofNat (m * n) := by
  rw [ofNat_eq hm, ofNat_eq hn, ofNat, Nat.cast_mul]
  rfl

/-- A quotient is rounded once. -/
theorem div_ofNat {m n : ℕ} (hm : m < 2 ^ 53) (hn : n < 2 ^ 53) (hpos : 0 < n) :
    div (ofNat m) (ofNat n) = ofRat (m / n) := by
  have hne : (n : ℚ) ≠ 0 := by exact_mod_cast hpos.ne'
  rw [ofNat_eq hm, ofNat_eq hn, div, if_pos hne]

end Double

end Binary64
