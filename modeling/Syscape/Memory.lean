import Syscape.Error
import Mathlib.Data.UInt
import Mathlib.Algebra.Order.Group.Nat

/-!
# Memory queries

What the memory backends share: capacities of the swap space, samples of the memory pressure
and the percentage of used memory, rounded half up.
-/
namespace Syscape.Memory
open Checked

/-- `swap_usage`. -/
structure SwapUsage where
  totalBytes : UInt64 := 0
  freeBytes : UInt64 := 0
  deriving DecidableEq, Repr

/-- `pressure_sample`. -/
structure PressureSample where
  average10MicroPercent : UInt64 := 0
  average60MicroPercent : UInt64 := 0
  average300MicroPercent : UInt64 := 0
  totalMicroseconds : UInt64 := 0
  deriving DecidableEq, Repr

/-- `pressure_status`. -/
structure PressureStatus where
  some_ : PressureSample := {}
  hasFull : Bool := false
  full : PressureSample := {}
  deriving DecidableEq, Repr

/-- `std::numeric_limits<std::uint64_t>::max()`. -/
def maxUInt64 : UInt64 := 0xFFFFFFFFFFFFFFFF

/-- The guard of a sum. -/
theorem maxUInt64_sub_lt_iff (a b : UInt64) :
    maxUInt64 - a < b ↔ 2 ^ 64 - 1 < a.toNat + b.toNat := by
  have hmax : maxUInt64.toNat = 2 ^ 64 - 1 := rfl
  have ha := a.toNat_lt
  have hle : a ≤ maxUInt64 := UInt64.le_iff_toNat_le.mpr (by omega)
  rw [UInt64.lt_iff_toNat_lt, UInt64.toNat_sub_of_le _ _ hle, hmax]
  omega

theorem toNat_add_of_le {a b : UInt64} (h : a.toNat + b.toNat ≤ 2 ^ 64 - 1) :
    (a + b).toNat = a.toNat + b.toNat := by
  rw [UInt64.toNat_add, Nat.mod_eq_of_lt (by omega)]

def scale : UInt64 := 100

/-- `utilization_percent`. -/
def utilizationPercent (usedUnits totalUnits : UInt64) : Result UInt32 :=
  if totalUnits = 0 then fail .malformedData
  else if totalUnits > maxUInt64 / (2 * scale) then fail .valueTooLarge
  else
    let percent := (usedUnits * scale + totalUnits / 2) / totalUnits
    if percent > scale then fail .malformedData else .ok percent.toUInt32

section Exactness

variable {used total : UInt64}

/-- The percentage rounded half up, computed without bounds. -/
def roundedPercent (used total : ℕ) : ℕ := (100 * used + total / 2) / total

/-- The largest total that is not refused. -/
def maximumTotal : ℕ := (2 ^ 64 - 1) / 200

theorem toNat_limit : (maxUInt64 / (2 * scale)).toNat = maximumTotal := rfl

/-- A percentage is returned exactly where the exact one is at most a hundred. -/
def ReturnsRounded (used total : UInt64) : Prop :=
  ∀ p, utilizationPercent used total = .ok p ↔
    0 < total.toNat ∧ total.toNat ≤ maximumTotal ∧
      p.toNat = roundedPercent used.toNat total.toNat ∧ p.toNat ≤ 100

/-- The product and the sum have at most 64 bits, if the code gets to them. -/
def NoWrap (used total : UInt64) : Prop :=
  0 < total.toNat → total.toNat ≤ maximumTotal →
    (used * scale).toNat = 100 * used.toNat ∧
      (used * scale + total / 2).toNat = 100 * used.toNat + total.toNat / 2

/-- The total is refused, or the part of it is small enough for the sum. -/
def Manageable (used total : UInt64) : Prop :=
  total.toNat = 0 ∨ maximumTotal < total.toNat ∨
    used.toNat ≤ (2 ^ 64 - 1 - total.toNat / 2) / 100

theorem toNat_scaled (used : UInt64) : (used * scale).toNat = 100 * used.toNat % 2 ^ 64 := by
  rw [UInt64.toNat_mul, Nat.mul_comm]
  rfl

theorem toNat_numerator (used total : UInt64) : (used * scale + total / 2).toNat =
    (100 * used.toNat % 2 ^ 64 + total.toNat / 2) % 2 ^ 64 := by
  rw [UInt64.toNat_add, toNat_scaled, UInt64.toNat_div]
  rfl

/-- Nothing wraps exactly for the parts that are small enough. -/
theorem noWrap_iff : NoWrap used total ↔ Manageable used total := by
  have hused := used.toNat_lt
  rw [NoWrap, Manageable, toNat_scaled, toNat_numerator, Nat.le_div_iff_mul_le (by decide)]
  unfold maximumTotal
  omega

/-- Where nothing wraps, the code computes the exact percentage. -/
theorem returnsRounded_of_noWrap (h : NoWrap used total) : ReturnsRounded used total := by
  intro p
  rw [utilizationPercent]
  by_cases hzero : total = 0
  · simp [hzero]
  have hpos : 0 < total.toNat := Nat.pos_of_ne_zero fun h0 => hzero (UInt64.toNat_inj.mp h0)
  simp only [if_neg hzero, gt_iff_lt, UInt64.lt_iff_toNat_lt, toNat_limit]
  by_cases hlarge : maximumTotal < total.toNat
  · simp [if_pos hlarge, Nat.not_le.mpr hlarge]
  have hpercent : ((used * scale + total / 2) / total).toNat =
      roundedPercent used.toNat total.toNat := by
    rw [UInt64.toNat_div, (h hpos (not_lt.mp hlarge)).2, roundedPercent]
  have hscale : scale.toNat = 100 := rfl
  simp only [if_neg hlarge, hpercent, hscale]
  by_cases hmore : 100 < roundedPercent used.toNat total.toNat
  · rw [if_pos hmore]
    simp only [fail_ne_ok, false_iff]
    omega
  · have hsmall : roundedPercent used.toNat total.toNat < 2 ^ 32 := by omega
    have hnarrow : ((used * scale + total / 2) / total).toUInt32.toNat =
        roundedPercent used.toNat total.toNat := by
      rw [UInt64.toNat_toUInt32, hpercent, Nat.mod_eq_of_lt hsmall]
    rw [if_neg hmore, Except.ok.injEq, ← UInt32.toNat_inj, hnarrow]
    omega

/-- A part of the total is small enough. -/
theorem manageable_of_le (h : used ≤ total) : Manageable used total := by
  have hle := UInt64.le_iff_toNat_le.mp h
  rw [Manageable, Nat.le_div_iff_mul_le (by decide)]
  unfold maximumTotal
  omega

end Exactness

end Syscape.Memory
