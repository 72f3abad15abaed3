import Syscape.Lib.Checked
import Mathlib.Data.Int.Notation
import Mathlib.Algebra.Order.Ring.Int

/-!
# Durations in 64 bits

A duration is a number of ticks in a signed type of 64 bits. The standard library adds two
durations in the finer one of their units, so that the coarser one is multiplied first; a
conversion to a coarser unit truncates towards zero.
-/
namespace Durations
open Checked
variable {ε : Type*}

/-- The numbers of the type. -/
def Fits (n : ℤ) : Prop := -2 ^ 63 ≤ n ∧ n ≤ 2 ^ 63 - 1

instance : DecidablePred Fits := fun n => inferInstanceAs (Decidable (-2 ^ 63 ≤ n ∧ n ≤ 2 ^ 63 - 1))

/-- `duration::max()` in any unit. -/
def maximum : ℤ := 2 ^ 63 - 1

/-- What an operation in the type gives. -/
def int64 (n : ℤ) : Except (Fault ε) ℤ := if Fits n then .ok n else .error .signedOverflow

/-- `duration_cast` to a unit that is so many times finer. -/
def toFiner (factor ticks : ℤ) : Except (Fault ε) ℤ := int64 (ticks * factor)

/-- `duration_cast` to a unit that is so many times coarser. -/
def toCoarser (factor ticks : ℤ) : ℤ := ticks.tdiv factor

/-- The sum of a duration and one in a unit that is so many times finer. -/
def addFiner (factor coarse fine : ℤ) : Except (Fault ε) ℤ := do
  let converted ← toFiner factor coarse
  int64 (converted + fine)

variable {factor coarse fine n : ℤ}

theorem int64_of_fits (h : Fits n) : (int64 n : Except (Fault ε) ℤ) = .ok n := if_pos h

theorem int64_of_not_fits (h : ¬ Fits n) :
    (int64 n : Except (Fault ε) ℤ) = .error .signedOverflow := if_neg h

/-- The sum is exact where the product and the sum fit. -/
theorem addFiner_of_fits (hproduct : Fits (coarse * factor)) (hsum : Fits (coarse * factor + fine)) :
    (addFiner factor coarse fine : Except (Fault ε) ℤ) = .ok (coarse * factor + fine) := by
  rw [addFiner, toFiner, int64_of_fits hproduct, ok_bind, int64_of_fits hsum]

/-- Elsewhere the addition overflows. -/
theorem addFiner_of_not_fits (h : Fits (coarse * factor) → ¬ Fits (coarse * factor + fine)) :
    (addFiner factor coarse fine : Except (Fault ε) ℤ) = .error .signedOverflow := by
  rw [addFiner, toFiner]
  by_cases hproduct : Fits (coarse * factor)
  · rw [int64_of_fits hproduct, ok_bind, int64_of_not_fits (h hproduct)]
  · rw [int64_of_not_fits hproduct, error_bind]

/-- The product of durations that are not negative fits where the sum does. -/
theorem fits_of_fits_add (hcoarse : 0 ≤ coarse) (hfactor : 0 ≤ factor) (hfine : 0 ≤ fine)
    (h : Fits (coarse * factor + fine)) : Fits (coarse * factor) := by
  have hproduct : 0 ≤ coarse * factor := Int.mul_nonneg hcoarse hfactor
  obtain ⟨hmin, hmax⟩ := h
  exact ⟨by omega, by omega⟩

/-- A finer unit needs the larger numbers. -/
theorem fits_of_fits_mul (hfactor : 0 < factor) (h : Fits (n * factor)) : Fits n := by
  obtain ⟨hmin, hmax⟩ := h
  rcases le_total 0 n with hn | hn
  · have hle : n * 1 ≤ n * factor := mul_le_mul_of_nonneg_left hfactor hn
    exact ⟨by omega, by omega⟩
  · have hle : n * factor ≤ n * 1 := mul_le_mul_of_nonpos_left hfactor hn
    exact ⟨by omega, by omega⟩

/-- A whole number of coarse ticks is below the largest duration where it is at most the
largest one in the coarser unit. -/
theorem fits_mul_iff (hfactor : 0 < factor) (hn : 0 ≤ n) :
    Fits (n * factor) ↔ n ≤ toCoarser factor maximum := by
  rw [toCoarser, Int.tdiv_eq_ediv_of_nonneg (by decide), Int.le_ediv_iff_mul_le hfactor, Fits,
    maximum]
  have hproduct : 0 ≤ n * factor := Int.mul_nonneg hn hfactor.le
  omega

end Durations
