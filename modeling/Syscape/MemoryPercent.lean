import Mathlib.Data.UInt
import Mathlib.Data.Nat.Bitwise
import Mathlib.Tactic.Common
import Mathlib.Tactic.Ring

/-!
# Exact percentages

The backends of NetBSD and OpenBSD compute a percentage rounded down. Where the product of the
fast path has more than 64 bits they compare products of two words, and search for the largest
percentage that is not too large by halving a window.
-/
namespace Syscape.Memory

section Wide

/-- `uint128_small`. -/
structure Uint128Small where
  hi : UInt64
  lo : UInt64
  deriving DecidableEq, Repr

/-- The number that the two words stand for. -/
def Uint128Small.toNat (a : Uint128Small) : ℕ := 2 ^ 64 * a.hi.toNat + a.lo.toNat

/-- The bits of the low half of a word. -/
def lowMask : UInt64 := 0xFFFFFFFF

/-- `mul64_by_small`. -/
def mul64BySmall (val : UInt64) (mult : UInt32) : Uint128Small :=
  let lo32 := val &&& lowMask
  let hi32 := val >>> 32
  let prodLo := lo32 * mult.toUInt64
  let prodHi := hi32 * mult.toUInt64 + (prodLo >>> 32)
  { lo := (prodLo &&& lowMask) ||| ((prodHi &&& lowMask) <<< 32)
    hi := prodHi >>> 32 }

/-- `uint128_lte`. -/
def uint128Lte (a b : Uint128Small) : Bool :=
  if a.hi ≠ b.hi then a.hi < b.hi else a.lo ≤ b.lo

/-- The low half of a word. -/
theorem toNat_and_low (x : UInt64) : (x &&& lowMask).toNat = x.toNat % 2 ^ 32 := by
  rw [UInt64.toNat_and]
  exact Nat.and_two_pow_sub_one_eq_mod x.toNat 32

/-- The high half of a word. -/
theorem toNat_shiftRight_half (x : UInt64) : (x >>> 32).toNat = x.toNat / 2 ^ 32 := by
  rw [UInt64.toNat_shiftRight, Nat.shiftRight_eq_div_pow]
  rfl

/-- Two halves put together. -/
theorem toNat_or_halves (x y : UInt64) :
    ((x &&& lowMask) ||| ((y &&& lowMask) <<< 32)).toNat =
      x.toNat % 2 ^ 32 + 2 ^ 32 * (y.toNat % 2 ^ 32) := by
  have hlow : x.toNat % 2 ^ 32 < 2 ^ 32 := Nat.mod_lt _ (by decide)
  have hhigh : y.toNat % 2 ^ 32 < 2 ^ 32 := Nat.mod_lt _ (by decide)
  have hshift : ((y &&& lowMask) <<< 32).toNat = (y.toNat % 2 ^ 32) <<< 32 := by
    rw [UInt64.toNat_shiftLeft, toNat_and_low]
    apply Nat.mod_eq_of_lt
    rw [show (32 : UInt64).toNat % 64 = 32 from rfl, Nat.shiftLeft_eq]
    omega
  rw [UInt64.toNat_or, toNat_and_low, hshift, Nat.or_comm, ← Nat.shiftLeft_add_eq_or_of_lt hlow,
    Nat.shiftLeft_eq]
  omega

/-- No carry is lost: both products of halves fit into a word, the second one with the carry
of the first. -/
theorem toNat_mul64BySmall (val : UInt64) (mult : UInt32) :
    (mul64BySmall val mult).toNat = val.toNat * mult.toNat := by
  have hmult : mult.toNat ≤ 2 ^ 32 - 1 := Nat.le_pred_of_lt mult.toNat_lt
  have hval := val.toNat_lt
  have hlo : val.toNat % 2 ^ 32 ≤ 2 ^ 32 - 1 := Nat.le_pred_of_lt (Nat.mod_lt _ (by decide))
  have hhi : val.toNat / 2 ^ 32 ≤ 2 ^ 32 - 1 := by omega
  have hprodLo : (val.toNat % 2 ^ 32) * mult.toNat ≤ (2 ^ 32 - 1) * (2 ^ 32 - 1) :=
    Nat.mul_le_mul hlo hmult
  have hprodHi : (val.toNat / 2 ^ 32) * mult.toNat ≤ (2 ^ 32 - 1) * (2 ^ 32 - 1) :=
    Nat.mul_le_mul hhi hmult
  have hsplit : val.toNat * mult.toNat =
      2 ^ 32 * ((val.toNat / 2 ^ 32) * mult.toNat) + (val.toNat % 2 ^ 32) * mult.toNat := by
    conv_lhs => rw [← Nat.div_add_mod val.toNat (2 ^ 32)]
    ring
  rw [hsplit, mul64BySmall, Uint128Small.toNat]
  simp only [toNat_or_halves, toNat_shiftRight_half, UInt64.toNat_add, UInt64.toNat_mul,
    toNat_and_low, UInt32.toNat_toUInt64]
  generalize (val.toNat % 2 ^ 32) * mult.toNat = prodLo at hprodLo ⊢
  generalize (val.toNat / 2 ^ 32) * mult.toNat = prodHi at hprodHi ⊢
  omega

/-- The comparison is the order of the numbers. -/
theorem uint128Lte_iff (a b : Uint128Small) : uint128Lte a b = true ↔ a.toNat ≤ b.toNat := by
  have ha := a.lo.toNat_lt
  have hb := b.lo.toNat_lt
  rw [uint128Lte, Uint128Small.toNat, Uint128Small.toNat]
  by_cases h : a.hi = b.hi
  · rw [if_neg (not_not.mpr h), h]
    simp [UInt64.le_iff_toNat_le]
  · have hne : a.hi.toNat ≠ b.hi.toNat := fun heq => h (UInt64.toNat_inj.mp heq)
    rw [if_pos h, decide_eq_true_iff, UInt64.lt_iff_toNat_lt]
    omega

end Wide

section Search

/-- The variables of the search; its upper end never exceeds the first one. -/
structure SearchWindow where
  low : UInt32
  high : UInt32
  ans : UInt32
  high_le : high ≤ 100

/-- The window of the first round. -/
def SearchWindow.whole : SearchWindow where
  low := 0
  high := 100
  ans := 0
  high_le := by decide

/-- The middle of the window. -/
def SearchWindow.mid (w : SearchWindow) : UInt32 := w.low + (w.high - w.low) / 2

/-- The middle lies in the window. -/
theorem SearchWindow.toNat_mid {w : SearchWindow} (h : w.low ≤ w.high) :
    w.mid.toNat = w.low.toNat + (w.high.toNat - w.low.toNat) / 2 := by
  have hle := UInt32.le_iff_toNat_le.mp h
  have hhigh := w.high.toNat_lt
  rw [mid, UInt32.toNat_add, UInt32.toNat_div, UInt32.toNat_sub_of_le _ _ h]
  apply Nat.mod_eq_of_lt
  rw [show (2 : UInt32).toNat = 2 from rfl]
  omega

theorem SearchWindow.toNat_high_le (w : SearchWindow) : w.high.toNat ≤ 100 :=
  UInt32.le_iff_toNat_le.mp w.high_le

theorem SearchWindow.toNat_mid_succ {w : SearchWindow} (h : w.low ≤ w.high) :
    (w.mid + 1).toNat = w.mid.toNat + 1 := by
  have hmid := toNat_mid h
  have hle := UInt32.le_iff_toNat_le.mp h
  have hhigh := w.toNat_high_le
  rw [UInt32.toNat_add]
  apply Nat.mod_eq_of_lt
  rw [show (1 : UInt32).toNat = 1 from rfl]
  omega

theorem SearchWindow.toNat_mid_pred {w : SearchWindow} (h : w.mid ≠ 0) :
    (w.mid - 1).toNat = w.mid.toNat - 1 := by
  have hpos : w.mid.toNat ≠ 0 := fun h0 => h (UInt32.toNat_inj.mp h0)
  apply UInt32.toNat_sub_of_le
  rw [UInt32.le_iff_toNat_le, show (1 : UInt32).toNat = 1 from rfl]
  omega

/-- The window above the middle, which is the answer so far. -/
def SearchWindow.above (w : SearchWindow) : SearchWindow :=
  { w with ans := w.mid, low := w.mid + 1 }

/-- The window below the middle. -/
def SearchWindow.below (w : SearchWindow) (h : w.low ≤ w.high) (hmid : w.mid ≠ 0) :
    SearchWindow where
  low := w.low
  high := w.mid - 1
  ans := w.ans
  high_le := by
    have hmid' := toNat_mid h
    have hle := UInt32.le_iff_toNat_le.mp h
    have hhigh := w.toNat_high_le
    rw [UInt32.le_iff_toNat_le, toNat_mid_pred hmid, show (100 : UInt32).toNat = 100 from rfl]
    omega

/-- The loop of `exact_percent_u64`. -/
def searchPercent (total : UInt64) (target : Uint128Small) (w : SearchWindow) : UInt32 :=
  if h : w.low ≤ w.high then
    if uint128Lte (mul64BySmall total w.mid) target then searchPercent total target w.above
    else if hmid : w.mid = 0 then w.ans
    else searchPercent total target (w.below h hmid)
  else w.ans
termination_by w.high.toNat + 1 - w.low.toNat
decreasing_by
  · have hmid := SearchWindow.toNat_mid h
    have hsucc := SearchWindow.toNat_mid_succ h
    have hle := UInt32.le_iff_toNat_le.mp h
    simp only [SearchWindow.above, hsucc]
    omega
  · have hmid' := SearchWindow.toNat_mid h
    have hpred := SearchWindow.toNat_mid_pred hmid
    have hle := UInt32.le_iff_toNat_le.mp h
    have hne : w.mid.toNat ≠ 0 := fun h0 => hmid (UInt32.toNat_inj.mp h0)
    simp only [SearchWindow.below, hpred]
    omega

/-- The largest `used` of the fast path. -/
def maxSafe : UInt64 := 0xFFFFFFFFFFFFFFFF / 100

/-- The way that a percentage is computed on both systems. -/
def exactPercent (used total : UInt64) : UInt32 :=
  if used ≤ maxSafe then ((used * 100) / total).toUInt32
  else searchPercent total (mul64BySmall used 100) .whole

/-- `exact_percent_u64`. -/
def NetBsd.exactPercentU64 (used total : UInt64) : UInt32 := exactPercent used total

/-- `exact_percent_u64`. -/
def OpenBsd.exactPercentU64 (used total : UInt64) : UInt32 := exactPercent used total

end Search

section Exactness

variable {total : UInt64}

/-- The answer is one below the window, so the search ends at the quotient if that is not above
the window. -/
theorem toNat_searchPercent (htotal : 0 < total.toNat) {target : Uint128Small} {w : SearchWindow}
    (hlow : w.low.toNat ≤ target.toNat / total.toNat + 1)
    (hhigh : target.toNat / total.toNat ≤ w.high.toNat)
    (hans : w.ans.toNat = w.low.toNat - 1) :
    (searchPercent total target w).toNat = target.toNat / total.toNat := by
  have hfits (w : SearchWindow) : uint128Lte (mul64BySmall total w.mid) target = true ↔
      w.mid.toNat ≤ target.toNat / total.toNat := by
    rw [uint128Lte_iff, toNat_mul64BySmall, Nat.le_div_iff_mul_le htotal, Nat.mul_comm]
  fun_induction searchPercent total target w with
  | case1 w h hlte ih =>
    have hsucc := SearchWindow.toNat_mid_succ h
    have hmid := (hfits w).mp hlte
    apply ih
    · rw [SearchWindow.above, hsucc]
      omega
    · exact hhigh
    · simp only [SearchWindow.above, hsucc]
      omega
  | case2 w h hlte hmid =>
    exact absurd ((hfits w).mpr (by simp [hmid])) hlte
  | case3 w h hlte hmid ih =>
    have hpred := SearchWindow.toNat_mid_pred hmid
    have hlarge : ¬ w.mid.toNat ≤ target.toNat / total.toNat := fun hle => hlte ((hfits w).mpr hle)
    apply ih
    · exact hlow
    · simp only [SearchWindow.below, hpred]
      omega
    · exact hans
  | case4 w h =>
    have hlt : w.high.toNat < w.low.toNat := by
      rw [UInt32.le_iff_toNat_le] at h
      omega
    omega

theorem div_le_hundred {used : UInt64} (h : used ≤ total) :
    used.toNat * 100 / total.toNat ≤ 100 := by
  have hle := UInt64.le_iff_toNat_le.mp h
  rcases Nat.eq_zero_or_pos total.toNat with h0 | hpos
  · simp [h0]
  · apply Nat.div_le_of_le_mul
    exact Nat.mul_le_mul_right 100 hle

/-- The search finds the percentage of every part, large or not. -/
theorem searchPercent_whole {used : UInt64} (h : used ≤ total) (htotal : 0 < total.toNat) :
    (searchPercent total (mul64BySmall used 100) .whole).toNat =
      used.toNat * 100 / total.toNat := by
  have htarget : (mul64BySmall used 100).toNat = used.toNat * 100 := toNat_mul64BySmall used 100
  rw [← htarget]
  apply toNat_searchPercent htotal
  · exact Nat.zero_le _
  · rw [htarget]
    exact div_le_hundred h
  · rfl

theorem toNat_exactPercent {used : UInt64} (h : used ≤ total) (htotal : 0 < total.toNat) :
    (exactPercent used total).toNat = used.toNat * 100 / total.toNat := by
  rw [exactPercent]
  split_ifs with hsafe
  · have hused : used.toNat ≤ 0xFFFFFFFFFFFFFFFF / 100 := UInt64.le_iff_toNat_le.mp hsafe
    have hproduct : (used * 100).toNat = used.toNat * 100 := by
      rw [UInt64.toNat_mul]
      apply Nat.mod_eq_of_lt
      rw [show (100 : UInt64).toNat = 100 from rfl]
      omega
    have hsmall := div_le_hundred h
    rw [UInt64.toNat_toUInt32, UInt64.toNat_div, hproduct]
    apply Nat.mod_eq_of_lt
    omega
  · exact searchPercent_whole h htotal

theorem exact_percent_u64 :
    (∀ used total : UInt64, used ≤ total → 0 < total →
      (NetBsd.exactPercentU64 used total).toNat = 100 * used.toNat / total.toNat ∧
      (OpenBsd.exactPercentU64 used total).toNat = 100 * used.toNat / total.toNat ∧
      (searchPercent total (mul64BySmall used 100) .whole).toNat =
        100 * used.toNat / total.toNat) ∧
    (∀ val mult, (mul64BySmall val mult).toNat = val.toNat * mult.toNat) ∧
    ∀ a b, uint128Lte a b = true ↔ a.toNat ≤ b.toNat := by
  refine ⟨?_, toNat_mul64BySmall, uint128Lte_iff⟩
  intro used total h htotal
  have hpos : 0 < total.toNat := UInt64.lt_iff_toNat_lt.mp htotal
  rw [NetBsd.exactPercentU64, OpenBsd.exactPercentU64, Nat.mul_comm]
  exact ⟨toNat_exactPercent h hpos, toNat_exactPercent h hpos, searchPercent_whole h hpos⟩

/-- A part of more than `2 ^ 57` units, which the fast path does not take. -/
theorem exact_percent_u64_large :
    (NetBsd.exactPercentU64 0xC000000000000000 0xFFFFFFFFFFFFFFFF).toNat = 75 :=
  (exact_percent_u64.1 0xC000000000000000 0xFFFFFFFFFFFFFFFF (by decide) (by decide)).1

end Exactness

end Syscape.Memory
