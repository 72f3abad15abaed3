import Syscape.CgroupCpu
import Syscape.Lib.StdSort
import Mathlib.Data.List.MinMax
import Mathlib.Data.Rat.Cast.Order
import Mathlib.Tactic.Linarith
import Mathlib.Tactic.Ring
import Mathlib.Algebra.Order.Star.Basic
import Mathlib.Algebra.Order.Ring.Star

/-!
# The tightest CPU limit

Both readers compute the first level whose quota/period ratio is minimal. The
comparison of ratios is exact, so each reader is a left fold that picks the minimal
ratio of the limited levels, and the two folds keep the same choice.
-/
namespace Syscape.Cgroup
open Checked Text LinuxFile Digits StdSort

section Ratio
variable {a b c d : ℕ}

lemma mul_lt_of_div_lt (hb : 0 < b) (h : a / b < c / d) : a * d < c * b := by
  have ha : a < b * (a / b + 1) := Nat.lt_mul_div_succ a hb
  have hc : c / d * d ≤ c := Nat.div_mul_le_self c d
  have hd : 0 < d := by
    by_contra hd
    simp [Nat.eq_zero_of_not_pos hd] at h
  calc a * d < b * (a / b + 1) * d := Nat.mul_lt_mul_of_pos_right ha hd
    _ ≤ b * (c / d) * d := Nat.mul_le_mul_right d (Nat.mul_le_mul_left b h)
    _ = c / d * d * b := by ring
    _ ≤ c * b := Nat.mul_le_mul_right b hc

lemma mul_lt_iff_of_div_eq (h : a / b = c / d) : a * d < c * b ↔ a % b * d < c % d * b := by
  have ha : a * d = a / b * b * d + a % b * d := by
    rw [← Nat.add_mul, Nat.div_add_mod' a b]
  have hc : c * b = a / b * b * d + c % d * b := by
    rw [h]
    calc c * b = (c / d * d + c % d) * b := by rw [Nat.div_add_mod' c d]
      _ = c / d * b * d + c % d * b := by ring
  omega

/-- One round of the continued fraction keeps the comparison, and swaps its two
sides; the loop invariant relates the current remainders to the given fractions. -/
theorem positiveRatioLessFrom_eq (inverted : Bool) (hb : 0 < b) (hd : 0 < d) :
    positiveRatioLessFrom inverted a b c d =
      .ok (if inverted then decide (c * b < a * d) else decide (a * d < c * b)) := by
  induction hn : b using Nat.strong_induction_on generalizing inverted a b c d with
  | h n ih =>
    subst hn
    rw [positiveRatioLessFrom, if_neg (by omega)]
    by_cases hq : a / b = c / d
    · have hlt := mul_lt_iff_of_div_eq hq
      have hgt := mul_lt_iff_of_div_eq hq.symm
      simp only [hq, ne_eq, not_true_eq_false, if_false, hlt, hgt]
      by_cases hr : a % b = 0
      · by_cases hs : c % d = 0
        · simp [hr, hs]
        · have : 0 < c % d * b := Nat.mul_pos (Nat.pos_of_ne_zero hs) hb
          cases inverted <;> simp [hr, hs, this]
      · by_cases hs : c % d = 0
        · have : 0 < a % b * d := Nat.mul_pos (Nat.pos_of_ne_zero hr) hd
          cases inverted <;> simp [hr, hs, this]
        · rw [if_neg (by omega), ih (a % b) (Nat.mod_lt a hb) _ (Nat.pos_of_ne_zero hr)
            (Nat.pos_of_ne_zero hs) rfl]
          cases inverted <;> simp [Nat.mul_comm]
    · simp only [ne_eq, hq, not_false_eq_true, if_true]
      rcases Nat.lt_or_gt_of_ne hq with h | h
      · have hlt := mul_lt_of_div_lt hb h
        cases inverted <;> simp [h, hlt, not_lt.mpr h.le, not_lt.mpr hlt.le]
      · have hlt := mul_lt_of_div_lt hd h
        cases inverted <;> simp [h, hlt, not_lt.mpr h.le, not_lt.mpr hlt.le]

/-- The comparison is exact on positive fractions. -/
theorem positiveRatioLess_eq (hb : 0 < b) (hd : 0 < d) :
    positiveRatioLess a b c d = .ok (decide ((a : ℚ) / b < (c : ℚ) / d)) := by
  have hiff : (a : ℚ) / b < (c : ℚ) / d ↔ a * d < c * b := by
    rw [div_lt_div_iff₀ (by exact_mod_cast hb) (by exact_mod_cast hd)]
    norm_cast
  rw [positiveRatioLess, positiveRatioLessFrom_eq false hb hd]
  simp [hiff]

/-- A fraction that the comparison is called with. -/
structure Fraction where
  numerator : ℕ
  denominator : ℕ
  denominator_pos : 0 < denominator

namespace Fraction

/-- `positive_ratio_less` on fractions. -/
def less (p q : Fraction) : Result Bool :=
  positiveRatioLess p.numerator p.denominator q.numerator q.denominator

/-- Cross products order the fractions. -/
def before (p q : Fraction) : Bool :=
  decide (p.numerator * q.denominator < q.numerator * p.denominator)

theorem before_iff (p q : Fraction) :
    p.before q = true ↔ (p.numerator : ℚ) / p.denominator < (q.numerator : ℚ) / q.denominator := by
  have hp : (0 : ℚ) < p.denominator := by exact_mod_cast p.denominator_pos
  have hq : (0 : ℚ) < q.denominator := by exact_mod_cast q.denominator_pos
  rw [before, decide_eq_true_eq, div_lt_div_iff₀ hp hq]
  norm_cast

theorem strictWeak_before : StrictWeak before where
  asymm p q h := by
    rw [before_iff] at h
    rw [← Bool.not_eq_true, before_iff]
    exact h.le.not_gt
  negTrans p q r hpq hqr := by
    rw [← Bool.not_eq_true, before_iff, not_lt] at hpq hqr ⊢
    exact hqr.trans hpq

/-- The loop only divides, so no value leaves the 64 bits, and on positive denominators
no division is by zero: the comparison is that of the cross products as integers, which
is an order of the fractions. -/
theorem less_exact :
    (∀ p q : Fraction, p.less q =
        .ok (decide (p.numerator * q.denominator < q.numerator * p.denominator))) ∧
      StrictWeak fun p q : Fraction => decide (p.less q = .ok true) := by
  have hless : ∀ p q : Fraction, p.less q = .ok (p.before q) := by
    intro p q
    rw [less, positiveRatioLess, positiveRatioLessFrom_eq false p.denominator_pos q.denominator_pos]
    rfl
  refine ⟨hless, ?_⟩
  have hbefore : (fun p q : Fraction => decide (p.less q = .ok true)) = before := by
    ext p q
    rw [hless p q]
    simp
  rw [hbefore]
  exact strictWeak_before

end Fraction

end Ratio

section Numbers

/-- The guard before a step of the digit loop holds exactly when the step overflows. -/
lemma overflow_guard {v d : ℕ} (hd : d < 10) :
    v > (uint64Max - d) / 10 ↔ uint64Max < v * 10 + d := by
  unfold uint64Max
  omega

/-- The digit loop on the digits of a number that fits 64 bits. -/
theorem accumulateDecimal_digits (ds : List ℕ) (hds : ∀ d ∈ ds, d < 10) (v : ℕ)
    (hmax : value 10 v ds ≤ uint64Max) :
    accumulateDecimal v (ds.map asciiDigit) = .ok (value 10 v ds) := by
  induction ds generalizing v with
  | nil => rfl
  | cons d ds ih =>
    have hd : d < 10 := hds d (by simp)
    have hc := toNat_asciiDigit hd
    have hstep : v * 10 + d ≤ uint64Max := (le_value (by decide) _ ds).trans hmax
    have hchar : ¬ (asciiDigit d < 0x30 ∨ asciiDigit d > 0x39) := by
      simp only [gt_iff_lt, UInt8.lt_iff_toNat_lt, hc, UInt8.reduceToNat]
      omega
    rw [List.map_cons, accumulateDecimal, if_neg hchar, hc, Nat.add_sub_cancel_left,
      if_neg (by rw [overflow_guard hd]; omega)]
    exact ih (fun x hx => hds x (by simp [hx])) _ hmax

theorem accumulateDecimal_decimal {n : ℕ} (h : n ≤ uint64Max) :
    accumulateDecimal 0 (decimal n) = .ok n := by
  have hv := value_ofNat 10 n
  rw [decimal, accumulateDecimal_digits _ (fun d hd => ofNat_lt (by decide) hd) 0 (by omega), hv]

lemma isSpace_decimal {n : ℕ} : ∀ c ∈ decimal n, isSpace c = false := by
  intro c hc
  have h := mem_decimal hc
  have hne : ∀ x : UInt8, x.toNat < 0x30 → (c == x) = false := by
    intro x hx
    rw [beq_eq_false_iff_ne]
    rintro rfl
    omega
  simp [isSpace, hne]

lemma isPadding_decimal {n : ℕ} : ∀ c ∈ decimal n, isPadding c = false := by
  intro c hc
  have h := mem_decimal hc
  have hne : c ≠ 0 := by
    rintro rfl
    simp at h
  simp [isPadding, isSpace_decimal c hc, hne]

end Numbers

section Levels

/-- One level of the hierarchy as the kernel accepts it: a quota below `2 ^ 62`, or
none for `max`, and a positive 64-bit period. -/
structure CpuLevel where
  quota : Option ℕ
  period : ℕ
  quota_range : ∀ q ∈ quota, 0 < q ∧ q < 2 ^ 62
  period_pos : 0 < period
  period_lt : period < 2 ^ 64

/-- `cpu.max` of a level. -/
def cpuMaxText (l : CpuLevel) : List UInt8 :=
  (l.quota.elim (ascii "max") decimal) ++ ascii " " ++ decimal l.period

/-- `cpu.cfs_quota_us` of a level. -/
def cfsQuotaText (l : CpuLevel) : List UInt8 := l.quota.elim (ascii "-1") decimal

/-- `cpu.cfs_period_us` of a level. -/
def cfsPeriodText (l : CpuLevel) : List UInt8 := decimal l.period

/-- The file holds the text, with or without a final line end. -/
def Holds (fs : FileSystem) (path : Path) (text : List UInt8) : Prop :=
  ∃ eol, (eol = [] ∨ eol = ascii "\n") ∧ fs path = .content (text ++ eol)

lemma decimal_ne_of_mem {n : ℕ} {text : List UInt8} {c : UInt8} (hc : c ∈ text)
    (h : c.toNat < 0x30 ∨ 0x39 < c.toNat) : decimal n ≠ text := by
  rintro rfl
  have := mem_decimal hc
  omega

lemma head?_decimal_ne {n : ℕ} {c : UInt8} (h : c.toNat < 0x30 ∨ 0x39 < c.toNat) :
    (decimal n).head? ≠ some c := by
  intro hc
  have := mem_decimal (List.mem_of_mem_head? hc)
  omega

lemma trimSignature_decimal (n : ℕ) {eol : List UInt8} (heol : eol = [] ∨ eol = ascii "\n") :
    trimSignature (decimal n ++ eol) = decimal n := by
  have hblank : ∀ c ∈ eol, isPadding c = true := by
    rcases heol with rfl | rfl
    · simp
    · simp [ascii, isPadding, isSpace]
  rw [trimSignature, rdropWhile_append_blanks hblank, rdropWhile_eq_self isPadding_decimal,
    dropWhile_eq_self isPadding_decimal]

lemma parseCgroupLimitValue_decimal {q : ℕ} (hq : q < 2 ^ 62) :
    parseCgroupLimitValue (decimal q) = .ok (some q) := by
  have htrim : trimSignature (decimal q) = decimal q := by
    simpa using trimSignature_decimal q (.inl rfl)
  simp only [parseCgroupLimitValue, htrim]
  rw [if_neg (decimal_ne_nil q), if_neg (decimal_ne_of_mem (c := 0x6D) (by decide) (by decide)),
    if_neg (decimal_ne_of_mem (c := 0x2D) (by decide) (by decide)),
    if_neg (head?_decimal_ne (by decide)),
    accumulateDecimal_decimal (by unfold uint64Max; omega), ok_bind, if_neg (by omega)]
  rfl

lemma parseQuotaToken_level (l : CpuLevel) :
    parseQuotaToken (l.quota.elim (ascii "max") decimal) = .ok l.quota := by
  cases hq : l.quota with
  | none => rfl
  | some q =>
    obtain ⟨hpos, hlt⟩ := l.quota_range q hq
    rw [Option.elim_some, parseQuotaToken,
      if_neg (decimal_ne_of_mem (c := 0x6D) (by decide) (by decide)),
      parseCgroupLimitValue_decimal hlt, ok_bind]
    exact if_neg (by omega)

lemma parsePeriodToken_level (l : CpuLevel) : parsePeriodToken (decimal l.period) = .ok l.period := by
  have hlt := l.period_lt
  have hpos := l.period_pos
  have hgood : ¬ (decimal l.period = [] ∨ decimal l.period = ascii "max" ∨
      (decimal l.period).head? = some 0x2D) := by
    rintro (h | h | h)
    · exact decimal_ne_nil _ h
    · exact decimal_ne_of_mem (c := 0x6D) (by decide) (by decide) h
    · exact head?_decimal_ne (by decide) h
  rw [parsePeriodToken, if_neg hgood, accumulateDecimal_decimal (by unfold uint64Max; omega),
    ok_bind, if_neg (by omega)]
  rfl

/-- The text of a level splits into its two tokens. -/
lemma splitWhitespace_level (l : CpuLevel) {eol : List UInt8}
    (heol : eol = [] ∨ eol = ascii "\n") :
    splitWhitespace (cpuMaxText l ++ eol) =
      [l.quota.elim (ascii "max") decimal, decimal l.period] := by
  have hquota : l.quota.elim (ascii "max") decimal ≠ [] ∧
      ∀ c ∈ l.quota.elim (ascii "max") decimal, isSpace c = false := by
    cases l.quota with
    | none => simp [ascii, isSpace]
    | some q => exact ⟨decimal_ne_nil q, isSpace_decimal⟩
  have hend : ∀ c ∈ eol.head?, isSpace c = true := by
    rcases heol with rfl | rfl <;> simp [ascii, isSpace]
  have hlast : splitBlank isSpace eol = [] := by
    rcases heol with rfl | rfl
    · exact splitBlank_nil
    · exact (splitBlank_blank (by decide) _).trans splitBlank_nil
  have hsep : ∀ c ∈ (ascii " " ++ (decimal l.period ++ eol)).head?, isSpace c = true := by
    rintro c ⟨⟩
    rfl
  rw [splitWhitespace, cpuMaxText, List.append_assoc, List.append_assoc,
    splitBlank_token hquota.1 hquota.2 hsep]
  change _ :: splitBlank isSpace (0x20 :: (decimal l.period ++ eol)) = _
  rw [splitBlank_blank (by decide), splitBlank_token (decimal_ne_nil _) isSpace_decimal hend, hlast]

theorem parseCgroupCpuMax_level (l : CpuLevel) {eol : List UInt8}
    (heol : eol = [] ∨ eol = ascii "\n") :
    parseCgroupCpuMax (cpuMaxText l ++ eol) = .ok (l.quota, some l.period) := by
  rw [parseCgroupCpuMax, splitWhitespace_level l heol]
  simp [parseQuotaToken_level, parsePeriodToken_level]

theorem parseCgroup1CpuQuotaValue_level (l : CpuLevel) {eol : List UInt8}
    (heol : eol = [] ∨ eol = ascii "\n") :
    parseCgroup1CpuQuotaValue (cfsQuotaText l ++ eol) = .ok l.quota := by
  unfold cfsQuotaText
  cases hq : l.quota with
  | none => rcases heol with rfl | rfl <;> rfl
  | some q =>
    obtain ⟨hpos, hlt⟩ := l.quota_range q hq
    have hgood : ¬ (decimal q = [] ∨ (decimal q).head? = some 0x2D) := by
      rintro (h | h)
      · exact decimal_ne_nil _ h
      · exact head?_decimal_ne (by decide) h
    simp only [Option.elim_some, parseCgroup1CpuQuotaValue, trimSignature_decimal q heol]
    rw [if_neg (decimal_ne_of_mem (c := 0x2D) (by decide) (by decide)), if_neg hgood,
      accumulateDecimal_decimal (by unfold uint64Max; omega), ok_bind, if_neg (by omega)]
    rfl

theorem parseCgroup1Period_level (l : CpuLevel) {eol : List UInt8}
    (heol : eol = [] ∨ eol = ascii "\n") :
    parseCgroup1Period (cfsPeriodText l ++ eol) = .ok l.period := by
  have hlt := l.period_lt
  have hpos := l.period_pos
  simp only [cfsPeriodText, parseCgroup1Period, trimSignature_decimal l.period heol]
  rw [if_neg (decimal_ne_nil _), accumulateDecimal_decimal (by unfold uint64Max; omega), ok_bind,
    if_neg (by omega)]
  rfl

end Levels

section Tightest

/-- The quota/period pairs of the limited levels, from the leaf on. -/
def limited (levels : List CpuLevel) : List (ℕ × ℕ) :=
  levels.filterMap fun l => l.quota.map (·, l.period)

def ratio (limit : ℕ × ℕ) : ℚ := limit.1 / limit.2

/-- The first limit with the least ratio. -/
def best (levels : List CpuLevel) : Option (ℕ × ℕ) := (limited levels).argmin ratio

/-- What a reader should report for the levels: the tightest limit, or no quota and
the period of the first level. -/
def tightest (levels : List CpuLevel) : CpuLimit :=
  match best levels with
  | some (q, p) => ⟨some q, some p⟩
  | none => ⟨none, levels.head?.map (·.period)⟩

lemma best_concat_unlimited {done : List CpuLevel} {l : CpuLevel} (h : l.quota = none) :
    best (done ++ [l]) = best done := by
  simp [best, limited, h]

lemma best_concat_limited {done : List CpuLevel} {l : CpuLevel} {q : ℕ} (h : l.quota = some q) :
    best (done ++ [l]) =
      match best done with
      | none => some (q, l.period)
      | some limit =>
        if ratio (q, l.period) < ratio limit then some (q, l.period) else some limit := by
  simp only [best, limited, List.filterMap_append, List.filterMap_cons, List.filterMap_nil, h,
    Option.map_some, List.argmin_concat]
  cases (List.filterMap (fun l => l.quota.map (·, l.period)) done).argmin ratio <;> rfl

lemma best_period_pos {levels : List CpuLevel} {limit : ℕ × ℕ} (h : best levels = some limit) :
    0 < limit.2 := by
  have hmem : limit ∈ limited levels := List.argmin_mem h
  obtain ⟨l, -, hl⟩ := List.mem_filterMap.mp hmem
  cases hq : l.quota with
  | none => simp [hq] at hl
  | some q =>
    simp only [hq, Option.map_some, Option.some.injEq] at hl
    rw [← hl]
    exact l.period_pos

lemma head?_period_concat (done : List CpuLevel) (l : CpuLevel) :
    (done ++ [l]).head?.map (·.period) =
      match done.head?.map (·.period) with
      | none => some l.period
      | some p => some p := by
  cases done <;> rfl

/-- One level of the unified hierarchy on top of the levels before it. -/
theorem mergeCpuMax_tightest (done : List CpuLevel) (l : CpuLevel) :
    mergeCpuMax (tightest done) l.quota (some l.period) = .ok (tightest (done ++ [l])) := by
  cases hq : l.quota with
  | none =>
    unfold tightest
    rw [best_concat_unlimited hq, head?_period_concat]
    cases best done with
    | none => cases done.head?.map (·.period) <;> rfl
    | some limit => rfl
  | some q =>
    unfold tightest
    rw [best_concat_limited hq]
    cases hb : best done with
    | none => rfl
    | some limit =>
      obtain ⟨curQ, curP⟩ := limit
      have hpos : 0 < curP := best_period_pos hb
      simp only [mergeCpuMax, Option.getD_some,
        positiveRatioLess_eq l.period_pos hpos, ok_bind, ratio]
      by_cases hlt : (q : ℚ) / l.period < curQ / curP <;> simp [hlt]

/-- The loop state of the legacy reader after some levels. -/
def cgroup1State (found : Bool) (done : List CpuLevel) : Cgroup1State :=
  ⟨found, (best done).isSome, (best done).getD (0, 0), done.head?.map (·.period)⟩

/-- One level of the legacy hierarchy on top of the levels before it. -/
theorem mergeCgroup1_tightest (found : Bool) (done : List CpuLevel) (l : CpuLevel) :
    mergeCgroup1 (cgroup1State found done) l.quota l.period =
      .ok (cgroup1State true (done ++ [l])) := by
  unfold cgroup1State mergeCgroup1
  rw [head?_period_concat]
  cases hq : l.quota with
  | none =>
    rw [best_concat_unlimited hq]
    cases done.head?.map (·.period) <;> rfl
  | some q =>
    rw [best_concat_limited hq]
    cases hb : best done with
    | none => cases done.head?.map (·.period) <;> rfl
    | some limit =>
      obtain ⟨curQ, curP⟩ := limit
      have hpos : 0 < curP := best_period_pos hb
      simp only [Option.isSome_some, Bool.not_true, Bool.false_eq_true, if_false,
        Option.getD_some, positiveRatioLess_eq l.period_pos hpos, ok_bind, ratio]
      by_cases hlt : (q : ℚ) / l.period < curQ / curP <;>
        cases done.head?.map (·.period) <;> simp [hlt]

end Tightest

section Readers
variable {fs : FileSystem}

/-- The directories hold `cpu.max` files of the levels. -/
def UnifiedFiles (fs : FileSystem) (levels : List (Path × CpuLevel)) : Prop :=
  ∀ dl ∈ levels, Holds fs (joinPath dl.1 (ascii "cpu.max")) (cpuMaxText dl.2)

/-- The directories hold the two legacy files of the levels. -/
def LegacyFiles (fs : FileSystem) (levels : List (Path × CpuLevel)) : Prop :=
  ∀ dl ∈ levels, Holds fs (joinPath dl.1 (ascii "cpu.cfs_quota_us")) (cfsQuotaText dl.2) ∧
    Holds fs (joinPath dl.1 (ascii "cpu.cfs_period_us")) (cfsPeriodText dl.2)

lemma length_eol {eol : List UInt8} (h : eol = [] ∨ eol = ascii "\n") : eol.length ≤ 1 := by
  rcases h with rfl | rfl <;> decide

lemma length_quota_le (l : CpuLevel) (unlimited : List UInt8) (hu : unlimited.length ≤ 20) :
    (l.quota.elim unlimited decimal).length ≤ 20 := by
  cases hq : l.quota with
  | none => exact hu
  | some q =>
    obtain ⟨-, hlt⟩ := l.quota_range q hq
    exact length_decimal_le (by decide) (by omega)

lemma length_period_le (l : CpuLevel) : (decimal l.period).length ≤ 20 := by
  have := l.period_lt
  exact length_decimal_le (by decide) (by omega)

/-- The loop over the unified levels reaches the tightest limit of all of them. -/
theorem readCpuMaxLevels_tightest (levels : List (Path × CpuLevel)) (done : List CpuLevel)
    (found : Bool) (h : UnifiedFiles fs levels) :
    readCpuMaxLevels fs ⟨tightest done, found⟩ (levels.map (·.1)) =
      .ok ⟨tightest (done ++ levels.map (·.2)), found || !levels.isEmpty⟩ := by
  induction levels generalizing done found with
  | nil => simp [readCpuMaxLevels]
  | cons dl levels ih =>
    obtain ⟨eol, heol, hfile⟩ := h dl (by simp)
    have hlen : (cpuMaxText dl.2 ++ eol).length ≤ 256 := by
      have hq := length_quota_le dl.2 (ascii "max") (by decide)
      have hp := length_period_le dl.2
      have he := length_eol heol
      have hsep : (ascii " ").length = 1 := rfl
      simp only [cpuMaxText, List.length_append]
      omega
    have hrest := ih (done ++ [dl.2]) true fun dl' hdl' => h dl' (by simp [hdl'])
    simp only [List.map_cons, readCpuMaxLevels, statError_content hfile,
      readTextFile_content hfile hlen, ok_bind, parseCgroupCpuMax_level dl.2 heol,
      mergeCpuMax_tightest, hrest]
    simp

/-- The loop over the legacy levels reaches the same limit. -/
theorem readCgroup1Levels_tightest (levels : List (Path × CpuLevel)) (done : List CpuLevel)
    (found : Bool) (h : LegacyFiles fs levels) :
    readCgroup1Levels fs (cgroup1State found done) (levels.map (·.1)) =
      .ok (cgroup1State (found || !levels.isEmpty) (done ++ levels.map (·.2))) := by
  induction levels generalizing done found with
  | nil => simp [readCgroup1Levels]
  | cons dl levels ih =>
    obtain ⟨⟨eolQ, heolQ, hquota⟩, eolP, heolP, hperiod⟩ := h dl (by simp)
    have hlenQ : (cfsQuotaText dl.2 ++ eolQ).length ≤ 256 := by
      have hq := length_quota_le dl.2 (ascii "-1") (by decide)
      have he := length_eol heolQ
      simp only [cfsQuotaText, List.length_append]
      omega
    have hlenP : (cfsPeriodText dl.2 ++ eolP).length ≤ 256 := by
      have hp := length_period_le dl.2
      have he := length_eol heolP
      simp only [cfsPeriodText, List.length_append]
      omega
    have hrest := ih (done ++ [dl.2]) true fun dl' hdl' => h dl' (by simp [hdl'])
    simp only [List.map_cons, readCgroup1Levels, statError_content hquota,
      statError_content hperiod, readTextFile_content hquota hlenQ,
      readTextFile_content hperiod hlenP, ok_bind, parseCgroup1CpuQuotaValue_level dl.2 heolQ,
      parseCgroup1Period_level dl.2 heolP, mergeCgroup1_tightest, hrest]
    simp

theorem readEffectiveCpuMax_tightest {levels : List (Path × CpuLevel)} (hne : levels ≠ [])
    (h : UnifiedFiles fs levels) :
    readEffectiveCpuMax fs (levels.map (·.1)) = .ok (tightest (levels.map (·.2))) := by
  have hrun := readCpuMaxLevels_tightest levels [] false h
  rw [readEffectiveCpuMax]
  change readCpuMaxLevels fs ⟨tightest [], false⟩ _ >>= _ = _
  simp [hrun, hne]

theorem readEffectiveCgroup1Cpu_tightest {levels : List (Path × CpuLevel)} (hne : levels ≠ [])
    (h : LegacyFiles fs levels) :
    readEffectiveCgroup1Cpu fs (levels.map (·.1)) = .ok (tightest (levels.map (·.2))) := by
  have hrun := readCgroup1Levels_tightest levels [] false h
  rw [readEffectiveCgroup1Cpu]
  change readCgroup1Levels fs (cgroup1State false []) _ >>= _ = _
  rw [hrun, ok_bind]
  simp only [List.nil_append, cgroup1State, tightest]
  rcases Option.eq_none_or_eq_some (best (levels.map (·.2))) with hb | ⟨limit, hb⟩ <;>
    simp [hb, hne]

end Readers

section Specification

lemma limited_eq_nil_iff (levels : List CpuLevel) :
    limited levels = [] ↔ ∀ l ∈ levels, l.quota = none := by
  simp [limited]

theorem tightest_quota_eq_none_iff (levels : List CpuLevel) :
    (tightest levels).quotaUs = none ↔ ∀ l ∈ levels, l.quota = none := by
  rw [← limited_eq_nil_iff, ← List.argmin_eq_none (f := ratio)]
  unfold tightest best
  cases (limited levels).argmin ratio <;> simp

theorem tightest_period_of_unlimited {levels : List CpuLevel}
    (h : ∀ l ∈ levels, l.quota = none) :
    (tightest levels).periodUs = levels.head?.map (·.period) := by
  have hb : best levels = none := by
    rw [best, List.argmin_eq_none, limited_eq_nil_iff]
    exact h
  rw [tightest, hb]

/-- The first minimal element of a list, as a split of the list. -/
lemma exists_split_of_argmin {α β : Type*} [LinearOrder β] [DecidableEq α] {f : α → β}
    {l : List α} {m : α} (h : m ∈ l.argmin f) :
    ∃ before after, l = before ++ m :: after ∧ (∀ x ∈ before, f m < f x) ∧
      ∀ x ∈ l, f m ≤ f x := by
  obtain ⟨hmem, hmin, hfirst⟩ := List.mem_argmin_iff.mp h
  have hidx := List.idxOf_lt_length_of_mem hmem
  refine ⟨l.take (l.idxOf m), l.drop (l.idxOf m + 1), ?_, ?_, hmin⟩
  · conv_lhs => rw [← List.take_append_drop (l.idxOf m) l, List.drop_eq_getElem_cons hidx,
      List.getElem_idxOf]
  · intro x hx
    by_contra hle
    have hxl : x ∈ l := List.mem_of_mem_take hx
    have hge := hfirst x hxl (not_lt.mp hle)
    have hlt := (List.mem_take_iff_idxOf_lt hxl).mp hx
    omega

/-- A limited level is reported: the first whose ratio is minimal. -/
theorem tightest_of_limited {levels : List CpuLevel} {q : ℕ}
    (h : (tightest levels).quotaUs = some q) :
    ∃ before l after, levels = before ++ l :: after ∧ l.quota = some q ∧
      (tightest levels).periodUs = some l.period ∧
      (∀ l' ∈ levels, ∀ q' : ℕ, l'.quota = some q' →
        (q : ℚ) / l.period ≤ (q' : ℚ) / l'.period) ∧
      ∀ l' ∈ before, ∀ q' : ℕ, l'.quota = some q' →
        (q : ℚ) / l.period < (q' : ℚ) / l'.period := by
  unfold tightest at h ⊢
  cases hb : best levels with
  | none => simp [hb] at h
  | some limit =>
    obtain ⟨bestQ, bestP⟩ := limit
    simp only [hb, Option.some.injEq] at h
    subst h
    obtain ⟨limBefore, limAfter, hsplit, hbefore, hmin⟩ := exists_split_of_argmin hb
    obtain ⟨before, rest, rfl, hlb, hrest⟩ := List.filterMap_eq_append_iff.mp hsplit
    obtain ⟨skipped, l, after, rfl, hskipped, hl, -⟩ := List.filterMap_eq_cons_iff.mp hrest
    have hlq : l.quota = some bestQ ∧ l.period = bestP := by
      cases hq : l.quota with
      | none => simp [hq] at hl
      | some q => simpa [hq] using hl
    -- what the filter skipped is not limited, so the split is one of all the levels
    have hlimited : ∀ (l' : CpuLevel) (q' : ℕ), l'.quota = some q' →
        ∀ ls : List CpuLevel, l' ∈ ls → (q', l'.period) ∈ limited ls := by
      intro l' q' hq' ls hmem
      exact List.mem_filterMap.mpr ⟨l', hmem, by rw [hq']; rfl⟩
    refine ⟨before ++ skipped, l, after, by simp, hlq.1, by simp [hlq.2], ?_, ?_⟩
    · intro l' hl' q' hq'
      rw [hlq.2]
      have hle := hmin _ (hlimited l' q' hq' _ hl')
      exact hle
    · intro l' hl' q' hq'
      rw [hlq.2]
      rcases List.mem_append.mp hl' with hl' | hl'
      · have hlt := hbefore _ (by rw [← hlb]; exact hlimited l' q' hq' before hl')
        exact hlt
      · have := hskipped l' hl'
        simp [hq'] at this

/-- Both readers report, on the same levels, no quota and the first period when every
level is unlimited, and otherwise the first level with the least ratio. -/
theorem effective_cpu_limit {fs fs' : FileSystem} {levels levels' : List (Path × CpuLevel)}
    (hne : levels ≠ []) (hsame : levels'.map (·.2) = levels.map (·.2))
    (hunified : UnifiedFiles fs levels) (hlegacy : LegacyFiles fs' levels') :
    ∃ out, readEffectiveCpuMax fs (levels.map (·.1)) = .ok out ∧
      readEffectiveCgroup1Cpu fs' (levels'.map (·.1)) = .ok out ∧
      (out.quotaUs = none ↔ ∀ dl ∈ levels, dl.2.quota = none) ∧
      (out.quotaUs = none → out.periodUs = some (levels.head hne).2.period) ∧
      (∀ q : ℕ, out.quotaUs = some q →
        ∃ before dl after, levels = before ++ dl :: after ∧ dl.2.quota = some q ∧
          out.periodUs = some dl.2.period ∧
          (∀ dl' ∈ levels, ∀ q' : ℕ, dl'.2.quota = some q' →
            (q : ℚ) / dl.2.period ≤ (q' : ℚ) / dl'.2.period) ∧
          ∀ dl' ∈ before, ∀ q' : ℕ, dl'.2.quota = some q' →
            (q : ℚ) / dl.2.period < (q' : ℚ) / dl'.2.period) := by
  have hne' : levels' ≠ [] := by
    rintro rfl
    exact hne (List.map_eq_nil_iff.mp hsame.symm)
  have hnone := tightest_quota_eq_none_iff (levels.map (·.2))
  simp only [List.mem_map, forall_exists_index, and_imp, forall_apply_eq_imp_iff₂] at hnone
  refine ⟨tightest (levels.map (·.2)), readEffectiveCpuMax_tightest hne hunified, ?_, hnone, ?_, ?_⟩
  · rw [readEffectiveCgroup1Cpu_tightest hne' hlegacy, hsame]
  · intro h
    have hall : ∀ l ∈ levels.map (·.2), l.quota = none :=
      (tightest_quota_eq_none_iff _).mp h
    rw [tightest_period_of_unlimited hall, List.head?_map, List.head?_eq_some_head hne]
    rfl
  · intro q hq
    obtain ⟨before, l, after, hsplit, hlq, hlp, hmin, hfirst⟩ := tightest_of_limited hq
    obtain ⟨before', rest, rfl, rfl, hrest⟩ := List.map_eq_append_iff.mp hsplit
    obtain ⟨dl, after', rfl, rfl, -⟩ := List.map_eq_cons_iff.mp hrest
    refine ⟨before', dl, after', rfl, hlq, hlp, ?_, ?_⟩
    · intro dl' hdl' q' hq'
      exact hmin dl'.2 (List.mem_map_of_mem hdl') q' hq'
    · intro dl' hdl' q' hq'
      exact hfirst dl'.2 (List.mem_map_of_mem hdl') q' hq'

theorem effective_cpu_limit_two_levels :
    let leaf : CpuLevel := ⟨none, 250000, by simp, by decide, by decide⟩
    let top : CpuLevel := ⟨some 50000, 100000, by simp, by decide, by decide⟩
    let levels := [(ascii "/a", leaf), (ascii "/", top)]
    let fs : FileSystem := fun path =>
      if path = ascii "/a/cpu.max" then .content (ascii "max 250000\n")
      else if path = ascii "/cpu.max" then .content (ascii "50000 100000\n")
      else if path = ascii "/a/cpu.cfs_quota_us" then .content (ascii "-1\n")
      else if path = ascii "/a/cpu.cfs_period_us" then .content (ascii "250000\n")
      else if path = ascii "/cpu.cfs_quota_us" then .content (ascii "50000\n")
      else if path = ascii "/cpu.cfs_period_us" then .content (ascii "100000\n")
      else .absent
    ∃ out, readEffectiveCpuMax fs (levels.map (·.1)) = .ok out ∧
      readEffectiveCgroup1Cpu fs (levels.map (·.1)) = .ok out ∧ out.quotaUs ≠ none := by
  intro leaf top levels fs
  have hunified : UnifiedFiles fs levels := by
    rintro dl hdl
    have hleaf : Holds fs (joinPath (ascii "/a") (ascii "cpu.max")) (cpuMaxText leaf) :=
      ⟨ascii "\n", .inr rfl, by decide +kernel⟩
    have htop : Holds fs (joinPath (ascii "/") (ascii "cpu.max")) (cpuMaxText top) :=
      ⟨ascii "\n", .inr rfl, by decide +kernel⟩
    rcases List.mem_pair.mp hdl with rfl | rfl
    · exact hleaf
    · exact htop
  have hlegacy : LegacyFiles fs levels := by
    rintro dl hdl
    have hleaf : Holds fs (joinPath (ascii "/a") (ascii "cpu.cfs_quota_us")) (cfsQuotaText leaf) ∧
        Holds fs (joinPath (ascii "/a") (ascii "cpu.cfs_period_us")) (cfsPeriodText leaf) :=
      ⟨⟨ascii "\n", .inr rfl, by decide +kernel⟩, ⟨ascii "\n", .inr rfl, by decide +kernel⟩⟩
    have htop : Holds fs (joinPath (ascii "/") (ascii "cpu.cfs_quota_us")) (cfsQuotaText top) ∧
        Holds fs (joinPath (ascii "/") (ascii "cpu.cfs_period_us")) (cfsPeriodText top) :=
      ⟨⟨ascii "\n", .inr rfl, by decide +kernel⟩, ⟨ascii "\n", .inr rfl, by decide +kernel⟩⟩
    rcases List.mem_pair.mp hdl with rfl | rfl
    · exact hleaf
    · exact htop
  obtain ⟨out, h2, h1, hnone, -⟩ :=
    effective_cpu_limit (by simp [levels]) rfl hunified hlegacy
  refine ⟨out, h2, h1, fun hq => ?_⟩
  have := hnone.mp hq (ascii "/", top) (by simp [levels])
  cases this

end Specification

end Syscape.Cgroup
