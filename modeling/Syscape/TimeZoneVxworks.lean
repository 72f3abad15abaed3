import Syscape.Error
import Syscape.Utf8Language
import Syscape.Lib.Gregorian
import Syscape.Lib.Text

/-!
# The offset from UTC on VxWorks

There is no `tm_gmtoff`, so the offset is the difference of the local and the universal
broken-down time of one instant. A `TIMEZONE` without summer time stands in where there is no
such difference.
-/
namespace Syscape.Locale.Vxworks
open Checked Text Gregorian Utf8

section Specification

/-- The value of two digits. -/
def twoDigits (tens ones : UInt8) : ℕ := (tens.toNat - 0x30) * 10 + (ones.toNat - 0x30)

/-- `max_days_in_month`. -/
def maxDaysInMonth : List ℕ := [0, 31, 29, 31, 30, 31, 30, 31, 31, 30, 31, 30, 31]

/-- `validate_dst_spec`. -/
def validateDstSpec (spec : List UInt8) : Bool :=
  match spec with
  | [a, b, c, d, e, f] =>
    let month := twoDigits a b
    let day := twoDigits c d
    let hour := twoDigits e f
    (∀ c ∈ spec, 0x30 ≤ c ∧ c ≤ 0x39) ∧ (1 ≤ month ∧ month ≤ 12) ∧
      (1 ≤ day ∧ day ≤ maxDaysInMonth.getD month 0) ∧ hour ≤ 23
  | _ => false

/-- `vxworks_timezone_info`. -/
structure TimezoneInfo where
  name : List UInt8
  offsetSeconds : ℤ
  hasDst : Bool
  deriving DecidableEq, Repr

/-- The loop of `parse_vxworks_timezone` over the digits of the offset. -/
def parseMinutes (minutes : ℤ) : List UInt8 → Result ℤ
  | [] => .ok minutes
  | c :: text =>
    if c < 0x30 ∨ c > 0x39 then fail .malformedData
    else
      let minutes := minutes * 10 + (c.toNat - 0x30)
      if minutes > 1440 then fail .malformedData else parseMinutes minutes text

/-- The offset in minutes to the west, with its sign. -/
def parseOffset (text : List UInt8) : Result ℤ :=
  match text with
  | [] => fail .malformedData
  | c :: digits =>
    let negative := c = 0x2D
    let digits := if c = 0x2D ∨ c = 0x2B then digits else text
    if digits = [] then fail .malformedData
    else do
      let minutes ← parseMinutes 0 digits
      return if negative then -minutes else minutes

/-- What `parse_vxworks_timezone` makes of the tokens; the one behind the name is not read. -/
def timezoneOfTokens (name offset : List UInt8) (dst : List (List UInt8)) :
    Result TimezoneInfo :=
  if name = [] then fail .malformedData
  else do
    let valid ← isValidUtf8 name
    if ¬ valid then fail .invalidEncoding
    else if ∃ c ∈ name, c ≤ 32 ∨ c = 127 ∨ c = 0x2F then fail .malformedData
    let minutes ← parseOffset offset
    if ∃ spec ∈ dst, ¬ validateDstSpec spec then fail .malformedData
    else return ⟨name, -minutes * 60, dst ≠ []⟩

/-- `parse_vxworks_timezone`. -/
def parseTimezone (text : List UInt8) : Result TimezoneInfo :=
  if text = [] ∨ 0 ∈ text then fail .malformedData
  else if text = ascii "UTC" ∨ text = ascii "GMT" then .ok ⟨text, 0, false⟩
  else match text.splitOn 0x3A with
    | [name, _, offset] => timezoneOfTokens name offset []
    | [name, _, offset, first, last] => timezoneOfTokens name offset [first, last]
    | _ => fail .malformedData

end Specification

section Difference

/-- `std::tm`, as far as it is read. -/
structure Tm where
  tmYear : ℤ
  tmYday : ℤ
  tmHour : ℤ
  tmMin : ℤ
  tmSec : ℤ
  deriving DecidableEq, Repr

/-- What an operation in `int` gives. -/
def int32 (n : ℤ) : Result ℤ :=
  if -2 ^ 31 ≤ n ∧ n ≤ 2 ^ 31 - 1 then .ok n else .error .signedOverflow

/-- The days of a year that is given as in a broken-down time. -/
def daysInTmYear (tmYear : ℤ) : Result ℤ := do
  let year ← int32 (tmYear + 1900)
  return if (year.tmod 4 = 0 ∧ year.tmod 100 ≠ 0) ∨ year.tmod 400 = 0 then 366 else 365

/-- `days` in `calculate_tm_difference`. -/
def calculateTmDays (here gm : Tm) : Result ℤ :=
  if here.tmYear = gm.tmYear then int32 (here.tmYday - gm.tmYday)
  else do
    let next ← int32 (gm.tmYear + 1)
    if here.tmYear = next then do
      let length ← daysInTmYear gm.tmYear
      let sum ← int32 (here.tmYday + length)
      int32 (sum - gm.tmYday)
    else do
      let previous ← int32 (gm.tmYear - 1)
      if here.tmYear = previous then do
        let length ← daysInTmYear here.tmYear
        let rest ← int32 (here.tmYday - length)
        int32 (rest - gm.tmYday)
      else fail .malformedData

/-- `calculate_tm_difference`. -/
def calculateTmDifference (here gm : Tm) : Result ℤ := do
  let days ← calculateTmDays here gm
  let hours ← int32 (here.tmHour - gm.tmHour)
  let minutes ← int32 (here.tmMin - gm.tmMin)
  let seconds ← int32 (here.tmSec - gm.tmSec)
  let diff := days * 86400 + hours * 3600 + minutes * 60 + seconds
  if diff ≤ -86400 ∨ diff ≥ 86400 then fail .malformedData else return diff

/-- `utc_offset_seconds`, given `TIMEZONE`, the clock and the broken-down times, or the error
numbers that there are instead; the two last arguments are error numbers of the system. -/
def utcOffsetSeconds (timezone : Option (List UInt8)) (now : ℤ)
    (localtimeR gmtimeR : ℤ → Except ℤ Tm) (eoverflow einval : ℤ) : Result ℤ := do
  let parsed ← match timezone with
    | none => .ok none
    | some text => if text = [] then .ok none else (parseTimezone text).map some
  if now = -1 then failErrno eoverflow
  else match localtimeR now with
    | .error errno => failErrno errno
    | .ok here =>
      match gmtimeR now with
      | .ok gm =>
        match calculateTmDifference here gm with
        | .ok diff => .ok diff
        | .error (.fail e) =>
          match parsed with
          | none => .error (.fail e)
          | some info => if info.hasDst then .error (.fail e) else .ok info.offsetSeconds
        | .error undefined => .error undefined
      | .error errno =>
        match parsed with
        | none => failErrno (if errno ≠ 0 then errno else einval)
        | some info => if info.hasDst then fail .notSupported else .ok info.offsetSeconds

end Difference

section CivilTime
variable {n y : ℤ} {c c' : Civil}

/-- What `localtime_r` and `gmtime_r` make of a civil time. -/
def Tm.ofCivil (c : Civil) : Tm := ⟨c.year - 1900, c.dayOfYear, c.hour, c.minute, c.second⟩

/-- The year has a number in the broken-down time. -/
def FitsTm (y : ℤ) : Prop := -2 ^ 31 ≤ y - 1900 ∧ y - 1900 ≤ 2 ^ 31 - 1

instance : DecidablePred FitsTm := fun y =>
  inferInstanceAs (Decidable (-2 ^ 31 ≤ y - 1900 ∧ y - 1900 ≤ 2 ^ 31 - 1))

/-- No length of a year is asked for, or the year has a number in `int`. -/
def Comparable (y y' : ℤ) : Prop := y = y' ∨ min y y' ≤ 2 ^ 31 - 1

instance (y y' : ℤ) : Decidable (Comparable y y') :=
  inferInstanceAs (Decidable (y = y' ∨ min y y' ≤ 2 ^ 31 - 1))

theorem int32_of_fits (hmin : -2 ^ 31 ≤ n) (hmax : n ≤ 2 ^ 31 - 1) : int32 n = .ok n :=
  if_pos ⟨hmin, hmax⟩

theorem int32_of_lt (h : 2 ^ 31 - 1 < n) : int32 n = .error .signedOverflow :=
  if_neg fun hfits => by omega

/-- The remainders of the source, which follow the sign of the year, decide divisibility. -/
theorem isLeap_iff_tmod (y : ℤ) :
    (y.tmod 4 = 0 ∧ y.tmod 100 ≠ 0) ∨ y.tmod 400 = 0 ↔ IsLeap y := by
  rw [IsLeap, Int.dvd_iff_tmod_eq_zero, Int.dvd_iff_tmod_eq_zero, Int.dvd_iff_tmod_eq_zero]

theorem daysInTmYear_of_le (hfits : FitsTm y) (h : y ≤ 2 ^ 31 - 1) :
    daysInTmYear (y - 1900) = .ok (yearLength y) := by
  have hmin := hfits.1
  rw [daysInTmYear, Int.sub_add_cancel, int32_of_fits (by omega) h, ok_bind]
  simp only [isLeap_iff_tmod]
  rfl

theorem daysInTmYear_of_lt (h : 2 ^ 31 - 1 < y) :
    daysInTmYear (y - 1900) = .error .signedOverflow := by
  rw [daysInTmYear, Int.sub_add_cancel, int32_of_lt h, error_bind]

theorem calculateTmDays_same (hyear : c'.year = c.year) :
    calculateTmDays (.ofCivil c') (.ofCivil c) = .ok (c'.day - c.day) := by
  have hday := c.dayOfYear_nonneg
  have hday' := c'.dayOfYear_nonneg
  have hmost := c.dayOfYear_le
  have hmost' := c'.dayOfYear_le
  have hdiff : c'.dayOfYear - c.dayOfYear = c'.day - c.day := by
    rw [Civil.day, Civil.day, hyear]
    omega
  rw [calculateTmDays, Tm.ofCivil, Tm.ofCivil]
  dsimp only
  rw [if_pos (by omega), int32_of_fits (by omega) (by omega), hdiff]

/-- The local year is the next one: the universal year has to be filled up. -/
theorem calculateTmDays_next (hfits : FitsTm c.year) (hfits' : FitsTm c'.year)
    (hyear : c'.year = c.year + 1) :
    calculateTmDays (.ofCivil c') (.ofCivil c) =
      if c.year ≤ 2 ^ 31 - 1 then .ok (c'.day - c.day) else .error .signedOverflow := by
  have hday := c.dayOfYear_nonneg
  have hday' := c'.dayOfYear_nonneg
  have hmost := c.dayOfYear_le
  have hmost' := c'.dayOfYear_le
  have hlength := yearLength_le c.year
  have hpos := yearLength_pos c.year
  have hmin := hfits.1
  have hmax' := hfits'.2
  have hdiff : c'.dayOfYear + yearLength c.year - c.dayOfYear = c'.day - c.day := by
    rw [Civil.day, Civil.day, hyear, yearStart_succ]
    omega
  rw [calculateTmDays, Tm.ofCivil, Tm.ofCivil]
  dsimp only
  rw [if_neg (by omega), int32_of_fits (by omega) (by omega), ok_bind, if_pos (by omega)]
  split_ifs with hle
  · rw [daysInTmYear_of_le hfits hle, ok_bind, int32_of_fits (by omega) (by omega), ok_bind,
      int32_of_fits (by omega) (by omega), hdiff]
  · rw [daysInTmYear_of_lt (by omega), error_bind]

/-- The local year is the previous one; already its successor may have no number in `int`. -/
theorem calculateTmDays_previous (hfits : FitsTm c.year) (hfits' : FitsTm c'.year)
    (hyear : c.year = c'.year + 1) :
    calculateTmDays (.ofCivil c') (.ofCivil c) =
      if c'.year ≤ 2 ^ 31 - 1 then .ok (c'.day - c.day) else .error .signedOverflow := by
  have hday := c.dayOfYear_nonneg
  have hday' := c'.dayOfYear_nonneg
  have hmost := c.dayOfYear_le
  have hmost' := c'.dayOfYear_le
  have hlength := yearLength_le c'.year
  have hpos := yearLength_pos c'.year
  have hmin := hfits.1
  have hmax := hfits.2
  have hmin' := hfits'.1
  have hdiff : c'.dayOfYear - yearLength c'.year - c.dayOfYear = c'.day - c.day := by
    rw [Civil.day, Civil.day, hyear, yearStart_succ]
    omega
  rw [calculateTmDays, Tm.ofCivil, Tm.ofCivil]
  dsimp only
  rw [if_neg (by omega)]
  by_cases hnext : c.year - 1900 + 1 ≤ 2 ^ 31 - 1
  · rw [int32_of_fits (by omega) hnext, ok_bind, if_neg (by omega),
      int32_of_fits (by omega) (by omega), ok_bind, if_pos (by omega)]
    split_ifs with hle
    · rw [daysInTmYear_of_le hfits' hle, ok_bind, int32_of_fits (by omega) (by omega), ok_bind,
        int32_of_fits (by omega) (by omega), hdiff]
    · rw [daysInTmYear_of_lt (by omega), error_bind]
  · rw [int32_of_lt (by omega), error_bind, if_neg (by omega)]

/-- Over a day, the corrected difference of the days of the years is that of the days. -/
theorem calculateTmDays_ofCivil (hfits : FitsTm c.year) (hfits' : FitsTm c'.year)
    (hahead : c'.year ≤ c.year + 1) (hback : c.year ≤ c'.year + 1) :
    calculateTmDays (.ofCivil c') (.ofCivil c) =
      if Comparable c'.year c.year then .ok (c'.day - c.day) else .error .signedOverflow := by
  have hcases : c'.year = c.year ∨ c'.year = c.year + 1 ∨ c.year = c'.year + 1 := by omega
  rcases hcases with hyear | hyear | hyear
  · rw [calculateTmDays_same hyear, if_pos (.inl hyear)]
  · have hiff : Comparable c'.year c.year ↔ c.year ≤ 2 ^ 31 - 1 := by
      rw [Comparable]
      omega
    rw [calculateTmDays_next hfits hfits' hyear, ite_cond_congr (propext hiff)]
  · have hiff : Comparable c'.year c.year ↔ c'.year ≤ 2 ^ 31 - 1 := by
      rw [Comparable]
      omega
    rw [calculateTmDays_previous hfits hfits' hyear, ite_cond_congr (propext hiff)]

/-- The difference of civil times is that of their instants, as far as it is taken in `int`. -/
theorem calculateTmDifference_ofCivil (hfits : FitsTm c.year) (hfits' : FitsTm c'.year)
    (h : |c'.instant - c.instant| < 86400) :
    calculateTmDifference (.ofCivil c') (.ofCivil c) =
      if Comparable c'.year c.year then .ok (c'.instant - c.instant)
      else .error .signedOverflow := by
  obtain ⟨hback, hahead⟩ := abs_lt.mp h
  have hhour := c.hour_nonneg
  have hhour' := c'.hour_nonneg
  have hminute := c.minute_nonneg
  have hminute' := c'.minute_nonneg
  have hsecond := c.second_nonneg
  have hsecond' := c'.second_nonneg
  have hhourLt := c.hour_lt
  have hhourLt' := c'.hour_lt
  have hminuteLt := c.minute_lt
  have hminuteLt' := c'.minute_lt
  have hsecondLt := c.second_lt
  have hsecondLt' := c'.second_lt
  have hdiff : (c'.day - c.day) * 86400 + (c'.hour - c.hour) * 3600 +
      (c'.minute - c.minute) * 60 + (c'.second - c.second) = c'.instant - c.instant := by
    rw [Civil.instant, Civil.instant, Civil.secondOfDay, Civil.secondOfDay]
    omega
  rw [calculateTmDifference, calculateTmDays_ofCivil hfits hfits'
    (Civil.year_le (by omega)) (Civil.year_le (by omega))]
  split_ifs with hcomparable
  · rw [ok_bind]
    simp only [Tm.ofCivil]
    rw [int32_of_fits (by omega) (by omega), ok_bind, int32_of_fits (by omega) (by omega), ok_bind,
      int32_of_fits (by omega) (by omega), ok_bind, hdiff, if_neg (by omega)]
    rfl
  · rw [error_bind]

end CivilTime

section Instants
variable {t o : ℤ}

theorem calculateTmDifference_civil (ho : |o| < 86400)
    (hlocal : FitsTm (civil (t + o)).year) (hgm : FitsTm (civil t).year) :
    calculateTmDifference (.ofCivil (civil (t + o))) (.ofCivil (civil t)) =
      if Comparable (civil (t + o)).year (civil t).year then .ok o
      else .error .signedOverflow := by
  have hdiff : (civil (t + o)).instant - (civil t).instant = o := by
    rw [Civil.instant_civil, Civil.instant_civil]
    omega
  rw [calculateTmDifference_ofCivil hgm hlocal (by rwa [hdiff]), hdiff]

/-- The broken-down times of an instant and of the offset behind it give back the offset, unless
the length of a year is asked for that has no number in `int`. -/
theorem calculateTmDifference_civil_iff (ho : |o| < 86400)
    (hlocal : FitsTm (civil (t + o)).year) (hgm : FitsTm (civil t).year) :
    calculateTmDifference (.ofCivil (civil (t + o))) (.ofCivil (civil t)) = .ok o ↔
      Comparable (civil (t + o)).year (civil t).year := by
  rw [calculateTmDifference_civil ho hlocal hgm]
  split_ifs with h
  · exact iff_of_true rfl h
  · refine iff_of_false ?_ h
    rintro ⟨⟩

/-- New Year's Eve of 1999 in New York, when it is the leap year 2000 in Greenwich. -/
theorem calculateTmDifference_new_york :
    calculateTmDifference (.ofCivil (civil (946684800 + -18000))) (.ofCivil (civil 946684800)) =
      .ok (-18000) :=
  (calculateTmDifference_civil_iff (by decide) (by decide) (by decide)).mpr (by decide)

/-- Both years fit, but the one that ends has the number 2 ^ 31. -/
theorem calculateTmDifference_late_new_year :
    FitsTm (civil (67767976265155200 + -3600)).year ∧ FitsTm (civil 67767976265155200).year ∧
      calculateTmDifference (.ofCivil (civil (67767976265155200 + -3600)))
        (.ofCivil (civil 67767976265155200)) = .error .signedOverflow ∧
      calculateTmDifference (.ofCivil (civil (67767976265155200 + -3600)))
        (.ofCivil (civil 67767976265155200)) ≠ .ok (-3600) := by
  decide

/-- Where the system's clock follows the calendar, the query gives the offset of the zone,
whatever `TIMEZONE` says that can be read. -/
theorem utcOffsetSeconds_civil {timezone : Option (List UInt8)} (eoverflow einval : ℤ)
    (hparsed : ∀ text, timezone = some text → text ≠ [] → ∃ info, parseTimezone text = .ok info)
    (ht : t ≠ -1) (ho : |o| < 86400) (hlocal : FitsTm (civil (t + o)).year)
    (hgm : FitsTm (civil t).year) (h : Comparable (civil (t + o)).year (civil t).year) :
    utcOffsetSeconds timezone t (fun t => .ok (.ofCivil (civil (t + o))))
      (fun t => .ok (.ofCivil (civil t))) eoverflow einval = .ok o := by
  have hdiff := calculateTmDifference_civil ho hlocal hgm
  rw [if_pos h] at hdiff
  unfold utcOffsetSeconds
  cases timezone with
  | none => simp only [ok_bind, if_neg ht, hdiff]
  | some text =>
    by_cases htext : text = []
    · simp only [htext, if_true, ok_bind, if_neg ht, hdiff]
    · obtain ⟨info, hinfo⟩ := hparsed text rfl htext
      simp only [htext, if_false, hinfo, Except.map, ok_bind, if_neg ht, hdiff]

end Instants
end Syscape.Locale.Vxworks
