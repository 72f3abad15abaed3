import Mathlib

/-!
# The proleptic Gregorian calendar

Years and days are integers. Days are counted from the first of January 1970, instants are
seconds since the beginning of that day, and every day has 86400 of them.
-/
namespace Gregorian

section Years
variable {y d d' : ℤ}

/-- The rule of 4, 100 and 400. -/
def IsLeap (y : ℤ) : Prop := (4 ∣ y ∧ ¬ 100 ∣ y) ∨ 400 ∣ y

instance : DecidablePred IsLeap := fun y =>
  inferInstanceAs (Decidable ((4 ∣ y ∧ ¬ 100 ∣ y) ∨ 400 ∣ y))

/-- The days of a year. -/
def yearLength (y : ℤ) : ℤ := if IsLeap y then 366 else 365

/-- The first day of a year. -/
def yearStart (y : ℤ) : ℤ :=
  365 * (y - 1970) + ((y - 1) / 4 - (y - 1) / 100 + (y - 1) / 400 - 477)

/-- The year of a day: the mean length of a year is off by one year at most. -/
def yearOf (d : ℤ) : ℤ :=
  let y := 1970 + d * 400 / 146097
  if d < yearStart y then y - 1 else if yearStart (y + 1) ≤ d then y + 1 else y

theorem yearStart_succ (y : ℤ) : yearStart (y + 1) = yearStart y + yearLength y := by
  unfold yearStart yearLength IsLeap
  split_ifs <;> omega

example : yearStart 1970 = 0 := by decide

theorem yearLength_pos (y : ℤ) : 0 < yearLength y := by
  rw [yearLength]
  split_ifs <;> decide

theorem yearLength_le (y : ℤ) : yearLength y ≤ 366 := by
  rw [yearLength]
  split_ifs <;> decide

theorem yearStart_strictMono : StrictMono yearStart := by
  refine strictMono_int_of_lt_succ fun y => ?_
  have hlength := yearLength_pos y
  rw [yearStart_succ]
  omega

/-- The mean year is right up to the neighbouring years. -/
theorem yearStart_mean (d : ℤ) :
    yearStart (1970 + d * 400 / 146097 - 1) ≤ d ∧
      d < yearStart (1970 + d * 400 / 146097 + 1 + 1) := by
  unfold yearStart
  constructor <;> omega

theorem yearStart_yearOf (d : ℤ) : yearStart (yearOf d) ≤ d ∧ d < yearStart (yearOf d + 1) := by
  obtain ⟨hback, hahead⟩ := yearStart_mean d
  unfold yearOf
  dsimp only
  split_ifs with hless hmore
  · refine ⟨hback, ?_⟩
    rwa [Int.sub_add_cancel]
  · exact ⟨hmore, hahead⟩
  · exact ⟨by omega, by omega⟩

/-- The day within its year, from zero. -/
def dayOfYear (d : ℤ) : ℤ := d - yearStart (yearOf d)

theorem dayOfYear_nonneg (d : ℤ) : 0 ≤ dayOfYear d := by
  have h := (yearStart_yearOf d).1
  rw [dayOfYear]
  omega

theorem dayOfYear_lt (d : ℤ) : dayOfYear d < yearLength (yearOf d) := by
  have h := (yearStart_yearOf d).2
  rw [yearStart_succ] at h
  rw [dayOfYear]
  omega

end Years

/-- What a clock and a calendar show. -/
structure Civil where
  year : ℤ
  dayOfYear : ℤ
  hour : ℤ
  minute : ℤ
  second : ℤ
  dayOfYear_nonneg : 0 ≤ dayOfYear
  dayOfYear_lt : dayOfYear < yearLength year
  hour_nonneg : 0 ≤ hour
  hour_lt : hour < 24
  minute_nonneg : 0 ≤ minute
  minute_lt : minute < 60
  second_nonneg : 0 ≤ second
  second_lt : second < 60

/-- What they show at an instant. -/
def civil (t : ℤ) : Civil where
  year := yearOf (t / 86400)
  dayOfYear := dayOfYear (t / 86400)
  hour := t % 86400 / 3600
  minute := t % 3600 / 60
  second := t % 60
  dayOfYear_nonneg := dayOfYear_nonneg _
  dayOfYear_lt := dayOfYear_lt _
  hour_nonneg := by omega
  hour_lt := by omega
  minute_nonneg := by omega
  minute_lt := by omega
  second_nonneg := by omega
  second_lt := by omega

namespace Civil
variable (c c' : Civil)

/-- The number of the day. -/
def day : ℤ := yearStart c.year + c.dayOfYear

/-- The seconds since midnight. -/
def secondOfDay : ℤ := c.hour * 3600 + c.minute * 60 + c.second

/-- The instant at which the clock and the calendar show this. -/
def instant : ℤ := c.day * 86400 + c.secondOfDay

theorem dayOfYear_le : c.dayOfYear ≤ 365 := by
  have h := c.dayOfYear_lt
  have hlength := yearLength_le c.year
  omega

theorem secondOfDay_nonneg : 0 ≤ c.secondOfDay := by
  have hhour := c.hour_nonneg
  have hminute := c.minute_nonneg
  have hsecond := c.second_nonneg
  rw [secondOfDay]
  omega

theorem secondOfDay_lt : c.secondOfDay < 86400 := by
  have hhour := c.hour_lt
  have hminute := c.minute_lt
  have hsecond := c.second_lt
  rw [secondOfDay]
  omega

theorem instant_civil (t : ℤ) : (civil t).instant = t := by
  have hday : (civil t).day = t / 86400 := by
    simp only [day, civil, Gregorian.dayOfYear]
    omega
  have hsecond : (civil t).secondOfDay = t % 86400 := by
    simp only [secondOfDay, civil]
    omega
  rw [instant, hday, hsecond]
  omega

theorem yearStart_le_day : yearStart c.year ≤ c.day := by
  have h := c.dayOfYear_nonneg
  rw [day]
  omega

theorem day_lt : c.day < yearStart (c.year + 1) := by
  have h := c.dayOfYear_lt
  rw [day, yearStart_succ]
  omega

variable {c c'}

/-- Instants less than a day apart are in one year or in neighbouring ones. -/
theorem year_le (h : c'.instant < c.instant + 86400) : c'.year ≤ c.year + 1 := by
  by_contra! hyear
  have hfirst := c'.yearStart_le_day
  have hlast := c.day_lt
  have hmono := yearStart_strictMono.monotone (show c.year + 1 + 1 ≤ c'.year by omega)
  have hnext := yearStart_strictMono (show c.year + 1 < c.year + 1 + 1 by omega)
  have hsecond := c'.secondOfDay_nonneg
  have hsecond' := c.secondOfDay_lt
  rw [instant, instant] at h
  omega

end Civil
end Gregorian
