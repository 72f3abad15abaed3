import Syscape.Error
import Syscape.Lib.Durations
import Syscape.Lib.FromChars
import Syscape.Lib.Lines
import Syscape.Lib.Text

/-!
# Clocks of the system

The time since the boot from `clock_gettime`, in milliseconds, and the time of the boot from
`/proc/stat`, in nanoseconds since the epoch. Each is guarded by the largest number of seconds
that the unit of the result has.
-/
namespace Syscape.Os
open Checked Durations FromChars Lines Text

/-- `struct timespec`. -/
structure Timespec where
  tvSec : ℤ
  tvNsec : ℤ
  deriving DecidableEq, Repr

/-- `maximum_seconds`: the seconds of the longest duration in milliseconds. -/
def maximumSeconds : ℤ := toCoarser 1000 maximum

/-- `uptime`, given the error number or the value of `clock_gettime`. -/
def uptime (clock : Except ℤ Timespec) : Result ℤ :=
  match clock with
  | .error errno => failErrno errno
  | .ok value =>
    if value.tvSec < 0 ∨ value.tvNsec < 0 ∨ value.tvNsec ≥ 1000000000 then fail .malformedData
    else if value.tvSec > maximumSeconds then fail .valueTooLarge
    else do
      let sum ← addFiner 1000000000 value.tvSec value.tvNsec
      return toCoarser 1000000 sum

/-- Whether a line gives the time of the boot. -/
def isBootLine (line : List UInt8) : Bool := line.length > 6 ∧ line.take 6 = ascii "btime "

/-- What `boot_time` makes of the text behind the title of the line. -/
def parseBootTime (text : List UInt8) : Result ℤ :=
  let parsed := fromCharsSigned 10 64 text
  match parsed.value with
  | none => fail .malformedData
  | some secondsSinceEpoch =>
    if parsed.read ≠ text.length ∨ secondsSinceEpoch < 0 then fail .malformedData
    else if secondsSinceEpoch > toCoarser 1000000000 maximum then fail .valueTooLarge
    else toFiner 1000000000 secondsSinceEpoch

/-- The loop of `boot_time` over the lines. -/
def bootTimeFrom : List (List UInt8) → Result ℤ
  | [] => fail .notFound
  | line :: more => if isBootLine line then parseBootTime (line.drop 6) else bootTimeFrom more

/-- `boot_time`, given what reading `/proc/stat` gives. -/
def bootTime (statistics : Result (List UInt8)) : Result ℤ := do
  let statistics ← statistics
  bootTimeFrom (lines 0x0A statistics)

/-- A conversion gives the exact value or is refused, so that nothing overflows in it. -/
def Converts (r : Result ℤ) (exact : ℤ) : Prop := r = .ok exact ∨ r = fail .valueTooLarge

section Uptime
variable {value : Timespec}

/-- The guard against malformed values lets the value pass. -/
def Timespec.Admitted (value : Timespec) : Prop :=
  0 ≤ value.tvSec ∧ 0 ≤ value.tvNsec ∧ value.tvNsec < 1000000000

/-- The nanoseconds of a value. -/
def Timespec.nanoseconds (value : Timespec) : ℤ := value.tvSec * 1000000000 + value.tvNsec

/-- Its milliseconds, truncated. -/
def Timespec.milliseconds (value : Timespec) : ℤ := value.nanoseconds / 1000000

/-- The value is refused, or its nanoseconds have 64 bits. -/
def Timespec.Manageable (value : Timespec) : Prop :=
  value.nanoseconds ≤ maximum ∨ maximumSeconds < value.tvSec

theorem uptime_of_refused (h : value.Admitted) (hlarge : maximumSeconds < value.tvSec) :
    uptime (.ok value) = fail .valueTooLarge := by
  obtain ⟨hsec, hnsec, hless⟩ := h
  rw [uptime]
  rw [if_neg (by omega), if_pos hlarge]

theorem uptime_of_le (h : value.Admitted) (hsec : ¬ maximumSeconds < value.tvSec) :
    uptime (.ok value) = addFiner 1000000000 value.tvSec value.tvNsec >>= fun sum =>
      .ok (toCoarser 1000000 sum) := by
  obtain ⟨hpos, hnsec, hless⟩ := h
  rw [uptime]
  rw [if_neg (by omega), if_neg hsec]
  rfl

/-- The time since the boot is converted exactly where its nanoseconds have 64 bits. -/
theorem uptime_converts_iff (h : value.Admitted) :
    Converts (uptime (.ok value)) value.milliseconds ↔ value.Manageable := by
  by_cases hlarge : maximumSeconds < value.tvSec
  · rw [uptime_of_refused h hlarge]
    exact iff_of_true (.inr rfl) (.inr hlarge)
  obtain ⟨hsec, hnsec, hless⟩ := h
  rw [uptime_of_le ⟨hsec, hnsec, hless⟩ hlarge]
  by_cases hfits : Fits value.nanoseconds
  · have hproduct : Fits (value.tvSec * 1000000000) :=
      fits_of_fits_add hsec (by decide) hnsec hfits
    have hpos : 0 ≤ value.tvSec * 1000000000 + value.tvNsec := by omega
    rw [addFiner_of_fits hproduct hfits, ok_bind, toCoarser, Int.tdiv_eq_ediv_of_nonneg hpos]
    exact iff_of_true (.inl rfl) (.inl hfits.2)
  · rw [addFiner_of_not_fits fun _ => hfits, error_bind]
    refine iff_of_false ?_ ?_
    · rintro (h | h) <;> cases h
    · rintro (h | h)
      · rw [Timespec.nanoseconds] at h hfits
        exact hfits ⟨by omega, h⟩
      · exact hlarge h

end Uptime

section BootTime
variable {text digits : List UInt8} {n : ℕ}

/-- The first line that gives the time of the boot ends in this text. -/
def BootText (text digits : List UInt8) : Prop :=
  ∃ line, (lines 0x0A text).find? isBootLine = some line ∧ line.drop 6 = digits

theorem bootTimeFrom_eq {all : List (List UInt8)} {line : List UInt8}
    (h : all.find? isBootLine = some line) : bootTimeFrom all = parseBootTime (line.drop 6) := by
  induction all with
  | nil => simp at h
  | cons first all ih =>
    rw [List.find?_cons] at h
    rw [bootTimeFrom]
    cases hfirst : isBootLine first with
    | true =>
      rw [hfirst] at h
      cases h
      exact if_pos rfl
    | false =>
      rw [hfirst] at h
      rw [if_neg (by simp)]
      exact ih h

theorem parseBootTime_numeral (h : Numeral 10 n text) :
    parseBootTime text =
      if n ≤ 2 ^ 63 - 1 then
        if (n : ℤ) > toCoarser 1000000000 maximum then fail .valueTooLarge
        else .ok ((n : ℤ) * 1000000000)
      else fail .malformedData := by
  rw [parseBootTime, h.fromCharsSigned (by decide)]
  by_cases hmax : n ≤ 2 ^ 63 - 1
  · simp only [if_pos hmax]
    rw [if_neg (by omega)]
    by_cases hlarge : (n : ℤ) > toCoarser 1000000000 maximum
    · rw [if_pos hlarge, if_pos hlarge]
    · have hfits : Fits ((n : ℤ) * 1000000000) :=
        (fits_mul_iff (by decide) (Int.natCast_nonneg n)).mpr (not_lt.mp hlarge)
      rw [if_neg hlarge, if_neg hlarge, toFiner, int64_of_fits hfits]
  · simp only [if_neg hmax]

/-- The time of the boot is converted exactly where its seconds have 64 bits. -/
theorem bootTime_converts_iff (htext : BootText text digits) (h : Numeral 10 n digits) :
    Converts (bootTime (.ok text)) (n * 1000000000) ↔ n ≤ 2 ^ 63 - 1 := by
  obtain ⟨line, hline, rfl⟩ := htext
  rw [bootTime, ok_bind, bootTimeFrom_eq hline, parseBootTime_numeral h]
  by_cases hmax : n ≤ 2 ^ 63 - 1
  · rw [if_pos hmax]
    refine iff_of_true ?_ hmax
    by_cases hlarge : (n : ℤ) > toCoarser 1000000000 maximum
    · exact .inr (if_pos hlarge)
    · exact .inl (if_neg hlarge)
  · rw [if_neg hmax]
    refine iff_of_false ?_ hmax
    rintro (h | h) <;> cases h

end BootTime

end Syscape.Os
