import Syscape.Numbers
import Syscape.Lib.Paths
import Syscape.Lib.Text

/-!
# Process metrics

The conversions that the process queries share: clock ticks, resident pages and the
start time. The parsers of `/proc/<pid>/stat` find the name of the process all in the same
way.
-/
namespace Syscape.ProcessMetrics
open Checked Numbers Paths

/-- `INT64_MAX`, the largest count of `std::chrono::nanoseconds`. -/
def maximumNanoseconds : ℕ := 2 ^ 63 - 1

/-- `ticks_to_nanoseconds`. -/
def ticksToNanoseconds (ticks : ℕ) (ticksPerSecond : ℤ) : Result ℕ :=
  if ticksPerSecond ≤ 0 ∨ ticksPerSecond.toNat > uint64Max / 1000000000 then fail .notSupported
  else
    let rate := ticksPerSecond.toNat
    let wholeSeconds := ticks / rate
    if wholeSeconds > maximumNanoseconds / 1000000000 then fail .valueTooLarge
    else
      let remainderTicks := ticks % rate
      let remainderNanoseconds := remainderTicks * 1000000000 % 2 ^ 64 / rate
      let wholeNanoseconds := wholeSeconds * 1000000000 % 2 ^ 64
      if wholeNanoseconds > maximumNanoseconds - remainderNanoseconds then fail .valueTooLarge
      else .ok (wholeNanoseconds + remainderNanoseconds)

/-- `scale_resident_bytes`. -/
def scaleResidentBytes (pages pageSize : ℕ) : Result ℕ :=
  if pageSize = 0 then fail .malformedData
  else if pages > uint64Max / pageSize then fail .valueTooLarge
  else .ok (pages * pageSize)

/-- `compose_start_time`; the system clock counts nanoseconds. -/
def composeStartTime (bootTime : ℤ) (age : ℕ) : Result ℤ :=
  if bootTime > maximumNanoseconds - age then fail .valueTooLarge
  else .ok (bootTime + age)

section Exactness

/-- What is left of the seconds is less than one. -/
theorem remainder_lt {rate : ℕ} (hpos : 0 < rate) (ticks : ℕ) :
    ticks % rate * 1000000000 / rate < 1000000000 := by
  rw [Nat.div_lt_iff_lt_mul hpos, Nat.mul_comm]
  exact Nat.mul_lt_mul_of_pos_left (Nat.mod_lt _ hpos) (by decide)

/-- The products of the conversion have at most 64 bits, and so has their sum. -/
theorem ticksToNanoseconds_no_wrap {rate : ℕ} (hpos : 0 < rate)
    (hrate : rate ≤ uint64Max / 1000000000) (ticks : ℕ) :
    ticks % rate * 1000000000 < 2 ^ 64 ∧
      (ticks / rate ≤ maximumNanoseconds / 1000000000 →
        ticks / rate * 1000000000 < 2 ^ 64 ∧
        ticks / rate * 1000000000 + ticks % rate * 1000000000 / rate < 2 ^ 64) := by
  have hmod : ticks % rate < rate := Nat.mod_lt _ hpos
  have hremainder : ticks % rate * 1000000000 < 2 ^ 64 := by
    unfold uint64Max at hrate
    omega
  have hsmall := remainder_lt hpos ticks
  refine ⟨hremainder, ?_⟩
  intro hseconds
  have hproduct := Nat.mul_le_mul_right 1000000000 hseconds
  have hmax : maximumNanoseconds / 1000000000 * 1000000000 = 9223372036000000000 := rfl
  omega

/-- Neither of the products of the conversion wraps, so it gives the exact number of
nanoseconds or refuses. -/
theorem ticksToNanoseconds_eq {rate : ℕ} (hpos : 0 < rate)
    (hrate : rate ≤ uint64Max / 1000000000) (ticks : ℕ) :
    ticksToNanoseconds ticks rate =
      if ticks * 1000000000 / rate ≤ maximumNanoseconds then .ok (ticks * 1000000000 / rate)
      else fail .valueTooLarge := by
  obtain ⟨hremainder, hproduct⟩ := ticksToNanoseconds_no_wrap hpos hrate ticks
  have hsmall := remainder_lt hpos ticks
  have hexact : ticks * 1000000000 / rate =
      ticks / rate * 1000000000 + ticks % rate * 1000000000 / rate := by
    conv_lhs => rw [← Nat.div_add_mod ticks rate]
    rw [Nat.add_mul, Nat.mul_assoc, Nat.mul_add_div hpos]
  unfold ticksToNanoseconds
  rw [if_neg (by simp; omega), Int.toNat_natCast]
  simp only [Nat.mod_eq_of_lt hremainder, hexact]
  have hmax : maximumNanoseconds = 9223372036854775807 := rfl
  have hquotient : maximumNanoseconds / 1000000000 = 9223372036 := rfl
  generalize ticks % rate * 1000000000 / rate = remainder at hsmall hproduct ⊢
  generalize ticks / rate = seconds at hproduct ⊢
  by_cases hseconds : seconds > maximumNanoseconds / 1000000000
  · rw [if_pos hseconds, if_neg (by omega)]
  · rw [if_neg hseconds, Nat.mod_eq_of_lt (hproduct (not_lt.mp hseconds)).1]
    by_cases hfits : seconds * 1000000000 + remainder ≤ maximumNanoseconds
    · rw [if_neg (by omega), if_pos hfits]
    · rw [if_pos (by omega), if_neg hfits]

/-- Pages are converted exactly, unless the number of bytes has more than 64 bits. -/
theorem scaleResidentBytes_eq {pageSize : ℕ} (hpos : 0 < pageSize) (pages : ℕ) :
    scaleResidentBytes pages pageSize =
      if pages * pageSize < 2 ^ 64 then .ok (pages * pageSize) else fail .valueTooLarge := by
  have hiff : pages > uint64Max / pageSize ↔ ¬ pages * pageSize < 2 ^ 64 := by
    unfold uint64Max
    rw [gt_iff_lt, Nat.div_lt_iff_lt_mul hpos]
    omega
  rw [scaleResidentBytes, if_neg hpos.ne']
  by_cases hfits : pages * pageSize < 2 ^ 64
  · rw [if_neg (by simpa [hiff] using hfits), if_pos hfits]
  · rw [if_pos (hiff.mpr hfits), if_neg hfits]

/-- The start of a process so many ticks behind the boot. -/
def startTime (bootTime : ℤ) (ticks rate : ℕ) : Result ℤ := do
  let age ← ticksToNanoseconds ticks rate
  composeStartTime bootTime age

/-- The start is the exact sum, or refused if the age or the sum does not fit. -/
theorem startTime_eq {rate : ℕ} (hpos : 0 < rate) (hrate : rate ≤ uint64Max / 1000000000)
    (bootTime : ℤ) (ticks : ℕ) :
    startTime bootTime ticks rate =
      if ticks * 1000000000 / rate ≤ maximumNanoseconds ∧
          bootTime + (ticks * 1000000000 / rate : ℕ) ≤ maximumNanoseconds then
        .ok (bootTime + (ticks * 1000000000 / rate : ℕ))
      else fail .valueTooLarge := by
  rw [startTime, ticksToNanoseconds_eq hpos hrate]
  generalize ticks * 1000000000 / rate = age
  by_cases hage : age ≤ maximumNanoseconds
  · rw [if_pos hage, ok_bind, composeStartTime]
    by_cases hsum : bootTime + age ≤ maximumNanoseconds
    · rw [if_neg (by omega), if_pos ⟨hage, hsum⟩]
    · rw [if_pos (by omega), if_neg fun h => hsum h.2]
  · rw [if_neg hage, fail_bind, if_neg fun h => hage h.1]

/-- The conversion of ticks is exact at every rate that is supported and no product wraps;
so the start of a process is the exact sum or refused, and a process with fewer ticks has
not started later. -/
theorem ticks_to_nanoseconds {rate : ℕ} (hpos : 0 < rate)
    (hrate : rate ≤ uint64Max / 1000000000) :
    (∀ ticks, ticksToNanoseconds ticks rate =
      if ticks * 1000000000 / rate ≤ maximumNanoseconds then .ok (ticks * 1000000000 / rate)
      else fail .valueTooLarge) ∧
    (∀ ticks, ticks % rate * 1000000000 < 2 ^ 64 ∧
      (ticks / rate ≤ maximumNanoseconds / 1000000000 →
        ticks / rate * 1000000000 < 2 ^ 64 ∧
        ticks / rate * 1000000000 + ticks % rate * 1000000000 / rate < 2 ^ 64)) ∧
    (∀ bootTime ticks, startTime bootTime ticks rate = fail .valueTooLarge ∨
      startTime bootTime ticks rate = .ok (bootTime + (ticks * 1000000000 / rate : ℕ))) ∧
    ∀ bootTime fewer ticks start, fewer ≤ ticks → startTime bootTime ticks rate = .ok start →
      ∃ earlier, startTime bootTime fewer rate = .ok earlier ∧ earlier ≤ start := by
  refine ⟨ticksToNanoseconds_eq hpos hrate, ticksToNanoseconds_no_wrap hpos hrate, ?_, ?_⟩
  · intro bootTime ticks
    rw [startTime_eq hpos hrate]
    split_ifs
    · exact .inr rfl
    · exact .inl rfl
  · intro bootTime fewer ticks start hle hstart
    have hages : fewer * 1000000000 / rate ≤ ticks * 1000000000 / rate :=
      Nat.div_le_div_right (Nat.mul_le_mul_right _ hle)
    rw [startTime_eq hpos hrate] at hstart ⊢
    split_ifs at hstart with hfits
    · rw [Except.ok.injEq] at hstart
      rw [if_pos ⟨hages.trans hfits.1, by omega⟩]
      exact ⟨_, rfl, by omega⟩
    · exact absurd hstart (by simp)

/-- The largest age at a hundred ticks a second. -/
theorem ticks_to_nanoseconds_largest :
    ticksToNanoseconds 922337203685 100 = .ok 9223372036850000000 :=
  (@ticks_to_nanoseconds 100 (by decide) (by decide)).1 922337203685

end Exactness

section Name

/-- Where the name of a process begins and ends: at the first opening parenthesis and the
last closing one. -/
def nameBounds (input : List UInt8) : Option (ℕ × ℕ) :=
  match input.idxOf? 0x28, rfind 0x29 input with
  | some nameBegin, some nameEnd => if nameEnd < nameBegin then none else some (nameBegin, nameEnd)
  | _, _ => none

/-- The name with its parentheses is found between a text without opening parentheses and a
text without closing ones. -/
theorem nameBounds_stat {before behind : List UInt8} (name : List UInt8)
    (hbefore : 0x28 ∉ before) (hbehind : 0x29 ∉ behind) :
    nameBounds (before ++ 0x28 :: name ++ 0x29 :: behind) =
      some (before.length, before.length + 1 + name.length) := by
  have hidx : (before ++ 0x28 :: name ++ 0x29 :: behind).idxOf? 0x28 = some before.length := by
    rw [List.append_assoc, List.cons_append]
    exact idxOf?_append_cons hbefore _
  rw [nameBounds, hidx, rfind_append_name _ hbehind]
  simp [Nat.add_right_comm, Nat.add_assoc]

theorem drop_name (before name behind : List UInt8) :
    (before ++ 0x28 :: name ++ 0x29 :: behind).drop (before.length + 1 + name.length + 1) =
      behind := by
  have hsplit : before ++ 0x28 :: name ++ 0x29 :: behind =
      (before ++ 0x28 :: name ++ [0x29]) ++ behind := by simp
  rw [hsplit, List.drop_left']
  simp
  omega

theorem take_name (before name behind : List UInt8) :
    ((before ++ 0x28 :: name ++ 0x29 :: behind).drop (before.length + 1)).take name.length =
      name := by
  have hsplit : before ++ 0x28 :: name ++ 0x29 :: behind =
      (before ++ [0x28]) ++ (name ++ 0x29 :: behind) := by simp
  rw [hsplit, List.drop_left' (by simp), List.take_left]

/-- What stands behind the parentheses does not matter for the name. -/
theorem nameBounds_append (text : List UInt8) {more : List UInt8}
    (h : 0x28 ∉ more ∧ 0x29 ∉ more) : nameBounds (text ++ more) = nameBounds text := by
  rw [nameBounds, nameBounds, idxOf?_append_of_not_mem text h.1, rfind_append_of_not_mem text h.2]

theorem nameEnd_lt {text : List UInt8} {nameBegin nameEnd : ℕ}
    (h : nameBounds text = some (nameBegin, nameEnd)) : nameEnd < text.length := by
  unfold nameBounds at h
  split at h
  · next i j hi hj =>
    split_ifs at h
    cases h
    exact rfind_lt hj
  · cases h

end Name

end Syscape.ProcessMetrics
