import Syscape.SystemClocks
import Syscape.UserSessions

/-!
# Conversions of clock values

Three queries turn seconds and a fraction into a duration. The guards look at the unit of the
result, or only at the sign, while the sum is formed in the finer unit of the two: between the
largest value of the one and of the other an intermediate number overflows.
-/
namespace Syscape.Os
open Checked Durations FromChars StdSort User Text Utf8

/-- The conversions are exact, or refused, exactly where the finest numbers have 64 bits. -/
theorem clock_conversions_exact_iff (sorter : Sorter sessionLess) :
    (∀ value : Timespec, value.Admitted →
      (Converts (uptime (.ok value)) value.milliseconds ↔ value.Manageable)) ∧
    (∀ (text digits : List UInt8) (n : ℕ), BootText text digits → Numeral 10 n digits →
      (Converts (bootTime (.ok text)) (n * 1000000000) ↔ n ≤ 2 ^ 63 - 1)) ∧
    ∀ entries : List Utmpx, (∀ entry ∈ entries, entry.Counted → entry.Legible) →
      (ReturnsExact sorter entries ↔
        ∀ entry ∈ entries, entry.Counted → entry.utTv.Representable) :=
  ⟨fun _ => uptime_converts_iff, fun _ _ _ => bootTime_converts_iff,
    fun _ => returnsExact_iff sorter⟩

/-- A login on a terminal at a time. -/
def loginAt (time : Timeval) : Utmpx where
  utType := userProcess
  utUser := ascii "ada"
  utLine := ascii "tty1"
  utId := []
  utPid := 700
  utHost := []
  utTv := time

/-- The three texts of it are ASCII. -/
theorem legible_loginAt (time : Timeval) : (loginAt time).Legible := by
  have hascii : ∀ text ∈ [ascii "ada", ascii "tty1", []], ValidUtf8 (fixedArrayToString text) := by
    intro text htext
    apply validUtf8_ascii
    simp only [List.mem_cons, List.not_mem_nil, or_false] at htext
    rcases htext with rfl | rfl | rfl <;> exact forall_of_all (by decide)
  exact ⟨hascii (ascii "ada") (by simp), hascii (ascii "tty1") (by simp), hascii [] (by simp),
    hascii [] (by simp)⟩

theorem legible_login (time : Timeval) :
    ∀ entry ∈ [loginAt time], entry.Counted → entry.Legible := by
  intro entry hentry _
  rw [List.mem_singleton.mp hentry]
  exact legible_loginAt time

/-- The statistics with one line that gives the time of the boot. -/
def statistics (digits : String) : List UInt8 :=
  ascii "cpu  1 2 3\nbtime " ++ ascii digits ++ ascii "\nprocesses 4\n"

/-- Values of the present. -/
theorem present_clock_values_converted :
    Converts (uptime (.ok ⟨86400, 123456789⟩)) 86400123 ∧
      Converts (bootTime (.ok (statistics "1700000000"))) 1700000000000000000 ∧
      ReturnsExact (Sorter.merge strictWeak_sessionLess) [loginAt ⟨1700000000, 250000⟩] := by
  obtain ⟨huptime, hboot, hlogin⟩ :=
    clock_conversions_exact_iff (Sorter.merge strictWeak_sessionLess)
  have htext : BootText (statistics "1700000000") (ascii "1700000000") :=
    ⟨ascii "btime 1700000000", by decide +kernel, by decide⟩
  have hdigits : Numeral 10 1700000000 (ascii "1700000000") :=
    ⟨by decide, forall_of_all (by decide), by decide⟩
  refine ⟨(huptime ⟨86400, 123456789⟩ ⟨by decide, by decide, by decide⟩).mpr (.inl (by decide)),
    (hboot _ _ _ htext hdigits).mpr (by decide),
    (hlogin _ (legible_login ⟨1700000000, 250000⟩)).mpr ?_⟩
  intro entry hentry _
  rw [List.mem_singleton.mp hentry]
  decide

/-- The guards let these values pass, but their nanoseconds have more than 64 bits, and seconds
of more than 64 bits count as malformed. -/
theorem late_clock_values_not_converted :
    ¬ Converts (uptime (.ok ⟨9223372037, 0⟩)) 9223372037000 ∧
      ¬ Converts (bootTime (.ok (statistics "9223372036854775808"))) 9223372036854775808000000000 ∧
      ¬ ReturnsExact (Sorter.merge strictWeak_sessionLess) [loginAt ⟨9223372037, 0⟩] := by
  refine ⟨?_, ?_, ?_⟩
  · have huptime : uptime (.ok ⟨9223372037, 0⟩) = .error .signedOverflow := by decide
    rw [huptime]
    rintro (h | h) <;> cases h
  · have hboot : bootTime (.ok (statistics "9223372036854775808")) = fail .malformedData := by
      decide +kernel
    rw [hboot]
    rintro (h | h) <;> cases h
  · rw [returnsExact_iff _ (legible_login _)]
    intro htimes
    exact absurd (htimes _ List.mem_cons_self ⟨rfl, by decide⟩) (by decide)

end Syscape.Os
