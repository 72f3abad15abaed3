import Syscape.Process
import Syscape.ProcessList
import Syscape.Resource

/-!
# The records of `/proc/<pid>/stat`

Three modules read the record of a process. The name of the process stands in it without
any escape, so its end is the last closing parenthesis of the line. All three parsers
recover the fields that they report; that two of them agree on a text of another kind
needs fields that are separated by blanks and tabulators.
-/
namespace Syscape.StatLine
open Checked Text Digits Numerals ProcessMetrics Numbers Utf8 Process ProcessList Resource

section Record

/-- The record of a process with its fields in the ranges of the kernel. The fields that no
parser reads are given as lists. -/
structure StatRecord where
  pid : ℕ
  comm : List UInt8
  /-- field 3 -/
  state : UInt8
  ppid : ℕ
  /-- fields 5 to 13 -/
  unread : List ℤ
  utime : ℕ
  stime : ℕ
  cutime : ℤ
  cstime : ℤ
  priority : ℤ
  nice : ℤ
  numThreads : ℕ
  itrealvalue : ℤ
  starttime : ℕ
  vsize : ℕ
  rss : ℕ
  /-- fields 25 to 52 -/
  more : List ℤ
  state_letter : 0x41 ≤ state ∧ state ≤ 0x7A
  ppid_le : ppid ≤ uint32Max
  unread_length : unread.length = 9
  utime_le : utime ≤ uint64Max
  stime_le : stime ≤ uint64Max
  priority_range : -(2 ^ 31) ≤ priority ∧ priority ≤ 2 ^ 31 - 1
  numThreads_range : 1 ≤ numThreads ∧ numThreads ≤ uint32Max
  starttime_le : starttime ≤ uint64Max
  vsize_le : vsize ≤ uint64Max
  rss_le : rss ≤ uint64Max
  more_length : more.length = 28

variable (r : StatRecord)

/-- Fields 4 to 52. -/
def StatRecord.numbers : List ℤ :=
  (r.ppid : ℤ) :: r.unread ++
    [(r.utime : ℤ), r.stime, r.cutime, r.cstime, r.priority, r.nice, r.numThreads,
      r.itrealvalue, r.starttime, r.vsize, r.rss] ++ r.more

def StatRecord.fields : List (List UInt8) := [r.state] :: r.numbers.map signedDecimal

/-- The fields, each behind a blank. -/
def StatRecord.behindName : List UInt8 := r.fields.flatMap fun field => 0x20 :: field

/-- What the kernel writes, without the line end. -/
def StatRecord.line : List UInt8 :=
  decimal r.pid ++ [0x20] ++ 0x28 :: r.comm ++ 0x29 :: r.behindName

/-- What the kernel writes. -/
def StatRecord.text : List UInt8 := r.line ++ [0x0A]

/-- Nothing in a field is a blank, a line end or a closing parenthesis. -/
theorem mem_fields {field : List UInt8} (h : field ∈ r.fields) :
    field ≠ [] ∧ ∀ c ∈ field, 0x2D ≤ c.toNat := by
  rcases List.mem_cons.mp h with rfl | h
  · have hletter : 0x41 ≤ r.state.toNat := r.state_letter.1
    refine ⟨by simp, ?_⟩
    intro c hc
    rw [List.mem_singleton.mp hc]
    omega
  · obtain ⟨z, -, rfl⟩ := List.mem_map.mp h
    have hdigits : ∀ c ∈ decimal z.natAbs, 0x2D ≤ c.toNat := fun c hc =>
      (by decide : 0x2D ≤ 0x30).trans (mem_decimal hc).1
    unfold signedDecimal
    split_ifs
    · refine ⟨by simp, ?_⟩
      rw [List.forall_mem_cons]
      exact ⟨by decide, hdigits⟩
    · exact ⟨decimal_ne_nil _, hdigits⟩

/-- A separator of any of the parsers is no byte of a field. -/
theorem not_separator {c : UInt8} (h : 0x2D ≤ c.toNat) :
    statSeparator c = false ∧ isStatSeparator c = false ∧ separator c = false ∧
      isLineEnd c = false := by
  have hne : ∀ b : UInt8, b.toNat < 0x2D → (c == b) = false := by
    intro b hb
    rw [beq_eq_false_iff_ne]
    rintro rfl
    omega
  simp [statSeparator, isStatSeparator, separator, isLineEnd, hne]

/-- The tokens behind the name are the fields, for every set of blanks. -/
theorem splitBlank_behindName {blank : UInt8 → Bool} (hblank : blank 0x20 = true)
    (hfield : ∀ c : UInt8, 0x2D ≤ c.toNat → blank c = false) :
    splitBlank blank r.behindName = r.fields := by
  have hcolumns : r.behindName =
      (r.fields.map fun field => ([0x20], field)).flatMap fun p => p.1 ++ p.2 := by
    rw [List.flatMap_map]
    rfl
  rw [hcolumns, ← List.append_nil (List.flatMap _ _), splitBlank_columns]
  · rw [splitBlank_nil, List.append_nil, List.map_map]
    exact List.map_id _
  · intro p hp
    obtain ⟨field, -, rfl⟩ := List.mem_map.mp hp
    simpa using hblank
  · intro p hp
    obtain ⟨field, hmem, rfl⟩ := List.mem_map.mp hp
    exact ⟨(mem_fields r hmem).1, fun c hc => hfield c ((mem_fields r hmem).2 c hc)⟩
  · simp

/-- The fields from the user time on, as far as the parsers read. -/
def StatRecord.read : List ℤ :=
  [(r.utime : ℤ), r.stime, r.cutime, r.cstime, r.priority, r.nice, r.numThreads,
    r.itrealvalue, r.starttime, r.vsize, r.rss]

theorem fields_eq : r.fields = [r.state] :: signedDecimal r.ppid ::
    r.unread.map signedDecimal ++ (r.read.map signedDecimal ++ r.more.map signedDecimal) := by
  simp [StatRecord.fields, StatRecord.numbers, StatRecord.read]

theorem take_fields : r.fields.take 22 = [r.state] :: signedDecimal r.ppid ::
    r.unread.map signedDecimal ++ r.read.map signedDecimal := by
  rw [fields_eq, ← List.append_assoc, List.take_left']
  simp [r.unread_length, StatRecord.read]

theorem length_take_fields : (r.fields.take 22).length = 22 := by
  rw [take_fields]
  simp [r.unread_length, StatRecord.read]

theorem field_eq (i : ℕ) :
    (r.fields.take 22).getD (11 + i) [] = (r.read.map signedDecimal).getD i [] := by
  rw [take_fields, List.getD_append_right _ _ _ _ (by simp [r.unread_length])]
  simp [r.unread_length]

end Record

section Bounds
variable (r : StatRecord)

/-- The name ends at the last parenthesis, whatever parentheses are in it. -/
theorem nameBounds_line (tail : List UInt8) (h : ∀ c ∈ tail, c ≠ 0x29) :
    nameBounds (r.line ++ tail) = some ((decimal r.pid).length + 1,
      (decimal r.pid).length + 1 + 1 + r.comm.length) := by
  have hbefore : (0x28 : UInt8) ∉ decimal r.pid ++ [0x20] := by
    intro hmem
    rcases List.mem_append.mp hmem with hmem | hmem
    · have := (mem_decimal hmem).1
      simp at this
    · simp at hmem
  have hbehind : (0x29 : UInt8) ∉ r.behindName ++ tail := by
    intro hmem
    rcases List.mem_append.mp hmem with hmem | hmem
    · obtain ⟨field, hfield, hc⟩ := List.mem_flatMap.mp hmem
      rcases List.mem_cons.mp hc with hc | hc
      · simp at hc
      · have := (mem_fields r hfield).2 _ hc
        simp at this
    · exact h _ hmem rfl
  have hbounds := nameBounds_stat r.comm hbefore hbehind
  rw [List.length_append, List.length_singleton] at hbounds
  rw [← hbounds, StatRecord.line, List.append_assoc, List.cons_append]

theorem drop_line (tail : List UInt8) :
    (r.line ++ tail).drop ((decimal r.pid).length + 1 + 1 + r.comm.length + 1) =
      r.behindName ++ tail := by
  have hdrop := drop_name (decimal r.pid ++ [0x20]) r.comm (r.behindName ++ tail)
  rw [List.length_append, List.length_singleton] at hdrop
  rw [← hdrop, StatRecord.line, List.append_assoc, List.cons_append]

theorem take_line (tail : List UInt8) :
    ((r.line ++ tail).drop ((decimal r.pid).length + 1 + 1)).take r.comm.length = r.comm := by
  have htake := take_name (decimal r.pid ++ [0x20]) r.comm (r.behindName ++ tail)
  rw [List.length_append, List.length_singleton] at htake
  rw [StatRecord.line, List.append_assoc, List.cons_append]
  exact htake

/-- The line ends in a field. -/
theorem stripLineBreak_text : stripLineBreak r.text = r.line := by
  have hself : r.line.rdropWhile isLineEnd = r.line := by
    rw [List.rdropWhile_eq_self_iff]
    intro hne
    have hfields : r.fields ≠ [] := by simp [StatRecord.fields]
    obtain ⟨init, last, hlast⟩ : ∃ init last, r.fields = init ++ [last] :=
      ⟨_, _, (List.dropLast_append_getLast hfields).symm⟩
    have hfield : last ∈ r.fields := by simp [hlast]
    obtain ⟨hnil, hmem⟩ := mem_fields r hfield
    have hline : r.line = (decimal r.pid ++ [0x20] ++ 0x28 :: r.comm ++ 0x29 ::
        (init.flatMap fun field => 0x20 :: field) ++ [0x20]) ++ last := by
      simp [StatRecord.line, StatRecord.behindName, hlast]
    have hget : r.line.getLast hne = last.getLast hnil := by
      simp only [hline]
      exact List.getLast_append_of_ne_nil _ hnil
    rw [hget, (not_separator (hmem _ (List.getLast_mem hnil))).2.2.2]
    simp
  rw [stripLineBreak, StatRecord.text, rdropWhile_append_blanks (by simp [isLineEnd]), hself]

end Bounds

section Recovered
variable (r : StatRecord)

/-- The tokens behind the name, with the line end among the blanks. -/
theorem splitBlank_text {blank : UInt8 → Bool} (hblank : blank 0x20 = true)
    (hline : blank 0x0A = true) (hfield : ∀ c : UInt8, 0x2D ≤ c.toNat → blank c = false) :
    splitBlank blank (r.behindName ++ [0x0A]) = r.fields := by
  rw [splitBlank_trailing _ (by simpa using hline), splitBlank_behindName r hblank hfield]

theorem parseStat_text : parseStat r.text =
    .ok ⟨r.utime, r.stime, r.numThreads, r.starttime, r.vsize, r.rss⟩ := by
  have hsplit : splitBlank statSeparator (r.behindName ++ [0x0A]) = r.fields :=
    splitBlank_text r rfl rfl fun c hc => (not_separator hc).1
  have hthreads := r.numThreads_range
  have hnonzero : r.numThreads ≠ 0 := by omega
  have hmax : ¬ r.numThreads > uint32Max := by omega
  have hle : r.numThreads ≤ uint64Max := hthreads.2.trans (by decide)
  rw [parseStat, StatRecord.text, nameBounds_line r _ (by simp)]
  simp only [drop_line, hsplit, length_take_fields, lt_irrefl, if_false,
    field_eq r 0, field_eq r 1, field_eq r 6, field_eq r 8, field_eq r 9, field_eq r 10]
  simp [StatRecord.read, parseStatField, wholeUnsigned_decimal, r.utime_le, r.stime_le, hle,
    r.starttime_le, r.vsize_le, r.rss_le, hnonzero, hmax]

theorem getD_take {α : Type*} {l : List α} {i k : ℕ} (h : i < k) (d : α) :
    (l.take k).getD i d = l.getD i d := by
  rw [List.getD_eq_getElem?_getD, List.getD_eq_getElem?_getD, List.getElem?_take_of_lt h]

theorem parseThreadCount_text : parseThreadCount r.text = .ok r.numThreads := by
  have hsplit : scanTokens r.behindName = r.fields :=
    splitBlank_behindName r rfl fun c hc => (not_separator hc).2.2.1
  have hbounds := nameBounds_line r [] (by simp)
  have hdrop := drop_line r []
  rw [List.append_nil] at hbounds hdrop
  have hlength : ¬ r.fields.length < 17 := by
    have := length_take_fields r
    rw [List.length_take] at this
    omega
  have hfield : r.fields.getD 17 [] = decimal r.numThreads := by
    rw [← getD_take (k := 22) (by decide), field_eq r 6]
    simp [StatRecord.read]
  have hthreads := r.numThreads_range
  have hnonzero : r.numThreads ≠ 0 := by omega
  have hle : r.numThreads ≤ uint64Max := hthreads.2.trans (by decide)
  rw [parseThreadCount, stripLineBreak_text, hbounds]
  simp only [hdrop, List.append_nil, hsplit, hlength, if_false, hfield]
  rw [parseUnsigned, wholeUnsigned_decimal hle, ok_bind, if_neg hnonzero]

/-- The entry is the record with its times and its pages converted. -/
theorem parseProcStatEntry_text (pid : ℕ) (ticksPerSec : ℤ) (pageSize : ℕ)
    (bootTime : Option ℤ) :
    parseProcStatEntry r.text pid ticksPerSec pageSize bootTime = (do
      let userCpuTime ← cpuTime r.utime ticksPerSec
      let kernelCpuTime ← cpuTime r.stime ticksPerSec
      let startTime ← startTimeOf r.starttime ticksPerSec bootTime
      let residentMemoryBytes ← residentOf r.rss pageSize
      .ok { pid, ppid := some r.ppid, name := if ValidUtf8 r.comm then some r.comm else none,
            state := stateOf r.state, userCpuTime, kernelCpuTime, startTime,
            residentMemoryBytes, virtualMemoryBytes := some r.vsize,
            threadCount := some r.numThreads, priority := some r.priority }) := by
  have hsplit : splitBlank isStatSeparator (r.behindName ++ [0x0A]) = r.fields :=
    splitBlank_text r rfl rfl fun c hc => (not_separator hc).2.1
  have hstate : (r.fields.take 22).getD 0 [] = [r.state] := by
    rw [take_fields]
    rfl
  have hppid : (r.fields.take 22).getD 1 [] = decimal r.ppid := by
    rw [take_fields]
    exact signedDecimal_natCast r.ppid
  have hthreads := r.numThreads_range
  have hpriority := r.priority_range
  have hmax : ¬ r.numThreads > uint32Max := by omega
  have hppidmax : ¬ r.ppid > uint32Max := not_lt.mpr r.ppid_le
  have hrange : ¬ (r.priority < -2147483648 ∨ 2147483647 < r.priority) := by omega
  have hthreads64 : r.numThreads ≤ uint64Max := hthreads.2.trans (by decide)
  have hppid64 : r.ppid ≤ uint64Max := r.ppid_le.trans (by decide)
  have hsigned : wholeSigned 64 (signedDecimal r.priority) = .ok r.priority :=
    wholeSigned_signedDecimal (by norm_num; omega) (by norm_num; omega)
  have hcomm : (decimal r.pid).length + 1 + 1 + r.comm.length - ((decimal r.pid).length + 1) - 1 =
      r.comm.length := by omega
  rw [parseProcStatEntry, StatRecord.text, nameBounds_line r _ (by simp)]
  simp only [drop_line, take_line, hcomm, hsplit, length_take_fields, lt_irrefl, if_false, hstate,
    hppid, isValidUtf8_eq, ok_bind,
    field_eq r 0, field_eq r 1, field_eq r 4, field_eq r 6, field_eq r 8, field_eq r 9,
    field_eq r 10]
  simp [StatRecord.read, parseU64Field, parseI64Field, wholeUnsigned_decimal, r.utime_le,
    r.stime_le, r.starttime_le, r.vsize_le, r.rss_le, hsigned, hmax, hppidmax, hrange,
    hthreads64, hppid64]

end Recovered

section Conversions

/-- A number of clock ticks in nanoseconds, rounded down. -/
def nanoseconds (ticks : ℕ) (ticksPerSec : ℤ) : ℕ := ticks * 1000000000 / ticksPerSec.toNat

/-- The rate is one that `ticks_to_nanoseconds` works with, and the time has 63 bits. -/
def TicksFit (ticks : ℕ) (ticksPerSec : ℤ) : Prop :=
  ticksPerSec.toNat ≤ uint64Max / 1000000000 ∧
    nanoseconds ticks ticksPerSec ≤ maximumNanoseconds

theorem ticksToNanoseconds_spec (ticks : ℕ) {ticksPerSec : ℤ} (hpos : ticksPerSec > 0) :
    (TicksFit ticks ticksPerSec →
      ticksToNanoseconds ticks ticksPerSec = .ok (nanoseconds ticks ticksPerSec)) ∧
    (¬ TicksFit ticks ticksPerSec → ∃ e, ticksToNanoseconds ticks ticksPerSec = fail e) := by
  have hcast : ((ticksPerSec.toNat : ℕ) : ℤ) = ticksPerSec := by omega
  by_cases hrate : ticksPerSec.toNat ≤ uint64Max / 1000000000
  · have heq := ticksToNanoseconds_eq (by omega) hrate ticks
    rw [hcast] at heq
    constructor
    · intro h
      rw [heq]
      exact if_pos h.2
    · intro h
      exact ⟨_, heq.trans (if_neg fun hle => h ⟨hrate, hle⟩)⟩
  · constructor
    · exact fun h => absurd h.1 hrate
    · intro _
      exact ⟨.notSupported, if_pos (.inr (not_le.mp hrate))⟩

/-- Every conversion of the entry has a result. -/
structure StatRecord.Converts (r : StatRecord) (ticksPerSec : ℤ) (pageSize : ℕ)
    (bootTime : Option ℤ) : Prop where
  utime : ticksPerSec > 0 → TicksFit r.utime ticksPerSec
  stime : ticksPerSec > 0 → TicksFit r.stime ticksPerSec
  start : ∀ boot ∈ bootTime, ticksPerSec > 0 → TicksFit r.starttime ticksPerSec ∧
    boot + nanoseconds r.starttime ticksPerSec ≤ maximumNanoseconds
  rss : pageSize > 0 → r.rss * pageSize < 2 ^ 64

/-- The entry with the exact times and sizes. -/
def StatRecord.entry (r : StatRecord) (pid : ℕ) (ticksPerSec : ℤ) (pageSize : ℕ)
    (bootTime : Option ℤ) : ProcessEntry :=
  let time (ticks : ℕ) : Option ℕ :=
    if ticksPerSec > 0 then some (nanoseconds ticks ticksPerSec) else none
  { pid
    ppid := some r.ppid
    name := if ValidUtf8 r.comm then some r.comm else none
    state := stateOf r.state
    userCpuTime := time r.utime
    kernelCpuTime := time r.stime
    startTime := bootTime.bind fun boot => (time r.starttime).map fun age => boot + age
    residentMemoryBytes := if pageSize > 0 then some (r.rss * pageSize) else none
    virtualMemoryBytes := some r.vsize
    threadCount := some r.numThreads
    priority := some r.priority }

theorem cpuTime_spec (ticks : ℕ) (ticksPerSec : ℤ) :
    ((ticksPerSec > 0 → TicksFit ticks ticksPerSec) → cpuTime ticks ticksPerSec =
      .ok (if ticksPerSec > 0 then some (nanoseconds ticks ticksPerSec) else none)) ∧
    (¬ (ticksPerSec > 0 → TicksFit ticks ticksPerSec) →
      ∃ e, cpuTime ticks ticksPerSec = fail e) := by
  by_cases hpos : ticksPerSec > 0
  · obtain ⟨hok, hfail⟩ := ticksToNanoseconds_spec ticks hpos
    simp only [cpuTime, hpos, if_true, forall_const]
    constructor
    · intro h
      rw [hok h]
      rfl
    · intro h
      obtain ⟨e, he⟩ := hfail h
      exact ⟨e, by rw [he]; rfl⟩
  · simp [cpuTime, hpos]

theorem startTimeOf_spec (ticks : ℕ) (ticksPerSec : ℤ) (bootTime : Option ℤ) :
    ((∀ boot ∈ bootTime, ticksPerSec > 0 → TicksFit ticks ticksPerSec ∧
        boot + nanoseconds ticks ticksPerSec ≤ maximumNanoseconds) →
      startTimeOf ticks ticksPerSec bootTime = .ok (bootTime.bind fun boot =>
        (if ticksPerSec > 0 then some (nanoseconds ticks ticksPerSec) else none).map
          fun age => boot + age)) ∧
    (¬ (∀ boot ∈ bootTime, ticksPerSec > 0 → TicksFit ticks ticksPerSec ∧
        boot + nanoseconds ticks ticksPerSec ≤ maximumNanoseconds) →
      ∃ e, startTimeOf ticks ticksPerSec bootTime = fail e) := by
  cases bootTime with
  | none => simp [startTimeOf]
  | some boot =>
    by_cases hpos : ticksPerSec > 0
    · obtain ⟨hok, hfail⟩ := ticksToNanoseconds_spec ticks hpos
      have hiff : boot > maximumNanoseconds - (nanoseconds ticks ticksPerSec : ℤ) ↔
          ¬ boot + nanoseconds ticks ticksPerSec ≤ maximumNanoseconds := by omega
      simp only [startTimeOf, hpos, if_true, Option.mem_def, Option.some.injEq, forall_eq',
        forall_const, Option.bind_some]
      by_cases hfit : TicksFit ticks ticksPerSec
      · rw [hok hfit, ok_bind, composeStartTime]
        by_cases hboot : boot + nanoseconds ticks ticksPerSec ≤ maximumNanoseconds
        · rw [if_neg (by rw [hiff]; exact not_not.mpr hboot)]
          simp [hfit, hboot]
        · rw [if_pos (hiff.mpr hboot)]
          simp [hboot]
      · obtain ⟨e, he⟩ := hfail hfit
        simp [hfit, he]
    · simp [startTimeOf, hpos]

theorem residentOf_spec (pages pageSize : ℕ) :
    ((pageSize > 0 → pages * pageSize < 2 ^ 64) → residentOf pages pageSize =
      .ok (if pageSize > 0 then some (pages * pageSize) else none)) ∧
    (¬ (pageSize > 0 → pages * pageSize < 2 ^ 64) → ∃ e, residentOf pages pageSize = fail e) := by
  by_cases hpos : pageSize > 0
  · simp only [residentOf, hpos, if_true, forall_const, scaleResidentBytes_eq hpos]
    constructor
    · intro h
      rw [if_pos h, ok_bind]
    · intro h
      rw [if_neg h, fail_bind]
      exact ⟨_, rfl⟩
  · simp [residentOf, hpos]

/-- The times and the pages of the entry are converted exactly, or the record is refused. -/
theorem parseProcStatEntry_spec (r : StatRecord) (pid : ℕ) (ticksPerSec : ℤ) (pageSize : ℕ)
    (bootTime : Option ℤ) :
    (r.Converts ticksPerSec pageSize bootTime →
      parseProcStatEntry r.text pid ticksPerSec pageSize bootTime =
        .ok (r.entry pid ticksPerSec pageSize bootTime)) ∧
    (¬ r.Converts ticksPerSec pageSize bootTime →
      ∃ e, parseProcStatEntry r.text pid ticksPerSec pageSize bootTime = fail e) := by
  obtain ⟨huser, huserFails⟩ := cpuTime_spec r.utime ticksPerSec
  obtain ⟨hkernel, hkernelFails⟩ := cpuTime_spec r.stime ticksPerSec
  obtain ⟨hstart, hstartFails⟩ := startTimeOf_spec r.starttime ticksPerSec bootTime
  obtain ⟨hresident, hresidentFails⟩ := residentOf_spec r.rss pageSize
  rw [parseProcStatEntry_text]
  constructor
  · intro h
    rw [huser h.utime, hkernel h.stime, hstart h.start, hresident h.rss]
    rfl
  · intro h
    -- the first conversion without a result refuses the record
    by_cases h1 : ticksPerSec > 0 → TicksFit r.utime ticksPerSec
    · rw [huser h1, ok_bind]
      by_cases h2 : ticksPerSec > 0 → TicksFit r.stime ticksPerSec
      · rw [hkernel h2, ok_bind]
        by_cases h3 : ∀ boot ∈ bootTime, ticksPerSec > 0 → TicksFit r.starttime ticksPerSec ∧
            boot + nanoseconds r.starttime ticksPerSec ≤ maximumNanoseconds
        · rw [hstart h3, ok_bind]
          obtain ⟨e, he⟩ := hresidentFails fun h4 => h ⟨h1, h2, h3, h4⟩
          exact ⟨e, by rw [he, fail_bind]⟩
        · obtain ⟨e, he⟩ := hstartFails h3
          exact ⟨e, by rw [he, fail_bind]⟩
      · obtain ⟨e, he⟩ := hkernelFails h2
        exact ⟨e, by rw [he, fail_bind]⟩
    · obtain ⟨e, he⟩ := huserFails h1
      exact ⟨e, by rw [he, fail_bind]⟩

end Conversions

section Agreement
variable {text : List UInt8}

/-- What an accepted text says to `parse_stat`. -/
theorem parseStat_eq_ok {s : RuntimeStatistics} (h : parseStat text = .ok s) :
    ∃ nameBegin nameEnd, nameBounds text = some (nameBegin, nameEnd) ∧
      let fields := (splitBlank statSeparator (text.drop (nameEnd + 1))).take 22
      parseStatField (fields.getD 11 []) = .ok s.userTicks ∧
      parseStatField (fields.getD 12 []) = .ok s.systemTicks ∧
      parseStatField (fields.getD 17 []) = .ok s.threads ∧
      parseStatField (fields.getD 19 []) = .ok s.startTicks ∧
      parseStatField (fields.getD 20 []) = .ok s.virtualSizeBytes ∧
      parseStatField (fields.getD 21 []) = .ok s.residentPages := by
  unfold parseStat at h
  cases hbounds : nameBounds text with
  | none => simp [hbounds] at h
  | some bounds =>
    refine ⟨bounds.1, bounds.2, rfl, ?_⟩
    simp only [hbounds] at h
    generalize (splitBlank statSeparator (text.drop (bounds.2 + 1))).take 22 = fields at h ⊢
    split_ifs at h with hlength
    · simp at h
    · obtain ⟨userTicks, huser, h⟩ := bind_eq_ok.mp h
      obtain ⟨systemTicks, hsystem, h⟩ := bind_eq_ok.mp h
      obtain ⟨threads, hthreads, h⟩ := bind_eq_ok.mp h
      split_ifs at h
      · simp at h
      · simp at h
      · obtain ⟨startTicks, hstart, h⟩ := bind_eq_ok.mp h
        obtain ⟨virtualSize, hvirtual, h⟩ := bind_eq_ok.mp h
        obtain ⟨residentPages, hresident, h⟩ := bind_eq_ok.mp h
        cases h
        exact ⟨huser, hsystem, hthreads, hstart, hvirtual, hresident⟩

/-- What an accepted text says to `parse_proc_stat_entry`. -/
theorem parseProcStatEntry_eq_ok {pid pageSize : ℕ} {ticksPerSec : ℤ} {bootTime : Option ℤ}
    {e : ProcessEntry} (h : parseProcStatEntry text pid ticksPerSec pageSize bootTime = .ok e) :
    ∃ nameBegin nameEnd, nameBounds text = some (nameBegin, nameEnd) ∧
      let fields := (splitBlank isStatSeparator (text.drop (nameEnd + 1))).take 22
      ∃ utime stime threads starttime vsize rss,
        parseU64Field (fields.getD 11 []) = .ok utime ∧
        parseU64Field (fields.getD 12 []) = .ok stime ∧
        parseU64Field (fields.getD 17 []) = .ok threads ∧
        parseU64Field (fields.getD 19 []) = .ok starttime ∧
        parseU64Field (fields.getD 20 []) = .ok vsize ∧
        parseU64Field (fields.getD 21 []) = .ok rss ∧
        cpuTime utime ticksPerSec = .ok e.userCpuTime ∧
        cpuTime stime ticksPerSec = .ok e.kernelCpuTime ∧
        e.threadCount = some threads ∧
        startTimeOf starttime ticksPerSec bootTime = .ok e.startTime ∧
        e.virtualMemoryBytes = some vsize ∧
        residentOf rss pageSize = .ok e.residentMemoryBytes := by
  unfold parseProcStatEntry at h
  cases hbounds : nameBounds text with
  | none => simp [hbounds] at h
  | some bounds =>
    refine ⟨bounds.1, bounds.2, rfl, ?_⟩
    simp only [hbounds, isValidUtf8_eq, ok_bind] at h
    generalize (splitBlank isStatSeparator (text.drop (bounds.2 + 1))).take 22 = fields at h ⊢
    generalize (if decide (ValidUtf8 _) = true then some _ else none) = name at h
    split_ifs at h with hlength
    · simp at h
    · obtain ⟨ppid, -, h⟩ := bind_eq_ok.mp h
      split_ifs at h
      · simp at h
      obtain ⟨utime, hutime, h⟩ := bind_eq_ok.mp h
      obtain ⟨userCpuTime, huser, h⟩ := bind_eq_ok.mp h
      obtain ⟨stime, hstime, h⟩ := bind_eq_ok.mp h
      obtain ⟨kernelCpuTime, hkernel, h⟩ := bind_eq_ok.mp h
      obtain ⟨priority, -, h⟩ := bind_eq_ok.mp h
      split_ifs at h
      · simp at h
      obtain ⟨threads, hthreads, h⟩ := bind_eq_ok.mp h
      split_ifs at h
      · simp at h
      obtain ⟨starttime, hstarttime, h⟩ := bind_eq_ok.mp h
      obtain ⟨startTime, hstart, h⟩ := bind_eq_ok.mp h
      obtain ⟨vsize, hvsize, h⟩ := bind_eq_ok.mp h
      obtain ⟨rss, hrss, h⟩ := bind_eq_ok.mp h
      obtain ⟨residentMemoryBytes, hresident, h⟩ := bind_eq_ok.mp h
      cases h
      exact ⟨utime, stime, threads, starttime, vsize, rss, hutime, hstime, hthreads, hstarttime,
        hvsize, hrss, huser, hkernel, rfl, hstart, rfl, hresident⟩

/-- What an accepted text says to `parse_thread_count`. -/
theorem parseThreadCount_eq_ok {threads : ℕ} (h : parseThreadCount text = .ok threads) :
    ∃ nameBegin nameEnd, nameBounds (stripLineBreak text) = some (nameBegin, nameEnd) ∧
      parseUnsigned ((scanTokens ((stripLineBreak text).drop (nameEnd + 1))).getD 17 []) =
        .ok threads := by
  unfold parseThreadCount at h
  cases hbounds : nameBounds (stripLineBreak text) with
  | none => simp [hbounds] at h
  | some bounds =>
    refine ⟨bounds.1, bounds.2, rfl, ?_⟩
    simp only [hbounds] at h
    split_ifs at h with hlength
    · simp at h
    · obtain ⟨n, hn, h⟩ := bind_eq_ok.mp h
      split_ifs at h
      · simp at h
      · cases h
        exact hn

/-- The values that a record has for both parsers of the whole record. -/
structure Shared (s : RuntimeStatistics) (e : ProcessEntry) (ticksPerSec : ℤ) (pageSize : ℕ)
    (bootTime : Option ℤ) : Prop where
  user : cpuTime s.userTicks ticksPerSec = .ok e.userCpuTime
  kernel : cpuTime s.systemTicks ticksPerSec = .ok e.kernelCpuTime
  threads : e.threadCount = some s.threads
  start : startTimeOf s.startTicks ticksPerSec bootTime = .ok e.startTime
  virtualSize : e.virtualMemoryBytes = some s.virtualSizeBytes
  resident : residentOf s.residentPages pageSize = .ok e.residentMemoryBytes

theorem shared_of_ok {s : RuntimeStatistics} {e : ProcessEntry} {pid pageSize : ℕ}
    {ticksPerSec : ℤ} {bootTime : Option ℤ} (hs : parseStat text = .ok s)
    (he : parseProcStatEntry text pid ticksPerSec pageSize bootTime = .ok e) :
    Shared s e ticksPerSec pageSize bootTime := by
  obtain ⟨nameBegin, nameEnd, hbounds, huser, hsystem, hthreads, hstart, hvirtual, hresident⟩ :=
    parseStat_eq_ok hs
  obtain ⟨nameBegin', nameEnd', hbounds', utime, stime, threads, starttime, vsize, rss, hutime,
    hstime, hthreads', hstarttime, hvsize, hrss, huser', hkernel', hcount, hstart', hvirtual',
    hresident'⟩ := parseProcStatEntry_eq_ok he
  cases hbounds.symm.trans hbounds'
  -- both parsers take the same tokens for the same fields
  cases huser.symm.trans hutime
  cases hsystem.symm.trans hstime
  cases hthreads.symm.trans hthreads'
  cases hstart.symm.trans hstarttime
  cases hvirtual.symm.trans hvsize
  cases hresident.symm.trans hrss
  exact ⟨huser', hkernel', hcount, hstart', hvirtual', hresident'⟩

/-- No line end, carriage return, form feed or vertical tabulator stands among the fields
up to the number of threads. -/
def HorizontalFields (text : List UInt8) : Prop :=
  ∀ nameBegin nameEnd, nameBounds (stripLineBreak text) = some (nameBegin, nameEnd) →
    ∀ field ∈ (scanTokens ((stripLineBreak text).drop (nameEnd + 1))).take 18,
      ∀ c ∈ field, statSeparator c = false

/-- The name of a text and the fields behind it are those of the stripped text. -/
theorem fields_of_horizontal (h : HorizontalFields text) {nameBegin nameEnd : ℕ}
    (hbounds : nameBounds (stripLineBreak text) = some (nameBegin, nameEnd)) :
    nameBounds text = some (nameBegin, nameEnd) ∧
      (splitBlank statSeparator (text.drop (nameEnd + 1))).getD 17 [] =
        (scanTokens ((stripLineBreak text).drop (nameEnd + 1))).getD 17 [] := by
  have hfields := h nameBegin nameEnd hbounds
  obtain ⟨core, back, rfl, hback, hcore⟩ := exists_trimmed isLineEnd text
  have hstrip : stripLineBreak (core ++ back) = core := by
    rw [stripLineBreak, rdropWhile_append_blanks hback, List.rdropWhile_eq_self_iff]
    intro hne
    rw [hcore _ (List.getLast?_eq_some_getLast hne)]
    simp
  rw [hstrip] at hbounds hfields ⊢
  have hlast := nameEnd_lt hbounds
  have hseparator : ∀ c ∈ back, statSeparator c = true := by
    intro c hc
    have hblank := hback c hc
    simp only [isLineEnd, Bool.or_eq_true] at hblank
    simp only [statSeparator, Bool.or_eq_true]
    tauto
  have hparen : (0x28 : UInt8) ∉ back ∧ (0x29 : UInt8) ∉ back :=
    ⟨fun hmem => absurd (hback _ hmem) (by decide), fun hmem => absurd (hback _ hmem) (by decide)⟩
  refine ⟨(nameBounds_append core hparen).trans hbounds, ?_⟩
  have htake : (splitBlank statSeparator ((core ++ back).drop (nameEnd + 1))).take 18 =
      (scanTokens (core.drop (nameEnd + 1))).take 18 := by
    rw [List.drop_append_of_le_length (by omega), splitBlank_trailing _ hseparator]
    apply splitBlank_take _ _ _ hfields
    intro c hc
    simp only [separator, Bool.or_eq_true] at hc
    simp only [statSeparator, Bool.or_eq_true]
    tauto
  rw [← getD_take (k := 18) (by decide), htake, getD_take (by decide)]

theorem threads_agree {n : ℕ} (h : HorizontalFields text) (hn : parseThreadCount text = .ok n) :
    (∀ s, parseStat text = .ok s → s.threads = n) ∧
      ∀ pid ticksPerSec pageSize bootTime e,
        parseProcStatEntry text pid ticksPerSec pageSize bootTime = .ok e →
          e.threadCount = some n := by
  obtain ⟨nameBegin, nameEnd, hbounds, hcount⟩ := parseThreadCount_eq_ok hn
  obtain ⟨hname, hfield⟩ := fields_of_horizontal h hbounds
  constructor
  · intro s hs
    obtain ⟨nameBegin', nameEnd', hname', -, -, hthreads, -⟩ := parseStat_eq_ok hs
    cases hname.symm.trans hname'
    rw [getD_take (by decide), hfield] at hthreads
    cases hthreads.symm.trans hcount
    rfl
  · intro pid ticksPerSec pageSize bootTime e he
    obtain ⟨nameBegin', nameEnd', hname', -, -, threads, -, -, -, -, -, hthreads, -, -, -, -, -,
      hthreadCount, -⟩ := parseProcStatEntry_eq_ok he
    cases hname.symm.trans hname'
    rw [getD_take (by decide)] at hthreads
    have hfield' : (splitBlank isStatSeparator (text.drop (nameEnd + 1))).getD 17 [] =
        (scanTokens ((stripLineBreak text).drop (nameEnd + 1))).getD 17 [] := hfield
    rw [hfield'] at hthreads
    cases hthreads.symm.trans hcount
    exact hthreadCount

/-- The records of the kernel separate their fields by blanks. -/
theorem horizontalFields_text (r : StatRecord) : HorizontalFields r.text := by
  intro nameBegin nameEnd hbounds field hfield c hc
  have hline := nameBounds_line r [] (by simp)
  have hdrop := drop_line r []
  rw [List.append_nil] at hline hdrop
  rw [stripLineBreak_text] at hbounds hfield
  cases hline.symm.trans hbounds
  rw [hdrop, List.append_nil, scanTokens,
    splitBlank_behindName r rfl fun c hc => (not_separator hc).2.2.1] at hfield
  exact (not_separator ((mem_fields r (List.mem_of_mem_take hfield)).2 c hc)).1

end Agreement

/-- The three parsers recover their fields from every record of the kernel, whatever the
name of the process is. The two parsers of the whole record agree on every text that both
accept; the number of threads is the same for the third one as well, if the fields are
separated horizontally. -/
theorem stat_parsers_agree :
    (∀ (r : StatRecord) (pid : ℕ) (ticksPerSec : ℤ) (pageSize : ℕ) (bootTime : Option ℤ),
      parseStat r.text = .ok ⟨r.utime, r.stime, r.numThreads, r.starttime, r.vsize, r.rss⟩ ∧
      parseThreadCount r.text = .ok r.numThreads ∧
      (r.Converts ticksPerSec pageSize bootTime →
        parseProcStatEntry r.text pid ticksPerSec pageSize bootTime =
          .ok (r.entry pid ticksPerSec pageSize bootTime)) ∧
      (¬ r.Converts ticksPerSec pageSize bootTime →
        ∃ e, parseProcStatEntry r.text pid ticksPerSec pageSize bootTime = fail e)) ∧
    (∀ (text : List UInt8) (s : RuntimeStatistics) (pid : ℕ) (ticksPerSec : ℤ) (pageSize : ℕ)
      (bootTime : Option ℤ) (e : ProcessEntry), parseStat text = .ok s →
      parseProcStatEntry text pid ticksPerSec pageSize bootTime = .ok e →
      Shared s e ticksPerSec pageSize bootTime) ∧
    ∀ (text : List UInt8) (n : ℕ), HorizontalFields text → parseThreadCount text = .ok n →
      (∀ s, parseStat text = .ok s → s.threads = n) ∧
      ∀ pid ticksPerSec pageSize bootTime e,
        parseProcStatEntry text pid ticksPerSec pageSize bootTime = .ok e →
          e.threadCount = some n := by
  refine ⟨?_, ?_, ?_⟩
  · intro r pid ticksPerSec pageSize bootTime
    exact ⟨parseStat_text r, parseThreadCount_text r,
      parseProcStatEntry_spec r pid ticksPerSec pageSize bootTime⟩
  · intro text s pid ticksPerSec pageSize bootTime e hs he
    exact shared_of_ok hs he
  · intro text n h hn
    exact threads_agree h hn

/-- A process with parentheses, a blank and a line end in its name. -/
def parenthesised : StatRecord where
  pid := 42
  comm := ascii ") R 1 (\n"
  state := 0x53
  ppid := 1
  unread := [42, 42, 0, -1, 4194560, 10, 20, 0, 0]
  utime := 7
  stime := 3
  cutime := 0
  cstime := 0
  priority := 20
  nice := 0
  numThreads := 2
  itrealvalue := 0
  starttime := 50
  vsize := 4096
  rss := 5
  more := List.replicate 28 0
  state_letter := by decide
  ppid_le := by decide
  unread_length := rfl
  utime_le := by decide
  stime_le := by decide
  priority_range := by decide
  numThreads_range := by decide
  starttime_le := by decide
  vsize_le := by decide
  rss_le := by decide
  more_length := rfl

theorem parenthesised_agrees :
    Shared ⟨7, 3, 2, 50, 4096, 5⟩ (parenthesised.entry 42 100 4096 (some 0)) 100 4096 (some 0) ∧
      (parenthesised.entry 42 100 4096 (some 0)).threadCount = some 2 := by
  obtain ⟨hstat, hcount, hentry, -⟩ :=
    stat_parsers_agree.1 parenthesised 42 100 4096 (some 0)
  have hconverts : parenthesised.Converts 100 4096 (some 0) :=
    ⟨fun _ => ⟨by decide, by decide⟩, fun _ => ⟨by decide, by decide⟩,
      fun boot hboot _ => by
        cases hboot
        exact ⟨⟨by decide, by decide⟩, by decide⟩,
      fun _ => by decide⟩
  exact ⟨stat_parsers_agree.2.1 _ _ _ _ _ _ _ hstat (hentry hconverts),
    (stat_parsers_agree.2.2 _ _ (horizontalFields_text parenthesised) hcount).2 _ _ _ _ _
      (hentry hconverts)⟩

/-- A record in which a line end follows the parent process: two threads for one module, and
three for the other. -/
theorem vertical_fields_disagree :
    parseStat (ascii "1 (a) S 1\n1 1 1 1 1 1 1 1 1 1 1 1 1 1 1 2 3 4 5 6") =
      .ok ⟨1, 1, 2, 4, 5, 6⟩ ∧
    parseThreadCount (ascii "1 (a) S 1\n1 1 1 1 1 1 1 1 1 1 1 1 1 1 1 2 3 4 5 6") = .ok 3 := by
  decide +kernel

end Syscape.StatLine
