import Syscape.ProcessMetrics
import Syscape.Utf8Text
import Syscape.Lib.Lines

/-!
# The processes of the system

What the process list reads about each process: its command line and its record in
`/proc/<pid>/stat`.
-/
namespace Syscape.ProcessList
open Checked Text Lines ProcessMetrics Numbers Utf8

/-- `is_stat_separator`. -/
def isStatSeparator (c : UInt8) : Bool :=
  c == 0x20 || c == 0x09 || c == 0x0A || c == 0x0D || c == 0x0C || c == 0x0B

/-- `parse_u64_field`. -/
def parseU64Field (token : List UInt8) : Result ℕ := wholeUnsigned uint64Max token

/-- `parse_i64_field`. -/
def parseI64Field (token : List UInt8) : Result ℤ := wholeSigned 64 token

/-- One argument of `parse_proc_cmdline`. -/
def checkArgument (arg : List UInt8) : Result (List UInt8) := do
  if ← isValidUtf8 arg then .ok arg else fail .invalidEncoding

/-- `parse_proc_cmdline`. -/
def parseProcCmdline (input : List UInt8) : Result (List (List UInt8)) :=
  if input = [] then .ok []
  else if input.getLast? ≠ some 0 then fail .malformedData
  else (lines 0 input).mapM checkArgument

/-- `process_state`. -/
inductive ProcessState where
  | unknown
  | running
  | sleeping
  | stopped
  | zombie
  deriving DecidableEq, Repr

/-- The part of `process_entry` that the record in `/proc/<pid>/stat` fills in. -/
structure ProcessEntry where
  pid : ℕ := 0
  ppid : Option ℕ := none
  name : Option (List UInt8) := none
  state : ProcessState := .unknown
  userCpuTime : Option ℕ := none
  kernelCpuTime : Option ℕ := none
  startTime : Option ℤ := none
  residentMemoryBytes : Option ℕ := none
  virtualMemoryBytes : Option ℕ := none
  threadCount : Option ℕ := none
  priority : Option ℤ := none
  deriving DecidableEq, Repr

/-- The state that the first letter of the third field stands for. -/
def stateOf (stateChar : UInt8) : ProcessState :=
  if stateChar ∈ ascii "R" then .running
  else if stateChar ∈ ascii "SDIKWP" then .sleeping
  else if stateChar ∈ ascii "Tt" then .stopped
  else if stateChar ∈ ascii "ZXx" then .zombie
  else .unknown

/-- A time in clock ticks, if the clock rate is known. -/
def cpuTime (ticks : ℕ) (ticksPerSec : ℤ) : Result (Option ℕ) :=
  if ticksPerSec > 0 then do
    let converted ← ticksToNanoseconds ticks ticksPerSec
    .ok (some converted)
  else .ok none

/-- The start of a process, if the clock rate and the time of the boot are known. -/
def startTimeOf (startTicks : ℕ) (ticksPerSec : ℤ) (bootTime : Option ℤ) :
    Result (Option ℤ) :=
  match bootTime with
  | none => .ok none
  | some boot =>
    if ticksPerSec > 0 then do
      let age ← ticksToNanoseconds startTicks ticksPerSec
      let composed ← composeStartTime boot age
      .ok (some composed)
    else .ok none

/-- The resident size in bytes, if the page size is known. -/
def residentOf (pages pageSize : ℕ) : Result (Option ℕ) :=
  if pageSize > 0 then do
    let scaled ← scaleResidentBytes pages pageSize
    .ok (some scaled)
  else .ok none

/-- `parse_proc_stat_entry`. -/
def parseProcStatEntry (content : List UInt8) (pid : ℕ) (ticksPerSec : ℤ) (pageSize : ℕ)
    (bootTime : Option ℤ) : Result ProcessEntry :=
  match nameBounds content with
  | none => fail .malformedData
  | some (nameStart, nameEnd) => do
    let comm := (content.drop (nameStart + 1)).take (nameEnd - nameStart - 1)
    let name := if ← isValidUtf8 comm then some comm else none
    let fields := (splitBlank isStatSeparator (content.drop (nameEnd + 1))).take 22
    if fields.length < 22 then fail .malformedData
    else do
      let state := ((fields.getD 0 []).head?).elim ProcessState.unknown stateOf
      let ppid ← parseU64Field (fields.getD 1 [])
      if ppid > uint32Max then fail .valueTooLarge
      else do
        let utime ← parseU64Field (fields.getD 11 [])
        let userCpuTime ← cpuTime utime ticksPerSec
        let stime ← parseU64Field (fields.getD 12 [])
        let kernelCpuTime ← cpuTime stime ticksPerSec
        let priority ← parseI64Field (fields.getD 15 [])
        if priority < -(2 ^ 31) ∨ priority > 2 ^ 31 - 1 then fail .valueTooLarge
        else do
          let threads ← parseU64Field (fields.getD 17 [])
          if threads > uint32Max then fail .valueTooLarge
          else do
            let starttime ← parseU64Field (fields.getD 19 [])
            let startTime ← startTimeOf starttime ticksPerSec bootTime
            let vsize ← parseU64Field (fields.getD 20 [])
            let rss ← parseU64Field (fields.getD 21 [])
            let residentMemoryBytes ← residentOf rss pageSize
            .ok { pid, ppid := some ppid, name, state, userCpuTime, kernelCpuTime, startTime,
                  residentMemoryBytes, virtualMemoryBytes := some vsize,
                  threadCount := some threads, priority := some priority }

end Syscape.ProcessList
