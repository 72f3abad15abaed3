import Syscape.ProcessMetrics

/-!
# The calling process

What the process queries read about the calling process: its command line and the
fields of `/proc/self/stat` behind the name in parentheses.
-/
namespace Syscape.Process
open Checked Text ProcessMetrics Numbers

/-- `parse_command_line`; the arguments lie between the NUL bytes. -/
def parseCommandLine (input : List UInt8) : Result (List (List UInt8)) :=
  if input = [] then .ok []
  else if input.getLast? ≠ some 0 then fail .malformedData
  else .ok (input.dropLast.splitOn 0)

/-- `runtime_statistics`. -/
structure RuntimeStatistics where
  userTicks : ℕ
  systemTicks : ℕ
  threads : ℕ
  startTicks : ℕ
  virtualSizeBytes : ℕ
  residentPages : ℕ
  deriving DecidableEq, Repr

/-- `stat_separator`. -/
def statSeparator (value : UInt8) : Bool :=
  value == 0x20 || value == 0x09 || value == 0x0A || value == 0x0D || value == 0x0C ||
    value == 0x0B

/-- `parse_stat_field`. -/
def parseStatField (token : List UInt8) : Result ℕ := wholeUnsigned uint64Max token

/-- `parse_stat`. -/
def parseStat (input : List UInt8) : Result RuntimeStatistics :=
  match nameBounds input with
  | none => fail .malformedData
  | some (_, nameEnd) =>
    let fields := (splitBlank statSeparator (input.drop (nameEnd + 1))).take 22
    if fields.length < 22 then fail .malformedData
    else do
      let userTicks ← parseStatField (fields.getD 11 [])
      let systemTicks ← parseStatField (fields.getD 12 [])
      let threads ← parseStatField (fields.getD 17 [])
      if threads = 0 then fail .malformedData
      else if threads > uint32Max then fail .valueTooLarge
      else do
        let startTicks ← parseStatField (fields.getD 19 [])
        let virtualSize ← parseStatField (fields.getD 20 [])
        let residentPages ← parseStatField (fields.getD 21 [])
        .ok ⟨userTicks, systemTicks, threads, startTicks, virtualSize, residentPages⟩

end Syscape.Process
