import Syscape.Connection
import Syscape.LinuxFile
import Syscape.Lib.Paths
import Syscape.Utf8Text

/-!
# Statistics of network interfaces

The counters of an interface are read from its line of `/proc/net/dev`, or from the files
that sysfs has for each of them. The index of an interface comes from the system, which a
function of its name stands for.
-/
namespace Syscape.Network
open Checked Text Utf8 Lines Paths Numbers LinuxFile
open Syscape.Connection (enotdir)

/-- `statistics_record`. -/
structure StatisticsRecord where
  name : List UInt8
  index : ℕ
  rxBytes : ℕ
  txBytes : ℕ
  rxPackets : ℕ
  txPackets : ℕ
  rxErrors : ℕ
  txErrors : ℕ
  rxDropped : ℕ
  txDropped : ℕ
  rxMulticast : Option ℕ
  collisions : Option ℕ
  deriving DecidableEq, Repr

/-- `add_statistics_counters`. -/
def addStatisticsCounters (left right : ℕ) : Result ℕ :=
  if left > uint64Max - right then fail .valueTooLarge else .ok (left + right)

section Numbers

/-- The loop of `parse_uint64_exact`, with the value of the digits before. -/
def parseDigits (value : ℕ) : List UInt8 → Result ℕ
  | [] => .ok value
  | c :: text =>
    if c < 0x30 ∨ c > 0x39 then fail .malformedData
    else
      let digit := c.toNat - 0x30
      if value > (uint64Max - digit) / 10 then fail .valueTooLarge
      else parseDigits (value * 10 + digit) text

/-- `parse_uint64_exact`. -/
def parseUint64Exact (text : List UInt8) : Result ℕ :=
  if text = [] then fail .malformedData else parseDigits 0 text

end Numbers

section ProcNetDev

/-- A blank in front of a name. -/
def isBlank (c : UInt8) : Bool := c == 0x20 || c == 0x09

/-- A blank behind a name, or between numbers. -/
def isColumnBlank (c : UInt8) : Bool := c == 0x20 || c == 0x09 || c == 0x0D

/-- The loop over at most so many numbers of a line, and what it leaves of the text. -/
def readFields : ℕ → List UInt8 → Result (List ℕ × List UInt8)
  | 0, text => .ok ([], text)
  | k + 1, text =>
    match takeToken isColumnBlank text with
    | none => .ok ([], [])
    | some (token, text) => do
      let value ← parseUint64Exact token
      let (values, text) ← readFields k text
      .ok (value :: values, text)

/-- One round of the loop of `parse_proc_net_dev`; a heading gives no record. -/
def parseProcNetDevLine (indexOf : List UInt8 → Result ℕ) (line : List UInt8) :
    Result (Option StatisticsRecord) :=
  match rfind 0x3A line with
  | none =>
    let trimmed := line.dropWhile isBlank
    if trimmed = [] ∨ ascii "Inter-|" <+: trimmed ∨ ascii "face |" <+: trimmed then .ok none
    else fail .malformedData
  | some colon =>
    let name := ((line.take colon).dropWhile isBlank).rdropWhile isColumnBlank
    if name = [] then fail .malformedData
    else do
      let valid ← isValidUtf8 name
      if ¬ valid then fail .invalidEncoding
      else do
        let (fields, text) ← readFields 16 (line.drop (colon + 1))
        if fields.length < 16 then fail .malformedData
        else if text.dropWhile isColumnBlank ≠ [] then fail .malformedData
        else do
          let index ← indexOf name
          .ok (some {
            name := name
            index := index
            rxBytes := fields.getD 0 0
            rxPackets := fields.getD 1 0
            rxErrors := fields.getD 2 0
            rxDropped := fields.getD 3 0
            rxMulticast := some (fields.getD 7 0)
            txBytes := fields.getD 8 0
            txPackets := fields.getD 9 0
            txErrors := fields.getD 10 0
            txDropped := fields.getD 11 0
            collisions := some (fields.getD 13 0) })

/-- `parse_proc_net_dev`. -/
def parseProcNetDev (indexOf : List UInt8 → Result ℕ) (content : List UInt8) :
    Result (List StatisticsRecord) := do
  let records ← (lines 0x0A content).mapM (parseProcNetDevLine indexOf)
  .ok (records.filterMap id)

end ProcNetDev

section Sysfs

/-- `trim_line_end`. -/
def trimLineEnd (text : List UInt8) : List UInt8 :=
  text.rdropWhile fun c => c == 0x0A || c == 0x0D

/-- The path of a counter below the directory of an interface. -/
def statisticsPath (basePath : Path) (attr : String) : Path :=
  basePath ++ ascii "/statistics/" ++ ascii attr

/-- `read_sysfs_stat_file`. -/
def readSysfsStatFile (fs : FileSystem) (basePath : Path) (attr : String) : Result ℕ := do
  let content ← readTextFile fs (statisticsPath basePath attr) 128
  parseUint64Exact (trimLineEnd content)

/-- The error code compares equal to `std::errc::not_a_directory`. -/
def isNotADirectory : Fault ErrorCode → Bool
  | .fail (.generic errno) => errno == enotdir
  | _ => false

/-- `read_optional_sysfs_stat_file`. -/
def readOptionalSysfsStatFile (fs : FileSystem) (basePath : Path) (attr : String) :
    Result (Option ℕ) :=
  match readSysfsStatFile fs basePath attr with
  | .ok value => .ok (some value)
  | .error e => if isNoSuchFile e || isNotADirectory e then .ok none else .error e

/-- `read_sysfs_statistics`. -/
def readSysfsStatistics (fs : FileSystem) (indexOf : List UInt8 → Result ℕ) (name : List UInt8)
    (baseDir : Path) : Result StatisticsRecord := do
  let ifaceDir := baseDir ++ name
  let index ← indexOf name
  let rxBytes ← readSysfsStatFile fs ifaceDir "rx_bytes"
  let txBytes ← readSysfsStatFile fs ifaceDir "tx_bytes"
  let rxPackets ← readSysfsStatFile fs ifaceDir "rx_packets"
  let txPackets ← readSysfsStatFile fs ifaceDir "tx_packets"
  let rxErrors ← readSysfsStatFile fs ifaceDir "rx_errors"
  let txErrors ← readSysfsStatFile fs ifaceDir "tx_errors"
  let rxDropped ← readSysfsStatFile fs ifaceDir "rx_dropped"
  let rxMissed ← readSysfsStatFile fs ifaceDir "rx_missed_errors"
  let combinedRxDropped ← addStatisticsCounters rxDropped rxMissed
  let txDropped ← readSysfsStatFile fs ifaceDir "tx_dropped"
  let multicast ← readOptionalSysfsStatFile fs ifaceDir "multicast"
  let collisions ← readOptionalSysfsStatFile fs ifaceDir "collisions"
  .ok {
    name := name
    index := index
    rxBytes := rxBytes
    txBytes := txBytes
    rxPackets := rxPackets
    txPackets := txPackets
    rxErrors := rxErrors
    txErrors := txErrors
    rxDropped := combinedRxDropped
    txDropped := txDropped
    rxMulticast := multicast
    collisions := collisions }

end Sysfs

end Syscape.Network
