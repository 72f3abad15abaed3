import Syscape.LinuxFile
import Syscape.Memory
import Syscape.Numbers
import Syscape.Lib.Keyed
import Syscape.Lib.Lines

/-!
# The memory information of Linux

`/proc/meminfo` has one field in each line. The parser takes the documented fields only, and
the last value where a field is there twice. The memory load is the rounded percentage of
the memory that is not available.
-/
namespace Syscape.Memory
open Checked Text Lines LastValue Keyed FromChars Numbers LinuxFile

section Fields

def memorySpace (value : UInt8) : Bool :=
  value == 0x20 || value == 0x09 || value == 0x0D || value == 0x0A

/-- `trim_memory_field`. -/
def trimMemoryField (value : List UInt8) : List UInt8 :=
  (value.dropWhile memorySpace).rdropWhile memorySpace

/-- `parse_kilobyte_amount`. -/
def parseKilobyteAmount (input : List UInt8) : Result UInt64 :=
  let value := trimMemoryField input
  if value = [] then fail .malformedData
  else
    let parsed := fromChars 10 uint64Max value
    match parsed.value with
    | none => fail .malformedData
    | some kilobytes =>
      let unit := trimMemoryField (value.drop parsed.read)
      if unit ≠ ascii "kB" then fail .malformedData
      else if UInt64.ofNat kilobytes > maxUInt64 >>> 10 then fail .valueTooLarge
      else .ok (UInt64.ofNat kilobytes <<< 10)

/-- `parse_bare_count`. -/
def parseBareCount (input : List UInt8) : Result UInt64 :=
  let value := trimMemoryField input
  if value = [] then fail .malformedData
  else
    match numberOf 10 uint64Max value with
    | none => fail .malformedData
    | some count => .ok (UInt64.ofNat count)

/-- `meminfo_field`, without `unrecognized`. -/
inductive MeminfoField where
  | total
  | available
  | swapTotal
  | swapFree
  | committed
  | commitLimit
  | hugeTotalCount
  | hugeFreeCount
  | hugePageSize
  deriving DecidableEq, Repr

/-- `documented_meminfo_keys`. -/
def documentedMeminfoKeys : List (List UInt8 × MeminfoField) :=
  [(ascii "MemTotal", .total), (ascii "MemAvailable", .available),
    (ascii "SwapTotal", .swapTotal), (ascii "SwapFree", .swapFree),
    (ascii "Committed_AS", .committed), (ascii "CommitLimit", .commitLimit),
    (ascii "HugePages_Total", .hugeTotalCount), (ascii "HugePages_Free", .hugeFreeCount),
    (ascii "Hugepagesize", .hugePageSize)]

/-- `classify_meminfo_key`: nothing for a key that is not recognized. -/
def classifyMeminfoKey (key : List UInt8) : Option MeminfoField :=
  (documentedMeminfoKeys.find? fun mapping => mapping.1 == key).map Prod.snd

/-- `is_bare_count_field`. -/
def isBareCountField (field : MeminfoField) : Bool :=
  field == .hugeTotalCount || field == .hugeFreeCount

/-- `memory_information`; a field that is not there has no value. -/
structure MemoryInformation where
  total : Option UInt64 := none
  available : Option UInt64 := none
  swapTotal : Option UInt64 := none
  swapFree : Option UInt64 := none
  committed : Option UInt64 := none
  commitLimit : Option UInt64 := none
  hugeTotalCount : Option UInt64 := none
  hugeFreeCount : Option UInt64 := none
  hugePageSize : Option UInt64 := none
  deriving DecidableEq, Repr

/-- The assignments of `parse_meminfo`. -/
def MemoryInformation.set (info : MemoryInformation) : MeminfoField → UInt64 → MemoryInformation
  | .total, value => { info with total := some value }
  | .available, value => { info with available := some value }
  | .swapTotal, value => { info with swapTotal := some value }
  | .swapFree, value => { info with swapFree := some value }
  | .committed, value => { info with committed := some value }
  | .commitLimit, value => { info with commitLimit := some value }
  | .hugeTotalCount, value => { info with hugeTotalCount := some value }
  | .hugeFreeCount, value => { info with hugeFreeCount := some value }
  | .hugePageSize, value => { info with hugePageSize := some value }

/-- The value of a field in the record. -/
def MemoryInformation.get (info : MemoryInformation) : MeminfoField → Option UInt64
  | .total => info.total
  | .available => info.available
  | .swapTotal => info.swapTotal
  | .swapFree => info.swapFree
  | .committed => info.committed
  | .commitLimit => info.commitLimit
  | .hugeTotalCount => info.hugeTotalCount
  | .hugeFreeCount => info.hugeFreeCount
  | .hugePageSize => info.hugePageSize

/-- The record has one place for each field. -/
def MemoryInformation.places : Places MemoryInformation MeminfoField UInt64 where
  get := get
  set := set
  empty := {}
  get_set info field value other := by cases field <;> cases other <;> rfl
  get_empty field := by cases field <;> rfl

/-- The documented field that a line is about. -/
def lineField (line : List UInt8) : Option MeminfoField := do
  let separator ← line.idxOf? 0x3A
  classifyMeminfoKey (trimMemoryField (line.take separator))

/-- The amount behind the separator of a line. -/
def lineAmount (field : MeminfoField) (line : List UInt8) : Result UInt64 :=
  let amount := line.drop ((line.idxOf? 0x3A).getD 0 + 1)
  if isBareCountField field then parseBareCount amount else parseKilobyteAmount amount

/-- `parse_meminfo`. -/
def parseMeminfo (input : List UInt8) : Result MemoryInformation :=
  (lines 0x0A input).foldlM (step MemoryInformation.places lineField lineAmount) {}

/-- `read_memory_information`. -/
def readMemoryInformation (fs : FileSystem) : Result MemoryInformation := do
  let content ← readTextFile fs (ascii "/proc/meminfo") (1024 * 1024)
  parseMeminfo content

/-- `memory_load_percent`. -/
def memoryLoadPercent (fs : FileSystem) : Result UInt32 := do
  let information ← readMemoryInformation fs
  match information.available with
  | none => fail .notSupported
  | some available =>
    match information.total with
    | none => fail .notFound
    | some total =>
      if available > total then fail .malformedData
      else utilizationPercent (total - available) total

end Fields

section Load

/-- The value of the field in a text. -/
def fieldValue (field : MeminfoField) (text : List UInt8) : Option UInt64 :=
  lastOf (given lineField lineAmount field) (lines 0x0A text)

/-- Every line is about no documented field, or has an amount of its form. -/
def IsMeminfo (text : List UInt8) : Prop :=
  ∀ line ∈ lines 0x0A text, Accepted lineField lineAmount line

/-- A text is read if all its lines are accepted, and every field then has its value. -/
theorem parseMeminfo_of_isMeminfo {text : List UInt8} (h : IsMeminfo text) :
    ∃ info, parseMeminfo text = .ok info ∧ ∀ field, info.get field = fieldValue field text := by
  obtain ⟨info, hinfo⟩ : ∃ info, parseMeminfo text = .ok info := exists_run_iff.mpr h
  exact ⟨info, hinfo, get_run hinfo⟩


/-- The load is the percentage of the difference of the two fields. -/
theorem memoryLoadPercent_eq {fs : FileSystem} {text : List UInt8} {total available : UInt64}
    (hread : readTextFile fs (ascii "/proc/meminfo") (1024 * 1024) = .ok text)
    (hmeminfo : IsMeminfo text)
    (htotal : fieldValue .total text = some total)
    (havailable : fieldValue .available text = some available) (hle : available ≤ total) :
    memoryLoadPercent fs = utilizationPercent (total - available) total := by
  obtain ⟨info, hinfo, hfields⟩ := parseMeminfo_of_isMeminfo hmeminfo
  have hinfoTotal : info.total = some total := (hfields .total).trans htotal
  have hinfoAvailable : info.available = some available := (hfields .available).trans havailable
  have hnot : ¬ available > total := by
    rw [gt_iff_lt, UInt64.not_lt]
    exact hle
  rw [memoryLoadPercent, readMemoryInformation, hread, ok_bind, hinfo, ok_bind]
  simp only [hinfoAvailable, hinfoTotal, if_neg hnot]

theorem utilization_percent (used total : UInt64) :
    (ReturnsRounded used total ∧ NoWrap used total ↔ Manageable used total) ∧
    ∀ fs text total available,
      readTextFile fs (ascii "/proc/meminfo") (1024 * 1024) = .ok text →
      IsMeminfo text → fieldValue .total text = some total →
      fieldValue .available text = some available → available ≤ total →
      memoryLoadPercent fs = utilizationPercent (total - available) total ∧
        (total - available).toNat = total.toNat - available.toNat ∧
        ReturnsRounded (total - available) total ∧ NoWrap (total - available) total := by
  constructor
  · rw [← noWrap_iff]
    exact ⟨And.right, fun h => ⟨returnsRounded_of_noWrap h, h⟩⟩
  · intro fs text total available hread hmeminfo htotal havailable hle
    have hdifference := UInt64.toNat_sub_of_le _ _ hle
    have hpart : total - available ≤ total := by
      rw [UInt64.le_iff_toNat_le, hdifference]
      exact Nat.sub_le _ _
    have hwrap := noWrap_iff.mpr (manageable_of_le hpart)
    exact ⟨memoryLoadPercent_eq hread hmeminfo htotal havailable hle, hdifference,
      returnsRounded_of_noWrap hwrap, hwrap⟩

/-- A file system with nothing but this text as the memory information. -/
def meminfoOnly (text : List UInt8) : FileSystem := fun path =>
  if path = ascii "/proc/meminfo" then .content text else .absent

/-- A quarter of the memory is available. -/
theorem utilization_percent_meminfo :
    memoryLoadPercent
      (meminfoOnly (ascii "MemTotal: 4000 kB" ++ [0x0A] ++ ascii "MemAvailable: 1000 kB")) =
      .ok 75 := by
  have hload := (utilization_percent 1000 4000).2
    (meminfoOnly (ascii "MemTotal: 4000 kB" ++ [0x0A] ++ ascii "MemAvailable: 1000 kB"))
    (ascii "MemTotal: 4000 kB" ++ [0x0A] ++ ascii "MemAvailable: 1000 kB") 4096000 1024000
    (by decide +kernel) ?_ (by decide +kernel) (by decide +kernel) (by decide)
  · rw [hload.1]
    decide
  · have hlines : lines 0x0A (ascii "MemTotal: 4000 kB" ++ [0x0A] ++ ascii "MemAvailable: 1000 kB") =
        [ascii "MemTotal: 4000 kB", ascii "MemAvailable: 1000 kB"] := by decide +kernel
    rw [IsMeminfo, hlines, List.forall_mem_cons, List.forall_mem_singleton]
    constructor
    · intro field hfield
      have htotal : lineField (ascii "MemTotal: 4000 kB") = some .total := by decide +kernel
      obtain rfl : .total = field := Option.some.inj (htotal.symm.trans hfield)
      exact ⟨4096000, by decide +kernel⟩
    · intro field hfield
      have havailable : lineField (ascii "MemAvailable: 1000 kB") = some .available := by
        decide +kernel
      obtain rfl : .available = field := Option.some.inj (havailable.symm.trans hfield)
      exact ⟨1024000, by decide +kernel⟩

/-- The product wraps and the quotient looks like a percentage. -/
theorem large_part_accepted :
    utilizationPercent 184467440737095517 100 = .ok 1 ∧
      roundedPercent 184467440737095517 100 = 184467440737095517 ∧
      ¬ ReturnsRounded 184467440737095517 100 ∧ ¬ NoWrap 184467440737095517 100 := by
  have hwrapped : utilizationPercent 184467440737095517 100 = .ok 1 := by decide
  refine ⟨hwrapped, by decide, ?_, ?_⟩
  · intro h
    exact absurd ((h 1).mp hwrapped).2.2.1 (by decide)
  · rw [noWrap_iff, Manageable]
    decide

end Load

end Syscape.Memory
