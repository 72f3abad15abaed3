import Syscape.LinuxFile
import Syscape.Lib.Digits
import Syscape.Lib.FromChars
import Syscape.Lib.Lines
import Syscape.Lib.StdSort
import Mathlib.Data.Finset.Sort
import Mathlib.Order.Interval.Finset.Nat

/-!
# Processor caches

`cache_descriptors` walks over the caches that the kernel reports for each online
processor. Each observation carries the set of processors that share the cache. The
observations are sorted, those of one cache are merged, and those that contradict each
other make the query fail.
-/
namespace Syscape.Cpu
open Checked Text LinuxFile Lines FromChars StdSort

section Values

/-- `cpu_space`. -/
def cpuSpace (value : UInt8) : Bool :=
  value == 0x20 || value == 0x09 || value == 0x0D || value == 0x0A

/-- `trim_cpu_field`. -/
def trimCpuField (value : List UInt8) : List UInt8 :=
  (value.dropWhile cpuSpace).rdropWhile cpuSpace

/-- A set of processors in increasing order. -/
structure CpuList where
  values : List ℕ
  sorted : values.Pairwise (· < ·)
  deriving DecidableEq

/-- The processors of both sets; `std::set_intersection`. -/
def CpuList.inter (a b : CpuList) : CpuList where
  values := a.values.filter (· ∈ b.values)
  sorted := a.sorted.sublist List.filter_sublist

/-- `UINT32_MAX`. -/
def uint32Max : ℕ := 2 ^ 32 - 1

/-- `UINT64_MAX`. -/
def uint64Max : ℕ := 2 ^ 64 - 1

/-- An item of a processor list: its first and its last processor. -/
def cpuRange (item : List UInt8) : Result (ℕ × ℕ) :=
  let dash := item.idxOf? 0x2D
  let firstText := dash.elim item item.take
  let lastText := dash.elim firstText fun d => item.drop (d + 1)
  if firstText = [] ∨ lastText = [] ∨ (dash ≠ none ∧ 0x2D ∈ lastText) then fail .malformedData
  else
    let parsedFirst := fromChars 10 uint32Max firstText
    let parsedLast := fromChars 10 uint32Max lastText
    match parsedFirst.value, parsedLast.value with
    | some first, some last =>
      if parsedFirst.read ≠ firstText.length ∨ parsedLast.read ≠ lastText.length ∨ first > last ∨
          last > 1024 * 1024 then fail .malformedData
      else .ok (first, last)
    | _, _ => fail .malformedData

/-- The loop of `parse_cpu_list` over the items. -/
def insertItems (values : Finset ℕ) : List (List UInt8) → Result (Finset ℕ)
  | [] => .ok values
  | text :: items => do
    let item := trimCpuField text
    if item = [] then fail .malformedData
    else
      let (first, last) ← cpuRange item
      insertItems (values ∪ Finset.Icc first last) items

theorem pairwise_lt_sort (values : Finset ℕ) : (values.sort (· ≤ ·)).Pairwise (· < ·) :=
  values.sortedLT_sort.pairwise

/-- `parse_cpu_list`. -/
def parseCpuList (input : List UInt8) : Result CpuList :=
  let input := trimCpuField input
  if input = [] then fail .malformedData
  else do
    let values ← insertItems ∅ (lines 0x2C input)
    .ok ⟨values.sort (· ≤ ·), pairwise_lt_sort values⟩

/-- `parse_signed_cache_attribute`. -/
def parseSignedCacheAttribute (input : List UInt8) : Result ℤ :=
  let input := trimCpuField input
  if input = [] then fail .malformedData
  else
    let parsed := fromCharsSigned 10 64 input
    if parsed.OutOfRange then fail .valueTooLarge
    else
      match parsed.value with
      | none => fail .malformedData
      | some value =>
        if parsed.read ≠ input.length then fail .malformedData
        else if value = -1 then .ok 0
        else if value < 0 then fail .malformedData
        else .ok value

/-- `parse_positive_cache_attribute`. -/
def parsePositiveCacheAttribute (input : List UInt8) : Result ℕ := do
  let value ← parseSignedCacheAttribute input
  if value = 0 then fail .malformedData
  else if value.toNat > uint32Max then fail .valueTooLarge
  else .ok value.toNat

/-- `parse_optional_cache_attribute`. -/
def parseOptionalCacheAttribute (input : List UInt8) : Result ℕ :=
  if trimCpuField input = [] then .ok 0
  else do
    let value ← parseSignedCacheAttribute input
    if value.toNat > uint32Max then fail .valueTooLarge
    else .ok value.toNat

/-- The factor of a suffix of `parse_cache_size_bytes`. -/
def sizeMultiplier (suffix : Option UInt8) : Option ℕ :=
  if suffix = some 0x4B then some 1024
  else if suffix = some 0x4D then some (1024 * 1024)
  else if suffix = some 0x47 then some (1024 * 1024 * 1024)
  else none

/-- `parse_cache_size_bytes`. -/
def parseCacheSizeBytes (input : List UInt8) : Result ℕ :=
  let input := trimCpuField input
  if input.length < 2 then fail .malformedData
  else
    match sizeMultiplier input.getLast? with
    | none => fail .malformedData
    | some multiplier =>
      let digits := input.dropLast
      let parsed := fromChars 10 uint64Max digits
      if parsed.OutOfRange then fail .valueTooLarge
      else
        match parsed.value with
        | none => fail .malformedData
        | some value =>
          if parsed.read ≠ digits.length then fail .malformedData
          else if value ≠ 0 ∧ multiplier > uint64Max / value then fail .valueTooLarge
          else if value * multiplier = 0 then fail .malformedData
          else .ok (value * multiplier)

/-- `cache_kind`. -/
inductive CacheKind where
  | data
  | instruction
  | unified
  | trace
  | unknown
  deriving DecidableEq, Repr

/-- The value of the enumerator. -/
def CacheKind.number : CacheKind → ℕ
  | .data => 0
  | .instruction => 1
  | .unified => 2
  | .trace => 3
  | .unknown => 4

/-- `parse_cache_type`. -/
def parseCacheType (input : List UInt8) : Result CacheKind :=
  let input := trimCpuField input
  if input = ascii "Data" then .ok .data
  else if input = ascii "Instruction" then .ok .instruction
  else if input = ascii "Unified" then .ok .unified
  else fail .malformedData

end Values

section Observing

/-- `cache_entry`. -/
structure CacheEntry where
  level : ℕ
  kind : CacheKind
  instanceSizeBytes : ℕ
  lineSizeBytes : ℕ
  associativityWays : ℕ
  setsCount : ℕ
  sharedLogicalProcessorCount : ℕ
  deriving DecidableEq, Repr

/-- `observed_cache_instance`; the processors that share the cache are an ordered set, and
the entry counts them. -/
structure ObservedCacheInstance where
  entry : CacheEntry
  sharedProcessors : CpuList
  nonempty : sharedProcessors.values ≠ []
  count_eq : entry.sharedLogicalProcessorCount = sharedProcessors.values.length % 2 ^ 32
  deriving DecidableEq

/-- `read_required_cache_attribute`. -/
def readRequiredCacheAttribute (fs : FileSystem) (path : Path) : Result (List UInt8) :=
  match readTextFile fs path 4096 with
  | .ok content => .ok content
  | .error e => if isNoSuchFile e then fail .temporarilyUnavailable else .error e

/-- `read_optional_cache_attribute`. -/
def readOptionalCacheAttribute (fs : FileSystem) (path : Path) : Result (List UInt8) :=
  match readTextFile fs path 4096 with
  | .ok content => .ok content
  | .error e => if isNoSuchFile e then .ok [] else .error e

/-- One index directory of a processor; there is no type where its caches end. -/
def observeCacheIndex (fs : FileSystem) (cpu : ℕ) (onlineProcessors : CpuList) (directory : Path) :
    Result (Option ObservedCacheInstance) := do
  let typeText ← readOptionalCacheAttribute fs (directory ++ ascii "/type")
  if typeText = [] then .ok none
  else do
    let type ← parseCacheType typeText
    let levelText ← readRequiredCacheAttribute fs (directory ++ ascii "/level")
    let level ← parsePositiveCacheAttribute levelText
    let sizeText ← readRequiredCacheAttribute fs (directory ++ ascii "/size")
    let size ← parseCacheSizeBytes sizeText
    let lineText ← readRequiredCacheAttribute fs (directory ++ ascii "/coherency_line_size")
    let line ← parsePositiveCacheAttribute lineText
    let sharedText ← readRequiredCacheAttribute fs (directory ++ ascii "/shared_cpu_list")
    let shared ← parseCpuList sharedText
    if shared.values = [] then fail .malformedData
    else if cpu ∉ shared.values then fail .temporarilyUnavailable
    else
      let onlineShared := shared.inter onlineProcessors
      if h : onlineShared.values = [] then fail .temporarilyUnavailable
      else do
        let waysText ← readOptionalCacheAttribute fs (directory ++ ascii "/ways_of_associativity")
        let setsText ← readOptionalCacheAttribute fs (directory ++ ascii "/number_of_sets")
        let ways ← parseOptionalCacheAttribute waysText
        let sets ← parseOptionalCacheAttribute setsText
        .ok (some
          { entry := ⟨level, type, size, line, ways, sets, onlineShared.values.length % 2 ^ 32⟩
            sharedProcessors := onlineShared
            nonempty := h
            count_eq := rfl })

/-- `maximum_cache_index`. -/
def maximumCacheIndex : ℕ := 1024

/-- The loop of `observe_processor_caches`; the argument counts the indices that are left. -/
def observeIndices (fs : FileSystem) (cpu : ℕ) (onlineProcessors : CpuList)
    (instances : List ObservedCacheInstance) : ℕ → Result (List ObservedCacheInstance)
  | 0 => fail .valueTooLarge
  | left + 1 => do
    let index := maximumCacheIndex - (left + 1)
    let directory := ascii "/sys/devices/system/cpu/cpu" ++ Digits.decimal cpu ++
      ascii "/cache/" ++ ascii "index" ++ Digits.decimal index
    match ← observeCacheIndex fs cpu onlineProcessors directory with
    | none => .ok instances
    | some observed => observeIndices fs cpu onlineProcessors (instances ++ [observed]) left

/-- `observe_processor_caches`. -/
def observeProcessorCaches (fs : FileSystem) (cpu : ℕ) (onlineProcessors : CpuList)
    (instances : List ObservedCacheInstance) : Result (List ObservedCacheInstance) :=
  observeIndices fs cpu onlineProcessors instances maximumCacheIndex

end Observing

section Merging

/-- `precedes`. -/
def precedes (left right : ObservedCacheInstance) : Bool :=
  if left.entry.level ≠ right.entry.level then left.entry.level < right.entry.level
  else if left.entry.kind ≠ right.entry.kind then
    left.entry.kind.number < right.entry.kind.number
  else left.sharedProcessors.values < right.sharedProcessors.values

/-- `same_instance`. -/
def sameInstance (left right : ObservedCacheInstance) : Bool :=
  left.entry.level = right.entry.level ∧ left.entry.kind = right.entry.kind ∧
    left.sharedProcessors.values = right.sharedProcessors.values

/-- `same_cache_geometry`. -/
def sameCacheGeometry (left right : CacheEntry) : Bool :=
  left.level = right.level ∧ left.kind = right.kind ∧
    left.instanceSizeBytes = right.instanceSizeBytes ∧ left.lineSizeBytes = right.lineSizeBytes ∧
    left.associativityWays = right.associativityWays ∧ left.setsCount = right.setsCount ∧
    left.sharedLogicalProcessorCount = right.sharedLogicalProcessorCount

/-- `processor_sets_overlap`. -/
def processorSetsOverlap : List ℕ → List ℕ → Bool
  | l :: left, r :: right =>
    if l = r then true
    else if l < r then processorSetsOverlap left (r :: right)
    else processorSetsOverlap (l :: left) right
  | _, _ => false
termination_by left right => left.length + right.length

/-- An observation that is not of the last cache; the search goes backwards over the
caches of the same level and kind. -/
def addInstance (unique : List ObservedCacheInstance) (observed : ObservedCacheInstance) :
    Result (List ObservedCacheInstance) :=
  let siblings := unique.takeWhile fun previous =>
    previous.entry.level = observed.entry.level ∧ previous.entry.kind = observed.entry.kind
  if siblings.any fun previous => processorSetsOverlap previous.sharedProcessors.values
      observed.sharedProcessors.values then fail .temporarilyUnavailable
  else .ok (observed :: unique)

/-- The body of the loop over the sorted observations; `unique_instances` has its last
element first here, since the loop only looks at it from its end. -/
def mergeInstance (unique : List ObservedCacheInstance) (observed : ObservedCacheInstance) :
    Result (List ObservedCacheInstance) :=
  match unique with
  | [] => addInstance unique observed
  | last :: _ =>
    if sameInstance last observed then
      if !sameCacheGeometry last.entry observed.entry then fail .temporarilyUnavailable
      else .ok unique
    else addInstance unique observed

/-- `cache_descriptors`, once the caches of all processors are observed. -/
def describeInstances (sorter : Sorter precedes) (instances : List ObservedCacheInstance) :
    Result (List CacheEntry) :=
  if instances = [] then fail .notSupported
  else do
    let unique ← (sorter.sort instances).foldlM mergeInstance []
    .ok (unique.reverse.map (·.entry))

/-- `cache_descriptors`; the list of online processors is read again in the end, from
what may be a later state of the system. -/
def cacheDescriptors (sorter : Sorter precedes) (fs later : FileSystem) :
    Result (List CacheEntry) := do
  let onlineText ← readTextFile fs (ascii "/sys/devices/system/cpu/online") (1024 * 1024)
  let online ← parseCpuList onlineText
  if online.values = [] then fail .malformedData
  else do
    let instances ← online.values.foldlM
      (fun instances cpu => observeProcessorCaches fs cpu online instances) []
    let onlineAfterText ← readTextFile later (ascii "/sys/devices/system/cpu/online") (1024 * 1024)
    let onlineAfter ← parseCpuList onlineAfterText
    if onlineAfter ≠ online then fail .temporarilyUnavailable
    else describeInstances sorter instances

end Merging

end Syscape.Cpu
