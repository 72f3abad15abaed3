import Syscape.CpuCaches
import Syscape.Lib.Endian
import Syscape.Lib.Frames
import Syscape.Lib.Moments

/-!
# Processor records of Windows

`GetLogicalProcessorInformationEx` fills a buffer with records of a kind: the cores, the packages
or the caches. The size of the buffer is asked for first, and again while the processors change
in between.
-/
namespace Syscape.CpuWindows
open Calls Checked Cpu Endian Frames Moments StdSort

section Errors

/-- The error of a query: one of the library, or one of the system. -/
inductive NativeError where
  | syscape (e : Errc)
  | system (code : ℕ)
  deriving DecidableEq, Repr

abbrev NativeResult (α : Type) := Except (Fault NativeError) α

/-- `fail(errc::...)`. -/
def failWith {α : Type} (e : Errc) : NativeResult α := .error (.fail (.syscape e))

/-- `fail(std::error_code(code, std::system_category()))`. -/
def failSystem {α : Type} (code : ℕ) : NativeResult α := .error (.fail (.system code))

/-- `ERROR_INSUFFICIENT_BUFFER`. -/
def errorInsufficientBuffer : ℕ := 122

end Errors

section Walk

/-- The kinds of records. -/
def relationProcessorCore : ℕ := 0
def relationCache : ℕ := 2
def relationProcessorPackage : ℕ := 3

/-- The size of a `relationship_header`. -/
def relationshipHeaderSize : ℕ := 8

theorem relationshipHeaderSize_pos : 0 < relationshipHeaderSize := by decide

/-- `relationship_header`: the kind and the size of a record. -/
def recordLayout : Layout where
  headerSize := relationshipHeaderSize
  headerSize_pos := relationshipHeaderSize_pos
  lengthField header := leValue ((header.drop 4).take 4)
  align size := size

/-- The kind of a record. -/
def relationshipOf (header : List UInt8) : ℕ := leValue (header.take 4)

/-- `walk_relationship_records`. -/
def walkRelationshipRecords {σ : Type} (relationship : ℕ)
    (visitor : σ → List UInt8 → NativeResult σ) (state : σ) (buffer : List UInt8) : NativeResult σ :=
  walk recordLayout (.syscape .malformedData) (fun state frame =>
    if relationshipOf frame.header ≠ relationship then failWith .malformedData
    else visitor state frame.payload) state buffer

/-- `parse_relationship_count`. -/
def parseRelationshipCount (relationship : ℕ) (buffer : List UInt8) : NativeResult ℕ := do
  let count ← walkRelationshipRecords relationship (fun count _ =>
    if count = uint32Max then failWith .valueTooLarge else .ok (count + 1)) 0 buffer
  if count = 0 then failWith .malformedData else .ok count

end Walk

section Caches

/-- `count_affinity_bits`. -/
def countAffinityBits (mask : ℕ) : ℕ :=
  if mask = 0 then 0 else (mask &&& 1) + countAffinityBits (mask >>> 1)
termination_by mask
decreasing_by
  rw [Nat.shiftRight_eq_div_pow]
  omega

/-- `CACHE_RELATIONSHIP`, with the fields that the query reads. -/
structure CacheRelationship where
  level : ℕ
  associativity : ℕ
  lineSize : ℕ
  cacheSize : ℕ
  type : ℕ
  mask : ℕ
  group : ℕ
  deriving DecidableEq, Repr

/-- The size of a `CACHE_RELATIONSHIP`. -/
def cacheRelationshipSize : ℕ := 48

/-- The record in memory. -/
def decodeCacheRelationship (payload : List UInt8) : CacheRelationship where
  level := leValue (payload.take 1)
  associativity := leValue ((payload.drop 1).take 1)
  lineSize := leValue ((payload.drop 2).take 2)
  cacheSize := leValue ((payload.drop 4).take 4)
  type := leValue ((payload.drop 8).take 4)
  mask := leValue ((payload.drop 32).take 8)
  group := leValue ((payload.drop 40).take 2)

/-- The switch over `PROCESSOR_CACHE_TYPE`. -/
def cacheKindOf (type : ℕ) : Option CacheKind :=
  match type with
  | 0 => some .unified
  | 1 => some .instruction
  | 2 => some .data
  | 3 => some .trace
  | _ => none

/-- `CACHE_FULLY_ASSOCIATIVE`. -/
def cacheFullyAssociative : ℕ := 0xFF

/-- `convert_cache_record`. -/
def convertCacheRecord (payload : List UInt8) : NativeResult CacheEntry :=
  if payload.length < cacheRelationshipSize then failWith .malformedData
  else
    let record := decodeCacheRelationship payload
    if record.level = 0 ∨ record.lineSize = 0 ∨ record.cacheSize = 0 then failWith .malformedData
    else
      match cacheKindOf record.type with
      | none => failWith .malformedData
      | some kind =>
        if record.group ≠ 0 ∨ record.mask = 0 then failWith .malformedData
        else if record.associativity = cacheFullyAssociative then
          if record.cacheSize % record.lineSize ≠ 0 then failWith .malformedData
          else .ok ⟨record.level, kind, record.cacheSize, record.lineSize,
            record.cacheSize / record.lineSize, 1, countAffinityBits record.mask⟩
        else .ok ⟨record.level, kind, record.cacheSize, record.lineSize, record.associativity, 0,
          countAffinityBits record.mask⟩

/-- The comparison of `cache_descriptors`. -/
def cacheBefore (left right : CacheEntry) : Bool :=
  if left.level ≠ right.level then decide (left.level < right.level)
  else decide (left.kind.number < right.kind.number)

/-- The records of `cache_descriptors`, in order. -/
def parseCaches (sorter : Sorter cacheBefore) (buffer : List UInt8) :
    NativeResult (List CacheEntry) := do
  let entries ← walkRelationshipRecords relationCache (fun entries payload => do
    let converted ← convertCacheRecord payload
    .ok (entries ++ [converted])) [] buffer
  if entries = [] then failWith .malformedData else .ok (sorter.sort entries)

/-- A round of `validate_cache_entries`, with the level and the kind of the entry before. -/
def validateCacheEntry (previous : Option (ℕ × CacheKind)) (entry : CacheEntry) :
    NativeResult (Option (ℕ × CacheKind)) :=
  if entry.level = 0 ∨ entry.instanceSizeBytes = 0 ∨ entry.lineSizeBytes = 0 then
    failWith .malformedData
  else
    match previous with
    | some (previousLevel, previousKind) =>
      if entry.level < previousLevel ∨
          entry.level = previousLevel ∧ entry.kind.number < previousKind.number then
        failWith .malformedData
      else .ok (some (entry.level, entry.kind))
    | none => .ok (some (entry.level, entry.kind))

/-- `validate_cache_entries`. -/
def validateCacheEntries (entries : NativeResult (List CacheEntry)) :
    NativeResult (List CacheEntry) := do
  let entries ← entries
  let _ ← entries.foldlM validateCacheEntry none
  .ok entries

end Caches

section Queries

/-- The calls: `GetActiveProcessorGroupCount`, and `GetLogicalProcessorInformationEx` for a kind
of records with a buffer of that size. -/
inductive Call where
  | groupCount
  | information (relationship size : ℕ)

/-- A number, and the bytes that are stored or an error with the size that is returned. -/
def Answer : Call → Type
  | .groupCount => ℕ
  | .information _ _ => Except (ℕ × ℕ) (List UInt8)

abbrev Query (α : Type) := Prog Call Answer α

/-- The largest buffer. -/
def maximumBuffer : ℕ := 64 * 1024 * 1024

/-- What an attempt of `query_relationship_records` makes of an answer. -/
def afterAttempt (attempt size : ℕ) : Except (ℕ × ℕ) (List UInt8) →
    (ℕ × ℕ) ⊕ NativeResult (List UInt8)
  | .ok buffer =>
    .inr (if buffer.length = 0 ∨ buffer.length > size then failWith .malformedData else .ok buffer)
  | .error (code, returnedSize) =>
    if code ≠ errorInsufficientBuffer then .inr (failSystem code)
    else if returnedSize ≤ size then .inr (failWith .malformedData)
    else .inl (attempt + 1, returnedSize)

/-- An attempt of `query_relationship_records`. -/
def attempt (relationship : ℕ) (s : ℕ × ℕ) :
    Query ((ℕ × ℕ) ⊕ NativeResult (List UInt8)) :=
  if s.1 ≥ 4 then return .inr (failWith .temporarilyUnavailable)
  else if s.2 = 0 then return .inr (failWith .malformedData)
  else if s.2 > maximumBuffer then return .inr (failWith .resourceExhausted)
  else do
    let r ← invoke (Call.information relationship s.2)
    return afterAttempt s.1 s.2 r

/-- `query_relationship_records`. -/
def queryRelationshipRecords (relationship : ℕ) : Query (NativeResult (List UInt8)) := do
  let r : Except (ℕ × ℕ) (List UInt8) ← invoke (Call.information relationship 0)
  match r with
  | .ok _ => return failWith .malformedData
  | .error (code, size) =>
    if code ≠ errorInsufficientBuffer then return failSystem code
    else iterate (attempt relationship) (0, size)

/-- `relationship_count`. -/
def relationshipCount (relationship : ℕ) : Query (NativeResult ℕ) := do
  let records ← queryRelationshipRecords relationship
  return records >>= parseRelationshipCount relationship

/-- `online_physical_core_count`. -/
def onlinePhysicalCoreCount : Query (NativeResult ℕ) := relationshipCount relationProcessorCore

/-- `online_processor_package_count`. -/
def onlineProcessorPackageCount : Query (NativeResult ℕ) :=
  relationshipCount relationProcessorPackage

/-- `cache_descriptors`, with the check at the public boundary. -/
def cacheDescriptors (sorter : Sorter cacheBefore) : Query (NativeResult (List CacheEntry)) := do
  let groups : ℕ ← invoke Call.groupCount
  if groups = 0 then return failWith .ioError
  else if groups ≠ 1 then return failWith .notSupported
  else do
    let records ← queryRelationshipRecords relationCache
    return validateCacheEntries (records >>= parseCaches sorter)

end Queries

end Syscape.CpuWindows
