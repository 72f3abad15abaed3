import Syscape.Error
import Syscape.Numbers
import Syscape.Lib.Endian
import Mathlib.Data.Rat.Defs

/-!
# Health log of an NVMe drive

The log has 512 bytes: warnings, a temperature and the wear of the drive, and six counters
of 128 bits. The parser fills in the record of its caller as it goes, and stops at the first
counter that does not fit into 64 bits.
-/
namespace Syscape.Storage
open Checked Endian Numbers

section Records

/-- `drive_health_status`. -/
inductive DriveHealthStatus where
  | unknown
  | healthy
  | warning
  | critical
  deriving DecidableEq, Repr

/-- `health_record`; the temperature is the number that the source approximates by a
`double`. -/
structure HealthRecord where
  identifier : List UInt8
  status : DriveHealthStatus := .unknown
  hasFailurePredicted : Bool := false
  failurePredicted : Bool := false
  hasTemperatureCelsius : Bool := false
  temperatureCelsius : ℚ := 0
  hasPercentUsed : Bool := false
  percentUsed : ℕ := 0
  hasAvailableSparePercent : Bool := false
  availableSparePercent : ℕ := 0
  hasPowerOnHours : Bool := false
  powerOnHours : ℕ := 0
  hasPowerCycles : Bool := false
  powerCycles : ℕ := 0
  hasUnsafeShutdowns : Bool := false
  unsafeShutdowns : ℕ := 0
  hasMediaErrors : Bool := false
  mediaErrors : ℕ := 0
  hasDataUnitsReadBytes : Bool := false
  dataUnitsReadBytes : ℕ := 0
  hasDataUnitsWrittenBytes : Bool := false
  dataUnitsWrittenBytes : ℕ := 0
  deriving DecidableEq

end Records

section Source

/-- `read_u128_le`: the low and the high half. -/
def readU128Le (p : List UInt8) : ℕ × ℕ :=
  let low := (p.take 8).zipIdx.foldl (fun n (b, i) => n ||| b.toNat <<< (i * 8)) 0
  let high := ((p.drop 8).take 8).zipIdx.foldl (fun n (b, i) => n ||| b.toNat <<< (i * 8)) 0
  (low, high)

/-- A counter of the log: where it starts, by what it is multiplied, and the two fields of
the record that it goes to. -/
structure Counter where
  offset : ℕ
  multiplier : ℕ
  store : HealthRecord → ℕ → HealthRecord
  field : HealthRecord → Bool × ℕ
  field_store : ∀ record n, field (store record n) = (true, n)

/-- `nvme_unit_multiplier`. -/
def nvmeUnitMultiplier : ℕ := 512000

def dataUnitsRead : Counter where
  offset := 32
  multiplier := nvmeUnitMultiplier
  store record n := { record with hasDataUnitsReadBytes := true, dataUnitsReadBytes := n }
  field record := (record.hasDataUnitsReadBytes, record.dataUnitsReadBytes)
  field_store _ _ := rfl

def dataUnitsWritten : Counter where
  offset := 48
  multiplier := nvmeUnitMultiplier
  store record n := { record with hasDataUnitsWrittenBytes := true, dataUnitsWrittenBytes := n }
  field record := (record.hasDataUnitsWrittenBytes, record.dataUnitsWrittenBytes)
  field_store _ _ := rfl

def powerCycles : Counter where
  offset := 112
  multiplier := 1
  store record n := { record with hasPowerCycles := true, powerCycles := n }
  field record := (record.hasPowerCycles, record.powerCycles)
  field_store _ _ := rfl

def powerOnHours : Counter where
  offset := 128
  multiplier := 1
  store record n := { record with hasPowerOnHours := true, powerOnHours := n }
  field record := (record.hasPowerOnHours, record.powerOnHours)
  field_store _ _ := rfl

def unsafeShutdowns : Counter where
  offset := 144
  multiplier := 1
  store record n := { record with hasUnsafeShutdowns := true, unsafeShutdowns := n }
  field record := (record.hasUnsafeShutdowns, record.unsafeShutdowns)
  field_store _ _ := rfl

def mediaErrors : Counter where
  offset := 160
  multiplier := 1
  store record n := { record with hasMediaErrors := true, mediaErrors := n }
  field record := (record.hasMediaErrors, record.mediaErrors)
  field_store _ _ := rfl

/-- The counters in the order in which the parser reads them. -/
def nvmeCounters : List Counter :=
  [dataUnitsRead, dataUnitsWritten, powerCycles, powerOnHours, unsafeShutdowns, mediaErrors]

/-- The blocks for the counters in `parse_nvme_smart_log_buffer`. Without a multiplier the
source compares the high half only; the low half is never above the bound then. -/
def storeCounters (buf : List UInt8) : List Counter → HealthRecord → Result Unit × HealthRecord
  | [], record => (.ok (), record)
  | counter :: counters, record =>
    let (low, high) := readU128Le (buf.drop counter.offset)
    if high ≠ 0 ∨ low > uint64Max / counter.multiplier then (fail .valueTooLarge, record)
    else storeCounters buf counters (counter.store record (low * counter.multiplier))

/-- What `parse_nvme_smart_log_buffer` stores of the temperature. -/
def storeTemperature (tempKelvin : ℕ) (record : HealthRecord) : HealthRecord :=
  if tempKelvin > 0 ∧ tempKelvin < 1000 then
    let celsius : ℚ := tempKelvin - 27315 / 100
    if celsius ≥ -50 ∧ celsius ≤ 150 then
      { record with hasTemperatureCelsius := true, temperatureCelsius := celsius }
    else record
  else record

/-- What `parse_nvme_smart_log_buffer` stores of the wear and the warnings. -/
def storeCondition (criticalWarning availSpare availSpareThresh percentUsed : ℕ)
    (record : HealthRecord) : HealthRecord :=
  let record := { record with
    hasAvailableSparePercent := true
    availableSparePercent := availSpare
    hasPercentUsed := true
    percentUsed := percentUsed
    hasFailurePredicted := true }
  if criticalWarning ≠ 0 then
    { record with
      failurePredicted := true
      status := if criticalWarning &&& 0x0C ≠ 0 then .critical else .warning }
  else if availSpare ≤ availSpareThresh ∨ percentUsed ≥ 100 then
    { record with failurePredicted := availSpare ≤ availSpareThresh, status := .warning }
  else { record with failurePredicted := false, status := .healthy }

/-- `parse_nvme_smart_log_buffer`: its result and the record that it leaves. There is no
buffer where the source has a null pointer. -/
def parseNvmeSmartLogBuffer (buf : Option (List UInt8)) (record : HealthRecord) :
    Result Unit × HealthRecord :=
  match buf with
  | none => (fail .malformedData, record)
  | some buf =>
    if buf.length < 512 then (fail .malformedData, record)
    else
      let byte (i : ℕ) : ℕ := (buf.getD i 0).toNat
      let criticalWarning := byte 0
      let tempKelvin := byte 1 ||| byte 2 <<< 8
      let availSpare := byte 3
      let availSpareThresh := byte 4
      let percentUsed := byte 5
      if availSpare > 100 ∨ availSpareThresh > 100 then (fail .malformedData, record)
      else
        storeCounters buf nvmeCounters
          (storeCondition criticalWarning availSpare availSpareThresh percentUsed
            (storeTemperature tempKelvin record))

end Source

section Counters

/-- What the counter is to report: its 16 bytes as one number, multiplied. -/
def Counter.exact (counter : Counter) (log : List UInt8) : ℕ :=
  leValue ((log.drop counter.offset).take 16) * counter.multiplier

/-- Storing the second counter leaves the fields of the first one alone. -/
def Independent (counter other : Counter) : Prop :=
  ∀ record n, counter.field (other.store record n) = counter.field record

/-- What holds of the six counters. -/
structure Counter.WellPlaced (counter : Counter) : Prop where
  end_le : counter.offset + 16 ≤ 512
  multiplier_pos : 0 < counter.multiplier
  identifier : ∀ record n, (counter.store record n).identifier = record.identifier

theorem wellPlaced_nvmeCounters : ∀ counter ∈ nvmeCounters, counter.WellPlaced := by
  simp only [nvmeCounters, List.forall_mem_cons, List.not_mem_nil, false_imp_iff, implies_true,
    and_true]
  refine ⟨?_, ?_, ?_, ?_, ?_, ?_⟩
  all_goals exact ⟨by decide, by decide, fun _ _ => rfl⟩

theorem independent_nvmeCounters :
    nvmeCounters.Pairwise fun counter other =>
      Independent counter other ∧ Independent other counter := by
  simp only [nvmeCounters, List.pairwise_cons, List.forall_mem_cons, List.not_mem_nil,
    false_imp_iff, implies_true, and_true, List.Pairwise.nil]
  refine ⟨⟨?_, ?_, ?_, ?_, ?_⟩, ⟨?_, ?_, ?_, ?_⟩, ⟨?_, ?_, ?_⟩, ⟨?_, ?_⟩, ?_⟩
  all_goals exact ⟨fun _ _ => rfl, fun _ _ => rfl⟩

theorem readU128Le_eq (p : List UInt8) :
    readU128Le p = (leValue (p.take 8), leValue ((p.drop 8).take 8)) := by
  rw [readU128Le, foldl_or_shift, foldl_or_shift]

variable {log : List UInt8} {counter : Counter} {counters : List Counter} {record : HealthRecord}

/-- The two halves put together. -/
theorem exact_eq (hlog : 512 ≤ log.length) (h : counter.WellPlaced) :
    counter.exact log = (leValue ((log.drop counter.offset).take 8) +
      2 ^ 64 * leValue (((log.drop counter.offset).drop 8).take 8)) * counter.multiplier := by
  have hend := h.end_le
  have hlength : ((log.drop counter.offset).take 8).length = 8 := by
    rw [List.length_take, List.length_drop]
    omega
  rw [Counter.exact, List.take_add (i := 8) (j := 8), leValue_append, hlength]
  norm_num

/-- The two comparisons of the source say that the exact number does not fit. -/
theorem storeCounters_cons (hlog : 512 ≤ log.length) (h : counter.WellPlaced) :
    storeCounters log (counter :: counters) record =
      if counter.exact log ≤ uint64Max then
        storeCounters log counters (counter.store record (counter.exact log))
      else (fail .valueTooLarge, record) := by
  have hpos := h.multiplier_pos
  have hexact := exact_eq hlog h
  rw [storeCounters, readU128Le_eq]
  dsimp only
  generalize leValue ((log.drop counter.offset).take 8) = low at hexact ⊢
  generalize leValue (((log.drop counter.offset).drop 8).take 8) = high at hexact ⊢
  by_cases hhigh : high = 0
  · rw [hhigh, Nat.mul_zero, Nat.add_zero] at hexact
    have hdiv : low ≤ uint64Max / counter.multiplier ↔ low * counter.multiplier ≤ uint64Max :=
      Nat.le_div_iff_mul_le hpos
    rw [hexact]
    by_cases hlow : low * counter.multiplier ≤ uint64Max
    · have hle := hdiv.mpr hlow
      rw [if_neg (by omega), if_pos hlow]
    · have hgt := mt hdiv.mp hlow
      rw [if_pos (by omega), if_neg hlow]
  · have hlarge : 2 ^ 64 ≤ counter.exact log := by
      calc 2 ^ 64 ≤ 2 ^ 64 * high := Nat.le_mul_of_pos_right _ (by omega)
        _ ≤ low + 2 ^ 64 * high := Nat.le_add_left _ _
        _ ≤ (low + 2 ^ 64 * high) * counter.multiplier := Nat.le_mul_of_pos_right _ hpos
        _ = counter.exact log := hexact.symm
    rw [if_pos (.inl hhigh), if_neg]
    exact Nat.not_le.mpr (lt_of_lt_of_le (by decide) hlarge)

/-- The record with some counters stored. -/
def storeAll (log : List UInt8) (counters : List Counter) (record : HealthRecord) : HealthRecord :=
  counters.foldl (fun record counter => counter.store record (counter.exact log)) record

theorem field_storeAll_of_independent (h : ∀ other ∈ counters, Independent counter other) :
    counter.field (storeAll log counters record) = counter.field record := by
  induction counters generalizing record with
  | nil => rfl
  | cons other counters ih =>
    rw [List.forall_mem_cons] at h
    exact (ih h.2).trans (h.1 _ _)

theorem field_storeAll (h : counters.Pairwise fun counter other => Independent counter other)
    (hmem : counter ∈ counters) :
    counter.field (storeAll log counters record) = (true, counter.exact log) := by
  induction counters generalizing record with
  | nil => cases hmem
  | cons first counters ih =>
    rw [List.pairwise_cons] at h
    rcases List.mem_cons.mp hmem with rfl | hmem
    · exact (field_storeAll_of_independent h.1).trans (counter.field_store _ _)
    · exact ih h.2 hmem

theorem identifier_storeAll (h : ∀ counter ∈ counters, counter.WellPlaced) :
    (storeAll log counters record).identifier = record.identifier := by
  induction counters generalizing record with
  | nil => rfl
  | cons first counters ih =>
    rw [List.forall_mem_cons] at h
    exact (ih h.2).trans (h.1.identifier _ _)

/-- The blocks store counters as long as these fit. -/
theorem storeCounters_append (hlog : 512 ≤ log.length) (before : List Counter)
    (hplaced : ∀ counter ∈ before, counter.WellPlaced)
    (hfits : ∀ counter ∈ before, counter.exact log ≤ uint64Max) :
    storeCounters log (before ++ counters) record =
      storeCounters log counters (storeAll log before record) := by
  induction before generalizing record with
  | nil => rfl
  | cons first before ih =>
    rw [List.forall_mem_cons] at hplaced hfits
    rw [List.cons_append, storeCounters_cons hlog hplaced.1, if_pos hfits.1, ih hplaced.2 hfits.2]
    rfl

theorem storeCounters_of_large (hlog : 512 ≤ log.length) (h : counter.WellPlaced)
    (hlarge : counter.exact log > uint64Max) :
    storeCounters log (counter :: counters) record = (fail .valueTooLarge, record) := by
  rw [storeCounters_cons hlog h, if_neg (by omega)]

end Counters

section Log
variable {log : List UInt8} {record : HealthRecord}

/-- The percentages of the spare are percentages. -/
def SpareInRange (log : List UInt8) : Prop :=
  (log.getD 3 0).toNat ≤ 100 ∧ (log.getD 4 0).toNat ≤ 100

instance (log : List UInt8) : Decidable (SpareInRange log) := inferInstanceAs (Decidable (_ ∧ _))

theorem storeTemperature_eq (tempKelvin : ℕ) (record : HealthRecord) : ∃ has celsius,
    storeTemperature tempKelvin record =
      { record with hasTemperatureCelsius := has, temperatureCelsius := celsius } := by
  unfold storeTemperature
  dsimp only
  split_ifs <;> exact ⟨_, _, rfl⟩

theorem storeCondition_eq (warning spare threshold used : ℕ) (record : HealthRecord) :
    ∃ failure status, storeCondition warning spare threshold used record = { record with
      hasAvailableSparePercent := true
      availableSparePercent := spare
      hasPercentUsed := true
      percentUsed := used
      hasFailurePredicted := true
      failurePredicted := failure
      status := status } := by
  unfold storeCondition
  dsimp only
  split_ifs <;> exact ⟨_, _, rfl⟩

/-- What is stored before the counters. -/
def storeGeneral (log : List UInt8) (record : HealthRecord) : HealthRecord :=
  storeCondition (log.getD 0 0).toNat (log.getD 3 0).toNat (log.getD 4 0).toNat
    (log.getD 5 0).toNat
    (storeTemperature ((log.getD 1 0).toNat ||| (log.getD 2 0).toNat <<< 8) record)

/-- It leaves their fields and the identifier alone. -/
theorem field_storeGeneral : (storeGeneral log record).identifier = record.identifier ∧
    ∀ counter ∈ nvmeCounters, counter.field (storeGeneral log record) = counter.field record := by
  rw [storeGeneral]
  obtain ⟨has, celsius, htemperature⟩ := storeTemperature_eq
    ((log.getD 1 0).toNat ||| (log.getD 2 0).toNat <<< 8) record
  rw [htemperature]
  obtain ⟨failure, status, hcondition⟩ := storeCondition_eq (log.getD 0 0).toNat
    (log.getD 3 0).toNat (log.getD 4 0).toNat (log.getD 5 0).toNat
    { record with hasTemperatureCelsius := has, temperatureCelsius := celsius }
  rw [hcondition]
  refine ⟨rfl, ?_⟩
  simp only [nvmeCounters, List.forall_mem_cons, List.not_mem_nil, false_imp_iff, implies_true,
    and_true]
  exact ⟨rfl, rfl, rfl, rfl, rfl, rfl⟩

theorem parseNvmeSmartLogBuffer_eq (hlog : 512 ≤ log.length) :
    parseNvmeSmartLogBuffer (some log) record =
      if (log.getD 3 0).toNat > 100 ∨ (log.getD 4 0).toNat > 100 then (fail .malformedData, record)
      else storeCounters log nvmeCounters (storeGeneral log record) := by
  rw [parseNvmeSmartLogBuffer, if_neg (by omega)]
  rfl

end Log

/-- A log in which the percentages of the spare are percentages is accepted if and only if
all counters fit, and then reports them exactly; otherwise the record is left as it was, or
the first counter that does not fit is named by the error, and neither its field nor those
behind it nor the identifier have been touched. -/
theorem parse_nvme_smart_log_buffer (log : List UInt8) (record : HealthRecord)
    (hlog : log.length = 512) :
    (¬ SpareInRange log →
      parseNvmeSmartLogBuffer (some log) record = (fail .malformedData, record)) ∧
    (SpareInRange log → (∀ counter ∈ nvmeCounters, counter.exact log ≤ uint64Max) →
      (parseNvmeSmartLogBuffer (some log) record).1 = .ok () ∧
      ∀ counter ∈ nvmeCounters,
        counter.field (parseNvmeSmartLogBuffer (some log) record).2 = (true, counter.exact log)) ∧
    (SpareInRange log → ∀ before counter behind, nvmeCounters = before ++ counter :: behind →
      (∀ other ∈ before, other.exact log ≤ uint64Max) → counter.exact log > uint64Max →
      (parseNvmeSmartLogBuffer (some log) record).1 = fail .valueTooLarge ∧
      (∀ other ∈ before,
        other.field (parseNvmeSmartLogBuffer (some log) record).2 = (true, other.exact log)) ∧
      (∀ other ∈ counter :: behind,
        other.field (parseNvmeSmartLogBuffer (some log) record).2 = other.field record) ∧
      (parseNvmeSmartLogBuffer (some log) record).2.identifier = record.identifier) := by
  have hle : 512 ≤ log.length := hlog.ge
  obtain ⟨hidentifier, hfields⟩ := @field_storeGeneral log record
  have hplaced := wellPlaced_nvmeCounters
  have hindependent := independent_nvmeCounters
  rw [parseNvmeSmartLogBuffer_eq hle]
  refine ⟨?_, ?_, ?_⟩
  · intro hspare
    rw [SpareInRange] at hspare
    rw [if_pos (by omega)]
  · intro hspare hfits
    rw [SpareInRange] at hspare
    rw [if_neg (by omega), ← List.append_nil nvmeCounters,
      storeCounters_append hle nvmeCounters hplaced hfits, List.append_nil]
    exact ⟨rfl, fun counter hcounter => field_storeAll (hindependent.imp fun h => h.1) hcounter⟩
  · intro hspare before counter behind heq hfits hlarge
    rw [SpareInRange] at hspare
    rw [heq] at hplaced hindependent hfields
    rw [List.forall_mem_append] at hplaced hfields
    rw [List.pairwise_append] at hindependent
    obtain ⟨hbefore, _, hacross⟩ := hindependent
    rw [if_neg (by omega), heq, storeCounters_append hle before hplaced.1 hfits,
      storeCounters_of_large hle (hplaced.2 counter (by simp)) hlarge]
    refine ⟨rfl, ?_, ?_, ?_⟩
    · exact fun other hother => field_storeAll (hbefore.imp fun h => h.1) hother
    · intro other hother
      rw [← hfields.2 other hother]
      exact field_storeAll_of_independent fun first hfirst => (hacross first hfirst other hother).2
    · rw [← hidentifier]
      exact identifier_storeAll hplaced.1

/-- The log of a drive that has been powered on 42 times. -/
def quietLog : List UInt8 :=
  List.replicate 112 0 ++ [42] ++ List.replicate 399 0

theorem parse_nvme_smart_log_buffer_quiet :
    powerCycles.field (parseNvmeSmartLogBuffer (some quietLog) { identifier := [] }).2 =
      (true, 42) :=
  ((parse_nvme_smart_log_buffer quietLog { identifier := [] } (by decide +kernel)).2.1
    (by decide +kernel) (by decide +kernel)).2 powerCycles (by simp [nvmeCounters])

/-- A log whose first counter is 2 to the power of 64: the call fails, and the record says
how much of the drive has been used. -/
theorem refused_log_is_stored :
    (parseNvmeSmartLogBuffer (some (List.replicate 40 0 ++ [1] ++ List.replicate 471 0))
        { identifier := [] }).1 = fail .valueTooLarge ∧
      (parseNvmeSmartLogBuffer (some (List.replicate 40 0 ++ [1] ++ List.replicate 471 0))
        { identifier := [] }).2 ≠ { identifier := [] } := by
  decide +kernel

end Syscape.Storage
