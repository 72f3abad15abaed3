import Syscape.LinuxFile
import Syscape.Lib.Digits

/-!
# Effective CPU limits of a cgroup hierarchy

The number parsers of the cgroup files, the exact comparison of two quota/period
ratios, and the two readers that fold the limits of all levels from the leaf to the
mount point: `cpu.max` of the unified hierarchy, and `cpu.cfs_quota_us` with
`cpu.cfs_period_us` of the legacy one.
-/
namespace Syscape.Cgroup
open Checked Text LinuxFile

/-- `UINT64_MAX`. -/
def uint64Max : ℕ := 2 ^ 64 - 1

/-- The white space of `split_whitespace`. -/
def isSpace (c : UInt8) : Bool := c == 0x20 || c == 0x09 || c == 0x0D || c == 0x0A

/-- The bytes that `trim_signature` removes: white space and NUL. -/
def isPadding (c : UInt8) : Bool := c == 0x00 || isSpace c

/-- `trim_signature`: first the end, then the front. -/
def trimSignature (input : List UInt8) : List UInt8 :=
  (input.rdropWhile isPadding).dropWhile isPadding

/-- `split_whitespace`. -/
def splitWhitespace (text : List UInt8) : List (List UInt8) := splitBlank isSpace text

/-- The digit loop that all the cgroup parsers contain, with its guard against
overflow before each step. -/
def accumulateDecimal (value : ℕ) : List UInt8 → Result ℕ
  | [] => .ok value
  | c :: text =>
    if c < 0x30 ∨ c > 0x39 then fail .malformedData
    else
      let digit := c.toNat - 0x30
      if value > (uint64Max - digit) / 10 then fail .malformedData
      else accumulateDecimal (value * 10 + digit) text

/-- `parse_cgroup_limit_value`. -/
def parseCgroupLimitValue (text : List UInt8) : Result (Option ℕ) :=
  let trimmed := trimSignature text
  if trimmed = [] then fail .malformedData
  else if trimmed = ascii "max" then .ok none
  else if trimmed = ascii "-1" then .ok none
  else if trimmed.head? = some 0x2D then fail .malformedData
  else do
    let value ← accumulateDecimal 0 trimmed
    -- near `INT64_MAX` the kernel means that there is no limit
    if value ≥ 0x7FFFFFFFFFFFF000 then return none
    else return some value

/-- `parse_cgroup1_cpu_quota_value`. -/
def parseCgroup1CpuQuotaValue (text : List UInt8) : Result (Option ℕ) :=
  let trimmed := trimSignature text
  if trimmed = ascii "-1" then .ok none
  else if trimmed = [] ∨ trimmed.head? = some 0x2D then fail .malformedData
  else do
    let value ← accumulateDecimal 0 trimmed
    if value = 0 ∨ value > 9223372036854775807 then fail .malformedData
    else return some value

/-- The quota of `parse_cgroup_cpu_max`. -/
def parseQuotaToken (quotaTok : List UInt8) : Result (Option ℕ) :=
  if quotaTok = ascii "max" then .ok none
  else do
    match ← parseCgroupLimitValue quotaTok with
    | none => fail .malformedData
    | some q => if q = 0 then fail .malformedData else return some q

/-- The period of `parse_cgroup_cpu_max`, which is never `max`, negative or zero. -/
def parsePeriodToken (periodTok : List UInt8) : Result ℕ :=
  if periodTok = [] ∨ periodTok = ascii "max" ∨ periodTok.head? = some 0x2D then
    fail .malformedData
  else do
    let period ← accumulateDecimal 0 periodTok
    if period = 0 then fail .malformedData
    else return period

/-- `parse_cgroup_cpu_max`; the two output parameters are the result. -/
def parseCgroupCpuMax (text : List UInt8) : Result (Option ℕ × Option ℕ) :=
  match splitWhitespace text with
  | [quotaTok, periodTok] => do
    let quota ← parseQuotaToken quotaTok
    let period ← parsePeriodToken periodTok
    return (quota, some period)
  | _ => fail .malformedData

/-- The loop of `positive_ratio_less`. -/
def positiveRatioLessFrom (inverted : Bool) (lhsNumerator lhsDenominator rhsNumerator
    rhsDenominator : ℕ) : Result Bool :=
  if lhsDenominator = 0 ∨ rhsDenominator = 0 then .error .divideByZero
  else
    let lhsQuotient := lhsNumerator / lhsDenominator
    let rhsQuotient := rhsNumerator / rhsDenominator
    if lhsQuotient ≠ rhsQuotient then
      .ok (if inverted then decide (lhsQuotient > rhsQuotient)
        else decide (lhsQuotient < rhsQuotient))
    else
      let lhsRemainder := lhsNumerator % lhsDenominator
      let rhsRemainder := rhsNumerator % rhsDenominator
      if lhsRemainder = 0 ∨ rhsRemainder = 0 then
        if lhsRemainder = 0 ∧ rhsRemainder = 0 then .ok false
        else
          let lessBeforeInversion := decide (lhsRemainder = 0)
          .ok (if inverted then !lessBeforeInversion else lessBeforeInversion)
      else
        positiveRatioLessFrom (!inverted) lhsDenominator lhsRemainder rhsDenominator rhsRemainder
termination_by lhsDenominator
decreasing_by exact Nat.mod_lt _ (by omega)

/-- `positive_ratio_less`. -/
def positiveRatioLess (lhsNumerator lhsDenominator rhsNumerator rhsDenominator : ℕ) :
    Result Bool :=
  positiveRatioLessFrom false lhsNumerator lhsDenominator rhsNumerator rhsDenominator

/-- The two output parameters of the readers. -/
structure CpuLimit where
  quotaUs : Option ℕ
  periodUs : Option ℕ
  deriving DecidableEq, Repr

section Unified

/-- The locals of `read_effective_cpu_max` across its loop. -/
structure CpuMaxState where
  effective : CpuLimit
  foundAnyFile : Bool
  deriving DecidableEq, Repr

/-- How one level of the unified hierarchy changes the effective limit. -/
def mergeCpuMax (effective : CpuLimit) (levelQuota levelPeriod : Option ℕ) : Result CpuLimit :=
  let period := match levelPeriod, effective.periodUs with
    | some p, none => some p
    | _, kept => kept
  match levelQuota with
  | none => .ok ⟨effective.quotaUs, period⟩
  | some q =>
    let p := levelPeriod.getD 100000
    match effective.quotaUs with
    | none => .ok ⟨some q, some p⟩
    | some curQ => do
      let less ← positiveRatioLess q p curQ (period.getD 100000)
      if less then return ⟨some q, some p⟩
      else return ⟨some curQ, period⟩

/-- The loop of `read_effective_cpu_max` over the directories. -/
def readCpuMaxLevels (fs : FileSystem) (state : CpuMaxState) : List Path → Result CpuMaxState
  | [] => .ok state
  | dir :: dirs =>
    let fullPath := joinPath dir (ascii "cpu.max")
    match statError fs fullPath with
    | some errno =>
      if errno = enoent then readCpuMaxLevels fs state dirs else failErrno errno
    | none => do
      let content ← readTextFile fs fullPath 256
      let (levelQuota, levelPeriod) ← parseCgroupCpuMax content
      let effective ← mergeCpuMax state.effective levelQuota levelPeriod
      readCpuMaxLevels fs ⟨effective, true⟩ dirs

/-- `read_effective_cpu_max`. -/
def readEffectiveCpuMax (fs : FileSystem) (ancestorDirs : List Path) : Result CpuLimit := do
  let state ← readCpuMaxLevels fs ⟨⟨none, none⟩, false⟩ ancestorDirs
  if !state.foundAnyFile then fail .notFound
  else return state.effective

end Unified

section Legacy

/-- The locals of `read_effective_cgroup1_cpu` across its loop; `best` is the pair of
`best_quota` and `best_period`, which count once `found_constrained` is set. -/
structure Cgroup1State where
  foundAnyFile : Bool
  foundConstrained : Bool
  best : ℕ × ℕ
  firstPeriod : Option ℕ
  deriving DecidableEq, Repr

/-- The period of one level of the legacy hierarchy. -/
def parseCgroup1Period (content : List UInt8) : Result ℕ :=
  let text := trimSignature content
  if text = [] then fail .malformedData
  else do
    let period ← accumulateDecimal 0 text
    if period = 0 then fail .malformedData
    else return period

/-- How one level of the legacy hierarchy changes the loop state. -/
def mergeCgroup1 (state : Cgroup1State) (quota : Option ℕ) (period : ℕ) : Result Cgroup1State := do
  let firstPeriod := match state.firstPeriod with
    | none => some period
    | kept => kept
  match quota with
  | none => return ⟨true, state.foundConstrained, state.best, firstPeriod⟩
  | some q =>
    let better ←
      if !state.foundConstrained then (.ok true : Result Bool)
      else positiveRatioLess q period state.best.1 state.best.2
    if better then return ⟨true, true, (q, period), firstPeriod⟩
    else return ⟨true, state.foundConstrained, state.best, firstPeriod⟩

/-- The loop of `read_effective_cgroup1_cpu` over the directories. -/
def readCgroup1Levels (fs : FileSystem) (state : Cgroup1State) :
    List Path → Result Cgroup1State
  | [] => .ok state
  | dir :: dirs =>
    let quotaPath := joinPath dir (ascii "cpu.cfs_quota_us")
    let periodPath := joinPath dir (ascii "cpu.cfs_period_us")
    match statError fs quotaPath with
    | some errno =>
      if errno = enoent then readCgroup1Levels fs state dirs else failErrno errno
    | none => do
      let qContent ← readTextFile fs quotaPath 256
      let quota ← parseCgroup1CpuQuotaValue qContent
      match statError fs periodPath with
      | some errno => failErrno errno
      | none => do
        let pContent ← readTextFile fs periodPath 256
        let period ← parseCgroup1Period pContent
        let state ← mergeCgroup1 state quota period
        readCgroup1Levels fs state dirs

/-- `read_effective_cgroup1_cpu`. -/
def readEffectiveCgroup1Cpu (fs : FileSystem) (ancestorDirs : List Path) : Result CpuLimit := do
  let state ← readCgroup1Levels fs ⟨false, false, (0, 0), none⟩ ancestorDirs
  if !state.foundAnyFile then fail .notFound
  else if state.foundConstrained then return ⟨some state.best.1, some state.best.2⟩
  else return ⟨none, state.firstPeriod⟩

end Legacy

end Syscape.Cgroup
