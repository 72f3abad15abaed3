import Syscape.CgroupEntries

/-!
# The record of the current cgroup

The controllers and the effective limits of the cgroup that the process is in: from the unified
hierarchy, and from the hierarchies of single controllers for what that one leaves open.
-/
namespace Syscape.Cgroup
open Checked Text LinuxFile

section Limits

/-- A file of a directory that sets a limit, in `read_effective_cgroup_limit`. -/
def levelLimit (fs : FileSystem) (fullPath : Path) : Result (Option (Option ℕ)) :=
  match statError fs fullPath with
  | some errno => if errno = enoent then .ok none else failErrno errno
  | none => do
    let content ← readTextFile fs fullPath 256
    let limit ← parseCgroupLimitValue content
    .ok (some limit)

/-- The least limit so far. -/
def mergeLimit (minLimit limit : Option ℕ) : Option ℕ :=
  match limit, minLimit with
  | some n, some least => some (min least n)
  | some n, none => some n
  | none, _ => minLimit

/-- The loop of `read_effective_cgroup_limit`: the least limit, and whether there is any file. -/
def readLimitLevels (fs : FileSystem) (filename : List UInt8) (state : Option ℕ × Bool) :
    List Path → Result (Option ℕ × Bool)
  | [] => .ok state
  | dir :: dirs => do
    match ← levelLimit fs (joinPath dir filename) with
    | none => readLimitLevels fs filename state dirs
    | some limit => readLimitLevels fs filename (mergeLimit state.1 limit, true) dirs

/-- `read_effective_cgroup_limit`. -/
def readEffectiveCgroupLimit (fs : FileSystem) (ancestorDirs : List Path)
    (filename : List UInt8) : Result (Option ℕ) := do
  let (minLimit, foundAnyFile) ← readLimitLevels fs filename (none, false) ancestorDirs
  if !foundAnyFile then
    if filename = ascii "memory.swap.max" ∨ filename = ascii "memory.high" then .ok none
    else fail .notFound
  else .ok minLimit

end Limits

section Controllers

/-- What the queries ask the kernel for besides the contents of files: the type of the file
system at `/sys/fs/cgroup`, and which paths are directories. -/
structure Mountpoints where
  sysFsCgroup : Option ℕ
  isDirectory : Path → Bool

/-- `find_cgroup1_controller_mount`. -/
def findCgroup1ControllerMount (kernel : Mountpoints) (mounts : List CgroupMountInfo)
    (controllerName : List UInt8) (procCgroupPath : Path) : Option (Path × Path) :=
  match findMount (fun m => decide (m.fstype = ascii "cgroup" ∧ controllerName ∈ m.options)) mounts
    procCgroupPath with
  | some found => some found
  | none =>
    let candidate := ascii "/sys/fs/cgroup/" ++ controllerName
    if mounts = [] ∧ kernel.isDirectory candidate then some (candidate, ascii "/") else none

/-- `std::sort` of texts. -/
def sortTexts (texts : List (List UInt8)) : List (List UInt8) :=
  texts.mergeSort fun a b => decide (a.map UInt8.toNat ≤ b.map UInt8.toNat)

/-- `read_cgroup2_controllers`. -/
def readCgroup2Controllers (fs : FileSystem) (targetDir : Path) : Result (List (List UInt8)) :=
  let ctrlFile := targetDir ++ ascii "/cgroup.controllers"
  match statError fs ctrlFile with
  | some errno => if errno = enoent then fail .notFound else failErrno errno
  | none => do
    let ctrlContent ← readTextFile fs ctrlFile 1024
    .ok (sortTexts (splitWhitespace ctrlContent))

/-- The path of `/proc/self/cgroup`. -/
def procSelfCgroup : Path := ascii "/proc/self/cgroup"

/-- The magic number of a legacy hierarchy. -/
def cgroup1Magic : ℕ := 0x27e0eb

/-- `detect_cgroup_version`. -/
def detectCgroupVersion (fs : FileSystem) (kernel : Mountpoints) : Result CgroupVersion := do
  let cgroupContent ← readTextFile fs procSelfCgroup (16 * 1024)
  let parsedInfo ← parseCgroupProcFileDetailed cgroupContent
  if parsedInfo.version ≠ .none then .ok parsedInfo.version
  else if kernel.sysFsCgroup = some cgroup2Magic then .ok .v2
  else if kernel.sysFsCgroup = some cgroup1Magic then .ok .v1
  else .ok .none

end Controllers

section Record

/-- `cgroup_limits`. -/
structure CgroupLimits where
  memoryMaxBytes : Option ℕ := none
  memoryHighBytes : Option ℕ := none
  memorySwapMaxBytes : Option ℕ := none
  cpu : CpuLimit := ⟨none, none⟩
  pidsMax : Option ℕ := none
  deriving DecidableEq, Repr

/-- `cgroup_record`. -/
structure CgroupRecord where
  version : CgroupVersion := .none
  path : Path := []
  limits : CgroupLimits := {}
  controllers : List (List UInt8) := []
  deriving DecidableEq, Repr

/-- What is read only if a controller is there. -/
def whenPresent {α : Type} (present : Bool) (absent : α) (read : Result α) : Result α :=
  if present then read else .ok absent

/-- The limits of the unified hierarchy, for the directories of the cgroup. -/
def unifiedLimits (fs : FileSystem) (ancestorDirs : List Path) (controllers : List (List UInt8)) :
    Result CgroupLimits := do
  let memory := decide (ascii "memory" ∈ controllers)
  let memoryMaxBytes ←
    whenPresent memory none (readEffectiveCgroupLimit fs ancestorDirs (ascii "memory.max"))
  let memoryHighBytes ←
    whenPresent memory none (readEffectiveCgroupLimit fs ancestorDirs (ascii "memory.high"))
  let memorySwapMaxBytes ←
    whenPresent memory none (readEffectiveCgroupLimit fs ancestorDirs (ascii "memory.swap.max"))
  let cpu ← whenPresent (decide (ascii "cpu" ∈ controllers)) ⟨none, none⟩
    (readEffectiveCpuMax fs ancestorDirs)
  let pidsMax ← whenPresent (decide (ascii "pids" ∈ controllers)) none
    (readEffectiveCgroupLimit fs ancestorDirs (ascii "pids.max"))
  .ok { memoryMaxBytes, memoryHighBytes, memorySwapMaxBytes, cpu, pidsMax }

/-- The first part of `detect_current_cgroup`, for the unified hierarchy. -/
def detectUnified (fs : FileSystem) (kernel : Mountpoints) (parsedInfo : ParsedCgroupInfo)
    (mounts : List CgroupMountInfo) : Result CgroupRecord :=
  let path := if parsedInfo.v2Path ≠ [] then parsedInfo.v2Path else ascii "/"
  match findCgroup2Mount kernel.sysFsCgroup mounts path with
  | none => fail .notFound
  | some (v2Mount, v2Root) =>
    match getCgroupAncestorDirs v2Mount v2Root path with
    | [] => .ok { version := parsedInfo.version, path }
    | target :: parents => do
      let controllers ← readCgroup2Controllers fs target
      let limits ← unifiedLimits fs (target :: parents) controllers
      .ok { version := parsedInfo.version, path, limits, controllers }

/-- The controllers of the other hierarchies, without the names of hierarchies that have none. -/
def legacyControllers (parsedInfo : ParsedCgroupInfo) : List (List UInt8) :=
  (parsedInfo.v1Hierarchies.flatMap CgroupV1Hierarchy.controllers).filter fun ctrl =>
    decide (ctrl ≠ [] ∧ ¬ ascii "name=" <+: ctrl)

/-- A controller is added unless it is there. -/
def addController (controllers : List (List UInt8)) (ctrl : List UInt8) : List (List UInt8) :=
  if ctrl ∈ controllers then controllers else controllers ++ [ctrl]

/-- `get_v1_controller_info`: the path in the hierarchy of the controller. -/
def getV1ControllerInfo (parsedInfo : ParsedCgroupInfo) (name : List UInt8) : Option Path :=
  (parsedInfo.v1Hierarchies.find? fun hier => decide (name ∈ hier.controllers)).map
    CgroupV1Hierarchy.path

/-- A limit of a controller with a hierarchy of its own. -/
def legacyLimit (fs : FileSystem) (kernel : Mountpoints) (mounts : List CgroupMountInfo)
    (parsedInfo : ParsedCgroupInfo) (name filename : List UInt8) (known : Option ℕ) :
    Result (Option ℕ) :=
  match known, getV1ControllerInfo parsedInfo name with
  | none, some rel =>
    match findCgroup1ControllerMount kernel mounts name rel with
    | none => fail .notFound
    | some (mount, root) =>
      readEffectiveCgroupLimit fs (getCgroupAncestorDirs mount root rel) filename
  | _, _ => .ok known

/-- The CPU limit of a hierarchy of its own. -/
def legacyCpu (fs : FileSystem) (kernel : Mountpoints) (mounts : List CgroupMountInfo)
    (parsedInfo : ParsedCgroupInfo) (known : CpuLimit) : Result CpuLimit :=
  let info := (getV1ControllerInfo parsedInfo (ascii "cpu")).or
    (getV1ControllerInfo parsedInfo (ascii "cpuacct"))
  match known.quotaUs, info with
  | none, some rel =>
    match (findCgroup1ControllerMount kernel mounts (ascii "cpu") rel).or
      (findCgroup1ControllerMount kernel mounts (ascii "cpu,cpuacct") rel) with
    | none => fail .notFound
    | some (mount, root) => readEffectiveCgroup1Cpu fs (getCgroupAncestorDirs mount root rel)
  | _, _ => .ok known

/-- The path of the record if the unified hierarchy gives none. -/
def legacyPath (parsedInfo : ParsedCgroupInfo) (path : Path) : Path :=
  if path = [] ∨ path = ascii "/" then
    match parsedInfo.v1Hierarchies with
    | [] => ascii "/"
    | hier :: _ => hier.path
  else path

/-- The second part of `detect_current_cgroup`, for the hierarchies of single controllers. -/
def detectLegacy (fs : FileSystem) (kernel : Mountpoints) (parsedInfo : ParsedCgroupInfo)
    (mounts : List CgroupMountInfo) (record : CgroupRecord) : Result CgroupRecord := do
  let controllers := sortTexts ((legacyControllers parsedInfo).foldl addController record.controllers)
  let limit := legacyLimit fs kernel mounts parsedInfo
  let memoryMaxBytes ←
    limit (ascii "memory") (ascii "memory.limit_in_bytes") record.limits.memoryMaxBytes
  let cpu ← legacyCpu fs kernel mounts parsedInfo record.limits.cpu
  let pidsMax ← limit (ascii "pids") (ascii "pids.max") record.limits.pidsMax
  .ok { record with
    path := legacyPath parsedInfo record.path
    limits := { record.limits with memoryMaxBytes, cpu, pidsMax }
    controllers }

/-- `detect_current_cgroup`. -/
def detectCurrentCgroup (fs : FileSystem) (kernel : Mountpoints) : Result CgroupRecord := do
  let cgroupContent ← readTextFile fs procSelfCgroup (16 * 1024)
  let parsedInfo ← parseCgroupProcFileDetailed cgroupContent
  if parsedInfo.version = .none then .ok {}
  else do
    let mounts ← readCgroupMounts fs
    let record ←
      if parsedInfo.version = .v2 ∨ parsedInfo.version = .hybrid then
        detectUnified fs kernel parsedInfo mounts
      else .ok { version := parsedInfo.version }
    if parsedInfo.version = .v1 ∨ parsedInfo.version = .hybrid then
      detectLegacy fs kernel parsedInfo mounts record
    else .ok record

end Record

end Syscape.Cgroup
