import Syscape.MountFields
import Syscape.Lib.Lines
import Syscape.Lib.Paths

/-!
# Mounts of cgroup file systems

The cgroup mounts of the process, from its mount table; the most specific mount that
covers a cgroup path; and the directories under that mount, from the cgroup of the process
up to the mount point.
-/
namespace Syscape.Cgroup
open Checked Text LinuxFile Lines Paths

section Reading

/-- `cgroup_mount_info`. -/
structure CgroupMountInfo where
  root : Path
  mountPoint : Path
  fstype : List UInt8
  options : List (List UInt8)
  deriving DecidableEq, Repr

/-- `split_commas`. -/
def splitCommas (text : List UInt8) : List (List UInt8) :=
  ((lines 0x2C text).map trimSignature).filter (· ≠ [])

/-- The file systems that the mount table is searched for. -/
def isCgroupType (fstype : List UInt8) : Bool :=
  fstype == ascii "cgroup" || fstype == ascii "cgroup2"

/-- A line of `/proc/mounts`. -/
def mountsEntry (line : List UInt8) : Option CgroupMountInfo :=
  match splitWhitespace line with
  | _ :: mountPoint :: fstype :: options :: _ =>
    if isCgroupType fstype then
      some ⟨ascii "/", unescapeMountinfoPath mountPoint, fstype, splitCommas options⟩
    else none
  | _ => none

/-- A line of `/proc/self/mountinfo`. -/
def mountinfoEntry (line : List UInt8) : Option CgroupMountInfo :=
  let tokens := splitWhitespace line
  let sepIdx := (tokens.idxOf? (ascii "-")).getD 0
  if sepIdx ≥ 6 ∧ tokens.length ≥ sepIdx + 4 then
    let fstype := tokens.getD (sepIdx + 1) []
    if isCgroupType fstype then
      some ⟨unescapeMountinfoPath (tokens.getD 3 []), unescapeMountinfoPath (tokens.getD 4 []),
        fstype, splitCommas (tokens.getD (sepIdx + 3) [])⟩
    else none
  else none

/-- `read_cgroup_mounts`. -/
def readCgroupMounts (fs : FileSystem) : Result (List CgroupMountInfo) :=
  match readTextFile fs (ascii "/proc/self/mountinfo") (2 * 1024 * 1024) with
  | .ok content => .ok ((lines 0x0A content).filterMap mountinfoEntry)
  | .error e =>
    if isNoSuchFile e then do
      let content ← readTextFile fs (ascii "/proc/mounts") (2 * 1024 * 1024)
      .ok ((lines 0x0A content).filterMap mountsEntry)
    else .error e

theorem mountsEntry_type {line : List UInt8} {m : CgroupMountInfo}
    (h : mountsEntry line = some m) : isCgroupType m.fstype = true := by
  unfold mountsEntry at h
  split at h
  · split_ifs at h with htype
    cases h
    exact htype
  · cases h

theorem mountinfoEntry_type {line : List UInt8} {m : CgroupMountInfo}
    (h : mountinfoEntry line = some m) : isCgroupType m.fstype = true := by
  unfold mountinfoEntry at h
  dsimp only at h
  split_ifs at h with hfields htype
  cases h
  exact htype

/-- Only mounts of cgroup file systems are read. -/
theorem readCgroupMounts_types {fs : FileSystem} {mounts : List CgroupMountInfo}
    (h : readCgroupMounts fs = .ok mounts) : ∀ m ∈ mounts, isCgroupType m.fstype = true := by
  intro m hm
  unfold readCgroupMounts at h
  split at h
  · cases h
    obtain ⟨line, -, hline⟩ := List.mem_filterMap.mp hm
    exact mountinfoEntry_type hline
  · split_ifs at h
    obtain ⟨content, -, hcontent⟩ := bind_eq_ok.mp h
    cases hcontent
    obtain ⟨line, -, hline⟩ := List.mem_filterMap.mp hm
    exact mountsEntry_type hline

end Reading

section Searching

/-- `is_mount_root_prefix`. -/
def isMountRootPrefix (mountRoot procCgroupPath : Path) : Bool :=
  mountRoot = [] ∨ mountRoot = ascii "/" ∨ mountRoot = procCgroupPath ∨
    (procCgroupPath.length > mountRoot.length ∧ mountRoot <+: procCgroupPath ∧
      procCgroupPath[mountRoot.length]? = some 0x2F)

/-- The locals and the output parameters of the searches. -/
structure MountSearch where
  found : Bool
  longestRootLen : ℕ
  mountPoint : Path
  mountRoot : Path
  deriving DecidableEq, Repr

/-- One mount of the table; which mounts are eligible is what the searches differ in. -/
def considerMount (eligible : CgroupMountInfo → Bool) (procCgroupPath : Path) (s : MountSearch)
    (m : CgroupMountInfo) : MountSearch :=
  if eligible m ∧ isMountRootPrefix m.root procCgroupPath then
    if !s.found ∨ m.root.length > s.longestRootLen then
      ⟨true, m.root.length, m.mountPoint, m.root⟩
    else s
  else s

/-- The loop of the searches; the result is the mount point and the mount root. -/
def findMount (eligible : CgroupMountInfo → Bool) (mounts : List CgroupMountInfo)
    (procCgroupPath : Path) : Option (Path × Path) :=
  let s := mounts.foldl (considerMount eligible procCgroupPath) ⟨false, 0, [], []⟩
  if s.found then some (s.mountPoint, s.mountRoot) else none

/-- The magic number of the unified hierarchy. -/
def cgroup2Magic : ℕ := 0x63677270

/-- `find_cgroup2_mount`; the answer of `statfs` about `/sys/fs/cgroup`, a file system type,
is a parameter. -/
def findCgroup2Mount (sysFsCgroup : Option ℕ) (mounts : List CgroupMountInfo)
    (procCgroupPath : Path) : Option (Path × Path) :=
  match findMount (fun m => m.fstype = ascii "cgroup2") mounts procCgroupPath with
  | some found => some found
  | none =>
    if mounts = [] ∧ sysFsCgroup = some cgroup2Magic then
      some (ascii "/sys/fs/cgroup", ascii "/")
    else none

end Searching

section Directories

/-- Slashes at the end, except at the beginning. -/
def dropTrailingSlashes (path : Path) : Path :=
  if path.length > 1 ∧ path.getLast? = some 0x2F then dropTrailingSlashes path.dropLast
  else path
termination_by path.length
decreasing_by simp; omega

/-- The path of the cgroup under the mount root. -/
def relativePath (mountRoot procCgroupPath : Path) : Path :=
  let relPath :=
    if mountRoot = ascii "/" ∨ mountRoot = [] then procCgroupPath
    else if procCgroupPath = mountRoot then []
    else if procCgroupPath.length > mountRoot.length ∧ mountRoot <+: procCgroupPath ∧
        procCgroupPath[mountRoot.length]? = some 0x2F then procCgroupPath.drop mountRoot.length
    else []
  let relPath := dropTrailingSlashes relPath
  if relPath = ascii "/" then [] else relPath

/-- The directory of a relative path. -/
def fullPath (mountPoint current : Path) : Path :=
  joinPath mountPoint (if current.head? = some 0x2F then current.drop 1 else current)

/-- The truncation loop; the mount point comes behind its directories. -/
def ancestorsFrom (mountPoint current : Path) : List Path :=
  if current = [] then [mountPoint]
  else
    fullPath mountPoint current ::
      match _h : rfind 0x2F current with
      | none => [mountPoint]
      | some lastSlash =>
        if lastSlash = 0 then [mountPoint]
        else ancestorsFrom mountPoint (current.take lastSlash)
termination_by current.length
decreasing_by
  have := rfind_lt _h
  simp only [List.length_take]
  omega

/-- `get_cgroup_ancestor_dirs`. -/
def getCgroupAncestorDirs (mountPoint mountRoot procCgroupPath : Path) : List Path :=
  ancestorsFrom mountPoint (relativePath mountRoot procCgroupPath)

end Directories

end Syscape.Cgroup
