import Syscape.CgroupRecord
import Syscape.CgroupDirectories
import Mathlib.Order.Bounds.Basic

/-!
# The limits of the current cgroup

A kernel shows the limits of each cgroup in files of its directory. What the query reports is,
for each resource, the least of the limits on the way from the cgroup of the process up to the
mount point of the hierarchy that has the controller.
-/
namespace Syscape.Cgroup
open Checked Text LinuxFile Digits Paths

section Kernel

/-- What a file with a limit says. -/
inductive LimitText where
  | max
  | minusOne
  | number (n : ℕ) (n_le : n ≤ uint64Max)

def LimitText.text : LimitText → List UInt8
  | max => ascii "max"
  | minusOne => ascii "-1"
  | number n _ => decimal n

/-- The limit; near `INT64_MAX` the kernel means that there is none. -/
def LimitText.limit : LimitText → Option ℕ
  | number n _ => if n ≥ 0x7FFFFFFFFFFFF000 then none else some n
  | _ => none

/-- The files that hold one limit. -/
inductive LimitFile where
  | memoryMax
  | memoryHigh
  | memorySwapMax
  | memoryLimitInBytes
  | pidsMax
  deriving DecidableEq, Repr

def LimitFile.filename : LimitFile → List UInt8
  | memoryMax => ascii "memory.max"
  | memoryHigh => ascii "memory.high"
  | memorySwapMax => ascii "memory.swap.max"
  | memoryLimitInBytes => ascii "memory.limit_in_bytes"
  | pidsMax => ascii "pids.max"

/-- Not every kernel has the file. -/
def LimitFile.optional : LimitFile → Bool
  | memoryHigh => true
  | memorySwapMax => true
  | _ => false

/-- The names in `cgroup.controllers`. -/
structure ControllerNames where
  names : List (List UInt8)
  solid : ∀ name ∈ names, name ≠ [] ∧ ∀ c ∈ name, isSpace c = false
  length_lt : ([0x20].intercalate names).length < 1024

def ControllerNames.text (names : ControllerNames) : List UInt8 := [0x20].intercalate names.names

/-- What the files of a directory say, as far as they are there. -/
structure Group where
  controllers : Option ControllerNames
  limits : LimitFile → Option LimitText
  cpuMax : Option CpuLevel
  cfs : Option CpuLevel

/-- The file holds the text, or there is no such file. -/
def Shows (fs : FileSystem) (path : Path) : Option (List UInt8) → Prop
  | none => fs path = .absent
  | some text => Holds fs path text

/-- The files of the directory. -/
structure ShowsGroup (fs : FileSystem) (dir : Path) (g : Group) : Prop where
  controllers : Shows fs (dir ++ ascii "/cgroup.controllers")
    (g.controllers.map ControllerNames.text)
  limits : ∀ file : LimitFile, Shows fs (joinPath dir file.filename)
    ((g.limits file).map LimitText.text)
  cpuMax : Shows fs (joinPath dir (ascii "cpu.max")) (g.cpuMax.map cpuMaxText)
  cfsQuota : Shows fs (joinPath dir (ascii "cpu.cfs_quota_us")) (g.cfs.map cfsQuotaText)
  cfsPeriod : Shows fs (joinPath dir (ascii "cpu.cfs_period_us")) (g.cfs.map cfsPeriodText)

/-- What a process sees of the cgroups: its entries, the mounts, and a file system that shows
what the kernel keeps for each directory. -/
structure Machine where
  fs : FileSystem
  kernel : Mountpoints
  group : Path → Group
  shows_group : ∀ dir, ShowsGroup fs dir (group dir)
  info : ParsedCgroupInfo
  info_read : (readTextFile fs procSelfCgroup (16 * 1024) >>= parseCgroupProcFileDetailed) = .ok info
  mounts : List CgroupMountInfo
  mounts_read : readCgroupMounts fs = .ok mounts

/-- What is limited. -/
inductive Resource where
  | memory
  | memoryHigh
  | memorySwap
  | cpu
  | pids
  deriving DecidableEq, Repr

/-- The controller of the unified hierarchy. -/
def Resource.controller : Resource → List UInt8
  | cpu => ascii "cpu"
  | pids => ascii "pids"
  | _ => ascii "memory"

/-- The controllers with hierarchies of their own. -/
def Resource.legacyControllers : Resource → List (List UInt8)
  | memory => [ascii "memory"]
  | cpu => [ascii "cpu", ascii "cpuacct"]
  | pids => [ascii "pids"]
  | _ => []

/-- The options of the mounts of these hierarchies. -/
def Resource.legacyMounts : Resource → List (List UInt8)
  | memory => [ascii "memory"]
  | cpu => [ascii "cpu", ascii "cpu,cpuacct"]
  | pids => [ascii "pids"]
  | _ => []

/-- There has to be a file for the resource in some directory. -/
def Resource.required : Resource → Bool
  | memoryHigh => false
  | memorySwap => false
  | _ => true

def LimitText.bound (text : LimitText) : Option ℚ := text.limit.map Nat.cast

/-- The share of a processor. -/
def CpuLevel.bound (level : CpuLevel) : Option ℚ := level.quota.map fun q : ℕ => (q : ℚ) / level.period

/-- The share that the readers report; without a period the kernel means its own one. -/
def CpuLimit.bound (limit : CpuLimit) : Option ℚ :=
  limit.quotaUs.map fun q : ℕ => (q : ℚ) / (limit.periodUs.getD 100000 : ℕ)

/-- The limit of a resource in the unified hierarchy, if there is a file for it. -/
def Group.unifiedBound (g : Group) : Resource → Option (Option ℚ)
  | .memory => (g.limits .memoryMax).map LimitText.bound
  | .memoryHigh => (g.limits .memoryHigh).map LimitText.bound
  | .memorySwap => (g.limits .memorySwapMax).map LimitText.bound
  | .cpu => g.cpuMax.map CpuLevel.bound
  | .pids => (g.limits .pidsMax).map LimitText.bound

/-- The limit of a resource in a hierarchy of its own, if there is a file for it. -/
def Group.legacyBound (g : Group) : Resource → Option (Option ℚ)
  | .memory => (g.limits .memoryLimitInBytes).map LimitText.bound
  | .cpu => g.cfs.map CpuLevel.bound
  | .pids => (g.limits .pidsMax).map LimitText.bound
  | _ => none

/-- What the record says about a resource. -/
def CgroupRecord.bound (record : CgroupRecord) : Resource → Option ℚ
  | .memory => record.limits.memoryMaxBytes.map Nat.cast
  | .memoryHigh => record.limits.memoryHighBytes.map Nat.cast
  | .memorySwap => record.limits.memorySwapMaxBytes.map Nat.cast
  | .cpu => record.limits.cpu.bound
  | .pids => record.limits.pidsMax.map Nat.cast

end Kernel

section Limits
variable {fs : FileSystem} {path : Path}

theorem parseCgroupLimitValue_text (t : LimitText) {eol : List UInt8}
    (heol : eol = [] ∨ eol = ascii "\n") :
    parseCgroupLimitValue (t.text ++ eol) = .ok t.limit := by
  cases t with
  | max => rcases heol with rfl | rfl <;> rfl
  | minusOne => rcases heol with rfl | rfl <;> rfl
  | number n hn =>
    simp only [LimitText.text, parseCgroupLimitValue, trimSignature_decimal n heol]
    rw [if_neg (decimal_ne_nil n), if_neg (decimal_ne_of_mem (c := 0x6D) (by decide) (by decide)),
      if_neg (decimal_ne_of_mem (c := 0x2D) (by decide) (by decide)),
      if_neg (head?_decimal_ne (by decide)), accumulateDecimal_decimal hn, ok_bind, LimitText.limit]
    split_ifs <;> rfl

theorem LimitText.length_text_le (t : LimitText) : t.text.length ≤ 20 := by
  cases t with
  | max => decide
  | minusOne => decide
  | number n hn =>
    have hmax : uint64Max = 2 ^ 64 - 1 := rfl
    exact length_decimal_le (by decide) (by omega)

theorem levelLimit_shows {level : Option LimitText} (h : Shows fs path (level.map LimitText.text)) :
    levelLimit fs path = .ok (level.map LimitText.limit) := by
  cases level with
  | none =>
    have habsent : fs path = .absent := h
    simp [levelLimit, statError, habsent]
  | some t =>
    obtain ⟨eol, heol, hfile⟩ := h
    have hlen : (t.text ++ eol).length ≤ 256 := by
      have ht := t.length_text_le
      have he := length_eol heol
      rw [List.length_append]
      omega
    simp only [levelLimit, statError_content hfile, readTextFile_content hfile hlen, ok_bind,
      parseCgroupLimitValue_text t heol, Option.map_some]

/-- The loop over the directories sees the limits of those that have the file. -/
theorem readLimitLevels_shows {filename : List UInt8} {level : Path → Option LimitText}
    (h : ∀ dir, Shows fs (joinPath dir filename) ((level dir).map LimitText.text))
    (dirs : List Path) (state : Option ℕ × Bool) :
    readLimitLevels fs filename state dirs =
      .ok (((dirs.filterMap level).map LimitText.limit).foldl mergeLimit state.1,
        state.2 || !(dirs.filterMap level).isEmpty) := by
  induction dirs generalizing state with
  | nil => simp [readLimitLevels]
  | cons dir dirs ih =>
    rw [readLimitLevels, levelLimit_shows (h dir), ok_bind]
    cases hlevel : level dir with
    | none => simp [hlevel, ih]
    | some t => simp [hlevel, ih]

/-- The loop computes the least of the limits that are there. -/
theorem foldl_mergeLimit (limits : List (Option ℕ)) :
    limits.foldl mergeLimit none = (limits.filterMap id).min? := by
  have hsome : ∀ (limits : List (Option ℕ)) (least : ℕ),
      limits.foldl mergeLimit (some least) = some ((limits.filterMap id).foldl min least) := by
    intro limits
    induction limits with
    | nil => exact fun _ => rfl
    | cons limit limits ih =>
      intro least
      cases limit with
      | none => exact ih least
      | some n => exact ih (min least n)
  induction limits with
  | nil => rfl
  | cons limit limits ih =>
    cases limit with
    | none => exact ih
    | some n => exact hsome limits n

end Limits

section Bounds
variable {m : Machine} {dirs : List Path}

/-- The limits that some directories have. -/
def boundsOf (bound : Path → Option (Option ℚ)) (dirs : List Path) : Set ℚ :=
  {b | ∃ dir ∈ dirs, bound dir = some (some b)}

/-- The least of the limits, if there are any. -/
def Least (bounds : Set ℚ) : Option ℚ → Prop
  | none => bounds = ∅
  | some b => IsLeast bounds b

/-- A reader that needs a file somewhere returns the least limit, or it finds no file. -/
def Outcome {β : Type} (toBound : β → Option ℚ) (needed : Prop) (bounds : Set ℚ) (r : Result β) :
    Prop :=
  (¬ needed ∧ r = fail .notFound) ∨ needed ∧ ∃ b, r = .ok b ∧ Least bounds (toBound b)

/-- Some directory has a file for the limit. -/
def Present (bound : Path → Option (Option ℚ)) (dirs : List Path) : Prop :=
  ∃ dir ∈ dirs, bound dir ≠ none

theorem mem_boundsOf {α : Type} {level : Path → Option α} {f : α → Option ℚ} {b : ℚ} :
    b ∈ boundsOf (fun dir => (level dir).map f) dirs ↔ ∃ l ∈ dirs.filterMap level, f l = some b := by
  simp only [List.mem_filterMap]
  constructor
  · rintro ⟨dir, hdir, hb⟩
    obtain ⟨l, hl, hf⟩ := Option.map_eq_some_iff.mp hb
    exact ⟨l, ⟨dir, hdir, hl⟩, hf⟩
  · rintro ⟨l, ⟨dir, hdir, hl⟩, hf⟩
    exact ⟨dir, hdir, Option.map_eq_some_iff.mpr ⟨l, hl, hf⟩⟩

theorem least_min (level : Path → Option LimitText) (dirs : List Path) :
    Least (boundsOf (fun dir => (level dir).map LimitText.bound) dirs)
      ((((dirs.filterMap level).map LimitText.limit).filterMap id).min?.map Nat.cast) := by
  have hmem : ∀ n : ℕ, n ∈ ((dirs.filterMap level).map LimitText.limit).filterMap id ↔
      (n : ℚ) ∈ boundsOf (fun dir => (level dir).map LimitText.bound) dirs := by
    intro n
    rw [mem_boundsOf]
    simp [LimitText.bound]
  have hcast : ∀ b ∈ boundsOf (fun dir => (level dir).map LimitText.bound) dirs,
      ∃ n : ℕ, b = n := by
    rintro b ⟨dir, -, hb⟩
    obtain ⟨t, -, ht⟩ := Option.map_eq_some_iff.mp hb
    obtain ⟨n, -, hn⟩ := Option.map_eq_some_iff.mp ht
    exact ⟨n, hn.symm⟩
  cases hmin : (((dirs.filterMap level).map LimitText.limit).filterMap id).min? with
  | none =>
    rw [List.min?_eq_none_iff] at hmin
    rw [Option.map_none, Least, Set.eq_empty_iff_forall_notMem]
    intro b hb
    obtain ⟨n, rfl⟩ := hcast b hb
    rw [← hmem, hmin] at hb
    cases hb
  | some n =>
    rw [List.min?_eq_some_iff] at hmin
    refine ⟨(hmem n).mp hmin.1, ?_⟩
    intro b hb
    obtain ⟨n', rfl⟩ := hcast b hb
    exact Nat.cast_le.mpr (hmin.2 n' ((hmem n').mpr hb))

theorem present_iff {α : Type} {level : Path → Option α} {f : α → Option ℚ} :
    Present (fun dir => (level dir).map f) dirs ↔ dirs.filterMap level ≠ [] := by
  simp [Present, List.filterMap_eq_nil_iff]

theorem outcome_readEffectiveCgroupLimit (m : Machine) (file : LimitFile) (dirs : List Path) :
    Outcome (fun limit => limit.map Nat.cast)
      (file.optional = true ∨ Present (fun dir => ((m.group dir).limits file).map LimitText.bound) dirs)
      (boundsOf (fun dir => ((m.group dir).limits file).map LimitText.bound) dirs)
      (readEffectiveCgroupLimit m.fs dirs file.filename) := by
  have hloop := readLimitLevels_shows (fun dir => (m.shows_group dir).limits file) dirs (none, false)
  have hname : (file.filename = ascii "memory.swap.max" ∨ file.filename = ascii "memory.high") ↔
      file.optional = true := by
    cases file <;> decide
  have hleast := least_min (fun dir => (m.group dir).limits file) dirs
  rw [← foldl_mergeLimit] at hleast
  rw [readEffectiveCgroupLimit, hloop, ok_bind, present_iff]
  simp only [Bool.false_or, Bool.not_not, List.isEmpty_iff, hname]
  split_ifs with hnone hoptional
  · rw [hnone] at hleast
    exact .inr ⟨.inl hoptional, none, rfl, hleast⟩
  · exact .inl ⟨by simp [hoptional, hnone], rfl⟩
  · exact .inr ⟨.inr hnone, _, rfl, hleast⟩

theorem least_tightest (level : Path → Option CpuLevel) (dirs : List Path) :
    Least (boundsOf (fun dir => (level dir).map CpuLevel.bound) dirs)
      (tightest (dirs.filterMap level)).bound := by
  have hmem : ∀ b, b ∈ boundsOf (fun dir => (level dir).map CpuLevel.bound) dirs ↔
      ∃ l ∈ dirs.filterMap level, ∃ q : ℕ, l.quota = some q ∧ (q : ℚ) / l.period = b := by
    intro b
    simp only [mem_boundsOf, CpuLevel.bound, Option.map_eq_some_iff]
  cases hquota : (tightest (dirs.filterMap level)).quotaUs with
  | none =>
    rw [tightest_quota_eq_none_iff] at hquota
    have hbound : (tightest (dirs.filterMap level)).bound = none := by
      rw [CpuLimit.bound, (tightest_quota_eq_none_iff _).mpr hquota, Option.map_none]
    rw [hbound, Least, Set.eq_empty_iff_forall_notMem]
    intro b hb
    obtain ⟨l, hl, q, hq, -⟩ := (hmem b).mp hb
    rw [hquota l hl] at hq
    cases hq
  | some q =>
    obtain ⟨before, l, after, hsplit, hl, hperiod, hmin, -⟩ := tightest_of_limited hquota
    rw [CpuLimit.bound, hquota, hperiod, Option.map_some, Option.getD_some]
    refine ⟨(hmem _).mpr ⟨l, by simp [hsplit], q, hl, rfl⟩, ?_⟩
    intro b hb
    obtain ⟨l', hl', q', hq', rfl⟩ := (hmem b).mp hb
    exact hmin l' hl' q' hq'

/-- The directories that have a file, with what it says. -/
def levelsOf (level : Path → Option CpuLevel) (dirs : List Path) : List (Path × CpuLevel) :=
  dirs.filterMap fun dir => (level dir).map (dir, ·)

theorem levelsOf_snd (level : Path → Option CpuLevel) (dirs : List Path) :
    (levelsOf level dirs).map (·.2) = dirs.filterMap level := by
  rw [levelsOf, List.map_filterMap]
  congr 1
  funext dir
  cases level dir <;> rfl

theorem mem_levelsOf {level : Path → Option CpuLevel} {dl : Path × CpuLevel}
    (h : dl ∈ levelsOf level dirs) : level dl.1 = some dl.2 := by
  obtain ⟨dir, -, hdir⟩ := List.mem_filterMap.mp h
  obtain ⟨l, hl, rfl⟩ := Option.map_eq_some_iff.mp hdir
  exact hl

theorem levelsOf_cons (level : Path → Option CpuLevel) (dir : Path) (dirs : List Path) :
    levelsOf level (dir :: dirs) =
      match level dir with
      | none => levelsOf level dirs
      | some l => (dir, l) :: levelsOf level dirs := by
  rw [levelsOf, List.filterMap_cons]
  cases level dir <;> rfl

/-- A directory without the file does not matter. -/
theorem readCpuMaxLevels_skip (m : Machine) (dirs : List Path) (state : CpuMaxState) :
    readCpuMaxLevels m.fs state dirs =
      readCpuMaxLevels m.fs state ((levelsOf (fun dir => (m.group dir).cpuMax) dirs).map (·.1)) := by
  induction dirs generalizing state with
  | nil => rfl
  | cons dir dirs ih =>
    rw [levelsOf_cons]
    cases hlevel : (m.group dir).cpuMax with
    | none =>
      have habsent := (m.shows_group dir).cpuMax
      rw [hlevel, Option.map_none, Shows] at habsent
      simp only [readCpuMaxLevels, statError, habsent, if_true, ih]
    | some l => simp only [List.map_cons, readCpuMaxLevels, ih]

theorem readCgroup1Levels_skip (m : Machine) (dirs : List Path) (state : Cgroup1State) :
    readCgroup1Levels m.fs state dirs =
      readCgroup1Levels m.fs state ((levelsOf (fun dir => (m.group dir).cfs) dirs).map (·.1)) := by
  induction dirs generalizing state with
  | nil => rfl
  | cons dir dirs ih =>
    rw [levelsOf_cons]
    cases hlevel : (m.group dir).cfs with
    | none =>
      have habsent := (m.shows_group dir).cfsQuota
      rw [hlevel, Option.map_none, Shows] at habsent
      simp only [readCgroup1Levels, statError, habsent, if_true, ih]
    | some l => simp only [List.map_cons, readCgroup1Levels, ih]

theorem outcome_readEffectiveCpuMax (m : Machine) (dirs : List Path) :
    Outcome CpuLimit.bound (Present (fun dir => ((m.group dir).cpuMax).map CpuLevel.bound) dirs)
      (boundsOf (fun dir => ((m.group dir).cpuMax).map CpuLevel.bound) dirs)
      (readEffectiveCpuMax m.fs dirs) := by
  rw [present_iff, readEffectiveCpuMax, readCpuMaxLevels_skip, ← levelsOf_snd]
  by_cases hnone : levelsOf (fun dir => (m.group dir).cpuMax) dirs = []
  · rw [hnone]
    exact .inl ⟨by simp, rfl⟩
  · have hfiles : UnifiedFiles m.fs (levelsOf (fun dir => (m.group dir).cpuMax) dirs) := by
      intro dl hdl
      have hshows := (m.shows_group dl.1).cpuMax
      rwa [mem_levelsOf hdl] at hshows
    refine .inr ⟨by simpa using hnone, _, readEffectiveCpuMax_tightest hnone hfiles, ?_⟩
    rw [levelsOf_snd]
    exact least_tightest _ dirs

theorem outcome_readEffectiveCgroup1Cpu (m : Machine) (dirs : List Path) :
    Outcome CpuLimit.bound (Present (fun dir => ((m.group dir).cfs).map CpuLevel.bound) dirs)
      (boundsOf (fun dir => ((m.group dir).cfs).map CpuLevel.bound) dirs)
      (readEffectiveCgroup1Cpu m.fs dirs) := by
  rw [present_iff, readEffectiveCgroup1Cpu, readCgroup1Levels_skip, ← levelsOf_snd]
  by_cases hnone : levelsOf (fun dir => (m.group dir).cfs) dirs = []
  · rw [hnone]
    exact .inl ⟨by simp, rfl⟩
  · have hfiles : LegacyFiles m.fs (levelsOf (fun dir => (m.group dir).cfs) dirs) := by
      intro dl hdl
      have hquota := (m.shows_group dl.1).cfsQuota
      have hperiod := (m.shows_group dl.1).cfsPeriod
      rw [mem_levelsOf hdl] at hquota hperiod
      exact ⟨hquota, hperiod⟩
    refine .inr ⟨by simpa using hnone, _, readEffectiveCgroup1Cpu_tightest hnone hfiles, ?_⟩
    rw [levelsOf_snd]
    exact least_tightest _ dirs

end Bounds

section Chains

/-- There is a unified hierarchy. -/
def Machine.HasUnified (m : Machine) : Prop := m.info.version = .v2 ∨ m.info.version = .hybrid

/-- There are hierarchies of single controllers. -/
def Machine.HasLegacy (m : Machine) : Prop := m.info.version = .v1 ∨ m.info.version = .hybrid

instance (m : Machine) : Decidable m.HasUnified := inferInstanceAs (Decidable (_ ∨ _))
instance (m : Machine) : Decidable m.HasLegacy := inferInstanceAs (Decidable (_ ∨ _))

/-- The path in the unified hierarchy. -/
def Machine.unifiedPath (m : Machine) : Path :=
  if m.info.v2Path ≠ [] then m.info.v2Path else ascii "/"

/-- The directories from the cgroup of the process up to the mount point. -/
def Machine.unifiedChain (m : Machine) : Option (List Path) :=
  (findCgroup2Mount m.kernel.sysFsCgroup m.mounts m.unifiedPath).map fun mount =>
    getCgroupAncestorDirs mount.1 mount.2 m.unifiedPath

/-- The controllers of the cgroup of the process in the unified hierarchy. -/
def Machine.unifiedNames (m : Machine) : Option (List (List UInt8)) :=
  m.unifiedChain.bind fun dirs => dirs.head?.bind fun dir =>
    (m.group dir).controllers.map ControllerNames.names

/-- The directories that count for a resource in the unified hierarchy. -/
def Machine.unifiedDirs (m : Machine) (r : Resource) : List Path :=
  if m.HasUnified ∧ r.controller ∈ m.unifiedNames.getD [] then m.unifiedChain.getD [] else []

/-- The path in the hierarchy of the resource's own controller. -/
def Machine.legacyPath (m : Machine) (r : Resource) : Option Path :=
  r.legacyControllers.findSome? (getV1ControllerInfo m.info)

/-- The directories of a cgroup in a hierarchy of its own. -/
def Machine.legacyChain (m : Machine) (r : Resource) (rel : Path) : Option (List Path) :=
  (r.legacyMounts.findSome? fun name => findCgroup1ControllerMount m.kernel m.mounts name rel).map
    fun mount => getCgroupAncestorDirs mount.1 mount.2 rel

/-- The directories that count for a resource in a hierarchy of its own. -/
def Machine.legacyDirs (m : Machine) (r : Resource) : List Path :=
  if m.HasLegacy then ((m.legacyPath r).bind (m.legacyChain r)).getD [] else []

/-- The limits of a resource in the unified hierarchy. -/
def Machine.unifiedBounds (m : Machine) (r : Resource) : Set ℚ :=
  boundsOf (fun dir => (m.group dir).unifiedBound r) (m.unifiedDirs r)

/-- The limits of a resource in a hierarchy of its own. -/
def Machine.legacyBounds (m : Machine) (r : Resource) : Set ℚ :=
  boundsOf (fun dir => (m.group dir).legacyBound r) (m.legacyDirs r)

/-- The limits that count: those of the unified hierarchy if it has any. -/
def Machine.bounds (m : Machine) (r : Resource) : Set ℚ :=
  {b | b ∈ m.unifiedBounds r ∨ m.unifiedBounds r = ∅ ∧ b ∈ m.legacyBounds r}

/-- In the unified hierarchy there is a file somewhere for each resource that needs one. -/
def Machine.UnifiedPresent (m : Machine) (r : Resource) : Prop :=
  r.required = true → m.unifiedDirs r ≠ [] →
    Present (fun dir => (m.group dir).unifiedBound r) (m.unifiedDirs r)

/-- The same for the hierarchy of a controller, unless the unified one has limits. -/
def Machine.LegacyPresent (m : Machine) (r : Resource) : Prop :=
  m.unifiedBounds r = ∅ → m.legacyPath r ≠ none →
    Present (fun dir => (m.group dir).legacyBound r) (m.legacyDirs r)

/-- The files that the query needs are there. -/
structure Machine.Complete (m : Machine) : Prop where
  named : m.HasUnified → m.unifiedNames ≠ none
  unified : m.HasUnified → ∀ r, m.UnifiedPresent r
  legacy : m.HasLegacy → ∀ r, m.LegacyPresent r

/-- The record describes the cgroup: its controllers in order, and for each resource the least
of the limits that count. -/
structure Machine.Describes (m : Machine) (record : CgroupRecord) : Prop where
  version : record.version = m.info.version
  sorted : record.controllers.Pairwise fun a b => a.map UInt8.toNat ≤ b.map UInt8.toNat
  mem_controllers : ∀ c, c ∈ record.controllers ↔
    (m.HasUnified ∧ c ∈ m.unifiedNames.getD []) ∨
      m.HasLegacy ∧ c ∈ legacyControllers m.info
  least : ∀ r, Least (m.bounds r) (record.bound r)

end Chains

section Controllers

theorem pairwise_sortTexts (texts : List (List UInt8)) :
    (sortTexts texts).Pairwise fun a b => a.map UInt8.toNat ≤ b.map UInt8.toNat := by
  have hsorted := @List.pairwise_mergeSort _
    (fun a b : List UInt8 => decide (a.map UInt8.toNat ≤ b.map UInt8.toNat))
    (fun a b c hab hbc => by
      rw [decide_eq_true_eq] at hab hbc ⊢
      exact hab.trans hbc)
    (fun a b => by
      rw [Bool.or_eq_true, decide_eq_true_eq, decide_eq_true_eq]
      exact le_total _ _)
    texts
  exact hsorted.imp fun h => of_decide_eq_true h

theorem mem_sortTexts {texts : List (List UInt8)} {c : List UInt8} :
    c ∈ sortTexts texts ↔ c ∈ texts := List.mem_mergeSort

theorem mem_foldl_addController {more texts : List (List UInt8)} {c : List UInt8} :
    c ∈ more.foldl addController texts ↔ c ∈ texts ∨ c ∈ more := by
  induction more generalizing texts with
  | nil => simp
  | cons ctrl more ih =>
    rw [List.foldl_cons, ih, addController, List.mem_cons]
    split_ifs with hmem
    · constructor
      · rintro (h | h)
        · exact .inl h
        · exact .inr (.inr h)
      · rintro (h | rfl | h)
        · exact .inl h
        · exact .inl hmem
        · exact .inr h
    · simp [or_assoc]

/-- The list of the controllers is read as it was written. -/
theorem readCgroup2Controllers_eq (m : Machine) (dir : Path) :
    readCgroup2Controllers m.fs dir =
      match (m.group dir).controllers with
      | none => fail .notFound
      | some names => .ok (sortTexts names.names) := by
  have hshows := (m.shows_group dir).controllers
  cases hnames : (m.group dir).controllers with
  | none =>
    rw [hnames, Option.map_none, Shows] at hshows
    simp only [readCgroup2Controllers, statError, hshows, if_true]
  | some names =>
    rw [hnames, Option.map_some] at hshows
    obtain ⟨eol, heol, hfile⟩ := hshows
    have hlen : (names.text ++ eol).length ≤ 1024 := by
      have hlt := names.length_lt
      have he := length_eol heol
      rw [List.length_append, ControllerNames.text]
      omega
    have hsplit : splitWhitespace (names.text ++ eol) = names.names := by
      have hblank : ∀ c ∈ eol, isSpace c = true := by
        rcases heol with rfl | rfl <;> simp [ascii, isSpace]
      rw [splitWhitespace, ControllerNames.text, splitBlank_trailing _ hblank,
        splitBlank_intercalate (by decide) names.solid]
    simp only [readCgroup2Controllers, statError_content hfile, readTextFile_content hfile hlen,
      ok_bind, hsplit]

end Controllers

section Unified
variable {m : Machine}

theorem getCgroupAncestorDirs_ne_nil (mountPoint mountRoot procCgroupPath : Path) :
    getCgroupAncestorDirs mountPoint mountRoot procCgroupPath ≠ [] := by
  rw [getCgroupAncestorDirs, ancestorsFrom]
  split_ifs
  · exact List.cons_ne_nil _ _
  · exact List.cons_ne_nil _ _

/-- What a limit that is read only for its controller comes to. -/
theorem outcome_whenPresent {β : Type} {toBound : β → Option ℚ} {absent : β} {read : Result β}
    {bound : Path → Option (Option ℚ)} {dirs chain : List Path} {present required : Bool}
    {needed : Prop} (habsent : toBound absent = none)
    (hdirs : dirs = if present then chain else []) (hchain : chain ≠ [])
    (hneeded : needed ↔ required = false ∨ Present bound chain)
    (hread : Outcome toBound needed (boundsOf bound chain) read) :
    Outcome toBound (required = true → dirs ≠ [] → Present bound dirs) (boundsOf bound dirs)
      (whenPresent present absent read) := by
  cases present with
  | false =>
    rw [if_neg Bool.false_ne_true] at hdirs
    subst hdirs
    refine .inr ⟨fun _ h => (h rfl).elim, absent, rfl, ?_⟩
    rw [habsent]
    exact Set.eq_empty_of_forall_notMem fun b ⟨dir, hdir, _⟩ => by cases hdir
  | true =>
    rw [if_pos rfl] at hdirs
    subst hdirs
    have hwhole : needed ↔ (required = true → dirs ≠ [] → Present bound dirs) := by
      rw [hneeded]
      cases required <;> simp [hchain]
    rwa [hwhole] at hread

/-- What the limits of the unified hierarchy come to. -/
theorem unifiedLimits_cases (hunified : m.HasUnified) {chain : List Path} {names : List (List UInt8)}
    (hchain : m.unifiedChain = some chain) (hnames : m.unifiedNames = some names)
    (hne : chain ≠ []) :
    ((∀ r, m.UnifiedPresent r) ∧ ∃ limits, unifiedLimits m.fs chain (sortTexts names) = .ok limits ∧
      ∀ record : CgroupRecord, record.limits = limits → ∀ r,
        Least (m.unifiedBounds r) (record.bound r)) ∨
      (¬ ∀ r, m.UnifiedPresent r) ∧
        unifiedLimits m.fs chain (sortTexts names) = fail .notFound := by
  have hdirs : ∀ r : Resource, m.unifiedDirs r =
      if decide (r.controller ∈ sortTexts names) then chain else [] := by
    intro r
    rw [Machine.unifiedDirs, hchain, hnames]
    simp [hunified, mem_sortTexts]
  have hlimit : ∀ (r : Resource) (file : LimitFile) (name filename : List UInt8),
      r.controller = name → file.filename = filename → (file.optional = true ↔ r.required = false) →
      (∀ dir, (m.group dir).unifiedBound r = ((m.group dir).limits file).map LimitText.bound) →
      Outcome (fun limit => limit.map Nat.cast) (m.UnifiedPresent r) (m.unifiedBounds r)
        (whenPresent (decide (name ∈ sortTexts names)) none
          (readEffectiveCgroupLimit m.fs chain filename)) := by
    rintro r file name filename rfl rfl hoptional hbound
    have hread := outcome_readEffectiveCgroupLimit m file chain
    rw [hoptional] at hread
    simp only [← hbound] at hread
    exact outcome_whenPresent rfl (hdirs r) hne Iff.rfl hread
  have hcpu : Outcome CpuLimit.bound (m.UnifiedPresent .cpu) (m.unifiedBounds .cpu)
      (whenPresent (decide (ascii "cpu" ∈ sortTexts names)) ⟨none, none⟩
        (readEffectiveCpuMax m.fs chain)) := by
    have hneeded : Present (fun dir => (m.group dir).unifiedBound .cpu) chain ↔
        Resource.cpu.required = false ∨ Present (fun dir => (m.group dir).unifiedBound .cpu) chain :=
      (or_iff_right (by decide)).symm
    exact outcome_whenPresent rfl (hdirs .cpu) hne hneeded (outcome_readEffectiveCpuMax m chain)
  have hmemory := hlimit .memory .memoryMax (ascii "memory") (ascii "memory.max") rfl rfl
    (by decide) fun _ => rfl
  have hhigh := hlimit .memoryHigh .memoryHigh (ascii "memory") (ascii "memory.high") rfl rfl
    (by decide) fun _ => rfl
  have hswap := hlimit .memorySwap .memorySwapMax (ascii "memory") (ascii "memory.swap.max") rfl rfl
    (by decide) fun _ => rfl
  have hpids := hlimit .pids .pidsMax (ascii "pids") (ascii "pids.max") rfl rfl
    (by decide) fun _ => rfl
  unfold unifiedLimits
  dsimp only
  rcases hmemory with ⟨hnot, hr⟩ | ⟨hmemory, memory, hr, hmemoryLeast⟩
  · exact .inr ⟨fun h => hnot (h _), by rw [hr, fail_bind]⟩
  rw [hr, ok_bind]
  rcases hhigh with ⟨hnot, hr⟩ | ⟨hhigh, high, hr, hhighLeast⟩
  · exact .inr ⟨fun h => hnot (h _), by rw [hr, fail_bind]⟩
  rw [hr, ok_bind]
  rcases hswap with ⟨hnot, hr⟩ | ⟨hswap, swap, hr, hswapLeast⟩
  · exact .inr ⟨fun h => hnot (h _), by rw [hr, fail_bind]⟩
  rw [hr, ok_bind]
  rcases hcpu with ⟨hnot, hr⟩ | ⟨hcpu, cpu, hr, hcpuLeast⟩
  · exact .inr ⟨fun h => hnot (h _), by rw [hr, fail_bind]⟩
  rw [hr, ok_bind]
  rcases hpids with ⟨hnot, hr⟩ | ⟨hpids, pids, hr, hpidsLeast⟩
  · exact .inr ⟨fun h => hnot (h _), by rw [hr, fail_bind]⟩
  rw [hr, ok_bind]
  refine .inl ⟨?_, _, rfl, ?_⟩
  · intro r
    cases r with
    | memory => exact hmemory
    | memoryHigh => exact hhigh
    | memorySwap => exact hswap
    | cpu => exact hcpu
    | pids => exact hpids
  · intro record hlimits r
    cases r with
    | memory => rw [CgroupRecord.bound, hlimits]; exact hmemoryLeast
    | memoryHigh => rw [CgroupRecord.bound, hlimits]; exact hhighLeast
    | memorySwap => rw [CgroupRecord.bound, hlimits]; exact hswapLeast
    | cpu => rw [CgroupRecord.bound, hlimits]; exact hcpuLeast
    | pids => rw [CgroupRecord.bound, hlimits]; exact hpidsLeast

/-- The first part of the query returns the limits of the unified hierarchy. -/
theorem detectUnified_cases (hunified : m.HasUnified) :
    ((∀ r, m.UnifiedPresent r) ∧ ∃ names, m.unifiedNames = some names ∧
      ∃ record, detectUnified m.fs m.kernel m.info m.mounts = .ok record ∧
        record.version = m.info.version ∧ record.controllers = sortTexts names ∧
        ∀ r, Least (m.unifiedBounds r) (record.bound r)) ∨
      ¬ (m.unifiedNames ≠ none ∧ ∀ r, m.UnifiedPresent r) ∧
        detectUnified m.fs m.kernel m.info m.mounts = fail .notFound := by
  unfold detectUnified
  cases hmount : findCgroup2Mount m.kernel.sysFsCgroup m.mounts m.unifiedPath with
  | none =>
    have hchain : m.unifiedChain = none := by rw [Machine.unifiedChain, hmount, Option.map_none]
    have hnames : m.unifiedNames = none := by rw [Machine.unifiedNames, hchain, Option.bind_none]
    simp only [Machine.unifiedPath] at hmount
    simp only [hmount]
    exact .inr ⟨fun h => h.1 hnames, trivial⟩
  | some mount =>
    have hchain : m.unifiedChain = some (getCgroupAncestorDirs mount.1 mount.2 m.unifiedPath) := by
      rw [Machine.unifiedChain, hmount, Option.map_some]
    have hne := getCgroupAncestorDirs_ne_nil mount.1 mount.2 m.unifiedPath
    simp only [Machine.unifiedPath] at hmount hchain hne
    simp only [hmount]
    cases hdirs : getCgroupAncestorDirs mount.1 mount.2
        (if m.info.v2Path ≠ [] then m.info.v2Path else ascii "/") with
    | nil => exact (hne hdirs).elim
    | cons target parents =>
      rw [hdirs] at hchain
      have hcontrollers : m.unifiedNames =
          (m.group target).controllers.map ControllerNames.names := by
        rw [Machine.unifiedNames, hchain, Option.bind_some, List.head?_cons, Option.bind_some]
      dsimp only
      rw [readCgroup2Controllers_eq]
      cases hnames : (m.group target).controllers with
      | none =>
        rw [hnames, Option.map_none] at hcontrollers
        exact .inr ⟨fun h => h.1 hcontrollers, rfl⟩
      | some names =>
        rw [hnames, Option.map_some] at hcontrollers
        dsimp only
        rw [ok_bind]
        rcases unifiedLimits_cases hunified hchain hcontrollers (List.cons_ne_nil _ _) with
          ⟨hpresent, limits, hlimits, hleast⟩ | ⟨hnot, hlimits⟩
        · rw [hlimits, ok_bind]
          exact .inl ⟨hpresent, _, hcontrollers, _, rfl, rfl, rfl, hleast _ rfl⟩
        · exact .inr ⟨fun h => hnot h.2, by rw [hlimits, fail_bind]⟩

end Unified

section Legacy
variable {m : Machine}

/-- A limit that is known, or that another reader has to find. -/
theorem outcome_fallback {β : Type} {toBound : β → Option ℚ} {unified legacy : Set ℚ}
    {needed : Prop} {known : β} {r : Result β} (hknown : Least unified (toBound known))
    (hkeep : toBound known ≠ none → r = .ok known)
    (hread : toBound known = none → Outcome toBound needed legacy r) :
    Outcome toBound (unified = ∅ → needed) {b | b ∈ unified ∨ unified = ∅ ∧ b ∈ legacy} r := by
  cases hbound : toBound known with
  | some b =>
    rw [hbound] at hknown
    have hsome : unified ≠ ∅ := Set.nonempty_iff_ne_empty.mp hknown.nonempty
    have hsame : {b | b ∈ unified ∨ unified = ∅ ∧ b ∈ legacy} = unified := by
      ext b
      simp [hsome]
    refine .inr ⟨fun h => (hsome h).elim, known, hkeep (by simp [hbound]), ?_⟩
    rwa [hsame, hbound]
  | none =>
    rw [hbound] at hknown
    have hnone : unified = ∅ := hknown
    have hsame : {b | b ∈ unified ∨ unified = ∅ ∧ b ∈ legacy} = legacy := by
      ext b
      simp [hnone]
    have hneeded : needed ↔ (unified = ∅ → needed) := ⟨fun h _ => h, fun h => h hnone⟩
    rw [hsame, ← hneeded]
    exact hread hbound

/-- What a reader in a hierarchy of its own comes to. -/
theorem outcome_legacy {β : Type} {toBound : β → Option ℚ} {known : β} {r : Resource}
    {read : List Path → Result β} {result : Result β} (hlegacy : m.HasLegacy)
    (hknown : toBound known = none)
    (hnone : m.legacyPath r = none → result = .ok known)
    (hmissing : ∀ rel, m.legacyPath r = some rel → m.legacyChain r rel = none →
      result = fail .notFound)
    (hfound : ∀ rel dirs, m.legacyPath r = some rel → m.legacyChain r rel = some dirs →
      result = read dirs)
    (hread : ∀ dirs, Outcome toBound (Present (fun dir => (m.group dir).legacyBound r) dirs)
      (boundsOf (fun dir => (m.group dir).legacyBound r) dirs) (read dirs)) :
    Outcome toBound
      (m.legacyPath r ≠ none → Present (fun dir => (m.group dir).legacyBound r) (m.legacyDirs r))
      (m.legacyBounds r) result := by
  have hdirs : m.legacyDirs r = ((m.legacyPath r).bind (m.legacyChain r)).getD [] := if_pos hlegacy
  rw [Machine.legacyBounds, hdirs]
  cases hpath : m.legacyPath r with
  | none =>
    refine .inr ⟨fun h => (h rfl).elim, known, hnone hpath, ?_⟩
    rw [hknown]
    exact Set.eq_empty_of_forall_notMem fun b ⟨dir, hdir, _⟩ => by cases hdir
  | some rel =>
    rw [Option.bind_some]
    cases hchain : m.legacyChain r rel with
    | none =>
      refine .inl ⟨fun h => ?_, hmissing rel hpath hchain⟩
      obtain ⟨dir, hdir, -⟩ := h (by simp)
      cases hdir
    | some dirs =>
      have hneeded : Present (fun dir => (m.group dir).legacyBound r) dirs ↔
          (some rel ≠ none → Present (fun dir => (m.group dir).legacyBound r) dirs) :=
        ⟨fun h _ => h, fun h => h (by simp)⟩
      have houtcome := hread dirs
      rw [hneeded, ← hfound rel dirs hpath hchain] at houtcome
      exact houtcome

theorem outcome_legacyLimit (hlegacy : m.HasLegacy) (r : Resource) (file : LimitFile)
    {name : List UInt8} {known : Option ℕ} (hname : r.legacyControllers = [name])
    (hmounts : r.legacyMounts = [name]) (hoptional : file.optional = false)
    (hbound : ∀ dir, (m.group dir).legacyBound r = ((m.group dir).limits file).map LimitText.bound)
    (hknown : Least (m.unifiedBounds r) (known.map Nat.cast)) :
    Outcome (fun limit => limit.map Nat.cast) (m.LegacyPresent r) (m.bounds r)
      (legacyLimit m.fs m.kernel m.mounts m.info name file.filename known) := by
  have hpath : m.legacyPath r = getV1ControllerInfo m.info name := by
    rw [Machine.legacyPath, hname]
    cases hinfo : getV1ControllerInfo m.info name <;> simp [hinfo]
  have hchain : ∀ rel, m.legacyChain r rel =
      (findCgroup1ControllerMount m.kernel m.mounts name rel).map fun mount =>
        getCgroupAncestorDirs mount.1 mount.2 rel := by
    intro rel
    rw [Machine.legacyChain, hmounts]
    cases hmount : findCgroup1ControllerMount m.kernel m.mounts name rel <;> simp [hmount]
  have hread := fun dirs => outcome_readEffectiveCgroupLimit m file dirs
  simp only [← hbound, hoptional, Bool.false_eq_true, false_or] at hread
  apply outcome_fallback hknown
  · intro hsome
    cases known with
    | none => exact (hsome rfl).elim
    | some n => rfl
  · intro hnone
    rw [Option.map_eq_none_iff] at hnone
    subst hnone
    refine @outcome_legacy m _ (fun limit : Option ℕ => limit.map (Nat.cast : ℕ → ℚ)) none r
      (fun dirs => readEffectiveCgroupLimit m.fs dirs file.filename) _ hlegacy rfl ?_ ?_ ?_ hread
    · intro hinfo
      rw [hpath] at hinfo
      simp only [legacyLimit, hinfo]
    · intro rel hinfo hmount
      rw [hpath] at hinfo
      rw [hchain, Option.map_eq_none_iff] at hmount
      simp only [legacyLimit, hinfo, hmount]
    · intro rel dirs hinfo hmount
      rw [hpath] at hinfo
      rw [hchain, Option.map_eq_some_iff] at hmount
      obtain ⟨mount, hmount, rfl⟩ := hmount
      simp only [legacyLimit, hinfo, hmount]

theorem outcome_legacyCpu (hlegacy : m.HasLegacy) {known : CpuLimit}
    (hknown : Least (m.unifiedBounds .cpu) known.bound) :
    Outcome CpuLimit.bound (m.LegacyPresent .cpu) (m.bounds .cpu)
      (legacyCpu m.fs m.kernel m.mounts m.info known) := by
  have hpath : m.legacyPath .cpu = (getV1ControllerInfo m.info (ascii "cpu")).or
      (getV1ControllerInfo m.info (ascii "cpuacct")) := by
    rw [Machine.legacyPath, Resource.legacyControllers]
    cases hcpu : getV1ControllerInfo m.info (ascii "cpu") <;>
      cases hacct : getV1ControllerInfo m.info (ascii "cpuacct") <;> simp [hcpu, hacct]
  have hchain : ∀ rel, m.legacyChain .cpu rel =
      ((findCgroup1ControllerMount m.kernel m.mounts (ascii "cpu") rel).or
        (findCgroup1ControllerMount m.kernel m.mounts (ascii "cpu,cpuacct") rel)).map fun mount =>
          getCgroupAncestorDirs mount.1 mount.2 rel := by
    intro rel
    rw [Machine.legacyChain, Resource.legacyMounts]
    cases hcpu : findCgroup1ControllerMount m.kernel m.mounts (ascii "cpu") rel <;>
      cases hboth : findCgroup1ControllerMount m.kernel m.mounts (ascii "cpu,cpuacct") rel <;>
        simp [hcpu, hboth]
  apply outcome_fallback hknown
  · intro hsome
    cases hquota : known.quotaUs with
    | none => exact (hsome (by rw [CpuLimit.bound, hquota, Option.map_none])).elim
    | some q => simp only [legacyCpu, hquota]
  · intro hnone
    have hquota : known.quotaUs = none := Option.map_eq_none_iff.mp hnone
    refine @outcome_legacy m _ CpuLimit.bound known .cpu (readEffectiveCgroup1Cpu m.fs) _ hlegacy
      hnone ?_ ?_ ?_ (outcome_readEffectiveCgroup1Cpu m)
    · intro hinfo
      rw [hpath] at hinfo
      simp only [legacyCpu, hquota, hinfo]
    · intro rel hinfo hmount
      rw [hpath] at hinfo
      rw [hchain, Option.map_eq_none_iff] at hmount
      simp only [legacyCpu, hquota, hinfo, hmount]
    · intro rel dirs hinfo hmount
      rw [hpath] at hinfo
      rw [hchain, Option.map_eq_some_iff] at hmount
      obtain ⟨mount, hmount, rfl⟩ := hmount
      simp only [legacyCpu, hquota, hinfo, hmount]

/-- The second part of the query returns the limits that count, if it gets those of the unified
hierarchy. -/
theorem detectLegacy_cases (hlegacy : m.HasLegacy) {record : CgroupRecord}
    (hleast : ∀ r, Least (m.unifiedBounds r) (record.bound r)) :
    ((∀ r, m.LegacyPresent r) ∧ ∃ out, detectLegacy m.fs m.kernel m.info m.mounts record = .ok out ∧
      out.version = record.version ∧
      out.controllers = sortTexts ((legacyControllers m.info).foldl addController record.controllers) ∧
      ∀ r, Least (m.bounds r) (out.bound r)) ∨
      (¬ ∀ r, m.LegacyPresent r) ∧
        detectLegacy m.fs m.kernel m.info m.mounts record = fail .notFound := by
  have hother : ∀ r, r.legacyControllers = [] → m.LegacyPresent r ∧ m.bounds r = m.unifiedBounds r := by
    intro r hnames
    have hpath : m.legacyPath r = none := by rw [Machine.legacyPath, hnames, List.findSome?_nil]
    have hdirs : m.legacyDirs r = [] := by
      rw [Machine.legacyDirs, if_pos hlegacy, hpath, Option.bind_none, Option.getD_none]
    refine ⟨fun _ h => (h hpath).elim, ?_⟩
    ext b
    simp [Machine.bounds, Machine.legacyBounds, hdirs, boundsOf]
  have hhigh := hother .memoryHigh rfl
  have hswap := hother .memorySwap rfl
  have hmemory := outcome_legacyLimit hlegacy .memory .memoryLimitInBytes rfl rfl rfl (fun _ => rfl)
    (hleast .memory)
  have hcpu := outcome_legacyCpu hlegacy (hleast .cpu)
  have hpids := outcome_legacyLimit hlegacy .pids .pidsMax rfl rfl rfl (fun _ => rfl) (hleast .pids)
  unfold detectLegacy
  dsimp only [LimitFile.filename] at hmemory hpids ⊢
  rcases hmemory with ⟨hnot, hr⟩ | ⟨hmemory, memory, hr, hmemoryLeast⟩
  · exact .inr ⟨fun h => hnot (h _), by rw [hr, fail_bind]⟩
  rw [hr, ok_bind]
  rcases hcpu with ⟨hnot, hr⟩ | ⟨hcpu, cpu, hr, hcpuLeast⟩
  · exact .inr ⟨fun h => hnot (h _), by rw [hr, fail_bind]⟩
  rw [hr, ok_bind]
  rcases hpids with ⟨hnot, hr⟩ | ⟨hpids, pids, hr, hpidsLeast⟩
  · exact .inr ⟨fun h => hnot (h _), by rw [hr, fail_bind]⟩
  rw [hr, ok_bind]
  refine .inl ⟨?_, _, rfl, rfl, rfl, ?_⟩
  · intro r
    cases r with
    | memory => exact hmemory
    | memoryHigh => exact hhigh.1
    | memorySwap => exact hswap.1
    | cpu => exact hcpu
    | pids => exact hpids
  · intro r
    cases r with
    | memory => exact hmemoryLeast
    | memoryHigh => rw [hhigh.2]; exact hleast .memoryHigh
    | memorySwap => rw [hswap.2]; exact hleast .memorySwap
    | cpu => exact hcpuLeast
    | pids => exact hpidsLeast

end Legacy

section Whole
variable {m : Machine}

theorem unifiedDirs_of_not (h : ¬ m.HasUnified) (r : Resource) : m.unifiedDirs r = [] :=
  if_neg fun hboth => h hboth.1

theorem legacyDirs_of_not (h : ¬ m.HasLegacy) (r : Resource) : m.legacyDirs r = [] := if_neg h

/-- Without hierarchies of single controllers the limits of the unified one count. -/
theorem bounds_of_not (h : ¬ m.HasLegacy) (r : Resource) : m.bounds r = m.unifiedBounds r := by
  ext b
  simp [Machine.bounds, Machine.legacyBounds, legacyDirs_of_not h, boundsOf]

/-- The first part of the query, or the empty record in its place. -/
theorem firstPart_cases (m : Machine) :
    ((m.HasUnified → m.unifiedNames ≠ none ∧ ∀ r, m.UnifiedPresent r) ∧ ∃ record,
      (if m.info.version = .v2 ∨ m.info.version = .hybrid then
        detectUnified m.fs m.kernel m.info m.mounts else .ok { version := m.info.version }) =
          .ok record ∧
      record.version = m.info.version ∧
      record.controllers.Pairwise (fun a b => a.map UInt8.toNat ≤ b.map UInt8.toNat) ∧
      (∀ c, c ∈ record.controllers ↔ m.HasUnified ∧ c ∈ m.unifiedNames.getD []) ∧
      ∀ r, Least (m.unifiedBounds r) (record.bound r)) ∨
    ¬ (m.HasUnified → m.unifiedNames ≠ none ∧ ∀ r, m.UnifiedPresent r) ∧
      (if m.info.version = .v2 ∨ m.info.version = .hybrid then
        detectUnified m.fs m.kernel m.info m.mounts else .ok { version := m.info.version }) =
          fail .notFound := by
  by_cases hunified : m.HasUnified
  · rw [if_pos (show _ ∨ _ from hunified)]
    rcases detectUnified_cases hunified with
      ⟨hpresent, names, hnames, record, hrecord, hversion, hcontrollers, hleast⟩ | ⟨hnot, hrecord⟩
    · refine .inl ⟨fun _ => ⟨by simp [hnames], hpresent⟩, record, hrecord, hversion, ?_, ?_, hleast⟩
      · rw [hcontrollers]
        exact pairwise_sortTexts names
      · intro c
        rw [hcontrollers, mem_sortTexts, hnames, Option.getD_some]
        exact (and_iff_right hunified).symm
    · exact .inr ⟨fun h => hnot (h hunified), hrecord⟩
  · rw [if_neg (show ¬ (_ ∨ _) from hunified)]
    refine .inl ⟨fun h => (hunified h).elim, _, rfl, rfl, .nil, ?_, ?_⟩
    · intro c
      simp [hunified]
    · intro r
      rw [Machine.unifiedBounds, unifiedDirs_of_not hunified]
      have hempty : boundsOf (fun dir => (m.group dir).unifiedBound r) [] = ∅ :=
        Set.eq_empty_of_forall_notMem fun b ⟨dir, hdir, _⟩ => by cases hdir
      cases r <;> exact hempty

/-- What the query reads, and what it makes of it. -/
theorem detectCurrentCgroup_eq (m : Machine) : detectCurrentCgroup m.fs m.kernel =
    if m.info.version = .none then .ok {}
    else (if m.info.version = .v2 ∨ m.info.version = .hybrid then
        detectUnified m.fs m.kernel m.info m.mounts else .ok { version := m.info.version }) >>=
      fun record => if m.info.version = .v1 ∨ m.info.version = .hybrid then
        detectLegacy m.fs m.kernel m.info m.mounts record else .ok record := by
  obtain ⟨content, hcontent, hparsed⟩ := bind_eq_ok.mp m.info_read
  rw [detectCurrentCgroup, hcontent, ok_bind, hparsed, ok_bind, m.mounts_read]
  split_ifs <;> rfl

theorem currentCgroup_cases (m : Machine) :
    (m.Complete ∧ ∃ record, detectCurrentCgroup m.fs m.kernel = .ok record ∧ m.Describes record) ∨
      ¬ m.Complete ∧ detectCurrentCgroup m.fs m.kernel = fail .notFound := by
  have hfirst := firstPart_cases m
  rw [detectCurrentCgroup_eq]
  by_cases hnone : m.info.version = .none
  · have hunified : ¬ m.HasUnified := by simp [Machine.HasUnified, hnone]
    have hlegacy : ¬ m.HasLegacy := by simp [Machine.HasLegacy, hnone]
    rw [if_pos hnone]
    refine .inl ⟨⟨fun h => (hunified h).elim, fun h => (hunified h).elim,
      fun h => (hlegacy h).elim⟩, {}, rfl, ⟨hnone.symm, .nil, ?_, ?_⟩⟩
    · intro c
      simp [hunified, hlegacy]
    · intro r
      rw [bounds_of_not hlegacy, Machine.unifiedBounds, unifiedDirs_of_not hunified]
      have hempty : boundsOf (fun dir => (m.group dir).unifiedBound r) [] = ∅ :=
        Set.eq_empty_of_forall_notMem fun b ⟨dir, hdir, _⟩ => by cases hdir
      cases r <;> exact hempty
  rw [if_neg hnone]
  rcases hfirst with ⟨hneeded, record, hr, hversion, hsorted, hmem, hleast⟩ | ⟨hnot, hr⟩
  swap
  · exact .inr ⟨fun h => hnot fun hu => ⟨h.named hu, h.unified hu⟩, by rw [hr, fail_bind]⟩
  rw [hr, ok_bind]
  by_cases hlegacy : m.HasLegacy
  · rw [if_pos (show _ ∨ _ from hlegacy)]
    rcases detectLegacy_cases hlegacy hleast with
      ⟨hpresent, out, hout, houtVersion, hcontrollers, houtLeast⟩ | ⟨hnot, hout⟩
    · refine .inl ⟨⟨fun hu => (hneeded hu).1, fun hu => (hneeded hu).2, fun _ => hpresent⟩, out, hout,
        ⟨houtVersion.trans hversion, ?_, ?_, houtLeast⟩⟩
      · rw [hcontrollers]
        exact pairwise_sortTexts _
      · intro c
        rw [hcontrollers, mem_sortTexts, mem_foldl_addController, hmem, and_iff_right hlegacy]
    · exact .inr ⟨fun h => hnot (h.legacy hlegacy), hout⟩
  · rw [if_neg (show ¬ (_ ∨ _) from hlegacy)]
    refine .inl ⟨⟨fun hu => (hneeded hu).1, fun hu => (hneeded hu).2, fun h => (hlegacy h).elim⟩,
      record, rfl, ⟨hversion, hsorted, ?_, ?_⟩⟩
    · intro c
      rw [hmem, or_iff_left fun h => hlegacy h.1]
    · intro r
      rw [bounds_of_not hlegacy]
      exact hleast r

end Whole

end Syscape.Cgroup
