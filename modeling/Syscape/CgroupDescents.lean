import Syscape.CgroupLimits

/-!
# Cgroups below others

A process in a cgroup below another one is limited by the other one too. A limit that the query
reports is never looser than that of a cgroup above, if the hierarchy is the unified one and both
cgroups are seen through the same mount.
-/
namespace Syscape.Cgroup
open Checked Text LinuxFile Digits Paths

section Jobs

/-- The limits of an app and of a job below it. -/
def jobLimits : List (Path × LimitText) :=
  [(ascii "/sys/fs/cgroup/app/memory.max", .number 1000000 (by decide)),
    (ascii "/sys/fs/cgroup/app/pids.max", .number 64 (by decide)),
    (ascii "/sys/fs/cgroup/app/job/memory.max", .max),
    (ascii "/sys/fs/cgroup/app/job/memory.high", .number 900000 (by decide))]

/-- The job has no controller for the number of processes. -/
def jobControllers : List (Path × ControllerNames) :=
  [(ascii "/sys/fs/cgroup/app/cgroup.controllers",
      ⟨[ascii "cpu", ascii "memory", ascii "pids"], by decide +kernel, by decide⟩),
    (ascii "/sys/fs/cgroup/app/job/cgroup.controllers",
      ⟨[ascii "cpu", ascii "memory"], by decide +kernel, by decide⟩)]

/-- The app has half a processor, and the job asks for one and a half. -/
def jobShares : List (Path × CpuLevel) :=
  [(ascii "/sys/fs/cgroup/app/cpu.max", ⟨some 50000, 100000, by decide, by decide, by decide⟩),
    (ascii "/sys/fs/cgroup/app/job/cpu.max", ⟨some 150000, 100000, by decide, by decide, by decide⟩)]

def jobGroup (dir : Path) : Group where
  controllers := jobControllers.lookup (dir ++ ascii "/cgroup.controllers")
  limits file := jobLimits.lookup (joinPath dir file.filename)
  cpuMax := jobShares.lookup (joinPath dir (ascii "cpu.max"))
  cfs := none

/-- The text of a file of the two cgroups. -/
def jobText (path : Path) : Option (List UInt8) :=
  ((jobLimits.lookup path).map LimitText.text).or
    (((jobControllers.lookup path).map ControllerNames.text).or
      ((jobShares.lookup path).map cpuMaxText))

def jobMountinfo : List UInt8 :=
  ascii "30 23 0:26 / /sys/fs/cgroup rw,nosuid shared:9 - cgroup2 cgroup2 rw\n"

/-- What a process with this entry sees. -/
def jobFiles (entry : List UInt8) : FileSystem := fun path =>
  match jobText path with
  | some text => .content (text ++ ascii "\n")
  | none =>
    if path = procSelfCgroup then .content entry
    else if path = ascii "/proc/self/mountinfo" then .content jobMountinfo
    else .absent

theorem suffix_joinPath (dir name : Path) : name <:+ joinPath dir name := by
  rw [joinPath]
  split_ifs
  · exact List.suffix_append _ _
  · exact List.suffix_append _ _

/-- A file of a cgroup is none of the process. -/
theorem shows_jobFiles {entry : List UInt8} {path name : Path} (h : name <:+ path)
    (hname : ¬ name <:+ procSelfCgroup ∧ ¬ name <:+ ascii "/proc/self/mountinfo")
    {text : Option (List UInt8)} (htext : jobText path = text) : Shows (jobFiles entry) path text := by
  cases text with
  | some text => exact ⟨_, .inr rfl, by rw [jobFiles, htext]⟩
  | none =>
    have hcgroup : path ≠ procSelfCgroup := by
      rintro rfl
      exact hname.1 h
    have hmountinfo : path ≠ ascii "/proc/self/mountinfo" := by
      rintro rfl
      exact hname.2 h
    rw [Shows, jobFiles, htext]
    dsimp only
    rw [if_neg hcgroup, if_neg hmountinfo]

/-- A file whose name no cgroup has a file of does not exist. -/
theorem shows_jobFiles_none {entry : List UInt8} {path name : Path} (h : name <:+ path)
    (hname : ¬ name <:+ procSelfCgroup ∧ ¬ name <:+ ascii "/proc/self/mountinfo")
    (hlimits : ∀ file ∈ jobLimits.map (·.1), ¬ name <:+ file)
    (hcontrollers : ∀ file ∈ jobControllers.map (·.1), ¬ name <:+ file)
    (hshares : ∀ file ∈ jobShares.map (·.1), ¬ name <:+ file) : Shows (jobFiles entry) path none := by
  refine shows_jobFiles h hname ?_
  rw [jobText, lookup_eq_none_of_suffix h hlimits, lookup_eq_none_of_suffix h hcontrollers,
    lookup_eq_none_of_suffix h hshares]
  rfl

theorem shows_jobGroup (entry : List UInt8) (dir : Path) :
    ShowsGroup (jobFiles entry) dir (jobGroup dir) where
  controllers := by
    have h : ascii "/cgroup.controllers" <:+ dir ++ ascii "/cgroup.controllers" :=
      List.suffix_append _ _
    refine shows_jobFiles h (by decide) ?_
    have hlimits : jobLimits.lookup (dir ++ ascii "/cgroup.controllers") = none :=
      lookup_eq_none_of_suffix h (by decide)
    have hshares : jobShares.lookup (dir ++ ascii "/cgroup.controllers") = none :=
      lookup_eq_none_of_suffix h (by decide)
    rw [jobText, hlimits, hshares]
    exact Option.or_none
  limits file := by
    have h := suffix_joinPath dir file.filename
    refine shows_jobFiles h (by cases file <;> decide) ?_
    have hcontrollers : jobControllers.lookup (joinPath dir file.filename) = none :=
      lookup_eq_none_of_suffix h (by cases file <;> decide)
    have hshares : jobShares.lookup (joinPath dir file.filename) = none :=
      lookup_eq_none_of_suffix h (by cases file <;> decide)
    rw [jobText, hcontrollers, hshares]
    exact Option.or_none
  cpuMax := by
    have h := suffix_joinPath dir (ascii "cpu.max")
    refine shows_jobFiles h (by decide) ?_
    rw [jobText, lookup_eq_none_of_suffix h (by decide), lookup_eq_none_of_suffix h (by decide)]
    rfl
  cfsQuota :=
    shows_jobFiles_none (suffix_joinPath dir (ascii "cpu.cfs_quota_us")) (by decide) (by decide)
      (by decide) (by decide)
  cfsPeriod :=
    shows_jobFiles_none (suffix_joinPath dir (ascii "cpu.cfs_period_us")) (by decide) (by decide)
      (by decide) (by decide)

/-- The entry of a process in the cgroup of the path. -/
def jobEntry (path : Path) : List UInt8 := ascii "0::" ++ path ++ ascii "\n"

def jobMounts : List CgroupMountInfo :=
  [⟨ascii "/", ascii "/sys/fs/cgroup", ascii "cgroup2", [ascii "rw"]⟩]

/-- A process in the cgroup of the path. -/
def jobMachine (path : Path)
    (hread : (readTextFile (jobFiles (jobEntry path)) procSelfCgroup (16 * 1024) >>=
      parseCgroupProcFileDetailed) = .ok ⟨.v2, path, []⟩) : Machine where
  fs := jobFiles (jobEntry path)
  kernel := ⟨none, fun _ => false⟩
  group := jobGroup
  shows_group := shows_jobGroup _
  info := ⟨.v2, path, []⟩
  info_read := hread
  mounts := jobMounts
  mounts_read := by
    have hnone : jobText (ascii "/proc/self/mountinfo") = none := by decide +kernel
    have hfile : jobFiles (jobEntry path) (ascii "/proc/self/mountinfo") = .content jobMountinfo := by
      rw [jobFiles, hnone]
      dsimp only
      rw [if_neg (by decide +kernel), if_pos rfl]
    rw [readCgroupMounts, readTextFile_content hfile (by decide +kernel)]
    dsimp only
    decide +kernel

theorem detect_of_v2 {m : Machine} (h : m.info.version = .v2) :
    detectCurrentCgroup m.fs m.kernel = detectUnified m.fs m.kernel m.info m.mounts := by
  have hlegacy : ¬ (m.info.version = .v1 ∨ m.info.version = .hybrid) := by simp [h]
  rw [detectCurrentCgroup_eq, if_neg (by simp [h]), if_pos (.inl h)]
  simp only [if_neg hlegacy]
  exact bind_pure _

/-- The directories of a path, by its names behind those of the mount root. -/
theorem getCgroupAncestorDirs_names {mountPoint mountRoot path : Path} {names : List Path}
    (hpath : Normalised path) (h : components 0x2F path = components 0x2F mountRoot ++ names) :
    getCgroupAncestorDirs mountPoint mountRoot path = upward mountPoint names := by
  obtain ⟨names', hnames, hsplit, hrelative⟩ := relativePath_names hpath ⟨names, h.symm⟩
  obtain rfl : names' = names := List.append_cancel_left (hsplit.symm.trans h)
  rw [getCgroupAncestorDirs, hrelative, ancestorsFrom_names _ hnames]

theorem sortTexts_of_sorted {texts : List (List UInt8)}
    (h : texts.Pairwise fun a b => a.map UInt8.toNat ≤ b.map UInt8.toNat) : sortTexts texts = texts :=
  List.mergeSort_of_pairwise (h.imp fun hle => decide_eq_true hle)

/-- The query in a cgroup with these names below the mount. -/
theorem detect_jobMachine {path target text : Path} (names : List Path) {parents : List Path}
    {controllers : List (List UInt8)} {limits : CgroupLimits} {hread}
    (hpath : Normalised path) (hmount : findCgroup2Mount none jobMounts path =
      some (ascii "/sys/fs/cgroup", ascii "/"))
    (hnames : components 0x2F path = components 0x2F (ascii "/") ++ names)
    (hdirs : upward (ascii "/sys/fs/cgroup") names = target :: parents)
    (hfile : jobFiles (jobEntry path) (target ++ ascii "/cgroup.controllers") = .content text)
    (hlength : text.length ≤ 1024) (hsplit : splitWhitespace text = controllers)
    (hsorted : controllers.Pairwise fun a b => a.map UInt8.toNat ≤ b.map UInt8.toNat)
    (hlimits : unifiedLimits (jobFiles (jobEntry path)) (target :: parents) controllers =
      .ok limits) :
    detectCurrentCgroup (jobMachine path hread).fs (jobMachine path hread).kernel =
      .ok ⟨.v2, path, limits, controllers⟩ := by
  have hne : path ≠ [] := by
    rintro rfl
    cases hpath.1
  have hcontrollers : readCgroup2Controllers (jobFiles (jobEntry path)) target = .ok controllers := by
    simp only [readCgroup2Controllers, statError_content hfile, readTextFile_content hfile hlength,
      ok_bind, hsplit, sortTexts_of_sorted hsorted]
  have hunified : detectUnified (jobFiles (jobEntry path)) ⟨none, fun _ => false⟩ ⟨.v2, path, []⟩
      jobMounts = .ok ⟨.v2, path, limits, controllers⟩ := by
    simp only [detectUnified, if_pos hne, hmount, getCgroupAncestorDirs_names hpath hnames, hdirs,
      hcontrollers, ok_bind, hlimits]
  exact (detect_of_v2 rfl).trans hunified

end Jobs

section Descents

/-- A cgroup of the unified hierarchy and one below it, both seen through the same mount. -/
structure Descent where
  above : Machine
  below : Machine
  same_kernel : below.kernel = above.kernel
  same_mounts : below.mounts = above.mounts
  same_group : below.group = above.group
  above_unified : above.info.version = .v2
  below_unified : below.info.version = .v2
  above_normalised : Normalised above.unifiedPath
  below_normalised : Normalised below.unifiedPath
  components_prefix : components 0x2F above.unifiedPath <+: components 0x2F below.unifiedPath
  same_mount : findCgroup2Mount below.kernel.sysFsCgroup below.mounts below.unifiedPath =
    findCgroup2Mount above.kernel.sysFsCgroup above.mounts above.unifiedPath

/-- The mount that is found covers the path. -/
theorem components_of_findCgroup2Mount {sysFsCgroup : Option ℕ} {mounts : List CgroupMountInfo}
    {path mountPoint mountRoot : Path} (hpath : Normalised path)
    (h : findCgroup2Mount sysFsCgroup mounts path = some (mountPoint, mountRoot)) :
    components 0x2F mountRoot <+: components 0x2F path := by
  rcases @findMount_cases (fun m => decide (m.fstype = ascii "cgroup2")) path mounts with
    ⟨hfind, -⟩ | ⟨m, -, hcovers, hfind, -⟩
  · rw [findCgroup2Mount, hfind] at h
    dsimp only at h
    split_ifs at h with hfallback
    cases h
    obtain ⟨names, -, hcomponents, -⟩ := hpath.exists_names
    exact ⟨names, by rw [components_root, hcomponents]; rfl⟩
  · rw [findCgroup2Mount, hfind] at h
    cases h
    exact (isMountRootPrefix_iff hpath m.root).mp hcovers.2

/-- The directories on the way up from a name are on the way up from the names behind it. -/
theorem mem_upward_of_prefix {mountPoint dir : Path} {names below : List Path}
    (h : names <+: below) (hdir : dir ∈ upward mountPoint names) : dir ∈ upward mountPoint below := by
  obtain ⟨above, habove, rfl⟩ := List.mem_map.mp hdir
  rw [List.mem_reverse, List.mem_inits] at habove
  exact List.mem_map.mpr ⟨above, by rw [List.mem_reverse, List.mem_inits]; exact habove.trans h, rfl⟩

/-- The lower cgroup has the directories of the upper one on its way. -/
theorem Descent.chain (d : Descent) {dirs : List Path} (h : d.above.unifiedChain = some dirs) :
    ∃ dirs', d.below.unifiedChain = some dirs' ∧ ∀ dir ∈ dirs, dir ∈ dirs' := by
  obtain ⟨mount, hmount, rfl⟩ := Option.map_eq_some_iff.mp h
  have hbelow := d.same_mount.trans hmount
  obtain ⟨names, hsplit⟩ := components_of_findCgroup2Mount d.above_normalised hmount
  obtain ⟨names', hsplit'⟩ := components_of_findCgroup2Mount d.below_normalised hbelow
  have hprefix : names <+: names' := by
    have hcomponents := d.components_prefix
    rw [← hsplit, ← hsplit', List.prefix_append_right_inj] at hcomponents
    exact hcomponents
  refine ⟨_, by rw [Machine.unifiedChain, hbelow, Option.map_some], ?_⟩
  intro dir hdir
  rw [getCgroupAncestorDirs_names d.above_normalised hsplit.symm] at hdir
  rw [getCgroupAncestorDirs_names d.below_normalised hsplit'.symm]
  exact mem_upward_of_prefix hprefix hdir

/-- Every limit of the upper cgroup counts for the lower one, if that has the controller. -/
theorem Descent.unifiedBounds_subset (d : Descent) {r : Resource}
    (h : r.controller ∈ d.below.unifiedNames.getD []) :
    d.above.unifiedBounds r ⊆ d.below.unifiedBounds r := by
  rintro b ⟨dir, hdir, hb⟩
  have hdirs : d.above.unifiedDirs r ≠ [] := List.ne_nil_of_mem hdir
  rw [Machine.unifiedDirs, ne_eq, ite_eq_right_iff, not_forall] at hdirs
  obtain ⟨hlisted, hchainNe⟩ := hdirs
  rw [Machine.unifiedDirs, if_pos hlisted] at hdir
  cases hchain : d.above.unifiedChain with
  | none => exact (hchainNe (by rw [hchain, Option.getD_none])).elim
  | some dirs =>
    obtain ⟨dirs', hbelow, hsubset⟩ := d.chain hchain
    rw [hchain, Option.getD_some] at hdir
    refine ⟨dir, ?_, by rw [d.same_group]; exact hb⟩
    rw [Machine.unifiedDirs, if_pos ⟨.inl d.below_unified, h⟩, hbelow, Option.getD_some]
    exact hsubset dir hdir

/-- The second limit is not looser. -/
def AsTight (upper lower : Option ℚ) : Prop := ∀ b ∈ upper, ∃ b' ∈ lower, b' ≤ b

theorem asTight_of_least {upper lower : Set ℚ} {b b' : Option ℚ} (h : upper ⊆ lower)
    (hupper : Least upper b) (hlower : Least lower b') : AsTight b b' := by
  rintro n rfl
  cases b' with
  | none => exact absurd (h hupper.1) (by rw [show lower = ∅ from hlower]; exact id)
  | some n' => exact ⟨n', rfl, hlower.2 (h hupper.1)⟩

/-- The query fails only if a file that it needs is nowhere on the way to the mount point.
Otherwise its limits are the least ones on that way, its shares of the processors included, and
its controllers are those of the cgroup in order. A cgroup is never reported with a looser limit
than one above it for a controller that it has, and without a limit for any other. -/
theorem currentCgroup_limits :
    (∀ m : Machine,
      (m.Complete ∧ ∃ record, detectCurrentCgroup m.fs m.kernel = .ok record ∧ m.Describes record) ∨
        ¬ m.Complete ∧ detectCurrentCgroup m.fs m.kernel = fail .notFound) ∧
    ∀ (d : Descent) (upper lower : CgroupRecord),
      detectCurrentCgroup d.above.fs d.above.kernel = .ok upper →
      detectCurrentCgroup d.below.fs d.below.kernel = .ok lower →
      ∀ r : Resource, if r.controller ∈ d.below.unifiedNames.getD [] then
        AsTight (upper.bound r) (lower.bound r) else lower.bound r = none := by
  refine ⟨currentCgroup_cases, ?_⟩
  intro d upper lower hupper hlower r
  have hleast : ∀ (m : Machine) (record : CgroupRecord), m.info.version = .v2 →
      detectCurrentCgroup m.fs m.kernel = .ok record → Least (m.unifiedBounds r) (record.bound r) := by
    intro m record hversion hrecord
    have hlegacy : ¬ m.HasLegacy := by simp [Machine.HasLegacy, hversion]
    rw [← bounds_of_not hlegacy]
    rcases currentCgroup_cases m with ⟨-, record', hrecord', hdescribes⟩ | ⟨-, hfails⟩
    · rw [hrecord] at hrecord'
      cases hrecord'
      exact hdescribes.least r
    · rw [hrecord] at hfails
      cases hfails
  have hlow := hleast d.below lower d.below_unified hlower
  split_ifs with hlisted
  · exact asTight_of_least (d.unifiedBounds_subset hlisted)
      (hleast d.above upper d.above_unified hupper) hlow
  · have hdirs : d.below.unifiedDirs r = [] := if_neg fun h => hlisted h.2
    rw [Machine.unifiedBounds, hdirs] at hlow
    cases hbound : lower.bound r with
    | none => rfl
    | some b =>
      rw [hbound] at hlow
      obtain ⟨dir, hdir, -⟩ := hlow.1
      cases hdir

def jobDescent : Descent where
  above := jobMachine (ascii "/app") (by decide +kernel)
  below := jobMachine (ascii "/app/job") (by decide +kernel)
  same_kernel := rfl
  same_mounts := rfl
  same_group := rfl
  above_unified := rfl
  below_unified := rfl
  above_normalised := by decide +kernel
  below_normalised := by decide +kernel
  components_prefix := by decide +kernel
  same_mount := by decide +kernel

/-- A job below an app: the limits of the app count for it too, but for the number of
processes. -/
theorem job_below_app : ∃ upper lower : CgroupRecord,
    detectCurrentCgroup jobDescent.above.fs jobDescent.above.kernel = .ok upper ∧
    detectCurrentCgroup jobDescent.below.fs jobDescent.below.kernel = .ok lower ∧
    upper.limits = ⟨some 1000000, none, none, ⟨some 50000, some 100000⟩, some 64⟩ ∧
    lower.limits = ⟨some 1000000, some 900000, none, ⟨some 50000, some 100000⟩, none⟩ ∧
    ∀ r : Resource, if r.controller ∈ jobDescent.below.unifiedNames.getD [] then
      AsTight (upper.bound r) (lower.bound r) else lower.bound r = none := by
  have hupper : detectCurrentCgroup jobDescent.above.fs jobDescent.above.kernel =
      .ok ⟨.v2, ascii "/app", ⟨some 1000000, none, none, ⟨some 50000, some 100000⟩, some 64⟩,
        [ascii "cpu", ascii "memory", ascii "pids"]⟩ :=
    detect_jobMachine [ascii "app"] (by decide +kernel) (by decide +kernel) (by decide +kernel) rfl
      rfl (by decide +kernel) (by decide +kernel) (by decide +kernel) (by decide +kernel)
  have hlower : detectCurrentCgroup jobDescent.below.fs jobDescent.below.kernel =
      .ok ⟨.v2, ascii "/app/job",
        ⟨some 1000000, some 900000, none, ⟨some 50000, some 100000⟩, none⟩,
        [ascii "cpu", ascii "memory"]⟩ :=
    detect_jobMachine [ascii "app", ascii "job"] (by decide +kernel) (by decide +kernel)
      (by decide +kernel) rfl rfl (by decide +kernel) (by decide +kernel) (by decide +kernel)
      (by decide +kernel)
  exact ⟨_, _, hupper, hlower, rfl, rfl, currentCgroup_limits.2 jobDescent _ _ hupper hlower⟩

end Descents

end Syscape.Cgroup
