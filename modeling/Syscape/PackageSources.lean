import Syscape.Listings
import Syscape.NetworkStatistics
import Syscape.PackageDatabases
import Syscape.Packages

/-!
# Where packages are listed

Packages are collected from the descriptions of pacman, the status file of dpkg, the database of
apk and the desktop entries of the system and the user. A source that is missing counts for
nothing, and any other failure is what the whole query ends with.
-/
namespace Syscape.Software
open Checked FirstSeen LinuxFile StdSort Text
open Syscape.Connection (enotdir)
open Syscape.Network (isNotADirectory)

section Queries

/-- What the system answers: its files and directories, `HOME`, the first size of the buffer for
the account, and the home directory that `getpwuid_r` stores into a buffer of that size. -/
structure PackageSystem where
  fileSystem : FileSystem
  directories : Path → Listing
  home : Option Path
  bufSize : ℕ
  getpwuid : ℕ → Except ℤ (Option Path)

/-- `ERANGE`. -/
def erange : ℤ := 34

/-- The loop of `get_user_home_dir`, with the number of attempts that are left. -/
def lookUpHome (getpwuid : ℕ → Except ℤ (Option Path)) : ℕ → ℕ → Result (Option Path)
  | 0, _ => fail .valueTooLarge
  | attempts + 1, bufSize =>
    match getpwuid bufSize with
    | .ok (some directory) => .ok (if directory ≠ [] then some directory else none)
    | .ok none => .ok none
    | .error err =>
      if err = erange then lookUpHome getpwuid attempts (bufSize * 2) else failErrno err

/-- `get_user_home_dir`. -/
def getUserHomeDir (sys : PackageSystem) : Result (Option Path) :=
  match sys.home with
  | some home => if home ≠ [] then .ok (some home) else lookUpHome sys.getpwuid 5 sys.bufSize
  | none => lookUpHome sys.getpwuid 5 sys.bufSize

/-- The locals of `installed_packages`. -/
structure Discovery where
  found : Found := {}
  anySourceFound : Bool := false
  lastError : Option (Fault ErrorCode) := none

def Discovery.add (s : Discovery) (rec : PackageRecord) : Discovery :=
  { s with found := addUniquePackage s.found rec }

def Discovery.fail (s : Discovery) (e : Fault ErrorCode) : Discovery :=
  { s with lastError := some e }

/-- The loop over a directory, given what it does with a name. -/
def scanDirectory (s : Discovery) (listing : Listing) (entry : Discovery → Path → Discovery) :
    Discovery :=
  scanListing Discovery.fail (fun s => { s with anySourceFound := true }) entry s listing

/-- `/var/lib/pacman/local/<name>/desc`. -/
def descPath (name : Path) : Path := ascii "/var/lib/pacman/local/" ++ name ++ ascii "/desc"

/-- The loop over the packages of pacman. -/
def pacmanEntry (fs : FileSystem) (s : Discovery) (name : Path) : Discovery :=
  match readTextFile fs (descPath name) (128 * 1024) with
  | .error e => if isNoSuchFile e = false ∧ isNotADirectory e = false then s.fail e else s
  | .ok content =>
    match parsePacmanDesc content with
    | none => s
    | some rec => s.add rec

/-- The part for a database in one file, given its reader. -/
def readDatabase (fs : FileSystem) (s : Discovery) (path : Path) (maximumSize : ℕ)
    (parse : List UInt8 → List PackageRecord) : Discovery :=
  match readTextFile fs path maximumSize with
  | .ok content =>
    if content ≠ [] then (parse content).foldl Discovery.add { s with anySourceFound := true } else s
  | .error e => if isNoSuchFile e = false then s.fail e else s

/-- The loop over the entries of an application directory. -/
def applicationEntry (fs : FileSystem) (dir : Path) (s : Discovery) (filename : Path) : Discovery :=
  if ¬ hasSuffix (ascii ".desktop") filename then s
  else
    match readTextFile fs (dir ++ ascii "/" ++ filename) (64 * 1024) with
    | .error e => if isNoSuchFile e = false then s.fail e else s
    | .ok content =>
      match parseDesktopEntry content with
      | none => s
      | some rec => s.add rec

/-- `app_dirs`. -/
def appDirs (home : Option Path) : List Path :=
  [ascii "/usr/share/applications", ascii "/usr/local/share/applications"] ++
    (home.map (· ++ ascii "/.local/share/applications")).toList

/-- The databases, in the order in which `installed_packages` reads them. -/
def scanDatabases (sys : PackageSystem) : Discovery :=
  let s := scanDirectory {} (sys.directories (ascii "/var/lib/pacman/local"))
    (pacmanEntry sys.fileSystem)
  let s := readDatabase sys.fileSystem s (ascii "/var/lib/dpkg/status") (32 * 1024 * 1024)
    fun content => (parseDpkgStatus content []).2
  readDatabase sys.fileSystem s (ascii "/lib/apk/db/installed") (16 * 1024 * 1024)
    fun content => parseApkInstalled content []

/-- `installed_packages`. -/
def queryInstalledPackages (sorter : Sorter comparePackages) (sys : PackageSystem) :
    Result (List PackageRecord) := do
  let s := scanDatabases sys
  let home ← getUserHomeDir sys
  let s := (appDirs home).foldl (fun s dir =>
    scanDirectory s (sys.directories dir) (applicationEntry sys.fileSystem dir)) s
  match s.lastError with
  | some e => .error e
  | none =>
    if s.anySourceFound = false ∧ s.found.pkgs = [] then fail .notSupported
    else .ok (sorter.sort s.found.pkgs)

/-- `find_package`. -/
def findPackage (sorter : Sorter comparePackages) (sys : PackageSystem) (name : List UInt8) :
    Result PackageRecord :=
  if name = [] then fail .invalidArgument
  else do
    let all ← queryInstalledPackages sorter sys
    match all.find? (·.name = name) with
    | some item => .ok item
    | none => fail .notFound

end Queries

section Machines

/-- An account: its home directory, and how many bytes a buffer for it needs. -/
structure HomeAccount where
  directory : Path
  needed : ℕ

/-- A machine on which packages are installed. -/
structure Machine where
  directories : Path → Listing
  home : Option Path
  bufSize : ℕ
  account : Except ℤ (Option HomeAccount)
  fileSystem : FileSystem
  pacman : Path → DatabaseFile DescFile
  dpkg : DatabaseFile StatusFile
  apk : DatabaseFile ApkFile
  applications : Path → Path → DatabaseFile IniFile
  pacman_entry : ∀ name, fileSystem (descPath name) = (pacman name).entry DescFile.content
  dpkg_entry : fileSystem (ascii "/var/lib/dpkg/status") = dpkg.entry StatusFile.content
  apk_entry : fileSystem (ascii "/lib/apk/db/installed") = apk.entry ApkFile.content
  application_entry : ∀ dir filename, hasSuffix (ascii ".desktop") filename →
    fileSystem (dir ++ ascii "/" ++ filename) = (applications dir filename).entry IniFile.content

/-- The answers of the machine. -/
def Machine.system (m : Machine) : PackageSystem where
  fileSystem := m.fileSystem
  directories := m.directories
  home := m.home
  bufSize := m.bufSize
  getpwuid size := m.account >>= fun account =>
    match account with
    | none => .ok none
    | some a => if a.needed ≤ size then .ok (some a.directory) else .error erange

/-- What is found in a database that has these packages. -/
def databaseFindings {α : Type} (content : α → List UInt8) (packages : α → List PackageRecord)
    (a : α) : List (Finding PackageRecord) :=
  if content a = [] then [] else .source :: (packages a).map .record

/-- What is found on the machine, for a user with that home directory. -/
def Machine.findings (m : Machine) (home : Option Path) : List (Finding PackageRecord) :=
  (m.directories (ascii "/var/lib/pacman/local")).findings
    (fun name => (m.pacman name).findings [enoent, enotdir] (128 * 1024) DescFile.content
      fun file => (file.package.map .record).toList) ++
  m.dpkg.findings [enoent] (32 * 1024 * 1024) StatusFile.content
    (databaseFindings StatusFile.content fun file =>
      (file.packages.filter (ReadsInstalled ·)).map Stanza.package) ++
  m.apk.findings [enoent] (16 * 1024 * 1024) ApkFile.content
    (databaseFindings ApkFile.content ApkFile.packages) ++
  (appDirs home).flatMap fun dir => (m.directories dir).findings fun filename =>
    if hasSuffix (ascii ".desktop") filename then
      (m.applications dir filename).findings [enoent] (64 * 1024) IniFile.content
        fun file => (file.application.map .record).toList
    else []

/-- The home directory of the user: that of the environment, or that of the account, if a buffer of
sixteen times the first size is large enough for it. -/
def Machine.homeDirectory (m : Machine) : Result (Option Path) :=
  if m.home.getD [] ≠ [] then .ok m.home
  else
    match m.account with
    | .error err => if err = erange then fail .valueTooLarge else failErrno err
    | .ok none => .ok none
    | .ok (some a) =>
      if a.needed ≤ m.bufSize * 16 then .ok (if a.directory ≠ [] then some a.directory else none)
      else fail .valueTooLarge

/-- The packages of the machine: the last failure, or the records without duplicates and in
order. -/
def Machine.packages (m : Machine) (sorter : Sorter comparePackages) :
    Result (List PackageRecord) := do
  let home ← m.homeDirectory
  let findings := m.findings home
  match (findings.filterMap Finding.failure?).getLast? with
  | some e => .error e
  | none =>
    if Finding.source ∉ findings then fail .notSupported
    else .ok (sorter.sort (firsts SamePackage (findings.filterMap Finding.record?)))

end Machines

section Scans
variable {s : Discovery} {fs : FileSystem}

/-- What the query makes of a finding. -/
def Discovery.see (s : Discovery) (finding : Finding PackageRecord) : Discovery :=
  Software.see Discovery.fail (fun s => { s with anySourceFound := true }) Discovery.add s finding

theorem foldl_add (records : List PackageRecord) (s : Discovery) :
    records.foldl Discovery.add s = (records.map Finding.record).foldl Discovery.see s := by
  rw [List.foldl_map]
  rfl

theorem pacmanEntry_eq {name : Path} {file : DatabaseFile DescFile}
    (h : fs (descPath name) = file.entry DescFile.content) :
    pacmanEntry fs s name =
      (file.findings [enoent, enotdir] (128 * 1024) DescFile.content fun file =>
        (file.package.map .record).toList).foldl Discovery.see s := by
  rw [pacmanEntry, readTextFile_entry h]
  cases file with
  | absent => rfl
  | fails errno =>
    by_cases hignored : errno ∈ [enoent, enotdir]
    · have hcounts : ¬ (isNoSuchFile (.fail (.generic errno)) = false ∧
          isNotADirectory (.fail (.generic errno)) = false) := by
        rintro ⟨hfile, hdirectory⟩
        rcases List.mem_pair.mp hignored with rfl | rfl
        · exact absurd hfile (by decide)
        · exact absurd hdirectory (by decide)
      simp only [DatabaseFile.read, failErrno, if_neg hcounts, DatabaseFile.findings,
        if_pos hignored, List.foldl_nil]
    · have hcounts : isNoSuchFile (.fail (.generic errno)) = false ∧
          isNotADirectory (.fail (.generic errno)) = false := by
        simpa [isNoSuchFile, isNotADirectory] using hignored
      simp only [DatabaseFile.read, failErrno, if_pos hcounts, DatabaseFile.findings,
        if_neg hignored]
      rfl
  | written file =>
    rw [DatabaseFile.read, DatabaseFile.findings]
    split_ifs with hlarge
    · rfl
    · dsimp only
      rw [parsePacmanDesc_content]
      cases file.package with
      | none => rfl
      | some rec => rfl

theorem readDatabase_eq {α : Type} {path : Path} {content : α → List UInt8}
    {file : DatabaseFile α} (h : fs path = file.entry content) (maximumSize : ℕ)
    {parse : List UInt8 → List PackageRecord} {packages : α → List PackageRecord}
    (hparse : ∀ a, parse (content a) = packages a) :
    readDatabase fs s path maximumSize parse =
      (file.findings [enoent] maximumSize content (databaseFindings content packages)).foldl
        Discovery.see s := by
  rw [readDatabase, readTextFile_entry h]
  cases file with
  | absent => rfl
  | fails errno => exact (foldl_findings_fails _ _ _ errno _ _ _ s).symm
  | written a =>
    rw [DatabaseFile.read, DatabaseFile.findings]
    split_ifs with hlarge
    · rfl
    · dsimp only
      rw [databaseFindings]
      by_cases hempty : content a = []
      · rw [if_neg (not_not_intro hempty), if_pos hempty, List.foldl_nil]
      · rw [if_pos hempty, if_neg hempty, hparse, foldl_add]
        rfl

theorem applicationEntry_eq {dir filename : Path} {file : DatabaseFile IniFile}
    (h : hasSuffix (ascii ".desktop") filename →
      fs (dir ++ ascii "/" ++ filename) = file.entry IniFile.content) :
    applicationEntry fs dir s filename =
      (if hasSuffix (ascii ".desktop") filename then
        file.findings [enoent] (64 * 1024) IniFile.content fun file =>
          (file.application.map .record).toList
      else []).foldl Discovery.see s := by
  by_cases hsuffix : hasSuffix (ascii ".desktop") filename
  · rw [applicationEntry, if_neg (not_not_intro hsuffix), readTextFile_entry (h hsuffix),
      if_pos hsuffix]
    cases file with
    | absent => rfl
    | fails errno => exact (foldl_findings_fails _ _ _ errno _ _ _ s).symm
    | written file =>
      rw [DatabaseFile.read, DatabaseFile.findings]
      split_ifs with hlarge
      · rfl
      · dsimp only
        rw [parseDesktopEntry_content]
        cases file.application with
        | none => rfl
        | some rec => rfl
  · rw [applicationEntry, if_pos hsuffix, if_neg hsuffix, List.foldl_nil]

end Scans

section Inventory
variable {m : Machine}

/-- The last failure, the records and the sources are kept. -/
theorem foldl_see (findings : List (Finding PackageRecord)) :
    findings.foldl Discovery.see {} =
      { found := (findings.filterMap Finding.record?).foldl addUniquePackage {}
        anySourceFound := decide (Finding.source ∈ findings)
        lastError := (findings.filterMap Finding.failure?).getLast? } := by
  induction findings using List.reverseRecOn with
  | nil => rfl
  | append_singleton findings finding ih =>
    rw [List.foldl_append, List.foldl_cons, List.foldl_nil, ih, List.filterMap_append,
      List.filterMap_append, List.foldl_append]
    cases finding with
    | source =>
      have hrecord : [Finding.source].filterMap (@Finding.record? PackageRecord) = [] := rfl
      simp [Discovery.see, see, hrecord, Finding.failure?]
    | record rec => simp [Discovery.see, see, Discovery.add, Finding.record?, Finding.failure?]
    | failure e =>
      have hrecord : [Finding.failure e].filterMap (@Finding.record? PackageRecord) = [] := rfl
      simp [Discovery.see, see, Discovery.fail, hrecord, Finding.failure?]

theorem fromSource_database {α : Type} (file : DatabaseFile α) (ignored : List ℤ) (maximumSize : ℕ)
    (content : α → List UInt8) (packages : α → List PackageRecord) :
    FromSource (file.findings ignored maximumSize content (databaseFindings content packages)) := by
  intro rec hrec
  cases file with
  | absent => cases hrec
  | fails errno =>
    rw [DatabaseFile.findings] at hrec
    split_ifs at hrec
    · cases hrec
    · cases List.mem_singleton.mp hrec
  | written a =>
    rw [DatabaseFile.findings, databaseFindings] at hrec ⊢
    split_ifs at hrec ⊢
    · cases List.mem_singleton.mp hrec
    · cases hrec
    · exact List.mem_cons_self

theorem Machine.fromSource_findings (m : Machine) (home : Option Path) :
    FromSource (m.findings home) := by
  exact .append (.append (.append (fromSource_listing _ _) (fromSource_database _ _ _ _ _))
    (fromSource_database _ _ _ _ _)) (.flatMap fun _ => fromSource_listing _ _)

theorem lookUpHome_eq (account : Except ℤ (Option HomeAccount)) (attempts size : ℕ) :
    lookUpHome (fun size => account >>= fun account =>
        match account with
        | none => .ok none
        | some a => if a.needed ≤ size then .ok (some a.directory) else .error erange)
        (attempts + 1) size =
      match account with
      | .error err => if err = erange then fail .valueTooLarge else failErrno err
      | .ok none => .ok none
      | .ok (some a) =>
        if a.needed ≤ size * 2 ^ attempts then
          .ok (if a.directory ≠ [] then some a.directory else none)
        else fail .valueTooLarge := by
  induction attempts generalizing size with
  | zero =>
    rw [pow_zero, mul_one]
    match account with
    | .error err =>
      simp only [lookUpHome, error_bind]
    | .ok none => rfl
    | .ok (some a) =>
      simp only [lookUpHome, ok_bind]
      by_cases hfits : a.needed ≤ size
      · simp only [if_pos hfits]
      · simp only [if_neg hfits, if_true]
  | succ attempts ih =>
    have hnext := ih (size * 2)
    rw [lookUpHome]
    match account with
    | .error err =>
      simp only [error_bind] at hnext ⊢
      by_cases herange : err = erange
      · rw [if_pos herange, hnext]
      · rw [if_neg herange, if_neg herange]
    | .ok none => rfl
    | .ok (some a) =>
      simp only [ok_bind] at hnext ⊢
      by_cases hfits : a.needed ≤ size
      · have hlater : a.needed ≤ size * 2 ^ (attempts + 1) :=
          hfits.trans (Nat.le_mul_of_pos_right _ (Nat.two_pow_pos _))
        simp only [if_pos hfits, if_pos hlater]
      · simp only [if_neg hfits, if_true]
        rw [hnext, mul_assoc, ← pow_succ']

theorem getUserHomeDir_system (m : Machine) : getUserHomeDir m.system = m.homeDirectory := by
  have haccount := lookUpHome_eq m.account 4 m.bufSize
  have hsixteen : 2 ^ 4 = 16 := rfl
  rw [hsixteen] at haccount
  unfold getUserHomeDir Machine.homeDirectory
  show (match m.home with
    | some home => if home ≠ [] then Except.ok (some home) else lookUpHome m.system.getpwuid 5 m.bufSize
    | none => lookUpHome m.system.getpwuid 5 m.bufSize) = _
  cases hhome : m.home with
  | none => exact haccount
  | some home =>
    dsimp only
    by_cases hempty : home = []
    · rw [if_neg (not_not_intro hempty), if_neg (by simpa using hempty)]
      exact haccount
    · rw [if_pos hempty, if_pos (by simpa using hempty)]

theorem scanDatabases_system (m : Machine) (home : Option Path) :
    (appDirs home).foldl (fun s dir => scanDirectory s (m.system.directories dir)
        (applicationEntry m.system.fileSystem dir)) (scanDatabases m.system) =
      (m.findings home).foldl Discovery.see {} := by
  have hdirs : ∀ (dirs : List Path) (s : Discovery),
      dirs.foldl (fun s dir => scanDirectory s (m.system.directories dir)
        (applicationEntry m.system.fileSystem dir)) s =
      (dirs.flatMap fun dir => (m.directories dir).findings fun filename =>
        if hasSuffix (ascii ".desktop") filename then
          (m.applications dir filename).findings [enoent] (64 * 1024) IniFile.content
            fun file => (file.application.map .record).toList
        else []).foldl Discovery.see s := by
    intro dirs
    induction dirs with
    | nil => exact fun _ => rfl
    | cons dir dirs ih =>
      intro s
      rw [List.foldl_cons, ih, List.flatMap_cons, List.foldl_append]
      congr 1
      have hentry : ∀ s filename, applicationEntry m.system.fileSystem dir s filename =
          (if hasSuffix (ascii ".desktop") filename then
            (m.applications dir filename).findings [enoent] (64 * 1024) IniFile.content
              fun file => (file.application.map .record).toList
          else []).foldl Discovery.see s :=
        fun s filename => applicationEntry_eq (m.application_entry dir filename)
      exact scanListing_eq hentry s _
  rw [hdirs, Machine.findings, List.foldl_append, List.foldl_append, List.foldl_append]
  congr 1
  unfold scanDatabases
  dsimp only
  have hdpkg : ∀ file : StatusFile, (parseDpkgStatus file.content []).2 =
      (file.packages.filter (ReadsInstalled ·)).map Stanza.package := by
    intro file
    rw [parseDpkgStatus_content, List.nil_append]
  have hapk : ∀ file : ApkFile, parseApkInstalled file.content [] = file.packages := by
    intro file
    rw [parseApkInstalled_content, List.nil_append]
  have hfiles : m.system.fileSystem = m.fileSystem := rfl
  rw [hfiles, readDatabase_eq m.apk_entry _ hapk, readDatabase_eq m.dpkg_entry _ hdpkg,
    scanDirectory, scanListing_eq fun s name => pacmanEntry_eq (m.pacman_entry name)]
  rfl

/-- The query lists the packages of the machine. -/
theorem queryInstalledPackages_system (sorter : Sorter comparePackages) (m : Machine) :
    queryInstalledPackages sorter m.system = m.packages sorter := by
  rw [queryInstalledPackages, Machine.packages, getUserHomeDir_system]
  cases hhome : m.homeDirectory with
  | error e => rfl
  | ok home =>
    rw [ok_bind, ok_bind, scanDatabases_system, foldl_see]
    have hunique : (((m.findings home).filterMap Finding.record?).foldl addUniquePackage {}).pkgs =
        firsts SamePackage ((m.findings home).filterMap Finding.record?) := uniquePackages_eq _
    dsimp only
    rw [hunique]
    cases ((m.findings home).filterMap Finding.failure?).getLast? with
    | some e => rfl
    | none =>
      dsimp only
      by_cases hsource : Finding.source ∈ m.findings home
      · rw [if_neg (by simp [hsource]), if_neg (not_not_intro hsource)]
      · rw [(m.fromSource_findings home).eq_nil hsource, if_pos ⟨by simp [hsource], rfl⟩,
          if_pos hsource]

theorem samePackage_trans (a b c : PackageRecord) (hab : SamePackage a b) (hbc : SamePackage b c) :
    SamePackage a c := by
  rw [← makePackageDedupKey_eq_iff] at hab hbc ⊢
  exact hab.trans hbc

/-- The names of the packages are those of the records that are found. -/
theorem exists_package_iff {sorter : Sorter comparePackages} {out : List PackageRecord}
    (hout : m.packages sorter = .ok out) {home : Option Path} (hhome : m.homeDirectory = .ok home)
    (name : List UInt8) :
    (∃ rec ∈ out, rec.name = name) ↔ ∃ rec, Finding.record rec ∈ m.findings home ∧
      rec.name = name := by
  rw [Machine.packages, hhome, ok_bind] at hout
  dsimp only at hout
  cases hlast : ((m.findings home).filterMap Finding.failure?).getLast? with
  | some e =>
    rw [hlast] at hout
    cases hout
  | none =>
    rw [hlast] at hout
    dsimp only at hout
    by_cases hsource : Finding.source ∈ m.findings home
    · rw [if_neg (not_not_intro hsource)] at hout
      cases hout
      constructor
      · rintro ⟨rec, hrec, hname⟩
        have hfirst := (sorter.perm _).mem_iff.mp hrec
        exact ⟨rec, mem_filterMap_record?.mp (mem_of_mem_firsts hfirst), hname⟩
      · rintro ⟨rec, hrec, hname⟩
        obtain ⟨kept, hkept, hsame⟩ := firsts_covers (fun a => ⟨rfl, rfl, rfl, rfl, rfl⟩)
          samePackage_trans (mem_filterMap_record?.mpr hrec)
        exact ⟨kept, (sorter.perm _).mem_iff.mpr hkept, hsame.1.trans hname⟩
    · rw [if_pos hsource] at hout
      cases hout

/-- A package is found by a name if there is a record with it. -/
theorem findPackage_eq_ok_iff {sorter : Sorter comparePackages} {out : List PackageRecord}
    (hout : m.packages sorter = .ok out) {home : Option Path} (hhome : m.homeDirectory = .ok home)
    {name : List UInt8} (hname : name ≠ []) :
    (∃ rec, findPackage sorter m.system name = .ok rec ∧ rec ∈ out ∧ rec.name = name) ↔
      ∃ rec, Finding.record rec ∈ m.findings home ∧ rec.name = name := by
  rw [← exists_package_iff hout hhome, findPackage, if_neg hname, queryInstalledPackages_system,
    hout, ok_bind]
  constructor
  · rintro ⟨rec, -, hrec⟩
    exact ⟨rec, hrec⟩
  · rintro ⟨rec, hrec, hrecName⟩
    cases hfind : out.find? (·.name = name) with
    | none =>
      have hnone := List.find?_eq_none.mp hfind rec hrec
      exact absurd hrecName (by simpa using hnone)
    | some item =>
      exact ⟨item, rfl, List.mem_of_find?_eq_some hfind, by simpa using List.find?_some hfind⟩

/-- The packages of a machine are listed, each once and in order, from all databases and desktop
entries, as far as nothing fails; and each of them is found by its name. -/
theorem installed_packages_of_machine (sorter : Sorter comparePackages) (m : Machine) :
    queryInstalledPackages sorter m.system = m.packages sorter ∧
    ∀ out, m.packages sorter = .ok out → ∀ home, m.homeDirectory = .ok home → ∀ name, name ≠ [] →
      ((∃ rec, findPackage sorter m.system name = .ok rec ∧ rec ∈ out ∧ rec.name = name) ↔
        ∃ rec, Finding.record rec ∈ m.findings home ∧ rec.name = name) :=
  ⟨queryInstalledPackages_system sorter m,
    fun _ hout _ hhome _ hname => findPackage_eq_ok_iff hout hhome hname⟩

end Inventory

section Workstation

lemma line_nil : (0x0A : UInt8) ∉ ([] : List UInt8) := List.not_mem_nil

/-- A line with nothing on it. -/
def emptyLine : BlankLine := ⟨[], List.forall_mem_nil _, line_nil⟩

/-- A field of the status file, on one line. -/
def workField (name text : List UInt8)
    (h : name ≠ [] ∧ (∀ c ∈ name, isspace c = false ∧ c ≠ 0x3A) ∧ 0x0A ∉ text) : Field :=
  plainField name text h.1 h.2.1 h.2.2

/-- The descriptions of pacman, and a file in their directory that is none. -/
def workDescs : List (Path × DatabaseFile DescFile) :=
  [(descPath (ascii "zlib-1.3-1"), .written
      ⟨[⟨ascii "NAME", by decide, by decide,
          [⟨ascii "zlib", by decide, by decide +kernel, by decide, by decide⟩],
          [emptyLine]⟩,
        ⟨ascii "VERSION", by decide, by decide,
          [⟨ascii "1.3-1", by decide, by decide +kernel, by decide, by decide⟩], []⟩]⟩),
    (descPath (ascii "ALPM_DB_VERSION"), .fails enotdir)]

/-- An installed package and one of which only the configuration is left. -/
def workStatus : StatusFile where
  before := []
  stanzas :=
    [(⟨[workField (ascii "Package") (ascii " bash") (by decide),
        workField (ascii "Status") (ascii " install ok installed") (by decide)],
      ⟨ascii "bash", by decide +kernel, by decide⟩⟩, emptyLine, [])]
  last := some
    (⟨[workField (ascii "Package") (ascii " nano") (by decide),
        workField (ascii "Status") (ascii " deinstall ok config-files") (by decide)],
      ⟨ascii "nano", by decide +kernel, by decide⟩⟩, true)

def workApk : ApkFile where
  stanzas :=
    [([⟨0x50, by decide, ascii "musl", by decide⟩, ⟨0x56, by decide, ascii "1.2.5", by decide⟩],
      emptyLine)]
  last := []

/-- The same desktop entry for all users and for one. -/
def workEntry : IniFile where
  before := []
  groups :=
    [⟨ascii "Desktop Entry", by decide,
      [.assign ⟨ascii "Type", by decide, by decide, by decide, by decide, ascii "Application",
          by decide⟩,
        .assign ⟨ascii "Name", by decide, by decide, by decide, by decide, ascii "Editor",
          by decide⟩]⟩]

def workEntries : List (Path × IniFile) :=
  [(ascii "/usr/share/applications/editor.desktop", workEntry),
    (ascii "/home/u/.local/share/applications/editor.desktop", workEntry)]

def workDirectories : List (Path × List Path) :=
  [(ascii "/var/lib/pacman/local", [ascii ".", ascii "ALPM_DB_VERSION", ascii "zlib-1.3-1"]),
    (ascii "/usr/share/applications", [ascii "editor.desktop", ascii "mimeinfo.cache"]),
    (ascii "/home/u/.local/share/applications", [ascii "editor.desktop"])]

/-- A database of a file of its own. -/
def workDatabase (path : Path) : FileEntry :=
  if path = ascii "/var/lib/dpkg/status" then .content workStatus.content
  else if path = ascii "/lib/apk/db/installed" then .content workApk.content
  else .absent

def workFiles : FileSystem := fun path =>
  match workDescs.lookup path, workEntries.lookup path with
  | some file, _ => file.entry DescFile.content
  | none, some file => .content file.content
  | none, none => workDatabase path

theorem workDatabase_absent {path suffix : Path} (h : suffix <:+ path)
    (hstatus : ¬ suffix <:+ ascii "/var/lib/dpkg/status")
    (hinstalled : ¬ suffix <:+ ascii "/lib/apk/db/installed") : workDatabase path = .absent := by
  rw [workDatabase, if_neg, if_neg]
  · rintro rfl
    exact hinstalled h
  · rintro rfl
    exact hstatus h

def workMachine : Machine where
  directories path :=
    (workDirectories.lookup path).elim (.failed enoent) fun names => .opened names none
  home := some (ascii "/home/u")
  bufSize := 1024
  account := .ok none
  fileSystem := workFiles
  pacman name := (workDescs.lookup (descPath name)).getD .absent
  dpkg := .written workStatus
  apk := .written workApk
  applications dir filename :=
    (workEntries.lookup (dir ++ ascii "/" ++ filename)).elim .absent .written
  pacman_entry name := by
    have hsuffix : ascii "/desc" <:+ descPath name := List.suffix_append _ _
    have hentries : workEntries.lookup (descPath name) = none :=
      lookup_eq_none_of_suffix hsuffix (by decide)
    rw [workFiles, hentries]
    cases workDescs.lookup (descPath name) with
    | some file => rfl
    | none => exact workDatabase_absent hsuffix (by decide) (by decide)
  dpkg_entry := by decide +kernel
  apk_entry := by decide +kernel
  application_entry dir filename h := by
    have hsuffix : ascii ".desktop" <:+ dir ++ ascii "/" ++ filename :=
      h.2.trans (List.suffix_append _ _)
    have hdescs : workDescs.lookup (dir ++ ascii "/" ++ filename) = none :=
      lookup_eq_none_of_suffix hsuffix (by decide)
    rw [workFiles, hdescs]
    cases workEntries.lookup (dir ++ ascii "/" ++ filename) with
    | some file => rfl
    | none => exact workDatabase_absent hsuffix (by decide) (by decide)

def workPackages : List PackageRecord :=
  [{ name := ascii "zlib", version := some (ascii "1.3-1"), format := .pacman },
    { name := ascii "bash", format := .dpkg },
    { name := ascii "musl", version := some (ascii "1.2.5"), format := .apk },
    { name := ascii "Editor", format := .desktopEntry }]

/-- A machine with a package in each kind of source: the package that is not installed and the
second desktop entry do not count. -/
theorem packages_of_workMachine : ∃ out,
    queryInstalledPackages (Sorter.merge strictWeak_comparePackages) workMachine.system = .ok out ∧
    out.Perm workPackages ∧
    (∃ rec, findPackage (Sorter.merge strictWeak_comparePackages) workMachine.system
      (ascii "musl") = .ok rec ∧ rec ∈ out ∧ rec.name = ascii "musl") ∧
    ¬ ∃ rec, findPackage (Sorter.merge strictWeak_comparePackages) workMachine.system
      (ascii "nano") = .ok rec ∧ rec ∈ out ∧ rec.name = ascii "nano" := by
  have hhome : workMachine.homeDirectory = .ok (some (ascii "/home/u")) := if_pos (by decide)
  have hfailures : (workMachine.findings (some (ascii "/home/u"))).filterMap Finding.failure? =
      [] := by
    decide +kernel
  have hsource : Finding.source ∈ workMachine.findings (some (ascii "/home/u")) := by
    decide +kernel
  have hfirsts : firsts SamePackage
      ((workMachine.findings (some (ascii "/home/u"))).filterMap Finding.record?) =
        workPackages := by
    decide +kernel
  have hpackages : workMachine.packages (Sorter.merge strictWeak_comparePackages) =
      .ok ((Sorter.merge strictWeak_comparePackages).sort workPackages) := by
    rw [Machine.packages, hhome, ok_bind]
    simp only [hfailures, List.getLast?_nil, not_not_intro hsource, if_false, hfirsts]
  obtain ⟨hquery, hall⟩ :=
    installed_packages_of_machine (Sorter.merge strictWeak_comparePackages) workMachine
  have hfind := hall _ hpackages _ hhome
  refine ⟨_, hquery.trans hpackages, (Sorter.merge strictWeak_comparePackages).perm _,
    (hfind _ (by decide)).mpr ⟨workPackages[2], ?_, by decide⟩, ?_⟩
  · exact mem_filterMap_record?.mp (by decide +kernel)
  · rw [hfind _ (by decide)]
    rintro ⟨rec, hrec, hname⟩
    have hnone : ∀ rec ∈ (workMachine.findings (some (ascii "/home/u"))).filterMap
        Finding.record?, rec.name ≠ ascii "nano" := by
      decide +kernel
    exact hnone rec (mem_filterMap_record?.mpr hrec) hname

end Workstation

end Syscape.Software
