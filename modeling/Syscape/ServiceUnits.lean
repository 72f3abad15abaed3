import Syscape.IniFiles
import Syscape.Listings
import Syscape.Smbios
import Syscape.Lib.FirstSeen

/-!
# Services and their units

A service is a unit file in one of four directories, and the first directory that has a file of its
name decides: the file may also be a link that masks the service. A service is started
automatically if a directory of wanted or required units has an entry of its name.
-/
namespace Syscape.Software
open Checked FirstSeen LinuxFile StdSort Text
open Syscape.Smbios (bytesLess)

section Records

/-- `service_state`. -/
inductive ServiceState where
  | unknown
  | running
  | stopped
  | paused
  | starting
  | stopping
  deriving DecidableEq, Repr

/-- `service_startup`. -/
inductive ServiceStartup where
  | unknown
  | automatic
  | manual
  | disabled
  | delayedAutomatic
  deriving DecidableEq, Repr

/-- `service_record`. -/
structure ServiceRecord where
  name : List UInt8 := []
  displayName : Option (List UInt8) := none
  description : Option (List UInt8) := none
  state : ServiceState := .unknown
  startupType : ServiceStartup := .unknown
  pid : Option ℕ := none
  executablePath : Option (List UInt8) := none
  deriving DecidableEq, Repr

/-- `compare_services`. -/
def compareServices (a b : ServiceRecord) : Bool := bytesLess a.name b.name

theorem strictWeak_compareServices : StrictWeak compareServices :=
  (Smbios.strictTotal_bytesLess).on _

end Records

section Units

/-- The locals of `parse_systemd_service_file` and its output parameter. -/
structure UnitState where
  out : ServiceRecord
  currentSection : List UInt8
  hasInstallSection : Bool

/-- The loop at a header. -/
def unitHeader (s : UnitState) (line : List UInt8) : UnitState :=
  let name := (line.drop 1).dropLast
  { s with
    currentSection := name
    hasInstallSection := s.hasInstallSection || decide (name = ascii "Install") }

/-- The loop with a key and its value. -/
def setUnitField (s : UnitState) (key val : List UInt8) : UnitState :=
  if s.currentSection = ascii "Unit" then
    if key = ascii "Description" ∧ s.out.description = none then
      { s with out := { s.out with description := some val, displayName := some val } }
    else s
  else if s.currentSection = ascii "Service" then
    if key = ascii "ExecStart" ∧ s.out.executablePath = none then
      { s with out := { s.out with executablePath := some val } }
    else s
  else s

/-- `parse_systemd_service_file`: the record in its output parameter; it always returns true. -/
def parseSystemdServiceFile (content unitName : List UInt8) : ServiceRecord :=
  let s := (Lines.lines 0x0A content).foldl (readIniLine unitHeader setUnitField)
    ⟨{ name := unitName }, [], false⟩
  if s.hasInstallSection then { s.out with startupType := .manual } else s.out

end Units

section Queries

/-- What the system answers: its files, its directories, and what `readlink` stores. -/
structure UnitSystem where
  fileSystem : FileSystem
  directories : Path → Listing
  links : Path → Option Path

/-- The locals of `services`. -/
structure ServiceScan where
  enabledServices : List Path := []
  seenNames : List Path := []
  resultServices : List ServiceRecord := []
  anyDirOpened : Bool := false
  lastError : Option (Fault ErrorCode) := none

def ServiceScan.fail (s : ServiceScan) (e : Fault ErrorCode) : ServiceScan :=
  { s with lastError := some e }

def ServiceScan.opened (s : ServiceScan) : ServiceScan := { s with anyDirOpened := true }

def ServiceScan.add (s : ServiceScan) (rec : ServiceRecord) : ServiceScan :=
  { s with resultServices := s.resultServices ++ [rec] }

def ServiceScan.enable (s : ServiceScan) (name : Path) : ServiceScan :=
  { s with enabledServices := s.enabledServices ++ [name] }

/-- `service_dirs`. -/
def serviceDirs : List Path :=
  [ascii "/etc/systemd/system", ascii "/run/systemd/system", ascii "/usr/lib/systemd/system",
    ascii "/lib/systemd/system"]

def isWantsDir (name : Path) : Prop :=
  hasSuffix (ascii ".wants") name ∨ hasSuffix (ascii ".requires") name

instance (name : Path) : Decidable (isWantsDir name) := inferInstanceAs (Decidable (_ ∨ _))

/-- `scan_systemd_wants_dir`. -/
def scanSystemdWantsDir (sys : UnitSystem) (s : ServiceScan) (baseDir : Path) : ServiceScan :=
  scanListing ServiceScan.fail id (fun s name =>
    if ¬ isWantsDir name then s
    else scanListing ServiceScan.fail id (fun s targetFile =>
      if hasSuffix (ascii ".service") targetFile then s.enable targetFile else s) s
      (sys.directories (baseDir ++ ascii "/" ++ name))) s (sys.directories baseDir)

/-- `is_masked`, from what `readlink` stores into a buffer of 255 bytes. -/
def isMasked (link : Option Path) : Prop := link.map (List.take 255) = some (ascii "/dev/null")

instance (link : Option Path) : Decidable (isMasked link) := inferInstanceAs (Decidable (_ = _))

def maskedRecord (filename : Path) : ServiceRecord :=
  { name := filename, startupType := .disabled, state := .stopped }

/-- The loop over the entries of a unit directory. -/
def unitEntry (sys : UnitSystem) (dir : Path) (s : ServiceScan) (filename : Path) : ServiceScan :=
  if ¬ hasSuffix (ascii ".service") filename then s
  else if filename ∈ s.seenNames then s
  else
    let s := { s with seenNames := s.seenNames ++ [filename] }
    let fullPath := dir ++ ascii "/" ++ filename
    if isMasked (sys.links fullPath) then s.add (maskedRecord filename)
    else
      match readTextFile sys.fileSystem fullPath (128 * 1024) with
      | .error e => if isNoSuchFile e = false then s.fail e else s
      | .ok content =>
        s.add { parseSystemdServiceFile content filename with
          startupType := if filename ∈ s.enabledServices then .automatic else .manual }

/-- The loop over `/etc/init.d`. -/
def initEntry (s : ServiceScan) (name : Path) : ServiceScan :=
  if name = ascii "README" ∨ name = ascii "skeleton" then s
  else s.add { name, executablePath := some (ascii "/etc/init.d/" ++ name) }

/-- `services`. -/
def queryServices (sorter : Sorter compareServices) (sys : UnitSystem) :
    Result (List ServiceRecord) :=
  let s := serviceDirs.foldl (scanSystemdWantsDir sys) {}
  let s := serviceDirs.foldl (fun s dir =>
    scanListing ServiceScan.fail ServiceScan.opened (unitEntry sys dir) s (sys.directories dir)) s
  let s := if s.anyDirOpened then s
    else scanListing ServiceScan.fail ServiceScan.opened initEntry s
      (sys.directories (ascii "/etc/init.d"))
  match s.lastError with
  | some e => .error e
  | none =>
    if s.anyDirOpened = false ∧ s.resultServices = [] then fail .notSupported
    else .ok (sorter.sort s.resultServices)

/-- `find_service`. -/
def findService (sorter : Sorter compareServices) (sys : UnitSystem) (name : List UInt8) :
    Result ServiceRecord :=
  if name = [] then fail .invalidArgument
  else do
    let all ← queryServices sorter sys
    let withSuffix := if 0x2E ∈ name then name else name ++ ascii ".service"
    match all.find? fun item => item.name = name ∨ item.name = withSuffix with
    | some item => .ok item
    | none => fail .notFound

end Queries

section Hosts

/-- A host with unit files. -/
structure Host where
  directories : Path → Listing
  links : Path → Option Path
  fileSystem : FileSystem
  units : Path → Path → DatabaseFile IniFile
  unit_entry : ∀ dir filename, hasSuffix (ascii ".service") filename →
    fileSystem (dir ++ ascii "/" ++ filename) = (units dir filename).entry IniFile.content

def Host.system (m : Host) : UnitSystem := ⟨m.fileSystem, m.directories, m.links⟩

/-- The names in the directories of wanted and required units. -/
def Host.wanted (m : Host) : List (Finding Path) :=
  serviceDirs.flatMap fun dir => (m.directories dir).findings fun name =>
    if isWantsDir name then
      (m.directories (dir ++ ascii "/" ++ name)).findings fun targetFile =>
        if hasSuffix (ascii ".service") targetFile then [.record targetFile] else []
    else []

/-- The service is started automatically. -/
def Host.Enabled (m : Host) (name : Path) : Prop := Finding.record name ∈ m.wanted

instance (m : Host) (name : Path) : Decidable (m.Enabled name) := inferInstanceAs (Decidable (_ ∈ _))

/-- The unit files, as the directories list them. -/
def Host.listed (m : Host) : List (Finding (Path × Path)) :=
  serviceDirs.flatMap fun dir => (m.directories dir).findings fun filename =>
    if hasSuffix (ascii ".service") filename then [.record (dir, filename)] else []

/-- Two unit files have one name. -/
def SameUnit : Finding (Path × Path) → Finding (Path × Path) → Prop
  | .record a, .record b => a.2 = b.2
  | _, _ => False

instance : DecidableRel SameUnit := fun a b =>
  match a, b with
  | .record a, .record b => inferInstanceAs (Decidable (a.2 = b.2))
  | .record _, .source => inferInstanceAs (Decidable False)
  | .record _, .failure _ => inferInstanceAs (Decidable False)
  | .source, _ => inferInstanceAs (Decidable False)
  | .failure _, _ => inferInstanceAs (Decidable False)

/-- The service that a unit file describes. -/
def unitRecord (enabled : Prop) [Decidable enabled] (filename : Path) (file : IniFile) :
    ServiceRecord where
  name := filename
  displayName := (valuesOf (ascii "Description") (file.entriesOf (ascii "Unit"))).head?
  description := (valuesOf (ascii "Description") (file.entriesOf (ascii "Unit"))).head?
  startupType := if enabled then .automatic else .manual
  executablePath := (valuesOf (ascii "ExecStart") (file.entriesOf (ascii "Service"))).head?

/-- What is found in a unit file. -/
def Host.unit (m : Host) : Finding (Path × Path) → List (Finding ServiceRecord)
  | .source => [.source]
  | .failure e => [.failure e]
  | .record (dir, filename) =>
    if isMasked (m.links (dir ++ ascii "/" ++ filename)) then [.record (maskedRecord filename)]
    else (m.units dir filename).findings [enoent] (128 * 1024) IniFile.content
      fun file => [.record (unitRecord (m.Enabled filename) filename file)]

/-- What is found on the host: of the unit files of one name, the first one counts. -/
def Host.found (m : Host) : List (Finding ServiceRecord) :=
  (firsts SameUnit m.listed).flatMap m.unit

/-- The scripts of an older system. -/
def Host.scripts (m : Host) : List (Finding ServiceRecord) :=
  (m.directories (ascii "/etc/init.d")).findings fun name =>
    if name = ascii "README" ∨ name = ascii "skeleton" then []
    else [.record { name, executablePath := some (ascii "/etc/init.d/" ++ name) }]

/-- The services of the host: the last failure, or what is found, in order. -/
def Host.services (m : Host) (sorter : Sorter compareServices) : Result (List ServiceRecord) :=
  let found := if Finding.source ∈ m.found then m.found else m.found ++ m.scripts
  match (m.wanted.filterMap Finding.failure? ++ found.filterMap Finding.failure?).getLast? with
  | some e => .error e
  | none =>
    if Finding.source ∉ found then fail .notSupported
    else .ok (sorter.sort (found.filterMap Finding.record?))

end Hosts

section Descriptions

/-- What the loop has read of the keys and values of both sections. -/
def unitOut (unitName : Path) (unit service : List (List UInt8 × List UInt8)) : ServiceRecord where
  name := unitName
  displayName := (valuesOf (ascii "Description") unit).head?
  description := (valuesOf (ascii "Description") unit).head?
  executablePath := (valuesOf (ascii "ExecStart") service).head?

variable {unitName : Path} {unit service : List (List UInt8 × List UInt8)} {installed : Bool}

theorem foldl_unitSection (more unit : List (List UInt8 × List UInt8)) :
    more.foldl (fun s e => setUnitField s e.1 e.2)
        ⟨unitOut unitName unit service, ascii "Unit", installed⟩ =
      ⟨unitOut unitName (unit ++ more) service, ascii "Unit", installed⟩ := by
  induction more generalizing unit with
  | nil => rw [List.append_nil, List.foldl_nil]
  | cons e more ih =>
    have hround : setUnitField ⟨unitOut unitName unit service, ascii "Unit", installed⟩ e.1 e.2 =
        ⟨unitOut unitName (unit ++ [e]) service, ascii "Unit", installed⟩ := by
      unfold setUnitField unitOut
      simp only [valuesOf_concat, head?_append_ite, if_true]
      split_ifs
      · rfl
      · rfl
    rw [List.foldl_cons, hround, ih, List.append_assoc, List.singleton_append]

theorem foldl_serviceSection (more service : List (List UInt8 × List UInt8)) :
    more.foldl (fun s e => setUnitField s e.1 e.2)
        ⟨unitOut unitName unit service, ascii "Service", installed⟩ =
      ⟨unitOut unitName unit (service ++ more), ascii "Service", installed⟩ := by
  induction more generalizing service with
  | nil => rw [List.append_nil, List.foldl_nil]
  | cons e more ih =>
    have hround : setUnitField ⟨unitOut unitName unit service, ascii "Service", installed⟩ e.1 e.2 =
        ⟨unitOut unitName unit (service ++ [e]), ascii "Service", installed⟩ := by
      have hother : ¬ ascii "Service" = ascii "Unit" := by decide
      unfold setUnitField unitOut
      simp only [valuesOf_concat, head?_append_ite, if_neg hother, if_true]
      split_ifs
      · rfl
      · rfl
    rw [List.foldl_cons, hround, ih, List.append_assoc, List.singleton_append]

theorem foldl_otherSection {header : List UInt8} (hunit : header ≠ ascii "Unit")
    (hservice : header ≠ ascii "Service") (out : ServiceRecord)
    (more : List (List UInt8 × List UInt8)) :
    more.foldl (fun s e => setUnitField s e.1 e.2) ⟨out, header, installed⟩ =
      ⟨out, header, installed⟩ := by
  induction more with
  | nil => rfl
  | cons e more ih =>
    have hround : setUnitField ⟨out, header, installed⟩ e.1 e.2 = ⟨out, header, installed⟩ := by
      rw [setUnitField, if_neg hunit, if_neg hservice]
    rw [List.foldl_cons, hround, ih]

/-- The entries of the two sections count, in the order of the file. -/
theorem foldl_unitGroups (groups : List IniGroup) (current : List UInt8) (installed : Bool)
    (unit service : List (List UInt8 × List UInt8)) :
    ∃ current' installed',
      groups.foldl (fun s g => g.entries.foldl (fun s e => setUnitField s e.1 e.2)
        (unitHeader s g.header)) ⟨unitOut unitName unit service, current, installed⟩ =
      ⟨unitOut unitName (unit ++ (groups.filter (·.name = ascii "Unit")).flatMap IniGroup.entries)
        (service ++ (groups.filter (·.name = ascii "Service")).flatMap IniGroup.entries),
        current', installed'⟩ := by
  induction groups generalizing current installed unit service with
  | nil =>
    refine ⟨current, installed, ?_⟩
    simp only [List.filter_nil, List.flatMap_nil, List.append_nil, List.foldl_nil]
  | cons g groups ih =>
    have hheader : unitHeader ⟨unitOut unitName unit service, current, installed⟩ g.header =
        ⟨unitOut unitName unit service, g.name,
          installed || decide (g.name = ascii "Install")⟩ := by
      have hname : (g.header.drop 1).dropLast = g.name := List.dropLast_concat
      rw [unitHeader, hname]
    have hdiffer : ¬ ascii "Service" = ascii "Unit" := by decide
    rw [List.foldl_cons, hheader]
    by_cases hunit : g.name = ascii "Unit"
    · rw [List.filter_cons_of_pos (by simpa using hunit),
        List.filter_cons_of_neg (by simpa [hunit] using Ne.symm hdiffer), List.flatMap_cons,
        ← List.append_assoc, hunit, foldl_unitSection]
      exact ih _ _ _ _
    · rw [List.filter_cons_of_neg (by simpa using hunit)]
      by_cases hservice : g.name = ascii "Service"
      · rw [List.filter_cons_of_pos (by simpa using hservice), List.flatMap_cons,
          ← List.append_assoc, hservice, foldl_serviceSection]
        exact ih _ _ _ _
      · rw [List.filter_cons_of_neg (by simpa using hservice), foldl_otherSection hunit hservice]
        exact ih _ _ _ _

/-- The reader finds the service that a unit file describes. -/
theorem parseSystemdServiceFile_content (file : IniFile) (filename : Path) (enabled : Prop)
    [Decidable enabled] :
    { parseSystemdServiceFile file.content filename with
      startupType := if enabled then .automatic else .manual } =
      unitRecord enabled filename file := by
  have hstart : (⟨{ name := filename }, [], false⟩ : UnitState) = ⟨unitOut filename [] [], [], false⟩ :=
    rfl
  obtain ⟨current, installed, hgroups⟩ := @foldl_unitGroups filename file.groups [] false [] []
  rw [parseSystemdServiceFile, hstart, foldl_iniFile,
    foldl_otherSection (by decide) (by decide), hgroups]
  dsimp only
  rw [List.nil_append, List.nil_append]
  cases installed with
  | false => rfl
  | true => rfl

end Descriptions

section Scans
variable {m : Host}

/-- What the query makes of a finding. -/
def ServiceScan.see (s : ServiceScan) (finding : Finding ServiceRecord) : ServiceScan :=
  Software.see ServiceScan.fail ServiceScan.opened ServiceScan.add s finding

/-- The scan has gone on over these findings, and has seen these names. -/
def ServiceScan.after (s : ServiceScan) (seen : List Path) (found : List (Finding ServiceRecord)) :
    ServiceScan where
  enabledServices := s.enabledServices
  seenNames := seen
  resultServices := s.resultServices ++ found.filterMap Finding.record?
  anyDirOpened := s.anyDirOpened || decide (Finding.source ∈ found)
  lastError := (found.filterMap Finding.failure?).getLast?.or s.lastError

theorem after_nil (s : ServiceScan) : s.after s.seenNames [] = s := by
  simp [ServiceScan.after]

theorem after_after (s : ServiceScan) (seen seen' : List Path)
    (found found' : List (Finding ServiceRecord)) :
    (s.after seen found).after seen' found' = s.after seen' (found ++ found') := by
  simp only [ServiceScan.after, List.filterMap_append, List.append_assoc, List.getLast?_append,
    List.mem_append, Bool.decide_or, Bool.or_assoc, Option.or_assoc]

theorem see_eq_after (s : ServiceScan) (finding : Finding ServiceRecord) :
    s.see finding = s.after s.seenNames [finding] := by
  cases finding with
  | source =>
    have hrecord : [Finding.source].filterMap (@Finding.record? ServiceRecord) = [] := rfl
    simp [ServiceScan.see, see, ServiceScan.opened, ServiceScan.after, hrecord, Finding.failure?]
  | record rec =>
    have hfailure : [Finding.record rec].filterMap Finding.failure? = [] := rfl
    simp [ServiceScan.see, see, ServiceScan.add, ServiceScan.after, hfailure, Finding.record?]
  | failure e =>
    have hrecord : [Finding.failure e].filterMap (@Finding.record? ServiceRecord) = [] := rfl
    simp [ServiceScan.see, see, ServiceScan.fail, ServiceScan.after, hrecord, Finding.failure?]

theorem foldl_see_eq_after (found : List (Finding ServiceRecord)) (s : ServiceScan) :
    found.foldl ServiceScan.see s = s.after s.seenNames found := by
  induction found generalizing s with
  | nil => exact (after_nil s).symm
  | cons finding found ih =>
    rw [List.foldl_cons, ih, see_eq_after, after_after]
    rfl

/-- The wanted units are enabled, and only failures are kept beside them. -/
theorem foldl_scanSystemdWantsDir (m : Host) :
    serviceDirs.foldl (scanSystemdWantsDir m.system) {} =
      { enabledServices := m.wanted.filterMap Finding.record?
        lastError := (m.wanted.filterMap Finding.failure?).getLast? } := by
  have hdirs : ∀ (dirs : List Path) (s : ServiceScan),
      dirs.foldl (scanSystemdWantsDir m.system) s =
        (dirs.flatMap fun dir => (m.directories dir).findings fun name =>
          if isWantsDir name then
            (m.directories (dir ++ ascii "/" ++ name)).findings fun targetFile =>
              if hasSuffix (ascii ".service") targetFile then [.record targetFile] else []
          else []).foldl (see ServiceScan.fail id ServiceScan.enable) s := by
    intro dirs
    induction dirs with
    | nil => exact fun _ => rfl
    | cons dir dirs ih =>
      intro s
      rw [List.foldl_cons, ih, List.flatMap_cons, List.foldl_append]
      congr 1
      refine scanListing_eq (fun s name => ?_) s _
      by_cases hwants : isWantsDir name
      · rw [if_neg (not_not_intro hwants), if_pos hwants]
        refine scanListing_eq (fun s targetFile => ?_) s _
        by_cases hsuffix : hasSuffix (ascii ".service") targetFile
        · rw [if_pos hsuffix, if_pos hsuffix]
          rfl
        · rw [if_neg hsuffix, if_neg hsuffix]
          rfl
      · rw [if_pos hwants, if_neg hwants]
        rfl
  have hfold : ∀ wanted : List (Finding Path),
      wanted.foldl (see ServiceScan.fail id ServiceScan.enable) {} =
        { enabledServices := wanted.filterMap Finding.record?
          lastError := (wanted.filterMap Finding.failure?).getLast? } := by
    intro wanted
    induction wanted using List.reverseRecOn with
    | nil => rfl
    | append_singleton wanted finding ih =>
      rw [List.foldl_append, List.foldl_cons, List.foldl_nil, ih, List.filterMap_append,
        List.filterMap_append]
      cases finding with
      | source => simp [see, Finding.record?, Finding.failure?]
      | record name => simp [see, ServiceScan.enable, Finding.record?, Finding.failure?]
      | failure e => simp [see, ServiceScan.fail, Finding.record?, Finding.failure?]
  rw [hdirs]
  exact hfold m.wanted

/-- A unit file whose name is new is read. -/
theorem unitEntry_new {s : ServiceScan} {dir filename : Path}
    (hsuffix : hasSuffix (ascii ".service") filename) (hnew : filename ∉ s.seenNames)
    (henabled : ∀ name, name ∈ s.enabledServices ↔ m.Enabled name) :
    unitEntry m.system dir s filename =
      s.after (s.seenNames ++ [filename]) (m.unit (.record (dir, filename))) := by
  have hseen : ∀ found : List (Finding ServiceRecord),
      found.foldl ServiceScan.see { s with seenNames := s.seenNames ++ [filename] } =
        s.after (s.seenNames ++ [filename]) found := by
    intro found
    rw [foldl_see_eq_after]
    rfl
  rw [← hseen, unitEntry, if_neg (not_not_intro hsuffix), if_neg hnew, Host.unit]
  dsimp only
  by_cases hmasked : isMasked (m.links (dir ++ ascii "/" ++ filename))
  · have hmasked' : isMasked (m.system.links (dir ++ ascii "/" ++ filename)) := hmasked
    rw [if_pos hmasked, if_pos hmasked']
    rfl
  · have hmasked' : ¬ isMasked (m.system.links (dir ++ ascii "/" ++ filename)) := hmasked
    have hentry := m.unit_entry dir filename hsuffix
    have hfiles : m.system.fileSystem = m.fileSystem := rfl
    rw [if_neg hmasked, if_neg hmasked', hfiles, readTextFile_entry hentry]
    cases m.units dir filename with
    | absent => rfl
    | fails errno => exact (foldl_findings_fails _ _ _ errno _ _ _ _).symm
    | written file =>
      have hrecord : { parseSystemdServiceFile file.content filename with
          startupType := if filename ∈ s.enabledServices then .automatic else .manual } =
          unitRecord (m.Enabled filename) filename file := by
        rw [parseSystemdServiceFile_content]
        simp only [unitRecord, henabled]
      rw [DatabaseFile.read, DatabaseFile.findings]
      by_cases hlarge : file.content.length > 128 * 1024
      · rw [if_pos hlarge, if_pos hlarge]
        rfl
      · rw [if_neg hlarge, if_neg hlarge, List.foldl_cons, List.foldl_nil]
        exact congrArg (ServiceScan.add _) hrecord

theorem sameUnit_record_iff {before : List (Finding (Path × Path))} {dir name : Path} :
    (∃ b ∈ before, SameUnit b (.record (dir, name))) ↔
      ∃ dir', Finding.record (dir', name) ∈ before := by
  constructor
  · rintro ⟨b, hb, hsame⟩
    cases b with
    | record p =>
      obtain ⟨dir', name'⟩ := p
      have hname : name' = name := hsame
      rw [hname] at hb
      exact ⟨dir', hb⟩
    | source => cases hsame
    | failure e => cases hsame
  · rintro ⟨dir', hdir⟩
    exact ⟨_, hdir, rfl⟩

/-- The scan has seen the names of the unit files so far. -/
def SeenNames (s : ServiceScan) (before : List (Finding (Path × Path))) : Prop :=
  ∀ name, name ∈ s.seenNames ↔ ∃ dir, Finding.record (dir, name) ∈ before

theorem SeenNames.other {s : ServiceScan} {before : List (Finding (Path × Path))}
    (h : SeenNames s before) {finding : Finding (Path × Path)}
    (hne : ∀ p, finding ≠ .record p) : SeenNames s (before ++ [finding]) := by
  intro name
  have hlast : ∀ dir, Finding.record (dir, name) ∉ [finding] := fun dir hdir =>
    hne _ (List.mem_singleton.mp hdir).symm
  simp only [List.mem_append, hlast, or_false]
  exact h name

theorem SeenNames.old {s : ServiceScan} {before : List (Finding (Path × Path))}
    (h : SeenNames s before) {dir name : Path} (hold : name ∈ s.seenNames) :
    SeenNames s (before ++ [.record (dir, name)]) := by
  intro name'
  rw [h name']
  constructor
  · rintro ⟨dir', hdir'⟩
    exact ⟨dir', List.mem_append_left _ hdir'⟩
  · rintro ⟨dir', hdir'⟩
    rcases List.mem_append.mp hdir' with hdir' | hdir'
    · exact ⟨dir', hdir'⟩
    · cases List.mem_singleton.mp hdir'
      exact (h name).mp hold

theorem SeenNames.new {s t : ServiceScan} {before : List (Finding (Path × Path))}
    (h : SeenNames s before) {dir name : Path} (hnames : t.seenNames = s.seenNames ++ [name]) :
    SeenNames t (before ++ [.record (dir, name)]) := by
  intro name'
  rw [hnames, List.mem_append, h name']
  constructor
  · rintro (⟨dir', hdir'⟩ | hname')
    · exact ⟨dir', List.mem_append_left _ hdir'⟩
    · rw [List.mem_singleton.mp hname']
      exact ⟨dir, List.mem_append_right _ List.mem_cons_self⟩
  · rintro ⟨dir', hdir'⟩
    rcases List.mem_append.mp hdir' with hdir' | hdir'
    · exact .inl ⟨dir', hdir'⟩
    · cases List.mem_singleton.mp hdir'
      exact .inr List.mem_cons_self

/-- One finding more: a unit file counts if its name is new. -/
theorem see_listed {s : ServiceScan} {before : List (Finding (Path × Path))}
    (hseen : SeenNames s before) (henabled : ∀ name, name ∈ s.enabledServices ↔ m.Enabled name)
    {finding : Finding (Path × Path)}
    (hsuffix : ∀ p, finding = .record p → hasSuffix (ascii ".service") p.2) :
    ∃ seen, see ServiceScan.fail ServiceScan.opened (fun s p => unitEntry m.system p.1 s p.2) s
        finding =
      s.after seen (if ∃ b ∈ before, SameUnit b finding then [] else m.unit finding) ∧
      SeenNames (s.after seen (if ∃ b ∈ before, SameUnit b finding then [] else m.unit finding))
        (before ++ [finding]) := by
  have hother : ∀ {f : Finding (Path × Path)}, (∀ b, ¬ SameUnit b f) →
      ¬ ∃ b ∈ before, SameUnit b f := fun hnone h => h.elim fun b hb => hnone b hb.2
  cases finding with
  | source =>
    have hnone : ∀ b, ¬ SameUnit b .source := by
      intro b hsame
      cases b <;> exact hsame
    rw [if_neg (hother hnone)]
    exact ⟨s.seenNames, see_eq_after s .source, hseen.other fun p hp => by cases hp⟩
  | failure e =>
    have hnone : ∀ b, ¬ SameUnit b (.failure e) := by
      intro b hsame
      cases b <;> exact hsame
    rw [if_neg (hother hnone)]
    exact ⟨s.seenNames, see_eq_after s (.failure e), hseen.other fun p hp => by cases hp⟩
  | record p =>
    obtain ⟨dir, name⟩ := p
    have hname : hasSuffix (ascii ".service") name := hsuffix _ rfl
    show ∃ seen, unitEntry m.system dir s name = _ ∧ _
    by_cases hold : name ∈ s.seenNames
    · have hfirst : ∃ b ∈ before, SameUnit b (.record (dir, name)) :=
        sameUnit_record_iff.mpr ((hseen name).mp hold)
      rw [if_pos hfirst]
      refine ⟨s.seenNames, ?_, hseen.old hold⟩
      rw [unitEntry, if_neg (not_not_intro hname), if_pos hold, after_nil]
    · have hfirst : ¬ ∃ b ∈ before, SameUnit b (.record (dir, name)) := by
        rw [sameUnit_record_iff, ← hseen]
        exact hold
      rw [if_neg hfirst]
      exact ⟨s.seenNames ++ [name], unitEntry_new hname hold henabled, hseen.new rfl⟩

/-- Of the unit files of one name, the first one is read. -/
theorem foldl_listed {listed before : List (Finding (Path × Path))} {s : ServiceScan}
    (hseen : SeenNames s before) (henabled : ∀ name, name ∈ s.enabledServices ↔ m.Enabled name)
    (hsuffix : ∀ p, Finding.record p ∈ listed → hasSuffix (ascii ".service") p.2) :
    ∃ seen, listed.foldl
        (see ServiceScan.fail ServiceScan.opened fun s p => unitEntry m.system p.1 s p.2) s =
      s.after seen ((firstsBehind SameUnit before listed).flatMap m.unit) := by
  induction listed generalizing before s with
  | nil => exact ⟨s.seenNames, (after_nil s).symm⟩
  | cons finding listed ih =>
    obtain ⟨seen, hround, hseen'⟩ := see_listed hseen henabled
      fun p hp => hsuffix p (hp ▸ List.mem_cons_self)
    have henabled' : ∀ name, name ∈ (s.after seen
        (if ∃ b ∈ before, SameUnit b finding then [] else m.unit finding)).enabledServices ↔
        m.Enabled name := henabled
    obtain ⟨seen', hrest⟩ := ih hseen' henabled' fun p hp => hsuffix p (List.mem_cons_of_mem _ hp)
    refine ⟨seen', ?_⟩
    rw [List.foldl_cons, hround, hrest, after_after, firstsBehind]
    split_ifs
    · rfl
    · rfl

/-- The unit directories are scanned. -/
theorem foldl_unitDirs {s : ServiceScan} (hseen : s.seenNames = [])
    (henabled : ∀ name, name ∈ s.enabledServices ↔ m.Enabled name) :
    ∃ seen, serviceDirs.foldl (fun s dir => scanListing ServiceScan.fail ServiceScan.opened
        (unitEntry m.system dir) s (m.system.directories dir)) s = s.after seen m.found := by
  have hdirs : ∀ (dirs : List Path) (s : ServiceScan),
      dirs.foldl (fun s dir => scanListing ServiceScan.fail ServiceScan.opened
        (unitEntry m.system dir) s (m.system.directories dir)) s =
      (dirs.flatMap fun dir => (m.directories dir).findings fun filename =>
        if hasSuffix (ascii ".service") filename then [.record (dir, filename)] else []).foldl
        (see ServiceScan.fail ServiceScan.opened fun s p => unitEntry m.system p.1 s p.2) s := by
    intro dirs
    induction dirs with
    | nil => exact fun _ => rfl
    | cons dir dirs ih =>
      intro s
      rw [List.foldl_cons, ih, List.flatMap_cons, List.foldl_append]
      congr 1
      refine scanListing_eq (fun s filename => ?_) s _
      by_cases hsuffix : hasSuffix (ascii ".service") filename
      · rw [if_pos hsuffix]
        rfl
      · rw [if_neg hsuffix, unitEntry, if_pos hsuffix, List.foldl_nil]
  have hsuffix : ∀ p, Finding.record p ∈ m.listed → hasSuffix (ascii ".service") p.2 := by
    intro p hp
    obtain ⟨dir, -, hp⟩ := List.mem_flatMap.mp hp
    obtain ⟨filename, hp⟩ := exists_of_record_mem hp
    split_ifs at hp with hsuffix
    · cases List.mem_singleton.mp hp
      exact hsuffix
    · cases hp
  rw [hdirs]
  exact foldl_listed (fun name => by simp [hseen]) henabled hsuffix

end Scans

section Services
variable {m : Host}

theorem Host.fromSource_found (m : Host) : FromSource m.found := by
  have hlisted : FromSource m.listed := .flatMap fun _ => fromSource_listing _ _
  have hnone : ∀ b : Finding (Path × Path), ¬ SameUnit b .source := by
    intro b hsame
    cases b <;> exact hsame
  intro rec hrec
  obtain ⟨finding, hfinding, hrec⟩ := List.mem_flatMap.mp hrec
  cases finding with
  | source => cases List.mem_singleton.mp hrec
  | failure e => cases List.mem_singleton.mp hrec
  | record p =>
    have hsource := hlisted p (mem_of_mem_firsts hfinding)
    exact List.mem_flatMap.mpr ⟨_, mem_firsts_of_alone hsource hnone, List.mem_cons_self⟩

/-- The scripts are what is found, if there are no unit directories. -/
theorem scanListing_scripts (s : ServiceScan) :
    scanListing ServiceScan.fail ServiceScan.opened initEntry s
        (m.system.directories (ascii "/etc/init.d")) = s.after s.seenNames m.scripts := by
  rw [← foldl_see_eq_after]
  refine scanListing_eq (fun s name => ?_) s _
  by_cases hother : name = ascii "README" ∨ name = ascii "skeleton"
  · rw [initEntry, if_pos hother, if_pos hother, List.foldl_nil]
  · rw [initEntry, if_neg hother, if_neg hother]
    rfl

/-- The query lists the services of the host. -/
theorem queryServices_system (sorter : Sorter compareServices) (m : Host) :
    queryServices sorter m.system = m.services sorter := by
  have henabled : ∀ name, name ∈ m.wanted.filterMap Finding.record? ↔ m.Enabled name :=
    fun name => mem_filterMap_record?
  obtain ⟨seen, hunits⟩ := @foldl_unitDirs m
    { enabledServices := m.wanted.filterMap Finding.record?
      lastError := (m.wanted.filterMap Finding.failure?).getLast? } rfl henabled
  rw [queryServices, foldl_scanSystemdWantsDir]
  rw [hunits, Host.services]
  by_cases hsource : Finding.source ∈ m.found
  · simp only [ServiceScan.after, hsource, decide_true, Bool.or_true, if_true, List.getLast?_append,
      List.nil_append, not_true_eq_false, if_false]
    rfl
  · have hnone := m.fromSource_found.eq_nil hsource
    have hopened : ¬ ServiceScan.anyDirOpened (ServiceScan.after
        { enabledServices := m.wanted.filterMap Finding.record?
          lastError := (m.wanted.filterMap Finding.failure?).getLast? } seen m.found) = true := by
      simp [ServiceScan.after, hsource]
    rw [if_neg hopened, scanListing_scripts, after_after, if_neg hsource]
    simp only [ServiceScan.after, List.getLast?_append, List.filterMap_append, hnone,
      List.nil_append, Bool.false_or, decide_eq_false_iff_not]
    cases ((m.scripts.filterMap Finding.failure?).getLast?.or
      (m.found.filterMap Finding.failure?).getLast?).or
      (m.wanted.filterMap Finding.failure?).getLast? with
    | some e => rfl
    | none =>
      dsimp only
      by_cases hany : Finding.source ∈ m.found ++ m.scripts
      · rw [if_neg fun h => h.1 hany, if_neg (not_not_intro hany)]
      · have hscripts : FromSource m.scripts := fromSource_listing _ _
        have hempty := hscripts.eq_nil fun h => hany (List.mem_append_right _ h)
        rw [if_pos ⟨hany, hempty⟩, if_pos hany]

/-- A unit file gives one record at most, and that one has its name. -/
theorem record_of_mem_unit {finding : Finding (Path × Path)} {rec : ServiceRecord}
    (h : Finding.record rec ∈ m.unit finding) :
    ∃ dir, finding = .record (dir, rec.name) ∧ m.unit finding = [.record rec] ∧
      (rec.startupType = .automatic ↔
        m.Enabled rec.name ∧ ¬ isMasked (m.links (dir ++ ascii "/" ++ rec.name))) := by
  cases finding with
  | source => cases List.mem_singleton.mp h
  | failure e => cases List.mem_singleton.mp h
  | record p =>
    obtain ⟨dir, filename⟩ := p
    rw [Host.unit] at h ⊢
    by_cases hmasked : isMasked (m.links (dir ++ ascii "/" ++ filename))
    · rw [if_pos hmasked] at h ⊢
      cases List.mem_singleton.mp h
      have hdisabled : (maskedRecord filename).startupType ≠ .automatic := by simp [maskedRecord]
      exact ⟨dir, rfl, rfl, iff_of_false hdisabled fun h => h.2 hmasked⟩
    · rw [if_neg hmasked] at h ⊢
      cases hunit : m.units dir filename with
      | absent =>
        rw [hunit] at h
        cases h
      | fails errno =>
        rw [hunit, DatabaseFile.findings] at h
        split_ifs at h
        · cases h
        · cases List.mem_singleton.mp h
      | written file =>
        rw [hunit, DatabaseFile.findings] at h
        rw [DatabaseFile.findings]
        by_cases hlarge : file.content.length > 128 * 1024
        · rw [if_pos hlarge] at h
          cases List.mem_singleton.mp h
        · rw [if_neg hlarge] at h ⊢
          cases List.mem_singleton.mp h
          refine ⟨dir, rfl, rfl, ?_⟩
          by_cases henabled : m.Enabled filename
          · exact iff_of_true (if_pos henabled) ⟨henabled, hmasked⟩
          · have hmanual : (unitRecord (m.Enabled filename) filename file).startupType ≠
                .automatic := by simp [unitRecord, henabled]
            exact iff_of_false hmanual fun h => henabled h.1

/-- No two services that are found have one name. -/
theorem pairwise_found (m : Host) :
    (m.found.filterMap Finding.record?).Pairwise fun a b => a.name ≠ b.name := by
  rw [List.pairwise_filterMap, Host.found, List.pairwise_flatMap]
  have hrecord : ∀ {finding : Finding ServiceRecord} {rec : ServiceRecord},
      finding.record? = some rec → finding = .record rec := by
    intro finding rec h
    cases finding with
    | record rec' =>
      cases h
      rfl
    | source => cases h
    | failure e => cases h
  constructor
  · intro finding hfinding
    cases finding with
    | source => exact List.pairwise_singleton _ _
    | failure e => exact List.pairwise_singleton _ _
    | record p =>
      rw [List.pairwise_iff_forall_sublist]
      intro a b hsub rec ha rec' hb
      have hmem : Finding.record rec ∈ m.unit (.record p) := by
        rw [← hrecord ha]
        exact hsub.subset List.mem_cons_self
      obtain ⟨dir, -, hone, -⟩ := record_of_mem_unit hmem
      rw [hone] at hsub
      exact absurd hsub.length_le (by simp)
  · refine (pairwise_firsts SameUnit m.listed).imp ?_
    intro finding finding' hdiffer a ha b hb rec hrec rec' hrec' hname
    rw [hrecord hrec] at ha
    rw [hrecord hrec'] at hb
    obtain ⟨dir, rfl, -, -⟩ := record_of_mem_unit ha
    obtain ⟨dir', rfl, -, -⟩ := record_of_mem_unit hb
    exact hdiffer hname

/-- If there is a unit directory, then the services are those that are found in unit files. -/
theorem services_of_units {sorter : Sorter compareServices} {out : List ServiceRecord}
    (hout : m.services sorter = .ok out) (hsource : Finding.source ∈ m.found) :
    out.Perm (m.found.filterMap Finding.record?) := by
  rw [Host.services] at hout
  simp only [if_pos hsource, not_not_intro hsource, if_false] at hout
  cases hlast : (m.wanted.filterMap Finding.failure? ++
      m.found.filterMap Finding.failure?).getLast? with
  | some e =>
    rw [hlast] at hout
    cases hout
  | none =>
    rw [hlast] at hout
    cases hout
    exact sorter.perm _

/-- A service is found by its name, with or without the suffix. -/
theorem findService_eq_ok_iff {sorter : Sorter compareServices} {out : List ServiceRecord}
    (hout : m.services sorter = .ok out) {name : List UInt8} (hname : name ≠ []) :
    (∃ rec, findService sorter m.system name = .ok rec) ↔
      ∃ rec ∈ out, rec.name = name ∨ 0x2E ∉ name ∧ rec.name = name ++ ascii ".service" := by
  have htest : ∀ rec : ServiceRecord,
      (rec.name = name ∨ rec.name = if 0x2E ∈ name then name else name ++ ascii ".service") ↔
        (rec.name = name ∨ 0x2E ∉ name ∧ rec.name = name ++ ascii ".service") := by
    intro rec
    by_cases hdot : 0x2E ∈ name
    · simp [hdot]
    · simp [hdot]
  rw [findService, if_neg hname, queryServices_system, hout, ok_bind]
  dsimp only
  simp only [← htest]
  cases hfind : out.find? fun item => decide (item.name = name ∨
      item.name = if 0x2E ∈ name then name else name ++ ascii ".service") with
  | none =>
    rw [List.find?_eq_none] at hfind
    constructor
    · rintro ⟨rec, hrec⟩
      cases hrec
    · rintro ⟨rec, hrec, hmatch⟩
      exact absurd (decide_eq_true hmatch) (hfind rec hrec)
  | some item =>
    have hitem := List.find?_some hfind
    exact ⟨fun _ => ⟨item, List.mem_of_find?_eq_some hfind, of_decide_eq_true hitem⟩,
      fun _ => ⟨item, rfl⟩⟩

/-- The services of a host are listed as its unit files describe them, of each name the first one.
Where there is a unit directory, the names are different, and those services are started
automatically that are wanted or required; and a service is found by its name. -/
theorem services_of_host (sorter : Sorter compareServices) (m : Host) :
    queryServices sorter m.system = m.services sorter ∧
    ∀ out, m.services sorter = .ok out →
      (Finding.source ∈ m.found → (out.map (·.name)).Nodup ∧
        ∀ rec ∈ out, ∃ dir, Finding.record (dir, rec.name) ∈ firsts SameUnit m.listed ∧
          (rec.startupType = .automatic ↔
            m.Enabled rec.name ∧ ¬ isMasked (m.links (dir ++ ascii "/" ++ rec.name)))) ∧
      ∀ name, name ≠ [] → ((∃ rec, findService sorter m.system name = .ok rec) ↔
        ∃ rec ∈ out, rec.name = name ∨ 0x2E ∉ name ∧ rec.name = name ++ ascii ".service") := by
  refine ⟨queryServices_system sorter m, fun out hout => ⟨fun hsource => ?_,
    fun name hname => findService_eq_ok_iff hout hname⟩⟩
  have hperm := services_of_units hout hsource
  constructor
  · have hfound := List.pairwise_map.mpr (pairwise_found m)
    exact (hperm.map _).nodup_iff.mpr hfound
  · intro rec hrec
    have hfound := mem_filterMap_record?.mp (hperm.mem_iff.mp hrec)
    obtain ⟨finding, hfirst, hunit⟩ := List.mem_flatMap.mp hfound
    obtain ⟨dir, rfl, -, hautomatic⟩ := record_of_mem_unit hunit
    exact ⟨dir, hfirst, hautomatic⟩

end Services

section WebServer

/-- A unit with a description and a command. -/
def webUnit (description command : List UInt8) (hdescription : 0x0A ∉ description)
    (hcommand : 0x0A ∉ command) : IniFile where
  before := []
  groups :=
    [⟨ascii "Unit", by decide, [.assign ⟨ascii "Description", by decide, by decide, by decide,
        by decide, description, hdescription⟩]⟩,
      ⟨ascii "Service", by decide, [.assign ⟨ascii "ExecStart", by decide, by decide, by decide,
        by decide, command, hcommand⟩]⟩]

/-- The administrator has a unit file in the place of the one that came with the system. -/
def webUnits : List (Path × IniFile) :=
  [(ascii "/etc/systemd/system/web.service",
      webUnit (ascii "Web, here") (ascii "/usr/local/bin/web") (by decide) (by decide)),
    (ascii "/usr/lib/systemd/system/web.service",
      webUnit (ascii "Web") (ascii "/usr/bin/web") (by decide) (by decide)),
    (ascii "/usr/lib/systemd/system/ssh.service",
      webUnit (ascii "SSH") (ascii "/usr/sbin/sshd -D") (by decide) (by decide)),
    (ascii "/usr/lib/systemd/system/old.service",
      webUnit (ascii "Old") (ascii "/usr/bin/old") (by decide) (by decide))]

/-- Secure shell is wanted, a unit is masked, and another is a link to no file. -/
def webDirectories : List (Path × List Path) :=
  [(ascii "/etc/systemd/system", [ascii ".", ascii "..", ascii "web.service",
      ascii "multi-user.target.wants", ascii "old.service", ascii "gone.service"]),
    (ascii "/etc/systemd/system/multi-user.target.wants", [ascii "ssh.service"]),
    (ascii "/usr/lib/systemd/system", [ascii "ssh.service", ascii "web.service",
      ascii "old.service", ascii "web.socket"])]

def webHost : Host where
  directories path :=
    (webDirectories.lookup path).elim (.failed enoent) fun names => .opened names none
  links path := if path = ascii "/etc/systemd/system/old.service" then some (ascii "/dev/null")
    else none
  fileSystem path :=
    ((webUnits.lookup path).elim .absent DatabaseFile.written).entry IniFile.content
  units dir filename :=
    (webUnits.lookup (dir ++ ascii "/" ++ filename)).elim .absent DatabaseFile.written
  unit_entry _ _ _ := rfl

def webServices : List ServiceRecord :=
  [{ name := ascii "web.service", displayName := some (ascii "Web, here"),
     description := some (ascii "Web, here"), startupType := .manual,
     executablePath := some (ascii "/usr/local/bin/web") },
    { name := ascii "old.service", startupType := .disabled, state := .stopped },
    { name := ascii "ssh.service", displayName := some (ascii "SSH"),
      description := some (ascii "SSH"), startupType := .automatic,
      executablePath := some (ascii "/usr/sbin/sshd -D") }]

/-- A host with a unit file in two directories, a masked unit, one that is a link to no file, and
one that is wanted. -/
theorem services_of_webHost : ∃ out,
    queryServices (Sorter.merge strictWeak_compareServices) webHost.system = .ok out ∧
    out.Perm webServices ∧ (out.map (·.name)).Nodup ∧
    (∃ rec, findService (Sorter.merge strictWeak_compareServices) webHost.system (ascii "ssh") =
      .ok rec) ∧
    ¬ ∃ rec, findService (Sorter.merge strictWeak_compareServices) webHost.system (ascii "gone") =
      .ok rec := by
  have hfound : webHost.found.filterMap Finding.record? = webServices := by decide +kernel
  have hfailures : webHost.wanted.filterMap Finding.failure? ++
      webHost.found.filterMap Finding.failure? = [] := by decide +kernel
  have hsource : Finding.source ∈ webHost.found := by decide +kernel
  have hservices : webHost.services (Sorter.merge strictWeak_compareServices) =
      .ok ((Sorter.merge strictWeak_compareServices).sort webServices) := by
    rw [Host.services]
    simp only [if_pos hsource, not_not_intro hsource, if_false, hfailures, List.getLast?_nil, hfound]
  have hperm := (Sorter.merge strictWeak_compareServices).perm webServices
  obtain ⟨hquery, hall⟩ := services_of_host (Sorter.merge strictWeak_compareServices) webHost
  obtain ⟨hnames, hfind⟩ := hall _ hservices
  refine ⟨_, hquery.trans hservices, hperm, (hnames hsource).1, ?_, ?_⟩
  · refine (hfind _ (by decide)).mpr ⟨webServices[2], hperm.mem_iff.mpr (by decide), ?_⟩
    exact .inr ⟨by decide, by decide⟩
  · rw [hfind _ (by decide)]
    rintro ⟨rec, hrec, hname⟩
    have hnone : ∀ rec ∈ webServices, ¬ (rec.name = ascii "gone" ∨
        0x2E ∉ ascii "gone" ∧ rec.name = ascii "gone" ++ ascii ".service") := by
      decide +kernel
    exact hnone rec (hperm.mem_iff.mp hrec) hname

end WebServer

end Syscape.Software
