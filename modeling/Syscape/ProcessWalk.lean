import Syscape.ProcessList
import Syscape.Resource
import Syscape.LinuxFile
import Syscape.Lib.Calls
import Syscape.Lib.StdSort

/-!
# Walking over the processes

Two queries list `/proc` and read files of every process they find there: `thread_count` of
the resource module and `processes` of the process list. They are programs that make system
calls one after the other, while any process may exit between two calls.
-/
namespace Syscape.ProcessWalk
open Calls Checked Text Digits Numbers Lines Utf8 ProcessMetrics ProcessList Resource LinuxFile

section Calls

/-- The system calls of the two queries. -/
inductive Call where
  | opendir (path : Path)
  | readdir
  | openFile (path : Path)
  | readFile (size : ℕ)
  | closeFile
  | readlink (path : Path) (size : ℕ)
  | getpwuid (uid size : ℕ)

/-- An error number or what the call delivers; `readdir` delivers no name at the end of the
directory, and `getpwuid` none for an unknown user. -/
def Answer : Call → Type
  | .opendir _ => Except ℤ Unit
  | .readdir => Except ℤ (Option Path)
  | .openFile _ => Except ℤ Unit
  | .readFile _ => Except ℤ (List UInt8)
  | .closeFile => Unit
  | .readlink _ _ => Except ℤ (List UInt8)
  | .getpwuid _ _ => Except ℤ (Option (List UInt8))

abbrev Query (α : Type) := Prog Call Answer α

def opendir (path : Path) : Query (Except ℤ Unit) := invoke (Call.opendir path)

def readdir : Query (Except ℤ (Option Path)) := invoke Call.readdir

def openFile (path : Path) : Query (Except ℤ Unit) := invoke (Call.openFile path)

def readFile (size : ℕ) : Query (Except ℤ (List UInt8)) := invoke (Call.readFile size)

def closeFile : Query Unit := invoke Call.closeFile

def readlink (path : Path) (size : ℕ) : Query (Except ℤ (List UInt8)) :=
  invoke (Call.readlink path size)

def getpwuid (uid size : ℕ) : Query (Except ℤ (Option (List UInt8))) :=
  invoke (Call.getpwuid uid size)

/-- `ERANGE`. -/
def erange : ℤ := 34

/-- The path of a file in the directory of a process. -/
def procPath (name file : List UInt8) : Path := ascii "/proc/" ++ name ++ ascii "/" ++ file

end Calls

section ReadTextFile

/-- The body of the loop in `read_text_file`. -/
def readChunk (maximumSize : ℕ) (output : List UInt8) :
    Query (List UInt8 ⊕ Result (List UInt8)) := do
  match ← readFile 4096 with
  | .ok chunk =>
    if chunk = [] then return .inr (.ok output)
    else if output.length > maximumSize ∨ chunk.length > maximumSize - output.length then
      return .inr (fail .valueTooLarge)
    else return .inl (output ++ chunk)
  | .error errno =>
    if errno ≠ eintr then return .inr (failErrno errno) else return .inl output

/-- `read_text_file`; the descriptor is closed at the end. -/
def readTextFile (path : Path) (maximumSize : ℕ) : Query (Result (List UInt8)) := do
  match ← openFile path with
  | .error errno => return failErrno errno
  | .ok () =>
    let content ← iterate (readChunk maximumSize) []
    closeFile
    return content

/-- The default of the parameter `maximum_size`. -/
def defaultMaximumSize : ℕ := 1024 * 1024

end ReadTextFile

section ThreadCount

/-- `numeric_entry`. -/
def numericEntry (name : Path) : Bool := name ≠ [] ∧ ∀ c ∈ name, 0x30 ≤ c ∧ c ≤ 0x39

/-- The body of the loop in `walk_processes`, with the state of the visitor and the number of
the entries it has visited. -/
def walkStep {σ : Type} (visit : σ → Path → Query (Result σ)) (s : σ × ℕ) :
    Query (σ × ℕ ⊕ Result (σ × ℕ)) := do
  match ← readdir with
  | .error errno => return .inr (failErrno errno)
  | .ok none => return .inr (.ok s)
  | .ok (some name) =>
    if !numericEntry name then return .inl s
    else if s.2 = uint64Max then return .inr (fail .valueTooLarge)
    else
      match ← visit s.1 name with
      | .error e => return .inr (.error e)
      | .ok visitor => return .inl (visitor, s.2 + 1)

/-- `walk_processes`. -/
def walkProcesses {σ : Type} (visit : σ → Path → Query (Result σ)) (s : σ) :
    Query (Result (σ × ℕ)) := do
  match ← opendir (ascii "/proc") with
  | .error errno => return failErrno errno
  | .ok () => iterate (walkStep visit) (s, 0)

/-- The variables that the visitor of `thread_count` changes. -/
structure ThreadTotal where
  totalThreads : ℕ := 0
  overflowed : Bool := false
  deriving DecidableEq, Repr

/-- What the visitor does with the content of a file. -/
def addThreads (s : ThreadTotal) (content : List UInt8) : Result ThreadTotal :=
  if content = [] then .ok s
  else do
    let threads ← parseThreadCount content
    if s.totalThreads > uint64Max - threads then .ok { s with overflowed := true }
    else .ok { s with totalThreads := s.totalThreads + threads }

/-- The visitor of `thread_count`. -/
def visitThreads (s : ThreadTotal) (name : Path) : Query (Result ThreadTotal) := do
  match ← readTextFile (procPath name (ascii "stat")) defaultMaximumSize with
  | .error e => if e = .fail (.generic enoent) then return .ok s else return .error e
  | .ok content => return addThreads s content

/-- `thread_count`. -/
def threadCount : Query (Result ℕ) := do
  match ← walkProcesses visitThreads {} with
  | .error e => return .error e
  | .ok (s, _) => if s.overflowed then return fail .valueTooLarge else return .ok s.totalThreads

end ThreadCount

section Processes

/-- `process_entry`. -/
structure ListedProcess extends ProcessEntry where
  uid : Option ℕ := none
  gid : Option ℕ := none
  userName : Option (List UInt8) := none
  executablePath : Option Path := none
  commandLine : Option (List (List UInt8)) := none
  workingDirectory : Option Path := none
  deriving DecidableEq, Repr

/-- The real identifier behind the title of a line, unless it is no `uint32_t`. -/
def realIdentifier (text : List UInt8) : Option ℕ :=
  match parseU64Field (text.takeWhile fun c => c ≠ 0x20 ∧ c ≠ 0x09) with
  | .ok value => if value ≤ uint32Max then some value else none
  | .error _ => none

/-- The body of the loop in `parse_proc_status`. -/
def parseProcStatusLine (entry : ListedProcess) (line : List UInt8) : ListedProcess :=
  if ascii "Uid:\t" <+: line then
    { entry with uid := (realIdentifier (line.drop 5)).or entry.uid }
  else if ascii "Gid:\t" <+: line then
    { entry with gid := (realIdentifier (line.drop 5)).or entry.gid }
  else if entry.name = none ∧ ascii "Name:\t" <+: line then
    let name := (line.drop 6).rdropWhile fun c => c == 0x0D || c == 0x0A || c == 0x20 || c == 0x09
    if ValidUtf8 name then { entry with name := some name } else entry
  else entry

/-- `parse_proc_status`. -/
def parseProcStatus (content : List UInt8) (entry : ListedProcess) : ListedProcess :=
  (lines 0x0A content).foldl parseProcStatusLine entry

/-- The body of the loop in `read_symlink_path`, whose state is the size of the buffer. -/
def readSymlinkStep (linkPath : Path) (size : ℕ) : Query (ℕ ⊕ Option Path) := do
  match ← readlink linkPath size with
  | .ok target =>
    if target.length < size then
      return .inr (if ValidUtf8 target then some target else none)
    else if size > 1024 * 1024 / 2 then return .inr none
    else return .inl (size * 2)
  | .error errno => if errno = eintr then return .inl size else return .inr none

/-- `read_symlink_path`. -/
def readSymlinkPath (linkPath : Path) : Query (Option Path) :=
  iterate (readSymlinkStep linkPath) 256

/-- The body of the loop in `lookup_username_by_uid`, whose state is the size of the buffer. -/
def lookupStep (uid size : ℕ) : Query (ℕ ⊕ Option (List UInt8)) := do
  match ← getpwuid uid size with
  | .error errno =>
    if errno = erange ∧ size < 1024 * 1024 then
      return .inl (if size ≤ 1024 * 1024 / 2 then size * 2 else 1024 * 1024)
    else return .inr none
  | .ok none => return .inr none
  | .ok (some userName) => return .inr (if ValidUtf8 userName then some userName else none)

/-- `lookup_username_by_uid`. -/
def lookupUsernameByUid (uid : ℕ) : Query (Option (List UInt8)) := iterate (lookupStep uid) 1024

/-- The user of an entry, if its `uid` is known. -/
def lookupUser (entry : ListedProcess) : Query (Option (List UInt8)) :=
  match entry.uid with
  | some uid => lookupUsernameByUid uid
  | none => return entry.userName

/-- The entry with the command line, if that can be read. -/
def addCommandLine (entry : ListedProcess) (content : Result (List UInt8)) :
    Result ListedProcess :=
  match content with
  | .error _ => .ok entry
  | .ok text =>
    match parseProcCmdline text with
    | .ok args => .ok { entry with commandLine := some args }
    | .error e =>
      if e ≠ .fail (.syscape .invalidEncoding) ∧ e ≠ .fail (.syscape .malformedData) then .error e
      else .ok entry

/-- `query_single_process`. -/
def querySingleProcess (pid : ℕ) (ticksPerSec : ℤ) (pageSize : ℕ) (bootTime : Option ℤ) :
    Query (Result ListedProcess) := do
  let file := fun name => procPath (decimal pid) (ascii name)
  match ← readTextFile (file "stat") defaultMaximumSize with
  | .error e => if isNoSuchFile e then return fail .notFound else return .error e
  | .ok content =>
    match parseProcStatEntry content pid ticksPerSec pageSize bootTime with
    | .error e => return .error e
    | .ok statEntry =>
      let entry : ListedProcess := { statEntry with }
      let status ← readTextFile (file "status") defaultMaximumSize
      let entry := match status with
        | .ok text => parseProcStatus text entry
        | .error _ => entry
      let userName ← lookupUser entry
      let cmdline ← readTextFile (file "cmdline") defaultMaximumSize
      match addCommandLine { entry with userName } cmdline with
      | .error e => return .error e
      | .ok entry =>
        let executablePath ← readSymlinkPath (file "exe")
        let workingDirectory ← readSymlinkPath (file "cwd")
        return .ok { entry with executablePath, workingDirectory }

/-- `skippable_process_error`. -/
def skippableProcessError : Fault ErrorCode → Bool
  | .fail (.syscape e) =>
    e == .notFound || e == .permissionDenied || e == .malformedData || e == .valueTooLarge
  | .fail (.generic errno) => errno == eacces
  | _ => false

/-- The process that the name of an entry stands for. -/
def pidOf (name : Path) : Option ℕ :=
  if ∀ c ∈ name.head?, c < 0x30 ∨ 0x39 < c then none
  else (numberOf 10 uint32Max name).filter (· ≠ 0)

/-- The body of the loop in `processes`. -/
def listStep (ticksPerSec : ℤ) (pageSize : ℕ) (bootTime : Option ℤ) (list : List ListedProcess) :
    Query (List ListedProcess ⊕ Result (List ListedProcess)) := do
  match ← readdir with
  | .error errno => return .inr (failErrno errno)
  | .ok none => return .inr (.ok list)
  | .ok (some name) =>
    match pidOf name with
    | none => return .inl list
    | some pid =>
      match ← querySingleProcess pid ticksPerSec pageSize bootTime with
      | .ok entry => return .inl (list ++ [entry])
      | .error e => if skippableProcessError e then return .inl list else return .inr (.error e)

/-- The comparison of `sort_processes`. -/
def pidLess (a b : ListedProcess) : Bool := a.pid < b.pid

/-- The check of the clock rate. -/
def validateRate (ticks : ℤ) : Result Unit :=
  if ticks > 0 then do
    let _ ← ticksToNanoseconds 0 ticks
    .ok ()
  else .ok ()

/-- `processes`, given the clock rate, the page size and the time of the boot. -/
def processes (sorter : StdSort.Sorter pidLess) (ticks pageSize : ℤ) (bootTime : Option ℤ) :
    Query (Result (List ListedProcess)) := do
  match ← opendir (ascii "/proc") with
  | .error errno => return failErrno errno
  | .ok () =>
    match validateRate ticks with
    | .error e => return .error e
    | .ok () =>
      match ← iterate (listStep ticks pageSize.toNat bootTime) [] with
      | .error e => return .error e
      | .ok list => return .ok (sorter.sort list)

end Processes

end Syscape.ProcessWalk
