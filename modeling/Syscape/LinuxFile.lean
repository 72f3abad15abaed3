import Syscape.Error
import Syscape.Lib.Text

/-!
# Files of a Linux system

What `stat`, `open` and `read` report about a path, and `read_text_file` over it. A
query sees one fixed state of the file system.
-/
namespace Syscape.LinuxFile
open Checked Text

abbrev Path := List UInt8

/-- One path as the kernel answers for it: there is no such file, `stat` fails, the
file cannot be opened or read, or it has a content. -/
inductive FileEntry where
  | absent
  | statFails (errno : ℤ)
  | unreadable (errno : ℤ)
  | content (text : List UInt8)
  deriving DecidableEq, Repr

abbrev FileSystem := Path → FileEntry

/-- The error number of `stat`, if it fails. -/
def statError (fs : FileSystem) (path : Path) : Option ℤ :=
  match fs path with
  | .absent => some enoent
  | .statFails errno => some errno
  | .unreadable _ => none
  | .content _ => none

/-- `read_text_file`: the whole content, unless it is longer than `maximumSize`. -/
def readTextFile (fs : FileSystem) (path : Path) (maximumSize : ℕ) : Result (List UInt8) :=
  match fs path with
  | .absent => failErrno enoent
  | .statFails errno => failErrno errno
  | .unreadable errno => failErrno errno
  | .content text => if text.length > maximumSize then fail .valueTooLarge else .ok text

/-- The error code compares equal to `std::errc::no_such_file_or_directory`. -/
def isNoSuchFile : Fault ErrorCode → Bool
  | .fail (.generic errno) => errno == enoent
  | .fail (.syscape e) => e == .notFound
  | _ => false

/-- The path of a file in a directory; the source adds a slash unless there is one. -/
def joinPath (dir name : Path) : Path :=
  if dir.getLast? = some 0x2F then dir ++ name else dir ++ ascii "/" ++ name

theorem readTextFile_content {fs : FileSystem} {path : Path} {text : List UInt8} {n : ℕ}
    (h : fs path = .content text) (hn : text.length ≤ n) :
    readTextFile fs path n = .ok text := by
  rw [readTextFile, h]
  exact if_neg (by omega)

theorem statError_content {fs : FileSystem} {path : Path} {text : List UInt8}
    (h : fs path = .content text) : statError fs path = none := by
  rw [statError, h]

/-- A file of another name is not in the table. -/
theorem lookup_eq_none_of_suffix {α : Type} {table : List (Path × α)} {path name : Path}
    (h : name <:+ path) (hnone : ∀ p ∈ table.map (·.1), ¬ name <:+ p) :
    table.lookup path = none := by
  rw [List.lookup_eq_none_iff]
  intro p hp
  rw [bne_iff_ne]
  rintro rfl
  exact hnone _ (List.mem_map_of_mem hp) h

end Syscape.LinuxFile
