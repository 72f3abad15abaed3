import Syscape.BlockDevice
import Syscape.MountFields
import Syscape.Utf8Text
import Syscape.Lib.Lines
import Syscape.Lib.Paths
import Syscape.Lib.LastMax

/-!
# Encryption of the volume under a path

`volume_encryption_at` looks up the mount that a path is on and inspects its device. Mounts may
lie over each other, and their names may share their beginnings; what counts is the last of the
mounts with a longest mount point among those that lead to the path.
-/
namespace Syscape.VolumeEncryption
open Checked Text Lines Paths LinuxFile BlockDevice MountFields OctalEscape LastMax Utf8

section Source

/-- `volume_encryption_info`; this query leaves its other fields empty. -/
structure VolumeEncryptionInfo where
  pathOrDevice : Path
  state : EncryptionState := .unknown
  type : EncryptionType := .unknown
  deriving DecidableEq, Repr

/-- The device and the mount point in a line of the table. -/
def mountOf (line : List UInt8) : Option (Path × Path) :=
  if line = [] ∨ line.head? = some 0x23 then none
  else
    match line.idxOf? 0x20 with
    | none => none
    | some space1 =>
      let rest := line.drop (space1 + 1)
      match rest.idxOf? 0x20 with
      | none => none
      | some space2 =>
        some (Security.decodeMountEntry (line.take space1),
          Security.decodeMountEntry (rest.take space2))

/-- The path is a mount point, or below it. -/
def isOn (mnt targetPath : Path) : Bool :=
  targetPath = mnt ∨
    (targetPath.length > mnt.length ∧ targetPath.take mnt.length = mnt ∧
      (mnt = ascii "/" ∨ targetPath[mnt.length]? = some 0x2F))

/-- The variables of the search. -/
structure MountMatch where
  matchedDevice : Path := []
  longestMountLen : ℕ := 0
  deriving DecidableEq, Repr

/-- A line of the search. -/
def considerLine (targetPath : Path) (s : MountMatch) (line : List UInt8) : MountMatch :=
  match mountOf line with
  | none => s
  | some (dev, mnt) =>
    if isOn mnt targetPath then
      if mnt.length ≥ s.longestMountLen then ⟨dev, mnt.length⟩ else s
    else s

/-- The path itself, if it is that of a device. -/
def ownDevice (targetPath : Path) : Path :=
  if ascii "/dev/dm-" <+: targetPath ∨ ascii "/dev/mapper/" <+: targetPath ∨
      ascii "dm-" <+: targetPath ∨ ascii "/dev/" <+: targetPath then targetPath
  else []

/-- The node in sysfs has the name of a device of the device mapper. -/
def hasMapperName (fs : FileSystem) (sysBlockRoot mapperName bname : Path) : Bool :=
  match readTextFile fs (sysBlockRoot ++ ascii "/" ++ bname ++ ascii "/dm/name") 256 with
  | .ok name => Security.trimWhitespace name = mapperName
  | .error _ => false

/-- The name of a device in sysfs. -/
def blockNode (fs : FileSystem) (dirs : DirectoryTree) (sysBlockRoot device : Path) : Path :=
  if ascii "/dev/dm-" <+: device then device.drop 5
  else if ascii "dm-" <+: device then device
  else if ascii "/dev/mapper/" <+: device then
    match dirs sysBlockRoot with
    | .openFails _ => []
    | .listing entries _ =>
      (entries.find? fun bname =>
        ascii "dm-" <+: bname ∧ hasMapperName fs sysBlockRoot (device.drop 12) bname).getD []
  else if ascii "/dev/" <+: device then device.drop 5
  else []

/-- What is reported when the device of the volume is known, or empty. -/
def inspectVolume (fs : FileSystem) (dirs : DirectoryTree) (sysBlockRoot path device : Path) :
    VolumeEncryptionInfo :=
  let node := blockNode fs dirs sysBlockRoot device
  if node ≠ [] then
    let enc := inspectBlockDeviceEncryption fs dirs sysBlockRoot node 0
    ⟨path, enc.1, enc.2⟩
  else ⟨path, .unknown, .unknown⟩

/-- `volume_encryption_at`, with `realpath` of the system. -/
def volumeEncryptionAt (fs : FileSystem) (dirs : DirectoryTree) (realpath : Path → Option Path)
    (path sysBlockRoot mountsPath : Path) : Result VolumeEncryptionInfo :=
  if path = [] then fail .invalidArgument
  else do
    let valid ← isValidUtf8 path
    if ¬ valid then fail .invalidEncoding
    else if 0 ∈ path then fail .invalidArgument
    else
      match statError fs path with
      | some errno => if errno = enoent then fail .notFound else failErrno errno
      | none =>
        let targetPath := (realpath path).getD path
        match readTextFile fs mountsPath 65536 with
        | .error e => if LinuxFile.isNoSuchFile e then fail .notSupported else .error e
        | .ok text =>
          let found := (lines 0x0A text).foldl (considerLine targetPath) {}
          let matchedDevice :=
            if found.matchedDevice = [] then ownDevice targetPath else found.matchedDevice
          .ok (inspectVolume fs dirs sysBlockRoot path matchedDevice)

end Source

section Tables

/-- A normalised absolute path. -/
structure AbsolutePath where
  names : List Path
  isName : ∀ name ∈ names, IsName 0x2F name

def AbsolutePath.text (path : AbsolutePath) : Path :=
  if path.names = [] then ascii "/" else path.names.flatMap (0x2F :: ·)

/-- A mount, with what follows in its line. -/
structure Mount where
  device : Path
  point : AbsolutePath
  options : List UInt8
  no_newline : 0x0A ∉ options

/-- A line of the table: the kernel escapes the device and the mount point. -/
def Mount.line (m : Mount) : List UInt8 :=
  mangle m.device ++ 0x20 :: (escape isKnown m.point.text ++ 0x20 :: m.options)

def tableText (mounts : List Mount) : List UInt8 :=
  (mounts.map Mount.line).flatMap (· ++ [0x0A])

/-- The mount is on the way to the path, component by component. -/
def LeadsTo (path : AbsolutePath) (m : Mount) : Prop := m.point.names <+: path.names

instance (path : AbsolutePath) : DecidablePred (LeadsTo path) :=
  fun m => inferInstanceAs (Decidable (m.point.names <+: path.names))

/-- The last of the mounts with a longest mount point among those that lead to the path. -/
def IsMountOf (mounts : List Mount) (path : AbsolutePath) (m : Mount) : Prop :=
  IsLastMax (LeadsTo path) (fun m => m.point.names.length) mounts m

end Tables

section Paths
variable {p q r : AbsolutePath}

lemma AbsolutePath.text_of_ne_nil (h : p.names ≠ []) : p.text = p.names.flatMap (0x2F :: ·) :=
  if_neg h

lemma AbsolutePath.two_le_length (h : p.names ≠ []) : 2 ≤ p.text.length := by
  obtain ⟨names, hnames⟩ := p
  cases names with
  | nil => exact absurd rfl h
  | cons name names =>
    have hname := List.length_pos_iff.mpr (hnames name (by simp)).1
    rw [AbsolutePath.text_of_ne_nil h, List.flatMap_cons, List.length_append, List.length_cons]
    omega

/-- The components of a path that is not the root. -/
lemma AbsolutePath.splitOn_text (h : p.names ≠ []) : p.text.splitOn 0x2F = [] :: p.names := by
  have hsplit := @splitOn_append_names _ _ 0x2F [] p.names fun name hname => (p.isName name hname).2
  rw [text_of_ne_nil h]
  rwa [List.nil_append, List.splitOn_nil, List.singleton_append] at hsplit

/-- A text with one more byte in front of another, as the source tests it. -/
lemma append_singleton_prefix_iff {c : UInt8} {front text : List UInt8} :
    front ++ [c] <+: text ↔
      text.length > front.length ∧ text.take front.length = front ∧
        text[front.length]? = some c := by
  constructor
  · rintro ⟨rest, rfl⟩
    simp
  · rintro ⟨-, htake, hget⟩
    obtain ⟨hlt, hc⟩ := List.getElem?_eq_some_iff.mp hget
    refine ⟨text.drop (front.length + 1), ?_⟩
    conv_rhs => rw [← List.take_append_drop front.length text, htake,
      List.drop_eq_getElem_cons hlt, hc]
    simp

/-- The test of the source compares component by component. -/
theorem isOn_text : isOn p.text q.text = true ↔ p.names <+: q.names := by
  unfold isOn
  rw [decide_eq_true_iff]
  by_cases hp : p.names = []
  · have hroot : p.text = ascii "/" := if_pos hp
    rw [hp, hroot]
    simp only [List.nil_prefix, iff_true]
    by_cases hq : q.names = []
    · exact .inl (if_pos hq)
    · have hlength := AbsolutePath.two_le_length hq
      obtain ⟨name, names, hnames⟩ := List.exists_cons_of_ne_nil hq
      refine .inr ⟨hlength, ?_, .inl trivial⟩
      rw [AbsolutePath.text_of_ne_nil hq, hnames]
      rfl
  · have hlong := AbsolutePath.two_le_length hp
    have hnot : p.text ≠ ascii "/" := by
      intro h
      rw [h] at hlong
      exact absurd hlong (by decide)
    simp only [hnot, false_or]
    rw [← append_singleton_prefix_iff, eq_comm]
    by_cases hq : q.names = []
    · have hroot : q.text = ascii "/" := if_pos hq
      rw [hq, List.prefix_nil, hroot]
      simp only [hnot, hp, false_or, iff_false]
      intro hstart
      have hle := hstart.length_le
      rw [List.length_append] at hle
      have hone : (ascii "/").length = 1 := rfl
      omega
    · rw [← splitOn_prefix_iff, AbsolutePath.splitOn_text hp, AbsolutePath.splitOn_text hq,
        List.cons_prefix_cons]
      simp

lemma length_text_lt (h : p.names <+: q.names) (hne : p.names ≠ q.names) :
    p.text.length < q.text.length := by
  obtain ⟨more, hmore⟩ := h
  have hmore_ne : more ≠ [] := by
    rintro rfl
    exact hne (by rw [← hmore, List.append_nil])
  have hq : q.names ≠ [] := by
    intro hnil
    rw [hnil, List.append_eq_nil_iff] at hmore
    exact hmore_ne hmore.2
  by_cases hp : p.names = []
  · have hroot : p.text = ascii "/" := if_pos hp
    have hlength := AbsolutePath.two_le_length hq
    rw [hroot]
    exact hlength
  · obtain ⟨name, names, rfl⟩ := List.exists_cons_of_ne_nil hmore_ne
    rw [AbsolutePath.text_of_ne_nil hp, AbsolutePath.text_of_ne_nil hq, ← hmore,
      List.flatMap_append, List.length_append, List.flatMap_cons]
    simp

/-- Of two paths that lead to a third, the one with more components is longer. -/
lemma length_text_le_iff (hp : p.names <+: r.names) (hq : q.names <+: r.names) :
    p.text.length ≤ q.text.length ↔ p.names.length ≤ q.names.length := by
  by_cases heq : p.names = q.names
  · unfold AbsolutePath.text
    rw [heq]
    simp
  · rcases List.prefix_or_prefix_of_prefix hp hq with h | h
    · have hlt := length_text_lt h heq
      have hle := h.length_le
      omega
    · have hlt := length_text_lt h (Ne.symm heq)
      have hle := h.length_le
      have hne : p.names.length ≠ q.names.length :=
        fun hlength => heq (h.eq_of_length hlength.symm).symm
      omega

end Paths

section Search
variable {path : AbsolutePath} {mounts : List Mount}

/-- The reader finds the device and the mount point of a line. -/
lemma mountOf_line (m : Mount) : mountOf m.line = some (m.device, m.point.text) := by
  have hdevice : 0x20 ∉ mangle m.device := not_mem_escape _ (by decide) rfl rfl
  have hpoint : 0x20 ∉ escape isKnown m.point.text := not_mem_escape _ (by decide) rfl rfl
  have hline : ¬ (m.line = [] ∨ m.line.head? = some 0x23) := by
    have hhash : 0x23 ∉ mangle m.device := not_mem_escape _ (by decide) rfl rfl
    unfold Mount.line
    cases hm : mangle m.device with
    | nil => simp
    | cons c device =>
      rw [hm, List.mem_cons, not_or] at hhash
      simpa using Ne.symm hhash.1
  have hpoint_text : Security.decodeMountEntry (escape isKnown m.point.text) = m.point.text := by
    have h := @decodeAnyOctal_append isKnown rfl m.point.text []
    rwa [List.append_nil, decodeAnyOctal, List.append_nil] at h
  unfold mountOf
  rw [if_neg hline, Mount.line, idxOf?_append_cons hdevice]
  dsimp only
  rw [← List.drop_drop, List.drop_left, List.drop_succ_cons, List.drop_zero,
    idxOf?_append_cons hpoint]
  dsimp only
  rw [List.take_left, List.take_left, hpoint_text]
  exact congrArg (fun device => some (device, m.point.text)) (decodeAnyOctal_mangle m.device)

lemma lines_tableText (mounts : List Mount) :
    lines 0x0A (tableText mounts) = mounts.map Mount.line := by
  have hlines : ∀ line ∈ mounts.map Mount.line, 0x0A ∉ line := by
    intro line hline
    obtain ⟨m, -, rfl⟩ := List.mem_map.mp hline
    have hdevice : 0x0A ∉ mangle m.device := not_mem_escape _ (by decide) rfl rfl
    have hpoint : 0x0A ∉ escape isKnown m.point.text := not_mem_escape _ (by decide) rfl rfl
    simp [Mount.line, hdevice, hpoint, m.no_newline]
  exact lines_flatMap_sep hlines

/-- What the search has found when the scan keeps a mount. -/
def matchOf : Option Mount → MountMatch
  | none => {}
  | some m => ⟨m.device, m.point.text.length⟩

/-- The scan of the source is the one for the last of the largest. -/
lemma foldl_considerLine {best : Option Mount} (hbest : ∀ m ∈ best, LeadsTo path m) :
    (mounts.map Mount.line).foldl (considerLine path.text) (matchOf best) =
      matchOf (mounts.foldl (keep (LeadsTo path) fun m => m.point.names.length) best) := by
  induction mounts generalizing best with
  | nil => rfl
  | cons m mounts ih =>
    have hstep : considerLine path.text (matchOf best) m.line =
        matchOf (keep (LeadsTo path) (fun m => m.point.names.length) best m) := by
      unfold considerLine keep
      rw [mountOf_line]
      dsimp only
      by_cases hm : LeadsTo path m
      · rw [if_pos (isOn_text.mpr hm)]
        cases best with
        | none => simp [hm, matchOf]
        | some b =>
          have hle := length_text_le_iff (hbest b rfl) hm
          simp only [matchOf, ge_iff_le, hle, hm, true_and, Option.mem_some_iff, forall_eq']
          split_ifs with hlength
          · rfl
          · rfl
      · rw [if_neg fun hon => hm (isOn_text.mp hon), if_neg fun h => hm h.1]
    rw [List.map_cons, List.foldl_cons, List.foldl_cons, hstep, ih]
    intro b hb
    unfold keep at hb
    split_ifs at hb with hm
    · cases hb
      exact hm.1
    · exact hbest b hb

/-- The search ends with the device of the mount that the path is on. -/
theorem foldl_tableText (path : AbsolutePath) (mounts : List Mount) :
    (lines 0x0A (tableText mounts)).foldl (considerLine path.text) {} =
      matchOf (lastMax (LeadsTo path) (fun m => m.point.names.length) mounts) := by
  rw [lines_tableText]
  exact @foldl_considerLine path mounts none (by simp)

end Search

section Query
variable {fs : FileSystem} {dirs : DirectoryTree} {realpath : Path → Option Path}
  {path sysBlockRoot mountsPath : Path} {target : AbsolutePath} {mounts : List Mount}

/-- What is inspected is the device of the last of the mounts with a longest mount point among
those that lead to the path; without one, a path under `/dev` is inspected itself. -/
theorem volume_encryption_at (hne : path ≠ []) (hvalid : ValidUtf8 path) (hnul : 0 ∉ path)
    (hstat : statError fs path = none) (htarget : (realpath path).getD path = target.text)
    (htable : fs mountsPath = .content (tableText mounts))
    (hsize : (tableText mounts).length ≤ 65536) :
    (∀ m, IsMountOf mounts target m → m.device ≠ [] →
      volumeEncryptionAt fs dirs realpath path sysBlockRoot mountsPath =
        .ok (inspectVolume fs dirs sysBlockRoot path m.device)) ∧
    ((∀ m, IsMountOf mounts target m → m.device = []) →
      volumeEncryptionAt fs dirs realpath path sysBlockRoot mountsPath =
        .ok (inspectVolume fs dirs sysBlockRoot path (ownDevice target.text))) := by
  have hrun : volumeEncryptionAt fs dirs realpath path sysBlockRoot mountsPath =
      let device := (matchOf
        (lastMax (LeadsTo target) (fun m => m.point.names.length) mounts)).matchedDevice
      .ok (inspectVolume fs dirs sysBlockRoot path
        (if device = [] then ownDevice target.text else device)) := by
    unfold volumeEncryptionAt
    rw [if_neg hne, isValidUtf8_eq, decide_eq_true hvalid, ok_bind, if_neg (by simp), if_neg hnul,
      hstat]
    dsimp only
    rw [htarget, readTextFile_content htable hsize]
    dsimp only
    rw [foldl_tableText]
  rw [hrun]
  constructor
  · intro m hm hdevice
    rw [lastMax_eq_some_iff.mpr hm]
    dsimp only [matchOf]
    rw [if_neg hdevice]
  · intro hall
    dsimp only
    rw [if_pos]
    cases hbest : lastMax (LeadsTo target) (fun m => m.point.names.length) mounts with
    | none => rfl
    | some m => exact hall m (lastMax_eq_some_iff.mp hbest)

/-- A mount with ordinary options. -/
def plainMount (device : String) (names : List Path) (h : ∀ name ∈ names, IsName 0x2F name) :
    Mount where
  device := ascii device
  point := ⟨names, h⟩
  options := ascii "ext4 rw 0 0"
  no_newline := by decide

/-- A host with a mount table. -/
def tableHost (text : List UInt8) : FileSystem := fun path =>
  if path = ascii "/proc/self/mounts" then .content text else .content []

/-- Four mounts, of which the third lies over the second. -/
def overmounted : List Mount :=
  [plainMount "/dev/sda1" [] (by simp),
    plainMount "/dev/sdb1" [ascii "data"] (by simp [IsName, ascii]),
    plainMount "/dev/sdc1" [ascii "data"] (by simp [IsName, ascii]),
    plainMount "/dev/sdd1" [ascii "database"] (by simp [IsName, ascii])]

theorem volume_encryption_at_overmounted :
    volumeEncryptionAt (tableHost (tableText overmounted)) (fun _ => .openFails enoent) some
      (ascii "/data/x") (ascii "/sys/block") (ascii "/proc/self/mounts") =
        .ok (inspectVolume (tableHost (tableText overmounted)) (fun _ => .openFails enoent)
          (ascii "/sys/block") (ascii "/data/x") (ascii "/dev/sdc1")) := by
  let target : AbsolutePath := ⟨[ascii "data", ascii "x"], by simp [IsName, ascii]⟩
  have hmount : IsMountOf overmounted target
      (plainMount "/dev/sdc1" [ascii "data"] (by simp [IsName, ascii])) := by
    refine ⟨⟨[ascii "x"], rfl⟩, overmounted.take 2, overmounted.drop 3, rfl, ?_, ?_⟩
    · decide
    · decide
  have hsize : (tableText overmounted).length ≤ 65536 := by
    decide +kernel
  have hstat : statError (tableHost (tableText overmounted)) (ascii "/data/x") = none := by
    rw [statError, tableHost, if_neg (by decide)]
  have htable : tableHost (tableText overmounted) (ascii "/proc/self/mounts") =
      .content (tableText overmounted) := if_pos rfl
  have hvalid : ValidUtf8 (ascii "/data/x") := validUtf8_ascii (forall_of_all (by decide))
  exact (volume_encryption_at (by decide) hvalid (by decide) hstat rfl htable hsize).1 _ hmount
    (by decide)

/-- A mount whose line alone is too long for the reader. -/
def longMount : Mount where
  device := ascii "/dev/sda1"
  point := ⟨[], by simp⟩
  options := List.replicate 65536 0x78
  no_newline := fun h => absurd (List.eq_of_mem_replicate h) (by decide)

lemma options_lt_length_tableText (m : Mount) : m.options.length < (tableText [m]).length := by
  rw [tableText, List.map_singleton, List.flatMap_singleton, Mount.line]
  simp only [List.length_append, List.length_cons]
  omega

/-- A table that is too long is refused. -/
lemma volumeEncryptionAt_tableHost {text : List UInt8} (hsize : 65536 < text.length) :
    volumeEncryptionAt (tableHost text) (fun _ => .openFails enoent) some
      (ascii "/data/x") (ascii "/sys/block") (ascii "/proc/self/mounts") =
        fail .valueTooLarge := by
  have hvalid : ValidUtf8 (ascii "/data/x") := validUtf8_ascii (forall_of_all (by decide))
  have hstat : statError (tableHost text) (ascii "/data/x") = none := by
    rw [statError, tableHost, if_neg (by decide)]
  have hread : readTextFile (tableHost text) (ascii "/proc/self/mounts") 65536 =
      fail .valueTooLarge := by
    rw [readTextFile, tableHost, if_pos rfl]
    exact if_pos hsize
  unfold volumeEncryptionAt
  rw [if_neg (by decide), isValidUtf8_eq, decide_eq_true hvalid, ok_bind, if_neg (by decide),
    if_neg (by decide), hstat]
  dsimp only
  rw [hread]
  rfl

/-- A path that is not UTF-8 and a table that is too long are refused. -/
theorem volume_encryption_at_refused :
    volumeEncryptionAt (tableHost (tableText overmounted)) (fun _ => .openFails enoent) some
      [0x2F, 0xFF] (ascii "/sys/block") (ascii "/proc/self/mounts") = fail .invalidEncoding ∧
    volumeEncryptionAt (tableHost (tableText [longMount])) (fun _ => .openFails enoent) some
      (ascii "/data/x") (ascii "/sys/block") (ascii "/proc/self/mounts") =
        fail .valueTooLarge := by
  constructor
  · have hinvalid : ¬ ValidUtf8 [0x2F, 0xFF] := by
      intro h
      have hslash : ∀ c ∈ [(0x2F : UInt8)], c < 0x80 := by simp
      exact not_validUtf8_ff (ValidUtf8.of_ascii_append hslash h)
    unfold volumeEncryptionAt
    rw [if_neg (by decide), isValidUtf8_eq, decide_eq_false hinvalid]
    rfl
  · have hoptions : longMount.options.length = 65536 := List.length_replicate
    have hsize := options_lt_length_tableText longMount
    rw [hoptions] at hsize
    exact volumeEncryptionAt_tableHost hsize

end Query

end Syscape.VolumeEncryption
