import Syscape.EnvironmentLookup
import Syscape.Lib.Lines
import Syscape.Lib.Text
import Mathlib.Data.List.DropRight

/-!
# Executables on Windows

The variable PATH is divided at its semicolons, and the quotes around a directory are taken
away afterwards. In each directory the name is tried with the extensions of PATHEXT, and by
itself first or last. A directory with a semicolon can only be written in quotes; it is torn
apart before they are seen, and no file in it is found.
-/
namespace Syscape.Environment.Windows
open Checked Utf8 Text Paths

/-- The units of an ASCII literal. -/
def wide (s : String) : List UInt16 := (ascii s).map fun c => UInt16.ofNat c.toNat

section Native

/-- The native functions of the search; the buffer of a full path is filled like that of a
variable. -/
structure SearchApi extends NativeApi where
  getFullPathName : List UInt16 → UInt32 → NativeCall

/-- `normalize_directory_path`. -/
def normalizeDirectoryPath (path : List UInt8) : List UInt8 :=
  if path.length > 1 ∧ (path.getLast? = some 0x2F ∨ path.getLast? = some 0x5C) then
    if path.length = 3 ∧ path[1]? = some 0x3A then path
    else normalizeDirectoryPath path.dropLast
  else path
termination_by path.length

/-- The loop of `make_windows_absolute_path`, with the attempts that are left and the size of
the buffer. -/
def fullPathLoop (api : SearchApi) (path : List UInt16) : ℕ → ℕ → EnvResult (List UInt8)
  | 0, _ => envFail .temporarilyUnavailable
  | attempts + 1, size =>
    let call := api.getFullPathName path (UInt32.ofNat size)
    if call.copied = 0 then systemError call.lastError
    else if call.copied.toNat < size then do
      let converted ← lift (utf16ToUtf8 (call.buffer.take call.copied.toNat))
      .ok (normalizeDirectoryPath converted)
    else fullPathLoop api path attempts call.copied.toNat

/-- `make_windows_absolute_path`; a path is passed as a string that ends at the first NUL. -/
def makeWindowsAbsolutePath (api : SearchApi) (path : List UInt16) : EnvResult (List UInt8) :=
  fullPathLoop api (path.takeWhile (· ≠ 0)) 3 260

/-- The two calls for a variable: one for the size, and one for the value. -/
def readVariable (api : SearchApi) (name : List UInt16) : Option (List UInt16) :=
  let size := (api.getEnvironmentVariable name 0).copied
  if size = 0 then none
  else
    let call := api.getEnvironmentVariable name size
    if call.copied = 0 ∨ call.copied ≥ size then none
    else some (call.buffer.take call.copied.toNat)

/-- The extensions without PATHEXT. -/
def defaultExtensions : List (List UInt16) := [wide ".COM", wide ".EXE", wide ".BAT", wide ".CMD"]

/-- The extensions in a value of PATHEXT. -/
def extensionsOf (value : Option (List UInt16)) : List (List UInt16) :=
  let extensions := ((value.getD []).splitOn 0x3B).filter (· ≠ [])
  if extensions = [] then defaultExtensions else extensions

/-- `get_pathext_extensions`. -/
def getPathextExtensions (api : SearchApi) : List (List UInt16) :=
  extensionsOf (readVariable api (wide "PATHEXT"))

/-- `is_valid_executable_file`, with the function that gives the attributes of a path. -/
def isValidExecutableFile (attributes : List UInt16 → UInt32) (path : List UInt16) : Bool :=
  let attrs := attributes (path.takeWhile (· ≠ 0))
  attrs ≠ 0xFFFFFFFF ∧ attrs &&& 0x10 = 0

end Native

section Search
variable (api : SearchApi) (attributes : List UInt16 → UInt32)

/-- `check_candidate_file_with_extensions`. -/
def checkCandidateFileWithExtensions (basePath : List UInt16) (filenameHasExtension : Bool)
    (pathextList : List (List UInt16)) : EnvResult (List UInt8) :=
  if filenameHasExtension && isValidExecutableFile attributes basePath then
    makeWindowsAbsolutePath api basePath
  else
    match pathextList.find? fun ext => isValidExecutableFile attributes (basePath ++ ext) with
    | some ext => makeWindowsAbsolutePath api (basePath ++ ext)
    | none =>
      if !filenameHasExtension && isValidExecutableFile attributes basePath then
        makeWindowsAbsolutePath api basePath
      else envFail .notFound

/-- The enclosing quotes are taken away. -/
def unquote (dir : List UInt16) : List UInt16 :=
  if dir.length ≥ 2 ∧ dir.head? = some 0x22 ∧ dir.getLast? = some 0x22 then (dir.drop 1).dropLast
  else dir

/-- The path of a name in a directory; a backslash is added unless there is a separator. -/
def candidateBase (dir wideName : List UInt16) : List UInt16 :=
  if dir.getLast? ≠ some 0x5C ∧ dir.getLast? ≠ some 0x2F then dir ++ [0x5C] ++ wideName
  else dir ++ wideName

/-- The loop over the parts of PATH; what cannot be reported is passed over. -/
def searchParts (wideName : List UInt16) (filenameHasExt : Bool)
    (pathextList : List (List UInt16)) : List (List UInt16) → EnvResult (List UInt8)
  | [] => envFail .notFound
  | part :: parts =>
    let dir := unquote part
    if dir ≠ [] then
      match checkCandidateFileWithExtensions api attributes (candidateBase dir wideName)
          filenameHasExt pathextList with
      | .ok found => .ok found
      | .error (.fail _) => searchParts wideName filenameHasExt pathextList parts
      | .error fault => .error fault
    else searchParts wideName filenameHasExt pathextList parts

/-- A slash or a backslash. -/
def isSeparator (c : UInt8) : Bool := c = 0x2F ∨ c = 0x5C

/-- `find_executable`. -/
def findExecutable (name : List UInt8) : EnvResult (List UInt8) :=
  if name = [] then envFail .invalidArgument
  else if 0 ∈ name then envFail .invalidArgument
  else do
    let valid ← lift (isValidUtf8 name)
    if !valid then envFail .invalidEncoding
    else do
      let wideName ← utf8ToWide name
      let filename := name.rtakeWhile fun c => !isSeparator c
      let filenameHasExt := filename.contains 0x2E
      let pathextList := getPathextExtensions api
      if name.any isSeparator then
        checkCandidateFileWithExtensions api attributes wideName filenameHasExt pathextList
      else
        match readVariable api (wide "PATH") with
        | none => envFail .notFound
        | some path =>
          searchParts api attributes wideName filenameHasExt pathextList (path.splitOn 0x3B)

end Search

section Specification

/-- A directory that can be listed in PATH, and how it is written there. -/
structure ListedDirectory where
  dir : List UInt16
  quoted : Bool
  ne_nil : dir ≠ []
  no_quote : 0x22 ∉ dir
  no_nul : 0 ∉ dir
  quoted_of_semicolon : 0x3B ∈ dir → quoted = true

/-- A directory as it is written. -/
def ListedDirectory.text (d : ListedDirectory) : List UInt16 :=
  if d.quoted then [0x22] ++ d.dir ++ [0x22] else d.dir

/-- The value of PATH for a list of directories. -/
def pathOf (dirs : List ListedDirectory) : List UInt16 := [0x3B].intercalate (dirs.map (·.text))

/-- The files to try for the path of a name. -/
def withExtensions (base : List UInt16) (hasExt : Bool) (extensions : List (List UInt16)) :
    List (List UInt16) :=
  (if hasExt then [base] else []) ++ extensions.map (base ++ ·) ++ if hasExt then [] else [base]

/-- The files to try, by directories first. -/
def candidates (dirs : List (List UInt16)) (name : List Char) (extensions : List (List UInt16)) :
    List (List UInt16) :=
  dirs.flatMap fun dir =>
    withExtensions (candidateBase dir (unitsOfScalars name)) (name.contains '.') extensions

/-- The absolute form of the first candidate that exists and is no directory. -/
def firstOf (api : SearchApi) (attributes : List UInt16 → UInt32) (paths : List (List UInt16)) :
    EnvResult (List UInt8) :=
  match paths.find? (isValidExecutableFile attributes) with
  | none => envFail .notFound
  | some path => makeWindowsAbsolutePath api path

/-- What the documentation of `GetEnvironmentVariableW` says of one variable: the size with the
final NUL for no buffer, the value for a buffer that is large enough, and nothing without the
variable. -/
structure Reports (api : SearchApi) (name : List UInt16) (value : Option (List UInt16)) : Prop where
  size : ∀ text, value = some text →
    (api.getEnvironmentVariable name 0).copied.toNat = text.length + 1
  fits : ∀ text, value = some text → ∀ size : UInt32, text.length < size.toNat →
    (api.getEnvironmentVariable name size).copied.toNat = text.length ∧
      (api.getEnvironmentVariable name size).buffer.take text.length = text
  missing : value = none → (api.getEnvironmentVariable name 0).copied = 0
  no_nul : ∀ text, value = some text → 0 ∉ text

end Specification

section Variables
variable {api : SearchApi} {name : List UInt16}

/-- A variable is read as it is; an empty one is taken for none. -/
theorem readVariable_eq {value : Option (List UInt16)} (h : Reports api name value) :
    readVariable api name = value.filter (· ≠ []) := by
  cases value with
  | none => rw [readVariable, h.missing rfl, if_pos rfl, Option.filter_none]
  | some text =>
    have hsize := h.size text rfl
    have hne : (api.getEnvironmentVariable name 0).copied ≠ 0 := by
      intro hzero
      rw [hzero] at hsize
      cases hsize
    obtain ⟨hcopied, hbuffer⟩ := h.fits text rfl _ (by rw [hsize]; exact Nat.lt_succ_self _)
    have hfits : ¬ (api.getEnvironmentVariable name
        (api.getEnvironmentVariable name 0).copied).copied ≥
          (api.getEnvironmentVariable name 0).copied := by
      rw [ge_iff_le, UInt32.le_iff_toNat_le, hcopied, hsize]
      omega
    have hzero : (api.getEnvironmentVariable name
        (api.getEnvironmentVariable name 0).copied).copied = 0 ↔ text = [] := by
      rw [← UInt32.toNat_inj, hcopied]
      exact List.length_eq_zero_iff
    simp only [readVariable, if_neg hne, hzero, hfits, or_false, hcopied, hbuffer]
    rw [Option.filter_some]
    by_cases hnil : text = []
    · simp [hnil]
    · simp [hnil]

/-- An empty list of extensions is one without extensions. -/
theorem getPathextExtensions_eq {value : Option (List UInt16)}
    (h : Reports api (wide "PATHEXT") value) : getPathextExtensions api = extensionsOf value := by
  rw [getPathextExtensions, readVariable_eq h]
  cases value with
  | none => rfl
  | some text =>
    by_cases hnil : text = []
    · subst hnil
      rfl
    · rw [Option.filter_some, if_pos (by simpa using hnil)]

/-- Extensions have no semicolon and no NUL. -/
theorem not_mem_of_mem_extensionsOf {value : Option (List UInt16)}
    (h : Reports api (wide "PATHEXT") value) {extension : List UInt16}
    (hmem : extension ∈ extensionsOf value) : 0x3B ∉ extension ∧ 0 ∉ extension := by
  rw [extensionsOf] at hmem
  split_ifs at hmem with hnone
  · have hdefault : ∀ extension ∈ defaultExtensions, 0x3B ∉ extension ∧ 0 ∉ extension := by decide
    exact hdefault extension hmem
  · rw [List.mem_filter] at hmem
    obtain ⟨hsep, htext⟩ := of_mem_splitOn hmem.1
    refine ⟨hsep, fun hzero => ?_⟩
    cases value with
    | none => cases htext 0 hzero
    | some text => exact h.no_nul text rfl (htext 0 hzero)

end Variables

section Outcomes
variable {api : SearchApi} {attributes : List UInt16 → UInt32}

theorem utf16ToUtf8_cases (units : List UInt16) :
    (∃ text, utf16ToUtf8 units = .ok text) ∨ utf16ToUtf8 units = fail .invalidEncoding := by
  obtain ⟨cs, rest, rfl, rfl | hbad⟩ := exists_scalars_of_units units
  · exact .inl ⟨_, by rw [List.append_nil, utf16ToUtf8_scalars]⟩
  · exact .inr (utf16ToUtf8_unpaired cs hbad)

/-- An absolute form fails with an error of its own. -/
theorem makeWindowsAbsolutePath_cases (api : SearchApi) (path : List UInt16) :
    (∃ form, makeWindowsAbsolutePath api path = .ok form) ∨
      ∃ error, makeWindowsAbsolutePath api path = .error (.fail error) ∧
        error ≠ .code (.syscape .notFound) := by
  rw [makeWindowsAbsolutePath]
  generalize path.takeWhile (· ≠ 0) = path
  generalize 3 = attempts
  generalize 260 = size
  induction attempts generalizing size with
  | zero => exact .inr ⟨_, rfl, by simp⟩
  | succ attempts ih =>
    rw [fullPathLoop]
    split_ifs
    · exact .inr ⟨_, rfl, by simp⟩
    · rcases utf16ToUtf8_cases ((api.getFullPathName path (UInt32.ofNat size)).buffer.take
        (api.getFullPathName path (UInt32.ofNat size)).copied.toNat) with ⟨text, htext⟩ | hbad
      · exact .inl ⟨_, by rw [htext]; rfl⟩
      · exact .inr ⟨_, by rw [hbad]; rfl, by simp⟩
    · exact ih _

theorem makeWindowsAbsolutePath_ne (path : List UInt16) :
    makeWindowsAbsolutePath api path ≠ envFail .notFound := by
  intro hnone
  rcases makeWindowsAbsolutePath_cases api path with ⟨form, h⟩ | ⟨error, h, hne⟩
  · rw [h] at hnone
    cases hnone
  · rw [h] at hnone
    cases hnone
    exact hne rfl

theorem firstOf_append (front back : List (List UInt16)) :
    firstOf api attributes (front ++ back) =
      match front.find? (isValidExecutableFile attributes) with
      | none => firstOf api attributes back
      | some path => makeWindowsAbsolutePath api path := by
  rw [firstOf, List.find?_append]
  cases front.find? (isValidExecutableFile attributes) <;> rfl

theorem firstOf_eq_notFound {paths : List (List UInt16)} :
    firstOf api attributes paths = envFail .notFound ↔
      ∀ path ∈ paths, isValidExecutableFile attributes path = false := by
  rw [firstOf]
  cases hfind : paths.find? (isValidExecutableFile attributes) with
  | none => simpa using hfind
  | some path =>
    refine iff_of_false (makeWindowsAbsolutePath_ne path) fun hnone => ?_
    have hvalid := List.find?_some hfind
    rw [hnone path (List.mem_of_find?_eq_some hfind)] at hvalid
    cases hvalid

/-- The files are tried in the order of the candidates. -/
theorem checkCandidateFileWithExtensions_eq (base : List UInt16) (hasExt : Bool)
    (extensions : List (List UInt16)) :
    checkCandidateFileWithExtensions api attributes base hasExt extensions =
      firstOf api attributes (withExtensions base hasExt extensions) := by
  have hmap : (extensions.map (base ++ ·)).find? (isValidExecutableFile attributes) =
      (extensions.find? fun ext => isValidExecutableFile attributes (base ++ ext)).map
        (base ++ ·) := by
    rw [List.find?_map]
    rfl
  rw [checkCandidateFileWithExtensions, withExtensions]
  cases hasExt with
  | true =>
    cases hbase : isValidExecutableFile attributes base <;>
      cases hext : extensions.find? fun ext => isValidExecutableFile attributes (base ++ ext) <;>
      simp [firstOf, hmap, hbase, hext]
  | false =>
    cases hbase : isValidExecutableFile attributes base <;>
      cases hext : extensions.find? fun ext => isValidExecutableFile attributes (base ++ ext) <;>
      simp [firstOf, List.find?_append, hmap, hbase, hext]

variable {wideName : List UInt16} {hasExt : Bool} {extensions : List (List UInt16)}

/-- The search ends with a file or with none. -/
theorem searchParts_cases (parts : List (List UInt16)) :
    (∃ form, searchParts api attributes wideName hasExt extensions parts = .ok form) ∨
      searchParts api attributes wideName hasExt extensions parts = envFail .notFound := by
  induction parts with
  | nil => exact .inr rfl
  | cons part parts ih =>
    rw [searchParts]
    simp only [checkCandidateFileWithExtensions_eq, firstOf]
    split_ifs
    · cases (withExtensions (candidateBase (unquote part) wideName) hasExt extensions).find?
        (isValidExecutableFile attributes) with
      | none => exact ih
      | some path =>
        rcases makeWindowsAbsolutePath_cases api path with ⟨form, h⟩ | ⟨error, h, -⟩
        · exact .inl ⟨form, by simp [h]⟩
        · simpa [h] using ih
    · exact ih

/-- Nothing is found if there is no file in any part. -/
theorem searchParts_eq_notFound {parts : List (List UInt16)}
    (h : ∀ part ∈ parts,
      ∀ path ∈ withExtensions (candidateBase (unquote part) wideName) hasExt extensions,
        isValidExecutableFile attributes path = false) :
    searchParts api attributes wideName hasExt extensions parts = envFail .notFound := by
  induction parts with
  | nil => rfl
  | cons part parts ih =>
    rw [List.forall_mem_cons] at h
    rw [searchParts, checkCandidateFileWithExtensions_eq, firstOf_eq_notFound.mpr h.1]
    simpa [envFail] using ih h.2

end Outcomes

section Names
variable {api : SearchApi} {attributes : List UInt16 → UInt32} {name : List Char}
  {pathext : Option (List UInt16)}

/-- An ASCII character is a byte of the text. -/
theorem mem_encodeScalars_of_mem {c : Char} {b : UInt8} (hb : b ∈ String.utf8EncodeChar c)
    (h : c ∈ name) : b ∈ encodeScalars name := by
  rw [encodeScalars_eq]
  exact List.mem_flatMap.mpr ⟨c, h, hb⟩

/-- A name without separators is searched for in PATH. -/
theorem findExecutable_eq (hne : name ≠ []) (hnul : Char.ofNat 0 ∉ name) (hslash : '/' ∉ name)
    (hbackslash : Char.ofNat 0x5C ∉ name) {path : List UInt16}
    (hpath : Reports api (wide "PATH") (some path))
    (hpathext : Reports api (wide "PATHEXT") pathext) :
    findExecutable api attributes (encodeScalars name) =
      searchParts api attributes (unitsOfScalars name) (name.contains '.') (extensionsOf pathext)
        (path.splitOn 0x3B) := by
  have hbytes : encodeScalars name ≠ [] := fun h => hne (encodeScalars_injective h)
  have hzero : (0 : UInt8) ∉ encodeScalars name :=
    fun h => hnul (mem_of_mem_encodeScalars (by decide) h)
  have hvalid : ValidUtf8 (encodeScalars name) := validUtf8_iff.mpr ⟨name, rfl⟩
  have hseparator : ∀ b ∈ encodeScalars name, isSeparator b = false := by
    intro b hb
    by_contra hsep
    rw [Bool.not_eq_false, isSeparator, decide_eq_true_eq] at hsep
    rcases hsep with rfl | rfl
    · exact hslash (mem_of_mem_encodeScalars (by decide) hb)
    · exact hbackslash (mem_of_mem_encodeScalars (by decide) hb)
  have hfilename : (encodeScalars name).rtakeWhile (fun c => !isSeparator c) = encodeScalars name := by
    rw [List.rtakeWhile_eq_self_iff]
    intro b hb
    rw [hseparator b hb]
    rfl
  have hany : (encodeScalars name).any isSeparator = false := by
    rw [List.any_eq_false]
    intro b hb
    rw [hseparator b hb]
    exact Bool.false_ne_true
  have hdot : (encodeScalars name).contains 0x2E = name.contains '.' := by
    rw [Bool.eq_iff_iff, List.contains_iff_mem, List.contains_iff_mem]
    exact ⟨mem_of_mem_encodeScalars (by decide), mem_encodeScalars_of_mem (by decide)⟩
  simp only [findExecutable, if_neg hbytes, if_neg hzero, isValidUtf8_eq, hvalid, lift_ok, ok_bind,
    decide_true, Bool.not_true, Bool.false_eq_true, if_false, utf8ToWide, utf8ToUtf16_scalars,
    hfilename, hany, hdot, getPathextExtensions_eq hpathext, readVariable_eq hpath,
    Option.filter_some]
  by_cases hnil : path = []
  · subst hnil
    simp [searchParts, unquote]
  · simp [hnil]

end Names

section Directories
variable {api : SearchApi} {attributes : List UInt16 → UInt32} {dir wideName : List UInt16}
  {hasExt : Bool} {extensions : List (List UInt16)}

theorem ListedDirectory.unquote_text (d : ListedDirectory) : unquote d.text = d.dir := by
  rw [ListedDirectory.text]
  split_ifs
  · have hlast : ([0x22] ++ d.dir ++ [0x22]).getLast? = some 0x22 := List.getLast?_concat
    rw [unquote, if_pos ⟨by simp, by simp, hlast⟩]
    simp
  · rw [unquote, if_neg]
    rintro ⟨-, hhead, -⟩
    exact d.no_quote (List.mem_of_head? hhead)

theorem ListedDirectory.mem_text {d : ListedDirectory} {c : UInt16} (h : c ∈ d.text) :
    c = 0x22 ∨ c ∈ d.dir := by
  rw [ListedDirectory.text] at h
  split_ifs at h
  · simpa [or_comm, or_left_comm] using h
  · exact .inr h

/-- PATH has no NUL. -/
theorem not_mem_pathOf (dirs : List ListedDirectory) : 0 ∉ pathOf dirs := by
  intro h
  rcases Lines.mem_intercalate h with h | ⟨text, htext, h⟩
  · cases h
  · obtain ⟨d, -, rfl⟩ := List.mem_map.mp htext
    rcases d.mem_text h with h | h
    · cases h
    · exact d.no_nul h

theorem mem_of_mem_unquote {part : List UInt16} {c : UInt16} (h : c ∈ unquote part) : c ∈ part := by
  rw [unquote] at h
  split_ifs at h
  · exact List.mem_of_mem_drop (List.dropLast_subset _ h)
  · exact h

/-- Directories without semicolons are the parts of PATH. -/
theorem splitOn_pathOf {dirs : List ListedDirectory} (hne : dirs ≠ [])
    (h : ∀ d ∈ dirs, 0x3B ∉ d.dir) : (pathOf dirs).splitOn 0x3B = dirs.map (·.text) := by
  refine List.splitOn_intercalate _ ?_ (by simpa using hne)
  intro text htext
  obtain ⟨d, hd, rfl⟩ := List.mem_map.mp htext
  intro hsemicolon
  rcases d.mem_text hsemicolon with hquote | hmem
  · cases hquote
  · exact h d hd hmem

theorem mem_withExtensions {base path : List UInt16} :
    path ∈ withExtensions base hasExt extensions ↔
      path = base ∨ ∃ extension ∈ extensions, path = base ++ extension := by
  rw [withExtensions]
  cases hasExt <;> simp [or_comm, eq_comm]

theorem count_candidateBase (dir wideName : List UInt16) :
    (candidateBase dir wideName).count 0x3B = dir.count 0x3B + wideName.count 0x3B := by
  rw [candidateBase]
  split_ifs <;> simp

/-- The semicolons of a candidate are those of the directory and of the name. -/
theorem count_candidate {path : List UInt16}
    (hextensions : ∀ extension ∈ extensions, 0x3B ∉ extension)
    (h : path ∈ withExtensions (candidateBase dir wideName) hasExt extensions) :
    path.count 0x3B = dir.count 0x3B + wideName.count 0x3B := by
  rcases mem_withExtensions.mp h with rfl | ⟨extension, hmem, rfl⟩
  · exact count_candidateBase dir wideName
  · rw [List.count_append, count_candidateBase,
      List.count_eq_zero_of_not_mem (hextensions extension hmem), Nat.add_zero]

/-- A candidate without NUL is passed as a whole. -/
theorem takeWhile_candidate {path : List UInt16} (hdir : 0 ∉ dir) (hname : 0 ∉ wideName)
    (hextensions : ∀ extension ∈ extensions, 0 ∉ extension)
    (h : path ∈ withExtensions (candidateBase dir wideName) hasExt extensions) :
    path.takeWhile (· ≠ 0) = path := by
  have hbase : 0 ∉ candidateBase dir wideName := by
    rw [candidateBase]
    split_ifs <;> simp [hdir, hname]
  apply takeWhile_of_not_mem
  intro hzero
  rcases mem_withExtensions.mp h with rfl | ⟨extension, hmem, rfl⟩
  · exact hbase hzero
  · rcases List.mem_append.mp hzero with hzero | hzero
    · exact hbase hzero
    · exact hextensions extension hmem hzero

/-- Attributes with one file only. -/
def onlyFile (path : List UInt16) (other : List UInt16) : UInt32 :=
  if other = path then 0x20 else 0xFFFFFFFF

theorem isValidExecutableFile_onlyFile (path other : List UInt16) :
    isValidExecutableFile (onlyFile path) other = true ↔ other.takeWhile (· ≠ 0) = path := by
  rw [isValidExecutableFile, onlyFile]
  generalize other.takeWhile (· ≠ 0) = passed
  by_cases h : passed = path
  · simp only [h, if_true, iff_true]
    decide
  · simp [h]

end Directories

section Listed
variable {api : SearchApi} {attributes : List UInt16 → UInt32} {dirs : List ListedDirectory}
  {name : List Char} {pathext : Option (List UInt16)}

/-- The directories are searched one after the other, if all files can be reported. -/
theorem searchParts_text (h : ∀ path ∈ candidates (dirs.map (·.dir)) name (extensionsOf pathext),
    ∃ form, makeWindowsAbsolutePath api path = .ok form) :
    searchParts api attributes (unitsOfScalars name) (name.contains '.') (extensionsOf pathext)
        (dirs.map (·.text)) =
      firstOf api attributes (candidates (dirs.map (·.dir)) name (extensionsOf pathext)) := by
  induction dirs with
  | nil => rfl
  | cons d dirs ih =>
    rw [List.map_cons, candidates, List.flatMap_cons, ← candidates] at h
    rw [List.forall_mem_append] at h
    rw [List.map_cons, List.map_cons, candidates, List.flatMap_cons, ← candidates, firstOf_append,
      searchParts, d.unquote_text]
    simp only [if_pos d.ne_nil, checkCandidateFileWithExtensions_eq, firstOf]
    cases hfind : (withExtensions (candidateBase d.dir (unitsOfScalars name)) (name.contains '.')
      (extensionsOf pathext)).find? (isValidExecutableFile attributes) with
    | none => exact ih h.2
    | some path =>
      obtain ⟨form, hform⟩ := h.1 path (List.mem_of_find?_eq_some hfind)
      simp [hform]

/-- With one file only, its absolute form is that of the first candidate there is. -/
theorem firstOf_onlyFile {paths : List (List UInt16)} {path : List UInt16} (h : path ∈ paths) :
    firstOf api (onlyFile (path.takeWhile (· ≠ 0))) paths = makeWindowsAbsolutePath api path := by
  rw [firstOf]
  cases hfind : paths.find? (isValidExecutableFile (onlyFile (path.takeWhile (· ≠ 0)))) with
  | none =>
    rw [List.find?_eq_none] at hfind
    exact absurd ((isValidExecutableFile_onlyFile _ path).mpr rfl) (hfind path h)
  | some other =>
    have hother := (isValidExecutableFile_onlyFile _ other).mp (List.find?_some hfind)
    simp only [makeWindowsAbsolutePath, hother]

/-- A file in a directory with a semicolon is not found. -/
theorem findExecutable_of_semicolon (hne : name ≠ []) (hnul : Char.ofNat 0 ∉ name)
    (hslash : '/' ∉ name) (hbackslash : Char.ofNat 0x5C ∉ name)
    (hpath : Reports api (wide "PATH") (some (pathOf dirs)))
    (hpathext : Reports api (wide "PATHEXT") pathext) {d : ListedDirectory}
    (hsemicolon : 0x3B ∈ d.dir) {file : List UInt16}
    (hfile : file ∈ withExtensions (candidateBase d.dir (unitsOfScalars name))
      (name.contains '.') (extensionsOf pathext)) :
    findExecutable api (onlyFile file) (encodeScalars name) = envFail .notFound := by
  have hextensions := fun extension hmem =>
    @not_mem_of_mem_extensionsOf api pathext hpathext extension hmem
  have hunits : 0 ∉ unitsOfScalars name := fun h => hnul (mem_of_mem_unitsOfScalars (by decide) h)
  rw [findExecutable_eq hne hnul hslash hbackslash hpath hpathext]
  refine searchParts_eq_notFound fun part hpart path hcandidate => ?_
  obtain ⟨hpartSemicolon, hpartPath⟩ := of_mem_splitOn hpart
  have hdirSemicolon : 0x3B ∉ unquote part := fun h => hpartSemicolon (mem_of_mem_unquote h)
  have hdirNul : 0 ∉ unquote part :=
    fun h => not_mem_pathOf dirs (hpartPath 0 (mem_of_mem_unquote h))
  -- the path has the semicolons of the name, and the file has one more
  have hcount := count_candidate (fun e he => (hextensions e he).1) hcandidate
  have hfileCount := count_candidate (fun e he => (hextensions e he).1) hfile
  have hpositive : 0 < d.dir.count 0x3B := List.count_pos_iff.mpr hsemicolon
  rw [List.count_eq_zero_of_not_mem hdirSemicolon] at hcount
  rw [Bool.eq_false_iff, ne_eq, isValidExecutableFile_onlyFile,
    takeWhile_candidate hdirNul hunits (fun e he => (hextensions e he).2) hcandidate]
  rintro rfl
  omega

end Listed

section System

/-- A native function that fills a buffer with a text, or asks for one that is large enough. -/
def fill (text : List UInt16) (size : UInt32) : NativeCall :=
  if text.length < size.toNat then ⟨UInt32.ofNat text.length, text ++ [0], errorSuccess⟩
  else ⟨UInt32.ofNat (text.length + 1), [], errorSuccess⟩

/-- A system with a value of PATH, without PATHEXT, and where every path is absolute. -/
def systemWith (path : List UInt16) : SearchApi where
  getEnvironmentVariable name size :=
    if name = wide "PATH" then fill path size else ⟨0, [], errorEnvvarNotFound⟩
  getEnvironmentStrings := .ok []
  getFullPathName := fill

variable {path : List UInt16}

theorem reports_path (hlength : path.length + 1 < 2 ^ 32) (hnul : 0 ∉ path) :
    Reports (systemWith path) (wide "PATH") (some path) := by
  have hcall (size : UInt32) :
      (systemWith path).getEnvironmentVariable (wide "PATH") size = fill path size := by
    simp [systemWith]
  refine ⟨?_, ?_, ?_, ?_⟩
  · rintro _ ⟨⟩
    rw [hcall, fill, if_neg (by simp)]
    exact UInt32.toNat_ofNat_of_lt' hlength
  · rintro _ ⟨⟩ size hsize
    rw [hcall, fill, if_pos hsize]
    exact ⟨UInt32.toNat_ofNat_of_lt' (lt_trans (Nat.lt_succ_self _) hlength), List.take_left⟩
  · intro hnone
    cases hnone
  · rintro _ ⟨⟩
    exact hnul

theorem reports_pathext : Reports (systemWith path) (wide "PATHEXT") none := by
  have hother : ¬ wide "PATHEXT" = wide "PATH" := by decide
  refine ⟨?_, ?_, fun _ => by simp [systemWith, hother], ?_⟩ <;> intro text h <;> cases h

/-- A path is its own absolute form. -/
theorem makeWindowsAbsolutePath_systemWith {cs : List Char} (hne : unitsOfScalars cs ≠ [])
    (hnul : 0 ∉ unitsOfScalars cs) (hlength : (unitsOfScalars cs).length < 260) :
    makeWindowsAbsolutePath (systemWith path) (unitsOfScalars cs) =
      .ok (normalizeDirectoryPath (encodeScalars cs)) := by
  have hwhole : (unitsOfScalars cs).takeWhile (· ≠ 0) = unitsOfScalars cs :=
    takeWhile_of_not_mem hnul
  have hcall : (systemWith path).getFullPathName (unitsOfScalars cs) (UInt32.ofNat 260) =
      ⟨UInt32.ofNat (unitsOfScalars cs).length, unitsOfScalars cs ++ [0], errorSuccess⟩ :=
    if_pos hlength
  have hcopied : (UInt32.ofNat (unitsOfScalars cs).length).toNat = (unitsOfScalars cs).length :=
    UInt32.toNat_ofNat_of_lt' (lt_trans hlength (by decide))
  have hzero : UInt32.ofNat (unitsOfScalars cs).length ≠ 0 := by
    rw [ne_eq, ← UInt32.toNat_inj, hcopied]
    exact fun h => hne (List.length_eq_zero_iff.mp h)
  rw [makeWindowsAbsolutePath, hwhole, fullPathLoop, hcall]
  simp only [if_neg hzero, hcopied, if_pos hlength, List.take_left, utf16ToUtf8_scalars]
  rfl

end System

/-- A search that finds nothing has a name without NUL that is not empty. -/
theorem name_of_findExecutable {api : SearchApi} {attributes : List UInt16 → UInt32}
    {name : List Char}
    (h : findExecutable api attributes (encodeScalars name) = envFail .notFound) :
    name ≠ [] ∧ Char.ofNat 0 ∉ name := by
  constructor
  · rintro rfl
    cases h
  · intro hmem
    have hbytes : encodeScalars name ≠ [] := by
      rintro hnil
      rw [encodeScalars_injective (show encodeScalars name = encodeScalars [] from hnil)] at hmem
      cases hmem
    rw [findExecutable, if_neg hbytes,
      if_pos (mem_encodeScalars_of_mem (by decide) hmem)] at h
    cases h

theorem find_executable_honours_path {api : SearchApi} {dirs : List ListedDirectory}
    {pathext : Option (List UInt16)} {name : List Char}
    (hseparator : '/' ∉ name ∧ Char.ofNat 0x5C ∉ name)
    (hpath : Reports api (wide "PATH") (some (pathOf dirs)))
    (hpathext : Reports api (wide "PATHEXT") pathext) :
    (∀ attributes,
      findExecutable api attributes (encodeScalars name) =
        firstOf api attributes (candidates (dirs.map (·.dir)) name (extensionsOf pathext)) ∧
      (findExecutable api attributes (encodeScalars name) = envFail .notFound ↔
        ∀ path ∈ candidates (dirs.map (·.dir)) name (extensionsOf pathext),
          isValidExecutableFile attributes path = false)) ↔
      name ≠ [] ∧ Char.ofNat 0 ∉ name ∧ (∀ d ∈ dirs, 0x3B ∉ d.dir) ∧
        ∀ path ∈ candidates (dirs.map (·.dir)) name (extensionsOf pathext),
          ∃ form, makeWindowsAbsolutePath api path = .ok form := by
  constructor
  · intro h
    have hname : name ≠ [] ∧ Char.ofNat 0 ∉ name :=
      name_of_findExecutable ((h fun _ => 0xFFFFFFFF).2.mpr fun _ _ => rfl)
    have hforms : ∀ path ∈ candidates (dirs.map (·.dir)) name (extensionsOf pathext),
        ∃ form, makeWindowsAbsolutePath api path = .ok form := by
      intro path hmem
      have heq := (h (onlyFile (path.takeWhile (· ≠ 0)))).1
      rw [firstOf_onlyFile hmem,
        findExecutable_eq hname.1 hname.2 hseparator.1 hseparator.2 hpath hpathext] at heq
      rw [← heq]
      rcases searchParts_cases ((pathOf dirs).splitOn 0x3B) with hok | hnone
      · exact hok
      · rw [hnone] at heq
        exact absurd heq.symm (makeWindowsAbsolutePath_ne path)
    refine ⟨hname.1, hname.2, fun d hd hsemicolon => ?_, hforms⟩
    have hfile : candidateBase d.dir (unitsOfScalars name) ∈ withExtensions
        (candidateBase d.dir (unitsOfScalars name)) (name.contains '.') (extensionsOf pathext) :=
      mem_withExtensions.mpr (.inl rfl)
    have hwhole := takeWhile_candidate d.no_nul
      (fun h => hname.2 (mem_of_mem_unitsOfScalars (by decide) h))
      (fun extension hmem => (not_mem_of_mem_extensionsOf hpathext hmem).2) hfile
    have heq := (h (onlyFile ((candidateBase d.dir (unitsOfScalars name)).takeWhile (· ≠ 0)))).1
    have hlisted : candidateBase d.dir (unitsOfScalars name) ∈
        candidates (dirs.map (·.dir)) name (extensionsOf pathext) :=
      List.mem_flatMap.mpr ⟨d.dir, List.mem_map_of_mem hd, hfile⟩
    rw [firstOf_onlyFile hlisted, hwhole, findExecutable_of_semicolon hname.1 hname.2 hseparator.1
      hseparator.2 hpath hpathext hsemicolon hfile] at heq
    exact makeWindowsAbsolutePath_ne _ heq.symm
  · rintro ⟨hne, hnul, hdirs, hforms⟩ attributes
    have heq : findExecutable api attributes (encodeScalars name) =
        firstOf api attributes (candidates (dirs.map (·.dir)) name (extensionsOf pathext)) := by
      rw [findExecutable_eq hne hnul hseparator.1 hseparator.2 hpath hpathext,
        ← searchParts_text hforms]
      cases dirs with
      | nil => simp [pathOf, searchParts, unquote]
      | cons d dirs => rw [splitOn_pathOf (List.cons_ne_nil d dirs) hdirs]
    exact ⟨heq, by rw [heq, firstOf_eq_notFound]⟩

/-- A quoted directory. -/
def quotedDirectory (s : String) (hne : wide s ≠ []) (hquote : 0x22 ∉ wide s)
    (hnul : 0 ∉ wide s) : ListedDirectory := ⟨wide s, true, hne, hquote, hnul, fun _ => rfl⟩

/-- A directory as it is, and a quoted one behind it. -/
def goDirectories : List ListedDirectory :=
  [⟨wide "D:\\tools", false, by decide, by decide, by decide, by decide⟩,
    quotedDirectory "C:\\Go lang" (by decide) (by decide) (by decide)]

/-- What is looked for, in order. -/
def goCandidates : List String :=
  ["D:\\tools\\go.COM", "D:\\tools\\go.EXE", "D:\\tools\\go.BAT", "D:\\tools\\go.CMD",
    "D:\\tools\\go", "C:\\Go lang\\go.COM", "C:\\Go lang\\go.EXE", "C:\\Go lang\\go.BAT",
    "C:\\Go lang\\go.CMD", "C:\\Go lang\\go"]

/-- A file with an extension in the second directory is found. -/
theorem find_executable_honours_path_go :
    findExecutable (systemWith (pathOf goDirectories)) (onlyFile (wide "C:\\Go lang\\go.EXE"))
      (encodeScalars ['g', 'o']) = .ok (encodeScalars "C:\\Go lang\\go.EXE".toList) := by
  have hcandidates : candidates (goDirectories.map (·.dir)) ['g', 'o'] (extensionsOf none) =
      goCandidates.map fun s => unitsOfScalars s.toList := by decide +kernel
  have hall : ∀ s ∈ goCandidates, unitsOfScalars s.toList ≠ [] ∧ 0 ∉ unitsOfScalars s.toList ∧
      (unitsOfScalars s.toList).length < 260 := by decide +kernel
  have hforms : ∀ path ∈ candidates (goDirectories.map (·.dir)) ['g', 'o'] (extensionsOf none),
      ∃ form, makeWindowsAbsolutePath (systemWith (pathOf goDirectories)) path = .ok form := by
    rw [hcandidates]
    intro path hpath
    obtain ⟨s, hs, rfl⟩ := List.mem_map.mp hpath
    obtain ⟨hne, hnul, hlength⟩ := hall s hs
    exact ⟨_, makeWindowsAbsolutePath_systemWith hne hnul hlength⟩
  rw [((find_executable_honours_path (by decide) (reports_path (by decide) (by decide))
    reports_pathext).mpr ⟨by decide, by decide, by decide, hforms⟩ _).1]
  -- the file is the only one there is
  have hwhole : (wide "C:\\Go lang\\go.EXE").takeWhile (· ≠ 0) = wide "C:\\Go lang\\go.EXE" := by
    decide
  have hfirst : firstOf (systemWith (pathOf goDirectories))
      (onlyFile ((wide "C:\\Go lang\\go.EXE").takeWhile (· ≠ 0)))
      (candidates (goDirectories.map (·.dir)) ['g', 'o'] (extensionsOf none)) =
        makeWindowsAbsolutePath (systemWith (pathOf goDirectories)) (wide "C:\\Go lang\\go.EXE") :=
    firstOf_onlyFile (by decide +kernel)
  have hunits : wide "C:\\Go lang\\go.EXE" = unitsOfScalars "C:\\Go lang\\go.EXE".toList := by
    decide
  rw [hwhole, hunits, makeWindowsAbsolutePath_systemWith (by decide) (by decide) (by decide)] at hfirst
  rw [hunits, hfirst]
  decide +kernel

/-- A file in a quoted directory with a semicolon is not found. -/
theorem quoted_semicolon_not_found :
    ∃ dirs : List ListedDirectory, ∃ api attributes name,
      Reports api (wide "PATH") (some (pathOf dirs)) ∧ Reports api (wide "PATHEXT") none ∧
      '/' ∉ name ∧ Char.ofNat 0x5C ∉ name ∧
      findExecutable api attributes (encodeScalars name) = envFail .notFound ∧
      ∃ form, firstOf api attributes (candidates (dirs.map (·.dir)) name (extensionsOf none)) =
        .ok form := by
  let d := quotedDirectory "C:\\a;b" (by decide) (by decide) (by decide)
  have hpath : Reports (systemWith (pathOf [d])) (wide "PATH") (some (pathOf [d])) :=
    reports_path (by decide) (by decide)
  have hsemicolon : 0x3B ∈ d.dir := by decide
  have hfile : wide "C:\\a;b\\tool" ∈ candidates [d.dir] "tool".toList (extensionsOf none) := by decide
  have hunits : wide "C:\\a;b\\tool" = unitsOfScalars "C:\\a;b\\tool".toList := by decide
  have hwhole : (wide "C:\\a;b\\tool").takeWhile (· ≠ 0) = wide "C:\\a;b\\tool" := by decide
  refine ⟨[d], systemWith (pathOf [d]), onlyFile (wide "C:\\a;b\\tool"), "tool".toList, hpath,
    reports_pathext, by decide, by decide, ?_,
    normalizeDirectoryPath (encodeScalars "C:\\a;b\\tool".toList), ?_⟩
  · exact findExecutable_of_semicolon (by decide) (by decide) (by decide) (by decide) hpath
      reports_pathext hsemicolon (by decide)
  · have hfirst : firstOf (systemWith (pathOf [d]))
        (onlyFile ((wide "C:\\a;b\\tool").takeWhile (· ≠ 0)))
        (candidates [d.dir] "tool".toList (extensionsOf none)) =
          makeWindowsAbsolutePath (systemWith (pathOf [d])) (wide "C:\\a;b\\tool") :=
      firstOf_onlyFile hfile
    rw [hwhole] at hfirst
    rw [List.map_cons, List.map_nil, hfirst, hunits]
    exact makeWindowsAbsolutePath_systemWith (by decide) (by decide) (by decide)

end Syscape.Environment.Windows
