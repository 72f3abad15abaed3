import Syscape.Environment
import Syscape.LinuxFile
import Syscape.Lib.LexicalPaths

/-!
# Executables on POSIX systems

A name without slashes is looked for in the directories of PATH, and the file that is found
is reported by an absolute path in normal form: the names of the path without single dots,
each behind one slash. A file in a relative directory is found below the working directory.
-/
namespace Syscape.Environment.Posix
open Checked Text Utf8 Paths LexicalPaths LinuxFile

section Normalization

/-- What the process sees of its system: `st_mode` of a file, if `stat` succeeds, whether
`access` grants to execute it, the reply of `getcwd`, and the variables. -/
structure PosixSystem where
  stat : List UInt8 → Option UInt32
  access : List UInt8 → Bool
  getcwd : Except ℤ (List UInt8)
  environ : List (List UInt8)

/-- `normalize_directory_path`. -/
def normalizeDirectoryPath (path : List UInt8) : List UInt8 :=
  if path.length > 1 ∧ path.getLast? = some 0x2F then normalizeDirectoryPath path.dropLast
  else path
termination_by path.length

/-- `current_working_directory`. -/
def currentWorkingDirectory (system : PosixSystem) : Result (List UInt8) :=
  match system.getcwd with
  | .error errno => failErrno errno
  | .ok cwd =>
    if cwd = [] then fail .malformedData
    else do
      let valid ← isValidUtf8 cwd
      if valid then .ok (normalizeDirectoryPath cwd) else fail .invalidEncoding

/-- The inner loop: the last slash of a run. -/
def skipSlashes (path : List UInt8) (i : ℕ) : ℕ :=
  if path[i + 1]? = some 0x2F then skipSlashes path (i + 1) else i
termination_by path.length - i
decreasing_by
  have := (List.getElem?_eq_some_iff.mp ‹path[i + 1]? = some 0x2F›).1
  omega

theorem le_skipSlashes (path : List UInt8) (i : ℕ) : i ≤ skipSlashes path i := by
  fun_induction skipSlashes path i with
  | case1 i h ih => omega
  | case2 i h => exact le_rfl

/-- The loop that collapses slashes and `/./`. -/
def collapse (path : List UInt8) (i : ℕ) (normalized : List UInt8) : List UInt8 :=
  if h : i < path.length then
    if path[i] = 0x2F then
      let j := skipSlashes path i
      if path[j + 1]? = some 0x2E ∧ path[j + 2]? = some 0x2F then collapse path (j + 2) normalized
      else if j + 2 = path.length ∧ path[j + 1]? = some 0x2E then normalized
      else collapse path (j + 1) (normalized ++ [0x2F])
    else collapse path (i + 1) (normalized ++ [path[i]])
  else normalized
termination_by path.length - i
decreasing_by
  all_goals
    have := le_skipSlashes path i
    omega

/-- The last step: no slash at the end, except for the root. -/
def trimSlash (normalized : List UInt8) : List UInt8 :=
  if normalized = [] then ascii "/"
  else if normalized.length > 1 ∧ normalized.getLast? = some 0x2F then normalized.dropLast
  else normalized

/-- `make_absolute_normalized_path`. -/
def makeAbsoluteNormalizedPath (system : PosixSystem) (path : List UInt8) :
    Result (List UInt8) := do
  if path = [] then fail .invalidArgument
  else
    let path ←
      if path.head? ≠ some 0x2F then do
        let cwd ← currentWorkingDirectory system
        .ok (joinPath cwd path)
      else .ok path
    .ok (trimSlash (collapse path 0 []))

end Normalization

section Search

/-- `is_executable_file`; a path is passed as a string that ends at the first NUL. -/
def isExecutableFile (system : PosixSystem) (path : List UInt8) : Bool :=
  match system.stat (path.takeWhile (· ≠ 0)) with
  | none => false
  | some mode => mode &&& 0xF000 = 0x8000 ∧ system.access (path.takeWhile (· ≠ 0))

/-- The file to look for in a directory of PATH. -/
def candidateIn (name dir : List UInt8) : List UInt8 :=
  if dir = [] then name else joinPath dir name

/-- The loop over the directories of PATH. -/
def searchPath (system : PosixSystem) (name : List UInt8) : List (List UInt8) →
    Result (List UInt8)
  | [] => fail .notFound
  | dir :: dirs =>
    let candidate := candidateIn name dir
    if isExecutableFile system candidate then do
      let valid ← isValidUtf8 candidate
      if !valid then fail .invalidEncoding else makeAbsoluteNormalizedPath system candidate
    else searchPath system name dirs

/-- `find_executable`. -/
def findExecutable (system : PosixSystem) (name : List UInt8) : Result (List UInt8) :=
  if name = [] then fail .invalidArgument
  else if 0 ∈ name then fail .invalidArgument
  else do
    let valid ← isValidUtf8 name
    if !valid then fail .invalidEncoding
    else if 0x2F ∈ name then
      if isExecutableFile system name then makeAbsoluteNormalizedPath system name
      else fail .notFound
    else
      match getenv system.environ (ascii "PATH") with
      | none => fail .notFound
      | some path => searchPath system name (path.splitOn 0x3A)

end Search

section Collapse
variable {front text : List UInt8}

/-- The slash in front of something else is the last one of its run. -/
theorem skipSlashes_eq_self (h : text.head? ≠ some 0x2F) :
    skipSlashes (front ++ 0x2F :: text) front.length = front.length := by
  rw [skipSlashes, if_neg]
  rw [List.getElem?_append_right (by omega)]
  simpa [List.head?_eq_getElem?] using h

theorem collapse_end (normalized : List UInt8) :
    collapse (front ++ [0x2F]) front.length normalized = normalized ++ [0x2F] := by
  rw [collapse, dif_pos (by simp), if_pos (by simp), skipSlashes_eq_self (by simp)]
  simp [collapse]

/-- The slash in front of another one is passed over. -/
theorem collapse_slash (normalized : List UInt8) :
    collapse (front ++ 0x2F :: 0x2F :: text) front.length normalized =
      collapse (front ++ 0x2F :: 0x2F :: text) (front.length + 1) normalized := by
  have hskip : skipSlashes (front ++ 0x2F :: 0x2F :: text) front.length =
      skipSlashes (front ++ 0x2F :: 0x2F :: text) (front.length + 1) := by
    rw [skipSlashes, if_pos (by simp)]
  rw [collapse, dif_pos (by simp), if_pos (by simp), hskip]
  conv_rhs => rw [collapse, dif_pos (by simp), if_pos (by simp)]

/-- A single dot is passed over. -/
theorem collapse_dot (normalized : List UInt8) :
    collapse (front ++ 0x2F :: 0x2E :: 0x2F :: text) front.length normalized =
      collapse (front ++ 0x2F :: 0x2E :: 0x2F :: text) (front.length + 2) normalized := by
  rw [collapse, dif_pos (by simp), if_pos (by simp), skipSlashes_eq_self (by simp)]
  simp

theorem collapse_dot_end (normalized : List UInt8) :
    collapse (front ++ [0x2F, 0x2E]) front.length normalized = normalized := by
  rw [collapse, dif_pos (by simp), if_pos (by simp), skipSlashes_eq_self (by simp)]
  simp

/-- A name is copied. -/
theorem collapse_name {name : List UInt8} (hname : 0x2F ∉ name) (normalized : List UInt8) :
    collapse (front ++ (name ++ text)) front.length normalized =
      collapse (front ++ (name ++ text)) (front.length + name.length) (normalized ++ name) := by
  induction name generalizing front normalized with
  | nil => simp
  | cons c name ih =>
    rw [List.mem_cons, not_or] at hname
    have hmore := @ih (front ++ [c]) hname.2 (normalized ++ [c])
    have hpath : front ++ [c] ++ (name ++ text) = front ++ (c :: name ++ text) := by simp
    have hnormalized : normalized ++ [c] ++ name = normalized ++ c :: name := by simp
    have hlength : (front ++ [c]).length + name.length = front.length + (c :: name).length := by
      simp
      omega
    rw [hpath, hnormalized, hlength, List.length_append, List.length_singleton] at hmore
    have hget (h : front.length < (front ++ (c :: name ++ text)).length) :
        (front ++ (c :: name ++ text))[front.length] = c := by simp
    rw [collapse, dif_pos (by simp), hget, if_neg (Ne.symm hname.1), hmore]

/-- What follows a slash and is no dot is copied with it. -/
theorem collapse_component {name : List UInt8} (hname : IsName 0x2F name) (hdot : name ≠ [0x2E])
    (normalized : List UInt8) :
    collapse (front ++ 0x2F :: (name ++ text)) front.length normalized =
      collapse (front ++ 0x2F :: (name ++ text)) (front.length + (name.length + 1))
        (normalized ++ 0x2F :: name) := by
  have hhead : (name ++ text).head? ≠ some 0x2F := by
    cases name with
    | nil => exact absurd rfl hname.1
    | cons c name => simpa using (List.ne_of_not_mem_cons hname.2).symm
  have hone : (front ++ 0x2F :: (name ++ text))[front.length + 1]? = (name ++ text)[0]? := by
    rw [List.getElem?_append_right (by omega)]
    simp
  have htwo : (front ++ 0x2F :: (name ++ text))[front.length + 2]? = (name ++ text)[1]? := by
    rw [List.getElem?_append_right (by omega)]
    simp
  have hstart : ¬ ((name ++ text)[0]? = some 0x2E ∧ (name ++ text)[1]? = some 0x2F) := by
    rintro ⟨h0, h1⟩
    match name, hname, hdot with
    | [c], _, hdot => exact hdot (by simpa using h0)
    | _ :: d :: _, hname, _ =>
      simp only [List.cons_append, List.getElem?_cons_succ, List.getElem?_cons_zero,
        Option.some.injEq] at h1
      exact hname.2 (by simp [h1])
  have hend : ¬ (front.length + 2 = (front ++ 0x2F :: (name ++ text)).length ∧
      (name ++ text)[0]? = some 0x2E) := by
    rintro ⟨hlength, h0⟩
    simp only [List.length_append, List.length_cons] at hlength
    match name, hname, hdot with
    | [c], _, hdot => exact hdot (by simpa using h0)
    | _ :: _ :: _, _, _ =>
      simp only [List.length_cons] at hlength
      omega
  rw [collapse, dif_pos (by simp), if_pos (by simp), skipSlashes_eq_self hhead]
  simp only [hone, htwo]
  rw [if_neg hstart, if_neg hend]
  have hcopy := @collapse_name (front ++ [0x2F]) text name hname.2 (normalized ++ [0x2F])
  simp only [List.append_assoc, List.singleton_append, List.length_append,
    List.length_singleton] at hcopy
  rw [hcopy]
  congr 1
  omega

/-- The parts behind slashes: empty ones and dots are left out, and a slash may be left over. -/
theorem collapse_parts {parts : List (List UInt8)} (h : ∀ part ∈ parts, 0x2F ∉ part)
    (normalized : List UInt8) :
    ∃ tail, (tail = [] ∨ tail = [0x2F]) ∧
      collapse (front ++ parts.flatMap (0x2F :: ·)) front.length normalized =
        normalized ++ ((parts.filter (· ≠ [])).filter (· ≠ [0x2E])).flatMap (0x2F :: ·) ++ tail := by
  induction parts generalizing front normalized with
  | nil => exact ⟨[], .inl rfl, by simp [collapse]⟩
  | cons part parts ih =>
    rw [List.forall_mem_cons] at h
    by_cases hempty : part = []
    · subst hempty
      cases parts with
      | nil => exact ⟨[0x2F], .inr rfl, by simpa using collapse_end normalized⟩
      | cons next parts =>
        obtain ⟨tail, htail, hmore⟩ := @ih (front ++ [0x2F]) h.2 normalized
        refine ⟨tail, htail, ?_⟩
        simp only [List.flatMap_cons, List.cons_append, List.nil_append, List.append_assoc,
          List.length_append, List.length_singleton] at hmore ⊢
        rw [collapse_slash, hmore]
        simp
    · by_cases hdot : part = [0x2E]
      · subst hdot
        cases parts with
        | nil => exact ⟨[], .inl rfl, by simpa using collapse_dot_end normalized⟩
        | cons next parts =>
          obtain ⟨tail, htail, hmore⟩ := @ih (front ++ [0x2F, 0x2E]) h.2 normalized
          refine ⟨tail, htail, ?_⟩
          simp only [List.flatMap_cons, List.cons_append, List.nil_append, List.append_assoc,
            List.length_append, List.length_cons, List.length_nil] at hmore ⊢
          rw [collapse_dot, hmore]
          simp
      · obtain ⟨tail, htail, hmore⟩ := @ih (front ++ 0x2F :: part) h.2 (normalized ++ 0x2F :: part)
        refine ⟨tail, htail, ?_⟩
        have hcopy := @collapse_component front (parts.flatMap (0x2F :: ·)) part ⟨hempty, h.1⟩ hdot normalized
        simp only [List.append_assoc, List.cons_append, List.length_append,
          List.length_cons] at hmore
        rw [List.flatMap_cons, List.cons_append, hcopy, hmore]
        simp [hempty, hdot]

/-- A slash that is left over is taken away. -/
theorem trimSlash_append {kept : List (List UInt8)} (hkept : ∀ name ∈ kept, IsName 0x2F name)
    {tail : List UInt8} (htail : tail = [] ∨ tail = [0x2F]) :
    trimSlash (kept.flatMap (0x2F :: ·) ++ tail) = absolute 0x2F kept := by
  have hroot : ascii "/" = [0x2F] := by decide
  by_cases hnil : kept = []
  · subst hnil
    rcases htail with rfl | rfl
    · rw [trimSlash, if_pos (by simp), hroot]
      rfl
    · rw [trimSlash, if_neg (by simp), if_neg (by simp)]
      rfl
  · have hne : kept.flatMap (0x2F :: ·) ≠ [] := by
      obtain ⟨name, more, rfl⟩ := List.exists_cons_of_ne_nil hnil
      simp
    have hpath : absolute 0x2F kept = kept.flatMap (0x2F :: ·) := if_neg hnil
    rcases htail with rfl | rfl
    · rw [List.append_nil, trimSlash, if_neg hne, if_neg, hpath]
      rintro ⟨-, hlast⟩
      rw [← hpath] at hlast
      exact hnil (eq_nil_of_getLast?_absolute hkept hlast)
    · have hlength : 0 < (kept.flatMap (0x2F :: ·)).length := List.length_pos_iff.mpr hne
      rw [trimSlash, if_neg (by simp), if_pos, List.dropLast_concat, hpath]
      rw [List.length_append, List.length_singleton, List.getLast?_concat]
      exact ⟨by omega, rfl⟩

/-- The two steps give the normal form of an absolute path. -/
theorem trimSlash_collapse {path : List UInt8} (h : path.head? = some 0x2F) :
    trimSlash (collapse path 0 []) = normalForm 0x2F 0x2E path := by
  obtain ⟨first, parts, hfirst, hparts, rfl⟩ := exists_names 0x2F path
  have hnil : first = [] := by
    cases first with
    | nil => rfl
    | cons c first =>
      simp only [List.cons_append, List.head?_cons, Option.some.injEq] at h
      exact absurd h.symm (List.ne_of_not_mem_cons hfirst)
  subst hnil
  obtain ⟨tail, htail, hcollapse⟩ := @collapse_parts [] parts hparts []
  simp only [List.nil_append, List.length_nil] at hcollapse ⊢
  rw [normalForm, names_parts hparts, hcollapse, trimSlash_append ?_ htail]
  intro name hname
  rw [List.mem_filter, List.mem_filter] at hname
  exact ⟨by simpa using hname.1.2, hparts name hname.1.1⟩

end Collapse

section Directory

/-- `make_absolute_normalized_path` on an absolute path. -/
theorem makeAbsoluteNormalizedPath_absolute (system : PosixSystem) {path : List UInt8}
    (h : path.head? = some 0x2F) :
    makeAbsoluteNormalizedPath system path = .ok (normalForm 0x2F 0x2E path) := by
  have hne : path ≠ [] := by
    rintro rfl
    cases h
  rw [makeAbsoluteNormalizedPath, if_neg hne, if_neg (by simpa using h), ok_bind]
  exact congrArg Except.ok (trimSlash_collapse h)

theorem head?_joinPath {dir name : List UInt8} (h : dir.head? = some 0x2F) :
    (joinPath dir name).head? = some 0x2F := by
  cases dir with
  | nil => cases h
  | cons c dir =>
    rw [joinPath]
    split_ifs <;> simpa using h

/-- `make_absolute_normalized_path` on a relative path. -/
theorem makeAbsoluteNormalizedPath_relative {system : PosixSystem} {path cwd : List UInt8}
    (hne : path ≠ []) (h : path.head? ≠ some 0x2F)
    (hcwd : currentWorkingDirectory system = .ok cwd) (hroot : cwd.head? = some 0x2F) :
    makeAbsoluteNormalizedPath system path = .ok (normalForm 0x2F 0x2E (joinPath cwd path)) := by
  rw [makeAbsoluteNormalizedPath, if_neg hne, if_pos h, hcwd, ok_bind, ok_bind]
  exact congrArg Except.ok (trimSlash_collapse (head?_joinPath hroot))

theorem makeAbsoluteNormalizedPath_error {system : PosixSystem} {path : List UInt8}
    {error : Fault ErrorCode} (hne : path ≠ []) (h : path.head? ≠ some 0x2F)
    (hcwd : currentWorkingDirectory system = .error error) :
    makeAbsoluteNormalizedPath system path = .error error := by
  rw [makeAbsoluteNormalizedPath, if_neg hne, if_pos h, hcwd]
  rfl

/-- The working directory is never reported as not found. -/
theorem currentWorkingDirectory_ne (system : PosixSystem) :
    currentWorkingDirectory system ≠ fail .notFound := by
  rw [currentWorkingDirectory]
  cases system.getcwd with
  | error errno => simp [failErrno, fail]
  | ok cwd =>
    simp only [isValidUtf8_eq, ok_bind]
    split_ifs <;> simp [fail]

theorem makeAbsoluteNormalizedPath_ne (system : PosixSystem) (path : List UInt8) :
    makeAbsoluteNormalizedPath system path ≠ fail .notFound := by
  have hcwd := currentWorkingDirectory_ne system
  rw [makeAbsoluteNormalizedPath]
  by_cases hne : path = []
  · simp [hne, fail]
  · rw [if_neg hne]
    split_ifs with habsolute
    · cases h : currentWorkingDirectory system with
      | error e =>
        rw [h] at hcwd
        exact hcwd
      | ok cwd => simp [fail]
    · simp [fail]

end Directory

section Candidates
variable {system : PosixSystem} {name : List UInt8}

/-- The files to look for, in the order of PATH. -/
def candidates (system : PosixSystem) (name : List UInt8) : List (List UInt8) :=
  match getenv system.environ (ascii "PATH") with
  | none => []
  | some path => (path.splitOn 0x3A).map (candidateIn name)

theorem ne_nil_of_mem_candidates (hne : name ≠ []) {candidate : List UInt8}
    (h : candidate ∈ candidates system name) : candidate ≠ [] := by
  unfold candidates at h
  split at h
  · cases h
  · obtain ⟨dir, -, rfl⟩ := List.mem_map.mp h
    rw [candidateIn, joinPath]
    split_ifs <;> simp [hne]

/-- What is reported of the file that is found. -/
def report (system : PosixSystem) (candidate : List UInt8) : Result (List UInt8) :=
  if ValidUtf8 candidate then makeAbsoluteNormalizedPath system candidate else fail .invalidEncoding

theorem report_ne (system : PosixSystem) (candidate : List UInt8) :
    report system candidate ≠ fail .notFound := by
  rw [report]
  split_ifs
  · exact makeAbsoluteNormalizedPath_ne system candidate
  · simp [fail]

theorem searchPath_eq (dirs : List (List UInt8)) :
    searchPath system name dirs =
      match (dirs.map (candidateIn name)).find? (isExecutableFile system) with
      | none => fail .notFound
      | some candidate => report system candidate := by
  induction dirs with
  | nil => rfl
  | cons dir dirs ih =>
    rw [searchPath, List.map_cons, List.find?_cons]
    cases isExecutableFile system (candidateIn name dir) with
    | false => exact ih
    | true =>
      simp only [isValidUtf8_eq, ok_bind, report]
      by_cases hvalid : ValidUtf8 (candidateIn name dir) <;> simp [hvalid]

/-- The search for a name without slashes. -/
theorem findExecutable_eq (hne : name ≠ []) (hnul : 0 ∉ name) (hvalid : ValidUtf8 name)
    (hslash : 0x2F ∉ name) :
    findExecutable system name =
      match (candidates system name).find? (isExecutableFile system) with
      | none => fail .notFound
      | some candidate => report system candidate := by
  simp only [findExecutable, hne, hnul, hslash, hvalid, isValidUtf8_eq, ok_bind, if_false,
    decide_true, Bool.not_true, Bool.false_eq_true]
  rw [candidates]
  cases getenv system.environ (ascii "PATH") with
  | none => rfl
  | some path => exact searchPath_eq _

/-- The first candidate that is executable is reported. -/
theorem findExecutable_of_first (hne : name ≠ []) (hnul : 0 ∉ name) (hvalid : ValidUtf8 name)
    (hslash : 0x2F ∉ name) {before after : List (List UInt8)} {candidate : List UInt8}
    (hcandidates : candidates system name = before ++ candidate :: after)
    (hbefore : ∀ other ∈ before, isExecutableFile system other = false)
    (hcandidate : isExecutableFile system candidate = true) :
    findExecutable system name = report system candidate := by
  have hfind : (candidates system name).find? (isExecutableFile system) = some candidate := by
    rw [List.find?_eq_some_iff_append]
    exact ⟨hcandidate, before, after, hcandidates, by simpa using hbefore⟩
  rw [findExecutable_eq hne hnul hvalid hslash, hfind]

theorem findExecutable_eq_notFound (hne : name ≠ []) (hnul : 0 ∉ name) (hvalid : ValidUtf8 name)
    (hslash : 0x2F ∉ name) :
    findExecutable system name = fail .notFound ↔
      ∀ candidate ∈ candidates system name, isExecutableFile system candidate = false := by
  rw [findExecutable_eq hne hnul hvalid hslash]
  cases hfind : (candidates system name).find? (isExecutableFile system) with
  | none => simpa using hfind
  | some candidate =>
    refine iff_of_false (report_ne system candidate) ?_
    intro hnone
    have hfound := List.find?_some hfind
    rw [hnone candidate (List.mem_of_find?_eq_some hfind)] at hfound
    cases hfound

end Candidates

theorem find_executable_normal_form :
    (∀ (system : PosixSystem) (path : List UInt8), path.head? = some 0x2F →
      ∃ result, makeAbsoluteNormalizedPath system path = .ok result ∧
        result = 0x2F :: [0x2F].intercalate
          ((path.splitOn 0x2F).filter fun name => name ≠ [] ∧ name ≠ ascii ".") ∧
        (result = ascii "/" ∨
          ∀ name ∈ (result.drop 1).splitOn 0x2F, name ≠ [] ∧ name ≠ ascii ".") ∧
        (result.getLast? = some 0x2F → result = ascii "/") ∧
        ∀ other, makeAbsoluteNormalizedPath other result = .ok result) ∧
    ∀ (system : PosixSystem) (name : List UInt8), name ≠ [] → 0 ∉ name → ValidUtf8 name →
      0x2F ∉ name →
      (findExecutable system name = fail .notFound ↔
        ∀ candidate ∈ candidates system name, isExecutableFile system candidate = false) ∧
      ∀ before candidate after, candidates system name = before ++ candidate :: after →
        (∀ other ∈ before, isExecutableFile system other = false) →
        isExecutableFile system candidate = true →
        (¬ ValidUtf8 candidate → findExecutable system name = fail .invalidEncoding) ∧
        (ValidUtf8 candidate → candidate.head? = some 0x2F →
          findExecutable system name = .ok (normalForm 0x2F 0x2E candidate)) ∧
        (ValidUtf8 candidate → candidate.head? ≠ some 0x2F →
          (∀ error, currentWorkingDirectory system = .error error →
            findExecutable system name = .error error) ∧
          ∀ cwd, currentWorkingDirectory system = .ok cwd → cwd.head? = some 0x2F →
            findExecutable system name =
              .ok (normalForm 0x2F 0x2E (joinPath cwd candidate))) := by
  have hroot : ascii "/" = [0x2F] := by decide
  have hdot : ascii "." = [0x2E] := by decide
  constructor
  · intro system path hpath
    have hkept : (path.splitOn 0x2F).filter (fun name => name ≠ [] ∧ name ≠ ascii ".") =
        (names 0x2F path).filter (· ≠ [0x2E]) := by
      rw [names, List.filter_filter]
      simp [hdot, Bool.and_comm]
    have hresult := @normalForm_eq_cons UInt8 _ 0x2F 0x2E path
    refine ⟨_, makeAbsoluteNormalizedPath_absolute system hpath, ?_, ?_, ?_, ?_⟩
    · rw [hkept]
      exact hresult
    · rw [hroot, hdot]
      refine (mem_parts_normalForm path).imp_right fun hnames name hname => ?_
      exact ⟨(hnames name hname).1.1, (hnames name hname).2⟩
    · rw [hroot]
      exact normalForm_eq_root
    · intro other
      rw [makeAbsoluteNormalizedPath_absolute other (by rw [hresult]; rfl), normalForm_normalForm]
  · intro system name hne hnul hvalid hslash
    refine ⟨findExecutable_eq_notFound hne hnul hvalid hslash, ?_⟩
    intro before candidate after hcandidates hbefore hcandidate
    rw [findExecutable_of_first hne hnul hvalid hslash hcandidates hbefore hcandidate, report]
    refine ⟨fun h => if_neg h, ?_, ?_⟩
    · intro h habsolute
      rw [if_pos h, makeAbsoluteNormalizedPath_absolute system habsolute]
    · intro h hrelative
      have hmem : candidate ∈ candidates system name := by simp [hcandidates]
      have hsome : candidate ≠ [] := ne_nil_of_mem_candidates hne hmem
      rw [if_pos h]
      exact ⟨fun error => makeAbsoluteNormalizedPath_error hsome hrelative,
        fun cwd => makeAbsoluteNormalizedPath_relative hsome hrelative⟩

/-- A system with a value of PATH, a working directory and one executable file. -/
def systemWith (path cwd file : List UInt8) : PosixSystem where
  stat := fun other => if other = file then some 0x81ED else none
  access := fun _ => true
  getcwd := .ok cwd
  environ := [ascii "PATH=" ++ path]

/-- Slashes and dots of the directory are left out of the result. -/
theorem find_executable_normal_form_tool :
    findExecutable (systemWith (ascii "/usr/bin:/opt//./bin/") (ascii "/home")
      (ascii "/opt//./bin/tool")) (ascii "tool") = .ok (ascii "/opt/bin/tool") := by
  have hvalid : ∀ text, (∀ c ∈ ascii text, c < 0x80) → ValidUtf8 (ascii text) :=
    fun text h => validUtf8_ascii h
  have hfound := find_executable_normal_form.2
    (systemWith (ascii "/usr/bin:/opt//./bin/") (ascii "/home") (ascii "/opt//./bin/tool"))
    (ascii "tool") (by decide) (by decide) (hvalid _ (forall_of_all (by decide))) (by decide)
  have hcandidate := (hfound.2 [ascii "/usr/bin/tool"] (ascii "/opt//./bin/tool") []
    (by decide) (by decide) (by decide)).2.1 (hvalid _ (forall_of_all (by decide))) (by decide)
  rw [hcandidate]
  decide

/-- A file in a directory whose name is not valid UTF-8 is found and not reported. -/
theorem undecodable_directory_refused :
    ∃ system name, 0x2F ∉ name ∧
      (∃ candidate ∈ candidates system name, isExecutableFile system candidate = true) ∧
      ∀ result, findExecutable system name ≠ .ok result := by
  refine ⟨systemWith [0x2F, 0xFF] (ascii "/home") [0x2F, 0xFF, 0x2F, 0x74], [0x74],
    by decide, ⟨[0x2F, 0xFF, 0x2F, 0x74], by decide, by decide⟩, ?_⟩
  have hvalid : ¬ ValidUtf8 [0x2F, 0xFF, 0x2F, 0x74] := by
    intro h
    have hmiddle : ValidUtf8 ([0xFF] ++ 0x2F :: [0x74]) :=
      ValidUtf8.of_ascii_append (by simp) (show ValidUtf8 ([0x2F] ++ [0xFF, 0x2F, 0x74]) from h)
    exact not_validUtf8_ff ((validUtf8_append_ascii (by decide)).mp hmiddle).1
  have hcandidates : candidates (systemWith [0x2F, 0xFF] (ascii "/home") [0x2F, 0xFF, 0x2F, 0x74])
      [0x74] = [] ++ [0x2F, 0xFF, 0x2F, 0x74] :: [] := by decide
  intro result
  rw [findExecutable_of_first (by decide) (by decide) (validUtf8_singleton (by decide)) (by decide)
    hcandidates (by simp) (by decide), report, if_neg hvalid]
  simp

end Syscape.Environment.Posix
