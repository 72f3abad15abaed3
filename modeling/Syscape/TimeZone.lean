import Syscape.Error
import Syscape.Lib.LexicalPaths
import Syscape.Lib.Text

/-!
# Time-zone identifiers

A zone is named by a path below the zoneinfo directory. The target of a link is resolved
lexically, and what is left of it below the directory is the identifier; the comparison of
the two texts is one of their names.
-/
namespace Syscape.Locale
open Checked Text Paths LexicalPaths

section Parser

/-- One part in the loop of `append_components`. -/
def appendComponent (components : List (List UInt8)) (part : List UInt8) : List (List UInt8) :=
  if part ≠ [] ∧ part ≠ ascii "." then
    if part = ascii ".." then components.dropLast else components ++ [part]
  else components

/-- `append_components`. -/
def appendComponents (components : List (List UInt8)) (value : List UInt8) : List (List UInt8) :=
  (value.splitOn 0x2F).foldl appendComponent components

/-- `normalize_absolute_path`. -/
def normalizeAbsolutePath (path base : List UInt8) : List UInt8 :=
  let components := if path.head? = some 0x2F then [] else appendComponents [] base
  let components := appendComponents components path
  if components = [] then ascii "/" else components.flatMap (0x2F :: ·)

variable (cwd : Result (List UInt8))

/-- `absolute_zoneinfo_root`, with the outcome of `current_working_directory`. -/
def absoluteZoneinfoRoot (zoneinfoRoot : List UInt8) : Result (List UInt8) :=
  if zoneinfoRoot = [] then fail .notFound
  else if zoneinfoRoot.head? = some 0x2F then .ok (normalizeAbsolutePath zoneinfoRoot (ascii "/"))
  else do
    let workingDirectory ← cwd
    .ok (normalizeAbsolutePath zoneinfoRoot workingDirectory)

/-- `zone_identifier_from_target`. -/
def zoneIdentifierFromTarget (target zoneinfoRoot targetBase : List UInt8) :
    Result (List UInt8) := do
  let normalizedRoot ← absoluteZoneinfoRoot cwd zoneinfoRoot
  let normalized := normalizeAbsolutePath target targetBase
  if normalizedRoot = ascii "/" then
    if normalized = ascii "/" then fail .notFound else .ok (normalized.drop 1)
  else if normalized.take normalizedRoot.length ≠ normalizedRoot ∨
      normalized.length ≤ normalizedRoot.length + 1 ∨
      normalized[normalizedRoot.length]? ≠ some 0x2F then fail .notFound
  else .ok (normalized.drop (normalizedRoot.length + 1))

/-- `ENOTDIR`. -/
def enotdir : ℤ := 20

/-- A path as `open`, `fstat` and `read` answer for it. -/
inductive ZoneFile where
  | unopened (errno : ℤ)
  | statFails (errno : ℤ)
  | irregular
  | unreadable (errno : ℤ)
  | content (text : List UInt8)
  deriving DecidableEq, Repr

/-- `identifier_for_zone_file`; a file that ends within the magic is malformed too. -/
def identifierForZoneFile (files : List UInt8 → ZoneFile) (filespec zoneinfoRoot : List UInt8) :
    Result (List UInt8) := do
  let normalizedRoot ← absoluteZoneinfoRoot cwd zoneinfoRoot
  let target :=
    if filespec.head? = some 0x2F then normalizeAbsolutePath filespec (ascii "/")
    else normalizeAbsolutePath filespec normalizedRoot
  let identifier ← zoneIdentifierFromTarget cwd target normalizedRoot (ascii "/")
  match files target with
  | .unopened errno =>
    if errno = enoent ∨ errno = enotdir then fail .notFound else failErrno errno
  | .statFails errno => failErrno errno
  | .irregular => fail .malformedData
  | .unreadable errno => failErrno errno
  | .content text => if text.take 4 = ascii "TZif" then .ok identifier else fail .malformedData

end Parser

section Resolution

/-- The names that a path resolves to behind a base directory. -/
def resolution (path base : List UInt8) : List (List UInt8) :=
  resolve 0x2E (if path.head? = some 0x2F then [] else resolve 0x2E [] (names 0x2F base))
    (names 0x2F path)

/-- Empty parts are none, and the others are names to resolve. -/
theorem appendComponents_eq (components : List (List UInt8)) (value : List UInt8) :
    appendComponents components value = resolve 0x2E components (names 0x2F value) := by
  rw [appendComponents, resolve, names]
  generalize value.splitOn 0x2F = parts
  induction parts generalizing components with
  | nil => rfl
  | cons part parts ih =>
    have hdot : ascii "." = [0x2E] := by decide
    have hdots : ascii ".." = [0x2E, 0x2E] := by decide
    rw [List.foldl_cons, ih, List.filter_cons]
    by_cases hempty : part = []
    · simp [hempty, appendComponent]
    · by_cases h : part = [0x2E] <;> simp [hempty, appendComponent, resolveStep, hdot, hdots, h]

theorem normalizeAbsolutePath_eq (path base : List UInt8) :
    normalizeAbsolutePath path base = absolute 0x2F (resolution path base) := by
  have hroot : ascii "/" = [0x2F] := by decide
  simp only [normalizeAbsolutePath, appendComponents_eq, resolution, absolute, hroot]
  rfl

/-- The resolution has names only, and no dots. -/
theorem mem_resolution {path base name : List UInt8} (h : name ∈ resolution path base) :
    IsName 0x2F name ∧ IsPlain 0x2E name := by
  have hbase : ∀ name ∈ if path.head? = some 0x2F then [] else resolve 0x2E [] (names 0x2F base),
      IsName 0x2F name ∧ IsPlain 0x2E name := by
    intro name hname
    split_ifs at hname
    · cases hname
    · obtain ⟨hplain, hmem⟩ := mem_resolve (by simp) hname
      rcases hmem with hmem | hmem
      · cases hmem
      · exact ⟨isName_of_mem_names hmem, hplain⟩
  obtain ⟨hplain, hmem⟩ := mem_resolve (fun name hname => (hbase name hname).2) h
  rcases hmem with hmem | hmem
  · exact hbase name hmem
  · exact ⟨isName_of_mem_names hmem, hplain⟩

/-- An absolute path does not depend on the base. -/
theorem resolution_absolute {path : List UInt8} (h : path.head? = some 0x2F)
    (base : List UInt8) : resolution path base = resolve 0x2E [] (names 0x2F path) := by
  rw [resolution, if_pos h]

/-- A path that is resolved already. -/
theorem resolution_normalized (path base other : List UInt8) :
    resolution (normalizeAbsolutePath path base) other = resolution path base := by
  rw [normalizeAbsolutePath_eq, resolution_absolute (head?_absolute _),
    names_absolute fun name hname => (mem_resolution hname).1,
    resolve_of_isPlain fun name hname => (mem_resolution hname).2, List.nil_append]

/-- Resolving twice is resolving once. -/
theorem normalizeAbsolutePath_idempotent (path base other : List UInt8) :
    normalizeAbsolutePath (normalizeAbsolutePath path base) other =
      normalizeAbsolutePath path base := by
  rw [normalizeAbsolutePath_eq _ other, resolution_normalized, normalizeAbsolutePath_eq]

/-- What follows an absolute root below it. -/
theorem resolution_below {root : List UInt8} (hroot : root.head? = some 0x2F)
    {below : List (List UInt8)} (hne : below ≠ [])
    (hbelow : ∀ name ∈ below, IsName 0x2F name ∧ IsPlain 0x2E name) (base other : List UInt8) :
    resolution (root ++ 0x2F :: relative 0x2F below) base = resolution root other ++ below := by
  have hhead : (root ++ 0x2F :: relative 0x2F below).head? = some 0x2F := by
    rw [List.head?_append, hroot]
    rfl
  have hnames : names 0x2F (relative 0x2F below) = below := by
    rw [names, splitOn_relative (fun name hname => (hbelow name hname).1) hne, List.filter_eq_self]
    intro name hname
    simpa using (hbelow name hname).1.1
  rw [resolution_absolute hhead, names_append_cons, hnames, resolve_append,
    resolution_absolute hroot, resolve_of_isPlain fun name hname => (hbelow name hname).2]

end Resolution

section Identifiers

variable {cwd : Result (List UInt8)} {root : List UInt8}

/-- One path is strictly below another one, name by name. -/
def Below (root path : List (List UInt8)) : Prop := root <+: path ∧ root ≠ path

instance : DecidableRel Below := fun _ _ => inferInstanceAs (Decidable (_ ∧ _))

theorem Below.exists_append {root path : List (List UInt8)} (h : Below root path) :
    ∃ below, below ≠ [] ∧ path = root ++ below := by
  obtain ⟨⟨below, rfl⟩, hne⟩ := h
  refine ⟨below, ?_, rfl⟩
  rintro rfl
  exact hne (List.append_nil root).symm

/-- The comparison of the two texts is one of the names, the slash behind the root included. -/
theorem below_iff_text {root path : List (List UInt8)} (hroot : ∀ name ∈ root, IsName 0x2F name)
    (hpath : ∀ name ∈ path, IsName 0x2F name) (hne : root ≠ []) :
    ¬ ((absolute 0x2F path).take (absolute 0x2F root).length ≠ absolute 0x2F root ∨
      (absolute 0x2F path).length ≤ (absolute 0x2F root).length + 1 ∨
      (absolute 0x2F path)[(absolute 0x2F root).length]? ≠ some 0x2F) ↔ Below root path := by
  simp only [not_or, not_not, not_le]
  constructor
  · rintro ⟨htake, hlength, hslash⟩
    obtain ⟨rest, hrest⟩ : ∃ rest, absolute 0x2F path = absolute 0x2F root ++ 0x2F :: rest := by
      refine ⟨(absolute 0x2F path).drop ((absolute 0x2F root).length + 1), ?_⟩
      obtain ⟨hlt, hget⟩ := List.getElem?_eq_some_iff.mp hslash
      conv_lhs => rw [← List.take_append_drop (absolute 0x2F root).length (absolute 0x2F path)]
      rw [htake, List.drop_eq_getElem_cons hlt, hget]
    have hother : path ≠ root := by
      rintro rfl
      exact absurd hlength (by omega)
    obtain ⟨below, -, rfl⟩ := prefix_of_append_cons hroot hpath hrest hother
    exact ⟨List.prefix_append _ _, hother.symm⟩
  · intro hbelow
    obtain ⟨below, hsome, rfl⟩ := hbelow.exists_append
    have hnames : ∀ name ∈ below, IsName 0x2F name :=
      fun name hname => hpath name (List.mem_append_right _ hname)
    have hpos := List.length_pos_iff.mpr (relative_ne_nil hnames hsome)
    rw [absolute_append hne hsome, List.take_left, List.length_append, List.length_cons]
    exact ⟨rfl, by omega, by simp⟩

/-- The identifier of a path below the root. -/
def identifierOf (root path : List (List UInt8)) : List UInt8 :=
  relative 0x2F (path.drop root.length)

theorem absoluteZoneinfoRoot_eq (hroot : root.head? = some 0x2F) :
    absoluteZoneinfoRoot cwd root = .ok (absolute 0x2F (resolution root (ascii "/"))) := by
  have hne : root ≠ [] := by
    rintro rfl
    cases hroot
  rw [absoluteZoneinfoRoot, if_neg hne, if_pos hroot, normalizeAbsolutePath_eq]

/-- The two texts are compared like their names. -/
theorem zoneIdentifierFromTarget_eq (hroot : root.head? = some 0x2F)
    (target base : List UInt8) :
    zoneIdentifierFromTarget cwd target root base =
      if Below (resolution root (ascii "/")) (resolution target base) then
        .ok (identifierOf (resolution root (ascii "/")) (resolution target base))
      else fail .notFound := by
  have hslash : ascii "/" = [0x2F] := by decide
  have hR : ∀ name ∈ resolution root (ascii "/"), IsName 0x2F name :=
    fun name hname => (mem_resolution hname).1
  have hT : ∀ name ∈ resolution target base, IsName 0x2F name :=
    fun name hname => (mem_resolution hname).1
  rw [zoneIdentifierFromTarget, absoluteZoneinfoRoot_eq hroot, ok_bind]
  simp only [normalizeAbsolutePath_eq]
  generalize resolution root (ascii "/") = R at hR ⊢
  generalize resolution target base = T at hT ⊢
  rw [hslash]
  by_cases hnil : R = []
  · subst hnil
    rw [if_pos ((absolute_eq_root_iff hR).mpr rfl)]
    by_cases hempty : T = []
    · rw [if_pos ((absolute_eq_root_iff hT).mpr hempty), if_neg fun h => h.2 hempty.symm]
    · rw [if_neg fun h => hempty ((absolute_eq_root_iff hT).mp h),
        if_pos ⟨List.nil_prefix, fun h => hempty h.symm⟩, absolute_eq_cons hempty]
      rfl
  · rw [if_neg fun h => hnil ((absolute_eq_root_iff hR).mp h)]
    by_cases hbelow : Below R T
    · rw [if_neg ((below_iff_text hR hT hnil).mpr hbelow), if_pos hbelow]
      obtain ⟨below, hsome, rfl⟩ := hbelow.exists_append
      rw [absolute_append hnil hsome, identifierOf, List.drop_left, drop_append_cons]
    · rw [if_pos (not_not.mp (mt (below_iff_text hR hT hnil).mp hbelow)), if_neg hbelow]

theorem zone_identifier_from_target :
    (∀ (cwd : Result (List UInt8)) (target root base : List UInt8), root.head? = some 0x2F →
      ((∃ identifier, zoneIdentifierFromTarget cwd target root base = .ok identifier) ↔
        Below (resolution root (ascii "/")) (resolution target base)) ∧
      ∀ identifier, zoneIdentifierFromTarget cwd target root base = .ok identifier →
        (∀ name ∈ identifier.splitOn 0x2F, name ≠ [] ∧ name ≠ ascii "." ∧ name ≠ ascii "..") ∧
        ∀ other, normalizeAbsolutePath (root ++ ascii "/" ++ identifier) other =
          normalizeAbsolutePath target base) ∧
    ∀ path base other, normalizeAbsolutePath (normalizeAbsolutePath path base) other =
      normalizeAbsolutePath path base := by
  refine ⟨?_, normalizeAbsolutePath_idempotent⟩
  intro cwd target root base hroot
  rw [zoneIdentifierFromTarget_eq hroot]
  have hT := @mem_resolution target base
  have hpath := normalizeAbsolutePath_eq target base
  have hrootNames := @resolution_below root hroot
  generalize resolution target base = T at hT hpath ⊢
  constructor
  · split_ifs with h <;> simp [h]
  · intro identifier hidentifier
    split_ifs at hidentifier with h
    · obtain ⟨below, hsome, rfl⟩ := h.exists_append
      have hbelow : ∀ name ∈ below, IsName 0x2F name ∧ IsPlain 0x2E name :=
        fun name hname => hT (List.mem_append_right _ hname)
      rw [identifierOf, List.drop_left, Except.ok.injEq] at hidentifier
      subst hidentifier
      constructor
      · intro name hname
        rw [splitOn_relative (fun name hname => (hbelow name hname).1) hsome] at hname
        exact ⟨(hbelow name hname).1.1, (hbelow name hname).2⟩
      · intro other
        have happend : root ++ ascii "/" ++ relative 0x2F below =
            root ++ 0x2F :: relative 0x2F below := by
          rw [List.append_assoc]
          rfl
        rw [happend, normalizeAbsolutePath_eq, hrootNames hsome hbelow other (ascii "/"), hpath]
    · exact absurd hidentifier (fail_ne_ok _ _)

/-- A relative link leaves its directory and enters the root. -/
theorem zone_identifier_from_target_berlin :
    normalizeAbsolutePath (ascii "/usr/share/zoneinfo" ++ ascii "/" ++ ascii "Europe/Berlin") [] =
      normalizeAbsolutePath (ascii "../usr/share/zoneinfo/Europe/./Berlin") (ascii "/etc") :=
  ((zone_identifier_from_target.1 (fail .notFound)
    (ascii "../usr/share/zoneinfo/Europe/./Berlin") (ascii "/usr/share/zoneinfo") (ascii "/etc")
    rfl).2 (ascii "Europe/Berlin") (by decide +kernel)).2 []

/-- The zone file that gives an identifier is the one below the root that it names. -/
theorem identifierForZoneFile_confined {files : List UInt8 → ZoneFile}
    {filespec identifier : List UInt8} (hroot : root.head? = some 0x2F)
    (h : identifierForZoneFile cwd files filespec root = .ok identifier) :
    ∃ text, files (normalizeAbsolutePath (root ++ 0x2F :: identifier) (ascii "/")) = .content text ∧
      text.take 4 = ascii "TZif" := by
  rw [identifierForZoneFile, absoluteZoneinfoRoot_eq hroot, ok_bind, bind_eq_ok] at h
  obtain ⟨found, hfound, h⟩ := h
  have htarget : ∃ path base, (if filespec.head? = some 0x2F then
      normalizeAbsolutePath filespec (ascii "/")
      else normalizeAbsolutePath filespec (absolute 0x2F (resolution root (ascii "/")))) =
        normalizeAbsolutePath path base := by
    split_ifs
    · exact ⟨_, _, rfl⟩
    · exact ⟨_, _, rfl⟩
  obtain ⟨path, base, htarget⟩ := htarget
  rw [htarget, ← normalizeAbsolutePath_eq, zoneIdentifierFromTarget_eq
    (by rw [normalizeAbsolutePath_eq]; exact head?_absolute _), resolution_normalized,
    resolution_normalized] at hfound
  split_ifs at hfound with hbelow
  · obtain ⟨below, hsome, hpath⟩ := hbelow.exists_append
    have hnames : ∀ name ∈ below, IsName 0x2F name ∧ IsPlain 0x2E name := by
      intro name hname
      apply @mem_resolution path base
      rw [hpath]
      exact List.mem_append_right _ hname
    rw [identifierOf, hpath, List.drop_left, Except.ok.injEq] at hfound
    rw [htarget] at h
    have hmagic : ∃ text, files (normalizeAbsolutePath path base) = .content text ∧
        text.take 4 = ascii "TZif" ∧ found = identifier := by
      cases hfile : files (normalizeAbsolutePath path base) with
      | content text =>
        simp only [hfile] at h
        split_ifs at h with htext
        · exact ⟨text, rfl, htext, Except.ok.inj h⟩
        · exact absurd h (fail_ne_ok _ _)
      | unopened errno =>
        simp only [hfile] at h
        split_ifs at h
        · exact absurd h (fail_ne_ok _ _)
        · cases h
      | statFails errno => simp [hfile, failErrno] at h
      | irregular => simp [hfile] at h
      | unreadable errno => simp [hfile, failErrno] at h
    obtain ⟨text, hfile, htext, rfl⟩ := hmagic
    subst hfound
    rw [normalizeAbsolutePath_eq, resolution_below hroot hsome hnames _ (ascii "/"), ← hpath,
      ← normalizeAbsolutePath_eq]
    exact ⟨text, hfile, htext⟩
  · exact absurd hfound (fail_ne_ok _ _)

end Identifiers

end Syscape.Locale
