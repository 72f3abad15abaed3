import Syscape.CgroupMounts
import Syscape.TightestCpuLimit
import Syscape.Lib.DigitRuns

/-!
# The cgroups of a process

`/proc/<pid>/cgroup` has a line for each hierarchy: its number, its controllers, and the path of
the process in it, behind the first two colons. The unified hierarchy has the number zero and no
controllers. Which hierarchies there are decides about the cgroup version.
-/
namespace Syscape.Cgroup
open Checked Text Lines Paths Digits DigitRuns

section Source

/-- `cgroup_version_type`. -/
inductive CgroupVersion where
  | none
  | v1
  | v2
  | hybrid
  deriving DecidableEq, Repr

/-- `cgroup_v1_hierarchy`. -/
structure CgroupV1Hierarchy where
  controllers : List (List UInt8)
  path : List UInt8
  deriving DecidableEq, Repr

/-- `parsed_cgroup_info`. -/
structure ParsedCgroupInfo where
  version : CgroupVersion := .none
  v2Path : List UInt8 := []
  v1Hierarchies : List CgroupV1Hierarchy := []
  deriving DecidableEq, Repr

/-- The variables of `parse_cgroup_proc_file_detailed`. -/
structure CgroupState where
  parsed : ParsedCgroupInfo := {}
  hasV2 : Bool := false
  hasV1 : Bool := false
  deriving DecidableEq, Repr

/-- What is taken off the end of a line. -/
def isTerminator (c : UInt8) : Bool := c == 0x0D || c == 0x0A

/-- A line of the unified hierarchy. -/
def addUnified (st : CgroupState) (path : List UInt8) : CgroupState :=
  { st with
    hasV2 := true
    parsed := { st.parsed with
      v2Path := if st.parsed.v2Path = [] then path else st.parsed.v2Path } }

/-- A line of a hierarchy with controllers. -/
def addHierarchy (st : CgroupState) (hier : CgroupV1Hierarchy) : CgroupState :=
  { st with
    hasV1 := true
    parsed := { st.parsed with v1Hierarchies := st.parsed.v1Hierarchies ++ [hier] } }

/-- A line that is not empty. -/
def cgroupFields (st : CgroupState) (line : List UInt8) : Result CgroupState :=
  match line.idxOf? 0x3A with
  | none => fail .malformedData
  | some firstColon =>
    let idStr := line.take firstColon
    let behind := line.drop (firstColon + 1)
    if idStr = [] then fail .malformedData
    else do
      let hierId ← accumulateDecimal 0 idStr
      match behind.idxOf? 0x3A with
      | none => fail .malformedData
      | some secondColon =>
        let ctrlNamesStr := behind.take secondColon
        let ctrlPathStr := behind.drop (secondColon + 1)
        if ctrlPathStr.head? ≠ some 0x2F then fail .malformedData
        else if hierId = 0 then
          if ctrlNamesStr ≠ [] then fail .malformedData else .ok (addUnified st ctrlPathStr)
        else if ctrlNamesStr = [] then fail .malformedData
        else if splitCommas ctrlNamesStr = [] then fail .malformedData
        else .ok (addHierarchy st ⟨splitCommas ctrlNamesStr, ctrlPathStr⟩)

/-- A line of `parse_cgroup_proc_file_detailed`. -/
def cgroupLine (st : CgroupState) (line : List UInt8) : Result CgroupState :=
  let line := line.rdropWhile isTerminator
  if line = [] then .ok st else cgroupFields st line

/-- What the two flags say. -/
def versionOf (hasV2 hasV1 : Bool) : CgroupVersion :=
  if hasV2 && hasV1 then .hybrid
  else if hasV2 then .v2
  else if hasV1 then .v1
  else .none

/-- `parse_cgroup_proc_file_detailed`. -/
def parseCgroupProcFileDetailed (cgroupContent : List UInt8) : Result ParsedCgroupInfo := do
  let st ← (lines 0x0A cgroupContent).foldlM cgroupLine {}
  .ok { st.parsed with version := versionOf st.hasV2 st.hasV1 }

/-- `parse_cgroup_proc_file`: the version and the primary path. -/
def parseCgroupProcFile (cgroupContent : List UInt8) : CgroupVersion × List UInt8 :=
  match parseCgroupProcFileDetailed cgroupContent with
  | .error _ => (.none, [])
  | .ok detailed =>
    (detailed.version,
      if detailed.v2Path ≠ [] then detailed.v2Path
      else (detailed.v1Hierarchies.head?.map CgroupV1Hierarchy.path).getD [])

end Source

section Entries

/-- A path of a cgroup. -/
structure CgroupPath where
  text : List UInt8
  absolute : text.head? = some 0x2F
  no_newline : 0x0A ∉ text
  last_ne : text.getLast? ≠ some 0x0D

/-- The name of a controller, or of a hierarchy without one. -/
structure ControllerName where
  text : List UInt8
  ne_nil : text ≠ []
  no_separator : 0x2C ∉ text ∧ 0x3A ∉ text ∧ 0x0A ∉ text
  head_solid : ∀ c ∈ text.head?, isPadding c = false
  last_solid : ∀ c ∈ text.getLast?, isPadding c = false

/-- The hierarchies that a process is in. -/
inductive ProcCgroup where
  | unified (path : CgroupPath)
  | hierarchy (id : ℕ) (id_pos : 0 < id) (id_le : id ≤ uint64Max)
    (controllers : List ControllerName) (controllers_ne : controllers ≠ []) (path : CgroupPath)

/-- The line that the kernel writes. -/
def ProcCgroup.line : ProcCgroup → List UInt8
  | .unified path => decimal 0 ++ 0x3A :: 0x3A :: path.text
  | .hierarchy id _ _ controllers _ path => decimal id ++
      0x3A :: ([0x2C].intercalate (controllers.map ControllerName.text) ++ 0x3A :: path.text)

def ProcCgroup.unifiedPath : ProcCgroup → Option (List UInt8)
  | .unified path => some path.text
  | .hierarchy .. => none

def ProcCgroup.v1Hierarchy : ProcCgroup → Option CgroupV1Hierarchy
  | .unified _ => none
  | .hierarchy _ _ _ controllers _ path => some ⟨controllers.map ControllerName.text, path.text⟩

/-- The file, with or without a newline at its end. -/
def procCgroup (entries : List ProcCgroup) (terminated : Bool) : List UInt8 :=
  if terminated then (entries.map ProcCgroup.line).flatMap (· ++ [0x0A])
  else [0x0A].intercalate (entries.map ProcCgroup.line)

/-- What is to be recovered: the first path in the unified hierarchy, and the others in order. -/
def infoOf (entries : List ProcCgroup) : ParsedCgroupInfo where
  version := versionOf (entries.any fun e => e.unifiedPath.isSome)
    (entries.any fun e => e.v1Hierarchy.isSome)
  v2Path := (entries.filterMap ProcCgroup.unifiedPath).headD []
  v1Hierarchies := entries.filterMap ProcCgroup.v1Hierarchy

/-- A number, controllers and an absolute path, with colons between them. Without a number
other than zero there are no controllers, and with one there is a name. -/
def WellFormed (line : List UInt8) : Prop :=
  ∃ (id : DigitRun) (controllers path : List UInt8),
    line = id.digits ++ 0x3A :: (controllers ++ 0x3A :: path) ∧
      id.number ≤ uint64Max ∧ 0x3A ∉ controllers ∧ path.head? = some 0x2F ∧
      if id.number = 0 then controllers = []
      else ∃ c ∈ controllers, c ≠ 0x2C ∧ isPadding c = false

end Entries

section Fields
variable {text line : List UInt8} {st : CgroupState}

lemma no_colon (id : DigitRun) : 0x3A ∉ id.digits := by
  intro h
  have hdigit := id.isDigit_of_mem _ h
  simp [isDigit] at hdigit

/-- Digits are accumulated as long as their number fits. -/
theorem accumulateDecimal_eq {v : ℕ} (hv : v ≤ uint64Max) (text : List UInt8) :
    accumulateDecimal v text =
      if (∀ c ∈ text, isDigit c = true) ∧ v * 10 ^ text.length + runValue text ≤ uint64Max then
        .ok (v * 10 ^ text.length + runValue text)
      else fail .malformedData := by
  have hmax : uint64Max = 2 ^ 64 - 1 := rfl
  induction text generalizing v with
  | nil => simp [accumulateDecimal, hv]
  | cons c text ih =>
    have htotal : v * 10 ^ (c :: text).length + runValue (c :: text) =
        (v * 10 + (c.toNat - 0x30)) * 10 ^ text.length + runValue text := by
      rw [runValue_cons, List.length_cons, Nat.pow_succ']
      ring
    have hchar : (c < 0x30 ∨ c > 0x39) ↔ ¬ isDigit c = true := by
      rw [isDigit_iff, UInt8.lt_iff_toNat_lt, gt_iff_lt, UInt8.lt_iff_toNat_lt]
      simp only [UInt8.reduceToNat]
      omega
    rw [accumulateDecimal, htotal]
    simp only [hchar, List.forall_mem_cons]
    by_cases hdigit : isDigit c = true
    · have hle := Nat.le_mul_of_pos_right (v * 10 + (c.toNat - 0x30))
        (Nat.pow_pos (by decide) : 0 < 10 ^ text.length)
      have hc := isDigit_iff.mp hdigit
      simp only [hdigit, not_true_eq_false, if_false, true_and]
      by_cases hfits : v * 10 + (c.toNat - 0x30) ≤ uint64Max
      · rw [if_neg (by omega), ih hfits]
      · rw [if_pos (by omega), if_neg (by omega)]
    · simp [hdigit]

/-- What is between the commas counts if there is more than blanks. -/
theorem splitCommas_ne_nil_iff :
    splitCommas text ≠ [] ↔ ∃ c ∈ text, c ≠ 0x2C ∧ isPadding c = false := by
  have htrim (piece : List UInt8) :
      trimSignature piece ≠ [] ↔ ∃ c ∈ piece, isPadding c = false := by
    unfold trimSignature
    rw [ne_eq, ← not_iff_not, not_not]
    constructor
    · intro hnil
      by_cases hcore : piece.rdropWhile isPadding = []
      · rintro ⟨c, hc, hsolid⟩
        rw [List.rdropWhile_eq_nil_iff.mp hcore c hc] at hsolid
        cases hsolid
      · have hlast := List.rdropWhile_last_not isPadding piece hcore
        exact absurd (List.dropWhile_eq_nil_iff.mp hnil _ (List.getLast_mem hcore)) hlast
    · intro hnone
      have hall : piece.rdropWhile isPadding = [] := List.rdropWhile_eq_nil_iff.mpr (by
        intro c hc
        by_contra hsolid
        exact hnone ⟨c, hc, by simpa using hsolid⟩)
      rw [hall]
      rfl
  have hpieces : splitCommas text ≠ [] ↔
      ∃ piece ∈ lines 0x2C text, ∃ c ∈ piece, isPadding c = false := by
    unfold splitCommas
    rw [ne_eq, List.filter_eq_nil_iff]
    simp only [List.forall_mem_map, decide_not, Bool.not_eq_eq_eq_not, Bool.not_true,
      decide_eq_false_iff_not, not_forall, not_not, ← htrim]
    simp only [exists_prop]
  rw [hpieces]
  constructor
  · rintro ⟨piece, hpiece, c, hc, hsolid⟩
    exact ⟨c, (exists_mem_lines_iff.mp ⟨piece, hpiece, hc⟩).1,
      (exists_mem_lines_iff.mp ⟨piece, hpiece, hc⟩).2, hsolid⟩
  · rintro ⟨c, hc, hcomma, hsolid⟩
    obtain ⟨piece, hpiece, hmem⟩ := exists_mem_lines_iff.mpr ⟨hc, hcomma⟩
    exact ⟨piece, hpiece, c, hmem, hsolid⟩

/-- The fields of a line with two colons. -/
lemma cgroupFields_eq {idStr controllers path : List UInt8} (hid : 0x3A ∉ idStr)
    (hcontrollers : 0x3A ∉ controllers) :
    cgroupFields st (idStr ++ 0x3A :: (controllers ++ 0x3A :: path)) =
      if idStr = [] then fail .malformedData
      else accumulateDecimal 0 idStr >>= fun hierId =>
        if path.head? ≠ some 0x2F then fail .malformedData
        else if hierId = 0 then
          if controllers ≠ [] then fail .malformedData else .ok (addUnified st path)
        else if controllers = [] then fail .malformedData
        else if splitCommas controllers = [] then fail .malformedData
        else .ok (addHierarchy st ⟨splitCommas controllers, path⟩) := by
  have hdrop (front behind : List UInt8) :
      (front ++ 0x3A :: behind).drop (front.length + 1) = behind := by
    rw [List.append_cons, List.drop_left' (by simp)]
  unfold cgroupFields
  simp only [idxOf?_append_cons hid, List.take_left, hdrop, idxOf?_append_cons hcontrollers]

lemma wellFormed_iff {idStr controllers path : List UInt8} (hid : 0x3A ∉ idStr)
    (hcontrollers : 0x3A ∉ controllers) :
    WellFormed (idStr ++ 0x3A :: (controllers ++ 0x3A :: path)) ↔
      idStr ≠ [] ∧ (∀ c ∈ idStr, isDigit c = true) ∧ runValue idStr ≤ uint64Max ∧
        path.head? = some 0x2F ∧
        if runValue idStr = 0 then controllers = [] else splitCommas controllers ≠ [] := by
  constructor
  · rintro ⟨id, names, rest, hline, hle, hnames, hhead, hid_zero⟩
    obtain ⟨rfl, hbehind⟩ := append_cons_inj hid (no_colon id) hline
    obtain ⟨rfl, rfl⟩ := append_cons_inj hcontrollers hnames hbehind
    rw [← splitCommas_ne_nil_iff] at hid_zero
    exact ⟨id.ne_nil, id.isDigit_of_mem, hle, hhead, hid_zero⟩
  · rintro ⟨hne, hdigits, hle, hhead, hid_zero⟩
    rw [splitCommas_ne_nil_iff] at hid_zero
    exact ⟨⟨idStr, hne, hdigits⟩, controllers, path, rfl, hle, hcontrollers, hhead, hid_zero⟩

/-- A line is of the form, or it is malformed. -/
lemma cgroupFields_cases (st : CgroupState) (line : List UInt8) :
    (WellFormed line ∧ ∃ next, cgroupFields st line = .ok next) ∨
      (¬ WellFormed line ∧ cgroupFields st line = fail .malformedData) := by
  by_cases hfirst : 0x3A ∈ line
  · obtain ⟨idStr, behind, rfl, hid⟩ := List.eq_append_cons_of_mem hfirst
    by_cases hsecond : 0x3A ∈ behind
    · obtain ⟨controllers, path, rfl, hcontrollers⟩ := List.eq_append_cons_of_mem hsecond
      rw [cgroupFields_eq hid hcontrollers, wellFormed_iff hid hcontrollers]
      have haccumulate := accumulateDecimal_eq (Nat.zero_le _) idStr
      rw [Nat.zero_mul, Nat.zero_add] at haccumulate
      by_cases hnumber : idStr ≠ [] ∧ (∀ c ∈ idStr, isDigit c = true) ∧ runValue idStr ≤ uint64Max
      · obtain ⟨hne, hdigits, hle⟩ := hnumber
        rw [if_pos ⟨hdigits, hle⟩] at haccumulate
        rw [haccumulate, if_neg hne, ok_bind]
        by_cases hhead : path.head? = some 0x2F
        · by_cases hzero : runValue idStr = 0
          · by_cases hnames : controllers = []
            · simpa [hne, hle, hhead, hzero, hnames] using hdigits
            · simp [hhead, hzero, hnames]
          · by_cases hsplit : splitCommas controllers = []
            · simp [hzero, hhead, hsplit]
            · have hnames : controllers ≠ [] := by
                rintro rfl
                exact hsplit rfl
              simpa [hne, hle, hhead, hzero, hnames, hsplit] using hdigits
        · simp [hhead]
      · right
        refine ⟨fun h => hnumber ⟨h.1, h.2.1, h.2.2.1⟩, ?_⟩
        by_cases hne : idStr = []
        · rw [if_pos hne]
        · rw [haccumulate, if_neg hne, if_neg fun h => hnumber ⟨hne, h⟩, fail_bind]
    · right
      constructor
      · rintro ⟨id, names, rest, hline, -⟩
        obtain ⟨-, rfl⟩ := append_cons_inj hid (no_colon id) hline
        simp at hsecond
      · have hdrop : (idStr ++ 0x3A :: behind).drop (idStr.length + 1) = behind := by
          rw [List.append_cons, List.drop_left' (by simp)]
        unfold cgroupFields
        simp only [idxOf?_append_cons hid, List.take_left, hdrop,
          List.idxOf?_eq_none_iff.mpr hsecond]
        split_ifs
        · rfl
        · rw [accumulateDecimal_eq (Nat.zero_le _)]
          split_ifs <;> rfl
  · right
    constructor
    · rintro ⟨id, names, rest, rfl, -⟩
      simp at hfirst
    · unfold cgroupFields
      rw [List.idxOf?_eq_none_iff.mpr hfirst]

end Fields

section RoundTrip
variable {st : CgroupState} {entries more : List ProcCgroup}

lemma CgroupPath.ne_nil (path : CgroupPath) : path.text ≠ [] := by
  intro hnil
  have habsolute := path.absolute
  rw [hnil] at habsolute
  cases habsolute

lemma ControllerName.trim (name : ControllerName) : trimSignature name.text = name.text := by
  have hself : name.text.rdropWhile isPadding = name.text := by
    rw [List.rdropWhile_eq_self_iff]
    intro hne
    simpa using name.last_solid _ (List.getLast?_eq_some_getLast hne)
  obtain ⟨c, text, htext⟩ := List.exists_cons_of_ne_nil name.ne_nil
  have hhead := name.head_solid c (by rw [htext]; rfl)
  rw [trimSignature, hself, htext, List.dropWhile_cons_of_neg (by simp [hhead])]

lemma splitCommas_names (names : List ControllerName) :
    splitCommas ([0x2C].intercalate (names.map ControllerName.text)) =
      names.map ControllerName.text := by
  have hlines := @lines_intercalate _ _ 0x2C (names.map ControllerName.text)
    (by simpa using fun name _ => name.no_separator.1) (by simpa using fun name _ => name.ne_nil)
  have htrim : (names.map ControllerName.text).map trimSignature =
      names.map ControllerName.text := by
    rw [List.map_map]
    exact List.map_congr_left fun name _ => name.trim
  rw [splitCommas, hlines, htrim, List.filter_eq_self]
  simpa using fun name _ => name.ne_nil

lemma not_mem_decimal {n : ℕ} {c : UInt8} (h : c.toNat < 0x30 ∨ 0x39 < c.toNat) :
    c ∉ decimal n := by
  intro hc
  have hdigit := mem_decimal hc
  omega

lemma not_mem_names {names : List ControllerName} {c : UInt8} (hcomma : c ≠ 0x2C)
    (h : ∀ name ∈ names, c ∉ name.text) :
    c ∉ [0x2C].intercalate (names.map ControllerName.text) := by
  intro hc
  rcases mem_intercalate hc with rfl | ⟨piece, hpiece, hc⟩
  · exact hcomma rfl
  · obtain ⟨name, hname, rfl⟩ := List.mem_map.mp hpiece
    exact h name hname hc

/-- What an entry adds to what has been read. -/
def addEntry (st : CgroupState) : ProcCgroup → CgroupState
  | .unified path => addUnified st path.text
  | .hierarchy _ _ _ controllers _ path =>
    addHierarchy st ⟨controllers.map ControllerName.text, path.text⟩

/-- A written line has no newline in it, and its end is the end of the path. -/
lemma ProcCgroup.line_eq (entry : ProcCgroup) : 0x0A ∉ entry.line ∧ entry.line ≠ [] ∧
    entry.line.rdropWhile isTerminator = entry.line := by
  have hend (front : List UInt8) (path : CgroupPath) :
      (front ++ path.text).rdropWhile isTerminator = front ++ path.text := by
    have hne := path.ne_nil
    rw [List.rdropWhile_eq_self_iff]
    intro hne'
    rw [List.getLast_append_of_ne_nil hne' hne]
    have hlast := path.last_ne
    rw [List.getLast?_eq_some_getLast hne, ne_eq, Option.some_inj] at hlast
    have hnewline : path.text.getLast hne ≠ 0x0A := by
      intro h
      exact path.no_newline (h ▸ List.getLast_mem hne)
    simp [isTerminator, hlast, hnewline]
  have hdecimal (n : ℕ) : 0x0A ∉ decimal n := not_mem_decimal (by decide)
  cases entry with
  | unified path =>
    refine ⟨?_, by simp [ProcCgroup.line], ?_⟩
    · simp [ProcCgroup.line, hdecimal, path.no_newline]
    · have hsplit : (ProcCgroup.unified path).line = decimal 0 ++ [0x3A, 0x3A] ++ path.text := by
        simp [ProcCgroup.line]
      rw [hsplit, hend]
  | hierarchy id id_pos id_le controllers controllers_ne path =>
    have hnames := @not_mem_names controllers 0x0A (by decide) fun name _ => name.no_separator.2.2
    refine ⟨?_, by simp [ProcCgroup.line], ?_⟩
    · simp only [ProcCgroup.line, List.mem_append, List.mem_cons, hdecimal, hnames, path.no_newline]
      simp
    · have hsplit : (ProcCgroup.hierarchy id id_pos id_le controllers controllers_ne path).line =
          decimal id ++
            0x3A :: ([0x2C].intercalate (controllers.map ControllerName.text) ++ [0x3A]) ++
            path.text := by
        simp [ProcCgroup.line]
      rw [hsplit, hend]

lemma cgroupLine_entry (entry : ProcCgroup) :
    cgroupLine st entry.line = .ok (addEntry st entry) := by
  obtain ⟨-, hne, hstrip⟩ := entry.line_eq
  have hcolon (n : ℕ) : 0x3A ∉ decimal n := not_mem_decimal (by decide)
  unfold cgroupLine
  simp only [hstrip, if_neg hne]
  cases entry with
  | unified path =>
    have hfields := @cgroupFields_eq st (decimal 0) [] path.text (hcolon 0) (by simp)
    rw [List.nil_append, if_neg (decimal_ne_nil 0), accumulateDecimal_decimal (Nat.zero_le _),
      ok_bind] at hfields
    rw [ProcCgroup.line, hfields, path.absolute]
    rfl
  | hierarchy id id_pos id_le controllers controllers_ne path =>
    have hnames := @not_mem_names controllers 0x3A (by decide) fun name _ => name.no_separator.2.1
    have hsplit := splitCommas_names controllers
    have hsome : splitCommas ([0x2C].intercalate (controllers.map ControllerName.text)) ≠ [] := by
      rw [hsplit]
      simpa using controllers_ne
    have htext : [0x2C].intercalate (controllers.map ControllerName.text) ≠ [] := by
      intro hnil
      rw [hnil] at hsome
      exact hsome rfl
    rw [ProcCgroup.line, cgroupFields_eq (hcolon id) hnames, if_neg (decimal_ne_nil id),
      accumulateDecimal_decimal id_le, ok_bind, path.absolute, if_neg (by simp),
      if_neg (by omega), if_neg htext, if_neg hsome, hsplit]
    rfl

/-- What is known behind the entries. -/
def afterEntries (entries : List ProcCgroup) : CgroupState where
  parsed := { infoOf entries with version := .none }
  hasV2 := entries.any fun e => e.unifiedPath.isSome
  hasV1 := entries.any fun e => e.v1Hierarchy.isSome

lemma addEntry_afterEntries (entries : List ProcCgroup) (entry : ProcCgroup) :
    addEntry (afterEntries entries) entry = afterEntries (entries ++ [entry]) := by
  cases entry with
  | unified path =>
    have hfirst : (if (entries.filterMap ProcCgroup.unifiedPath).headD [] = [] then path.text
        else (entries.filterMap ProcCgroup.unifiedPath).headD []) =
        (entries.filterMap ProcCgroup.unifiedPath ++ [path.text]).headD [] := by
      cases hpaths : entries.filterMap ProcCgroup.unifiedPath with
      | nil => rfl
      | cons first paths =>
        obtain ⟨entry, -, hentry⟩ := List.mem_filterMap.mp (hpaths ▸ List.mem_cons_self : first ∈ _)
        have hne : first ≠ [] := by
          cases entry with
          | unified path =>
            cases hentry
            exact path.ne_nil
          | hierarchy => cases hentry
        rw [List.headD_cons, if_neg hne, List.cons_append, List.headD_cons]
    simp only [addEntry, addUnified, afterEntries, infoOf, List.filterMap_append,
      List.any_append, List.filterMap_cons, List.filterMap_nil, List.any_cons, List.any_nil,
      ProcCgroup.unifiedPath, ProcCgroup.v1Hierarchy, List.append_nil, Option.isSome_some,
      Option.isSome_none, Bool.or_true, Bool.or_false]
    rw [← hfirst]
    congr
  | hierarchy id id_pos id_le controllers controllers_ne path =>
    simp only [addEntry, addHierarchy, afterEntries, infoOf, List.filterMap_append,
      List.any_append, List.filterMap_cons, List.filterMap_nil, ProcCgroup.unifiedPath,
      ProcCgroup.v1Hierarchy, List.append_nil]
    simp

lemma foldlM_entries (entries : List ProcCgroup) :
    (entries.map ProcCgroup.line).foldlM cgroupLine {} = .ok (afterEntries entries) := by
  induction entries using List.reverseRecOn with
  | nil => rfl
  | append_singleton entries entry ih =>
    rw [List.map_append, List.foldlM_append, ih, ok_bind, List.map_singleton, List.foldlM_cons,
      cgroupLine_entry, ok_bind, addEntry_afterEntries]
    rfl

/-- The entries of a file are recovered. -/
theorem parseCgroupProcFileDetailed_procCgroup (entries : List ProcCgroup) (terminated : Bool) :
    parseCgroupProcFileDetailed (procCgroup entries terminated) = .ok (infoOf entries) := by
  have hlines := @lines_written _ _ 0x0A (entries.map ProcCgroup.line) (by
    simpa using fun entry _ => ⟨entry.line_eq.1, entry.line_eq.2.1⟩) terminated
  unfold parseCgroupProcFileDetailed procCgroup
  rw [hlines, foldlM_entries, ok_bind]
  rfl

/-- The version does not depend on the order of the entries, or on how often they stand there. -/
theorem version_infoOf_congr {a b : List ProcCgroup} (h : ∀ entry, entry ∈ a ↔ entry ∈ b) :
    (infoOf a).version = (infoOf b).version := by
  have hany (p : ProcCgroup → Bool) : a.any p = b.any p := by
    rw [Bool.eq_iff_iff, List.any_eq_true, List.any_eq_true]
    simp only [h]
  simp only [infoOf, hany]

end RoundTrip

section Texts
variable {text : List UInt8} {st : CgroupState}

/-- Every line that has more than its end is of the form. -/
def AllWellFormed (text : List UInt8) : Prop :=
  ∀ line ∈ lines 0x0A text, line.rdropWhile isTerminator ≠ [] →
    WellFormed (line.rdropWhile isTerminator)

lemma cgroupLine_cases (st : CgroupState) (line : List UInt8) :
    ((line.rdropWhile isTerminator ≠ [] → WellFormed (line.rdropWhile isTerminator)) ∧
        ∃ next, cgroupLine st line = .ok next) ∨
      (¬ (line.rdropWhile isTerminator ≠ [] → WellFormed (line.rdropWhile isTerminator)) ∧
        cgroupLine st line = fail .malformedData) := by
  unfold cgroupLine
  by_cases hnil : line.rdropWhile isTerminator = []
  · simp [hnil]
  · simp only [ne_eq, hnil, not_false_eq_true, true_implies]
    exact cgroupFields_cases st _

lemma foldlM_cgroupLine_cases (all : List (List UInt8)) (st : CgroupState) :
    ((∀ line ∈ all, line.rdropWhile isTerminator ≠ [] →
          WellFormed (line.rdropWhile isTerminator)) ∧
        ∃ next, all.foldlM cgroupLine st = .ok next) ∨
      (¬ (∀ line ∈ all, line.rdropWhile isTerminator ≠ [] →
          WellFormed (line.rdropWhile isTerminator)) ∧
        all.foldlM cgroupLine st = fail .malformedData) := by
  induction all generalizing st with
  | nil => exact .inl ⟨by simp, st, rfl⟩
  | cons line all ih =>
    rw [List.forall_mem_cons, List.foldlM_cons]
    rcases cgroupLine_cases st line with ⟨hline, next, hnext⟩ | ⟨hline, hfail⟩
    · rw [hnext, ok_bind]
      rcases ih next with ⟨hall, hrun⟩ | ⟨hall, hrun⟩
      · exact .inl ⟨⟨hline, hall⟩, hrun⟩
      · exact .inr ⟨fun h => hall h.2, hrun⟩
    · rw [hfail, fail_bind]
      exact .inr ⟨fun h => hline h.1, rfl⟩

/-- A text is refused exactly if some line is not of the form. -/
theorem parseCgroupProcFileDetailed_cases (text : List UInt8) :
    (AllWellFormed text ∧ ∃ info, parseCgroupProcFileDetailed text = .ok info) ∨
      (¬ AllWellFormed text ∧ parseCgroupProcFileDetailed text = fail .malformedData) := by
  unfold parseCgroupProcFileDetailed
  rcases foldlM_cgroupLine_cases (lines 0x0A text) {} with ⟨hall, next, hrun⟩ | ⟨hall, hrun⟩
  · rw [hrun, ok_bind]
    exact .inl ⟨hall, _, rfl⟩
  · rw [hrun, fail_bind]
    exact .inr ⟨hall, rfl⟩

/-- The compatible reader has the version of the other one, and none if that fails. -/
theorem fst_parseCgroupProcFile (text : List UInt8) :
    (parseCgroupProcFile text).1 =
      match parseCgroupProcFileDetailed text with
      | .ok info => info.version
      | .error _ => .none := by
  unfold parseCgroupProcFile
  cases parseCgroupProcFileDetailed text <;> rfl

/-- The hierarchies of a written file are recovered in order, with the first path in the unified
one; a text with another line is refused; the version depends on the set of entries only. -/
theorem parse_cgroup_proc_file_detailed :
    (∀ entries terminated,
      parseCgroupProcFileDetailed (procCgroup entries terminated) = .ok (infoOf entries)) ∧
    (∀ text, parseCgroupProcFileDetailed text = fail .malformedData ↔ ¬ AllWellFormed text) ∧
    (∀ text, (∃ info, parseCgroupProcFileDetailed text = .ok info) ↔ AllWellFormed text) ∧
    ∀ a b terminated terminated', (∀ entry, entry ∈ a ↔ entry ∈ b) →
      (parseCgroupProcFileDetailed (procCgroup a terminated)).map ParsedCgroupInfo.version =
        (parseCgroupProcFileDetailed (procCgroup b terminated')).map ParsedCgroupInfo.version := by
  refine ⟨parseCgroupProcFileDetailed_procCgroup, ?_, ?_, ?_⟩
  · intro text
    rcases parseCgroupProcFileDetailed_cases text with ⟨hall, info, hrun⟩ | ⟨hall, hrun⟩
    · simp [hrun, hall]
    · simp [hrun, hall]
  · intro text
    rcases parseCgroupProcFileDetailed_cases text with ⟨hall, info, hrun⟩ | ⟨hall, hrun⟩
    · simp [hrun, hall]
    · simp [hrun, hall]
  · intro a b terminated terminated' h
    rw [parseCgroupProcFileDetailed_procCgroup, parseCgroupProcFileDetailed_procCgroup]
    exact congrArg Except.ok (version_infoOf_congr h)

/-- A carriage return at the end of a path is taken for the end of the line. -/
theorem parse_cgroup_proc_file_detailed_return :
    parseCgroupProcFileDetailed (ascii "1:cpu:/a\r\n") =
      .ok ⟨.v1, [], [⟨[ascii "cpu"], ascii "/a"⟩]⟩ := by
  have hline : lines 0x0A (ascii "1:cpu:/a\r\n") = [ascii "1:cpu:/a\r"] :=
    @lines_append_sep _ _ 0x0A (ascii "1:cpu:/a\r") (by decide) []
  have hnames : splitCommas (ascii "cpu") = [ascii "cpu"] := by
    rw [splitCommas, lines_of_not_mem (by decide) (by decide)]
    decide
  have hfields := @cgroupFields_eq {} (ascii "1") (ascii "cpu") (ascii "/a") (by decide) (by decide)
  rw [hnames] at hfields
  unfold parseCgroupProcFileDetailed
  rw [hline, List.foldlM_cons]
  change (cgroupFields {} (ascii "1:cpu:/a") >>= _) >>= _ = _
  rw [show ascii "1:cpu:/a" = ascii "1" ++ 0x3A :: (ascii "cpu" ++ 0x3A :: ascii "/a") from rfl,
    hfields]
  rfl

end Texts

end Syscape.Cgroup
