import Syscape.Software
import Syscape.Lib.LastValue

/-!
# The status file of dpkg

The reader of the package database, line by line; the stanzas as they are written; and
what the reader makes of them. A package that is installed is listed unless its status
is not exactly the usual one.
-/
namespace Syscape.Software
open Text Lines LastValue

section Reading

/-- The locals of `parse_dpkg_status`, and its output parameter. -/
structure DpkgState where
  out : List PackageRecord
  current : PackageRecord
  isInstalled : Bool
  deriving DecidableEq, Repr

def emptyDpkgRecord : PackageRecord := { format := .dpkg }

/-- The lambda `finish_record`. -/
def finishRecord (s : DpkgState) : DpkgState where
  out := if s.current.name ≠ [] ∧ s.isInstalled then s.out ++ [s.current] else s.out
  current := emptyDpkgRecord
  isInstalled := false

/-- What the loop does with a key and its value. -/
def setField (s : DpkgState) (key val : List UInt8) : DpkgState :=
  if key = ascii "Package" then { s with current := { s.current with name := val } }
  else if key = ascii "Version" then { s with current := { s.current with version := some val } }
  else if key = ascii "Architecture" then
    { s with current := { s.current with architecture := some val } }
  else if key = ascii "Maintainer" then
    { s with current := { s.current with publisher := some val } }
  else if key = ascii "Description" then
    { s with current := { s.current with description := some val } }
  else if key = ascii "Status" then { s with isInstalled := val = ascii "install ok installed" }
  else s

/-- The body of the loop. -/
def parseDpkgLine (s : DpkgState) (rawLine : List UInt8) : DpkgState :=
  let line := trimWhitespaceView rawLine
  if line = [] then finishRecord s
  -- a continuation line of a field such as the description
  else if rawLine.head? = some 0x20 ∨ rawLine.head? = some 0x09 then s
  else if 0x3A ∉ line then s
  else setField s (trimWhitespaceView (line.takeWhile (· ≠ 0x3A)))
    (trimWhitespaceView ((line.dropWhile (· ≠ 0x3A)).drop 1))

/-- `parse_dpkg_status`: what it returns, and the packages in its output parameter. -/
def parseDpkgStatus (content : List UInt8) (out : List PackageRecord) :
    Bool × List PackageRecord :=
  (true, (finishRecord ((lines 0x0A content).foldl parseDpkgLine ⟨out, emptyDpkgRecord, false⟩)).out)

end Reading

section Stanzas

/-- A line that is empty or has white space only. -/
structure BlankLine where
  bytes : List UInt8
  blank : ∀ c ∈ bytes, isspace c = true
  line : 0x0A ∉ bytes

/-- A further line of a field begins with a blank and is not blank. -/
structure ContinuationLine where
  bytes : List UInt8
  indented : bytes.head? = some 0x20 ∨ bytes.head? = some 0x09
  nonblank : ∃ c ∈ bytes, isspace c = false
  line : 0x0A ∉ bytes

/-- A field: its name, what follows the colon in its line, and its further lines. -/
structure Field where
  name : List UInt8
  name_ne : name ≠ []
  name_bytes : ∀ c ∈ name, isspace c = false ∧ c ≠ 0x3A
  text : List UInt8
  text_line : 0x0A ∉ text
  continuation : List ContinuationLine

namespace Field

def firstLine (f : Field) : List UInt8 := f.name ++ 0x3A :: f.text

def lines (f : Field) : List (List UInt8) := f.firstLine :: f.continuation.map (·.bytes)

/-- The value in the line of the field. -/
def value (f : Field) : List UInt8 := trimWhitespaceView f.text

/-- The value of the field if it has this name. -/
def valueOf (name : List UInt8) (f : Field) : Option (List UInt8) :=
  if f.name = name then some f.value else none

end Field

/-- The value that some fields give to a name. -/
def fieldValue (fields : List Field) (name : List UInt8) : Option (List UInt8) :=
  lastOf (Field.valueOf name) fields

/-- The fields of a package, which has a name. -/
structure Stanza where
  fields : List Field
  named : ∃ name, fieldValue fields (ascii "Package") = some name ∧ name ≠ []

/-- The record that some fields describe. -/
def recordOf (fields : List Field) : PackageRecord where
  name := (fieldValue fields (ascii "Package")).getD []
  version := fieldValue fields (ascii "Version")
  publisher := fieldValue fields (ascii "Maintainer")
  architecture := fieldValue fields (ascii "Architecture")
  format := .dpkg
  description := fieldValue fields (ascii "Description")

namespace Stanza

def lines (s : Stanza) : List (List UInt8) := s.fields.flatMap Field.lines

def status (s : Stanza) : Option (List UInt8) := fieldValue s.fields (ascii "Status")

/-- The package that the stanza describes. -/
def package (s : Stanza) : PackageRecord := recordOf s.fields

/-- The third word of the status, the state of the package, is `installed`. -/
def IsInstalled (s : Stanza) : Prop :=
  ∃ status ∈ s.status, (splitBlank isspace status)[2]? = some (ascii "installed")

instance (s : Stanza) : Decidable s.IsInstalled :=
  inferInstanceAs (Decidable (∃ status ∈ s.status, _))

end Stanza

/-- A status file: stanzas and the blank lines behind them. The last stanza may end the
file, with or without the newline of its last line. -/
structure StatusFile where
  before : List BlankLine
  stanzas : List (Stanza × BlankLine × List BlankLine)
  last : Option (Stanza × Bool)

namespace StatusFile

/-- The packages of the file. -/
def packages (file : StatusFile) : List Stanza :=
  file.stanzas.map (·.1) ++ (file.last.map (·.1)).toList

def bodyLines (file : StatusFile) : List (List UInt8) :=
  file.before.map (·.bytes) ++
    file.stanzas.flatMap fun entry =>
      entry.1.lines ++ entry.2.1.bytes :: entry.2.2.map (·.bytes)

def lastLines (file : StatusFile) : List (List UInt8) :=
  file.last.elim [] fun entry => entry.1.lines

def content (file : StatusFile) : List UInt8 :=
  file.bodyLines.flatMap (· ++ [0x0A]) ++
    match file.last with
    | none => []
    | some (s, true) => s.lines.flatMap (· ++ [0x0A])
    | some (s, false) => [0x0A].intercalate s.lines

end StatusFile

end Stanzas

section Lines

/-- A line of a field is taken apart at its first colon. -/
theorem parseDpkgLine_field (s : DpkgState) (f : Field) :
    parseDpkgLine s f.firstLine = setField s f.name f.value := by
  obtain ⟨core, back, htext, hback, hcore⟩ := exists_trimmed isspace f.text
  obtain ⟨c, name, hname⟩ := List.exists_cons_of_ne_nil f.name_ne
  have hc := f.name_bytes c (by simp [hname])
  have hline : trimWhitespaceView f.firstLine = f.name ++ 0x3A :: core := by
    have happend : f.firstLine = (f.name ++ 0x3A :: core) ++ back := by
      rw [Field.firstLine, htext]
      simp
    rw [happend, trimWhitespaceView_append hback]
    apply trimWhitespaceView_eq_self
    · rw [hname]
      simpa using hc.1
    · rw [List.getLast?_append_of_ne_nil _ (by simp)]
      cases core with
      | nil => simp [isspace]
      | cons d core => simpa using hcore
  have hvalue : trimWhitespaceView core = f.value := by
    rw [Field.value, htext, trimWhitespaceView_append hback]
  have hbefore : ∀ d ∈ f.name, decide (d ≠ 0x3A) = true := by
    intro d hd
    simpa using (f.name_bytes d hd).2
  have hstart : ¬ (f.firstLine.head? = some 0x20 ∨ f.firstLine.head? = some 0x09) := by
    rw [Field.firstLine, hname, List.cons_append, List.head?_cons, Option.some_inj, Option.some_inj]
    rintro (rfl | rfl)
    · exact absurd hc.1 (by decide)
    · exact absurd hc.1 (by decide)
  have hkey : trimWhitespaceView f.name = f.name := by
    apply trimWhitespaceView_eq_self
    · intro d hd
      exact (f.name_bytes d (List.mem_of_mem_head? hd)).1
    · intro d hd
      exact (f.name_bytes d (List.mem_of_mem_getLast? hd)).1
  unfold parseDpkgLine
  rw [hline]
  dsimp only
  rw [if_neg (by simp), if_neg hstart, if_neg (by simp), List.takeWhile_append_of_pos hbefore,
    List.dropWhile_append_of_pos hbefore, List.takeWhile_cons_of_neg (by simp),
    List.dropWhile_cons_of_neg (by simp), List.append_nil, List.drop_one, List.tail_cons, hkey,
    hvalue]

theorem parseDpkgLine_continuation (s : DpkgState) (c : ContinuationLine) :
    parseDpkgLine s c.bytes = s := by
  have hne : trimWhitespaceView c.bytes ≠ [] := trim_ne_nil c.nonblank
  unfold parseDpkgLine
  dsimp only
  rw [if_neg hne, if_pos c.indented]

theorem parseDpkgLine_blank (s : DpkgState) (b : BlankLine) :
    parseDpkgLine s b.bytes = finishRecord s := by
  unfold parseDpkgLine
  dsimp only
  rw [if_pos (trimWhitespaceView_blank b.blank)]

/-- The further lines of a field say nothing. -/
theorem foldl_field_lines (s : DpkgState) (f : Field) :
    f.lines.foldl parseDpkgLine s = setField s f.name f.value := by
  have hcontinuation : ∀ (cs : List ContinuationLine) (s : DpkgState),
      (cs.map (·.bytes)).foldl parseDpkgLine s = s := by
    intro cs s
    induction cs with
    | nil => rfl
    | cons c cs ih => rw [List.map_cons, List.foldl_cons, parseDpkgLine_continuation, ih]
  rw [Field.lines, List.foldl_cons, parseDpkgLine_field, hcontinuation]

/-- The state behind some fields of a stanza. -/
def stateOf (out : List PackageRecord) (fields : List Field) : DpkgState :=
  ⟨out, recordOf fields, fieldValue fields (ascii "Status") = some (ascii "install ok installed")⟩

theorem fieldValue_concat (fields : List Field) (f : Field) (name : List UInt8) :
    fieldValue (fields ++ [f]) name =
      if f.name = name then some f.value else fieldValue fields name := by
  rw [fieldValue, lastOf_concat, Field.valueOf]
  split_ifs
  · rfl
  · rfl

theorem setField_stateOf (out : List PackageRecord) (fields : List Field) (f : Field) :
    setField (stateOf out fields) f.name f.value = stateOf out (fields ++ [f]) := by
  unfold setField stateOf recordOf
  simp only [fieldValue_concat]
  split_ifs <;> simp_all +decide

theorem foldl_stanza_lines (out : List PackageRecord) (s : Stanza) :
    s.lines.foldl parseDpkgLine (stateOf out []) = stateOf out s.fields := by
  have hfields : ∀ fields : List Field,
      (fields.flatMap Field.lines).foldl parseDpkgLine (stateOf out []) = stateOf out fields := by
    intro fields
    induction fields using List.reverseRecOn with
    | nil => rfl
    | append_singleton fields f ih =>
      rw [List.flatMap_append, List.foldl_append, ih, List.flatMap_singleton, foldl_field_lines,
        setField_stateOf]
  exact hfields s.fields

end Lines

section Files

/-- The reader takes the package for installed: its status is exactly this. -/
def ReadsInstalled (s : Stanza) : Prop := s.status = some (ascii "install ok installed")

instance (s : Stanza) : Decidable (ReadsInstalled s) := inferInstanceAs (Decidable (_ = _))

theorem finishRecord_empty (out : List PackageRecord) :
    finishRecord (stateOf out []) = stateOf out [] := rfl

theorem finishRecord_stanza (out : List PackageRecord) (s : Stanza) :
    finishRecord (stateOf out s.fields) =
      stateOf (out ++ ([s].filter (ReadsInstalled ·)).map Stanza.package) [] := by
  obtain ⟨name, hname, hne⟩ := s.named
  have hnonempty : (recordOf s.fields).name ≠ [] := by
    rw [recordOf, hname]
    exact hne
  unfold finishRecord
  by_cases hstatus : ReadsInstalled s
  · rw [List.filter_cons_of_pos (by simpa using hstatus), if_pos]
    · rfl
    · exact ⟨hnonempty, decide_eq_true hstatus⟩
  · rw [List.filter_cons_of_neg (by simpa using hstatus), List.filter_nil, List.map_nil,
      List.append_nil, if_neg]
    · rfl
    · rintro ⟨-, hinstalled⟩
      exact hstatus (of_decide_eq_true hinstalled)

theorem foldl_blank_lines (out : List PackageRecord) (bs : List BlankLine) :
    (bs.map (·.bytes)).foldl parseDpkgLine (stateOf out []) = stateOf out [] := by
  induction bs with
  | nil => rfl
  | cons b bs ih =>
    rw [List.map_cons, List.foldl_cons, parseDpkgLine_blank, finishRecord_empty, ih]

/-- A stanza with blank lines behind it adds its package. -/
theorem foldl_entries (out : List PackageRecord)
    (entries : List (Stanza × BlankLine × List BlankLine)) :
    (entries.flatMap fun entry =>
        entry.1.lines ++ entry.2.1.bytes :: entry.2.2.map (·.bytes)).foldl parseDpkgLine
          (stateOf out []) =
      stateOf (out ++ ((entries.map (·.1)).filter (ReadsInstalled ·)).map Stanza.package) [] := by
  induction entries generalizing out with
  | nil =>
    rw [List.map_nil, List.filter_nil, List.map_nil, List.append_nil]
    rfl
  | cons entry entries ih =>
    obtain ⟨s, b, bs⟩ := entry
    rw [List.flatMap_cons, List.foldl_append, List.foldl_append, foldl_stanza_lines,
      List.foldl_cons, parseDpkgLine_blank, finishRecord_stanza, foldl_blank_lines, ih,
      List.append_assoc, ← List.map_append, ← List.filter_append]
    rfl

theorem Stanza.lines_ok (s : Stanza) : ∀ line ∈ s.lines, 0x0A ∉ line ∧ line ≠ [] := by
  intro line hline
  obtain ⟨f, -, hf⟩ := List.mem_flatMap.mp hline
  rcases List.mem_cons.mp hf with rfl | hcontinuation
  · refine ⟨?_, by simp [Field.firstLine]⟩
    intro hmem
    rcases List.mem_append.mp hmem with hname | htext
    · exact absurd (f.name_bytes _ hname).1 (by decide)
    · rcases List.mem_cons.mp htext with hcolon | htext
      · exact absurd hcolon (by decide)
      · exact f.text_line htext
  · obtain ⟨c, -, rfl⟩ := List.mem_map.mp hcontinuation
    obtain ⟨d, hd, -⟩ := c.nonblank
    exact ⟨c.line, List.ne_nil_of_mem hd⟩

theorem StatusFile.bodyLines_ok (file : StatusFile) : ∀ line ∈ file.bodyLines, 0x0A ∉ line := by
  intro line hline
  rcases List.mem_append.mp hline with hbefore | hbody
  · obtain ⟨b, -, rfl⟩ := List.mem_map.mp hbefore
    exact b.line
  · obtain ⟨⟨s, b, bs⟩, -, hentry⟩ := List.mem_flatMap.mp hbody
    rcases List.mem_append.mp hentry with hstanza | hblank
    · exact (s.lines_ok line hstanza).1
    · rcases List.mem_cons.mp hblank with rfl | hmore
      · exact b.line
      · obtain ⟨b', -, rfl⟩ := List.mem_map.mp hmore
        exact b'.line

/-- The reader sees the lines of the file as they are. -/
theorem StatusFile.lines_content (file : StatusFile) :
    Lines.lines 0x0A file.content = file.bodyLines ++ file.lastLines := by
  rw [StatusFile.content, lines_flatMap file.bodyLines_ok, StatusFile.lastLines]
  congr 1
  match file.last with
  | none => exact lines_nil
  | some (s, true) => exact lines_written s.lines_ok true
  | some (s, false) => exact lines_written s.lines_ok false

/-- The reader lists the packages with the usual status. -/
theorem parseDpkgStatus_content (file : StatusFile) (out : List PackageRecord) :
    parseDpkgStatus file.content out =
      (true, out ++ (file.packages.filter (ReadsInstalled ·)).map Stanza.package) := by
  have hstart : (⟨out, emptyDpkgRecord, false⟩ : DpkgState) = stateOf out [] := rfl
  rw [parseDpkgStatus, hstart, file.lines_content, List.foldl_append, StatusFile.bodyLines,
    List.foldl_append, foldl_blank_lines, foldl_entries, StatusFile.packages, StatusFile.lastLines,
    List.filter_append, List.map_append, ← List.append_assoc]
  cases file.last with
  | none =>
    rw [Option.map_none, Option.toList_none, List.filter_nil, List.map_nil, List.append_nil]
    rfl
  | some entry =>
    rw [Option.elim_some, foldl_stanza_lines, finishRecord_stanza]
    rfl

end Files

section Installed

/-- The reader lists exactly the packages whose state is `installed`. -/
def ListsInstalled (file : StatusFile) : Prop :=
  ∀ out, parseDpkgStatus file.content out =
    (true, out ++ (file.packages.filter (Stanza.IsInstalled ·)).map Stanza.package)

theorem isInstalled_of_readsInstalled {s : Stanza} (h : ReadsInstalled s) : s.IsInstalled :=
  ⟨_, h, by decide +kernel⟩

/-- A package that is installed is listed if and only if its status is exactly the usual
one; so the reader is right if all installed packages have it. -/
theorem dpkg_lists_installed_iff (file : StatusFile) :
    ListsInstalled file ↔ ∀ s ∈ file.packages, s.IsInstalled → ReadsInstalled s := by
  have hfilter : (file.packages.filter (Stanza.IsInstalled ·)).filter (ReadsInstalled ·) =
      file.packages.filter (ReadsInstalled ·) := by
    rw [List.filter_filter]
    apply List.filter_congr
    intro s _
    by_cases hreads : ReadsInstalled s
    · simp [hreads, isInstalled_of_readsInstalled hreads]
    · simp [hreads]
  constructor
  · intro h s hs hinstalled
    have hlists := h []
    rw [parseDpkgStatus_content, Prod.mk.injEq, List.nil_append, List.nil_append] at hlists
    have hlength := congrArg List.length hlists.2
    rw [List.length_map, List.length_map, ← hfilter, List.length_filter_eq_length_iff] at hlength
    have hmem : s ∈ file.packages.filter (Stanza.IsInstalled ·) :=
      List.mem_filter.mpr ⟨hs, decide_eq_true hinstalled⟩
    exact of_decide_eq_true (hlength s hmem)
  · intro h out
    rw [parseDpkgStatus_content, ← hfilter, List.filter_eq_self.mpr]
    intro s hs
    obtain ⟨hmem, hinstalled⟩ := List.mem_filter.mp hs
    exact decide_eq_true (h s hmem (of_decide_eq_true hinstalled))

/-- A field in one line. -/
def plainField (name text : List UInt8) (name_ne : name ≠ [])
    (name_bytes : ∀ c ∈ name, isspace c = false ∧ c ≠ 0x3A) (text_line : 0x0A ∉ text) : Field :=
  ⟨name, name_ne, name_bytes, text, text_line, []⟩

/-- A package that is installed and held. -/
def heldPackage : Stanza where
  fields :=
    [plainField (ascii "Package") (ascii " libc6") (by decide) (forall_of_all (by decide))
      (by decide),
    plainField (ascii "Status") (ascii " hold ok installed") (by decide)
      (forall_of_all (by decide)) (by decide)]
  named := ⟨ascii "libc6", by decide, by decide⟩

/-- The reader drops a package that is installed and held. -/
theorem held_package_dropped :
    heldPackage.IsInstalled ∧ ¬ ListsInstalled ⟨[], [], some (heldPackage, true)⟩ := by
  refine ⟨by decide +kernel, ?_⟩
  intro h
  exact absurd (h []) (by decide +kernel)

end Installed

end Syscape.Software
