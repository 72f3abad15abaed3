import Syscape.DpkgStatus
import Syscape.IniFiles

/-!
# Package databases

The readers of the package descriptions of pacman, of the database of apk and of desktop entries,
and what they make of such files as they are written.
-/
namespace Syscape.Software
open Text Lines LastValue

section Pacman

/-- The local of `parse_pacman_desc` that holds the tag, and its output parameter. -/
structure PacmanState where
  out : PackageRecord
  currentTag : List UInt8

/-- The line is a tag. -/
def IsTagLine (line : List UInt8) : Prop :=
  line.head? = some 0x25 ∧ line.getLast? = some 0x25 ∧ line.length ≥ 3

instance (line : List UInt8) : Decidable (IsTagLine line) :=
  inferInstanceAs (Decidable (_ ∧ _ ∧ _))

/-- What the loop does with a line behind a tag. -/
def setPacmanField (s : PacmanState) (line : List UInt8) : PacmanState :=
  if s.currentTag = ascii "NAME" ∧ s.out.name = [] then
    { s with out := { s.out with name := line } }
  else if s.currentTag = ascii "VERSION" ∧ s.out.version = none then
    { s with out := { s.out with version := some line } }
  else if s.currentTag = ascii "DESC" ∧ s.out.description = none then
    { s with out := { s.out with description := some line } }
  else if s.currentTag = ascii "ARCH" ∧ s.out.architecture = none then
    { s with out := { s.out with architecture := some line } }
  else if s.currentTag = ascii "PACKAGER" ∧ s.out.publisher = none then
    { s with out := { s.out with publisher := some line } }
  else s

/-- The body of the loop. -/
def parsePacmanLine (s : PacmanState) (rawLine : List UInt8) : PacmanState :=
  let line := trimWhitespaceView rawLine
  if line = [] then s
  else if IsTagLine line then { s with currentTag := (line.drop 1).dropLast }
  else setPacmanField s line

/-- `parse_pacman_desc`: the record in its output parameter, if it returns true. -/
def parsePacmanDesc (content : List UInt8) : Option PackageRecord :=
  let s := (lines 0x0A content).foldl parsePacmanLine ⟨{ format := .pacman }, []⟩
  if s.out.name ≠ [] then some s.out else none

end Pacman

section Apk

/-- The locals of `parse_apk_installed` and its output parameter. -/
structure ApkState where
  out : List PackageRecord
  current : PackageRecord

def emptyApkRecord : PackageRecord := { format := .apk }

/-- The lambda `finish_record`. -/
def finishApkRecord (s : ApkState) : ApkState where
  out := if s.current.name ≠ [] then s.out ++ [s.current] else s.out
  current := emptyApkRecord

/-- What the loop does with a tag and its value. -/
def setApkField (current : PackageRecord) (tag : UInt8) (val : List UInt8) : PackageRecord :=
  if tag = 0x50 then { current with name := val }
  else if tag = 0x56 then { current with version := some val }
  else if tag = 0x54 then { current with description := some val }
  else if tag = 0x41 then { current with architecture := some val }
  else if tag = 0x6D then { current with publisher := some val }
  else current

/-- The body of the loop. -/
def parseApkLine (s : ApkState) (rawLine : List UInt8) : ApkState :=
  match trimWhitespaceView rawLine with
  | [] => finishApkRecord s
  | tag :: 0x3A :: val => { s with current := setApkField s.current tag (trimWhitespaceView val) }
  | _ => s

/-- `parse_apk_installed`: the packages in its output parameter; it always returns true. -/
def parseApkInstalled (content : List UInt8) (out : List PackageRecord) : List PackageRecord :=
  (finishApkRecord ((lines 0x0A content).foldl parseApkLine ⟨out, emptyApkRecord⟩)).out

end Apk

section Desktop

/-- The locals of `parse_desktop_entry` and its output parameter. -/
structure DesktopState where
  out : PackageRecord
  inDesktopEntry : Bool
  isApplicationType : Bool
  genericName : List UInt8

/-- The loop at a header. -/
def desktopHeader (s : DesktopState) (line : List UInt8) : DesktopState :=
  { s with inDesktopEntry := line = ascii "[Desktop Entry]" }

/-- The loop with a key and its value. -/
def setDesktopField (s : DesktopState) (key val : List UInt8) : DesktopState :=
  if ¬ s.inDesktopEntry then s
  else if key = ascii "Type" then
    if val = ascii "Application" then { s with isApplicationType := true } else s
  else if key = ascii "Name" ∧ s.out.name = [] then { s with out := { s.out with name := val } }
  else if key = ascii "Version" ∧ s.out.version = none then
    { s with out := { s.out with version := some val } }
  else if key = ascii "Comment" ∧ s.out.description = none then
    { s with out := { s.out with description := some val } }
  else if key = ascii "GenericName" ∧ s.genericName = [] then { s with genericName := val }
  else s

/-- What follows the loop. -/
def finishDesktop (s : DesktopState) : Option PackageRecord :=
  if ¬ s.isApplicationType then none
  else
    let out := if s.out.description = none ∧ s.genericName ≠ [] then
      { s.out with description := some s.genericName } else s.out
    if out.name ≠ [] then some out else none

/-- `parse_desktop_entry`: the record in its output parameter, if it returns true. -/
def parseDesktopEntry (content : List UInt8) : Option PackageRecord :=
  finishDesktop ((lines 0x0A content).foldl (readIniLine desktopHeader setDesktopField)
    ⟨{ format := .desktopEntry }, false, false, []⟩)

end Desktop

section Descriptions

/-- A value of a tag, as it stands on a line. -/
structure DescValue where
  bytes : List UInt8
  nonempty : bytes ≠ []
  trimmed : trimWhitespaceView bytes = bytes
  no_tag : ¬ IsTagLine bytes
  line : 0x0A ∉ bytes

/-- A tag, its values, and the blank lines behind them. -/
structure DescSection where
  tag : List UInt8
  tag_ne : tag ≠ []
  tag_line : 0x0A ∉ tag
  values : List DescValue
  blanks : List BlankLine

def DescSection.header (d : DescSection) : List UInt8 := 0x25 :: (d.tag ++ [0x25])

def DescSection.lines (d : DescSection) : List (List UInt8) :=
  d.header :: (d.values.map DescValue.bytes ++ d.blanks.map BlankLine.bytes)

/-- The values with their tag. -/
def DescSection.entries (d : DescSection) : List (List UInt8 × List UInt8) :=
  d.values.map fun v => (d.tag, v.bytes)

/-- The description of a package. -/
structure DescFile where
  sections : List DescSection

def DescFile.content (file : DescFile) : List UInt8 :=
  (file.sections.flatMap DescSection.lines).flatMap (· ++ [0x0A])

def DescFile.entries (file : DescFile) : List (List UInt8 × List UInt8) :=
  file.sections.flatMap DescSection.entries

/-- The record of some entries: of each tag that counts, the first value. -/
def pacmanRecord (entries : List (List UInt8 × List UInt8)) : PackageRecord where
  name := (valuesOf (ascii "NAME") entries).head?.getD []
  version := (valuesOf (ascii "VERSION") entries).head?
  publisher := (valuesOf (ascii "PACKAGER") entries).head?
  architecture := (valuesOf (ascii "ARCH") entries).head?
  format := .pacman
  description := (valuesOf (ascii "DESC") entries).head?

/-- The package that the description is about, if it has a name. -/
def DescFile.package (file : DescFile) : Option PackageRecord :=
  if valuesOf (ascii "NAME") file.entries = [] then none else some (pacmanRecord file.entries)

theorem parsePacmanLine_blank (s : PacmanState) (b : BlankLine) : parsePacmanLine s b.bytes = s :=
  if_pos (trimWhitespaceView_blank b.blank)

theorem parsePacmanLine_header (s : PacmanState) (d : DescSection) :
    parsePacmanLine s d.header = { s with currentTag := d.tag } := by
  have hlast : d.header.getLast? = some 0x25 := by
    rw [DescSection.header, ← List.cons_append, List.getLast?_concat]
  have hline : trimWhitespaceView d.header = d.header := by
    apply trimWhitespaceView_eq_self
    · simp [DescSection.header, isspace]
    · rw [hlast]
      simp [isspace]
  have hlength : d.header.length ≥ 3 := by
    have hpos := List.length_pos_iff.mpr d.tag_ne
    rw [DescSection.header, List.length_cons, List.length_append, List.length_singleton]
    omega
  have htag : (d.header.drop 1).dropLast = d.tag := List.dropLast_concat
  unfold parsePacmanLine
  rw [hline]
  dsimp only
  rw [if_neg (by simp [DescSection.header]), if_pos ⟨rfl, hlast, hlength⟩, htag]

theorem parsePacmanLine_value (s : PacmanState) (v : DescValue) :
    parsePacmanLine s v.bytes = setPacmanField s v.bytes := by
  unfold parsePacmanLine
  rw [v.trimmed]
  dsimp only
  rw [if_neg v.nonempty, if_neg v.no_tag]

/-- A further value counts if it is the first one of its tag. -/
theorem setPacmanField_pacmanRecord {entries : List (List UInt8 × List UInt8)}
    (hentries : ∀ e ∈ entries, e.2 ≠ []) {tag : List UInt8} (v : DescValue) :
    setPacmanField ⟨pacmanRecord entries, tag⟩ v.bytes =
      ⟨pacmanRecord (entries ++ [(tag, v.bytes)]), tag⟩ := by
  have hname : (pacmanRecord entries).name = [] ↔
      (valuesOf (ascii "NAME") entries).head? = none := by
    show (valuesOf (ascii "NAME") entries).head?.getD [] = [] ↔ _
    cases hfirst : (valuesOf (ascii "NAME") entries).head? with
    | none => simp
    | some first =>
      obtain ⟨e, he, rfl⟩ := List.mem_map.mp (List.mem_of_mem_head? hfirst)
      simpa using hentries e (List.mem_of_mem_filter he)
  have hnext : pacmanRecord (entries ++ [(tag, v.bytes)]) =
      { name := (if tag = ascii "NAME" ∧ (valuesOf (ascii "NAME") entries).head? = none then
          some v.bytes else (valuesOf (ascii "NAME") entries).head?).getD []
        version := if tag = ascii "VERSION" ∧ (valuesOf (ascii "VERSION") entries).head? = none then
          some v.bytes else (valuesOf (ascii "VERSION") entries).head?
        publisher :=
          if tag = ascii "PACKAGER" ∧ (valuesOf (ascii "PACKAGER") entries).head? = none then
          some v.bytes else (valuesOf (ascii "PACKAGER") entries).head?
        architecture := if tag = ascii "ARCH" ∧ (valuesOf (ascii "ARCH") entries).head? = none then
          some v.bytes else (valuesOf (ascii "ARCH") entries).head?
        format := .pacman
        description := if tag = ascii "DESC" ∧ (valuesOf (ascii "DESC") entries).head? = none then
          some v.bytes else (valuesOf (ascii "DESC") entries).head? } := by
    simp only [pacmanRecord, valuesOf_concat, head?_append_ite]
  rw [hnext]
  unfold setPacmanField
  simp only [hname]
  unfold pacmanRecord
  split_ifs <;> simp_all +decide

theorem foldl_descValues {entries : List (List UInt8 × List UInt8)}
    (hentries : ∀ e ∈ entries, e.2 ≠ []) (tag : List UInt8) (values : List DescValue) :
    (values.map DescValue.bytes).foldl parsePacmanLine ⟨pacmanRecord entries, tag⟩ =
      ⟨pacmanRecord (entries ++ values.map fun v => (tag, v.bytes)), tag⟩ := by
  induction values generalizing entries with
  | nil => rw [List.map_nil, List.map_nil, List.append_nil, List.foldl_nil]
  | cons v values ih =>
    have hmore : ∀ e ∈ entries ++ [(tag, v.bytes)], e.2 ≠ [] := by
      intro e he
      rcases List.mem_append.mp he with he | he
      · exact hentries e he
      · rw [List.mem_singleton.mp he]
        exact v.nonempty
    rw [List.map_cons, List.foldl_cons, parsePacmanLine_value,
      setPacmanField_pacmanRecord hentries, ih hmore, List.append_assoc, List.map_cons,
      List.singleton_append]

theorem DescFile.entries_ne (sections : List DescSection) :
    ∀ e ∈ sections.flatMap DescSection.entries, e.2 ≠ [] := by
  intro e he
  obtain ⟨d, -, hd⟩ := List.mem_flatMap.mp he
  obtain ⟨v, -, rfl⟩ := List.mem_map.mp hd
  exact v.nonempty

theorem foldl_descSections (sections : List DescSection) (tag : List UInt8) :
    ∃ tag', (sections.flatMap DescSection.lines).foldl parsePacmanLine ⟨pacmanRecord [], tag⟩ =
      ⟨pacmanRecord (sections.flatMap DescSection.entries), tag'⟩ := by
  have hblanks : ∀ (s : PacmanState) (bs : List BlankLine),
      (bs.map BlankLine.bytes).foldl parsePacmanLine s = s := by
    intro s bs
    induction bs with
    | nil => rfl
    | cons b bs ih => rw [List.map_cons, List.foldl_cons, parsePacmanLine_blank, ih]
  induction sections using List.reverseRecOn with
  | nil => exact ⟨tag, rfl⟩
  | append_singleton sections d ih =>
    obtain ⟨tag', hbefore⟩ := ih
    refine ⟨d.tag, ?_⟩
    rw [List.flatMap_append, List.foldl_append, hbefore, List.flatMap_singleton, DescSection.lines,
      List.foldl_cons, parsePacmanLine_header, List.foldl_append,
      foldl_descValues (DescFile.entries_ne sections), hblanks, List.flatMap_append,
      List.flatMap_singleton]
    rfl

theorem DescFile.lines_content (file : DescFile) :
    Lines.lines 0x0A file.content = file.sections.flatMap DescSection.lines := by
  apply lines_flatMap_sep
  intro line hline
  obtain ⟨d, -, hd⟩ := List.mem_flatMap.mp hline
  rcases List.mem_cons.mp hd with rfl | hd
  · simpa [DescSection.header] using d.tag_line
  · rcases List.mem_append.mp hd with hd | hd
    · obtain ⟨v, -, rfl⟩ := List.mem_map.mp hd
      exact v.line
    · obtain ⟨b, -, rfl⟩ := List.mem_map.mp hd
      exact b.line

/-- The reader finds the package of a description. -/
theorem parsePacmanDesc_content (file : DescFile) : parsePacmanDesc file.content = file.package := by
  obtain ⟨tag, hsections⟩ := foldl_descSections file.sections []
  have hstart : (⟨{ format := .pacman }, []⟩ : PacmanState) = ⟨pacmanRecord [], []⟩ := rfl
  rw [parsePacmanDesc, file.lines_content, hstart, hsections, DescFile.package]
  show (if (pacmanRecord file.entries).name ≠ [] then some (pacmanRecord file.entries) else none) = _
  cases hvalues : valuesOf (ascii "NAME") file.entries with
  | nil =>
    have hname : (pacmanRecord file.entries).name = [] := by rw [pacmanRecord, hvalues]; rfl
    rw [if_neg (not_not_intro hname), if_pos rfl]
  | cons name names =>
    have hname : (pacmanRecord file.entries).name = name := by rw [pacmanRecord, hvalues]; rfl
    have hmem : name ∈ valuesOf (ascii "NAME") file.entries := by simp [hvalues]
    obtain ⟨e, he, rfl⟩ := List.mem_map.mp hmem
    have hne := DescFile.entries_ne file.sections e (List.mem_of_mem_filter he)
    rw [if_neg (List.cons_ne_nil _ _), if_pos]
    rw [hname]
    exact hne

end Descriptions

section ApkFiles

/-- A line with a tag and what follows the colon. -/
structure ApkField where
  tag : UInt8
  tag_nonblank : isspace tag = false
  text : List UInt8
  text_line : 0x0A ∉ text

def ApkField.bytes (f : ApkField) : List UInt8 := f.tag :: 0x3A :: f.text

def ApkField.value (f : ApkField) : List UInt8 := trimWhitespaceView f.text

/-- The value of the field if it has this tag. -/
def ApkField.valueOf (tag : UInt8) (f : ApkField) : Option (List UInt8) :=
  if f.tag = tag then some f.value else none

/-- A database: the fields of packages, with a blank line behind each but the last. -/
structure ApkFile where
  stanzas : List (List ApkField × BlankLine)
  last : List ApkField

def ApkFile.lines (file : ApkFile) : List (List UInt8) :=
  (file.stanzas.flatMap fun entry => entry.1.map ApkField.bytes ++ [entry.2.bytes]) ++
    file.last.map ApkField.bytes

def ApkFile.content (file : ApkFile) : List UInt8 := file.lines.flatMap (· ++ [0x0A])

/-- The record of some fields: of each tag that counts, the last value. -/
def apkRecord (fields : List ApkField) : PackageRecord where
  name := (lastOf (ApkField.valueOf 0x50) fields).getD []
  version := lastOf (ApkField.valueOf 0x56) fields
  publisher := lastOf (ApkField.valueOf 0x6D) fields
  architecture := lastOf (ApkField.valueOf 0x41) fields
  format := .apk
  description := lastOf (ApkField.valueOf 0x54) fields

/-- The packages of the database that have a name. -/
def ApkFile.packages (file : ApkFile) : List PackageRecord :=
  ((file.stanzas.map (·.1) ++ [file.last]).map apkRecord).filter (·.name ≠ [])

theorem parseApkLine_field (s : ApkState) (f : ApkField) :
    parseApkLine s f.bytes = { s with current := setApkField s.current f.tag f.value } := by
  obtain ⟨core, back, htext, hback, hcore⟩ := exists_trimmed isspace f.text
  have hline : trimWhitespaceView f.bytes = f.tag :: 0x3A :: core := by
    have happend : f.bytes = (f.tag :: 0x3A :: core) ++ back := by
      rw [ApkField.bytes, htext]
      rfl
    rw [happend, trimWhitespaceView_append hback]
    apply trimWhitespaceView_eq_self
    · simpa using f.tag_nonblank
    · cases core with
      | nil => simp [isspace]
      | cons d core => simpa using hcore
  have hvalue : trimWhitespaceView core = f.value := by
    rw [ApkField.value, htext, trimWhitespaceView_append hback]
  unfold parseApkLine
  rw [hline]
  exact congrArg (fun val => { s with current := setApkField s.current f.tag val }) hvalue

theorem parseApkLine_blank (s : ApkState) (b : BlankLine) :
    parseApkLine s b.bytes = finishApkRecord s := by
  unfold parseApkLine
  rw [trimWhitespaceView_blank b.blank]

theorem setApkField_apkRecord (fields : List ApkField) (f : ApkField) :
    setApkField (apkRecord fields) f.tag f.value = apkRecord (fields ++ [f]) := by
  have hnext : ∀ tag, lastOf (ApkField.valueOf tag) (fields ++ [f]) =
      if f.tag = tag then some f.value else lastOf (ApkField.valueOf tag) fields := by
    intro tag
    rw [lastOf_concat, ApkField.valueOf]
    split_ifs
    · rfl
    · rfl
  unfold setApkField apkRecord
  simp only [hnext]
  split_ifs <;> simp_all +decide

theorem foldl_apkFields (out : List PackageRecord) (fields : List ApkField) :
    (fields.map ApkField.bytes).foldl parseApkLine ⟨out, emptyApkRecord⟩ =
      ⟨out, apkRecord fields⟩ := by
  induction fields using List.reverseRecOn with
  | nil => rfl
  | append_singleton fields f ih =>
    rw [List.map_append, List.foldl_append, ih, List.map_singleton, List.foldl_cons, List.foldl_nil,
      parseApkLine_field, setApkField_apkRecord]

theorem finishApkRecord_eq (out : List PackageRecord) (rec : PackageRecord) :
    finishApkRecord ⟨out, rec⟩ = ⟨out ++ [rec].filter (·.name ≠ []), emptyApkRecord⟩ := by
  unfold finishApkRecord
  by_cases hname : rec.name = []
  · simp [hname]
  · simp [hname]

theorem foldl_apkStanzas (out : List PackageRecord) (stanzas : List (List ApkField × BlankLine)) :
    (stanzas.flatMap fun entry => entry.1.map ApkField.bytes ++ [entry.2.bytes]).foldl parseApkLine
        ⟨out, emptyApkRecord⟩ =
      ⟨out ++ ((stanzas.map (·.1)).map apkRecord).filter (·.name ≠ []), emptyApkRecord⟩ := by
  induction stanzas generalizing out with
  | nil => rw [List.map_nil, List.map_nil, List.filter_nil, List.append_nil]; rfl
  | cons entry stanzas ih =>
    rw [List.flatMap_cons, List.foldl_append, List.foldl_append, foldl_apkFields, List.foldl_cons,
      List.foldl_nil, parseApkLine_blank, finishApkRecord_eq, ih, List.append_assoc,
      ← List.filter_append]
    rfl

theorem ApkFile.lines_content (file : ApkFile) : Lines.lines 0x0A file.content = file.lines := by
  have hfield : ∀ f : ApkField, 0x0A ∉ f.bytes := by
    intro f hmem
    rcases List.mem_cons.mp hmem with htag | hmem
    · have hblank := f.tag_nonblank
      rw [← htag] at hblank
      exact absurd hblank (by decide)
    · rcases List.mem_cons.mp hmem with hcolon | htext
      · exact absurd hcolon (by decide)
      · exact f.text_line htext
  apply lines_flatMap_sep
  intro line hline
  rcases List.mem_append.mp hline with hline | hline
  · obtain ⟨entry, -, hentry⟩ := List.mem_flatMap.mp hline
    rcases List.mem_append.mp hentry with hf | hb
    · obtain ⟨f, -, rfl⟩ := List.mem_map.mp hf
      exact hfield f
    · rw [List.mem_singleton.mp hb]
      exact entry.2.line
  · obtain ⟨f, -, rfl⟩ := List.mem_map.mp hline
    exact hfield f

/-- The reader finds the packages of a database. -/
theorem parseApkInstalled_content (file : ApkFile) (out : List PackageRecord) :
    parseApkInstalled file.content out = out ++ file.packages := by
  rw [parseApkInstalled, file.lines_content, ApkFile.lines, List.foldl_append, foldl_apkStanzas,
    foldl_apkFields, finishApkRecord_eq, ApkFile.packages, List.map_append, List.filter_append,
    List.append_assoc]
  rfl

end ApkFiles

section Entries

/-- The first value that is not empty. -/
def firstNonempty (values : List (List UInt8)) : List UInt8 :=
  (values.find? (· ≠ [])).getD []

/-- What the loop has read when it has seen these keys and values of the entry. -/
def desktopState (inEntry : Bool) (entries : List (List UInt8 × List UInt8)) : DesktopState where
  out :=
    { name := firstNonempty (valuesOf (ascii "Name") entries)
      version := (valuesOf (ascii "Version") entries).head?
      format := .desktopEntry
      description := (valuesOf (ascii "Comment") entries).head? }
  inDesktopEntry := inEntry
  isApplicationType := ascii "Application" ∈ valuesOf (ascii "Type") entries
  genericName := firstNonempty (valuesOf (ascii "GenericName") entries)

/-- The application that the entry is about, if it is one and has a name. -/
def IniFile.application (file : IniFile) : Option PackageRecord :=
  finishDesktop (desktopState true (file.entriesOf (ascii "Desktop Entry")))

theorem firstNonempty_append_ite (l : List (List UInt8)) (p : Prop) [Decidable p] (v : List UInt8) :
    firstNonempty (l ++ if p then [v] else []) =
      if p ∧ firstNonempty l = [] then v else firstNonempty l := by
  unfold firstNonempty
  rw [List.find?_append]
  cases hfirst : l.find? (· ≠ []) with
  | none =>
    by_cases hp : p
    · by_cases hv : v = [] <;> simp [hp, hv]
    · simp [hp]
  | some first =>
    have hne : first ≠ [] := by simpa using List.find?_some hfirst
    simp [hne]

theorem setDesktopField_desktopState (entries : List (List UInt8 × List UInt8))
    (e : List UInt8 × List UInt8) :
    setDesktopField (desktopState true entries) e.1 e.2 = desktopState true (entries ++ [e]) := by
  have hnext : desktopState true (entries ++ [e]) =
      { out :=
          { name := if e.1 = ascii "Name" ∧ firstNonempty (valuesOf (ascii "Name") entries) = [] then
              e.2 else firstNonempty (valuesOf (ascii "Name") entries)
            version :=
              if e.1 = ascii "Version" ∧ (valuesOf (ascii "Version") entries).head? = none then
              some e.2 else (valuesOf (ascii "Version") entries).head?
            format := .desktopEntry
            description :=
              if e.1 = ascii "Comment" ∧ (valuesOf (ascii "Comment") entries).head? = none then
              some e.2 else (valuesOf (ascii "Comment") entries).head? }
        inDesktopEntry := true
        isApplicationType := ascii "Application" ∈ valuesOf (ascii "Type") entries ∨
          e.1 = ascii "Type" ∧ e.2 = ascii "Application"
        genericName := if e.1 = ascii "GenericName" ∧
            firstNonempty (valuesOf (ascii "GenericName") entries) = [] then
          e.2 else firstNonempty (valuesOf (ascii "GenericName") entries) } := by
    have htype : ascii "Application" ∈ valuesOf (ascii "Type") (entries ++ [e]) ↔
        ascii "Application" ∈ valuesOf (ascii "Type") entries ∨
          e.1 = ascii "Type" ∧ e.2 = ascii "Application" := by
      rw [valuesOf_concat, List.mem_append]
      by_cases hkey : e.1 = ascii "Type" <;> simp [hkey, eq_comm]
    simp only [desktopState, htype]
    simp only [valuesOf_concat, head?_append_ite, firstNonempty_append_ite]
  rw [hnext]
  unfold setDesktopField desktopState
  split_ifs <;> simp_all +decide

theorem header_desktopEntry_iff (g : IniGroup) :
    g.header = ascii "[Desktop Entry]" ↔ g.name = ascii "Desktop Entry" := by
  have htext : ascii "[Desktop Entry]" = 0x5B :: (ascii "Desktop Entry" ++ [0x5D]) := by
    decide +kernel
  rw [htext, IniGroup.header, List.cons.injEq, List.append_cancel_right_eq]
  exact and_iff_right rfl

theorem foldl_outside (entries more : List (List UInt8 × List UInt8)) :
    more.foldl (fun s e => setDesktopField s e.1 e.2) (desktopState false entries) =
      desktopState false entries := by
  induction more with
  | nil => rfl
  | cons e more ih => exact ih

/-- Only the groups of the entry count. -/
theorem foldl_desktopGroups (groups : List IniGroup) (inEntry : Bool)
    (entries : List (List UInt8 × List UInt8)) :
    ∃ inEntry', groups.foldl (fun s g => g.entries.foldl (fun s e => setDesktopField s e.1 e.2)
        (desktopHeader s g.header)) (desktopState inEntry entries) =
      desktopState inEntry' (entries ++
        (groups.filter (·.name = ascii "Desktop Entry")).flatMap IniGroup.entries) := by
  have hinside : ∀ more entries : List (List UInt8 × List UInt8),
      more.foldl (fun s e => setDesktopField s e.1 e.2) (desktopState true entries) =
        desktopState true (entries ++ more) := by
    intro more
    induction more with
    | nil => intro entries; rw [List.append_nil, List.foldl_nil]
    | cons e more ih =>
      intro entries
      rw [List.foldl_cons, setDesktopField_desktopState, ih, List.append_assoc,
        List.singleton_append]
  induction groups generalizing inEntry entries with
  | nil => exact ⟨inEntry, by rw [List.filter_nil, List.flatMap_nil, List.append_nil]; rfl⟩
  | cons g groups ih =>
    have hheader : desktopHeader (desktopState inEntry entries) g.header =
        desktopState (decide (g.header = ascii "[Desktop Entry]")) entries := rfl
    rw [List.foldl_cons, hheader]
    by_cases hname : g.name = ascii "Desktop Entry"
    · rw [decide_eq_true ((header_desktopEntry_iff g).mpr hname), hinside,
        List.filter_cons_of_pos (by simpa using hname), List.flatMap_cons, ← List.append_assoc]
      exact ih true _
    · rw [decide_eq_false (mt (header_desktopEntry_iff g).mp hname), foldl_outside,
        List.filter_cons_of_neg (by simpa using hname)]
      exact ih false entries

/-- The reader finds the application of a desktop entry. -/
theorem parseDesktopEntry_content (file : IniFile) :
    parseDesktopEntry file.content = file.application := by
  have hstart : (⟨{ format := .desktopEntry }, false, false, []⟩ : DesktopState) =
      desktopState false [] := by simp [desktopState, firstNonempty]
  obtain ⟨inEntry, hgroups⟩ := foldl_desktopGroups file.groups false []
  rw [parseDesktopEntry, hstart, foldl_iniFile, foldl_outside, hgroups, List.nil_append]
  rfl

end Entries

end Syscape.Software
