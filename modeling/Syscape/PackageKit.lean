import Syscape.Software
import Mathlib.Data.List.Infix

/-!
# Prepared PackageKit updates

The reader of the updates that PackageKit has prepared, for its key files and for the older
format with one package id in a line. Both are read as a sequence of entries, which are
added to the output parameter one by one; a malformed entry ends the reading, and what has
been added before stays.
-/
namespace Syscape.Software
open Text Lines Checked

section Ids

/-- The packages whose update calls for a reboot. -/
def requiresReboot (name : List UInt8) : Bool :=
  ascii "linux" <+: name ∨ name = ascii "systemd" ∨ name = ascii "glibc" ∨ ascii "nvidia" <:+: name

/-- `parse_packagekit_package_id_parts`. -/
def parsePackagekitPackageIdParts (parts : List (List UInt8)) : Option UpdateRecord :=
  match parts with
  | [name, version, _, _] =>
    if name = [] ∨ version = [] then none
    else some
      { identifier := name
        title := name
        version := some version
        requiresReboot := requiresReboot name }
  | _ => none

/-- `parse_packagekit_package_id`. -/
def parsePackagekitPackageId (packageId : List UInt8) : Option UpdateRecord :=
  parsePackagekitPackageIdParts (packageId.splitOn 0x3B)

end Ids

section Reading

/-- Adding an entry; the error carries what the output parameter holds then. -/
def addPackageId (out : List UpdateRecord) (packageId : List UInt8) :
    Except (List UpdateRecord) (List UpdateRecord) :=
  match parsePackagekitPackageId packageId with
  | some rec => .ok (out ++ [rec])
  | none => .error out

/-- One item of the list of ids in a key file. -/
def addItem (out : List UpdateRecord) (item : List UInt8) :
    Except (List UpdateRecord) (List UpdateRecord) :=
  let item := trimWhitespaceView item
  if item = [] then .ok out else addPackageId out item

/-- The locals of the loop over a key file, and the output parameter. -/
structure KeyFileState where
  out : List UpdateRecord
  inUpdateSection : Bool
  foundUpdateSection : Bool
  foundPreparedIdsKey : Bool
  deriving DecidableEq, Repr

/-- The line is empty or a comment of a key file. -/
def isComment (line : List UInt8) : Bool :=
  line = [] ∨ line.head? = some 0x23 ∨ line.head? = some 0x3B

/-- The line begins a section of a key file. -/
def isSection (line : List UInt8) : Bool :=
  line.head? = some 0x5B ∧ line.getLast? = some 0x5D

/-- The name of the section. -/
def sectionName (line : List UInt8) : List UInt8 := (line.drop 1).dropLast

/-- The key of a line, and its value. -/
def keyOf (line : List UInt8) : List UInt8 := trimWhitespaceView (line.takeWhile (· ≠ 0x3D))

def valueOf (line : List UInt8) : List UInt8 :=
  trimWhitespaceView ((line.dropWhile (· ≠ 0x3D)).drop 1)

/-- The body of the loop over a key file. -/
def parseKeyFileLine (s : KeyFileState) (rawLine : List UInt8) :
    Except (List UpdateRecord) KeyFileState :=
  let line := trimWhitespaceView rawLine
  if isComment line then .ok s
  else if isSection line then
    .ok
      { s with
        inUpdateSection := sectionName line = ascii "update"
        foundUpdateSection := s.foundUpdateSection || sectionName line = ascii "update" }
  else if !s.inUpdateSection then .ok s
  else if 0x3D ∉ line then .ok s
  else if keyOf line = ascii "prepared_ids" then do
    let out ← (lines 0x2C (valueOf line)).foldlM addItem s.out
    .ok { s with out := out, foundPreparedIdsKey := true }
  else .ok s

/-- The body of the loop over lines with an id each. -/
def parseLegacyLine (out : List UpdateRecord) (rawLine : List UInt8) :
    Except (List UpdateRecord) (List UpdateRecord) :=
  let line := trimWhitespaceView rawLine
  if line = [] ∨ line.head? = some 0x23 then .ok out else addPackageId out line

/-- What the function returns, and its output parameters. -/
structure PreparedUpdate where
  succeeded : Bool
  out : List UpdateRecord
  isMalformed : Bool
  deriving DecidableEq, Repr

/-- The content is a key file. -/
def isKeyFile (content : List UInt8) : Bool :=
  content.head? = some 0x5B ∨ ascii "\n[" <:+: content

/-- `parse_packagekit_prepared_update`. -/
def parsePackagekitPreparedUpdate (content : List UInt8) (out : List UpdateRecord) :
    PreparedUpdate :=
  let content := trimWhitespaceView content
  if content = [] then ⟨false, out, true⟩
  else
    let result : Except (List UpdateRecord) (List UpdateRecord) :=
      if isKeyFile content then do
        let s ← (lines 0x0A content).foldlM parseKeyFileLine ⟨out, false, false, false⟩
        if !s.foundUpdateSection ∨ !s.foundPreparedIdsKey then .error s.out else .ok s.out
      else (lines 0x0A content).foldlM parseLegacyLine out
    match result with
    | .error out' => ⟨false, out', true⟩
    | .ok out' =>
      if out'.length = out.length then ⟨false, out', true⟩
      else ⟨out'.length > out.length, out', false⟩

end Reading

section Entries

/-- The entry is a package id. -/
def isPackageId (entry : List UInt8) : Bool := (parsePackagekitPackageId entry).isSome

/-- The line has the list of ids. -/
def listsIds (inUpdateSection : Bool) (line : List UInt8) : Bool :=
  ¬ isComment line ∧ ¬ isSection line ∧ inUpdateSection ∧ 0x3D ∈ line ∧
    keyOf line = ascii "prepared_ids"

/-- The entries in a line of a key file. -/
def keyFileItems (inUpdateSection : Bool) (rawLine : List UInt8) : List (List UInt8) :=
  let line := trimWhitespaceView rawLine
  if listsIds inUpdateSection line then
    ((lines 0x2C (valueOf line)).map trimWhitespaceView).filter (· ≠ [])
  else []

/-- Whether the lines behind a line are in the section of updates. -/
def sectionAfter (inUpdateSection : Bool) (rawLine : List UInt8) : Bool :=
  let line := trimWhitespaceView rawLine
  if ¬ isComment line ∧ isSection line then sectionName line = ascii "update" else inUpdateSection

/-- The entries of a key file. -/
def keyFileEntries : Bool → List (List UInt8) → List (List UInt8)
  | _, [] => []
  | inUpdateSection, rawLine :: rawLines =>
      keyFileItems inUpdateSection rawLine ++
        keyFileEntries (sectionAfter inUpdateSection rawLine) rawLines

/-- The entries of a file with an id in each line. -/
def legacyEntries (rawLines : List (List UInt8)) : List (List UInt8) :=
  (rawLines.map trimWhitespaceView).filter fun line => line ≠ [] ∧ line.head? ≠ some 0x23

/-- The entries of a prepared update, in their order. -/
def entries (content : List UInt8) : List (List UInt8) :=
  let content := trimWhitespaceView content
  if isKeyFile content then keyFileEntries false (lines 0x0A content)
  else legacyEntries (lines 0x0A content)

end Entries

section Loops

/-- Entries are added up to the first that is malformed. -/
theorem foldlM_addPackageId (out : List UpdateRecord) (items : List (List UInt8)) :
    items.foldlM addPackageId out =
      if ∀ item ∈ items, isPackageId item then
        .ok (out ++ items.filterMap parsePackagekitPackageId)
      else .error (out ++ (items.takeWhile isPackageId).filterMap parsePackagekitPackageId) := by
  induction items generalizing out with
  | nil =>
    rw [List.foldlM_nil, if_pos (by simp), List.filterMap_nil, List.append_nil]
    rfl
  | cons item items ih =>
    rw [List.foldlM_cons, addPackageId]
    cases hparse : parsePackagekitPackageId item with
    | none =>
      have hbad : isPackageId item = false := by rw [isPackageId, hparse, Option.isSome_none]
      rw [if_neg (by simp [hbad]), List.takeWhile_cons_of_neg (by simp [hbad]), List.filterMap_nil,
        List.append_nil]
      rfl
    | some rec =>
      have hgood : isPackageId item = true := by rw [isPackageId, hparse, Option.isSome_some]
      rw [ok_bind, ih, List.takeWhile_cons_of_pos hgood, List.filterMap_cons_some hparse,
        List.filterMap_cons_some hparse, List.append_assoc, List.append_assoc, List.singleton_append,
        List.singleton_append]
      simp [hgood]

theorem foldlM_addItem (out : List UpdateRecord) (items : List (List UInt8)) :
    items.foldlM addItem out =
      ((items.map trimWhitespaceView).filter (· ≠ [])).foldlM addPackageId out := by
  induction items generalizing out with
  | nil => rfl
  | cons item items ih =>
    rw [List.foldlM_cons, List.map_cons, addItem]
    by_cases hnil : trimWhitespaceView item = []
    · rw [if_pos hnil, List.filter_cons_of_neg (by simp [hnil]), ok_bind, ih]
    · rw [if_neg hnil, List.filter_cons_of_pos (by simpa using hnil), List.foldlM_cons]
      simp only [ih]

/-- The state behind a line whose entries have been added. -/
def nextState (s : KeyFileState) (rawLine : List UInt8) (out : List UpdateRecord) : KeyFileState :=
  let line := trimWhitespaceView rawLine
  { out := out
    inUpdateSection := sectionAfter s.inUpdateSection rawLine
    foundUpdateSection := s.foundUpdateSection ||
      (!isComment line && isSection line && sectionName line = ascii "update")
    foundPreparedIdsKey := s.foundPreparedIdsKey || listsIds s.inUpdateSection line }

theorem parseKeyFileLine_eq (s : KeyFileState) (rawLine : List UInt8) :
    parseKeyFileLine s rawLine =
      (keyFileItems s.inUpdateSection rawLine).foldlM addPackageId s.out >>= fun out =>
        .ok (nextState s rawLine out) := by
  obtain ⟨out, inUpdateSection, foundUpdateSection, foundPreparedIdsKey⟩ := s
  unfold parseKeyFileLine keyFileItems nextState sectionAfter listsIds
  dsimp only
  generalize trimWhitespaceView rawLine = line
  cases hcomment : isComment line with
  | true => simp [pure_eq_ok]
  | false =>
    cases hsection : isSection line with
    | true => simp [pure_eq_ok]
    | false =>
      cases inUpdateSection with
      | false => simp [pure_eq_ok]
      | true =>
        by_cases heq : 0x3D ∈ line
        · by_cases hkey : keyOf line = ascii "prepared_ids"
          · simp [heq, hkey, foldlM_addItem]
          · simp [heq, hkey, pure_eq_ok]
        · simp [heq, pure_eq_ok]

/-- The state behind some lines whose entries have been added. -/
def lastState (s : KeyFileState) : List (List UInt8) → List UpdateRecord → KeyFileState
  | [], out => { s with out := out }
  | rawLine :: rawLines, out => lastState (nextState s rawLine s.out) rawLines out

theorem lastState_out (s : KeyFileState) (rawLines : List (List UInt8))
    (out out' : List UpdateRecord) :
    lastState { s with out := out' } rawLines out = lastState s rawLines out := by
  induction rawLines generalizing s out' with
  | nil => rfl
  | cons rawLine rawLines ih => exact ih (nextState s rawLine s.out) out'

@[simp] theorem out_lastState (s : KeyFileState) (rawLines : List (List UInt8))
    (out : List UpdateRecord) : (lastState s rawLines out).out = out := by
  induction rawLines generalizing s with
  | nil => rfl
  | cons rawLine rawLines ih => exact ih _

/-- The loop over a key file adds its entries. -/
theorem foldlM_parseKeyFileLine (s : KeyFileState) (rawLines : List (List UInt8)) :
    rawLines.foldlM parseKeyFileLine s =
      (keyFileEntries s.inUpdateSection rawLines).foldlM addPackageId s.out >>= fun out =>
        .ok (lastState s rawLines out) := by
  induction rawLines generalizing s with
  | nil => rfl
  | cons rawLine rawLines ih =>
    rw [List.foldlM_cons, parseKeyFileLine_eq, keyFileEntries, List.foldlM_append]
    cases (keyFileItems s.inUpdateSection rawLine).foldlM addPackageId s.out with
    | error out => rfl
    | ok out =>
      rw [ok_bind, ok_bind, ok_bind, ih]
      have hlast : ∀ out', lastState (nextState s rawLine out) rawLines out' =
          lastState s (rawLine :: rawLines) out' :=
        fun out' => lastState_out (nextState s rawLine s.out) rawLines out' out
      simp only [hlast]
      rfl

theorem foldlM_parseLegacyLine (out : List UpdateRecord) (rawLines : List (List UInt8)) :
    rawLines.foldlM parseLegacyLine out = (legacyEntries rawLines).foldlM addPackageId out := by
  unfold legacyEntries
  induction rawLines generalizing out with
  | nil => rfl
  | cons rawLine rawLines ih =>
    rw [List.foldlM_cons, List.map_cons, parseLegacyLine]
    by_cases hskip : trimWhitespaceView rawLine = [] ∨
        (trimWhitespaceView rawLine).head? = some 0x23
    · rw [if_pos hskip, List.filter_cons_of_neg (by simpa [or_iff_not_imp_left] using hskip),
        ok_bind, ih]
    · rw [if_neg hskip, List.filter_cons_of_pos (by simpa using hskip), List.foldlM_cons]
      simp only [ih]

/-- Flags of a key file that have been set stay set. -/
theorem lastState_found (s : KeyFileState) (rawLines : List (List UInt8))
    (out : List UpdateRecord) :
    (s.foundUpdateSection → (lastState s rawLines out).foundUpdateSection) ∧
      (s.foundPreparedIdsKey → (lastState s rawLines out).foundPreparedIdsKey) := by
  induction rawLines generalizing s with
  | nil => exact ⟨id, id⟩
  | cons rawLine rawLines ih =>
    obtain ⟨hsection, hkey⟩ := ih (nextState s rawLine s.out)
    refine ⟨fun h => hsection ?_, fun h => hkey ?_⟩
    · simp [nextState, h]
    · simp [nextState, h]

/-- A key file with entries has the section and the key. -/
theorem lastState_entries {s : KeyFileState} {rawLines : List (List UInt8)}
    (hs : s.inUpdateSection → s.foundUpdateSection)
    (h : keyFileEntries s.inUpdateSection rawLines ≠ []) (out : List UpdateRecord) :
    (lastState s rawLines out).foundUpdateSection ∧
      (lastState s rawLines out).foundPreparedIdsKey := by
  induction rawLines generalizing s with
  | nil => exact absurd rfl h
  | cons rawLine rawLines ih =>
    obtain ⟨hsection, hkey⟩ := lastState_found (nextState s rawLine s.out) rawLines out
    have hnext : (nextState s rawLine s.out).inUpdateSection →
        (nextState s rawLine s.out).foundUpdateSection := by
      simp only [nextState, sectionAfter]
      split_ifs with hstarts
      · intro hname
        simp only [Bool.not_eq_true] at hstarts
        simp [hstarts.1, hstarts.2, hname]
      · intro hin
        simp [hs hin]
    by_cases hitems : keyFileItems s.inUpdateSection rawLine = []
    · rw [keyFileEntries, hitems, List.nil_append] at h
      exact ih hnext h
    · have hlists : listsIds s.inUpdateSection (trimWhitespaceView rawLine) = true := by
        by_contra hnot
        exact hitems (if_neg hnot)
      have hin : s.inUpdateSection = true := by
        rw [listsIds, decide_eq_true_eq] at hlists
        exact hlists.2.2.1
      refine ⟨hsection ?_, hkey ?_⟩
      · simp [nextState, hs hin]
      · simp [nextState, hlists]

end Loops

section Results

/-- What the function makes of the entries of its content. -/
def addEntries (entries : List (List UInt8)) (out : List UpdateRecord) : PreparedUpdate :=
  match entries.foldlM addPackageId out with
  | .error out' => ⟨false, out', true⟩
  | .ok out' => ⟨entries ≠ [], out', entries = []⟩

theorem addEntries_eq (entries : List (List UInt8)) (out : List UpdateRecord) :
    addEntries entries out =
      if ∀ entry ∈ entries, isPackageId entry then
        ⟨entries ≠ [], out ++ entries.filterMap parsePackagekitPackageId, entries = []⟩
      else
        ⟨false, out ++ (entries.takeWhile isPackageId).filterMap parsePackagekitPackageId, true⟩ := by
  rw [addEntries, foldlM_addPackageId]
  split_ifs
  · rfl
  · rfl

/-- Entries have been added exactly if the output parameter has grown. -/
theorem length_addPackageIds {entries : List (List UInt8)}
    (h : ∀ entry ∈ entries, isPackageId entry) :
    (entries.filterMap parsePackagekitPackageId).length = entries.length := by
  induction entries with
  | nil => rfl
  | cons entry entries ih =>
    obtain ⟨rec, hrec⟩ := Option.isSome_iff_exists.mp (h entry (by simp))
    rw [List.filterMap_cons_some hrec, List.length_cons, List.length_cons,
      ih fun e he => h e (by simp [he])]

theorem grown_addEntries (entries : List (List UInt8)) (out : List UpdateRecord) :
    (match entries.foldlM addPackageId out with
      | .error out' => (⟨false, out', true⟩ : PreparedUpdate)
      | .ok out' =>
        if out'.length = out.length then ⟨false, out', true⟩
        else ⟨out'.length > out.length, out', false⟩) = addEntries entries out := by
  rw [addEntries_eq, foldlM_addPackageId]
  by_cases hall : ∀ entry ∈ entries, isPackageId entry
  · have hlength := length_addPackageIds hall
    rw [if_pos hall, if_pos hall]
    dsimp only
    rw [List.length_append, hlength]
    cases entries with
    | nil => simp
    | cons entry entries => simp
  · rw [if_neg hall, if_neg hall]

/-- The function adds the entries of its content, and fails if there are none. -/
theorem parsePackagekitPreparedUpdate_eq (content : List UInt8) (out : List UpdateRecord) :
    parsePackagekitPreparedUpdate content out = addEntries (entries content) out := by
  unfold parsePackagekitPreparedUpdate entries
  dsimp only
  by_cases hnil : trimWhitespaceView content = []
  · rw [if_pos hnil, hnil, lines_nil]
    rfl
  rw [if_neg hnil]
  generalize trimWhitespaceView content = text
  cases isKeyFile text with
  | false =>
    simp only [Bool.false_eq_true, if_false]
    rw [foldlM_parseLegacyLine, grown_addEntries]
  | true =>
    simp only [if_true]
    rw [foldlM_parseKeyFileLine, ← grown_addEntries]
    dsimp only
    cases hfold : (keyFileEntries false (lines 0x0A text)).foldlM addPackageId out with
    | error out' => rfl
    | ok out' =>
      rw [ok_bind, ok_bind, out_lastState]
      by_cases hentries : keyFileEntries false (lines 0x0A text) = []
      · -- without entries the flags decide nothing
        rw [hentries, List.foldlM_nil, pure_eq_ok, Except.ok.injEq] at hfold
        subst hfold
        split_ifs <;> simp
      · obtain ⟨hsection, hkey⟩ := lastState_entries (s := ⟨out, false, false, false⟩) (by simp)
          hentries out'
        rw [if_neg (by simp [hsection, hkey])]

end Results

section Formats

/-- A package id. Its name does not begin like a comment or a section, and its text has no
separator and no white space around it. -/
structure PackageId where
  name : List UInt8
  version : List UInt8
  architecture : List UInt8
  data : List UInt8
  name_ne : name ≠ []
  name_head : ∀ c ∈ name.head?, isspace c = false ∧ c ≠ 0x23 ∧ c ≠ 0x5B
  version_ne : version ≠ []
  data_last : ∀ c ∈ data.getLast?, isspace c = false
  plain : ∀ field ∈ [name, version, architecture, data],
    0x3B ∉ field ∧ 0x2C ∉ field ∧ 0x0A ∉ field

namespace PackageId

def text (id : PackageId) : List UInt8 :=
  id.name ++ 0x3B :: (id.version ++ 0x3B :: (id.architecture ++ 0x3B :: id.data))

/-- The update that the id stands for. -/
def update (id : PackageId) : UpdateRecord where
  identifier := id.name
  title := id.name
  version := some id.version
  requiresReboot := requiresReboot id.name

theorem parse_text (id : PackageId) : parsePackagekitPackageId id.text = some id.update := by
  have hplain : ∀ field ∈ [id.name, id.version, id.architecture, id.data], 0x3B ∉ field :=
    fun field hfield => (id.plain field hfield).1
  have hsplit : id.text.splitOn 0x3B = [id.name, id.version, id.architecture, id.data] := by
    have h := List.splitOn_intercalate 0x3B hplain (by simp)
    simpa [text] using h
  rw [parsePackagekitPackageId, hsplit]
  exact if_neg (by simp [id.name_ne, id.version_ne])

theorem exists_head (id : PackageId) :
    ∃ c more, id.text = c :: more ∧ isspace c = false ∧ c ≠ 0x23 ∧ c ≠ 0x5B := by
  obtain ⟨c, name, hname⟩ := List.exists_cons_of_ne_nil id.name_ne
  refine ⟨c, name ++ 0x3B :: (id.version ++ 0x3B :: (id.architecture ++ 0x3B :: id.data)), ?_,
    id.name_head c (by simp [hname])⟩
  rw [text, hname, List.cons_append]

theorem text_ne (id : PackageId) : id.text ≠ [] := by
  obtain ⟨c, more, h, -⟩ := id.exists_head
  simp [h]

theorem text_last (id : PackageId) : ∀ c ∈ id.text.getLast?, isspace c = false := by
  intro c hc
  have hdata : ∀ d ∈ (0x3B :: id.data).getLast?, isspace d = false := by
    rw [List.getLast?_cons]
    intro d hd
    cases hlast : id.data.getLast? with
    | none =>
      rw [hlast] at hd
      cases hd
      rfl
    | some e =>
      rw [hlast] at hd
      cases hd
      exact id.data_last _ hlast
  rw [text, List.getLast?_append_of_ne_nil _ (by simp), ← List.cons_append,
    List.getLast?_append_of_ne_nil _ (by simp), ← List.cons_append,
    List.getLast?_append_of_ne_nil _ (by simp)] at hc
  exact hdata c hc

theorem not_mem_text (id : PackageId) : 0x2C ∉ id.text ∧ 0x0A ∉ id.text := by
  have hname := id.plain id.name (by simp)
  have hversion := id.plain id.version (by simp)
  have harchitecture := id.plain id.architecture (by simp)
  have hdata := id.plain id.data (by simp)
  constructor
  · simp [text, hname, hversion, harchitecture, hdata]
  · simp [text, hname, hversion, harchitecture, hdata]

theorem trim_text (id : PackageId) : trimWhitespaceView id.text = id.text := by
  obtain ⟨c, more, h, hc, -⟩ := id.exists_head
  apply trimWhitespaceView_eq_self
  · rw [h]
    simpa using hc
  · exact id.text_last

end PackageId

/-- The ids in a list that a separator divides, and that may end in a further separator. -/
def joined (sep : UInt8) (terminated : Bool) (ids : List PackageId) : List UInt8 :=
  if terminated then (ids.map PackageId.text).flatMap (· ++ [sep])
  else [sep].intercalate (ids.map PackageId.text)

/-- The key file of prepared updates. -/
def keyFile (terminated : Bool) (ids : List PackageId) : List UInt8 :=
  ascii "[update]\nprepared_ids=" ++ joined 0x2C terminated ids ++ ascii "\n"

/-- The older format: one id in a line. -/
def legacyFile (terminated : Bool) (ids : List PackageId) : List UInt8 :=
  joined 0x0A terminated ids

variable {sep : UInt8} {ids : List PackageId}

theorem lines_joined (h : ∀ id ∈ ids, sep ∉ id.text) (terminated : Bool) :
    lines sep (joined sep terminated ids) = ids.map PackageId.text := by
  apply lines_written
  intro line hline
  obtain ⟨id, hid, rfl⟩ := List.mem_map.mp hline
  exact ⟨h id hid, id.text_ne⟩

theorem head_joined (terminated : Bool) :
    ∀ c ∈ (joined sep terminated ids).head?, isspace c = false ∧ c ≠ 0x5B := by
  intro c hc
  cases ids with
  | nil =>
    rw [joined] at hc
    split_ifs at hc
    · cases hc
    · cases hc
  | cons id ids =>
    obtain ⟨d, more, htext, hspace, -, hd⟩ := id.exists_head
    have hhead : (joined sep terminated (id :: ids)).head? = some d := by
      rw [joined, List.map_cons]
      split_ifs
      · rw [List.flatMap_cons, htext]
        rfl
      · cases ids with
        | nil =>
          rw [List.map_nil, List.intercalate_singleton, htext]
          rfl
        | cons id' ids =>
          rw [List.map_cons, List.intercalate_cons_cons, htext]
          rfl
    rw [hhead] at hc
    cases hc
    exact ⟨hspace, hd⟩

theorem last_intercalate {pieces : List (List UInt8)}
    (hne : ∀ piece ∈ pieces, piece ≠ [])
    (h : ∀ piece ∈ pieces, ∀ c ∈ piece.getLast?, isspace c = false) :
    ∀ c ∈ ([sep].intercalate pieces).getLast?, isspace c = false := by
  induction pieces with
  | nil => simp
  | cons piece pieces ih =>
    cases pieces with
    | nil =>
      rw [List.intercalate_singleton]
      exact h piece (by simp)
    | cons next pieces =>
      have hrest : [sep].intercalate (next :: pieces) ≠ [] := by
        intro hnil
        have hnext := hne next (by simp)
        cases pieces with
        | nil =>
          rw [List.intercalate_singleton] at hnil
          exact hnext hnil
        | cons more pieces =>
          rw [List.intercalate_cons_cons] at hnil
          simp at hnil
      rw [List.intercalate_cons_cons, List.getLast?_append_of_ne_nil _ hrest]
      exact ih (fun l hl => hne l (by simp [hl])) fun l hl => h l (by simp [hl])

theorem last_joined (terminated : Bool) (h : sep = 0x2C ∨ terminated = false) :
    ∀ c ∈ (joined sep terminated ids).getLast?, isspace c = false := by
  have hpieces : ∀ c ∈ ([sep].intercalate (ids.map PackageId.text)).getLast?,
      isspace c = false := by
    apply last_intercalate
    · intro piece hpiece
      obtain ⟨id, -, rfl⟩ := List.mem_map.mp hpiece
      exact id.text_ne
    · intro piece hpiece
      obtain ⟨id, -, rfl⟩ := List.mem_map.mp hpiece
      exact id.text_last
  rw [joined]
  split_ifs with hterminated
  · rcases h with rfl | h
    · by_cases hnil : ids.map PackageId.text = []
      · simp [hnil]
      · rw [flatMap_eq_intercalate hnil, List.getLast?_concat]
        rintro c ⟨⟩
        rfl
    · rw [h] at hterminated
      cases hterminated
  · exact hpieces

theorem not_mem_joined {c : UInt8} (hc : c ≠ sep) (h : ∀ id ∈ ids, c ∉ id.text)
    (terminated : Bool) : c ∉ joined sep terminated ids := by
  have hflat : c ∉ (ids.map PackageId.text).flatMap (· ++ [sep]) := by
    intro hmem
    obtain ⟨piece, hpiece, hin⟩ := List.mem_flatMap.mp hmem
    obtain ⟨id, hid, rfl⟩ := List.mem_map.mp hpiece
    rcases List.mem_append.mp hin with htext | hsep
    · exact h id hid htext
    · exact hc (List.mem_singleton.mp hsep)
  rw [joined]
  split_ifs
  · exact hflat
  · by_cases hnil : ids.map PackageId.text = []
    · simp [hnil]
    · intro hmem
      apply hflat
      rw [flatMap_eq_intercalate hnil]
      exact List.mem_append_left _ hmem

/-- The list of ids in its line. -/
def idsLine (terminated : Bool) (ids : List PackageId) : List UInt8 :=
  ascii "prepared_ids" ++ 0x3D :: joined 0x2C terminated ids

theorem trim_idsLine (terminated : Bool) (ids : List PackageId) :
    trimWhitespaceView (idsLine terminated ids) = idsLine terminated ids := by
  have h := @trimWhitespaceView_append_eq_self (ascii "prepared_ids=") (joined 0x2C terminated ids)
    (by decide) (forall_of_all (by decide)) (last_joined terminated (.inl rfl))
  have hsplit : ascii "prepared_ids=" ++ joined 0x2C terminated ids = idsLine terminated ids :=
    List.append_assoc (ascii "prepared_ids") [0x3D] _
  rwa [hsplit] at h

theorem listsIds_idsLine (terminated : Bool) (ids : List PackageId) :
    listsIds true (idsLine terminated ids) = true := by
  have hbefore : ∀ c ∈ ascii "prepared_ids", decide (c ≠ 0x3D) = true := forall_of_all (by decide)
  have hkey : keyOf (idsLine terminated ids) = ascii "prepared_ids" := by
    rw [keyOf, idsLine, List.takeWhile_append_of_pos hbefore, List.takeWhile_cons_of_neg (by simp),
      List.append_nil]
    decide
  have hhead : (idsLine terminated ids).head? = some 0x70 := rfl
  have hne : idsLine terminated ids ≠ [] := by simp [idsLine]
  have hcomment : isComment (idsLine terminated ids) = false := by
    rw [isComment, hhead]
    simp [hne]
  have hsection : isSection (idsLine terminated ids) = false := by
    rw [isSection, hhead]
    simp
  rw [listsIds, hcomment, hsection, hkey]
  simp [idsLine]

theorem valueOf_idsLine (terminated : Bool) (ids : List PackageId) :
    valueOf (idsLine terminated ids) = joined 0x2C terminated ids := by
  have hbefore : ∀ c ∈ ascii "prepared_ids", decide (c ≠ 0x3D) = true := forall_of_all (by decide)
  rw [valueOf, idsLine, List.dropWhile_append_of_pos hbefore, List.dropWhile_cons_of_neg (by simp),
    List.drop_one, List.tail_cons]
  exact trimWhitespaceView_eq_self (fun c hc => (head_joined terminated c hc).1)
    (last_joined terminated (.inl rfl))

/-- The texts of ids are trimmed, and neither empty nor comments. -/
theorem map_trim_text (ids : List PackageId) :
    (ids.map PackageId.text).map trimWhitespaceView = ids.map PackageId.text := by
  rw [List.map_map]
  exact List.map_congr_left fun id _ => id.trim_text

/-- The entries of a key file are its ids. -/
theorem entries_keyFile (terminated : Bool) (ids : List PackageId) :
    entries (keyFile terminated ids) = ids.map PackageId.text := by
  have hline : 0x0A ∉ idsLine terminated ids := by
    intro hmem
    rcases List.mem_append.mp hmem with hkey | hvalue
    · exact absurd hkey (by decide)
    · rcases List.mem_cons.mp hvalue with heq | hlist
      · exact absurd heq (by decide)
      · exact not_mem_joined (by decide) (fun id _ => id.not_mem_text.2) terminated hlist
  have htrim : trimWhitespaceView (keyFile terminated ids) =
      ascii "[update]" ++ 0x0A :: idsLine terminated ids := by
    have h := @trimWhitespaceView_append_eq_self (ascii "[update]\nprepared_ids=")
      (joined 0x2C terminated ids) (by decide) (forall_of_all (by decide))
      (last_joined terminated (.inl rfl))
    rw [keyFile, trimWhitespaceView_append (forall_of_all (by decide)), h]
    exact List.append_assoc (ascii "[update]\nprepared_ids") [0x3D] _
  have hfirst : keyFileItems false (ascii "[update]") = [] ∧
      sectionAfter false (ascii "[update]") = true := by
    decide
  have hids : lines 0x2C (joined 0x2C terminated ids) = ids.map PackageId.text :=
    lines_joined (fun id _ => id.not_mem_text.1) terminated
  have hitems : keyFileItems true (idsLine terminated ids) = ids.map PackageId.text := by
    rw [keyFileItems, trim_idsLine]
    rw [if_pos (listsIds_idsLine terminated ids), valueOf_idsLine, hids, map_trim_text,
      List.filter_eq_self]
    intro text htext
    obtain ⟨id, -, rfl⟩ := List.mem_map.mp htext
    simpa using id.text_ne
  have hkeyFile : isKeyFile (ascii "[update]" ++ 0x0A :: idsLine terminated ids) = true :=
    decide_eq_true (.inl rfl)
  unfold entries
  dsimp only
  rw [htrim, if_pos hkeyFile, lines_append_sep (by decide),
    lines_of_not_mem hline (by simp [idsLine]), keyFileEntries, hfirst.1, hfirst.2, keyFileEntries,
    keyFileEntries, hitems, List.nil_append, List.append_nil]

/-- The entries of the older format are its ids. -/
theorem entries_legacyFile (terminated : Bool) (ids : List PackageId) :
    entries (legacyFile terminated ids) = ids.map PackageId.text := by
  have htrim : trimWhitespaceView (legacyFile terminated ids) = joined 0x0A false ids := by
    have hself : trimWhitespaceView (joined 0x0A false ids) = joined 0x0A false ids :=
      trimWhitespaceView_eq_self (fun c hc => (head_joined false c hc).1)
        (last_joined false (.inr rfl))
    cases terminated with
    | false => exact hself
    | true =>
      by_cases hnil : ids.map PackageId.text = []
      · rw [legacyFile, joined, if_pos rfl, joined, hnil]
        rfl
      · rw [legacyFile, joined, if_pos rfl, flatMap_eq_intercalate hnil,
          trimWhitespaceView_append (forall_of_all (by decide))]
        exact hself
  have hids : lines 0x0A (joined 0x0A false ids) = ids.map PackageId.text :=
    lines_joined (fun id _ => id.not_mem_text.2) false
  have hkeyFile : isKeyFile (joined 0x0A false ids) = false := by
    rw [isKeyFile, decide_eq_false_iff_not]
    rintro (hhead | ⟨before, after, hcontent⟩)
    · exact (head_joined false 0x5B hhead).2 rfl
    · have hmark : before ++ 0x0A :: 0x5B :: after = joined 0x0A false ids := by
        rw [← hcontent, List.append_assoc]
        rfl
      obtain ⟨line, more, hline⟩ := @exists_lines_cons _ _ 0x0A 0x5B (by decide) after
      rw [← hmark, lines_append_sep_append, hline] at hids
      have hmem : 0x5B :: line ∈ ids.map PackageId.text := by
        rw [← hids]
        simp
      obtain ⟨id, -, hid⟩ := List.mem_map.mp hmem
      obtain ⟨c, more, htext, -, -, hc⟩ := id.exists_head
      rw [htext] at hid
      exact hc (List.cons.inj hid).1
  unfold entries
  dsimp only
  rw [htrim, if_neg (by simp [hkeyFile]), hids, legacyEntries, map_trim_text, List.filter_eq_self]
  intro text htext
  obtain ⟨id, -, rfl⟩ := List.mem_map.mp htext
  obtain ⟨c, more, hc, -, hcomment, -⟩ := id.exists_head
  simp [hc, hcomment]

end Formats

section Atomicity

/-- Both formats give the same updates, whatever the output parameter holds. -/
def FormatIndependent (ids : List PackageId) : Prop :=
  ∀ out, ∀ content ∈ [keyFile true ids, keyFile false ids, legacyFile true ids, legacyFile false ids],
    parsePackagekitPreparedUpdate content out =
      ⟨ids ≠ [], out ++ ids.map PackageId.update, ids = []⟩

/-- A call that fails leaves its output parameter as it was. -/
def Atomic (content : List UInt8) : Prop :=
  ∀ out, (parsePackagekitPreparedUpdate content out).succeeded = false →
    (parsePackagekitPreparedUpdate content out).out = out

theorem formatIndependent (ids : List PackageId) : FormatIndependent ids := by
  intro out content hcontent
  have hentries : entries content = ids.map PackageId.text := by
    simp only [List.mem_cons, List.not_mem_nil, or_false] at hcontent
    rcases hcontent with rfl | rfl | rfl | rfl
    · exact entries_keyFile true ids
    · exact entries_keyFile false ids
    · exact entries_legacyFile true ids
    · exact entries_legacyFile false ids
  have hparse : (ids.map PackageId.text).filterMap parsePackagekitPackageId =
      ids.map PackageId.update := by
    rw [List.filterMap_map]
    exact List.filterMap_eq_map_iff_forall_eq_some.mpr fun id _ => id.parse_text
  have hall : ∀ entry ∈ ids.map PackageId.text, isPackageId entry := by
    intro entry hentry
    obtain ⟨id, -, rfl⟩ := List.mem_map.mp hentry
    rw [isPackageId, id.parse_text, Option.isSome_some]
  rw [parsePackagekitPreparedUpdate_eq, hentries, addEntries_eq, if_pos hall, hparse]
  simp

theorem atomic_iff (content : List UInt8) :
    Atomic content ↔ ((∃ entry ∈ entries content, ¬ isPackageId entry) →
      ∀ entry ∈ (entries content).head?, ¬ isPackageId entry) := by
  unfold Atomic
  simp only [parsePackagekitPreparedUpdate_eq, addEntries_eq]
  by_cases hall : ∀ entry ∈ entries content, isPackageId entry
  · simp only [if_pos hall]
    constructor
    · rintro - ⟨entry, hentry, hbad⟩
      exact absurd (hall entry hentry) hbad
    · intro _ out hfailed
      have hnil : entries content = [] := by simpa using hfailed
      rw [hnil, List.filterMap_nil, List.append_nil]
  · simp only [if_neg hall, true_implies, List.append_right_eq_self]
    have hbad : ∃ entry ∈ entries content, ¬ isPackageId entry := by simpa using hall
    cases hcase : entries content with
    | nil => simp
    | cons entry more =>
      cases hentry : isPackageId entry with
      | true =>
        obtain ⟨rec, hrec⟩ := Option.isSome_iff_exists.mp hentry
        rw [List.takeWhile_cons_of_pos hentry, List.filterMap_cons_some hrec]
        rw [hcase] at hbad
        constructor
        · intro h
          cases h []
        · intro h
          exact absurd hentry (h hbad entry rfl)
      | false =>
        rw [List.takeWhile_cons_of_neg (by simp [hentry])]
        simp [hentry]

/-- Both formats of a list of ids are read alike. A call that fails leaves the output
parameter as it was if and only if no entry is in front of the first malformed one. -/
theorem prepared_update_atomic_iff (ids : List PackageId) (content : List UInt8) :
    FormatIndependent ids ∧
      (Atomic content ↔ ((∃ entry ∈ entries content, ¬ isPackageId entry) →
        ∀ entry ∈ (entries content).head?, ¬ isPackageId entry)) :=
  ⟨formatIndependent ids, atomic_iff content⟩

/-- A list of two ids of which the second has one field. -/
def halfPrepared : List UInt8 := ascii "[update]\nprepared_ids=nano;8.0-1;x86_64;fedora,firefox\n"

/-- The first id stays in the output parameter. -/
theorem halfPrepared_not_atomic : ¬ Atomic halfPrepared := by
  intro h
  exact absurd (h [] (by decide)) (by decide)

end Atomicity

end Syscape.Software
