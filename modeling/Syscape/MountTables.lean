import Syscape.MountFields
import Syscape.Lib.Lines

/-!
# The two parsers of the mount table

The parser of the file systems splits a line into its fields first, the parser of the
storage devices scans for one field after the other and looks for its prefix before it
decodes. They agree on every table, and both give its rows back.
-/
namespace Syscape
open Checked Text Lines OctalEscape MountFields

namespace Filesystem

/-- `is_mount_separator`. -/
def isMountSeparator (value : UInt8) : Bool := value == 0x20 || value == 0x09

/-- `split_mount_line`. -/
def splitMountLine (line : List UInt8) : List (List UInt8) := splitBlank isMountSeparator line

/-- `mount_record`. -/
structure MountRecord where
  source : List UInt8
  mountPoint : List UInt8
  fileSystemType : List UInt8
  deriving DecidableEq, Repr

/-- The body of the loop of `parse_mounts`: a line without fields gives no record. -/
def parseMountLine (line : List UInt8) : Result (Option MountRecord) :=
  match splitMountLine line with
  | [] => .ok none
  | source :: target :: type :: _ :: _ :: _ :: _ => do
    let source ← decodeMountField source
    let target ← decodeMountField target
    let type ← decodeMountField type
    .ok (some ⟨source, target, type⟩)
  | _ => fail .malformedData

/-- The loop of `parse_mounts`. -/
def parseMountLines : List (List UInt8) → Result (List MountRecord)
  | [] => .ok []
  | line :: more => do
    let record ← parseMountLine line
    let records ← parseMountLines more
    .ok (record.toList ++ records)

/-- `parse_mounts`. -/
def parseMounts (input : List UInt8) : Result (List MountRecord) :=
  parseMountLines (lines 0x0A input)

end Filesystem

namespace Storage

/-- The separators that the scan tests for. -/
def isSeparator (c : UInt8) : Bool := c == 0x20 || c == 0x09

/-- Separators are skipped, and what follows up to the next is a field. -/
def scanField (p : List UInt8) : List UInt8 × List UInt8 :=
  let s := p.dropWhile isSeparator
  (s.takeWhile (fun c => !isSeparator c), s.dropWhile (fun c => !isSeparator c))

/-- The fields that are left in the line. -/
def countFields (p : List UInt8) : ℕ :=
  match _h : p.dropWhile isSeparator with
  | [] => 0
  | _ :: rest => 1 + countFields (rest.dropWhile (fun c => !isSeparator c))
termination_by p.length
decreasing_by
  have hskip := List.length_dropWhile_le isSeparator p
  have hfield := List.length_dropWhile_le (fun c => !isSeparator c) rest
  rw [_h, List.length_cons] at hskip
  omega

/-- `mount_entry`. -/
structure MountEntry where
  deviceName : List UInt8
  mountPoint : List UInt8
  fstype : List UInt8
  deriving DecidableEq, Repr

/-- The body of the loop of `parse_mount_table`. -/
def parseTableLine (line : List UInt8) : Result (Option MountEntry) :=
  if line = [] then .ok none
  else
    let (rawSource, p) := scanField line
    let (rawTarget, p) := scanField p
    let (rawFstype, p) := scanField p
    if rawSource = [] ∨ rawTarget = [] ∨ rawFstype = [] then fail .malformedData
    else if 3 + countFields p < 6 then fail .malformedData
    else if ascii "/dev/" <+: rawSource ∧ rawSource.length > 5 ∧ rawTarget ≠ [] then do
      let source ← decodeMountField (rawSource.drop 5)
      let target ← decodeMountField rawTarget
      let fstype ← decodeMountField rawFstype
      .ok (some ⟨source, target, fstype⟩)
    else .ok none

/-- The loop of `parse_mount_table`. -/
def parseTableLines : List (List UInt8) → Result (List MountEntry)
  | [] => .ok []
  | line :: more => do
    let entry ← parseTableLine line
    let entries ← parseTableLines more
    .ok (entry.toList ++ entries)

/-- `parse_mount_table`. -/
def parseMountTable (text : List UInt8) : Result (List MountEntry) :=
  parseTableLines (lines 0x0A text)

end Storage

namespace MountFields
open Filesystem Storage

section Scanning

theorem isSeparator_eq : isSeparator = isMountSeparator := rfl

/-- Scanning for a field splits the first one off. -/
theorem splitMountLine_scanField (p : List UInt8) :
    splitMountLine p =
      if (scanField p).1 = [] then [] else (scanField p).1 :: splitMountLine (scanField p).2 := by
  have hfield : (scanField p).1 = [] ↔ p.dropWhile isMountSeparator = [] := by
    rw [scanField, isSeparator_eq]
    dsimp only
    constructor
    · intro hnil
      by_contra hne
      have hhead := List.head_dropWhile_not isMountSeparator (l := p) hne
      rw [← List.cons_head_tail hne, List.takeWhile_cons_of_pos (by simp [hhead])] at hnil
      cases hnil
    · intro hnil
      rw [hnil, List.takeWhile_nil]
  rw [splitMountLine, splitBlank_eq]
  simp only [hfield]
  rfl

theorem countFields_eq (p : List UInt8) : countFields p = (splitMountLine p).length := by
  induction hn : p.length using Nat.strongRecOn generalizing p with
  | ind n ih =>
    rw [countFields, splitMountLine, splitBlank_eq]
    rw [isSeparator_eq]
    split
    · next hnil => rw [if_pos hnil, List.length_nil]
    · next c rest hcons =>
      have hlen := List.length_dropWhile_le isMountSeparator p
      have hrest := List.length_dropWhile_le (fun c => !isMountSeparator c) rest
      rw [hcons, List.length_cons] at hlen
      have hc : isMountSeparator c = false := by
        have hhead := List.head_dropWhile_not isMountSeparator (l := p) (by simp [hcons])
        simpa [hcons] using hhead
      rw [hcons, if_neg (by simp), List.dropWhile_cons_of_pos (by simp [hc]),
        ih _ (by omega) _ rfl, List.length_cons, Nat.add_comm]
      rfl

/-- The fields of a line of the storage devices. -/
theorem parseTableLine_eq {line : List UInt8} (h : line ≠ []) :
    parseTableLine line =
      match splitMountLine line with
      | source :: target :: type :: _ :: _ :: _ :: _ =>
        if ascii "/dev/" <+: source ∧ source.length > 5 then do
          let source ← Storage.decodeMountField (source.drop 5)
          let target ← Storage.decodeMountField target
          let type ← Storage.decodeMountField type
          .ok (some ⟨source, target, type⟩)
        else .ok none
      | _ => fail .malformedData := by
  have hsource := splitMountLine_scanField line
  have htarget := splitMountLine_scanField (scanField line).2
  have htype := splitMountLine_scanField (scanField (scanField line).2).2
  unfold parseTableLine
  rw [if_neg h]
  dsimp only
  rw [countFields_eq]
  by_cases h1 : (scanField line).1 = []
  · rw [if_pos (.inl h1), hsource, if_pos h1]
  rw [if_neg h1] at hsource
  by_cases h2 : (scanField (scanField line).2).1 = []
  · rw [if_pos h2] at htarget
    rw [if_pos (.inr (.inl h2)), hsource, htarget]
  rw [if_neg h2] at htarget
  by_cases h3 : (scanField (scanField (scanField line).2).2).1 = []
  · rw [if_pos h3] at htype
    rw [if_pos (.inr (.inr h3)), hsource, htarget, htype]
  rw [if_neg h3] at htype
  rw [if_neg (by simp [h1, h2, h3]), hsource, htarget, htype]
  -- the fields that are only counted
  match splitMountLine (scanField (scanField (scanField line).2).2).2 with
  | [] => rfl
  | [_] => rfl
  | [_, _] => rfl
  | a :: b :: c :: more =>
    rw [if_neg (by simp only [List.length_cons]; omega)]
    simp [h2]

end Scanning

section Lines

/-- The entry of a record, if it is a block device. -/
def project (r : MountRecord) : Option MountEntry :=
  if ascii "/dev/" <+: r.source ∧ r.source.length > 5 then
    some ⟨r.source.drop 5, r.mountPoint, r.fileSystemType⟩
  else none

theorem isKnown_of_decodeMountEscape {text : List UInt8} {b : UInt8}
    (h : decodeMountEscape text = .ok b) : isKnown b = true := by
  unfold decodeMountEscape at h
  split at h
  · dsimp only at h
    split_ifs at h
    all_goals cases h
    all_goals rfl
  · cases h

/-- Bytes that are never escaped are decoded to themselves. -/
theorem decodeKnownEscapes_plain {plain : List UInt8} (h : ∀ c ∈ plain, isKnown c = false)
    (rest : List UInt8) :
    decodeKnownEscapes (plain ++ rest) = (decodeKnownEscapes rest).map (plain ++ ·) := by
  have happend := @decodeKnownEscapes_append isKnown rfl plain (fun _ _ hb => hb) rest
  rwa [escape_eq_self h] at happend

/-- They only come from themselves. -/
theorem plain_of_decodeKnownEscapes {plain : List UInt8} (h : ∀ c ∈ plain, isKnown c = false)
    {raw decoded : List UInt8} (hdecode : decodeKnownEscapes raw = .ok decoded)
    (hplain : plain <+: decoded) : plain <+: raw := by
  induction plain generalizing raw decoded with
  | nil => exact List.nil_prefix
  | cons c plain ih =>
    obtain ⟨more, rfl⟩ := hplain
    cases raw with
    | nil =>
      rw [decodeKnownEscapes] at hdecode
      cases hdecode
    | cons d raw =>
      by_cases hd : d = 0x5C
      · rw [decodeKnownEscapes, if_neg (by simp [hd])] at hdecode
        obtain ⟨b, hb, hrest⟩ := bind_eq_ok.mp hdecode
        obtain ⟨output, -, houtput⟩ := bind_eq_ok.mp hrest
        cases houtput
        have hknown := isKnown_of_decodeMountEscape hb
        rw [h c (by simp)] at hknown
        cases hknown
      · rw [decodeKnownEscapes, if_pos hd] at hdecode
        obtain ⟨output, houtput, hrest⟩ := bind_eq_ok.mp hdecode
        cases hrest
        rw [List.cons_prefix_cons]
        exact ⟨rfl, ih (fun e he => h e (by simp [he])) houtput (List.prefix_append plain more)⟩

/-- Only the empty field is decoded to the empty text. -/
theorem decodeKnownEscapes_nil_iff {raw decoded : List UInt8}
    (h : decodeKnownEscapes raw = .ok decoded) : raw = [] ↔ decoded = [] := by
  cases raw with
  | nil =>
    rw [decodeKnownEscapes] at h
    cases h
    exact Iff.rfl
  | cons c raw =>
    rw [decodeKnownEscapes] at h
    split_ifs at h
    · obtain ⟨output, -, houtput⟩ := bind_eq_ok.mp h
      cases houtput
      simp
    · obtain ⟨b, -, hrest⟩ := bind_eq_ok.mp h
      obtain ⟨output, -, houtput⟩ := bind_eq_ok.mp hrest
      cases houtput
      simp

theorem not_known_dev : ∀ c ∈ ascii "/dev/", isKnown c = false := forall_of_all (by decide)

theorem length_dev_append (rest : List UInt8) : (ascii "/dev/" ++ rest).length > 5 ↔ rest ≠ [] := by
  have hlen : (ascii "/dev/").length = 5 := rfl
  rw [List.length_append, hlen, ← List.length_pos_iff]
  omega

/-- The prefix is there before the decoding if it is there afterwards, and the rest is
decoded by itself. -/
theorem exists_of_dev_prefix {raw source : List UInt8} (h : decodeKnownEscapes raw = .ok source)
    (hdev : ascii "/dev/" <+: raw ∨ ascii "/dev/" <+: source) :
    ∃ rest decoded, raw = ascii "/dev/" ++ rest ∧ source = ascii "/dev/" ++ decoded ∧
      decodeKnownEscapes rest = .ok decoded := by
  have hraw : ascii "/dev/" <+: raw := by
    rcases hdev with hdev | hdev
    · exact hdev
    · exact plain_of_decodeKnownEscapes not_known_dev h hdev
  obtain ⟨rest, rfl⟩ := hraw
  rw [decodeKnownEscapes_plain not_known_dev] at h
  cases hrest : decodeKnownEscapes rest with
  | error e =>
    rw [hrest] at h
    cases h
  | ok decoded =>
    rw [hrest] at h
    exact ⟨rest, decoded, rfl, (Except.ok.inj h).symm, hrest⟩

/-- The test of the prefix and the decoding commute. -/
theorem decode_device {raw source : List UInt8} (h : decodeKnownEscapes raw = .ok source) :
    ((ascii "/dev/" <+: raw ∧ raw.length > 5) ↔ (ascii "/dev/" <+: source ∧ source.length > 5)) ∧
      (ascii "/dev/" <+: raw → decodeKnownEscapes (raw.drop 5) = .ok (source.drop 5)) := by
  constructor
  · constructor
    · rintro ⟨hdev, hlong⟩
      obtain ⟨rest, decoded, rfl, rfl, hrest⟩ := exists_of_dev_prefix h (.inl hdev)
      rw [length_dev_append, ne_eq, decodeKnownEscapes_nil_iff hrest] at hlong
      exact ⟨List.prefix_append _ _, (length_dev_append decoded).mpr hlong⟩
    · rintro ⟨hdev, hlong⟩
      obtain ⟨rest, decoded, rfl, rfl, hrest⟩ := exists_of_dev_prefix h (.inr hdev)
      rw [length_dev_append, ne_eq, ← decodeKnownEscapes_nil_iff hrest] at hlong
      exact ⟨List.prefix_append _ _, (length_dev_append rest).mpr hlong⟩
  · intro hdev
    obtain ⟨rest, decoded, rfl, rfl, hrest⟩ := exists_of_dev_prefix h (.inl hdev)
    have hlen : (ascii "/dev/").length = 5 := rfl
    rwa [← hlen, List.drop_left, List.drop_left]

/-- A line with a record has the entry of the record. -/
theorem parseTableLine_of_record {line : List UInt8} {r : MountRecord}
    (h : parseMountLine line = .ok (some r)) : parseTableLine line = .ok (project r) := by
  have hne : line ≠ [] := by
    rintro rfl
    rw [parseMountLine, splitMountLine, splitBlank_nil] at h
    cases h
  rw [parseTableLine_eq hne]
  unfold parseMountLine at h
  split at h
  · cases h
  · next rawSource rawTarget rawType _ _ _ _ hfields =>
    obtain ⟨source, hsource, h⟩ := bind_eq_ok.mp h
    obtain ⟨target, htarget, h⟩ := bind_eq_ok.mp h
    obtain ⟨type, htype, h⟩ := bind_eq_ok.mp h
    cases h
    obtain ⟨hdevice, hdrop⟩ := decode_device hsource
    rw [hfields, project]
    dsimp only
    by_cases hdev : ascii "/dev/" <+: rawSource ∧ rawSource.length > 5
    · have hsource' : Storage.decodeMountField (rawSource.drop 5) = .ok (source.drop 5) :=
        hdrop hdev.1
      have htarget' : Storage.decodeMountField rawTarget = .ok target := htarget
      have htype' : Storage.decodeMountField rawType = .ok type := htype
      rw [if_pos hdev, if_pos (hdevice.mp hdev), hsource', ok_bind, htarget', ok_bind, htype',
        ok_bind]
    · rw [if_neg hdev, if_neg fun h => hdev (hdevice.mpr h)]
  · cases h

/-- Only a line of separators has neither fields nor an error. -/
theorem blank_of_parseMountLine {line : List UInt8} (h : parseMountLine line = .ok none) :
    ∀ c ∈ line, isMountSeparator c = true := by
  unfold parseMountLine at h
  split at h
  · next hnil => exact splitBlank_eq_nil_iff.mp hnil
  · obtain ⟨source, -, h⟩ := bind_eq_ok.mp h
    obtain ⟨target, -, h⟩ := bind_eq_ok.mp h
    obtain ⟨type, -, h⟩ := bind_eq_ok.mp h
    cases h
  · cases h

end Lines

section Tables

/-- No line consists of separators only. (Both parsers skip lines that are empty.) -/
def NoBlankLines (text : List UInt8) : Prop :=
  ∀ line ∈ lines 0x0A text, line ≠ [] → ∃ c ∈ line, isMountSeparator c = false

theorem parseTableLines_of_records {ls : List (List UInt8)} {records : List MountRecord}
    (hblank : ∀ line ∈ ls, line ≠ [] → ∃ c ∈ line, isMountSeparator c = false)
    (h : parseMountLines ls = .ok records) :
    parseTableLines ls = .ok (records.filterMap project) := by
  induction ls generalizing records with
  | nil =>
    cases h
    rfl
  | cons line ls ih =>
    rw [parseMountLines] at h
    obtain ⟨record, hrecord, h⟩ := bind_eq_ok.mp h
    obtain ⟨more, hmore, h⟩ := bind_eq_ok.mp h
    cases h
    have hentries := ih (fun l hl => hblank l (by simp [hl])) hmore
    rw [parseTableLines, hentries]
    cases record with
    | none =>
      have hall := blank_of_parseMountLine hrecord
      have hnil : line = [] := by
        by_contra hne
        obtain ⟨c, hc, hseparator⟩ := hblank line (by simp) hne
        rw [hall c hc] at hseparator
        cases hseparator
      rw [parseTableLine, if_pos hnil]
      rfl
    | some r =>
      rw [parseTableLine_of_record hrecord, ok_bind, ok_bind, Option.toList_some,
        List.singleton_append, List.filterMap_cons]
      cases project r with
      | none => rfl
      | some entry => rfl

/-- Separators between two fields. -/
structure Gap where
  bytes : List UInt8
  ne : bytes ≠ []
  separators : ∀ c ∈ bytes, isMountSeparator c = true

/-- A field that is not decoded. -/
structure BlankFree where
  bytes : List UInt8
  ne : bytes ≠ []
  blankFree : ∀ c ∈ bytes, isMountSeparator c = false ∧ c ≠ 0x0A

/-- A row of the table: a device, a mount point and a type, and at least three further
fields. -/
structure MountRow where
  device : List UInt8
  device_ne : device ≠ []
  mountPoint : List UInt8
  mountPoint_ne : mountPoint ≠ []
  type : List UInt8
  type_ne : type ≠ []
  gap : Gap
  gap' : Gap
  further : List (Gap × BlankFree)
  further_ge : 3 ≤ further.length

namespace MountRow

def record (row : MountRow) : MountRecord := ⟨row.device, row.mountPoint, row.type⟩

/-- The row as it is written, with the four escapes. -/
def line (row : MountRow) : List UInt8 :=
  escape isKnown row.device ++ (row.gap.bytes ++ (escape isKnown row.mountPoint ++
    (row.gap'.bytes ++ (escape isKnown row.type ++
      row.further.flatMap fun entry => entry.1.bytes ++ entry.2.bytes))))

end MountRow

/-- Escaped texts have no separators. -/
theorem escape_blankFree (text : List UInt8) :
    ∀ c ∈ escape isKnown text, isMountSeparator c = false ∧ c ≠ 0x0A := by
  intro c hc
  constructor
  · by_contra hsep
    rw [Bool.not_eq_false, isMountSeparator, Bool.or_eq_true, beq_iff_eq, beq_iff_eq] at hsep
    rcases hsep with rfl | rfl
    · exact not_mem_escape text (by decide) rfl rfl hc
    · exact not_mem_escape text (by decide) rfl rfl hc
  · rintro rfl
    exact not_mem_escape text (by decide) rfl rfl hc

theorem decode_escape (text : List UInt8) : decodeKnownEscapes (escape isKnown text) = .ok text := by
  have h := @decodeKnownEscapes_append isKnown rfl text (fun _ _ hb => hb) []
  rw [List.append_nil] at h
  rw [h, decodeKnownEscapes]
  simp [Except.map]

/-- The fields of a line: a field, a gap, and the rest. -/
theorem splitMountLine_field {field rest : List UInt8} (hne : field ≠ [])
    (hfield : ∀ c ∈ field, isMountSeparator c = false) (gap : Gap) :
    splitMountLine (field ++ (gap.bytes ++ rest)) = field :: splitMountLine rest := by
  obtain ⟨c, more, hgap⟩ := List.exists_cons_of_ne_nil gap.ne
  rw [splitMountLine, splitBlank_token hne hfield, splitBlank_append_blanks gap.separators,
    splitMountLine]
  intro d hd
  rw [hgap, List.cons_append, List.head?_cons] at hd
  cases hd
  exact gap.separators _ (by simp [hgap])

theorem splitMountLine_further (field : BlankFree) (further : List (Gap × BlankFree)) :
    splitMountLine (field.bytes ++ further.flatMap fun entry => entry.1.bytes ++ entry.2.bytes) =
      field.bytes :: further.map fun entry => entry.2.bytes := by
  induction further generalizing field with
  | nil =>
    rw [List.flatMap_nil, splitMountLine, splitBlank_token field.ne
      (fun c hc => (field.blankFree c hc).1) (by simp), splitBlank_nil, List.map_nil]
  | cons entry further ih =>
    rw [List.flatMap_cons, List.append_assoc,
      splitMountLine_field field.ne (fun c hc => (field.blankFree c hc).1), ih, List.map_cons]

theorem splitMountLine_row (row : MountRow) :
    splitMountLine row.line =
      escape isKnown row.device :: escape isKnown row.mountPoint :: escape isKnown row.type ::
        row.further.map fun entry => entry.2.bytes := by
  have hfree : ∀ text, ∀ c ∈ escape isKnown text, isMountSeparator c = false :=
    fun text c hc => (escape_blankFree text c hc).1
  have htype := splitMountLine_further
    ⟨escape isKnown row.type, escape_ne_nil row.type_ne, escape_blankFree row.type⟩ row.further
  rw [MountRow.line, splitMountLine_field (escape_ne_nil row.device_ne) (hfree _),
    splitMountLine_field (escape_ne_nil row.mountPoint_ne) (hfree _), htype]

/-- A row is read as its record. -/
theorem parseMountLine_row (row : MountRow) : parseMountLine row.line = .ok (some row.record) := by
  have hge := row.further_ge
  unfold parseMountLine
  rw [splitMountLine_row]
  match hfurther : row.further with
  | [] => simp [hfurther] at hge
  | [_] => simp [hfurther] at hge
  | [_, _] => simp [hfurther] at hge
  | a :: b :: c :: more =>
    simp only [List.map_cons, Filesystem.decodeMountField, decode_escape, ok_bind]
    rfl

theorem line_ok (row : MountRow) : 0x0A ∉ row.line ∧ row.line ≠ [] := by
  have hgap : ∀ gap : Gap, 0x0A ∉ gap.bytes := by
    intro gap hmem
    exact absurd (gap.separators _ hmem) (by decide)
  constructor
  · have hfurther : 0x0A ∉ row.further.flatMap fun entry => entry.1.bytes ++ entry.2.bytes := by
      intro hmem
      obtain ⟨entry, -, hentry⟩ := List.mem_flatMap.mp hmem
      rcases List.mem_append.mp hentry with h | h
      · exact hgap _ h
      · exact (entry.2.blankFree _ h).2 rfl
    have hescape : ∀ text, 0x0A ∉ escape isKnown text :=
      fun text hmem => (escape_blankFree text _ hmem).2 rfl
    simp [MountRow.line, hfurther, hescape, hgap]
  · simp [MountRow.line, escape_ne_nil row.device_ne]

/-- The table of some rows; the last newline may be missing. -/
def renderTable (terminated : Bool) (rows : List MountRow) : List UInt8 :=
  if terminated then (rows.map MountRow.line).flatMap (· ++ [0x0A])
  else [0x0A].intercalate (rows.map MountRow.line)

theorem lines_renderTable (terminated : Bool) (rows : List MountRow) :
    lines 0x0A (renderTable terminated rows) = rows.map MountRow.line := by
  apply lines_written
  intro line hline
  obtain ⟨row, -, rfl⟩ := List.mem_map.mp hline
  exact line_ok row

theorem parseMounts_renderTable (terminated : Bool) (rows : List MountRow) :
    parseMounts (renderTable terminated rows) = .ok (rows.map MountRow.record) := by
  rw [parseMounts, lines_renderTable]
  induction rows with
  | nil => rfl
  | cons row rows ih =>
    rw [List.map_cons, parseMountLines, parseMountLine_row, ok_bind, ih, ok_bind]
    rfl

theorem noBlankLines_renderTable (terminated : Bool) (rows : List MountRow) :
    NoBlankLines (renderTable terminated rows) := by
  rw [NoBlankLines, lines_renderTable]
  intro line hline _
  obtain ⟨row, -, rfl⟩ := List.mem_map.mp hline
  have hne : escape isKnown row.device ≠ [] := escape_ne_nil row.device_ne
  obtain ⟨c, more, hdevice⟩ := List.exists_cons_of_ne_nil hne
  refine ⟨c, ?_, (escape_blankFree row.device c (by simp [hdevice])).1⟩
  rw [MountRow.line, hdevice]
  simp

/-- Both parsers give the rows of a table back, that of the storage devices those of block
devices; and it accepts what the other accepts, with the same records. -/
theorem mount_parsers_agree :
    (∀ (terminated : Bool) (rows : List MountRow),
      parseMounts (renderTable terminated rows) = .ok (rows.map MountRow.record) ∧
        parseMountTable (renderTable terminated rows) =
          .ok ((rows.map MountRow.record).filterMap project)) ∧
      ∀ text records, NoBlankLines text → parseMounts text = .ok records →
        parseMountTable text = .ok (records.filterMap project) := by
  have hagree : ∀ text records, NoBlankLines text → parseMounts text = .ok records →
      parseMountTable text = .ok (records.filterMap project) :=
    fun text records hblank h => parseTableLines_of_records hblank h
  refine ⟨?_, hagree⟩
  intro terminated rows
  have hmounts := parseMounts_renderTable terminated rows
  exact ⟨hmounts, hagree _ _ (noBlankLines_renderTable terminated rows) hmounts⟩

def plainTable : List UInt8 := ascii "/dev/sda1 / ext4 rw 0 0\n\nproc /proc proc rw 0 0\n"

def plainRecords : List MountRecord :=
  [⟨ascii "/dev/sda1", ascii "/", ascii "ext4"⟩, ⟨ascii "proc", ascii "/proc", ascii "proc"⟩]

theorem plainTable_agree :
    NoBlankLines plainTable ∧ parseMounts plainTable = .ok plainRecords ∧
      parseMountTable plainTable = .ok (plainRecords.filterMap project) := by
  have hblank : NoBlankLines plainTable := by
    unfold NoBlankLines
    decide
  have hmounts : parseMounts plainTable = .ok plainRecords := by decide +kernel
  exact ⟨hblank, hmounts, mount_parsers_agree.2 plainTable plainRecords hblank hmounts⟩

end Tables

end MountFields

end Syscape
