import Syscape.Software
import Syscape.Lib.Lines

/-!
# Files with groups of keys

Desktop entries and units of systemd are written alike: headers in brackets, each with lines of
keys and values behind it, and comments anywhere. Both readers go through such a file line by
line; what they make of it depends on its groups, keys and values only.
-/
namespace Syscape.Software
open Text Lines

section Reading
variable {σ : Type}

/-- The two parts of a line around its first `=`, trimmed. -/
def keyAndValue (line : List UInt8) : Option (List UInt8 × List UInt8) :=
  if 0x3D ∈ line then
    some (trimWhitespaceView (line.takeWhile (· ≠ 0x3D)),
      trimWhitespaceView ((line.dropWhile (· ≠ 0x3D)).drop 1))
  else none

/-- The body of the loops, given what they do at a header and with a key and its value. -/
def readIniLine (header : σ → List UInt8 → σ) (assign : σ → List UInt8 → List UInt8 → σ) (s : σ)
    (rawLine : List UInt8) : σ :=
  let line := trimWhitespaceView rawLine
  if line = [] ∨ line.head? = some 0x23 ∨ line.head? = some 0x3B then s
  else if line.head? = some 0x5B ∧ line.getLast? = some 0x5D then header s line
  else
    match keyAndValue line with
    | none => s
    | some (key, val) => assign s key val

end Reading

section Files

/-- A line that is blank or a comment. -/
structure SilentLine where
  bytes : List UInt8
  silent : trimWhitespaceView bytes = [] ∨ (trimWhitespaceView bytes).head? = some 0x23 ∨
    (trimWhitespaceView bytes).head? = some 0x3B
  line : 0x0A ∉ bytes

/-- A line with a key and what follows the `=`. -/
structure KeyLine where
  key : List UInt8
  key_ne : key ≠ []
  key_head : ∀ c ∈ key.head?, isspace c = false ∧ c ≠ 0x23 ∧ c ≠ 0x3B ∧ c ≠ 0x5B
  key_last : ∀ c ∈ key.getLast?, isspace c = false
  key_bytes : ∀ c ∈ key, c ≠ 0x3D ∧ c ≠ 0x0A
  text : List UInt8
  text_line : 0x0A ∉ text

def KeyLine.bytes (k : KeyLine) : List UInt8 := k.key ++ 0x3D :: k.text

def KeyLine.value (k : KeyLine) : List UInt8 := trimWhitespaceView k.text

/-- A line of a group. -/
inductive IniLine where
  | silent (s : SilentLine)
  | assign (k : KeyLine)

def IniLine.bytes : IniLine → List UInt8
  | .silent s => s.bytes
  | .assign k => k.bytes

/-- The key and the value of a line. -/
def IniLine.entry : IniLine → Option (List UInt8 × List UInt8)
  | .silent _ => none
  | .assign k => some (k.key, k.value)

/-- A group: a header and the lines behind it. -/
structure IniGroup where
  name : List UInt8
  name_line : 0x0A ∉ name
  lines : List IniLine

def IniGroup.header (g : IniGroup) : List UInt8 := 0x5B :: (g.name ++ [0x5D])

def IniGroup.entries (g : IniGroup) : List (List UInt8 × List UInt8) :=
  g.lines.filterMap IniLine.entry

/-- A file: lines that belong to no group, and groups. -/
structure IniFile where
  before : List IniLine
  groups : List IniGroup

def IniFile.lines (file : IniFile) : List (List UInt8) :=
  file.before.map IniLine.bytes ++
    file.groups.flatMap fun g => g.header :: g.lines.map IniLine.bytes

def IniFile.content (file : IniFile) : List UInt8 := file.lines.flatMap (· ++ [0x0A])

/-- The keys and values of all groups with that name, in order. -/
def IniFile.entriesOf (file : IniFile) (name : List UInt8) : List (List UInt8 × List UInt8) :=
  (file.groups.filter (·.name = name)).flatMap IniGroup.entries

/-- The values of a key, in order. -/
def valuesOf (key : List UInt8) (entries : List (List UInt8 × List UInt8)) : List (List UInt8) :=
  (entries.filter (·.1 = key)).map (·.2)

@[simp] theorem valuesOf_nil (key : List UInt8) : valuesOf key [] = [] := rfl

theorem valuesOf_concat (key : List UInt8) (entries : List (List UInt8 × List UInt8))
    (e : List UInt8 × List UInt8) :
    valuesOf key (entries ++ [e]) = valuesOf key entries ++ if e.1 = key then [e.2] else [] := by
  rw [valuesOf, valuesOf, List.filter_append, List.map_append]
  by_cases h : e.1 = key
  · simp [h]
  · simp [h]

theorem head?_append_ite (l : List (List UInt8)) (p : Prop) [Decidable p] (v : List UInt8) :
    (l ++ if p then [v] else []).head? = if p ∧ l.head? = none then some v else l.head? := by
  cases l with
  | nil => by_cases hp : p <;> simp [hp]
  | cons a l => simp

end Files

section Lines
variable {σ : Type} {header : σ → List UInt8 → σ} {assign : σ → List UInt8 → List UInt8 → σ}
  {s : σ}

theorem readIniLine_silent (l : SilentLine) : readIniLine header assign s l.bytes = s :=
  if_pos l.silent

/-- What is left of the line is the key, the `=` and the value, with blanks between them. -/
theorem trimWhitespaceView_keyLine (k : KeyLine) :
    ∃ core back, k.text = core ++ back ∧ (∀ c ∈ back, isspace c = true) ∧
      trimWhitespaceView k.bytes = k.key ++ 0x3D :: core := by
  obtain ⟨core, back, htext, hback, hcore⟩ := exists_trimmed isspace k.text
  refine ⟨core, back, htext, hback, ?_⟩
  have happend : k.bytes = (k.key ++ 0x3D :: core) ++ back := by
    rw [KeyLine.bytes, htext, List.append_assoc, List.cons_append]
  rw [happend, trimWhitespaceView_append hback]
  apply trimWhitespaceView_eq_self
  · intro c hc
    rw [List.head?_append_of_ne_nil _ k.key_ne] at hc
    exact (k.key_head c hc).1
  · rw [List.getLast?_append_of_ne_nil _ (by simp)]
    cases core with
    | nil => simp [isspace]
    | cons d core => simpa using hcore

theorem keyAndValue_keyLine (k : KeyLine) :
    keyAndValue (trimWhitespaceView k.bytes) = some (k.key, k.value) := by
  obtain ⟨core, back, htext, hback, hline⟩ := trimWhitespaceView_keyLine k
  have hbefore : ∀ d ∈ k.key, decide (d ≠ 0x3D) = true := by
    intro d hd
    simpa using (k.key_bytes d hd).1
  have hkey : trimWhitespaceView k.key = k.key :=
    trimWhitespaceView_eq_self (fun c hc => (k.key_head c hc).1) k.key_last
  have hvalue : trimWhitespaceView core = k.value := by
    rw [KeyLine.value, htext, trimWhitespaceView_append hback]
  rw [hline, keyAndValue, if_pos (by simp), List.takeWhile_append_of_pos hbefore,
    List.dropWhile_append_of_pos hbefore, List.takeWhile_cons_of_neg (by simp),
    List.dropWhile_cons_of_neg (by simp), List.append_nil, List.drop_one, List.tail_cons, hkey,
    hvalue]

theorem readIniLine_assign (k : KeyLine) :
    readIniLine header assign s k.bytes = assign s k.key k.value := by
  obtain ⟨core, back, -, -, hline⟩ := trimWhitespaceView_keyLine k
  obtain ⟨c, key, hkey⟩ := List.exists_cons_of_ne_nil k.key_ne
  have hhead : (trimWhitespaceView k.bytes).head? = some c := by
    rw [hline, hkey]
    rfl
  have hc := k.key_head c (by rw [hkey]; rfl)
  have hne : trimWhitespaceView k.bytes ≠ [] := by
    rw [hline]
    simp
  unfold readIniLine
  dsimp only
  rw [if_neg, if_neg, keyAndValue_keyLine]
  · rw [hhead]
    rintro ⟨h, -⟩
    exact hc.2.2.2 (Option.some.inj h)
  · rw [hhead]
    rintro (h | h | h)
    · exact hne h
    · exact hc.2.1 (Option.some.inj h)
    · exact hc.2.2.1 (Option.some.inj h)

theorem readIniLine_header (g : IniGroup) :
    readIniLine header assign s g.header = header s g.header := by
  have hline : trimWhitespaceView g.header = g.header := by
    apply trimWhitespaceView_eq_self
    · simp [IniGroup.header, isspace]
    · rw [IniGroup.header, ← List.cons_append, List.getLast?_concat]
      simp [isspace]
  have hlast : g.header.getLast? = some 0x5D := by
    rw [IniGroup.header, ← List.cons_append, List.getLast?_concat]
  unfold readIniLine
  rw [hline]
  dsimp only
  rw [if_neg (by simp [IniGroup.header]), if_pos ⟨rfl, hlast⟩]

/-- The lines of a group say what their keys and values say. -/
theorem foldl_iniLines (lines : List IniLine) (s : σ) :
    (lines.map IniLine.bytes).foldl (readIniLine header assign) s =
      (lines.filterMap IniLine.entry).foldl (fun s e => assign s e.1 e.2) s := by
  induction lines generalizing s with
  | nil => rfl
  | cons line lines ih =>
    rw [List.map_cons, List.foldl_cons]
    cases line with
    | silent l => rw [IniLine.bytes, readIniLine_silent, ih, List.filterMap_cons_none rfl]
    | assign k =>
      rw [IniLine.bytes, readIniLine_assign, ih]
      rfl

/-- A reader goes through the groups of a file. -/
theorem foldl_iniFile (file : IniFile) (s : σ) :
    (Lines.lines 0x0A file.content).foldl (readIniLine header assign) s =
      file.groups.foldl
        (fun s g => g.entries.foldl (fun s e => assign s e.1 e.2) (header s g.header))
        ((file.before.filterMap IniLine.entry).foldl (fun s e => assign s e.1 e.2) s) := by
  have hline : ∀ l : IniLine, 0x0A ∉ l.bytes := by
    intro l
    cases l with
    | silent l => exact l.line
    | assign k =>
      intro hmem
      rcases List.mem_append.mp hmem with hkey | htext
      · exact (k.key_bytes _ hkey).2 rfl
      · rcases List.mem_cons.mp htext with hsep | htext
        · exact absurd hsep (by decide)
        · exact k.text_line htext
  have hlines : ∀ line ∈ file.lines, 0x0A ∉ line := by
    intro line hmem
    rcases List.mem_append.mp hmem with hbefore | hgroups
    · obtain ⟨l, -, rfl⟩ := List.mem_map.mp hbefore
      exact hline l
    · obtain ⟨g, -, hg⟩ := List.mem_flatMap.mp hgroups
      rcases List.mem_cons.mp hg with rfl | hg
      · simpa [IniGroup.header] using g.name_line
      · obtain ⟨l, -, rfl⟩ := List.mem_map.mp hg
        exact hline l
  rw [IniFile.content, lines_flatMap_sep hlines, IniFile.lines, List.foldl_append, foldl_iniLines]
  generalize (file.before.filterMap IniLine.entry).foldl (fun s e => assign s e.1 e.2) s = s
  induction file.groups generalizing s with
  | nil => rfl
  | cons g groups ih =>
    rw [List.flatMap_cons, List.foldl_append, List.foldl_cons, readIniLine_header, foldl_iniLines,
      ih]
    rfl

end Lines

end Syscape.Software
