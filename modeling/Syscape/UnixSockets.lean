import Syscape.Ipc

/-!
# The table of the UNIX sockets

The kernel writes the path of a bound socket behind exactly one blank, and an abstract name
behind an at sign. The reader finds every path again that does not begin with a blank and
has no newline inside.
-/
namespace Syscape.Ipc
open Checked Text Lines FromChars Numbers Digits Numerals Utf8
open Syscape.Software (isspace isspace_eq_false)

section Rendering

/-- What a socket is bound to: a path, or a name in the abstract namespace. -/
inductive Address where
  | pathname (path : List UInt8) (ne_nil : path ≠ []) (no_nul : 0 ∉ path) (valid : ValidUtf8 path)
  | abstractName (name : List UInt8) (valid : ValidUtf8 name)

/-- The path as the kernel shows it: NUL bytes of an abstract name, the first one included,
are at signs. -/
def Address.display : Address → List UInt8
  | .pathname path _ _ _ => path
  | .abstractName name _ => 0x40 :: name.map fun c => if c = 0 then 0x40 else c

/-- A socket with the columns that the kernel prints for it. The first of them is the
address of the socket, or what is printed in its place. -/
structure Socket where
  num : ℕ
  num_lt : num < 2 ^ 64
  numText : List UInt8
  num_numeral : Numeral 16 num numText
  refCount : ℕ
  refCount_lt : refCount < 2 ^ 32
  flags : ℕ
  flags_lt : flags < 2 ^ 32
  type : ℕ
  type_lt : type < 2 ^ 32
  state : ℕ
  state_lt : state < 2 ^ 32
  inode : ℕ
  inode_lt : inode < 2 ^ 64
  address : Option Address

/-- The path of a socket; an unbound one has none. -/
def Socket.path (s : Socket) : List UInt8 := s.address.elim [] Address.display

/-- The columns behind the first, each with the blanks in front of it. -/
def Socket.columns (s : Socket) : List (List UInt8 × List UInt8) :=
  [([0x20], paddedHex 8 s.refCount), ([0x20], paddedHex 8 0), ([0x20], paddedHex 8 s.flags),
    ([0x20], paddedHex 4 s.type), ([0x20], paddedHex 2 s.state),
    (0x20 :: List.replicate (5 - (decimal s.inode).length) 0x20, decimal s.inode)]

/-- The row that the kernel prints, without its newline. -/
def Socket.row (s : Socket) : List UInt8 :=
  s.numText ++ 0x3A :: (s.columns.flatMap (fun column => column.1 ++ column.2) ++
    s.address.elim [] fun address => 0x20 :: address.display)

def tableHeader : List UInt8 := ascii "Num       RefCount Protocol Flags    Type St Inode Path"

def table (sockets : List Socket) : List UInt8 :=
  tableHeader ++ 0x0A :: (sockets.map Socket.row).flatMap (· ++ [0x0A])

/-- The entry that describes a socket. -/
def Socket.entry (s : Socket) (pidMap : InodePidMap) : LocalSocket where
  path := s.path
  inode := s.inode
  type := socketType s.type
  state := socketState s.flags s.state
  refCount := s.refCount
  processIds := pidMap s.inode

/-- A path that stands in its row as the reader expects it. -/
def Findable (path : List UInt8) : Prop :=
  0x0A ∉ path ∧ ∀ c ∈ path.head?, isPathBlank c = false

instance (path : List UInt8) : Decidable (Findable path) := inferInstanceAs (Decidable (_ ∧ _))

theorem Address.display_ne_nil (a : Address) : a.display ≠ [] := by
  cases a with
  | pathname path hne _ _ => exact hne
  | abstractName name _ => exact List.cons_ne_nil _ _

theorem Address.valid_display (a : Address) : ValidUtf8 a.display := by
  cases a with
  | pathname path _ _ hvalid => exact hvalid
  | abstractName name hvalid =>
    exact (validUtf8_singleton (by decide)).append (hvalid.replace (by decide) (by decide))

theorem Socket.valid_path (s : Socket) : ValidUtf8 s.path := by
  unfold Socket.path
  cases s.address with
  | none => exact validUtf8_nil
  | some a => exact a.valid_display

end Rendering

section Rows

theorem requireUnsigned_numeral {base n max : ℕ} {text : List UInt8} (h : Numeral base n text)
    (hmax : n ≤ max) : requireUnsigned base max text = .ok n := by
  rw [requireUnsigned, parseUnsigned, numberOf_numeral h hmax]

theorem requireUnsigned_paddedHex {n : ℕ} (width : ℕ) (h : n < 2 ^ 32) :
    requireUnsigned 16 uint32Max (paddedHex width n) = .ok n :=
  requireUnsigned_numeral (numeral_paddedHex width n) (le_uint32Max h)

theorem isspace_numeral {base n : ℕ} {text : List UInt8} (h : Numeral base n text)
    (hbase : base ≤ 36) : ∀ c ∈ text, isspace c = false :=
  fun _ hc => isspace_eq_false (mem_numeral h hbase hc).1

/-- The columns have blanks in front of them and are numbers. -/
theorem Socket.columns_ok (s : Socket) :
    (∀ p ∈ s.columns, p.1 ≠ [] ∧ ∀ c ∈ p.1, c = 0x20) ∧
      ∀ p ∈ s.columns, ∃ base n, Numeral base n p.2 ∧ base ≤ 36 := by
  constructor
  · intro p hp
    simp only [Socket.columns, List.mem_cons, List.not_mem_nil, or_false] at hp
    rcases hp with rfl | rfl | rfl | rfl | rfl | rfl <;> simp
  · intro p hp
    simp only [Socket.columns, List.mem_cons, List.not_mem_nil, or_false] at hp
    rcases hp with rfl | rfl | rfl | rfl | rfl | rfl
    · exact ⟨16, _, numeral_paddedHex _ _, by decide⟩
    · exact ⟨16, _, numeral_paddedHex _ _, by decide⟩
    · exact ⟨16, _, numeral_paddedHex _ _, by decide⟩
    · exact ⟨16, _, numeral_paddedHex _ _, by decide⟩
    · exact ⟨16, _, numeral_paddedHex _ _, by decide⟩
    · exact ⟨10, _, numeral_decimal _, by decide⟩

/-- The seven tokens of a row, and what follows them. -/
theorem Socket.takeTokens_row (s : Socket) :
    takeTokens isspace 7 s.row =
      some ((s.numText ++ [0x3A]) :: s.columns.map Prod.snd,
        s.address.elim [] fun address => 0x20 :: address.display) := by
  obtain ⟨hblanks, hnumerals⟩ := s.columns_ok
  have hspaces : ∀ p ∈ s.columns, p.1 ≠ [] ∧ ∀ c ∈ p.1, isspace c = true := by
    intro p hp
    refine ⟨(hblanks p hp).1, fun c hc => ?_⟩
    rw [(hblanks p hp).2 c hc]
    rfl
  have htokens : ∀ p ∈ s.columns, p.2 ≠ [] ∧ ∀ c ∈ p.2, isspace c = false := by
    intro p hp
    obtain ⟨base, n, hnumeral, hbase⟩ := hnumerals p hp
    exact ⟨hnumeral.ne_nil, isspace_numeral hnumeral hbase⟩
  have hrest : ∀ c ∈ (s.address.elim [] fun address => 0x20 :: address.display).head?,
      isspace c = true := by
    intro c hc
    cases h : s.address with
    | none => simp [h] at hc
    | some a =>
      obtain rfl : 0x20 = c := by simpa [h] using hc
      rfl
  have hfirst : ∀ c ∈ s.numText ++ [0x3A], isspace c = false := by
    intro c hc
    rcases List.mem_append.mp hc with hc | hc
    · exact isspace_numeral s.num_numeral (by decide) c hc
    · rw [List.mem_singleton.mp hc]
      rfl
  have hnext : ∀ c ∈ (s.columns.flatMap (fun column => column.1 ++ column.2) ++
      s.address.elim [] fun address => 0x20 :: address.display).head?, isspace c = true := by
    intro c hc
    obtain rfl : 0x20 = c := by simpa [Socket.columns] using hc
    rfl
  have hcolumns : takeTokens isspace 6 (s.columns.flatMap (fun column => column.1 ++ column.2) ++
      s.address.elim [] fun address => 0x20 :: address.display) =
      some (s.columns.map Prod.snd, s.address.elim [] fun address => 0x20 :: address.display) :=
    takeTokens_columns hspaces htokens hrest
  have hrow : s.row = [] ++ ((s.numText ++ [0x3A]) ++
      (s.columns.flatMap (fun column => column.1 ++ column.2) ++
        s.address.elim [] fun address => 0x20 :: address.display)) := by simp [Socket.row]
  rw [hrow, takeTokens, takeToken_append (by simp) (by simp) hfirst hnext]
  simp only [Option.bind_eq_bind, Option.bind_some, hcolumns]

/-- The remainder of a row is a blank and the path; without more blanks in front, the path
is found. -/
theorem Socket.dropWhile_remaining (s : Socket) (h : ∀ c ∈ s.path.head?, isPathBlank c = false) :
    (s.address.elim [] fun address => 0x20 :: address.display).dropWhile isPathBlank = s.path := by
  unfold Socket.path at h ⊢
  cases haddress : s.address with
  | none => rfl
  | some a =>
    rw [haddress] at h
    simp only [Option.elim_some] at h ⊢
    rw [List.dropWhile_cons_of_pos (by rfl)]
    obtain ⟨c, display, hcons⟩ := List.exists_cons_of_ne_nil a.display_ne_nil
    rw [hcons] at h ⊢
    rw [List.dropWhile_cons_of_neg (by simp [h c rfl])]

theorem parseUnixLine_row (s : Socket) (pidMap : InodePidMap)
    (h : ∀ c ∈ s.path.head?, isPathBlank c = false) :
    parseUnixLine pidMap s.row = .ok (s.entry pidMap) := by
  have hnum : requireUnsigned 16 uint64Max s.numText = .ok s.num :=
    requireUnsigned_numeral s.num_numeral (le_uint64Max s.num_lt)
  have hinode : requireUnsigned 10 uint64Max (decimal s.inode) = .ok s.inode :=
    requireUnsigned_numeral (numeral_decimal s.inode) (le_uint64Max s.inode_lt)
  have hproto : requireUnsigned 16 uint32Max (paddedHex 8 0) = .ok 0 :=
    requireUnsigned_paddedHex 8 (by decide)
  have hlast : (s.numText ++ [0x3A]).getLast? = some (0x3A : UInt8) := by simp
  have hvalid : isValidUtf8 s.path = .ok true := s.valid_path
  rw [parseUnixLine, s.takeTokens_row]
  simp only [Socket.columns, List.map_cons, List.map_nil, hlast, if_true, List.dropLast_concat,
    hnum, hproto, ok_bind, s.dropWhile_remaining h, hvalid, not_true_eq_false, if_false, hinode,
    requireUnsigned_paddedHex _ s.refCount_lt, requireUnsigned_paddedHex _ s.flags_lt,
    requireUnsigned_paddedHex _ s.type_lt, requireUnsigned_paddedHex _ s.state_lt]
  rfl

/-- A row is a line, unless there is a newline in its path. -/
theorem Socket.row_line (s : Socket) (h : 0x0A ∉ s.path) : 0x0A ∉ s.row ∧ s.row ≠ [] := by
  obtain ⟨hblanks, hnumerals⟩ := s.columns_ok
  have hnumeral {base n : ℕ} {text : List UInt8} (hn : Numeral base n text) (hbase : base ≤ 36) :
      0x0A ∉ text := fun hc => absurd (mem_numeral hn hbase hc).1 (by decide)
  refine ⟨?_, by simp [Socket.row]⟩
  rw [Socket.row]
  simp only [List.mem_append, List.mem_cons, List.mem_flatMap, not_or, not_exists, not_and]
  refine ⟨hnumeral s.num_numeral (by decide), by decide, ?_, ?_⟩
  · intro p hp
    obtain ⟨base, n, hp2, hbase⟩ := hnumerals p hp
    refine ⟨fun hc => ?_, hnumeral hp2 hbase⟩
    exact absurd ((hblanks p hp).2 _ hc) (by decide)
  · unfold Socket.path at h
    cases haddress : s.address with
    | none => simp
    | some a =>
      rw [haddress] at h
      rw [Option.elim_some, List.mem_cons, not_or]
      exact ⟨by decide, h⟩

end Rows

section Reading

theorem foldlM_rows (pidMap : InodePidMap) {sockets : List Socket} (out : List LocalSocket)
    (h : ∀ s ∈ sockets, Findable s.path) :
    (sockets.map Socket.row).foldlM (addUnixLine pidMap) out =
      .ok (out ++ sockets.map (Socket.entry · pidMap)) := by
  rw [List.foldlM_map, List.map_eq_flatMap]
  refine foldlM_flatMap (fun out s hs => ?_) out
  rw [addUnixLine, if_neg (s.row_line (h s hs).1).2, parseUnixLine_row s pidMap (h s hs).2, ok_bind]

theorem parseProcNetUnix_table (pidMap : InodePidMap) {sockets : List Socket}
    (h : ∀ s ∈ sockets, Findable s.path) :
    parseProcNetUnix (table sockets) pidMap = .ok (sockets.map (Socket.entry · pidMap)) := by
  have hheader : 0x0A ∉ tableHeader := by decide
  have hrows : ∀ line ∈ sockets.map Socket.row, 0x0A ∉ line := by
    intro line hline
    obtain ⟨s, hs, rfl⟩ := List.mem_map.mp hline
    exact (s.row_line (h s hs).1).1
  have hlines : lines 0x0A (table sockets) = tableHeader :: sockets.map Socket.row := by
    rw [table, lines_append_sep hheader, lines_flatMap_sep hrows]
  have hstarts : headerStartsWith (splitWhitespace tableHeader) expectedHeader = true := by
    decide +kernel
  rw [parseProcNetUnix, hlines]
  dsimp only
  rw [if_neg (by simp [hstarts]), foldlM_rows pidMap [] h, List.nil_append]

/-- Whatever the row is, its path has no newline and no blank in front. -/
theorem findable_of_parseUnixLine {pidMap : InodePidMap} {line : List UInt8} {sock : LocalSocket}
    (hline : 0x0A ∉ line) (h : parseUnixLine pidMap line = .ok sock) : Findable sock.path := by
  unfold parseUnixLine at h
  split at h
  · next num refCnt proto flags type state inode remaining htokens =>
    obtain ⟨_, -, h⟩ := bind_eq_ok.mp h
    obtain ⟨_, -, h⟩ := bind_eq_ok.mp h
    obtain ⟨valid, -, h⟩ := bind_eq_ok.mp h
    split_ifs at h
    · simp only [bind_eq_ok] at h
      obtain ⟨_, -, _, -, _, -, _, -, _, -, hsock⟩ := h
      cases hsock
      have hsuffix := takeTokens_suffix htokens
      refine ⟨fun hc => hline (hsuffix.subset ((List.dropWhile_suffix _).subset hc)), ?_⟩
      intro c hc
      have hne : remaining.dropWhile isPathBlank ≠ [] := by
        intro hnil
        rw [hnil] at hc
        cases hc
      have hhead := List.head_dropWhile_not isPathBlank hne
      rw [List.head?_eq_some_head hne, Option.mem_some_iff] at hc
      simpa [← hc] using hhead
    · cases h
  · cases h

theorem findable_of_foldlM {pidMap : InodePidMap} {rows : List (List UInt8)}
    {list out : List LocalSocket} (hrows : ∀ line ∈ rows, 0x0A ∉ line)
    (hlist : ∀ sock ∈ list, Findable sock.path)
    (h : rows.foldlM (addUnixLine pidMap) list = .ok out) : ∀ sock ∈ out, Findable sock.path := by
  induction rows generalizing list with
  | nil =>
    cases h
    exact hlist
  | cons line rows ih =>
    rw [List.foldlM_cons] at h
    obtain ⟨list', hlist', hout⟩ := bind_eq_ok.mp h
    refine ih (fun l hl => hrows l (by simp [hl])) ?_ hout
    unfold addUnixLine at hlist'
    split_ifs at hlist'
    · cases hlist'
      exact hlist
    · obtain ⟨sock, hsock, hok⟩ := bind_eq_ok.mp hlist'
      cases hok
      rw [List.forall_mem_append, List.forall_mem_singleton]
      exact ⟨hlist, findable_of_parseUnixLine (hrows line (by simp)) hsock⟩

/-- Every path that the reader reports could have been found. -/
theorem findable_of_parseProcNetUnix {content : List UInt8} {pidMap : InodePidMap}
    {out : List LocalSocket} (h : parseProcNetUnix content pidMap = .ok out) :
    ∀ sock ∈ out, Findable sock.path := by
  unfold parseProcNetUnix at h
  split at h
  · cases h
  · next header rows hlines =>
    split_ifs at h
    · refine findable_of_foldlM (fun line hline => ?_) (by simp) h
      exact not_mem_of_mem_lines (hlines ▸ List.mem_cons_of_mem header hline)
    · cases h

end Reading

/-- The table of any sockets gives them back in order with their paths just where no path
begins with a blank or has a newline inside. -/
theorem unix_paths_found_iff (sockets : List Socket) (pidMap : InodePidMap) :
    (∃ out, parseProcNetUnix (table sockets) pidMap = .ok out ∧
        out.map LocalSocket.path = sockets.map Socket.path) ↔
      ∀ s ∈ sockets, 0x0A ∉ s.path ∧ ∀ c ∈ s.path.head?, c ≠ 0x20 ∧ c ≠ 0x09 := by
  have hfindable (s : Socket) : (0x0A ∉ s.path ∧ ∀ c ∈ s.path.head?, c ≠ 0x20 ∧ c ≠ 0x09) ↔
      Findable s.path := by
    simp [Findable, isPathBlank]
  simp only [hfindable]
  constructor
  · rintro ⟨out, hout, hpaths⟩ s hs
    have hmem : s.path ∈ out.map LocalSocket.path := hpaths ▸ List.mem_map_of_mem hs
    obtain ⟨sock, hsock, hpath⟩ := List.mem_map.mp hmem
    rw [← hpath]
    exact findable_of_parseProcNetUnix hout sock hsock
  · intro h
    refine ⟨_, parseProcNetUnix_table pidMap h, ?_⟩
    rw [List.map_map]
    rfl

/-- A listening socket in the working directory of a server, with a blank at the front of its
name. -/
def blankSocket : Socket where
  num := 0
  num_lt := by decide
  numText := ascii "0000000000000000"
  num_numeral := ⟨by decide, forall_of_all (by decide), by decide⟩
  refCount := 2
  refCount_lt := by decide
  flags := 0x10000
  flags_lt := by decide
  type := 1
  type_lt := by decide
  state := 1
  state_lt := by decide
  inode := 27163
  inode_lt := by decide
  address := some (.pathname (ascii " bus") (by decide) (by decide) (by decide +kernel))

/-- The blank is lost. -/
theorem leading_blank_lost : blankSocket.path = ascii " bus" ∧
    parseProcNetUnix (table [blankSocket]) (fun _ => []) =
      .ok [⟨ascii "bus", 27163, .stream, .listening, 2, []⟩] := by
  decide +kernel

end Syscape.Ipc
