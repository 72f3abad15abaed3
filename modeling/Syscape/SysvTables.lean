import Syscape.SysvIpc
import Syscape.UnixSockets

/-!
# Tables of System V objects

A row is its columns with any blanks around them. The parsers give a record for each row,
in order and with the values of its columns, and nothing at all if one row has too few
columns or a column that is no number of its type. Columns behind those that they know are
not looked at: newer kernels print more of them for shared memory.
-/
namespace Syscape.Ipc
open Checked Text Lines FromChars Numbers Digits Numerals
open Syscape.Software (isspace isspace_eq_false)

section Columns

/-- The text is a decimal number of a signed type of so many bits. -/
def SignedNumeral (bits : ℕ) (z : ℤ) (text : List UInt8) : Prop :=
  (∃ n, Numeral 10 n text ∧ n ≤ 2 ^ (bits - 1) - 1 ∧ z = n) ∨
    ∃ n digits, text = 0x2D :: digits ∧ Numeral 10 n digits ∧ n ≤ 2 ^ (bits - 1) ∧ z = -n

theorem parseSigned_minus {bits : ℕ} {z : ℤ} {digits : List UInt8} :
    parseSigned 10 bits (0x2D :: digits) = some z ↔
      ∃ n : ℕ, Numeral 10 n digits ∧ n ≤ 2 ^ (bits - 1) ∧ z = -n := by
  simp only [parseSigned, fromCharsSigned, List.head?_cons, if_true, List.drop_one, List.tail_cons]
  constructor
  · intro h
    cases hvalue : (fromChars 10 (2 ^ (bits - 1)) digits).value with
    | none => simp [hvalue] at h
    | some n =>
      have hread : (if (fromChars 10 (2 ^ (bits - 1)) digits).read = 0 then 0
          else (fromChars 10 (2 ^ (bits - 1)) digits).read + 1) = digits.length + 1 ∧ -n = z := by
        simpa [hvalue] using h
      obtain ⟨hread, rfl⟩ := hread
      split_ifs at hread with hzero
      have hlength := Nat.add_right_cancel hread
      have hne : digits ≠ [] := by
        rintro rfl
        exact hzero hlength
      obtain ⟨hnumeral, hmax⟩ := Numeral.of_fromChars hne hlength hvalue
      exact ⟨n, hnumeral, hmax, rfl⟩
  · rintro ⟨n, hnumeral, hmax, rfl⟩
    rw [hnumeral.fromChars, if_pos hmax]
    simp [hnumeral.ne_nil]

theorem parseSigned_plain {bits : ℕ} {z : ℤ} {text : List UInt8} (h : text.head? ≠ some 0x2D) :
    parseSigned 10 bits text = some z ↔
      ∃ n : ℕ, Numeral 10 n text ∧ n ≤ 2 ^ (bits - 1) - 1 ∧ z = n := by
  simp only [parseSigned, fromCharsSigned, if_neg h]
  constructor
  · intro h
    cases hvalue : (fromChars 10 (2 ^ (bits - 1) - 1) text).value with
    | none => simp [hvalue] at h
    | some n =>
      have hread : (text ≠ [] ∧ (fromChars 10 (2 ^ (bits - 1) - 1) text).read = text.length) ∧
          n = z := by
        simpa [hvalue] using h
      obtain ⟨⟨hne, hread⟩, rfl⟩ := hread
      obtain ⟨hnumeral, hmax⟩ := Numeral.of_fromChars hne hread hvalue
      exact ⟨n, hnumeral, hmax, rfl⟩
  · rintro ⟨n, hnumeral, hmax, rfl⟩
    rw [hnumeral.fromChars, if_pos hmax]
    simp [hnumeral.ne_nil]

theorem parseSigned_eq_some {bits : ℕ} {z : ℤ} {text : List UInt8} :
    parseSigned 10 bits text = some z ↔ SignedNumeral bits z text := by
  by_cases hhead : text.head? = some 0x2D
  · obtain ⟨digits, rfl⟩ := List.head?_eq_some_iff.mp hhead
    rw [parseSigned_minus]
    constructor
    · rintro ⟨n, h⟩
      exact .inr ⟨n, digits, rfl, h⟩
    · rintro (⟨n, hnumeral, _⟩ | ⟨n, _, heq, h⟩)
      · exact absurd hhead (hnumeral.head?_ne_minus (by decide))
      · cases heq
        exact ⟨n, h⟩
  · rw [parseSigned_plain hhead]
    constructor
    · exact .inl
    · rintro (h | ⟨n, digits, rfl, _⟩)
      · exact h
      · exact absurd rfl hhead

/-- The value of a column, with the type that it is read as. -/
inductive Column where
  | signed (z : ℤ)
  | unsigned (base max n : ℕ)

/-- The text is the value, as a number of the type. -/
def Column.Spelled : Column → List UInt8 → Prop
  | signed z, text => SignedNumeral 64 z text
  | unsigned base max n, text => Numeral base n text ∧ n ≤ max

/-- The value is one of the type. -/
def Column.InRange : Column → Prop
  | signed z => -2 ^ 63 ≤ z ∧ z < 2 ^ 63
  | unsigned base max n => 1 < base ∧ base ≤ 10 ∧ n ≤ max

/-- The text that the kernel prints, without padding. -/
def Column.text : Column → List UInt8
  | signed z => signedDecimal z
  | unsigned base _ n => (ofNat base n).map asciiDigit

theorem Column.spelled_text {column : Column} (h : column.InRange) :
    column.Spelled column.text := by
  cases column with
  | signed z =>
    obtain ⟨hmin, hmax⟩ := h
    have hnumeral := numeral_decimal z.natAbs
    rw [Column.text, signedDecimal]
    split_ifs with hneg
    · exact .inr ⟨_, _, rfl, hnumeral, by omega, by omega⟩
    · exact .inl ⟨_, hnumeral, by omega, by omega⟩
  | unsigned base max n =>
    obtain ⟨hbase, hle, hmax⟩ := h
    exact ⟨numeral_map hbase (fun d hd => digit_asciiDigit (by omega)) n, hmax⟩

/-- What is printed is a token. -/
theorem Column.Spelled.token {column : Column} {text : List UInt8} (h : column.Spelled text)
    (hrange : column.InRange) : text ≠ [] ∧ ∀ c ∈ text, isspace c = false := by
  cases column with
  | signed z =>
    rcases h with ⟨n, hnumeral, _⟩ | ⟨n, digits, rfl, hnumeral, _⟩
    · exact ⟨hnumeral.ne_nil, isspace_numeral hnumeral (by decide)⟩
    · refine ⟨List.cons_ne_nil _ _, ?_⟩
      rw [List.forall_mem_cons]
      exact ⟨by decide, isspace_numeral hnumeral (by decide)⟩
  | unsigned base max n =>
    exact ⟨h.1.ne_nil, isspace_numeral h.1 (by have := hrange.2.1; omega)⟩

theorem requireSigned_eq_ok {z : ℤ} {text : List UInt8} :
    requireSigned 10 64 text = .ok z ↔ (Column.signed z).Spelled text := by
  rw [requireSigned, Column.Spelled, ← parseSigned_eq_some]
  cases parseSigned 10 64 text <;> simp

theorem requireUnsigned_eq_ok {base max n : ℕ} {text : List UInt8} :
    requireUnsigned base max text = .ok n ↔ (Column.unsigned base max n).Spelled text := by
  constructor
  · intro h
    rw [requireUnsigned, parseUnsigned] at h
    cases hnumber : numberOf base max text with
    | none => simp [hnumber] at h
    | some m =>
      rw [hnumber] at h
      obtain rfl : m = n := Except.ok.inj h
      exact numberOf_eq_some hnumber
  · rintro ⟨hnumeral, hmax⟩
    exact requireUnsigned_numeral hnumeral hmax

/-- The line is the texts with blanks around them. -/
inductive Line : List (List UInt8) → List UInt8 → Prop where
  | nil (blanks : List UInt8) (blank : ∀ c ∈ blanks, isspace c = true) : Line [] blanks
  | cons {texts : List (List UInt8)} {line : List UInt8} (blanks text : List UInt8)
      (blank : ∀ c ∈ blanks, isspace c = true) (ne_nil : text ≠ [])
      (token : ∀ c ∈ text, isspace c = false) (next : ∀ c ∈ line.head?, isspace c = true)
      (rest : Line texts line) : Line (text :: texts) (blanks ++ text ++ line)

/-- Padding does not matter. -/
theorem Line.splitWhitespace {texts : List (List UInt8)} {line : List UInt8} (h : Line texts line) :
    splitWhitespace line = texts := by
  induction h with
  | nil blanks hblank => exact splitBlank_eq_nil_iff.mpr hblank
  | cons blanks text hblank hne htoken hnext _ ih =>
    rw [Ipc.splitWhitespace, List.append_assoc, splitBlank_append_blanks hblank,
      splitBlank_token hne htoken hnext]
    exact congrArg _ ih

/-- One blank in front of each text is enough. -/
theorem line_flatMap {texts : List (List UInt8)}
    (h : ∀ text ∈ texts, text ≠ [] ∧ ∀ c ∈ text, isspace c = false) :
    Line texts (texts.flatMap (0x20 :: ·)) := by
  induction texts with
  | nil => exact .nil [] (by simp)
  | cons text texts ih =>
    rw [List.forall_mem_cons] at h
    have hnext : ∀ c ∈ (texts.flatMap (0x20 :: ·)).head?, isspace c = true := by
      cases texts with
      | nil => simp
      | cons next texts =>
        intro c hc
        obtain rfl : 0x20 = c := by simpa using hc
        decide
    exact .cons [0x20] text (List.forall_mem_singleton.mpr rfl) h.1.1 h.1.2 hnext (ih h.2)

/-- The first columns of a row have these values; more may follow. -/
def HasColumns : List Column → List (List UInt8) → Prop
  | [], _ => True
  | _ :: _, [] => False
  | column :: columns, col :: cols => column.Spelled col ∧ HasColumns columns cols

@[simp] theorem hasColumns_nil {cols : List (List UInt8)} : HasColumns [] cols := by
  simp [HasColumns]

theorem hasColumns_cons {column : Column} {columns : List Column} {cols : List (List UInt8)} :
    HasColumns (column :: columns) cols ↔
      ∃ col rest, cols = col :: rest ∧ column.Spelled col ∧ HasColumns columns rest := by
  cases cols with
  | nil => simp [HasColumns]
  | cons col cols =>
    constructor
    · intro h
      exact ⟨col, cols, rfl, h⟩
    · rintro ⟨_, _, heq, h⟩
      cases heq
      exact h

/-- Columns that are printed are there, whatever follows them. -/
theorem hasColumns_append {columns : List Column} {texts more : List (List UInt8)}
    (h : List.Forall₂ Column.Spelled columns texts) : HasColumns columns (texts ++ more) := by
  induction h with
  | nil => exact hasColumns_nil
  | cons hspelled _ ih => exact ⟨hspelled, ih⟩

/-- A row that has the columns is not shorter. -/
theorem HasColumns.length_le {columns : List Column} {cols : List (List UInt8)}
    (h : HasColumns columns cols) : columns.length ≤ cols.length := by
  induction columns generalizing cols with
  | nil => exact Nat.zero_le _
  | cons column columns ih =>
    obtain ⟨col, rest, rfl, _, hrest⟩ := hasColumns_cons.mp h
    exact Nat.succ_le_succ (ih hrest)

/-- The texts of the columns can be taken off the row. -/
theorem HasColumns.exists_ofFn {columns : List Column} {cols : List (List UInt8)}
    (h : HasColumns columns cols) :
    ∃ (text : Fin columns.length → List UInt8) (more : List (List UInt8)),
      cols = List.ofFn text ++ more := by
  induction columns generalizing cols with
  | nil => exact ⟨Fin.elim0, cols, by simp⟩
  | cons column columns ih =>
    obtain ⟨col, rest, rfl, -, hrest⟩ := hasColumns_cons.mp h
    obtain ⟨text, more, rfl⟩ := ih hrest
    exact ⟨Fin.cons col text, more, by simp⟩

end Columns

section Rows

/-- The columns of a row for a shared memory segment. -/
structure ShmColumns where
  key : ℤ
  shmid : ℕ
  perms : ℕ
  size : ℕ
  cpid : ℤ
  lpid : ℤ
  nattch : ℕ
  uid : ℕ
  gid : ℕ
  cuid : ℕ
  cgid : ℕ
  atime : ℕ
  dtime : ℕ
  ctime : ℕ

def ShmColumns.columns (row : ShmColumns) : List Column :=
  [.signed row.key, .unsigned 10 uint64Max row.shmid, .unsigned 8 uint32Max row.perms,
    .unsigned 10 uint64Max row.size, .signed row.cpid, .signed row.lpid,
    .unsigned 10 uint32Max row.nattch, .unsigned 10 uint32Max row.uid,
    .unsigned 10 uint32Max row.gid, .unsigned 10 uint32Max row.cuid,
    .unsigned 10 uint32Max row.cgid, .unsigned 10 uint64Max row.atime,
    .unsigned 10 uint64Max row.dtime, .unsigned 10 uint64Max row.ctime]

def ShmColumns.segment (row : ShmColumns) : SharedMemorySegment where
  mechanism := .sysv
  key := some row.key
  id := row.shmid
  sizeBytes := row.size
  permissions := row.perms
  attachedProcesses := some row.nattch
  creatorUid := some row.cuid
  creatorGid := some row.cgid
  ownerUid := some row.uid
  ownerGid := some row.gid
  creatorPid := positive row.cpid
  lastChangePid := positive row.lpid
  lastAttachTime := positive row.atime
  lastDetachTime := positive row.dtime
  lastChangeTime := positive row.ctime

variable {cols : List (List UInt8)}

theorem shmRow_eq_ok {segment : SharedMemorySegment} : shmRow cols = .ok segment ↔
    ∃ row : ShmColumns, HasColumns row.columns cols ∧ row.segment = segment := by
  unfold shmRow
  split
  · simp only [bind_eq_ok, requireSigned_eq_ok, requireUnsigned_eq_ok, Except.ok.injEq]
    constructor
    · rintro ⟨key, h1, shmid, h2, perms, h3, size, h4, cpid, h5, lpid, h6, nattch, h7, uid, h8,
        gid, h9, cuid, h10, cgid, h11, atime, h12, dtime, h13, ctime, h14, rfl⟩
      exact ⟨⟨key, shmid, perms, size, cpid, lpid, nattch, uid, gid, cuid, cgid, atime, dtime,
        ctime⟩, ⟨h1, h2, h3, h4, h5, h6, h7, h8, h9, h10, h11, h12, h13, h14, trivial⟩, rfl⟩
    · rintro ⟨row, ⟨h1, h2, h3, h4, h5, h6, h7, h8, h9, h10, h11, h12, h13, h14, -⟩, rfl⟩
      exact ⟨_, h1, _, h2, _, h3, _, h4, _, h5, _, h6, _, h7, _, h8, _, h9, _, h10, _, h11, _, h12,
        _, h13, _, h14, rfl⟩
  · rename_i hshort
    constructor
    · intro h
      exact absurd h (by simp)
    · rintro ⟨row, h, -⟩
      obtain ⟨text, more, hcols⟩ := h.exists_ofFn
      exact absurd hcols (hshort _ _ _ _ _ _ _ _ _ _ _ _ _ _ _)

/-- The columns of a row for a message queue. -/
structure MsgColumns where
  key : ℤ
  msqid : ℕ
  perms : ℕ
  cbytes : ℕ
  qnum : ℕ
  lspid : ℤ
  lrpid : ℤ
  uid : ℕ
  gid : ℕ
  cuid : ℕ
  cgid : ℕ
  stime : ℕ
  rtime : ℕ
  ctime : ℕ

def MsgColumns.columns (row : MsgColumns) : List Column :=
  [.signed row.key, .unsigned 10 uint64Max row.msqid, .unsigned 8 uint32Max row.perms,
    .unsigned 10 uint64Max row.cbytes, .unsigned 10 uint64Max row.qnum, .signed row.lspid,
    .signed row.lrpid, .unsigned 10 uint32Max row.uid, .unsigned 10 uint32Max row.gid,
    .unsigned 10 uint32Max row.cuid, .unsigned 10 uint32Max row.cgid,
    .unsigned 10 uint64Max row.stime, .unsigned 10 uint64Max row.rtime,
    .unsigned 10 uint64Max row.ctime]

def MsgColumns.queue (row : MsgColumns) : MessageQueue where
  mechanism := .sysv
  key := some row.key
  id := row.msqid
  currentMessages := some row.qnum
  currentBytes := some row.cbytes
  permissions := row.perms
  ownerUid := some row.uid
  ownerGid := some row.gid
  lastSendPid := positive row.lspid
  lastReceivePid := positive row.lrpid
  lastSendTime := positive row.stime
  lastReceiveTime := positive row.rtime
  lastChangeTime := positive row.ctime

theorem msgRow_eq_ok {queue : MessageQueue} : msgRow cols = .ok queue ↔
    ∃ row : MsgColumns, HasColumns row.columns cols ∧ row.queue = queue := by
  unfold msgRow
  split
  · simp only [bind_eq_ok, requireSigned_eq_ok, requireUnsigned_eq_ok, Except.ok.injEq]
    constructor
    · rintro ⟨key, h1, msqid, h2, perms, h3, cbytes, h4, qnum, h5, lspid, h6, lrpid, h7, uid, h8,
        gid, h9, cuid, h10, cgid, h11, stime, h12, rtime, h13, ctime, h14, rfl⟩
      exact ⟨⟨key, msqid, perms, cbytes, qnum, lspid, lrpid, uid, gid, cuid, cgid, stime, rtime,
        ctime⟩, ⟨h1, h2, h3, h4, h5, h6, h7, h8, h9, h10, h11, h12, h13, h14, trivial⟩, rfl⟩
    · rintro ⟨row, ⟨h1, h2, h3, h4, h5, h6, h7, h8, h9, h10, h11, h12, h13, h14, -⟩, rfl⟩
      exact ⟨_, h1, _, h2, _, h3, _, h4, _, h5, _, h6, _, h7, _, h8, _, h9, _, h10, _, h11, _, h12,
        _, h13, _, h14, rfl⟩
  · rename_i hshort
    constructor
    · intro h
      exact absurd h (by simp)
    · rintro ⟨row, h, -⟩
      obtain ⟨text, more, hcols⟩ := h.exists_ofFn
      exact absurd hcols (hshort _ _ _ _ _ _ _ _ _ _ _ _ _ _ _)

/-- The columns of a row for a semaphore set. -/
structure SemColumns where
  key : ℤ
  semid : ℕ
  perms : ℕ
  nsems : ℕ
  uid : ℕ
  gid : ℕ
  cuid : ℕ
  cgid : ℕ
  otime : ℕ
  ctime : ℕ

def SemColumns.columns (row : SemColumns) : List Column :=
  [.signed row.key, .unsigned 10 uint64Max row.semid, .unsigned 8 uint32Max row.perms,
    .unsigned 10 uint32Max row.nsems, .unsigned 10 uint32Max row.uid,
    .unsigned 10 uint32Max row.gid, .unsigned 10 uint32Max row.cuid,
    .unsigned 10 uint32Max row.cgid, .unsigned 10 uint64Max row.otime,
    .unsigned 10 uint64Max row.ctime]

def SemColumns.set (row : SemColumns) : SemaphoreSet where
  mechanism := .sysv
  key := some row.key
  id := row.semid
  semaphoreCount := row.nsems
  permissions := row.perms
  ownerUid := some row.uid
  ownerGid := some row.gid
  lastOperationTime := positive row.otime
  lastChangeTime := positive row.ctime

theorem semRow_eq_ok {set : SemaphoreSet} : semRow cols = .ok set ↔
    ∃ row : SemColumns, HasColumns row.columns cols ∧ row.set = set := by
  unfold semRow
  split
  · simp only [bind_eq_ok, requireSigned_eq_ok, requireUnsigned_eq_ok, Except.ok.injEq]
    constructor
    · rintro ⟨key, h1, semid, h2, perms, h3, nsems, h4, uid, h5, gid, h6, cuid, h7, cgid, h8,
        otime, h9, ctime, h10, rfl⟩
      exact ⟨⟨key, semid, perms, nsems, uid, gid, cuid, cgid, otime, ctime⟩, ⟨h1, h2, h3, h4, h5,
        h6, h7, h8, h9, h10, trivial⟩, rfl⟩
    · rintro ⟨row, ⟨h1, h2, h3, h4, h5, h6, h7, h8, h9, h10, -⟩, rfl⟩
      exact ⟨_, h1, _, h2, _, h3, _, h4, _, h5, _, h6, _, h7, _, h8, _, h9, _, h10, rfl⟩
  · rename_i hshort
    constructor
    · intro h
      exact absurd h (by simp)
    · rintro ⟨row, h, -⟩
      obtain ⟨text, more, hcols⟩ := h.exists_ofFn
      exact absurd hcols (hshort _ _ _ _ _ _ _ _ _ _ _)

end Rows

section Refusals

variable {α β : Type}

/-- The only error is that the text is not as expected. -/
def OnlyMalformed (x : Result α) : Prop := x = fail .malformedData ∨ ∃ a, x = .ok a

@[simp] theorem onlyMalformed_fail : OnlyMalformed (fail .malformedData : Result α) := .inl rfl

@[simp] theorem onlyMalformed_ok (a : α) : OnlyMalformed (.ok a) := .inr ⟨a, rfl⟩

theorem OnlyMalformed.bind {x : Result α} {f : α → Result β} (hx : OnlyMalformed x)
    (hf : ∀ a, OnlyMalformed (f a)) : OnlyMalformed (x >>= f) := by
  rcases hx with rfl | ⟨a, rfl⟩
  · exact .inl rfl
  · exact hf a

/-- A parser with this error only fails with it where it gives nothing. -/
theorem OnlyMalformed.eq_fail {x : Result α} (hx : OnlyMalformed x) (h : ∀ a, x ≠ .ok a) :
    x = fail .malformedData := by
  rcases hx with hfail | ⟨a, rfl⟩
  · exact hfail
  · exact absurd rfl (h a)

@[simp] theorem onlyMalformed_requireSigned (base bits : ℕ) (text : List UInt8) :
    OnlyMalformed (requireSigned base bits text) := by
  unfold requireSigned
  split <;> simp

@[simp] theorem onlyMalformed_requireUnsigned (base max : ℕ) (text : List UInt8) :
    OnlyMalformed (requireUnsigned base max text) := by
  unfold requireUnsigned
  split <;> simp

theorem onlyMalformed_shmRow (cols : List (List UInt8)) : OnlyMalformed (shmRow cols) := by
  unfold shmRow
  split
  · repeat refine .bind (by simp) fun _ => ?_
    exact onlyMalformed_ok _
  · exact onlyMalformed_fail

theorem onlyMalformed_msgRow (cols : List (List UInt8)) : OnlyMalformed (msgRow cols) := by
  unfold msgRow
  split
  · repeat refine .bind (by simp) fun _ => ?_
    exact onlyMalformed_ok _
  · exact onlyMalformed_fail

theorem onlyMalformed_semRow (cols : List (List UInt8)) : OnlyMalformed (semRow cols) := by
  unfold semRow
  split
  · repeat refine .bind (by simp) fun _ => ?_
    exact onlyMalformed_ok _
  · exact onlyMalformed_fail

end Refusals

section Run

/-- Every entry of a list has its counterpart in the other. -/
theorem exists_of_forall₂ {α β : Type} {R : α → β → Prop} {as : List α} {bs : List β} {a : α}
    (h : List.Forall₂ R as bs) (ha : a ∈ as) : ∃ b ∈ bs, R a b := by
  induction h with
  | nil => cases ha
  | @cons a' b as bs hab _ ih =>
    rcases List.mem_cons.mp ha with rfl | hmem
    · exact ⟨b, List.mem_cons_self, hab⟩
    · obtain ⟨b', hb', hR⟩ := ih hmem
      exact ⟨b', List.mem_cons_of_mem _ hb', hR⟩

variable {Record : Type} {parseRow : List (List UInt8) → Result Record}

/-- The loop over the rows, from the records that it has. -/
theorem foldlM_addRow_eq_ok {rows : List (List UInt8)} {list out : List Record} :
    rows.foldlM (addRow parseRow) list = .ok out ↔
      ∃ records, out = list ++ records ∧
        List.Forall₂ (fun line record => parseRow (splitWhitespace line) = .ok record)
          (rows.filter (· ≠ [])) records := by
  induction rows generalizing list with
  | nil => simp [pure, Except.pure, eq_comm]
  | cons line rows ih =>
    rw [List.foldlM_cons]
    by_cases hline : line = []
    · have hskip : addRow parseRow list line = .ok list := if_pos hline
      rw [hskip, ok_bind, ih, List.filter_cons_of_neg (by simp [hline])]
    · rw [List.filter_cons_of_pos (by simp [hline])]
      simp only [addRow, if_neg hline, bind_eq_ok, ih, Except.ok.injEq,
        List.forall₂_cons_left_iff]
      constructor
      · rintro ⟨_, ⟨record, hrecord, rfl⟩, records, rfl, hrows⟩
        exact ⟨record :: records, by simp, record, records, hrecord, hrows, rfl⟩
      · rintro ⟨_, rfl, record, records, hrecord, hrows, rfl⟩
        exact ⟨_, ⟨record, hrecord, rfl⟩, records, by simp, hrows⟩

theorem onlyMalformed_foldlM_addRow (h : ∀ cols, OnlyMalformed (parseRow cols))
    (rows : List (List UInt8)) (list : List Record) :
    OnlyMalformed (rows.foldlM (addRow parseRow) list) := by
  induction rows generalizing list with
  | nil => exact onlyMalformed_ok list
  | cons line rows ih =>
    rw [List.foldlM_cons]
    refine .bind ?_ ih
    rw [addRow]
    split_ifs
    · exact onlyMalformed_ok list
    · exact .bind (h _) fun record => onlyMalformed_ok _

theorem onlyMalformed_parseSysv (h : ∀ cols, OnlyMalformed (parseRow cols))
    (header : List (List UInt8)) (content : List UInt8) :
    OnlyMalformed (parseSysv header parseRow content) := by
  rw [parseSysv]
  split
  · exact onlyMalformed_fail
  · split_ifs
    · exact onlyMalformed_foldlM_addRow h _ _
    · exact onlyMalformed_fail

end Run

section Tables

/-- A table of objects: what the columns of a row are, and the record that they make. -/
structure SysvTable (Record : Type) where
  Row : Type
  header : List (List UInt8)
  columns : Row → List Column
  record : Row → Record
  parseRow : List (List UInt8) → Result Record
  length_columns : ∀ row, (columns row).length = header.length
  parseRow_eq_ok : ∀ {cols r}, parseRow cols = .ok r ↔
    ∃ row, HasColumns (columns row) cols ∧ record row = r
  onlyMalformed : ∀ cols, OnlyMalformed (parseRow cols)

def shmTable : SysvTable SharedMemorySegment where
  Row := ShmColumns
  header := shmHeader
  columns := ShmColumns.columns
  record := ShmColumns.segment
  parseRow := shmRow
  length_columns _ := rfl
  parseRow_eq_ok := shmRow_eq_ok
  onlyMalformed := onlyMalformed_shmRow

def msgTable : SysvTable MessageQueue where
  Row := MsgColumns
  header := msgHeader
  columns := MsgColumns.columns
  record := MsgColumns.queue
  parseRow := msgRow
  length_columns _ := rfl
  parseRow_eq_ok := msgRow_eq_ok
  onlyMalformed := onlyMalformed_msgRow

def semTable : SysvTable SemaphoreSet where
  Row := SemColumns
  header := semHeader
  columns := SemColumns.columns
  record := SemColumns.set
  parseRow := semRow
  length_columns _ := rfl
  parseRow_eq_ok := semRow_eq_ok
  onlyMalformed := onlyMalformed_semRow

variable {Record : Type} {t : SysvTable Record}

/-- The line begins with the columns of the row, whatever else it has. -/
def SysvTable.Shows (t : SysvTable Record) (row : t.Row) (line : List UInt8) : Prop :=
  HasColumns (t.columns row) (splitWhitespace line)

/-- The line is the row as it is printed, with any padding and perhaps more columns. -/
structure SysvTable.Printed (t : SysvTable Record) (row : t.Row) (line : List UInt8) : Prop where
  inRange : ∀ column ∈ t.columns row, column.InRange
  one_line : 0x0A ∉ line
  texts : ∃ more, Line ((t.columns row).map Column.text ++ more) line

theorem SysvTable.Printed.shows {row : t.Row} {line : List UInt8} (h : t.Printed row line) :
    t.Shows row line := by
  obtain ⟨more, hline⟩ := h.texts
  rw [SysvTable.Shows, hline.splitWhitespace]
  refine hasColumns_append (List.forall₂_map_right_iff.mpr (List.forall₂_same.mpr ?_))
  intro column hcolumn
  exact Column.spelled_text (h.inRange column hcolumn)

/-- Every row of values in range can be printed. -/
theorem SysvTable.printed_flatMap {row : t.Row} (h : ∀ column ∈ t.columns row, column.InRange) :
    t.Printed row (((t.columns row).map Column.text).flatMap (0x20 :: ·)) := by
  have htoken : ∀ text ∈ (t.columns row).map Column.text,
      text ≠ [] ∧ ∀ c ∈ text, isspace c = false := by
    intro text htext
    obtain ⟨column, hcolumn, rfl⟩ := List.mem_map.mp htext
    exact (Column.spelled_text (h column hcolumn)).token (h column hcolumn)
  refine ⟨h, ?_, [], ?_⟩
  · intro hend
    obtain ⟨text, htext, hmem⟩ := List.mem_flatMap.mp hend
    rcases List.mem_cons.mp hmem with heq | hmem
    · exact absurd heq (by decide)
    · exact absurd ((htoken text htext).2 _ hmem) (by decide)
  · rw [List.append_nil]
    exact line_flatMap htoken

/-- A row that is printed is not the empty line. -/
theorem SysvTable.Shows.ne_nil {row : t.Row} {line : List UInt8} (h : t.Shows row line)
    (hheader : t.header ≠ []) : line ≠ [] := by
  intro hline
  have hlength := HasColumns.length_le h
  have hnone : splitWhitespace [] = [] := splitBlank_eq_nil_iff.mpr (by simp)
  rw [t.length_columns, hline, hnone] at hlength
  exact hheader (List.length_eq_zero_iff.mp (Nat.le_zero.mp hlength))

/-- What is promised of a parser of the table. -/
structure Parses (t : SysvTable Record) (parse : List UInt8 → Result (List Record)) : Prop where
  /-- A record for each row, in order, whatever the padding. -/
  printed : ∀ {header : List UInt8} {rows : List t.Row} {body : List (List UInt8)},
    0x0A ∉ header → headerStartsWith (splitWhitespace header) t.header →
    List.Forall₂ t.Printed rows body →
    parse ((header :: body).flatMap (· ++ [0x0A])) = .ok (rows.map t.record)
  /-- The records of a text are those of its rows. -/
  eq_ok : ∀ {content : List UInt8} {records : List Record}, parse content = .ok records ↔
    ∃ header body, lines 0x0A content = header :: body ∧
      headerStartsWith (splitWhitespace header) t.header ∧
      List.Forall₂ (fun line record => ∃ row, t.Shows row line ∧ t.record row = record)
        (body.filter (· ≠ [])) records
  /-- One row without values for its columns is enough for an error. -/
  refused : ∀ {content header line : List UInt8} {body : List (List UInt8)},
    lines 0x0A content = header :: body → line ∈ body → line ≠ [] →
    (∀ row, ¬ t.Shows row line) → parse content = fail .malformedData
  /-- A row with too few columns is one. -/
  missing : ∀ {content header line : List UInt8} {body : List (List UInt8)},
    lines 0x0A content = header :: body → line ∈ body → line ≠ [] →
    (splitWhitespace line).length < t.header.length → parse content = fail .malformedData

theorem parseSysv_eq_ok {content : List UInt8} {records : List Record} :
    parseSysv t.header t.parseRow content = .ok records ↔
      ∃ header body, lines 0x0A content = header :: body ∧
        headerStartsWith (splitWhitespace header) t.header ∧
        List.Forall₂ (fun line record => ∃ row, t.Shows row line ∧ t.record row = record)
          (body.filter (· ≠ [])) records := by
  rw [parseSysv]
  cases lines 0x0A content with
  | nil => simp
  | cons header body =>
    simp only [guard_eq_ok, not_not, foldlM_addRow_eq_ok, List.nil_append, t.parseRow_eq_ok]
    constructor
    · rintro ⟨hheader, records', rfl, hrows⟩
      exact ⟨header, body, rfl, hheader, hrows⟩
    · rintro ⟨_, _, heq, hheader, hrows⟩
      cases heq
      exact ⟨hheader, records, rfl, hrows⟩

theorem parseSysv_printed {header : List UInt8} {rows : List t.Row} {body : List (List UInt8)}
    (hcolumns : t.header ≠ []) (hend : 0x0A ∉ header)
    (hheader : headerStartsWith (splitWhitespace header) t.header)
    (hrows : List.Forall₂ t.Printed rows body) :
    parseSysv t.header t.parseRow ((header :: body).flatMap (· ++ [0x0A])) =
      .ok (rows.map t.record) := by
  have hbody : ∀ line ∈ body, 0x0A ∉ line ∧ line ≠ [] := by
    intro line hline
    obtain ⟨row, -, hrow⟩ := exists_of_forall₂ hrows.flip hline
    exact ⟨hrow.one_line, hrow.shows.ne_nil hcolumns⟩
  have hlines : lines 0x0A ((header :: body).flatMap (· ++ [0x0A])) = header :: body :=
    lines_flatMap_sep (List.forall_mem_cons.mpr ⟨hend, fun line hline => (hbody line hline).1⟩)
  have hfilter : body.filter (· ≠ []) = body :=
    List.filter_eq_self.mpr fun line hline => decide_eq_true (hbody line hline).2
  refine parseSysv_eq_ok.mpr ⟨header, body, hlines, hheader, ?_⟩
  rw [hfilter, List.forall₂_map_right_iff]
  exact (hrows.imp fun row line h => ⟨row, h.shows, rfl⟩).flip

theorem parseSysv_refused {content header line : List UInt8} {body : List (List UInt8)}
    (hlines : lines 0x0A content = header :: body) (hmem : line ∈ body) (hne : line ≠ [])
    (hrow : ∀ row, ¬ t.Shows row line) :
    parseSysv t.header t.parseRow content = fail .malformedData := by
  refine (onlyMalformed_parseSysv t.onlyMalformed _ _).eq_fail ?_
  intro records hok
  obtain ⟨header', body', hlines', -, hrows⟩ := parseSysv_eq_ok.mp hok
  obtain ⟨rfl, rfl⟩ := List.cons.inj (hlines.symm.trans hlines')
  have hfilter : line ∈ body.filter (· ≠ []) :=
    List.mem_filter.mpr ⟨hmem, decide_eq_true hne⟩
  obtain ⟨record, -, row, hshows, -⟩ := exists_of_forall₂ hrows hfilter
  exact hrow row hshows

/-- What all three parsers promise. -/
theorem parses_parseSysv (t : SysvTable Record) (hcolumns : t.header ≠ []) :
    Parses t (parseSysv t.header t.parseRow) where
  printed hend hheader hrows := parseSysv_printed hcolumns hend hheader hrows
  eq_ok := parseSysv_eq_ok
  refused := parseSysv_refused
  missing hlines hmem hne hshort := by
    refine parseSysv_refused hlines hmem hne ?_
    intro row hshows
    have hlength := HasColumns.length_le hshows
    rw [t.length_columns] at hlength
    omega

theorem parse_sysv :
    Parses shmTable parseSysvShm ∧ Parses msgTable parseSysvMsg ∧ Parses semTable parseSysvSem :=
  ⟨parses_parseSysv shmTable (by decide), parses_parseSysv msgTable (by decide),
    parses_parseSysv semTable (by decide)⟩

/-- A set that a process with user 1000 made. -/
def semaphoreRow : SemColumns := ⟨-7, 2, 384, 3, 1000, 100, 1000, 100, 0, 1700000000⟩

theorem parse_sysv_row :
    parseSysvSem ([ascii "key semid perms nsems uid gid cuid cgid otime ctime",
        (semaphoreRow.columns.map Column.text).flatMap (0x20 :: ·)].flatMap (· ++ [0x0A])) =
      .ok [semaphoreRow.set] := by
  have hrange : ∀ column ∈ semTable.columns semaphoreRow, column.InRange := by
    simp [semTable, SemColumns.columns, semaphoreRow, Column.InRange, uint32Max, uint64Max]
  exact parse_sysv.2.2.printed (by decide) (by decide +kernel)
    (.cons (SysvTable.printed_flatMap hrange) .nil)

/-- A column more than there are names. -/
theorem extra_column_accepted :
    parseSysvSem (ascii "key semid perms nsems uid gid cuid cgid otime ctime" ++ [0x0A] ++
        ascii "7 2 600 3 0 0 0 0 0 9 x" ++ [0x0A]) =
      .ok [{ mechanism := .sysv, key := some 7, id := 2, permissions := 384,
             semaphoreCount := 3, ownerUid := some 0, ownerGid := some 0,
             lastChangeTime := some 9 }] := by
  decide +kernel

end Tables

end Syscape.Ipc
