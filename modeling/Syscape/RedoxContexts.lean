import Syscape.ProcessList
import Syscape.Lib.DigitRuns
import Syscape.Lib.Paths

/-!
# The contexts of Redox

`/scheme/sys/context` has a row for each context, which is a thread. Its columns are padded and may
run into each other: a long affinity mask into the time, and a long time into the memory. The
contexts of a process are merged into one entry.
-/
namespace Syscape.Redox
open Checked Text Lines FromChars Digits Numerals ProcessList Numbers
open DigitRuns (isDigit)

section Source

/-- `is_space`. -/
def isSpace (c : UInt8) : Bool := c == 0x20 || c == 0x09

/-- The loop of `parse_uint`. -/
def parseUintFrom (value : ℕ) : List UInt8 → Option ℕ
  | [] => some value
  | c :: s =>
    if ¬ isDigit c then none
    else
      let digit := c.toNat - 0x30
      if value > (uint32Max - digit) / 10 then none else parseUintFrom (value * 10 + digit) s

/-- `parse_uint`, which is also `parse_pid`. -/
def parseUint (s : List UInt8) : Option ℕ := if s = [] then none else parseUintFrom 0 s

/-- The loop of `is_valid_memory_val`: a dot may stand between digits, once. -/
def isValidMemoryValFrom (sawDot first : Bool) : List UInt8 → Bool
  | [] => true
  | c :: s =>
    if c = 0x2E then
      if sawDot ∨ first ∨ s = [] then false else isValidMemoryValFrom true false s
    else if ¬ isDigit c then false
    else isValidMemoryValFrom sawDot false s

/-- `is_valid_memory_val`. -/
def isValidMemoryVal (s : List UInt8) : Bool :=
  if s = [] then false else isValidMemoryValFrom false true s

/-- A number with its unit, and what is left of the line. -/
structure MemoryField where
  val : List UInt8
  unit : List UInt8
  rest : List UInt8
  deriving DecidableEq, Repr

/-- The unit of `parse_memory_field`, and what is behind it. -/
def memoryUnit : List UInt8 → Option (List UInt8 × List UInt8)
  | [] => none
  | c :: rest =>
    if c = 0x42 then some ([c], rest)
    else if c ∈ ascii "KMGTP" then
      match rest with
      | 0x42 :: rest => some ([c, 0x42], rest)
      | _ => none
    else none

/-- `parse_memory_field`, on what is left of the line. -/
def parseMemoryField (text : List UInt8) (isPrivate : Bool) : Option MemoryField :=
  let text := text.dropWhile isSpace
  if text = [] then none
  else
    let val := text.takeWhile fun c => !isSpace c
    if ¬ isValidMemoryVal val then none
    else
      match memoryUnit ((text.dropWhile fun c => !isSpace c).dropWhile isSpace) with
      | none => none
      | some (unit, rest) =>
        if isPrivate ∧ ¬ rest.head?.all (fun c => isSpace c || isDigit c) then none
        else some ⟨val, unit, rest⟩

/-- `process_state_priority`. -/
def processStatePriority : ProcessState → ℕ
  | .running => 4
  | .sleeping => 3
  | .stopped => 2
  | .unknown => 1
  | .zombie => 0

/-- `read_token`: nothing when only blanks are left. -/
def readToken (text : List UInt8) : List UInt8 × List UInt8 :=
  (takeToken isSpace text).getD ([], [])

/-- `is_header_line`. -/
def isHeaderLine (line : List UInt8) : Bool :=
  splitBlank isSpace line = [ascii "PID", ascii "EUID", ascii "EGID", ascii "STAT", ascii "CPU",
    ascii "AFFINITY", ascii "TIME", ascii "PRIVATE", ascii "SHARED", ascii "NAME"]

/-- The state that a status stands for. -/
def parseStat (statTok : List UInt8) : Option ProcessState :=
  match statTok with
  | memCat :: schedStat :: plus =>
    if memCat ∉ ascii "KUR" ∨ schedStat ∉ ascii "RSBZ" ∨ (plus ≠ [] ∧ plus ≠ ascii "+") then none
    else if plus ≠ [] then some .running
    else if schedStat = 0x52 then some .running
    else if schedStat = 0x53 ∨ schedStat = 0x42 then some .sleeping
    else some .zombie
  | _ => none

/-- The number of a CPU, or a question mark. -/
def isCpu (cpuTok : List UInt8) : Bool :=
  cpuTok ≠ [] ∧ (cpuTok = ascii "?" ∨ cpuTok.all isDigit)

/-- The byte at a position is a digit. -/
def digitAt (rem : List UInt8) (i : ℕ) : Bool := rem[i]?.any isDigit

/-- What is behind the time; the affinity and the time are found from the first colon. -/
def skipTime (rem : List UInt8) : Option (List UInt8) :=
  match rem.idxOf? 0x3A with
  | none => none
  | some colon1 =>
    if colon1 < 2 then none
    else if ¬ digitAt rem (colon1 - 1) ∨ ¬ digitAt rem (colon1 - 2) then none
    else if colon1 + 8 ≥ rem.length then none
    else if ¬ digitAt rem (colon1 + 1) ∨ ¬ digitAt rem (colon1 + 2) ∨
        rem[colon1 + 3]? ≠ some 0x3A ∨ ¬ digitAt rem (colon1 + 4) ∨ ¬ digitAt rem (colon1 + 5) ∨
        rem[colon1 + 6]? ≠ some 0x2E ∨ ¬ digitAt rem (colon1 + 7) ∨ ¬ digitAt rem (colon1 + 8) then
      none
    else if ¬ rem[colon1 + 9]?.any (fun c => isSpace c || isDigit c) then none
    else if (rem.take (colon1 - 2)).rdropWhile isSpace = [] then none
    else some (rem.drop (colon1 + 9))

/-- A row of the table. -/
def parseContext (line : List UInt8) : Option ProcessEntry := do
  let pidTok := readToken line
  let pid ← parseUint pidTok.1
  let euidTok := readToken pidTok.2
  let _ ← parseUint euidTok.1
  let egidTok := readToken euidTok.2
  let _ ← parseUint egidTok.1
  let statTok := readToken egidTok.2
  let state ← parseStat statTok.1
  let cpuTok := readToken statTok.2
  if ¬ isCpu cpuTok.1 then none
  else do
    let rest ← skipTime (cpuTok.2.dropWhile isSpace)
    let priv ← parseMemoryField rest true
    let _ ← parseMemoryField priv.rest false
    some { pid, state }

/-- The variables of the loop over the lines. -/
structure TableState where
  sawHeader : Bool := false
  rawEntries : List ProcessEntry := []
  deriving DecidableEq, Repr

/-- A line without the blanks around it. -/
def trimLine (line : List UInt8) : List UInt8 :=
  (line.rdropWhile fun c => c == 0x0D || isSpace c).dropWhile isSpace

/-- A line of `parse_sys_context`. -/
def contextLine (st : TableState) (line : List UInt8) : Result TableState :=
  let line := trimLine line
  if line = [] ∨ line.head? = some 0x23 then .ok st
  else if ¬ st.sawHeader then
    if isHeaderLine line then .ok { st with sawHeader := true } else fail .malformedData
  else
    match parseContext line with
    | none => fail .malformedData
    | some entry => .ok { st with rawEntries := st.rawEntries ++ [entry] }

/-- One more context of the sorted list. -/
def mergeEntry (list : List ProcessEntry) (entry : ProcessEntry) : List ProcessEntry :=
  match list.getLast? with
  | none => list ++ [entry]
  | some back =>
    if back.pid ≠ entry.pid then list ++ [entry]
    else if processStatePriority entry.state > processStatePriority back.state then
      list.dropLast ++ [{ back with state := entry.state }]
    else list

/-- `std::stable_sort` by the process. -/
def sortByPid (entries : List ProcessEntry) : List ProcessEntry :=
  entries.mergeSort fun a b => a.pid ≤ b.pid

/-- `parse_sys_context`. -/
def parseSysContext (content : List UInt8) : Result (List ProcessEntry) := do
  let st ← (lines 0x0A content).foldlM contextLine {}
  if ¬ st.sawHeader ∨ st.rawEntries = [] then fail .malformedData
  else .ok ((sortByPid st.rawEntries).foldl mergeEntry [])

end Source

section Rendering

/-- The units of a figure of memory. -/
inductive MemoryUnit where
  | b
  | kb
  | mb
  | gb
  | tb
  | pb
  deriving DecidableEq, Repr

/-- What stands in front of the `B` of a unit. -/
def MemoryUnit.scale : MemoryUnit → List UInt8
  | .b => []
  | .kb => ascii "K"
  | .mb => ascii "M"
  | .gb => ascii "G"
  | .tb => ascii "T"
  | .pb => ascii "P"

/-- A figure of memory: a number, which may have a fraction, and a unit. -/
structure MemoryFigure where
  whole : DigitRuns.DigitRun
  fraction : Option DigitRuns.DigitRun
  unit : MemoryUnit

def MemoryFigure.number (figure : MemoryFigure) : List UInt8 :=
  figure.whole.digits ++ figure.fraction.elim [] fun fraction => 0x2E :: fraction.digits

def MemoryFigure.text (figure : MemoryFigure) : List UInt8 :=
  figure.number ++ 0x20 :: (figure.unit.scale ++ [0x42])

/-- The memory of a context: of the kernel, of a user or none. -/
inductive MemoryCategory where
  | kernel
  | user
  | raw
  deriving DecidableEq, Repr

def MemoryCategory.letter : MemoryCategory → UInt8
  | .kernel => 0x4B
  | .user => 0x55
  | .raw => 0x52

/-- What the scheduler says about a context. -/
inductive SchedStatus where
  | runnable
  | sleeping
  | blocked
  | dead
  deriving DecidableEq, Repr

def SchedStatus.letter : SchedStatus → UInt8
  | .runnable => 0x52
  | .sleeping => 0x53
  | .blocked => 0x42
  | .dead => 0x5A

/-- A context. -/
structure Context where
  pid : UInt32
  euid : UInt32
  egid : UInt32
  memory : MemoryCategory
  sched : SchedStatus
  onCpu : Bool
  cpu : Option ℕ
  affinity : List UInt8
  affinity_no_colon : 0x3A ∉ affinity
  affinity_no_newline : 0x0A ∉ affinity
  hours : ℕ
  minutes : Fin 60
  seconds : Fin 60
  hundredths : Fin 100
  priv : MemoryFigure
  shared : MemoryFigure
  name : List UInt8
  name_no_newline : 0x0A ∉ name

/-- A text with blanks behind it up to a width. -/
def padded (width : ℕ) (text : List UInt8) : List UInt8 :=
  text ++ List.replicate (width - text.length) 0x20

/-- A column of six bytes, or one more than the text has. -/
def column (text : List UInt8) : List UInt8 :=
  text ++ List.replicate (max 1 (6 - text.length)) 0x20

/-- A number of at least two digits. -/
def twoDigits (n : ℕ) : List UInt8 := (decimal n).leftpad 2 0x30

def Context.statText (c : Context) : List UInt8 :=
  c.memory.letter :: c.sched.letter :: if c.onCpu then [0x2B] else []

def Context.cpuText (c : Context) : List UInt8 := c.cpu.elim (ascii "?") decimal

def Context.timeText (c : Context) : List UInt8 :=
  twoDigits c.hours ++ 0x3A :: (twoDigits c.minutes ++ 0x3A :: (twoDigits c.seconds ++
    0x2E :: twoDigits c.hundredths))

/-- The row of a context, with what is behind the unit of its shared memory. -/
def Context.rowWith (c : Context) (tail : List UInt8) : List UInt8 :=
  column (decimal c.pid.toNat) ++ (column (decimal c.euid.toNat) ++
    (column (decimal c.egid.toNat) ++ (column c.statText ++ (column c.cpuText ++
      (padded 11 c.affinity ++ (padded 12 c.timeText ++ (padded 8 c.priv.text ++
        (c.shared.text ++ tail))))))))

def Context.row (c : Context) : List UInt8 :=
  c.rowWith (List.replicate (8 - c.shared.text.length) 0x20 ++ c.name)

def headerText : List UInt8 :=
  ascii "PID   EUID  EGID  STAT  CPU   AFFINITY   TIME        PRIVATE SHARED  NAME"

def contextText (contexts : List Context) : List UInt8 :=
  (headerText :: contexts.map Context.row).flatMap (· ++ [0x0A])

/-- The state of a context. -/
def Context.state (c : Context) : ProcessState :=
  if c.onCpu then .running
  else
    match c.sched with
    | .runnable => .running
    | .sleeping | .blocked => .sleeping
    | .dead => .zombie

def Context.entry (c : Context) : ProcessEntry := { pid := c.pid.toNat, state := c.state }

/-- Something stands in front of the two digits before the first colon. -/
def Context.HasAffinity (c : Context) : Prop :=
  (∃ b ∈ c.affinity, isSpace b = false) ∨ 100 ≤ c.hours

instance (c : Context) : Decidable c.HasAffinity := inferInstanceAs (Decidable (_ ∨ _))

end Rendering

section Tokens
variable {text : List UInt8}

lemma isSpace_of_isDigit {c : UInt8} (h : isDigit c = true) : isSpace c = false := by
  have hrange := DigitRuns.isDigit_iff.mp h
  rw [isSpace, Bool.or_eq_false_iff, beq_eq_false_iff_ne, beq_eq_false_iff_ne]
  constructor
  · rintro rfl
    simp at hrange
  · rintro rfl
    simp at hrange

lemma isDigit_decimal {n : ℕ} : ∀ c ∈ decimal n, isDigit c = true :=
  fun _ hc => DigitRuns.isDigit_iff.mpr (mem_decimal hc)

lemma parseUintFrom_digits {v : ℕ} (h : ∀ c ∈ text, isDigit c = true)
    (hfits : value 10 v (text.map fun c => c.toNat - 0x30) ≤ uint32Max) :
    parseUintFrom v text = some (value 10 v (text.map fun c => c.toNat - 0x30)) := by
  induction text generalizing v with
  | nil => rfl
  | cons c text ih =>
    rw [List.forall_mem_cons] at h
    rw [List.map_cons, value_cons] at hfits ⊢
    have hle := le_value (by decide : 0 < 10) (v * 10 + (c.toNat - 0x30))
      (text.map fun c => c.toNat - 0x30)
    rw [parseUintFrom, if_neg (by simp [h.1])]
    dsimp only
    rw [if_neg (by omega), ih h.2 hfits]

/-- A number of 32 bits is read as it is printed. -/
lemma parseUint_decimal (n : UInt32) : parseUint (decimal n.toNat) = some n.toNat := by
  have hnumeral := (DigitRuns.numeral_iff.mp (numeral_decimal n.toNat)).2.2
  have hfits : n.toNat ≤ uint32Max := le_uint32Max n.toNat_lt
  rw [DigitRuns.runValue] at hnumeral
  rw [parseUint, if_neg (decimal_ne_nil _), parseUintFrom_digits isDigit_decimal, hnumeral]
  rwa [hnumeral]

/-- Blanks, as they are written. -/
lemma isSpace_replicate (k : ℕ) : ∀ c ∈ List.replicate k (0x20 : UInt8), isSpace c = true := by
  intro c hc
  rw [List.eq_of_mem_replicate hc]
  rfl

/-- A column is read with the blanks in front of it. -/
lemma readToken_column (k : ℕ) (rest : List UInt8) (hne : text ≠ [])
    (hsolid : ∀ c ∈ text, isSpace c = false) :
    ∃ j, readToken (List.replicate k 0x20 ++ (column text ++ rest)) =
      (text, List.replicate j 0x20 ++ rest) := by
  obtain ⟨j, hj⟩ : ∃ j, max 1 (6 - text.length) = j + 1 :=
    Nat.exists_eq_add_of_le' (Nat.le_max_left _ _)
  refine ⟨j + 1, ?_⟩
  have hhead : ∀ c ∈ (List.replicate (j + 1) (0x20 : UInt8) ++ rest).head?, isSpace c = true := by
    simp [List.replicate_succ, isSpace]
  rw [readToken, column, hj, List.append_assoc,
    takeToken_append (isSpace_replicate k) hne hsolid hhead]
  rfl

end Tokens

section Columns
variable {text rest tail : List UInt8}

lemma parseStat_statText (c : Context) : parseStat c.statText = some c.state := by
  unfold Context.statText Context.state
  cases c.memory <;> cases c.sched <;> cases c.onCpu <;> rfl

lemma isCpu_cpuText (c : Context) : isCpu c.cpuText = true := by
  unfold Context.cpuText isCpu
  cases c.cpu with
  | none => rfl
  | some n =>
    rw [decide_eq_true_iff, Option.elim_some]
    exact ⟨decimal_ne_nil n, .inr (List.all_eq_true.mpr isDigit_decimal)⟩

lemma isSpace_statText (c : Context) : ∀ b ∈ c.statText, isSpace b = false := by
  have hall : c.statText.all (fun b => !isSpace b) = true := by
    unfold Context.statText
    cases c.memory <;> cases c.sched <;> cases c.onCpu <;> rfl
  intro b hb
  simpa using List.all_eq_true.mp hall b hb

lemma isSpace_cpuText (c : Context) : ∀ b ∈ c.cpuText, isSpace b = false := by
  unfold Context.cpuText
  cases c.cpu with
  | none => simp [ascii, isSpace]
  | some n => exact fun b hb => isSpace_of_isDigit (isDigit_decimal b hb)

lemma isSpace_decimal (n : ℕ) : ∀ b ∈ decimal n, isSpace b = false :=
  fun b hb => isSpace_of_isDigit (isDigit_decimal b hb)

section Figures
variable (figure : MemoryFigure)

lemma isValidMemoryValFrom_cons {sawDot first : Bool} {c : UInt8} (h : isDigit c = true) :
    isValidMemoryValFrom sawDot first (c :: text) = isValidMemoryValFrom sawDot false text := by
  have hdot : c ≠ 0x2E := by
    rintro rfl
    cases h
  rw [isValidMemoryValFrom, if_neg hdot, if_neg (by simp [h])]

lemma isValidMemoryValFrom_digits {sawDot first : Bool} (h : ∀ c ∈ text, isDigit c = true) :
    isValidMemoryValFrom sawDot first text = true := by
  induction text generalizing first with
  | nil => rfl
  | cons c text ih =>
    rw [List.forall_mem_cons] at h
    rw [isValidMemoryValFrom_cons h.1, ih h.2]

/-- A fraction may follow digits. -/
lemma isValidMemoryValFrom_fraction {first : Bool} (fraction : DigitRuns.DigitRun)
    (h : ∀ c ∈ text, isDigit c = true) (hfirst : first = true → text ≠ []) :
    isValidMemoryValFrom false first (text ++ 0x2E :: fraction.digits) = true := by
  induction text generalizing first with
  | nil =>
    have hnot : first = false := by
      by_contra hne
      exact hfirst (by simpa using hne) rfl
    rw [List.nil_append, isValidMemoryValFrom, if_pos rfl, hnot, if_neg (by simp [fraction.ne_nil])]
    exact isValidMemoryValFrom_digits fraction.isDigit_of_mem
  | cons c text ih =>
    rw [List.forall_mem_cons] at h
    rw [List.cons_append, isValidMemoryValFrom_cons h.1, ih h.2 (by simp)]

lemma MemoryFigure.number_ne_nil : figure.number ≠ [] := by
  simp [MemoryFigure.number, figure.whole.ne_nil]

lemma MemoryFigure.isValid_number : isValidMemoryVal figure.number = true := by
  rw [isValidMemoryVal, if_neg figure.number_ne_nil]
  unfold MemoryFigure.number
  cases figure.fraction with
  | none =>
    rw [Option.elim_none, List.append_nil]
    exact isValidMemoryValFrom_digits figure.whole.isDigit_of_mem
  | some fraction =>
    exact isValidMemoryValFrom_fraction fraction figure.whole.isDigit_of_mem
      fun _ => figure.whole.ne_nil

lemma MemoryFigure.mem_number : ∀ c ∈ figure.number, isDigit c = true ∨ c = 0x2E := by
  intro c hc
  rcases List.mem_append.mp hc with hc | hc
  · exact .inl (figure.whole.isDigit_of_mem c hc)
  · cases hfraction : figure.fraction with
    | none =>
      rw [hfraction] at hc
      cases hc
    | some fraction =>
      rw [hfraction] at hc
      rcases List.mem_cons.mp hc with rfl | hc
      · exact .inr rfl
      · exact .inl (fraction.isDigit_of_mem c hc)

lemma MemoryFigure.isSpace_number : ∀ c ∈ figure.number, isSpace c = false := by
  intro c hc
  rcases figure.mem_number c hc with h | rfl
  · exact isSpace_of_isDigit h
  · rfl

lemma memoryUnit_scale (unit : MemoryUnit) (rest : List UInt8) :
    memoryUnit (unit.scale ++ 0x42 :: rest) = some (unit.scale ++ [0x42], rest) := by
  cases unit <;> rfl

/-- A figure is read with the blanks in front of it, whatever follows its unit. -/
lemma parseMemoryField_text {isPrivate : Bool} (k : ℕ)
    (hrest : isPrivate = true → rest.head?.all (fun c => isSpace c || isDigit c) = true) :
    parseMemoryField (List.replicate k 0x20 ++ (figure.text ++ rest)) isPrivate =
      some ⟨figure.number, figure.unit.scale ++ [0x42], rest⟩ := by
  have hsolid : ∀ c ∈ figure.number, (!isSpace c) = true := by
    intro c hc
    rw [figure.isSpace_number c hc]
    rfl
  have htext : figure.text ++ rest =
      figure.number ++ 0x20 :: (figure.unit.scale ++ 0x42 :: rest) := by
    simp [MemoryFigure.text]
  have hdrop : (figure.number ++ 0x20 :: (figure.unit.scale ++ 0x42 :: rest)).dropWhile isSpace =
      figure.number ++ 0x20 :: (figure.unit.scale ++ 0x42 :: rest) := by
    obtain ⟨c, number, hnumber⟩ := List.exists_cons_of_ne_nil figure.number_ne_nil
    have hc : isSpace c = false := figure.isSpace_number c (by simp [hnumber])
    rw [hnumber, List.cons_append, List.dropWhile_cons_of_neg (by simp [hc])]
  have hscale : (0x20 :: (figure.unit.scale ++ 0x42 :: rest)).dropWhile isSpace =
      figure.unit.scale ++ 0x42 :: rest := by
    rw [List.dropWhile_cons_of_pos rfl]
    cases figure.unit <;> rfl
  have hnext : ¬ (isPrivate = true ∧
      ¬ rest.head?.all (fun c => isSpace c || isDigit c) = true) := by
    rintro ⟨hprivate, hnot⟩
    exact hnot (hrest hprivate)
  unfold parseMemoryField
  rw [List.dropWhile_append_of_pos (isSpace_replicate k), htext, hdrop]
  dsimp only
  rw [if_neg (by simp [figure.number_ne_nil]), List.takeWhile_append_of_pos hsolid,
    List.takeWhile_cons_of_neg (by simp [isSpace]), List.append_nil,
    if_neg (by simp [figure.isValid_number]), List.dropWhile_append_of_pos hsolid,
    List.dropWhile_cons_of_neg (by simp [isSpace]), hscale, memoryUnit_scale]
  dsimp only
  rw [if_neg hnext]

end Figures

section Time
variable (c : Context)

lemma isDigit_twoDigits (n : ℕ) : ∀ b ∈ twoDigits n, isDigit b = true := by
  intro b hb
  rw [twoDigits, List.leftpad] at hb
  rcases List.mem_append.mp hb with hb | hb
  · rw [List.eq_of_mem_replicate hb]
    rfl
  · exact isDigit_decimal b hb

lemma length_decimal_le_two_iff (n : ℕ) : (decimal n).length ≤ 2 ↔ n < 100 := by
  constructor
  · intro h
    have hvalue := DigitRuns.runValue_lt_pow (@isDigit_decimal n)
    have hpow : 10 ^ (decimal n).length ≤ 10 ^ 2 := Nat.pow_le_pow_right (by decide) h
    rw [(DigitRuns.numeral_iff.mp (numeral_decimal n)).2.2] at hvalue
    omega
  · exact length_decimal_le (by decide : 0 < 2)

/-- The last two digits, and those in front of them from a hundred on. -/
lemma exists_twoDigits (n : ℕ) : ∃ front d e, twoDigits n = front ++ [d, e] ∧
    (front ≠ [] ↔ 100 ≤ n) := by
  have hlength : (twoDigits n).length = max 2 (decimal n).length := List.length_leftpad
  have htwo : ((twoDigits n).drop ((twoDigits n).length - 2)).length = 2 := by
    rw [List.length_drop]
    omega
  obtain ⟨d, e, hde⟩ := List.length_eq_two.mp htwo
  refine ⟨(twoDigits n).take ((twoDigits n).length - 2), d, e, ?_, ?_⟩
  · rw [← hde, List.take_append_drop]
  · have hiff := length_decimal_le_two_iff n
    rw [← List.length_pos_iff, List.length_take]
    omega

lemma exists_pair (n : ℕ) (h : n < 100) : ∃ d e, twoDigits n = [d, e] := by
  obtain ⟨front, d, e, heq, hfront⟩ := exists_twoDigits n
  have hnil : front = [] := by
    by_contra hne
    exact absurd (hfront.mp hne) (by omega)
  exact ⟨d, e, by rw [heq, hnil, List.nil_append]⟩

/-- A time is found behind a text without a colon, unless the text is blank. -/
lemma skipTime_digits {before rest : List UInt8} {d e m m' s s' h h' : UInt8}
    (hcolon : 0x3A ∉ before) (hdigits : ∀ b ∈ [d, e, m, m', s, s', h, h'], isDigit b = true)
    (hrest : rest.head?.any (fun b => isSpace b || isDigit b) = true) :
    skipTime (before ++
        d :: e :: 0x3A :: m :: m' :: 0x3A :: s :: s' :: 0x2E :: h :: h' :: rest) =
      if before.rdropWhile isSpace = [] then none else some rest := by
  set behind := d :: e :: 0x3A :: m :: m' :: 0x3A :: s :: s' :: 0x2E :: h :: h' :: rest
  have hindex : (before ++ behind).idxOf? 0x3A = some (before.length + 2) := by
    have hbefore : 0x3A ∉ before ++ [d, e] := by
      have hpair : 0x3A ∉ [d, e] := by
        intro hmem
        have hdigit := hdigits 0x3A (by simp at hmem ⊢; tauto)
        cases hdigit
      rw [List.mem_append, not_or]
      exact ⟨hcolon, hpair⟩
    have hsplit : before ++ behind = (before ++ [d, e]) ++ 0x3A :: behind.drop 3 := by
      simp [behind]
    rw [hsplit, Paths.idxOf?_append_cons hbefore]
    simp
  have hget (i : ℕ) : (before ++ behind)[before.length + i]? = behind[i]? := by
    rw [List.getElem?_append_right (Nat.le_add_right _ _), Nat.add_sub_cancel_left]
  have hdigitAt {i : ℕ} {b : UInt8} (hb : behind[i]? = some b)
      (hmem : b ∈ [d, e, m, m', s, s', h, h']) :
      digitAt (before ++ behind) (before.length + i) = true := by
    rw [digitAt, hget, hb]
    exact hdigits b hmem
  have hhours : ¬ (¬ digitAt (before ++ behind) (before.length + 2 - 1) = true ∨
      ¬ digitAt (before ++ behind) (before.length + 2 - 2) = true) := by
    rw [not_or, not_not, not_not]
    exact ⟨@hdigitAt 1 e rfl (by simp), @hdigitAt 0 d rfl (by simp)⟩
  have hlength : ¬ before.length + 2 + 8 ≥ (before ++ behind).length := by
    simp only [behind, List.length_append, List.length_cons]
    omega
  have hshape : ¬ (¬ digitAt (before ++ behind) (before.length + 2 + 1) = true ∨
      ¬ digitAt (before ++ behind) (before.length + 2 + 2) = true ∨
      (before ++ behind)[before.length + 2 + 3]? ≠ some 0x3A ∨
      ¬ digitAt (before ++ behind) (before.length + 2 + 4) = true ∨
      ¬ digitAt (before ++ behind) (before.length + 2 + 5) = true ∨
      (before ++ behind)[before.length + 2 + 6]? ≠ some 0x2E ∨
      ¬ digitAt (before ++ behind) (before.length + 2 + 7) = true ∨
      ¬ digitAt (before ++ behind) (before.length + 2 + 8) = true) := by
    simp only [not_or, not_not]
    exact ⟨@hdigitAt 3 m rfl (by simp), @hdigitAt 4 m' rfl (by simp), hget 5,
      @hdigitAt 6 s rfl (by simp), @hdigitAt 7 s' rfl (by simp), hget 8,
      @hdigitAt 9 h rfl (by simp), @hdigitAt 10 h' rfl (by simp)⟩
  have hnext : ¬ ¬ (before ++ behind)[before.length + 2 + 9]?.any
      (fun b => isSpace b || isDigit b) = true := by
    have hhead : (before ++ behind)[before.length + 2 + 9]? = rest.head? := by
      rw [List.head?_eq_getElem?]
      exact hget 11
    rw [hhead, hrest]
    simp
  have htake : (before ++ behind).take (before.length + 2 - 2) = before := List.take_left
  have hdrop : (before ++ behind).drop (before.length + 2 + 9) = rest := by
    rw [Nat.add_assoc, ← List.drop_drop, List.drop_left]
    rfl
  unfold skipTime
  rw [hindex]
  dsimp only
  rw [if_neg (by omega), if_neg hhours, if_neg hlength, if_neg hshape, if_neg hnext, htake, hdrop]

/-- Nothing is left of blanks in front of nothing. -/
lemma rdropWhile_append_eq_nil_iff {front hours : List UInt8}
    (hsolid : ∀ b ∈ hours, isSpace b = false) :
    (front ++ hours).rdropWhile isSpace = [] ↔
      ¬ ((∃ b ∈ front, isSpace b = false) ∨ hours ≠ []) := by
  rw [List.rdropWhile_eq_nil_iff, not_or, not_not, not_exists]
  constructor
  · intro hall
    constructor
    · rintro b ⟨hb, hspace⟩
      rw [hall b (List.mem_append_left _ hb)] at hspace
      cases hspace
    · by_contra hne
      obtain ⟨b, hb⟩ := List.exists_mem_of_ne_nil hours hne
      have hspace := hall b (List.mem_append_right _ hb)
      rw [hsolid b hb] at hspace
      cases hspace
  · rintro ⟨hfront, rfl⟩ b hb
    rw [List.append_nil] at hb
    by_contra hspace
    exact hfront b ⟨hb, by simpa using hspace⟩

/-- The time is found behind a text without a colon; the text, with the digits of the hours in
front of the last two, must not be blank. -/
lemma skipTime_timeText {front rest : List UInt8} (hcolon : 0x3A ∉ front)
    (hrest : rest.head?.any (fun b => isSpace b || isDigit b) = true) :
    skipTime (front ++ (c.timeText ++ rest)) =
      if (∃ b ∈ front, isSpace b = false) ∨ 100 ≤ c.hours then some rest else none := by
  obtain ⟨hours, d, e, hhours, hhundred⟩ := exists_twoDigits c.hours
  obtain ⟨m, m', hminutes⟩ := exists_pair c.minutes (by omega)
  obtain ⟨s, s', hseconds⟩ := exists_pair c.seconds (by omega)
  obtain ⟨h, h', hhundredths⟩ := exists_pair c.hundredths c.hundredths.isLt
  have hleading : ∀ b ∈ hours, isDigit b = true := by
    intro b hb
    exact isDigit_twoDigits c.hours b (by simp [hhours, hb])
  have hdigits : ∀ b ∈ [d, e, m, m', s, s', h, h'], isDigit b = true := by
    have hall (n : ℕ) := isDigit_twoDigits n
    have h1 := hall c.hours
    have h2 := hall c.minutes
    have h3 := hall c.seconds
    have h4 := hall c.hundredths
    rw [hhours] at h1
    rw [hminutes] at h2
    rw [hseconds] at h3
    rw [hhundredths] at h4
    simp only [List.forall_mem_cons, List.forall_mem_append] at h1 h2 h3 h4 ⊢
    exact ⟨h1.2.1, h1.2.2.1, h2.1, h2.2.1, h3.1, h3.2.1, h4.1, h4.2.1, by simp⟩
  have htext : front ++ (c.timeText ++ rest) = (front ++ hours) ++
      d :: e :: 0x3A :: m :: m' :: 0x3A :: s :: s' :: 0x2E :: h :: h' :: rest := by
    simp [Context.timeText, hhours, hminutes, hseconds, hhundredths]
  have hbefore : 0x3A ∉ front ++ hours := by
    rw [List.mem_append, not_or]
    refine ⟨hcolon, fun hmem => ?_⟩
    cases hleading _ hmem
  have hblank := @rdropWhile_append_eq_nil_iff front hours fun b hb =>
    isSpace_of_isDigit (hleading b hb)
  rw [hhundred] at hblank
  rw [htext, skipTime_digits hbefore hdigits hrest]
  by_cases hseen : (∃ b ∈ front, isSpace b = false) ∨ 100 ≤ c.hours
  · rw [if_pos hseen, if_neg fun hnil => hblank.mp hnil hseen]
  · rw [if_neg hseen, if_pos (hblank.mpr hseen)]

end Time

end Columns

section Rows
variable (c : Context)

/-- Behind blanks comes the first digit of a figure. -/
lemma head?_figure (k : ℕ) (figure : MemoryFigure) (rest : List UInt8) :
    (List.replicate k 0x20 ++ (figure.text ++ rest)).head?.any
      (fun b => isSpace b || isDigit b) = true := by
  cases k with
  | succ k => rfl
  | zero =>
    obtain ⟨b, digits, hdigits⟩ := List.exists_cons_of_ne_nil figure.whole.ne_nil
    have hb : isDigit b = true := figure.whole.isDigit_of_mem b (by simp [hdigits])
    simp [MemoryFigure.text, MemoryFigure.number, hdigits, hb]

/-- Blanks are dropped in front of a text that does not begin with one. -/
lemma dropWhile_append_solid {front text : List UInt8} (hne : text ≠ [])
    (h : ∀ b ∈ text.head?, isSpace b = false) :
    (front ++ text).dropWhile isSpace = front.dropWhile isSpace ++ text := by
  obtain ⟨b, text, rfl⟩ := List.exists_cons_of_ne_nil hne
  have hb : isSpace b = false := h b rfl
  rw [List.dropWhile_append]
  split_ifs with hempty
  · rw [List.isEmpty_iff.mp hempty, List.nil_append, List.dropWhile_cons_of_neg (by simp [hb])]
  · rfl

/-- Blanks around a text do not matter for whether anything is to be seen. -/
lemma exists_solid_iff (j k : ℕ) (text : List UInt8) :
    (∃ b ∈ (List.replicate j 0x20 ++ (text ++ List.replicate k 0x20)).dropWhile isSpace,
      isSpace b = false) ↔ ∃ b ∈ text, isSpace b = false := by
  constructor
  · rintro ⟨b, hb, hsolid⟩
    have hmem := (List.dropWhile_suffix isSpace).subset hb
    rw [List.mem_append, List.mem_append] at hmem
    rcases hmem with hblank | htext | hblank
    · rw [isSpace_replicate j b hblank] at hsolid
      cases hsolid
    · exact ⟨b, htext, hsolid⟩
    · rw [isSpace_replicate k b hblank] at hsolid
      cases hsolid
  · rintro ⟨b, hb, hsolid⟩
    refine ⟨b, ?_, hsolid⟩
    have hmem : b ∈ List.replicate j 0x20 ++ (text ++ List.replicate k 0x20) := by simp [hb]
    rw [← @List.takeWhile_append_dropWhile _ isSpace
      (List.replicate j 0x20 ++ (text ++ List.replicate k 0x20)), List.mem_append] at hmem
    rcases hmem with hfront | hback
    · rw [List.mem_takeWhile_imp hfront] at hsolid
      cases hsolid
    · exact hback

lemma head?_timeText (rest : List UInt8) :
    c.timeText ++ rest ≠ [] ∧ ∀ b ∈ (c.timeText ++ rest).head?, isSpace b = false := by
  obtain ⟨hours, d, e, hhours, -⟩ := exists_twoDigits c.hours
  have hdigits := isDigit_twoDigits c.hours
  unfold Context.timeText
  cases htwo : twoDigits c.hours with
  | nil => simp [htwo] at hhours
  | cons b more =>
    rw [htwo] at hdigits
    refine ⟨by simp, ?_⟩
    intro b' hb'
    cases hb'
    exact isSpace_of_isDigit (hdigits b (by simp))

/-- A row is read as the entry of its context, if something is seen of the affinity. -/
theorem parseContext_rowWith (tail : List UInt8) :
    parseContext (c.rowWith tail) = if c.HasAffinity then some c.entry else none := by
  set shared := c.shared.text ++ tail
  set priv := padded 8 c.priv.text ++ shared
  set time := padded 12 c.timeText ++ priv
  set affinity := padded 11 c.affinity ++ time
  set cpu := column c.cpuText ++ affinity
  set stat := column c.statText ++ cpu
  set egid := column (decimal c.egid.toNat) ++ stat
  set euid := column (decimal c.euid.toNat) ++ egid
  have hrow : c.rowWith tail =
      List.replicate 0 0x20 ++ (column (decimal c.pid.toNat) ++ euid) := rfl
  have hcpuText : c.cpuText ≠ [] := (of_decide_eq_true (isCpu_cpuText c)).1
  obtain ⟨k1, hpid⟩ := readToken_column 0 euid (decimal_ne_nil c.pid.toNat) (isSpace_decimal _)
  obtain ⟨k2, heuid⟩ : ∃ j, readToken (List.replicate k1 0x20 ++ euid) =
      (decimal c.euid.toNat, List.replicate j 0x20 ++ egid) :=
    readToken_column k1 egid (decimal_ne_nil _) (isSpace_decimal _)
  obtain ⟨k3, hegid⟩ : ∃ j, readToken (List.replicate k2 0x20 ++ egid) =
      (decimal c.egid.toNat, List.replicate j 0x20 ++ stat) :=
    readToken_column k2 stat (decimal_ne_nil _) (isSpace_decimal _)
  obtain ⟨k4, hstat⟩ : ∃ j, readToken (List.replicate k3 0x20 ++ stat) =
      (c.statText, List.replicate j 0x20 ++ cpu) :=
    readToken_column k3 cpu (List.cons_ne_nil _ _) (isSpace_statText c)
  obtain ⟨k5, hcpu⟩ : ∃ j, readToken (List.replicate k4 0x20 ++ cpu) =
      (c.cpuText, List.replicate j 0x20 ++ affinity) :=
    readToken_column k4 affinity hcpuText (isSpace_cpuText c)
  have htime : skipTime ((List.replicate k5 0x20 ++ affinity).dropWhile isSpace) =
      if c.HasAffinity then some (List.replicate (12 - c.timeText.length) 0x20 ++ priv)
      else none := by
    have hsplit : List.replicate k5 0x20 ++ affinity =
        (List.replicate k5 0x20 ++ (c.affinity ++ List.replicate (11 - c.affinity.length) 0x20)) ++
          (c.timeText ++ (List.replicate (12 - c.timeText.length) 0x20 ++ priv)) := by
      simp [affinity, time, padded]
    obtain ⟨hne, hsolid⟩ := head?_timeText c (List.replicate (12 - c.timeText.length) 0x20 ++ priv)
    have hcolon : 0x3A ∉ (List.replicate k5 0x20 ++
        (c.affinity ++ List.replicate (11 - c.affinity.length) 0x20)).dropWhile isSpace := by
      intro hmem
      have hin := (List.dropWhile_suffix isSpace).subset hmem
      simp [c.affinity_no_colon] at hin
    have hnext : (List.replicate (12 - c.timeText.length) 0x20 ++ priv).head?.any
        (fun b => isSpace b || isDigit b) = true := by
      simp only [priv, padded, List.append_assoc]
      exact head?_figure _ _ _
    rw [hsplit, dropWhile_append_solid hne hsolid, skipTime_timeText c hcolon hnext]
    exact if_congr (or_congr_left (exists_solid_iff _ _ _)) rfl rfl
  have hpriv : parseMemoryField (List.replicate (12 - c.timeText.length) 0x20 ++ priv) true =
      some ⟨c.priv.number, c.priv.unit.scale ++ [0x42],
        List.replicate (8 - c.priv.text.length) 0x20 ++ shared⟩ := by
    simp only [priv, padded, List.append_assoc]
    refine parseMemoryField_text _ _ fun _ => ?_
    have hhead := head?_figure (8 - c.priv.text.length) c.shared tail
    cases h : (List.replicate (8 - c.priv.text.length) 0x20 ++ (c.shared.text ++ tail)).head? with
    | none => rfl
    | some b =>
      rw [h] at hhead
      exact hhead
  have hshared : parseMemoryField (List.replicate (8 - c.priv.text.length) 0x20 ++ shared) false =
      some ⟨c.shared.number, c.shared.unit.scale ++ [0x42], tail⟩ :=
    parseMemoryField_text _ _ fun hfalse => nomatch hfalse
  unfold parseContext
  rw [hrow]
  simp only [hpid, heuid, hegid, hstat, hcpu, parseUint_decimal, parseStat_statText,
    isCpu_cpuText, Option.bind_eq_bind, Option.bind_some, not_true, if_false, htime]
  by_cases hseen : c.HasAffinity
  · simp only [hseen, if_true, Option.bind_some, hpriv, hshared]
    rfl
  · simp only [hseen, if_false, Option.bind_none]

end Rows

end Syscape.Redox
