import Syscape.LinuxFile
import Syscape.Numbers
import Syscape.Lib.Moments
import Mathlib.Data.List.Sort

/-!
# Queries with a buffer that grows

Six queries about the calling process call the system with a buffer of a first size, and again
with a larger one while it is too small: the path of the executable, the working directory, the
record of the account, the login name, the supplementary groups and the CPU affinity. What they
ask for may change between two calls.
-/
namespace Syscape.Growing
open Calls Checked Growth Moments LinuxFile Numbers

section Queries

/-- `ENXIO`, `EINVAL`, `ENOTTY` and `ERANGE`. -/
def enxio : ℤ := 6
def einval : ℤ := 22
def enotty : ℤ := 25
def erange : ℤ := 34

/-- `posix_passwd::fields`. -/
structure PasswdFields where
  name : List UInt8
  directory : List UInt8
  shell : List UInt8
  deriving DecidableEq, Repr

/-- The system calls, with the size of the buffer; `sched_getaffinity` gets one of words. -/
inductive Call where
  | readlink (size : ℕ)
  | getcwd (size : ℕ)
  | getpwuid (size : ℕ)
  | getlogin (size : ℕ)
  | getgroups (size : ℕ)
  | getaffinity (words : ℕ)

/-- An error number or what the call stores; `getpwuid_r` stores no pointer for an unknown
user. -/
def Answer : Call → Type
  | .readlink _ => Except ℤ (List UInt8)
  | .getcwd _ => Except ℤ (List UInt8)
  | .getpwuid _ => Except ℤ (Option PasswdFields)
  | .getlogin _ => Except ℤ (List UInt8)
  | .getgroups _ => Except ℤ (List UInt32)
  | .getaffinity _ => Except ℤ (List UInt64)

abbrev Query (α : Type) := Prog Call Answer α

/-- `maximum_size`. -/
def maximumSize : ℕ := 1024 * 1024

/-- What the loop in `read_link_with_growth` makes of an answer. -/
def afterReadlink (size : ℕ) : Except ℤ (List UInt8) → ℕ ⊕ Result (List UInt8)
  | .ok target =>
    if target.length < size then .inr (.ok target)
    else if size > maximumSize / 2 then .inr (fail .valueTooLarge)
    else .inl (size * 2)
  | .error errno => if errno ≠ eintr then .inr (failErrno errno) else .inl size

/-- The checks of `executable_path`. -/
def checkExecutable (value : Result (List UInt8)) : Result (List UInt8) := do
  let path ← value
  if path.head? = some 0x2F then .ok path else fail .malformedData

/-- `executable_path`. -/
def executablePath : Query (Result (List UInt8)) := do
  let value ← repeated Call.readlink afterReadlink 256
  return checkExecutable value

/-- What the loop in `working_directory` makes of an answer. -/
def afterGetcwd (size : ℕ) : Except ℤ (List UInt8) → ℕ ⊕ Result (List UInt8)
  | .ok path => .inr (if path = [] then fail .malformedData else .ok path)
  | .error errno =>
    if errno ≠ erange then .inr (failErrno errno)
    else if size ≥ maximumSize then .inr (fail .valueTooLarge)
    else .inl (grown maximumSize size)

/-- `working_directory`. -/
def workingDirectory : Query (Result (List UInt8)) := repeated Call.getcwd afterGetcwd 1024

/-- What the loop in `lookup_with_growth` makes of an answer. -/
def afterGetpwuid (size : ℕ) : Except ℤ (Option PasswdFields) → ℕ ⊕ Result PasswdFields
  | .ok none => .inr (fail .notFound)
  | .ok (some value) => .inr (.ok value)
  | .error outcome =>
    if outcome = erange ∧ size < maximumSize then .inl (grown maximumSize size)
    else .inr (failErrno outcome)

/-- `current_passwd_entry`. -/
def currentPasswdEntry : Query (Result PasswdFields) := repeated Call.getpwuid afterGetpwuid 1024

/-- `extract_name`. -/
def extractName (fields : PasswdFields) : Result (List UInt8) :=
  if fields.name = [] then fail .malformedData else .ok fields.name

/-- `extract_home_directory`. -/
def extractHomeDirectory (fields : PasswdFields) : Result (List UInt8) :=
  if fields.directory.head? = some 0x2F then .ok fields.directory else fail .malformedData

/-- `extract_shell`. -/
def extractShell (fields : PasswdFields) : Result (List UInt8) := .ok fields.shell

/-- `user_name`, `home_directory` and `shell`, by what they extract. -/
def accountField (extract : PasswdFields → Result (List UInt8)) : Query (Result (List UInt8)) := do
  let fields ← currentPasswdEntry
  return fields >>= extract

/-- `map_login_failure`. -/
def mapLoginFailure (outcome : ℤ) : Fault ErrorCode :=
  if outcome = enxio ∨ outcome = enotty ∨ outcome = enoent then .fail (.syscape .notFound)
  else .fail (.generic outcome)

/-- What the loop in `lookup_login_with_growth` makes of an answer. -/
def afterGetlogin (size : ℕ) : Except ℤ (List UInt8) → ℕ ⊕ Result (List UInt8)
  | .ok name => .inr (if name = [] then fail .malformedData else .ok name)
  | .error outcome =>
    if (outcome = erange ∨ outcome = einval) ∧ size < maximumSize then
      .inl (grown maximumSize size)
    else .inr (.error (mapLoginFailure outcome))

/-- `login_name`. -/
def loginName : Query (Result (List UInt8)) := repeated Call.getlogin afterGetlogin 256

/-- `std::unique` and `erase`. -/
def unique : List ℕ → List ℕ
  | a :: b :: l => if a = b then unique (b :: l) else a :: unique (b :: l)
  | l => l

/-- The identifiers in ascending order, each once; a `gid_t` has 32 bits and is not narrowed. -/
def sortedIdentifiers (recorded : List UInt32) : List ℕ :=
  unique ((recorded.map UInt32.toNat).mergeSort fun a b => decide (a ≤ b))

/-- What the loop in `collect_supplementary_groups` makes of an answer, with what follows it. -/
def afterGetgroups (size : ℕ) : Except ℤ (List UInt32) → ℕ ⊕ Result (List ℕ)
  | .ok recorded => .inr (.ok (sortedIdentifiers recorded))
  | .error failureCode =>
    if ¬ (failureCode = erange ∨ failureCode = einval) ∨ size ≥ maximumSize then
      .inr (failErrno failureCode)
    else .inl (grown maximumSize size)

/-- `supplementary_groups`. -/
def supplementaryGroups : Query (Result (List ℕ)) := repeated Call.getgroups afterGetgroups 64

/-- The inner loop in `affinity_indices`, for a word and its index. -/
def affinityWord (indices : List ℕ) (word : UInt64 × ℕ) : Result (List ℕ) :=
  (List.range 64).foldlM (fun indices bit =>
    if (word.1.toNat >>> bit) &&& 1 ≠ 0 then
      let index := word.2 * 8 * 8 + bit
      if index > uint32Max then fail .valueTooLarge else .ok (indices ++ [index])
    else .ok indices) indices

/-- `affinity_indices`. -/
def affinityIndices (words : List UInt64) : Result (List ℕ) := do
  let indices ← words.zipIdx.foldlM affinityWord []
  if indices = [] then fail .malformedData else .ok indices

/-- `initial_words`. -/
def initialWords : ℕ := 1024 / 64

/-- `maximum_words`. -/
def maximumWords : ℕ := initialWords * 512

/-- What the loop in `cpu_affinity` makes of an answer, with what follows it. -/
def afterGetaffinity (words : ℕ) : Except ℤ (List UInt64) → ℕ ⊕ Result (List ℕ)
  | .ok mask => .inr (affinityIndices mask)
  | .error errno =>
    if errno ≠ einval ∨ words ≥ maximumWords then
      .inr (if errno = einval ∧ words ≥ maximumWords then fail .valueTooLarge
        else failErrno errno)
    else .inl (words * 2)

/-- `cpu_affinity`. -/
def cpuAffinity : Query (Result (List ℕ)) :=
  repeated Call.getaffinity afterGetaffinity initialWords

end Queries

section World

/-- The record of an account, and how many bytes a buffer for it needs. -/
structure Account where
  fields : PasswdFields
  needed : ℕ
  deriving DecidableEq, Repr

/-- What holds of the process at some time. An error that the calls use to say that a buffer is
too small, or that a signal has arrived, is no error of its own. -/
structure Facts where
  executable : Except ℤ (List UInt8)
  directory : Except ℤ (List UInt8)
  account : Except ℤ (Option Account)
  login : Except ℤ (List UInt8)
  groups : Except ℤ (List UInt32)
  affinity : Except ℤ (List UInt64)
  executable_ne : executable ≠ .error eintr
  directory_ne : directory ≠ .error erange
  affinity_ne : affinity ≠ .error einval

/-- The answer of a call that stores a text, for a buffer that has to hold a zero too. -/
def stored (size : ℕ) (text : List UInt8) : Except ℤ (List UInt8) :=
  if text.length < size then .ok text else .error erange

/-- The answers to the calls. -/
def reply (m : Facts) : (c : Call) → Answer c
  | .readlink size => m.executable.map (List.take size)
  | .getcwd size => m.directory >>= stored size
  | .getpwuid size => m.account >>= fun account =>
    match account with
    | none => .ok none
    | some a => if a.needed ≤ size then .ok (some a.fields) else .error erange
  | .getlogin size => m.login >>= stored size
  | .getgroups size => m.groups >>= fun groups =>
    if groups.length ≤ size then .ok groups else .error einval
  | .getaffinity words => m.affinity >>= fun mask =>
    if mask.length ≤ words then .ok (mask ++ List.replicate (words - mask.length) 0)
    else .error einval

/-- Only `readlink` is interrupted. -/
def interruption : (c : Call) → Option (Answer c)
  | .readlink _ => some (.error eintr)
  | _ => none

end World

section Outcomes
variable {m : Facts} {size : ℕ}

/-- What the link of the executable stands for, however large the buffer is. -/
def linkOf (m : Facts) : Result (List UInt8) :=
  match m.executable with
  | .error errno => failErrno errno
  | .ok target => if maximumSize ≤ target.length then fail .valueTooLarge else .ok target

/-- What the working directory stands for. -/
def directoryOf (m : Facts) : Result (List UInt8) :=
  match m.directory with
  | .error errno => failErrno errno
  | .ok path =>
    if maximumSize ≤ path.length then fail .valueTooLarge
    else if path = [] then fail .malformedData
    else .ok path

/-- What the record of the account stands for. -/
def accountOf (m : Facts) : Result PasswdFields :=
  match m.account with
  | .error errno => failErrno errno
  | .ok none => fail .notFound
  | .ok (some a) => if maximumSize < a.needed then failErrno erange else .ok a.fields

/-- What the session's login name stands for. -/
def loginOf (m : Facts) : Result (List UInt8) :=
  match m.login with
  | .error errno => .error (mapLoginFailure errno)
  | .ok name =>
    if maximumSize ≤ name.length then failErrno erange
    else if name = [] then fail .malformedData
    else .ok name

/-- What the supplementary groups stand for. -/
def groupsOf (m : Facts) : Result (List ℕ) :=
  match m.groups with
  | .error errno => failErrno errno
  | .ok groups =>
    if maximumSize < groups.length then failErrno einval else .ok (sortedIdentifiers groups)

theorem maximumSize_eq : maximumSize = 2 ^ 20 := rfl

theorem round_readlink (hsize : PowerUpTo 20 size) :
    RoundAt (PowerUpTo 20) (fun m r => r = linkOf m) size m
      (afterReadlink size (reply m (.readlink size))) := by
  have hle := hsize.le
  have hpos := hsize.pos
  have hne := m.executable_ne
  rw [reply]
  cases hlink : m.executable with
  | error errno =>
    have hsignal : errno ≠ eintr := fun h => hne (by rw [hlink, h])
    simp only [Except.map, afterReadlink, if_pos hsignal, RoundAt, linkOf, hlink]
  | ok target =>
    simp only [Except.map, afterReadlink, List.length_take]
    by_cases hfits : target.length < size
    · rw [if_pos (by omega)]
      have hsmall : ¬ maximumSize ≤ target.length := by
        rw [maximumSize_eq]
        omega
      simp only [RoundAt, linkOf, hlink, if_neg hsmall, List.take_of_length_le hfits.le]
    · rw [if_neg (by omega)]
      by_cases hhalf : size > maximumSize / 2
      · have hmax : size = maximumSize := hsize.eq_of_half_lt hhalf
        have hlarge : maximumSize ≤ target.length := by omega
        simp only [if_pos hhalf, RoundAt, linkOf, hlink, if_pos hlarge]
      · rw [if_neg hhalf]
        have hlt : size < 2 ^ 20 := by
          rw [maximumSize_eq] at hhalf
          omega
        exact ⟨hsize.double hlt, by omega⟩

/-- A signal leaves the loop as it is. -/
theorem afterReadlink_interruption (size : ℕ) (r : Answer (.readlink size))
    (h : interruption (.readlink size) = some r) : afterReadlink size r = .inl size := by
  cases h
  rw [afterReadlink, if_neg (not_not_intro rfl)]

/-- The buffer is too small, and becomes larger unless it is the largest. -/
theorem round_grown {α : Type} {p : Facts → α → Prop} (hsize : PowerUpTo 20 size)
    (hlt : size < maximumSize) :
    RoundAt (PowerUpTo 20) p size m (.inl (grown maximumSize size)) :=
  ⟨hsize.grown hlt, lt_grown hsize.pos hlt⟩

theorem round_getcwd (hsize : PowerUpTo 20 size) :
    RoundAt (PowerUpTo 20) (fun m r => r = directoryOf m) size m
      (afterGetcwd size (reply m (.getcwd size))) := by
  have hle : size ≤ maximumSize := hsize.le
  have hne := m.directory_ne
  rw [reply]
  cases hdirectory : m.directory with
  | error errno =>
    have hown : errno ≠ erange := fun h => hne (by rw [hdirectory, h])
    simp only [error_bind, afterGetcwd, if_pos hown, RoundAt, directoryOf, hdirectory]
  | ok path =>
    rw [ok_bind, stored]
    split_ifs with hfits
    · have hsmall : ¬ maximumSize ≤ path.length := by omega
      simp only [afterGetcwd, RoundAt, directoryOf, hdirectory, if_neg hsmall]
    · rw [afterGetcwd, if_neg (by simp)]
      split_ifs with hlarge
      · have hmax : maximumSize ≤ path.length := by omega
        simp only [RoundAt, directoryOf, hdirectory, if_pos hmax]
      · exact round_grown hsize (Nat.lt_of_not_le hlarge)

theorem round_getpwuid (hsize : PowerUpTo 20 size) :
    RoundAt (PowerUpTo 20) (fun m r => r = accountOf m) size m
      (afterGetpwuid size (reply m (.getpwuid size))) := by
  have hle : size ≤ maximumSize := hsize.le
  rw [reply]
  cases haccount : m.account with
  | error errno =>
    rw [error_bind, afterGetpwuid]
    split_ifs with hsmall
    · exact round_grown hsize hsmall.2
    · simp only [RoundAt, accountOf, haccount]
  | ok account =>
    rw [ok_bind]
    cases account with
    | none => simp only [afterGetpwuid, RoundAt, accountOf, haccount]
    | some a =>
      dsimp only
      split_ifs with hfits
      · have hfew : ¬ maximumSize < a.needed := by omega
        simp only [afterGetpwuid, RoundAt, accountOf, haccount, if_neg hfew]
      · rw [afterGetpwuid]
        split_ifs with hsmall
        · exact round_grown hsize hsmall.2
        · have hmax : maximumSize < a.needed := by
            rw [not_and] at hsmall
            have := hsmall rfl
            omega
          simp only [RoundAt, accountOf, haccount, if_pos hmax]

theorem round_getlogin (hsize : PowerUpTo 20 size) :
    RoundAt (PowerUpTo 20) (fun m r => r = loginOf m) size m
      (afterGetlogin size (reply m (.getlogin size))) := by
  have hle : size ≤ maximumSize := hsize.le
  rw [reply]
  cases hlogin : m.login with
  | error errno =>
    rw [error_bind, afterGetlogin]
    split_ifs with hsmall
    · exact round_grown hsize hsmall.2
    · simp only [RoundAt, loginOf, hlogin]
  | ok name =>
    rw [ok_bind, stored]
    split_ifs with hfits
    · have hshort : ¬ maximumSize ≤ name.length := by omega
      simp only [afterGetlogin, RoundAt, loginOf, hlogin, if_neg hshort]
    · rw [afterGetlogin]
      split_ifs with hsmall
      · exact round_grown hsize hsmall.2
      · have hmax : maximumSize ≤ name.length := by
          rw [not_and] at hsmall
          have := hsmall (.inl rfl)
          omega
        have hmap : mapLoginFailure erange = .fail (.generic erange) := rfl
        simp only [RoundAt, loginOf, hlogin, if_pos hmax, hmap, failErrno]

theorem round_getgroups (hsize : PowerUpTo 20 size) :
    RoundAt (PowerUpTo 20) (fun m r => r = groupsOf m) size m
      (afterGetgroups size (reply m (.getgroups size))) := by
  have hle : size ≤ maximumSize := hsize.le
  rw [reply]
  cases hgroups : m.groups with
  | error errno =>
    rw [error_bind, afterGetgroups]
    split_ifs with hlarge
    · simp only [RoundAt, groupsOf, hgroups]
    · rw [not_or] at hlarge
      exact round_grown hsize (Nat.lt_of_not_le hlarge.2)
  | ok groups =>
    rw [ok_bind]
    split_ifs with hfits
    · have hfew : ¬ maximumSize < groups.length := by omega
      simp only [afterGetgroups, RoundAt, groupsOf, hgroups, if_neg hfew]
    · rw [afterGetgroups]
      split_ifs with hlarge
      · have hmax : maximumSize < groups.length := by
          have := hlarge.resolve_left (by simp)
          omega
        simp only [RoundAt, groupsOf, hgroups, if_pos hmax]
      · rw [not_or] at hlarge
        exact round_grown hsize (Nat.lt_of_not_le hlarge.2)

end Outcomes

section Groups

theorem mem_unique {l : List ℕ} {n : ℕ} : n ∈ unique l ↔ n ∈ l := by
  induction l using unique.induct with
  | case1 b l ih =>
    simp only [unique, ↓reduceIte, ih, List.mem_cons, or_self_left]
  | case2 a b l hne ih => simp only [unique, if_neg hne, ih, List.mem_cons]
  | case3 l hl =>
    cases l with
    | nil => rw [unique]; exact hl
    | cons a l =>
      cases l with
      | nil => rw [unique]; exact hl
      | cons b l => exact (hl a b l rfl).elim

/-- Equal values that lie next to each other are all the equal values of an ascending list. -/
theorem pairwise_unique {l : List ℕ} (h : l.Pairwise (· ≤ ·)) : (unique l).Pairwise (· < ·) := by
  induction l using unique.induct with
  | case1 b l ih =>
    rw [unique, if_pos rfl]
    exact ih h.of_cons
  | case2 a b l hne ih =>
    rw [unique, if_neg hne, List.pairwise_cons]
    refine ⟨fun n hn => ?_, ih h.of_cons⟩
    have hab : a ≤ b := List.rel_of_pairwise_cons h List.mem_cons_self
    rcases List.mem_cons.mp (mem_unique.mp hn) with rfl | hn
    · omega
    · have hbn : b ≤ n := List.rel_of_pairwise_cons h.of_cons hn
      omega
  | case3 l hl =>
    cases l with
    | nil => rw [unique]; exact .nil; exact hl
    | cons a l =>
      cases l with
      | nil => rw [unique]; exact List.pairwise_singleton _ a; exact hl
      | cons b l => exact (hl a b l rfl).elim

theorem mem_sortedIdentifiers {recorded : List UInt32} {n : ℕ} :
    n ∈ sortedIdentifiers recorded ↔ ∃ g ∈ recorded, g.toNat = n := by
  rw [sortedIdentifiers, mem_unique, List.mem_mergeSort, List.mem_map]

theorem pairwise_sortedIdentifiers (recorded : List UInt32) :
    (sortedIdentifiers recorded).Pairwise (· < ·) := by
  apply pairwise_unique
  have hsorted := @List.pairwise_mergeSort _ (fun a b : ℕ => decide (a ≤ b))
    (fun a b c hab hbc => by simp at *; omega) (fun a b => by simp; omega)
    (recorded.map UInt32.toNat)
  exact hsorted.imp fun h => of_decide_eq_true h

end Groups

section Affinity
variable {m : Facts}

/-- The bit of a processor in a word. -/
def marks (word : UInt64) (bit : ℕ) : Bool := (word.toNat >>> bit) &&& 1 ≠ 0

/-- The process may run on the processor. -/
def runsOn (mask : List UInt64) (n : ℕ) : Prop :=
  ∃ word, mask[n / 64]? = some word ∧ marks word (n % 64)

/-- The processors of a word. -/
def wordProcessors (word : UInt64 × ℕ) : List ℕ :=
  (List.range 64).flatMap fun bit => if marks word.1 bit then [word.2 * 8 * 8 + bit] else []

/-- The processors of a mask. -/
def processors (mask : List UInt64) : List ℕ := mask.zipIdx.flatMap wordProcessors

theorem mem_wordProcessors {word : UInt64} {index n : ℕ} :
    n ∈ wordProcessors (word, index) ↔ n / 64 = index ∧ marks word (n % 64) := by
  simp only [wordProcessors, List.mem_flatMap, List.mem_range]
  constructor
  · rintro ⟨bit, hbit, hn⟩
    split_ifs at hn with hmarks
    · rw [List.mem_singleton] at hn
      rw [show n % 64 = bit by omega]
      exact ⟨by omega, hmarks⟩
    · cases hn
  · rintro ⟨hindex, hmarks⟩
    refine ⟨n % 64, Nat.mod_lt _ (by decide), ?_⟩
    rw [if_pos hmarks, List.mem_singleton]
    omega

theorem mem_processors {mask : List UInt64} {n : ℕ} : n ∈ processors mask ↔ runsOn mask n := by
  rw [processors, List.mem_flatMap, runsOn]
  constructor
  · rintro ⟨⟨word, index⟩, hword, hn⟩
    obtain ⟨rfl, hmarks⟩ := mem_wordProcessors.mp hn
    exact ⟨word, List.mem_zipIdx_iff_getElem?.mp hword, hmarks⟩
  · rintro ⟨word, hword, hmarks⟩
    exact ⟨(word, n / 64), List.mem_zipIdx_iff_getElem?.mpr hword,
      mem_wordProcessors.mpr ⟨rfl, hmarks⟩⟩

theorem pairwise_wordProcessors (word : UInt64 × ℕ) : (wordProcessors word).Pairwise (· < ·) := by
  rw [wordProcessors, List.pairwise_flatMap]
  refine ⟨fun bit _ => ?_, List.pairwise_lt_range.imp fun hlt n hn m hm => ?_⟩
  · split_ifs
    · exact List.pairwise_singleton _ _
    · exact .nil
  · split_ifs at hn hm
    · rw [List.mem_singleton] at hn hm
      omega
    all_goals simp at hn hm

theorem pairwise_processors (mask : List UInt64) : (processors mask).Pairwise (· < ·) := by
  rw [processors, List.pairwise_flatMap]
  refine ⟨fun word _ => pairwise_wordProcessors word, ?_⟩
  have hindices : mask.zipIdx.Pairwise fun a b => a.2 < b.2 := by
    have hrange := @List.pairwise_lt_range' 0 mask.length 1 Nat.one_pos
    rw [← List.zipIdx_map_snd 0 mask, List.pairwise_map] at hrange
    exact hrange
  refine hindices.imp fun hlt n hn m hm => ?_
  have hn' := (mem_wordProcessors.mp hn).1
  have hm' := (mem_wordProcessors.mp hm).1
  omega

/-- A mask of that size has no processor whose index needs more than 32 bits. -/
theorem affinityIndices_eq {mask : List UInt64} (h : mask.length ≤ maximumWords) :
    affinityIndices mask =
      if processors mask = [] then fail .malformedData else .ok (processors mask) := by
  have hword : ∀ done, ∀ word ∈ mask.zipIdx,
      affinityWord done word = .ok (done ++ wordProcessors word) := by
    intro done word hmem
    have hindex : word.2 < mask.length := by
      have hlt := List.mem_zipIdx_iff_getElem?.mp hmem
      exact (List.getElem?_eq_some_iff.mp hlt).1
    apply foldlM_flatMap
    intro done bit hbit
    rw [List.mem_range] at hbit
    have hmax : maximumWords = 8192 := rfl
    have hsmall : ¬ word.2 * 8 * 8 + bit > uint32Max := by
      rw [uint32Max]
      omega
    by_cases hmarks : (word.1.toNat >>> bit) &&& 1 ≠ 0
    · simp only [if_pos hmarks, if_neg hsmall, marks, decide_eq_true_eq]
    · simp only [if_neg hmarks, marks, decide_eq_true_eq, List.append_nil]
  rw [affinityIndices, foldlM_flatMap hword, ok_bind, List.nil_append]
  rfl

/-- Words of zeros behind a mask mark no processor. -/
theorem processors_append_zeros (mask : List UInt64) (n : ℕ) :
    processors (mask ++ List.replicate n 0) = processors mask := by
  rw [processors, List.zipIdx_append, List.flatMap_append]
  have hnone :
      ((List.replicate n (0 : UInt64)).zipIdx (0 + mask.length)).flatMap wordProcessors = [] := by
    rw [List.flatMap_eq_nil_iff]
    intro word hword
    have hzero : word.1 = 0 := (List.mem_replicate.mp (List.fst_mem_of_mem_zipIdx hword)).2
    rw [List.eq_nil_iff_forall_not_mem]
    intro m hm
    have hmarks := (@mem_wordProcessors word.1 word.2 m).mp hm
    rw [hzero] at hmarks
    simp [marks] at hmarks
  rw [hnone, List.append_nil]
  rfl

/-- What the affinity mask stands for. -/
def affinityOf (m : Facts) : Result (List ℕ) :=
  match m.affinity with
  | .error errno => failErrno errno
  | .ok mask =>
    if maximumWords < mask.length then fail .valueTooLarge
    else if processors mask = [] then fail .malformedData
    else .ok (processors mask)

theorem round_getaffinity {size : ℕ} (hsize : PowerUpTo 13 size) :
    RoundAt (PowerUpTo 13) (fun m r => r = affinityOf m) size m
      (afterGetaffinity size (reply m (.getaffinity size))) := by
  have hle : size ≤ maximumWords := hsize.le
  have hpos := hsize.pos
  have hne := m.affinity_ne
  rw [reply]
  cases haffinity : m.affinity with
  | error errno =>
    have hown : errno ≠ einval := fun h => hne (by rw [haffinity, h])
    rw [error_bind, afterGetaffinity, if_pos (.inl hown), if_neg fun h => hown h.1]
    simp only [RoundAt, affinityOf, haffinity]
  | ok mask =>
    rw [ok_bind]
    split_ifs with hfits
    · have hlength : (mask ++ List.replicate (size - mask.length) 0).length ≤ maximumWords := by
        rw [List.length_append, List.length_replicate]
        omega
      have hfew : ¬ maximumWords < mask.length := by omega
      simp only [afterGetaffinity, RoundAt, affinityIndices_eq hlength, processors_append_zeros,
        affinityOf, haffinity, if_neg hfew]
    · rw [afterGetaffinity]
      split_ifs with hlarge hmax
      · have hmany : maximumWords < mask.length := by omega
        simp only [RoundAt, affinityOf, haffinity, if_pos hmany]
      · exact (hmax ⟨rfl, hlarge.resolve_left (by simp)⟩).elim
      · rw [not_or] at hlarge
        have hlt : size < maximumWords := Nat.lt_of_not_le hlarge.2
        exact ⟨hsize.double hlt, by omega⟩

end Affinity

section Whole

/-- Every run of the query is finite, and its result is what the facts of one moment of the run
stand for. -/
abbrev Returns {α : Type} (query : Query α) (outcome : Facts → α) : Prop :=
  Snapshot reply interruption query fun m a => a = outcome m

theorem returns_executablePath : Returns executablePath fun m => checkExecutable (linkOf m) := by
  apply snapshot_of_ensures
  intro w hw
  have hloop := ensures_repeated (fun _ _ => round_readlink) afterReadlink_interruption
    ⟨8, by decide, rfl⟩ hw
  exact Seen.imp (fun m a ha => by rw [ha]) hloop

theorem returns_workingDirectory : Returns workingDirectory directoryOf := by
  apply snapshot_of_ensures
  intro w hw
  exact ensures_repeated (fun _ _ => round_getcwd) (by simp [interruption]) ⟨10, by decide, rfl⟩ hw

theorem returns_accountField (extract : PasswdFields → Result (List UInt8)) :
    Returns (accountField extract) fun m => accountOf m >>= extract := by
  apply snapshot_of_ensures
  intro w hw
  have hsignal : ∀ (size : ℕ) (r : Answer (.getpwuid size)),
      interruption (.getpwuid size) = some r → afterGetpwuid size r = .inl size := by
    simp [interruption]
  have hloop := ensures_repeated (fun _ _ => round_getpwuid) hsignal ⟨10, by decide, rfl⟩ hw
  exact Seen.imp (fun m a ha => by rw [ha]) hloop

theorem returns_loginName : Returns loginName loginOf := by
  apply snapshot_of_ensures
  intro w hw
  exact ensures_repeated (fun _ _ => round_getlogin) (by simp [interruption]) ⟨8, by decide, rfl⟩ hw

theorem returns_supplementaryGroups : Returns supplementaryGroups groupsOf := by
  apply snapshot_of_ensures
  intro w hw
  exact ensures_repeated (fun _ _ => round_getgroups) (by simp [interruption]) ⟨6, by decide, rfl⟩ hw

theorem returns_cpuAffinity : Returns cpuAffinity affinityOf := by
  apply snapshot_of_ensures
  intro w hw
  exact ensures_repeated (fun _ _ => round_getaffinity) (by simp [interruption])
    ⟨4, by decide, rfl⟩ hw

/-- However often a buffer is too small, a signal arrives or something changes, every run ends,
and its result is what the facts of a single moment stand for: nothing is cut off, and nothing
of an earlier answer is left. The groups and the processors are all of that moment's, each once
and in ascending order. -/
theorem growing_queries :
    (Returns executablePath (fun m => checkExecutable (linkOf m)) ∧
      Returns workingDirectory directoryOf ∧
      (∀ extract, Returns (accountField extract) fun m => accountOf m >>= extract) ∧
      Returns loginName loginOf ∧
      Returns supplementaryGroups groupsOf ∧
      Returns cpuAffinity affinityOf) ∧
    (∀ recorded, (sortedIdentifiers recorded).Pairwise (· < ·) ∧
      ∀ n, n ∈ sortedIdentifiers recorded ↔ ∃ g ∈ recorded, g.toNat = n) ∧
    ∀ mask, (processors mask).Pairwise (· < ·) ∧ ∀ n, n ∈ processors mask ↔ runsOn mask n := by
  refine ⟨⟨returns_executablePath, returns_workingDirectory, returns_accountField,
    returns_loginName, returns_supplementaryGroups, returns_cpuAffinity⟩, fun recorded => ?_,
    fun mask => ?_⟩
  · exact ⟨pairwise_sortedIdentifiers recorded, fun _ => mem_sortedIdentifiers⟩
  · exact ⟨pairwise_processors mask, fun _ => mem_processors⟩

end Whole

end Syscape.Growing
