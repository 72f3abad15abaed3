import Syscape.ProcessWalk
import Syscape.StatLines
import Mathlib.Algebra.Order.BigOperators.Group.List

/-!
# Processes that exit during a walk

The kernel reports a process that is gone as `ENOENT` when its record is opened, and as
`ESRCH` when its open record is read. Both walkers skip the first error and fail with the
second one. As long as no process exits while its own record is open, no exit makes a
query fail, and every process that outlives the walk is counted exactly once.
-/
namespace Syscape.ProcessWalk
open Calls Checked Text Digits Numbers ProcessList Resource LinuxFile

section Kernel

/-- `ESRCH`. -/
def esrch : ℤ := 3

/-- How the record of a process answers while the process lives. -/
inductive Source where
  | refused (errno : ℤ)
  | broken (errno : ℤ) (h : errno ≠ eintr)
  | text (content : List UInt8)

/-- A process with its record in `/proc/<pid>/stat`. -/
structure Process where
  pid : ℕ
  pid_pos : 0 < pid
  pid_le : pid ≤ uint32Max
  stat : Source

/-- The entry of the process in `/proc`. -/
def Process.name (p : Process) : Path := decimal p.pid

def Process.statPath (p : Process) : Path := procPath p.name (ascii "stat")

/-- All processes of the machine, and the errors that opening or listing `/proc` may have. -/
structure Machine where
  processes : List Process
  distinct : (processes.map Process.pid).Nodup
  directoryErrors : List ℤ

/-- The file that is open. -/
inductive OpenFile where
  | stat (p : Process) (offset : ℕ)
  | other

/-- The processes that live, what the directory stream has still to list, the open file and
the number of signals that may yet interrupt a call. -/
structure World where
  alive : Finset ℕ
  unlisted : List Path
  file : Option OpenFile
  interrupts : ℕ

/-- The world before a query. -/
def World.start (alive : Finset ℕ) (interrupts : ℕ) : World := ⟨alive, [], none, interrupts⟩

/-- A directory stream has every living process and each name once; the names of other
entries are no numbers. -/
structure Machine.Lists (m : Machine) (names : List Path) (alive : Finset ℕ) : Prop where
  nodup : names.Nodup
  complete : ∀ p ∈ m.processes, p.pid ∈ alive → p.name ∈ names
  sound : ∀ name ∈ names, (∃ p ∈ m.processes, name = p.name) ∨ numericEntry name = false

variable (m : Machine)

/-- The answers of the kernel. -/
inductive Answers : World → (c : Call) → Answer c → World → Prop where
  | directory (w : World) (path : Path) (names : List Path) (h : m.Lists names w.alive) :
      Answers w (.opendir path) (.ok ()) { w with unlisted := names }
  | noDirectory (w : World) (path : Path) (errno : ℤ) (h : errno ∈ m.directoryErrors) :
      Answers w (.opendir path) (.error errno) w
  /-- Entries of processes that are gone may be left out. -/
  | entry (w : World) (skipped : List Path) (name : Path) (rest : List Path)
      (h : w.unlisted = skipped ++ name :: rest)
      (hgone : ∀ p ∈ m.processes, p.name ∈ skipped → p.pid ∉ w.alive) :
      Answers w .readdir (.ok (some name)) { w with unlisted := rest }
  | noEntry (w : World) (hgone : ∀ p ∈ m.processes, p.name ∈ w.unlisted → p.pid ∉ w.alive) :
      Answers w .readdir (.ok none) { w with unlisted := [] }
  | listingFails (w : World) (errno : ℤ) (h : errno ∈ m.directoryErrors) :
      Answers w .readdir (.error errno) w
  | statGone (w : World) (p : Process) (hp : p ∈ m.processes) (hgone : p.pid ∉ w.alive) :
      Answers w (.openFile p.statPath) (.error enoent) w
  | statRefused (w : World) (p : Process) (hp : p ∈ m.processes) (halive : p.pid ∈ w.alive)
      (errno : ℤ) (h : p.stat = .refused errno) :
      Answers w (.openFile p.statPath) (.error errno) w
  | statOpened (w : World) (p : Process) (hp : p ∈ m.processes) (halive : p.pid ∈ w.alive)
      (h : ∀ errno, p.stat ≠ .refused errno) :
      Answers w (.openFile p.statPath) (.ok ()) { w with file := some (.stat p 0) }
  | otherRefused (w : World) (path : Path) (h : ∀ p ∈ m.processes, path ≠ p.statPath)
      (errno : ℤ) : Answers w (.openFile path) (.error errno) w
  | otherOpened (w : World) (path : Path) (h : ∀ p ∈ m.processes, path ≠ p.statPath) :
      Answers w (.openFile path) (.ok ()) { w with file := some .other }
  | interrupted (w : World) (size n : ℕ) (hfile : w.file ≠ none) (h : w.interrupts = n + 1) :
      Answers w (.readFile size) (.error eintr) { w with interrupts := n }
  | exited (w : World) (size : ℕ) (p : Process) (offset : ℕ)
      (hfile : w.file = some (.stat p offset)) (hgone : p.pid ∉ w.alive) :
      Answers w (.readFile size) (.error esrch) w
  | statBroken (w : World) (size : ℕ) (p : Process) (offset : ℕ)
      (hfile : w.file = some (.stat p offset)) (halive : p.pid ∈ w.alive) (errno : ℤ)
      (herrno : errno ≠ eintr) (h : p.stat = .broken errno herrno) :
      Answers w (.readFile size) (.error errno) w
  /-- Some of the bytes that are left, at least one if there are any. -/
  | statRead (w : World) (size : ℕ) (p : Process) (offset : ℕ)
      (hfile : w.file = some (.stat p offset)) (halive : p.pid ∈ w.alive)
      (before chunk after : List UInt8) (h : p.stat = .text (before ++ chunk ++ after))
      (hoffset : before.length = offset) (hsize : chunk.length ≤ size)
      (hend : chunk = [] → after = []) :
      Answers w (.readFile size) (.ok chunk)
        { w with file := some (.stat p (offset + chunk.length)) }
  | otherFails (w : World) (size : ℕ) (hfile : w.file = some .other) (errno : ℤ)
      (h : errno ≠ eintr) : Answers w (.readFile size) (.error errno) w
  | otherRead (w : World) (size : ℕ) (hfile : w.file = some .other) (chunk : List UInt8)
      (h : chunk.length ≤ size) : Answers w (.readFile size) (.ok chunk) w
  | closed (w : World) : Answers w .closeFile () { w with file := none }
  | linkInterrupted (w : World) (path : Path) (size n : ℕ) (h : w.interrupts = n + 1) :
      Answers w (.readlink path size) (.error eintr) { w with interrupts := n }
  | linkFails (w : World) (path : Path) (size : ℕ) (errno : ℤ) (h : errno ≠ eintr) :
      Answers w (.readlink path size) (.error errno) w
  | link (w : World) (path : Path) (size : ℕ) (target : List UInt8) (h : target.length ≤ size) :
      Answers w (.readlink path size) (.ok target) w
  | user (w : World) (uid size : ℕ) (answer : Except ℤ (Option (List UInt8))) :
      Answers w (.getpwuid uid size) answer w

/-- The machine with the exits that are allowed in a state. -/
def system (allowed : World → ℕ → Prop) : System Call Answer World where
  interferes w w' := ∃ pid ∈ w.alive, allowed w pid ∧ w' = { w with alive := w.alive.erase pid }
  answers := Answers m

/-- A process may exit at any time. -/
def anyTime (_w : World) (_pid : ℕ) : Prop := True

/-- A process may exit at any time when its own record is not open. -/
def outsideRead (w : World) (pid : ℕ) : Prop :=
  ∀ p offset, w.file = some (.stat p offset) → p.pid ≠ pid

end Kernel

section Frames
variable {m : Machine} {allowed : World → ℕ → Prop} {w w' : World}

/-- What reading a file leaves of the world: the listing as it is, and some of the processes
and signals. -/
structure Later (w w' : World) : Prop where
  unlisted : w'.unlisted = w.unlisted
  alive : w'.alive ⊆ w.alive
  interrupts : w'.interrupts ≤ w.interrupts

theorem Later.refl (w : World) : Later w w := ⟨rfl, subset_rfl, le_rfl⟩

theorem Later.trans {w₁ w₂ w₃ : World} (h : Later w₁ w₂) (h' : Later w₂ w₃) : Later w₁ w₃ :=
  ⟨h'.unlisted.trans h.unlisted, h'.alive.trans h.alive, h'.interrupts.trans h.interrupts⟩

theorem later_of_interference (h : Interference (system m allowed) w w') :
    Later w w' ∧ w'.file = w.file := by
  induction h with
  | refl => exact ⟨Later.refl w, rfl⟩
  | tail _ hstep ih =>
    obtain ⟨pid, -, -, rfl⟩ := hstep
    exact ⟨⟨ih.1.unlisted, (Finset.erase_subset _ _).trans ih.1.alive, ih.1.interrupts⟩, ih.2⟩

/-- Exits after it do not change what has been reached. -/
theorem Later.interference {w₀ : World} {file : Option OpenFile} (hlater : Later w₀ w)
    (hfile : w.file = file) (h : Interference (system m allowed) w w') :
    Later w₀ w' ∧ w'.file = file := by
  obtain ⟨hnext, hsame⟩ := later_of_interference h
  exact ⟨hlater.trans hnext, hsame.trans hfile⟩

/-- What a turn of the walk keeps when the world changes after it. -/
theorem Later.turn {w₂ w₃ w₄ : World} (h : Later w₂ w₃) (hsub : w₂.alive ⊆ w.alive)
    (hless : w₂.unlisted.length < w.unlisted.length)
    (hw : Interference (system m allowed) w₃ w₄) :
    w₄.alive ⊆ w₃.alive ∧ w₄.alive ⊆ w.alive ∧ w₄.unlisted.length < w.unlisted.length := by
  obtain ⟨hlater, -⟩ := later_of_interference hw
  refine ⟨hlater.alive, (hlater.alive.trans h.alive).trans hsub, ?_⟩
  rwa [hlater.unlisted, h.unlisted]

/-- The process whose record is open does not exit. -/
theorem alive_of_interference (h : Interference (system m outsideRead) w w') {p : Process}
    {offset : ℕ} (hfile : w.file = some (.stat p offset)) (halive : p.pid ∈ w.alive) :
    p.pid ∈ w'.alive := by
  induction h with
  | refl => exact halive
  | tail hbefore hstep ih =>
    obtain ⟨pid, -, hallowed, rfl⟩ := hstep
    have hopen := (later_of_interference hbefore).2.trans hfile
    exact Finset.mem_erase.mpr ⟨hallowed p offset hopen, ih⟩

theorem wellFounded_interferes (m : Machine) (allowed : World → ℕ → Prop) :
    WellFounded fun w' w => (system m allowed).interferes w w' := by
  apply Subrelation.wf _ (measure fun w : World => w.alive.card).wf
  intro w' w h
  obtain ⟨pid, hpid, -, rfl⟩ := h
  exact Finset.card_erase_lt_of_mem hpid

end Frames

section Reading
variable {m : Machine} {w : World}

/-- What `read_text_file` returns for the record of a process that lives. -/
def Process.record (p : Process) (maximumSize : ℕ) : Result (List UInt8) :=
  match p.stat with
  | .refused errno => failErrno errno
  | .broken errno _ => failErrno errno
  | .text content => if content.length > maximumSize then fail .valueTooLarge else .ok content

/-- The part of a record that has been read, and where the descriptor stands. -/
structure ReadsRecord (p : Process) (maximumSize : ℕ) (start : World) (output : List UInt8)
    (w : World) : Prop where
  later : Later start w
  file : w.file = some (.stat p output.length)
  alive : p.pid ∈ w.alive
  length : output.length ≤ maximumSize
  stat : (∃ rest, p.stat = .text (output ++ rest)) ∨
    output = [] ∧ ∃ errno h, p.stat = .broken errno h

/-- Every answer brings the end of the file nearer, or uses up a signal. -/
def readMeasure (maximumSize : ℕ) (output : List UInt8) (w : World) : ℕ :=
  w.interrupts + (maximumSize + 1 - output.length)

theorem ReadsRecord.interference {p : Process} {maximumSize : ℕ} {start w w' : World}
    {output : List UInt8} (h : ReadsRecord p maximumSize start output w)
    (hw : Interference (system m outsideRead) w w') :
    ReadsRecord p maximumSize start output w' where
  later := h.later.trans (later_of_interference hw).1
  file := (later_of_interference hw).2.trans h.file
  alive := alive_of_interference hw h.file h.alive
  length := h.length
  stat := h.stat

/-- The answers to a read from the record of a process that lives. -/
theorem readRecord_answers {p : Process} {maximumSize size : ℕ} {start : World}
    {output : List UInt8} (h : ReadsRecord p maximumSize start output w) (hsize : 0 < size) :
    (∃ (r : Answer (.readFile size)) (w' : World), Answers m w (.readFile size) r w') ∧
    ∀ (r : Except ℤ (List UInt8)) w', Answers m w (.readFile size) r w' →
      (∃ n, w.interrupts = n + 1 ∧ r = .error eintr ∧ w' = { w with interrupts := n }) ∨
      (∃ errno, errno ≠ eintr ∧ (∃ h, p.stat = .broken errno h) ∧ r = .error errno ∧ w' = w) ∨
      ∃ chunk after, p.stat = .text (output ++ chunk ++ after) ∧ (chunk = [] → after = []) ∧
        r = .ok chunk ∧ w' = { w with file := some (.stat p (output.length + chunk.length)) } := by
  constructor
  · rcases h.stat with ⟨rest, hstat⟩ | ⟨hnil, errno, herrno, hstat⟩
    · refine ⟨_, _, .statRead w size p _ h.file h.alive output (rest.take size) (rest.drop size)
        ?_ rfl ?_ ?_⟩
      · rw [hstat, List.append_assoc, List.take_append_drop]
      · simp
      · intro hchunk
        rcases List.take_eq_nil_iff.mp hchunk with hzero | hrest
        · omega
        · rw [hrest, List.drop_nil]
    · exact ⟨_, _, .statBroken w size p _ h.file h.alive errno herrno hstat⟩
  · intro r w' hr
    cases hr with
    | interrupted _ n _ hn => exact .inl ⟨n, hn, rfl, rfl⟩
    | exited _ p' offset hfile hgone =>
      cases h.file.symm.trans hfile
      exact absurd h.alive hgone
    | statBroken _ p' offset hfile _ errno herrno hstat =>
      cases h.file.symm.trans hfile
      exact .inr (.inl ⟨errno, herrno, ⟨herrno, hstat⟩, rfl, rfl⟩)
    | statRead _ p' offset hfile _ before chunk after hstat hoffset _ hend =>
      cases h.file.symm.trans hfile
      have hbefore : before = output := by
        rcases h.stat with ⟨rest, hrest⟩ | ⟨hnil, errno, herrno, hbroken⟩
        · rw [hstat, Source.text.injEq, List.append_assoc] at hrest
          exact (List.append_inj hrest hoffset).1
        · rw [hnil] at hoffset ⊢
          exact List.length_eq_zero_iff.mp hoffset
      exact .inr (.inr ⟨chunk, after, by rw [← hbefore, hstat], hend, rfl, rfl⟩)
    | otherFails _ hfile => cases h.file.symm.trans hfile
    | otherRead _ hfile => cases h.file.symm.trans hfile

theorem readMeasure_le {maximumSize : ℕ} {output : List UInt8} {w w' : World}
    (h : Later w w') : readMeasure maximumSize output w' ≤ readMeasure maximumSize output w :=
  Nat.add_le_add_right h.interrupts _

/-- The loop of `read_text_file` over the record of a process that lives. -/
theorem ensures_readRecord {p : Process} {maximumSize : ℕ} {start : World}
    (h : ReadsRecord p maximumSize start [] w) :
    Ensures (system m outsideRead) (iterate (readChunk maximumSize) [])
      (fun content w' => Later start w' ∧ content = p.record maximumSize) w := by
  apply ensures_iterate (ReadsRecord p maximumSize start) (readMeasure maximumSize) h
  · intro output w w' hw hstep
    exact ⟨hw.interference (.single hstep),
      readMeasure_le (later_of_interference (.single hstep)).1⟩
  · intro output w hw
    rw [readChunk, readFile]
    apply ensures_invoke
    intro w₁ hw₁
    have hreads := hw.interference hw₁
    obtain ⟨hprogress, hcases⟩ := readRecord_answers (m := m) hreads (show 0 < 4096 by decide)
    refine ⟨hprogress, fun r w₂ hr => ?_⟩
    have hlength := hreads.length
    have hsignals := (later_of_interference hw₁).1.interrupts
    rcases hcases r w₂ hr with ⟨n, hn, rfl, rfl⟩ | ⟨errno, herrno, ⟨_, hstat⟩, rfl, rfl⟩ |
      ⟨chunk, after, hstat, hend, rfl, rfl⟩
    · -- a signal: the call is made again
      refine ensures_pure fun w₃ hw₃ => ⟨?_, ?_⟩
      · have hagain : ReadsRecord p maximumSize start output { w₁ with interrupts := n } :=
          ⟨hreads.later.trans ⟨rfl, subset_rfl, by simp [hn]⟩, hreads.file, hreads.alive,
            hreads.length, hreads.stat⟩
        exact hagain.interference hw₃
      · have := (later_of_interference hw₃).1.interrupts
        simp only [readMeasure] at this ⊢
        omega
    · dsimp only
      rw [if_pos herrno]
      refine ensures_pure fun w₃ hw₃ => ⟨?_, ?_⟩
      · exact hreads.later.trans (later_of_interference hw₃).1
      · rw [Process.record, hstat]
    · dsimp only
      have hlater : Later start
          { w₁ with file := some (.stat p (output.length + chunk.length)) } :=
        hreads.later.trans ⟨rfl, subset_rfl, le_rfl⟩
      split_ifs with hnil hlarge
      · refine ensures_pure fun w₃ hw₃ => ⟨hlater.trans (later_of_interference hw₃).1, ?_⟩
        rw [hnil, hend hnil, List.append_nil, List.append_nil] at hstat
        rw [Process.record, hstat]
        exact (if_neg (by omega)).symm
      · refine ensures_pure fun w₃ hw₃ => ⟨hlater.trans (later_of_interference hw₃).1, ?_⟩
        rw [Process.record, hstat]
        simp only [List.length_append]
        exact (if_pos (by omega)).symm
      · refine ensures_pure fun w₃ hw₃ => ⟨?_, ?_⟩
        · have hmore : ReadsRecord p maximumSize start (output ++ chunk)
              { w₁ with file := some (.stat p (output.length + chunk.length)) } :=
            ⟨hlater, by rw [List.length_append], hreads.alive,
              by rw [List.length_append]; omega, .inl ⟨after, hstat⟩⟩
          exact hmore.interference hw₃
        · have hsignals₃ := (later_of_interference hw₃).1.interrupts
          have hchunk := List.length_pos_iff.mpr hnil
          simp only [readMeasure, List.length_append] at hsignals₃ ⊢
          omega
  · intro content w w' hw hstep
    exact ⟨hw.1.trans (later_of_interference (.single hstep)).1, hw.2⟩

/-- The loop of `read_text_file` over any other file. -/
theorem ensures_readOther {maximumSize : ℕ} (h : w.file = some .other) :
    Ensures (system m outsideRead) (iterate (readChunk maximumSize) [])
      (fun _ w' => Later w w') w := by
  apply ensures_iterate
    (fun output w' => Later w w' ∧ w'.file = some .other ∧ output.length ≤ maximumSize)
    (readMeasure maximumSize) ⟨Later.refl w, h, Nat.zero_le _⟩
  · intro output w₁ w₂ ⟨hlater, hfile, hlength⟩ hstep
    obtain ⟨hnext, hsame⟩ := later_of_interference (.single hstep)
    exact ⟨⟨hlater.trans hnext, hsame.trans hfile, hlength⟩, readMeasure_le hnext⟩
  · intro output w₁ ⟨hlater, hfile, hlength⟩
    rw [readChunk, readFile]
    apply ensures_invoke
    intro w₂ hw₂
    obtain ⟨hnext, hsame⟩ := later_of_interference hw₂
    rw [hfile] at hsame
    refine ⟨⟨_, _, .otherRead w₂ 4096 hsame [] (by simp)⟩, fun r w₃ hr => ?_⟩
    have hlater₂ := hlater.trans hnext
    have hsignals := hnext.interrupts
    cases hr with
    | interrupted _ n _ hn =>
      refine ensures_pure fun w₄ hw₄ => ?_
      obtain ⟨hlater₄, hsame₄⟩ := later_of_interference hw₄
      have := hlater₄.interrupts
      refine ⟨⟨hlater₂.trans ⟨hlater₄.unlisted, hlater₄.alive, ?_⟩, hsame₄.trans hsame, hlength⟩,
        ?_⟩
      · simp only at this
        omega
      · simp only [readMeasure] at this ⊢
        omega
    | exited _ p offset hstat => cases hsame.symm.trans hstat
    | statBroken _ p offset hstat => cases hsame.symm.trans hstat
    | statRead _ p offset hstat => cases hsame.symm.trans hstat
    | otherFails _ _ errno herrno =>
      dsimp only
      rw [if_pos herrno]
      exact ensures_pure fun w₄ hw₄ => hlater₂.trans (later_of_interference hw₄).1
    | otherRead _ _ chunk _ =>
      dsimp only
      split_ifs with hnil hlarge
      · exact ensures_pure fun w₄ hw₄ => hlater₂.trans (later_of_interference hw₄).1
      · exact ensures_pure fun w₄ hw₄ => hlater₂.trans (later_of_interference hw₄).1
      · refine ensures_pure fun w₄ hw₄ => ?_
        obtain ⟨hlater₄, hsame₄⟩ := later_of_interference hw₄
        have := hlater₄.interrupts
        have := List.length_pos_iff.mpr hnil
        refine ⟨⟨hlater₂.trans hlater₄, hsame₄.trans hsame, ?_⟩, ?_⟩
        · rw [List.length_append]
          omega
        · simp only [readMeasure, List.length_append]
          omega
  · intro content w₁ w₂ hw hstep
    exact hw.trans (later_of_interference (.single hstep)).1

/-- Closing the file and returning what has been read. -/
theorem ensures_close {content : Result (List UInt8)} {post : Result (List UInt8) → World → Prop}
    (h : ∀ w', Later w w' → w'.file = none → post content w') :
    Ensures (system m outsideRead) (closeFile >>= fun _ => pure content) post w := by
  rw [closeFile]
  apply ensures_invoke
  intro w₁ hw₁
  refine ⟨⟨_, _, .closed w₁⟩, fun r w₂ hr => ?_⟩
  cases hr
  refine ensures_pure fun w₃ hw₃ => ?_
  obtain ⟨hlater, hfile⟩ := later_of_interference hw₃
  have hclosed : Later w₁ { w₁ with file := none } := ⟨rfl, subset_rfl, le_rfl⟩
  exact h w₃ ((later_of_interference hw₁).1.trans (hclosed.trans hlater)) hfile

theorem name_injective {p p' : Process} (h : p.name = p'.name) : p.pid = p'.pid := by
  have hp := wholeUnsigned_decimal p.pid_le
  have hp' := wholeUnsigned_decimal p'.pid_le
  rw [Process.name, Process.name] at h
  rw [h, hp'] at hp
  exact (Except.ok.inj hp).symm

/-- A process is known by its entry. -/
theorem Machine.eq_of_name (m : Machine) {p p' : Process} (hp : p ∈ m.processes)
    (hp' : p' ∈ m.processes) (h : p.name = p'.name) : p = p' :=
  List.inj_on_of_nodup_map m.distinct hp hp' (name_injective h)

theorem Machine.eq_of_statPath (m : Machine) {p p' : Process} (hp : p ∈ m.processes)
    (hp' : p' ∈ m.processes) (h : p.statPath = p'.statPath) : p = p' := by
  apply m.eq_of_name hp hp'
  rw [Process.statPath, Process.statPath, procPath, procPath] at h
  exact List.append_cancel_left (List.append_cancel_right (List.append_cancel_right h))

/-- What reading a file leaves behind, and what it returns when the file is the record of a
process: the record, or `ENOENT` if the process is gone. -/
structure ReadsFile (m : Machine) (path : Path) (maximumSize : ℕ) (w : World)
    (content : Result (List UInt8)) (w' : World) : Prop where
  later : Later w w'
  closed : w'.file = none
  stat : ∀ p ∈ m.processes, path = p.statPath →
    content = p.record maximumSize ∨ content = failErrno enoent ∧ p.pid ∉ w'.alive

/-- There is an answer to every attempt to open a file. -/
theorem exists_open_answer (m : Machine) (w : World) (path : Path) :
    ∃ (r : Answer (.openFile path)) (w' : World), Answers m w (.openFile path) r w' := by
  by_cases hpath : ∃ p ∈ m.processes, path = p.statPath
  · obtain ⟨p, hp, rfl⟩ := hpath
    by_cases halive : p.pid ∈ w.alive
    · cases hstat : p.stat with
      | refused errno => exact ⟨_, _, .statRefused w p hp halive errno hstat⟩
      | broken errno herrno => exact ⟨_, _, .statOpened w p hp halive (by simp [hstat])⟩
      | text content => exact ⟨_, _, .statOpened w p hp halive (by simp [hstat])⟩
    · exact ⟨_, _, .statGone w p hp halive⟩
  · push Not at hpath
    exact ⟨_, _, .otherOpened w path hpath⟩

/-- `read_text_file`. -/
theorem ensures_readTextFile (path : Path) (maximumSize : ℕ) (h : w.file = none) :
    Ensures (system m outsideRead) (readTextFile path maximumSize)
      (ReadsFile m path maximumSize w) w := by
  rw [readTextFile, openFile]
  apply ensures_invoke
  intro w₁ hw₁
  obtain ⟨hlater, hfile⟩ := later_of_interference hw₁
  rw [h] at hfile
  refine ⟨exists_open_answer m w₁ path, fun r w₂ hr => ?_⟩
  cases hr with
  | statGone p hp hgone =>
    refine ensures_pure fun w₃ hw₃ => ?_
    obtain ⟨hlater₃, hfile₃⟩ := later_of_interference hw₃
    refine ⟨hlater.trans hlater₃, hfile₃.trans hfile, fun p' hp' hpath => .inr ⟨rfl, ?_⟩⟩
    cases m.eq_of_statPath hp hp' hpath
    exact fun halive => hgone (hlater₃.alive halive)
  | statRefused p hp _ errno hstat =>
    refine ensures_pure fun w₃ hw₃ => ?_
    obtain ⟨hlater₃, hfile₃⟩ := later_of_interference hw₃
    refine ⟨hlater.trans hlater₃, hfile₃.trans hfile, fun p' hp' hpath => .inl ?_⟩
    cases m.eq_of_statPath hp hp' hpath
    rw [Process.record, hstat]
  | statOpened p hp halive hstat =>
    have hopened : ReadsRecord p maximumSize w [] { w₁ with file := some (.stat p 0) } := by
      refine ⟨hlater.trans ⟨rfl, subset_rfl, le_rfl⟩, rfl, halive, Nat.zero_le _, ?_⟩
      cases hsource : p.stat with
      | refused errno => exact absurd hsource (hstat errno)
      | broken errno herrno => exact .inr ⟨rfl, errno, herrno, rfl⟩
      | text content => exact .inl ⟨content, rfl⟩
    apply ensures_bind
    apply (ensures_readRecord hopened).mono
    intro content w₃ ⟨hlater₃, hcontent⟩
    apply ensures_close
    intro w₄ hlater₄ hfile₄
    refine ⟨hlater₃.trans hlater₄, hfile₄, fun p' hp' hpath => .inl ?_⟩
    cases m.eq_of_statPath hp hp' hpath
    exact hcontent
  | otherRefused _ hpath errno =>
    refine ensures_pure fun w₃ hw₃ => ?_
    obtain ⟨hlater₃, hfile₃⟩ := later_of_interference hw₃
    exact ⟨hlater.trans hlater₃, hfile₃.trans hfile, fun p' hp' heq => absurd heq (hpath p' hp')⟩
  | otherOpened _ hpath =>
    apply ensures_bind
    apply (ensures_readOther (w := { w₁ with file := some .other }) rfl).mono
    intro content w₃ hlater₃
    apply ensures_close
    intro w₄ hlater₄ hfile₄
    have hopened : Later w₁ { w₁ with file := some .other } := ⟨rfl, subset_rfl, le_rfl⟩
    exact ⟨hlater.trans (hopened.trans (hlater₃.trans hlater₄)), hfile₄,
      fun p' hp' heq => absurd heq (hpath p' hp')⟩

end Reading

section Listing
variable {m : Machine} {w : World} {seen : List Process}

theorem numericEntry_name (p : Process) : numericEntry p.name = true := by
  simp only [numericEntry, decide_eq_true_eq]
  exact ⟨decimal_ne_nil _, fun c hc => mem_decimal hc⟩

theorem pidOf_name (p : Process) : pidOf p.name = some p.pid := by
  have hnumber : numberOf 10 uint32Max p.name = some p.pid :=
    numberOf_numeral (Numerals.numeral_decimal p.pid) p.pid_le
  have hpos := p.pid_pos
  rw [pidOf, if_neg, hnumber, Option.filter_some, if_pos (by simpa using hpos.ne')]
  intro hhead
  obtain ⟨c, rest, hname⟩ := List.exists_cons_of_ne_nil (decimal_ne_nil p.pid)
  have hc : 0x30 ≤ c.toNat ∧ c.toNat ≤ 0x39 := mem_decimal (n := p.pid) (by rw [hname]; simp)
  have hbyte := hhead c (by rw [Process.name, hname]; rfl)
  rw [UInt8.lt_iff_toNat_lt, UInt8.lt_iff_toNat_lt] at hbyte
  simp at hbyte
  omega

/-- Only the names that one walker visits are numbers for the other one. -/
theorem pidOf_eq_none {name : Path} (h : numericEntry name = false) : pidOf name = none := by
  rw [pidOf]
  split_ifs with hhead
  · rfl
  · cases hnumber : numberOf 10 uint32Max name with
    | none => rfl
    | some n =>
      obtain ⟨hnumeral, -⟩ := numberOf_eq_some hnumber
      simp only [numericEntry, decide_eq_false_iff_not] at h
      exact absurd ⟨hnumeral.ne_nil, fun c hc => FromChars.digit_lt_ten (hnumeral.digits c hc)⟩ h

/-- The processes that the walk has come to, and what the directory stream has still to
list: together all processes that live, each of them once. -/
structure Covers (m : Machine) (seen : List Process) (w : World) : Prop where
  closed : w.file = none
  nodup : w.unlisted.Nodup
  sound : ∀ name ∈ w.unlisted, (∃ p ∈ m.processes, name = p.name) ∨ numericEntry name = false
  seen_nodup : seen.Nodup
  seen_mem : ∀ p ∈ seen, p ∈ m.processes ∧ p.name ∉ w.unlisted
  complete : ∀ p ∈ m.processes, p.pid ∈ w.alive → p.name ∈ w.unlisted ∨ p ∈ seen

theorem Covers.later {w' : World} (h : Covers m seen w) (hw : Later w w')
    (hfile : w'.file = none) : Covers m seen w' where
  closed := hfile
  nodup := hw.unlisted ▸ h.nodup
  sound := hw.unlisted ▸ h.sound
  seen_nodup := h.seen_nodup
  seen_mem := hw.unlisted ▸ h.seen_mem
  complete p hp halive := hw.unlisted ▸ h.complete p hp (hw.alive halive)

theorem Covers.interference {allowed : World → ℕ → Prop} {w' : World} (h : Covers m seen w)
    (hw : Interference (system m allowed) w w') : Covers m seen w' :=
  h.later (later_of_interference hw).1 ((later_of_interference hw).2.trans h.closed)

/-- The stream of a directory that has just been opened. -/
theorem covers_nil {names : List Path} (hfile : w.file = none) (h : m.Lists names w.alive) :
    Covers m [] { w with unlisted := names } where
  closed := hfile
  nodup := h.nodup
  sound := h.sound
  seen_nodup := .nil
  seen_mem := by simp
  complete p hp halive := .inl (h.complete p hp halive)

/-- There is always a stream to be opened. -/
theorem exists_lists (m : Machine) (alive : Finset ℕ) : ∃ names, m.Lists names alive := by
  refine ⟨m.processes.map Process.name, ?_, ?_, ?_⟩
  · have hpids := m.distinct
    rw [List.Nodup, List.pairwise_map] at hpids ⊢
    exact hpids.imp fun hne hname => hne (name_injective hname)
  · exact fun p hp _ => List.mem_map_of_mem hp
  · intro name hname
    obtain ⟨p, hp, rfl⟩ := List.mem_map.mp hname
    exact .inl ⟨p, hp, rfl⟩

/-- What `readdir` delivers: an error, the end, an entry that is no process or one process
more. -/
theorem readdir_answers (h : Covers m seen w) :
    (∃ (r : Answer .readdir) (w' : World), Answers m w .readdir r w') ∧
    ∀ (r : Except ℤ (Option Path)) w', Answers m w .readdir r w' →
      (∃ errno ∈ m.directoryErrors, r = .error errno ∧ w' = w) ∨
      (r = .ok none ∧ w'.alive = w.alive ∧ ∀ p ∈ m.processes, p.pid ∈ w.alive → p ∈ seen) ∨
      ∃ name, r = .ok (some name) ∧ w'.alive = w.alive ∧
        w'.unlisted.length < w.unlisted.length ∧
        (numericEntry name = false ∧ Covers m seen w' ∨
          ∃ p ∈ m.processes, name = p.name ∧ Covers m (p :: seen) w') := by
  constructor
  · cases hunlisted : w.unlisted with
    | nil => exact ⟨_, _, .noEntry w (by simp [hunlisted])⟩
    | cons name rest => exact ⟨_, _, .entry w [] name rest hunlisted (by simp)⟩
  · intro r w' hr
    cases hr with
    | listingFails errno herrno => exact .inl ⟨errno, herrno, rfl, rfl⟩
    | noEntry hgone =>
      refine .inr (.inl ⟨rfl, rfl, fun p hp halive => ?_⟩)
      exact (h.complete p hp halive).resolve_left fun hname => hgone p hp hname halive
    | entry skipped name rest hunlisted hgone =>
      have hnodup := h.nodup
      rw [hunlisted, List.nodup_append] at hnodup
      obtain ⟨-, hrest, -⟩ := hnodup
      have hsub : ∀ n, n ∈ rest → n ∈ w.unlisted := fun n hn => by simp [hunlisted, hn]
      have hname : name ∈ w.unlisted := by simp [hunlisted]
      refine .inr (.inr ⟨name, rfl, rfl, by simp [hunlisted]; omega, ?_⟩)
      -- a process whose entry is left out is gone
      have hcomplete : ∀ p ∈ m.processes, p.pid ∈ w.alive →
          p.name ∈ rest ∨ p.name = name ∨ p ∈ seen := by
        intro p hp halive
        rcases h.complete p hp halive with hlisted | hseen
        · rw [hunlisted, List.mem_append, List.mem_cons] at hlisted
          rcases hlisted with hskipped | heq | hlisted
          · exact absurd halive (hgone p hp hskipped)
          · exact .inr (.inl heq)
          · exact .inl hlisted
        · exact .inr (.inr hseen)
      have hsound : ∀ n ∈ rest, (∃ p ∈ m.processes, n = p.name) ∨ numericEntry n = false :=
        fun n hn => h.sound n (hsub n hn)
      rcases h.sound name hname with ⟨p, hp, rfl⟩ | hother
      · refine .inr ⟨p, hp, rfl, h.closed, hrest.of_cons, hsound, ?_, ?_, ?_⟩
        · exact List.nodup_cons.mpr ⟨fun hseen => (h.seen_mem p hseen).2 hname, h.seen_nodup⟩
        · intro q hq
          rcases List.mem_cons.mp hq with rfl | hq
          · exact ⟨hp, (List.nodup_cons.mp hrest).1⟩
          · exact ⟨(h.seen_mem q hq).1, fun hlisted => (h.seen_mem q hq).2 (hsub _ hlisted)⟩
        · intro q hq halive
          rcases hcomplete q hq halive with hlisted | heq | hseen
          · exact .inl hlisted
          · exact .inr (by rw [m.eq_of_name hq hp heq]; simp)
          · exact .inr (List.mem_cons_of_mem p hseen)
      · refine .inl ⟨hother, h.closed, hrest.of_cons, hsound, h.seen_nodup, ?_, ?_⟩
        · exact fun q hq => ⟨(h.seen_mem q hq).1, fun hlisted => (h.seen_mem q hq).2 (hsub _ hlisted)⟩
        · intro q hq halive
          rcases hcomplete q hq halive with hlisted | rfl | hseen
          · exact .inl hlisted
          · rw [numericEntry_name] at hother
            cases hother
          · exact .inr hseen

/-- The rule of `opendir`. -/
theorem ensures_opendir {α : Type} {path : Path} {next : Except ℤ Unit → Query α}
    {post : α → World → Prop} (h : w.file = none)
    (hfails : ∀ errno ∈ m.directoryErrors, ∀ w',
      Ensures (system m outsideRead) (next (.error errno)) post w')
    (hopened : ∀ w', Covers m [] w' → Ensures (system m outsideRead) (next (.ok ())) post w') :
    Ensures (system m outsideRead) (opendir path >>= next) post w := by
  rw [opendir]
  apply ensures_invoke
  intro w₁ hw₁
  have hfile := (later_of_interference hw₁).2.trans h
  obtain ⟨names, hnames⟩ := exists_lists m w₁.alive
  refine ⟨⟨_, _, .directory w₁ _ names hnames⟩, fun r w₂ hr => ?_⟩
  cases hr with
  | noDirectory _ errno herrno => exact hfails errno herrno w₁
  | directory _ names hlists => exact hopened _ (covers_nil hfile hlists)

/-- The rule of `readdir`, with one premise for each kind of answer. -/
theorem ensures_readdir {α : Type} {next : Except ℤ (Option Path) → Query α}
    {post : α → World → Prop} (h : Covers m seen w)
    (hfails : ∀ errno ∈ m.directoryErrors, ∀ w',
      Ensures (system m outsideRead) (next (.error errno)) post w')
    (hend : ∀ w', w'.alive ⊆ w.alive → (∀ p ∈ m.processes, p.pid ∈ w'.alive → p ∈ seen) →
      Ensures (system m outsideRead) (next (.ok none)) post w')
    (hother : ∀ name w', w'.alive ⊆ w.alive → w'.unlisted.length < w.unlisted.length →
      numericEntry name = false → Covers m seen w' →
        Ensures (system m outsideRead) (next (.ok (some name))) post w')
    (hprocess : ∀ p ∈ m.processes, ∀ w', w'.alive ⊆ w.alive →
      w'.unlisted.length < w.unlisted.length → Covers m (p :: seen) w' →
        Ensures (system m outsideRead) (next (.ok (some p.name))) post w') :
    Ensures (system m outsideRead) (readdir >>= next) post w := by
  rw [readdir]
  apply ensures_invoke
  intro w₁ hw₁
  have hlater := (later_of_interference hw₁).1
  obtain ⟨hprogress, hcases⟩ := readdir_answers (h.interference hw₁)
  refine ⟨hprogress, fun r w₂ hr => ?_⟩
  rcases hcases r w₂ hr with ⟨errno, herrno, rfl, rfl⟩ | ⟨rfl, halive, hall⟩ |
    ⟨name, rfl, halive, hless, hentry⟩
  · exact hfails errno herrno _
  · exact hend w₂ (halive ▸ hlater.alive) fun p hp hp' => hall p hp (halive ▸ hp')
  · have hsub : w₂.alive ⊆ w.alive := halive ▸ hlater.alive
    rw [hlater.unlisted] at hless
    rcases hentry with ⟨hnumeric, hcovers⟩ | ⟨p, hp, rfl, hcovers⟩
    · exact hother name w₂ hsub hless hnumeric hcovers
    · exact hprocess p hp w₂ hsub hless hcovers

/-- The rule of a loop over the entries of a directory. -/
theorem ensures_walk {σ ρ : Type} {step : σ → Query (σ ⊕ ρ)} {s : σ} {inv : σ → World → Prop}
    {post : ρ → World → Prop} (hinv : inv s w)
    (hlater : ∀ s w w', inv s w → Later w w' → w'.file = w.file → inv s w')
    (hpost : ∀ r w w', post r w → w'.alive ⊆ w.alive → post r w')
    (hstep : ∀ s w, inv s w → Ensures (system m outsideRead) (step s)
      (BodyPost inv (fun _ w => w.unlisted.length) w.unlisted.length post) w) :
    Ensures (system m outsideRead) (iterate step s) post w := by
  apply ensures_iterate inv (fun _ w => w.unlisted.length) hinv
  · intro s w w' hs hinterferes
    obtain ⟨hw, hfile⟩ := later_of_interference (.single hinterferes)
    exact ⟨hlater s w w' hs hw hfile, (congrArg List.length hw.unlisted).le⟩
  · exact hstep
  · intro r w w' hr hinterferes
    exact hpost r w w' hr (later_of_interference (.single hinterferes)).1.alive

/-- The rule of reading the record of a process: the process is gone, or the record is read as
it is. -/
theorem ensures_readStat {α : Type} {p : Process} {next : Result (List UInt8) → Query α}
    {post : α → World → Prop} (hp : p ∈ m.processes) (h : w.file = none)
    (hgone : ∀ w', Later w w' → w'.file = none → p.pid ∉ w'.alive →
      Ensures (system m outsideRead) (next (failErrno enoent)) post w')
    (hrecord : ∀ w', Later w w' → w'.file = none →
      Ensures (system m outsideRead) (next (p.record defaultMaximumSize)) post w') :
    Ensures (system m outsideRead)
      (readTextFile p.statPath defaultMaximumSize >>= next) post w := by
  apply ensures_bind
  apply (ensures_readTextFile p.statPath defaultMaximumSize h).mono
  intro content w₁ hread
  rcases hread.stat p hp rfl with rfl | ⟨rfl, hnot⟩
  · exact hrecord w₁ hread.later hread.closed
  · exact hgone w₁ hread.later hread.closed hnot

end Listing

section Threads
variable {m : Machine} {w : World}

/-- The threads of a process whose record can be read and parsed. -/
def Process.threads (p : Process) : Option ℕ :=
  match p.record defaultMaximumSize with
  | .ok content =>
    if content = [] then none
    else
      match parseThreadCount content with
      | .ok threads => some threads
      | .error _ => none
  | .error _ => none

def threadSum (processes : List Process) : ℕ :=
  (processes.map fun p => p.threads.getD 0).sum

/-- The failures of `thread_count` that no exit causes: `/proc` cannot be listed, the record
of a process cannot be read or parsed while the process lives, or the counters overflow. -/
def ThreadFault (m : Machine) (f : Fault ErrorCode) : Prop :=
  (∃ errno ∈ m.directoryErrors, f = .fail (.generic errno)) ∨
  (∃ p ∈ m.processes, p.record defaultMaximumSize = .error f ∨
    ∃ content, p.record defaultMaximumSize = .ok content ∧ parseThreadCount content = .error f) ∨
  f = .fail (.syscape .valueTooLarge) ∧
    (uint64Max ≤ m.processes.length ∨ uint64Max < threadSum m.processes)

/-- No exit makes `thread_count` fail, and its result is the sum over processes with a
readable record, each taken once, among them all that still live. -/
def CountsSurvivors (m : Machine) (result : Result ℕ) (w : World) : Prop :=
  match result with
  | .error f => ThreadFault m f
  | .ok total => ∃ counted : List Process, counted.Nodup ∧
      (∀ p ∈ counted, p ∈ m.processes ∧ p.threads ≠ none) ∧
      (∀ p ∈ m.processes, p.pid ∈ w.alive → p.threads ≠ none → p ∈ counted) ∧
      total = threadSum counted

/-- The total and the flag say what the sum over the counted processes is. -/
def ThreadTotal.Holds (s : ThreadTotal) (counted : List Process) : Prop :=
  if s.overflowed then uint64Max < threadSum counted
  else s.totalThreads = threadSum counted ∧ threadSum counted ≤ uint64Max

/-- The state of the walk: some of the processes that it has come to are counted, all that
live and have a readable record among them. -/
structure Counts (m : Machine) (seen counted : List Process) (s : ThreadTotal) (w : World) :
    Prop where
  covers : Covers m seen w
  nodup : counted.Nodup
  mem : ∀ p ∈ counted, p ∈ seen ∧ p.threads ≠ none
  complete : ∀ p ∈ seen, p.pid ∈ w.alive → p.threads ≠ none → p ∈ counted
  total : s.Holds counted

theorem Counts.later {seen counted : List Process} {s : ThreadTotal} {w' : World}
    (h : Counts m seen counted s w) (hw : Later w w') (hfile : w'.file = none) :
    Counts m seen counted s w' where
  covers := h.covers.later hw hfile
  nodup := h.nodup
  mem := h.mem
  complete p hp halive := h.complete p hp (hw.alive halive)
  total := h.total

/-- What `addThreads` makes of the record of a process. -/
theorem addThreads_record {p : Process} {content : List UInt8} (s : ThreadTotal)
    (h : p.record defaultMaximumSize = .ok content) :
    (addThreads s content = .ok s ∧ p.threads = none) ∨
    (∃ f, addThreads s content = .error f ∧ parseThreadCount content = .error f) ∨
    ∃ threads, p.threads = some threads ∧ addThreads s content =
      .ok (if s.totalThreads > uint64Max - threads then { s with overflowed := true }
        else { s with totalThreads := s.totalThreads + threads }) := by
  by_cases hnil : content = []
  · refine .inl ⟨by rw [addThreads, if_pos hnil], ?_⟩
    simp [Process.threads, h, hnil]
  · right
    cases hparse : parseThreadCount content with
    | error f => exact .inl ⟨f, by simp [addThreads, hnil, hparse], rfl⟩
    | ok threads =>
      refine .inr ⟨threads, by simp [Process.threads, h, hnil, hparse], ?_⟩
      simp only [addThreads, if_neg hnil, hparse, ok_bind]
      split_ifs <;> rfl

theorem Process.threads_le {p : Process} {threads : ℕ} (h : p.threads = some threads) :
    threads ≤ uint64Max := by
  unfold Process.threads at h
  cases hrecord : p.record defaultMaximumSize with
  | error f => simp [hrecord] at h
  | ok content =>
    simp only [hrecord] at h
    split_ifs at h with hnil
    cases hparse : parseThreadCount content with
    | error f => simp [hparse] at h
    | ok n =>
      simp only [hparse, Option.some.injEq] at h
      subst h
      obtain ⟨_, _, -, hfield⟩ := StatLine.parseThreadCount_eq_ok hparse
      exact le_of_wholeUnsigned hfield

/-- Counting one process more. -/
theorem ThreadTotal.Holds.cons {s : ThreadTotal} {counted : List Process} {p : Process}
    {threads : ℕ} (h : s.Holds counted) (hp : p.threads = some threads) :
    ThreadTotal.Holds (if s.totalThreads > uint64Max - threads then { s with overflowed := true }
      else { s with totalThreads := s.totalThreads + threads }) (p :: counted) := by
  have hsum : threadSum (p :: counted) = threads + threadSum counted := by
    simp [threadSum, hp]
  have hle := p.threads_le hp
  unfold ThreadTotal.Holds at h ⊢
  rw [hsum]
  by_cases hlarge : s.totalThreads > uint64Max - threads
  · rw [if_pos hlarge]
    simp only [if_true]
    split_ifs at h <;> omega
  · rw [if_neg hlarge]
    simp only
    split_ifs at h ⊢ <;> omega

/-- The walk comes to processes that add no threads. -/
theorem Counts.skip {seen seen' counted : List Process} {s : ThreadTotal} {w' : World}
    (h : Counts m seen counted s w) (hcovers : Covers m seen' w') (halive : w'.alive ⊆ w.alive)
    (hseen : ∀ p ∈ seen, p ∈ seen')
    (hnew : ∀ p ∈ seen', p ∉ seen → p.pid ∈ w'.alive → p.threads = none) :
    Counts m seen' counted s w' where
  covers := hcovers
  nodup := h.nodup
  mem p hp := ⟨hseen p (h.mem p hp).1, (h.mem p hp).2⟩
  complete p hp hp' hthreads := by
    by_cases hold : p ∈ seen
    · exact h.complete p hold (halive hp') hthreads
    · exact absurd (hnew p hp hold hp') hthreads
  total := h.total

/-- The walk comes to a process with threads. -/
theorem Counts.add {seen counted : List Process} {s : ThreadTotal} {p : Process} {threads : ℕ}
    {w' : World} (h : Counts m seen counted s w) (hcovers : Covers m (p :: seen) w')
    (halive : w'.alive ⊆ w.alive) (hthreads : p.threads = some threads) :
    Counts m (p :: seen) (p :: counted)
      (if s.totalThreads > uint64Max - threads then { s with overflowed := true }
        else { s with totalThreads := s.totalThreads + threads }) w' where
  covers := hcovers
  nodup := List.nodup_cons.mpr
    ⟨fun hmem => (List.nodup_cons.mp hcovers.seen_nodup).1 (h.mem p hmem).1, h.nodup⟩
  mem q hq := by
    rcases List.mem_cons.mp hq with rfl | hq
    · exact ⟨by simp, by simp [hthreads]⟩
    · exact ⟨List.mem_cons_of_mem p (h.mem q hq).1, (h.mem q hq).2⟩
  complete q hq hq' hreadable := by
    rcases List.mem_cons.mp hq with rfl | hq
    · simp
    · exact List.mem_cons_of_mem p (h.complete q hq (halive hq') hreadable)
  total := h.total.cons hthreads

/-- The visitor leaves the total as it is, fails by itself, or adds the threads. -/
theorem ensures_visitThreads {p : Process} (hp : p ∈ m.processes) (s : ThreadTotal)
    (h : w.file = none) :
    Ensures (system m outsideRead) (visitThreads s p.name) (fun r w' =>
      (Later w w' ∧ w'.file = none) ∧
      ((r = .ok s ∧ (p.threads = none ∨ p.pid ∉ w'.alive)) ∨
        (∃ f, r = .error f ∧ ThreadFault m f) ∨
        ∃ threads, p.threads = some threads ∧
          r = .ok (if s.totalThreads > uint64Max - threads then { s with overflowed := true }
            else { s with totalThreads := s.totalThreads + threads }))) w := by
  apply ensures_readStat hp h
  · intro w₁ hlater hfile hgone
    refine ensures_pure fun w₂ hw₂ => ?_
    obtain ⟨hlater₂, hfile₂⟩ := later_of_interference hw₂
    refine ⟨⟨hlater.trans hlater₂, hfile₂.trans hfile⟩, .inl ⟨rfl, .inr fun halive => ?_⟩⟩
    exact hgone (hlater₂.alive halive)
  · intro w₁ hlater hfile
    cases hrecord : p.record defaultMaximumSize with
    | error f =>
      dsimp only
      split_ifs with henoent
      · refine ensures_pure fun w₂ hw₂ => ⟨hlater.interference hfile hw₂, .inl ⟨rfl, .inl ?_⟩⟩
        rw [Process.threads, hrecord]
      · refine ensures_pure fun w₂ hw₂ =>
          ⟨hlater.interference hfile hw₂, .inr (.inl ⟨f, rfl, ?_⟩)⟩
        exact .inr (.inl ⟨p, hp, .inl hrecord⟩)
    | ok content =>
      refine ensures_pure fun w₂ hw₂ => ⟨hlater.interference hfile hw₂, ?_⟩
      rcases addThreads_record s hrecord with ⟨hadd, hnone⟩ | ⟨f, hadd, hparse⟩ |
        ⟨threads, hp', hadd⟩
      · exact .inl ⟨hadd, .inl hnone⟩
      · exact .inr (.inl ⟨f, hadd, .inr (.inl ⟨p, hp, .inr ⟨content, hrecord, hparse⟩⟩)⟩)
      · exact .inr (.inr ⟨threads, hp', hadd⟩)

/-- What the walk returns. -/
def WalkCounts (m : Machine) (result : Result (ThreadTotal × ℕ)) (w : World) : Prop :=
  match result with
  | .error f => ThreadFault m f
  | .ok s => ∃ counted : List Process, counted.Nodup ∧
      (∀ p ∈ counted, p ∈ m.processes ∧ p.threads ≠ none) ∧
      (∀ p ∈ m.processes, p.pid ∈ w.alive → p.threads ≠ none → p ∈ counted) ∧
      s.1.Holds counted

theorem WalkCounts.later {result : Result (ThreadTotal × ℕ)} {w' : World}
    (h : WalkCounts m result w) (hw : w'.alive ⊆ w.alive) : WalkCounts m result w' := by
  cases result with
  | error f => exact h
  | ok s =>
    obtain ⟨counted, hnodup, hmem, hcomplete, hholds⟩ := h
    exact ⟨counted, hnodup, hmem, fun p hp halive => hcomplete p hp (hw halive), hholds⟩

theorem length_seen_le {seen : List Process} (h : Covers m seen w) :
    seen.length ≤ m.processes.length :=
  (List.subperm_of_subset h.seen_nodup fun p hp => (h.seen_mem p hp).1).length_le

theorem ensures_walkStep (w : World) (s : ThreadTotal × ℕ) {seen counted : List Process}
    (h : Counts m seen counted s.1 w) (hvisited : s.2 = seen.length) :
    Ensures (system m outsideRead) (walkStep visitThreads s)
      (BodyPost (fun s w => ∃ seen counted, Counts m seen counted s.1 w ∧ s.2 = seen.length)
        (fun _ w => w.unlisted.length) w.unlisted.length (WalkCounts m)) w := by
  rw [walkStep]
  apply ensures_readdir h.covers
  · intro errno herrno w'
    exact ensures_pure fun _ _ => .inl ⟨errno, herrno, rfl⟩
  · intro w' hsub hall
    have hcounts : WalkCounts m (.ok s) w' := by
      refine ⟨counted, h.nodup, fun p hp => ?_, fun p hp hp' hthreads => ?_, h.total⟩
      · exact ⟨(h.covers.seen_mem p (h.mem p hp).1).1, (h.mem p hp).2⟩
      · exact h.complete p (hall p hp hp') (hsub hp') hthreads
    exact ensures_pure fun w₃ hw₃ => hcounts.later (later_of_interference hw₃).1.alive
  · intro name w₂ hsub hless hother hcovers
    dsimp only
    rw [hother, Bool.not_false, if_pos rfl]
    refine ensures_pure fun w₃ hw₃ => ?_
    obtain ⟨hlater₃, -⟩ := later_of_interference hw₃
    refine ⟨⟨seen, counted, ?_, hvisited⟩, (congrArg List.length hlater₃.unlisted).trans_lt hless⟩
    apply h.skip (hcovers.interference hw₃) (hlater₃.alive.trans hsub) (fun _ h => h)
    exact fun q hq hq' => absurd hq hq'
  · intro p hp w₂ hsub hless hcovers
    dsimp only
    rw [numericEntry_name, Bool.not_true, if_neg Bool.false_ne_true]
    split_ifs with hmany
    · refine ensures_pure fun w₃ _ => .inr (.inr ⟨rfl, .inl ?_⟩)
      have hle := length_seen_le h.covers
      omega
    · apply ensures_bind
      apply (ensures_visitThreads hp s.1 hcovers.closed).mono
      intro r w₃ ⟨⟨hlater₃, hfile₃⟩, hresult⟩
      have hcovers₃ := hcovers.later hlater₃ hfile₃
      rcases hresult with ⟨rfl, hskip⟩ | ⟨f, rfl, hfault⟩ | ⟨threads, hthreads, rfl⟩
      · refine ensures_pure fun w₄ hw₄ => ?_
        obtain ⟨hgone, hsub₄, hless₄⟩ := hlater₃.turn hsub hless hw₄
        refine ⟨⟨p :: seen, counted, ?_, by simp [hvisited]⟩, hless₄⟩
        apply h.skip (hcovers₃.interference hw₄) hsub₄ (fun q hq => List.mem_cons_of_mem p hq)
        intro q hq hold hq'
        cases List.mem_cons.mp hq with
        | inl heq =>
          subst heq
          exact hskip.resolve_right fun hnot => hnot (hgone hq')
        | inr hseen => exact absurd hseen hold
      · exact ensures_pure fun w₄ _ => hfault
      · refine ensures_pure fun w₄ hw₄ => ?_
        obtain ⟨-, hsub₄, hless₄⟩ := hlater₃.turn hsub hless hw₄
        exact ⟨⟨p :: seen, p :: counted, h.add (hcovers₃.interference hw₄) hsub₄ hthreads,
          by simp [hvisited]⟩, hless₄⟩

/-- `thread_count` survives the exits outside of reads. -/
theorem ensures_threadCount (h : w.file = none) :
    Ensures (system m outsideRead) threadCount (CountsSurvivors m) w := by
  rw [threadCount, walkProcesses]
  apply ensures_bind
  apply ensures_opendir h
  · intro errno herrno w'
    exact ensures_pure fun _ _ => ensures_pure fun _ _ => .inl ⟨errno, herrno, rfl⟩
  intro w' hcovers
  have hcounts : Counts m [] [] {} w' :=
    ⟨hcovers, .nil, by simp, by simp, by simp [ThreadTotal.Holds, threadSum]⟩
  have hwalk : Ensures (system m outsideRead) (iterate (walkStep visitThreads) ({}, 0))
      (WalkCounts m) w' := by
    apply @ensures_walk _ _ _ _ _ _
      (fun s w => ∃ seen counted, Counts m seen counted s.1 w ∧ s.2 = seen.length)
      (WalkCounts m) ⟨[], [], hcounts, rfl⟩
    · intro s w w' ⟨seen, counted, hs, hvisited⟩ hlater hfile
      exact ⟨seen, counted, hs.later hlater (hfile.trans hs.covers.closed), hvisited⟩
    · exact fun r w w' hr hsub => hr.later hsub
    · intro s w ⟨seen, counted, hs, hvisited⟩
      exact ensures_walkStep w s hs hvisited
  apply hwalk.mono
  intro r w₃ hr
  cases r with
  | error f => exact ensures_pure fun w₄ _ => hr
  | ok s =>
    obtain ⟨counted, hnodup, hmem, hcomplete, hholds⟩ := hr
    unfold ThreadTotal.Holds at hholds
    dsimp only
    by_cases hover : s.1.overflowed = true
    · rw [if_pos hover] at hholds ⊢
      refine ensures_pure fun w₄ _ => .inr (.inr ⟨rfl, .inr (hholds.trans_le ?_)⟩)
      have hsub := List.subperm_of_subset hnodup fun p hp => (hmem p hp).1
      obtain ⟨l, hperm, hsublist⟩ := hsub
      rw [threadSum, threadSum, ← (hperm.map _).sum_eq]
      exact (hsublist.map _).sum_le_sum fun _ _ => Nat.zero_le _
    · rw [if_neg hover] at hholds ⊢
      refine ensures_pure fun w₄ hw₄ => ⟨counted, hnodup, hmem, ?_, hholds.1⟩
      exact fun p hp halive => hcomplete p hp ((later_of_interference hw₄).1.alive halive)

end Threads

end Syscape.ProcessWalk
