import Syscape.ProcessExits

/-!
# Exits while the process list is made

`processes` reads more files of each process than its record, but nothing that goes wrong
with them makes it fail. It survives the same exits as `thread_count`, and both fail when a
process exits while its record is open.
-/
namespace Syscape.ProcessWalk
open Calls Checked Text Digits Numbers ProcessList Resource LinuxFile

section Entries

/-- Both describe the process of the same record; the name may come from elsewhere. -/
def Describes (e : ListedProcess) (entry : ProcessEntry) : Prop :=
  { e.toProcessEntry with name := entry.name } = entry

theorem Describes.pid_eq {e : ListedProcess} {entry : ProcessEntry} (h : Describes e entry) :
    e.pid = entry.pid := by
  rw [Describes] at h
  rw [← h]

/-- The entry of the process that was asked for. -/
theorem parseProcStatEntry_pid {content : List UInt8} {pid pageSize : ℕ} {ticksPerSec : ℤ}
    {bootTime : Option ℤ} {entry : ProcessEntry}
    (h : parseProcStatEntry content pid ticksPerSec pageSize bootTime = .ok entry) :
    entry.pid = pid := by
  unfold parseProcStatEntry at h
  cases hbounds : ProcessMetrics.nameBounds content with
  | none => simp [hbounds] at h
  | some bounds =>
    simp only [hbounds, Utf8.isValidUtf8_eq, ok_bind] at h
    generalize (splitBlank isStatSeparator (content.drop (bounds.2 + 1))).take 22 = fields at h
    generalize (if decide (Utf8.ValidUtf8 _) = true then some _ else none) = name at h
    split_ifs at h
    · simp at h
    obtain ⟨ppid, -, h⟩ := bind_eq_ok.mp h
    split_ifs at h
    · simp at h
    obtain ⟨utime, -, h⟩ := bind_eq_ok.mp h
    obtain ⟨userCpuTime, -, h⟩ := bind_eq_ok.mp h
    obtain ⟨stime, -, h⟩ := bind_eq_ok.mp h
    obtain ⟨kernelCpuTime, -, h⟩ := bind_eq_ok.mp h
    obtain ⟨priority, -, h⟩ := bind_eq_ok.mp h
    split_ifs at h
    · simp at h
    obtain ⟨threads, -, h⟩ := bind_eq_ok.mp h
    split_ifs at h
    · simp at h
    obtain ⟨starttime, -, h⟩ := bind_eq_ok.mp h
    obtain ⟨startTime, -, h⟩ := bind_eq_ok.mp h
    obtain ⟨vsize, -, h⟩ := bind_eq_ok.mp h
    obtain ⟨rss, -, h⟩ := bind_eq_ok.mp h
    obtain ⟨residentMemoryBytes, -, h⟩ := bind_eq_ok.mp h
    cases h
    rfl

/-- Only the name, the user and the group are taken from the status of a process. -/
theorem parseProcStatusLine_eq (e : ListedProcess) (line : List UInt8)
    (name : Option (List UInt8)) :
    { (parseProcStatusLine e line).toProcessEntry with name } = { e.toProcessEntry with name } := by
  unfold parseProcStatusLine
  split_ifs
  · rfl
  · rfl
  · dsimp only
    split_ifs <;> rfl
  · rfl

theorem Describes.parseProcStatus {e : ListedProcess} {entry : ProcessEntry}
    (h : Describes e entry) (content : List UInt8) : Describes (parseProcStatus content e) entry := by
  unfold ProcessWalk.parseProcStatus
  induction Lines.lines 0x0A content generalizing e with
  | nil => exact h
  | cons line rest ih =>
    apply ih
    rw [Describes, parseProcStatusLine_eq]
    exact h

/-- A command line that cannot be decoded is left out. -/
theorem parseProcCmdline_error {text : List UInt8} {f : Fault ErrorCode}
    (h : parseProcCmdline text = .error f) :
    f = .fail (.syscape .invalidEncoding) ∨ f = .fail (.syscape .malformedData) := by
  unfold parseProcCmdline at h
  split_ifs at h
  · exact .inr (Except.error.inj h).symm
  · left
    generalize Lines.lines 0 text = args at h
    induction args with
    | nil => simp at h
    | cons arg args ih =>
      rw [List.mapM_cons, checkArgument, Utf8.isValidUtf8_eq, ok_bind] at h
      split_ifs at h
      · rw [ok_bind] at h
        cases hargs : args.mapM checkArgument with
        | ok list => simp [hargs] at h
        | error g =>
          rw [hargs] at h ih
          exact ih (by simpa using h)
      · exact (Except.error.inj h).symm

theorem addCommandLine_describes {e : ListedProcess} {entry : ProcessEntry}
    (h : Describes e entry) (content : Result (List UInt8)) :
    ∃ e', addCommandLine e content = .ok e' ∧ Describes e' entry := by
  cases content with
  | error f => exact ⟨e, rfl, h⟩
  | ok text =>
    rw [addCommandLine]
    cases hargs : parseProcCmdline text with
    | ok args => exact ⟨_, rfl, h⟩
    | error f =>
      refine ⟨e, if_neg ?_, h⟩
      rcases parseProcCmdline_error hargs with rfl | rfl
      · simp
      · simp

end Entries

section Buffers
variable {m : Machine} {w : World} {β : Type}

/-- Either a signal is used up or the buffer grows. -/
def bufferMeasure (size : ℕ) (w : World) : ℕ := w.interrupts + (1024 * 1024 - size)

/-- A call leaves the world as it was, but for a signal, and is repeated only when a signal
has interrupted it or the buffer has grown. -/
def BufferPost (w : World) (size : ℕ) (r : ℕ ⊕ β) (w' : World) : Prop :=
  (Later w w' ∧ w'.file = w.file) ∧
    ∀ size', r = .inl size' → 0 < size' ∧ bufferMeasure size' w' < bufferMeasure size w

/-- Calls that are repeated with larger and larger buffers. -/
theorem ensures_buffer {body : ℕ → Query (ℕ ⊕ β)}
    (hbody : ∀ size w, 0 < size →
      Ensures (system m outsideRead) (body size) (BufferPost w size) w)
    {size : ℕ} (hsize : 0 < size) :
    Ensures (system m outsideRead) (iterate body size)
      (fun _ w' => Later w w' ∧ w'.file = w.file) w := by
  apply ensures_iterate (fun size w' => (Later w w' ∧ w'.file = w.file) ∧ 0 < size)
    bufferMeasure ⟨⟨Later.refl w, rfl⟩, hsize⟩
  · intro size w₁ w₂ ⟨⟨hlater, hfile⟩, hpos⟩ hstep
    obtain ⟨hnext, hsame⟩ := later_of_interference (.single hstep)
    exact ⟨⟨⟨hlater.trans hnext, hsame.trans hfile⟩, hpos⟩,
      Nat.add_le_add_right hnext.interrupts _⟩
  · intro size w₁ ⟨⟨hlater, hfile⟩, hpos⟩
    apply (hbody size w₁ hpos).mono
    intro r w₂ ⟨⟨hnext, hsame⟩, hagain⟩
    cases r with
    | inl size' =>
      obtain ⟨hpos', hless⟩ := hagain size' rfl
      exact ⟨⟨⟨hlater.trans hnext, hsame.trans hfile⟩, hpos'⟩, hless⟩
    | inr b => exact ⟨hlater.trans hnext, hsame.trans hfile⟩
  · intro b w₁ w₂ ⟨hlater, hfile⟩ hstep
    exact hlater.interference hfile (.single hstep)

/-- The loop is left. -/
theorem ensures_leave {w₁ : World} {size : ℕ} (hlater : Later w w₁) (hfile : w₁.file = w.file)
    (b : β) : Ensures (system m outsideRead) (pure (.inr b)) (BufferPost w size) w₁ := by
  exact ensures_pure fun w₂ hw₂ => ⟨hlater.interference hfile hw₂, by simp⟩

/-- The call is repeated. -/
theorem ensures_again {w₁ : World} {size size' : ℕ} (hlater : Later w w₁)
    (hfile : w₁.file = w.file) (hpos : 0 < size')
    (hless : bufferMeasure size' w₁ < bufferMeasure size w) :
    Ensures (system m outsideRead) (pure (.inl size' : ℕ ⊕ β)) (BufferPost w size) w₁ := by
  refine ensures_pure fun w₂ hw₂ => ?_
  obtain ⟨hnext, hsame⟩ := later_of_interference hw₂
  refine ⟨⟨hlater.trans hnext, hsame.trans hfile⟩, fun size'' h => ?_⟩
  cases h
  exact ⟨hpos, (Nat.add_le_add_right hnext.interrupts _).trans_lt hless⟩

theorem ensures_readSymlinkPath (path : Path) :
    Ensures (system m outsideRead) (readSymlinkPath path)
      (fun _ w' => Later w w' ∧ w'.file = w.file) w := by
  apply ensures_buffer _ (by decide)
  intro size w hsize
  rw [readSymlinkStep, readlink]
  apply ensures_invoke
  intro w₁ hw₁
  obtain ⟨hlater, hfile⟩ := later_of_interference hw₁
  have hsignals := hlater.interrupts
  refine ⟨⟨_, _, .link w₁ path size [] (by simp)⟩, fun r w₂ hr => ?_⟩
  cases hr with
  | linkInterrupted _ _ n hn =>
    have hless : n < w.interrupts := by omega
    have hnext : Later w { w₁ with interrupts := n } := ⟨hlater.unlisted, hlater.alive, hless.le⟩
    exact ensures_again hnext hfile hsize (Nat.add_lt_add_right hless _)
  | linkFails _ _ errno herrno =>
    dsimp only
    rw [if_neg herrno]
    exact ensures_leave hlater hfile none
  | link _ _ target _ =>
    dsimp only
    by_cases hfits : target.length < size
    · rw [if_pos hfits]
      exact ensures_leave hlater hfile _
    · rw [if_neg hfits]
      by_cases hlarge : size > 1024 * 1024 / 2
      · rw [if_pos hlarge]
        exact ensures_leave hlater hfile none
      · rw [if_neg hlarge]
        apply ensures_again hlater hfile (by omega)
        unfold bufferMeasure
        omega

theorem ensures_lookupUser (e : ListedProcess) :
    Ensures (system m outsideRead) (lookupUser e)
      (fun _ w' => Later w w' ∧ w'.file = w.file) w := by
  rw [lookupUser]
  split
  · next uid _ =>
    apply ensures_buffer _ (by decide)
    intro size w hsize
    rw [lookupStep, getpwuid]
    apply ensures_invoke
    intro w₁ hw₁
    refine ⟨⟨_, _, .user w₁ uid size (.ok none)⟩, fun r w₂ hr => ?_⟩
    cases hr
    obtain ⟨hlater, hfile⟩ := later_of_interference hw₁
    have hsignals := hlater.interrupts
    match r with
    | .ok none => exact ensures_leave hlater hfile none
    | .ok (some userName) => exact ensures_leave hlater hfile _
    | .error errno =>
      dsimp only
      by_cases hrange : errno = erange ∧ size < 1024 * 1024
      · rw [if_pos hrange]
        by_cases hhalf : size ≤ 1024 * 1024 / 2
        · rw [if_pos hhalf]
          apply ensures_again hlater hfile (by omega)
          unfold bufferMeasure
          omega
        · rw [if_neg hhalf]
          apply ensures_again hlater hfile (by omega)
          unfold bufferMeasure
          omega
      · rw [if_neg hrange]
        exact ensures_leave hlater hfile none
  · exact ensures_pure fun w' hw' => later_of_interference hw'

end Buffers

section Listing
variable {m : Machine} {w : World} {ticks : ℤ} {pageSize : ℕ} {bootTime : Option ℤ}

/-- The entry of a process whose record can be read and parsed. -/
def Process.entry (p : Process) (ticks : ℤ) (pageSize : ℕ) (bootTime : Option ℤ) :
    Option ProcessEntry :=
  match p.record defaultMaximumSize with
  | .ok content =>
    match parseProcStatEntry content p.pid ticks pageSize bootTime with
    | .ok entry => some entry
    | .error _ => none
  | .error _ => none

/-- The failures of `processes` that no exit causes: `/proc` cannot be listed, the clock rate
is refused, or the record of a process has an error that is not skipped while it lives. -/
def ListFault (m : Machine) (ticks : ℤ) (pageSize : ℕ) (bootTime : Option ℤ)
    (f : Fault ErrorCode) : Prop :=
  (∃ errno ∈ m.directoryErrors, f = .fail (.generic errno)) ∨ validateRate ticks = .error f ∨
  skippableProcessError f = false ∧ ∃ p ∈ m.processes, p.record defaultMaximumSize = .error f ∨
    ∃ content, p.record defaultMaximumSize = .ok content ∧
      parseProcStatEntry content p.pid ticks pageSize bootTime = .error f

/-- No exit makes `processes` fail, and its result has one entry for each process with a
readable record that still lives. -/
def ListsSurvivors (m : Machine) (ticks : ℤ) (pageSize : ℕ) (bootTime : Option ℤ)
    (result : Result (List ListedProcess)) (w : World) : Prop :=
  match result with
  | .error f => ListFault m ticks pageSize bootTime f
  | .ok list => (list.map fun e => e.pid).Nodup ∧
      (∀ e ∈ list, ∃ p ∈ m.processes, e.pid = p.pid) ∧
      ∀ p ∈ m.processes, p.pid ∈ w.alive → ∀ entry, p.entry ticks pageSize bootTime = some entry →
        ∃ e ∈ list, Describes e entry

/-- The query of one process returns its entry, or an error of its own, or that it is gone. -/
def QueryPost (m : Machine) (p : Process) (ticks : ℤ) (pageSize : ℕ) (bootTime : Option ℤ)
    (w : World) (r : Result ListedProcess) (w' : World) : Prop :=
  (Later w w' ∧ w'.file = none) ∧
  match r with
  | .ok e => ∃ entry, p.entry ticks pageSize bootTime = some entry ∧ Describes e entry
  | .error f => (p.pid ∈ w'.alive → p.entry ticks pageSize bootTime = none) ∧
      (skippableProcessError f = false → ListFault m ticks pageSize bootTime f)

theorem Process.entry_pid {p : Process} {entry : ProcessEntry}
    (h : p.entry ticks pageSize bootTime = some entry) : entry.pid = p.pid := by
  unfold Process.entry at h
  split at h
  · split at h
    · next hparse =>
      rw [← Option.some.inj h]
      exact parseProcStatEntry_pid hparse
    · cases h
  · cases h

/-- The further files of a process whose record has been parsed. -/
theorem ensures_details {p : Process} {entry : ProcessEntry} {w₁ : World}
    (hentry : p.entry ticks pageSize bootTime = some entry) (hlater : Later w w₁)
    (hfile : w₁.file = none) (e : ListedProcess) (he : Describes e entry)
    (cmdline exe cwd : Path) :
    Ensures (system m outsideRead) (do
      let userName ← lookupUser e
      let content ← readTextFile cmdline defaultMaximumSize
      match addCommandLine { e with userName } content with
      | .error f => return .error f
      | .ok e =>
        let executablePath ← readSymlinkPath exe
        let workingDirectory ← readSymlinkPath cwd
        return .ok { e with executablePath, workingDirectory })
      (QueryPost m p ticks pageSize bootTime w) w₁ := by
  apply ensures_bind
  apply (ensures_lookupUser e).mono
  intro userName w₂ ⟨hlater₂, hfile₂⟩
  apply ensures_bind
  apply (ensures_readTextFile cmdline defaultMaximumSize (hfile₂.trans hfile)).mono
  intro content w₃ hread
  have he' : Describes { e with userName } entry := he
  obtain ⟨e', hadd, hdescribes⟩ := addCommandLine_describes he' content
  simp only [hadd]
  apply ensures_bind
  apply (ensures_readSymlinkPath exe).mono
  intro executablePath w₄ ⟨hlater₄, hfile₄⟩
  apply ensures_bind
  apply (ensures_readSymlinkPath cwd).mono
  intro workingDirectory w₅ ⟨hlater₅, hfile₅⟩
  refine ensures_pure fun w₆ hw₆ => ?_
  obtain ⟨hlater₆, hfile₆⟩ := later_of_interference hw₆
  have hall := ((((hlater.trans hlater₂).trans hread.later).trans hlater₄).trans hlater₅).trans
    hlater₆
  exact ⟨⟨hall, (hfile₆.trans (hfile₅.trans hfile₄)).trans hread.closed⟩, entry, hentry,
    hdescribes⟩

/-- `query_single_process`. -/
theorem ensures_querySingleProcess {p : Process} (hp : p ∈ m.processes) (h : w.file = none) :
    Ensures (system m outsideRead) (querySingleProcess p.pid ticks pageSize bootTime)
      (QueryPost m p ticks pageSize bootTime w) w := by
  apply ensures_readStat hp h
  · -- that the process is gone is told by `ENOENT`
    intro w₁ hlater hfile hgone
    refine ensures_pure fun w₂ hw₂ => ?_
    obtain ⟨hlater₂, hfile₂⟩ := later_of_interference hw₂
    refine ⟨⟨hlater.trans hlater₂, hfile₂.trans hfile⟩, fun halive => ?_, fun hskip => ?_⟩
    · exact absurd (hlater₂.alive halive) hgone
    · cases hskip
  intro w₁ hlater hfile
  cases hrecord : p.record defaultMaximumSize with
  | error f =>
    have hnone : p.entry ticks pageSize bootTime = none := by
      rw [Process.entry, hrecord]
    dsimp only
    by_cases hmissing : isNoSuchFile f = true
    · rw [if_pos hmissing]
      exact ensures_pure fun w₂ hw₂ =>
        ⟨hlater.interference hfile hw₂, fun _ => hnone, fun hskip => by cases hskip⟩
    · rw [if_neg hmissing]
      refine ensures_pure fun w₂ hw₂ =>
        ⟨hlater.interference hfile hw₂, fun _ => hnone, fun hskip => ?_⟩
      exact .inr (.inr ⟨hskip, p, hp, .inl hrecord⟩)
  | ok content =>
    dsimp only
    cases hparse : parseProcStatEntry content p.pid ticks pageSize bootTime with
    | error f =>
      refine ensures_pure fun w₂ hw₂ =>
        ⟨hlater.interference hfile hw₂, fun _ => ?_, fun hskip => ?_⟩
      · simp only [Process.entry, hrecord, hparse]
      · exact .inr (.inr ⟨hskip, p, hp, .inr ⟨content, hrecord, hparse⟩⟩)
    | ok entry =>
      have hentry : p.entry ticks pageSize bootTime = some entry := by
        simp only [Process.entry, hrecord, hparse]
      have hdescribes : Describes { entry with } entry := rfl
      dsimp only
      apply ensures_bind
      apply (ensures_readTextFile _ defaultMaximumSize hfile).mono
      intro status w₂ hstatus
      have hlater₂ := hlater.trans hstatus.later
      cases status with
      | error f => exact ensures_details hentry hlater₂ hstatus.closed _ hdescribes _ _ _
      | ok text =>
        exact ensures_details hentry hlater₂ hstatus.closed _ (hdescribes.parseProcStatus text)
          _ _ _

/-- The state of the walk: the entries belong to different processes that the walk has come
to, and all that live and have a readable record are there. -/
structure Lists (m : Machine) (ticks : ℤ) (pageSize : ℕ) (bootTime : Option ℤ)
    (seen : List Process) (list : List ListedProcess) (w : World) : Prop where
  covers : Covers m seen w
  nodup : (list.map fun e => e.pid).Nodup
  mem : ∀ e ∈ list, ∃ p ∈ seen, e.pid = p.pid
  complete : ∀ p ∈ seen, p.pid ∈ w.alive → ∀ entry, p.entry ticks pageSize bootTime = some entry →
    ∃ e ∈ list, Describes e entry

theorem Lists.later {seen : List Process} {list : List ListedProcess} {w' : World}
    (h : Lists m ticks pageSize bootTime seen list w) (hw : Later w w') (hfile : w'.file = none) :
    Lists m ticks pageSize bootTime seen list w' where
  covers := h.covers.later hw hfile
  nodup := h.nodup
  mem := h.mem
  complete p hp halive := h.complete p hp (hw.alive halive)

/-- The walk comes to a process that adds no entry. -/
theorem Lists.skip {seen : List Process} {list : List ListedProcess} {p : Process} {w' : World}
    (h : Lists m ticks pageSize bootTime seen list w) (hcovers : Covers m (p :: seen) w')
    (halive : w'.alive ⊆ w.alive)
    (hp : p.pid ∈ w'.alive → p.entry ticks pageSize bootTime = none) :
    Lists m ticks pageSize bootTime (p :: seen) list w' where
  covers := hcovers
  nodup := h.nodup
  mem e he := by
    obtain ⟨q, hq, hpid⟩ := h.mem e he
    exact ⟨q, List.mem_cons_of_mem p hq, hpid⟩
  complete q hq hq' entry hentry := by
    rcases List.mem_cons.mp hq with rfl | hq
    · rw [hp hq'] at hentry
      cases hentry
    · exact h.complete q hq (halive hq') entry hentry

/-- The walk comes to a process with an entry. -/
theorem Lists.add {seen : List Process} {list : List ListedProcess} {p : Process} {w' : World}
    {e : ListedProcess} {entry : ProcessEntry} (h : Lists m ticks pageSize bootTime seen list w)
    (hcovers : Covers m (p :: seen) w') (halive : w'.alive ⊆ w.alive)
    (hentry : p.entry ticks pageSize bootTime = some entry) (he : Describes e entry) :
    Lists m ticks pageSize bootTime (p :: seen) (list ++ [e]) w' where
  covers := hcovers
  nodup := by
    rw [List.map_append, List.nodup_append]
    refine ⟨h.nodup, by simp, ?_⟩
    intro a ha b hb hab
    obtain ⟨d, hd, rfl⟩ := List.mem_map.mp ha
    obtain ⟨q, hq, hpid⟩ := h.mem d hd
    have hb : b = e.pid := by simpa using hb
    have hq' : q.pid = p.pid := by
      rw [← hpid, hab, hb, he.pid_eq, Process.entry_pid hentry]
    have hsame : q = p := List.inj_on_of_nodup_map m.distinct (h.covers.seen_mem q hq).1
      (hcovers.seen_mem p (by simp)).1 hq'
    exact (List.nodup_cons.mp hcovers.seen_nodup).1 (hsame ▸ hq)
  mem d hd := by
    rcases List.mem_append.mp hd with hd | hd
    · obtain ⟨q, hq, hpid⟩ := h.mem d hd
      exact ⟨q, List.mem_cons_of_mem p hq, hpid⟩
    · rw [List.mem_singleton.mp hd, he.pid_eq, Process.entry_pid hentry]
      exact ⟨p, by simp, rfl⟩
  complete q hq hq' entry' hentry' := by
    rcases List.mem_cons.mp hq with rfl | hq
    · rw [hentry] at hentry'
      cases hentry'
      exact ⟨e, by simp, he⟩
    · obtain ⟨d, hd, hdescribes⟩ := h.complete q hq (halive hq') entry' hentry'
      exact ⟨d, by simp [hd], hdescribes⟩

theorem ListsSurvivors.later {result : Result (List ListedProcess)} {w' : World}
    (h : ListsSurvivors m ticks pageSize bootTime result w) (hw : w'.alive ⊆ w.alive) :
    ListsSurvivors m ticks pageSize bootTime result w' := by
  cases result with
  | error f => exact h
  | ok list => exact ⟨h.1, h.2.1, fun p hp halive => h.2.2 p hp (hw halive)⟩

theorem ensures_listStep (w : World) (list : List ListedProcess) {seen : List Process}
    (h : Lists m ticks pageSize bootTime seen list w) :
    Ensures (system m outsideRead) (listStep ticks pageSize bootTime list)
      (BodyPost (fun list w => ∃ seen, Lists m ticks pageSize bootTime seen list w)
        (fun _ w => w.unlisted.length) w.unlisted.length
        (ListsSurvivors m ticks pageSize bootTime)) w := by
  rw [listStep]
  apply ensures_readdir h.covers
  · intro errno herrno w'
    exact ensures_pure fun _ _ => .inl ⟨errno, herrno, rfl⟩
  · intro w' hsub hall
    have hlists : ListsSurvivors m ticks pageSize bootTime (.ok list) w' := by
      refine ⟨h.nodup, fun e he => ?_, fun p hp hp' => ?_⟩
      · obtain ⟨q, hq, hpid⟩ := h.mem e he
        exact ⟨q, (h.covers.seen_mem q hq).1, hpid⟩
      · exact h.complete p (hall p hp hp') (hsub hp')
    exact ensures_pure fun w₃ hw₃ => hlists.later (later_of_interference hw₃).1.alive
  · intro name w₂ hsub hless hother hcovers
    dsimp only
    rw [pidOf_eq_none hother]
    refine ensures_pure fun w₃ hw₃ => ?_
    obtain ⟨hlater₃, -⟩ := later_of_interference hw₃
    refine ⟨⟨seen, hcovers.interference hw₃, h.nodup, h.mem, ?_⟩,
      (congrArg List.length hlater₃.unlisted).trans_lt hless⟩
    exact fun q hq hq' => h.complete q hq (hsub (hlater₃.alive hq'))
  · intro p hp w₂ hsub hless hcovers
    dsimp only
    rw [pidOf_name]
    dsimp only
    apply ensures_bind
    apply (ensures_querySingleProcess hp hcovers.closed).mono
    intro r w₃ ⟨⟨hlater₃, hfile₃⟩, hresult⟩
    have hcovers₃ := hcovers.later hlater₃ hfile₃
    cases r with
    | ok e =>
      obtain ⟨entry, hentry, hdescribes⟩ := hresult
      refine ensures_pure fun w₄ hw₄ => ?_
      obtain ⟨-, hsub₄, hless₄⟩ := hlater₃.turn hsub hless hw₄
      exact ⟨⟨p :: seen, h.add (hcovers₃.interference hw₄) hsub₄ hentry hdescribes⟩, hless₄⟩
    | error f =>
      dsimp only
      by_cases hskip : skippableProcessError f = true
      · rw [if_pos hskip]
        refine ensures_pure fun w₄ hw₄ => ?_
        obtain ⟨hgone, hsub₄, hless₄⟩ := hlater₃.turn hsub hless hw₄
        exact ⟨⟨p :: seen, h.skip (hcovers₃.interference hw₄) hsub₄
          fun hp' => hresult.1 (hgone hp')⟩, hless₄⟩
      · rw [if_neg hskip]
        exact ensures_pure fun w₄ _ => hresult.2 (by simpa using hskip)

/-- `processes` survives the exits outside of reads. -/
theorem ensures_processes (sorter : StdSort.Sorter pidLess) (page : ℤ) (h : w.file = none) :
    Ensures (system m outsideRead) (processes sorter ticks page bootTime)
      (ListsSurvivors m ticks page.toNat bootTime) w := by
  rw [processes]
  apply ensures_opendir h
  · intro errno herrno w'
    exact ensures_pure fun _ _ => .inl ⟨errno, herrno, rfl⟩
  intro w' hcovers
  dsimp only
  cases hrate : validateRate ticks with
  | error f => exact ensures_pure fun w₃ _ => .inr (.inl hrate)
  | ok u =>
    dsimp only
    apply ensures_bind
    have hwalk : Ensures (system m outsideRead)
        (iterate (listStep ticks page.toNat bootTime) [])
        (ListsSurvivors m ticks page.toNat bootTime) w' := by
      apply @ensures_walk _ _ _ _ _ _
        (fun list w => ∃ seen, Lists m ticks page.toNat bootTime seen list w)
        (ListsSurvivors m ticks page.toNat bootTime) ⟨[], hcovers, by simp, by simp, by simp⟩
      · intro list w w' ⟨seen, hs⟩ hlater hfile
        exact ⟨seen, hs.later hlater (hfile.trans hs.covers.closed)⟩
      · exact fun r w w' hr hsub => hr.later hsub
      · intro list w ⟨seen, hs⟩
        exact ensures_listStep w list hs
    apply hwalk.mono
    intro r w₃ hr
    cases r with
    | error f => exact ensures_pure fun w₄ _ => hr
    | ok list =>
      -- sorting keeps the entries
      have hperm := sorter.perm list
      have hsorted : ListsSurvivors m ticks page.toNat bootTime (.ok (sorter.sort list)) w₃ := by
        refine ⟨(hperm.map _).nodup_iff.mpr hr.1, fun e he => hr.2.1 e (hperm.mem_iff.mp he), ?_⟩
        intro p hp halive entry hentry
        obtain ⟨e, he, hdescribes⟩ := hr.2.2 p hp halive entry hentry
        exact ⟨e, hperm.mem_iff.mpr he, hdescribes⟩
      exact ensures_pure fun w₄ hw₄ => hsorted.later (later_of_interference hw₄).1.alive

end Listing

section Exits
variable {m : Machine} {w : World}

/-- Every run of the query is finite, and where it cannot go on, the query has returned a
good result. -/
def Survives {α : Type} (sys : System Call Answer World) (w : World) (query : Query α)
    (good : α → World → Prop) : Prop :=
  Terminates sys (w, query) ∧ ∀ y, Runs sys (w, query) y →
    (∃ a, y.2 = .done a ∧ good a y.1) ∨ ∃ z, Advance sys y z

/-- As long as no process exits while its own record is open, neither query fails because of
an exit, and every process that outlives the walk contributes once. -/
theorem exits_survived (m : Machine) (alive : Finset ℕ) (interrupts : ℕ)
    (sorter : StdSort.Sorter pidLess) (ticks page : ℤ) (bootTime : Option ℤ) :
    Survives (system m outsideRead) (World.start alive interrupts) threadCount
      (CountsSurvivors m) ∧
    Survives (system m outsideRead) (World.start alive interrupts)
      (processes sorter ticks page bootTime) (ListsSurvivors m ticks page.toNat bootTime) :=
  ⟨ensures_sound (wellFounded_interferes m outsideRead) (ensures_threadCount rfl),
    ensures_sound (wellFounded_interferes m outsideRead) (ensures_processes sorter page rfl)⟩

/-- A run to a bad result. -/
theorem not_survives {α : Type} {sys : System Call Answer World} {query : Query α}
    {good : α → World → Prop} {w' : World} {a : α}
    (hruns : Runs sys (w, query) (w', .done a)) (hbad : ¬ good a w') :
    ¬ Survives sys w query good := by
  intro ⟨_, hsurvives⟩
  rcases hsurvives _ hruns with ⟨b, hdone, hgood⟩ | ⟨z, hz⟩
  · cases hdone
    exact hbad hgood
  · cases hz

/-- A process exits between the opening and the first read of its record. -/
theorem runs_exit_during_read {p : Process} (hp : p ∈ m.processes) (halive : p.pid ∈ w.alive)
    (h : ∀ errno, p.stat ≠ .refused errno) (maximumSize : ℕ) :
    Runs (system m anyTime) (w, readTextFile p.statPath maximumSize)
      ({ w with alive := w.alive.erase p.pid, file := none }, .done (failErrno esrch)) := by
  rw [readTextFile, openFile]
  apply Runs.invoke (r := (.ok () : Except ℤ Unit)) (Answers.statOpened w p hp halive h)
  have hread : Runs (system m anyTime)
      ({ w with file := some (.stat p 0) }, readChunk maximumSize [])
      ({ w with alive := w.alive.erase p.pid, file := some (.stat p 0) },
        .done (.inr (failErrno esrch))) := by
    apply Relation.ReflTransGen.head (.interferes _ ⟨p.pid, halive, trivial, rfl⟩)
    rw [readChunk, readFile]
    apply Runs.invoke (r := (.error esrch : Except ℤ (List UInt8)))
      (Answers.exited _ 4096 p 0 rfl (Finset.notMem_erase _ _))
    dsimp only
    rw [if_pos (by decide)]
    exact .refl
  apply Runs.seq hread.leave
  rw [closeFile]
  exact Runs.invoke (Answers.closed _) .refl

/-- The first entry of `/proc` is delivered. -/
theorem runs_first_entry {α : Type} {p : Process} (rest : List Path)
    {f : Except ℤ (Option Path) → Query α} {y : World × Query α}
    (hf : Runs (system m anyTime) ({ w with unlisted := rest }, f (.ok (some p.name))) y)
    (h : w.unlisted = p.name :: rest) : Runs (system m anyTime) (w, readdir >>= f) y := by
  rw [readdir]
  exact Runs.invoke (r := (.ok (some p.name) : Except ℤ (Option Path)))
    (Answers.entry w [] p.name rest h (by simp)) hf

variable {p : Process} (hm : m.processes = [p]) (h : ∀ errno, p.stat ≠ .refused errno)
include hm

theorem lists_only : m.Lists [p.name] {p.pid} :=
  ⟨by simp, by simp [hm],
    fun name hname => .inl ⟨p, by simp [hm], List.mem_singleton.mp hname⟩⟩

include h

/-- The machine has one process, which exits then. -/
theorem runs_read_exit (interrupts : ℕ) :
    Runs (system m anyTime)
      (⟨{p.pid}, [], none, interrupts⟩, readTextFile p.statPath defaultMaximumSize)
      (⟨∅, [], none, interrupts⟩, .done (failErrno esrch)) := by
  have hp : p ∈ m.processes := by simp [hm]
  have hread := runs_exit_during_read hp (w := ⟨{p.pid}, [], none, interrupts⟩)
    (Finset.mem_singleton_self _) h defaultMaximumSize
  simpa only [Finset.erase_singleton] using hread

theorem runs_threadCount_exit (interrupts : ℕ) :
    Runs (system m anyTime) (World.start {p.pid} interrupts, threadCount)
      (⟨∅, [], none, interrupts⟩, .done (failErrno esrch)) := by
  have hvisit : Runs (system m anyTime) (⟨{p.pid}, [], none, interrupts⟩, visitThreads {} p.name)
      (⟨∅, [], none, interrupts⟩, .done (failErrno esrch)) := by
    apply Runs.seq (runs_read_exit hm h interrupts)
    dsimp only [failErrno]
    rw [if_neg (by decide)]
    exact .refl
  have hstep : Runs (system m anyTime)
      (⟨{p.pid}, [p.name], none, interrupts⟩, walkStep visitThreads ({}, 0))
      (⟨∅, [], none, interrupts⟩, .done (.inr (failErrno esrch))) := by
    rw [walkStep]
    refine runs_first_entry [] ?_ rfl
    dsimp only
    rw [numericEntry_name, Bool.not_true, if_neg Bool.false_ne_true, if_neg (by decide)]
    exact Runs.seq hvisit .refl
  rw [threadCount, walkProcesses, opendir]
  refine Runs.seq (Runs.invoke (r := (.ok () : Except ℤ Unit))
    (Answers.directory (World.start {p.pid} interrupts) _ [p.name] (lists_only hm)) hstep.leave) .refl

theorem runs_processes_exit (interrupts : ℕ) (sorter : StdSort.Sorter pidLess) {ticks : ℤ}
    (hrate : validateRate ticks = .ok ()) (page : ℤ) (bootTime : Option ℤ) :
    Runs (system m anyTime)
      (World.start {p.pid} interrupts, processes sorter ticks page bootTime)
      (⟨∅, [], none, interrupts⟩, .done (failErrno esrch)) := by
  have hquery : Runs (system m anyTime)
      (⟨{p.pid}, [], none, interrupts⟩, querySingleProcess p.pid ticks page.toNat bootTime)
      (⟨∅, [], none, interrupts⟩, .done (failErrno esrch)) := by
    apply Runs.seq (runs_read_exit hm h interrupts)
    dsimp only [failErrno]
    rw [if_neg (by decide)]
    exact .refl
  have hstep : Runs (system m anyTime)
      (⟨{p.pid}, [p.name], none, interrupts⟩, listStep ticks page.toNat bootTime [])
      (⟨∅, [], none, interrupts⟩, .done (.inr (failErrno esrch))) := by
    rw [listStep]
    refine runs_first_entry [] ?_ rfl
    dsimp only
    rw [pidOf_name]
    apply Runs.seq hquery
    dsimp only [failErrno]
    rw [if_neg (by decide)]
    exact .refl
  rw [processes, opendir]
  apply Runs.invoke (r := (.ok () : Except ℤ Unit))
    (Answers.directory (World.start {p.pid} interrupts) _ [p.name] (lists_only hm))
  dsimp only
  rw [hrate]
  exact Runs.seq hstep.leave .refl

omit hm h

/-- A process with two threads. -/
def twoThreads : Process where
  pid := 7
  pid_pos := by decide
  pid_le := by decide
  stat := .text (ascii "7 (a) S 1 7 7 0 -1 4194560 10 20 0 0 7 3 0 0 20 0 2 0 50 4096 5\n")

def lone : Machine where
  processes := [twoThreads]
  distinct := by simp
  directoryErrors := []

theorem pidLess_strictWeak : StdSort.StrictWeak pidLess where
  asymm a b h := by
    simp only [pidLess, decide_eq_true_eq, decide_eq_false_iff_not] at h ⊢
    omega
  negTrans a b c hab hbc := by
    simp only [pidLess, decide_eq_false_iff_not] at hab hbc ⊢
    omega

/-- The record of the process is in order. -/
theorem twoThreads_record :
    (∃ content, twoThreads.record defaultMaximumSize = .ok content ∧
      parseThreadCount content = .ok 2) ∧
    ∃ entry, twoThreads.entry 100 4096 none = some entry := by
  refine ⟨⟨_, rfl, by decide +kernel⟩, ?_⟩
  rw [← Option.isSome_iff_exists]
  decide +kernel

/-- The only process exits between the opening and the reading of its record: both queries
fail with `ESRCH`, and nothing else is wrong. -/
theorem exit_during_read_fails :
    ¬ Survives (system lone anyTime) (World.start {7} 0) threadCount (CountsSurvivors lone) ∧
    ¬ Survives (system lone anyTime) (World.start {7} 0)
      (processes (StdSort.Sorter.merge pidLess_strictWeak) 100 4096 none)
      (ListsSurvivors lone 100 4096 none) := by
  obtain ⟨⟨content, hrecord, hthreads⟩, entry, hentry⟩ := twoThreads_record
  have hopen : ∀ errno, twoThreads.stat ≠ .refused errno := fun errno => Source.noConfusion
  have hmem : ∀ p ∈ lone.processes, p = twoThreads := fun p hp => List.mem_singleton.mp hp
  constructor
  · refine not_survives (runs_threadCount_exit (p := twoThreads) rfl hopen 0) fun hfault => ?_
    rcases hfault with ⟨errno, herrno, -⟩ | ⟨p, hp, hfault⟩ | ⟨hlarge, -⟩
    · cases herrno
    · cases hmem p hp
      rcases hfault with hfault | ⟨other, hother, hfault⟩
      · rw [hrecord] at hfault
        cases hfault
      · rw [hrecord] at hother
        cases hother
        rw [hthreads] at hfault
        cases hfault
    · cases hlarge
  · refine not_survives (runs_processes_exit (p := twoThreads) rfl hopen 0 _ (by decide) _ _)
      fun hfault => ?_
    rcases hfault with ⟨errno, herrno, -⟩ | hrate | ⟨-, p, hp, hfault⟩
    · cases herrno
    · rw [show validateRate 100 = .ok () by decide] at hrate
      cases hrate
    · cases hmem p hp
      rw [Process.entry, hrecord] at hentry
      rcases hfault with hfault | ⟨other, hother, hfault⟩
      · rw [hrecord] at hfault
        cases hfault
      · rw [hrecord] at hother
        cases hother
        have hparse : parseProcStatEntry content twoThreads.pid 100 4096 none =
            .error (.fail (.generic esrch)) := hfault
        simp only [hparse] at hentry
        cases hentry

end Exits

end Syscape.ProcessWalk
