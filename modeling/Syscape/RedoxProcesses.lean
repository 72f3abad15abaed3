import Syscape.RedoxContexts
import Syscape.Lib.StdSort

/-!
# The processes of Redox

The rows of the table are read one by one. The entries are then sorted by process, and those of one
process merged into one, with the state of the highest priority; the order of the rows does not
matter.
-/
namespace Syscape.Redox
open Checked Text Lines FromChars Digits Numerals ProcessList
open DigitRuns (isDigit)

section Merging
variable {entries list : List ProcessEntry} {entry : ProcessEntry}

lemma processStatePriority_injective : Function.Injective processStatePriority := by
  intro s t h
  cases s <;> cases t <;> first | rfl | exact absurd h (by decide)

/-- An entry with nothing but its process and its state. -/
def Plain (entry : ProcessEntry) : Prop := entry = { pid := entry.pid, state := entry.state }

/-- A list with one entry for each process, whose state has the highest priority. -/
structure Merged (entries list : List ProcessEntry) : Prop where
  ascending : list.Pairwise fun a b => a.pid < b.pid
  sound : ∀ e ∈ list, e ∈ entries
  highest : ∀ a ∈ entries, ∃ e ∈ list, e.pid = a.pid ∧
    processStatePriority a.state ≤ processStatePriority e.state

lemma Merged.nil : Merged [] [] := ⟨.nil, by simp, by simp⟩

/-- A new entry behind those of the processes before: it has the highest priority of its own. -/
lemma merged_append_singleton {before : List ProcessEntry}
    (hascending : before.Pairwise fun a b => a.pid < b.pid)
    (hbefore : ∀ e ∈ before, e ∈ entries ∧ e.pid < entry.pid)
    (hhighest : ∀ a ∈ entries, (∃ e ∈ before, e.pid = a.pid ∧
        processStatePriority a.state ≤ processStatePriority e.state) ∨
      entry.pid = a.pid ∧ processStatePriority a.state ≤ processStatePriority entry.state) :
    Merged (entries ++ [entry]) (before ++ [entry]) := by
  refine ⟨?_, ?_, ?_⟩
  · rw [List.pairwise_append]
    refine ⟨hascending, List.pairwise_singleton _ _, fun e he b hb => ?_⟩
    rw [List.mem_singleton.mp hb]
    exact (hbefore e he).2
  · intro e he
    rcases List.mem_append.mp he with he | he
    · exact List.mem_append_left _ (hbefore e he).1
    · exact List.mem_append_right _ he
  · intro a ha
    rcases List.mem_append.mp ha with ha | ha
    · rcases hhighest a ha with ⟨e, he, hsame⟩ | hsame
      · exact ⟨e, List.mem_append_left _ he, hsame⟩
      · exact ⟨entry, by simp, hsame⟩
    · rw [List.mem_singleton.mp ha]
      exact ⟨entry, by simp, rfl, le_rfl⟩

/-- One more entry, which comes behind the others in the order of the processes. -/
theorem Merged.mergeEntry (h : Merged entries list) (hplain : ∀ a ∈ entries ++ [entry], Plain a)
    (hlast : ∀ a ∈ entries, a.pid ≤ entry.pid) :
    Merged (entries ++ [entry]) (Redox.mergeEntry list entry) := by
  unfold Redox.mergeEntry
  cases hback : list.getLast? with
  | none =>
    rw [List.getLast?_eq_none_iff] at hback
    subst hback
    refine @merged_append_singleton entries entry [] .nil (by simp) fun a ha => ?_
    obtain ⟨e, he, -⟩ := h.highest a ha
    cases he
  | some back =>
    obtain ⟨before, rfl⟩ := List.getLast?_eq_some_iff.mp hback
    have hascending := List.pairwise_append.mp h.ascending
    have hbefore : ∀ e ∈ before, e.pid < back.pid := fun e he => hascending.2.2 e he back (by simp)
    have hmem : back ∈ entries := h.sound back (by simp)
    have hle : back.pid ≤ entry.pid := hlast back hmem
    dsimp only
    split_ifs with hpid hpriority
    · refine merged_append_singleton h.ascending (fun e he => ⟨h.sound e he, ?_⟩) fun a ha => ?_
      · rcases List.mem_append.mp he with he | he
        · exact (hbefore e he).trans_le hle
        · rw [List.mem_singleton.mp he]
          exact lt_of_le_of_ne hle hpid
      · exact .inl (h.highest a ha)
    · -- the state of the new entry takes the place of the other
      rw [not_not] at hpid
      have hentry : { back with state := entry.state } = entry := by
        have hplainBack : Plain back := hplain back (List.mem_append_left _ hmem)
        have hplainEntry : Plain entry := hplain entry (by simp)
        rw [hplainEntry, hplainBack, hpid]
      rw [List.dropLast_concat, hentry]
      refine merged_append_singleton hascending.1 (fun e he => ?_) fun a ha => ?_
      · exact ⟨h.sound e (List.mem_append_left _ he), hpid ▸ hbefore e he⟩
      · obtain ⟨e, he, hsame, hpriority'⟩ := h.highest a ha
        rcases List.mem_append.mp he with he | he
        · exact .inl ⟨e, he, hsame, hpriority'⟩
        · rw [List.mem_singleton.mp he] at hsame hpriority'
          exact .inr ⟨hpid ▸ hsame, by omega⟩
    · rw [not_not] at hpid
      refine ⟨h.ascending, fun e he => List.mem_append_left _ (h.sound e he), ?_⟩
      intro a ha
      rcases List.mem_append.mp ha with ha | ha
      · exact h.highest a ha
      · rw [List.mem_singleton.mp ha]
        exact ⟨back, by simp, hpid, by omega⟩

/-- The entry of a process is determined by its entries before the merge. -/
lemma Merged.subset {more : List ProcessEntry} (h : Merged entries list)
    (h' : Merged entries more) (hplain : ∀ a ∈ entries, Plain a) : ∀ e ∈ list, e ∈ more := by
  intro e he
  obtain ⟨e', he', hpid, hle⟩ := h'.highest e (h.sound e he)
  obtain ⟨e'', he'', hpid', hle'⟩ := h.highest e' (h'.sound e' he')
  have hsame : e'' = e :=
    StdSort.eq_of_key_eq h.ascending he'' he (hpid'.trans hpid)
  rw [hsame] at hle'
  have hstate : e'.state = e.state := processStatePriority_injective (by omega)
  have heq : e' = e := by
    rw [hplain e' (h'.sound e' he'), hplain e (h.sound e he), hpid, hstate]
  rwa [← heq]

/-- Merged lists of the same entries are the same. -/
theorem Merged.unique {more : List ProcessEntry} (h : Merged entries list)
    (h' : Merged entries more) (hplain : ∀ a ∈ entries, Plain a) : list = more :=
  StdSort.eq_of_ascending h.ascending h'.ascending fun e =>
    ⟨h.subset h' hplain e, h'.subset h hplain e⟩

/-- Merging a sorted list. -/
theorem merged_foldl (hsorted : entries.Pairwise fun a b => a.pid ≤ b.pid)
    (hplain : ∀ a ∈ entries, Plain a) : Merged entries (entries.foldl Redox.mergeEntry []) := by
  induction entries using List.reverseRecOn with
  | nil => exact .nil
  | append_singleton entries entry ih =>
    rw [List.pairwise_append] at hsorted
    rw [List.foldl_append]
    exact (ih hsorted.1 fun a ha => hplain a (by simp [ha])).mergeEntry hplain
      fun a ha => hsorted.2.2 a ha entry (by simp)

end Merging

section Reading
variable {contexts : List Context}

/-- The blanks at the end of a row are those behind the unit of the shared memory. -/
lemma trimLine_rowWith (c : Context) (tail : List UInt8) :
    trimLine (c.rowWith tail) =
      c.rowWith (tail.rdropWhile fun b => b == 0x0D || isSpace b) := by
  set front := column (decimal c.pid.toNat) ++ (column (decimal c.euid.toNat) ++
    (column (decimal c.egid.toNat) ++ (column c.statText ++ (column c.cpuText ++
      (padded 11 c.affinity ++ (padded 12 c.timeText ++ (padded 8 c.priv.text ++
        (c.shared.number ++ 0x20 :: c.shared.unit.scale))))))))
  have hrow (tail : List UInt8) : c.rowWith tail = front ++ 0x42 :: tail := by
    simp [Context.rowWith, MemoryFigure.text, front]
  have hhead (tail : List UInt8) : (c.rowWith tail).dropWhile isSpace = c.rowWith tail := by
    obtain ⟨b, digits, hdigits⟩ := List.exists_cons_of_ne_nil (decimal_ne_nil c.pid.toNat)
    have hb : isSpace b = false := isSpace_decimal c.pid.toNat b (by simp [hdigits])
    rw [Context.rowWith, column, hdigits, List.cons_append, List.cons_append,
      List.dropWhile_cons_of_neg (by simp [hb])]
  have hend := @rdropWhile_append_cons (fun b => b == 0x0D || isSpace b) 0x42 rfl front tail
  rw [trimLine, hrow, hend, ← hrow, hhead]

lemma head?_rowWith (c : Context) (tail : List UInt8) :
    c.rowWith tail ≠ [] ∧ (c.rowWith tail).head? ≠ some 0x23 := by
  obtain ⟨b, digits, hdigits⟩ := List.exists_cons_of_ne_nil (decimal_ne_nil c.pid.toNat)
  have hb : isDigit b = true := @isDigit_decimal c.pid.toNat b (by simp [hdigits])
  rw [Context.rowWith, column, hdigits]
  refine ⟨by simp, ?_⟩
  rw [List.cons_append, List.cons_append, List.head?_cons]
  rintro ⟨rfl⟩
  cases hb

/-- A row behind the header. -/
lemma contextLine_row (raw : List ProcessEntry) (c : Context) :
    contextLine ⟨true, raw⟩ c.row =
      if c.HasAffinity then .ok ⟨true, raw ++ [c.entry]⟩ else fail .malformedData := by
  obtain ⟨hne, hhash⟩ := head?_rowWith c ((List.replicate (8 - c.shared.text.length) 0x20 ++
    c.name).rdropWhile fun b => b == 0x0D || isSpace b)
  unfold contextLine
  dsimp only
  rw [Context.row, trimLine_rowWith, if_neg (by simp [hne, hhash]), if_neg (by simp),
    parseContext_rowWith]
  by_cases hseen : c.HasAffinity
  · rw [if_pos hseen, if_pos hseen]
  · rw [if_neg hseen, if_neg hseen]

/-- The columns of the header behind the first, each with the blanks in front of it. -/
def headerColumns : List (List UInt8 × List UInt8) :=
  [(ascii "   ", ascii "EUID"), (ascii "  ", ascii "EGID"), (ascii "  ", ascii "STAT"),
    (ascii "  ", ascii "CPU"), (ascii "   ", ascii "AFFINITY"), (ascii "   ", ascii "TIME"),
    (ascii "        ", ascii "PRIVATE"), (ascii " ", ascii "SHARED"), (ascii "  ", ascii "NAME")]

lemma isHeaderLine_headerText : isHeaderLine headerText = true := by
  have htext : headerText =
      ascii "PID" ++ (headerColumns.flatMap (fun p => p.1 ++ p.2) ++ []) := by decide
  have hblanks : ∀ p ∈ headerColumns, p.1 ≠ [] ∧ p.1.all isSpace = true := by decide
  have htokens : ∀ p ∈ headerColumns, p.2 ≠ [] ∧ p.2.all (fun c => !isSpace c) = true := by decide
  have hcolumns := @splitBlank_columns isSpace headerColumns []
    (fun p hp => ⟨(hblanks p hp).1, List.all_eq_true.mp (hblanks p hp).2⟩)
    (fun p hp => ⟨(htokens p hp).1, fun c hc => by
      simpa using List.all_eq_true.mp (htokens p hp).2 c hc⟩) (by simp)
  have hsplit := @splitBlank_token isSpace (ascii "PID")
    (headerColumns.flatMap (fun p => p.1 ++ p.2) ++ []) (by decide) (by simp [ascii, isSpace])
    (by simp [headerColumns, ascii, isSpace])
  unfold isHeaderLine
  rw [decide_eq_true_iff, htext, hsplit, hcolumns, splitBlank_nil]
  rfl

lemma contextLine_header : contextLine {} headerText = .ok ⟨true, []⟩ := by
  have htrim : trimLine headerText = headerText := by decide
  unfold contextLine
  dsimp only
  rw [htrim, if_neg (by decide), if_pos (by simp), if_pos isHeaderLine_headerText]

section Newlines

lemma not_mem_decimal (n : ℕ) : 0x0A ∉ decimal n := by
  intro hmem
  have hsolid := isDigit_decimal 0x0A hmem
  cases hsolid

lemma not_mem_twoDigits (n : ℕ) : 0x0A ∉ twoDigits n := by
  intro hmem
  have hsolid := isDigit_twoDigits n 0x0A hmem
  cases hsolid

lemma MemoryFigure.no_newline (figure : MemoryFigure) : 0x0A ∉ figure.text := by
  have hnumber : 0x0A ∉ figure.number := by
    intro hmem
    rcases figure.mem_number 0x0A hmem with h | h
    · cases h
    · cases h
  have hscale : 0x0A ∉ figure.unit.scale := by cases figure.unit <;> decide
  simp [MemoryFigure.text, hnumber, hscale]

lemma Context.no_newline (c : Context) : 0x0A ∉ c.row := by
  have hstat : 0x0A ∉ c.statText := by
    unfold Context.statText
    cases c.memory <;> cases c.sched <;> cases c.onCpu <;> decide
  have hcpu : 0x0A ∉ c.cpuText := by
    unfold Context.cpuText
    cases c.cpu with
    | none => decide
    | some n => exact not_mem_decimal n
  simp [Context.row, Context.rowWith, column, padded, Context.timeText, not_mem_decimal,
    not_mem_twoDigits, MemoryFigure.no_newline, hstat, hcpu, c.affinity_no_newline,
    c.name_no_newline]

lemma lines_contextText (contexts : List Context) :
    lines 0x0A (contextText contexts) = headerText :: contexts.map Context.row := by
  have hlines : ∀ line ∈ headerText :: contexts.map Context.row, 0x0A ∉ line := by
    intro line hline
    rcases List.mem_cons.mp hline with rfl | hrow
    · decide
    · obtain ⟨c, -, rfl⟩ := List.mem_map.mp hrow
      exact c.no_newline
  exact lines_flatMap_sep hlines

end Newlines

/-- The table is read as the merged list of its entries. -/
theorem parseSysContext_contextText (contexts : List Context) :
    parseSysContext (contextText contexts) =
      if contexts ≠ [] ∧ ∀ c ∈ contexts, c.HasAffinity then
        .ok ((sortByPid (contexts.map Context.entry)).foldl mergeEntry [])
      else fail .malformedData := by
  have hrows := @foldlM_guard _ _ _ _ (fun st c => contextLine st c.row)
    (fun raw => TableState.mk true raw) _ _ _ _ contextLine_row contexts []
  unfold parseSysContext
  rw [lines_contextText, List.foldlM_cons, contextLine_header, ok_bind, List.foldlM_map, hrows]
  by_cases hall : ∀ c ∈ contexts, c.HasAffinity
  · rw [if_pos hall, ok_bind, List.nil_append]
    dsimp only
    by_cases hne : contexts = []
    · rw [if_pos (by simp [hne]), if_neg fun h => h.1 hne]
    · rw [if_neg (by simp [hne]), if_pos ⟨hne, hall⟩]
  · rw [if_neg hall, if_neg fun h => hall h.2]
    rfl

end Reading

section Processes
variable {contexts : List Context}

lemma plain_entry : ∀ a ∈ contexts.map Context.entry, Plain a := by
  intro a ha
  obtain ⟨c, -, rfl⟩ := List.mem_map.mp ha
  rfl

/-- The merged list of the contexts. -/
lemma merged_contexts (contexts : List Context) : Merged (contexts.map Context.entry)
    ((sortByPid (contexts.map Context.entry)).foldl mergeEntry []) := by
  have hperm : (sortByPid (contexts.map Context.entry)).Perm (contexts.map Context.entry) :=
    List.mergeSort_perm _ _
  have hsorted : (sortByPid (contexts.map Context.entry)).Pairwise fun a b => a.pid ≤ b.pid := by
    have h := @List.pairwise_mergeSort _ (fun a b : ProcessEntry => decide (a.pid ≤ b.pid))
      (by simp; omega) (by simp; omega) (contexts.map Context.entry)
    exact h.imp fun hle => of_decide_eq_true hle
  have hmerged := merged_foldl hsorted fun a ha => plain_entry a (hperm.mem_iff.mp ha)
  exact ⟨hmerged.ascending, fun e he => hperm.mem_iff.mp (hmerged.sound e he),
    fun a ha => hmerged.highest a (hperm.mem_iff.mpr ha)⟩

/-- One entry for each process, in ascending order, with the state of the highest priority. -/
structure IsProcessList (contexts : List Context) (list : List ProcessEntry) : Prop where
  ascending : list.Pairwise fun a b => a.pid < b.pid
  pids : ∀ pid, (∃ e ∈ list, e.pid = pid) ↔ ∃ c ∈ contexts, c.pid.toNat = pid
  entry : ∀ e ∈ list, ∃ c ∈ contexts, c.entry = e
  highest : ∀ e ∈ list, ∀ c ∈ contexts, c.pid.toNat = e.pid →
    processStatePriority c.state ≤ processStatePriority e.state

lemma Merged.isProcessList {list : List ProcessEntry}
    (h : Merged (contexts.map Context.entry) list) : IsProcessList contexts list := by
  have hentry : ∀ e ∈ list, ∃ c ∈ contexts, c.entry = e :=
    fun e he => List.mem_map.mp (h.sound e he)
  refine ⟨h.ascending, fun pid => ⟨?_, ?_⟩, hentry, ?_⟩
  · rintro ⟨e, he, rfl⟩
    obtain ⟨c, hc, rfl⟩ := hentry e he
    exact ⟨c, hc, rfl⟩
  · rintro ⟨c, hc, rfl⟩
    obtain ⟨e, he, hpid, -⟩ := h.highest c.entry (List.mem_map_of_mem hc)
    exact ⟨e, he, hpid⟩
  · intro e he c hc hpid
    obtain ⟨e', he', hpid', hle⟩ := h.highest c.entry (List.mem_map_of_mem hc)
    rwa [StdSort.eq_of_key_eq h.ascending he' he (hpid'.trans hpid)] at hle

/-- A table is read as the list of its processes just when it has a row and something is seen of
each affinity; and the order of the rows does not matter. -/
theorem parse_sys_context (contexts : List Context) :
    ((∃ list, parseSysContext (contextText contexts) = .ok list ∧ IsProcessList contexts list) ↔
      contexts ≠ [] ∧ ∀ c ∈ contexts, c.HasAffinity) ∧
    ∀ rows, rows.Perm contexts →
      parseSysContext (contextText rows) = parseSysContext (contextText contexts) := by
  constructor
  · rw [parseSysContext_contextText]
    by_cases h : contexts ≠ [] ∧ ∀ c ∈ contexts, c.HasAffinity
    · rw [if_pos h]
      exact iff_of_true ⟨_, rfl, (merged_contexts contexts).isProcessList⟩ h
    · rw [if_neg h]
      refine iff_of_false ?_ h
      rintro ⟨list, hfail, -⟩
      cases hfail
  · intro rows hperm
    have hcond : (rows ≠ [] ∧ ∀ c ∈ rows, c.HasAffinity) ↔
        contexts ≠ [] ∧ ∀ c ∈ contexts, c.HasAffinity := by
      have hnil : rows = [] ↔ contexts = [] := by
        rw [← List.length_eq_zero_iff, hperm.length_eq, List.length_eq_zero_iff]
      exact and_congr (not_congr hnil) (forall_congr' fun c => by rw [hperm.mem_iff])
    have hentries : (rows.map Context.entry).Perm (contexts.map Context.entry) := hperm.map _
    have hrows := merged_contexts rows
    have hmerged : Merged (contexts.map Context.entry)
        ((sortByPid (rows.map Context.entry)).foldl mergeEntry []) :=
      ⟨hrows.ascending, fun e he => hentries.mem_iff.mp (hrows.sound e he),
        fun a ha => hrows.highest a (hentries.mem_iff.mpr ha)⟩
    have hlist := hmerged.unique (merged_contexts contexts) plain_entry
    rw [parseSysContext_contextText, parseSysContext_contextText, hlist]
    exact if_congr hcond rfl rfl

/-- A context that ran for one second. -/
def quietContext (affinity : List UInt8) (hcolon : 0x3A ∉ affinity) (hnewline : 0x0A ∉ affinity) :
    Context where
  pid := 1
  euid := 0
  egid := 0
  memory := .user
  sched := .blocked
  onCpu := false
  cpu := some 0
  affinity := affinity
  affinity_no_colon := hcolon
  affinity_no_newline := hnewline
  hours := 0
  minutes := 0
  seconds := 1
  hundredths := 0
  priv := ⟨⟨ascii "100", by decide, forall_of_all (by decide)⟩, none, .kb⟩
  shared := ⟨.zero, none, .b⟩
  name := ascii "init"
  name_no_newline := by decide

/-- Without an affinity, the row of an ordinary context is malformed. -/
theorem parse_sys_context_affinity :
    parseSysContext (contextText [quietContext [] (by simp) (by simp)]) = fail .malformedData := by
  rw [parseSysContext_contextText, if_neg]
  rintro ⟨-, hall⟩
  have hseen := hall _ (List.mem_singleton.mpr rfl)
  exact absurd hseen (by decide)

end Processes

end Syscape.Redox
