import Mathlib.Data.List.Basic
import Mathlib.Tactic.Common

/-!
# Splitting a stream at a separator

A text is cut into the pieces that a separator ends and the rest behind the last
separator. A reader that gets the text in parts keeps the rest of what it has seen
and cuts again when the next part arrives.
-/
namespace Lines
variable {α : Type*} [DecidableEq α] (sep : α)

/-- The pieces that are ended by a separator, without it. -/
def complete (text : List α) : List (List α) := (text.splitOn sep).dropLast

/-- What follows the last separator. -/
def rest (text : List α) : List α := (text.splitOn sep).getLast (by simp)

variable {sep}

theorem splitOn_eq (text : List α) : text.splitOn sep = complete sep text ++ [rest sep text] :=
  (List.dropLast_append_getLast _).symm

theorem complete_of_not_mem {text : List α} (h : sep ∉ text) : complete sep text = [] := by
  simp [complete, List.splitOn_eq_singleton h]

theorem rest_of_not_mem {text : List α} (h : sep ∉ text) : rest sep text = text := by
  simp [rest, List.splitOn_eq_singleton h]

/-- Splitting the text in front of a separator and the text behind it. -/
theorem complete_append_sep (text more : List α) :
    complete sep (text ++ sep :: more) =
      complete sep text ++ rest sep text :: complete sep more := by
  unfold complete
  rw [List.splitOn_append_cons_self, List.dropLast_append_of_ne_nil (by simp), splitOn_eq text]
  simp [complete]

theorem rest_append_sep (text more : List α) :
    rest sep (text ++ sep :: more) = rest sep more := by
  unfold rest
  simp only [List.splitOn_append_cons_self]
  rw [List.getLast_append_of_ne_nil _ (by simp)]

/-- Every text without its rest is empty or ends in a separator. -/
theorem eq_rest_or_append (text : List α) :
    sep ∉ text ∨ ∃ before, text = before ++ sep :: rest sep text ∧ sep ∉ rest sep text := by
  induction hn : text.length using Nat.strongRecOn generalizing text with
  | ind n ih =>
    by_cases hmem : sep ∈ text
    · obtain ⟨before, more, rfl⟩ := List.append_of_mem hmem
      right
      rw [rest_append_sep]
      rcases ih more.length (by simp [← hn]; omega) more rfl with h | ⟨before', h, hrest⟩
      · rw [rest_of_not_mem h]
        exact ⟨before, rfl, h⟩
      · refine ⟨before ++ sep :: before', ?_, hrest⟩
        rw [List.append_assoc, List.cons_append, ← h]
    · exact .inl hmem

theorem not_mem_rest (text : List α) : sep ∉ rest sep text := by
  rcases eq_rest_or_append text with h | ⟨-, -, h⟩
  · rwa [rest_of_not_mem h]
  · exact h

/-- The pieces of a longer text: those of the first part, then those of its rest
together with the second part. -/
theorem complete_append (text more : List α) :
    complete sep (text ++ more) = complete sep text ++ complete sep (rest sep text ++ more) := by
  rcases eq_rest_or_append text with h | ⟨before, htext, -⟩
  · rw [complete_of_not_mem h, rest_of_not_mem h, List.nil_append]
  · have hcomplete : complete sep text =
        complete sep before ++ rest sep before :: complete sep (rest sep text) := by
      rw [← complete_append_sep, ← htext]
    rw [complete_of_not_mem (not_mem_rest text)] at hcomplete
    conv_lhs => rw [htext, List.append_assoc, List.cons_append, complete_append_sep]
    rw [hcomplete, List.append_assoc]
    rfl

/-- Pieces that are written with their separators are complete, and nothing is left. -/
theorem complete_flatMap {pieces : List (List α)} (h : ∀ piece ∈ pieces, sep ∉ piece) :
    complete sep (pieces.flatMap (· ++ [sep])) = pieces ∧
      rest sep (pieces.flatMap (· ++ [sep])) = [] := by
  induction pieces with
  | nil => exact ⟨complete_of_not_mem (by simp), rest_of_not_mem (by simp)⟩
  | cons piece pieces ih =>
    obtain ⟨hcomplete, hrest⟩ := ih fun p hp => h p (by simp [hp])
    have hpiece := h piece (by simp)
    rw [List.flatMap_cons, List.append_assoc, List.singleton_append]
    constructor
    · rw [complete_append_sep, complete_of_not_mem hpiece, rest_of_not_mem hpiece, hcomplete,
        List.nil_append]
    · rw [rest_append_sep, hrest]

/-- Every text is its pieces with their separators and the rest. -/
theorem flatMap_complete (sep : α) (text : List α) :
    (complete sep text).flatMap (· ++ [sep]) ++ rest sep text = text := by
  induction hn : text.length using Nat.strongRecOn generalizing text with
  | ind n ih =>
    by_cases hmem : sep ∈ text
    · obtain ⟨piece, more, rfl, hpiece⟩ := List.eq_append_cons_of_mem hmem
      have hmore := ih more.length (by simp [← hn]; omega) more rfl
      rw [complete_append_sep, rest_append_sep, complete_of_not_mem hpiece,
        rest_of_not_mem hpiece, List.nil_append, List.flatMap_cons, List.append_assoc, hmore,
        List.append_assoc, List.singleton_append]
    · rw [complete_of_not_mem hmem, rest_of_not_mem hmem, List.flatMap_nil, List.nil_append]

omit [DecidableEq α] in
/-- A text without the separator stands on one of its two sides. -/
theorem infix_append_cons_iff {needle a b : List α} (h : sep ∉ needle) :
    needle <:+: a ++ sep :: b ↔ needle <:+: a ∨ needle <:+: b := by
  constructor
  · intro ⟨front, back, htext⟩
    obtain ⟨mid, ha, _⟩ | ⟨mid, hfront, hb⟩ := List.append_eq_append_iff.mp htext
    · exact .inl ⟨front, mid, ha.symm⟩
    · cases mid with
      | nil => exact .inl ⟨front, [], by rw [List.append_nil, hfront, List.append_nil]⟩
      | cons c mid =>
        obtain ⟨rfl, rfl⟩ := List.cons.inj hb
        obtain ⟨rest, _, hneedle⟩ | ⟨rest, _, hrest⟩ := List.append_eq_append_iff.mp hfront
        · exact (h (by rw [hneedle]; simp)).elim
        · cases rest with
          | nil =>
            rw [List.nil_append] at hrest
            exact (h (by rw [← hrest]; simp)).elim
          | cons d rest =>
            obtain ⟨_, rfl⟩ := List.cons.inj hrest
            exact .inr ⟨rest, back, rfl⟩
  · intro hside
    obtain ha | hb := hside
    · exact ha.trans (List.prefix_append _ _).isInfix
    · exact hb.trans ((List.suffix_cons _ _).trans (List.suffix_append _ _)).isInfix

omit [DecidableEq α] in
/-- What is joined consists of the separators and the pieces. -/
theorem mem_intercalate {a : α} {pieces : List (List α)} (h : a ∈ [sep].intercalate pieces) :
    a = sep ∨ ∃ piece ∈ pieces, a ∈ piece := by
  induction pieces with
  | nil => cases h
  | cons piece pieces ih =>
    cases pieces with
    | nil => exact .inr ⟨piece, by simp, by simpa using h⟩
    | cons next pieces =>
      rw [List.intercalate_cons_cons, List.append_assoc, List.mem_append, List.mem_append,
        List.mem_singleton] at h
      obtain h | h | h := h
      · exact .inr ⟨piece, by simp, h⟩
      · exact .inl h
      · obtain h | ⟨p, hp, ha⟩ := ih h
        · exact .inl h
        · exact .inr ⟨p, by simp [hp], ha⟩

omit [DecidableEq α] in
/-- What is joined ends as one of the pieces does. -/
theorem getLast?_intercalate {pieces : List (List α)} (h : ∀ piece ∈ pieces, piece ≠ []) :
    ∀ a ∈ ([sep].intercalate pieces).getLast?, ∃ piece ∈ pieces, a ∈ piece.getLast? := by
  induction pieces with
  | nil => simp
  | cons piece pieces ih =>
    rw [List.forall_mem_cons] at h
    cases pieces with
    | nil => simp
    | cons next pieces =>
      intro a ha
      have hne : [sep].intercalate (next :: pieces) ≠ [] := by
        cases pieces with
        | nil => simpa using h.2 next
        | cons more pieces => simp [List.intercalate_cons_cons]
      rw [List.intercalate_cons_cons, List.getLast?_append_of_ne_nil _ hne] at ha
      obtain ⟨p, hp, hlast⟩ := ih h.2 a ha
      exact ⟨p, by simp [hp], hlast⟩

omit [DecidableEq α] in
theorem flatMap_eq_intercalate {pieces : List (List α)} (h : pieces ≠ []) :
    pieces.flatMap (· ++ [sep]) = [sep].intercalate pieces ++ [sep] := by
  induction pieces with
  | nil => exact absurd rfl h
  | cons line pieces ih =>
    cases pieces with
    | nil => simp
    | cons next pieces =>
      rw [List.flatMap_cons, ih (by simp), List.intercalate_cons_cons]
      simp

/-- Nothing is left of a text that ends in a separator. -/
theorem rest_eq_nil_iff {text : List α} (h : text ≠ []) :
    rest sep text = [] ↔ text.getLast? = some sep := by
  constructor
  · intro hrest
    have htext := flatMap_complete sep text
    rw [hrest, List.append_nil] at htext
    have hne : complete sep text ≠ [] := by
      intro hnil
      rw [hnil, List.flatMap_nil] at htext
      exact h htext.symm
    rw [← htext, flatMap_eq_intercalate hne, List.getLast?_concat]
  · intro hlast
    obtain ⟨before, rfl⟩ := List.getLast?_eq_some_iff.mp hlast
    rw [rest_append_sep, rest_of_not_mem (by simp)]

section Reading

/-- The pieces that a reader sees which takes what is in front of each separator until
nothing is left. -/
def lines (sep : α) (text : List α) : List (List α) :=
  complete sep text ++ if rest sep text = [] then [] else [rest sep text]

@[simp] theorem lines_nil : lines sep [] = [] := by
  simp [lines, complete_of_not_mem, rest_of_not_mem]

theorem lines_of_not_mem {text : List α} (h : sep ∉ text) (hne : text ≠ []) :
    lines sep text = [text] := by
  rw [lines, complete_of_not_mem h, rest_of_not_mem h, if_neg hne, List.nil_append]

/-- The first line, and what the reader sees behind it. -/
theorem lines_append_sep {line : List α} (h : sep ∉ line) (more : List α) :
    lines sep (line ++ sep :: more) = line :: lines sep more := by
  rw [lines, complete_append_sep, rest_append_sep, complete_of_not_mem h, rest_of_not_mem h,
    List.nil_append, List.cons_append, lines]

/-- Lines that are written with their separators are seen as they are. -/
theorem lines_flatMap {pieces : List (List α)} (h : ∀ line ∈ pieces, sep ∉ line)
    (more : List α) :
    lines sep (pieces.flatMap (· ++ [sep]) ++ more) = pieces ++ lines sep more := by
  induction pieces with
  | nil => rfl
  | cons line pieces ih =>
    rw [List.flatMap_cons, List.append_assoc, List.append_assoc, List.singleton_append,
      lines_append_sep (h line (by simp)), ih fun l hl => h l (by simp [hl]), List.cons_append]

/-- A text whose last line is written with its separator, too. -/
theorem lines_flatMap_sep {pieces : List (List α)} (h : ∀ line ∈ pieces, sep ∉ line) :
    lines sep (pieces.flatMap (· ++ [sep])) = pieces := by
  have hlines := lines_flatMap h []
  rwa [List.append_nil, lines_nil, List.append_nil] at hlines

/-- The lines in front of a separator, and those behind it. -/
theorem lines_append_sep_append (text more : List α) :
    lines sep (text ++ sep :: more) = complete sep text ++ rest sep text :: lines sep more := by
  rw [lines, complete_append_sep, rest_append_sep, List.append_assoc, List.cons_append, lines]

/-- A text that ends in a separator does not share a line with what follows it. -/
theorem lines_append {text : List α} (h : ∀ c ∈ text.getLast?, c = sep) (more : List α) :
    lines sep (text ++ more) = lines sep text ++ lines sep more := by
  rcases List.eq_nil_or_concat text with rfl | ⟨before, c, rfl⟩
  · rw [List.nil_append, lines_nil, List.nil_append]
  · obtain rfl : c = sep := h c (by simp)
    rw [List.concat_eq_append, List.append_assoc, List.singleton_append, lines_append_sep_append,
      lines_append_sep_append, lines_nil, List.append_assoc, List.cons_append, List.nil_append]

/-- The first line of a text begins like the text. -/
theorem exists_lines_cons {c : α} (hc : c ≠ sep) (text : List α) :
    ∃ line more, lines sep (c :: text) = (c :: line) :: more := by
  by_cases hmem : sep ∈ c :: text
  · obtain ⟨line, more, hline, hnot⟩ := List.eq_append_cons_of_mem hmem
    cases line with
    | nil => exact absurd (List.cons.inj hline).1 hc
    | cons d line =>
      obtain ⟨rfl, htext⟩ := List.cons.inj hline
      rw [hline]
      exact ⟨line, lines sep more, lines_append_sep hnot more⟩
  · exact ⟨text, [], lines_of_not_mem hmem (by simp)⟩

/-- A line has no separator inside. -/
theorem not_mem_of_mem_lines {text line : List α} (h : line ∈ lines sep text) : sep ∉ line := by
  induction hn : text.length using Nat.strongRecOn generalizing text with
  | ind n ih =>
    by_cases hmem : sep ∈ text
    · obtain ⟨first, more, rfl, hfirst⟩ := List.eq_append_cons_of_mem hmem
      rw [lines_append_sep hfirst, List.mem_cons] at h
      rcases h with rfl | h
      · exact hfirst
      · exact ih more.length (by simp [← hn]; omega) h rfl
    · by_cases hnil : text = []
      · rw [hnil, lines_nil] at h
        cases h
      · rw [lines_of_not_mem hmem hnil] at h
        rwa [List.mem_singleton.mp h]

/-- The lines have all of a text but the separators. -/
theorem exists_mem_lines_iff {a : α} {text : List α} :
    (∃ line ∈ lines sep text, a ∈ line) ↔ a ∈ text ∧ a ≠ sep := by
  constructor
  · rintro ⟨line, hline, ha⟩
    have hsep : a ≠ sep := by
      rintro rfl
      exact not_mem_of_mem_lines hline ha
    refine ⟨?_, hsep⟩
    rw [← flatMap_complete sep text, List.mem_append, List.mem_flatMap]
    rcases List.mem_append.mp hline with hcomplete | hrest
    · exact .inl ⟨line, hcomplete, List.mem_append_left _ ha⟩
    · split_ifs at hrest with hnil
      · cases hrest
      · exact .inr (List.mem_singleton.mp hrest ▸ ha)
  · rintro ⟨ha, hsep⟩
    rw [← flatMap_complete sep text, List.mem_append, List.mem_flatMap] at ha
    rcases ha with ⟨line, hline, ha⟩ | ha
    · refine ⟨line, List.mem_append_left _ hline, ?_⟩
      simpa [hsep] using ha
    · refine ⟨rest sep text, List.mem_append_right _ ?_, ha⟩
      rw [if_neg (List.ne_nil_of_mem ha)]
      exact List.mem_singleton_self _

/-- The separator behind the last line can be left out, unless the line is empty. -/
theorem lines_intercalate {pieces : List (List α)} (h : ∀ line ∈ pieces, sep ∉ line)
    (hne : ∀ line ∈ pieces, line ≠ []) : lines sep ([sep].intercalate pieces) = pieces := by
  induction pieces with
  | nil => exact lines_nil
  | cons line pieces ih =>
    cases pieces with
    | nil =>
      rw [List.intercalate_singleton, lines_of_not_mem (h line (by simp)) (hne line (by simp))]
    | cons next pieces =>
      rw [List.intercalate_cons_cons, List.append_assoc, List.singleton_append,
        lines_append_sep (h line (by simp)), ih (fun l hl => h l (by simp [hl])) fun l hl =>
          hne l (by simp [hl])]

/-- Lines that are not empty are seen as they are, with or without the last separator. -/
theorem lines_written {pieces : List (List α)} (h : ∀ line ∈ pieces, sep ∉ line ∧ line ≠ [])
    (terminated : Bool) :
    lines sep (if terminated then pieces.flatMap (· ++ [sep]) else [sep].intercalate pieces) =
      pieces := by
  split_ifs
  · exact lines_flatMap_sep fun line hline => (h line hline).1
  · exact lines_intercalate (fun line hline => (h line hline).1) fun line hline => (h line hline).2

/-- The empty line behind the last separator is none, which matters for no line that counts. -/
theorem filter_lines {p : List α → Bool} (h : p [] = false) (text : List α) :
    (lines sep text).filter p = (text.splitOn sep).filter p := by
  rw [lines, splitOn_eq, List.filter_append, List.filter_append]
  split_ifs with hrest
  · simp [hrest, h]
  · rfl

/-- Lines that are written one after the other, and empty lines where they do not count. -/
theorem filter_lines_written {p : List α → Bool} (hp : p [] = false) {pieces : List (List α)}
    (h : ∀ line ∈ pieces, sep ∉ line) (terminated : Bool) :
    (lines sep (if terminated then pieces.flatMap (· ++ [sep]) else [sep].intercalate pieces)).filter
      p = pieces.filter p := by
  cases terminated with
  | true => rw [if_pos rfl, lines_flatMap_sep h]
  | false =>
    rw [if_neg (by decide)]
    cases pieces with
    | nil => simp
    | cons piece pieces => rw [filter_lines hp, List.splitOn_intercalate sep h (by simp)]

end Reading

end Lines
