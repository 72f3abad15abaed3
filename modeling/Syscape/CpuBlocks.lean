import Syscape.CpuFrequencies
import Syscape.Lib.Paths

/-!
# Processor blocks in `/proc/cpuinfo`

The text has a block of lines for each processor, which may or may not have a line with the
frequency. What the reader says is to depend on all blocks together: the frequencies, that
there are none, or that some of them are missing.
-/
namespace Syscape.Cpu
open Checked Text Lines FromChars DigitRuns Paths

section Blocks

/-- A line with a colon, and blanks around what is on both sides of it. -/
def Field (key value line : List UInt8) : Prop :=
  ∃ before behind, line = before ++ 0x3A :: behind ∧ 0x3A ∉ before ∧
    trimCpuField before = key ∧ trimCpuField behind = value

/-- A line that says nothing about processors and frequencies. -/
def Other (line : List UInt8) : Prop :=
  ∀ value, ¬ Field (ascii "processor") value line ∧ ¬ Field (ascii "cpu MHz") value line

/-- A line with a frequency of 32 bits. -/
structure FrequencyField where
  line : List UInt8
  decimal : DecimalText
  field : Field (ascii "cpu MHz") decimal.text line
  few_digits : decimal.fractionDigits.length < 2 ^ 32
  pos : 0 < decimal.kilohertz
  le : decimal.kilohertz ≤ uint32Max

/-- The lines of one processor. -/
structure CpuBlock where
  processor : List UInt8
  index : DigitRun
  field : Field (ascii "processor") index.digits processor
  index_le : index.number ≤ uint32Max
  front : List (List UInt8)
  frequency : Option FrequencyField
  back : List (List UInt8)
  other_front : ∀ line ∈ front, Other line
  other_back : ∀ line ∈ back, Other line

def CpuBlock.lines (block : CpuBlock) : List (List UInt8) :=
  block.processor ::
    (block.front ++ ((block.frequency.map FrequencyField.line).toList ++ block.back))

/-- The frequency of the block in kilohertz. -/
def CpuBlock.kilohertz (block : CpuBlock) : Option ℕ :=
  block.frequency.map fun field => field.decimal.kilohertz.toNat

/-- What the reader is to say about so many blocks: frequencies for all of them, that no
frequencies are supported, or that the text is malformed. -/
structure Promised (blocks : List CpuBlock) (outcome : Result (List ℕ)) : Prop where
  all : (∀ block ∈ blocks, block.kilohertz ≠ none) →
    outcome = .ok (blocks.filterMap CpuBlock.kilohertz)
  without : (∀ block ∈ blocks, block.kilohertz = none) → outcome = fail .notSupported
  mixed : (∃ block ∈ blocks, block.kilohertz ≠ none) → (∃ block ∈ blocks, block.kilohertz = none) →
    outcome = fail .malformedData

end Blocks

section Lines

/-- A line with another key. -/
theorem other_of_key {before behind : List UInt8} (hcolon : 0x3A ∉ before)
    (hprocessor : trimCpuField before ≠ ascii "processor")
    (hfrequency : trimCpuField before ≠ ascii "cpu MHz") : Other (before ++ 0x3A :: behind) := by
  have hbefore : ∀ {key value : List UInt8}, Field key value (before ++ 0x3A :: behind) →
      trimCpuField before = key := by
    rintro key value ⟨before', behind', hline, hcolon', rfl, -⟩
    have hlength := congrArg (·.idxOf? 0x3A) hline
    simp only [idxOf?_append_cons hcolon, idxOf?_append_cons hcolon', Option.some_inj] at hlength
    rw [(List.append_inj hline hlength).1]
  exact fun value => ⟨fun h => hprocessor (hbefore h), fun h => hfrequency (hbefore h)⟩

end Lines

section Steps
variable {line value : List UInt8} {st : BlockState} {block : CpuBlock} {blocks : List CpuBlock}

/-- What a line with a colon does. -/
lemma frequencyLine_field {key : List UInt8} (h : Field key value line) :
    frequencyLine st line =
      if key ≠ ascii "processor" ∧ key ≠ ascii "cpu MHz" then .ok st
      else if key = ascii "processor" then
        if ¬ isIndex value then fail .malformedData
        else if st.pendingBlock then fail .malformedData
        else .ok { st with blocks := st.blocks + 1, pendingBlock := true }
      else if ¬ st.pendingBlock then fail .malformedData
      else parseMhzText value >>= fun frequency =>
        .ok { st with values := st.values ++ [frequency], pendingBlock := false } := by
  obtain ⟨before, behind, rfl, hcolon, rfl, rfl⟩ := h
  unfold frequencyLine
  rw [idxOf?_append_cons hcolon]
  have hbehind : (before ++ 0x3A :: behind).drop (before.length + 1) = behind := by
    rw [List.append_cons, List.drop_left' (by simp)]
  simp only [List.take_left, hbehind]

lemma frequencyLine_other (h : Other line) : frequencyLine st line = .ok st := by
  by_cases hcolon : 0x3A ∈ line
  · obtain ⟨before, behind, hline, hbefore⟩ := List.eq_append_cons_of_mem hcolon
    have hfield : Field (trimCpuField before) (trimCpuField behind) line :=
      ⟨before, behind, hline, hbefore, rfl, rfl⟩
    obtain ⟨hprocessor, hfrequency⟩ := h (trimCpuField behind)
    rw [frequencyLine_field hfield, if_pos]
    constructor
    · intro hkey
      exact hprocessor (hkey ▸ hfield)
    · intro hkey
      exact hfrequency (hkey ▸ hfield)
  · unfold frequencyLine
    rw [List.idxOf?_eq_none_iff.mpr hcolon]

lemma foldlM_other {others : List (List UInt8)} (h : ∀ line ∈ others, Other line) :
    others.foldlM frequencyLine st = .ok st := by
  induction others with
  | nil => rfl
  | cons line others ih =>
    rw [List.forall_mem_cons] at h
    rw [List.foldlM_cons, frequencyLine_other h.1, ok_bind, ih h.2]

/-- The first line of a block, behind a block without a frequency or not. -/
lemma frequencyLine_processor (block : CpuBlock) (st : BlockState) :
    frequencyLine st block.processor = if st.pendingBlock then fail .malformedData
      else .ok { st with blocks := st.blocks + 1, pendingBlock := true } := by
  have hindex : isIndex block.index.digits = true := by
    simp [isIndex, block.index.numeral.fromChars, block.index_le, block.index.ne_nil]
  rw [frequencyLine_field block.field, if_neg (by simp), if_pos rfl, hindex, if_neg (by simp)]

lemma frequencyLine_frequency (field : FrequencyField) (h : st.pendingBlock = true) :
    frequencyLine st field.line = .ok { st with
      values := st.values ++ [field.decimal.kilohertz.toNat]
      pendingBlock := false } := by
  have hpos := field.pos
  have hle := field.le
  have htrim : trimCpuField field.decimal.text = field.decimal.text :=
    padded_iff.mp ⟨[], [], by simp, by simp, by simp⟩
  have hfrequency : parseMhzText field.decimal.text = .ok field.decimal.kilohertz.toNat := by
    rw [parseMhzText_decimal htrim field.few_digits, frequencyOf, if_neg (by omega),
      if_neg (by omega)]
  rw [frequencyLine_field field.field, if_neg (by decide), if_neg (by decide), if_neg (by simp [h]),
    hfrequency, ok_bind]

/-- What the reader knows behind a block. -/
def afterBlock (st : BlockState) (block : CpuBlock) : BlockState where
  values := st.values ++ block.kilohertz.toList
  blocks := st.blocks + 1
  pendingBlock := block.kilohertz.isNone

lemma foldlM_block (block : CpuBlock) (st : BlockState) :
    block.lines.foldlM frequencyLine st =
      if st.pendingBlock then fail .malformedData else .ok (afterBlock st block) := by
  rw [CpuBlock.lines, List.foldlM_cons, frequencyLine_processor]
  split_ifs with hpending
  · rfl
  · rw [ok_bind, List.foldlM_append, foldlM_other block.other_front, ok_bind, List.foldlM_append]
    unfold afterBlock CpuBlock.kilohertz
    cases block.frequency with
    | none =>
      rw [Option.map_none, Option.toList_none, List.foldlM_nil, pure_eq_ok, ok_bind,
        foldlM_other block.other_back]
      simp
    | some field =>
      rw [Option.map_some, Option.toList_some, List.foldlM_cons, frequencyLine_frequency field rfl,
        ok_bind, List.foldlM_nil, pure_eq_ok, ok_bind, foldlM_other block.other_back]
      simp

/-- Blocks with frequencies. -/
lemma foldlM_blocks (h : ∀ block ∈ blocks, block.kilohertz ≠ none) (hst : st.pendingBlock = false) :
    (blocks.flatMap CpuBlock.lines).foldlM frequencyLine st = .ok {
      values := st.values ++ blocks.filterMap CpuBlock.kilohertz
      blocks := st.blocks + blocks.length
      pendingBlock := false } := by
  induction blocks generalizing st with
  | nil =>
    obtain ⟨values, count, pending⟩ := st
    cases hst
    simp
  | cons block blocks ih =>
    rw [List.forall_mem_cons] at h
    obtain ⟨frequency, hfrequency⟩ := Option.ne_none_iff_exists'.mp h.1
    rw [List.flatMap_cons, List.foldlM_append, foldlM_block, if_neg (by simp [hst]), ok_bind,
      ih h.2 (by simp [afterBlock, hfrequency]), List.filterMap_cons_some hfrequency]
    simp only [afterBlock, hfrequency, Option.toList_some, List.append_assoc, List.cons_append,
      List.nil_append, List.length_cons]
    congr 2
    omega

end Steps

section Outcome
variable {text : List UInt8} {blocks : List CpuBlock}

theorem parseCpuinfoFrequencies_of_all (hne : blocks ≠ [])
    (htext : lines 0x0A text = blocks.flatMap CpuBlock.lines)
    (h : ∀ block ∈ blocks, block.kilohertz ≠ none) :
    parseCpuinfoFrequencies text = .ok (blocks.filterMap CpuBlock.kilohertz) := by
  have hlength : (blocks.filterMap CpuBlock.kilohertz).length = blocks.length := by
    rw [List.filterMap_length_eq_length]
    exact fun block hblock => Option.isSome_iff_ne_none.mpr (h block hblock)
  have hpos := List.length_pos_iff.mpr hne
  unfold parseCpuinfoFrequencies
  rw [htext, foldlM_blocks h rfl, ok_bind]
  simp only [List.nil_append, Nat.zero_add, hlength]
  rw [if_neg (by omega), if_neg, if_neg (by simp)]
  intro hnil
  rw [hnil] at hlength
  exact hne (List.length_eq_zero_iff.mp hlength.symm)

/-- The first block without a frequency decides: it may be the only block. -/
theorem parseCpuinfoFrequencies_of_none {before behind : List CpuBlock} {block : CpuBlock}
    (htext : lines 0x0A text = (before ++ block :: behind).flatMap CpuBlock.lines)
    (hbefore : ∀ block ∈ before, block.kilohertz ≠ none) (hblock : block.kilohertz = none) :
    parseCpuinfoFrequencies text =
      if before ++ behind = [] then fail .notSupported else fail .malformedData := by
  unfold parseCpuinfoFrequencies
  rw [htext, List.flatMap_append, List.flatMap_cons, List.foldlM_append, foldlM_blocks hbefore rfl,
    ok_bind, List.foldlM_append, foldlM_block, if_neg (by simp), ok_bind]
  cases behind with
  | cons next behind =>
    rw [List.flatMap_cons, List.foldlM_append, foldlM_block, if_pos (by simp [afterBlock, hblock]),
      if_neg (by simp)]
    rfl
  | nil =>
    have hlength : (before.filterMap CpuBlock.kilohertz).length = before.length := by
      rw [List.filterMap_length_eq_length]
      exact fun block hblock => Option.isSome_iff_ne_none.mpr (hbefore block hblock)
    rw [List.flatMap_nil, List.foldlM_nil, pure_eq_ok, ok_bind, List.append_nil]
    simp only [afterBlock, hblock, List.nil_append, Option.toList_none, List.append_nil, hlength,
      Nat.zero_add]
    have hnil : before.filterMap CpuBlock.kilohertz = [] ↔ before = [] := by
      rw [← List.length_eq_zero_iff, hlength, List.length_eq_zero_iff]
    rw [if_neg (Nat.succ_ne_zero _)]
    simp only [hnil]
    by_cases hone : before = []
    · rw [if_pos hone, if_pos hone]
    · rw [if_neg hone, if_neg hone, if_pos (by omega)]

/-- Unless all blocks have a frequency, there is a first one that has none. -/
lemma exists_first_none (h : ¬ ∀ block ∈ blocks, block.kilohertz ≠ none) :
    ∃ before block behind, blocks = before ++ block :: behind ∧
      (∀ block ∈ before, block.kilohertz ≠ none) ∧ block.kilohertz = none := by
  induction blocks with
  | nil => simp at h
  | cons first blocks ih =>
    by_cases hfirst : first.kilohertz = none
    · exact ⟨[], first, blocks, rfl, by simp, hfirst⟩
    · rw [List.forall_mem_cons, not_and] at h
      obtain ⟨before, block, behind, rfl, hbefore, hblock⟩ := ih (h hfirst)
      refine ⟨first :: before, block, behind, rfl, ?_, hblock⟩
      rw [List.forall_mem_cons]
      exact ⟨hfirst, hbefore⟩

/-- The reader says what it promises if some block has a frequency, or if there is only one
block; without any frequency, the second block makes the text malformed. -/
theorem parse_cpuinfo_frequencies (hne : blocks ≠ [])
    (htext : lines 0x0A text = blocks.flatMap CpuBlock.lines) :
    Promised blocks (parseCpuinfoFrequencies text) ↔
      (∃ block ∈ blocks, block.kilohertz ≠ none) ∨ blocks.length = 1 := by
  by_cases hall : ∀ block ∈ blocks, block.kilohertz ≠ none
  · obtain ⟨first, more, rfl⟩ := List.exists_cons_of_ne_nil hne
    have hfirst := hall first (by simp)
    refine iff_of_true ?_ (.inl ⟨first, by simp, hfirst⟩)
    constructor
    · exact fun _ => parseCpuinfoFrequencies_of_all hne htext hall
    · exact fun hnone => absurd (hnone first (by simp)) hfirst
    · rintro - ⟨block, hblock, hnone⟩
      exact absurd hnone (hall block hblock)
  · obtain ⟨before, block, behind, rfl, hbefore, hblock⟩ := exists_first_none hall
    rw [parseCpuinfoFrequencies_of_none htext hbefore hblock]
    have hsome : (∃ b ∈ before ++ block :: behind, b.kilohertz ≠ none) →
        before ++ behind ≠ [] := by
      rintro ⟨b, hb, hfrequency⟩ hnil
      rw [List.append_eq_nil_iff] at hnil
      rw [hnil.1, hnil.2, List.nil_append, List.mem_singleton] at hb
      exact hfrequency (hb ▸ hblock)
    constructor
    · intro hpromised
      by_cases hnil : before ++ behind = []
      · right
        rw [List.append_eq_nil_iff] at hnil
        rw [hnil.1, hnil.2]
        rfl
      · left
        by_contra hnone
        have hwithout := hpromised.without (by simpa using hnone)
        rw [if_neg hnil] at hwithout
        cases hwithout
    · intro hcase
      constructor
      · exact fun h => absurd h hall
      · intro hnone
        rcases hcase with ⟨b, hb, hfrequency⟩ | hone
        · exact absurd (hnone b hb) hfrequency
        · rw [if_pos]
          rw [List.append_eq_nil_iff, ← List.length_eq_zero_iff, ← List.length_eq_zero_iff]
          rw [List.length_append, List.length_cons] at hone
          omega
      · exact fun h _ => if_neg (hsome h)

/-- A block without a frequency. -/
def bareBlock (index : DigitRun) (h : index.number ≤ uint32Max) : CpuBlock where
  processor := ascii "processor\t: " ++ index.digits
  index := index
  field := by
    have htrim : trimCpuField ([0x20] ++ index.digits ++ []) = index.digits := by
      have hnone := padded_iff.mp (⟨[0x20], [], rfl, forall_of_all (by decide), by simp⟩ :
        Padded (DecimalText.text ⟨index, none⟩) _)
      simpa only [DecimalText.text, Option.elim_none, List.append_nil] using hnone
    rw [List.append_nil] at htrim
    exact ⟨ascii "processor\t", [0x20] ++ index.digits, rfl, by decide, by decide, htrim⟩
  index_le := h
  front := []
  frequency := none
  back := []
  other_front := by simp
  other_back := by simp

/-- The processors zero and one. -/
def cpuZero : DigitRun := .zero

def cpuOne : DigitRun := .one

/-- The lines of a processor with a frequency. -/
def fullBlock (index : DigitRun) (decimal : DecimalText) (h : index.number ≤ uint32Max)
    (few_digits : decimal.fractionDigits.length < 2 ^ 32) (pos : 0 < decimal.kilohertz)
    (le : decimal.kilohertz ≤ uint32Max) : CpuBlock :=
  { bareBlock index h with
    front := [ascii "model name\t: Example"]
    frequency := some {
      line := ascii "cpu MHz\t\t: " ++ decimal.text
      decimal := decimal
      field := ⟨ascii "cpu MHz\t\t", 0x20 :: decimal.text, rfl, by decide, by decide,
        padded_iff.mp ⟨[0x20], [], by simp, by decide, by simp⟩⟩
      few_digits := few_digits
      pos := pos
      le := le }
    other_front := List.forall_mem_singleton.mpr <|
      @other_of_key (ascii "model name\t") (ascii " Example") (by decide) (by decide) (by decide) }

def fullBlocks : List CpuBlock :=
  [fullBlock cpuZero ⟨⟨ascii "2400", by decide, by decide⟩, some ⟨ascii "5", by decide, by decide⟩⟩
      (by decide) (by decide) (by decide +kernel) (by decide +kernel),
    fullBlock cpuOne ⟨⟨ascii "800", by decide, by decide⟩, none⟩
      (by decide) (by decide) (by decide +kernel) (by decide +kernel)]

/-- Two blocks with other lines, and with frequencies. -/
theorem parse_cpuinfo_frequencies_full_blocks :
    Promised fullBlocks (parseCpuinfoFrequencies
        (ascii "processor\t: 0\nmodel name\t: Example\ncpu MHz\t\t: 2400.5\n" ++
          ascii "processor\t: 1\nmodel name\t: Example\ncpu MHz\t\t: 800\n")) ∧
      fullBlocks.filterMap CpuBlock.kilohertz = [2400500, 800000] := by
  refine ⟨?_, by decide +kernel⟩
  exact (parse_cpuinfo_frequencies (by decide) (by decide +kernel)).mpr
    (.inl ⟨_, List.mem_cons_self, by decide⟩)

/-- Two blocks, and no frequency. -/
theorem parse_cpuinfo_frequencies_two_blocks :
    ¬ Promised [bareBlock cpuZero (by decide), bareBlock cpuOne (by decide)]
      (parseCpuinfoFrequencies (ascii "processor\t: 0\nprocessor\t: 1\n")) := by
  intro h
  have hlines : lines 0x0A (ascii "processor\t: 0\nprocessor\t: 1\n") =
      [bareBlock cpuZero (by decide), bareBlock cpuOne (by decide)].flatMap CpuBlock.lines := by
    change lines 0x0A (ascii "processor\t: 0" ++ 0x0A :: (ascii "processor\t: 1" ++ 0x0A :: [])) = _
    rw [lines_append_sep (by decide), lines_append_sep (by decide), lines_nil]
    rfl
  have hwithout := h.without (by simp [CpuBlock.kilohertz, bareBlock])
  rw [@parseCpuinfoFrequencies_of_none _ [] [bareBlock cpuOne (by decide)]
    (bareBlock cpuZero (by decide)) hlines (by simp) rfl] at hwithout
  cases hwithout

end Outcome

end Syscape.Cpu
