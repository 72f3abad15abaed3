import Syscape.CpuLists

/-!
# Memory nodes

The lists of nodes and processors that the NUMA queries read. Their parser is written as
the one of the processor module, and also looks at the commas at the ends of a list.
-/
namespace Syscape.Numa
open Checked Text Lines Cpu

/-- `numa_space`. -/
def numaSpace (value : UInt8) : Bool :=
  value == 0x20 || value == 0x09 || value == 0x0D || value == 0x0A

/-- `trim_numa_field`. -/
def trimNumaField (value : List UInt8) : List UInt8 :=
  (value.dropWhile numaSpace).rdropWhile numaSpace

/-- `parse_range_list`; the loop over the items is the one of `parse_cpu_list`. -/
def parseRangeList (input : List UInt8) : Result (List ℕ) :=
  let input := trimNumaField input
  if input = [] ∨ input.head? = some 0x2C ∨ input.getLast? = some 0x2C then fail .malformedData
  else do
    let values ← insertItems ∅ (lines 0x2C input)
    if values = ∅ then fail .malformedData else .ok (values.sort (· ≤ ·))

theorem covered_ne_empty {text : List UInt8} {ranges : List (ℕ × ℕ)}
    (h : WellFormed text ranges) : covered ranges ≠ ∅ := by
  obtain ⟨pieces, hne, -, hpieces⟩ := h
  cases hpieces with
  | nil => exact absurd rfl hne
  | @cons _ range _ ranges hpiece _ =>
    have hle : range.1 ≤ range.2 := (piece_iff.mp hpiece).2.1
    apply Finset.ne_empty_of_mem
    rw [mem_covered]
    exact ⟨range, by simp, le_refl _, hle⟩

/-- The parser accepts well-formed lists only. -/
theorem parseRangeList_eq (text : List UInt8) :
    parseRangeList text =
      if (trimCpuField text).getLast? = some 0x2C then fail .malformedData
      else (insertItems ∅ ((trimCpuField text).splitOn 0x2C)).map (·.sort (· ≤ ·)) := by
  have htrim : trimNumaField text = trimCpuField text := rfl
  rw [parseRangeList, htrim]
  by_cases hlast : (trimCpuField text).getLast? = some 0x2C
  · rw [if_pos hlast, if_pos (.inr (.inr hlast))]
  · rw [if_neg hlast]
    rcases insertItems_cases ∅ ((trimCpuField text).splitOn 0x2C) with ⟨out, hout⟩ | hfail
    · obtain ⟨ranges, hwell, hcovered⟩ := insertItems_splitOn.mp hout
      have hends := hwell.ends
      have hnonempty : out ≠ ∅ := hcovered ▸ covered_ne_empty hwell
      rw [if_neg (by simp [hends.1, hends.2.1, hlast]), lines_eq_splitOn hends.1 hlast, hout, ok_bind,
        if_neg hnonempty]
      rfl
    · rw [hfail]
      split_ifs with hends
      · rfl
      · rw [lines_eq_splitOn (fun h => hends (.inl h)) hlast, hfail]
        rfl

/-- What is claimed of a text: if the kernel prints it for a set, the processor module reads
the set; the module accepts it only if it is well formed, for the processors that its items
list, in ascending order; and the NUMA module reads it alike. -/
structure ReadAlike (text : List UInt8) : Prop where
  rendered : ∀ (s : Finset ℕ) (newline : List UInt8), s.Nonempty → (∀ n ∈ s, n ≤ 1024 * 1024) →
    (newline = [] ∨ newline = [0x0A]) → text = rangeList s ++ newline →
      parseCpuList text = .ok (ofFinset s)
  wellFormed : ∀ out, parseCpuList text = .ok out → ∃ ranges, WellFormed (trimCpuField text) ranges ∧
    ∀ n, n ∈ out.values ↔ ∃ range ∈ ranges, range.1 ≤ n ∧ n ≤ range.2
  ascending : ∀ out, parseCpuList text = .ok out → out.values.Pairwise (· < ·)
  same : parseRangeList text = (parseCpuList text).map CpuList.values

section Commas
variable {text : List UInt8}

/-- A list with a comma behind it is read by one of the modules only. -/
theorem not_readAlike_comma {list : List UInt8} {ranges : List (ℕ × ℕ)}
    (htext : trimCpuField text = list ++ [0x2C]) (hwell : WellFormed list ranges) :
    ¬ ReadAlike text := by
  intro hread
  have hlast : (trimCpuField text).getLast? = some 0x2C := by simp [htext]
  have hloop : insertItems ∅ (list.splitOn 0x2C) = .ok (covered ranges) :=
    insertItems_splitOn.mpr ⟨ranges, hwell, rfl⟩
  have hsame := hread.same
  rw [parseRangeList_eq, if_pos hlast, parseCpuList_eq, if_neg (by simp [htext]), withoutComma,
    if_pos hlast, htext, List.dropLast_concat, hloop] at hsame
  cases hsame

/-- Of all other texts, the processor module refuses those with a comma at the end too. -/
theorem parseCpuList_of_no_comma
    (h : ¬ ∃ list ranges, trimCpuField text = list ++ [0x2C] ∧ WellFormed list ranges) :
    parseCpuList text =
      if (trimCpuField text).getLast? = some 0x2C then fail .malformedData
      else (insertItems ∅ ((trimCpuField text).splitOn 0x2C)).map ofFinset := by
  rw [parseCpuList_eq, withoutComma]
  split_ifs with hnil hlast hlast
  · rfl
  · rw [hnil]
    rfl
  · obtain ⟨list, htext⟩ := List.getLast?_eq_some_iff.mp hlast
    rw [htext, List.dropLast_concat]
    rcases insertItems_cases ∅ (list.splitOn 0x2C) with ⟨out, hout⟩ | hfail
    · obtain ⟨ranges, hwell, -⟩ := insertItems_splitOn.mp hout
      exact absurd ⟨list, ranges, htext, hwell⟩ h
    · rw [hfail]
      rfl
  · rfl

theorem readAlike_of_no_comma
    (h : ¬ ∃ list ranges, trimCpuField text = list ++ [0x2C] ∧ WellFormed list ranges) :
    ReadAlike text := by
  have hparse := parseCpuList_of_no_comma h
  refine ⟨?_, ?_, fun out _ => out.sorted, ?_⟩
  · intro s newline hne hmax hnewline htext
    rw [htext]
    exact parseCpuList_rangeList hne hmax hnewline
  · intro out hout
    rw [hparse] at hout
    split_ifs at hout with hlast
    · cases hout
    · cases hloop : insertItems ∅ ((trimCpuField text).splitOn 0x2C) with
      | error f =>
        rw [hloop] at hout
        cases hout
      | ok values =>
        obtain ⟨ranges, hwell, hcovered⟩ := insertItems_splitOn.mp hloop
        rw [hloop] at hout
        cases hout
        refine ⟨ranges, hwell, fun n => ?_⟩
        rw [← mem_covered, ← hcovered]
        exact Finset.mem_sort _
  · rw [hparse, parseRangeList_eq]
    split_ifs
    · rfl
    · cases insertItems ∅ ((trimCpuField text).splitOn 0x2C) <;> rfl

end Commas

/-- Just the well-formed lists with one comma behind them are not read alike, or accepted
though they are no lists. -/
theorem cpu_lists_read_iff (text : List UInt8) : ReadAlike text ↔
    ¬ ∃ list ranges, trimCpuField text = list ++ [0x2C] ∧ WellFormed list ranges := by
  constructor
  · intro hread ⟨list, ranges, htext, hwell⟩
    exact not_readAlike_comma htext hwell hread
  · exact readAlike_of_no_comma

/-- A list with a comma behind it is accepted by one module and refused by the other. -/
theorem trailing_comma_accepted :
    parseCpuList (ascii "0,") = .ok ⟨[0], by decide⟩ ∧
      parseRangeList (ascii "0,") = fail .malformedData := by
  decide +kernel

end Syscape.Numa
