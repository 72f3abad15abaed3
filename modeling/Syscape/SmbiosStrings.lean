import Syscape.SmbiosBounds
import Syscape.Lib.Lines

/-!
# The strings of an SMBIOS structure

The strings stand behind the formatted area, with a zero between them. A search for a string
counts them in eight bits, from one; it is left at the string with the right number or at the
end of the strings, whichever comes first, so that the count never wraps around.
-/
namespace Syscape.Smbios
open Checked Lines

/-- The bytes between the formatted area and the double zero. -/
def StructureView.area (view : StructureView) (data : List UInt8) : List UInt8 :=
  (data.drop view.strings).take view.stringsSize

/-- What is in front of each zero, and the last string. -/
def StructureView.stringSet (view : StructureView) (data : List UInt8) : List (List UInt8) :=
  lines 0 (view.area data)

/-- A string as it is returned; an empty one is not present. -/
def presentString (str : List UInt8) : Option (List UInt8) := if str = [] then none else some str

section Search
variable {data : List UInt8} {view : StructureView}

/-- The inner loop walks over a string up to a zero or the end of the strings. -/
theorem stringEnd_eq (str : List UInt8) {pre rest : List UInt8} {i : ℕ}
    (hdata : data = pre ++ str ++ rest) (hpos : view.strings + i = pre.length) (hnull : 0 ∉ str)
    (hsize : i + str.length ≤ view.stringsSize)
    (hend : i + str.length = view.stringsSize ∨ ∃ more, rest = 0 :: more) :
    ∃ stop, stringEnd data view i = .ok stop ∧ stop.1 = i + str.length := by
  induction str generalizing pre i with
  | nil =>
    rw [stringEnd]
    by_cases hi : i < view.stringsSize
    · obtain ⟨more, rfl⟩ : ∃ more, rest = 0 :: more := by
        rcases hend with h | h
        · simp at h
          omega
        · exact h
      rw [if_pos hi, hdata, List.append_nil, hpos, readByte_append_length, readByte_cons_zero]
      exact ⟨⟨i, le_rfl⟩, rfl, rfl⟩
    · rw [if_neg hi]
      exact ⟨⟨i, le_rfl⟩, rfl, rfl⟩
  | cons c str ih =>
    have hc : c.toNat ≠ 0 := by
      intro h
      have hzero : c = 0 := UInt8.toNat_inj.mp h
      exact hnull (by simp [hzero])
    have hlen : i + 1 + str.length = i + (c :: str).length := by
      simp
      omega
    have hread : (readByte data (view.strings + i) : Result ℕ) = .ok c.toNat := by
      rw [hdata, hpos, List.append_assoc, readByte_append_length, List.cons_append,
        readByte_cons_zero]
    obtain ⟨stop, hstop, hval⟩ := @ih (pre ++ [c]) (i + 1) (by simp [hdata])
      (by simp; omega) (fun h => hnull (by simp [h])) (by rwa [hlen]) (by rwa [hlen])
    rw [stringEnd, if_pos (by simp at hsize; omega), hread, ok_bind, if_pos hc, hstop, ok_bind]
    exact ⟨_, rfl, by simp only [hval, hlen]⟩

/-- What the outer loop does at a string that is not the last thing it finds. -/
theorem extractFrom_string {str pre rest : List UInt8} {start : ℕ}
    (hdata : data = pre ++ str ++ rest) (hpos : view.strings + start = pre.length)
    (hnull : 0 ∉ str) (hstart : start < view.stringsSize)
    (hsize : start + str.length ≤ view.stringsSize)
    (hend : start + str.length = view.stringsSize ∨ ∃ more, rest = 0 :: more)
    (index seen : UInt8) :
    extractFrom data view index start seen =
      if seen = index then .ok (presentString str)
      else if start + str.length = view.stringsSize then fail .malformedData
      else extractFrom data view index (start + str.length + 1) (seen + 1) := by
  obtain ⟨stop, hstop, hval⟩ := stringEnd_eq str hdata hpos hnull hsize hend
  rw [extractFrom, dif_neg (by omega), hstop, ok_bind]
  by_cases hindex : seen = index
  · rw [if_pos hindex, if_pos hindex, presentString]
    by_cases hempty : str = []
    · rw [if_pos hempty, if_neg (by rw [hval, hempty]; simp)]
    · have hlength := List.length_pos_iff.mpr hempty
      have hslice : (slice data (view.strings + start) (stop.1 - start) : Result (List UInt8)) =
          .ok str := by
        have hlen : stop.1 - start = str.length := by omega
        rw [hdata, hpos, hlen]
        exact slice_append pre str rest
      rw [if_neg hempty, if_pos (by omega), hslice, ok_bind]
  · rw [if_neg hindex, if_neg hindex, hval]
    by_cases hlast : start + str.length = view.stringsSize
    · rw [if_pos hlast, if_pos (by omega)]
    · rw [if_neg hlast, if_neg (by omega)]

/-- The next string has a number as well, and is one nearer to the one that is searched. -/
theorem toNat_seen_succ {seen index : UInt8} (hseen : seen.toNat ≤ index.toNat)
    (hne : seen ≠ index) :
    (seen + 1).toNat ≤ index.toNat ∧
      index.toNat - seen.toNat = index.toNat - (seen + 1).toNat + 1 := by
  have hne' : seen.toNat ≠ index.toNat := fun h => hne (UInt8.toNat_inj.mp h)
  have hbound := index.toNat_lt
  have hsucc : (seen + 1).toNat = seen.toNat + 1 := by
    rw [UInt8.toNat_add]
    simp
    omega
  omega

/-- The outer loop, in front of the strings that are left. -/
theorem extractFrom_lines {area pre rest : List UInt8} {start : ℕ}
    (hdata : data = pre ++ area ++ rest) (hpos : view.strings + start = pre.length)
    (hsize : view.stringsSize = start + area.length) {seen index : UInt8}
    (hseen : seen.toNat ≤ index.toNat) :
    extractFrom data view index start seen =
      match (lines 0 area)[index.toNat - seen.toNat]? with
      | some str => .ok (presentString str)
      | none => fail .malformedData := by
  induction hn : area.length using Nat.strongRecOn generalizing area pre start seen with
  | ind n ih =>
    by_cases hempty : area = []
    · rw [extractFrom, dif_pos (by simp [hsize, hempty]), hempty, lines_nil]
      rfl
    have hlength := List.length_pos_iff.mpr hempty
    by_cases hmem : 0 ∈ area
    · obtain ⟨str, more, rfl, hnull⟩ := List.eq_append_cons_of_mem hmem
      have hdata' : data = pre ++ str ++ (0 :: more ++ rest) := by
        rw [hdata]
        simp
      have hlen : (str ++ 0 :: more).length = str.length + 1 + more.length := by
        simp
        omega
      rw [extractFrom_string hdata' hpos hnull (by omega) (by omega) (.inr ⟨_, rfl⟩),
        lines_append_sep hnull]
      by_cases hindex : seen = index
      · rw [if_pos hindex, hindex, Nat.sub_self]
        rfl
      · obtain ⟨hle, hnext⟩ := toNat_seen_succ hseen hindex
        have hrest : data = (pre ++ str ++ [0]) ++ more ++ rest := by
          rw [hdata]
          simp
        rw [if_neg hindex, if_neg (by omega), hnext, List.getElem?_cons_succ]
        exact ih more.length (by omega) hrest (by simp; omega) (by omega) hle rfl
    · rw [extractFrom_string hdata hpos hmem (by omega) (by omega) (.inl hsize.symm),
        lines_of_not_mem hmem hempty]
      by_cases hindex : seen = index
      · rw [if_pos hindex, hindex, Nat.sub_self]
        rfl
      · obtain ⟨-, hnext⟩ := toNat_seen_succ hseen hindex
        rw [if_neg hindex, if_pos hsize.symm, hnext, List.getElem?_cons_succ]
        rfl

/-- The search as it is called. -/
theorem extractString_lines (hinside : view.strings + view.stringsSize ≤ data.length)
    {index : UInt8} (hindex : index ≠ 0) :
    extractString data view index =
      match (view.stringSet data)[index.toNat - 1]? with
      | some str => .ok (presentString str)
      | none => fail .malformedData := by
  have hdata : data = data.take view.strings ++ view.area data ++
      data.drop (view.strings + view.stringsSize) := by
    rw [StructureView.area, List.append_assoc, ← List.drop_drop, List.take_append_drop,
      List.take_append_drop]
  have hpos : index.toNat ≠ 0 := fun h => hindex (UInt8.toNat_inj.mp h)
  have hlength : (view.area data).length = view.stringsSize := by
    rw [StructureView.area, List.length_take, List.length_drop]
    omega
  rw [extractString, if_neg hindex]
  exact extractFrom_lines hdata (by simp; omega) (by omega) (by simp; omega)

theorem extractString_zero : extractString data view 0 = .ok none := if_pos rfl

/-- The search fails exactly behind the last string. -/
theorem extractString_eq_malformed_iff
    (hinside : view.strings + view.stringsSize ≤ data.length) (index : UInt8) :
    extractString data view index = fail .malformedData ↔
      (view.stringSet data).length < index.toNat := by
  by_cases hindex : index = 0
  · rw [hindex, extractString_zero]
    exact iff_of_false (ok_ne_fail _ _) (Nat.not_lt_zero _)
  have hpos : index.toNat ≠ 0 := fun h => hindex (UInt8.toNat_inj.mp h)
  rw [extractString_lines hinside hindex]
  cases hstr : (view.stringSet data)[index.toNat - 1]? with
  | none =>
    have hle := List.getElem?_eq_none_iff.mp hstr
    exact iff_of_true rfl (by omega)
  | some str =>
    obtain ⟨hlt, -⟩ := List.getElem?_eq_some_iff.mp hstr
    exact iff_of_false (ok_ne_fail _ _) (by omega)

theorem defined_extractString (hinside : view.strings + view.stringsSize ≤ data.length)
    (index : UInt8) : Defined (extractString data view index) := by
  by_cases hindex : index = 0
  · rw [hindex, extractString_zero]
    exact defined_ok _
  · rw [extractString_lines hinside hindex]
    split
    · exact defined_ok _
    · exact defined_failErrc _

/-- The strings that were written are found again. -/
theorem stringSet_of_written {strings : List (List UInt8)}
    (hproper : ∀ str ∈ strings, 0 ∉ str ∧ str ≠ [])
    (harea : view.area data = [0].intercalate strings) :
    view.stringSet data = strings := by
  rw [StructureView.stringSet, harea]
  exact lines_intercalate (fun str hstr => (hproper str hstr).1)
    fun str hstr => (hproper str hstr).2

end Search

/-- Within a table, every index gives the string with its number, none for zero, and an error
exactly where there are less strings. A set of any number of strings is found as it was
written. -/
theorem extract_string_exact {data : List UInt8} {view : StructureView}
    (hinside : view.strings + view.stringsSize ≤ data.length) :
    extractString data view 0 = .ok none ∧
      (∀ index, Defined (extractString data view index)) ∧
      (∀ index, extractString data view index = fail .malformedData ↔
        (view.stringSet data).length < index.toNat) ∧
      (∀ index ≠ 0, ∀ str, (view.stringSet data)[index.toNat - 1]? = some str →
        extractString data view index = .ok (presentString str)) ∧
      ∀ strings, (∀ str ∈ strings, 0 ∉ str ∧ str ≠ []) →
        view.area data = [0].intercalate strings →
          view.stringSet data = strings ∧ ∀ str ∈ strings, presentString str = some str := by
  refine ⟨extractString_zero, defined_extractString hinside,
    extractString_eq_malformed_iff hinside, ?_, ?_⟩
  · intro index hindex str hstr
    rw [extractString_lines hinside hindex, hstr]
  · intro strings hproper harea
    exact ⟨stringSet_of_written hproper harea, fun str hstr => if_neg (hproper str hstr).2⟩

/-- Two strings behind four formatted bytes. -/
def twoStrings : List UInt8 := [1, 4, 0, 0, 0x41, 0x42, 0, 0x43, 0, 0]

theorem second_of_two_strings :
    extractString twoStrings ⟨0, 4, 4, 4⟩ 2 = .ok (some [0x43]) ∧
      extractString twoStrings ⟨0, 4, 4, 4⟩ 3 = fail .malformedData := by
  have hexact := @extract_string_exact twoStrings ⟨0, 4, 4, 4⟩ (by decide)
  obtain ⟨-, -, hmalformed, hstring, hwritten⟩ := hexact
  obtain ⟨hset, hpresent⟩ := hwritten [[0x41, 0x42], [0x43]] (by decide) (by decide)
  constructor
  · rw [hstring 2 (by decide) [0x43] (by rw [hset]; rfl), hpresent _ (by decide)]
  · rw [hmalformed, hset]
    decide

end Syscape.Smbios
