import Syscape.CpuCaches
import Syscape.Lib.Numerals
import Syscape.Lib.Paths

/-!
# Lists of processors

The kernel writes a set of processors as a list of numbers and ranges between commas. Two
modules read such lists with the same loop; they differ in what they do about a comma at
the end.
-/
namespace Syscape.Cpu
open Checked Text Lines FromChars Digits Numerals

section Grammar

/-- A number or two numbers with a dash between them, in order and admitted. -/
def ItemText (item : List UInt8) (range : ℕ × ℕ) : Prop :=
  (Numeral 10 range.1 item ∧ range.2 = range.1 ∨
    ∃ first last, item = first ++ 0x2D :: last ∧ Numeral 10 range.1 first ∧
      Numeral 10 range.2 last) ∧
  range.1 ≤ range.2 ∧ range.2 ≤ 1024 * 1024

/-- An item with blanks around it. -/
def Piece (piece : List UInt8) (range : ℕ × ℕ) : Prop :=
  ∃ front item back, piece = front ++ item ++ back ∧ (∀ c ∈ front, cpuSpace c = true) ∧
    (∀ c ∈ back, cpuSpace c = true) ∧ ItemText item range

/-- Items with commas between them, and the range of each. -/
def WellFormed (text : List UInt8) (ranges : List (ℕ × ℕ)) : Prop :=
  ∃ pieces, pieces ≠ [] ∧ text = [0x2C].intercalate pieces ∧ List.Forall₂ Piece pieces ranges

/-- The processors in some ranges. -/
def covered : List (ℕ × ℕ) → Finset ℕ
  | [] => ∅
  | range :: ranges => Finset.Icc range.1 range.2 ∪ covered ranges

theorem mem_covered {ranges : List (ℕ × ℕ)} {n : ℕ} :
    n ∈ covered ranges ↔ ∃ range ∈ ranges, range.1 ≤ n ∧ n ≤ range.2 := by
  induction ranges with
  | nil => simp [covered]
  | cons range ranges ih => simp [covered, ih]

end Grammar

section Items
variable {item : List UInt8} {range : ℕ × ℕ}

/-- The item has no comma and no blank. -/
theorem ItemText.mem (h : ItemText item range) {c : UInt8} (hc : c ∈ item) :
    cpuSpace c = false ∧ c ≠ 0x2C := by
  have hdigit {n : ℕ} {text : List UInt8} (hn : Numeral 10 n text) (hc : c ∈ text) :
      cpuSpace c = false ∧ c ≠ 0x2C := by
    have hle : 0x30 ≤ c.toNat := (mem_numeral hn (by decide) hc).1
    constructor
    · simp only [cpuSpace, Bool.or_eq_false_iff, beq_eq_false_iff_ne]
      refine ⟨⟨⟨?_, ?_⟩, ?_⟩, ?_⟩ <;>
      · intro h
        rw [h] at hle
        exact absurd hle (by decide)
    · intro h
      rw [h] at hle
      exact absurd hle (by decide)
  obtain ⟨⟨hn, -⟩ | ⟨first, last, hitem, hfirst, hlast⟩, -⟩ := h
  · exact hdigit hn hc
  · rw [hitem, List.mem_append, List.mem_cons] at hc
    rcases hc with hc | hc | hc
    · exact hdigit hfirst hc
    · rw [hc]
      decide
    · exact hdigit hlast hc

theorem ItemText.ne_nil (h : ItemText item range) : item ≠ [] := by
  obtain ⟨⟨hn, -⟩ | ⟨first, last, hitem, -⟩, -⟩ := h
  · exact hn.ne_nil
  · simp [hitem]

/-- Two texts that are read as numbers. -/
theorem readRange_eq_ok {first last : List UInt8} (hfirst : first ≠ []) (hlast : last ≠ []) :
    (match (fromChars 10 uint32Max first).value, (fromChars 10 uint32Max last).value with
      | some n, some m =>
        if (fromChars 10 uint32Max first).read ≠ first.length ∨
            (fromChars 10 uint32Max last).read ≠ last.length ∨ n > m ∨ m > 1024 * 1024 then
          fail .malformedData
        else .ok (n, m)
      | _, _ => (fail .malformedData : Result (ℕ × ℕ))) = .ok range ↔
      Numeral 10 range.1 first ∧ Numeral 10 range.2 last ∧ range.1 ≤ range.2 ∧
        range.2 ≤ 1024 * 1024 := by
  constructor
  · intro h
    split at h
    · next n m hn hm =>
      split_ifs at h with hbad
      · cases h
      · cases h
        simp only [not_or, not_not] at hbad
        exact ⟨(Numeral.of_fromChars hfirst hbad.1 hn).1, (Numeral.of_fromChars hlast hbad.2.1 hm).1,
          by omega, by omega⟩
    · cases h
  · intro ⟨hn, hm, hle, hmax⟩
    have hfits : range.2 ≤ uint32Max := hmax.trans (by decide)
    simp only [hn.fromChars, hm.fromChars, if_pos hfits, if_pos (hle.trans hfits)]
    exact if_neg (by omega)

theorem numeral_no_dash {n : ℕ} {text : List UInt8} (h : Numeral 10 n text) : 0x2D ∉ text := by
  intro hc
  exact absurd (mem_numeral h (by decide) hc).1 (by decide)

/-- The first dash of an item stands between its numbers. -/
theorem itemText_dash_iff {first last : List UInt8} (hfirst : 0x2D ∉ first) :
    ItemText (first ++ 0x2D :: last) range ↔ Numeral 10 range.1 first ∧ Numeral 10 range.2 last ∧
      range.1 ≤ range.2 ∧ range.2 ≤ 1024 * 1024 := by
  constructor
  · intro ⟨h, hle, hmax⟩
    rcases h with ⟨hn, -⟩ | ⟨first', last', hitem, hn, hm⟩
    · exact absurd (by simp) (numeral_no_dash hn)
    · have hlength : first'.length = first.length := by
        have hidx := Paths.idxOf?_append_cons hfirst last
        rw [hitem, Paths.idxOf?_append_cons (numeral_no_dash hn), Option.some_inj] at hidx
        exact hidx
      obtain ⟨rfl, hcons⟩ := List.append_inj hitem.symm hlength
      rw [List.cons.injEq] at hcons
      exact ⟨hn, hcons.2 ▸ hm, hle, hmax⟩
  · intro ⟨hn, hm, hle, hmax⟩
    exact ⟨.inr ⟨first, last, rfl, hn, hm⟩, hle, hmax⟩

/-- The items that the parsers accept. -/
theorem cpuRange_eq_ok : cpuRange item = .ok range ↔ ItemText item range := by
  unfold cpuRange
  cases hdash : item.idxOf? 0x2D with
  | none =>
    have hnot : 0x2D ∉ item := List.idxOf?_eq_none_iff.mp hdash
    simp only [Option.elim_none, ne_eq, not_true_eq_false, false_and, or_false, or_self]
    by_cases hnil : item = []
    · rw [if_pos hnil]
      exact iff_of_false (by simp) fun h => h.ne_nil hnil
    · rw [if_neg hnil]
      refine (readRange_eq_ok hnil hnil).trans ⟨?_, ?_⟩
      · intro ⟨hn, hm, hle, hmax⟩
        exact ⟨.inl ⟨hn, hm.value_eq.symm.trans hn.value_eq⟩, hle, hmax⟩
      · intro ⟨h, hle, hmax⟩
        rcases h with ⟨hn, heq⟩ | ⟨first, last, hitem, -⟩
        · exact ⟨hn, heq ▸ hn, hle, hmax⟩
        · exact absurd (by simp [hitem]) hnot
  | some d =>
    obtain ⟨first, last, rfl, hfirst, rfl⟩ := Paths.exists_of_idxOf?_eq_some hdash
    have hdrop : (first ++ 0x2D :: last).drop (first.length + 1) = last := by
      rw [List.drop_length_add_append]
      rfl
    simp only [Option.elim_some, List.take_left, hdrop]
    rw [itemText_dash_iff hfirst]
    split_ifs with hbad
    · refine iff_of_false (by simp) ?_
      intro ⟨hn, hm, _⟩
      rcases hbad with hnil | hnil | hmem
      · exact hn.ne_nil hnil
      · exact hm.ne_nil hnil
      · exact numeral_no_dash hm hmem.2
    · rw [not_or, not_or] at hbad
      exact readRange_eq_ok hbad.1 hbad.2.1

theorem cpuRange_cases (item : List UInt8) :
    (∃ range, cpuRange item = .ok range) ∨ cpuRange item = fail .malformedData := by
  unfold cpuRange
  dsimp only
  split_ifs
  · exact .inr rfl
  · split
    · split_ifs
      · exact .inr rfl
      · exact .inl ⟨_, rfl⟩
    · exact .inr rfl

/-- A piece is trimmed to its item. -/
theorem piece_iff {piece : List UInt8} : Piece piece range ↔ ItemText (trimCpuField piece) range := by
  constructor
  · intro ⟨front, item, back, hpiece, hfront, hback, hitem⟩
    have htrim : trimCpuField piece = item := by
      rw [hpiece]
      apply trim_blanks hfront hback
      · exact fun c hc => (hitem.mem (List.mem_of_mem_head? hc)).1
      · exact fun c hc => (hitem.mem (List.mem_of_mem_getLast? hc)).1
    rwa [htrim]
  · intro h
    obtain ⟨front, back, hpiece, hfront, hback⟩ := exists_trim cpuSpace piece
    exact ⟨front, _, back, hpiece, hfront, hback, h⟩

theorem Piece.no_comma {piece : List UInt8} (h : Piece piece range) : 0x2C ∉ piece := by
  obtain ⟨front, item, back, hpiece, hfront, hback, hitem⟩ := h
  intro hmem
  rw [hpiece, List.mem_append, List.mem_append] at hmem
  rcases hmem with (hmem | hmem) | hmem
  · exact absurd (hfront _ hmem) (by decide)
  · exact (hitem.mem hmem).2 rfl
  · exact absurd (hback _ hmem) (by decide)

/-- One turn of the loop. -/
theorem insertItems_cons (values : Finset ℕ) (piece : List UInt8) (pieces : List (List UInt8)) :
    insertItems values (piece :: pieces) =
      (cpuRange (trimCpuField piece) >>= fun range =>
        insertItems (values ∪ Finset.Icc range.1 range.2) pieces) := by
  rw [insertItems]
  dsimp only
  split_ifs with hnil
  · have hempty : cpuRange (trimCpuField piece) = fail .malformedData := by
      rw [hnil]
      rfl
    rw [hempty, fail_bind]
  · rfl

/-- The loop accepts lists of pieces, and collects what their ranges cover. -/
theorem insertItems_eq_ok {values out : Finset ℕ} {pieces : List (List UInt8)} :
    insertItems values pieces = .ok out ↔
      ∃ ranges, List.Forall₂ Piece pieces ranges ∧ out = values ∪ covered ranges := by
  induction pieces generalizing values with
  | nil =>
    rw [insertItems, Except.ok.injEq]
    constructor
    · intro h
      exact ⟨[], .nil, by rw [covered, Finset.union_empty, h]⟩
    · intro ⟨ranges, hranges, hout⟩
      cases hranges
      rw [hout, covered, Finset.union_empty]
  | cons piece pieces ih =>
    rw [insertItems_cons, bind_eq_ok]
    constructor
    · intro ⟨range, hrange, hrest⟩
      obtain ⟨ranges, hranges, hout⟩ := ih.mp hrest
      refine ⟨range :: ranges, .cons (piece_iff.mpr (cpuRange_eq_ok.mp hrange)) hranges, ?_⟩
      rw [hout, covered, Finset.union_assoc]
    · intro ⟨ranges, hranges, hout⟩
      cases hranges with
      | @cons _ range _ ranges hpiece hranges =>
        refine ⟨range, cpuRange_eq_ok.mpr (piece_iff.mp hpiece), ih.mpr ⟨ranges, hranges, ?_⟩⟩
        rw [hout, covered, Finset.union_assoc]

theorem insertItems_cases (values : Finset ℕ) (pieces : List (List UInt8)) :
    (∃ out, insertItems values pieces = .ok out) ∨
      insertItems values pieces = fail .malformedData := by
  induction pieces generalizing values with
  | nil => exact .inl ⟨values, rfl⟩
  | cons piece pieces ih =>
    rw [insertItems_cons]
    rcases cpuRange_cases (trimCpuField piece) with ⟨range, hrange⟩ | hfail
    · rw [hrange, ok_bind]
      exact ih _
    · rw [hfail, fail_bind]
      exact .inr rfl

theorem Piece.ne_nil {piece : List UInt8} (h : Piece piece range) : piece ≠ [] := by
  intro hnil
  rw [hnil] at h
  exact (piece_iff.mp h).ne_nil rfl

theorem pieces_ok {pieces : List (List UInt8)} {ranges : List (ℕ × ℕ)}
    (h : List.Forall₂ Piece pieces ranges) : ∀ piece ∈ pieces, piece ≠ [] ∧ 0x2C ∉ piece := by
  induction h with
  | nil => simp
  | cons hpiece _ ih =>
    rw [List.forall_mem_cons]
    exact ⟨⟨hpiece.ne_nil, hpiece.no_comma⟩, ih⟩

/-- Well formed is what has such pieces between the commas. -/
theorem wellFormed_iff {text : List UInt8} {ranges : List (ℕ × ℕ)} :
    WellFormed text ranges ↔ List.Forall₂ Piece (text.splitOn 0x2C) ranges := by
  constructor
  · intro ⟨pieces, hne, htext, hpieces⟩
    rw [htext, List.splitOn_intercalate _ (fun piece hp => (pieces_ok hpieces piece hp).2) hne]
    exact hpieces
  · intro h
    exact ⟨text.splitOn 0x2C, by simp, (List.intercalate_splitOn _).symm, h⟩

end Items

section Parsing
variable {text : List UInt8}

/-- A well-formed list is not empty, and neither begins nor ends with a comma. -/
theorem WellFormed.ends {ranges : List (ℕ × ℕ)} (h : WellFormed text ranges) :
    text ≠ [] ∧ text.head? ≠ some 0x2C ∧ text.getLast? ≠ some 0x2C := by
  have hnil : [] ∉ text.splitOn 0x2C := fun hmem => (pieces_ok (wellFormed_iff.mp h) [] hmem).1 rfl
  refine ⟨?_, ?_, ?_⟩
  · intro htext
    apply hnil
    rw [htext]
    simp
  · intro hhead
    obtain ⟨more, htext⟩ : ∃ more, text = 0x2C :: more := by
      cases text with
      | nil => cases hhead
      | cons c more => exact ⟨more, by rw [Option.some_inj.mp hhead]⟩
    apply hnil
    rw [htext, ← List.nil_append (0x2C :: more), List.splitOn_append_cons_self]
    simp
  · intro hlast
    obtain ⟨front, htext⟩ := List.getLast?_eq_some_iff.mp hlast
    apply hnil
    rw [htext, List.splitOn_append_cons_self]
    simp

/-- Without a comma at the end, the loop sees the texts between the commas. -/
theorem lines_eq_splitOn (hne : text ≠ []) (h : text.getLast? ≠ some 0x2C) :
    lines 0x2C text = text.splitOn 0x2C := by
  have hrest : rest 0x2C text ≠ [] := by
    intro hnil
    have hcut : 0x2C ∉ text ∨ ∃ front, text = front ++ 0x2C :: rest 0x2C text ∧
        0x2C ∉ rest 0x2C text := eq_rest_or_append text
    obtain hcomma | ⟨front, htext, _⟩ := hcut
    · exact hne ((rest_of_not_mem hcomma).symm.trans hnil)
    · rw [hnil] at htext
      exact h (by simp [htext])
  rw [lines, if_neg hrest, splitOn_eq]

/-- A comma at the end is not seen. -/
theorem lines_append_comma (text : List UInt8) :
    lines 0x2C (text ++ [0x2C]) = text.splitOn 0x2C := by
  rw [lines_append_sep_append, lines_nil, splitOn_eq]

/-- The set as the vector that the parsers return. -/
def ofFinset (values : Finset ℕ) : CpuList :=
  ⟨values.sort (· ≤ ·), pairwise_lt_sort values⟩

/-- The loop over a text without a comma at its end. -/
theorem insertItems_splitOn {out : Finset ℕ} :
    insertItems ∅ (text.splitOn 0x2C) = .ok out ↔
      ∃ ranges, WellFormed text ranges ∧ out = covered ranges := by
  rw [insertItems_eq_ok]
  simp only [wellFormed_iff, Finset.empty_union]

/-- The text that the loop is given, without a comma at its end. -/
def withoutComma (list : List UInt8) : List UInt8 :=
  if list.getLast? = some 0x2C then list.dropLast else list

/-- The parser does not look at a comma at the end. -/
theorem parseCpuList_eq (text : List UInt8) :
    parseCpuList text =
      if trimCpuField text = [] then fail .malformedData
      else (insertItems ∅ ((withoutComma (trimCpuField text)).splitOn 0x2C)).map ofFinset := by
  have hmap (r : Result (Finset ℕ)) : (r >>= fun values => .ok (ofFinset values)) = r.map ofFinset := by
    cases r <;> rfl
  rw [parseCpuList, withoutComma, ← hmap]
  split_ifs with hnil hlast
  · rfl
  · obtain ⟨front, htext⟩ := List.getLast?_eq_some_iff.mp hlast
    rw [htext, lines_append_comma, List.dropLast_concat]
    rfl
  · rw [lines_eq_splitOn hnil hlast]
    rfl

end Parsing

section Rendering

/-- The maximal runs of numbers in an increasing list, each as its first and its last. -/
def runs : List ℕ → List (ℕ × ℕ)
  | [] => []
  | n :: numbers =>
    match runs numbers with
    | [] => [(n, n)]
    | (first, last) :: more =>
      if first = n + 1 then (n, last) :: more else (n, n) :: (first, last) :: more

def rangeText (range : ℕ × ℕ) : List UInt8 :=
  if range.1 = range.2 then decimal range.1 else decimal range.1 ++ 0x2D :: decimal range.2

/-- The list that the kernel writes for a set of processors. -/
def rangeList (s : Finset ℕ) : List UInt8 :=
  [0x2C].intercalate ((runs (s.sort (· ≤ ·))).map rangeText)

/-- The runs begin with the first number, and cover the numbers. -/
theorem runs_spec {numbers : List ℕ} (h : numbers.Pairwise (· < ·)) :
    (runs numbers).head?.map Prod.fst = numbers.head? ∧ (∀ range ∈ runs numbers, range.1 ≤ range.2) ∧
      ∀ n, (∃ range ∈ runs numbers, range.1 ≤ n ∧ n ≤ range.2) ↔ n ∈ numbers := by
  induction numbers with
  | nil => simp [runs]
  | cons n numbers ih =>
    rw [List.pairwise_cons] at h
    obtain ⟨hhead, hle, hmem⟩ := ih h.2
    rw [runs]
    cases hruns : runs numbers with
    | nil =>
      have hnil : numbers = [] := by
        rw [hruns] at hhead
        cases numbers with
        | nil => rfl
        | cons m numbers => simp at hhead
      rw [hnil]
      refine ⟨rfl, by simp, ?_⟩
      intro m
      simp
      omega
    | cons range more =>
      rw [hruns] at hle hmem
      have hfirst := hle range (by simp)
      dsimp only
      split_ifs with hnext
      · refine ⟨rfl, ?_, ?_⟩
        · intro r hr
          rcases List.mem_cons.mp hr with hr | hr
          · rw [hr]
            dsimp only
            omega
          · exact hle r (by simp [hr])
        · intro m
          rw [List.exists_mem_cons_iff, List.mem_cons, ← hmem m, List.exists_mem_cons_iff, ← or_assoc]
          refine or_congr_left ?_
          dsimp only
          omega
      · refine ⟨rfl, ?_, ?_⟩
        · rw [List.forall_mem_cons]
          exact ⟨le_refl n, hle⟩
        · intro m
          rw [List.exists_mem_cons_iff, List.mem_cons, ← hmem m]
          refine or_congr_left ?_
          dsimp only
          omega

theorem itemText_rangeText {range : ℕ × ℕ} (hle : range.1 ≤ range.2)
    (hmax : range.2 ≤ 1024 * 1024) : ItemText (rangeText range) range := by
  refine ⟨?_, hle, hmax⟩
  unfold rangeText
  split_ifs with heq
  · exact .inl ⟨numeral_decimal _, heq.symm⟩
  · exact .inr ⟨_, _, rfl, numeral_decimal _, numeral_decimal _⟩

/-- The kernel's list of a set is read as the set. -/
theorem parseCpuList_rangeList {s : Finset ℕ} (hne : s.Nonempty) (hmax : ∀ n ∈ s, n ≤ 1024 * 1024)
    {newline : List UInt8} (hnewline : newline = [] ∨ newline = [0x0A]) :
    parseCpuList (rangeList s ++ newline) = .ok (ofFinset s) := by
  obtain ⟨hhead, hle, hmem⟩ := runs_spec (pairwise_lt_sort s)
  have hsort : s.sort (· ≤ ·) ≠ [] := by
    intro hnil
    obtain ⟨n, hn⟩ := hne
    have hn' := (Finset.mem_sort (· ≤ ·)).mpr hn
    rw [hnil] at hn'
    cases hn'
  have hitems : ∀ range ∈ runs (s.sort (· ≤ ·)), ItemText (rangeText range) range := by
    intro range hrange
    apply itemText_rangeText (hle range hrange)
    apply hmax
    rw [← Finset.mem_sort (· ≤ ·), ← hmem]
    exact ⟨range, hrange, hle range hrange, le_refl _⟩
  have hwell : WellFormed (rangeList s) (runs (s.sort (· ≤ ·))) := by
    refine ⟨_, ?_, rfl, ?_⟩
    · intro hnil
      rw [List.map_eq_nil_iff] at hnil
      rw [hnil] at hhead
      exact hsort (List.head?_eq_none_iff.mp hhead.symm)
    · rw [List.forall₂_map_left_iff, List.forall₂_same]
      intro range hrange
      exact ⟨[], _, [], by simp, by simp, by simp, hitems range hrange⟩
  have hblank : ∀ c ∈ rangeList s, cpuSpace c = false := by
    intro c hc
    rcases mem_intercalate hc with hcomma | ⟨piece, hpiece, hc⟩
    · rw [hcomma]
      rfl
    · obtain ⟨range, hrange, hpiece⟩ := List.mem_map.mp hpiece
      rw [← hpiece] at hc
      exact ((hitems range hrange).mem hc).1
  have htrim : trimCpuField (rangeList s ++ newline) = rangeList s := by
    have hback : ∀ c ∈ newline, cpuSpace c = true := by
      rcases hnewline with h | h <;> simp [h, cpuSpace]
    rw [trimCpuField, trim_append_blanks hback, dropWhile_eq_self hblank, rdropWhile_eq_self hblank]
  have hcovered : covered (runs (s.sort (· ≤ ·))) = s := by
    ext n
    rw [mem_covered, hmem, Finset.mem_sort]
  have hloop : insertItems ∅ ((rangeList s).splitOn 0x2C) = .ok s :=
    insertItems_splitOn.mpr ⟨_, hwell, hcovered.symm⟩
  rw [parseCpuList_eq, htrim, if_neg hwell.ends.1, withoutComma, if_neg hwell.ends.2.2, hloop]
  rfl

end Rendering

end Syscape.Cpu
