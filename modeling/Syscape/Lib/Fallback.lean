import Mathlib.Data.List.Basic
import Mathlib.Data.List.Nodup
import Mathlib.Tactic.Common

/-!
# A value with fallbacks

Entries of a file give values to keys. One key, the primary one, always writes the value that
is looked for; the fallback keys write it only as long as it is empty. With one primary entry
that is not empty, no other entry counts; without a primary entry the first fallback that is
not empty counts. An empty primary entry takes back what was written before.
-/
namespace Fallback
variable {κ β : Type*} [DecidableEq κ] [DecidableEq β] (primary : κ) (isFallback : κ → Bool)
  (empty : β)

/-- What an entry makes of the value. -/
def put (value : β) (entry : κ × β) : β :=
  if entry.1 = primary then entry.2
  else if isFallback entry.1 ∧ value = empty then entry.2
  else value

/-- The entries of fallback keys that are not empty. -/
def fallbacks (entries : List (κ × β)) : List (κ × β) :=
  entries.filter fun entry => isFallback entry.1 ∧ entry.2 ≠ empty

/-- The first fallback that is not empty. -/
def first (entries : List (κ × β)) : β :=
  ((fallbacks isFallback empty entries).head?.map Prod.snd).getD empty

variable {primary isFallback empty} {entries front back : List (κ × β)} {value : β}

/-- Without a primary entry a value stays, and an empty one becomes the first fallback. -/
theorem foldl_put_of_ne (h : ∀ entry ∈ entries, entry.1 ≠ primary) (value : β) :
    entries.foldl (put primary isFallback empty) value =
      if value = empty then first isFallback empty entries else value := by
  induction entries generalizing value with
  | nil =>
    rw [List.foldl_nil]
    split_ifs with hvalue
    · exact hvalue
    · rfl
  | cons entry entries ih =>
    rw [List.forall_mem_cons] at h
    rw [List.foldl_cons, ih h.2, put, if_neg h.1, first, first, fallbacks, fallbacks]
    by_cases hvalue : value = empty
    · by_cases hfallback : isFallback entry.1 = true
      · by_cases hempty : entry.2 = empty <;> simp [hvalue, hfallback, hempty]
      · simp [hvalue, hfallback]
    · simp [hvalue]

/-- Nothing in front of the last primary entry counts. -/
theorem foldl_put_append (hback : ∀ entry ∈ back, entry.1 ≠ primary) (value written : β) :
    (front ++ (primary, written) :: back).foldl (put primary isFallback empty) value =
      if written = empty then first isFallback empty back else written := by
  rw [List.foldl_append, List.foldl_cons, foldl_put_of_ne hback, put, if_pos rfl]

omit [DecidableEq κ] [DecidableEq β] in
/-- The keys behind an entry are other ones. -/
theorem exists_append_of_mem (hkeys : (entries.map Prod.fst).Nodup) {written : β}
    (hmem : (primary, written) ∈ entries) :
    ∃ front back, entries = front ++ (primary, written) :: back ∧
      ∀ entry ∈ back, entry.1 ≠ primary := by
  obtain ⟨front, back, rfl⟩ := List.append_of_mem hmem
  refine ⟨front, back, rfl, ?_⟩
  rintro entry hentry rfl
  rw [List.map_append, List.map_cons, List.nodup_append, List.nodup_cons] at hkeys
  exact hkeys.2.1.1 (List.mem_map.mpr ⟨entry, hentry, rfl⟩)

/-- A primary value that is not empty wins. -/
theorem foldl_put_of_mem (hkeys : (entries.map Prod.fst).Nodup) {written : β}
    (hmem : (primary, written) ∈ entries) (hne : written ≠ empty) (value : β) :
    entries.foldl (put primary isFallback empty) value = written := by
  obtain ⟨front, back, rfl, hback⟩ := exists_append_of_mem hkeys hmem
  rw [foldl_put_append hback, if_neg hne]

/-- Otherwise the first fallback is used, unless there is one and an empty primary value. -/
theorem foldl_put_of_forall (hkeys : (entries.map Prod.fst).Nodup)
    (h : ∀ written, (primary, written) ∈ entries →
      written = empty ∧ fallbacks isFallback empty entries = []) :
    entries.foldl (put primary isFallback empty) empty = first isFallback empty entries := by
  by_cases hprimary : ∃ written, (primary, written) ∈ entries
  · obtain ⟨written, hmem⟩ := hprimary
    obtain ⟨rfl, hnone⟩ := h written hmem
    obtain ⟨front, back, rfl, hback⟩ := exists_append_of_mem hkeys hmem
    have hbehind : fallbacks isFallback written back = [] := by
      rw [fallbacks, List.filter_eq_nil_iff] at hnone ⊢
      exact fun entry hentry => hnone entry (by simp [hentry])
    rw [foldl_put_append hback, if_pos rfl, first, first, hnone, hbehind]
  · rw [foldl_put_of_ne, if_pos rfl]
    rintro ⟨key, written⟩ hentry rfl
    exact hprimary ⟨written, hentry⟩

end Fallback
