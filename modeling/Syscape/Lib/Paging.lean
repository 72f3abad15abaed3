import Mathlib.Data.List.Basic
import Mathlib.Tactic.Common

/-!
# Lists that are read page by page

The entries of a list have growing keys. A reader asks for the entries from a key on, gets
some of them, the first one included, and goes on behind the key of the last one. However long
the pages are, what is left behind a page is the list without what has been read.
-/
namespace Paging
variable {α : Type*} (key : α → ℕ)

/-- The keys grow strictly. -/
def Increasing (entries : List α) : Prop := entries.Pairwise fun a b => key a < key b

/-- The entries from a key on. -/
def fromKey (entries : List α) (start : ℕ) : List α := entries.filter fun e => start ≤ key e

variable {key} {entries page rest : List α} {start : ℕ}

@[simp] theorem fromKey_zero (entries : List α) : fromKey key entries 0 = entries := by
  simp [fromKey]

theorem fromKey_eq_self (h : ∀ e ∈ entries, start ≤ key e) : fromKey key entries start = entries :=
  List.filter_eq_self.mpr (by simpa using h)

theorem fromKey_eq_nil (h : ∀ e ∈ entries, key e < start) : fromKey key entries start = [] :=
  List.filter_eq_nil_iff.mpr (by simpa using h)

theorem fromKey_append (front back : List α) (start : ℕ) :
    fromKey key (front ++ back) start = fromKey key front start ++ fromKey key back start :=
  List.filter_append front back

/-- From a later key on, an entry of the list is one of the entries from the earlier key on. -/
theorem fromKey_fromKey {later : ℕ} (h : start ≤ later) :
    fromKey key (fromKey key entries start) later = fromKey key entries later := by
  rw [fromKey, fromKey, List.filter_filter]
  apply List.filter_congr
  intro e _
  by_cases hlater : later ≤ key e
  · simp [hlater, Nat.le_trans h hlater]
  · simp [hlater]

theorem Increasing.fromKey (h : Increasing key entries) (start : ℕ) :
    Increasing key (fromKey key entries start) := h.filter _

/-- The last entry of a page has the largest key of it. -/
theorem key_le_getLast (h : Increasing key page) (hne : page ≠ []) {e : α} (he : e ∈ page) :
    key e ≤ key (page.getLast hne) := by
  rw [← List.dropLast_append_getLast hne, List.mem_append, List.mem_singleton] at he
  rw [← List.dropLast_append_getLast hne] at h
  rcases he with he | rfl
  · exact Nat.le_of_lt ((List.pairwise_append.mp h).2.2 e he _ (by simp))
  · exact Nat.le_refl _

/-- What is left behind the last entry of a page. -/
theorem fromKey_next (h : Increasing key entries) (hpage : fromKey key entries start = page ++ rest)
    (hne : page ≠ []) : fromKey key entries (key (page.getLast hne) + 1) = rest := by
  have hincreasing : Increasing key (page ++ rest) := hpage ▸ h.fromKey start
  obtain ⟨hfront, -, hless⟩ := List.pairwise_append.mp hincreasing
  have hlast : start ≤ key (page.getLast hne) := by
    have hmem : page.getLast hne ∈ fromKey key entries start := by
      rw [hpage]
      exact List.mem_append_left rest (page.getLast_mem hne)
    simpa using (List.mem_filter.mp hmem).2
  rw [← fromKey_fromKey (show start ≤ key (page.getLast hne) + 1 by omega), hpage, fromKey_append]
  have hread : fromKey key page (key (page.getLast hne) + 1) = [] :=
    fromKey_eq_nil fun e he => Nat.lt_succ_of_le (key_le_getLast hfront hne he)
  have hleft : fromKey key rest (key (page.getLast hne) + 1) = rest :=
    fromKey_eq_self fun e he => hless _ (page.getLast_mem hne) e he
  rw [hread, hleft, List.nil_append]

end Paging
