import Mathlib.Data.List.Perm.Basic
import Mathlib.Tactic.Common

/-!
# The only element of a list

A list names an element when it has no other. What a list names does not depend on its
order. A loop that keeps the last element with a property, and counts them, finds what the
elements with the property name.
-/
namespace Only
variable {α : Type*}

/-- The element of a list that has no other. -/
def only : List α → Option α
  | [a] => some a
  | _ => none

theorem only_eq_some_iff {l : List α} {a : α} : only l = some a ↔ l = [a] := by
  unfold only
  split <;> simp_all

theorem only_eq_none_iff {l : List α} : only l = none ↔ l.length ≠ 1 := by
  rw [Option.eq_none_iff_forall_ne_some, ne_eq, List.length_eq_one_iff]
  simp only [ne_eq, only_eq_some_iff, not_exists]

theorem only_perm {l l' : List α} (h : l.Perm l') : only l = only l' := by
  ext a
  rw [only_eq_some_iff, only_eq_some_iff]
  constructor
  · intro hl
    rw [hl] at h
    exact List.perm_singleton.mp h.symm
  · intro hl
    rw [hl] at h
    exact List.perm_singleton.mp h

theorem only_map {β : Type*} (f : α → β) (l : List α) : only (l.map f) = (only l).map f := by
  match l with
  | [] => rfl
  | [_] => rfl
  | _ :: _ :: _ => rfl

section Loop
variable (p : α → Bool)

/-- One round of the loop. -/
def keepLast (kept : Option α × ℕ) (a : α) : Option α × ℕ :=
  if p a then (some a, kept.2 + 1) else kept

theorem foldl_keepLast (l : List α) (kept : Option α × ℕ) :
    l.foldl (keepLast p) kept =
      (((l.filter p).getLast?).or kept.1, kept.2 + (l.filter p).length) := by
  induction l generalizing kept with
  | nil => simp
  | cons a l ih =>
    rw [List.foldl_cons, ih]
    by_cases ha : p a = true
    · rw [keepLast, if_pos ha, List.filter_cons_of_pos ha, List.length_cons,
        List.getLast?_cons]
      cases (l.filter p).getLast? <;> simp <;> omega
    · rw [keepLast, if_neg ha, List.filter_cons_of_neg ha]

/-- When the count is one, the kept element is the only one with the property. -/
theorem kept_eq_only (l : List α) :
    (if (l.foldl (keepLast p) (none, 0)).2 = 1 then (l.foldl (keepLast p) (none, 0)).1 else none) =
      only (l.filter p) := by
  rw [foldl_keepLast, Option.or_none, Nat.zero_add]
  split_ifs with hone
  · obtain ⟨a, ha⟩ := List.length_eq_one_iff.mp hone
    rw [ha]
    rfl
  · exact (only_eq_none_iff.mpr hone).symm

/-- With a flag for the case that there is not one such element. -/
theorem kept_eq_only_isNone (l : List α) :
    (if (l.foldl (keepLast p) (none, 0)).2 ≠ 1 then (none, true)
      else ((l.foldl (keepLast p) (none, 0)).1, false)) =
      (only (l.filter p), (only (l.filter p)).isNone) := by
  rw [← kept_eq_only]
  by_cases hone : (l.foldl (keepLast p) (none, 0)).2 = 1
  · have hsome : only (l.filter p) ≠ none := by
      rw [foldl_keepLast, Nat.zero_add] at hone
      exact fun hnone => only_eq_none_iff.mp hnone hone
    rw [← kept_eq_only, if_pos hone] at hsome
    rw [if_neg (not_not.mpr hone), if_pos hone, Option.isNone_eq_false_iff.mpr
      (Option.isSome_iff_ne_none.mpr hsome)]
  · rw [if_pos hone, if_neg hone]
    rfl

end Loop

end Only
