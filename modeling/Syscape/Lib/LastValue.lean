import Mathlib.Data.List.Basic
import Mathlib.Tactic.Common

/-!
# The last value in a sequence

A sequence of items of which some set a field: the field ends with the value of the
last item that sets it. A loop that overwrites the field keeps `lastOf` of the items
it has seen.
-/
namespace LastValue
variable {α β : Type*} (f : α → Option β)

/-- The value that the last setting item gives. -/
def lastOf (items : List α) : Option β := (items.filterMap f).getLast?

@[simp] theorem lastOf_nil : lastOf f [] = none := rfl

theorem lastOf_append (items more : List α) :
    lastOf f (items ++ more) = (lastOf f more).or (lastOf f items) := by
  unfold lastOf
  rw [List.filterMap_append, List.getLast?_append]

theorem lastOf_concat (items : List α) (item : α) :
    lastOf f (items ++ [item]) = (f item).or (lastOf f items) := by
  rw [lastOf_append]
  congr 1
  cases h : f item <;> simp [lastOf, h]

theorem lastOf_cons (item : α) (items : List α) :
    lastOf f (item :: items) = (lastOf f items).or (f item) := by
  rw [← List.singleton_append, lastOf_append]
  congr 1
  cases h : f item <;> simp [lastOf, h]

/-- The value of the field comes from an item. -/
theorem exists_of_lastOf {items : List α} {b : β} (h : lastOf f items = some b) :
    ∃ a ∈ items, f a = some b :=
  List.mem_filterMap.mp (List.mem_of_mem_getLast? h)

/-- The field keeps no value if no item sets it. -/
theorem lastOf_eq_none_iff {items : List α} : lastOf f items = none ↔ ∀ a ∈ items, f a = none := by
  rw [lastOf, List.getLast?_eq_none_iff, List.filterMap_eq_nil_iff]

theorem lastOf_map {γ : Type*} (g : β → γ) (items : List α) :
    lastOf (fun item => (f item).map g) items = (lastOf f items).map g := by
  induction items with
  | nil => rfl
  | cons item items ih =>
    rw [lastOf_cons, lastOf_cons, ih]
    cases lastOf f items <;> rfl

theorem lastOf_of_map {γ : Type*} (g : γ → α) (items : List γ) :
    lastOf f (items.map g) = lastOf (fun item => f (g item)) items := by
  unfold lastOf
  rw [List.filterMap_map]
  rfl

end LastValue
