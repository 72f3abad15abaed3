import Mathlib.Data.List.Basic
import Mathlib.Tactic.Common

/-!
# Words that can be told apart

A code is prefix free if its words can be read off the front of any text, so that words put
one behind the other do not run together. Words that end in a mark of their own are prefix
free, and so are texts behind their lengths.
-/

/-- Where two texts begin with words of the code and are equal, the words are equal and so is
what follows them. -/
def PrefixFree {α β : Type*} (f : β → List α) : Prop :=
  ∀ (a b : β) (s t : List α), f a ++ s = f b ++ t → a = b ∧ s = t

namespace PrefixFree
variable {α β : Type*} {f : β → List α} {number : ℕ → List α} {mark : α}

/-- Lists of words can be told apart as well, if no word is empty. -/
theorem flatMap_injective (h : PrefixFree f) (hne : ∀ a, f a ≠ []) :
    Function.Injective (List.flatMap f) := by
  intro as bs heq
  induction as generalizing bs with
  | nil =>
    cases bs with
    | nil => rfl
    | cons b bs =>
      rw [List.flatMap_nil, List.flatMap_cons, eq_comm, List.append_eq_nil_iff] at heq
      exact absurd heq.1 (hne b)
  | cons a as ih =>
    cases bs with
    | nil =>
      rw [List.flatMap_nil, List.flatMap_cons, List.append_eq_nil_iff] at heq
      exact absurd heq.1 (hne a)
    | cons b bs =>
      rw [List.flatMap_cons, List.flatMap_cons] at heq
      obtain ⟨rfl, hrest⟩ := h a b _ _ heq
      rw [ih hrest]

/-- Words that end at the first mark. -/
theorem marked (hinj : Function.Injective f) (hmark : ∀ a, mark ∉ f a) :
    PrefixFree fun a => f a ++ [mark] := by
  intro a b s t heq
  rw [List.append_assoc, List.append_assoc, List.singleton_append, List.singleton_append] at heq
  have hlength : (f a).length = (f b).length := by
    classical
    have hindex := congrArg (List.idxOf mark) heq
    rwa [List.idxOf_append_of_notMem (hmark a), List.idxOf_append_of_notMem (hmark b),
      List.idxOf_cons_self, List.idxOf_cons_self] at hindex
  obtain ⟨hword, hrest⟩ := List.append_inj heq hlength
  exact ⟨hinj hword, (List.cons.inj hrest).2⟩

/-- Texts behind their lengths. -/
theorem behind_length (h : PrefixFree number) :
    PrefixFree fun text : List α => number text.length ++ text := by
  intro a b s t heq
  rw [List.append_assoc, List.append_assoc] at heq
  obtain ⟨hlength, hrest⟩ := h _ _ _ _ heq
  exact List.append_inj hrest hlength

end PrefixFree
