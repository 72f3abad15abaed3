import Mathlib.Data.List.Lex
import Mathlib.Data.List.Pairwise
import Mathlib.Tactic.Common
import Mathlib.Order.Lattice

/-!
# Sorting by a comparison

The standard sort takes a comparison that is a strict weak order and returns a sorted
permutation; which one, where elements compare equal, is left open. A `Sorter` is any
such function. Comparisons are put together field by field.
-/
namespace StdSort
variable {α β : Type*}

/-- What the standard sort asks of a comparison. -/
structure StrictWeak (lt : α → α → Bool) : Prop where
  asymm : ∀ a b, lt a b = true → lt b a = false
  negTrans : ∀ a b c, lt a b = false → lt b c = false → lt a c = false

/-- A comparison that tells different elements apart. -/
structure StrictTotal (lt : α → α → Bool) : Prop extends StrictWeak lt where
  eq_of_not_lt : ∀ a b, lt a b = false → lt b a = false → a = b

/-- A function that sorts by the comparison. -/
structure Sorter (lt : α → α → Bool) where
  sort : List α → List α
  perm : ∀ l, (sort l).Perm l
  sorted : ∀ l, (sort l).Pairwise fun a b => lt b a = false

theorem Sorter.sort_singleton {lt : α → α → Bool} (sorter : Sorter lt) (a : α) :
    sorter.sort [a] = [a] := List.perm_singleton.mp (sorter.perm [a])

/-- There is a sorter for every strict weak order. -/
def Sorter.merge {lt : α → α → Bool} (h : StrictWeak lt) : Sorter lt where
  sort l := l.mergeSort fun a b => !lt b a
  perm l := List.mergeSort_perm l _
  sorted l := by
    have hsorted : (l.mergeSort fun a b => !lt b a).Pairwise fun a b => (!lt b a) = true := by
      apply List.pairwise_mergeSort
      · intro a b c hab hbc
        simp only [Bool.not_eq_true'] at hab hbc ⊢
        exact h.negTrans c b a hbc hab
      · intro a b
        cases hba : lt b a with
        | false => simp
        | true => simp [h.asymm b a hba]
    simpa using hsorted

/-- Comparing the images under an injection into a linear order. -/
theorem StrictTotal.of_injective [LinearOrder β] {f : α → β} (hf : Function.Injective f) :
    StrictTotal fun a b => decide (f a < f b) where
  asymm a b h := by
    simp only [decide_eq_true_eq, decide_eq_false_iff_not, not_lt] at h ⊢
    exact h.le
  negTrans a b c hab hbc := by
    simp only [decide_eq_false_iff_not, not_lt] at hab hbc ⊢
    exact hbc.trans hab
  eq_of_not_lt a b hab hba := by
    simp only [decide_eq_false_iff_not, not_lt] at hab hba
    exact hf (le_antisymm hba hab)

/-- Comparing optional values: no value comes before every value. -/
def optionLess (lt : β → β → Bool) : Option β → Option β → Bool
  | none, some _ => true
  | some a, some b => lt a b
  | _, none => false

theorem StrictTotal.option {lt : β → β → Bool} (h : StrictTotal lt) :
    StrictTotal (optionLess lt) where
  asymm a b hab := by
    cases a <;> cases b <;> simp_all [optionLess, h.asymm]
  negTrans a b c hab hbc := by
    cases a <;> cases b <;> cases c <;> simp_all [optionLess]
    exact h.negTrans _ _ _ hab hbc
  eq_of_not_lt a b hab hba := by
    cases a <;> cases b <;> simp_all [optionLess]
    exact h.eq_of_not_lt _ _ hab hba

/-- Comparing one field, and the rest only where the field is the same. -/
def fieldThen [DecidableEq β] (field : α → β) (lt : β → β → Bool) (rest : α → α → Bool)
    (a b : α) : Bool :=
  if field a ≠ field b then lt (field a) (field b) else rest a b

theorem StrictWeak.fieldThen [DecidableEq β] {field : α → β} {lt : β → β → Bool}
    {rest : α → α → Bool} (hlt : StrictTotal lt) (hrest : StrictWeak rest) :
    StrictWeak (fieldThen field lt rest) where
  asymm a b h := by
    unfold StdSort.fieldThen at h ⊢
    by_cases hab : field a = field b
    · simp only [hab, ne_eq, not_true_eq_false, if_false] at h ⊢
      exact hrest.asymm a b h
    · rw [if_pos hab] at h
      rw [if_pos (Ne.symm hab)]
      exact hlt.asymm _ _ h
  negTrans a b c hab hbc := by
    unfold StdSort.fieldThen at hab hbc ⊢
    by_cases h1 : field a = field b
    · by_cases h2 : field b = field c
      · simp only [h1, h2, ne_eq, not_true_eq_false, if_false] at hab hbc ⊢
        exact hrest.negTrans a b c hab hbc
      · rw [if_pos h2] at hbc
        rw [if_pos (by rwa [h1]), h1]
        exact hbc
    · rw [if_pos h1] at hab
      by_cases h2 : field b = field c
      · rw [if_pos (by rwa [← h2]), ← h2]
        exact hab
      · rw [if_pos h2] at hbc
        have hac := hlt.negTrans _ _ _ hab hbc
        by_cases h3 : field a = field c
        · -- then both comparisons of the different fields fail
          rw [← h3] at hbc
          exact absurd (hlt.eq_of_not_lt _ _ hab hbc) h1
        · rw [if_pos h3]
          exact hac

theorem StrictTotal.on {lt : β → β → Bool} (h : StrictTotal lt) (field : α → β) :
    StrictWeak fun a b => lt (field a) (field b) where
  asymm _ _ := h.asymm _ _
  negTrans _ _ _ := h.negTrans _ _ _

section Ties
variable {lt : α → α → Bool}

/-- Neither of the two comes before the other. -/
def Tie (lt : α → α → Bool) (a b : α) : Prop := lt a b = false ∧ lt b a = false

instance : DecidableRel (Tie lt) := fun _ _ => inferInstanceAs (Decidable (_ ∧ _))

theorem StrictWeak.irrefl (h : StrictWeak lt) (a : α) : lt a a = false := by
  cases ha : lt a a with
  | false => rfl
  | true => exact absurd (h.asymm a a ha) (by simp [ha])

theorem StrictTotal.tie_iff (h : StrictTotal lt) {a b : α} : Tie lt a b ↔ a = b := by
  constructor
  · intro htie
    exact h.eq_of_not_lt a b htie.1 htie.2
  · rintro rfl
    exact ⟨h.irrefl a, h.irrefl a⟩

theorem tie_fieldThen_iff [DecidableEq β] {field : α → β} {less : β → β → Bool}
    {rest : α → α → Bool} (h : StrictTotal less) {a b : α} :
    Tie (fieldThen field less rest) a b ↔ field a = field b ∧ Tie rest a b := by
  unfold Tie fieldThen
  by_cases hab : field a = field b
  · simp [hab]
  · rw [if_pos hab, if_pos (Ne.symm hab)]
    refine iff_of_false ?_ fun heq => hab heq.1
    rintro ⟨h1, h2⟩
    exact hab (h.eq_of_not_lt _ _ h1 h2)

/-- Where only equal elements tie, every sort gives the same list. -/
theorem Sorter.sort_eq (sorter sorter' : Sorter lt) {l l' : List α} (hperm : l.Perm l')
    (htie : ∀ a ∈ l, ∀ b ∈ l, Tie lt a b → a = b) : sorter.sort l = sorter'.sort l' := by
  have hsorts : (sorter.sort l).Perm (sorter'.sort l') :=
    (sorter.perm l).trans (hperm.trans (sorter'.perm l').symm)
  apply hsorts.eq_of_pairwise _ (sorter.sorted l) (sorter'.sorted l')
  intro a b ha hb hba hab
  exact htie a ((sorter.perm l).mem_iff.mp ha) b
    (hperm.mem_iff.mpr ((sorter'.perm l').mem_iff.mp hb)) ⟨hab, hba⟩

/-- There is a sort that leaves elements which tie in their order. -/
theorem Sorter.filter_merge (h : StrictWeak lt) (a : α) (l : List α) :
    ((Sorter.merge h).sort l).filter (Tie lt a ·) = l.filter (Tie lt a ·) := by
  have hperm := (Sorter.merge h).perm l
  have hpairwise : (l.filter (Tie lt a ·)).Pairwise fun b c => (!lt c b) = true := by
    rw [List.pairwise_iff_forall_sublist]
    intro b c hbc
    have hb : Tie lt a b := by simpa using (List.mem_filter.mp (hbc.subset (by simp))).2
    have hc : Tie lt a c := by simpa using (List.mem_filter.mp (hbc.subset (by simp))).2
    simpa using h.negTrans c a b hc.2 hb.1
  have hsub : (l.filter (Tie lt a ·)).Sublist ((Sorter.merge h).sort l) := by
    apply List.sublist_mergeSort _ _ hpairwise List.filter_sublist
    · intro b c d hbc hcd
      simp only [Bool.not_eq_true'] at hbc hcd ⊢
      exact h.negTrans d c b hcd hbc
    · intro b c
      cases hcb : lt c b with
      | false => simp
      | true => simp [h.asymm c b hcb]
  have hfilter := hsub.filter (Tie lt a ·)
  rw [List.filter_filter] at hfilter
  simp only [Bool.and_self] at hfilter
  exact (hfilter.eq_of_length (hperm.filter _).length_eq.symm).symm

/-- A stable sort does not depend on the order of two elements in front that tie, if they are
equal. -/
theorem Sorter.eq_of_merge_swap (h : StrictWeak lt) {a b : α} {l : List α} (htie : Tie lt a b)
    (heq : (Sorter.merge h).sort (a :: b :: l) = (Sorter.merge h).sort (b :: a :: l)) : a = b := by
  have hself : Tie lt a a := ⟨h.irrefl a, h.irrefl a⟩
  have hfilter := congrArg (List.filter (Tie lt a ·)) heq
  rw [Sorter.filter_merge, Sorter.filter_merge] at hfilter
  simp only [List.filter_cons, hself, htie, decide_true, if_true, List.cons.injEq] at hfilter
  exact hfilter.1

end Ties

/-- Two different elements can be brought to the front. -/
theorem exists_perm_cons_cons {l : List α} {a b : α} (ha : a ∈ l) (hb : b ∈ l) (hne : a ≠ b) :
    ∃ rest, l.Perm (a :: b :: rest) := by
  classical
  have hb' : b ∈ l.erase a := (List.mem_erase_of_ne hne.symm).mpr hb
  exact ⟨(l.erase a).erase b, (List.perm_cons_erase ha).trans ((List.perm_cons_erase hb').cons a)⟩

section Ascending
variable [Preorder β] {key : α → β} {l l' : List α}

/-- In an ascending list every element has a key of its own. -/
theorem eq_of_key_eq (hl : l.Pairwise fun a b => key a < key b) {a b : α} (ha : a ∈ l)
    (hb : b ∈ l) (h : key a = key b) : a = b := by
  by_contra hne
  have hkeys : l.Pairwise fun a b => key a ≠ key b := hl.imp fun hlt => hlt.ne
  have : Std.Symm fun a b : α => key a ≠ key b := ⟨fun _ _ h => Ne.symm h⟩
  exact hkeys.forall ha hb hne h

/-- Ascending lists with the same members are equal. -/
theorem eq_of_ascending (hl : l.Pairwise fun a b => key a < key b)
    (hl' : l'.Pairwise fun a b => key a < key b) (hmem : ∀ a, a ∈ l ↔ a ∈ l') : l = l' := by
  have hnodup : ∀ {m : List α}, (m.Pairwise fun a b => key a < key b) → m.Nodup := by
    intro m hm
    exact hm.imp fun h heq => absurd (congrArg key heq) h.ne
  have hperm : l.Perm l' := (List.perm_ext_iff_of_nodup (hnodup hl) (hnodup hl')).mpr hmem
  apply hperm.eq_of_pairwise _ hl hl'
  intro a b _ _ hab hba
  exact absurd hba hab.asymm

end Ascending

end StdSort
