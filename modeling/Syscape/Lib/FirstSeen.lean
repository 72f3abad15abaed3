import Mathlib.Data.List.Basic
import Mathlib.Data.List.Nodup
import Mathlib.Data.List.Infix
import Mathlib.Tactic.Common

/-!
# Values in the order of their first appearance

A loop that adds a value to a list unless the list has it collects what it meets without
duplicates. What it has seen before changes nothing when it comes again. A loop that compares
keys instead keeps the first value of every class of values with one key. For any other relation
between values, a loop adds those that have no duplicate in the list so far.
-/
namespace FirstSeen

section Values
variable {α : Type*} [BEq α] [LawfulBEq α] {seen more again : List α} {a : α}

theorem removeAll_of_subset (h : ∀ a ∈ again, a ∈ seen) : again.removeAll seen = [] := by
  rw [List.removeAll, List.filter_eq_nil_iff]
  intro a ha
  simpa using h a ha

/-- One value more. -/
theorem eraseDups_concat (seen : List α) (a : α) :
    (seen ++ [a]).eraseDups = if seen.elem a then seen.eraseDups else seen.eraseDups ++ [a] := by
  rw [List.eraseDups_append]
  by_cases ha : a ∈ seen
  · rw [removeAll_of_subset (by simpa using ha), List.eraseDups_nil, List.append_nil,
      if_pos (by simpa using ha)]
  · rw [List.cons_removeAll, List.nil_removeAll, if_pos (by simpa using ha), if_neg (by simpa using ha)]
    rfl

/-- The loop continues a list without duplicates. -/
theorem foldl_insertNew {add : List α → α → List α}
    (hadd : ∀ l a, add l a = if l.elem a then l else l ++ [a]) (seen more : List α) :
    more.foldl add seen.eraseDups = (seen ++ more).eraseDups := by
  induction more generalizing seen with
  | nil => simp
  | cons a more ih =>
    have hone : add seen.eraseDups a = (seen ++ [a]).eraseDups := by
      have hmem : seen.eraseDups.elem a = seen.elem a := by
        rw [Bool.eq_iff_iff, List.elem_iff, List.elem_iff, List.mem_eraseDups]
      rw [hadd, eraseDups_concat, hmem]
    rw [List.foldl_cons, hone, ih, List.append_assoc, List.singleton_append]

/-- What has been seen before may come again anywhere behind. -/
theorem eraseDups_again (h : ∀ a ∈ again, a ∈ seen) (more : List α) :
    (seen ++ (again ++ more)).eraseDups = (seen ++ more).eraseDups := by
  have hnone : again.removeAll seen = [] := removeAll_of_subset h
  rw [List.eraseDups_append, List.eraseDups_append]
  congr 2
  rw [List.removeAll, List.filter_append]
  rw [List.removeAll] at hnone
  rw [hnone, List.nil_append]
  rfl

theorem nodup_eraseDups (l : List α) : l.eraseDups.Nodup := by
  induction l using List.reverseRecOn with
  | nil => simp
  | append_singleton l a ih =>
    rw [eraseDups_concat]
    split_ifs with ha
    · exact ih
    · rw [List.nodup_append]
      refine ⟨ih, List.nodup_singleton a, ?_⟩
      rintro b hb c hc rfl
      rw [List.mem_singleton] at hc
      rw [hc, List.mem_eraseDups] at hb
      exact ha (by simpa using hb)

/-- A value stands before another if it appeared before it. -/
theorem pairwise_idxOf (l : List α) :
    l.eraseDups.Pairwise fun a b => l.idxOf a < l.idxOf b := by
  induction l using List.reverseRecOn with
  | nil => simp
  | append_singleton l a ih =>
    have hold {b : α} (hb : b ∈ l) : (l ++ [a]).idxOf b = l.idxOf b := List.idxOf_append_of_mem hb
    have hpairwise : l.eraseDups.Pairwise fun b c => (l ++ [a]).idxOf b < (l ++ [a]).idxOf c := by
      refine ih.imp_of_mem ?_
      intro b c hb hc hlt
      rwa [hold (List.mem_eraseDups.mp hb), hold (List.mem_eraseDups.mp hc)]
    rw [eraseDups_concat]
    split_ifs with ha
    · exact hpairwise
    · rw [List.pairwise_append]
      refine ⟨hpairwise, List.pairwise_singleton _ a, ?_⟩
      intro b hb c hc
      have hmem := List.mem_eraseDups.mp hb
      rw [List.mem_singleton.mp hc, hold hmem, List.idxOf_append_of_notMem (by simpa using ha)]
      exact (List.idxOf_lt_length_of_mem hmem).trans_le (Nat.le_add_right _ _)

end Values

section Classes
variable {α κ σ : Type*} (agree : α → α → Prop) [DecidableRel agree]

/-- The values of a list that agree with no value before them, given what has come before. -/
def firstsBehind (before : List α) : List α → List α
  | [] => []
  | a :: l =>
    if ∃ b ∈ before, agree b a then firstsBehind (before ++ [a]) l
    else a :: firstsBehind (before ++ [a]) l

/-- The first value of every class, in order. -/
def firsts (l : List α) : List α := firstsBehind agree [] l

variable {agree} {before l : List α}

/-- A loop keeps the first values if it keeps a value whose key it has not seen. -/
theorem foldl_keepNew {key : α → κ} {add : σ → α → σ} (seen : σ → κ → Prop) (kept : σ → List α)
    (hagree : ∀ b a, key b = key a ↔ agree b a)
    (hold : ∀ s a, seen s (key a) → add s a = s)
    (hnew : ∀ s a, ¬ seen s (key a) → kept (add s a) = kept s ++ [a] ∧
      ∀ k, seen (add s a) k ↔ seen s k ∨ k = key a)
    (s : σ) (before : List α) (h : ∀ k, seen s k ↔ ∃ b ∈ before, key b = k) :
    kept (l.foldl add s) = kept s ++ firstsBehind agree before l := by
  induction l generalizing s before with
  | nil => simp [firstsBehind]
  | cons a l ih =>
    have hseen : seen s (key a) ↔ ∃ b ∈ before, agree b a := by
      simp only [h, hagree]
    rw [List.foldl_cons, firstsBehind]
    by_cases ha : seen s (key a)
    · have hnext : ∀ k, seen s k ↔ ∃ b ∈ before ++ [a], key b = k := by
        intro k
        obtain ⟨first, hfirst, hkey⟩ := (h _).mp ha
        rw [h]
        constructor
        · rintro ⟨b, hb, rfl⟩
          exact ⟨b, List.mem_append_left _ hb, rfl⟩
        · rintro ⟨b, hb, rfl⟩
          rcases List.mem_append.mp hb with hb | hb
          · exact ⟨b, hb, rfl⟩
          · rw [List.mem_singleton.mp hb]
            exact ⟨first, hfirst, hkey⟩
      rw [hold s a ha, ih s _ hnext, if_pos (hseen.mp ha)]
    · obtain ⟨hkept, hmore⟩ := hnew s a ha
      have hnext : ∀ k, seen (add s a) k ↔ ∃ b ∈ before ++ [a], key b = k := by
        intro k
        rw [hmore, h]
        simp [or_and_right, exists_or, eq_comm]
      rw [ih _ _ hnext, hkept, if_neg (mt hseen.mpr ha), List.append_assoc, List.singleton_append]

theorem firstsBehind_eq_self (h : (before ++ l).Pairwise fun b a => ¬ agree b a) :
    firstsBehind agree before l = l := by
  induction l generalizing before with
  | nil => rfl
  | cons a l ih =>
    have hnone : ¬ ∃ b ∈ before, agree b a := by
      rintro ⟨b, hb, hagree⟩
      exact (List.pairwise_append.mp h).2.2 b hb a List.mem_cons_self hagree
    have hsplit : before ++ a :: l = before ++ [a] ++ l := by simp
    rw [firstsBehind, if_neg hnone, ih (hsplit ▸ h)]

/-- Nothing is left out of a list of values of different classes. -/
theorem firsts_eq_self (h : l.Pairwise fun b a => ¬ agree b a) : firsts agree l = l :=
  firstsBehind_eq_self h

theorem mem_of_mem_firstsBehind {a : α} (h : a ∈ firstsBehind agree before l) : a ∈ l := by
  induction l generalizing before with
  | nil => cases h
  | cons b l ih =>
    rw [firstsBehind] at h
    split_ifs at h
    · exact List.mem_cons_of_mem _ (ih h)
    · rcases List.mem_cons.mp h with rfl | h
      · exact List.mem_cons_self
      · exact List.mem_cons_of_mem _ (ih h)

/-- Every value agrees with one that came before or that is kept. -/
theorem firstsBehind_covers (hrefl : ∀ a, agree a a)
    (htrans : ∀ a b c, agree a b → agree b c → agree a c) (before : List α) {a : α} (ha : a ∈ l) :
    (∃ b ∈ before, agree b a) ∨ ∃ b ∈ firstsBehind agree before l, agree b a := by
  induction l generalizing before with
  | nil => cases ha
  | cons c l ih =>
    rw [firstsBehind]
    rcases List.mem_cons.mp ha with rfl | ha
    · by_cases hseen : ∃ b ∈ before, agree b a
      · exact .inl hseen
      · rw [if_neg hseen]
        exact .inr ⟨a, List.mem_cons_self, hrefl a⟩
    · rcases ih (before ++ [c]) ha with ⟨b, hb, hagree⟩ | ⟨b, hb, hagree⟩
      · rcases List.mem_append.mp hb with hb | hb
        · exact .inl ⟨b, hb, hagree⟩
        · rw [List.mem_singleton.mp hb] at hagree
          by_cases hseen : ∃ b ∈ before, agree b c
          · obtain ⟨d, hd, hdc⟩ := hseen
            exact .inl ⟨d, hd, htrans d c a hdc hagree⟩
          · rw [if_neg hseen]
            exact .inr ⟨c, List.mem_cons_self, hagree⟩
      · split_ifs
        · exact .inr ⟨b, hb, hagree⟩
        · exact .inr ⟨b, List.mem_cons_of_mem _ hb, hagree⟩

theorem mem_of_mem_firsts {a : α} (h : a ∈ firsts agree l) : a ∈ l := mem_of_mem_firstsBehind h

/-- Every value agrees with one that is kept. -/
theorem firsts_covers (hrefl : ∀ a, agree a a)
    (htrans : ∀ a b c, agree a b → agree b c → agree a c) {a : α} (ha : a ∈ l) :
    ∃ b ∈ firsts agree l, agree b a := by
  rcases firstsBehind_covers hrefl htrans [] ha with ⟨b, hb, -⟩ | h
  · cases hb
  · exact h

/-- A value that agrees with no other is kept. -/
theorem mem_firstsBehind_of_alone {a : α} (ha : a ∈ l) (halone : ∀ b, ¬ agree b a)
    (before : List α) : a ∈ firstsBehind agree before l := by
  induction l generalizing before with
  | nil => cases ha
  | cons c l ih =>
    rw [firstsBehind]
    rcases List.mem_cons.mp ha with rfl | ha
    · rw [if_neg fun h => h.elim fun b hb => halone b hb.2]
      exact List.mem_cons_self
    · split_ifs
      · exact ih ha _
      · exact List.mem_cons_of_mem _ (ih ha _)

theorem mem_firsts_of_alone {a : α} (ha : a ∈ l) (halone : ∀ b, ¬ agree b a) : a ∈ firsts agree l :=
  mem_firstsBehind_of_alone ha halone []

theorem not_agree_of_mem_firstsBehind {a b : α} (ha : a ∈ firstsBehind agree before l)
    (hb : b ∈ before) : ¬ agree b a := by
  induction l generalizing before with
  | nil => cases ha
  | cons c l ih =>
    rw [firstsBehind] at ha
    split_ifs at ha with hseen
    · exact ih ha (List.mem_append_left _ hb)
    · rcases List.mem_cons.mp ha with rfl | ha
      · exact fun hagree => hseen ⟨b, hb, hagree⟩
      · exact ih ha (List.mem_append_left _ hb)

/-- No two values that are kept agree. -/
theorem pairwise_firsts (agree : α → α → Prop) [DecidableRel agree] (l : List α) :
    (firsts agree l).Pairwise fun b a => ¬ agree b a := by
  have hbehind : ∀ before, (firstsBehind agree before l).Pairwise fun b a => ¬ agree b a := by
    induction l with
    | nil => exact fun _ => List.Pairwise.nil
    | cons c l ih =>
      intro before
      rw [firstsBehind]
      split_ifs
      · exact ih _
      · refine List.pairwise_cons.mpr ⟨fun a ha => ?_, ih _⟩
        exact not_agree_of_mem_firstsBehind ha (List.mem_append_right _ List.mem_cons_self)
  exact hbehind []

end Classes

section Relations
variable {α : Type*} {dup : α → α → Bool} {add : List α → α → List α}
  (hadd : ∀ l a, add l a = if l.any (dup a) then l else l ++ [a])
include hadd

/-- What is added has no duplicate in front of it. -/
theorem foldl_addNew (l more : List α) :
    ∃ added, more.foldl add l = l ++ added ∧ added.Sublist more ∧
      ∀ front a back, added = front ++ a :: back → ∀ b ∈ l ++ front, dup a b = false := by
  induction more generalizing l with
  | nil => exact ⟨[], by simp, List.Sublist.refl _, by simp⟩
  | cons a more ih =>
    rw [List.foldl_cons, hadd]
    split_ifs with hany
    · obtain ⟨added, heq, hsub, hnew⟩ := ih l
      exact ⟨added, heq, hsub.cons a, hnew⟩
    · obtain ⟨added, heq, hsub, hnew⟩ := ih (l ++ [a])
      refine ⟨a :: added, by rw [heq, List.append_assoc, List.singleton_append], hsub.cons_cons a, ?_⟩
      intro front a' back hsplit b hb
      cases front with
      | nil =>
        obtain ⟨rfl, -⟩ := List.cons.inj hsplit
        rw [List.append_nil] at hb
        simpa using fun h => hany (List.any_eq_true.mpr ⟨b, hb, h⟩)
      | cons first front =>
        obtain ⟨rfl, hrest⟩ := List.cons.inj hsplit
        exact hnew front a' back hrest b (by simpa using hb)

/-- Whether a value is added depends on those before it. -/
theorem foldl_addNew_split (l front back : List α) (a : α) :
    ∃ added, (front ++ a :: back).foldl add l =
      front.foldl add l ++ (if ∃ b ∈ front.foldl add l, dup a b = true then [] else [a]) ++ added ∧
        added.Sublist back := by
  have hone : add (front.foldl add l) a =
      front.foldl add l ++ if ∃ b ∈ front.foldl add l, dup a b = true then [] else [a] := by
    rw [hadd]
    simp only [List.any_eq_true]
    split_ifs
    · rw [List.append_nil]
    · rfl
  obtain ⟨added, heq, hsub, -⟩ := foldl_addNew hadd (add (front.foldl add l) a) back
  exact ⟨added, by rw [List.foldl_append, List.foldl_cons, heq, hone], hsub⟩

/-- A value that has been there once, or has a duplicate, changes nothing when it comes again. -/
theorem foldl_addNew_again {l more : List α} (h : ∀ a ∈ more, ∃ b ∈ l, dup a b = true) :
    more.foldl add l = l := by
  induction more with
  | nil => rfl
  | cons a more ih =>
    rw [List.forall_mem_cons] at h
    rw [List.foldl_cons, hadd, if_pos (List.any_eq_true.mpr h.1), ih h.2]

/-- At the end every value has a duplicate in the list. -/
theorem foldl_addNew_covers (hrefl : ∀ a, dup a a = true) (l more : List α) :
    ∀ a ∈ more, ∃ b ∈ more.foldl add l, dup a b = true := by
  induction more generalizing l with
  | nil => simp
  | cons a more ih =>
    rw [List.forall_mem_cons, List.foldl_cons]
    refine ⟨?_, ih _⟩
    obtain ⟨added, heq, -⟩ := foldl_addNew hadd (add l a) more
    rw [heq, hadd]
    split_ifs with hany
    · obtain ⟨b, hb, hdup⟩ := List.any_eq_true.mp hany
      exact ⟨b, List.mem_append_left _ hb, hdup⟩
    · exact ⟨a, by simp, hrefl a⟩

end Relations

end FirstSeen
