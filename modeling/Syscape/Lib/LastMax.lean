import Mathlib.Data.List.Induction
import Mathlib.Tactic.Common

/-!
# The last of the largest

A scan over a list that keeps an item until a later one that counts is at least as large. What it
has at the end is the last of the largest items that count.
-/
namespace LastMax
variable {α : Type*} (p : α → Prop) [DecidablePred p] (f : α → ℕ)

/-- What the scan keeps behind one more item. -/
def keep (best : Option α) (a : α) : Option α :=
  if p a ∧ ∀ b ∈ best, f b ≤ f a then some a else best

/-- The scan. -/
def lastMax (l : List α) : Option α := l.foldl (keep p f) none

/-- Among the items that count, none is larger, and none behind it is as large. -/
structure IsLastMax (l : List α) (a : α) : Prop where
  counts : p a
  split : ∃ before after, l = before ++ a :: after ∧ (∀ b ∈ before, p b → f b ≤ f a) ∧
    ∀ b ∈ after, p b → f b < f a

variable {p f} {l : List α} {a b : α}

theorem lastMax_concat (l : List α) (a : α) :
    lastMax p f (l ++ [a]) = keep p f (lastMax p f l) a := by
  rw [lastMax, List.foldl_append]
  rfl

/-- What is kept is at least as large as every item that counts. -/
theorem exists_le_lastMax (hb : b ∈ l) (hp : p b) : ∃ a, lastMax p f l = some a ∧ f b ≤ f a := by
  induction l using List.reverseRecOn with
  | nil => cases hb
  | append_singleton l c ih =>
    rw [lastMax_concat, keep]
    split_ifs with hc
    · refine ⟨c, rfl, ?_⟩
      rcases List.mem_append.mp hb with hb | hb
      · obtain ⟨a, ha, hle⟩ := ih hb
        exact Nat.le_trans hle (hc.2 a ha)
      · exact Nat.le_of_eq (congrArg f (List.mem_singleton.mp hb))
    · rcases List.mem_append.mp hb with hb | hb
      · exact ih hb
      · -- the last item counts and is not kept, so the one before is larger
        rw [List.mem_singleton.mp hb] at hp ⊢
        by_contra hnone
        refine hc ⟨hp, fun a ha => ?_⟩
        by_contra hlt
        exact hnone ⟨a, ha, by omega⟩

theorem isLastMax_of_eq_some (h : lastMax p f l = some a) : IsLastMax p f l a := by
  induction l using List.reverseRecOn with
  | nil => cases h
  | append_singleton l c ih =>
    rw [lastMax_concat, keep] at h
    split_ifs at h with hc
    · cases h
      refine ⟨hc.1, l, [], rfl, ?_, by simp⟩
      intro b hb hp
      obtain ⟨a, ha, hle⟩ := exists_le_lastMax hb hp
      exact Nat.le_trans hle (hc.2 a ha)
    · obtain ⟨hp, before, after, rfl, hbefore, hafter⟩ := ih h
      refine ⟨hp, before, after ++ [c], by simp, hbefore, ?_⟩
      intro b hb hpb
      rcases List.mem_append.mp hb with hb | hb
      · exact hafter b hb hpb
      · rw [List.mem_singleton.mp hb] at hpb ⊢
        by_contra hle
        refine hc ⟨hpb, fun d hd => ?_⟩
        rw [h, Option.mem_some_iff] at hd
        rw [← hd]
        omega

/-- The scan ends with the last of the largest. -/
theorem lastMax_eq_some_iff : lastMax p f l = some a ↔ IsLastMax p f l a := by
  refine ⟨isLastMax_of_eq_some, ?_⟩
  rintro ⟨hp, before, after, rfl, hbefore, hafter⟩
  have hfound : keep p f (lastMax p f before) a = some a := by
    refine if_pos ⟨hp, fun b hb => ?_⟩
    obtain ⟨hpb, front, back, rfl, -, -⟩ := isLastMax_of_eq_some hb
    exact hbefore b (by simp) hpb
  have hkept : ∀ more : List α, (∀ b ∈ more, p b → f b < f a) →
      more.foldl (keep p f) (some a) = some a := by
    intro more hmore
    induction more with
    | nil => rfl
    | cons b more ih =>
      rw [List.forall_mem_cons] at hmore
      have hnot : ¬ (p b ∧ ∀ c ∈ some a, f c ≤ f b) := by
        rintro ⟨hpb, hle⟩
        exact absurd (hle a rfl) (Nat.not_le.mpr (hmore.1 hpb))
      rw [List.foldl_cons, keep, if_neg hnot, ih hmore.2]
  rw [lastMax, List.foldl_append, List.foldl_cons]
  change after.foldl (keep p f) (keep p f (lastMax p f before) a) = some a
  rw [hfound, hkept after hafter]

end LastMax
