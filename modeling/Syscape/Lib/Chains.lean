import Mathlib.Data.Set.Lattice
import Mathlib.Data.Nat.Notation
import Mathlib.Tactic.Common
import Mathlib.Tactic.ByContra

/-!
# What all maximal chains of a graph reach

A graph is given by the list of successors of each vertex; it may have cycles. A
maximal chain goes on as long as its last vertex has a successor. Every maximal
chain from a vertex reaches a label within `k` steps exactly when the recursion
over the successors says so, and the labels reached are the union of those reached
from the successors.
-/
namespace Chains
universe u v
variable {α : Type u} {τ : Type v}

/-- A maximal chain from `d`, as the sequence of its vertices; a finite one ends in a
vertex without successors and stays `none`. -/
structure MaximalChain (succ : α → List α) (d : α) (c : ℕ → Option α) : Prop where
  start : c 0 = some d
  ended : ∀ n, c n = none → c (n + 1) = none
  next : ∀ n x, c n = some x → (succ x = [] ∧ c (n + 1) = none) ∨
    ∃ y ∈ succ x, c (n + 1) = some y

/-- Within `k` steps the chain comes to a vertex with label `t`, through vertices that
may be passed and have no label. -/
def Reaches (label : α → Option τ) (pass : α → Prop) (c : ℕ → Option α) (k : ℕ) (t : τ) : Prop :=
  ∃ i ≤ k, ∃ x, c i = some x ∧ label x = some t ∧
    ∀ j < i, ∃ y, c j = some y ∧ label y = none ∧ pass y

/-- Every maximal chain from `d` reaches a label. -/
def Inevitable (succ : α → List α) (label : α → Option τ) (pass : α → Prop) (k : ℕ)
    (d : α) : Prop :=
  ∀ c, MaximalChain succ d c → ∃ t, Reaches label pass c k t

/-- The labels that the maximal chains from `d` reach first. -/
def firstLabels (succ : α → List α) (label : α → Option τ) (pass : α → Prop) (k : ℕ)
    (d : α) : Set τ :=
  {t | ∃ c, MaximalChain succ d c ∧ Reaches label pass c k t}

variable {succ : α → List α} {label : α → Option τ} {pass : α → Prop}

/-- Put a vertex in front of a chain. -/
def push (d : α) (c : ℕ → Option α) : ℕ → Option α
  | 0 => some d
  | n + 1 => c n

theorem MaximalChain.push {d y : α} {c : ℕ → Option α} (hy : y ∈ succ d)
    (hc : MaximalChain succ y c) : MaximalChain succ d (push d c) where
  start := rfl
  ended n h := by
    cases n with
    | zero => cases h
    | succ n => exact hc.ended n h
  next n x h := by
    cases n with
    | zero =>
      cases h
      exact .inr ⟨y, hy, hc.start⟩
    | succ n => exact hc.next n x h

theorem MaximalChain.tail {d y : α} {c : ℕ → Option α} (hc : MaximalChain succ d c)
    (hy : c 1 = some y) : MaximalChain succ y (fun n => c (n + 1)) where
  start := hy
  ended n h := hc.ended (n + 1) h
  next n x h := hc.next (n + 1) x h

/-- The chain that always takes the first successor. -/
def firstChain (succ : α → List α) (d : α) : ℕ → Option α
  | 0 => some d
  | n + 1 => (firstChain succ d n).bind fun x => (succ x).head?

theorem exists_maximalChain (succ : α → List α) (d : α) : ∃ c, MaximalChain succ d c := by
  refine ⟨firstChain succ d, rfl, ?_, ?_⟩
  · intro n h
    simp [firstChain, h]
  · intro n x h
    cases hs : succ x with
    | nil => exact .inl ⟨rfl, by simp [firstChain, h, hs]⟩
    | cons y ys => exact .inr ⟨y, by simp, by simp [firstChain, h, hs]⟩

theorem reaches_zero_of_label {c : ℕ → Option α} {d : α} {t t' : τ} {k : ℕ} (h0 : c 0 = some d)
    (hd : label d = some t) : Reaches label pass c k t' ↔ t' = t := by
  constructor
  · rintro ⟨i, -, x, hx, hlx, hbefore⟩
    cases i with
    | zero =>
      obtain rfl : d = x := Option.some.inj (h0.symm.trans hx)
      exact Option.some.inj (hlx.symm.trans hd)
    | succ i =>
      obtain ⟨y, hy, hly, -⟩ := hbefore 0 (Nat.succ_pos i)
      obtain rfl : d = y := Option.some.inj (h0.symm.trans hy)
      rw [hd] at hly
      cases hly
  · rintro rfl
    exact ⟨0, Nat.zero_le k, d, h0, hd, fun j hj => absurd hj (Nat.not_lt_zero j)⟩

/-- From an unlabelled vertex a label is reached through the next vertex. -/
theorem reaches_succ {c : ℕ → Option α} {d : α} {t : τ} {k : ℕ} (h0 : c 0 = some d)
    (hd : label d = none) :
    Reaches label pass c (k + 1) t ↔ pass d ∧ Reaches label pass (fun n => c (n + 1)) k t := by
  constructor
  · rintro ⟨i, hi, x, hx, hlx, hbefore⟩
    cases i with
    | zero =>
      obtain rfl : d = x := Option.some.inj (h0.symm.trans hx)
      rw [hd] at hlx
      cases hlx
    | succ i =>
      obtain ⟨y, hy, -, hpy⟩ := hbefore 0 (Nat.succ_pos i)
      obtain rfl : d = y := Option.some.inj (h0.symm.trans hy)
      exact ⟨hpy, i, Nat.le_of_succ_le_succ hi, x, hx, hlx,
        fun j hj => hbefore (j + 1) (Nat.succ_lt_succ hj)⟩
  · rintro ⟨hpass, i, hi, x, hx, hlx, hbefore⟩
    refine ⟨i + 1, Nat.succ_le_succ hi, x, hx, hlx, fun j hj => ?_⟩
    cases j with
    | zero => exact ⟨d, h0, hd, hpass⟩
    | succ j => exact hbefore j (Nat.lt_of_succ_lt_succ hj)

theorem not_reaches_zero {c : ℕ → Option α} {d : α} {t : τ} (h0 : c 0 = some d)
    (hd : label d = none) : ¬ Reaches label pass c 0 t := by
  rintro ⟨i, hi, x, hx, hlx, -⟩
  obtain rfl := Nat.le_zero.mp hi
  obtain rfl : d = x := Option.some.inj (h0.symm.trans hx)
  rw [hd] at hlx
  cases hlx

theorem MaximalChain.none_of_ended {d : α} {c : ℕ → Option α} (hc : MaximalChain succ d c)
    (h : c 1 = none) (n : ℕ) : c (n + 1) = none := by
  induction n with
  | zero => exact h
  | succ n ih => exact hc.ended (n + 1) ih

lemma not_reaches_of_none {c : ℕ → Option α} {t : τ} {k : ℕ} (h : ∀ n, c n = none) :
    ¬ Reaches label pass c k t := by
  rintro ⟨i, -, x, hx, -⟩
  rw [h i] at hx
  cases hx

/-- Only the sets of successors matter, not their order. -/
theorem maximalChain_congr {succ' : α → List α} (h : ∀ x y, y ∈ succ x ↔ y ∈ succ' x) (d : α)
    (c : ℕ → Option α) : MaximalChain succ d c ↔ MaximalChain succ' d c := by
  have hnil : ∀ x, succ x = [] ↔ succ' x = [] := by
    intro x
    simp only [List.eq_nil_iff_forall_not_mem, h]
  constructor
  · rintro ⟨hstart, hended, hnext⟩
    refine ⟨hstart, hended, fun n x hx => ?_⟩
    simpa only [hnil, h] using hnext n x hx
  · rintro ⟨hstart, hended, hnext⟩
    refine ⟨hstart, hended, fun n x hx => ?_⟩
    simpa only [hnil, h] using hnext n x hx

theorem inevitable_congr {succ' : α → List α} (h : ∀ x y, y ∈ succ x ↔ y ∈ succ' x) (k : ℕ)
    (d : α) : Inevitable succ label pass k d ↔ Inevitable succ' label pass k d := by
  simp only [Inevitable, maximalChain_congr h]

theorem firstLabels_congr {succ' : α → List α} (h : ∀ x y, y ∈ succ x ↔ y ∈ succ' x) (k : ℕ)
    (d : α) : firstLabels succ label pass k d = firstLabels succ' label pass k d := by
  ext t
  simp only [firstLabels, Set.mem_ofPred_eq, maximalChain_congr h]

section Recursion
variable {d : α} {t : τ} {k : ℕ}

theorem inevitable_of_label (h : label d = some t) : Inevitable succ label pass k d :=
  fun _ hc => ⟨t, (reaches_zero_of_label hc.start h).mpr rfl⟩

theorem firstLabels_of_label (h : label d = some t) :
    firstLabels succ label pass k d = {t} := by
  ext t'
  obtain ⟨c, hc⟩ := exists_maximalChain succ d
  constructor
  · rintro ⟨c', hc', hr⟩
    exact (reaches_zero_of_label hc'.start h).mp hr
  · intro ht
    exact ⟨c, hc, (reaches_zero_of_label hc.start h).mpr ht⟩

theorem not_inevitable_zero (h : label d = none) : ¬ Inevitable succ label pass 0 d := by
  intro hall
  obtain ⟨c, hc⟩ := exists_maximalChain succ d
  obtain ⟨t, ht⟩ := hall c hc
  exact not_reaches_zero hc.start h ht

/-- One step of the recursion: the vertex may be passed, has a successor, and all its
successors lead to labels. -/
theorem inevitable_succ (h : label d = none) :
    Inevitable succ label pass (k + 1) d ↔
      pass d ∧ succ d ≠ [] ∧ ∀ y ∈ succ d, Inevitable succ label pass k y := by
  constructor
  · intro hall
    obtain ⟨c, hc⟩ := exists_maximalChain succ d
    obtain ⟨t, ht⟩ := hall c hc
    obtain ⟨hpass, ht⟩ := (reaches_succ hc.start h).mp ht
    refine ⟨hpass, ?_, fun y hy c' hc' => ?_⟩
    · intro hnil
      rcases hc.next 0 d hc.start with ⟨-, hend⟩ | ⟨y, hy, -⟩
      · exact not_reaches_of_none (hc.none_of_ended hend) ht
      · rw [hnil] at hy
        cases hy
    · obtain ⟨t', ht'⟩ := hall (push d c') (hc'.push hy)
      have hstart : push d c' 0 = some d := rfl
      exact ⟨t', ((reaches_succ hstart h).mp ht').2⟩
  · rintro ⟨hpass, hne, hall⟩ c hc
    rcases hc.next 0 d hc.start with ⟨hnil, -⟩ | ⟨y, hy, hy1⟩
    · exact absurd hnil hne
    · obtain ⟨t, ht⟩ := hall y hy _ (hc.tail hy1)
      exact ⟨t, (reaches_succ hc.start h).mpr ⟨hpass, ht⟩⟩

theorem firstLabels_succ (h : label d = none) (hpass : pass d) :
    firstLabels succ label pass (k + 1) d =
      ⋃ y ∈ succ d, firstLabels succ label pass k y := by
  ext t
  simp only [Set.mem_iUnion, exists_prop]
  constructor
  · rintro ⟨c, hc, hr⟩
    obtain ⟨-, ht⟩ := (reaches_succ hc.start h).mp hr
    rcases hc.next 0 d hc.start with ⟨-, hend⟩ | ⟨y, hy, hy1⟩
    · exact absurd ht (not_reaches_of_none (hc.none_of_ended hend))
    · exact ⟨y, hy, _, hc.tail hy1, ht⟩
  · rintro ⟨y, hy, c, hc, ht⟩
    have hstart : push d c 0 = some d := rfl
    exact ⟨push d c, hc.push hy, (reaches_succ hstart h).mpr ⟨hpass, ht⟩⟩

end Recursion

end Chains
