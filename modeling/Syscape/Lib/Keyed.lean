import Syscape.Lib.Checked
import Syscape.Lib.LastValue

/-!
# Records that are read field by field

A record has one place for each key. A loop over items reads a value from each item that has
a key and puts it into its place; an item whose value cannot be read ends the loop. Where an
item with the same key comes again, the last value counts.
-/
namespace Keyed
open Checked LastValue

/-- The places of a record, and the record in which nothing was put. -/
structure Places (σ κ ν : Type*) [DecidableEq κ] where
  get : σ → κ → Option ν
  set : σ → κ → ν → σ
  empty : σ
  get_set : ∀ s k v other, get (set s k v) other = if other = k then some v else get s other
  get_empty : ∀ k, get empty k = none

universe u
variable {σ ν ι : Type u} {κ ε : Type*} [DecidableEq κ]

/-- One item. -/
def step (places : Places σ κ ν) (key : ι → Option κ) (read : κ → ι → Except ε ν) (s : σ)
    (item : ι) : Except ε σ :=
  match key item with
  | none => .ok s
  | some k => do
    let v ← read k item
    .ok (places.set s k v)

variable (key : ι → Option κ) (read : κ → ι → Except ε ν)

/-- The item has no key, or a value that can be read. -/
def Accepted (item : ι) : Prop := ∀ k, key item = some k → ∃ v, read k item = .ok v

/-- The value that an item gives to a key. -/
def given (k : κ) (item : ι) : Option ν :=
  if key item = some k then (read k item).toOption else none

/-- The record behind an item that is accepted. -/
def next (places : Places σ κ ν) (s : σ) (item : ι) : σ :=
  match key item with
  | none => s
  | some k => ((read k item).toOption.map (places.set s k)).getD s

variable {key read} {places : Places σ κ ν}

theorem step_eq_ok (s : σ) (item : ι) (s' : σ) :
    step places key read s item = .ok s' ↔
      Accepted key read item ∧ s' = next key read places s item := by
  unfold step Accepted next
  cases hkey : key item with
  | none => simp [eq_comm]
  | some k => cases hread : read k item <;> simp [hread, eq_comm, Except.toOption]

theorem given_of_key_ne {k : κ} {item : ι} (h : key item ≠ some k) : given key read k item = none :=
  if_neg h

theorem get_next (s : σ) (item : ι) (k : κ) :
    places.get (next key read places s item) k = (given key read k item).or (places.get s k) := by
  unfold next given
  cases hkey : key item with
  | none => simp
  | some other =>
    by_cases hk : k = other
    · subst hk
      cases hread : (read k item).toOption <;> simp [hread, places.get_set]
    · rw [if_neg fun h => hk (Option.some.inj h).symm, Option.none_or]
      cases hread : (read other item).toOption <;> simp [hread, places.get_set, hk]

/-- A place ends with the last value that an item gives to it. -/
theorem get_foldl (items : List ι) (s : σ) (k : κ) :
    places.get (items.foldl (next key read places) s) k =
      (lastOf (given key read k) items).or (places.get s k) := by
  induction items generalizing s with
  | nil => simp
  | cons item items ih => rw [List.foldl_cons, ih, get_next, lastOf_cons, Option.or_assoc]

/-- The loop ends early at the first item that is not accepted. -/
theorem exists_run_iff {items : List ι} :
    (∃ out, items.foldlM (step places key read) places.empty = .ok out) ↔
      ∀ item ∈ items, Accepted key read item := by
  simp only [foldlM_eq_ok step_eq_ok, exists_and_left, exists_eq, and_true]

theorem get_run {items : List ι} {out : σ}
    (h : items.foldlM (step places key read) places.empty = .ok out) (k : κ) :
    places.get out k = lastOf (given key read k) items := by
  obtain ⟨-, rfl⟩ := (foldlM_eq_ok step_eq_ok).mp h
  rw [get_foldl, places.get_empty, Option.or_none]

/-- A key has a value if an item has the key and all items are accepted. -/
theorem lastOf_given_ne_none {items : List ι} (h : ∀ item ∈ items, Accepted key read item) {k : κ} :
    lastOf (given key read k) items ≠ none ↔ ∃ item ∈ items, key item = some k := by
  rw [ne_eq, lastOf_eq_none_iff, not_forall]
  constructor
  · rintro ⟨item, hitem⟩
    simp only [given, Classical.not_imp] at hitem
    obtain ⟨hmem, hgiven⟩ := hitem
    by_contra hnot
    exact hgiven (if_neg fun hkey => hnot ⟨item, hmem, hkey⟩)
  · rintro ⟨item, hmem, hkey⟩
    obtain ⟨v, hv⟩ := h item hmem k hkey
    refine ⟨item, ?_⟩
    simp [given, hmem, hkey, hv, Except.toOption]

/-- If the items with a key are these in any order, and one of them has this key, its value
counts. -/
theorem lastOf_given_of_perm {items written : List ι} {k : κ} {v : ν}
    (hperm : (items.filter fun item => (key item).isSome).Perm written)
    (h : written.filterMap (given key read k) = [v]) :
    lastOf (given key read k) items = some v := by
  have hitems : items.filterMap (given key read k) =
      (items.filter fun item => (key item).isSome).filterMap (given key read k) := by
    rw [List.filterMap_filter]
    apply List.filterMap_congr
    intro item _
    split_ifs with hkey
    · rfl
    · exact given_of_key_ne fun heq => hkey (by simp [heq])
  have hvalues := hperm.filterMap (given key read k)
  rw [h] at hvalues
  rw [lastOf, hitems, List.perm_singleton.mp hvalues, List.getLast?_singleton]

end Keyed
