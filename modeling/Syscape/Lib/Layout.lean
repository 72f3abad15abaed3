import Mathlib.Data.List.Chain
import Mathlib.Tactic.Common
import Mathlib.Algebra.GroupWithZero.Nat

/-!
# Blocks one behind the other

A list of blocks is laid out from a first address on: each block starts where the one before
it ends. A walk that goes from block to block has passed a prefix of the list, and the next
block starts at the end of the prefix.
-/
namespace Layout
variable {α : Type*} (size : α → ℕ)

/-- The length of the blocks together. -/
def extent (blocks : List α) : ℕ := (blocks.map size).sum

/-- The blocks with the addresses at which they start. -/
def placed (start : ℕ) : List α → List (ℕ × α)
  | [] => []
  | block :: blocks => (start, block) :: placed (start + size block) blocks

/-- The block that starts at an address. -/
def blockAt (start : ℕ) : List α → ℕ → Option α
  | [], _ => none
  | block :: blocks, address =>
    if address = start then some block else blockAt (start + size block) blocks address

variable {size} {start bound : ℕ} {blocks front back : List α} {block : α}

@[simp] theorem extent_nil : extent size [] = 0 := rfl

@[simp] theorem extent_cons (block : α) (blocks : List α) :
    extent size (block :: blocks) = size block + extent size blocks := by
  simp [extent]

@[simp] theorem extent_append (front back : List α) :
    extent size (front ++ back) = extent size front + extent size back := by
  simp [extent]

theorem placed_append (start : ℕ) (front back : List α) :
    placed size start (front ++ back) =
      placed size start front ++ placed size (start + extent size front) back := by
  induction front generalizing start with
  | nil => rfl
  | cons block front ih =>
    rw [List.cons_append, placed, ih, placed, List.cons_append, extent_cons, Nat.add_assoc]

theorem le_of_mem_placed {p : ℕ × α} (h : p ∈ placed size start blocks) : start ≤ p.1 := by
  induction blocks generalizing start with
  | nil => cases h
  | cons block blocks ih =>
    rcases List.mem_cons.mp h with rfl | h
    · exact Nat.le_refl _
    · exact Nat.le_of_add_right_le (ih h)

theorem lt_of_mem_placed (hpos : ∀ block ∈ blocks, 0 < size block) {p : ℕ × α}
    (h : p ∈ placed size start blocks) : p.1 < start + extent size blocks := by
  induction blocks generalizing start with
  | nil => cases h
  | cons block blocks ih =>
    rw [List.forall_mem_cons] at hpos
    rw [extent_cons]
    rcases List.mem_cons.mp h with rfl | h
    · have hblock := hpos.1
      dsimp only
      omega
    · have hlt := ih hpos.2 h
      omega

/-- The block behind a prefix starts where that ends. -/
theorem blockAt_append (hpos : ∀ block ∈ front, 0 < size block) :
    blockAt size start (front ++ block :: back) (start + extent size front) = some block := by
  induction front generalizing start with
  | nil => simp [blockAt]
  | cons first front ih =>
    rw [List.forall_mem_cons] at hpos
    have hfirst := hpos.1
    rw [List.cons_append, blockAt, extent_cons, if_neg (by omega), ← Nat.add_assoc, ih hpos.2]

@[simp] theorem map_snd_placed (start : ℕ) (blocks : List α) :
    (placed size start blocks).map Prod.snd = blocks := by
  induction blocks generalizing start with
  | nil => rfl
  | cons block blocks ih => rw [placed, List.map_cons, ih]

theorem mem_of_mem_placed {p : ℕ × α} (h : p ∈ placed size start blocks) : p.2 ∈ blocks := by
  rw [← @map_snd_placed _ size start blocks]
  exact List.mem_map_of_mem h

/-- The last block ends where all of them end. -/
theorem end_of_getLast? {p : ℕ × α} (h : p ∈ (placed size start blocks).getLast?) :
    p.1 + size p.2 = start + extent size blocks := by
  induction blocks using List.reverseRecOn with
  | nil => cases h
  | append_singleton blocks block =>
    rw [placed_append, placed, placed, List.getLast?_concat] at h
    cases h
    simp [Nat.add_assoc]

/-- Every block starts where the one before it ends. -/
theorem isChain_placed (hpos : ∀ block ∈ blocks, 0 < size block) :
    (placed size start blocks).IsChain fun p q => 0 < size p.2 ∧ p.1 + size p.2 = q.1 := by
  induction blocks using List.reverseRecOn with
  | nil => exact .nil
  | append_singleton blocks block ih =>
    have hblocks : ∀ block ∈ blocks, 0 < size block :=
      fun block hblock => hpos block (List.mem_append_left _ hblock)
    rw [placed_append]
    refine List.isChain_append.mpr ⟨ih hblocks, .singleton _, ?_⟩
    intro p hp q hq
    cases hq
    exact ⟨hblocks _ (mem_of_mem_placed (List.mem_of_getLast? hp)), end_of_getLast? hp⟩

/-- No block starts behind the last one. -/
theorem le_of_mem_placed_concat (hpos : ∀ block ∈ front, 0 < size block) {p : ℕ × α}
    (h : p ∈ placed size start (front ++ [block])) : p.1 ≤ start + extent size front := by
  rw [placed_append, List.mem_append] at h
  rcases h with h | h
  · exact Nat.le_of_lt (lt_of_mem_placed hpos h)
  · cases List.mem_singleton.mp h
    exact Nat.le_refl _

/-- The blocks that start at or below a bound, which the last of the first ones does. -/
theorem filter_placed (hpos : ∀ block ∈ front, 0 < size block)
    (hstart : start + extent size front ≤ bound) :
    (placed size start (front ++ block :: back)).filter (fun p => decide (p.1 ≤ bound)) =
      placed size start (front ++ [block]) ++
        (placed size (start + extent size (front ++ [block])) back).filter
          (fun p => decide (p.1 ≤ bound)) := by
  have hsplit : front ++ block :: back = (front ++ [block]) ++ back := by simp
  have hkept : ∀ p ∈ placed size start (front ++ [block]), p.1 ≤ bound :=
    fun p hp => Nat.le_trans (le_of_mem_placed_concat hpos hp) hstart
  rw [hsplit, placed_append start (front ++ [block]), List.filter_append,
    List.filter_eq_self.mpr (by simpa using hkept)]

/-- If it ends behind the bound, they are all that start there. -/
theorem filter_placed_of_lt (hpos : ∀ block ∈ front, 0 < size block)
    (hstart : start + extent size front ≤ bound)
    (hend : bound < start + extent size (front ++ [block])) :
    (placed size start (front ++ block :: back)).filter (fun p => decide (p.1 ≤ bound)) =
      placed size start (front ++ [block]) := by
  rw [filter_placed hpos hstart, List.filter_eq_nil_iff.mpr ?_, List.append_nil]
  intro p hp
  have hle := le_of_mem_placed hp
  rw [decide_eq_true_eq]
  omega

end Layout
