import Mathlib.Data.List.Basic
import Mathlib.Data.List.TakeWhile
import Mathlib.Tactic.Common
import Mathlib.Tactic.ByContra

/-!
# Paths and their components

A path is a text that separators divide into components. The separator alone stands for
the root, which has the same components as the empty text. One path is a prefix of another
by components if it is the same path, or is followed there by a separator.
-/
namespace Paths
variable {α : Type*} [DecidableEq α] {sep : α}

/-- The components of a path; those of an absolute path begin with an empty one. -/
def components (sep : α) (path : List α) : List (List α) :=
  if path = [sep] then [[]] else path.splitOn sep

/-- What a component of a written path can be. -/
def IsName (sep : α) (name : List α) : Prop := name ≠ [] ∧ sep ∉ name

theorem splitOn_injective (sep : α) {a b : List α} (h : a.splitOn sep = b.splitOn sep) : a = b := by
  have ha : [sep].intercalate (a.splitOn sep) = a := List.intercalate_splitOn sep
  have hb : [sep].intercalate (b.splitOn sep) = b := List.intercalate_splitOn sep
  rw [← ha, h, hb]

/-- The components of a path followed by names. -/
theorem splitOn_append_names (path : List α) {names : List (List α)}
    (h : ∀ name ∈ names, sep ∉ name) :
    (path ++ names.flatMap (sep :: ·)).splitOn sep = path.splitOn sep ++ names := by
  induction names generalizing path with
  | nil => simp
  | cons name names ih =>
    have hname : sep ∉ name := h name (by simp)
    have hpath : path ++ (name :: names).flatMap (sep :: ·) =
        (path ++ sep :: name) ++ names.flatMap (sep :: ·) := by simp
    rw [hpath, ih _ fun c hc => h c (by simp [hc]), List.splitOn_append_cons_self,
      List.splitOn_eq_singleton hname]
    simp

/-- A text is its first component and the others behind separators. -/
theorem exists_names (sep : α) (text : List α) :
    ∃ (name : List α) (names : List (List α)), sep ∉ name ∧ (∀ c ∈ names, sep ∉ c) ∧
      text = name ++ names.flatMap (sep :: ·) := by
  induction text with
  | nil => exact ⟨[], [], by simp, by simp, rfl⟩
  | cons c text ih =>
    obtain ⟨name, names, hname, hnames, rfl⟩ := ih
    by_cases hc : c = sep
    · subst hc
      refine ⟨[], name :: names, by simp, ?_, by simp⟩
      intro d hd
      rcases List.mem_cons.mp hd with rfl | hd
      · exact hname
      · exact hnames d hd
    · exact ⟨c :: name, names, by simp [Ne.symm hc, hname], hnames, rfl⟩

/-- A component has no separator, and nothing that is not in the path. -/
theorem of_mem_splitOn {text part : List α} (h : part ∈ text.splitOn sep) :
    sep ∉ part ∧ ∀ c ∈ part, c ∈ text := by
  obtain ⟨first, others, hfirst, hothers, rfl⟩ := exists_names sep text
  rw [splitOn_append_names first hothers, List.splitOn_eq_singleton hfirst, List.singleton_append,
    List.mem_cons] at h
  rcases h with rfl | h
  · exact ⟨hfirst, fun c hc => List.mem_append_left _ hc⟩
  · refine ⟨hothers part h, fun c hc => List.mem_append_right _ ?_⟩
    exact List.mem_flatMap.mpr ⟨part, h, List.mem_cons_of_mem _ hc⟩

/-- Prefixes by components. -/
theorem splitOn_prefix_iff {a b : List α} :
    a.splitOn sep <+: b.splitOn sep ↔ a = b ∨ (a ++ [sep]) <+: b := by
  constructor
  · rintro ⟨more, hmore⟩
    cases more with
    | nil =>
      rw [List.append_nil] at hmore
      exact .inl (splitOn_injective sep hmore)
    | cons name names =>
      right
      have hnames : ∀ c ∈ name :: names, sep ∉ c := by
        intro c hc
        have hmem : c ∈ b.splitOn sep := by
          rw [← hmore]
          exact List.mem_append_right _ hc
        exact (of_mem_splitOn hmem).1
      have hb : b = a ++ (name :: names).flatMap (sep :: ·) := by
        apply splitOn_injective sep
        rw [← hmore, splitOn_append_names a hnames]
      exact ⟨name ++ names.flatMap (sep :: ·), by simp [hb]⟩
  · rintro (rfl | ⟨more, rfl⟩)
    · exact List.prefix_refl _
    · rw [List.append_assoc, List.singleton_append, List.splitOn_append_cons_self]
      exact List.prefix_append _ _

section Last

/-- The position of the last separator. -/
def rfind (sep : α) : List α → Option ℕ
  | [] => none
  | c :: text =>
    match rfind sep text with
    | some i => some (i + 1)
    | none => if c = sep then some 0 else none

theorem rfind_of_not_mem {text : List α} (h : sep ∉ text) : rfind sep text = none := by
  induction text with
  | nil => rfl
  | cons c text ih =>
    rw [List.mem_cons, not_or] at h
    rw [rfind, ih h.2]
    exact if_neg (Ne.symm h.1)

/-- The last separator is the one in front of the last name. -/
theorem rfind_append_name (text : List α) {name : List α} (h : sep ∉ name) :
    rfind sep (text ++ sep :: name) = some text.length := by
  induction text with
  | nil =>
    rw [List.nil_append, rfind, rfind_of_not_mem h]
    exact if_pos rfl
  | cons c text ih => rw [List.cons_append, rfind, ih, List.length_cons]

theorem rfind_lt {text : List α} {i : ℕ} (h : rfind sep text = some i) : i < text.length := by
  induction text generalizing i with
  | nil => simp [rfind] at h
  | cons c text ih =>
    rw [rfind] at h
    cases hr : rfind sep text with
    | some j =>
      have hj := ih hr
      rw [hr] at h
      cases h
      simpa using hj
    | none =>
      rw [hr] at h
      simp only at h
      split_ifs at h
      cases h
      simp

/-- A text without the separator does not move it. -/
theorem rfind_append_of_not_mem (text : List α) {more : List α} (h : sep ∉ more) :
    rfind sep (text ++ more) = rfind sep text := by
  induction text with
  | nil => exact rfind_of_not_mem h
  | cons c text ih => rw [List.cons_append, rfind, rfind, ih]

theorem idxOf?_append_of_not_mem (text : List α) {more : List α} (h : sep ∉ more) :
    (text ++ more).idxOf? sep = text.idxOf? sep := by
  induction text with
  | nil => simpa using h
  | cons c text ih => rw [List.cons_append, List.idxOf?_cons, List.idxOf?_cons, ih]

/-- The first separator is the one behind the first name. -/
theorem idxOf?_append_cons {name : List α} (h : sep ∉ name) (text : List α) :
    (name ++ sep :: text).idxOf? sep = some name.length := by
  induction name with
  | nil => simp [List.idxOf?_cons]
  | cons c name ih =>
    rw [List.mem_cons, not_or] at h
    rw [List.cons_append, List.idxOf?_cons, ih h.2, if_neg (by simpa using Ne.symm h.1)]
    rfl

/-- A text without the separator reaches to its end. -/
theorem takeWhile_of_not_mem {text : List α} (h : sep ∉ text) :
    text.takeWhile (fun c => decide (c ≠ sep)) = text := by
  rw [List.takeWhile_eq_self_iff]
  intro c hc
  have hne : c ≠ sep := fun heq => h (heq ▸ hc)
  simpa using hne

omit [DecidableEq α] in
/-- What stands behind the first element that follows a name. -/
theorem drop_append_cons (name : List α) (c : α) (text : List α) :
    (name ++ c :: text).drop (name.length + 1) = text := by
  rw [List.drop_append, List.drop_eq_nil_of_le (Nat.le_succ _)]
  simp

/-- There is one way to split at the first separator. -/
theorem append_cons_inj {a b x y : List α} (ha : sep ∉ a) (hb : sep ∉ b)
    (h : a ++ sep :: x = b ++ sep :: y) : a = b ∧ x = y := by
  have hlength : a.length = b.length := by
    have hindex := congrArg (List.idxOf? sep) h
    rwa [idxOf?_append_cons ha, idxOf?_append_cons hb, Option.some_inj] at hindex
  obtain ⟨hfront, hbehind⟩ := List.append_inj h hlength
  exact ⟨hfront, (List.cons.inj hbehind).2⟩

/-- A position of the first separator is the length of the name in front of it. -/
theorem exists_of_idxOf?_eq_some {text : List α} {i : ℕ} (h : text.idxOf? sep = some i) :
    ∃ name more, text = name ++ sep :: more ∧ sep ∉ name ∧ name.length = i := by
  have hmem : sep ∈ text := by
    by_contra hnot
    rw [List.idxOf?_eq_none_iff.mpr hnot] at h
    cases h
  obtain ⟨name, more, rfl, hname⟩ := List.eq_append_cons_of_mem hmem
  rw [idxOf?_append_cons hname, Option.some_inj] at h
  exact ⟨name, more, rfl, hname, h⟩

end Last

end Paths
