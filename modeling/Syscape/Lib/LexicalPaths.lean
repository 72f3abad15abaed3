import Syscape.Lib.Paths
import Mathlib.Data.List.Induction

/-!
# Lexical paths

An absolute path is a list of names, each written behind a separator; the root has none. Names
are read from any text between its separators, and empty ones are passed over. Resolution goes
through names from left to right: a dot stays, two dots go up if there is something above, and
any other name goes down.
-/
namespace LexicalPaths
open Paths
variable {α : Type*} [DecidableEq α] (sep dot : α)

section Names

/-- The names in a text. -/
def names (text : List α) : List (List α) := (text.splitOn sep).filter (· ≠ [])

/-- The absolute path with these names. -/
def absolute (path : List (List α)) : List α :=
  if path = [] then [sep] else path.flatMap (sep :: ·)

/-- The relative path with these names. -/
def relative (path : List (List α)) : List α := [sep].intercalate path

variable {sep}

theorem isName_of_mem_names {text name : List α} (h : name ∈ names sep text) : IsName sep name := by
  rw [names, List.mem_filter] at h
  exact ⟨by simpa using h.2, (of_mem_splitOn h.1).1⟩

/-- The names on both sides of a separator. -/
theorem names_append_cons (text more : List α) :
    names sep (text ++ sep :: more) = names sep text ++ names sep more := by
  rw [names, List.splitOn_append_cons_self, List.filter_append, names, names]

theorem names_of_isName {name : List α} (h : IsName sep name) : names sep name = [name] := by
  rw [names, List.splitOn_eq_singleton h.2]
  simp [h.1]

theorem names_nil : names sep [] = [] := by
  simp [names]

theorem names_cons (more : List α) : names sep (sep :: more) = names sep more := by
  simpa [names_nil] using @names_append_cons α _ sep [] more

theorem names_flatMap {path : List (List α)} (h : ∀ name ∈ path, IsName sep name) :
    names sep (path.flatMap (sep :: ·)) = path := by
  induction path with
  | nil => exact names_nil
  | cons name path ih =>
    rw [List.forall_mem_cons] at h
    cases path with
    | nil => simp [names_cons, names_of_isName h.1]
    | cons next path =>
      have hmore := ih h.2
      rw [List.flatMap_cons, List.cons_append, names_cons] at hmore ⊢
      rw [List.flatMap_cons, List.cons_append, names_append_cons, names_of_isName h.1, hmore]
      rfl

/-- The parts behind separators are names, unless they are empty. -/
theorem names_parts {parts : List (List α)} (h : ∀ part ∈ parts, sep ∉ part) :
    names sep (parts.flatMap (sep :: ·)) = parts.filter (· ≠ []) := by
  have hsplit := @splitOn_append_names α _ sep [] parts h
  rw [List.nil_append, List.splitOn_nil, List.singleton_append] at hsplit
  rw [names, hsplit]
  simp

/-- The names of an absolute path are found again. -/
theorem names_absolute {path : List (List α)} (h : ∀ name ∈ path, IsName sep name) :
    names sep (absolute sep path) = path := by
  rw [absolute]
  split_ifs with hnil
  · rw [hnil, names_cons, names_nil]
  · exact names_flatMap h

omit [DecidableEq α] in
theorem head?_absolute (path : List (List α)) : (absolute sep path).head? = some sep := by
  cases path <;> simp [absolute]

/-- The components of a relative path are its names. -/
theorem splitOn_relative {path : List (List α)} (h : ∀ name ∈ path, IsName sep name)
    (hne : path ≠ []) : (relative sep path).splitOn sep = path :=
  List.splitOn_intercalate sep (fun name hname => (h name hname).2) hne

omit [DecidableEq α] in
theorem cons_relative {path : List (List α)} (hne : path ≠ []) :
    sep :: relative sep path = path.flatMap (sep :: ·) := by
  induction path with
  | nil => exact absurd rfl hne
  | cons name path ih =>
    cases path with
    | nil => simp [relative]
    | cons next path =>
      rw [relative, List.intercalate_cons_cons, List.flatMap_cons, ← ih (by simp), relative]
      simp

theorem relative_ne_nil {path : List (List α)} (h : ∀ name ∈ path, IsName sep name)
    (hne : path ≠ []) : relative sep path ≠ [] := by
  intro hnil
  have hpath := splitOn_relative h hne
  rw [hnil, List.splitOn_nil] at hpath
  exact (h [] (by simp [← hpath])).1 rfl

omit [DecidableEq α] in
/-- What follows an absolute path below it. -/
theorem absolute_append {path more : List (List α)} (hpath : path ≠ []) (hmore : more ≠ []) :
    absolute sep (path ++ more) = absolute sep path ++ sep :: relative sep more := by
  rw [absolute, if_neg (by simp [hpath]), absolute, if_neg hpath, List.flatMap_append,
    cons_relative hmore]

omit [DecidableEq α] in
/-- What follows the root. -/
theorem absolute_eq_cons {path : List (List α)} (h : path ≠ []) :
    absolute sep path = sep :: relative sep path := by
  rw [absolute, if_neg h, cons_relative h]

omit [DecidableEq α] in
/-- Only the root ends with a separator. -/
theorem eq_nil_of_getLast?_absolute {path : List (List α)} (h : ∀ name ∈ path, IsName sep name)
    (hlast : (absolute sep path).getLast? = some sep) : path = [] := by
  induction path using List.reverseRec with
  | nil => rfl
  | append_singleton path name _ =>
    obtain ⟨hne, hsep⟩ := h name (by simp)
    rw [absolute, if_neg (by simp), List.flatMap_append, List.flatMap_singleton,
      List.getLast?_append_of_ne_nil _ (List.cons_ne_nil _ _),
      List.getLast?_cons_of_ne_nil hne] at hlast
    exact absurd (List.mem_of_getLast? hlast) hsep

/-- Only the root has no names. -/
theorem absolute_eq_root_iff {path : List (List α)} (h : ∀ name ∈ path, IsName sep name) :
    absolute sep path = [sep] ↔ path = [] := by
  constructor
  · intro hroot
    rw [← names_absolute h, hroot, names_cons, names_nil]
  · rintro rfl
    rfl

/-- A path below another one by its text is below it by its names. -/
theorem prefix_of_append_cons {path more : List (List α)} (hpath : ∀ name ∈ path, IsName sep name)
    (hmore : ∀ name ∈ more, IsName sep name) {rest : List α}
    (h : absolute sep more = absolute sep path ++ sep :: rest) (hne : more ≠ path) :
    ∃ below, below ≠ [] ∧ more = path ++ below := by
  have hnames := congrArg (names sep) h
  rw [names_append_cons, names_absolute hmore, names_absolute hpath] at hnames
  refine ⟨names sep rest, ?_, hnames⟩
  intro hnil
  rw [hnil, List.append_nil] at hnames
  exact hne hnames

end Names

section Resolution

/-- One name. -/
def resolveStep (done : List (List α)) (name : List α) : List (List α) :=
  if name = [dot] then done else if name = [dot, dot] then done.dropLast else done ++ [name]

/-- The names behind a path, one after the other. -/
def resolve (done path : List (List α)) : List (List α) := path.foldl (resolveStep dot) done

/-- The name is neither one dot nor two. -/
def IsPlain (name : List α) : Prop := name ≠ [dot] ∧ name ≠ [dot, dot]

variable {dot}

theorem resolve_append (done path more : List (List α)) :
    resolve dot done (path ++ more) = resolve dot (resolve dot done path) more :=
  List.foldl_append

/-- Names without dots only go down. -/
theorem resolve_of_isPlain {path : List (List α)} (h : ∀ name ∈ path, IsPlain dot name)
    (done : List (List α)) : resolve dot done path = done ++ path := by
  induction path generalizing done with
  | nil => simp [resolve]
  | cons name path ih =>
    rw [List.forall_mem_cons] at h
    have hstep : resolveStep dot done name = done ++ [name] := by
      rw [resolveStep, if_neg h.1.1, if_neg h.1.2]
    have hmore := ih h.2 (done ++ [name])
    rw [resolve] at hmore ⊢
    rw [List.foldl_cons, hstep, hmore, List.append_assoc, List.singleton_append]

/-- No dots are left, and no name is new. -/
theorem mem_resolve {path done : List (List α)} (hdone : ∀ name ∈ done, IsPlain dot name)
    {name : List α} (h : name ∈ resolve dot done path) :
    IsPlain dot name ∧ (name ∈ done ∨ name ∈ path) := by
  induction path generalizing done with
  | nil => exact ⟨hdone name h, .inl h⟩
  | cons next path ih =>
    have hnext : ∀ name ∈ resolveStep dot done next,
        IsPlain dot name ∧ (name ∈ done ∨ name = next) := by
      intro name hname
      unfold resolveStep at hname
      split_ifs at hname with h1 h2
      · exact ⟨hdone name hname, .inl hname⟩
      · have hmem := List.dropLast_subset _ hname
        exact ⟨hdone name hmem, .inl hmem⟩
      · rw [List.mem_append, List.mem_singleton] at hname
        rcases hname with hname | rfl
        · exact ⟨hdone name hname, .inl hname⟩
        · exact ⟨⟨h1, h2⟩, .inr rfl⟩
    obtain ⟨hplain, hmem⟩ := ih (fun name hname => (hnext name hname).1) h
    refine ⟨hplain, ?_⟩
    rcases hmem with hmem | hmem
    · rcases (hnext name hmem).2 with hdone | rfl
      · exact .inl hdone
      · exact .inr List.mem_cons_self
    · exact .inr (List.mem_cons_of_mem _ hmem)

end Resolution

section NormalForm

/-- The absolute path with the names of a text, except for single dots. -/
def normalForm (text : List α) : List α :=
  absolute sep ((names sep text).filter (· ≠ [dot]))

variable {sep dot}

theorem isName_of_mem_filter {text name : List α}
    (h : name ∈ (names sep text).filter (· ≠ [dot])) : IsName sep name ∧ name ≠ [dot] := by
  rw [List.mem_filter] at h
  exact ⟨isName_of_mem_names h.1, by simpa using h.2⟩

theorem normalForm_normalForm (text : List α) :
    normalForm sep dot (normalForm sep dot text) = normalForm sep dot text := by
  have hkept : ∀ name ∈ (names sep text).filter (· ≠ [dot]), IsName sep name :=
    fun name h => (isName_of_mem_filter h).1
  rw [normalForm, normalForm, names_absolute hkept, List.filter_filter]
  simp

/-- Its names are written behind the root. -/
theorem normalForm_eq_cons (text : List α) :
    normalForm sep dot text = sep :: relative sep ((names sep text).filter (· ≠ [dot])) := by
  rw [normalForm]
  by_cases h : (names sep text).filter (· ≠ [dot]) = []
  · rw [h]
    rfl
  · exact absolute_eq_cons h

/-- No separator stands at the end, except for the root. -/
theorem normalForm_eq_root {text : List α} (h : (normalForm sep dot text).getLast? = some sep) :
    normalForm sep dot text = [sep] := by
  have hnil := eq_nil_of_getLast?_absolute (fun name hname => (isName_of_mem_filter hname).1) h
  rw [normalForm, hnil]
  rfl

/-- No part of a normal form is empty or a dot, unless it is the root. -/
theorem mem_parts_normalForm (text : List α) :
    normalForm sep dot text = [sep] ∨
      ∀ name ∈ ((normalForm sep dot text).drop 1).splitOn sep, IsName sep name ∧ name ≠ [dot] := by
  rw [normalForm_eq_cons, List.drop_one, List.tail_cons]
  by_cases hnil : (names sep text).filter (· ≠ [dot]) = []
  · left
    rw [hnil]
    rfl
  · right
    rw [splitOn_relative (fun name hname => (isName_of_mem_filter hname).1) hnil]
    exact fun name hname => isName_of_mem_filter hname

end NormalForm

end LexicalPaths
