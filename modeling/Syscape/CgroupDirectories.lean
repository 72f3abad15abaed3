import Syscape.CgroupMounts
import Mathlib.Data.List.Infix
import Mathlib.Data.List.Chain

/-!
# The directories of a cgroup

The search picks the mount with the longest root, and its test of a root is a prefix test
by components. The directories are those that one passes from the mount point down to the
cgroup, name by name.
-/
namespace Syscape.Cgroup
open Text LinuxFile Paths

section Paths
variable {path : Path}

/-- An absolute path without empty components; only the root ends in a slash. -/
def Normalised (path : Path) : Prop :=
  path.head? = some 0x2F ∧ ∀ c ∈ (components 0x2F path).tail, c ≠ []

instance : DecidablePred Normalised := fun path =>
  inferInstanceAs (Decidable (path.head? = some 0x2F ∧ ∀ c ∈ (components 0x2F path).tail, c ≠ []))

/-- The names of a normalised path. -/
theorem Normalised.exists_names (h : Normalised path) :
    ∃ names, (∀ c ∈ names, IsName 0x2F c) ∧ components 0x2F path = [] :: names ∧
      path = if names = [] then ascii "/" else names.flatMap (0x2F :: ·) := by
  by_cases hroot : path = [0x2F]
  · exact ⟨[], by simp, by rw [components, if_pos hroot], hroot⟩
  · obtain ⟨name, names, hname, hnames, hpath⟩ := Paths.exists_names (0x2F : UInt8) path
    obtain ⟨hhead, htail⟩ := h
    have hnil : name = [] := by
      cases name with
      | nil => rfl
      | cons c name =>
        rw [hpath] at hhead
        have hc : c = 0x2F := by simpa using hhead
        exact absurd hname (by simp [hc])
    subst hnil
    have hcomponents : components 0x2F path = [] :: names := by
      rw [components, if_neg hroot, hpath, splitOn_append_names [] hnames]
      rfl
    rw [hcomponents] at htail
    have hne : names ≠ [] := by
      rintro rfl
      rw [hpath] at hhead
      exact absurd hhead (by simp)
    exact ⟨names, fun c hc => ⟨htail c hc, hnames c hc⟩, hcomponents, by rw [if_neg hne]; exact hpath⟩

/-- The test of a separator behind a prefix. -/
theorem append_sep_prefix_iff {a b : Path} {sep : UInt8} :
    (a ++ [sep]) <+: b ↔ b.length > a.length ∧ a <+: b ∧ b[a.length]? = some sep := by
  constructor
  · rintro ⟨more, rfl⟩
    exact ⟨by simp, ⟨sep :: more, by simp⟩, by simp⟩
  · rintro ⟨-, ⟨more, rfl⟩, hsep⟩
    cases more with
    | nil => simp at hsep
    | cons c more =>
      have hc : c = sep := by simpa using hsep
      exact ⟨more, by simp [hc]⟩

@[simp] theorem components_nil : components (0x2F : UInt8) [] = [[]] := by
  rw [components, if_neg (by simp), List.splitOn_nil]

@[simp] theorem components_root : components (0x2F : UInt8) (ascii "/") = [[]] := if_pos rfl

theorem components_of_ne {root : Path} (h : root ≠ ascii "/") :
    components 0x2F root = root.splitOn 0x2F := if_neg h

theorem components_ne_nil (root : Path) : components 0x2F root ≠ [] := by
  unfold components
  split_ifs
  · simp
  · exact List.splitOn_ne_nil 0x2F root

/-- The test of the searches compares by components. -/
theorem isMountRootPrefix_iff (hpath : Normalised path) (root : Path) :
    isMountRootPrefix root path = true ↔ components 0x2F root <+: components 0x2F path := by
  obtain ⟨names, hnames, hcomponents, hnamesPath⟩ := hpath.exists_names
  have hempty : [[]] <+: components 0x2F path := ⟨names, hcomponents.symm⟩
  rw [isMountRootPrefix, decide_eq_true_eq, ← append_sep_prefix_iff]
  by_cases hnil : root = []
  · simp [hnil, hempty]
  by_cases hroot : root = ascii "/"
  · simp only [hroot, components_root, hempty, true_or, or_true]
  rw [components_of_ne hroot]
  by_cases hslash : path = ascii "/"
  · -- only the root covers the root
    rw [hslash, components_root]
    constructor
    · rintro (h | h | h | ⟨more, h⟩)
      · exact absurd h hnil
      · exact absurd h hroot
      · exact absurd h hroot
      · have hlen := congrArg List.length h
        simp only [List.length_append, List.length_singleton] at hlen
        have hpos := List.length_pos_iff.mpr hnil
        change _ = 1 at hlen
        omega
    · intro h
      have hone : root.splitOn (0x2F : UInt8) = [[]] := by
        rcases List.prefix_cons_iff.mp h with h | ⟨t, h, ht⟩
        · exact absurd h (List.splitOn_ne_nil _ _)
        · rw [h, List.prefix_nil.mp ht]
      exact absurd (splitOn_injective 0x2F (hone.trans (List.splitOn_nil _).symm)) hnil
  · rw [components_of_ne hslash, splitOn_prefix_iff]
    simp only [hnil, hroot, false_or]

/-- Of two prefixes of one path, the longer text has more components. -/
theorem length_components_le {a b : Path} {whole : List Path}
    (ha : components 0x2F a <+: whole) (hb : components 0x2F b <+: whole)
    (h : b.length ≤ a.length) :
    (components 0x2F b).length ≤ (components 0x2F a).length := by
  have hpos : 1 ≤ (components 0x2F a).length := List.length_pos_iff.mpr (components_ne_nil a)
  rcases List.prefix_or_prefix_of_prefix hb ha with hab | hba
  · exact hab.length_le
  · by_cases hbroot : b = ascii "/"
    · rwa [hbroot, components_root]
    by_cases haroot : a = ascii "/"
    · -- the other text has one byte at most
      subst haroot
      rw [components_of_ne hbroot]
      change b.length ≤ 1 at h
      match b, h, hbroot with
      | [], _, _ => simp
      | [c], _, hbroot =>
        have hc : (0x2F : UInt8) ∉ [c] := by
          intro hmem
          exact hbroot (by rw [← List.mem_singleton.mp hmem]; rfl)
        simp [List.splitOn_eq_singleton hc]
    rw [components_of_ne haroot, components_of_ne hbroot] at hba ⊢
    rcases splitOn_prefix_iff.mp hba with rfl | hsep
    · exact le_refl _
    · have hlen := hsep.length_le
      simp only [List.length_append, List.length_singleton] at hlen
      omega

end Paths

section Selection
variable {eligible : CgroupMountInfo → Bool} {path : Path}

/-- The mount is eligible, and its root covers the path. -/
def Covers (eligible : CgroupMountInfo → Bool) (path : Path) (m : CgroupMountInfo) : Prop :=
  eligible m = true ∧ isMountRootPrefix m.root path = true

/-- What the loop knows after some mounts: none covers the path, or it has one whose root
is the longest of those that do. -/
def Longest (eligible : CgroupMountInfo → Bool) (path : Path) (done : List CgroupMountInfo)
    (s : MountSearch) : Prop :=
  (s.found = false ∧ ∀ m ∈ done, ¬ Covers eligible path m) ∨
    ∃ m ∈ done, Covers eligible path m ∧ s = ⟨true, m.root.length, m.mountPoint, m.root⟩ ∧
      ∀ m' ∈ done, Covers eligible path m' → m'.root.length ≤ m.root.length

theorem longest_considerMount {done : List CgroupMountInfo} {s : MountSearch}
    (h : Longest eligible path done s) (m : CgroupMountInfo) :
    Longest eligible path (done ++ [m]) (considerMount eligible path s m) := by
  unfold considerMount
  by_cases hm : Covers eligible path m
  · rw [if_pos (show _ ∧ _ from hm)]
    rcases h with ⟨hfound, hnone⟩ | ⟨best, hbest, hcovers, hs, hmax⟩
    · rw [if_pos (.inl (by simp [hfound]))]
      refine .inr ⟨m, by simp, hm, rfl, ?_⟩
      intro m' hm' hc
      rcases List.mem_append.mp hm' with hd | hd
      · exact absurd hc (hnone m' hd)
      · rw [List.mem_singleton.mp hd]
    · subst hs
      dsimp only
      split_ifs with hlonger
      · have hlt : m.root.length > best.root.length := by simpa using hlonger
        refine .inr ⟨m, by simp, hm, rfl, ?_⟩
        intro m' hm' hc
        rcases List.mem_append.mp hm' with hd | hd
        · exact (hmax m' hd hc).trans hlt.le
        · rw [List.mem_singleton.mp hd]
      · have hle : m.root.length ≤ best.root.length := by simpa using hlonger
        refine .inr ⟨best, by simp [hbest], hcovers, rfl, ?_⟩
        intro m' hm' hc
        rcases List.mem_append.mp hm' with hd | hd
        · exact hmax m' hd hc
        · rwa [List.mem_singleton.mp hd]
  · rw [if_neg (show ¬ (_ ∧ _) from hm)]
    rcases h with ⟨hfound, hnone⟩ | ⟨best, hbest, hcovers, hs, hmax⟩
    · refine .inl ⟨hfound, ?_⟩
      intro m' hm'
      rcases List.mem_append.mp hm' with hd | hd
      · exact hnone m' hd
      · rwa [List.mem_singleton.mp hd]
    · refine .inr ⟨best, by simp [hbest], hcovers, hs, ?_⟩
      intro m' hm' hc
      rcases List.mem_append.mp hm' with hd | hd
      · exact hmax m' hd hc
      · exact absurd (List.mem_singleton.mp hd ▸ hc) hm

theorem longest_foldl (mounts : List CgroupMountInfo) {done : List CgroupMountInfo}
    {s : MountSearch} (h : Longest eligible path done s) :
    Longest eligible path (done ++ mounts) (mounts.foldl (considerMount eligible path) s) := by
  induction mounts generalizing done s with
  | nil => simpa using h
  | cons m mounts ih =>
    have hnext := ih (longest_considerMount h m)
    rwa [List.append_assoc] at hnext

/-- The search finds nothing exactly if no mount covers the path; what it finds is a mount
with a longest root. -/
theorem findMount_cases (mounts : List CgroupMountInfo) :
    (findMount eligible mounts path = none ∧ ∀ m ∈ mounts, ¬ Covers eligible path m) ∨
      ∃ m ∈ mounts, Covers eligible path m ∧
        findMount eligible mounts path = some (m.mountPoint, m.root) ∧
        ∀ m' ∈ mounts, Covers eligible path m' → m'.root.length ≤ m.root.length := by
  have hstart : Longest eligible path [] ⟨false, 0, [], []⟩ := .inl ⟨rfl, by simp⟩
  have hend := longest_foldl mounts hstart
  rw [List.nil_append] at hend
  unfold findMount
  rcases hend with ⟨hfound, hnone⟩ | ⟨m, hm, hcovers, hs, hmax⟩
  · exact .inl ⟨by simp [hfound], hnone⟩
  · exact .inr ⟨m, hm, hcovers, by simp [hs], hmax⟩

end Selection

section Directories

/-- The directory that one reaches from another by a name. -/
def IsParent (parent dir : Path) : Prop := ∃ name, IsName 0x2F name ∧ dir = joinPath parent name

/-- The directories from the one of the names up to the mount point. -/
def upward (mountPoint : Path) (names : List Path) : List Path :=
  names.inits.reverse.map fun above => above.foldl joinPath mountPoint

@[simp] theorem upward_nil (mountPoint : Path) : upward mountPoint [] = [mountPoint] := rfl

theorem upward_concat (mountPoint : Path) (names : List Path) (name : Path) :
    upward mountPoint (names ++ [name]) =
      (names ++ [name]).foldl joinPath mountPoint :: upward mountPoint names := by
  unfold upward
  rw [List.inits_append]
  simp

theorem head?_upward (mountPoint : Path) (names : List Path) :
    (upward mountPoint names).head? = some (names.foldl joinPath mountPoint) := by
  induction names using List.reverseRecOn with
  | nil => rfl
  | append_singleton names name ih => rw [upward_concat, List.head?_cons]

theorem getLast?_upward (mountPoint : Path) (names : List Path) :
    (upward mountPoint names).getLast? = some mountPoint := by
  induction names using List.reverseRecOn with
  | nil => rfl
  | append_singleton names name ih => rw [upward_concat, List.getLast?_cons, ih, Option.getD_some]

/-- Each of the directories is the parent of the one before it. -/
theorem isChain_upward (mountPoint : Path) {names : List Path}
    (h : ∀ c ∈ names, IsName 0x2F c) :
    (upward mountPoint names).IsChain fun dir parent => IsParent parent dir := by
  induction names using List.reverseRecOn with
  | nil => exact List.isChain_singleton _
  | append_singleton names name ih =>
    rw [upward_concat, List.isChain_cons]
    refine ⟨?_, ih fun c hc => h c (by simp [hc])⟩
    intro parent hparent
    rw [head?_upward, Option.mem_some_iff] at hparent
    rw [List.foldl_append, hparent]
    exact ⟨name, h name (by simp), rfl⟩

theorem joinPath_append (dir name more : Path) :
    joinPath dir (name ++ more) = joinPath dir name ++ more := by
  unfold joinPath
  split_ifs <;> simp

/-- Entering names one by one, and writing them behind one another. -/
theorem foldl_joinPath (dir : Path) {name : Path} (hname : IsName 0x2F name) {names : List Path}
    (h : ∀ c ∈ names, IsName 0x2F c) :
    names.foldl joinPath (joinPath dir name) = joinPath dir (name ++ names.flatMap (0x2F :: ·)) := by
  induction names generalizing dir name with
  | nil => simp
  | cons next names ih =>
    have hlast : (joinPath dir name).getLast? ≠ some 0x2F := by
      intro hslash
      have hcases : (joinPath dir name).getLast? = name.getLast? := by
        have hsome := List.getLast?_eq_some_getLast hname.1
        unfold joinPath
        split_ifs <;> simp [List.getLast?_append, hsome]
      rw [hcases] at hslash
      exact hname.2 (List.mem_of_getLast? hslash)
    have hjoin : joinPath (joinPath dir name) next = joinPath dir name ++ ascii "/" ++ next :=
      if_neg hlast
    rw [List.foldl_cons, ih (joinPath dir name) (h next (by simp)) fun c hc => h c (by simp [hc]),
      joinPath_append, hjoin, joinPath_append]
    simp [ascii]

/-- The truncation loop walks up the names. -/
theorem ancestorsFrom_names (mountPoint : Path) {names : List Path}
    (h : ∀ c ∈ names, IsName 0x2F c) :
    ancestorsFrom mountPoint (names.flatMap (0x2F :: ·)) = upward mountPoint names := by
  induction names using List.reverseRecOn with
  | nil =>
    rw [List.flatMap_nil, ancestorsFrom, if_pos rfl, upward_nil]
  | append_singleton names name ih =>
    have hbefore : ∀ c ∈ names, IsName 0x2F c := fun c hc => h c (by simp [hc])
    have htext : (names ++ [name]).flatMap ((0x2F : UInt8) :: ·) =
        names.flatMap (0x2F :: ·) ++ 0x2F :: name := by simp
    have hfull : fullPath mountPoint ((names ++ [name]).flatMap (0x2F :: ·)) =
        (names ++ [name]).foldl joinPath mountPoint := by
      cases hsplit : names ++ [name] with
      | nil => simp at hsplit
      | cons first others =>
        rw [hsplit] at h
        rw [List.foldl_cons, foldl_joinPath mountPoint (h first (by simp))
          fun c hc => h c (by simp [hc])]
        rfl
    have hrfind := rfind_append_name (names.flatMap ((0x2F : UInt8) :: ·)) (h name (by simp)).2
    rw [upward_concat, ← hfull, ancestorsFrom, if_neg (by simp)]
    congr 1
    rw [htext]
    split
    · next hnone => rw [hrfind] at hnone; cases hnone
    · next lastSlash hsome =>
      rw [hrfind] at hsome
      cases hsome
      rw [List.take_left, ih hbefore]
      split_ifs with hzero
      · have hnil : names = [] := by
          cases names with
          | nil => rfl
          | cons c names => simp at hzero
        rw [hnil, upward_nil]
      · rfl

theorem dropTrailingSlashes_names {names : List Path} (h : ∀ c ∈ names, IsName 0x2F c) :
    dropTrailingSlashes (names.flatMap (0x2F :: ·)) = names.flatMap (0x2F :: ·) := by
  rw [dropTrailingSlashes, if_neg]
  rintro ⟨-, hlast⟩
  induction names using List.reverseRecOn with
  | nil => simp at hlast
  | append_singleton names name _ =>
    obtain ⟨hne, hslash⟩ := h name (by simp)
    have hsome := List.getLast?_eq_some_getLast hne
    have hc : name.getLast hne = 0x2F := by
      simpa [List.getLast?_append, List.getLast?_cons, hsome] using hlast
    exact hslash (hc ▸ List.getLast_mem hne)

theorem flatMap_names_ne_root {names : List Path} (h : ∀ c ∈ names, IsName 0x2F c) :
    names.flatMap (0x2F :: ·) ≠ ascii "/" := by
  cases names with
  | nil => simp [ascii]
  | cons name names =>
    have hne := (h name (by simp)).1
    simp [ascii, hne]

/-- Dropping slashes from a relative path leaves its names. -/
theorem dropTrailingSlashes_relative {relPath : Path} {names : List Path}
    (hnames : ∀ c ∈ names, IsName 0x2F c)
    (hrel : relPath = if names = [] ∧ relPath ≠ [] then ascii "/" else names.flatMap (0x2F :: ·)) :
    (if dropTrailingSlashes relPath = ascii "/" then [] else dropTrailingSlashes relPath) =
      names.flatMap (0x2F :: ·) := by
  split_ifs at hrel with hcase
  · have hself : dropTrailingSlashes (ascii "/") = ascii "/" := by
      rw [dropTrailingSlashes, if_neg (by decide)]
    rw [hrel, hself, if_pos rfl, hcase.1, List.flatMap_nil]
  · rw [hrel, dropTrailingSlashes_names hnames, if_neg (flatMap_names_ne_root hnames)]

/-- A root that is neither the whole path nor the top ends in front of a slash of the path. -/
theorem append_sep_prefix_of_components {path root : Path} (hpath : Normalised path)
    (hroot : components 0x2F root <+: components 0x2F path) (hne : root ≠ ascii "/" ∧ root ≠ [])
    (hproper : path ≠ root) : (root ++ [0x2F]) <+: path := by
  have htest := (isMountRootPrefix_iff hpath root).mpr hroot
  rw [isMountRootPrefix, decide_eq_true_eq, ← append_sep_prefix_iff] at htest
  rcases htest with h | h | h | h
  · exact absurd h hne.2
  · exact absurd h hne.1
  · exact absurd h.symm hproper
  · exact h

/-- The relative path is that of the names behind the mount root. -/
theorem relativePath_names {path root : Path} (hpath : Normalised path)
    (hroot : components 0x2F root <+: components 0x2F path) :
    ∃ names, (∀ c ∈ names, IsName 0x2F c) ∧
      components 0x2F path = components 0x2F root ++ names ∧
      relativePath root path = names.flatMap (0x2F :: ·) := by
  obtain ⟨all, hall, hcomponents, hpathNames⟩ := hpath.exists_names
  unfold relativePath
  dsimp only
  by_cases htop : root = ascii "/" ∨ root = []
  · have hone : components 0x2F root = [[]] := by
      rcases htop with rfl | rfl
      · exact components_root
      · exact components_nil
    refine ⟨all, hall, by rw [hcomponents, hone]; rfl, ?_⟩
    rw [if_pos htop]
    apply dropTrailingSlashes_relative hall
    by_cases hnil : all = []
    · rw [if_pos hnil] at hpathNames
      rw [hpathNames, if_pos ⟨hnil, by simp [ascii]⟩]
    · rw [if_neg hnil] at hpathNames
      rw [if_neg fun h => hnil h.1]
      exact hpathNames
  rw [if_neg htop]
  by_cases hsame : path = root
  · refine ⟨[], by simp, by rw [hsame, List.append_nil], ?_⟩
    rw [if_pos hsame]
    exact dropTrailingSlashes_relative (by simp) (by simp)
  rw [if_neg hsame]
  rw [not_or] at htop
  have hsep := append_sep_prefix_of_components hpath hroot htop hsame
  have hslash : path ≠ ascii "/" := by
    rintro rfl
    have hlen := hsep.length_le
    have hpos := List.length_pos_iff.mpr htop.2
    rw [List.length_append, List.length_singleton] at hlen
    change _ ≤ 1 at hlen
    omega
  rw [if_pos (append_sep_prefix_iff.mp hsep)]
  obtain ⟨names, hnames⟩ := hroot
  have hmem : ∀ c ∈ names, IsName 0x2F c := by
    intro c hc
    obtain ⟨first, others, hfirst⟩ := List.exists_cons_of_ne_nil (components_ne_nil root)
    rw [hcomponents, hfirst, List.cons_append] at hnames
    have htail : others ++ names = all := (List.cons.inj hnames).2
    exact hall c (by rw [← htail]; simp [hc])
  have htext : path = root ++ names.flatMap (0x2F :: ·) := by
    apply splitOn_injective 0x2F
    rw [splitOn_append_names root fun c hc => (hmem c hc).2, ← components_of_ne htop.1, hnames,
      components_of_ne hslash]
  refine ⟨names, hmem, hnames.symm, ?_⟩
  apply dropTrailingSlashes_relative hmem
  rw [htext, List.drop_left, if_neg]
  rintro ⟨hnil, hne⟩
  exact hne (by rw [hnil, List.flatMap_nil])

/-- For a table with mounts and a normalised cgroup path: the search answers exactly if a
mount of the unified hierarchy has a root that is a prefix by components, and then with
such a mount whose root is the longest; the directories lead from the cgroup of the
process under that mount to the mount point, each the parent of the one before. -/
theorem cgroup2_directories (sysFsCgroup : Option ℕ) {mounts : List CgroupMountInfo}
    (hmounts : mounts ≠ []) {path : Path} (hpath : Normalised path) :
    (findCgroup2Mount sysFsCgroup mounts path = none ↔
        ∀ m ∈ mounts, m.fstype = ascii "cgroup2" →
          ¬ components 0x2F m.root <+: components 0x2F path) ∧
      ∀ mountPoint mountRoot,
        findCgroup2Mount sysFsCgroup mounts path = some (mountPoint, mountRoot) →
        (∃ m ∈ mounts, m.fstype = ascii "cgroup2" ∧ m.mountPoint = mountPoint ∧
          m.root = mountRoot ∧ ∀ m' ∈ mounts, m'.fstype = ascii "cgroup2" →
            components 0x2F m'.root <+: components 0x2F path →
            (components 0x2F m'.root).length ≤ (components 0x2F m.root).length) ∧
        ∃ names, components 0x2F path = components 0x2F mountRoot ++ names ∧
          (getCgroupAncestorDirs mountPoint mountRoot path).head? =
            some (names.foldl joinPath mountPoint) ∧
          (getCgroupAncestorDirs mountPoint mountRoot path).getLast? = some mountPoint ∧
          (getCgroupAncestorDirs mountPoint mountRoot path).IsChain
            fun dir parent => IsParent parent dir := by
  have hcovers : ∀ m, Covers (fun m => m.fstype = ascii "cgroup2") path m ↔
      m.fstype = ascii "cgroup2" ∧ components 0x2F m.root <+: components 0x2F path := by
    intro m
    rw [Covers, decide_eq_true_eq, isMountRootPrefix_iff hpath]
  rcases @findMount_cases (fun m => m.fstype = ascii "cgroup2") path mounts with
    ⟨hfind, hnone⟩ | ⟨m, hm, hm', hfind, hmax⟩
  · have hresult : findCgroup2Mount sysFsCgroup mounts path = none := by
      rw [findCgroup2Mount, hfind]
      exact if_neg fun h => hmounts h.1
    rw [hresult]
    refine ⟨iff_of_true rfl ?_, by simp⟩
    intro m hm htype hprefix'
    exact hnone m hm ((hcovers m).mpr ⟨htype, hprefix'⟩)
  · have hresult : findCgroup2Mount sysFsCgroup mounts path = some (m.mountPoint, m.root) := by
      rw [findCgroup2Mount, hfind]
    obtain ⟨htype, hroot⟩ := (hcovers m).mp hm'
    rw [hresult]
    refine ⟨iff_of_false (by simp) fun h => h m hm htype hroot, ?_⟩
    rintro mountPoint mountRoot ⟨⟩
    refine ⟨⟨m, hm, htype, rfl, rfl, ?_⟩, ?_⟩
    · intro other hother hotherType hotherRoot
      exact length_components_le hroot hotherRoot
        (hmax other hother ((hcovers other).mpr ⟨hotherType, hotherRoot⟩))
    · obtain ⟨names, hnames, hcomponents, hrelative⟩ := relativePath_names hpath hroot
      refine ⟨names, hcomponents, ?_⟩
      rw [getCgroupAncestorDirs, hrelative, ancestorsFrom_names m.mountPoint hnames]
      exact ⟨head?_upward _ _, getLast?_upward _ _, isChain_upward _ hnames⟩

/-- The whole hierarchy and one of its cgroups, both mounted. -/
def nestedMounts : List CgroupMountInfo :=
  [⟨ascii "/", ascii "/sys/fs/cgroup", ascii "cgroup2", []⟩,
    ⟨ascii "/a", ascii "/mnt", ascii "cgroup2", []⟩]

/-- The cgroup `/a/b` is looked up below `/mnt`; for `/ab` the mount of `/a` is no choice. -/
theorem nested_directories :
    (∃ names, components 0x2F (ascii "/a/b") = components 0x2F (ascii "/a") ++ names ∧
      (getCgroupAncestorDirs (ascii "/mnt") (ascii "/a") (ascii "/a/b")).head? =
        some (names.foldl joinPath (ascii "/mnt")) ∧
      (getCgroupAncestorDirs (ascii "/mnt") (ascii "/a") (ascii "/a/b")).getLast? =
        some (ascii "/mnt")) ∧
      findCgroup2Mount none nestedMounts (ascii "/ab") =
        some (ascii "/sys/fs/cgroup", ascii "/") := by
  have hpath : Normalised (ascii "/a/b") := by decide
  have hfound : findCgroup2Mount none nestedMounts (ascii "/a/b") =
      some (ascii "/mnt", ascii "/a") := by decide
  obtain ⟨-, names, hcomponents, hhead, hlast, -⟩ :=
    (@cgroup2_directories none nestedMounts (by simp [nestedMounts]) _ hpath).2 _ _ hfound
  exact ⟨⟨names, hcomponents, hhead, hlast⟩, by decide⟩

end Directories

end Syscape.Cgroup
