import Syscape.Smbios
import Syscape.Software
import Syscape.Lib.FirstSeen
import Syscape.Lib.Numerals
import Syscape.Lib.PrefixFree

/-!
# Installed packages

A package is known by a key of five fields, each of them behind its length, and a package with
a key that has been seen is dropped. What is left is sorted by a comparison that looks at three
of the fields only.
-/
namespace Syscape.Software
open Digits FirstSeen Numerals StdSort Text
open Syscape.Smbios (bytesLess strictTotal_bytesLess)

section Keys

/-- `static_cast<int>` of a `package_format`. -/
def PackageFormat.number : PackageFormat → ℕ
  | .unknown => 0
  | .dpkg => 1
  | .rpm => 2
  | .pacman => 3
  | .apk => 4
  | .desktopEntry => 5
  | .windowsInstaller => 6
  | .macosBundle => 7

/-- `runtime_kind`. -/
inductive RuntimeKind where
  | unknown
  | dotnet
  | java
  | python
  | nodejs
  | rust
  | golang
  | ruby
  | php
  deriving DecidableEq, Repr

/-- `static_cast<int>` of a `runtime_kind`. -/
def RuntimeKind.number : RuntimeKind → ℕ
  | .unknown => 0
  | .dotnet => 1
  | .java => 2
  | .python => 3
  | .nodejs => 4
  | .rust => 5
  | .golang => 6
  | .ruby => 7
  | .php => 8

/-- `runtime_record`. -/
structure RuntimeRecord where
  kind : RuntimeKind := .unknown
  name : List UInt8 := []
  version : List UInt8 := []
  installationPath : List UInt8 := []
  architecture : Option (List UInt8) := none
  deriving DecidableEq, Repr

/-- `append_length_prefixed`. -/
def appendLengthPrefixed (out val : List UInt8) : List UInt8 :=
  out ++ decimal val.length ++ [0x3A] ++ val

/-- `make_package_dedup_key`. -/
def makePackageDedupKey (rec : PackageRecord) : List UInt8 :=
  let key := appendLengthPrefixed [] rec.name
  let key := appendLengthPrefixed key (rec.version.getD [])
  let key := appendLengthPrefixed key (rec.architecture.getD [])
  let key := appendLengthPrefixed key (rec.installLocation.getD [])
  appendLengthPrefixed key (decimal rec.format.number)

/-- `make_runtime_dedup_key`. -/
def makeRuntimeDedupKey (rec : RuntimeRecord) : List UInt8 :=
  let key := appendLengthPrefixed [] (decimal rec.kind.number)
  let key := appendLengthPrefixed key rec.name
  let key := appendLengthPrefixed key rec.version
  let key := appendLengthPrefixed key rec.installationPath
  appendLengthPrefixed key (rec.architecture.getD [])

end Keys

section Discovery

/-- The packages that were found, and the keys of them. -/
structure Found where
  pkgs : List PackageRecord := []
  seenKeys : List (List UInt8) := []

/-- `add_unique_package`. -/
def addUniquePackage (found : Found) (rec : PackageRecord) : Found :=
  let key := makePackageDedupKey rec
  if key ∈ found.seenKeys then found
  else ⟨found.pkgs ++ [rec], found.seenKeys ++ [key]⟩

/-- `pkgs` in `installed_packages`, given the records that the sources have in their order. -/
def uniquePackages (records : List PackageRecord) : List PackageRecord :=
  (records.foldl addUniquePackage {}).pkgs

/-- `compare_packages`. -/
def comparePackages : PackageRecord → PackageRecord → Bool :=
  fieldThen (·.name) bytesLess <|
  fieldThen (·.version) (optionLess bytesLess) <|
  fun a b => optionLess bytesLess a.architecture b.architecture

/-- `installed_packages`, if the sources could be read and have these records. -/
def installedPackages (sorter : Sorter comparePackages) (records : List PackageRecord) :
    List PackageRecord := sorter.sort (uniquePackages records)

end Discovery

section Collisions
variable {a b : PackageRecord}

/-- The records agree in the five fields, where no text counts as an empty one. -/
def SamePackage (a b : PackageRecord) : Prop :=
  a.name = b.name ∧ a.version.getD [] = b.version.getD [] ∧
    a.architecture.getD [] = b.architecture.getD [] ∧
    a.installLocation.getD [] = b.installLocation.getD [] ∧ a.format = b.format

instance : DecidableRel SamePackage := fun _ _ =>
  inferInstanceAs (Decidable (_ ∧ _ ∧ _ ∧ _ ∧ _))

/-- The runtimes agree in all fields, where no text counts as an empty one. -/
def SameRuntime (a b : RuntimeRecord) : Prop :=
  a.kind = b.kind ∧ a.name = b.name ∧ a.version = b.version ∧
    a.installationPath = b.installationPath ∧ a.architecture.getD [] = b.architecture.getD []

theorem PackageFormat.number_injective : Function.Injective PackageFormat.number := by
  intro a b h
  cases a <;> cases b <;> first | rfl | cases h

theorem RuntimeKind.number_injective : Function.Injective RuntimeKind.number := by
  intro a b h
  cases a <;> cases b <;> first | rfl | cases h

/-- A field behind its length and a colon. -/
def lengthPrefixed (val : List UInt8) : List UInt8 := decimal val.length ++ [0x3A] ++ val

/-- No digit is a colon. -/
theorem prefixFree_lengthPrefixed : PrefixFree lengthPrefixed := by
  refine (PrefixFree.marked decimal_injective ?_).behind_length
  intro n hcolon
  exact absurd (mem_decimal hcolon).2 (by decide)

theorem lengthPrefixed_ne_nil (val : List UInt8) : lengthPrefixed val ≠ [] := by
  simp [lengthPrefixed]

/-- Fields behind their lengths can be told apart, whatever bytes they have. -/
theorem flatMap_lengthPrefixed_inj {fields fields' : List (List UInt8)} :
    fields.flatMap lengthPrefixed = fields'.flatMap lengthPrefixed ↔ fields = fields' :=
  (prefixFree_lengthPrefixed.flatMap_injective lengthPrefixed_ne_nil).eq_iff

theorem makePackageDedupKey_eq (rec : PackageRecord) :
    makePackageDedupKey rec =
      [rec.name, rec.version.getD [], rec.architecture.getD [], rec.installLocation.getD [],
        decimal rec.format.number].flatMap lengthPrefixed := by
  simp [makePackageDedupKey, appendLengthPrefixed, lengthPrefixed]

theorem makeRuntimeDedupKey_eq (rec : RuntimeRecord) :
    makeRuntimeDedupKey rec =
      [decimal rec.kind.number, rec.name, rec.version, rec.installationPath,
        rec.architecture.getD []].flatMap lengthPrefixed := by
  simp [makeRuntimeDedupKey, appendLengthPrefixed, lengthPrefixed]

theorem makePackageDedupKey_eq_iff (a b : PackageRecord) :
    makePackageDedupKey a = makePackageDedupKey b ↔ SamePackage a b := by
  rw [makePackageDedupKey_eq, makePackageDedupKey_eq, flatMap_lengthPrefixed_inj, SamePackage]
  simp only [List.cons.injEq, and_true, decimal_injective.eq_iff,
    PackageFormat.number_injective.eq_iff]

theorem makeRuntimeDedupKey_eq_iff (a b : RuntimeRecord) :
    makeRuntimeDedupKey a = makeRuntimeDedupKey b ↔ SameRuntime a b := by
  rw [makeRuntimeDedupKey_eq, makeRuntimeDedupKey_eq, flatMap_lengthPrefixed_inj, SameRuntime]
  simp only [List.cons.injEq, and_true, decimal_injective.eq_iff,
    RuntimeKind.number_injective.eq_iff]

/-- The packages that are kept are the first ones of their classes. -/
theorem uniquePackages_eq (records : List PackageRecord) :
    uniquePackages records = firsts SamePackage records := by
  rw [uniquePackages]
  refine (foldl_keepNew (fun found key => key ∈ found.seenKeys) Found.pkgs
    makePackageDedupKey_eq_iff ?_ ?_ {} [] ?_).trans ?_
  · intro found rec hseen
    exact if_pos hseen
  · intro found rec hnew
    rw [addUniquePackage, if_neg hnew]
    exact ⟨rfl, fun key => by simp⟩
  · simp
  · rfl

/-- Keys are equal exactly where the fields are, and so the first record of every class of
records that agree in them is kept, in order. -/
theorem dedup_keys_collision_free :
    (∀ a b, makePackageDedupKey a = makePackageDedupKey b ↔ SamePackage a b) ∧
      (∀ a b, makeRuntimeDedupKey a = makeRuntimeDedupKey b ↔ SameRuntime a b) ∧
      ∀ records, uniquePackages records = firsts SamePackage records :=
  ⟨makePackageDedupKey_eq_iff, makeRuntimeDedupKey_eq_iff, uniquePackages_eq⟩

end Collisions

section Order
variable {a b : PackageRecord} {records : List PackageRecord}

theorem strictTotal_optionLess : StrictTotal (optionLess bytesLess) := strictTotal_bytesLess.option

/-- The comparison is one that the standard sort may be given. -/
theorem strictWeak_comparePackages : StrictWeak comparePackages :=
  .fieldThen strictTotal_bytesLess <| .fieldThen strictTotal_optionLess <|
    strictTotal_optionLess.on _

/-- The records agree in the fields that the comparison looks at. -/
def SameRank (a b : PackageRecord) : Prop :=
  a.name = b.name ∧ a.version = b.version ∧ a.architecture = b.architecture

instance : DecidableRel SameRank := fun _ _ => inferInstanceAs (Decidable (_ ∧ _ ∧ _))

theorem tie_comparePackages_iff : Tie comparePackages a b ↔ SameRank a b := by
  have harchitecture :
      Tie (fun a b : PackageRecord => optionLess bytesLess a.architecture b.architecture) a b ↔
        a.architecture = b.architecture := strictTotal_optionLess.tie_iff
  rw [comparePackages, tie_fieldThen_iff strictTotal_bytesLess,
    tie_fieldThen_iff strictTotal_optionLess, harchitecture, SameRank]

/-- The keys of the records are pairwise different. -/
def DifferentKeys (records : List PackageRecord) : Prop :=
  records.Pairwise fun a b => makePackageDedupKey a ≠ makePackageDedupKey b

/-- In whatever order the records are found, and whatever the sort is, the list is the same. -/
def OrderIndependent (records : List PackageRecord) : Prop :=
  ∀ (sorter : Sorter comparePackages) (order order' : List PackageRecord),
    records.Perm order → records.Perm order' →
      installedPackages sorter order = installedPackages sorter order'

theorem differentKeys_iff :
    DifferentKeys records ↔ records.Pairwise fun a b => ¬ SamePackage a b := by
  simp only [DifferentKeys, ne_eq, makePackageDedupKey_eq_iff]

theorem DifferentKeys.perm (h : DifferentKeys records) {order : List PackageRecord}
    (hperm : records.Perm order) : DifferentKeys order :=
  (hperm.pairwise_iff fun hne => Ne.symm hne).mp h

/-- No record with a key of its own is dropped. -/
theorem installedPackages_eq (h : DifferentKeys records) (sorter : Sorter comparePackages) :
    installedPackages sorter records = sorter.sort records := by
  rw [installedPackages, uniquePackages_eq, firsts_eq_self (differentKeys_iff.mp h)]

/-- A stable sort leaves records that tie in the order in which they were found. -/
theorem eq_of_orderIndependent (h : DifferentKeys records) (hindependent : OrderIndependent records)
    (ha : a ∈ records) (hb : b ∈ records) (hrank : SameRank a b) : a = b := by
  by_contra hne
  obtain ⟨rest, hrest⟩ := exists_perm_cons_cons ha hb hne
  have hswap : records.Perm (b :: a :: rest) := hrest.trans (.swap b a rest)
  have heq := hindependent (Sorter.merge strictWeak_comparePackages) _ _ hrest hswap
  rw [installedPackages_eq (h.perm hrest), installedPackages_eq (h.perm hswap)] at heq
  exact hne (Sorter.eq_of_merge_swap strictWeak_comparePackages
    (tie_comparePackages_iff.mpr hrank) heq)

/-- The list is independent of the order exactly if different records differ in their names,
versions or architectures. -/
theorem installedPackages_order_iff (h : DifferentKeys records) :
    OrderIndependent records ↔ ∀ a ∈ records, ∀ b ∈ records, SameRank a b → a = b := by
  constructor
  · intro hindependent a ha b hb
    exact eq_of_orderIndependent h hindependent ha hb
  · intro hrank sorter order order' hperm hperm'
    rw [installedPackages_eq (h.perm hperm), installedPackages_eq (h.perm hperm')]
    apply sorter.sort_eq sorter (hperm.symm.trans hperm')
    intro a ha b hb htie
    exact hrank a (hperm.mem_iff.mpr ha) b (hperm.mem_iff.mpr hb) (tie_comparePackages_iff.mp htie)

/-- A package and its entry in the menu of the desktop. -/
def packageAndEntry : List PackageRecord :=
  [{ name := ascii "htop", version := some (ascii "3.3"), format := .dpkg },
    { name := ascii "Htop", version := some (ascii "1.0"), format := .desktopEntry }]

/-- The same, but they have one name and one version. -/
def namesakes : List PackageRecord :=
  [{ name := ascii "htop", version := some (ascii "3.3"), format := .dpkg },
    { name := ascii "htop", version := some (ascii "3.3"), format := .desktopEntry }]

theorem package_and_entry_ordered : OrderIndependent packageAndEntry :=
  (installedPackages_order_iff (differentKeys_iff.mpr (by decide))).mpr (by decide)

/-- The format separates the keys of the namesakes, but not their ranks. -/
theorem namesakes_depend_on_order :
    DifferentKeys namesakes ∧ ¬ OrderIndependent namesakes := by
  have hkeys : DifferentKeys namesakes := differentKeys_iff.mpr (by decide)
  refine ⟨hkeys, fun hindependent => ?_⟩
  have heq := eq_of_orderIndependent hkeys hindependent List.mem_cons_self
    (List.mem_cons_of_mem _ List.mem_cons_self) (by decide)
  cases heq

end Order

end Syscape.Software
