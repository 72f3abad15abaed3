import Syscape.BlockDevice
import Syscape.Lib.Chains

/-!
# What the block-device walk reports

The walk reports a device as encrypted exactly when every maximal chain of slaves
reaches a crypt device within eight steps. The merge of the slaves' types joins
them in a flat order with `other` on top, so it depends on the set of the types only.
-/
namespace Syscape.BlockDevice
open Checked Text LinuxFile Security Chains

section Types

/-- The encryption type of a dm uuid, if it is one of a crypt device. -/
def cryptType (uuid : List UInt8) : Option EncryptionType :=
  if ascii "CRYPT-" <+: uuid then
    if ascii "CRYPT-LUKS2-" <+: uuid ∨ ascii "CRYPT-LUKS1-" <+: uuid ∨
      ascii "CRYPT-LUKS-" <+: uuid then some .luks
    else if ascii "CRYPT-PLAIN-" <+: uuid then some .dmCrypt
    else some .other
  else none

lemma not_prefix_of_not_crypt {uuid : List UInt8} (h : ¬ ascii "CRYPT-" <+: uuid)
    (rest : List UInt8) : ¬ (ascii "CRYPT-" ++ rest) <+: uuid :=
  fun hp => h ((List.prefix_append _ rest).trans hp)

theorem parseDmUuidEncryption_eq (text : List UInt8) :
    parseDmUuidEncryption text =
      match cryptType (trimWhitespace text) with
      | some t => (.encrypted, t)
      | none => (.unknown, .unknown) := by
  unfold cryptType parseDmUuidEncryption
  by_cases hcrypt : ascii "CRYPT-" <+: trimWhitespace text
  · simp only [hcrypt, if_true]
    split_ifs <;> rfl
  · have h1 : ¬ ascii "CRYPT-LUKS2-" <+: trimWhitespace text :=
      not_prefix_of_not_crypt hcrypt (ascii "LUKS2-")
    have h2 : ¬ ascii "CRYPT-LUKS1-" <+: trimWhitespace text :=
      not_prefix_of_not_crypt hcrypt (ascii "LUKS1-")
    have h3 : ¬ ascii "CRYPT-LUKS-" <+: trimWhitespace text :=
      not_prefix_of_not_crypt hcrypt (ascii "LUKS-")
    have h4 : ¬ ascii "CRYPT-PLAIN-" <+: trimWhitespace text :=
      not_prefix_of_not_crypt hcrypt (ascii "PLAIN-")
    simp [hcrypt, h1, h2, h3, h4]

lemma cryptType_ne_none {uuid : List UInt8} {t : EncryptionType} (h : cryptType uuid = some t) :
    t ≠ .none := by
  unfold cryptType at h
  split_ifs at h <;> cases h <;> decide

/-- The type to report for a set of types: the only one, or `other` for several. -/
def Common (types : Set EncryptionType) (t : EncryptionType) : Prop :=
  types = {t} ∨ (t = .other ∧ ∃ a ∈ types, ∃ b ∈ types, a ≠ b)

theorem common_unique {types : Set EncryptionType} {t t' : EncryptionType}
    (h : Common types t) (h' : Common types t') : t = t' := by
  have hmany : ∀ u : EncryptionType, types = {u} → ¬ ∃ a ∈ types, ∃ b ∈ types, a ≠ b := by
    rintro u rfl ⟨a, rfl, b, rfl, hne⟩
    exact hne rfl
  rcases h with h | ⟨rfl, h⟩ <;> rcases h' with h' | ⟨rfl, h'⟩
  · exact Set.singleton_injective (h.symm.trans h')
  · exact absurd h' (hmany t h)
  · exact absurd h (hmany t' h')
  · rfl

/-- Joining one more type, as the loop over the slaves does. -/
lemma common_insert {types : Set EncryptionType} {t u : EncryptionType} (h : Common types t) :
    Common (insert u types) (if t ≠ u then .other else t) := by
  rcases h with rfl | ⟨rfl, a, ha, b, hb, hne⟩
  · by_cases htu : t = u
    · subst htu
      exact .inl (by simp)
    · exact .inr ⟨by simp [htu], u, by simp, t, by simp, Ne.symm htu⟩
  · exact .inr ⟨by simp, a, .inr ha, b, .inr hb, hne⟩

/-- The common type of a union, from the common types of its parts. -/
theorem common_iUnion {ι : Type*} {s : Set ι} {types : ι → Set EncryptionType}
    {t : ι → EncryptionType} (h : ∀ i ∈ s, Common (types i) (t i)) {u : EncryptionType}
    (hu : Common (t '' s) u) : Common (⋃ i ∈ s, types i) u := by
  have hmem : ∀ i ∈ s, ∀ a ∈ types i, a ∈ ⋃ i ∈ s, types i := by
    intro i hi a ha
    simp only [Set.mem_iUnion, exists_prop]
    exact ⟨i, hi, ha⟩
  rcases hu with hu | ⟨rfl, a, ⟨i, hi, rfl⟩, b, ⟨j, hj, rfl⟩, hne⟩
  · have hti : ∀ i ∈ s, t i = u := by
      intro i hi
      have : t i ∈ t '' s := ⟨i, hi, rfl⟩
      rwa [hu] at this
    by_cases hmany : ∃ i ∈ s, ∃ a ∈ types i, ∃ b ∈ types i, a ≠ b
    · obtain ⟨i, hi, a, ha, b, hb, hne⟩ := hmany
      rcases h i hi with hs | ⟨ho, -⟩
      · rw [hs] at ha hb
        exact absurd (ha.trans hb.symm) hne
      · exact .inr ⟨(hti i hi).symm.trans ho, a, hmem i hi a ha, b, hmem i hi b hb, hne⟩
    · have hsingle : ∀ i ∈ s, types i = {u} := by
        intro i hi
        rcases h i hi with hs | ⟨-, a, ha, b, hb, hne⟩
        · rw [hs, hti i hi]
        · exact absurd ⟨i, hi, a, ha, b, hb, hne⟩ hmany
      left
      have hne : s.Nonempty := by
        have : u ∈ t '' s := by rw [hu]; rfl
        obtain ⟨i, hi, -⟩ := this
        exact ⟨i, hi⟩
      ext a
      simp only [Set.mem_iUnion, exists_prop, Set.mem_singleton_iff]
      constructor
      · rintro ⟨i, hi, ha⟩
        rwa [hsingle i hi] at ha
      · rintro rfl
        obtain ⟨i, hi⟩ := hne
        exact ⟨i, hi, by rw [hsingle i hi]; rfl⟩
  · -- two parts disagree, so one of them has a single type that the other one lacks
    refine .inr ⟨rfl, ?_⟩
    have hkey : ∀ i ∈ s, ∀ j ∈ s, t i ≠ t j → t i ≠ .other →
        ∃ a ∈ ⋃ i ∈ s, types i, ∃ b ∈ ⋃ i ∈ s, types i, a ≠ b := by
      intro i hi j hj hne hother
      rcases h i hi with hs | ⟨ho, -⟩
      · have hti : t i ∈ types i := by rw [hs]; rfl
        rcases h j hj with hs' | ⟨-, a, ha, b, hb, hab⟩
        · have htj : t j ∈ types j := by rw [hs']; rfl
          exact ⟨t i, hmem i hi _ hti, t j, hmem j hj _ htj, hne⟩
        · exact ⟨a, hmem j hj a ha, b, hmem j hj b hb, hab⟩
      · exact absurd ho hother
    by_cases hother : t i = .other
    · exact hkey j hj i hi (Ne.symm hne) (fun hj' => hne (hother.trans hj'.symm))
    · exact hkey i hi j hj hne hother

end Types

section Merge

/-- A slave's result as the walk can produce it. -/
def Reported (sub : EncryptionState × EncryptionType) : Prop :=
  (sub.1 = .encrypted ∧ sub.2 ≠ .none) ∨ sub = (.unknown, .unknown)

/-- What the counters say about the slaves counted so far. -/
structure Counted (subs : List (EncryptionState × EncryptionType)) (count : SlaveCount) : Prop where
  total : count.totalSlaves = subs.length
  unencrypted : count.unencryptedSlaves = 0
  encrypted_le : count.encryptedSlaves ≤ subs.length
  all : count.encryptedSlaves = subs.length ↔ ∀ sub ∈ subs, sub.1 = .encrypted
  empty : subs = [] → count.commonType = .none
  common : subs ≠ [] → (∀ sub ∈ subs, sub.1 = .encrypted) →
    count.commonType ≠ .none ∧ Common {t | ∃ sub ∈ subs, sub.2 = t} count.commonType

theorem counted_nil : Counted [] ⟨0, 0, 0, .none⟩ := by
  constructor <;> simp

lemma types_append (subs : List (EncryptionState × EncryptionType))
    (sub : EncryptionState × EncryptionType) :
    {t | ∃ s ∈ subs ++ [sub], s.2 = t} = insert sub.2 {t | ∃ s ∈ subs, s.2 = t} := by
  ext t
  simp only [List.mem_append, List.mem_singleton, Set.mem_ofPred_eq, Set.mem_insert_iff]
  constructor
  · rintro ⟨s, hs | rfl, rfl⟩
    · exact .inr ⟨s, hs, rfl⟩
    · exact .inl rfl
  · rintro (rfl | ⟨s, hs, rfl⟩)
    · exact ⟨sub, .inr rfl, rfl⟩
    · exact ⟨s, .inl hs, rfl⟩

theorem Counted.countSlave {subs : List (EncryptionState × EncryptionType)} {count : SlaveCount}
    {sub : EncryptionState × EncryptionType} (h : Counted subs count) (hsub : Reported sub) :
    Counted (subs ++ [sub]) (countSlave count sub) := by
  obtain ⟨htotal, hunenc, hle, hall, hempty, hcommon⟩ := h
  rcases hsub with ⟨henc, htype⟩ | rfl
  · constructor
    · simp [BlockDevice.countSlave, henc, htotal]
    · simp [BlockDevice.countSlave, henc, hunenc]
    · simpa [BlockDevice.countSlave, henc] using hle
    · simpa [BlockDevice.countSlave, henc, or_imp, forall_and] using hall
    · simp
    · intro _ hencs
      have hencs : ∀ sub ∈ subs, sub.1 = .encrypted := fun s hs => hencs s (by simp [hs])
      rw [types_append]
      by_cases hnil : subs = []
      · have hnone := hempty hnil
        subst hnil
        have hct : (BlockDevice.countSlave count sub).commonType = sub.2 := by
          simp [BlockDevice.countSlave, henc, hnone]
        rw [hct]
        exact ⟨htype, .inl (by simp)⟩
      · obtain ⟨hne, hc⟩ := hcommon hnil hencs
        have hct : (BlockDevice.countSlave count sub).commonType =
            if count.commonType ≠ sub.2 then .other else count.commonType := by
          simp [BlockDevice.countSlave, henc, hne]
        rw [hct]
        refine ⟨?_, common_insert hc⟩
        split_ifs
        · decide
        · exact hne
  · constructor
    · simp [BlockDevice.countSlave, htotal]
    · simp [BlockDevice.countSlave, hunenc]
    · simp only [BlockDevice.countSlave, List.length_append, List.length_singleton]
      exact Nat.le_succ_of_le hle
    · have hlt : count.encryptedSlaves ≠ subs.length + 1 := by omega
      constructor
      · intro heq
        exact absurd (by simpa [BlockDevice.countSlave] using heq) hlt
      · intro hencs
        cases hencs (.unknown, .unknown) (by simp)
    · simp
    · intro _ hencs
      cases hencs (.unknown, .unknown) (by simp)

/-- The counters after a loop over slaves. -/
theorem counted_foldl (subs : List (EncryptionState × EncryptionType))
    (h : ∀ sub ∈ subs, Reported sub) :
    Counted subs (subs.foldl countSlave ⟨0, 0, 0, .none⟩) := by
  induction subs using List.reverseRecOn with
  | nil => exact counted_nil
  | append_singleton subs sub ih =>
    rw [List.foldl_concat]
    apply Counted.countSlave
    · exact ih fun s hs => h s (by simp [hs])
    · exact h sub (by simp)

/-- The decision after the loop reports encrypted exactly when there are slaves and all
are encrypted. -/
theorem decideSlaves_foldl (subs : List (EncryptionState × EncryptionType))
    (h : ∀ sub ∈ subs, Reported sub) :
    ((subs ≠ [] ∧ ∀ sub ∈ subs, sub.1 = .encrypted) ∧
        (decideSlaves (subs.foldl countSlave ⟨0, 0, 0, .none⟩)).1 = .encrypted ∧
        (decideSlaves (subs.foldl countSlave ⟨0, 0, 0, .none⟩)).2 ≠ .none ∧
        Common {t | ∃ sub ∈ subs, sub.2 = t}
          (decideSlaves (subs.foldl countSlave ⟨0, 0, 0, .none⟩)).2) ∨
      (¬ (subs ≠ [] ∧ ∀ sub ∈ subs, sub.1 = .encrypted) ∧
        decideSlaves (subs.foldl countSlave ⟨0, 0, 0, .none⟩) = (.unknown, .unknown)) := by
  obtain ⟨htotal, hunenc, hle, hall, hempty, hcommon⟩ := counted_foldl subs h
  generalize subs.foldl countSlave ⟨0, 0, 0, .none⟩ = count at *
  by_cases hnil : subs = []
  · right
    subst hnil
    simp [decideSlaves, htotal]
  · have hpos : count.totalSlaves > 0 := by
      rw [htotal]
      exact List.length_pos_iff.mpr hnil
    by_cases hencs : ∀ sub ∈ subs, sub.1 = .encrypted
    · left
      have heq : count.encryptedSlaves = count.totalSlaves := by rw [htotal, hall.mpr hencs]
      have hdecide : decideSlaves count = (.encrypted, count.commonType) := by
        simp only [decideSlaves, hpos, heq, if_true]
      obtain ⟨hne, hc⟩ := hcommon hnil hencs
      rw [hdecide]
      exact ⟨⟨hnil, hencs⟩, rfl, hne, hc⟩
    · right
      have hne : count.encryptedSlaves ≠ count.totalSlaves := by
        rw [htotal]
        exact fun heq => hencs (hall.mp heq)
      refine ⟨fun hboth => hencs hboth.2, ?_⟩
      have hzero : ¬ 0 = count.totalSlaves := by omega
      simp [decideSlaves, hpos, hne, hunenc, hzero]

end Merge

section Walk
variable (fs : FileSystem) (dirs : DirectoryTree) (sysBlockRoot : Path)

/-- The kind of crypt device that the dm uuid of a device names. -/
def uuidLabel (blockName : Path) : Option EncryptionType :=
  if blockName = [] then none
  else
    match readTextFile fs (uuidFile sysBlockRoot blockName) 512 with
    | .ok text => cryptType (trimWhitespace text)
    | .error _ => none

/-- The slaves that a device lists; none when it has no `slaves` directory. -/
def slavesOf (blockName : Path) : List Path :=
  match dirs (slavesDir sysBlockRoot blockName) with
  | .openFails _ => []
  | .listing entries _ => entries.filter fun sname => !isDotEntry sname

/-- The dm uuid of a device could be read or is absent. -/
def UuidReadable (blockName : Path) : Prop :=
  (∃ text, readTextFile fs (uuidFile sysBlockRoot blockName) 512 = .ok text) ∨
    ∃ e, readTextFile fs (uuidFile sysBlockRoot blockName) 512 = .error (.fail e) ∧
      isNoSuchFile e = true

/-- The slaves of a device could be read or are absent. -/
def SlavesReadable (blockName : Path) : Prop :=
  dirs (slavesDir sysBlockRoot blockName) = .openFails enoent ∨
    ∃ entries, dirs (slavesDir sysBlockRoot blockName) = .listing entries false

/-- A device that a chain may pass. -/
def Passable (blockName : Path) : Prop :=
  blockName ≠ [] ∧ UuidReadable fs sysBlockRoot blockName ∧
    SlavesReadable dirs sysBlockRoot blockName

variable {fs dirs sysBlockRoot} {blockName : Path} {depth : ℕ}

theorem inspect_too_deep (h : 8 < depth) :
    inspectBlockDeviceEncryption fs dirs sysBlockRoot blockName depth = (.unknown, .unknown) := by
  rw [inspectBlockDeviceEncryption, if_pos (.inl h)]

theorem inspect_labelled (hdepth : depth ≤ 8) {t : EncryptionType}
    (h : uuidLabel fs sysBlockRoot blockName = some t) :
    inspectBlockDeviceEncryption fs dirs sysBlockRoot blockName depth = (.encrypted, t) := by
  unfold uuidLabel at h
  split_ifs at h with hname
  rw [inspectBlockDeviceEncryption, if_neg (by simp [hname]; omega)]
  cases hread : readTextFile fs (uuidFile sysBlockRoot blockName) 512 with
  | error e => simp [hread] at h
  | ok text =>
    simp only [hread] at h
    simp [parseDmUuidEncryption_eq, h]

/-- The walk below a device whose own uuid does not settle it. -/
lemma inspect_of_readable (hdepth : depth ≤ 8) (hname : blockName ≠ [])
    (h : uuidLabel fs sysBlockRoot blockName = none) (huuid : UuidReadable fs sysBlockRoot blockName) :
    inspectBlockDeviceEncryption fs dirs sysBlockRoot blockName depth =
      match dirs (slavesDir sysBlockRoot blockName) with
      | .openFails _ => (.unknown, .unknown)
      | .listing _ true => (.unknown, .unknown)
      | .listing entries false =>
        decideSlaves <| (entries.filter fun sname => !isDotEntry sname).foldl
          (fun count sname => countSlave count
            (inspectBlockDeviceEncryption fs dirs sysBlockRoot sname (depth + 1)))
          ⟨0, 0, 0, .none⟩ := by
  rw [inspectBlockDeviceEncryption, if_neg (by simp [hname]; omega)]
  rcases huuid with ⟨text, hread⟩ | ⟨e, hread, he⟩
  · simp only [uuidLabel, hname, if_false, hread] at h
    have hplain : (parseDmUuidEncryption text).1 ≠ .encrypted := by
      simp [parseDmUuidEncryption_eq, h]
    simp only [hread]
    exact if_neg hplain
  · simp only [hread]
    exact if_neg (by simp [he])

lemma inspect_of_not_readable (huuid : ¬ UuidReadable fs sysBlockRoot blockName) :
    inspectBlockDeviceEncryption fs dirs sysBlockRoot blockName depth = (.unknown, .unknown) := by
  rw [inspectBlockDeviceEncryption]
  split_ifs with hguard
  · rfl
  · cases hread : readTextFile fs (uuidFile sysBlockRoot blockName) 512 with
    | ok text => exact absurd (.inl ⟨text, hread⟩) huuid
    | error fault =>
      cases fault with
      | fail e =>
        have he : isNoSuchFile e ≠ true := fun he => huuid (.inr ⟨e, hread, he⟩)
        simp [he]
      | _ => rfl

theorem inspect_impassable (h : uuidLabel fs sysBlockRoot blockName = none)
    (hpass : ¬ Passable fs dirs sysBlockRoot blockName) :
    inspectBlockDeviceEncryption fs dirs sysBlockRoot blockName depth = (.unknown, .unknown) := by
  by_cases hguard : 8 < depth ∨ blockName = []
  · rw [inspectBlockDeviceEncryption, if_pos hguard]
  obtain ⟨hdepth, hname⟩ := not_or.mp hguard
  by_cases huuid : UuidReadable fs sysBlockRoot blockName
  · have hslaves : ¬ SlavesReadable dirs sysBlockRoot blockName :=
      fun hs => hpass ⟨hname, huuid, hs⟩
    rw [inspect_of_readable (Nat.le_of_not_lt hdepth) hname h huuid]
    cases hdir : dirs (slavesDir sysBlockRoot blockName) with
    | openFails errno => rfl
    | listing entries readError =>
      cases readError with
      | true => rfl
      | false => exact absurd (.inr ⟨entries, hdir⟩) hslaves
  · exact inspect_of_not_readable huuid

/-- A device without a label of its own reports what its slaves report. -/
theorem inspect_passable (hdepth : depth ≤ 8) (h : uuidLabel fs sysBlockRoot blockName = none)
    (hpass : Passable fs dirs sysBlockRoot blockName) :
    inspectBlockDeviceEncryption fs dirs sysBlockRoot blockName depth =
      decideSlaves (((slavesOf dirs sysBlockRoot blockName).map fun sname =>
        inspectBlockDeviceEncryption fs dirs sysBlockRoot sname (depth + 1)).foldl
          countSlave ⟨0, 0, 0, .none⟩) := by
  obtain ⟨hname, huuid, hslaves⟩ := hpass
  rw [inspect_of_readable hdepth hname h huuid, List.foldl_map]
  rcases hslaves with hdir | ⟨entries, hdir⟩
  · simp [slavesOf, hdir, decideSlaves]
  · simp only [slavesOf, hdir]

/-- What the walk reports when every maximal chain reaches a crypt device within `k`
steps, and what it reports otherwise. -/
def Outcome (fs : FileSystem) (dirs : DirectoryTree) (sysBlockRoot : Path) (k : ℕ)
    (blockName : Path) (r : EncryptionState × EncryptionType) : Prop :=
  (Inevitable (slavesOf dirs sysBlockRoot) (uuidLabel fs sysBlockRoot)
      (Passable fs dirs sysBlockRoot) k blockName ∧
    r.1 = .encrypted ∧ r.2 ≠ .none ∧
    Common (firstLabels (slavesOf dirs sysBlockRoot) (uuidLabel fs sysBlockRoot)
      (Passable fs dirs sysBlockRoot) k blockName) r.2) ∨
  (¬ Inevitable (slavesOf dirs sysBlockRoot) (uuidLabel fs sysBlockRoot)
      (Passable fs dirs sysBlockRoot) k blockName ∧ r = (.unknown, .unknown))

theorem Outcome.reported {k : ℕ} {r : EncryptionState × EncryptionType}
    (h : Outcome fs dirs sysBlockRoot k blockName r) : Reported r := by
  rcases h with ⟨-, henc, hne, -⟩ | ⟨-, h⟩
  · exact .inl ⟨henc, hne⟩
  · exact .inr h

theorem Outcome.encrypted_iff {k : ℕ} {r : EncryptionState × EncryptionType}
    (h : Outcome fs dirs sysBlockRoot k blockName r) :
    r.1 = .encrypted ↔ Inevitable (slavesOf dirs sysBlockRoot) (uuidLabel fs sysBlockRoot)
      (Passable fs dirs sysBlockRoot) k blockName := by
  rcases h with ⟨hall, henc, -⟩ | ⟨hnot, rfl⟩
  · exact iff_of_true henc hall
  · exact iff_of_false (by decide) hnot

theorem outcome_of_label {k : ℕ} {t : EncryptionType}
    (h : uuidLabel fs sysBlockRoot blockName = some t) :
    Outcome fs dirs sysBlockRoot k blockName (.encrypted, t) := by
  have hne : t ≠ .none := by
    unfold uuidLabel at h
    split_ifs at h
    split at h
    · exact cryptType_ne_none h
    · cases h
  exact .inl ⟨inevitable_of_label h, rfl, hne, .inl (firstLabels_of_label h)⟩

/-- Merging the outcomes of the slaves gives the outcome of the device. -/
theorem outcome_step {k : ℕ} (h : uuidLabel fs sysBlockRoot blockName = none)
    (hpass : Passable fs dirs sysBlockRoot blockName)
    {results : Path → EncryptionState × EncryptionType}
    (hsub : ∀ sname ∈ slavesOf dirs sysBlockRoot blockName,
      Outcome fs dirs sysBlockRoot k sname (results sname)) :
    Outcome fs dirs sysBlockRoot (k + 1) blockName
      (decideSlaves (((slavesOf dirs sysBlockRoot blockName).map results).foldl
        countSlave ⟨0, 0, 0, .none⟩)) := by
  have hreported : ∀ sub ∈ (slavesOf dirs sysBlockRoot blockName).map results, Reported sub := by
    intro sub hmem
    obtain ⟨sname, hs, rfl⟩ := List.mem_map.mp hmem
    exact (hsub sname hs).reported
  have hall : (((slavesOf dirs sysBlockRoot blockName).map results ≠ [] ∧
      ∀ sub ∈ (slavesOf dirs sysBlockRoot blockName).map results, sub.1 = .encrypted) ↔
      Inevitable (slavesOf dirs sysBlockRoot) (uuidLabel fs sysBlockRoot)
        (Passable fs dirs sysBlockRoot) (k + 1) blockName) := by
    rw [inevitable_succ h]
    simp only [ne_eq, List.map_eq_nil_iff, List.forall_mem_map, hpass, true_and]
    refine and_congr_right fun _ => forall₂_congr fun sname hs => ?_
    exact (hsub sname hs).encrypted_iff
  rcases decideSlaves_foldl _ hreported with ⟨hencs, henc, hne, hcommon⟩ | ⟨hencs, hunknown⟩
  · refine .inl ⟨hall.mp hencs, henc, hne, ?_⟩
    rw [firstLabels_succ h hpass]
    have himage : {t | ∃ sub ∈ (slavesOf dirs sysBlockRoot blockName).map results, sub.2 = t} =
        (fun sname => (results sname).2) '' {sname | sname ∈ slavesOf dirs sysBlockRoot blockName} := by
      ext t
      simp
    rw [himage] at hcommon
    refine common_iUnion (fun sname hs => ?_) hcommon
    rcases hsub sname hs with ⟨-, -, -, hc⟩ | ⟨-, hr⟩
    · exact hc
    · have hsenc := hencs.2 (results sname) (List.mem_map_of_mem hs)
      rw [hr] at hsenc
      cases hsenc
  · exact .inr ⟨fun hin => hencs (hall.mpr hin), hunknown⟩

/-- The walk at depth `8 - k`, by induction on the number of steps that are left. -/
theorem inspect_outcome (k : ℕ) (hk : depth + k = 8) (blockName : Path) :
    Outcome fs dirs sysBlockRoot k blockName
      (inspectBlockDeviceEncryption fs dirs sysBlockRoot blockName depth) := by
  induction k generalizing depth blockName with
  | zero =>
    cases h : uuidLabel fs sysBlockRoot blockName with
    | some t =>
      rw [inspect_labelled (by omega) h]
      exact outcome_of_label h
    | none =>
      refine .inr ⟨not_inevitable_zero h, ?_⟩
      by_cases hpass : Passable fs dirs sysBlockRoot blockName
      · -- the slaves are below the depth limit, so each of them is unknown
        rw [inspect_passable (by omega) h hpass]
        have hsub : ∀ sub ∈ (slavesOf dirs sysBlockRoot blockName).map fun sname =>
            inspectBlockDeviceEncryption fs dirs sysBlockRoot sname (depth + 1),
            sub = (.unknown, .unknown) := by
          intro sub hmem
          obtain ⟨sname, -, rfl⟩ := List.mem_map.mp hmem
          exact inspect_too_deep (by omega)
        rcases decideSlaves_foldl _ fun sub hs => .inr (hsub sub hs) with ⟨⟨hne, henc⟩, -⟩ | ⟨-, hr⟩
        · obtain ⟨sub, hs⟩ := List.exists_mem_of_ne_nil _ hne
          have hsenc := henc sub hs
          rw [hsub sub hs] at hsenc
          cases hsenc
        · exact hr
      · exact inspect_impassable h hpass
  | succ k ih =>
    cases h : uuidLabel fs sysBlockRoot blockName with
    | some t =>
      rw [inspect_labelled (by omega) h]
      exact outcome_of_label h
    | none =>
      by_cases hpass : Passable fs dirs sysBlockRoot blockName
      · rw [inspect_passable (by omega) h hpass]
        exact outcome_step h hpass fun sname _ => ih (by omega) sname
      · rw [inspect_impassable h hpass]
        exact .inr ⟨fun hin => hpass ((inevitable_succ h).mp hin).1, rfl⟩

/-- Two results of a directory lookup that list the same entries in some order. -/
inductive Reordered : Directory → Directory → Prop where
  | openFails (errno : ℤ) : Reordered (.openFails errno) (.openFails errno)
  | listing {entries entries' : List Path} (readError : Bool) (h : entries.Perm entries') :
    Reordered (.listing entries readError) (.listing entries' readError)

lemma mem_slavesOf_reordered {dirs' : DirectoryTree} (h : ∀ p, Reordered (dirs p) (dirs' p))
    (blockName sname : Path) :
    sname ∈ slavesOf dirs sysBlockRoot blockName ↔ sname ∈ slavesOf dirs' sysBlockRoot blockName := by
  have hdir := h (slavesDir sysBlockRoot blockName)
  unfold slavesOf
  generalize dirs (slavesDir sysBlockRoot blockName) = d,
    dirs' (slavesDir sysBlockRoot blockName) = d' at hdir
  cases hdir with
  | openFails errno => rfl
  | listing readError hperm => simp [hperm.mem_iff]

lemma passable_reordered {dirs' : DirectoryTree} (h : ∀ p, Reordered (dirs p) (dirs' p)) :
    Passable fs dirs sysBlockRoot = Passable fs dirs' sysBlockRoot := by
  funext blockName
  have hdir := h (slavesDir sysBlockRoot blockName)
  unfold Passable SlavesReadable
  generalize dirs (slavesDir sysBlockRoot blockName) = d,
    dirs' (slavesDir sysBlockRoot blockName) = d' at hdir
  cases hdir with
  | openFails errno => rfl
  | listing readError hperm => simp

/-- The outcome allows one result only, and the same one for every order of the entries. -/
theorem Outcome.unique {dirs' : DirectoryTree} {k : ℕ} {r r' : EncryptionState × EncryptionType}
    (hdirs : ∀ p, Reordered (dirs p) (dirs' p)) (h : Outcome fs dirs sysBlockRoot k blockName r)
    (h' : Outcome fs dirs' sysBlockRoot k blockName r') : r = r' := by
  have hmem : ∀ x y, y ∈ slavesOf dirs sysBlockRoot x ↔ y ∈ slavesOf dirs' sysBlockRoot x :=
    mem_slavesOf_reordered hdirs
  unfold Outcome at h
  rw [inevitable_congr hmem, firstLabels_congr hmem, passable_reordered hdirs] at h
  rcases h with ⟨hall, henc, -, hcommon⟩ | ⟨hnot, rfl⟩
  · rcases h' with ⟨-, henc', -, hcommon'⟩ | ⟨hnot', -⟩
    · exact Prod.ext (henc.trans henc'.symm) (common_unique hcommon hcommon')
    · exact absurd hall hnot'
  · rcases h' with ⟨hall', -⟩ | ⟨-, rfl⟩
    · exact absurd hall' hnot
    · rfl

end Walk

/-- Encrypted is reported exactly when every maximal chain of slaves comes to a crypt
device within eight steps; the type is the common one of the first crypt devices; and the
order of the directory entries changes neither. -/
theorem inspectBlockDeviceEncryption_chains (fs : FileSystem) (dirs : DirectoryTree)
    (sysBlockRoot blockName : Path) :
    let r := inspectBlockDeviceEncryption fs dirs sysBlockRoot blockName 0
    (r.1 = .encrypted ↔ Inevitable (slavesOf dirs sysBlockRoot) (uuidLabel fs sysBlockRoot)
      (Passable fs dirs sysBlockRoot) 8 blockName) ∧
    (r.1 = .encrypted → Common (firstLabels (slavesOf dirs sysBlockRoot)
      (uuidLabel fs sysBlockRoot) (Passable fs dirs sysBlockRoot) 8 blockName) r.2) ∧
    ∀ dirs' : DirectoryTree, (∀ p, Reordered (dirs p) (dirs' p)) →
      inspectBlockDeviceEncryption fs dirs' sysBlockRoot blockName 0 = r := by
  have h : Outcome fs dirs sysBlockRoot 8 blockName
      (inspectBlockDeviceEncryption fs dirs sysBlockRoot blockName 0) := inspect_outcome 8 rfl blockName
  refine ⟨h.encrypted_iff, ?_, fun dirs' hdirs => ?_⟩
  · intro henc
    rcases h with ⟨-, -, -, hcommon⟩ | ⟨-, hr⟩
    · exact hcommon
    · rw [hr] at henc
      cases henc
  · have h' : Outcome fs dirs' sysBlockRoot 8 blockName
        (inspectBlockDeviceEncryption fs dirs' sysBlockRoot blockName 0) :=
      inspect_outcome 8 rfl blockName
    exact (h.unique hdirs h').symm

end Syscape.BlockDevice
