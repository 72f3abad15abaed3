import Syscape.Gpu
import Syscape.Smbios
import Mathlib.Data.List.Perm.Subperm

/-!
# The list of graphics devices

The list is put together from two directories: the card nodes of the DRM class, and the display
controllers of the PCI bus that no card node has led to. Two entries of one directory that lead
to the same device are not told from two devices.
-/
namespace Syscape.Gpu
open Checked Text Utf8 LinuxFile StdSort
open Syscape.Smbios (bytesLess)

section Enumeration

/-- What `opendir` and the calls of `readdir` report: the names, each once, and the error that
ends them if there is one. -/
inductive Directory where
  | openFails (errno : ℤ)
  | listing (names : List Path) (readError : Option ℤ) (nodup : names.Nodup)

/-- The state of the system that an enumeration sees. -/
structure GpuTree extends Sysfs where
  drm : Directory
  pci : Directory

def pciDevicesRoot : Path := ascii "/sys/bus/pci/devices/"

def drmClassRoot : Path := ascii "/sys/class/drm/"

/-- `canonical_path`; it is empty for a path that leads nowhere. -/
def canonicalPath (sysfs : Sysfs) (path : Path) : Result Path :=
  match sysfs.realpath path with
  | .ok res => .ok res
  | .error errno => if errno = enoent then .ok [] else failErrno errno

def isDotEntry (name : Path) : Bool := name = ascii "." ∨ name = ascii ".."

/-- `card` and digits behind it. -/
def isPrimaryCardNode (name : Path) : Bool :=
  4 < name.length ∧ name.take 4 = ascii "card" ∧
    (name.drop 4).all fun c => decide (0x30 ≤ c ∧ c ≤ 0x39)

/-- The devices so far, and the paths of those from the first directory. -/
structure Collection where
  list : List GpuDevice
  seen : List Path
  deriving DecidableEq, Repr

/-- The path of a card node, or of what it leads to. -/
def targetPath (cardPath canon : Path) : Path := if canon = [] then cardPath else canon

/-- One turn of the first loop. -/
def addDrmEntry (sysfs : Sysfs) (state : Collection) (name : Path) : Result Collection :=
  if isDotEntry name then .ok state
  else if !isPrimaryCardNode name then .ok state
  else do
    let cardPath := drmClassRoot ++ name
    let canon ← canonicalPath sysfs (cardPath ++ ascii "/device")
    let target := targetPath cardPath canon
    let seen := if target ≠ [] then state.seen ++ [target] else state.seen
    let inspected ← unlessMissing (inspectDevice sysfs name target)
    .ok ⟨state.list ++ inspected.toList, seen⟩

/-- The body of the second loop; nothing where the entry is passed over. -/
def pciEntry (sysfs : Sysfs) (seen : List Path) (name : Path) : Result (Option GpuDevice) :=
  if isDotEntry name then .ok none
  else do
    let devPath := pciDevicesRoot ++ name
    match ← unlessMissing (readTextFile sysfs.files (devPath ++ ascii "/class") 64) with
    | none => .ok none
    | some classText => do
      let pciClass ← parseHex classText
      if pciClass / 2 ^ 16 ≠ 0x03 then .ok none
      else do
        let canon ← canonicalPath sysfs devPath
        if canon ∈ seen then .ok none else unlessMissing (inspectDevice sysfs name devPath)

/-- One turn of the second loop. -/
def addPciEntry (sysfs : Sysfs) (seen : List Path) (list : List GpuDevice) (name : Path) :
    Result (List GpuDevice) := do
  let inspected ← pciEntry sysfs seen name
  .ok (list ++ inspected.toList)

/-- A loop over a directory; nothing if there is none. -/
def enumerate {σ : Type} (dir : Directory) (step : σ → Path → Result σ) (state : σ) :
    Result (Option σ) :=
  match dir with
  | .openFails errno => if errno ≠ enoent then failErrno errno else .ok none
  | .listing names readError _ => do
    let state ← names.foldlM step state
    match readError with
    | some errno => failErrno errno
    | none => .ok (some state)

/-- The comparison of the sort. -/
def idLess (a b : GpuDevice) : Bool := bytesLess a.id b.id

/-- `collect_devices`. -/
def collectDevices (sorter : Sorter idLess) (tree : GpuTree) : Result (List GpuDevice) := do
  let drm ← enumerate tree.drm (addDrmEntry tree.toSysfs) ⟨[], []⟩
  let collected := drm.getD ⟨[], []⟩
  let pci ← enumerate tree.pci (addPciEntry tree.toSysfs collected.seen) collected.list
  if pci.isNone && drm.isNone then fail .notSupported
  else .ok (sorter.sort (pci.getD collected.list))

end Enumeration

section Devices

/-- The names of a directory. -/
def Directory.names : Directory → List Path
  | .openFails _ => []
  | .listing names _ _ => names

theorem Directory.nodup_names (dir : Directory) : dir.names.Nodup := by
  cases dir with
  | openFails errno => exact List.nodup_nil
  | listing names readError nodup => exact nodup

/-- The device that a card node leads to; without a device it is one of its own. -/
def cardDevice (sysfs : Sysfs) (card : Path) : Path :=
  match sysfs.realpath (drmClassRoot ++ card ++ ascii "/device") with
  | .ok res => targetPath (drmClassRoot ++ card) res
  | .error _ => drmClassRoot ++ card

/-- The device that an entry of the PCI bus leads to. -/
def pciDevice (sysfs : Sysfs) (name : Path) : Path :=
  match sysfs.realpath (pciDevicesRoot ++ name) with
  | .ok res => res
  | .error _ => []

/-- The entry is one of a display controller. -/
def isDisplayController (sysfs : Sysfs) (name : Path) : Bool :=
  if isDotEntry name then false
  else
    match readTextFile sysfs.files (pciDevicesRoot ++ name ++ ascii "/class") 64 with
    | .error _ => false
    | .ok classText =>
      match parseHex classText with
      | .error _ => false
      | .ok pciClass => pciClass / 2 ^ 16 = 0x03

variable (tree : GpuTree)

/-- The card nodes. -/
def cards : List Path := tree.drm.names.filter isPrimaryCardNode

/-- The display controllers. -/
def displays : List Path := tree.pci.names.filter (isDisplayController tree.toSysfs)

/-- The record describes the device at a path. -/
inductive Describes (path : Path) (dev : GpuDevice) : Prop
  | card (name : Path) (listed : name ∈ cards tree) (leads : cardDevice tree.toSysfs name = path)
      (inspected : inspectDevice tree.toSysfs name path = .ok dev)
  | pci (name : Path) (listed : name ∈ displays tree) (leads : pciDevice tree.toSysfs name = path)
      (inspected : inspectDevice tree.toSysfs name (pciDevicesRoot ++ name) = .ok dev)

/-- There is a card node or a display controller of the device. -/
def IsDevice (path : Path) : Prop :=
  (∃ name ∈ cards tree, cardDevice tree.toSysfs name = path) ∨
    ∃ name ∈ displays tree, pciDevice tree.toSysfs name = path

/-- There is one entry for each device, and no other. -/
def OncePerDevice (list : List GpuDevice) : Prop :=
  ∃ paths : List Path, paths.Nodup ∧ (∀ path, path ∈ paths ↔ IsDevice tree path) ∧
    List.Forall₂ (Describes tree) paths list

/-- The order in which a directory is read is another one. -/
inductive Directory.Reordered : Directory → Directory → Prop
  | openFails (errno : ℤ) : Directory.Reordered (.openFails errno) (.openFails errno)
  | listing {names names' : List Path} (perm : names.Perm names') (readError : Option ℤ)
      (nodup : names.Nodup) (nodup' : names'.Nodup) :
      Directory.Reordered (.listing names readError nodup) (.listing names' readError nodup')

/-- The same tree, read in another order. -/
structure Reordered (other : GpuTree) : Prop where
  sysfs : other.toSysfs = tree.toSysfs
  drm : tree.drm.Reordered other.drm
  pci : tree.pci.Reordered other.pci

end Devices

section Entries
variable {sysfs : Sysfs} {name : Path}

theorem cardDevice_ne_nil (sysfs : Sysfs) (card : Path) : cardDevice sysfs card ≠ [] := by
  have hroot : drmClassRoot ++ card ≠ [] := by
    have hne : drmClassRoot ≠ [] := by decide
    simp [hne]
  unfold cardDevice targetPath
  split
  · split_ifs with h
    · exact hroot
    · exact h
  · exact hroot

/-- A canonical path, if it can be had, is empty where there is none. -/
theorem canonicalPath_eq {path canon : Path} (h : canonicalPath sysfs path = .ok canon) :
    canon = (sysfs.realpath path).toOption.getD [] := by
  unfold canonicalPath at h
  cases hpath : sysfs.realpath path with
  | ok res =>
    simp only [hpath, Except.ok.injEq] at h
    exact h.symm
  | error errno =>
    simp only [hpath] at h
    split_ifs at h
    · cases h
      rfl
    · cases h

theorem targetPath_eq {canon : Path}
    (h : canonicalPath sysfs (drmClassRoot ++ name ++ ascii "/device") = .ok canon) :
    targetPath (drmClassRoot ++ name) canon = cardDevice sysfs name := by
  rw [canonicalPath_eq h, cardDevice]
  cases sysfs.realpath (drmClassRoot ++ name ++ ascii "/device") <;> rfl

theorem pciDevice_eq {canon : Path} (h : canonicalPath sysfs (pciDevicesRoot ++ name) = .ok canon) :
    canon = pciDevice sysfs name := by
  rw [canonicalPath_eq h, pciDevice]
  cases sysfs.realpath (pciDevicesRoot ++ name) <;> rfl

theorem isPrimaryCardNode_of_isDotEntry (h : isDotEntry name = true) :
    isPrimaryCardNode name = false := by
  rw [isDotEntry, decide_eq_true_eq] at h
  rcases h with rfl | rfl <;> decide

/-- The link and the attributes of a card node can be read. -/
def CardReadable (sysfs : Sysfs) (name : Path) : Prop :=
  (∃ canon, canonicalPath sysfs (drmClassRoot ++ name ++ ascii "/device") = .ok canon) ∧
    ∃ dev, inspectDevice sysfs name (cardDevice sysfs name) = .ok dev

/-- The record of a card node. -/
def cardRecord (sysfs : Sysfs) (name : Path) : Option GpuDevice :=
  (inspectDevice sysfs name (cardDevice sysfs name)).toOption

/-- The record of an entry of the PCI bus. -/
def pciRecord (sysfs : Sysfs) (name : Path) : Option GpuDevice :=
  (inspectDevice sysfs name (pciDevicesRoot ++ name)).toOption

/-- A turn of the first loop takes a card node and its record. -/
theorem addDrmEntry_eq_ok (state : Collection) (name : Path) (state' : Collection) :
    addDrmEntry sysfs state name = .ok state' ↔
      (isPrimaryCardNode name = true → CardReadable sysfs name) ∧
        state' = if isPrimaryCardNode name then
          ⟨state.list ++ (cardRecord sysfs name).toList, state.seen ++ [cardDevice sysfs name]⟩
        else state := by
  rw [addDrmEntry]
  by_cases hdot : isDotEntry name = true
  · simp [hdot, isPrimaryCardNode_of_isDotEntry hdot, eq_comm]
  by_cases hcard : isPrimaryCardNode name = true
  · simp only [hdot, hcard, Bool.not_true, Bool.false_eq_true, if_false, if_true, forall_const]
    cases hcanon : canonicalPath sysfs (drmClassRoot ++ name ++ ascii "/device") with
    | error error =>
      have hnot : ¬ CardReadable sysfs name := by
        rintro ⟨⟨canon, hok⟩, -⟩
        rw [hcanon] at hok
        cases hok
      simp [hnot]
    | ok canon =>
      rw [ok_bind, targetPath_eq hcanon, if_pos (cardDevice_ne_nil sysfs name),
        unlessMissing_inspectDevice, CardReadable, hcanon, cardRecord]
      cases inspectDevice sysfs name (cardDevice sysfs name) with
      | error error => simp [Except.map]
      | ok dev => simp [Except.map, Except.toOption, eq_comm]
  · simp [hdot, hcard, eq_comm]

/-- The display controllers that no card node has led to. -/
def isUnseen (sysfs : Sysfs) (seen : List Path) (name : Path) : Bool :=
  isDisplayController sysfs name && !decide (pciDevice sysfs name ∈ seen)

/-- An entry that is not refused gives the record of an unseen display controller. -/
theorem pciEntry_eq {seen : List Path} {dev : Option GpuDevice}
    (h : pciEntry sysfs seen name = .ok dev) :
    dev = (if isUnseen sysfs seen name then pciRecord sysfs name else none) ∧
      (isUnseen sysfs seen name = true → ∃ record, pciRecord sysfs name = some record) := by
  have hskipped (hnot : isUnseen sysfs seen name = false) (hnone : dev = none) :
      dev = (if isUnseen sysfs seen name then pciRecord sysfs name else none) ∧
        (isUnseen sysfs seen name = true → ∃ record, pciRecord sysfs name = some record) := by
    simp [hnot, hnone]
  unfold pciEntry at h
  by_cases hdot : isDotEntry name = true
  · rw [if_pos hdot, Except.ok.injEq] at h
    exact hskipped (by simp [isUnseen, isDisplayController, hdot]) h.symm
  rw [if_neg hdot] at h
  cases hclass : readTextFile sysfs.files (pciDevicesRoot ++ name ++ ascii "/class") 64 with
  | error error =>
    simp only [hclass, unlessMissing] at h
    have hdisplay : isDisplayController sysfs name = false := by
      rw [isDisplayController, if_neg hdot, hclass]
    split_ifs at h
    · cases h
      exact hskipped (by rw [isUnseen, hdisplay, Bool.false_and]) rfl
    · cases h
  | ok classText =>
    simp only [hclass, unlessMissing_inspectDevice] at h
    rw [unlessMissing, ok_bind] at h
    simp only [bind_eq_ok] at h
    obtain ⟨pciClass, hparse, h⟩ := h
    have hdisplay : isDisplayController sysfs name = decide (pciClass / 2 ^ 16 = 0x03) := by
      rw [isDisplayController, if_neg hdot, hclass]
      simp only [hparse]
    split_ifs at h with hother
    · cases h
      exact hskipped (by rw [isUnseen, hdisplay, decide_eq_false hother, Bool.false_and]) rfl
    · obtain ⟨canon, hcanon, h⟩ := bind_eq_ok.mp h
      obtain rfl := pciDevice_eq hcanon
      split_ifs at h with hseen
      · cases h
        exact hskipped
          (by rw [isUnseen, decide_eq_true hseen, Bool.not_true, Bool.and_false]) rfl
      · have hunseen : isUnseen sysfs seen name = true := by
          rw [isUnseen, hdisplay, decide_eq_true (not_not.mp hother), decide_eq_false hseen]
          rfl
        rw [if_pos hunseen, pciRecord]
        cases hinspect : inspectDevice sysfs name (pciDevicesRoot ++ name) with
        | error error =>
          rw [hinspect] at h
          cases h
        | ok record =>
          rw [hinspect] at h
          cases h
          exact ⟨rfl, fun _ => ⟨record, rfl⟩⟩

/-- What is seen matters only for what it has. -/
theorem pciEntry_congr {seen seen' : List Path} (h : ∀ path, path ∈ seen ↔ path ∈ seen')
    (name : Path) : pciEntry sysfs seen name = pciEntry sysfs seen' name := by
  unfold pciEntry
  simp only [h]

end Entries

section Runs
variable {tree other : GpuTree} {list : List GpuDevice}

/-- The directory can be read to its end, or is missing. -/
def Directory.Complete : Directory → Prop
  | .openFails errno => errno = enoent
  | .listing _ readError _ => readError = none

def Directory.isMissing : Directory → Bool
  | .openFails _ => true
  | .listing _ _ _ => false

theorem enumerate_eq_ok {σ : Type} {dir : Directory} {step : σ → Path → Result σ} {state : σ}
    {out : Option σ} : enumerate dir step state = .ok out ↔
      dir.Complete ∧ ∃ final, dir.names.foldlM step state = .ok final ∧
        out = if dir.isMissing then none else some final := by
  cases dir with
  | openFails errno =>
    rw [enumerate, Directory.Complete]
    by_cases h : errno = enoent
    · simp [h, Directory.names, Directory.isMissing, eq_comm]
    · simp [h, failErrno]
  | listing names readError nodup =>
    rw [enumerate, Directory.Complete, bind_eq_ok]
    cases readError with
    | none => simp [Directory.names, Directory.isMissing, eq_comm]
    | some errno => simp [failErrno]

/-- The devices that card nodes lead to. -/
def seenDevices (tree : GpuTree) : List Path := (cards tree).map (cardDevice tree.toSysfs)

/-- The entries of the display controllers that no card node has led to. -/
def unseen (tree : GpuTree) : List Path :=
  tree.pci.names.filter (isUnseen tree.toSysfs (seenDevices tree))

/-- The records in the order in which they are found. -/
def collected (tree : GpuTree) : List GpuDevice :=
  (cards tree).filterMap (cardRecord tree.toSysfs) ++
    (unseen tree).filterMap (pciRecord tree.toSysfs)

theorem foldlM_addDrmEntry_eq_ok {sysfs : Sysfs} {names : List Path} {state out : Collection} :
    names.foldlM (addDrmEntry sysfs) state = .ok out ↔
      (∀ name ∈ names, isPrimaryCardNode name = true → CardReadable sysfs name) ∧
        out = ⟨state.list ++ (names.filter isPrimaryCardNode).filterMap (cardRecord sysfs),
          state.seen ++ (names.filter isPrimaryCardNode).map (cardDevice sysfs)⟩ := by
  have hfold : names.foldl (fun state name => if isPrimaryCardNode name then
      (⟨state.list ++ (cardRecord sysfs name).toList, state.seen ++ [cardDevice sysfs name]⟩ :
        Collection) else state) state =
      ⟨state.list ++ (names.filter isPrimaryCardNode).filterMap (cardRecord sysfs),
        state.seen ++ (names.filter isPrimaryCardNode).map (cardDevice sysfs)⟩ := by
    induction names generalizing state with
    | nil => simp
    | cons name names ih =>
      rw [List.foldl_cons, ih]
      by_cases hcard : isPrimaryCardNode name = true
      · cases hrecord : cardRecord sysfs name <;> simp [hcard, hrecord]
      · simp [hcard]
  rw [foldlM_eq_ok addDrmEntry_eq_ok, hfold]

theorem foldlM_addPciEntry_eq_ok {sysfs : Sysfs} {seen names : List Path}
    {list out : List GpuDevice} :
    names.foldlM (addPciEntry sysfs seen) list = .ok out ↔
      (∀ name ∈ names, ∃ dev, pciEntry sysfs seen name = .ok dev) ∧
        out = list ++ (names.filter (isUnseen sysfs seen)).filterMap (pciRecord sysfs) := by
  induction names generalizing list with
  | nil => simp [eq_comm]
  | cons name names ih =>
    rw [List.foldlM_cons, List.forall_mem_cons, addPciEntry, bind_assoc]
    cases hentry : pciEntry sysfs seen name with
    | error error => simp
    | ok dev =>
      simp only [ok_bind, ih, Except.ok.injEq, exists_eq', true_and]
      refine and_congr_right fun _ => ?_
      obtain ⟨rfl, -⟩ := pciEntry_eq hentry
      by_cases hunseen : isUnseen sysfs seen name = true
      · cases hrecord : pciRecord sysfs name <;> simp [hunseen, hrecord]
      · simp [hunseen]

/-- The outcome of a collection. -/
theorem collectDevices_eq_ok {sorter : Sorter idLess} :
    collectDevices sorter tree = .ok list ↔
      tree.drm.Complete ∧ tree.pci.Complete ∧ ¬ (tree.pci.isMissing && tree.drm.isMissing) = true ∧
        (∀ name ∈ tree.drm.names, isPrimaryCardNode name = true →
          CardReadable tree.toSysfs name) ∧
        (∀ name ∈ tree.pci.names,
          ∃ dev, pciEntry tree.toSysfs (seenDevices tree) name = .ok dev) ∧
        list = sorter.sort (collected tree) := by
  have hmissing (dir : Directory) {σ : Type} (final : σ) :
      (if dir.isMissing then none else some final).isNone = dir.isMissing := by
    cases dir.isMissing <;> rfl
  have hvalue {dir : Directory} {σ : Type} {step : σ → Path → Result σ} {state final : σ}
      (h : dir.names.foldlM step state = .ok final) :
      (if dir.isMissing then none else some final).getD state = final := by
    cases dir with
    | openFails errno =>
      rw [Directory.names, List.foldlM_nil] at h
      cases h
      rfl
    | listing names readError nodup => rfl
  rw [collectDevices]
  simp only [bind_eq_ok, enumerate_eq_ok]
  constructor
  · rintro ⟨drm, ⟨hdrm, final, hrun, rfl⟩, pci, ⟨hpci, records, hrecords, rfl⟩, hout⟩
    have hcollected := hvalue hrun
    rw [hcollected] at hrecords
    have hlist := hvalue hrecords
    rw [hcollected, hmissing, hmissing, hlist] at hout
    rw [foldlM_addDrmEntry_eq_ok] at hrun
    obtain ⟨hcards, rfl⟩ := hrun
    rw [foldlM_addPciEntry_eq_ok] at hrecords
    obtain ⟨hentries, rfl⟩ := hrecords
    split_ifs at hout with hnone
    · exact absurd hout (fail_ne_ok _ _)
    · cases hout
      exact ⟨hdrm, hpci, hnone, hcards, hentries, rfl⟩
  · rintro ⟨hdrm, hpci, hnone, hcards, hentries, rfl⟩
    have hrun : tree.drm.names.foldlM (addDrmEntry tree.toSysfs) ⟨[], []⟩ =
        .ok ⟨(cards tree).filterMap (cardRecord tree.toSysfs), seenDevices tree⟩ :=
      foldlM_addDrmEntry_eq_ok.mpr ⟨hcards, rfl⟩
    have hrecords : tree.pci.names.foldlM (addPciEntry tree.toSysfs (seenDevices tree))
        ((cards tree).filterMap (cardRecord tree.toSysfs)) = .ok (collected tree) :=
      foldlM_addPciEntry_eq_ok.mpr ⟨hentries, rfl⟩
    refine ⟨_, ⟨hdrm, _, hrun, rfl⟩, _, ⟨hpci, collected tree, ?_, rfl⟩, ?_⟩
    · rw [hvalue hrun]
      exact hrecords
    · rw [hvalue hrun, hmissing, hmissing, hvalue hrecords, if_neg hnone]

end Runs

section Once
variable {tree other : GpuTree} {list : List GpuDevice}

/-- The devices of the records, in the order in which they are found. -/
def sources (tree : GpuTree) : List Path :=
  seenDevices tree ++ (unseen tree).map (pciDevice tree.toSysfs)

theorem mem_unseen {name : Path} : name ∈ unseen tree ↔
    name ∈ displays tree ∧ pciDevice tree.toSysfs name ∉ seenDevices tree := by
  simp [unseen, displays, isUnseen, and_assoc]

theorem mem_sources {path : Path} : path ∈ sources tree ↔ IsDevice tree path := by
  rw [sources, List.mem_append, seenDevices, List.mem_map, List.mem_map, IsDevice]
  constructor
  · rintro (hcard | ⟨name, hname, rfl⟩)
    · exact .inl hcard
    · exact .inr ⟨name, (mem_unseen.mp hname).1, rfl⟩
  · rintro (hcard | ⟨name, hname, rfl⟩)
    · exact .inl hcard
    · by_cases hseen : pciDevice tree.toSysfs name ∈ seenDevices tree
      · exact .inl (List.mem_map.mp hseen)
      · exact .inr ⟨name, mem_unseen.mpr ⟨hname, hseen⟩, rfl⟩

/-- A list of results that are all there goes along with what they are results of. -/
theorem forall₂_filterMap {α β γ : Type} {r : β → γ → Prop} {f : α → β} {g : α → Option γ}
    {names : List α} (h : ∀ name ∈ names, ∃ c, g name = some c ∧ r (f name) c) :
    List.Forall₂ r (names.map f) (names.filterMap g) := by
  induction names with
  | nil => exact .nil
  | cons name names ih =>
    rw [List.forall_mem_cons] at h
    obtain ⟨c, hc, hr⟩ := h.1
    rw [List.map_cons, List.filterMap_cons_some hc]
    exact .cons hr (ih h.2)

/-- The records describe the devices of their sources. -/
theorem forall₂_collected
    (hcards : ∀ name ∈ tree.drm.names, isPrimaryCardNode name = true →
      CardReadable tree.toSysfs name)
    (hentries : ∀ name ∈ tree.pci.names,
      ∃ dev, pciEntry tree.toSysfs (seenDevices tree) name = .ok dev) :
    List.Forall₂ (Describes tree) (sources tree) (collected tree) := by
  apply List.rel_append
  · apply forall₂_filterMap
    intro name hname
    obtain ⟨hlisted, hcard⟩ := List.mem_filter.mp hname
    obtain ⟨-, dev, hdev⟩ := hcards name hlisted hcard
    exact ⟨dev, by rw [cardRecord, hdev]; rfl, .card name hname rfl hdev⟩
  · apply forall₂_filterMap
    intro name hname
    obtain ⟨hlisted, hunseen⟩ := List.mem_filter.mp hname
    obtain ⟨dev, hdev⟩ := hentries name hlisted
    obtain ⟨record, hrecord⟩ := (pciEntry_eq hdev).2 hunseen
    refine ⟨record, hrecord, .pci name (mem_unseen.mp hname).1 rfl ?_⟩
    unfold pciRecord at hrecord
    cases hinspect : inspectDevice tree.toSysfs name (pciDevicesRoot ++ name) with
    | error error => simp [hinspect, Except.toOption] at hrecord
    | ok dev => simpa [hinspect, Except.toOption] using hrecord

/-- There is one entry for each device if no two sources have the same. -/
theorem oncePerDevice_iff (hrecords : List.Forall₂ (Describes tree) (sources tree) (collected tree))
    (hperm : list.Perm (collected tree)) : OncePerDevice tree list ↔ (sources tree).Nodup := by
  constructor
  · rintro ⟨paths, hnodup, hmem, hdescribes⟩
    have hsub : paths.Subperm (sources tree) :=
      List.subperm_of_subset hnodup fun path hpath => mem_sources.mpr ((hmem path).mp hpath)
    have hlength : (sources tree).length ≤ paths.length := by
      rw [hdescribes.length_eq, hperm.length_eq, hrecords.length_eq]
    exact (hsub.perm_of_length_le hlength).nodup_iff.mp hnodup
  · intro hnodup
    obtain ⟨paths, hpaths, hsources⟩ := List.perm_comp_forall₂ hperm hrecords.flip
    exact ⟨paths, hsources.nodup_iff.mpr hnodup, fun path => by rw [hsources.mem_iff, mem_sources],
      hpaths.flip⟩

/-- Two nodes of one kind lead to different devices. -/
theorem nodup_sources_iff : (sources tree).Nodup ↔
    (∀ a ∈ cards tree, ∀ b ∈ cards tree,
      cardDevice tree.toSysfs a = cardDevice tree.toSysfs b → a = b) ∧
    ∀ a ∈ displays tree, ∀ b ∈ displays tree,
      (∀ card ∈ cards tree, cardDevice tree.toSysfs card ≠ pciDevice tree.toSysfs a) →
        pciDevice tree.toSysfs a = pciDevice tree.toSysfs b → a = b := by
  have hcards : (cards tree).Nodup := tree.drm.nodup_names.filter _
  have hunseen : (unseen tree).Nodup := tree.pci.nodup_names.filter _
  have hnot (a : Path) : pciDevice tree.toSysfs a ∉ seenDevices tree ↔
      ∀ card ∈ cards tree, cardDevice tree.toSysfs card ≠ pciDevice tree.toSysfs a := by
    simp [seenDevices]
  rw [sources, List.nodup_append, List.nodup_map_iff_inj_on hunseen]
  constructor
  · rintro ⟨hseen, hpci, -⟩
    refine ⟨(List.nodup_map_iff_inj_on hcards).mp hseen, fun a ha b hb hunseen heq => ?_⟩
    rw [← hnot] at hunseen
    exact hpci a (mem_unseen.mpr ⟨ha, hunseen⟩) b (mem_unseen.mpr ⟨hb, heq ▸ hunseen⟩) heq
  · rintro ⟨hcard, hpci⟩
    refine ⟨(List.nodup_map_iff_inj_on hcards).mpr hcard, fun a ha b hb heq => ?_, ?_⟩
    · obtain ⟨ha, hunseen⟩ := mem_unseen.mp ha
      exact hpci a ha b (mem_unseen.mp hb).1 ((hnot a).mp hunseen) heq
    · rintro path hpath _ hother rfl
      obtain ⟨name, hname, rfl⟩ := List.mem_map.mp hother
      exact (mem_unseen.mp hname).2 hpath

end Once

section Order
variable {tree other : GpuTree} {list : List GpuDevice}

theorem Directory.Reordered.names_perm {dir dir' : Directory} (h : dir.Reordered dir') :
    dir.names.Perm dir'.names := by
  cases h with
  | openFails errno => exact .refl _
  | listing perm readError nodup nodup' => exact perm

theorem Directory.Reordered.complete_iff {dir dir' : Directory} (h : dir.Reordered dir') :
    dir'.Complete ↔ dir.Complete := by
  cases h <;> exact Iff.rfl

theorem Directory.Reordered.isMissing_eq {dir dir' : Directory} (h : dir.Reordered dir') :
    dir'.isMissing = dir.isMissing := by
  cases h <;> rfl

theorem Reordered.cards_perm (h : Reordered tree other) : (cards tree).Perm (cards other) :=
  h.drm.names_perm.filter _

theorem Reordered.mem_seenDevices (h : Reordered tree other) (path : Path) :
    path ∈ seenDevices other ↔ path ∈ seenDevices tree := by
  rw [seenDevices, seenDevices, h.sysfs]
  exact (h.cards_perm.map _).mem_iff.symm

theorem Reordered.collected_perm (h : Reordered tree other) :
    (collected tree).Perm (collected other) := by
  have hunseen : isUnseen other.toSysfs (seenDevices other) =
      isUnseen tree.toSysfs (seenDevices tree) := by
    funext name
    simp only [isUnseen, h.sysfs, h.mem_seenDevices]
  rw [collected, collected, unseen, unseen, hunseen, h.sysfs]
  exact (h.cards_perm.filterMap _).append ((h.pci.names_perm.filter _).filterMap _)

/-- Another order gives the same records. -/
theorem Reordered.collectDevices (h : Reordered tree other) {sorter sorter' : Sorter idLess}
    (hlist : collectDevices sorter tree = .ok list) :
    ∃ list', Gpu.collectDevices sorter' other = .ok list' ∧ list'.Perm list := by
  rw [collectDevices_eq_ok] at hlist
  obtain ⟨hdrm, hpci, hnone, hcards, hentries, rfl⟩ := hlist
  refine ⟨sorter'.sort (collected other), collectDevices_eq_ok.mpr
    ⟨h.drm.complete_iff.mpr hdrm, h.pci.complete_iff.mpr hpci, ?_, ?_, ?_, rfl⟩, ?_⟩
  · rwa [h.drm.isMissing_eq, h.pci.isMissing_eq]
  · intro name hname
    rw [h.sysfs]
    exact hcards name (h.drm.names_perm.mem_iff.mpr hname)
  · intro name hname
    rw [h.sysfs, pciEntry_congr h.mem_seenDevices]
    exact hentries name (h.pci.names_perm.mem_iff.mpr hname)
  · exact (sorter'.perm _).trans (h.collected_perm.symm.trans (sorter.perm _).symm)

end Order

/-- The list is sorted, and another order of the directories gives the same records. -/
def OrderIndependent (tree : GpuTree) (list : List GpuDevice) : Prop :=
  (list.Pairwise fun a b => idLess b a = false) ∧
    ∀ other, Reordered tree other → ∀ sorter,
      ∃ list', collectDevices sorter other = .ok list' ∧ list'.Perm list

section System

theorem strictWeak_idLess : StrictWeak idLess := (Smbios.strictTotal_bytesLess).on _

/-- A system with two card nodes, without attributes and without a PCI bus. -/
def twoCards (realpath : Path → Except ℤ Path) : GpuTree where
  files := fun _ => .absent
  links := fun _ => .error enoent
  realpath := realpath
  drm := .listing [ascii "card0", ascii "card1"] none (by decide)
  pci := .openFails enoent

variable {realpath : Path → Except ℤ Path}

/-- A device without attributes has a record too. -/
theorem inspectDevice_twoCards {devId : Path} (h : ValidUtf8 devId) (devPath : Path) :
    inspectDevice (twoCards realpath).toSysfs devId devPath =
      .ok { id := devId, vendorName := ascii "Unknown" } := by
  simp [inspectDevice, isValidUtf8_eq, h, readAttribute, readTextFile, readDriverName,
    readVramBytes, twoCards, unlessMissing, isNoSuchFile, failErrno, vendorToString]

theorem collectDevices_twoCards (sorter : Sorter idLess)
    (h : ∀ path errno, realpath path = .error errno → errno = enoent) :
    collectDevices sorter (twoCards realpath) =
      .ok (sorter.sort (collected (twoCards realpath))) := by
  refine collectDevices_eq_ok.mpr ⟨rfl, rfl, Bool.false_ne_true, ?_, ?_, rfl⟩
  · intro name hname _
    have hvalid : ValidUtf8 name := by
      rcases List.mem_pair.mp hname with rfl | rfl
      · exact validUtf8_ascii (forall_of_all (by decide))
      · exact validUtf8_ascii (forall_of_all (by decide))
    refine ⟨?_, _, inspectDevice_twoCards hvalid _⟩
    unfold canonicalPath
    cases hpath : (twoCards realpath).realpath (drmClassRoot ++ name ++ ascii "/device") with
    | ok res => exact ⟨res, rfl⟩
    | error errno => exact ⟨[], by simp [h _ errno hpath]⟩
  · intro name hname
    cases hname

end System

theorem collect_devices_once {sorter : Sorter idLess} {tree : GpuTree} {list : List GpuDevice}
    (h : collectDevices sorter tree = .ok list) :
    OncePerDevice tree list ∧ OrderIndependent tree list ↔
      (∀ a ∈ cards tree, ∀ b ∈ cards tree,
        cardDevice tree.toSysfs a = cardDevice tree.toSysfs b → a = b) ∧
      ∀ a ∈ displays tree, ∀ b ∈ displays tree,
        (∀ card ∈ cards tree, cardDevice tree.toSysfs card ≠ pciDevice tree.toSysfs a) →
          pciDevice tree.toSysfs a = pciDevice tree.toSysfs b → a = b := by
  have hlist := collectDevices_eq_ok.mp h
  obtain ⟨-, -, -, hcards, hentries, rfl⟩ := hlist
  have horder : OrderIndependent tree (sorter.sort (collected tree)) :=
    ⟨sorter.sorted _, fun other hother sorter' => hother.collectDevices h⟩
  rw [and_iff_left horder, ← nodup_sources_iff]
  exact oncePerDevice_iff (forall₂_collected hcards hentries) (sorter.perm _)

/-- The files of the entries of the PCI bus: two display controllers and one for sound. -/
def desktopFiles : List (Path × List UInt8) :=
  [(ascii "/sys/bus/pci/devices/0000:00:02.0/class", ascii "0x030000\n"),
    (ascii "/sys/bus/pci/devices/0000:00:1f.3/class", ascii "0x040300\n"),
    (ascii "/sys/bus/pci/devices/0000:01:00.0/class", ascii "0x030200\n"),
    (ascii "/sys/devices/pci0000:00/0000:00:02.0/vendor", ascii "0x8086\n"),
    (ascii "/sys/bus/pci/devices/0000:01:00.0/vendor", ascii "0x10de\n")]

/-- A card node and an entry of the bus lead to the same device. -/
def desktopLinks : List (Path × Path) :=
  [(ascii "/sys/class/drm/card0/device", ascii "/sys/devices/pci0000:00/0000:00:02.0"),
    (ascii "/sys/bus/pci/devices/0000:00:02.0", ascii "/sys/devices/pci0000:00/0000:00:02.0"),
    (ascii "/sys/bus/pci/devices/0000:01:00.0", ascii "/sys/devices/pci0000:00/0000:01:00.0")]

def desktopTree : GpuTree where
  files path := (desktopFiles.lookup path).elim .absent .content
  links _ := .error enoent
  realpath path := (desktopLinks.lookup path).elim (.error enoent) .ok
  drm := .listing [ascii ".", ascii "..", ascii "card0", ascii "card0-HDMI-A-1", ascii "card1"] none
    (by decide)
  pci := .listing [ascii "0000:00:02.0", ascii "0000:00:1f.3", ascii "0000:01:00.0"] none (by decide)

/-- The devices of the cards, and the one of the bus that no card leads to. -/
def desktopDevices : List GpuDevice :=
  [{ id := ascii "card0", vendor := .intel, vendorName := ascii "Intel", vendorId := some 0x8086 },
    { id := ascii "card1", vendorName := ascii "Unknown" },
    { id := ascii "0000:01:00.0", vendor := .nvidia, vendorName := ascii "NVIDIA",
      vendorId := some 0x10DE }]

/-- A card node that leads to an entry of the bus, one that leads to no device, an entry of the
bus without a card node, and one of another class. -/
theorem collect_devices_once_desktop : ∃ list,
    collectDevices (Sorter.merge strictWeak_idLess) desktopTree = .ok list ∧
      list.Perm desktopDevices ∧ OncePerDevice desktopTree list ∧
      OrderIndependent desktopTree list := by
  have hdrm : enumerate desktopTree.drm (addDrmEntry desktopTree.toSysfs) ⟨[], []⟩ =
      .ok (some ⟨desktopDevices.take 2,
        [ascii "/sys/devices/pci0000:00/0000:00:02.0", ascii "/sys/class/drm/card1"]⟩) := by
    decide +kernel
  have hpci : enumerate desktopTree.pci (addPciEntry desktopTree.toSysfs
      [ascii "/sys/devices/pci0000:00/0000:00:02.0", ascii "/sys/class/drm/card1"])
        (desktopDevices.take 2) = .ok (some desktopDevices) := by
    decide +kernel
  have hrun : collectDevices (Sorter.merge strictWeak_idLess) desktopTree =
      .ok ((Sorter.merge strictWeak_idLess).sort desktopDevices) := by
    rw [collectDevices, hdrm, ok_bind]
    simp only [Option.getD_some, hpci, ok_bind]
    rfl
  exact ⟨_, hrun, (Sorter.merge strictWeak_idLess).perm _,
    (collect_devices_once hrun).mpr ⟨by decide +kernel, by decide +kernel⟩⟩

/-- Two card nodes of one device are listed as two devices. -/
theorem shared_device_listed_twice :
    ∃ sorter tree list, collectDevices sorter tree = .ok list ∧ ¬ OncePerDevice tree list := by
  let realpath : Path → Except ℤ Path := fun _ => .ok (ascii "/sys/devices/a")
  have hmissing : ∀ path errno, realpath path = .error errno → errno = enoent := by
    intro path errno h
    cases h
  have hrun := collectDevices_twoCards (Sorter.merge strictWeak_idLess) hmissing
  refine ⟨_, _, _, hrun, ?_⟩
  obtain ⟨-, -, -, hcards, hentries, -⟩ := collectDevices_eq_ok.mp hrun
  rw [oncePerDevice_iff (forall₂_collected hcards hentries) ((Sorter.merge _).perm _)]
  decide

end Syscape.Gpu
