import Syscape.PrinterSnapshot
import Mathlib.Data.List.Find

/-!
# The default printer of a snapshot

Every printer of a snapshot has a name and an identifier, and what is marked as the default is
what the environment, the daemon or the configuration names. No printer is made the default
because of its place in the list or because there is no other.
-/
namespace Syscape.Printer
open Checked Text Ipp LinuxFile StdSort

section Parsing
variable {p p' : PrinterInfo} {s s' : ParserState}

/-- A record that a parser or the discovery completes: it is named, and nothing is marked. -/
structure Unmarked (p : PrinterInfo) : Prop where
  id_ne : p.id ≠ []
  name_ne : p.name ≠ []
  isDefault : p.isDefault = none

/-- The mark is left as it is. -/
def KeepsMark (p : PrinterInfo) (x : Result PrinterInfo) : Prop :=
  ∀ p', x = .ok p' → p'.isDefault = p.isDefault

theorem KeepsMark.ite {c : Prop} [Decidable c] {x y : Result PrinterInfo} (hx : KeepsMark p x)
    (hy : KeepsMark p y) : KeepsMark p (if c then x else y) := by
  split_ifs
  · exact hx
  · exact hy

theorem KeepsMark.value {α : Type} {x : Result α} {f : α → PrinterInfo}
    (hf : ∀ a, (f a).isDefault = p.isDefault) : KeepsMark p (x >>= fun a => .ok (f a)) := by
  intro p' h
  obtain ⟨a, -, h⟩ := bind_eq_ok.mp h
  cases h
  exact hf a

theorem KeepsMark.ofOk : KeepsMark p (.ok p) := by
  intro p' h
  cases h
  rfl

theorem decodeAttribute_isDefault (name val : List UInt8) :
    KeepsMark p (decodeAttribute name val p) := by
  unfold decodeAttribute
  repeat' apply KeepsMark.ite
  all_goals first
    | exact .ofOk
    | exact .value fun _ => rfl
    | exact .value fun _ => by split_ifs <;> rfl

theorem completePrinter_unmarked (hnamed : p.id ≠ [] ∨ p.name ≠ []) (hnone : p.isDefault = none) :
    Unmarked (completePrinter p) := by
  unfold completePrinter
  dsimp only
  by_cases hid : p.id = []
  · have hname : p.name ≠ [] := hnamed.resolve_left (not_not.mpr hid)
    rw [if_pos hid]
    dsimp only
    rw [if_neg hname]
    split_ifs
    · exact ⟨hname, hname, hnone⟩
    · exact ⟨hname, hname, hnone⟩
  · rw [if_neg hid]
    split_ifs with hname
    · exact ⟨hid, hid, hnone⟩
    · exact ⟨hid, hid, hnone⟩
    · exact ⟨hid, hname, hnone⟩
    · exact ⟨hid, hname, hnone⟩

/-- What holds of the parser's state between two tags. -/
structure ParserInv (s : ParserState) : Prop where
  complete : ∀ p ∈ s.resultPrinters, Unmarked p
  current : s.currentPrinter.isDefault = none

theorem ParserInv.finish (h : ParserInv s) (hs : finishCurrentPrinter s = some s') :
    ParserInv s' := by
  unfold finishCurrentPrinter at hs
  split_ifs at hs with hnone hnamed
  · cases hs
    refine ⟨fun p hp => ?_, rfl⟩
    rcases List.mem_append.mp hp with hp | hp
    · exact h.complete p hp
    · rw [List.mem_singleton.mp hp]
      exact completePrinter_unmarked hnamed h.current
  · cases hs
    exact ⟨h.complete, rfl⟩

/-- The end of a group, if it was one of a printer. -/
theorem ParserInv.endGroup (h : ParserInv s)
    (hs : (if s.inPrinterGroup then finishCurrentPrinter s else some s) = some s') :
    ParserInv s' := by
  split_ifs at hs
  · exact h.finish hs
  · cases hs
    exact h

theorem ParserInv.delimiter {tag : ℕ} (h : ParserInv s) (hs : delimiterTag tag s = .ok s') :
    ParserInv s' := by
  unfold delimiterTag at hs
  by_cases htag : tag = 0x04 ∨ tag = 0x01 ∨ tag = 0x02 ∨ tag = 0x05
  · rw [if_pos htag] at hs
    cases hend : if s.inPrinterGroup then finishCurrentPrinter s else some s with
    | none =>
      rw [hend] at hs
      cases hs
    | some s'' =>
      rw [hend] at hs
      cases hs
      have hinv := h.endGroup hend
      exact ⟨hinv.complete, hinv.current⟩
  · rw [if_neg htag] at hs
    cases hs

theorem ParserInv.attribute {name val : List UInt8} (h : ParserInv s)
    (hs : addAttribute name val s = .ok s') : ParserInv s' := by
  unfold addAttribute at hs
  split_ifs at hs
  · obtain ⟨p, hp, hs⟩ := bind_eq_ok.mp hs
    cases hs
    exact ⟨h.complete, (decodeAttribute_isDefault _ _ p hp).trans h.current⟩
  · cases hs
    exact ⟨h.complete, h.current⟩

theorem ParserInv.loop {data : List UInt8} {pos : ℕ} {out : ParserState × ℕ × Bool}
    (hinv : ParserInv s) (h : parseLoop data pos s = .ok out) : ParserInv out.1 := by
  induction hn : data.length - pos using Nat.strongRecOn generalizing pos s with
  | ind n ih =>
    rw [parseLoop] at h
    by_cases hpos : pos < data.length
    · rw [dif_pos hpos] at h
      obtain ⟨tag, -, h⟩ := bind_eq_ok.mp h
      split_ifs at h
      · cases h
        exact hinv
      · obtain ⟨s'', hs'', h⟩ := bind_eq_ok.mp h
        exact ih _ (by omega) (hinv.delimiter hs'') h rfl
      · obtain ⟨attr, -, h⟩ := bind_eq_ok.mp h
        obtain ⟨s'', hs'', h⟩ := bind_eq_ok.mp h
        have hlt := attr.lt
        exact ih _ (by omega) (hinv.attribute hs'') h rfl
    · rw [dif_neg hpos] at h
      cases h
      exact hinv

/-- The printers of a response are named, and none is marked. -/
theorem parseIppPrintersResponse_unmarked {data : List UInt8} {list : List PrinterInfo}
    (h : parseIppPrintersResponse data = .ok list) : ∀ p ∈ list, Unmarked p := by
  obtain ⟨-, -, h⟩ := bind_eq_ok.mp h
  obtain ⟨⟨s, stop, sawEnd⟩, hloop, h⟩ := bind_eq_ok.mp h
  have hstart : ParserInv ⟨[], {}, false, false, []⟩ := ⟨by simp, rfl⟩
  have hinv := hstart.loop hloop
  dsimp only at h
  by_cases hbad : (!sawEnd) = true ∨ stop ≠ data.length
  · rw [if_pos hbad] at h
    cases h
  rw [if_neg hbad] at h
  cases hend : if s.inPrinterGroup then finishCurrentPrinter s else some s with
  | none =>
    rw [hend] at h
    cases h
  | some s' =>
    rw [hend] at h
    cases h
    exact (hinv.endGroup hend).complete

end Parsing

section Discovery
variable {m : PrintSystem}

theorem usbPrinter_unmarked {name : Path} {p : PrinterInfo} (hne : name ≠ [])
    (h : usbPrinter m name = .ok p) : Unmarked p := by
  obtain ⟨uri, -, h⟩ := bind_eq_ok.mp h
  obtain ⟨vendor, -, h⟩ := bind_eq_ok.mp h
  obtain ⟨product, -, h⟩ := bind_eq_ok.mp h
  obtain ⟨full, -, h⟩ := bind_eq_ok.mp h
  cases h
  refine ⟨hne, ?_, rfl⟩
  dsimp only
  split_ifs with hfull
  · exact hfull
  · exact hne

theorem discoverSysfsUsbPrinters_unmarked {found : List PrinterInfo}
    (h : discoverSysfsUsbPrinters m = .ok found) : ∀ p ∈ found, Unmarked p := by
  unfold discoverSysfsUsbPrinters at h
  split at h
  · split_ifs at h
    · cases h
      simp
    · cases h
  · obtain ⟨list, hlist, h⟩ := bind_eq_ok.mp h
    split at h
    · cases h
      intro p hp
      obtain ⟨name, hname, hprinter⟩ := exists_of_mem_mapM hlist hp
      apply usbPrinter_unmarked _ hprinter
      rintro rfl
      exact absurd (List.mem_filter.mp hname).2 (by decide)
    · cases h

end Discovery

section Designation
variable {m : PrintSystem} {s : PrinterSnapshot}

/-- The name of the printer that the daemon gives as the default. -/
def daemonDefault (m : PrintSystem) : Option (List UInt8) :=
  match m.daemon (buildGetDefaultRequest 1) with
  | .error _ => none
  | .ok body =>
    match parseIppPrintersResponse body with
    | .error _ => none
    | .ok list => list.head?.map PrinterInfo.name

/-- The name of the printer that the configuration gives as the default. -/
def configuredDefault (m : PrintSystem) : Option (List UInt8) :=
  match readTextFile m.files (ascii "/etc/cups/printers.conf") (1024 * 1024) with
  | .error _ => none
  | .ok text =>
    match parseCupsPrintersConf text with
    | .error _ => none
    | .ok list => (list.find? fun item => item.isDefault.getD false).map PrinterInfo.name

/-- The name that designates the default printer: the environment comes first, then the daemon,
and the configuration only where there is no daemon. -/
def designated (m : PrintSystem) : Option (List UInt8) :=
  match environmentDefaultPrinter m with
  | .error _ => none
  | .ok (some name) => some name
  | .ok none =>
    match m.daemon (buildGetPrintersRequest 1) with
    | .ok _ => daemonDefault m
    | .error _ => configuredDefault m

/-- An identifier and a name. -/
def HasNames (p : PrinterInfo) : Prop := p.id ≠ [] ∧ p.name ≠ []

/-- The snapshot knows the name that designates the default, or that there is none, or it does
not know, and then nothing is marked. -/
structure Designates (s : PrinterSnapshot) (name : Option (List UInt8)) : Prop where
  named : ∀ p ∈ s.items, HasNames p
  known : s.defaultKnown = true → s.defaultName = name.getD []
  unknown : s.defaultKnown = false → name = none ∧ ∀ p ∈ s.items, p.isDefault = none

theorem askDefault_designates (hitems : ∀ p ∈ s.items, Unmarked p) (hname : s.defaultName = [])
    (hknown : s.defaultKnown = false) : Designates (askDefault m s) (daemonDefault m) := by
  have hnamed : ∀ p ∈ s.items, HasNames p := fun p hp => ⟨(hitems p hp).id_ne, (hitems p hp).name_ne⟩
  have hnone : ∀ p ∈ s.items, p.isDefault = none := fun p hp => (hitems p hp).isDefault
  unfold askDefault daemonDefault
  cases m.daemon (buildGetDefaultRequest 1) with
  | error e => exact ⟨hnamed, fun h => by simp [hknown] at h, fun _ => ⟨rfl, hnone⟩⟩
  | ok body =>
    dsimp only
    cases parseIppPrintersResponse body with
    | error e =>
      dsimp only
      split_ifs
      · exact ⟨hnamed, fun _ => hname, fun h => by cases h⟩
      · exact ⟨hnamed, fun h => by simp [hknown] at h, fun _ => ⟨rfl, hnone⟩⟩
    | ok list =>
      cases list with
      | nil => exact ⟨hnamed, fun _ => hname, fun h => by cases h⟩
      | cons p list => exact ⟨hnamed, fun _ => rfl, fun h => by cases h⟩

theorem parseCupsPrintersConf_named {text : List UInt8} {list : List PrinterInfo}
    (h : parseCupsPrintersConf text = .ok list) : ∀ p ∈ list, HasNames p := by
  obtain ⟨-, -, -, -, hnamed⟩ := parseCupsPrintersConf_wellFormed h
  intro p hp
  obtain ⟨hid, hname, -⟩ := hnamed p hp
  exact ⟨hid ▸ hname, hname⟩

theorem readConfiguration_designates (h : readConfiguration m none {} = .ok s) :
    Designates s (configuredDefault m) := by
  unfold readConfiguration at h
  unfold configuredDefault
  cases hread : readTextFile m.files (ascii "/etc/cups/printers.conf") (1024 * 1024) with
  | error f =>
    rw [hread] at h
    dsimp only at h
    split_ifs at h
    cases h
    exact ⟨by simp, fun h => (by cases h), fun _ => ⟨rfl, by simp⟩⟩
  | ok text =>
    rw [hread] at h
    obtain ⟨parsed, hparsed, h⟩ := bind_eq_ok.mp h
    have hnames := parseCupsPrintersConf_named hparsed
    cases h
    simp only [hparsed, confDefault, Option.isSome_none, Bool.false_eq_true, if_false]
    cases parsed.find? fun item => item.isDefault.getD false with
    | some item => exact ⟨hnames, fun _ => rfl, fun h => by cases h⟩
    | none => exact ⟨hnames, fun _ => rfl, fun h => by cases h⟩

/-- With a name from the environment, the snapshot keeps it. -/
theorem queueSnapshot_environment {name : List UInt8}
    (h : queueSnapshot m (some name) { defaultKnown := true, defaultName := name } = .ok s) :
    Designates s (some name) := by
  have hitems : ∀ items : List PrinterInfo, (∀ p ∈ items, HasNames p) →
      Designates { items, defaultKnown := true, defaultName := name } (some name) :=
    fun items hitems => ⟨hitems, fun _ => rfl, fun h => by cases h⟩
  unfold queueSnapshot at h
  split at h
  · obtain ⟨parsed, hparsed, h⟩ := bind_eq_ok.mp h
    cases h
    apply hitems
    intro p hp
    have hunmarked := parseIppPrintersResponse_unmarked hparsed p hp
    exact ⟨hunmarked.id_ne, hunmarked.name_ne⟩
  · split_ifs at h
    unfold readConfiguration at h
    split at h
    · split_ifs at h
      cases h
      exact hitems [] (by simp)
    · obtain ⟨parsed, hparsed, h⟩ := bind_eq_ok.mp h
      cases h
      exact hitems _ (parseCupsPrintersConf_named hparsed)

theorem queueSnapshot_designates (hnone : environmentDefaultPrinter m = .ok none)
    (h : queueSnapshot m none {} = .ok s) : Designates s (designated m) := by
  cases hdaemon : m.daemon (buildGetPrintersRequest 1) with
  | ok body =>
    have hname : designated m = daemonDefault m := by simp only [designated, hnone, hdaemon]
    simp only [queueSnapshot, hdaemon] at h
    obtain ⟨parsed, hparsed, h⟩ := bind_eq_ok.mp h
    cases h
    rw [hname]
    exact askDefault_designates (parseIppPrintersResponse_unmarked hparsed) rfl rfl
  | error e =>
    have hname : designated m = configuredDefault m := by simp only [designated, hnone, hdaemon]
    simp only [queueSnapshot, hdaemon] at h
    rw [hname]
    split_ifs at h
    exact readConfiguration_designates h

end Designation

section Defaults
variable {signed : Bool} {sorter : Sorter (nameLess signed)} {m : PrintSystem} {p : PrinterInfo}

theorem mem_mergeUsbPrinters {list usbList : List PrinterInfo}
    (h : p ∈ mergeUsbPrinters list usbList) : p ∈ list ∨ p ∈ usbList := by
  induction usbList generalizing list with
  | nil => exact .inl h
  | cons usb usbList ih =>
    rcases ih h with hp | hp
    · unfold mergeUsbPrinter at hp
      split_ifs at hp
      · exact .inl hp
      · rcases List.mem_append.mp hp with hp | hp
        · exact .inl hp
        · exact .inr (List.mem_cons.mpr (.inl (List.mem_singleton.mp hp)))
    · exact .inr (List.mem_cons_of_mem _ hp)

/-- A printer has the name or the identifier that designates the default. -/
def IsDesignated (m : PrintSystem) (p : PrinterInfo) : Prop :=
  ∃ name, designated m = some name ∧ (p.id = name ∨ p.name = name)

/-- The mark of a printer, before the list is sorted. -/
theorem marked_iff {s : PrinterSnapshot} {usbList : List PrinterInfo}
    (hs : Designates s (designated m)) (husb : ∀ p ∈ usbList, Unmarked p)
    (hp : p ∈ if s.defaultKnown then
        setDefaultByName (mergeUsbPrinters s.items usbList) s.defaultName
      else mergeUsbPrinters s.items usbList) :
    p.isDefault.getD false = true ↔ IsDesignated m p := by
  cases hknown : s.defaultKnown with
  | false =>
    obtain ⟨hnone, hitems⟩ := hs.unknown hknown
    rw [hknown, if_neg (by simp)] at hp
    have hmark : p.isDefault = none := by
      rcases mem_mergeUsbPrinters hp with hp | hp
      · exact hitems p hp
      · exact (husb p hp).isDefault
    simp [hmark, IsDesignated, hnone]
  | true =>
    rw [hknown, if_pos rfl] at hp
    obtain ⟨item, hitem, rfl⟩ := List.mem_map.mp hp
    have hnames : HasNames item := by
      rcases mem_mergeUsbPrinters hitem with hp | hp
      · exact hs.named item hp
      · exact ⟨(husb item hp).id_ne, (husb item hp).name_ne⟩
    rw [hs.known hknown, Option.getD_some, decide_eq_true_eq, IsDesignated]
    cases designated m with
    | none => simpa [HasNames] using hnames
    | some name => simp

/-- The marks of a snapshot are those of the designated printers. -/
theorem snapshot_marks {s : PrinterSnapshot} (h : queryPrinterSnapshot sorter m = .ok s) :
    ∀ p ∈ s.items, (p.isDefault.getD false = true ↔ IsDesignated m p) := by
  obtain ⟨environmentDefault, henv, h⟩ := bind_eq_ok.mp h
  obtain ⟨queues, hqueues, h⟩ := bind_eq_ok.mp h
  obtain ⟨usbList, husb, h⟩ := bind_eq_ok.mp h
  cases h
  have hdesignates : Designates queues (designated m) := by
    cases environmentDefault with
    | none => exact queueSnapshot_designates henv hqueues
    | some name =>
      have hname : designated m = some name := by rw [designated, henv]
      rw [hname]
      exact queueSnapshot_environment hqueues
  intro p hp
  exact marked_iff hdesignates (discoverSysfsUsbPrinters_unmarked husb)
    ((sorter.perm _).mem_iff.mp hp)

theorem resolveSnapshotDefault_eq_ok {list : List PrinterInfo} {known : Bool}
    {error : Option (Fault ErrorCode)} :
    resolveSnapshotDefault list known error = .ok p ↔
      list.find? (fun item => item.isDefault.getD false) = some p := by
  unfold resolveSnapshotDefault markedDefaultPrinter
  by_cases hlist : list = []
  · simp [hlist]
  · rw [if_neg hlist]
    cases list.find? fun item => item.isDefault.getD false with
    | some item => simp
    | none =>
      cases error with
      | some e => simp [fail]
      | none => cases known <;> simp [fail]

/-- The default printer is the first one that is marked. -/
theorem defaultPrinter_eq_ok :
    defaultPrinter sorter m = .ok p ↔ ∃ list, printers sorter m = .ok list ∧
      list.find? (fun item => item.isDefault.getD false) = some p := by
  unfold defaultPrinter printers
  simp only [bind_eq_ok, resolveSnapshotDefault_eq_ok, Except.ok.injEq]
  constructor
  · rintro ⟨s, hs, hp⟩
    exact ⟨s.items, ⟨s, hs, rfl⟩, hp⟩
  · rintro ⟨_, ⟨s, hs, rfl⟩, hp⟩
    exact ⟨s, hs, hp⟩

theorem printers_marks {list : List PrinterInfo} (h : printers sorter m = .ok list) :
    ∀ item ∈ list, (item.isDefault.getD false = true ↔ IsDesignated m item) := by
  obtain ⟨s, hs, h⟩ := bind_eq_ok.mp h
  cases h
  exact snapshot_marks hs

/-- The first of the marked printers is the first of the designated ones. -/
theorem find?_marked {list : List PrinterInfo} {name : List UInt8}
    (h : printers sorter m = .ok list) (hname : designated m = some name) :
    list.find? (fun item => item.isDefault.getD false) =
      list.find? fun item => item.id = name ∨ item.name = name := by
  apply List.find?_congr
  intro item hitem
  rw [Bool.eq_iff_iff, printers_marks h item hitem, IsDesignated, hname]
  simp

/-- The default printer is what the environment, the daemon or the configuration designates,
and the first of the list where several have the name; it is never one that nothing
designates. The marks of the list say the same, and so does a search for the name. -/
theorem default_is_designated (sorter : Sorter (nameLess signed)) (m : PrintSystem)
    (p : PrinterInfo) :
    (defaultPrinter sorter m = .ok p ↔ ∃ list name, printers sorter m = .ok list ∧
      designated m = some name ∧
      list.find? (fun item => item.id = name ∨ item.name = name) = some p) ∧
    (∀ list, printers sorter m = .ok list → ∀ item ∈ list,
      (item.isDefault = some true ↔
        ∃ name, designated m = some name ∧ (item.id = name ∨ item.name = name))) ∧
    ∀ name, designated m = some name → defaultPrinter sorter m = .ok p →
      findPrinter sorter m name = .ok p := by
  have hfound : defaultPrinter sorter m = .ok p ↔ ∃ list name, printers sorter m = .ok list ∧
      designated m = some name ∧
      list.find? (fun item => item.id = name ∨ item.name = name) = some p := by
    rw [defaultPrinter_eq_ok]
    constructor
    · rintro ⟨list, hlist, hp⟩
      have hmark := List.find?_some hp
      obtain ⟨name, hname, -⟩ := (printers_marks hlist p (List.mem_of_find?_eq_some hp)).mp hmark
      exact ⟨list, name, hlist, hname, find?_marked hlist hname ▸ hp⟩
    · rintro ⟨list, name, hlist, hname, hp⟩
      exact ⟨list, hlist, (find?_marked hlist hname).trans hp⟩
  refine ⟨hfound, ?_, ?_⟩
  · intro list hlist item hitem
    rw [← IsDesignated, ← printers_marks hlist item hitem]
    cases item.isDefault with
    | none => simp
    | some b => simp
  · intro name hname hp
    obtain ⟨list, name', hlist, hname', hp⟩ := hfound.mp hp
    obtain rfl : name' = name := Option.some.inj (hname'.symm.trans hname)
    rw [findPrinter, hlist, ok_bind, hp]

end Defaults

end Syscape.Printer
