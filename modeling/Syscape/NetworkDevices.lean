import Syscape.NetworkStatistics

/-!
# What the kernel tells of its interfaces

The kernel counts in words of 64 bits. It prints the counters of every interface in one
line of `/proc/net/dev`, where the dropped and the missed packets are one number, and sysfs
has a file for each counter. Both readers make one record of them, but a sum that does not
fit wraps in the line, and fails to be read from the files.
-/
namespace Syscape.Network
open Checked Text Utf8 Lines Paths Numbers LinuxFile Digits Numerals
open Syscape.Software (isspace isspace_eq_false)

section Rendering

/-- The counters of an interface. -/
structure LinkStats where
  rxPackets : UInt64
  txPackets : UInt64
  rxBytes : UInt64
  txBytes : UInt64
  rxErrors : UInt64
  txErrors : UInt64
  rxDropped : UInt64
  txDropped : UInt64
  multicast : UInt64
  collisions : UInt64
  rxLengthErrors : UInt64
  rxOverErrors : UInt64
  rxCrcErrors : UInt64
  rxFrameErrors : UInt64
  rxFifoErrors : UInt64
  rxMissedErrors : UInt64
  txAbortedErrors : UInt64
  txCarrierErrors : UInt64
  txFifoErrors : UInt64
  txHeartbeatErrors : UInt64
  txWindowErrors : UInt64
  rxCompressed : UInt64
  txCompressed : UInt64

/-- An interface. Its name has no blank and no slash; a colon may stand in it. -/
structure Interface where
  name : List UInt8
  stats : LinkStats
  name_ne : name ≠ []
  permitted : ∀ c ∈ name, isspace c = false ∧ c ≠ 0x2F ∧ c ≠ 0x00

/-- The widths and numbers of the columns of a line; the sums wrap. -/
def LinkStats.columns (s : LinkStats) : List (ℕ × UInt64) :=
  [(7, s.rxBytes), (7, s.rxPackets), (4, s.rxErrors), (4, s.rxDropped + s.rxMissedErrors),
    (4, s.rxFifoErrors), (5, s.rxLengthErrors + s.rxOverErrors + s.rxCrcErrors + s.rxFrameErrors),
    (10, s.rxCompressed), (9, s.multicast), (8, s.txBytes), (7, s.txPackets), (4, s.txErrors),
    (4, s.txDropped), (4, s.txFifoErrors), (5, s.collisions),
    (7, s.txCarrierErrors + s.txAbortedErrors + s.txWindowErrors + s.txHeartbeatErrors),
    (10, s.txCompressed)]

/-- Numbers in columns, with a blank in front of each. -/
def columnsText (columns : List (ℕ × UInt64)) : List UInt8 :=
  columns.flatMap fun column => 0x20 :: paddedDecimal column.1 column.2.toNat

/-- The line of an interface. -/
def Interface.line (i : Interface) : List UInt8 :=
  i.name.leftpad 6 0x20 ++ 0x3A :: columnsText i.stats.columns

/-- The two lines above the interfaces. -/
def headings : List (List UInt8) :=
  [ascii "Inter-|   Receive                                                |  Transmit",
    ascii " face |bytes    packets errs drop fifo frame compressed multicast|bytes    packets errs drop fifo colls carrier compressed"]

/-- The content of `/proc/net/dev`. -/
def procNetDev (interfaces : List Interface) : List UInt8 :=
  (headings ++ interfaces.map Interface.line).flatMap (· ++ [0x0A])

/-- The files of the counters that are read from sysfs. -/
def attributes : List (String × (LinkStats → UInt64)) :=
  [("rx_bytes", LinkStats.rxBytes), ("tx_bytes", LinkStats.txBytes),
    ("rx_packets", LinkStats.rxPackets), ("tx_packets", LinkStats.txPackets),
    ("rx_errors", LinkStats.rxErrors), ("tx_errors", LinkStats.txErrors),
    ("rx_dropped", LinkStats.rxDropped), ("rx_missed_errors", LinkStats.rxMissedErrors),
    ("tx_dropped", LinkStats.txDropped), ("multicast", LinkStats.multicast),
    ("collisions", LinkStats.collisions)]

/-- The directory shows the counters, a line in a file each. -/
def Shows (fs : FileSystem) (ifaceDir : Path) (s : LinkStats) : Prop :=
  ∀ attr ∈ attributes,
    fs (statisticsPath ifaceDir attr.1) = .content (decimal (attr.2 s).toNat ++ [0x0A])

/-- The record of an interface; the packets that were dropped or missed are one number. -/
def Interface.record (i : Interface) (index : ℕ) : StatisticsRecord where
  name := i.name
  index := index
  rxBytes := i.stats.rxBytes.toNat
  txBytes := i.stats.txBytes.toNat
  rxPackets := i.stats.rxPackets.toNat
  txPackets := i.stats.txPackets.toNat
  rxErrors := i.stats.rxErrors.toNat
  txErrors := i.stats.txErrors.toNat
  rxDropped := (i.stats.rxDropped + i.stats.rxMissedErrors).toNat
  txDropped := i.stats.txDropped.toNat
  rxMulticast := some i.stats.multicast.toNat
  collisions := some i.stats.collisions.toNat

end Rendering

section Numbers

/-- Digits are read as long as their value fits. -/
theorem parseDigits_value {ds : List ℕ} (hds : ∀ d ∈ ds, d < 10) {v : ℕ}
    (h : value 10 v ds ≤ uint64Max) :
    parseDigits v (ds.map asciiDigit) = .ok (value 10 v ds) := by
  induction ds generalizing v with
  | nil => rfl
  | cons d ds ih =>
    rw [List.forall_mem_cons] at hds
    have hdigit := toNat_asciiDigit hds.1
    have hle : v * 10 + d ≤ uint64Max := le_trans (le_value (by decide) _ ds) h
    have hrange : ¬ (asciiDigit d < 0x30 ∨ asciiDigit d > 0x39) := by
      intro hout
      obtain hout | hout := hout
      · have hlow : (asciiDigit d).toNat < 0x30 := hout
        omega
      · have hhigh : 0x39 < (asciiDigit d).toNat := hout
        omega
    rw [List.map_cons, parseDigits, if_neg hrange, hdigit, Nat.add_sub_cancel_left]
    dsimp only
    rw [if_neg (by omega), ih hds.2 h, value_cons]

theorem parseUint64Exact_decimal (n : UInt64) : parseUint64Exact (decimal n.toNat) = .ok n.toNat := by
  have hvalue := value_ofNat 10 n.toNat
  have hread := parseDigits_value (fun d hd => ofNat_lt (by decide) hd)
    (hvalue.le.trans (le_uint64Max n.toNat_lt))
  rw [parseUint64Exact, if_neg (decimal_ne_nil _), decimal, hread, hvalue]

end Numbers

section Lines

/-- The blanks of the reader are white space. -/
theorem isColumnBlank_eq_false {c : UInt8} (h : isspace c = false) : isColumnBlank c = false := by
  by_contra hblank
  rw [Bool.not_eq_false] at hblank
  simp only [isColumnBlank, Bool.or_eq_true, beq_iff_eq] at hblank
  obtain (rfl | rfl) | rfl := hblank <;> cases h

theorem isColumnBlank_digit {c : UInt8} {n : ℕ} (h : c ∈ decimal n) : isColumnBlank c = false :=
  isColumnBlank_eq_false (isspace_eq_false (mem_decimal h).1)

/-- Numbers in columns are read as they are. -/
theorem readFields_columnsText (columns : List (ℕ × UInt64)) :
    readFields columns.length (columnsText columns) =
      .ok (columns.map fun column => column.2.toNat, []) := by
  induction columns with
  | nil => rfl
  | cons column columns ih =>
    have htoken : takeToken isColumnBlank (columnsText (column :: columns)) =
        some (decimal column.2.toNat, columnsText columns) := by
      have htext : columnsText (column :: columns) =
          (0x20 :: List.replicate (column.1 - (decimal column.2.toNat).length) 0x20) ++
            (decimal column.2.toNat ++ columnsText columns) := by
        simp [columnsText, paddedDecimal, List.leftpad]
      rw [htext]
      apply takeToken_append
      · intro c hc
        rw [List.mem_cons, List.mem_replicate] at hc
        obtain rfl | ⟨-, rfl⟩ := hc <;> rfl
      · exact decimal_ne_nil _
      · exact fun c hc => isColumnBlank_digit hc
      · cases columns with
        | nil => simp [columnsText]
        | cons next columns => simp [columnsText, isColumnBlank]
    rw [List.length_cons, readFields, htoken]
    dsimp only
    rw [parseUint64Exact_decimal, ok_bind, ih, ok_bind]
    rfl

theorem Interface.not_blank (i : Interface) {c : UInt8} (h : c ∈ i.name) :
    isBlank c = false ∧ isColumnBlank c = false := by
  have hcolumn := isColumnBlank_eq_false (i.permitted c h).1
  exact ⟨(Bool.or_eq_false_iff.mp hcolumn).1, hcolumn⟩

theorem mem_columnsText {columns : List (ℕ × UInt64)} {c : UInt8} (h : c ∈ columnsText columns) :
    c = 0x20 ∨ 0x30 ≤ c.toNat ∧ c.toNat ≤ 0x39 := by
  obtain ⟨column, -, hc⟩ := List.mem_flatMap.mp h
  rw [List.mem_cons, paddedDecimal, List.leftpad, List.mem_append] at hc
  obtain rfl | hc | hc := hc
  · exact .inl rfl
  · exact .inl (List.eq_of_mem_replicate hc)
  · exact .inr (mem_decimal hc)

/-- The line of an interface is read as its record, if its name is valid and has an index. -/
theorem parseProcNetDevLine_line (indexOf : List UInt8 → Result ℕ) (i : Interface) :
    parseProcNetDevLine indexOf i.line =
      if ValidUtf8 i.name then (indexOf i.name).map fun index => some (i.record index)
      else fail .invalidEncoding := by
  have hcolon : (0x3A : UInt8) ∉ columnsText i.stats.columns := by
    intro h
    obtain h | h := mem_columnsText h
    · cases h
    · exact absurd h.2 (by decide)
  have hfind : rfind 0x3A i.line = some (i.name.leftpad 6 0x20).length := rfind_append_name _ hcolon
  have hname : (((i.line.take (i.name.leftpad 6 0x20).length).dropWhile isBlank).rdropWhile
      isColumnBlank) = i.name := by
    rw [Interface.line, List.take_left, List.leftpad, List.dropWhile_append_of_pos]
    · rw [dropWhile_eq_self fun c hc => (i.not_blank hc).1,
        rdropWhile_eq_self fun c hc => (i.not_blank hc).2]
    · intro c hc
      rw [List.eq_of_mem_replicate hc]
      rfl
  have hfields : readFields 16 (i.line.drop ((i.name.leftpad 6 0x20).length + 1)) =
      .ok (i.stats.columns.map fun column => column.2.toNat, []) := by
    have hdrop : i.line.drop ((i.name.leftpad 6 0x20).length + 1) = columnsText i.stats.columns := by
      rw [Interface.line, List.drop_length_add_append]
      rfl
    rw [hdrop]
    exact readFields_columnsText i.stats.columns
  rw [parseProcNetDevLine, hfind]
  dsimp only
  rw [hname, if_neg i.name_ne, isValidUtf8_eq, ok_bind]
  by_cases hvalid : ValidUtf8 i.name
  · rw [if_pos hvalid, if_neg (by simp [hvalid]), hfields, ok_bind]
    cases indexOf i.name <;> rfl
  · simp [hvalid]

/-- The headings have no colon, and begin as the reader expects. -/
theorem headings_known : ∀ line ∈ headings, rfind 0x3A line = none ∧
    (ascii "Inter-|" <+: line.dropWhile isBlank ∨ ascii "face |" <+: line.dropWhile isBlank) ∧
    0x0A ∉ line := by
  decide +kernel

theorem parseProcNetDevLine_heading (indexOf : List UInt8 → Result ℕ) {line : List UInt8}
    (h : line ∈ headings) : parseProcNetDevLine indexOf line = .ok none := by
  obtain ⟨hfind, hhead, _⟩ := headings_known line h
  rw [parseProcNetDevLine, hfind]
  exact if_pos (.inr hhead)

theorem Interface.not_mem_line (i : Interface) : (0x0A : UInt8) ∉ i.line := by
  intro h
  rw [Interface.line, List.leftpad, List.append_assoc, List.mem_append, List.mem_append,
    List.mem_cons] at h
  obtain h | h | h | h := h
  · exact absurd (List.eq_of_mem_replicate h) (by decide)
  · exact absurd (i.permitted _ h).1 (by decide)
  · cases h
  · obtain h | h := mem_columnsText h
    · cases h
    · exact absurd h.1 (by decide)

theorem lines_procNetDev (interfaces : List Interface) :
    lines 0x0A (procNetDev interfaces) = headings ++ interfaces.map Interface.line := by
  have hlines : ∀ line ∈ headings ++ interfaces.map Interface.line, (0x0A : UInt8) ∉ line := by
    intro line hline
    obtain hline | hline := List.mem_append.mp hline
    · exact (headings_known line hline).2.2
    · obtain ⟨i, -, rfl⟩ := List.mem_map.mp hline
      exact i.not_mem_line
  exact lines_flatMap_sep hlines

/-- The record of an interface, as a line of it gives it. -/
def procRecord (indexOf : List UInt8 → Result ℕ) (i : Interface) : Result StatisticsRecord :=
  if ValidUtf8 i.name then (indexOf i.name).map i.record else fail .invalidEncoding

/-- The lines of the interfaces are read in order, up to the first that fails. -/
theorem mapM_lines (indexOf : List UInt8 → Result ℕ) (interfaces : List Interface) :
    (interfaces.map Interface.line).mapM (parseProcNetDevLine indexOf) =
      (interfaces.mapM (procRecord indexOf)).map fun records => records.map some := by
  induction interfaces with
  | nil => rfl
  | cons i interfaces ih =>
    have hline : parseProcNetDevLine indexOf i.line = (procRecord indexOf i).map some := by
      rw [parseProcNetDevLine_line, procRecord]
      split_ifs
      · cases indexOf i.name <;> rfl
      · rfl
    rw [List.map_cons, List.mapM_cons, List.mapM_cons, ih, hline]
    cases procRecord indexOf i with
    | error e => rfl
    | ok record => cases interfaces.mapM (procRecord indexOf) <;> rfl

theorem parseProcNetDev_procNetDev (indexOf : List UInt8 → Result ℕ) (interfaces : List Interface) :
    parseProcNetDev indexOf (procNetDev interfaces) = interfaces.mapM (procRecord indexOf) := by
  have hheadings : headings.mapM (parseProcNetDevLine indexOf) = .ok [none, none] := by
    have hall : ∀ line ∈ headings, parseProcNetDevLine indexOf line = .ok none :=
      fun line hline => parseProcNetDevLine_heading indexOf hline
    rw [headings, List.forall_mem_cons, List.forall_mem_singleton] at hall
    rw [headings, List.mapM_cons, hall.1, List.mapM_cons, hall.2]
    rfl
  rw [parseProcNetDev, lines_procNetDev, List.mapM_append, hheadings, mapM_lines, ok_bind]
  cases interfaces.mapM (procRecord indexOf) with
  | error e => rfl
  | ok records =>
    have hsome : ([none, none] ++ records.map some).filterMap id = records := by
      simp [List.filterMap_map]
    exact congrArg Except.ok hsome

end Lines

section Sysfs
variable {fs : FileSystem} {ifaceDir : Path} {s : LinkStats}

theorem Shows.read (h : Shows fs ifaceDir s) {attr : String × (LinkStats → UInt64)}
    (hattr : attr ∈ attributes) : readSysfsStatFile fs ifaceDir attr.1 = .ok (attr.2 s).toNat := by
  have hlength : (decimal (attr.2 s).toNat ++ [0x0A]).length ≤ 128 := by
    have hdigits : (decimal (attr.2 s).toNat).length ≤ 20 :=
      length_decimal_le (by decide) (lt_trans (attr.2 s).toNat_lt (by decide))
    rw [List.length_append, List.length_singleton]
    omega
  have htrim : trimLineEnd (decimal (attr.2 s).toNat ++ [0x0A]) = decimal (attr.2 s).toNat := by
    have hdigit : ∀ c ∈ decimal (attr.2 s).toNat, (c == 0x0A || c == 0x0D) = false := by
      intro c hc
      have hlow := (mem_decimal hc).1
      rw [Bool.or_eq_false_iff, beq_eq_false_iff_ne, beq_eq_false_iff_ne]
      constructor
      · rintro rfl
        exact absurd hlow (by decide)
      · rintro rfl
        exact absurd hlow (by decide)
    rw [trimLineEnd, rdropWhile_append_blanks (by simp), rdropWhile_eq_self hdigit]
  rw [readSysfsStatFile, readTextFile_content (h attr hattr) hlength, ok_bind, htrim,
    parseUint64Exact_decimal]

theorem addStatisticsCounters_eq (a b : UInt64) :
    addStatisticsCounters a.toNat b.toNat =
      if a.toNat + b.toNat < 2 ^ 64 then .ok (a + b).toNat else fail .valueTooLarge := by
  have ha := a.toNat_lt
  have hb := b.toNat_lt
  rw [addStatisticsCounters, UInt64.toNat_add, uint64Max]
  by_cases h : a.toNat + b.toNat < 2 ^ 64
  · rw [if_neg (by omega), if_pos h, Nat.mod_eq_of_lt h]
  · rw [if_pos (by omega), if_neg h]

theorem readOptionalSysfsStatFile_ok {attr : String} {value : ℕ}
    (h : readSysfsStatFile fs ifaceDir attr = .ok value) :
    readOptionalSysfsStatFile fs ifaceDir attr = .ok (some value) := by
  rw [readOptionalSysfsStatFile, h]

/-- The record of an interface, as its files give it. -/
def sysfsRecord (indexOf : List UInt8 → Result ℕ) (i : Interface) : Result StatisticsRecord := do
  let index ← indexOf i.name
  if i.stats.rxDropped.toNat + i.stats.rxMissedErrors.toNat < 2 ^ 64 then .ok (i.record index)
  else fail .valueTooLarge

theorem readSysfsStatistics_shows {baseDir : Path} {i : Interface}
    (h : Shows fs (baseDir ++ i.name) i.stats) (indexOf : List UInt8 → Result ℕ) :
    readSysfsStatistics fs indexOf i.name baseDir = sysfsRecord indexOf i := by
  have hread : ∀ attr ∈ attributes, readSysfsStatFile fs (baseDir ++ i.name) attr.1 =
      .ok (attr.2 i.stats).toNat := fun attr hattr => h.read hattr
  simp only [attributes, List.forall_mem_cons] at hread
  obtain ⟨hrxBytes, htxBytes, hrxPackets, htxPackets, hrxErrors, htxErrors, hrxDropped, hrxMissed,
    htxDropped, hmulticast, hcollisions, _⟩ := hread
  rw [readSysfsStatistics, sysfsRecord]
  cases indexOf i.name with
  | error e => rfl
  | ok index =>
    simp only [ok_bind, hrxBytes, htxBytes, hrxPackets, htxPackets, hrxErrors, htxErrors, hrxDropped,
      hrxMissed, addStatisticsCounters_eq]
    by_cases hfits : i.stats.rxDropped.toNat + i.stats.rxMissedErrors.toNat < 2 ^ 64
    · rw [if_pos hfits, if_pos hfits, ok_bind, htxDropped, ok_bind,
        readOptionalSysfsStatFile_ok hmulticast, ok_bind, readOptionalSysfsStatFile_ok hcollisions]
      rfl
    · rw [if_neg hfits, if_neg hfits]
      rfl

end Sysfs

section Agreement

/-- The lines of the kernel are read in order, each as the record of its interface, and so are
the files; but a name that is not valid fails in a line, and a sum that does not fit in a file. -/
theorem interfaces_read (indexOf : List UInt8 → Result ℕ) :
    (∀ interfaces : List Interface,
      parseProcNetDev indexOf (procNetDev interfaces) = interfaces.mapM (procRecord indexOf)) ∧
    ∀ (fs : FileSystem) (baseDir : Path) (i : Interface), Shows fs (baseDir ++ i.name) i.stats →
      readSysfsStatistics fs indexOf i.name baseDir = sysfsRecord indexOf i ∧
      (ValidUtf8 i.name → i.stats.rxDropped.toNat + i.stats.rxMissedErrors.toNat < 2 ^ 64 →
        readSysfsStatistics fs indexOf i.name baseDir = procRecord indexOf i) := by
  refine ⟨parseProcNetDev_procNetDev indexOf, ?_⟩
  intro fs baseDir i h
  refine ⟨readSysfsStatistics_shows h indexOf, ?_⟩
  intro hvalid hfits
  rw [readSysfsStatistics_shows h indexOf, sysfsRecord, procRecord, if_pos hvalid]
  simp only [if_pos hfits]
  rfl

/-- The files of one interface. -/
def sysfs (ifaceDir : Path) (s : LinkStats) : FileSystem := fun path =>
  match attributes.find? fun attr => statisticsPath ifaceDir attr.1 == path with
  | some attr => .content (decimal (attr.2 s).toNat ++ [0x0A])
  | none => .absent

theorem shows_sysfs (ifaceDir : Path) (s : LinkStats) : Shows (sysfs ifaceDir s) ifaceDir s := by
  have hsame (a b : String) :
      (statisticsPath ifaceDir a == statisticsPath ifaceDir b) = (ascii a == ascii b) := by
    rw [Bool.eq_iff_iff, beq_iff_eq, beq_iff_eq, statisticsPath, statisticsPath,
      List.append_cancel_left_eq]
  have hfind : ∀ attr ∈ attributes,
      attributes.find? (fun a => ascii a.1 == ascii attr.1) = some attr := by
    simp only [attributes, List.forall_mem_cons, List.not_mem_nil]
    exact ⟨rfl, rfl, rfl, rfl, rfl, rfl, rfl, rfl, rfl, rfl, rfl, fun _ h => h.elim⟩
  intro attr hattr
  rw [sysfs]
  simp only [hsame, hfind attr hattr]

/-- Counters that are zero but for those of dropped and missed packets. -/
def droppedStats (dropped missed : UInt64) : LinkStats where
  rxPackets := 0
  txPackets := 0
  rxBytes := 0
  txBytes := 0
  rxErrors := 0
  txErrors := 0
  rxDropped := dropped
  txDropped := 0
  multicast := 0
  collisions := 0
  rxLengthErrors := 0
  rxOverErrors := 0
  rxCrcErrors := 0
  rxFrameErrors := 0
  rxFifoErrors := 0
  rxMissedErrors := missed
  txAbortedErrors := 0
  txCarrierErrors := 0
  txFifoErrors := 0
  txHeartbeatErrors := 0
  txWindowErrors := 0
  rxCompressed := 0
  txCompressed := 0

/-- An interface with a colon in its name. -/
def colonInterface : Interface where
  name := ascii "vlan:blue"
  stats := droppedStats 5 7
  name_ne := by decide
  permitted := forall_of_all (by decide)

theorem colonInterface_read :
    readSysfsStatistics (sysfs (ascii "/sys/class/net/vlan:blue") colonInterface.stats)
        (fun _ => .ok 17) colonInterface.name (ascii "/sys/class/net/") =
      procRecord (fun _ => .ok 17) colonInterface :=
  ((interfaces_read fun _ => .ok 17).2 _ (ascii "/sys/class/net/") colonInterface
    (shows_sysfs _ _)).2 (validUtf8_ascii (forall_of_all (by decide))) (by decide)

/-- An interface with a byte in its name that is no text, and one with dropped and missed
packets that do not fit in a word together. -/
def byteInterface : Interface where
  name := [0xFF]
  stats := droppedStats 0 0
  name_ne := by decide
  permitted := forall_of_all (by decide)

def fullInterface : Interface where
  name := ascii "eth0"
  stats := droppedStats 0xFFFFFFFFFFFFFFFF 1
  name_ne := by decide
  permitted := forall_of_all (by decide)

/-- The first is no record in the lines; of the second, the lines give a sum of zero that the
files do not. -/
theorem names_and_sums_differ :
    parseProcNetDev (fun _ => .ok 1) (procNetDev [byteInterface]) = fail .invalidEncoding ∧
    (parseProcNetDev (fun _ => .ok 1) (procNetDev [fullInterface])).map
        (List.map StatisticsRecord.rxDropped) = .ok [0] ∧
    readSysfsStatistics (sysfs (ascii "/sys/class/net/eth0") fullInterface.stats)
        (fun _ => .ok 1) fullInterface.name (ascii "/sys/class/net/") = fail .valueTooLarge := by
  refine ⟨?_, ?_, ?_⟩
  · rw [parseProcNetDev_procNetDev]
    decide +kernel
  · rw [parseProcNetDev_procNetDev]
    decide +kernel
  · have hshows : Shows (sysfs (ascii "/sys/class/net/eth0") fullInterface.stats)
        (ascii "/sys/class/net/" ++ fullInterface.name) fullInterface.stats := shows_sysfs _ _
    rw [readSysfsStatistics_shows hshows]
    decide +kernel

end Agreement

end Syscape.Network
