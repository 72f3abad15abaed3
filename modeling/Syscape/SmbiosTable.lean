import Syscape.SmbiosStructure

/-!
# SMBIOS tables as they are written

A table is the encoding of structures, one after the other, then the structure that ends
it, then zeros. The walk finds every structure again, and it accepts the table exactly
when each structure of type 17 is well formed by itself. The size of a set of strings is
kept in 32 bits, so the sets have to be shorter than `2 ^ 32`.
-/
namespace Syscape.Smbios
open Checked StdSort

/-- The structure that ends a table: two bytes of handle and maybe strings. -/
structure EndOfTable where
  handle : Vector UInt8 2
  strings : StringSet

def EndOfTable.encode (e : EndOfTable) : List UInt8 :=
  127 :: 4 :: e.handle.toList ++ e.strings.area ++ [0, 0]

/-- A table with some bytes of padding. -/
def table (structures : List SmbiosStructure) (e : EndOfTable) (padding : ℕ) : List UInt8 :=
  structures.flatMap SmbiosStructure.encode ++ e.encode ++ List.replicate padding 0

section Walk
variable {data : List UInt8}

lemma scanDoubleNull_of_ne {i : ℕ} {c : UInt8} (hlt : i + 1 < data.length)
    (hread : (readByte data i : Result ℕ) = .ok c.toNat) (hc : c ≠ 0) :
    scanDoubleNull data i = scanDoubleNull data (i + 1) := by
  have hne : c.toNat ≠ 0 := fun h => hc (UInt8.toNat_inj.mp h)
  conv_lhs => rw [scanDoubleNull, if_pos hlt, hread, ok_bind, if_neg hne]

/-- The scan passes over bytes that are not zero. -/
theorem scanDoubleNull_string (str : List UInt8) {pre rest : List UInt8}
    (hdata : data = pre ++ str ++ rest) (hnull : 0 ∉ str) (hrest : 2 ≤ rest.length) :
    scanDoubleNull data pre.length = scanDoubleNull data (pre.length + str.length) := by
  induction str generalizing pre with
  | nil => rfl
  | cons c str ih =>
    have hread : (readByte data pre.length : Result ℕ) = .ok c.toNat := by
      rw [hdata, List.append_assoc, readByte_append_length, List.cons_append, readByte_cons_zero]
    have hlt : pre.length + 1 < data.length := by
      rw [hdata]
      simp
      omega
    have hc : c ≠ 0 := fun h => hnull (by simp [h])
    have hnext := @ih (pre ++ [c]) (by simp [hdata]) fun h => hnull (by simp [h])
    rw [List.length_append, List.length_singleton] at hnext
    rw [scanDoubleNull_of_ne hlt hread hc, hnext]
    congr 1
    simp
    omega

lemma scanDoubleNull_end {pre post : List UInt8} (hdata : data = pre ++ 0 :: 0 :: post) :
    scanDoubleNull data pre.length = .ok pre.length := by
  have h0 : (readByte data pre.length : Result ℕ) = .ok 0 := by
    rw [hdata, readByte_append_length, readByte_cons_zero]
    rfl
  have h1 : (readByte data (pre.length + 1) : Result ℕ) = .ok 0 := by
    rw [hdata, readByte_append_right, readByte_cons_succ, readByte_cons_zero]
    rfl
  rw [scanDoubleNull, if_pos (by simp [hdata]), h0, ok_bind, if_pos rfl, h1, ok_bind, if_pos rfl]

/-- The scan stops at the first double zero, which closes the strings. -/
theorem scanDoubleNull_strings (strings : List (List UInt8)) (hnonempty : ∀ s ∈ strings, s ≠ [])
    (hnull : ∀ s ∈ strings, 0 ∉ s) {pre post : List UInt8}
    (hdata : data = pre ++ [0].intercalate strings ++ 0 :: 0 :: post) :
    scanDoubleNull data pre.length = .ok (pre.length + ([0].intercalate strings).length) := by
  induction strings generalizing pre with
  | nil => exact scanDoubleNull_end (by simpa using hdata)
  | cons str strings ih =>
    by_cases hlast : strings = []
    · subst hlast
      rw [List.intercalate_singleton] at hdata ⊢
      have hend := scanDoubleNull_end hdata
      rw [List.length_append] at hend
      rw [scanDoubleNull_string str hdata (hnull str (by simp)) (by simp), hend]
    · rw [List.intercalate_cons_of_ne_nil hlast] at hdata ⊢
      -- one zero, and then the first byte of the next string
      obtain ⟨c, more, hmore, hc⟩ : ∃ c more, [0].intercalate strings = c :: more ∧ c ≠ 0 := by
        obtain ⟨next, others, rfl⟩ := List.exists_cons_of_ne_nil hlast
        obtain ⟨c, tail, rfl⟩ := List.exists_cons_of_ne_nil (hnonempty next (by simp))
        refine ⟨c, [0].intercalate (tail :: others), by simp, ?_⟩
        intro hzero
        exact hnull (c :: tail) (by simp) (by simp [hzero])
      have hdata' : data = pre ++ str ++ (0 :: c :: more ++ 0 :: 0 :: post) := by
        rw [hdata, hmore]
        simp
      have h0 : (readByte data (pre ++ str).length : Result ℕ) = .ok 0 := by
        rw [hdata', readByte_append_length]
        rfl
      have h1 : (readByte data ((pre ++ str).length + 1) : Result ℕ) = .ok c.toNat := by
        rw [hdata', readByte_append_right]
        rfl
      have hlt : (pre ++ str).length + 1 < data.length := by
        rw [hdata']
        simp
        omega
      have hne : c.toNat ≠ 0 := fun h => hc (UInt8.toNat_inj.mp h)
      have hzero : scanDoubleNull data (pre ++ str).length =
          scanDoubleNull data ((pre ++ str).length + 1) := by
        conv_lhs =>
          rw [scanDoubleNull, if_pos hlt, h0, ok_bind, if_pos rfl, h1, ok_bind, if_neg hne]
      have hrest := @ih (fun s hs => hnonempty s (by simp [hs]))
        (fun s hs => hnull s (by simp [hs])) (pre ++ str ++ [0]) (by rw [hdata]; simp)
      rw [scanDoubleNull_string str hdata' (hnull str (by simp)) (by simp), ← List.length_append,
        hzero]
      rw [List.length_append, List.length_singleton] at hrest
      rw [hrest]
      congr 1
      simp
      omega

/-- Zeros behind the end of a table are accepted. -/
theorem checkPadding_replicate (k : ℕ) {pre : List UInt8}
    (hdata : data = pre ++ List.replicate k 0) : checkPadding data pre.length = .ok () := by
  induction k generalizing pre with
  | zero => rw [checkPadding, if_neg (by simp [hdata])]
  | succ k ih =>
    have hread : (readByte data pre.length : Result ℕ) = .ok 0 := by
      rw [hdata, List.replicate_succ, readByte_append_length, readByte_cons_zero]
      rfl
    have hnext := @ih (pre ++ [0]) (by rw [hdata, List.replicate_succ]; simp)
    rw [List.length_append, List.length_singleton] at hnext
    rw [checkPadding, if_pos (by simp [hdata]), hread, ok_bind, if_neg (by simp), hnext]

variable {pre post : List UInt8}

/-- The header of a structure, and the end of its strings. The size of the strings is what
32 bits tell of it. -/
theorem structureAt_structure (s : SmbiosStructure) (hdata : data = pre ++ s.encode ++ post) :
    structureAt data pre.length =
      .ok (⟨pre.length, s.size, pre.length + s.size, s.strings.area.length % 2 ^ 32⟩,
        s.type.toNat, pre.length + s.size + s.strings.area.length) := by
  have hbody := s.body_ge
  have hbody' := s.body_le
  have hlen : data.length = pre.length + (s.size + s.strings.area.length + 2) + post.length := by
    rw [hdata]
    simp [SmbiosStructure.encode, s.length_formatted]
    omega
  have hsize : s.size = s.body.length + 2 := rfl
  have htype : (readByte data pre.length : Result ℕ) = .ok s.type.toNat := by
    rw [hdata, ← Nat.add_zero pre.length, readByte_formatted (by omega)]
    rfl
  have hformatted : (readByte data (pre.length + 1) : Result ℕ) = .ok s.size := by
    have hbyte : s.byteAt 1 = s.size := UInt8.toNat_ofNat_of_lt' (show s.size < 2 ^ 8 by omega)
    rw [hdata, readByte_formatted (by omega), hbyte]
  have hscan : scanDoubleNull data (pre.length + s.size) =
      .ok (pre.length + s.size + s.strings.area.length) := by
    have hstrings : data =
        (pre ++ s.formatted) ++ [0].intercalate s.strings.strings ++ 0 :: 0 :: post := by
      rw [hdata]
      simp [SmbiosStructure.encode, StringSet.area]
    have h := scanDoubleNull_strings _ s.strings.nonempty s.strings.no_null hstrings
    rwa [List.length_append, s.length_formatted] at h
  rw [structureAt, if_neg (by omega), htype, ok_bind, hformatted, ok_bind, if_neg (by omega),
    hscan, ok_bind, if_neg (by omega), Nat.add_sub_cancel_left]

/-- The header of the structure that ends a table. -/
theorem structureAt_end (e : EndOfTable) (hdata : data = pre ++ e.encode ++ post) :
    structureAt data pre.length =
      .ok (⟨pre.length, 4, pre.length + 4, e.strings.area.length % 2 ^ 32⟩, 127,
        pre.length + 4 + e.strings.area.length) := by
  have hlen : data.length = pre.length + (4 + e.strings.area.length + 2) + post.length := by
    rw [hdata]
    simp [EndOfTable.encode]
    omega
  have htype : (readByte data pre.length : Result ℕ) = .ok 127 := by
    rw [hdata, List.append_assoc, readByte_append_length]
    rfl
  have hformatted : (readByte data (pre.length + 1) : Result ℕ) = .ok 4 := by
    rw [hdata, List.append_assoc, readByte_append_right]
    rfl
  have hscan : scanDoubleNull data (pre.length + 4) =
      .ok (pre.length + 4 + e.strings.area.length) := by
    have hstrings : data = (pre ++ 127 :: 4 :: e.handle.toList) ++
        [0].intercalate e.strings.strings ++ 0 :: 0 :: post := by
      rw [hdata]
      simp [EndOfTable.encode, StringSet.area]
    have h := scanDoubleNull_strings _ e.strings.nonempty e.strings.no_null hstrings
    simpa [StringSet.area, Nat.add_assoc] using h
  rw [structureAt, if_neg (by omega), htype, ok_bind, hformatted, ok_bind, if_neg (by omega),
    hscan, ok_bind, if_neg (by omega), Nat.add_sub_cancel_left]

lemma lt_length_of_encode (s : SmbiosStructure) (hdata : data = pre ++ s.encode ++ post) :
    pre.length < data.length := by
  rw [hdata]
  simp [SmbiosStructure.encode]

lemma toNat_type_ne (s : SmbiosStructure) : s.type.toNat ≠ 127 :=
  fun h => s.type_ne (UInt8.toNat_inj.mp h)

/-- One structure: the walk goes on behind its strings, as far as 32 bits tell their size. -/
theorem parseStructures_structure (s : SmbiosStructure) (unit : MemorySpeedUnit)
    (devices : List MemoryDevice) (hdata : data = pre ++ s.encode ++ post) :
    parseStructures data unit pre.length devices =
      (appendDevice data
        ⟨pre.length, s.size, pre.length + s.size, s.strings.area.length % 2 ^ 32⟩ unit
        s.type.toNat devices >>=
      parseStructures data unit (pre.length + s.size + s.strings.area.length % 2 ^ 32 + 2)) := by
  rw [parseStructures_eq, if_pos (lt_length_of_encode s hdata), structureAt_structure s hdata,
    ok_bind]
  dsimp only
  rw [if_neg (toNat_type_ne s)]
  rfl

/-- The end of a table ends the walk. -/
theorem parseStructures_end (e : EndOfTable) (k : ℕ) (unit : MemorySpeedUnit)
    (devices : List MemoryDevice) (hdata : data = pre ++ e.encode ++ List.replicate k 0) :
    parseStructures data unit pre.length devices = .ok devices := by
  have hlt : pre.length < data.length := by
    rw [hdata]
    simp [EndOfTable.encode]
  have hpadding : checkPadding data (pre.length + 4 + e.strings.area.length + 2) = .ok () := by
    have h := checkPadding_replicate k hdata
    have hpos : (pre ++ e.encode).length = pre.length + 4 + e.strings.area.length + 2 := by
      simp [EndOfTable.encode]
      omega
    rwa [hpos] at h
  rw [parseStructures_eq, if_pos hlt, structureAt_end e hdata, ok_bind]
  dsimp only
  rw [if_pos rfl, if_neg (by simp), hpadding, ok_bind]

end Walk

section Run
variable (structures : List SmbiosStructure) (e : EndOfTable) (padding : ℕ)
  (unit : MemorySpeedUnit)

/-- The structures that describe memory devices. -/
def memoryStructures : List SmbiosStructure := structures.filter (·.type = 17)

theorem memoryStructures_cons_of_ne {s : SmbiosStructure} (h : s.type ≠ 17) :
    memoryStructures (s :: structures) = memoryStructures structures := by
  simp [memoryStructures, h]

theorem memoryStructures_cons_of_eq {s : SmbiosStructure} (h : s.type = 17) :
    memoryStructures (s :: structures) = s :: memoryStructures structures := by
  simp [memoryStructures, h]

/-- The walk over a table, from where some devices are found already. -/
theorem parseStructures_table (hsmall : ∀ s ∈ structures, s.strings.area.length < 2 ^ 32)
    {data pre : List UInt8} (hdata : data = pre ++ table structures e padding)
    (devices : List MemoryDevice) :
    parseStructures data unit pre.length devices =
      if ∀ s ∈ memoryStructures structures, WellFormed s then
        .ok (devices ++ (memoryStructures structures).map (deviceOf · unit))
      else fail .malformedData := by
  induction structures generalizing pre devices with
  | nil =>
    rw [parseStructures_end e padding unit devices (by rw [hdata]; simp [table])]
    simp [memoryStructures]
  | cons s structures ih =>
    have hdata' : data = pre ++ s.encode ++ table structures e padding := by
      rw [hdata]
      simp [table]
    have hpos : pre.length + s.size + s.strings.area.length + 2 = (pre ++ s.encode).length := by
      simp [SmbiosStructure.encode, s.length_formatted]
      omega
    have hnext := @ih (fun s hs => hsmall s (by simp [hs])) (pre ++ s.encode) hdata'
    rw [parseStructures_structure s unit devices hdata', Nat.mod_eq_of_lt (hsmall s (by simp)),
      hpos]
    unfold appendDevice
    by_cases htype : s.type = 17
    · have hnum : s.type.toNat = 17 := by
        rw [htype]
        rfl
      rw [if_pos hnum, memoryStructures_cons_of_eq structures htype, hdata', memoryDevice_eq,
        ite_bind, ← hdata']
      by_cases hwell : WellFormed s
      · rw [if_pos hwell, ok_bind, hnext]
        simp [hwell]
      · simp [hwell]
    · have hnum : s.type.toNat ≠ 17 := fun h => htype (UInt8.toNat_inj.mp h)
      rw [if_neg hnum, ok_bind, memoryStructures_cons_of_ne structures htype, hnext]

variable (sorter : Sorter compareMemoryDevices)

/-- The devices of a table are those of its structures of type 17, sorted. -/
theorem parseSmbiosMemoryDevices_table
    (hsmall : ∀ s ∈ structures, s.strings.area.length < 2 ^ 32) :
    parseSmbiosMemoryDevices sorter (table structures e padding) unit =
      if ∀ s ∈ memoryStructures structures, WellFormed s then
        .ok (sorter.sort ((memoryStructures structures).map (deviceOf · unit)))
      else fail .malformedData := by
  have hne : table structures e padding ≠ [] := by simp [table, EndOfTable.encode]
  have hrun := parseStructures_table structures e padding unit hsmall (List.nil_append _).symm []
  rw [List.length_nil, List.nil_append] at hrun
  rw [parseSmbiosMemoryDevices, if_neg hne, hrun, ite_bind]

/-- A table is accepted exactly when its structures of type 17 are well formed. There is
then one device for each of them, and no others. No input makes the walk leave the table. -/
theorem smbios_table_decodes (hsmall : ∀ s ∈ structures, s.strings.area.length < 2 ^ 32) :
    ((∃ devices, parseSmbiosMemoryDevices sorter (table structures e padding) unit = .ok devices) ↔
        ∀ s ∈ memoryStructures structures, WellFormed s) ∧
      (∀ devices, parseSmbiosMemoryDevices sorter (table structures e padding) unit = .ok devices →
        devices.Perm ((memoryStructures structures).map (deviceOf · unit)) ∧
          devices.Pairwise fun a b => compareMemoryDevices b a = false) ∧
      ∀ data, Defined (parseSmbiosMemoryDevices sorter data unit) := by
  rw [parseSmbiosMemoryDevices_table structures e padding unit sorter hsmall]
  refine ⟨?_, ?_, fun data => defined_parseSmbiosMemoryDevices sorter data unit⟩
  · by_cases hwell : ∀ s ∈ memoryStructures structures, WellFormed s
    · rw [if_pos hwell]
      exact ⟨fun _ => hwell, fun _ => ⟨_, rfl⟩⟩
    · rw [if_neg hwell]
      exact ⟨fun ⟨_, h⟩ => absurd h (fail_ne_ok _ _), fun h => absurd h hwell⟩
  · intro devices h
    by_cases hwell : ∀ s ∈ memoryStructures structures, WellFormed s
    · rw [if_pos hwell] at h
      obtain rfl := Except.ok.inj h
      exact ⟨sorter.perm _, sorter.sorted _⟩
    · rw [if_neg hwell] at h
      exact absurd h (fail_ne_ok _ _)

/-- A device with one string, its locator. -/
def plainDevice : SmbiosStructure where
  type := 17
  type_ne := by decide
  body := List.replicate 10 0 ++ [8, 0, 9, 0, 1, 0, 26, 0, 0]
  body_ge := by decide
  body_le := by decide
  strings := ⟨[[65, 48]], by decide, by decide, by decide⟩

/-- The end of a table without handle and strings. -/
def plainEnd : EndOfTable := ⟨⟨#[0, 0], rfl⟩, ⟨[], by decide, by decide, by decide⟩⟩

theorem plain_table_decodes :
    ∃ devices, parseSmbiosMemoryDevices (Sorter.merge strictWeak_compareMemoryDevices)
        (table [plainDevice] plainEnd 3) .megahertz = .ok devices ∧
      devices.Perm [deviceOf plainDevice .megahertz] := by
  have hwell : ∀ s ∈ memoryStructures [plainDevice], WellFormed s := by decide
  obtain ⟨haccepted, hdevices, -⟩ := smbios_table_decodes [plainDevice] plainEnd 3 .megahertz
    (Sorter.merge strictWeak_compareMemoryDevices) (by decide)
  obtain ⟨devices, hparse⟩ := haccepted.mpr hwell
  exact ⟨devices, hparse, (hdevices devices hparse).1⟩

end Run

section Wrap

/-- A structure with one string of a given length. -/
def longString (n : ℕ) (hn : 0 < n) : SmbiosStructure where
  type := 0
  type_ne := by decide
  body := [0, 0]
  body_ge := by decide
  body_le := by decide
  strings :=
    { strings := [List.replicate n 1]
      length_le := by simp
      nonempty := by simp; omega
      no_null := by simp }

/-- A size of the strings that is zero in 32 bits leads the walk into the string. -/
theorem parseStructures_wraps {n : ℕ} (hn : 4 ≤ n) (hwrap : n % 2 ^ 32 = 0)
    (unit : MemorySpeedUnit) :
    parseStructures (table [longString n (by omega)] plainEnd 0) unit 0 [] =
      fail .malformedData := by
  obtain ⟨m, rfl⟩ : ∃ m, n = m + 4 := ⟨n - 4, by omega⟩
  have hdata : table [longString (m + 4) (by omega)] plainEnd 0 =
      [] ++ (longString (m + 4) (by omega)).encode ++ table [] plainEnd 0 := by
    simp [table]
  have hlen : (longString (m + 4) (by omega)).strings.area.length = m + 4 := by
    simp [longString, StringSet.area]
  have hsize : (longString (m + 4) (by omega)).size = 4 := rfl
  have hstep := parseStructures_structure _ unit [] hdata
  rw [hlen, hwrap, hsize] at hstep
  -- the walk goes on at the third byte of the string
  have hread : (readByte (table [longString (m + 4) (by omega)] plainEnd 0) 6 : Result ℕ) =
      .ok 1 := rfl
  have hread' : (readByte (table [longString (m + 4) (by omega)] plainEnd 0) 7 : Result ℕ) =
      .ok 1 := rfl
  have hlong : 10 ≤ (table [longString (m + 4) (by omega)] plainEnd 0).length := by
    rw [hdata]
    simp [SmbiosStructure.encode, SmbiosStructure.length_formatted, hsize, hlen]
    omega
  rw [List.length_nil] at hstep
  rw [hstep]
  change parseStructures _ unit 6 [] = _
  rw [parseStructures, dif_pos (by omega), if_neg (by omega), hread, ok_bind, hread', ok_bind,
    if_pos (by omega)]

theorem parseSmbiosMemoryDevices_wraps (sorter : Sorter compareMemoryDevices) {n : ℕ} (hn : 4 ≤ n)
    (hwrap : n % 2 ^ 32 = 0) (unit : MemorySpeedUnit) :
    ¬ ((∃ devices, parseSmbiosMemoryDevices sorter
        (table [longString n (by omega)] plainEnd 0) unit = .ok devices) ↔
      ∀ s ∈ memoryStructures [longString n (by omega)], WellFormed s) := by
  have hnone : memoryStructures [longString n (by omega)] = [] := rfl
  have hne : table [longString n (by omega)] plainEnd 0 ≠ [] := by
    simp [table, EndOfTable.encode]
  rw [parseSmbiosMemoryDevices, if_neg hne, parseStructures_wraps hn hwrap, hnone]
  simp

/-- A string of `2 ^ 32` bytes makes a table without memory devices malformed. -/
theorem long_string_rejected :
    ¬ ((∃ devices, parseSmbiosMemoryDevices (Sorter.merge strictWeak_compareMemoryDevices)
        (table [longString (2 ^ 32) (by omega)] plainEnd 0) .unknown = .ok devices) ↔
      ∀ s ∈ memoryStructures [longString (2 ^ 32) (by omega)], WellFormed s) :=
  parseSmbiosMemoryDevices_wraps _ (by omega) (by omega) .unknown

end Wrap

end Syscape.Smbios
