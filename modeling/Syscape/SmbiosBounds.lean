import Syscape.SmbiosRounds

/-!
# The SMBIOS walk stays inside the table

For every byte list, every access of the walk lies inside it. A view is inside the table
when its formatted area and its strings are; the walk builds no other view.
-/
namespace Syscape.Smbios
open Checked StdSort

/-- The formatted area and the strings of a view lie inside the table. -/
structure StructureView.Inside (view : StructureView) (data : List UInt8) : Prop where
  formatted : view.formatted + view.formattedSize ≤ data.length
  strings : view.strings + view.stringsSize ≤ data.length

section Fields
variable {data : List UInt8} {view : StructureView}

theorem defined_readLeU16 {value : ℕ} (h : value + 2 ≤ data.length) :
    Defined (readLeU16 data value) := by
  apply (defined_readByte (by omega)).bind
  intro b0 _
  exact (defined_readByte (by omega)).bind fun _ _ => defined_ok _

theorem defined_readLeU32 {value : ℕ} (h : value + 4 ≤ data.length) :
    Defined (readLeU32 data value) := by
  apply (defined_readByte (by omega)).bind
  intro b0 _
  apply (defined_readByte (by omega)).bind
  intro b1 _
  apply (defined_readByte (by omega)).bind
  intro b2 _
  exact (defined_readByte (by omega)).bind fun _ _ => defined_ok _

theorem defined_stringEnd (h : view.Inside data) (i : ℕ) : Defined (stringEnd data view i) := by
  have hstrings := h.strings
  induction hn : view.stringsSize - i generalizing i with
  | zero =>
    rw [stringEnd, if_neg (by omega)]
    exact defined_ok _
  | succ n ih =>
    rw [stringEnd, if_pos (by omega)]
    apply (defined_readByte (by omega)).bind
    intro b _
    apply Defined.ite
    · intro _
      exact (ih (i + 1) (by omega)).bind fun _ _ => defined_ok _
    · intro _
      exact defined_ok _

/-- The loop over one string stops inside the strings, or does not move. -/
theorem stringEnd_le {i : ℕ} {stop : { j : ℕ // i ≤ j }} (h : stringEnd data view i = .ok stop)
    (hi : i ≤ view.stringsSize) : stop.1 ≤ view.stringsSize := by
  induction hn : view.stringsSize - i generalizing i with
  | zero =>
    rw [stringEnd, if_neg (by omega)] at h
    cases h
    exact hi
  | succ n ih =>
    rw [stringEnd, if_pos (by omega)] at h
    obtain ⟨b, -, h⟩ := bind_eq_ok.mp h
    split_ifs at h with hb
    · obtain ⟨j, hj, h⟩ := bind_eq_ok.mp h
      cases h
      have hle := ih hj (by omega) (by omega)
      exact hle
    · cases h
      exact hi

theorem defined_extractFrom (h : view.Inside data) (index : UInt8) (start : ℕ) (seen : UInt8) :
    Defined (extractFrom data view index start seen) := by
  have hstrings := h.strings
  induction hn : view.stringsSize - start using Nat.strongRecOn generalizing start seen with
  | ind n ih =>
    rw [extractFrom]
    by_cases hstart : start ≥ view.stringsSize
    · rw [dif_pos hstart]
      exact defined_failErrc _
    rw [dif_neg hstart]
    apply (defined_stringEnd h start).bind
    intro stop hstop
    have hle := stringEnd_le hstop (by omega)
    have hge := stop.2
    apply Defined.ite
    · intro _
      apply Defined.ite
      · intro _
        exact (defined_slice (by omega)).bind fun _ _ => defined_ok _
      · intro _
        exact defined_ok _
    · intro _
      apply Defined.ite
      · intro _
        exact defined_failErrc _
      · intro _
        exact ih _ (by omega) (stop.1 + 1) (seen + 1) rfl

theorem defined_storedString (h : view.Inside data) {offset : ℕ}
    (hoffset : offset < view.formattedSize) : Defined (storedString data view offset) := by
  have hformatted := h.formatted
  apply (defined_read (by omega)).bind
  intro index _
  apply Defined.ite
  · intro _
    exact defined_ok _
  · intro _
    exact defined_extractFrom h index 0 1

theorem defined_optionalString (h : view.Inside data) {minSize offset : ℕ}
    (hoffset : offset < minSize) : Defined (optionalString data view minSize offset) := by
  apply Defined.ite
  · intro hsize
    exact defined_storedString h (by omega)
  · intro _
    exact defined_ok _

theorem defined_deviceSize (h : view.Inside data) (hsize : 0x15 ≤ view.formattedSize) :
    Defined (deviceSize data view) := by
  have hformatted := h.formatted
  apply (defined_readLeU16 (by omega)).bind
  intro rawSize _
  refine Defined.ite (fun _ => defined_ok _) fun _ => ?_
  refine Defined.ite (fun _ => defined_ok _) fun _ => ?_
  refine Defined.ite (fun _ => ?_) fun _ => ?_
  · refine Defined.ite (fun _ => defined_failErrc _) fun hlong => ?_
    apply (defined_readLeU32 (by omega)).bind
    intro extSize _
    exact Defined.ite (fun _ => defined_failErrc _) fun _ => defined_ok _
  · refine Defined.ite (fun _ => ?_) fun _ => defined_ok _
    exact Defined.ite (fun _ => defined_failErrc _) fun _ => defined_ok _

theorem defined_deviceSpeed (h : view.Inside data) (unit : MemorySpeedUnit)
    {minSize offset extMinSize extOffset : ℕ} (hoffset : offset + 2 ≤ minSize)
    (hext : extOffset + 4 ≤ extMinSize) :
    Defined (deviceSpeed data view unit minSize offset extMinSize extOffset) := by
  have hformatted := h.formatted
  refine Defined.ite (fun hmin => ?_) fun _ => defined_ok _
  apply (defined_readLeU16 (by omega)).bind
  intro speed _
  refine Defined.ite (fun _ => defined_ok _) fun _ => ?_
  refine Defined.ite (fun hlong => ?_) fun _ => defined_ok _
  apply (defined_readLeU32 (by omega)).bind
  intro extSpeed _
  refine Defined.ite (fun _ => defined_failErrc _) fun _ => ?_
  exact Defined.ite (fun _ => defined_ok _) fun _ => defined_ok _

theorem defined_memoryDevice (h : view.Inside data) (unit : MemorySpeedUnit) :
    Defined (memoryDevice data view unit) := by
  have hformatted := h.formatted
  refine Defined.ite (fun _ => defined_failErrc _) fun hsize => ?_
  apply (defined_storedString h (by omega)).bind
  intro locator _
  apply (defined_storedString h (by omega)).bind
  intro bankLocator _
  apply (defined_deviceSize h (by omega)).bind
  intro size _
  apply (defined_readByte (by omega)).bind
  intro formFactor _
  apply (defined_readByte (by omega)).bind
  intro type _
  apply (defined_deviceSpeed h unit (by omega) (by omega)).bind
  intro speed _
  apply (defined_optionalString h (by omega)).bind
  intro manufacturer _
  apply (defined_optionalString h (by omega)).bind
  intro serialNumber _
  apply (defined_optionalString h (by omega)).bind
  intro partNumber _
  exact (defined_deviceSpeed h unit (by omega) (by omega)).bind fun _ _ => defined_ok _

end Fields

section Walk
variable {data : List UInt8}

theorem defined_scanDoubleNull (scan : ℕ) : Defined (scanDoubleNull data scan) := by
  induction hn : data.length - scan generalizing scan with
  | zero =>
    rw [scanDoubleNull, if_neg (by omega)]
    exact defined_ok _
  | succ n ih =>
    rw [scanDoubleNull]
    refine Defined.ite (fun hlt => ?_) fun _ => defined_ok _
    apply (defined_readByte (by omega)).bind
    intro b0 _
    refine Defined.ite (fun _ => ?_) fun _ => ih (scan + 1) (by omega)
    apply (defined_readByte (by omega)).bind
    intro b1 _
    exact Defined.ite (fun _ => defined_ok _) fun _ => ih (scan + 1) (by omega)

theorem scanDoubleNull_ge {scan stop : ℕ} (h : scanDoubleNull data scan = .ok stop) :
    scan ≤ stop := by
  induction hn : data.length - scan generalizing scan with
  | zero =>
    rw [scanDoubleNull, if_neg (by omega)] at h
    exact (Except.ok.inj h).le
  | succ n ih =>
    rw [scanDoubleNull] at h
    split_ifs at h with hlt
    · obtain ⟨b0, -, h⟩ := bind_eq_ok.mp h
      split_ifs at h with hb0
      · obtain ⟨b1, -, h⟩ := bind_eq_ok.mp h
        split_ifs at h with hb1
        · exact (Except.ok.inj h).le
        · exact Nat.le_of_succ_le (ih h (by omega))
      · exact Nat.le_of_succ_le (ih h (by omega))
    · exact (Except.ok.inj h).le

theorem defined_checkPadding (index : ℕ) : Defined (checkPadding data index) := by
  induction hn : data.length - index generalizing index with
  | zero =>
    rw [checkPadding, if_neg (by omega)]
    exact defined_ok _
  | succ n ih =>
    rw [checkPadding, if_pos (by omega)]
    apply (defined_readByte (by omega)).bind
    intro b _
    exact Defined.ite (fun _ => defined_failErrc _) fun _ => ih (index + 1) (by omega)

theorem defined_structureAt (cursor : ℕ) : Defined (structureAt data cursor) := by
  refine Defined.ite (fun _ => defined_failErrc _) fun hfour => ?_
  apply (defined_readByte (by omega)).bind
  intro type _
  apply (defined_readByte (by omega)).bind
  intro formattedSize _
  refine Defined.ite (fun _ => defined_failErrc _) fun _ => ?_
  apply (defined_scanDoubleNull _).bind
  intro scan _
  exact Defined.ite (fun _ => defined_failErrc _) fun _ => defined_ok _

/-- What a round reads of a structure is a view inside the table. -/
theorem inside_of_structureAt {cursor scan type : ℕ} {view : StructureView}
    (h : structureAt data cursor = .ok (view, type, scan)) : view.Inside data := by
  unfold structureAt at h
  split_ifs at h
  · cases h
  · obtain ⟨_, _, h⟩ := bind_eq_ok.mp h
    obtain ⟨formattedSize, _, h⟩ := bind_eq_ok.mp h
    split_ifs at h
    · cases h
    · obtain ⟨stop, hstop, h⟩ := bind_eq_ok.mp h
      have hge := scanDoubleNull_ge hstop
      have hmod := Nat.mod_le (stop - (cursor + formattedSize)) (2 ^ 32)
      split_ifs at h
      · cases h
      · cases h
        exact ⟨by simp only; omega, by simp only; omega⟩

theorem defined_appendDevice {view : StructureView} (h : view.Inside data)
    (unit : MemorySpeedUnit) (type : ℕ) (devices : List MemoryDevice) :
    Defined (appendDevice data view unit type devices) := by
  refine Defined.ite (fun _ => ?_) fun _ => defined_ok _
  exact (defined_memoryDevice h unit).bind fun _ _ => defined_ok _

theorem defined_parseStructures (unit : MemorySpeedUnit) (cursor : ℕ)
    (devices : List MemoryDevice) : Defined (parseStructures data unit cursor devices) := by
  induction hn : data.length - cursor using Nat.strongRecOn generalizing cursor devices with
  | ind n ih =>
    rw [parseStructures_eq]
    refine Defined.ite (fun hcursor => ?_) fun _ => defined_failErrc _
    apply (defined_structureAt cursor).bind
    rintro ⟨view, type, scan⟩ hat
    have hnext := lt_next_of_structureAt hat
    refine Defined.ite (fun _ => ?_) fun _ => ?_
    · refine Defined.ite (fun _ => defined_failErrc _) fun _ => ?_
      exact (defined_checkPadding _).bind fun _ _ => defined_ok _
    · apply (defined_appendDevice (inside_of_structureAt hat) unit type devices).bind
      intro devices' _
      exact ih _ (by omega) view.next devices' rfl

end Walk

/-- Every access of the parser lies inside the table. -/
theorem defined_parseSmbiosMemoryDevices (sorter : Sorter compareMemoryDevices)
    (data : List UInt8) (unit : MemorySpeedUnit) :
    Defined (parseSmbiosMemoryDevices sorter data unit) := by
  refine Defined.ite (fun _ => defined_failErrc _) fun _ => ?_
  exact (defined_parseStructures unit 0 []).bind fun _ _ => defined_ok _

end Syscape.Smbios
