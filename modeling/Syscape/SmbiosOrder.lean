import Syscape.SmbiosTable

/-!
# The order of SMBIOS structures

The devices of a table are sorted by a comparison, but it does not look at all fields of a
device. Two devices that differ only in the other fields come out in the order of the
table, or in any order that the sort likes.
-/
namespace Syscape.Smbios
open Checked StdSort

section Fields

/-- The fields that the comparison looks at. -/
structure ComparedFields where
  locator : List UInt8
  bankLocator : Option (List UInt8)
  state : MemoryDeviceState
  sizeBytes : Option ℕ
  manufacturer : Option (List UInt8)
  serialNumber : Option (List UInt8)
  partNumber : Option (List UInt8)
  deriving DecidableEq

/-- The fields that it leaves out. -/
structure OtherFields where
  formFactor : MemoryFormFactor
  type : MemoryType
  speed : Option MemorySpeed
  configuredSpeed : Option MemorySpeed
  deriving DecidableEq

def comparedFields (d : MemoryDevice) : ComparedFields :=
  ⟨d.locator, d.bankLocator, d.state, d.sizeBytes, d.manufacturer, d.serialNumber, d.partNumber⟩

def otherFields (d : MemoryDevice) : OtherFields :=
  ⟨d.formFactor, d.type, d.speed, d.configuredSpeed⟩

theorem device_eq_iff {a b : MemoryDevice} :
    a = b ↔ comparedFields a = comparedFields b ∧ otherFields a = otherFields b := by
  constructor
  · rintro rfl
    exact ⟨rfl, rfl⟩
  · rintro ⟨hcompared, hother⟩
    cases a
    cases b
    simp_all [comparedFields, otherFields]

/-- Devices tie exactly if they agree in the compared fields. -/
theorem tie_iff {a b : MemoryDevice} :
    Tie compareMemoryDevices a b ↔ comparedFields a = comparedFields b := by
  have hpart : Tie (fun a b : MemoryDevice => optionLess bytesLess a.partNumber b.partNumber) a b ↔
      a.partNumber = b.partNumber := strictTotal_optionBytes.tie_iff
  unfold compareMemoryDevices
  rw [tie_fieldThen_iff strictTotal_bytesLess, tie_fieldThen_iff strictTotal_optionBytes,
    tie_fieldThen_iff strictTotal_state, tie_fieldThen_iff strictTotal_size,
    tie_fieldThen_iff strictTotal_optionBytes, tie_fieldThen_iff strictTotal_optionBytes, hpart]
  simp only [comparedFields, ComparedFields.mk.injEq]

end Fields

section Order
variable (structures : List SmbiosStructure) (unit : MemorySpeedUnit)

/-- Tables of the same structures in any order, however they end, are parsed to the same
result, whatever the sort is. -/
def OrderIndependent : Prop :=
  ∀ (sorter : Sorter compareMemoryDevices) (structures' : List SmbiosStructure),
    structures.Perm structures' → ∀ (e e' : EndOfTable) (padding padding' : ℕ),
      parseSmbiosMemoryDevices sorter (table structures e padding) unit =
        parseSmbiosMemoryDevices sorter (table structures' e' padding') unit

/-- Devices that agree in the compared fields agree in the others. -/
def TiesAgree : Prop :=
  ∀ s ∈ memoryStructures structures, ∀ t ∈ memoryStructures structures,
    comparedFields (deviceOf s unit) = comparedFields (deviceOf t unit) →
      otherFields (deviceOf s unit) = otherFields (deviceOf t unit)

instance : Decidable (TiesAgree structures unit) :=
  inferInstanceAs (Decidable (∀ s ∈ memoryStructures structures,
    ∀ t ∈ memoryStructures structures, _ → _))

variable {structures unit}

theorem perm_memoryStructures {structures' : List SmbiosStructure}
    (h : structures.Perm structures') :
    (memoryStructures structures).Perm (memoryStructures structures') := h.filter _

/-- Devices that agree where they tie leave the sort no choice. -/
theorem orderIndependent_of_tiesAgree
    (hsmall : ∀ s ∈ structures, s.strings.area.length < 2 ^ 32)
    (h : (∀ s ∈ memoryStructures structures, WellFormed s) → TiesAgree structures unit) :
    OrderIndependent structures unit := by
  intro sorter structures' hperm e e' padding padding'
  have hsmall' : ∀ s ∈ structures', s.strings.area.length < 2 ^ 32 :=
    fun s hs => hsmall s (hperm.mem_iff.mpr hs)
  have hmemory := perm_memoryStructures hperm
  have hwell : (∀ s ∈ memoryStructures structures', WellFormed s) ↔
      ∀ s ∈ memoryStructures structures, WellFormed s := by
    simp only [hmemory.mem_iff]
  rw [parseSmbiosMemoryDevices_table structures e padding unit sorter hsmall,
    parseSmbiosMemoryDevices_table structures' e' padding' unit sorter hsmall']
  simp only [hwell]
  split_ifs with hformed
  · congr 1
    apply sorter.sort_eq sorter (hmemory.map _)
    intro a ha b hb htie
    obtain ⟨s, hs, rfl⟩ := List.mem_map.mp ha
    obtain ⟨t, ht, rfl⟩ := List.mem_map.mp hb
    have hcompared := tie_iff.mp htie
    exact device_eq_iff.mpr ⟨hcompared, h hformed s hs t ht hcompared⟩
  · rfl

/-- Where two devices tie and differ, a stable sort gives them in the order of the table. -/
theorem tiesAgree_of_orderIndependent
    (hsmall : ∀ s ∈ structures, s.strings.area.length < 2 ^ 32)
    (hwell : ∀ s ∈ memoryStructures structures, WellFormed s)
    (h : OrderIndependent structures unit) : TiesAgree structures unit := by
  intro s hs t ht hcompared
  by_contra hother
  have hne : s ≠ t := by
    rintro rfl
    exact hother rfl
  obtain ⟨hs, hstype⟩ := List.mem_filter.mp hs
  obtain ⟨ht, httype⟩ := List.mem_filter.mp ht
  -- the same structures, with the two in front in either order
  obtain ⟨rest, hrest⟩ := exists_perm_cons_cons hs ht hne
  have hswap : structures.Perm (t :: s :: rest) := hrest.trans (List.Perm.swap t s rest)
  have hresult : ∀ {order : List SmbiosStructure}, structures.Perm order →
      parseSmbiosMemoryDevices (Sorter.merge strictWeak_compareMemoryDevices)
        (table order plainEnd 0) unit =
      .ok ((Sorter.merge strictWeak_compareMemoryDevices).sort
        ((memoryStructures order).map (deviceOf · unit))) := by
    intro order horder
    rw [parseSmbiosMemoryDevices_table order plainEnd 0 unit _
      fun s hs => hsmall s (horder.mem_iff.mpr hs), if_pos]
    intro s hs
    exact hwell s ((perm_memoryStructures horder).mem_iff.mpr hs)
  have hfirst := h (Sorter.merge strictWeak_compareMemoryDevices) _ hrest plainEnd plainEnd 0 0
  have hsecond := h (Sorter.merge strictWeak_compareMemoryDevices) _ hswap plainEnd plainEnd 0 0
  rw [hfirst, hresult hrest, hresult hswap] at hsecond
  have hsorts := Except.ok.inj hsecond
  rw [memoryStructures_cons_of_eq _ (by simpa using hstype),
    memoryStructures_cons_of_eq _ (by simpa using httype),
    memoryStructures_cons_of_eq _ (by simpa using httype),
    memoryStructures_cons_of_eq _ (by simpa using hstype)] at hsorts
  simp only [List.map_cons] at hsorts
  exact hother (congrArg otherFields
    (Sorter.eq_of_merge_swap strictWeak_compareMemoryDevices (tie_iff.mpr hcompared) hsorts))

/-- The result does not depend on the order of the structures exactly if the devices that
the comparison cannot tell apart are equal in the fields that it leaves out. (A table with
a structure of type 17 that is not well formed is refused in every order.) -/
theorem memory_devices_order_iff (unit : MemorySpeedUnit) {structures : List SmbiosStructure}
    (hsmall : ∀ s ∈ structures, s.strings.area.length < 2 ^ 32) :
    OrderIndependent structures unit ↔
      ((∀ s ∈ memoryStructures structures, WellFormed s) → TiesAgree structures unit) :=
  ⟨fun h hwell => tiesAgree_of_orderIndependent hsmall hwell h,
    orderIndependent_of_tiesAgree hsmall⟩

/-- The device of another memory type in a socket of the same name. -/
def otherPlainDevice : SmbiosStructure :=
  { plainDevice with
    body := List.replicate 10 0 ++ [8, 0, 9, 0, 1, 0, 24, 0, 0]
    body_ge := by decide
    body_le := by decide }

/-- The device of another memory type in a socket of another name. -/
def socketDevice : SmbiosStructure :=
  { otherPlainDevice with strings := ⟨[[66, 48]], by decide, by decide, by decide⟩ }

/-- Devices of different sockets come out in one order. -/
theorem plain_devices_order :
    OrderIndependent [plainDevice, socketDevice, plainDevice] .megahertz ∧
      deviceOf plainDevice .megahertz ≠ deviceOf socketDevice .megahertz :=
  ⟨(memory_devices_order_iff .megahertz (by decide)).mpr fun _ => by decide, by decide⟩

/-- Two modules that differ in their memory type only come out in the order of the table. -/
theorem plain_devices_depend_on_order :
    ¬ ∀ structures : List SmbiosStructure,
      (∀ s ∈ structures, s.strings.area.length < 2 ^ 32) →
      (∀ s ∈ memoryStructures structures, WellFormed s) →
        OrderIndependent structures .megahertz := by
  intro h
  have hsmall : ∀ s ∈ [plainDevice, otherPlainDevice], s.strings.area.length < 2 ^ 32 := by decide
  have hwell : ∀ s ∈ memoryStructures [plainDevice, otherPlainDevice], WellFormed s := by decide
  have hagree := tiesAgree_of_orderIndependent hsmall hwell (h _ hsmall hwell)
  exact absurd hagree (by decide)

end Order

end Syscape.Smbios
