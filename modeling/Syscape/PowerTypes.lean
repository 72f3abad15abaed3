import Syscape.Power
import Mathlib.Data.List.Infix

/-!
# Supply types that the queries refuse

A query refuses a supply type when every run that comes to a supply of that type ends there
as malformed. The two classifiers of a type file are compared by what the queries refuse.
-/
namespace Syscape.Power
open Checked Text LinuxFile StdSort

/-- The type files whose text is one of these have a known supply type. -/
def knownTypes : List (List UInt8) :=
  [ascii "Battery", ascii "Mains", ascii "UPS", ascii "USB", ascii "Wireless", ascii "Unknown"]

/-- A run of the query that comes to a supply with this text in its type file ends there as
malformed, whatever else the system holds. -/
def RefusesType {α : Type} (query : FileSystem → Supplies → Result α) (text : List UInt8) :
    Prop :=
  ∀ (fs : FileSystem) (before after : List (List UInt8)) (name : List UInt8)
    (readError : Option ℤ), name.head? ≠ some 0x2E →
    fs (attributePath name (ascii "type")) = .content text →
    (∃ out, query fs (.listing before none) = .ok out) →
    query fs (.listing (before ++ name :: after) readError) = fail .malformedData

section Walking
variable {σ : Type} {visit : σ → List UInt8 → Result σ} {s s' : σ}

/-- A visit that fails ends the walk. -/
theorem walkSupplies_fail {before after : List (List UInt8)} {name : List UInt8}
    {readError : Option ℤ} {e : Errc} (hname : name.head? ≠ some 0x2E)
    (hbefore : walkSupplies (.listing before none) visit s = .ok s')
    (hvisit : visit s' name = fail e) :
    walkSupplies (.listing (before ++ name :: after) readError) visit s = fail e := by
  have hfold : (before.filter fun name => name.head? ≠ some 0x2E).foldlM visit s = .ok s' := by
    obtain ⟨s₁, hs₁, hok⟩ := bind_eq_ok.mp hbefore
    cases hok
    exact hs₁
  have hcons : (name :: after).filter (fun name => name.head? ≠ some 0x2E) =
      name :: after.filter fun name => name.head? ≠ some 0x2E := by
    rw [List.filter_cons_of_pos (by simpa using hname)]
  rw [walkSupplies, List.filter_append, hcons, List.foldlM_append, hfold, ok_bind,
    List.foldlM_cons, hvisit]
  rfl

/-- A walk to a single supply. -/
theorem walkSupplies_single {name : List UInt8} (hname : name.head? ≠ some 0x2E) :
    walkSupplies (.listing [name] none) visit s = visit s name := by
  have hfilter : [name].filter (fun name => name.head? ≠ some 0x2E) = [name] := by
    rw [List.filter_cons_of_pos (by simpa using hname), List.filter_nil]
  rw [walkSupplies, hfilter, List.foldlM_cons]
  cases visit s name <;> rfl

end Walking

section TypeFile
variable {fs : FileSystem} {name text : List UInt8}

theorem readOptionalAttribute_content {attr : List UInt8}
    (h : fs (attributePath name attr) = .content text) (hlength : text.length ≤ 1024 * 1024) :
    readOptionalAttribute fs name attr = .ok (some text) := by
  rw [readOptionalAttribute, readTextFile_content h hlength]

theorem classifySupplyType_eq_fail :
    classifySupplyType text = fail .malformedData ↔ trimAttribute text ∉ knownTypes := by
  simp only [classifySupplyType, knownTypes, List.mem_cons, List.not_mem_nil, or_false]
  split_ifs with h1 h2
  · simp [h1]
  · simp [h2]
  · simp [h1, h2]

/-- A type is a battery, an external source, or refused as malformed. -/
theorem classifySupplyType_cases (text : List UInt8) :
    (∃ kind, classifySupplyType text = .ok kind) ∨
      classifySupplyType text = fail .malformedData := by
  simp only [classifySupplyType]
  split_ifs
  · exact .inl ⟨_, rfl⟩
  · exact .inl ⟨_, rfl⟩
  · exact .inr rfl

theorem optionalType_fail (h : fs (attributePath name (ascii "type")) = .content text)
    (hlength : text.length ≤ 1024 * 1024) (htype : trimAttribute text ∉ knownTypes) :
    optionalAttribute fs name "type" classifySupplyType = fail .malformedData := by
  rw [optionalAttribute, readOptionalAttribute_content h hlength, ok_bind]
  dsimp only
  rw [classifySupplyType_eq_fail.mpr htype, fail_bind]

/-- The system with one supply, which has nothing but a type file. -/
def onlyType (name text : List UInt8) : FileSystem := fun path =>
  if path = attributePath name (ascii "type") then .content text else .absent

theorem onlyType_type : onlyType name text (attributePath name (ascii "type")) = .content text :=
  if_pos rfl

theorem readOptionalAttribute_onlyType {attr : List UInt8} (h : attr ≠ ascii "type") :
    readOptionalAttribute (onlyType name text) name attr = .ok none := by
  have hpath : attributePath name attr ≠ attributePath name (ascii "type") := by
    simpa [attributePath] using h
  have habsent : onlyType name text (attributePath name attr) = .absent := if_neg hpath
  rw [readOptionalAttribute, readTextFile, habsent]
  rfl

theorem optionalAttribute_onlyType {α : Type} {parse : List UInt8 → Result α} {attr : String}
    (h : ascii attr ≠ ascii "type") :
    optionalAttribute (onlyType name text) name attr parse = .ok none := by
  rw [optionalAttribute, readOptionalAttribute_onlyType h, ok_bind]

theorem readOptionalAttribute_tooLarge (h : 1024 * 1024 < text.length) :
    readOptionalAttribute (onlyType name text) name (ascii "type") = fail .valueTooLarge := by
  rw [readOptionalAttribute, readTextFile, onlyType_type]
  dsimp only
  rw [if_pos h]
  rfl

theorem optionalType_onlyType (hlength : text.length ≤ 1024 * 1024) {kind : SupplyClass}
    (h : classifySupplyType text = .ok kind) :
    optionalAttribute (onlyType name text) name "type" classifySupplyType = .ok (some kind) := by
  rw [optionalAttribute, readOptionalAttribute_content onlyType_type hlength, ok_bind]
  dsimp only
  rw [h, ok_bind]

end TypeFile

section Refusals
variable {text : List UInt8}

/-- The name of a supply for which a refusal is observed. -/
def loneSupply : List UInt8 := ascii "AC"

theorem loneSupply_visible : loneSupply.head? ≠ some 0x2E := by decide

/-- A query that refuses a type refuses it where nothing but the type is known. -/
theorem RefusesType.single {α : Type} {query : FileSystem → Supplies → Result α}
    (h : RefusesType query text)
    (hnone : ∃ out, query (onlyType loneSupply text) (.listing [] none) = .ok out) :
    query (onlyType loneSupply text) (.listing [loneSupply] none) = fail .malformedData :=
  h _ [] [] _ none loneSupply_visible onlyType_type hnone

theorem collectBattery_fail {fs : FileSystem} {name : List UInt8}
    (h : fs (attributePath name (ascii "type")) = .content text)
    (hlength : text.length ≤ 1024 * 1024) (htype : trimAttribute text ∉ knownTypes) :
    collectBattery fs name = fail .malformedData := by
  rw [collectBattery, optionalType_fail h hlength htype, fail_bind]

/-- A supply of a known type that has no other attribute is a battery without a value, or
no battery. -/
theorem collectBattery_onlyType (hlength : text.length ≤ 1024 * 1024) {kind : SupplyClass}
    (h : classifySupplyType text = .ok kind) :
    ∃ snapshot, collectBattery (onlyType loneSupply text) loneSupply = .ok snapshot := by
  rw [collectBattery, optionalType_onlyType hlength h, ok_bind]
  cases kind with
  | externalSource => exact ⟨none, rfl⟩
  | battery =>
    have habsent {α : Type} (parse : List UInt8 → Result α) (attr : String)
        (hattr : ascii attr ≠ ascii "type") :
        optionalAttribute (onlyType loneSupply text) loneSupply attr parse = .ok none :=
      optionalAttribute_onlyType hattr
    have hpower : powerRate (onlyType loneSupply text) loneSupply .unknown 0 = .ok none := by
      rw [powerRate, readOptionalAttribute_onlyType (by decide), ok_bind]
      dsimp only
      rw [readOptionalAttribute_onlyType (by decide), ok_bind]
    simp (disch := decide) only [optionalMilli, optionalText, habsent, ok_bind, Option.getD_none,
      hpower]
    exact ⟨_, rfl⟩

theorem batteries_refusesType (sorter : Sorter (identifierLess BatteryRecord.identifier))
    (text : List UInt8) :
    RefusesType (batteries sorter) text ↔
      text.length ≤ 1024 * 1024 ∧ trimAttribute text ∉ knownTypes := by
  constructor
  · intro h
    have hfail := h.single ⟨_, rfl⟩
    rw [batteries, walkSupplies_single loneSupply_visible] at hfail
    by_cases hlength : text.length ≤ 1024 * 1024
    · refine ⟨hlength, ?_⟩
      rcases classifySupplyType_cases text with ⟨kind, hkind⟩ | hmalformed
      · obtain ⟨snapshot, hsnapshot⟩ := collectBattery_onlyType hlength hkind
        rw [hsnapshot] at hfail
        cases hfail
      · exact classifySupplyType_eq_fail.mp hmalformed
    · rw [collectBattery, optionalAttribute, readOptionalAttribute_tooLarge (by omega)] at hfail
      cases hfail
  · rintro ⟨hlength, htype⟩ fs before after name readError hname hcontent ⟨out, hout⟩
    obtain ⟨records, hrecords, -⟩ := bind_eq_ok.mp hout
    rw [batteries, walkSupplies_fail hname hrecords
      (by rw [collectBattery_fail hcontent hlength htype, fail_bind]), fail_bind]

theorem externalPowerOnline_refusesType (text : List UInt8) :
    RefusesType externalPowerOnline text ↔
      text.length ≤ 1024 * 1024 ∧ trimAttribute text ∉ knownTypes := by
  constructor
  · intro h
    have hfail := h.single ⟨.noEvidence, rfl⟩
    rw [externalPowerOnline, walkSupplies_single loneSupply_visible] at hfail
    by_cases hlength : text.length ≤ 1024 * 1024
    · refine ⟨hlength, ?_⟩
      rcases classifySupplyType_cases text with ⟨kind, hkind⟩ | hmalformed
      · rw [considerSupply, optionalType_onlyType hlength hkind, ok_bind] at hfail
        -- the one attribute that is read next does not exist
        cases kind with
        | externalSource =>
          dsimp only at hfail
          rw [optionalAttribute_onlyType (by decide), ok_bind] at hfail
          cases hfail
        | battery =>
          dsimp only at hfail
          rw [optionalAttribute_onlyType (by decide), ok_bind] at hfail
          cases hfail
      · exact classifySupplyType_eq_fail.mp hmalformed
    · rw [considerSupply, optionalAttribute, readOptionalAttribute_tooLarge (by omega)] at hfail
      cases hfail
  · rintro ⟨hlength, htype⟩ fs before after name readError hname hcontent ⟨out, hout⟩
    obtain ⟨seen, hseen, -⟩ := bind_eq_ok.mp hout
    rw [externalPowerOnline, walkSupplies_fail hname hseen
      (by rw [considerSupply, optionalType_fail hcontent hlength htype, fail_bind]), fail_bind]

theorem sourceType_onlyType (text : List UInt8) {typeStr : List UInt8} (h : typeStr ≠ []) :
    ∃ type, sourceType (onlyType loneSupply text) loneSupply typeStr = .ok type := by
  have husb {α : Type} (parse : List UInt8 → Result α) :
      optionalAttribute (onlyType loneSupply text) loneSupply "usb_type" parse = .ok none :=
    optionalAttribute_onlyType (by decide)
  unfold sourceType
  simp only [husb, ok_bind]
  split_ifs
  all_goals exact ⟨_, rfl⟩

/-- The list of the other supplies refuses an empty type and no other. -/
theorem powerSources_refusesType (sorter : Sorter (identifierLess PowerSourceRecord.identifier))
    (text : List UInt8) :
    RefusesType (powerSources sorter) text ↔
      text.length ≤ 1024 * 1024 ∧ trimAttribute text = [] := by
  constructor
  · intro h
    have hfail := h.single ⟨_, rfl⟩
    rw [powerSources, walkSupplies_single loneSupply_visible, collectPowerSource] at hfail
    by_cases hlength : text.length ≤ 1024 * 1024
    · refine ⟨hlength, ?_⟩
      by_contra hne
      obtain ⟨type, htype⟩ := sourceType_onlyType text hne
      have habsent {α : Type} (parse : List UInt8 → Result α) (attr : String)
          (hattr : ascii attr ≠ ascii "type") :
          optionalAttribute (onlyType loneSupply text) loneSupply attr parse = .ok none :=
        optionalAttribute_onlyType hattr
      rw [readOptionalAttribute_content onlyType_type hlength, ok_bind] at hfail
      simp (disch := decide) only [htype, optionalMilli, optionalText, habsent, ok_bind]
        at hfail
      split_ifs at hfail <;> cases hfail
    · rw [readOptionalAttribute_tooLarge (by omega)] at hfail
      cases hfail
  · rintro ⟨hlength, htype⟩ fs before after name readError hname hcontent ⟨out, hout⟩
    obtain ⟨records, hrecords, -⟩ := bind_eq_ok.mp hout
    have hcollect : collectPowerSource fs name = fail .malformedData := by
      rw [collectPowerSource, readOptionalAttribute_content hcontent hlength, ok_bind]
      dsimp only
      rw [htype]
      rfl
    rw [powerSources, walkSupplies_fail hname hrecords (by rw [hcollect, fail_bind]), fail_bind]

/-- Nor does the parser of the types of the other supplies refuse more, but for batteries. -/
theorem parsePowerSourceType_refuses (text : List UInt8) :
    parsePowerSourceType text = fail .malformedData ↔
      trimAttribute text = [] ∨ trimAttribute text = ascii "Battery" := by
  constructor
  · intro h
    by_contra hnot
    rw [not_or] at hnot
    simp only [parsePowerSourceType, if_neg hnot.2, if_pos hnot.1] at h
    -- every text that is left has a type
    split_ifs at h <;> cases h
  · intro h
    unfold parsePowerSourceType
    obtain h | h := h
    · rw [h]
      decide
    · rw [h]
      decide

end Refusals

/-- The three queries agree about the type of a supply just where that is a known type, is
blank, or stands in a file that none of them reads. -/
theorem supply_types_agree_iff (text : List UInt8)
    (sortBatteries : Sorter (identifierLess BatteryRecord.identifier))
    (sortSources : Sorter (identifierLess PowerSourceRecord.identifier)) :
    (RefusesType (batteries sortBatteries) text ↔ RefusesType (powerSources sortSources) text) ∧
        (RefusesType (batteries sortBatteries) text ↔ RefusesType externalPowerOnline text) ↔
      trimAttribute text ∈ knownTypes ∨ trimAttribute text = [] ∨ 1024 * 1024 < text.length := by
  rw [batteries_refusesType, powerSources_refusesType, externalPowerOnline_refusesType]
  by_cases hlength : text.length ≤ 1024 * 1024
  · by_cases hnil : trimAttribute text = []
    · have hblank : ([] : List UInt8) ∉ knownTypes := by decide
      simp [hnil, hblank]
    · by_cases hknown : trimAttribute text ∈ knownTypes
      · simp [hnil, hknown]
      · simp [hlength, hnil, hknown]
  · simp [hlength]
    omega

/-- Identifiers are compared as the standard sort asks. -/
theorem strictWeak_identifierLess {α : Type} (identifier : α → List UInt8) :
    StrictWeak (identifierLess identifier) := by
  have htotal := StrictTotal.of_injective (β := List ℕ) Function.injective_id
  convert htotal.on fun record => (identifier record).map UInt8.toNat using 3
  exact decide_eq_decide.mpr Iff.rfl

/-- A sort by the identifier. -/
def mergeSorter {α : Type} (identifier : α → List UInt8) : Sorter (identifierLess identifier) :=
  Sorter.merge (strictWeak_identifierLess identifier)

/-- A charger for USB Power Delivery under its own type name: the batteries cannot be listed,
while the list of the other supplies has it. -/
theorem usb_pd_refused_by_batteries_only :
    RefusesType (batteries (mergeSorter _)) (ascii "USB_PD\n") ∧
      ¬ RefusesType (powerSources (mergeSorter _)) (ascii "USB_PD\n") ∧
      powerSources (mergeSorter _) (onlyType loneSupply (ascii "USB_PD\n"))
          (.listing [loneSupply] none) =
        .ok [⟨loneSupply, .other, none, [], none⟩] := by
  rw [batteries_refusesType, powerSources_refusesType]
  refine ⟨by decide, by decide, ?_⟩
  have hcollect : collectPowerSource (onlyType loneSupply (ascii "USB_PD\n")) loneSupply =
      .ok (some ⟨loneSupply, .other, none, [], none⟩) := by decide
  rw [powerSources, walkSupplies_single loneSupply_visible, hcollect]
  exact congrArg Except.ok (Sorter.sort_singleton _ _)

end Syscape.Power
