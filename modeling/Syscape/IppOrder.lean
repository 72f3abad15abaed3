import Syscape.IppFaults

/-!
# The order of attributes in a group

Attributes with different names bear on different fields of a printer, or set a field to
the same value. There are two exceptions: the colour flag of the printer type and a value
of `color-supported` that is false, and two values that fail with different errors. The
order of the attributes matters for these, and for nothing else.
-/
namespace Syscape.Ipp
open Checked Text Endian Printer LastValue

section Names
variable {l l' : List PrinterAttribute}

/-- For each name, the same attributes in the same order. -/
def SameByName (l l' : List PrinterAttribute) : Prop :=
  ∀ name, l.filter (·.name = name) = l'.filter (·.name = name)

theorem SameByName.mem_iff (h : SameByName l l') (a : PrinterAttribute) : a ∈ l ↔ a ∈ l' := by
  have hmem : ∀ m : List PrinterAttribute, a ∈ m ↔ a ∈ m.filter (·.name = a.name) := by
    intro m
    simp
  rw [hmem l, hmem l', h a.name]

/-- What only attributes of one name say. -/
theorem filterMap_of_name {β : Type} {f : PrinterAttribute → Option β} {name : List UInt8}
    (hf : ∀ a, f a ≠ none → a.name = name) (l : List PrinterAttribute) :
    (l.filter (·.name = name)).filterMap f = l.filterMap f := by
  induction l with
  | nil => rfl
  | cons a l ih =>
    by_cases hname : a.name = name
    · rw [List.filter_cons_of_pos (by simpa using hname), List.filterMap_cons, List.filterMap_cons, ih]
    · have hnone : f a = none := by
        by_contra h
        exact hname (hf a h)
      rw [List.filter_cons_of_neg (by simpa using hname), List.filterMap_cons_none hnone, ih]

theorem SameByName.filterMap_eq {β : Type} {f : PrinterAttribute → Option β} {name : List UInt8}
    (h : SameByName l l') (hf : ∀ a, f a ≠ none → a.name = name) :
    l.filterMap f = l'.filterMap f := by
  rw [← filterMap_of_name hf l, h name, filterMap_of_name hf l']

theorem SameByName.lastOf_eq {β : Type} {f : PrinterAttribute → Option β} {name : List UInt8}
    (h : SameByName l l') (hf : ∀ a, f a ≠ none → a.name = name) : lastOf f l = lastOf f l' := by
  rw [lastOf, lastOf, h.filterMap_eq hf]

/-- What says at most one thing is said or not. -/
theorem lastOf_const {β : Type} {f : PrinterAttribute → Option β} {b : β}
    (hf : ∀ a, f a = none ∨ f a = some b) (l : List PrinterAttribute) :
    lastOf f l = some b ↔ ∃ a ∈ l, f a = some b := by
  constructor
  · exact exists_of_lastOf f
  · rintro ⟨a, ha, hb⟩
    cases hlast : lastOf f l with
    | none =>
      rw [lastOf, List.getLast?_eq_none_iff, List.filterMap_eq_nil_iff] at hlast
      rw [hlast a ha] at hb
      cases hb
    | some c =>
      obtain ⟨d, -, hd⟩ := exists_of_lastOf f hlast
      rcases hf d with hnone | hsome
      · rw [hnone] at hd
        cases hd
      · rw [← hd, hsome]

theorem SameByName.lastOf_const_eq {β : Type} {f : PrinterAttribute → Option β} {b : β}
    (h : SameByName l l') (hf : ∀ a, f a = none ∨ f a = some b) : lastOf f l = lastOf f l' := by
  have hiff : lastOf f l = some b ↔ lastOf f l' = some b := by
    rw [lastOf_const hf, lastOf_const hf]
    simp only [h.mem_iff]
  have hcases : ∀ m, lastOf f m = none ∨ lastOf f m = some b := by
    intro m
    cases hlast : lastOf f m with
    | none => exact .inl rfl
    | some c =>
      obtain ⟨a, -, ha⟩ := exists_of_lastOf f hlast
      rcases hf a with hnone | hsome
      · rw [hnone] at ha
        cases ha
      · rw [← ha, hsome]
        exact .inr rfl
  rcases hcases l with h1 | h1 <;> rcases hcases l' with h2 | h2 <;> simp_all

end Names

section Color
open PrinterAttribute

/-- What `color-supported` says. -/
def colorSupportedOf : PrinterAttribute → Option Bool
  | colorSupported b => some b
  | _ => none

/-- What the colour flag says. -/
def colorFlagOf : PrinterAttribute → Option Bool
  | .printerType flags => if TypeFlag.color.In flags then some true else none
  | _ => none

theorem colorOf_eq (a : PrinterAttribute) :
    colorOf a = (colorSupportedOf a).or (colorFlagOf a) := by
  cases a <;> rfl

theorem colorSupportedOf_name (a : PrinterAttribute) (h : colorSupportedOf a ≠ none) :
    a.name = ascii "color-supported" := by
  cases a with
  | colorSupported b => rfl
  | _ => exact absurd rfl h

theorem colorFlagOf_name (a : PrinterAttribute) (h : colorFlagOf a ≠ none) :
    a.name = ascii "printer-type" := by
  cases a with
  | printerType flags => rfl
  | _ => exact absurd rfl h

theorem colorFlagOf_cases (a : PrinterAttribute) :
    colorFlagOf a = none ∨ colorFlagOf a = some true := by
  cases a with
  | printerType flags =>
    rw [colorFlagOf]
    split_ifs
    · exact .inr rfl
    · exact .inl rfl
  | _ => exact .inl rfl

/-- A flag says that there is colour, and the last value of `color-supported` denies it. -/
def ColorsConflict (l : List PrinterAttribute) : Prop :=
  lastOf colorFlagOf l = some true ∧ lastOf colorSupportedOf l = some false

/-- Without a conflict the colour is what either of the two says. -/
theorem lastOf_colorOf {l : List PrinterAttribute} (h : ¬ ColorsConflict l) :
    lastOf colorOf l = (lastOf colorFlagOf l).or (lastOf colorSupportedOf l) := by
  induction l using List.reverseRecOn with
  | nil => rfl
  | append_singleton l a ih =>
    unfold ColorsConflict at h ih
    rw [lastOf_concat, lastOf_concat] at h
    rw [lastOf_concat, lastOf_concat, lastOf_concat, colorOf_eq]
    cases hsupported : colorSupportedOf a with
    | some b =>
      have hflag : colorFlagOf a = none := by
        cases a <;> first | rfl | cases hsupported
      rw [hsupported, hflag, Option.none_or, Option.some_or, Option.some_inj] at h
      rw [hflag, Option.some_or, Option.none_or, Option.some_or]
      rcases Option.eq_none_or_eq_some (lastOf colorFlagOf l) with hnone | ⟨c, hsome⟩
      · rw [hnone, Option.none_or, Option.some_or]
      · have hc : c = true := by
          obtain ⟨d, -, hd⟩ := exists_of_lastOf colorFlagOf hsome
          rcases colorFlagOf_cases d with h1 | h1
          · rw [h1] at hd
            cases hd
          · rw [h1] at hd
            exact (Option.some_inj.mp hd).symm
        rw [hsome, hc] at h ⊢
        cases b with
        | true => rfl
        | false => exact absurd ⟨rfl, rfl⟩ h
    | none =>
      rw [hsupported, Option.none_or] at h
      rw [Option.none_or, Option.none_or]
      cases hflag : colorFlagOf a with
      | some c => rfl
      | none =>
        rw [hflag, Option.none_or] at h
        rw [Option.none_or, Option.none_or, ih h]

/-- Which attribute bears on a field, for the fields that one attribute alone bears on. -/
structure FieldNames (a : PrinterAttribute) : Prop where
  name : nameOf a ≠ none → a.name = ascii "printer-name"
  description : descriptionOf a ≠ none → a.name = ascii "printer-info"
  location : locationOf a ≠ none → a.name = ascii "printer-location"
  driverName : driverNameOf a ≠ none → a.name = ascii "printer-make-and-model"
  uri : uriOf a ≠ none → a.name = ascii "device-uri"
  state : stateOf a ≠ none → a.name = ascii "printer-state"
  isAcceptingJobs : isAcceptingJobsOf a ≠ none → a.name = ascii "printer-is-accepting-jobs"
  isShared : isSharedOf a ≠ none → a.name = ascii "printer-is-shared"
  queuedJobCount : queuedJobCountOf a ≠ none → a.name = ascii "queued-job-count"
  type : typeOf a ≠ none → a.name = ascii "printer-type"
  collate : collateOf a ≠ none → a.name = ascii "printer-type"
  maxCopies : maxCopiesOf a ≠ none → a.name = ascii "copies-supported"
  media : mediaOf a ≠ none → a.name = ascii "media-supported"
  resolution : resolutionOf a ≠ none → a.name = ascii "printer-resolution-supported"

theorem fieldNames (a : PrinterAttribute) : FieldNames a := by
  cases a
  all_goals
    constructor
    all_goals
      intro h
      first
      | exact absurd rfl h
      | rfl

/-- What several attributes say about duplex printing and copies is the same. -/
theorem duplexOf_cases (a : PrinterAttribute) : duplexOf a = none ∨ duplexOf a = some true := by
  cases a with
  | sidesSupported sides =>
    rw [duplexOf]
    split_ifs <;> simp
  | printerType flags =>
    rw [duplexOf]
    split_ifs <;> simp
  | _ => exact .inl rfl

theorem copiesOf_cases (a : PrinterAttribute) : copiesOf a = none ∨ copiesOf a = some true := by
  cases a with
  | copiesSupported maxC => exact .inr rfl
  | copiesSupportedRange minC maxC h => exact .inr rfl
  | printerType flags =>
    rw [copiesOf]
    split_ifs <;> simp
  | _ => exact .inl rfl

/-- Attributes that are the same by name describe the same printer, unless the colours
conflict. -/
theorem printerOf_sameByName {l l' : List PrinterAttribute} (h : SameByName l l')
    (hcolors : ¬ ColorsConflict l) : printerOf l = printerOf l' := by
  have hflags : lastOf colorFlagOf l = lastOf colorFlagOf l' := h.lastOf_eq colorFlagOf_name
  have hsupported : lastOf colorSupportedOf l = lastOf colorSupportedOf l' :=
    h.lastOf_eq colorSupportedOf_name
  have hcolor : lastOf colorOf l = lastOf colorOf l' := by
    have hcolors' : ¬ ColorsConflict l' := by rwa [ColorsConflict, ← hflags, ← hsupported]
    rw [lastOf_colorOf hcolors, lastOf_colorOf hcolors', hflags, hsupported]
  have hduplex : lastOf duplexOf l = lastOf duplexOf l' := h.lastOf_const_eq duplexOf_cases
  have hcopies : lastOf copiesOf l = lastOf copiesOf l' := h.lastOf_const_eq copiesOf_cases
  have htext : ∀ {f : PrinterAttribute → Option (List UInt8)} {name : List UInt8},
      (∀ a, f a ≠ none → a.name = name) → (lastOf f l).getD [] = (lastOf f l').getD [] := by
    intro f name hf
    rw [h.lastOf_eq hf]
  apply SameFields.printerOf_eq
  exact
    { name := h.lastOf_eq fun a => (fieldNames a).name
      description := htext fun a => (fieldNames a).description
      location := htext fun a => (fieldNames a).location
      driverName := htext fun a => (fieldNames a).driverName
      uri := htext fun a => (fieldNames a).uri
      state := h.lastOf_eq fun a => (fieldNames a).state
      isAcceptingJobs := h.lastOf_eq fun a => (fieldNames a).isAcceptingJobs
      isShared := h.lastOf_eq fun a => (fieldNames a).isShared
      queuedJobCount := h.lastOf_eq fun a => (fieldNames a).queuedJobCount
      type := h.lastOf_eq fun a => (fieldNames a).type
      color := hcolor
      duplex := hduplex
      copies := hcopies
      collate := h.lastOf_eq fun a => (fieldNames a).collate
      maxCopies := h.lastOf_eq fun a => (fieldNames a).maxCopies
      media := h.filterMap_eq fun a => (fieldNames a).media
      resolution := h.filterMap_eq fun a => (fieldNames a).resolution }

end Color

section Groups

theorem perm_nil_iff {α : Type} {l l' : List α} (h : l.Perm l') : l = [] ↔ l' = [] := by
  rw [← List.length_eq_zero_iff, h.length_eq, List.length_eq_zero_iff]

/-- The record's attributes for the attributes of a response, where they are valid. -/
theorem exists_decoded {attributes : List Attribute}
    (h : attributes.flatMap (fun a => a.pairs.filterMap valueFault) = []) :
    ∃ decoded : Attribute → List PrinterAttribute,
      ∀ a ∈ attributes, (decoded a).map pairOf = a.pairs := by
  have hexists : ∀ a : Attribute, ∃ l : List PrinterAttribute,
      a ∈ attributes → l.map pairOf = a.pairs := by
    intro a
    by_cases ha : a ∈ attributes
    · have hsize : ∀ pair ∈ a.pairs,
          pair.1 ≠ [] ∧ pair.1.length < 2 ^ 16 ∧ pair.2.length < 2 ^ 16 := by
        intro pair hpair
        obtain ⟨v, -, rfl⟩ := List.mem_map.mp hpair
        exact ⟨a.name_ne, a.name_lt, v.bytes_lt⟩
      obtain ⟨l, hl⟩ := exists_attributes hsize (List.flatMap_eq_nil_iff.mp h a ha)
      exact ⟨l, fun _ => hl⟩
    · exact ⟨[], fun h => absurd h ha⟩
  choose decoded hdecoded using hexists
  exact ⟨decoded, hdecoded⟩

theorem name_of_mem_decoded {a : Attribute} {l : List PrinterAttribute}
    (hl : l.map pairOf = a.pairs) {p : PrinterAttribute} (hp : p ∈ l) : p.name = a.name := by
  have hmem : pairOf p ∈ a.pairs := hl ▸ List.mem_map_of_mem hp
  obtain ⟨v, -, hv⟩ := List.mem_map.mp hmem
  exact (congrArg Prod.fst hv).symm

/-- What a name says comes from the attributes of that name. -/
theorem filter_flatMap_decoded {attributes : List Attribute}
    {decoded : Attribute → List PrinterAttribute}
    (hdecoded : ∀ a ∈ attributes, (decoded a).map pairOf = a.pairs) (name : List UInt8) :
    (attributes.flatMap decoded).filter (·.name = name) =
      (attributes.filter (·.name = name)).flatMap decoded := by
  induction attributes with
  | nil => rfl
  | cons a attributes ih =>
    have ha := hdecoded a (by simp)
    rw [List.flatMap_cons, List.filter_append, ih fun b hb => hdecoded b (by simp [hb])]
    by_cases hname : a.name = name
    · rw [List.filter_cons_of_pos (by simpa using hname), List.flatMap_cons]
      congr 1
      rw [List.filter_eq_self]
      intro p hp
      simpa [name_of_mem_decoded ha hp] using hname
    · rw [List.filter_cons_of_neg (by simpa using hname)]
      have hnil : (decoded a).filter (·.name = name) = [] := by
        rw [List.filter_eq_nil_iff]
        intro p hp
        simpa [name_of_mem_decoded ha hp] using hname
      rw [hnil, List.nil_append]

/-- At most one of attributes with different names has a name. -/
theorem filter_name_of_perm {attributes attributes' : List Attribute}
    (hperm : attributes.Perm attributes') (hdistinct : (attributes.map (·.name)).Nodup)
    (name : List UInt8) :
    attributes.filter (·.name = name) = attributes'.filter (·.name = name) := by
  have hnames : ∀ a ∈ attributes.filter (·.name = name), a.name = name := by
    intro a ha
    simpa using (List.mem_filter.mp ha).2
  have hsub : ((attributes.filter (·.name = name)).map (·.name)).Nodup :=
    hdistinct.sublist (List.filter_sublist.map _)
  have hfiltered := hperm.filter (·.name = name)
  match hcase : attributes.filter (·.name = name) with
  | [] =>
    rw [hcase] at hfiltered ⊢
    exact hfiltered.nil_eq
  | [a] =>
    rw [hcase] at hfiltered ⊢
    exact List.singleton_perm.mp hfiltered
  | a :: b :: more =>
    rw [hcase] at hsub hnames
    have hsame : a.name = b.name := (hnames a (by simp)).trans (hnames b (by simp)).symm
    simp [hsame] at hsub

/-- Reordering attributes with different names keeps what each name says. -/
theorem sameByName_of_perm {attributes attributes' : List Attribute}
    (hperm : attributes.Perm attributes') (hdistinct : (attributes.map (·.name)).Nodup)
    {decoded : Attribute → List PrinterAttribute}
    (hdecoded : ∀ a ∈ attributes, (decoded a).map pairOf = a.pairs) :
    SameByName (attributes.flatMap decoded) (attributes'.flatMap decoded) := by
  intro name
  rw [filter_flatMap_decoded hdecoded, filter_name_of_perm hperm hdistinct,
    filter_flatMap_decoded fun a ha => hdecoded a (hperm.mem_iff.mpr ha)]

/-- The group with its attributes in another order, if it is a printer group. -/
structure Reordered (g g' : AttributeGroup) : Prop where
  tag : g'.tag = g.tag
  perm : g'.attributes.Perm g.attributes
  other : g.tag ≠ 0x04 → g'.attributes = g.attributes

variable {g g' : AttributeGroup}

theorem Reordered.pairs_perm (h : Reordered g g') : g'.pairs.Perm g.pairs :=
  h.perm.flatMap_right Attribute.pairs

theorem Reordered.valueFaults_perm (h : Reordered g g') : g'.valueFaults.Perm g.valueFaults :=
  h.pairs_perm.filterMap valueFault

theorem Reordered.unnamed_iff (h : Reordered g g') :
    (g'.pairs ≠ [] ∧ ¬ Named g'.pairs) ↔ (g.pairs ≠ [] ∧ ¬ Named g.pairs) := by
  have hnil : g'.pairs = [] ↔ g.pairs = [] := perm_nil_iff h.pairs_perm
  have hnamed : Named g'.pairs ↔ Named g.pairs := by
    simp only [Named, h.pairs_perm.mem_iff]
  rw [ne_eq, hnil, hnamed]

/-- Where the order matters to the faults, it is because of the values. -/
theorem Reordered.faults_eq (h : Reordered g g')
    (hvalues : g.tag = 0x04 → g'.valueFaults = g.valueFaults) : g'.faults = g.faults := by
  unfold AttributeGroup.faults
  rw [h.tag]
  by_cases htag : g.tag = 0x04
  · rw [if_pos htag, if_pos htag, hvalues htag]
    simp only [h.unnamed_iff]
  · rw [if_neg htag, if_neg htag]

theorem Reordered.faults_perm (h : Reordered g g') : g'.faults.Perm g.faults := by
  unfold AttributeGroup.faults
  rw [h.tag]
  by_cases htag : g.tag = 0x04
  · rw [if_pos htag, if_pos htag]
    simp only [h.unnamed_iff]
    exact h.valueFaults_perm.append_right _
  · rw [if_neg htag, if_neg htag]

variable {groups groups' : List AttributeGroup}

theorem faults_reordered_perm (h : List.Forall₂ Reordered groups groups') :
    (groups'.flatMap AttributeGroup.faults).Perm (groups.flatMap AttributeGroup.faults) := by
  induction h with
  | nil => exact .refl _
  | cons hg _ ih =>
    rw [List.flatMap_cons, List.flatMap_cons]
    exact hg.faults_perm.append ih

theorem valueFaults_eq_nil (hfaults : g.faults = []) (htag : g.tag = 0x04) :
    g.valueFaults = [] := by
  rw [AttributeGroup.faults, if_pos htag, List.append_eq_nil_iff] at hfaults
  exact hfaults.1

/-- In the first printer group with faults, values that are not valid fail alike. -/
def UniformFaults (groups : List AttributeGroup) : Prop :=
  ∀ before g after, groups = before ++ g :: after → before.flatMap AttributeGroup.faults = [] →
    g.tag = 0x04 → ∀ e ∈ g.valueFaults, ∀ e' ∈ g.valueFaults, e = e'

theorem uniformFaults_of_no_faults (h : groups.flatMap AttributeGroup.faults = []) :
    UniformFaults groups := by
  rintro before g after rfl - htag e he
  rw [List.flatMap_append, List.flatMap_cons, List.append_eq_nil_iff, List.append_eq_nil_iff] at h
  rw [valueFaults_eq_nil h.2.1 htag] at he
  cases he

theorem head_faults_reordered (h : List.Forall₂ Reordered groups groups')
    (huniform : UniformFaults groups) :
    (groups'.flatMap AttributeGroup.faults).head? =
      (groups.flatMap AttributeGroup.faults).head? := by
  induction h with
  | nil => rfl
  | @cons g g' groups groups' hg _ ih =>
    have hvalues : g.tag = 0x04 → g'.valueFaults = g.valueFaults := by
      intro htag
      have hall := huniform [] g groups rfl rfl htag
      cases hcase : g.valueFaults with
      | nil => exact (perm_nil_iff hg.valueFaults_perm).mpr hcase
      | cons e more =>
        have hrep : g.valueFaults = List.replicate g.valueFaults.length e := by
          rw [List.eq_replicate_iff]
          exact ⟨rfl, fun e' he' => hall e' he' e (by simp [hcase])⟩
        have hperm := hg.valueFaults_perm
        rw [hrep, List.perm_replicate] at hperm
        rw [hperm, ← hrep, hcase]
    have hfaults := hg.faults_eq hvalues
    rw [List.flatMap_cons, List.flatMap_cons, hfaults]
    cases hcase : g.faults with
    | cons e more => rfl
    | nil =>
      apply ih
      intro before g₁ after hsplit hbefore
      apply huniform (g :: before) g₁ after
      · rw [hsplit]
        rfl
      · rw [List.flatMap_cons, hcase, hbefore]
        rfl

/-- The value of a pair under the name. -/
def valueUnder (name : List UInt8) (pair : List UInt8 × List UInt8) : Option (List UInt8) :=
  if pair.1 = name then some pair.2 else none

/-- A printer type says that there is colour, and the last value of `color-supported`
denies it. -/
def PairsConflict (pairs : List (List UInt8 × List UInt8)) : Prop :=
  (∃ pair ∈ pairs, pair.1 = ascii "printer-type" ∧ HasFlag (value .big pair.2) cupsPrinterColor) ∧
    lastOf (valueUnder (ascii "color-supported")) pairs = some [0]

instance (pairs : List (List UInt8 × List UInt8)) : Decidable (PairsConflict pairs) :=
  inferInstanceAs (Decidable ((∃ pair ∈ pairs, _ ∧ _) ∧ _))

theorem value_printerType (flags : Fin (2 ^ 32)) :
    value .big (pairOf (.printerType flags)).2 = flags := by
  change value .big (appendUint32 [] flags) = flags
  rw [appendUint32_eq, List.nil_append, value_encode .big (show flags.1 < 256 ^ 4 from flags.2)]

theorem colorFlagOf_eq_some (a : PrinterAttribute) :
    colorFlagOf a = some true ↔ (pairOf a).1 = ascii "printer-type" ∧
      HasFlag (value .big (pairOf a).2) cupsPrinterColor := by
  constructor
  · intro h
    cases a with
    | printerType flags =>
      refine ⟨rfl, ?_⟩
      rw [value_printerType]
      rw [colorFlagOf] at h
      split_ifs at h with hflag
      exact (TypeFlag.hasFlag_mask .color flags).mpr hflag
    | _ => cases h
  · rintro ⟨hname, hflag⟩
    cases a with
    | printerType flags =>
      rw [value_printerType] at hflag
      exact if_pos ((TypeFlag.hasFlag_mask .color flags).mp hflag)
    | unrecognised u =>
      have hmem : u.name ∈ recognisedNames := by
        rw [show u.name = ascii "printer-type" from hname]
        decide
      exact absurd hmem u.not_mem
    | _ => exact absurd hname (by dsimp only [pairOf, PrinterAttribute.name]; decide)

theorem valueUnder_pairOf (a : PrinterAttribute) :
    valueUnder (ascii "color-supported") (pairOf a) =
      (colorSupportedOf a).map PrinterAttribute.boolBytes := by
  cases a with
  | colorSupported b => rfl
  | unrecognised u =>
    apply if_neg
    intro hname
    have hmem : u.name ∈ recognisedNames := by
      rw [show u.name = ascii "color-supported" from hname]
      decide
    exact u.not_mem hmem
  | _ => exact if_neg (by dsimp only [pairOf, PrinterAttribute.name]; decide)

theorem pairsConflict_iff (l : List PrinterAttribute) :
    PairsConflict (l.map pairOf) ↔ ColorsConflict l := by
  have hflag : lastOf colorFlagOf l = some true ↔
      ∃ pair ∈ l.map pairOf, pair.1 = ascii "printer-type" ∧
        HasFlag (value .big pair.2) cupsPrinterColor := by
    rw [lastOf_const colorFlagOf_cases]
    simp only [colorFlagOf_eq_some, List.mem_map, exists_exists_and_eq_and]
  have hsupported : lastOf (valueUnder (ascii "color-supported")) (l.map pairOf) =
      (lastOf colorSupportedOf l).map PrinterAttribute.boolBytes := by
    rw [lastOf_of_map, ← lastOf_map]
    congr 1
    ext1 a
    exact valueUnder_pairOf a
  have hbool : ∀ o : Option Bool, o.map PrinterAttribute.boolBytes = some [0] ↔ o = some false := by
    decide
  rw [PairsConflict, ColorsConflict, ← hflag, hsupported, hbool]

theorem pairs_eq_decoded {attributes : List Attribute}
    {decoded : Attribute → List PrinterAttribute}
    (hdecoded : ∀ a ∈ attributes, (decoded a).map pairOf = a.pairs) :
    (attributes.flatMap decoded).map pairOf = attributes.flatMap Attribute.pairs := by
  rw [List.map_flatMap]
  exact List.flatMap_congr hdecoded

/-- The attributes of a printer group without faults, in any order. -/
theorem exists_decoded_group (hfaults : g.faults = []) (htag : g.tag = 0x04) :
    ∃ decoded : Attribute → List PrinterAttribute,
      (∀ a ∈ g.attributes, (decoded a).map pairOf = a.pairs) ∧
        ∀ g', Reordered g g' →
          (g'.attributes.flatMap decoded).map pairOf = g'.pairs ∧
          groupResult g' = .ok (if g'.attributes.flatMap decoded = [] then none
            else some (printerOf (g'.attributes.flatMap decoded))) := by
  have hvalues := valueFaults_eq_nil hfaults htag
  rw [AttributeGroup.valueFaults, AttributeGroup.pairs, List.filterMap_flatMap] at hvalues
  obtain ⟨decoded, hdecoded⟩ := exists_decoded hvalues
  refine ⟨decoded, hdecoded, ?_⟩
  intro g' h
  have hpairs : (g'.attributes.flatMap decoded).map pairOf = g'.pairs :=
    pairs_eq_decoded fun a ha => hdecoded a (h.perm.mem_iff.mp ha)
  have hfaults' : g'.faults = [] := (perm_nil_iff h.faults_perm).mpr hfaults
  exact ⟨hpairs, groupResult_printer (h.tag.trans htag) hfaults' hpairs⟩

theorem Reordered.refl (g : AttributeGroup) : Reordered g g := ⟨rfl, .refl _, fun _ => rfl⟩

/-- Reordering a group without faults and without a conflict changes nothing. -/
theorem groupResult_reordered (h : Reordered g g') (hfaults : g.faults = [])
    (hdistinct : g.tag = 0x04 → (g.attributes.map (·.name)).Nodup)
    (hcolors : g.tag = 0x04 → ¬ PairsConflict g.pairs) : groupResult g' = groupResult g := by
  by_cases htag : g.tag = 0x04
  · obtain ⟨decoded, hdecoded, hresult⟩ := exists_decoded_group hfaults htag
    obtain ⟨hpairs, hg⟩ := hresult g (.refl g)
    obtain ⟨hpairs', hg'⟩ := hresult g' h
    have hsame := sameByName_of_perm h.perm.symm (hdistinct htag) hdecoded
    have hcolors' : ¬ ColorsConflict (g.attributes.flatMap decoded) := by
      rw [← pairsConflict_iff, hpairs]
      exact hcolors htag
    have hnil : g'.attributes.flatMap decoded = [] ↔ g.attributes.flatMap decoded = [] := by
      simp only [List.eq_nil_iff_forall_not_mem, hsame.mem_iff]
    rw [hg, hg', printerOf_sameByName hsame hcolors']
    simp only [hnil]
  · have hfaults' : g'.faults = [] := (perm_nil_iff h.faults_perm).mpr hfaults
    rw [groupResult_other htag hfaults, groupResult_other (h.tag ▸ htag) hfaults']

theorem interpret_reordered (h : List.Forall₂ Reordered groups groups')
    (hfaults : groups.flatMap AttributeGroup.faults = [])
    (hdistinct : ∀ g ∈ groups, g.tag = 0x04 → (g.attributes.map (·.name)).Nodup)
    (hcolors : ∀ g ∈ groups, g.tag = 0x04 → ¬ PairsConflict g.pairs) :
    interpret groups' = interpret groups := by
  induction h with
  | nil => rfl
  | cons hg _ ih =>
    rw [List.flatMap_cons, List.append_eq_nil_iff] at hfaults
    rw [interpret, interpret,
      groupResult_reordered hg hfaults.1 (hdistinct _ (by simp)) (hcolors _ (by simp)),
      ih hfaults.2 (fun g₁ h₁ => hdistinct g₁ (by simp [h₁])) fun g₁ h₁ => hcolors g₁ (by simp [h₁])]

/-- Each fault can come first. -/
theorem exists_reordered_head {e : Errc} (htag : g.tag = 0x04) (he : e ∈ g.valueFaults) :
    ∃ g', Reordered g g' ∧ g'.valueFaults.head? = some e := by
  obtain ⟨pair, hpair, hfault⟩ := List.mem_filterMap.mp he
  obtain ⟨a, ha, hmem⟩ := List.mem_flatMap.mp hpair
  refine ⟨{ g with attributes := a :: g.attributes.erase a },
    ⟨rfl, (List.perm_cons_erase ha).symm, fun hother => absurd htag hother⟩, ?_⟩
  -- the faults of one attribute are alike
  have halike : ∀ e' ∈ a.pairs.filterMap valueFault, e' = nameErrc a.name := by
    intro e' he'
    obtain ⟨pair', hpair', hfault'⟩ := List.mem_filterMap.mp he'
    obtain ⟨v, -, rfl⟩ := List.mem_map.mp hpair'
    unfold valueFault at hfault'
    split_ifs at hfault'
    exact (Option.some_inj.mp hfault').symm
  have hhead : (a.pairs.filterMap valueFault).head? = some e := by
    have hin : e ∈ a.pairs.filterMap valueFault := List.mem_filterMap.mpr ⟨pair, hmem, hfault⟩
    cases hcase : a.pairs.filterMap valueFault with
    | nil =>
      rw [hcase] at hin
      cases hin
    | cons e' more =>
      rw [List.head?_cons, halike e hin, halike e' (by simp [hcase])]
  rw [AttributeGroup.valueFaults, AttributeGroup.pairs, List.flatMap_cons, List.filterMap_append,
    List.head?_append, hhead, Option.some_or]

theorem lastOf_congr {α β : Type} {f f' : α → Option β} {l : List α} (h : ∀ a ∈ l, f a = f' a) :
    lastOf f l = lastOf f' l := by
  rw [lastOf, lastOf, List.filterMap_congr h]

theorem lastOf_eq_none {α β : Type} {f : α → Option β} {l : List α} (h : ∀ a ∈ l, f a = none) :
    lastOf f l = none := by
  rw [lastOf, List.filterMap_eq_nil_iff.mpr h, List.getLast?_nil]

/-- The last attribute decides a conflict. -/
theorem lastOf_colorOf_conflict {types supported others : List PrinterAttribute}
    (htypes : ∀ a ∈ types, a.name = ascii "printer-type")
    (hsupported : ∀ a ∈ supported, a.name = ascii "color-supported")
    (hothers : ∀ a ∈ others, a.name ≠ ascii "printer-type" ∧ a.name ≠ ascii "color-supported")
    (hconflict : ColorsConflict (types ++ supported ++ others)) :
    lastOf colorOf (types ++ supported ++ others) = some false ∧
      lastOf colorOf (supported ++ types ++ others) = some true := by
  have hne : ascii "printer-type" ≠ ascii "color-supported" := by decide
  have hflagNone : ∀ a : PrinterAttribute, a.name ≠ ascii "printer-type" → colorFlagOf a = none := by
    intro a ha
    by_contra h
    exact ha (colorFlagOf_name a h)
  have hsupportedNone : ∀ a : PrinterAttribute, a.name ≠ ascii "color-supported" →
      colorSupportedOf a = none := by
    intro a ha
    by_contra h
    exact ha (colorSupportedOf_name a h)
  have h1 : lastOf colorOf types = lastOf colorFlagOf types := by
    apply lastOf_congr
    intro a ha
    rw [colorOf_eq, hsupportedNone a (by rw [htypes a ha]; exact hne), Option.none_or]
  have h2 : lastOf colorOf supported = lastOf colorSupportedOf supported := by
    apply lastOf_congr
    intro a ha
    rw [colorOf_eq, hflagNone a (by rw [hsupported a ha]; exact hne.symm), Option.or_none]
  have h3 : lastOf colorOf others = none := by
    apply lastOf_eq_none
    intro a ha
    rw [colorOf_eq, hflagNone a (hothers a ha).1, hsupportedNone a (hothers a ha).2, Option.none_or]
  have hflags : lastOf colorFlagOf types = some true := by
    have h := hconflict.1
    rw [lastOf_append, lastOf_append,
      lastOf_eq_none fun a ha => hflagNone a (hothers a ha).1,
      lastOf_eq_none fun a ha => hflagNone a (by rw [hsupported a ha]; exact hne.symm)] at h
    simpa using h
  have hdenied : lastOf colorSupportedOf supported = some false := by
    have h := hconflict.2
    rw [lastOf_append, lastOf_append,
      lastOf_eq_none fun a ha => hsupportedNone a (hothers a ha).2,
      @lastOf_eq_none _ _ _ types
        fun a ha => hsupportedNone a (by rw [htypes a ha]; exact hne)] at h
    simpa using h
  constructor
  · rw [lastOf_append, lastOf_append, h1, h2, h3, hflags, hdenied]
    rfl
  · rw [lastOf_append, lastOf_append, h1, h2, h3, hflags, hdenied]
    rfl

/-- Two attributes can be brought to the front; the others have other names. -/
theorem exists_front {attributes : List Attribute} (hdistinct : (attributes.map (·.name)).Nodup)
    {a b : Attribute} (ha : a ∈ attributes) (hb : b ∈ attributes) (hne : b.name ≠ a.name) :
    ∃ rest, attributes.Perm (a :: b :: rest) ∧ ∀ c ∈ rest, c.name ≠ a.name ∧ c.name ≠ b.name := by
  have hb' : b ∈ attributes.erase a := by
    rw [List.mem_erase_of_ne]
    · exact hb
    · rintro rfl
      exact hne rfl
  have hperm : attributes.Perm (a :: b :: (attributes.erase a).erase b) :=
    (List.perm_cons_erase ha).trans ((List.perm_cons_erase hb').cons a)
  refine ⟨(attributes.erase a).erase b, hperm, ?_⟩
  have hnodup := (hperm.map (·.name)).nodup_iff.mp hdistinct
  simp only [List.map_cons, List.nodup_cons, List.mem_cons, List.mem_map, not_or, not_exists,
    not_and] at hnodup
  intro c hc
  exact ⟨hnodup.1.2 c hc, hnodup.2.1 c hc⟩

/-- The attribute from which a field is decoded. -/
theorem exists_of_lastOf_decoded {attributes : List Attribute}
    {decoded : Attribute → List PrinterAttribute}
    (hdecoded : ∀ a ∈ attributes, (decoded a).map pairOf = a.pairs) {β : Type}
    {f : PrinterAttribute → Option β} {name : List UInt8} (hf : ∀ p, f p ≠ none → p.name = name)
    {b : β} (h : lastOf f (attributes.flatMap decoded) = some b) :
    ∃ a ∈ attributes, a.name = name := by
  obtain ⟨p, hp, hb⟩ := exists_of_lastOf f h
  obtain ⟨a, ha, hpa⟩ := List.mem_flatMap.mp hp
  refine ⟨a, ha, ?_⟩
  rw [← name_of_mem_decoded (hdecoded a ha) hpa]
  exact hf p (by simp [hb])

/-- With a conflict, two orders describe two different printers. -/
theorem exists_reordered_colors (hfaults : g.faults = []) (htag : g.tag = 0x04)
    (hdistinct : (g.attributes.map (·.name)).Nodup) (hconflict : PairsConflict g.pairs) :
    ∃ g₁ g₂ p₁ p₂, Reordered g g₁ ∧ Reordered g g₂ ∧ groupResult g₁ = .ok (some p₁) ∧
      groupResult g₂ = .ok (some p₂) ∧ p₁ ≠ p₂ := by
  obtain ⟨decoded, hdecoded, hresult⟩ := exists_decoded_group hfaults htag
  have hcolors : ColorsConflict (g.attributes.flatMap decoded) := by
    rwa [← pairsConflict_iff, (hresult g (.refl g)).1]
  obtain ⟨a, ha, haname⟩ := exists_of_lastOf_decoded hdecoded colorFlagOf_name hcolors.1
  obtain ⟨b, hb, hbname⟩ := exists_of_lastOf_decoded hdecoded colorSupportedOf_name hcolors.2
  have hne : b.name ≠ a.name := by
    rw [haname, hbname]
    decide
  obtain ⟨rest, hperm, hrest⟩ := exists_front hdistinct ha hb hne
  have hmem : ∀ c ∈ a :: b :: rest, c ∈ g.attributes := fun c hc => hperm.mem_iff.mpr hc
  have hnames : ∀ c ∈ g.attributes, ∀ p ∈ decoded c, p.name = c.name :=
    fun c hc p hp => name_of_mem_decoded (hdecoded c hc) hp
  have hothers : ∀ p ∈ rest.flatMap decoded,
      p.name ≠ ascii "printer-type" ∧ p.name ≠ ascii "color-supported" := by
    intro p hp
    obtain ⟨c, hc, hpc⟩ := List.mem_flatMap.mp hp
    rw [hnames c (hmem c (by simp [hc])) p hpc, ← haname, ← hbname]
    exact hrest c hc
  have hsame := sameByName_of_perm hperm hdistinct hdecoded
  rw [List.flatMap_cons, List.flatMap_cons, ← List.append_assoc] at hsame
  have hconflict' : ColorsConflict (decoded a ++ decoded b ++ rest.flatMap decoded) := by
    rwa [ColorsConflict, ← hsame.lastOf_eq colorFlagOf_name, ← hsame.lastOf_eq colorSupportedOf_name]
  obtain ⟨hfirst, hsecond⟩ := lastOf_colorOf_conflict
    (fun p hp => (hnames a ha p hp).trans haname) (fun p hp => (hnames b hb p hp).trans hbname)
    hothers hconflict'
  -- the two orders of the attributes that bear on the colour
  have h₁ : Reordered g { g with attributes := a :: b :: rest } :=
    ⟨rfl, hperm.symm, fun hother => absurd htag hother⟩
  have h₂ : Reordered g { g with attributes := b :: a :: rest } :=
    ⟨rfl, (hperm.trans (.swap b a rest)).symm, fun hother => absurd htag hother⟩
  have hresult₁ := (hresult _ h₁).2
  have hresult₂ := (hresult _ h₂).2
  dsimp only at hresult₁ hresult₂
  rw [List.flatMap_cons, List.flatMap_cons, ← List.append_assoc] at hresult₁ hresult₂
  rw [if_neg (by rintro hnil; rw [hnil] at hfirst; cases hfirst)] at hresult₁
  rw [if_neg (by rintro hnil; rw [hnil] at hsecond; cases hsecond)] at hresult₂
  refine ⟨_, _, _, _, h₁, h₂, hresult₁, hresult₂, ?_⟩
  intro heq
  have hcolor : lastOf colorOf (decoded a ++ decoded b ++ rest.flatMap decoded) =
      lastOf colorOf (decoded b ++ decoded a ++ rest.flatMap decoded) :=
    congrArg (·.capabilities.color) heq
  rw [hfirst, hsecond] at hcolor
  cases hcolor

end Groups

section Responses
variable {header : Vector UInt8 8} {groups groups' : List AttributeGroup}

/-- The parser gives printers. -/
def Accepted (header : Vector UInt8 8) (groups : List AttributeGroup) : Prop :=
  ∃ printers, parseIppPrintersResponse (responseBytes header.toList groups) = .ok printers

/-- The result stays the same when the attributes of printer groups are reordered. -/
def AttributeOrderFree (header : Vector UInt8 8) (groups : List AttributeGroup) : Prop :=
  ∀ groups', List.Forall₂ Reordered groups groups' →
    parseIppPrintersResponse (responseBytes header.toList groups') =
      parseIppPrintersResponse (responseBytes header.toList groups)

theorem parse_groups (header : Vector UInt8 8) (groups : List AttributeGroup) :
    parseIppPrintersResponse (responseBytes header.toList groups) =
      checkHeader header.toList >>= fun _ => interpret groups :=
  parse_responseBytes (by simp) groups

theorem parse_groups_ok (hheader : checkHeader header.toList = .ok ())
    (groups : List AttributeGroup) :
    parseIppPrintersResponse (responseBytes header.toList groups) = interpret groups := by
  rw [parse_groups, hheader, ok_bind]

/-- A response is accepted if nothing of it is faulty. -/
theorem accepted_iff : Accepted header groups ↔
    checkHeader header.toList = .ok () ∧ groups.flatMap AttributeGroup.faults = [] := by
  rw [Accepted, parse_groups]
  cases hheader : checkHeader header.toList with
  | error e =>
    constructor
    · rintro ⟨printers, hprinters⟩
      cases hprinters
    · rintro ⟨hok, -⟩
      cases hok
  | ok u =>
    rw [ok_bind]
    cases hfaults : groups.flatMap AttributeGroup.faults with
    | nil =>
      obtain ⟨printers, hprinters⟩ := interpret_ok hfaults
      exact ⟨fun _ => ⟨rfl, rfl⟩, fun _ => ⟨printers, hprinters⟩⟩
    | cons e more =>
      have hfault : interpret groups = fail e := interpret_fault (by rw [hfaults, List.head?_cons])
      rw [hfault]
      constructor
      · rintro ⟨printers, hprinters⟩
        cases hprinters
      · rintro ⟨-, hnil⟩
        cases hnil

theorem accepted_reordered (h : List.Forall₂ Reordered groups groups') :
    Accepted header groups' ↔ Accepted header groups := by
  rw [accepted_iff, accepted_iff, perm_nil_iff (faults_reordered_perm h)]

/-- Only one group is reordered. -/
theorem forall₂_reordered_append {g g' : AttributeGroup} (before after : List AttributeGroup)
    (h : Reordered g g') :
    List.Forall₂ Reordered (before ++ g :: after) (before ++ g' :: after) :=
  List.rel_append (List.forall₂_same.mpr fun g₁ _ => .refl g₁)
    (.cons h (List.forall₂_same.mpr fun g₁ _ => .refl g₁))

theorem uniformFaults_of_orderFree (hheader : checkHeader header.toList = .ok ())
    (hfree : AttributeOrderFree header groups) : UniformFaults groups := by
  rintro before g after rfl hbefore htag
  have hfail : ∀ e ∈ g.valueFaults,
      parseIppPrintersResponse (responseBytes header.toList (before ++ g :: after)) = fail e := by
    intro e he
    obtain ⟨g', hreordered, hhead⟩ := exists_reordered_head htag he
    have hfirst : g'.faults.head? = some e := by
      rw [AttributeGroup.faults, if_pos (hreordered.tag.trans htag), List.head?_append, hhead,
        Option.some_or]
    rw [← hfree _ (forall₂_reordered_append before after hreordered), parse_groups_ok hheader]
    apply interpret_fault
    rw [List.flatMap_append, hbefore, List.nil_append, List.flatMap_cons, List.head?_append, hfirst,
      Option.some_or]
  intro e he e' he'
  have h := (hfail e he).symm.trans (hfail e' he')
  simpa [fail] using h

theorem no_conflict_of_orderFree (hheader : checkHeader header.toList = .ok ())
    (hdistinct : ∀ g ∈ groups, g.tag = 0x04 → (g.attributes.map (·.name)).Nodup)
    (hfaults : groups.flatMap AttributeGroup.faults = [])
    (hfree : AttributeOrderFree header groups) :
    ∀ g ∈ groups, g.tag = 0x04 → ¬ PairsConflict g.pairs := by
  intro g hg htag hconflict
  obtain ⟨before, after, rfl⟩ := List.append_of_mem hg
  rw [List.flatMap_append, List.flatMap_cons, List.append_eq_nil_iff, List.append_eq_nil_iff]
    at hfaults
  obtain ⟨hbefore, hgroup, hafter⟩ := hfaults
  obtain ⟨g₁, g₂, p₁, p₂, h₁, h₂, hresult₁, hresult₂, hne⟩ :=
    exists_reordered_colors hgroup htag (hdistinct g hg htag) hconflict
  obtain ⟨printers, hprinters⟩ := interpret_ok hbefore
  obtain ⟨more, hmore⟩ := interpret_ok hafter
  have hsame := (hfree _ (forall₂_reordered_append before after h₁)).trans
    (hfree _ (forall₂_reordered_append before after h₂)).symm
  rw [parse_groups_ok hheader, parse_groups_ok hheader, interpret_append, interpret_append, hprinters,
    ok_bind, ok_bind, interpret, interpret, hresult₁, hresult₂, ok_bind, ok_bind, hmore, ok_bind,
    ok_bind, ok_bind, ok_bind] at hsame
  have hlists := List.append_cancel_left (Except.ok.inj hsame)
  exact hne (List.cons.inj hlists).1

theorem orderFree_of_no_conflict
    (hdistinct : ∀ g ∈ groups, g.tag = 0x04 → (g.attributes.map (·.name)).Nodup)
    (hfree : checkHeader header.toList = .ok () → UniformFaults groups ∧
      (groups.flatMap AttributeGroup.faults = [] →
        ∀ g ∈ groups, g.tag = 0x04 → ¬ PairsConflict g.pairs)) :
    AttributeOrderFree header groups := by
  intro groups' h
  cases hheader : checkHeader header.toList with
  | error e => rw [parse_groups, parse_groups, hheader, error_bind, error_bind]
  | ok u =>
    obtain ⟨huniform, hcolors⟩ := hfree hheader
    rw [parse_groups_ok hheader, parse_groups_ok hheader]
    cases hfaults : groups.flatMap AttributeGroup.faults with
    | nil => exact interpret_reordered h hfaults hdistinct (hcolors hfaults)
    | cons e more =>
      have hhead : (groups.flatMap AttributeGroup.faults).head? = some e := by
        rw [hfaults, List.head?_cons]
      rw [interpret_fault hhead, interpret_fault ((head_faults_reordered h huniform).trans hhead)]

/-- Whether a response is accepted does not depend on the order of the attributes in its
printer groups. The result does not either, exactly if the values that are not valid in the
first group with such values fail alike, and no printer has conflicting colours. -/
theorem attribute_order (header : Vector UInt8 8) (groups : List AttributeGroup)
    (hdistinct : ∀ g ∈ groups, g.tag = 0x04 → (g.attributes.map (·.name)).Nodup) :
    (∀ groups', List.Forall₂ Reordered groups groups' →
      (Accepted header groups' ↔ Accepted header groups)) ∧
    (AttributeOrderFree header groups ↔
      (checkHeader header.toList = .ok () → UniformFaults groups ∧
        (groups.flatMap AttributeGroup.faults = [] →
          ∀ g ∈ groups, g.tag = 0x04 → ¬ PairsConflict g.pairs))) := by
  refine ⟨fun groups' h => accepted_reordered h, ?_, orderFree_of_no_conflict hdistinct⟩
  intro hfree hheader
  exact ⟨uniformFaults_of_orderFree hheader hfree,
    fun hfaults => no_conflict_of_orderFree hheader hdistinct hfaults hfree⟩

/-- An attribute with one value. -/
def plainAttribute (name : List UInt8) (name_ne : name ≠ []) (name_lt : name.length < 2 ^ 16)
    (tag : UInt8) (tag_gt : 0x0F < tag.toNat) (bytes : List UInt8)
    (bytes_lt : bytes.length < 2 ^ 16) : Attribute :=
  ⟨name, name_ne, name_lt, ⟨tag, tag_gt, bytes, bytes_lt⟩, []⟩

/-- The name of a printer. -/
def plainName : Attribute :=
  plainAttribute (ascii "printer-name") (by decide) (by decide) 0x42 (by decide) (ascii "p")
    (by decide)

/-- A header of version 1.1 without an error. -/
def plainHeader : Vector UInt8 8 := #v[1, 1, 0, 0, 0, 0, 0, 1]

/-- A printer with the colour flag of which `color-supported` says that it has no colour. -/
def conflictingGroup : AttributeGroup :=
  .printer
    [plainName,
    plainAttribute (ascii "printer-type") (by decide) (by decide) 0x23 (by decide) [0, 0, 0, 4]
      (by decide),
    plainAttribute (ascii "color-supported") (by decide) (by decide) 0x22 (by decide) [0]
      (by decide)]

/-- A name that is not UTF-8, and a truth value of two bytes. -/
def faultyGroup : AttributeGroup :=
  .printer
    [plainAttribute (ascii "printer-name") (by decide) (by decide) 0x42 (by decide) [0xFF]
      (by decide),
    plainAttribute (ascii "color-supported") (by decide) (by decide) 0x22 (by decide) [0, 0]
      (by decide)]

/-- A printer with the colour flag of which `color-supported` says that it has colour. -/
def agreeingGroup : AttributeGroup :=
  .printer
    [plainName,
    plainAttribute (ascii "printer-type") (by decide) (by decide) 0x23 (by decide) [0, 0, 0, 4]
      (by decide),
    plainAttribute (ascii "color-supported") (by decide) (by decide) 0x22 (by decide) [1]
      (by decide)]

theorem agreeingGroup_order_free : AttributeOrderFree plainHeader [agreeingGroup] := by
  have hfaults : [agreeingGroup].flatMap AttributeGroup.faults = [] := by decide +kernel
  refine (attribute_order plainHeader [agreeingGroup] (by decide)).2.mpr fun _ => ?_
  exact ⟨uniformFaults_of_no_faults hfaults, fun _ => by decide⟩

/-- The order of the colours matters, and that of two values that fail. -/
theorem attribute_order_matters :
    (∀ g ∈ [conflictingGroup, faultyGroup], (g.attributes.map (·.name)).Nodup) ∧
      ¬ AttributeOrderFree plainHeader [conflictingGroup] ∧
      ¬ AttributeOrderFree plainHeader [faultyGroup] := by
  refine ⟨by decide, ?_, ?_⟩
  · intro hfree
    have hno := no_conflict_of_orderFree (by decide) (by decide) (by decide +kernel) hfree
    exact hno conflictingGroup (by simp) rfl (by decide)
  · intro hfree
    have huniform := uniformFaults_of_orderFree (by decide) hfree [] faultyGroup [] rfl rfl rfl
    have hmem : Errc.invalidEncoding ∈ faultyGroup.valueFaults ∧
        Errc.malformedData ∈ faultyGroup.valueFaults := by decide +kernel
    cases huniform _ hmem.1 _ hmem.2

end Responses

end Syscape.Ipp
