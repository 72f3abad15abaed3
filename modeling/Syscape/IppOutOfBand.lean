import Syscape.IppOrder

/-!
# Out-of-band values

An attribute without a value is written with one of the value tags for that and no bytes.
The parser does not look at the tag. It takes an empty text for a text, and refuses the
response for any other attribute that it knows.
-/
namespace Syscape.Ipp
open Checked Text Endian Printer LastValue

section Inserting
variable {α β : Type} {f : α → Option β} {t : α}

/-- An item that says nothing can be left out. -/
theorem lastOf_insert (h : f t = none) (l m : List α) :
    lastOf f (l ++ t :: m) = lastOf f (l ++ m) := by
  rw [lastOf_append, lastOf_append, lastOf_cons, h, Option.or_none]

theorem filterMap_insert (h : f t = none) (l m : List α) :
    (l ++ t :: m).filterMap f = (l ++ m).filterMap f := by
  rw [List.filterMap_append, List.filterMap_append, List.filterMap_cons_none h]

/-- An empty text can be left out if it does not hide another one. -/
theorem getD_lastOf_insert {f : α → Option (List UInt8)} (h : f t = some []) {l m : List α}
    (hhides : lastOf f m = none → (lastOf f l).getD [] = []) :
    (lastOf f (l ++ t :: m)).getD [] = (lastOf f (l ++ m)).getD [] := by
  rw [lastOf_append, lastOf_append, lastOf_cons, h]
  cases hm : lastOf f m with
  | some b => rfl
  | none => exact (hhides hm).symm

end Inserting

section Fields
open PrinterAttribute

/-- The texts that an empty value replaces. -/
def clearedNames : List (List UInt8) :=
  [ascii "printer-info", ascii "printer-location", ascii "printer-make-and-model",
    ascii "device-uri"]

/-- An empty value between others of its name is the last, and hides one that is not empty. -/
def Clears (name : List UInt8) (first rest : List (List UInt8 × List UInt8)) : Prop :=
  name ∈ clearedNames ∧ lastOf (valueUnder name) rest = none ∧
    (lastOf (valueUnder name) first).getD [] ≠ []

instance (name : List UInt8) (first rest : List (List UInt8 × List UInt8)) :
    Decidable (Clears name first rest) :=
  inferInstanceAs (Decidable (_ ∧ _ ∧ _))

/-- The fields that hold the value of one attribute as it is. -/
inductive TextField where
  | description
  | location
  | driverName
  | uri
  deriving DecidableEq, Repr

namespace TextField

def attributeName : TextField → List UInt8
  | description => ascii "printer-info"
  | location => ascii "printer-location"
  | driverName => ascii "printer-make-and-model"
  | uri => ascii "device-uri"

def valueOf : TextField → PrinterAttribute → Option (List UInt8)
  | description => descriptionOf
  | location => locationOf
  | driverName => driverNameOf
  | uri => uriOf

def get : TextField → PrinterInfo → List UInt8
  | description => (·.description)
  | location => (·.location)
  | driverName => (·.driverName)
  | uri => (·.uri)

theorem get_printerOf (field : TextField) (l : List PrinterAttribute) :
    field.get (printerOf l) = (lastOf field.valueOf l).getD [] := by
  cases field <;> rfl

theorem attributeName_mem (field : TextField) :
    field.attributeName ∈ clearedNames ∧ field.attributeName ∈ recognisedNames := by
  cases field <;> decide

theorem exists_attributeName : ∀ name ∈ clearedNames, ∃ field : TextField,
    field.attributeName = name := by
  intro name hname
  simp only [clearedNames, List.mem_cons, List.not_mem_nil, or_false] at hname
  rcases hname with rfl | rfl | rfl | rfl
  · exact ⟨description, rfl⟩
  · exact ⟨location, rfl⟩
  · exact ⟨driverName, rfl⟩
  · exact ⟨uri, rfl⟩

/-- The value of an attribute of the field's name, and of no other. -/
theorem valueOf_eq (field : TextField) (a : PrinterAttribute) :
    field.valueOf a = valueUnder field.attributeName (pairOf a) := by
  cases a with
  | unrecognised u =>
    have hne : ¬ u.name = field.attributeName := by
      intro hname
      exact u.not_mem (hname ▸ field.attributeName_mem.2)
    have hnone : field.valueOf (unrecognised u) = none := by cases field <;> rfl
    rw [hnone]
    exact (if_neg hne).symm
  | _ =>
    cases field
    all_goals
      first
      | exact (if_neg (by dsimp only [pairOf, PrinterAttribute.name, attributeName]; decide)).symm
      | exact (if_pos rfl).symm

theorem lastOf_valueOf (field : TextField) (l : List PrinterAttribute) :
    lastOf field.valueOf l = lastOf (valueUnder field.attributeName) (l.map pairOf) := by
  rw [lastOf_of_map]
  exact congrArg (lastOf · l) (funext field.valueOf_eq)

end TextField

/-- Apart from texts, the attribute says nothing. -/
structure Silent (a : PrinterAttribute) : Prop where
  name : nameOf a = none
  state : stateOf a = none
  isAcceptingJobs : isAcceptingJobsOf a = none
  isShared : isSharedOf a = none
  queuedJobCount : queuedJobCountOf a = none
  type : typeOf a = none
  color : colorOf a = none
  duplex : duplexOf a = none
  copies : copiesOf a = none
  collate : collateOf a = none
  maxCopies : maxCopiesOf a = none
  media : mediaOf a = none
  resolution : resolutionOf a = none

theorem textNames_recognised : ∀ name ∈ textNames, name ∈ recognisedNames := by
  decide +kernel

theorem silent_of_empty {t : PrinterAttribute} (hname : t.name ∈ textNames) (hvalue : t.value = []) :
    Silent t := by
  cases t with
  | printerName text =>
    constructor
    case name => exact if_pos hvalue
    all_goals rfl
  | mediaSupported text =>
    constructor
    case media => exact if_pos hvalue
    all_goals rfl
  | sidesSupported text =>
    constructor
    case duplex =>
      apply if_neg
      rw [show text.bytes = [] from hvalue]
      decide
    all_goals rfl
  | printerInfo text | printerLocation text | printerMakeAndModel text | deviceUri text =>
    constructor
    all_goals rfl
  | unrecognised u => exact absurd (textNames_recognised _ hname) u.not_mem
  | _ => exact absurd hname (by dsimp only [PrinterAttribute.name]; decide)

variable {t : PrinterAttribute} {l m : List PrinterAttribute}

/-- An empty text changes a field that holds a text only if it clears it. -/
theorem getD_valueOf_insert (hvalue : t.value = [])
    (hclears : ¬ Clears t.name (l.map pairOf) (m.map pairOf)) (field : TextField) :
    (lastOf field.valueOf (l ++ t :: m)).getD [] = (lastOf field.valueOf (l ++ m)).getD [] := by
  by_cases hname : t.name = field.attributeName
  · have ht : field.valueOf t = some [] := by
      rw [field.valueOf_eq]
      exact (if_pos hname).trans (congrArg some hvalue)
    apply getD_lastOf_insert ht
    intro hm
    by_contra hl
    apply hclears
    rw [hname, Clears, ← field.lastOf_valueOf, ← field.lastOf_valueOf]
    exact ⟨field.attributeName_mem.1, hm, hl⟩
  · have ht : field.valueOf t = none := by
      rw [field.valueOf_eq]
      exact if_neg hname
    rw [lastOf_insert ht]

/-- An empty text can be left out unless it clears a field. -/
theorem sameFields_insert (hname : t.name ∈ textNames) (hvalue : t.value = [])
    (hclears : ¬ Clears t.name (l.map pairOf) (m.map pairOf)) :
    SameFields (l ++ t :: m) (l ++ m) := by
  have h := silent_of_empty hname hvalue
  have htext := getD_valueOf_insert hvalue hclears
  exact
    { name := lastOf_insert h.name l m
      description := htext .description
      location := htext .location
      driverName := htext .driverName
      uri := htext .uri
      state := lastOf_insert h.state l m
      isAcceptingJobs := lastOf_insert h.isAcceptingJobs l m
      isShared := lastOf_insert h.isShared l m
      queuedJobCount := lastOf_insert h.queuedJobCount l m
      type := lastOf_insert h.type l m
      color := lastOf_insert h.color l m
      duplex := lastOf_insert h.duplex l m
      copies := lastOf_insert h.copies l m
      collate := lastOf_insert h.collate l m
      maxCopies := lastOf_insert h.maxCopies l m
      media := filterMap_insert h.media l m
      resolution := filterMap_insert h.resolution l m }

/-- An empty text changes the printer if and only if it clears a field. -/
theorem printerOf_insert_iff (hname : t.name ∈ textNames) (hvalue : t.value = []) :
    printerOf (l ++ t :: m) = printerOf (l ++ m) ↔
      ¬ Clears t.name (l.map pairOf) (m.map pairOf) := by
  constructor
  · rintro hsame ⟨hcleared, hm, hl⟩
    obtain ⟨field, hfield⟩ := TextField.exists_attributeName t.name hcleared
    have ht : field.valueOf t = some [] := by
      rw [field.valueOf_eq]
      exact (if_pos hfield.symm).trans (congrArg some hvalue)
    rw [← hfield, ← field.lastOf_valueOf] at hl hm
    have hget := congrArg field.get hsame
    rw [field.get_printerOf, field.get_printerOf, lastOf_append, lastOf_append, lastOf_cons, ht, hm,
      Option.none_or, Option.none_or, Option.some_or, Option.getD_some] at hget
    exact hl hget.symm
  · intro hclears
    exact (sameFields_insert hname hvalue hclears).printerOf_eq

end Fields

section Places

/-- An attribute that the parser knows, with an out-of-band value. -/
structure OutOfBand where
  name : List UInt8
  name_mem : name ∈ recognisedNames
  tag : UInt8
  tag_ge : 0x10 ≤ tag.toNat
  tag_le : tag.toNat ≤ 0x1F

theorem recognisedNames_size : ∀ name ∈ recognisedNames, name ≠ [] ∧ name.length < 2 ^ 16 := by
  decide +kernel

def OutOfBand.attribute (v : OutOfBand) : Attribute where
  name := v.name
  name_ne := (recognisedNames_size v.name v.name_mem).1
  name_lt := (recognisedNames_size v.name v.name_mem).2
  first := ⟨v.tag, v.tag_ge, [], by decide⟩
  additional := []

/-- A place for attributes in a printer group of a response. -/
structure Place where
  before : List AttributeGroup
  first : List Attribute
  rest : List Attribute
  after : List AttributeGroup

namespace Place

def group (p : Place) (attributes : List Attribute) : AttributeGroup :=
  .printer (p.first ++ attributes ++ p.rest)

def groups (p : Place) (attributes : List Attribute) : List AttributeGroup :=
  p.before ++ p.group attributes :: p.after

def firstPairs (p : Place) : List (List UInt8 × List UInt8) := p.first.flatMap Attribute.pairs

def restPairs (p : Place) : List (List UInt8 × List UInt8) := p.rest.flatMap Attribute.pairs

end Place

variable (p : Place) (v : OutOfBand)

theorem pairs_group_nil : (p.group []).pairs = p.firstPairs ++ p.restPairs := by
  simp [AttributeGroup.pairs, Place.group, Place.firstPairs, Place.restPairs]

theorem pairs_group_attribute :
    (p.group [v.attribute]).pairs = p.firstPairs ++ (v.name, []) :: p.restPairs := by
  simp [AttributeGroup.pairs, Place.group, Place.firstPairs, Place.restPairs, Attribute.pairs,
    Attribute.values, OutOfBand.attribute]

/-- No bytes are a value of a text only. -/
theorem validValue_nil :
    ∀ name ∈ recognisedNames, validValue name [] = decide (name ∈ textNames) := by
  decide +kernel

theorem valueFault_outOfBand :
    valueFault (v.name, []) = if v.name ∈ textNames then none else some .malformedData := by
  rw [valueFault, validValue_nil v.name v.name_mem]
  by_cases htext : v.name ∈ textNames
  · rw [if_pos htext, if_pos (decide_eq_true htext)]
  · rw [if_neg htext, if_neg (by simpa using htext), nameErrc, if_neg htext]

theorem valueFaults_group_nil :
    (p.group []).valueFaults =
      p.firstPairs.filterMap valueFault ++ p.restPairs.filterMap valueFault := by
  rw [AttributeGroup.valueFaults, pairs_group_nil, List.filterMap_append]

theorem valueFaults_group_attribute :
    (p.group [v.attribute]).valueFaults =
      p.firstPairs.filterMap valueFault ++
        ((valueFault (v.name, [])).toList ++ p.restPairs.filterMap valueFault) := by
  rw [AttributeGroup.valueFaults, pairs_group_attribute, List.filterMap_append, List.filterMap_cons]
  cases valueFault (v.name, []) <;> rfl

/-- An empty name is no name. -/
theorem named_group : Named (p.group [v.attribute]).pairs ↔ Named (p.group []).pairs := by
  rw [pairs_group_nil, pairs_group_attribute]
  constructor
  · rintro ⟨pair, hpair, hname, hne⟩
    refine ⟨pair, ?_, hname, hne⟩
    rcases List.mem_append.mp hpair with h | h
    · exact List.mem_append_left _ h
    · rcases List.mem_cons.mp h with rfl | h
      · exact absurd rfl hne
      · exact List.mem_append_right _ h
  · rintro ⟨pair, hpair, hname, hne⟩
    refine ⟨pair, ?_, hname, hne⟩
    rcases List.mem_append.mp hpair with h | h
    · exact List.mem_append_left _ h
    · exact List.mem_append_right _ (List.mem_cons_of_mem _ h)

theorem faults_group (attributes : List Attribute) :
    (p.group attributes).faults =
      (p.group attributes).valueFaults ++
        if (p.group attributes).pairs ≠ [] ∧ ¬ Named (p.group attributes).pairs then [.malformedData]
        else [] :=
  if_pos rfl

/-- An empty text is no fault in a group with other attributes. -/
theorem faults_group_text (htext : v.name ∈ textNames) (hne : (p.group []).attributes ≠ []) :
    (p.group [v.attribute]).faults = (p.group []).faults := by
  have hfault : valueFault (v.name, []) = none := by rw [valueFault_outOfBand, if_pos htext]
  have hpairs : (p.group []).pairs ≠ [] := by rwa [ne_eq, AttributeGroup.pairs_eq_nil_iff]
  have hpairs' : (p.group [v.attribute]).pairs ≠ [] := by
    rw [pairs_group_attribute]
    simp
  have hunnamed : ((p.group [v.attribute]).pairs ≠ [] ∧ ¬ Named (p.group [v.attribute]).pairs) ↔
      ((p.group []).pairs ≠ [] ∧ ¬ Named (p.group []).pairs) := by
    rw [named_group]
    simp [hpairs, hpairs']
  have hvalues : (p.group [v.attribute]).valueFaults = (p.group []).valueFaults := by
    rw [valueFaults_group_attribute, valueFaults_group_nil, hfault, Option.toList_none,
      List.nil_append]
  rw [faults_group, faults_group, hvalues]
  simp only [hunnamed]

/-- Otherwise the value is a fault, or leaves the group without a name. -/
theorem faults_group_fault (hfirst : p.firstPairs.filterMap valueFault = [])
    (h : ¬ (v.name ∈ textNames ∧ (p.group []).attributes ≠ [])) :
    (p.group [v.attribute]).faults.head? = some .malformedData := by
  rw [faults_group, valueFaults_group_attribute, hfirst, List.nil_append,
    valueFault_outOfBand]
  by_cases htext : v.name ∈ textNames
  · have hnil : (p.group []).pairs = [] := by
      rw [AttributeGroup.pairs_eq_nil_iff]
      by_contra hne
      exact h ⟨htext, hne⟩
    have hunnamed : ¬ Named (p.group [v.attribute]).pairs := by
      rw [named_group, hnil]
      rintro ⟨pair, hpair, -⟩
      cases hpair
    have hpairs : (p.group [v.attribute]).pairs ≠ [] := by
      rw [pairs_group_attribute]
      simp
    rw [pairs_group_nil, List.append_eq_nil_iff] at hnil
    rw [if_pos htext, Option.toList_none, List.nil_append, hnil.2, List.filterMap_nil, List.nil_append,
      if_pos ⟨hpairs, hunnamed⟩, List.head?_cons]
  · rw [if_neg htext]
    rfl

end Places

section Responses
variable (header : Vector UInt8 8) (p : Place) (v : OutOfBand)

/-- The faults in front of the place. -/
def Place.earlierFaults : List Errc :=
  p.before.flatMap AttributeGroup.faults ++ p.firstPairs.filterMap valueFault

/-- The value gives the same result as no attribute. -/
def OutOfBandIgnored : Prop :=
  parseIppPrintersResponse (responseBytes header.toList (p.groups [v.attribute])) =
    parseIppPrintersResponse (responseBytes header.toList (p.groups []))

/-- The response is refused before the value is reached; or the value is a text beside other
attributes, and the response is refused anyway or the text clears no field; or the response
without the attribute is refused with the same error. -/
def Harmless : Prop :=
  checkHeader header.toList = .ok () → p.earlierFaults = [] →
    if v.name ∈ textNames ∧ (p.group []).attributes ≠ [] then
      (p.groups []).flatMap AttributeGroup.faults = [] →
        ¬ Clears v.name p.firstPairs p.restPairs
    else ((p.groups []).flatMap AttributeGroup.faults).head? = some .malformedData

theorem faults_groups (attributes : List Attribute) :
    (p.groups attributes).flatMap AttributeGroup.faults =
      p.before.flatMap AttributeGroup.faults ++ ((p.group attributes).faults ++
        p.after.flatMap AttributeGroup.faults) := by
  rw [Place.groups, List.flatMap_append, List.flatMap_cons]

/-- Faults in front of the place decide. -/
theorem head_faults_groups {e : Errc} (h : p.earlierFaults.head? = some e)
    (attributes : List Attribute) :
    ((p.groups attributes).flatMap AttributeGroup.faults).head? = some e := by
  rw [Place.earlierFaults, List.head?_append] at h
  rw [faults_groups, List.head?_append]
  cases hbefore : (p.before.flatMap AttributeGroup.faults).head? with
  | some e' =>
    rw [hbefore] at h
    rwa [Option.some_or] at h ⊢
  | none =>
    rw [hbefore, Option.none_or] at h
    have hvalues : (p.group attributes).valueFaults.head? = some e := by
      have hpairs : (p.group attributes).pairs =
          p.firstPairs ++ (attributes ++ p.rest).flatMap Attribute.pairs := by
        simp [AttributeGroup.pairs, Place.group, Place.firstPairs]
      rw [AttributeGroup.valueFaults, hpairs, List.filterMap_append, List.head?_append, h,
        Option.some_or]
    rw [Option.none_or, faults_group, List.append_assoc, List.head?_append,
      hvalues, Option.some_or]

/-- The group gives the printer of its attributes. -/
theorem groupResult_group {attributes : List Attribute} {l : List PrinterAttribute}
    (hfaults : (p.group attributes).faults = []) (hpairs : l.map pairOf = (p.group attributes).pairs)
    (hne : (p.group attributes).pairs ≠ []) :
    groupResult (p.group attributes) = .ok (some (printerOf l)) := by
  rw [groupResult_printer rfl hfaults hpairs, if_neg]
  rintro rfl
  exact hne hpairs.symm

/-- Without faults, a text beside other attributes is ignored unless it clears a field. -/
theorem interpret_text_iff (htext : v.name ∈ textNames) (hne : (p.group []).attributes ≠ [])
    (hfaults : (p.groups []).flatMap AttributeGroup.faults = []) :
    interpret (p.groups [v.attribute]) = interpret (p.groups []) ↔
      ¬ Clears v.name p.firstPairs p.restPairs := by
  have hfaults' := hfaults
  rw [faults_groups, List.append_eq_nil_iff, List.append_eq_nil_iff] at hfaults'
  obtain ⟨hbefore, hgroup, hafter⟩ := hfaults'
  have hgroup' : (p.group [v.attribute]).faults = [] := by
    rw [faults_group_text p v htext hne, hgroup]
  have hvalues := valueFaults_eq_nil hgroup rfl
  rw [valueFaults_group_nil, List.append_eq_nil_iff] at hvalues
  have hsize := (p.group []).size_pairs
  rw [pairs_group_nil] at hsize
  obtain ⟨l, hl⟩ := exists_attributes (fun q hq => hsize q (List.mem_append_left _ hq)) hvalues.1
  obtain ⟨m, hm⟩ := exists_attributes (fun q hq => hsize q (List.mem_append_right _ hq)) hvalues.2
  have hvalid : validValue v.name [] = true := by
    rw [validValue_nil v.name v.name_mem]
    exact decide_eq_true htext
  obtain ⟨t, htname, htvalue⟩ := exists_attribute v.attribute.name_ne v.attribute.name_lt
    (by decide) hvalid
  have htpair : pairOf t = (v.name, []) := by rw [pairOf, htname, htvalue]; rfl
  have hnone : groupResult (p.group []) = .ok (some (printerOf (l ++ m))) := by
    apply groupResult_group p hgroup
    · rw [List.map_append, hl, hm, pairs_group_nil]
    · rwa [ne_eq, AttributeGroup.pairs_eq_nil_iff]
  have hsome : groupResult (p.group [v.attribute]) = .ok (some (printerOf (l ++ t :: m))) := by
    apply groupResult_group p hgroup'
    · rw [List.map_append, List.map_cons, hl, hm, htpair, pairs_group_attribute]
    · rw [pairs_group_attribute]
      simp
  obtain ⟨printers, hprinters⟩ := interpret_ok hbefore
  obtain ⟨more, hmore⟩ := interpret_ok hafter
  have hprinter : interpret (p.groups [v.attribute]) = interpret (p.groups []) ↔
      printerOf (l ++ t :: m) = printerOf (l ++ m) := by
    rw [Place.groups, Place.groups, interpret_append, interpret_append, hprinters, ok_bind, ok_bind,
      interpret, interpret, hsome, hnone, ok_bind, ok_bind, hmore, ok_bind, ok_bind, ok_bind, ok_bind]
    simp
  have htname' : t.name = v.name := htname
  rw [hprinter, printerOf_insert_iff (by rwa [htname']) htvalue, hl, hm, htname']

/-- An out-of-band value is ignored if and only if it is harmless. -/
theorem out_of_band_iff : OutOfBandIgnored header p v ↔ Harmless header p v := by
  unfold OutOfBandIgnored Harmless
  rw [parse_groups, parse_groups]
  cases hheader : checkHeader header.toList with
  | error e => simp
  | ok u =>
    rw [ok_bind, ok_bind]
    cases hearlier : p.earlierFaults with
    | cons e more =>
      have hhead : p.earlierFaults.head? = some e := by rw [hearlier, List.head?_cons]
      rw [interpret_fault (head_faults_groups p hhead _),
        interpret_fault (head_faults_groups p hhead _)]
      simp
    | nil =>
      have hfirst := hearlier
      rw [Place.earlierFaults, List.append_eq_nil_iff] at hfirst
      simp only [true_implies]
      split_ifs with htext
      · have hfaults : (p.groups [v.attribute]).flatMap AttributeGroup.faults =
            (p.groups []).flatMap AttributeGroup.faults := by
          rw [faults_groups, faults_groups, faults_group_text p v htext.1 htext.2]
        cases hcase : (p.groups []).flatMap AttributeGroup.faults with
        | nil =>
          rw [interpret_text_iff p v htext.1 htext.2 hcase]
          simp
        | cons e more =>
          have hhead : ((p.groups []).flatMap AttributeGroup.faults).head? = some e := by
            rw [hcase, List.head?_cons]
          rw [interpret_fault hhead, interpret_fault (hfaults ▸ hhead)]
          simp
      · have hmalformed : interpret (p.groups [v.attribute]) = fail .malformedData := by
          apply interpret_fault
          rw [faults_groups, hfirst.1, List.nil_append, List.head?_append,
            faults_group_fault p v hfirst.2 htext, Option.some_or]
        rw [hmalformed]
        cases hcase : (p.groups []).flatMap AttributeGroup.faults with
        | nil =>
          obtain ⟨printers, hprinters⟩ := interpret_ok hcase
          rw [hprinters]
          simp [fail]
        | cons e more =>
          rw [interpret_fault (by rw [hcase, List.head?_cons])]
          simp [fail, eq_comm]

/-- A printer that has a name. -/
def namedPrinter : Place where
  before := []
  first := [plainName]
  rest := []
  after := []

/-- The printer's state has no value. -/
def noState : OutOfBand where
  name := ascii "printer-state"
  name_mem := by decide
  tag := 0x13
  tag_ge := by decide
  tag_le := by decide

/-- A state without a value makes the response malformed, which is accepted without it. -/
theorem no_state_refused :
    parseIppPrintersResponse
        (responseBytes plainHeader.toList (namedPrinter.groups [noState.attribute])) =
      fail .malformedData ∧
      ¬ OutOfBandIgnored plainHeader namedPrinter noState := by
  have hheader : checkHeader plainHeader.toList = .ok () := by decide
  have hrefused : parseIppPrintersResponse
      (responseBytes plainHeader.toList (namedPrinter.groups [noState.attribute])) =
        fail .malformedData := by
    rw [parse_groups_ok hheader]
    exact interpret_fault (by decide +kernel)
  refine ⟨hrefused, ?_⟩
  intro hignored
  obtain ⟨printers, hprinters⟩ := @interpret_ok (namedPrinter.groups []) (by decide +kernel)
  rw [OutOfBandIgnored, hrefused, parse_groups_ok hheader, hprinters] at hignored
  exact fail_ne_ok _ _ hignored

end Responses

end Syscape.Ipp
