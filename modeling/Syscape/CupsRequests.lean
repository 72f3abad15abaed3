import Syscape.IppGroups

/-!
# The requests to the print daemon

`build_get_printers_request` and `build_get_default_request` ask for the attributes that the
parser of the response looks for. A daemon may leave out every other attribute, and the
response means the same; it may leave out none that is asked for.
-/
namespace Syscape.Ipp
open Checked Text Endian Printer

section Building

/-- The names in `append_requested_attributes`. -/
def requestedNames : List (List UInt8) :=
  [ascii "printer-name", ascii "printer-info", ascii "printer-location",
    ascii "printer-make-and-model", ascii "device-uri", ascii "printer-state",
    ascii "printer-is-accepting-jobs", ascii "printer-is-shared", ascii "queued-job-count",
    ascii "color-supported", ascii "printer-type", ascii "media-supported",
    ascii "printer-resolution-supported", ascii "copies-supported", ascii "sides-supported"]

/-- The body of the loop in `append_requested_attributes`: the buffer, and `first`. -/
def appendRequested (s : List UInt8 × Bool) (name : List UInt8) : List UInt8 × Bool :=
  (appendStringAttr s.1 0x44 (if s.2 then ascii "requested-attributes" else []) name, false)

/-- `append_requested_attributes`. -/
def appendRequestedAttributes (req : List UInt8) : List UInt8 :=
  (requestedNames.foldl appendRequested (req, true)).1

/-- What both requests do, for an operation. -/
def buildRequest (operation requestId : ℕ) : List UInt8 :=
  let req := appendUint32 (appendUint16 [0x02, 0x00] operation) requestId ++ [0x01]
  let req := appendStringAttr req 0x47 (ascii "attributes-charset") (ascii "utf-8")
  let req := appendStringAttr req 0x48 (ascii "attributes-natural-language") (ascii "en")
  appendRequestedAttributes req ++ [0x03]

/-- `build_get_printers_request`. -/
def buildGetPrintersRequest (requestId : ℕ) : List UInt8 := buildRequest 0x4002 requestId

/-- `build_get_default_request`. -/
def buildGetDefaultRequest (requestId : ℕ) : List UInt8 := buildRequest 0x4001 requestId

end Building

section Encoding

/-- One of the attributes of a request. -/
theorem appendStringAttr_eq (buf : List UInt8) (tag : UInt8) (name val : List UInt8) :
    appendStringAttr buf tag name val = buf ++ appendStringAttr [] tag name val := by
  simp only [appendStringAttr, appendUint16_eq, List.append_assoc, List.nil_append]

/-- Values that are appended with one name are one attribute. -/
theorem exists_appendedAttribute {tag : UInt8} (htag : 0x0F < tag.toNat) {name first : List UInt8}
    {more : List (List UInt8)} (hne : name ≠ []) (hname : name.length < 2 ^ 16)
    (hvalues : ∀ v ∈ first :: more, v.length < 2 ^ 16) :
    ∃ a : Attribute, a.pairs = (first :: more).map (fun v => (name, v)) ∧
      a.wires.flatMap (·.bytes) = appendStringAttr [] tag name first ++
        more.flatMap fun v => appendStringAttr [] tag [] v := by
  have hmore : ∀ v ∈ more, v.length < 2 ^ 16 := fun v hv => hvalues v (by simp [hv])
  let valueOf (v : { v // v ∈ more }) : AttributeValue := ⟨tag, htag, v.1, hmore v.1 v.2⟩
  refine ⟨⟨name, hne, hname, ⟨tag, htag, first, hvalues first (by simp)⟩,
    more.attach.map valueOf⟩, ?_, ?_⟩
  · simp [Attribute.pairs, Attribute.values, valueOf, List.map_map, Function.comp_def]
  · simp [Attribute.wires, Attribute.wire, WireAttribute.bytes, WireAttribute.writtenName, valueOf,
      List.flatMap_map]

/-- The names behind the first one are appended without the name of the attribute. -/
theorem foldl_appendRequested (names : List (List UInt8)) (buf : List UInt8) :
    (names.foldl appendRequested (buf, false)).1 =
      buf ++ names.flatMap fun v => appendStringAttr [] 0x44 [] v := by
  induction names generalizing buf with
  | nil => simp
  | cons name names ih =>
    rw [List.foldl_cons, appendRequested]
    dsimp only
    rw [if_neg (by decide), ih, appendStringAttr_eq buf, List.flatMap_cons, List.append_assoc]

/-- The attributes of a request, name by name. -/
def requestPairs : List (List UInt8 × List UInt8) :=
  [(ascii "attributes-charset", ascii "utf-8"), (ascii "attributes-natural-language", ascii "en")] ++
    requestedNames.map fun name => (ascii "requested-attributes", name)

/-- A request is written as a response is: a header, one group, and the end tag. -/
theorem buildRequest_bytes (operation requestId : ℕ) :
    ∃ g : AttributeGroup, g.tag = 0x01 ∧ g.pairs = requestPairs ∧
      buildRequest operation requestId =
        responseBytes ([0x02, 0x00] ++ encode .big 2 operation ++ encode .big 4 requestId) [g] := by
  obtain ⟨charset, hcharset, hcharsetBytes⟩ := @exists_appendedAttribute 0x47 (by decide)
    (ascii "attributes-charset") (ascii "utf-8") [] (by decide) (by decide) (by decide)
  obtain ⟨language, hlanguage, hlanguageBytes⟩ := @exists_appendedAttribute 0x48 (by decide)
    (ascii "attributes-natural-language") (ascii "en") [] (by decide) (by decide) (by decide)
  obtain ⟨requested, hrequested, hrequestedBytes⟩ := @exists_appendedAttribute 0x44 (by decide)
    (ascii "requested-attributes") (ascii "printer-name") requestedNames.tail (by decide)
    (by decide) (by decide)
  refine ⟨⟨0x01, by decide, by decide, [charset, language, requested]⟩, rfl, ?_, ?_⟩
  · simp only [AttributeGroup.pairs, List.flatMap_cons, List.flatMap_nil, hcharset, hlanguage,
      hrequested]
    rfl
  · simp only [responseBytes, AttributeGroup.bytes, AttributeGroup.wires, List.flatMap_cons,
      List.flatMap_nil, List.flatMap_append, hcharsetBytes, hlanguageBytes, hrequestedBytes]
    have hfirst : requestedNames = ascii "printer-name" :: requestedNames.tail := rfl
    rw [buildRequest, appendRequestedAttributes, hfirst, List.foldl_cons, appendRequested]
    dsimp only
    rw [if_pos rfl, foldl_appendRequested]
    rw [appendStringAttr_eq _ 0x44, appendStringAttr_eq _ 0x48, appendStringAttr_eq _ 0x47,
      appendUint32_eq, appendUint16_eq]
    simp only [List.append_assoc, List.append_nil, List.cons_append, List.nil_append]
    rfl

end Encoding

section Filtering
variable {g : AttributeGroup} {groups : List AttributeGroup}

/-- The group without some of its attributes. -/
def AttributeGroup.keep (g : AttributeGroup) (kept : List UInt8 → Bool) : AttributeGroup :=
  { g with attributes := g.attributes.filter fun a => kept a.name }

/-- The group of a daemon that leaves out what is not asked for. -/
def AttributeGroup.requested (g : AttributeGroup) : AttributeGroup :=
  g.keep fun name => requestedNames.contains name

/-- A group is empty, or something in it is asked for. -/
def AttributeGroup.Answering (g : AttributeGroup) : Prop :=
  g.attributes = [] ∨ ∃ a ∈ g.attributes, a.name ∈ requestedNames

/-- An attribute that is not asked for changes nothing, and cannot fail. -/
theorem decodeAttribute_other {name : List UInt8} (h : name ∉ requestedNames) (val : List UInt8)
    (p : PrinterInfo) : decodeAttribute name val p = .ok p := by
  simp only [requestedNames, List.mem_cons, List.not_mem_nil, or_false, not_or] at h
  unfold decodeAttribute
  simp only [h, if_false]

theorem pairs_keep (g : AttributeGroup) (kept : List UInt8 → Bool) :
    (g.keep kept).pairs = g.pairs.filter fun pair => kept pair.1 := by
  simp only [AttributeGroup.keep, AttributeGroup.pairs]
  induction g.attributes with
  | nil => rfl
  | cons a attributes ih =>
    have hall : ∀ pair ∈ a.pairs, pair.1 = a.name := by
      intro pair hpair
      obtain ⟨v, -, rfl⟩ := List.mem_map.mp hpair
      rfl
    rw [List.flatMap_cons, List.filter_append, ← ih, List.filter_cons]
    by_cases ha : kept a.name = true
    · have hself : a.pairs.filter (fun pair => kept pair.1) = a.pairs := by
        rw [List.filter_eq_self]
        intro pair hpair
        rw [hall pair hpair, ha]
      rw [if_pos ha, List.flatMap_cons, hself]
    · have hnone : a.pairs.filter (fun pair => kept pair.1) = [] := by
        rw [List.filter_eq_nil_iff]
        intro pair hpair
        rwa [hall pair hpair]
      rw [if_neg ha, hnone, List.nil_append]

theorem decodePairs_requested (pairs : List (List UInt8 × List UInt8)) (p : PrinterInfo) :
    decodePairs (pairs.filter fun pair => requestedNames.contains pair.1) p =
      decodePairs pairs p := by
  induction pairs generalizing p with
  | nil => rfl
  | cons pair pairs ih =>
    unfold decodePairs at ih ⊢
    by_cases hmem : requestedNames.contains pair.1 = true
    · rw [List.filter_cons, if_pos hmem, List.foldlM_cons, List.foldlM_cons]
      cases decodeAttribute pair.1 pair.2 p with
      | error e => rfl
      | ok p' => exact ih p'
    · have hother : pair.1 ∉ requestedNames := by simpa using hmem
      rw [List.filter_cons, if_neg hmem, List.foldlM_cons, decodeAttribute_other hother, ok_bind, ih]

theorem groupResult_requested (h : g.Answering) : groupResult g.requested = groupResult g := by
  have hnil : g.requested.pairs = [] ↔ g.pairs = [] := by
    rw [AttributeGroup.pairs_eq_nil_iff, AttributeGroup.pairs_eq_nil_iff]
    rcases h with hnone | ⟨a, ha, hmem⟩
    · simp [AttributeGroup.requested, AttributeGroup.keep, hnone]
    · have hkept : a ∈ g.requested.attributes := List.mem_filter.mpr ⟨ha, by simpa using hmem⟩
      exact iff_of_false (List.ne_nil_of_mem hkept) (List.ne_nil_of_mem ha)
  have htag : g.requested.tag = g.tag := rfl
  have hdecode : decodePairs g.requested.pairs {} = decodePairs g.pairs {} := by
    rw [AttributeGroup.requested, pairs_keep, decodePairs_requested]
  unfold groupResult
  rw [htag, hdecode]
  simp only [ne_eq, hnil]

theorem interpret_requested (h : ∀ g ∈ groups, g.Answering) :
    interpret (groups.map AttributeGroup.requested) = interpret groups := by
  induction groups with
  | nil => rfl
  | cons g groups ih =>
    rw [List.map_cons, interpret, interpret, groupResult_requested (h g List.mem_cons_self),
      ih fun g' hg' => h g' (List.mem_cons_of_mem _ hg')]

end Filtering

section Necessity

/-- What the attributes other than the name say about a printer, without its type. -/
def shown (p : PrinterInfo) : PrinterInfo :=
  { p with id := [], name := [], type := .unknown }

theorem shown_completePrinter (p : PrinterInfo) : shown (completePrinter p) = shown p := by
  unfold completePrinter
  dsimp only
  split_ifs <;> rfl

/-- A value of an attribute that is asked for. -/
def sampleValue (name : List UInt8) : List UInt8 :=
  if name = ascii "printer-state" ∨ name = ascii "queued-job-count" ∨ name = ascii "copies-supported"
  then [0, 0, 0, 3]
  else if name = ascii "printer-type" then [0, 0, 0, 4]
  else if name = ascii "printer-resolution-supported" then [0, 0, 1, 0, 0, 0, 1, 0, 3]
  else if name = ascii "printer-is-accepting-jobs" ∨ name = ascii "printer-is-shared" ∨
    name = ascii "color-supported" then [1]
  else ascii "two-sided"

/-- A printer of which only the name is known. -/
def plainPrinter : PrinterInfo := { id := ascii "a", name := ascii "a" }

/-- Whether the sample of an attribute changes what is shown of that printer. -/
def sampleShown (name : List UInt8) : Bool :=
  match decodeAttribute name (sampleValue name) plainPrinter with
  | .ok p => shown p ≠ shown plainPrinter ∧ p.id = ascii "a" ∧ p.name = ascii "a"
  | .error _ => false

theorem sampleShown_requested : ∀ name ∈ requestedNames.tail, sampleShown name = true := by
  decide +kernel

theorem exists_sample {name : List UInt8} (h : name ∈ requestedNames.tail) :
    ∃ p, decodeAttribute name (sampleValue name) plainPrinter = .ok p ∧
      shown p ≠ shown plainPrinter ∧ p.id ≠ [] ∧ p.name ≠ [] := by
  have hshown := sampleShown_requested name h
  unfold sampleShown at hshown
  split at hshown
  · next p hp =>
    obtain ⟨hne, hid, hname⟩ := of_decide_eq_true hshown
    exact ⟨p, hp, hne, by rw [hid]; decide, by rw [hname]; decide⟩
  · cases hshown

theorem lengths_requested : ∀ name ∈ requestedNames,
    name ≠ [] ∧ name.length < 2 ^ 16 ∧ (sampleValue name).length < 2 ^ 16 := by
  decide +kernel

/-- The result of a printer group with these attributes. -/
theorem groupResult_named {attributes : List Attribute} {p : PrinterInfo}
    (hdecode : decodePairs (AttributeGroup.printer attributes).pairs {} = .ok p)
    (hid : p.id ≠ []) : groupResult (.printer attributes) = .ok (some (completePrinter p)) := by
  have htag : (AttributeGroup.printer attributes).tag = 0x04 := rfl
  rw [groupResult, htag, if_pos rfl, hdecode, ok_bind, finishPrinter, if_neg (by simp [hid]),
    if_pos (.inl hid)]

theorem keep_printer (attributes : List Attribute) (kept : List UInt8 → Bool) :
    (AttributeGroup.printer attributes).keep kept =
      .printer (attributes.filter fun a => kept a.name) := rfl

/-- A printer group can mean something else without an attribute that is asked for. -/
theorem exists_needed {name : List UInt8} (h : name ∈ requestedNames) :
    ∃ (g : AttributeGroup) (p : PrinterInfo) (q : Option PrinterInfo),
      groupResult g = .ok (some p) ∧ groupResult (g.keep fun other => other != name) = .ok q ∧
        q ≠ some p := by
  obtain ⟨named, hnamed, -⟩ := @exists_appendedAttribute 0x42 (by decide) (ascii "printer-name")
    (ascii "a") [] (by decide) (by decide) (by decide)
  have hnamedName : named.name = ascii "printer-name" := 
    (Prod.mk.inj (List.cons.inj hnamed).1).1
  have hplain : decodePairs (AttributeGroup.printer [named]).pairs {} = .ok plainPrinter := by
    rw [AttributeGroup.pairs, AttributeGroup.attributes_printer, List.flatMap_singleton, hnamed]
    decide +kernel
  have hplainResult := groupResult_named hplain (by decide)
  rcases List.mem_cons.mp h with rfl | htail
  · -- without its name, nothing is known of the printer
    refine ⟨.printer [named], _, none, hplainResult, ?_, by simp⟩
    rw [keep_printer, List.filter_cons, hnamedName]
    rfl
  · obtain ⟨hne, hname, hvalue⟩ := lengths_requested name h
    obtain ⟨sample, hsample, -⟩ := @exists_appendedAttribute 0x42 (by decide) name (sampleValue name) []
      hne hname (by simpa using hvalue)
    have hsampleName : sample.name = name := 
      (Prod.mk.inj (List.cons.inj hsample).1).1
    obtain ⟨p, hp, hshown, hid, -⟩ := exists_sample htail
    have hdecode : decodePairs (AttributeGroup.printer [named, sample]).pairs {} = .ok p := by
      rw [AttributeGroup.pairs, AttributeGroup.attributes_printer, List.flatMap_singleton] at hplain
      rw [AttributeGroup.pairs, AttributeGroup.attributes_printer, List.flatMap_cons,
        List.flatMap_singleton, hsample, decodePairs, List.foldlM_append]
      rw [decodePairs] at hplain
      rw [hplain, ok_bind, List.map_singleton, List.foldlM_cons, hp, ok_bind, List.foldlM_nil]
      rfl
    refine ⟨.printer [named, sample], _, some (completePrinter plainPrinter),
      groupResult_named hdecode hid, ?_, ?_⟩
    · have hother : ascii "printer-name" ≠ name := by
        rintro rfl
        exact absurd htail (by decide)
      rw [keep_printer, List.filter_cons, List.filter_cons, hnamedName, hsampleName,
        if_pos (by simpa using hother), if_neg (by simp), List.filter_nil, hplainResult]
    · intro heq
      have hsame := congrArg shown (Option.some.inj heq)
      rw [shown_completePrinter, shown_completePrinter] at hsame
      exact hshown hsame.symm

end Necessity

section Requests

/-- The header of a successful response. -/
def successHeader : List UInt8 := [0x02, 0x00, 0x00, 0x00, 0x00, 0x00, 0x00, 0x01]

theorem parse_success (groups : List AttributeGroup) :
    parseIppPrintersResponse (responseBytes successHeader groups) = interpret groups := by
  have hcheck : checkHeader successHeader = .ok () := by decide +kernel
  rw [parse_responseBytes rfl, hcheck, ok_bind]

end Requests

end Syscape.Ipp
