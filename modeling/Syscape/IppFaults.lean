import Syscape.IppGroups
import Syscape.Utf8Text

/-!
# Faults of IPP responses

Which values the parser can decode is known from the name and the bytes alone, and so is
the error of those that it cannot. A group has a fault for each such value, and one if it
names no printer; an unknown group is one fault. The first fault of a response is its error,
and without faults each group gives the printer that its attributes describe.
-/
namespace Syscape.Ipp
open Checked Text Endian Printer Utf8 LastValue

section Values

/-- The attributes whose values are texts. -/
def textNames : List (List UInt8) :=
  [ascii "printer-name", ascii "printer-info", ascii "printer-location",
    ascii "printer-make-and-model", ascii "device-uri", ascii "media-supported",
    ascii "sides-supported"]

/-- The attributes whose values are numbers that are not negative. -/
def integerNames : List (List UInt8) := [ascii "printer-state", ascii "queued-job-count"]

/-- The attributes whose values are truth values. -/
def booleanNames : List (List UInt8) :=
  [ascii "printer-is-accepting-jobs", ascii "printer-is-shared", ascii "color-supported"]

/-- The bytes are a positive number of 31 bits. -/
def isPositive (bytes : List UInt8) : Bool := 0 < value .big bytes ∧ value .big bytes < 2 ^ 31

/-- The bytes are two numbers and a unit. -/
def isResolution (bytes : List UInt8) : Bool :=
  bytes.length = 9 ∧ isPositive (bytes.take 4) ∧ isPositive ((bytes.drop 4).take 4) ∧
    (bytes.drop 8 = [3] ∨ bytes.drop 8 = [4])

/-- The bytes are a number, or a range of numbers. -/
def isCopies (bytes : List UInt8) : Bool :=
  (bytes.length = 4 ∧ isPositive bytes) ∨
    (bytes.length = 8 ∧ isPositive (bytes.take 4) ∧ isPositive (bytes.drop 4) ∧
      value .big (bytes.take 4) ≤ value .big (bytes.drop 4))

/-- The bytes are a value that the attribute can have. -/
def validValue (name bytes : List UInt8) : Bool :=
  if name ∈ textNames then isValidUtf8 bytes = .ok true
  else if name ∈ integerNames then bytes.length = 4 ∧ value .big bytes < 2 ^ 31
  else if name ∈ booleanNames then bytes = [0] ∨ bytes = [1]
  else if name = ascii "printer-type" then bytes.length = 4
  else if name = ascii "printer-resolution-supported" then isResolution bytes
  else if name = ascii "copies-supported" then isCopies bytes
  else true

theorem recognisedNames_cases : ∀ name ∈ recognisedNames, name ∈ textNames ∨ name ∈ integerNames ∨
    name ∈ booleanNames ∨ name = ascii "printer-type" ∨
    name = ascii "printer-resolution-supported" ∨ name = ascii "copies-supported" := by
  decide +kernel

/-- The error of a value that is not valid. -/
def nameErrc (name : List UInt8) : Errc :=
  if name ∈ textNames then .invalidEncoding else .malformedData

def valueFault (pair : List UInt8 × List UInt8) : Option Errc :=
  if validValue pair.1 pair.2 then none else some (nameErrc pair.1)

variable {bytes : List UInt8}

theorem wordValue_eq (h : bytes.length = 4) : wordValue bytes = .ok (value .big bytes) := by
  have hread := @readUint32_append [] bytes [] h
  rw [List.nil_append, List.append_nil, List.length_nil] at hread
  rw [wordValue, if_neg (by omega), hread]
  rfl

theorem integerValue_invalid (h : ¬ (bytes.length = 4 ∧ value .big bytes < 2 ^ 31)) :
    integerValue bytes = fail .malformedData := by
  by_cases hlen : bytes.length = 4
  · rw [integerValue, wordValue_eq hlen, ok_bind]
    apply if_pos
    have hge : ¬ value .big bytes < 2 ^ 31 := fun hlt => h ⟨hlen, hlt⟩
    omega
  · rw [integerValue, wordValue, if_pos hlen, fail_bind]

theorem booleanValue_invalid (h : ¬ (bytes = [0] ∨ bytes = [1])) :
    booleanValue bytes = fail .malformedData := by
  unfold booleanValue
  match bytes with
  | [] => rfl
  | [b] =>
    have hb : b.toNat > 1 := by
      by_contra hle
      apply h
      have hcases : b.toNat = (0 : UInt8).toNat ∨ b.toNat = (1 : UInt8).toNat := by
        change b.toNat = 0 ∨ b.toNat = 1
        omega
      simpa only [UInt8.toNat_inj, List.cons.injEq, and_true] using hcases
    rw [if_neg (by simp), readByte_cons_zero, ok_bind, if_pos hb]
  | _ :: _ :: _ => rw [if_pos (by simp)]

/-- Nine bytes in the parts of a resolution. -/
theorem exists_resolutionParts (h : bytes.length = 9) :
    ∃ x y u, bytes = x ++ y ++ [u] ∧ x.length = 4 ∧ y.length = 4 := by
  obtain ⟨u, hu⟩ := List.length_eq_one_iff.mp (show (bytes.drop 8).length = 1 by simp [h])
  refine ⟨bytes.take 4, (bytes.drop 4).take 4, u, ?_, by simp [h], by simp [h]⟩
  rw [← hu, List.append_assoc]
  conv_lhs => rw [← List.take_append_drop 4 bytes, ← List.take_append_drop 4 (bytes.drop 4)]
  rw [List.drop_drop]

theorem isResolution_parts {x y : List UInt8} {u : UInt8} (hx : x.length = 4) (hy : y.length = 4) :
    isResolution (x ++ y ++ [u]) = true ↔
      isPositive x = true ∧ isPositive y = true ∧ (u = 3 ∨ u = 4) := by
  have hlen : (x ++ y ++ [u]).length = 9 := by simp [hx, hy]
  have htake : (x ++ y ++ [u]).take 4 = x := by
    rw [List.append_assoc, ← hx, List.take_left]
  have hdrop : (x ++ y ++ [u]).drop 4 = y ++ [u] := by
    rw [List.append_assoc, ← hx, List.drop_left]
  have hunit : (x ++ y ++ [u]).drop 8 = [u] := by
    have hxy : (x ++ y).length = 8 := by simp [hx, hy]
    rw [← hxy, List.drop_left]
  have hsecond : (y ++ [u]).take 4 = y := by rw [← hy, List.take_left]
  rw [isResolution, decide_eq_true_eq, htake, hdrop, hunit, hsecond]
  simp [hx, hy]

theorem isPositive_iff : isPositive bytes = true ↔
    value .big bytes ≠ 0 ∧ value .big bytes ≤ 0x7FFFFFFF := by
  rw [isPositive, decide_eq_true_eq]
  omega

theorem resolutionValue_invalid (h : isResolution bytes = false) :
    resolutionValue bytes = fail .malformedData := by
  by_cases hlen : bytes.length = 9
  · obtain ⟨x, y, u, rfl, hx, hy⟩ := exists_resolutionParts hlen
    have hxres := @readUint32_append [] x (y ++ [u]) hx
    have hyres := @readUint32_append x y [u] hy
    rw [List.nil_append, List.length_nil, ← List.append_assoc] at hxres
    rw [hx] at hyres
    have hunits : (readByte (x ++ y ++ [u]) 8 : Result ℕ) = .ok u.toNat := by
      have hread := readByte_append_length (ε := ErrorCode) (x ++ y) [u]
      rwa [List.length_append, hx, hy, readByte_cons_zero] at hread
    rw [resolutionValue, if_neg (by omega), hxres, ok_bind, hyres, ok_bind, hunits, ok_bind]
    dsimp only
    apply if_neg
    rintro ⟨hx0, hy0, hxle, hyle, hu⟩
    have hu' : u = 3 ∨ u = 4 := by
      rcases hu with hu | hu
      · exact .inl (UInt8.toNat_inj.mp hu)
      · exact .inr (UInt8.toNat_inj.mp hu)
    have hvalid := (isResolution_parts hx hy).mpr
      ⟨isPositive_iff.mpr ⟨hx0, hxle⟩, isPositive_iff.mpr ⟨hy0, hyle⟩, hu'⟩
    rw [hvalid] at h
    cases h
  · rw [resolutionValue, if_pos hlen]

theorem copiesValue_invalid (h : isCopies bytes = false) :
    copiesValue bytes = fail .malformedData := by
  rw [isCopies, decide_eq_false_iff_not, not_or] at h
  obtain ⟨hone, hrange⟩ := h
  unfold copiesValue
  by_cases h4 : bytes.length = 4
  · have hread := @readUint32_append [] bytes [] h4
    rw [List.nil_append, List.append_nil, List.length_nil] at hread
    rw [if_pos h4, hread, ok_bind]
    apply if_neg
    intro hpositive
    exact hone ⟨h4, isPositive_iff.mpr hpositive⟩
  · rw [if_neg h4]
    by_cases h8 : bytes.length = 8
    · have hlower := @readUint32_append [] (bytes.take 4) (bytes.drop 4) (by simp [h8])
      have hupper := @readUint32_append (bytes.take 4) (bytes.drop 4) [] (by simp [h8])
      have hlen : (bytes.take 4).length = 4 := by simp [h8]
      rw [List.nil_append, List.length_nil, List.take_append_drop] at hlower
      rw [List.append_nil, List.take_append_drop, hlen] at hupper
      rw [if_pos h8, hlower, ok_bind, hupper, ok_bind]
      apply if_neg
      rintro ⟨hmin, hle, hmax⟩
      exact hrange ⟨h8, isPositive_iff.mpr ⟨hmin, by omega⟩,
        isPositive_iff.mpr ⟨by omega, hmax⟩, hle⟩
    · rw [if_neg h8]

section Refusing
variable {name : List UInt8} {e : Errc}

/-- A value that cannot be read is refused under each name of its kind. -/
theorem decodeAttribute_text (hname : name ∈ textNames) (h : validateUtf8 bytes = fail e)
    (p : PrinterInfo) : decodeAttribute name bytes p = fail e := by
  simp only [textNames, List.mem_cons, List.not_mem_nil, or_false] at hname
  rcases hname with rfl | rfl | rfl | rfl | rfl | rfl | rfl
  all_goals
    unfold decodeAttribute
    repeat rw [if_neg (by decide)]
    rw [if_pos rfl, h, fail_bind]

theorem decodeAttribute_integer (hname : name ∈ integerNames) (h : integerValue bytes = fail e)
    (p : PrinterInfo) : decodeAttribute name bytes p = fail e := by
  simp only [integerNames, List.mem_cons, List.not_mem_nil, or_false] at hname
  rcases hname with rfl | rfl
  all_goals
    unfold decodeAttribute
    repeat rw [if_neg (by decide)]
    rw [if_pos rfl, h, fail_bind]

theorem decodeAttribute_boolean (hname : name ∈ booleanNames) (h : booleanValue bytes = fail e)
    (p : PrinterInfo) : decodeAttribute name bytes p = fail e := by
  simp only [booleanNames, List.mem_cons, List.not_mem_nil, or_false] at hname
  rcases hname with rfl | rfl | rfl
  all_goals
    unfold decodeAttribute
    repeat rw [if_neg (by decide)]
    rw [if_pos rfl, h, fail_bind]

theorem validateUtf8_invalid (h : ¬ isValidUtf8 bytes = .ok true) :
    validateUtf8 bytes = fail .invalidEncoding := by
  have hinvalid : ¬ ValidUtf8 bytes := h
  rw [validateUtf8, isValidUtf8_eq, decide_eq_false hinvalid]
  rfl

end Refusing

/-- A value that is not valid is refused, whatever the record is. -/
theorem decodeAttribute_invalid {name : List UInt8} (h : validValue name bytes = false)
    (p : PrinterInfo) : decodeAttribute name bytes p = fail (nameErrc name) := by
  unfold validValue at h
  split_ifs at h with htext hinteger hboolean htype hresolution hcopies
  · have herrc : nameErrc name = .invalidEncoding := if_pos htext
    rw [herrc]
    exact decodeAttribute_text htext (validateUtf8_invalid (by simpa using h)) p
  all_goals
    have herrc : nameErrc name = .malformedData := if_neg htext
    rw [herrc]
  · exact decodeAttribute_integer hinteger (integerValue_invalid (by simpa using h)) p
  · exact decodeAttribute_boolean hboolean (booleanValue_invalid (by simpa using h)) p
  · have hvalue : wordValue bytes = fail .malformedData := by
      rw [wordValue, if_pos (by simpa using h)]
    subst htype
    unfold decodeAttribute
    repeat rw [if_neg (by decide)]
    rw [if_pos rfl, hvalue, fail_bind]
  · subst hresolution
    unfold decodeAttribute
    repeat rw [if_neg (by decide)]
    rw [if_pos rfl, resolutionValue_invalid h, fail_bind]
  · subst hcopies
    unfold decodeAttribute
    repeat rw [if_neg (by decide)]
    rw [if_pos rfl, copiesValue_invalid h, fail_bind]

end Values

section Encodings
open PrinterAttribute
variable {bytes : List UInt8}

/-- Four bytes are those of their number. -/
theorem appendUint32_value (h : bytes.length = 4) : appendUint32 [] (value .big bytes) = bytes := by
  rw [appendUint32_eq, List.nil_append, encode_value .big h]

theorem positive_of_isPositive (h : isPositive bytes = true) :
    0 < value .big bytes ∧ value .big bytes < 2 ^ 31 := by
  simpa [isPositive] using h

/-- A valid value is the value of an attribute. -/
theorem exists_attribute {name : List UInt8} (hne : name ≠ []) (hlt : name.length < 2 ^ 16)
    (hbytes : bytes.length < 2 ^ 16) (h : validValue name bytes = true) :
    ∃ a : PrinterAttribute, a.name = name ∧ a.value = bytes := by
  unfold validValue at h
  split_ifs at h with htext hinteger hboolean htype hresolution hcopies
  · let text : Utf8Value := ⟨bytes, isValidUtf8_iff.mp (by simpa using h), hbytes⟩
    simp only [textNames, List.mem_cons, List.not_mem_nil, or_false] at htext
    rcases htext with rfl | rfl | rfl | rfl | rfl | rfl | rfl
    · exact ⟨printerName text, rfl, rfl⟩
    · exact ⟨printerInfo text, rfl, rfl⟩
    · exact ⟨printerLocation text, rfl, rfl⟩
    · exact ⟨printerMakeAndModel text, rfl, rfl⟩
    · exact ⟨deviceUri text, rfl, rfl⟩
    · exact ⟨mediaSupported text, rfl, rfl⟩
    · exact ⟨sidesSupported text, rfl, rfl⟩
  · obtain ⟨hlen, hvalue⟩ : bytes.length = 4 ∧ value .big bytes < 2 ^ 31 := by simpa using h
    simp only [integerNames, List.mem_cons, List.not_mem_nil, or_false] at hinteger
    rcases hinteger with rfl | rfl
    · exact ⟨printerState ⟨_, hvalue⟩, rfl, appendUint32_value hlen⟩
    · exact ⟨queuedJobCount ⟨_, hvalue⟩, rfl, appendUint32_value hlen⟩
  · obtain ⟨b, hb⟩ : ∃ b, boolBytes b = bytes := by
      have hcases : bytes = [0] ∨ bytes = [1] := by simpa using h
      rcases hcases with rfl | rfl
      · exact ⟨false, rfl⟩
      · exact ⟨true, rfl⟩
    simp only [booleanNames, List.mem_cons, List.not_mem_nil, or_false] at hboolean
    rcases hboolean with rfl | rfl | rfl
    · exact ⟨printerIsAcceptingJobs b, rfl, hb⟩
    · exact ⟨printerIsShared b, rfl, hb⟩
    · exact ⟨colorSupported b, rfl, hb⟩
  · have hlen : bytes.length = 4 := by simpa using h
    have hvalue := value_lt .big bytes
    rw [hlen] at hvalue
    exact ⟨.printerType ⟨value .big bytes, by omega⟩, htype.symm, appendUint32_value hlen⟩
  · have hlen : bytes.length = 9 := by
      simp only [isResolution, decide_eq_true_eq] at h
      exact h.1
    obtain ⟨x, y, u, rfl, hx, hy⟩ := exists_resolutionParts hlen
    obtain ⟨hxpos, hypos, hu⟩ := (isResolution_parts hx hy).mp h
    have hxy : appendUint32 (appendUint32 [] (value .big x)) (value .big y) = x ++ y := by
      rw [appendUint32_value hx, appendUint32_eq, encode_value .big hy]
    rcases hu with rfl | rfl
    · exact ⟨printerResolutionSupported ⟨_, positive_of_isPositive hxpos⟩
        ⟨_, positive_of_isPositive hypos⟩ false, hresolution.symm,
        by rw [PrinterAttribute.value, hxy]; rfl⟩
    · exact ⟨printerResolutionSupported ⟨_, positive_of_isPositive hxpos⟩
        ⟨_, positive_of_isPositive hypos⟩ true, hresolution.symm,
        by rw [PrinterAttribute.value, hxy]; rfl⟩
  · rw [isCopies, decide_eq_true_eq] at h
    rcases h with ⟨hlen, hpositive⟩ | ⟨hlen, hmin, hmax, hle⟩
    · exact ⟨copiesSupported ⟨_, positive_of_isPositive hpositive⟩, hcopies.symm,
        appendUint32_value hlen⟩
    · refine ⟨copiesSupportedRange ⟨_, positive_of_isPositive hmin⟩ ⟨_, positive_of_isPositive hmax⟩
        hle, hcopies.symm, ?_⟩
      rw [PrinterAttribute.value, appendUint32_value (by simp [hlen]), appendUint32_eq,
        encode_value .big (by simp [hlen]), List.take_append_drop]
  · have hmem : name ∉ recognisedNames := by
      intro hmem
      rcases recognisedNames_cases name hmem with h1 | h1 | h1 | h1 | h1 | h1
      · exact htext h1
      · exact hinteger h1
      · exact hboolean h1
      · exact htype h1
      · exact hresolution h1
      · exact hcopies h1
    exact ⟨unrecognised ⟨name, hne, hlt, hmem, bytes, hbytes⟩, rfl, rfl⟩

end Encodings

section Records

/-- The name and the bytes of an attribute. -/
def pairOf (a : PrinterAttribute) : List UInt8 × List UInt8 := (a.name, a.value)

theorem decodePairs_attributes (attributes : List PrinterAttribute) (p : PrinterInfo) :
    decodePairs (attributes.map pairOf) p =
      .ok (attributes.foldl PrinterAttribute.update p) := by
  unfold decodePairs
  induction attributes generalizing p with
  | nil => rfl
  | cons a attributes ih =>
    rw [List.map_cons, List.foldlM_cons, pairOf, decodeAttribute_bytes, ok_bind, ih,
      List.foldl_cons]

/-- A pair without a fault is that of an attribute. -/
theorem exists_pairOf {pair : List UInt8 × List UInt8}
    (hsize : pair.1 ≠ [] ∧ pair.1.length < 2 ^ 16 ∧ pair.2.length < 2 ^ 16)
    (h : valueFault pair = none) : ∃ a, pairOf a = pair := by
  have hvalid : validValue pair.1 pair.2 = true := by
    unfold valueFault at h
    split_ifs at h with hvalid
    exact hvalid
  obtain ⟨a, hname, hvalue⟩ := exists_attribute hsize.1 hsize.2.1 hsize.2.2 hvalid
  exact ⟨a, by rw [pairOf, hname, hvalue]⟩

/-- The first value that is not valid decides. -/
theorem decodePairs_fault {pairs : List (List UInt8 × List UInt8)} {e : Errc}
    (hsize : ∀ pair ∈ pairs, pair.1 ≠ [] ∧ pair.1.length < 2 ^ 16 ∧ pair.2.length < 2 ^ 16)
    (h : (pairs.filterMap valueFault).head? = some e) (p : PrinterInfo) :
    decodePairs pairs p = fail e := by
  unfold decodePairs
  induction pairs generalizing p with
  | nil => cases h
  | cons pair pairs ih =>
    rw [List.foldlM_cons]
    cases hfault : valueFault pair with
    | some e' =>
      rw [List.filterMap_cons_some hfault, List.head?_cons, Option.some_inj] at h
      unfold valueFault at hfault
      split_ifs at hfault with hvalid
      rw [decodeAttribute_invalid (by simpa using hvalid), fail_bind, Option.some_inj.mp hfault, h]
    | none =>
      obtain ⟨a, rfl⟩ := exists_pairOf (hsize pair (by simp)) hfault
      rw [pairOf, decodeAttribute_bytes, ok_bind]
      rw [List.filterMap_cons_none hfault] at h
      exact ih (fun q hq => hsize q (by simp [hq])) h _

/-- Values that are all valid are those of attributes. -/
theorem exists_attributes {pairs : List (List UInt8 × List UInt8)}
    (hsize : ∀ pair ∈ pairs, pair.1 ≠ [] ∧ pair.1.length < 2 ^ 16 ∧ pair.2.length < 2 ^ 16)
    (h : pairs.filterMap valueFault = []) :
    ∃ attributes : List PrinterAttribute, attributes.map pairOf = pairs := by
  induction pairs with
  | nil => exact ⟨[], rfl⟩
  | cons pair pairs ih =>
    cases hfault : valueFault pair with
    | some e =>
      rw [List.filterMap_cons_some hfault] at h
      cases h
    | none =>
      rw [List.filterMap_cons_none hfault] at h
      obtain ⟨attributes, rfl⟩ := ih (fun q hq => hsize q (by simp [hq])) h
      obtain ⟨a, rfl⟩ := exists_pairOf (hsize pair (by simp)) hfault
      exact ⟨a :: attributes, rfl⟩

end Records

section Groups

/-- There is a name in the group that is not empty. -/
def Named (pairs : List (List UInt8 × List UInt8)) : Prop :=
  ∃ pair ∈ pairs, pair.1 = ascii "printer-name" ∧ pair.2 ≠ []

instance (pairs : List (List UInt8 × List UInt8)) : Decidable (Named pairs) :=
  inferInstanceAs (Decidable (∃ pair ∈ pairs, _ ∧ _))

namespace AttributeGroup
variable {g : AttributeGroup}

/-- The errors of the values that are not valid. -/
def valueFaults (g : AttributeGroup) : List Errc := g.pairs.filterMap valueFault

/-- The faults of a group: values that are not valid, and a printer without a name. -/
def faults (g : AttributeGroup) : List Errc :=
  if g.tag = 0x04 then
    g.valueFaults ++ if g.pairs ≠ [] ∧ ¬ Named g.pairs then [.malformedData] else []
  else if g.tag = 0x01 ∨ g.tag = 0x02 ∨ g.tag = 0x05 then []
  else [.malformedData]

theorem size_pairs (g : AttributeGroup) :
    ∀ pair ∈ g.pairs, pair.1 ≠ [] ∧ pair.1.length < 2 ^ 16 ∧ pair.2.length < 2 ^ 16 := by
  intro pair hpair
  obtain ⟨a, -, ha⟩ := List.mem_flatMap.mp hpair
  obtain ⟨v, -, rfl⟩ := List.mem_map.mp ha
  exact ⟨a.name_ne, a.name_lt, v.bytes_lt⟩

end AttributeGroup

/-- Attributes with a name leave a record with a name. -/
theorem named_iff (attributes : List PrinterAttribute) :
    Named (attributes.map pairOf) ↔ (lastOf nameOf attributes).isSome := by
  constructor
  · rintro ⟨pair, hpair, hname, hne⟩
    obtain ⟨a, ha, rfl⟩ := List.mem_map.mp hpair
    have hsome : nameOf a ≠ none := by
      cases a with
      | printerName text =>
        have htext : text.bytes ≠ [] := hne
        simp [nameOf, htext]
      | unrecognised u =>
        exact absurd (show u.name ∈ recognisedNames by
          rw [show u.name = ascii "printer-name" from hname]; decide) u.not_mem
      | _ => exact absurd hname (by dsimp only [pairOf, PrinterAttribute.name]; decide)
    rw [Option.isSome_iff_ne_none, lastOf, ne_eq, List.getLast?_eq_none_iff,
      List.filterMap_eq_nil_iff]
    intro hnone
    exact hsome (hnone a ha)
  · intro h
    obtain ⟨name, hlast⟩ := Option.isSome_iff_exists.mp h
    obtain ⟨a, ha, hname⟩ := exists_of_lastOf nameOf hlast
    refine ⟨pairOf a, List.mem_map_of_mem ha, ?_⟩
    cases a with
    | printerName text =>
      refine ⟨rfl, ?_⟩
      intro hnil
      have hnone : nameOf (.printerName text) = none := if_pos hnil
      rw [hnone] at hname
      cases hname
    | _ => cases hname

/-- The end of a printer group, once its attributes are known. -/
theorem finishPrinter_collected (attributes : List PrinterAttribute) :
    finishPrinter (attributes ≠ []) (collected attributes) =
      if attributes = [] then .ok none
      else if Named (attributes.map pairOf) then .ok (some (printerOf attributes))
      else fail .malformedData := by
  by_cases hnil : attributes = []
  · rw [if_pos hnil, hnil]
    rfl
  rw [if_neg hnil]
  split_ifs with hnamed
  · obtain ⟨name, hname⟩ := Option.isSome_iff_exists.mp ((named_iff attributes).mp hnamed)
    obtain ⟨hne, hcomplete⟩ := completePrinter_collected hname
    rw [finishPrinter, if_neg fun h => hne h.2.1, if_pos (.inl hne), hcomplete]
  · have hnone : lastOf nameOf attributes = none := by
      rw [named_iff] at hnamed
      simpa using hnamed
    rw [finishPrinter, if_pos (by simp [hnil, collected, hnone])]

/-- A printer group without faults describes a printer, unless it is empty. -/
theorem groupResult_printer {g : AttributeGroup} (htag : g.tag = 0x04) (hfaults : g.faults = [])
    {attributes : List PrinterAttribute} (hpairs : attributes.map pairOf = g.pairs) :
    groupResult g = .ok (if attributes = [] then none else some (printerOf attributes)) := by
  have hne : (decide (g.pairs ≠ [])) = decide (attributes ≠ []) := by
    rw [← hpairs]
    simp
  rw [AttributeGroup.faults, if_pos htag, List.append_eq_nil_iff] at hfaults
  rw [groupResult, if_pos htag, ← hpairs, decodePairs_attributes, ok_bind, foldl_update, hpairs, hne,
    finishPrinter_collected]
  by_cases hnil : attributes = []
  · rw [if_pos hnil, if_pos hnil]
  · have hnamed : Named g.pairs := by
      by_contra hnamed
      have hpairsNe : g.pairs ≠ [] := by
        rw [← hpairs]
        simpa using hnil
      rw [if_pos ⟨hpairsNe, hnamed⟩] at hfaults
      simp at hfaults
    rw [if_neg hnil, if_neg hnil, hpairs, if_pos hnamed]

/-- A group with faults fails with the first of them. -/
theorem groupResult_fault {g : AttributeGroup} {e : Errc} (h : g.faults.head? = some e) :
    groupResult g = fail e := by
  unfold AttributeGroup.faults at h
  unfold groupResult
  split_ifs at h with htag hunnamed hother
  · rw [if_pos htag]
    cases hfaults : g.valueFaults with
    | cons e' more =>
      rw [hfaults, List.cons_append, List.head?_cons, Option.some_inj] at h
      have hhead : (g.pairs.filterMap valueFault).head? = some e := by
        rw [show g.pairs.filterMap valueFault = e' :: more from hfaults, List.head?_cons, h]
      rw [decodePairs_fault g.size_pairs hhead, fail_bind]
    | nil =>
      rw [hfaults, List.nil_append, List.head?_cons, Option.some_inj] at h
      obtain ⟨attributes, hattributes⟩ := exists_attributes g.size_pairs hfaults
      have hnil : attributes ≠ [] := by
        rintro rfl
        exact hunnamed.1 hattributes.symm
      have hne : (decide (g.pairs ≠ [])) = decide (attributes ≠ []) := by
        rw [← hattributes]
        simp
      rw [← hattributes, decodePairs_attributes, ok_bind, foldl_update, hattributes, hne,
        finishPrinter_collected, if_neg hnil, hattributes, if_neg hunnamed.2, h]
  · rw [if_pos htag]
    rw [List.append_nil] at h
    rw [decodePairs_fault g.size_pairs h, fail_bind]
  · cases h
  · rw [if_neg htag, if_neg hother]
    rw [List.head?_cons, Option.some_inj] at h
    rw [h]

theorem groupResult_other {g : AttributeGroup} (htag : g.tag ≠ 0x04) (hfaults : g.faults = []) :
    groupResult g = .ok none := by
  rw [AttributeGroup.faults, if_neg htag] at hfaults
  rw [groupResult, if_neg htag]
  split_ifs at hfaults with hother
  exact if_pos hother

/-- A group without faults gives a printer or nothing. -/
theorem groupResult_ok {g : AttributeGroup} (hfaults : g.faults = []) :
    ∃ printer, groupResult g = .ok printer := by
  by_cases htag : g.tag = 0x04
  · have hvalues : g.valueFaults = [] := by
      rw [AttributeGroup.faults, if_pos htag, List.append_eq_nil_iff] at hfaults
      exact hfaults.1
    obtain ⟨attributes, hattributes⟩ := exists_attributes g.size_pairs hvalues
    exact ⟨_, groupResult_printer htag hfaults hattributes⟩
  · exact ⟨none, groupResult_other htag hfaults⟩

/-- The first fault of the groups is their result. -/
theorem interpret_fault {groups : List AttributeGroup} {e : Errc}
    (h : (groups.flatMap AttributeGroup.faults).head? = some e) : interpret groups = fail e := by
  induction groups with
  | nil => cases h
  | cons g groups ih =>
    rw [interpret]
    cases hfaults : g.faults with
    | cons e' more =>
      rw [List.flatMap_cons, hfaults, List.cons_append, List.head?_cons, Option.some_inj] at h
      rw [groupResult_fault (by rw [hfaults, List.head?_cons, h]), fail_bind]
    | nil =>
      obtain ⟨printer, hprinter⟩ := groupResult_ok hfaults
      rw [List.flatMap_cons, hfaults, List.nil_append] at h
      rw [hprinter, ok_bind, ih h, fail_bind]

/-- Groups without faults are accepted. -/
theorem interpret_ok {groups : List AttributeGroup}
    (h : groups.flatMap AttributeGroup.faults = []) :
    ∃ printers, interpret groups = .ok printers := by
  induction groups with
  | nil => exact ⟨[], rfl⟩
  | cons g groups ih =>
    rw [List.flatMap_cons, List.append_eq_nil_iff] at h
    obtain ⟨printer, hprinter⟩ := groupResult_ok h.1
    obtain ⟨printers, hprinters⟩ := ih h.2
    exact ⟨_, by rw [interpret, hprinter, ok_bind, hprinters, ok_bind]⟩

theorem interpret_append (before after : List AttributeGroup) :
    interpret (before ++ after) =
      interpret before >>= fun printers => interpret after >>= fun more => .ok (printers ++ more) := by
  induction before with
  | nil =>
    rw [List.nil_append, interpret, ok_bind]
    cases interpret after with
    | error e => rfl
    | ok more => rfl
  | cons g before ih =>
    rw [List.cons_append, interpret, interpret, ih]
    cases groupResult g with
    | error e => rfl
    | ok printer =>
      cases interpret before with
      | error e => rfl
      | ok printers =>
        cases interpret after with
        | error e => rfl
        | ok more => simp

end Groups

end Syscape.Ipp
