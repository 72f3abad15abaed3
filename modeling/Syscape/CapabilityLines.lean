import Syscape.Capabilities
import Syscape.Lib.Lines
import Syscape.Lib.LastValue

/-!
# Capabilities and the delivery of the status file

However the file is cut into reads, the loop applies the line parser once, in order,
to the lines that end in a newline. What follows the last newline never counts: at the
end of the file it is viewed through a string that has been cleared before the view is
used. The result is that of all lines exactly when that last line would change nothing.
-/
namespace Syscape.Security
open Checked Text Lines LastValue

section Delivery

/-- The reads give the content in order; a call that a signal interrupts gives nothing. -/
inductive Delivers : List ReadResult → List UInt8 → Prop where
  | done : Delivers [] []
  | interrupted {reads : List ReadResult} {content : List UInt8} (h : Delivers reads content) :
    Delivers (.failed eintr :: reads) content
  | chunk {reads : List ReadResult} {content chunk : List UInt8} (hne : chunk ≠ [])
    (h : Delivers reads content) : Delivers (.bytes chunk hne :: reads) (chunk ++ content)

/-- What the status file says: all its lines, each parsed once and in order. -/
def capabilitiesOfContent (content : List UInt8) : Result ProcessCapabilities := do
  let masks ← (content.splitOn newline).foldlM processLine .empty
  processCapabilities masks

lemma dropWhile_ne_eq {bytes : List UInt8} (h : newline ∈ bytes) :
    bytes.dropWhile (· ≠ newline) = newline :: (bytes.dropWhile (· ≠ newline)).drop 1 := by
  induction bytes with
  | nil => cases h
  | cons c bytes ih =>
    by_cases hc : c = newline
    · simp [hc]
    · have hmem : newline ∈ bytes := by simpa [Ne.symm hc] using h
      rw [List.dropWhile_cons_of_pos (by simp [hc])]
      exact ih hmem

/-- One read processes the lines it completes and keeps the rest. -/
theorem consumeBytes_eq (currentLine : List UInt8) (masks : CapMasks) (bytes : List UInt8)
    (h : newline ∉ currentLine) :
    consumeBytes currentLine masks bytes =
      (complete newline (currentLine ++ bytes)).foldlM processLine masks >>= fun masks =>
        .ok (rest newline (currentLine ++ bytes), masks) := by
  induction currentLine, masks, bytes using consumeBytes.induct with
  | case1 currentLine masks =>
    rw [consumeBytes, if_pos rfl, List.append_nil, complete_of_not_mem h, rest_of_not_mem h]
    rfl
  | case2 currentLine masks bytes hne hmem ih =>
    have hline : (if currentLine = [] then bytes.takeWhile (· ≠ newline)
        else currentLine ++ bytes.takeWhile (· ≠ newline)) =
        currentLine ++ bytes.takeWhile (· ≠ newline) := by
      split_ifs with hnil
      · rw [hnil, List.nil_append]
      · rfl
    have hnot : newline ∉ currentLine ++ bytes.takeWhile (· ≠ newline) := by
      intro hin
      rcases List.mem_append.mp hin with hin | hin
      · exact h hin
      · simpa using List.mem_takeWhile_imp hin
    have hbytes : currentLine ++ bytes = (currentLine ++ bytes.takeWhile (· ≠ newline)) ++
        newline :: (bytes.dropWhile (· ≠ newline)).drop 1 := by
      rw [List.append_assoc, ← dropWhile_ne_eq hmem, List.takeWhile_append_dropWhile]
    rw [consumeBytes, if_neg hne, if_pos hmem]
    simp only [hline]
    rw [hbytes, complete_append_sep, rest_append_sep, complete_of_not_mem hnot,
      rest_of_not_mem hnot, List.nil_append, List.foldlM_cons, bind_assoc]
    congr 1
    funext masks
    rw [ih masks (by simp), List.nil_append]
  | case3 currentLine masks bytes hne hmem =>
    have hnot : newline ∉ currentLine ++ bytes := by simp [h, hmem]
    rw [consumeBytes, if_neg hne, if_neg hmem, complete_of_not_mem hnot, rest_of_not_mem hnot]
    rfl

/-- A cleared view is never a line of a `Cap` field. -/
theorem capLine_clearedView (line : List UInt8) : capLine (clearedView line) = none := by
  cases line with
  | nil => rfl
  | cons c line =>
    have hkey : (clearedView (c :: line)).takeWhile (· ≠ 0x3A) = 0 :: line.takeWhile (· ≠ 0x3A) := by
      simp [clearedView]
    obtain ⟨more, hmore⟩ := trimWhitespace_cons (c := 0) (by decide) (line.takeWhile (· ≠ 0x3A))
    have hnot : ¬ ascii "Cap" <+: (0 :: more : List UInt8) := by
      intro hprefix
      have hhead : (0x43 : UInt8) = 0 := (List.cons_prefix_cons.mp hprefix).1
      exact absurd hhead (by decide)
    unfold capLine
    simp only [hkey, hmore, hnot, if_false, ite_self]

theorem flushLine_eq (currentLine : List UInt8) (masks : CapMasks) :
    flushLine currentLine masks = .ok masks := by
  unfold flushLine processLine
  split_ifs
  · rfl
  · rw [capLine_clearedView]

/-- The whole loop processes the lines that end in a newline. -/
theorem readLines_eq {reads : List ReadResult} {content : List UInt8} (h : Delivers reads content)
    (currentLine : List UInt8) (masks : CapMasks) (hline : newline ∉ currentLine) :
    readLines currentLine masks reads =
      (complete newline (currentLine ++ content)).foldlM processLine masks := by
  induction h generalizing currentLine masks with
  | done =>
    rw [List.append_nil, complete_of_not_mem hline]
    exact flushLine_eq currentLine masks
  | interrupted _ ih =>
    rw [readLines, if_pos rfl]
    exact ih currentLine masks hline
  | @chunk reads content chunk hne _ ih =>
    rw [readLines, consumeBytes_eq currentLine masks chunk hline, bind_assoc,
      ← List.append_assoc, complete_append (currentLine ++ chunk), List.foldlM_append]
    congr 1
    funext masks
    exact ih _ masks (not_mem_rest _)

theorem capabilitiesAt_eq {reads : List ReadResult} {content : List UInt8}
    (h : Delivers reads content) :
    capabilitiesAt (.opened reads) =
      (complete newline content).foldlM processLine .empty >>= processCapabilities := by
  rw [capabilitiesAt, readLines_eq h [] .empty (by simp), List.nil_append]

theorem capabilitiesOfContent_eq (content : List UInt8) :
    capabilitiesOfContent content =
      (complete newline content).foldlM processLine .empty >>= fun masks =>
        processLine masks (rest newline content) >>= processCapabilities := by
  rw [capabilitiesOfContent, splitOn_eq, List.foldlM_append, bind_assoc]
  congr 1
  funext masks
  simp

end Delivery

section LastLine

/-- The fields of which one has to be there. -/
def CapField.Primary : CapField → Prop
  | .inh => True
  | .prm => True
  | .eff => True
  | .bnd => False
  | .amb => False

/-- The line gives a `Cap` field a value that is no mask. -/
def ValueFails (line : List UInt8) : Prop :=
  ∃ field value, capLine line = some (field, value) ∧ ∀ mask, parseHexU64 value ≠ .ok mask

/-- The mask that a line gives a field. -/
def lineMask (field : CapField) (line : List UInt8) : Option UInt64 :=
  match capLine line with
  | none => none
  | some (field', value) => if field' = field then (parseHexU64 value).toOption else none

/-- The mask of a field in the last of the lines that give it one. -/
def recorded (lines : List (List UInt8)) (field : CapField) : Option UInt64 :=
  lastOf (lineMask field) lines

/-- A line without an invalid value records its mask. -/
theorem processLine_of_not_fails (masks : CapMasks) {line : List UInt8} (h : ¬ ValueFails line) :
    ∃ masks', processLine masks line = .ok masks' ∧
      ∀ field, masks'.get field = (lineMask field line).or (masks.get field) := by
  unfold processLine lineMask
  cases hcap : capLine line with
  | none => exact ⟨masks, rfl, fun field => rfl⟩
  | some pair =>
    obtain ⟨field', value⟩ := pair
    cases hparse : parseHexU64 value with
    | error e => exact absurd ⟨field', value, hcap, by simp [hparse]⟩ h
    | ok mask =>
      refine ⟨masks.set mask field', by simp [hparse], fun field => ?_⟩
      rw [CapMasks.get_set]
      by_cases hfield : field' = field
      · simp [hfield, hparse, Except.toOption]
      · simp [hfield]

theorem processLine_of_fails (masks : CapMasks) {line : List UInt8} (h : ValueFails line) :
    ∃ e, processLine masks line = .error e := by
  obtain ⟨field, value, hcap, hparse⟩ := h
  unfold processLine
  rw [hcap]
  cases hvalue : parseHexU64 value with
  | ok mask => exact absurd hvalue (hparse mask)
  | error e => exact ⟨e, by simp [hvalue]⟩

theorem foldlM_processLine (lines : List (List UInt8)) (masks : CapMasks)
    (h : ∀ line ∈ lines, ¬ ValueFails line) :
    ∃ masks', lines.foldlM processLine masks = .ok masks' ∧
      ∀ field, masks'.get field = (recorded lines field).or (masks.get field) := by
  induction lines generalizing masks with
  | nil => exact ⟨masks, rfl, fun field => rfl⟩
  | cons line lines ih =>
    obtain ⟨masks₁, hline, hmasks₁⟩ := processLine_of_not_fails masks (h line (by simp))
    obtain ⟨masks₂, hlines, hmasks₂⟩ := ih masks₁ fun l hl => h l (by simp [hl])
    refine ⟨masks₂, ?_, fun field => ?_⟩
    · rw [List.foldlM_cons, hline, ok_bind, hlines]
    · rw [hmasks₂, hmasks₁, recorded, recorded, lastOf_cons, Option.or_assoc]

theorem foldlM_processLine_fails (lines : List (List UInt8)) (masks : CapMasks)
    (h : ∃ line ∈ lines, ValueFails line) :
    ∃ e, lines.foldlM processLine masks = .error e := by
  induction lines generalizing masks with
  | nil => simp at h
  | cons line lines ih =>
    rw [List.foldlM_cons]
    by_cases hline : ValueFails line
    · obtain ⟨e, he⟩ := processLine_of_fails masks hline
      exact ⟨e, by rw [he, error_bind]⟩
    · obtain ⟨masks₁, hmasks₁, -⟩ := processLine_of_not_fails masks hline
      rw [hmasks₁, ok_bind]
      apply ih
      simpa [hline] using h

theorem decodeMask_eq_iff (mask mask' : Option UInt64) :
    decodeMask mask = decodeMask mask' ↔ mask.getD 0 = mask'.getD 0 := by
  have hget : ∀ m : Option UInt64, decodeMask m = decodeLinuxCapabilities (m.getD 0) := by
    intro m
    cases m with
    | none => simp [decodeMask]
    | some m => rfl
  rw [hget, hget]
  constructor
  · exact decodeLinuxCapabilities_injective
  · intro h
    rw [h]

theorem processCapabilities_of_no_primary {masks : CapMasks}
    (h : ¬ ∃ field : CapField, field.Primary ∧ masks.get field ≠ none) :
    processCapabilities masks = fail .malformedData := by
  have hnone : ∀ field : CapField, field.Primary → masks.get field = none := by
    intro field hfield
    by_contra hne
    exact h ⟨field, hfield, hne⟩
  exact if_pos ⟨hnone .inh trivial, hnone .prm trivial, hnone .eff trivial⟩

theorem processCapabilities_of_primary {masks : CapMasks}
    (h : ∃ field : CapField, field.Primary ∧ masks.get field ≠ none) :
    processCapabilities masks =
      .ok ⟨decodeMask (masks.get .eff), decodeMask (masks.get .prm), decodeMask (masks.get .inh),
        decodeMask (masks.get .bnd), decodeMask (masks.get .amb)⟩ := by
  apply if_neg
  intro hnone
  obtain ⟨field, hfield, hne⟩ := h
  cases field with
  | inh => exact hne hnone.1
  | prm => exact hne hnone.2.1
  | eff => exact hne hnone.2.2
  | bnd => exact hfield
  | amb => exact hfield

/-- Setting one more mask changes the capabilities unless the mask is the one recorded. -/
theorem processCapabilities_set_iff {masks : CapMasks} (mask : UInt64) (field : CapField)
    (h : ∃ field : CapField, field.Primary ∧ masks.get field ≠ none) :
    processCapabilities masks = processCapabilities (masks.set mask field) ↔
      mask = (masks.get field).getD 0 := by
  have hset : ∃ field' : CapField, field'.Primary ∧ (masks.set mask field).get field' ≠ none := by
    obtain ⟨field', hprimary, hne⟩ := h
    refine ⟨field', hprimary, ?_⟩
    rw [CapMasks.get_set]
    split_ifs
    · simp
    · exact hne
  rw [processCapabilities_of_primary h, processCapabilities_of_primary hset]
  have hother : ∀ field' : CapField, decodeMask (masks.get field') =
      decodeMask ((masks.set mask field).get field') ↔
        (field = field' → mask = (masks.get field').getD 0) := by
    intro field'
    rw [decodeMask_eq_iff, CapMasks.get_set]
    by_cases hfield : field = field'
    · simp [hfield, eq_comm]
    · simp [hfield]
  simp only [Except.ok.injEq, ProcessCapabilities.mk.injEq, hother]
  constructor
  · intro hall
    cases field <;> simp_all
  · intro hmask
    cases field <;> simp_all

/-- The line behind the last newline does not matter: it is no line of a `Cap` field,
or an earlier line has failed already, or it repeats the mask that is recorded, or the
query fails in the same way with it and without it. -/
def LastLineHarmless (content : List UInt8) : Prop :=
  ∀ field value, capLine (rest newline content) = some (field, value) →
    (∃ line ∈ complete newline content, ValueFails line) ∨
    ((∃ f : CapField, f.Primary ∧ recorded (complete newline content) f ≠ none) ∧
      parseHexU64 value = .ok ((recorded (complete newline content) field).getD 0)) ∨
    ((¬ ∃ f : CapField, f.Primary ∧ recorded (complete newline content) f ≠ none) ∧
      (parseHexU64 value = fail .malformedData ∨
        (¬ field.Primary ∧ ∃ mask, parseHexU64 value = .ok mask)))

lemma primary_set_iff {masks : CapMasks} (mask : UInt64) (field : CapField)
    (h : ¬ ∃ f : CapField, f.Primary ∧ masks.get f ≠ none) :
    (∃ f : CapField, f.Primary ∧ (masks.set mask field).get f ≠ none) ↔ field.Primary := by
  constructor
  · intro ⟨f, hf, hne⟩
    rw [CapMasks.get_set] at hne
    split_ifs at hne with hfield
    · rwa [hfield]
    · exact absurd ⟨f, hf, hne⟩ h
  · intro hfield
    exact ⟨field, hfield, by simp [CapMasks.get_set]⟩

/-- The capabilities with and without one more value for a field. -/
theorem processCapabilities_value_iff (masks : CapMasks) (field : CapField)
    (value : Result UInt64) :
    processCapabilities masks =
        value >>= (fun mask => processCapabilities (masks.set mask field)) ↔
      ((∃ f : CapField, f.Primary ∧ masks.get f ≠ none) ∧
        value = .ok ((masks.get field).getD 0)) ∨
      ((¬ ∃ f : CapField, f.Primary ∧ masks.get f ≠ none) ∧
        (value = fail .malformedData ∨ (¬ field.Primary ∧ ∃ mask, value = .ok mask))) := by
  by_cases hprimary : ∃ f : CapField, f.Primary ∧ masks.get f ≠ none
  · rw [or_iff_left (fun hr => hr.1 hprimary), and_iff_right hprimary]
    cases value with
    | error e => simp [processCapabilities_of_primary hprimary]
    | ok mask =>
      rw [ok_bind, processCapabilities_set_iff mask field hprimary, Except.ok.injEq]
  · rw [or_iff_right (fun hl => hprimary hl.1), and_iff_right hprimary,
      processCapabilities_of_no_primary hprimary]
    cases value with
    | error e => simp [fail, eq_comm]
    | ok mask =>
      have hset := primary_set_iff mask field hprimary
      rw [ok_bind]
      by_cases hfield : field.Primary
      · rw [processCapabilities_of_primary (hset.mpr hfield)]
        simp [hfield]
      · rw [processCapabilities_of_no_primary (mt hset.mp hfield)]
        simp [hfield]

/-- The effect of the line behind the last newline, once the lines before it are processed. -/
theorem processLine_rest_iff {content : List UInt8} {masks : CapMasks}
    (hmasks : ∀ field, masks.get field = recorded (complete newline content) field)
    (hok : ¬ ∃ line ∈ complete newline content, ValueFails line) :
    processCapabilities masks =
        processLine masks (rest newline content) >>= processCapabilities ↔
      LastLineHarmless content := by
  unfold LastLineHarmless
  simp only [← hmasks]
  cases hcap : capLine (rest newline content) with
  | none => simp [processLine, hcap]
  | some pair =>
    obtain ⟨field, value⟩ := pair
    have hline : processLine masks (rest newline content) >>= processCapabilities =
        parseHexU64 value >>= fun mask => processCapabilities (masks.set mask field) := by
      simp only [processLine, hcap, bind_assoc, ok_bind]
    rw [hline, processCapabilities_value_iff]
    constructor
    · intro h field' value' heq
      cases heq
      exact .inr h
    · intro h
      exact (h field value rfl).resolve_left hok

end LastLine

/-- However the status file is delivered, the result is that of its lines exactly when
what follows the last newline does not matter. -/
theorem capabilitiesAt_eq_iff {reads : List ReadResult} {content : List UInt8}
    (h : Delivers reads content) :
    capabilitiesAt (.opened reads) = capabilitiesOfContent content ↔ LastLineHarmless content := by
  rw [capabilitiesAt_eq h, capabilitiesOfContent_eq]
  by_cases hfail : ∃ line ∈ complete newline content, ValueFails line
  · obtain ⟨e, he⟩ := foldlM_processLine_fails _ .empty hfail
    rw [he, error_bind, error_bind]
    exact iff_of_true rfl fun _ _ _ => .inl hfail
  · obtain ⟨masks, hfold, hmasks⟩ := foldlM_processLine (complete newline content) .empty
      fun line hline hfails => hfail ⟨line, hline, hfails⟩
    rw [hfold, ok_bind, ok_bind]
    apply processLine_rest_iff _ hfail
    intro field
    rw [hmasks]
    cases field <;> simp [CapMasks.get, CapMasks.empty]

/-- A file that ends in a newline, delivered in two parts that cut a line. -/
theorem capabilitiesAt_two_reads :
    capabilitiesAt (.opened [.bytes (ascii "CapEff:\t2") (by decide), .failed eintr,
        .bytes (ascii "00000\n") (by decide)]) =
      capabilitiesOfContent (ascii "CapEff:\t200000\n") :=
  (capabilitiesAt_eq_iff (.chunk (by decide) (.interrupted (.chunk (by decide) .done)))).mpr
    (by intro field value h; cases h)

/-- Without the last newline the effective set is lost: the process looks unprivileged. -/
theorem unterminated_capEff_lost :
    let content := ascii "CapPrm:\t200000\nCapEff:\t200000"
    capabilitiesAt (.opened [.bytes content (by decide)]) =
        .ok ⟨[], [ascii "cap_sys_admin"], [], [], []⟩ ∧
      capabilitiesOfContent content =
        .ok ⟨[ascii "cap_sys_admin"], [ascii "cap_sys_admin"], [], [], []⟩ ∧
      ¬ ∀ reads, Delivers reads content →
        capabilitiesAt (.opened reads) = capabilitiesOfContent content := by
  intro content
  have hat : capabilitiesAt (.opened [.bytes content (by decide)]) =
      .ok ⟨[], [ascii "cap_sys_admin"], [], [], []⟩ := by decide +kernel
  have hof : capabilitiesOfContent content =
      .ok ⟨[ascii "cap_sys_admin"], [ascii "cap_sys_admin"], [], [], []⟩ := by decide +kernel
  refine ⟨hat, hof, fun hall => ?_⟩
  have heq := hall [.bytes content (by decide)] (.chunk (by decide) .done)
  rw [hat, hof] at heq
  exact absurd heq (by decide)

end Syscape.Security
