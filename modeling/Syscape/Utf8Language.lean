import Syscape.Utf8

/-!
# The UTF-8 language

The validity scan accepts exactly the concatenated encodings of Unicode scalar
values. Lean's `Char` is the type of scalar values: its invariant excludes the
surrogates and everything above 10FFFF. Every text splits into encoded scalar
values and a rest at which the decoder stops, and each scan of the source is
described by what it does on the two parts.
-/
namespace Syscape.Utf8
open Checked

/-- The loop of `is_valid_utf8` from `offset` on. -/
def isValidUtf8From (input : List UInt8) (offset : ℕ) : Result Bool :=
  if offset < input.length then
    match _h : decodeUtf8CodePoint input offset with
    | .error (.fail _) => .ok false
    | .error f => .error f
    | .ok decoded => isValidUtf8From input (offset + decoded.length)
  else .ok true
termination_by input.length - offset
decreasing_by
  have := decodeUtf8CodePoint_length_pos _h
  omega

/-- `is_valid_utf8`. -/
def isValidUtf8 (input : List UInt8) : Result Bool := isValidUtf8From input 0

/-- The text that `append_utf8` builds from scalar values, one after the other. -/
def encodeScalars (cs : List Char) : List UInt8 :=
  cs.foldl (fun output c => appendUtf8 output c.toNat) []

lemma foldl_appendUtf8 (cs : List Char) (output : List UInt8) :
    cs.foldl (fun output c => appendUtf8 output c.toNat) output =
      output ++ cs.flatMap String.utf8EncodeChar := by
  induction cs generalizing output with
  | nil => simp
  | cons c cs ih =>
    rw [List.foldl_cons, ih, appendUtf8_eq, List.flatMap_cons, List.append_assoc]

theorem encodeScalars_eq (cs : List Char) :
    encodeScalars cs = cs.flatMap String.utf8EncodeChar := foldl_appendUtf8 cs []

@[simp] theorem encodeScalars_nil : encodeScalars [] = [] := rfl

@[simp] theorem encodeScalars_cons (c : Char) (cs : List Char) :
    encodeScalars (c :: cs) = String.utf8EncodeChar c ++ encodeScalars cs := by
  simp [encodeScalars_eq]

/-- The decoder stops at a non-empty rest. -/
def Undecodable (rest : List UInt8) : Prop :=
  rest ≠ [] ∧ ∃ e, decodeUtf8CodePoint rest 0 = .error (.fail e)

/-- Every text is a sequence of encoded scalar values, followed by nothing or by
a rest that the decoder rejects. -/
theorem exists_scalars (l : List UInt8) :
    ∃ cs rest, l = encodeScalars cs ++ rest ∧ (rest = [] ∨ Undecodable rest) := by
  induction hn : l.length using Nat.strong_induction_on generalizing l with
  | h n ih =>
    cases hd : decodeUtf8CodePoint l 0 with
    | error f =>
      by_cases hl : l = []
      · exact ⟨[], [], by simp [hl], .inl rfl⟩
      · obtain ⟨e, rfl⟩ := defined_decodeUtf8CodePoint l 0 f hd
        exact ⟨[], l, rfl, .inr ⟨hl, e, hd⟩⟩
    | ok d =>
      obtain ⟨c, tail, rfl, -⟩ := decodeUtf8CodePoint_sound hd
      have hpos : 0 < (String.utf8EncodeChar c).length :=
        List.length_pos_iff.mpr String.utf8EncodeChar_ne_nil
      obtain ⟨cs, rest, rfl, hrest⟩ := ih tail.length (by
        simp only [List.length_append] at hn
        omega) tail rfl
      exact ⟨c :: cs, rest, by simp, hrest⟩

/-- One encoded scalar value moves the scan past it. -/
lemma decode_step (pre : List UInt8) (c : Char) (rest : List UInt8) :
    decodeUtf8CodePoint (pre ++ (String.utf8EncodeChar c ++ rest)) pre.length =
      .ok ⟨c.toNat, (String.utf8EncodeChar c).length⟩ := by
  rw [decodeUtf8CodePoint_shift, decodeUtf8CodePoint_encode]

lemma length_lt_append {pre l : List UInt8} (h : l ≠ []) : pre.length < (pre ++ l).length := by
  have := List.length_pos_iff.mpr h
  simp only [List.length_append]
  omega

lemma encode_append_ne_nil (c : Char) (rest : List UInt8) :
    String.utf8EncodeChar c ++ rest ≠ [] := by
  simp [String.utf8EncodeChar_ne_nil]

lemma isValidUtf8From_step (pre : List UInt8) (c : Char) (rest : List UInt8) :
    isValidUtf8From (pre ++ (String.utf8EncodeChar c ++ rest)) pre.length =
      isValidUtf8From (pre ++ String.utf8EncodeChar c ++ rest)
        (pre ++ String.utf8EncodeChar c).length := by
  rw [isValidUtf8From, if_pos (length_lt_append (encode_append_ne_nil c rest))]
  split
  · simp_all [decode_step]
  · simp_all [decode_step]
  · next d hd =>
    rw [decode_step] at hd
    cases hd
    simp

/-- The scan of a text whose first part is made of encoded scalar values is the
scan of the rest. -/
theorem isValidUtf8From_scalars (cs : List Char) (pre rest : List UInt8) :
    isValidUtf8From (pre ++ (encodeScalars cs ++ rest)) pre.length =
      isValidUtf8From (pre ++ encodeScalars cs ++ rest) (pre ++ encodeScalars cs).length := by
  induction cs generalizing pre with
  | nil => simp
  | cons c cs ih =>
    have h := ih (pre ++ String.utf8EncodeChar c)
    simp only [List.append_assoc] at h
    simpa only [encodeScalars_cons, List.append_assoc, h] using
      isValidUtf8From_step pre c (encodeScalars cs ++ rest)

lemma isValidUtf8From_end (pre : List UInt8) : isValidUtf8From pre pre.length = .ok true := by
  rw [isValidUtf8From, if_neg (lt_irrefl _)]

lemma isValidUtf8From_undecodable (pre rest : List UInt8) (h : Undecodable rest) :
    isValidUtf8From (pre ++ rest) pre.length = .ok false := by
  obtain ⟨hne, e, he⟩ := h
  rw [isValidUtf8From, if_pos (length_lt_append hne)]
  have hd : decodeUtf8CodePoint (pre ++ rest) pre.length = .error (.fail e) := by
    rw [decodeUtf8CodePoint_shift, he]
  split <;> simp_all

/-- Decoding is deterministic, so the first scalar value of a text is determined. -/
lemma encode_append_inj {c c' : Char} {rest rest' : List UInt8}
    (h : String.utf8EncodeChar c ++ rest = String.utf8EncodeChar c' ++ rest') :
    c = c' ∧ rest = rest' := by
  have hd := decodeUtf8CodePoint_encode c rest
  rw [h, decodeUtf8CodePoint_encode] at hd
  have hc : c = c' := by
    simp only [Except.ok.injEq, DecodedCodePoint.mk.injEq] at hd
    exact (Char.toNat_inj.mp hd.1).symm
  subst hc
  exact ⟨rfl, List.append_cancel_left h⟩

/-- No text has two readings. -/
theorem encodeScalars_injective : Function.Injective encodeScalars := by
  intro cs
  induction cs with
  | nil =>
    intro cs' h
    cases cs' with
    | nil => rfl
    | cons c' cs' => simp at h
  | cons c cs ih =>
    intro cs' h
    cases cs' with
    | nil => simp at h
    | cons c' cs' =>
      simp only [encodeScalars_cons] at h
      obtain ⟨rfl, htail⟩ := encode_append_inj h
      rw [ih htail]

/-- A text with an undecodable rest is no sequence of encoded scalar values. -/
lemma encodeScalars_ne_of_undecodable {rest : List UInt8} (h : Undecodable rest)
    (cs cs' : List Char) : encodeScalars cs' ≠ encodeScalars cs ++ rest := by
  induction cs generalizing cs' with
  | nil =>
    intro he
    obtain ⟨hne, e, hd⟩ := h
    cases cs' with
    | nil => exact hne he.symm
    | cons c' cs' =>
      rw [encodeScalars_nil, List.nil_append] at he
      rw [← he, encodeScalars_cons, decodeUtf8CodePoint_encode] at hd
      cases hd
  | cons c cs ih =>
    intro he
    cases cs' with
    | nil => simp at he
    | cons c' cs' =>
      simp only [encodeScalars_cons, List.append_assoc] at he
      obtain ⟨-, htail⟩ := encode_append_inj he
      exact ih cs' htail

/-- The result of the scan, as a decision about the language. -/
theorem isValidUtf8_spec (s : List UInt8) :
    ∃ b, isValidUtf8 s = .ok b ∧ (b = true ↔ ∃ cs, encodeScalars cs = s) := by
  obtain ⟨cs, rest, rfl, hrest⟩ := exists_scalars s
  have hrun := isValidUtf8From_scalars cs [] rest
  simp only [List.nil_append, List.length_nil] at hrun
  rcases hrest with rfl | hbad
  · refine ⟨true, ?_, ?_⟩
    · simpa [isValidUtf8, isValidUtf8From_end] using hrun
    · simp
  · refine ⟨false, ?_, ?_⟩
    · rw [isValidUtf8, hrun, isValidUtf8From_undecodable _ _ hbad]
    · simpa using encodeScalars_ne_of_undecodable hbad cs

/-- A successful decode advances and stays within the text. -/
theorem decodeUtf8CodePoint_advances {s : List UInt8} {offset : ℕ} {d : DecodedCodePoint}
    (h : decodeUtf8CodePoint s offset = .ok d) :
    offset < offset + d.length ∧ offset + d.length ≤ s.length := by
  have hpos := decodeUtf8CodePoint_length_pos h
  have hlt : offset < s.length := by
    by_contra hge
    simp [decodeUtf8CodePoint, not_lt.mp hge] at h
  obtain ⟨pre, l, rfl, rfl⟩ := exists_split hlt.le
  rw [decodeUtf8CodePoint_shift] at h
  obtain ⟨c, rest, rfl, rfl⟩ := decodeUtf8CodePoint_sound h
  simp only [List.length_append] at *
  omega

/-- The scan accepts exactly the UTF-8 language, whose readings are unique; it
returns on every text, and each of its steps advances within the text. -/
theorem isValidUtf8_language (s : List UInt8) :
    (∃ b, isValidUtf8 s = .ok b ∧ (b = true ↔ ∃ cs, encodeScalars cs = s)) ∧
    (∀ cs cs', encodeScalars cs = s → encodeScalars cs' = s → cs = cs') ∧
    (∀ offset d, decodeUtf8CodePoint s offset = .ok d →
      offset < offset + d.length ∧ offset + d.length ≤ s.length) := by
  refine ⟨isValidUtf8_spec s, ?_, ?_⟩
  · intro cs cs' h h'
    exact encodeScalars_injective (h.trans h'.symm)
  · intro offset d h
    exact decodeUtf8CodePoint_advances h

end Syscape.Utf8
