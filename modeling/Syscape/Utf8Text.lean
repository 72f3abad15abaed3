import Syscape.Utf8Language

/-!
# Valid texts

What follows for the texts that the validity scan accepts: they can be put together, and
cut at every ASCII byte.
-/
namespace Syscape.Utf8

/-- `is_valid_utf8` accepts the text. -/
def ValidUtf8 (s : List UInt8) : Prop := isValidUtf8 s = .ok true

instance (s : List UInt8) : Decidable (ValidUtf8 s) :=
  inferInstanceAs (Decidable (isValidUtf8 s = .ok true))

theorem validUtf8_iff {s : List UInt8} : ValidUtf8 s ↔ ∃ cs, encodeScalars cs = s := by
  obtain ⟨b, hb, hiff⟩ := isValidUtf8_spec s
  rw [← hiff, ValidUtf8, hb, Except.ok.injEq]

/-- The scan returns on every text. -/
theorem isValidUtf8_eq (s : List UInt8) : isValidUtf8 s = .ok (decide (ValidUtf8 s)) := by
  obtain ⟨b, hb, -⟩ := isValidUtf8_spec s
  simp only [ValidUtf8, hb, Except.ok.injEq, Bool.decide_eq_true]

theorem encodeScalars_append (cs ds : List Char) :
    encodeScalars (cs ++ ds) = encodeScalars cs ++ encodeScalars ds := by
  simp [encodeScalars_eq]

@[simp] theorem validUtf8_nil : ValidUtf8 [] := validUtf8_iff.mpr ⟨[], rfl⟩

theorem ValidUtf8.append {s t : List UInt8} (hs : ValidUtf8 s) (ht : ValidUtf8 t) :
    ValidUtf8 (s ++ t) := by
  obtain ⟨cs, rfl⟩ := validUtf8_iff.mp hs
  obtain ⟨ds, rfl⟩ := validUtf8_iff.mp ht
  exact validUtf8_iff.mpr ⟨cs ++ ds, encodeScalars_append cs ds⟩

/-- An ASCII byte in the encoding of a scalar value is the whole encoding. -/
lemma utf8EncodeChar_of_ascii {c : Char} {b : UInt8} (h : b ∈ String.utf8EncodeChar c)
    (hb : b < 0x80) : String.utf8EncodeChar c = [b] := by
  have hlt : b.toNat < 0x80 := hb
  simp only [String.utf8EncodeChar] at h ⊢
  split_ifs at h ⊢ with h1 h2 h3
  · rw [List.mem_singleton.mp h]
  all_goals
    -- every byte of a longer encoding is above 7F
    exfalso
    simp only [List.mem_cons, List.not_mem_nil, or_false, ← UInt8.toNat_inj,
      UInt8.toNat_ofNat'] at h
    omega

/-- A text is cut at an ASCII byte into valid texts. -/
theorem encodeScalars_split {b : UInt8} (hb : b < 0x80) {cs : List Char} {s t : List UInt8}
    (h : encodeScalars cs = s ++ b :: t) :
    ∃ ds es, encodeScalars ds = s ∧ encodeScalars es = t := by
  induction cs generalizing s with
  | nil => simp at h
  | cons c cs ih =>
    rw [encodeScalars_cons] at h
    rcases List.append_eq_append_iff.mp h with ⟨mid, rfl, hmid⟩ | ⟨mid, hmid, hrest⟩
    · obtain ⟨ds, es, hds, rfl⟩ := ih hmid
      exact ⟨c :: ds, es, by rw [encodeScalars_cons, hds], rfl⟩
    · cases mid with
      | nil =>
        obtain ⟨ds, es, hds, rfl⟩ := ih (s := []) hrest.symm
        exact ⟨[c], es, by simpa using hmid, rfl⟩
      | cons d mid =>
        obtain ⟨rfl, rfl⟩ := List.cons.inj hrest
        have hc := utf8EncodeChar_of_ascii (c := c) (hmid ▸ by simp) hb
        rw [hc, eq_comm, List.append_eq_singleton_iff] at hmid
        obtain ⟨rfl, hmid⟩ | ⟨-, hmid⟩ := hmid
        · rw [(List.cons.inj hmid).2]
          exact ⟨[], cs, rfl, rfl⟩
        · cases hmid

/-- An ASCII byte stands for itself. -/
theorem validUtf8_singleton {b : UInt8} (hb : b < 0x80) : ValidUtf8 [b] := by
  have hlt : b.toNat < 0x80 := hb
  obtain ⟨c, hc⟩ := exists_char (v := b.toNat) (by omega)
  refine validUtf8_iff.mpr ⟨[c], ?_⟩
  have hval : c.val.toNat = b.toNat := hc
  rw [encodeScalars_cons, encodeScalars_nil, List.append_nil]
  simp only [String.utf8EncodeChar]
  rw [if_pos (by omega), hval, UInt8.ofNat_toNat]

theorem validUtf8_ascii {s : List UInt8} (h : ∀ c ∈ s, c < 0x80) : ValidUtf8 s := by
  induction s with
  | nil => exact validUtf8_nil
  | cons c s ih =>
    exact (validUtf8_singleton (h c (by simp))).append (ih fun d hd => h d (by simp [hd]))

/-- The byte FF does not occur in UTF-8. -/
theorem not_validUtf8_ff : ¬ ValidUtf8 [0xFF] := by
  intro h
  unfold ValidUtf8 isValidUtf8 at h
  rw [isValidUtf8From] at h
  cases h

theorem validUtf8_append_ascii {b : UInt8} (hb : b < 0x80) {s t : List UInt8} :
    ValidUtf8 (s ++ b :: t) ↔ ValidUtf8 s ∧ ValidUtf8 t := by
  constructor
  · intro h
    obtain ⟨cs, hcs⟩ := validUtf8_iff.mp h
    obtain ⟨ds, es, hds, hes⟩ := encodeScalars_split hb hcs
    exact ⟨validUtf8_iff.mpr ⟨ds, hds⟩, validUtf8_iff.mpr ⟨es, hes⟩⟩
  · rintro ⟨hs, ht⟩
    simpa using hs.append ((validUtf8_singleton hb).append ht)

/-- A text without the ASCII bytes in front of it. -/
theorem ValidUtf8.of_ascii_append {front s : List UInt8} (hfront : ∀ c ∈ front, c < 0x80)
    (h : ValidUtf8 (front ++ s)) : ValidUtf8 s := by
  induction front with
  | nil => exact h
  | cons c front ih =>
    rw [List.forall_mem_cons] at hfront
    exact ih hfront.2 ((validUtf8_append_ascii hfront.1 (s := [])).mp h).2

/-- A text without the ASCII bytes behind it. -/
theorem ValidUtf8.of_append_ascii {s back : List UInt8} (hback : ∀ c ∈ back, c < 0x80)
    (h : ValidUtf8 (s ++ back)) : ValidUtf8 s := by
  cases back with
  | nil => rwa [List.append_nil] at h
  | cons c back => exact ((validUtf8_append_ascii (hback c (by simp))).mp h).1

/-- One ASCII byte can be written for another. -/
theorem ValidUtf8.replace {a b : UInt8} (ha : a < 0x80) (hb : b < 0x80) {s : List UInt8}
    (h : ValidUtf8 s) : ValidUtf8 (s.map fun c => if c = a then b else c) := by
  have hsame {t : List UInt8} (ht : a ∉ t) : t.map (fun c => if c = a then b else c) = t := by
    conv_rhs => rw [← List.map_id t]
    apply List.map_congr_left
    intro c hc
    exact if_neg fun hca : c = a => ht (hca ▸ hc)
  induction hn : s.length using Nat.strongRecOn generalizing s with
  | ind n ih =>
    by_cases hmem : a ∈ s
    · obtain ⟨p, t, rfl, hp⟩ := List.eq_append_cons_of_mem hmem
      obtain ⟨hvalid, ht⟩ := (validUtf8_append_ascii ha).mp h
      rw [List.map_append, hsame hp, List.map_cons, if_pos rfl, validUtf8_append_ascii hb]
      exact ⟨hvalid, ih t.length (by simp [← hn]; omega) ht rfl⟩
    · rwa [hsame hmem]

/-- The pieces of a valid text between ASCII separators are valid. -/
theorem validUtf8_splitOn {sep : UInt8} (hsep : sep < 0x80) {s : List UInt8} (h : ValidUtf8 s) :
    ∀ piece ∈ s.splitOn sep, ValidUtf8 piece := by
  have hpieces : ∀ pieces : List (List UInt8), ValidUtf8 ([sep].intercalate pieces) →
      ∀ piece ∈ pieces, ValidUtf8 piece := by
    intro pieces
    induction pieces with
    | nil => simp
    | cons piece pieces ih =>
      cases pieces with
      | nil => simp
      | cons next pieces =>
        intro hvalid
        rw [List.intercalate_cons_cons, List.append_assoc, List.singleton_append,
          validUtf8_append_ascii hsep] at hvalid
        rw [List.forall_mem_cons]
        exact ⟨hvalid.1, ih hvalid.2⟩
  apply hpieces
  rwa [List.intercalate_splitOn]

end Syscape.Utf8
