import Syscape.Lib.Checked

/-!
# Length-prefixed records

A buffer holds records one after the other. Each begins with a header of fixed size
that gives the length of the record, header included; the next record begins at the
aligned length. `walk` is the loop over such a buffer, with checked accesses; `split`
only finds the records, and a walk is a run of its body over what `split` finds.
-/
namespace Frames
open Checked
universe u v

/-- The shape of the records: the size of the header, how it gives the length, and the
alignment of the next record. -/
structure Layout where
  headerSize : ℕ
  headerSize_pos : 0 < headerSize
  lengthField : List UInt8 → ℕ
  align : ℕ → ℕ

structure Frame where
  header : List UInt8
  payload : List UInt8
  deriving DecidableEq, Repr

variable {σ : Type} {ε : Type}

/-- Where the record behind one with this header begins. -/
def Layout.advance (layout : Layout) (header : List UInt8) : ℕ :=
  layout.align (layout.lengthField header)

/-- The length in a header is that of a record that fits. -/
def Layout.Fits (layout : Layout) (header bytes : List UInt8) : Prop :=
  layout.headerSize ≤ layout.lengthField header ∧ layout.lengthField header ≤ bytes.length

/-- The next record begins behind this one and inside the buffer, or at its end. -/
def Layout.NextFits (layout : Layout) (header bytes : List UInt8) : Prop :=
  layout.lengthField header ≤ layout.advance header ∧ layout.advance header ≤ bytes.length

instance (layout : Layout) (header bytes : List UInt8) : Decidable (layout.Fits header bytes) :=
  inferInstanceAs (Decidable (_ ∧ _))

instance (layout : Layout) (header bytes : List UInt8) :
    Decidable (layout.NextFits header bytes) :=
  inferInstanceAs (Decidable (_ ∧ _))

theorem Layout.drop_lt {layout : Layout} {header bytes : List UInt8}
    (h : layout.Fits header bytes) (hnext : layout.NextFits header bytes) :
    (bytes.drop (layout.advance header)).length < bytes.length := by
  have hpos := layout.headerSize_pos
  obtain ⟨h1, h2⟩ := h
  obtain ⟨h3, h4⟩ := hnext
  rw [List.length_drop]
  omega

/-- The loop over the records of a buffer. -/
def walk (layout : Layout) (malformed : ε) (body : σ → Frame → Except (Fault ε) σ) (state : σ)
    (bytes : List UInt8) : Except (Fault ε) σ :=
  if bytes = [] then .ok state
  else if bytes.length < layout.headerSize then .error (.fail malformed)
  else do
    let header ← slice bytes 0 layout.headerSize
    if _h : layout.Fits header bytes then
      let payload ← slice bytes layout.headerSize (layout.lengthField header - layout.headerSize)
      let state ← body state ⟨header, payload⟩
      if _hnext : layout.NextFits header bytes then
        walk layout malformed body state (bytes.drop (layout.advance header))
      else .error (.fail malformed)
    else .error (.fail malformed)
termination_by bytes.length
decreasing_by exact Layout.drop_lt _h _hnext

/-- The first record of a buffer. -/
def Layout.first (layout : Layout) (bytes : List UInt8) : Frame :=
  ⟨bytes.take layout.headerSize, (bytes.drop layout.headerSize).take
    (layout.lengthField (bytes.take layout.headerSize) - layout.headerSize)⟩

/-- The records of a buffer, and whether the buffer ends with the last one. -/
def split (layout : Layout) (bytes : List UInt8) : List Frame × Bool :=
  if bytes = [] then ([], true)
  else if bytes.length < layout.headerSize then ([], false)
  else if _h : layout.Fits (bytes.take layout.headerSize) bytes then
    if _hnext : layout.NextFits (bytes.take layout.headerSize) bytes then
      let rest := split layout (bytes.drop (layout.advance (bytes.take layout.headerSize)))
      (layout.first bytes :: rest.1, rest.2)
    else ([layout.first bytes], false)
  else ([], false)
termination_by bytes.length
decreasing_by exact Layout.drop_lt _h _hnext

/-- A walk runs its body over the records and then looks at what is left. -/
theorem walk_eq (layout : Layout) (malformed : ε) (body : σ → Frame → Except (Fault ε) σ)
    (state : σ) (bytes : List UInt8) :
    walk layout malformed body state bytes =
      (split layout bytes).1.foldlM body state >>= fun state =>
        if (split layout bytes).2 then .ok state else .error (.fail malformed) := by
  have hheader : ∀ bytes : List UInt8, ¬ bytes.length < layout.headerSize →
      (slice bytes 0 layout.headerSize : Except (Fault ε) (List UInt8)) =
        .ok (bytes.take layout.headerSize) := by
    intro bytes h
    rw [slice_of_le (by omega), List.drop_zero]
  have hpayload : ∀ bytes : List UInt8, layout.Fits (bytes.take layout.headerSize) bytes →
      (slice bytes layout.headerSize
          (layout.lengthField (bytes.take layout.headerSize) - layout.headerSize) :
          Except (Fault ε) (List UInt8)) = .ok (layout.first bytes).payload := by
    intro bytes h
    obtain ⟨h1, h2⟩ := h
    rw [slice_of_le (by omega)]
    rfl
  induction bytes using split.induct layout generalizing state with
  | case1 => simp [walk, split]
  | case2 bytes hne hlt => simp [walk, split, hne, hlt]
  | case3 bytes hne hlt h hnext ih =>
    rw [walk, if_neg hne, if_neg hlt, hheader bytes hlt, ok_bind, dif_pos h, hpayload bytes h,
      ok_bind, split, if_neg hne, if_neg hlt, dif_pos h, dif_pos hnext]
    simp only [List.foldlM_cons, bind_assoc, dif_pos hnext, ih]
    rfl
  | case4 bytes hne hlt h hnext =>
    rw [walk, if_neg hne, if_neg hlt, hheader bytes hlt, ok_bind, dif_pos h, hpayload bytes h,
      ok_bind, split, if_neg hne, if_neg hlt, dif_pos h, dif_neg hnext]
    simp [hnext]
    rfl
  | case5 bytes hne hlt h =>
    rw [walk, if_neg hne, if_neg hlt, hheader bytes hlt, ok_bind, dif_neg h, split, if_neg hne,
      if_neg hlt, dif_neg h]
    rfl

/-- Every record that is found has a whole header. -/
theorem length_header_of_mem_split {layout : Layout} {bytes : List UInt8} {frame : Frame}
    (h : frame ∈ (split layout bytes).1) : frame.header.length = layout.headerSize := by
  induction bytes using split.induct layout with
  | case1 => simp [split] at h
  | case2 bytes hne hlt => simp [split, hne, hlt] at h
  | case3 bytes hne hlt hfits hnext ih =>
    rw [split, if_neg hne, if_neg hlt, dif_pos hfits, dif_pos hnext] at h
    rcases List.mem_cons.mp h with rfl | h
    · rw [Layout.first, List.length_take]
      omega
    · exact ih h
  | case4 bytes hne hlt hfits hnext =>
    rw [split, if_neg hne, if_neg hlt, dif_pos hfits, dif_neg hnext] at h
    rw [List.mem_singleton.mp h, Layout.first, List.length_take]
    omega
  | case5 bytes hne hlt hfits =>
    rw [split, if_neg hne, if_neg hlt, dif_neg hfits] at h
    cases h

section Faults
variable {layout : Layout} {malformed : ε} {body : σ → Frame → Except (Fault ε) σ}

/-- A walk meets no fault but those of its body. -/
theorem walk_avoids {fault : Fault ε} (hfault : fault ≠ .fail malformed) (state : σ)
    (bytes : List UInt8) (hbody : ∀ state, ∀ frame ∈ (split layout bytes).1,
      Avoids fault (body state frame)) : Avoids fault (walk layout malformed body state bytes) := by
  rw [walk_eq]
  apply Avoids.bind (Avoids.foldlM _ _ hbody)
  intro state' _
  split_ifs
  · exact avoids_ok fault state'
  · intro h
    cases h
    exact hfault rfl

theorem defined_walk (state : σ) (bytes : List UInt8)
    (hbody : ∀ state, ∀ frame ∈ (split layout bytes).1, Defined (body state frame)) :
    Defined (walk layout malformed body state bytes) := by
  rw [walk_eq]
  apply Defined.bind (Defined.foldlM _ _ hbody)
  intro state' _
  split_ifs
  · exact defined_ok state'
  · exact defined_fail malformed

end Faults

section Encode
variable {layout : Layout}

/-- A record with the padding up to the next one. -/
def Layout.encode (layout : Layout) (frame : Frame) : List UInt8 :=
  frame.header ++ frame.payload ++
    List.replicate (layout.advance frame.header - layout.lengthField frame.header) 0

/-- The header of a record gives its length. -/
structure Layout.WellFormed (layout : Layout) (frame : Frame) : Prop where
  header_length : frame.header.length = layout.headerSize
  length_eq : layout.lengthField frame.header = layout.headerSize + frame.payload.length
  le_advance : layout.lengthField frame.header ≤ layout.advance frame.header

theorem Layout.WellFormed.length_encode {frame : Frame} (h : layout.WellFormed frame) :
    (layout.encode frame).length = layout.advance frame.header := by
  obtain ⟨h1, h2, h3⟩ := h
  simp only [Layout.encode, List.length_append, List.length_replicate]
  omega

/-- A record in front of a buffer is the first one that a split finds. -/
theorem split_encode_append {frame : Frame} (h : layout.WellFormed frame) (more : List UInt8) :
    split layout (layout.encode frame ++ more) =
      (frame :: (split layout more).1, (split layout more).2) := by
  have hlength := h.length_encode
  obtain ⟨h1, h2, h3⟩ := h
  have hpos := layout.headerSize_pos
  have hheader : (layout.encode frame ++ more).take layout.headerSize = frame.header := by
    rw [Layout.encode, List.append_assoc, List.append_assoc, List.take_append_of_le_length (by omega),
      ← h1, List.take_length]
  have hpayload : ((layout.encode frame ++ more).drop layout.headerSize).take
      (layout.lengthField frame.header - layout.headerSize) = frame.payload := by
    have hlen : layout.lengthField frame.header - layout.headerSize = frame.payload.length := by omega
    rw [hlen, ← h1, Layout.encode, List.append_assoc, List.append_assoc, List.drop_left,
      List.take_left]
  have hdrop : (layout.encode frame ++ more).drop (layout.advance frame.header) = more := by
    rw [← hlength, List.drop_left]
  have htotal : (layout.encode frame ++ more).length = layout.advance frame.header + more.length := by
    rw [List.length_append, hlength]
  have hne : layout.encode frame ++ more ≠ [] := by
    intro hnil
    rw [hnil] at htotal
    simp at htotal
    omega
  have hfits : layout.Fits frame.header (layout.encode frame ++ more) := ⟨by omega, by omega⟩
  have hnext : layout.NextFits frame.header (layout.encode frame ++ more) := ⟨h3, by omega⟩
  have hfirst : layout.first (layout.encode frame ++ more) = frame := by
    rw [Layout.first, hheader, hpayload]
  rw [split, if_neg hne, if_neg (by omega)]
  simp only [hheader]
  rw [dif_pos hfits, dif_pos hnext]
  simp only [hfirst, hdrop]

/-- Splitting finds exactly the records that were put together. -/
theorem split_encode (frames : List Frame) (h : ∀ frame ∈ frames, layout.WellFormed frame) :
    split layout (frames.flatMap layout.encode) = (frames, true) := by
  induction frames with
  | nil => simp [split]
  | cons frame frames ih =>
    rw [List.flatMap_cons, split_encode_append (h frame (by simp)),
      ih fun f hf => h f (by simp [hf])]

theorem walk_encode (malformed : ε) (body : σ → Frame → Except (Fault ε) σ) (state : σ)
    (frames : List Frame) (h : ∀ frame ∈ frames, layout.WellFormed frame) :
    walk layout malformed body state (frames.flatMap layout.encode) =
      frames.foldlM body state := by
  rw [walk_eq, split_encode frames h]
  cases frames.foldlM body state <;> rfl

end Encode

end Frames
