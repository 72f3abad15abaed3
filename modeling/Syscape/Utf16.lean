import Syscape.Utf8Text

/-!
# Conversion between UTF-8 and UTF-16

Both converters factor through scalar values: one reads a text as scalar values
and writes their code units, the other reads code units as scalar values and
writes their bytes. A `char16_t` is a `UInt16`.
-/
namespace Syscape.Utf8
open Checked

/-- The code units that `utf8_to_utf16` pushes for one code point. -/
def utf16Units (value : ℕ) : List UInt16 :=
  if value ≤ 0xFFFF then [UInt16.ofNat value]
  else
    let adjusted := value - 0x10000
    [UInt16.ofNat (0xD800 + adjusted >>> 10), UInt16.ofNat (0xDC00 + (adjusted &&& 0x3FF))]

/-- The loop of `utf8_to_utf16`. -/
def utf8ToUtf16From (input : List UInt8) (offset : ℕ) (output : List UInt16) :
    Result (List UInt16) :=
  if offset < input.length then
    match _h : decodeUtf8CodePoint input offset with
    | .error f => .error f
    | .ok decoded =>
      utf8ToUtf16From input (offset + decoded.length) (output ++ utf16Units decoded.value)
  else .ok output
termination_by input.length - offset
decreasing_by
  have := decodeUtf8CodePoint_length_pos _h
  omega

/-- `utf8_to_utf16`. -/
def utf8ToUtf16 (input : List UInt8) : Result (List UInt16) := utf8ToUtf16From input 0 []

/-- The loop of `utf16_to_utf8`. -/
def utf16ToUtf8From (input : List UInt16) (index : ℕ) (output : List UInt8) :
    Result (List UInt8) :=
  if index < input.length then do
    let first := (← read input index).toNat
    if 0xD800 ≤ first ∧ first ≤ 0xDBFF then
      if index + 1 ≥ input.length then fail .invalidEncoding
      else do
        let second := (← read input (index + 1)).toNat
        if second < 0xDC00 ∨ second > 0xDFFF then fail .invalidEncoding
        else
          utf16ToUtf8From input (index + 2)
            (appendUtf8 output (0x10000 + (first - 0xD800) <<< 10 + (second - 0xDC00)))
    else if 0xDC00 ≤ first ∧ first ≤ 0xDFFF then fail .invalidEncoding
    else utf16ToUtf8From input (index + 1) (appendUtf8 output first)
  else .ok output
termination_by input.length - index

/-- `utf16_to_utf8`. -/
def utf16ToUtf8 (input : List UInt16) : Result (List UInt8) := utf16ToUtf8From input 0 []

/-- The code units of scalar values, one after the other. -/
def unitsOfScalars (cs : List Char) : List UInt16 := cs.flatMap fun c => utf16Units c.toNat

@[simp] theorem unitsOfScalars_nil : unitsOfScalars [] = [] := rfl

@[simp] theorem unitsOfScalars_cons (c : Char) (cs : List Char) :
    unitsOfScalars (c :: cs) = utf16Units c.toNat ++ unitsOfScalars cs := by
  simp [unitsOfScalars]

section FromUtf8

lemma utf8ToUtf16From_step (pre : List UInt8) (c : Char) (rest : List UInt8)
    (output : List UInt16) :
    utf8ToUtf16From (pre ++ (String.utf8EncodeChar c ++ rest)) pre.length output =
      utf8ToUtf16From (pre ++ String.utf8EncodeChar c ++ rest)
        (pre ++ String.utf8EncodeChar c).length (output ++ utf16Units c.toNat) := by
  rw [utf8ToUtf16From, if_pos (length_lt_append (encode_append_ne_nil c rest))]
  split
  · simp_all [decode_step]
  · next d hd =>
    rw [decode_step] at hd
    cases hd
    simp

theorem utf8ToUtf16From_scalars (cs : List Char) (pre rest : List UInt8)
    (output : List UInt16) :
    utf8ToUtf16From (pre ++ (encodeScalars cs ++ rest)) pre.length output =
      utf8ToUtf16From (pre ++ encodeScalars cs ++ rest) (pre ++ encodeScalars cs).length
        (output ++ unitsOfScalars cs) := by
  induction cs generalizing pre output with
  | nil => simp
  | cons c cs ih =>
    have h := ih (pre ++ String.utf8EncodeChar c) (output ++ utf16Units c.toNat)
    simp only [List.append_assoc] at h
    simpa only [encodeScalars_cons, unitsOfScalars_cons, List.append_assoc, h] using
      utf8ToUtf16From_step pre c (encodeScalars cs ++ rest) output

/-- The text of scalar values becomes their code units. -/
theorem utf8ToUtf16_scalars (cs : List Char) :
    utf8ToUtf16 (encodeScalars cs) = .ok (unitsOfScalars cs) := by
  have h := utf8ToUtf16From_scalars cs [] [] []
  simp only [List.nil_append, List.append_nil, List.length_nil] at h
  rw [utf8ToUtf16, h, utf8ToUtf16From, if_neg (lt_irrefl _)]

/-- A text that is not valid UTF-8 is rejected. -/
theorem utf8ToUtf16_undecodable (cs : List Char) {rest : List UInt8} (h : Undecodable rest) :
    ∃ e, utf8ToUtf16 (encodeScalars cs ++ rest) = .error (.fail e) := by
  have hrun := utf8ToUtf16From_scalars cs [] rest []
  simp only [List.nil_append, List.length_nil] at hrun
  obtain ⟨hne, e, he⟩ := h
  refine ⟨e, ?_⟩
  rw [utf8ToUtf16, hrun, utf8ToUtf16From, if_pos (length_lt_append hne)]
  have hd : decodeUtf8CodePoint (encodeScalars cs ++ rest) (encodeScalars cs).length =
      .error (.fail e) := by
    rw [decodeUtf8CodePoint_shift, he]
  split <;> simp_all

/-- What a successful conversion read. -/
theorem utf8ToUtf16_eq_ok {s : List UInt8} {u : List UInt16} (h : utf8ToUtf16 s = .ok u) :
    ∃ cs, s = encodeScalars cs ∧ u = unitsOfScalars cs := by
  obtain ⟨cs, rest, rfl, rfl | hbad⟩ := exists_scalars s
  · rw [List.append_nil, utf8ToUtf16_scalars] at h
    exact ⟨cs, by simp, by simpa using h.symm⟩
  · obtain ⟨e, he⟩ := utf8ToUtf16_undecodable cs hbad
    rw [he] at h
    cases h

end FromUtf8

section FromUtf16

/-- A unit in D800..DBFF. -/
def HighSurrogate (u : UInt16) : Prop := 0xD800 ≤ u.toNat ∧ u.toNat ≤ 0xDBFF

/-- A unit in DC00..DFFF. -/
def LowSurrogate (u : UInt16) : Prop := 0xDC00 ≤ u.toNat ∧ u.toNat ≤ 0xDFFF

/-- Every surrogate is part of a high-low pair: a high one is followed by a low one,
a low one follows a high one. -/
def SurrogatesPaired (u : List UInt16) : Prop :=
  ∀ i a, u[i]? = some a →
    (HighSurrogate a → ∃ b, u[i + 1]? = some b ∧ LowSurrogate b) ∧
    (LowSurrogate a → ∃ j b, i = j + 1 ∧ u[j]? = some b ∧ HighSurrogate b)

lemma and_3FF (n : ℕ) : n &&& 0x3FF = n % 1024 := Nat.and_two_pow_sub_one_eq_mod n 10

/-- The two shapes of the code units of a scalar value. -/
theorem utf16Units_cases (c : Char) :
    (∃ a, utf16Units c.toNat = [a] ∧ a.toNat = c.toNat ∧ ¬ HighSurrogate a ∧
      ¬ LowSurrogate a) ∨
    (∃ a b, utf16Units c.toNat = [a, b] ∧ HighSurrogate a ∧ LowSurrogate b ∧
      0x10000 + (a.toNat - 0xD800) <<< 10 + (b.toNat - 0xDC00) = c.toNat) := by
  have hv := toNat_lt c
  have hs : c.toNat < 0xD800 ∨ 0xDFFF < c.toNat := by
    rcases c.valid with h | h <;> simp only [Char.toNat] <;> omega
  generalize c.toNat = v at hv hs
  unfold utf16Units HighSurrogate LowSurrogate
  split_ifs with hle
  · left
    have ha : (UInt16.ofNat v).toNat = v := by simp; omega
    exact ⟨_, rfl, ha, by rw [ha]; omega, by rw [ha]; omega⟩
  · right
    simp only [Nat.shiftRight_eq_div_pow, and_3FF]
    have ha : (UInt16.ofNat (0xD800 + (v - 0x10000) / 2 ^ 10)).toNat =
        0xD800 + (v - 0x10000) / 2 ^ 10 := by simp; omega
    have hb : (UInt16.ofNat (0xDC00 + (v - 0x10000) % 1024)).toNat =
        0xDC00 + (v - 0x10000) % 1024 := by simp; omega
    refine ⟨_, _, rfl, by rw [ha]; omega, by rw [hb]; omega, ?_⟩
    rw [ha, hb, Nat.shiftLeft_eq]
    omega

/-- A unit outside the surrogate range is a scalar value. -/
lemma exists_scalar_of_unit {a : UInt16} (hh : ¬ HighSurrogate a) (hl : ¬ LowSurrogate a) :
    ∃ c : Char, utf16Units c.toNat = [a] := by
  have ha := a.toNat_lt
  unfold HighSurrogate at hh
  unfold LowSurrogate at hl
  obtain ⟨c, hc⟩ := exists_char (v := a.toNat) (by omega)
  refine ⟨c, ?_⟩
  rw [hc, utf16Units, if_pos (by omega), UInt16.ofNat_toNat]

/-- A high-low pair is a scalar value above FFFF. -/
lemma exists_scalar_of_pair {a b : UInt16} (ha : HighSurrogate a) (hb : LowSurrogate b) :
    ∃ c : Char, utf16Units c.toNat = [a, b] := by
  obtain ⟨ha1, ha2⟩ := ha
  obtain ⟨hb1, hb2⟩ := hb
  obtain ⟨c, hc⟩ := exists_char
    (v := 0x10000 + (a.toNat - 0xD800) * 1024 + (b.toNat - 0xDC00)) (by omega)
  refine ⟨c, ?_⟩
  have hhigh : 0xD800 + (0x10000 + (a.toNat - 0xD800) * 1024 + (b.toNat - 0xDC00) - 0x10000) / 2 ^ 10
      = a.toNat := by omega
  have hlow : 0xDC00 + (0x10000 + (a.toNat - 0xD800) * 1024 + (b.toNat - 0xDC00) - 0x10000) % 1024
      = b.toNat := by omega
  rw [hc, utf16Units, if_neg (by omega)]
  simp only [Nat.shiftRight_eq_div_pow, and_3FF]
  rw [hhigh, hlow, UInt16.ofNat_toNat, UInt16.ofNat_toNat]

/-- A rest at which the conversion stops: a low surrogate, or a high one without a
low one behind it. -/
def Unpaired (rest : List UInt16) : Prop :=
  ∃ a tail, rest = a :: tail ∧
    (LowSurrogate a ∨ HighSurrogate a ∧ ∀ b, tail[0]? = some b → ¬ LowSurrogate b)

/-- Every sequence of units is a sequence of scalar values, followed by nothing or
by an unpaired surrogate. -/
theorem exists_scalars_of_units (u : List UInt16) :
    ∃ cs rest, u = unitsOfScalars cs ++ rest ∧ (rest = [] ∨ Unpaired rest) := by
  induction hn : u.length using Nat.strong_induction_on generalizing u with
  | h n ih =>
    match u with
    | [] => exact ⟨[], [], rfl, .inl rfl⟩
    | a :: tail =>
      simp only [List.length_cons] at hn
      by_cases hl : LowSurrogate a
      · exact ⟨[], a :: tail, rfl, .inr ⟨a, tail, rfl, .inl hl⟩⟩
      by_cases hh : HighSurrogate a
      · match tail with
        | [] => exact ⟨[], [a], rfl, .inr ⟨a, [], rfl, .inr ⟨hh, by simp⟩⟩⟩
        | b :: tail =>
          by_cases hb : LowSurrogate b
          · obtain ⟨c, hc⟩ := exists_scalar_of_pair hh hb
            simp only [List.length_cons] at hn
            obtain ⟨cs, rest, rfl, hrest⟩ := ih tail.length (by omega) tail rfl
            exact ⟨c :: cs, rest, by simp [hc], hrest⟩
          · exact ⟨[], a :: b :: tail, rfl, .inr ⟨a, b :: tail, rfl, .inr ⟨hh, by simpa using hb⟩⟩⟩
      · obtain ⟨c, hc⟩ := exists_scalar_of_unit hh hl
        obtain ⟨cs, rest, rfl, hrest⟩ := ih tail.length (by omega) tail rfl
        exact ⟨c :: cs, rest, by simp [hc], hrest⟩

lemma utf16ToUtf8From_step (pre : List UInt16) (c : Char) (rest : List UInt16)
    (output : List UInt8) :
    utf16ToUtf8From (pre ++ (utf16Units c.toNat ++ rest)) pre.length output =
      utf16ToUtf8From (pre ++ utf16Units c.toNat ++ rest) (pre ++ utf16Units c.toNat).length
        (appendUtf8 output c.toNat) := by
  rcases utf16Units_cases c with ⟨a, hc, ha, hh, hl⟩ | ⟨a, b, hc, hh, hl, hv⟩
  · rw [hc, utf16ToUtf8From, if_pos (by simp)]
    simp only [HighSurrogate, LowSurrogate, ha] at hh hl
    simp [read_append_length, hh, hl, ha]
  · rw [hc, utf16ToUtf8From, if_pos (by simp)]
    simp only [HighSurrogate, LowSurrogate] at hh hl
    have hlow : ¬ (b.toNat < 0xDC00 ∨ b.toNat > 0xDFFF) := by omega
    simp [read_append_length, read_append_right, hh, hlow, hv]

theorem utf16ToUtf8From_scalars (cs : List Char) (pre rest : List UInt16)
    (output : List UInt8) :
    utf16ToUtf8From (pre ++ (unitsOfScalars cs ++ rest)) pre.length output =
      utf16ToUtf8From (pre ++ unitsOfScalars cs ++ rest) (pre ++ unitsOfScalars cs).length
        (output ++ encodeScalars cs) := by
  induction cs generalizing pre output with
  | nil => simp
  | cons c cs ih =>
    have h := ih (pre ++ utf16Units c.toNat) (appendUtf8 output c.toNat)
    simp only [List.append_assoc, appendUtf8_eq] at h
    simpa only [encodeScalars_cons, unitsOfScalars_cons, List.append_assoc, appendUtf8_eq, h] using
      utf16ToUtf8From_step pre c (unitsOfScalars cs ++ rest) output

/-- The units of scalar values become their text. -/
theorem utf16ToUtf8_scalars (cs : List Char) :
    utf16ToUtf8 (unitsOfScalars cs) = .ok (encodeScalars cs) := by
  have h := utf16ToUtf8From_scalars cs [] [] []
  simp only [List.nil_append, List.append_nil, List.length_nil] at h
  rw [utf16ToUtf8, h, utf16ToUtf8From, if_neg (lt_irrefl _)]

/-- An unpaired surrogate is rejected. -/
theorem utf16ToUtf8_unpaired (cs : List Char) {rest : List UInt16} (h : Unpaired rest) :
    utf16ToUtf8 (unitsOfScalars cs ++ rest) = fail .invalidEncoding := by
  have hrun := utf16ToUtf8From_scalars cs [] rest []
  simp only [List.nil_append, List.length_nil] at hrun
  rw [utf16ToUtf8, hrun]
  obtain ⟨a, tail, rfl, hlow | ⟨hhigh, hnext⟩⟩ := h
  · unfold LowSurrogate at hlow
    have hnot : ¬ (0xD800 ≤ a.toNat ∧ a.toNat ≤ 0xDBFF) := by omega
    rw [utf16ToUtf8From, if_pos (by simp)]
    simp [read_append_length, hnot, hlow]
  · unfold HighSurrogate at hhigh
    rw [utf16ToUtf8From, if_pos (by simp)]
    match tail with
    | [] => simp [read_append_length, hhigh]
    | b :: tail =>
      have hb : b.toNat < 0xDC00 ∨ b.toNat > 0xDFFF := by
        have := hnext b rfl
        unfold LowSurrogate at this
        omega
      simp [read_append_length, read_append_right, hhigh, hb]

/-- What a successful conversion read. -/
theorem utf16ToUtf8_eq_ok {u : List UInt16} {s : List UInt8} (h : utf16ToUtf8 u = .ok s) :
    ∃ cs, u = unitsOfScalars cs ∧ s = encodeScalars cs := by
  obtain ⟨cs, rest, rfl, rfl | hbad⟩ := exists_scalars_of_units u
  · rw [List.append_nil, utf16ToUtf8_scalars] at h
    exact ⟨cs, by simp, by simpa using h.symm⟩
  · rw [utf16ToUtf8_unpaired cs hbad] at h
    cases h

end FromUtf16

section Pairing

lemma surrogatesPaired_cons {a : UInt16} (hh : ¬ HighSurrogate a) (hl : ¬ LowSurrogate a)
    (rest : List UInt16) : SurrogatesPaired (a :: rest) ↔ SurrogatesPaired rest := by
  constructor
  · intro h i x hx
    obtain ⟨h1, h2⟩ := h (i + 1) x (by simpa using hx)
    refine ⟨by simpa using h1, fun hlow => ?_⟩
    obtain ⟨j, b, hj, hb, hbh⟩ := h2 hlow
    cases i with
    | zero =>
      obtain rfl : j = 0 := by omega
      simp only [List.getElem?_cons_zero, Option.some.injEq] at hb
      exact absurd (hb ▸ hbh) hh
    | succ i =>
      obtain rfl : j = i + 1 := by omega
      exact ⟨i, b, rfl, by simpa using hb, hbh⟩
  · intro h i x hx
    cases i with
    | zero =>
      simp only [List.getElem?_cons_zero, Option.some.injEq] at hx
      subst hx
      exact ⟨fun hx => absurd hx hh, fun hx => absurd hx hl⟩
    | succ i =>
      obtain ⟨h1, h2⟩ := h i x (by simpa using hx)
      refine ⟨by simpa using h1, fun hlow => ?_⟩
      obtain ⟨j, b, rfl, hb, hbh⟩ := h2 hlow
      exact ⟨j + 1, b, rfl, by simpa using hb, hbh⟩

lemma not_low_of_high {a : UInt16} (h : HighSurrogate a) : ¬ LowSurrogate a := by
  unfold HighSurrogate at h
  unfold LowSurrogate
  omega

lemma surrogatesPaired_pair {a b : UInt16} (ha : HighSurrogate a) (hb : LowSurrogate b)
    (rest : List UInt16) : SurrogatesPaired (a :: b :: rest) ↔ SurrogatesPaired rest := by
  have hbh : ¬ HighSurrogate b := fun h => not_low_of_high h hb
  constructor
  · intro h i x hx
    obtain ⟨h1, h2⟩ := h (i + 2) x (by simpa using hx)
    refine ⟨by simpa using h1, fun hlow => ?_⟩
    obtain ⟨j, y, hj, hy, hyh⟩ := h2 hlow
    cases i with
    | zero =>
      obtain rfl : j = 1 := by omega
      simp only [List.getElem?_cons_succ, List.getElem?_cons_zero, Option.some.injEq] at hy
      exact absurd (hy ▸ hyh) hbh
    | succ i =>
      obtain rfl : j = i + 2 := by omega
      exact ⟨i, y, rfl, by simpa using hy, hyh⟩
  · intro h i x hx
    match i with
    | 0 =>
      simp only [List.getElem?_cons_zero, Option.some.injEq] at hx
      subst hx
      exact ⟨fun _ => ⟨b, by simp, hb⟩, fun hx => absurd hx (not_low_of_high ha)⟩
    | 1 =>
      simp only [List.getElem?_cons_succ, List.getElem?_cons_zero, Option.some.injEq] at hx
      subst hx
      exact ⟨fun hx => absurd hx hbh, fun _ => ⟨0, a, rfl, by simp, ha⟩⟩
    | i + 2 =>
      obtain ⟨h1, h2⟩ := h i x (by simpa using hx)
      refine ⟨by simpa using h1, fun hlow => ?_⟩
      obtain ⟨j, y, rfl, hy, hyh⟩ := h2 hlow
      exact ⟨j + 2, y, rfl, by simpa using hy, hyh⟩

theorem surrogatesPaired_scalars_append (cs : List Char) (rest : List UInt16) :
    SurrogatesPaired (unitsOfScalars cs ++ rest) ↔ SurrogatesPaired rest := by
  induction cs with
  | nil => simp
  | cons c cs ih =>
    rw [unitsOfScalars_cons, List.append_assoc, ← ih]
    rcases utf16Units_cases c with ⟨a, hc, -, hh, hl⟩ | ⟨a, b, hc, hh, hl, -⟩
    · rw [hc]
      exact surrogatesPaired_cons hh hl _
    · rw [hc]
      exact surrogatesPaired_pair hh hl _

lemma not_surrogatesPaired_of_unpaired {rest : List UInt16} (h : Unpaired rest) :
    ¬ SurrogatesPaired rest := by
  intro hp
  obtain ⟨a, tail, rfl, hlow | ⟨hhigh, hnext⟩⟩ := h
  · obtain ⟨j, b, hj, -⟩ := (hp 0 a rfl).2 hlow
    omega
  · obtain ⟨b, hb, hbl⟩ := (hp 0 a rfl).1 hhigh
    exact hnext b (by simpa using hb) hbl

/-- The grammar of well-formed UTF-16: every surrogate is paired. -/
theorem surrogatesPaired_iff (u : List UInt16) :
    SurrogatesPaired u ↔ ∃ cs, u = unitsOfScalars cs := by
  constructor
  · intro hp
    obtain ⟨cs, rest, rfl, rfl | hbad⟩ := exists_scalars_of_units u
    · exact ⟨cs, by simp⟩
    · exact absurd ((surrogatesPaired_scalars_append cs rest).mp hp)
        (not_surrogatesPaired_of_unpaired hbad)
  · rintro ⟨cs, rfl⟩
    have h := (surrogatesPaired_scalars_append cs []).mpr (by simp [SurrogatesPaired])
    simpa using h

end Pairing

/-- The two converters are mutually inverse partial functions, with the valid texts
and the well-paired unit sequences as their domains. -/
theorem utf8_utf16_inverse :
    (∀ s u, utf8ToUtf16 s = .ok u → utf16ToUtf8 u = .ok s) ∧
    (∀ u s, utf16ToUtf8 u = .ok s → isValidUtf8 s = .ok true ∧ utf8ToUtf16 s = .ok u) ∧
    (∀ s, (∃ u, utf8ToUtf16 s = .ok u) ↔ isValidUtf8 s = .ok true) ∧
    (∀ u, (∃ s, utf16ToUtf8 u = .ok s) ↔ SurrogatesPaired u) := by
  refine ⟨?_, ?_, ?_, ?_⟩
  · intro s u h
    obtain ⟨cs, rfl, rfl⟩ := utf8ToUtf16_eq_ok h
    exact utf16ToUtf8_scalars cs
  · intro u s h
    obtain ⟨cs, rfl, rfl⟩ := utf16ToUtf8_eq_ok h
    exact ⟨validUtf8_iff.mpr ⟨cs, rfl⟩, utf8ToUtf16_scalars cs⟩
  · intro s
    show _ ↔ ValidUtf8 s
    rw [validUtf8_iff]
    constructor
    · rintro ⟨u, h⟩
      obtain ⟨cs, rfl, -⟩ := utf8ToUtf16_eq_ok h
      exact ⟨cs, rfl⟩
    · rintro ⟨cs, rfl⟩
      exact ⟨_, utf8ToUtf16_scalars cs⟩
  · intro u
    rw [surrogatesPaired_iff]
    constructor
    · rintro ⟨s, h⟩
      obtain ⟨cs, rfl, -⟩ := utf16ToUtf8_eq_ok h
      exact ⟨cs, rfl⟩
    · rintro ⟨cs, rfl⟩
      exact ⟨_, utf16ToUtf8_scalars cs⟩

end Syscape.Utf8
