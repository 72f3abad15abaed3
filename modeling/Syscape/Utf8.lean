import Syscape.Error
import Mathlib.Data.Nat.Bitwise

/-!
# UTF-8 and UTF-16 conversion

The decoder of one code point, the validity scan and the two converters of
`detail/utf8.hpp`. A `char` is a `UInt8`, a `char16_t` a `UInt16`; code points and
the bytes under inspection are natural numbers, since every shift and mask of the
source stays far below 32 bits.
-/
namespace Syscape.Utf8
open Checked

/-- `decoded_code_point`. -/
structure DecodedCodePoint where
  value : ℕ
  length : ℕ
  deriving DecidableEq, Repr

/-- The `continuation` lambda of the decoder. -/
def continuation (value : ℕ) : Prop := 0x80 ≤ value ∧ value ≤ 0xBF

instance (value : ℕ) : Decidable (continuation value) :=
  inferInstanceAs (Decidable (_ ∧ _))

/-- Which second byte may follow the lead byte of a three-byte form. -/
def secondValid3 (first second : ℕ) : Prop :=
  if first = 0xE0 then 0xA0 ≤ second ∧ second ≤ 0xBF
  else if first = 0xED then 0x80 ≤ second ∧ second ≤ 0x9F
  else continuation second

instance (first second : ℕ) : Decidable (secondValid3 first second) := by
  unfold secondValid3
  infer_instance

/-- Which second byte may follow the lead byte of a four-byte form. -/
def secondValid4 (first second : ℕ) : Prop :=
  if first = 0xF0 then 0x90 ≤ second ∧ second ≤ 0xBF
  else if first = 0xF4 then 0x80 ≤ second ∧ second ≤ 0x8F
  else continuation second

instance (first second : ℕ) : Decidable (secondValid4 first second) := by
  unfold secondValid4
  infer_instance

/-- `decode_utf8_code_point`. The continuation bytes are read only after the
length test of their form, as the short-circuit operators of the source do. -/
def decodeUtf8CodePoint (input : List UInt8) (offset : ℕ) : Result DecodedCodePoint :=
  if offset ≥ input.length then fail .invalidEncoding
  else do
    let first ← readByte input offset
    if first ≤ 0x7F then
      return ⟨first, 1⟩
    else if 0xC2 ≤ first ∧ first ≤ 0xDF then
      if offset + 1 ≥ input.length then fail .invalidEncoding
      else do
        let second ← readByte input (offset + 1)
        if ¬ continuation second then fail .invalidEncoding
        else return ⟨(first &&& 0x1F) <<< 6 ||| (second &&& 0x3F), 2⟩
    else if 0xE0 ≤ first ∧ first ≤ 0xEF then
      if offset + 2 ≥ input.length then fail .invalidEncoding
      else do
        let second ← readByte input (offset + 1)
        let third ← readByte input (offset + 2)
        if ¬ secondValid3 first second ∨ ¬ continuation third then fail .invalidEncoding
        else return ⟨(first &&& 0x0F) <<< 12 ||| (second &&& 0x3F) <<< 6 |||
          (third &&& 0x3F), 3⟩
    else if 0xF0 ≤ first ∧ first ≤ 0xF4 then
      if offset + 3 ≥ input.length then fail .invalidEncoding
      else do
        let second ← readByte input (offset + 1)
        let third ← readByte input (offset + 2)
        let fourth ← readByte input (offset + 3)
        if ¬ secondValid4 first second ∨ ¬ continuation third ∨ ¬ continuation fourth then
          fail .invalidEncoding
        else return ⟨(first &&& 0x07) <<< 18 ||| (second &&& 0x3F) <<< 12 |||
          (third &&& 0x3F) <<< 6 ||| (fourth &&& 0x3F), 4⟩
    else fail .invalidEncoding

/-- `append_utf8`; the casts to `char` keep the low eight bits. -/
def appendUtf8 (output : List UInt8) (value : ℕ) : List UInt8 :=
  if value ≤ 0x7F then
    output ++ [UInt8.ofNat value]
  else if value ≤ 0x7FF then
    output ++ [UInt8.ofNat (0xC0 ||| value >>> 6), UInt8.ofNat (0x80 ||| (value &&& 0x3F))]
  else if value ≤ 0xFFFF then
    output ++ [UInt8.ofNat (0xE0 ||| value >>> 12),
      UInt8.ofNat (0x80 ||| ((value >>> 6) &&& 0x3F)),
      UInt8.ofNat (0x80 ||| (value &&& 0x3F))]
  else
    output ++ [UInt8.ofNat (0xF0 ||| value >>> 18),
      UInt8.ofNat (0x80 ||| ((value >>> 12) &&& 0x3F)),
      UInt8.ofNat (0x80 ||| ((value >>> 6) &&& 0x3F)),
      UInt8.ofNat (0x80 ||| (value &&& 0x3F))]

/-- The decoder looks only at the bytes from its offset on. -/
theorem decodeUtf8CodePoint_shift (pre l : List UInt8) :
    decodeUtf8CodePoint (pre ++ l) pre.length = decodeUtf8CodePoint l 0 := by
  simp only [decodeUtf8CodePoint, readByte_append_right, readByte_append_length,
    List.length_append, Nat.zero_add, ge_iff_le, Nat.add_le_add_iff_left]
  simp only [show ∀ n, pre.length + n ≤ pre.length ↔ n ≤ 0 by omega]

section Forms
variable {a b c e : UInt8} {rest : List UInt8}

lemma decode_one (h : a.toNat ≤ 0x7F) :
    decodeUtf8CodePoint (a :: rest) 0 = .ok ⟨a.toNat, 1⟩ := by
  simp [decodeUtf8CodePoint, h]

lemma decode_two (h : 0xC2 ≤ a.toNat ∧ a.toNat ≤ 0xDF) :
    decodeUtf8CodePoint (a :: b :: rest) 0 =
      if ¬ continuation b.toNat then fail .invalidEncoding
      else .ok ⟨(a.toNat &&& 0x1F) <<< 6 ||| (b.toNat &&& 0x3F), 2⟩ := by
  have h1 : ¬ a.toNat ≤ 0x7F := by omega
  simp [decodeUtf8CodePoint, h1, h]

lemma decode_three (h : 0xE0 ≤ a.toNat ∧ a.toNat ≤ 0xEF) :
    decodeUtf8CodePoint (a :: b :: c :: rest) 0 =
      if ¬ secondValid3 a.toNat b.toNat ∨ ¬ continuation c.toNat then fail .invalidEncoding
      else .ok ⟨(a.toNat &&& 0x0F) <<< 12 ||| (b.toNat &&& 0x3F) <<< 6 |||
        (c.toNat &&& 0x3F), 3⟩ := by
  have h1 : ¬ a.toNat ≤ 0x7F := by omega
  have h2 : ¬ (0xC2 ≤ a.toNat ∧ a.toNat ≤ 0xDF) := by omega
  simp only [decodeUtf8CodePoint, List.length_cons, readByte_cons_zero, readByte_cons_succ,
    ok_bind, pure_eq_ok, if_neg h1, if_neg h2, if_pos h]
  simp

lemma decode_four (h : 0xF0 ≤ a.toNat ∧ a.toNat ≤ 0xF4) :
    decodeUtf8CodePoint (a :: b :: c :: e :: rest) 0 =
      if ¬ secondValid4 a.toNat b.toNat ∨ ¬ continuation c.toNat ∨ ¬ continuation e.toNat then
        fail .invalidEncoding
      else .ok ⟨(a.toNat &&& 0x07) <<< 18 ||| (b.toNat &&& 0x3F) <<< 12 |||
        (c.toNat &&& 0x3F) <<< 6 ||| (e.toNat &&& 0x3F), 4⟩ := by
  have h1 : ¬ a.toNat ≤ 0x7F := by omega
  have h2 : ¬ (0xC2 ≤ a.toNat ∧ a.toNat ≤ 0xDF) := by omega
  have h3 : ¬ (0xE0 ≤ a.toNat ∧ a.toNat ≤ 0xEF) := by omega
  simp only [decodeUtf8CodePoint, List.length_cons, readByte_cons_zero, readByte_cons_succ,
    ok_bind, pure_eq_ok, if_neg h1, if_neg h2, if_neg h3, if_pos h]
  simp

end Forms

/-- The four forms that the decoder accepts at the front of a text, each with the
bounds it checked. -/
theorem decodeUtf8CodePoint_cases {l : List UInt8} {d : DecodedCodePoint}
    (h : decodeUtf8CodePoint l 0 = .ok d) :
    (∃ a rest, l = a :: rest ∧ a.toNat ≤ 0x7F ∧ d = ⟨a.toNat, 1⟩) ∨
    (∃ a b rest, l = a :: b :: rest ∧ (0xC2 ≤ a.toNat ∧ a.toNat ≤ 0xDF) ∧
      continuation b.toNat ∧
      d = ⟨(a.toNat &&& 0x1F) <<< 6 ||| (b.toNat &&& 0x3F), 2⟩) ∨
    (∃ a b c rest, l = a :: b :: c :: rest ∧ (0xE0 ≤ a.toNat ∧ a.toNat ≤ 0xEF) ∧
      secondValid3 a.toNat b.toNat ∧ continuation c.toNat ∧
      d = ⟨(a.toNat &&& 0x0F) <<< 12 ||| (b.toNat &&& 0x3F) <<< 6 |||
        (c.toNat &&& 0x3F), 3⟩) ∨
    (∃ a b c e rest, l = a :: b :: c :: e :: rest ∧ (0xF0 ≤ a.toNat ∧ a.toNat ≤ 0xF4) ∧
      secondValid4 a.toNat b.toNat ∧ continuation c.toNat ∧ continuation e.toNat ∧
      d = ⟨(a.toNat &&& 0x07) <<< 18 ||| (b.toNat &&& 0x3F) <<< 12 |||
        (c.toNat &&& 0x3F) <<< 6 ||| (e.toNat &&& 0x3F), 4⟩) := by
  match l with
  | [] => simp [decodeUtf8CodePoint] at h
  | a :: l =>
    by_cases h1 : a.toNat ≤ 0x7F
    · rw [decode_one h1] at h
      exact .inl ⟨a, l, rfl, h1, by simpa using h.symm⟩
    by_cases h2 : 0xC2 ≤ a.toNat ∧ a.toNat ≤ 0xDF
    · match l with
      | [] => simp [decodeUtf8CodePoint, h1] at h
      | b :: rest =>
        rw [decode_two h2] at h
        by_cases hb : continuation b.toNat
        · rw [if_neg (not_not.mpr hb)] at h
          exact .inr (.inl ⟨a, b, rest, rfl, h2, hb, by simpa using h.symm⟩)
        · simp [hb] at h
    by_cases h3 : 0xE0 ≤ a.toNat ∧ a.toNat ≤ 0xEF
    · match l with
      | [] => simp [decodeUtf8CodePoint, h1] at h
      | [_] => simp [decodeUtf8CodePoint, h1, h2] at h
      | b :: c :: rest =>
        rw [decode_three h3] at h
        split_ifs at h with hb
        · simp at h
        · push Not at hb
          exact .inr (.inr (.inl ⟨a, b, c, rest, rfl, h3, hb.1, hb.2, by simpa using h.symm⟩))
    by_cases h4 : 0xF0 ≤ a.toNat ∧ a.toNat ≤ 0xF4
    · match l with
      | [] => simp [decodeUtf8CodePoint, h1] at h
      | [_] => simp [decodeUtf8CodePoint, h1, h2] at h
      | [_, _] => simp [decodeUtf8CodePoint, h1, h2, h3] at h
      | b :: c :: e :: rest =>
        rw [decode_four h4] at h
        split_ifs at h with hb
        · simp at h
        · push Not at hb
          exact .inr (.inr (.inr ⟨a, b, c, e, rest, rfl, h4, hb.1, hb.2.1, hb.2.2,
            by simpa using h.symm⟩))
    · simp [decodeUtf8CodePoint, h1, h2, h3, h4] at h

section Arithmetic

lemma shl_or (a n b : ℕ) (h : b < 2 ^ n) : a <<< n ||| b = a * 2 ^ n + b := by
  rw [← Nat.shiftLeft_add_eq_or_of_lt h, Nat.shiftLeft_eq]

lemma and_3F (n : ℕ) : n &&& 0x3F = n % 64 := Nat.and_two_pow_sub_one_eq_mod n 6

lemma value_two (a b : ℕ) :
    (a &&& 0x1F) <<< 6 ||| (b &&& 0x3F) = a % 32 * 64 + b % 64 := by
  rw [and_3F, show a &&& 0x1F = a % 32 from Nat.and_two_pow_sub_one_eq_mod a 5,
    shl_or _ _ _ (by omega)]
  rfl

lemma value_three (a b c : ℕ) :
    (a &&& 0x0F) <<< 12 ||| (b &&& 0x3F) <<< 6 ||| (c &&& 0x3F) =
      a % 16 * 4096 + b % 64 * 64 + c % 64 := by
  rw [and_3F, and_3F, show a &&& 0x0F = a % 16 from Nat.and_two_pow_sub_one_eq_mod a 4,
    Nat.or_assoc, shl_or (b % 64) _ _ (by omega), shl_or _ _ _ (by omega)]
  omega

lemma value_four (a b c e : ℕ) :
    (a &&& 0x07) <<< 18 ||| (b &&& 0x3F) <<< 12 ||| (c &&& 0x3F) <<< 6 ||| (e &&& 0x3F) =
      a % 8 * 262144 + b % 64 * 4096 + c % 64 * 64 + e % 64 := by
  rw [and_3F, and_3F, and_3F, show a &&& 0x07 = a % 8 from Nat.and_two_pow_sub_one_eq_mod a 3,
    Nat.or_assoc, Nat.or_assoc, shl_or (c % 64) _ _ (by omega), shl_or (b % 64) _ _ (by omega),
    shl_or _ _ _ (by omega)]
  omega

lemma tail_byte (n : ℕ) : 0x80 ||| (n &&& 0x3F) = n % 0x40 + 0x80 := by
  rw [and_3F, Nat.add_comm]
  exact shl_or 2 6 _ (by omega)

lemma lead_two {v : ℕ} (h : v ≤ 0x7FF) : 0xC0 ||| v >>> 6 = v / 64 % 0x20 + 0xC0 := by
  rw [Nat.shiftRight_eq_div_pow]
  calc 0xC0 ||| v / 2 ^ 6 = 3 * 2 ^ 6 + v / 2 ^ 6 := shl_or 3 6 _ (by omega)
    _ = _ := by omega

lemma lead_three {v : ℕ} (h : v ≤ 0xFFFF) : 0xE0 ||| v >>> 12 = v / 4096 % 0x10 + 0xE0 := by
  rw [Nat.shiftRight_eq_div_pow]
  calc 0xE0 ||| v / 2 ^ 12 = 7 * 2 ^ 5 + v / 2 ^ 12 := shl_or 7 5 _ (by omega)
    _ = _ := by omega

lemma lead_four {v : ℕ} (h : v < 0x110000) :
    0xF0 ||| v >>> 18 = v / 262144 % 0x08 + 0xF0 := by
  rw [Nat.shiftRight_eq_div_pow]
  calc 0xF0 ||| v / 2 ^ 18 = 15 * 2 ^ 4 + v / 2 ^ 18 := shl_or 15 4 _ (by omega)
    _ = _ := by omega

end Arithmetic

lemma toNat_lt (c : Char) : c.toNat < 0x110000 := by
  rcases c.valid with h | h <;> simp only [Char.toNat] <;> omega

/-- The encoder of the source is the UTF-8 encoder of scalar values. -/
theorem appendUtf8_eq (output : List UInt8) (c : Char) :
    appendUtf8 output c.toNat = output ++ String.utf8EncodeChar c := by
  have hv := toNat_lt c
  have h6 : c.toNat >>> 6 = c.toNat / 64 := Nat.shiftRight_eq_div_pow _ 6
  have h12 : c.toNat >>> 12 = c.toNat / 4096 := Nat.shiftRight_eq_div_pow _ 12
  unfold appendUtf8 String.utf8EncodeChar
  simp only [← Char.toNat.eq_def]
  split_ifs with h1 h2 h3
  · rfl
  · rw [lead_two h2, tail_byte]
  · rw [lead_three h3, tail_byte, tail_byte, h6]
  · rw [lead_four hv, tail_byte, tail_byte, tail_byte, h6, h12]

/-- Decoding the encoding of a scalar value gives the value back, whatever follows. -/
theorem decodeUtf8CodePoint_encode (c : Char) (rest : List UInt8) :
    decodeUtf8CodePoint (String.utf8EncodeChar c ++ rest) 0 =
      .ok ⟨c.toNat, (String.utf8EncodeChar c).length⟩ := by
  have hv := toNat_lt c
  have hs : c.toNat < 0xD800 ∨ 0xDFFF < c.toNat := by
    rcases c.valid with h | h <;> simp only [Char.toNat] <;> omega
  unfold String.utf8EncodeChar
  simp only [← Char.toNat.eq_def]
  generalize c.toNat = v at hv hs
  split_ifs with h1 h2 h3
  · have ha : (UInt8.ofNat v).toNat = v := by simp; omega
    rw [List.cons_append, decode_one (by omega), ha]
    rfl
  · have ha : (UInt8.ofNat (v / 64 % 0x20 + 0xC0)).toNat = v / 64 + 0xC0 := by simp; omega
    have hb : (UInt8.ofNat (v % 0x40 + 0x80)).toNat = v % 64 + 0x80 := by simp; omega
    simp only [List.cons_append, List.nil_append]
    rw [decode_two (by omega), ha, hb, value_two, if_neg (by unfold continuation; omega)]
    simp
    omega
  · have ha : (UInt8.ofNat (v / 4096 % 0x10 + 0xE0)).toNat = v / 4096 + 0xE0 := by simp; omega
    have hb : (UInt8.ofNat (v / 64 % 0x40 + 0x80)).toNat = v / 64 % 64 + 0x80 := by simp; omega
    have hc : (UInt8.ofNat (v % 0x40 + 0x80)).toNat = v % 64 + 0x80 := by simp; omega
    have hsecond : secondValid3 (v / 4096 + 0xE0) (v / 64 % 64 + 0x80) := by
      unfold secondValid3 continuation
      split_ifs <;> omega
    have hthird : continuation (v % 64 + 0x80) := ⟨by omega, by omega⟩
    simp only [List.cons_append, List.nil_append]
    rw [decode_three (by omega), ha, hb, hc, value_three,
      if_neg (not_or.mpr ⟨not_not.mpr hsecond, not_not.mpr hthird⟩)]
    simp
    omega
  · have ha : (UInt8.ofNat (v / 262144 % 0x08 + 0xF0)).toNat = v / 262144 + 0xF0 := by
      simp; omega
    have hb : (UInt8.ofNat (v / 4096 % 0x40 + 0x80)).toNat = v / 4096 % 64 + 0x80 := by
      simp; omega
    have hc : (UInt8.ofNat (v / 64 % 0x40 + 0x80)).toNat = v / 64 % 64 + 0x80 := by simp; omega
    have he : (UInt8.ofNat (v % 0x40 + 0x80)).toNat = v % 64 + 0x80 := by simp; omega
    have hsecond : secondValid4 (v / 262144 + 0xF0) (v / 4096 % 64 + 0x80) := by
      unfold secondValid4 continuation
      split_ifs <;> omega
    have hthird : continuation (v / 64 % 64 + 0x80) := ⟨by omega, by omega⟩
    have hfourth : continuation (v % 64 + 0x80) := ⟨by omega, by omega⟩
    simp only [List.cons_append, List.nil_append]
    rw [decode_four (by omega), ha, hb, hc, he, value_four,
      if_neg (not_or.mpr ⟨not_not.mpr hsecond,
        not_or.mpr ⟨not_not.mpr hthird, not_not.mpr hfourth⟩⟩)]
    simp
    omega

lemma ofNat_eq {n : ℕ} {a : UInt8} (h : n = a.toNat) : UInt8.ofNat n = a := by
  rw [h, UInt8.ofNat_toNat]

lemma exists_char {v : ℕ} (h : v < 0xD800 ∨ 0xDFFF < v ∧ v < 0x110000) :
    ∃ c : Char, c.toNat = v := by
  exact ⟨Char.ofNatAux v h, rfl⟩

/-- What the decoder accepts at the front of a text is the encoding of a scalar value. -/
theorem decodeUtf8CodePoint_sound {l : List UInt8} {d : DecodedCodePoint}
    (h : decodeUtf8CodePoint l 0 = .ok d) :
    ∃ (c : Char) (rest : List UInt8), l = String.utf8EncodeChar c ++ rest ∧
      d = ⟨c.toNat, (String.utf8EncodeChar c).length⟩ := by
  rcases decodeUtf8CodePoint_cases h with ⟨a, rest, rfl, ha, rfl⟩ |
    ⟨a, b, rest, rfl, ha, hb, rfl⟩ | ⟨a, b, c, rest, rfl, ha, hb, hc, rfl⟩ |
    ⟨a, b, c, e, rest, rfl, ha, hb, hc, he, rfl⟩
  · obtain ⟨s, hs⟩ := exists_char (v := a.toNat) (by omega)
    have henc : String.utf8EncodeChar s = [a] := by
      unfold String.utf8EncodeChar
      simp only [← Char.toNat.eq_def, hs]
      rw [if_pos ha, ofNat_eq rfl]
    exact ⟨s, rest, by rw [henc]; rfl, by rw [henc, hs]; rfl⟩
  · obtain ⟨hb1, hb2⟩ := hb
    obtain ⟨s, hs⟩ := exists_char (v := a.toNat % 32 * 64 + b.toNat % 64) (by omega)
    have henc : String.utf8EncodeChar s = [a, b] := by
      unfold String.utf8EncodeChar
      simp only [← Char.toNat.eq_def, hs]
      rw [if_neg (by omega), if_pos (by omega), ofNat_eq (a := a) (by omega),
        ofNat_eq (a := b) (by omega)]
    exact ⟨s, rest, by rw [henc]; rfl, by rw [henc, hs, value_two]; rfl⟩
  · obtain ⟨hc1, hc2⟩ := hc
    -- the bound on the second byte excludes overlong forms and surrogates
    have hb' : (128 ≤ b.toNat ∧ b.toNat ≤ 191) ∧ (a.toNat = 0xE0 → 0xA0 ≤ b.toNat) ∧
        (a.toNat = 0xED → b.toNat ≤ 0x9F) := by
      unfold secondValid3 continuation at hb
      split_ifs at hb <;> omega
    obtain ⟨s, hs⟩ := exists_char
      (v := a.toNat % 16 * 4096 + b.toNat % 64 * 64 + c.toNat % 64) (by omega)
    have henc : String.utf8EncodeChar s = [a, b, c] := by
      unfold String.utf8EncodeChar
      simp only [← Char.toNat.eq_def, hs]
      rw [if_neg (by omega), if_neg (by omega), if_pos (by omega), ofNat_eq (a := a) (by omega),
        ofNat_eq (a := b) (by omega), ofNat_eq (a := c) (by omega)]
    exact ⟨s, rest, by rw [henc]; rfl, by rw [henc, hs, value_three]; rfl⟩
  · obtain ⟨hc1, hc2⟩ := hc
    obtain ⟨he1, he2⟩ := he
    -- the bound on the second byte excludes overlong forms and values above 10FFFF
    have hb' : (128 ≤ b.toNat ∧ b.toNat ≤ 191) ∧ (a.toNat = 0xF0 → 0x90 ≤ b.toNat) ∧
        (a.toNat = 0xF4 → b.toNat ≤ 0x8F) := by
      unfold secondValid4 continuation at hb
      split_ifs at hb <;> omega
    obtain ⟨s, hs⟩ := exists_char (v := a.toNat % 8 * 262144 + b.toNat % 64 * 4096 +
      c.toNat % 64 * 64 + e.toNat % 64) (by omega)
    have henc : String.utf8EncodeChar s = [a, b, c, e] := by
      unfold String.utf8EncodeChar
      simp only [← Char.toNat.eq_def, hs]
      rw [if_neg (by omega), if_neg (by omega), if_neg (by omega), ofNat_eq (a := a) (by omega),
        ofNat_eq (a := b) (by omega), ofNat_eq (a := c) (by omega), ofNat_eq (a := e) (by omega)]
    exact ⟨s, rest, by rw [henc]; rfl, by rw [henc, hs, value_four]; rfl⟩

/-- A decoded code point takes at least one byte, so every scan advances. -/
theorem decodeUtf8CodePoint_length_pos {input : List UInt8} {offset : ℕ}
    {d : DecodedCodePoint} (h : decodeUtf8CodePoint input offset = .ok d) : 0 < d.length := by
  have hlt : offset < input.length := by
    by_contra hge
    simp [decodeUtf8CodePoint, not_lt.mp hge] at h
  obtain ⟨pre, l, rfl, rfl⟩ := exists_split hlt.le
  rw [decodeUtf8CodePoint_shift] at h
  obtain ⟨c, rest, -, rfl⟩ := decodeUtf8CodePoint_sound h
  exact List.length_pos_iff.mpr String.utf8EncodeChar_ne_nil

/-- The decoder never reads outside its text, wherever it is started. -/
theorem defined_decodeUtf8CodePoint (input : List UInt8) (offset : ℕ) :
    Defined (decodeUtf8CodePoint input offset) := by
  unfold decodeUtf8CodePoint
  split
  · exact defined_failErrc _
  refine (defined_readByte (by omega)).bind fun first _ => ?_
  split
  · exact defined_ok _
  split
  · split
    · exact defined_failErrc _
    refine (defined_readByte (by omega)).bind fun second _ => ?_
    split <;> simp
  split
  · split
    · exact defined_failErrc _
    refine (defined_readByte (by omega)).bind fun second _ => ?_
    refine (defined_readByte (by omega)).bind fun third _ => ?_
    split <;> simp
  split
  · split
    · exact defined_failErrc _
    refine (defined_readByte (by omega)).bind fun second _ => ?_
    refine (defined_readByte (by omega)).bind fun third _ => ?_
    refine (defined_readByte (by omega)).bind fun fourth _ => ?_
    split <;> simp
  · exact defined_failErrc _

end Syscape.Utf8
