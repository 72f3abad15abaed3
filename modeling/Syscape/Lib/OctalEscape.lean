import Mathlib.Data.List.Basic
import Mathlib.Data.Nat.Notation
import Mathlib.Tactic.Common

/-!
# Octal escapes

An escaped byte is written as a backslash and the three octal digits of its value. Which
bytes are escaped is a parameter; a backslash always has to be one of them if the text is
to be read back.
-/
namespace OctalEscape

/-- The character is an octal digit. -/
def isDigit (c : UInt8) : Bool := 0x30 ≤ c && c ≤ 0x37

/-- The value of an octal digit. -/
def digitValue (c : UInt8) : ℕ := c.toNat - 0x30

/-- The three octal digits of a byte. -/
def digits (b : UInt8) : List UInt8 :=
  [UInt8.ofNat (0x30 + b.toNat / 64), UInt8.ofNat (0x30 + b.toNat / 8 % 8),
    UInt8.ofNat (0x30 + b.toNat % 8)]

/-- One byte of an escaped text. -/
def escapeByte (special : UInt8 → Bool) (b : UInt8) : List UInt8 :=
  if special b then 0x5C :: digits b else [b]

/-- The text with its special bytes escaped. -/
def escape (special : UInt8 → Bool) (text : List UInt8) : List UInt8 :=
  text.flatMap (escapeByte special)

variable {special : UInt8 → Bool}

@[simp] theorem escape_nil : escape special [] = [] := rfl

@[simp] theorem escape_cons (b : UInt8) (text : List UInt8) :
    escape special (b :: text) = escapeByte special b ++ escape special text := rfl

/-- A text without special bytes is written as it is. -/
theorem escape_eq_self {text : List UInt8} (h : ∀ b ∈ text, special b = false) :
    escape special text = text := by
  induction text with
  | nil => rfl
  | cons b text ih =>
    rw [escape_cons, ih fun c hc => h c (by simp [hc]), escapeByte, if_neg (by simp [h b (by simp)])]
    rfl

theorem escapeByte_ne_nil (b : UInt8) : escapeByte special b ≠ [] := by
  unfold escapeByte
  split_ifs <;> simp

theorem escape_ne_nil {text : List UInt8} (h : text ≠ []) : escape special text ≠ [] := by
  cases text with
  | nil => exact absurd rfl h
  | cons b text => simp [escapeByte_ne_nil]

section Digits

/-- An octal digit as it is written. -/
lemma toNat_digit {d : ℕ} (h : d < 8) : (UInt8.ofNat (0x30 + d)).toNat = 0x30 + d := by
  rw [UInt8.toNat_ofNat', Nat.mod_eq_of_lt (by omega)]

theorem isDigit_digit {d : ℕ} (h : d < 8) : isDigit (UInt8.ofNat (0x30 + d)) = true := by
  simp only [isDigit, Bool.and_eq_true, decide_eq_true_eq, UInt8.le_iff_toNat_le, toNat_digit h]
  constructor
  · exact Nat.le_add_right 0x30 d
  · change 0x30 + d ≤ 0x37
    omega

theorem digitValue_digit {d : ℕ} (h : d < 8) : digitValue (UInt8.ofNat (0x30 + d)) = d := by
  rw [digitValue, toNat_digit h]
  omega

/-- The three digits of a byte are octal digits, and they have its value. -/
theorem digits_spec (b : UInt8) :
    ∃ h t o, digits b = [h, t, o] ∧ isDigit h = true ∧ isDigit t = true ∧ isDigit o = true ∧
      digitValue h * 64 + digitValue t * 8 + digitValue o = b.toNat := by
  have hb := b.toNat_lt
  have hh : b.toNat / 64 < 8 := by omega
  have ht : b.toNat / 8 % 8 < 8 := by omega
  have ho : b.toNat % 8 < 8 := by omega
  refine ⟨_, _, _, rfl, isDigit_digit hh, isDigit_digit ht, isDigit_digit ho, ?_⟩
  rw [digitValue_digit hh, digitValue_digit ht, digitValue_digit ho]
  omega

/-- Putting three octal digits together by shifts. -/
theorem or_digits {h t o : ℕ} (ht : t < 8) (ho : o < 8) :
    (h <<< 6) ||| (t <<< 3) ||| o = h * 64 + t * 8 + o := by
  have hlow : (t <<< 3) ||| o = t * 8 + o := by
    rw [← Nat.shiftLeft_add_eq_or_of_lt (show o < 2 ^ 3 by omega), Nat.shiftLeft_eq]
  rw [Nat.or_assoc, hlow, ← Nat.shiftLeft_add_eq_or_of_lt (show t * 8 + o < 2 ^ 6 by omega),
    Nat.shiftLeft_eq]
  omega

theorem digitValue_lt {c : UInt8} (h : isDigit c = true) : digitValue c < 8 := by
  simp only [isDigit, Bool.and_eq_true, decide_eq_true_eq, UInt8.le_iff_toNat_le] at h
  have hle : c.toNat ≤ 0x37 := h.2
  unfold digitValue
  omega

/-- What stands in an escaped text. -/
theorem mem_escape {c : UInt8} {text : List UInt8} (h : c ∈ escape special text) :
    c = 0x5C ∨ isDigit c = true ∨ special c = false := by
  obtain ⟨b, -, hc⟩ := List.mem_flatMap.mp h
  unfold escapeByte at hc
  split_ifs at hc with hspecial
  · obtain ⟨h, t, o, hdigits, hh, ht, ho, -⟩ := digits_spec b
    rw [hdigits] at hc
    simp only [List.mem_cons, List.not_mem_nil, or_false] at hc
    rcases hc with rfl | rfl | rfl | rfl
    · exact .inl rfl
    · exact .inr (.inl hh)
    · exact .inr (.inl ht)
    · exact .inr (.inl ho)
  · rw [List.mem_singleton.mp hc]
    exact .inr (.inr (by simpa using hspecial))

/-- A byte that is escaped, and is neither a backslash nor a digit, is not in an escaped text. -/
theorem not_mem_escape {c : UInt8} (text : List UInt8) (hne : c ≠ 0x5C)
    (hdigit : isDigit c = false) (hspecial : special c = true) : c ∉ escape special text := by
  intro hmem
  rcases mem_escape hmem with h | h | h
  · exact hne h
  · rw [hdigit] at h
    cases h
  · rw [hspecial] at h
    cases h

end Digits

/-- A reader that takes each byte of an escaped text back reads the text. -/
theorem read_escape {ε : Type*} {decode : List UInt8 → Except ε (List UInt8)}
    {text : List UInt8} (rest : List UInt8)
    (hstep : ∀ b ∈ text, ∀ more, decode (escapeByte special b ++ more) =
      (decode more).map (b :: ·)) :
    decode (escape special text ++ rest) = (decode rest).map (text ++ ·) := by
  induction text with
  | nil => cases h : decode rest <;> simp [h, Except.map]
  | cons b text ih =>
    rw [escape_cons, List.append_assoc, hstep b (by simp), ih fun c hc => hstep c (by simp [hc])]
    cases decode rest <;> rfl

end OctalEscape
