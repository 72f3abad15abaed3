import Syscape.Lib.Numerals
import Mathlib.Data.List.Forall2
import Mathlib.Data.Nat.Digits.Lemmas

/-!
# Bytes in hexadecimal

A byte is written as two digits, the high half first, and letters may be of either case.
Folding the case keeps the value of a digit, and a text of digits is determined by their
values up to the case.
-/
namespace Hex
open FromChars Numerals Digits

/-- What holds of all 256 bytes. -/
theorem forall_byte {p : UInt8 → Prop} (h : ∀ n < 256, p (UInt8.ofNat n)) (c : UInt8) : p c := by
  have hc := h c.toNat c.toNat_lt
  rwa [UInt8.ofNat_toNat] at hc

section Case

/-- A letter in lower case. -/
def lower (c : UInt8) : UInt8 := if 0x41 ≤ c ∧ c ≤ 0x5A then c + 0x20 else c

@[simp] theorem digit_lower (c : UInt8) : digit (lower c) = digit c :=
  forall_byte (p := fun c => digit (lower c) = digit c) (by decide +kernel) c

@[simp] theorem lower_lower (c : UInt8) : lower (lower c) = lower c :=
  forall_byte (p := fun c => lower (lower c) = lower c) (by decide +kernel) c

/-- A digit in lower case is determined by its value. -/
theorem lowerHexDigit_digit {c : UInt8} (h : digit c < 16) : lowerHexDigit (digit c) = lower c :=
  forall_byte (p := fun c => digit c < 16 → lowerHexDigit (digit c) = lower c)
    (by decide +kernel) c h

theorem lower_of_not_digit {c : UInt8} (h : digit c = 36) : lower c = c :=
  forall_byte (p := fun c => digit c = 36 → lower c = c) (by decide +kernel) c h

/-- A byte that is no digit and no letter is the lower case of itself only. -/
theorem lower_eq_iff {c d : UInt8} (hd : digit d = 36) : lower c = d ↔ c = d := by
  constructor
  · intro h
    rw [← h, lower_of_not_digit]
    rw [← digit_lower, h, hd]
  · rintro rfl
    exact lower_of_not_digit hd

end Case

section Pairs

/-- The text writes the bytes, each as two digits of either case. -/
inductive Spells : List UInt8 → List UInt8 → Prop where
  | nil : Spells [] []
  | cons {bytes text : List UInt8} (b high low : UInt8) (high_eq : digit high = b.toNat / 16)
      (low_eq : digit low = b.toNat % 16) (rest : Spells bytes text) :
      Spells (b :: bytes) (high :: low :: text)

variable {bytes more text : List UInt8}

theorem Spells.length_eq (h : Spells bytes text) : text.length = 2 * bytes.length := by
  induction h with
  | nil => rfl
  | cons _ _ _ _ _ _ ih =>
    simp only [List.length_cons, ih]
    omega

theorem Spells.digits (h : Spells bytes text) : ∀ c ∈ text, digit c < 16 := by
  induction h with
  | nil => simp
  | cons b high low hhigh hlow _ ih =>
    have hb := b.toNat_lt
    rw [List.forall_mem_cons, List.forall_mem_cons]
    exact ⟨by omega, by omega, ih⟩

/-- A text spells one string of bytes only. -/
theorem Spells.unique (h : Spells bytes text) (hmore : Spells more text) : bytes = more := by
  induction h generalizing more with
  | nil =>
    cases hmore
    rfl
  | cons b high low hhigh hlow _ ih =>
    cases hmore with
    | cons c _ _ hhigh' hlow' hrest =>
      have hbyte : b = c := by
        apply UInt8.toNat_inj.mp
        omega
      rw [hbyte, ih hrest]

theorem Spells.append {text' : List UInt8} (h : Spells bytes text) (hmore : Spells more text') :
    Spells (bytes ++ more) (text ++ text') := by
  induction h with
  | nil => exact hmore
  | cons b high low hhigh hlow _ ih => exact .cons b high low hhigh hlow ih

/-- Two digits are those of a byte. -/
theorem exists_pair {high low : UInt8} (hhigh : digit high < 16) (hlow : digit low < 16) :
    ∃ b : UInt8, digit high = b.toNat / 16 ∧ digit low = b.toNat % 16 := by
  refine ⟨UInt8.ofNat (digit high * 16 + digit low), ?_⟩
  rw [UInt8.toNat_ofNat']
  omega

/-- The texts that spell something are those of an even number of digits. -/
theorem exists_spells_iff :
    (∃ bytes, Spells bytes text) ↔ text.length % 2 = 0 ∧ ∀ c ∈ text, digit c < 16 := by
  constructor
  · rintro ⟨bytes, h⟩
    refine ⟨?_, h.digits⟩
    rw [h.length_eq, Nat.mul_mod_right]
  · rintro ⟨heven, hdigits⟩
    induction hn : text.length using Nat.strong_induction_on generalizing text with
    | h n ih =>
      match text with
      | [] => exact ⟨[], .nil⟩
      | [c] => simp at heven
      | high :: low :: text =>
        simp only [List.forall_mem_cons] at hdigits
        simp only [List.length_cons] at heven hn
        obtain ⟨b, hhigh, hlow⟩ := exists_pair hdigits.1 hdigits.2.1
        obtain ⟨bytes, hbytes⟩ := ih text.length (by omega) (by omega) hdigits.2.2 rfl
        exact ⟨b :: bytes, .cons b high low hhigh hlow hbytes⟩

end Pairs

section Fixed

/-- So many digits of a number, the most significant one first, letters in lower case. -/
def fixed (n : ℕ) : ℕ → List UInt8
  | 0 => []
  | width + 1 => fixed (n / 16) width ++ [lowerHexDigit (n % 16)]

@[simp] theorem length_fixed (n width : ℕ) : (fixed n width).length = width := by
  induction width generalizing n with
  | zero => rfl
  | succ width ih => simp [fixed, ih]

/-- The digits of two numbers one above the other. -/
theorem fixed_append {low width : ℕ} (h : low < 16 ^ width) (high count : ℕ) :
    fixed (high * 16 ^ width + low) (count + width) = fixed high count ++ fixed low width := by
  induction width generalizing low with
  | zero =>
    obtain rfl : low = 0 := by simpa using h
    simp [fixed]
  | succ width ih =>
    have hsplit : high * 16 ^ (width + 1) + low = (high * 16 ^ width + low / 16) * 16 + low % 16 := by
      rw [Nat.pow_succ, ← Nat.mul_assoc]
      omega
    have hlow : low / 16 < 16 ^ width := by
      rw [Nat.div_lt_iff_lt_mul (by decide), ← Nat.pow_succ]
      exact h
    rw [← Nat.add_assoc, fixed, fixed, hsplit, Nat.mul_comm _ 16, Nat.mul_add_div (by decide),
      Nat.mul_add_mod, Nat.mod_mod, Nat.div_eq_of_lt (Nat.mod_lt low (by decide)), Nat.add_zero,
      ih hlow, List.append_assoc]

theorem spells_fixed (b : UInt8) : Spells [b] (fixed b.toNat 2) := by
  have hb := b.toNat_lt
  refine .cons b _ _ ?_ ?_ .nil
  · rw [digit_lowerHexDigit (by omega)]
    omega
  · rw [digit_lowerHexDigit (by omega)]

theorem lower_of_mem_fixed {n width : ℕ} {c : UInt8} (h : c ∈ fixed n width) : lower c = c := by
  induction width generalizing n with
  | zero => cases h
  | succ width ih =>
    rcases List.mem_append.mp h with h | h
    · exact ih h
    · have hlt : digit c < 16 ∧ c = lowerHexDigit (digit c) := by
        rw [List.mem_singleton.mp h, digit_lowerHexDigit (Nat.mod_lt n (by decide))]
        exact ⟨Nat.mod_lt n (by decide), rfl⟩
      rw [← lowerHexDigit_digit hlt.1, ← hlt.2]

end Fixed

section Values

/-- The number that the digits of a text stand for. -/
def number (text : List UInt8) : ℕ := value 16 0 (text.map digit)

theorem number_map_lower (text : List UInt8) : number (text.map lower) = number text := by
  rw [number, number, List.map_map]
  congr 1
  exact List.map_congr_left fun c _ => digit_lower c

/-- A text of digits is determined by their values up to the case. -/
theorem map_lower_eq {text : List UInt8} (h : ∀ c ∈ text, digit c < 16) :
    text.map lower = (text.map digit).map lowerHexDigit := by
  rw [List.map_map]
  exact List.map_congr_left fun c hc => (lowerHexDigit_digit (h c hc)).symm

/-- Texts of as many digits that stand for the same number differ in the case only. -/
theorem map_lower_eq_of_number_eq {text more : List UInt8} (hlength : text.length = more.length)
    (htext : ∀ c ∈ text, digit c < 16) (hmore : ∀ c ∈ more, digit c < 16)
    (h : number text = number more) : text.map lower = more.map lower := by
  rw [map_lower_eq htext, map_lower_eq hmore,
    value_inj (by simpa using hlength) (by simpa using htext) (by simpa using hmore) h]

end Values

end Hex
