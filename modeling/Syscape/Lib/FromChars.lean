import Syscape.Lib.Digits
import Mathlib.Data.List.TakeWhile
import Mathlib.Tactic.IntervalCases
import Mathlib.Data.Int.Notation

/-!
# Numbers as the standard library reads them

`std::from_chars` reads the longest run of digits at the front of a text. It fails when
there are no digits, or when their number does not fit into the type; letters of either
case are digits above nine. A numeral is a text of digits only.
-/
namespace FromChars

/-- The value of a digit; what is no digit in any base counts as 36. -/
def digit (c : UInt8) : ℕ :=
  if 0x30 ≤ c ∧ c ≤ 0x39 then c.toNat - 0x30
  else if 0x61 ≤ c ∧ c ≤ 0x7A then c.toNat - 0x61 + 10
  else if 0x41 ≤ c ∧ c ≤ 0x5A then c.toNat - 0x41 + 10
  else 36

/-- The number, unless there was an error, and how many bytes were read. -/
structure Outcome where
  value : Option ℕ
  read : ℕ
  deriving DecidableEq, Repr

/-- `std::from_chars` for an unsigned type with a largest value. -/
def fromChars (base max : ℕ) (text : List UInt8) : Outcome :=
  let digits := text.takeWhile fun c => digit c < base
  let number := Digits.value base 0 (digits.map digit)
  { value := if digits = [] ∨ number > max then none else some number
    read := digits.length }

/-- There were digits, but their number does not fit: `result_out_of_range`. -/
def Outcome.OutOfRange (o : Outcome) : Prop := o.value = none ∧ o.read ≠ 0

instance (o : Outcome) : Decidable o.OutOfRange :=
  inferInstanceAs (Decidable (o.value = none ∧ o.read ≠ 0))

/-- The outcome for a signed type. -/
structure SignedOutcome where
  value : Option ℤ
  read : ℕ
  deriving DecidableEq, Repr

def SignedOutcome.OutOfRange (o : SignedOutcome) : Prop := o.value = none ∧ o.read ≠ 0

instance (o : SignedOutcome) : Decidable o.OutOfRange :=
  inferInstanceAs (Decidable (o.value = none ∧ o.read ≠ 0))

/-- `std::from_chars` for a signed type of so many bits: a minus sign may come first. -/
def fromCharsSigned (base bits : ℕ) (text : List UInt8) : SignedOutcome :=
  if text.head? = some 0x2D then
    let o := fromChars base (2 ^ (bits - 1)) (text.drop 1)
    { value := o.value.map fun n => -(n : ℤ)
      read := if o.read = 0 then 0 else o.read + 1 }
  else
    let o := fromChars base (2 ^ (bits - 1) - 1) text
    { value := o.value.map Int.ofNat
      read := o.read }

/-- The text consists of digits, at least one, and their number is `n`. -/
structure Numeral (base n : ℕ) (text : List UInt8) : Prop where
  ne_nil : text ≠ []
  digits : ∀ c ∈ text, digit c < base
  value_eq : Digits.value base 0 (text.map digit) = n

variable {base n : ℕ} {text : List UInt8}

/-- A numeral is read as a whole, and gives its number when that fits. -/
theorem Numeral.fromChars (h : Numeral base n text) (max : ℕ) :
    fromChars base max text = ⟨if n ≤ max then some n else none, text.length⟩ := by
  have hall : text.takeWhile (fun c => digit c < base) = text := by
    rw [List.takeWhile_eq_self_iff]
    intro c hc
    simpa using h.digits c hc
  unfold FromChars.fromChars
  simp only [hall, h.value_eq, h.ne_nil, false_or]
  by_cases hmax : n ≤ max
  · rw [if_pos hmax, if_neg (by omega)]
  · rw [if_neg hmax, if_pos (by omega)]

/-- A numeral does not begin with a minus sign. -/
theorem Numeral.head?_ne_minus (h : Numeral base n text) (hbase : base ≤ 36) :
    text.head? ≠ some 0x2D := by
  intro hhead
  have hminus : digit 0x2D < base := h.digits 0x2D (List.mem_of_mem_head? hhead)
  have hno : digit 0x2D = 36 := rfl
  omega

/-- It is read by a signed type if that has the number. -/
theorem Numeral.fromCharsSigned (h : Numeral base n text) (hbase : base ≤ 36) (bits : ℕ) :
    fromCharsSigned base bits text =
      ⟨if n ≤ 2 ^ (bits - 1) - 1 then some (n : ℤ) else none, text.length⟩ := by
  rw [FromChars.fromCharsSigned, if_neg (h.head?_ne_minus hbase), h.fromChars]
  by_cases hmax : n ≤ 2 ^ (bits - 1) - 1
  · simp only [if_pos hmax]
    rfl
  · simp only [if_neg hmax]
    rfl

/-- A text that is read as a whole is a numeral. -/
theorem Numeral.of_fromChars {max : ℕ} (hne : text ≠ [])
    (hread : (FromChars.fromChars base max text).read = text.length)
    (hvalue : (FromChars.fromChars base max text).value = some n) :
    Numeral base n text ∧ n ≤ max := by
  have hall : text.takeWhile (fun c => decide (digit c < base)) = text :=
    (List.takeWhile_prefix _).eq_of_length hread
  unfold FromChars.fromChars at hvalue
  simp only [hall, hne, false_or] at hvalue
  split_ifs at hvalue with hmax
  rw [Option.some_inj] at hvalue
  refine ⟨⟨hne, ?_, hvalue⟩, by omega⟩
  intro c hc
  have hlt := List.mem_takeWhile_imp (hall.symm ▸ hc)
  simpa using hlt

/-- A decimal digit is a byte between `0` and `9`. -/
theorem digit_lt_ten {c : UInt8} (h : digit c < 10) : 0x30 ≤ c ∧ c ≤ 0x39 := by
  unfold digit at h
  split_ifs at h with hdecimal
  · exact hdecimal
  · omega
  · omega
  · omega

/-- A digit in some base up to 36 is no blank and no punctuation. -/
theorem Numeral.alphanumeric (h : Numeral base n text) (hbase : base ≤ 36) {c : UInt8}
    (hc : c ∈ text) : 0x30 ≤ c.toNat ∧ c.toNat ≤ 0x39 ∨ 0x41 ≤ c.toNat ∧ c.toNat ≤ 0x5A ∨
      0x61 ≤ c.toNat ∧ c.toNat ≤ 0x7A := by
  have hlt := h.digits c hc
  unfold digit at hlt
  split_ifs at hlt with hdecimal hlower hupper
  · left
    exact ⟨hdecimal.1, hdecimal.2⟩
  · right
    right
    exact ⟨hlower.1, hlower.2⟩
  · right
    left
    exact ⟨hupper.1, hupper.2⟩
  · omega

/-- Every number has a numeral in every base. -/
theorem exists_numeral (hbase : 1 < base) (hle : base ≤ 36) (n : ℕ) :
    ∃ text, Numeral base n text := by
  have hbyte : ∀ d < 36, ∃ c, digit c = d := by
    intro d hd
    by_cases hten : d < 10
    · refine ⟨UInt8.ofNat (0x30 + d), ?_⟩
      interval_cases d <;> rfl
    · refine ⟨UInt8.ofNat (0x61 + (d - 10)), ?_⟩
      interval_cases d <;> rfl
  have hdigits : ∀ ds : List ℕ, (∀ d ∈ ds, d < base) → ∃ text : List UInt8, text.map digit = ds := by
    intro ds hds
    induction ds with
    | nil => exact ⟨[], rfl⟩
    | cons d ds ih =>
      obtain ⟨text, rfl⟩ := ih fun e he => hds e (by simp [he])
      obtain ⟨c, rfl⟩ := hbyte d (lt_of_lt_of_le (hds d (by simp)) hle)
      exact ⟨c :: text, rfl⟩
  have hlt : ∀ d ∈ Digits.ofNat base n, d < base := fun d hd => Digits.ofNat_lt hbase hd
  obtain ⟨text, htext⟩ := hdigits _ hlt
  refine ⟨text, ?_, ?_, by rw [htext, Digits.value_ofNat]⟩
  · intro hnil
    exact Digits.ofNat_ne_nil base n (by rw [← htext, hnil]; rfl)
  · intro c hc
    exact hlt (digit c) (htext ▸ List.mem_map_of_mem hc)

end FromChars
