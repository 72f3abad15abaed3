import Syscape.Lib.Digits
import Syscape.Lib.FromChars

/-!
# Runs of decimal digits

Texts of digits and nothing else, with the numbers that they stand for. Runs of one length
are ordered like texts, and a run without a zero in front is larger than every shorter one.
-/
namespace DigitRuns
open Digits

def isDigit (c : UInt8) : Bool := 0x30 ≤ c && c ≤ 0x39

def isZero (c : UInt8) : Bool := c == 0x30

lemma isDigit_of_isZero {c : UInt8} (h : isZero c = true) : isDigit c = true := by
  rw [isZero, beq_iff_eq] at h
  rw [h]
  rfl

/-- The number that a run of digits stands for. -/
def runValue (run : List UInt8) : ℕ := value 10 0 (run.map fun c => c.toNat - 0x30)

@[simp] theorem runValue_nil : runValue [] = 0 := rfl

theorem runValue_cons (c : UInt8) (run : List UInt8) :
    runValue (c :: run) = (c.toNat - 0x30) * 10 ^ run.length + runValue run := by
  unfold runValue
  rw [List.map_cons, value_cons, value_eq_add, List.length_map, Nat.zero_mul, Nat.zero_add]

theorem runValue_append (run more : List UInt8) :
    runValue (run ++ more) = runValue run * 10 ^ more.length + runValue more := by
  induction run with
  | nil => simp
  | cons c run ih =>
    rw [List.cons_append, runValue_cons, runValue_cons, ih, List.length_append, Nat.pow_add]
    ring

lemma isDigit_iff {c : UInt8} : isDigit c = true ↔ 0x30 ≤ c.toNat ∧ c.toNat ≤ 0x39 := by
  simp [isDigit, UInt8.le_iff_toNat_le]

lemma digitValues_lt {run : List UInt8} (h : ∀ c ∈ run, isDigit c = true) :
    ∀ d ∈ run.map fun c => c.toNat - 0x30, d < 10 := by
  intro d hd
  obtain ⟨c, hc, rfl⟩ := List.mem_map.mp hd
  have hdigit := isDigit_iff.mp (h c hc)
  omega

theorem runValue_lt_pow {run : List UInt8} (h : ∀ c ∈ run, isDigit c = true) :
    runValue run < 10 ^ run.length := by
  have hlt := value_lt_pow (digitValues_lt h)
  rwa [List.length_map] at hlt

/-- Zeros in front do not count. -/
theorem runValue_zeros {zeros : List UInt8} (h : ∀ c ∈ zeros, isZero c = true)
    (run : List UInt8) : runValue (zeros ++ run) = runValue run := by
  induction zeros with
  | nil => rfl
  | cons c zeros ih =>
    rw [List.forall_mem_cons] at h
    have hc : c = 0x30 := by simpa [isZero] using h.1
    rw [List.cons_append, runValue_cons, ih h.2, hc]
    simp

/-- Runs with as many digits are ordered like their numbers. -/
theorem runValue_lt_iff {left right : List UInt8} (hleft : ∀ c ∈ left, isDigit c = true)
    (hright : ∀ c ∈ right, isDigit c = true) (hlength : left.length = right.length) :
    runValue left < runValue right ↔ left < right := by
  induction left generalizing right with
  | nil =>
    rw [List.length_eq_zero_iff.mp hlength.symm]
    simp
  | cons l left ih =>
    cases right with
    | nil => simp at hlength
    | cons r right =>
      rw [List.forall_mem_cons] at hleft hright
      rw [List.length_cons, List.length_cons, Nat.add_right_cancel_iff] at hlength
      have hl := isDigit_iff.mp hleft.1
      have hr := isDigit_iff.mp hright.1
      have hleftlt := runValue_lt_pow hleft.2
      have hrightlt := runValue_lt_pow hright.2
      rw [hlength] at hleftlt
      rw [List.cons_lt_cons_iff, ← ih hleft.2 hright.2 hlength, runValue_cons, runValue_cons,
        hlength, UInt8.lt_iff_toNat_lt, ← UInt8.toNat_inj]
      rcases Nat.lt_trichotomy l.toNat r.toNat with hlt | heq | hgt
      · have hstep : (l.toNat - 0x30 + 1) * 10 ^ right.length ≤
            (r.toNat - 0x30) * 10 ^ right.length := Nat.mul_le_mul_right _ (by omega)
        rw [Nat.add_mul, Nat.one_mul] at hstep
        simp only [hlt, true_or, iff_true]
        omega
      · simp [heq]
      · have hstep : (r.toNat - 0x30 + 1) * 10 ^ right.length ≤
            (l.toNat - 0x30) * 10 ^ right.length := Nat.mul_le_mul_right _ (by omega)
        rw [Nat.add_mul, Nat.one_mul] at hstep
        simp only [Nat.lt_asymm hgt, Nat.ne_of_gt hgt, false_and, or_self, iff_false]
        omega

/-- A number of so many digits has only one run. -/
theorem runValue_inj {left right : List UInt8} (hleft : ∀ c ∈ left, isDigit c = true)
    (hright : ∀ c ∈ right, isDigit c = true) (hlength : left.length = right.length)
    (h : runValue left = runValue right) : left = right := by
  have hdigits := value_inj (by simpa using hlength) (digitValues_lt hleft)
    (digitValues_lt hright) h
  apply List.ext_getElem hlength
  intro i hi hi'
  have hdigit := congrArg (fun digits => digits[i]?) hdigits
  simp only [List.getElem?_map, List.getElem?_eq_getElem hi, List.getElem?_eq_getElem hi',
    Option.map_some, Option.some_inj] at hdigit
  have hl := isDigit_iff.mp (hleft _ (List.getElem_mem hi))
  have hr := isDigit_iff.mp (hright _ (List.getElem_mem hi'))
  exact UInt8.toNat_inj.mp (by omega)

/-- With fewer digits, and no zero in front, a number is smaller. -/
theorem runValue_lt_of_length_lt {left right : List UInt8} (hleft : ∀ c ∈ left, isDigit c = true)
    (hright : ∀ c ∈ right.head?, isDigit c = true ∧ isZero c = false)
    (hlength : left.length < right.length) : runValue left < runValue right := by
  cases right with
  | nil => simp at hlength
  | cons r right =>
    obtain ⟨hdigit, hzero⟩ := hright r rfl
    have hr := isDigit_iff.mp hdigit
    have hne : r.toNat ≠ 0x30 := by
      intro h
      have hbyte : r = 0x30 := UInt8.toNat_inj.mp h
      simp [hbyte, isZero] at hzero
    calc runValue left < 10 ^ left.length := runValue_lt_pow hleft
      _ ≤ 10 ^ right.length := Nat.pow_le_pow_right (by decide) (by simpa using hlength)
      _ ≤ (r.toNat - 0x30) * 10 ^ right.length := Nat.le_mul_of_pos_left _ (by omega)
      _ ≤ runValue (r :: right) := by
        rw [runValue_cons]
        exact Nat.le_add_right _ _

/-- A run of decimal digits. -/
structure DigitRun where
  digits : List UInt8
  ne_nil : digits ≠ []
  isDigit_of_mem : ∀ c ∈ digits, isDigit c = true

/-- The runs of the digits zero and one. -/
def DigitRun.zero : DigitRun := ⟨[0x30], by decide, List.forall_mem_singleton.mpr rfl⟩

def DigitRun.one : DigitRun := ⟨[0x31], by decide, List.forall_mem_singleton.mpr rfl⟩

/-- The number of the run. -/
def DigitRun.number (run : DigitRun) : ℕ := runValue run.digits

section Numerals
variable {n : ℕ} {text : List UInt8}

theorem digit_eq {c : UInt8} (h : isDigit c = true) : FromChars.digit c = c.toNat - 0x30 := by
  rw [isDigit, Bool.and_eq_true, decide_eq_true_eq, decide_eq_true_eq] at h
  exact if_pos h

theorem digit_lt_ten_iff {c : UInt8} : FromChars.digit c < 10 ↔ isDigit c = true := by
  constructor
  · intro h
    simpa [isDigit] using FromChars.digit_lt_ten h
  · intro h
    have hdigit := isDigit_iff.mp h
    rw [digit_eq h]
    omega

/-- A decimal numeral is a run of digits with its number. -/
theorem numeral_iff : FromChars.Numeral 10 n text ↔
    text ≠ [] ∧ (∀ c ∈ text, isDigit c = true) ∧ runValue text = n := by
  have hvalue (h : ∀ c ∈ text, isDigit c = true) :
      text.map FromChars.digit = text.map fun c => c.toNat - 0x30 :=
    List.map_congr_left fun c hc => digit_eq (h c hc)
  constructor
  · intro h
    have hall : ∀ c ∈ text, isDigit c = true := fun c hc => digit_lt_ten_iff.mp (h.digits c hc)
    refine ⟨h.ne_nil, hall, ?_⟩
    rw [runValue, ← hvalue hall, h.value_eq]
  · intro ⟨hne, hall, hn⟩
    refine ⟨hne, fun c hc => digit_lt_ten_iff.mpr (hall c hc), ?_⟩
    rw [hvalue hall]
    exact hn

theorem DigitRun.numeral (run : DigitRun) : FromChars.Numeral 10 run.number run.digits :=
  numeral_iff.mpr ⟨run.ne_nil, run.isDigit_of_mem, rfl⟩

end Numerals

end DigitRuns
