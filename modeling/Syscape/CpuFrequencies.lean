import Syscape.CpuCaches
import Syscape.Lib.DigitRuns
import Mathlib.Algebra.Order.Round
import Mathlib.Data.Rat.Floor

/-!
# Processor frequencies in `/proc/cpuinfo`

The kernel writes the frequency of each processor in megahertz, as a decimal number. The
number is read digit by digit into kilohertz, with the fourth digit behind the point for
rounding. The text of all processors is a sequence of blocks, one for each of them.
-/
namespace Syscape.Cpu
open Checked Text Lines FromChars DigitRuns

section Source

/-- The loop of `parse_mhz_text` in front of the point: the megahertz, and the text behind. -/
def megahertzLoop (megahertz : ℕ) : List UInt8 → Result (ℕ × List UInt8)
  | [] => .ok (megahertz, [])
  | c :: input =>
    if isDigit c then
      if megahertz > uint32Max / 1000 then fail .valueTooLarge
      else megahertzLoop ((megahertz * 10 + (c.toNat - 0x30)) % 2 ^ 64) input
    else .ok (megahertz, c :: input)

/-- The variables of the loop behind the point; the numbers have 32 bits. -/
structure FractionState where
  fraction : ℕ := 0
  fractionDigits : ℕ := 0
  roundUp : Bool := false
  deriving DecidableEq, Repr

def addFractionDigit (st : FractionState) (c : UInt8) : FractionState :=
  let digit := c.toNat - 0x30
  { fraction :=
      if st.fractionDigits < 3 then (st.fraction * 10 + digit) % 2 ^ 32 else st.fraction
    fractionDigits := (st.fractionDigits + 1) % 2 ^ 32
    roundUp := st.roundUp || decide (st.fractionDigits = 3 ∧ digit ≥ 5) }

/-- The loop behind the point. -/
def fractionLoop (st : FractionState) : List UInt8 → FractionState × List UInt8
  | [] => (st, [])
  | c :: input => if isDigit c then fractionLoop (addFractionDigit st c) input else (st, c :: input)

/-- What stands behind the megahertz: nothing, or a point and digits. -/
def fractionPart : List UInt8 → Result FractionState
  | [] => .ok {}
  | c :: input =>
    if c ≠ 0x2E then fail .malformedData
    else
      let (st, rest) := fractionLoop {} input
      if st.fractionDigits = 0 ∨ rest ≠ [] then fail .malformedData else .ok st

/-- The loop that scales fewer than three digits. -/
def scaleFraction (fraction fractionDigits : ℕ) : ℕ :=
  if fractionDigits < 3 then scaleFraction (fraction * 10 % 2 ^ 32) (fractionDigits + 1)
  else fraction
termination_by 3 - fractionDigits

/-- `parse_mhz_text`. -/
def parseMhzText (input : List UInt8) : Result ℕ :=
  let input := trimCpuField input
  if input = [] then fail .malformedData
  else do
    let (megahertz, rest) ← megahertzLoop 0 input
    if rest.length = input.length then fail .malformedData
    else
      let st ← fractionPart rest
      let scaled := (megahertz * 1000 + scaleFraction st.fraction st.fractionDigits) % 2 ^ 64
      let kilohertz := if st.roundUp then (scaled + 1) % 2 ^ 64 else scaled
      if kilohertz = 0 then fail .malformedData
      else if kilohertz > uint32Max then fail .valueTooLarge
      else .ok kilohertz

/-- The variables of `parse_cpuinfo_frequencies`. -/
structure BlockState where
  values : List ℕ := []
  blocks : ℕ := 0
  pendingBlock : Bool := false
  deriving DecidableEq, Repr

/-- The text is a number of 32 bits; what the number is does not matter. -/
def isIndex (value : List UInt8) : Bool :=
  let parsed := fromChars 10 uint32Max value
  value ≠ [] ∧ parsed.value ≠ none ∧ parsed.read = value.length

/-- A line of `parse_cpuinfo_frequencies`. -/
def frequencyLine (st : BlockState) (line : List UInt8) : Result BlockState :=
  match line.idxOf? 0x3A with
  | none => .ok st
  | some separator =>
    let key := trimCpuField (line.take separator)
    let value := trimCpuField (line.drop (separator + 1))
    if key ≠ ascii "processor" ∧ key ≠ ascii "cpu MHz" then .ok st
    else if key = ascii "processor" then
      if ¬ isIndex value then fail .malformedData
      else if st.pendingBlock then fail .malformedData
      else .ok { st with blocks := st.blocks + 1, pendingBlock := true }
    else if ¬ st.pendingBlock then fail .malformedData
    else do
      let frequency ← parseMhzText value
      .ok { st with values := st.values ++ [frequency], pendingBlock := false }

/-- `parse_cpuinfo_frequencies`. -/
def parseCpuinfoFrequencies (input : List UInt8) : Result (List ℕ) := do
  let st ← (lines 0x0A input).foldlM frequencyLine {}
  if st.blocks = 0 then fail .malformedData
  else if st.values = [] then fail .notSupported
  else if st.values.length ≠ st.blocks then fail .malformedData
  else .ok st.values

end Source

section Rounding

/-- A decimal number: digits, and perhaps a point with digits behind it. -/
structure DecimalText where
  whole : DigitRun
  fraction : Option DigitRun

def DecimalText.text (decimal : DecimalText) : List UInt8 :=
  decimal.whole.digits ++ decimal.fraction.elim [] fun run => 0x2E :: run.digits

def DecimalText.fractionDigits (decimal : DecimalText) : List UInt8 :=
  decimal.fraction.elim [] DigitRun.digits

def DecimalText.value (decimal : DecimalText) : ℚ :=
  decimal.whole.number + (runValue decimal.fractionDigits : ℚ) / 10 ^ decimal.fractionDigits.length

/-- The integer nearest to a thousand times the number; halves are rounded up. -/
def DecimalText.kilohertz (decimal : DecimalText) : ℤ := round (1000 * decimal.value)

/-- The text stands between blanks. -/
def Padded (inner text : List UInt8) : Prop :=
  ∃ front back, text = front ++ inner ++ back ∧ (∀ c ∈ front, cpuSpace c = true) ∧
    ∀ c ∈ back, cpuSpace c = true

/-- A frequency has to be a positive number of 32 bits. -/
def frequencyOf (kilohertz : ℤ) : Result ℕ :=
  if kilohertz = 0 then fail .malformedData
  else if kilohertz > uint32Max then fail .valueTooLarge
  else .ok kilohertz.toNat

lemma frequencyOf_natCast (kilohertz : ℕ) :
    (if kilohertz = 0 then fail .malformedData
      else if kilohertz > uint32Max then fail .valueTooLarge
      else .ok kilohertz) = frequencyOf kilohertz := by
  unfold frequencyOf
  rw [Int.toNat_natCast]
  norm_cast

/-- What the first three digits behind the point stand for. -/
def thousandths (digits : List UInt8) : ℕ := runValue (digits.take 3) * 10 ^ (3 - digits.length)

/-- The fourth digit decides about rounding. -/
def roundsUp (digits : List UInt8) : Bool := digits[3]?.any fun c => 5 ≤ c.toNat - 0x30

variable {digits : List UInt8}

/-- Rounding to thousandths needs four digits only. -/
lemma nearest_thousandth (h : ∀ c ∈ digits, isDigit c = true) :
    (2000 * runValue digits + 10 ^ digits.length) / (2 * 10 ^ digits.length) =
      thousandths digits + if roundsUp digits then 1 else 0 := by
  rcases Nat.lt_or_ge 3 digits.length with hlong | hshort
  · obtain ⟨d, more, hmore⟩ := List.exists_cons_of_ne_nil
      (List.ne_nil_of_length_pos (by rw [List.length_drop]; omega) : digits.drop 3 ≠ [])
    have hdigits : digits = digits.take 3 ++ d :: more := by rw [← hmore, List.take_append_drop]
    have hfirst : (digits.take 3).length = 3 := List.length_take_of_le (by omega)
    have hdigit := isDigit_iff.mp (h d (by rw [hdigits]; simp))
    have hrest : runValue more < 10 ^ more.length :=
      runValue_lt_pow fun c hc => h c (by rw [hdigits]; simp [hc])
    have hlength : digits.length = more.length + 4 := by
      rw [hdigits, List.length_append, List.length_cons, hfirst]
      omega
    have hround : roundsUp digits = decide (5 ≤ d.toNat - 0x30) := by
      rw [roundsUp, hdigits, List.getElem?_append_right (by omega), hfirst]
      rfl
    have hvalue : runValue digits = runValue (digits.take 3) * (10 * 10 ^ more.length) +
        ((d.toNat - 0x30) * 10 ^ more.length + runValue more) := by
      conv_lhs => rw [hdigits, runValue_append, runValue_cons, List.length_cons, Nat.pow_succ']
    have hpow : 10 ^ digits.length = 10000 * 10 ^ more.length := by
      rw [hlength, Nat.pow_add, Nat.mul_comm]
    have hpos : 0 < 10 ^ more.length := Nat.pow_pos (by decide)
    rw [thousandths, Nat.sub_eq_zero_of_le (Nat.le_of_lt hlong), Nat.pow_zero, Nat.mul_one, hround,
      hvalue, hpow]
    generalize 10 ^ more.length = m at *
    generalize runValue (digits.take 3) = a
    have hsplit : 2000 * (a * (10 * m) + ((d.toNat - 0x30) * m + runValue more)) + 10000 * m =
        2000 * ((d.toNat - 0x30) * m + runValue more) + 10000 * m + 2 * (10000 * m) * a := by
      ring
    rw [hsplit, Nat.add_mul_div_left _ _ (by omega), Nat.add_comm]
    congr 1
    by_cases hfive : 5 ≤ d.toNat - 0x30
    · have hle : 5 * m ≤ (d.toNat - 0x30) * m := Nat.mul_le_mul_right m hfive
      have hlt : (d.toNat - 0x30) * m ≤ 9 * m := Nat.mul_le_mul_right m (by omega)
      rw [if_pos (by simpa using hfive)]
      exact Nat.div_eq_of_lt_le (by omega) (by omega)
    · have hlt : (d.toNat - 0x30) * m ≤ 4 * m := Nat.mul_le_mul_right m (by omega)
      rw [if_neg (by simpa using hfive)]
      exact Nat.div_eq_of_lt (by omega)
  · have hpow : 10 ^ digits.length * 10 ^ (3 - digits.length) = 1000 := by
      rw [← Nat.pow_add, Nat.add_sub_cancel' hshort]
    have hpos : 0 < 10 ^ digits.length := Nat.pow_pos (by decide)
    have hround : roundsUp digits = false := by
      rw [roundsUp, List.getElem?_eq_none hshort]
      rfl
    have hsplit : 2000 * runValue digits + 10 ^ digits.length = 10 ^ digits.length +
        2 * 10 ^ digits.length * (runValue digits * 10 ^ (3 - digits.length)) := by
      calc 2000 * runValue digits + 10 ^ digits.length
          = 2 * (10 ^ digits.length * 10 ^ (3 - digits.length)) * runValue digits +
              10 ^ digits.length := by rw [hpow]
        _ = _ := by ring
    rw [thousandths, List.take_of_length_le hshort, hround, hsplit,
      Nat.add_mul_div_left _ _ (by omega), Nat.div_eq_of_lt (by omega), Nat.zero_add]
    rfl

/-- The rounded number, computed with natural numbers. -/
theorem kilohertz_eq (decimal : DecimalText) (h : ∀ c ∈ decimal.fractionDigits, isDigit c = true) :
    decimal.kilohertz = ((1000 * decimal.whole.number + (thousandths decimal.fractionDigits +
      if roundsUp decimal.fractionDigits then 1 else 0) : ℕ) : ℤ) := by
  have hnearest := nearest_thousandth h
  unfold DecimalText.kilohertz DecimalText.value
  rw [round_eq]
  generalize decimal.fractionDigits = digits at *
  have hvalue : 1000 * ((decimal.whole.number : ℚ) + runValue digits / 10 ^ digits.length) + 1 / 2 =
      ((1000 * decimal.whole.number : ℕ) : ℚ) +
        ((2000 * runValue digits + 10 ^ digits.length : ℕ) : ℚ) / (2 * 10 ^ digits.length : ℕ) := by
    push_cast
    field_simp
    ring
  rw [hvalue, Int.floor_natCast_add, Rat.floor_natCast_div_natCast]
  rw [← Int.natCast_ediv, hnearest]
  push_cast
  rfl

end Rounding

section Reading
variable {digits rest : List UInt8}

/-- The number in front of the point, unless it is too large whatever comes behind it. -/
lemma megahertzLoop_eq {megahertz : ℕ} (hmegahertz : megahertz ≤ 42949679)
    (h : ∀ c ∈ digits, isDigit c = true) (hrest : ∀ c ∈ rest.head?, isDigit c = false) :
    (megahertzLoop megahertz (digits ++ rest) =
        .ok (megahertz * 10 ^ digits.length + runValue digits, rest) ∧
      megahertz * 10 ^ digits.length + runValue digits ≤ 42949679) ∨
    (megahertzLoop megahertz (digits ++ rest) = fail .valueTooLarge ∧
      uint32Max / 1000 < megahertz * 10 ^ digits.length + runValue digits) := by
  induction digits generalizing megahertz with
  | nil =>
    left
    rw [List.nil_append, List.length_nil, Nat.pow_zero, Nat.mul_one, runValue_nil, Nat.add_zero]
    refine ⟨?_, hmegahertz⟩
    cases rest with
    | nil => rfl
    | cons c rest =>
      rw [megahertzLoop, if_neg]
      simp [hrest c rfl]
  | cons c digits ih =>
    rw [List.forall_mem_cons] at h
    have hdigit := isDigit_iff.mp h.1
    have htotal : megahertz * 10 ^ (c :: digits).length + runValue (c :: digits) =
        (megahertz * 10 + (c.toNat - 0x30)) * 10 ^ digits.length + runValue digits := by
      rw [runValue_cons, List.length_cons, Nat.pow_succ']
      ring
    rw [List.cons_append, megahertzLoop, if_pos h.1, htotal]
    split_ifs with hlarge
    · right
      refine ⟨rfl, ?_⟩
      have hpos : 0 < 10 ^ digits.length := Nat.pow_pos (by decide)
      have hle := Nat.le_mul_of_pos_right (megahertz * 10 + (c.toNat - 0x30)) hpos
      omega
    · have hbound : megahertz * 10 + (c.toNat - 0x30) ≤ 42949679 := by
        unfold uint32Max at hlarge
        omega
      rw [Nat.mod_eq_of_lt (by omega)]
      exact ih hbound h.2

lemma fractionLoop_eq (st : FractionState) (h : ∀ c ∈ digits, isDigit c = true)
    (hrest : ∀ c ∈ rest.head?, isDigit c = false) :
    fractionLoop st (digits ++ rest) = (digits.foldl addFractionDigit st, rest) := by
  induction digits generalizing st with
  | nil =>
    cases rest with
    | nil => rfl
    | cons c rest =>
      rw [List.nil_append, fractionLoop, if_neg (by simp [hrest c rfl])]
      rfl
  | cons c digits ih =>
    rw [List.forall_mem_cons] at h
    rw [List.cons_append, fractionLoop, if_pos h.1, ih _ h.2, List.foldl_cons]

/-- The counter of the digits has 32 bits. -/
lemma fractionDigits_foldl {st : FractionState} (h : st.fractionDigits < 2 ^ 32) :
    (digits.foldl addFractionDigit st).fractionDigits =
      (st.fractionDigits + digits.length) % 2 ^ 32 := by
  induction digits generalizing st with
  | nil => exact (Nat.mod_eq_of_lt h).symm
  | cons c digits ih =>
    rw [List.foldl_cons, ih (Nat.mod_lt _ (by decide)), List.length_cons]
    simp only [addFractionDigit]
    omega

/-- What the loop knows when it has seen the digits. -/
def afterDigits (seen : List UInt8) : FractionState where
  fraction := runValue (seen.take 3)
  fractionDigits := seen.length
  roundUp := roundsUp seen

lemma addFractionDigit_afterDigits {seen : List UInt8} {c : UInt8}
    (h : ∀ d ∈ seen ++ [c], isDigit d = true) (hlength : seen.length + 1 < 2 ^ 32) :
    addFractionDigit (afterDigits seen) c = afterDigits (seen ++ [c]) := by
  have hcount : (seen.length + 1) % 2 ^ 32 = (seen ++ [c]).length := by
    rw [Nat.mod_eq_of_lt hlength, List.length_append, List.length_singleton]
  rcases Nat.lt_trichotomy seen.length 3 with hshort | heq | hlong
  · have hvalue : runValue (seen.take 3) * 10 + (c.toNat - 0x30) =
        runValue ((seen ++ [c]).take 3) := by
      rw [List.take_of_length_le (by omega), List.take_of_length_le (by simp; omega),
        runValue_append, runValue_cons]
      simp
    have hlt : runValue ((seen ++ [c]).take 3) < 1000 := by
      calc runValue ((seen ++ [c]).take 3)
          < 10 ^ ((seen ++ [c]).take 3).length :=
            runValue_lt_pow fun d hd => h d (List.mem_of_mem_take hd)
        _ ≤ 10 ^ 3 := Nat.pow_le_pow_right (by decide) (by simp)
    have hround : roundsUp (seen ++ [c]) = roundsUp seen := by
      rw [roundsUp, roundsUp, List.getElem?_eq_none (by simp; omega),
        List.getElem?_eq_none (by omega)]
    have hthree : seen.length ≠ 3 := by omega
    simp only [addFractionDigit, afterDigits, hcount, hvalue, if_pos hshort, hround, hthree,
      false_and, decide_false, Bool.or_false]
    rw [Nat.mod_eq_of_lt (by omega)]
  · have hround : roundsUp (seen ++ [c]) = decide (5 ≤ c.toNat - 0x30) := by
      rw [roundsUp, List.getElem?_append_right (by omega), heq]
      rfl
    have hbefore : roundsUp seen = false := by
      rw [roundsUp, List.getElem?_eq_none (by omega)]
      rfl
    simp only [addFractionDigit, afterDigits, hcount, hround, hbefore, Bool.false_or,
      List.take_append_of_le_length (Nat.le_of_eq heq.symm)]
    simp only [heq, Nat.lt_irrefl, if_false, true_and, ge_iff_le]
  · have hround : roundsUp (seen ++ [c]) = roundsUp seen := by
      rw [roundsUp, roundsUp, List.getElem?_append_left hlong]
    have hthree : seen.length ≠ 3 := by omega
    simp only [addFractionDigit, afterDigits, hcount, Nat.not_lt_of_gt hlong, if_false, hround,
      hthree, false_and, decide_false, Bool.or_false,
      List.take_append_of_le_length (Nat.le_of_lt hlong)]

lemma foldl_addFractionDigit (h : ∀ c ∈ digits, isDigit c = true)
    (hlength : digits.length < 2 ^ 32) :
    digits.foldl addFractionDigit {} = afterDigits digits := by
  induction digits using List.reverseRecOn with
  | nil => rfl
  | append_singleton digits c ih =>
    rw [List.length_append, List.length_singleton] at hlength
    rw [List.foldl_append, ih (fun d hd => h d (by simp [hd])) (by omega), List.foldl_cons,
      List.foldl_nil, addFractionDigit_afterDigits h hlength]

lemma scaleFraction_eq (fraction count : ℕ) (h : fraction * 10 ^ (3 - count) < 2 ^ 32) :
    scaleFraction fraction count = fraction * 10 ^ (3 - count) := by
  induction hn : 3 - count generalizing fraction count with
  | zero =>
    rw [scaleFraction, if_neg (by omega), Nat.pow_zero, Nat.mul_one]
  | succ n ih =>
    have hscaled : fraction * 10 * 10 ^ n = fraction * 10 ^ (n + 1) := by
      rw [Nat.pow_succ', Nat.mul_assoc]
    rw [hn, ← hscaled] at h
    have hle := Nat.le_mul_of_pos_right (fraction * 10) (Nat.pow_pos (by decide) : 0 < 10 ^ n)
    have hcount : 3 - (count + 1) = n := by omega
    rw [scaleFraction, if_pos (by omega), Nat.mod_eq_of_lt (by omega), ih _ _ (by rwa [hcount])
      hcount, hscaled]

lemma thousandths_lt (h : ∀ c ∈ digits, isDigit c = true) : thousandths digits < 1000 := by
  have hlt : runValue (digits.take 3) < 10 ^ (digits.take 3).length :=
    runValue_lt_pow fun c hc => h c (List.mem_of_mem_take hc)
  have hpow : 10 ^ (digits.take 3).length * 10 ^ (3 - digits.length) = 1000 := by
    rw [← Nat.pow_add, List.length_take]
    have hthree : min 3 digits.length + (3 - digits.length) = 3 := by omega
    rw [hthree]
  rw [← hpow]
  exact Nat.mul_lt_mul_of_pos_right hlt (Nat.pow_pos (by decide))

end Reading

section Texts
variable {text rest : List UInt8} {decimal : DecimalText}

/-- Every text has a longest run of digits in front. -/
lemma exists_digits (text : List UInt8) : ∃ digits rest, text = digits ++ rest ∧
    (∀ c ∈ digits, isDigit c = true) ∧ ∀ c ∈ rest.head?, isDigit c = false := by
  refine ⟨text.takeWhile isDigit, text.dropWhile isDigit, ?_, ?_, ?_⟩
  · rw [List.takeWhile_append_dropWhile]
  · exact fun c hc => List.mem_takeWhile_imp hc
  · intro c hc
    have hnot := List.head?_dropWhile_not isDigit text
    rw [Option.mem_def] at hc
    rwa [hc] at hnot

lemma isDigit_of_mem_fractionDigits : ∀ c ∈ decimal.fractionDigits, isDigit c = true := by
  obtain ⟨whole, _ | run⟩ := decimal
  · simp [DecimalText.fractionDigits]
  · exact run.isDigit_of_mem

lemma fractionPart_decimal (h : decimal.fractionDigits.length < 2 ^ 32) :
    fractionPart (decimal.fraction.elim [] fun run => 0x2E :: run.digits) =
      .ok (afterDigits decimal.fractionDigits) := by
  obtain ⟨whole, _ | run⟩ := decimal
  · rfl
  · have hlength := List.length_pos_iff.mpr run.ne_nil
    have hloop := @fractionLoop_eq run.digits [] {} run.isDigit_of_mem (by simp)
    rw [List.append_nil, foldl_addFractionDigit run.isDigit_of_mem h] at hloop
    change fractionPart (0x2E :: run.digits) = .ok (afterDigits run.digits)
    simp only [fractionPart, hloop]
    rw [if_neg (by simp), if_neg]
    simp only [afterDigits, ne_eq, not_true_eq_false, or_false]
    omega

/-- Behind the megahertz there is a point with digits, or nothing. -/
lemma fractionPart_cases (rest : List UInt8) : fractionPart rest = fail .malformedData ∨
    ∃ st, fractionPart rest = .ok st ∧
      ∃ fraction : Option DigitRun, rest = fraction.elim [] fun run => 0x2E :: run.digits := by
  cases rest with
  | nil => exact .inr ⟨_, rfl, none, rfl⟩
  | cons c rest =>
    obtain ⟨digits, more, rfl, hdigits, hmore⟩ := exists_digits rest
    simp only [fractionPart, fractionLoop_eq {} hdigits hmore]
    split_ifs with hpoint hempty
    · exact .inl rfl
    · exact .inl rfl
    · right
      simp only [ne_eq, not_or, not_not] at hempty hpoint
      have hne : digits ≠ [] := by
        rintro rfl
        exact hempty.1 rfl
      refine ⟨_, rfl, some ⟨digits, hne, hdigits⟩, ?_⟩
      rw [hempty.2, List.append_nil, hpoint]
      rfl

/-- The number that is read is the rounded one. -/
lemma parseMhzText_decimal (htext : trimCpuField text = decimal.text)
    (h : decimal.fractionDigits.length < 2 ^ 32) :
    parseMhzText text = frequencyOf decimal.kilohertz := by
  have hwhole := decimal.whole.ne_nil
  have hrest : ∀ c ∈ (decimal.fraction.elim [] fun run => 0x2E :: run.digits).head?,
      isDigit c = false := by
    cases decimal.fraction with
    | none => simp
    | some run =>
      intro c hc
      cases hc
      rfl
  have hlt := thousandths_lt (@isDigit_of_mem_fractionDigits decimal)
  have hscale : scaleFraction (afterDigits decimal.fractionDigits).fraction
      (afterDigits decimal.fractionDigits).fractionDigits = thousandths decimal.fractionDigits :=
    scaleFraction_eq _ _ (Nat.lt_trans hlt (by decide))
  have hloop := megahertzLoop_eq (Nat.zero_le _) decimal.whole.isDigit_of_mem hrest
  have hnumber : runValue decimal.whole.digits = decimal.whole.number := rfl
  rw [Nat.zero_mul, Nat.zero_add, hnumber] at hloop
  rw [kilohertz_eq decimal isDigit_of_mem_fractionDigits]
  unfold parseMhzText
  simp only [htext, DecimalText.text]
  rw [if_neg (by simp [hwhole])]
  rcases hloop with ⟨hloop, hbound⟩ | ⟨hloop, hlarge⟩
  · have hlength : ¬ (decimal.fraction.elim [] fun run => 0x2E :: run.digits).length =
        (decimal.whole.digits ++
          decimal.fraction.elim [] fun run => 0x2E :: run.digits).length := by
      have hpos := List.length_pos_iff.mpr hwhole
      rw [List.length_append]
      omega
    rw [hloop, ok_bind]
    dsimp only
    rw [if_neg hlength, fractionPart_decimal h, ok_bind, hscale]
    have hkilohertz : (if (afterDigits decimal.fractionDigits).roundUp then
        ((decimal.whole.number * 1000 + thousandths decimal.fractionDigits) % 2 ^ 64 + 1) % 2 ^ 64
        else (decimal.whole.number * 1000 + thousandths decimal.fractionDigits) % 2 ^ 64) =
        1000 * decimal.whole.number + (thousandths decimal.fractionDigits +
          if roundsUp decimal.fractionDigits then 1 else 0) := by
      have hscaled : (decimal.whole.number * 1000 + thousandths decimal.fractionDigits) % 2 ^ 64 =
          decimal.whole.number * 1000 + thousandths decimal.fractionDigits :=
        Nat.mod_eq_of_lt (by omega)
      change (if roundsUp decimal.fractionDigits then _ else _) = _
      rw [hscaled, Nat.mod_eq_of_lt (by omega)]
      split_ifs <;> omega
    rw [hkilohertz]
    exact frequencyOf_natCast _
  · rw [hloop, fail_bind]
    unfold frequencyOf
    unfold uint32Max at *
    rw [if_neg (by omega), if_pos (by omega)]

/-- Whatever is read, the text is a decimal number. -/
lemma parseMhzText_cases (text : List UInt8) : (∃ e, parseMhzText text = fail e) ∨
    ∃ decimal : DecimalText, trimCpuField text = decimal.text := by
  obtain ⟨digits, rest, htext, hdigits, hrest⟩ := exists_digits (trimCpuField text)
  unfold parseMhzText
  simp only
  split_ifs with hnil
  · exact .inl ⟨_, rfl⟩
  · rw [htext]
    rcases megahertzLoop_eq (Nat.zero_le _) hdigits hrest with ⟨hloop, -⟩ | ⟨hloop, -⟩
    · rw [hloop, ok_bind]
      simp only
      split_ifs with hlength
      · exact .inl ⟨_, rfl⟩
      · have hne : digits ≠ [] := by
          rintro rfl
          exact hlength rfl
        rcases fractionPart_cases rest with hfail | ⟨st, hok, fraction, hfraction⟩
        · rw [hfail]
          exact .inl ⟨_, rfl⟩
        · right
          exact ⟨⟨⟨digits, hne, hdigits⟩, fraction⟩, by rw [hfraction]; rfl⟩
    · rw [hloop]
      exact .inl ⟨_, rfl⟩

lemma cpuSpace_eq_false_of_mem_text {c : UInt8} (h : c ∈ decimal.text) : cpuSpace c = false := by
  have hdigit {c : UInt8} (h : isDigit c = true) : cpuSpace c = false := by
    have hc := isDigit_iff.mp h
    simp only [cpuSpace, Bool.or_eq_false_iff, beq_eq_false_iff_ne, ne_eq, ← UInt8.toNat_inj,
      UInt8.reduceToNat]
    omega
  obtain ⟨whole, _ | run⟩ := decimal
  · rw [DecimalText.text, Option.elim_none, List.append_nil] at h
    exact hdigit (whole.isDigit_of_mem c h)
  · rw [DecimalText.text, Option.elim_some, List.mem_append, List.mem_cons] at h
    rcases h with h | rfl | h
    · exact hdigit (whole.isDigit_of_mem c h)
    · rfl
    · exact hdigit (run.isDigit_of_mem c h)

lemma padded_iff : Padded decimal.text text ↔ trimCpuField text = decimal.text := by
  constructor
  · rintro ⟨front, back, rfl, hfront, hback⟩
    refine trim_blanks hfront hback ?_ ?_
    · exact fun c hc => cpuSpace_eq_false_of_mem_text (List.mem_of_mem_head? hc)
    · exact fun c hc => cpuSpace_eq_false_of_mem_text (List.mem_of_mem_getLast? hc)
  · intro h
    obtain ⟨front, back, htext, hblanks⟩ := exists_trim cpuSpace text
    exact ⟨front, back, by rw [htext, ← h]; rfl, hblanks⟩

/-- A decimal number is rounded to kilohertz exactly, if it has fewer digits behind the point
than the counter of 32 bits can tell apart; every other text fails. -/
theorem parse_mhz_text (text : List UInt8) :
    (∀ decimal : DecimalText, Padded decimal.text text →
      decimal.fractionDigits.length < 2 ^ 32 →
      parseMhzText text = frequencyOf decimal.kilohertz) ∧
    ((¬ ∃ decimal : DecimalText, Padded decimal.text text) →
      ∃ e, parseMhzText text = fail e) := by
  constructor
  · intro decimal h hlength
    exact parseMhzText_decimal (padded_iff.mp h) hlength
  · intro h
    rcases parseMhzText_cases text with hfail | ⟨decimal, hdecimal⟩
    · exact hfail
    · exact absurd ⟨decimal, padded_iff.mpr hdecimal⟩ h

/-- With a multiple of `2 ^ 32` digits behind the point, there seem to be none. -/
lemma parseMhzText_wrapped {whole fraction : DigitRun} (hbound : whole.number ≤ uint32Max / 1000)
    (hlength : fraction.digits.length % 2 ^ 32 = 0) :
    parseMhzText (DecimalText.text ⟨whole, some fraction⟩) = fail .malformedData := by
  have htrim : trimCpuField (DecimalText.text ⟨whole, some fraction⟩) =
      DecimalText.text ⟨whole, some fraction⟩ := padded_iff.mp ⟨[], [], by simp, by simp, by simp⟩
  have hwhole := whole.ne_nil
  have hfraction := @fractionLoop_eq fraction.digits [] {} fraction.isDigit_of_mem (by simp)
  have hcount : (fraction.digits.foldl addFractionDigit {}).fractionDigits = 0 := by
    rw [fractionDigits_foldl (by decide), Nat.zero_add, hlength]
  have hloop := megahertzLoop_eq (Nat.zero_le _) whole.isDigit_of_mem
    (by simp [isDigit] : ∀ c ∈ (0x2E :: fraction.digits).head?, isDigit c = false)
  have hnumber : runValue whole.digits = whole.number := rfl
  rw [Nat.zero_mul, Nat.zero_add, hnumber] at hloop
  rw [List.append_nil] at hfraction
  rcases hloop with ⟨hloop, -⟩ | ⟨-, hlarge⟩
  · unfold parseMhzText
    simp only [htrim]
    rw [DecimalText.text, Option.elim_some, if_neg (by simp), hloop, ok_bind]
    dsimp only
    rw [if_neg (by simp [hwhole])]
    simp only [fractionPart, hfraction, hcount, true_or, if_true]
    rfl
  · omega

/-- A run of zeros. -/
def zeros (n : ℕ) (h : 0 < n) : DigitRun where
  digits := List.replicate n 0x30
  ne_nil := by
    rw [ne_eq, List.replicate_eq_nil_iff]
    exact Nat.ne_of_gt h
  isDigit_of_mem := by
    intro c hc
    rw [List.eq_of_mem_replicate hc]
    rfl

lemma length_zeros {n : ℕ} (h : 0 < n) : (zeros n h).digits.length = n := List.length_replicate

/-- One megahertz, with `2 ^ 32` zeros behind the point. -/
def oneMegahertz : DecimalText where
  whole := .one
  fraction := some (zeros (2 ^ 32) (Nat.pow_pos (by decide)))

lemma kilohertz_zeros {whole : DigitRun} {n : ℕ} (h : 0 < n) :
    DecimalText.kilohertz ⟨whole, some (zeros n h)⟩ = 1000 * whole.number := by
  have hvalue : runValue (List.replicate n 0x30) = 0 := by
    have hzeros := @runValue_zeros (List.replicate n 0x30)
      (fun c hc => by rw [List.eq_of_mem_replicate hc]; rfl) []
    rwa [List.append_nil] at hzeros
  change round (1000 * ((whole.number : ℚ) + (runValue (List.replicate n 0x30) : ℚ) / _)) = _
  rw [hvalue, Nat.cast_zero, zero_div, add_zero]
  exact_mod_cast round_natCast (α := ℚ) (1000 * whole.number)

theorem parse_mhz_text_wraps : frequencyOf oneMegahertz.kilohertz = .ok 1000 ∧
    parseMhzText oneMegahertz.text = fail .malformedData := by
  constructor
  · rw [oneMegahertz, kilohertz_zeros]
    decide
  · refine parseMhzText_wrapped (by decide) ?_
    rw [length_zeros, Nat.mod_self]

end Texts

end Syscape.Cpu
