import Syscape.Lib.DigitRuns
import Syscape.Lib.StdSort
import Mathlib.Data.List.TakeWhile
import Mathlib.Data.Prod.Lex

/-!
# Natural order of texts

Three modules sort names by a comparison that takes a run of decimal digits as one number,
and other bytes one by one. A text is a list of tokens in that sense, and the comparison is
the lexicographic order of these lists.
-/
namespace Syscape.NaturalOrder
open DigitRuns StdSort

section Source

/-- The value of a `char`, which has a sign on some platforms. -/
def charValue (signed : Bool) (c : UInt8) : ℤ :=
  if signed ∧ 0x80 ≤ c then c.toNat - 256 else c.toNat

/-- The zeros in front, and the digits behind them. -/
def significantDigits (text : List UInt8) : List UInt8 :=
  (text.dropWhile isZero).takeWhile isDigit

def leadingZeros (text : List UInt8) : ℕ := (text.takeWhile isZero).length

/-- What follows the digits in front. -/
def behindDigits (text : List UInt8) : List UInt8 := (text.dropWhile isZero).dropWhile isDigit

lemma length_behindDigits_lt {c : UInt8} (hc : isDigit c = true) (text : List UInt8) :
    (behindDigits (c :: text)).length < (c :: text).length := by
  unfold behindDigits
  by_cases hzero : isZero c = true
  · rw [List.dropWhile_cons_of_pos hzero]
    have h1 := List.length_dropWhile_le isZero text
    have h2 := List.length_dropWhile_le isDigit (text.dropWhile isZero)
    rw [List.length_cons]
    omega
  · rw [List.dropWhile_cons_of_neg hzero, List.dropWhile_cons_of_pos hc]
    have h := List.length_dropWhile_le isDigit text
    rw [List.length_cons]
    omega

/-- The body of `natural_less`, from two positions on. -/
def naturalLess (signed : Bool) (left right : List UInt8) : Bool :=
  match left, right with
  | [], right => decide (right ≠ [])
  | _ :: _, [] => false
  | l :: left, r :: right =>
    if _h : ¬ isDigit l ∨ ¬ isDigit r then
      if l ≠ r then decide (charValue signed l < charValue signed r)
      else naturalLess signed left right
    else
      let leftDigits := significantDigits (l :: left)
      let rightDigits := significantDigits (r :: right)
      if leftDigits.length ≠ rightDigits.length then
        decide (leftDigits.length < rightDigits.length)
      else if leftDigits ≠ rightDigits then decide (leftDigits < rightDigits)
      else
        let leftLeadingZeros := leadingZeros (l :: left)
        let rightLeadingZeros := leadingZeros (r :: right)
        if leftLeadingZeros ≠ rightLeadingZeros then decide (leftLeadingZeros < rightLeadingZeros)
        else naturalLess signed (behindDigits (l :: left)) (behindDigits (r :: right))
termination_by left.length
decreasing_by
  · simp
  · exact length_behindDigits_lt (by simpa using (not_or.mp _h).1) left

end Source

section Digits

/-- The digits in front of a text are zeros and significant digits. -/
theorem takeWhile_isDigit (text : List UInt8) :
    text.takeWhile isDigit = text.takeWhile isZero ++ significantDigits text := by
  induction text with
  | nil => rfl
  | cons c text ih =>
    unfold significantDigits at ih ⊢
    by_cases hzero : isZero c = true
    · rw [List.takeWhile_cons_of_pos (isDigit_of_isZero hzero), List.takeWhile_cons_of_pos hzero,
        List.dropWhile_cons_of_pos hzero, ih, List.cons_append]
    · rw [List.takeWhile_cons_of_neg hzero, List.dropWhile_cons_of_neg hzero, List.nil_append]

theorem dropWhile_isDigit (text : List UInt8) : text.dropWhile isDigit = behindDigits text := by
  induction text with
  | nil => rfl
  | cons c text ih =>
    unfold behindDigits at ih ⊢
    by_cases hzero : isZero c = true
    · rw [List.dropWhile_cons_of_pos (isDigit_of_isZero hzero), List.dropWhile_cons_of_pos hzero, ih]
    · rw [List.dropWhile_cons_of_neg hzero]

theorem isDigit_of_mem_significantDigits (text : List UInt8) :
    ∀ c ∈ significantDigits text, isDigit c = true :=
  fun _ hc => List.mem_takeWhile_imp hc

theorem head?_significantDigits (text : List UInt8) :
    ∀ c ∈ (significantDigits text).head?, isDigit c = true ∧ isZero c = false := by
  intro c hc
  refine ⟨isDigit_of_mem_significantDigits text c (List.mem_of_mem_head? hc), ?_⟩
  have hhead := List.head?_dropWhile_not isZero text
  unfold significantDigits at hc
  cases hdrop : text.dropWhile isZero with
  | nil =>
    rw [hdrop] at hc
    cases hc
  | cons d rest =>
    rw [hdrop, List.head?_cons] at hhead
    rw [hdrop, List.takeWhile_cons] at hc
    split_ifs at hc
    · cases hc
      simpa using hhead
    · cases hc

/-- The number of the digits in front is that of the significant ones. -/
theorem runValue_takeWhile (text : List UInt8) :
    runValue (text.takeWhile isDigit) = runValue (significantDigits text) := by
  rw [takeWhile_isDigit, runValue_zeros fun c hc => List.mem_takeWhile_imp hc]

end Digits

section Tokens
variable {signed : Bool}

/-- A byte that is no digit, or the first byte of a run; the number and the zeros of a run. -/
abbrev Token := ℤ ×ₗ ℕ ×ₗ ℕ

def charToken (signed : Bool) (c : UInt8) : Token := toLex (charValue signed c, toLex (0, 0))

def runToken (text : List UInt8) : Token :=
  toLex (0x30, toLex (runValue (significantDigits text), leadingZeros text))

/-- The tokens of a text. -/
def tokens (signed : Bool) (text : List UInt8) : List Token :=
  match text with
  | [] => []
  | c :: text =>
    if _h : isDigit c then runToken (c :: text) :: tokens signed (behindDigits (c :: text))
    else charToken signed c :: tokens signed text
termination_by text.length
decreasing_by
  · exact length_behindDigits_lt _h text
  · simp

@[simp] theorem tokens_nil : tokens signed [] = [] := by
  rw [tokens]

theorem tokens_digit {c : UInt8} (hc : isDigit c = true) (text : List UInt8) :
    tokens signed (c :: text) =
      runToken (c :: text) :: tokens signed (behindDigits (c :: text)) := by
  rw [tokens, dif_pos hc]

theorem tokens_char {c : UInt8} (hc : isDigit c = false) (text : List UInt8) :
    tokens signed (c :: text) = charToken signed c :: tokens signed text := by
  rw [tokens, dif_neg (by simp [hc])]

theorem charValue_of_isDigit {c : UInt8} (h : isDigit c = true) :
    charValue signed c = c.toNat := by
  have hc := isDigit_iff.mp h
  have hlow : ¬ (0x80 : UInt8) ≤ c := by
    rw [UInt8.le_iff_toNat_le]
    change ¬ 0x80 ≤ c.toNat
    omega
  simp [charValue, hlow]

theorem charValue_injective (signed : Bool) : Function.Injective (charValue signed) := by
  intro c d h
  have hc := c.toNat_lt
  have hd := d.toNat_lt
  apply UInt8.toNat_inj.mp
  simp only [charValue, UInt8.le_iff_toNat_le] at h
  change (if signed = true ∧ 0x80 ≤ c.toNat then _ else _) =
    (if signed = true ∧ 0x80 ≤ d.toNat then _ else _) at h
  split_ifs at h <;> omega

/-- What is no digit has its value below the digits or above them. -/
theorem charValue_of_not_isDigit {c : UInt8} (h : isDigit c = false) :
    charValue signed c < 0x30 ∨ 0x39 < charValue signed c := by
  have hc : ¬ (0x30 ≤ c.toNat ∧ c.toNat ≤ 0x39) := by
    rw [← isDigit_iff, h]
    decide
  have hlt := c.toNat_lt
  simp only [charValue, UInt8.le_iff_toNat_le]
  change (if signed = true ∧ 0x80 ≤ c.toNat then _ else _) < _ ∨
    _ < (if signed = true ∧ 0x80 ≤ c.toNat then _ else _)
  split_ifs <;> omega

/-- What a token begins with. -/
def headValue (signed : Bool) (c : UInt8) : ℤ := if isDigit c then 0x30 else charValue signed c

theorem tokens_cons (signed : Bool) (c : UInt8) (text : List UInt8) :
    ∃ run rest, tokens signed (c :: text) = toLex (headValue signed c, run) :: rest := by
  by_cases hc : isDigit c = true
  · rw [tokens_digit hc, headValue, if_pos hc]
    exact ⟨_, _, rfl⟩
  · rw [tokens_char (by simpa using hc), headValue, if_neg hc]
    exact ⟨_, _, rfl⟩

/-- Where one of two bytes is no digit, they are ordered like their tokens. -/
theorem headValue_lt_iff {l r : UInt8} (h : ¬ isDigit l = true ∨ ¬ isDigit r = true) (hne : l ≠ r) :
    headValue signed l ≠ headValue signed r ∧
      (headValue signed l < headValue signed r ↔ charValue signed l < charValue signed r) := by
  have hvalue : charValue signed l ≠ charValue signed r := fun heq =>
    hne (charValue_injective signed heq)
  unfold headValue
  by_cases hl : isDigit l = true
  · have hr : isDigit r = false := by simpa [hl] using h
    have hvaluel := @charValue_of_isDigit signed _ hl
    have hvaluer := @charValue_of_not_isDigit signed _ hr
    have hdigit := isDigit_iff.mp hl
    rw [if_pos hl, if_neg (by simp [hr])]
    omega
  · by_cases hr : isDigit r = true
    · have hvaluer := @charValue_of_isDigit signed _ hr
      have hvaluel := @charValue_of_not_isDigit signed _ (Bool.not_eq_true _ ▸ hl)
      have hdigit := isDigit_iff.mp hr
      rw [if_neg hl, if_pos hr]
      omega
    · rw [if_neg hl, if_neg hr]
      exact ⟨hvalue, Iff.rfl⟩

theorem runToken_lt_iff (left right : List UInt8) :
    runToken left < runToken right ↔
      runValue (significantDigits left) < runValue (significantDigits right) ∨
        runValue (significantDigits left) = runValue (significantDigits right) ∧
          leadingZeros left < leadingZeros right := by
  simp [runToken, Prod.Lex.toLex_lt_toLex]

/-- A token of a run has the significant digits and the zeros of the run. -/
theorem runToken_inj {left right : List UInt8} :
    runToken left = runToken right ↔
      significantDigits left = significantDigits right ∧
        leadingZeros left = leadingZeros right := by
  have hleft := isDigit_of_mem_significantDigits left
  have hright := isDigit_of_mem_significantDigits right
  have hvalue : runValue (significantDigits left) = runValue (significantDigits right) ↔
      significantDigits left = significantDigits right := by
    refine ⟨fun heq => ?_, fun heq => by rw [heq]⟩
    have hlength : (significantDigits left).length = (significantDigits right).length := by
      rcases Nat.lt_trichotomy (significantDigits left).length (significantDigits right).length
        with hlt | hlength | hgt
      · have := runValue_lt_of_length_lt hleft (head?_significantDigits right) hlt
        omega
      · exact hlength
      · have := runValue_lt_of_length_lt hright (head?_significantDigits left) hgt
        omega
    exact runValue_inj hleft hright hlength heq
  simp [runToken, hvalue]

/-- Two runs are ordered by their numbers, then by their zeros, then by what is behind them. -/
theorem tokens_digit_lt_iff {l r : UInt8} (hl : isDigit l = true) (hr : isDigit r = true)
    (left right : List UInt8) :
    tokens signed (l :: left) < tokens signed (r :: right) ↔
      (runValue (significantDigits (l :: left)) < runValue (significantDigits (r :: right)) ∨
        runValue (significantDigits (l :: left)) = runValue (significantDigits (r :: right)) ∧
          leadingZeros (l :: left) < leadingZeros (r :: right)) ∨
      (significantDigits (l :: left) = significantDigits (r :: right) ∧
        leadingZeros (l :: left) = leadingZeros (r :: right)) ∧
          tokens signed (behindDigits (l :: left)) < tokens signed (behindDigits (r :: right)) := by
  rw [tokens_digit hl, tokens_digit hr, List.cons_lt_cons_iff, runToken_lt_iff, runToken_inj]

/-- The comparison is the order of the tokens. -/
theorem naturalLess_eq (signed : Bool) (left right : List UInt8) :
    naturalLess signed left right = decide (tokens signed left < tokens signed right) := by
  fun_induction naturalLess signed left right with
  | case1 right =>
    cases right with
    | nil => simp
    | cons r right =>
      obtain ⟨run, rest, htokens⟩ := tokens_cons signed r right
      simp [htokens]
  | case2 l left => simp
  | case3 l left r right h hne =>
    obtain ⟨leftRun, leftRest, hleft⟩ := tokens_cons signed l left
    obtain ⟨rightRun, rightRest, hright⟩ := tokens_cons signed r right
    obtain ⟨hheads, hlt⟩ := @headValue_lt_iff signed _ _ h hne
    rw [hleft, hright]
    simp [List.cons_lt_cons_iff, Prod.Lex.toLex_lt_toLex, hheads, hlt]
  | case4 l left r right h heq ih =>
    rw [ne_eq, not_not] at heq
    subst heq
    have hl : isDigit l = false := by simpa using h
    rw [tokens_char hl, tokens_char hl, ih]
    simp
  | case5 l left r right h leftDigits rightDigits hlength =>
    rw [not_or, not_not, not_not] at h
    rw [decide_eq_decide, tokens_digit_lt_iff h.1 h.2]
    have hleft := isDigit_of_mem_significantDigits (l :: left)
    have hright := isDigit_of_mem_significantDigits (r :: right)
    have hne : significantDigits (l :: left) ≠ significantDigits (r :: right) :=
      fun heq => hlength (congrArg List.length heq)
    rcases Nat.lt_or_gt_of_ne hlength with hlt | hgt
    · have hvalue := runValue_lt_of_length_lt hleft (head?_significantDigits (r :: right)) hlt
      exact iff_of_true hlt (.inl (.inl hvalue))
    · have hvalue := runValue_lt_of_length_lt hright (head?_significantDigits (l :: left)) hgt
      refine iff_of_false (by omega) ?_
      rintro ((hlt | ⟨heq, -⟩) | ⟨⟨heq, -⟩, -⟩)
      · omega
      · omega
      · exact hne heq
  | case6 l left r right h leftDigits rightDigits hlength hne =>
    rw [not_or, not_not, not_not] at h
    rw [ne_eq, not_not] at hlength
    have hleft := isDigit_of_mem_significantDigits (l :: left)
    have hright := isDigit_of_mem_significantDigits (r :: right)
    have hlt := runValue_lt_iff hleft hright hlength
    have hvalue : runValue (significantDigits (l :: left)) ≠
        runValue (significantDigits (r :: right)) :=
      fun heq => hne (runValue_inj hleft hright hlength heq)
    rw [decide_eq_decide, tokens_digit_lt_iff h.1 h.2, hlt]
    simp [hne, hvalue, leftDigits, rightDigits]
  | case7 l left r right h leftDigits rightDigits hlength hsame leftZeros rightZeros hzeros =>
    rw [not_or, not_not, not_not] at h
    rw [ne_eq, not_not] at hsame
    rw [decide_eq_decide, tokens_digit_lt_iff h.1 h.2]
    simp [show significantDigits (l :: left) = significantDigits (r :: right) from hsame,
      show leadingZeros (l :: left) ≠ leadingZeros (r :: right) from hzeros, leftZeros, rightZeros]
  | case8 l left r right h leftDigits rightDigits hlength hsame leftZeros rightZeros hzeros ih =>
    rw [not_or, not_not, not_not] at h
    rw [ne_eq, not_not] at hsame hzeros
    rw [ih, decide_eq_decide, tokens_digit_lt_iff h.1 h.2]
    simp [show significantDigits (l :: left) = significantDigits (r :: right) from hsame,
      show leadingZeros (l :: left) = leadingZeros (r :: right) from hzeros]

theorem takeWhile_isZero (text : List UInt8) :
    text.takeWhile isZero = List.replicate (leadingZeros text) 0x30 := by
  rw [List.eq_replicate_iff]
  refine ⟨rfl, fun c hc => ?_⟩
  simpa [isZero] using List.mem_takeWhile_imp hc

/-- A text is determined by its tokens. -/
theorem tokens_injective (signed : Bool) : Function.Injective (tokens signed) := by
  intro left right h
  induction hn : left.length using Nat.strongRecOn generalizing left right with
  | ind n ih =>
    cases left with
    | nil =>
      cases right with
      | nil => rfl
      | cons r right =>
        obtain ⟨run, rest, hright⟩ := tokens_cons signed r right
        rw [hright] at h
        simp at h
    | cons l left =>
      cases right with
      | nil =>
        obtain ⟨run, rest, hleft⟩ := tokens_cons signed l left
        rw [hleft] at h
        simp at h
      | cons r right =>
        by_cases hboth : isDigit l = true ∧ isDigit r = true
        · rw [tokens_digit hboth.1, tokens_digit hboth.2, List.cons.injEq, runToken_inj] at h
          obtain ⟨⟨hdigits, hzeros⟩, hbehind⟩ := h
          have hlt := length_behindDigits_lt hboth.1 left
          have hrest := ih _ (by omega) hbehind rfl
          rw [← List.takeWhile_append_dropWhile (p := isDigit) (l := l :: left),
            ← List.takeWhile_append_dropWhile (p := isDigit) (l := r :: right), takeWhile_isDigit,
            takeWhile_isDigit, takeWhile_isZero, takeWhile_isZero, dropWhile_isDigit,
            dropWhile_isDigit, hdigits, hzeros, hrest]
        · have hsome : ¬ isDigit l = true ∨ ¬ isDigit r = true := not_and_or.mp hboth
          have hsame : l = r := by
            by_contra hne
            obtain ⟨leftRun, leftRest, hleft⟩ := tokens_cons signed l left
            obtain ⟨rightRun, rightRest, hright⟩ := tokens_cons signed r right
            rw [hleft, hright, List.cons.injEq, toLex_inj, Prod.mk.injEq] at h
            exact (headValue_lt_iff hsome hne).1 h.1.1
          subst hsame
          have hl : isDigit l = false := by simpa using hsome
          rw [tokens_char hl, tokens_char hl, List.cons.injEq] at h
          rw [ih left.length (by simp [← hn]) h.2 rfl]

theorem strictTotal_naturalLess (signed : Bool) : StrictTotal (naturalLess signed) := by
  convert StrictTotal.of_injective (tokens_injective signed) using 3 with a b
  rw [naturalLess_eq]
  exact decide_eq_decide.mpr Iff.rfl

end Tokens

section Runs
variable {signed : Bool}

/-- The token of a text depends on the digits in front only. -/
theorem runToken_takeWhile (text : List UInt8) :
    runToken text = toLex (0x30, toLex (runValue (text.takeWhile isDigit),
      leadingZeros (text.takeWhile isDigit))) := by
  have hzeros : leadingZeros (text.takeWhile isDigit) = leadingZeros text := by
    unfold leadingZeros
    rw [List.takeWhile_takeWhile]
    congr 2
    funext c
    have hc := @isDigit_of_isZero c
    simpa using hc
  rw [runToken, runValue_takeWhile, hzeros]

theorem tokens_run (run : DigitRun) {more : List UInt8}
    (hmore : ∀ c ∈ more.head?, isDigit c = false) :
    tokens signed (run.digits ++ more) =
      toLex (0x30, toLex (run.number, leadingZeros run.digits)) :: tokens signed more := by
  obtain ⟨c, digits, hcons⟩ := List.exists_cons_of_ne_nil run.ne_nil
  have hdigits := run.isDigit_of_mem
  have hstop : more.takeWhile isDigit = [] ∧ more.dropWhile isDigit = more := by
    cases more with
    | nil => exact ⟨rfl, rfl⟩
    | cons d more => simp [hmore d rfl]
  have htake : (run.digits ++ more).takeWhile isDigit = run.digits := by
    rw [List.takeWhile_append_of_pos hdigits, hstop.1, List.append_nil]
  have hdrop : (run.digits ++ more).dropWhile isDigit = more := by
    rw [List.dropWhile_append_of_pos hdigits, hstop.2]
  have htokens := @tokens_digit signed _ (hdigits c (by simp [hcons])) (digits ++ more)
  rw [← List.cons_append, ← hcons, runToken_takeWhile, ← dropWhile_isDigit, htake, hdrop] at htokens
  exact htokens

/-- A text in front that does not end in a digit has its own tokens. -/
theorem tokens_append {front : List UInt8} (hfront : ∀ c ∈ front.getLast?, isDigit c = false)
    (text : List UInt8) :
    tokens signed (front ++ text) = tokens signed front ++ tokens signed text := by
  induction hn : front.length using Nat.strongRecOn generalizing front with
  | ind n ih =>
    cases front with
    | nil => simp
    | cons c front =>
      by_cases hc : isDigit c = true
      · -- the run ends in front of the last byte
        have hne : (c :: front).dropWhile isDigit ≠ [] := by
          intro hnil
          have hlast := List.dropWhile_eq_nil_iff.mp hnil _ (List.getLast_mem (by simp))
          rw [hfront _ (List.getLast?_eq_some_getLast (by simp))] at hlast
          cases hlast
        have hdrop : ((c :: front) ++ text).dropWhile isDigit =
            (c :: front).dropWhile isDigit ++ text := by
          rw [List.dropWhile_append, if_neg (by simpa using hne)]
        have htake : ((c :: front) ++ text).takeWhile isDigit = (c :: front).takeWhile isDigit := by
          rw [List.takeWhile_append, if_neg]
          intro hlength
          have hparts := List.takeWhile_append_dropWhile (p := isDigit) (l := c :: front)
          have hsum := congrArg List.length hparts
          rw [List.length_append] at hsum
          have hpos := List.length_pos_iff.mpr hne
          omega
        have hrest := @ih ((c :: front).dropWhile isDigit).length (by
            rw [dropWhile_isDigit]
            exact hn ▸ length_behindDigits_lt hc front) ((c :: front).dropWhile isDigit) (by
            intro d hd
            obtain ⟨start, hstart⟩ := List.dropWhile_suffix isDigit (l := c :: front)
            apply hfront
            rw [← hstart, List.getLast?_append, hd]
            rfl) rfl
        rw [List.cons_append, tokens_digit hc, tokens_digit hc, runToken_takeWhile,
          runToken_takeWhile (c :: front), ← dropWhile_isDigit, ← dropWhile_isDigit,
          ← List.cons_append, htake, hdrop, hrest, List.cons_append]
      · have hc' : isDigit c = false := by simpa using hc
        have hrest : ∀ d ∈ front.getLast?, isDigit d = false := by
          intro d hd
          apply hfront
          cases front with
          | nil => cases hd
          | cons e front => rwa [List.getLast?_cons_cons]
        rw [List.cons_append, tokens_char hc', tokens_char hc', List.cons_append,
          ih front.length (by simp [← hn]) hrest rfl]

/-- Two texts that differ first in a run of digits are ordered by the numbers of these runs,
and where the numbers are equal by the zeros in front. -/
theorem naturalLess_run {front : List UInt8} (hfront : ∀ c ∈ front.getLast?, isDigit c = false)
    {left right : DigitRun} (hne : left.digits ≠ right.digits) {leftMore rightMore : List UInt8}
    (hleft : ∀ c ∈ leftMore.head?, isDigit c = false)
    (hright : ∀ c ∈ rightMore.head?, isDigit c = false) :
    naturalLess signed (front ++ left.digits ++ leftMore) (front ++ right.digits ++ rightMore) =
      if left.number ≠ right.number then decide (left.number < right.number)
      else decide (leadingZeros left.digits < leadingZeros right.digits) := by
  have hcommon (s t u : List Token) : u ++ s < u ++ t ↔ s < t := by
    induction u with
    | nil => rfl
    | cons token u ih => simp [ih]
  have hzeros : left.number = right.number →
      leadingZeros left.digits ≠ leadingZeros right.digits := by
    intro hnumber hzeros
    have hl := @tokens_run signed left [] (by simp)
    have hr := @tokens_run signed right [] (by simp)
    rw [List.append_nil] at hl hr
    rw [hnumber, hzeros, ← hr] at hl
    exact hne (tokens_injective signed hl)
  rw [naturalLess_eq, List.append_assoc, List.append_assoc, tokens_append hfront,
    tokens_append hfront, tokens_run left hleft, tokens_run right hright]
  simp only [hcommon, List.cons_lt_cons_iff, Prod.Lex.toLex_lt_toLex, toLex_inj, Prod.mk.injEq]
  by_cases hnumber : left.number = right.number
  · simp [hnumber, hzeros hnumber]
  · simp [hnumber]

end Runs

end Syscape.NaturalOrder

namespace Syscape

/-- `natural_less` of the printer module. -/
def Printer.naturalLess (signed : Bool) : List UInt8 → List UInt8 → Bool :=
  NaturalOrder.naturalLess signed

/-- `natural_less` of the module of wireless networks. -/
def Wifi.naturalLess (signed : Bool) : List UInt8 → List UInt8 → Bool :=
  NaturalOrder.naturalLess signed

/-- `natural_less` of the Bluetooth module. -/
def Bluetooth.naturalLess (signed : Bool) : List UInt8 → List UInt8 → Bool :=
  NaturalOrder.naturalLess signed

namespace NaturalOrder
open DigitRuns

/-- The comparison is a strict total order of all texts. It orders runs of digits by their
numbers, and by the zeros in front where the numbers are equal; the copies of it agree. -/
theorem natural_less_order (signed : Bool) :
    (∀ a, Printer.naturalLess signed a a = false) ∧
      (∀ a b c, Printer.naturalLess signed a b = true → Printer.naturalLess signed b c = true →
        Printer.naturalLess signed a c = true) ∧
      (∀ a b, a ≠ b → (Printer.naturalLess signed a b = true ↔
        Printer.naturalLess signed b a = false)) ∧
      (∀ (front leftMore rightMore : List UInt8) (left right : DigitRun),
        (∀ c ∈ front.getLast?, isDigit c = false) → (∀ c ∈ leftMore.head?, isDigit c = false) →
        (∀ c ∈ rightMore.head?, isDigit c = false) → left.digits ≠ right.digits →
        Printer.naturalLess signed (front ++ left.digits ++ leftMore)
            (front ++ right.digits ++ rightMore) =
          if left.number ≠ right.number then decide (left.number < right.number)
          else decide (leadingZeros left.digits < leadingZeros right.digits)) ∧
      Wifi.naturalLess signed = Printer.naturalLess signed ∧
      Bluetooth.naturalLess signed = Printer.naturalLess signed := by
  have htotal := strictTotal_naturalLess signed
  refine ⟨htotal.irrefl, ?_, ?_, ?_, rfl, rfl⟩
  · intro a b c hab hbc
    by_contra hac
    have hcb := htotal.asymm b c hbc
    have hba := htotal.negTrans a c b (Bool.not_eq_true _ ▸ hac) hcb
    rw [Printer.naturalLess] at hab
    rw [hba] at hab
    cases hab
  · intro a b hne
    constructor
    · exact htotal.asymm a b
    · intro hba
      by_contra hab
      exact hne (htotal.eq_of_not_lt a b (Bool.not_eq_true _ ▸ hab) hba)
  · intro front leftMore rightMore left right hfront hleft hright hne
    exact naturalLess_run hfront hne hleft hright

end NaturalOrder

end Syscape
