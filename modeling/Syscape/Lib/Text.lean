import Mathlib.Data.List.DropRight
import Mathlib.Data.List.TakeWhile
import Mathlib.Tactic.Common
import Mathlib.Tactic.ByContra

/-!
# Byte texts

Texts are lists of bytes. The module has ASCII literals, trimming of a set of blank
bytes at both ends, and splitting at runs of blanks.
-/
namespace Text

/-- The bytes of an ASCII literal. -/
def ascii (s : String) : List UInt8 := s.toList.map fun c => UInt8.ofNat c.toNat

/-- Membership of a text in a list of texts is decided byte by byte. -/
instance lawfulBEq_text : LawfulBEq (List UInt8) := List.instLawfulBEq

/-- What holds of all bytes of a text is decided over the text, not over all 256 bytes. -/
instance (priority := high) decidableForallByte {p : UInt8 → Prop} [DecidablePred p]
    (text : List UInt8) : Decidable (∀ c ∈ text, p c) := List.decidableBAll p text

/-- The same for a byte that need not be there. -/
instance (priority := high) decidableForallOptional {p : UInt8 → Prop} [DecidablePred p]
    (byte : Option UInt8) : Decidable (∀ c ∈ byte, p c) := Option.decidableForallMem byte

/-- A test of all bytes of a text can be evaluated. -/
theorem forall_of_all {p : UInt8 → Prop} [DecidablePred p] {text : List UInt8}
    (h : text.all (fun c => decide (p c)) = true) : ∀ c ∈ text, p c := by
  intro c hc
  exact of_decide_eq_true (List.all_eq_true.mp h c hc)

section Trim
variable {blank : UInt8 → Bool}

/-- A text without blanks at its ends is not changed by trimming. -/
theorem dropWhile_eq_self {text : List UInt8} (h : ∀ c ∈ text, blank c = false) :
    text.dropWhile blank = text := by
  cases text with
  | nil => rfl
  | cons c text => simp [h c (by simp)]

theorem rdropWhile_eq_self {text : List UInt8} (h : ∀ c ∈ text, blank c = false) :
    text.rdropWhile blank = text := by
  unfold List.rdropWhile
  rw [dropWhile_eq_self (by simpa using h), List.reverse_reverse]

/-- Blanks behind a text are trimmed with the blanks at its own end. -/
theorem rdropWhile_append_blanks {text blanks : List UInt8} (h : ∀ c ∈ blanks, blank c = true) :
    (text ++ blanks).rdropWhile blank = text.rdropWhile blank := by
  unfold List.rdropWhile
  rw [List.reverse_append, List.dropWhile_append_of_pos (by simpa using h)]

/-- Every text has a part that does not end in a blank, and blanks behind it. -/
theorem exists_trimmed (blank : UInt8 → Bool) (text : List UInt8) :
    ∃ core back, text = core ++ back ∧ (∀ c ∈ back, blank c = true) ∧
      ∀ c ∈ core.getLast?, blank c = false := by
  induction text using List.reverseRecOn with
  | nil => exact ⟨[], [], rfl, by simp, by simp⟩
  | append_singleton text c ih =>
    by_cases hc : blank c = true
    · obtain ⟨core, back, rfl, hback, hcore⟩ := ih
      refine ⟨core, back ++ [c], by simp, ?_, hcore⟩
      intro d hd
      rcases List.mem_append.mp hd with hd | hd
      · exact hback d hd
      · rwa [List.mem_singleton.mp hd]
    · exact ⟨text ++ [c], [], by simp, by simp, by simpa using hc⟩

/-- A text that does not end in a blank is not changed by trimming behind it. -/
theorem rdropWhile_of_getLast? {text : List UInt8} (h : ∀ c ∈ text.getLast?, blank c = false) :
    text.rdropWhile blank = text := by
  rcases List.eq_nil_or_concat text with rfl | ⟨front, c, rfl⟩
  · rfl
  · rw [List.concat_eq_append, List.rdropWhile_concat_neg]
    simpa using h

/-- Only what is behind a byte that is no blank can be trimmed. -/
theorem rdropWhile_append_cons {c : UInt8} (hc : blank c = false) (front text : List UInt8) :
    (front ++ c :: text).rdropWhile blank = front ++ c :: text.rdropWhile blank := by
  obtain ⟨core, back, rfl, hback, hcore⟩ := exists_trimmed blank text
  rw [rdropWhile_append_blanks hback, rdropWhile_of_getLast? hcore, ← List.cons_append,
    ← List.append_assoc, rdropWhile_append_blanks hback, rdropWhile_of_getLast?]
  intro d hd
  rw [List.getLast?_append_cons] at hd
  cases core with
  | nil =>
    rw [List.getLast?_singleton, Option.mem_some_iff] at hd
    rwa [← hd]
  | cons e core => exact hcore d (by rwa [List.getLast?_cons_cons] at hd)

/-- What is trimmed from a text are blanks in front of it and behind it. -/
theorem exists_trim (blank : UInt8 → Bool) (text : List UInt8) :
    ∃ front back, text = front ++ (text.dropWhile blank).rdropWhile blank ++ back ∧
      (∀ c ∈ front, blank c = true) ∧ ∀ c ∈ back, blank c = true := by
  refine ⟨text.takeWhile blank, (text.dropWhile blank).rtakeWhile blank, ?_, ?_, ?_⟩
  · rw [List.append_assoc, List.rdropWhile_append_rtakeWhile, List.takeWhile_append_dropWhile]
  · exact fun c hc => List.mem_takeWhile_imp hc
  · exact fun c hc => List.mem_rtakeWhile_imp hc

/-- Blanks on both sides of a text that begins and ends with other bytes are trimmed. -/
theorem trim_blanks {front text back : List UInt8} (hfront : ∀ c ∈ front, blank c = true)
    (hback : ∀ c ∈ back, blank c = true) (hhead : ∀ c ∈ text.head?, blank c = false)
    (hlast : ∀ c ∈ text.getLast?, blank c = false) :
    ((front ++ text ++ back).dropWhile blank).rdropWhile blank = text := by
  have hself : text.rdropWhile blank = text := by
    rw [List.rdropWhile_eq_self_iff]
    intro hne h
    rw [hlast _ (List.getLast?_eq_some_getLast hne)] at h
    exact absurd h (by simp)
  rw [List.append_assoc, List.dropWhile_append_of_pos hfront]
  cases text with
  | nil =>
    rw [List.nil_append, List.dropWhile_eq_nil_iff.mpr hback]
    rfl
  | cons c text =>
    have hc : blank c = false := hhead c rfl
    rw [List.cons_append, List.dropWhile_cons_of_neg (by simp [hc]), ← List.cons_append,
      rdropWhile_append_blanks hback, hself]

/-- Blanks behind a text do not change what is left of it. -/
theorem trim_append_blanks {text blanks : List UInt8} (h : ∀ c ∈ blanks, blank c = true) :
    ((text ++ blanks).dropWhile blank).rdropWhile blank =
      (text.dropWhile blank).rdropWhile blank := by
  rw [List.dropWhile_append]
  split_ifs with hnil
  · rw [List.isEmpty_iff] at hnil
    rw [hnil, List.dropWhile_eq_nil_iff.mpr h]
  · exact rdropWhile_append_blanks h

/-- A trimmed text does not begin with a blank. -/
theorem head?_trim (text : List UInt8) :
    ∀ c ∈ ((text.dropWhile blank).rdropWhile blank).head?, blank c = false := by
  intro c hc
  rw [Option.mem_def, ← List.singleton_prefix_iff_head?_eq_some] at hc
  have hfirst := hc.trans (List.rdropWhile_prefix blank (text.dropWhile blank))
  rw [List.singleton_prefix_iff_head?_eq_some] at hfirst
  have hnot := List.head?_dropWhile_not blank text
  rwa [hfirst] at hnot

theorem getLast?_trim (text : List UInt8) :
    ∀ c ∈ ((text.dropWhile blank).rdropWhile blank).getLast?, blank c = false := by
  intro c hc
  have hne : (text.dropWhile blank).rdropWhile blank ≠ [] := List.ne_nil_of_mem
    (List.mem_of_mem_getLast? hc)
  have hlast := List.rdropWhile_last_not blank _ hne
  rw [Option.mem_def, List.getLast?_eq_some_getLast hne, Option.some_inj] at hc
  rwa [hc, Bool.not_eq_true] at hlast

/-- Trimming leaves the first byte of a text that does not begin with a blank. -/
theorem head?_trim_eq {text : List UInt8} (h : ∀ c ∈ text.head?, blank c = false) :
    ((text.dropWhile blank).rdropWhile blank).head? = text.head? := by
  cases text with
  | nil => rfl
  | cons c text =>
    have hc : blank c = false := h c rfl
    have hdrop : (c :: text).dropWhile blank = c :: text := List.dropWhile_cons_of_neg (by simp [hc])
    obtain ⟨back, hback⟩ := List.rdropWhile_prefix blank (c :: text)
    rw [hdrop]
    cases hcore : (c :: text).rdropWhile blank with
    | nil => exact absurd (List.rdropWhile_eq_nil_iff.mp hcore c (by simp)) (by simp [hc])
    | cons d core =>
      rw [hcore] at hback
      rw [(List.cons.inj hback).1]
      rfl

/-- Trimming twice is trimming once. -/
theorem trim_trim (text : List UInt8) :
    ((((text.dropWhile blank).rdropWhile blank).dropWhile blank).rdropWhile blank) =
      (text.dropWhile blank).rdropWhile blank := by
  have hhead := @head?_trim blank text
  have hdrop : ((text.dropWhile blank).rdropWhile blank).dropWhile blank =
      (text.dropWhile blank).rdropWhile blank := by
    cases htrim : (text.dropWhile blank).rdropWhile blank with
    | nil => rfl
    | cons c trimmed =>
      rw [htrim] at hhead
      exact List.dropWhile_cons_of_neg (by simp [hhead c rfl])
  rw [hdrop, List.rdropWhile_idempotent]

/-- Only a text of blanks is trimmed to nothing. -/
theorem trim_ne_nil {text : List UInt8} (h : ∃ c ∈ text, blank c = false) :
    (text.dropWhile blank).rdropWhile blank ≠ [] := by
  obtain ⟨c, hc, hblank⟩ := h
  intro hnil
  rw [List.rdropWhile_eq_nil_iff] at hnil
  have hall : ∀ d ∈ text, blank d = true := by
    intro d hd
    rw [← List.takeWhile_append_dropWhile (p := blank) (l := text), List.mem_append] at hd
    rcases hd with hd | hd
    · exact List.mem_takeWhile_imp hd
    · exact hnil d hd
  rw [hall c hc] at hblank
  cases hblank

end Trim

section Find

/-- Where a text stands in another one for the first time. -/
def findText (needle : List UInt8) : List UInt8 → Option ℕ
  | [] => if needle = [] then some 0 else none
  | c :: text => if needle <+: c :: text then some 0 else (findText needle text).map (· + 1)

theorem findText_eq_some_iff {needle text : List UInt8} {i : ℕ} :
    findText needle text = some i ↔
      needle <+: text.drop i ∧ ∀ j < i, ¬ needle <+: text.drop j := by
  induction text generalizing i with
  | nil =>
    rw [findText]
    simp only [List.drop_nil, List.prefix_nil]
    split_ifs with hnil
    · rw [Option.some_inj, hnil]
      constructor
      · intro h
        exact ⟨rfl, fun j hj => absurd hj (by omega)⟩
      · intro ⟨_, hbefore⟩
        by_contra hne
        exact hbefore 0 (by omega) rfl
    · simp [hnil]
  | cons c text ih =>
    rw [findText]
    split_ifs with hfirst
    · constructor
      · intro h
        cases h
        exact ⟨hfirst, fun j hj => absurd hj (Nat.not_lt_zero j)⟩
      · intro ⟨_, hbefore⟩
        cases i with
        | zero => rfl
        | succ i => exact absurd hfirst (hbefore 0 (Nat.succ_pos i))
    · cases i with
      | zero => simp [hfirst]
      | succ i =>
        rw [Option.map_eq_some_iff, List.drop_succ_cons]
        simp only [Nat.add_right_cancel_iff, exists_eq_right, ih]
        refine and_congr_right fun _ => ?_
        constructor
        · intro h j hj
          cases j with
          | zero => exact hfirst
          | succ j => exact h j (Nat.lt_of_succ_lt_succ hj)
        · intro h j hj
          exact h (j + 1) (Nat.succ_lt_succ hj)

/-- The text in front of the place, and the text behind what stands there. -/
theorem findText_eq_some_iff_split {needle text : List UInt8} (hneedle : needle ≠ []) {i : ℕ} :
    findText needle text = some i ↔ ∃ front back, text = front ++ needle ++ back ∧
      front.length = i ∧ ∀ j < i, ¬ needle <+: text.drop j := by
  rw [findText_eq_some_iff]
  constructor
  · rintro ⟨⟨back, hback⟩, hbefore⟩
    have hlength := congrArg List.length hback
    have hpos := List.length_pos_iff.mpr hneedle
    rw [List.length_append, List.length_drop] at hlength
    refine ⟨text.take i, back, ?_, List.length_take_of_le (by omega), hbefore⟩
    rw [List.append_assoc, hback, List.take_append_drop]
  · rintro ⟨front, back, rfl, rfl, hbefore⟩
    refine ⟨?_, hbefore⟩
    rw [List.append_assoc, List.drop_left]
    exact List.prefix_append _ _

theorem findText_start (needle rest : List UInt8) : findText needle (needle ++ rest) = some 0 := by
  rw [findText_eq_some_iff]
  exact ⟨List.prefix_append _ _, fun j hj => absurd hj (Nat.not_lt_zero j)⟩

end Find

section Split

/-- The maximal runs of non-blank bytes, in order. -/
def splitBlank (blank : UInt8 → Bool) (text : List UInt8) : List (List UInt8) :=
  match _h : text.dropWhile blank with
  | [] => []
  | c :: rest =>
    (c :: rest).takeWhile (fun c => !blank c) ::
      splitBlank blank (rest.dropWhile (fun c => !blank c))
termination_by text.length
decreasing_by
  have h1 : (text.dropWhile blank).length ≤ text.length := List.length_dropWhile_le blank text
  have h2 := List.length_dropWhile_le (fun c => !blank c) rest
  rw [_h, List.length_cons] at h1
  omega

variable {blank : UInt8 → Bool}

@[simp] theorem splitBlank_nil : splitBlank blank [] = [] := by
  rw [splitBlank]
  rfl

theorem splitBlank_blank {c : UInt8} (hc : blank c = true) (text : List UInt8) :
    splitBlank blank (c :: text) = splitBlank blank text := by
  rw [splitBlank, splitBlank, List.dropWhile_cons_of_pos hc]

theorem splitBlank_cons {c : UInt8} (hc : blank c = false) (text : List UInt8) :
    splitBlank blank (c :: text) =
      (c :: text).takeWhile (fun c => !blank c) ::
        splitBlank blank (text.dropWhile (fun c => !blank c)) := by
  rw [splitBlank]
  split
  · simp_all
  · next d rest h =>
    rw [List.dropWhile_cons_of_neg (by simp [hc])] at h
    cases h
    rfl

/-- A token, then a blank or the end of the text. -/
theorem splitBlank_token {token rest : List UInt8} (hne : token ≠ [])
    (htoken : ∀ c ∈ token, blank c = false) (hrest : ∀ c ∈ rest.head?, blank c = true) :
    splitBlank blank (token ++ rest) = token :: splitBlank blank rest := by
  have hstop : rest.takeWhile (fun c => !blank c) = [] ∧
      rest.dropWhile (fun c => !blank c) = rest := by
    cases rest with
    | nil => simp
    | cons c rest => simp [hrest c rfl]
  obtain ⟨c, token, rfl⟩ := List.exists_cons_of_ne_nil hne
  have htail : ∀ x ∈ token, (!blank x) = true := by
    intro x hx
    simp [htoken x (by simp [hx])]
  rw [List.cons_append, splitBlank_cons (htoken c (by simp)),
    List.takeWhile_cons_of_pos (by simp [htoken c]), List.takeWhile_append_of_pos htail,
    List.dropWhile_append_of_pos htail, hstop.1, hstop.2, List.append_nil]

/-- The first token, and the tokens behind it. -/
theorem splitBlank_eq (text : List UInt8) :
    splitBlank blank text =
      if text.dropWhile blank = [] then []
      else (text.dropWhile blank).takeWhile (fun c => !blank c) ::
        splitBlank blank ((text.dropWhile blank).dropWhile (fun c => !blank c)) := by
  rw [splitBlank]
  split
  · next hnil => rw [if_pos hnil]
  · next c rest hcons =>
    have hc : blank c = false := by
      have hhead := List.head_dropWhile_not blank (l := text) (by simp [hcons])
      simpa [hcons] using hhead
    rw [hcons, if_neg (by simp), List.dropWhile_cons_of_pos (by simp [hc])]

/-- Blanks in front of a text make no token. -/
theorem splitBlank_append_blanks {blanks : List UInt8} (h : ∀ c ∈ blanks, blank c = true)
    (text : List UInt8) : splitBlank blank (blanks ++ text) = splitBlank blank text := by
  rw [splitBlank_eq, splitBlank_eq text, List.dropWhile_append_of_pos h]

theorem splitBlank_eq_nil_iff {text : List UInt8} :
    splitBlank blank text = [] ↔ ∀ c ∈ text, blank c = true := by
  rw [splitBlank_eq, ← List.dropWhile_eq_nil_iff]
  split_ifs with h <;> simp [h]

/-- A text of blanks, or blanks, a token and what is behind it. -/
theorem exists_token (blank : UInt8 → Bool) (text : List UInt8) :
    (∀ c ∈ text, blank c = true) ∨ ∃ blanks token rest, text = blanks ++ (token ++ rest) ∧
      (∀ c ∈ blanks, blank c = true) ∧ token ≠ [] ∧ (∀ c ∈ token, blank c = false) ∧
      ∀ c ∈ rest.head?, blank c = true := by
  by_cases hnil : text.dropWhile blank = []
  · exact .inl (List.dropWhile_eq_nil_iff.mp hnil)
  · right
    refine ⟨text.takeWhile blank, (text.dropWhile blank).takeWhile fun c => !blank c,
      (text.dropWhile blank).dropWhile fun c => !blank c, ?_, ?_, ?_, ?_, ?_⟩
    · rw [List.takeWhile_append_dropWhile, List.takeWhile_append_dropWhile]
    · exact fun c hc => List.mem_takeWhile_imp hc
    · have hhead := List.head_dropWhile_not blank (l := text) hnil
      obtain ⟨c, rest, hcons⟩ := List.exists_cons_of_ne_nil hnil
      simp only [hcons, List.head_cons] at hhead
      rw [hcons, List.takeWhile_cons_of_pos (by simp [hhead])]
      simp
    · intro c hc
      simpa using List.mem_takeWhile_imp hc
    · intro c hc
      have hne : ((text.dropWhile blank).dropWhile fun c => !blank c) ≠ [] := by
        intro h
        rw [h] at hc
        cases hc
      have hlast := List.head_dropWhile_not (fun c => !blank c) hne
      rw [List.head?_eq_some_head hne, Option.mem_some_iff] at hc
      rw [← hc]
      simpa using hlast

/-- Columns with blanks in front of them, and what follows them, begin with a blank. -/
theorem blank_head?_columns {columns : List (List UInt8 × List UInt8)} {rest : List UInt8}
    (hblanks : ∀ p ∈ columns, p.1 ≠ [] ∧ ∀ c ∈ p.1, blank c = true)
    (hrest : ∀ c ∈ rest.head?, blank c = true) :
    ∀ c ∈ (columns.flatMap (fun p => p.1 ++ p.2) ++ rest).head?, blank c = true := by
  cases columns with
  | nil => exact hrest
  | cons q columns =>
    obtain ⟨hne, hq⟩ := hblanks q (by simp)
    obtain ⟨d, blanks, hcons⟩ := List.exists_cons_of_ne_nil hne
    rw [hcons] at hq
    simpa [hcons] using hq d (by simp)

/-- Tokens in columns, each with blanks in front of it. -/
theorem splitBlank_columns {columns : List (List UInt8 × List UInt8)} {rest : List UInt8}
    (hblanks : ∀ p ∈ columns, p.1 ≠ [] ∧ ∀ c ∈ p.1, blank c = true)
    (htokens : ∀ p ∈ columns, p.2 ≠ [] ∧ ∀ c ∈ p.2, blank c = false)
    (hrest : ∀ c ∈ rest.head?, blank c = true) :
    splitBlank blank (columns.flatMap (fun p => p.1 ++ p.2) ++ rest) =
      columns.map Prod.snd ++ splitBlank blank rest := by
  induction columns with
  | nil => rfl
  | cons p columns ih =>
    have hnext := blank_head?_columns (fun q hq => hblanks q (List.mem_cons_of_mem p hq)) hrest
    rw [List.flatMap_cons, List.append_assoc, List.append_assoc,
      splitBlank_append_blanks (hblanks p (by simp)).2,
      splitBlank_token (htokens p (by simp)).1 (htokens p (by simp)).2 hnext,
      ih (fun q hq => hblanks q (by simp [hq])) fun q hq => htokens q (by simp [hq])]
    rfl

/-- Tokens that are written with one blank between them. -/
theorem splitBlank_intercalate {c : UInt8} (hc : blank c = true) {tokens : List (List UInt8)}
    (h : ∀ token ∈ tokens, token ≠ [] ∧ ∀ d ∈ token, blank d = false) :
    splitBlank blank ([c].intercalate tokens) = tokens := by
  induction tokens with
  | nil => exact splitBlank_nil
  | cons token tokens ih =>
    rw [List.forall_mem_cons] at h
    cases tokens with
    | nil =>
      have hone := @splitBlank_token blank token [] h.1.1 h.1.2 (by simp)
      rw [List.append_nil, splitBlank_nil] at hone
      rw [List.intercalate_singleton, hone]
    | cons next tokens =>
      rw [List.intercalate_cons_cons, List.append_assoc, List.singleton_append,
        splitBlank_token h.1.1 h.1.2 (by simpa using hc), splitBlank_blank hc, ih h.2]

/-- Of tokens with a blank behind each, those that are not empty are found again. -/
theorem splitBlank_flatMap {c : UInt8} (hc : blank c = true) {tokens : List (List UInt8)}
    (h : ∀ token ∈ tokens, ∀ d ∈ token, blank d = false) :
    splitBlank blank (tokens.flatMap fun token => token ++ [c]) =
      tokens.filter fun token => token ≠ [] := by
  induction tokens with
  | nil => exact splitBlank_nil
  | cons token tokens ih =>
    rw [List.forall_mem_cons] at h
    rw [List.flatMap_cons, List.append_assoc, List.singleton_append]
    by_cases hnil : token = []
    · rw [hnil, List.nil_append, splitBlank_blank hc, ih h.2, List.filter_cons_of_neg (by simp)]
    · rw [splitBlank_token hnil h.1 (by simpa using hc), splitBlank_blank hc, ih h.2,
        List.filter_cons_of_pos (by simpa using hnil)]

/-- A token is not empty and has no blank inside. -/
theorem solid_of_mem_splitBlank {text token : List UInt8} (h : token ∈ splitBlank blank text) :
    token ≠ [] ∧ ∀ c ∈ token, blank c = false := by
  induction hn : text.length using Nat.strong_induction_on generalizing text with
  | h n ih =>
    rcases exists_token blank text with hall | ⟨front, first, rest, rfl, hfront, hne, hsolid, hrest⟩
    · rw [splitBlank_eq_nil_iff.mpr hall] at h
      cases h
    · rw [splitBlank_append_blanks hfront, splitBlank_token hne hsolid hrest, List.mem_cons] at h
      have hlength := List.length_pos_iff.mpr hne
      rcases h with rfl | h
      · exact ⟨hne, hsolid⟩
      · exact ih rest.length (by simp at hn; omega) h rfl

/-- Blanks behind a text make no token. -/
theorem splitBlank_trailing (text : List UInt8) {blanks : List UInt8}
    (h : ∀ c ∈ blanks, blank c = true) :
    splitBlank blank (text ++ blanks) = splitBlank blank text := by
  induction hn : text.length using Nat.strong_induction_on generalizing text with
  | h n ih =>
    rcases exists_token blank text with hall | ⟨front, token, rest, rfl, hfront, hne, htoken, hrest⟩
    · rw [splitBlank_eq_nil_iff.mpr hall, splitBlank_eq_nil_iff]
      intro c hc
      exact (List.mem_append.mp hc).elim (hall c) (h c)
    · have hrest' : ∀ c ∈ (rest ++ blanks).head?, blank c = true := by
        cases rest with
        | nil => exact fun c hc => h c (List.mem_of_mem_head? hc)
        | cons d rest => exact hrest
      have hlength := List.length_pos_iff.mpr hne
      rw [List.append_assoc, List.append_assoc, splitBlank_append_blanks hfront,
        splitBlank_append_blanks hfront, splitBlank_token hne htoken hrest',
        splitBlank_token hne htoken hrest, ih rest.length (by simp at hn; omega) rest rfl]

/-- Trimming a text does not change its tokens. -/
theorem splitBlank_trim (text : List UInt8) :
    splitBlank blank ((text.dropWhile blank).rdropWhile blank) = splitBlank blank text := by
  obtain ⟨front, back, htext, hfront, hback⟩ := exists_trim blank text
  conv_rhs => rw [htext]
  rw [splitBlank_trailing _ hback, splitBlank_append_blanks hfront]

/-- More blanks make the same first tokens, if none of these has one of them inside. -/
theorem splitBlank_take {wide : UInt8 → Bool} (hwide : ∀ c, blank c = true → wide c = true)
    (k : ℕ) (text : List UInt8)
    (h : ∀ token ∈ (splitBlank blank text).take k, ∀ c ∈ token, wide c = false) :
    (splitBlank wide text).take k = (splitBlank blank text).take k := by
  induction k generalizing text with
  | zero => simp
  | succ k ih =>
    rcases exists_token blank text with hall | ⟨front, token, rest, rfl, hfront, hne, htoken, hrest⟩
    · rw [splitBlank_eq_nil_iff.mpr hall,
        splitBlank_eq_nil_iff.mpr fun c hc => hwide c (hall c hc)]
    · rw [splitBlank_append_blanks hfront, splitBlank_token hne htoken hrest] at h ⊢
      rw [List.take_succ_cons, List.forall_mem_cons] at h
      rw [splitBlank_append_blanks fun c hc => hwide c (hfront c hc),
        splitBlank_token hne h.1 fun c hc => hwide c (hrest c hc), List.take_succ_cons,
        List.take_succ_cons, ih rest h.2]

/-- The next token, behind blanks, and what follows it. -/
def takeToken (blank : UInt8 → Bool) (text : List UInt8) : Option (List UInt8 × List UInt8) :=
  let text := text.dropWhile blank
  if text = [] then none
  else some (text.takeWhile fun c => !blank c, text.dropWhile fun c => !blank c)

/-- So many tokens, and what follows the last of them. -/
def takeTokens (blank : UInt8 → Bool) : ℕ → List UInt8 → Option (List (List UInt8) × List UInt8)
  | 0, text => some ([], text)
  | k + 1, text => do
    let (token, text) ← takeToken blank text
    let (tokens, text) ← takeTokens blank k text
    some (token :: tokens, text)

theorem takeToken_append {blanks token rest : List UInt8} (hblanks : ∀ c ∈ blanks, blank c = true)
    (hne : token ≠ []) (htoken : ∀ c ∈ token, blank c = false)
    (hrest : ∀ c ∈ rest.head?, blank c = true) :
    takeToken blank (blanks ++ (token ++ rest)) = some (token, rest) := by
  have hstop : rest.takeWhile (fun c => !blank c) = [] ∧
      rest.dropWhile (fun c => !blank c) = rest := by
    cases rest with
    | nil => simp
    | cons c rest => simp [hrest c rfl]
  have hall : ∀ c ∈ token, (!blank c) = true := by
    intro c hc
    simp [htoken c hc]
  have hdrop : (token ++ rest).dropWhile blank = token ++ rest := by
    obtain ⟨c, token, rfl⟩ := List.exists_cons_of_ne_nil hne
    simp [htoken c (by simp)]
  unfold takeToken
  rw [List.dropWhile_append_of_pos hblanks, hdrop]
  dsimp only
  rw [if_neg (by simp [hne]), List.takeWhile_append_of_pos hall, List.dropWhile_append_of_pos hall,
    hstop.1, hstop.2, List.append_nil]

/-- Tokens in columns are taken from the front of a text. -/
theorem takeTokens_columns {columns : List (List UInt8 × List UInt8)} {rest : List UInt8}
    (hblanks : ∀ p ∈ columns, p.1 ≠ [] ∧ ∀ c ∈ p.1, blank c = true)
    (htokens : ∀ p ∈ columns, p.2 ≠ [] ∧ ∀ c ∈ p.2, blank c = false)
    (hrest : ∀ c ∈ rest.head?, blank c = true) :
    takeTokens blank columns.length (columns.flatMap (fun p => p.1 ++ p.2) ++ rest) =
      some (columns.map Prod.snd, rest) := by
  induction columns with
  | nil => rfl
  | cons p columns ih =>
    have hnext := blank_head?_columns (fun q hq => hblanks q (List.mem_cons_of_mem p hq)) hrest
    rw [List.flatMap_cons, List.append_assoc, List.append_assoc, List.length_cons, takeTokens,
      takeToken_append (hblanks p (by simp)).2 (htokens p (by simp)).1 (htokens p (by simp)).2
        hnext]
    simp only [Option.bind_eq_bind, Option.bind_some]
    rw [ih (fun q hq => hblanks q (by simp [hq])) fun q hq => htokens q (by simp [hq])]
    rfl

/-- What follows the tokens is the end of the text. -/
theorem takeTokens_suffix {k : ℕ} {text rest : List UInt8} {tokens : List (List UInt8)}
    (h : takeTokens blank k text = some (tokens, rest)) : rest <:+ text := by
  induction k generalizing text tokens with
  | zero =>
    cases h
    exact List.suffix_refl _
  | succ k ih =>
    simp only [takeTokens, takeToken, Option.bind_eq_bind, Option.bind_eq_some_iff] at h
    obtain ⟨⟨token, more⟩, htoken, ⟨tokens', rest'⟩, hrest, hsome⟩ := h
    split_ifs at htoken
    cases htoken
    cases hsome
    exact (ih hrest).trans ((List.dropWhile_suffix _).trans (List.dropWhile_suffix _))

end Split

end Text
