import Syscape.Numbers
import Syscape.Utf8Text
import Syscape.Lib.Lines
import Syscape.Lib.Paths
import Syscape.Lib.Text

/-!
# Sound cards

ALSA lists its cards in `/proc/asound/cards`, two lines each: index, identifier, driver and
short name, and then the long name, indented. The reader takes a line for the first of the
two when it begins with a digit.
-/
namespace Syscape.Audio
open Checked Text Lines Paths Digits FromChars Numerals Numbers Utf8

section Source

/-- `alsa_card_info`. -/
structure AlsaCardInfo where
  index : ℕ := 0
  id : List UInt8 := []
  driver : List UInt8 := []
  shortName : List UInt8 := []
  longName : List UInt8 := []
  deriving DecidableEq, Repr

/-- The bytes that `trim_whitespace` removes. -/
def isBlank (c : UInt8) : Bool := c ≤ 0x20

/-- `trim_whitespace`. -/
def trimWhitespace (text : List UInt8) : List UInt8 := (text.dropWhile isBlank).rdropWhile isBlank

/-- `parse_u32`. -/
def parseU32 (input : List UInt8) : Result ℕ := wholeUnsigned uint32Max (trimWhitespace input)

/-- `std::isdigit` of the first byte. -/
def startsWithDigit (text : List UInt8) : Bool :=
  text.head?.any fun c => 0x30 ≤ c && c ≤ 0x39

/-- The checks of the texts of a record, which end at the first that fails. -/
def requireUtf8 : List (List UInt8) → Result Unit
  | [] => .ok ()
  | text :: texts => do
    let valid ← isValidUtf8 text
    if ¬ valid then fail .invalidEncoding else requireUtf8 texts

/-- The driver and the short name, from what is behind the colon. -/
def splitNames (afterColon : List UInt8) : List UInt8 × List UInt8 :=
  match findText (ascii " - ") afterColon with
  | some dash =>
    (trimWhitespace (afterColon.take dash), trimWhitespace (afterColon.drop (dash + 3)))
  | none => ([], afterColon)

/-- The first line of a card, in `parse_proc_asound_cards`. -/
def parseHeader (trimmed : List UInt8) : Result AlsaCardInfo :=
  match trimmed.idxOf? 0x5B, trimmed.idxOf? 0x5D with
  | some bracketOpen, some bracketClose =>
    if bracketClose ≤ bracketOpen then fail .malformedData
    else do
      let index ← parseU32 (trimWhitespace (trimmed.take bracketOpen))
      let id := trimWhitespace
        ((trimmed.drop (bracketOpen + 1)).take (bracketClose - bracketOpen - 1))
      let names :=
        match (trimmed.drop bracketClose).idxOf? 0x3A with
        | some colon => splitNames (trimWhitespace (trimmed.drop (bracketClose + colon + 1)))
        | none => ([], [])
      requireUtf8 [id, names.1, names.2]
      .ok { index := index, id := id, driver := names.1, shortName := names.2 }
  | _, _ => fail .malformedData

/-- One round of the loop of `parse_proc_asound_cards`, with the cards before. -/
def cardLine (cards : List AlsaCardInfo) (line : List UInt8) : Result (List AlsaCardInfo) :=
  let trimmed := trimWhitespace line
  if trimmed = [] ∨ ascii "---" <+: trimmed then .ok cards
  else if startsWithDigit trimmed then do
    let card ← parseHeader trimmed
    .ok (cards ++ [card])
  else
    match cards.getLast? with
    | none => .ok cards
    | some card =>
      if card.longName = [] then do
        requireUtf8 [trimmed]
        .ok (cards.dropLast ++ [{ card with longName := trimmed }])
      else .ok cards

/-- `parse_proc_asound_cards`. -/
def parseProcAsoundCards (content : List UInt8) : Result (List AlsaCardInfo) :=
  (lines 0x0A content).foldlM cardLine []

end Source

section Kernel

/-- A text of a sound card: one line of valid UTF-8, without blanks at its ends. -/
structure CardText where
  text : List UInt8
  line : 0x0A ∉ text
  utf8 : ValidUtf8 text
  head : ∀ c ∈ text.head?, isBlank c = false
  last : ∀ c ∈ text.getLast?, isBlank c = false

structure AlsaCard where
  index : UInt32
  identifier : CardText
  driver : CardText
  shortName : CardText
  longName : CardText
  driver_dash : ¬ ascii " - " <:+: driver.text
  longName_ne_nil : longName.text ≠ []

namespace AlsaCard

def headerLine (card : AlsaCard) : List UInt8 :=
  paddedDecimal 2 card.index.toNat ++ ascii " [" ++ card.identifier.text.rightpad 15 0x20 ++
    ascii "]: " ++ card.driver.text ++ ascii " - " ++ card.shortName.text

def longLine (card : AlsaCard) : List UInt8 := List.replicate 22 0x20 ++ card.longName.text

/-- What should be read of a card. -/
def info (card : AlsaCard) : AlsaCardInfo where
  index := card.index.toNat
  id := card.identifier.text
  driver := card.driver.text
  shortName := card.shortName.text
  longName := card.longName.text

/-- What the first line says clearly. -/
structure PlainHeader (card : AlsaCard) : Prop where
  identifier_bracket : 0x5D ∉ card.identifier.text
  driver_ne_nil : card.driver.text ≠ []
  driver_dash : ¬ ascii " -" <:+ card.driver.text
  shortName_ne_nil : card.shortName.text ≠ []

/-- A long name that the reader does not take for something else. -/
structure PlainLongName (card : AlsaCard) : Prop where
  digit : startsWithDigit card.longName.text = false
  dashes : ¬ ascii "---" <+: card.longName.text

end AlsaCard

/-- `/proc/asound/cards`. -/
def procCards (cards : List AlsaCard) : List UInt8 :=
  if cards = [] then ascii "--- no soundcards ---\n"
  else cards.flatMap fun card => card.headerLine ++ [0x0A] ++ card.longLine ++ [0x0A]

end Kernel

section Texts

theorem CardText.trim_eq (t : CardText) (front back : List UInt8)
    (hfront : ∀ c ∈ front, isBlank c = true) (hback : ∀ c ∈ back, isBlank c = true) :
    trimWhitespace (front ++ t.text ++ back) = t.text :=
  trim_blanks hfront hback t.head t.last

theorem CardText.trim_self (t : CardText) : trimWhitespace t.text = t.text := by
  have h := t.trim_eq [] [] (by simp) (by simp)
  rwa [List.nil_append, List.append_nil] at h

theorem requireUtf8_eq (texts : List (List UInt8)) :
    requireUtf8 texts =
      if ∀ text ∈ texts, ValidUtf8 text then .ok () else fail .invalidEncoding := by
  induction texts with
  | nil => simp [requireUtf8]
  | cons text texts ih =>
    rw [requireUtf8, isValidUtf8_eq, ok_bind, ih]
    by_cases hvalid : ValidUtf8 text <;> simp [hvalid]

/-- A part of a text of blanks and other bytes that is trimmed to nothing is blank. -/
theorem trimWhitespace_ne_nil {text : List UInt8} (h : ∃ c ∈ text, isBlank c = false) :
    trimWhitespace text ≠ [] :=
  trim_ne_nil h

theorem length_trimWhitespace_le (text : List UInt8) :
    (trimWhitespace text).length ≤ text.length := by
  obtain ⟨front, back, htext, _, _⟩ := exists_trim isBlank text
  have hlength := congrArg List.length htext
  rw [List.length_append, List.length_append] at hlength
  rw [trimWhitespace]
  omega

end Texts

section Names
variable {driver shortName : CardText}

/-- Between driver and short name stands the first dash with blanks around it, unless the
driver itself ends in one. -/
theorem findText_names (hinner : ¬ ascii " - " <:+: driver.text)
    (hlast : ¬ ascii " -" <:+ driver.text) :
    findText (ascii " - ") (driver.text ++ ascii " - " ++ shortName.text) =
      some driver.text.length := by
  rw [findText_eq_some_iff]
  constructor
  · rw [List.append_assoc, List.drop_left]
    exact List.prefix_append _ _
  · intro j hj hstart
    have hdash : ascii " - " = [0x20, 0x2D, 0x20] := rfl
    rw [List.append_assoc, List.drop_append_of_le_length hj.le] at hstart
    have hsuffix := List.drop_suffix j driver.text
    have hlength := List.length_drop (i := j) (l := driver.text)
    -- What is left of the driver is a beginning of the dash, or has it inside.
    match hrest : driver.text.drop j with
    | [] =>
      rw [hrest, List.length_nil] at hlength
      omega
    | [a] =>
      rw [hrest, hdash] at hstart
      rw [hrest] at hsuffix
      obtain ⟨rfl, _⟩ := List.cons_prefix_cons.mp hstart
      have hblank := driver.last 0x20 (by
        obtain ⟨front, hfront⟩ := hsuffix
        rw [← hfront, List.getLast?_concat]
        rfl)
      cases hblank
    | [a, b] =>
      rw [hrest, hdash, List.cons_append, List.cons_prefix_cons, List.cons_append,
        List.cons_prefix_cons] at hstart
      rw [hrest] at hsuffix
      obtain ⟨rfl, rfl, _⟩ := hstart
      exact hlast hsuffix
    | a :: b :: c :: more =>
      rw [hrest, hdash, List.cons_append, List.cons_prefix_cons, List.cons_append,
        List.cons_prefix_cons, List.cons_append, List.cons_prefix_cons] at hstart
      rw [hrest] at hsuffix
      obtain ⟨rfl, rfl, rfl, _⟩ := hstart
      exact hinner ((List.prefix_append _ more).isInfix.trans hsuffix.isInfix)

/-- The two names as they stand between the colon and the end of the line. -/
def namesText (driver shortName : CardText) : List UInt8 :=
  trimWhitespace (driver.text ++ ascii " - " ++ shortName.text)

theorem namesText_eq (hdriver : driver.text ≠ []) (hshort : shortName.text ≠ []) :
    namesText driver shortName = driver.text ++ ascii " - " ++ shortName.text := by
  have htrim := @trim_blanks isBlank [] (driver.text ++ ascii " - " ++ shortName.text) []
    (by simp) (by simp) ?_ ?_
  · rwa [List.nil_append, List.append_nil] at htrim
  · rw [List.append_assoc, List.head?_append_of_ne_nil _ hdriver]
    exact driver.head
  · rw [List.getLast?_append_of_ne_nil _ hshort]
    exact shortName.last

/-- Without a driver, what stands there is never the short name alone. -/
theorem namesText_ne_shortName (hdriver : driver.text = []) :
    namesText driver shortName ≠ shortName.text := by
  intro hshort
  have hdash : ascii " - " = [0x20, 0x2D, 0x20] := rfl
  by_cases hnil : shortName.text = []
  · rw [hnil] at hshort
    exact absurd hshort (trimWhitespace_ne_nil ⟨0x2D, by simp [hdash], rfl⟩)
  · have hnames : namesText driver shortName = 0x2D :: 0x20 :: shortName.text := by
      have htrim := @trim_blanks isBlank [0x20] (0x2D :: 0x20 :: shortName.text) []
        (by simp [isBlank]) (by simp) (by simp [isBlank]) ?_
      · rw [List.append_nil] at htrim
        rw [namesText, hdriver, hdash]
        exact htrim
      · show ∀ c ∈ ([0x2D, 0x20] ++ shortName.text).getLast?, isBlank c = false
        rw [List.getLast?_append_of_ne_nil _ hnil]
        exact shortName.last
    have hlength := congrArg List.length (hnames.symm.trans hshort)
    rw [List.length_cons, List.length_cons] at hlength
    omega

/-- Something is left on either side of a dash in what stands there. -/
theorem trimWhitespace_sides {front back : List UInt8}
    (h : namesText driver shortName = front ++ (ascii " - " ++ back)) :
    trimWhitespace front ≠ [] ∧ trimWhitespace back ≠ [] := by
  have hdash : ascii " - " = [0x20, 0x2D, 0x20] := rfl
  have hhead : ∀ c ∈ (namesText driver shortName).head?, isBlank c = false := head?_trim _
  have hend : ∀ c ∈ (namesText driver shortName).getLast?, isBlank c = false := getLast?_trim _
  constructor
  · apply trimWhitespace_ne_nil
    rw [h] at hhead
    cases front with
    | nil => cases hhead 0x20 rfl
    | cons c front => exact ⟨c, by simp, hhead c rfl⟩
  · apply trimWhitespace_ne_nil
    rw [h, ← List.append_assoc] at hend
    by_cases hnil : back = []
    · rw [hnil, List.append_nil, hdash] at hend
      cases hend 0x20 (by simp)
    · rw [List.getLast?_append_of_ne_nil _ hnil] at hend
      exact ⟨back.getLast hnil, List.getLast_mem hnil,
        hend _ (List.getLast?_eq_some_getLast hnil)⟩

/-- Both names are found exactly when neither is empty and the first dash is the right one. -/
theorem splitNames_namesText (hinner : ¬ ascii " - " <:+: driver.text) :
    splitNames (namesText driver shortName) = (driver.text, shortName.text) ↔
      driver.text ≠ [] ∧ shortName.text ≠ [] ∧ ¬ ascii " -" <:+ driver.text := by
  constructor
  · intro h
    unfold splitNames at h
    cases hfind : findText (ascii " - ") (namesText driver shortName) with
    | none =>
      rw [hfind, Prod.mk.injEq] at h
      exact absurd h.2 (namesText_ne_shortName h.1.symm)
    | some dash =>
      rw [hfind, Prod.mk.injEq] at h
      obtain ⟨hdriver, hshort⟩ := h
      obtain ⟨⟨back, hback⟩, hfirst⟩ := findText_eq_some_iff.mp hfind
      have hnames : namesText driver shortName =
          (namesText driver shortName).take dash ++ (ascii " - " ++ back) := by
        rw [hback, List.take_append_drop]
      have hdrop : (namesText driver shortName).drop (dash + 3) = back := by
        rw [← List.drop_drop, ← hback]
        rfl
      rw [hdrop] at hshort
      obtain ⟨hdriver_ne, hshort_ne⟩ := trimWhitespace_sides hnames
      rw [hdriver] at hdriver_ne
      rw [hshort] at hshort_ne
      refine ⟨hdriver_ne, hshort_ne, ?_⟩
      intro ⟨front, hfront⟩
      -- an earlier dash begins where the driver ends in one
      have hle := length_trimWhitespace_le ((namesText driver shortName).take dash)
      rw [hdriver, List.length_take, ← hfront, List.length_append] at hle
      have hlt : front.length < dash := by
        have htwo : (ascii " -").length = 2 := rfl
        omega
      apply hfirst front.length hlt
      rw [namesText_eq hdriver_ne hshort_ne, ← hfront, List.append_assoc, List.append_assoc,
        List.drop_left]
      exact ⟨ascii "- " ++ shortName.text, rfl⟩
  · intro ⟨hdriver, hshort, hlast⟩
    rw [splitNames, namesText_eq hdriver hshort, findText_names hinner hlast]
    have hlength : driver.text.length + 3 = (driver.text ++ ascii " - ").length := by
      rw [List.length_append]
      rfl
    dsimp only
    rw [hlength, List.drop_left, List.append_assoc, List.take_left, driver.trim_self,
      shortName.trim_self]

end Names

section Headers

/-- The names behind a closing bracket. -/
def namesBehind (more : List UInt8) : List UInt8 × List UInt8 :=
  match more.idxOf? 0x3A with
  | some colon => splitNames (trimWhitespace (more.drop (colon + 1)))
  | none => ([], [])

theorem isBlank_eq_false {c : UInt8} (h : 0x30 ≤ c.toNat) : isBlank c = false := by
  rw [isBlank, decide_eq_false_iff_not]
  intro hle
  have : c.toNat ≤ 0x20 := hle
  omega

theorem not_mem_decimal {c : UInt8} (h : c.toNat < 0x30 ∨ 0x39 < c.toNat) (n : ℕ) :
    c ∉ decimal n := by
  intro hmem
  have hrange := mem_decimal hmem
  omega

theorem isBlank_of_mem_decimal {n : ℕ} : ∀ c ∈ decimal n, isBlank c = false :=
  fun _ hc => isBlank_eq_false (mem_decimal hc).1

theorem parseU32_decimal {n : ℕ} (h : n ≤ uint32Max) : parseU32 (decimal n) = .ok n := by
  rw [parseU32, trimWhitespace, dropWhile_eq_self isBlank_of_mem_decimal,
    rdropWhile_eq_self isBlank_of_mem_decimal, wholeUnsigned_decimal h]

theorem trimWhitespace_decimal (n : ℕ) : trimWhitespace (decimal n ++ [0x20]) = decimal n := by
  rw [trimWhitespace, trim_append_blanks (by simp [isBlank]),
    dropWhile_eq_self isBlank_of_mem_decimal, rdropWhile_eq_self isBlank_of_mem_decimal]

/-- A first line with its index, the text between the first brackets, and what is behind. -/
theorem parseHeader_brackets {n : ℕ} (hn : n ≤ uint32Max) {name : List UInt8}
    (hname : 0x5D ∉ name) (more : List UInt8) :
    parseHeader (decimal n ++ 0x20 :: 0x5B :: (name ++ 0x5D :: more)) =
      (do
        requireUtf8 [trimWhitespace name, (namesBehind more).1, (namesBehind more).2]
        .ok { index := n, id := trimWhitespace name, driver := (namesBehind more).1,
              shortName := (namesBehind more).2 }) := by
  obtain ⟨front, hfront⟩ : ∃ front, front = decimal n ++ [0x20] := ⟨_, rfl⟩
  have hindex : trimWhitespace front = decimal n := by rw [hfront, trimWhitespace_decimal]
  have hfront_open : 0x5B ∉ front := by
    rw [hfront, List.mem_append, not_or]
    exact ⟨not_mem_decimal (by decide) n, by decide⟩
  have hfront_close : 0x5D ∉ front ++ 0x5B :: name := by
    rw [hfront, List.mem_append, List.mem_append, not_or, not_or]
    exact ⟨⟨not_mem_decimal (by decide) n, by decide⟩,
      List.not_mem_cons_of_ne_of_not_mem (by decide) hname⟩
  have hline : decimal n ++ 0x20 :: 0x5B :: (name ++ 0x5D :: more) =
      front ++ 0x5B :: (name ++ 0x5D :: more) := by simp [hfront]
  have hline' : front ++ 0x5B :: (name ++ 0x5D :: more) =
      (front ++ 0x5B :: name) ++ 0x5D :: more := by simp
  rw [hline]
  have hopen := idxOf?_append_cons hfront_open (name ++ 0x5D :: more)
  have hclose := idxOf?_append_cons hfront_close more
  rw [← hline'] at hclose
  have hid : ((front ++ 0x5B :: (name ++ 0x5D :: more)).drop (front.length + 1)).take
      ((front ++ 0x5B :: name).length - front.length - 1) = name := by
    rw [← List.drop_drop, List.drop_left, List.drop_one, List.tail_cons, List.length_append,
      List.length_cons, Nat.add_sub_cancel_left, Nat.add_sub_cancel, List.take_left]
  have hbehind : (front ++ 0x5B :: (name ++ 0x5D :: more)).drop (front ++ 0x5B :: name).length =
      0x5D :: more := by rw [hline', List.drop_left]
  have hlt : ¬ (front ++ 0x5B :: name).length ≤ front.length := by
    rw [List.length_append, List.length_cons]
    omega
  have hcolon : (match (0x5D :: more).idxOf? 0x3A with
      | some colon => splitNames (trimWhitespace
          ((front ++ 0x5B :: (name ++ 0x5D :: more)).drop ((front ++ 0x5B :: name).length + colon + 1)))
      | none => ([], [])) = namesBehind more := by
    rw [List.idxOf?_cons, if_neg (by decide), namesBehind]
    cases more.idxOf? 0x3A with
    | none => rfl
    | some colon =>
      rw [Option.map_some]
      dsimp only
      rw [Nat.add_assoc, ← List.drop_drop, hbehind]
      rfl
  unfold parseHeader
  rw [hopen, hclose]
  dsimp only
  rw [if_neg hlt, List.take_left, hindex, parseU32_decimal hn, ok_bind, hid, hbehind, hcolon]

variable (card : AlsaCard)

theorem index_le : card.index.toNat ≤ uint32Max := le_uint32Max card.index.toNat_lt

/-- The first line loses the blanks in front of the index, and those at its end. -/
theorem trimWhitespace_headerLine : ∃ rest,
    trimWhitespace card.headerLine = decimal card.index.toNat ++
      0x20 :: 0x5B :: (card.identifier.text.rightpad 15 0x20 ++ 0x5D :: 0x3A :: rest) ∧
    trimWhitespace rest = namesText card.driver card.shortName := by
  obtain ⟨rest, back, htext, hback, hrest⟩ := exists_trimmed isBlank
    (0x20 :: (card.driver.text ++ ascii " - " ++ card.shortName.text))
  refine ⟨rest, ?_, ?_⟩
  · have hline : card.headerLine =
        List.replicate (2 - (decimal card.index.toNat).length) 0x20 ++
          (decimal card.index.toNat ++ 0x20 :: 0x5B ::
            (card.identifier.text.rightpad 15 0x20 ++ 0x5D :: 0x3A :: rest)) ++ back := by
      have hbracket : ascii " [" = [0x20, 0x5B] := rfl
      have hcolon : ascii "]: " = [0x5D, 0x3A, 0x20] := rfl
      simp only [AlsaCard.headerLine, paddedDecimal, List.leftpad, hbracket, hcolon,
        List.append_assoc, List.cons_append, List.nil_append] at htext ⊢
      rw [htext]
    rw [hline]
    refine trim_blanks ?_ hback ?_ ?_
    · intro c hc
      rw [List.eq_of_mem_replicate hc]
      rfl
    · rw [List.head?_append_of_ne_nil _ (decimal_ne_nil _)]
      exact fun c hc => isBlank_of_mem_decimal c (List.mem_of_mem_head? hc)
    · rw [List.append_cons, List.append_cons, ← List.append_assoc, List.append_cons,
        List.append_cons _ 0x3A]
      by_cases hnil : rest = []
      · rw [hnil, List.append_nil, List.getLast?_concat]
        exact fun c hc => Option.mem_some.mp hc ▸ rfl
      · rwa [List.getLast?_append_of_ne_nil _ hnil]
  · rw [namesText, trimWhitespace, trimWhitespace, ← trim_append_blanks hback, ← htext,
      List.dropWhile_cons_of_pos rfl]

/-- The first line gives the card without its long name exactly when it is plain. -/
theorem parseHeader_eq_iff :
    parseHeader (trimWhitespace card.headerLine) = .ok { card.info with longName := [] } ↔
      card.PlainHeader := by
  obtain ⟨rest, htrim, hnames⟩ := trimWhitespace_headerLine card
  have hpad : trimWhitespace (card.identifier.text.rightpad 15 0x20) = card.identifier.text := by
    rw [List.rightpad, trimWhitespace, trim_append_blanks]
    · exact card.identifier.trim_self
    · intro c hc
      rw [List.eq_of_mem_replicate hc]
      rfl
  by_cases hbracket : 0x5D ∈ card.identifier.text
  · -- The text between the brackets is shorter than the identifier.
    refine iff_of_false ?_ fun h => h.identifier_bracket hbracket
    intro h
    obtain ⟨name, more, hid, hname⟩ := List.eq_append_cons_of_mem hbracket
    rw [htrim, hid, List.rightpad, List.append_assoc, List.append_assoc, List.cons_append,
      parseHeader_brackets (index_le card) hname] at h
    obtain ⟨_, _, h⟩ := bind_eq_ok.mp h
    have heq := congrArg AlsaCardInfo.id (Except.ok.inj h)
    have hle := length_trimWhitespace_le name
    rw [show trimWhitespace name = card.identifier.text from heq, hid] at hle
    simp at hle
  · have hmem : 0x5D ∉ card.identifier.text.rightpad 15 0x20 := by
      rw [List.rightpad, List.mem_append, not_or]
      exact ⟨hbracket, fun h => absurd (List.eq_of_mem_replicate h) (by decide)⟩
    have hbehind : namesBehind (0x3A :: rest) = splitNames (namesText card.driver card.shortName) := by
      rw [namesBehind, List.idxOf?_cons, if_pos (by decide)]
      dsimp only
      rw [List.drop_one, List.tail_cons, hnames]
    rw [htrim, parseHeader_brackets (index_le card) hmem, hpad, hbehind, requireUtf8_eq]
    have hnames_iff := @splitNames_namesText card.driver card.shortName card.driver_dash
    constructor
    · intro h
      obtain ⟨_, _, h⟩ := bind_eq_ok.mp h
      have hcard := Except.ok.inj h
      have hsplit := hnames_iff.mp
        (Prod.ext (congrArg AlsaCardInfo.driver hcard) (congrArg AlsaCardInfo.shortName hcard))
      exact ⟨hbracket, hsplit.1, hsplit.2.2, hsplit.2.1⟩
    · intro h
      have hsplit := hnames_iff.mpr ⟨h.driver_ne_nil, h.shortName_ne_nil, h.driver_dash⟩
      have hutf8 : ∀ text ∈ [card.identifier.text, card.driver.text, card.shortName.text],
          ValidUtf8 text := by
        simp [card.identifier.utf8, card.driver.utf8, card.shortName.utf8]
      rw [hsplit, if_pos hutf8]
      rfl

end Headers

section Runs

/-- A round can change the last card and add one behind it, and nothing else. -/
theorem dropLast_prefix_of_cardLine {cards cards' : List AlsaCardInfo} {line : List UInt8}
    (h : cardLine cards line = .ok cards') : cards.dropLast <+: cards'.dropLast := by
  unfold cardLine at h
  dsimp only at h
  split_ifs at h with hskip hdigit
  · cases h
    exact List.prefix_rfl
  · obtain ⟨card, _, h⟩ := bind_eq_ok.mp h
    cases h
    rw [List.dropLast_concat]
    exact List.dropLast_prefix cards
  · split at h
    · cases h
      exact List.prefix_rfl
    · split_ifs at h
      · obtain ⟨_, _, h⟩ := bind_eq_ok.mp h
        cases h
        rw [List.dropLast_concat]
      · cases h
        exact List.prefix_rfl

/-- No card is lost, and no card but the last one is changed. -/
theorem dropLast_prefix_of_run {rows : List (List UInt8)} {cards cards' : List AlsaCardInfo}
    (h : rows.foldlM cardLine cards = .ok cards') : cards.dropLast <+: cards' := by
  induction rows generalizing cards with
  | nil =>
    cases h
    exact List.dropLast_prefix _
  | cons line rows ih =>
    rw [List.foldlM_cons] at h
    obtain ⟨next, hnext, h⟩ := bind_eq_ok.mp h
    exact (dropLast_prefix_of_cardLine hnext).trans (ih h)

/-- The lines of a card. -/
def AlsaCard.rows (card : AlsaCard) : List (List UInt8) := [card.headerLine, card.longLine]

theorem cardLine_headerLine (cards : List AlsaCardInfo) (card : AlsaCard) :
    cardLine cards card.headerLine = (do
      let info ← parseHeader (trimWhitespace card.headerLine)
      .ok (cards ++ [info])) := by
  obtain ⟨rest, htrim, _⟩ := trimWhitespace_headerLine card
  obtain ⟨c, digits, hdigits⟩ := List.exists_cons_of_ne_nil (decimal_ne_nil card.index.toNat)
  have hc := mem_decimal (c := c) (n := card.index.toNat) (by simp [hdigits])
  rw [hdigits, List.cons_append] at htrim
  unfold cardLine
  dsimp only
  rw [htrim, if_neg, if_pos]
  · rw [startsWithDigit, List.head?_cons, Option.any_some, Bool.and_eq_true, decide_eq_true_iff,
      decide_eq_true_iff]
    exact hc
  · rw [not_or]
    refine ⟨by simp, ?_⟩
    intro hstart
    obtain ⟨rfl, _⟩ := List.cons_prefix_cons.mp hstart
    exact absurd hc.1 (by decide)

/-- The lines of more cards leave all cards before as they are. -/
theorem prefix_of_rows {more : List AlsaCard} {cards cards' : List AlsaCardInfo}
    (h : (more.flatMap AlsaCard.rows).foldlM cardLine cards = .ok cards') : cards <+: cards' := by
  cases more with
  | nil =>
    cases h
    exact List.prefix_rfl
  | cons card more =>
    rw [List.flatMap_cons, AlsaCard.rows, List.cons_append, List.foldlM_cons,
      cardLine_headerLine] at h
    obtain ⟨next, hnext, h⟩ := bind_eq_ok.mp h
    obtain ⟨info, _, hinfo⟩ := bind_eq_ok.mp hnext
    cases hinfo
    have hstart := dropLast_prefix_of_run h
    rwa [List.dropLast_concat] at hstart

theorem trimWhitespace_longLine (card : AlsaCard) :
    trimWhitespace card.longLine = card.longName.text := by
  have htrim := card.longName.trim_eq (List.replicate 22 0x20) []
    (by simp [isBlank]) (by simp)
  rwa [List.append_nil] at htrim

/-- The second line of a card, behind the first. -/
theorem cardLine_longLine (cards : List AlsaCardInfo) {info : AlsaCardInfo}
    (hinfo : info.longName = []) (card : AlsaCard) :
    cardLine (cards ++ [info]) card.longLine =
      if ascii "---" <+: card.longName.text then .ok (cards ++ [info])
      else if startsWithDigit card.longName.text then do
        let next ← parseHeader card.longName.text
        .ok (cards ++ [info] ++ [next])
      else .ok (cards ++ [{ info with longName := card.longName.text }]) := by
  have hutf8 : ∀ text ∈ [card.longName.text], ValidUtf8 text := by
    simpa using card.longName.utf8
  unfold cardLine
  dsimp only
  simp only [trimWhitespace_longLine, card.longName_ne_nil, false_or, List.getLast?_concat, hinfo,
    if_true, List.dropLast_concat, requireUtf8_eq, if_pos hutf8, ok_bind]

theorem longName_of_parseHeader {trimmed : List UInt8} {info : AlsaCardInfo}
    (h : parseHeader trimmed = .ok info) : info.longName = [] := by
  unfold parseHeader at h
  split at h
  · split_ifs at h
    · cases h
    · obtain ⟨_, _, h⟩ := bind_eq_ok.mp h
      obtain ⟨_, _, h⟩ := bind_eq_ok.mp h
      cases h
      rfl
  · cases h

/-- The cards of the kernel are read exactly when all of them are plain. -/
theorem run_eq_iff (before : List AlsaCardInfo) (cards : List AlsaCard) :
    (cards.flatMap AlsaCard.rows).foldlM cardLine before =
        .ok (before ++ cards.map AlsaCard.info) ↔
      ∀ card ∈ cards, card.PlainHeader ∧ card.PlainLongName := by
  induction cards generalizing before with
  | nil => simp
  | cons card cards ih =>
    rw [List.flatMap_cons, AlsaCard.rows, List.cons_append, List.foldlM_cons, cardLine_headerLine,
      List.forall_mem_cons]
    -- A card whose long name is still missing cannot be left behind.
    have hmissing {info : AlsaCardInfo} (hinfo : info.longName = [])
        (hstart : before ++ [info] <+: before ++ (card :: cards).map AlsaCard.info) : False := by
      rw [List.prefix_append_right_inj, List.map_cons, List.cons_prefix_cons] at hstart
      rw [hstart.1] at hinfo
      exact card.longName_ne_nil hinfo
    cases hparse : parseHeader (trimWhitespace card.headerLine) with
    | error e =>
      refine iff_of_false (fun h => by cases h) ?_
      intro ⟨⟨hplain, _⟩, _⟩
      rw [(parseHeader_eq_iff card).mpr hplain] at hparse
      cases hparse
    | ok info =>
      have hinfo := longName_of_parseHeader hparse
      rw [ok_bind, ok_bind, List.cons_append, List.nil_append, List.foldlM_cons,
        cardLine_longLine before hinfo]
      split_ifs with hdashes hdigit
      · refine iff_of_false ?_ fun h => h.1.2.dashes hdashes
        intro h
        exact hmissing hinfo (prefix_of_rows h)
      · refine iff_of_false ?_ fun h => by
          rw [h.1.2.digit] at hdigit
          cases hdigit
        intro h
        obtain ⟨next, hnext, h⟩ := bind_eq_ok.mp h
        obtain ⟨invented, _, hinvented⟩ := bind_eq_ok.mp hnext
        cases hinvented
        have hstart := dropLast_prefix_of_run h
        rw [List.dropLast_concat] at hstart
        exact hmissing hinfo hstart
      · have hplain : card.PlainLongName := ⟨Bool.eq_false_iff.mpr hdigit, hdashes⟩
        have hfilled : { info with longName := card.longName.text } = card.info ↔
            card.PlainHeader := by
          rw [← parseHeader_eq_iff, hparse, Except.ok.injEq]
          constructor
          · intro h
            rw [← h, ← hinfo]
          · intro h
            rw [h]
            rfl
        rw [ok_bind]
        by_cases hheader : card.PlainHeader
        · have hmore := ih (before ++ [card.info])
          rw [List.append_assoc, List.singleton_append] at hmore
          rw [hfilled.mpr hheader, List.map_cons, hmore]
          simp only [hheader, hplain, true_and]
        · refine iff_of_false ?_ fun h => hheader h.1.1
          intro h
          have hstart := prefix_of_rows h
          rw [List.prefix_append_right_inj, List.map_cons, List.cons_prefix_cons] at hstart
          exact hheader (hfilled.mp hstart.1)

/-- The lines of the kernel. -/
theorem lines_procCards {cards : List AlsaCard} (h : cards ≠ []) :
    lines 0x0A (procCards cards) = cards.flatMap AlsaCard.rows := by
  have hblanks (k : ℕ) : (0x0A : UInt8) ∉ List.replicate k 0x20 :=
    fun hmem => absurd (List.eq_of_mem_replicate hmem) (by decide)
  have hheader (card : AlsaCard) : 0x0A ∉ card.headerLine := by
    simp only [AlsaCard.headerLine, paddedDecimal, List.leftpad, List.rightpad, List.mem_append,
      not_or]
    exact ⟨⟨⟨⟨⟨⟨⟨hblanks _, not_mem_decimal (by decide) _⟩, by decide⟩, card.identifier.line,
      hblanks _⟩, by decide⟩, card.driver.line⟩, by decide⟩, card.shortName.line⟩
  have hlong (card : AlsaCard) : 0x0A ∉ card.longLine := by
    rw [AlsaCard.longLine, List.mem_append, not_or]
    exact ⟨hblanks _, card.longName.line⟩
  have hlines := @lines_flatMap_sep _ _ 0x0A (cards.flatMap AlsaCard.rows) ?_
  · rw [List.flatMap_assoc] at hlines
    have hrows (card : AlsaCard) : card.rows.flatMap (· ++ [0x0A]) =
        card.headerLine ++ [0x0A] ++ card.longLine ++ [0x0A] := by
      simp [AlsaCard.rows]
    simp only [hrows] at hlines
    rw [procCards, if_neg h, hlines]
  · intro line hline
    obtain ⟨card, _, hline⟩ := List.mem_flatMap.mp hline
    obtain rfl | rfl := List.mem_pair.mp hline
    · exact hheader card
    · exact hlong card

/-- Exactly the cards of the kernel are read when each driver and short name can be told
apart, and no long name looks like the first line of a card or like the notice that there
are none. -/
theorem cards_read_iff (cards : List AlsaCard) :
    parseProcAsoundCards (procCards cards) = .ok (cards.map AlsaCard.info) ↔
      ∀ card ∈ cards, card.PlainHeader ∧ card.PlainLongName := by
  by_cases hnil : cards = []
  · have hnotice : lines 0x0A (procCards []) = [ascii "--- no soundcards ---"] :=
      @lines_flatMap_sep _ _ 0x0A [ascii "--- no soundcards ---"] (by decide)
    rw [hnil, parseProcAsoundCards, hnotice]
    simp only [List.map_nil, List.not_mem_nil, false_implies, implies_true, iff_true]
    decide
  · have hrun := run_eq_iff [] cards
    rwa [List.nil_append, ← lines_procCards hnil] at hrun

/-- A text of visible ASCII bytes. -/
def asciiText (text : List UInt8) (h : ∀ c ∈ text, 0x20 < c ∧ c < 0x80) : CardText where
  text := text
  line := fun hmem => absurd (h _ hmem).1 (by decide)
  utf8 := validUtf8_ascii fun c hc => (h c hc).2
  head := fun c hc => by
    simpa [isBlank] using UInt8.not_le.mpr (h c (List.mem_of_mem_head? hc)).1
  last := fun c hc => by
    simpa [isBlank] using UInt8.not_le.mpr (h c (List.mem_of_mem_getLast? hc)).1

/-- A card whose long name begins with a digit. -/
def digitCard : AlsaCard where
  index := 0
  identifier := asciiText (ascii "Wave") (forall_of_all (by decide))
  driver := asciiText (ascii "USB-Audio") (forall_of_all (by decide))
  shortName := asciiText (ascii "Wave:3") (forall_of_all (by decide))
  longName := asciiText (ascii "3D-Wave") (forall_of_all (by decide))
  driver_dash := by decide
  longName_ne_nil := by decide

/-- The long name is taken for the first line of a card, and the query fails. -/
theorem digit_taken_for_header :
    procCards [digitCard] =
        ascii " 0 [Wave           ]: USB-Audio - Wave:3\n                      3D-Wave\n" ∧
      parseProcAsoundCards (procCards [digitCard]) = fail .malformedData := by
  constructor
  · decide +kernel
  · rw [parseProcAsoundCards, lines_procCards (by decide)]
    decide +kernel

end Runs

end Syscape.Audio
