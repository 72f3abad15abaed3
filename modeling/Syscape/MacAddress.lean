import Syscape.XmlText
import Syscape.Lib.Hex

/-!
# Addresses of wireless interfaces

Six bytes are written in pairs of hexadecimal digits, with colons, with hyphens, or with
nothing between the pairs. All of these are brought into one form, with colons and letters
in upper case.
-/
namespace Syscape.Wifi
open Text FromChars Numerals Hex
open Syscape.Printer (isBlank)

section Source

/-- `format_mac_bytes`, for the six bytes that its argument points to. -/
def formatMacBytes (bytes : List UInt8) : List UInt8 :=
  bytes.zipIdx.flatMap fun (byte, i) =>
    (if i > 0 then [(0x3A : UInt8)] else []) ++
      [hexDigit ((byte.toNat >>> 4) &&& 0x0F), hexDigit (byte.toNat &&& 0x0F)]

/-- The two digits that a round of `normalize_mac_address` reads, put together. -/
def macByte (raw : List UInt8) (position : ℕ) : Option UInt8 := do
  let hi ← parseInt 255 ((raw.drop position).take 1) 16
  let lo ← parseInt 255 ((raw.drop (position + 1)).take 1) 16
  some (UInt8.ofNat ((hi <<< 4) ||| lo))

/-- `normalize_mac_address`. -/
def normalizeMacAddress (raw : List UInt8) : Option (List UInt8) := do
  let raw := trimWhitespace raw
  if raw.length = 17 ∧ (raw[2]? = some 0x3A ∨ raw[2]? = some 0x2D) then do
    let sep := raw[2]?
    let bytes ← (List.range 6).mapM fun i =>
      if i > 0 ∧ raw[i * 3 - 1]? ≠ sep then none else macByte raw (i * 3)
    some (formatMacBytes bytes)
  else if raw.length = 12 then do
    let bytes ← (List.range 6).mapM fun i => macByte raw (i * 2)
    some (formatMacBytes bytes)
  else none

end Source

section Renderings

/-- What stands between the pairs. -/
def macSeparators : List (List UInt8) := [[0x3A], [0x2D], []]

/-- A pair of digits for each byte, of either case, and separators between the pairs. -/
def MacText (sep bytes text : List UInt8) : Prop :=
  ∃ pieces, List.Forall₂ (fun b piece => Spells [b] piece) bytes pieces ∧
    text = sep.intercalate pieces

end Renderings

section Digits

/-- One letter is read if it is a digit. -/
theorem parseInt_singleton (c : UInt8) :
    parseInt 255 [c] 16 = if digit c < 16 then some (digit c) else none :=
  forall_byte (p := fun c => parseInt 255 [c] 16 = if digit c < 16 then some (digit c) else none)
    (by decide +kernel) c

theorem isBlank_of_digit {c : UInt8} (h : digit c < 16) : isBlank c = false :=
  forall_byte (p := fun c => digit c < 16 → isBlank c = false) (by decide +kernel) c h

theorem nibbles (hi : ℕ) {lo : ℕ} (hlo : lo < 16) :
    (hi <<< 4) ||| lo = hi * 16 + lo := by
  rw [← Nat.shiftLeft_add_eq_or_of_lt (show lo < 2 ^ 4 from hlo), Nat.shiftLeft_eq]

theorem macByte_eq_some {raw front text : List UInt8} {high low : UInt8} {b : UInt8}
    {position : ℕ} (hraw : raw = front ++ high :: low :: text) (hfront : front.length = position) :
    macByte raw position = some b ↔ Spells [b] [high, low] := by
  subst hraw hfront
  have hfirst : ((front ++ high :: low :: text).drop front.length).take 1 = [high] := by simp
  have hsecond : ((front ++ high :: low :: text).drop (front.length + 1)).take 1 = [low] := by simp
  rw [macByte, hfirst, hsecond, parseInt_singleton, parseInt_singleton]
  constructor
  · intro h
    split_ifs at h with hhigh hlow
    · have hb : UInt8.ofNat ((digit high <<< 4) ||| digit low) = b := Option.some.inj h
      rw [nibbles _ hlow] at hb
      rw [← hb]
      refine .cons _ _ _ ?_ ?_ .nil
      · rw [UInt8.toNat_ofNat']
        omega
      · rw [UInt8.toNat_ofNat']
        omega
    · cases h
    · cases h
    · cases h
  · intro h
    cases h with
    | cons _ _ _ hhigh hlow _ =>
      have hb := b.toNat_lt
      rw [if_pos (by omega), if_pos (by omega)]
      show some (UInt8.ofNat ((digit high <<< 4) ||| digit low)) = some b
      rw [nibbles _ (by omega), Option.some_inj]
      apply UInt8.toNat_inj.mp
      rw [UInt8.toNat_ofNat']
      omega

end Digits

section Loop

theorem mapM_cons_eq_some {α β : Type*} {f : α → Option β} {a : α} {l : List α} {out : List β} :
    (a :: l).mapM f = some out ↔ ∃ b more, f a = some b ∧ l.mapM f = some more ∧ out = b :: more := by
  rw [List.mapM_cons]
  cases f a <;> cases l.mapM f <;> simp [eq_comm]

variable {sep : List UInt8}

/-- A round that looks for a separator in front of its pair. -/
def separatedByte (sep raw : List UInt8) (i : ℕ) : Option UInt8 :=
  if (raw.drop (i * (sep.length + 2) - sep.length)).take sep.length ≠ sep then none
  else macByte raw (i * (sep.length + 2))

/-- The rounds after the first read the pieces of the text, each behind a separator. -/
theorem mapM_separatedByte {f : ℕ → Option UInt8} {count k : ℕ} {raw front text bytes : List UInt8}
    (hf : ∀ i > 0, f i = separatedByte sep raw i) (hk : k > 0)
    (hraw : raw = front ++ text) (hfront : front.length + sep.length = k * (sep.length + 2))
    (htext : text.length = count * (sep.length + 2)) :
    (List.range' k count).mapM f = some bytes ↔
      ∃ pieces, List.Forall₂ (fun b piece => Spells [b] piece) bytes pieces ∧
        text = pieces.flatMap (sep ++ ·) := by
  induction count generalizing k front text bytes with
  | zero =>
    obtain rfl : text = [] := List.length_eq_zero_iff.mp (by simpa using htext)
    constructor
    · intro h
      obtain rfl : [] = bytes := Option.some.inj h
      exact ⟨[], .nil, rfl⟩
    · rintro ⟨pieces, hpieces, hnil⟩
      cases hpieces with
      | nil => rfl
      | cons hpiece _ =>
        cases hpiece
        simp at hnil
  | succ count ih =>
    rw [Nat.succ_mul] at htext
    obtain ⟨start, behind, rfl, hstart⟩ : ∃ start behind, text = start ++ behind ∧
        start.length = sep.length :=
      ⟨text.take sep.length, text.drop sep.length, (List.take_append_drop _ _).symm,
        List.length_take_of_le (by omega)⟩
    rw [List.length_append] at htext
    obtain ⟨high, low, rest, rfl⟩ : ∃ high low rest, behind = high :: low :: rest := by
      match behind with
      | [] => simp at htext; omega
      | [_] => simp at htext; omega
      | high :: low :: rest => exact ⟨high, low, rest, rfl⟩
    have hround (b : UInt8) : f k = some b ↔ start = sep ∧ Spells [b] [high, low] := by
      have htake : (raw.drop (k * (sep.length + 2) - sep.length)).take sep.length = start := by
        rw [hraw, ← hfront, Nat.add_sub_cancel, List.drop_left, ← hstart, List.take_left]
      rw [hf k hk, separatedByte, htake]
      by_cases hsep : start = sep
      · rw [if_neg (not_not.mpr hsep)]
        have hpair : raw = (front ++ start) ++ high :: low :: rest := by
          rw [hraw, List.append_assoc]
        rw [macByte_eq_some hpair (by rw [List.length_append, hstart, hfront])]
        simp [hsep]
      · simp [hsep]
    have hrest (more : List UInt8) :
        (List.range' (k + 1) count).mapM f = some more ↔
          ∃ pieces, List.Forall₂ (fun b piece => Spells [b] piece) more pieces ∧
            rest = pieces.flatMap (sep ++ ·) := by
      have hbehind : raw = (front ++ start ++ [high, low]) ++ rest := by
        rw [hraw]
        simp
      refine ih (Nat.succ_pos k) hbehind ?_ ?_
      · simp only [List.length_append, List.length_cons, List.length_nil, Nat.succ_mul]
        omega
      · simp only [List.length_cons] at htext
        omega
    rw [List.range'_succ, mapM_cons_eq_some]
    constructor
    · rintro ⟨b, more, hb, hmore, rfl⟩
      obtain ⟨rfl, hpair⟩ := (hround b).mp hb
      obtain ⟨pieces, hpieces, rfl⟩ := (hrest more).mp hmore
      exact ⟨[high, low] :: pieces, .cons hpair hpieces, by simp⟩
    · rintro ⟨pieces, hpieces, heq⟩
      cases hpieces with
      | nil => simp at heq
      | cons hpiece hpieces =>
        rename_i b piece bytes pieces
        rw [List.flatMap_cons, List.append_assoc] at heq
        obtain ⟨hsep, hpair⟩ := List.append_inj heq hstart
        have hlength : [high, low].length = piece.length := hpiece.length_eq.symm
        obtain ⟨rfl, hmore⟩ := @List.append_inj _ [high, low] _ _ _ hpair hlength
        exact ⟨b, bytes, (hround b).mpr ⟨hsep, hpiece⟩, (hrest bytes).mpr ⟨pieces, hpieces, hmore⟩, rfl⟩

end Loop

section Text

variable {sep bytes text : List UInt8}

theorem intercalate_cons (sep piece : List UInt8) (pieces : List (List UInt8)) :
    sep.intercalate (piece :: pieces) = piece ++ pieces.flatMap (sep ++ ·) := by
  induction pieces generalizing piece with
  | nil => simp
  | cons next pieces ih =>
    rw [List.intercalate_cons_cons, ih, List.flatMap_cons, List.append_assoc, List.append_assoc]

/-- The first pair stands alone, the others behind separators. -/
theorem macText_cons {b : UInt8} :
    MacText sep (b :: bytes) text ↔ ∃ high low rest pieces, Spells [b] [high, low] ∧
      List.Forall₂ (fun b piece => Spells [b] piece) bytes pieces ∧
      rest = pieces.flatMap (sep ++ ·) ∧ text = high :: low :: rest := by
  constructor
  · rintro ⟨_, hpieces, rfl⟩
    obtain _ | ⟨hpiece, hrest⟩ := hpieces
    rename_i piece pieces
    obtain ⟨high, low, rfl⟩ := List.length_eq_two.mp hpiece.length_eq
    exact ⟨high, low, _, pieces, hpiece, hrest, rfl, by rw [intercalate_cons]; rfl⟩
  · rintro ⟨high, low, _, pieces, hpiece, hrest, rfl, rfl⟩
    exact ⟨[high, low] :: pieces, .cons hpiece hrest, by rw [intercalate_cons]; rfl⟩

theorem length_pieces {pieces : List (List UInt8)}
    (h : List.Forall₂ (fun b piece => Spells [b] piece) bytes pieces) :
    (pieces.flatMap (sep ++ ·)).length = bytes.length * (sep.length + 2) := by
  induction h with
  | nil => simp
  | cons hpiece _ ih =>
    rw [List.flatMap_cons, List.length_append, List.length_append, hpiece.length_eq, ih,
      List.length_singleton, List.length_cons, Nat.add_mul, Nat.one_mul]
    omega

theorem MacText.length (h : MacText sep bytes text) (hne : bytes ≠ []) :
    text.length + sep.length = bytes.length * (sep.length + 2) := by
  obtain ⟨b, bytes, rfl⟩ := List.exists_cons_of_ne_nil hne
  obtain ⟨high, low, _, pieces, _, hrest, rfl, rfl⟩ := macText_cons.mp h
  rw [List.length_cons, List.length_cons, length_pieces hrest, List.length_cons, Nat.add_mul,
    Nat.one_mul]
  omega

/-- The third letter is the separator, if there is one. -/
theorem MacText.third {c : UInt8} {text : List UInt8} (h : MacText [c] bytes text)
    (hlength : 2 ≤ bytes.length) : text[2]? = some c := by
  match bytes with
  | b :: b' :: bytes =>
    obtain ⟨high, low, _, _, _, hrest, rfl, rfl⟩ := macText_cons.mp h
    obtain _ | ⟨_, _⟩ := hrest
    simp

/-- All rounds together. -/
theorem mapM_rounds {n : ℕ} {raw : List UInt8} {f : ℕ → Option UInt8}
    (hfirst : f 0 = macByte raw 0) (hrest : ∀ i > 0, f i = separatedByte sep raw i)
    (hlength : raw.length + sep.length = (n + 1) * (sep.length + 2)) :
    (List.range (n + 1)).mapM f = some bytes ↔ bytes ≠ [] ∧ MacText sep bytes raw := by
  rw [Nat.succ_mul] at hlength
  obtain ⟨high, low, rest, rfl⟩ : ∃ high low rest, raw = high :: low :: rest := by
    match raw with
    | [] => simp at hlength; omega
    | [_] => simp at hlength; omega
    | high :: low :: rest => exact ⟨high, low, rest, rfl⟩
  simp only [List.length_cons] at hlength
  have hbehind (more : List UInt8) :
      (List.range' 1 n).mapM f = some more ↔
        ∃ pieces, List.Forall₂ (fun b piece => Spells [b] piece) more pieces ∧
          rest = pieces.flatMap (sep ++ ·) := by
    have hraw : high :: low :: rest = [high, low] ++ rest := rfl
    refine mapM_separatedByte hrest Nat.one_pos hraw ?_ (by omega)
    rw [List.length_cons, List.length_singleton]
    omega
  rw [List.range_eq_range', List.range'_succ, mapM_cons_eq_some]
  have hpair (b : UInt8) : f 0 = some b ↔ Spells [b] [high, low] := by
    rw [hfirst]
    exact macByte_eq_some (List.nil_append _).symm rfl
  constructor
  · rintro ⟨b, more, hb, hmore, rfl⟩
    obtain ⟨pieces, hpieces, hflat⟩ := (hbehind more).mp hmore
    exact ⟨by simp, macText_cons.mpr ⟨high, low, rest, pieces, (hpair b).mp hb, hpieces, hflat, rfl⟩⟩
  · rintro ⟨hne, htext⟩
    obtain ⟨b, bytes, rfl⟩ := List.exists_cons_of_ne_nil hne
    obtain ⟨_, _, _, pieces, hb, hpieces, hflat, heq⟩ := macText_cons.mp htext
    injection heq with hhigh heq
    injection heq with hlow heq
    subst hhigh hlow heq
    exact ⟨b, bytes, (hpair b).mpr hb, (hbehind bytes).mpr ⟨pieces, hpieces, hflat⟩, rfl⟩

end Text

section Normalize

/-- The two digits that `format_mac_bytes` writes for a byte. -/
def upperPair (b : UInt8) : List UInt8 := [hexDigit (b.toNat / 16), hexDigit (b.toNat % 16)]

theorem spells_upperPair (b : UInt8) : Spells [b] (upperPair b) := by
  have hb := b.toNat_lt
  exact .cons b _ _ (digit_hexDigit (by omega)) (digit_hexDigit (by omega)) .nil

theorem formatMacBytes_cons (b : UInt8) (bytes : List UInt8) :
    formatMacBytes (b :: bytes) = upperPair b ++ (bytes.map upperPair).flatMap ([0x3A] ++ ·) := by
  have hlow (n : ℕ) : n &&& 0x0F = n % 16 := Nat.and_two_pow_sub_one_eq_mod n 4
  have hhigh (b : UInt8) : (b.toNat >>> 4) &&& 0x0F = b.toNat / 16 := by
    have hb := b.toNat_lt
    rw [hlow, Nat.shiftRight_eq_div_pow]
    omega
  have hrest (k : ℕ) (hk : k > 0) :
      (bytes.zipIdx k).flatMap (fun (byte, i) => (if i > 0 then [(0x3A : UInt8)] else []) ++
          [hexDigit ((byte.toNat >>> 4) &&& 0x0F), hexDigit (byte.toNat &&& 0x0F)]) =
        (bytes.map upperPair).flatMap ([0x3A] ++ ·) := by
    induction bytes generalizing k with
    | nil => rfl
    | cons c bytes ih =>
      rw [List.zipIdx_cons, List.flatMap_cons, ih (k + 1) (Nat.succ_pos k), List.map_cons,
        List.flatMap_cons]
      simp only [hk, if_true, hhigh, hlow, upperPair]
  rw [formatMacBytes, List.zipIdx_cons, List.flatMap_cons, hrest 1 Nat.one_pos]
  simp only [hhigh, hlow, upperPair]
  rfl

/-- The normal form is one of the renderings. -/
theorem macText_formatMacBytes {bytes : List UInt8} (h : bytes ≠ []) :
    MacText [0x3A] bytes (formatMacBytes bytes) := by
  obtain ⟨b, bytes, rfl⟩ := List.exists_cons_of_ne_nil h
  refine ⟨(b :: bytes).map upperPair, ?_, ?_⟩
  · rw [List.forall₂_map_right_iff, List.forall₂_same]
    exact fun b _ => spells_upperPair b
  · rw [formatMacBytes_cons, List.map_cons, intercalate_cons]

theorem digits_of_pieces {bytes : List UInt8} {pieces : List (List UInt8)}
    (h : List.Forall₂ (fun b piece => Spells [b] piece) bytes pieces) :
    ∀ piece ∈ pieces, ∀ c ∈ piece, digit c < 16 := by
  induction h with
  | nil => simp
  | cons hpiece _ ih =>
    rw [List.forall_mem_cons]
    exact ⟨hpiece.digits, ih⟩

/-- A rendering contains no blanks. -/
theorem MacText.not_blank {sep bytes text : List UInt8} (h : MacText sep bytes text)
    (hsep : sep ∈ macSeparators) : ∀ c ∈ text, isBlank c = false := by
  have hseparator : ∀ sep ∈ macSeparators, ∀ c ∈ sep, isBlank c = false := by
    simp [macSeparators, isBlank]
  obtain ⟨pieces, hpieces, rfl⟩ := h
  have hdigits := digits_of_pieces hpieces
  cases pieces with
  | nil => simp
  | cons piece pieces =>
    rw [List.forall_mem_cons] at hdigits
    intro c hc
    rw [intercalate_cons, List.mem_append, List.mem_flatMap] at hc
    rcases hc with hc | ⟨next, hnext, hc⟩
    · exact isBlank_of_digit (hdigits.1 c hc)
    · rcases List.mem_append.mp hc with hc | hc
      · exact hseparator sep hsep c hc
      · exact isBlank_of_digit (hdigits.2 next hnext c hc)

section Rounds

variable {text bytes : List UInt8}

/-- The loop over a text with separators. -/
theorem mapM_separated {c : UInt8} (hlength : text.length = 17) (hthird : text[2]? = some c) :
    ((List.range 6).mapM fun i =>
      if i > 0 ∧ text[i * 3 - 1]? ≠ text[2]? then none else macByte text (i * 3)) = some bytes ↔
        bytes ≠ [] ∧ MacText [c] bytes text := by
  apply mapM_rounds
  · simp
  · intro i hi
    have hone : ((text.drop (i * 3 - 1)).take 1 = [c]) ↔ text[i * 3 - 1]? = some c := by
      rw [List.take_one, List.head?_drop]
      cases text[i * 3 - 1]? <;> simp
    simp [separatedByte, hthird, hi, hone]
  · simp [hlength]

/-- The loop over a text without separators. -/
theorem mapM_bare (hlength : text.length = 12) :
    ((List.range 6).mapM fun i => macByte text (i * 2)) = some bytes ↔
      bytes ≠ [] ∧ MacText [] bytes text := by
  apply mapM_rounds
  · rfl
  · intro i _
    simp [separatedByte]
  · simp [hlength]

end Rounds

/-- The texts that are normalised, apart from the blanks around them. -/
theorem normalizeMacAddress_eq_some {raw out : List UInt8} :
    normalizeMacAddress raw = some out ↔ ∃ sep ∈ macSeparators, ∃ address : Vector UInt8 6,
      MacText sep address.toList (trimWhitespace raw) ∧ out = formatMacBytes address.toList := by
  have hvector (bytes : List UInt8) (h : bytes.length = 6) :
      ∃ address : Vector UInt8 6, address.toList = bytes := ⟨⟨⟨bytes⟩, h⟩, rfl⟩
  have hsix (address : Vector UInt8 6) : address.toList ≠ [] :=
    List.ne_nil_of_length_pos (by simp)
  unfold normalizeMacAddress
  generalize trimWhitespace raw = text
  dsimp only
  constructor
  · intro h
    split_ifs at h with hseparated hbare
    · obtain ⟨hlength, hthird⟩ := hseparated
      obtain ⟨c, hc, hsep⟩ : ∃ c, text[2]? = some c ∧ [c] ∈ macSeparators := by
        rcases hthird with hc | hc
        · exact ⟨_, hc, by decide⟩
        · exact ⟨_, hc, by decide⟩
      obtain ⟨bytes, hbytes, hout⟩ := Option.bind_eq_some_iff.mp h
      obtain ⟨hne, htext⟩ := (mapM_separated hlength hc).mp hbytes
      have hcount := htext.length hne
      rw [hlength, List.length_singleton] at hcount
      obtain ⟨address, rfl⟩ := hvector bytes (by omega)
      exact ⟨[c], hsep, address, htext, (Option.some.inj hout).symm⟩
    · obtain ⟨bytes, hbytes, hout⟩ := Option.bind_eq_some_iff.mp h
      obtain ⟨hne, htext⟩ := (mapM_bare hbare).mp hbytes
      have hcount := htext.length hne
      rw [hbare, List.length_nil] at hcount
      obtain ⟨address, rfl⟩ := hvector bytes (by omega)
      exact ⟨[], by decide, address, htext, (Option.some.inj hout).symm⟩
  · rintro ⟨sep, hsep, address, htext, rfl⟩
    have hcount := htext.length (hsix address)
    rw [Vector.length_toList] at hcount
    have hcases : (∃ c, (c = 0x3A ∨ c = 0x2D) ∧ sep = [c]) ∨ sep = [] := by
      simp only [macSeparators, List.mem_cons, List.not_mem_nil, or_false] at hsep
      rcases hsep with rfl | rfl | rfl
      · exact .inl ⟨_, .inl rfl, rfl⟩
      · exact .inl ⟨_, .inr rfl, rfl⟩
      · exact .inr rfl
    rcases hcases with ⟨c, hc, rfl⟩ | rfl
    · rw [List.length_singleton] at hcount
      have hlength : text.length = 17 := by omega
      have hthird := htext.third (by simp)
      have hguard : text[2]? = some 0x3A ∨ text[2]? = some 0x2D := by
        rw [hthird, Option.some_inj, Option.some_inj]
        exact hc
      rw [if_pos ⟨hlength, hguard⟩, (mapM_separated hlength hthird).mpr ⟨hsix address, htext⟩]
      rfl
    · rw [List.length_nil] at hcount
      have hlength : text.length = 12 := by omega
      rw [if_neg fun h => by omega, if_pos hlength, (mapM_bare hlength).mpr ⟨hsix address, htext⟩]
      rfl

/-- What is trimmed to a rendering is a rendering with blanks around it. -/
theorem trim_macText {sep bytes text : List UInt8} (hsep : sep ∈ macSeparators) :
    MacText sep bytes (trimWhitespace text) ↔ ∃ front body back, (∀ c ∈ front, isBlank c = true) ∧
      (∀ c ∈ back, isBlank c = true) ∧ MacText sep bytes body ∧ text = front ++ body ++ back := by
  constructor
  · intro h
    obtain ⟨front, back, htext, hfront, hback⟩ := exists_trim isBlank text
    exact ⟨front, _, back, hfront, hback, h, htext⟩
  · rintro ⟨front, body, back, hfront, hback, h, rfl⟩
    have hbody := h.not_blank hsep
    have htrim : trimWhitespace (front ++ body ++ back) = body :=
      trim_blanks hfront hback (fun c hc => hbody c (List.mem_of_mem_head? hc))
        fun c hc => hbody c (List.mem_of_mem_getLast? hc)
    rwa [htrim]

end Normalize

/-- The normal form of an address. Every rendering of the address has it, it is its own
normal form, and nothing but a rendering, with blanks around it at most, has one. -/
theorem normalize_mac_address :
    (∀ sep ∈ macSeparators, ∀ (address : Vector UInt8 6) (text : List UInt8),
      MacText sep address.toList text →
        normalizeMacAddress text = some (formatMacBytes address.toList)) ∧
    (∀ text out, normalizeMacAddress text = some out → normalizeMacAddress out = some out) ∧
    ∀ text out, normalizeMacAddress text = some out ↔
      ∃ front body back, (∀ c ∈ front, isBlank c = true) ∧ (∀ c ∈ back, isBlank c = true) ∧
        text = front ++ body ++ back ∧ ∃ sep ∈ macSeparators, ∃ address : Vector UInt8 6,
          MacText sep address.toList body ∧ out = formatMacBytes address.toList := by
  have hplain {sep bytes text : List UInt8} (hsep : sep ∈ macSeparators)
      (h : MacText sep bytes text) : MacText sep bytes (trimWhitespace text) :=
    (trim_macText hsep).mpr ⟨[], text, [], by simp, by simp, h, by simp⟩
  refine ⟨?_, ?_, ?_⟩
  · intro sep hsep address text h
    exact normalizeMacAddress_eq_some.mpr ⟨sep, hsep, address, hplain hsep h, rfl⟩
  · intro text out h
    obtain ⟨_, _, address, _, rfl⟩ := normalizeMacAddress_eq_some.mp h
    have hself : MacText [0x3A] address.toList (formatMacBytes address.toList) :=
      macText_formatMacBytes (List.ne_nil_of_length_pos (by simp))
    exact normalizeMacAddress_eq_some.mpr ⟨_, by decide, address, hplain (by decide) hself, rfl⟩
  · intro text out
    rw [normalizeMacAddress_eq_some]
    constructor
    · rintro ⟨sep, hsep, address, htext, hout⟩
      obtain ⟨front, body, back, hfront, hback, hbody, htext⟩ := (trim_macText hsep).mp htext
      exact ⟨front, body, back, hfront, hback, htext, sep, hsep, address, hbody, hout⟩
    · rintro ⟨front, body, back, hfront, hback, htext, sep, hsep, address, hbody, hout⟩
      exact ⟨sep, hsep, address, (trim_macText hsep).mpr ⟨front, body, back, hfront, hback, hbody, htext⟩,
        hout⟩

theorem normalize_mac_address_example :
    normalizeMacAddress (ascii "00:1A:2B:3C:4D:5E") = some (ascii "00:1A:2B:3C:4D:5E") :=
  normalize_mac_address.1 [0x3A] (by decide) #v[0x00, 0x1A, 0x2B, 0x3C, 0x4D, 0x5E] _
    (macText_formatMacBytes (by decide))

/-- A rendering with a blank in front of it is no rendering, and has a normal form. -/
theorem blank_before_mac_address :
    normalizeMacAddress (ascii " 001A2B3C4D5E") = some (ascii "00:1A:2B:3C:4D:5E") ∧
      ¬ ∃ sep ∈ macSeparators, ∃ address : Vector UInt8 6,
        MacText sep address.toList (ascii " 001A2B3C4D5E") := by
  refine ⟨by decide +kernel, ?_⟩
  rintro ⟨sep, hsep, address, h⟩
  exact absurd (h.not_blank hsep 0x20 (by decide)) (by decide)

end Syscape.Wifi
