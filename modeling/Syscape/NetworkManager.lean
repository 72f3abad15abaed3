import Syscape.Wifi
import Syscape.Lib.Paths
import Syscape.Lib.Numerals

/-!
# Names in NetworkManager profiles

A name is written as a string, in which some bytes are escaped by a backslash, or as the
list of its bytes. Semicolons of a string are always escaped, so no string is a list.
-/
namespace Syscape.Wifi
open Checked Text FromChars Utf8 Digits Numerals
open Syscape.Printer (isBlank trimWhitespace_numeral parseInt_numeral)

section Renderings

/-- The bytes that can be escaped, each with the byte that is written behind the backslash: the
space, the line feed, the tab, the carriage return, the backslash and both separators. -/
def escapes : List (UInt8 × UInt8) :=
  [(0x20, 0x73), (0x0A, 0x6E), (0x09, 0x74), (0x0D, 0x72), (0x5C, 0x5C), (0x3B, 0x3B), (0x2C, 0x2C)]

/-- The text is the name with some of its bytes escaped: every backslash and every
semicolon, and of the other bytes that have an escape any. -/
inductive EscapedString : List UInt8 → List UInt8 → Prop where
  | nil : EscapedString [] []
  | plain {name text : List UInt8} (c : UInt8) (backslash : c ≠ 0x5C) (semicolon : c ≠ 0x3B)
      (rest : EscapedString name text) : EscapedString (c :: name) (c :: text)
  | escaped {name text : List UInt8} (c e : UInt8) (escape : (c, e) ∈ escapes)
      (rest : EscapedString name text) : EscapedString (c :: name) (0x5C :: e :: text)

/-- A byte as it is written when it is escaped if it can be. -/
def escapeByte (c : UInt8) : List UInt8 :=
  match escapes.lookup c with
  | some e => [0x5C, e]
  | none => [c]

/-- The name with every byte escaped that can be. -/
def escapeString (name : List UInt8) : List UInt8 := name.flatMap escapeByte

/-- The bytes of the name in decimal, each with a semicolon behind it. -/
def byteList (name : List UInt8) : List UInt8 :=
  name.flatMap fun c => decimal c.toNat ++ [0x3B]

end Renderings

section Strings
variable {name text : List UInt8}

/-- The decoder knows the escapes. -/
theorem escapedByte_of_mem : ∀ p ∈ escapes, escapedByte p.2 = some p.1 :=
  List.forall_iff_forall_mem.mp (by decide)

theorem unescape_escapedString (h : EscapedString name text) : unescape text = .ok name := by
  induction h with
  | nil => rfl
  | plain c hbackslash _ _ ih =>
    rw [unescape.eq_def]
    simp only [if_pos hbackslash, ih, ok_bind]
  | escaped c e hescape _ ih =>
    have hbyte : escapedByte e = some c := escapedByte_of_mem _ hescape
    rw [unescape.eq_def]
    simp only [ne_eq, not_true_eq_false, if_false, hbyte, ih, ok_bind]

/-- Every name can be written as an escaped string. -/
theorem escapedString_escapeString (name : List UInt8) :
    EscapedString name (escapeString name) := by
  induction name with
  | nil => exact .nil
  | cons c name ih =>
    rw [escapeString, List.flatMap_cons, escapeByte]
    cases hlookup : escapes.lookup c with
    | some e =>
      obtain ⟨front, back, hsplit, -⟩ := List.lookup_eq_some_iff.mp hlookup
      have hmem : (c, e) ∈ escapes := hsplit ▸ List.mem_append_right front List.mem_cons_self
      exact .escaped c e hmem ih
    | none =>
      have hplain : ∀ p ∈ escapes, c ≠ p.1 := fun p hp =>
        bne_iff_ne.mp (List.lookup_eq_none_iff.mp hlookup p hp)
      exact .plain c (hplain (0x5C, 0x5C) (by decide)) (hplain (0x3B, 0x3B) (by decide)) ih

/-- The first semicolon of an escaped string has a backslash in front of it. -/
theorem EscapedString.backslash_before (h : EscapedString name text) {stop : ℕ}
    (hstop : text.idxOf? 0x3B = some stop) : ∃ front, text.take stop = front ++ [0x5C] := by
  induction h generalizing stop with
  | nil => simp at hstop
  | plain c _ hsemicolon _ ih =>
    rw [List.idxOf?_cons, if_neg (by simpa using hsemicolon), Option.map_eq_some_iff] at hstop
    obtain ⟨stop, hrest, rfl⟩ := hstop
    obtain ⟨front, hfront⟩ := ih hrest
    exact ⟨c :: front, by rw [List.take_succ_cons, hfront, List.cons_append]⟩
  | @escaped name text c e _ _ ih =>
    rw [List.idxOf?_cons, if_neg (by decide), List.idxOf?_cons] at hstop
    by_cases he : e = 0x3B
    · obtain rfl : 1 = stop := by simpa [he] using hstop
      exact ⟨[], rfl⟩
    · rw [if_neg (by simpa using he), Option.map_map, Option.map_eq_some_iff] at hstop
      obtain ⟨stop, hrest, rfl⟩ := hstop
      obtain ⟨front, hfront⟩ := ih hrest
      refine ⟨0x5C :: e :: front, ?_⟩
      simp only [Function.comp_apply, List.take_succ_cons, hfront, List.cons_append]

/-- Only digits are read as a decimal number. -/
theorem parseInt_eq_none {token : List UInt8} {c : UInt8} (hc : c ∈ trimWhitespace token)
    (hdigit : 10 ≤ digit c) (max : ℕ) : parseInt max token 10 = none := by
  have hread : (fromChars 10 max (trimWhitespace token)).read ≠ (trimWhitespace token).length := by
    intro hlength
    have hall : (trimWhitespace token).takeWhile (fun c => decide (digit c < 10)) =
        trimWhitespace token := (List.takeWhile_prefix _).eq_of_length hlength
    have hlt := List.mem_takeWhile_imp (hall.symm ▸ hc)
    rw [decide_eq_true_eq] at hlt
    omega
  unfold parseInt Printer.parseInt
  simp only [Nat.reduceEqDiff, false_and, if_false]
  split_ifs with hnil hall
  · rfl
  · exact absurd hall hread
  · rfl

/-- A text that ends in no blank keeps its last byte. -/
theorem trimWhitespace_concat (front : List UInt8) {c : UInt8} (hc : isBlank c = false) :
    ∃ front', trimWhitespace (front ++ [c]) = front' ++ [c] := by
  have hdrop : ∃ front', (front ++ [c]).dropWhile isBlank = front' ++ [c] := by
    rw [List.dropWhile_append]
    split_ifs
    · exact ⟨[], by simp [hc]⟩
    · exact ⟨_, rfl⟩
  obtain ⟨front', hfront⟩ := hdrop
  refine ⟨front', ?_⟩
  show ((front ++ [c]).dropWhile isBlank).rdropWhile isBlank = front' ++ [c]
  rw [hfront, List.rdropWhile_concat_neg _ _ _ (by simp [hc])]

/-- No escaped string is taken for a list of bytes. -/
theorem decimalList_escapedString (h : EscapedString name text)
    (hlast : text.getLast? = some 0x3B) : decimalList text = none := by
  have hne : text ≠ [] := by
    rintro rfl
    cases hlast
  have hmem : (0x3B : UInt8) ∈ text := List.mem_of_getLast? hlast
  obtain ⟨front, rest, hsplit, hfirst⟩ := List.eq_append_cons_of_mem hmem
  have hstop : text.idxOf? 0x3B = some front.length := by
    rw [hsplit]
    exact Paths.idxOf?_append_cons hfirst rest
  obtain ⟨front', hfront⟩ := h.backslash_before hstop
  -- the token is trimmed once here and once more when it is parsed
  obtain ⟨token, htoken⟩ := trimWhitespace_concat front' (c := 0x5C) (by decide)
  obtain ⟨token', htoken'⟩ := trimWhitespace_concat token (c := 0x5C) (by decide)
  have hnone : parseInt 255 (token ++ [0x5C]) 10 = none := by
    refine parseInt_eq_none (c := 0x5C) ?_ (by decide) 255
    rw [htoken']
    simp
  rw [decimalList, if_neg hne, hstop]
  simp only [hfront, htoken, hnone, if_neg (List.concat_ne_nil _ _)]
  rfl

end Strings

section Lists

theorem decimalList_byteList (name : List UInt8) : decimalList (byteList name) = some name := by
  induction name with
  | nil =>
    rw [decimalList]
    rfl
  | cons c name ih =>
    have htext : byteList (c :: name) = decimal c.toNat ++ 0x3B :: byteList name := by
      simp [byteList]
    have hsemicolon : (0x3B : UInt8) ∉ decimal c.toNat := by
      intro h
      have hmem := mem_decimal h
      simp at hmem
    have htrim : trimWhitespace (decimal c.toNat) = decimal c.toNat := by
      have hself := @trimWhitespace_numeral _ _ _ (numeral_decimal c.toNat) (by decide) [] []
        (by simp) (by simp)
      rwa [List.nil_append, List.append_nil] at hself
    have hbyte : parseInt 255 (decimal c.toNat) 10 = some c.toNat := by
      rw [parseInt, parseInt_numeral (numeral_decimal c.toNat) (by decide)]
      exact if_pos (Nat.le_of_lt_succ c.toNat_lt)
    rw [htext, decimalList, if_neg (by simp), Paths.idxOf?_append_cons hsemicolon]
    simp only [List.take_left, List.drop_length_add_append, List.drop_succ_cons, List.drop_zero, ih,
      htrim, if_neg (decimal_ne_nil c.toNat), hbyte]
    simp

theorem getLast?_byteList {name : List UInt8} (h : name ≠ []) :
    (byteList name).getLast? = some 0x3B := by
  obtain ⟨front, c, rfl⟩ := List.eq_nil_or_concat name |>.resolve_left h
  simp [byteList]

/-- An escaped string that is a list of bytes is empty. -/
theorem EscapedString.byteList_eq {name text other : List UInt8} (h : EscapedString name text)
    (hother : text = byteList other) : other = name := by
  by_cases hnil : other = []
  · rw [hnil] at hother ⊢
    cases h with
    | nil => rfl
    | plain | escaped => cases hother
  · rw [hother] at h
    have hnone := decimalList_escapedString h (getLast?_byteList hnil)
    rw [decimalList_byteList] at hnone
    cases hnone

end Lists

/-- Every rendering of a name decodes to the name, every name has one of both kinds, and no string
is taken for a list. -/
theorem network_manager_name_decoded {name : List UInt8} (hvalid : ValidUtf8 name) :
    (∀ text, EscapedString name text → decodeNetworkManagerString text = .ok name ∧
      (text.getLast? = some 0x3B → decimalList text = none) ∧
      ∀ other, text = byteList other → other = name) ∧
    EscapedString name (escapeString name) ∧
    decodeNetworkManagerString (byteList name) = .ok name := by
  have hname : validText name = .ok name := by
    have htrue : isValidUtf8 name = .ok true := hvalid
    rw [validText, htrue, ok_bind]
    rfl
  refine ⟨?_, escapedString_escapeString name, ?_⟩
  · intro text h
    have hlist : (if text.getLast? = some 0x3B then decimalList text else none) = none := by
      split_ifs with hlast
      · exact decimalList_escapedString h hlast
      · rfl
    refine ⟨?_, decimalList_escapedString h, fun other hother => h.byteList_eq hother⟩
    rw [decodeNetworkManagerString, hlist]
    dsimp only
    rw [unescape_escapedString h, ok_bind, hname]
  · by_cases hnil : name = []
    · rw [hnil] at hname ⊢
      exact hname
    · rw [decodeNetworkManagerString, if_pos (getLast?_byteList hnil), decimalList_byteList]
      exact hname

/-- A name that looks like a list of two bytes and has a space behind it. -/
theorem list_like_name_decoded :
    ValidUtf8 (ascii "16;17; ") ∧
      decodeNetworkManagerString (ascii "16\\;17\\;\\s") = .ok (ascii "16;17; ") ∧
      decodeNetworkManagerString (ascii "49;54;59;49;55;59;32;") = .ok (ascii "16;17; ") := by
  have hvalid : ValidUtf8 (ascii "16;17; ") := by decide +kernel
  have hescape : escapeString (ascii "16;17; ") = ascii "16\\;17\\;\\s" := by decide +kernel
  have hlist : byteList (ascii "16;17; ") = ascii "49;54;59;49;55;59;32;" := by decide +kernel
  obtain ⟨hstrings, hescaped, hbytes⟩ := network_manager_name_decoded hvalid
  rw [hescape] at hescaped
  rw [hlist] at hbytes
  exact ⟨hvalid, (hstrings _ hescaped).1, hbytes⟩

end Syscape.Wifi
