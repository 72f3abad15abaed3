import Syscape.HttpResponse
import Mathlib.Data.List.Infix

/-!
# HTTP responses as they are written

A response is a number of interim heads, the head of the final response, and the body,
which is either as long as the head says or split into chunks. All of it can be written
in many ways: letters of either case, leading zeros, blanks, extensions, trailers. The
parser returns the body, whatever way is taken.
-/
namespace Syscape.Http
open Checked Text FromChars Printer

section Lines

/-- The end of a line. -/
def crlf : List UInt8 := [0x0D, 0x0A]

/-- Bytes without the end of a line. -/
def NoCrlf (line : List UInt8) : Prop := ¬ crlf <:+: line

instance (line : List UInt8) : Decidable (NoCrlf line) := inferInstanceAs (Decidable (¬ _))

theorem NoCrlf.tail {c : UInt8} {line : List UInt8} (h : NoCrlf (c :: line)) : NoCrlf line :=
  fun hline => h (hline.trans (List.suffix_cons c line).isInfix)

variable {response : List UInt8}

/-- The search for the end of a line finds the end of the line that stands there. -/
theorem findCrlf_line {line : List UInt8} (h : NoCrlf line) {pre rest : List UInt8} {i : ℕ}
    (hi : i = pre.length) (hresponse : response = pre ++ line ++ crlf ++ rest) :
    ∃ e : LineEnd response i,
      findCrlf response i = .ok (some e) ∧ e.index = i + line.length := by
  induction line generalizing pre i with
  | nil =>
    have hbytes : response = pre ++ 0x0D :: 0x0A :: rest := by
      rw [hresponse]
      simp [crlf]
    have hlt : i + 1 < response.length := by
      rw [hbytes, hi]
      simp
    have h0 : (readByte response i : Result ℕ) = .ok 0x0D := by
      rw [hbytes, hi, readByte_append_length]
      rfl
    have h1 : (readByte response (i + 1) : Result ℕ) = .ok 0x0A := by
      rw [hbytes, hi, readByte_append_right]
      rfl
    refine ⟨⟨i, le_rfl, hlt⟩, ?_, rfl⟩
    rw [findCrlf, dif_pos hlt, h0, ok_bind, h1, ok_bind, if_pos ⟨rfl, rfl⟩]
  | cons c line ih =>
    -- the two bytes at this place are not the end of the line
    obtain ⟨d, more, hmore, hd⟩ : ∃ d more, line ++ crlf ++ rest = d :: more ∧
        ¬ (c = 0x0D ∧ d = 0x0A) := by
      cases line with
      | nil => exact ⟨0x0D, 0x0A :: rest, rfl, by simp⟩
      | cons d line =>
        refine ⟨d, line ++ crlf ++ rest, rfl, ?_⟩
        rintro ⟨hc, hd⟩
        exact h ⟨[], line, by simp [crlf, hc, hd]⟩
    have hbytes : response = pre ++ c :: d :: more := by
      rw [hresponse, ← hmore]
      simp
    have hlt : i + 1 < response.length := by
      rw [hbytes, hi]
      simp
    have h0 : (readByte response i : Result ℕ) = .ok c.toNat := by
      rw [hbytes, hi, readByte_append_length, readByte_cons_zero]
    have h1 : (readByte response (i + 1) : Result ℕ) = .ok d.toNat := by
      rw [hbytes, hi, readByte_append_right, readByte_cons_succ, readByte_cons_zero]
    have hne : ¬ (c.toNat = 0x0D ∧ d.toNat = 0x0A) := by
      rintro ⟨hc, hd'⟩
      exact hd ⟨UInt8.toNat_inj.mp hc, UInt8.toNat_inj.mp hd'⟩
    obtain ⟨e, he, hindex⟩ := @ih h.tail (pre ++ [c]) (i + 1) (by simp [hi]) (by simp [hresponse])
    refine ⟨⟨e.index, Nat.le_of_succ_le e.le, e.lt⟩, ?_, ?_⟩
    · rw [findCrlf, dif_pos hlt, h0, ok_bind, h1, ok_bind, if_neg hne, he]
      rfl
    · rw [hindex, List.length_cons]
      omega

/-- The line up to there is the line that stands there. -/
theorem slice_line {line pre rest : List UInt8} {i : ℕ} (hi : i = pre.length)
    (hresponse : response = pre ++ line ++ crlf ++ rest) {e : LineEnd response i}
    (hindex : e.index = i + line.length) :
    (slice response i (e.index - i) : Result (List UInt8)) = .ok line := by
  rw [hindex, Nat.add_sub_cancel_left, hresponse, hi, List.append_assoc _ crlf]
  exact slice_append pre line _

end Lines

section StatusLine

/-- The first line of a head. -/
structure StatusLine where
  scheme : List UInt8
  scheme_eq : scheme.map tolower = (ascii "HTTP/").map tolower
  version : List UInt8
  version_length : 3 ≤ version.length
  version_space : 0x20 ∉ version
  status : ℕ
  status_ge : 100 ≤ status
  status_le : status ≤ 599
  code : List UInt8
  code_numeral : Numeral 10 status code
  code_length : code.length = 3
  reason : List UInt8
  reason_space : ∀ c ∈ reason.head?, c = 0x20
  no_crlf : NoCrlf (scheme ++ version ++ 0x20 :: (code ++ reason))

def StatusLine.line (s : StatusLine) : List UInt8 :=
  s.scheme ++ s.version ++ 0x20 :: (s.code ++ s.reason)

theorem StatusLine.noCrlf_line (s : StatusLine) : NoCrlf s.line := s.no_crlf

theorem parseStatus_line (s : StatusLine) : parseStatus s.line = .ok s.status := by
  have hge := s.status_ge
  have hle := s.status_le
  have hscheme : s.scheme.length = 5 := by
    simpa [ascii] using congrArg List.length s.scheme_eq
  have hstart : startsWithIgnoreCase s.line (ascii "HTTP/") = true := by
    have hlit : (ascii "HTTP/").length = 5 := rfl
    have htake : s.line.take 5 = s.scheme := by
      rw [StatusLine.line, List.append_assoc, List.take_append_of_le_length (by omega),
        List.take_of_length_le (by omega)]
    rw [startsWithIgnoreCase, hlit, htake, if_neg (by simp [StatusLine.line]; omega)]
    exact (equalsIgnoreCase_iff _ _).mpr s.scheme_eq
  have hspace : 0x20 ∉ s.scheme ++ s.version := by
    intro h
    rcases List.mem_append.mp h with h | h
    · have hmem : tolower 0x20 ∈ s.scheme.map tolower := List.mem_map_of_mem h
      rw [s.scheme_eq] at hmem
      exact absurd hmem (by decide)
    · exact s.version_space h
  have hfind : findByte 0x20 s.line = some (s.scheme ++ s.version).length :=
    findByte_append hspace _
  have hlen : s.line.length = (s.scheme ++ s.version).length + 4 + s.reason.length := by
    simp [StatusLine.line, s.code_length]
    omega
  have hversion : 8 ≤ (s.scheme ++ s.version).length := by
    have := s.version_length
    simp
    omega
  have hcode : (s.line.drop ((s.scheme ++ s.version).length + 1)).take 3 = s.code := by
    rw [StatusLine.line, List.drop_append, List.drop_of_length_le (by omega), List.nil_append,
      Nat.add_sub_cancel_left, List.drop_succ_cons, List.drop_zero,
      List.take_append_of_le_length (by rw [s.code_length]),
      List.take_of_length_le (by rw [s.code_length])]
  have hparse : parseInt unsignedMax s.code 10 = some s.status := by
    have hmax : s.status ≤ unsignedMax := hle.trans (by decide)
    rw [parseInt_numeral s.code_numeral (by omega), if_pos hmax]
  rw [parseStatus, if_neg (by simp [hstart]; omega), hfind]
  simp only [hcode, hparse]
  rw [if_neg (by omega), if_neg (show ¬ (s.status < 100 ∨ s.status > 599) by omega)]
  -- what is behind the status is nothing, or begins with a space
  cases hreason : s.reason with
  | nil => rw [if_neg (by simp [hlen, hreason])]
  | cons c more =>
    obtain rfl : c = 0x20 := s.reason_space c (by simp [hreason])
    have hline : s.line = (s.scheme ++ s.version ++ 0x20 :: s.code) ++ 0x20 :: more := by
      simp [StatusLine.line, hreason]
    have hpos : (s.scheme ++ s.version ++ 0x20 :: s.code).length =
        (s.scheme ++ s.version).length + 4 := by
      simp [s.code_length]
      omega
    have hread : (readByte s.line ((s.scheme ++ s.version).length + 4) : Result ℕ) = .ok 0x20 := by
      rw [hline, ← hpos, readByte_append_length]
      rfl
    rw [if_pos (by simp [hlen, hreason]), hread, ok_bind, if_neg (by simp)]

end StatusLine

section HeaderFields

/-- A header field: a name, and a value between blanks. -/
structure HeaderField where
  name : List UInt8
  name_ne : name ≠ []
  name_visible : ∀ c ∈ name, isBlank c = false
  name_colon : 0x3A ∉ name
  front : List UInt8
  front_blank : ∀ c ∈ front, isBlank c = true
  value : List UInt8
  value_head : ∀ c ∈ value.head?, isBlank c = false
  value_last : ∀ c ∈ value.getLast?, isBlank c = false
  back : List UInt8
  back_blank : ∀ c ∈ back, isBlank c = true
  no_crlf : NoCrlf (name ++ 0x3A :: (front ++ value ++ back))

namespace HeaderField

def line (f : HeaderField) : List UInt8 := f.name ++ 0x3A :: (f.front ++ f.value ++ f.back)

theorem noCrlf_line (f : HeaderField) : NoCrlf f.line := f.no_crlf

/-- The field has the name, in letters of whatever case. -/
def Named (f : HeaderField) (name : List UInt8) : Prop := f.name.map tolower = name.map tolower

/-- A field that does not bear on the body. -/
def IsOther (f : HeaderField) : Prop :=
  ¬ f.Named (ascii "Content-Length") ∧ ¬ f.Named (ascii "Transfer-Encoding")

/-- A field that declares the length of the body. -/
def IsLength (n : ℕ) (f : HeaderField) : Prop :=
  f.Named (ascii "Content-Length") ∧ Numeral 10 n f.value

/-- A field that declares that the body is chunked. -/
def IsChunked (f : HeaderField) : Prop :=
  f.Named (ascii "Transfer-Encoding") ∧ f.value.map tolower = (ascii "chunked").map tolower

end HeaderField

variable (f : HeaderField) (framing : Framing)

/-- The parser takes the name and the value out of the line. -/
theorem headerField_line : headerField f.line framing = applyField f.name f.value framing := by
  have hname : trimWhitespace f.name = f.name := by
    unfold trimWhitespace
    rw [dropWhile_eq_self f.name_visible, rdropWhile_eq_self f.name_visible]
  have hvalue : trimWhitespace (f.front ++ f.value ++ f.back) = f.value :=
    trim_blanks f.front_blank f.back_blank f.value_head f.value_last
  have hfind : findByte 0x3A f.line = some f.name.length := findByte_append f.name_colon _
  have htake : f.line.take f.name.length = f.name := List.take_left
  have hdrop : f.line.drop (f.name.length + 1) = f.front ++ f.value ++ f.back := by
    rw [HeaderField.line, List.drop_append, List.drop_of_length_le (by omega), List.nil_append,
      Nat.add_sub_cancel_left, List.drop_succ_cons, List.drop_zero]
  rw [headerField, hfind]
  dsimp only
  rw [htake, hdrop, hname, hvalue, if_neg f.name_ne]

variable {f framing}

theorem applyField_other (h : f.IsOther) : applyField f.name f.value framing = .ok framing := by
  rw [applyField, if_neg (mt (equalsIgnoreCase_iff _ _).mp h.1),
    if_neg (mt (equalsIgnoreCase_iff _ _).mp h.2)]

/-- A length is taken over if it fits, and agrees with a length before it. -/
theorem applyField_length {n : ℕ} (h : f.IsLength n) :
    applyField f.name f.value framing =
      if n ≤ sizeMax ∧ (framing.contentLength = none ∨ framing.contentLength = some n) then
        .ok { framing with contentLength := some n }
      else fail .malformedData := by
  rw [applyField, if_pos ((equalsIgnoreCase_iff _ _).mpr h.1),
    parseInt_numeral h.2 (by omega)]
  by_cases hmax : n ≤ sizeMax
  · simp only [hmax, if_true, true_and]
    cases framing.contentLength with
    | none => simp
    | some m => by_cases hm : m = n <;> simp [hm]
  · simp [hmax]

theorem applyField_chunked (h : f.IsChunked) :
    applyField f.name f.value framing = .ok { framing with chunked := true } := by
  have hname := (equalsIgnoreCase_iff _ _).mpr h.1
  have hvalue := (equalsIgnoreCase_iff _ _).mpr h.2
  have hlength : ¬ equalsIgnoreCase f.name (ascii "Content-Length") = true := by
    rw [equalsIgnoreCase_iff, h.1]
    decide
  rw [applyField, if_neg hlength, if_pos hname, hvalue]
  rfl

end HeaderFields

section Heads
variable {response : List UInt8}

/-- The lines of some header fields. -/
def fieldLines (fields : List HeaderField) : List UInt8 := fields.flatMap fun f => f.line ++ crlf

/-- What all the fields together say about the body. -/
def applyFields (fields : List HeaderField) (framing : Framing) : Result Framing :=
  fields.foldlM (fun framing f => applyField f.name f.value framing) framing

theorem applyFields_cons (f : HeaderField) (fields : List HeaderField) (framing : Framing) :
    applyFields (f :: fields) framing =
      applyField f.name f.value framing >>= applyFields fields := List.foldlM_cons

/-- The loop over the header reads every field, and stops behind the empty line. -/
theorem headerLoop_fields (fields : List HeaderField) {pre rest : List UInt8} {i : ℕ}
    (hi : i = pre.length) (hresponse : response = pre ++ fieldLines fields ++ crlf ++ rest)
    (framing : Framing) (stop : Behind response i)
    (hstop : stop.index = i + (fieldLines fields).length + 2) :
    headerLoop response i framing =
      applyFields fields framing >>= fun framing => .ok (framing, stop) := by
  induction fields generalizing pre i framing with
  | nil =>
    obtain ⟨e, he, hindex⟩ := @findCrlf_line response [] (by decide) _ _ _ hi hresponse
    obtain ⟨index, hlt, hle⟩ := stop
    obtain rfl : index = i + 2 := hstop
    rw [headerLoop, he, ok_bind]
    exact dif_pos hindex
  | cons f fields ih =>
    have hline : response = pre ++ f.line ++ crlf ++ (fieldLines fields ++ crlf ++ rest) := by
      rw [hresponse]
      simp [fieldLines]
    have hnext : response = (pre ++ f.line ++ crlf) ++ fieldLines fields ++ crlf ++ rest := by
      rw [hline]
      simp
    obtain ⟨e, he, hindex⟩ := findCrlf_line f.noCrlf_line hi hline
    have hslice := slice_line hi hline hindex
    have hne : ¬ e.index = i := by
      have hpos : 0 < f.line.length := by simp [HeaderField.line]
      omega
    have hi' : e.index + 2 = (pre ++ f.line ++ crlf).length := by
      rw [hindex, hi]
      simp [crlf]
      omega
    have hstop' : stop.index = e.index + 2 + (fieldLines fields).length + 2 := by
      rw [hstop, hindex]
      simp [fieldLines, crlf]
      omega
    have hrest := fun framing => ih hi' hnext framing ⟨stop.index, by omega, stop.le⟩ hstop'
    rw [headerLoop, he, ok_bind]
    dsimp only
    rw [dif_neg hne, hslice, ok_bind, headerField_line, applyFields_cons]
    cases applyField f.name f.value framing with
    | error e => rfl
    | ok framing' =>
      rw [ok_bind, ok_bind, hrest]
      cases applyFields fields framing' with
      | error e => rfl
      | ok framing'' => rfl

/-- The head of a response. -/
structure Head where
  statusLine : StatusLine
  fields : List HeaderField

def Head.bytes (h : Head) : List UInt8 :=
  h.statusLine.line ++ crlf ++ fieldLines h.fields ++ crlf

/-- The step of the loop over the messages at a head. -/
theorem messageLoop_head (h : Head) {pre rest : List UInt8} {i : ℕ} (hi : i = pre.length)
    (hresponse : response = pre ++ h.bytes ++ rest) :
    messageLoop response i = applyFields h.fields ⟨false, none⟩ >>= fun framing =>
      if 100 ≤ h.statusLine.status ∧ h.statusLine.status < 200 then
        if framing.chunked ∨ framing.contentLength.any (· ≠ 0) then fail .malformedData
        else if i + h.bytes.length ≥ response.length then fail .malformedData
        else messageLoop response (i + h.bytes.length)
      else
        match statusError h.statusLine.status with
        | some e => fail e
        | none => responseBody response (i + h.bytes.length) framing := by
  have hline : response =
      pre ++ h.statusLine.line ++ crlf ++ (fieldLines h.fields ++ crlf ++ rest) := by
    rw [hresponse]
    simp [Head.bytes]
  have hfields : response =
      (pre ++ h.statusLine.line ++ crlf) ++ fieldLines h.fields ++ crlf ++ rest := by
    rw [hline]
    simp
  obtain ⟨e, he, hindex⟩ := findCrlf_line h.statusLine.noCrlf_line hi hline
  have hslice := slice_line hi hline hindex
  have hi' : e.index + 2 = (pre ++ h.statusLine.line ++ crlf).length := by
    rw [hindex, hi]
    simp [crlf]
    omega
  have hbytes : i + h.bytes.length = e.index + 2 + (fieldLines h.fields).length + 2 := by
    rw [hindex]
    simp [Head.bytes, crlf]
    omega
  have hle : i + h.bytes.length ≤ response.length := by
    rw [hresponse, hi]
    simp
  have hloop := headerLoop_fields h.fields hi' hfields ⟨false, none⟩
    ⟨i + h.bytes.length, by omega, hle⟩ hbytes
  rw [messageLoop, he, ok_bind]
  dsimp only
  rw [hslice, ok_bind, parseStatus_line, ok_bind, hloop]
  cases applyFields h.fields ⟨false, none⟩ with
  | error e => rfl
  | ok framing => rfl

end Heads

end Syscape.Http
