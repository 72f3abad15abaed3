import Syscape.AudioCards
import Syscape.LinuxFile
import Syscape.Printer

/-!
# Streams of the sound cards

ALSA lists its PCM devices in `/proc/asound/pcm`, one line each: card and device, identifier,
name, and the streams that there are. The reader searches the whole line for the words
`playback` and `capture`.
-/
namespace Syscape.Audio
open Checked Text Lines Paths Digits FromChars Numerals Numbers Utf8 LinuxFile
open Syscape.Printer (tolower)

section Source

/-- `alsa_pcm_info`. -/
structure AlsaPcmInfo where
  cardIndex : ℕ := 0
  deviceIndex : ℕ := 0
  id : List UInt8 := []
  name : List UInt8 := []
  hasPlayback : Bool := false
  hasCapture : Bool := false
  deriving DecidableEq, Repr

/-- `contains_ignore_case`. -/
def containsIgnoreCase (text needle : List UInt8) : Bool :=
  if needle = [] then true
  else if text.length < needle.length then false
  else
    (List.range (text.length - needle.length + 1)).any fun i =>
      (List.range needle.length).all fun j =>
        tolower (text.getD (i + j) 0) == tolower (needle.getD j 0)

/-- The flags for the words that a part of the line has. -/
def addFlags (text : List UInt8) (pcm : AlsaPcmInfo) : AlsaPcmInfo :=
  { pcm with
    hasPlayback := pcm.hasPlayback || containsIgnoreCase text (ascii "playback")
    hasCapture := pcm.hasCapture || containsIgnoreCase text (ascii "capture") }

/-- The part of `parse_proc_asound_pcm` behind the first colon. -/
def readTexts (rest : List UInt8) (pcm : AlsaPcmInfo) : AlsaPcmInfo :=
  match rest.idxOf? 0x3A with
  | none => addFlags rest { pcm with id := trimWhitespace rest, name := trimWhitespace rest }
  | some colon2 =>
    let rest2 := rest.drop (colon2 + 1)
    match rest2.idxOf? 0x3A with
    | none =>
      addFlags rest2
        { pcm with id := trimWhitespace (rest.take colon2), name := trimWhitespace rest2 }
    | some colon3 =>
      addFlags (rest2.drop (colon3 + 1))
        { pcm with id := trimWhitespace (rest.take colon2)
                   name := trimWhitespace (rest2.take colon3) }

/-- One round of the loop of `parse_proc_asound_pcm`. -/
def parsePcmLine (line : List UInt8) : Result (Option AlsaPcmInfo) :=
  let trimmed := trimWhitespace line
  if trimmed = [] then .ok none
  else
    match trimmed.idxOf? 0x3A with
    | none => .ok none
    | some colon1 =>
      let numPart := trimWhitespace (trimmed.take colon1)
      match numPart.idxOf? 0x2D with
      | none => .ok none
      | some dash =>
        match parseU32 (numPart.take dash), parseU32 (numPart.drop (dash + 1)) with
        | .ok cardIndex, .ok deviceIndex => do
          let pcm := addFlags trimmed
            (readTexts (trimmed.drop (colon1 + 1)) { cardIndex, deviceIndex })
          requireUtf8 [pcm.id, pcm.name]
          .ok (some pcm)
        | _, _ => fail .malformedData

/-- `parse_proc_asound_pcm`. -/
def parseProcAsoundPcm (content : List UInt8) : Result (List AlsaPcmInfo) := do
  let pcms ← (lines 0x0A content).mapM parsePcmLine
  .ok (pcms.filterMap id)

/-- `audio_device_direction`. -/
inductive AudioDeviceDirection where
  | unknown
  | playback
  | capture
  | duplex
  deriving DecidableEq, Repr

/-- `audio_device_state`. -/
inductive AudioDeviceState where
  | unknown
  | active
  | disabled
  | unplugged
  | notPresent
  deriving DecidableEq, Repr

/-- The part of `audio_device` that Linux fills in. -/
structure AudioDevice where
  id : List UInt8
  name : List UInt8
  direction : AudioDeviceDirection := .unknown
  state : AudioDeviceState := .unknown
  cardName : Option (List UInt8) := none
  driverName : Option (List UInt8) := none
  deriving DecidableEq, Repr

def directionOf (hasPlayback hasCapture : Bool) : AudioDeviceDirection :=
  if hasPlayback && hasCapture then .duplex
  else if hasPlayback then .playback
  else if hasCapture then .capture
  else .unknown

/-- One round of the loop of `collect_devices`; of cards with one index the first counts. -/
def audioDevice (cards : List AlsaCardInfo) (pcm : AlsaPcmInfo) : AudioDevice :=
  let card := cards.find? fun card => card.index == pcm.cardIndex
  { id := ascii "hw:" ++ decimal pcm.cardIndex ++ ascii "," ++ decimal pcm.deviceIndex
    name := if pcm.name = [] then pcm.id else pcm.name
    direction := directionOf pcm.hasPlayback pcm.hasCapture
    cardName := card.bind fun card =>
      [card.shortName, card.longName, card.id].find? fun name => name ≠ []
    driverName := card.bind fun card => if card.driver = [] then none else some card.driver }

/-- `collect_devices`; the system may have a directory `/sys/class/sound`. -/
def collectDevices (fs : FileSystem) (soundClass : Bool) : Result (List AudioDevice) :=
  match readTextFile fs (ascii "/proc/asound/cards") (1024 * 1024) with
  | .error e =>
    if e ≠ .fail (.generic enoent) then .error e
    else if ¬ soundClass then fail .notSupported
    else .ok []
  | .ok cardsContent => do
    let cards ← parseProcAsoundCards cardsContent
    match readTextFile fs (ascii "/proc/asound/pcm") (1024 * 1024) with
    | .error e => if e = .fail (.generic enoent) then .ok [] else .error e
    | .ok pcmContent => do
      let pcms ← parseProcAsoundPcm pcmContent
      .ok (pcms.map (audioDevice cards))

end Source

section Kernel

/-- A text of one line without a colon, otherwise any valid UTF-8. -/
structure PcmText where
  text : List UInt8
  line : 0x0A ∉ text
  colon : 0x3A ∉ text
  utf8 : ValidUtf8 text

/-- A PCM device, with the counts of the streams that it has. -/
structure PcmDevice where
  card : UInt32
  device : UInt32
  identifier : PcmText
  name : PcmText
  playback : Option UInt32
  capture : Option UInt32

namespace PcmDevice

/-- A number of two digits at least. -/
def zeroPadded (n : ℕ) : List UInt8 := (decimal n).leftpad 2 0x30

/-- The part of a line that lists a stream. -/
def streamText (word : List UInt8) (count : Option UInt32) : List UInt8 :=
  match count with
  | none => []
  | some n => ascii " : " ++ word ++ [0x20] ++ decimal n.toNat

def streamsText (d : PcmDevice) : List UInt8 :=
  streamText (ascii "playback") d.playback ++ streamText (ascii "capture") d.capture

/-- The line of a device, without the newline. -/
def line (d : PcmDevice) : List UInt8 :=
  zeroPadded d.card.toNat ++ ascii "-" ++ zeroPadded d.device.toNat ++ ascii ": " ++
    d.identifier.text ++ ascii " : " ++ d.name.text ++ d.streamsText

/-- What should be read of a device. -/
def info (d : PcmDevice) : AlsaPcmInfo where
  cardIndex := d.card.toNat
  deviceIndex := d.device.toNat
  id := trimWhitespace d.identifier.text
  name := trimWhitespace d.name.text
  hasPlayback := d.playback.isSome
  hasCapture := d.capture.isSome

/-- One of the two texts has the word. -/
def mentions (d : PcmDevice) (word : List UInt8) : Bool :=
  containsIgnoreCase d.identifier.text word || containsIgnoreCase d.name.text word

end PcmDevice

/-- `/proc/asound/pcm`. -/
def procPcm (devices : List PcmDevice) : List UInt8 :=
  devices.flatMap fun d => d.line ++ [0x0A]

end Kernel

section Search

theorem containsIgnoreCase_iff (text needle : List UInt8) :
    containsIgnoreCase text needle = true ↔ needle.map tolower <:+: text.map tolower := by
  unfold containsIgnoreCase
  split_ifs with hnil hshort
  · simp [hnil]
  · refine iff_of_false (by simp) ?_
    intro hinfix
    have hle := hinfix.length_le
    rw [List.length_map, List.length_map] at hle
    omega
  · rw [List.infix_iff_getElem?]
    simp only [List.any_eq_true, List.all_eq_true, List.mem_range, beq_iff_eq, List.length_map,
      List.getElem?_map, List.getElem_map, Option.map_eq_some_iff]
    constructor
    · intro ⟨k, hk, hmatch⟩
      refine ⟨k, by omega, ?_⟩
      intro j hj
      have hin : k + j < text.length := by omega
      have heq := hmatch j hj
      rw [List.getD_eq_getElem _ _ hin, List.getD_eq_getElem _ _ hj] at heq
      exact ⟨text[k + j], by rw [Nat.add_comm j k, List.getElem?_eq_getElem hin], heq⟩
    · intro ⟨k, hk, hmatch⟩
      refine ⟨k, by omega, ?_⟩
      intro j hj
      obtain ⟨c, hc, heq⟩ := hmatch j hj
      rw [List.getD_eq_getElem?_getD, Nat.add_comm k j, hc, Option.getD_some,
        List.getD_eq_getElem _ _ hj, heq]

theorem containsIgnoreCase_of_infix {part text needle : List UInt8} (h : part <:+: text)
    (hpart : containsIgnoreCase part needle = true) : containsIgnoreCase text needle = true := by
  rw [containsIgnoreCase_iff] at hpart ⊢
  exact hpart.trans (h.map tolower)

theorem tolower_of_lt {c : UInt8} (h : c < 0x41) : tolower c = c :=
  if_neg fun hc => absurd hc.1 (UInt8.not_le.mpr h)

/-- A word of small letters. -/
def IsWord (needle : List UInt8) : Prop := needle ≠ [] ∧ ∀ c ∈ needle, 0x61 ≤ c ∧ c ≤ 0x7A

variable {needle : List UInt8}

theorem IsWord.not_mem (h : IsWord needle) {sep : UInt8} (hsep : sep < 0x41) :
    tolower sep ∉ needle.map tolower := by
  rw [tolower_of_lt hsep, List.mem_map]
  intro ⟨c, hc, heq⟩
  have hlow : 0x61 ≤ c.toNat := (h.2 c hc).1
  have hself : tolower c = c := by
    refine if_neg fun hupper => ?_
    have hle : c.toNat ≤ 0x5A := hupper.2
    omega
  have hlt : sep.toNat < 0x41 := hsep
  rw [hself] at heq
  rw [heq] at hlow
  omega

/-- A word stands on one side of every byte that is no letter. -/
theorem IsWord.contains_append_cons (h : IsWord needle) {sep : UInt8} (hsep : sep < 0x41)
    (a b : List UInt8) : containsIgnoreCase (a ++ sep :: b) needle =
      (containsIgnoreCase a needle || containsIgnoreCase b needle) := by
  rw [Bool.eq_iff_iff, Bool.or_eq_true, containsIgnoreCase_iff, containsIgnoreCase_iff,
    containsIgnoreCase_iff, List.map_append, List.map_cons,
    infix_append_cons_iff (h.not_mem hsep)]

theorem IsWord.contains_nil (h : IsWord needle) : containsIgnoreCase [] needle = false := by
  rw [Bool.eq_false_iff, ne_eq, containsIgnoreCase_iff, List.map_nil, List.infix_nil,
    List.map_eq_nil_iff]
  exact h.1

theorem IsWord.contains_cons (h : IsWord needle) {sep : UInt8} (hsep : sep < 0x41)
    (b : List UInt8) : containsIgnoreCase (sep :: b) needle = containsIgnoreCase b needle := by
  have hsplit := h.contains_append_cons hsep [] b
  rwa [h.contains_nil, Bool.false_or] at hsplit

/-- A word stands in one of two texts when the second does not begin with a letter. -/
theorem IsWord.contains_append_of_head (h : IsWord needle) (a : List UInt8) {b : List UInt8}
    (hb : ∀ c ∈ b.head?, c < 0x41) : containsIgnoreCase (a ++ b) needle =
      (containsIgnoreCase a needle || containsIgnoreCase b needle) := by
  cases b with
  | nil => rw [List.append_nil, h.contains_nil, Bool.or_false]
  | cons c b => rw [h.contains_append_cons (hb c rfl), h.contains_cons (hb c rfl)]

/-- Bytes that are no letters add no word. -/
theorem IsWord.contains_append (h : IsWord needle) {marks : List UInt8}
    (hmarks : ∀ c ∈ marks, c < 0x41) (a : List UInt8) :
    containsIgnoreCase (a ++ marks) needle = containsIgnoreCase a needle := by
  induction marks using List.reverseRecOn with
  | nil => rw [List.append_nil]
  | append_singleton marks c ih =>
    rw [List.forall_mem_append] at hmarks
    rw [← List.append_assoc, h.contains_append_cons (hmarks.2 c (by simp)), h.contains_nil,
      Bool.or_false, ih hmarks.1]

theorem IsWord.contains_marks (h : IsWord needle) {marks : List UInt8}
    (hmarks : ∀ c ∈ marks, c < 0x41) : containsIgnoreCase marks needle = false := by
  rw [← List.nil_append marks, h.contains_append hmarks, h.contains_nil]

end Search

section Reading
variable (d : PcmDevice)

namespace PcmDevice

/-- Card and device, in front of the first colon. -/
def numText (d : PcmDevice) : List UInt8 :=
  zeroPadded d.card.toNat ++ 0x2D :: zeroPadded d.device.toNat

/-- The identifier with its blanks. -/
def idText (d : PcmDevice) : List UInt8 := 0x20 :: d.identifier.text ++ [0x20]

/-- What is read of a device, whether it has the streams or not. -/
def read (d : PcmDevice) : AlsaPcmInfo where
  cardIndex := d.card.toNat
  deviceIndex := d.device.toNat
  id := trimWhitespace d.identifier.text
  name := trimWhitespace d.name.text
  hasPlayback := d.playback.isSome || d.mentions (ascii "playback")
  hasCapture := d.capture.isSome || d.mentions (ascii "capture")

end PcmDevice

open PcmDevice

theorem mem_zeroPadded {c : UInt8} {n : ℕ} (h : c ∈ zeroPadded n) : 0x30 ≤ c.toNat ∧ c.toNat ≤ 0x39 := by
  rw [zeroPadded, List.leftpad, List.mem_append] at h
  obtain h | h := h
  · rw [List.eq_of_mem_replicate h]
    decide
  · exact mem_decimal h

theorem zeroPadded_ne_nil (n : ℕ) : zeroPadded n ≠ [] := by
  rw [zeroPadded, List.leftpad]
  exact List.append_ne_nil_of_right_ne_nil _ (decimal_ne_nil n)

theorem mem_numText {c : UInt8} (h : c ∈ d.numText) : 0x2D ≤ c.toNat ∧ c.toNat ≤ 0x39 := by
  rw [numText, List.mem_append, List.mem_cons] at h
  obtain h | rfl | h := h
  · have hrange := mem_zeroPadded h
    omega
  · decide
  · have hrange := mem_zeroPadded h
    omega

theorem numText_blank {c : UInt8} (h : c ∈ d.numText) : isBlank c = false := by
  have hrange := (mem_numText d h).1
  rw [isBlank, decide_eq_false_iff_not]
  intro hle
  have hblank : c.toNat ≤ 0x20 := hle
  omega

theorem parseU32_zeroPadded (n : UInt32) : parseU32 (zeroPadded n.toNat) = .ok n.toNat := by
  have hblank : ∀ c ∈ zeroPadded n.toNat, isBlank c = false :=
    fun c hc => isBlank_eq_false (mem_zeroPadded hc).1
  have hnumeral : Numeral 10 n.toNat (zeroPadded n.toNat) :=
    numeral_zeros (numeral_decimal n.toNat) (by decide) _
  rw [parseU32, trimWhitespace, dropWhile_eq_self hblank, rdropWhile_eq_self hblank,
    wholeUnsigned_numeral hnumeral (le_uint32Max n.toNat_lt)]

theorem line_eq : d.line =
    d.numText ++ 0x3A :: (d.idText ++ 0x3A :: (0x20 :: d.name.text ++ d.streamsText)) := by
  have hdash : ascii "-" = [0x2D] := rfl
  have hcolon : ascii ": " = [0x3A, 0x20] := rfl
  have hsep : ascii " : " = [0x20, 0x3A, 0x20] := rfl
  simp only [line, numText, idText, hdash, hcolon, hsep, List.append_assoc, List.cons_append,
    List.nil_append]

/-- The line, cut at its end only. -/
theorem trimWhitespace_line : ∃ more back,
    trimWhitespace d.line = d.numText ++ 0x3A :: (d.idText ++ 0x3A :: more) ∧
    0x20 :: d.name.text ++ d.streamsText = more ++ back ∧ (∀ c ∈ back, isBlank c = true) ∧
      ∀ c ∈ more.getLast?, isBlank c = false := by
  obtain ⟨more, back, htext, hback, hmore⟩ := exists_trimmed isBlank
    (0x20 :: d.name.text ++ d.streamsText)
  refine ⟨more, back, ?_, htext, hback, hmore⟩
  have hline : d.line =
      [] ++ (d.numText ++ 0x3A :: (d.idText ++ 0x3A :: more)) ++ back := by
    rw [line_eq, htext]
    simp
  rw [hline]
  refine trim_blanks (by simp) hback ?_ ?_
  · have hne : d.numText ≠ [] := List.append_ne_nil_of_left_ne_nil (zeroPadded_ne_nil _) _
    rw [List.head?_append_of_ne_nil _ hne]
    exact fun c hc => numText_blank d (List.mem_of_mem_head? hc)
  · rw [List.append_cons, ← List.append_assoc, List.append_cons]
    by_cases hnil : more = []
    · rw [hnil, List.append_nil, List.getLast?_concat]
      exact fun c hc => Option.mem_some.mp hc ▸ rfl
    · rwa [List.getLast?_append_of_ne_nil _ hnil]

theorem trimWhitespace_blank_cons (text : List UInt8) :
    trimWhitespace (0x20 :: text) = trimWhitespace text := by
  rw [trimWhitespace, List.dropWhile_cons_of_pos rfl]
  rfl

theorem trimWhitespace_concat_blank (text : List UInt8) :
    trimWhitespace (text ++ [0x20]) = trimWhitespace text :=
  trim_append_blanks (by simp [isBlank])

/-- A list of streams begins with a blank and a colon, and ends in a digit. -/
theorem streamsText_cases : d.streamsText = [] ∨ ∃ tail, d.streamsText = 0x20 :: 0x3A :: tail ∧
    ∀ c ∈ d.streamsText.getLast?, isBlank c = false := by
  have hlast (text : List UInt8) (n : ℕ) : ∀ c ∈ (text ++ decimal n).getLast?, isBlank c = false := by
    rw [List.getLast?_append_of_ne_nil _ (decimal_ne_nil n)]
    exact fun c hc => isBlank_of_mem_decimal c (List.mem_of_mem_getLast? hc)
  rw [streamsText]
  cases d.playback with
  | none =>
    cases d.capture with
    | none => exact .inl rfl
    | some m => exact .inr ⟨_, rfl, hlast _ _⟩
  | some n =>
    cases d.capture with
    | none =>
      rw [streamText, streamText, List.append_nil]
      exact .inr ⟨_, rfl, hlast _ _⟩
    | some m =>
      rw [streamText, streamText, ← List.append_assoc]
      exact .inr ⟨_, rfl, hlast _ _⟩

/-- Identifier and name are found, and some part behind them is searched. -/
theorem readTexts_eq {more back : List UInt8}
    (htext : 0x20 :: d.name.text ++ d.streamsText = more ++ back)
    (hback : ∀ c ∈ back, isBlank c = true) (pcm : AlsaPcmInfo) :
    ∃ part, part <:+: d.idText ++ 0x3A :: more ∧
      readTexts (d.idText ++ 0x3A :: more) pcm =
        addFlags part { pcm with id := trimWhitespace d.identifier.text
                                 name := trimWhitespace d.name.text } := by
  have hid : 0x3A ∉ d.idText := by simp [idText, d.identifier.colon]
  have hidText : trimWhitespace d.idText = trimWhitespace d.identifier.text := by
    rw [idText, trimWhitespace_concat_blank, trimWhitespace_blank_cons]
  have hbehind : (d.idText ++ 0x3A :: more).drop (d.idText.length + 1) = more := by
    rw [← List.drop_drop, List.drop_left, List.drop_one, List.tail_cons]
  have hmore : more <:+: d.idText ++ 0x3A :: more :=
    ((List.suffix_cons _ _).trans (List.suffix_append _ _)).isInfix
  unfold readTexts
  rw [idxOf?_append_cons hid]
  dsimp only
  rw [hbehind, List.take_left, hidText]
  obtain hnone | ⟨tail, htail, hlast⟩ := streamsText_cases d
  · rw [hnone, List.append_nil] at htext
    have hcolon : 0x3A ∉ more := by
      intro hmem
      have hname : 0x3A ∈ 0x20 :: d.name.text := by simp [htext, hmem]
      simp [d.name.colon] at hname
    have hname : trimWhitespace more = trimWhitespace d.name.text := by
      rw [← trimWhitespace_blank_cons d.name.text, htext]
      exact (trim_append_blanks hback).symm
    rw [List.idxOf?_eq_none_iff.mpr hcolon, hname]
    exact ⟨more, hmore, rfl⟩
  · have hnil : back = [] := by
      by_contra hne
      have hend : (0x20 :: d.name.text ++ d.streamsText).getLast? = back.getLast? := by
        rw [htext, List.getLast?_append_of_ne_nil _ hne]
      rw [List.getLast?_append_of_ne_nil _ (by simp [htail])] at hend
      have hblank := hback _ (List.getLast_mem hne)
      rw [hlast _ (hend.trans (List.getLast?_eq_some_getLast hne))] at hblank
      cases hblank
    have hcut : more = (0x20 :: d.name.text ++ [0x20]) ++ 0x3A :: tail := by
      rw [hnil, List.append_nil] at htext
      rw [← htext, htail]
      simp
    have hcolon : 0x3A ∉ 0x20 :: d.name.text ++ [0x20] := by simp [d.name.colon]
    have htail_drop : more.drop ((0x20 :: d.name.text ++ [0x20]).length + 1) = tail := by
      rw [hcut, ← List.drop_drop, List.drop_left, List.drop_one, List.tail_cons]
    have hname : trimWhitespace (more.take (0x20 :: d.name.text ++ [0x20]).length) =
        trimWhitespace d.name.text := by
      rw [hcut, List.take_left, List.cons_append, trimWhitespace_blank_cons,
        trimWhitespace_concat_blank]
    have hindex : more.idxOf? 0x3A = some (0x20 :: d.name.text ++ [0x20]).length := by
      rw [hcut, idxOf?_append_cons hcolon]
    rw [hindex]
    dsimp only
    rw [htail_drop, hname]
    refine ⟨tail, List.IsInfix.trans ?_ hmore, rfl⟩
    rw [hcut]
    exact ((List.suffix_cons _ _).trans (List.suffix_append _ _)).isInfix

/-- The searched part of a line is in the line, which is searched as a whole afterwards. -/
theorem addFlags_addFlags {part text : List UInt8} (h : part <:+: text) {pcm : AlsaPcmInfo}
    (hplayback : pcm.hasPlayback = false) (hcapture : pcm.hasCapture = false) :
    addFlags text (addFlags part pcm) = addFlags text pcm := by
  have hword (word : List UInt8) :
      (containsIgnoreCase part word || containsIgnoreCase text word) =
        containsIgnoreCase text word := by
    rw [Bool.or_eq_right_iff_imp]
    exact containsIgnoreCase_of_infix h
  rw [addFlags, addFlags, addFlags, hplayback, hcapture]
  simp only [Bool.false_or, hword]

theorem isWord_playback : IsWord (ascii "playback") :=
  ⟨by decide, forall_of_all (by decide)⟩

theorem isWord_capture : IsWord (ascii "capture") :=
  ⟨by decide, forall_of_all (by decide)⟩

theorem decimal_lt {c : UInt8} {n : ℕ} (h : c ∈ decimal n) : c < 0x41 := by
  have hle := (mem_decimal h).2
  show c.toNat < 0x41
  omega

theorem head?_streamText (word : List UInt8) (count : Option UInt32) :
    ∀ c ∈ (streamText word count).head?, c < 0x41 := by
  cases count with
  | none => simp [streamText]
  | some n =>
    intro c hc
    cases hc
    decide

/-- The only word of a stream is its own. -/
theorem contains_streamText {needle : List UInt8} (h : IsWord needle) (word : List UInt8)
    (count : Option UInt32) : containsIgnoreCase (streamText word count) needle =
      (count.isSome && containsIgnoreCase word needle) := by
  cases count with
  | none => exact h.contains_nil
  | some n =>
    have hsep : ascii " : " = [0x20, 0x3A, 0x20] := rfl
    rw [streamText, hsep, h.contains_append fun c hc => decimal_lt hc,
      h.contains_append (by simp), List.cons_append, List.cons_append, List.cons_append,
      List.nil_append, h.contains_cons (by decide), h.contains_cons (by decide),
      h.contains_cons (by decide)]
    rfl

theorem contains_streamsText {needle : List UInt8} (h : IsWord needle) :
    containsIgnoreCase d.streamsText needle =
      (d.playback.isSome && containsIgnoreCase (ascii "playback") needle ||
        d.capture.isSome && containsIgnoreCase (ascii "capture") needle) := by
  rw [streamsText, h.contains_append_of_head _ (head?_streamText _ _), contains_streamText h,
    contains_streamText h]

/-- A word is in the line when one of the texts has it, or the list of the streams. -/
theorem contains_line {needle more back : List UInt8} (h : IsWord needle)
    (htext : 0x20 :: d.name.text ++ d.streamsText = more ++ back)
    (hback : ∀ c ∈ back, isBlank c = true) :
    containsIgnoreCase (d.numText ++ 0x3A :: (d.idText ++ 0x3A :: more)) needle =
      (containsIgnoreCase d.streamsText needle || d.mentions needle) := by
  have hnum : containsIgnoreCase d.numText needle = false := by
    apply h.contains_marks
    intro c hc
    have hle := (mem_numText d hc).2
    show c.toNat < 0x41
    omega
  have hid : containsIgnoreCase d.idText needle = containsIgnoreCase d.identifier.text needle := by
    rw [idText, h.contains_append (by simp), h.contains_cons (by decide)]
  have hhead : ∀ c ∈ d.streamsText.head?, c < 0x41 := by
    obtain hnil | ⟨tail, htail, _⟩ := streamsText_cases d
    · simp [hnil]
    · simp [htail]
  have hmore : containsIgnoreCase more needle =
      (containsIgnoreCase d.name.text needle || containsIgnoreCase d.streamsText needle) := by
    have hblank : ∀ c ∈ back, c < 0x41 := by
      intro c hc
      have hle : c.toNat ≤ 0x20 := of_decide_eq_true (hback c hc)
      show c.toNat < 0x41
      omega
    rw [← h.contains_append hblank, ← htext, List.cons_append, h.contains_cons (by decide),
      h.contains_append_of_head _ hhead]
  rw [h.contains_append_cons (by decide), h.contains_append_cons (by decide), hnum, hid, hmore,
    mentions, Bool.false_or, ← Bool.or_assoc, Bool.or_comm]

theorem validUtf8_trimWhitespace {text : List UInt8} (h : ValidUtf8 text) :
    ValidUtf8 (trimWhitespace text) := by
  obtain ⟨front, back, htext, hfront, hback⟩ := exists_trim isBlank text
  have hascii {blanks : List UInt8} (hblanks : ∀ c ∈ blanks, isBlank c = true) :
      ∀ c ∈ blanks, c < 0x80 := by
    intro c hc
    have hle : c.toNat ≤ 0x20 := of_decide_eq_true (hblanks c hc)
    show c.toNat < 0x80
    omega
  rw [htext] at h
  exact (h.of_append_ascii (hascii hback)).of_ascii_append (hascii hfront)

/-- What is read of a line. -/
theorem parsePcmLine_line : parsePcmLine d.line = .ok (some d.read) := by
  obtain ⟨more, back, htrim, htext, hback, _⟩ := trimWhitespace_line d
  have hcolon : 0x3A ∉ d.numText := by
    intro hmem
    exact absurd (mem_numText d hmem).2 (by decide)
  have hnum : trimWhitespace d.numText = d.numText := by
    rw [trimWhitespace, dropWhile_eq_self fun c hc => numText_blank d hc,
      rdropWhile_eq_self fun c hc => numText_blank d hc]
  have hdash : 0x2D ∉ zeroPadded d.card.toNat := by
    intro hmem
    exact absurd (mem_zeroPadded hmem).1 (by decide)
  have hplayback := contains_line d isWord_playback htext hback
  have hcapture := contains_line d isWord_capture htext hback
  rw [contains_streamsText d isWord_playback] at hplayback
  rw [contains_streamsText d isWord_capture] at hcapture
  have hwords : containsIgnoreCase (ascii "playback") (ascii "playback") = true ∧
      containsIgnoreCase (ascii "capture") (ascii "playback") = false ∧
      containsIgnoreCase (ascii "playback") (ascii "capture") = false ∧
      containsIgnoreCase (ascii "capture") (ascii "capture") = true := by decide
  obtain ⟨hpp, hcp, hpc, hcc⟩ := hwords
  rw [hpp, hcp, Bool.and_true, Bool.and_false, Bool.or_false] at hplayback
  rw [hpc, hcc, Bool.and_true, Bool.and_false, Bool.false_or] at hcapture
  have hbehind : (d.numText ++ 0x3A :: (d.idText ++ 0x3A :: more)).drop (d.numText.length + 1) =
      d.idText ++ 0x3A :: more := by
    rw [← List.drop_drop, List.drop_left, List.drop_one, List.tail_cons]
  have hdevice : d.numText.drop ((zeroPadded d.card.toNat).length + 1) =
      zeroPadded d.device.toNat := by
    rw [numText, ← List.drop_drop, List.drop_left, List.drop_one, List.tail_cons]
  have hcard : d.numText.take (zeroPadded d.card.toNat).length = zeroPadded d.card.toNat := by
    rw [numText, List.take_left]
  have hindex : d.numText.idxOf? 0x2D = some (zeroPadded d.card.toNat).length :=
    idxOf?_append_cons hdash _
  obtain ⟨part, hpart, hread⟩ := readTexts_eq d htext hback
    { cardIndex := d.card.toNat, deviceIndex := d.device.toNat }
  have hinfix : part <:+: d.numText ++ 0x3A :: (d.idText ++ 0x3A :: more) :=
    hpart.trans ((List.suffix_cons _ _).trans (List.suffix_append _ _)).isInfix
  have hpcm := @addFlags_addFlags _ _ hinfix
    { cardIndex := d.card.toNat
      deviceIndex := d.device.toNat
      id := trimWhitespace d.identifier.text
      name := trimWhitespace d.name.text } rfl rfl
  have hutf8 : ∀ text ∈ [trimWhitespace d.identifier.text, trimWhitespace d.name.text],
      ValidUtf8 text := by
    simp [validUtf8_trimWhitespace d.identifier.utf8, validUtf8_trimWhitespace d.name.utf8]
  unfold parsePcmLine
  dsimp only
  rw [htrim, if_neg (by simp), idxOf?_append_cons hcolon]
  dsimp only
  rw [List.take_left, hnum, hindex]
  dsimp only
  rw [hcard, hdevice, parseU32_zeroPadded, parseU32_zeroPadded]
  dsimp only
  rw [hbehind, hread, hpcm]
  simp only [addFlags, hplayback, hcapture, requireUtf8_eq, if_pos hutf8, ok_bind, Bool.false_or,
    PcmDevice.read]

theorem line_newline : 0x0A ∉ d.line := by
  have hstream (word : List UInt8) (hword : 0x0A ∉ word) (count : Option UInt32) :
      0x0A ∉ streamText word count := by
    cases count with
    | none => simp [streamText]
    | some n =>
      rw [streamText, List.mem_append, List.mem_append, List.mem_append, not_or, not_or, not_or]
      exact ⟨⟨⟨by decide, hword⟩, by decide⟩, not_mem_decimal (by decide) _⟩
  have hnum : 0x0A ∉ d.numText := by
    intro hmem
    exact absurd (mem_numText d hmem).1 (by decide)
  have hstreams : 0x0A ∉ d.streamsText := by
    rw [streamsText, List.mem_append, not_or]
    exact ⟨hstream _ (by decide) _, hstream _ (by decide) _⟩
  rw [line_eq, idText]
  simp [hnum, hstreams, d.identifier.line, d.name.line]

/-- Every device has its record, in order. -/
theorem parseProcAsoundPcm_procPcm (devices : List PcmDevice) :
    parseProcAsoundPcm (procPcm devices) = .ok (devices.map PcmDevice.read) := by
  have hlines := @lines_flatMap_sep _ _ 0x0A (devices.map PcmDevice.line)
    (by simpa using fun d _ => line_newline d)
  rw [List.flatMap_map] at hlines
  have hrows : (devices.map PcmDevice.line).mapM parsePcmLine =
      .ok (devices.map fun d => some d.read) := by
    have hrow : ∀ d ∈ devices, (parsePcmLine ∘ PcmDevice.line) d = .ok (some d.read) := by
      intro d _
      rw [Function.comp_apply, parsePcmLine_line]
    rw [List.mapM_map]
    exact mapM_eq_ok (f := parsePcmLine ∘ PcmDevice.line) (g := fun d => some d.read) hrow
  have hsome : (devices.map fun d => some d.read).filterMap id = devices.map PcmDevice.read := by
    rw [List.filterMap_map, ← List.filterMap_eq_map]
    rfl
  rw [parseProcAsoundPcm, procPcm, hlines, hrows, ok_bind, hsome]

/-- The words are in no text of a device that does not have the stream. -/
structure PcmDevice.Plain (d : PcmDevice) : Prop where
  playback : d.playback = none → d.mentions (ascii "playback") = false
  capture : d.capture = none → d.mentions (ascii "capture") = false

theorem read_eq_info_iff : d.read = d.info ↔ d.Plain := by
  rw [PcmDevice.read, PcmDevice.info, AlsaPcmInfo.mk.injEq]
  simp only [true_and, Bool.or_eq_left_iff_imp]
  have hflag (count : Option UInt32) (mentioned : Bool) :
      (mentioned = true → count.isSome = true) ↔ (count = none → mentioned = false) := by
    cases count <;> cases mentioned <;> simp
  rw [hflag, hflag]
  exact ⟨fun h => ⟨h.1, h.2⟩, fun h => ⟨h.playback, h.capture⟩⟩

/-- The streams of all devices are read exactly when no text has the word for a stream that
is not listed. -/
theorem streams_read_iff (devices : List PcmDevice) :
    parseProcAsoundPcm (procPcm devices) = .ok (devices.map PcmDevice.info) ↔
      ∀ d ∈ devices, d.Plain := by
  rw [parseProcAsoundPcm_procPcm, Except.ok.injEq, List.map_inj_left]
  simp only [read_eq_info_iff]

/-- A microphone that is called after the thing it records. -/
def playbackMonitor : PcmDevice where
  card := 1
  device := 0
  identifier := ⟨ascii "Mic", by decide, by decide, validUtf8_ascii (forall_of_all (by decide))⟩
  name := ⟨ascii "Playback Monitor", by decide, by decide,
    validUtf8_ascii (forall_of_all (by decide))⟩
  playback := none
  capture := some 1

/-- The name gives the device a stream that it does not have. -/
theorem name_adds_playback :
    procPcm [playbackMonitor] = ascii "01-00: Mic : Playback Monitor : capture 1\n" ∧
      parseProcAsoundPcm (procPcm [playbackMonitor]) =
        .ok [{ cardIndex := 1, deviceIndex := 0, id := ascii "Mic",
               name := ascii "Playback Monitor", hasPlayback := true, hasCapture := true }] := by
  constructor
  · decide +kernel
  · rw [parseProcAsoundPcm_procPcm]
    decide +kernel

end Reading

section Devices

/-- The direction that the listed streams give a device. -/
def PcmDevice.direction (d : PcmDevice) : AudioDeviceDirection :=
  directionOf d.playback.isSome d.capture.isSome

variable {fs : FileSystem} {cardsContent : List UInt8} {cards : List AlsaCardInfo}
  {devices : List PcmDevice}

/-- There is one device for each line, with the name of its card. -/
theorem collectDevices_procPcm (hcards : fs (ascii "/proc/asound/cards") = .content cardsContent)
    (hcards_length : cardsContent.length ≤ 1024 * 1024)
    (hparse : parseProcAsoundCards cardsContent = .ok cards)
    (hpcm : fs (ascii "/proc/asound/pcm") = .content (procPcm devices))
    (hpcm_length : (procPcm devices).length ≤ 1024 * 1024) (soundClass : Bool) :
    collectDevices fs soundClass = .ok (devices.map fun d => audioDevice cards d.read) := by
  rw [collectDevices, readTextFile_content hcards hcards_length]
  dsimp only
  rw [hparse, ok_bind, readTextFile_content hpcm hpcm_length]
  dsimp only
  rw [parseProcAsoundPcm_procPcm, ok_bind, List.map_map]
  rfl

/-- The directions are the listed ones when no text has the word for another stream. -/
theorem collectDevices_directions
    (hcards : fs (ascii "/proc/asound/cards") = .content cardsContent)
    (hcards_length : cardsContent.length ≤ 1024 * 1024)
    (hparse : parseProcAsoundCards cardsContent = .ok cards)
    (hpcm : fs (ascii "/proc/asound/pcm") = .content (procPcm devices))
    (hpcm_length : (procPcm devices).length ≤ 1024 * 1024) (soundClass : Bool)
    (hplain : ∀ d ∈ devices, d.Plain) :
    ∃ found, collectDevices fs soundClass = .ok found ∧
      found.map AudioDevice.direction = devices.map PcmDevice.direction := by
  refine ⟨_, collectDevices_procPcm hcards hcards_length hparse hpcm hpcm_length soundClass, ?_⟩
  rw [List.map_map]
  apply List.map_congr_left
  intro d hd
  rw [Function.comp_apply, (read_eq_info_iff d).mpr (hplain d hd)]
  rfl

end Devices

end Syscape.Audio
