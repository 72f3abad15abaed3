import Syscape.Printer
import Syscape.Utf8Text
import Syscape.Lib.Lines

/-!
# The printers in `printers.conf`

The configuration of CUPS has a section for each printer, between an opening and a closing tag,
with a directive on each line. The tag of the default printer has a name of its own. Empty lines
and comments may stand everywhere.
-/
namespace Syscape.Printer
open Checked Text Lines Utf8

section Source

/-- The variables of `parse_cups_printers_conf`. -/
structure ConfState where
  printers : List PrinterInfo := []
  current : PrinterInfo := {}
  inPrinter : Bool := false
  currentIsDefault : Bool := false
  sawDefault : Bool := false
  deriving DecidableEq, Repr

/-- An opening tag. -/
def openSection (st : ConfState) (line : List UInt8) : Result ConfState :=
  if st.inPrinter then fail .malformedData
  else
    let isDef := startsWithIgnoreCase line (ascii "<DefaultPrinter ")
    let behind := line.drop (if isDef then 16 else 9)
    match findByte 0x3E behind with
    | none => fail .malformedData
    | some closeBracket =>
      if trimWhitespace (behind.drop (closeBracket + 1)) ≠ [] then fail .malformedData
      else do
        let name ← validateUtf8 (trimWhitespace (behind.take closeBracket))
        if name = [] ∨ (isDef ∧ st.sawDefault) then fail .malformedData
        else .ok { st with
          current := { id := name, name := name, isDefault := some isDef }
          currentIsDefault := isDef
          sawDefault := st.sawDefault || isDef
          inPrinter := true }

/-- A closing tag. -/
def closeSection (st : ConfState) (line : List UInt8) : Result ConfState :=
  let closesDefault := startsWithIgnoreCase line (ascii "</DefaultPrinter>")
  if ¬ st.inPrinter ∨ closesDefault ≠ st.currentIsDefault ∨
      trimWhitespace (line.drop (if closesDefault then 17 else 10)) ≠ [] then fail .malformedData
  else .ok { st with
    printers := st.printers ++ [{ st.current with
      type := classifyPrinterType st.current.uri st.current.name st.current.driverName }]
    inPrinter := false }

/-- The value of a directive that is on or off. -/
def confFlag (val : List UInt8) : Result Bool :=
  if equalsIgnoreCase val (ascii "Yes") ∨ equalsIgnoreCase val (ascii "True") ∨ val = ascii "1" then
    .ok true
  else if equalsIgnoreCase val (ascii "No") ∨ equalsIgnoreCase val (ascii "False") ∨
      val = ascii "0" then .ok false
  else fail .malformedData

/-- The value of `State`. -/
def confPrinterState (val : List UInt8) : Result PrinterState :=
  if equalsIgnoreCase val (ascii "Idle") then .ok .idle
  else if equalsIgnoreCase val (ascii "Processing") then .ok .processing
  else if equalsIgnoreCase val (ascii "Stopped") then .ok .stopped
  else fail .malformedData

/-- A directive with its value; others are not looked at. -/
def confDirective (current : PrinterInfo) (key val : List UInt8) : Result PrinterInfo :=
  if equalsIgnoreCase key (ascii "Info") then do
    let text ← validateUtf8 val
    .ok { current with description := text }
  else if equalsIgnoreCase key (ascii "Location") then do
    let text ← validateUtf8 val
    .ok { current with location := text }
  else if equalsIgnoreCase key (ascii "MakeModel") then do
    let text ← validateUtf8 val
    .ok { current with driverName := text }
  else if equalsIgnoreCase key (ascii "DeviceURI") then do
    let text ← validateUtf8 val
    .ok { current with uri := text }
  else if equalsIgnoreCase key (ascii "State") then do
    let state ← confPrinterState val
    .ok { current with state := state }
  else if equalsIgnoreCase key (ascii "Accepting") then do
    let flag ← confFlag val
    .ok { current with isAcceptingJobs := some flag }
  else if equalsIgnoreCase key (ascii "Shared") then do
    let flag ← confFlag val
    .ok { current with isShared := some flag }
  else .ok current

/-- A line in a section: a key, a space and a value. -/
def keyValueLine (current : PrinterInfo) (line : List UInt8) : Result PrinterInfo :=
  match findByte 0x20 line with
  | none => .ok current
  | some spacePos =>
    confDirective current (trimWhitespace (line.take spacePos))
      (trimWhitespace (line.drop (spacePos + 1)))

/-- A line of `parse_cups_printers_conf`. -/
def confLine (st : ConfState) (line : List UInt8) : Result ConfState :=
  let line := trimWhitespace line
  if line = [] ∨ line.head? = some 0x23 then .ok st
  else if startsWithIgnoreCase line (ascii "<Printer ") ∨
      startsWithIgnoreCase line (ascii "<DefaultPrinter ") then openSection st line
  else if startsWithIgnoreCase line (ascii "</Printer>") ∨
      startsWithIgnoreCase line (ascii "</DefaultPrinter>") then closeSection st line
  else if ¬ st.inPrinter then .ok st
  else do
    let current ← keyValueLine st.current line
    .ok { st with current := current }

/-- `parse_cups_printers_conf`. -/
def parseCupsPrintersConf (content : List UInt8) : Result (List PrinterInfo) := do
  let st ← (lines 0x0A content).foldlM confLine {}
  if st.inPrinter then fail .malformedData else .ok st.printers

end Source

section Tags

/-- An opening or a closing tag, of the default printer or of another one. -/
inductive ConfTag where
  | opening (isDefault : Bool)
  | closing (isDefault : Bool)
  deriving DecidableEq, Repr

/-- The tag that a line begins with. -/
def tagOf (line : List UInt8) : Option ConfTag :=
  let line := trimWhitespace line
  if startsWithIgnoreCase line (ascii "<DefaultPrinter ") then some (.opening true)
  else if startsWithIgnoreCase line (ascii "<Printer ") then some (.opening false)
  else if startsWithIgnoreCase line (ascii "</DefaultPrinter>") then some (.closing true)
  else if startsWithIgnoreCase line (ascii "</Printer>") then some (.closing false)
  else none

/-- The tags of sections that follow each other, each closed by the tag that belongs to it. -/
def sectionTags (defaults : List Bool) : List ConfTag :=
  defaults.flatMap fun isDefault => [.opening isDefault, .closing isDefault]

/-- The name of a printer, which is its identifier. -/
def Named (printer : PrinterInfo) : Prop :=
  printer.id = printer.name ∧ printer.name ≠ [] ∧ ValidUtf8 printer.name

/-- What holds between the lines: the tags so far are those of the printers so far and of the
section that is open, if there is one. -/
structure ConfInv (st : ConfState) (tags : List ConfTag) (defaults : List Bool) : Prop where
  tags_eq : tags = sectionTags defaults ++
    if st.inPrinter then [.opening st.currentIsDefault] else []
  printers_eq : st.printers.map PrinterInfo.isDefault = defaults.map some
  named : ∀ printer ∈ st.printers, Named printer
  current_named : st.inPrinter = true → Named st.current
  current_default : st.inPrinter = true → st.current.isDefault = some st.currentIsDefault
  one_default : (defaults ++ if st.inPrinter then [st.currentIsDefault] else []).count true =
    st.sawDefault.toNat

end Tags

section Invariant
variable {st next : ConfState} {tags : List ConfTag} {defaults : List Bool} {line : List UInt8}

lemma validateUtf8_eq_ok {text out : List UInt8} (h : validateUtf8 text = .ok out) :
    out = text ∧ ValidUtf8 text := by
  obtain ⟨valid, hvalid, hok⟩ := bind_eq_ok.mp h
  split_ifs at hok with htrue
  · cases hok
    exact ⟨rfl, by rw [ValidUtf8, hvalid, htrue]⟩
  · cases hok

lemma ConfInv.openSection (hinv : ConfInv st tags defaults)
    (h : Printer.openSection st line = .ok next) :
    ConfInv next (tags ++ [.opening (startsWithIgnoreCase line (ascii "<DefaultPrinter "))])
      defaults := by
  obtain ⟨hin, h⟩ := guard_eq_ok.mp h
  dsimp only at h
  split at h
  · cases h
  · obtain ⟨-, h⟩ := guard_eq_ok.mp h
    obtain ⟨name, hname, h⟩ := bind_eq_ok.mp h
    obtain ⟨hbad, hok⟩ := guard_eq_ok.mp h
    cases hok
    obtain ⟨rfl, hvalid⟩ := validateUtf8_eq_ok hname
    rw [not_or] at hbad
    have htags := hinv.tags_eq
    have hone := hinv.one_default
    rw [if_neg hin, List.append_nil] at htags hone
    refine ⟨?_, hinv.printers_eq, hinv.named, fun _ => ⟨rfl, hbad.1, hvalid⟩, fun _ => rfl, ?_⟩
    · rw [htags]
      rfl
    · simp only [if_true, List.count_append, hone]
      cases hdef : startsWithIgnoreCase line (ascii "<DefaultPrinter ") with
      | false => simp
      | true =>
        have hsaw : st.sawDefault = false := by simpa [hdef] using hbad.2
        rw [hsaw]
        rfl

lemma ConfInv.closeSection (hinv : ConfInv st tags defaults)
    (h : Printer.closeSection st line = .ok next) :
    ConfInv next (tags ++ [.closing (startsWithIgnoreCase line (ascii "</DefaultPrinter>"))])
      (defaults ++ [st.currentIsDefault]) := by
  obtain ⟨hbad, hok⟩ := guard_eq_ok.mp h
  cases hok
  rw [not_or, not_or, not_not, not_not] at hbad
  obtain ⟨hin, hcloses, -⟩ := hbad
  have htags := hinv.tags_eq
  have hone := hinv.one_default
  rw [if_pos hin] at htags hone
  refine ⟨?_, ?_, ?_, by simp, by simp, ?_⟩
  · rw [htags, hcloses]
    simp [sectionTags]
  · simp [hinv.printers_eq, hinv.current_default hin]
  · intro printer hprinter
    rcases List.mem_append.mp hprinter with hold | hnew
    · exact hinv.named printer hold
    · rw [List.mem_singleton.mp hnew]
      exact hinv.current_named hin
  · simpa using hone

/-- A directive changes neither the name nor whether the printer is the default. -/
lemma confDirective_frame {current out : PrinterInfo} {key val : List UInt8}
    (h : confDirective current key val = .ok out) :
    out.id = current.id ∧ out.name = current.name ∧ out.isDefault = current.isDefault := by
  unfold confDirective at h
  split_ifs at h
  all_goals
    first
    | (obtain ⟨_, -, hok⟩ := bind_eq_ok.mp h
       cases hok
       exact ⟨rfl, rfl, rfl⟩)
    | (cases h
       exact ⟨rfl, rfl, rfl⟩)

lemma keyValueLine_frame {current out : PrinterInfo} (h : keyValueLine current line = .ok out) :
    out.id = current.id ∧ out.name = current.name ∧ out.isDefault = current.isDefault := by
  unfold keyValueLine at h
  split at h
  · cases h
    exact ⟨rfl, rfl, rfl⟩
  · exact confDirective_frame h

lemma startsWithIgnoreCase_iff (text start : List UInt8) :
    startsWithIgnoreCase text start = true ↔ start.map tolower <+: text.map tolower := by
  unfold startsWithIgnoreCase
  split_ifs with hlength
  · simp only [false_iff]
    intro hstart
    have hle := hstart.length_le
    rw [List.length_map, List.length_map] at hle
    omega
  · rw [equalsIgnoreCase_iff, List.map_take, List.prefix_iff_eq_take, List.length_map, eq_comm]

/-- A text that begins with a tag begins with its bracket. -/
lemma head?_of_startsWith {text start : List UInt8} (hstart : start.head? = some 0x3C)
    (h : startsWithIgnoreCase text start = true) : text.head? = some 0x3C := by
  have hbracket : ∀ c : UInt8, tolower c = 0x3C → c = 0x3C := by
    intro c hc
    unfold tolower at hc
    split_ifs at hc with hupper
    · rw [UInt8.le_iff_toNat_le, UInt8.le_iff_toNat_le] at hupper
      rw [← UInt8.toNat_inj, UInt8.toNat_add] at hc
      simp only [UInt8.reduceToNat] at hc hupper
      omega
    · exact hc
  obtain ⟨rest, rfl⟩ := List.head?_eq_some_iff.mp hstart
  rw [startsWithIgnoreCase_iff] at h
  cases text with
  | nil => simp at h
  | cons c text =>
    rw [List.map_cons, List.map_cons, List.cons_prefix_cons] at h
    rw [List.head?_cons, hbracket c h.1.symm]

lemma tagOf_eq_none (h : trimWhitespace line = [] ∨ (trimWhitespace line).head? = some 0x23) :
    tagOf line = none := by
  have hnot {start : List UInt8} (hstart : start.head? = some 0x3C) :
      ¬ startsWithIgnoreCase (trimWhitespace line) start = true := by
    intro hline
    have hhead := head?_of_startsWith hstart hline
    rcases h with hnil | hcomment
    · rw [hnil] at hhead
      cases hhead
    · rw [hcomment] at hhead
      cases hhead
  unfold tagOf
  dsimp only
  rw [if_neg (hnot rfl), if_neg (hnot rfl), if_neg (hnot rfl), if_neg (hnot rfl)]

/-- A line keeps the invariant, with the tag that it begins with. -/
theorem ConfInv.step (hinv : ConfInv st tags defaults) (h : confLine st line = .ok next) :
    ∃ defaults', ConfInv next (tags ++ (tagOf line).toList) defaults' := by
  unfold confLine at h
  dsimp only at h
  split_ifs at h with hskip hopen hclose hout
  · cases h
    rw [tagOf_eq_none hskip, Option.toList_none, List.append_nil]
    exact ⟨defaults, hinv⟩
  · have htag : tagOf line = some (.opening
        (startsWithIgnoreCase (trimWhitespace line) (ascii "<DefaultPrinter "))) := by
      unfold tagOf
      dsimp only
      split_ifs with hdefault hprinter
      · rw [hdefault]
      · rw [Bool.eq_false_iff.mpr hdefault]
      · exact absurd (hopen.resolve_right hdefault) hprinter
      · exact absurd (hopen.resolve_right hdefault) hprinter
      · exact absurd (hopen.resolve_right hdefault) hprinter
    rw [htag]
    exact ⟨defaults, hinv.openSection h⟩
  · have htag : tagOf line = some (.closing
        (startsWithIgnoreCase (trimWhitespace line) (ascii "</DefaultPrinter>"))) := by
      rw [not_or] at hopen
      unfold tagOf
      dsimp only
      rw [if_neg hopen.2, if_neg hopen.1]
      split_ifs with hdefault hprinter
      · rw [hdefault]
      · rw [Bool.eq_false_iff.mpr hdefault]
      · exact absurd (hclose.resolve_right hdefault) hprinter
    rw [htag]
    exact ⟨_, hinv.closeSection h⟩
  all_goals
    have htag : tagOf line = none := by
      rw [not_or] at hopen hclose
      unfold tagOf
      dsimp only
      rw [if_neg hopen.2, if_neg hopen.1, if_neg hclose.2, if_neg hclose.1]
    rw [htag, Option.toList_none, List.append_nil]
    refine ⟨defaults, ?_⟩
  · obtain ⟨current, hcurrent, hok⟩ := bind_eq_ok.mp h
    cases hok
    obtain ⟨hid, hname, hdefault⟩ := keyValueLine_frame hcurrent
    refine ⟨hinv.tags_eq, hinv.printers_eq, hinv.named, ?_, ?_, hinv.one_default⟩
    · intro hin
      obtain ⟨heq, hne, hvalid⟩ := hinv.current_named hin
      exact ⟨by rw [hid, heq, hname], by rwa [hname], by rwa [hname]⟩
    · intro hin
      rw [hdefault]
      exact hinv.current_default hin
  · cases h
    exact hinv

/-- So does a text, line by line. -/
theorem ConfInv.run {all : List (List UInt8)} (hinv : ConfInv st tags defaults)
    (h : all.foldlM confLine st = .ok next) :
    ∃ defaults', ConfInv next (tags ++ all.filterMap tagOf) defaults' := by
  induction all generalizing st tags defaults with
  | nil =>
    cases h
    exact ⟨defaults, by simpa using hinv⟩
  | cons line all ih =>
    rw [List.foldlM_cons] at h
    obtain ⟨between, hline, h⟩ := bind_eq_ok.mp h
    obtain ⟨defaults', hinv'⟩ := hinv.step hline
    obtain ⟨defaults'', hinv''⟩ := ih hinv' h
    refine ⟨defaults'', ?_⟩
    rw [List.append_assoc] at hinv''
    have hcons : (line :: all).filterMap tagOf = (tagOf line).toList ++ all.filterMap tagOf := by
      rw [List.filterMap_cons]
      cases tagOf line <;> rfl
    rwa [hcons]

/-- What is accepted is well formed: sections follow each other, at most one of them is the
default, and every printer has a name. -/
theorem parseCupsPrintersConf_wellFormed {text : List UInt8} {printers : List PrinterInfo}
    (h : parseCupsPrintersConf text = .ok printers) :
    ∃ defaults, (Lines.lines 0x0A text).filterMap tagOf = sectionTags defaults ∧
      printers.map PrinterInfo.isDefault = defaults.map some ∧ defaults.count true ≤ 1 ∧
      ∀ printer ∈ printers, Named printer := by
  obtain ⟨st, hrun, h⟩ := bind_eq_ok.mp h
  obtain ⟨hin, hok⟩ := guard_eq_ok.mp h
  cases hok
  have hstart : ConfInv {} [] [] := ⟨rfl, rfl, by simp, by simp, by simp, rfl⟩
  obtain ⟨defaults, hinv⟩ := hstart.run hrun
  have htags := hinv.tags_eq
  have hone := hinv.one_default
  rw [if_neg hin, List.append_nil] at htags hone
  rw [List.nil_append] at htags
  refine ⟨defaults, htags, hinv.printers_eq, ?_, hinv.named⟩
  rw [hone]
  exact Bool.toNat_le _

end Invariant

section Sections

/-- A name that can stand in a tag. -/
structure PrinterName where
  text : List UInt8
  ne_nil : text ≠ []
  valid : ValidUtf8 text
  no_bracket : 0x3E ∉ text
  no_newline : 0x0A ∉ text
  head_solid : ∀ c ∈ text.head?, isBlank c = false
  last_solid : ∀ c ∈ text.getLast?, isBlank c = false

/-- A text that can stand behind a directive. -/
structure ConfText where
  text : List UInt8
  valid : ValidUtf8 text
  no_newline : 0x0A ∉ text
  head_solid : ∀ c ∈ text.head?, isBlank c = false
  last_solid : ∀ c ∈ text.getLast?, isBlank c = false

/-- The directives with a text. -/
inductive TextKey where
  | info
  | location
  | makeModel
  | deviceUri
  deriving DecidableEq, Repr

/-- The directives that are on or off. -/
inductive FlagKey where
  | accepting
  | shared
  deriving DecidableEq, Repr

def TextKey.name : TextKey → List UInt8
  | .info => ascii "Info"
  | .location => ascii "Location"
  | .makeModel => ascii "MakeModel"
  | .deviceUri => ascii "DeviceURI"

def FlagKey.name : FlagKey → List UInt8
  | .accepting => ascii "Accepting"
  | .shared => ascii "Shared"

/-- A directive that is recognised. -/
inductive Directive where
  | text (key : TextKey) (value : ConfText)
  | state (state : PrinterState) (known : state ≠ .unknown)
  | flag (key : FlagKey) (on : Bool)

def Directive.key : Directive → List UInt8
  | .text key _ => key.name
  | .state _ _ => ascii "State"
  | .flag key _ => key.name

/-- The text of a known state. -/
def stateText : PrinterState → List UInt8
  | .idle => ascii "Idle"
  | .processing => ascii "Processing"
  | .stopped | .unknown => ascii "Stopped"

def flagText (on : Bool) : List UInt8 := if on then ascii "Yes" else ascii "No"

def Directive.value : Directive → List UInt8
  | .text _ value => value.text
  | .state known _ => stateText known
  | .flag _ on => flagText on

def Directive.line (directive : Directive) : List UInt8 := directive.key ++ 0x20 :: directive.value

def Directive.text? (key : TextKey) : Directive → Option (List UInt8)
  | .text k value => if k = key then some value.text else none
  | _ => none

def Directive.state? : Directive → Option PrinterState
  | .state known _ => some known
  | _ => none

def Directive.flag? (key : FlagKey) : Directive → Option Bool
  | .flag k on => if k = key then some on else none
  | _ => none

/-- A section: the name of the printer, and any of the directives in any order. -/
structure PrinterSection where
  name : PrinterName
  isDefault : Bool
  directives : List Directive
  distinct : (directives.map Directive.key).Nodup

/-- What stands in front of the name, and the tag at the end. -/
def openingTag (isDefault : Bool) : List UInt8 :=
  if isDefault then ascii "<DefaultPrinter " else ascii "<Printer "

def closingTag (isDefault : Bool) : List UInt8 :=
  if isDefault then ascii "</DefaultPrinter>" else ascii "</Printer>"

def PrinterSection.lines (s : PrinterSection) : List (List UInt8) :=
  (openingTag s.isDefault ++ (s.name.text ++ [0x3E])) ::
    (s.directives.map Directive.line ++ [closingTag s.isDefault])

/-- The value of a directive, which is empty without it. -/
def PrinterSection.text (s : PrinterSection) (key : TextKey) : List UInt8 :=
  (s.directives.findSome? (Directive.text? key)).getD []

/-- The printer that a section describes. -/
def PrinterSection.printer (s : PrinterSection) : PrinterInfo where
  id := s.name.text
  name := s.name.text
  description := s.text .info
  location := s.text .location
  driverName := s.text .makeModel
  uri := s.text .deviceUri
  type := classifyPrinterType (s.text .deviceUri) s.name.text (s.text .makeModel)
  state := (s.directives.findSome? Directive.state?).getD .unknown
  isDefault := some s.isDefault
  isShared := s.directives.findSome? (Directive.flag? .shared)
  isAcceptingJobs := s.directives.findSome? (Directive.flag? .accepting)

/-- A line that is neither empty nor a comment. -/
def isContent (line : List UInt8) : Bool :=
  trimWhitespace line ≠ [] ∧ (trimWhitespace line).head? ≠ some 0x23

/-- But for empty lines, comments and blanks around the lines, the text has the sections. -/
def Renders (text : List UInt8) (sections : List PrinterSection) : Prop :=
  ((lines 0x0A text).filter isContent).map trimWhitespace =
    (sections.flatMap PrinterSection.lines).map trimWhitespace

instance (text : List UInt8) (sections : List PrinterSection) : Decidable (Renders text sections) :=
  inferInstanceAs (Decidable (_ = _))

end Sections

section Directives
variable {st : ConfState} {line : List UInt8} {directives : List Directive}

/-- Only what is left of a line without blanks counts. -/
lemma confLine_trim (st : ConfState) (line : List UInt8) :
    confLine st (trimWhitespace line) = confLine st line := by
  have htrim : trimWhitespace (trimWhitespace line) = trimWhitespace line := trim_trim line
  unfold confLine
  rw [htrim]

lemma confLine_of_not_content (h : isContent line = false) : confLine st line = .ok st := by
  unfold confLine
  dsimp only
  rw [if_pos]
  by_contra hnot
  rw [not_or] at hnot
  simp [isContent, hnot.1, hnot.2] at h

lemma foldlM_content (all : List (List UInt8)) (st : ConfState) :
    all.foldlM confLine st = ((all.filter isContent).map trimWhitespace).foldlM confLine st := by
  induction all generalizing st with
  | nil => rfl
  | cons line all ih =>
    rw [List.foldlM_cons, List.filter_cons]
    split_ifs with hcontent
    · rw [List.map_cons, List.foldlM_cons, confLine_trim]
      exact congrArg _ (funext ih)
    · rw [confLine_of_not_content (by simpa using hcontent), ok_bind, ih]

lemma foldlM_trim (all : List (List UInt8)) (st : ConfState) :
    (all.map trimWhitespace).foldlM confLine st = all.foldlM confLine st := by
  induction all generalizing st with
  | nil => rfl
  | cons line all ih =>
    rw [List.map_cons, List.foldlM_cons, List.foldlM_cons, confLine_trim]
    exact congrArg _ (funext ih)

/-- An empty value says nothing. -/
def textOr (value old : List UInt8) : List UInt8 := if value = [] then old else value

/-- What a directive changes. -/
def Directive.apply (p : PrinterInfo) : Directive → PrinterInfo
  | .text .info value => { p with description := textOr value.text p.description }
  | .text .location value => { p with location := textOr value.text p.location }
  | .text .makeModel value => { p with driverName := textOr value.text p.driverName }
  | .text .deviceUri value => { p with uri := textOr value.text p.uri }
  | .state known _ => { p with state := known }
  | .flag .accepting on => { p with isAcceptingJobs := some on }
  | .flag .shared on => { p with isShared := some on }

/-- A word that is neither a comment nor a tag. -/
structure IsKey (key : List UInt8) : Prop where
  ne_nil : key ≠ []
  solid : ∀ c ∈ key, isBlank c = false
  head_ne : key.head? ≠ some 0x23 ∧ key.head? ≠ some 0x3C

lemma Directive.isKey (directive : Directive) : IsKey directive.key := by
  have htext (key : TextKey) : IsKey key.name := by
    cases key <;> exact ⟨by decide, forall_of_all (by decide), by decide⟩
  have hflag (key : FlagKey) : IsKey key.name := by
    cases key <;> exact ⟨by decide, forall_of_all (by decide), by decide⟩
  have hstate : IsKey (ascii "State") := ⟨by decide, forall_of_all (by decide), by decide⟩
  cases directive with
  | text key value => exact htext key
  | state known h => exact hstate
  | flag key on => exact hflag key

/-- Values do not begin or end with blanks. -/
lemma Directive.value_solid (directive : Directive) :
    (∀ c ∈ directive.value.head?, isBlank c = false) ∧
      ∀ c ∈ directive.value.getLast?, isBlank c = false := by
  have hends {text : List UInt8} (h : ∀ c ∈ text, isBlank c = false) :
      (∀ c ∈ text.head?, isBlank c = false) ∧ ∀ c ∈ text.getLast?, isBlank c = false :=
    ⟨fun c hc => h c (List.mem_of_mem_head? hc), fun c hc => h c (List.mem_of_mem_getLast? hc)⟩
  have hstate (known : PrinterState) : ∀ c ∈ stateText known, isBlank c = false := by
    cases known <;> exact forall_of_all (by decide)
  have hflag (on : Bool) : ∀ c ∈ flagText on, isBlank c = false := by
    cases on <;> exact forall_of_all (by decide)
  cases directive with
  | text key value => exact ⟨value.head_solid, value.last_solid⟩
  | state known h => exact hends (hstate known)
  | flag key on => exact hends (hflag on)

lemma trimWhitespace_eq_self {text : List UInt8} (hhead : ∀ c ∈ text.head?, isBlank c = false)
    (hlast : ∀ c ∈ text.getLast?, isBlank c = false) : trimWhitespace text = text := by
  have hself := @trim_blanks isBlank [] text [] (by simp) (by simp) hhead hlast
  rwa [List.nil_append, List.append_nil] at hself

lemma confDirective_value (p : PrinterInfo) (directive : Directive)
    (hvalue : directive.value ≠ []) :
    confDirective p directive.key directive.value = .ok (directive.apply p) := by
  cases directive with
  | text key value =>
    have hne : value.text ≠ [] := hvalue
    have hutf8 := validateUtf8_valid value.valid
    cases key
    all_goals
      simp only [Directive.apply, textOr, if_neg hne]
      change (if _ then _ else _) = _
      simp only [Directive.value, Directive.key, TextKey.name, hutf8, ok_bind]
      rfl
  | state known h =>
    cases known with
    | unknown => exact absurd rfl h
    | idle => rfl
    | processing => rfl
    | stopped => rfl
  | flag key on => cases key <;> cases on <;> rfl

/-- A line that is no tag, in a section. -/
lemma confLine_keyValue (hin : st.inPrinter = true) (hne : trimWhitespace line ≠ [])
    (hhead : (trimWhitespace line).head? ≠ some 0x23 ∧ (trimWhitespace line).head? ≠ some 0x3C) :
    confLine st line = keyValueLine st.current (trimWhitespace line) >>= fun current =>
      .ok { st with current := current } := by
  have hnot {start : List UInt8} (hstart : start.head? = some 0x3C) :
      ¬ startsWithIgnoreCase (trimWhitespace line) start = true :=
    fun h => hhead.2 (head?_of_startsWith hstart h)
  unfold confLine
  dsimp only
  rw [if_neg (by simp [hne, hhead.1]), if_neg (by rw [not_or]; exact ⟨hnot rfl, hnot rfl⟩),
    if_neg (by rw [not_or]; exact ⟨hnot rfl, hnot rfl⟩), if_neg (by simp [hin])]

lemma confLine_directive (directive : Directive) (hin : st.inPrinter = true) :
    confLine st directive.line = .ok { st with current := directive.apply st.current } := by
  obtain ⟨hne, hsolid, hhead⟩ := directive.isKey
  obtain ⟨hfirst, hlast⟩ := directive.value_solid
  have hkey : trimWhitespace directive.key = directive.key := trimWhitespace_eq_self
    (fun c hc => hsolid c (List.mem_of_mem_head? hc))
    (fun c hc => hsolid c (List.mem_of_mem_getLast? hc))
  have hspace : 0x20 ∉ directive.key := fun h => absurd (hsolid _ h) (by decide)
  by_cases hvalue : directive.value = []
  · -- without a value, what is left of the line is the key
    have htrim : trimWhitespace directive.line = directive.key := by
      have hself := @trim_blanks isBlank [] directive.key [0x20] (by simp)
        (by simp [isBlank]) (fun c hc => hsolid c (List.mem_of_mem_head? hc))
        (fun c hc => hsolid c (List.mem_of_mem_getLast? hc))
      rw [Directive.line, hvalue]
      rwa [List.nil_append] at hself
    have happly : directive.apply st.current = st.current := by
      cases directive with
      | text key value =>
        have hempty : textOr value.text = id := funext fun old => if_pos hvalue
        cases key <;> simp [Directive.apply, hempty]
      | state known h => cases known <;> cases hvalue
      | flag key on => cases on <;> cases hvalue
    rw [confLine_keyValue hin (by rwa [htrim]) (by rwa [htrim]), htrim, keyValueLine,
      findByte_eq_none.mpr hspace, happly]
    rfl
  · have htrim : trimWhitespace directive.line = directive.line := by
      refine trimWhitespace_eq_self ?_ ?_
      · intro c hc
        rw [Directive.line, List.head?_append_of_ne_nil _ hne] at hc
        exact hsolid c (List.mem_of_mem_head? hc)
      · intro c hc
        rw [Directive.line, List.append_cons, List.getLast?_append_of_ne_nil _ hvalue] at hc
        exact hlast c hc
    have hdrop : directive.line.drop (directive.key.length + 1) = directive.value := by
      rw [Directive.line, List.append_cons, List.drop_left' (by simp)]
    have htake : directive.line.take directive.key.length = directive.key := List.take_left
    have hfind : findByte 0x20 directive.line = some directive.key.length :=
      findByte_append hspace directive.value
    have hline : directive.line.head? = directive.key.head? :=
      List.head?_append_of_ne_nil _ hne
    rw [confLine_keyValue hin (by rw [htrim]; simp [Directive.line]) (by rwa [htrim, hline]), htrim,
      keyValueLine, hfind]
    dsimp only
    rw [htake, hdrop, hkey, trimWhitespace_eq_self hfirst hlast, confDirective_value _ _ hvalue,
      ok_bind]

lemma foldlM_directives (directives : List Directive) (hin : st.inPrinter = true) :
    (directives.map Directive.line).foldlM confLine st =
      .ok { st with current := directives.foldl Directive.apply st.current } := by
  induction directives generalizing st with
  | nil => rfl
  | cons directive directives ih =>
    rw [List.map_cons, List.foldlM_cons, confLine_directive directive hin, ok_bind]
    exact ih hin

/-- The value of a text directive that replaces another one. -/
def textField (key : TextKey) (directives : List Directive) (old : List UInt8) : List UInt8 :=
  (directives.findSome? (Directive.text? key)).elim old fun value => textOr value old

/-- The fields of a printer behind directives of different kinds. -/
lemma foldl_apply (h : (directives.map Directive.key).Nodup) (p : PrinterInfo) :
    directives.foldl Directive.apply p = { p with
      description := textField .info directives p.description
      location := textField .location directives p.location
      driverName := textField .makeModel directives p.driverName
      uri := textField .deviceUri directives p.uri
      state := (directives.findSome? Directive.state?).getD p.state
      isAcceptingJobs :=
        (directives.findSome? (Directive.flag? .accepting)).or p.isAcceptingJobs
      isShared := (directives.findSome? (Directive.flag? .shared)).or p.isShared } := by
  induction directives generalizing p with
  | nil => rfl
  | cons directive directives ih =>
    rw [List.map_cons, List.nodup_cons] at h
    obtain ⟨hnew, hrest⟩ := h
    have hother : ∀ d ∈ directives, d.key ≠ directive.key := by
      intro d hd heq
      exact hnew (heq ▸ List.mem_map_of_mem hd)
    rw [List.foldl_cons, ih hrest]
    cases directive with
    | text key value =>
      have hnone : directives.findSome? (Directive.text? key) = none := by
        rw [List.findSome?_eq_none_iff]
        intro d hd
        cases d with
        | text k v =>
          have hne : k ≠ key := fun heq => hother _ hd (congrArg TextKey.name heq)
          exact if_neg hne
        | state => rfl
        | flag => rfl
      cases key <;> simp [Directive.apply, textField, Directive.text?, Directive.state?,
        Directive.flag?, List.findSome?_cons, hnone]
    | state known hknown =>
      have hnone : directives.findSome? Directive.state? = none := by
        rw [List.findSome?_eq_none_iff]
        intro d hd
        cases d with
        | text => rfl
        | state => exact (hother _ hd rfl).elim
        | flag => rfl
      simp [Directive.apply, textField, Directive.text?, Directive.state?, Directive.flag?,
        List.findSome?_cons, hnone]
    | flag key on =>
      have hnone : directives.findSome? (Directive.flag? key) = none := by
        rw [List.findSome?_eq_none_iff]
        intro d hd
        cases d with
        | text => rfl
        | state => rfl
        | flag k v =>
          have hne : k ≠ key := fun heq => hother _ hd (congrArg FlagKey.name heq)
          exact if_neg hne
      cases key <;> simp [Directive.apply, textField, Directive.text?, Directive.state?,
        Directive.flag?, List.findSome?_cons, hnone]

end Directives

section Rendering
variable {st : ConfState} {sections : List PrinterSection}

lemma startsWith_append (start rest : List UInt8) :
    startsWithIgnoreCase (start ++ rest) start = true := by
  rw [startsWithIgnoreCase_iff, List.map_append]
  exact List.prefix_append _ _

/-- The tags are told apart by the letters behind the brackets. -/
lemma startsWith_openingTag (isDefault : Bool) (rest : List UInt8) :
    startsWithIgnoreCase (openingTag isDefault ++ rest) (ascii "<DefaultPrinter ") = isDefault := by
  cases isDefault with
  | true => exact startsWith_append _ _
  | false =>
    rw [Bool.eq_false_iff, ne_eq, startsWithIgnoreCase_iff]
    intro h
    change 0x3C :: 0x64 :: _ <+: 0x3C :: 0x70 :: _ at h
    rw [List.cons_prefix_cons, List.cons_prefix_cons] at h
    exact absurd h.2.1 (by decide)

lemma confLine_openingTag (isDefault : Bool) (rest : List UInt8)
    (htrim : trimWhitespace (openingTag isDefault ++ rest) = openingTag isDefault ++ rest) :
    confLine st (openingTag isDefault ++ rest) = openSection st (openingTag isDefault ++ rest) := by
  unfold confLine
  rw [htrim]
  dsimp only
  rw [if_neg, if_pos]
  · cases isDefault with
    | true => exact .inr (startsWith_append _ _)
    | false => exact .inl (startsWith_append _ _)
  · cases isDefault <;> simp [openingTag, ascii]

/-- The opening tag of a section. -/
lemma confLine_opening (s : PrinterSection) (hin : st.inPrinter = false)
    (hdefault : s.isDefault = true → st.sawDefault = false) :
    confLine st (openingTag s.isDefault ++ (s.name.text ++ [0x3E])) = .ok { st with
      current := { id := s.name.text, name := s.name.text, isDefault := some s.isDefault }
      currentIsDefault := s.isDefault
      sawDefault := st.sawDefault || s.isDefault
      inPrinter := true } := by
  have htrim : trimWhitespace (openingTag s.isDefault ++ (s.name.text ++ [0x3E])) =
      openingTag s.isDefault ++ (s.name.text ++ [0x3E]) := by
    refine trimWhitespace_eq_self ?_ ?_
    · intro c hc
      cases hd : s.isDefault
      all_goals
        rw [hd] at hc
        cases hc
        rfl
    · intro c hc
      rw [← List.append_assoc, List.getLast?_concat] at hc
      cases hc
      rfl
  have hname := trimWhitespace_eq_self s.name.head_solid s.name.last_solid
  have hdrop : (openingTag s.isDefault ++ (s.name.text ++ [0x3E])).drop
      (if s.isDefault then 16 else 9) = s.name.text ++ [0x3E] := by
    cases s.isDefault <;> rfl
  have hfind : findByte 0x3E (s.name.text ++ [0x3E]) = some s.name.text.length :=
    findByte_append s.name.no_bracket []
  have hrest : (s.name.text ++ [0x3E]).drop (s.name.text.length + 1) = [] :=
    List.drop_eq_nil_of_le (by simp)
  rw [confLine_openingTag _ _ htrim, openSection, if_neg (by simp [hin])]
  simp only [startsWith_openingTag, hdrop, hfind, hrest, List.take_left, hname,
    validateUtf8_valid s.name.valid, ok_bind]
  rw [if_neg (by simp [trimWhitespace]), if_neg]
  rw [not_or]
  refine ⟨s.name.ne_nil, ?_⟩
  rintro ⟨hd, hsaw⟩
  rw [hdefault hd] at hsaw
  cases hsaw

/-- The closing tag of a section. -/
lemma confLine_closing (isDefault : Bool) (hin : st.inPrinter = true)
    (hdefault : st.currentIsDefault = isDefault) :
    confLine st (closingTag isDefault) = .ok { st with
      printers := st.printers ++ [{ st.current with
        type := classifyPrinterType st.current.uri st.current.name st.current.driverName }]
      inPrinter := false } := by
  have hclose : confLine st (closingTag isDefault) = closeSection st (closingTag isDefault) := by
    cases isDefault <;> rfl
  have htag : startsWithIgnoreCase (closingTag isDefault) (ascii "</DefaultPrinter>") = isDefault ∧
      trimWhitespace ((closingTag isDefault).drop (if isDefault then 17 else 10)) = [] := by
    cases isDefault <;> decide
  rw [hclose, closeSection]
  simp only [htag.1, htag.2]
  rw [if_neg]
  simp [hin, hdefault]

/-- A section gives its printer. -/
lemma foldlM_section (s : PrinterSection) (hin : st.inPrinter = false)
    (hdefault : s.isDefault = true → st.sawDefault = false) :
    ∃ next, s.lines.foldlM confLine st = .ok next ∧ next.printers = st.printers ++ [s.printer] ∧
      next.inPrinter = false ∧ next.sawDefault = (st.sawDefault || s.isDefault) := by
  have htext (value : Option (List UInt8)) :
      (value.elim [] fun v => textOr v []) = value.getD [] := by
    cases value with
    | none => rfl
    | some v =>
      simp only [Option.elim_some, textOr, Option.getD_some]
      split_ifs with hv
      · exact hv.symm
      · rfl
  rw [PrinterSection.lines, List.foldlM_cons, confLine_opening s hin hdefault, ok_bind,
    List.foldlM_append, foldlM_directives _ rfl, ok_bind, List.foldlM_cons,
    confLine_closing _ rfl rfl, ok_bind]
  refine ⟨_, rfl, ?_, rfl, rfl⟩
  simp only [foldl_apply s.distinct, textField, htext, Option.or_none]
  rfl

/-- Sections give their printers in order. -/
lemma foldlM_sections (hin : st.inPrinter = false)
    (hdefault : st.sawDefault.toNat + (sections.map PrinterSection.isDefault).count true ≤ 1) :
    ∃ next, (sections.flatMap PrinterSection.lines).foldlM confLine st = .ok next ∧
      next.printers = st.printers ++ sections.map PrinterSection.printer ∧
      next.inPrinter = false := by
  induction sections generalizing st with
  | nil => exact ⟨st, rfl, by simp, hin⟩
  | cons s sections ih =>
    rw [List.map_cons, List.count_cons] at hdefault
    have hone : s.isDefault = true → st.sawDefault = false := by
      intro hs
      cases hsaw : st.sawDefault with
      | false => rfl
      | true =>
        rw [hs, hsaw] at hdefault
        simp at hdefault
    obtain ⟨next, hrun, hprinters, hnext, hsaw⟩ := foldlM_section s hin hone
    obtain ⟨last, hlast, hall, hout⟩ := ih hnext (by
      rw [hsaw]
      cases hs : s.isDefault with
      | false => simpa [hs] using hdefault
      | true =>
        rw [hs, hone hs] at hdefault
        simp only [Bool.toNat_false, if_true, beq_self_eq_true] at hdefault ⊢
        rw [hone hs]
        simp only [Bool.false_or, Bool.toNat_true]
        omega)
    refine ⟨last, ?_, ?_, hout⟩
    · rw [List.flatMap_cons, List.foldlM_append, hrun, ok_bind, hlast]
    · rw [hall, hprinters, List.append_assoc, List.map_cons]
      rfl

/-- The printers of a written text are read in order; and whatever text is accepted, its tags are
those of sections that follow each other, with at most one default, and every printer has a valid
name. -/
theorem parse_cups_printers_conf :
    (∀ text sections, Renders text sections →
      (sections.map PrinterSection.isDefault).count true ≤ 1 →
      parseCupsPrintersConf text = .ok (sections.map PrinterSection.printer)) ∧
    ∀ text printers, parseCupsPrintersConf text = .ok printers →
      ∃ defaults, (lines 0x0A text).filterMap tagOf = sectionTags defaults ∧
        printers.map PrinterInfo.isDefault = defaults.map some ∧ defaults.count true ≤ 1 ∧
        ∀ printer ∈ printers, Named printer := by
  refine ⟨?_, fun text printers h => parseCupsPrintersConf_wellFormed h⟩
  intro text sections hrenders hone
  obtain ⟨next, hrun, hprinters, hin⟩ := @foldlM_sections {} sections rfl (by simpa using hone)
  unfold parseCupsPrintersConf
  rw [foldlM_content, hrenders, foldlM_trim, hrun, ok_bind, if_neg (by simp [hin]), hprinters]
  rfl

/-- A printer with three directives, and the default printer with one. -/
def officeSections : List PrinterSection :=
  [{ name := ⟨ascii "hall", by decide, by decide +kernel, by decide, by decide, by decide, by decide⟩
     isDefault := false
     directives :=
      [.text .info ⟨ascii "The hall", by decide +kernel, by decide, by decide, by decide⟩,
        .state .stopped (by decide), .flag .shared false]
     distinct := by decide },
    { name := ⟨ascii "desk", by decide, by decide +kernel, by decide, by decide, by decide, by decide⟩
      isDefault := true
      directives :=
        [.text .deviceUri
          ⟨ascii "usb://Acme/X", by decide +kernel, by decide, by decide, by decide⟩]
      distinct := by decide }]

/-- The sections with comments, blank lines, indentation and carriage returns. -/
theorem parse_cups_printers_conf_office :
    parseCupsPrintersConf
      (ascii "# Printer configuration file\n\n<Printer hall>\n  Info The hall\n\tState Stopped\n" ++
        ascii "# shared?\nShared No\n</Printer>\r\n \n<DefaultPrinter desk>\r\n" ++
        ascii "DeviceURI usb://Acme/X\r\n</DefaultPrinter>") =
      .ok (officeSections.map PrinterSection.printer) ∧
    officeSections.map PrinterSection.printer =
      [{ id := ascii "hall", name := ascii "hall", description := ascii "The hall",
         type := .unknown, state := .stopped, isDefault := some false, isShared := some false },
        { id := ascii "desk", name := ascii "desk", uri := ascii "usb://Acme/X",
          type := .localPrinter, isDefault := some true }] :=
  ⟨parse_cups_printers_conf.1 _ officeSections (by decide +kernel) (by decide), by decide +kernel⟩

end Rendering

end Syscape.Printer
