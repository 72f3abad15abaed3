import Syscape.Error
import Syscape.Lib.Lines
import Syscape.Lib.Text

/-!
# Texts and records of the software queries

The records that the readers of package databases and update lists fill in, and the
trimming that all of these readers use.
-/
namespace Syscape.Software
open Text

/-- `std::isspace` in the C locale. -/
def isspace (c : UInt8) : Bool := c == 0x20 || (0x09 ≤ c && c ≤ 0x0D)

/-- No digit and no letter is a blank, and no byte behind them. -/
theorem isspace_eq_false {c : UInt8} (h : 0x30 ≤ c) : isspace c = false := by
  have hc : 0x30 ≤ c.toNat := h
  unfold isspace
  rw [Bool.or_eq_false_iff, Bool.and_eq_false_iff]
  refine ⟨?_, .inr ?_⟩
  · rw [beq_eq_false_iff_ne]
    rintro rfl
    simp at hc
  · rw [decide_eq_false_iff_not]
    intro hle
    have : c.toNat ≤ 0x0D := hle
    omega

/-- `trim_whitespace_view`. -/
def trimWhitespaceView (sv : List UInt8) : List UInt8 := (sv.dropWhile isspace).rdropWhile isspace

/-- `package_format`. -/
inductive PackageFormat where
  | unknown
  | dpkg
  | rpm
  | pacman
  | apk
  | desktopEntry
  | windowsInstaller
  | macosBundle
  deriving DecidableEq, Repr

/-- `package_record`. -/
structure PackageRecord where
  name : List UInt8 := []
  version : Option (List UInt8) := none
  publisher : Option (List UInt8) := none
  installLocation : Option (List UInt8) := none
  architecture : Option (List UInt8) := none
  format : PackageFormat := .unknown
  description : Option (List UInt8) := none
  deriving DecidableEq, Repr

/-- `update_classification`. -/
inductive UpdateClassification where
  | unknown
  | security
  | critical
  | bugfix
  | feature
  | definition
  | driver
  | rollup
  deriving DecidableEq, Repr

/-- `update_severity`. -/
inductive UpdateSeverity where
  | unknown
  | unspecified
  | low
  | moderate
  | important
  | critical
  deriving DecidableEq, Repr

/-- `update_record`. -/
structure UpdateRecord where
  identifier : List UInt8 := []
  title : List UInt8 := []
  version : Option (List UInt8) := none
  classification : UpdateClassification := .unknown
  severity : UpdateSeverity := .unknown
  requiresReboot : Bool := false
  description : Option (List UInt8) := none
  deriving DecidableEq, Repr

/-- White space behind a text is trimmed with it. -/
theorem trimWhitespaceView_append {text blanks : List UInt8}
    (h : ∀ c ∈ blanks, isspace c = true) :
    trimWhitespaceView (text ++ blanks) = trimWhitespaceView text :=
  trim_append_blanks h

/-- A text without white space at its ends is not trimmed. -/
theorem trimWhitespaceView_eq_self {text : List UInt8} (hhead : ∀ c ∈ text.head?, isspace c = false)
    (hlast : ∀ c ∈ text.getLast?, isspace c = false) : trimWhitespaceView text = text := by
  have h := @trim_blanks isspace [] text [] (by simp) (by simp) hhead hlast
  rwa [List.nil_append, List.append_nil] at h

/-- Neither is a text behind a text that is not white space. -/
theorem trimWhitespaceView_append_eq_self {start text : List UInt8} (hne : start ≠ [])
    (hstart : ∀ c ∈ start, isspace c = true → some c ≠ start.head? ∧ some c ≠ start.getLast?)
    (hlast : ∀ c ∈ text.getLast?, isspace c = false) :
    trimWhitespaceView (start ++ text) = start ++ text := by
  apply trimWhitespaceView_eq_self
  · intro c hc
    rw [List.head?_append_of_ne_nil _ hne] at hc
    by_contra hspace
    exact (hstart c (List.mem_of_mem_head? hc) (by simpa using hspace)).1 hc.symm
  · intro c hc
    rw [List.getLast?_append] at hc
    cases htext : text.getLast? with
    | some d =>
      rw [htext] at hc
      cases hc
      exact hlast _ htext
    | none =>
      rw [htext, Option.none_or] at hc
      by_contra hspace
      exact (hstart c (List.mem_of_mem_getLast? hc) (by simpa using hspace)).2 hc.symm

theorem trimWhitespaceView_blank {text : List UInt8} (h : ∀ c ∈ text, isspace c = true) :
    trimWhitespaceView text = [] := by
  rw [trimWhitespaceView, List.dropWhile_eq_nil_iff.mpr h, List.rdropWhile_nil]

end Syscape.Software
