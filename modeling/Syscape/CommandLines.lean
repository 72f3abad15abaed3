import Syscape.Process
import Syscape.ProcessList

/-!
# Command lines

The kernel writes the arguments of a process one after the other, each followed by NUL.
Two modules take them apart, one by splitting what stands before the last NUL, the other
argument by argument.
-/
namespace Syscape.CommandLine
open Lines Utf8 Process ProcessList

/-- `/proc/<pid>/cmdline` for a list of arguments. -/
def render (args : List (List UInt8)) : List UInt8 := args.flatMap (· ++ [0])

theorem checkArgument_valid {arg : List UInt8} (h : ValidUtf8 arg) :
    checkArgument arg = .ok arg := by
  rw [checkArgument, isValidUtf8_eq, decide_eq_true h]
  rfl

theorem mapM_checkArgument {args : List (List UInt8)} (h : ∀ arg ∈ args, ValidUtf8 arg) :
    args.mapM checkArgument = .ok args := by
  have hall := Checked.mapM_eq_ok fun arg harg => checkArgument_valid (h arg harg)
  rwa [List.map_id'] at hall

/-- Both parsers split a valid text that ends in NUL at its other NUL bytes. -/
theorem parse_terminated {text : List UInt8} (h : ValidUtf8 (text ++ [0])) :
    parseCommandLine (text ++ [0]) = .ok (text.splitOn 0) ∧
      parseProcCmdline (text ++ [0]) = .ok (text.splitOn 0) := by
  have hvalid : ∀ arg ∈ text.splitOn 0, ValidUtf8 arg :=
    validUtf8_splitOn (by decide) ((validUtf8_append_ascii (by decide)).mp h).1
  have hlines : lines 0 (text ++ [0]) = text.splitOn 0 := by
    rw [lines_append_sep_append, lines_nil, splitOn_eq]
  constructor
  · simp [parseCommandLine]
  · rw [parseProcCmdline, if_neg (by simp), if_neg (by simp), hlines, mapM_checkArgument hvalid]

/-- A valid text is taken apart alike, and refused alike without a NUL at its end. -/
theorem parsers_agree {input : List UInt8} (h : ValidUtf8 input) :
    parseCommandLine input = parseProcCmdline input := by
  rcases List.eq_nil_or_concat input with rfl | ⟨text, last, rfl⟩
  · rfl
  · by_cases hlast : last = 0
    · subst hlast
      obtain ⟨hleft, hright⟩ := parse_terminated (by simpa using h)
      rw [List.concat_eq_append, hleft, hright]
    · simp [parseCommandLine, parseProcCmdline, hlast]

theorem parse_render {args : List (List UInt8)} (h : ∀ arg ∈ args, 0 ∉ arg ∧ ValidUtf8 arg) :
    parseCommandLine (render args) = .ok args ∧ parseProcCmdline (render args) = .ok args := by
  by_cases hne : args = []
  · subst hne
    exact ⟨rfl, rfl⟩
  · have htext : render args = [0].intercalate args ++ [0] := flatMap_eq_intercalate hne
    have hvalid : ValidUtf8 (render args) := by
      unfold render
      clear htext hne
      induction args with
      | nil => exact validUtf8_nil
      | cons arg args ih =>
        rw [List.flatMap_cons, List.append_assoc, List.singleton_append,
          validUtf8_append_ascii (by decide)]
        exact ⟨(h arg (by simp)).2, ih fun a ha => h a (by simp [ha])⟩
    have hsplit : ([0].intercalate args).splitOn 0 = args :=
      List.splitOn_intercalate 0 (fun arg harg => (h arg harg).1) hne
    rw [htext] at hvalid ⊢
    simpa [hsplit] using parse_terminated hvalid

/-- Arguments without NUL come back from both parsers, empty ones included, and on every
valid text the two parsers return the same list or both fail. -/
theorem command_lines_decoded :
    (∀ args : List (List UInt8), (∀ arg ∈ args, 0 ∉ arg ∧ ValidUtf8 arg) →
      parseCommandLine (render args) = .ok args ∧ parseProcCmdline (render args) = .ok args) ∧
    ∀ input : List UInt8, ValidUtf8 input → parseCommandLine input = parseProcCmdline input :=
  ⟨fun _ => parse_render, fun _ => parsers_agree⟩

/-- An argument vector with empty arguments, and a title without a final NUL. -/
theorem empty_arguments_decoded :
    parseCommandLine [0, 0x61, 0, 0] = .ok [[], [0x61], []] ∧
      parseProcCmdline [0x61] = fail .malformedData := by
  have hargs : ∀ arg ∈ ([[], [0x61], []] : List (List UInt8)), 0 ∉ arg ∧ ValidUtf8 arg := by
    intro arg harg
    have hcases : arg = [] ∨ arg = [0x61] := by simpa [or_comm, or_assoc] using harg
    rcases hcases with rfl | rfl
    · exact ⟨by simp, validUtf8_nil⟩
    · exact ⟨by simp, validUtf8_singleton (by decide)⟩
  exact ⟨(command_lines_decoded.1 _ hargs).1,
    (command_lines_decoded.2 [0x61] (validUtf8_singleton (by decide))).symm.trans rfl⟩

end Syscape.CommandLine
