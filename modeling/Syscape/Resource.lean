import Syscape.ProcessMetrics

/-!
# Resource counts

The scanner of the resource queries, which takes tokens apart at blanks and tabulators
only, and the number of threads that they read from `/proc/<pid>/stat`.
-/
namespace Syscape.Resource
open Checked Text ProcessMetrics Numbers

/-- `token_scanner::separator`. -/
def separator (value : UInt8) : Bool := value == 0x20 || value == 0x09

/-- What `strip_line_break` removes. -/
def isLineEnd (c : UInt8) : Bool := c == 0x0A || c == 0x0D || c == 0x20 || c == 0x09

/-- `strip_line_break`. -/
def stripLineBreak (input : List UInt8) : List UInt8 := input.rdropWhile isLineEnd

/-- `parse_unsigned`. -/
def parseUnsigned (token : List UInt8) : Result ℕ := wholeUnsigned uint64Max token

/-- The tokens that the calls of `token_scanner::next` return before the empty one. -/
def scanTokens (input : List UInt8) : List (List UInt8) := splitBlank separator input

/-- `parse_thread_count`. -/
def parseThreadCount (input : List UInt8) : Result ℕ :=
  let input := stripLineBreak input
  match nameBounds input with
  | none => fail .malformedData
  | some (_, nameEnd) =>
    let tokens := scanTokens (input.drop (nameEnd + 1))
    if tokens.length < 17 then fail .malformedData
    else do
      let threads ← parseUnsigned (tokens.getD 17 [])
      if threads = 0 then fail .malformedData
      else .ok threads

end Syscape.Resource
