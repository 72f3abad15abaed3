import Syscape.Utf8Text
import Syscape.Utf16
import Syscape.Lib.StdSort
import Syscape.Lib.Paths
import Mathlib.Data.List.Lex

/-!
# Environment variables

Two ways into one environment: the value of a variable by its name, and the list of all
variables. The POSIX backend reads the strings of `environ`; the Windows backend reads a block
of UTF-16 strings, and asks for a single variable with a buffer that it lets grow.
-/
namespace Syscape.Environment
open Checked Utf8 StdSort Paths

section Errors

/-- An error code of the library or of the system category of Windows. -/
inductive NativeError where
  | code (e : ErrorCode)
  | system (value : ℕ)
  deriving DecidableEq, Repr

abbrev EnvResult (α : Type) := Except (Fault NativeError) α

/-- A result of the other modules. -/
def lift {α : Type} : Result α → EnvResult α
  | .ok a => .ok a
  | .error (.fail e) => .error (.fail (.code e))
  | .error .outOfBounds => .error .outOfBounds
  | .error .signedOverflow => .error .signedOverflow
  | .error .divideByZero => .error .divideByZero

/-- `fail(errc::...)`. -/
def envFail {α : Type} (e : Errc) : EnvResult α := .error (.fail (.code (.syscape e)))

@[simp] theorem lift_ok {α : Type} (a : α) : lift (.ok a) = .ok a := rfl

end Errors

section Common

/-- `environment_variable`. -/
structure EnvironmentVariable where
  name : List UInt8
  value : List UInt8
  deriving DecidableEq, Repr

/-- The comparison of the sort: by name, and then by value. -/
def variableLess : EnvironmentVariable → EnvironmentVariable → Bool :=
  fieldThen (·.name) (fun a b => decide (a.map UInt8.toNat < b.map UInt8.toNat))
    fun a b => decide (a.value.map UInt8.toNat < b.value.map UInt8.toNat)

/-- `validate_variable_name`. -/
def validateVariableName (name : List UInt8) : EnvResult Unit :=
  if name = [] then envFail .invalidArgument
  else if 0x3D ∈ name ∨ 0 ∈ name then envFail .invalidArgument
  else do
    let valid ← lift (isValidUtf8 name)
    if valid then .ok () else envFail .invalidEncoding

/-- What `has` makes of what was read. -/
def hasResult (value : EnvResult (List UInt8)) : EnvResult Bool :=
  match value with
  | .ok _ => .ok true
  | .error e => if e = .fail (.code (.syscape .notFound)) then .ok false else .error e

/-- The three queries of a backend. -/
structure Backend where
  get : List UInt8 → EnvResult (List UInt8)
  has : List UInt8 → EnvResult Bool
  environmentVariables : EnvResult (List EnvironmentVariable)

end Common

namespace Posix

/-- `getenv`: the value of the first entry with the name. -/
def getenv (environ : List (List UInt8)) (name : List UInt8) : Option (List UInt8) :=
  environ.findSome? fun entry =>
    if name ++ [0x3D] <+: entry then some (entry.drop (name.length + 1)) else none

/-- `get_raw`; the name is passed as a string that ends at the first NUL. -/
def getRaw (environ : List (List UInt8)) (name : List UInt8) : EnvResult (List UInt8) :=
  match getenv environ (name.takeWhile (· ≠ 0)) with
  | none => envFail .notFound
  | some value => .ok value

/-- `get`. -/
def get (environ : List (List UInt8)) (name : List UInt8) : EnvResult (List UInt8) := do
  validateVariableName name
  let value ← getRaw environ name
  let valid ← lift (isValidUtf8 value)
  if valid then .ok value else envFail .invalidEncoding

/-- `has`. -/
def has (environ : List (List UInt8)) (name : List UInt8) : EnvResult Bool := do
  validateVariableName name
  hasResult (getRaw environ name)

/-- The body of the loop in `environment_variables`. -/
def listEntry (vars : List EnvironmentVariable) (entry : List UInt8) :
    EnvResult (List EnvironmentVariable) :=
  match entry.idxOf? 0x3D with
  | none => .ok vars
  | some eq =>
    if eq = 0 then .ok vars
    else do
      let name := entry.take eq
      let value := entry.drop (eq + 1)
      let validName ← lift (isValidUtf8 name)
      let validValue ← lift (isValidUtf8 value)
      if !validName || !validValue then envFail .invalidEncoding else .ok (vars ++ [⟨name, value⟩])

/-- `environment_variables`; the list of strings may be a null pointer. -/
def environmentVariables (sorter : Sorter variableLess) (environ : Option (List (List UInt8))) :
    EnvResult (List EnvironmentVariable) :=
  match environ with
  | none => .ok []
  | some environ => do
    let vars ← environ.foldlM listEntry []
    .ok (sorter.sort vars)

def backend (sorter : Sorter variableLess) (environ : List (List UInt8)) : Backend where
  get := get environ
  has := has environ
  environmentVariables := environmentVariables sorter (some environ)

end Posix

namespace Windows

def errorSuccess : ℕ := 0
def errorGenFailure : ℕ := 31
def errorEnvvarNotFound : ℕ := 203

/-- What `GetEnvironmentVariableW` leaves behind when the last error was reset before. -/
structure NativeCall where
  copied : UInt32
  buffer : List UInt16
  lastError : ℕ

/-- The native functions: one variable for a buffer of a size, and the block of all, unless
there is an error. -/
structure NativeApi where
  getEnvironmentVariable : List UInt16 → UInt32 → NativeCall
  getEnvironmentStrings : Except ℕ (List UInt16)

/-- An error number of the system; success is reported as a general failure. -/
def systemError {α : Type} (error : ℕ) : EnvResult α :=
  .error (.fail (.system (if error ≠ errorSuccess then error else errorGenFailure)))

/-- The loop of `get_raw`, with the attempts that are left and the size of the buffer. -/
def getRawLoop (api : NativeApi) (wideName : List UInt16) : ℕ → ℕ → EnvResult (List UInt8)
  | 0, _ => envFail .temporarilyUnavailable
  | attempts + 1, size =>
    let call := api.getEnvironmentVariable wideName (UInt32.ofNat size)
    if call.copied = 0 then
      if call.lastError = errorEnvvarNotFound then envFail .notFound else systemError call.lastError
    else if call.copied.toNat < size then lift (utf16ToUtf8 (call.buffer.take call.copied.toNat))
    else getRawLoop api wideName attempts call.copied.toNat

/-- `utf8_to_wide`. -/
def utf8ToWide (value : List UInt8) : EnvResult (List UInt16) :=
  if value = [] then .ok [] else lift (utf8ToUtf16 value)

/-- `get_raw`; the name is passed as a string that ends at the first NUL. -/
def getRaw (api : NativeApi) (name : List UInt8) : EnvResult (List UInt8) := do
  let wideName ← utf8ToWide name
  getRawLoop api (wideName.takeWhile (· ≠ 0)) 3 256

/-- `get`. -/
def get (api : NativeApi) (name : List UInt8) : EnvResult (List UInt8) := do
  validateVariableName name
  getRaw api name

/-- `has`. -/
def has (api : NativeApi) (name : List UInt8) : EnvResult Bool := do
  validateVariableName name
  hasResult (getRaw api name)

/-- What the loop of `environment_variables` adds for an entry. -/
def listEntry (vars : List EnvironmentVariable) (entry : List UInt16) :
    EnvResult (List EnvironmentVariable) :=
  if entry = [] ∨ entry.head? = some 0x3D then .ok vars
  else
    match entry.idxOf? 0x3D with
    | none => .ok vars
    | some eqPos =>
      if eqPos = 0 then .ok vars
      else do
        let name ← lift (utf16ToUtf8 (entry.take eqPos))
        let value ← lift (utf16ToUtf8 (entry.drop (eqPos + 1)))
        .ok (vars ++ [⟨name, value⟩])

/-- The loop of `environment_variables` over the block from `current` on. -/
def walkBlock (current : List UInt16) (vars : List EnvironmentVariable) :
    EnvResult (List EnvironmentVariable) :=
  if _h : current = [] then .error .outOfBounds
  else if current.head? = some 0 then .ok vars
  else do
    let entry := current.takeWhile (· ≠ 0)
    let vars ← listEntry vars entry
    walkBlock (current.drop (entry.length + 1)) vars
termination_by current.length
decreasing_by
  rw [List.length_drop]
  have hpos := List.length_pos_iff.mpr _h
  omega

/-- `environment_variables`. -/
def environmentVariables (sorter : Sorter variableLess) (api : NativeApi) :
    EnvResult (List EnvironmentVariable) :=
  match api.getEnvironmentStrings with
  | .error error => systemError error
  | .ok block => do
    let vars ← walkBlock block []
    .ok (sorter.sort vars)

def backend (sorter : Sorter variableLess) (api : NativeApi) : Backend where
  get := get api
  has := has api
  environmentVariables := environmentVariables sorter api

end Windows

end Syscape.Environment
