import Syscape.Lib.Checked
import Mathlib.Data.Int.Notation

/-!
# Errors and results

The portable error codes of the library and the `result` type of its queries. An
error is one of the library's own codes or a number of the operating system, which
the source wraps in the generic category.
-/
namespace Syscape
open Checked

/-- `syscape::errc`, without `success`, which no failing query reports. -/
inductive Errc where
  | unknown
  | notSupported
  | permissionDenied
  | notFound
  | temporarilyUnavailable
  | malformedData
  | ioError
  | invalidEncoding
  | valueTooLarge
  | resourceExhausted
  | invalidArgument
  deriving DecidableEq, Repr

/-- `std::error_code` in the two categories that the library uses. -/
inductive ErrorCode where
  | syscape (e : Errc)
  | generic (errno : ℤ)
  deriving DecidableEq, Repr

/-- `ENOENT`. -/
def enoent : ℤ := 2

/-- `EINTR`. -/
def eintr : ℤ := 4

/-- `EACCES`. -/
def eacces : ℤ := 13

abbrev Result (α : Type) := Except (Fault ErrorCode) α

/-- `fail(errc::...)`. -/
def fail {α : Type} (e : Errc) : Result α := .error (.fail (.syscape e))

/-- `fail(std::error_code(errno, std::generic_category()))`. -/
def failErrno {α : Type} (errno : ℤ) : Result α := .error (.fail (.generic errno))

@[simp] theorem defined_failErrc {α : Type} (e : Errc) : Defined (fail e : Result α) :=
  defined_fail _

@[simp] theorem defined_failErrno {α : Type} (n : ℤ) : Defined (failErrno n : Result α) :=
  defined_fail _

@[simp] theorem fail_bind {α β : Type} (e : Errc) (f : α → Result β) :
    ((fail e : Result α) >>= f) = fail e := rfl

@[simp] theorem fail_ne_ok {α : Type} (e : Errc) (a : α) : (fail e : Result α) ≠ .ok a := by
  simp [fail]

@[simp] theorem ok_ne_fail {α : Type} (e : Errc) (a : α) : (.ok a : Result α) ≠ fail e := by
  simp [fail]

/-- A check that was passed. -/
theorem guard_eq_ok {α : Type} {c : Prop} [Decidable c] {e : Errc} {x : Result α} {a : α} :
    (if c then fail e else x) = .ok a ↔ ¬ c ∧ x = .ok a := by
  by_cases h : c
  · simp [h]
  · simp [h]

end Syscape
