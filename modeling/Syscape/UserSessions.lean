import Syscape.Smbios
import Syscape.Utf8Text
import Syscape.Lib.Durations
import Syscape.Lib.Text

/-!
# Login sessions

The sessions of the users in the `utmpx` database: each record of a user process is a session
with a terminal, perhaps a remote host, and the time of the login, which is converted from
seconds and microseconds to nanoseconds.
-/
namespace Syscape.User
open Checked Text Utf8 Durations StdSort
open Syscape.Smbios (bytesLess strictTotal_bytesLess)

section Records

/-- `session_type`. -/
inductive SessionType where
  | unknown
  | console
  | graphical
  | remote
  | pseudoTerminal
  | system
  | other
  deriving DecidableEq, Repr

/-- `session_state`. -/
inductive SessionState where
  | unknown
  | active
  | idle
  | disconnected
  | other
  deriving DecidableEq, Repr

/-- `session_info`; the time of the login is in nanoseconds since the epoch. -/
structure SessionInfo where
  userName : List UInt8 := []
  terminal : List UInt8 := []
  sessionId : Option (List UInt8) := none
  pid : Option ℕ := none
  type : SessionType := .unknown
  state : SessionState := .unknown
  remoteHost : Option (List UInt8) := none
  loginTime : Option ℤ := none
  deriving DecidableEq, Repr

/-- `struct timeval`. -/
structure Timeval where
  tvSec : ℤ
  tvUsec : ℤ
  deriving DecidableEq, Repr

/-- `struct utmpx`, whose texts are arrays that a NUL ends or that are full. -/
structure Utmpx where
  utType : ℤ
  utUser : List UInt8
  utLine : List UInt8
  utId : List UInt8
  utPid : ℤ
  utHost : List UInt8
  utTv : Timeval
  deriving DecidableEq, Repr

/-- `USER_PROCESS`. -/
def userProcess : ℤ := 7

/-- `fixed_array_to_string`. -/
def fixedArrayToString (array : List UInt8) : List UInt8 := array.takeWhile (· ≠ 0)

end Records

section Parser

/-- `rfind(prefix, 0) == 0`. -/
def startsWith (start : String) (text : List UInt8) : Bool := ascii start <+: text

/-- `find(part) != npos`. -/
def contains (part : String) (text : List UInt8) : Bool := findText (ascii part) text ≠ none

/-- `classify_posix_session_type`. -/
def classifyPosixSessionType (terminal remoteHost : List UInt8) : SessionType :=
  if startsWith ":" terminal ∨ startsWith ":" remoteHost ∨ contains "X11" terminal ∨
      contains "wayland" terminal then .graphical
  else if startsWith "tty" terminal ∨ terminal = ascii "console" then .console
  else if startsWith "pts/" terminal ∨ startsWith "pty" terminal ∨ startsWith "ttyp" terminal then
    if remoteHost ≠ [] ∧ remoteHost ≠ ascii ":0" ∧ remoteHost ≠ ascii ":0.0" ∧
        remoteHost ≠ ascii "localhost" ∧ remoteHost ≠ ascii "127.0.0.1" ∧
        remoteHost ≠ ascii "::1" ∧ ¬ startsWith ":" remoteHost ∧
        ¬ startsWith "tmux(" remoteHost ∧ ¬ startsWith "screen(" remoteHost then .remote
    else .pseudoTerminal
  else if remoteHost ≠ [] ∧ ¬ startsWith ":" remoteHost then .remote
  else .other

/-- A text has to be valid UTF-8. -/
def checkText (text : List UInt8) : Result Unit := do
  if ← isValidUtf8 text then .ok () else fail .invalidEncoding

/-- The time of the login: the sum is formed in microseconds and converted to nanoseconds. -/
def loginTime (time : Timeval) : Result (Option ℤ) :=
  if time.tvSec > 0 then do
    let sum ← addFiner 1000000 time.tvSec time.tvUsec
    let nanoseconds ← toFiner 1000 sum
    return some nanoseconds
  else .ok none

/-- The session of a record whose texts are valid. -/
def sessionOf (entry : Utmpx) (loginTime : Option ℤ) : SessionInfo :=
  let terminal := fixedArrayToString entry.utLine
  let id := fixedArrayToString entry.utId
  let host := fixedArrayToString entry.utHost
  let type := classifyPosixSessionType terminal host
  { userName := fixedArrayToString entry.utUser
    terminal := terminal
    sessionId := if id ≠ [] then some id else none
    pid := if entry.utPid > 0 then some entry.utPid.toNat else none
    type := type
    state := .active
    remoteHost := if type = .remote ∧ host ≠ [] then some host else none
    loginTime := loginTime }

/-- A text that may be missing. -/
def checkOptionalText (text : List UInt8) : Result Unit :=
  if text ≠ [] then checkText text else .ok ()

/-- The body of the loop in `parse_utmpx_entries`: a record that is left out gives nothing. -/
def readSession (entry : Utmpx) : Result (Option SessionInfo) :=
  if entry.utType ≠ userProcess then .ok none
  else if fixedArrayToString entry.utUser = [] then .ok none
  else do
    checkText (fixedArrayToString entry.utUser)
    checkText (fixedArrayToString entry.utLine)
    checkOptionalText (fixedArrayToString entry.utId)
    checkOptionalText (fixedArrayToString entry.utHost)
    let time ← loginTime entry.utTv
    return some (sessionOf entry time)

/-- The session of a record is added to the list. -/
def addSession (sessions : List SessionInfo) (entry : Utmpx) : Result (List SessionInfo) := do
  match ← readSession entry with
  | none => return sessions
  | some session => return sessions ++ [session]

/-- `operator<` of two numbers. -/
def numberLess (a b : ℕ) : Bool := decide (a < b)

/-- The comparison of `parse_utmpx_entries`. -/
def sessionLess : SessionInfo → SessionInfo → Bool :=
  fieldThen (·.userName) bytesLess <|
  fieldThen (·.terminal) bytesLess <|
  fieldThen (·.sessionId) (optionLess bytesLess) <|
  fun a b => optionLess numberLess a.pid b.pid

theorem strictWeak_sessionLess : StrictWeak sessionLess := by
  have hnumber : StrictTotal numberLess := StrictTotal.of_injective Function.injective_id
  apply StrictWeak.fieldThen strictTotal_bytesLess
  apply StrictWeak.fieldThen strictTotal_bytesLess
  apply StrictWeak.fieldThen strictTotal_bytesLess.option
  exact hnumber.option.on _

/-- `parse_utmpx_entries`, given the records that the reader delivers. -/
def parseUtmpxEntries (sorter : Sorter sessionLess) (entries : List Utmpx) :
    Result (List SessionInfo) := do
  let sessions ← entries.foldlM addSession []
  return sorter.sort sessions

end Parser

section LoginTimes
variable {time : Timeval} {entry : Utmpx} {entries : List Utmpx}

/-- The record counts as a session. -/
def Utmpx.Counted (entry : Utmpx) : Prop :=
  entry.utType = userProcess ∧ fixedArrayToString entry.utUser ≠ []

instance (entry : Utmpx) : Decidable entry.Counted := inferInstanceAs (Decidable (_ ∧ _))

/-- The texts of the record are valid. -/
structure Utmpx.Legible (entry : Utmpx) : Prop where
  user : ValidUtf8 (fixedArrayToString entry.utUser)
  line : ValidUtf8 (fixedArrayToString entry.utLine)
  id : ValidUtf8 (fixedArrayToString entry.utId)
  host : ValidUtf8 (fixedArrayToString entry.utHost)

/-- The time of the login, computed without bounds. -/
def Timeval.exact (time : Timeval) : Option ℤ :=
  if time.tvSec > 0 then some ((time.tvSec * 1000000 + time.tvUsec) * 1000) else none

/-- The time is not set, or its microseconds and its nanoseconds have 64 bits. -/
def Timeval.Representable (time : Timeval) : Prop :=
  time.tvSec ≤ 0 ∨ Fits (time.tvSec * 1000000) ∧
    Fits ((time.tvSec * 1000000 + time.tvUsec) * 1000)

instance (time : Timeval) : Decidable time.Representable := inferInstanceAs (Decidable (_ ∨ _))

theorem checkText_of_valid {text : List UInt8} (h : ValidUtf8 text) : checkText text = .ok () := by
  rw [checkText, isValidUtf8_eq, decide_eq_true h, ok_bind]
  rfl

theorem checkOptionalText_of_valid {text : List UInt8} (h : ValidUtf8 text) :
    checkOptionalText text = .ok () := by
  rw [checkOptionalText]
  split_ifs
  · exact checkText_of_valid h
  · rfl

/-- The time of the login is exact, or its computation overflows. -/
theorem loginTime_eq (time : Timeval) :
    loginTime time = if time.Representable then .ok time.exact else .error .signedOverflow := by
  rw [loginTime, Timeval.exact]
  by_cases hset : time.tvSec > 0
  · rw [if_pos hset]
    by_cases hfits : time.Representable
    · obtain hunset | ⟨hproduct, hnanoseconds⟩ := hfits
      · omega
      rw [if_pos (.inr ⟨hproduct, hnanoseconds⟩), if_pos hset,
        addFiner_of_fits hproduct (fits_of_fits_mul (by decide) hnanoseconds), ok_bind, toFiner,
        int64_of_fits hnanoseconds]
      rfl
    · rw [if_neg hfits]
      have hnanoseconds : Fits (time.tvSec * 1000000) →
          ¬ Fits ((time.tvSec * 1000000 + time.tvUsec) * 1000) :=
        fun hproduct hnanoseconds => hfits (.inr ⟨hproduct, hnanoseconds⟩)
      by_cases hsum : Fits (time.tvSec * 1000000) ∧ Fits (time.tvSec * 1000000 + time.tvUsec)
      · rw [addFiner_of_fits hsum.1 hsum.2, ok_bind, toFiner,
          int64_of_not_fits (hnanoseconds hsum.1), error_bind]
      · rw [addFiner_of_not_fits fun hproduct h => hsum ⟨hproduct, h⟩, error_bind]
  · rw [if_neg hset, if_neg hset, if_pos (.inl (not_lt.mp hset))]

theorem addSession_of_not_counted (h : ¬ entry.Counted) (sessions : List SessionInfo) :
    addSession sessions entry = .ok sessions := by
  have hread : readSession entry = .ok none := by
    rw [readSession]
    by_cases htype : entry.utType = userProcess
    · rw [if_neg (by simpa using htype), if_pos (by by_contra hne; exact h ⟨htype, hne⟩)]
    · rw [if_pos htype]
  rw [addSession, hread]
  rfl

theorem addSession_of_counted (h : entry.Counted) (hlegible : entry.Legible)
    (sessions : List SessionInfo) :
    addSession sessions entry =
      if entry.utTv.Representable then .ok (sessions ++ [sessionOf entry entry.utTv.exact])
      else .error .signedOverflow := by
  rw [addSession, readSession, if_neg (by simpa using h.1), if_neg h.2,
    checkText_of_valid hlegible.user, ok_bind, checkText_of_valid hlegible.line, ok_bind,
    checkOptionalText_of_valid hlegible.id, ok_bind, checkOptionalText_of_valid hlegible.host,
    ok_bind, loginTime_eq]
  split_ifs <;> rfl

/-- The sessions with the exact times. -/
def exactSessions (entries : List Utmpx) : List SessionInfo :=
  (entries.filter (·.Counted)).map fun entry => sessionOf entry entry.utTv.exact

/-- The loop adds the exact sessions up to the first time that overflows. -/
theorem foldlM_addSession (entries : List Utmpx)
    (h : ∀ entry ∈ entries, entry.Counted → entry.Legible) (sessions : List SessionInfo) :
    entries.foldlM addSession sessions =
      if ∀ entry ∈ entries, entry.Counted → entry.utTv.Representable then
        .ok (sessions ++ exactSessions entries)
      else .error .signedOverflow := by
  induction entries generalizing sessions with
  | nil => simp [exactSessions]
  | cons entry entries ih =>
    rw [List.forall_mem_cons] at h
    rw [List.foldlM_cons, exactSessions, List.filter_cons]
    simp only [List.forall_mem_cons]
    by_cases hcounted : entry.Counted
    · rw [addSession_of_counted hcounted (h.1 hcounted)]
      by_cases htime : entry.utTv.Representable
      · rw [if_pos htime, ok_bind, ih h.2]
        simp [hcounted, htime, exactSessions]
      · rw [if_neg htime, error_bind, if_neg fun hall => htime (hall.1 hcounted)]
    · rw [addSession_of_not_counted hcounted, ok_bind, ih h.2]
      simp [hcounted, exactSessions]

/-- The query returns the sorted sessions with the exact times, or refuses one of them. -/
def ReturnsExact (sorter : Sorter sessionLess) (entries : List Utmpx) : Prop :=
  parseUtmpxEntries sorter entries = .ok (sorter.sort (exactSessions entries)) ∨
    parseUtmpxEntries sorter entries = fail .valueTooLarge

theorem returnsExact_iff (sorter : Sorter sessionLess)
    (h : ∀ entry ∈ entries, entry.Counted → entry.Legible) :
    ReturnsExact sorter entries ↔
      ∀ entry ∈ entries, entry.Counted → entry.utTv.Representable := by
  rw [ReturnsExact, parseUtmpxEntries, foldlM_addSession entries h]
  by_cases htimes : ∀ entry ∈ entries, entry.Counted → entry.utTv.Representable
  · rw [if_pos htimes]
    exact iff_of_true (.inl rfl) htimes
  · rw [if_neg htimes, error_bind]
    refine iff_of_false ?_ htimes
    rintro (h | h) <;> cases h

end LoginTimes

end Syscape.User
