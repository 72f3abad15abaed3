import Syscape.CommandLines

/-!
# Argument buffers of the BSD systems

On FreeBSD and NetBSD a process gets its arguments from `sysctl`: a first call asks for the
size of the buffer, a second one fills it. Two queries on each system take the buffer apart
at its NUL bytes.
-/
namespace Syscape.ArgumentBuffer
open Checked Lines Utf8 CommandLine

/-- `ENOMEM`. -/
def enomem : ℤ := 12

/-- `EPERM`. -/
def eperm : ℤ := 1

/-- The answers of `sysctl` to the attempts of a query: a size or an error number, and for a
buffer of a given size what it holds after the call together with the size reported. -/
structure ArgumentCalls where
  size : ℕ → Except ℤ ℕ
  fetch : ℕ → ℕ → Except ℤ (List UInt8 × ℕ)

/-- The buffer is delivered complete at every attempt. -/
def Delivers (calls : ArgumentCalls) (buffer : List UInt8) : Prop :=
  ∀ attempt, calls.size attempt = .ok buffer.length ∧
    calls.fetch attempt buffer.length = .ok (buffer, buffer.length)

section Loops

/-- The loop over the buffer in three of the queries; `accept` is what they do with an
argument. It returns the arguments and where the next one would start. -/
def splitArguments (accept : List (List UInt8) → List UInt8 → Result (List (List UInt8)))
    (buffer : List UInt8) (size i start : ℕ) (args : List (List UInt8)) :
    Result (List (List UInt8) × ℕ) :=
  if i < size then do
    if (← read buffer i) = 0 then do
      let argument ← slice buffer start (i - start)
      let args ← accept args argument
      splitArguments accept buffer size (i + 1) (i + 1) args
    else splitArguments accept buffer size (i + 1) start args
  else .ok (args, start)
termination_by size - i

/-- The inner loop of `get_process_args`. -/
def argumentEnd (buffer : List UInt8) (size stop : ℕ) : Result ℕ :=
  if stop < size then do
    if (← read buffer stop) ≠ 0 then argumentEnd buffer size (stop + 1) else .ok stop
  else .ok stop
termination_by size - stop

theorem le_of_argumentEnd {buffer : List UInt8} {size start stop : ℕ}
    (h : argumentEnd buffer size start = .ok stop) : start ≤ stop := by
  induction hn : size - start generalizing start with
  | zero =>
    rw [argumentEnd, if_neg (by omega)] at h
    cases h
    exact le_rfl
  | succ n ih =>
    rw [argumentEnd, if_pos (by omega)] at h
    obtain ⟨c, -, h⟩ := bind_eq_ok.mp h
    split_ifs at h with hc
    · have := ih h (by omega)
      omega
    · cases h
      exact le_rfl

/-- The outer loop of `get_process_args`. -/
def processArgsFrom (buffer : List UInt8) (size start : ℕ) (args : List (List UInt8)) :
    Result (List (List UInt8)) :=
  if start < size then
    match _h : argumentEnd buffer size start with
    | .error f => .error f
    | .ok stop => do
      let arg ← slice buffer start (stop - start)
      if ← isValidUtf8 arg then processArgsFrom buffer size (stop + 1) (args ++ [arg])
      else processArgsFrom buffer size (stop + 1) args
  else .ok args
termination_by size - start
decreasing_by
  all_goals
    have := le_of_argumentEnd _h
    omega

end Loops

namespace FreeBsd

/-- `maximum_size` of `command_line`, 16 MiB. -/
def maximumSize : ℕ := 16 * 1024 * 1024

/-- The attempts of `command_line` to get the buffer. -/
def load (calls : ArgumentCalls) (attempt : ℕ) : ℕ → Result (List UInt8 × ℕ)
  | 0 => fail .temporarilyUnavailable
  | left + 1 =>
    match calls.size attempt with
    | .error errno => failErrno errno
    | .ok size =>
      if size = 0 then fail .notFound
      else if size > maximumSize then fail .valueTooLarge
      else
        match calls.fetch attempt size with
        | .ok (buffer, filled) =>
          if filled ≤ size then .ok (buffer, filled) else load calls (attempt + 1) left
        | .error errno =>
          if errno ≠ enomem then failErrno errno else load calls (attempt + 1) left

/-- Every argument is taken as it is. -/
def accept (args : List (List UInt8)) (argument : List UInt8) : Result (List (List UInt8)) :=
  .ok (args ++ [argument])

/-- `command_line`. -/
def commandLine (calls : ArgumentCalls) : Result (List (List UInt8)) := do
  let (buffer, size) ← load calls 0 4
  let (args, start) ← splitArguments accept buffer size 0 0 []
  if start ≠ size then fail .malformedData
  else if args = [] then fail .notFound
  else .ok args

/-- `get_process_args`. -/
def getProcessArgs (calls : ArgumentCalls) : Result (Option (List (List UInt8))) :=
  match calls.size 0 with
  | .error _ => .ok none
  | .ok size =>
    if size = 0 then .ok none
    else
      match calls.fetch 0 size with
      | .error _ => .ok none
      | .ok (buffer, size) =>
        if size = 0 then .ok none
        else do
          let args ← processArgsFrom buffer size 0 []
          .ok (some args)

end FreeBsd

namespace NetBsd

/-- Empty arguments are left out, and no other text than UTF-8 is taken. -/
def accept (args : List (List UInt8)) (argument : List UInt8) : Result (List (List UInt8)) :=
  if argument = [] then .ok args
  else do
    if ← isValidUtf8 argument then .ok (args ++ [argument]) else fail .invalidEncoding

/-- The arguments in a buffer, whose last byte has to end one. -/
def decode (buffer : List UInt8) (size : ℕ) : Result (List (List UInt8)) := do
  let (args, start) ← splitArguments accept buffer size 0 0 []
  if start ≠ size then fail .malformedData else .ok args

/-- The error that `command_line` reports for an error number. -/
def callError (errno : ℤ) : Result (List (List UInt8)) :=
  if errno = enoent then fail .notFound
  else if errno = eacces ∨ errno = eperm then fail .permissionDenied
  else failErrno errno

/-- `command_line`. -/
def commandLine (calls : ArgumentCalls) : Result (List (List UInt8)) :=
  match calls.size 0 with
  | .error errno => callError errno
  | .ok size =>
    if size = 0 then .ok []
    else
      match calls.fetch 0 size with
      | .error errno => callError errno
      | .ok (buffer, filled) =>
        if filled > size then fail .temporarilyUnavailable else decode buffer filled

/-- The attempts of `get_process_command_line`. -/
def attempts (calls : ArgumentCalls) (attempt : ℕ) : ℕ → Result (Option (List (List UInt8)))
  | 0 => fail .temporarilyUnavailable
  | left + 1 =>
    match calls.size attempt with
    -- all error numbers are answered alike, those of a missing process included
    | .error _ => .ok none
    | .ok size =>
      if size = 0 then .ok none
      else
        match calls.fetch attempt size with
        | .error errno => if errno = enomem then attempts calls (attempt + 1) left else .ok none
        | .ok (buffer, filled) =>
          if filled > size then attempts calls (attempt + 1) left
          else do
            let args ← decode buffer filled
            .ok (some args)

/-- `get_process_command_line`. -/
def getProcessCommandLine (calls : ArgumentCalls) : Result (Option (List (List UInt8))) :=
  attempts calls 0 4

end NetBsd

section Splitting

/-- The loop hands the pieces that a NUL byte ends to `accept`, one after the other, and
stops at the start of the rest. `cur` is the part of a piece that has been passed. -/
theorem splitArguments_eq (accept : List (List UInt8) → List UInt8 → Result (List (List UInt8)))
    (pre cur post : List UInt8) (args : List (List UInt8)) (hcur : 0 ∉ cur) :
    splitArguments accept (pre ++ cur ++ post) (pre ++ cur ++ post).length
        (pre.length + cur.length) pre.length args =
      (complete 0 (cur ++ post)).foldlM accept args >>= fun out =>
        .ok (out, (pre ++ cur ++ post).length - (rest 0 (cur ++ post)).length) := by
  induction post generalizing pre cur args with
  | nil =>
    rw [splitArguments, if_neg (by simp), List.append_nil, complete_of_not_mem hcur,
      rest_of_not_mem hcur]
    simp
  | cons c post ih =>
    have hread : (read (pre ++ cur ++ c :: post) (pre.length + cur.length) : Result UInt8) =
        .ok c := by
      rw [← List.length_append, read_append_length, read_cons_zero]
    rw [splitArguments, if_pos (by simp), hread, ok_bind]
    split_ifs with hc
    · subst hc
      have hslice : (slice (pre ++ cur ++ 0 :: post) pre.length
          (pre.length + cur.length - pre.length) : Result (List UInt8)) = .ok cur := by
        rw [Nat.add_sub_cancel_left]
        exact slice_append pre cur (0 :: post)
      rw [hslice, ok_bind, complete_append_sep, rest_append_sep, complete_of_not_mem hcur,
        rest_of_not_mem hcur, List.nil_append, List.foldlM_cons, bind_assoc]
      congr 1
      funext args'
      have h := ih (pre ++ cur ++ [0]) [] args' (by simp)
      simp only [List.append_nil, List.nil_append, List.append_assoc, List.singleton_append,
        List.length_append, List.length_cons, List.length_nil, add_zero] at h ⊢
      rw [← h]
      congr 1
    · have h := ih pre (cur ++ [c]) args (by simpa [eq_comm] using ⟨hcur, hc⟩)
      simp only [List.append_assoc, List.singleton_append, List.length_append,
        List.length_cons, List.length_nil] at h ⊢
      rw [← h]
      congr 1

/-- The whole buffer is taken apart. -/
theorem splitArguments_buffer
    (accept : List (List UInt8) → List UInt8 → Result (List (List UInt8)))
    (buffer : List UInt8) :
    splitArguments accept buffer buffer.length 0 0 [] =
      (complete 0 buffer).foldlM accept [] >>= fun out =>
        .ok (out, buffer.length - (rest 0 buffer).length) :=
  splitArguments_eq accept [] [] buffer [] (by simp)

/-- The next argument would start at the end if nothing is left behind the last NUL. -/
theorem start_eq_length (buffer : List UInt8) :
    buffer.length - (rest 0 buffer).length = buffer.length ↔ rest 0 buffer = [] := by
  have hlength := congrArg List.length (flatMap_complete 0 buffer)
  rw [List.length_append] at hlength
  rw [← List.length_eq_zero_iff]
  omega

theorem argumentEnd_eq (pre piece post : List UInt8) (h : 0 ∉ piece)
    (hpost : post = [] ∨ post.head? = some 0) :
    argumentEnd (pre ++ piece ++ post) (pre ++ piece ++ post).length pre.length =
      .ok (pre.length + piece.length) := by
  induction piece generalizing pre with
  | nil =>
    rw [argumentEnd]
    rcases hpost with rfl | hpost
    · simp
    · obtain ⟨more, rfl⟩ := List.head?_eq_some_iff.mp hpost
      rw [if_pos (by simp), List.append_nil, read_append_length, read_cons_zero]
      simp
  | cons c piece ih =>
    have hc : c ≠ 0 := fun hc => h (by simp [hc])
    have hnext := ih (pre ++ [c]) fun hmem => h (by simp [hmem])
    rw [argumentEnd, if_pos (by simp), List.append_assoc, List.cons_append,
      read_append_length, read_cons_zero, ok_bind, if_pos hc]
    simp only [List.append_assoc, List.cons_append, List.nil_append, List.length_append,
      List.length_cons, List.length_nil, zero_add] at hnext ⊢
    rw [hnext]
    congr 1
    omega

/-- One argument of `get_process_args`. -/
theorem processArgsFrom_step (pre piece post : List UInt8) (args : List (List UInt8))
    (h : 0 ∉ piece) (hpost : post = [] ∨ post.head? = some 0) (hne : piece ++ post ≠ []) :
    processArgsFrom (pre ++ piece ++ post) (pre ++ piece ++ post).length pre.length args =
      processArgsFrom (pre ++ piece ++ post) (pre ++ piece ++ post).length
        (pre.length + piece.length + 1)
        (args ++ if ValidUtf8 piece then [piece] else []) := by
  have hlt : pre.length < (pre ++ piece ++ post).length := by
    have := List.length_pos_iff.mpr hne
    simp only [List.length_append] at this ⊢
    omega
  rw [processArgsFrom, if_pos hlt]
  split
  · next f hf =>
    rw [argumentEnd_eq pre piece post h hpost] at hf
    cases hf
  · next stop hstop =>
    rw [argumentEnd_eq pre piece post h hpost] at hstop
    cases hstop
    rw [Nat.add_sub_cancel_left, slice_append, ok_bind, isValidUtf8_eq, ok_bind]
    by_cases hvalid : ValidUtf8 piece
    · simp [hvalid]
    · simp [hvalid]

/-- `get_process_args` keeps the valid ones among the pieces. -/
theorem processArgsFrom_eq (pre text : List UInt8) (args : List (List UInt8)) :
    processArgsFrom (pre ++ text) (pre ++ text).length pre.length args =
      .ok (args ++ (lines 0 text).filter (ValidUtf8 ·)) := by
  induction hn : text.length using Nat.strongRecOn generalizing pre text args with
  | ind n ih =>
    by_cases hnil : text = []
    · subst hnil
      rw [processArgsFrom, if_neg (by simp), lines_nil, List.filter_nil, List.append_nil]
    · by_cases hmem : (0 : UInt8) ∈ text
      · obtain ⟨piece, more, rfl, hpiece⟩ := List.eq_append_cons_of_mem hmem
        have hstep := processArgsFrom_step pre piece (0 :: more) args hpiece (.inr rfl) (by simp)
        have hmore := ih more.length (by simp [← hn]; omega) (pre ++ piece ++ [0]) more
          (args ++ if ValidUtf8 piece then [piece] else []) rfl
        simp only [List.append_assoc, List.singleton_append, List.length_append,
          List.length_cons, List.length_nil, zero_add, ← add_assoc] at hstep hmore ⊢
        rw [hstep, hmore, lines_append_sep hpiece, List.filter_cons, ← List.append_assoc]
        by_cases hvalid : ValidUtf8 piece
        · simp [hvalid]
        · simp [hvalid]
      · have hstep := processArgsFrom_step pre text [] args hmem (.inl rfl) (by simpa using hnil)
        rw [List.append_nil] at hstep
        rw [hstep, processArgsFrom, if_neg (by simp), lines_of_not_mem hmem hnil]
        by_cases hvalid : ValidUtf8 text
        · simp [hvalid]
        · simp [hvalid]

end Splitting

section Queries
variable {calls : ArgumentCalls} {buffer : List UInt8}

theorem foldlM_freeBsd_accept (pieces args : List (List UInt8)) :
    pieces.foldlM FreeBsd.accept args = .ok (args ++ pieces) := by
  induction pieces generalizing args with
  | nil => simp
  | cons piece pieces ih =>
    rw [List.foldlM_cons, FreeBsd.accept, ok_bind, ih, List.append_assoc, List.singleton_append]

theorem foldlM_netBsd_accept (pieces args : List (List UInt8)) :
    pieces.foldlM NetBsd.accept args =
      if ∀ piece ∈ pieces, ValidUtf8 piece then .ok (args ++ pieces.filter (· ≠ []))
      else fail .invalidEncoding := by
  induction pieces generalizing args with
  | nil => simp
  | cons piece pieces ih =>
    rw [List.foldlM_cons, NetBsd.accept]
    by_cases hempty : piece = []
    · subst hempty
      rw [if_pos rfl, ok_bind, ih]
      simp
    · rw [if_neg hempty, isValidUtf8_eq, ok_bind]
      by_cases hvalid : ValidUtf8 piece
      · rw [if_pos (by simpa using hvalid), ok_bind, ih]
        simp [hvalid, hempty]
      · rw [if_neg (by simpa using hvalid), fail_bind, if_neg (by simp [hvalid])]

theorem freeBsd_commandLine (h : Delivers calls buffer) (hne : buffer ≠ []) :
    FreeBsd.commandLine calls =
      if buffer.length > FreeBsd.maximumSize then fail .valueTooLarge
      else if rest 0 buffer ≠ [] then fail .malformedData
      else .ok (complete 0 buffer) := by
  obtain ⟨hsize, hfetch⟩ := h 0
  rw [FreeBsd.commandLine, FreeBsd.load, hsize]
  simp only [List.length_eq_zero_iff, if_neg hne]
  by_cases hlong : buffer.length > FreeBsd.maximumSize
  · rw [if_pos hlong, if_pos hlong, fail_bind]
  · rw [if_neg hlong, if_neg hlong]
    simp only [hfetch, le_refl, if_true, ok_bind, splitArguments_buffer, foldlM_freeBsd_accept,
      List.nil_append, ne_eq, start_eq_length]
    by_cases hrest : rest 0 buffer = []
    · have hpieces : complete 0 buffer ≠ [] := by
        intro hnil
        have := flatMap_complete 0 buffer
        rw [hnil, hrest, List.flatMap_nil, List.append_nil] at this
        exact hne this.symm
      simp [hrest, hpieces]
    · simp [hrest]

theorem freeBsd_getProcessArgs (h : Delivers calls buffer) (hne : buffer ≠ []) :
    FreeBsd.getProcessArgs calls = .ok (some ((lines 0 buffer).filter (ValidUtf8 ·))) := by
  obtain ⟨hsize, hfetch⟩ := h 0
  have hargs := processArgsFrom_eq [] buffer []
  simp only [List.nil_append, List.length_nil] at hargs
  rw [FreeBsd.getProcessArgs, hsize]
  simp only [List.length_eq_zero_iff, if_neg hne, hfetch, hargs, ok_bind]

/-- What both queries of NetBSD make of a buffer. -/
theorem netBsd_decode (buffer : List UInt8) :
    NetBsd.decode buffer buffer.length =
      if ∀ piece ∈ complete (0 : UInt8) buffer, ValidUtf8 piece then
        if rest 0 buffer ≠ [] then fail .malformedData
        else .ok ((complete 0 buffer).filter (· ≠ []))
      else fail .invalidEncoding := by
  rw [NetBsd.decode, splitArguments_buffer, foldlM_netBsd_accept]
  by_cases hvalid : ∀ piece ∈ complete 0 buffer, ValidUtf8 piece
  · rw [if_pos hvalid, if_pos hvalid]
    simp only [List.nil_append, ok_bind, ne_eq, start_eq_length]
  · rw [if_neg hvalid, if_neg hvalid, fail_bind, fail_bind]

theorem netBsd_decode_eq_ok {args : List (List UInt8)} :
    NetBsd.decode buffer buffer.length = .ok args ↔
      (∀ piece ∈ complete 0 buffer, ValidUtf8 piece) ∧ rest 0 buffer = [] ∧
        (complete 0 buffer).filter (· ≠ []) = args := by
  rw [netBsd_decode]
  by_cases hvalid : ∀ piece ∈ complete 0 buffer, ValidUtf8 piece
  · rw [if_pos hvalid]
    by_cases hrest : rest 0 buffer = []
    · rw [if_neg (by simpa), Except.ok.injEq, and_iff_right hvalid, and_iff_right hrest]
    · rw [if_pos hrest]
      simp [hrest]
  · rw [if_neg hvalid]
    exact iff_of_false (fail_ne_ok _ _) fun h => hvalid h.1

theorem netBsd_commandLine (h : Delivers calls buffer) (hne : buffer ≠ []) :
    NetBsd.commandLine calls = NetBsd.decode buffer buffer.length := by
  obtain ⟨hsize, hfetch⟩ := h 0
  rw [NetBsd.commandLine, hsize]
  simp only [List.length_eq_zero_iff, if_neg hne, hfetch, gt_iff_lt, lt_irrefl, if_false]

theorem netBsd_getProcessCommandLine (h : Delivers calls buffer) (hne : buffer ≠ []) :
    NetBsd.getProcessCommandLine calls =
      NetBsd.decode buffer buffer.length >>= fun args => .ok (some args) := by
  obtain ⟨hsize, hfetch⟩ := h 0
  rw [NetBsd.getProcessCommandLine, NetBsd.attempts, hsize]
  simp only [List.length_eq_zero_iff, if_neg hne, hfetch, gt_iff_lt, lt_irrefl, if_false]

end Queries

section Agreement

/-- All four queries return these arguments. -/
def Recovers (calls : ArgumentCalls) (args : List (List UInt8)) : Prop :=
  FreeBsd.commandLine calls = .ok args ∧ FreeBsd.getProcessArgs calls = .ok (some args) ∧
    NetBsd.commandLine calls = .ok args ∧ NetBsd.getProcessCommandLine calls = .ok (some args)

/-- One of the four queries returns these arguments. -/
def Returns (calls : ArgumentCalls) (args : List (List UInt8)) : Prop :=
  FreeBsd.commandLine calls = .ok args ∨ FreeBsd.getProcessArgs calls = .ok (some args) ∨
    NetBsd.commandLine calls = .ok args ∨ NetBsd.getProcessCommandLine calls = .ok (some args)

/-- Every argument vector that is rendered as the buffer comes back from all queries, and
no two queries return different arguments. -/
def RecoversArguments (calls : ArgumentCalls) (buffer : List UInt8) : Prop :=
  (∀ args, args ≠ [] → (∀ arg ∈ args, 0 ∉ arg ∧ ValidUtf8 arg) → render args = buffer →
    Recovers calls args) ∧
  ∀ args args', Returns calls args → Returns calls args' → args = args'

/-- Up to the limit of one query, the arguments are valid UTF-8 and none is empty; beyond it
an argument that is not valid leaves only one query with a result. -/
def Unambiguous (buffer : List UInt8) : Prop :=
  buffer.getLast? = some 0 →
    if buffer.length ≤ FreeBsd.maximumSize then
      ∀ arg ∈ complete 0 buffer, arg ≠ [] ∧ ValidUtf8 arg
    else ∃ arg ∈ complete 0 buffer, ¬ ValidUtf8 arg

/-- What the four queries return. -/
theorem returns_iff {calls : ArgumentCalls} {buffer : List UInt8} (h : Delivers calls buffer)
    (hne : buffer ≠ []) (args : List (List UInt8)) :
    Returns calls args ↔
      (buffer.length ≤ FreeBsd.maximumSize ∧ rest 0 buffer = [] ∧ complete 0 buffer = args) ∨
      (lines 0 buffer).filter (ValidUtf8 ·) = args ∨
      (∀ arg ∈ complete 0 buffer, ValidUtf8 arg) ∧ rest 0 buffer = [] ∧
        (complete 0 buffer).filter (· ≠ []) = args := by
  rw [Returns, freeBsd_commandLine h hne, freeBsd_getProcessArgs h hne, netBsd_commandLine h hne,
    netBsd_getProcessCommandLine h hne]
  have hsome : (NetBsd.decode buffer buffer.length >>= fun args => .ok (some args)) =
      .ok (some args) ↔ NetBsd.decode buffer buffer.length = .ok args := by
    simp [bind_eq_ok]
  rw [hsome, or_self, netBsd_decode_eq_ok, Except.ok.injEq, Option.some.injEq]
  by_cases hlong : buffer.length > FreeBsd.maximumSize
  · rw [if_pos hlong]
    simp [Nat.not_le.mpr hlong]
  · rw [if_neg hlong]
    by_cases hrest : rest 0 buffer = []
    · simp [hrest, Nat.not_lt.mp hlong]
    · simp [hrest]

/-- The pieces of a buffer that ends in NUL are rendered as the buffer. -/
theorem render_complete {buffer : List UInt8} (hne : buffer ≠ []) (hrest : rest 0 buffer = []) :
    render (complete 0 buffer) = buffer ∧ complete 0 buffer ≠ [] := by
  have hrender := flatMap_complete 0 buffer
  rw [hrest, List.append_nil] at hrender
  refine ⟨hrender, ?_⟩
  intro hnil
  rw [hnil, List.flatMap_nil] at hrender
  exact hne hrender.symm

/-- The arguments of a buffer without NUL in them. -/
theorem complete_of_render {args : List (List UInt8)} (h : ∀ arg ∈ args, 0 ∉ arg)
    {buffer : List UInt8} (hrender : render args = buffer) :
    complete 0 buffer = args ∧ rest 0 buffer = [] := by
  rw [← hrender]
  exact complete_flatMap h

theorem recoversArguments_of_rest {calls : ArgumentCalls} {buffer : List UInt8}
    (h : Delivers calls buffer) (hne : buffer ≠ []) (hrest : rest 0 buffer ≠ []) :
    RecoversArguments calls buffer := by
  constructor
  · intro args _ hargs hrender
    exact absurd (complete_of_render (fun arg harg => (hargs arg harg).1) hrender).2 hrest
  · -- only the query without a check of the last byte has a result
    have hreturns : ∀ args, Returns calls args → (lines 0 buffer).filter (ValidUtf8 ·) = args := by
      intro args hargs
      rcases (returns_iff h hne args).mp hargs with ⟨-, hnil, -⟩ | hargs | ⟨-, hnil, -⟩
      · exact absurd hnil hrest
      · exact hargs
      · exact absurd hnil hrest
    intro args args' hargs hargs'
    exact (hreturns args hargs).symm.trans (hreturns args' hargs')

theorem recoversArguments_nil {calls : ArgumentCalls} (h : Delivers calls []) :
    RecoversArguments calls [] := by
  obtain ⟨hsize, -⟩ := h 0
  rw [List.length_nil] at hsize
  constructor
  · intro args hne _ hrender
    cases args with
    | nil => exact absurd rfl hne
    | cons arg args => simp [render] at hrender
  · have hreturns : ∀ args, Returns calls args → [] = args := by
      intro args hargs
      simpa [Returns, FreeBsd.commandLine, FreeBsd.load, FreeBsd.getProcessArgs,
        NetBsd.commandLine, NetBsd.getProcessCommandLine, NetBsd.attempts, hsize] using hargs
    intro args args' hargs hargs'
    exact (hreturns args hargs).symm.trans (hreturns args' hargs')

/-- A buffer that ends in NUL. -/
theorem recoversArguments_terminated {calls : ArgumentCalls} {buffer : List UInt8}
    (h : Delivers calls buffer) (hne : buffer ≠ []) (hrest : rest 0 buffer = []) :
    RecoversArguments calls buffer ↔
      if buffer.length ≤ FreeBsd.maximumSize then
        ∀ arg ∈ complete 0 buffer, arg ≠ [] ∧ ValidUtf8 arg
      else ∃ arg ∈ complete 0 buffer, ¬ ValidUtf8 arg := by
  have hreturns := returns_iff h hne
  have hlines : lines 0 buffer = complete 0 buffer := by
    rw [lines, if_pos hrest, List.append_nil]
  obtain ⟨hrender, hpieces⟩ := render_complete hne hrest
  have hnul : ∀ arg ∈ complete 0 buffer, (0 : UInt8) ∉ arg := by
    intro arg harg
    rw [← hlines] at harg
    exact not_mem_of_mem_lines harg
  constructor
  · rintro ⟨hrecovers, hagree⟩
    split_ifs with hsmall
    · have hcommand := (hreturns _).mpr (.inl ⟨hsmall, hrest, rfl⟩)
      -- an argument that is not valid is missing in the process list
      have hvalid : ∀ arg ∈ complete 0 buffer, ValidUtf8 arg := by
        have := hagree _ _ ((hreturns _).mpr (.inr (.inl rfl))) hcommand
        rw [hlines] at this
        simpa using List.filter_eq_self.mp this
      -- an empty argument is missing on NetBSD
      have hempty : ∀ arg ∈ complete 0 buffer, arg ≠ [] := by
        have := hagree _ _ ((hreturns _).mpr (.inr (.inr ⟨hvalid, hrest, rfl⟩))) hcommand
        simpa using List.filter_eq_self.mp this
      exact fun arg harg => ⟨hempty arg harg, hvalid arg harg⟩
    · by_contra hvalid
      push Not at hvalid
      have hresult := (hrecovers _ hpieces (fun arg harg => ⟨hnul arg harg, hvalid arg harg⟩)
        hrender).1
      rw [freeBsd_commandLine h hne, if_pos (by omega)] at hresult
      exact fail_ne_ok _ _ hresult
  · intro hcondition
    split_ifs at hcondition with hsmall
    · have hfilter : (complete 0 buffer).filter (ValidUtf8 ·) = complete 0 buffer :=
        List.filter_eq_self.mpr fun arg harg => by simpa using (hcondition arg harg).2
      have hnonempty : (complete 0 buffer).filter (· ≠ []) = complete 0 buffer :=
        List.filter_eq_self.mpr fun arg harg => by simpa using (hcondition arg harg).1
      have hall : ∀ args, Returns calls args → complete 0 buffer = args := by
        intro args hargs
        rw [hreturns, hlines, hfilter, hnonempty] at hargs
        rcases hargs with ⟨-, -, hargs⟩ | hargs | ⟨-, -, hargs⟩ <;> exact hargs
      refine ⟨?_, fun args args' hargs hargs' => (hall args hargs).symm.trans (hall args' hargs')⟩
      intro args _ hargs hargsRender
      obtain ⟨rfl, -⟩ := complete_of_render (fun arg harg => (hargs arg harg).1) hargsRender
      have hdecode : NetBsd.decode buffer buffer.length = .ok (complete 0 buffer) :=
        netBsd_decode_eq_ok.mpr ⟨fun arg harg => (hcondition arg harg).2, hrest, hnonempty⟩
      refine ⟨?_, ?_, ?_, ?_⟩
      · rw [freeBsd_commandLine h hne, if_neg (by omega), if_neg (by simpa)]
      · rw [freeBsd_getProcessArgs h hne, hlines, hfilter]
      · rw [netBsd_commandLine h hne, hdecode]
      · rw [netBsd_getProcessCommandLine h hne, hdecode, ok_bind]
    · obtain ⟨arg, harg, hinvalid⟩ := hcondition
      constructor
      · intro args _ hargs hargsRender
        obtain ⟨rfl, -⟩ := complete_of_render (fun arg harg => (hargs arg harg).1) hargsRender
        exact absurd (hargs arg harg).2 hinvalid
      · have hall : ∀ args, Returns calls args →
            (complete 0 buffer).filter (ValidUtf8 ·) = args := by
          intro args hargs
          rw [hreturns, hlines] at hargs
          rcases hargs with ⟨hlong, -⟩ | hargs | ⟨hvalid, -⟩
          · exact absurd hlong hsmall
          · exact hargs
          · exact absurd (hvalid arg harg) hinvalid
        intro args args' hargs hargs'
        exact (hall args hargs).symm.trans (hall args' hargs')

/-- The queries recover the arguments and agree exactly on the unambiguous buffers. -/
theorem argument_buffers_recovered_iff (calls : ArgumentCalls) (buffer : List UInt8)
    (h : Delivers calls buffer) : RecoversArguments calls buffer ↔ Unambiguous buffer := by
  by_cases hne : buffer = []
  · subst hne
    exact iff_of_true (recoversArguments_nil h) fun hlast => by simp at hlast
  · by_cases hrest : rest 0 buffer = []
    · rw [recoversArguments_terminated h hne hrest, Unambiguous, ← rest_eq_nil_iff hne]
      exact ⟨fun hcondition _ => hcondition, fun hcondition => hcondition hrest⟩
    · refine iff_of_true (recoversArguments_of_rest h hne hrest) fun hlast => ?_
      exact absurd ((rest_eq_nil_iff hne).mpr hlast) hrest

/-- The calls that deliver a buffer at once. -/
def deliver (buffer : List UInt8) : ArgumentCalls where
  size _ := .ok buffer.length
  fetch _ _ := .ok (buffer, buffer.length)

theorem delivers_deliver (buffer : List UInt8) : Delivers (deliver buffer) buffer :=
  fun _ => ⟨rfl, rfl⟩

/-- Two plain arguments. -/
theorem plain_arguments_recovered :
    RecoversArguments (deliver [0x61, 0, 0x62, 0]) [0x61, 0, 0x62, 0] := by
  refine (argument_buffers_recovered_iff _ _ (delivers_deliver _)).mpr fun _ => ?_
  rw [if_pos (by decide)]
  decide +kernel

/-- The second of three arguments is empty: on NetBSD the third one comes second. -/
theorem empty_argument_dropped :
    ¬ RecoversArguments (deliver [0x61, 0, 0, 0x62, 0]) [0x61, 0, 0, 0x62, 0] := by
  intro ⟨hrecovers, _⟩
  have hvalid : ∀ arg ∈ ([[0x61], [], [0x62]] : List (List UInt8)),
      (0 : UInt8) ∉ arg ∧ ValidUtf8 arg := by decide +kernel
  obtain ⟨_, _, hnetbsd, _⟩ := hrecovers [[0x61], [], [0x62]] (by simp) hvalid rfl
  rw [netBsd_commandLine (delivers_deliver _) (by simp), netBsd_decode] at hnetbsd
  revert hnetbsd
  decide +kernel

end Agreement

end Syscape.ArgumentBuffer
