import Syscape.RouteDatagrams

/-!
# When a route dump hides a failure

A message carries a failure when it is an `NLMSG_ERROR` with an error, or an
`NLMSG_DONE` with a negative status. The loop never looks at the status of `NLMSG_DONE`,
and it negates an error without looking for the least `int`. Every run without these two
kinds of message reports each failure and is free of overflow.
-/
namespace Syscape.Routes
open Checked Endian Frames Network

section Messages
variable (order : ByteOrder)

/-- The first number of a message's payload: an error, or the status of a dump. -/
def statusOf (message : Frame) : ℤ := signed32 (value order (message.payload.take 4))

/-- The kernel reports a failure in this message. -/
def CarriesFailure (message : Frame) : Prop :=
  4 ≤ message.payload.length ∧
    ((messageType order message = nlmsgError ∧ statusOf order message ≠ 0) ∨
      (messageType order message = nlmsgDone ∧ statusOf order message < 0))

/-- The dump ends with a failure. -/
def EndsInFailure (message : Frame) : Prop :=
  messageType order message = nlmsgDone ∧ 4 ≤ message.payload.length ∧
    statusOf order message < 0

/-- The error is the least `int`. -/
def LeastError (message : Frame) : Prop :=
  messageType order message = nlmsgError ∧ 20 ≤ message.payload.length ∧
    statusOf order message = -2 ^ 31

variable {order}

variable (order) in
lemma statusOf_nlmsgerr {message : Frame} (h : 20 ≤ message.payload.length) :
    (slice message.payload 0 20 : Result (List UInt8)) = .ok (message.payload.take 20) ∧
      signed32 (value order ((message.payload.take 20).take 4)) = statusOf order message := by
  constructor
  · rw [slice_of_le (by omega), List.drop_zero]
  · rw [List.take_take]
    rfl

/-- A kernel error ends the dump, unless it cannot be negated. -/
theorem dumpError_eq (state : LinuxRouteDumpState) (message : Frame)
    (h : 20 ≤ message.payload.length) (hne : statusOf order message ≠ 0) :
    dumpError order state message.payload =
      if statusOf order message = -2 ^ 31 then .error .signedOverflow
      else failErrno (|statusOf order message|) := by
  obtain ⟨hslice, hstatus⟩ := statusOf_nlmsgerr order h
  rw [dumpError, if_neg (by omega), hslice, ok_bind]
  simp only [hstatus]
  rw [if_pos hne]
  by_cases hleast : statusOf order message = -2 ^ 31
  · rw [if_pos hleast, if_pos (by omega), negateInt, if_pos hleast]
    rfl
  · rw [if_neg hleast]
    by_cases hneg : statusOf order message < 0
    · rw [if_pos hneg, negateInt, if_neg hleast, ok_bind, abs_of_neg hneg]
    · rw [if_neg hneg, ok_bind, abs_of_nonneg (by omega)]

theorem defined_dumpError (state : LinuxRouteDumpState) (message : Frame)
    (htype : messageType order message = nlmsgError) (h : ¬ LeastError order message) :
    Defined (dumpError order state message.payload) := by
  by_cases hlen : 20 ≤ message.payload.length
  · by_cases hne : statusOf order message = 0
    · obtain ⟨hslice, hstatus⟩ := statusOf_nlmsgerr order hlen
      rw [dumpError, if_neg (by omega), hslice, ok_bind]
      simp only [hstatus, hne]
      exact defined_ok state
    · rw [dumpError_eq state message hlen hne, if_neg fun hleast => h ⟨htype, hlen, hleast⟩]
      exact defined_failErrno _
  · rw [dumpError, if_pos (by omega)]
    exact defined_failErrc _

/-- Only the least error makes a message overflow. -/
theorem defined_dumpMessage (sequence : ℕ) (state : LinuxRouteDumpState) (message : Frame)
    (h : ¬ LeastError order message) : Defined (dumpMessage order sequence state message) := by
  unfold dumpMessage
  refine Defined.ite (fun _ => defined_failErrc _) fun _ => ?_
  refine Defined.ite (fun _ => defined_failErrc _) fun _ => ?_
  refine Defined.ite (fun _ => defined_ok _) fun _ => ?_
  refine Defined.ite (fun htype => defined_dumpError state message htype h) fun _ => ?_
  refine Defined.ite (fun _ => ?_) fun _ => ?_
  · exact (defined_appendLinuxRouteMessage _ _).bind fun _ _ => defined_ok _
  · exact Defined.ite (fun _ => defined_failErrc _) fun _ => defined_ok _

/-- A message with a failure ends the dump, unless it is the end of the dump itself. -/
theorem dumpMessage_fails (sequence : ℕ) (state : LinuxRouteDumpState) (message : Frame)
    (hfailure : CarriesFailure order message) (h : ¬ EndsInFailure order message) :
    ∃ fault, dumpMessage order sequence state message = .error fault := by
  obtain ⟨hlen, ⟨htype, hne⟩ | ⟨htype, hneg⟩⟩ := hfailure
  · have hdone : messageType order message ≠ nlmsgDone := by
      rw [htype]
      decide
    unfold dumpMessage
    by_cases hsequence : messageSequence order message ≠ sequence
    · exact ⟨_, if_pos hsequence⟩
    rw [if_neg hsequence]
    by_cases hflags : messageFlags order message &&& nlmFDumpIntr ≠ 0
    · exact ⟨_, if_pos hflags⟩
    rw [if_neg hflags, if_neg hdone, if_pos htype]
    by_cases h20 : 20 ≤ message.payload.length
    · rw [dumpError_eq state message h20 hne]
      split_ifs
      · exact ⟨_, rfl⟩
      · exact ⟨_, rfl⟩
    · exact ⟨_, by rw [dumpError, if_pos (by omega)]; rfl⟩
  · exact absurd ⟨htype, hlen, hneg⟩ h

/-- Among the messages that the loop does not reject anyway, the dump is honest about
exactly those of the other kinds. -/
theorem dumpMessage_honest_iff (sequence : ℕ) (state : LinuxRouteDumpState) (message : Frame)
    (hsequence : messageSequence order message = sequence)
    (hflags : messageFlags order message &&& nlmFDumpIntr = 0) :
    ((CarriesFailure order message →
          ∃ e, dumpMessage order sequence state message = .error (.fail e)) ∧
        Avoids .signedOverflow (dumpMessage order sequence state message)) ↔
      ¬ EndsInFailure order message ∧ ¬ LeastError order message := by
  have hbody : dumpMessage order sequence state message =
      if messageType order message = nlmsgDone then .ok { state with complete := true }
      else if messageType order message = nlmsgError then dumpError order state message.payload
      else dumpMessage order sequence state message := by
    unfold dumpMessage
    simp only [hsequence, hflags, ne_eq, not_true_eq_false, if_false]
    split_ifs <;> rfl
  constructor
  · intro ⟨hfails, hoverflow⟩
    constructor
    · intro ⟨htype, hlen, hneg⟩
      obtain ⟨e, he⟩ := hfails ⟨hlen, .inr ⟨htype, hneg⟩⟩
      rw [hbody, if_pos htype] at he
      cases he
    · intro ⟨htype, hlen, hleast⟩
      have hdone : messageType order message ≠ nlmsgDone := by
        rw [htype]
        decide
      apply hoverflow
      rw [hbody, if_neg hdone, if_pos htype, dumpError_eq state message hlen (by omega),
        if_pos hleast]
  · intro ⟨hends, hleast⟩
    have hdefined := defined_dumpMessage sequence state message hleast
    refine ⟨fun hfailure => ?_, hdefined.avoids (by simp)⟩
    obtain ⟨fault, hfault⟩ := dumpMessage_fails sequence state message hfailure hends
    obtain ⟨e, rfl⟩ := hdefined fault hfault
    exact ⟨e, hfault⟩

lemma dumpError_eq_ok {state state' : LinuxRouteDumpState} {message : Frame}
    (h : dumpError order state message.payload = .ok state') : state' = state := by
  by_cases hlen : 20 ≤ message.payload.length
  · by_cases hne : statusOf order message = 0
    · obtain ⟨hslice, hstatus⟩ := statusOf_nlmsgerr order hlen
      rw [dumpError, if_neg (by omega), hslice, ok_bind] at h
      simp only [hstatus, hne] at h
      exact (Except.ok.inj h).symm
    · rw [dumpError_eq state message hlen hne] at h
      split_ifs at h
      cases h
  · rw [dumpError, if_pos (by omega)] at h
    cases h

/-- What a message that does not fail does to the end of the dump. -/
theorem complete_dumpMessage {sequence : ℕ} {state state' : LinuxRouteDumpState} {message : Frame}
    (h : dumpMessage order sequence state message = .ok state') :
    state'.complete = (state.complete || decide (messageType order message = nlmsgDone)) := by
  unfold dumpMessage at h
  split_ifs at h with hsequence hflags hdone herror hroute hoverrun
  · cases h
  · cases h
  · cases h
    simp [hdone]
  · rw [dumpError_eq_ok h]
    simp [hdone]
  · obtain ⟨routes, -, hstate⟩ := bind_eq_ok.mp h
    cases hstate
    simp [hdone]
  · cases h
  · cases h
    simp [hdone]

end Messages

section Runs
variable (order : ByteOrder)

/-- The messages of one datagram. -/
def messagesOf (data : List UInt8) : List Frame := (split (nlmsghdrLayout order) data).1

/-- The messages of a dump: those of the datagrams up to the first one that ends it. -/
def dumpMessages : List Received → List Frame
  | [] => []
  | .failed _ :: received => dumpMessages received
  | .datagram data _ _ :: received =>
    messagesOf order data ++
      if (messagesOf order data).any fun message => messageType order message = nlmsgDone then []
      else dumpMessages received

variable {order}

theorem complete_foldlM {sequence : ℕ} (messages : List Frame) {state state' : LinuxRouteDumpState}
    (h : messages.foldlM (dumpMessage order sequence) state = .ok state') :
    state'.complete =
      (state.complete || messages.any fun message => messageType order message = nlmsgDone) := by
  induction messages generalizing state with
  | nil =>
    cases h
    simp
  | cons message messages ih =>
    rw [List.foldlM_cons] at h
    obtain ⟨state₁, hstep, hrest⟩ := bind_eq_ok.mp h
    rw [ih hrest, complete_dumpMessage hstep, List.any_cons, Bool.or_assoc]

theorem foldlM_fails {sequence : ℕ} (messages : List Frame) (state : LinuxRouteDumpState)
    (h : ∃ message ∈ messages, CarriesFailure order message ∧ ¬ EndsInFailure order message) :
    ∃ fault, messages.foldlM (dumpMessage order sequence) state = .error fault := by
  induction messages generalizing state with
  | nil => simp at h
  | cons message messages ih =>
    rw [List.foldlM_cons]
    cases hstep : dumpMessage order sequence state message with
    | error fault => exact ⟨fault, rfl⟩
    | ok state₁ =>
      apply ih
      obtain ⟨m, hm, hfailure, hends⟩ := h
      rcases List.mem_cons.mp hm with rfl | hm
      · obtain ⟨fault, hfault⟩ := dumpMessage_fails sequence state m hfailure hends
        rw [hstep] at hfault
        cases hfault
      · exact ⟨m, hm, hfailure, hends⟩

/-- One datagram: what ends the dump, what fails, and what is free of overflow. -/
theorem complete_parse {data : List UInt8} {sequence : ℕ} {state state' : LinuxRouteDumpState}
    (h : parseLinuxRouteDatagram order data sequence state = .ok state') :
    state'.complete = (state.complete ||
      (messagesOf order data).any fun message => messageType order message = nlmsgDone) := by
  rw [parseLinuxRouteDatagram, walk_eq] at h
  obtain ⟨state₁, hfold, hend⟩ := bind_eq_ok.mp h
  split_ifs at hend
  cases hend
  exact complete_foldlM _ hfold

theorem parse_fails {data : List UInt8} (sequence : ℕ) (state : LinuxRouteDumpState)
    (h : ∃ message ∈ messagesOf order data,
      CarriesFailure order message ∧ ¬ EndsInFailure order message) :
    ∃ fault, parseLinuxRouteDatagram order data sequence state = .error fault := by
  obtain ⟨fault, hfault⟩ := foldlM_fails (messagesOf order data) state h
  refine ⟨fault, ?_⟩
  rw [messagesOf] at hfault
  rw [parseLinuxRouteDatagram, walk_eq, hfault, error_bind]

theorem defined_parse {data : List UInt8} (sequence : ℕ) (state : LinuxRouteDumpState)
    (h : ∀ message ∈ messagesOf order data, ¬ LeastError order message) :
    Defined (parseLinuxRouteDatagram order data sequence state) :=
  defined_walk _ _ fun state message hmessage =>
    defined_dumpMessage sequence state message (h message hmessage)

/-- A complete dump ends the loop. -/
theorem receiveLoop_complete (sequence : ℕ) (received : List Received)
    {state : LinuxRouteDumpState} (h : state.complete = true) :
    receiveLoop order sequence state received = .ok state := by
  cases received with
  | nil => rfl
  | cons next received => cases next <;> simp [receiveLoop, h]

/-- The receive loop, from any state that is not complete. -/
theorem receiveLoop_honest (sequence : ℕ) (received : List Received) (state : LinuxRouteDumpState)
    (hstate : state.complete = false)
    (h : ∀ message ∈ dumpMessages order received,
      ¬ EndsInFailure order message ∧ ¬ LeastError order message) :
    Defined (receiveLoop order sequence state received) ∧
      ((∃ message ∈ dumpMessages order received, CarriesFailure order message) →
        ∃ fault, receiveLoop order sequence state received = .error fault) := by
  induction received generalizing state with
  | nil =>
    refine ⟨defined_ok state, ?_⟩
    simp [dumpMessages]
  | cons next received ih =>
    cases next with
    | failed errno =>
      rw [receiveLoop, if_neg (by simp [hstate])]
      by_cases hintr : errno = eintr
      · simp only [if_pos hintr]
        exact ih state hstate h
      · simp only [if_neg hintr]
        exact ⟨defined_failErrno errno, fun _ => ⟨_, rfl⟩⟩
    | datagram data truncated senderPid =>
      have hdata : ∀ message ∈ messagesOf order data,
          ¬ EndsInFailure order message ∧ ¬ LeastError order message :=
        fun message hmessage => h message (by simp [dumpMessages, hmessage])
      rw [receiveLoop, if_neg (by simp [hstate])]
      by_cases hempty : data = []
      · simp only [if_pos hempty]
        exact ⟨defined_failErrc _, fun _ => ⟨_, rfl⟩⟩
      simp only [if_neg hempty]
      by_cases hbad : truncated = true ∨ senderPid ≠ 0
      · simp only [if_pos hbad]
        exact ⟨defined_failErrc _, fun _ => ⟨_, rfl⟩⟩
      simp only [if_neg hbad]
      have hdefined := defined_parse sequence state fun message hm => (hdata message hm).2
      cases hparse : parseLinuxRouteDatagram order data sequence state with
      | error fault => exact ⟨hdefined.of_error hparse, fun _ => ⟨fault, rfl⟩⟩
      | ok state₁ =>
        have hcomplete := complete_parse hparse
        have hquiet : ¬ ∃ message ∈ messagesOf order data, CarriesFailure order message := by
          intro ⟨message, hm, hfailure⟩
          obtain ⟨fault, hfault⟩ :=
            parse_fails sequence state ⟨message, hm, hfailure, (hdata message hm).1⟩
          rw [hparse] at hfault
          cases hfault
        simp only [ok_bind]
        cases hdone : (messagesOf order data).any fun message =>
          messageType order message = nlmsgDone with
        | true =>
          -- the dump is complete, so the loop looks at nothing that follows
          rw [receiveLoop_complete sequence received (by simp [hcomplete, hdone])]
          refine ⟨defined_ok state₁, ?_⟩
          intro ⟨message, hm, hfailure⟩
          simp only [dumpMessages, hdone, if_true, List.append_nil] at hm
          exact absurd ⟨message, hm, hfailure⟩ hquiet
        | false =>
          have hsplit : dumpMessages order (.datagram data truncated senderPid :: received) =
              messagesOf order data ++ dumpMessages order received := by
            simp [dumpMessages, hdone]
          rw [hsplit] at h ⊢
          have hrest := ih state₁ (by simp [hcomplete, hstate, hdone])
            fun message hm => h message (List.mem_append_right _ hm)
          refine ⟨hrest.1, ?_⟩
          intro ⟨message, hm, hfailure⟩
          rcases List.mem_append.mp hm with hm | hm
          · exact absurd ⟨message, hm, hfailure⟩ hquiet
          · exact hrest.2 ⟨message, hm, hfailure⟩

end Runs

section Success
variable {order : ByteOrder}

/-- A datagram as the kernel sends it. -/
def sent (data : List UInt8) : Received := .datagram data false 0

theorem datagram_ne_nil (sequence : UInt32) {items : List (DumpRoute order)} (h : items ≠ []) :
    datagram sequence items ≠ [] := by
  obtain ⟨item, more, rfl⟩ := List.exists_cons_of_ne_nil h
  simp [datagram, Layout.encode, DumpRoute.frame, messageFrame, Endian.encode]
  cases order <;> simp [leBytes]

/-- The query returns the records of the dump, wherever its datagrams are cut. -/
theorem routes_return_records (parts : List (List (DumpRoute order)))
    (hparts : ∀ part ∈ parts, part ≠ []) (last : List (DumpRoute order)) (done : Envelope) :
    routes order (.answered (parts.map (fun part => sent (datagram 1 part)) ++
        [sent (lastDatagram 1 last done)])) =
      .ok (some (recordsOf (parts.flatten ++ last))) := by
  have hlast : lastDatagram 1 last done ≠ [] := by
    intro hnil
    have hlength := congrArg List.length hnil
    simp [lastDatagram, Layout.encode, doneFrame, messageFrame] at hlength
  have hloop : ∀ state : LinuxRouteDumpState, state.complete = false →
      receiveLoop order 1 state (parts.map (fun part => sent (datagram 1 part)) ++
        [sent (lastDatagram 1 last done)]) =
          .ok ⟨state.routes ++ recordsOf (parts.flatten ++ last), true⟩ := by
    induction parts with
    | nil =>
      intro state hstate
      have hparse := parseLinuxRouteDatagram_lastDatagram (1 : UInt32) last done state
      rw [UInt32.toNat_one] at hparse
      simp [receiveLoop, sent, hstate, hlast, hparse]
    | cons part parts ih =>
      intro state hstate
      have hparse := parseLinuxRouteDatagram_datagram (1 : UInt32) part state
      rw [UInt32.toNat_one] at hparse
      have hne := datagram_ne_nil 1 (hparts part (by simp))
      have hrest := ih (fun p hp => hparts p (by simp [hp]))
        { state with routes := state.routes ++ recordsOf part } hstate
      simp only [List.map_cons, List.cons_append, receiveLoop, sent, hstate, hne, hparse,
        Bool.false_eq_true, if_false, not_true_eq_false, ne_eq, or_self, ok_bind] at hrest ⊢
      rw [hrest]
      simp [recordsOf]
  rw [routes, hloop .start rfl, ok_bind]
  rfl

end Success

/-- In every run whose messages are neither the failed end of a dump nor the least error,
a failure in any message fails the dump, and no error conversion overflows. -/
theorem routes_report_failures (order : ByteOrder) (received : List Received)
    (h : ∀ message ∈ dumpMessages order received,
      ¬ EndsInFailure order message ∧ ¬ LeastError order message) :
    ((∃ message ∈ dumpMessages order received, CarriesFailure order message) →
      ∃ e, routes order (.answered received) = .error (.fail e)) ∧
    Avoids .signedOverflow (routes order (.answered received)) := by
  obtain ⟨hdefined, hfails⟩ := receiveLoop_honest 1 received .start rfl h
  have hroutes : Defined (routes order (.answered received)) :=
    hdefined.bind fun _ _ => defined_ok _
  refine ⟨fun hfailure => ?_, hroutes.avoids (by simp)⟩
  obtain ⟨fault, hfault⟩ := hfails hfailure
  have hsame : routes order (.answered received) = .error fault := by
    rw [routes, hfault, error_bind]
  obtain ⟨e, rfl⟩ := hroutes fault hsame
  exact ⟨e, hsame⟩

/-- An `NLMSG_ERROR` with the error −12, then nothing: the dump fails with 12. -/
def errorDatagram : List UInt8 :=
  [36, 0, 0, 0, 2, 0, 0, 0, 1, 0, 0, 0, 0, 0, 0, 0] ++ [0xF4, 0xFF, 0xFF, 0xFF] ++
    List.replicate 16 0

theorem routes_report_errorDatagram :
    ((∃ message ∈ dumpMessages .little [.datagram errorDatagram false 0],
          CarriesFailure .little message) →
        ∃ e, routes .little (.answered [.datagram errorDatagram false 0]) = .error (.fail e)) ∧
      Avoids .signedOverflow (routes .little (.answered [.datagram errorDatagram false 0])) := by
  apply routes_report_failures
  have hmessages : dumpMessages .little [.datagram errorDatagram false 0] =
      [⟨errorDatagram.take 16, errorDatagram.drop 16⟩] := by decide +kernel
  intro message hmessage
  rw [hmessages, List.mem_singleton] at hmessage
  subst hmessage
  constructor
  · intro ⟨htype, _⟩
    exact absurd htype (by decide)
  · intro ⟨_, _, hleast⟩
    exact absurd hleast (by decide)

/-- An `NLMSG_DONE` with the status −12, and an `NLMSG_ERROR` with the least error. -/
def failedDone : List UInt8 :=
  [20, 0, 0, 0, 3, 0, 2, 0, 1, 0, 0, 0, 0, 0, 0, 0] ++ [0xF4, 0xFF, 0xFF, 0xFF]

def leastErrorDatagram : List UInt8 :=
  [36, 0, 0, 0, 2, 0, 0, 0, 1, 0, 0, 0, 0, 0, 0, 0] ++ [0, 0, 0, 0x80] ++ List.replicate 16 0

/-- The failed end of a dump is returned as a complete, empty list; the least error is
negated beyond the range of `int`. -/
theorem failed_dump_returned :
    (∃ message ∈ dumpMessages .little [.datagram failedDone false 0],
        CarriesFailure .little message) ∧
      routes .little (.answered [.datagram failedDone false 0]) = .ok (some []) ∧
      routes .little (.answered [.datagram leastErrorDatagram false 0]) =
        .error .signedOverflow ∧
      ¬ ∀ received : List Received,
        ((∃ message ∈ dumpMessages .little received, CarriesFailure .little message) →
          ∃ e, routes .little (.answered received) = .error (.fail e)) ∧
        Avoids .signedOverflow (routes .little (.answered received)) := by
  have hmessages : dumpMessages .little [.datagram failedDone false 0] =
      [⟨failedDone.take 16, failedDone.drop 16⟩] := by decide +kernel
  have hdone : routes .little (.answered [.datagram failedDone false 0]) = .ok (some []) := by
    decide +kernel
  have hleast : routes .little (.answered [.datagram leastErrorDatagram false 0]) =
      .error .signedOverflow := by decide +kernel
  refine ⟨?_, hdone, hleast, ?_⟩
  · refine ⟨_, by rw [hmessages]; exact List.mem_singleton_self _, by decide, .inr ⟨by decide, ?_⟩⟩
    decide
  · intro hall
    exact (hall [.datagram leastErrorDatagram false 0]).2 hleast

end Syscape.Routes
