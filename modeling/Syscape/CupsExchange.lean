import Syscape.HttpResponse
import Syscape.LinuxFile
import Syscape.Lib.Calls
import Syscape.Lib.Numerals

/-!
# The exchange with the print daemon

`query_cups_socket` connects to the first of three sockets that the print daemon listens on,
sends an HTTP request with an IPP body, and reads until the daemon closes its end. It is a
program that makes system calls one after the other, while the daemon may write and close
between any two of them. Sends may be short, reads return what is there, and signals interrupt
calls. The calls that fail are logged, and an error of the query is that of the call in the log.
-/
namespace Syscape.Cups
open Calls Checked Text Digits Printer Http LinuxFile

section Query

/-- `EAGAIN`, which is `EWOULDBLOCK` too. -/
def eagain : ℤ := 11

/-- `ECONNREFUSED`. -/
def econnrefused : ℤ := 111

/-- The options of the socket that the query sets. -/
inductive SocketOption where
  | rcvtimeo
  | sndtimeo
  deriving DecidableEq, Repr

/-- The system calls of the query. -/
inductive Call where
  | socket
  | setsockopt (option : SocketOption)
  | connect (path : Path)
  | close
  | send (bytes : List UInt8)
  | recv (size : ℕ)

/-- What a call returns, and `errno`. -/
structure Reply where
  value : ℤ
  errno : ℤ
  deriving DecidableEq, Repr

/-- What `recv` returns, `errno` and the buffer. -/
structure RecvReply extends Reply where
  chunk : List UInt8
  deriving DecidableEq, Repr

def Answer : Call → Type
  | .socket => Reply
  | .setsockopt _ => Reply
  | .connect _ => Reply
  | .close => Unit
  | .send _ => Reply
  | .recv _ => RecvReply

abbrev Query (α : Type) := Prog Call Answer α

def socket : Query Reply := invoke Call.socket

def setsockopt (option : SocketOption) : Query Reply := invoke (Call.setsockopt option)

def connect (path : Path) : Query Reply := invoke (Call.connect path)

def close : Query Unit := invoke Call.close

def send (bytes : List UInt8) : Query Reply := invoke (Call.send bytes)

def recv (size : ℕ) : Query RecvReply := invoke (Call.recv size)

/-- `socket_paths`. -/
def socketPaths : List Path :=
  [ascii "/var/run/cups/cups.sock", ascii "/run/cups/cups.sock", ascii "/var/run/cups.sock"]

/-- The two timeouts of a socket; the error number of the one that cannot be set. -/
def setTimeouts : Query (Option ℤ) := do
  let received ← setsockopt .rcvtimeo
  if received.value ≠ 0 then return some received.errno
  else
    let sent ← setsockopt .sndtimeo
    if sent.value ≠ 0 then return some sent.errno else return none

/-- Whether the next path is tried after this error. -/
def nextPath (errno : ℤ) : Bool := errno = enoent || errno = econnrefused

/-- The loop over the paths, up to a socket that is connected. -/
def connectFirst : List Path → Query (Result Unit)
  | [] => return fail .notSupported
  | path :: paths => do
    let sock ← socket
    if sock.value < 0 then return failErrno sock.errno
    else
      match ← setTimeouts with
      | some errno =>
        close
        return failErrno errno
      | none =>
        let connected ← connect path
        if connected.value = 0 then return .ok ()
        else
          close
          if nextPath connected.errno then connectFirst paths
          else return failErrno connected.errno

/-- The lines of the head before the length. -/
def requestHead : List UInt8 :=
  ascii "POST / HTTP/1.1\r\n" ++ ascii "Host: localhost\r\n" ++ ascii "User-Agent: syscape\r\n" ++
    ascii "Connection: close\r\n" ++ ascii "Content-Type: application/ipp\r\n"

/-- `send_buf`. -/
def sendBuf (ippRequest : List UInt8) : List UInt8 :=
  requestHead ++ ascii "Content-Length: " ++ decimal ippRequest.length ++ ascii "\r\n\r\n" ++
    ippRequest

/-- The body of the loop that sends, with the number of bytes that have been sent. -/
def sendStep (buffer : List UInt8) (sent : ℕ) : Query (ℕ ⊕ Result Unit) :=
  if sent < buffer.length then do
    let n ← send (buffer.drop sent)
    if n.value > 0 then return .inl (sent + n.value.toNat)
    else if n.value < 0 ∧ n.errno = eintr then return .inl sent
    else if n.value < 0 ∧ n.errno = eagain then return .inr (fail .temporarilyUnavailable)
    else return .inr (failErrno n.errno)
  else return .inr (.ok ())

/-- The largest response. -/
def maximumResponse : ℕ := 16 * 1024 * 1024

/-- The body of the loop that receives. -/
def recvStep (received : List UInt8) : Query (List UInt8 ⊕ Result (List UInt8)) := do
  let n ← recv 4096
  if n.value > 0 then
    let received := received ++ n.chunk.take n.value.toNat
    if received.length > maximumResponse then return .inr (fail .valueTooLarge)
    else return .inl received
  else if n.value = 0 then return .inr (.ok received)
  else if n.errno = eintr then return .inl received
  else if n.errno = eagain then return .inr (fail .temporarilyUnavailable)
  else return .inr (failErrno n.errno)

/-- What is made of the bytes that have been received. -/
def readResponse (received : List UInt8) : Result (List UInt8) :=
  if received = [] then fail .malformedData else parseHttpIppResponse received

/-- The request and the response, on the connected socket. -/
def exchange (ippRequest : List UInt8) : Query (Result (List UInt8)) := do
  match ← iterate (sendStep (sendBuf ippRequest)) 0 with
  | .error e => return .error e
  | .ok () =>
    match ← iterate recvStep [] with
    | .error e => return .error e
    | .ok received => return readResponse received

/-- `query_cups_socket`; the descriptor is closed at the end. -/
def queryCupsSocket (ippRequest : List UInt8) : Query (Result (List UInt8)) := do
  match ← connectFirst socketPaths with
  | .error e => return .error e
  | .ok () =>
    let response ← exchange ippRequest
    close
    return response

end Query

section World

/-- What has passed over the connection: what the daemon has got, what it has written, how
much of that has been read, and whether the daemon has closed its end. -/
structure Connection where
  delivered : List UInt8 := []
  written : List UInt8 := []
  taken : ℕ := 0
  hungUp : Bool := false
  deriving DecidableEq, Repr

/-- The calls that can fail. -/
inductive FailedCall where
  | socket
  | setsockopt (option : SocketOption)
  | connect (path : Path)
  | send
  | recv
  deriving DecidableEq, Repr

/-- The open descriptors, the paths that were tried with the error numbers, the calls that
failed with theirs (but for interrupted ones), the connection, the signals that may still arrive,
and how often the daemon may still act. -/
structure World where
  opened : ℕ
  attempts : List (Path × ℤ)
  failures : List (FailedCall × ℤ)
  connection : Option Connection
  interrupts : ℕ
  turns : ℕ
  deriving DecidableEq, Repr

/-- A call fails with this error number. -/
def World.failing (w : World) (call : FailedCall) (errno : ℤ) : World :=
  { w with failures := w.failures ++ [(call, errno)] }

/-- The daemon writes, or closes its end; it does so at any time, whatever it has got. -/
inductive DaemonActs : World → World → Prop
  | writes (w : World) {c : Connection} (hc : w.connection = some c) (hopen : c.hungUp = false)
      (bytes : List UInt8) {turns : ℕ} (hturns : w.turns = turns + 1) :
      DaemonActs w { w with connection := some { c with written := c.written ++ bytes }, turns }
  | hangsUp (w : World) {c : Connection} (hc : w.connection = some c) {turns : ℕ}
      (hturns : w.turns = turns + 1) :
      DaemonActs w { w with connection := some { c with hungUp := true }, turns }

/-- The answers to the calls. -/
inductive Answers : World → (c : Call) → Answer c → World → Prop
  | opens (w : World) (value errno : ℤ) (h : 0 ≤ value) :
      Answers w .socket ⟨value, errno⟩ { w with opened := w.opened + 1 }
  | notOpens (w : World) (errno : ℤ) : Answers w .socket ⟨-1, errno⟩ (w.failing .socket errno)
  | sets (w : World) (option : SocketOption) (errno : ℤ) :
      Answers w (.setsockopt option) ⟨0, errno⟩ w
  | notSets (w : World) (option : SocketOption) (errno : ℤ) :
      Answers w (.setsockopt option) ⟨-1, errno⟩ (w.failing (.setsockopt option) errno)
  | connects (w : World) (path : Path) (errno : ℤ) (h : w.connection = none) :
      Answers w (.connect path) ⟨0, errno⟩
        { w with connection := some {}, attempts := w.attempts ++ [(path, 0)] }
  | refuses (w : World) (path : Path) (errno : ℤ) :
      Answers w (.connect path) ⟨-1, errno⟩
        { w.failing (.connect path) errno with attempts := w.attempts ++ [(path, errno)] }
  | closes (w : World) : Answers w .close () { w with opened := w.opened - 1 }
  | sends (w : World) {c : Connection} (hc : w.connection = some c) (bytes : List UInt8) {n : ℕ}
      (hpos : 0 < n) (hn : n ≤ bytes.length) (errno : ℤ) :
      Answers w (.send bytes) ⟨n, errno⟩
        { w with connection := some { c with delivered := c.delivered ++ bytes.take n } }
  | sendInterrupted (w : World) (bytes : List UInt8) {n : ℕ} (h : w.interrupts = n + 1) :
      Answers w (.send bytes) ⟨-1, eintr⟩ { w with interrupts := n }
  | sendFails (w : World) (bytes : List UInt8) {errno : ℤ} (h : errno ≠ eintr) :
      Answers w (.send bytes) ⟨-1, errno⟩ (w.failing .send errno)
  | receives (w : World) {c : Connection} (hc : w.connection = some c) {size : ℕ}
      {chunk : List UInt8} (hne : chunk ≠ []) (hsize : chunk.length ≤ size)
      (hchunk : chunk <+: c.written.drop c.taken) (errno : ℤ) :
      Answers w (.recv size) ⟨⟨chunk.length, errno⟩, chunk⟩
        { w with connection := some { c with taken := c.taken + chunk.length } }
  | ends (w : World) {c : Connection} (hc : w.connection = some c) (size : ℕ)
      (hhungUp : c.hungUp = true) (hall : c.written.drop c.taken = []) (errno : ℤ) :
      Answers w (.recv size) ⟨⟨0, errno⟩, []⟩ w
  | recvInterrupted (w : World) (size : ℕ) {n : ℕ} (h : w.interrupts = n + 1) :
      Answers w (.recv size) ⟨⟨-1, eintr⟩, []⟩ { w with interrupts := n }
  | recvFails (w : World) (size : ℕ) {errno : ℤ} (h : errno ≠ eintr) :
      Answers w (.recv size) ⟨⟨-1, errno⟩, []⟩ (w.failing .recv errno)

/-- The query and a daemon. -/
def system : System Call Answer World := ⟨DaemonActs, Answers⟩

end World

section Interference
variable {w w' : World} {c c' : Connection}

/-- The daemon has gone on: it has written more, unless it had closed its end. -/
structure Connection.Extends (c c' : Connection) : Prop where
  delivered : c'.delivered = c.delivered
  taken : c'.taken = c.taken
  written : c.written <+: c'.written
  hungUp : c.hungUp = true → c'.hungUp = true ∧ c'.written = c.written

theorem Connection.Extends.refl (c : Connection) : c.Extends c :=
  ⟨rfl, rfl, List.prefix_rfl, fun h => ⟨h, rfl⟩⟩

theorem Connection.Extends.trans {c'' : Connection} (h : c.Extends c') (h' : c'.Extends c'') :
    c.Extends c'' where
  delivered := h'.delivered.trans h.delivered
  taken := h'.taken.trans h.taken
  written := h.written.trans h'.written
  hungUp hup := by
    obtain ⟨hup', hsame⟩ := h.hungUp hup
    obtain ⟨hup'', hsame'⟩ := h'.hungUp hup'
    exact ⟨hup'', hsame'.trans hsame⟩

/-- What the daemon leaves as it is. -/
structure Later (w w' : World) : Prop where
  opened : w'.opened = w.opened
  attempts : w'.attempts = w.attempts
  failures : w'.failures = w.failures
  interrupts : w'.interrupts = w.interrupts
  unconnected : w.connection = none → w'.connection = none
  connected : ∀ c, w.connection = some c → ∃ c', w'.connection = some c' ∧ c.Extends c'

theorem Later.refl (w : World) : Later w w :=
  ⟨rfl, rfl, rfl, rfl, fun h => h, fun c hc => ⟨c, hc, .refl c⟩⟩

theorem Later.trans {w'' : World} (h : Later w w') (h' : Later w' w'') : Later w w'' where
  opened := h'.opened.trans h.opened
  attempts := h'.attempts.trans h.attempts
  failures := h'.failures.trans h.failures
  interrupts := h'.interrupts.trans h.interrupts
  unconnected hc := h'.unconnected (h.unconnected hc)
  connected c hc := by
    obtain ⟨c', hc', hext⟩ := h.connected c hc
    obtain ⟨c'', hc'', hext'⟩ := h'.connected c' hc'
    exact ⟨c'', hc'', hext.trans hext'⟩

/-- A change of the connection alone. -/
theorem later_of_connection {turns : ℕ} (hc : w.connection = some c) (hext : c.Extends c') :
    Later w { w with connection := some c', turns } where
  opened := rfl
  attempts := rfl
  failures := rfl
  interrupts := rfl
  unconnected h := by simp [h] at hc
  connected c₀ hc₀ := by
    cases hc.symm.trans hc₀
    exact ⟨c', rfl, hext⟩

/-- The same call fails in both. -/
theorem Later.failing (h : Later w w') (call : FailedCall) (errno : ℤ) :
    Later (w.failing call errno) (w'.failing call errno) :=
  ⟨h.opened, h.attempts, congrArg (· ++ [(call, errno)]) h.failures, h.interrupts, h.unconnected,
    h.connected⟩

theorem later_of_acts (h : DaemonActs w w') : Later w w' := by
  cases h with
  | writes hc hopen bytes hturns =>
    exact later_of_connection hc
      ⟨rfl, rfl, List.prefix_append _ _, fun hup => by simp [hopen] at hup⟩
  | hangsUp hc hturns =>
    exact later_of_connection hc ⟨rfl, rfl, List.prefix_rfl, fun _ => ⟨rfl, rfl⟩⟩

theorem later_of_interference (h : Interference system w w') : Later w w' := by
  induction h with
  | refl => exact .refl w
  | tail _ hstep ih => exact ih.trans (later_of_acts hstep)

/-- The daemon acts only so often. -/
theorem wellFounded_acts : WellFounded fun w' w => system.interferes w w' := by
  apply Subrelation.wf _ (measure World.turns).wf
  intro w' w h
  show w'.turns < w.turns
  cases h with
  | writes hc hopen bytes hturns => rw [hturns]; exact Nat.lt_succ_self _
  | hangsUp hc hturns => rw [hturns]; exact Nat.lt_succ_self _

end Interference

section Failures
variable {w w' : World} {call : FailedCall} {errno : ℤ} {f : Fault ErrorCode}

/-- The query ends when the call fails so; only the paths that are not there are passed over. -/
def Fatal : FailedCall × ℤ → Prop
  | (.connect _, errno) => nextPath errno = false
  | _ => True

/-- The error that is made of the error number. -/
def faultOf : FailedCall × ℤ → Fault ErrorCode
  | (.send, errno) | (.recv, errno) =>
    if errno = eagain then .fail (.syscape .temporarilyUnavailable) else .fail (.generic errno)
  | (_, errno) => .fail (.generic errno)

/-- No call has failed that ends the query. -/
def Clean (w : World) : Prop := ∀ failure ∈ w.failures, ¬ Fatal failure

/-- The last call that failed has ended the query, and no call before it. -/
def EndedBy (w : World) (f : Fault ErrorCode) : Prop :=
  ∃ before last, w.failures = before ++ [last] ∧ (∀ failure ∈ before, ¬ Fatal failure) ∧
    Fatal last ∧ f = faultOf last

theorem Clean.later (h : Clean w) (hlater : Later w w') : Clean w' := by
  rw [Clean, hlater.failures]
  exact h

theorem EndedBy.later (h : EndedBy w f) (hlater : Later w w') : EndedBy w' f := by
  rw [EndedBy, hlater.failures]
  exact h

theorem Clean.endedBy (h : Clean w) (hfatal : Fatal (call, errno)) :
    EndedBy (w.failing call errno) (faultOf (call, errno)) :=
  ⟨w.failures, (call, errno), rfl, h, hfatal, rfl⟩

theorem Clean.failing (h : Clean w) (hpassed : ¬ Fatal (call, errno)) :
    Clean (w.failing call errno) := by
  intro failure hfailure
  rcases List.mem_append.mp hfailure with hold | hlast
  · exact h failure hold
  · rw [List.mem_singleton.mp hlast]
    exact hpassed

end Failures

section Transfer
variable {buffer received : List UInt8} {opened : ℕ} {w w' : World}

/-- So many descriptors are open, the daemon has got these bytes, and these are the first of
the bytes that it has written. -/
structure Transferred (opened : ℕ) (delivered received : List UInt8) (w : World)
    (c : Connection) : Prop where
  opened_eq : w.opened = opened
  connected : w.connection = some c
  delivered_eq : c.delivered = delivered
  taken_eq : c.taken = received.length
  received : received <+: c.written

theorem Transferred.later {delivered : List UInt8} {c : Connection}
    (h : Transferred opened delivered received w c) (hlater : Later w w') :
    ∃ c', Transferred opened delivered received w' c' ∧ c.Extends c' := by
  obtain ⟨c', hc', hext⟩ := hlater.connected c h.connected
  exact ⟨c', ⟨hlater.opened.trans h.opened_eq, hc', hext.delivered.trans h.delivered_eq,
    hext.taken.trans h.taken_eq, h.received.trans hext.written⟩, hext⟩

theorem Transferred.failing {delivered : List UInt8} {c : Connection}
    (h : Transferred opened delivered received w c) (call : FailedCall) (errno : ℤ) :
    Transferred opened delivered received (w.failing call errno) c :=
  ⟨h.opened_eq, h.connected, h.delivered_eq, h.taken_eq, h.received⟩

/-- The first bytes of the buffer have been sent. -/
def Sent (opened : ℕ) (buffer : List UInt8) (sent : ℕ) (w : World) : Prop :=
  sent ≤ buffer.length ∧ Clean w ∧ ∃ c, Transferred opened (buffer.take sent) [] w c

theorem Sent.later {sent : ℕ} (h : Sent opened buffer sent w) (hlater : Later w w') :
    Sent opened buffer sent w' := by
  obtain ⟨hle, hclean, c, hc⟩ := h
  obtain ⟨c', hc', -⟩ := hc.later hlater
  exact ⟨hle, hclean.later hlater, c', hc'⟩

/-- All of the buffer has been sent, or a call has failed. -/
def SendPost (opened : ℕ) (buffer : List UInt8) (r : Result Unit) (w : World) : Prop :=
  match r with
  | .ok () => Sent opened buffer buffer.length w
  | .error f => EndedBy w f ∧ ∃ sent c, Transferred opened (buffer.take sent) [] w c

theorem SendPost.later {r : Result Unit} (h : SendPost opened buffer r w) (hlater : Later w w') :
    SendPost opened buffer r w' := by
  cases r with
  | ok u => exact Sent.later h hlater
  | error f =>
    obtain ⟨hended, sent, c, hc⟩ := h
    obtain ⟨c', hc', -⟩ := hc.later hlater
    exact ⟨hended.later hlater, sent, c', hc'⟩

/-- One turn of the loop sends some more bytes, or a signal has interrupted the call. -/
theorem ensures_sendStep {sent : ℕ} (h : Sent opened buffer sent w) :
    Ensures system (sendStep buffer sent)
      (BodyPost (Sent opened buffer) (fun sent w => w.interrupts + (buffer.length - sent))
        (w.interrupts + (buffer.length - sent)) (SendPost opened buffer)) w := by
  rw [sendStep]
  split_ifs with hmore
  swap
  · obtain rfl : sent = buffer.length := Nat.le_antisymm h.1 (Nat.le_of_not_lt hmore)
    exact ensures_pure fun w' hw' => h.later (later_of_interference hw')
  rw [send]
  apply ensures_invoke
  intro w₁ hw₁
  have hlater₁ := later_of_interference hw₁
  obtain ⟨hle, hclean, c, hc⟩ := h.later hlater₁
  have hsignals := hlater₁.interrupts
  refine ⟨⟨_, _, .sendFails w₁ _ (show eagain ≠ eintr by decide)⟩, fun n w₂ hr => ?_⟩
  cases hr with
  | sends hc₁ _ hpos hn errno =>
    next c₁ n =>
    cases hc.connected.symm.trans hc₁
    have hn' : n ≤ buffer.length - sent := by simpa using hn
    dsimp only
    rw [if_pos (by omega)]
    refine ensures_pure fun w₃ hw₃ => ?_
    have hlater₃ := later_of_interference hw₃
    have hsent : Sent opened buffer (sent + n) { w₁ with
        connection := some { c with delivered := c.delivered ++ (buffer.drop sent).take n } } := by
      refine ⟨by omega, hclean, _, hc.opened_eq, rfl, ?_, hc.taken_eq, hc.received⟩
      show c.delivered ++ (buffer.drop sent).take n = buffer.take (sent + n)
      rw [hc.delivered_eq, List.take_add]
    refine ⟨hsent.later hlater₃, ?_⟩
    have := hlater₃.interrupts
    dsimp only at this ⊢
    omega
  | sendInterrupted _ hn =>
    next n =>
    dsimp only
    rw [if_neg (by decide), if_pos (by decide)]
    refine ensures_pure fun w₃ hw₃ => ?_
    have hlater₃ := later_of_interference hw₃
    have hsent : Sent opened buffer sent { w₁ with interrupts := n } :=
      ⟨hle, hclean, c, hc.opened_eq, hc.connected, hc.delivered_eq, hc.taken_eq, hc.received⟩
    refine ⟨hsent.later hlater₃, ?_⟩
    have := hlater₃.interrupts
    dsimp only at this ⊢
    omega
  | sendFails _ herrno =>
    next errno =>
    dsimp only
    rw [if_neg (by decide), if_neg (by simp [herrno])]
    have hpost : SendPost opened buffer (.error (faultOf (.send, errno)))
        (w₁.failing .send errno) := ⟨hclean.endedBy trivial, sent, c, hc.failing _ _⟩
    have hnegative : ((-1 : ℤ) < 0 ∧ errno = eagain) ↔ errno = eagain := and_iff_right (by decide)
    rw [faultOf] at hpost
    simp only [hnegative]
    split_ifs at hpost ⊢
    · exact ensures_pure fun w₃ hw₃ => hpost.later (later_of_interference hw₃)
    · exact ensures_pure fun w₃ hw₃ => hpost.later (later_of_interference hw₃)

theorem ensures_sendLoop (h : Sent opened buffer 0 w) :
    Ensures system (iterate (sendStep buffer) 0) (SendPost opened buffer) w := by
  apply ensures_iterate (Sent opened buffer) (fun sent w => w.interrupts + (buffer.length - sent)) h
  · intro sent w₁ w₂ hsent hacts
    have hlater := later_of_acts hacts
    exact ⟨hsent.later hlater, by rw [hlater.interrupts]⟩
  · exact fun sent w₁ hsent => ensures_sendStep hsent
  · exact fun r w₁ w₂ hr hacts => hr.later (later_of_acts hacts)

/-- So many bytes of the response have been read. -/
def Received (opened : ℕ) (buffer received : List UInt8) (w : World) : Prop :=
  received.length ≤ maximumResponse ∧ Clean w ∧ ∃ c, Transferred opened buffer received w c

theorem Received.later (h : Received opened buffer received w) (hlater : Later w w') :
    Received opened buffer received w' := by
  obtain ⟨hle, hclean, c, hc⟩ := h
  obtain ⟨c', hc', -⟩ := hc.later hlater
  exact ⟨hle, hclean.later hlater, c', hc'⟩

/-- All that the daemon has written until it closed its end has been read, or too much of it,
or a call has failed. -/
def RecvPost (opened : ℕ) (buffer : List UInt8) (r : Result (List UInt8)) (w : World) : Prop :=
  ∃ c received, Transferred opened buffer received w c ∧
    match r with
    | .ok response => response = received ∧ received.length ≤ maximumResponse ∧
        c.hungUp = true ∧ c.written = received ∧ Clean w
    | .error f => EndedBy w f ∨
        f = .fail (.syscape .valueTooLarge) ∧ maximumResponse < received.length ∧ Clean w

theorem RecvPost.later {r : Result (List UInt8)} (h : RecvPost opened buffer r w)
    (hlater : Later w w') : RecvPost opened buffer r w' := by
  obtain ⟨c, received, hc, hr⟩ := h
  obtain ⟨c', hc', hext⟩ := hc.later hlater
  refine ⟨c', received, hc', ?_⟩
  cases r with
  | error f =>
    rcases hr with hended | ⟨hf, hlarge, hclean⟩
    · exact .inl (hended.later hlater)
    · exact .inr ⟨hf, hlarge, hclean.later hlater⟩
  | ok response =>
    obtain ⟨hresponse, hle, hup, hwritten, hclean⟩ := hr
    obtain ⟨hup', hsame⟩ := hext.hungUp hup
    exact ⟨hresponse, hle, hup', hsame.trans hwritten, hclean.later hlater⟩

/-- A chunk is what comes behind the bytes that have been read. -/
theorem Transferred.receives {c : Connection} {delivered chunk : List UInt8}
    (h : Transferred opened delivered received w c) (hchunk : chunk <+: c.written.drop c.taken) :
    Transferred opened delivered (received ++ chunk)
      { w with connection := some { c with taken := c.taken + chunk.length } }
      { c with taken := c.taken + chunk.length } := by
  refine ⟨h.opened_eq, rfl, h.delivered_eq, by simp [h.taken_eq], ?_⟩
  obtain ⟨rest, hrest⟩ := h.received
  rw [h.taken_eq, ← hrest, List.drop_left] at hchunk
  rw [← hrest]
  exact (List.prefix_append_right_inj received).mpr hchunk

theorem Transferred.all {c : Connection} {delivered : List UInt8}
    (h : Transferred opened delivered received w c) (hall : c.written.drop c.taken = []) :
    c.written = received := by
  obtain ⟨rest, hrest⟩ := h.received
  rw [h.taken_eq, ← hrest, List.drop_left] at hall
  rw [← hrest, hall, List.append_nil]

/-- What is left of the largest response, and of the signals. -/
def recvMeasure (received : List UInt8) (w : World) : ℕ :=
  w.interrupts + (maximumResponse + 1 - received.length)

/-- One turn of the loop reads some more bytes, or a signal has interrupted the call. -/
theorem ensures_recvStep (h : Received opened buffer received w) :
    Ensures system (recvStep received)
      (BodyPost (Received opened buffer) recvMeasure (recvMeasure received w)
        (RecvPost opened buffer)) w := by
  rw [recvStep, recv]
  apply ensures_invoke
  intro w₁ hw₁
  have hlater₁ := later_of_interference hw₁
  obtain ⟨hle, hclean, c, hc⟩ := h.later hlater₁
  have hsignals := hlater₁.interrupts
  refine ⟨⟨_, _, .recvFails w₁ _ (show eagain ≠ eintr by decide)⟩, fun n w₂ hr => ?_⟩
  cases hr with
  | receives hc₁ hne hsize hchunk errno =>
    next c₁ chunk =>
    cases hc.connected.symm.trans hc₁
    have hpos := List.length_pos_of_ne_nil hne
    have hnext := hc.receives hchunk
    dsimp only
    rw [if_pos (by omega), Int.toNat_natCast, List.take_length]
    split_ifs with hlarge
    · have hpost : RecvPost opened buffer (fail .valueTooLarge) _ :=
        ⟨_, _, hnext, .inr ⟨rfl, hlarge, hclean⟩⟩
      exact ensures_pure fun w₃ hw₃ => hpost.later (later_of_interference hw₃)
    · refine ensures_pure fun w₃ hw₃ => ?_
      have hlater₃ := later_of_interference hw₃
      have hreceived : Received opened buffer (received ++ chunk) { w₁ with
          connection := some { c with taken := c.taken + chunk.length } } :=
        ⟨Nat.le_of_not_lt hlarge, hclean, _, hnext⟩
      refine ⟨hreceived.later hlater₃, ?_⟩
      have hsame := hlater₃.interrupts
      rw [recvMeasure, recvMeasure, List.length_append]
      dsimp only at hsame
      omega
  | ends hc₁ _ hhungUp hall errno =>
    next c₁ =>
    cases hc.connected.symm.trans hc₁
    dsimp only
    rw [if_neg (by decide), if_pos rfl]
    have hpost : RecvPost opened buffer (.ok received) w₁ :=
      ⟨c, received, hc, rfl, hle, hhungUp, hc.all hall, hclean⟩
    exact ensures_pure fun w₃ hw₃ => hpost.later (later_of_interference hw₃)
  | recvInterrupted _ hn =>
    next n =>
    dsimp only
    rw [if_neg (by decide), if_neg (by decide), if_pos rfl]
    refine ensures_pure fun w₃ hw₃ => ?_
    have hlater₃ := later_of_interference hw₃
    have hreceived : Received opened buffer received { w₁ with interrupts := n } :=
      ⟨hle, hclean, c, hc.opened_eq, hc.connected, hc.delivered_eq, hc.taken_eq, hc.received⟩
    refine ⟨hreceived.later hlater₃, ?_⟩
    have hsame := hlater₃.interrupts
    rw [recvMeasure, recvMeasure]
    dsimp only at hsame
    omega
  | recvFails _ herrno =>
    next errno =>
    dsimp only
    rw [if_neg (by decide), if_neg (by decide), if_neg herrno]
    have hpost : RecvPost opened buffer (.error (faultOf (.recv, errno)))
        (w₁.failing .recv errno) :=
      ⟨c, received, hc.failing _ _, .inl (hclean.endedBy trivial)⟩
    rw [faultOf] at hpost
    split_ifs at hpost ⊢
    · exact ensures_pure fun w₃ hw₃ => hpost.later (later_of_interference hw₃)
    · exact ensures_pure fun w₃ hw₃ => hpost.later (later_of_interference hw₃)

theorem ensures_recvLoop (h : Received opened buffer [] w) :
    Ensures system (iterate recvStep []) (RecvPost opened buffer) w := by
  apply ensures_iterate (Received opened buffer) recvMeasure h
  · intro received w₁ w₂ hreceived hacts
    have hlater := later_of_acts hacts
    exact ⟨hreceived.later hlater, by rw [recvMeasure, recvMeasure, hlater.interrupts]⟩
  · exact fun received w₁ hreceived => ensures_recvStep hreceived
  · exact fun r w₁ w₂ hr hacts => hr.later (later_of_acts hacts)

end Transfer

section Connecting
variable {opened : ℕ} {attempts : List (Path × ℤ)} {w w' : World}

/-- There is no connection yet. -/
structure Unconnected (opened : ℕ) (attempts : List (Path × ℤ)) (w : World) : Prop where
  opened_eq : w.opened = opened
  attempts_eq : w.attempts = attempts
  unconnected : w.connection = none

theorem Unconnected.later (h : Unconnected opened attempts w) (hlater : Later w w') :
    Unconnected opened attempts w' :=
  ⟨hlater.opened.trans h.opened_eq, hlater.attempts.trans h.attempts_eq,
    hlater.unconnected h.unconnected⟩

theorem Unconnected.failing (h : Unconnected opened attempts w) (call : FailedCall) (errno : ℤ) :
    Unconnected opened attempts (w.failing call errno) :=
  ⟨h.opened_eq, h.attempts_eq, h.unconnected⟩

/-- A socket is connected, or no path is left, or a call has failed. -/
def ConnectPost (opened : ℕ) (attempts : List (Path × ℤ)) (paths : List Path) (r : Result Unit)
    (w : World) : Prop :=
  match r with
  | .ok () => Clean w ∧ ∃ c, Transferred (opened + 1) [] [] w c
  | .error f => ∃ tried, Unconnected opened (attempts ++ tried) w ∧
      (EndedBy w f ∨
        f = .fail (.syscape .notSupported) ∧ Clean w ∧ tried.map Prod.fst = paths ∧
          ∀ a ∈ tried, nextPath a.2 = true)

theorem ensures_failed {paths : List Path} (tried : List (Path × ℤ))
    (h : Unconnected opened (attempts ++ tried) w) {errno : ℤ}
    (hended : EndedBy w (.fail (.generic errno))) :
    Ensures system (pure (failErrno errno)) (ConnectPost opened attempts paths) w :=
  ensures_pure fun _ hw' =>
    ⟨tried, h.later (later_of_interference hw'), .inl (hended.later (later_of_interference hw'))⟩

/-- A socket that is not connected is closed. -/
theorem ensures_close {α : Type} {next : Query α} {post : α → World → Prop}
    (h : Unconnected (opened + 1) attempts w)
    (hnext : ∀ w', Unconnected opened attempts w' → w'.failures = w.failures →
      Ensures system next post w') :
    Ensures system (close >>= fun _ => next) post w := by
  rw [close]
  apply ensures_invoke
  intro w₁ hw₁
  have hlater₁ := later_of_interference hw₁
  have h₁ := h.later hlater₁
  refine ⟨⟨_, _, .closes w₁⟩, fun r w₂ hr => ?_⟩
  cases hr
  refine hnext _ ⟨?_, h₁.attempts_eq, h₁.unconnected⟩ hlater₁.failures
  show w₁.opened - 1 = opened
  rw [h₁.opened_eq, Nat.add_sub_cancel]

/-- Both timeouts are set, or one of them cannot be set. -/
theorem ensures_setTimeouts : Ensures system setTimeouts (fun r w' =>
    match r with
    | none => Later w w'
    | some errno => ∃ option, Later (w.failing (.setsockopt option) errno) w') w := by
  rw [setTimeouts]
  apply ensures_invoke
  intro w₁ hw₁
  have hlater₁ := later_of_interference hw₁
  refine ⟨⟨_, _, .sets w₁ .rcvtimeo 0⟩, fun r w₂ hr => ?_⟩
  cases hr with
  | notSets _ errno =>
    dsimp only
    rw [if_pos (by decide)]
    exact ensures_pure fun w₃ hw₃ =>
      ⟨.rcvtimeo, (hlater₁.failing _ _).trans (later_of_interference hw₃)⟩
  | sets _ errno =>
    dsimp only
    rw [if_neg (by decide)]
    apply ensures_invoke
    intro w₃ hw₃
    have hlater₃ := hlater₁.trans (later_of_interference hw₃)
    refine ⟨⟨_, _, .sets w₃ .sndtimeo 0⟩, fun r w₄ hr => ?_⟩
    cases hr with
    | notSets _ errno =>
      dsimp only
      rw [if_pos (by decide)]
      exact ensures_pure fun w₅ hw₅ =>
        ⟨.sndtimeo, (hlater₃.failing _ _).trans (later_of_interference hw₅)⟩
    | sets _ errno =>
      dsimp only
      rw [if_neg (by decide)]
      exact ensures_pure fun w₅ hw₅ => hlater₃.trans (later_of_interference hw₅)

/-- Every path that is passed over was refused, and its socket is closed again. -/
theorem ensures_connectFirst (paths : List Path) (h : Unconnected opened attempts w)
    (hclean : Clean w) :
    Ensures system (connectFirst paths) (ConnectPost opened attempts paths) w := by
  induction paths generalizing attempts w with
  | nil =>
    rw [connectFirst]
    refine ensures_pure fun w₁ hw₁ => ⟨[], ?_, .inr ⟨rfl, ?_, rfl, by simp⟩⟩
    · rw [List.append_nil]
      exact h.later (later_of_interference hw₁)
    · exact hclean.later (later_of_interference hw₁)
  | cons path paths ih =>
    rw [connectFirst, socket]
    apply ensures_invoke
    intro w₁ hw₁
    have h₁ := h.later (later_of_interference hw₁)
    have hclean₁ := hclean.later (later_of_interference hw₁)
    refine ⟨⟨_, _, .notOpens w₁ 0⟩, fun sock w₂ hr => ?_⟩
    cases hr with
    | notOpens errno =>
      dsimp only
      rw [if_pos (by decide)]
      have hfatal : Fatal (.socket, errno) := trivial
      refine ensures_failed [] ?_ (hclean₁.endedBy hfatal)
      rw [List.append_nil]
      exact h₁.failing _ _
    | opens value errno hvalue =>
      dsimp only
      rw [if_neg (by omega)]
      have h₂ : Unconnected (opened + 1) attempts { w₁ with opened := w₁.opened + 1 } :=
        ⟨by rw [h₁.opened_eq], h₁.attempts_eq, h₁.unconnected⟩
      have hclean₂ : Clean { w₁ with opened := w₁.opened + 1 } := hclean₁
      apply ensures_bind
      apply ensures_setTimeouts.mono
      intro r w₃ hr
      cases r with
      | some errno =>
        obtain ⟨option, hlater₃⟩ := hr
        apply ensures_close ((h₂.failing _ _).later hlater₃)
        intro w₄ h₄ hsame
        refine ensures_failed [] (by rwa [List.append_nil]) ?_
        rw [EndedBy, hsame, hlater₃.failures]
        have hfatal : Fatal (.setsockopt option, errno) := trivial
        exact hclean₂.endedBy hfatal
      | none =>
        have hlater₃ : Later { w₁ with opened := w₁.opened + 1 } w₃ := hr
        dsimp only
        rw [connect]
        apply ensures_invoke
        intro w₄ hw₄
        have hlater₄ := hlater₃.trans (later_of_interference hw₄)
        have h₄ := h₂.later hlater₄
        have hclean₄ := hclean₂.later hlater₄
        refine ⟨⟨_, _, .refuses w₄ path 0⟩, fun r w₅ hr => ?_⟩
        cases hr with
        | connects _ errno hnone =>
          dsimp only
          rw [if_pos rfl]
          refine ensures_pure fun w₆ hw₆ => ?_
          have hlater₆ := later_of_interference hw₆
          have hnew : Transferred (opened + 1) [] [] { w₄ with
              connection := some {}, attempts := w₄.attempts ++ [(path, 0)] } {} :=
            ⟨h₄.opened_eq, rfl, rfl, rfl, List.nil_prefix⟩
          have hclean₅ : Clean { w₄ with
              connection := some {}, attempts := w₄.attempts ++ [(path, 0)] } := hclean₄
          obtain ⟨c, hc, -⟩ := hnew.later hlater₆
          exact ⟨hclean₅.later hlater₆, c, hc⟩
        | refuses _ errno =>
          dsimp only
          rw [if_neg (by decide)]
          have h₅ : Unconnected (opened + 1) (attempts ++ [(path, errno)])
              { w₄.failing (.connect path) errno with attempts := w₄.attempts ++ [(path, errno)] } :=
            ⟨h₄.opened_eq, by rw [h₄.attempts_eq], h₄.unconnected⟩
          apply ensures_close h₅
          intro w₆ h₆ hsame
          split_ifs with hnext
          · have hpassed : ¬ Fatal (.connect path, errno) := by simp [Fatal, hnext]
            have hclean₆ : Clean w₆ := by
              rw [Clean, hsame]
              exact hclean₄.failing hpassed
            apply (ih h₆ hclean₆).mono
            intro r w₇ hr
            cases r with
            | ok u => exact hr
            | error f =>
              obtain ⟨tried, htried, hcause⟩ := hr
              refine ⟨(path, errno) :: tried, by simpa using htried, ?_⟩
              apply hcause.imp_right
              rintro ⟨hf, hclean₇, hpaths, hall⟩
              exact ⟨hf, hclean₇, by rw [List.map_cons, hpaths],
                List.forall_mem_cons.mpr ⟨hnext, hall⟩⟩
          · have hfatal : Fatal (.connect path, errno) := by simpa [Fatal] using hnext
            refine ensures_failed _ h₆ ?_
            rw [EndedBy, hsame]
            exact hclean₄.endedBy hfatal

end Connecting

section Exchange
variable {ippRequest : List UInt8} {opened : ℕ} {w w' : World}

/-- The bytes that the daemon has got. -/
def World.delivered (w : World) : List UInt8 :=
  match w.connection with
  | none => []
  | some c => c.delivered

/-- There was no socket to connect to. -/
def Unreached (w : World) (result : Result (List UInt8)) : Prop :=
  w.connection = none ∧ result = fail .notSupported ∧ w.attempts.map Prod.fst = socketPaths ∧
    ∀ a ∈ w.attempts, nextPath a.2 = true

/-- The daemon has got all of the request. It has written too much, or it has closed its end and
the result is what everything it has written stands for. -/
def Answered (ippRequest : List UInt8) (w : World) (result : Result (List UInt8)) : Prop :=
  ∃ c, w.connection = some c ∧ c.delivered = sendBuf ippRequest ∧
    (result = fail .valueTooLarge ∧ maximumResponse < c.written.length ∨
      result = readResponse c.written ∧ c.hungUp = true ∧ c.written.length ≤ maximumResponse)

/-- The end of the query: its descriptors are closed, and the daemon has got the request, or the
first bytes of it. Either the last call that failed has ended the query, and its error is that of
this call, or no call has failed that ends it. -/
structure Ended (ippRequest : List UInt8) (opened : ℕ) (result : Result (List UInt8))
    (w : World) : Prop where
  closed : w.opened = opened
  delivered : w.delivered <+: sendBuf ippRequest
  outcome : (∃ f, result = .error f ∧ EndedBy w f) ∨
    Clean w ∧ (Unreached w result ∨ Answered ippRequest w result)

theorem Answered.later {result : Result (List UInt8)} (h : Answered ippRequest w result)
    (hlater : Later w w') : Answered ippRequest w' result := by
  obtain ⟨c, hc, hall, hresult⟩ := h
  obtain ⟨c', hc', hext⟩ := hlater.connected c hc
  refine ⟨c', hc', hext.delivered.trans hall, ?_⟩
  rcases hresult with ⟨hresult, hlarge⟩ | ⟨hresult, hup, hle⟩
  · exact .inl ⟨hresult, hlarge.trans_le hext.written.length_le⟩
  · obtain ⟨hup', hsame⟩ := hext.hungUp hup
    exact .inr ⟨hsame.symm ▸ hresult, hup', hsame.symm ▸ hle⟩

/-- The end of the exchange, with the socket still open. -/
structure Exchanged (ippRequest : List UInt8) (opened : ℕ) (result : Result (List UInt8))
    (w : World) : Prop where
  opened_eq : w.opened = opened
  connected : ∃ c, w.connection = some c ∧ c.delivered <+: sendBuf ippRequest
  outcome : (∃ f, result = .error f ∧ EndedBy w f) ∨ Clean w ∧ Answered ippRequest w result

theorem Exchanged.later {result : Result (List UInt8)} (h : Exchanged ippRequest opened result w)
    (hlater : Later w w') : Exchanged ippRequest opened result w' := by
  obtain ⟨c, hc, hdelivered⟩ := h.connected
  obtain ⟨c', hc', hext⟩ := hlater.connected c hc
  refine ⟨hlater.opened.trans h.opened_eq, ⟨c', hc', hext.delivered.symm ▸ hdelivered⟩, ?_⟩
  rcases h.outcome with ⟨f, hf, hended⟩ | ⟨hclean, hanswered⟩
  · exact .inl ⟨f, hf, hended.later hlater⟩
  · exact .inr ⟨hclean.later hlater, hanswered.later hlater⟩

/-- Once a socket is connected. -/
theorem ensures_exchange {c : Connection} (h : Transferred opened [] [] w c) (hclean : Clean w) :
    Ensures system (exchange ippRequest) (Exchanged ippRequest opened) w := by
  have hsent : Sent opened (sendBuf ippRequest) 0 w :=
    ⟨Nat.zero_le _, hclean, c, by rwa [List.take_zero]⟩
  rw [exchange]
  apply ensures_bind
  apply (ensures_sendLoop hsent).mono
  intro r w₁ hr
  cases r with
  | error f =>
    obtain ⟨hended, sent, c₁, hc₁⟩ := hr
    have hpart : c₁.delivered <+: sendBuf ippRequest := by
      rw [hc₁.delivered_eq]
      exact List.take_prefix _ _
    have hexchanged : Exchanged ippRequest opened (.error f) w₁ :=
      ⟨hc₁.opened_eq, ⟨c₁, hc₁.connected, hpart⟩, .inl ⟨f, rfl, hended⟩⟩
    exact ensures_pure fun w₂ hw₂ => hexchanged.later (later_of_interference hw₂)
  | ok u =>
    obtain ⟨-, hclean₁, c₁, hc₁⟩ := hr
    rw [List.take_length] at hc₁
    apply ensures_bind
    apply (ensures_recvLoop ⟨Nat.zero_le _, hclean₁, c₁, hc₁⟩).mono
    rintro r w₂ ⟨c₂, received, hc₂, hr⟩
    have hall := hc₂.delivered_eq
    have hconnected : ∃ c, w₂.connection = some c ∧ c.delivered <+: sendBuf ippRequest :=
      ⟨c₂, hc₂.connected, hall ▸ List.prefix_rfl⟩
    cases r with
    | error f =>
      have hexchanged : Exchanged ippRequest opened (.error f) w₂ := by
        refine ⟨hc₂.opened_eq, hconnected, ?_⟩
        rcases hr with hended | ⟨rfl, hlarge, hclean₂⟩
        · exact .inl ⟨f, rfl, hended⟩
        · exact .inr ⟨hclean₂, c₂, hc₂.connected, hall,
            .inl ⟨rfl, hlarge.trans_le hc₂.received.length_le⟩⟩
      exact ensures_pure fun w₃ hw₃ => hexchanged.later (later_of_interference hw₃)
    | ok response =>
      obtain ⟨rfl, hle, hup, hwritten, hclean₂⟩ := hr
      have hexchanged : Exchanged ippRequest opened (readResponse response) w₂ :=
        ⟨hc₂.opened_eq, hconnected, .inr ⟨hclean₂, c₂, hc₂.connected, hall,
          .inr ⟨by rw [hwritten], hup, hwritten.symm ▸ hle⟩⟩⟩
      exact ensures_pure fun w₃ hw₃ => hexchanged.later (later_of_interference hw₃)

theorem ensures_queryCupsSocket (h : Unconnected opened [] w) (hclean : Clean w) :
    Ensures system (queryCupsSocket ippRequest) (Ended ippRequest opened) w := by
  rw [queryCupsSocket]
  apply ensures_bind
  apply (ensures_connectFirst socketPaths h hclean).mono
  intro r w₁ hr
  cases r with
  | error f =>
    obtain ⟨tried, htried, hcause⟩ := hr
    refine ensures_pure fun w₂ hw₂ => ?_
    have hlater₂ := later_of_interference hw₂
    have h₂ := htried.later hlater₂
    have hnothing : w₂.delivered <+: sendBuf ippRequest := by
      rw [World.delivered, h₂.unconnected]
      exact List.nil_prefix
    refine ⟨h₂.opened_eq, hnothing, ?_⟩
    rcases hcause with hended | ⟨rfl, hclean₁, hpaths, hall⟩
    · exact .inl ⟨f, rfl, hended.later hlater₂⟩
    · refine .inr ⟨hclean₁.later hlater₂, .inl ⟨h₂.unconnected, rfl, ?_⟩⟩
      rw [h₂.attempts_eq]
      exact ⟨hpaths, hall⟩
  | ok u =>
    obtain ⟨hclean₁, c₁, hc₁⟩ := hr
    apply ensures_bind
    apply (ensures_exchange hc₁ hclean₁).mono
    intro result w₂ hexchanged
    rw [close]
    apply ensures_invoke
    intro w₃ hw₃
    have h₃ := hexchanged.later (later_of_interference hw₃)
    refine ⟨⟨_, _, .closes w₃⟩, fun r w₄ hr => ?_⟩
    cases hr
    refine ensures_pure fun w₅ hw₅ => ?_
    have hlater₅ := later_of_interference hw₅
    have hclosed : Exchanged ippRequest opened result { w₃ with opened := w₃.opened - 1 } := by
      refine ⟨?_, h₃.connected, h₃.outcome⟩
      rw [h₃.opened_eq, Nat.add_sub_cancel]
    have h₅ := hclosed.later hlater₅
    obtain ⟨c₅, hc₅, hpart⟩ := h₅.connected
    refine ⟨h₅.opened_eq, ?_, h₅.outcome.imp_right (And.imp_right .inr)⟩
    rw [World.delivered, hc₅]
    exact hpart

theorem delivered_acts (h : DaemonActs w w') : w.delivered <+: w'.delivered := by
  cases h with
  | writes hc hopen bytes hturns => simp [World.delivered, hc]
  | hangsUp hc hturns => simp [World.delivered, hc]

theorem delivered_answers {call : Call} {r : Answer call} (h : Answers w call r w') :
    w.delivered <+: w'.delivered := by
  cases h with
  | opens => exact List.prefix_rfl
  | notOpens => exact List.prefix_rfl
  | sets => exact List.prefix_rfl
  | notSets => exact List.prefix_rfl
  | connects path errno hnone => simp [World.delivered, hnone]
  | refuses => exact List.prefix_rfl
  | closes => exact List.prefix_rfl
  | sends hc bytes hpos hn errno => simp [World.delivered, hc]
  | sendInterrupted => exact List.prefix_rfl
  | sendFails => exact List.prefix_rfl
  | receives hc hne hsize hchunk errno => simp [World.delivered, hc]
  | ends => exact List.prefix_rfl
  | recvInterrupted => exact List.prefix_rfl
  | recvFails => exact List.prefix_rfl

/-- What the daemon has got is never lost or changed. -/
theorem delivered_runs {α : Type} {x y : World × Query α} (h : Runs system x y) :
    x.1.delivered <+: y.1.delivered := by
  induction h with
  | refl => exact List.prefix_rfl
  | tail _ hstep ih =>
    apply ih.trans
    cases hstep with
    | interferes p hacts => exact delivered_acts hacts
    | advance hadvance =>
      cases hadvance with
      | call next hr => exact delivered_answers hr
      | loop => exact List.prefix_rfl

/-- The world before the query. -/
def initial (opened interrupts turns : ℕ) : World := ⟨opened, [], [], none, interrupts, turns⟩

theorem ensures_query (ippRequest : List UInt8) (opened interrupts turns : ℕ) :
    Ensures system (queryCupsSocket ippRequest) (Ended ippRequest opened)
      (initial opened interrupts turns) :=
  ensures_queryCupsSocket ⟨rfl, rfl, rfl⟩ fun _ hfailure => by cases hfailure

/-- Whatever the daemon does at any time, and however the calls are interrupted or fail, the
query ends and is never stuck, the daemon has got nothing but the first bytes of the request at
any time, and at the end the result is as `Ended` says. -/
theorem query_exchanges (ippRequest : List UInt8) (opened interrupts turns : ℕ) :
    Terminates system (initial opened interrupts turns, queryCupsSocket ippRequest) ∧
      ∀ y, Runs system (initial opened interrupts turns, queryCupsSocket ippRequest) y →
        y.1.delivered <+: sendBuf ippRequest ∧
          ((∃ result, y.2 = .done result ∧ Ended ippRequest opened result y.1) ∨
            ∃ z, Advance system y z) := by
  have hensures := ensures_query ippRequest opened interrupts turns
  obtain ⟨hends, hruns⟩ := ensures_sound wellFounded_acts hensures
  refine ⟨hends, fun y hy => ⟨?_, hruns y hy⟩⟩
  -- what it has got now is a part of what it has got at an end
  obtain ⟨result, w', hy', hended⟩ := ensures_end wellFounded_acts (ensures_runs hensures hy)
  exact (delivered_runs hy').trans hended.delivered

end Exchange

end Syscape.Cups
