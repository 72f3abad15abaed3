import Syscape.CupsExchange
import Syscape.HttpFraming
import Syscape.IppGroups

/-!
# A print daemon that answers

A daemon that writes one response, in pieces of its own and at any time, and closes its end
behind it. The response is an IPP response in any framing of HTTP.
-/
namespace Syscape.Cups
open Calls Checked Printer Http Ipp

section Framing

/-- A body in chunks or behind its length, with interim responses in front. -/
inductive Delivery (body : List UInt8) where
  | chunked (interims : List InterimHead) (head : ChunkedHead) (b : ChunkedBody)
      (payload_eq : b.payload = body)
  | declared (interims : List InterimHead) (head : LengthHead body.length)
      (length_le : body.length ≤ sizeMax)

def Delivery.bytes {body : List UInt8} : Delivery body → List UInt8
  | chunked interims head b _ => chunkedResponse interims head b
  | declared interims head _ => lengthResponse interims head body

variable {body : List UInt8}

theorem Delivery.parse (d : Delivery body) : parseHttpIppResponse d.bytes = .ok body := by
  cases d with
  | chunked interims head b hpayload =>
    have hparse := parse_chunkedResponse interims head b []
    rwa [List.append_nil, if_pos rfl, hpayload] at hparse
  | declared interims head hmax =>
    have hparse := parse_lengthResponse hmax interims head body
    rwa [if_pos rfl] at hparse

theorem Delivery.readResponse (d : Delivery body) : readResponse d.bytes = .ok body := by
  have hne : d.bytes ≠ [] := by
    cases d with
    | chunked interims head b hpayload => simp [bytes, chunkedResponse, head.bytes_ne]
    | declared interims head hmax => simp [bytes, lengthResponse, head.bytes_ne]
  rw [Cups.readResponse, if_neg hne, d.parse]

end Framing

section Daemon
variable {response : List UInt8} {w w' : World} {opened interrupts turns : ℕ}

/-- The daemon writes the next piece of the response, or closes its end behind all of it. -/
inductive DaemonFollows (response : List UInt8) : World → World → Prop
  | writes (w : World) {c : Connection} (hc : w.connection = some c) (hopen : c.hungUp = false)
      {bytes : List UInt8} (hbytes : c.written ++ bytes <+: response) {turns : ℕ}
      (hturns : w.turns = turns + 1) :
      DaemonFollows response w
        { w with connection := some { c with written := c.written ++ bytes }, turns }
  | hangsUp (w : World) {c : Connection} (hc : w.connection = some c)
      (hall : c.written = response) {turns : ℕ} (hturns : w.turns = turns + 1) :
      DaemonFollows response w { w with connection := some { c with hungUp := true }, turns }

/-- The query and a daemon with a response. -/
def answering (response : List UInt8) : System Call Answer World :=
  ⟨DaemonFollows response, Answers⟩

theorem acts_of_follows (h : DaemonFollows response w w') : DaemonActs w w' := by
  cases h with
  | writes hc hopen hbytes hturns => exact .writes w hc hopen _ hturns
  | hangsUp hc hall hturns => exact .hangsUp w hc hturns

/-- What is written is a part of the response, and all of it once the daemon is done. -/
def Following (response : List UInt8) (w : World) : Prop :=
  ∀ c, w.connection = some c → c.written <+: response ∧ (c.hungUp = true → c.written = response)

theorem Following.acts (h : Following response w) (hacts : DaemonFollows response w w') :
    Following response w' := by
  cases hacts with
  | writes hc hopen hbytes hturns =>
    intro c' hc'
    cases hc'
    exact ⟨hbytes, fun hup => by simp [hopen] at hup⟩
  | hangsUp hc hall hturns =>
    intro c' hc'
    cases hc'
    exact ⟨(h _ hc).1, fun _ => hall⟩

theorem Following.answers {call : Call} {r : Answer call} (h : Following response w)
    (hr : Answers w call r w') : Following response w' := by
  cases hr with
  | connects path errno hnone =>
    intro c' hc'
    cases hc'
    exact ⟨List.nil_prefix, fun hup => by cases hup⟩
  | sends hc bytes hpos hn errno =>
    intro c' hc'
    cases hc'
    have hold := h _ hc
    exact hold
  | receives hc hne hsize hchunk errno =>
    intro c' hc'
    cases hc'
    have hold := h _ hc
    exact hold
  | opens => exact h
  | notOpens => exact h
  | sets => exact h
  | notSets => exact h
  | refuses => exact h
  | closes => exact h
  | sendInterrupted => exact h
  | sendFails => exact h
  | ends => exact h
  | recvInterrupted => exact h
  | recvFails => exact h

theorem Following.runs {α : Type} {x y : World × Query α} (h : Following response x.1)
    (hruns : Runs (answering response) x y) : Following response y.1 := by
  induction hruns with
  | refl => exact h
  | tail _ hstep ih =>
    cases hstep with
    | interferes p hacts => exact ih.acts hacts
    | advance hadvance =>
      cases hadvance with
      | call next hr => exact ih.answers hr
      | loop => exact ih

/-- A query that ends without the body: the last call that failed has ended it, or none has and
no socket could be connected, or the response is too large. -/
def Failed (response : List UInt8) (w : World) (result : Result (List UInt8)) : Prop :=
  (∃ f, result = .error f ∧ EndedBy w f) ∨
    Clean w ∧ (Unreached w result ∨
      result = fail .valueTooLarge ∧ maximumResponse < response.length)

/-- A daemon that answers is understood, however it frames its response and in whatever pieces
and at whatever time it writes it: every query ends, and unless a call fails that ends it, the
printers are those of the groups that the daemon has sent. -/
theorem daemon_is_understood (h : Header) (groups : List AttributeGroup)
    (d : Delivery (responseBytes h.bytes groups)) (ippRequest : List UInt8)
    (opened interrupts turns : ℕ) :
    Terminates (answering d.bytes) (initial opened interrupts turns, queryCupsSocket ippRequest) ∧
      ∀ y, Runs (answering d.bytes)
          (initial opened interrupts turns, queryCupsSocket ippRequest) y →
        (∃ result, y.2 = .done result ∧ y.1.opened = opened ∧
          (Failed d.bytes y.1 result ∨
            Clean y.1 ∧ (result >>= parseIppPrintersResponse) = interpret groups)) ∨
        ∃ z, Advance (answering d.bytes) y z := by
  obtain ⟨hends, hall⟩ :=
    ensures_sound wellFounded_acts (ensures_query ippRequest opened interrupts turns)
  have hacts : ∀ w w', (answering d.bytes).interferes w w' → system.interferes w w' :=
    fun _ _ => acts_of_follows
  have hsame : ∀ w c r w', (answering d.bytes).answers w c r w' → system.answers w c r w' :=
    fun _ _ _ _ hr => hr
  refine ⟨hends.imp hacts hsame, fun y hy => ?_⟩
  rcases hall y (hy.imp hacts hsame) with ⟨result, hdone, hended⟩ | ⟨z, hz⟩
  swap
  · have hback : ∀ w c r w', system.answers w c r w' → (answering d.bytes).answers w c r w' :=
      fun _ _ _ _ hr => hr
    exact .inr ⟨z, hz.imp hback⟩
  refine .inl ⟨result, hdone, hended.closed, ?_⟩
  rcases hended.outcome with hfailed | ⟨hclean, hnone | ⟨c, hc, -, hanswer⟩⟩
  · exact .inl (.inl hfailed)
  · exact .inl (.inr ⟨hclean, .inl hnone⟩)
  have hstart : Following d.bytes (initial opened interrupts turns) := by
    intro c hc
    cases hc
  obtain ⟨hpart, hwhole⟩ := hstart.runs hy c hc
  rcases hanswer with ⟨hresult, hlarge⟩ | ⟨hresult, hup, -⟩
  · exact .inl (.inr ⟨hclean, .inr ⟨hresult, hlarge.trans_le hpart.length_le⟩⟩)
  · refine .inr ⟨hclean, ?_⟩
    have hcheck := checkHeader_bytes h []
    rw [List.append_nil] at hcheck
    rw [hresult, hwhole hup, d.readResponse, ok_bind, parse_responseBytes h.length_bytes, hcheck,
      ok_bind]

end Daemon

end Syscape.Cups
