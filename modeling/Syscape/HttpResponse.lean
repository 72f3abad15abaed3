import Syscape.Printer

/-!
# HTTP responses of a print server

`parse_http_ipp_response` takes the body out of an HTTP response: it passes over interim
responses, reads the header fields, and then takes the rest of the bytes or decodes the
chunks. Positions are indices into the response, and every access to it is checked. The
ends that the loops find are returned together with their bounds.
-/
namespace Syscape.Http
open Checked Text Printer

/-- A place at or behind a position where a line ends, with its two bytes. -/
structure LineEnd (response : List UInt8) (start : ℕ) where
  index : ℕ
  le : start ≤ index
  lt : index + 1 < response.length
  deriving DecidableEq

/-- A position behind some place of the response. -/
structure Behind (response : List UInt8) (start : ℕ) where
  index : ℕ
  lt : start < index
  le : index ≤ response.length
  deriving DecidableEq

/-- `find_crlf`. -/
def findCrlf (response : List UInt8) (i : ℕ) : Result (Option (LineEnd response i)) :=
  if hi : i + 1 < response.length then do
    let b0 ← readByte response i
    let b1 ← readByte response (i + 1)
    if b0 = 0x0D ∧ b1 = 0x0A then .ok (some ⟨i, le_rfl, hi⟩)
    else do
      let found ← findCrlf response (i + 1)
      .ok (found.map fun e => ⟨e.index, Nat.le_of_succ_le e.le, e.lt⟩)
  else .ok none
termination_by response.length - i

/-- The status of a status line. -/
def parseStatus (statusLine : List UInt8) : Result ℕ :=
  if !startsWithIgnoreCase statusLine (ascii "HTTP/") ∨ statusLine.length < 12 then
    fail .malformedData
  else
    match findByte 0x20 statusLine with
    | none => fail .malformedData
    | some firstSpace =>
      if firstSpace + 4 > statusLine.length then fail .malformedData
      else do
        if firstSpace + 4 < statusLine.length then
          if (← readByte statusLine (firstSpace + 4)) ≠ 0x20 then fail .malformedData
        match parseInt unsignedMax ((statusLine.drop (firstSpace + 1)).take 3) 10 with
        | none => fail .malformedData
        | some status => if status < 100 ∨ status > 599 then fail .malformedData else .ok status

/-- What the header fields say about the body. -/
structure Framing where
  chunked : Bool
  contentLength : Option ℕ
  deriving DecidableEq, Repr

/-- What a header field with a name and a value adds to that. -/
def applyField (name value : List UInt8) (framing : Framing) : Result Framing :=
  if equalsIgnoreCase name (ascii "Content-Length") then
    match parseInt sizeMax value 10 with
    | none => fail .malformedData
    | some parsed =>
      if framing.contentLength.any (· ≠ parsed) then fail .malformedData
      else .ok { framing with contentLength := some parsed }
  else if equalsIgnoreCase name (ascii "Transfer-Encoding") then
    if !equalsIgnoreCase value (ascii "chunked") then fail .notSupported
    else .ok { framing with chunked := true }
  else .ok framing

/-- One line of the header. -/
def headerField (line : List UInt8) (framing : Framing) : Result Framing :=
  match findByte 0x3A line with
  | none => fail .malformedData
  | some colon =>
    let name := trimWhitespace (line.take colon)
    let value := trimWhitespace (line.drop (colon + 1))
    if name = [] then fail .malformedData else applyField name value framing

/-- The loop over the header fields, up to and with the empty line. -/
def headerLoop (response : List UInt8) (lineBegin : ℕ) (framing : Framing) :
    Result (Framing × Behind response lineBegin) := do
  match ← findCrlf response lineBegin with
  | none => fail .malformedData
  | some lineEnd =>
    if _h : lineEnd.index = lineBegin then
      .ok (framing, ⟨lineBegin + 2, by omega, by have := lineEnd.lt; omega⟩)
    else do
      let line ← slice response lineBegin (lineEnd.index - lineBegin)
      let framing ← headerField line framing
      let (framing, stop) ← headerLoop response (lineEnd.index + 2) framing
      .ok (framing, ⟨stop.index, by have := lineEnd.le; have := stop.lt; omega, stop.le⟩)
termination_by response.length - lineBegin
decreasing_by
  have := lineEnd.le
  have := lineEnd.lt
  omega

/-- The loop over the trailer fields, up to and with the empty line. -/
def trailerLoop (response : List UInt8) (chunkBegin : ℕ) : Result (Behind response chunkBegin) := do
  match ← findCrlf response chunkBegin with
  | none => fail .malformedData
  | some trailerEnd =>
    if _h : trailerEnd.index = chunkBegin then
      .ok ⟨chunkBegin + 2, by omega, by have := trailerEnd.lt; omega⟩
    else do
      let trailer ← slice response chunkBegin (trailerEnd.index - chunkBegin)
      match findByte 0x3A trailer with
      | none => fail .malformedData
      | some _ => do
        let stop ← trailerLoop response (trailerEnd.index + 2)
        .ok ⟨stop.index, by have := trailerEnd.le; have := stop.lt; omega, stop.le⟩
termination_by response.length - chunkBegin
decreasing_by
  have := trailerEnd.le
  have := trailerEnd.lt
  omega

/-- The size in the first line of a chunk. -/
def chunkSize (line : List UInt8) : Option ℕ :=
  let sizeText := trimWhitespace line
  let sizeText :=
    match findByte 0x3B sizeText with
    | none => sizeText
    | some extension => trimWhitespace (sizeText.take extension)
  parseInt sizeMax sizeText 16

/-- The loop over the chunks. -/
def chunkLoop (response : List UInt8) (chunkBegin : ℕ) (decoded : List UInt8) :
    Result (List UInt8) := do
  match ← findCrlf response chunkBegin with
  | none => fail .malformedData
  | some chunkLineEnd =>
    let line ← slice response chunkBegin (chunkLineEnd.index - chunkBegin)
    match chunkSize line with
    | none => fail .malformedData
    | some size =>
      let dataBegin := chunkLineEnd.index + 2
      if size = 0 then do
        let stop ← trailerLoop response dataBegin
        if stop.index ≠ response.length then fail .malformedData else .ok decoded
      else if _h : size > response.length - dataBegin ∨
          response.length - dataBegin - size < 2 then fail .malformedData
      else do
        let data ← slice response dataBegin size
        let b0 ← readByte response (dataBegin + size)
        let b1 ← readByte response (dataBegin + size + 1)
        if b0 ≠ 0x0D ∨ b1 ≠ 0x0A then fail .malformedData
        else chunkLoop response (dataBegin + size + 2) (decoded ++ data)
termination_by response.length - chunkBegin
decreasing_by
  have := chunkLineEnd.le
  have := chunkLineEnd.lt
  omega

/-- The error for a final status, if it is one. -/
def statusError (status : ℕ) : Option Errc :=
  if status = 401 ∨ status = 403 then some .permissionDenied
  else if status = 404 then some .notFound
  else if status = 501 then some .notSupported
  else if status = 408 ∨ status = 429 ∨ status = 503 then some .temporarilyUnavailable
  else if status < 200 ∨ status ≥ 300 then some .ioError
  else none

/-- The body behind the header of a final response. -/
def responseBody (response : List UInt8) (lineBegin : ℕ) (framing : Framing) :
    Result (List UInt8) :=
  if framing.chunked then
    if framing.contentLength.isSome then fail .malformedData
    else chunkLoop response lineBegin []
  else
    let available := response.length - lineBegin
    if framing.contentLength.any (available ≠ ·) then fail .malformedData
    else slice response lineBegin available

/-- The loop over the messages: interim responses, and then the final one. -/
def messageLoop (response : List UInt8) (messageBegin : ℕ) : Result (List UInt8) := do
  match ← findCrlf response messageBegin with
  | none => fail .malformedData
  | some statusEnd =>
    let statusLine ← slice response messageBegin (statusEnd.index - messageBegin)
    let status ← parseStatus statusLine
    let (framing, stop) ← headerLoop response (statusEnd.index + 2) ⟨false, none⟩
    if 100 ≤ status ∧ status < 200 then
      if framing.chunked ∨ framing.contentLength.any (· ≠ 0) then fail .malformedData
      else if stop.index ≥ response.length then fail .malformedData
      else messageLoop response stop.index
    else
      match statusError status with
      | some e => fail e
      | none => responseBody response stop.index framing
termination_by response.length - messageBegin
decreasing_by
  have := statusEnd.le
  have := stop.lt
  omega

/-- `parse_http_ipp_response`. -/
def parseHttpIppResponse (response : List UInt8) : Result (List UInt8) := messageLoop response 0

section Bounds
variable {response : List UInt8}

theorem defined_findCrlf (i : ℕ) : Defined (findCrlf response i) := by
  induction hn : response.length - i generalizing i with
  | zero =>
    rw [findCrlf, dif_neg (by omega)]
    exact defined_ok _
  | succ n ih =>
    rw [findCrlf]
    refine Defined.dite (fun hlt => ?_) fun _ => defined_ok _
    apply (defined_readByte (by omega)).bind
    intro b0 _
    apply (defined_readByte hlt).bind
    intro b1 _
    refine Defined.ite (fun _ => defined_ok _) fun _ => ?_
    exact (ih (i + 1) (by omega)).bind fun _ _ => defined_ok _

theorem defined_parseStatus (statusLine : List UInt8) : Defined (parseStatus statusLine) := by
  refine Defined.ite (fun _ => defined_failErrc _) fun _ => ?_
  cases findByte 0x20 statusLine with
  | none => exact defined_failErrc _
  | some firstSpace =>
    refine Defined.ite (fun _ => defined_failErrc _) fun _ => ?_
    have hstatus : Defined (match parseInt unsignedMax ((statusLine.drop (firstSpace + 1)).take 3)
        10 with
      | none => fail .malformedData
      | some status =>
        if status < 100 ∨ status > 599 then fail .malformedData else .ok status : Result ℕ) := by
      cases parseInt unsignedMax ((statusLine.drop (firstSpace + 1)).take 3) 10 with
      | none => exact defined_failErrc _
      | some status => exact Defined.ite (fun _ => defined_failErrc _) fun _ => defined_ok _
    refine Defined.ite (fun hlt => ?_) fun _ => hstatus
    apply (defined_readByte hlt).bind
    intro b _
    exact Defined.ite (fun _ => defined_failErrc _) fun _ => hstatus

theorem defined_applyField (name value : List UInt8) (framing : Framing) :
    Defined (applyField name value framing) := by
  refine Defined.ite (fun _ => ?_) fun _ => ?_
  · cases parseInt sizeMax value 10 with
    | none => exact defined_failErrc _
    | some parsed => exact Defined.ite (fun _ => defined_failErrc _) fun _ => defined_ok _
  · refine Defined.ite (fun _ => ?_) fun _ => defined_ok _
    exact Defined.ite (fun _ => defined_failErrc _) fun _ => defined_ok _

theorem defined_headerField (line : List UInt8) (framing : Framing) :
    Defined (headerField line framing) := by
  unfold headerField
  cases findByte 0x3A line with
  | none => exact defined_failErrc _
  | some colon =>
    exact Defined.ite (fun _ => defined_failErrc _) fun _ => defined_applyField _ _ framing

/-- A line that ends behind a position can be read. -/
theorem defined_line {start : ℕ} (e : LineEnd response start) :
    Defined (slice response start (e.index - start) : Result (List UInt8)) := by
  have hle := e.le
  have hlt := e.lt
  exact defined_slice (by omega)

theorem defined_headerLoop (lineBegin : ℕ) (framing : Framing) :
    Defined (headerLoop response lineBegin framing) := by
  induction hn : response.length - lineBegin using Nat.strongRecOn
    generalizing lineBegin framing with
  | ind n ih =>
    rw [headerLoop]
    apply (defined_findCrlf _).bind
    intro found _
    cases found with
    | none => exact defined_failErrc _
    | some lineEnd =>
      have hle := lineEnd.le
      have hlt := lineEnd.lt
      refine Defined.dite (fun _ => defined_ok _) fun _ => ?_
      apply (defined_line lineEnd).bind
      intro line _
      apply (defined_headerField _ _).bind
      intro framing' _
      exact (ih _ (by omega) _ framing' rfl).bind fun _ _ => defined_ok _

theorem defined_trailerLoop (chunkBegin : ℕ) : Defined (trailerLoop response chunkBegin) := by
  induction hn : response.length - chunkBegin using Nat.strongRecOn generalizing chunkBegin with
  | ind n ih =>
    rw [trailerLoop]
    apply (defined_findCrlf _).bind
    intro found _
    cases found with
    | none => exact defined_failErrc _
    | some trailerEnd =>
      have hle := trailerEnd.le
      have hlt := trailerEnd.lt
      refine Defined.dite (fun _ => defined_ok _) fun _ => ?_
      apply (defined_line trailerEnd).bind
      intro trailer _
      cases findByte 0x3A trailer with
      | none => exact defined_failErrc _
      | some colon => exact (ih _ (by omega) _ rfl).bind fun _ _ => defined_ok _

theorem defined_chunkLoop (chunkBegin : ℕ) (decoded : List UInt8) :
    Defined (chunkLoop response chunkBegin decoded) := by
  induction hn : response.length - chunkBegin using Nat.strongRecOn
    generalizing chunkBegin decoded with
  | ind n ih =>
    rw [chunkLoop]
    apply (defined_findCrlf _).bind
    intro found _
    cases found with
    | none => exact defined_failErrc _
    | some chunkLineEnd =>
      have hle := chunkLineEnd.le
      have hlt := chunkLineEnd.lt
      apply (defined_line chunkLineEnd).bind
      intro line _
      cases chunkSize line with
      | none => exact defined_failErrc _
      | some size =>
        refine Defined.ite (fun _ => ?_) fun _ => ?_
        · apply (defined_trailerLoop _).bind
          intro stop _
          exact Defined.ite (fun _ => defined_failErrc _) fun _ => defined_ok _
        · refine Defined.dite (fun _ => defined_failErrc _) fun hfits => ?_
          apply (defined_slice (by omega)).bind
          intro data _
          apply (defined_readByte (by omega)).bind
          intro b0 _
          apply (defined_readByte (by omega)).bind
          intro b1 _
          refine Defined.ite (fun _ => defined_failErrc _) fun _ => ?_
          exact ih _ (by omega) _ _ rfl

theorem defined_responseBody {lineBegin : ℕ} (h : lineBegin ≤ response.length)
    (framing : Framing) : Defined (responseBody response lineBegin framing) := by
  refine Defined.ite (fun _ => ?_) fun _ => ?_
  · exact Defined.ite (fun _ => defined_failErrc _) fun _ => defined_chunkLoop _ _
  · refine Defined.ite (fun _ => defined_failErrc _) fun _ => ?_
    exact defined_slice (by omega)

theorem defined_messageLoop (messageBegin : ℕ) : Defined (messageLoop response messageBegin) := by
  induction hn : response.length - messageBegin using Nat.strongRecOn
    generalizing messageBegin with
  | ind n ih =>
    rw [messageLoop]
    apply (defined_findCrlf _).bind
    intro found _
    cases found with
    | none => exact defined_failErrc _
    | some statusEnd =>
      have hle := statusEnd.le
      have hlt := statusEnd.lt
      apply (defined_line statusEnd).bind
      intro statusLine _
      apply (defined_parseStatus _).bind
      intro status _
      apply (defined_headerLoop _ _).bind
      intro (framing, stop) _
      have hstop := stop.lt
      refine Defined.ite (fun _ => ?_) fun _ => ?_
      · refine Defined.ite (fun _ => defined_failErrc _) fun _ => ?_
        refine Defined.ite (fun _ => defined_failErrc _) fun _ => ?_
        exact ih _ (by omega) _ rfl
      · cases statusError status with
        | none => exact defined_responseBody stop.le framing
        | some e => exact defined_failErrc _

/-- Every access of the parser lies inside the response. -/
theorem defined_parseHttpIppResponse (response : List UInt8) :
    Defined (parseHttpIppResponse response) := defined_messageLoop 0

end Bounds

end Syscape.Http
