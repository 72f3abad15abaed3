import Syscape.HttpRendering

/-!
# The framing of a response does not matter

Whatever way a body is split into chunks and whatever interim responses come before, the
parser returns the body, as it does for the body behind a head that declares its length.
-/
namespace Syscape.Http
open Checked Text FromChars Printer

section Declarations
variable {fields : List HeaderField} {n : ℕ}

/-- Fields that declare no length but `n` declare it when there is such a field. -/
theorem applyFields_length (hmax : n ≤ sizeMax)
    (hfields : ∀ f ∈ fields, f.IsOther ∨ f.IsLength n) {framing : Framing}
    (hbefore : framing.contentLength = none ∨ framing.contentLength = some n) :
    ∃ c, applyFields fields framing = .ok ⟨framing.chunked, c⟩ ∧ (c = none ∨ c = some n) ∧
      ((framing.contentLength = some n ∨ ∃ f ∈ fields, f.IsLength n) → c = some n) := by
  induction fields generalizing framing with
  | nil => exact ⟨framing.contentLength, rfl, hbefore, by simp⟩
  | cons f fields ih =>
    have htail : ∀ f ∈ fields, f.IsOther ∨ f.IsLength n := fun f hf => hfields f (by simp [hf])
    rw [applyFields_cons]
    rcases hfields f (by simp) with hf | hf
    · obtain ⟨c, happly, hc, hdeclared⟩ := ih htail hbefore
      refine ⟨c, by rw [applyField_other hf, ok_bind, happly], hc, ?_⟩
      intro h
      apply hdeclared
      rcases h with h | ⟨g, hg, hlength⟩
      · exact .inl h
      · rcases List.mem_cons.mp hg with rfl | hg
        · exact absurd hlength.1 hf.1
        · exact .inr ⟨g, hg, hlength⟩
    · obtain ⟨c, happly, hc, hdeclared⟩ := @ih htail { framing with contentLength := some n }
        (.inr rfl)
      refine ⟨c, ?_, hc, fun _ => hdeclared (.inl rfl)⟩
      rw [applyField_length hf, if_pos ⟨hmax, hbefore⟩, ok_bind, happly]

/-- A length that does not fit is an error. -/
theorem applyFields_large (hmax : sizeMax < n)
    (hfields : ∀ f ∈ fields, f.IsOther ∨ f.IsLength n) (hdeclared : ∃ f ∈ fields, f.IsLength n)
    (framing : Framing) : applyFields fields framing = fail .malformedData := by
  induction fields with
  | nil => simp at hdeclared
  | cons f fields ih =>
    rw [applyFields_cons]
    rcases hfields f (by simp) with hf | hf
    · have htail : ∃ g ∈ fields, g.IsLength n := by
        obtain ⟨g, hg, hlength⟩ := hdeclared
        rcases List.mem_cons.mp hg with rfl | hg
        · exact absurd hlength.1 hf.1
        · exact ⟨g, hg, hlength⟩
      rw [applyField_other hf, ok_bind, ih (fun f hf => hfields f (by simp [hf])) htail]
    · rw [applyField_length hf, if_neg (by omega), fail_bind]

/-- Fields that declare nothing but chunks declare them when there is such a field. -/
theorem applyFields_chunked (hfields : ∀ f ∈ fields, f.IsOther ∨ f.IsChunked) (chunked : Bool)
    (hdeclared : chunked = true ∨ ∃ f ∈ fields, f.IsChunked) :
    applyFields fields ⟨chunked, none⟩ = .ok ⟨true, none⟩ := by
  induction fields generalizing chunked with
  | nil =>
    obtain rfl : chunked = true := by simpa using hdeclared
    rfl
  | cons f fields ih =>
    have htail : ∀ f ∈ fields, f.IsOther ∨ f.IsChunked := fun f hf => hfields f (by simp [hf])
    rw [applyFields_cons]
    rcases hfields f (by simp) with hf | hf
    · rw [applyField_other hf, ok_bind]
      apply ih htail
      rcases hdeclared with h | ⟨g, hg, hchunked⟩
      · exact .inl h
      · rcases List.mem_cons.mp hg with rfl | hg
        · exact absurd hchunked.1 hf.2
        · exact .inr ⟨g, hg, hchunked⟩
    · rw [applyField_chunked hf, ok_bind]
      exact ih htail true (.inl rfl)

end Declarations

section Heads
variable {response : List UInt8}

/-- The head of an interim response, which has no body. -/
structure InterimHead extends Head where
  status_lt : statusLine.status < 200
  no_body : ∀ f ∈ fields, f.IsOther ∨ f.IsLength 0

/-- The head of a response with chunks. -/
structure ChunkedHead extends Head where
  status_ge : 200 ≤ statusLine.status
  status_lt : statusLine.status < 300
  only_chunked : ∀ f ∈ fields, f.IsOther ∨ f.IsChunked
  chunked : ∃ f ∈ fields, f.IsChunked

/-- The head of a response with a body of declared length. -/
structure LengthHead (n : ℕ) extends Head where
  status_ge : 200 ≤ statusLine.status
  status_lt : statusLine.status < 300
  only_length : ∀ f ∈ fields, f.IsOther ∨ f.IsLength n
  length : ∃ f ∈ fields, f.IsLength n

/-- Interim responses are passed over. -/
theorem messageLoop_interims (interims : List InterimHead) {pre rest : List UInt8} {i : ℕ}
    (hi : i = pre.length)
    (hresponse : response = pre ++ interims.flatMap (·.bytes) ++ rest) (hrest : rest ≠ []) :
    messageLoop response i = messageLoop response (i + (interims.flatMap (·.bytes)).length) := by
  induction interims generalizing pre i with
  | nil => rfl
  | cons h interims ih =>
    have hhead : response = pre ++ h.bytes ++ (interims.flatMap (·.bytes) ++ rest) := by
      rw [hresponse]
      simp
    have hmore : ¬ i + h.bytes.length ≥ response.length := by
      have hpos := List.length_pos_iff.mpr hrest
      rw [hhead, hi, List.length_append, List.length_append, List.length_append]
      omega
    obtain ⟨c, hfields, hc, -⟩ := @applyFields_length h.fields 0 (by decide) h.no_body
      ⟨false, none⟩ (.inl rfl)
    have hno : ¬ ((⟨false, c⟩ : Framing).chunked = true ∨ c.any (· ≠ 0) = true) := by
      rcases hc with rfl | rfl <;> simp
    have hnext := @ih (pre ++ h.bytes) (i + h.bytes.length) (by simp [hi]) (by rw [hhead]; simp)
    rw [messageLoop_head h.toHead hi hhead, hfields, ok_bind,
      if_pos ⟨h.statusLine.status_ge, h.status_lt⟩, if_neg hno, if_neg hmore, hnext]
    congr 1
    simp
    omega

lemma statusError_final {status : ℕ} (hge : 200 ≤ status) (hlt : status < 300) :
    statusError status = none := by
  unfold statusError
  repeat rw [if_neg (by omega)]

/-- The head of a final response hands over to its body. -/
theorem messageLoop_final (h : Head) (hge : 200 ≤ h.statusLine.status)
    (hlt : h.statusLine.status < 300) {pre rest : List UInt8} {i : ℕ} (hi : i = pre.length)
    (hresponse : response = pre ++ h.bytes ++ rest) :
    messageLoop response i = applyFields h.fields ⟨false, none⟩ >>=
      responseBody response (i + h.bytes.length) := by
  rw [messageLoop_head h hi hresponse]
  congr 1
  funext framing
  rw [if_neg (by omega), statusError_final hge hlt]

end Heads

section Chunks

/-- The first line of a chunk: a hexadecimal size, blanks around it, maybe an extension. -/
structure ChunkLine (n : ℕ) where
  front : List UInt8
  front_blank : ∀ c ∈ front, isBlank c = true
  size : List UInt8
  numeral : Numeral 16 n size
  gap : List UInt8
  gap_blank : ∀ c ∈ gap, isBlank c = true
  extension : List UInt8
  extension_semicolon : ∀ c ∈ extension.head?, c = 0x3B
  no_crlf : NoCrlf (front ++ size ++ gap ++ extension)

def ChunkLine.line {n : ℕ} (l : ChunkLine n) : List UInt8 :=
  l.front ++ l.size ++ l.gap ++ l.extension

theorem ChunkLine.noCrlf_line {n : ℕ} (l : ChunkLine n) : NoCrlf l.line := l.no_crlf

theorem chunkSize_line {n : ℕ} (l : ChunkLine n) :
    chunkSize l.line = if n ≤ sizeMax then some n else none := by
  have hparse := parseInt_numeral l.numeral (by omega) sizeMax
  have hsemicolon : 0x3B ∉ l.size := by
    intro h
    have halpha := l.numeral.alphanumeric (by omega) h
    simp at halpha
  unfold chunkSize
  cases hext : l.extension with
  | nil =>
    have htrim : trimWhitespace l.line = l.size := by
      rw [ChunkLine.line, hext, List.append_nil]
      exact trimWhitespace_numeral l.numeral (by omega) l.front_blank l.gap_blank
    have hnone : findByte 0x3B l.size = none := findByte_eq_none.mpr hsemicolon
    simp only [htrim, hnone, hparse]
  | cons c more =>
    obtain rfl : c = 0x3B := l.extension_semicolon c (by simp [hext])
    -- blanks at the end of the extension are trimmed, and no more
    obtain ⟨core, back, hmore, hback, hcore⟩ := exists_trimmed isBlank (0x3B :: more)
    obtain ⟨core, rfl⟩ : ∃ core', core = 0x3B :: core' := by
      cases core with
      | nil =>
        rw [List.nil_append] at hmore
        have hblank := hback 0x3B (by simp [← hmore])
        exact absurd hblank (by decide)
      | cons d core =>
        obtain ⟨rfl, -⟩ := List.cons.inj hmore
        exact ⟨core, rfl⟩
    have htrim : trimWhitespace l.line = (l.size ++ l.gap) ++ 0x3B :: core := by
      have hline : l.line = l.front ++ ((l.size ++ l.gap) ++ 0x3B :: core) ++ back := by
        rw [ChunkLine.line, hext, hmore]
        simp
      rw [hline]
      apply trim_blanks l.front_blank hback
      · obtain ⟨d, size, hsize⟩ := List.exists_cons_of_ne_nil l.numeral.ne_nil
        intro c hc
        obtain rfl : d = c := by simpa [hsize] using hc
        exact isBlank_numeral l.numeral (by omega) (by simp [hsize])
      · intro c hc
        apply hcore c
        simpa using hc
    have hgap : 0x3B ∉ l.size ++ l.gap := by
      intro h
      rcases List.mem_append.mp h with h | h
      · exact hsemicolon h
      · exact absurd (l.gap_blank _ h) (by decide)
    have htrim' : trimWhitespace (l.size ++ l.gap) = l.size :=
      @trimWhitespace_numeral _ _ _ l.numeral (by omega) [] l.gap (by simp) l.gap_blank
    simp only [htrim, findByte_append hgap, List.take_left, htrim', hparse]

/-- A chunk, which is not empty. -/
structure Chunk where
  data : List UInt8
  data_ne : data ≠ []
  size : ChunkLine data.length

def Chunk.bytes (c : Chunk) : List UInt8 := c.size.line ++ crlf ++ c.data ++ crlf

/-- A trailer field. -/
structure Trailer where
  line : List UInt8
  no_crlf : NoCrlf line
  colon : 0x3A ∈ line

/-- A body in chunks, and how it ends. The body fits into memory. -/
structure ChunkedBody where
  chunks : List Chunk
  payload_le : (chunks.flatMap (·.data)).length ≤ sizeMax
  last : ChunkLine 0
  trailers : List Trailer

namespace ChunkedBody

def payload (b : ChunkedBody) : List UInt8 := b.chunks.flatMap (·.data)

def bytes (b : ChunkedBody) : List UInt8 :=
  b.chunks.flatMap Chunk.bytes ++ b.last.line ++ crlf ++
    b.trailers.flatMap (fun t => t.line ++ crlf) ++ crlf

end ChunkedBody

/-- Every partition of a body into chunks can be written. -/
theorem exists_chunkedBody (parts : List (List UInt8)) (hne : ∀ p ∈ parts, p ≠ [])
    (hmax : parts.flatten.length ≤ sizeMax) :
    ∃ b : ChunkedBody, b.chunks.map (·.data) = parts ∧ b.payload = parts.flatten := by
  have hline : ∀ n, Nonempty (ChunkLine n) := by
    intro n
    obtain ⟨size, hsize⟩ := exists_numeral (show 1 < 16 by omega) (by omega) n
    have hcr : NoCrlf size := by
      intro h
      have halpha := hsize.alphanumeric (by omega) (h.subset (show 0x0D ∈ crlf by decide))
      simp at halpha
    exact ⟨⟨[], by simp, size, hsize, [], by simp, [], by simp, by simpa using hcr⟩⟩
  have hchunks : ∃ chunks : List Chunk, chunks.map (·.data) = parts := by
    induction parts with
    | nil => exact ⟨[], rfl⟩
    | cons p parts ih =>
      obtain ⟨chunks, hchunks⟩ := ih (fun p hp => hne p (by simp [hp]))
        (by rw [List.flatten_cons, List.length_append] at hmax; omega)
      obtain ⟨size⟩ := hline p.length
      exact ⟨⟨p, hne p (by simp), size⟩ :: chunks, by simp [hchunks]⟩
  obtain ⟨chunks, rfl⟩ := hchunks
  obtain ⟨last⟩ := hline 0
  exact ⟨⟨chunks, by simpa [List.flatMap] using hmax, last, []⟩, rfl, rfl⟩

variable {response : List UInt8}

/-- The loop over the trailers reads every trailer, and stops behind the empty line. -/
theorem trailerLoop_trailers (trailers : List Trailer) {pre rest : List UInt8} {i : ℕ}
    (hi : i = pre.length)
    (hresponse : response =
      pre ++ trailers.flatMap (fun t => t.line ++ crlf) ++ crlf ++ rest)
    (stop : Behind response i)
    (hstop : stop.index = i + (trailers.flatMap fun t => t.line ++ crlf).length + 2) :
    trailerLoop response i = .ok stop := by
  induction trailers generalizing pre i with
  | nil =>
    obtain ⟨e, he, hindex⟩ := @findCrlf_line response [] (by decide) _ _ _ hi hresponse
    obtain ⟨index, hlt, hle⟩ := stop
    obtain rfl : index = i + 2 := hstop
    rw [trailerLoop, he, ok_bind]
    exact dif_pos hindex
  | cons t trailers ih =>
    have hline : response = pre ++ t.line ++ crlf ++
        (trailers.flatMap (fun t => t.line ++ crlf) ++ crlf ++ rest) := by
      rw [hresponse]
      simp
    have hnext : response = (pre ++ t.line ++ crlf) ++
        trailers.flatMap (fun t => t.line ++ crlf) ++ crlf ++ rest := by
      rw [hline]
      simp
    obtain ⟨e, he, hindex⟩ := findCrlf_line t.no_crlf hi hline
    have hslice := slice_line hi hline hindex
    have hne : ¬ e.index = i := by
      have hpos : 0 < t.line.length := List.length_pos_of_mem t.colon
      omega
    have hi' : e.index + 2 = (pre ++ t.line ++ crlf).length := by
      rw [hindex, hi]
      simp [crlf]
      omega
    have hstop' : stop.index =
        e.index + 2 + (trailers.flatMap fun t => t.line ++ crlf).length + 2 := by
      rw [hstop, hindex]
      simp [crlf]
      omega
    have hrest := ih hi' hnext ⟨stop.index, by omega, stop.le⟩ hstop'
    obtain ⟨colon, hcolon⟩ : ∃ colon, findByte 0x3A t.line = some colon := by
      apply Option.ne_none_iff_exists'.mp
      intro hnone
      exact findByte_eq_none.mp hnone t.colon
    rw [trailerLoop, he, ok_bind]
    dsimp only
    rw [dif_neg hne, hslice, ok_bind, hcolon]
    dsimp only
    rw [hrest, ok_bind]

/-- A chunk is decoded, and the loop goes on behind it. -/
theorem chunkLoop_chunk (c : Chunk) (hmax : c.data.length ≤ sizeMax) {pre rest : List UInt8}
    {i : ℕ} (hi : i = pre.length) (hresponse : response = pre ++ c.bytes ++ rest)
    (decoded : List UInt8) :
    chunkLoop response i decoded =
      chunkLoop response (i + c.bytes.length) (decoded ++ c.data) := by
  have hline : response = pre ++ c.size.line ++ crlf ++ (c.data ++ crlf ++ rest) := by
    rw [hresponse]
    simp [Chunk.bytes]
  have hdata : response = (pre ++ c.size.line ++ crlf) ++ c.data ++ (crlf ++ rest) := by
    rw [hline]
    simp
  have hclose : response = (pre ++ c.size.line ++ crlf ++ c.data) ++ 0x0D :: 0x0A :: rest := by
    rw [hdata]
    simp [crlf]
  obtain ⟨e, he, hindex⟩ := findCrlf_line c.size.noCrlf_line hi hline
  have hslice := slice_line hi hline hindex
  have hbegin : e.index + 2 = (pre ++ c.size.line ++ crlf).length := by
    rw [hindex, hi]
    simp [crlf]
    omega
  have hend : e.index + 2 + c.data.length = (pre ++ c.size.line ++ crlf ++ c.data).length := by
    rw [hbegin]
    simp [Nat.add_assoc]
  have hlen : response.length = e.index + 2 + c.data.length + 2 + rest.length := by
    rw [hend, hclose]
    simp
    omega
  have hdata' : (slice response (e.index + 2) c.data.length : Result (List UInt8)) =
      .ok c.data := by
    rw [hbegin, hdata]
    exact slice_append _ c.data _
  have h0 : (readByte response (e.index + 2 + c.data.length) : Result ℕ) = .ok 0x0D := by
    rw [hend, hclose, readByte_append_length]
    rfl
  have h1 : (readByte response (e.index + 2 + c.data.length + 1) : Result ℕ) = .ok 0x0A := by
    rw [hend, hclose, readByte_append_right]
    rfl
  have hpos : ¬ c.data.length = 0 := by simpa using c.data_ne
  have hnext : e.index + 2 + c.data.length + 2 = i + c.bytes.length := by
    rw [hindex]
    simp [Chunk.bytes, crlf]
    omega
  rw [chunkLoop, he, ok_bind]
  dsimp only
  rw [hslice, ok_bind, chunkSize_line, if_pos hmax]
  dsimp only
  rw [if_neg hpos, dif_neg (by omega), hdata', ok_bind, h0, ok_bind, h1, ok_bind,
    if_neg (by simp), hnext]

theorem chunkLoop_chunks (chunks : List Chunk) (hmax : ∀ c ∈ chunks, c.data.length ≤ sizeMax)
    {pre rest : List UInt8} {i : ℕ} (hi : i = pre.length)
    (hresponse : response = pre ++ chunks.flatMap Chunk.bytes ++ rest) (decoded : List UInt8) :
    chunkLoop response i decoded =
      chunkLoop response (i + (chunks.flatMap Chunk.bytes).length)
        (decoded ++ chunks.flatMap (·.data)) := by
  induction chunks generalizing pre i decoded with
  | nil => simp
  | cons c chunks ih =>
    have hchunk : response = pre ++ c.bytes ++ (chunks.flatMap Chunk.bytes ++ rest) := by
      rw [hresponse]
      simp
    have hnext := @ih (fun c hc => hmax c (by simp [hc])) (pre ++ c.bytes) (i + c.bytes.length)
      (by simp [hi]) (by rw [hchunk]; simp) (decoded ++ c.data)
    rw [chunkLoop_chunk c (hmax c (by simp)) hi hchunk, hnext]
    simp [Nat.add_assoc]

/-- The last chunk and its trailers have to be the end of the response. -/
theorem chunkLoop_last (last : ChunkLine 0) (trailers : List Trailer) {pre rest : List UInt8}
    {i : ℕ} (hi : i = pre.length)
    (hresponse : response =
      pre ++ last.line ++ crlf ++ trailers.flatMap (fun t => t.line ++ crlf) ++ crlf ++ rest)
    (decoded : List UInt8) :
    chunkLoop response i decoded = if rest = [] then .ok decoded else fail .malformedData := by
  have hline : response = pre ++ last.line ++ crlf ++
      (trailers.flatMap (fun t => t.line ++ crlf) ++ crlf ++ rest) := by
    rw [hresponse]
    simp
  obtain ⟨e, he, hindex⟩ := findCrlf_line last.noCrlf_line hi hline
  have hslice := slice_line hi hline hindex
  have hbegin : e.index + 2 = (pre ++ last.line ++ crlf).length := by
    rw [hindex, hi]
    simp [crlf]
    omega
  have hlen : response.length =
      e.index + 2 + (trailers.flatMap fun t => t.line ++ crlf).length + 2 + rest.length := by
    rw [hbegin, hresponse]
    simp [crlf]
    omega
  have htrailers := trailerLoop_trailers trailers hbegin hresponse
    ⟨e.index + 2 + (trailers.flatMap fun t => t.line ++ crlf).length + 2, by omega, by omega⟩ rfl
  rw [chunkLoop, he, ok_bind]
  dsimp only
  rw [hslice, ok_bind, chunkSize_line, if_pos (Nat.zero_le _)]
  dsimp only
  rw [if_pos rfl, htrailers, ok_bind]
  dsimp only
  by_cases hrest : rest = []
  · have hzero : rest.length = 0 := by simp [hrest]
    rw [if_neg (by omega), if_pos hrest]
  · have hpos := List.length_pos_iff.mpr hrest
    rw [if_pos (by omega), if_neg hrest]

theorem chunkLoop_body (b : ChunkedBody) {pre rest : List UInt8} {i : ℕ} (hi : i = pre.length)
    (hresponse : response = pre ++ b.bytes ++ rest) :
    chunkLoop response i [] = if rest = [] then .ok b.payload else fail .malformedData := by
  have hmax : ∀ c ∈ b.chunks, c.data.length ≤ sizeMax := by
    intro c hc
    have hsub : c.data.Sublist b.payload := List.sublist_flatten_of_mem (List.mem_map_of_mem hc)
    exact hsub.length_le.trans b.payload_le
  have hchunks : response = pre ++ b.chunks.flatMap Chunk.bytes ++ (b.last.line ++ crlf ++
      b.trailers.flatMap (fun t => t.line ++ crlf) ++ crlf ++ rest) := by
    rw [hresponse]
    simp [ChunkedBody.bytes]
  have hlast : response = (pre ++ b.chunks.flatMap Chunk.bytes) ++ b.last.line ++ crlf ++
      b.trailers.flatMap (fun t => t.line ++ crlf) ++ crlf ++ rest := by
    rw [hchunks]
    simp
  rw [chunkLoop_chunks b.chunks hmax hi hchunks, List.nil_append]
  exact chunkLoop_last b.last b.trailers (by rw [hi, List.length_append]) hlast _

end Chunks

section Responses

/-- A response with a chunked body. -/
def chunkedResponse (interims : List InterimHead) (head : ChunkedHead) (b : ChunkedBody) :
    List UInt8 := interims.flatMap (·.bytes) ++ head.bytes ++ b.bytes

/-- A response whose head declares a length, with some body. -/
def lengthResponse {n : ℕ} (interims : List InterimHead) (head : LengthHead n)
    (body : List UInt8) : List UInt8 := interims.flatMap (·.bytes) ++ head.bytes ++ body

lemma Head.bytes_ne (h : Head) : h.bytes ≠ [] := by simp [Head.bytes, crlf]

theorem parse_final (interims : List InterimHead) (h : Head) (hge : 200 ≤ h.statusLine.status)
    (hlt : h.statusLine.status < 300) (body : List UInt8) :
    parseHttpIppResponse (interims.flatMap (·.bytes) ++ h.bytes ++ body) =
      applyFields h.fields ⟨false, none⟩ >>=
        responseBody (interims.flatMap (·.bytes) ++ h.bytes ++ body)
          (interims.flatMap (·.bytes) ++ h.bytes).length := by
  have hne : h.bytes ++ body ≠ [] := by simp [h.bytes_ne]
  have hinterims := @messageLoop_interims (interims.flatMap (·.bytes) ++ h.bytes ++ body) interims
    [] (h.bytes ++ body) 0 rfl (by simp) hne
  have hfinal := @messageLoop_final (interims.flatMap (·.bytes) ++ h.bytes ++ body) h hge hlt
    (interims.flatMap (·.bytes)) body _ (Nat.zero_add _) rfl
  rw [parseHttpIppResponse, hinterims, hfinal, Nat.zero_add, List.length_append]

/-- A response in chunks gives their payload, if nothing is behind it. -/
theorem parse_chunkedResponse (interims : List InterimHead) (head : ChunkedHead)
    (b : ChunkedBody) (extra : List UInt8) :
    parseHttpIppResponse (chunkedResponse interims head b ++ extra) =
      if extra = [] then .ok b.payload else fail .malformedData := by
  have hfields := applyFields_chunked head.only_chunked false (.inr head.chunked)
  have hfinal := parse_final interims head.toHead head.status_ge head.status_lt (b.bytes ++ extra)
  rw [hfields, ok_bind, ← List.append_assoc] at hfinal
  rw [chunkedResponse, hfinal]
  exact chunkLoop_body b rfl rfl

/-- A response with a declared length gives the body, if it has that length. -/
theorem parse_lengthResponse {n : ℕ} (hmax : n ≤ sizeMax) (interims : List InterimHead)
    (head : LengthHead n) (body : List UInt8) :
    parseHttpIppResponse (lengthResponse interims head body) =
      if body.length = n then .ok body else fail .malformedData := by
  obtain ⟨c, hfields, -, hdeclared⟩ := @applyFields_length head.fields n hmax head.only_length
    ⟨false, none⟩ (.inl rfl)
  obtain rfl := hdeclared (.inr head.length)
  rw [lengthResponse, parse_final interims head.toHead head.status_ge head.status_lt, hfields,
    ok_bind, responseBody, if_neg (by simp)]
  have havailable : (interims.flatMap (·.bytes) ++ head.bytes ++ body).length -
      (interims.flatMap (·.bytes) ++ head.bytes).length = body.length := by
    rw [List.length_append, Nat.add_sub_cancel_left]
  have hslice := slice_append (ε := ErrorCode) (interims.flatMap (·.bytes) ++ head.bytes) body []
  dsimp only
  rw [havailable]
  by_cases hn : body.length = n
  · rw [if_neg (by simp [hn]), if_pos hn]
    simpa using hslice
  · rw [if_pos (by simpa using hn), if_neg hn]

/-- A declared length that does not fit is rejected with every body. -/
theorem parse_lengthResponse_large {n : ℕ} (hmax : sizeMax < n) (interims : List InterimHead)
    (head : LengthHead n) (body : List UInt8) :
    parseHttpIppResponse (lengthResponse interims head body) = fail .malformedData := by
  rw [lengthResponse, parse_final interims head.toHead head.status_ge head.status_lt,
    applyFields_large hmax head.only_length head.length, fail_bind]

/-- The framing of a response does not matter. A body split into chunks in any way, behind
any interim responses, is what the same body behind a declared length is. Bytes behind the
last chunk are rejected, and so is a body of another length than the declared one. No
response makes the parser leave it. -/
theorem http_framing_transparent (interims interims' : List InterimHead) (head : ChunkedHead)
    (b : ChunkedBody) (head' : LengthHead b.payload.length) :
    parseHttpIppResponse (chunkedResponse interims head b) = .ok b.payload ∧
      parseHttpIppResponse (chunkedResponse interims head b) =
        parseHttpIppResponse (lengthResponse interims' head' b.payload) ∧
      (∀ extra, extra ≠ [] →
        parseHttpIppResponse (chunkedResponse interims head b ++ extra) = fail .malformedData) ∧
      (∀ (n : ℕ) (head : LengthHead n) (body : List UInt8), body.length ≠ n →
        parseHttpIppResponse (lengthResponse interims' head body) = fail .malformedData) ∧
      ∀ response, Defined (parseHttpIppResponse response) := by
  have hchunked : parseHttpIppResponse (chunkedResponse interims head b) = .ok b.payload := by
    have h := parse_chunkedResponse interims head b []
    rwa [List.append_nil, if_pos rfl] at h
  have hlength : parseHttpIppResponse (lengthResponse interims' head' b.payload) =
      .ok b.payload := by
    have hmax : b.payload.length ≤ sizeMax := b.payload_le
    rw [parse_lengthResponse hmax interims' head', if_pos rfl]
  refine ⟨hchunked, by rw [hchunked, hlength], ?_, ?_, defined_parseHttpIppResponse⟩
  · intro extra hextra
    rw [parse_chunkedResponse interims head b extra, if_neg hextra]
  · intro n head body hbody
    by_cases hmax : n ≤ sizeMax
    · rw [parse_lengthResponse hmax interims' head body, if_neg hbody]
    · exact parse_lengthResponse_large (by omega) interims' head body

example : parseHttpIppResponse (ascii "HTTP/1.1 100 Continue" ++ crlf ++ crlf ++
    ascii "HTTP/1.1 200 OK" ++ crlf ++ ascii "transfer-encoding: Chunked" ++ crlf ++ crlf ++
    ascii "02;x" ++ crlf ++ [1, 2] ++ crlf ++ ascii "0" ++ crlf ++ crlf) = .ok [1, 2] := by
  decide +kernel

end Responses

end Syscape.Http
