import Syscape.IppPrinters

/-!
# The IPP parser stays inside the response

For every byte list, every access of the parser lies inside it.
-/
namespace Syscape.Ipp
open Checked Text Printer

section Values
variable {data : List UInt8}

theorem defined_readUint16 (offset : ℕ) : Defined (readUint16 data offset) := by
  refine Defined.ite (fun _ => defined_ok _) fun hlt => ?_
  apply (defined_readByte (by omega)).bind
  intro b0 _
  exact (defined_readByte (by omega)).bind fun _ _ => defined_ok _

theorem defined_readUint32 (offset : ℕ) : Defined (readUint32 data offset) := by
  refine Defined.ite (fun _ => defined_ok _) fun hlt => ?_
  apply (defined_readByte (by omega)).bind
  intro b0 _
  apply (defined_readByte (by omega)).bind
  intro b1 _
  apply (defined_readByte (by omega)).bind
  intro b2 _
  exact (defined_readByte (by omega)).bind fun _ _ => defined_ok _

theorem defined_booleanValue (value : List UInt8) : Defined (booleanValue value) := by
  refine Defined.ite (fun _ => defined_failErrc _) fun hlen => ?_
  apply (defined_readByte (by omega)).bind
  intro b _
  exact Defined.ite (fun _ => defined_failErrc _) fun _ => defined_ok _

theorem defined_wordValue (value : List UInt8) : Defined (wordValue value) := by
  refine Defined.ite (fun _ => defined_failErrc _) fun _ => ?_
  apply (defined_readUint32 0).bind
  intro n _
  cases n with
  | none => exact defined_failErrc _
  | some n => exact defined_ok _

theorem defined_integerValue (value : List UInt8) : Defined (integerValue value) := by
  apply (defined_wordValue value).bind
  intro n _
  exact Defined.ite (fun _ => defined_failErrc _) fun _ => defined_ok _

theorem defined_resolutionValue (value : List UInt8) : Defined (resolutionValue value) := by
  refine Defined.ite (fun _ => defined_failErrc _) fun hlen => ?_
  apply (defined_readUint32 0).bind
  intro xres _
  apply (defined_readUint32 4).bind
  intro yres _
  apply (defined_readByte (by omega)).bind
  intro units _
  cases xres with
  | none => exact defined_failErrc _
  | some x =>
    cases yres with
    | none => exact defined_failErrc _
    | some y => exact Defined.ite (fun _ => defined_ok _) fun _ => defined_failErrc _

theorem defined_copiesValue (value : List UInt8) : Defined (copiesValue value) := by
  refine Defined.ite (fun _ => ?_) fun _ => ?_
  · apply (defined_readUint32 0).bind
    intro maxC _
    cases maxC with
    | none => exact defined_failErrc _
    | some maxC => exact Defined.ite (fun _ => defined_ok _) fun _ => defined_failErrc _
  · refine Defined.ite (fun _ => ?_) fun _ => defined_failErrc _
    apply (defined_readUint32 0).bind
    intro minC _
    apply (defined_readUint32 4).bind
    intro maxC _
    cases minC with
    | none => exact defined_failErrc _
    | some minC =>
      cases maxC with
      | none => exact defined_failErrc _
      | some maxC => exact Defined.ite (fun _ => defined_ok _) fun _ => defined_failErrc _

/-- A value is decoded by one of the readers, and then put into the record. -/
theorem defined_decodeAttribute (name value : List UInt8) (p : PrinterInfo) :
    Defined (decodeAttribute name value p) := by
  have htext : ∀ f : List UInt8 → PrinterInfo,
      Defined (validateUtf8 value >>= fun text => .ok (f text) : Result PrinterInfo) :=
    fun f => (defined_validateUtf8 value).bind fun _ _ => defined_ok _
  have hinteger : ∀ f : ℕ → PrinterInfo,
      Defined (integerValue value >>= fun n => .ok (f n) : Result PrinterInfo) :=
    fun f => (defined_integerValue value).bind fun _ _ => defined_ok _
  have hboolean : ∀ f : Bool → PrinterInfo,
      Defined (booleanValue value >>= fun b => .ok (f b) : Result PrinterInfo) :=
    fun f => (defined_booleanValue value).bind fun _ _ => defined_ok _
  unfold decodeAttribute
  refine Defined.ite (fun _ => htext _) fun _ => ?_
  refine Defined.ite (fun _ => htext _) fun _ => ?_
  refine Defined.ite (fun _ => htext _) fun _ => ?_
  refine Defined.ite (fun _ => htext _) fun _ => ?_
  refine Defined.ite (fun _ => htext _) fun _ => ?_
  refine Defined.ite (fun _ => hinteger _) fun _ => ?_
  refine Defined.ite (fun _ => hboolean _) fun _ => ?_
  refine Defined.ite (fun _ => hboolean _) fun _ => ?_
  refine Defined.ite (fun _ => hinteger _) fun _ => ?_
  refine Defined.ite (fun _ => hboolean _) fun _ => ?_
  refine Defined.ite (fun _ => ?_) fun _ => ?_
  · exact (defined_wordValue value).bind fun _ _ => defined_ok _
  refine Defined.ite (fun _ => htext _) fun _ => ?_
  refine Defined.ite (fun _ => ?_) fun _ => ?_
  · exact (defined_resolutionValue value).bind fun _ _ => defined_ok _
  refine Defined.ite (fun _ => ?_) fun _ => ?_
  · exact (defined_copiesValue value).bind fun _ _ => defined_ok _
  exact Defined.ite (fun _ => htext _) fun _ => defined_ok _

end Values

section Loop
variable {data : List UInt8}

theorem defined_delimiterTag (tag : ℕ) (s : ParserState) : Defined (delimiterTag tag s) := by
  refine Defined.ite (fun _ => ?_) fun _ => defined_failErrc _
  cases if s.inPrinterGroup then finishCurrentPrinter s else some s with
  | none => exact defined_failErrc _
  | some s => exact defined_ok _

theorem defined_readAttribute (pos : ℕ) (currentAttrName : List UInt8) :
    Defined (readAttribute data pos currentAttrName) := by
  apply (defined_readUint16 pos).bind
  intro nameLen _
  cases nameLen with
  | none => exact defined_failErrc _
  | some nameLen =>
    refine Defined.ite (fun _ => defined_failErrc _) fun hname => ?_
    apply Defined.bind
    · refine Defined.ite (fun _ => defined_slice (by omega)) fun _ => ?_
      exact Defined.ite (fun _ => defined_failErrc _) fun _ => defined_ok _
    · intro name _
      apply (defined_readUint16 _).bind
      intro valLen _
      cases valLen with
      | none => exact defined_failErrc _
      | some valLen =>
        refine Defined.dite (fun _ => defined_failErrc _) fun hvalue => ?_
        exact (defined_slice (by omega)).bind fun _ _ => defined_ok _

theorem defined_addAttribute (name value : List UInt8) (s : ParserState) :
    Defined (addAttribute name value s) := by
  refine Defined.ite (fun _ => ?_) fun _ => defined_ok _
  exact (defined_decodeAttribute name value _).bind fun _ _ => defined_ok _

theorem defined_parseLoop (pos : ℕ) (s : ParserState) : Defined (parseLoop data pos s) := by
  induction hn : data.length - pos using Nat.strongRecOn generalizing pos s with
  | ind n ih =>
    rw [parseLoop]
    refine Defined.dite (fun hpos => ?_) fun _ => defined_ok _
    apply (defined_readByte hpos).bind
    intro tag _
    refine Defined.ite (fun _ => defined_ok _) fun _ => ?_
    refine Defined.ite (fun _ => ?_) fun _ => ?_
    · apply (defined_delimiterTag _ _).bind
      intro s' _
      exact ih _ (by omega) _ s' rfl
    · apply (defined_readAttribute _ _).bind
      intro attr _
      have hlt := attr.lt
      apply (defined_addAttribute _ _ _).bind
      intro s' _
      exact ih _ (by omega) _ s' rfl

theorem defined_checkHeader (data : List UInt8) : Defined (checkHeader data) := by
  refine Defined.ite (fun _ => defined_failErrc _) fun hlen => ?_
  apply (defined_readByte (by omega)).bind
  intro b0 _
  apply (defined_readByte (by omega)).bind
  intro b1 _
  refine Defined.ite (fun _ => defined_failErrc _) fun _ => ?_
  apply (defined_readUint32 4).bind
  intro requestId _
  cases requestId with
  | none => exact defined_failErrc _
  | some requestId =>
    refine Defined.ite (fun _ => defined_failErrc _) fun _ => ?_
    apply (defined_readUint16 2).bind
    intro statusCode _
    cases statusCode with
    | none => exact defined_failErrc _
    | some statusCode => exact Defined.ite (fun _ => defined_failErrc _) fun _ => defined_ok _

/-- Every access of the parser lies inside the response. -/
theorem defined_parseIppPrintersResponse (data : List UInt8) :
    Defined (parseIppPrintersResponse data) := by
  apply (defined_checkHeader data).bind
  intro _ _
  apply (defined_parseLoop _ _).bind
  intro (s, pos, sawEndOfAttributes) _
  refine Defined.ite (fun _ => defined_failErrc _) fun _ => ?_
  cases if s.inPrinterGroup then finishCurrentPrinter s else some s with
  | none => exact defined_failErrc _
  | some s => exact defined_ok _

end Loop

end Syscape.Ipp
