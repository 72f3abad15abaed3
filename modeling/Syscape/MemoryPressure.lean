import Syscape.Meminfo
import Syscape.Lib.Numerals
import Syscape.Lib.Paths

/-!
# Memory pressure

`/proc/pressure/memory` has one record for the tasks of which some were stalled and one for
full stalls. A record has four assignments in any order. Lines and assignments of other names
are passed over, so only what is known can be missing.
-/
namespace Syscape.Memory
open Checked Text Lines LastValue Keyed FromChars Numbers Digits Numerals Paths

section Parser

/-- `parse_micro_percent`. -/
def parseMicroPercent (input : List UInt8) : Result UInt64 :=
  let value := trimMemoryField input
  match value.idxOf? 0x2E with
  | none => fail .malformedData
  | some separator =>
    if separator = 0 ∨ separator > 3 ∨ value.length - separator ≠ 3 then fail .malformedData
    else
      match numberOf 10 uint64Max (value.take separator) with
      | none => fail .malformedData
      | some whole =>
        match numberOf 10 uint64Max (value.drop (separator + 1)) with
        | none => fail .malformedData
        | some fraction =>
          let hundredths := UInt64.ofNat whole * 100 + UInt64.ofNat fraction
          if hundredths > 10000 then fail .malformedData else .ok (hundredths * 10000)

/-- The assignments that a record has to have. -/
inductive Assignment where
  | avg10
  | avg60
  | avg300
  | total
  deriving DecidableEq, Repr

def Assignment.name : Assignment → List UInt8
  | avg10 => ascii "avg10"
  | avg60 => ascii "avg60"
  | avg300 => ascii "avg300"
  | total => ascii "total"

/-- The sample of `parse_pressure_sample` with the flags of its fields. -/
structure SampleState where
  average10 : Option UInt64 := none
  average60 : Option UInt64 := none
  average300 : Option UInt64 := none
  total : Option UInt64 := none

def SampleState.get (st : SampleState) : Assignment → Option UInt64
  | .avg10 => st.average10
  | .avg60 => st.average60
  | .avg300 => st.average300
  | .total => st.total

def SampleState.set (st : SampleState) : Assignment → UInt64 → SampleState
  | .avg10, value => { st with average10 := some value }
  | .avg60, value => { st with average60 := some value }
  | .avg300, value => { st with average300 := some value }
  | .total, value => { st with total := some value }

def SampleState.places : Places SampleState Assignment UInt64 where
  get := get
  set := set
  empty := {}
  get_set st a value other := by cases a <;> cases other <;> rfl
  get_empty a := by cases a <;> rfl

/-- The assignment with this name. -/
def assignmentOf (name : List UInt8) : Option Assignment :=
  if name = ascii "avg10" then some .avg10
  else if name = ascii "avg60" then some .avg60
  else if name = ascii "avg300" then some .avg300
  else if name = ascii "total" then some .total
  else none

/-- What a token assigns to. -/
def tokenAssignment (token : List UInt8) : Option Assignment := do
  let assignment ← token.idxOf? 0x3D
  assignmentOf (token.take assignment)

/-- The value that a token assigns. -/
def assignedValue (a : Assignment) (token : List UInt8) : Result UInt64 :=
  let text := token.drop ((token.idxOf? 0x3D).getD 0 + 1)
  if a = .total then parseBareCount text else parseMicroPercent text

/-- `parse_pressure_sample`. -/
def parsePressureSample (body : List UInt8) : Result PressureSample := do
  let st ← (lines 0x20 body).foldlM (step SampleState.places tokenAssignment assignedValue) {}
  match st.average10, st.average60, st.average300, st.total with
  | some average10, some average60, some average300, some total =>
    .ok ⟨average10, average60, average300, total⟩
  | _, _, _, _ => fail .malformedData

/-- The kinds of records. -/
inductive PressureKind where
  | some_
  | full
  deriving DecidableEq, Repr

def PressureKind.text : PressureKind → List UInt8
  | some_ => ascii "some"
  | full => ascii "full"

/-- The snapshot of `parse_memory_pressure` with the flags of its records. -/
structure SnapshotState where
  some_ : Option PressureSample := none
  full : Option PressureSample := none

def SnapshotState.get (st : SnapshotState) : PressureKind → Option PressureSample
  | .some_ => st.some_
  | .full => st.full

def SnapshotState.set (st : SnapshotState) : PressureKind → PressureSample → SnapshotState
  | .some_, sample => { st with some_ := some sample }
  | .full, sample => { st with full := some sample }

def SnapshotState.places : Places SnapshotState PressureKind PressureSample where
  get := get
  set := set
  empty := {}
  get_set st kind sample other := by cases kind <;> cases other <;> rfl
  get_empty kind := by cases kind <;> rfl

/-- The kind with this name. -/
def kindOf (word : List UInt8) : Option PressureKind :=
  if word = ascii "some" then some .some_ else if word = ascii "full" then some .full else none

/-- The kind that stands in front of the first space of a line. -/
def lineKind (line : List UInt8) : Option PressureKind := do
  let separator ← line.idxOf? 0x20
  kindOf (line.take separator)

/-- What stands behind the first space of a line. -/
def lineBody (line : List UInt8) : List UInt8 := line.drop ((line.idxOf? 0x20).getD 0 + 1)

/-- The sample in a line that has a kind. -/
def lineSample (_ : PressureKind) (line : List UInt8) : Result PressureSample :=
  parsePressureSample (lineBody line)

/-- `classify_pressure_line`. -/
def classifyPressureLine (st : SnapshotState) (line : List UInt8) : Result SnapshotState :=
  step SnapshotState.places lineKind lineSample st line

/-- One turn of the loop of `parse_memory_pressure`. -/
def pressureLine (st : SnapshotState) (line : List UInt8) : Result SnapshotState :=
  if trimMemoryField line = [] then .ok st else classifyPressureLine st line

/-- `parse_memory_pressure`. -/
def parseMemoryPressure (input : List UInt8) : Result PressureStatus := do
  let st ← (lines 0x0A input).foldlM pressureLine {}
  match st.some_, st.full with
  | some some_, some full => .ok ⟨some_, true, full⟩
  | _, _ => fail .malformedData

end Parser

section Acceptance

def PressureSample.get (sample : PressureSample) : Assignment → UInt64
  | .avg10 => sample.average10MicroPercent
  | .avg60 => sample.average60MicroPercent
  | .avg300 => sample.average300MicroPercent
  | .total => sample.totalMicroseconds

def PressureStatus.get (status : PressureStatus) : PressureKind → PressureSample
  | .some_ => status.some_
  | .full => status.full

theorem kindOf_eq_some_iff {word : List UInt8} {kind : PressureKind} :
    kindOf word = some kind ↔ word = kind.text := by
  have hne : ascii "full" ≠ ascii "some" := by decide
  unfold kindOf
  cases kind with
  | some_ =>
    split_ifs with h1 h2
    · simp [h1, PressureKind.text]
    · simp [h1, PressureKind.text]
    · simp [h1, PressureKind.text]
  | full =>
    split_ifs with h1 h2
    · simp [h1, PressureKind.text, hne.symm]
    · simp [h2, PressureKind.text]
    · simp [h2, PressureKind.text]

theorem PressureKind.no_space (kind : PressureKind) : (0x20 : UInt8) ∉ kind.text := by
  cases kind <;> decide

/-- A line has a kind if it is the word for it with a space behind. -/
theorem lineKind_eq_some_iff {line : List UInt8} {kind : PressureKind} :
    lineKind line = some kind ↔ ∃ body, line = kind.text ++ 0x20 :: body := by
  constructor
  · intro h
    obtain ⟨separator, hseparator, hkind⟩ := Option.bind_eq_some_iff.mp h
    obtain ⟨word, body, rfl, -, rfl⟩ := exists_of_idxOf?_eq_some hseparator
    rw [List.take_left, kindOf_eq_some_iff] at hkind
    exact ⟨body, by rw [hkind]⟩
  · rintro ⟨body, rfl⟩
    rw [lineKind, idxOf?_append_cons kind.no_space]
    simp [kindOf_eq_some_iff]

theorem lineBody_kind (kind : PressureKind) (body : List UInt8) :
    lineBody (kind.text ++ 0x20 :: body) = body := by
  rw [lineBody, idxOf?_append_cons kind.no_space, Option.getD_some, drop_append_cons]

/-- A blank line is no record anyway. -/
theorem pressureLine_eq (st : SnapshotState) (line : List UInt8) :
    pressureLine st line = step SnapshotState.places lineKind lineSample st line := by
  rw [pressureLine, classifyPressureLine]
  split_ifs with hblank
  · have hnone : lineKind line = none := by
      rw [Option.eq_none_iff_forall_ne_some]
      intro kind hkind
      obtain ⟨body, rfl⟩ := lineKind_eq_some_iff.mp hkind
      have hsolid : ∃ c ∈ kind.text, memorySpace c = false := by
        cases kind with
        | some_ => exact ⟨0x73, by decide, rfl⟩
        | full => exact ⟨0x66, by decide, rfl⟩
      obtain ⟨c, hc, hspace⟩ := hsolid
      exact trim_ne_nil ⟨c, List.mem_append_left _ hc, hspace⟩ hblank
    rw [step, hnone]
  · rfl

/-- A sample is read if all its assignments can be read and none of them is missing. -/
theorem parsePressureSample_eq_ok {body : List UInt8} {sample : PressureSample} :
    parsePressureSample body = .ok sample ↔
      (∀ token ∈ lines 0x20 body, Accepted tokenAssignment assignedValue token) ∧
        ∀ a, lastOf (given tokenAssignment assignedValue a) (lines 0x20 body) =
          some (sample.get a) := by
  rw [parsePressureSample, bind_eq_ok]
  constructor
  · rintro ⟨st, hst, hsample⟩
    refine ⟨exists_run_iff.mp ⟨st, hst⟩, ?_⟩
    intro a
    rw [← get_run hst a]
    split at hsample
    · next h10 h60 h300 htotal =>
      cases hsample
      cases a
      · exact h10
      · exact h60
      · exact h300
      · exact htotal
    · exact absurd hsample (fail_ne_ok _ _)
  · rintro ⟨haccepted, hvalues⟩
    obtain ⟨st, hst⟩ := (@exists_run_iff _ _ _ _ _ _ _ _ SampleState.places _).mpr haccepted
    have hget : ∀ a, st.get a = some (sample.get a) := fun a => (get_run hst a).trans (hvalues a)
    refine ⟨st, hst, ?_⟩
    have h10 : st.average10 = _ := hget .avg10
    have h60 : st.average60 = _ := hget .avg60
    have h300 : st.average300 = _ := hget .avg300
    have htotal : st.total = _ := hget .total
    rw [h10, h60, h300, htotal]
    rfl

/-- A sample is read if all assignments can be read and each of the four is there. -/
theorem exists_parsePressureSample_iff {body : List UInt8} :
    (∃ sample, parsePressureSample body = .ok sample) ↔
      (∀ token ∈ lines 0x20 body, Accepted tokenAssignment assignedValue token) ∧
        ∀ a, ∃ token ∈ lines 0x20 body, tokenAssignment token = some a := by
  simp only [parsePressureSample_eq_ok, exists_and_left]
  refine and_congr_right fun haccepted => ?_
  simp only [← lastOf_given_ne_none haccepted, Option.ne_none_iff_exists']
  constructor
  · rintro ⟨sample, hsample⟩ a
    exact ⟨_, hsample a⟩
  · intro h
    choose value hvalue using h
    refine ⟨⟨value .avg10, value .avg60, value .avg300, value .total⟩, ?_⟩
    intro a
    rw [hvalue a]
    cases a <;> rfl

/-- A snapshot is read if its records can be read and none of them is missing. -/
theorem parseMemoryPressure_eq_ok {text : List UInt8} {status : PressureStatus} :
    parseMemoryPressure text = .ok status ↔
      (∀ line ∈ lines 0x0A text, Accepted lineKind lineSample line) ∧ status.hasFull = true ∧
        ∀ kind, lastOf (given lineKind lineSample kind) (lines 0x0A text) =
          some (status.get kind) := by
  rw [parseMemoryPressure, funext fun st => funext (pressureLine_eq st), bind_eq_ok]
  constructor
  · rintro ⟨st, hst, hstatus⟩
    refine ⟨exists_run_iff.mp ⟨st, hst⟩, ?_⟩
    have hget := get_run hst
    split at hstatus
    · next hsome hfull =>
      cases hstatus
      refine ⟨rfl, ?_⟩
      intro kind
      rw [← hget kind]
      cases kind
      · exact hsome
      · exact hfull
    · exact absurd hstatus (fail_ne_ok _ _)
  · rintro ⟨haccepted, hfull, hvalues⟩
    obtain ⟨st, hst⟩ := (@exists_run_iff _ _ _ _ _ _ _ _ SnapshotState.places _).mpr haccepted
    have hget : ∀ kind, st.get kind = some (status.get kind) :=
      fun kind => (get_run hst kind).trans (hvalues kind)
    refine ⟨st, hst, ?_⟩
    have hsome : st.some_ = _ := hget .some_
    have hfullRecord : st.full = _ := hget .full
    rw [hsome, hfullRecord, ← hfull]
    rfl

theorem exists_parseMemoryPressure_iff {text : List UInt8} :
    (∃ status, parseMemoryPressure text = .ok status) ↔
      (∀ line ∈ lines 0x0A text, Accepted lineKind lineSample line) ∧
        ∀ kind, ∃ line ∈ lines 0x0A text, lineKind line = some kind := by
  simp only [parseMemoryPressure_eq_ok, exists_and_left]
  refine and_congr_right fun haccepted => ?_
  simp only [← lastOf_given_ne_none haccepted, Option.ne_none_iff_exists']
  constructor
  · rintro ⟨status, -, hstatus⟩ kind
    exact ⟨_, hstatus kind⟩
  · intro h
    choose sample hsample using h
    refine ⟨⟨sample .some_, true, sample .full⟩, rfl, ?_⟩
    intro kind
    rw [hsample kind]
    cases kind <;> rfl

end Acceptance

section Records

/-- An average as the kernel prints it, in hundredths of a percent. -/
structure Hundredths where
  value : ℕ
  value_le : value ≤ 10000

/-- The percentage with two digits behind the point. -/
def Hundredths.text (h : Hundredths) : List UInt8 :=
  decimal (h.value / 100) ++ 0x2E :: [asciiDigit (h.value % 100 / 10), asciiDigit (h.value % 10)]

/-- What a record says. -/
structure PressureRecord where
  average10 : Hundredths
  average60 : Hundredths
  average300 : Hundredths
  total : UInt64

/-- The text that is assigned. -/
def PressureRecord.text (r : PressureRecord) : Assignment → List UInt8
  | .avg10 => r.average10.text
  | .avg60 => r.average60.text
  | .avg300 => r.average300.text
  | .total => decimal r.total.toNat

def PressureRecord.token (r : PressureRecord) (a : Assignment) : List UInt8 :=
  a.name ++ 0x3D :: r.text a

/-- An average in millionths of a percent. -/
def Hundredths.microPercent (h : Hundredths) : UInt64 := UInt64.ofNat (h.value * 10000)

def PressureRecord.sample (r : PressureRecord) : PressureSample where
  average10MicroPercent := r.average10.microPercent
  average60MicroPercent := r.average60.microPercent
  average300MicroPercent := r.average300.microPercent
  totalMicroseconds := r.total

theorem memorySpace_eq_false_of_digit {c : UInt8} (h : 0x30 ≤ c.toNat) : memorySpace c = false := by
  have hne : ∀ d : UInt8, d.toNat < 0x30 → c ≠ d := by
    rintro d hd rfl
    omega
  simp [memorySpace, hne 0x20 (by decide), hne 0x09 (by decide), hne 0x0D (by decide),
    hne 0x0A (by decide)]

theorem trimMemoryField_eq_self {text : List UInt8} (h : ∀ c ∈ text, memorySpace c = false) :
    trimMemoryField text = text := by
  rw [trimMemoryField, dropWhile_eq_self h, rdropWhile_eq_self h]

theorem Hundredths.mem_text {h : Hundredths} {c : UInt8} (hc : c ∈ h.text) :
    c = 0x2E ∨ 0x30 ≤ c.toNat ∧ c.toNat ≤ 0x39 := by
  have hdigit : ∀ d < 10, 0x30 ≤ (asciiDigit d).toNat ∧ (asciiDigit d).toNat ≤ 0x39 := by
    intro d hd
    rw [toNat_asciiDigit hd]
    omega
  simp only [text, List.mem_append, List.mem_cons, List.not_mem_nil, or_false] at hc
  rcases hc with hc | rfl | rfl | rfl
  · exact .inr (mem_decimal hc)
  · exact .inl rfl
  · exact .inr (hdigit _ (by omega))
  · exact .inr (hdigit _ (by omega))

/-- The digits behind the point. -/
theorem Hundredths.numeral_fraction (h : Hundredths) :
    Numeral 10 (h.value % 100) [asciiDigit (h.value % 100 / 10), asciiDigit (h.value % 10)] where
  ne_nil := by simp
  digits := by
    intro c hc
    simp only [List.mem_cons, List.not_mem_nil, or_false] at hc
    rcases hc with rfl | rfl
    · rw [digit_asciiDigit (by omega)]
      omega
    · rw [digit_asciiDigit (by omega)]
      omega
  value_eq := by
    simp only [List.map_cons, List.map_nil, value_cons, value_nil,
      digit_asciiDigit (show h.value % 100 / 10 < 10 by omega),
      digit_asciiDigit (show h.value % 10 < 10 by omega)]
    omega

/-- The whole percents and the hundredths put together. -/
theorem Hundredths.sum_eq (h : Hundredths) :
    (UInt64.ofNat (h.value / 100) * 100 + UInt64.ofNat (h.value % 100)) = UInt64.ofNat h.value := by
  have hle := h.value_le
  rw [← UInt64.toNat_inj, UInt64.toNat_add, UInt64.toNat_mul, UInt64.toNat_ofNat',
    UInt64.toNat_ofNat', UInt64.toNat_ofNat', show (100 : UInt64).toNat = 100 from rfl]
  omega

/-- An average is read exactly. -/
theorem parseMicroPercent_text (h : Hundredths) :
    parseMicroPercent h.text = .ok h.microPercent := by
  have hle := h.value_le
  have hsolid : ∀ c ∈ h.text, memorySpace c = false := by
    intro c hc
    rcases Hundredths.mem_text hc with rfl | hdigit
    · rfl
    · exact memorySpace_eq_false_of_digit hdigit.1
  have hpoint : (0x2E : UInt8) ∉ decimal (h.value / 100) := by
    intro hmem
    exact absurd (mem_decimal hmem).1 (by decide)
  have hlength : (decimal (h.value / 100)).length ≤ 3 := length_decimal_le (by decide) (by omega)
  have hpos : 0 < (decimal (h.value / 100)).length :=
    List.length_pos_iff.mpr (decimal_ne_nil _)
  have hwhole : numberOf 10 uint64Max (decimal (h.value / 100)) = some (h.value / 100) :=
    numberOf_numeral (numeral_decimal _) (le_uint64Max (by omega))
  have hfraction := numberOf_numeral h.numeral_fraction (le_uint64Max (by omega))
  have hsmall : ¬ UInt64.ofNat h.value > 10000 := by
    rw [gt_iff_lt, UInt64.lt_iff_toNat_lt, UInt64.toNat_ofNat', not_lt]
    exact (Nat.mod_le _ _).trans hle
  have hscaled : UInt64.ofNat h.value * 10000 = h.microPercent := by
    rw [Hundredths.microPercent, UInt64.ofNat_mul]
    rfl
  rw [parseMicroPercent, trimMemoryField_eq_self hsolid, Hundredths.text, idxOf?_append_cons hpoint]
  simp only [List.take_left, hwhole, drop_append_cons, hfraction, h.sum_eq, if_neg hsmall, hscaled]
  refine if_neg ?_
  simp only [List.length_append, List.length_cons, List.length_nil]
  omega

variable {r : PressureRecord}

theorem assignmentOf_eq_some_iff {name : List UInt8} {a : Assignment} :
    assignmentOf name = some a ↔ name = a.name := by
  constructor
  · intro h
    unfold assignmentOf at h
    split_ifs at h with h1 h2 h3 h4
    · rw [← Option.some.inj h, h1, Assignment.name]
    · rw [← Option.some.inj h, h2, Assignment.name]
    · rw [← Option.some.inj h, h3, Assignment.name]
    · rw [← Option.some.inj h, h4, Assignment.name]
  · rintro rfl
    cases a <;> decide

theorem Assignment.no_equals (a : Assignment) : (0x3D : UInt8) ∉ a.name := by
  cases a <;> decide

theorem tokenAssignment_token (r : PressureRecord) (a : Assignment) :
    tokenAssignment (r.token a) = some a := by
  rw [tokenAssignment, PressureRecord.token, idxOf?_append_cons a.no_equals]
  simp [assignmentOf_eq_some_iff]

theorem parseBareCount_decimal (n : UInt64) : parseBareCount (decimal n.toNat) = .ok n := by
  have hsolid : ∀ c ∈ decimal n.toNat, memorySpace c = false := by
    intro c hc
    exact memorySpace_eq_false_of_digit (mem_decimal hc).1
  have hnumber := numberOf_numeral (numeral_decimal n.toNat) (le_uint64Max n.toNat_lt)
  simp only [parseBareCount, trimMemoryField_eq_self hsolid, hnumber, if_neg (decimal_ne_nil _),
    UInt64.ofNat_toNat]

/-- Each assignment of a record is read exactly. -/
theorem assignedValue_token (r : PressureRecord) (a : Assignment) :
    assignedValue a (r.token a) = .ok (r.sample.get a) := by
  rw [assignedValue, PressureRecord.token, idxOf?_append_cons a.no_equals, Option.getD_some,
    drop_append_cons]
  cases a
  · exact parseMicroPercent_text r.average10
  · exact parseMicroPercent_text r.average60
  · exact parseMicroPercent_text r.average300
  · exact parseBareCount_decimal r.total

/-- All assignments. -/
def assignments : List Assignment := [.avg10, .avg60, .avg300, .total]

theorem given_token (r : PressureRecord) (a b : Assignment) :
    given tokenAssignment assignedValue a (r.token b) =
      if b = a then some (r.sample.get a) else none := by
  rw [given, tokenAssignment_token]
  by_cases h : b = a
  · subst h
    simp [assignedValue_token, Except.toOption]
  · simp [h]

/-- The tokens of a record: its four assignments in any order, among tokens of other names. -/
structure WrittenTokens (r : PressureRecord) (tokens : List (List UInt8)) : Prop where
  solid : ∀ token ∈ tokens, 0x20 ∉ token ∧ 0x0A ∉ token
  assigned : (tokens.filter fun token => (tokenAssignment token).isSome).Perm
    (assignments.map r.token)

/-- A record is read exactly. -/
theorem parsePressureSample_written {tokens : List (List UInt8)} (h : WrittenTokens r tokens) :
    parsePressureSample ([0x20].intercalate tokens) = .ok r.sample := by
  have hfilter : (lines 0x20 ([0x20].intercalate tokens)).filter
      (fun token => (tokenAssignment token).isSome) =
      tokens.filter fun token => (tokenAssignment token).isSome := by
    have hlines := @filter_lines_written _ _ (0x20 : UInt8)
      (fun token => (tokenAssignment token).isSome) (by rfl) tokens
      (fun token htoken => (h.solid token htoken).1) false
    simpa using hlines
  have hperm := h.assigned
  rw [← hfilter] at hperm
  rw [parsePressureSample_eq_ok]
  constructor
  · intro token htoken a ha
    have hmem : token ∈ assignments.map r.token := by
      rw [← hperm.mem_iff, List.mem_filter]
      exact ⟨htoken, by simp [ha]⟩
    obtain ⟨b, -, rfl⟩ := List.mem_map.mp hmem
    rw [tokenAssignment_token, Option.some.injEq] at ha
    subst ha
    exact ⟨_, assignedValue_token r b⟩
  · intro a
    apply lastOf_given_of_perm hperm
    cases a <;> simp [assignments, given_token]

end Records

section Snapshots

variable {text : List UInt8}

/-- The first word of a line, which may be the whole line. -/
def firstWord (line : List UInt8) : List UInt8 := line.takeWhile (· ≠ 0x20)

/-- The tokens behind the first word. -/
def lineTokens (line : List UInt8) : List (List UInt8) := (line.splitOn 0x20).tail

/-- A line with a record of this kind. -/
def WrittenLine (kind : PressureKind) (r : PressureRecord) (line : List UInt8) : Prop :=
  ∃ tokens, WrittenTokens r tokens ∧ line = kind.text ++ 0x20 :: [0x20].intercalate tokens

/-- A text with one record of each kind, in either order, among lines with other first words,
with or without a last newline. -/
def Snapshot (some_ full : PressureRecord) (text : List UInt8) : Prop :=
  ∃ (pieces : List (List UInt8)) (terminated : Bool) (someLine fullLine : List UInt8),
    WrittenLine .some_ some_ someLine ∧ WrittenLine .full full fullLine ∧
    (∀ line ∈ pieces, 0x0A ∉ line) ∧
    (pieces.filter fun line => (kindOf (firstWord line)).isSome).Perm [someLine, fullLine] ∧
    text = if terminated then pieces.flatMap (· ++ [0x0A]) else [0x0A].intercalate pieces

/-- One of the two records is missing, or a record lacks one of the four assignments. -/
def Incomplete (text : List UInt8) : Prop :=
  (∃ kind, ∀ line ∈ lines 0x0A text, kindOf (firstWord line) ≠ some kind) ∨
    ∃ line ∈ lines 0x0A text, kindOf (firstWord line) ≠ none ∧
      ∃ a, ∀ token ∈ lineTokens line, tokenAssignment token ≠ some a

/-- The parser gets the records of the text. -/
def ReadsExactly (text : List UInt8) : Prop :=
  ∀ some_ full, Snapshot some_ full text →
    parseMemoryPressure text = .ok ⟨some_.sample, true, full.sample⟩

/-- The parser does not fill what is missing. -/
def RefusesIncomplete (text : List UInt8) : Prop :=
  Incomplete text → ∃ e, parseMemoryPressure text = .error e

/-- There is a line of each kind with a space behind its first word, and all assignments in
such a line can be read and none is missing. -/
def Acceptable (text : List UInt8) : Prop :=
  (∀ kind, ∃ line ∈ lines 0x0A text, 0x20 ∈ line ∧ kindOf (firstWord line) = some kind) ∧
    ∀ line ∈ lines 0x0A text, 0x20 ∈ line → kindOf (firstWord line) ≠ none →
      (∀ token ∈ lineTokens line, ∀ a, tokenAssignment token = some a →
        ∃ value, assignedValue a token = .ok value) ∧
      ∀ a, ∃ token ∈ lineTokens line, tokenAssignment token = some a

theorem firstWord_append {word : List UInt8} (h : 0x20 ∉ word) (body : List UInt8) :
    firstWord (word ++ 0x20 :: body) = word := by
  have hall : ∀ c ∈ word, decide (c ≠ 0x20) = true := by
    intro c hc
    simp only [ne_eq, decide_eq_true_eq]
    rintro rfl
    exact h hc
  rw [firstWord, List.takeWhile_append_of_pos hall]
  simp

theorem firstWord_of_not_mem {line : List UInt8} (h : 0x20 ∉ line) : firstWord line = line :=
  takeWhile_of_not_mem h

/-- The parser looks at the first word only where a space follows it. -/
theorem lineKind_eq (line : List UInt8) :
    lineKind line = if 0x20 ∈ line then kindOf (firstWord line) else none := by
  by_cases h : 0x20 ∈ line
  · obtain ⟨word, body, rfl, hword⟩ := List.eq_append_cons_of_mem h
    rw [if_pos h, firstWord_append hword, lineKind, idxOf?_append_cons hword]
    simp
  · rw [if_neg h, lineKind, List.idxOf?_eq_none_iff.mpr h]
    rfl

theorem lineBody_append {word : List UInt8} (h : 0x20 ∉ word) (body : List UInt8) :
    lineBody (word ++ 0x20 :: body) = body := by
  rw [lineBody, idxOf?_append_cons h, Option.getD_some, drop_append_cons]

/-- The tokens that count are the same with and without the last one, if that is empty. -/
theorem filter_lineTokens {line : List UInt8} (h : 0x20 ∈ line) :
    (lines 0x20 (lineBody line)).filter (fun token => (tokenAssignment token).isSome) =
      (lineTokens line).filter fun token => (tokenAssignment token).isSome := by
  obtain ⟨word, body, rfl, hword⟩ := List.eq_append_cons_of_mem h
  rw [lineBody_append hword, lineTokens, List.splitOn_append_cons_self,
    List.splitOn_eq_singleton hword, List.singleton_append, List.tail_cons,
    filter_lines (by rfl)]

/-- A token that assigns is one of the line in both readings. -/
theorem mem_lines_lineBody_iff {line token : List UInt8} (h : 0x20 ∈ line) {a : Assignment}
    (ha : tokenAssignment token = some a) :
    token ∈ lines 0x20 (lineBody line) ↔ token ∈ lineTokens line := by
  have hmem := congrArg (token ∈ ·) (filter_lineTokens h)
  simpa [ha] using hmem

/-- A line with a kind is read if its tokens are complete. -/
theorem accepted_line_iff {line : List UInt8} (h : 0x20 ∈ line) {kind : PressureKind}
    (hkind : kindOf (firstWord line) = some kind) :
    Accepted lineKind lineSample line ↔
      (∀ token ∈ lineTokens line, ∀ a, tokenAssignment token = some a →
        ∃ value, assignedValue a token = .ok value) ∧
      ∀ a, ∃ token ∈ lineTokens line, tokenAssignment token = some a := by
  have hlineKind : lineKind line = some kind := by rw [lineKind_eq, if_pos h, hkind]
  have haccepted : Accepted lineKind lineSample line ↔
      ∃ sample, parsePressureSample (lineBody line) = .ok sample := by
    simp [Accepted, hlineKind, lineSample]
  rw [haccepted, exists_parsePressureSample_iff]
  constructor
  · rintro ⟨htokens, hall⟩
    refine ⟨?_, ?_⟩
    · intro token htoken a ha
      exact htokens token ((mem_lines_lineBody_iff h ha).mpr htoken) a ha
    · intro a
      obtain ⟨token, htoken, ha⟩ := hall a
      exact ⟨token, (mem_lines_lineBody_iff h ha).mp htoken, ha⟩
  · rintro ⟨htokens, hall⟩
    refine ⟨?_, ?_⟩
    · intro token htoken a ha
      exact htokens token ((mem_lines_lineBody_iff h ha).mp htoken) a ha
    · intro a
      obtain ⟨token, htoken, ha⟩ := hall a
      exact ⟨token, (mem_lines_lineBody_iff h ha).mpr htoken, ha⟩

/-- The texts that the parser accepts. -/
theorem exists_parse_iff_acceptable :
    (∃ status, parseMemoryPressure text = .ok status) ↔ Acceptable text := by
  have hkinds (line : List UInt8) (kind : PressureKind) : lineKind line = some kind ↔
      0x20 ∈ line ∧ kindOf (firstWord line) = some kind := by
    rw [lineKind_eq]
    split_ifs with h <;> simp [h]
  rw [exists_parseMemoryPressure_iff, Acceptable, and_comm]
  simp only [hkinds]
  refine and_congr_right fun _ => forall₂_congr fun line _ => ?_
  by_cases h : 0x20 ∈ line
  · cases hkind : kindOf (firstWord line) with
    | none =>
      have hnone : lineKind line = none := by rw [lineKind_eq, if_pos h, hkind]
      simp [Accepted, hnone]
    | some kind => simp [accepted_line_iff h hkind, h]
  · have hnone : lineKind line = none := by rw [lineKind_eq, if_neg h]
    simp [Accepted, hnone, h]

theorem WrittenLine.lineKind_eq {kind : PressureKind} {r : PressureRecord} {line : List UInt8}
    (h : WrittenLine kind r line) : lineKind line = some kind := by
  obtain ⟨tokens, -, rfl⟩ := h
  exact lineKind_eq_some_iff.mpr ⟨_, rfl⟩

theorem WrittenLine.lineSample_eq {kind : PressureKind} {r : PressureRecord} {line : List UInt8}
    (h : WrittenLine kind r line) : lineSample kind line = .ok r.sample := by
  obtain ⟨tokens, htokens, rfl⟩ := h
  rw [lineSample, lineBody_kind, parsePressureSample_written htokens]

/-- A written record gives its kind a value, and no other kind one. -/
theorem WrittenLine.given_eq {kind : PressureKind} {r : PressureRecord} {line : List UInt8}
    (h : WrittenLine kind r line) (other : PressureKind) :
    given lineKind lineSample other line = if kind = other then some r.sample else none := by
  rw [given, h.lineKind_eq]
  by_cases hother : kind = other
  · subst hother
    rw [if_pos rfl, if_pos rfl, h.lineSample_eq]
    rfl
  · rw [if_neg (by simpa using hother), if_neg hother]

/-- A snapshot is read exactly, whatever stands between its records. -/
theorem readsExactly (text : List UInt8) : ReadsExactly text := by
  rintro some_ full ⟨pieces, terminated, someLine, fullLine, hsome, hfull, hpieces, hperm, rfl⟩
  have hkinds : ((lines 0x0A (if terminated then pieces.flatMap (· ++ [0x0A])
      else [0x0A].intercalate pieces)).filter fun line => (lineKind line).isSome).Perm
      [someLine, fullLine] := by
    have hboth : ∀ line, (lineKind line).isSome =
        ((lineKind line).isSome && (kindOf (firstWord line)).isSome) := by
      intro line
      rw [Syscape.Memory.lineKind_eq]
      split_ifs <;> simp
    rw [filter_lines_written (by rfl) hpieces, List.filter_congr fun line _ => hboth line,
      ← List.filter_filter]
    have hfilter := hperm.filter fun line => (lineKind line).isSome
    rwa [List.filter_cons_of_pos (by simp [hsome.lineKind_eq]),
      List.filter_cons_of_pos (by simp [hfull.lineKind_eq]), List.filter_nil] at hfilter
  rw [parseMemoryPressure_eq_ok]
  refine ⟨?_, rfl, ?_⟩
  · intro line hline kind hkind
    have hmem : line ∈ [someLine, fullLine] := by
      rw [← hkinds.mem_iff, List.mem_filter]
      exact ⟨hline, by simp [hkind]⟩
    rw [List.mem_cons, List.mem_singleton] at hmem
    rcases hmem with rfl | rfl
    · exact ⟨_, hsome.lineSample_eq⟩
    · exact ⟨_, hfull.lineSample_eq⟩
  · intro kind
    apply lastOf_given_of_perm hkinds
    cases kind with
    | some_ => simp [hsome.given_eq, hfull.given_eq, PressureStatus.get]
    | full => simp [hsome.given_eq, hfull.given_eq, PressureStatus.get]

/-- Nothing is missing in a text that is accepted, unless the bare name of a kind is a line. -/
theorem not_incomplete {text : List UInt8} (h : Acceptable text)
    (hbare : ∀ line ∈ lines 0x0A text, ∀ kind : PressureKind, line ≠ kind.text) :
    ¬ Incomplete text := by
  rintro (⟨kind, hkind⟩ | ⟨line, hline, hkind, a, hmissing⟩)
  · obtain ⟨line, hline, -, hfirst⟩ := h.1 kind
    exact hkind line hline hfirst
  · have hspace : 0x20 ∈ line := by
      by_contra hnot
      obtain ⟨kind, hsome⟩ := Option.ne_none_iff_exists'.mp hkind
      rw [firstWord_of_not_mem hnot, kindOf_eq_some_iff] at hsome
      exact hbare line hline kind hsome
    obtain ⟨token, htoken, ha⟩ := (h.2 line hline hspace hkind).2 a
    exact hmissing token htoken ha

/-- A line with the bare name of a kind is a record without assignments. -/
theorem incomplete_of_bare {text line : List UInt8} (hline : line ∈ lines 0x0A text)
    {kind : PressureKind} (hbare : line = kind.text) : Incomplete text := by
  subst hbare
  refine .inr ⟨_, hline, ?_, .avg10, ?_⟩
  · rw [firstWord_of_not_mem kind.no_space, kindOf_eq_some_iff.mpr rfl]
    simp
  · rw [lineTokens, List.splitOn_eq_singleton kind.no_space]
    simp

theorem parse_memory_pressure (text : List UInt8) :
    ReadsExactly text ∧ RefusesIncomplete text ↔
      (∀ line ∈ lines 0x0A text, ∀ kind : PressureKind, line ≠ kind.text) ∨ ¬ Acceptable text := by
  have hfails : (∃ e, parseMemoryPressure text = .error e) ↔ ¬ Acceptable text := by
    rw [← exists_parse_iff_acceptable]
    cases parseMemoryPressure text <;> simp
  constructor
  · rintro ⟨-, hrefuses⟩
    by_contra hnot
    rw [not_or, not_not] at hnot
    obtain ⟨hbare, hacceptable⟩ := hnot
    simp only [not_forall, not_not] at hbare
    obtain ⟨line, hline, kind, hkind⟩ := hbare
    exact hfails.mp (hrefuses (incomplete_of_bare hline hkind)) hacceptable
  · intro h
    refine ⟨readsExactly text, ?_⟩
    intro hincomplete
    rw [hfails]
    intro hacceptable
    rcases h with hbare | hnot
    · exact not_incomplete hacceptable hbare hincomplete
    · exact hnot hacceptable

def stalledSome : PressureRecord := ⟨⟨11, by decide⟩, ⟨22, by decide⟩, ⟨10000, by decide⟩, 111⟩

def stalledFull : PressureRecord := ⟨⟨44, by decide⟩, ⟨55, by decide⟩, ⟨66, by decide⟩, 222⟩

def stalledFullLine : List UInt8 :=
  ascii "full avg60=0.55 avg10=0.44 avg30=0.50 avg300=0.66 total=222"

def stalledSomeLine : List UInt8 := ascii "some avg10=0.11 avg60=0.22 avg300=100.00 total=111"

/-- The records and the assignments of one of them in another order, an assignment and a line
that are not known, and no newline at the end. -/
def stalledText : List UInt8 :=
  stalledFullLine ++ ascii "\nidle avg10=1.00\n" ++ stalledSomeLine

theorem snapshot_stalledText : Snapshot stalledSome stalledFull stalledText := by
  refine ⟨[stalledFullLine, ascii "idle avg10=1.00", stalledSomeLine], false, stalledSomeLine,
    stalledFullLine, ?_, ?_, by decide, by decide +kernel, by decide +kernel⟩
  · refine ⟨[ascii "avg10=0.11", ascii "avg60=0.22", ascii "avg300=100.00", ascii "total=111"],
      ⟨by decide +kernel, by decide +kernel⟩, by decide +kernel⟩
  · refine ⟨[ascii "avg60=0.55", ascii "avg10=0.44", ascii "avg30=0.50", ascii "avg300=0.66",
      ascii "total=222"], ⟨by decide +kernel, by decide +kernel⟩, by decide +kernel⟩

/-- A snapshot that is read exactly. -/
theorem parse_memory_pressure_stalled :
    parseMemoryPressure stalledText = .ok ⟨stalledSome.sample, true, stalledFull.sample⟩ ∧
      RefusesIncomplete stalledText := by
  have hbare : ∀ line ∈ lines 0x0A stalledText, line ≠ ascii "some" ∧ line ≠ ascii "full" := by
    decide +kernel
  have hkinds : ∀ line ∈ lines 0x0A stalledText, ∀ kind : PressureKind, line ≠ kind.text := by
    intro line hline kind
    cases kind with
    | some_ => exact (hbare line hline).1
    | full => exact (hbare line hline).2
  obtain ⟨hreads, hrefuses⟩ := (parse_memory_pressure stalledText).mpr (.inl hkinds)
  exact ⟨hreads _ _ snapshot_stalledText, hrefuses⟩

/-- A snapshot with a record in front that ends behind its kind. -/
def bareRecord : List UInt8 :=
  ascii "some" ++ 0x0A :: (ascii "some avg10=0.11 avg60=0.22 avg300=0.33 total=111" ++
    0x0A :: ascii "full avg10=0.44 avg60=0.55 avg300=0.66 total=222")

/-- The record without assignments is passed over like a line of another kind. -/
theorem bare_record_accepted :
    parseMemoryPressure bareRecord =
        .ok ⟨⟨110000, 220000, 330000, 111⟩, true, ⟨440000, 550000, 660000, 222⟩⟩ ∧
      Incomplete bareRecord ∧ ¬ RefusesIncomplete bareRecord := by
  have hparse : parseMemoryPressure bareRecord =
      .ok ⟨⟨110000, 220000, 330000, 111⟩, true, ⟨440000, 550000, 660000, 222⟩⟩ := by
    decide +kernel
  have hmem : ascii "some" ∈ lines 0x0A bareRecord := by decide +kernel
  have hincomplete : Incomplete bareRecord := @incomplete_of_bare _ _ hmem .some_ rfl
  refine ⟨hparse, hincomplete, ?_⟩
  intro hrefuses
  obtain ⟨e, he⟩ := hrefuses hincomplete
  rw [hparse] at he
  cases he

end Snapshots

end Syscape.Memory
