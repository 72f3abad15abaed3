import Syscape.Numbers
import Syscape.Software
import Mathlib.Data.List.ReduceOption

/-!
# Loaded kernel modules

Linux lists its modules in `/proc/modules`, one line each: name, size, reference count, the
modules that use it, state, address, and flags. A count is shown as it stands, so that it is
negative while the module is being unloaded, and a kernel that unloads no modules shows none.
-/
namespace Syscape.Software
open Text Lines Digits FromChars Numerals Numbers

/-- `driver_state`. -/
inductive DriverState where
  | unknown
  | loaded
  | running
  | unloading
  deriving DecidableEq, Repr

/-- `driver_record`. -/
structure DriverRecord where
  name : List UInt8 := []
  sizeBytes : Option ℕ := none
  useCount : Option ℕ := none
  state : DriverState := .unknown
  path : Option (List UInt8) := none
  deriving DecidableEq, Repr

section Source

/-- The loop of `parse_uint64`, with the value of the digits before. -/
def parseUint64Loop (val : ℕ) : List UInt8 → Option ℕ
  | [] => some val
  | c :: sv =>
    if c < 0x30 ∨ c > 0x39 then none
    else
      let digit := c.toNat - 0x30
      if val > (uint64Max - digit) / 10 then none
      else parseUint64Loop (val * 10 + digit) sv

/-- `parse_uint64`. -/
def parseUint64 (sv : List UInt8) : Option ℕ :=
  if trimWhitespaceView sv = [] then none else parseUint64Loop 0 (trimWhitespaceView sv)

/-- `parse_uint32`. -/
def parseUint32 (sv : List UInt8) : Option ℕ :=
  match parseUint64 sv with
  | none => none
  | some val64 => if val64 > uint32Max then none else some val64

/-- What `parse_proc_modules_line` makes of the state. -/
def driverStateOf (state : List UInt8) : DriverState :=
  if state = ascii "Live" then .running
  else if state = ascii "Loading" then .unknown
  else if state = ascii "Unloading" then .unloading
  else .unknown

/-- `parse_proc_modules_line`: whether there is a record, and what is left in `out`. -/
def parseProcModulesLine (line : List UInt8) (out : DriverRecord) : Bool × DriverRecord :=
  let line := trimWhitespaceView line
  if line = [] ∨ line.head? = some 0x23 then (false, out)
  else
    match splitBlank isspace line with
    | name :: size :: count :: _ :: state :: _ :: _ =>
      if name = [] then (false, out)
      else
        match parseUint64 size with
        | none => (false, { name })
        | some sizeVal =>
          match parseUint32 count with
          | none => (false, { name, sizeBytes := some sizeVal })
          | some countVal =>
            (true, { name, sizeBytes := some sizeVal, useCount := some countVal,
                     state := driverStateOf state })
    | _ => (false, out)

/-- The loop of `parse_proc_modules`: whether all lines have a record, and the list `out`. -/
def parseProcModulesLoop : List (List UInt8) → List DriverRecord → Bool × List DriverRecord
  | [], out => (true, out)
  | line :: lines, out =>
    let trimmed := trimWhitespaceView line
    if trimmed = [] ∨ trimmed.head? = some 0x23 then parseProcModulesLoop lines out
    else
      match parseProcModulesLine trimmed {} with
      | (true, rec) => parseProcModulesLoop lines (out ++ [rec])
      | (false, _) => (false, out)

/-- `parse_proc_modules`. -/
def parseProcModules (content : List UInt8) (out : List DriverRecord) :
    Bool × List DriverRecord :=
  parseProcModulesLoop (lines 0x0A content) out

end Source

section Numbers

/-- Digits are read until they are too many for the type. -/
theorem parseUint64Loop_eq {val : ℕ} (hval : val ≤ uint64Max) (sv : List UInt8) :
    parseUint64Loop val sv =
      if (∀ c ∈ sv, digit c < 10) ∧ value 10 val (sv.map digit) ≤ uint64Max then
        some (value 10 val (sv.map digit))
      else none := by
  induction sv generalizing val with
  | nil => simp [parseUint64Loop, hval]
  | cons c sv ih =>
    rw [parseUint64Loop]
    by_cases hc : digit c < 10
    · obtain ⟨hlow, hhigh⟩ := digit_lt_ten hc
      have hdigit : c.toNat - 0x30 = digit c := by rw [digit, if_pos ⟨hlow, hhigh⟩]
      rw [if_neg (not_or.mpr ⟨UInt8.not_lt.mpr hlow, UInt8.not_lt.mpr hhigh⟩), hdigit]
      dsimp only
      rw [List.map_cons, value_cons]
      by_cases hmax : val * 10 + digit c ≤ uint64Max
      · rw [if_neg (by omega), ih hmax]
        simp only [List.forall_mem_cons, hc, true_and]
      · have hle := le_value (b := 10) (by decide) (val * 10 + digit c) (sv.map digit)
        have hnine : 9 ≤ uint64Max := by decide
        rw [if_pos (by omega), if_neg (by omega)]
    · have hout : c < 0x30 ∨ c > 0x39 := by
        by_contra hin
        rw [not_or, UInt8.not_lt, gt_iff_lt, UInt8.not_lt] at hin
        rw [digit, if_pos hin] at hc
        have hhigh : c.toNat ≤ 0x39 := hin.2
        omega
      rw [if_pos hout, if_neg fun h => hc (h.1 c (by simp))]

/-- A text without white space at its ends is a number if it has only digits. -/
theorem parseUint64_eq {sv : List UInt8} (h : ∀ c ∈ sv, isspace c = false) :
    parseUint64 sv = numberOf 10 uint64Max sv := by
  have htrim : trimWhitespaceView sv = sv :=
    trimWhitespaceView_eq_self (fun c hc => h c (List.mem_of_mem_head? hc))
      fun c hc => h c (List.mem_of_mem_getLast? hc)
  rw [parseUint64, htrim]
  by_cases hnil : sv = []
  · rw [hnil]
    rfl
  · rw [if_neg hnil, parseUint64Loop_eq (Nat.zero_le _)]
    ext n
    constructor
    · intro hn
      obtain ⟨⟨hdigits, hmax⟩, hn⟩ := Option.ite_none_right_eq_some.mp hn
      cases hn
      exact numberOf_numeral ⟨hnil, hdigits, rfl⟩ hmax
    · intro hn
      obtain ⟨hnumeral, hmax⟩ := numberOf_eq_some hn
      rw [if_pos ⟨hnumeral.digits, by rwa [hnumeral.value_eq]⟩, hnumeral.value_eq]

theorem parseUint32_eq {sv : List UInt8} (h : ∀ c ∈ sv, isspace c = false) :
    parseUint32 sv = numberOf 10 uint32Max sv := by
  rw [parseUint32, parseUint64_eq h]
  ext n
  constructor
  · intro hn
    split at hn
    · cases hn
    · next val64 hval =>
      obtain ⟨hle, hn⟩ := Option.ite_none_left_eq_some.mp hn
      cases hn
      exact numberOf_numeral (numberOf_eq_some hval).1 (not_lt.mp hle)
  · intro hn
    obtain ⟨hnumeral, hmax⟩ := numberOf_eq_some hn
    rw [numberOf_numeral hnumeral (hmax.trans (by decide))]
    exact if_neg (not_lt.mpr hmax)

end Numbers

section Lines

/-- The columns of the lines that are neither blank nor a comment. -/
def recordLines (rows : List (List UInt8)) : List (List (List UInt8)) :=
  (rows.filter fun line => trimWhitespaceView line ≠ [] ∧
    (trimWhitespaceView line).head? ≠ some 0x23).map (splitBlank isspace)

/-- Six columns at least, with numbers in the second and in the third. -/
def WellFormed (columns : List (List UInt8)) : Prop :=
  6 ≤ columns.length ∧ (∃ n ≤ uint64Max, Numeral 10 n (columns.getD 1 [])) ∧
    ∃ n ≤ uint32Max, Numeral 10 n (columns.getD 2 [])

/-- The record that the columns of a line stand for. -/
def driverOf : List (List UInt8) → Option DriverRecord
  | name :: size :: count :: _ :: state :: _ :: _ => do
    let sizeVal ← numberOf 10 uint64Max size
    let countVal ← numberOf 10 uint32Max count
    some { name, sizeBytes := some sizeVal, useCount := some countVal,
           state := driverStateOf state }
  | _ => none

theorem isSome_numberOf {base max : ℕ} {text : List UInt8} :
    (numberOf base max text).isSome ↔ ∃ n ≤ max, Numeral base n text := by
  rw [Option.isSome_iff_exists]
  constructor
  · intro ⟨n, hn⟩
    exact ⟨n, (numberOf_eq_some hn).2, (numberOf_eq_some hn).1⟩
  · intro ⟨n, hmax, hn⟩
    exact ⟨n, numberOf_numeral hn hmax⟩

theorem isSome_driverOf {columns : List (List UInt8)} :
    (driverOf columns).isSome ↔ WellFormed columns := by
  unfold driverOf
  split
  · next name size count usedBy state address more =>
    rw [WellFormed, List.getD_cons_succ, List.getD_cons_zero, List.getD_cons_succ,
      List.getD_cons_succ, List.getD_cons_zero, ← isSome_numberOf, ← isSome_numberOf]
    cases numberOf 10 uint64Max size <;> cases numberOf 10 uint32Max count <;> simp
  · next hshort =>
    constructor
    · intro h
      cases h
    · intro ⟨hlength, _⟩
      match columns, hlength, hshort with
      | a :: b :: c :: d :: e :: f :: more, _, hshort => exact absurd rfl (hshort a b c d e f more)

/-- What the reader of a line does with its columns. -/
theorem parseProcModulesLine_eq {line : List UInt8} (hne : trimWhitespaceView line ≠ [])
    (hcomment : (trimWhitespaceView line).head? ≠ some 0x23) (out : DriverRecord) :
    (parseProcModulesLine line out).1 = (driverOf (splitBlank isspace line)).isSome ∧
      ∀ rec ∈ driverOf (splitBlank isspace line), (parseProcModulesLine line out).2 = rec := by
  have hsolid := @solid_of_mem_splitBlank isspace line
  have hsplit : splitBlank isspace (trimWhitespaceView line) = splitBlank isspace line :=
    splitBlank_trim line
  unfold parseProcModulesLine
  dsimp only
  rw [if_neg (not_or.mpr ⟨hne, hcomment⟩), hsplit]
  unfold driverOf
  split
  · next name size count usedBy state address more hcolumns =>
    rw [hcolumns] at hsolid
    rw [if_neg (@hsolid name (by simp)).1, parseUint64_eq (@hsolid size (by simp)).2,
      parseUint32_eq (@hsolid count (by simp)).2]
    cases numberOf 10 uint64Max size <;> cases numberOf 10 uint32Max count <;> simp
  · simp

/-- The loop adds the records of the lines in front of the first that has none. -/
theorem parseProcModulesLoop_eq (rows : List (List UInt8)) (out : List DriverRecord) :
    parseProcModulesLoop rows out =
      (((recordLines rows).map driverOf).all Option.isSome,
        out ++ (((recordLines rows).map driverOf).takeWhile Option.isSome).reduceOption) := by
  induction rows generalizing out with
  | nil => simp [parseProcModulesLoop, recordLines]
  | cons line rows ih =>
    rw [parseProcModulesLoop]
    by_cases hskip : trimWhitespaceView line = [] ∨ (trimWhitespaceView line).head? = some 0x23
    · have hrows : recordLines (line :: rows) = recordLines rows := by
        rw [recordLines, List.filter_cons_of_neg (by simpa [imp_iff_not_or] using hskip)]
        rfl
      rw [if_pos hskip, ih, hrows]
    · have hrows : recordLines (line :: rows) = splitBlank isspace line :: recordLines rows := by
        rw [recordLines, List.filter_cons_of_pos (by simpa using hskip)]
        rfl
      have htrim : trimWhitespaceView (trimWhitespaceView line) = trimWhitespaceView line :=
        trim_trim line
      have hsplit : splitBlank isspace (trimWhitespaceView line) = splitBlank isspace line :=
        splitBlank_trim line
      rw [not_or, ← htrim] at hskip
      obtain ⟨hok, hrec⟩ := parseProcModulesLine_eq hskip.1 hskip.2 {}
      rw [hsplit] at hok hrec
      rw [if_neg (by rw [← htrim]; exact not_or.mpr hskip), hrows, List.map_cons]
      generalize parseProcModulesLine (trimWhitespaceView line) {} = parsed at hok hrec ⊢
      obtain ⟨ok, rec⟩ := parsed
      cases hdriver : driverOf (splitBlank isspace line) with
      | none =>
        rw [hdriver] at hok
        cases hok
        simp
      | some driver =>
        rw [hdriver] at hok hrec
        cases hok
        cases hrec driver rfl
        simp [ih]

end Lines

section Kernel

/-- A text without white space. -/
structure Word where
  text : List UInt8
  ne_nil : text ≠ []
  solid : ∀ c ∈ text, isspace c = false

/-- The states that the kernel shows. -/
inductive ModuleState where
  | live
  | loading
  | unloading
  deriving DecidableEq, Repr

def ModuleState.text : ModuleState → List UInt8
  | live => ascii "Live"
  | loading => ascii "Loading"
  | unloading => ascii "Unloading"

/-- What the reader calls a state; it has no word of its own for a module that is loaded. -/
def ModuleState.driverState : ModuleState → DriverState
  | live => .running
  | loading => .unknown
  | unloading => .unloading

/-- The reference count of a module, which is negative while it is unloaded, and its users. -/
structure Usage where
  refcount : Int32
  usedBy : List Word

/-- A module; a kernel that cannot unload modules does not know their usage. -/
structure LoadedModule where
  name : Word
  size : UInt64
  usage : Option Usage
  state : ModuleState
  address : Word
  taints : Option Word

namespace LoadedModule

def refcountText (m : LoadedModule) : List UInt8 :=
  match m.usage with
  | none => [0x2D]
  | some usage => signedDecimal usage.refcount.toInt

def usedByText (m : LoadedModule) : List UInt8 :=
  match m.usage with
  | none => [0x2D]
  | some usage =>
    match usage.usedBy with
    | [] => [0x2D]
    | users => users.flatMap fun user => user.text ++ [0x2C]

def columns (m : LoadedModule) : List (List UInt8) :=
  [m.name.text, decimal m.size.toNat, m.refcountText, m.usedByText, m.state.text,
    m.address.text] ++ (m.taints.map Word.text).toList

/-- The line of a module, without the newline. -/
def line (m : LoadedModule) : List UInt8 := [0x20].intercalate m.columns

/-- The count of users, when there is one. -/
def useCount (m : LoadedModule) : Option ℕ := do
  let usage ← m.usage
  if 0 ≤ usage.refcount.toInt then some usage.refcount.toInt.toNat else none

/-- The record that a module should have. -/
def driver (m : LoadedModule) : DriverRecord where
  name := m.name.text
  sizeBytes := some m.size.toNat
  useCount := m.useCount
  state := m.state.driverState

end LoadedModule

/-- `/proc/modules`. -/
def procModules (modules : List LoadedModule) : List UInt8 :=
  modules.flatMap fun m => m.line ++ [0x0A]

end Kernel

section Rendering
variable (m : LoadedModule)

theorem solid_decimal (n : ℕ) : decimal n ≠ [] ∧ ∀ c ∈ decimal n, isspace c = false :=
  ⟨decimal_ne_nil n, fun _ hc => isspace_eq_false (mem_decimal hc).1⟩

theorem solid_signedDecimal (z : ℤ) :
    signedDecimal z ≠ [] ∧ ∀ c ∈ signedDecimal z, isspace c = false := by
  unfold signedDecimal
  split_ifs
  · refine ⟨by simp, ?_⟩
    rw [List.forall_mem_cons]
    exact ⟨rfl, (solid_decimal _).2⟩
  · exact solid_decimal _

theorem solid_usedByText : m.usedByText ≠ [] ∧ ∀ c ∈ m.usedByText, isspace c = false := by
  unfold LoadedModule.usedByText
  split
  · exact ⟨by simp, by simp [isspace]⟩
  · split
    · exact ⟨by simp, by simp [isspace]⟩
    · next usage _ users hne =>
      obtain ⟨user, more, hcons⟩ := List.exists_cons_of_ne_nil hne
      refine ⟨by simp [hcons], ?_⟩
      intro c hc
      obtain ⟨user, _, hc⟩ := List.mem_flatMap.mp hc
      obtain hc | hc := List.mem_append.mp hc
      · exact user.solid c hc
      · rw [List.mem_singleton.mp hc]
        rfl

/-- The columns of a line are words. -/
theorem solid_columns : ∀ column ∈ m.columns, column ≠ [] ∧ ∀ c ∈ column, isspace c = false := by
  have hrefcount : m.refcountText ≠ [] ∧ ∀ c ∈ m.refcountText, isspace c = false := by
    unfold LoadedModule.refcountText
    split
    · exact ⟨by simp, by simp [isspace]⟩
    · exact solid_signedDecimal _
  have hstate : m.state.text ≠ [] ∧ ∀ c ∈ m.state.text, isspace c = false := by
    cases m.state <;> exact ⟨by decide, forall_of_all (by decide)⟩
  have htaints : ∀ column ∈ (m.taints.map Word.text).toList,
      column ≠ [] ∧ ∀ c ∈ column, isspace c = false := by
    intro column hcolumn
    obtain ⟨taints, _, rfl⟩ := Option.map_eq_some_iff.mp (Option.mem_toList.mp hcolumn)
    exact ⟨taints.ne_nil, taints.solid⟩
  rw [LoadedModule.columns, List.forall_mem_append]
  refine ⟨?_, htaints⟩
  simp only [List.forall_mem_cons, List.not_mem_nil, false_implies, implies_true, and_true]
  exact ⟨⟨m.name.ne_nil, m.name.solid⟩, solid_decimal _, hrefcount, solid_usedByText m, hstate,
    m.address.ne_nil, m.address.solid⟩

theorem splitBlank_line : splitBlank isspace m.line = m.columns :=
  splitBlank_intercalate rfl (solid_columns m)

/-- The third column is a number when a count is shown that is not negative. -/
theorem numberOf_refcountText : numberOf 10 uint32Max m.refcountText = m.useCount := by
  have hminus (text : List UInt8) : numberOf 10 uint32Max (0x2D :: text) = none := by
    rw [Option.eq_none_iff_forall_ne_some]
    intro n hn
    have hdigit := (numberOf_eq_some hn).1.digits 0x2D (by simp)
    exact absurd hdigit (by decide)
  unfold LoadedModule.refcountText LoadedModule.useCount
  cases m.usage with
  | none => exact hminus []
  | some usage =>
    have hlt := usage.refcount.toInt_lt
    dsimp only [Option.bind_eq_bind, Option.bind_some]
    generalize usage.refcount.toInt = count at hlt
    by_cases hcount : 0 ≤ count
    · obtain ⟨n, rfl⟩ := Int.eq_ofNat_of_zero_le hcount
      have hmax : n ≤ uint32Max := le_uint32Max (by omega)
      rw [if_pos hcount, signedDecimal_natCast, numberOf_numeral (numeral_decimal n) hmax,
        Int.toNat_natCast]
    · rw [if_neg hcount, signedDecimal, if_pos (not_le.mp hcount), hminus]

theorem driverStateOf_text (state : ModuleState) : driverStateOf state.text = state.driverState := by
  cases state <;> decide

/-- A module has a record when it has a count. -/
theorem driverOf_columns : driverOf m.columns = m.useCount.map fun _ => m.driver := by
  rw [LoadedModule.columns, List.cons_append, List.cons_append, List.cons_append, List.cons_append,
    List.cons_append, List.cons_append, driverOf, numberOf_refcountText,
    numberOf_numeral (numeral_decimal _) (le_uint64Max m.size.toNat_lt), driverStateOf_text]
  cases hcount : m.useCount with
  | none => rfl
  | some n => simp [LoadedModule.driver, hcount]

theorem line_newline : 0x0A ∉ m.line := by
  intro hmem
  obtain heq | ⟨column, hcolumn, hmem⟩ := mem_intercalate hmem
  · cases heq
  · exact absurd ((solid_columns m column hcolumn).2 _ hmem) (by decide)

theorem head?_line : m.line.head? = m.name.text.head? := by
  rw [LoadedModule.line, LoadedModule.columns, List.cons_append, List.cons_append,
    List.intercalate_cons_cons, List.append_assoc, List.head?_append_of_ne_nil _ m.name.ne_nil]

/-- The lines of the kernel, less those that look like comments. -/
theorem recordLines_procModules (modules : List LoadedModule) :
    recordLines (lines 0x0A (procModules modules)) =
      (modules.filter fun m => m.name.text.head? ≠ some 0x23).map LoadedModule.columns := by
  have hlines := @lines_flatMap_sep _ _ 0x0A (modules.map LoadedModule.line)
    (by simpa using fun m _ => line_newline m)
  rw [List.flatMap_map] at hlines
  have htrim (m : LoadedModule) : (trimWhitespaceView m.line).head? = m.name.text.head? := by
    rw [trimWhitespaceView, head?_trim_eq, head?_line]
    rw [head?_line]
    exact fun c hc => m.name.solid c (List.mem_of_mem_head? hc)
  have hne (m : LoadedModule) : trimWhitespaceView m.line ≠ [] := by
    intro hnil
    have hhead := htrim m
    rw [hnil, List.head?_nil, eq_comm, List.head?_eq_none_iff] at hhead
    exact m.name.ne_nil hhead
  have hfilter : (fun line => decide (trimWhitespaceView line ≠ [] ∧
      (trimWhitespaceView line).head? ≠ some 0x23)) ∘ LoadedModule.line =
        fun m => decide (m.name.text.head? ≠ some 0x23) := by
    ext m
    simp only [Function.comp_apply, htrim, hne, ne_eq, not_false_eq_true, true_and]
  rw [procModules, hlines, recordLines, List.filter_map, List.map_map, hfilter]
  exact List.map_congr_left fun m _ => splitBlank_line m

end Rendering

section Results

/-- A list is left alone by a text whose first line already is malformed, and by one
without malformed lines. -/
def KeepsOutput (content : List UInt8) : Prop :=
  ∀ first ∈ (recordLines (lines 0x0A content)).head?, WellFormed first →
    ∀ columns ∈ recordLines (lines 0x0A content), WellFormed columns

/-- What the reader makes of the kernel's list. -/
theorem parseProcModules_procModules (modules : List LoadedModule) (out : List DriverRecord) :
    let drivers := (modules.filter fun m => m.name.text.head? ≠ some 0x23).map fun m =>
      m.useCount.map fun _ => m.driver
    parseProcModules (procModules modules) out =
      (drivers.all Option.isSome, out ++ (drivers.takeWhile Option.isSome).reduceOption) := by
  rw [parseProcModules, parseProcModulesLoop_eq, recordLines_procModules, List.map_map]
  simp only [Function.comp_def, driverOf_columns]

theorem read_of_counted {modules : List LoadedModule}
    (h : ∀ m ∈ modules, m.useCount ≠ none ∧ m.name.text.head? ≠ some 0x23)
    (out : List DriverRecord) : parseProcModules (procModules modules) out =
      (true, out ++ modules.map LoadedModule.driver) := by
  have hfilter : (modules.filter fun m => m.name.text.head? ≠ some 0x23) = modules := by
    rw [List.filter_eq_self]
    exact fun m hm => decide_eq_true (h m hm).2
  have hmap : (modules.map fun m => m.useCount.map fun _ => m.driver) =
      (modules.map LoadedModule.driver).map some := by
    rw [List.map_map]
    apply List.map_congr_left
    intro m hm
    obtain ⟨n, hn⟩ := Option.ne_none_iff_exists'.mp (h m hm).1
    rw [hn]
    rfl
  have hall : ((modules.map LoadedModule.driver).map some).takeWhile Option.isSome =
      (modules.map LoadedModule.driver).map some := by
    rw [List.takeWhile_eq_self_iff]
    intro driver hdriver
    obtain ⟨_, _, rfl⟩ := List.mem_map.mp hdriver
    rfl
  rw [parseProcModules_procModules, hfilter, hmap]
  rw [hall, List.reduceOption, List.filterMap_map]
  simp

theorem counted_of_read {modules : List LoadedModule} {out : List DriverRecord}
    (h : parseProcModules (procModules modules) out =
      (true, out ++ modules.map LoadedModule.driver)) :
    ∀ m ∈ modules, m.useCount ≠ none ∧ m.name.text.head? ≠ some 0x23 := by
  rw [parseProcModules_procModules, Prod.mk.injEq, List.append_cancel_left_eq] at h
  obtain ⟨hall, hdrivers⟩ := h
  -- No line is left out, since there are as many records as modules.
  have hlength := congrArg List.length hdrivers
  have hle := List.length_filter_le (fun m => decide (m.name.text.head? ≠ some 0x23)) modules
  have hself : ∀ m ∈ modules, decide (m.name.text.head? ≠ some 0x23) = true := by
    rw [← List.length_filter_eq_length_iff]
    refine le_antisymm hle ?_
    calc modules.length = _ := by rw [hlength, List.length_map]
      _ ≤ _ := List.reduceOption_length_le _
      _ ≤ _ := (List.takeWhile_prefix _).length_le
      _ = _ := List.length_map _
  intro m hm
  refine ⟨?_, of_decide_eq_true (hself m hm)⟩
  have hsome := List.all_eq_true.mp hall _
    (List.mem_map.mpr ⟨m, List.mem_filter.mpr ⟨hm, hself m hm⟩, rfl⟩)
  intro hnone
  rw [hnone] at hsome
  cases hsome

/-- A record that comes before the line at fault is kept. -/
theorem keepsOutput_iff (content : List UInt8) (out : List DriverRecord) :
    ((parseProcModules content out).1 = false → (parseProcModules content out).2 = out) ↔
      KeepsOutput content := by
  rw [parseProcModules, parseProcModulesLoop_eq, KeepsOutput]
  dsimp only
  rw [List.append_right_eq_self]
  cases hrows : recordLines (lines 0x0A content) with
  | nil => simp
  | cons first rows =>
    simp only [← isSome_driverOf]
    cases hfirst : driverOf first with
    | none => simp [hfirst]
    | some driver => simp [hfirst, Option.isSome_iff_ne_none]

/-- The modules of a kernel are read exactly when all of them have a count that is not
negative and none looks like a comment; a text that is rejected leaves the list as it was
exactly when no record comes before the line at fault. -/
theorem modules_read_iff (modules : List LoadedModule) (content : List UInt8)
    (out : List DriverRecord) :
    (parseProcModules (procModules modules) out =
        (true, out ++ modules.map LoadedModule.driver) ↔
      ∀ m ∈ modules, m.useCount ≠ none ∧ m.name.text.head? ≠ some 0x23) ∧
    (((parseProcModules content out).1 = false → (parseProcModules content out).2 = out) ↔
      KeepsOutput content) :=
  ⟨⟨counted_of_read, fun h => read_of_counted h out⟩, keepsOutput_iff content out⟩

/-- A module that is counted and has no users listed. -/
def sampleModule (name : Word) (refcount : Int32) (state : ModuleState) : LoadedModule where
  name := name
  size := 40960
  usage := some ⟨refcount, []⟩
  state := state
  address := ⟨ascii "0x0", by decide, forall_of_all (by decide)⟩
  taints := none

/-- A file system in use, and a block device that is just being unloaded. -/
def modulesWithUnloading : List LoadedModule :=
  [sampleModule ⟨ascii "ext4", by decide, forall_of_all (by decide)⟩ 1 .live,
    sampleModule ⟨ascii "nbd", by decide, forall_of_all (by decide)⟩ (-1) .unloading]

/-- The whole list is rejected, and the record of the file system stays behind. -/
theorem unloading_rejected :
    procModules modulesWithUnloading =
        ascii "ext4 40960 1 - Live 0x0\nnbd 40960 -1 - Unloading 0x0\n" ∧
      parseProcModules (procModules modulesWithUnloading) [] =
        (false, [{ name := ascii "ext4", sizeBytes := some 40960, useCount := some 1,
                   state := .running }]) := by
  constructor
  · decide +kernel
  · rw [parseProcModules_procModules]
    decide +kernel

end Results

end Syscape.Software
