import Syscape.Environment
import Mathlib.Data.List.Nodup
import Mathlib.Data.List.TakeWhile

/-!
# Lookup and enumeration of the environment

An environment as a list of variables, how the two platforms store it, and what the three
queries find in it.
-/
namespace Syscape.Environment
open Checked Utf8 StdSort Paths

section Variables

/-- What can be the name of a variable. -/
def ValidName (name : List Char) : Prop := name ≠ [] ∧ '=' ∉ name ∧ Char.ofNat 0 ∉ name

/-- A variable; the value may be empty. -/
structure Variable where
  name : List Char
  value : List Char
  valid : ValidName name
  value_nul : Char.ofNat 0 ∉ value

/-- The variable as the list of all variables has it. -/
def Variable.record (v : Variable) : EnvironmentVariable :=
  ⟨encodeScalars v.name, encodeScalars v.value⟩

/-- What is claimed of a backend for an environment. -/
structure Agrees (backend : Backend) (sameName : List Char → List Char → Prop)
    (vars : List Variable) : Prop where
  listed : ∃ out, backend.environmentVariables = .ok out ∧ out.Perm (vars.map Variable.record) ∧
    out.Pairwise fun a b => a.name.map UInt8.toNat < b.name.map UInt8.toNat
  found : ∀ v ∈ vars, backend.get (encodeScalars v.name) = .ok (encodeScalars v.value) ∧
    backend.has (encodeScalars v.name) = .ok true
  missing : ∀ name, ValidName name → (∀ v ∈ vars, ¬ sameName v.name name) →
    backend.get (encodeScalars name) = envFail .notFound ∧
      backend.has (encodeScalars name) = .ok false

end Variables

section Characters
variable {cs ds : List Char} {c : Char}

/-- An ASCII byte of a text is a character of its own. -/
theorem mem_of_mem_encodeScalars {b : UInt8} (hb : b < 0x80) (h : b ∈ encodeScalars cs) :
    Char.ofNat b.toNat ∈ cs := by
  rw [encodeScalars_eq, List.mem_flatMap] at h
  obtain ⟨c, hc, hmem⟩ := h
  have hself := utf8EncodeChar_of_ascii hmem hb
  have hdecode := decodeUtf8CodePoint_encode c []
  have hsmall : b.toNat < 0x80 := hb
  have hread : decodeUtf8CodePoint [b] 0 = .ok ⟨b.toNat, 1⟩ := by
    simp only [decodeUtf8CodePoint, List.length_cons, List.length_nil, readByte_cons_zero, ok_bind]
    simp
    omega
  rw [hself, List.append_nil, hread, Except.ok.injEq, DecodedCodePoint.mk.injEq] at hdecode
  rwa [hdecode.1, Char.ofNat_toNat]

/-- So is a code unit below the surrogates. -/
theorem mem_of_mem_unitsOfScalars {u : UInt16} (hu : u.toNat < 0xD800)
    (h : u ∈ unitsOfScalars cs) : Char.ofNat u.toNat ∈ cs := by
  rw [unitsOfScalars, List.mem_flatMap] at h
  obtain ⟨c, hc, hmem⟩ := h
  have hlt : c.toNat < 0x110000 := toNat_lt c
  unfold utf16Units at hmem
  split_ifs at hmem with hsmall
  · rw [List.mem_singleton] at hmem
    rw [hmem, UInt16.toNat_ofNat', Nat.mod_eq_of_lt (by omega), Char.ofNat_toNat]
    exact hc
  · simp only [List.mem_cons, List.not_mem_nil, or_false, Nat.shiftRight_eq_div_pow] at hmem
    have hlow : (c.toNat - 0x10000) &&& 0x3FF < 2 ^ 10 := Nat.and_lt_two_pow _ (by decide)
    rcases hmem with rfl | rfl <;>
    · rw [UInt16.toNat_ofNat'] at hu
      omega

theorem encodeScalars_injective (h : encodeScalars cs = encodeScalars ds) : cs = ds := by
  induction cs generalizing ds with
  | nil =>
    cases ds with
    | nil => rfl
    | cons d ds =>
      have hdecode := decodeUtf8CodePoint_encode d (encodeScalars ds)
      rw [← encodeScalars_cons, ← h] at hdecode
      simp [decodeUtf8CodePoint] at hdecode
  | cons c cs ih =>
    cases ds with
    | nil =>
      have hdecode := decodeUtf8CodePoint_encode c (encodeScalars cs)
      rw [← encodeScalars_cons, h] at hdecode
      simp [decodeUtf8CodePoint] at hdecode
    | cons d ds =>
      have hc := decodeUtf8CodePoint_encode c (encodeScalars cs)
      have hd := decodeUtf8CodePoint_encode d (encodeScalars ds)
      rw [← encodeScalars_cons] at hc hd
      rw [h, hd, Except.ok.injEq, DecodedCodePoint.mk.injEq] at hc
      have hcd : d = c := Char.toNat_inj.mp hc.1
      subst hcd
      rw [encodeScalars_cons, encodeScalars_cons, List.append_cancel_left_eq] at h
      rw [ih h]

theorem ValidName.no_byte (h : ValidName cs) : (0x3D : UInt8) ∉ encodeScalars cs ∧
    (0 : UInt8) ∉ encodeScalars cs :=
  ⟨fun hmem => h.2.1 (mem_of_mem_encodeScalars (by decide) hmem),
    fun hmem => h.2.2 (mem_of_mem_encodeScalars (by decide) hmem)⟩

theorem ValidName.no_unit (h : ValidName cs) : (0x3D : UInt16) ∉ unitsOfScalars cs ∧
    (0 : UInt16) ∉ unitsOfScalars cs :=
  ⟨fun hmem => h.2.1 (mem_of_mem_unitsOfScalars (by decide) hmem),
    fun hmem => h.2.2 (mem_of_mem_unitsOfScalars (by decide) hmem)⟩

theorem ValidName.encodeScalars_ne_nil (h : ValidName cs) : encodeScalars cs ≠ [] := by
  intro hnil
  exact h.1 (encodeScalars_injective hnil)

/-- Names that a variable can have are accepted. -/
theorem validateVariableName_eq (h : ValidName cs) :
    validateVariableName (encodeScalars cs) = .ok () := by
  have hvalid : ValidUtf8 (encodeScalars cs) := validUtf8_iff.mpr ⟨cs, rfl⟩
  unfold validateVariableName
  rw [if_neg h.encodeScalars_ne_nil, if_neg (by simp [h.no_byte]), isValidUtf8_eq]
  simp [hvalid]

end Characters

section Keys
variable {α β : Type} [DecidableEq β] {key : α → β} {l : List α}

/-- The elements have keys of their own: each is the first that has its key. -/
theorem find?_of_nodup (h : (l.map key).Nodup) {a : α} (ha : a ∈ l) :
    l.find? (fun b => key b = key a) = some a := by
  induction l with
  | nil => cases ha
  | cons b l ih =>
    rw [List.map_cons, List.nodup_cons] at h
    rcases List.mem_cons.mp ha with rfl | ha
    · simp
    · have hne : key b ≠ key a := fun heq => h.1 (heq ▸ List.mem_map_of_mem ha)
      rw [List.find?_cons_of_neg (by simpa using hne), ih h.2 ha]

/-- A text in front of the first separator is determined. -/
theorem eq_of_isPrefix {sep : β} {a b more : List β} (ha : sep ∉ a) (hb : sep ∉ b)
    (h : a ++ [sep] <+: b ++ sep :: more) : a = b := by
  obtain ⟨rest, hrest⟩ := h
  have hindex := idxOf?_append_cons ha rest
  have hindex' := idxOf?_append_cons hb more
  rw [← hrest, List.append_assoc, List.singleton_append, hindex, Option.some_inj] at hindex'
  rw [List.append_assoc] at hrest
  exact (List.append_inj hrest hindex').1

end Keys

section Sorting
variable {out : List EnvironmentVariable}

/-- A sorted list with different names is in ascending order of names. -/
theorem sorted_by_name (sorter : Sorter variableLess) (h : (out.map (·.name)).Nodup) :
    (sorter.sort out).Pairwise fun a b => a.name.map UInt8.toNat < b.name.map UInt8.toNat := by
  have hnames : ((sorter.sort out).map (·.name)).Nodup :=
    ((sorter.perm out).map _).nodup_iff.mpr h
  have hdistinct : (sorter.sort out).Pairwise fun a b => a.name ≠ b.name := by
    rwa [List.Nodup, List.pairwise_map] at hnames
  refine (hdistinct.and (sorter.sorted out)).imp ?_
  intro a b ⟨hne, hless⟩
  have hnat : a.name.map UInt8.toNat ≠ b.name.map UInt8.toNat := fun heq =>
    hne (List.map_injective_iff.mpr (fun _ _ h => UInt8.toNat_inj.mp h) heq)
  unfold variableLess fieldThen at hless
  rw [if_pos (Ne.symm hne), decide_eq_false_iff_not] at hless
  rcases lt_trichotomy (a.name.map UInt8.toNat) (b.name.map UInt8.toNat) with h | h | h
  · exact h
  · exact absurd h hnat
  · exact absurd h hless

theorem nodup_record {vars : List Variable} (h : (vars.map Variable.name).Nodup) :
    ((vars.map Variable.record).map (·.name)).Nodup := by
  have hnames : (vars.map Variable.record).map (·.name) =
      (vars.map Variable.name).map encodeScalars := by simp [Variable.record]
  rw [hnames]
  exact List.Nodup.map (fun _ _ => encodeScalars_injective) h

end Sorting

namespace Posix
variable {vars : List Variable}

/-- The string of a variable. -/
def entryOf (v : Variable) : List UInt8 := encodeScalars v.name ++ 0x3D :: encodeScalars v.value

def environOf (vars : List Variable) : List (List UInt8) := vars.map entryOf

/-- The first entry with a name is that of the first variable with the name. -/
theorem getenv_environOf {name : List Char} (h : ValidName name) :
    getenv (environOf vars) (encodeScalars name) =
      (vars.find? fun v => v.name = name).map fun v => encodeScalars v.value := by
  unfold getenv environOf
  induction vars with
  | nil => rfl
  | cons v vars ih =>
    rw [List.map_cons, List.findSome?_cons]
    by_cases hname : v.name = name
    · subst hname
      rw [List.find?_cons_of_pos (by simp), entryOf, if_pos (by simp)]
      simp
    · have hprefix : ¬ encodeScalars name ++ [0x3D] <+: entryOf v := by
        intro hprefix
        have hbytes := eq_of_isPrefix h.no_byte.1 v.valid.no_byte.1 hprefix
        exact hname (encodeScalars_injective hbytes).symm
      rw [if_neg hprefix, List.find?_cons_of_neg (by simpa using hname)]
      exact ih

theorem getRaw_environOf (vars : List Variable) {name : List Char} (h : ValidName name) :
    getRaw (environOf vars) (encodeScalars name) =
      match vars.find? fun v => v.name = name with
      | some v => .ok (encodeScalars v.value)
      | none => envFail .notFound := by
  have hwhole : (encodeScalars name).takeWhile (· ≠ 0) = encodeScalars name :=
    takeWhile_of_not_mem h.no_byte.2
  rw [getRaw, hwhole, getenv_environOf h]
  cases vars.find? fun v => v.name = name <;> rfl

theorem listEntry_entryOf (v : Variable) (out : List EnvironmentVariable) :
    listEntry out (entryOf v) = .ok (out ++ [v.record]) := by
  have hname : ValidUtf8 (encodeScalars v.name) := validUtf8_iff.mpr ⟨v.name, rfl⟩
  have hvalue : ValidUtf8 (encodeScalars v.value) := validUtf8_iff.mpr ⟨v.value, rfl⟩
  have hlength : (encodeScalars v.name).length ≠ 0 :=
    fun h => v.valid.encodeScalars_ne_nil (List.length_eq_zero_iff.mp h)
  have htake : (entryOf v).take (encodeScalars v.name).length = encodeScalars v.name :=
    List.take_left
  have hdrop : (entryOf v).drop ((encodeScalars v.name).length + 1) = encodeScalars v.value := by
    rw [entryOf, ← List.drop_drop, List.drop_left]
    rfl
  have hindex : (entryOf v).idxOf? 0x3D = some (encodeScalars v.name).length :=
    idxOf?_append_cons v.valid.no_byte.1 _
  unfold listEntry
  rw [hindex]
  simp only [hlength, if_false, htake, hdrop, isValidUtf8_eq, hname, hvalue, decide_true,
    lift_ok, ok_bind]
  rfl

/-- On POSIX systems the queries agree. -/
theorem agrees (sorter : Sorter variableLess) (h : (vars.map Variable.name).Nodup) :
    Agrees (backend sorter (environOf vars)) Eq vars where
  listed := by
    have hloop : (environOf vars).foldlM listEntry [] = .ok (vars.map Variable.record) := by
      rw [environOf, List.foldlM_map, List.map_eq_flatMap]
      exact foldlM_flatMap (fun out v _ => listEntry_entryOf v out) []
    refine ⟨sorter.sort (vars.map Variable.record), ?_, sorter.perm _,
      sorted_by_name sorter (nodup_record h)⟩
    show environmentVariables sorter (some (environOf vars)) = _
    rw [environmentVariables, hloop, ok_bind]
  found := by
    intro v hv
    have hraw := getRaw_environOf vars v.valid
    rw [find?_of_nodup h hv] at hraw
    have hvalue : ValidUtf8 (encodeScalars v.value) := validUtf8_iff.mpr ⟨v.value, rfl⟩
    constructor
    · show get (environOf vars) _ = _
      rw [get, validateVariableName_eq v.valid, ok_bind, hraw, ok_bind, isValidUtf8_eq]
      simp [hvalue]
    · show has (environOf vars) _ = _
      rw [has, validateVariableName_eq v.valid, ok_bind, hraw]
      rfl
  missing := by
    intro name hname hother
    have hraw := getRaw_environOf vars hname
    rw [List.find?_eq_none.mpr (by simpa using hother)] at hraw
    constructor
    · show get (environOf vars) _ = _
      rw [get, validateVariableName_eq hname, ok_bind, hraw]
      rfl
    · show has (environOf vars) _ = _
      rw [has, validateVariableName_eq hname, ok_bind, hraw]
      rfl

end Posix

namespace Windows
variable {vars : List Variable} {upcase : UInt16 → UInt16} {api : NativeApi}

/-- Names are compared unit by unit, ignoring case. -/
def SameName (upcase : UInt16 → UInt16) (a b : List Char) : Prop :=
  (unitsOfScalars a).map upcase = (unitsOfScalars b).map upcase

/-- The string of a variable in the block. -/
def entryOf (v : Variable) : List UInt16 := unitsOfScalars v.name ++ 0x3D :: unitsOfScalars v.value

def blockOf (vars : List Variable) : List UInt16 := vars.flatMap (fun v => entryOf v ++ [0]) ++ [0]

/-- The native functions do what is documented: a value that fits with its terminator is copied
and its length returned, otherwise the size that is needed is returned; nothing and the error of
a missing variable are returned only when there is none. -/
structure Documented (upcase : UInt16 → UInt16) (api : NativeApi) (vars : List Variable) : Prop where
  strings : api.getEnvironmentStrings = .ok (blockOf vars)
  fits : ∀ v ∈ vars, ∀ name size, name.map upcase = (unitsOfScalars v.name).map upcase →
    (unitsOfScalars v.value).length < size.toNat →
      (api.getEnvironmentVariable name size).copied.toNat = (unitsOfScalars v.value).length ∧
      (api.getEnvironmentVariable name size).buffer.take (unitsOfScalars v.value).length =
        unitsOfScalars v.value ∧
      (api.getEnvironmentVariable name size).lastError = errorSuccess
  required : ∀ v ∈ vars, ∀ name size, name.map upcase = (unitsOfScalars v.name).map upcase →
    size.toNat ≤ (unitsOfScalars v.value).length →
      (api.getEnvironmentVariable name size).copied.toNat = (unitsOfScalars v.value).length + 1
  missing : ∀ name size, (∀ v ∈ vars, name.map upcase ≠ (unitsOfScalars v.name).map upcase) →
    (api.getEnvironmentVariable name size).copied = 0 ∧
      (api.getEnvironmentVariable name size).lastError = errorEnvvarNotFound

theorem getRaw_encodeScalars {name : List Char} (h : ValidName name) :
    getRaw api (encodeScalars name) = getRawLoop api (unitsOfScalars name) 3 256 := by
  have hwhole : (unitsOfScalars name).takeWhile (· ≠ 0) = unitsOfScalars name :=
    takeWhile_of_not_mem h.no_unit.2
  rw [getRaw, utf8ToWide, if_neg h.encodeScalars_ne_nil, utf8ToUtf16_scalars, lift_ok, ok_bind, hwhole]

/-- A value that fits is read by the next attempt. -/
theorem getRawLoop_fits (hdoc : Documented upcase api vars) {v : Variable} (hv : v ∈ vars)
    (hvalue : v.value ≠ []) {attempts size : ℕ} (hsize : size < 2 ^ 32)
    (hfits : (unitsOfScalars v.value).length < size) :
    getRawLoop api (unitsOfScalars v.name) (attempts + 1) size = .ok (encodeScalars v.value) := by
  have hcast : (UInt32.ofNat size).toNat = size := UInt32.toNat_ofNat_of_lt' hsize
  obtain ⟨hcopied, hbuffer, -⟩ := hdoc.fits v hv _ (UInt32.ofNat size) rfl (by rwa [hcast])
  have hpos : (unitsOfScalars v.value).length ≠ 0 := by
    obtain ⟨c, cs, hcons⟩ := List.exists_cons_of_ne_nil hvalue
    rw [hcons, unitsOfScalars_cons, List.length_append]
    have hunits : utf16Units c.toNat ≠ [] := by
      unfold utf16Units
      split_ifs <;> simp
    have := List.length_pos_iff.mpr hunits
    omega
  have hne : (api.getEnvironmentVariable (unitsOfScalars v.name) (UInt32.ofNat size)).copied ≠ 0 := by
    intro hzero
    rw [hzero] at hcopied
    exact hpos hcopied.symm
  rw [getRawLoop]
  simp only [hne, if_false, hcopied, hfits, if_true, hbuffer, utf16ToUtf8_scalars, lift_ok]

/-- A value that is not empty is read, with a buffer of the size that is needed at the latest. -/
theorem getRaw_found (hdoc : Documented upcase api vars) {v : Variable} (hv : v ∈ vars)
    (hvalue : v.value ≠ []) :
    getRaw api (encodeScalars v.name) = .ok (encodeScalars v.value) := by
  rw [getRaw_encodeScalars v.valid]
  by_cases hfits : (unitsOfScalars v.value).length < 256
  · exact getRawLoop_fits hdoc hv hvalue (by decide) hfits
  · have hcopied := hdoc.required v hv _ (UInt32.ofNat 256) rfl (Nat.not_lt.mp hfits)
    have hlt := (api.getEnvironmentVariable (unitsOfScalars v.name) (UInt32.ofNat 256)).copied.toNat_lt
    have hne :
        (api.getEnvironmentVariable (unitsOfScalars v.name) (UInt32.ofNat 256)).copied ≠ 0 := by
      intro hzero
      rw [hzero] at hcopied
      cases hcopied
    rw [getRawLoop]
    simp only [hne, if_false]
    rw [if_neg (by omega), hcopied]
    exact getRawLoop_fits hdoc hv hvalue (by omega) (Nat.lt_succ_self _)

/-- An empty value is taken for a failure. -/
theorem getRaw_empty (hdoc : Documented upcase api vars) {v : Variable} (hv : v ∈ vars)
    (hvalue : v.value = []) :
    getRaw api (encodeScalars v.name) = .error (.fail (.system errorGenFailure)) := by
  obtain ⟨hcopied, -, herror⟩ :=
    hdoc.fits v hv _ (UInt32.ofNat 256) rfl (by rw [hvalue]; decide)
  rw [hvalue] at hcopied
  have hzero : (api.getEnvironmentVariable (unitsOfScalars v.name) (UInt32.ofNat 256)).copied = 0 :=
    UInt32.toNat_inj.mp hcopied
  rw [getRaw_encodeScalars v.valid, getRawLoop]
  simp only [hzero, if_true, herror]
  rfl

theorem getRaw_missing (hdoc : Documented upcase api vars) {name : List Char} (hname : ValidName name)
    (h : ∀ v ∈ vars, ¬ SameName upcase v.name name) :
    getRaw api (encodeScalars name) = envFail .notFound := by
  obtain ⟨hcopied, herror⟩ := hdoc.missing (unitsOfScalars name) (UInt32.ofNat 256)
    fun v hv heq => h v hv heq.symm
  rw [getRaw_encodeScalars hname, getRawLoop]
  simp only [hcopied, if_true, herror]

theorem listEntry_entryOf (v : Variable) (out : List EnvironmentVariable) :
    listEntry out (entryOf v) = .ok (out ++ [v.record]) := by
  have hname : unitsOfScalars v.name ≠ [] := by
    intro hnil
    have hback := utf16ToUtf8_scalars v.name
    rw [hnil, ← unitsOfScalars_nil, utf16ToUtf8_scalars, Except.ok.injEq] at hback
    exact v.valid.encodeScalars_ne_nil hback.symm
  obtain ⟨u, units, hcons⟩ := List.exists_cons_of_ne_nil hname
  have hhead : ¬ (entryOf v = [] ∨ (entryOf v).head? = some 0x3D) := by
    have hno := v.valid.no_unit.1
    rw [hcons] at hno
    rw [entryOf, hcons]
    simp only [List.mem_cons, not_or] at hno
    simp [Ne.symm hno.1]
  have hlength : (unitsOfScalars v.name).length ≠ 0 := by simp [hcons]
  have htake : (entryOf v).take (unitsOfScalars v.name).length = unitsOfScalars v.name :=
    List.take_left
  have hdrop : (entryOf v).drop ((unitsOfScalars v.name).length + 1) = unitsOfScalars v.value := by
    rw [entryOf, ← List.drop_drop, List.drop_left]
    rfl
  have hindex : (entryOf v).idxOf? 0x3D = some (unitsOfScalars v.name).length :=
    idxOf?_append_cons v.valid.no_unit.1 _
  unfold listEntry
  rw [if_neg hhead, hindex]
  simp only [hlength, if_false, htake, hdrop, utf16ToUtf8_scalars, lift_ok, ok_bind]
  rfl

/-- The walk over the block finds the variables in their order. -/
theorem walkBlock_blockOf (vars : List Variable) (out : List EnvironmentVariable) :
    walkBlock (blockOf vars) out = .ok (out ++ vars.map Variable.record) := by
  induction vars generalizing out with
  | nil =>
    rw [walkBlock]
    simp [blockOf]
  | cons v vars ih =>
    have hblock : blockOf (v :: vars) = entryOf v ++ 0 :: blockOf vars := by
      simp [blockOf]
    have hno : (0 : UInt16) ∉ entryOf v := by
      have hvalue : (0 : UInt16) ∉ unitsOfScalars v.value := fun hmem =>
        v.value_nul (mem_of_mem_unitsOfScalars (by decide) hmem)
      simp only [entryOf, List.mem_append, List.mem_cons, not_or]
      exact ⟨v.valid.no_unit.2, by decide, hvalue⟩
    have hall : ∀ u ∈ entryOf v, decide (u ≠ 0) = true := by
      intro u hu
      have hne : u ≠ 0 := fun hzero => hno (hzero ▸ hu)
      simpa using hne
    have hentry : (blockOf (v :: vars)).takeWhile (· ≠ 0) = entryOf v := by
      rw [hblock, List.takeWhile_append_of_pos hall]
      simp
    have hne : blockOf (v :: vars) ≠ [] := by simp [hblock]
    have hhead : (blockOf (v :: vars)).head? ≠ some 0 := by
      intro hzero
      have hnonempty : entryOf v ≠ [] := by simp [entryOf]
      rw [hblock, List.head?_append_of_ne_nil _ hnonempty] at hzero
      exact hno (List.mem_of_mem_head? hzero)
    rw [walkBlock, dif_neg hne, if_neg hhead, hentry]
    dsimp only
    rw [listEntry_entryOf, ok_bind, hblock, ← List.drop_drop, List.drop_left, List.drop_succ_cons,
      List.drop_zero, ih]
    simp

theorem environmentVariables_eq (sorter : Sorter variableLess) (hdoc : Documented upcase api vars) :
    environmentVariables sorter api = .ok (sorter.sort (vars.map Variable.record)) := by
  rw [environmentVariables, hdoc.strings]
  simp only [walkBlock_blockOf, ok_bind, List.nil_append]

/-- On Windows the queries agree just if no value is empty. -/
theorem agrees_iff (sorter : Sorter variableLess)
    (hdistinct : (vars.map fun v => (unitsOfScalars v.name).map upcase).Nodup)
    (hdoc : Documented upcase api vars) :
    Agrees (backend sorter api) (SameName upcase) vars ↔ ∀ v ∈ vars, v.value ≠ [] := by
  have hget {name : List Char} (h : ValidName name) :
      (backend sorter api).get (encodeScalars name) = getRaw api (encodeScalars name) := by
    show get api _ = _
    rw [get, validateVariableName_eq h, ok_bind]
  have hhas {name : List Char} (h : ValidName name) :
      (backend sorter api).has (encodeScalars name) = hasResult (getRaw api (encodeScalars name)) := by
    show has api _ = _
    rw [has, validateVariableName_eq h, ok_bind]
  constructor
  · intro h v hv hvalue
    have hfound := (h.found v hv).1
    rw [hget v.valid, getRaw_empty hdoc hv hvalue] at hfound
    cases hfound
  · intro hvalues
    refine ⟨?_, ?_, ?_⟩
    · have hnames : (vars.map Variable.name).Nodup := by
        have hkeys : (vars.map fun v => (unitsOfScalars v.name).map upcase) =
            (vars.map Variable.name).map fun name => (unitsOfScalars name).map upcase := by simp
        rw [hkeys] at hdistinct
        exact hdistinct.of_map _
      exact ⟨sorter.sort (vars.map Variable.record), environmentVariables_eq sorter hdoc,
        sorter.perm _, sorted_by_name sorter (nodup_record hnames)⟩
    · intro v hv
      rw [hget v.valid, hhas v.valid, getRaw_found hdoc hv (hvalues v hv)]
      exact ⟨rfl, rfl⟩
    · intro name hname hother
      rw [hget hname, hhas hname, getRaw_missing hdoc hname hother]
      exact ⟨rfl, rfl⟩

/-- Native functions for an environment. -/
def lookupApi (upcase : UInt16 → UInt16) (vars : List Variable) : NativeApi where
  getEnvironmentVariable name size :=
    match vars.find? fun v => (unitsOfScalars v.name).map upcase = name.map upcase with
    | none => ⟨0, [], errorEnvvarNotFound⟩
    | some v =>
      let length := (unitsOfScalars v.value).length
      if length < size.toNat then ⟨UInt32.ofNat length, unitsOfScalars v.value ++ [0], errorSuccess⟩
      else ⟨UInt32.ofNat (length + 1), [], errorSuccess⟩
  getEnvironmentStrings := .ok (blockOf vars)

/-- They do what is documented, where the sizes can be returned. -/
theorem documented_lookupApi
    (hdistinct : (vars.map fun v => (unitsOfScalars v.name).map upcase).Nodup)
    (hlength : ∀ v ∈ vars, (unitsOfScalars v.value).length + 1 < 2 ^ 32) :
    Documented upcase (lookupApi upcase vars) vars := by
  have hcall {v : Variable} (hv : v ∈ vars) {name : List UInt16} (size : UInt32)
      (hname : name.map upcase = (unitsOfScalars v.name).map upcase) :
      (lookupApi upcase vars).getEnvironmentVariable name size =
        if (unitsOfScalars v.value).length < size.toNat then
          ⟨UInt32.ofNat (unitsOfScalars v.value).length, unitsOfScalars v.value ++ [0], errorSuccess⟩
        else ⟨UInt32.ofNat ((unitsOfScalars v.value).length + 1), [], errorSuccess⟩ := by
    show (match vars.find? _ with | none => _ | some v => _) = _
    rw [hname, find?_of_nodup hdistinct hv]
  refine ⟨rfl, ?_, ?_, ?_⟩
  · intro v hv name size hname hfits
    have hlt := hlength v hv
    rw [hcall hv size hname, if_pos hfits]
    exact ⟨UInt32.toNat_ofNat_of_lt' (lt_trans (Nat.lt_succ_self _) hlt), List.take_left, rfl⟩
  · intro v hv name size hname hlong
    rw [hcall hv size hname, if_neg (Nat.not_lt.mpr hlong)]
    exact UInt32.toNat_ofNat_of_lt' (hlength v hv)
  · intro name size hother
    have hnone : vars.find? (fun v => (unitsOfScalars v.name).map upcase = name.map upcase) = none := by
      rw [List.find?_eq_none]
      intro v hv
      simpa using (hother v hv).symm
    show (match vars.find? _ with | none => _ | some v => _ : NativeCall).copied = 0 ∧
      (match vars.find? _ with | none => _ | some v => _ : NativeCall).lastError = _
    rw [hnone]
    exact ⟨rfl, rfl⟩

end Windows

section Platforms

/-- One of the two platforms, with what the system brings along. -/
inductive Platform where
  | posix
  | windows (upcase : UInt16 → UInt16) (api : Windows.NativeApi)

namespace Platform

/-- Two names are of the same variable. -/
def SameName : Platform → List Char → List Char → Prop
  | .posix => Eq
  | .windows upcase _ => Windows.SameName upcase

/-- No two variables have the same name. -/
def Distinct (p : Platform) (vars : List Variable) : Prop :=
  vars.Pairwise fun v w => ¬ p.SameName v.name w.name

/-- The native functions do what is documented for them. -/
def Documented : Platform → List Variable → Prop
  | .posix, _ => True
  | .windows upcase api, vars => Windows.Documented upcase api vars

def backend (sorter : Sorter variableLess) (vars : List Variable) : Platform → Backend
  | .posix => Posix.backend sorter (Posix.environOf vars)
  | .windows _ api => Windows.backend sorter api

end Platform

/-- Lookup and enumeration agree just if no value is empty, or on POSIX systems. -/
theorem environment_agrees_iff (sorter : Sorter variableLess) (p : Platform) (vars : List Variable)
    (hdistinct : p.Distinct vars) (hdoc : p.Documented vars) :
    Agrees (p.backend sorter vars) p.SameName vars ↔
      p = .posix ∨ ∀ v ∈ vars, v.value ≠ [] := by
  cases p with
  | posix =>
    have hnames : (vars.map Variable.name).Nodup := List.pairwise_map.mpr hdistinct
    exact iff_of_true (Posix.agrees sorter hnames) (.inl rfl)
  | windows upcase api =>
    rw [or_iff_right (by simp)]
    exact Windows.agrees_iff sorter (List.pairwise_map.mpr hdistinct) hdoc

end Platforms

section Examples

/-- The comparison can be sorted by. -/
theorem strictWeak_variableLess : StrictWeak variableLess := by
  have hbytes : StrictTotal fun a b : List UInt8 =>
      decide (a.map UInt8.toNat < b.map UInt8.toNat) := by
    have hinj : Function.Injective fun a : List UInt8 => a.map UInt8.toNat :=
      List.map_injective_iff.mpr fun _ _ h => UInt8.toNat_inj.mp h
    convert StrictTotal.of_injective hinj using 3
    exact decide_eq_decide.mpr Iff.rfl
  exact .fieldThen hbytes (hbytes.on EnvironmentVariable.value)

/-- The upper case of an ASCII letter. -/
def asciiUpcase (u : UInt16) : UInt16 := if 0x61 ≤ u ∧ u ≤ 0x7A then u - 0x20 else u

/-- A variable of one letter. -/
def letterVariable (value : List Char) (h : Char.ofNat 0 ∉ value) : Variable where
  name := ['A']
  value := value
  valid := by
    refine ⟨by decide, by decide, by decide⟩
  value_nul := h

def letterPlatform (value : List Char) (h : Char.ofNat 0 ∉ value) : Platform :=
  .windows asciiUpcase (Windows.lookupApi asciiUpcase [letterVariable value h])

theorem letterPlatform_documented {value : List Char} (h : Char.ofNat 0 ∉ value)
    (hlength : (unitsOfScalars value).length + 1 < 2 ^ 32) :
    (letterPlatform value h).Documented [letterVariable value h] :=
  Windows.documented_lookupApi (List.nodup_singleton _) fun v hv => by
    rw [List.mem_singleton.mp hv]
    exact hlength

/-- Three variables with values. -/
def shellVariables : List Variable :=
  [⟨['P', 'a', 't', 'h'], ['C', ':', ';', 'D', ':'], ⟨by decide, by decide, by decide⟩, by decide⟩,
    letterVariable ['1'] (by decide),
    ⟨['h', 'o', 'm', 'e'], ['é', '='], ⟨by decide, by decide, by decide⟩, by decide⟩]

def shellPlatform : Platform := .windows asciiUpcase (Windows.lookupApi asciiUpcase shellVariables)

theorem shellPlatform_distinct :
    (shellVariables.map fun v => (unitsOfScalars v.name).map asciiUpcase).Nodup := by
  decide +kernel

/-- Variables with values are found as they are listed, by a name in any case. -/
theorem value_agrees :
    Agrees (shellPlatform.backend (Sorter.merge strictWeak_variableLess) shellVariables)
        shellPlatform.SameName shellVariables ∧
      (shellPlatform.backend (Sorter.merge strictWeak_variableLess) shellVariables).get
        (encodeScalars ['P', 'A', 'T', 'H']) = .ok (encodeScalars ['C', ':', ';', 'D', ':']) := by
  refine ⟨?_, by decide +kernel⟩
  have hdistinct : shellPlatform.Distinct shellVariables :=
    List.pairwise_map.mp shellPlatform_distinct
  have hdocumented : shellPlatform.Documented shellVariables :=
    Windows.documented_lookupApi shellPlatform_distinct (by decide +kernel)
  exact (environment_agrees_iff (Sorter.merge strictWeak_variableLess) shellPlatform _ hdistinct
    hdocumented).mpr (.inr (by decide))

/-- An empty variable is listed, but looking for it fails. -/
theorem empty_value_fails :
    (letterPlatform [] (by decide)).Documented [letterVariable [] (by decide)] ∧
    ((letterPlatform [] (by decide)).backend (Sorter.merge strictWeak_variableLess)
        [letterVariable [] (by decide)]).environmentVariables = .ok [⟨[0x41], []⟩] ∧
    ((letterPlatform [] (by decide)).backend (Sorter.merge strictWeak_variableLess)
        [letterVariable [] (by decide)]).get [0x41] =
      .error (.fail (.system Windows.errorGenFailure)) ∧
    ¬ Agrees ((letterPlatform [] (by decide)).backend (Sorter.merge strictWeak_variableLess)
        [letterVariable [] (by decide)])
      (letterPlatform [] (by decide)).SameName [letterVariable [] (by decide)] := by
  have hget : ((letterPlatform [] (by decide)).backend (Sorter.merge strictWeak_variableLess)
      [letterVariable [] (by decide)]).get [0x41] =
        .error (.fail (.system Windows.errorGenFailure)) := by
    decide +kernel
  have hdoc : (letterPlatform [] (by decide)).Documented [letterVariable [] (by decide)] :=
    letterPlatform_documented _ (by decide)
  refine ⟨hdoc, ?_, hget, ?_⟩
  · rw [← Sorter.sort_singleton (Sorter.merge strictWeak_variableLess) ⟨[0x41], []⟩]
    exact Windows.environmentVariables_eq _ hdoc
  · intro h
    have hfound := (h.found _ (List.mem_singleton_self _)).1
    have hname : encodeScalars (letterVariable [] (by decide)).name = [0x41] := by decide +kernel
    rw [hname, hget] at hfound
    cases hfound

end Examples

end Syscape.Environment
