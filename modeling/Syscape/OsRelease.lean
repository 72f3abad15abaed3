import Syscape.Error
import Syscape.Lib.Fallback
import Syscape.Lib.Lines
import Syscape.Lib.Text

/-!
# The release of the system

The file os-release has a key and a value on each line; values may be quoted. Where a field has
no value of its own, it takes that of an older key for the same thing.
-/
namespace Syscape.Os
open Checked Text Lines Fallback

section Parser

/-- `release_information`. -/
structure ReleaseInformation where
  name : List UInt8 := []
  prettyName : List UInt8 := []
  versionId : List UInt8 := []
  buildId : List UInt8 := []
  imageId : List UInt8 := []
  deriving DecidableEq, Repr

/-- The keys that are read. -/
inductive ReleaseKey where
  | name
  | prettyName
  | versionId
  | buildId
  | imageId
  | distribId
  | distribDescription
  | distribRelease
  | chromeosReleaseName
  | chromeosReleaseVersion
  | chromeosReleaseBuildNumber
  deriving DecidableEq, Repr

/-- A key as it is written. -/
def ReleaseKey.text : ReleaseKey → List UInt8
  | .name => ascii "NAME"
  | .prettyName => ascii "PRETTY_NAME"
  | .versionId => ascii "VERSION_ID"
  | .buildId => ascii "BUILD_ID"
  | .imageId => ascii "IMAGE_ID"
  | .distribId => ascii "DISTRIB_ID"
  | .distribDescription => ascii "DISTRIB_DESCRIPTION"
  | .distribRelease => ascii "DISTRIB_RELEASE"
  | .chromeosReleaseName => ascii "CHROMEOS_RELEASE_NAME"
  | .chromeosReleaseVersion => ascii "CHROMEOS_RELEASE_VERSION"
  | .chromeosReleaseBuildNumber => ascii "CHROMEOS_RELEASE_BUILD_NUMBER"

/-- The keys in the order in which they are compared. -/
def releaseKeys : List ReleaseKey :=
  [.name, .prettyName, .versionId, .buildId, .imageId, .distribId, .distribDescription,
    .distribRelease, .chromeosReleaseName, .chromeosReleaseVersion, .chromeosReleaseBuildNumber]

/-- `is_space`. -/
def isSpace (value : UInt8) : Bool := value == 0x20 || value == 0x09

/-- The loop of `decode_os_release_value` over what is in quotes. -/
def decodeQuoted (quote : UInt8) (input : List UInt8) (index : ℕ) (output : List UInt8) :
    Result (List UInt8) := do
  if index + 1 < input.length then
    let value ← read input index
    if value = 0x5C ∧ quote = 0x22 then
      if index + 2 ≥ input.length then fail .malformedData
      else do
        let next ← read input (index + 1)
        decodeQuoted quote input (index + 2) (output ++ [next])
    else decodeQuoted quote input (index + 1) (output ++ [value])
  else .ok output
termination_by input.length - index

/-- `decode_os_release_value`. -/
def decodeOsReleaseValue (input : List UInt8) : Result (List UInt8) :=
  let input := (input.dropWhile isSpace).rdropWhile isSpace
  match input.head? with
  | none => .ok []
  | some quote =>
    if quote ≠ 0x27 ∧ quote ≠ 0x22 then .ok input
    else if input.length < 2 ∨ input.getLast? ≠ some quote then fail .malformedData
    else decodeQuoted quote input 1 []

/-- The key and the value of a line; nothing for an empty line, a comment or another key. -/
def releaseEntry (line : List UInt8) : Result (Option (ReleaseKey × List UInt8)) :=
  let line := if line.getLast? = some 0x0D then line.dropLast else line
  let line := line.dropWhile isSpace
  if line = [] ∨ line.head? = some 0x23 then .ok none
  else
    match line.idxOf? 0x3D with
    | none => fail .malformedData
    | some separator =>
      if separator = 0 then fail .malformedData
      else do
        let key := line.take separator
        let value ← decodeOsReleaseValue (line.drop (separator + 1))
        .ok ((releaseKeys.find? fun known => known.text = key).map fun known => (known, value))

/-- What a key and its value make of the record. -/
def assign (output : ReleaseInformation) (entry : ReleaseKey × List UInt8) : ReleaseInformation :=
  match entry.1 with
  | .name => { output with name := entry.2 }
  | .prettyName => { output with prettyName := entry.2 }
  | .versionId => { output with versionId := entry.2 }
  | .buildId => { output with buildId := entry.2 }
  | .imageId => { output with imageId := entry.2 }
  | .distribId => if output.name = [] then { output with name := entry.2 } else output
  | .distribDescription =>
    if output.prettyName = [] then { output with prettyName := entry.2 } else output
  | .distribRelease =>
    if output.versionId = [] then { output with versionId := entry.2 } else output
  | .chromeosReleaseName => if output.name = [] then { output with name := entry.2 } else output
  | .chromeosReleaseVersion =>
    if output.versionId = [] then { output with versionId := entry.2 } else output
  | .chromeosReleaseBuildNumber =>
    if output.buildId = [] then { output with buildId := entry.2 } else output

/-- One line. -/
def parseLine (output : ReleaseInformation) (line : List UInt8) : Result ReleaseInformation := do
  match ← releaseEntry line with
  | none => .ok output
  | some entry => .ok (assign output entry)

/-- `parse_os_release`. -/
def parseOsRelease (input : List UInt8) : Result ReleaseInformation :=
  (lines 0x0A input).foldlM parseLine {}

end Parser

section Values

/-- A byte in double quotes; four bytes stand behind a backslash. -/
def escapeByte (c : UInt8) : List UInt8 :=
  if c = 0x22 ∨ c = 0x5C ∨ c = 0x24 ∨ c = 0x60 then [0x5C, c] else [c]

/-- A value in double quotes. -/
def doubleQuoted (value : List UInt8) : List UInt8 := [0x22] ++ value.flatMap escapeByte ++ [0x22]

/-- A value in single quotes. -/
def singleQuoted (value : List UInt8) : List UInt8 := [0x27] ++ value ++ [0x27]

/-- A byte of a value is decoded. -/
theorem decodeQuoted_escapeByte (front behind output : List UInt8) (c : UInt8) :
    decodeQuoted 0x22 (front ++ escapeByte c ++ (behind ++ [0x22])) front.length output =
      decodeQuoted 0x22 (front ++ escapeByte c ++ (behind ++ [0x22]))
        (front ++ escapeByte c).length (output ++ [c]) := by
  unfold escapeByte
  split_ifs with hspecial
  · have hnext : (read (front ++ ([0x5C, c] ++ (behind ++ [0x22]))) (front.length + 1) :
        Result UInt8) = .ok c := read_append_right _ _ 1
    rw [decodeQuoted, if_pos (by simp), List.append_assoc, read_append_length, hnext]
    simp
  · have hbackslash : c ≠ 0x5C := fun h => hspecial (.inr (.inl h))
    rw [decodeQuoted, if_pos (by simp), List.append_assoc, read_append_length]
    simp [hbackslash]

theorem decodeQuoted_double (front value output : List UInt8) :
    decodeQuoted 0x22 (front ++ value.flatMap escapeByte ++ [0x22]) front.length output =
      .ok (output ++ value) := by
  induction value generalizing front output with
  | nil =>
    rw [decodeQuoted]
    simp
  | cons c value ih =>
    have hbyte := decodeQuoted_escapeByte front (value.flatMap escapeByte) output c
    have hmore := ih (front ++ escapeByte c) (output ++ [c])
    simp only [List.append_assoc, List.flatMap_cons, List.singleton_append] at hbyte hmore ⊢
    rw [hbyte, hmore]

theorem decodeQuoted_single (front value output : List UInt8) :
    decodeQuoted 0x27 (front ++ value ++ [0x27]) front.length output = .ok (output ++ value) := by
  induction value generalizing front output with
  | nil =>
    rw [decodeQuoted]
    simp
  | cons c value ih =>
    have hmore := ih (front ++ [c]) (output ++ [c])
    rw [decodeQuoted, if_pos (by simp), List.append_assoc, List.cons_append, read_append_length]
    simp only [List.append_assoc, List.singleton_append, List.length_append,
      List.length_singleton] at hmore
    simpa using hmore

/-- Nothing is trimmed from a quoted value. -/
theorem decodeOsReleaseValue_quoted {quote : UInt8} (hquote : quote = 0x27 ∨ quote = 0x22)
    (text : List UInt8) :
    decodeOsReleaseValue ([quote] ++ text ++ [quote]) =
      decodeQuoted quote ([quote] ++ text ++ [quote]) 1 [] := by
  have hblank : isSpace quote = false := by rcases hquote with rfl | rfl <;> decide
  have htrim : (([quote] ++ text ++ [quote]).dropWhile isSpace).rdropWhile isSpace =
      [quote] ++ text ++ [quote] := by
    rw [List.append_assoc, List.singleton_append, List.dropWhile_cons_of_neg (by simp [hblank]),
      ← List.cons_append, List.rdropWhile_concat_neg]
    simpa using hblank
  have hknown : ¬ (quote ≠ 0x27 ∧ quote ≠ 0x22) := by
    rintro ⟨hsingle, hdouble⟩
    exact hquote.elim hsingle hdouble
  have hhead : ([quote] ++ text ++ [quote]).head? = some quote := rfl
  have hends : ¬ (([quote] ++ text ++ [quote]).length < 2 ∨
      ([quote] ++ text ++ [quote]).getLast? ≠ some quote) := by
    rw [List.getLast?_concat]
    simp
  simp only [decodeOsReleaseValue, htrim, hhead, if_neg hknown, if_neg hends]

theorem decodeOsReleaseValue_double (value : List UInt8) :
    decodeOsReleaseValue (doubleQuoted value) = .ok value := by
  rw [doubleQuoted, decodeOsReleaseValue_quoted (.inr rfl)]
  exact decodeQuoted_double [0x22] value []

theorem decodeOsReleaseValue_single (value : List UInt8) :
    decodeOsReleaseValue (singleQuoted value) = .ok value := by
  rw [singleQuoted, decodeOsReleaseValue_quoted (.inl rfl)]
  exact decodeQuoted_single [0x27] value []

end Values

section Fields

/-- The fields of the record. -/
inductive ReleaseField where
  | name
  | prettyName
  | versionId
  | buildId
  | imageId
  deriving DecidableEq, Repr

def ReleaseInformation.get (info : ReleaseInformation) : ReleaseField → List UInt8
  | .name => info.name
  | .prettyName => info.prettyName
  | .versionId => info.versionId
  | .buildId => info.buildId
  | .imageId => info.imageId

/-- The key of a field. -/
def ReleaseField.key : ReleaseField → ReleaseKey
  | .name => .name
  | .prettyName => .prettyName
  | .versionId => .versionId
  | .buildId => .buildId
  | .imageId => .imageId

/-- The older keys for a field. -/
def ReleaseField.hasFallback : ReleaseField → ReleaseKey → Bool
  | .name, .distribId => true
  | .name, .chromeosReleaseName => true
  | .prettyName, .distribDescription => true
  | .versionId, .distribRelease => true
  | .versionId, .chromeosReleaseVersion => true
  | .buildId, .chromeosReleaseBuildNumber => true
  | _, _ => false

/-- A field is a value with fallbacks. -/
theorem get_assign (output : ReleaseInformation) (entry : ReleaseKey × List UInt8)
    (field : ReleaseField) :
    (assign output entry).get field =
      put field.key field.hasFallback [] (output.get field) entry := by
  obtain ⟨key, value⟩ := entry
  cases key <;> cases field <;>
    simp only [assign, put, ReleaseField.key, ReleaseField.hasFallback, ReleaseInformation.get,
      reduceCtorEq, if_true, if_false, true_and, false_and, Bool.false_eq_true] <;>
    split_ifs <;> rfl

theorem ReleaseInformation.ext_get {a b : ReleaseInformation} (h : ∀ field, a.get field = b.get field) :
    a = b := by
  cases a
  cases b
  exact ReleaseInformation.mk.injEq .. |>.mpr
    ⟨h .name, h .prettyName, h .versionId, h .buildId, h .imageId⟩

theorem get_foldl_assign (entries : List (ReleaseKey × List UInt8)) (output : ReleaseInformation)
    (field : ReleaseField) :
    (entries.foldl assign output).get field =
      entries.foldl (put field.key field.hasFallback []) (output.get field) := by
  induction entries generalizing output with
  | nil => rfl
  | cons entry entries ih => rw [List.foldl_cons, List.foldl_cons, ih, get_assign]

end Fields

section Lines
variable {text other : List UInt8} {out : ReleaseInformation}

/-- What a line gives, if it is not refused. -/
def given (line : List UInt8) : Option (ReleaseKey × List UInt8) :=
  (releaseEntry line).toOption.join

/-- The known keys with their values. -/
def entries (text : List UInt8) : List (ReleaseKey × List UInt8) :=
  (lines 0x0A text).filterMap given

theorem decodeQuoted_cases (quote : UInt8) (input : List UInt8) (index : ℕ) (output : List UInt8) :
    (∃ value, decodeQuoted quote input index output = .ok value) ∨
      decodeQuoted quote input index output = fail .malformedData := by
  fun_induction decodeQuoted quote input index output with
  | case1 index output hlt ih1 ih2 =>
    rw [read_of_lt (Nat.lt_of_succ_lt hlt), ok_bind]
    split_ifs with hescape hend
    · exact .inr rfl
    · rw [read_of_lt hlt, ok_bind]
      exact ih1 hend _
    · exact ih2 _
  | case2 index output hlt => exact .inl ⟨output, rfl⟩

theorem parseLine_eq_ok (output : ReleaseInformation) (line : List UInt8)
    (output' : ReleaseInformation) :
    parseLine output line = .ok output' ↔
      (∃ entry, releaseEntry line = .ok entry) ∧ output' = (given line).elim output (assign output) := by
  rw [parseLine, given]
  cases releaseEntry line with
  | error error => simp
  | ok entry => cases entry <;> simp [Except.toOption, eq_comm]

/-- The lines that are not refused are assigned one after the other. -/
theorem parseOsRelease_eq_ok : parseOsRelease text = .ok out ↔
    (∀ line ∈ lines 0x0A text, ∃ entry, releaseEntry line = .ok entry) ∧
      out = (entries text).foldl assign {} := by
  have hfold (found : List (List UInt8)) (output : ReleaseInformation) :
      found.foldl (fun output line => (given line).elim output (assign output)) output =
        (found.filterMap given).foldl assign output := by
    induction found generalizing output with
    | nil => rfl
    | cons line found ih =>
      rw [List.foldl_cons, ih, List.filterMap_cons]
      cases given line <;> rfl
  rw [parseOsRelease, foldlM_eq_ok parseLine_eq_ok, entries, hfold]

theorem decodeOsReleaseValue_cases (input : List UInt8) :
    (∃ value, decodeOsReleaseValue input = .ok value) ∨
      decodeOsReleaseValue input = fail .malformedData := by
  unfold decodeOsReleaseValue
  simp only
  split
  · exact .inl ⟨_, rfl⟩
  · split_ifs
    · exact .inl ⟨_, rfl⟩
    · exact .inr rfl
    · exact decodeQuoted_cases _ _ _ _

/-- A line is read or refused as malformed. -/
theorem releaseEntry_cases (line : List UInt8) :
    (∃ entry, releaseEntry line = .ok entry) ∨ releaseEntry line = fail .malformedData := by
  unfold releaseEntry
  simp only
  generalize (if line.getLast? = some 0x0D then line.dropLast else line).dropWhile isSpace = line
  split_ifs
  · exact .inl ⟨_, rfl⟩
  · split
    · exact .inr rfl
    · rename_i separator _
      split_ifs
      · exact .inr rfl
      · rcases decodeOsReleaseValue_cases (line.drop (separator + 1)) with ⟨value, hvalue⟩ | hbad
        · exact .inl ⟨_, by rw [hvalue]; rfl⟩
        · exact .inr (by rw [hbad]; rfl)

/-- A file is read or refused as malformed. -/
theorem parseOsRelease_cases (text : List UInt8) :
    (∃ out, parseOsRelease text = .ok out) ∨ parseOsRelease text = fail .malformedData := by
  unfold parseOsRelease
  generalize ({} : ReleaseInformation) = output
  induction lines 0x0A text generalizing output with
  | nil => exact .inl ⟨output, rfl⟩
  | cons line found ih =>
    rw [List.foldlM_cons, parseLine]
    rcases releaseEntry_cases line with ⟨entry, hentry⟩ | hbad
    · rw [hentry, ok_bind]
      cases entry <;> exact ih _
    · rw [hbad]
      exact .inr rfl

/-- A field is the value of its key, and otherwise its first fallback. -/
theorem get_parseOsRelease (h : parseOsRelease text = .ok out) (field : ReleaseField) :
    out.get field = (entries text).foldl (put field.key field.hasFallback []) [] := by
  obtain ⟨-, rfl⟩ := parseOsRelease_eq_ok.mp h
  rw [get_foldl_assign]
  cases field <;> rfl

/-- What decides a field is the same in both lists of entries: its own value if it is not empty,
and otherwise the fallbacks, unless there are some and an empty value. -/
def Settled (field : ReleaseField) (found other : List (ReleaseKey × List UInt8)) : Prop :=
  (∃ value, (field.key, value) ∈ found ∧ value ≠ []) ∨
    ((∀ value, (field.key, value) ∈ found → value = [] ∧
      fallbacks field.hasFallback [] found = []) ∧
        fallbacks field.hasFallback [] other = fallbacks field.hasFallback [] found)

theorem foldl_put_of_settled {field : ReleaseField} {found more : List (ReleaseKey × List UInt8)}
    (hkeys : (found.map Prod.fst).Nodup) (hperm : found.Perm more) (h : Settled field found more) :
    more.foldl (put field.key field.hasFallback []) [] =
      found.foldl (put field.key field.hasFallback []) [] := by
  have hmore : (more.map Prod.fst).Nodup := (hperm.map _).nodup_iff.mp hkeys
  rcases h with ⟨value, hmem, hne⟩ | ⟨hprimary, hsame⟩
  · rw [foldl_put_of_mem hkeys hmem hne, foldl_put_of_mem hmore (hperm.mem_iff.mp hmem) hne]
  · rw [foldl_put_of_forall hkeys hprimary, foldl_put_of_forall hmore, first, first, hsame]
    intro value hmem
    rw [hsame]
    exact hprimary value (hperm.mem_iff.mpr hmem)

theorem entries_perm (h : (lines 0x0A text).Perm (lines 0x0A other)) :
    (entries text).Perm (entries other) := h.filterMap _

/-- No order of the lines is refused if one is read. -/
theorem exists_parseOsRelease_perm (h : (lines 0x0A text).Perm (lines 0x0A other)) :
    (∃ out, parseOsRelease other = .ok out) ↔ ∃ out, parseOsRelease text = .ok out := by
  simp only [parseOsRelease_eq_ok, exists_and_left, exists_eq, and_true]
  exact ⟨fun hall line hline => hall line (h.mem_iff.mp hline),
    fun hall line hline => hall line (h.mem_iff.mpr hline)⟩

theorem parseOsRelease_perm (hkeys : ((entries text).map Prod.fst).Nodup)
    (hperm : (lines 0x0A text).Perm (lines 0x0A other))
    (hsettled : ∀ field, Settled field (entries text) (entries other)) :
    parseOsRelease other = parseOsRelease text := by
  rcases parseOsRelease_cases text with ⟨out, hout⟩ | hbad
  · obtain ⟨out', hout'⟩ := (exists_parseOsRelease_perm hperm).mpr ⟨out, hout⟩
    rw [hout, hout', Except.ok.injEq]
    apply ReleaseInformation.ext_get
    intro field
    rw [get_parseOsRelease hout, get_parseOsRelease hout',
      foldl_put_of_settled hkeys (entries_perm hperm) (hsettled field)]
  · rcases parseOsRelease_cases other with hok | hother
    · obtain ⟨out, hout⟩ := (exists_parseOsRelease_perm hperm).mp hok
      rw [hout] at hbad
      exact absurd hbad (ok_ne_fail _ _)
    · rw [hbad, hother]

end Lines

theorem os_release_decoding :
    (∀ value, decodeOsReleaseValue (doubleQuoted value) = .ok value ∧
      decodeOsReleaseValue (singleQuoted value) = .ok value) ∧
    ∀ text, ((entries text).map Prod.fst).Nodup →
      (∀ out, parseOsRelease text = .ok out → ∀ field : ReleaseField,
        (∀ value, (field.key, value) ∈ entries text → value ≠ [] → out.get field = value) ∧
        ((∀ value, (field.key, value) ∈ entries text → value = [] ∧
            fallbacks field.hasFallback [] (entries text) = []) →
          out.get field = first field.hasFallback [] (entries text))) ∧
      ∀ other, (lines 0x0A text).Perm (lines 0x0A other) →
        ((∃ out, parseOsRelease other = .ok out) ↔ ∃ out, parseOsRelease text = .ok out) ∧
        ((∀ field, Settled field (entries text) (entries other)) →
          parseOsRelease other = parseOsRelease text) := by
  refine ⟨fun value => ⟨decodeOsReleaseValue_double value, decodeOsReleaseValue_single value⟩, ?_⟩
  intro text hkeys
  refine ⟨fun out hout field => ?_, fun other hperm =>
    ⟨exists_parseOsRelease_perm hperm, parseOsRelease_perm hkeys hperm⟩⟩
  rw [get_parseOsRelease hout]
  exact ⟨fun value hmem hne => foldl_put_of_mem hkeys hmem hne _, foldl_put_of_forall hkeys⟩

/-- The name of a distribution is used without a name. -/
theorem os_release_decoding_distrib :
    ∃ out, parseOsRelease (ascii "ID=foo\nDISTRIB_ID=Foo\n") = .ok out ∧ out.name = ascii "Foo" := by
  have hrun : parseOsRelease (ascii "ID=foo\nDISTRIB_ID=Foo\n") = .ok { name := ascii "Foo" } := by
    decide +kernel
  have hentries : entries (ascii "ID=foo\nDISTRIB_ID=Foo\n") = [(.distribId, ascii "Foo")] := by
    decide +kernel
  have hdecoding := os_release_decoding.2 (ascii "ID=foo\nDISTRIB_ID=Foo\n")
    (by rw [hentries]; decide)
  refine ⟨_, hrun, (hdecoding.1 _ hrun .name).2 ?_ |>.trans ?_⟩
  · intro value hmem
    rw [hentries, List.mem_singleton] at hmem
    cases hmem
  · rw [hentries]
    decide

/-- Of two older keys for the name the first one counts. -/
theorem fallback_order_matters :
    ∃ text other, ((entries text).map Prod.fst).Nodup ∧
      (lines 0x0A text).Perm (lines 0x0A other) ∧ parseOsRelease text ≠ parseOsRelease other := by
  refine ⟨ascii "DISTRIB_ID=a\nCHROMEOS_RELEASE_NAME=b\n",
    ascii "CHROMEOS_RELEASE_NAME=b\nDISTRIB_ID=a\n", ?_, ?_, ?_⟩
  · decide +kernel
  · have hlines : lines 0x0A (ascii "DISTRIB_ID=a\nCHROMEOS_RELEASE_NAME=b\n") =
        [ascii "DISTRIB_ID=a", ascii "CHROMEOS_RELEASE_NAME=b"] := by decide +kernel
    have hother : lines 0x0A (ascii "CHROMEOS_RELEASE_NAME=b\nDISTRIB_ID=a\n") =
        [ascii "CHROMEOS_RELEASE_NAME=b", ascii "DISTRIB_ID=a"] := by decide +kernel
    rw [hlines, hother]
    exact .swap _ _ _
  · decide +kernel

end Syscape.Os
