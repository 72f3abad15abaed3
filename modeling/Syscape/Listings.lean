import Syscape.LinuxFile

/-!
# Directories that are scanned

A query opens directories one after the other, takes what it needs from the files in them, and
goes on after a failure. A directory or a file that does not exist counts for nothing. What such a
query makes of a directory depends only on what it finds there.
-/
namespace Syscape.Software
open Checked LinuxFile Text

section Directories

/-- What `opendir` and `readdir` report of a directory: it cannot be opened, or it has entries, and
reading them may fail behind the last one. -/
inductive Listing where
  | failed (errno : ℤ)
  | opened (names : List Path) (readError : Option ℤ)

/-- The loop over a directory, given what is done about a failure, about a directory that is opened
and about a name; hidden names are left out. -/
def scanListing {σ : Type} (fail : σ → Fault ErrorCode → σ) (opened : σ → σ)
    (entry : σ → Path → σ) (s : σ) : Listing → σ
  | .failed errno => if errno ≠ enoent then fail s (.fail (.generic errno)) else s
  | .opened names readError =>
    let s := names.foldl (fun s name => if name.head? = some 0x2E then s else entry s name) (opened s)
    match readError with
    | none => s
    | some errno => fail s (.fail (.generic errno))

/-- The name ends in that, and has something before it. -/
def hasSuffix (suffix name : Path) : Prop := name.length > suffix.length ∧ suffix <:+ name

instance (suffix name : Path) : Decidable (hasSuffix suffix name) :=
  inferInstanceAs (Decidable (_ ∧ _))

end Directories

section Findings
variable {α : Type}

/-- What a query comes across: a source that is there, something of value, or a failure. -/
inductive Finding (α : Type) where
  | source
  | record (a : α)
  | failure (e : Fault ErrorCode)
  deriving DecidableEq

/-- What is of value in a finding. -/
def Finding.record? : Finding α → Option α
  | .record a => some a
  | _ => none

/-- The failure of a finding. -/
def Finding.failure? : Finding α → Option (Fault ErrorCode)
  | .failure e => some e
  | _ => none

/-- What a query makes of a finding. -/
def see {σ : Type} (fail : σ → Fault ErrorCode → σ) (opened : σ → σ) (add : σ → α → σ) (s : σ) :
    Finding α → σ
  | .source => opened s
  | .record a => add s a
  | .failure e => fail s e

/-- What is found in a directory, given what is found under a name. -/
def Listing.findings (found : Path → List (Finding α)) : Listing → List (Finding α)
  | .failed errno => if errno = enoent then [] else [.failure (.fail (.generic errno))]
  | .opened names readError =>
    .source :: ((names.filter fun name => name.head? ≠ some 0x2E).flatMap found ++
      (readError.map fun errno => .failure (.fail (.generic errno))).toList)

theorem mem_filterMap_record? {findings : List (Finding α)} {a : α} :
    a ∈ findings.filterMap Finding.record? ↔ Finding.record a ∈ findings := by
  rw [List.mem_filterMap]
  constructor
  · rintro ⟨finding, hfinding, ha⟩
    cases finding with
    | record b =>
      cases ha
      exact hfinding
    | source => cases ha
    | failure e => cases ha
  · intro ha
    exact ⟨_, ha, rfl⟩

/-- A record in a directory is found under one of its names. -/
theorem exists_of_record_mem {listing : Listing} {found : Path → List (Finding α)} {a : α}
    (h : Finding.record a ∈ listing.findings found) : ∃ name, Finding.record a ∈ found name := by
  cases listing with
  | failed errno =>
    rw [Listing.findings] at h
    split_ifs at h
    · cases h
    · cases List.mem_singleton.mp h
  | opened names readError =>
    rcases List.mem_cons.mp h with h | h
    · cases h
    rcases List.mem_append.mp h with h | h
    · obtain ⟨name, -, h⟩ := List.mem_flatMap.mp h
      exact ⟨name, h⟩
    · cases readError with
      | none => cases h
      | some errno => cases List.mem_singleton.mp h

/-- The loop makes of the directory what it makes of the findings. -/
theorem scanListing_eq {σ : Type} {fail : σ → Fault ErrorCode → σ} {opened : σ → σ}
    {add : σ → α → σ} {entry : σ → Path → σ} {found : Path → List (Finding α)}
    (hentry : ∀ s name, entry s name = (found name).foldl (see fail opened add) s) (s : σ)
    (listing : Listing) :
    scanListing fail opened entry s listing =
      (listing.findings found).foldl (see fail opened add) s := by
  cases listing with
  | failed errno =>
    by_cases herrno : errno = enoent
    · rw [scanListing, if_neg (not_not_intro herrno), Listing.findings, if_pos herrno,
        List.foldl_nil]
    · rw [scanListing, if_pos herrno, Listing.findings, if_neg herrno]
      rfl
  | opened names readError =>
    have hnames : ∀ s, names.foldl (fun s name => if name.head? = some 0x2E then s else entry s name)
        s = ((names.filter fun name => name.head? ≠ some 0x2E).flatMap found).foldl
          (see fail opened add) s := by
      induction names with
      | nil => exact fun _ => rfl
      | cons name names ih =>
        intro s
        rw [List.foldl_cons, ih]
        by_cases hdot : name.head? = some 0x2E
        · rw [if_pos hdot, List.filter_cons_of_neg (by simpa using hdot)]
        · rw [if_neg hdot, List.filter_cons_of_pos (by simpa using hdot), List.flatMap_cons,
            List.foldl_append, hentry]
    unfold scanListing Listing.findings
    dsimp only
    rw [hnames, List.foldl_cons, List.foldl_append]
    cases readError with
    | none => rfl
    | some errno => rfl

/-- Records come from a source. -/
def FromSource (findings : List (Finding α)) : Prop :=
  ∀ a, Finding.record a ∈ findings → Finding.source ∈ findings

theorem FromSource.append {before behind : List (Finding α)} (h : FromSource before)
    (h' : FromSource behind) : FromSource (before ++ behind) := by
  intro a ha
  rcases List.mem_append.mp ha with ha | ha
  · exact List.mem_append_left _ (h a ha)
  · exact List.mem_append_right _ (h' a ha)

theorem fromSource_listing (listing : Listing) (found : Path → List (Finding α)) :
    FromSource (listing.findings found) := by
  intro a ha
  cases listing with
  | failed errno =>
    rw [Listing.findings] at ha
    split_ifs at ha
    · cases ha
    · cases List.mem_singleton.mp ha
  | opened names readError => exact List.mem_cons_self

theorem FromSource.flatMap {β : Type} {l : List β} {f : β → List (Finding α)}
    (h : ∀ b, FromSource (f b)) : FromSource (l.flatMap f) := by
  intro a ha
  obtain ⟨b, hb, ha⟩ := List.mem_flatMap.mp ha
  exact List.mem_flatMap.mpr ⟨b, hb, h b a ha⟩

/-- Where there is no source, there is no record. -/
theorem FromSource.eq_nil {findings : List (Finding α)} (h : FromSource findings)
    (hsource : Finding.source ∉ findings) : findings.filterMap Finding.record? = [] := by
  rw [List.filterMap_eq_nil_iff]
  intro finding hfinding
  cases finding with
  | record a => exact absurd (h a hfinding) hsource
  | source => rfl
  | failure e => rfl

end Findings

section DatabaseFiles
variable {α β : Type} {fs : FileSystem} {content : α → List UInt8}

/-- A file of a certain kind: it does not exist, it cannot be read, or it is written. -/
inductive DatabaseFile (α : Type) where
  | absent
  | fails (errno : ℤ)
  | written (a : α)

/-- The file as the system answers for it. -/
def DatabaseFile.entry (content : α → List UInt8) : DatabaseFile α → FileEntry
  | .absent => .absent
  | .fails errno => .unreadable errno
  | .written a => .content (content a)

/-- What is read of the file. -/
def DatabaseFile.read (content : α → List UInt8) (maximumSize : ℕ) :
    DatabaseFile α → Result (List UInt8)
  | .absent => failErrno enoent
  | .fails errno => failErrno errno
  | .written a => if (content a).length > maximumSize then fail .valueTooLarge else .ok (content a)

/-- What is found in a file, given the errors that count for nothing. -/
def DatabaseFile.findings (ignored : List ℤ) (maximumSize : ℕ) (content : α → List UInt8)
    (found : α → List (Finding β)) : DatabaseFile α → List (Finding β)
  | .absent => []
  | .fails errno => if errno ∈ ignored then [] else [.failure (.fail (.generic errno))]
  | .written a =>
    if (content a).length > maximumSize then [.failure (.fail (.syscape .valueTooLarge))] else found a

theorem readTextFile_entry {path : Path} {file : DatabaseFile α} (h : fs path = file.entry content)
    (maximumSize : ℕ) : readTextFile fs path maximumSize = file.read content maximumSize := by
  rw [readTextFile, h]
  cases file with
  | absent => rfl
  | fails errno => rfl
  | written a => rfl

/-- A file that cannot be read counts unless it does not exist. -/
theorem foldl_findings_fails {σ : Type} (fail : σ → Fault ErrorCode → σ) (opened : σ → σ)
    (add : σ → β → σ) (errno : ℤ) (maximumSize : ℕ) (content : α → List UInt8)
    (found : α → List (Finding β)) (s : σ) :
    ((DatabaseFile.fails errno).findings [enoent] maximumSize content found).foldl
        (see fail opened add) s =
      if isNoSuchFile (.fail (.generic errno)) = false then fail s (.fail (.generic errno))
      else s := by
  rw [DatabaseFile.findings]
  by_cases hnoSuch : errno = enoent
  · rw [if_pos (List.mem_singleton.mpr hnoSuch), if_neg (by simp [isNoSuchFile, hnoSuch]),
      List.foldl_nil]
  · rw [if_neg (by simpa using hnoSuch), if_pos (by simpa [isNoSuchFile] using hnoSuch)]
    rfl

end DatabaseFiles

end Syscape.Software
