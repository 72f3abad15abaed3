import Syscape.CpuRecords
import Mathlib.Algebra.BigOperators.Group.Finset.Basic
import Mathlib.Data.Nat.Bitwise

/-!
# Processors that change while Windows is asked

A query about the processors returns what holds at one moment of its run. It gives up only if the
processors have changed at least four times.
-/
namespace Syscape.CpuWindows
open Calls Checked Cpu Endian Frames Moments StdSort

section Topology

/-- The payload of a record. -/
structure Payload where
  bytes : List UInt8
  length_lt : bytes.length + 8 < 2 ^ 32

/-- A cache as Windows records it. -/
structure CacheRecord extends CacheRelationship where
  reserved : List UInt8
  behind : List UInt8
  level_lt : level < 256
  associativity_lt : associativity < 256
  lineSize_lt : lineSize < 256 ^ 2
  cacheSize_lt : cacheSize < 256 ^ 4
  type_lt : type < 256 ^ 4
  mask_lt : mask < 256 ^ 8
  group_lt : group < 256 ^ 2
  length_reserved : reserved.length = 20
  length_behind : 6 ≤ behind.length ∧ behind.length < 2 ^ 31

/-- A `CACHE_RELATIONSHIP` in memory. -/
def CacheRecord.bytes (r : CacheRecord) : List UInt8 :=
  leBytes 1 r.level ++ (leBytes 1 r.associativity ++ (leBytes 2 r.lineSize ++
    (leBytes 4 r.cacheSize ++ (leBytes 4 r.type ++ (r.reserved ++ (leBytes 8 r.mask ++
      (leBytes 2 r.group ++ r.behind)))))))

theorem CacheRecord.length_bytes (r : CacheRecord) : r.bytes.length = 42 + r.behind.length := by
  simp only [bytes, List.length_append, length_leBytes, r.length_reserved]
  omega

def CacheRecord.payload (r : CacheRecord) : Payload where
  bytes := r.bytes
  length_lt := by
    have hbehind := r.length_behind
    rw [r.length_bytes]
    omega

/-- The processors of a machine: its groups, its caches and its other records, or the error of
the system. -/
structure Topology where
  groups : ℕ
  caches : Except ℕ (List CacheRecord)
  others : ℕ → Except ℕ (List Payload)
  caches_ne : caches ≠ .error errorInsufficientBuffer
  others_ne : ∀ relationship, others relationship ≠ .error errorInsufficientBuffer

/-- The records of a kind. -/
def Topology.records (m : Topology) (relationship : ℕ) : Except ℕ (List Payload) :=
  if relationship = relationCache then m.caches.map (List.map CacheRecord.payload)
  else m.others relationship

/-- The record as a frame. -/
def recordFrame (relationship : ℕ) (p : Payload) : Frame where
  header := leBytes 4 relationship ++ leBytes 4 (p.bytes.length + 8)
  payload := p.bytes

/-- The records one after another. -/
def recordBytes (relationship : ℕ) (payloads : List Payload) : List UInt8 :=
  (payloads.map (recordFrame relationship)).flatMap recordLayout.encode

/-- The answer of `GetLogicalProcessorInformationEx`. -/
def information (m : Topology) (relationship size : ℕ) : Except (ℕ × ℕ) (List UInt8) :=
  match m.records relationship with
  | .error code => .error (code, size)
  | .ok payloads =>
    if (recordBytes relationship payloads).length ≤ size then
      .ok (recordBytes relationship payloads)
    else .error (errorInsufficientBuffer, (recordBytes relationship payloads).length)

/-- The answers to the calls. -/
def reply (m : Topology) : (c : Call) → Answer c
  | .groupCount => m.groups
  | .information relationship size => information m relationship size

/-- No call is interrupted. -/
def interruption (c : Call) : Option (Answer c) := none

abbrev windows : System Call Answer (World Topology) := system reply interruption

theorem Topology.records_ne (m : Topology) (relationship : ℕ) :
    m.records relationship ≠ .error errorInsufficientBuffer := by
  unfold records
  split_ifs
  · intro h
    cases hcaches : m.caches with
    | error code =>
      rw [hcaches] at h
      cases h
      exact m.caches_ne hcaches
    | ok records =>
      rw [hcaches] at h
      cases h
  · exact m.others_ne relationship

end Topology

section Attempts
variable {w : World Topology} {start relationship : ℕ}

/-- The records of a kind, if there are any and if they fit the largest buffer. -/
def recordsOf (relationship : ℕ) (m : Topology) : NativeResult (List UInt8) :=
  match m.records relationship with
  | .error code => failSystem code
  | .ok payloads =>
    let bytes := recordBytes relationship payloads
    if bytes = [] then failWith .malformedData
    else if bytes.length > maximumBuffer then failWith .resourceExhausted
    else .ok bytes

/-- The result was right at some time, or there have been four changes since the start. -/
def Settled {α : Type} (p : Topology → NativeResult α → Prop) (start : ℕ) (r : NativeResult α)
    (w : World Topology) : Prop :=
  Seen p r w ∨ r = failWith .temporarilyUnavailable ∧ w.changes + 4 ≤ start

/-- The size of a buffer was the right one at some time. If there have been as many changes as
attempts, it is right now. -/
structure Sized (relationship start : ℕ) (s : ℕ × ℕ) (w : World Topology) : Prop where
  recorded : Recorded w
  attempts_le : s.1 ≤ 4
  changes_le : w.changes + s.1 ≤ start
  size_pos : 0 < s.2
  size_seen : ∃ m ∈ w.past, ∃ payloads, m.records relationship = .ok payloads ∧
    (recordBytes relationship payloads).length = s.2
  fits_of_eq : w.changes + s.1 = start → ∀ payloads, w.facts.records relationship = .ok payloads →
    (recordBytes relationship payloads).length ≤ s.2

theorem changes_of_changes {w w' : World Topology} (h : Changes w w') :
    w.changes = w'.changes + 1 := by
  cases h with
  | changes facts hn => exact hn

theorem changes_le_of_interference {w w' : World Topology} (h : Interference windows w w') :
    w'.changes ≤ w.changes := by
  induction h with
  | refl => exact le_rfl
  | tail _ hstep ih =>
    have hless := changes_of_changes hstep
    omega

theorem Settled.changes {α : Type} {p : Topology → NativeResult α → Prop} {r : NativeResult α}
    {w w' : World Topology} (h : Settled p start r w) (hw : Interference windows w w') :
    Settled p start r w' := by
  rcases h with h | ⟨hr, hchanges⟩
  · exact .inl (h.interference hw)
  · have hle := changes_le_of_interference hw
    exact .inr ⟨hr, by omega⟩

theorem Sized.changes {s : ℕ × ℕ} {w w' : World Topology} (h : Sized relationship start s w)
    (hw : Changes w w') : Sized relationship start s w' := by
  have hless := changes_of_changes hw
  have hle := h.changes_le
  obtain ⟨m, hm, hseen⟩ := h.size_seen
  exact ⟨.changes hw, h.attempts_le, by omega, h.size_pos, ⟨m, (past_of_changes hw).1 m hm, hseen⟩,
    fun heq => by omega⟩

theorem Sized.interference {s : ℕ × ℕ} {w w' : World Topology} (h : Sized relationship start s w)
    (hw : Interference windows w w') : Sized relationship start s w' := by
  induction hw with
  | refl => exact h
  | tail _ hstep ih => exact ih.changes hstep

/-- What an attempt makes of the answer at a moment. -/
theorem afterAttempt_reply {s : ℕ × ℕ} (h : Sized relationship start s w)
    (hlt : s.1 < 4) (hmax : s.2 ≤ maximumBuffer) :
    match afterAttempt s.1 s.2 (information w.facts relationship s.2) with
    | .inr r => r = recordsOf relationship w.facts
    | .inl s' => Sized relationship start s' w ∧ s'.1 = s.1 + 1 := by
  have hne := w.facts.records_ne relationship
  rw [information, recordsOf]
  cases hrecords : w.facts.records relationship with
  | error code =>
    have hcode : code ≠ errorInsufficientBuffer := fun hcode => hne (by rw [hrecords, hcode])
    simp only [afterAttempt, if_pos hcode]
  | ok payloads =>
    dsimp only
    by_cases hfits : (recordBytes relationship payloads).length ≤ s.2
    · rw [if_pos hfits]
      simp only [afterAttempt, List.length_eq_zero_iff, hfits.not_gt, or_false,
        if_neg (hfits.trans hmax).not_gt]
    · rw [if_neg hfits]
      simp only [afterAttempt, ne_eq, not_true_eq_false, if_false, if_neg hfits]
      have hless : w.changes + s.1 < start :=
        lt_of_le_of_ne h.changes_le fun heq => hfits (h.fits_of_eq heq payloads hrecords)
      refine ⟨⟨h.recorded, hlt, by omega, by omega, ⟨_, h.recorded, payloads, hrecords, rfl⟩, ?_⟩,
        trivial⟩
      intro _ payloads' hrecords'
      rw [hrecords] at hrecords'
      cases hrecords'
      exact le_rfl

/-- The attempts end with the records of some moment, or after four changes. -/
theorem ensures_attempts {s : ℕ × ℕ} (h : Sized relationship start s w) :
    Ensures windows (iterate (attempt relationship) s)
      (Settled (fun m r => r = recordsOf relationship m) start) w := by
  apply ensures_iterate (Sized relationship start) (fun s _ => 4 - s.1) h
  · exact fun s w w' hsized hw => ⟨hsized.changes hw, le_rfl⟩
  · intro s w hsized
    have hpos := hsized.size_pos
    unfold attempt
    split_ifs with hattempts hzero hlarge
    · refine ensures_pure fun w' hw' => .inr ⟨rfl, ?_⟩
      have hle := (hsized.interference hw').changes_le
      omega
    · omega
    · refine ensures_pure fun w' hw' => .inl ?_
      obtain ⟨m, hm, payloads, hrecords, hlength⟩ := (hsized.interference hw').size_seen
      refine ⟨m, hm, ?_⟩
      have hne : recordBytes relationship payloads ≠ [] := by
        intro hnil
        rw [hnil] at hlength
        exact hpos.ne' hlength.symm
      simp only [recordsOf, hrecords, if_neg hne, hlength, if_pos hlarge]
    · apply ensures_ask
      · intro w₁ hw₁
        have hsized₁ := hsized.interference hw₁
        have hafter := afterAttempt_reply hsized₁ (by omega) (by omega)
        refine ensures_pure fun w₂ hw₂ => ?_
        rw [reply]
        cases hresult : afterAttempt s.1 s.2 (information w₁.facts relationship s.2) with
        | inr r =>
          rw [hresult] at hafter
          exact .inl (Seen.interference ⟨w₁.facts, hsized₁.recorded, hafter⟩ hw₂)
        | inl s' =>
          rw [hresult] at hafter
          obtain ⟨hsized', hattempt⟩ := hafter
          refine ⟨hsized'.interference hw₂, ?_⟩
          show 4 - s'.1 < 4 - s.1
          omega
      · intro w₁ r n hw₁ hr
        cases hr
  · exact fun r w w' hr hw => hr.changes (.single hw)

/-- The records of a kind at some moment, or four changes. -/
theorem ensures_records (hrecorded : Recorded w) (hchanges : w.changes ≤ start) :
    Ensures windows (queryRelationshipRecords relationship)
      (Settled (fun m r => r = recordsOf relationship m) start) w := by
  apply ensures_ask
  · intro w₁ hw₁
    have hrecorded₁ := hrecorded.interference hw₁
    have hle := changes_le_of_interference hw₁
    have hne := w₁.facts.records_ne relationship
    rw [reply, information]
    cases hrecords : w₁.facts.records relationship with
    | error code =>
      have hcode : code ≠ errorInsufficientBuffer := fun hcode => hne (by rw [hrecords, hcode])
      simp only [if_pos hcode]
      refine ensures_pure fun w₂ hw₂ => .inl (Seen.interference ⟨w₁.facts, hrecorded₁, ?_⟩ hw₂)
      simp only [recordsOf, hrecords]
    | ok payloads =>
      dsimp only
      split_ifs with hnone
      · refine ensures_pure fun w₂ hw₂ => .inl (Seen.interference ⟨w₁.facts, hrecorded₁, ?_⟩ hw₂)
        have hnil := List.length_eq_zero_iff.mp (Nat.le_zero.mp hnone)
        simp only [recordsOf, hrecords, if_pos hnil]
      · simp only [ne_eq, not_true_eq_false, if_false]
        apply ensures_attempts
        refine ⟨hrecorded₁, Nat.zero_le _, by show w₁.changes + 0 ≤ start; omega, by
          show 0 < _; omega, ⟨_, hrecorded₁, payloads, hrecords, rfl⟩, ?_⟩
        intro _ payloads' hrecords'
        rw [hrecords] at hrecords'
        cases hrecords'
        exact le_rfl
  · intro w₁ r n hw₁ hr
    cases hr

end Attempts

section Format
variable {relationship : ℕ}

theorem wellFormed_recordFrame (relationship : ℕ) (p : Payload) :
    recordLayout.WellFormed (recordFrame relationship p) := by
  have hlt := p.length_lt
  have hfield : recordLayout.lengthField (recordFrame relationship p).header =
      p.bytes.length + 8 := by
    have hdrop : ((leBytes 4 relationship ++ leBytes 4 (p.bytes.length + 8)).drop 4).take 4 =
        leBytes 4 (p.bytes.length + 8) := by
      rw [List.drop_left' (length_leBytes 4 _), List.take_of_length_le (by simp)]
    show leValue _ = _
    rw [recordFrame, hdrop, leValue_leBytes (by omega)]
  refine ⟨by simp [recordFrame, recordLayout, relationshipHeaderSize], ?_, le_rfl⟩
  rw [hfield, Nat.add_comm]
  rfl

theorem relationshipOf_recordFrame (h : relationship < 256 ^ 4) (p : Payload) :
    relationshipOf (recordFrame relationship p).header = relationship := by
  rw [relationshipOf, recordFrame, List.take_left' (length_leBytes 4 _), leValue_leBytes h]

/-- The walk visits the payloads in order. -/
theorem walk_recordBytes {σ : Type} (h : relationship < 256 ^ 4)
    (visitor : σ → List UInt8 → NativeResult σ) (state : σ) (payloads : List Payload) :
    walkRelationshipRecords relationship visitor state (recordBytes relationship payloads) =
      payloads.foldlM (fun state p => visitor state p.bytes) state := by
  rw [walkRelationshipRecords, recordBytes, walk_encode]
  · rw [List.foldlM_map]
    congr 1
    funext state p
    rw [relationshipOf_recordFrame h, if_neg (not_not_intro rfl)]
    rfl
  · intro frame hframe
    obtain ⟨p, -, rfl⟩ := List.mem_map.mp hframe
    exact wellFormed_recordFrame relationship p

/-- Each record takes at least its header. -/
theorem length_le_recordBytes (payloads : List Payload) :
    8 * payloads.length ≤ (recordBytes relationship payloads).length := by
  induction payloads with
  | nil => exact le_rfl
  | cons p payloads ih =>
    have hone := (wellFormed_recordFrame relationship p).length_encode
    have hfield := (wellFormed_recordFrame relationship p).length_eq
    have hadvance : recordLayout.advance (recordFrame relationship p).header =
        recordLayout.headerSize + (recordFrame relationship p).payload.length := hfield
    have hsize : recordLayout.headerSize = 8 := rfl
    simp only [recordBytes, List.map_cons, List.flatMap_cons, List.length_append, List.length_cons]
      at ih ⊢
    omega

theorem recordBytes_eq_nil_iff {payloads : List Payload} :
    recordBytes relationship payloads = [] ↔ payloads = [] := by
  constructor
  · intro h
    have hle := @length_le_recordBytes relationship payloads
    rw [h, List.length_nil] at hle
    exact List.length_eq_zero_iff.mp (by omega)
  · rintro rfl
    rfl

theorem parseRelationshipCount_eq (h : relationship < 256 ^ 4) {payloads : List Payload}
    (hne : payloads ≠ []) (hmax : (recordBytes relationship payloads).length ≤ maximumBuffer) :
    parseRelationshipCount relationship (recordBytes relationship payloads) =
      .ok payloads.length := by
  have hloop : ∀ (payloads : List Payload) (count : ℕ), count + payloads.length ≤ uint32Max →
      payloads.foldlM (fun count (_ : Payload) =>
        if count = uint32Max then (failWith .valueTooLarge : NativeResult ℕ) else .ok (count + 1))
          count = .ok (count + payloads.length) := by
    intro payloads
    induction payloads with
    | nil => exact fun count _ => rfl
    | cons p payloads ih =>
      intro count hcount
      rw [List.length_cons] at hcount ⊢
      rw [List.foldlM_cons, if_neg (by omega), ok_bind, ih (count + 1) (by omega)]
      congr 1
      omega
  have hlength := @length_le_recordBytes relationship payloads
  have hsmall : 0 + payloads.length ≤ uint32Max := by
    have hbuffer : maximumBuffer = 67108864 := rfl
    have hword : uint32Max = 4294967295 := rfl
    omega
  have hpos : payloads.length ≠ 0 := by simpa using hne
  rw [parseRelationshipCount, walk_recordBytes h, hloop payloads 0 hsmall, ok_bind, Nat.zero_add,
    if_neg hpos]

end Format

section Caches

theorem take_drop_append {a b c : List UInt8} {n k : ℕ} (ha : a.length = n) (hb : b.length = k) :
    ((a ++ (b ++ c)).drop n).take k = b := by
  rw [List.drop_left' ha, List.take_left' hb]

/-- The fields of a record are read as they were written. -/
theorem decodeCacheRelationship_bytes (r : CacheRecord) :
    decodeCacheRelationship r.bytes = r.toCacheRelationship := by
  have hlevel : r.bytes.take 1 = leBytes 1 r.level := List.take_left' (length_leBytes 1 _)
  have hassociativity : (r.bytes.drop 1).take 1 = leBytes 1 r.associativity :=
    take_drop_append (length_leBytes 1 _) (length_leBytes 1 _)
  have hline : (r.bytes.drop 2).take 2 = leBytes 2 r.lineSize := by
    rw [CacheRecord.bytes, ← List.append_assoc]
    exact take_drop_append (by simp) (length_leBytes 2 _)
  have hsize : (r.bytes.drop 4).take 4 = leBytes 4 r.cacheSize := by
    rw [CacheRecord.bytes, ← List.append_assoc, ← List.append_assoc]
    exact take_drop_append (by simp) (length_leBytes 4 _)
  have htype : (r.bytes.drop 8).take 4 = leBytes 4 r.type := by
    rw [CacheRecord.bytes, ← List.append_assoc, ← List.append_assoc, ← List.append_assoc]
    exact take_drop_append (by simp) (length_leBytes 4 _)
  have hmask : (r.bytes.drop 32).take 8 = leBytes 8 r.mask := by
    rw [CacheRecord.bytes, ← List.append_assoc, ← List.append_assoc, ← List.append_assoc,
      ← List.append_assoc, ← List.append_assoc]
    exact take_drop_append (by simp [r.length_reserved]) (length_leBytes 8 _)
  have hgroup : (r.bytes.drop 40).take 2 = leBytes 2 r.group := by
    rw [CacheRecord.bytes, ← List.append_assoc, ← List.append_assoc, ← List.append_assoc,
      ← List.append_assoc, ← List.append_assoc, ← List.append_assoc]
    exact take_drop_append (by simp [r.length_reserved]) (length_leBytes 2 _)
  rw [decodeCacheRelationship, hlevel, hassociativity, hline, hsize, htype, hmask, hgroup,
    leValue_leBytes (show _ < 256 ^ 1 from r.level_lt),
    leValue_leBytes (show _ < 256 ^ 1 from r.associativity_lt), leValue_leBytes r.lineSize_lt,
    leValue_leBytes r.cacheSize_lt, leValue_leBytes r.type_lt, leValue_leBytes r.mask_lt,
    leValue_leBytes r.group_lt]

/-- The loop counts the bits that are set. -/
theorem countAffinityBits_eq {n mask : ℕ} (h : mask < 2 ^ n) :
    countAffinityBits mask = ((Finset.range n).filter fun i => mask.testBit i).card := by
  induction n generalizing mask with
  | zero =>
    have hzero : mask = 0 := by simpa using h
    rw [hzero, countAffinityBits, if_pos rfl, Finset.range_zero, Finset.filter_empty,
      Finset.card_empty]
  | succ n ih =>
    have hhalf : mask >>> 1 < 2 ^ n := by
      rw [Nat.shiftRight_eq_div_pow, pow_one]
      rw [pow_succ] at h
      omega
    have hrest := ih hhalf
    rw [Finset.card_filter] at hrest ⊢
    rw [Finset.sum_range_succ']
    have hbits : ∀ i, mask.testBit (i + 1) = (mask >>> 1).testBit i := by
      intro i
      rw [Nat.testBit_shiftRight, Nat.add_comm]
    simp only [hbits, ← hrest]
    rw [countAffinityBits]
    split_ifs with hzero hbit hbit
    · rw [hzero] at hbit
      simp at hbit
    · rw [hzero, Nat.zero_shiftRight, countAffinityBits, if_pos rfl]
    · rw [Nat.testBit_zero, decide_eq_true_eq] at hbit
      rw [Nat.and_one_is_mod, hbit, Nat.add_comm]
    · rw [Nat.testBit_zero, decide_eq_true_eq] at hbit
      rw [Nat.and_one_is_mod, Nat.add_comm]
      omega

/-- The record is one of a cache of the only group. -/
structure CacheRecord.Valid (r : CacheRecord) : Prop where
  level_ne : r.level ≠ 0
  lineSize_ne : r.lineSize ≠ 0
  cacheSize_ne : r.cacheSize ≠ 0
  type_le : r.type ≤ 3
  group_eq : r.group = 0
  mask_ne : r.mask ≠ 0
  dvd : r.associativity = cacheFullyAssociative → r.lineSize ∣ r.cacheSize

/-- The cache that the record stands for; a fully associative one has a single set. -/
def CacheRecord.entry (r : CacheRecord) : CacheEntry where
  level := r.level
  kind := (cacheKindOf r.type).getD .unknown
  instanceSizeBytes := r.cacheSize
  lineSizeBytes := r.lineSize
  associativityWays :=
    if r.associativity = cacheFullyAssociative then r.cacheSize / r.lineSize else r.associativity
  setsCount := if r.associativity = cacheFullyAssociative then 1 else 0
  sharedLogicalProcessorCount := ((Finset.range 64).filter fun i => r.mask.testBit i).card

theorem cacheKindOf_eq_none_iff (type : ℕ) : cacheKindOf type = none ↔ ¬ type ≤ 3 := by
  match type with
  | 0 => simp [cacheKindOf]
  | 1 => simp [cacheKindOf]
  | 2 => simp [cacheKindOf]
  | 3 => simp [cacheKindOf]
  | n + 4 => simp [cacheKindOf]

theorem convertCacheRecord_cases (r : CacheRecord) :
    (r.Valid ∧ convertCacheRecord r.bytes = .ok r.entry) ∨
      ¬ r.Valid ∧ convertCacheRecord r.bytes = failWith .malformedData := by
  have hlength : ¬ r.bytes.length < cacheRelationshipSize := by
    have hbehind := r.length_behind
    rw [r.length_bytes, cacheRelationshipSize]
    omega
  have hcount := countAffinityBits_eq (show r.mask < 2 ^ 64 from r.mask_lt)
  rw [convertCacheRecord, if_neg hlength, decodeCacheRelationship_bytes]
  dsimp only
  by_cases hzero : r.level = 0 ∨ r.lineSize = 0 ∨ r.cacheSize = 0
  · rw [if_pos hzero]
    refine .inr ⟨fun h => ?_, rfl⟩
    exact hzero.elim h.level_ne fun hrest => hrest.elim h.lineSize_ne h.cacheSize_ne
  rw [if_neg hzero]
  rw [not_or, not_or] at hzero
  cases hkind : cacheKindOf r.type with
  | none => exact .inr ⟨fun h => (cacheKindOf_eq_none_iff _).mp hkind h.type_le, rfl⟩
  | some kind =>
    have htype : r.type ≤ 3 := by
      by_contra hlarge
      rw [(cacheKindOf_eq_none_iff _).mpr hlarge] at hkind
      cases hkind
    dsimp only
    by_cases hgroup : r.group ≠ 0 ∨ r.mask = 0
    · rw [if_pos hgroup]
      exact .inr ⟨fun h => hgroup.elim (fun hne => hne h.group_eq) h.mask_ne, rfl⟩
    rw [if_neg hgroup]
    rw [not_or, not_not] at hgroup
    by_cases hfully : r.associativity = cacheFullyAssociative
    · rw [if_pos hfully]
      by_cases hdvd : r.cacheSize % r.lineSize ≠ 0
      · rw [if_pos hdvd]
        exact .inr ⟨fun h => hdvd (Nat.mod_eq_zero_of_dvd (h.dvd hfully)), rfl⟩
      · rw [if_neg hdvd]
        rw [not_not] at hdvd
        refine .inl ⟨⟨hzero.1, hzero.2.1, hzero.2.2, htype, hgroup.1, hgroup.2,
          fun _ => Nat.dvd_of_mod_eq_zero hdvd⟩, ?_⟩
        simp only [CacheRecord.entry, hkind, Option.getD_some, if_pos hfully, hcount]
    · rw [if_neg hfully]
      refine .inl ⟨⟨hzero.1, hzero.2.1, hzero.2.2, htype, hgroup.1, hgroup.2,
        fun h => (hfully h).elim⟩, ?_⟩
      simp only [CacheRecord.entry, hkind, Option.getD_some, if_neg hfully, hcount]

instance (r : CacheRecord) : Decidable r.Valid :=
  decidable_of_iff (r.level ≠ 0 ∧ r.lineSize ≠ 0 ∧ r.cacheSize ≠ 0 ∧ r.type ≤ 3 ∧ r.group = 0 ∧
    r.mask ≠ 0 ∧ (r.associativity = cacheFullyAssociative → r.lineSize ∣ r.cacheSize))
    ⟨fun h => ⟨h.1, h.2.1, h.2.2.1, h.2.2.2.1, h.2.2.2.2.1, h.2.2.2.2.2.1, h.2.2.2.2.2.2⟩,
      fun h => ⟨h.level_ne, h.lineSize_ne, h.cacheSize_ne, h.type_le, h.group_eq, h.mask_ne, h.dvd⟩⟩

/-- The caches of the records in order, if all of them are valid. -/
theorem parseCaches_recordBytes (sorter : Sorter cacheBefore) {records : List CacheRecord}
    (hne : records ≠ []) :
    parseCaches sorter (recordBytes relationCache (records.map CacheRecord.payload)) =
      if ∀ r ∈ records, r.Valid then .ok (sorter.sort (records.map CacheRecord.entry))
      else failWith .malformedData := by
  have hstep : ∀ (done : List CacheEntry) (r : CacheRecord),
      (do
        let converted ← convertCacheRecord r.payload.bytes
        .ok (done ++ [converted])) =
      if r.Valid then (.ok (done ++ [r.entry]) : NativeResult (List CacheEntry))
      else .error (.fail (.syscape .malformedData)) := by
    intro done r
    show (convertCacheRecord r.bytes >>= _) = _
    rcases convertCacheRecord_cases r with ⟨hvalid, hr⟩ | ⟨hvalid, hr⟩
    · rw [hr, ok_bind, if_pos hvalid]
    · rw [hr, if_neg hvalid]
      rfl
  have hloop := @foldlM_guard _ CacheRecord _ CacheEntry
    (fun done r => convertCacheRecord r.payload.bytes >>= fun converted =>
      .ok (done ++ [converted]))
    id CacheRecord.Valid _ CacheRecord.entry _ hstep records []
  rw [parseCaches, walk_recordBytes (by decide), List.foldlM_map]
  rw [id, id, List.nil_append] at hloop
  rw [hloop]
  split_ifs with hall
  · rw [ok_bind, if_neg (by simpa using hne)]
  · rfl

end Caches

section Boundary
variable {e : CacheEntry}

/-- The entry does not come before what has been seen. -/
def NotBefore (previous : Option (ℕ × CacheKind)) (e : CacheEntry) : Prop :=
  ∀ p ∈ previous, ¬ (e.level < p.1 ∨ e.level = p.1 ∧ e.kind.number < p.2.number)

theorem cacheBefore_eq_false_iff {a b : CacheEntry} :
    cacheBefore b a = false ↔ NotBefore (some (a.level, a.kind)) b := by
  unfold cacheBefore NotBefore
  simp only [Option.mem_some_iff, forall_eq']
  split_ifs with hlevel
  · rw [decide_eq_false_iff_not]
    omega
  · rw [not_not] at hlevel
    rw [decide_eq_false_iff_not, hlevel]
    omega

/-- The check at the boundary accepts entries in order. -/
theorem foldlM_validateCacheEntry {entries : List CacheEntry} {previous : Option (ℕ × CacheKind)}
    (hpositive : ∀ e ∈ entries, e.level ≠ 0 ∧ e.instanceSizeBytes ≠ 0 ∧ e.lineSizeBytes ≠ 0)
    (hsorted : entries.Pairwise fun a b => cacheBefore b a = false)
    (hprevious : ∀ e ∈ entries, NotBefore previous e) :
    ∃ last, entries.foldlM validateCacheEntry previous = .ok last := by
  induction entries generalizing previous with
  | nil => exact ⟨previous, rfl⟩
  | cons e entries ih =>
    obtain ⟨hlevel, hsize, hline⟩ := hpositive e List.mem_cons_self
    have hzero : ¬ (e.level = 0 ∨ e.instanceSizeBytes = 0 ∨ e.lineSizeBytes = 0) := by
      rintro (h | h | h)
      · exact hlevel h
      · exact hsize h
      · exact hline h
    have hround : validateCacheEntry previous e = .ok (some (e.level, e.kind)) := by
      have hnot := hprevious e List.mem_cons_self
      cases previous with
      | none => exact if_neg hzero
      | some p => exact (if_neg hzero).trans (if_neg (hnot p rfl))
    rw [List.foldlM_cons, hround, ok_bind]
    rw [List.pairwise_cons] at hsorted
    apply ih (fun e' he' => hpositive e' (List.mem_cons_of_mem _ he')) hsorted.2
    exact fun e' he' => cacheBefore_eq_false_iff.mp (hsorted.1 e' he')

theorem validateCacheEntries_sort (sorter : Sorter cacheBefore) {records : List CacheRecord}
    (hvalid : ∀ r ∈ records, r.Valid) :
    validateCacheEntries (.ok (sorter.sort (records.map CacheRecord.entry))) =
      .ok (sorter.sort (records.map CacheRecord.entry)) := by
  have hpositive : ∀ e ∈ sorter.sort (records.map CacheRecord.entry),
      e.level ≠ 0 ∧ e.instanceSizeBytes ≠ 0 ∧ e.lineSizeBytes ≠ 0 := by
    intro e he
    rw [(sorter.perm _).mem_iff, List.mem_map] at he
    obtain ⟨r, hr, rfl⟩ := he
    have h := hvalid r hr
    exact ⟨h.level_ne, h.cacheSize_ne, h.lineSize_ne⟩
  have hnone : ∀ e ∈ sorter.sort (records.map CacheRecord.entry), NotBefore none e := by
    simp [NotBefore]
  obtain ⟨last, hlast⟩ := foldlM_validateCacheEntry hpositive
    (sorter.sorted (records.map CacheRecord.entry)) hnone
  rw [validateCacheEntries, ok_bind, hlast, ok_bind]

end Boundary

section Whole

/-- The caches of a machine with that many groups. -/
def cachesOf (sorter : Sorter cacheBefore) (groups : ℕ) (m : Topology) :
    NativeResult (List CacheEntry) :=
  if groups = 0 then failWith .ioError
  else if groups ≠ 1 then failWith .notSupported
  else
    match m.caches with
    | .error code => failSystem code
    | .ok records =>
      if records = [] then failWith .malformedData
      else if (recordBytes relationCache (records.map CacheRecord.payload)).length > maximumBuffer then
        failWith .resourceExhausted
      else if ∀ r ∈ records, r.Valid then .ok (sorter.sort (records.map CacheRecord.entry))
      else failWith .malformedData

/-- How many records of a kind there are. -/
def countOf (relationship : ℕ) (m : Topology) : NativeResult ℕ :=
  match m.records relationship with
  | .error code => failSystem code
  | .ok payloads =>
    if payloads = [] then failWith .malformedData
    else if (recordBytes relationship payloads).length > maximumBuffer then
      failWith .resourceExhausted
    else .ok payloads.length

theorem parse_recordsOf (sorter : Sorter cacheBefore) (m : Topology) :
    validateCacheEntries (recordsOf relationCache m >>= parseCaches sorter) =
      cachesOf sorter 1 m := by
  rw [cachesOf, if_neg (by decide), if_neg (by decide), recordsOf, Topology.records, if_pos rfl]
  cases hcaches : m.caches with
  | error code => rfl
  | ok records =>
    show validateCacheEntries ((if recordBytes relationCache (records.map CacheRecord.payload) = []
      then _ else _) >>= _) = _
    simp only [recordBytes_eq_nil_iff, List.map_eq_nil_iff]
    by_cases hnone : records = []
    · rw [if_pos hnone, if_pos hnone]
      rfl
    rw [if_neg hnone, if_neg hnone]
    split_ifs with hlarge hall
    · rfl
    · rw [ok_bind, parseCaches_recordBytes sorter hnone, if_pos hall,
        validateCacheEntries_sort sorter hall]
    · rw [ok_bind, parseCaches_recordBytes sorter hnone, if_neg hall]
      rfl

theorem count_recordsOf {relationship : ℕ} (h : relationship < 256 ^ 4) (m : Topology) :
    (recordsOf relationship m >>= parseRelationshipCount relationship) =
      countOf relationship m := by
  rw [countOf, recordsOf]
  cases hrecords : m.records relationship with
  | error code => rfl
  | ok payloads =>
    dsimp only
    simp only [recordBytes_eq_nil_iff]
    split_ifs with hnone hlarge
    · rfl
    · rfl
    · rw [ok_bind, parseRelationshipCount_eq h hnone (Nat.le_of_not_gt hlarge)]

/-- Every run of the query is finite, and its result is right for moments of the run, unless the
processors have changed at least four times. -/
def Settles {α : Type} (query : Query (NativeResult α))
    (right : List Topology → NativeResult α → Prop) : Prop :=
  ∀ (topology : Topology) (changes : ℕ),
    Terminates windows (initial topology 0 changes, query) ∧
      ∀ y, Runs windows (initial topology 0 changes, query) y →
        (∃ r, y.2 = .done r ∧ (right y.1.past r ∨
          r = failWith .temporarilyUnavailable ∧ y.1.changes + 4 ≤ changes)) ∨
        ∃ z, Advance windows y z

theorem settles_of_ensures {α : Type} {query : Query (NativeResult α)}
    {right : List Topology → NativeResult α → Prop}
    (h : ∀ (w : World Topology) (start : ℕ), Recorded w → w.changes ≤ start →
      Ensures windows query (fun r w' => right w'.past r ∨
        r = failWith .temporarilyUnavailable ∧ w'.changes + 4 ≤ start) w) :
    Settles query right := by
  intro topology changes
  have hrecorded : Recorded (initial topology 0 changes) := List.mem_cons_self
  exact ensures_sound wellFounded_changes (h _ changes hrecorded le_rfl)

theorem settles_relationshipCount {relationship : ℕ} (h : relationship < 256 ^ 4) :
    Settles (relationshipCount relationship) fun past r => ∃ m ∈ past, r = countOf relationship m := by
  apply settles_of_ensures
  intro w start hrecorded hstart
  apply ensures_bind
  apply (ensures_records hrecorded hstart).mono
  rintro r w₁ hr
  refine ensures_pure fun w₂ hw₂ => ?_
  rcases hr.changes hw₂ with ⟨m, hm, rfl⟩ | ⟨rfl, hchanges⟩
  · exact .inl ⟨m, hm, count_recordsOf h m⟩
  · exact .inr ⟨rfl, hchanges⟩

theorem settles_cacheDescriptors (sorter : Sorter cacheBefore) :
    Settles (cacheDescriptors sorter) fun past r =>
      ∃ g ∈ past, ∃ m ∈ past, r = cachesOf sorter g.groups m := by
  apply settles_of_ensures
  intro w start hrecorded hstart
  apply ensures_ask
  · intro w₁ hw₁
    have hrecorded₁ := hrecorded.interference hw₁
    have hstart₁ := (changes_le_of_interference hw₁).trans hstart
    rw [reply]
    split_ifs with hzero hmany
    · refine ensures_pure fun w₂ hw₂ => .inl ?_
      have hmem := (past_of_interference hw₂).1 _ hrecorded₁
      exact ⟨_, hmem, _, hmem, by rw [cachesOf, if_pos hzero]⟩
    · refine ensures_pure fun w₂ hw₂ => .inl ?_
      have hmem := (past_of_interference hw₂).1 _ hrecorded₁
      exact ⟨_, hmem, _, hmem, by rw [cachesOf, if_neg hzero, if_pos hmany]⟩
    · have hone : w₁.facts.groups = 1 := not_not.mp hmany
      apply ensures_bind
      apply (ensures_past (ensures_records hrecorded₁ hstart₁) hrecorded₁).mono
      rintro r w₂ ⟨hr, hgroups⟩
      refine ensures_pure fun w₃ hw₃ => ?_
      rcases hr.changes hw₃ with ⟨m, hm, rfl⟩ | ⟨rfl, hchanges⟩
      · have hmem := (past_of_interference hw₃).1 _ hgroups
        exact .inl ⟨_, hmem, m, hm, by rw [hone, parse_recordsOf]⟩
      · exact .inr ⟨rfl, hchanges⟩
  · intro w₁ r n hw₁ hr
    cases hr

/-- The numbers of cores and packages and the caches are those of a moment of the run; the number
of groups may be that of another one. -/
theorem processor_records (sorter : Sorter cacheBefore) :
    Settles onlinePhysicalCoreCount
      (fun past r => ∃ m ∈ past, r = countOf relationProcessorCore m) ∧
    Settles onlineProcessorPackageCount
      (fun past r => ∃ m ∈ past, r = countOf relationProcessorPackage m) ∧
    Settles (cacheDescriptors sorter)
      (fun past r => ∃ g ∈ past, ∃ m ∈ past, r = cachesOf sorter g.groups m) :=
  ⟨settles_relationshipCount (by decide), settles_relationshipCount (by decide),
    settles_cacheDescriptors sorter⟩

end Whole

end Syscape.CpuWindows
