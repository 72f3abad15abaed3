import Syscape.Environment
import Syscape.Memory
import Syscape.Lib.Calls
import Syscape.Lib.Layout

/-!
# The address space of a Windows process

The walk asks for the region at an address and goes on behind it, until the maximum is passed.
The sizes of the regions that are not free are added up. The rest of the space below the
maximum is compared before the address moves, so that it never runs over.
-/
namespace Syscape.Process.Windows
open Calls Checked Environment Layout Memory

section Query
variable {Call : Type} {Answer : Call → Type}

/-- `region_description`. -/
structure RegionDescription where
  reservedOrCommitted : Bool := false
  sizeBytes : UInt64 := 0
  deriving DecidableEq, Repr

/-- The sum and the address of the next region. -/
structure SpaceWalk where
  total : UInt64
  address : UInt64
  deriving DecidableEq, Repr

/-- The sum with a region. -/
def addRegion (total : UInt64) (region : RegionDescription) : EnvResult UInt64 :=
  if region.reservedOrCommitted then
    if total > maxUInt64 - region.sizeBytes then envFail .valueTooLarge
    else .ok (total + region.sizeBytes)
  else .ok total

/-- What the loop makes of the answer for a region. -/
def afterRegion (maximumAddress : UInt64) (s : SpaceWalk) :
    EnvResult RegionDescription → SpaceWalk ⊕ EnvResult UInt64
  | .error e => .inr (.error e)
  | .ok region =>
    if region.sizeBytes = 0 then .inr (envFail .malformedData)
    else
      match addRegion s.total region with
      | .error e => .inr (.error e)
      | .ok total =>
        if region.sizeBytes > maximumAddress - s.address then .inr (.ok total)
        else .inl ⟨total, s.address + region.sizeBytes⟩

/-- The condition and the body of the loop. -/
def walkStep (queryRegion : UInt64 → Prog Call Answer (EnvResult RegionDescription))
    (maximumAddress : UInt64) (s : SpaceWalk) :
    Prog Call Answer (SpaceWalk ⊕ EnvResult UInt64) :=
  if s.address ≤ maximumAddress then do
    let region ← queryRegion s.address
    return afterRegion maximumAddress s region
  else return .inr (.ok s.total)

/-- `sum_address_space`. -/
def sumAddressSpace (queryRegion : UInt64 → Prog Call Answer (EnvResult RegionDescription))
    (minimumAddress maximumAddress : UInt64) : Prog Call Answer (EnvResult UInt64) :=
  iterate (walkStep queryRegion maximumAddress) ⟨0, minimumAddress⟩

end Query

section Regions
variable {minimum maximum : UInt64} {regions : List RegionDescription}
  {region : RegionDescription} {s : SpaceWalk}

/-- The size in numbers without bounds. -/
def RegionDescription.size (region : RegionDescription) : ℕ := region.sizeBytes.toNat

/-- What a region adds to the sum. -/
def RegionDescription.occupied (region : RegionDescription) : ℕ :=
  if region.reservedOrCommitted then region.size else 0

/-- The sum of the sizes of the regions that are not free. -/
def occupiedBytes (regions : List RegionDescription) : ℕ :=
  (regions.map RegionDescription.occupied).sum

theorem occupiedBytes_append (front back : List RegionDescription) :
    occupiedBytes (front ++ back) = occupiedBytes front + occupiedBytes back := by
  rw [occupiedBytes, List.map_append, List.sum_append]
  rfl

/-- The walk has passed these regions. -/
structure Passed (minimum : UInt64) (regions : List RegionDescription) (s : SpaceWalk) :
    Prop where
  size_pos : ∀ region ∈ regions, 0 < region.size
  address : s.address.toNat = minimum.toNat + extent RegionDescription.size regions
  total : s.total.toNat = occupiedBytes regions

theorem passed_start (minimum : UInt64) : Passed minimum [] ⟨0, minimum⟩ where
  size_pos := by simp
  address := rfl
  total := rfl

/-- The guard of the sum compares the exact sum with 64 bits. -/
theorem addRegion_eq (h : Passed minimum regions s) (region : RegionDescription) :
    (2 ^ 64 - 1 < occupiedBytes (regions ++ [region]) ∧
      addRegion s.total region = envFail .valueTooLarge) ∨
    ∃ total, addRegion s.total region = .ok total ∧
      total.toNat = occupiedBytes (regions ++ [region]) := by
  have hsum : occupiedBytes (regions ++ [region]) = s.total.toNat + region.occupied := by
    rw [occupiedBytes_append, h.total]
    rfl
  rw [hsum, addRegion, RegionDescription.occupied]
  by_cases hfree : region.reservedOrCommitted = true
  · rw [if_pos hfree, if_pos hfree, RegionDescription.size]
    by_cases hguard : s.total > maxUInt64 - region.sizeBytes
    · have hlarge := (maxUInt64_sub_lt_iff _ _).mp hguard
      rw [if_pos hguard]
      exact .inl ⟨by omega, rfl⟩
    · have hfits := mt (maxUInt64_sub_lt_iff _ _).mpr hguard
      rw [if_neg hguard]
      exact .inr ⟨_, rfl, toNat_add_of_le (by omega)⟩
  · rw [if_neg hfree, if_neg hfree]
    exact .inr ⟨_, rfl, rfl⟩

/-- A region ends the walk, or it is passed and the address has moved up to the maximum at most. -/
theorem afterRegion_eq (h : Passed minimum regions s) (hle : s.address ≤ maximum)
    (hsize : region.sizeBytes ≠ 0) :
    (2 ^ 64 - 1 < occupiedBytes (regions ++ [region]) ∧
      afterRegion maximum s (.ok region) = .inr (envFail .valueTooLarge)) ∨
    (maximum.toNat < minimum.toNat + extent RegionDescription.size (regions ++ [region]) ∧
      ∃ total, afterRegion maximum s (.ok region) = .inr (.ok total) ∧
        total.toNat = occupiedBytes (regions ++ [region])) ∨
    ∃ s', afterRegion maximum s (.ok region) = .inl s' ∧ Passed minimum (regions ++ [region]) s' ∧
      s'.address ≤ maximum ∧ s.address < s'.address := by
  have haddress := h.address
  have hpos : 0 < region.size := Nat.pos_of_ne_zero fun hzero => hsize (UInt64.toNat_inj.mp hzero)
  have hextent : extent RegionDescription.size (regions ++ [region]) =
      extent RegionDescription.size regions + region.size := by
    simp
  have hleft : (maximum - s.address).toNat = maximum.toNat - s.address.toNat :=
    UInt64.toNat_sub_of_le _ _ hle
  have hlt := maximum.toNat_lt
  rw [UInt64.le_iff_toNat_le] at hle
  rw [afterRegion, if_neg hsize, hextent]
  rcases addRegion_eq h region with ⟨hlarge, hadd⟩ | ⟨total, hadd, htotal⟩
  · rw [hadd]
    exact .inl ⟨hlarge, rfl⟩
  rw [hadd]
  right
  dsimp only
  by_cases hlast : region.sizeBytes > maximum - s.address
  · rw [if_pos hlast]
    rw [gt_iff_lt, UInt64.lt_iff_toNat_lt, hleft, ← RegionDescription.size] at hlast
    exact .inl ⟨by omega, total, rfl, htotal⟩
  · rw [if_neg hlast]
    rw [gt_iff_lt, UInt64.lt_iff_toNat_lt, hleft, ← RegionDescription.size] at hlast
    have hnext : (s.address + region.sizeBytes).toNat = s.address.toNat + region.size :=
      toNat_add_of_le (by rw [← RegionDescription.size]; omega)
    refine .inr ⟨_, rfl, ⟨?_, ?_, htotal⟩, ?_, ?_⟩
    · intro passed hpassed
      rcases List.mem_append.mp hpassed with hpassed | hpassed
      · exact h.size_pos passed hpassed
      · rwa [List.mem_singleton.mp hpassed]
    · rw [hnext, hextent]
      omega
    · rw [UInt64.le_iff_toNat_le, hnext]
      omega
    · rw [UInt64.lt_iff_toNat_lt, hnext]
      omega

end Regions

section Answers
variable {minimum maximum : UInt64} {regions : List RegionDescription} {s : SpaceWalk}
  {r : EnvResult RegionDescription}

/-- The addresses that were asked for, as numbers without bounds, with the answers. -/
abbrev Log := List (ℕ × EnvResult RegionDescription)

/-- The system answers as it may, and the log is kept. -/
def answering (may : ℕ → EnvResult RegionDescription → Prop) :
    System UInt64 (fun _ => EnvResult RegionDescription) Log where
  interferes _ _ := False
  answers log address r log' := may address.toNat r ∧ log' = log ++ [(address.toNat, r)]

/-- A system that answers in any way. -/
abbrev anyAnswers := answering fun _ _ => True

/-- The walk over the answers of a system. -/
def walk (minimum maximum : UInt64) :
    Prog UInt64 (fun _ => EnvResult RegionDescription) (EnvResult UInt64) :=
  sumAddressSpace invoke minimum maximum

/-- The region at an address ends at the next one. -/
def Follows (p q : ℕ × EnvResult RegionDescription) : Prop :=
  ∃ region, p.2 = .ok region ∧ 0 < region.size ∧ p.1 + region.size = q.1

/-- The addresses grow by the sizes of the regions, exactly, and stay between the bounds. -/
def Orderly (minimum maximum : UInt64) (log : Log) : Prop :=
  log.IsChain Follows ∧ ∀ p ∈ log, minimum.toNat ≤ p.1 ∧ p.1 ≤ maximum.toNat

/-- An error is passed on, and a region without a size is an error too. -/
def Reported (log : Log) (result : EnvResult UInt64) : Prop :=
  ∀ p ∈ log, (∀ e, p.2 = .error e → result = .error e) ∧
    ∀ region, p.2 = .ok region → region.sizeBytes = 0 → result = envFail .malformedData

/-- A region with its address as an entry of the log. -/
def logged (p : ℕ × RegionDescription) : ℕ × EnvResult RegionDescription := (p.1, .ok p.2)

/-- The log of a walk that has passed these regions. -/
def passedLog (minimum : UInt64) (regions : List RegionDescription) : Log :=
  (placed RegionDescription.size minimum.toNat regions).map logged

theorem passedLog_concat (h : Passed minimum regions s) (region : RegionDescription) :
    passedLog minimum (regions ++ [region]) =
      passedLog minimum regions ++ [(s.address.toNat, .ok region)] := by
  rw [passedLog, placed_append, List.map_append, h.address]
  rfl

theorem of_mem_passedLog (h : Passed minimum regions s) {p : ℕ × EnvResult RegionDescription}
    (hp : p ∈ passedLog minimum regions) :
    minimum.toNat ≤ p.1 ∧ p.1 < s.address.toNat ∧
      ∃ region, p.2 = .ok region ∧ 0 < region.size := by
  obtain ⟨q, hq, rfl⟩ := List.mem_map.mp hp
  have hle := le_of_mem_placed hq
  have hlt := lt_of_mem_placed h.size_pos hq
  rw [← h.address] at hlt
  exact ⟨hle, hlt, q.2, rfl, h.size_pos _ (mem_of_mem_placed hq)⟩

/-- The next address is asked for. -/
theorem orderly_concat (h : Passed minimum regions s) (hle : s.address ≤ maximum) :
    Orderly minimum maximum (passedLog minimum regions ++ [(s.address.toNat, r)]) := by
  have haddress := h.address
  have hmax : s.address.toNat ≤ maximum.toNat := UInt64.le_iff_toNat_le.mp hle
  have hchain : (passedLog minimum regions).IsChain Follows := by
    rw [passedLog, List.isChain_map]
    exact (isChain_placed h.size_pos).imp fun p q hpq => ⟨p.2, rfl, hpq⟩
  constructor
  · refine List.isChain_append.mpr ⟨hchain, .singleton _, ?_⟩
    intro p hp q hq
    cases hq
    rw [passedLog, List.getLast?_map, Option.mem_def, Option.map_eq_some_iff] at hp
    obtain ⟨last, hlast, rfl⟩ := hp
    have hmem := mem_of_mem_placed (List.mem_of_getLast? hlast)
    exact ⟨last.2, rfl, h.size_pos _ hmem, (end_of_getLast? hlast).trans haddress.symm⟩
  · intro p hp
    rcases List.mem_append.mp hp with hp | hp
    · obtain ⟨hmin, hlt, -⟩ := of_mem_passedLog h hp
      exact ⟨hmin, by omega⟩
    · cases List.mem_singleton.mp hp
      exact ⟨by omega, hmax⟩

/-- What the regions before have no part in. -/
theorem reported_concat (h : Passed minimum regions s) {result : EnvResult UInt64}
    (herror : ∀ e, r = .error e → result = .error e)
    (hzero : ∀ region, r = .ok region → region.sizeBytes = 0 →
      result = envFail .malformedData) :
    Reported (passedLog minimum regions ++ [(s.address.toNat, r)]) result := by
  intro p hp
  rcases List.mem_append.mp hp with hp | hp
  · obtain ⟨-, -, region, hregion, hpos⟩ := of_mem_passedLog h hp
    rw [hregion]
    constructor
    · intro e he
      cases he
    · intro region' hregion' hsize
      cases hregion'
      rw [RegionDescription.size, hsize] at hpos
      exact absurd hpos (Nat.lt_irrefl 0)
  · cases List.mem_singleton.mp hp
    exact ⟨herror, hzero⟩

/-- The walk has passed the regions in the log, and not the maximum. -/
def Walking (minimum maximum : UInt64) (s : SpaceWalk) (log : Log) : Prop :=
  ∃ regions, Passed minimum regions s ∧ log = passedLog minimum regions ∧
    (s.address ≤ maximum ∨ regions = [])

/-- What is left of the space. -/
def left (maximum : UInt64) (s : SpaceWalk) (_ : Log) : ℕ := maximum.toNat - s.address.toNat

/-- An answer ends the walk with the right report, or brings it on. -/
theorem afterRegion_orderly (h : Passed minimum regions s) (hle : s.address ≤ maximum) (log : Log)
    (r : EnvResult RegionDescription) :
    BodyPost (Walking minimum maximum) (left maximum) (left maximum s log)
      (fun result log => Orderly minimum maximum log ∧ Reported log result)
      (afterRegion maximum s r) (passedLog minimum regions ++ [(s.address.toNat, r)]) := by
  have horderly := orderly_concat (r := r) h hle
  cases r with
  | error e =>
    refine ⟨horderly, reported_concat h ?_ ?_⟩
    · intro e' he
      cases he
      rfl
    · intro region hregion
      cases hregion
  | ok region =>
    by_cases hsize : region.sizeBytes = 0
    · rw [afterRegion, if_pos hsize]
      refine ⟨horderly, reported_concat h ?_ fun _ _ _ => rfl⟩
      intro e he
      cases he
    have hreported : ∀ result,
        Reported (passedLog minimum regions ++ [(s.address.toNat, .ok region)]) result := by
      intro result
      refine reported_concat h ?_ ?_
      · intro e he
        cases he
      · intro region' hregion hzero
        cases hregion
        exact absurd hzero hsize
    rcases afterRegion_eq h hle hsize with ⟨-, hafter⟩ | ⟨-, total, hafter, -⟩ | ⟨s', hafter, hs'⟩
    · rw [hafter]
      exact ⟨horderly, hreported _⟩
    · rw [hafter]
      exact ⟨horderly, hreported _⟩
    · obtain ⟨hpassed, hle', hlt⟩ := hs'
      rw [hafter]
      refine ⟨⟨_, hpassed, (passedLog_concat h region).symm, .inl hle'⟩, ?_⟩
      rw [UInt64.lt_iff_toNat_lt] at hlt
      rw [UInt64.le_iff_toNat_le] at hle'
      rw [left, left]
      omega

theorem eq_of_interference {may : ℕ → EnvResult RegionDescription → Prop} {log log' : Log}
    (h : Interference (answering may) log log') : log' = log := by
  induction h with
  | refl => rfl
  | tail _ hstep _ => exact hstep.elim

theorem ensures_anyAnswers (minimum maximum : UInt64) :
    Ensures anyAnswers (walk minimum maximum)
      (fun result log => Orderly minimum maximum log ∧ Reported log result) [] := by
  apply ensures_iterate (Walking minimum maximum) (left maximum)
    ⟨[], passed_start minimum, rfl, .inr rfl⟩
  · exact fun _ _ _ _ h => h.elim
  · rintro s log ⟨regions, hpassed, rfl, hregions⟩
    rw [walkStep]
    by_cases hle : s.address ≤ maximum
    · rw [if_pos hle]
      apply ensures_invoke
      intro log hlog
      refine ⟨⟨.ok {}, _, trivial, rfl⟩, ?_⟩
      rintro r log' ⟨-, rfl⟩
      refine ensures_pure fun log' hlog' => ?_
      rw [eq_of_interference hlog', eq_of_interference hlog]
      exact afterRegion_orderly hpassed hle _ r
    · -- only a walk that starts behind the maximum gets here
      rw [if_neg hle]
      refine ensures_pure fun log hlog => ?_
      rw [eq_of_interference hlog, hregions.resolve_left hle]
      exact ⟨⟨.nil, fun p hp => by cases hp⟩, fun p hp => by cases hp⟩
  · exact fun _ _ _ _ h => h.elim

end Answers

section Partition
variable {minimum maximum : UInt64} {regions front back : List RegionDescription}
  {region : RegionDescription} {s : SpaceWalk} {log : Log}

/-- A query that describes the region at an address, and answers in any way where none starts. -/
def describing (minimum : UInt64) (regions : List RegionDescription) :
    System UInt64 (fun _ => EnvResult RegionDescription) Log :=
  answering fun address r => ∀ region,
    blockAt RegionDescription.size minimum.toNat regions address = some region → r = .ok region

/-- The regions are not empty, and the last one of them ends behind the maximum. -/
def Covers (minimum maximum : UInt64) (regions : List RegionDescription) : Prop :=
  (∀ region ∈ regions, region.sizeBytes ≠ 0) ∧
    maximum.toNat < minimum.toNat + extent RegionDescription.size regions

instance (minimum maximum : UInt64) (regions : List RegionDescription) :
    Decidable (Covers minimum maximum regions) :=
  inferInstanceAs (Decidable (_ ∧ _))

/-- The regions that start at or below the maximum, with their addresses. -/
def reached (minimum maximum : UInt64) (regions : List RegionDescription) :
    List (ℕ × RegionDescription) :=
  (placed RegionDescription.size minimum.toNat regions).filter fun p => p.1 ≤ maximum.toNat

/-- The sum of the first of these regions exceeds 64 bits. -/
def Exceeds (minimum maximum : UInt64) (regions : List RegionDescription) : Prop :=
  ∃ front, front <+: reached minimum maximum regions ∧
    2 ^ 64 - 1 < occupiedBytes (front.map Prod.snd)

/-- Each of them has been asked for once, in order, and the sum is exact, or it is refused
exactly where a partial sum exceeds 64 bits. -/
def ExactOrTooLarge (minimum maximum : UInt64) (regions : List RegionDescription)
    (result : EnvResult UInt64) (log : Log) : Prop :=
  (Exceeds minimum maximum regions ∧ result = envFail .valueTooLarge) ∨
  (¬ Exceeds minimum maximum regions ∧ log = (reached minimum maximum regions).map logged ∧
    ∃ total, result = .ok total ∧
      total.toNat = occupiedBytes ((reached minimum maximum regions).map Prod.snd))

/-- The walk has passed the first regions and is in front of the others. -/
def Covering (minimum maximum : UInt64) (regions : List RegionDescription) (s : SpaceWalk)
    (log : Log) : Prop :=
  ∃ front back, regions = front ++ back ∧ Passed minimum front s ∧
    log = passedLog minimum front ∧ s.address ≤ maximum

/-- The region at the address of the walk. -/
theorem blockAt_of_passed (h : Passed minimum front s) :
    blockAt RegionDescription.size minimum.toNat (front ++ region :: back) s.address.toNat =
      some region := by
  rw [h.address, blockAt_append h.size_pos]

/-- As long as the maximum is not passed, there is a region left. -/
theorem ne_nil_of_covers (hcovers : Covers minimum maximum (front ++ back))
    (h : Passed minimum front s) (hle : s.address ≤ maximum) : back ≠ [] := by
  rintro rfl
  have hend := hcovers.2
  have haddress := h.address
  rw [UInt64.le_iff_toNat_le] at hle
  rw [List.append_nil] at hend
  omega

theorem not_exceeds {total : UInt64}
    (h : total.toNat = occupiedBytes ((reached minimum maximum regions).map Prod.snd)) :
    ¬ Exceeds minimum maximum regions := by
  rintro ⟨front, ⟨back, hback⟩, hlarge⟩
  have hlt := total.toNat_lt
  rw [h, ← hback, List.map_append, occupiedBytes_append] at hlt
  omega

/-- A region of the partition ends the walk with the right result, or brings it on. -/
theorem afterRegion_covering (hcovers : Covers minimum maximum (front ++ region :: back))
    (h : Passed minimum front s) (hle : s.address ≤ maximum) (log : Log) :
    BodyPost (Covering minimum maximum (front ++ region :: back)) (left maximum)
      (left maximum s log) (ExactOrTooLarge minimum maximum (front ++ region :: back))
      (afterRegion maximum s (.ok region))
      (passedLog minimum front ++ [(s.address.toNat, .ok region)]) := by
  have hsize : region.sizeBytes ≠ 0 := hcovers.1 region (by simp)
  have hstart : minimum.toNat + extent RegionDescription.size front ≤ maximum.toNat := by
    rw [← h.address]
    exact UInt64.le_iff_toNat_le.mp hle
  rcases afterRegion_eq h hle hsize with
    ⟨hlarge, hafter⟩ | ⟨hend, total, hafter, htotal⟩ | ⟨s', hafter, hpassed, hle', hlt⟩
  · rw [hafter]
    refine .inl ⟨⟨placed RegionDescription.size minimum.toNat (front ++ [region]), ?_, ?_⟩, rfl⟩
    · rw [reached, filter_placed h.size_pos hstart]
      exact List.prefix_append _ _
    · rwa [map_snd_placed]
  · have hreached : reached minimum maximum (front ++ region :: back) =
        placed RegionDescription.size minimum.toNat (front ++ [region]) :=
      filter_placed_of_lt h.size_pos hstart hend
    have hexact : total.toNat =
        occupiedBytes ((reached minimum maximum (front ++ region :: back)).map Prod.snd) := by
      rw [hreached, map_snd_placed, htotal]
    rw [hafter]
    refine .inr ⟨not_exceeds hexact, ?_, total, rfl, hexact⟩
    rw [hreached, ← passedLog_concat h region]
    rfl
  · rw [hafter]
    refine ⟨⟨front ++ [region], back, by simp, hpassed, (passedLog_concat h region).symm, hle'⟩, ?_⟩
    rw [UInt64.lt_iff_toNat_lt] at hlt
    rw [UInt64.le_iff_toNat_le] at hle'
    rw [left, left]
    omega

theorem ensures_describing (h : minimum ≤ maximum) (hcovers : Covers minimum maximum regions) :
    Ensures (describing minimum regions) (walk minimum maximum)
      (ExactOrTooLarge minimum maximum regions) [] := by
  apply ensures_iterate (Covering minimum maximum regions) (left maximum)
    ⟨[], regions, rfl, passed_start minimum, rfl, h⟩
  · exact fun _ _ _ _ h => h.elim
  · rintro s log ⟨front, back, rfl, hpassed, rfl, hle⟩
    obtain ⟨region, rest, rfl⟩ := List.exists_cons_of_ne_nil (ne_nil_of_covers hcovers hpassed hle)
    have hblock : blockAt RegionDescription.size minimum.toNat (front ++ region :: rest)
        s.address.toNat = some region := blockAt_of_passed hpassed
    rw [walkStep, if_pos hle]
    apply ensures_invoke
    intro log hlog
    refine ⟨⟨.ok region, _, fun region' hregion => ?_, rfl⟩, ?_⟩
    · rw [hblock] at hregion
      cases hregion
      rfl
    · rintro r log' ⟨hr, rfl⟩
      refine ensures_pure fun log' hlog' => ?_
      rw [eq_of_interference hlog', eq_of_interference hlog, hr region hblock]
      exact afterRegion_covering hcovers hpassed hle _
  · exact fun _ _ _ _ h => h.elim

/-- Whatever the answers are, the walk ends, its addresses never run over, and a region without
a size is an error. If the answers describe a partition of the space, every region that starts
at or below the maximum is visited once, and the sum of those that are not free is exact. -/
theorem address_space_walk_exact (minimum maximum : UInt64) :
    (Terminates anyAnswers ([], walk minimum maximum) ∧
      ∀ y, Runs anyAnswers ([], walk minimum maximum) y →
        (∃ result, y.2 = .done result ∧ Orderly minimum maximum y.1 ∧ Reported y.1 result) ∨
        ∃ z, Advance anyAnswers y z) ∧
    ∀ regions, minimum ≤ maximum → Covers minimum maximum regions →
      Terminates (describing minimum regions) ([], walk minimum maximum) ∧
      ∀ y, Runs (describing minimum regions) ([], walk minimum maximum) y →
        (∃ result, y.2 = .done result ∧ ExactOrTooLarge minimum maximum regions result y.1) ∨
        ∃ z, Advance (describing minimum regions) y z := by
  have hwf : WellFounded fun _ _ : Log => False := ⟨fun _ => ⟨_, fun _ h => h.elim⟩⟩
  refine ⟨ensures_sound hwf (ensures_anyAnswers minimum maximum), fun regions h hcovers => ?_⟩
  exact ensures_sound hwf (ensures_describing h hcovers)

/-- Two free regions, and one that ends far behind the maximum. -/
def fiveRegions : List RegionDescription :=
  [⟨false, 100⟩, ⟨true, 200⟩, ⟨false, 100⟩, ⟨true, 300⟩, ⟨true, 1000⟩]

theorem five_regions_summed : ∀ result log,
    Runs (describing 0 fiveRegions) ([], walk 0 1000) (log, .done result) → result = .ok 1500 := by
  intro result log hruns
  have hwalk := (address_space_walk_exact 0 1000).2 fiveRegions (by decide) (by decide)
  rcases hwalk.2 _ hruns with ⟨result', hresult, hexact⟩ | ⟨z, hz⟩
  · cases hresult
    have hsum : (1500 : UInt64).toNat =
        occupiedBytes ((reached 0 1000 fiveRegions).map Prod.snd) := by decide
    rcases hexact with ⟨hexceeds, -⟩ | ⟨-, -, total, rfl, htotal⟩
    · exact absurd hexceeds (not_exceeds hsum)
    · rw [UInt64.toNat_inj.mp (htotal.trans hsum.symm)]
  · cases hz

end Partition

end Syscape.Process.Windows
