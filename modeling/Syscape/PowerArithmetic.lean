import Syscape.PowerTypes

/-!
# Exact battery arithmetic

The kernel counts the charge, the voltage and the power of a battery in micro-units, in numbers
of 64 bits. What the battery reader computes from them is compared with exact arithmetic: the
percentage of the design capacity that is left, the voltages, and the power.
-/
namespace Syscape.Power
open Checked Text LinuxFile

section Readings

/-- The numbers in the files of a battery, as far as the reader looks at them. -/
structure Readings where
  condition : BatteryCondition
  energyFull : Option UInt64
  energyDesign : Option UInt64
  chargeFull : Option UInt64
  chargeDesign : Option UInt64
  voltageNow : Option UInt64
  voltageMinDesign : Option UInt64
  powerNow : Option Int64
  currentNow : Option Int64

/-- The full capacity and the design, which has to be a whole milli-unit at least. -/
def capacityPair : Option UInt64 → Option UInt64 → Option (ℕ × ℕ)
  | some full, some design => if 1000 ≤ design.toNat then some (full.toNat, design.toNat) else none
  | _, _ => none

/-- The capacities that the health is computed from: the energy, or else the charge. -/
def Readings.capacities (r : Readings) : Option (ℕ × ℕ) :=
  (capacityPair r.energyFull r.energyDesign).or (capacityPair r.chargeFull r.chargeDesign)

def Readings.health (r : Readings) : Option ℕ := r.capacities.map fun p => 100 * p.1 / p.2

/-- Microvolts; a battery without this file counts as one without voltage. -/
def Readings.microvolts (r : Readings) : ℕ := (r.voltageNow.map UInt64.toNat).getD 0

def millivolts (voltage : Option UInt64) : Option ℕ := voltage.map fun uv => uv.toNat / 1000

/-- Power is given off while the battery discharges. -/
def signedPower (condition : BatteryCondition) (milliwatts : ℕ) : ℤ :=
  if condition = .discharging then -milliwatts else milliwatts

/-- The power in milliwatts, recorded or from the current and the voltage. -/
def Readings.power (r : Readings) : Option ℤ :=
  match r.powerNow with
  | some uw => some (signedPower r.condition (uw.toInt.natAbs / 1000))
  | none => r.currentNow.map fun ua =>
      signedPower r.condition (ua.toInt.natAbs * r.microvolts / 10 ^ 9)

/-- The current, which is not looked at without a voltage. -/
def currentOf (fs : FileSystem) (entry : List UInt8) (uvNow : ℕ) : Result (Option ℤ) := do
  match ← readOptionalAttribute fs entry (ascii "current_now") with
  | none => .ok none
  | some content =>
    if uvNow > 0 then do
      let rawUa ← parseI64 content
      .ok (some rawUa)
    else .ok none

/-- The files of a battery that the reader accepts, with the numbers in them. -/
structure Accepted (fs : FileSystem) (entry : List UInt8) (r : Readings) : Prop where
  type : optionalAttribute fs entry "type" classifySupplyType = .ok (some .battery)
  present : ∃ flag, optionalAttribute fs entry "present" parseFlag = .ok flag
  condition : ∃ status, optionalAttribute fs entry "status" parseStatus = .ok status ∧
    status.getD .unknown = r.condition
  health : ∃ health, optionalAttribute fs entry "health" parseHealth = .ok health
  technology : ∃ technology, optionalAttribute fs entry "technology" parseTechnology = .ok technology
  manufacturer : ∃ text, optionalText fs entry "manufacturer" = .ok text
  modelName : ∃ text, optionalText fs entry "model_name" = .ok text
  serialNumber : ∃ text, optionalText fs entry "serial_number" = .ok text
  capacity : ∃ percent, optionalAttribute fs entry "capacity" parseCapacityPercent = .ok percent
  cycleCount : ∃ count, optionalAttribute fs entry "cycle_count" parseCycleCount = .ok count
  energyDesign : optionalAttribute fs entry "energy_full_design" parseU64 =
    .ok (r.energyDesign.map UInt64.toNat)
  energyFull : optionalAttribute fs entry "energy_full" parseU64 =
    .ok (r.energyFull.map UInt64.toNat)
  energyNow : ∃ energy, optionalAttribute fs entry "energy_now" parseU64 = .ok energy
  chargeDesign : optionalAttribute fs entry "charge_full_design" parseU64 =
    .ok (r.chargeDesign.map UInt64.toNat)
  chargeFull : optionalAttribute fs entry "charge_full" parseU64 =
    .ok (r.chargeFull.map UInt64.toNat)
  chargeNow : ∃ charge, optionalAttribute fs entry "charge_now" parseU64 = .ok charge
  voltageNow : optionalAttribute fs entry "voltage_now" parseU64 =
    .ok (r.voltageNow.map UInt64.toNat)
  voltageMinDesign : optionalAttribute fs entry "voltage_min_design" parseU64 =
    .ok (r.voltageMinDesign.map UInt64.toNat)
  powerNow : optionalAttribute fs entry "power_now" parseI64 = .ok (r.powerNow.map Int64.toInt)
  currentNow : r.powerNow = none →
    currentOf fs entry r.microvolts = .ok (r.currentNow.map Int64.toInt)
  temp : ∃ degrees, optionalAttribute fs entry "temp" parseTemperature = .ok degrees

/-- The exact results fit the types of the record: 32 bits, and 64 bits with a sign. -/
structure Readings.Fits (r : Readings) : Prop where
  health : ∀ percent ∈ r.health, percent < 2 ^ 32
  voltage : ∀ mv ∈ millivolts r.voltageNow, mv < 2 ^ 32
  voltageMin : ∀ mv ∈ millivolts r.voltageMinDesign, mv < 2 ^ 32
  power : ∀ mw ∈ r.power, -2 ^ 63 ≤ mw ∧ mw < 2 ^ 63

/-- The record has the exact results. -/
structure Readings.Exact (r : Readings) (record : BatteryRecord) : Prop where
  health : record.healthPercent = r.health
  voltage : record.voltageMillivolts = millivolts r.voltageNow
  voltageMin : record.voltageMinDesignMillivolts = millivolts r.voltageMinDesign
  power : record.powerRateMilliwatts = r.power

/-- What is reported is exact, and what does not fit is refused. -/
structure ExactOrRefused (r : Readings) (outcome : Result (Option BatteryRecord)) : Prop where
  defined : Defined outcome
  exact : ∀ record, outcome = .ok (some record) → r.Exact record
  refused : ¬ r.Fits → ∃ e, outcome = .error (.fail e)

/-- No whole percentage lies between the ratio of the capacities and the ratio of what is left
of them in whole milli-units. -/
def SamePercentage (full design : ℕ) : Prop :=
  ¬ ∃ k, (100 * (full / 1000) < k * (design / 1000) ∧ k * design ≤ 100 * full) ∨
    (k * (design / 1000) ≤ 100 * (full / 1000) ∧ 100 * full < k * design)

/-- The readings for which the arithmetic of the reader is exact. -/
structure Readings.Harmless (r : Readings) : Prop where
  health : ∀ p ∈ r.capacities, 100 * p.1 < 2 ^ 32 * p.2 ∧ SamePercentage p.1 p.2
  voltage : ∀ uv ∈ r.voltageNow, uv.toNat < 1000 * 2 ^ 32
  voltageMin : ∀ uv ∈ r.voltageMinDesign, uv.toNat < 1000 * 2 ^ 32
  current : r.powerNow = none → ∀ ua ∈ r.currentNow,
    ua.toInt ≠ -2 ^ 63 ∧ ua.toInt.natAbs * r.microvolts < 2 ^ 64

end Readings

section Health
variable {full design : ℕ}

/-- Two quotients differ if some number separates them. -/
lemma div_eq_div_iff {a b c d : ℕ} (hb : 0 < b) (hd : 0 < d) :
    a / b = c / d ↔ ¬ ∃ k, (a < k * b ∧ k * d ≤ c) ∨ (k * b ≤ a ∧ c < k * d) := by
  constructor
  · rintro h ⟨k, ⟨hlt, hle⟩ | ⟨hle, hlt⟩⟩
    · have hleft := (Nat.div_lt_iff_lt_mul hb).mpr hlt
      have hright := (Nat.le_div_iff_mul_le hd).mpr hle
      omega
    · have hleft := (Nat.le_div_iff_mul_le hb).mpr hle
      have hright := (Nat.div_lt_iff_lt_mul hd).mpr hlt
      omega
  · intro h
    by_contra hne
    rcases Nat.lt_or_gt_of_ne hne with hlt | hgt
    · exact h ⟨c / d, .inl ⟨(Nat.div_lt_iff_lt_mul hb).mp hlt, Nat.div_mul_le_self c d⟩⟩
    · exact h ⟨a / b, .inr ⟨Nat.div_mul_le_self a b, (Nat.div_lt_iff_lt_mul hd).mp hgt⟩⟩

/-- A percentage that is cut to 32 bits is not the exact one. -/
lemma lt_of_mod_eq (hdesign : 1000 ≤ design)
    (h : 100 * (full / 1000) / (design / 1000) % 2 ^ 32 = 100 * full / design) :
    100 * (full / 1000) / (design / 1000) < 2 ^ 32 := by
  by_contra hlarge
  set q := 100 * (full / 1000) / (design / 1000) with hq
  have hmilli : 0 < design / 1000 := by omega
  have hquot : q * (design / 1000) ≤ 100 * (full / 1000) := Nat.div_mul_le_self _ _
  have hexact : 100 * full < (q % 2 ^ 32 + 1) * design := by
    rw [h, Nat.add_mul, Nat.one_mul]
    exact Nat.lt_div_mul_add (by omega)
  have hdesign_le : design ≤ 1999 * (design / 1000) := by omega
  have hbound : 1000 * q * (design / 1000) < (q % 2 ^ 32 + 1) * 1999 * (design / 1000) := by
    calc 1000 * q * (design / 1000) = 1000 * (q * (design / 1000)) := Nat.mul_assoc _ _ _
      _ ≤ 100 * full := by omega
      _ < (q % 2 ^ 32 + 1) * design := hexact
      _ ≤ (q % 2 ^ 32 + 1) * (1999 * (design / 1000)) := Nat.mul_le_mul_left _ hdesign_le
      _ = (q % 2 ^ 32 + 1) * 1999 * (design / 1000) := (Nat.mul_assoc _ _ _).symm
  have hratio := Nat.lt_of_mul_lt_mul_right hbound
  omega

/-- When the percentage of the reader is exact. -/
lemma percent_iff (hfull : full < 2 ^ 64) (hdesign : 1000 ≤ design) :
    full / 1000 * 100 % 2 ^ 64 / (design / 1000) % 2 ^ 32 = 100 * full / design ∧
        100 * full / design < 2 ^ 32 ↔
      100 * full < 2 ^ 32 * design ∧ SamePercentage full design := by
  have hproduct : full / 1000 * 100 % 2 ^ 64 = 100 * (full / 1000) := by omega
  have hmilli : 0 < design / 1000 := by omega
  have hpos : 0 < design := by omega
  rw [hproduct, SamePercentage, ← div_eq_div_iff hmilli hpos, Nat.div_lt_iff_lt_mul hpos]
  constructor
  · rintro ⟨hexact, hfits⟩
    refine ⟨hfits, ?_⟩
    rwa [Nat.mod_eq_of_lt (lt_of_mod_eq hdesign hexact)] at hexact
  · rintro ⟨hfits, hexact⟩
    refine ⟨?_, hfits⟩
    rw [hexact, Nat.mod_eq_of_lt ((Nat.div_lt_iff_lt_mul hpos).mpr hfits)]

end Health

section Power
variable {fs : FileSystem} {entry : List UInt8} {r : Readings}

/-- The power that the reader computes from the numbers. -/
def Readings.computedPower (r : Readings) : Result (Option ℤ) :=
  match r.powerNow, r.currentNow with
  | some _, _ => .ok r.power
  | none, none => .ok none
  | none, some ua =>
    if ua.toInt = -(2 ^ 63) then .error .signedOverflow
    else .ok (some (signedPower r.condition
      (ua.toInt.natAbs * r.microvolts % 2 ^ 64 / 1000000000)))

/-- The sign of a recorded power is replaced. -/
lemma recorded_eq (condition : BatteryCondition) (uw : ℤ) :
    (if condition = .discharging then
        (if uw.tdiv 1000 < 0 then uw.tdiv 1000 else -uw.tdiv 1000)
      else if uw.tdiv 1000 < 0 then -uw.tdiv 1000 else uw.tdiv 1000) =
      signedPower condition (uw.natAbs / 1000) := by
  unfold signedPower
  have hmagnitude : (uw.tdiv 1000).natAbs = uw.natAbs / 1000 := by
    rw [Int.natAbs_tdiv]
    rfl
  rw [← hmagnitude]
  split_ifs <;> omega

lemma powerRate_eq (h : Accepted fs entry r) :
    powerRate fs entry r.condition r.microvolts = r.computedPower := by
  have hpower := h.powerNow
  unfold optionalAttribute at hpower
  obtain ⟨content, hcontent, hparse⟩ := bind_eq_ok.mp hpower
  unfold powerRate Readings.computedPower
  rw [hcontent, ok_bind]
  cases content with
  | some content =>
    obtain ⟨uw, huw, hok⟩ := bind_eq_ok.mp hparse
    cases hnow : r.powerNow with
    | none =>
      rw [hnow] at hok
      cases hok
    | some now =>
      rw [hnow] at hok
      cases hok
      simp only [huw, ok_bind, Readings.power, hnow, ← recorded_eq]
      split_ifs <;> rfl
  | none =>
    cases hnow : r.powerNow with
    | some now =>
      rw [hnow] at hparse
      cases hparse
    | none =>
      have hcurrent := h.currentNow hnow
      unfold currentOf at hcurrent
      obtain ⟨content, hcontent, hread⟩ := bind_eq_ok.mp hcurrent
      simp only [hcontent, ok_bind]
      cases content with
      | none =>
        cases hua : r.currentNow with
        | none => rfl
        | some ua =>
          rw [hua] at hread
          cases hread
      | some content =>
        simp only at hread ⊢
        split_ifs at hread with hvoltage
        · obtain ⟨ua, hparsed, hok⟩ := bind_eq_ok.mp hread
          cases hua : r.currentNow with
          | none =>
            rw [hua] at hok
            cases hok
          | some current =>
            rw [hua] at hok
            cases hok
            rw [if_pos hvoltage, hparsed, ok_bind]
            rfl
        · cases hua : r.currentNow with
          | none =>
            rw [if_neg hvoltage]
          | some current =>
            rw [hua] at hread
            cases hread

/-- The power is exact if the product of current and voltage has 64 bits. -/
lemma computedPower_eq_iff : (r.computedPower = .ok r.power ∧
      ∀ mw ∈ r.power, -2 ^ 63 ≤ mw ∧ mw < 2 ^ 63) ↔
    (r.powerNow = none → ∀ ua ∈ r.currentNow,
      ua.toInt ≠ -2 ^ 63 ∧ ua.toInt.natAbs * r.microvolts < 2 ^ 64) := by
  have hfits (condition : BatteryCondition) (n : ℕ) :
      (-2 ^ 63 ≤ signedPower condition n ∧ signedPower condition n < 2 ^ 63) ↔
        n < 2 ^ 63 ∨ (n = 2 ^ 63 ∧ condition = .discharging) := by
    unfold signedPower
    split_ifs with hcondition
    · simp only [hcondition, and_true]
      omega
    · simp only [hcondition, and_false, or_false]
      omega
  have hsigned (condition : BatteryCondition) (m n : ℕ) :
      signedPower condition m = signedPower condition n ↔ m = n := by
    unfold signedPower
    split_ifs <;> omega
  unfold Readings.computedPower Readings.power
  cases hnow : r.powerNow with
  | some uw =>
    have hle := uw.le_toInt
    have hlt := uw.toInt_lt
    simp only [reduceCtorEq, false_implies, iff_true, true_and]
    intro mw hmw
    cases hmw
    rw [hfits]
    omega
  | none =>
    cases hua : r.currentNow with
    | none => simp
    | some ua =>
      have hle := ua.le_toInt
      simp only [true_implies, Option.map_some, Option.mem_some_iff, forall_eq']
      by_cases hmin : ua.toInt = -2 ^ 63
      · simp [hmin]
      · rw [if_neg hmin]
        simp only [Except.ok.injEq, Option.some_inj, hsigned, hfits, ne_eq, hmin,
          not_false_eq_true, true_and]
        generalize ua.toInt.natAbs * r.microvolts = product
        omega

/-- It either has a value or negates the least number. -/
lemma computedPower_cases (r : Readings) :
    (∃ p, r.computedPower = .ok p) ∨ r.computedPower = .error .signedOverflow := by
  unfold Readings.computedPower
  split
  · exact .inl ⟨_, rfl⟩
  · exact .inl ⟨_, rfl⟩
  · split_ifs
    · exact .inr rfl
    · exact .inl ⟨_, rfl⟩

end Power

section Collecting
variable {fs : FileSystem} {entry : List UInt8} {r : Readings}

/-- The health that the reader computes from the numbers. -/
def Readings.computedHealth (r : Readings) : Option ℕ :=
  r.capacities.map fun p => p.1 / 1000 * 100 % 2 ^ 64 / (p.2 / 1000) % 2 ^ 32

lemma healthPercent_eq (r : Readings) :
    healthPercent ((r.energyFull.map UInt64.toNat).map (· / 1000))
      ((r.energyDesign.map UInt64.toNat).map (· / 1000))
      ((r.chargeFull.map UInt64.toNat).map (· / 1000))
      ((r.chargeDesign.map UInt64.toNat).map (· / 1000)) = r.computedHealth := by
  have hmilli (n : ℕ) : n / 1000 > 0 ↔ 1000 ≤ n := by omega
  have hcharge : healthPercent.ofCharge ((r.chargeFull.map UInt64.toNat).map (· / 1000))
      ((r.chargeDesign.map UInt64.toNat).map (· / 1000))
      (fun full design => full * 100 % 2 ^ 64 / design % 2 ^ 32) =
      (capacityPair r.chargeFull r.chargeDesign).map fun p =>
        p.1 / 1000 * 100 % 2 ^ 64 / (p.2 / 1000) % 2 ^ 32 := by
    unfold healthPercent.ofCharge capacityPair
    cases r.chargeFull <;> cases r.chargeDesign <;> simp only [Option.map_none, Option.map_some]
    simp only [hmilli]
    split_ifs <;> rfl
  unfold healthPercent Readings.computedHealth Readings.capacities
  simp only [hcharge]
  cases r.energyFull with
  | none => rfl
  | some full =>
    cases r.energyDesign with
    | none => rfl
    | some design =>
      simp only [Option.map_some, hmilli, capacityPair]
      split_ifs <;> rfl

/-- The record of an accepted battery has what is computed from the numbers. -/
lemma collectBattery_eq (h : Accepted fs entry r) : ∃ record : BatteryRecord,
    collectBattery fs entry =
        (r.computedPower >>= fun power =>
          .ok (some { record with powerRateMilliwatts := power })) ∧
      record.healthPercent = r.computedHealth ∧
      record.voltageMillivolts = (millivolts r.voltageNow).map (· % 2 ^ 32) ∧
      record.voltageMinDesignMillivolts = (millivolts r.voltageMinDesign).map (· % 2 ^ 32) := by
  obtain ⟨present, hpresent⟩ := h.present
  obtain ⟨status, hstatus, hcondition⟩ := h.condition
  obtain ⟨health, hhealth⟩ := h.health
  obtain ⟨technology, htechnology⟩ := h.technology
  obtain ⟨manufacturer, hmanufacturer⟩ := h.manufacturer
  obtain ⟨modelName, hmodelName⟩ := h.modelName
  obtain ⟨serialNumber, hserialNumber⟩ := h.serialNumber
  obtain ⟨percent, hpercent⟩ := h.capacity
  obtain ⟨count, hcount⟩ := h.cycleCount
  obtain ⟨energy, henergy⟩ := h.energyNow
  obtain ⟨charge, hcharge⟩ := h.chargeNow
  obtain ⟨degrees, hdegrees⟩ := h.temp
  have hpower := powerRate_eq h
  unfold Readings.microvolts at hpower
  unfold collectBattery optionalMilli
  simp only [h.type, hpresent, hstatus, hhealth, htechnology, hmanufacturer, hmodelName,
    hserialNumber, hpercent, hcount, h.energyDesign, h.energyFull, henergy, h.chargeDesign,
    h.chargeFull, hcharge, h.voltageNow, h.voltageMinDesign, ok_bind, hcondition, hpower, hdegrees,
    healthPercent_eq]
  refine ⟨{
    identifier := entry
    present := present.getD true
    condition := r.condition
    chargePercent := percent
    cycleCount := count.filter (· ≠ 0)
    health := health.getD .unknown
    technology := technology.getD .unknown
    manufacturer := manufacturer
    modelName := modelName
    serialNumber := serialNumber
    healthPercent := r.computedHealth
    energyDesignMwh := (r.energyDesign.map UInt64.toNat).map (· / 1000)
    energyFullMwh := (r.energyFull.map UInt64.toNat).map (· / 1000)
    energyNowMwh := energy.map (· / 1000)
    chargeDesignMah := (r.chargeDesign.map UInt64.toNat).map (· / 1000)
    chargeFullMah := (r.chargeFull.map UInt64.toNat).map (· / 1000)
    chargeNowMah := charge.map (· / 1000)
    voltageMillivolts := (r.voltageNow.map UInt64.toNat).map fun uv => uv / 1000 % 2 ^ 32
    voltageMinDesignMillivolts :=
      ((r.voltageMinDesign.map UInt64.toNat).map (· / 1000)).map (· % 2 ^ 32)
    powerRateMilliwatts := none
    temperatureCelsius := degrees }, rfl, rfl, ?_, ?_⟩
  · unfold millivolts
    cases r.voltageNow <;> rfl
  · unfold millivolts
    cases r.voltageMinDesign <;> rfl

lemma millivolts_eq_iff (voltage : Option UInt64) :
    ((millivolts voltage).map (· % 2 ^ 32) = millivolts voltage ∧
        ∀ mv ∈ millivolts voltage, mv < 2 ^ 32) ↔
      ∀ uv ∈ voltage, uv.toNat < 1000 * 2 ^ 32 := by
  cases voltage with
  | none => simp [millivolts]
  | some uv =>
    simp only [millivolts, Option.map_some, Option.some_inj, Option.mem_some_iff, forall_eq']
    omega

lemma computedHealth_eq_iff :
    (r.computedHealth = r.health ∧ ∀ percent ∈ r.health, percent < 2 ^ 32) ↔
    ∀ p ∈ r.capacities, 100 * p.1 < 2 ^ 32 * p.2 ∧ SamePercentage p.1 p.2 := by
  have hpair (full design : Option UInt64) : ∀ p ∈ capacityPair full design,
      p.1 < 2 ^ 64 ∧ 1000 ≤ p.2 := by
    intro p hp
    unfold capacityPair at hp
    split at hp
    · next full design =>
      split_ifs at hp with hle
      · cases hp
        exact ⟨full.toNat_lt, hle⟩
      · cases hp
    · cases hp
  have hbounds : ∀ p ∈ r.capacities, p.1 < 2 ^ 64 ∧ 1000 ≤ p.2 := by
    intro p hp
    rcases Option.or_eq_some_iff.mp hp with henergy | ⟨-, hcharge⟩
    · exact hpair _ _ p henergy
    · exact hpair _ _ p hcharge
  unfold Readings.computedHealth Readings.health
  cases hp : r.capacities with
  | none => simp
  | some p =>
    obtain ⟨hfull, hdesign⟩ := hbounds p hp
    simp only [Option.map_some, Option.some_inj, Option.mem_some_iff, forall_eq']
    exact percent_iff hfull hdesign

/-- The arithmetic of an accepted battery is exact, or refused where it does not fit, just for
the harmless readings. -/
theorem battery_arithmetic (h : Accepted fs entry r) :
    ExactOrRefused r (collectBattery fs entry) ↔ r.Harmless := by
  obtain ⟨record, hcollect, hhealth, hvoltage, hvoltageMin⟩ := collectBattery_eq h
  rw [hcollect]
  constructor
  · intro hexact
    rcases computedPower_cases r with ⟨power, hpower⟩ | hoverflow
    · have hrecord := hexact.exact { record with powerRateMilliwatts := power } (by rw [hpower]; rfl)
      have hfits : r.Fits := by
        by_contra hfits
        obtain ⟨e, he⟩ := hexact.refused hfits
        rw [hpower] at he
        cases he
      exact ⟨computedHealth_eq_iff.mp ⟨hhealth ▸ hrecord.health, hfits.health⟩,
        (millivolts_eq_iff _).mp ⟨hvoltage ▸ hrecord.voltage, hfits.voltage⟩,
        (millivolts_eq_iff _).mp ⟨hvoltageMin ▸ hrecord.voltageMin, hfits.voltageMin⟩,
        computedPower_eq_iff.mp ⟨hpower.trans (congrArg Except.ok hrecord.power), hfits.power⟩⟩
    · have hdefined := hexact.defined
      rw [hoverflow] at hdefined
      exact absurd hdefined not_defined_signedOverflow
  · intro hharmless
    obtain ⟨hhealth', hhealth_fits⟩ := computedHealth_eq_iff.mpr hharmless.health
    obtain ⟨hvoltage', hvoltage_fits⟩ := (millivolts_eq_iff _).mpr hharmless.voltage
    obtain ⟨hmin', hmin_fits⟩ := (millivolts_eq_iff _).mpr hharmless.voltageMin
    obtain ⟨hpower, hpower_fits⟩ := computedPower_eq_iff.mpr hharmless.current
    rw [hpower, ok_bind]
    refine ⟨defined_ok _, ?_, ?_⟩
    · intro out hout
      cases hout
      exact ⟨hhealth.trans hhealth', hvoltage.trans hvoltage', hvoltageMin.trans hmin', rfl⟩
    · exact fun hfits => absurd ⟨hhealth_fits, hvoltage_fits, hmin_fits, hpower_fits⟩ hfits

/-- A system with one supply, whose files have these texts. -/
def batteryFiles (files : List (String × String)) : FileSystem := fun path =>
  match files.find? fun file => path = attributePath (ascii "BAT0") (ascii file.1) with
  | some file => .content (ascii file.2)
  | none => .absent

/-- A battery with nothing but a voltage. -/
def onlyVoltage (condition : BatteryCondition) (voltage : UInt64) : Readings where
  condition := condition
  energyFull := none
  energyDesign := none
  chargeFull := none
  chargeDesign := none
  voltageNow := some voltage
  voltageMinDesign := none
  powerNow := none
  currentNow := none

/-- A laptop that discharges: nine tenths of its capacity are left, and the power is not recorded. -/
def laptopReadings : Readings where
  condition := .discharging
  energyFull := some 45123000
  energyDesign := some 50000000
  chargeFull := none
  chargeDesign := none
  voltageNow := some 11700000
  voltageMinDesign := some 11400000
  powerNow := none
  currentNow := some 1500000

def laptopFiles : FileSystem :=
  batteryFiles [("type", "Battery\n"), ("status", "Discharging\n"),
    ("energy_full", "45123000\n"), ("energy_full_design", "50000000\n"),
    ("voltage_now", "11700000\n"), ("voltage_min_design", "11400000\n"),
    ("current_now", "1500000\n")]

theorem battery_arithmetic_laptop :
    ExactOrRefused laptopReadings (collectBattery laptopFiles (ascii "BAT0")) ∧
    (collectBattery laptopFiles (ascii "BAT0")).map (fun record => record.map fun battery =>
        (battery.healthPercent, battery.voltageMillivolts, battery.voltageMinDesignMillivolts,
          battery.powerRateMilliwatts)) =
      .ok (some (some 90, some 11700, some 11400, some (-17550))) := by
  refine ⟨(battery_arithmetic ?_).mpr ?_, by decide⟩
  · constructor
    case type => decide
    case energyDesign => decide
    case energyFull => decide
    case chargeDesign => decide
    case chargeFull => decide
    case voltageNow => decide
    case voltageMinDesign => decide
    case powerNow => decide
    case currentNow => decide
    case condition => exact ⟨some .discharging, by decide, rfl⟩
    case manufacturer => exact ⟨[], by decide⟩
    case modelName => exact ⟨[], by decide⟩
    case serialNumber => exact ⟨[], by decide⟩
    all_goals exact ⟨none, by decide⟩
  · have hsame : SamePercentage 45123000 50000000 :=
      (div_eq_div_iff (by decide) (by decide)).mp (by decide)
    constructor
    · intro p hp
      cases hp
      exact ⟨by decide, hsame⟩
    · intro uv huv
      cases huv
      decide
    · intro uv huv
      cases huv
      decide
    · intro _ ua hua
      cases hua
      decide

/-- Four gigavolts and more are reported as no voltage. -/
theorem battery_arithmetic_narrowed : ¬ ExactOrRefused (onlyVoltage .unknown 4294967296000)
    (collectBattery (batteryFiles [("type", "Battery\n"), ("voltage_now", "4294967296000\n")])
      (ascii "BAT0")) := by
  intro h
  have hvoltage : (collectBattery
      (batteryFiles [("type", "Battery\n"), ("voltage_now", "4294967296000\n")])
      (ascii "BAT0")).map (fun record => record.map BatteryRecord.voltageMillivolts) =
      .ok (some (some 0)) := by decide
  obtain ⟨out, hout, hmap⟩ := map_eq_ok.mp hvoltage
  cases out with
  | none => cases hmap
  | some record =>
    have hexact := (h.exact record hout).voltage
    rw [Option.map_some, Option.some_inj] at hmap
    rw [hmap] at hexact
    exact absurd hexact (by decide)

end Collecting

end Syscape.Power
