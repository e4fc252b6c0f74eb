import MatrixMedia.Fleet.Growth
import Mathlib.Tactic.Ring

/-!
# Whole billing periods

A TTL and a projected cost are rounded up to what the provider charges
(`mm-core/src/fleet/billing.rs`, `mm-fleet/src/wallet_billing.rs`). `roundedSecs` is the rounding
without machine arithmetic; the code's is that one unless the product passes `u32`
(`toNat_roundTtlSecs`). It does within an hour of the largest `u32` (`ttl_overflows`). A projection
by the second counts every second as a minute (`seconds_cost_minutes`).
-/

namespace MatrixMedia.Fleet
open Lib Lib.U32

section
variable (increment : BillingIncrement)

/-- `self.seconds() as u32`. -/
def BillingIncrement.unit : UInt32 := UInt32.ofInt increment.seconds

/-- `BillingIncrement::round_ttl_secs`. -/
def BillingIncrement.roundTtlSecs (requested : UInt32) : UInt32 :=
  -- Never zero: the node would be destroyed as soon as it exists.
  if requested = 0 then increment.unit
  else divCeil requested increment.unit * increment.unit

/-- `FleetPolicy::with_ttl_secs`. -/
def FleetPolicy.withTtlSecs (policy : FleetPolicy) (requested : UInt32) : FleetPolicy :=
  { policy with rentedTtlSecs := policy.billingIncrement.roundTtlSecs requested }

/-- `FleetPolicy::with_billing_increment`. -/
def FleetPolicy.withBillingIncrement (policy : FleetPolicy) (increment : BillingIncrement) : FleetPolicy :=
  { policy with billingIncrement := increment, rentedTtlSecs := increment.roundTtlSecs policy.rentedTtlSecs }

/-- At least one period, and as many as it takes. -/
def BillingIncrement.roundedSecs (requested : UInt32) : Nat :=
  max 1 ((requested.toNat + increment.unit.toNat - 1) / increment.unit.toNat) * increment.unit.toNat

end

theorem BillingIncrement.toNat_unit (increment : BillingIncrement) : (increment.unit.toNat : Int) = increment.seconds := by
  cases increment <;> rfl

theorem BillingIncrement.unit_pos (increment : BillingIncrement) : 0 < increment.unit.toNat := by
  cases increment <;> decide

theorem toNat_roundTtlSecs {increment : BillingIncrement} {requested : UInt32}
    (fits : increment.roundedSecs requested < 2 ^ 32) :
    (increment.roundTtlSecs requested).toNat = increment.roundedSecs requested := by
  have pos := increment.unit_pos
  unfold BillingIncrement.roundTtlSecs
  unfold BillingIncrement.roundedSecs at fits ⊢
  split
  · rename_i zero
    rw [zero, UInt32.toNat_zero, Nat.div_eq_of_lt (by omega), Nat.max_eq_left (by omega), Nat.one_mul]
  · rename_i some
    have asked : 0 < requested.toNat := Nat.pos_of_ne_zero fun zero => some (UInt32.toNat_inj.mp zero)
    have one : 1 ≤ (requested.toNat + increment.unit.toNat - 1) / increment.unit.toNat :=
      (Nat.one_le_div_iff pos).mpr (by omega)
    rw [Nat.max_eq_right one] at fits ⊢
    rw [UInt32.toNat_mul, toNat_divCeil _ _ pos, Nat.mod_eq_of_lt fits]

/-- The last whole period of `u32`. -/
def BillingIncrement.lastWhole (increment : BillingIncrement) : Nat := (2 ^ 32 - 1) / increment.unit.toNat * increment.unit.toNat

section
variable (increment : BillingIncrement) (requested : UInt32)

theorem unit_dvd_roundedSecs : increment.unit.toNat ∣ increment.roundedSecs requested :=
  Nat.dvd_mul_left _ _

theorem roundedSecs_pos : 0 < increment.roundedSecs requested :=
  Nat.mul_pos (by omega) increment.unit_pos

/-- Rounding adds less than a period. -/
theorem roundedSecs_bounds : requested.toNat ≤ increment.roundedSecs requested ∧
    (0 < requested.toNat → increment.roundedSecs requested < requested.toNat + increment.unit.toNat) := by
  have pos := increment.unit_pos
  unfold BillingIncrement.roundedSecs
  have exact := Nat.div_add_mod (requested.toNat + increment.unit.toNat - 1) increment.unit.toNat
  have rest := Nat.mod_lt (requested.toNat + increment.unit.toNat - 1) pos
  rw [Nat.mul_comm] at exact
  rcases Nat.eq_zero_or_pos ((requested.toNat + increment.unit.toNat - 1) / increment.unit.toNat) with none | some
  · rw [none, Nat.zero_mul] at exact
    rw [none]
    omega
  · rw [Nat.max_eq_right some]
    omega

end

/-- What is rounded to an increment fits exactly if it is not past the last whole period, and it is then not past that of
any other increment that it was not past before. -/
theorem roundedSecs_fits (increment : BillingIncrement) (requested : UInt32) :
    (increment.roundedSecs requested < 2 ^ 32 ↔ requested.toNat ≤ increment.lastWhole) ∧
    (increment.roundedSecs requested < 2 ^ 32 → ∀ other : BillingIncrement, requested.toNat ≤ other.lastWhole →
      increment.roundedSecs requested ≤ other.lastWhole) := by
  have units : BillingIncrement.perSecond.unit.toNat = 1 ∧ BillingIncrement.perMinute.unit.toNat = 60 ∧
      BillingIncrement.perHour.unit.toNat = 3600 := by decide
  unfold BillingIncrement.roundedSecs BillingIncrement.lastWhole
  refine ⟨?_, fun fits other => ?_⟩
  · cases increment <;> simp only [units] <;> omega
  · cases increment <;> cases other <;> simp only [units] at fits ⊢ <;> omega

/-! ## Policies -/

inductive PolicyCall where
  | withTtlSecs (requested : UInt32)
  | withBillingIncrement (increment : BillingIncrement)

namespace PolicyCall

def apply (policy : FleetPolicy) : PolicyCall → FleetPolicy
  | withTtlSecs requested => policy.withTtlSecs requested
  | withBillingIncrement increment => policy.withBillingIncrement increment

/-- What the call rounds, and by which increment. -/
def rounds (policy : FleetPolicy) : PolicyCall → BillingIncrement × UInt32
  | withTtlSecs requested => (policy.billingIncrement, requested)
  | withBillingIncrement increment => (increment, policy.rentedTtlSecs)

/-- The exact product that the call computes in `u32`. -/
def product (policy : FleetPolicy) (call : PolicyCall) : Nat := (call.rounds policy).1.roundedSecs (call.rounds policy).2

/-- The TTL asked for last, a policy's own before the first call. -/
def asked (last : UInt32) : PolicyCall → UInt32
  | withTtlSecs requested => requested
  | withBillingIncrement _ => last

end PolicyCall

/-- Every TTL asked for is at most the last whole period of each increment that is in force before the next one is asked for. -/
def Moderate : BillingIncrement → UInt32 → List PolicyCall → Prop
  | _, _, [] => True
  | increment, _, .withTtlSecs requested :: calls => requested.toNat ≤ increment.lastWhole ∧ Moderate increment requested calls
  | _, last, .withBillingIncrement increment :: calls => last.toNat ≤ increment.lastWhole ∧ Moderate increment last calls

/-- A positive number of whole periods that covers what was asked for. -/
structure WholePeriods (policy : FleetPolicy) (asked : UInt32) : Prop where
  pos : 0 < policy.rentedTtlSecs.toNat
  whole : policy.billingIncrement.unit.toNat ∣ policy.rentedTtlSecs.toNat
  covers : asked ≤ policy.rentedTtlSecs

/-- No call's product passes `u32`. -/
def NoOverflow : FleetPolicy → List PolicyCall → Prop
  | _, [] => True
  | policy, call :: calls => call.product policy < 2 ^ 32 ∧ NoOverflow (call.apply policy) calls

variable {asked : UInt32} {policy : FleetPolicy} {call : PolicyCall} {calls : List PolicyCall}

/-- The TTL is past no last whole period that what was asked for is not past: the periods divide each other, so that one
rounding after the other is the coarsest of them. -/
structure Rounded (policy : FleetPolicy) (asked : UInt32) : Prop extends WholePeriods policy asked where
  le : ∀ increment : BillingIncrement, asked.toNat ≤ increment.lastWhole → policy.rentedTtlSecs.toNat ≤ increment.lastWhole

theorem Rounded.apply (h : Rounded policy asked) (fits : call.product policy < 2 ^ 32) :
    Rounded (call.apply policy) (call.asked asked) := by
  have ttl : (call.apply policy).rentedTtlSecs.toNat = call.product policy := by
    cases call <;> exact toNat_roundTtlSecs fits
  have increment : (call.apply policy).billingIncrement = (call.rounds policy).1 := by cases call <;> rfl
  have kept : (call.asked asked).toNat ≤ (call.rounds policy).2.toNat ∧ ∀ increment : BillingIncrement,
      (call.asked asked).toNat ≤ increment.lastWhole → (call.rounds policy).2.toNat ≤ increment.lastWhole := by
    cases call with
    | withTtlSecs requested => exact ⟨Nat.le_refl _, fun _ le => le⟩
    | withBillingIncrement increment => exact ⟨UInt32.le_iff_toNat_le.mp h.covers, h.le⟩
  refine ⟨⟨ttl ▸ roundedSecs_pos _ _, ?_, ?_⟩, fun other le => ttl ▸ (roundedSecs_fits _ _).2 fits other (kept.2 other le)⟩
  · rw [ttl, increment]
    exact unit_dvd_roundedSecs _ _
  · rw [UInt32.le_iff_toNat_le, ttl]
    exact kept.1.trans (roundedSecs_bounds _ _).1

/-- A call's product fits exactly if it asks, or keeps to, what is moderate. -/
theorem Rounded.noOverflow_iff (h : Rounded policy asked) : NoOverflow policy calls ↔ Moderate policy.billingIncrement asked calls := by
  induction calls generalizing policy asked with
  | nil => rfl
  | cons call calls ih =>
    cases call with
    | withTtlSecs requested =>
      show _ ∧ _ ↔ _ ∧ _
      rw [← (roundedSecs_fits _ _).1]
      exact and_congr_right fun fits => ih (@h.apply _ _ (.withTtlSecs requested) fits)
    | withBillingIncrement increment =>
      have covered : increment.roundedSecs policy.rentedTtlSecs < 2 ^ 32 ↔ asked.toNat ≤ increment.lastWhole := by
        rw [(roundedSecs_fits _ _).1]
        exact ⟨(UInt32.le_iff_toNat_le.mp h.covers).trans, h.le increment⟩
      show _ ∧ _ ↔ _ ∧ _
      rw [← covered]
      exact and_congr_right fun fits => ih (@h.apply _ _ (.withBillingIncrement increment) fits)

theorem Rounded.foldl (h : Rounded policy asked) (fit : NoOverflow policy calls) :
    Rounded (calls.foldl PolicyCall.apply policy) (calls.foldl PolicyCall.asked asked) := by
  induction calls generalizing policy asked with
  | nil => exact h
  | cons call calls ih => exact ih (h.apply fit.1) fit.2

/-- **A TTL is a whole number of billing periods** that covers the last one asked for, and no product passes `u32`, after
exactly the calls that ask for moderate TTLs. -/
theorem ttl_whole_periods (calls : List PolicyCall) (region size : String) :
    (WholePeriods (calls.foldl PolicyCall.apply (conservative region size))
        (calls.foldl PolicyCall.asked (conservative region size).rentedTtlSecs) ∧
      NoOverflow (conservative region size) calls) ↔
    Moderate .perHour (conservative region size).rentedTtlSecs calls := by
  have start : Rounded (conservative region size) (conservative region size).rentedTtlSecs :=
    ⟨⟨show 0 < (3 * 3600 : UInt32).toNat by decide, show BillingIncrement.perHour.unit.toNat ∣ (3 * 3600 : UInt32).toNat by decide,
      UInt32.le_refl _⟩, fun _ le => le⟩
  refine ⟨fun h => start.noOverflow_iff.mp h.2, fun moderate => ?_⟩
  have fit := start.noOverflow_iff.mpr moderate
  exact ⟨(start.foldl fit).toWholePeriods, fit⟩

/-- By the second the largest `u32` can be asked for, as long as another TTL is before the next increment. -/
def retuned : List PolicyCall :=
  [.withBillingIncrement .perSecond, .withTtlSecs 4294967295, .withTtlSecs 5400, .withBillingIncrement .perMinute, .withBillingIncrement .perHour]

theorem ttl_whole_retuned : WholePeriods (retuned.foldl PolicyCall.apply (conservative "fr-par" "DEV1-S")) 5400 ∧
    NoOverflow (conservative "fr-par" "DEV1-S") retuned :=
  (ttl_whole_periods retuned "fr-par" "DEV1-S").mpr ⟨by decide, by decide, by decide, by decide, by decide, trivial⟩

/-- The largest `u32` asked for by the hour: 1193047 hours are past `u32`, and 1904 s are left. -/
theorem ttl_overflows : ((conservative "fr-par" "DEV1-S").withTtlSecs 4294967295).rentedTtlSecs = 1904 ∧
    2 ^ 32 ≤ (PolicyCall.withTtlSecs 4294967295).product (conservative "fr-par" "DEV1-S") ∧ ¬ 3600 ∣ 1904 := by
  decide

/-! ## Projections -/

/-- The prices of `RateCard` a projection reads. -/
structure RateCard where
  nodeMinuteMinor : Int
  gpuMinuteMinor : Int

/-- The fan-out part of `project_cost_minor`. Its `i64` products are exact here: nothing is said of
those that overflow. -/
def fanoutCostMinor (card : RateCard) (fanoutNodes horizonSecs : UInt32) (fanoutIncrement : BillingIncrement) : Int :=
  let fanoutPeriods := fanoutIncrement.roundTtlSecs horizonSecs / max fanoutIncrement.unit 1
  let fanoutMinutesPerPeriod := max (fanoutIncrement.seconds / 60) 1
  fanoutNodes.toNat * fanoutPeriods.toNat * fanoutMinutesPerPeriod * card.nodeMinuteMinor

/-- `project_cost_minor`. -/
def projectCostMinor (card : RateCard) (fanoutNodes transcodeNodes horizonSecs : UInt32) (fanoutIncrement : BillingIncrement) : Int :=
  let gpuMinutes := divCeil horizonSecs 60
  fanoutCostMinor card fanoutNodes horizonSecs fanoutIncrement + transcodeNodes.toNat * gpuMinutes.toNat * card.gpuMinuteMinor

section
variable {card : RateCard} {fanoutNodes horizonSecs : UInt32} {increment : BillingIncrement}

/-- The minutes that are charged: by the second every period is a whole one. -/
def minutesCharged (increment : BillingIncrement) (horizonSecs : UInt32) : Nat :=
  match increment with
  | .perSecond => increment.roundedSecs horizonSecs
  | _ => increment.roundedSecs horizonSecs / 60

theorem fanoutCostMinor_eq (fits : increment.roundedSecs horizonSecs < 2 ^ 32) :
    fanoutCostMinor card fanoutNodes horizonSecs increment = fanoutNodes.toNat * card.nodeMinuteMinor * minutesCharged increment horizonSecs := by
  have minutes : (increment.roundTtlSecs horizonSecs / max increment.unit 1).toNat * max (increment.seconds / 60) 1 =
      (minutesCharged increment horizonSecs : Int) := by
    rw [UInt32.toNat_div, toNat_roundTtlSecs fits]
    obtain ⟨periods, eq⟩ := unit_dvd_roundedSecs increment horizonSecs
    cases increment with
    | perSecond =>
      rw [minutesCharged, eq]
      show ((1 * periods / 1 : Nat) : Int) * 1 = (1 * periods : Nat)
      omega
    | perMinute =>
      rw [minutesCharged, eq]
      · show ((60 * periods / 60 : Nat) : Int) * 1 = (60 * periods / 60 : Nat)
        omega
      · exact nofun
    | perHour =>
      rw [minutesCharged, eq]
      · show ((3600 * periods / 3600 : Nat) : Int) * 60 = (3600 * periods / 60 : Nat)
        omega
      · exact nofun
  rw [← minutes]
  unfold fanoutCostMinor
  ring

/-- Minutes are right for minutes and hours only. -/
theorem minutesCharged_iff (pos : 0 < horizonSecs.toNat) (increment : BillingIncrement) :
    (horizonSecs.toNat ≤ 60 * minutesCharged increment horizonSecs ∧
      60 * minutesCharged increment horizonSecs < horizonSecs.toNat + increment.unit.toNat) ↔ increment ≠ .perSecond := by
  obtain ⟨low, high⟩ := roundedSecs_bounds increment horizonSecs
  obtain ⟨periods, eq⟩ := unit_dvd_roundedSecs increment horizonSecs
  have high := high pos
  cases increment with
  | perSecond =>
    have unit : BillingIncrement.perSecond.unit.toNat = 1 := rfl
    simp only [minutesCharged, ne_eq, not_true_eq_false, iff_false]
    omega
  | perMinute =>
    have unit : BillingIncrement.perMinute.unit.toNat = 60 := rfl
    simp only [minutesCharged, ne_eq, reduceCtorEq, not_false_eq_true, iff_true]
    rw [unit] at eq high ⊢
    omega
  | perHour =>
    have unit : BillingIncrement.perHour.unit.toNat = 3600 := rfl
    simp only [minutesCharged, ne_eq, reduceCtorEq, not_false_eq_true, iff_true]
    rw [unit] at eq high ⊢
    omega

/-- Seconds pass for fewer minutes only within the first minutes of a period. -/
theorem minutesCharged_le_iff (pos : 0 < horizonSecs.toNat) {finer : BillingIncrement} (le : finer.seconds ≤ increment.seconds) :
    minutesCharged finer horizonSecs ≤ minutesCharged increment horizonSecs ↔
      (finer = .perSecond → increment ≠ .perSecond → 60 * horizonSecs.toNat ≤ increment.unit.toNat) := by
  have units : BillingIncrement.perSecond.unit.toNat = 1 ∧ BillingIncrement.perMinute.unit.toNat = 60 ∧
      BillingIncrement.perHour.unit.toNat = 3600 := by decide
  cases finer <;> cases increment <;> first
    | exact absurd le (by decide)
    | (simp only [minutesCharged, BillingIncrement.roundedSecs, units, reduceCtorEq, ne_eq, not_false_eq_true, not_true_eq_false,
        true_implies, false_implies, iff_true, Nat.le_refl]
       try omega)

end

/-- **A projection rounds each node's horizon up by less than one period** exactly by the minute and by the hour, and the
finer of two projects more exactly if it is by the second and the horizon is past the coarser period's first sixtieth. -/
theorem fanout_cost_rounds_up {card : RateCard} {fanoutNodes horizonSecs : UInt32} (nodes : 0 < fanoutNodes)
    (price : 0 < card.nodeMinuteMinor) (horizon : 0 < horizonSecs) {increment : BillingIncrement}
    (fits : increment.roundedSecs horizonSecs < 2 ^ 32) :
    ((fanoutNodes.toNat * card.nodeMinuteMinor * horizonSecs.toNat ≤ 60 * fanoutCostMinor card fanoutNodes horizonSecs increment ∧
      60 * fanoutCostMinor card fanoutNodes horizonSecs increment <
        fanoutNodes.toNat * card.nodeMinuteMinor * (horizonSecs.toNat + increment.seconds)) ↔ increment ≠ .perSecond) ∧
    (∀ finer : BillingIncrement, finer.seconds ≤ increment.seconds → finer.roundedSecs horizonSecs < 2 ^ 32 →
      (fanoutCostMinor card fanoutNodes horizonSecs finer ≤ fanoutCostMinor card fanoutNodes horizonSecs increment ↔
        (finer = .perSecond → increment ≠ .perSecond → 60 * horizonSecs.toNat ≤ increment.seconds))) ∧
    ∀ transcodeNodes, projectCostMinor card fanoutNodes transcodeNodes horizonSecs increment =
      fanoutCostMinor card fanoutNodes horizonSecs increment + projectCostMinor card 0 transcodeNodes horizonSecs increment := by
  have unit : 0 < (fanoutNodes.toNat : Int) * card.nodeMinuteMinor :=
    Int.mul_pos (Int.natCast_pos.mpr (UInt32.lt_iff_toNat_lt.mp nodes)) price
  have pos : 0 < horizonSecs.toNat := UInt32.lt_iff_toNat_lt.mp horizon
  have charged := @fanoutCostMinor_eq card fanoutNodes horizonSecs increment fits
  refine ⟨?_, fun finer le fits' => ?_, fun transcodeNodes => ?_⟩
  · rw [← minutesCharged_iff pos, charged, ← increment.toNat_unit, Int.mul_left_comm, ← Int.ofNat_le (m := horizonSecs.toNat), ← Int.ofNat_lt]
    exact and_congr (Int.mul_le_mul_left unit) (Int.mul_lt_mul_left unit)
  · rw [charged, fanoutCostMinor_eq fits', Int.mul_le_mul_left unit, Int.ofNat_le, minutesCharged_le_iff pos le, ← increment.toNat_unit]
    norm_cast
  · simp [projectCostMinor, fanoutCostMinor]

theorem fanout_cost_ninety_minutes : 3 * 2 * 5400 ≤ 60 * fanoutCostMinor ⟨2, 0⟩ 3 5400 .perHour ∧
    60 * fanoutCostMinor ⟨2, 0⟩ 3 5400 .perHour < 3 * 2 * (5400 + 3600) ∧
    fanoutCostMinor ⟨2, 0⟩ 3 5400 .perMinute ≤ fanoutCostMinor ⟨2, 0⟩ 3 5400 .perHour := by
  obtain ⟨within, finer, -⟩ := @fanout_cost_rounds_up ⟨2, 0⟩ 3 5400 (by decide) (by decide) (by decide) .perHour (by decide)
  obtain ⟨low, high⟩ := within.mpr (by decide)
  exact ⟨low, high, (finer .perMinute (by decide) (by decide)).mpr (by decide)⟩

/-- One node for an hour at one a minute: 60 by the hour, 3600 by the second. -/
theorem seconds_cost_minutes : fanoutCostMinor ⟨1, 0⟩ 1 3600 .perHour = 60 ∧ fanoutCostMinor ⟨1, 0⟩ 1 3600 .perSecond = 3600 ∧
    ¬ 60 * fanoutCostMinor ⟨1, 0⟩ 1 3600 .perSecond < 1 * 1 * (3600 + BillingIncrement.perSecond.seconds) := by
  decide

end MatrixMedia.Fleet
