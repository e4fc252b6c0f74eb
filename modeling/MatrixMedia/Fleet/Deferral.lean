import MatrixMedia.Fleet.Teardown

/-!
# Deferred teardowns

A node past its deadline is kept until the end of the hour its deadline falls in, counted from the
start of its billing. That owes nothing more for a deadline inside an hour. A deadline on the
boundary defers by a whole hour that is not yet owed (`deferral_costs_an_hour`).
-/

namespace MatrixMedia.Fleet
open Lib Lib.Chrono

/-- `periods_owed`. -/
def periodsOwed (increment : BillingIncrement) (startedAt endedAt : DateTime) : UInt32 :=
  let secs := numSeconds (endedAt - startedAt)
  if secs ≤ 0 then 1
  else
    let unit := increment.seconds
    UInt32.ofNat (max ((secs + unit - 1) / unit) 1).toNat

/-- Only an hour with a known start defers, to the next boundary. -/
theorem alignedTeardownAt_eq_some {increment billingStartedAt deadline now at_} : alignedTeardownAt increment billingStartedAt deadline now = some at_ ↔
      increment = .perHour ∧ now < at_ ∧ ∃ startedAt, billingStartedAt = some startedAt ∧
        nextPeriodBoundary .perHour startedAt deadline = at_ := by
  cases increment with
  | perSecond | perMinute => simp [alignedTeardownAt, BillingIncrement.worthAligningTeardown]
  | perHour =>
    cases billingStartedAt with
    | none => simp [alignedTeardownAt]
    | some startedAt =>
      simp only [alignedTeardownAt, BillingIncrement.worthAligningTeardown, Bool.not_true, Bool.false_eq_true, if_false,
        Option.ite_none_right_eq_some, Option.some.injEq, true_and, exists_eq_left']
      constructor
      · rintro ⟨later, rfl⟩
        exact ⟨later, rfl⟩
      · rintro ⟨later, rfl⟩
        exact ⟨later, rfl⟩

/-- The boundary after a deadline that does not precede the start. -/
theorem nextPeriodBoundary_of_le {startedAt deadline : Int} (le : startedAt ≤ deadline) :
    nextPeriodBoundary .perHour startedAt deadline =
      startedAt + ((deadline - startedAt) / 1000000000 / 3600 + 1) * 3600 * 1000000000 := by
  have elapsed : numSeconds (deadline - startedAt) = (deadline - startedAt) / 1000000000 :=
    Int.tdiv_eq_ediv_of_nonneg (by omega)
  unfold nextPeriodBoundary
  rw [elapsed]
  exact if_neg (by omega)

/-- What the node owes at the end of a deferral and at the deadline. -/
theorem periodsOwed_boundary {startedAt deadline : Int} (le : startedAt ≤ deadline) :
    periodsOwed .perHour startedAt (nextPeriodBoundary .perHour startedAt deadline) = periodsOwed .perHour startedAt deadline ↔
      (0 < numSeconds (deadline - startedAt) → numSeconds (deadline - startedAt) % 3600 ≠ 0) := by
  have elapsed : numSeconds (deadline - startedAt) = (deadline - startedAt) / 1000000000 :=
    Int.tdiv_eq_ediv_of_nonneg (by omega)
  have whole : numSeconds (nextPeriodBoundary .perHour startedAt deadline - startedAt) =
      ((deadline - startedAt) / 1000000000 / 3600 + 1) * 3600 := by
    rw [nextPeriodBoundary_of_le le, numSeconds, nanosPerSecond, Int.tdiv_eq_ediv_of_nonneg (by omega)]
    omega
  unfold periodsOwed
  rw [whole, elapsed]
  simp only [BillingIncrement.seconds]
  rw [if_neg (by omega)]
  split
  · have zero : (deadline - startedAt) / 1000000000 = 0 := by omega
    rw [zero]
    decide
  · rw [← UInt32.toNat_inj, UInt32.toNat_ofNat', UInt32.toNat_ofNat']
    omega

/-- **Deferral is free** unless an hourly node's deadline is a positive number of whole hours after the start and the
next hour is not over: the node owes as many periods at the end of the deferral as at the deadline. -/
theorem deferral_free {increment : BillingIncrement} {startedAt deadline now : Int} (le : startedAt ≤ deadline) :
    (∀ at_, alignedTeardownAt increment (some startedAt) deadline now = some at_ →
      periodsOwed increment startedAt at_ = periodsOwed increment startedAt deadline) ↔
    (increment = .perHour → 0 < numSeconds (deadline - startedAt) → numSeconds (deadline - startedAt) % 3600 = 0 →
      startedAt + seconds (numSeconds (deadline - startedAt) + 3600) ≤ now) := by
  have elapsed : numSeconds (deadline - startedAt) = (deadline - startedAt) / 1000000000 :=
    Int.tdiv_eq_ediv_of_nonneg (by omega)
  have boundary (whole : numSeconds (deadline - startedAt) % 3600 = 0) : nextPeriodBoundary .perHour startedAt deadline =
      startedAt + seconds (numSeconds (deadline - startedAt) + 3600) := by
    rw [nextPeriodBoundary_of_le le, seconds, nanosPerSecond]
    show (_ : Int) = _
    omega
  constructor
  · rintro free rfl pos whole
    by_contra later
    rw [← boundary whole] at later
    have owed := free _ (alignedTeardownAt_eq_some.mpr ⟨rfl, Int.not_le.mp later, startedAt, rfl, rfl⟩)
    exact (periodsOwed_boundary le).mp owed pos whole
  · intro ended at_ deferred
    obtain ⟨rfl, later, start, eq, rfl⟩ := alignedTeardownAt_eq_some.mp deferred
    cases Option.some.inj eq
    refine (periodsOwed_boundary le).mpr fun pos whole => ?_
    have passed := ended rfl pos whole
    rw [← boundary whole] at passed
    exact Int.not_lt.mpr passed later

theorem deferral_free_inside : periodsOwed .perHour 0 (seconds 7200) = periodsOwed .perHour 0 (seconds 5400) :=
  (deferral_free (by decide)).mpr (by decide) _ (show alignedTeardownAt .perHour (some 0) (seconds 5400) (seconds 5400) = some (seconds 7200) by decide)

/-- A deadline one hour after the start: the node is kept for a second hour, which it then owes. -/
theorem deferral_costs_an_hour : ∃ at_, alignedTeardownAt .perHour (some 0) (seconds 3600) (seconds 3600) = some at_ ∧
    periodsOwed .perHour 0 at_ = 2 ∧ periodsOwed .perHour 0 (seconds 3600) = 1 :=
  ⟨seconds 7200, by decide⟩

end MatrixMedia.Fleet
