import MatrixMedia.Fleet.Growth
import MatrixMedia.Ladder.Rungs
import Mathlib.Algebra.Order.Field.Basic
import Mathlib.Algebra.Order.Field.Rat
import Mathlib.Order.WithBotTop

/-!
# Coverage, and the planner's gate

`exactDemotionStep` is `demotion_step` with the coverage as a rational instead of an `f64`. A
watermark may also be infinite, and one that is not a number compares like the infinite one that no
coverage reaches. The rungs are asked for in a fixed order, so that a smaller coverage is never
milder, in whichever order the watermarks are.
-/

namespace MatrixMedia.Ladder
open MatrixMedia.Fleet

abbrev Watermark := WithBot (WithTop ℚ)

def DemotionStep.allowsProvisioning : DemotionStep → Bool
  | healthy => true
  | _ => false

/-- The rung that a coverage picks. -/
def coverageStep (reduceQualityBelow drainBelow : Watermark) (coverage : ℚ) : DemotionStep :=
  if 1 ≤ coverage then .healthy
  else if reduceQualityBelow ≤ coverage then .stopProvisioning
  else if drainBelow ≤ coverage then .reduceQuality
  else .drainToOrigin

/-- `demotion_step`, with exact comparisons. -/
def exactDemotionStep (obs : LadderObservation) (reduceQualityBelow drainBelow : Watermark) : DemotionStep :=
  if obs.balanceMinor ≤ 0 then
    if obs.programmeIsLive then .endWithSlate else .overrun
  else if obs.projectedCostRemainingMinor ≤ 0 then .healthy
  else coverageStep reduceQualityBelow drainBelow (obs.balanceMinor / obs.projectedCostRemainingMinor)

section
variable {reduce drain : Watermark} {balance projected : Int}

theorem coverageStep_antitone {x y : ℚ} (le : x ≤ y) : coverageStep reduce drain y ≤ coverageStep reduce drain x := by
  have reaches {w : Watermark} (reached : w ≤ (x : Watermark)) : w ≤ (y : Watermark) :=
    reached.trans (WithBotTop.coe_le_coe.mpr le)
  unfold coverageStep
  by_cases full : 1 ≤ x
  · simp [full, full.trans le]
  by_cases reduced : reduce ≤ (x : Watermark)
  · simp only [full, reduced, reaches reduced, if_true, if_false]
    split <;> decide
  by_cases drained : drain ≤ (x : Watermark)
  · simp only [full, reduced, drained, reaches drained, if_true, if_false]
    split
    · decide
    · split <;> decide
  · simp only [full, reduced, drained, if_false]
    split
    · decide
    · split
      · decide
      · split <;> decide

theorem coverageStep_le (reduce drain : Watermark) (x : ℚ) : coverageStep reduce drain x ≤ .drainToOrigin := by
  unfold coverageStep
  split
  · decide
  · split
    · decide
    · split <;> decide

/-- Less money, or more to come, is never milder. -/
theorem exactDemotionStep_mono {balance' projected' : Int} (poorer : balance' ≤ balance) (dearer : projected ≤ projected') :
    exactDemotionStep ⟨balance, projected, true⟩ reduce drain ≤ exactDemotionStep ⟨balance', projected', true⟩ reduce drain := by
  unfold exactDemotionStep
  by_cases empty' : balance' ≤ 0
  · simp only [empty', if_true]
    split
    · exact le_refl _
    · split
      · decide
      · exact (coverageStep_le ..).trans (by decide)
  have funded : ¬balance ≤ 0 := by omega
  by_cases nothing : projected ≤ 0
  · simp only [funded, nothing, if_true, if_false]
    exact DemotionStep.healthy_le _
  have something : ¬projected' ≤ 0 := by omega
  simp only [empty', funded, nothing, something, if_false]
  refine coverageStep_antitone ?_
  have positive : (0 : ℚ) < projected := by exact_mod_cast not_le.mp nothing
  exact div_le_div₀ (by exact_mod_cast (not_le.mp funded).le) (by exact_mod_cast poorer) positive (by exact_mod_cast dearer)

/-- Provisioning is allowed when there is money and it covers what is to come. -/
theorem allowsProvisioning_iff : (exactDemotionStep ⟨balance, projected, true⟩ reduce drain).allowsProvisioning = true ↔
    0 < balance ∧ projected ≤ balance := by
  unfold exactDemotionStep
  by_cases empty : balance ≤ 0
  · simp [empty, DemotionStep.allowsProvisioning]
  by_cases nothing : projected ≤ 0
  · simp only [empty, nothing, if_true, if_false, DemotionStep.allowsProvisioning, true_iff]
    omega
  have positive : (0 : ℚ) < projected := by exact_mod_cast not_le.mp nothing
  have full : 1 ≤ (balance : ℚ) / projected ↔ projected ≤ balance := by
    rw [one_le_div positive]
    exact_mod_cast Iff.rfl
  simp only [empty, nothing, if_false, coverageStep, full]
  by_cases covered : projected ≤ balance
  · simpa [covered, DemotionStep.allowsProvisioning] using empty
  · simp only [covered, if_false, and_false, iff_false]
    split
    · decide
    · split <;> decide

end

/-- Without nodes, with viewers to come and room for a node, a plan is empty unless the gates open. -/
theorem plan_ne_nil_iff {obs : FleetObservation} {policy : FleetPolicy} (live : obs.programmeIsLive = true)
    (nodes : obs.nodes = []) (viewers : 0 < obs.viewersProjected) (ceiling : 0 < policy.maxFanoutNodesPerBroadcast) :
    plan obs policy ≠ [] ↔ 0 < obs.availableBalanceMinor ∧ obs.projectedCostMinor ≤ obs.availableBalanceMinor := by
  have kept : keptNodes obs policy = [] := by simp [keptNodes, FleetObservation.liveFanoutNodes, nodes]
  have ordered : orderedFanout obs policy ≠ [] := by
    rw [Ne, orderedFanout_eq_nil, not_or]
    refine ⟨?_, ?_⟩
    · have capacity : obs.effectiveCapacity policy = 0 := by simp [FleetObservation.effectiveCapacity, nodes, Lib.U32.sum]
      rw [capacity, not_le]
      exact UInt32.lt_iff_toNat_lt.mp viewers
    · rw [FleetObservation.liveFanoutNodes, nodes]
      exact UInt32.not_le.mpr ceiling
  rw [plan_eq, kept]
  split
  case isTrue gates => simp [ordered, gates.2]
  case isFalse gates =>
    refine ⟨fun ne => absurd rfl ne, fun open_ => absurd ⟨live, open_⟩ gates⟩

/-- **The ladder is monotone and agrees with the planner's gate**, whatever the watermarks. -/
theorem ladder_agrees_with_planner (reduce drain : Watermark) :
    (∀ {balance balance' projected projected' : Int}, balance' ≤ balance → projected ≤ projected' →
      exactDemotionStep ⟨balance, projected, true⟩ reduce drain ≤ exactDemotionStep ⟨balance', projected', true⟩ reduce drain) ∧
    ∀ (obs : FleetObservation) (policy : FleetPolicy), obs.programmeIsLive = true → obs.nodes = [] →
      0 < obs.viewersProjected → 0 < policy.maxFanoutNodesPerBroadcast →
      ((exactDemotionStep ⟨obs.availableBalanceMinor, obs.projectedCostMinor, true⟩ reduce drain).allowsProvisioning = true ↔
        plan obs policy ≠ []) := by
  refine ⟨exactDemotionStep_mono, fun obs policy live nodes viewers ceiling => ?_⟩
  rw [allowsProvisioning_iff, plan_ne_nil_iff live nodes viewers ceiling]

/-- Fifty viewers to come, and money for all of it. -/
def fiftyToCome : FleetObservation := ⟨"b", true, false, 50, 100, 100, []⟩

/-- With the watermarks the other way round, half the coverage is not milder than all of it, and at the
step of full coverage the planner orders. -/
theorem ladder_agrees_inverted :
    exactDemotionStep ⟨100, 100, true⟩ ((0 : ℚ) : Watermark) ((1 : ℚ) : Watermark) ≤
      exactDemotionStep ⟨50, 100, true⟩ ((0 : ℚ) : Watermark) ((1 : ℚ) : Watermark) ∧
    ((exactDemotionStep ⟨100, 100, true⟩ ((0 : ℚ) : Watermark) ((1 : ℚ) : Watermark)).allowsProvisioning = true ↔
      plan fiftyToCome ⟨50, 1, "r", "s", 3600, .perSecond⟩ ≠ []) :=
  ⟨(ladder_agrees_with_planner _ _).1 (by decide) (by decide),
    (ladder_agrees_with_planner _ _).2 fiftyToCome _ rfl rfl (by decide) (by decide)⟩

end MatrixMedia.Ladder
