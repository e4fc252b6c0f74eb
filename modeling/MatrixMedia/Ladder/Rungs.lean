import Mathlib.Order.MinMax
import MatrixMedia.Lib.U32

/-!
# The demotion ladder (`mm-core/src/fleet/ladder.rs`)

Which rung the balance of a live broadcast calls for, how far each mode lets the ladder
go, and how the target moves: at once towards a harsher rung, after a dwell towards a
milder one. The coverage ratio is computed in `f64`, as in the source; no result here
depends on its rounding.
-/

namespace MatrixMedia.Ladder
open Lib.U32

/-- Where a broadcast sits on the ladder. -/
inductive DemotionStep where
  | healthy
  | stopProvisioning
  | reduceQuality
  | drainToOrigin
  | endWithSlate
  | overrun
deriving DecidableEq

namespace DemotionStep

def severity : DemotionStep → Nat
  | healthy => 0
  | stopProvisioning => 1
  | reduceQuality => 2
  | drainToOrigin => 3
  | endWithSlate => 4
  | overrun => 5

/-- Ordered by severity, as the variants are. -/
instance : LinearOrder DemotionStep :=
  LinearOrder.lift' severity (by intro a b h; cases a <;> cases b <;> first | rfl | cases h)

def allowsRecording : DemotionStep → Bool
  | healthy | stopProvisioning => true
  | _ => false

/-- Is the programme still on air at this step? -/
def programmeContinues : DemotionStep → Bool
  | endWithSlate | overrun => false
  | _ => true

/-- Is there no way back from this step, once it was applied? -/
def isTerminal : DemotionStep → Bool
  | endWithSlate | overrun => true
  | _ => false

def asStr : DemotionStep → String
  | healthy => "healthy"
  | stopProvisioning => "stop_provisioning"
  | reduceQuality => "reduce_quality"
  | drainToOrigin => "drain_to_origin"
  | endWithSlate => "end_with_slate"
  | overrun => "overrun"

/-- `DemotionStep::ALL`. -/
def all : List DemotionStep := [healthy, stopProvisioning, reduceQuality, drainToOrigin, endWithSlate, overrun]

def parse (raw : String) : Option DemotionStep := all.find? fun s => s.asStr == raw

@[simp] theorem parse_asStr (s : DemotionStep) : parse s.asStr = some s := by
  cases s <;> decide

theorem asStr_inj {s t : DemotionStep} (h : s.asStr = t.asStr) : s = t := by
  have hparse := congrArg parse h
  rw [parse_asStr, parse_asStr] at hparse
  exact Option.some.inj hparse

theorem mem_all (s : DemotionStep) : s ∈ all := by
  cases s <;> decide

theorem healthy_le (s : DemotionStep) : healthy ≤ s := by
  cases s <;> decide

theorem isTerminal_iff {s : DemotionStep} : s.isTerminal = true ↔ endWithSlate ≤ s := by
  cases s <;> decide

theorem allowsRecording_iff {s : DemotionStep} : s.allowsRecording = true ↔ s < reduceQuality := by
  cases s <;> decide

theorem programmeContinues_iff {s : DemotionStep} : s.programmeContinues = true ↔ s < endWithSlate := by
  cases s <;> decide

end DemotionStep

/-- How much of the ladder is allowed to act. -/
inductive LadderMode where
  | observe
  | degrade
  | full
deriving DecidableEq

/-- The harshest rung this mode lets the ladder apply when it has decided on `target`. -/
def LadderMode.cap : LadderMode → DemotionStep → DemotionStep
  | .observe, _ => .healthy
  | .degrade, target => min target .drainToOrigin
  | .full, target => target

theorem LadderMode.cap_le (mode : LadderMode) (target : DemotionStep) : mode.cap target ≤ target := by
  cases mode with
  | observe => exact DemotionStep.healthy_le target
  | degrade => exact min_le_left _ _
  | full => exact le_refl _

/-- Only full mode goes beyond draining. -/
theorem LadderMode.full_of_cap {mode : LadderMode} {target : DemotionStep} (h : .drainToOrigin < mode.cap target) :
    mode = .full := by
  cases mode with
  | observe => exact absurd h (not_lt.mpr (DemotionStep.healthy_le _))
  | degrade => exact absurd h (not_lt.mpr (min_le_right _ _))
  | full => rfl

/-- Where the rungs sit, as fractions of the cost still to come. -/
structure LadderPolicy where
  reduceQualityBelow : Float
  drainBelow : Float
  /-- The evaluations wanting a milder rung that are waited out. -/
  recoverAfterEvaluations : UInt32

structure LadderObservation where
  balanceMinor : Int
  projectedCostRemainingMinor : Int
  programmeIsLive : Bool

/-- Which rung this broadcast is on. -/
def demotionStep (obs : LadderObservation) (policy : LadderPolicy) : DemotionStep :=
  if obs.balanceMinor ≤ 0 then
    if obs.programmeIsLive then .endWithSlate else .overrun
  else if obs.projectedCostRemainingMinor ≤ 0 then .healthy
  else
    let coverage := Float.ofInt obs.balanceMinor / Float.ofInt obs.projectedCostRemainingMinor
    if coverage ≥ 1.0 then .healthy
    else if coverage ≥ policy.reduceQualityBelow then .stopProvisioning
    else if coverage ≥ policy.drainBelow then .reduceQuality
    else .drainToOrigin

/-- A funded broadcast is drained at worst. -/
theorem demotionStep_funded {obs : LadderObservation} (policy : LadderPolicy) (h : 0 < obs.balanceMinor) :
    demotionStep obs policy ≤ .drainToOrigin := by
  unfold demotionStep
  rw [if_neg (by omega)]
  dsimp only
  split
  · decide
  · split
    · decide
    · split
      · decide
      · split <;> decide

/-- Where the broadcast should be now, and the streak to carry to the next evaluation. -/
structure LadderTransition where
  step : DemotionStep
  milderStreak : UInt32
  moved : Bool

/-- Apply hysteresis. -/
def nextStep (current computed : DemotionStep) (milderStreak : UInt32) (programmeEnded : Bool)
    (policy : LadderPolicy) : LadderTransition :=
  if current < computed then ⟨computed, 0, true⟩
  else if computed = current then ⟨current, 0, false⟩
  else if current.isTerminal && programmeEnded then ⟨current, 0, false⟩
  else
    let streak := saturatingAdd milderStreak 1
    if streak > policy.recoverAfterEvaluations then ⟨computed, 0, true⟩ else ⟨current, streak, false⟩

section
variable {current computed : DemotionStep} {streak : UInt32} {ended : Bool} {policy : LadderPolicy}

/-- The target goes to the computed rung or stays; it has moved exactly when it changed. -/
theorem nextStep_cases (current computed : DemotionStep) (streak : UInt32) (ended : Bool) (policy : LadderPolicy) :
    (nextStep current computed streak ended policy).step = computed ∧ computed ≠ current ∧
        (nextStep current computed streak ended policy).moved = true ∨
      (nextStep current computed streak ended policy).step = current ∧
        (nextStep current computed streak ended policy).moved = false := by
  unfold nextStep
  split
  · rename_i hharsher
    exact .inl ⟨rfl, ne_of_gt hharsher, rfl⟩
  · split
    · exact .inr ⟨rfl, rfl⟩
    · rename_i hne
      split
      · exact .inr ⟨rfl, rfl⟩
      · dsimp only
        split
        · exact .inl ⟨rfl, hne, rfl⟩
        · exact .inr ⟨rfl, rfl⟩

/-- A milder rung is entered only when the dwell is over and nothing has ended. -/
theorem nextStep_milder (hmilder : computed < current) :
    (nextStep current computed streak ended policy).step =
      if (current.isTerminal && ended) = false ∧ policy.recoverAfterEvaluations < saturatingAdd streak 1
      then computed else current := by
  unfold nextStep
  rw [if_neg (not_lt.mpr (le_of_lt hmilder)), if_neg (ne_of_lt hmilder)]
  cases hfinal : current.isTerminal && ended with
  | true => rfl
  | false =>
    by_cases hdwell : policy.recoverAfterEvaluations < saturatingAdd streak 1
    · simp [hdwell]
    · simp [hdwell]

theorem nextStep_harsher (hharsher : current ≤ computed) :
    (nextStep current computed streak ended policy).step = computed := by
  unfold nextStep
  rcases lt_or_eq_of_le hharsher with hlt | heq
  · rw [if_pos hlt]
  · subst heq
    rw [if_neg (lt_irrefl _), if_pos rfl]

end

end MatrixMedia.Ladder
