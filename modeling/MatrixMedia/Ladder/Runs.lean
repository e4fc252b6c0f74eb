import MatrixMedia.Ladder.Evaluate

/-!
# Runs of the ladder

Evaluations of any broadcasts in any order, with any modes, quotes, dwells and failures.
The applied rung never exceeds the target and an applied ending is final
(`ladder_invariant`), and the events are the complete trail of both rungs
(`audit_chained`). Two promises of the modes hold under a condition only: the target is
sticky during the dwell, so full mode can end a broadcast that has been topped up
(`funded_never_ended`, `topped_up_ended`), and a recording stop in force is kept in force
in every mode (`observe_touches_nothing_iff`, `observe_stops_recording`).
-/

namespace MatrixMedia.Ladder
open Lib Lib.Chrono Lib.U32 MatrixMedia.Fleet DemotionStep

/-- One evaluation as it happened: the quote it read and the calls it made. -/
structure Evaluated where
  quote : Except String BroadcastBilling
  calls : List ActuatorCall

/-- The tables, and every evaluation so far, newest first. -/
structure LadderWorld where
  db : LadderDb
  evaluations : List Evaluated

def newLadder : LadderWorld := ⟨⟨∅, []⟩, []⟩

def ladderStep (w : LadderWorld) (i : LadderInput) : LadderWorld :=
  ⟨(evaluateOne w.db i {}).1, ⟨i.quote, (evaluateOne w.db i {}).2.2⟩ :: w.evaluations⟩

/-- Any evaluation may happen next. -/
abbrev Anything (_ : List LadderInput) (_ : LadderWorld) (_ : LadderInput) : Prop := True

/-- An evaluation of broadcast `b` that everything succeeds for, with nothing left to pay. -/
def testInput (mode : LadderMode) (balance : Int) (dwell : UInt32) : LadderInput where
  broadcastId := "b"
  userId := "@host:hs"
  mode := mode
  policy := ⟨0.5, 0.2, dwell⟩
  now := 0
  quote := .ok ⟨balance, 0, false⟩
  state := none
  actuator := ⟨.ok (), .ok (), .ok (), .ok ()⟩
  record := .committed
  violation := ""

/-- The balance ran out in degrade mode: the ending is decided and withheld. -/
def withheld : LadderWorld := ladderStep newLadder (testInput .degrade 0 3)

/-- And then full mode ends the broadcast. -/
def ended : LadderWorld := ladderStep withheld (testInput .full 0 3)

theorem ended_run : Run ladderStep Anything newLadder [testInput .full 0 3, testInput .degrade 0 3] ended :=
  .next (.next .start trivial) trivial

/-! ## The rungs -/

/-- Both columns of every row name rungs, and the applied one is not the harsher. -/
def InOrder (db : LadderDb) : Prop :=
  ∀ (b : String) (row : DemotionState), db.demotion[b]? = some row → ∃ target applied : DemotionStep,
    row.targetStep = target.asStr ∧ row.appliedStep = applied.asStr ∧ applied ≤ target

variable {applied : DemotionStep} {i : LadderInput} {b : String} {w : LadderWorld}

theorem rungsOf_row {row : DemotionState} {target : DemotionStep} (htarget : row.targetStep = target.asStr)
    (happlied : row.appliedStep = applied.asStr) :
    (rungsOf (some row)).target = target ∧ (rungsOf (some row)).applied = applied := by
  simp [rungsOf, htarget, happlied]

theorem Recorded.rungs {db db' quote} (h : Recorded db i quote db') :
    (db'.rungs i.broadcastId).target = (i.decides db quote).transition.step ∧
      (db'.rungs i.broadcastId).applied = (i.decides db quote).reconciled.applied := by
  obtain ⟨row, hrow, htarget, happlied⟩ := h.row
  rw [LadderDb.rungs, hrow]
  exact rungsOf_row htarget happlied

/-- The rungs of a broadcast after an evaluation. -/
theorem ladderStep_rungs (w : LadderWorld) (i : LadderInput) (b : String) :
    (ladderStep w i).db.rungs b = w.db.rungs b ∨ i.broadcastId = b ∧ ∃ quote,
      ((ladderStep w i).db.rungs b).target = (i.decides w.db quote).transition.step ∧
      ((ladderStep w i).db.rungs b).applied = (i.decides w.db quote).reconciled.applied := by
  rcases evaluateOne_broadcast w.db i {} b with ⟨hsame, -⟩ | ⟨rfl, quote, -, hrecorded⟩
  · exact .inl (congrArg rungsOf hsame)
  · exact .inr ⟨rfl, quote, hrecorded.rungs⟩

theorem inOrder_step (i : LadderInput) (h : InOrder w.db) : InOrder (ladderStep w i).db := by
  intro b row hrow
  rcases evaluateOne_broadcast w.db i {} b with ⟨hsame, -⟩ | ⟨rfl, quote, -, hrecorded⟩
  · exact h b row (hsame ▸ hrow)
  · obtain ⟨row', hrow', htarget, happlied⟩ := hrecorded.row
    obtain rfl : row' = row := Option.some.inj (hrow'.symm.trans hrow)
    exact ⟨_, _, htarget, happlied, reconcile_le ..⟩

theorem inOrder_run {h} (run : Run ladderStep Anything newLadder h w) :
    InOrder w.db := by
  refine run.invariant (I := fun _ w => InOrder w.db) ?_ ?_
  · intro b row hrow
    rw [newLadder, Std.TreeMap.getElem?_emptyc] at hrow
    cases hrow
  · intro _ w i _ _ hw
    exact inOrder_step i hw

theorem applied_le_target {h} (run : Run ladderStep Anything newLadder h w)
    (b : String) : (w.db.rungs b).applied ≤ (w.db.rungs b).target := by
  cases hrow : w.db.demotion[b]? with
  | none =>
    rw [LadderDb.rungs, hrow]
    exact le_refl _
  | some row =>
    obtain ⟨target, applied, htarget, happlied, hle⟩ := inOrder_run run b row hrow
    obtain ⟨ht, ha⟩ := rungsOf_row htarget happlied
    rw [LadderDb.rungs, hrow, ht, ha]
    exact hle

/-- The applied rung rises above draining in full mode only. -/
theorem full_of_rise
    (habove : .drainToOrigin < ((ladderStep w i).db.rungs b).applied)
    (hrise : (w.db.rungs b).applied < ((ladderStep w i).db.rungs b).applied) : i.mode = .full := by
  rcases ladderStep_rungs w i b with hsame | ⟨rfl, quote, -, happlied⟩
  · rw [hsame] at hrise
    exact absurd hrise (lt_irrefl _)
  · rw [happlied] at habove hrise
    rcases reconcile_cases i.mode i.actuator i.broadcastId quote (w.db.rungs i.broadcastId).applied
      (transitionOf i.policy (w.db.rungs i.broadcastId) quote).step with ⟨-, hcap⟩ | ⟨hback, heq⟩ | ⟨-, heq⟩
    · exact LadderMode.full_of_cap (lt_of_lt_of_le habove hcap)
    · exact absurd hrise (not_lt.mpr (le_of_lt (lt_of_eq_of_lt heq hback)))
    · exact absurd hrise (not_lt.mpr (le_of_eq heq))

/-- Once the ending was applied, the target stays. -/
theorem target_ended {before : Rungs} (policy : LadderPolicy) (quote : BroadcastBilling)
    (hle : before.applied ≤ before.target) (hended : .endWithSlate ≤ before.applied) :
    before.target ≤ (transitionOf policy before quote).step := by
  unfold transitionOf
  rcases le_or_gt before.target (computedStep policy quote) with hharsher | hmilder
  · rw [nextStep_harsher hharsher]
    exact hharsher
  · rw [nextStep_milder hmilder, isTerminal_iff.mpr hended,
      isTerminal_iff.mpr (le_trans hended hle)]
    exact le_refl _

/-- Once the ending was applied, no evaluation makes a rung milder. -/
theorem ended_step (i : LadderInput) (hle : (w.db.rungs b).applied ≤ (w.db.rungs b).target)
    (hended : .endWithSlate ≤ (w.db.rungs b).applied) :
    (w.db.rungs b).target ≤ ((ladderStep w i).db.rungs b).target ∧
      (w.db.rungs b).applied ≤ ((ladderStep w i).db.rungs b).applied := by
  rcases ladderStep_rungs w i b with hsame | ⟨rfl, quote, hstep, happlied⟩
  · rw [hsame]
    exact ⟨le_refl _, le_refl _⟩
  · have htarget := target_ended i.policy quote hle hended
    rw [hstep, happlied]
    refine ⟨htarget, ?_⟩
    rcases reconcile_cases i.mode i.actuator i.broadcastId quote (w.db.rungs i.broadcastId).applied
      (transitionOf i.policy (w.db.rungs i.broadcastId) quote).step with ⟨hrise, -⟩ | ⟨hback, -⟩ | ⟨-, heq⟩
    · exact le_of_lt hrise
    · exact absurd (le_trans hle htarget) (not_le.mpr hback)
    · exact ge_of_eq heq

/-- **The state of the ladder** in every run from empty tables: the applied rung is never
harsher than the target, it rises above draining in full mode only, and an applied ending
is final for both columns, whatever happens next. -/
theorem ladder_invariant {h : List LadderInput} {w : LadderWorld} (run : Run ladderStep Anything newLadder h w) :
    InOrder w.db ∧
    (∀ i b, .drainToOrigin < ((ladderStep w i).db.rungs b).applied →
      (w.db.rungs b).applied < ((ladderStep w i).db.rungs b).applied → i.mode = .full) ∧
    ∀ b, .endWithSlate ≤ (w.db.rungs b).applied → ∀ h' w', Run ladderStep Anything w h' w' →
      (w.db.rungs b).target ≤ (w'.db.rungs b).target ∧ (w.db.rungs b).applied ≤ (w'.db.rungs b).applied := by
  refine ⟨inOrder_run run, fun i b => full_of_rise, ?_⟩
  intro b hended h' w' later
  have hkept := later.invariant (I := fun _ w' => (w'.db.rungs b).applied ≤ (w'.db.rungs b).target ∧
    (w.db.rungs b).target ≤ (w'.db.rungs b).target ∧ (w.db.rungs b).applied ≤ (w'.db.rungs b).applied)
    ⟨applied_le_target run b, le_refl _, le_refl _⟩ ?_
  · exact hkept.2
  · intro _ w₁ i _ _ ⟨hle, htarget, happlied⟩
    obtain ⟨htarget', happlied'⟩ := ended_step i hle (le_trans hended happlied)
    refine ⟨?_, le_trans htarget htarget', le_trans happlied happlied'⟩
    rcases ladderStep_rungs w₁ i b with hsame | ⟨rfl, quote, hstep, hreached⟩
    · rw [hsame]
      exact hle
    · rw [hstep, hreached]
      exact reconcile_le ..

/-- The money that arrives after the ending changes neither rung. -/
theorem ladder_invariant_ended : InOrder ended.db ∧ (ended.db.rungs "b").applied = .endWithSlate ∧
    .endWithSlate ≤ ((ladderStep ended (testInput .full 5000 0)).db.rungs "b").applied := by
  have happlied : (ended.db.rungs "b").applied = .endWithSlate := by decide +kernel
  obtain ⟨horder, -, hfinal⟩ := ladder_invariant ended_run
  have hlater := hfinal "b" (ge_of_eq happlied) _ _ (.next (i := testInput .full 5000 0) .start trivial)
  exact ⟨horder, happlied, happlied ▸ hlater.2⟩

/-! ## The audit trail -/

/-- The rung that events of this kind are about, as read from the row. -/
def Rungs.step (rungs : Rungs) : EventKind → DemotionStep
  | .decision => rungs.target
  | .applied => rungs.applied

/-- The persisted column that events of this kind are about; no row is a healthy one. -/
def LadderDb.column (db : LadderDb) (b : String) : EventKind → String
  | .decision => (db.demotion[b]?.map DemotionState.targetStep).getD healthy.asStr
  | .applied => (db.demotion[b]?.map DemotionState.appliedStep).getD healthy.asStr

theorem InOrder.column {db} (h : InOrder db) (b : String) (kind : EventKind) :
    db.column b kind = ((db.rungs b).step kind).asStr := by
  cases hrow : db.demotion[b]? with
  | none => cases kind <;> simp [LadderDb.column, LadderDb.rungs, rungsOf, Rungs.step, hrow]
  | some row =>
    obtain ⟨target, applied, htarget, happlied, -⟩ := h b row hrow
    cases kind <;> simp [LadderDb.column, LadderDb.rungs, rungsOf, Rungs.step, hrow, htarget, happlied]

/-- An evaluation adds to the events of a kind exactly the change of its column. -/
theorem changes_step (horder : InOrder w.db) (i : LadderInput) (b : String) (kind : EventKind) :
    (ladderStep w i).db.changes b kind =
      w.db.changes b kind ++ changeOf (w.db.column b kind) ((ladderStep w i).db.column b kind) := by
  rw [horder.column, (inOrder_step i horder).column]
  rcases evaluateOne_broadcast w.db i {} b with ⟨hrow, hchanges⟩ | ⟨rfl, quote, -, hrecorded⟩
  · have hrungs : (ladderStep w i).db.rungs b = w.db.rungs b := congrArg rungsOf hrow
    rw [hrungs, changeOf, if_pos rfl, List.append_nil]
    exact hchanges kind
  · obtain ⟨htarget, happlied⟩ := hrecorded.rungs
    cases kind with
    | decision =>
      rw [Rungs.step, Rungs.step, ladderStep, htarget]
      exact hrecorded.decisions
    | applied =>
      rw [Rungs.step, Rungs.step, ladderStep, happlied]
      exact hrecorded.actions

/-- **The audit trail is complete and chained** in every run from empty tables: the events
of each kind lead from healthy to the persisted rung, and the next evaluation adds one
event if it changes the rung and none if it does not. -/
theorem audit_chained {h : List LadderInput} {w : LadderWorld} (run : Run ladderStep Anything newLadder h w)
    (b : String) (kind : EventKind) :
    Trail DemotionStep.healthy.asStr (w.db.changes b kind) (w.db.column b kind) ∧
    ∀ i, (ladderStep w i).db.changes b kind =
      w.db.changes b kind ++ changeOf (w.db.column b kind) ((ladderStep w i).db.column b kind) := by
  refine ⟨?_, fun i => changes_step (inOrder_run run) i b kind⟩
  refine run.invariant (I := fun _ w => Trail healthy.asStr (w.db.changes b kind) (w.db.column b kind)) ?_ ?_
  · cases kind <;> simp [newLadder, LadderDb.changes, LadderDb.column, Trail]
  · intro _ w i hrun _ htrail
    rw [changes_step (inOrder_run hrun) i b kind]
    exact htrail.concat _

theorem audit_chained_ended :
    (Trail DemotionStep.healthy.asStr (ended.db.changes "b" .applied) (ended.db.column "b" .applied) ∧
      Trail DemotionStep.healthy.asStr (ended.db.changes "b" .decision) (ended.db.column "b" .decision)) ∧
    ended.db.changes "b" .applied = [("healthy", "drain_to_origin"), ("drain_to_origin", "end_with_slate")] ∧
    ended.db.changes "b" .decision = [("healthy", "end_with_slate")] := by
  have htrails : ∀ {h : List LadderInput} {w : LadderWorld}, Run ladderStep Anything newLadder h w →
      Trail healthy.asStr (w.db.changes "b" .applied) (w.db.column "b" .applied) ∧
      Trail healthy.asStr (w.db.changes "b" .decision) (w.db.column "b" .decision) :=
    fun run => ⟨(audit_chained run "b" .applied).1, (audit_chained run "b" .decision).1⟩
  exact ⟨htrails ended_run, by decide +kernel, by decide +kernel⟩

/-! ## Endings -/

/-- The evaluation does not find, with funds behind the broadcast and in full mode, an
ending that was decided, never applied, and whose dwell is not over. -/
def NoStaleEnding (w : LadderWorld) (i : LadderInput) : Prop :=
  i.mode = .full → i.state = none → ∀ quote, i.quote = .ok quote → 0 < quote.availableBalanceMinor →
    (w.db.rungs i.broadcastId).target.isTerminal = true →
    (w.db.rungs i.broadcastId).applied.isTerminal = true ∨
      i.policy.recoverAfterEvaluations < saturatingAdd (w.db.rungs i.broadcastId).streak 1

/-- Keeping a recording stopped ends nothing. -/
theorem keepStopped_not_ending {io before call}
    (h : call ∈ (keepStopped io b before applied).1) : call.isEnding = false := by
  unfold keepStopped at h
  split at h
  · rw [List.mem_singleton] at h
    rw [h]
    rfl
  · cases h

/-- The target of a funded broadcast whose ending is not stale ends nothing. -/
theorem target_funded {quote} (hquote : i.quote = .ok quote)
    (hstate : i.state = none) (hsettled : NoStaleEnding w i) (hmode : i.mode = .full)
    (hfunded : 0 < quote.availableBalanceMinor) (hlive : (w.db.rungs i.broadcastId).applied < .endWithSlate) :
    (transitionOf i.policy (w.db.rungs i.broadcastId) quote).step < .endWithSlate := by
  have hcomputed : computedStep i.policy quote < .endWithSlate :=
    lt_of_le_of_lt (demotionStep_funded i.policy hfunded) (by decide)
  have hnotEnded : (w.db.rungs i.broadcastId).applied.isTerminal = false := by
    rw [← Bool.not_eq_true, isTerminal_iff]
    exact not_le.mpr hlive
  unfold transitionOf
  rcases le_or_gt .endWithSlate (w.db.rungs i.broadcastId).target with hterminal | hterminal
  · rcases hsettled hmode hstate quote hquote hfunded (isTerminal_iff.mpr hterminal) with hended | hdwell
    · rw [hnotEnded] at hended
      cases hended
    · rw [nextStep_milder (lt_of_lt_of_le hcomputed hterminal), hnotEnded, Bool.and_false, if_pos ⟨rfl, hdwell⟩]
      exact hcomputed
  · rcases nextStep_cases (w.db.rungs i.broadcastId).target (computedStep i.policy quote)
      (w.db.rungs i.broadcastId).streak (w.db.rungs i.broadcastId).applied.isTerminal i.policy with
      ⟨hstep, -, -⟩ | ⟨hstep, -⟩
    · rw [hstep]
      exact hcomputed
    · rw [hstep]
      exact hterminal

/-- An evaluation that ends the broadcast has read an empty balance. -/
theorem ending_unfunded (hsettled : NoStaleEnding w i) {call}
    (hcall : call ∈ (evaluateOne w.db i {}).2.2) (hending : call.isEnding = true) :
    ∃ quote, i.quote = .ok quote ∧ quote.availableBalanceMinor ≤ 0 := by
  rw [evaluateOne_calls] at hcall
  split at hcall
  · rename_i quote hquote hstate
    refine ⟨quote, hquote, ?_⟩
    by_contra hfunded
    rcases List.mem_append.mp hcall with hreconciled | hkept
    · have hcalls := reconcile_calls i.mode i.actuator i.broadcastId quote (w.db.rungs i.broadcastId).applied
        (transitionOf i.policy (w.db.rungs i.broadcastId) quote).step
      split at hcalls
      · obtain ⟨hlive, hcap⟩ := ending_of_actuate (hcalls ▸ hreconciled) hending
        have hmode := LadderMode.full_of_cap (lt_of_lt_of_le (by decide) hcap)
        have htarget := target_funded hquote hstate hsettled hmode (by omega) hlive
        rw [hmode] at hcap
        exact absurd hcap (not_le.mpr htarget)
      · rw [show (i.decides w.db quote).reconciled.calls = [] from hcalls] at hreconciled
        cases hreconciled
    · rw [keepStopped_not_ending hkept] at hending
      cases hending
  · cases hcall

/-- **A funded broadcast is never ended**, in every run that never meets a stale ending. -/
theorem funded_never_ended {w₀ : LadderWorld} (hstart : w₀.evaluations = []) {h : List LadderInput} {w : LadderWorld}
    (run : Run ladderStep (fun _ w i => NoStaleEnding w i) w₀ h w) :
    ∀ e ∈ w.evaluations, ∀ call ∈ e.calls, call.isEnding = true →
      ∃ quote, e.quote = .ok quote ∧ quote.availableBalanceMinor ≤ 0 := by
  refine run.invariant (I := fun _ w => ∀ e ∈ w.evaluations, ∀ call ∈ e.calls, call.isEnding = true →
    ∃ quote, e.quote = .ok quote ∧ quote.availableBalanceMinor ≤ 0) ?_ ?_
  · intro e he
    rw [hstart] at he
    cases he
  · intro _ w i _ hsettled hpast e he call hcall hending
    rcases List.mem_cons.mp he with rfl | he
    · exact ending_unfunded hsettled hcall hending
    · exact hpast e he call hcall hending

/-- A broadcast that is funded, and then is not, is ended. -/
theorem funded_never_ended_empty :
    (∀ e ∈ (ladderStep (ladderStep newLadder (testInput .full 5000 3)) (testInput .full 0 3)).evaluations,
      ∀ call ∈ e.calls, call.isEnding = true → ∃ quote, e.quote = .ok quote ∧ quote.availableBalanceMinor ≤ 0) ∧
    ((ladderStep (ladderStep newLadder (testInput .full 5000 3)) (testInput .full 0 3)).evaluations.any fun e =>
      e.calls.any ActuatorCall.isEnding) = true := by
  refine ⟨funded_never_ended rfl (.next (.next .start ?_) ?_), by decide +kernel⟩
  · rintro - - quote - - hterminal
    exact absurd hterminal (by decide +kernel)
  · rintro - - quote ⟨⟩ hfunded
    exact absurd hfunded (by decide)

/-- **A topped-up broadcast is ended.** The ending that degrade mode withheld is still the
target during the dwell, and full mode applies it although the balance is 5000. -/
theorem topped_up_ended : Run ladderStep Anything newLadder [testInput .full 5000 3, testInput .degrade 0 3]
      (ladderStep withheld (testInput .full 5000 3)) ∧
    ∃ e ∈ (ladderStep withheld (testInput .full 5000 3)).evaluations,
      (∃ call ∈ e.calls, call.isEnding = true) ∧
      ∃ quote, e.quote = .ok quote ∧ 0 < quote.availableBalanceMinor :=
  ⟨.next (.next .start trivial) trivial, _, List.mem_cons_self, by decide +kernel, _, rfl, by decide⟩

/-! ## Observe mode -/

/-- The evaluation finds no recording stop to keep in force. -/
def NothingToKeep (w : LadderWorld) (i : LadderInput) : Prop :=
  ∀ quote, i.quote = .ok quote → i.state = none →
    (w.db.rungs i.broadcastId).applied.allowsRecording = true ∨
    (w.db.rungs i.broadcastId).applied.isTerminal = true ∨
    ((computedStep i.policy quote).allowsRecording = true ∧
      i.policy.recoverAfterEvaluations < saturatingAdd (w.db.rungs i.broadcastId).streak 1)

/-- Observe mode lifts restrictions and never adds one. -/
theorem reconcile_observe (io : ActuatorIo) (b : String) (quote : BroadcastBilling) (before target : DemotionStep) :
    (reconcile .observe io b quote before target).calls = [] ∧
      (reconcile .observe io b quote before target).applied = min before target := by
  have hnever : ¬ before < LadderMode.observe.cap target := not_lt.mpr (healthy_le before)
  refine ⟨by rw [reconcile_calls, if_neg hnever], ?_⟩
  rcases reconcile_cases .observe io b quote before target with ⟨hrise, hcap⟩ | ⟨hback, heq⟩ | ⟨hsame, heq⟩
  · exact absurd (lt_of_lt_of_le hrise hcap) hnever
  · rw [heq, min_eq_right (le_of_lt hback)]
  · rw [heq, min_eq_left hsame]

theorem keepStopped_eq_nil_iff {io before} :
    (keepStopped io b before applied).1 = [] ↔
      before < .reduceQuality ∨ applied < .reduceQuality ∨ .endWithSlate ≤ applied := by
  rw [← allowsRecording_iff, ← allowsRecording_iff, ← not_lt,
    ← programmeContinues_iff]
  unfold keepStopped
  cases before.allowsRecording <;> cases applied.allowsRecording <;> cases applied.programmeContinues <;> simp

/-- A restricted broadcast that has not ended recovers its recording when the balance
allows it and the dwell is over. -/
theorem target_allowsRecording_iff {before : Rungs} (policy : LadderPolicy) (quote : BroadcastBilling)
    (hle : before.applied ≤ before.target) (hrestricted : .reduceQuality ≤ before.applied)
    (hlive : before.applied.isTerminal = false) :
    (transitionOf policy before quote).step < .reduceQuality ↔
      computedStep policy quote < .reduceQuality ∧ policy.recoverAfterEvaluations < saturatingAdd before.streak 1 := by
  have htarget := le_trans hrestricted hle
  unfold transitionOf
  rcases le_or_gt before.target (computedStep policy quote) with hharsher | hmilder
  · rw [nextStep_harsher hharsher]
    have hnot := not_lt.mpr (le_trans htarget hharsher)
    exact ⟨fun h => absurd h hnot, fun h => absurd h.1 hnot⟩
  · rw [nextStep_milder hmilder, hlive, Bool.and_false]
    by_cases hdwell : policy.recoverAfterEvaluations < saturatingAdd before.streak 1
    · rw [if_pos ⟨rfl, hdwell⟩]
      exact ⟨fun h => ⟨h, hdwell⟩, fun h => h.1⟩
    · rw [if_neg fun h => hdwell h.2]
      exact ⟨fun h => absurd h (not_lt.mpr htarget), fun h => absurd h.2 hdwell⟩

/-- **Observe mode touches nothing** exactly when it finds no recording stop in force, from
every state a run reaches. -/
theorem observe_touches_nothing_iff {h : List LadderInput} {w : LadderWorld}
    (run : Run ladderStep Anything newLadder h w) {i : LadderInput} (hmode : i.mode = .observe) :
    (evaluateOne w.db i {}).2.2 = [] ↔ NothingToKeep w i := by
  have hle := applied_le_target run i.broadcastId
  rw [evaluateOne_calls]
  split
  · rename_i quote hquote hstate
    obtain ⟨hcalls, happlied⟩ := reconcile_observe i.actuator i.broadcastId quote (w.db.rungs i.broadcastId).applied
      (transitionOf i.policy (w.db.rungs i.broadcastId) quote).step
    rw [← hmode] at hcalls happlied
    have hkept : (i.decides w.db quote).calls = (keepStopped i.actuator i.broadcastId
        (w.db.rungs i.broadcastId).applied (min (w.db.rungs i.broadcastId).applied
          (transitionOf i.policy (w.db.rungs i.broadcastId) quote).step)).1 := by
      rw [← happlied]
      show (reconcile ..).calls ++ _ = _
      rw [hcalls]
      rfl
    have hright : NothingToKeep w i ↔ (w.db.rungs i.broadcastId).applied.allowsRecording = true ∨
        (w.db.rungs i.broadcastId).applied.isTerminal = true ∨
        ((computedStep i.policy quote).allowsRecording = true ∧
          i.policy.recoverAfterEvaluations < saturatingAdd (w.db.rungs i.broadcastId).streak 1) := by
      constructor
      · exact fun hquiet => hquiet quote hquote hstate
      · intro hquiet quote' hquote' _
        rw [hquote] at hquote'
        cases hquote'
        exact hquiet
    rw [hkept, hright, keepStopped_eq_nil_iff, allowsRecording_iff, allowsRecording_iff]
    by_cases hallowed : (w.db.rungs i.broadcastId).applied < .reduceQuality
    · exact ⟨fun _ => .inl hallowed, fun _ => .inl hallowed⟩
    · cases hterminal : (w.db.rungs i.broadcastId).applied.isTerminal with
      | true =>
        have hended := isTerminal_iff.mp hterminal
        have htarget := le_trans hle (target_ended i.policy quote hle hended)
        rw [min_eq_left htarget]
        exact ⟨fun _ => .inr (.inl rfl), fun _ => .inr (.inr hended)⟩
      | false =>
        have hrecovers := target_allowsRecording_iff i.policy quote hle (not_lt.mp hallowed) hterminal
        have hlive : (w.db.rungs i.broadcastId).applied < .endWithSlate := by
          rw [← not_le, ← isTerminal_iff, hterminal]
          exact Bool.false_ne_true
        rw [min_lt_iff, hrecovers]
        have hcontinues := not_le.mpr (lt_of_le_of_lt (min_le_left (w.db.rungs i.broadcastId).applied
          (transitionOf i.policy (w.db.rungs i.broadcastId) quote).step) hlive)
        simp only [hallowed, hcontinues, false_or, or_false, Bool.false_eq_true]
  · rename_i hnever
    refine ⟨fun _ quote hquote hstate => ?_, fun _ => rfl⟩
    exact absurd hstate (hnever quote hquote)

/-- Without a dwell, the observe evaluation that sees the top-up lifts the restriction. -/
theorem observe_touches_nothing_recovered : (withheld.db.rungs "b").applied = .drainToOrigin ∧
    (evaluateOne withheld.db (testInput .observe 5000 0) {}).2.2 = [] := by
  have run : Run ladderStep Anything newLadder [testInput .degrade 0 3] withheld := .next .start trivial
  refine ⟨by decide +kernel, (observe_touches_nothing_iff run rfl).mpr ?_⟩
  rintro quote ⟨⟩ -
  exact .inr (.inr (by decide +kernel))

/-- **Observe mode stops a recording** that degrade mode had stopped before the switch. -/
theorem observe_stops_recording : Run ladderStep Anything newLadder [testInput .degrade 0 3] withheld ∧
    (testInput .observe 0 3).mode = .observe ∧
    (evaluateOne withheld.db (testInput .observe 0 3) {}).2.2 = [.stopRecording "b"] :=
  ⟨.next .start trivial, rfl, by decide +kernel⟩

/-- **Observe mode never restricts**: from any tables and after any evaluations in it, whatever they quote and whatever
fails, no broadcast has a harsher rung applied than before. -/
theorem observe_never_restricts (w : LadderWorld) (inputs : List LadderInput) (b : String) :
    ((inputs.foldl (fun w i => ladderStep w { i with mode := .observe }) w).db.rungs b).applied ≤ (w.db.rungs b).applied := by
  induction inputs generalizing w with
  | nil => exact le_rfl
  | cons i inputs ih =>
    refine le_trans (ih _) ?_
    rcases ladderStep_rungs w { i with mode := .observe } b with hsame | ⟨rfl, quote, -, happlied⟩
    · rw [hsame]
    · have hmin := (reconcile_observe i.actuator i.broadcastId quote (w.db.rungs i.broadcastId).applied
        (transitionOf i.policy (w.db.rungs i.broadcastId) quote).step).2
      exact le_of_eq_of_le (happlied.trans hmin) (min_le_left ..)

end MatrixMedia.Ladder
