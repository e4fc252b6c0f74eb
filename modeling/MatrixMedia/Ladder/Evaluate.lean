import MatrixMedia.Ladder.Loop
import MatrixMedia.Lib.Trail

/-!
# What one evaluation does

`reconcile` never leaves the applied rung above the target and raises it only as far as
the mode's cap, whatever the actuator answers. `evaluateOne_cases` is everything an
evaluation can do to the tables: nothing, or the row of its broadcast with one event for
each rung that changed.
-/

namespace MatrixMedia.Ladder
open Lib Lib.Chrono MatrixMedia.Fleet List

/-! ## The actuator -/

section Actuate
variable {io : ActuatorIo} {broadcastId statement : String} {ending : Bool}

theorem mem_rungsBetween {lower upper rung} :
    rung ∈ rungsBetween lower upper ↔ lower < rung ∧ rung ≤ upper := by
  simp [rungsBetween, DemotionStep.mem_all]

/-- The rung reached is the one the loop started from or one of the loop. -/
theorem actuateLoop_reached (rungs : List DemotionStep) (acc : Actuation) :
    (actuateLoop io broadcastId statement ending rungs acc).reached = acc.reached ∨
      (actuateLoop io broadcastId statement ending rungs acc).reached ∈ rungs := by
  induction rungs generalizing acc with
  | nil => exact .inl rfl
  | cons rung rungs ih =>
    unfold actuateLoop
    dsimp only
    split
    · split
      · rcases ih _ with heq | hmem
        · rw [heq]
          exact .inr mem_cons_self
        · exact .inr (mem_cons_of_mem _ hmem)
      · rcases ih _ with heq | hmem
        · exact .inl heq
        · exact .inr (mem_cons_of_mem _ hmem)
    · split
      · exact .inl rfl
      · rcases ih _ with heq | hmem
        · exact .inl heq
        · exact .inr (mem_cons_of_mem _ hmem)

/-- Every call is the effect of a rung of the loop. -/
theorem actuateLoop_calls (rungs : List DemotionStep) (acc : Actuation) {call}
    (h : call ∈ (actuateLoop io broadcastId statement ending rungs acc).calls) :
    call ∈ acc.calls ∨ ∃ rung ∈ rungs, call ∈ (effect io broadcastId statement rung).1 := by
  induction rungs generalizing acc with
  | nil => exact .inl h
  | cons rung rungs ih =>
    have hlater : ∀ acc' : Actuation, acc'.calls = acc.calls ++ (effect io broadcastId statement rung).1 →
        (call ∈ acc'.calls ∨ ∃ rung ∈ rungs, call ∈ (effect io broadcastId statement rung).1) →
        call ∈ acc.calls ∨ ∃ rung' ∈ rung :: rungs, call ∈ (effect io broadcastId statement rung').1 := by
      rintro acc' hcalls (hnow | ⟨rung', hmem, hcall⟩)
      · rw [hcalls] at hnow
        rcases mem_append.mp hnow with hold | hnew
        · exact .inl hold
        · exact .inr ⟨rung, mem_cons_self, hnew⟩
      · exact .inr ⟨rung', mem_cons_of_mem _ hmem, hcall⟩
    unfold actuateLoop at h
    dsimp only at h
    split at h
    · split at h
      · exact hlater _ rfl (ih _ h)
      · exact hlater _ rfl (ih _ h)
    · split at h
      · exact hlater _ rfl (.inl h)
      · exact hlater _ rfl (ih _ h)

theorem actuate_fst (io : ActuatorIo) (lower upper : DemotionStep) (broadcastId statement : String) :
    (actuate io lower upper broadcastId statement).1 = (actuateLoop io broadcastId statement (upper == .endWithSlate)
      (rungsBetween lower upper) ⟨lower, false, [], []⟩).reached := by
  unfold actuate
  dsimp only
  split <;> rfl

theorem actuate_calls (io : ActuatorIo) (lower upper : DemotionStep) (broadcastId statement : String) :
    (actuate io lower upper broadcastId statement).2.2 = (actuateLoop io broadcastId statement (upper == .endWithSlate)
      (rungsBetween lower upper) ⟨lower, false, [], []⟩).calls := by
  unfold actuate
  dsimp only
  split <;> rfl

/-- No more is reached than was asked for. -/
theorem actuate_le (io : ActuatorIo) (broadcastId statement : String) {lower upper} (h : lower ≤ upper) :
    (actuate io lower upper broadcastId statement).1 ≤ upper := by
  rw [actuate_fst]
  rcases actuateLoop_reached (rungsBetween lower upper) ⟨lower, false, [], []⟩ with heq | hmem
  · rw [heq]
    exact h
  · exact (mem_rungsBetween.mp hmem).2

/-- The broadcast is ended only on the way to a rung that ends it, from one that does not. -/
theorem ending_of_actuate {lower upper call}
    (h : call ∈ (actuate io lower upper broadcastId statement).2.2) (hending : call.isEnding = true) :
    lower < .endWithSlate ∧ .endWithSlate ≤ upper := by
  rw [actuate_calls] at h
  rcases actuateLoop_calls _ _ h with hnone | ⟨rung, hrung, hcall⟩
  · cases hnone
  · have hrung' := mem_rungsBetween.mp hrung
    cases rung with
    | endWithSlate => exact hrung'
    | reduceQuality | drainToOrigin =>
      rw [effect, mem_singleton] at hcall
      subst hcall
      cases hending
    | healthy | stopProvisioning | overrun => cases hcall

end Actuate

/-! ## Reconciling -/

section Reconcile
variable (mode : LadderMode) (io : ActuatorIo) (broadcastId : String) (quote : BroadcastBilling)
  (before target : DemotionStep)

/-- The applied rung rises within the cap, goes back to the target, or stays. -/
theorem reconcile_cases :
    (before < (reconcile mode io broadcastId quote before target).applied ∧
        (reconcile mode io broadcastId quote before target).applied ≤ mode.cap target) ∨
      (target < before ∧ (reconcile mode io broadcastId quote before target).applied = target) ∨
      (before ≤ target ∧ (reconcile mode io broadcastId quote before target).applied = before) := by
  unfold reconcile
  dsimp only
  split
  · rename_i hwant
    have hle := actuate_le io broadcastId
      (statementFor (mode.cap target) quote.availableBalanceMinor quote.projectedCostMinor) (le_of_lt hwant)
    split
    · rename_i hreached
      exact .inl ⟨hreached, hle⟩
    · exact .inr (.inr ⟨le_trans (le_of_lt hwant) (mode.cap_le target), rfl⟩)
  · split
    · rename_i hback
      exact .inr (.inl ⟨hback, rfl⟩)
    · rename_i hsame
      exact .inr (.inr ⟨not_lt.mp hsame, rfl⟩)

theorem reconcile_le : (reconcile mode io broadcastId quote before target).applied ≤ target := by
  rcases reconcile_cases mode io broadcastId quote before target with ⟨-, hle⟩ | ⟨-, heq⟩ | ⟨hle, heq⟩
  · exact le_trans hle (mode.cap_le target)
  · exact le_of_eq heq
  · rw [heq]
    exact hle

/-- What an event says of a rung. -/
def DemotionEvent.change (e : DemotionEvent) : String × String := (e.fromStep, e.toStep)

/-- A change of the applied rung has its one event. -/
theorem reconcile_events : (∀ e ∈ (reconcile mode io broadcastId quote before target).events, e.kind = .applied) ∧
    (reconcile mode io broadcastId quote before target).events.map DemotionEvent.change =
      changeOf before.asStr (reconcile mode io broadcastId quote before target).applied.asStr := by
  have hchange : ∀ step, before ≠ step →
      [(before.asStr, step.asStr)] = changeOf before.asStr step.asStr := by
    intro step hne
    rw [changeOf, if_neg fun heq => hne (DemotionStep.asStr_inj heq)]
  have hnone : [] = changeOf before.asStr before.asStr := by
    rw [changeOf, if_pos rfl]
  unfold reconcile
  dsimp only
  split
  · split
    · rename_i hreached
      exact ⟨by simp, hchange _ (ne_of_lt hreached)⟩
    · exact ⟨by simp, hnone⟩
  · split
    · rename_i hback
      exact ⟨by simp, hchange _ (ne_of_gt hback)⟩
    · exact ⟨by simp, hnone⟩

/-- Nothing is called unless the applied rung is to rise. -/
theorem reconcile_calls : (reconcile mode io broadcastId quote before target).calls =
    if before < mode.cap target then
      (actuate io before (mode.cap target) broadcastId
        (statementFor (mode.cap target) quote.availableBalanceMinor quote.projectedCostMinor)).2.2
    else [] := by
  unfold reconcile
  dsimp only
  split
  · split <;> rfl
  · split <;> rfl

end Reconcile

/-! ## The tables -/

/-- The event rows of one broadcast and one kind, as changes. -/
def LadderDb.changes (db : LadderDb) (broadcastId : String) (kind : EventKind) : List (String × String) :=
  (db.events.filter fun row => row.broadcastId == broadcastId && row.event.kind == kind).map fun row => row.event.change

/-- What a priced evaluation decides. -/
def LadderInput.decides (i : LadderInput) (db : LadderDb) (quote : BroadcastBilling) : Outcome :=
  i.outcome (db.rungs i.broadcastId) quote

/-- An evaluation leaves the tables as they are, or writes its own row and events. -/
theorem evaluateOne_cases (db : LadderDb) (i : LadderInput) (report : LadderReport) :
    (evaluateOne db i report).1 = db ∨ ∃ quote, i.quote = .ok quote ∧
      (evaluateOne db i report).1 =
        db.write (i.evaluation (db.rungs i.broadcastId) quote (i.decides db quote)) i.now := by
  unfold evaluateOne
  split
  · exact .inl rfl
  · exact .inl rfl
  · rename_i quote hquote hstate
    have hdb : (db.record (i.evaluation (db.rungs i.broadcastId) quote (i.decides db quote)) i.now i.record i.violation).1
        = db ∨
        (db.record (i.evaluation (db.rungs i.broadcastId) quote (i.decides db quote)) i.now i.record i.violation).1 =
          db.write (i.evaluation (db.rungs i.broadcastId) quote (i.decides db quote)) i.now := by
      unfold LadderDb.record
      split
      · split
        · exact .inr rfl
        · exact .inl rfl
        · exact .inr rfl
      · exact .inl rfl
    dsimp only
    split
    · rename_i db' hrecord
      rw [LadderInput.decides, hrecord] at hdb
      rcases hdb with hsame | hwritten
      · exact .inl hsame
      · exact .inr ⟨quote, hquote, hwritten⟩
    · rename_i db' e hrecord
      rw [LadderInput.decides, hrecord] at hdb
      rcases hdb with hsame | hwritten
      · exact .inl hsame
      · exact .inr ⟨quote, hquote, hwritten⟩

/-- The calls of an evaluation. -/
theorem evaluateOne_calls (db : LadderDb) (i : LadderInput) (report : LadderReport) :
    (evaluateOne db i report).2.2 =
      match i.quote, i.state with
      | .ok quote, none => (i.decides db quote).calls
      | _, _ => [] := by
  unfold evaluateOne
  split
  · rename_i hquote
    rw [hquote]
  · rename_i hquote hstate
    rw [hquote, hstate]
  · rename_i quote hquote hstate
    rw [hquote, hstate]
    dsimp only
    split <;> rfl

section Write
variable (db : LadderDb) (e : Evaluation) (now : DateTime)

theorem row_write (b : String) : (db.write e now).demotion[b]? =
    if e.broadcastId = b then some (e.upsert now db.demotion[e.broadcastId]?) else db.demotion[b]? :=
  Table.getElem?_insert _ _ _ _

theorem changes_write (b : String) (kind : EventKind) : (db.write e now).changes b kind = db.changes b kind ++
    if e.broadcastId = b then (e.events.filter fun ev => ev.kind == kind).map DemotionEvent.change else [] := by
  unfold LadderDb.changes LadderDb.write Evaluation.rows
  rw [filter_append, map_append, filter_map, map_map]
  by_cases hb : e.broadcastId = b
  · rw [if_pos hb]
    subst hb
    simp [Function.comp_def]
  · rw [if_neg hb]
    simp [Function.comp_def, hb]

end Write

/-- Each rung that an evaluation changes has its one event. -/
theorem evaluation_changes (i : LadderInput) (before : Rungs) (quote : BroadcastBilling) :
    (((i.evaluation before quote (i.outcome before quote)).events.filter fun ev => ev.kind == .decision).map
        DemotionEvent.change = changeOf before.target.asStr (i.outcome before quote).transition.step.asStr) ∧
      (((i.evaluation before quote (i.outcome before quote)).events.filter fun ev => ev.kind == .applied).map
        DemotionEvent.change = changeOf before.applied.asStr (i.outcome before quote).reconciled.applied.asStr) := by
  obtain ⟨hkind, hchange⟩ := reconcile_events i.mode i.actuator i.broadcastId quote before.applied
    (transitionOf i.policy before quote).step
  have hdecision : (reconcile i.mode i.actuator i.broadcastId quote before.applied
      (transitionOf i.policy before quote).step).events.filter (fun ev => ev.kind == .decision) = [] := by
    rw [filter_eq_nil_iff]
    intro ev hev
    rw [hkind ev hev]
    decide
  have happlied : (reconcile i.mode i.actuator i.broadcastId quote before.applied
      (transitionOf i.policy before quote).step).events.filter (fun ev => ev.kind == .applied) =
        (reconcile i.mode i.actuator i.broadcastId quote before.applied
          (transitionOf i.policy before quote).step).events := by
    rw [filter_eq_self]
    intro ev hev
    rw [hkind ev hev]
    rfl
  unfold LadderInput.evaluation LadderInput.outcome
  dsimp only
  rw [filter_append, filter_append, hdecision, happlied, append_nil, map_append, hchange]
  rcases nextStep_cases before.target (computedStep i.policy quote) before.streak before.applied.isTerminal i.policy with
    ⟨hstep, hne, hmoved⟩ | ⟨hstep, hmoved⟩
  · rw [transitionOf, hstep, hmoved, changeOf, if_neg fun heq => hne (DemotionStep.asStr_inj heq).symm]
    exact ⟨rfl, rfl⟩
  · rw [transitionOf, hstep, hmoved, changeOf, if_pos rfl]
    exact ⟨rfl, rfl⟩

/-- What a recorded evaluation leaves of its broadcast. -/
structure Recorded (db : LadderDb) (i : LadderInput) (quote : BroadcastBilling) (db' : LadderDb) : Prop where
  row : ∃ row, db'.demotion[i.broadcastId]? = some row ∧
    row.targetStep = (i.decides db quote).transition.step.asStr ∧
    row.appliedStep = (i.decides db quote).reconciled.applied.asStr
  decisions : db'.changes i.broadcastId .decision = db.changes i.broadcastId .decision ++
    changeOf (db.rungs i.broadcastId).target.asStr (i.decides db quote).transition.step.asStr
  actions : db'.changes i.broadcastId .applied = db.changes i.broadcastId .applied ++
    changeOf (db.rungs i.broadcastId).applied.asStr (i.decides db quote).reconciled.applied.asStr

theorem write_recorded (db : LadderDb) (i : LadderInput) (quote : BroadcastBilling) :
    Recorded db i quote (db.write (i.evaluation (db.rungs i.broadcastId) quote (i.decides db quote)) i.now) := by
  obtain ⟨hdecision, happlied⟩ := evaluation_changes i (db.rungs i.broadcastId) quote
  refine ⟨⟨(i.evaluation (db.rungs i.broadcastId) quote (i.decides db quote)).upsert i.now db.demotion[i.broadcastId]?,
    ?_, rfl, rfl⟩, ?_, ?_⟩
  · rw [row_write]
    exact if_pos rfl
  · rw [changes_write]
    refine congrArg (db.changes i.broadcastId .decision ++ ·) ?_
    exact (if_pos rfl).trans hdecision
  · rw [changes_write]
    refine congrArg (db.changes i.broadcastId .applied ++ ·) ?_
    exact (if_pos rfl).trans happlied

/-- An evaluation leaves a broadcast as it is, or is recorded for it. -/
theorem evaluateOne_broadcast (db : LadderDb) (i : LadderInput) (report : LadderReport) (b : String) :
    ((evaluateOne db i report).1.demotion[b]? = db.demotion[b]? ∧
        ∀ kind, (evaluateOne db i report).1.changes b kind = db.changes b kind) ∨
      i.broadcastId = b ∧ ∃ quote, i.quote = .ok quote ∧ Recorded db i quote (evaluateOne db i report).1 := by
  rcases evaluateOne_cases db i report with heq | ⟨quote, hquote, heq⟩
  · rw [heq]
    exact .inl ⟨rfl, fun _ => rfl⟩
  · rw [heq]
    by_cases hb : i.broadcastId = b
    · exact .inr ⟨hb, quote, hquote, write_recorded db i quote⟩
    · refine .inl ⟨?_, ?_⟩
      · rw [row_write]
        exact if_neg hb
      · intro kind
        rw [changes_write]
        refine (congrArg (db.changes b kind ++ ·) (if_neg hb)).trans ?_
        exact append_nil _

end MatrixMedia.Ladder
