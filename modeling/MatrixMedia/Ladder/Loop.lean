import MatrixMedia.Fleet.Runner
import MatrixMedia.Ladder.Rungs

/-!
# Acting on the ladder (`mm-fleet/src/ladder_loop.rs`, `mm-db/src/ladder_db.rs`)

One evaluation of one broadcast: the quote and the persisted row are read, the target
moves, the applied rung is reconciled with it as far as the mode allows, a recording stop
in force is kept in force, and the row is written with its events in one transaction.
What the outside answers (the quote, the reads, the actuator, the commit) is input.
-/

namespace MatrixMedia.Ladder
open Lib.Chrono MatrixMedia.Fleet DemotionStep

/-! ## The tables -/

/-- A row of `mm_broadcast_demotion`. -/
structure DemotionState where
  targetStep : String
  appliedStep : String
  enteredAt : DateTime
  evaluatedAt : DateTime
  balanceMinor : Int
  projectedCostMinor : Int
  milderStreak : Int32

inductive EventKind where
  /-- The target rung changed. -/
  | decision
  /-- The applied rung changed. -/
  | applied
deriving DecidableEq

structure DemotionEvent where
  kind : EventKind
  fromStep : String
  toStep : String
  statement : String

/-- A row of `mm_demotion_events`. -/
structure EventRow where
  broadcastId : String
  userId : String
  balanceMinor : Int
  projectedCostMinor : Int
  occurredAt : DateTime
  event : DemotionEvent

/-- Everything one evaluation of one broadcast writes. -/
structure Evaluation where
  broadcastId : String
  userId : String
  targetStep : String
  appliedStep : String
  targetChanged : Bool
  milderStreak : Int32
  balanceMinor : Int
  projectedCostMinor : Int
  events : List DemotionEvent

/-- The two tables of the ladder; the events oldest first. -/
structure LadderDb where
  demotion : Std.TreeMap String DemotionState
  events : List EventRow

inductive RecordOutcome where
  | committed
  /-- The transaction failed and nothing was written. -/
  | failed (message : String)
  /-- The commit took effect and was reported as failed. -/
  | unacknowledged (message : String)

/-- The `CHECK` constraints of both tables. -/
def Evaluation.passesChecks (e : Evaluation) : Bool :=
  (parse e.targetStep).isSome && (parse e.appliedStep).isSome && 0 ≤ e.milderStreak &&
    e.events.all fun ev => !ev.statement.isEmpty

/-- The upsert of the state row. -/
def Evaluation.upsert (e : Evaluation) (now : DateTime) (row : Option DemotionState) : DemotionState where
  targetStep := e.targetStep
  appliedStep := e.appliedStep
  enteredAt := match row with
    | some row => if e.targetChanged then now else row.enteredAt
    | none => now
  evaluatedAt := now
  balanceMinor := e.balanceMinor
  projectedCostMinor := e.projectedCostMinor
  milderStreak := e.milderStreak

/-- The rows of `mm_demotion_events` it adds. -/
def Evaluation.rows (e : Evaluation) (now : DateTime) : List EventRow :=
  e.events.map fun ev => ⟨e.broadcastId, e.userId, e.balanceMinor, e.projectedCostMinor, now, ev⟩

def LadderDb.write (db : LadderDb) (e : Evaluation) (now : DateTime) : LadderDb where
  demotion := db.demotion.insert e.broadcastId (e.upsert now db.demotion[e.broadcastId]?)
  events := db.events ++ e.rows now

/-- `PgLadderDb::record`: the row and its events in one transaction. `violation` is the text
of a violated constraint. -/
def LadderDb.record (db : LadderDb) (e : Evaluation) (now : DateTime) (outcome : RecordOutcome) (violation : String) :
    LadderDb × Except String Unit :=
  if e.passesChecks then
    match outcome with
    | .committed => (db.write e now, .ok ())
    | .failed message => (db, .error ("ladder db: " ++ message))
    | .unacknowledged message => (db.write e now, .error ("ladder db: " ++ message))
  else (db, .error ("ladder db: " ++ violation))

/-! ## Statements of reasons -/

/-- `statement_for`. -/
def statementFor (step : DemotionStep) (balanceMinor projectedMinor : Int) : String :=
  let money := "Your balance is " ++ toString balanceMinor ++ " and the cost projected for the rest of this broadcast is " ++
    toString projectedMinor ++ " (in minor currency units)."
  let action := match step with
    | .healthy => "Your balance covers the projected cost, and the restrictions on this broadcast have been lifted. " ++
      "If recording was stopped, it does not restart on its own: start it again to resume recording."
    | .stopProvisioning => "No additional streaming capacity will be added for this broadcast. " ++
      "Nothing changes for viewers who are already watching. Adding funds restores normal service."
    | .reduceQuality => "Recording has been stopped and streaming quality has been reduced for this broadcast. " ++
      "Viewers can still watch. Adding funds restores normal service."
    | .drainToOrigin => "Viewers are being moved back to the main server, which may briefly interrupt their playback " ++
      "and may reduce capacity for large audiences. The broadcast continues. Adding funds restores normal service."
    | .endWithSlate => "This broadcast has been ended because the balance available for it has run out. " ++
      "Viewers were shown a notice rather than losing the stream without explanation."
    | .overrun => "This broadcast has ended with an outstanding balance. No further service is affected; " ++
      "the amount remains payable."
  action ++ " " ++ money

/-! ## The actuator -/

/-- A call of a `LadderActuator` method. -/
inductive ActuatorCall where
  | stopRecording (broadcastId : String)
  | drainToOrigin (broadcastId : String)
  | endWithSlate (broadcastId statement : String)
deriving DecidableEq

def ActuatorCall.isEnding : ActuatorCall → Bool
  | .endWithSlate _ _ => true
  | _ => false

/-- What each call would answer. -/
structure ActuatorIo where
  stopRecording : Except String Unit
  drainToOrigin : Except String Unit
  endWithSlate : Except String Unit
  /-- The call that keeps a recording stopped. -/
  keepStopped : Except String Unit

/-- The effect of one rung: the calls it makes, and the result. -/
def effect (io : ActuatorIo) (broadcastId statement : String) : DemotionStep → List ActuatorCall × Except String Unit
  | .reduceQuality => ([.stopRecording broadcastId], io.stopRecording)
  | .drainToOrigin => ([.drainToOrigin broadcastId], io.drainToOrigin)
  | .endWithSlate => ([.endWithSlate broadcastId statement], io.endWithSlate)
  | .healthy | .stopProvisioning | .overrun => ([], .ok ())

/-- The variables of the loop in `actuate`, and the calls made so far. -/
structure Actuation where
  reached : DemotionStep
  blocked : Bool
  errors : List String
  calls : List ActuatorCall

/-- The loop over the rungs that are left. -/
def actuateLoop (io : ActuatorIo) (broadcastId statement : String) (ending : Bool) :
    List DemotionStep → Actuation → Actuation
  | [], acc => acc
  | rung :: rungs, acc =>
    let (calls, result) := effect io broadcastId statement rung
    let acc := { acc with calls := acc.calls ++ calls }
    match result with
    | .ok () =>
      if !acc.blocked || rung == .endWithSlate then
        actuateLoop io broadcastId statement ending rungs { acc with reached := rung }
      else actuateLoop io broadcastId statement ending rungs acc
    | .error e =>
      let acc := { acc with errors := acc.errors ++ [rung.asStr ++ ": " ++ e], blocked := true }
      if !ending then acc else actuateLoop io broadcastId statement ending rungs acc

/-- The rungs above `lower` up to `upper`, in the order of severity. -/
def rungsBetween (lower upper : DemotionStep) : List DemotionStep :=
  all.filter fun r => lower < r && r ≤ upper

/-- `actuate`: the harshest rung whose effects are all in place, what stopped it short, and the calls made. -/
def actuate (io : ActuatorIo) (lower upper : DemotionStep) (broadcastId statement : String) :
    DemotionStep × Option String × List ActuatorCall :=
  let a := actuateLoop io broadcastId statement (upper == .endWithSlate) (rungsBetween lower upper) ⟨lower, false, [], []⟩
  if a.reached = .endWithSlate then (a.reached, none, a.calls)
  else (a.reached, if a.errors.isEmpty then none else some ("; ".intercalate a.errors), a.calls)

/-! ## One evaluation -/

/-- What one pass of the ladder did. -/
structure LadderReport where
  evaluated : Nat := 0
  moved : List (String × DemotionStep × DemotionStep) := []
  applied : List (String × DemotionStep × DemotionStep) := []
  withheld : List (String × DemotionStep) := []
  unpriceable : List (String × String) := []
  actuationFailures : List (String × String) := []

/-- The evaluation of a broadcast, with everything the outside answers. -/
structure LadderInput where
  broadcastId : String
  userId : String
  mode : LadderMode
  policy : LadderPolicy
  now : DateTime
  quote : Except String BroadcastBilling
  /-- The failure of reading the row. -/
  state : Option String
  actuator : ActuatorIo
  record : RecordOutcome
  violation : String

/-- The rungs and the streak as the evaluation reads them. -/
structure Rungs where
  target : DemotionStep
  applied : DemotionStep
  streak : UInt32

/-- A missing row or an unknown rung reads as healthy. -/
def rungsOf (persisted : Option DemotionState) : Rungs where
  target := (persisted.bind fun s => parse s.targetStep).getD .healthy
  applied := (persisted.bind fun s => parse s.appliedStep).getD .healthy
  streak := (persisted.map fun s => (max s.milderStreak 0).toUInt32).getD 0

def LadderDb.rungs (db : LadderDb) (broadcastId : String) : Rungs := rungsOf db.demotion[broadcastId]?

/-- The rung the quote calls for. -/
def computedStep (policy : LadderPolicy) (quote : BroadcastBilling) : DemotionStep :=
  demotionStep ⟨quote.availableBalanceMinor, quote.projectedCostMinor, true⟩ policy

def transitionOf (policy : LadderPolicy) (before : Rungs) (quote : BroadcastBilling) : LadderTransition :=
  nextStep before.target (computedStep policy quote) before.streak before.applied.isTerminal policy

/-- The reconciliation of the applied rung: the rung, its event, the calls and the failure. -/
structure Reconciled where
  applied : DemotionStep
  events : List DemotionEvent
  calls : List ActuatorCall
  failure : Option String

def reconcile (mode : LadderMode) (io : ActuatorIo) (broadcastId : String) (quote : BroadcastBilling)
    (appliedBefore target : DemotionStep) : Reconciled :=
  let want := mode.cap target
  let statement := fun step => statementFor step quote.availableBalanceMinor quote.projectedCostMinor
  if appliedBefore < want then
    let (reached, failure, calls) := actuate io appliedBefore want broadcastId (statement want)
    if appliedBefore < reached then
      ⟨reached, [⟨.applied, appliedBefore.asStr, reached.asStr, statement reached⟩], calls, failure⟩
    else ⟨appliedBefore, [], calls, failure⟩
  else if target < appliedBefore then
    ⟨target, [⟨.applied, appliedBefore.asStr, target.asStr, statement target⟩], [], none⟩
  else ⟨appliedBefore, [], [], none⟩

/-- The recording stop is kept in force while the programme goes on. -/
def keepStopped (io : ActuatorIo) (broadcastId : String) (appliedBefore applied : DemotionStep) :
    List ActuatorCall × Option String :=
  if !appliedBefore.allowsRecording && !applied.allowsRecording && applied.programmeContinues then
    ([.stopRecording broadcastId], match io.keepStopped with
      | .ok () => none
      | .error e => some ("keeping the recording stopped failed: " ++ e))
  else ([], none)

/-- What an evaluation that is priced decides and does. -/
structure Outcome where
  transition : LadderTransition
  reconciled : Reconciled
  kept : List ActuatorCall × Option String

def LadderInput.outcome (i : LadderInput) (before : Rungs) (quote : BroadcastBilling) : Outcome :=
  let transition := transitionOf i.policy before quote
  let reconciled := reconcile i.mode i.actuator i.broadcastId quote before.applied transition.step
  ⟨transition, reconciled, keepStopped i.actuator i.broadcastId before.applied reconciled.applied⟩

def Outcome.calls (o : Outcome) : List ActuatorCall := o.reconciled.calls ++ o.kept.1

/-- What the evaluation writes. -/
def LadderInput.evaluation (i : LadderInput) (before : Rungs) (quote : BroadcastBilling) (o : Outcome) : Evaluation where
  broadcastId := i.broadcastId
  userId := i.userId
  targetStep := o.transition.step.asStr
  appliedStep := o.reconciled.applied.asStr
  targetChanged := o.transition.moved
  milderStreak := o.transition.milderStreak.toInt32
  balanceMinor := quote.availableBalanceMinor
  projectedCostMinor := quote.projectedCostMinor
  events :=
    (if o.transition.moved then
      [⟨.decision, before.target.asStr, o.transition.step.asStr,
        statementFor o.transition.step quote.availableBalanceMinor quote.projectedCostMinor⟩]
     else []) ++ o.reconciled.events

/-- What it adds to the report, before the row is recorded. -/
def LadderInput.note (i : LadderInput) (before : Rungs) (o : Outcome) (report : LadderReport) : LadderReport :=
  { report with
    moved := report.moved ++ if o.transition.moved then [(i.broadcastId, before.target, o.transition.step)] else []
    actuationFailures := report.actuationFailures ++ (o.reconciled.failure.toList ++ o.kept.2.toList).map (i.broadcastId, ·)
    applied := report.applied ++
      if o.reconciled.applied ≠ before.applied then [(i.broadcastId, before.applied, o.reconciled.applied)] else []
    withheld := report.withheld ++
      if i.mode.cap o.transition.step < o.transition.step ∧ i.mode ≠ .observe then [(i.broadcastId, o.transition.step)]
      else [] }

/-- `evaluate_one`: the tables, the report and the actuator calls. -/
def evaluateOne (db : LadderDb) (i : LadderInput) (report : LadderReport) :
    LadderDb × LadderReport × List ActuatorCall :=
  match i.quote, i.state with
  | .error e, _ => (db, { report with unpriceable := report.unpriceable ++ [(i.broadcastId, e)] }, [])
  | .ok _, some e =>
    (db, { report with
      unpriceable := report.unpriceable ++ [(i.broadcastId, "reading the rung failed: ladder db: " ++ e)] }, [])
  | .ok quote, none =>
    let before := db.rungs i.broadcastId
    let o := i.outcome before quote
    let report := i.note before o report
    match db.record (i.evaluation before quote o) i.now i.record i.violation with
    | (db, .ok ()) => (db, report, o.calls)
    | (db, .error e) =>
      (db, { report with
        actuationFailures := report.actuationFailures ++ [(i.broadcastId, "recording the evaluation failed: " ++ e)] },
        o.calls)

end MatrixMedia.Ladder
