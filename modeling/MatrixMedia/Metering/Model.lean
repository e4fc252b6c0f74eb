import MatrixMedia.Lib.Text
import MatrixMedia.Lib.Ledger
import MatrixMedia.Lib.Chrono

/-!
# The egress meter (`mm-fleet/src/metering.rs`, `mm-db/src/metering_db.rs`)

mm-switch counts bytes per source in memory and reports cumulative totals under an
`epoch` that names the process. A poll reads the stored baseline rows of the node,
subtracts them from the reading, and writes the usage events and the new baseline in one
transaction. `Std.TreeMap` stands for Rust's `BTreeMap` and for a table with a primary
key: both iterate in key order.

What the database, the node and the payer lookup answer is an input of the poll
(`PollIo`), so a run may fail at any of them. `i64` values are `Int`; the one addition
that can overflow wraps as a release build does (`wrapI64`), and `now - before` cannot,
because the stored counter is not negative (`CHECK (cumulative_bytes >= 0)`).
-/

namespace MatrixMedia.Metering
open Lib Lib.Text Lib.Chrono

/-- The `i64` a wrapping addition leaves. -/
def wrapI64 (n : Int) : Int := n.bmod (2 ^ 64)

/-- `mm_core::switch_client::SwitchEgressReading`. -/
structure SwitchEgressReading where
  source : String
  bytes : Int

/-- `mm_core::switch_client::SwitchEgress`, the body of `GET /api/egress`. -/
structure SwitchEgress where
  epoch : String
  since : DateTime
  overheadBytesPerPacket : Int
  sources : List SwitchEgressReading

/-- A reading reduced to what the delta needs. -/
structure EgressSnapshot where
  epoch : String
  since : DateTime
  bytes : Std.TreeMap String Int

/-- `impl From<SwitchEgress> for EgressSnapshot`: a source reported twice is summed. -/
def EgressSnapshot.ofSwitchEgress (e : SwitchEgress) : EgressSnapshot where
  epoch := e.epoch
  since := e.since
  bytes := e.sources.foldl (fun m r => m.insert r.source (wrapI64 (m.getD r.source 0 + r.bytes))) ∅

/-- One (node, source) counter position, as `baselines_for_node` returns it. -/
structure EgressBaseline where
  source : String
  epoch : String
  cumulativeBytes : Int
  observedAt : DateTime
deriving DecidableEq

/-- Rebuild a snapshot from stored baselines; `none` when nothing is stored or when the
rows disagree about the epoch. -/
def baselineSnapshot : List EgressBaseline → Option EgressSnapshot
  | [] => none
  | first :: rest =>
    if (first :: rest).any (fun r => r.epoch != first.epoch) then none
    else some
      { epoch := first.epoch
        since := first.observedAt
        bytes := (first :: rest).foldl (fun m r => m.insert r.source r.cumulativeBytes) ∅ }

/-- The broadcast a source belongs to, the inverse of mm-switch's `stream-{broadcast_id}`. -/
def broadcastIdForSource (source : String) : Option String :=
  (stripPrefix "stream-" source).filter (fun s => s != "")

/-- Usage attributable to one source between two readings. -/
structure Usage where
  source : String
  bytes : Int
deriving DecidableEq

inductive MeteringAnomaly where
  | countersReset (previousEpoch currentEpoch : String) (newEpochSince : DateTime)
  | counterWentBackwards (source : String) (previous current : Int)
  | sourceVanished (source : String) (previous : Int)
deriving DecidableEq

structure MeteringResult where
  usage : List Usage
  anomalies : List MeteringAnomaly
  advanceBaseline : Bool

/-- Usage between `previous` and `current`. -/
def egressDelta (previous : Option EgressSnapshot) (current : EgressSnapshot) : MeteringResult :=
  match previous with
  | none => { usage := [], anomalies := [], advanceBaseline := true }
  | some previous =>
    if previous.epoch != current.epoch then
      -- The node restarted: everything in the reading accrued inside the new epoch.
      { usage := (current.bytes.toList.filter fun sb => 0 < sb.2).map fun sb => ⟨sb.1, sb.2⟩
        anomalies := [.countersReset previous.epoch current.epoch current.since]
        advanceBaseline := true }
    else
      { usage := current.bytes.toList.filterMap fun sb =>
          let before := previous.bytes.getD sb.1 0
          if sb.2 < before then none
          else if 0 < sb.2 - before then some ⟨sb.1, sb.2 - before⟩
          else none
        anomalies :=
          (current.bytes.toList.filterMap fun sb =>
            let before := previous.bytes.getD sb.1 0
            if sb.2 < before then some (.counterWentBackwards sb.1 before sb.2) else none) ++
          (previous.bytes.toList.filterMap fun sb =>
            if current.bytes.contains sb.1 then none else some (.sourceVanished sb.1 sb.2))
        advanceBaseline := true }

/-- Bytes to thousandths of a gigabyte, truncating. -/
def bytesToMilliGb (bytes : Int) : Int := if bytes ≤ 0 then 0 else bytes / 1000000

/-- The idempotency key of one source's usage in one poll. -/
def usageIdempotencyKey (nodeId epoch source : String) (cumulative : Int) : String :=
  "egress:" ++ nodeId ++ ":" ++ epoch ++ ":" ++ source ++ ":" ++ toString cumulative

/-! ## The tables -/

/-- A billable interval for one source, ready to be written. -/
structure EgressInterval where
  source : String
  userId : String
  broadcastId : String
  bytes : Int
  quantityMilli : Int
  cumulativeBytes : Int
  epoch : String
  idempotencyKey : String
  occurredAt : DateTime
deriving DecidableEq

/-- A row of `mm_usage_events` written by the meter: the accepted interval and its node. -/
structure UsageEvent where
  mmNodeId : String
  interval : EgressInterval
deriving DecidableEq

/-- The value columns of `mm_egress_baseline`. -/
structure BaselineRow where
  epoch : String
  cumulativeBytes : Int
  observedAt : DateTime
deriving DecidableEq

/-- The column under `usage_idempotency_unique`. -/
def UsageEvent.key (e : UsageEvent) : String := e.interval.idempotencyKey

/-- The meter's two tables. `mm_egress_baseline` has primary key (node, source). -/
structure MeteringDb where
  baselines : Std.TreeMap String (Std.TreeMap String BaselineRow)
  events : Ledger UsageEvent.key

def MeteringDb.empty : MeteringDb := ⟨∅, Ledger.empty⟩

section
variable (db : MeteringDb)

/-- The baseline rows of one node, by source. -/
def MeteringDb.rowsOf (mmNodeId : String) : Std.TreeMap String BaselineRow :=
  db.baselines.getD mmNodeId ∅

/-- `SELECT … FROM mm_egress_baseline WHERE mm_node_id = $1 ORDER BY source`. -/
def MeteringDb.baselinesForNode (mmNodeId : String) : List EgressBaseline :=
  (db.rowsOf mmNodeId).toList.map fun sr => ⟨sr.1, sr.2.epoch, sr.2.cumulativeBytes, sr.2.observedAt⟩

inductive MeteringDbError where
  | db (message : String)
deriving DecidableEq

/-- `#[error("database error: {0}")]`. -/
def MeteringDbError.text : MeteringDbError → String
  | .db message => "database error: " ++ message

/-- What a `record_interval` call wrote. -/
structure Recorded where
  events : Nat
  bytes : Int
deriving DecidableEq

/-- How the transaction of `record_interval` ends. An error while committing may come
back after the commit took effect (`unacknowledged`). -/
inductive CommitOutcome where
  | committed
  | rolledBack (message : String)
  | unacknowledged (message : String)
deriving DecidableEq

/-- `INSERT … ON CONFLICT (idempotency_key) DO NOTHING` for each interval, counting what
was accepted. -/
def insertIntervals (mmNodeId : String) (events : Ledger UsageEvent.key) (written : Recorded) :
    List EgressInterval → Ledger UsageEvent.key × Recorded
  | [] => (events, written)
  | iv :: rest =>
    let event : UsageEvent := ⟨mmNodeId, iv⟩
    if event.key ∈ events.rows.map UsageEvent.key then insertIntervals mmNodeId events written rest
    else insertIntervals mmNodeId (events.post event) ⟨written.events + 1, written.bytes + iv.bytes⟩ rest

/-- `INSERT … ON CONFLICT (mm_node_id, source) DO UPDATE` for each position. -/
def upsertPositions (epoch : String) (observedAt : DateTime) (rows : Std.TreeMap String BaselineRow)
    (positions : List (String × Int)) : Std.TreeMap String BaselineRow :=
  positions.foldl (fun m p => m.insert p.1 ⟨epoch, p.2, observedAt⟩) rows

/-- `PgMeteringDb::record_interval`: usage and baseline in one transaction. A negative
position violates the baseline's CHECK and fails the whole transaction. -/
def MeteringDb.recordInterval (mmNodeId epoch : String) (observedAt : DateTime)
    (intervals : List EgressInterval) (positions : List (String × Int)) (commit : CommitOutcome) :
    MeteringDb × Except MeteringDbError Recorded :=
  if positions.any (fun p => p.2 < 0) then
    (db, .error (.db "new row for relation \"mm_egress_baseline\" violates check constraint"))
  else
    let (events, written) := insertIntervals mmNodeId db.events ⟨0, 0⟩ intervals
    let rows := upsertPositions epoch observedAt (db.rowsOf mmNodeId) positions
    let db' : MeteringDb := ⟨db.baselines.insert mmNodeId rows, events⟩
    match commit with
    | .committed => (db', .ok written)
    | .rolledBack message => (db, .error (.db message))
    | .unacknowledged message => (db', .error (.db message))

/-! ## The polling loop -/

/-- What one sweep did. -/
structure MeteringSweep where
  polled : List String := []
  unreachable : List (String × String) := []
  eventsWritten : Nat := 0
  unbillable : List String := []
  anomalies : List MeteringAnomaly := []
  meteredBytes : List (String × Int) := []
deriving DecidableEq

/-- The answers one poll of a node gets: the baseline read, the node's reading, the payer
of each broadcast, and the commit. -/
structure PollIo where
  baselineRead : Option MeteringDbError
  egress : Except String SwitchEgress
  payer : String → Except MeteringDbError (Option (String × String))
  commit : CommitOutcome

/-- The reading a poll got: the node is asked once the baseline has been read. -/
def PollIo.reading? (io : PollIo) : Option SwitchEgress :=
  match io.baselineRead, io.egress with
  | none, .ok reading => some reading
  | _, _ => none

/-- What the loop over `result.usage` decides for one usage. -/
inductive Disposition where
  | bill (interval : EgressInterval)
  | unbillable
  | lookupFailed (e : MeteringDbError)
  | underAMegabyte

/-- The body of the loop over `result.usage`. -/
def dispose (mmNodeId : String) (current : EgressSnapshot) (now : DateTime)
    (payer : String → Except MeteringDbError (Option (String × String))) (u : Usage) : Disposition :=
  match broadcastIdForSource u.source with
  | none => .unbillable
  | some broadcastId =>
    match payer broadcastId with
    | .ok (some (userId, _)) =>
      let cumulative := current.bytes.getD u.source 0
      let quantityMilli := bytesToMilliGb u.bytes
      if quantityMilli = 0 then .underAMegabyte
      else .bill
        { source := u.source
          userId := userId
          broadcastId := broadcastId
          bytes := u.bytes
          quantityMilli := quantityMilli
          cumulativeBytes := cumulative
          epoch := current.epoch
          idempotencyKey := usageIdempotencyKey mmNodeId current.epoch u.source cumulative
          occurredAt := now }
    | .ok none => .unbillable
    | .error e => .lookupFailed e

def Disposition.interval? : Disposition → Option EgressInterval
  | .bill iv => some iv
  | _ => none

def Disposition.isUnbillable : Disposition → Bool
  | .unbillable => true
  | _ => false

def Disposition.error? : Disposition → Option MeteringDbError
  | .lookupFailed e => some e
  | _ => none

/-- What the loop over `result.usage` leaves in the report. -/
def MeteringSweep.note (sweep : MeteringSweep) (mmNodeId : String) (result : MeteringResult)
    (disposition : Usage → Disposition) : MeteringSweep :=
  { sweep with
    anomalies := sweep.anomalies ++ result.anomalies
    unbillable := sweep.unbillable ++ (result.usage.filter fun u => (disposition u).isUnbillable).map Usage.source
    unreachable := sweep.unreachable ++ result.usage.filterMap fun u =>
      (disposition u).error?.map fun e => (mmNodeId, "payer lookup failed: " ++ e.text) }

/-- The intervals a poll wants to write. -/
def intervalsOf (mmNodeId : String) (current : EgressSnapshot) (now : DateTime)
    (payer : String → Except MeteringDbError (Option (String × String))) (usage : List Usage) :
    List EgressInterval :=
  usage.filterMap fun u => (dispose mmNodeId current now payer u).interval?

/-- The sources whose baseline moves: those that were billed and those that had nothing
to bill. -/
def advancedOf (current : EgressSnapshot) (usage : List Usage) (intervals : List EgressInterval) :
    List (String × Int) :=
  current.bytes.toList.filter fun sb =>
    intervals.any (fun iv => iv.source == sb.1) || !usage.any (fun u => u.source == sb.1)

/-- One node of `sweep_egress`. -/
def pollNode (sweep : MeteringSweep) (mmNodeId : String) (now : DateTime) (io : PollIo) :
    MeteringDb × MeteringSweep :=
  match io.baselineRead with
  | some e => (db, { sweep with unreachable := sweep.unreachable ++ [(mmNodeId, "baseline read failed: " ++ e.text)] })
  | none =>
    let previous := baselineSnapshot (db.baselinesForNode mmNodeId)
    match io.egress with
    | .error e => (db, { sweep with unreachable := sweep.unreachable ++ [(mmNodeId, e)] })
    | .ok reading =>
      let current := EgressSnapshot.ofSwitchEgress reading
      let result := egressDelta previous current
      let sweep := sweep.note mmNodeId result (dispose mmNodeId current now io.payer)
      let intervals := intervalsOf mmNodeId current now io.payer result.usage
      let advanced := advancedOf current result.usage intervals
      match db.recordInterval mmNodeId current.epoch now intervals advanced io.commit with
      | (db, .ok written) =>
        (db, { sweep with
          eventsWritten := sweep.eventsWritten + written.events
          meteredBytes :=
            if 0 < written.bytes then sweep.meteredBytes ++ [(mmNodeId, written.bytes)] else sweep.meteredBytes
          polled := sweep.polled ++ [mmNodeId] })
      | (db, .error e) =>
        (db, { sweep with unreachable := sweep.unreachable ++ [(mmNodeId, "write failed: " ++ e.text)] })

/-- `sweep_egress`: poll every node, derive usage, write it. -/
def sweepEgress (nodes : List (String × PollIo)) (now : DateTime) : MeteringDb × MeteringSweep :=
  nodes.foldl (fun acc node => pollNode acc.1 acc.2 node.1 now node.2) (db, {})

end

end MatrixMedia.Metering
