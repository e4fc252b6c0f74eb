import MatrixMedia.Lib.Chrono
import MatrixMedia.Lib.Interaction
import MatrixMedia.Lib.Table
import Mathlib.Data.List.Sort

/-!
# Ending streams (`mm-api/src/stream_lifecycle.rs`)

`end_and_finalise_stream`, the one end path, and `StreamSweeper::run_once`, which ends the
streams that run past the maximum duration or were not live for the grace period. What
the SFU, the switch, the database, Matrix and the clocks answer is an input of a tick, one
`StreamIo` per stream. Instants are nanoseconds of the monotonic clock and never negative;
`elapsed` is truncated at zero, as in the source.

Besides its report a tick keeps a log: which streams it judged, and which streams it moved
to `ended` and by which rule. No code reads it; the results are stated over it.
-/

namespace MatrixMedia.Streams
open Lib Lib.Chrono Lib.Interaction
open Std (TreeMap)

inductive StreamStatus where
  | active
  | ended
deriving DecidableEq

/-- The columns of `mm_streams` that the handlers here read. -/
structure Stream where
  roomId : Int
  hostUserId : String
  status : StreamStatus
  sfuRoomId : Option String
  startedAt : DateTime
  minTierLevel : Option Int
deriving DecidableEq

/-- `mm_streams`, by `id`. -/
abbrev StreamTable : Type := TreeMap String Stream

def switchSourceId (streamId : String) : String := "stream-" ++ streamId

/-! ## The end path -/

/-- What an end does with the recordings it finalises. -/
inductive RecordingRelease where
  | publish
  | withhold
deriving DecidableEq

structure EndOutcome where
  endedNow : Bool
  markerWritten : Bool
  withheldRecordings : List String
deriving DecidableEq

/-- What the deployment has: LiveKit egress, an mm-switch, the raw pool. -/
structure EndContext where
  supportsEgress : Bool
  switch : Bool
  pgPool : Bool

/-- The calls of the end path, in its order. All but `endStream` are best effort. -/
inductive EndCall where
  | cleanupEgresses (sfuRoom : String)
  | recordFinalise (source : String)
  | markRecordingsReady (withhold : Bool)
  | trackMp4s
  | removeSource (source : String)
  | deleteRoom (sfuRoom : String)
  /-- The guarded transition, and whether it moved the row. -/
  | endStream (moved : Bool)
  | writeMarker
  | feedEnded
  | announceRecordings
deriving DecidableEq

/-- What one end meets. -/
structure EndIo where
  /-- The recordings can be read for the egress cleanup. -/
  recordingsRead : Bool
  /-- The recordings that were flipped to `ready`, none when that failed. -/
  finalised : List String
  /-- Another end gets to the row first. -/
  meanwhile : Bool
  transition : CallFate
  /-- The room row, when the lookup succeeds. -/
  room : Except String Bool
  marker : Option String

/-- `end_stream_if_active`: the row and the number of rows that changed. -/
def endStreamIfActive (streams : StreamTable) (id : String) : StreamTable × Bool :=
  match streams[id]? with
  | some s => if s.status = .active then (streams.insert id { s with status := .ended }, true) else (streams, false)
  | none => (streams, false)

section
variable (ctx : EndContext)

/-- The steps before the transition: media and recording rows. -/
def EndContext.mediaCalls (id : String) (s : Stream) (release : RecordingRelease) (io : EndIo) :
    List EndCall :=
  (match s.sfuRoomId with
    | some room => if ctx.supportsEgress ∧ io.recordingsRead then [.cleanupEgresses room] else []
    | none => [] : List EndCall) ++
  (if ctx.switch then [.recordFinalise (switchSourceId id)] else [] : List EndCall) ++
  (if ctx.pgPool then .markRecordingsReady (release = .withhold) :: (if ctx.switch then [.trackMp4s] else []) else [] : List EndCall) ++
  (if ctx.switch then [.removeSource (switchSourceId id)] else [] : List EndCall) ++
  (match s.sfuRoomId with
    | some room => [.deleteRoom room]
    | none => [] : List EndCall)

/-- What follows once the stream is ended: the marker and the feed events. -/
def EndContext.matrixCalls (release : RecordingRelease) : List EndCall :=
  ([.writeMarker, .feedEnded] : List EndCall) ++ (if release = .publish ∧ ctx.pgPool then [.announceRecordings] else [] : List EndCall)

/-- `end_and_finalise_stream_with_reason`: its result, the rows it leaves and its calls. -/
def EndContext.endAndFinaliseStream (streams : StreamTable) (id : String) (s : Stream)
    (release : RecordingRelease) (io : EndIo) : Except String EndOutcome × StreamTable × List EndCall :=
  let media := ctx.mediaCalls id s release io
  let withheld := if ctx.pgPool ∧ release = .withhold then io.finalised else []
  let streams := if io.meanwhile then (endStreamIfActive streams id).1 else streams
  let ending := endStreamIfActive streams id
  let after := if io.transition.applied then ending.1 else streams
  let calls := media ++ [.endStream (io.transition.applied && ending.2)]
  match io.transition.answer (.ok ending.2) with
  | .error e => (.error e, after, calls)
  | .ok false => (.ok ⟨false, false, []⟩, after, calls)
  | .ok true =>
    match io.room with
    | .ok true => (.ok ⟨true, io.marker.isSome, withheld⟩, after, calls ++ ctx.matrixCalls release)
    | .ok false | .error _ => (.ok ⟨true, false, withheld⟩, after, calls)

/-! ## Liveness -/

/-- What the SFU said about a stream's room. -/
inductive RoomLookup where
  | noRoom
  | participants (n : Nat)
  | failed
deriving DecidableEq

/-- `lookup_room`, given the number of participants the SFU lists. -/
def lookupRoom (listed : Except String Nat) (s : Stream) : RoomLookup :=
  match s.sfuRoomId with
  | some _ =>
    match listed with
    | .ok n => .participants n
    | .error _ => .failed
  | none => .noRoom

/-- `sweep_considers_occupied`. -/
def sweepConsidersOccupied (room : RoomLookup) (switchLive : Option Bool) : Bool :=
  switchLive = some true ||
    match room with
    | .participants n => decide (0 < n)
    | .noRoom | .failed => false

/-! ## The sweep -/

/-- The two rules of a tick; `none` turns a rule off. -/
structure SweepPolicy where
  grace : Option Nat
  maxBroadcast : Option Nat
deriving DecidableEq

def SweepPolicy.isOff (p : SweepPolicy) : Bool := p.grace.isNone && p.maxBroadcast.isNone

structure SweepReport where
  checked : Nat
  ended : List String
  markerFailures : Nat
  overMaxDuration : List String
deriving DecidableEq

/-- Why a stream was ended: its clock, with the time it was read, or its age. -/
inductive Cause where
  | liveness (since checkedAt : Nat)
  | duration (age : Nat)
deriving DecidableEq

def Cause.isDuration : Cause → Bool
  | .liveness _ _ => false
  | .duration _ => true

/-- A stream's liveness was judged. -/
structure Judgement where
  id : String
  judgedAt : Nat
  occupied : Bool
deriving DecidableEq

/-- A stream was moved to `ended`. -/
structure Ending where
  id : String
  cause : Cause
deriving DecidableEq

structure TickLog where
  policy : SweepPolicy
  judged : List Judgement
  ended : List Ending
deriving DecidableEq

/-- What a tick meets at one stream. -/
structure StreamIo where
  /-- The wall clock. -/
  utcNow : DateTime
  listed : Except String Nat
  /-- The monotonic clock when the stream's clock is looked up, and when it is read. -/
  judgedAt : Nat
  checkedAt : Nat
  ending : EndIo

structure TickIo where
  list : Except String Unit
  liveSources : Option (List String)
  stream : String → StreamIo

/-- How long ago a stream started. -/
def broadcastAge (s : Stream) (now : DateTime) : Nat := (now - s.startedAt).toNat

def sweepStreamLimit : Nat := 1000

/-- `list_all_active_streams`. -/
def listAllActiveStreams (streams : StreamTable) (limit : Nat) : List (String × Stream) :=
  ((streams.toList.filter fun x => x.2.status = .active).insertionSort fun x y => y.2.startedAt ≤ x.2.startedAt).take limit

/-- The clocks, the table and what the tick has reported and logged so far. -/
structure Sweep where
  emptySince : TreeMap String Nat
  streams : StreamTable
  report : SweepReport
  log : TickLog

/-- `auto_end_stream` and what `run_once` does with its outcome, the same for both rules. -/
def Sweep.autoEndStream (w : Sweep) (id : String) (s : Stream) (io : EndIo) (cause : Cause) : Sweep :=
  let (outcome, streams, calls) := ctx.endAndFinaliseStream w.streams id s .publish io
  let log : TickLog :=
    if EndCall.endStream true ∈ calls then { w.log with ended := ⟨id, cause⟩ :: w.log.ended } else w.log
  match outcome with
  | .error _ => { w with streams := streams, log := log }
  | .ok outcome =>
    let report : SweepReport :=
      if outcome.endedNow then
        { w.report with
          ended := w.report.ended ++ [id]
          overMaxDuration := if cause.isDuration then w.report.overMaxDuration ++ [id] else w.report.overMaxDuration
          markerFailures := if outcome.markerWritten then w.report.markerFailures else w.report.markerFailures + 1 }
      else w.report
    { w with emptySince := w.emptySince.erase id, streams := streams, report := report, log := log }

/-- The liveness rule for one stream. -/
def Sweep.judge (liveSources : Option (List String)) (grace : Nat) (w : Sweep) (id : String)
    (s : Stream) (io : StreamIo) : Sweep :=
  let switchLive := liveSources.map fun live => decide (switchSourceId id ∈ live)
  let occupied := sweepConsidersOccupied (lookupRoom io.listed s) switchLive
  let w := { w with log := { w.log with judged := ⟨id, io.judgedAt, occupied⟩ :: w.log.judged } }
  if occupied then { w with emptySince := w.emptySince.erase id }
  else
    let since := w.emptySince[id]?.getD io.judgedAt
    let w := { w with emptySince := w.emptySince.insert id since }
    if io.checkedAt - since < grace then w
    else w.autoEndStream ctx id s io.ending (.liveness since io.checkedAt)

/-- The body of the loop of `run_once`. -/
def Sweep.visit (policy : SweepPolicy) (io : TickIo) (w : Sweep) (x : String × Stream) : Sweep :=
  let age := broadcastAge x.2 (io.stream x.1).utcNow
  if policy.maxBroadcast.any fun cap => cap ≤ age then
    w.autoEndStream ctx x.1 x.2 (io.stream x.1).ending (.duration age)
  else
    match policy.grace with
    | none => w
    | some grace => w.judge ctx io.liveSources grace x.1 x.2 (io.stream x.1)

/-- `StreamSweeper::run_once`. -/
def runOnce (emptySince : TreeMap String Nat) (streams : StreamTable) (io : TickIo)
    (policy : SweepPolicy) : Sweep :=
  let emptySince := if policy.grace.isNone then ∅ else emptySince
  let idle : Sweep := ⟨emptySince, streams, ⟨0, [], 0, []⟩, ⟨policy, [], []⟩⟩
  if policy.isOff then idle
  else
    match io.list with
    | .error _ => idle
    | .ok () =>
      let listed := listAllActiveStreams streams sweepStreamLimit
      let w := listed.foldl (Sweep.visit ctx policy io) { idle with report.checked := listed.length }
      -- clocks of streams that are no longer active are dropped
      { w with emptySince := w.emptySince.filter fun id _ => decide (id ∈ listed.map Prod.fst) }

end

end MatrixMedia.Streams
