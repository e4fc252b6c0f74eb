import MatrixMedia.Paywall.Content

/-!
# Broadcasts

What the life of a broadcast goes through (`mm-api/src/client.rs`,
`mm-api/src/stream_lifecycle.rs`): the tables of `Paywall/Content.lean`, the columns of
`mm_streams` that they leave out (`marker_generation` of V031 and the end-to-end key), the key
history, the events written to Matrix, and the recorders of the origin mm-switch
(`services/mm-switch/main.go`). Each SQL statement, each Matrix write and each call of the
switch is one request.

The columns of the key are set together by one statement, so they are one optional value.
Matrix keeps the events that are overwritten; `markers` and `keyEvents` have all of them, newest
first, and `files` has the files that recorders created. No code reads these three.
-/

namespace MatrixMedia.Broadcast
open Lib Lib.Chrono Lib.Interaction
open Std (TreeMap)
open Streams (Stream StreamStatus)
open Paywall (ContentRequest ContentState Recording RecordingStatus)

/-! ## Rows, events and recorders -/

/-- A key as the row, the history, the state event and the response hold it. -/
structure StreamKey where
  generation : Nat
  keyId : String
  keyB64 : String
  algorithm : String
deriving DecidableEq

/-- The row of a stream. -/
structure StreamRow where
  stream : Stream
  markerGeneration : Int
  /-- None when `e2ee_enabled` is false. -/
  e2ee : Option StreamKey
deriving DecidableEq

/-- `com.matrixmedia.stream`. -/
structure Marker where
  matrixRoomId : String
  streamId : String
  status : StreamStatus
  generation : Nat
  reason : Option String
deriving DecidableEq

/-- `com.matrixmedia.stream.e2ee_key`, with no key once it is cleared. -/
structure KeyEvent where
  matrixRoomId : String
  streamId : String
  key : Option StreamKey
deriving DecidableEq

inductive RecorderState where
  | active
  | paused
deriving DecidableEq

/-- A `WebMRecorder` that is registered. -/
structure Recorder where
  id : String
  path : String
  state : RecorderState
deriving DecidableEq

/-- `recording` or `paused`. -/
def isOpen (r : Recording) : Bool := r.status = .recording ∨ r.status = .paused

def recordingPath (recordingId : String) : String := "/data/recordings/" ++ recordingId ++ ".webm"

structure BroadcastState where
  content : ContentState
  generations : TreeMap String Int
  e2ee : TreeMap String StreamKey
  keyHistory : String × Nat → Option StreamKey
  keyEvents : List KeyEvent
  markers : List Marker
  /-- The recordings of the `feed.recording.available` events. -/
  announced : List String
  /-- The sources that a host publishes to the switch. -/
  sources : List String
  /-- By source. -/
  recorders : TreeMap String Recorder
  files : List String
  /-- Who is in which room of the SFU. -/
  occupants : List (String × String)

/-! ## Calls -/

inductive BroadcastRequest where
  | content (q : ContentRequest)
  | getStream (id : String)
  | getStreamE2eeKey (id : String)
  /-- The `UPDATE` of `set_stream_e2ee_key`. -/
  | setStreamKey (id : String) (key : StreamKey)
  /-- Its `INSERT`. -/
  | insertKeyHistory (id : String) (key : StreamKey)
  | publishE2eeKey (matrixRoomId id : String) (key : StreamKey)
  | clearE2eeKey (matrixRoomId id : String)
  | bumpMarkerGeneration (id : String)
  | publishMarker (m : Marker)
  | endStreamIfActive (id : String)
  | getRecordingsForStream (id : String)
  | cleanupEgresses (sfuRoom : String) (fallbackIds : List String)
  | markRecordingsReady (id : String) (withhold : Bool)
  | trackMp4s (id : String)
  | readyRecordings (id : String)
  | announceRecording (matrixRoomId recordingId : String)
  | openEgresses (id : String)
  | activeEgress (id : String)
  | countActive (egressId : String)
  | pauseRecordings (egressId : String)
  /-- `guarded`: only rows that are `recording`. -/
  | finishRecordings (egressId : String) (guarded : Bool)
  | sfuParticipants (sfuRoom : String)
  | stopEgress (egressId : String)
  | deleteSfuRoom (sfuRoom : String)
  | recordPause (source : String)
  | recordFinalise (source : String)
  | removeSource (source : String)

abbrev BroadcastRequest.Reply : BroadcastRequest → Type
  | .content q => q.Reply
  | .getStream _ => Except String (Option StreamRow)
  | .getStreamE2eeKey _ => Except String (Option StreamKey)
  | .bumpMarkerGeneration _ => Except String Int
  | .endStreamIfActive _ => Except String Bool
  | .getRecordingsForStream _ => Except String (List (String × Recording))
  | .markRecordingsReady _ _ | .readyRecordings _ | .openEgresses _ => Except String (List String)
  | .activeEgress _ => Except String (Option String)
  | .countActive _ | .sfuParticipants _ => Except String Nat
  | .setStreamKey _ _ | .insertKeyHistory _ _ | .publishE2eeKey .. | .clearE2eeKey _ _ | .publishMarker _
  | .cleanupEgresses _ _ | .trackMp4s _ | .announceRecording _ _ | .pauseRecordings _ | .finishRecordings _ _
  | .stopEgress _ | .deleteSfuRoom _ | .recordPause _ | .recordFinalise _ | .removeSource _ => Except String Unit

/-- What changes by itself: time, the lists that the handlers check, who is in a room of the
SFU, and the sources that hosts publish. -/
inductive BroadcastMove where
  | pass (utcNow : DateTime)
  | suspend (users : List String)
  | setHosts (hosts : TreeMap String (List String))
  | block (streams : List String)
  | enter (sfuRoom user : String)
  | leave (sfuRoom user : String)
  | publish (source : String)

namespace BroadcastState

section
variable (s : BroadcastState)

section
variable (id : String)

/-- `marker_generation`, 1 in a new row. -/
def generation : Int := (s.generations[id]?).getD 1

def getStream : Option StreamRow :=
  (s.content.streams[id]?).map fun x => ⟨x, s.generation id, s.e2ee[id]?⟩

def status (s : BroadcastState) (id : String) : Option StreamStatus := (s.content.streams[id]?).map Stream.status

/-- The rows of a stream. -/
def recordingsOf : List (String × Recording) :=
  s.content.recordings.toList.filter fun x => x.2.streamId = id

/-- The ids of its open rows. -/
def openIds : List String := ((s.recordingsOf id).filter fun x => isOpen x.2).map Prod.fst

def updateRecordings (f : Recording → Recording) : BroadcastState :=
  { s with content := { s.content with recordings := s.content.recordings.map fun _ r => f r } }

/-- The update of `mark_recordings_ready`, on one row. -/
def markReady (withhold : Bool) (r : Recording) : Recording :=
  if r.streamId = id ∧ isOpen r then { r with status := .ready, hidden := r.hidden || withhold } else r

/-- The update by egress id of `stop_recording` and `watchdog_stop_recording`, on one row. -/
def setByEgress (egressId : String) (guarded : Bool) (status : RecordingStatus) (r : Recording) : Recording :=
  if r.egressId = egressId ∧ (guarded → r.status = .recording) then { r with status := status } else r

/-- `UPDATE … RETURNING`, into an `INTEGER` column. -/
def bumpMarkerGeneration : Except String (BroadcastState × Int) :=
  if (s.content.streams[id]?).isNone then .error "no rows returned by a query that expected to return at least one row"
  else if 2147483647 ≤ s.generation id then .error "integer out of range"
  else .ok ({ s with generations := s.generations.insert id (s.generation id + 1) }, s.generation id + 1)

def setStreamKey (key : StreamKey) : BroadcastState :=
  if (s.content.streams[id]?).isSome then { s with e2ee := s.e2ee.insert id key } else s

end

/-- `handleStartOrResumeRecording`: a recorder that is there goes on, whatever id is given. A
new one creates its file, or truncates it. -/
def startRecorder (source recordingId : String) : Except String (BroadcastState × Unit) :=
  match s.recorders[source]? with
  | some recorder => .ok ({ s with recorders := s.recorders.insert source { recorder with state := .active } }, ())
  | none =>
    if recordingId = "" then .error "switch record_start error 400 Bad Request: recording_id required for new recording"
    else if source ∈ s.sources then
      .ok ({ s with
        recorders := s.recorders.insert source ⟨recordingId, recordingPath recordingId, .active⟩
        files := recordingPath recordingId :: s.files }, ())
    else .error "switch record_start error 404 Not Found: source not found"

/-- The calls of `Paywall/Content.lean`, with the recorders behind the one to the switch. -/
def contentRequest : (q : ContentRequest) → CallFate → BroadcastState × q.Reply
  | .recordStartOrResume source recordingId, fate => fate.write s (s.startRecorder source recordingId)
  | q, fate => ({ s with content := (s.content.request q fate).1 }, (s.content.request q fate).2)

def request : (q : BroadcastRequest) → CallFate → BroadcastState × q.Reply
  | .content q, fate => s.contentRequest q fate
  | .getStream id, fate => (s, fate.answer (.ok (s.getStream id)))
  | .getStreamE2eeKey id, fate => (s, fate.answer (.ok ((s.getStream id).bind StreamRow.e2ee)))
  | .setStreamKey id key, fate => fate.write s (.ok (s.setStreamKey id key, ()))
  | .insertKeyHistory id key, fate =>
    fate.write s (.ok ({ s with keyHistory := Function.update s.keyHistory (id, key.generation) (some key) }, ()))
  | .publishE2eeKey room id key, fate => fate.write s (.ok ({ s with keyEvents := ⟨room, id, some key⟩ :: s.keyEvents }, ()))
  | .clearE2eeKey room id, fate => fate.write s (.ok ({ s with keyEvents := ⟨room, id, none⟩ :: s.keyEvents }, ()))
  | .bumpMarkerGeneration id, fate => fate.write s (s.bumpMarkerGeneration id)
  | .publishMarker m, fate => fate.write s (.ok ({ s with markers := m :: s.markers }, ()))
  | .endStreamIfActive id, fate =>
    let ending := Streams.endStreamIfActive s.content.streams id
    fate.write s (.ok ({ s with content := { s.content with streams := ending.1 } }, ending.2))
  | .getRecordingsForStream id, fate => (s, fate.answer (.ok (s.recordingsOf id)))
  | .markRecordingsReady id withhold, fate => fate.write s (.ok (s.updateRecordings (markReady id withhold), s.openIds id))
  | .readyRecordings id, fate =>
    (s, fate.answer (.ok (((s.recordingsOf id).filter fun x => x.2.status = .ready ∧ x.2.hidden = false).map Prod.fst)))
  | .announceRecording _ recording, fate => fate.write s (.ok ({ s with announced := recording :: s.announced }, ()))
  | .openEgresses id, fate => (s, fate.answer (.ok (((s.recordingsOf id).filter fun x => isOpen x.2).map fun x => x.2.egressId)))
  | .activeEgress id, fate =>
    (s, fate.answer (.ok ((ContentState.sortRecordings ((s.recordingsOf id).filter fun x => x.2.status = .recording)).head?.map
      fun x => x.2.egressId)))
  | .countActive egress, fate =>
    (s, fate.answer (.ok (s.content.recordings.toList.countP fun x => x.2.egressId = egress ∧ x.2.status = .recording)))
  | .pauseRecordings egress, fate => fate.write s (.ok (s.updateRecordings (setByEgress egress false .paused), ()))
  | .finishRecordings egress guarded, fate => fate.write s (.ok (s.updateRecordings (setByEgress egress guarded .ready), ()))
  | .sfuParticipants room, fate => (s, fate.answer (.ok (s.occupants.countP fun p => p.1 = room)))
  | .recordPause source, fate =>
    fate.write s (.ok ({ s with recorders := s.recorders.modify source fun r => { r with state := .paused } }, ()))
  | .recordFinalise source, fate => fate.write s (.ok ({ s with recorders := s.recorders.erase source }, ()))
  | .removeSource source, fate => fate.write s (.ok ({ s with sources := s.sources.erase source }, ()))
  | .cleanupEgresses _ _, fate | .trackMp4s _, fate | .stopEgress _, fate | .deleteSfuRoom _, fate => (s, fate.answer (.ok ()))

end

def move (s : BroadcastState) : BroadcastMove → BroadcastState
  | .pass now => { s with content := s.content.move (.pass now) }
  | .suspend users => { s with content := s.content.move (.suspend users) }
  | .setHosts hosts => { s with content := s.content.move (.setHosts hosts) }
  | .block streams => { s with content := s.content.move (.block streams) }
  | .enter room user => { s with occupants := (room, user) :: s.occupants }
  | .leave room user => { s with occupants := s.occupants.erase (room, user) }
  | .publish source => { s with sources := s.sources.insert source }

end BroadcastState

def broadcastService : Service BroadcastState CallFate BroadcastMove BroadcastRequest BroadcastRequest.Reply where
  request := BroadcastState.request
  move := BroadcastState.move

abbrev Action (α : Type) : Type := Prog BroadcastRequest BroadcastRequest.Reply α

end MatrixMedia.Broadcast
