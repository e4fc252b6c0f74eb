import MatrixMedia.Broadcast.State
import MatrixMedia.Paywall.Handlers

/-!
# The handlers of a broadcast

`create_stream`, `resume_stream`, `end_stream`, `rotate_stream_key`, `start_recording`,
`stop_recording` and `recording_watchdog` (`mm-api/src/client.rs`), the force-stop of a
moderator (`mm-api/src/moderation.rs`), and `end_and_finalise_stream_with_reason`,
`finalise_open_recordings_with` and the writes of the marker
(`mm-api/src/stream_lifecycle.rs`). Each is a program over the calls of `Broadcast/State.lean`,
in the order of the source. Ids and keys that a handler draws at random are arguments.
-/

namespace MatrixMedia.Broadcast
open Lib Lib.Chrono Lib.Interaction Lib.Text Api
open Std (TreeMap)
open Streams (Stream RecordingRelease EndOutcome switchSourceId)
open Paywall (ContentConfig ContentRequest ContentAction CreateStreamRequest Recording)

abbrev Handler (α : Type) : Type := Action (Except MMError α)

structure BroadcastConfig where
  content : ContentConfig
  supportsEgress : Bool
  /-- The algorithm of new keys. -/
  algorithm : String

/-- With a database pool and an origin switch, without monetization and egress. -/
def originConfig : BroadcastConfig := ⟨⟨⟨false, false, false⟩, false, true, true, true, true, true, false, ""⟩, false, "aes-gcm"⟩

/-- A program over the tables of content alone. -/
def onContent {α : Type} (p : ContentAction α) : Action α := p.via .content fun _ r => r

/-- What a failed read of the row means for the caller. -/
def orNotFound {α : Type} (r : Except String (Option StreamRow)) (next : StreamRow → Handler α) : Handler α :=
  orDatabase r fun row =>
    match row with
    | some row => next row
    | none => refuse .notFound "stream not found"

/-! ## Markers -/

/-- The generation for the next marker; one past the row that was read when the counter cannot
be bumped. -/
def nextGeneration (row : StreamRow) : Except String Int → Nat
  | .ok g => (max g 1).toNat
  | .error _ => min ((max row.markerGeneration 0).toNat + 1) 4294967295

/-- `republish_active_marker`. -/
def republishActiveMarker (id : String) (row : StreamRow) (matrixRoomId : String) : Action Bool :=
  .call (.bumpMarkerGeneration id) fun g =>
    .call (.publishMarker ⟨matrixRoomId, id, .active, nextGeneration row g, none⟩) fun r => .ret r.isOk

/-- The terminal write, with what is left of its attempts. -/
def publishEnded (m : Marker) : (attempts : Nat) → Action Bool
  | 0 => .ret false
  | attempts + 1 =>
    .call (.publishMarker m) fun r =>
      match r with
      | .ok () => .ret true
      | .error _ => publishEnded m attempts

def terminalWriteAttempts : Nat := 3

/-- `finalize_stream_marker_with_reason`. -/
def finalizeStreamMarker (id : String) (row : StreamRow) (matrixRoomId : String) (reason : Option String) : Action Bool :=
  .call (.bumpMarkerGeneration id) fun g =>
    let m : Marker := ⟨matrixRoomId, id, .ended, nextGeneration row g, reason⟩
    if row.e2ee.isSome then .call (.clearE2eeKey matrixRoomId id) fun _ => publishEnded m terminalWriteAttempts
    else publishEnded m terminalWriteAttempts

/-! ## Starting and resuming -/

/-- A key of 32 random bytes, in base64, and its id. -/
structure E2eeKey where
  keyId : String
  keyB64 : String
deriving DecidableEq

/-- `set_stream_e2ee_key`, also under the name `rotate_stream_e2ee_key`. -/
def setStreamE2eeKey (id : String) (key : StreamKey) : Action (Except String Unit) :=
  .call (.setStreamKey id key) fun r =>
    match r with
    | .ok () => .call (.insertKeyHistory id key) fun r => .ret r
    | .error e => .ret (.error e)

section
variable (cfg : BroadcastConfig)

/-- The key of a new stream. -/
def firstKey (key : E2eeKey) : StreamKey := ⟨1, key.keyId, key.keyB64, cfg.algorithm⟩

/-- The events of a new stream. -/
def publishCreated (matrixRoomId id : String) (key : Option StreamKey) : Action Unit :=
  .call (.publishMarker ⟨matrixRoomId, id, .active, 1, none⟩) fun _ =>
    match key with
    | some key => .call (.publishE2eeKey matrixRoomId id key) fun _ => .ret ()
    | none => .ret ()

/-- How `create_stream` carries out the calls of `Paywall.createStream`: the two statements that
store the key in place of the one that stands for them, and the Matrix events before the
token. -/
def createCalls (body : CreateStreamRequest) (newId : String) (key : E2eeKey) :
    (q : ContentRequest) → Action q.Reply
  | .setStreamE2eeKey id => setStreamE2eeKey id (firstKey cfg key)
  | .generateToken user =>
    (publishCreated body.roomId newId (if body.e2ee then some (firstKey cfg key) else none)).bind fun _ =>
      .call (.content (.generateToken user)) fun r => .ret r
  | q => .call (.content q) fun r => .ret r

/-- `create_stream`. -/
def createStream (cfg : BroadcastConfig) (user : String) (body : CreateStreamRequest) (newId sfuName : String) (key : E2eeKey) :
    Handler String :=
  (Paywall.createStream cfg.content user body newId sfuName).interp (createCalls cfg body newId key)

section
variable (id : String)

/-- The key for the host that comes back. -/
def currentKey (row : StreamRow) : Handler (Option StreamKey) :=
  if row.e2ee.isSome then .call (.getStreamE2eeKey id) fun r => orDatabase r fun key => .ret (.ok key) else .ret (.ok none)

/-- The marker of a stream that goes on; its failure does not fail the resume. -/
def markResumed (row : StreamRow) (key : Option StreamKey) : Handler (Option StreamKey) :=
  .call (.content (.getRoom row.stream.roomId)) fun r => orDatabase r fun room =>
    match room with
    | some room => (republishActiveMarker id row room.matrixRoomId).bind fun _ => .ret (.ok key)
    | none => .ret (.ok key)

/-- `resume_stream`. -/
def resumeStream (user id : String) : Handler (Option StreamKey) :=
  .call (.content (.isUserSuspended user)) fun suspended =>
    if suspended.toOption.getD false then refuse .forbidden "account suspended" else
    .call (.getStream id) fun r => orNotFound r fun row =>
      if row.stream.hostUserId ≠ user then refuse .forbidden "only the stream host can resume"
      else if row.stream.status = .ended then refuse .streamEnded "stream has ended"
      else if row.stream.sfuRoomId.isNone then .ret (.error (.internal "stream has no sfu_room_id; cannot resume"))
      else
        .call (.content (.generateToken user)) fun r => orError .sfu r fun _ =>
          (currentKey id row).andThen fun key => markResumed id row key

/-! ## Ending -/

/-- `livekit_egresses_to_stop`. -/
def livekitEgressesToStop (rows : List (String × Recording)) : List String :=
  ((rows.filter fun x => isOpen x.2).map fun x => x.2.egressId).filter fun e => !startsWith "mm-switch:" e

/-- `cleanup_livekit_egresses`, with the read of the rows before it. -/
def cleanupEgresses (cfg : BroadcastConfig) (id : String) (row : StreamRow) : Action Unit :=
  match row.stream.sfuRoomId with
  | some room =>
    if cfg.supportsEgress then
      .call (.getRecordingsForStream id) fun r =>
        match r with
        | .ok rows =>
          let ids := livekitEgressesToStop rows
          if ids.isEmpty then .ret () else .call (.cleanupEgresses room ids) fun _ => .ret ()
        | .error _ => .ret ()
    else .ret ()
  | none => .ret ()

/-- A call to the switch, when there is one; how it ends does not matter. -/
def onSwitch (q : BroadcastRequest) : Action Unit :=
  if cfg.content.originSwitch then .call q fun _ => .ret () else .ret ()

/-- The recording rows: the ids that are withheld. -/
def finishRows (release : RecordingRelease) : Action (List String) :=
  if cfg.content.pgPool then
    .call (.markRecordingsReady id (release = .withhold)) fun r =>
      let finalised : List String := r.toOption.getD []
      (onSwitch cfg (.trackMp4s id)).bind fun _ => .ret (if release = .withhold then finalised else [])
  else .ret []

def deleteRoom (row : StreamRow) : Action Unit :=
  match row.stream.sfuRoomId with
  | some room => .call (.deleteSfuRoom room) fun _ => .ret ()
  | none => .ret ()

/-- One event for each, in their order. -/
def announceAll (matrixRoomId : String) : List String → Action Unit
  | [] => .ret ()
  | recording :: recordings => .call (.announceRecording matrixRoomId recording) fun _ => announceAll matrixRoomId recordings

/-- `announce_ready_recordings`. -/
def announceReadyRecordings (id matrixRoomId : String) : Action Unit :=
  .call (.readyRecordings id) fun r =>
    match r with
    | .ok recordings => announceAll matrixRoomId recordings
    | .error _ => .ret ()

/-- What follows once this call has ended the stream. -/
def afterEnd (row : StreamRow) (release : RecordingRelease) (reason : Option String)
    (withheld : List String) : Action EndOutcome :=
  .call (.content (.getRoom row.stream.roomId)) fun r =>
    match r.toOption.bind fun room => room with
    | some room =>
      (finalizeStreamMarker id row room.matrixRoomId reason).bind fun written =>
        (if release = .publish ∧ cfg.content.pgPool then announceReadyRecordings id room.matrixRoomId else .ret ()).bind fun _ =>
          .ret ⟨true, written, withheld⟩
    | none => .ret ⟨true, false, withheld⟩

/-- The guarded transition, and what comes after it. -/
def transition (row : StreamRow) (release : RecordingRelease) (reason : Option String)
    (withheld : List String) : Handler EndOutcome :=
  .call (.endStreamIfActive id) fun r => orDatabase r fun moved =>
    if moved then (afterEnd cfg id row release reason withheld).bind fun outcome => .ret (.ok outcome)
    else .ret (.ok ⟨false, false, []⟩)

/-- The media side of an end, every step best effort: the recordings that are withheld. -/
def releaseMedia (row : StreamRow) (release : RecordingRelease) : Action (List String) :=
  (cleanupEgresses cfg id row).bind fun _ =>
  (onSwitch cfg (.recordFinalise (switchSourceId id))).bind fun _ =>
  (finishRows cfg id release).bind fun withheld =>
  (onSwitch cfg (.removeSource (switchSourceId id))).bind fun _ =>
  (deleteRoom row).bind fun _ =>
  .ret withheld

/-- `end_and_finalise_stream_with_reason`. -/
def endAndFinaliseStream (row : StreamRow) (release : RecordingRelease)
    (reason : Option String) : Handler EndOutcome :=
  (releaseMedia cfg id row release).bind fun withheld => transition cfg id row release reason withheld

/-- `end_stream`. -/
def endStream (user id : String) : Handler EndOutcome :=
  .call (.getStream id) fun r => orNotFound r fun row =>
    if row.stream.hostUserId ≠ user then refuse .forbidden "only the host can end the stream"
    else endAndFinaliseStream cfg id row .publish none

/-- The force-stop of an operator with `withhold`, the sweep and the demotion ladder with
`publish`. These two go on only with a row that they read as active. With an ended one this is
what `end_stream` does for the host. -/
def stopStream (release : RecordingRelease) (reason : Option String) : Handler EndOutcome :=
  .call (.getStream id) fun r => orNotFound r fun row => endAndFinaliseStream cfg id row release reason

/-! ## Keys -/

/-- The event of a new key, best effort. -/
def distributeKey (row : StreamRow) (key : StreamKey) : Handler StreamKey :=
  .call (.content (.getRoom row.stream.roomId)) fun r => orDatabase r fun room =>
    match room with
    | some room => .call (.publishE2eeKey room.matrixRoomId id key) fun _ => .ret (.ok key)
    | none => .ret (.ok key)

/-- `rotate_stream_key`; the generation is a `u32`. -/
def rotateStreamKey (user id : String) (key : E2eeKey) : Handler StreamKey :=
  .call (.getStream id) fun r => orNotFound r fun row =>
    if row.stream.hostUserId ≠ user then refuse .forbidden "only the host can rotate the E2EE key" else
    match row.e2ee with
    | none => refuse .featureDisabled "stream does not have E2EE enabled"
    | some old =>
      let new : StreamKey := ⟨(old.generation + 1) % 4294967296, key.keyId, key.keyB64, old.algorithm⟩
      (setStreamE2eeKey id new).bind fun r => orDatabase r fun _ => distributeKey id row new

/-! ## Recordings -/

/-- `start_recording`. -/
def startRecording (cfg : BroadcastConfig) (user id egressId : String) : Handler String :=
  onContent (Paywall.startRecording cfg.content user id egressId)

/-- The recording that `stop_recording` found, by its egress id. -/
def stopByEgress (egressId : String) : Handler Unit :=
  match stripPrefix "mm-switch:" egressId with
  | some source =>
    (onSwitch cfg (.recordPause source)).bind fun _ =>
      .call (.pauseRecordings egressId) fun r => orDatabase r fun _ => .ret (.ok ())
  | none =>
    .call (.stopEgress egressId) fun _ => .call (.finishRecordings egressId false) fun r => orDatabase r fun _ => .ret (.ok ())

/-- `stop_recording`. -/
def stopRecording (user id : String) : Handler Unit :=
  .call (.getStream id) fun r => orNotFound r fun row =>
    if row.stream.hostUserId ≠ user then refuse .forbidden "only the host can stop recording"
    else if cfg.content.pgPool then
      .call (.activeEgress id) fun r => orDatabase r fun egress =>
        match egress with
        | some egress => stopByEgress cfg egress
        | none => .ret (.ok ())
    else .ret (.ok ())

/-- `watchdog_stop_recording`. -/
def watchdogStopRecording (egressId : String) : Action Unit :=
  .call (.stopEgress egressId) fun _ =>
    if cfg.content.pgPool then .call (.finishRecordings egressId true) fun _ => .ret () else .ret ()

/-- The recording is still marked as one that runs. -/
def stillRecording (egressId : String) : Action Bool :=
  if cfg.content.pgPool then .call (.countActive egressId) fun r => .ret (0 < r.toOption.getD 0) else .ret false

def inactivityTimeout : Nat := 120

/-- `recording_watchdog`, which checks at these times, in seconds of a clock that never goes
back. `emptySince` is when the room was first seen empty. -/
def recordingWatchdog (cfg : BroadcastConfig) (id egressId sfuRoom : String) : (emptySince : Option Nat) → (checks : List Nat) → Action Unit
  | _, [] => .ret ()
  | emptySince, now :: checks =>
    (stillRecording cfg egressId).bind fun still =>
      if still then
        .call (.getStream id) fun r =>
          if ((r.toOption.bind fun row => row).any fun row => row.stream.status = .active) then
            .call (.sfuParticipants sfuRoom) fun r =>
              -- a room that cannot be listed counts as occupied
              if 0 < r.toOption.getD 1 then recordingWatchdog cfg id egressId sfuRoom none checks
              else
                let since := emptySince.getD now
                if inactivityTimeout ≤ now - since then watchdogStopRecording cfg egressId
                else recordingWatchdog cfg id egressId sfuRoom (some since) checks
          else watchdogStopRecording cfg egressId
      else .ret ()

/-- The open recordings, each stopped by the system that writes it. -/
def finaliseEgresses (cfg : BroadcastConfig) : List String → Action Unit
  | [] => .ret ()
  | egress :: egresses =>
    (match stripPrefix "mm-switch:" egress with
      | some source => onSwitch cfg (.recordFinalise source)
      | none => if cfg.supportsEgress then .call (.stopEgress egress) fun _ => .ret () else .ret ()).bind fun _ =>
    finaliseEgresses cfg egresses

/-- `finalise_open_recordings` of the demotion ladder: the number of rows it closed. -/
def finaliseOpenRecordings : Action Nat :=
  if cfg.content.pgPool then
    .call (.openEgresses id) fun r =>
      (finaliseEgresses cfg (r.toOption.getD [])).bind fun _ =>
        .call (.markRecordingsReady id false) fun r => .ret (r.toOption.getD []).length
  else .ret 0

end

/-! ## Requests -/

/-- What runs, numbered so that two of a kind can be told apart. -/
inductive BroadcastJob where
  | createStream (n : Nat) (user : String) (body : CreateStreamRequest) (newId sfuName : String) (key : E2eeKey)
  | resumeStream (n : Nat) (user id : String)
  | endStream (n : Nat) (user id : String)
  | stopStream (n : Nat) (id : String) (release : RecordingRelease) (reason : Option String)
  | rotateStreamKey (n : Nat) (user id : String) (key : E2eeKey)
  | startRecording (n : Nat) (user id egressId : String)
  | stopRecording (n : Nat) (user id : String)
  | recordingWatchdog (n : Nat) (id egressId sfuRoom : String) (checks : List Nat)
  | finaliseOpenRecordings (n : Nat) (id : String)
deriving DecidableEq

inductive BroadcastOutcome where
  | refused (e : MMError)
  | created (id : String) (key : Option StreamKey)
  | resumed (key : Option StreamKey)
  | ended (outcome : EndOutcome)
  | rotated (key : StreamKey)
  | recordingStarted (id : String)
  | recordingStopped
  | watched
  | finalised (rows : Nat)
deriving DecidableEq

/-- A handler with its response. -/
def respond {α : Type} (f : α → BroadcastOutcome) (p : Handler α) : Action BroadcastOutcome :=
  p.bind fun r => .ret (match r with | .ok a => f a | .error e => .refused e)

def BroadcastJob.program : BroadcastJob → Action BroadcastOutcome
  | .createStream _ user body newId sfuName key =>
    respond (fun id => .created id (if body.e2ee then some (firstKey cfg key) else none))
      (Broadcast.createStream cfg user body newId sfuName key)
  | .resumeStream _ user id => respond .resumed (Broadcast.resumeStream user id)
  | .endStream _ user id => respond .ended (Broadcast.endStream cfg user id)
  | .stopStream _ id release reason => respond .ended (Broadcast.stopStream cfg id release reason)
  | .rotateStreamKey _ user id key => respond .rotated (Broadcast.rotateStreamKey user id key)
  | .startRecording _ user id egressId => respond .recordingStarted (Broadcast.startRecording cfg user id egressId)
  | .stopRecording _ user id => respond (fun _ => .recordingStopped) (Broadcast.stopRecording cfg user id)
  | .recordingWatchdog _ id egressId sfuRoom checks =>
    (Broadcast.recordingWatchdog cfg id egressId sfuRoom none checks).bind fun _ => .ret .watched
  | .finaliseOpenRecordings _ id => (Broadcast.finaliseOpenRecordings cfg id).bind fun n => .ret (.finalised n)

abbrev BroadcastPool : Type := Pool BroadcastState BroadcastRequest BroadcastRequest.Reply BroadcastJob BroadcastOutcome

abbrev BroadcastEvent : Type := Event BroadcastJob CallFate BroadcastMove

/-- Nothing was broadcast yet. -/
def BroadcastState.empty (utcNow : DateTime) (tables : Paywall.Tables) : BroadcastState :=
  ⟨(Paywall.ContentPool.start utcNow tables).state, ∅, ∅, fun _ => none, [], [], [], [], ∅, [], []⟩

/-- `@alice` is live in `!room`, and publishes to the switch. -/
def BroadcastState.onAir : BroadcastState :=
  let s := BroadcastState.empty 0 ⟨∅, ∅⟩
  { s with
    content := { s.content with
      rooms := (∅ : TreeMap Int Paywall.Room).insert 1 ⟨"!room", 100⟩
      nextRoomId := 2
      streams := (∅ : Streams.StreamTable).insert "live" ⟨1, "@alice", .active, some "mm-live", 0, none⟩ }
    markers := [⟨"!room", "live", .active, 1, none⟩]
    sources := ["stream-live"] }

/-- The same, with a recording under way. -/
def BroadcastState.recorded : BroadcastState :=
  let s := BroadcastState.onAir
  { s with
    content := { s.content with
      recordings := (∅ : TreeMap String Recording).insert "live_rec1"
        (.started "live" 1 "@alice" (recordingPath "live_rec1") "mm-switch:stream-live" 0 none) }
    recorders := (∅ : TreeMap String Recorder).insert "stream-live" ⟨"live_rec1", recordingPath "live_rec1", .active⟩
    files := [recordingPath "live_rec1"] }

def broadcastStep : BroadcastPool → BroadcastEvent → BroadcastPool :=
  poolStep broadcastService (BroadcastJob.program cfg)

end

end MatrixMedia.Broadcast
