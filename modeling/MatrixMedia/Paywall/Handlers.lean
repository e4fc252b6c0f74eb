import MatrixMedia.Api.Handlers
import MatrixMedia.Paywall.Content

/-!
# The handlers around gated content

`create_stream`, `join_stream`, `start_recording`, `get_recording` and
`list_room_recordings` (`mm-api/src/client.rs`), `proxy_viewer_offer`
(`mm-api/src/switch_proxy.rs`), `create_gate` and `delete_gate`
(`mm-api/src/monetization.rs`). Each is a program over the calls of `Paywall/Content.lean`, in
the order of the source. Ids that a handler or the SFU draws at random are arguments.
-/

namespace MatrixMedia.Paywall
open Lib Lib.Chrono Lib.Interaction Api
open Streams (Stream switchSourceId)

/-- What the deployment has and its configuration. -/
structure ContentConfig where
  features : Features
  entitlementService : Bool
  pgPool : Bool
  /-- There is an origin mm-switch to record from. -/
  originSwitch : Bool
  switchPool : Bool
  switchAuthSecret : Bool
  e2eeEnabled : Bool
  e2eeRequired : Bool
  publicUrl : String

abbrev Handler (α : Type) : Type := ContentAction (Except MMError α)

/-! ## Creating a stream -/

structure CreateStreamRequest where
  roomId : String
  e2ee : Bool
  minTier : Option Int
  minTierLevel : Option Int
deriving DecidableEq

/-- `check_can_host`: without a pool every room is open. -/
def checkCanHost (cfg : ContentConfig) (matrixRoomId user : String) : Handler Unit :=
  if cfg.pgPool then
    .call (.streamHosts matrixRoomId) fun r => orDatabase r fun allowed =>
      match allowed with
      | none => .ret (.ok ())
      | some users =>
        if user ∈ users then .ret (.ok ()) else refuse .forbidden "you are not on this room's stream-host allowlist"
  else .ret (.ok ())

theorem toNat_level {v : Int} (h : 0 ≤ v ∧ v ≤ 5) : v.toNat < 6 := by omega

section
variable (cfg : ContentConfig)

section
variable (user : String)

/-- The request's `min_tier`, or else the creator's default. -/
def effectiveMinTier : Option Int → ContentAction (Fin 6)
  | some v => .ret (if h : 0 ≤ v ∧ v ≤ 5 then ⟨v.toNat, toNat_level h⟩ else 0)
  | none =>
    if cfg.pgPool then
      .call (.defaultStreamMinTier user) fun r => .ret ((r.toOption.bind fun x => x).getD 0)
    else .ret 0

def hostToken (user id : String) : Handler String :=
  .call (.generateToken user) fun r => orError .sfu r fun _ => .ret (.ok id)

/-- The host as a participant, the key and the token. -/
def addHost (user id : String) (e2ee : Bool) : Handler String :=
  .call (.addParticipant id user) fun r => orDatabase r fun _ =>
    if e2ee then .call (.setStreamE2eeKey id) fun r => orDatabase r fun _ => hostToken user id else hostToken user id

/-- The gate and what follows it; a gate that could not be stored is only logged. -/
def startStream (user id : String) (e2ee : Bool) (level : Fin 6) : Handler String :=
  if 0 < level.val then .call (.createContentGate user ("stream", id) user level.val 120 true) fun _ => addHost user id e2ee
  else addHost user id e2ee

/-- The SFU room and the stream row, in a room without an active stream. -/
def openStream (body : CreateStreamRequest) (newId sfuName : String) (roomId : Int) :
    Handler String :=
  if body.e2ee ∧ ¬cfg.e2eeEnabled then refuse .featureDisabled "E2EE is not enabled on this server"
  else if cfg.e2eeRequired ∧ ¬body.e2ee then refuse .featureDisabled "E2EE is required but was not requested"
  else
    .call (.createSfuRoom sfuName) fun r => orError .sfu r fun _ =>
    .call (.insertStream newId roomId user (some sfuName) body.minTierLevel) fun r => orDatabase r fun _ =>
    (effectiveMinTier cfg user body.minTier).bind fun level => startStream user newId body.e2ee level

/-- `create_stream`; `newId` is the UUID of the row, `sfuName` the name of the SFU room. -/
def createStream (body : CreateStreamRequest) (newId sfuName : String) : Handler String :=
  .call (.isUserSuspended user) fun suspended =>
    if suspended.toOption.getD false then refuse .forbidden "account suspended" else
    (checkCanHost cfg body.roomId user).andThen fun _ =>
    .call (.getOrCreateRoom body.roomId) fun r => orDatabase r fun room =>
    .call (.getActiveStream room.1) fun r => orDatabase r fun active =>
    match active with
    | some id => refuse .streamActive ("Room already has active stream: " ++ id)
    | none => openStream cfg user body newId sfuName room.1

/-! ## Gates -/

structure CreateGateRequest where
  contentType : String
  contentId : String
  minTierLevel : Int
  previewSeconds : Option Int
deriving DecidableEq

def createGate (req : CreateGateRequest) : Handler ContentGate :=
  orRefuse cfg.features.requireSubscriptions <|
  orRefuse (validateTierLevel req.minTierLevel) <|
  orRefuse (validatePreviewSeconds (req.previewSeconds.getD 120)) <|
  .call (.createContentGate user (req.contentType, req.contentId) user req.minTierLevel (req.previewSeconds.getD 120) false)
    fun r => orDatabase r fun gate => .ret (.ok gate)

/-- The caller is authenticated and otherwise not looked at. -/
def deleteGate (user contentType contentId : String) : Handler Unit :=
  orRefuse cfg.features.requireSubscriptions <|
  .call (.deleteContentGate user (contentType, contentId)) fun r => orDatabase r fun _ => .ret (.ok ())

/-! ## Watching a stream -/

/-- `get_content_gate` of the client API: no gate when monetization is off. -/
def getContentGate (cfg : ContentConfig) (key : ContentKey) : Handler (Option ContentGate) :=
  if cfg.features.enabled then .call (.getContentGate key) fun r => orDatabase r fun gate => .ret (.ok gate)
  else .ret (.ok none)

/-- The check of a gate row: the subscription is one to the creator that the row names. -/
def passGate (gate : ContentGate) : Handler Unit :=
  .call (.entitlement user gate.creatorUserId) fun e =>
    match e with
    | some e =>
      if e.tierLevel < gate.minTierLevel then
        refuse .insufficientTier ("Requires tier level " ++ toString gate.minTierLevel ++ " or higher (you have " ++
          toString e.tierLevel ++ ")")
      else .ret (.ok ())
    | none =>
      refuse .contentGated ("This stream requires a tier " ++ toString gate.minTierLevel ++ " subscription to the creator")

/-- The check of a `min_tier_level` column: the capability, then the level. -/
def passColumn (user host matrixRoomId : String) (can : TierPermissions → Bool) (min : Int) (what : String) : Handler Unit :=
  .call (.permissions user host matrixRoomId) fun p =>
    if can p then
      .call (.entitlement user host) fun e =>
        if (e.map Entitlement.tierLevel).getD 0 < min then
          refuse .tierTooLow ("Requires tier level " ++ toString min ++ " or higher to watch this " ++ what)
        else .ret (.ok ())
    else refuse .permissionDenied "Your tier does not permit this action"

/-- The part of `join_stream` that follows the gates. -/
def letIn (user id : String) (room : Room) : Handler Unit :=
  .call (.listParticipants id) fun r => orDatabase r fun present =>
    if room.maxParticipants ≤ present then refuse .roomFull "room has reached maximum capacity" else
    .call (.addParticipant id user) fun r => orDatabase r fun _ =>
    .call (.generateToken user) fun r => orError .sfu r fun _ => .ret (.ok ())

/-- The gate row of a stream, if the entitlement service is on. -/
def checkGate (user id : String) : Handler Unit :=
  if cfg.entitlementService then
    (getContentGate cfg ("stream", id)).andThen fun gate =>
      match gate with
      | some gate => passGate user gate
      | none => .ret (.ok ())
  else .ret (.ok ())

/-- The column of a stream, if the entitlement service is on. -/
def checkColumn (stream : Stream) (room : Room) : Handler Unit :=
  match stream.minTierLevel with
  | some min =>
    if 0 < min ∧ cfg.entitlementService then
      passColumn user stream.hostUserId room.matrixRoomId TierPermissions.canJoinLive min "stream"
    else .ret (.ok ())
  | none => .ret (.ok ())

end

def joinStream (user id : String) : Handler Unit :=
  .call (.getStream id) fun r => orDatabase r fun stream =>
    match stream with
    | none => refuse .notFound "stream not found"
    | some stream =>
      if stream.status = .ended then refuse .streamEnded "stream has ended" else
      (checkGate cfg user id).andThen fun _ =>
      .call (.getRoom stream.roomId) fun r => orDatabase r fun room =>
      match room with
      | none => .ret (.error (.internal "room not found for stream"))
      | some room => (checkColumn cfg user stream room).andThen fun _ => letIn user id room

/-- `switch_viewer_id`. -/
def switchViewerId (streamId user : String) : String :=
  "viewer-" ++ streamId ++ "-" ++ String.ofList (user.toList.map fun c => if c ∈ [':', '@', '!'] then '-' else c)

/-- `proxy_viewer_offer`, without the choice of the node that serves the viewer. The source to
attach to is the caller's choice. -/
def proxyViewerOffer (user id : String) (sourceId : Option String) : Handler String :=
  .call (.getStream id) fun r => orDatabase r fun stream =>
    match stream with
    | none => refuse .notFound "stream not found"
    | some stream =>
      if stream.status = .ended then refuse .streamEnded "stream has ended"
      else if ¬(cfg.switchPool ∧ cfg.switchAuthSecret) then
        refuse .featureDisabled "switch proxy requires MM_SWITCH_URL and MM_SWITCH_AUTH_SECRET"
      else
        .call (.viewerOffer (switchViewerId id user) (sourceId.getD (switchSourceId id))) fun r =>
          orError (fun e => .sfu ("switch node rejected the offer: " ++ e)) r fun _ => .ret (.ok (switchViewerId id user))

/-! ## Recording -/

def recordingRefused : String :=
  "Recording is paused for this broadcast because its balance does not cover the projected cost of the rest of it. " ++
    "Adding funds lifts this."

/-- `e.contains("404")`. -/
def notRegistered (e : String) : Bool := decide ("404".toList <:+: e.toList)

/-- `record_start_or_resume`, again while the switch does not know the source. -/
def recordWithRetry (source recordingId : String) : (retries : Nat) → ContentAction (Except String Unit)
  | 0 => .call (.recordStartOrResume source recordingId) fun r => .ret r
  | retries + 1 =>
    .call (.recordStartOrResume source recordingId) fun r =>
      match r with
      | .ok () => .ret (.ok ())
      | .error e => if notRegistered e then recordWithRetry source recordingId retries else .ret (.error e)

/-- The row of a recording that the switch takes: resumed or new. -/
def storeSwitchRecording (id recordingId : String) (stream : Stream) (resumed : Bool) : Handler String :=
  if cfg.pgPool then
    if resumed then .call (.resumeRecording recordingId) fun _ => .ret (.ok recordingId)
    else
      .call (.insertRecording recordingId id stream.roomId stream.hostUserId ("/data/recordings/" ++ recordingId ++ ".webm")
        ("mm-switch:" ++ switchSourceId id) stream.minTierLevel) fun r => orDatabase r fun _ => .ret (.ok recordingId)
  else .ret (.ok recordingId)

/-- The LiveKit egress path, with the creator's default gate on the new row. -/
def recordByEgress (id egressId : String) (stream : Stream) (segment : Nat) : Handler String :=
  let recordingId := id ++ "_seg" ++ toString segment
  let path := "/data/recordings/" ++ recordingId ++ ".mp4"
  .call (.startLocalRecording path egressId) fun r => orError (fun e => .internal ("egress start failed: " ++ e)) r fun _ =>
    if cfg.pgPool then
      .call (.insertRecording recordingId id stream.roomId stream.hostUserId path egressId stream.minTierLevel) fun r =>
        orDatabase r fun _ =>
        .call (.defaultRecordingMinTier stream.hostUserId) fun r =>
          let level : Fin 6 := (r.toOption.bind fun x => x).getD 0
          if 0 < level.val then
            .call (.createContentGate stream.hostUserId ("recording", recordingId) stream.hostUserId level.val 120 true) fun _ =>
              .ret (.ok recordingId)
          else .ret (.ok recordingId)
    else .ret (.ok recordingId)

/-- Whether the demotion ladder stops recordings of this stream; not when it cannot be read. -/
def recordingRefusal (cfg : ContentConfig) (id : String) : ContentAction Bool :=
  if cfg.pgPool then .call (.recordingRefusal id) fun refused => .ret refused else .ret false

/-- The number of the next segment. -/
def nextSegment (id : String) : ContentAction Nat :=
  if cfg.pgPool then .call (.countRecordings id) fun r => .ret (r.toOption.getD 0 + 1) else .ret 1

/-- The recording of the stream that is under way. -/
def existingRecording (id : String) : Handler (Option String) :=
  if cfg.pgPool then .call (.inFlightRecording id) fun r => orDatabase r fun found => .ret (.ok found) else .ret (.ok none)

/-- Record from the switch, or by egress when the switch does not have the source. -/
def recordBySwitch (id egressId : String) (stream : Stream) (segment : Nat) : Handler String :=
  (existingRecording cfg id).andThen fun existing =>
    let recordingId := existing.getD (id ++ "_rec1")
    (recordWithRetry (switchSourceId id) recordingId 4).bind fun result =>
    match result with
    | .ok () => storeSwitchRecording cfg id recordingId stream existing.isSome
    | .error e =>
      if notRegistered e then recordByEgress cfg id egressId stream segment
      else .ret (.error (.internal ("mm-switch record failed: " ++ e)))

/-- From the demotion ladder's gate on. -/
def recordAs (id egressId : String) (stream : Stream) : Handler String :=
  (recordingRefusal cfg id).bind fun refused =>
    if refused then refuse .balanceTooLow recordingRefused else
    (nextSegment cfg id).bind fun segment =>
      if cfg.originSwitch then recordBySwitch cfg id egressId stream segment
      else recordByEgress cfg id egressId stream segment

/-- `start_recording`; `egressId` is what the SFU calls the egress. -/
def startRecording (user id egressId : String) : Handler String :=
  .call (.getStream id) fun r => orDatabase r fun stream =>
    match stream with
    | none => refuse .notFound "stream not found"
    | some stream =>
      if stream.hostUserId ≠ user then refuse .forbidden "only the host can record"
      else if stream.status ≠ .active then refuse .invalidAmount "stream is not active"
      else recordAs cfg id egressId stream

end

/-! ## Watching a recording -/

/-- The fields of the response that carry a URL or the gate. -/
structure RecordingResponse where
  id : String
  streamId : String
  hostUserId : String
  status : RecordingStatus
  playbackUrl : Option String
  mxcUrl : Option String
  thumbnailUrl : Option String
  mp4Url : Option String
  minTierLevel : Option Int
deriving DecidableEq

/-- `storage_key.rsplit('/').next()`. -/
def fileName (key : String) : String := String.ofList (key.toList.reverse.takeWhile (· != '/')).reverse

def stripSuffix (suffix s : String) : Option String :=
  if suffix.toList.isSuffixOf s.toList then some (String.ofList (s.toList.take (s.toList.length - suffix.toList.length))) else none

namespace RecordingResponse

def fromRecording (id : String) (r : Recording) (publicUrl : String) : RecordingResponse :=
  let file := fileName r.storageKey
  let served := r.storageBackend = .local ∧ r.status = .ready
  let url (name : String) := publicUrl ++ "/_mm/recordings/" ++ name
  let stem := ((stripSuffix ".webm" file).orElse fun _ => stripSuffix ".mp4" file).getD file
  { id := id
    streamId := r.streamId
    hostUserId := r.hostUserId
    status := r.status
    playbackUrl := (r.cdnUrl.orElse fun _ => r.mxcUrl).orElse fun _ => if served then some (url file) else none
    mxcUrl := r.mxcUrl
    thumbnailUrl := if served then some (url (stem ++ ".jpg")) else none
    mp4Url := if served ∧ r.mp4Ready then some (url ((stripSuffix ".webm" file).getD file ++ ".mp4")) else none
    minTierLevel := r.minTierLevel }

def withholdUrl (r : RecordingResponse) : RecordingResponse := { r with playbackUrl := none, mxcUrl := none, mp4Url := none }

end RecordingResponse

def recordingIsTierGated (minTierLevel : Option Int) : Bool := minTierLevel.any fun m => 0 < m

section
variable (cfg : ContentConfig)

/-- `is_entitled_to_recording`. The permissions are always resolved, so its arm for an error
is not reached. -/
def isEntitledToRecording (user matrixRoomId : String) (r : Recording) : ContentAction Bool :=
  if user = r.hostUserId then .ret true
  else if ¬cfg.entitlementService then .ret true
  else if ¬recordingIsTierGated r.minTierLevel then .ret true
  else
    .call (.permissions user r.hostUserId matrixRoomId) fun p =>
      if p.canWatchRecordings then
        .call (.entitlement user r.hostUserId) fun e =>
          .ret (decide (r.minTierLevel.getD 0 ≤ (e.map Entitlement.tierLevel).getD 0))
      else .ret false

/-- The rows of a page, one after the other. -/
def respondAll (cfg : ContentConfig) (user matrixRoomId : String) : List (String × Recording) → ContentAction (List RecordingResponse)
  | [] => .ret []
  | (id, r) :: rows =>
    (isEntitledToRecording cfg user matrixRoomId r).bind fun entitled =>
      (respondAll cfg user matrixRoomId rows).bind fun responses =>
        let response := RecordingResponse.fromRecording id r cfg.publicUrl
        .ret ((if entitled then response else response.withholdUrl) :: responses)

/-- `clamp_limit`: 1 to 100, 20 by default. -/
def clampLimit (limit : Option Int) : Nat := (max 1 (min (limit.getD 20) 100)).toNat

def listRoomRecordings (cfg : ContentConfig) (user matrixRoomId : String) (limit : Option Int) (beforeId : Option String) :
    Handler (List RecordingResponse × Bool) :=
  .call (.getRoomByMatrixId matrixRoomId) fun r => orDatabase r fun room =>
    match room with
    | none => refuse .notFound "room not found"
    | some (roomId, room) =>
      -- one row more than the page, to know whether there are others
      .call (.listRoomRecordings roomId (clampLimit limit + 1) beforeId) fun r => orDatabase r fun rows =>
        (respondAll cfg user room.matrixRoomId (rows.take (clampLimit limit))).bind fun responses =>
          .ret (.ok (responses, decide (clampLimit limit < rows.length)))

/-- The check of a recording's column. Without a room row there is none. -/
def checkRecording (user : String) (r : Recording) : Handler Unit :=
  match r.minTierLevel with
  | some min =>
    if 0 < min ∧ cfg.entitlementService ∧ user ≠ r.hostUserId then
      .call (.getRoom r.roomId) fun reply => orDatabase reply fun room =>
        match room with
        | some room => passColumn user r.hostUserId room.matrixRoomId TierPermissions.canWatchRecordings min "recording"
        | none => .ret (.ok ())
    else .ret (.ok ())
  | none => .ret (.ok ())

/-- `get_recording`, without the ad policy that is added to the response. -/
def getRecording (cfg : ContentConfig) (user id : String) : Handler RecordingResponse :=
  .call (.getRecording id) fun r => orDatabase r fun recording =>
    match recording with
    | none => refuse .notFound "recording not found"
    | some recording =>
      if recording.status = .deleted then refuse .notFound "recording not found" else
      (checkRecording cfg user recording).andThen fun _ => .ret (.ok (.fromRecording id recording cfg.publicUrl))

/-! ## Requests -/

/-- The requests, numbered so that two of them can be told apart. -/
inductive ContentJob where
  | createStream (n : Nat) (user : String) (body : CreateStreamRequest) (newId sfuName : String)
  | createGate (n : Nat) (user : String) (req : CreateGateRequest)
  | deleteGate (n : Nat) (user contentType contentId : String)
  | startRecording (n : Nat) (user id egressId : String)
  | joinStream (n : Nat) (user id : String)
  | proxyViewerOffer (n : Nat) (user id : String) (sourceId : Option String)
  | getRecording (n : Nat) (user id : String)
  | listRoomRecordings (n : Nat) (user matrixRoomId : String) (limit : Option Int) (beforeId : Option String)
deriving DecidableEq

inductive ContentOutcome where
  | refused (e : MMError)
  | streamCreated (id : String)
  | gate (g : ContentGate)
  | gateDeleted
  | recordingStarted (id : String)
  | joined
  | answered (viewerId : String)
  | recording (r : RecordingResponse)
  | recordings (rs : List RecordingResponse) (hasMore : Bool)
deriving DecidableEq

/-- A handler with its response. -/
def respondWith {α : Type} (f : α → ContentOutcome) (p : Handler α) : ContentAction ContentOutcome :=
  p.bind fun r => .ret (match r with | .ok a => f a | .error e => .refused e)

def ContentJob.program : ContentJob → ContentAction ContentOutcome
  | .createStream _ user body newId sfuName => respondWith .streamCreated (Paywall.createStream cfg user body newId sfuName)
  | .createGate _ user req => respondWith .gate (Paywall.createGate cfg user req)
  | .deleteGate _ user contentType contentId => respondWith (fun _ => .gateDeleted) (Paywall.deleteGate cfg user contentType contentId)
  | .startRecording _ user id egressId => respondWith .recordingStarted (Paywall.startRecording cfg user id egressId)
  | .joinStream _ user id => respondWith (fun _ => .joined) (Paywall.joinStream cfg user id)
  | .proxyViewerOffer _ user id sourceId => respondWith .answered (Paywall.proxyViewerOffer cfg user id sourceId)
  | .getRecording _ user id => respondWith .recording (Paywall.getRecording cfg user id)
  | .listRoomRecordings _ user room limit before =>
    respondWith (fun x => .recordings x.1 x.2) (Paywall.listRoomRecordings cfg user room limit before)

abbrev ContentPool : Type := Pool ContentState ContentRequest ContentRequest.Reply ContentJob ContentOutcome

abbrev ContentEvent : Type := Event ContentJob CallFate ContentMove

/-- No content yet and nothing in flight. -/
def ContentPool.start (utcNow : DateTime) (tables : Tables) : ContentPool :=
  ⟨⟨utcNow, tables, ∅, 1, ∅, ∅, fun _ => none, ∅, [], [], ∅, [], []⟩, [], []⟩

def contentStep : ContentPool → ContentEvent → ContentPool :=
  poolStep contentService (ContentJob.program cfg)

end

end MatrixMedia.Paywall
