import MatrixMedia.Api.Guards
import MatrixMedia.Paywall.Tables
import MatrixMedia.Streams.Sweep
import Mathlib.Data.List.Infix
import Mathlib.Logic.Function.Basic

/-!
# Content and its gates

The tables behind streams and recordings (migrations V005, V007, V013, V026 and V030), and
the calls that the handlers of `Paywall/Handlers.lean` make. Each SQL statement is one
request. A minimum tier stands in three places: the column `min_tier_level` of a stream or a
recording, a row of `mm_content_gates`, and the defaults of a creator.

The entitlement service and the permissions are asked for what the tables say now; their
caches are in `Paywall/Entitlement.lean` and `Paywall/Permissions.lean`.

`gateLog` records who set and deleted gates. No code reads it; results are stated over it.
-/

namespace MatrixMedia.Paywall
open Lib Lib.Chrono Lib.Interaction
open Std (TreeMap)
open Streams (Stream StreamTable)

/-! ## Rows -/

structure Room where
  matrixRoomId : String
  maxParticipants : Int
deriving DecidableEq

inductive RecordingStatus where
  | recording
  | paused
  | processing
  | ready
  | failed
  | deleted
deriving DecidableEq

inductive StorageBackend where
  | local
  | s3
deriving DecidableEq

/-- The columns of `mm_recordings` that the handlers read. -/
structure Recording where
  streamId : String
  roomId : Int
  hostUserId : String
  status : RecordingStatus
  storageKey : String
  storageBackend : StorageBackend
  mxcUrl : Option String
  cdnUrl : Option String
  egressId : String
  createdAt : DateTime
  minTierLevel : Option Int
  /-- `mp4_status` is `ready`. -/
  mp4Ready : Bool
  hidden : Bool
deriving DecidableEq

/-- The row that `start_recording` inserts. -/
def Recording.started (streamId : String) (roomId : Int) (host storageKey egressId : String) (createdAt : DateTime)
    (minTierLevel : Option Int) : Recording :=
  ⟨streamId, roomId, host, .recording, storageKey, .local, none, none, egressId, createdAt, minTierLevel, false, false⟩

/-- A row of `mm_content_gates`, with its CHECK on the level. -/
structure ContentGate where
  creatorUserId : String
  minTierLevel : Int
  previewSeconds : Int
  checked : 1 ≤ minTierLevel ∧ minTierLevel ≤ 5
deriving DecidableEq

/-- `(content_type, content_id)`, unique in `mm_content_gates`. -/
abbrev ContentKey : Type := String × String

/-- For the literals among the levels 0 to 5. -/
instance neZeroSix : NeZero 6 := ⟨by decide⟩

/-- `mm_creator_defaults`; both columns are checked to be 0 to 5. -/
structure CreatorDefaults where
  defaultStreamMinTier : Fin 6
  defaultRecordingMinTier : Fin 6

/-- Who set the gate on something, and to what; `none` for a deletion. -/
structure GateEntry where
  user : String
  key : ContentKey
  level : Option Int
deriving DecidableEq

structure ContentState where
  utcNow : DateTime
  tables : Tables
  rooms : TreeMap Int Room
  /-- The sequence behind `mm_rooms.id`. -/
  nextRoomId : Int
  streams : StreamTable
  recordings : TreeMap String Recording
  gates : ContentKey → Option ContentGate
  defaults : TreeMap String CreatorDefaults
  /-- The participants that have not left: stream and user. -/
  participants : List (String × String)
  suspended : List String
  /-- The allow-lists of the rooms that are not in mode `open`. -/
  hosts : TreeMap String (List String)
  /-- The streams that the demotion ladder keeps from recording. -/
  recordingBlocked : List String
  gateLog : List GateEntry

namespace ContentState

section
variable (s : ContentState)

def roomByMatrixId (matrixRoomId : String) : Option (Int × Room) :=
  s.rooms.toList.find? fun (_, r) => r.matrixRoomId = matrixRoomId

def activeStream (roomId : Int) : Option String :=
  ((s.streams.toList.filter fun (_, x) => x.roomId = roomId ∧ x.status = .active).insertionSort
    fun x y => y.2.startedAt ≤ x.2.startedAt).head?.map Prod.fst

/-- Newest first. -/
def sortRecordings (rows : List (String × Recording)) : List (String × Recording) :=
  rows.insertionSort fun x y => y.2.createdAt ≤ x.2.createdAt

def inFlightRecording (streamId : String) : Option String :=
  (sortRecordings (s.recordings.toList.filter fun (_, r) =>
    r.streamId = streamId ∧ (r.status = .recording ∨ r.status = .paused))).head?.map Prod.fst

/-- `list_room_recordings`; an unknown `before_id` matches nothing. -/
def roomRecordings (roomId : Int) (limit : Nat) (beforeId : Option String) : List (String × Recording) :=
  (sortRecordings (s.recordings.toList.filter fun (_, r) =>
    r.roomId = roomId ∧ r.status = .ready ∧ r.hidden = false ∧
      ∀ before ∈ beforeId, ∃ b ∈ s.recordings[before]?, r.createdAt < b.createdAt)).take limit

end

end ContentState

/-! ## Calls -/

inductive ContentRequest where
  | isUserSuspended (user : String)
  | streamHosts (matrixRoomId : String)
  | getOrCreateRoom (matrixRoomId : String)
  | getRoom (id : Int)
  | getRoomByMatrixId (matrixRoomId : String)
  | getActiveStream (roomId : Int)
  | createSfuRoom (name : String)
  | insertStream (id : String) (roomId : Int) (host : String) (sfuRoomId : Option String) (minTierLevel : Option Int)
  | getStream (id : String)
  | setStreamE2eeKey (id : String)
  | defaultStreamMinTier (user : String)
  | defaultRecordingMinTier (user : String)
  /-- `quiet`: the handler goes on when it fails. -/
  | createContentGate (user : String) (key : ContentKey) (creator : String) (minTierLevel previewSeconds : Int) (quiet : Bool)
  | getContentGate (key : ContentKey)
  | deleteContentGate (user : String) (key : ContentKey)
  | entitlement (user creator : String)
  | permissions (user creator matrixRoomId : String)
  | listParticipants (streamId : String)
  | addParticipant (streamId user : String)
  | generateToken (user : String)
  | viewerOffer (viewerId sourceId : String)
  | recordingRefusal (streamId : String)
  | countRecordings (streamId : String)
  | inFlightRecording (streamId : String)
  | recordStartOrResume (source recordingId : String)
  | resumeRecording (id : String)
  | startLocalRecording (outputPath egressId : String)
  | insertRecording (id streamId : String) (roomId : Int) (host storageKey egressId : String) (minTierLevel : Option Int)
  | getRecording (id : String)
  | listRoomRecordings (roomId : Int) (limit : Nat) (beforeId : Option String)

abbrev ContentRequest.Reply : ContentRequest → Type
  | .isUserSuspended _ => Except String Bool
  | .streamHosts _ => Except String (Option (List String))
  | .getOrCreateRoom _ => Except String (Int × Room)
  | .getRoom _ => Except String (Option Room)
  | .getRoomByMatrixId _ => Except String (Option (Int × Room))
  | .getActiveStream _ | .inFlightRecording _ => Except String (Option String)
  | .createSfuRoom _ | .insertStream .. | .setStreamE2eeKey _ | .deleteContentGate _ _ | .addParticipant _ _
  | .generateToken _ | .viewerOffer _ _ | .recordStartOrResume _ _ | .resumeRecording _ | .startLocalRecording _ _
  | .insertRecording .. => Except String Unit
  | .getStream _ => Except String (Option Stream)
  | .defaultStreamMinTier _ | .defaultRecordingMinTier _ => Except String (Option (Fin 6))
  | .createContentGate .. => Except String ContentGate
  | .getContentGate _ => Except String (Option ContentGate)
  | .entitlement _ _ => Option Entitlement
  | .permissions .. => TierPermissions
  | .listParticipants _ | .countRecordings _ => Except String Nat
  | .recordingRefusal _ => Bool
  | .getRecording _ => Except String (Option Recording)
  | .listRoomRecordings .. => Except String (List (String × Recording))

/-- What changes by itself: time, subscriptions, settings, streams that end, viewers that
leave, and recordings that are finished, published, hidden or deleted. -/
inductive ContentMove where
  | pass (utcNow : DateTime)
  | change (tables : Tables)
  | setDefaults (user : String) (d : CreatorDefaults)
  | setHosts (hosts : TreeMap String (List String))
  | suspend (users : List String)
  | block (streams : List String)
  | endStream (id : String)
  | leave (streamId user : String)
  | updateRecording (id : String) (status : RecordingStatus) (mxcUrl cdnUrl : Option String) (mp4Ready hidden : Bool)

namespace ContentState

def duplicateKey : String := "duplicate key value violates unique constraint"

section
variable (s : ContentState)

/-- `INSERT INTO mm_streams`: the key is new and the room exists. -/
def insertStream (id : String) (row : Stream) : Except String ContentState :=
  if (s.streams[id]?).isSome then .error duplicateKey
  else if (s.rooms[row.roomId]?).isNone then .error "insert violates foreign key constraint"
  else .ok { s with streams := s.streams.insert id row }

def insertRecording (id : String) (row : Recording) : Except String ContentState :=
  if (s.recordings[id]?).isSome then .error duplicateKey else .ok { s with recordings := s.recordings.insert id row }

/-- `create_content_gate`: an upsert that keeps the creator of an existing row. -/
def createContentGate (key : ContentKey) (creator : String) (minTierLevel previewSeconds : Int) :
    Except String (ContentState × ContentGate) :=
  if key.1 = "stream" ∨ key.1 = "recording" then
    if h : 1 ≤ minTierLevel ∧ minTierLevel ≤ 5 then
      let gate : ContentGate := ⟨((s.gates key).map ContentGate.creatorUserId).getD creator, minTierLevel, previewSeconds, h⟩
      .ok ({ s with gates := Function.update s.gates key (some gate) }, gate)
    else .error "new row violates check constraint"
  else .error "new row violates check constraint"

/-- A write: the state it leaves and what the caller sees. -/
def write {α : Type} (s : ContentState) (result : Except String (ContentState × α)) (fate : CallFate) :
    ContentState × Except String α :=
  match result with
  | .ok (s', a) => (if fate.applied then s' else s, fate.answer (.ok a))
  | .error e => (s, fate.answer (.error e))

/-- A write that returns nothing. -/
def writeUnit (result : Except String ContentState) (fate : CallFate) : ContentState × Except String Unit :=
  s.write (result.map fun s' => (s', ())) fate

def logGate (user : String) (key : ContentKey) (level : Option Int) : ContentState :=
  { s with gateLog := ⟨user, key, level⟩ :: s.gateLog }

def request : (q : ContentRequest) → CallFate → ContentState × q.Reply
  | .isUserSuspended user, fate => (s, fate.answer (.ok (s.suspended.contains user)))
  | .streamHosts room, fate => (s, fate.answer (.ok s.hosts[room]?))
  | .getOrCreateRoom room, fate =>
    match s.roomByMatrixId room with
    | some found => (s, fate.answer (.ok found))
    | none =>
      let row : Room := ⟨room, 50⟩
      s.write (.ok ({ s with rooms := s.rooms.insert s.nextRoomId row, nextRoomId := s.nextRoomId + 1 }, (s.nextRoomId, row))) fate
  | .getRoom id, fate => (s, fate.answer (.ok s.rooms[id]?))
  | .getRoomByMatrixId room, fate => (s, fate.answer (.ok (s.roomByMatrixId room)))
  | .getActiveStream room, fate => (s, fate.answer (.ok (s.activeStream room)))
  | .createSfuRoom _, fate | .setStreamE2eeKey _, fate | .generateToken _, fate | .viewerOffer _ _, fate
  | .recordStartOrResume _ _, fate | .startLocalRecording _ _, fate => (s, fate.answer (.ok ()))
  | .insertStream id room host sfuRoom min, fate =>
    s.writeUnit (s.insertStream id ⟨room, host, .active, sfuRoom, s.utcNow, min⟩) fate
  | .getStream id, fate => (s, fate.answer (.ok s.streams[id]?))
  | .defaultStreamMinTier user, fate => (s, fate.answer (.ok (s.defaults[user]?.map CreatorDefaults.defaultStreamMinTier)))
  | .defaultRecordingMinTier user, fate => (s, fate.answer (.ok (s.defaults[user]?.map CreatorDefaults.defaultRecordingMinTier)))
  | .createContentGate user key creator level preview quiet, fate =>
    let (s', r) := s.write (s.createContentGate key creator level preview) fate
    -- a failure that the handler passes over counts as set: the caller was told so
    (if quiet ∨ fate.applied ∧ (s.createContentGate key creator level preview).isOk then s'.logGate user key (some level) else s', r)
  | .getContentGate key, fate => (s, fate.answer (.ok (s.gates key)))
  | .deleteContentGate user key, fate =>
    s.writeUnit (.ok ({ s with gates := Function.update s.gates key none }.logGate user key none)) fate
  | .entitlement user creator, fate => (s, if fate = .served then s.tables.queryEntitlement s.utcNow user creator else none)
  | .permissions user creator room, fate =>
    (s, s.tables.resolveWithPool s.utcNow user creator room (fate = .served) (fate = .served))
  | .listParticipants stream, fate => (s, fate.answer (.ok (s.participants.countP fun p => p.1 = stream)))
  | .addParticipant stream user, fate =>
    s.writeUnit (.ok { s with participants := s.participants.insert (stream, user) }) fate
  | .recordingRefusal stream, fate => (s, fate = .served && s.recordingBlocked.contains stream)
  | .countRecordings stream, fate => (s, fate.answer (.ok (s.recordings.toList.countP fun x => x.2.streamId = stream)))
  | .inFlightRecording stream, fate => (s, fate.answer (.ok (s.inFlightRecording stream)))
  | .resumeRecording id, fate =>
    s.writeUnit (.ok { s with recordings := s.recordings.modify id fun r => { r with status := .recording } }) fate
  | .insertRecording id stream room host key egress min, fate =>
    s.writeUnit (s.insertRecording id (.started stream room host key egress s.utcNow min)) fate
  | .getRecording id, fate => (s, fate.answer (.ok ((s.recordings[id]?).filter fun r => r.hidden = false)))
  | .listRoomRecordings room limit before, fate => (s, fate.answer (.ok (s.roomRecordings room limit before)))

def move : ContentMove → ContentState
  | .pass now => { s with utcNow := now }
  | .change tables => { s with tables := tables }
  | .setDefaults user d => { s with defaults := s.defaults.insert user d }
  | .setHosts hosts => { s with hosts := hosts }
  | .suspend users => { s with suspended := users }
  | .block streams => { s with recordingBlocked := streams }
  | .endStream id => { s with streams := (Streams.endStreamIfActive s.streams id).1 }
  | .leave stream user => { s with participants := s.participants.erase (stream, user) }
  | .updateRecording id status mxc cdn mp4 hidden =>
    { s with recordings := s.recordings.modify id fun r =>
        { r with status := status, mxcUrl := mxc, cdnUrl := cdn, mp4Ready := mp4, hidden := hidden } }

end

end ContentState

/-! ## What a request can change -/

/-- What a request can change. -/
inductive ContentState.Effect (s : ContentState) : ContentRequest → CallFate → ContentState → Prop where
  | none {q : ContentRequest} {fate : CallFate} : Effect s q fate s
  | room {matrixRoomId : String} {fate : CallFate} (row : Room) : Effect s (.getOrCreateRoom matrixRoomId) fate
      { s with rooms := s.rooms.insert s.nextRoomId row, nextRoomId := s.nextRoomId + 1 }
  | stream {id host : String} {room : Int} {sfuRoom : Option String} {min : Option Int} {fate : CallFate}
      (fresh : s.streams[id]? = none) (found : (s.rooms[room]?).isSome) :
      Effect s (.insertStream id room host sfuRoom min) fate
        { s with streams := s.streams.insert id ⟨room, host, .active, sfuRoom, s.utcNow, min⟩ }
  | gate {user creator : String} {key : ContentKey} {level preview : Int} {quiet : Bool} {fate : CallFate} {g : ContentGate}
      (kept : g.creatorUserId = ((s.gates key).map ContentGate.creatorUserId).getD creator) (set : g.minTierLevel = level) :
      Effect s (.createContentGate user key creator level preview quiet) fate
        ({ s with gates := Function.update s.gates key (some g) }.logGate user key (some level))
  /-- The gate was not stored and the caller is not told. -/
  | unstored {user creator : String} {key : ContentKey} {level preview : Int} {fate : CallFate}
      (why : fate.applied = false ∨ ¬((key.1 = "stream" ∨ key.1 = "recording") ∧ 1 ≤ level ∧ level ≤ 5)) :
      Effect s (.createContentGate user key creator level preview true) fate (s.logGate user key (some level))
  | ungate {user : String} {key : ContentKey} {fate : CallFate} : Effect s (.deleteContentGate user key) fate
      ({ s with gates := Function.update s.gates key none }.logGate user key none)
  | participant {stream user : String} {fate : CallFate} : Effect s (.addParticipant stream user) fate
      { s with participants := s.participants.insert (stream, user) }
  | resumed {id : String} {fate : CallFate} : Effect s (.resumeRecording id) fate
      { s with recordings := s.recordings.modify id fun r => { r with status := .recording } }
  | recording {id stream host key egress : String} {room : Int} {min : Option Int} {fate : CallFate}
      (fresh : s.recordings[id]? = none) : Effect s (.insertRecording id stream room host key egress min) fate
        { s with recordings := s.recordings.insert id (.started stream room host key egress s.utcNow min) }

/-- A write leaves what it found or what its effect is. -/
theorem ContentState.Effect.write {α : Type} {s s' : ContentState} {q} (a : α) (fate : CallFate) (h : s.Effect q fate s') :
    s.Effect q fate (s.write (.ok (s', a)) fate).1 := by
  unfold ContentState.write
  cases fate.applied with
  | true => exact h
  | false => exact .none

theorem ContentState.Effect.writeUnit {s : ContentState} {q result} (fate : CallFate)
    (h : ∀ s', result = .ok s' → s.Effect q fate s') : s.Effect q fate (s.writeUnit result fate).1 := by
  cases result with
  | ok s' => exact (h s' rfl).write () fate
  | error e => exact .none

theorem ContentState.createGate_effect (s : ContentState) (user : String) (key : ContentKey) (creator : String) (level preview : Int)
    (quiet : Bool) (fate : CallFate) : s.Effect (.createContentGate user key creator level preview quiet) fate
      (s.request (.createContentGate user key creator level preview quiet) fate).1 := by
  simp only [request]
  by_cases hcheck : (key.1 = "stream" ∨ key.1 = "recording") ∧ 1 ≤ level ∧ level ≤ 5
  · have hcreate : ∃ g, s.createContentGate key creator level preview =
        .ok ({ s with gates := Function.update s.gates key (some g) }, g) ∧
        g.creatorUserId = ((s.gates key).map ContentGate.creatorUserId).getD creator ∧ g.minTierLevel = level := by
      refine ⟨⟨_, level, preview, hcheck.2⟩, ?_, rfl, rfl⟩
      rw [createContentGate, if_pos hcheck.1, dif_pos hcheck.2]
      rfl
    obtain ⟨g, hcreate, hkept, hset⟩ := hcreate
    rw [hcreate]
    cases hfate : fate.applied with
    | true => simpa [write, hfate, Except.isOk, Except.toBool] using .gate hkept hset
    | false =>
      cases quiet with
      | true => simpa [write, hfate] using .unstored (.inl hfate)
      | false => simpa [write, hfate] using .none
  · have hcreate : ∃ e, s.createContentGate key creator level preview = .error e := by
      unfold createContentGate
      split
      · rename_i htype
        rw [dif_neg fun h => hcheck ⟨htype, h⟩]
        exact ⟨_, rfl⟩
      · exact ⟨_, rfl⟩
    obtain ⟨e, hcreate⟩ := hcreate
    rw [hcreate]
    cases quiet with
    | true => simpa [write] using .unstored (.inr hcheck)
    | false => simpa [write, Except.isOk, Except.toBool] using .none

/-- Said once for every request. -/
theorem ContentState.request_effect (s : ContentState) (q : ContentRequest) (fate : CallFate) :
    s.Effect q fate (s.request q fate).1 := by
  cases q with
  | createContentGate user key creator level preview quiet => exact s.createGate_effect user key creator level preview quiet fate
  | getOrCreateRoom room =>
    simp only [request]
    split
    · exact .none
    · exact (Effect.room _).write _ fate
  | insertStream id room host sfuRoom min =>
    refine Effect.writeUnit fate fun s' h => ?_
    unfold ContentState.insertStream at h
    split at h
    · cases h
    split at h
    · cases h
    rename_i hfresh hroom
    cases h
    exact .stream (by simpa using hfresh) (by simpa using hroom)
  | insertRecording id stream room host key egress min =>
    refine Effect.writeUnit fate fun s' h => ?_
    unfold ContentState.insertRecording at h
    split at h
    · cases h
    rename_i hfresh
    cases h
    exact .recording (by simpa using hfresh)
  | deleteContentGate user key => exact Effect.ungate.write _ fate
  | addParticipant stream user => exact Effect.participant.write _ fate
  | resumeRecording id => exact Effect.resumed.write _ fate
  | _ => exact .none

/-- The columns of a stream that no handler changes. -/
def streamTerms (x : Stream) : Int × String × Option Int := (x.roomId, x.hostUserId, x.minTierLevel)

theorem endStreamIfActive_terms (streams : StreamTable) (id other : String) :
    ((Streams.endStreamIfActive streams id).1[other]?).map streamTerms = (streams[other]?).map streamTerms := by
  unfold Streams.endStreamIfActive
  split
  · rename_i row hrow
    split
    · rw [Table.getElem?_insert]
      split
      · rename_i heq
        subst heq
        rw [hrow]
        rfl
      · rfl
    · rfl
  · rfl

theorem ContentState.move_terms (s : ContentState) (m : ContentMove) (id : String) :
    ((s.move m).streams[id]?).map streamTerms = (s.streams[id]?).map streamTerms := by
  cases m with
  | endStream ended => exact endStreamIfActive_terms s.streams ended id
  | _ => rfl

def contentService : Service ContentState CallFate ContentMove ContentRequest ContentRequest.Reply where
  request := ContentState.request
  move := ContentState.move

abbrev ContentAction (α : Type) : Type := Prog ContentRequest ContentRequest.Reply α

end MatrixMedia.Paywall
