import MatrixMedia.Broadcast.Effects
import MatrixMedia.Lib.Outline

/-!
# The calls of the handlers

Which calls an end and a resume make, and what each is about.
-/

namespace MatrixMedia.Broadcast
open Lib Lib.Interaction Api
open Streams (RecordingRelease EndOutcome switchSourceId)

variable {cfg : BroadcastConfig} {id user : String} {row : StreamRow} {release : RecordingRelease} {reason : Option String}

variable {P : BroadcastRequest → Prop}

theorem uses_respond {α : Type} {f} {p : Handler α} (h : p.Uses P) :
    (respond f p).Uses P :=
  h.bind fun _ => trivial

theorem uses_orNotFound {α : Type} {r : Except String (Option StreamRow)} {next : StreamRow → Handler α}
    (h : ∀ row, (next row).Uses P) : (orNotFound r next).Uses P := by
  refine uses_orError fun row => ?_
  cases row with
  | none => trivial
  | some row => exact h row

theorem uses_onSwitch {q} (h : P q) : (onSwitch cfg q).Uses P := by
  unfold onSwitch
  split
  · exact ⟨h, fun _ => trivial⟩
  · trivial

/-- The media calls of an end. -/
inductive MediaCall (id : String) (release : RecordingRelease) : BroadcastRequest → Prop where
  | rows : MediaCall id release (.getRecordingsForStream id)
  | egresses {room : String} {ids : List String} : MediaCall id release (.cleanupEgresses room ids)
  | finalise : MediaCall id release (.recordFinalise (switchSourceId id))
  | ready : MediaCall id release (.markRecordingsReady id (release = .withhold))
  | mp4s : MediaCall id release (.trackMp4s id)
  | source : MediaCall id release (.removeSource (switchSourceId id))
  | sfuRoom {room : String} : MediaCall id release (.deleteSfuRoom room)

theorem cleanupEgresses_uses (hrows : P (.getRecordingsForStream id))
    (hegresses : ∀ room ids, P (.cleanupEgresses room ids)) : (cleanupEgresses cfg id row).Uses P := by
  unfold cleanupEgresses
  split
  · split
    · refine ⟨hrows, fun r => ?_⟩
      cases r with
      | error e => trivial
      | ok rows =>
        dsimp only
        split
        · trivial
        · exact ⟨hegresses _ _, fun _ => trivial⟩
    · trivial
  · trivial

theorem finishRows_uses : (finishRows cfg id release).Uses (MediaCall id release) := by
  unfold finishRows
  split
  · exact ⟨.ready, fun r => (uses_onSwitch .mp4s).bind fun _ => trivial⟩
  · trivial

theorem deleteRoom_uses (h : ∀ room, P (.deleteSfuRoom room)) : (deleteRoom row).Uses P := by
  unfold deleteRoom
  split
  · exact ⟨h _, fun _ => trivial⟩
  · trivial

theorem releaseMedia_uses : (releaseMedia cfg id row release).Uses (MediaCall id release) :=
  (cleanupEgresses_uses .rows fun _ _ => .egresses).bind fun _ => (uses_onSwitch .finalise).bind fun _ => finishRows_uses.bind fun _ =>
    (uses_onSwitch .source).bind fun _ => (deleteRoom_uses fun _ => .sfuRoom).bind fun _ => trivial

/-- The calls of an end once it has moved the row. -/
inductive AfterCall (id : String) : BroadcastRequest → Prop where
  | room {room : Int} : AfterCall id (.content (.getRoom room))
  | bump : AfterCall id (.bumpMarkerGeneration id)
  | keyCleared {room : String} : AfterCall id (.clearE2eeKey room id)
  | marker {room : String} {generation : Nat} {reason : Option String} :
      AfterCall id (.publishMarker ⟨room, id, .ended, generation, reason⟩)
  | readyRows : AfterCall id (.readyRecordings id)
  | announce {room recording : String} : AfterCall id (.announceRecording room recording)

/-- The calls of an end. -/
inductive EndCall (id : String) (release : RecordingRelease) : BroadcastRequest → Prop where
  | read : EndCall id release (.getStream id)
  | media {q : BroadcastRequest} (h : MediaCall id release q) : EndCall id release q
  | row : EndCall id release (.endStreamIfActive id)
  | after {q : BroadcastRequest} (h : AfterCall id q) : EndCall id release q

theorem publishEnded_uses {m} (h : P (.publishMarker m)) (attempts : Nat) :
    (publishEnded m attempts).Uses P := by
  induction attempts with
  | zero => trivial
  | succ attempts ih =>
    refine ⟨h, fun r => ?_⟩
    cases r with
    | ok a => trivial
    | error e => exact ih

theorem announceAll_uses {room} (h : ∀ recording, P (.announceRecording room recording))
    (recordings : List String) : (announceAll room recordings).Uses P := by
  induction recordings with
  | nil => trivial
  | cons recording recordings ih => exact ⟨h recording, fun _ => ih⟩

theorem finalizeStreamMarker_uses {room} : (finalizeStreamMarker id row room reason).Uses (AfterCall id) := by
  refine ⟨.bump, fun g => ?_⟩
  dsimp only
  split
  · exact ⟨.keyCleared, fun _ => publishEnded_uses .marker _⟩
  · exact publishEnded_uses .marker _

theorem afterEnd_uses {withheld} : (afterEnd cfg id row release reason withheld).Uses (AfterCall id) := by
  refine ⟨.room, fun r => ?_⟩
  dsimp only
  split
  · refine finalizeStreamMarker_uses.bind fun written => Prog.Uses.bind ?_ fun _ => trivial
    split
    · refine ⟨.readyRows, fun r => ?_⟩
      cases r with
      | ok recordings => exact announceAll_uses (fun _ => .announce) recordings
      | error e => trivial
    · trivial
  · trivial

theorem endAndFinaliseStream_uses : (endAndFinaliseStream cfg id row release reason).Uses (EndCall id release) := by
  refine (releaseMedia_uses.mono fun _ h => .media h).bind fun withheld => ⟨.row, fun r => uses_orError fun moved => ?_⟩
  split
  · exact (afterEnd_uses.mono fun _ h => .after h).bind fun _ => trivial
  · trivial

theorem stopStream_uses : (stopStream cfg id release reason).Uses (EndCall id release) :=
  ⟨.read, fun _ => uses_orNotFound fun _ => endAndFinaliseStream_uses⟩

theorem endStream_uses : (endStream cfg user id).Uses (EndCall id .publish) := by
  refine ⟨.read, fun _ => uses_orNotFound fun row => ?_⟩
  split
  · trivial
  · exact endAndFinaliseStream_uses

/-- The calls of a resume. -/
inductive ResumeCall (id : String) : BroadcastRequest → Prop where
  | suspended {user : String} : ResumeCall id (.content (.isUserSuspended user))
  | read : ResumeCall id (.getStream id)
  | token {user : String} : ResumeCall id (.content (.generateToken user))
  | key : ResumeCall id (.getStreamE2eeKey id)
  | room {room : Int} : ResumeCall id (.content (.getRoom room))
  | bump : ResumeCall id (.bumpMarkerGeneration id)
  | marker {room : String} {generation : Nat} : ResumeCall id (.publishMarker ⟨room, id, .active, generation, none⟩)

theorem currentKey_uses : (currentKey id row).Uses (ResumeCall id) := by
  unfold currentKey
  split
  · exact ⟨.key, fun _ => uses_orError fun _ => trivial⟩
  · trivial

theorem markResumed_uses {key} : (markResumed id row key).Uses (ResumeCall id) := by
  refine ⟨.room, fun _ => uses_orError fun room => ?_⟩
  cases room with
  | none => trivial
  | some room => exact ⟨.bump, fun _ => ⟨.marker, fun _ => trivial⟩⟩

theorem resumeStream_uses : (resumeStream user id).Uses (ResumeCall id) := by
  refine ⟨.suspended, fun suspended => ?_⟩
  dsimp only
  split
  · trivial
  refine ⟨.read, fun _ => uses_orNotFound fun row => ?_⟩
  split
  · trivial
  split
  · trivial
  split
  · trivial
  exact ⟨.token, fun _ => uses_orError fun _ => currentKey_uses.andThen fun _ => markResumed_uses⟩

/-- The stream that a request moves to `ended`. -/
def BroadcastRequest.ends : BroadcastRequest → Option String
  | .endStreamIfActive id => some id
  | _ => none

/-- The stream whose `marker_generation` a request bumps. -/
def BroadcastRequest.bumps : BroadcastRequest → Option String
  | .bumpMarkerGeneration id => some id
  | _ => none

/-- The stream whose open recordings a request marks ready. -/
def BroadcastRequest.readies : BroadcastRequest → Option String
  | .markRecordingsReady id _ => some id
  | _ => none

/-- The egress id of the row that a request inserts. -/
def BroadcastRequest.inserts : BroadcastRequest → Option String
  | .content (.insertRecording _ _ _ _ _ egress _) => some egress
  | _ => none

/-- The egress id by which a request finishes recordings. -/
def BroadcastRequest.finishes : BroadcastRequest → Option String
  | .finishRecordings egress _ => some egress
  | _ => none

/-- A statement of the database, not a call to Matrix, the SFU or the switch. -/
def BroadcastRequest.isSql : BroadcastRequest → Bool
  | .content (.createSfuRoom _) | .content (.generateToken _) | .content (.viewerOffer _ _) | .content (.recordStartOrResume _ _)
  | .content (.startLocalRecording _ _) | .publishE2eeKey .. | .clearE2eeKey _ _ | .publishMarker _ | .announceRecording _ _
  | .cleanupEgresses _ _ | .sfuParticipants _ | .stopEgress _ | .deleteSfuRoom _ | .recordPause _ | .recordFinalise _ | .removeSource _ => false
  | _ => true

/-- The stream that a job ends, and what it does with the recordings. -/
def BroadcastJob.ends : BroadcastJob → Option (String × RecordingRelease)
  | .endStream _ _ id => some (id, .publish)
  | .stopStream _ id release _ => some (id, release)
  | _ => none

/-- **An end** reads the stream, and is refused or goes on with the row. -/
theorem ends_leads {K} {k : BroadcastJob} (hk : k.ends = some (id, release)) (hread : P (.getStream id))
    (hrefused : ∀ e, K (.ret (.refused e)))
    (hrow : ∀ row reason, (respond .ended (endAndFinaliseStream cfg id row release reason)).Leads P K) : (k.program cfg).Leads P K := by
  cases k with
  | endStream n user id' =>
    cases hk
    refine .call hread fun r => ?_
    match r with
    | .error e => exact .here (hrefused _)
    | .ok none => exact .here (hrefused _)
    | .ok (some row) =>
      dsimp only [orNotFound, orDatabase, orError]
      split
      · exact .here (hrefused _)
      · exact hrow row none
  | stopStream n id' release' reason =>
    cases hk
    refine .call hread fun r => ?_
    match r with
    | .error e => exact .here (hrefused _)
    | .ok none => exact .here (hrefused _)
    | .ok (some row) => exact hrow row reason
  | _ => cases hk

/-- The stream that a job resumes. -/
def BroadcastJob.resumes : BroadcastJob → Option String
  | .resumeStream _ _ id => some id
  | _ => none

end MatrixMedia.Broadcast
