import MatrixMedia.Broadcast.Handlers

/-!
# What the calls of a broadcast change

`request_effect` says once what every call can do to the state. What it means for one table at
a time is read off it: streams, recordings, markers and their counters, recorders and files.
-/

namespace MatrixMedia.Broadcast
open Lib Lib.Interaction
open Streams (Stream StreamTable StreamStatus)
open Paywall (ContentRequest ContentState Recording)
open Std (TreeMap)

namespace BroadcastState

/-- What a request can change. -/
inductive Effect (s : BroadcastState) : BroadcastRequest → BroadcastState → Prop where
  | none {q : BroadcastRequest} : Effect s q s
  | content {q : ContentRequest} {fate : CallFate} {c : ContentState} (effect : s.content.Effect q fate c) :
      Effect s (.content q) { s with content := c }
  | recorderResumed {source recording : String} {recorder : Recorder} (found : s.recorders[source]? = some recorder) :
      Effect s (.content (.recordStartOrResume source recording))
        { s with recorders := s.recorders.insert source { recorder with state := .active } }
  | recorderStarted {source recording : String} (fresh : s.recorders[source]? = Option.none) (published : source ∈ s.sources) :
      Effect s (.content (.recordStartOrResume source recording))
        { s with
          recorders := s.recorders.insert source ⟨recording, recordingPath recording, .active⟩
          files := recordingPath recording :: s.files }
  | key {id : String} {key : StreamKey} : Effect s (.setStreamKey id key) (s.setStreamKey id key)
  | history {id : String} {key : StreamKey} : Effect s (.insertKeyHistory id key)
      { s with keyHistory := Function.update s.keyHistory (id, key.generation) (some key) }
  | keyEvent {room id : String} {key : StreamKey} : Effect s (.publishE2eeKey room id key)
      { s with keyEvents := ⟨room, id, some key⟩ :: s.keyEvents }
  | keyCleared {room id : String} : Effect s (.clearE2eeKey room id) { s with keyEvents := ⟨room, id, .none⟩ :: s.keyEvents }
  | bumped {id : String} (found : (s.content.streams[id]?).isSome) : Effect s (.bumpMarkerGeneration id)
      { s with generations := s.generations.insert id (s.generation id + 1) }
  | marker {m : Marker} : Effect s (.publishMarker m) { s with markers := m :: s.markers }
  | ended {id : String} : Effect s (.endStreamIfActive id)
      { s with content := { s.content with streams := (Streams.endStreamIfActive s.content.streams id).1 } }
  | ready {id : String} {withhold : Bool} : Effect s (.markRecordingsReady id withhold) (s.updateRecordings (markReady id withhold))
  | announced {room recording : String} : Effect s (.announceRecording room recording) { s with announced := recording :: s.announced }
  | paused {egress : String} : Effect s (.pauseRecordings egress) (s.updateRecordings (setByEgress egress false .paused))
  | finished {egress : String} {guarded : Bool} : Effect s (.finishRecordings egress guarded)
      (s.updateRecordings (setByEgress egress guarded .ready))
  | recorderPaused {source : String} : Effect s (.recordPause source)
      { s with recorders := s.recorders.modify source fun r => { r with state := .paused } }
  | finalised {source : String} : Effect s (.recordFinalise source) { s with recorders := s.recorders.erase source }
  | unpublished {source : String} : Effect s (.removeSource source) { s with sources := s.sources.erase source }

variable {s s' : BroadcastState} {q : BroadcastRequest}

/-- A write that the service accepts. -/
theorem effect_write {α : Type} (a : α) (fate : CallFate) (h : s.Effect q s') :
    s.Effect q (fate.write s (.ok (s', a))).1 := by
  rcases fate.write_eq (s := s) (.ok (s', a)) with heq | ⟨s'', a', hok, heq⟩
  · rw [heq]
    exact .none
  · cases hok
    rw [heq]
    exact h

theorem startRecorder_effect {source recording}
    (h : s.startRecorder source recording = .ok (s', ())) : s.Effect (.content (.recordStartOrResume source recording)) s' := by
  unfold startRecorder at h
  split at h
  · rename_i recorder hfound
    cases h
    exact .recorderResumed hfound
  · rename_i hfresh
    split at h
    · cases h
    split at h
    · rename_i hpublished
      cases h
      exact .recorderStarted hfresh hpublished
    · cases h

theorem contentRequest_effect (s : BroadcastState) (q : ContentRequest) (fate : CallFate) :
    s.Effect (.content q) (s.contentRequest q fate).1 := by
  have hcontent := BroadcastState.Effect.content (s.content.request_effect q fate)
  cases q with
  | recordStartOrResume source recording =>
    rcases fate.write_eq (s := s) (s.startRecorder source recording) with heq | ⟨s', a, hok, heq⟩
    · rw [contentRequest, heq]
      exact .none
    · rw [contentRequest, heq]
      exact startRecorder_effect hok
  | _ => exact hcontent

theorem bump_effect (s : BroadcastState) (id : String) (fate : CallFate) :
    s.Effect (.bumpMarkerGeneration id) (fate.write s (s.bumpMarkerGeneration id)).1 := by
  rcases fate.write_eq (s := s) (s.bumpMarkerGeneration id) with heq | ⟨s', g, hok, heq⟩
  · rw [heq]
    exact .none
  · rw [heq]
    unfold bumpMarkerGeneration at hok
    split at hok
    · cases hok
    split at hok
    · cases hok
    rename_i hfound _
    cases hok
    exact .bumped (by simpa using hfound)

/-- Said once for every request. -/
theorem request_effect (s : BroadcastState) (q : BroadcastRequest) (fate : CallFate) : s.Effect q (s.request q fate).1 := by
  cases q with
  | content q => exact s.contentRequest_effect q fate
  | setStreamKey id key => exact effect_write _ fate .key
  | insertKeyHistory id key => exact effect_write _ fate .history
  | publishE2eeKey room id key => exact effect_write _ fate .keyEvent
  | clearE2eeKey room id => exact effect_write _ fate .keyCleared
  | bumpMarkerGeneration id => exact s.bump_effect id fate
  | publishMarker m => exact effect_write _ fate .marker
  | endStreamIfActive id => exact effect_write _ fate .ended
  | markRecordingsReady id withhold => exact effect_write _ fate .ready
  | announceRecording room recording => exact effect_write _ fate .announced
  | pauseRecordings egress => exact effect_write _ fate .paused
  | finishRecordings egress guarded => exact effect_write _ fate .finished
  | recordPause source => exact effect_write _ fate .recorderPaused
  | recordFinalise source => exact effect_write _ fate .finalised
  | removeSource source => exact effect_write _ fate .unpublished
  | _ => exact .none

/-! ## One table at a time -/

/-- What a request can do to `mm_streams`. -/
inductive StreamsChange (s : BroadcastState) : BroadcastRequest → StreamTable → Prop where
  | kept {q : BroadcastRequest} : StreamsChange s q s.content.streams
  | inserted {id host : String} {room : Int} {sfuRoom : Option String} {min : Option Int} (fresh : s.content.streams[id]? = none)
      (found : (s.content.rooms[room]?).isSome) : StreamsChange s (.content (.insertStream id room host sfuRoom min))
        (s.content.streams.insert id ⟨room, host, .active, sfuRoom, s.content.utcNow, min⟩)
  | ended {id : String} : StreamsChange s (.endStreamIfActive id) (Streams.endStreamIfActive s.content.streams id).1

theorem Effect.streams (h : s.Effect q s') : s.StreamsChange q s'.content.streams := by
  cases h with
  | content effect =>
    cases effect with
    | stream fresh found => exact .inserted fresh found
    | _ => exact .kept
  | ended => exact .ended
  | key =>
    unfold setStreamKey
    split <;> exact .kept
  | _ => exact .kept

/-- Rooms are only added, under the next id. -/
theorem Effect.rooms (h : s.Effect q s') :
    (s'.content.rooms = s.content.rooms ∧ s'.content.nextRoomId = s.content.nextRoomId) ∨
      ∃ row, s'.content.rooms = s.content.rooms.insert s.content.nextRoomId row ∧ s'.content.nextRoomId = s.content.nextRoomId + 1 := by
  cases h with
  | content effect =>
    cases effect with
    | room row => exact .inr ⟨row, rfl, rfl⟩
    | _ => exact .inl ⟨rfl, rfl⟩
  | key =>
    unfold setStreamKey
    split <;> exact .inl ⟨rfl, rfl⟩
  | _ => exact .inl ⟨rfl, rfl⟩

theorem status_eq {id x} (hx : s.content.streams[id]? = some x) : s.status id = some x.status := by
  unfold status
  rw [hx]
  rfl

theorem status_ended {id : String} {x : Stream} :
    status { s with content := { s.content with streams := s.content.streams.insert id { x with status := .ended } } } id = some .ended := by
  unfold status
  rw [Table.getElem?_insert, if_pos rfl]
  rfl

/-- An end moves an active row and leaves an ended one. -/
theorem request_endStreamIfActive {id x} (hx : s.content.streams[id]? = some x) :
    (x.status = .active ∧ s.request (.endStreamIfActive id) .served =
      ({ s with content := { s.content with streams := s.content.streams.insert id { x with status := .ended } } }, .ok true)) ∨
    (x.status = .ended ∧ s.request (.endStreamIfActive id) .served = (s, .ok false)) := by
  cases hstatus : x.status with
  | active =>
    have hending : Streams.endStreamIfActive s.content.streams id = (s.content.streams.insert id { x with status := .ended }, true) := by
      simp only [Streams.endStreamIfActive, hx, hstatus, if_true]
    refine .inl ⟨rfl, ?_⟩
    simp only [request, hending]
    rfl
  | ended =>
    have hending : Streams.endStreamIfActive s.content.streams id = (s.content.streams, false) := by
      simp [Streams.endStreamIfActive, hx, hstatus]
    refine .inr ⟨rfl, ?_⟩
    simp only [request, hending]
    rfl

theorem mem_openIds {id r} :
    r ∈ s.openIds id ↔ ∃ row, s.content.recordings[r]? = some row ∧ isOpen row = true ∧ row.streamId = id := by
  simp [openIds, recordingsOf, and_assoc]

theorem getElem?_updateRecordings (f : Recording → Recording) (r : String) :
    (s.updateRecordings f).content.recordings[r]? = (s.content.recordings[r]?).map f :=
  TreeMap.getElem?_map

/-- No row of the stream is open afterwards. -/
theorem openIds_markReady {id} (withhold : Bool) : (s.updateRecordings (markReady id withhold)).openIds id = [] := by
  refine List.eq_nil_iff_forall_not_mem.mpr fun r hr => ?_
  obtain ⟨row, hrow, hopen, hid⟩ := mem_openIds.mp hr
  rw [getElem?_updateRecordings, Option.map_eq_some_iff] at hrow
  obtain ⟨old, -, rfl⟩ := hrow
  unfold markReady at hopen hid
  split at hopen
  · simp [isOpen] at hopen
  · rename_i hnot
    rw [if_neg hnot] at hid
    exact hnot ⟨hid, hopen⟩

end BroadcastState

end MatrixMedia.Broadcast
