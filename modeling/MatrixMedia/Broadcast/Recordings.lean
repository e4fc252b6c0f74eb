import MatrixMedia.Broadcast.Calls

/-!
# Recordings that are finished

`start_recording` looks for an open recording and later sets it to `recording`;
`stop_recording` looks for one that runs and later pauses it by its egress id; neither statement
looks at the status again, and the end of the stream closes all of them in between.
`finished_stays` needs that a start overlaps no stop and no end, a stop no end, that no recording is
finished by egress id during a start, and that the calls are served. `paused_after_end` is a run
of a stop and an end.
-/

namespace MatrixMedia.Broadcast
open Lib Lib.Interaction Lib.Text Api BroadcastState Multiset Paywall Table
open Std (TreeMap)
open Streams (Stream StreamStatus RecordingRelease switchSourceId)
open Paywall (ContentRequest ContentAction Recording RecordingStatus)

/-- The egress id of the rows of a stream that the switch records. -/
def switchEgress (id : String) : String := "mm-switch:" ++ switchSourceId id

def ofSwitch (egress : String) : Bool := startsWith "mm-switch:" egress

/-- Ready or deleted. -/
def Final (r : Recording) : Prop := r.status = .ready ∨ r.status = .deleted

/-- Rows that are ready or deleted keep their status. -/
def KeepsFinal (s s' : BroadcastState) : Prop :=
  ∀ (r : String) (row : Recording), s.content.recordings[r]? = some row → Final row →
    ∃ row' : Recording, s'.content.recordings[r]? = some row' ∧ row'.status = row.status

theorem final_not_open {r} (h : Final r) : isOpen r = false := by
  rcases h with h | h <;> simp [isOpen, h]

theorem KeepsFinal.refl (s : BroadcastState) : KeepsFinal s s := fun _ row hrow _ => ⟨row, hrow, rfl⟩

theorem KeepsFinal.trans {s s' s''} (h : KeepsFinal s s') (h' : KeepsFinal s' s'') : KeepsFinal s s'' := by
  intro r row hrow hfinal
  obtain ⟨row', hrow', heq⟩ := h r row hrow hfinal
  obtain ⟨row'', hrow'', heq'⟩ := h' r row' hrow' (by unfold Final; rwa [heq])
  exact ⟨row'', hrow'', heq'.trans heq⟩

theorem KeepsFinal.of_eq {s s' : BroadcastState} (h : s'.content.recordings = s.content.recordings) : KeepsFinal s s' :=
  fun _ row hrow _ => ⟨row, h ▸ hrow, rfl⟩

/-- What finished rows keep true. -/
def Lasting (Past : BroadcastState → Prop) : Prop := ∀ s s', KeepsFinal s s' → Past s → Past s'

/-! ## Stages -/

/-- The request touches no stream, no recording row and starts no recorder. -/
def RowFree : BroadcastRequest → Prop
  | .content (.insertStream ..) | .content (.resumeRecording _) | .content (.insertRecording ..)
  | .content (.recordStartOrResume _ _) | .endStreamIfActive _ | .markRecordingsReady _ _ | .pauseRecordings _ | .finishRecordings _ _ => False
  | _ => True

/-- What a start does besides: a recorder, or a row of the switch under its one id, or one of an
egress. -/
inductive StartCall (id : String) : BroadcastRequest → Prop where
  | free {q : BroadcastRequest} (h : RowFree q) : StartCall id q
  | recorder {recording : String} : StartCall id (.content (.recordStartOrResume (switchSourceId id) recording))
  | row {recording host key egress : String} {room : Int} {min : Option Int}
      (h : (egress = switchEgress id ∧ recording = id ++ "_rec1") ∨ ofSwitch egress = false) :
      StartCall id (.content (.insertRecording recording id room host key egress min))

/-- The same, and it resumes this recording. -/
def ResumesRow (id recording : String) (q : BroadcastRequest) : Prop := StartCall id q ∨ q = .content (.resumeRecording recording)

/-- What a stop does once it has found an egress. -/
inductive StopCall (egress : String) : BroadcastRequest → Prop where
  | free {q : BroadcastRequest} (h : RowFree q) : StopCall egress q
  | pause (h : ofSwitch egress = true) : StopCall egress (.pauseRecordings egress)
  | finish (h : ofSwitch egress = false) : StopCall egress (.finishRecordings egress false)

def WatchCall (egress : String) (q : BroadcastRequest) : Prop := RowFree q ∨ q = .finishRecordings egress true

inductive Filming where
  | idle
  /-- A start that has not read the row. -/
  | asked
  | active
  /-- A start with the recording that it resumes. -/
  | found (recording : String)
  /-- A stop that has not looked for a recording. -/
  | stopAsked
  | stopping (egress : String)
  | watching (egress : String)
  | ending
  /-- An end that has closed the recorder. -/
  | finalised
  /-- And the rows. -/
  | closed

section
variable (id : String)

section
variable (p : Action BroadcastOutcome)

/-- A start looks for an open recording next. -/
def AtInFlight : Prop :=
  ∃ next, p = .call (.content (.inFlightRecording id)) next ∧ (∀ r, (next (.ok (some r))).Uses (ResumesRow id r)) ∧
    (next (.ok none)).Uses (StartCall id) ∧ ∀ e, (next (.error e)).Uses RowFree

def ActiveTail : Prop := p.Leads RowFree fun p => AtInFlight id p ∨ p.Uses (StartCall id)

/-- An end moves the row next. -/
def AtMove : Prop := ∃ next, p = .call (.endStreamIfActive id) next ∧ ∀ r, (next r).Uses RowFree

/-- An end closes the rows next. -/
def AtRows : Prop :=
  ∃ withhold next, p = .call (.markRecordingsReady id withhold) next ∧ ∀ r, (next r).Leads RowFree (AtMove id)

/-- An end closes the recorder next. -/
def AtRecorder : Prop :=
  ∃ next, p = .call (.recordFinalise (switchSourceId id)) next ∧ ∀ r, (next r).Leads RowFree (AtRows id)

def Filming.Stands : Filming → Prop
  | .idle => p.Uses RowFree
  | .asked => ∃ next, p = .call (.content (.getStream id)) next ∧
      ∀ r, (next r).Uses RowFree ∨ ∃ x, r = .ok (some x) ∧ x.status = .active ∧ ActiveTail id (next r)
  | .active => ActiveTail id p
  | .found recording => p.Uses (ResumesRow id recording)
  | .stopAsked => p.Leads RowFree fun p => p.Uses RowFree ∨ ∃ next, p = .call (.activeEgress id) next ∧
      (∀ egress, (next (.ok (some egress))).Uses (StopCall egress)) ∧ (next (.ok none)).Uses RowFree ∧ ∀ e, (next (.error e)).Uses RowFree
  | .stopping egress => p.Uses (StopCall egress)
  | .watching egress => p.Uses (WatchCall egress)
  | .ending => p.Leads RowFree fun p => p.Uses RowFree ∨ AtRecorder id p
  | .finalised => p.Leads RowFree (AtRows id)
  | .closed => p.Leads RowFree (AtMove id)

end

end

/-! ## What the stages mean for the tables -/

/-- The stream that a job starts to record. -/
def BroadcastJob.records : BroadcastJob → Option String
  | .startRecording _ _ id _ => some id
  | _ => none

/-- The stream whose recording a job stops. -/
def BroadcastJob.stops : BroadcastJob → Option String
  | .stopRecording _ _ id => some id
  | _ => none

/-- A start with a stop or an end, or a stop with an end. -/
def Conflicts (k k' : BroadcastJob) : Prop :=
  (k.records.isSome ∧ (k'.stops.isSome ∨ k'.ends.isSome)) ∨ (k.stops.isSome ∧ k'.ends.isSome)

instance decidableConflicts (k k' : BroadcastJob) : Decidable (Conflicts k k') := instDecidableOr

/-- A recording of the stream with this egress id; it is open, or was finished by its egress. -/
def BroadcastState.Held (s : BroadcastState) (id egress : String) : Prop :=
  ∃ (r : String) (row : Recording), s.content.recordings[r]? = some row ∧ row.streamId = id ∧ row.egressId = egress ∧
    (isOpen row = true ∨ (ofSwitch egress = false ∧ row.status = .ready))

def Filming.Ok (id : String) (s : BroadcastState) (k : BroadcastJob) : Filming → Prop
  | .active => k.records.isSome ∧ s.status id = some .active
  | .found recording => k.records.isSome ∧ s.status id = some .active ∧ recording ∈ s.openIds id
  | .asked => k.records.isSome
  | .stopAsked => k.stops.isSome
  | .stopping egress => k.stops.isSome ∧ s.Held id egress
  | .watching egress => ofSwitch egress = false
  | .ending => k.ends.isSome
  | .finalised => k.ends.isSome ∧ s.recorders[switchSourceId id]? = none
  | .closed => k.ends.isSome ∧ s.recorders[switchSourceId id]? = none ∧ s.openIds id = []
  | .idle => True

/-- The rows of the table, and what an ended stream has left. -/
structure RowsOk (id : String) (s : BroadcastState) : Prop where
  egresses : ∀ (r r' : String) (row row' : Recording), s.content.recordings[r]? = some row → s.content.recordings[r']? = some row' →
    row.egressId = row'.egressId → r = r'
  switchRow : ∀ (r : String) (row : Recording), s.content.recordings[r]? = some row → row.egressId = switchEgress id → r = id ++ "_rec1"
  clean : s.status id = some .ended → s.openIds id = [] ∧ s.recorders[switchSourceId id]? = none

structure FilmInv (id : String) (Past : BroadcastState → Prop) (s : BroadcastState) (notes : Multiset (BroadcastJob × Filming)) : Prop where
  past : Past s
  rows : RowsOk id s
  apart : ∀ n ∈ notes, ∀ n' ∈ notes, ¬Conflicts n.1 n'.1
  stages : ∀ n ∈ notes, n.2.Ok id s n.1

/-! ## What keeps it -/

structure SameFilms (s s' : BroadcastState) : Prop where
  streams : s'.content.streams = s.content.streams
  recordings : s'.content.recordings = s.content.recordings
  recorders : ∀ source : String, s.recorders[source]? = none → s'.recorders[source]? = none

theorem sameFilms_of_free {s s' : BroadcastState} {q} (heffect : s.Effect q s') (hq : RowFree q) : SameFilms s s' := by
  cases heffect with
  | content effect =>
    cases effect with
    | stream | resumed | recording => exact hq.elim
    | _ => exact ⟨rfl, rfl, fun _ h => h⟩
  | recorderResumed | recorderStarted | ended | ready | paused | finished => exact hq.elim
  | key =>
    unfold setStreamKey
    split <;> exact ⟨rfl, rfl, fun _ h => h⟩
  | recorderPaused =>
    refine ⟨rfl, rfl, fun source h => ?_⟩
    rw [getElem?_modify]
    split
    · rw [h]
      rfl
    · exact h
  | finalised =>
    refine ⟨rfl, rfl, fun source h => ?_⟩
    rw [getElem?_erase]
    split
    · rfl
    · exact h
  | _ => exact ⟨rfl, rfl, fun _ h => h⟩

section
variable {id : String} {Past : BroadcastState → Prop} {s s' : BroadcastState} {notes : Multiset (BroadcastJob × Filming)} {k k' : BroadcastJob}
  {t t' : Filming}

section
variable (h : FilmInv id Past s ((k, t) ::ₘ notes))
include h

/-- One job acts and the stages of the others hold on. -/
theorem FilmInv.step (hPast : Lasting Past) (hkeeps : KeepsFinal s s') (hrows : RowsOk id s') (hstage : t'.Ok id s' k)
    (hothers : ∀ n ∈ notes, n.2.Ok id s n.1 → n.2.Ok id s' n.1) : FilmInv id Past s' ((k, t') ::ₘ notes) := by
  obtain ⟨-, hstages⟩ := forall_mem_cons.mp h.stages
  -- conflicts are between jobs, and the jobs are the same
  exact ⟨hPast _ _ hkeeps h.past, hrows, by simpa using h.apart, forall_mem_cons.mpr ⟨hstage, fun n hn => hothers n hn (hstages n hn)⟩⟩

theorem FilmInv.stage : t.Ok id s k := h.stages _ (mem_cons_self _ _)

theorem FilmInv.conflict {n} (hn : n ∈ notes) :
    ¬Conflicts k n.1 ∧ ¬Conflicts n.1 k :=
  ⟨h.apart _ (mem_cons_self _ _) _ (mem_cons_of_mem hn), h.apart _ (mem_cons_of_mem hn) _ (mem_cons_self _ _)⟩

end

/-! ### Nothing of the recordings changes -/

theorem SameFilms.status (hs : SameFilms s s') : s'.status id = s.status id := by
  unfold BroadcastState.status
  rw [hs.streams]

theorem SameFilms.openIds (hs : SameFilms s s') : s'.openIds id = s.openIds id := by
  unfold BroadcastState.openIds BroadcastState.recordingsOf
  rw [hs.recordings]

theorem RowsOk.same (h : RowsOk id s) (hs : SameFilms s s') : RowsOk id s' := by
  refine ⟨?_, ?_, fun hended => ?_⟩
  · rw [hs.recordings]
    exact h.egresses
  · rw [hs.recordings]
    exact h.switchRow
  · rw [hs.status] at hended
    obtain ⟨hopen, hrecorder⟩ := h.clean hended
    exact ⟨hs.openIds.trans hopen, hs.recorders _ hrecorder⟩

theorem Filming.Ok.same (h : t.Ok id s k) (hs : SameFilms s s') : t.Ok id s' k := by
  cases t with
  | active => exact ⟨h.1, hs.status.trans h.2⟩
  | found recording => exact ⟨h.1, hs.status.trans h.2.1, hs.openIds ▸ h.2.2⟩
  | stopping egress =>
    refine ⟨h.1, ?_⟩
    unfold BroadcastState.Held
    rw [hs.recordings]
    exact h.2
  | finalised => exact ⟨h.1, hs.recorders _ h.2⟩
  | closed => exact ⟨h.1, hs.recorders _ h.2.1, hs.openIds.trans h.2.2⟩
  | idle | asked | stopAsked | watching | ending => exact h

/-! ### A start -/

/-- What a start does leaves the stream live and open rows open; stops and ends are not there. -/
theorem Filming.Ok.started (h : t.Ok id s k') (hk : k.records.isSome) (hapart : ¬Conflicts k k') (hstatus : s'.status id = s.status id)
    (hopen : ∀ r ∈ s.openIds id, r ∈ s'.openIds id) : t.Ok id s' k' := by
  cases t with
  | active => exact ⟨h.1, hstatus.trans h.2⟩
  | found recording => exact ⟨h.1, hstatus.trans h.2.1, hopen _ h.2.2⟩
  | stopping egress => exact absurd (.inl ⟨hk, .inl h.1⟩) hapart
  | finalised | closed => exact absurd (.inl ⟨hk, .inr h.1⟩) hapart
  | idle | asked | stopAsked | watching | ending => exact h

theorem clean_of_active (hactive : s.status id = some .active) : s.status id = some .ended → s.openIds id = [] ∧ s.recorders[switchSourceId id]? = none := by
  intro hended
  cases hactive.symm.trans hended

variable {guarded : Bool} {recording egress : String} {row : Recording} {q : BroadcastRequest} {f : Recording → Recording}

/-- A new row keeps the others. -/
theorem openIds_insert {rows : TreeMap String Recording} (hrecordings : s'.content.recordings = rows.insert recording row)
    (hold : s.content.recordings = rows) (hfresh : rows[recording]? = none) : ∀ r ∈ s.openIds id, r ∈ s'.openIds id := by
  intro r hr
  obtain ⟨old, hrow, hopen, hid⟩ := mem_openIds.mp hr
  refine mem_openIds.mpr ⟨old, ?_, hopen, hid⟩
  rw [hrecordings, getElem?_insert, if_neg]
  · rwa [← hold]
  · rintro rfl
    rw [hold, hfresh] at hrow
    cases hrow

theorem RowsOk.insert (h : RowsOk id s) (hrecordings : s'.content.recordings = s.content.recordings.insert recording row)
    (hactive : s'.status id = some .active) (hfresh : ∀ (r : String) (old : Recording), s.content.recordings[r]? = some old → old.egressId ≠ row.egressId)
    (hswitch : row.egressId = switchEgress id → recording = id ++ "_rec1") : RowsOk id s' := by
  have hread : ∀ (r : String) (x : Recording), s'.content.recordings[r]? = some x → (r = recording ∧ x = row) ∨ s.content.recordings[r]? = some x := by
    intro r x hx
    rw [hrecordings, getElem?_insert] at hx
    split at hx
    · rename_i heq
      exact .inl ⟨heq.symm, (Option.some.inj hx).symm⟩
    · exact .inr hx
  refine ⟨fun r r' x x' hx hx' heq => ?_, fun r x hx heq => ?_, clean_of_active hactive⟩
  · rcases hread r x hx with ⟨rfl, rfl⟩ | hx <;> rcases hread r' x' hx' with ⟨rfl, rfl⟩ | hx'
    · rfl
    · exact absurd heq.symm (hfresh r' x' hx')
    · exact absurd heq (hfresh r x hx)
    · exact h.egresses r r' x x' hx hx' heq
  · rcases hread r x hx with ⟨rfl, rfl⟩ | hx
    · exact hswitch heq
    · exact h.switchRow r x hx heq

theorem keepsFinal_insert (hrecordings : s'.content.recordings = s.content.recordings.insert recording row)
    (hfresh : s.content.recordings[recording]? = none) : KeepsFinal s s' := by
  intro r x hx hfinal
  refine ⟨x, ?_, rfl⟩
  rw [hrecordings, getElem?_insert, if_neg]
  · exact hx
  · rintro rfl
    cases hfresh.symm.trans hx

/-! ### Updates of the rows -/

/-- An update of the rows that leaves their egress ids. -/
theorem RowsOk.update (h : RowsOk id s) (hf : ∀ r, (f r).egressId = r.egressId)
    (hclean : s.status id = some .ended → (s.updateRecordings f).openIds id = [] ∧ s.recorders[switchSourceId id]? = none) :
    RowsOk id (s.updateRecordings f) := by
  refine ⟨fun r r' x x' hx hx' heq => ?_, fun r x hx heq => ?_, hclean⟩
  · rw [getElem?_updateRecordings, Option.map_eq_some_iff] at hx hx'
    obtain ⟨old, hold, rfl⟩ := hx
    obtain ⟨old', hold', rfl⟩ := hx'
    rw [hf, hf] at heq
    exact h.egresses r r' old old' hold hold' heq
  · rw [getElem?_updateRecordings, Option.map_eq_some_iff] at hx
    obtain ⟨old, hold, rfl⟩ := hx
    exact h.switchRow r old hold ((hf old).symm.trans heq)

theorem keepsFinal_update
    (hf : ∀ (r : String) (row : Recording), s.content.recordings[r]? = some row → Final row → (f row).status = row.status) :
    KeepsFinal s (s.updateRecordings f) := by
  intro r row hrow hfinal
  exact ⟨f row, by rw [getElem?_updateRecordings, hrow]; rfl, hf r row hrow hfinal⟩

theorem setByEgress_egressId (egress : String) (guarded : Bool) (status : RecordingStatus) (r : Recording) :
    (setByEgress egress guarded status r).egressId = r.egressId := by
  unfold setByEgress
  split <;> rfl

theorem setByEgress_streamId (egress : String) (guarded : Bool) (status : RecordingStatus) (r : Recording) :
    (setByEgress egress guarded status r).streamId = r.streamId := by
  unfold setByEgress
  split <;> rfl

/-- Rows that an update leaves or finishes. -/
theorem openIds_update (hid : ∀ r, (f r).streamId = r.streamId) (hf : ∀ r, isOpen (f r) = true → isOpen r = true) :
    ∀ r ∈ (s.updateRecordings f).openIds id, r ∈ s.openIds id := by
  intro r hr
  obtain ⟨row, hrow, hopen, hstream⟩ := mem_openIds.mp hr
  rw [getElem?_updateRecordings, Option.map_eq_some_iff] at hrow
  obtain ⟨old, hold, rfl⟩ := hrow
  exact mem_openIds.mpr ⟨old, hold, hf old hopen, (hid old).symm.trans hstream⟩

theorem isOpen_finish {r}
    (h : isOpen (setByEgress egress guarded .ready r) = true) : isOpen r = true := by
  unfold setByEgress at h
  split at h
  · simp [isOpen] at h
  · exact h

theorem openIds_nil_of_subset {s s' : BroadcastState} (h : ∀ r ∈ s'.openIds id, r ∈ s.openIds id) (hnil : s.openIds id = []) : s'.openIds id = [] :=
  List.subset_nil.mp fun r hr => hnil ▸ h r hr

/-- A recording that a stop holds is paused or finished by another call, each by its own egress. -/
theorem BroadcastState.Held.setByEgress {egress' status} (h : s.Held id egress)
    (hstatus : status = .paused ∨ (status = .ready ∧ ofSwitch egress' = false)) :
    (s.updateRecordings (setByEgress egress' guarded status)).Held id egress := by
  obtain ⟨r, row, hrow, hid, heq, hcase⟩ := h
  refine ⟨r, BroadcastState.setByEgress egress' guarded status row, by rw [BroadcastState.getElem?_updateRecordings, hrow]; rfl,
    (setByEgress_streamId _ _ _ _).trans hid, (setByEgress_egressId _ _ _ _).trans heq, ?_⟩
  unfold BroadcastState.setByEgress
  split
  · rename_i hset
    rcases hstatus with rfl | ⟨rfl, hegress⟩
    · exact .inl (by simp [isOpen])
    · refine .inr ⟨?_, rfl⟩
      rwa [← heq, hset.1]
  · exact hcase

/-- Two jobs by egress id; starts are not there, nor ends when rows are paused. -/
theorem Filming.Ok.setByEgress {status} (h : t.Ok id s k') (hstart : k'.records = none)
    (hstatus : (status = .paused ∧ k'.ends = none) ∨ (status = .ready ∧ ofSwitch egress = false)) :
    t.Ok id (s.updateRecordings (setByEgress egress guarded status)) k' := by
  have hstarts : ¬k'.records.isSome := by simp [hstart]
  cases t with
  | active | found => exact absurd h.1 hstarts
  | stopping egress' => exact ⟨h.1, h.2.setByEgress (hstatus.imp_left And.left)⟩
  | closed =>
    rcases hstatus with ⟨rfl, hends⟩ | ⟨rfl, -⟩
    · exact absurd h.1 (by simp [hends])
    · exact ⟨h.1, h.2.1, openIds_nil_of_subset (openIds_update (setByEgress_streamId _ _ _) fun _ => isOpen_finish) h.2.2⟩
  | idle | asked | stopAsked | watching | ending | finalised => exact h

theorem clean_finish (h : RowsOk id s) (egress : String) (guarded : Bool) (hended : s.status id = some .ended) :
    (s.updateRecordings (setByEgress egress guarded .ready)).openIds id = [] ∧ s.recorders[switchSourceId id]? = none :=
  ⟨openIds_nil_of_subset (openIds_update (setByEgress_streamId _ _ _) fun _ => isOpen_finish) (h.clean hended).1, (h.clean hended).2⟩

/-- Starts and stops are not there while an end acts. -/
theorem Filming.Ok.ended (h : t.Ok id s k') (hk : k.ends.isSome) (hapart : ¬Conflicts k' k)
    (hrecorder : s.recorders[switchSourceId id]? = none → s'.recorders[switchSourceId id]? = none)
    (hopen : s.openIds id = [] → s'.openIds id = []) : t.Ok id s' k' := by
  cases t with
  | active | found => exact absurd (.inl ⟨h.1, .inr hk⟩) hapart
  | stopping => exact absurd (.inr ⟨h.1, hk⟩) hapart
  | finalised => exact ⟨h.1, hrecorder h.2⟩
  | closed => exact ⟨h.1, hrecorder h.2.1, hopen h.2.2⟩
  | idle | asked | stopAsked | watching | ending => exact h

theorem mem_inFlight {c : ContentState} (h : c.inFlightRecording id = some recording) :
    ∃ row, c.recordings[recording]? = some row ∧ isOpen row = true ∧ row.streamId = id := by
  obtain ⟨x, hx, rfl⟩ := Option.map_eq_some_iff.mp h
  have hmem := List.mem_of_mem_head? hx
  rw [ContentState.sortRecordings, (List.perm_insertionSort _ _).mem_iff, List.mem_filter] at hmem
  obtain ⟨hrow, hcond⟩ := hmem
  refine ⟨x.2, mem_toList.mp hrow, ?_⟩
  simpa [isOpen, and_comm] using hcond

theorem row_of_activeEgress {fate} (h : (s.request (.activeEgress id) fate).2 = .ok (some egress)) :
    ∃ (r : String) (row : Recording), s.content.recordings[r]? = some row ∧ row.streamId = id ∧ row.egressId = egress ∧ isOpen row = true := by
  have heq := Except.ok.inj (CallFate.answer_eq_ok.mp h).2
  obtain ⟨x, hx, rfl⟩ := Option.map_eq_some_iff.mp heq
  have hmem := List.mem_of_mem_head? hx
  rw [ContentState.sortRecordings, (List.perm_insertionSort _ _).mem_iff, List.mem_filter, recordingsOf, List.mem_filter] at hmem
  obtain ⟨⟨hrow, hid⟩, hstatus⟩ := hmem
  exact ⟨x.1, x.2, mem_toList.mp hrow, of_decide_eq_true hid, rfl, by simpa [isOpen] using Or.inl (of_decide_eq_true hstatus)⟩

/-! ## Steps -/

section
variable (hPast : Lasting Past)
include hPast

/-- A request that leaves the recordings alone. -/
theorem FilmInv.quiet (h : FilmInv id Past s ((k, t) ::ₘ notes)) (hs : SameFilms s s')
    (hstage : t'.Ok id s' k) : FilmInv id Past s' ((k, t') ::ₘ notes) :=
  h.step hPast (.of_eq hs.recordings) (h.rows.same hs) hstage fun _ _ hok => hok.same hs

/-! ### Starts -/

theorem FilmInv.startCall (h : FilmInv id Past s ((k, t) ::ₘ notes)) (hk : k.records.isSome)
    (hactive : s.status id = some .active) (hq : StartCall id q)
    (hfresh : ∀ egress ∈ q.inserts, ofSwitch egress = false → ∀ (r : String) (row : Recording), s.content.recordings[r]? = some row → row.egressId ≠ egress)
    (heffect : s.Effect q s') : FilmInv id Past s' ((k, t) ::ₘ notes) := by
  have hself : ¬Conflicts k k := h.apart _ (mem_cons_self _ _) _ (mem_cons_self _ _)
  cases hq with
  | free hq =>
    have hs := sameFilms_of_free heffect hq
    exact h.quiet hPast hs (h.stage.same hs)
  | recorder =>
    -- a recorder of a live stream: no end relies on its absence
    have hrecorder : ∀ s', s'.content = s.content → FilmInv id Past s' ((k, t) ::ₘ notes) := by
      intro s' hcontent
      have hstatus : s'.status id = s.status id := by
        unfold status
        rw [hcontent]
      have hopen : ∀ r ∈ s.openIds id, r ∈ s'.openIds id := by
        unfold openIds recordingsOf
        rw [hcontent]
        exact fun _ hr => hr
      exact h.step hPast (.of_eq (by rw [hcontent]))
        ⟨by rw [hcontent]; exact h.rows.egresses, by rw [hcontent]; exact h.rows.switchRow, clean_of_active (hstatus.trans hactive)⟩
        (h.stage.started hk hself hstatus hopen) fun n hn hok => hok.started hk (h.conflict hn).1 hstatus hopen
    cases heffect with
    | none => exact h
    | content effect =>
      cases effect with
      | none => exact h
    | recorderResumed | recorderStarted => exact hrecorder _ rfl
  | row hrow =>
    rename_i recording host key egress room min
    cases heffect with
    | none => exact h
    | content effect =>
      cases effect with
      | none => exact h
      | recording fresh =>
        have hopen : ∀ r ∈ s.openIds id, r ∈ openIds { s with content := { s.content with
            recordings := s.content.recordings.insert recording (.started id room host key egress s.content.utcNow min) } } id :=
          openIds_insert rfl rfl fresh
        have hegress : ∀ (r : String) (old : Recording), s.content.recordings[r]? = some old → old.egressId ≠ egress := by
          intro r old hold heq
          rcases hrow with ⟨rfl, rfl⟩ | hswitch
          · rw [h.rows.switchRow r old hold heq, fresh] at hold
            cases hold
          · exact hfresh egress rfl hswitch r old hold heq
        have hswitch : egress = switchEgress id → recording = id ++ "_rec1" := by
          rintro rfl
          rcases hrow with ⟨-, heq⟩ | hnot
          · exact heq
          · simp [ofSwitch, switchEgress, startsWith_append] at hnot
        exact h.step hPast (keepsFinal_insert rfl fresh) (h.rows.insert rfl hactive hegress hswitch)
          (h.stage.started hk hself rfl hopen) fun n hn hok => hok.started hk (h.conflict hn).1 rfl hopen

/-- The recording that a start has found is still open when it is resumed. -/
theorem FilmInv.resume
    (h : FilmInv id Past s ((k, .found recording) ::ₘ notes)) (heffect : s.Effect (.content (.resumeRecording recording)) s') :
    FilmInv id Past s' ((k, .found recording) ::ₘ notes) := by
  obtain ⟨hk, hactive, hmem⟩ := h.stage
  have hself : ¬Conflicts k k := h.apart _ (mem_cons_self _ _) _ (mem_cons_self _ _)
  cases heffect with
  | none => exact h
  | content effect =>
    cases effect with
    | none => exact h
    | resumed =>
      have hread : ∀ (r : String) (x : Recording), (s.content.recordings.modify recording fun r => { r with status := .recording })[r]? = some x →
          ∃ old, s.content.recordings[r]? = some old ∧ old.egressId = x.egressId := by
        intro r x hx
        rw [getElem?_modify] at hx
        split at hx
        · obtain ⟨old, hold, rfl⟩ := Option.map_eq_some_iff.mp hx
          exact ⟨old, hold, rfl⟩
        · exact ⟨x, hx, rfl⟩
      have hopen : ∀ r ∈ s.openIds id, r ∈ openIds { s with content := { s.content with
          recordings := s.content.recordings.modify recording fun r => { r with status := .recording } } } id := by
        intro r hr
        obtain ⟨old, hold, hopen, hid⟩ := mem_openIds.mp hr
        refine mem_openIds.mpr ?_
        rw [getElem?_modify, hold]
        split
        · exact ⟨_, rfl, by simp [isOpen], hid⟩
        · exact ⟨old, rfl, hopen, hid⟩
      refine h.step hPast (fun r row hrow hfinal => ⟨row, ?_, rfl⟩)
        ⟨fun r r' x x' hx hx' heq => ?_, fun r x hx heq => ?_, clean_of_active hactive⟩ (h.stage.started hk hself rfl hopen)
        fun n hn hok => hok.started hk (h.conflict hn).1 rfl hopen
      · rw [getElem?_modify, if_neg]
        · exact hrow
        · rintro rfl
          obtain ⟨old, hold, hopen, -⟩ := mem_openIds.mp hmem
          cases hrow.symm.trans hold
          rw [final_not_open hfinal] at hopen
          cases hopen
      · obtain ⟨old, hold, heq₁⟩ := hread r x hx
        obtain ⟨old', hold', heq₂⟩ := hread r' x' hx'
        exact h.rows.egresses r r' old old' hold hold' (heq₁.trans (heq.trans heq₂.symm))
      · obtain ⟨old, hold, heq₁⟩ := hread r x hx
        exact h.rows.switchRow r old hold (heq₁.trans heq)

/-! ### Stops and watchdogs -/

/-- A stop writes what it found. -/
theorem FilmInv.stopCall
    (h : FilmInv id Past s ((k, .stopping egress) ::ₘ notes)) (hq : StopCall egress q) (heffect : s.Effect q s') :
    FilmInv id Past s' ((k, .stopping egress) ::ₘ notes) := by
  obtain ⟨hk, hheld⟩ := h.stage
  have hothers : ∀ n ∈ notes, n.1.records = none ∧ n.1.ends = none := by
    intro n hn
    obtain ⟨hends, hstarts⟩ := h.conflict hn
    exact ⟨Option.not_isSome_iff_eq_none.mp fun hn => hstarts (.inl ⟨hn, .inl hk⟩),
      Option.not_isSome_iff_eq_none.mp fun hn => hends (.inr ⟨hk, hn⟩)⟩
  -- the one row with this egress id
  obtain ⟨r, row, hrow, hid, heq, hcase⟩ := hheld
  cases hq with
  | free hq =>
    have hs := sameFilms_of_free heffect hq
    exact h.quiet hPast hs (h.stage.same hs)
  | pause hswitch =>
    have hopen : isOpen row = true := by
      rcases hcase with hopen | ⟨hnot, -⟩
      · exact hopen
      · rw [hswitch] at hnot
        cases hnot
    cases heffect with
    | none => exact h
    | paused =>
      refine h.step hPast (keepsFinal_update fun r' row' hrow' hfinal => ?_)
        (h.rows.update (setByEgress_egressId _ _ _) fun hended => ?_)
        ⟨hk, h.stage.2.setByEgress (.inl rfl)⟩ fun n hn hok => hok.setByEgress (hothers n hn).1 (.inl ⟨rfl, (hothers n hn).2⟩)
      · unfold setByEgress
        rw [if_neg]
        rintro ⟨hegress, -⟩
        obtain rfl := h.rows.egresses r' r row' row hrow' hrow (hegress.trans heq.symm)
        cases hrow'.symm.trans hrow
        rw [final_not_open hfinal] at hopen
        cases hopen
      · have hmem := mem_openIds.mpr ⟨row, hrow, hopen, hid⟩
        rw [(h.rows.clean hended).1] at hmem
        exact absurd hmem List.not_mem_nil
  | finish hswitch =>
    cases heffect with
    | none => exact h
    | finished =>
      refine h.step hPast (keepsFinal_update fun r' row' hrow' hfinal => ?_)
        (h.rows.update (setByEgress_egressId _ _ _) (clean_finish h.rows egress false))
        ⟨hk, h.stage.2.setByEgress (.inr ⟨rfl, hswitch⟩)⟩ fun n hn hok => hok.setByEgress (hothers n hn).1 (.inr ⟨rfl, hswitch⟩)
      unfold setByEgress
      split
      · rename_i hset
        obtain rfl := h.rows.egresses r' r row' row hrow' hrow (hset.1.trans heq.symm)
        cases hrow'.symm.trans hrow
        rcases hcase with hopen | ⟨-, hready⟩
        · rw [final_not_open hfinal] at hopen
          cases hopen
        · exact hready.symm
      · rfl

/-- A watchdog finishes a recording only while it runs. -/
theorem FilmInv.watchCall
    (h : FilmInv id Past s ((k, .watching egress) ::ₘ notes)) (hq : WatchCall egress q)
    (hstarts : q.finishes.isSome → ∀ n ∈ notes, n.1.records = none) (heffect : s.Effect q s') :
    FilmInv id Past s' ((k, .watching egress) ::ₘ notes) := by
  rcases hq with hq | rfl
  · have hs := sameFilms_of_free heffect hq
    exact h.quiet hPast hs (h.stage.same hs)
  · cases heffect with
    | none => exact h
    | finished =>
      refine h.step hPast (keepsFinal_update fun r' row' hrow' hfinal => ?_)
        (h.rows.update (setByEgress_egressId _ _ _) (clean_finish h.rows egress true)) h.stage
        fun n hn hok => hok.setByEgress (hstarts rfl n hn) (.inr ⟨rfl, h.stage⟩)
      unfold setByEgress
      rw [if_neg]
      rintro ⟨-, hguard⟩
      rcases hfinal with heq | heq <;> exact absurd (hguard rfl) (by simp [heq])

/-! ### Ends -/

theorem FilmInv.finalise (h : FilmInv id Past s ((k, .ending) ::ₘ notes)) :
    FilmInv id Past (s.request (.recordFinalise (switchSourceId id)) .served).1 ((k, .finalised) ::ₘ notes) := by
  have hs : SameFilms s (s.request (.recordFinalise (switchSourceId id)) .served).1 := sameFilms_of_free (s.request_effect _ _) trivial
  refine h.quiet hPast hs ⟨h.stage, ?_⟩
  show (s.recorders.erase (switchSourceId id))[switchSourceId id]? = none
  rw [getElem?_erase, if_pos rfl]

theorem FilmInv.closeRows (h : FilmInv id Past s ((k, .finalised) ::ₘ notes))
    (withhold : Bool) : FilmInv id Past (s.request (.markRecordingsReady id withhold) .served).1 ((k, .closed) ::ₘ notes) := by
  obtain ⟨hk, hrecorder⟩ := h.stage
  have hnil : (s.updateRecordings (markReady id withhold)).openIds id = [] := openIds_markReady withhold
  refine h.step hPast (keepsFinal_update fun r row hrow hfinal => ?_) (h.rows.update (fun r => ?_) fun _ => ⟨hnil, hrecorder⟩)
    ⟨hk, hrecorder, hnil⟩ fun n hn hok => hok.ended hk (h.conflict hn).2 (fun hr => hr) fun _ => hnil
  · unfold markReady
    rw [if_neg (by simp [final_not_open hfinal])]
  · unfold markReady
    split <;> rfl

theorem FilmInv.moveRow (h : FilmInv id Past s ((k, .closed) ::ₘ notes)) (heffect : s.Effect (.endStreamIfActive id) s') :
    FilmInv id Past s' ((k, .idle) ::ₘ notes) := by
  obtain ⟨hk, hrecorder, hnil⟩ := h.stage
  cases heffect with
  | none => exact h.step hPast (.refl _) h.rows trivial fun n hn hok => hok
  | ended =>
    exact h.step hPast (.of_eq rfl) ⟨h.rows.egresses, h.rows.switchRow, fun _ => ⟨hnil, hrecorder⟩⟩ trivial
      fun n hn hok => hok.ended hk (h.conflict hn).2 (fun hr => hr) fun hr => hr

/-! ### Any of them -/

/-- **One step of one job.** -/
theorem FilmInv.request {next}
    (h : FilmInv id Past s ((k, t) ::ₘ notes)) (hstands : t.Stands id (.call q next))
    (hfresh : ∀ egress ∈ q.inserts, ofSwitch egress = false → ∀ (r : String) (row : Recording), s.content.recordings[r]? = some row → row.egressId ≠ egress)
    (hstarts : q.finishes.isSome → ∀ n ∈ notes, n.1.records = none) :
    ∃ t' : Filming, t'.Stands id (next (s.request q .served).2) ∧ FilmInv id Past (s.request q .served).1 ((k, t') ::ₘ notes) := by
  have hfree : RowFree q → ∀ {t' : Filming}, t'.Ok id s k → FilmInv id Past (s.request q .served).1 ((k, t') ::ₘ notes) := by
    intro hq t' hok
    have hs : SameFilms s (s.request q .served).1 := sameFilms_of_free (s.request_effect q .served) hq
    exact h.quiet hPast hs (hok.same hs)
  cases t with
  | idle => exact ⟨.idle, hstands.2 _, hfree hstands.1 trivial⟩
  | asked =>
    obtain ⟨next', heq, hnext⟩ := hstands
    cases heq
    rcases hnext (s.request (.content (.getStream id)) .served).2 with huses | ⟨x, hreply, hactive, htail⟩
    · exact ⟨.idle, huses, hfree trivial trivial⟩
    · exact ⟨.active, htail, hfree trivial ⟨h.stage, hactive ▸ status_eq (Except.ok.inj hreply)⟩⟩
  | active =>
    obtain ⟨hk, hactive⟩ := h.stage
    cases hstands with
    | call hq hnext => exact ⟨.active, hnext _, hfree hq h.stage⟩
    | here hat =>
      rcases hat with ⟨next', heq, hsome, hnone, -⟩ | huses
      · cases heq
        cases hfound : s.content.inFlightRecording id with
        | none =>
          have hreply : (s.request (.content (.inFlightRecording id)) .served).2 = .ok none := congrArg Except.ok hfound
          rw [hreply]
          exact ⟨.active, .here (.inr hnone), hfree trivial h.stage⟩
        | some recording =>
          have hreply : (s.request (.content (.inFlightRecording id)) .served).2 = .ok (some recording) := congrArg Except.ok hfound
          rw [hreply]
          exact ⟨.found recording, hsome recording, hfree trivial ⟨hk, hactive, mem_openIds.mpr (mem_inFlight hfound)⟩⟩
      · exact ⟨.active, .here (.inr (huses.2 _)), h.startCall hPast hk hactive huses.1 hfresh (s.request_effect _ _)⟩
  | found recording =>
    obtain ⟨hk, hactive, -⟩ := h.stage
    refine ⟨.found recording, hstands.2 _, ?_⟩
    rcases hstands.1 with hq | rfl
    · exact h.startCall hPast hk hactive hq hfresh (s.request_effect _ _)
    · exact h.resume hPast (s.request_effect _ _)
  | stopAsked =>
    cases hstands with
    | call hq hnext => exact ⟨.stopAsked, hnext _, hfree hq h.stage⟩
    | here hat =>
      rcases hat with huses | ⟨next', heq, hsome, hnone, herror⟩
      · exact ⟨.idle, huses.2 _, hfree huses.1 trivial⟩
      · cases heq
        match hreply : (s.request (.activeEgress id) .served).2 with
        | .ok (some egress) =>
          obtain ⟨r, row, hrow, hid, hegress, hopen⟩ := row_of_activeEgress hreply
          exact ⟨.stopping egress, hsome egress, hfree trivial ⟨h.stage, r, row, hrow, hid, hegress, .inl hopen⟩⟩
        | .ok none => exact ⟨.idle, hnone, hfree trivial trivial⟩
        | .error e => exact ⟨.idle, herror e, hfree trivial trivial⟩
  | stopping egress => exact ⟨.stopping egress, hstands.2 _, h.stopCall hPast hstands.1 (s.request_effect _ _)⟩
  | watching egress => exact ⟨.watching egress, hstands.2 _, h.watchCall hPast hstands.1 hstarts (s.request_effect _ _)⟩
  | ending =>
    cases hstands with
    | call hq hnext => exact ⟨.ending, hnext _, hfree hq h.stage⟩
    | here hat =>
      rcases hat with huses | ⟨next', heq, hnext⟩
      · exact ⟨.idle, huses.2 _, hfree huses.1 trivial⟩
      · cases heq
        exact ⟨.finalised, hnext _, h.finalise hPast⟩
  | finalised =>
    cases hstands with
    | call hq hnext => exact ⟨.finalised, hnext _, hfree hq h.stage⟩
    | here hat =>
      obtain ⟨withhold, next', heq, hnext⟩ := hat
      cases heq
      exact ⟨.closed, hnext _, h.closeRows hPast withhold⟩
  | closed =>
    cases hstands with
    | call hq hnext => exact ⟨.closed, hnext _, hfree hq h.stage⟩
    | here hat =>
      obtain ⟨next', heq, hnext⟩ := hat
      cases heq
      exact ⟨.idle, hnext _, h.moveRow hPast (s.request_effect _ _)⟩

end

end

/-! ## The programs -/

section
variable {cfg : BroadcastConfig} {id user egressId : String}

/-- A part of `start_recording`, with its response. -/
def recordingResponse (p : ContentAction (Except MMError String)) : Action BroadcastOutcome := respond .recordingStarted (onContent p)

theorem recordingResponse_bind {α : Type} (p : ContentAction α) (f : α → ContentAction (Except MMError String)) :
    recordingResponse (p.bind f) = (onContent p).bind fun a => recordingResponse (f a) := by
  unfold recordingResponse respond onContent
  rw [Prog.via_bind, Prog.bind_assoc]

theorem recordingResponse_uses {P} {p : ContentAction (Except MMError String)} (h : p.Uses fun q => P (.content q)) :
    (recordingResponse p).Uses P :=
  uses_respond h.via

variable {egress : String} {stream : Stream}

theorem recordByEgress_uses {segment} (hegress : ofSwitch egressId = false) :
    (recordByEgress cfg.content id egressId stream segment).Uses fun q => StartCall id (.content q) := by
  refine ⟨.free trivial, fun r => uses_orError fun _ => ?_⟩
  split
  · refine ⟨.row (.inr hegress), fun r => uses_orError fun _ => ⟨.free trivial, fun r => ?_⟩⟩
    dsimp only
    split
    · exact ⟨.free trivial, fun _ => trivial⟩
    · trivial
  · trivial

theorem recordWithRetry_uses {recording} (retries : Nat) :
    (recordWithRetry (switchSourceId id) recording retries).Uses fun q => StartCall id (.content q) := by
  induction retries with
  | zero => exact ⟨.recorder, fun _ => trivial⟩
  | succ retries ih =>
    refine ⟨.recorder, fun r => ?_⟩
    cases r with
    | ok a => trivial
    | error e =>
      dsimp only
      split
      · exact ih
      · trivial

section
variable (hegress : ofSwitch egressId = false)
include hegress

/-- What follows once it is known which recording goes on, if any. -/
theorem recordFound_uses {segment : Nat} {P : BroadcastRequest → Prop}
    (hstart : ∀ q, StartCall id q → P q) (existing : Option String) (hresume : ∀ r ∈ existing, P (.content (.resumeRecording r))) :
    ((recordWithRetry (switchSourceId id) (existing.getD (id ++ "_rec1")) 4).bind fun result =>
      match result with
      | .ok () => storeSwitchRecording cfg.content id (existing.getD (id ++ "_rec1")) stream existing.isSome
      | .error e =>
        if notRegistered e then recordByEgress cfg.content id egressId stream segment
        else .ret (.error (.internal ("mm-switch record failed: " ++ e)))).Uses fun q => P (.content q) := by
  refine ((recordWithRetry_uses 4).mono fun q => hstart _).bind fun result => ?_
  cases result with
  | ok a =>
    dsimp only
    unfold storeSwitchRecording
    split
    · cases existing with
      | some r => exact ⟨hresume r rfl, fun _ => trivial⟩
      | none => exact ⟨hstart _ (.row (.inl ⟨rfl, rfl⟩)), fun r => uses_orError fun _ => trivial⟩
    · trivial
  | error e =>
    dsimp only
    split
    · exact (recordByEgress_uses hegress).mono fun q => hstart _
    · trivial

theorem recordAs_tail :
    ActiveTail id (recordingResponse (recordAs cfg.content id egressId stream)) := by
  unfold recordAs
  rw [recordingResponse_bind]
  refine .bind (Prog.Uses.via ?_) fun refused => ?_
  · unfold recordingRefusal
    split
    · exact ⟨trivial, fun _ => trivial⟩
    · trivial
  split
  · exact .here (.inr trivial)
  rw [recordingResponse_bind]
  refine .bind (Prog.Uses.via ?_) fun segment => ?_
  · unfold nextSegment
    split
    · exact ⟨trivial, fun _ => trivial⟩
    · trivial
  split
  · unfold recordBySwitch existingRecording
    split
    · refine .here (.inl ⟨_, rfl, fun r => ?_, ?_, fun e => trivial⟩)
      · exact recordingResponse_uses (recordFound_uses hegress (fun q => .inl) (some r) fun r' hr' => by cases hr'; exact .inr rfl)
      · exact recordingResponse_uses (recordFound_uses hegress (fun q hq => hq) none fun r hr => by cases hr)
    · exact .here (.inr (recordingResponse_uses (recordFound_uses hegress (fun q hq => hq) none fun r hr => by cases hr)))
  · exact .here (.inr (recordingResponse_uses (recordByEgress_uses hegress)))

end

/-- A start reads the stream, and goes on when the stream is the host's and active. -/
theorem startRecording_reads {F} {G : Action BroadcastOutcome → Prop}
    (tail : ∀ stream, G (recordingResponse (recordAs cfg.content id egressId stream))) :
    ∃ next, respond .recordingStarted (startRecording cfg user id egressId) = .call (.content (.getStream id)) next ∧
      ∀ r, (next r).Uses F ∨ ∃ x, r = .ok (some x) ∧ x.status = .active ∧ G (next r) := by
  refine ⟨_, rfl, fun r => ?_⟩
  match r with
  | .error e => exact .inl trivial
  | .ok none => exact .inl trivial
  | .ok (some x) =>
    by_cases hhost : x.hostUserId ≠ user
    · refine .inl ?_
      simp only [orDatabase, orError, if_pos hhost]
      trivial
    by_cases hactive : x.status = .active
    · refine .inr ⟨x, rfl, hactive, ?_⟩
      simp only [orDatabase, orError, if_neg hhost, hactive, ne_eq, not_true_eq_false, if_false]
      exact tail x
    · refine .inl ?_
      simp only [orDatabase, orError, if_neg hhost, ne_eq, hactive, not_false_eq_true, if_true]
      trivial

theorem stopByEgress_uses : (stopByEgress cfg egress).Uses (StopCall egress) := by
  unfold stopByEgress
  split
  · rename_i source hsource
    have hswitch : ofSwitch egress = true := startsWith_iff.mpr ⟨source, stripPrefix_eq_some.mp hsource⟩
    exact (uses_onSwitch (.free trivial)).bind fun _ => ⟨.pause hswitch, fun r => uses_orError fun _ => trivial⟩
  · rename_i hnone
    have hswitch : ofSwitch egress = false := by
      cases hcase : ofSwitch egress with
      | false => rfl
      | true =>
        obtain ⟨source, rfl⟩ := startsWith_iff.mp hcase
        rw [stripPrefix_eq_some.mpr rfl] at hnone
        cases hnone
    exact ⟨.free trivial, fun _ => ⟨.finish hswitch, fun r => uses_orError fun _ => trivial⟩⟩

theorem stopRecording_asks : Filming.stopAsked.Stands id (respond (fun _ => .recordingStopped) (stopRecording cfg user id)) := by
  refine .call trivial fun r => ?_
  match r with
  | .error e => exact .here (.inl trivial)
  | .ok none => exact .here (.inl trivial)
  | .ok (some row) =>
    dsimp only [orNotFound, orDatabase, orError]
    split
    · exact .here (.inl trivial)
    split
    · refine .here (.inr ⟨_, rfl, fun egress => uses_respond stopByEgress_uses, trivial, fun e => trivial⟩)
    · exact .here (.inl trivial)

theorem watchdogStopRecording_uses : (watchdogStopRecording cfg egress).Uses (WatchCall egress) := by
  refine ⟨.inl trivial, fun _ => ?_⟩
  dsimp only
  split
  · exact ⟨.inr rfl, fun _ => trivial⟩
  · trivial

theorem recordingWatchdog_uses {sfuRoom} (checks : List Nat) (since : Option Nat) :
    (recordingWatchdog cfg id egress sfuRoom since checks).Uses (WatchCall egress) := by
  induction checks generalizing since with
  | nil => trivial
  | cons now checks ih =>
    refine Prog.Uses.bind ?_ fun still => ?_
    · unfold stillRecording
      split
      · exact ⟨.inl trivial, fun _ => trivial⟩
      · trivial
    split
    · refine ⟨.inl trivial, fun r => ?_⟩
      dsimp only
      split
      · refine ⟨.inl trivial, fun r => ?_⟩
        dsimp only
        split
        · exact ih none
        split
        · exact watchdogStopRecording_uses
        · exact ih _
      · exact watchdogStopRecording_uses
    · trivial

theorem afterCall_free (q : BroadcastRequest) (h : AfterCall id q) : RowFree q := by
  cases h <;> trivial

/-- An end, with a pool and a switch. -/
theorem endAndFinaliseStream_closes (hpool : cfg.content.pgPool = true) (hswitch : cfg.content.originSwitch = true) {row release reason} :
    (respond .ended (endAndFinaliseStream cfg id row release reason)).Leads RowFree fun p => p.Uses RowFree ∨ AtRecorder id p := by
  have hmove : ∀ withheld, (respond .ended (transition cfg id row release reason withheld)).Leads RowFree (AtMove id) := by
    intro withheld
    refine .here ⟨_, rfl, fun r => uses_respond (uses_orError fun moved => ?_)⟩
    split
    · exact (afterEnd_uses.mono afterCall_free).bind fun _ => trivial
    · trivial
  simp only [respond, endAndFinaliseStream, releaseMedia, Prog.bind_assoc] at hmove ⊢
  refine .bind (cleanupEgresses_uses trivial fun _ _ => trivial) fun _ => ?_
  rw [onSwitch, if_pos hswitch]
  refine .here (.inr ⟨_, rfl, fun _ => ?_⟩)
  dsimp only [Prog.bind]
  rw [finishRows, if_pos hpool]
  refine .here ⟨_, _, rfl, fun r => ?_⟩
  rw [Prog.bind_assoc]
  refine .bind (uses_onSwitch trivial) fun _ => ?_
  dsimp only [Prog.bind]
  exact .bind (uses_onSwitch trivial) fun _ => .bind (deleteRoom_uses fun _ => trivial) fun _ => hmove _

/-- A start, a stop, a watchdog or an end of the stream. Egresses of the SFU have their own ids. -/
def BroadcastJob.OnRecordings (id : String) : BroadcastJob → Prop
  | .startRecording _ _ id' egress => id' = id ∧ ofSwitch egress = false
  | .stopRecording _ _ id' | .endStream _ _ id' | .stopStream _ id' _ _ => id' = id
  | .recordingWatchdog _ id' egress _ _ => id' = id ∧ ofSwitch egress = false
  | _ => False

theorem film_stands (hpool : cfg.content.pgPool = true) (hswitch : cfg.content.originSwitch = true) {k : BroadcastJob} (hk : k.OnRecordings id)
    (s : BroadcastState) : ∃ t : Filming, t.Stands id (k.program cfg) ∧ t.Ok id s k := by
  cases k with
  | startRecording n user id' egress =>
    obtain ⟨rfl, hegress⟩ := hk
    exact ⟨.asked, startRecording_reads fun _ => recordAs_tail hegress, rfl⟩
  | stopRecording n user id' =>
    obtain rfl : id' = id := hk
    exact ⟨.stopAsked, stopRecording_asks, rfl⟩
  | recordingWatchdog n id' egress sfuRoom checks =>
    obtain ⟨rfl, hegress⟩ := hk
    exact ⟨.watching egress, (recordingWatchdog_uses checks none).bind fun _ => trivial, hegress⟩
  | endStream n user id' =>
    obtain rfl : id' = id := hk
    exact ⟨.ending, ends_leads rfl trivial (fun _ => .inl trivial) fun _ _ => endAndFinaliseStream_closes hpool hswitch, rfl⟩
  | stopStream n id' release reason =>
    obtain rfl : id' = id := hk
    exact ⟨.ending, ends_leads rfl trivial (fun _ => .inl trivial) fun _ _ => endAndFinaliseStream_closes hpool hswitch, rfl⟩
  | _ => exact hk.elim

/-! ## Runs -/

/-- The stream is recorded and ended, by calls that succeed. The SFU gives each egress its own id. -/
def FilmRuns (id : String) (pool : BroadcastPool) : BroadcastEvent → Prop
  | .start k => k.OnRecordings id
  | .request place fate => fate = .served ∧ ∀ egress ∈ (pool.next? place).bind BroadcastRequest.inserts, ofSwitch egress = false →
      ∀ x ∈ pool.state.content.recordings.toList, x.2.egressId ≠ egress
  | .move _ => True
  | .die => False

/-- A start overlaps no stop and no end, a stop overlaps no end, and no recording is finished by its
egress id during a start. -/
def FilmsApart (pool : BroadcastPool) : BroadcastEvent → Prop
  | .start k => ∀ x ∈ pool.running, ¬Conflicts k x.1 ∧ ¬Conflicts x.1 k
  | .request place _ => ((pool.next? place).bind BroadcastRequest.finishes).isSome → ∀ x ∈ pool.running, x.1.records = none
  | _ => True

instance decidableOnRecordings (id : String) (k : BroadcastJob) : Decidable (k.OnRecordings id) := by
  unfold BroadcastJob.OnRecordings
  cases k <;> infer_instance

instance decidableFilmRuns (id : String) (pool : BroadcastPool) : (e : BroadcastEvent) → Decidable (FilmRuns id pool e)
  | .start k => inferInstanceAs (Decidable (k.OnRecordings id))
  | .request _ _ => instDecidableAnd
  | .move _ => isTrue trivial
  | .die => isFalse not_false

instance decidableFilmsApart (pool : BroadcastPool) : (e : BroadcastEvent) → Decidable (FilmsApart pool e)
  | .start _ => inferInstanceAs (Decidable (∀ x ∈ pool.running, _))
  | .request .. => inferInstanceAs (Decidable (_ → _))
  | .move _ | .die => isTrue trivial

theorem no_self_conflict (k : BroadcastJob) : ¬Conflicts k k := by
  cases k <;> simp [Conflicts, BroadcastJob.records, BroadcastJob.stops, BroadcastJob.ends]

/-- The stages of the starts, stops, watchdogs and ends in flight. -/
def filmOutline (cfg : BroadcastConfig) (hpool : cfg.content.pgPool = true) (hswitch : cfg.content.originSwitch = true) (id : String)
    (Past : BroadcastState → Prop) (hPast : ∀ s s', KeepsFinal s s' → Past s → Past s') :
    Outline broadcastService (BroadcastJob.program cfg) (fun pool e => FilmRuns id pool e ∧ FilmsApart pool e) Filming where
  stands := fun _ p t => t.Stands id p
  inv := fun s _ notes => FilmInv id Past s notes
  start := by
    intro pool k notes hinv hjobs hok
    obtain ⟨t, hstands, hstage⟩ : ∃ t : Filming, t.Stands id (k.program cfg) ∧ t.Ok id pool.state k := film_stands hpool hswitch hok.1 pool.state
    have hother : ∀ n ∈ notes, ¬Conflicts k n.1 ∧ ¬Conflicts n.1 k := by
      intro n hn
      obtain ⟨x, hx, heq⟩ := Outline.mem_running hjobs hn
      rw [← heq]
      exact hok.2 x hx
    refine ⟨t, hstands, hinv.past, hinv.rows, forall_mem_cons.mpr ⟨forall_mem_cons.mpr ⟨no_self_conflict k, ?_⟩, ?_⟩,
      forall_mem_cons.mpr ⟨hstage, hinv.stages⟩⟩
    · exact fun n hn => (hother n hn).1
    · exact fun n hn => forall_mem_cons.mpr ⟨(hother n hn).2, hinv.apart n hn⟩
  request := by
    intro pool place k q next fate t notes hstands hinv hjobs hplace hok
    obtain ⟨⟨rfl, hfresh⟩, hstarts⟩ := hok
    have hq : pool.next? place = some q := by simp only [Pool.next?, hplace]
    rw [hq] at hfresh
    refine hinv.request hPast hstands (fun egress hegress hsfu r row hrow => ?_) fun hfinish n hn => ?_
    · exact hfresh egress hegress hsfu (r, row) (mem_toList.mpr hrow)
    · obtain ⟨x, hx, heq⟩ := Outline.mem_running hjobs (mem_cons_of_mem hn)
      rw [← heq]
      exact hstarts (by rw [hq]; exact hfinish) x hx
  finish := by
    intro s returned k a t notes hstands hinv
    exact ⟨hinv.past, hinv.rows, fun n hn n' hn' => hinv.apart n (mem_cons_of_mem hn) n' (mem_cons_of_mem hn'),
      fun n hn => hinv.stages n (mem_cons_of_mem hn)⟩
  move := by
    intro pool m notes hinv hok
    have hs : SameFilms pool.state (pool.state.move m) := by cases m <;> exact ⟨rfl, rfl, fun _ h => h⟩
    exact ⟨hPast _ _ (.of_eq hs.recordings) hinv.past, hinv.rows.same hs, hinv.apart, fun n hn => (hinv.stages n hn).same hs⟩
  die := by
    intro pool notes hinv hok
    exact hok.1.elim

/-- **A finished recording stays finished**: a row that is ready or deleted at one point of a run has
that status at every later point, and an ended stream has no open row and no recorder once no
handler is in flight. The handlers that overlap are those of `FilmsApart`. -/
theorem finished_stays (cfg : BroadcastConfig) (hpool : cfg.content.pgPool = true) (hswitch : cfg.content.originSwitch = true) (id : String)
    (s₀ : BroadcastState) (hstart : RowsOk id s₀) (h₁ h₂ : List BroadcastEvent) (pool₁ pool₂ : BroadcastPool)
    (run₁ : Run (broadcastStep cfg) (fun _ pool e => FilmRuns id pool e ∧ FilmsApart pool e) ⟨s₀, [], []⟩ h₁ pool₁)
    (run₂ : Run (broadcastStep cfg) (fun _ pool e => FilmRuns id pool e ∧ FilmsApart pool e) pool₁ h₂ pool₂) :
    KeepsFinal pool₁.state pool₂.state ∧
    (pool₂.state.status id = some .ended → pool₂.running = [] →
      pool₂.state.openIds id = [] ∧ pool₂.state.recorders[switchSourceId id]? = none) := by
  have hinit : FilmInv id (fun _ => True) s₀ 0 :=
    ⟨trivial, hstart, fun _ hn => absurd hn (notMem_zero _), fun _ hn => absurd hn (notMem_zero _)⟩
  obtain ⟨notes, hnotes, hstands, hinv⟩ :=
    (Outline.sound_start (O := filmOutline cfg hpool hswitch id (fun _ => True) fun _ _ _ _ => trivial) hinit).run run₁
  -- from here on, with what was finished then
  have hmiddle : (filmOutline cfg hpool hswitch id (KeepsFinal pool₁.state) fun _ _ hkeeps hpast => hpast.trans hkeeps).Sound pool₁ :=
    ⟨notes, hnotes, hstands, .refl _, hinv.rows, hinv.apart, hinv.stages⟩
  obtain ⟨_, -, -, hfinal⟩ := hmiddle.run run₂
  exact ⟨hfinal.past, fun hended _ => hfinal.rows.clean hended⟩

end

theorem recorded_rows : RowsOk "live" .recorded := by
  have hread : ∀ r row, recorded.content.recordings[r]? = some row → r = "live_rec1" := by
    intro r row hrow
    have hmem : r ∈ recorded.content.recordings.toList.map Prod.fst := List.mem_map.mpr ⟨_, mem_toList.mpr hrow, rfl⟩
    have hlist : recorded.content.recordings.toList.map Prod.fst = ["live_rec1"] := by decide +kernel
    rw [hlist] at hmem
    exact List.mem_singleton.mp hmem
  refine ⟨fun r r' row row' hrow hrow' _ => (hread r row hrow).trans (hread r' row' hrow').symm, fun r row hrow _ => ?_, fun hended => ?_⟩
  · rw [hread r row hrow]
    rfl
  · exact absurd hended (by decide +kernel)

/-- The recording is stopped and started again, and then the stream ends. -/
def stopStartEnd : List BroadcastEvent :=
  (.start (.stopRecording 1 "@alice" "live") :: List.replicate 4 (.request 0 .served) : List BroadcastEvent) ++
  (.start (.startRecording 2 "@alice" "live" "EG_1") :: List.replicate 6 (.request 0 .served) : List BroadcastEvent) ++
  (.start (.endStream 3 "@alice" "live") :: List.replicate 12 (.request 0 .served) : List BroadcastEvent)

/-- Then the host stops and ends once more. -/
def stopEndAgain : List BroadcastEvent := List.flatten
  [[.start (.stopRecording 4 "@alice" "live")], List.replicate 4 (.request 0 .served),
    [.start (.endStream 5 "@alice" "live")], List.replicate 12 (.request 0 .served)]

abbrev FilmRun : BroadcastPool → List BroadcastEvent → BroadcastPool → Prop :=
  Run (broadcastStep originConfig) fun _ pool e => FilmRuns "live" pool e ∧ FilmsApart pool e

theorem finished_stays_in_turn : ∃ h₁ h₂ pool₁ pool₂, FilmRun ⟨.recorded, [], []⟩ h₁ pool₁ ∧ FilmRun pool₁ h₂ pool₂ ∧
    KeepsFinal pool₁.state pool₂.state ∧ pool₂.returned.length = 5 ∧
    pool₂.state.openIds "live" = [] ∧ pool₂.state.recorders["stream-live"]? = none := by
  obtain ⟨h₁, pool₁, run₁, h₂, pool₂, run₂, hended, hquiet, hfive⟩ : ∃ h₁ pool₁, FilmRun ⟨.recorded, [], []⟩ h₁ pool₁ ∧ ∃ h₂ pool₂,
        FilmRun pool₁ h₂ pool₂ ∧ pool₂.state.status "live" = some .ended ∧ pool₂.running = [] ∧ pool₂.returned.length = 5 :=
    Run.exists_of_follows stopStartEnd ⟨by decide +kernel, Run.exists_of_follows stopEndAgain (by decide +kernel)⟩
  obtain ⟨hkeeps, hclean⟩ := finished_stays originConfig rfl rfl "live" _ recorded_rows _ _ _ _ run₁ run₂
  exact ⟨h₁, h₂, pool₁, pool₂, run₁, run₂, hkeeps, hfive, hclean hended hquiet⟩

/-- The stop has found the recording, and the whole end comes before its update. -/
def endWithinStop : List BroadcastEvent :=
  (.start (.stopRecording 1 "@alice" "live") :: List.replicate 2 (.request 0 .served) : List BroadcastEvent) ++
  (.start (.endStream 2 "@alice" "live") :: List.replicate 6 (.request 0 .served) : List BroadcastEvent)

/-- What is left of both. -/
def endWithinStopRest : List BroadcastEvent := List.replicate 8 (.request 0 .served)

/-- A recording that was ready is paused, in a stream that has ended. -/
theorem paused_after_end : ∃ s₀ h₁ h₂ pool₁ pool₂, RowsOk "live" s₀ ∧
    Run (broadcastStep originConfig) (fun _ pool e => FilmRuns "live" pool e) ⟨s₀, [], []⟩ h₁ pool₁ ∧
    Run (broadcastStep originConfig) (fun _ pool e => FilmRuns "live" pool e) pool₁ h₂ pool₂ ∧
    pool₂.state.status "live" = some .ended ∧ pool₂.running = [] ∧
    (∃ row : Recording, pool₁.state.content.recordings["live_rec1"]? = some row ∧ row.status = .ready) ∧
    ∃ row : Recording, pool₂.state.content.recordings["live_rec1"]? = some row ∧ row.status = .paused := by
  obtain ⟨h₁, pool₁, run₁, hready, h₂, pool₂, run₂, hended, hquiet, hpaused⟩ : ∃ h₁ pool₁,
      Run (broadcastStep originConfig) (fun _ pool e => FilmRuns "live" pool e) ⟨.recorded, [], []⟩ h₁ pool₁ ∧
      (pool₁.state.content.recordings["live_rec1"]?).map Recording.status = some .ready ∧ ∃ h₂ pool₂,
        Run (broadcastStep originConfig) (fun _ pool e => FilmRuns "live" pool e) pool₁ h₂ pool₂ ∧ pool₂.state.status "live" = some .ended ∧
        pool₂.running = [] ∧ (pool₂.state.content.recordings["live_rec1"]?).map Recording.status = some .paused :=
    Run.exists_of_follows endWithinStop ⟨by decide +kernel, by decide +kernel, Run.exists_of_follows endWithinStopRest (by decide +kernel)⟩
  exact ⟨_, h₁, h₂, pool₁, pool₂, recorded_rows, run₁, run₂, hended, hquiet, Option.map_eq_some_iff.mp hready,
    Option.map_eq_some_iff.mp hpaused⟩

end MatrixMedia.Broadcast
