import MatrixMedia.Broadcast.Recordings

/-!
# The files of recordings

`start_recording` names a recording that the switch makes `<stream>_rec1`, unless it finds an open
one. A recording that is closed is not found, so the next start takes the same name and the switch
truncates the file before the row is refused. `files_kept` needs that a stream is not recorded again
once its recording is closed, and that the calls are made one at a time and served;
`overwritten_after_finalise` is a run of a start, the ladder's finalise and a start.

A stream that only the switch records has one recording, in one of five phases.
-/

namespace MatrixMedia.Broadcast

open Lib Lib.Interaction Lib.Text Api BroadcastState Multiset Paywall Table

open Std (TreeMap)

open Streams (Stream StreamStatus RecordingRelease switchSourceId)

open Paywall (ContentRequest ContentAction Recording RecordingStatus)

/-- The id of the recording that the switch makes of a stream. -/
def switchRecording (id : String) : String := id ++ "_rec1"

section

variable (s : BroadcastState)

section

variable (id : String)

/-- What the recorder of the stream records. -/
def BroadcastState.recorderOf : Option String := (s.recorders[switchSourceId id]?).map Recorder.id

/-- The row of the recording, open or not. -/
def BroadcastState.HasRow (opened : Bool) : Prop :=
  ∃ row : Recording, s.content.recordings[switchRecording id]? = some row ∧ isOpen row = opened ∧ row.streamId = id ∧
    row.egressId = switchEgress id

inductive Phase where
  | unrecorded
  /-- The switch has its file, and it has no row yet. -/
  | filmed
  | running
  /-- The row is open and the recorder is gone. -/
  | released
  | closed

def BroadcastState.In : Phase → Prop
  | .unrecorded => s.content.recordings[switchRecording id]? = none ∧ recordingPath (switchRecording id) ∉ s.files ∧ s.recorderOf id = none
  | .filmed => s.content.recordings[switchRecording id]? = none ∧ recordingPath (switchRecording id) ∈ s.files ∧
      s.recorderOf id = some (switchRecording id)
  | .running => s.HasRow id true ∧ recordingPath (switchRecording id) ∈ s.files ∧ s.recorderOf id = some (switchRecording id)
  | .released => s.HasRow id true ∧ recordingPath (switchRecording id) ∈ s.files ∧ s.recorderOf id = none
  | .closed => s.HasRow id false ∧ recordingPath (switchRecording id) ∈ s.files ∧ s.recorderOf id = none

/-- The phases between two calls. -/
def BroadcastState.Quiet : Prop := s.In id .unrecorded ∨ s.In id .running ∨ s.In id .closed

/-- The phases where a start makes no second file. -/
def BroadcastState.Recordable : Prop := s.In id .unrecorded ∨ s.In id .running

/-- The phases without a recorder. -/
def BroadcastState.Silent : Prop := s.In id .unrecorded ∨ s.In id .released ∨ s.In id .closed

end

end

/-! ## Stages -/

/-- The request touches no recording row, no file, and no recorder but to pause it. -/
def FileFree : BroadcastRequest → Prop
  | .content (.resumeRecording _) | .content (.insertRecording ..) | .content (.recordStartOrResume _ _) | .markRecordingsReady _ _
  | .pauseRecordings _ | .finishRecordings _ _ | .recordFinalise _ => False
  | _ => True

/-- What a start reads on its way to the recording. -/
inductive LookCall : BroadcastRequest → Prop where
  | refusal {id : String} : LookCall (.content (.recordingRefusal id))
  | segment {id : String} : LookCall (.content (.countRecordings id))

section

variable (id : String)

def ReleaseCall (q : BroadcastRequest) : Prop := FileFree q ∨ q = .recordFinalise (switchSourceId id)

inductive Writing where
  | idle
  /-- A start that has not read the row. -/
  | asked
  | live
  | resuming
  | reopening
  | starting
  /-- A start with a new recorder. -/
  | storing
  | stopAsked
  | pausing
  | listing
  | ending
  /-- The recorder is closed. -/
  | releasing

section

variable (p : Action BroadcastOutcome)

/-- The row is set to `recording` next. -/
def AtReopen : Prop :=
  ∃ next, p = .call (.content (.resumeRecording (switchRecording id))) next ∧ ∀ r, (next r).Uses FileFree

/-- The row is inserted next. -/
def AtStore : Prop :=
  ∃ room host key min next, p = .call (.content (.insertRecording (switchRecording id) id room host key (switchEgress id) min)) next ∧
    ∀ r, (next r).Uses FileFree

/-- The switch is asked to record next. -/
def AtFilm (K : Action BroadcastOutcome → Prop) (p : Action BroadcastOutcome) : Prop :=
  ∃ next, p = .call (.content (.recordStartOrResume (switchSourceId id) (switchRecording id))) next ∧ K (next (.ok ()))

/-- A start looks for an open recording next. -/
def AtOpenRow : Prop :=
  ∃ next, p = .call (.content (.inFlightRecording id)) next ∧ AtFilm id (AtReopen id) (next (.ok (some (switchRecording id)))) ∧
    AtFilm id (AtStore id) (next (.ok none))

/-- The recording is paused next. -/
def AtPause : Prop := ∃ next, p = .call (.pauseRecordings (switchEgress id)) next ∧ ∀ r, (next r).Uses FileFree

/-- The rows are closed next. -/
def AtClose : Prop :=
  ∃ withhold next, p = .call (.markRecordingsReady id withhold) next ∧ ∀ r, (next r).Uses FileFree

/-- The recorder is closed next. -/
def AtRelease : Prop :=
  ∃ next, p = .call (.recordFinalise (switchSourceId id)) next ∧ ∀ r, (next r).Leads (ReleaseCall id) (AtClose id)

def Writing.Stands : Writing → Prop
  | .idle => p.Uses FileFree
  | .asked => ∃ next, p = .call (.content (.getStream id)) next ∧ ∀ r, (next r).Uses FileFree ∨
      ∃ x, r = .ok (some x) ∧ x.status = .active ∧ (next r).Leads LookCall fun p => AtOpenRow id p ∨ p.Uses FileFree
  | .live => p.Leads LookCall fun p => AtOpenRow id p ∨ p.Uses FileFree
  | .resuming => AtFilm id (AtReopen id) p
  | .reopening => AtReopen id p
  | .starting => AtFilm id (AtStore id) p
  | .storing => AtStore id p
  | .stopAsked => p.Leads FileFree fun p => p.Uses FileFree ∨ ∃ next, p = .call (.activeEgress id) next ∧
      (next (.ok (some (switchEgress id)))).Leads FileFree (AtPause id) ∧ (next (.ok none)).Uses FileFree
  | .pausing => p.Leads FileFree (AtPause id)
  | .listing => ∃ next, p = .call (.openEgresses id) next ∧ (next (.ok [])).Leads (ReleaseCall id) (AtClose id) ∧
      ∀ egresses, egresses ≠ [] → (∀ e ∈ egresses, e = switchEgress id) → AtRelease id (next (.ok egresses))
  | .ending => p.Leads FileFree fun p => p.Uses FileFree ∨ AtRelease id p
  | .releasing => p.Leads (ReleaseCall id) (AtClose id)

end

end

/-! ## What the stages mean for the recording -/

def Writing.Ok (id : String) (s : BroadcastState) : Writing → Prop
  | .idle | .stopAsked | .listing | .ending => s.Quiet id
  | .asked => s.Quiet id ∧ (s.status id = some .active → s.Recordable id ∧ switchSourceId id ∈ s.sources)
  | .live => s.Recordable id ∧ switchSourceId id ∈ s.sources
  | .starting => s.In id .unrecorded ∧ switchSourceId id ∈ s.sources
  | .storing => s.In id .filmed
  | .resuming | .reopening | .pausing => s.In id .running
  | .releasing => s.Silent id

/-- No file was created twice, and the stream has no other row. -/
structure FilesOk (id : String) (s : BroadcastState) : Prop where
  nodup : s.files.Nodup
  only : ∀ (r : String) (row : Recording), s.content.recordings[r]? = some row → row.streamId = id → r = switchRecording id

structure FilesInv (id : String) (s : BroadcastState) (notes : Multiset (BroadcastJob × Writing)) : Prop where
  files : FilesOk id s
  alone : notes.card ≤ 1
  quiet : notes = 0 → s.Quiet id
  stages : ∀ n ∈ notes, n.2.Ok id s

/-! ## What keeps it -/

structure SameFiles (id : String) (s s' : BroadcastState) : Prop where
  recordings : s'.content.recordings = s.content.recordings
  recorder : s'.recorderOf id = s.recorderOf id
  files : s'.files = s.files

theorem sameFiles_of_free {id} {s s' : BroadcastState} {q} (heffect : s.Effect q s') (hq : FileFree q) :
    SameFiles id s s' := by
  cases heffect with
  | content effect =>
    cases effect with
    | resumed | recording => exact hq.elim
    | _ => exact ⟨rfl, rfl, rfl⟩
  | recorderResumed | recorderStarted | ready | paused | finished | finalised => exact hq.elim
  | key =>
    unfold setStreamKey
    split <;> exact ⟨rfl, rfl, rfl⟩
  | recorderPaused =>
    refine ⟨rfl, ?_, rfl⟩
    unfold recorderOf
    rw [getElem?_modify]
    split
    · rw [Option.map_map]
      rfl
    · rfl
  | _ => exact ⟨rfl, rfl, rfl⟩

section

variable {id : String} {s s' : BroadcastState} {notes : Multiset (BroadcastJob × Writing)} {k : BroadcastJob} {t : Writing}

theorem BroadcastState.In.same {p} (h : s.In id p) (hs : SameFiles id s s') : s'.In id p := by
  cases p <;>
  · unfold In HasRow at *
    rwa [hs.recordings, hs.recorder, hs.files]

theorem BroadcastState.Quiet.same (h : s.Quiet id) (hs : SameFiles id s s') : s'.Quiet id :=
  h.imp (·.same hs) (Or.imp (·.same hs) (·.same hs))

theorem BroadcastState.Silent.same (h : s.Silent id) (hs : SameFiles id s s') : s'.Silent id :=
  h.imp (·.same hs) (Or.imp (·.same hs) (·.same hs))

theorem BroadcastState.Recordable.same (h : s.Recordable id) (hs : SameFiles id s s') : s'.Recordable id := h.imp (·.same hs) (·.same hs)

theorem BroadcastState.Recordable.quiet (h : s.Recordable id) : s.Quiet id := h.imp_right Or.inl

theorem FilesOk.same (h : FilesOk id s) (hs : SameFiles id s s') : FilesOk id s' :=
  ⟨hs.files ▸ h.nodup, fun r row hrow => h.only r row (hs.recordings ▸ hrow)⟩

/-- Time passes; sources are only added. -/
theorem Writing.Ok.moved (h : t.Ok id s) (hs : SameFiles id s s') (hstatus : s'.status id = s.status id)
    (hsources : switchSourceId id ∈ s.sources → switchSourceId id ∈ s'.sources) : t.Ok id s' := by
  cases t with
  | idle | stopAsked | listing | ending => exact Quiet.same h hs
  | asked => exact ⟨h.1.same hs, fun hactive => (h.2 (hstatus ▸ hactive)).imp (·.same hs) hsources⟩
  | live | starting => exact ⟨h.1.same hs, hsources h.2⟩
  | storing => exact In.same (p := .filmed) h hs
  | resuming | reopening | pausing => exact In.same (p := .running) h hs
  | releasing => exact Silent.same h hs

theorem FilesInv.stage (h : FilesInv id s ((k, t) ::ₘ notes)) : t.Ok id s := h.stages _ (mem_cons_self _ _)

/-- The one job in flight acts. -/
theorem FilesInv.restage (h : FilesInv id s ((k, t) ::ₘ notes)) (t' : Writing) (hfiles : FilesOk id s') (hstage : t'.Ok id s') :
    FilesInv id s' ((k, t') ::ₘ notes) := by
  obtain rfl := eq_zero_of_card_cons h.alone
  exact ⟨hfiles, h.alone, fun hzero => absurd hzero (cons_ne_zero), forall_mem_cons.mpr
    ⟨hstage, fun _ hn => absurd hn (notMem_zero _)⟩⟩

/-! ### Steps of the recording -/

/-- The stream has no recording but this one. -/
theorem FilesOk.row_of_open (h : FilesOk id s) {r row} (hrow : s.content.recordings[r]? = some row)
    (hid : row.streamId = id) (hopen : isOpen row = true) (hquiet : s.Quiet id) :
    r = switchRecording id ∧ row.egressId = switchEgress id ∧ s.In id .running := by
  obtain rfl := h.only r row hrow hid
  rcases hquiet with ⟨hnone, -⟩ | hrunning | ⟨⟨row', hrow', hclosed, -⟩, -⟩
  · cases hnone.symm.trans hrow
  · have hhas : s.HasRow id true := hrunning.1
    obtain ⟨row', hrow', -, -, hegress⟩ := hhas
    cases hrow'.symm.trans hrow
    exact ⟨rfl, hegress, hrunning⟩
  · cases hrow'.symm.trans hrow
    rw [hopen] at hclosed
    cases hclosed

/-- A row that is updated is a row of the same stream. -/
theorem FilesOk.update {f} (h : FilesOk id s) (hf : ∀ r, (f r).streamId = r.streamId) : FilesOk id (s.updateRecordings f) := by
  refine ⟨h.nodup, fun r row hrow hid => ?_⟩
  rw [getElem?_updateRecordings, Option.map_eq_some_iff] at hrow
  obtain ⟨old, hold, rfl⟩ := hrow
  exact h.only r old hold ((hf old).symm.trans hid)

theorem BroadcastState.HasRow.update {f opened opened'} (h : s.HasRow id opened)
    (hid : ∀ r, (f r).streamId = r.streamId) (hegress : ∀ r, (f r).egressId = r.egressId)
    (hopen : ∀ r, r.streamId = id → isOpen r = opened → isOpen (f r) = opened') : (s.updateRecordings f).HasRow id opened' := by
  obtain ⟨row, hrow, hopened, hstream, heq⟩ := h
  exact ⟨f row, by rw [getElem?_updateRecordings, hrow]; rfl, hopen row hstream hopened, (hid row).trans hstream,
    (hegress row).trans heq⟩

theorem isOpen_pause {egress r} (h : isOpen r = true) :
    isOpen (setByEgress egress false .paused r) = true := by
  unfold setByEgress
  split
  · simp [isOpen]
  · exact h

/-- The request leaves the recording in this phase. -/
abbrev BroadcastState.Leaves (s : BroadcastState) (q : BroadcastRequest) (id : String) (p : Phase) : Prop :=
  FilesOk id (s.request q .served).1 ∧ (s.request q .served).1.In id p

theorem switchRecording_ne_empty : switchRecording id ≠ "" := by
  intro h
  have := congrArg String.length h
  simp [switchRecording] at this

section
variable (hfiles : FilesOk id s)
include hfiles

theorem pause_running {egress} (h : s.In id .running) : s.Leaves (.pauseRecordings egress) id .running :=
  ⟨hfiles.update (setByEgress_streamId _ _ _),
    h.1.update (setByEgress_streamId _ _ _) (setByEgress_egressId _ _ _) fun _ _ => isOpen_pause, h.2⟩

theorem reopen_running (h : s.In id .running) : s.Leaves (.content (.resumeRecording (switchRecording id))) id .running := by
  obtain ⟨⟨row, hrow, -, hid, hegress⟩, hrest⟩ := h
  have hread : ∀ r, (s.request (.content (.resumeRecording (switchRecording id))) .served).1.content.recordings[r]? =
      if switchRecording id = r then (s.content.recordings[r]?).map fun x => { x with status := .recording } else s.content.recordings[r]? :=
    fun r => getElem?_modify _ _ _ _
  refine ⟨⟨hfiles.nodup, fun r x hx hstream => ?_⟩, ⟨{ row with status := .recording }, ?_, by simp [isOpen], hid, hegress⟩, hrest⟩
  · rw [hread] at hx
    split at hx
    · rename_i heq
      exact heq.symm
    · exact hfiles.only r x hx hstream
  · rw [hread, if_pos rfl, hrow]
    rfl

/-- A recorder that is there goes on. -/
theorem film_running (h : s.In id .running) :
    (s.request (.content (.recordStartOrResume (switchSourceId id) (switchRecording id))) .served).2 = .ok () ∧
    s.Leaves (.content (.recordStartOrResume (switchSourceId id) (switchRecording id))) id .running := by
  obtain ⟨hrow, hpath, hrecorder⟩ := h
  obtain ⟨recorder, hfound, hname⟩ := Option.map_eq_some_iff.mp hrecorder
  have hstart : s.startRecorder (switchSourceId id) (switchRecording id) =
      .ok ({ s with recorders := s.recorders.insert (switchSourceId id) { recorder with state := .active } }, ()) := by
    unfold startRecorder
    rw [hfound]
  simp only [Leaves, request, contentRequest, hstart]
  refine ⟨rfl, ⟨hfiles.nodup, hfiles.only⟩, hrow, hpath, ?_⟩
  show ((s.recorders.insert (switchSourceId id) { recorder with state := .active })[switchSourceId id]?).map Recorder.id = _
  rw [getElem?_insert, if_pos rfl]
  exact congrArg some hname

/-- A new recorder creates a file that was not there. -/
theorem film_unrecorded (h : s.In id .unrecorded) (hsource : switchSourceId id ∈ s.sources) :
    (s.request (.content (.recordStartOrResume (switchSourceId id) (switchRecording id))) .served).2 = .ok () ∧
    s.Leaves (.content (.recordStartOrResume (switchSourceId id) (switchRecording id))) id .filmed := by
  obtain ⟨hrow, hpath, hrecorder⟩ := h
  have hstart : s.startRecorder (switchSourceId id) (switchRecording id) = .ok ({ s with
      recorders := s.recorders.insert (switchSourceId id) ⟨switchRecording id, recordingPath (switchRecording id), .active⟩
      files := recordingPath (switchRecording id) :: s.files }, ()) := by
    unfold startRecorder
    rw [Option.map_eq_none_iff.mp hrecorder]
    dsimp only
    rw [if_neg switchRecording_ne_empty, if_pos hsource]
  simp only [Leaves, request, contentRequest, hstart]
  refine ⟨rfl, ⟨List.nodup_cons.mpr ⟨hpath, hfiles.nodup⟩, hfiles.only⟩, hrow, List.mem_cons_self, ?_⟩
  show ((s.recorders.insert (switchSourceId id) ⟨switchRecording id, _, .active⟩)[switchSourceId id]?).map Recorder.id = _
  rw [getElem?_insert, if_pos rfl]
  rfl

theorem store_filmed {room host key min} (h : s.In id .filmed) :
    s.Leaves (.content (.insertRecording (switchRecording id) id room host key (switchEgress id) min)) id .running := by
  obtain ⟨hnone, hrest⟩ := h
  have hread : ∀ r, (s.request (.content (.insertRecording (switchRecording id) id room host key (switchEgress id) min))
      .served).1.content.recordings[r]? = if switchRecording id = r then
        some (.started id room host key (switchEgress id) s.content.utcNow min) else s.content.recordings[r]? := by
    intro r
    simp only [request, contentRequest, ContentState.request, ContentState.insertRecording, hnone]
    exact getElem?_insert _ _ _ _
  refine ⟨⟨hfiles.nodup, fun r x hx hstream => ?_⟩, ⟨_, (hread _).trans (if_pos rfl), rfl, rfl, rfl⟩, hrest⟩
  rw [hread] at hx
  split at hx
  · rename_i heq
    exact heq.symm
  · exact hfiles.only r x hx hstream

/-- Once the recorder is closed nothing writes the file. -/
theorem release_silent (h : s.Quiet id ∨ s.Silent id) :
    FilesOk id (s.request (.recordFinalise (switchSourceId id)) .served).1 ∧
    (s.request (.recordFinalise (switchSourceId id)) .served).1.Silent id := by
  have hgone : (s.request (.recordFinalise (switchSourceId id)) .served).1.recorderOf id = none := by
    show ((s.recorders.erase (switchSourceId id))[switchSourceId id]?).map Recorder.id = none
    rw [getElem?_erase, if_pos rfl]
    rfl
  refine ⟨⟨hfiles.nodup, hfiles.only⟩, ?_⟩
  rcases h with (⟨hrow, hpath, -⟩ | ⟨hrow, hpath, -⟩ | ⟨hrow, hpath, -⟩) | ⟨hrow, hpath, -⟩ | ⟨hrow, hpath, -⟩ | ⟨hrow, hpath, -⟩
  · exact .inl ⟨hrow, hpath, hgone⟩
  · exact .inr (.inl ⟨hrow, hpath, hgone⟩)
  · exact .inr (.inr ⟨hrow, hpath, hgone⟩)
  · exact .inl ⟨hrow, hpath, hgone⟩
  · exact .inr (.inl ⟨hrow, hpath, hgone⟩)
  · exact .inr (.inr ⟨hrow, hpath, hgone⟩)

end

theorem markReady_streamId (withhold : Bool) (r : Recording) : (markReady id withhold r).streamId = r.streamId := by
  unfold markReady
  split <;> rfl

theorem markReady_egressId (withhold : Bool) (r : Recording) : (markReady id withhold r).egressId = r.egressId := by
  unfold markReady
  split <;> rfl

theorem isOpen_markReady {withhold} {r : Recording} (h : r.streamId = id) : isOpen (markReady id withhold r) = false := by
  unfold markReady
  split
  · simp [isOpen]
  · rename_i hnot
    exact Bool.eq_false_iff.mpr fun hopen => hnot ⟨h, hopen⟩

section

variable (hfiles : FilesOk id s)

include hfiles

theorem close_silent {withhold} (h : s.Silent id) :
    FilesOk id (s.request (.markRecordingsReady id withhold) .served).1 ∧ (s.request (.markRecordingsReady id withhold) .served).1.Quiet id := by
  have hclosed : ∀ opened, s.HasRow id opened → (s.updateRecordings (markReady id withhold)).HasRow id false :=
    fun _ hrow => hrow.update (markReady_streamId withhold) (markReady_egressId withhold) fun _ hid _ => isOpen_markReady hid
  refine ⟨hfiles.update (markReady_streamId withhold), ?_⟩
  rcases h with ⟨hrow, hrest⟩ | ⟨hrow, hrest⟩ | ⟨hrow, hrest⟩
  · refine .inl ⟨?_, hrest⟩
    show (s.updateRecordings (markReady id withhold)).content.recordings[switchRecording id]? = none
    rw [getElem?_updateRecordings, hrow]
    rfl
  · exact .inr (.inr ⟨hclosed _ hrow, hrest⟩)
  · exact .inr (.inr ⟨hclosed _ hrow, hrest⟩)

/-! ### What the reads find -/

theorem inFlight_unrecorded (h : s.In id .unrecorded) : s.content.inFlightRecording id = none := by
  cases hfound : s.content.inFlightRecording id with
  | none => rfl
  | some r =>
    obtain ⟨row, hrow, -, hid⟩ := mem_inFlight hfound
    obtain rfl := hfiles.only r row hrow hid
    cases h.1.symm.trans hrow

theorem inFlight_running (h : s.In id .running) : s.content.inFlightRecording id = some (switchRecording id) := by
  cases hfound : s.content.inFlightRecording id with
  | some r =>
    obtain ⟨row, hrow, -, hid⟩ := mem_inFlight hfound
    rw [hfiles.only r row hrow hid]
  | none =>
    obtain ⟨⟨row, hrow, hopen, hid, -⟩, -⟩ := h
    unfold ContentState.inFlightRecording at hfound
    rw [Option.map_eq_none_iff, List.head?_eq_none_iff, ContentState.sortRecordings, ← List.length_eq_zero_iff,
      List.length_insertionSort, List.length_eq_zero_iff, List.filter_eq_nil_iff] at hfound
    refine absurd ?_ (hfound (switchRecording id, row) (mem_toList.mpr hrow))
    simpa [isOpen, hid] using hopen

theorem openEgresses_closed (hquiet : s.Quiet id) :
    ∃ egresses, (s.request (.openEgresses id) .served).2 = .ok egresses ∧ (egresses = [] → s.Silent id) ∧
      ∀ e ∈ egresses, e = switchEgress id := by
  refine ⟨_, rfl, fun hnil => ?_, fun e he => ?_⟩
  · rcases hquiet with hquiet | ⟨⟨row, hrow, hopen, hid, -⟩, -⟩ | hquiet
    · exact .inl hquiet
    · rw [List.map_eq_nil_iff, List.filter_eq_nil_iff] at hnil
      refine absurd hopen (hnil (switchRecording id, row) ?_)
      exact List.mem_filter.mpr ⟨mem_toList.mpr hrow, decide_eq_true hid⟩
    · exact .inr (.inr hquiet)
  · obtain ⟨x, hx, rfl⟩ := List.mem_map.mp he
    obtain ⟨hx, hopen⟩ := List.mem_filter.mp hx
    obtain ⟨hrow, hid⟩ := List.mem_filter.mp hx
    exact (hfiles.row_of_open (mem_toList.mp hrow) (of_decide_eq_true hid) hopen hquiet).2.1

theorem activeEgress_running (hquiet : s.Quiet id) :
    (s.request (.activeEgress id) .served).2 = .ok none ∨
    ((s.request (.activeEgress id) .served).2 = .ok (some (switchEgress id)) ∧ s.In id .running) := by
  match hreply : (s.request (.activeEgress id) .served).2 with
  | .ok none => exact .inl rfl
  | .error e => cases hreply
  | .ok (some egress) =>
    obtain ⟨r, row, hrow, hid, rfl, hopen⟩ := row_of_activeEgress hreply
    obtain ⟨-, hegress, hrunning⟩ := hfiles.row_of_open hrow hid hopen hquiet
    exact .inr ⟨by rw [hegress], hrunning⟩

end

/-- **One step of one job.** -/
theorem FilesInv.request {q next} (h : FilesInv id s ((k, t) ::ₘ notes))
    (hstands : t.Stands id (.call q next)) :
    ∃ t', t'.Stands id (next (s.request q .served).2) ∧ FilesInv id (s.request q .served).1 ((k, t') ::ₘ notes) := by
  have hstage := h.stage
  have hsame : FileFree q → SameFiles id s (s.request q .served).1 := sameFiles_of_free (s.request_effect q .served)
  have hidle : FileFree q → s.Quiet id → FilesInv id (s.request q .served).1 ((k, .idle) ::ₘ notes) := fun hq hok =>
    h.restage .idle (h.files.same (hsame hq)) (hok.same (hsame hq))
  cases t with
  | idle => exact ⟨.idle, hstands.2 _, hidle hstands.1 hstage⟩
  | asked =>
    obtain ⟨next', heq, hnext⟩ := hstands
    cases heq
    rcases hnext (s.request (.content (.getStream id)) .served).2 with huses | ⟨x, hreply, hactive, htail⟩
    · exact ⟨.idle, huses, hidle trivial hstage.1⟩
    · exact ⟨.live, htail, h.restage .live h.files (hstage.2 (hactive ▸ status_eq (Except.ok.inj hreply)))⟩
  | live =>
    cases hstands with
    | call hq hnext =>
      have hstate : (s.request q .served).1 = s := by cases hq <;> rfl
      refine ⟨.live, hnext _, ?_⟩
      rw [hstate]
      exact h
    | here hat =>
      rcases hat with ⟨next', heq, hsome, hnone⟩ | huses
      · cases heq
        rcases hstage.1 with hunrecorded | hrunning
        · have hreply : (s.request (.content (.inFlightRecording id)) .served).2 = .ok none :=
            congrArg Except.ok (inFlight_unrecorded h.files hunrecorded)
          rw [hreply]
          exact ⟨.starting, hnone, h.restage .starting h.files ⟨hunrecorded, hstage.2⟩⟩
        · have hreply : (s.request (.content (.inFlightRecording id)) .served).2 = .ok (some (switchRecording id)) :=
            congrArg Except.ok (inFlight_running h.files hrunning)
          rw [hreply]
          exact ⟨.resuming, hsome, h.restage .resuming h.files hrunning⟩
      · exact ⟨.idle, huses.2 _, hidle huses.1 hstage.1.quiet⟩
  | resuming =>
    obtain ⟨next', heq, hnext⟩ := hstands
    cases heq
    obtain ⟨hreply, hfiles, hrunning⟩ := film_running h.files hstage
    rw [hreply]
    exact ⟨.reopening, hnext, h.restage .reopening hfiles hrunning⟩
  | reopening =>
    obtain ⟨next', heq, hnext⟩ := hstands
    cases heq
    obtain ⟨hfiles, hrunning⟩ := reopen_running h.files hstage
    exact ⟨.idle, hnext _, h.restage .idle hfiles (.inr (.inl hrunning))⟩
  | starting =>
    obtain ⟨next', heq, hnext⟩ := hstands
    cases heq
    obtain ⟨hreply, hfiles, hfilmed⟩ := film_unrecorded h.files hstage.1 hstage.2
    rw [hreply]
    exact ⟨.storing, hnext, h.restage .storing hfiles hfilmed⟩
  | storing =>
    obtain ⟨room, host, key, min, next', heq, hnext⟩ := hstands
    cases heq
    obtain ⟨hfiles, hrunning⟩ := store_filmed h.files hstage
    exact ⟨.idle, hnext _, h.restage .idle hfiles (.inr (.inl hrunning))⟩
  | stopAsked =>
    cases hstands with
    | call hq hnext =>
      exact ⟨.stopAsked, hnext _, h.restage .stopAsked (h.files.same (hsame hq)) (Quiet.same hstage (hsame hq))⟩
    | here hat =>
      rcases hat with huses | ⟨next', heq, hsome, hnone⟩
      · exact ⟨.idle, huses.2 _, hidle huses.1 hstage⟩
      · cases heq
        rcases activeEgress_running h.files hstage with hreply | ⟨hreply, hrunning⟩
        · rw [hreply]
          exact ⟨.idle, hnone, hidle trivial hstage⟩
        · rw [hreply]
          exact ⟨.pausing, hsome, h.restage .pausing h.files hrunning⟩
  | pausing =>
    cases hstands with
    | call hq hnext =>
      exact ⟨.pausing, hnext _, h.restage .pausing (h.files.same (hsame hq)) (In.same (p := .running) hstage (hsame hq))⟩
    | here hat =>
      obtain ⟨next', heq, hnext⟩ := hat
      cases heq
      obtain ⟨hfiles, hrunning⟩ := pause_running h.files hstage
      exact ⟨.idle, hnext _, h.restage .idle hfiles (.inr (.inl hrunning))⟩
  | listing =>
    obtain ⟨next', heq, hnil, hcons⟩ := hstands
    cases heq
    obtain ⟨egresses, hreply, hsilent, hall⟩ := openEgresses_closed h.files hstage
    rw [hreply]
    by_cases hempty : egresses = []
    · rw [hempty]
      exact ⟨.releasing, hnil, h.restage .releasing h.files (hsilent hempty)⟩
    · exact ⟨.ending, .here (.inr (hcons egresses hempty hall)), h.restage .ending h.files hstage⟩
  | ending =>
    cases hstands with
    | call hq hnext =>
      exact ⟨.ending, hnext _, h.restage .ending (h.files.same (hsame hq)) (Quiet.same hstage (hsame hq))⟩
    | here hat =>
      rcases hat with huses | ⟨next', heq, hnext⟩
      · exact ⟨.idle, huses.2 _, hidle huses.1 hstage⟩
      · cases heq
        obtain ⟨hfiles, hsilent⟩ := release_silent h.files (.inl hstage)
        exact ⟨.releasing, hnext _, h.restage .releasing hfiles hsilent⟩
  | releasing =>
    cases hstands with
    | call hq hnext =>
      rcases hq with hq | rfl
      · exact ⟨.releasing, hnext _, h.restage .releasing (h.files.same (hsame hq)) (Silent.same hstage (hsame hq))⟩
      · obtain ⟨hfiles, hsilent⟩ := release_silent h.files (.inr hstage)
        exact ⟨.releasing, hnext _, h.restage .releasing hfiles hsilent⟩
    | here hat =>
      obtain ⟨withhold, next', heq, hnext⟩ := hat
      cases heq
      obtain ⟨hfiles, hdone⟩ := close_silent h.files hstage
      exact ⟨.idle, hnext _, h.restage .idle hfiles hdone⟩

/-- A job returns in one of the phases between calls. -/
theorem Writing.Ok.returned {a} (h : t.Ok id s) (hstands : t.Stands id (.ret a)) : s.Quiet id := by
  cases t with
  | idle | stopAsked | listing | ending => exact h
  | asked => exact h.1
  | live => exact h.1.quiet
  | resuming | reopening | starting =>
    obtain ⟨next, heq, -⟩ := hstands
    cases heq
  | storing =>
    obtain ⟨_, _, _, _, _, heq, -⟩ := hstands
    cases heq
  | pausing =>
    cases hstands with
    | here hat =>
      obtain ⟨_, heq, -⟩ := hat
      cases heq
  | releasing =>
    cases hstands with
    | here hat =>
      obtain ⟨_, _, heq, -⟩ := hat
      cases heq

end

/-! ## The programs -/

section

variable {cfg : BroadcastConfig} {id user egressId : String}

section

variable (hpool : cfg.content.pgPool = true)

include hpool

/-- What a start does with the recording that it found, if any. -/
theorem recordFound_films {stream segment} (existing : Option String)
    (hname : existing.getD (id ++ "_rec1") = switchRecording id) :
    AtFilm id (if existing.isSome then AtReopen id else AtStore id) (recordingResponse
      ((recordWithRetry (switchSourceId id) (existing.getD (id ++ "_rec1")) 4).bind fun result =>
        match result with
        | .ok () => storeSwitchRecording cfg.content id (existing.getD (id ++ "_rec1")) stream existing.isSome
        | .error e =>
          if notRegistered e then recordByEgress cfg.content id egressId stream segment
          else .ret (.error (.internal ("mm-switch record failed: " ++ e))))) := by
  rw [hname]
  refine ⟨_, rfl, ?_⟩
  dsimp only [Prog.bind]
  unfold storeSwitchRecording
  rw [if_pos hpool]
  cases existing with
  | some r => exact ⟨_, rfl, fun _ => trivial⟩
  | none => exact ⟨_, _, _, _, _, rfl, fun r => recordingResponse_uses (uses_orError fun _ => trivial)⟩

theorem recordAs_looks (hswitch : cfg.content.originSwitch = true) {stream} :
    (recordingResponse (recordAs cfg.content id egressId stream)).Leads LookCall fun p => AtOpenRow id p ∨ p.Uses FileFree := by
  unfold recordAs
  rw [recordingResponse_bind]
  refine .bind (Prog.Uses.via ?_) fun refused => ?_
  · unfold recordingRefusal
    rw [if_pos hpool]
    exact ⟨.refusal, fun _ => trivial⟩
  split
  · exact .here (.inr trivial)
  rw [recordingResponse_bind]
  refine .bind (Prog.Uses.via ?_) fun segment => ?_
  · unfold nextSegment
    rw [if_pos hpool]
    exact ⟨.segment, fun _ => trivial⟩
  unfold recordBySwitch existingRecording
  rw [if_pos hpool]
  exact .here (.inl ⟨_, rfl, recordFound_films hpool (some (switchRecording id)) rfl, recordFound_films hpool none rfl⟩)

end

theorem stripPrefix_switchEgress : stripPrefix "mm-switch:" (switchEgress id) = some (switchSourceId id) := stripPrefix_eq_some.mpr rfl

theorem stopByEgress_pauses : (respond (fun _ => .recordingStopped) (stopByEgress cfg (switchEgress id))).Leads FileFree (AtPause id) := by
  unfold stopByEgress respond
  rw [stripPrefix_switchEgress]
  dsimp only
  rw [Prog.bind_assoc]
  exact .bind (uses_onSwitch trivial) fun _ => .here ⟨_, rfl, fun r => uses_respond (uses_orError fun _ => trivial)⟩

theorem stopRecording_pauses (hpool : cfg.content.pgPool = true) :
    Writing.stopAsked.Stands id (respond (fun _ => .recordingStopped) (stopRecording cfg user id)) := by
  refine .call trivial fun r => ?_
  match r with
  | .error e => exact .here (.inl trivial)
  | .ok none => exact .here (.inl trivial)
  | .ok (some row) =>
    dsimp only [orNotFound, orDatabase, orError]
    split
    · exact .here (.inl trivial)
    · exact .here (.inr ⟨_, rfl, stopByEgress_pauses, trivial⟩)

/-- The recorder of every open row. -/
theorem finaliseEgresses_uses {egresses} (h : ∀ e ∈ egresses, e = switchEgress id) :
    (finaliseEgresses cfg egresses).Uses (ReleaseCall id) := by
  induction egresses with
  | nil => trivial
  | cons egress egresses ih =>
    obtain ⟨rfl, hrest⟩ := List.forall_mem_cons.mp h
    unfold finaliseEgresses
    rw [stripPrefix_switchEgress]
    exact (uses_onSwitch (.inr rfl)).bind fun _ => ih hrest

theorem finaliseOpenRecordings_lists (hpool : cfg.content.pgPool = true) (hswitch : cfg.content.originSwitch = true) :
    Writing.listing.Stands id ((finaliseOpenRecordings cfg id).bind fun n => .ret (.finalised n)) := by
  unfold finaliseOpenRecordings
  rw [if_pos hpool]
  refine ⟨_, rfl, .here ⟨_, _, rfl, fun _ => trivial⟩, fun egresses hne hall => ?_⟩
  match egresses with
  | [] => exact absurd rfl hne
  | egress :: egresses =>
    obtain ⟨rfl, hrest⟩ := List.forall_mem_cons.mp hall
    simp only [Except.toOption, Option.getD_some, finaliseEgresses, stripPrefix_switchEgress, onSwitch, if_pos hswitch]
    refine ⟨_, rfl, fun _ => ?_⟩
    dsimp only [Prog.bind]
    rw [Prog.bind_assoc]
    exact .bind (finaliseEgresses_uses hrest) fun _ => .here ⟨_, _, rfl, fun _ => trivial⟩

theorem afterCall_fileFree (q : BroadcastRequest) (h : AfterCall id q) : FileFree q := by
  cases h <;> trivial

variable {release : RecordingRelease} {reason : Option String}

theorem transition_fileFree {row withheld} :
    (transition cfg id row release reason withheld).Uses FileFree := by
  refine ⟨trivial, fun r => uses_orError fun moved => ?_⟩
  split
  · exact (afterEnd_uses.mono afterCall_fileFree).bind fun _ => trivial
  · trivial

theorem endAndFinaliseStream_releases (hpool : cfg.content.pgPool = true) (hswitch : cfg.content.originSwitch = true) {row} :
    (respond .ended (endAndFinaliseStream cfg id row release reason)).Leads FileFree fun p => p.Uses FileFree ∨ AtRelease id p := by
  simp only [respond, endAndFinaliseStream, releaseMedia, Prog.bind_assoc]
  refine .bind (cleanupEgresses_uses trivial fun _ _ => trivial) fun _ => ?_
  rw [onSwitch, if_pos hswitch]
  refine .here (.inr ⟨_, rfl, fun _ => ?_⟩)
  dsimp only [Prog.bind]
  rw [finishRows, if_pos hpool]
  refine .here ⟨_, _, rfl, fun r => ?_⟩
  rw [Prog.bind_assoc]
  exact (uses_onSwitch trivial).bind fun _ => (uses_onSwitch trivial).bind fun _ => (deleteRoom_uses fun _ => trivial).bind fun _ =>
    transition_fileFree.bind fun _ => trivial

theorem resumeCall_fileFree (q : BroadcastRequest) (h : ResumeCall id q) : FileFree q := by
  cases h <;> trivial

/-- A start, a stop or the ladder's finalise of the recording, a resume or an end of the stream. -/
def BroadcastJob.onFiles : BroadcastJob → Option String
  | .startRecording _ _ id _ | .stopRecording _ _ id | .finaliseOpenRecordings _ id | .resumeStream _ _ id | .endStream _ _ id
  | .stopStream _ id _ _ => some id
  | _ => none

theorem files_stand (hpool : cfg.content.pgPool = true) (hswitch : cfg.content.originSwitch = true) {k : BroadcastJob} (hk : k.onFiles = some id)
    {s : BroadcastState} (hquiet : s.Quiet id)
    (hstart : k.records.isSome → s.status id = some .active → s.Recordable id ∧ switchSourceId id ∈ s.sources) :
    ∃ t : Writing, t.Stands id (k.program cfg) ∧ t.Ok id s := by
  cases k with
  | startRecording n user id' egress =>
    cases hk
    exact ⟨.asked, startRecording_reads fun _ => recordAs_looks hpool hswitch, hquiet, hstart rfl⟩
  | stopRecording n user id' =>
    cases hk
    exact ⟨.stopAsked, stopRecording_pauses hpool, hquiet⟩
  | finaliseOpenRecordings n id' =>
    cases hk
    exact ⟨.listing, finaliseOpenRecordings_lists hpool hswitch, hquiet⟩
  | resumeStream n user id' =>
    cases hk
    exact ⟨.idle, uses_respond (resumeStream_uses.mono resumeCall_fileFree), hquiet⟩
  | endStream | stopStream =>
    cases hk
    exact ⟨.ending, ends_leads rfl trivial (fun _ => .inl trivial) fun _ _ => endAndFinaliseStream_releases hpool hswitch, hquiet⟩
  | _ => cases hk

end

/-! ## Runs -/

section

variable {cfg : BroadcastConfig} {id : String}

/-- One call of the stream at a time, all of them served; the host publishes to the switch when a
live stream is recorded. -/
def FileRuns (id : String) (pool : BroadcastPool) : BroadcastEvent → Prop
  | .start k => pool.running.isEmpty = true ∧ k.onFiles = some id ∧
      (k.records.isSome → pool.state.status id = some .active → switchSourceId id ∈ pool.state.sources)
  | .request _ fate => fate = .served
  | .move _ => True
  | .die => False

/-- A live stream is recorded for the first time, or with a recording that is open. -/
def NotAgain (id : String) (pool : BroadcastPool) : BroadcastEvent → Prop :=
  Event.Starts fun k => k.records.isSome → pool.state.status id = some .active →
    (pool.state.recordingsOf id).isEmpty = true ∨ pool.state.openIds id ≠ []

instance decidableFileRuns (id : String) (pool : BroadcastPool) : (e : BroadcastEvent) → Decidable (FileRuns id pool e)
  | .start _ => instDecidableAnd
  | .request .. => inferInstanceAs (Decidable (_ = _))
  | .move _ => isTrue trivial
  | .die => isFalse not_false

instance decidableNotAgain (id : String) (pool : BroadcastPool) (e : BroadcastEvent) : Decidable (NotAgain id pool e) :=
  inferInstanceAs (Decidable (Event.Starts _ e))

theorem recordable_of_notAgain {s} (hfiles : FilesOk id s) (hquiet : s.Quiet id)
    (h : (s.recordingsOf id).isEmpty = true ∨ s.openIds id ≠ []) : s.Recordable id := by
  rcases h with hempty | hopen
  · have hnone : ∀ opened, ¬s.HasRow id opened := by
      rintro opened ⟨row, hrow, -, hid, -⟩
      have hmem : (switchRecording id, row) ∈ s.recordingsOf id := List.mem_filter.mpr ⟨mem_toList.mpr hrow, decide_eq_true hid⟩
      rw [List.isEmpty_iff.mp hempty] at hmem
      exact absurd hmem List.not_mem_nil
    rcases hquiet with h | h | h
    · exact .inl h
    · exact .inr h
    · exact absurd h.1 (hnone _)
  · obtain ⟨r, hr⟩ := List.exists_mem_of_ne_nil _ hopen
    obtain ⟨row, hrow, hisOpen, hid⟩ := mem_openIds.mp hr
    exact .inr (hfiles.row_of_open hrow hid hisOpen hquiet).2.2

/-- The stage of the call in flight. -/
def filesOutline (cfg : BroadcastConfig) (hpool : cfg.content.pgPool = true) (hswitch : cfg.content.originSwitch = true) (id : String) :
    Outline broadcastService (BroadcastJob.program cfg) (fun pool e => FileRuns id pool e ∧ NotAgain id pool e) Writing where
  stands := fun _ p t => t.Stands id p
  inv := fun s _ notes => FilesInv id s notes
  start := by
    intro pool k notes hinv hjobs hok
    obtain ⟨⟨hempty, hk, hsource⟩, hagain⟩ := hok
    rw [List.isEmpty_iff.mp hempty] at hjobs
    obtain rfl := map_eq_zero.mp hjobs
    have hquiet := hinv.quiet rfl
    obtain ⟨t, hstands, hstage⟩ := files_stand hpool hswitch hk hquiet fun hrecords hactive =>
      ⟨recordable_of_notAgain hinv.files hquiet (hagain hrecords hactive), hsource hrecords hactive⟩
    exact ⟨t, hstands, hinv.files, Nat.le_refl _, fun hzero => absurd hzero cons_ne_zero,
      forall_mem_cons.mpr ⟨hstage, hinv.stages⟩⟩
  request := by
    intro pool place k q next fate t notes hstands hinv hjobs hplace hok
    obtain rfl : fate = .served := hok.1
    exact hinv.request hstands
  finish := by
    intro s returned k a t notes hstands hinv
    obtain rfl := eq_zero_of_card_cons hinv.alone
    exact ⟨hinv.files, Nat.zero_le 1, fun _ => hinv.stage.returned hstands, fun n hn => hinv.stages n (mem_cons_of_mem hn)⟩
  move := by
    intro pool m notes hinv hok
    have hs : SameFiles id pool.state (pool.state.move m) := by cases m <;> exact ⟨rfl, rfl, rfl⟩
    have hstatus : (pool.state.move m).status id = pool.state.status id := by cases m <;> rfl
    have hsources : switchSourceId id ∈ pool.state.sources → switchSourceId id ∈ (pool.state.move m).sources := by
      cases m with
      | publish source => exact List.mem_insert_of_mem
      | _ => exact fun h => h
    exact ⟨hinv.files.same hs, hinv.alone, fun hzero => (hinv.quiet hzero).same hs, fun n hn => (hinv.stages n hn).moved hs hstatus hsources⟩
  die := by
    intro pool notes hinv hok
    exact hok.1.elim

/-- What every phase says of the rows of the stream and of its recorder. -/
structure FilesKept (id : String) (s : BroadcastState) : Prop where
  once : s.files.Nodup
  stored : ∀ (r : String) (row : Recording), s.content.recordings[r]? = some row → row.streamId = id → recordingPath r ∈ s.files
  unwritten : ∀ (recorder : Recorder) (row : Recording), s.recorders[switchSourceId id]? = some recorder →
    s.content.recordings[recorder.id]? = some row → isOpen row = true

theorem FilesOk.kept {s} (h : FilesOk id s) {p} (hphase : s.In id p) : FilesKept id s := by
  refine ⟨h.nodup, fun r row hrow hid => ?_, fun recorder row hrecorder hrow => ?_⟩
  · obtain rfl := h.only r row hrow hid
    cases p with
    | unrecorded => cases hphase.1.symm.trans hrow
    | filmed | running | released | closed => exact hphase.2.1
  · have hname : s.recorderOf id = some recorder.id := by
      unfold recorderOf
      rw [hrecorder]
      rfl
    cases p with
    | unrecorded | released | closed => cases hphase.2.2.symm.trans hname
    | filmed =>
      obtain heq : switchRecording id = recorder.id := Option.some.inj (hphase.2.2.symm.trans hname)
      rw [← heq, hphase.1] at hrow
      cases hrow
    | running =>
      obtain heq : switchRecording id = recorder.id := Option.some.inj (hphase.2.2.symm.trans hname)
      obtain ⟨⟨row', hrow', hopen, -⟩, -⟩ := hphase
      rw [← heq, hrow'] at hrow
      cases hrow
      exact hopen

theorem Writing.Ok.phase {s} {t : Writing} (h : t.Ok id s) : ∃ p, s.In id p := by
  cases t with
  | idle | stopAsked | listing | ending | releasing => rcases h with h | h | h <;> exact ⟨_, h⟩
  | asked => rcases h.1 with h | h | h <;> exact ⟨_, h⟩
  | live => rcases h.1 with h | h <;> exact ⟨_, h⟩
  | starting => exact ⟨_, h.1⟩
  | storing => exact ⟨.filmed, h⟩
  | resuming | reopening | pausing => exact ⟨.running, h⟩

/-- **No recording is overwritten**: no file is created twice, the switch does not write one whose
recording is closed, and once no call is in flight every recorder has a row. The stream is recorded
as in `NotAgain`. -/
theorem files_kept (cfg : BroadcastConfig) (hpool : cfg.content.pgPool = true) (hswitch : cfg.content.originSwitch = true) (id : String)
    (s₀ : BroadcastState) (hstart : FilesOk id s₀) (hquiet : s₀.Quiet id) (h : List BroadcastEvent) (pool : BroadcastPool)
    (run : Run (broadcastStep cfg) (fun _ pool e => FileRuns id pool e ∧ NotAgain id pool e) ⟨s₀, [], []⟩ h pool) :
    FilesKept id pool.state ∧
    (pool.running = [] → ∀ recorder : Recorder, pool.state.recorders[switchSourceId id]? = some recorder →
      ∃ row : Recording, pool.state.content.recordings[recorder.id]? = some row ∧ row.streamId = id ∧ isOpen row = true) := by
  have hinit : FilesInv id s₀ 0 := ⟨hstart, Nat.zero_le _, fun _ => hquiet, fun _ hn => absurd hn (notMem_zero _)⟩
  have hsound := (Outline.sound_start (O := filesOutline cfg hpool hswitch id) hinit).run run
  refine ⟨?_, fun hidle recorder hrecorder => ?_⟩
  · obtain ⟨notes, -, -, hinv⟩ := hsound
    obtain ⟨p, hphase⟩ : ∃ p, pool.state.In id p := by
      rcases empty_or_exists_mem (Outline.stages notes) with hzero | ⟨n, hn⟩
      · rcases hinv.quiet hzero with h | h | h <;> exact ⟨_, h⟩
      · exact (hinv.stages n hn).phase
    exact hinv.files.kept hphase
  · have hinv : FilesInv id pool.state 0 := hsound.quiet hidle
    have hname : pool.state.recorderOf id = some recorder.id := by
      unfold recorderOf
      rw [hrecorder]
      rfl
    rcases hinv.quiet rfl with ⟨-, -, hnone⟩ | ⟨⟨row, hrow, hopen, hid, -⟩, -, hsome⟩ | ⟨-, -, hnone⟩
    · cases hnone.symm.trans hname
    · obtain heq : switchRecording id = recorder.id := Option.some.inj (hsome.symm.trans hname)
      exact ⟨row, heq ▸ hrow, hid, hopen⟩
    · cases hnone.symm.trans hname

end

theorem onAir_rows : FilesOk "live" .onAir ∧ onAir.Quiet "live" := by
  have hnone : ∀ r, onAir.content.recordings[r]? = none := fun r => TreeMap.getElem?_emptyc
  refine ⟨⟨.nil, fun r row hrow => ?_⟩, .inl ⟨hnone _, List.not_mem_nil, ?_⟩⟩
  · cases (hnone r).symm.trans hrow
  · decide +kernel

/-- The stream is recorded, paused, recorded on, resumed by its host and ended. -/
def recordOnce : List BroadcastEvent :=
  (.start (.startRecording 1 "@alice" "live" "EG_1") :: List.replicate 6 (.request 0 .served) : List BroadcastEvent) ++
  (.start (.stopRecording 2 "@alice" "live") :: List.replicate 4 (.request 0 .served) : List BroadcastEvent) ++
  (.start (.startRecording 3 "@alice" "live" "EG_2") :: List.replicate 6 (.request 0 .served) : List BroadcastEvent) ++
  (.start (.resumeStream 4 "@alice" "live") :: List.replicate 6 (.request 0 .served) : List BroadcastEvent) ++
  (.start (.endStream 5 "@alice" "live") :: List.replicate 12 (.request 0 .served) : List BroadcastEvent)

theorem files_kept_once : ∃ h pool,
    Run (broadcastStep originConfig) (fun _ pool e => FileRuns "live" pool e ∧ NotAgain "live" pool e) ⟨.onAir, [], []⟩ h pool ∧
    pool.state.status "live" = some .ended ∧ pool.state.files = [recordingPath "live_rec1"] ∧ FilesKept "live" pool.state := by
  apply Run.exists_and_of_follows (P := fun pool => pool.state.status "live" = some .ended ∧
    pool.state.files = [recordingPath "live_rec1"]) recordOnce (by decide +kernel)
  rintro h pool run ⟨hended, hfiles⟩
  exact ⟨hended, hfiles, (files_kept originConfig rfl rfl "live" _ onAir_rows.1 onAir_rows.2 _ _ run).1⟩

/-- The ladder closes the recording, and the host records again. -/
def recordAgain : List BroadcastEvent :=
  (.start (.startRecording 1 "@alice" "live" "EG_1") :: List.replicate 6 (.request 0 .served) : List BroadcastEvent) ++
  (.start (.finaliseOpenRecordings 2 "live") :: List.replicate 3 (.request 0 .served) : List BroadcastEvent) ++
  (.start (.startRecording 3 "@alice" "live" "EG_2") :: List.replicate 6 (.request 0 .served) : List BroadcastEvent)

/-- The file of a ready recording is created again, and a recorder writes it. -/
theorem overwritten_after_finalise : ∃ s₀ h pool, FilesOk "live" s₀ ∧ s₀.Quiet "live" ∧
    Run (broadcastStep originConfig) (fun _ pool e => FileRuns "live" pool e) ⟨s₀, [], []⟩ h pool ∧ pool.running = [] ∧
    ¬pool.state.files.Nodup ∧
    (∃ recorder : Recorder, pool.state.recorders["stream-live"]? = some recorder ∧ recorder.id = "live_rec1") ∧
    ∃ row : Recording, pool.state.content.recordings["live_rec1"]? = some row ∧ row.status = .ready := by
  obtain ⟨h, pool, run, hidle, htwice, hrecorder, hready⟩ : ∃ h pool,
      Run (broadcastStep originConfig) (fun _ pool e => FileRuns "live" pool e) ⟨.onAir, [], []⟩ h pool ∧ pool.running = [] ∧
      ¬pool.state.files.Nodup ∧ (pool.state.recorders["stream-live"]?).map Recorder.id = some "live_rec1" ∧
      (pool.state.content.recordings["live_rec1"]?).map Recording.status = some .ready :=
    Run.exists_of_follows recordAgain (by decide +kernel)
  exact ⟨_, h, pool, onAir_rows.1, onAir_rows.2, run, hidle, htwice, Option.map_eq_some_iff.mp hrecorder, Option.map_eq_some_iff.mp hready⟩

end MatrixMedia.Broadcast
