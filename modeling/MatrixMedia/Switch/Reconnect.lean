import MatrixMedia.Switch.Offers
import Mathlib.Logic.Relation

/-!
# A host that reconnects

A publish offer on an id that is registered puts a new source in the map and leaves everything else
alone. Subscriptions are held by the sources themselves, so the audience of the old source stays
there: `reconnect_takes_audience` says that the takeover that `resume_stream` promises happens only
when there is nobody to take along, and `audience_left_behind` is a viewer and a recorder on a source
that is no longer registered.
-/

namespace MatrixMedia.Switch
open Lib Lib.Interaction SwitchState
open Std (TreeMap)

/-- The packets of the source reach the recorder. -/
def SwitchState.Records (s : SwitchState) (src : Nat) (recorder : Recorder) : Prop :=
  (s.sourceObjects src).subscribers ("recorder-" ++ recorder.id) = some (.recorder recorder.id)

/-- A publish offer that succeeds, for this id. -/
def Publishes (id : String) (s s' : SwitchState) : Prop :=
  ∃ auth now r negotiation fates, (handlePublishOffer auth now r negotiation).exec switchService s fates = some (.ok id, s')

/-- Any number of offers that succeed. -/
def Reoffered : SwitchState → SwitchState → Prop := Relation.ReflTransGen fun s s' => ∃ id, Publishes id s s'

/-- Those that watch or record the id have moved to its new source, and the old one is stopped. -/
structure AudienceFollows (s s' : SwitchState) (id : String) (old new : Nat) : Prop where
  viewers : ∀ ref, s.Registered ref → (s.viewerObjects ref).currentSource = id → s'.Receives new ref ∧ ¬s'.Receives old ref
  recorder : ∀ recorder, s.recorders[id]? = some recorder → recorder.state = .active → s'.Records new recorder ∧ ¬s'.Records old recorder
  stopped : (s'.sourceObjects old).stopped = true

/-- Nobody watches or records the id. -/
def Unattended (s : SwitchState) (id : String) : Prop :=
  (∀ ref, s.Registered ref → (s.viewerObjects ref).currentSource ≠ id) ∧ ∀ recorder, s.recorders[id]? = some recorder → recorder.state ≠ .active

section
variable {s s' : SwitchState} {id : String} {old : Nat}

/-- An offer that succeeds registers a new source, and that is all. -/
theorem Publishes.eq (h : Publishes id s s') : s' = s.addSource id := by
  obtain ⟨auth, now, r, negotiation, fates, hexec⟩ := h
  unfold handlePublishOffer at hexec
  split at hexec
  · cases hexec
  split at hexec
  · cases hexec
  split at hexec
  · cases hexec
  cases fates with
  | nil => cases hexec
  | cons fate fates =>
    cases hexec
    rfl

theorem Reoffered.tables (h : Reoffered s s') (htables : TablesOk s) : TablesOk s' := by
  induction h with
  | refl => exact htables
  | tail _ hoffer ih =>
    obtain ⟨id, hoffer⟩ := hoffer
    rw [hoffer.eq]
    exact ih.addSource id

/-- Nothing reaches anyone from the new source. -/
theorem Publishes.receives (h : Publishes id s s') (ref : Nat) : ¬s'.Receives s.nextSource ref := by
  rw [h.eq]
  unfold Receives
  rw [sourceObjects_addSource, if_pos rfl]
  exact fun hnone => (by cases hnone)

theorem Publishes.records (h : Publishes id s s') (recorder : Recorder) : ¬s'.Records s.nextSource recorder := by
  rw [h.eq]
  unfold Records
  rw [sourceObjects_addSource, if_pos rfl]
  exact fun hnone => (by cases hnone)

end

/-- **A host reconnect takes the audience along** exactly when nobody watches or records the id and the
old source was stopped before, in every state and after any number of offers. -/
theorem reconnect_takes_audience (s₀ s s' : SwitchState) (htables : TablesOk s₀) (hearlier : Reoffered s₀ s) (id : String) (old : Nat)
    (hregistered : s.sources[id]? = some old) (hoffer : Publishes id s s') :
    s'.sources[id]? = some s.nextSource ∧
    (AudienceFollows s s' id old s.nextSource ↔ Unattended s id ∧ (s.sourceObjects old).stopped = true) := by
  have hold : (s'.sourceObjects old) = s.sourceObjects old := by
    rw [hoffer.eq, sourceObjects_addSource, if_neg (Nat.ne_of_lt ((hearlier.tables htables).sources id old hregistered))]
  refine ⟨?_, fun hfollows => ⟨⟨fun ref hviewer hcurrent => ?_, fun recorder hrecorder hactive => ?_⟩, ?_⟩, fun ⟨⟨hviewers, hrecorders⟩, hstopped⟩ => ?_⟩
  · rw [hoffer.eq]
    show (s.sources.insert id s.nextSource)[id]? = _
    rw [Table.getElem?_insert, if_pos rfl]
  · exact hoffer.receives ref (hfollows.viewers ref hviewer hcurrent).1
  · exact hoffer.records recorder (hfollows.recorder recorder hrecorder hactive).1
  · rw [← hold]
    exact hfollows.stopped
  · exact ⟨fun ref hviewer hcurrent => absurd hcurrent (hviewers ref hviewer), fun recorder hrecorder hactive => absurd hactive (hrecorders recorder hrecorder),
      by rw [hold]; exact hstopped⟩

/-- Without a secret the body names the source. -/
theorem publishes_open (id : String) (s : SwitchState) : Publishes id s (s.addSource id) :=
  ⟨⟨fun _ _ => "", ""⟩, 0, ⟨"", id, ""⟩, .ok (), [()], rfl⟩

/-- Without an audience too, the old source goes on beside the new one. -/
theorem reconnect_takes_audience_unwatched : ∃ s s' : SwitchState, s.sources["stream-a"]? = some 0 ∧ Publishes "stream-a" s s' ∧
    s'.sources["stream-a"]? = some s.nextSource ∧ ¬AudienceFollows s s' "stream-a" 0 s.nextSource := by
  have hregistered : (empty.addSource "stream-a").sources["stream-a"]? = some 0 := by
    show (empty.sources.insert "stream-a" 0)["stream-a"]? = some 0
    rw [Table.getElem?_insert, if_pos rfl]
  obtain ⟨hnew, hfollows⟩ := reconnect_takes_audience (empty.addSource "stream-a") _ _ (wired_empty.tables.addSource "stream-a") .refl
    "stream-a" 0 hregistered (publishes_open _ _)
  exact ⟨_, _, hregistered, publishes_open _ _, hnew, fun h => Bool.false_ne_true (hfollows.mp h).2⟩

/-- The viewer of `watchProgramme`, and a recorder. -/
def SwitchState.attended : SwitchState :=
  let s := (watchProgramme.foldl switchStep ⟨.empty, [], []⟩).state
  { s.setSubscriber ⟨0, "recorder-rec"⟩ (some (.recorder "rec")) with recorders := s.recorders.insert "stream-a" ⟨"rec", .active⟩ }

theorem attended_spec : attended.sources["stream-a"]? = some 0 ∧ attended.recorders["stream-a"]? = some ⟨"rec", .active⟩ ∧
    attended.viewers["bob"]? = some 0 ∧ (attended.viewerObjects 0).id = "bob" ∧
    (attended.viewerObjects 0).currentSource = "stream-a" ∧
    (let s' := attended.addSource "stream-a"
    s'.sources["stream-a"]? = some 1 ∧ s'.Receives 0 0 ∧ ¬s'.Receives 1 0 ∧ (s'.sourceObjects 0).stopped = false ∧
    (s'.sourceObjects 0).subscribers "recorder-rec" = some (.recorder "rec") ∧ (s'.sourceObjects 1).subscribers "recorder-rec" = none) := by
  decide +kernel

theorem tables_attended : TablesOk attended := by
  have hfollows : Follows switchStep (fun _ pool e => JobsApart pool e) [] ⟨.empty, [], []⟩ watchProgramme := by decide +kernel
  have hinv : WireInv (watchProgramme.foldl switchStep ⟨.empty, [], []⟩).state 0 :=
    ((Outline.sound_start (O := wiringOutline) wired_empty).run (Run.start.follow hfollows)).quiet (by decide +kernel)
  refine ⟨fun src key ref hkey => ?_, hinv.tables.viewers, hinv.tables.sources⟩
  have hkey : (((watchProgramme.foldl switchStep ⟨.empty, [], []⟩).state.setSubscriber ⟨0, "recorder-rec"⟩ (some (.recorder "rec"))).sourceObjects
      src).subscribers key = some (.viewer ref) := hkey
  rw [subscribers_setSubscriber] at hkey
  split at hkey
  · cases hkey
  · exact hinv.tables.keys src key ref hkey

/-- After the offer a viewer and an active recorder get the packets of the old source, which runs on,
and none of the new one. -/
theorem audience_left_behind : ∃ (s s' : SwitchState) (recorder : Recorder), TablesOk s ∧ s.sources["stream-a"]? = some 0 ∧ Publishes "stream-a" s s' ∧
    s'.sources["stream-a"]? = some 1 ∧
    (s.Registered 0 ∧ (s.viewerObjects 0).currentSource = "stream-a" ∧ s'.Receives 0 0 ∧ ¬s'.Receives 1 0) ∧
    (s.recorders["stream-a"]? = some recorder ∧ recorder.state = .active ∧ s'.Records 0 recorder ∧ ¬s'.Records 1 recorder) ∧
    (s'.sourceObjects 0).stopped = false := by
  obtain ⟨hsource, hrecorder, hviewer, hid, hcurrent, hnew, hold, hnone, hruns, hrecords, hnothing⟩ := attended_spec
  refine ⟨_, _, _, tables_attended, hsource, publishes_open _ _, hnew, ⟨?_, hcurrent, hold, hnone⟩, ⟨hrecorder, rfl, hrecords, ?_⟩, hruns⟩
  · unfold Registered
    rw [hid]
    exact hviewer
  · unfold Records
    exact fun hentry => (by cases hnothing.symm.trans hentry)

end MatrixMedia.Switch
