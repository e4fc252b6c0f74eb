import MatrixMedia.Lib.Interaction
import MatrixMedia.Lib.Table
import MatrixMedia.Lib.Text

/-!
# The media switch (`services/mm-switch`)

`MediaSwitch` maps ids to sources and viewers (`switch.go`), a viewer subscribes to the source that
it is switched to (`viewer.go`, `source_webrtc.go`), and the bytes written to viewers are counted for
billing (`egress.go`). Sources and viewers are objects: an id can be given to a new object while
tasks still hold the old one, so objects have numbers of their own here, in the order in which they
are registered.

Each section under a lock, each `Subscribe` and each call of what it returned is one request; a
handler and the goroutine that it starts are one program. `connected` is left out: it only decides
when the activation of a switch runs, which is at any time here. Byte counters are not bounded.
-/

namespace MatrixMedia.Switch
open Lib Lib.Interaction Lib.Text
open Std (TreeMap)

/-! ## Objects -/

/-- What `Subscribe` returns; calling it deletes the key from the subscribers of the source. -/
structure Subscription where
  source : Nat
  key : String
deriving DecidableEq

/-- Whose handler is called. -/
inductive Subscriber where
  | viewer (ref : Nat)
  | recorder (id : String)
deriving DecidableEq

structure Source where
  subscribers : String → Option Subscriber
  stopped : Bool

structure Viewer where
  id : String
  currentSource : String
  unsubscribe : Option Subscription
  closed : Bool
  pendingSource : Option Nat
  egressBytes : Nat
  billingSource : String
  /-- The source of its last switch, since it was last detached; no code reads it. -/
  lastSwitch : Option Nat
deriving DecidableEq

inductive RecorderState where
  | active
  | paused
  | finished
  | failed
deriving DecidableEq

structure Recorder where
  id : String
  state : RecorderState
deriving DecidableEq

/-- `NewWebRTCSource`. -/
def Source.new : Source := ⟨fun _ => none, false⟩

/-- `NewViewer`. -/
def Viewer.new (id : String) : Viewer := ⟨id, "", none, false, none, 0, "", none⟩

structure SwitchState where
  sources : TreeMap String Nat
  viewers : TreeMap String Nat
  /-- By source id. -/
  recorders : TreeMap String Recorder
  sourceObjects : Nat → Source
  viewerObjects : Nat → Viewer
  nextSource : Nat
  nextViewer : Nat
  /-- Bytes of the viewers that are gone, by billing source. -/
  closedEgress : TreeMap String Nat
  /-- `egressOverheadBytes`. -/
  overhead : Nat
  /-- Every write with the billing source of its viewer then; no code reads it. -/
  written : List (String × Nat)

/-- `isProgrammeSourceID`. -/
def isProgrammeSourceID (id : String) : Bool := startsWith "stream-" id

/-- Bytes by billing source, as a report has them. Counters and sums are exact here; Go's are their
`int64`, and a reading is left out when that is not positive: the same as long as all that is written
stays below `2 ^ 63`. -/
abbrev Totals : Type := TreeMap String Nat

/-- The `int64` of an exact sum. -/
def int64 (n : Nat) : Int := (n : Int).bmod (2 ^ 64)

/-- One reading is added, unless it is empty. -/
def Totals.add (totals : Totals) (reading : String × Nat) : Totals :=
  if reading.1 = "" ∨ reading.2 = 0 then totals else totals.insert reading.1 ((totals[reading.1]?).getD 0 + reading.2)

namespace SwitchState

section
variable (s : SwitchState)

def setSource (src : Nat) (x : Source) : SwitchState :=
  { s with sourceObjects := Function.update s.sourceObjects src x }

def setViewer (ref : Nat) (v : Viewer) : SwitchState :=
  { s with viewerObjects := Function.update s.viewerObjects ref v }

def setSubscriber (sub : Subscription) (x : Option Subscriber) : SwitchState :=
  s.setSource sub.source { s.sourceObjects sub.source with subscribers := Function.update (s.sourceObjects sub.source).subscribers sub.key x }

/-- The function that `Subscribe` returned is called. -/
def unsubscribe (sub : Subscription) : SwitchState := s.setSubscriber sub none

/-- `v.unsubscribe`, if there is one, is called and forgotten. -/
def release (ref : Nat) : SwitchState :=
  match (s.viewerObjects ref).unsubscribe with
  | some sub => (s.unsubscribe sub).setViewer ref { s.viewerObjects ref with unsubscribe := none }
  | none => s

/-- The packets of the source reach the viewer. -/
def Receives (src ref : Nat) : Prop :=
  (s.sourceObjects src).subscribers (s.viewerObjects ref).id = some (.viewer ref)

instance (s : SwitchState) (src ref : Nat) : Decidable (s.Receives src ref) := inferInstanceAs (Decidable (_ = _))

/-! ## Sections -/

/-- `AddSource` of a new source. -/
def addSource (id : String) : SwitchState :=
  { s with
    sources := s.sources.insert id s.nextSource
    sourceObjects := Function.update s.sourceObjects s.nextSource .new
    nextSource := s.nextSource + 1 }

/-- `ViewerObjects`. -/
def viewerRefs : List Nat := s.viewers.toList.map Prod.snd

/-- `DetachSource`. -/
def detachSource (ref : Nat) : SwitchState :=
  let s := s.release ref
  s.setViewer ref { s.viewerObjects ref with currentSource := "", lastSwitch := none }

/-- Viewers of the list on this source are detached. -/
def detachAll (id : String) (refs : List Nat) : SwitchState :=
  refs.foldl (fun s ref => if (s.viewerObjects ref).currentSource = id then s.detachSource ref else s) s

/-- `removeSource`; `want` is given by `RemoveSourceIf`. -/
def removeSource (id : String) (want : Option Nat) : SwitchState :=
  match s.sources[id]? with
  | none => s
  | some src =>
    if ∃ w ∈ want, w ≠ src then s
    else
      let s := s.setSource src { s.sourceObjects src with stopped := true }
      { s with sources := s.sources.erase id }.detachAll id s.viewerRefs

/-- The section of `AddViewer`, for a new viewer: the one that it displaces. -/
def addViewer (id : String) : SwitchState × Option Nat :=
  ({ s with
    viewers := s.viewers.insert id s.nextViewer
    viewerObjects := Function.update s.viewerObjects s.nextViewer (.new id)
    nextViewer := s.nextViewer + 1 }, s.viewers[id]?)

/-- The section of `removeViewer`; `want` is given by `RemoveViewerIf`. -/
def takeViewer (id : String) (want : Option Nat) : SwitchState × Option Nat :=
  match s.viewers[id]? with
  | none => (s, none)
  | some ref => if ∃ w ∈ want, w ≠ ref then (s, none) else ({ s with viewers := s.viewers.erase id }, some ref)

/-- The section of `Close`: the subscription that it ends next. -/
def closeViewer (ref : Nat) : SwitchState × Option Subscription :=
  let v := s.viewerObjects ref
  if v.closed then (s, none) else (s.setViewer ref { v with closed := true }, v.unsubscribe)

/-- The section of `SwitchTo`; nothing is activated when the viewer is closed. -/
def switchTo (ref : Nat) (sourceId : String) (src : Nat) : SwitchState × Bool :=
  if (s.viewerObjects ref).closed then (s, false)
  else
    let s := s.release ref
    let v := s.viewerObjects ref
    (s.setViewer ref { v with
      currentSource := sourceId
      billingSource := if isProgrammeSourceID sourceId then sourceId else v.billingSource
      pendingSource := some src
      lastSwitch := some src }, true)

/-- `SwitchViewer`: what is to be activated. -/
def switchViewer (viewerId sourceId : String) : SwitchState × Except String (Option (Nat × Nat)) :=
  match s.viewers[viewerId]? with
  | none => (s, .error ("viewer " ++ viewerId ++ " not found"))
  | some ref =>
    match s.sources[sourceId]? with
    | none => (s, .error ("source " ++ sourceId ++ " not found"))
    | some src =>
      let (s, pending) := s.switchTo ref sourceId src
      (s, .ok (if pending then some (ref, src) else none))

/-- The first section of `activateSource`: whether it goes on. -/
def activate (ref src : Nat) : SwitchState × Bool :=
  if (s.viewerObjects ref).pendingSource = some src then
    ((s.setViewer ref { s.viewerObjects ref with pendingSource := none }).release ref, true)
  else (s, false)

/-- `Subscribe` under the id of the viewer. -/
def subscribe (src ref : Nat) : SwitchState × Subscription :=
  let sub : Subscription := ⟨src, (s.viewerObjects ref).id⟩
  (s.setSubscriber sub (some (.viewer ref)), sub)

/-- The last section of `activateSource`. -/
def keepSubscription (ref : Nat) (sub : Subscription) : SwitchState :=
  s.setViewer ref { s.viewerObjects ref with unsubscribe := some sub }

/-- `EgressSnapshot`. -/
def reading (ref : Nat) : String × Nat := ((s.viewerObjects ref).billingSource, (s.viewerObjects ref).egressBytes)

/-- `egressSnapshot`. -/
def egressSnapshot (viewers : List Nat) : Totals := viewers.foldl (fun totals ref => totals.add (s.reading ref)) s.closedEgress

/-- `recordClosedViewerEgress`. -/
def recordClosedViewerEgress (reading : String × Nat) : SwitchState :=
  { s with closedEgress := Totals.add s.closedEgress reading }

/-- `writeTrack`. -/
def writeTrack (ref marshalSize : Nat) : SwitchState :=
  let v := s.viewerObjects ref
  let n := marshalSize + s.overhead
  { s.setViewer ref { v with egressBytes := v.egressBytes + n } with written := (v.billingSource, n) :: s.written }

end

end SwitchState

/-! ## Requests -/

inductive SwitchRequest where
  | addSource (id : String)
  | removeSource (id : String) (want : Option Nat)
  | addViewer (id : String)
  | takeViewer (id : String) (want : Option Nat)
  | closeViewer (ref : Nat)
  | unsubscribe (sub : Subscription)
  | switchViewer (viewerId sourceId : String)
  | activate (ref src : Nat)
  | subscribe (src ref : Nat)
  | keepSubscription (ref : Nat) (sub : Subscription)
  | viewerRefs
  | closedEgress
  | reading (ref : Nat)
  | recordClosed (reading : String × Nat)

abbrev SwitchRequest.Reply : SwitchRequest → Type
  | .addViewer _ | .takeViewer _ _ => Option Nat
  | .closeViewer _ => Option Subscription
  | .switchViewer _ _ => Except String (Option (Nat × Nat))
  | .activate _ _ => Bool
  | .subscribe _ _ => Subscription
  | .viewerRefs => List Nat
  | .closedEgress => Totals
  | .reading _ => String × Nat
  | .addSource _ | .removeSource _ _ | .unsubscribe _ | .keepSubscription _ _ | .recordClosed _ => Unit

/-- A packet of the source, written to the viewer. -/
inductive SwitchMove where
  | packet (src ref marshalSize : Nat)

def SwitchState.request (s : SwitchState) : (q : SwitchRequest) → Unit → SwitchState × q.Reply
  | .addSource id, _ => (s.addSource id, ())
  | .removeSource id want, _ => (s.removeSource id want, ())
  | .addViewer id, _ => s.addViewer id
  | .takeViewer id want, _ => s.takeViewer id want
  | .closeViewer ref, _ => s.closeViewer ref
  | .unsubscribe sub, _ => (s.unsubscribe sub, ())
  | .switchViewer viewerId sourceId, _ => s.switchViewer viewerId sourceId
  | .activate ref src, _ => s.activate ref src
  | .subscribe src ref, _ => s.subscribe src ref
  | .keepSubscription ref sub, _ => (s.keepSubscription ref sub, ())
  | .viewerRefs, _ => (s, s.viewerRefs)
  | .closedEgress, _ => (s, s.closedEgress)
  | .reading ref, _ => (s, s.reading ref)
  | .recordClosed reading, _ => (s.recordClosedViewerEgress reading, ())

def SwitchState.move (s : SwitchState) : SwitchMove → SwitchState
  | .packet _ ref size => s.writeTrack ref size

def switchService : Service SwitchState Unit SwitchMove SwitchRequest SwitchRequest.Reply where
  request := SwitchState.request
  move := SwitchState.move

abbrev Task (α : Type) : Type := Prog SwitchRequest SwitchRequest.Reply α

/-! ## Tasks -/

/-- `Close`. -/
def close (ref : Nat) : Task Unit :=
  .call (.closeViewer ref) fun sub =>
    match sub with
    | some sub => .call (.unsubscribe sub) fun _ => .ret ()
    | none => .ret ()

/-- `AddViewer`. -/
def addViewer (id : String) : Task Unit :=
  .call (.addViewer id) fun displaced =>
    match displaced with
    | some old => close old
    | none => .ret ()

/-- The end of `removeViewer`. -/
def foldEgress (ref : Nat) : Task Unit := .call (.reading ref) fun reading => .call (.recordClosed reading) fun _ => .ret ()

/-- `removeViewer`. -/
def removeViewer (id : String) (want : Option Nat) : Task Unit :=
  .call (.takeViewer id want) fun found =>
    match found with
    | some ref => (close ref).bind fun _ => foldEgress ref
    | none => .ret ()

/-- `activateSource`. -/
def activateSource (ref src : Nat) : Task Unit :=
  .call (.activate ref src) fun pending =>
    if pending then .call (.subscribe src ref) fun sub => .call (.keepSubscription ref sub) fun _ => .ret () else .ret ()

/-- `SwitchViewer`, with the activation that it starts. -/
def switchViewer (viewerId sourceId : String) : Task Unit :=
  .call (.switchViewer viewerId sourceId) fun r =>
    match r with
    | .ok (some (ref, src)) => activateSource ref src
    | .ok none | .error _ => .ret ()

/-- The viewers of a poll one after the other. -/
def readViewers : List Nat → Totals → Task Totals
  | [], totals => .ret totals
  | ref :: refs, totals => .call (.reading ref) fun reading => readViewers refs (totals.add reading)

/-- `handleEgress`. -/
def handleEgress : Task Totals := .call .viewerRefs fun refs => .call .closedEgress fun totals => readViewers refs totals

/-- What runs, numbered so that two of a kind can be told apart. -/
inductive SwitchJob where
  | addSource (n : Nat) (id : String)
  | removeSource (n : Nat) (id : String) (want : Option Nat)
  | addViewer (n : Nat) (id : String)
  | removeViewer (n : Nat) (id : String) (want : Option Nat)
  | switchViewer (n : Nat) (viewerId sourceId : String)
  | handleEgress (n : Nat)
deriving DecidableEq

inductive SwitchOutcome where
  | done
  | report (totals : Totals)

def SwitchJob.program : SwitchJob → Task SwitchOutcome
  | .addSource _ id => .call (.addSource id) fun _ => .ret .done
  | .removeSource _ id want => .call (.removeSource id want) fun _ => .ret .done
  | .addViewer _ id => (Switch.addViewer id).bind fun _ => .ret .done
  | .removeViewer _ id want => (Switch.removeViewer id want).bind fun _ => .ret .done
  | .switchViewer _ viewerId sourceId => (Switch.switchViewer viewerId sourceId).bind fun _ => .ret .done
  | .handleEgress _ => Switch.handleEgress.bind fun totals => .ret (.report totals)

abbrev SwitchPool : Type := Pool SwitchState SwitchRequest SwitchRequest.Reply SwitchJob SwitchOutcome

abbrev SwitchEvent : Type := Event SwitchJob Unit SwitchMove

def switchStep : SwitchPool → SwitchEvent → SwitchPool := poolStep switchService SwitchJob.program

/-- `NewMediaSwitch`. -/
def SwitchState.empty : SwitchState := ⟨∅, ∅, ∅, fun _ => .new, fun _ => .new "", 0, 0, ∅, 38, []⟩

end MatrixMedia.Switch
