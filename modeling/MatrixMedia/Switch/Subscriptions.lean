import MatrixMedia.Switch.State
import MatrixMedia.Lib.Outline

/-!
# Subscriptions and the routing table

A switch is in two parts: the routing table changes at once, and a task subscribes the viewer later.
The task only asks whether its source is still the pending one, so a viewer that was closed in
between is subscribed all the same (`subscribed_when_closed`); and `unsubscribe` deletes whoever is
subscribed under the id of the viewer. `subscriptions_match` needs that the operations on one viewer
id do not overlap, nor a switch to a source with its removal.

What is to be shown is about one viewer at a time, so the invariant is too: a viewer is settled, or one
task is at work on it.
-/

namespace MatrixMedia.Switch

open Lib Lib.Interaction SwitchState Multiset Function

open Std (TreeMap)

/-! ## What the sections change -/

namespace SwitchState

section

variable {s : SwitchState} {ref src : Nat}

theorem subscribers_setSubscriber (sub : Subscription) (x : Option Subscriber) (src : Nat) (key : String) :
    ((s.setSubscriber sub x).sourceObjects src).subscribers key =
      if sub = ⟨src, key⟩ then x else (s.sourceObjects src).subscribers key := by
  unfold setSubscriber setSource
  obtain ⟨src', key'⟩ := sub
  by_cases hsrc : src = src'
  · subst hsrc
    by_cases hkey : key = key'
    · subst hkey
      simp
    · simp [update_of_ne hkey, Ne.symm hkey]
  · simp [update_of_ne hsrc, Ne.symm hsrc]

/-- The viewer has ended its subscription. -/
theorem viewerObjects_release (s : SwitchState) (ref : Nat) :
    (s.release ref).viewerObjects = update s.viewerObjects ref { s.viewerObjects ref with unsubscribe := none } := by
  unfold release
  split
  · rfl
  · rename_i hnone
    rw [eq_comm, update_eq_self_iff, ← hnone]

theorem viewerObjects_release_self (s : SwitchState) (ref : Nat) :
    (s.release ref).viewerObjects ref = { s.viewerObjects ref with unsubscribe := none } := by
  rw [viewerObjects_release, update_self]

theorem subscribers_release (s : SwitchState) (ref src : Nat) (key : String) :
    ((s.release ref).sourceObjects src).subscribers key =
      if (s.viewerObjects ref).unsubscribe = some ⟨src, key⟩ then none else (s.sourceObjects src).subscribers key := by
  unfold release
  split
  · rename_i sub hsub
    rw [hsub]
    show ((s.setSubscriber sub none).sourceObjects src).subscribers key = _
    rw [subscribers_setSubscriber]
    simp
  · rename_i hnone
    rw [hnone]
    simp

theorem release_maps (s : SwitchState) (ref : Nat) : (s.release ref).viewers = s.viewers ∧ (s.release ref).sources = s.sources ∧
    (s.release ref).nextViewer = s.nextViewer ∧ (s.release ref).nextSource = s.nextSource := by
  unfold release
  split <;> exact ⟨rfl, rfl, rfl, rfl⟩

end

end SwitchState

/-! ## One viewer -/

namespace SwitchState

def Registered (s : SwitchState) (ref : Nat) : Prop := s.viewers[(s.viewerObjects ref).id]? = some ref

/-- Subscribed to these sources. -/
def ReceivesOnly (s : SwitchState) (ref : Nat) (srcs : Nat → Prop) : Prop := ∀ src, s.Receives src ref ↔ srcs src

/-- Subscribed to the source of the last switch, if any, and to no other. -/
def Joined (s : SwitchState) (ref : Nat) : Prop :=
  (s.viewerObjects ref).pendingSource = none ∧
  (((s.viewerObjects ref).lastSwitch = none ∧ (s.viewerObjects ref).unsubscribe = none ∧ s.ReceivesOnly ref fun _ => False) ∨
    ∃ src < s.nextSource, (s.viewerObjects ref).lastSwitch = some src ∧
      (s.viewerObjects ref).unsubscribe = some ⟨src, (s.viewerObjects ref).id⟩ ∧ s.ReceivesOnly ref fun x => x = src)

/-- No task is at work on the viewer. -/
def Settled (s : SwitchState) (ref : Nat) : Prop :=
  ((s.viewerObjects ref).closed = true ∧ ¬s.Registered ref ∧ s.ReceivesOnly ref fun _ => False) ∨
  ((s.viewerObjects ref).closed = false ∧ s.Registered ref ∧ s.Joined ref)

/-- The viewer has been switched and is not yet subscribed. -/
structure Switching (s : SwitchState) (ref src : Nat) (sourceId : Option String) (pending : Option Nat) (srcs : Nat → Prop) : Prop where
  registered : s.Registered ref
  opened : (s.viewerObjects ref).closed = false
  current : sourceId = some (s.viewerObjects ref).currentSource
  pendingSource : (s.viewerObjects ref).pendingSource = pending
  lastSwitch : (s.viewerObjects ref).lastSwitch = some src
  known : src < s.nextSource
  unsubscribe : (s.viewerObjects ref).unsubscribe = none
  receives : s.ReceivesOnly ref srcs

/-- Nothing of the viewer changes but its counters. -/
structure SameViewer (s s' : SwitchState) (ref : Nat) : Prop where
  id : (s'.viewerObjects ref).id = (s.viewerObjects ref).id
  closed : (s'.viewerObjects ref).closed = (s.viewerObjects ref).closed
  current : (s'.viewerObjects ref).currentSource = (s.viewerObjects ref).currentSource
  pendingSource : (s'.viewerObjects ref).pendingSource = (s.viewerObjects ref).pendingSource
  lastSwitch : (s'.viewerObjects ref).lastSwitch = (s.viewerObjects ref).lastSwitch
  unsubscribe : (s'.viewerObjects ref).unsubscribe = (s.viewerObjects ref).unsubscribe
  registered : s'.Registered ref ↔ s.Registered ref
  kept : ∀ src < s.nextSource, s.Receives src ref → s'.Receives src ref
  fewer : ∀ src, s'.Receives src ref → s.Receives src ref
  known : s.nextSource ≤ s'.nextSource

section

variable {s s' : SwitchState} {ref : Nat}

theorem SameViewer.of_counters {bytes} (hviewer : s'.viewerObjects ref = { s.viewerObjects ref with egressBytes := bytes })
    (hregistered : s'.Registered ref ↔ s.Registered ref) (hreceives : ∀ src, s'.Receives src ref ↔ s.Receives src ref)
    (hnext : s'.nextSource = s.nextSource) : SameViewer s s' ref :=
  ⟨by rw [hviewer], by rw [hviewer], by rw [hviewer], by rw [hviewer], by rw [hviewer], by rw [hviewer], hregistered,
    fun src _ => (hreceives src).mpr, fun src => (hreceives src).mp, Nat.le_of_eq hnext.symm⟩

theorem SameViewer.none (h : SameViewer s s' ref) (hnone : s.ReceivesOnly ref fun _ => False) : s'.ReceivesOnly ref fun _ => False :=
  fun src => ⟨fun hsrc => (hnone src).mp (h.fewer src hsrc), False.elim⟩

theorem SameViewer.one (h : SameViewer s s' ref) {src} (hsrc : src < s.nextSource) (hone : s.ReceivesOnly ref fun x => x = src) :
    s'.ReceivesOnly ref fun x => x = src := by
  refine fun x => ⟨fun hx => (hone x).mp (h.fewer x hx), ?_⟩
  rintro rfl
  exact h.kept x hsrc ((hone x).mpr rfl)

theorem Joined.same (hjoined : s.Joined ref) (h : SameViewer s s' ref) : s'.Joined ref := by
  obtain ⟨hpending, hcase⟩ := hjoined
  refine ⟨h.pendingSource.trans hpending, ?_⟩
  rcases hcase with ⟨hlast, hunsub, hnone⟩ | ⟨src, hsrc, hlast, hunsub, hone⟩
  · exact .inl ⟨h.lastSwitch.trans hlast, h.unsubscribe.trans hunsub, h.none hnone⟩
  · exact .inr ⟨src, Nat.lt_of_lt_of_le hsrc h.known, h.lastSwitch.trans hlast, by rw [h.unsubscribe, h.id, hunsub], h.one hsrc hone⟩

theorem Settled.same (hsettled : s.Settled ref) (h : SameViewer s s' ref) : s'.Settled ref := by
  rcases hsettled with ⟨hclosed, hgone, hnone⟩ | ⟨hopen, hregistered, hjoined⟩
  · exact .inl ⟨h.closed.trans hclosed, fun hregistered => hgone (h.registered.mp hregistered), h.none hnone⟩
  · exact .inr ⟨h.closed.trans hopen, h.registered.mpr hregistered, hjoined.same h⟩

/-- A removal takes out the viewer that has the id, if it is the one that is wanted. -/
theorem request_takeViewer (s : SwitchState) (id : String) (want : Option Nat) : s.request (.takeViewer id want) () = (s, none) ∨
    ∃ ref, s.viewers[id]? = some ref ∧ s.request (.takeViewer id want) () = ({ s with viewers := s.viewers.erase id }, some ref) := by
  cases hviewer : s.viewers[id]? with
  | none => exact .inl (by simp only [request, takeViewer, hviewer])
  | some ref =>
    by_cases hwant : ∃ w ∈ want, w ≠ ref
    · exact .inl (by simp only [request, takeViewer, hviewer, if_pos hwant])
    · exact .inr ⟨ref, rfl, by simp only [request, takeViewer, hviewer, if_neg hwant]⟩

/-- A switch that finds the viewer and the source is the section of `SwitchTo`. -/
theorem switchViewer_cases (s : SwitchState) (viewerId sourceId : String) : (∃ e, s.switchViewer viewerId sourceId = (s, .error e)) ∨
    ∃ ref src, s.viewers[viewerId]? = some ref ∧ s.sources[sourceId]? = some src ∧ s.switchViewer viewerId sourceId =
      ((s.switchTo ref sourceId src).1, .ok (if (s.switchTo ref sourceId src).2 then some (ref, src) else none)) := by
  unfold switchViewer
  cases hviewer : s.viewers[viewerId]? with
  | none => exact .inl ⟨_, rfl⟩
  | some ref =>
    cases hsource : s.sources[sourceId]? with
    | none => exact .inl ⟨_, rfl⟩
    | some src => exact .inr ⟨ref, src, rfl, rfl, rfl⟩

theorem Switching.same {src sourceId pending srcs}
    (hswitching : s.Switching ref src sourceId pending srcs) (h : SameViewer s s' ref)
    (hreceives : s'.ReceivesOnly ref srcs) : s'.Switching ref src sourceId pending srcs :=
  ⟨h.registered.mpr hswitching.registered, h.closed.trans hswitching.opened, by rw [h.current, hswitching.current],
    h.pendingSource.trans hswitching.pendingSource, h.lastSwitch.trans hswitching.lastSwitch,
    Nat.lt_of_lt_of_le hswitching.known h.known, h.unsubscribe.trans hswitching.unsubscribe, hreceives⟩

end

end SwitchState

/-! ## Stages -/

/-- The viewer id that a job is about. -/
def SwitchJob.viewer : SwitchJob → Option String
  | .addViewer _ id | .removeViewer _ id _ | .switchViewer _ id _ => some id
  | _ => none

/-- The source id that a job switches to. -/
def SwitchJob.switchesTo : SwitchJob → Option String
  | .switchViewer _ _ id => some id
  | _ => none

/-- The source id that a job removes. -/
def SwitchJob.removes : SwitchJob → Option String
  | .removeSource _ id _ => some id
  | _ => none

/-- The request changes no subscription and no routing. -/
def MeterCall : SwitchRequest → Prop
  | .viewerRefs | .closedEgress | .reading _ | .recordClosed _ => True
  | _ => False

inductive Wiring where
  /-- Before its first request. -/
  | fresh
  | idle
  | closing (ref : Nat)
  | unsubscribing (ref src : Nat)
  | waiting (ref src : Nat)
  | subscribing (ref src : Nat)
  /-- Subscribed, and the viewer does not know how to end it yet. -/
  | storing (ref src : Nat)

/-- The viewer that a task is at work on. -/
def Wiring.viewer : Wiring → Option Nat
  | .closing ref | .unsubscribing ref _ | .waiting ref _ | .subscribing ref _ | .storing ref _ => some ref
  | .fresh | .idle => none

/-- The task closes the viewer next. -/
def AtClose (ref : Nat) (p : Task SwitchOutcome) : Prop :=
  ∃ next, p = .call (.closeViewer ref) next ∧ (next none).Uses MeterCall ∧
    ∀ sub, ∃ next', next (some sub) = .call (.unsubscribe sub) next' ∧ (next' ()).Uses MeterCall

/-- The task stores the subscription next. -/
def AtStore (ref : Nat) (sub : Subscription) (p : Task SwitchOutcome) : Prop :=
  ∃ next, p = .call (.keepSubscription ref sub) next ∧ (next ()).Uses MeterCall

/-- The task subscribes the viewer next. -/
def AtSubscribe (ref src : Nat) (p : Task SwitchOutcome) : Prop :=
  ∃ next, p = .call (.subscribe src ref) next ∧ ∀ sub, AtStore ref sub (next sub)

def Wiring.Stands (s : SwitchJob) (p : Task SwitchOutcome) : Wiring → Prop
  | .fresh => p = s.program
  | .idle => p.Uses MeterCall
  | .closing ref => AtClose ref p
  | .unsubscribing _ src => ∃ id next, s.viewer = some id ∧ p = .call (.unsubscribe ⟨src, id⟩) next ∧ (next ()).Uses MeterCall
  | .waiting ref src => ∃ next, p = .call (.activate ref src) next ∧ (next false).Uses MeterCall ∧ AtSubscribe ref src (next true)
  | .subscribing ref src => AtSubscribe ref src p
  | .storing ref src => ∃ id, s.viewer = some id ∧ AtStore ref ⟨src, id⟩ p

def Wiring.Ok (s : SwitchState) (k : SwitchJob) : Wiring → Prop
  | .fresh | .idle => True
  | .closing ref => (s.viewerObjects ref).closed = false ∧ ¬s.Registered ref ∧ s.Joined ref
  | .unsubscribing ref src => src < s.nextSource ∧ (s.viewerObjects ref).closed = true ∧ ¬s.Registered ref ∧
      s.ReceivesOnly ref fun x => x = src
  | .waiting ref src => s.Switching ref src k.switchesTo (some src) fun _ => False
  | .subscribing ref src => s.Switching ref src k.switchesTo none fun _ => False
  | .storing ref src => s.Switching ref src k.switchesTo none fun x => x = src

/-! ## The invariant -/

/-- The maps and the keys of the subscribers. -/
structure TablesOk (s : SwitchState) : Prop where
  keys : ∀ (src : Nat) (key : String) (ref : Nat), (s.sourceObjects src).subscribers key = some (.viewer ref) →
    ref < s.nextViewer ∧ key = (s.viewerObjects ref).id
  viewers : ∀ (id : String) (ref : Nat), s.viewers[id]? = some ref → ref < s.nextViewer ∧ (s.viewerObjects ref).id = id
  sources : ∀ (id : String) (src : Nat), s.sources[id]? = some src → src < s.nextSource

structure WireInv (s : SwitchState) (notes : Multiset (SwitchJob × Wiring)) : Prop where
  tables : TablesOk s
  settled : ∀ ref < s.nextViewer, (∃ n ∈ notes, n.2.viewer = some ref) ∨ s.Settled ref
  /-- A task works on a viewer of the id that its job is about. -/
  owners : ∀ n ∈ notes, ∀ ref, n.2.viewer = some ref → ref < s.nextViewer ∧ n.1.viewer = some (s.viewerObjects ref).id
  stages : ∀ n ∈ notes, n.2.Ok s n.1
  ids : ((notes.map Prod.fst).filterMap SwitchJob.viewer).Nodup
  apart : ∀ j ∈ notes.map Prod.fst, ∀ j' ∈ notes.map Prod.fst, ∀ id, j.switchesTo = some id → j'.removes ≠ some id

section

variable {s s' : SwitchState} {notes : Multiset (SwitchJob × Wiring)} {k : SwitchJob} {t t' : Wiring} {ref src : Nat}

theorem TablesOk.registered (h : TablesOk s) {id : String} (hviewer : s.viewers[id]? = some ref) : s.Registered ref := by
  unfold Registered
  rw [(h.viewers id ref hviewer).2, hviewer]

theorem TablesOk.same (h : TablesOk s) (hid : ∀ ref, (s'.viewerObjects ref).id = (s.viewerObjects ref).id) (hviewers : s'.viewers = s.viewers)
    (hnext : s'.nextViewer = s.nextViewer) (hnextSource : s'.nextSource = s.nextSource)
    (hsubscribers : ∀ src, (s'.sourceObjects src).subscribers = (s.sourceObjects src).subscribers)
    (hsources : ∀ (x : String) src, s'.sources[x]? = some src → s.sources[x]? = some src) : TablesOk s' := by
  refine ⟨fun src key x hentry => ?_, fun x ref hx => ?_, fun x src hx => ?_⟩
  · rw [hsubscribers] at hentry
    rw [hnext, hid]
    exact h.keys src key x hentry
  · rw [hviewers] at hx
    rw [hnext, hid]
    exact h.viewers x ref hx
  · rw [hnextSource]
    exact h.sources x src (hsources x src hx)

theorem Wiring.Ok.same (h : t.Ok s k) (hs : ∀ ref, t.viewer = some ref → SameViewer s s' ref) : t.Ok s' k := by
  cases t with
  | fresh | idle => trivial
  | closing ref =>
    have hs := hs ref rfl
    exact ⟨hs.closed.trans h.1, fun hregistered => h.2.1 (hs.registered.mp hregistered), h.2.2.same hs⟩
  | unsubscribing ref src =>
    have hs := hs ref rfl
    exact ⟨Nat.lt_of_lt_of_le h.1 hs.known, hs.closed.trans h.2.1, fun hregistered => h.2.2.1 (hs.registered.mp hregistered),
      hs.one h.1 h.2.2.2⟩
  | waiting ref src | subscribing ref src =>
    have hs := hs ref rfl
    exact Switching.same h hs (hs.none h.receives)
  | storing ref src =>
    have hs := hs ref rfl
    exact Switching.same h hs (hs.one h.known h.receives)

theorem WireInv.stage (h : WireInv s ((k, t) ::ₘ notes)) : t.Ok s k := h.stages _ (mem_cons_self _ _)

variable {id : String} {v : Viewer} {q : SwitchRequest}

/-- No other task is about the same viewer id. -/
theorem WireInv.alone (h : WireInv s ((k, t) ::ₘ notes)) (hk : k.viewer = some id) {n} (hn : n ∈ notes) :
    n.1.viewer ≠ some id := by
  have hids := h.ids
  rw [map_cons, filterMap_cons_some _ _ _ hk, nodup_cons] at hids
  intro heq
  exact hids.1 ((mem_filterMap _ _).mpr ⟨n.1, mem_map_of_mem _ hn, heq⟩)

/-- **One task acts.** The viewers that are not `special` stay as they were, and no other task is at
work on a special one. -/
theorem WireInv.step (h : WireInv s ((k, t) ::ₘ notes)) (special : Nat → Prop) (htables : TablesOk s') (hnext : s.nextViewer ≤ s'.nextViewer)
    (hsame : ∀ ref < s.nextViewer, ¬special ref → SameViewer s s' ref)
    (hid : ∀ ref < s.nextViewer, (s'.viewerObjects ref).id = (s.viewerObjects ref).id)
    (hothers : ∀ n ∈ notes, ∀ ref, n.2.viewer = some ref → ¬special ref) (hold : ∀ ref, t.viewer = some ref → special ref)
    (hspecial : ∀ ref < s'.nextViewer, special ref ∨ s.nextViewer ≤ ref → t'.viewer = some ref ∨ s'.Settled ref)
    (howner : ∀ ref, t'.viewer = some ref → ref < s'.nextViewer ∧ k.viewer = some (s'.viewerObjects ref).id) (hstage : t'.Ok s' k) :
    WireInv s' ((k, t') ::ₘ notes) := by
  obtain ⟨-, hstages⟩ := forall_mem_cons.mp h.stages
  obtain ⟨-, howners⟩ := forall_mem_cons.mp h.owners
  refine ⟨htables, fun ref href => ?_, forall_mem_cons.mpr ⟨howner, fun n hn ref href => ?_⟩,
    forall_mem_cons.mpr ⟨hstage, fun n hn => ?_⟩, by simpa using h.ids, by simpa using h.apart⟩
  · by_cases hcase : special ref ∨ s.nextViewer ≤ ref
    · rcases hspecial ref href hcase with hat | hsettled
      · exact .inl ⟨_, mem_cons_self _ _, hat⟩
      · exact .inr hsettled
    · obtain ⟨hplain, hlt⟩ := not_or.mp hcase
      rcases h.settled ref (Nat.lt_of_not_le hlt) with ⟨n, hn, hat⟩ | hsettled
      · rcases mem_cons.mp hn with rfl | hn
        · exact absurd (hold ref hat) hplain
        · exact .inl ⟨n, mem_cons_of_mem hn, hat⟩
      · exact .inr (hsettled.same (hsame ref (Nat.lt_of_not_le hlt) hplain))
  · obtain ⟨hlt, howner⟩ := howners n hn ref href
    exact ⟨Nat.lt_of_lt_of_le hlt hnext, by rw [hid ref hlt, howner]⟩
  · exact (hstages n hn).same fun ref href => hsame ref (howners n hn ref href).1 (hothers n hn ref href)

/-- A task that is at work on no viewer acts, and all stay as they were. -/
theorem WireInv.rest (h : WireInv s ((k, t) ::ₘ notes)) (ht : t.viewer = none) (htables : TablesOk s') (hnext : s'.nextViewer = s.nextViewer)
    (hsame : ∀ ref, SameViewer s s' ref) : WireInv s' ((k, .idle) ::ₘ notes) := by
  refine h.step (fun _ => False) htables (Nat.le_of_eq hnext.symm) (fun x _ _ => hsame x) (fun x _ => (hsame x).id)
    (fun _ _ _ _ => not_false) (fun x hx => by cases ht.symm.trans hx) ?_ nofun trivial
  rintro x hx (hfalse | hle)
  · exact hfalse.elim
  · exact absurd hx (Nat.not_lt.mpr (hnext ▸ hle))

/-- What a section does that is about one viewer. -/
structure ActsOn (s s' : SwitchState) (ref : Nat) (v : Viewer) : Prop where
  maps : s'.viewers = s.viewers ∧ s'.sources = s.sources ∧ s'.nextViewer = s.nextViewer ∧ s'.nextSource = s.nextSource
  viewer : s'.viewerObjects = update s.viewerObjects ref v
  id : v.id = (s.viewerObjects ref).id
  others : ∀ (src : Nat) (key : String) (x : Nat), x ≠ ref → ((s'.sourceObjects src).subscribers key = some (.viewer x) ↔
    (s.sourceObjects src).subscribers key = some (.viewer x))
  own : ∀ (src : Nat) (key : String), (s'.sourceObjects src).subscribers key = some (.viewer ref) → key = (s.viewerObjects ref).id

section

variable (h : ActsOn s s' ref v)

include h

theorem ActsOn.at_ref : s'.viewerObjects ref = v := by
  rw [h.viewer, update_self]

theorem ActsOn.registered : s'.Registered ref ↔ s.Registered ref := by
  unfold Registered
  rw [h.at_ref, h.id, h.maps.1]

theorem ActsOn.same {x} (hx : x ≠ ref) : SameViewer s s' x := by
  have hviewer : s'.viewerObjects x = s.viewerObjects x := by rw [h.viewer, update_of_ne hx]
  refine .of_counters hviewer ?_ (fun src => ?_) h.maps.2.2.2
  · unfold Registered
    rw [hviewer, h.maps.1]
  · unfold Receives
    rw [hviewer]
    exact h.others src _ x hx

theorem ActsOn.id_eq (x : Nat) : (s'.viewerObjects x).id = (s.viewerObjects x).id := by
  by_cases hx : x = ref
  · rw [hx, h.at_ref, h.id]
  · exact (h.same hx).id

theorem ActsOn.tables (htables : TablesOk s) (href : ref < s.nextViewer) : TablesOk s' := by
  obtain ⟨hviewers, hsources, hnext, hnextSource⟩ := h.maps
  refine ⟨fun src key x hx => ?_, fun id x hx => ?_, fun id src hsrc => ?_⟩
  · rw [hnext, h.id_eq]
    by_cases hxref : x = ref
    · subst hxref
      exact ⟨href, h.own src key hx⟩
    · exact htables.keys src key x ((h.others src key x hxref).mp hx)
  · rw [hviewers] at hx
    rw [hnext, h.id_eq]
    exact htables.viewers id x hx
  · rw [hsources] at hsrc
    rw [hnextSource]
    exact htables.sources id src hsrc

end

section

variable (h : WireInv s ((k, t) ::ₘ notes))

include h

/-- A section that is about one viewer, which no other task is at work on. -/
theorem WireInv.act (hact : ActsOn s s' ref v) (href : ref < s.nextViewer)
    (hothers : ∀ n ∈ notes, n.2.viewer ≠ some ref) (hold : ∀ x, t.viewer = some x → x = ref)
    (howner : ∀ x, t'.viewer = some x → x = ref ∧ k.viewer = some (s.viewerObjects ref).id) (hself : t'.viewer = some ref ∨ s'.Settled ref)
    (hstage : t'.Ok s' k) : WireInv s' ((k, t') ::ₘ notes) := by
  refine h.step (fun x => x = ref) (hact.tables h.tables href) (Nat.le_of_eq hact.maps.2.2.1.symm) (fun x _ hx => hact.same hx)
    (fun x _ => hact.id_eq x) ?_ hold ?_ ?_ hstage
  · rintro n hn x hx rfl
    exact hothers n hn hx
  · rintro x hx (rfl | hle)
    · exact hself
    · rw [hact.maps.2.2.1] at hx
      omega
  · intro x hx
    obtain ⟨rfl, hk⟩ := howner x hx
    rw [hact.maps.2.2.1, hact.id_eq]
    exact ⟨href, hk⟩

/-! ### Sections about one viewer -/

/-- No other task is at work on a viewer of the job's id. -/
theorem WireInv.others (hk : k.viewer = some id) (hid : (s.viewerObjects ref).id = id) :
    ∀ n ∈ notes, n.2.viewer ≠ some ref := by
  intro n hn hat
  refine h.alone hk hn ?_
  rw [(h.owners n (mem_cons_of_mem hn) ref hat).2, hid]

/-- A task goes on with its viewer. -/
theorem WireInv.goOn (ht : t.viewer = some ref) (hact : ActsOn s s' ref v)
    (hself : t'.viewer = some ref ∨ t'.viewer = none ∧ s'.Settled ref) (hstage : t'.Ok s' k) : WireInv s' ((k, t') ::ₘ notes) := by
  obtain ⟨href, hk⟩ := h.owners _ (mem_cons_self _ _) ref ht
  refine h.act hact href (h.others hk rfl) (fun x hx => Option.some.inj (hx.symm.trans ht)) (fun x hx => ?_)
    (hself.imp_right And.right) hstage
  rcases hself with heq | ⟨heq, -⟩
  · exact ⟨Option.some.inj (hx.symm.trans heq), hk⟩
  · cases heq.symm.trans hx

/-- A viewer that no task is at work on. -/
theorem WireInv.settled_of (href : ref < s.nextViewer) (ht : t.viewer ≠ some ref)
    (hothers : ∀ n ∈ notes, n.2.viewer ≠ some ref) : s.Settled ref := by
  rcases h.settled ref href with ⟨n, hn, hat⟩ | hsettled
  · rcases mem_cons.mp hn with rfl | hn
    · exact absurd hat ht
    · exact absurd hat (hothers n hn)
  · exact hsettled

end

/-- Fields of the viewer change, and no subscription. -/
theorem TablesOk.acts (h : TablesOk s) (hid : v.id = (s.viewerObjects ref).id) : ActsOn s (s.setViewer ref v) ref v ∧
    ∀ {srcs}, s.ReceivesOnly ref srcs → (s.setViewer ref v).ReceivesOnly ref srcs := by
  have hacts : ActsOn s (s.setViewer ref v) ref v :=
    ⟨⟨rfl, rfl, rfl, rfl⟩, rfl, hid, fun _ _ _ _ => Iff.rfl, fun src key hkey => (h.keys src key ref hkey).2⟩
  refine ⟨hacts, fun hsrcs src => ?_⟩
  unfold Receives
  rw [hacts.at_ref, hid]
  exact hsrcs src

/-- A subscription under the viewer's id changes, which nobody else had. -/
theorem TablesOk.actsOnSubscriber (h : TablesOk s) (src ref : Nat) (x : Option Subscriber)
    (howner : ∀ y, (s.sourceObjects src).subscribers (s.viewerObjects ref).id = some (.viewer y) → y = ref)
    (hx : ∀ y, x = some (.viewer y) → y = ref) :
    ActsOn s (s.setSubscriber ⟨src, (s.viewerObjects ref).id⟩ x) ref (s.viewerObjects ref) ∧
    ∀ src', (s.setSubscriber ⟨src, (s.viewerObjects ref).id⟩ x).Receives src' ref ↔
      if src' = src then x = some (.viewer ref) else s.Receives src' ref := by
  refine ⟨⟨⟨rfl, rfl, rfl, rfl⟩, (update_eq_self ref s.viewerObjects).symm, rfl, fun src' key y hy => ?_, fun src' key hkey => ?_⟩,
    fun src' => ?_⟩
  · rw [subscribers_setSubscriber]
    split
    · rename_i heq
      cases heq
      exact ⟨fun hentry => absurd (hx y hentry) hy, fun hentry => absurd (howner y hentry) hy⟩
    · rfl
  · rw [subscribers_setSubscriber] at hkey
    split at hkey
    · rename_i heq
      cases heq
      rfl
    · exact (h.keys src' key ref hkey).2
  · unfold Receives
    rw [subscribers_setSubscriber]
    by_cases hsrc : src' = src
    · rw [if_pos hsrc, if_pos (by rw [hsrc]; rfl)]
    · rw [if_neg hsrc, if_neg fun heq => hsrc (congrArg Subscription.source heq).symm]
      rfl

/-- A registered viewer that no task is at work on. -/
theorem SwitchState.Settled.opened (h : s.Settled ref) (hregistered : s.Registered ref) :
    (s.viewerObjects ref).closed = false ∧ s.Joined ref := by
  rcases h with ⟨-, hgone, -⟩ | ⟨hopen, -, hjoined⟩
  · exact absurd hregistered hgone
  · exact ⟨hopen, hjoined⟩

/-- The viewer ends its one subscription. -/
theorem SwitchState.Joined.release (h : s.Joined ref) (htables : TablesOk s) :
    (∀ src key x, x ≠ ref → (((s.release ref).sourceObjects src).subscribers key = some (.viewer x) ↔
      (s.sourceObjects src).subscribers key = some (.viewer x))) ∧
    ∀ src key, ((s.release ref).sourceObjects src).subscribers key ≠ some (.viewer ref) := by
  obtain ⟨-, ⟨-, hunsub, hnone⟩ | ⟨src', -, -, hunsub, hone⟩⟩ := h
  · refine ⟨fun src key x hx => ?_, fun src key hown => ?_⟩
    · rw [subscribers_release, hunsub]
      simp
    · rw [subscribers_release, hunsub, if_neg (by simp)] at hown
      have hkey := (htables.keys src key ref hown).2
      subst hkey
      exact (hnone src).mp hown
  · refine ⟨fun src key x hx => ?_, fun src key hown => ?_⟩
    · rw [subscribers_release, hunsub]
      split
      · rename_i heq
        cases heq
        have hmine : (s.sourceObjects src').subscribers (s.viewerObjects ref).id = some (.viewer ref) := (hone src').mpr rfl
        rw [hmine]
        simpa using Ne.symm hx
      · rfl
    · rw [subscribers_release, hunsub] at hown
      split at hown
      · cases hown
      · rename_i hne
        have hkey := (htables.keys src key ref hown).2
        subst hkey
        obtain rfl := (hone src).mp hown
        exact hne rfl

/-- The viewer ends its subscription and its fields change. -/
theorem SwitchState.Joined.acts (h : s.Joined ref) (htables : TablesOk s) (hid : v.id = (s.viewerObjects ref).id) :
    ActsOn s ((s.release ref).setViewer ref v) ref v ∧ ((s.release ref).setViewer ref v).ReceivesOnly ref fun _ => False := by
  obtain ⟨hothers, hown⟩ := h.release htables
  refine ⟨⟨s.release_maps ref, ?_, hid, hothers, fun src key hkey => absurd hkey (hown src key)⟩, fun src => ⟨hown src _, False.elim⟩⟩
  show update (s.release ref).viewerObjects ref v = _
  rw [viewerObjects_release, update_idem]

/-- The section of a switch. -/
theorem WireInv.switchTo (h : WireInv s ((k, .fresh) ::ₘ notes)) {sourceId : String} (hk : k.viewer = some id)
    (hto : k.switchesTo = some sourceId) (hviewer : s.viewers[id]? = some ref) (hsource : s.sources[sourceId]? = some src) :
    (s.switchTo ref sourceId src).2 = true ∧ WireInv (s.switchTo ref sourceId src).1 ((k, .waiting ref src) ::ₘ notes) := by
  obtain ⟨href, hid⟩ := h.tables.viewers id ref hviewer
  have hregistered := h.tables.registered hviewer
  have hothers := h.others hk hid
  obtain ⟨hopen, hjoined⟩ := (h.settled_of href (by simp [Wiring.viewer]) hothers).opened hregistered
  unfold SwitchState.switchTo
  rw [if_neg (by simp [hopen])]
  simp only [viewerObjects_release_self]
  obtain ⟨hacts, hnone⟩ := hjoined.acts h.tables (v := { s.viewerObjects ref with
    currentSource := sourceId
    unsubscribe := none
    pendingSource := some src
    billingSource := if isProgrammeSourceID sourceId then sourceId else (s.viewerObjects ref).billingSource
    lastSwitch := some src }) rfl
  refine ⟨trivial, h.act hacts href hothers nofun (fun x hx => ?_) (.inl rfl) ⟨hacts.registered.mpr hregistered, ?_, ?_, ?_, ?_, ?_, ?_, hnone⟩⟩
  · cases hx
    exact ⟨rfl, by rw [hk, hid]⟩
  · rw [hacts.at_ref]
    exact hopen
  · rw [hacts.at_ref]
    exact hto
  · rw [hacts.at_ref]
  · rw [hacts.at_ref]
  · rw [hacts.maps.2.2.2]
    exact h.tables.sources sourceId src hsource
  · rw [hacts.at_ref]

/-- The activation is the one that is pending. -/
theorem WireInv.activate (h : WireInv s ((k, .waiting ref src) ::ₘ notes)) :
    (s.activate ref src).2 = true ∧ WireInv (s.activate ref src).1 ((k, .subscribing ref src) ::ₘ notes) := by
  have hswitching : s.Switching ref src k.switchesTo (some src) fun _ => False := h.stage
  unfold SwitchState.activate
  rw [if_pos hswitching.pendingSource]
  have hrelease : (s.setViewer ref { s.viewerObjects ref with pendingSource := none }).release ref =
      s.setViewer ref { s.viewerObjects ref with pendingSource := none } := by
    unfold release setViewer
    simp only [update_self]
    rw [hswitching.unsubscribe]
  rw [hrelease]
  obtain ⟨hacts, hreceives⟩ := h.tables.acts (v := { s.viewerObjects ref with pendingSource := none }) rfl
  refine ⟨rfl, h.goOn rfl hacts (.inl rfl) ⟨hacts.registered.mpr hswitching.registered, ?_, ?_, ?_, ?_, hswitching.known, ?_,
    hreceives hswitching.receives⟩⟩
  · rw [hacts.at_ref]
    exact hswitching.opened
  · rw [hacts.at_ref]
    exact hswitching.current
  · rw [hacts.at_ref]
  · rw [hacts.at_ref]
    exact hswitching.lastSwitch
  · rw [hacts.at_ref]
    exact hswitching.unsubscribe

/-- Nobody else has a subscription under the id of a registered viewer. -/
theorem WireInv.owner_of_key (h : WireInv s ((k, t) ::ₘ notes)) (hk : k.viewer = some (s.viewerObjects ref).id)
    (hregistered : s.Registered ref) (ht : ∀ x, t.viewer = some x → x = ref) {x}
    (hentry : (s.sourceObjects src).subscribers (s.viewerObjects ref).id = some (.viewer x)) : x = ref := by
  obtain ⟨hx, hid⟩ := h.tables.keys src _ x hentry
  by_contra hne
  have hsettled := h.settled_of hx (fun hat => hne (ht x hat)) (h.others hk hid.symm)
  have hreceives : s.Receives src x := by
    unfold Receives
    rw [← hid, hentry]
  rcases hsettled with ⟨-, -, hnone⟩ | ⟨-, hother, -⟩
  · exact (hnone src).mp hreceives
  · unfold Registered at hregistered hother
    rw [← hid, hregistered] at hother
    exact hne (Option.some.inj hother).symm

theorem WireInv.subscribe (h : WireInv s ((k, .subscribing ref src) ::ₘ notes)) :
    WireInv (s.subscribe src ref).1 ((k, .storing ref src) ::ₘ notes) := by
  have hswitching : s.Switching ref src k.switchesTo none fun _ => False := h.stage
  obtain ⟨-, hk⟩ := h.owners _ (mem_cons_self _ _) ref rfl
  obtain ⟨hacts, hreceives⟩ := h.tables.actsOnSubscriber src ref (some (.viewer ref))
    (fun y => h.owner_of_key hk hswitching.registered fun x hx => (Option.some.inj hx).symm) fun y hy => by cases hy; rfl
  refine h.goOn rfl hacts (.inl rfl) ⟨hswitching.registered, hswitching.opened, hswitching.current, hswitching.pendingSource,
    hswitching.lastSwitch, hswitching.known, hswitching.unsubscribe, fun src' => (hreceives src').trans ?_⟩
  rw [hswitching.receives src']
  simp

theorem WireInv.keep (h : WireInv s ((k, .storing ref src) ::ₘ notes)) (hid : k.viewer = some id) :
    WireInv (s.keepSubscription ref ⟨src, id⟩) ((k, .idle) ::ₘ notes) := by
  have hswitching : s.Switching ref src k.switchesTo none fun x => x = src := h.stage
  obtain ⟨-, hk⟩ := h.owners _ (mem_cons_self _ _) ref rfl
  obtain rfl : id = (s.viewerObjects ref).id := Option.some.inj (hid.symm.trans hk)
  unfold SwitchState.keepSubscription
  obtain ⟨hacts, hreceives⟩ := h.tables.acts (v := { s.viewerObjects ref with unsubscribe := some ⟨src, (s.viewerObjects ref).id⟩ }) rfl
  refine h.goOn rfl hacts (.inr ⟨rfl, .inr ⟨?_, hacts.registered.mpr hswitching.registered, ?_,
    .inr ⟨src, hswitching.known, ?_, ?_, hreceives hswitching.receives⟩⟩⟩) trivial
  · rw [hacts.at_ref]
    exact hswitching.opened
  · rw [hacts.at_ref]
    exact hswitching.pendingSource
  · rw [hacts.at_ref]
    exact hswitching.lastSwitch
  · rw [hacts.at_ref]

/-- The first section of `Close`, and where it goes on. -/
theorem WireInv.closeViewer (h : WireInv s ((k, .closing ref) ::ₘ notes)) :
    ((s.closeViewer ref).2 = none ∧ WireInv (s.closeViewer ref).1 ((k, .idle) ::ₘ notes)) ∨
    ∃ src id, k.viewer = some id ∧ (s.closeViewer ref).2 = some ⟨src, id⟩ ∧
      WireInv (s.closeViewer ref).1 ((k, .unsubscribing ref src) ::ₘ notes) := by
  obtain ⟨hopen, hgone, hjoined⟩ := h.stage
  obtain ⟨-, hk⟩ := h.owners _ (mem_cons_self _ _) ref rfl
  have hclose : s.closeViewer ref = (s.setViewer ref { s.viewerObjects ref with closed := true }, (s.viewerObjects ref).unsubscribe) := by
    unfold SwitchState.closeViewer
    rw [if_neg (by simp [hopen])]
  rw [hclose]
  obtain ⟨hacts, hreceives⟩ := h.tables.acts (v := { s.viewerObjects ref with closed := true }) rfl
  have hclosed := congrArg Viewer.closed hacts.at_ref
  have hunregistered := mt hacts.registered.mp hgone
  obtain ⟨-, ⟨-, hunsub, hnone⟩ | ⟨src, hsrc, -, hunsub, hone⟩⟩ := hjoined
  · exact .inl ⟨hunsub, h.goOn rfl hacts (.inr ⟨rfl, .inl ⟨hclosed, hunregistered, hreceives hnone⟩⟩) trivial⟩
  · exact .inr ⟨src, _, hk, hunsub, h.goOn rfl hacts (.inl rfl) ⟨hsrc, hclosed, hunregistered, hreceives hone⟩⟩

theorem WireInv.unsubscribe (h : WireInv s ((k, .unsubscribing ref src) ::ₘ notes)) (hid : k.viewer = some id) :
    WireInv (s.unsubscribe ⟨src, id⟩) ((k, .idle) ::ₘ notes) := by
  obtain ⟨-, hclosed, hgone, hone⟩ := h.stage
  obtain ⟨-, hk⟩ := h.owners _ (mem_cons_self _ _) ref rfl
  obtain rfl : id = (s.viewerObjects ref).id := Option.some.inj (hid.symm.trans hk)
  have hmine : (s.sourceObjects src).subscribers (s.viewerObjects ref).id = some (.viewer ref) := (hone src).mpr rfl
  obtain ⟨hacts, hreceives⟩ := h.tables.actsOnSubscriber src ref none (fun y hy => by cases hmine.symm.trans hy; rfl) nofun
  refine h.goOn rfl hacts (.inr ⟨rfl, .inl ⟨hclosed, hgone, fun src' => (hreceives src').trans ?_⟩⟩) trivial
  rw [hone src']
  simp

/-! ### Sections about the maps -/

/-- A viewer that keeps its fields and its place in the map. -/
theorem sameViewer_of_eq (hviewer : s'.viewerObjects ref = s.viewerObjects ref) (hregistered : s'.Registered ref ↔ s.Registered ref)
    (hsubscribers : ∀ src, (s'.sourceObjects src).subscribers = (s.sourceObjects src).subscribers) (hnext : s'.nextSource = s.nextSource) :
    SameViewer s s' ref := by
  refine .of_counters hviewer hregistered (fun src => ?_) hnext
  unfold Receives
  rw [hviewer, hsubscribers]

/-- A viewer that leaves the map while no task is at work on it. -/
theorem SwitchState.Joined.leaves (h : s.Joined ref) (hviewer : s'.viewerObjects ref = s.viewerObjects ref)
    (hsubscribers : ∀ src, (s'.sourceObjects src).subscribers = (s.sourceObjects src).subscribers) (hnext : s'.nextSource = s.nextSource) :
    s'.Joined ref := by
  have hreceives : ∀ {srcs}, s.ReceivesOnly ref srcs → s'.ReceivesOnly ref srcs := by
    intro srcs hsrcs src
    unfold Receives
    rw [hviewer, hsubscribers]
    exact hsrcs src
  unfold Joined
  rw [hviewer, hnext]
  exact ⟨h.1, h.2.imp (fun h => ⟨h.1, h.2.1, hreceives h.2.2⟩) fun ⟨src, hsrc, hlast, hunsub, hone⟩ =>
    ⟨src, hsrc, hlast, hunsub, hreceives hone⟩⟩

theorem sourceObjects_addSource (s : SwitchState) (id : String) (src : Nat) :
    (s.addSource id).sourceObjects src = if src = s.nextSource then .new else s.sourceObjects src := by
  show update s.sourceObjects s.nextSource .new src = _
  by_cases hsrc : src = s.nextSource
  · rw [hsrc, update_self, if_pos rfl]
  · rw [update_of_ne hsrc, if_neg hsrc]

/-- A new source has no subscriber. -/
theorem subscribers_addSource {key src x} (h : ((s.addSource id).sourceObjects src).subscribers key = some x) :
    (s.sourceObjects src).subscribers key = some x := by
  rw [sourceObjects_addSource] at h
  split at h
  · cases h
  · exact h

theorem TablesOk.addSource (h : TablesOk s) (id : String) : TablesOk (s.addSource id) := by
  refine ⟨fun src key x hentry => h.keys src key x (subscribers_addSource hentry), h.viewers, fun x src hx => ?_⟩
  have hx : (s.sources.insert id s.nextSource)[x]? = some src := hx
  rw [Table.getElem?_insert] at hx
  split at hx
  · cases hx
    exact Nat.lt_succ_self _
  · exact Nat.lt_succ_of_lt (h.sources x src hx)

/-- A registered viewer on the source that is removed. -/
theorem WireInv.detach (h : WireInv s ((k, .idle) ::ₘ notes)) (href : ref < s.nextViewer) (hregistered : s.Registered ref)
    (hk : k.removes = some (s.viewerObjects ref).currentSource) : WireInv (s.detachSource ref) ((k, .idle) ::ₘ notes) := by
  -- a task that switches it goes to the source that is removed
  have hothers : ∀ n ∈ notes, n.2.viewer ≠ some ref := by
    intro n hn hat
    have hstage := h.stages n (mem_cons_of_mem hn)
    have hapart := h.apart n.1 (mem_map_of_mem Prod.fst (mem_cons_of_mem hn)) k
      (mem_map_of_mem Prod.fst (mem_cons_self _ _))
    have hswitching : ∀ {src pending srcs}, ¬s.Switching ref src n.1.switchesTo pending srcs :=
      fun hswitching => hapart _ hswitching.current hk
    cases hcase : n.2 with
    | fresh | idle =>
      rw [hcase] at hat
      cases hat
    | closing ref' =>
      rw [hcase] at hat hstage
      cases hat
      exact hstage.2.1 hregistered
    | unsubscribing ref' src =>
      rw [hcase] at hat hstage
      cases hat
      exact hstage.2.2.1 hregistered
    | waiting ref' src | subscribing ref' src | storing ref' src =>
      rw [hcase] at hat hstage
      cases hat
      exact hswitching hstage
  obtain ⟨hopen, hjoined⟩ := (h.settled_of href (by simp [Wiring.viewer]) hothers).opened hregistered
  unfold detachSource
  simp only [viewerObjects_release_self]
  obtain ⟨hacts, hnone⟩ := hjoined.acts h.tables
    (v := { s.viewerObjects ref with currentSource := "", unsubscribe := none, lastSwitch := none }) rfl
  refine h.act hacts href hothers nofun nofun
    (.inr (.inr ⟨?_, hacts.registered.mpr hregistered, ?_, .inl ⟨?_, ?_, hnone⟩⟩)) trivial
  · rw [hacts.at_ref]
    exact hopen
  · rw [hacts.at_ref]
    exact hjoined.1
  · rw [hacts.at_ref]
  · rw [hacts.at_ref]

theorem detachSource_frame (s : SwitchState) (ref : Nat) : (s.detachSource ref).viewers = s.viewers ∧
    (s.detachSource ref).nextViewer = s.nextViewer ∧ ∀ x, ((s.detachSource ref).viewerObjects x).id = (s.viewerObjects x).id := by
  obtain ⟨hviewers, -, hnext, -⟩ := s.release_maps ref
  refine ⟨hviewers, hnext, fun x => ?_⟩
  show (update (s.release ref).viewerObjects ref _ x).id = _
  rw [viewerObjects_release, update_idem]
  by_cases hx : x = ref
  · rw [hx, update_self, update_self]
  · rw [update_of_ne hx]

theorem WireInv.detachAll (hk : k.removes = some id) (refs : List Nat) (h : WireInv s ((k, .idle) ::ₘ notes))
    (hrefs : ∀ ref ∈ refs, s.Registered ref) : WireInv (s.detachAll id refs) ((k, .idle) ::ₘ notes) := by
  induction refs generalizing s with
  | nil => exact h
  | cons ref refs ih =>
    obtain ⟨hregistered, hrest⟩ := List.forall_mem_cons.mp hrefs
    unfold detachAll
    rw [List.foldl_cons]
    split
    · rename_i hcurrent
      obtain ⟨hviewers, -, hids⟩ := detachSource_frame s ref
      refine ih (h.detach (h.tables.viewers _ ref hregistered).1 hregistered (by rw [hcurrent, hk])) fun x hx => ?_
      unfold Registered
      rw [hviewers, hids]
      exact hrest x hx
    · exact ih h hrest

section
variable (h : WireInv s ((k, .fresh) ::ₘ notes))
include h

theorem WireInv.takeViewer (hk : k.viewer = some id)
    (hviewer : s.viewers[id]? = some ref) : WireInv { s with viewers := s.viewers.erase id } ((k, .closing ref) ::ₘ notes) := by
  obtain ⟨href, hid⟩ := h.tables.viewers id ref hviewer
  have hregistered := h.tables.registered hviewer
  have hothers := h.others hk hid
  obtain ⟨hopen, hjoined⟩ := (h.settled_of href (by simp [Wiring.viewer]) hothers).opened hregistered
  have hread : ∀ x, (s.viewers.erase id)[x]? = if id = x then none else s.viewers[x]? := fun x => Table.getElem?_erase _ _ _
  refine h.step (fun x => x = ref) ⟨h.tables.keys, fun x ref' hx => ?_, h.tables.sources⟩ (Nat.le_refl _) (fun x hx hne => ?_)
    (fun _ _ => rfl) ?_ nofun ?_ (fun x hx => ?_) ⟨hopen, ?_, hjoined.leaves rfl (fun _ => rfl) rfl⟩
  · have hx : (s.viewers.erase id)[x]? = some ref' := hx
    rw [hread] at hx
    split at hx
    · cases hx
    · exact h.tables.viewers x ref' hx
  · refine sameViewer_of_eq rfl ?_ (fun _ => rfl) rfl
    show (s.viewers.erase id)[(s.viewerObjects x).id]? = some x ↔ s.viewers[(s.viewerObjects x).id]? = some x
    rw [hread]
    split
    · rename_i heq
      rw [← heq, hviewer]
      simpa using Ne.symm hne
    · rfl
  · rintro n hn x hx rfl
    exact hothers n hn hx
  · rintro x hx (rfl | hle)
    · exact .inl rfl
    · exact absurd hx (Nat.not_lt.mpr hle)
  · cases hx
    exact ⟨href, by rw [hk, ← hid]⟩
  · show (s.viewers.erase id)[(s.viewerObjects ref).id]? ≠ some ref
    rw [hread, if_pos hid.symm]
    simp

/-- The new viewer has no subscription, and the one that it displaces leaves the map. -/
theorem WireInv.addViewer (hk : k.viewer = some id) :
    WireInv (s.addViewer id).1 ((k, match s.viewers[id]? with | some old => .closing old | none => .idle) ::ₘ notes) := by
  have hread : ∀ x, (s.addViewer id).1.viewers[x]? = if id = x then some s.nextViewer else s.viewers[x]? :=
    fun x => Table.getElem?_insert _ _ _ _
  have hobject : ∀ x < s.nextViewer, (s.addViewer id).1.viewerObjects x = s.viewerObjects x :=
    fun x hx => update_of_ne (Nat.ne_of_lt hx) _ _
  have hnew : (s.addViewer id).1.viewerObjects s.nextViewer = .new id := update_self _ _ _
  have hfresh : ∀ src key, (s.sourceObjects src).subscribers key ≠ some (.viewer s.nextViewer) :=
    fun src key hentry => absurd (h.tables.keys src key _ hentry).1 (Nat.lt_irrefl _)
  have hsettled : (s.addViewer id).1.Settled s.nextViewer := by
    refine .inr ⟨by rw [hnew]; rfl, ?_, by rw [hnew]; rfl, .inl ⟨by rw [hnew]; rfl, by rw [hnew]; rfl, fun src => ⟨hfresh src _, False.elim⟩⟩⟩
    unfold Registered
    rw [hnew, hread]
    exact if_pos rfl
  refine h.step (fun x => s.viewers[id]? = some x) ⟨fun src key x hentry => ?_, fun x ref' hx => ?_, h.tables.sources⟩ (Nat.le_succ _)
    (fun x hx hne => ?_) (fun x hx => by rw [hobject x hx]) (fun n hn x hx hold => ?_) nofun (fun x hx hcase => ?_)
    (fun x hx => ?_) ?_
  · obtain ⟨hlt, hkey⟩ := h.tables.keys src key x hentry
    exact ⟨Nat.lt_succ_of_lt hlt, by rw [hobject x hlt, hkey]⟩
  · rw [hread] at hx
    split at hx
    · rename_i heq
      cases hx
      exact ⟨Nat.lt_succ_self _, by rw [hnew, ← heq]; rfl⟩
    · obtain ⟨hlt, hid⟩ := h.tables.viewers x ref' hx
      exact ⟨Nat.lt_succ_of_lt hlt, by rw [hobject ref' hlt, hid]⟩
  · refine sameViewer_of_eq (hobject x hx) ?_ (fun _ => rfl) rfl
    unfold Registered
    rw [hobject x hx, hread]
    split
    · rename_i heq
      rw [← heq]
      exact ⟨fun hsome => absurd (Option.some.inj hsome) (Nat.ne_of_gt hx), fun hold => absurd hold hne⟩
    · rfl
  · exact h.others hk (h.tables.viewers id x hold).2 n hn hx
  · rcases hcase with hold | hle
    · refine .inl ?_
      rw [hold]
      rfl
    · obtain rfl : x = s.nextViewer := Nat.le_antisymm (Nat.le_of_lt_succ hx) hle
      exact .inr hsettled
  · split at hx
    · rename_i old hold
      cases hx
      obtain ⟨hlt, hid⟩ := h.tables.viewers id _ hold
      exact ⟨Nat.lt_succ_of_lt hlt, by rw [hobject _ hlt, hid, hk]⟩
    · cases hx
  · split
    · rename_i old hold
      obtain ⟨hlt, hid⟩ := h.tables.viewers id old hold
      have hregistered := h.tables.registered hold
      obtain ⟨hopen, hjoined⟩ := (h.settled_of hlt (by simp [Wiring.viewer]) (h.others hk hid)).opened hregistered
      refine ⟨by rw [hobject old hlt]; exact hopen, fun hstill => ?_, hjoined.leaves (hobject old hlt) (fun _ => rfl) rfl⟩
      unfold Registered at hstill
      rw [hobject old hlt, hread, if_pos hid.symm] at hstill
      exact absurd (Option.some.inj hstill) (Nat.ne_of_gt hlt)
    · trivial

theorem WireInv.addSource (id : String) : WireInv (s.addSource id) ((k, .idle) ::ₘ notes) := by
  refine h.rest rfl (h.tables.addSource id) rfl fun x => ⟨rfl, rfl, rfl, rfl, rfl, rfl, Iff.rfl, fun src hsrc hreceives => ?_,
    fun src hreceives => subscribers_addSource hreceives, Nat.le_succ _⟩
  unfold Receives
  rw [sourceObjects_addSource, if_neg (Nat.ne_of_lt hsrc)]
  exact hreceives

theorem WireInv.removeSource (hk : k.removes = some id) (want : Option Nat) :
    WireInv (s.removeSource id want) ((k, .idle) ::ₘ notes) := by
  have hidle : ∀ s', s'.viewers = s.viewers → s'.viewerObjects = s.viewerObjects → s'.nextViewer = s.nextViewer → s'.nextSource = s.nextSource →
      (∀ src, (s'.sourceObjects src).subscribers = (s.sourceObjects src).subscribers) → (∀ x : String, ∀ src, s'.sources[x]? = some src → s.sources[x]? = some src) →
      WireInv s' ((k, .idle) ::ₘ notes) := by
    intro s' hviewers hobjects hnext hnextSource hsubscribers hsources
    refine h.rest rfl (h.tables.same (fun x => by rw [hobjects]) hviewers hnext hnextSource hsubscribers hsources) hnext fun x => ?_
    refine sameViewer_of_eq (by rw [hobjects]) ?_ hsubscribers hnextSource
    unfold Registered
    rw [hobjects, hviewers]
  have hsame := hidle s rfl rfl rfl rfl (fun _ => rfl) fun _ _ hx => hx
  unfold SwitchState.removeSource
  split
  · exact hsame
  · rename_i src hsrc
    split
    · exact hsame
    · refine WireInv.detachAll hk _ (hidle _ rfl rfl rfl rfl (fun x => ?_) fun x src' hx => ?_) fun ref href => ?_
      · show (update s.sourceObjects src { s.sourceObjects src with stopped := true } x).subscribers = _
        by_cases hx : x = src
        · rw [hx, update_self]
        · rw [update_of_ne hx]
      · have hx : (s.sources.erase id)[x]? = some src' := hx
        rw [Table.getElem?_erase] at hx
        split at hx
        · cases hx
        · exact hx
      · obtain ⟨x, hx, rfl⟩ := List.mem_map.mp href
        have hviewer : s.viewers[x.1]? = some x.2 := Table.mem_toList.mp hx
        show s.viewers[(s.viewerObjects x.2).id]? = some x.2
        rw [(h.tables.viewers _ _ hviewer).2, hviewer]

end

/-! ### Any of them -/

/-- Counters change, and nothing else. -/
theorem WireInv.metered (h : WireInv s notes) (hviewers : s'.viewers = s.viewers) (hsources : s'.sources = s.sources)
    (hnext : s'.nextViewer = s.nextViewer) (hnextSource : s'.nextSource = s.nextSource) (hobjects : s'.sourceObjects = s.sourceObjects)
    (hsame : ∀ ref, ∃ bytes, s'.viewerObjects ref = { s.viewerObjects ref with egressBytes := bytes }) : WireInv s' notes := by
  have hid : ∀ ref, (s'.viewerObjects ref).id = (s.viewerObjects ref).id := by
    intro ref
    obtain ⟨bytes, heq⟩ := hsame ref
    rw [heq]
  have hviewer : ∀ ref, SameViewer s s' ref := by
    intro ref
    obtain ⟨bytes, heq⟩ := hsame ref
    refine .of_counters heq ?_ (fun src => ?_) hnextSource
    · unfold Registered
      rw [hid, hviewers]
    · unfold Receives
      rw [hid, hobjects]
  refine ⟨h.tables.same hid hviewers hnext hnextSource (fun src => by rw [hobjects]) fun x src hx => hsources ▸ hx, fun ref href => ?_,
    fun n hn ref href => ?_, fun n hn => (h.stages n hn).same fun ref _ => hviewer ref, h.ids, h.apart⟩
  · rw [hnext] at href
    exact (h.settled ref href).imp_right fun hsettled => hsettled.same (hviewer ref)
  · rw [hnext, hid]
    exact h.owners n hn ref href

theorem WireInv.restage (h : WireInv s ((k, t) ::ₘ notes)) (ht : t.viewer = none) : WireInv s ((k, .idle) ::ₘ notes) :=
  h.rest ht h.tables rfl fun _ => sameViewer_of_eq rfl Iff.rfl (fun _ => rfl) rfl

theorem WireInv.meterCall (h : WireInv s notes) (hq : MeterCall q) : WireInv (s.request q ()).1 notes := by
  cases q with
  | viewerRefs | closedEgress | reading => exact h
  | recordClosed reading => exact h.metered rfl rfl rfl rfl rfl fun _ => ⟨_, rfl⟩
  | _ => exact hq.elim

/-- A job makes its first request. -/
theorem WireInv.first (h : WireInv s ((k, .fresh) ::ₘ notes)) {next}
    (hprogram : .call q next = k.program) :
    ∃ t', t'.Stands k (next (s.request q ()).2) ∧ WireInv (s.request q ()).1 ((k, t') ::ₘ notes) := by
  have hidle := h.restage rfl
  have hclose : ∀ ref (f : Unit → Task Unit), (∀ a, (f a).Uses MeterCall) → AtClose ref (((close ref).bind f).bind fun _ => .ret .done) := by
    intro ref f hf
    exact ⟨_, rfl, (hf _).bind fun _ => trivial, fun sub => ⟨_, rfl, (hf _).bind fun _ => trivial⟩⟩
  cases k with
  | addSource n id =>
    cases hprogram
    exact ⟨.idle, trivial, h.addSource id⟩
  | removeSource n id want =>
    cases hprogram
    exact ⟨.idle, trivial, h.removeSource rfl want⟩
  | addViewer n id =>
    cases hprogram
    have hinv : WireInv (s.addViewer id).1 _ := h.addViewer rfl
    have hreply : (s.request (.addViewer id) ()).2 = s.viewers[id]? := rfl
    rw [hreply]
    cases hviewer : s.viewers[id]? with
    | none =>
      rw [hviewer] at hinv
      exact ⟨.idle, trivial, hinv⟩
    | some old =>
      rw [hviewer] at hinv
      exact ⟨.closing old, ⟨_, rfl, trivial, fun sub => ⟨_, rfl, trivial⟩⟩, hinv⟩
  | removeViewer n id want =>
    cases hprogram
    rcases s.request_takeViewer id want with htake | ⟨ref, hviewer, htake⟩
    · rw [htake]
      exact ⟨.idle, trivial, hidle⟩
    · rw [htake]
      exact ⟨.closing ref, hclose ref _ fun _ => ⟨trivial, fun _ => ⟨trivial, fun _ => trivial⟩⟩, h.takeViewer rfl hviewer⟩
  | switchViewer n viewerId sourceId =>
    cases hprogram
    have hrequest : s.request (.switchViewer viewerId sourceId) () = s.switchViewer viewerId sourceId := rfl
    rw [hrequest]
    rcases s.switchViewer_cases viewerId sourceId with ⟨e, hswitch⟩ | ⟨ref, src, hviewer, hsource, hswitch⟩
    · rw [hswitch]
      exact ⟨.idle, trivial, hidle⟩
    · obtain ⟨hpending, hinv⟩ := h.switchTo rfl rfl hviewer hsource
      rw [hswitch, if_pos hpending]
      exact ⟨.waiting ref src, ⟨_, rfl, trivial, _, rfl, fun sub => ⟨_, rfl, trivial⟩⟩, hinv⟩
  | handleEgress n =>
    cases hprogram
    have hreads : ∀ refs totals, (readViewers refs totals).Uses MeterCall := by
      intro refs
      induction refs with
      | nil => exact fun _ => trivial
      | cons ref refs ih => exact fun _ => ⟨trivial, fun _ => ih _⟩
    exact ⟨.idle, ⟨trivial, fun totals => (hreads _ totals).bind fun _ => trivial⟩, hidle⟩

/-- **One step of one task.** -/
theorem WireInv.request {next} (h : WireInv s ((k, t) ::ₘ notes))
    (hstands : t.Stands k (.call q next)) :
    ∃ t', t'.Stands k (next (s.request q ()).2) ∧ WireInv (s.request q ()).1 ((k, t') ::ₘ notes) := by
  cases t with
  | fresh => exact h.first hstands
  | idle => exact ⟨.idle, hstands.2 _, h.meterCall hstands.1⟩
  | closing ref =>
    obtain ⟨next', heq, hnone, hsome⟩ := hstands
    cases heq
    rcases h.closeViewer with ⟨hreply, hinv⟩ | ⟨src, id, hk, hreply, hinv⟩
    · refine ⟨.idle, ?_, hinv⟩
      show (next' (s.closeViewer ref).2).Uses MeterCall
      rw [hreply]
      exact hnone
    · refine ⟨.unsubscribing ref src, ?_, hinv⟩
      obtain ⟨after, heq, huses⟩ := hsome ⟨src, id⟩
      refine ⟨id, after, hk, ?_, huses⟩
      show next' (s.closeViewer ref).2 = _
      rw [hreply, heq]
  | unsubscribing ref src =>
    obtain ⟨id, next', hk, heq, huses⟩ := hstands
    cases heq
    exact ⟨.idle, huses, h.unsubscribe hk⟩
  | waiting ref src =>
    obtain ⟨next', heq, -, hsubscribe⟩ := hstands
    cases heq
    obtain ⟨hreply, hinv⟩ := h.activate
    refine ⟨.subscribing ref src, ?_, hinv⟩
    show AtSubscribe ref src (next' (s.activate ref src).2)
    rw [hreply]
    exact hsubscribe
  | subscribing ref src =>
    obtain ⟨next', heq, hstore⟩ := hstands
    cases heq
    obtain ⟨-, hk⟩ := h.owners _ (mem_cons_self _ _) ref rfl
    exact ⟨.storing ref src, ⟨_, hk, hstore _⟩, h.subscribe⟩
  | storing ref src =>
    obtain ⟨id, hk, next', heq, huses⟩ := hstands
    cases heq
    exact ⟨.idle, huses, h.keep hk⟩

/-- A task that has returned is not at work on a viewer. -/
theorem Wiring.Stands.returned {a} (h : t.Stands k (.ret a)) : t.viewer = none := by
  cases t with
  | fresh | idle => rfl
  | closing ref | waiting ref src | subscribing ref src =>
    obtain ⟨next, heq, -⟩ := h
    cases heq
  | unsubscribing ref src =>
    obtain ⟨id, next, -, heq, -⟩ := h
    cases heq
  | storing ref src =>
    obtain ⟨id, -, next, heq, -⟩ := h
    cases heq

end

/-! ## Runs -/

/-- The jobs are not about the same viewer id, and neither removes a source that the other switches to. -/
def Apart (k k' : SwitchJob) : Prop :=
  (∀ id ∈ k.viewer, k'.viewer ≠ some id) ∧ (∀ id ∈ k.switchesTo, k'.removes ≠ some id) ∧ ∀ id ∈ k.removes, k'.switchesTo ≠ some id

instance decidableApart (k k' : SwitchJob) : Decidable (Apart k k') := instDecidableAnd

/-- A job starts apart from those in flight. The process does not end. -/
def JobsApart (pool : SwitchPool) : SwitchEvent → Prop
  | .start k => ∀ x ∈ pool.running, Apart k x.1
  | .request _ _ | .move _ => True
  | .die => False

/-- The process does not end. -/
def SwitchLives : SwitchEvent → Prop
  | .die => False
  | _ => True

instance decidableJobsApart (pool : SwitchPool) : (e : SwitchEvent) → Decidable (JobsApart pool e)
  | .start _ => inferInstanceAs (Decidable (∀ x ∈ pool.running, _))
  | .request _ _ | .move _ => isTrue trivial
  | .die => isFalse not_false

instance decidableSwitchLives : (e : SwitchEvent) → Decidable (SwitchLives e)
  | .start _ | .request _ _ | .move _ => isTrue trivial
  | .die => isFalse not_false

theorem WireInv.start {s notes k} (h : WireInv s notes)
    (hapart : ∀ j ∈ notes.map Prod.fst, Apart k j) : WireInv s ((k, .fresh) ::ₘ notes) := by
  refine ⟨h.tables, fun ref href => ?_, forall_mem_cons.mpr ⟨nofun, h.owners⟩,
    forall_mem_cons.mpr ⟨trivial, h.stages⟩, ?_, ?_⟩
  · exact (h.settled ref href).imp_left fun ⟨n, hn, hat⟩ => ⟨n, mem_cons_of_mem hn, hat⟩
  · rw [map_cons]
    cases hk : k.viewer with
    | none =>
      rw [filterMap_cons_none _ _ hk]
      exact h.ids
    | some id =>
      rw [filterMap_cons_some _ _ _ hk, nodup_cons]
      refine ⟨fun hmem => ?_, h.ids⟩
      obtain ⟨j, hj, heq⟩ := (mem_filterMap _ _).mp hmem
      exact (hapart j hj).1 id hk heq
  · have hself : ∀ id, k.switchesTo = some id → k.removes ≠ some id := by
      cases k <;> simp [SwitchJob.switchesTo, SwitchJob.removes]
    rw [map_cons]
    refine forall_mem_cons.mpr ⟨forall_mem_cons.mpr ⟨hself, fun j hj => (hapart j hj).2.1⟩, fun j hj => ?_⟩
    exact forall_mem_cons.mpr ⟨fun id hto hremoves => (hapart j hj).2.2 id hremoves hto, h.apart j hj⟩

theorem WireInv.finish {s notes k t} (h : WireInv s ((k, t) ::ₘ notes))
    (ht : t.viewer = none) : WireInv s notes := by
  refine ⟨h.tables, fun ref href => ?_, fun n hn => h.owners n (mem_cons_of_mem hn), fun n hn => h.stages n (mem_cons_of_mem hn),
    ?_, fun j hj j' hj' => h.apart j (by simpa using .inr (by simpa using hj)) j' (by simpa using .inr (by simpa using hj'))⟩
  · rcases h.settled ref href with ⟨n, hn, hat⟩ | hsettled
    · rcases mem_cons.mp hn with rfl | hn
      · rw [ht] at hat
        cases hat
      · exact .inl ⟨n, hn, hat⟩
    · exact .inr hsettled
  · have hids := h.ids
    rw [map_cons] at hids
    exact nodup_of_le (filterMap_le_filterMap _ (le_cons_self _ _)) hids

theorem WireInv.packet {s notes} (h : WireInv s notes) (ref size : Nat) :
    WireInv (s.writeTrack ref size) notes := by
  refine h.metered rfl rfl rfl rfl rfl fun x => ?_
  show ∃ bytes, update s.viewerObjects ref { s.viewerObjects ref with egressBytes := (s.viewerObjects ref).egressBytes + (size + s.overhead) } x = _
  by_cases hx : x = ref
  · rw [hx, update_self]
    exact ⟨_, rfl⟩
  · rw [update_of_ne hx]
    exact ⟨_, rfl⟩

/-- The stages of the tasks in flight. -/
def wiringOutline : Outline switchService SwitchJob.program JobsApart Wiring where
  stands := fun k p t => t.Stands k p
  inv := fun s _ notes => WireInv s notes
  start := by
    intro pool k notes hinv hjobs hok
    refine ⟨.fresh, rfl, hinv.start fun j hj => ?_⟩
    obtain ⟨n, hn, rfl⟩ := mem_map.mp hj
    obtain ⟨x, hx, heq⟩ := Outline.mem_running hjobs hn
    rw [← heq]
    exact hok x hx
  request := by
    intro pool place k q next fate t notes hstands hinv hjobs hplace hok
    exact hinv.request hstands
  finish := by
    intro s returned k a t notes hstands hinv
    exact hinv.finish hstands.returned
  move := by
    intro pool m notes hinv hok
    cases m with
    | packet src ref size => exact hinv.packet ref size
  die := by
    intro pool notes hinv hok
    exact hok.elim

/-- **Subscriptions match the routing table** whenever no task is pending: a closed viewer is
subscribed to no source, an open registered one to the source of its last switch and to no other, and
one that was detached or never switched to none. The jobs in flight are those of `JobsApart`. -/
theorem subscriptions_match (s₀ : SwitchState) (hstart : WireInv s₀ 0) (h : List SwitchEvent) (pool : SwitchPool)
    (run : Run switchStep (fun _ pool e => JobsApart pool e) ⟨s₀, [], []⟩ h pool) (hquiet : pool.running = []) :
    (∀ ref < pool.state.nextViewer, (pool.state.viewerObjects ref).closed = true → ∀ src, ¬pool.state.Receives src ref) ∧
    (∀ ref < pool.state.nextViewer, (pool.state.viewerObjects ref).closed = false → pool.state.Registered ref →
      ∀ src, pool.state.Receives src ref ↔ (pool.state.viewerObjects ref).lastSwitch = some src) := by
  have hinv : WireInv pool.state 0 := ((Outline.sound_start (O := wiringOutline) hstart).run run).quiet hquiet
  have hsettled : ∀ ref < pool.state.nextViewer, pool.state.Settled ref := by
    intro ref href
    rcases hinv.settled ref href with ⟨n, hn, -⟩ | hsettled
    · exact absurd hn (notMem_zero _)
    · exact hsettled
  refine ⟨fun ref href hclosed src hreceives => ?_, fun ref href hopen hregistered src => ?_⟩
  · rcases hsettled ref href with ⟨-, -, hnone⟩ | ⟨hopen, -⟩
    · exact (hnone src).mp hreceives
    · rw [hclosed] at hopen
      cases hopen
  · obtain ⟨-, -, ⟨hlast, -, hnone⟩ | ⟨src', -, hlast, -, hone⟩⟩ := (hsettled ref href).opened hregistered
    · rw [hnone src, hlast]
      simp
    · rw [hone src, hlast]
      exact ⟨fun heq => congrArg some heq.symm, fun heq => (Option.some.inj heq).symm⟩

theorem wired_empty : WireInv .empty 0 :=
  ⟨⟨nofun, fun _ _ hviewer => (by cases TreeMap.getElem?_emptyc.symm.trans hviewer),
      fun _ _ hsource => (by cases TreeMap.getElem?_emptyc.symm.trans hsource)⟩,
    fun _ href => absurd href (Nat.not_lt_zero _), fun _ hn => absurd hn (notMem_zero _), fun _ hn => absurd hn (notMem_zero _),
    nodup_zero, fun _ hj => absurd hj (notMem_zero _)⟩

/-- A source is published, and a viewer that has joined is switched to it. -/
def watchProgramme : List SwitchEvent :=
  ([.start (.addSource 1 "stream-a"), .request 0 (), .start (.addViewer 2 "bob"), .request 0 ()] : List SwitchEvent) ++
  ([.start (.switchViewer 3 "bob" "stream-a")] : List SwitchEvent) ++ List.replicate 4 (.request 0 ())

theorem subscriptions_match_bob : ∃ h pool, Run switchStep (fun _ pool e => JobsApart pool e) ⟨.empty, [], []⟩ h pool ∧ pool.running = [] ∧
    ∀ src, pool.state.Receives src 0 ↔ src = 0 := by
  apply Run.exists_and_of_follows (P := fun pool => pool.running = [] ∧ pool.state.nextViewer = 1 ∧ pool.state.viewers["bob"]? = some 0 ∧
    pool.state.viewerObjects 0 = ⟨"bob", "stream-a", some ⟨0, "bob"⟩, false, none, 0, "stream-a", some 0⟩) watchProgramme (by decide +kernel)
  rintro h pool run ⟨hquiet, hnext, hviewer, hbob⟩
  refine ⟨hquiet, fun src => ?_⟩
  rw [(subscriptions_match .empty wired_empty _ _ run hquiet).2 0 (by rw [hnext]; decide) (by rw [hbob])
    (by unfold Registered; rw [hbob]; exact hviewer) src, hbob]
  exact ⟨fun heq => (Option.some.inj heq).symm, fun heq => congrArg some heq.symm⟩

/-- The viewer is removed before the activation of its switch. -/
def removedBeforeActivation : List SwitchEvent :=
  ([.start (.addSource 1 "stream-a"), .request 0 (), .start (.addViewer 2 "bob"), .request 0 ()] : List SwitchEvent) ++
  ([.start (.switchViewer 3 "bob" "stream-a"), .request 0 ()] : List SwitchEvent) ++
  (.start (.removeViewer 4 "bob" none) :: List.replicate 7 (.request 0 ()) : List SwitchEvent)

/-- A viewer that is closed is subscribed, and no task is left that would end it. -/
theorem subscribed_when_closed : ∃ s₀ h pool ref src, WireInv s₀ 0 ∧ Run switchStep (fun _ _ e => SwitchLives e) ⟨s₀, [], []⟩ h pool ∧
    pool.running = [] ∧ (pool.state.viewerObjects ref).closed = true ∧ pool.state.Receives src ref := by
  obtain ⟨h, pool, run, hquiet, hclosed, hreceives⟩ : ∃ h pool, Run switchStep (fun _ _ e => SwitchLives e) ⟨.empty, [], []⟩ h pool ∧
      pool.running = [] ∧ (pool.state.viewerObjects 0).closed = true ∧ pool.state.Receives 0 0 :=
    Run.exists_of_follows removedBeforeActivation (by decide +kernel)
  exact ⟨_, h, pool, 0, 0, wired_empty, run, hquiet, hclosed, hreceives⟩

end MatrixMedia.Switch
