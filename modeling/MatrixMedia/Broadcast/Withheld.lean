import MatrixMedia.Broadcast.Calls

/-!
# What a force-stop withholds

An end first marks the open recordings ready, hidden or not, and only then moves the row.
Nothing ties the two statements together: an end that publishes can mark the recordings of a
force-stop that wins the row. `withhold_hides` needs that no other end marks them while a
force-stop is in flight; `published_under_withhold` is a run where one does.
-/

namespace MatrixMedia.Broadcast
open Lib Lib.Interaction Api Multiset BroadcastState
open Streams (Stream StreamStatus RecordingRelease EndOutcome)
open Std (TreeMap)

/-! ## Stages of an end -/

/-- The request touches no stream, no recording and no announcement. -/
def ReleaseFree : BroadcastRequest → Prop
  | .content (.getRoom _) => True
  | .content _ | .endStreamIfActive _ | .markRecordingsReady _ _ | .pauseRecordings _ | .finishRecordings _ _
  | .announceRecording _ _ => False
  | _ => True

/-- The same, and announcements when recordings are published. -/
def AfterwardsFree (release : RecordingRelease) (q : BroadcastRequest) : Prop :=
  ReleaseFree q ∨ (release = .publish ∧ ∃ room recording, q = .announceRecording room recording)

def BroadcastOutcome.endedNow : BroadcastOutcome → Bool
  | .ended outcome => outcome.endedNow
  | _ => false

inductive Releasing where
  /-- It has not marked the recordings yet. -/
  | early
  | refused
  /-- It has, and withholds these. -/
  | marked (withheld : List String)
  /-- It moved the row. -/
  | won (withheld : List String)
  /-- It found the row moved. -/
  | lost

namespace Releasing

def withheld : Releasing → Option (List String)
  | .marked ids | .won ids => some ids
  | _ => none

def hasWon : Releasing → Bool
  | .won _ => true
  | _ => false

end Releasing

section
variable (id : String) (release : RecordingRelease)

section
variable (p : Action BroadcastOutcome)

def Refused : Prop := p.Ends ReleaseFree fun a => ∃ e, a = .refused e

def Won (withheld : List String) (p : Action BroadcastOutcome) : Prop :=
  p.Ends (AfterwardsFree release) fun a => ∃ written, a = .ended ⟨true, written, withheld⟩

def Lost : Prop := p.Ends ReleaseFree fun a => a = .ended ⟨false, false, []⟩

/-- The program moves the row next. -/
def AtTransition (withheld : List String) (p : Action BroadcastOutcome) : Prop :=
  ∃ next, p = .call (.endStreamIfActive id) next ∧ Won release withheld (next (.ok true)) ∧ Lost (next (.ok false))

/-- The program marks the recordings next. -/
def AtMark : Prop :=
  ∃ next, p = .call (.markRecordingsReady id (release = .withhold)) next ∧
    ∀ ids, (next (.ok ids)).Leads ReleaseFree (AtTransition id release (if release = .withhold then ids else []))

def Releasing.Stands : Releasing → Prop
  | .early => p.Leads ReleaseFree fun p => Refused p ∨ AtMark id release p
  | .refused => Refused p
  | .marked withheld => p.Leads ReleaseFree (AtTransition id release withheld)
  | .won withheld => Won release withheld p
  | .lost => Lost p

end

end

/-! ## What the stages mean for the tables -/

/-- These are rows of `among`, hidden and not open. -/
def BroadcastState.Hides (s : BroadcastState) (among ids : List String) : Prop :=
  ∀ r ∈ ids, r ∈ among ∧ ∃ row, s.content.recordings[r]? = some row ∧ row.hidden = true ∧ isOpen row = false

def BroadcastJob.withholds (k : BroadcastJob) (id : String) : Prop := k.ends = some (id, .withhold)

/-- The ends that moved the row. -/
def winners (returned : List (BroadcastJob × BroadcastOutcome)) (notes : Multiset (BroadcastJob × Releasing)) : Multiset BroadcastJob :=
  ofList ((returned.filter fun r => r.2.endedNow).map Prod.fst) + (notes.filter fun n => n.2.hasWon = true).map Prod.fst

/-- `opened` is what was open when each end was called, and `s₀` the state before all of them. -/
structure ReleaseInv (id : String) (s₀ : BroadcastState) (opened : BroadcastJob → List String) (s : BroadcastState)
    (returned : List (BroadcastJob × BroadcastOutcome)) (notes : Multiset (BroadcastJob × Releasing)) : Prop where
  fewer : ∀ r ∈ s.openIds id, r ∈ s₀.openIds id
  early : ∀ n ∈ notes, n.2 = .early → n.1.withholds id → s.openIds id = opened n.1
  marked : ∀ n ∈ notes, ∀ ids ∈ n.2.withheld, n.1.withholds id → ids = opened n.1 ∧ s.Hides (s₀.openIds id) ids
  kept : ∀ r ∈ returned, ∀ outcome, r.2 = .ended outcome → outcome.endedNow = true → r.1.withholds id →
    outcome.withheldRecordings = opened r.1 ∧ s.Hides (s₀.openIds id) (opened r.1)
  lost : ∀ n ∈ notes, n.2 = .lost → s.status id = some .ended
  row : (s.status id = some .active ∧ winners returned notes = 0 ∧ s.announced = s₀.announced ∧
      ∀ r ∈ returned, ∀ outcome, r.2 ≠ .ended outcome) ∨
    (s.status id = some .ended ∧ ∃ w, winners returned notes = {w} ∧ (w.withholds id → s.announced = s₀.announced))

/-! ## What keeps it -/

/-- Streams, recordings and announcements are as they were. -/
structure SameRows (s s' : BroadcastState) : Prop where
  streams : s'.content.streams = s.content.streams
  recordings : s'.content.recordings = s.content.recordings
  announced : s'.announced = s.announced

theorem sameRows_of_free {s s' : BroadcastState} {q} (heffect : s.Effect q s') (hq : ReleaseFree q) : SameRows s s' := by
  cases heffect with
  | content effect =>
    cases effect with
    | none => exact ⟨rfl, rfl, rfl⟩
    | _ => exact hq.elim
  | key =>
    unfold setStreamKey
    split <;> exact ⟨rfl, rfl, rfl⟩
  | ended | ready | announced | paused | finished => exact hq.elim
  | _ => exact ⟨rfl, rfl, rfl⟩

section
variable {id : String} {release : RecordingRelease} {s₀ s s' : BroadcastState} {opened : BroadcastJob → List String}
  {returned : List (BroadcastJob × BroadcastOutcome)} {notes : Multiset (BroadcastJob × Releasing)} {k : BroadcastJob} {t t' : Releasing}

theorem winners_cons : winners returned ((k, t) ::ₘ notes) = (if t.hasWon then {k} else 0) + winners returned notes := by
  unfold winners
  cases hwon : t.hasWon with
  | true => simp [filter_cons_of_pos, hwon]
  | false => simp [filter_cons_of_neg, hwon]

variable {among ids : List String} {a : BroadcastOutcome}

theorem winners_returned :
    winners ((k, a) :: returned) notes = (if a.endedNow then {k} else 0) + winners returned notes := by
  unfold winners
  cases hnow : a.endedNow with
  | true => simp [hnow, ← cons_coe]
  | false => simp [hnow]

theorem mem_winners {outcome} (h : (k, .ended outcome) ∈ returned) (hnow : outcome.endedNow = true) : k ∈ winners returned notes := by
  refine mem_add.mpr (.inl (mem_coe.mpr (List.mem_map.mpr ⟨_, List.mem_filter.mpr ⟨h, hnow⟩, rfl⟩)))

theorem length_le_winners (returned : List (BroadcastJob × BroadcastOutcome)) (notes : Multiset (BroadcastJob × Releasing)) :
    (returned.filter fun r => r.2.endedNow).length ≤ (winners returned notes).card := by
  simp [winners]

theorem SameRows.openIds (hs : SameRows s s') : s'.openIds id = s.openIds id := by
  unfold BroadcastState.openIds BroadcastState.recordingsOf
  rw [hs.recordings]

theorem SameRows.hides (hs : SameRows s s') (h : s.Hides among ids) : s'.Hides among ids := by
  unfold Hides
  rw [hs.recordings]
  exact h

theorem ReleaseInv.same (h : ReleaseInv id s₀ opened s returned notes) (hs : SameRows s s') : ReleaseInv id s₀ opened s' returned notes := by
  have hstatus : s'.status id = s.status id := by
    unfold status
    rw [hs.streams]
  refine ⟨?_, ?_, fun n hn ids hids hk => ?_, fun r hr outcome ho hnow hk => ?_, ?_, ?_⟩
  · rw [hs.openIds]
    exact h.fewer
  · rw [hs.openIds]
    exact h.early
  · exact (h.marked n hn ids hids hk).imp_right hs.hides
  · exact (h.kept r hr outcome ho hnow hk).imp_right hs.hides
  · rw [hstatus]
    exact h.lost
  · rw [hstatus, hs.announced]
    exact h.row

/-- One end goes on to another stage, with the row as it is. -/
theorem ReleaseInv.restage (h : ReleaseInv id s₀ opened s returned ((k, t) ::ₘ notes)) (hearly : t' ≠ .early) (hmarked : t'.withheld = none)
    (hlost : t' = .lost → s.status id = some .ended) (hwon : t'.hasWon = t.hasWon) :
    ReleaseInv id s₀ opened s returned ((k, t') ::ₘ notes) := by
  obtain ⟨-, hothersEarly⟩ := forall_mem_cons.mp h.early
  obtain ⟨-, hothersMarked⟩ := forall_mem_cons.mp h.marked
  obtain ⟨-, hothersLost⟩ := forall_mem_cons.mp h.lost
  refine ⟨h.fewer, forall_mem_cons.mpr ⟨fun heq => absurd heq hearly, hothersEarly⟩,
    forall_mem_cons.mpr ⟨fun ids hids => ?_, hothersMarked⟩, h.kept, forall_mem_cons.mpr ⟨hlost, hothersLost⟩, ?_⟩
  · rw [hmarked] at hids
    cases hids
  · have hrow := h.row
    rw [winners_cons] at hrow ⊢
    rwa [hwon]

/-! ### Marking -/

/-- A force-stop hides what was open. -/
theorem hides_openIds (hamong : ∀ r ∈ s.openIds id, r ∈ among) :
    (s.updateRecordings (markReady id true)).Hides among (s.openIds id) := by
  intro r hr
  obtain ⟨row, hrow, hopen, hid⟩ := mem_openIds.mp hr
  refine ⟨hamong r hr, markReady id true row, by rw [getElem?_updateRecordings, hrow]; rfl, ?_⟩
  unfold markReady
  rw [if_pos ⟨hid, hopen⟩]
  simp [isOpen]

/-- What is hidden and not open is not marked again. -/
theorem BroadcastState.Hides.markReady (h : s.Hides among ids) (withhold : Bool) :
    (s.updateRecordings (markReady id withhold)).Hides among ids := by
  intro r hr
  obtain ⟨hmem, row, hrow, hhidden, hopen⟩ := h r hr
  refine ⟨hmem, row, ?_, hhidden, hopen⟩
  rw [getElem?_updateRecordings, hrow, Option.map_some]
  unfold BroadcastState.markReady
  rw [if_neg (by simp [hopen])]

theorem ReleaseInv.mark (h : ReleaseInv id s₀ opened s returned ((k, .early) ::ₘ notes)) (hk : k.ends = some (id, release))
    (hapart : ∀ n ∈ notes, ¬n.1.withholds id) :
    ReleaseInv id s₀ opened (s.updateRecordings (markReady id (release = .withhold))) returned
      ((k, .marked (if release = .withhold then s.openIds id else [])) ::ₘ notes) := by
  obtain ⟨hown, -⟩ := forall_mem_cons.mp h.early
  obtain ⟨-, hlost⟩ := forall_mem_cons.mp h.lost
  refine ⟨?_, forall_mem_cons.mpr ⟨fun heq => Releasing.noConfusion heq, fun n hn _ hw => absurd hw (hapart n hn)⟩,
    forall_mem_cons.mpr ⟨fun ids hids hw => ?_, fun n hn ids _ hw => absurd hw (hapart n hn)⟩,
    fun r hr outcome ho hnow hw => (h.kept r hr outcome ho hnow hw).imp_right fun hides => hides.markReady _,
    forall_mem_cons.mpr ⟨fun heq => Releasing.noConfusion heq, hlost⟩, ?_⟩
  · rw [openIds_markReady]
    exact fun r hr => absurd hr List.not_mem_nil
  · cases hk.symm.trans hw
    cases hids
    exact ⟨hown rfl hw, hides_openIds h.fewer⟩
  · have hrow := h.row
    rw [winners_cons] at hrow ⊢
    exact hrow

/-! ### Moving the row and announcing -/

theorem ReleaseInv.win (h : ReleaseInv id s₀ opened s returned ((k, .marked ids) ::ₘ notes)) {x}
    (hx : s.content.streams[id]? = some x) (hactive : x.status = .active) :
    ReleaseInv id s₀ opened { s with content := { s.content with streams := s.content.streams.insert id { x with status := .ended } } }
      returned ((k, .won ids) ::ₘ notes) := by
  have hended := @status_ended s id x
  have hstatus : s.status id = some .active := hactive ▸ status_eq hx
  obtain ⟨-, hothersEarly⟩ := forall_mem_cons.mp h.early
  obtain ⟨hown, hothersMarked⟩ := forall_mem_cons.mp h.marked
  refine ⟨h.fewer, forall_mem_cons.mpr ⟨fun heq => Releasing.noConfusion heq, hothersEarly⟩,
    forall_mem_cons.mpr ⟨hown, hothersMarked⟩, h.kept, fun _ _ _ => hended, .inr ⟨hended, k, ?_⟩⟩
  rcases h.row with ⟨-, hnone, hannounced, -⟩ | ⟨hover, -⟩
  · rw [winners_cons] at hnone ⊢
    exact ⟨congrArg (fun m => {k} + m) (by simpa [Releasing.hasWon] using hnone), fun _ => hannounced⟩
  · cases hstatus.symm.trans hover

/-- The end that moved the row is the only one. -/
theorem ReleaseInv.winner (h : ReleaseInv id s₀ opened s returned ((k, .won ids) ::ₘ notes)) :
    s.status id = some .ended ∧ winners returned ((k, .won ids) ::ₘ notes) = {k} := by
  have hmem : k ∈ winners returned ((k, .won ids) ::ₘ notes) := by simp [winners_cons, Releasing.hasWon]
  rcases h.row with ⟨-, hnone, -⟩ | ⟨hended, w, hone, -⟩
  · rw [hnone] at hmem
    exact absurd hmem (notMem_zero _)
  · rw [hone] at hmem ⊢
    exact ⟨hended, by rw [mem_singleton.mp hmem]⟩

theorem ReleaseInv.announce (h : ReleaseInv id s₀ opened s returned ((k, .won ids) ::ₘ notes))
    (hk : k.ends = some (id, .publish)) (announced : List String) :
    ReleaseInv id s₀ opened { s with announced := announced } returned ((k, .won ids) ::ₘ notes) := by
  refine ⟨h.fewer, h.early, h.marked, h.kept, h.lost, .inr ⟨h.winner.1, k, h.winner.2, fun hw => ?_⟩⟩
  cases hk.symm.trans hw

/-! ### Coming and going -/

/-- An end is called, with `opened` as it is then. -/
theorem ReleaseInv.join (h : ReleaseInv id s₀ opened s returned notes) (hopened : s.openIds id = opened k) :
    ReleaseInv id s₀ opened s returned ((k, .early) ::ₘ notes) := by
  refine ⟨h.fewer, forall_mem_cons.mpr ⟨fun _ _ => hopened, h.early⟩,
    forall_mem_cons.mpr ⟨nofun, h.marked⟩, h.kept,
    forall_mem_cons.mpr ⟨fun heq => Releasing.noConfusion heq, h.lost⟩, ?_⟩
  rw [winners_cons]
  simpa [Releasing.hasWon] using h.row

/-- An end returns without having moved the row. -/
theorem ReleaseInv.leave (h : ReleaseInv id s₀ opened s returned ((k, t) ::ₘ notes)) (hwon : t.hasWon = false)
    (hnow : a.endedNow = false) (hended : ∀ outcome, a = .ended outcome → s.status id = some .ended) :
    ReleaseInv id s₀ opened s ((k, a) :: returned) notes := by
  obtain ⟨-, hearly⟩ := forall_mem_cons.mp h.early
  obtain ⟨-, hmarked⟩ := forall_mem_cons.mp h.marked
  obtain ⟨-, hlost⟩ := forall_mem_cons.mp h.lost
  refine ⟨h.fewer, hearly, hmarked, List.forall_mem_cons.mpr ⟨fun outcome ho hyes => ?_, h.kept⟩, hlost, ?_⟩
  · subst ho
    exact absurd hyes (by simpa [BroadcastOutcome.endedNow] using hnow)
  · rw [winners_returned, hnow, if_neg Bool.false_ne_true, Multiset.zero_add]
    have hrow := h.row
    rw [winners_cons, hwon, if_neg Bool.false_ne_true, Multiset.zero_add] at hrow
    refine hrow.imp_left fun hactive => ⟨hactive.1, hactive.2.1, hactive.2.2.1, List.forall_mem_cons.mpr ⟨fun outcome ho => ?_, hactive.2.2.2⟩⟩
    cases hactive.1.symm.trans (hended outcome ho)

/-- The end that moved the row returns. -/
theorem ReleaseInv.return {written} (h : ReleaseInv id s₀ opened s returned ((k, .won ids) ::ₘ notes)) :
    ReleaseInv id s₀ opened s ((k, .ended ⟨true, written, ids⟩) :: returned) notes := by
  obtain ⟨-, hearly⟩ := forall_mem_cons.mp h.early
  obtain ⟨hown, hmarked⟩ := forall_mem_cons.mp h.marked
  obtain ⟨-, hlost⟩ := forall_mem_cons.mp h.lost
  refine ⟨h.fewer, hearly, hmarked, List.forall_mem_cons.mpr ⟨fun outcome ho _ hw => ?_, h.kept⟩, hlost, ?_⟩
  · cases ho
    obtain ⟨heq, hhides⟩ := hown ids rfl hw
    exact ⟨heq, heq ▸ hhides⟩
  · rcases h.row with ⟨hactive, -⟩ | ⟨hended, w, hone, hannounced⟩
    · cases hactive.symm.trans h.winner.1
    · refine .inr ⟨hended, w, ?_, hannounced⟩
      rw [winners_returned]
      rw [winners_cons] at hone
      exact hone

/-! ### Steps -/

theorem ReleaseInv.transition (h : ReleaseInv id s₀ opened s returned ((k, .marked ids) ::ₘ notes))
    {next : Except String Bool → Action BroadcastOutcome} (hwon : Won release ids (next (.ok true))) (hlost : Lost (next (.ok false))) :
    ∃ t', t'.Stands id release (next (s.request (.endStreamIfActive id) .served).2) ∧
      ReleaseInv id s₀ opened (s.request (.endStreamIfActive id) .served).1 returned ((k, t') ::ₘ notes) := by
  have hrow : ∃ x, s.content.streams[id]? = some x ∧ s.status id = some x.status := by
    have hsome : (s.status id).isSome := by rcases h.row with ⟨heq, -⟩ | ⟨heq, -⟩ <;> rw [heq] <;> rfl
    unfold status at hsome ⊢
    rw [Option.isSome_map] at hsome
    obtain ⟨x, hx⟩ := Option.isSome_iff_exists.mp hsome
    exact ⟨x, hx, by rw [hx]; rfl⟩
  obtain ⟨x, hx, hstatus⟩ := hrow
  rcases request_endStreamIfActive hx with ⟨hcase, hrequest⟩ | ⟨hcase, hrequest⟩
  · rw [hrequest]
    exact ⟨.won ids, hwon, h.win hx hcase⟩
  · rw [hrequest]
    exact ⟨.lost, hlost, h.restage (fun heq => Releasing.noConfusion heq) rfl (fun _ => hcase ▸ hstatus) rfl⟩

/-- **One step of one end.** -/
theorem ReleaseInv.request {q : BroadcastRequest} {fate : CallFate} {next : q.Reply → Action BroadcastOutcome}
    (h : ReleaseInv id s₀ opened s returned ((k, t) ::ₘ notes)) (hk : k.ends = some (id, release))
    (hstands : t.Stands id release (.call q next)) (hserved : q.isSql = true → fate = .served)
    (hapart : q.readies = some id → ∀ n ∈ notes, ¬n.1.withholds id) :
    ∃ t', t'.Stands id release (next (s.request q fate).2) ∧
      ReleaseInv id s₀ opened (s.request q fate).1 returned ((k, t') ::ₘ notes) := by
  have hsame : ReleaseFree q → SameRows s (s.request q fate).1 := sameRows_of_free (s.request_effect q fate)
  cases t with
  | early =>
    cases hstands with
    | call hq hnext => exact ⟨.early, hnext _, h.same (hsame hq)⟩
    | here hat =>
      rcases hat with hrefused | ⟨next', heq, hmarked⟩
      · cases hrefused with
        | call hq hnext =>
          exact ⟨.refused, hnext _, (h.same (hsame hq)).restage (fun heq => Releasing.noConfusion heq) rfl (fun heq => Releasing.noConfusion heq) rfl⟩
        | here hret =>
          obtain ⟨a, heq, -⟩ := hret
          cases heq
      · cases heq
        cases hserved rfl
        exact ⟨.marked (if release = .withhold then s.openIds id else []), hmarked (s.openIds id), h.mark hk (hapart rfl)⟩
  | refused =>
    cases hstands with
    | call hq hnext => exact ⟨.refused, hnext _, h.same (hsame hq)⟩
    | here hret =>
      obtain ⟨a, heq, -⟩ := hret
      cases heq
  | marked ids =>
    cases hstands with
    | call hq hnext => exact ⟨.marked ids, hnext _, h.same (hsame hq)⟩
    | here hat =>
      obtain ⟨next', heq, hwon, hlost⟩ := hat
      cases heq
      cases hserved rfl
      exact h.transition hwon hlost
  | won ids =>
    cases hstands with
    | call hq hnext =>
      rcases hq with hq | ⟨rfl, room, recording, rfl⟩
      · exact ⟨.won ids, hnext _, h.same (hsame hq)⟩
      · have heffect := s.request_effect (.announceRecording room recording) fate
        refine ⟨.won ids, hnext _, ?_⟩
        generalize (s.request (.announceRecording room recording) fate).1 = s' at heffect
        cases heffect with
        | none => exact h
        | announced => exact h.announce hk _
    | here hret =>
      obtain ⟨a, heq, -⟩ := hret
      cases heq
  | lost =>
    cases hstands with
    | call hq hnext => exact ⟨.lost, hnext _, h.same (hsame hq)⟩
    | here hret =>
      obtain ⟨a, heq, -⟩ := hret
      cases heq

/-- What an end returns is what its stage says. -/
theorem ReleaseInv.finish (h : ReleaseInv id s₀ opened s returned ((k, t) ::ₘ notes))
    (hstands : t.Stands id release (.ret a)) : ReleaseInv id s₀ opened s ((k, a) :: returned) notes := by
  have hrefused : Refused (.ret a) → t.hasWon = false → ReleaseInv id s₀ opened s ((k, a) :: returned) notes := by
    intro hret hwon
    obtain ⟨e, rfl⟩ := Prog.Ends.of_ret hret
    exact h.leave hwon rfl fun outcome heq => BroadcastOutcome.noConfusion heq
  cases t with
  | early =>
    cases hstands with
    | here hat =>
      rcases hat with hret | ⟨next, heq, -⟩
      · exact hrefused hret rfl
      · cases heq
  | refused => exact hrefused hstands rfl
  | marked ids =>
    cases hstands with
    | here hat =>
      obtain ⟨next, heq, -⟩ := hat
      cases heq
  | won ids =>
    obtain ⟨written, rfl⟩ := Prog.Ends.of_ret hstands
    exact h.return
  | lost =>
    obtain rfl := Prog.Ends.of_ret hstands
    exact h.leave rfl rfl fun _ _ => h.lost _ (mem_cons_self _ _) rfl

end

/-! ## The programs -/

section
variable {cfg : BroadcastConfig} {id user : String} {row : StreamRow} {release : RecordingRelease} {reason : Option String}

theorem finalizeStreamMarker_free {room} : (finalizeStreamMarker id row room reason).Uses (AfterwardsFree release) := by
  refine ⟨.inl trivial, fun g => ?_⟩
  dsimp only
  split
  · exact ⟨.inl trivial, fun _ => publishEnded_uses (.inl trivial) _⟩
  · exact publishEnded_uses (.inl trivial) _

variable {withheld : List String}

theorem afterEnd_ends : (afterEnd cfg id row release reason withheld).Ends (AfterwardsFree release)
    fun outcome => ∃ written, outcome = ⟨true, written, withheld⟩ := by
  refine .call (.inl trivial) fun r => ?_
  dsimp only
  split
  · refine .bind finalizeStreamMarker_free fun written => .bind ?_ fun _ => Prog.Ends.ret ⟨written, rfl⟩
    split
    · rename_i hpublish
      refine ⟨.inl trivial, fun r => ?_⟩
      cases r with
      | ok recordings => exact announceAll_uses (fun recording => .inr ⟨hpublish.1, _, recording, rfl⟩) recordings
      | error e => trivial
    · trivial
  · exact Prog.Ends.ret ⟨false, rfl⟩

theorem afterEnd_won :
    Won release withheld (respond .ended ((afterEnd cfg id row release reason withheld).bind fun outcome => .ret (.ok outcome))) := by
  rw [respond, Prog.bind_assoc]
  refine afterEnd_ends.bind fun outcome houtcome => ?_
  obtain ⟨written, rfl⟩ := houtcome
  exact Prog.Ends.ret ⟨written, rfl⟩

theorem transition_at :
    AtTransition id release withheld (respond .ended (transition cfg id row release reason withheld)) :=
  ⟨_, rfl, afterEnd_won, .here ⟨_, rfl, rfl⟩⟩

/-- Up to the recordings, with the pool that holds them. -/
theorem endAndFinaliseStream_leads (hpool : cfg.content.pgPool = true) :
    (respond .ended (endAndFinaliseStream cfg id row release reason)).Leads ReleaseFree fun p => Refused p ∨ AtMark id release p := by
  have hrest : ∀ withheld, ((onSwitch cfg (.removeSource (Streams.switchSourceId id))).bind fun _ => (deleteRoom row).bind fun _ =>
      respond .ended (transition cfg id row release reason withheld)).Leads ReleaseFree (AtTransition id release withheld) := fun withheld =>
    .bind (uses_onSwitch trivial) fun _ => .bind (deleteRoom_uses fun _ => trivial) fun _ => .here transition_at
  simp only [respond, endAndFinaliseStream, releaseMedia, Prog.bind_assoc] at hrest ⊢
  refine .bind (cleanupEgresses_uses trivial fun _ _ => trivial) fun _ => .bind (uses_onSwitch trivial) fun _ => ?_
  rw [finishRows, if_pos hpool]
  refine .here (.inr ⟨_, rfl, fun ids => ?_⟩)
  rw [Prog.bind_assoc]
  exact .bind (uses_onSwitch trivial) fun _ => hrest _

theorem release_early (hpool : cfg.content.pgPool = true) {k : BroadcastJob} (hk : k.ends = some (id, release)) :
    Releasing.early.Stands id release (k.program cfg) :=
  ends_leads hk trivial (fun _ => .inl (.ret ⟨_, rfl⟩)) fun _ _ => endAndFinaliseStream_leads hpool

/-! ## Runs -/

/-- The stream is ended, with statements that succeed. -/
def ReleaseRuns (id : String) (pool : BroadcastPool) : BroadcastEvent → Prop
  | .start k => k.ends.map Prod.fst = some id
  | .request place fate => (pool.next? place).any BroadcastRequest.isSql = true → fate = .served
  | .move _ => True
  | .die => False

/-- No end marks the recordings while a force-stop by another is in flight. -/
def WithholdsAlone (id : String) (pool : BroadcastPool) : BroadcastEvent → Prop
  | .request place _ => (pool.next? place).bind BroadcastRequest.readies = some id →
      ∀ x ∈ pool.running.eraseIdx place, x.1.ends ≠ some (id, .withhold)
  | _ => True

/-- `opened` has what is open when each end is called. -/
def CalledWith (id : String) (opened : BroadcastJob → List String) (pool : BroadcastPool) : BroadcastEvent → Prop :=
  Event.Starts fun k => pool.state.openIds id = opened k

instance decidableReleaseRuns (id : String) (pool : BroadcastPool) : (e : BroadcastEvent) → Decidable (ReleaseRuns id pool e)
  | .start _ => inferInstanceAs (Decidable (_ = _))
  | .request .. => inferInstanceAs (Decidable (_ → _))
  | .move _ => isTrue trivial
  | .die => isFalse not_false

instance decidableWithholdsAlone (id : String) (pool : BroadcastPool) : (e : BroadcastEvent) → Decidable (WithholdsAlone id pool e)
  | .request .. => inferInstanceAs (Decidable (_ → _))
  | .start _ | .move _ | .die => isTrue trivial

instance decidableCalledWith (id : String) (opened : BroadcastJob → List String) (pool : BroadcastPool) (e : BroadcastEvent) :
    Decidable (CalledWith id opened pool e) :=
  inferInstanceAs (Decidable (Event.Starts _ e))

/-- The stages of the ends in flight. -/
def releaseOutline (cfg : BroadcastConfig) (hpool : cfg.content.pgPool = true) (id : String) (s₀ : BroadcastState)
    (opened : BroadcastJob → List String) : Outline broadcastService (BroadcastJob.program cfg)
      (fun pool e => ReleaseRuns id pool e ∧ WithholdsAlone id pool e ∧ CalledWith id opened pool e) Releasing where
  stands := fun k p t => ∃ release, k.ends = some (id, release) ∧ t.Stands id release p
  inv := fun s returned notes => ReleaseInv id s₀ opened s returned notes
  start := by
    intro pool k notes hinv hjobs hok
    obtain ⟨x, hx, rfl⟩ := Option.map_eq_some_iff.mp hok.1
    exact ⟨.early, ⟨x.2, hx, release_early hpool hx⟩, hinv.join hok.2.2⟩
  request := by
    intro pool place k q next fate t notes hstands hinv hjobs hplace hok
    obtain ⟨release, hk, hstands⟩ := hstands
    have hq : pool.next? place = some q := by simp only [Pool.next?, hplace]
    obtain ⟨t', hstands, hinv⟩ := hinv.request hk hstands (fun hsql => hok.1 (by rw [hq]; exact hsql)) fun hready n hn => by
      obtain ⟨x, hx, heq⟩ := Outline.mem_others hplace hjobs hn
      exact heq ▸ hok.2.1 (by rw [hq]; exact hready) x hx
    exact ⟨t', ⟨release, hk, hstands⟩, hinv⟩
  finish := by
    intro s returned k a t notes hstands hinv
    obtain ⟨release, -, hstands⟩ := hstands
    exact hinv.finish hstands
  move := by
    intro pool m notes hinv hok
    refine hinv.same ?_
    cases m <;> exact ⟨rfl, rfl, rfl⟩
  die := by
    intro pool notes hinv hok
    exact hok.1.elim

/-- **A force-stop withholds what it stopped**, when no other end marks the recordings while it is
in flight: what was open when it was called is hidden and never announced, and is what it
reports. Of all ends one moves the row. -/
theorem withhold_hides (cfg : BroadcastConfig) (hpool : cfg.content.pgPool = true) (id : String) (s₀ : BroadcastState)
    (hactive : s₀.status id = some .active) (hnew : ∀ r ∈ s₀.openIds id, r ∉ s₀.announced) (opened : BroadcastJob → List String)
    (h : List BroadcastEvent) (pool : BroadcastPool)
    (run : Run (broadcastStep cfg) (fun _ pool e => ReleaseRuns id pool e ∧ WithholdsAlone id pool e ∧ CalledWith id opened pool e)
      ⟨s₀, [], []⟩ h pool) :
    (∀ k outcome, k.withholds id → (k, .ended outcome) ∈ pool.returned → outcome.endedNow = true →
      outcome.withheldRecordings = opened k ∧
      ∀ r ∈ opened k, (∃ row, pool.state.content.recordings[r]? = some row ∧ row.hidden = true) ∧ r ∉ pool.state.announced) ∧
    (pool.returned.filter fun r => r.2.endedNow).length ≤ 1 ∧
    (pool.running = [] → (∃ k outcome, (k, .ended outcome) ∈ pool.returned) → (pool.returned.filter fun r => r.2.endedNow).length = 1) := by
  have hinit : ReleaseInv id s₀ opened s₀ [] 0 :=
    ⟨fun _ hr => hr, fun _ hn => absurd hn (notMem_zero _), fun _ hn => absurd hn (notMem_zero _),
      fun _ hr => absurd hr List.not_mem_nil, fun _ hn => absurd hn (notMem_zero _),
      .inl ⟨hactive, rfl, rfl, fun _ hr => absurd hr List.not_mem_nil⟩⟩
  have hsound := (Outline.sound_start (O := releaseOutline cfg hpool id s₀ opened) hinit).run run
  refine ⟨fun k outcome hk hret hnow => ?_, ?_, fun hquiet hended => ?_⟩
  · obtain ⟨notes, -, -, hinv⟩ := hsound
    obtain ⟨hwithheld, hhides⟩ := hinv.kept _ hret outcome rfl hnow hk
    have hannounced : pool.state.announced = s₀.announced := by
      rcases hinv.row with ⟨-, -, hsame, -⟩ | ⟨-, w, hone, hsame⟩
      · exact hsame
      · have hmem := @mem_winners _ (Outline.stages notes) _ _ hret hnow
        rw [hone, mem_singleton] at hmem
        exact hsame (hmem ▸ hk)
    refine ⟨hwithheld, fun r hr => ?_⟩
    obtain ⟨hmem, row, hrow, hhidden, -⟩ := hhides r hr
    exact ⟨⟨row, hrow, hhidden⟩, hannounced ▸ hnew r hmem⟩
  · obtain ⟨notes, -, -, hinv⟩ := hsound
    have hle := length_le_winners pool.returned (Outline.stages notes)
    rcases hinv.row with ⟨-, hnone, -⟩ | ⟨-, w, hone, -⟩
    · rw [hnone, card_zero] at hle
      omega
    · rwa [hone, card_singleton] at hle
  · obtain ⟨k, outcome, hret⟩ := hended
    rcases (hsound.quiet hquiet).row with ⟨-, -, -, hnever⟩ | ⟨-, w, hone, -⟩
    · exact absurd rfl (hnever _ hret outcome)
    · have hcard := congrArg card hone
      simpa [winners] using hcard

end

/-- The force-stop finds the recording open, whatever comes after it does not. -/
def openAtForceStop (k : BroadcastJob) : List String := if k = .stopStream 1 "live" .withhold none then ["live_rec1"] else []

/-- A force-stop, and then the host ends the stream too. -/
def forceStopThenEnd : List BroadcastEvent :=
  (.start (.stopStream 1 "live" .withhold none) :: List.replicate 10 (.request 0 .served) : List BroadcastEvent) ++
  (.start (.endStream 2 "@alice" "live") :: List.replicate 7 (.request 0 .served) : List BroadcastEvent)

theorem recorded_open : recorded.status "live" = some .active ∧
    ∀ r ∈ recorded.openIds "live", r ∉ recorded.announced := by
  decide +kernel

theorem withhold_hides_alone : ∃ h pool,
    Run (broadcastStep originConfig)
      (fun _ pool e => ReleaseRuns "live" pool e ∧ WithholdsAlone "live" pool e ∧ CalledWith "live" openAtForceStop pool e)
      ⟨.recorded, [], []⟩ h pool ∧
    (∃ row, pool.state.content.recordings["live_rec1"]? = some row ∧ row.hidden = true) ∧ "live_rec1" ∉ pool.state.announced := by
  apply Run.exists_and_of_follows
    (P := fun pool => (.stopStream 1 "live" .withhold none, .ended ⟨true, true, ["live_rec1"]⟩) ∈ pool.returned) forceStopThenEnd (by decide +kernel)
  intro h pool run hreturned
  have hhides := (withhold_hides originConfig rfl "live" _ recorded_open.1 recorded_open.2 openAtForceStop _ _ run).1
    (.stopStream 1 "live" .withhold none) _ rfl hreturned rfl
  exact hhides.2 "live_rec1" (by simp [openAtForceStop])

/-- The host's end marks the recording for the public, and the force-stop moves the row. -/
def endWithinForceStop : List BroadcastEvent :=
  ([.start (.stopStream 1 "live" .withhold none), .start (.endStream 2 "@alice" "live")] : List BroadcastEvent) ++
  (List.replicate 3 (.request 0 .served) : List BroadcastEvent) ++
  (.request 1 .served :: List.replicate 9 (.request 0 .served) : List BroadcastEvent) ++
  (List.replicate 4 (.request 0 .served) : List BroadcastEvent)

/-- A force-stop that ends the stream and hides nothing of it. -/
theorem published_under_withhold : ∃ s₀ opened h pool k outcome row, s₀.status "live" = some .active ∧
    (∀ r ∈ s₀.openIds "live", r ∉ s₀.announced) ∧
    Run (broadcastStep originConfig) (fun _ pool e => ReleaseRuns "live" pool e ∧ CalledWith "live" opened pool e) ⟨s₀, [], []⟩ h pool ∧
    k.withholds "live" ∧ (k, .ended outcome) ∈ pool.returned ∧ outcome.endedNow = true ∧ "live_rec1" ∈ opened k ∧
    outcome.withheldRecordings = [] ∧ pool.state.content.recordings["live_rec1"]? = some row ∧ row.status = .ready ∧ row.hidden = false := by
  obtain ⟨h, pool, run, hreturned, hrow⟩ : ∃ h pool,
      Run (broadcastStep originConfig) (fun _ pool e => ReleaseRuns "live" pool e ∧ CalledWith "live" (fun _ => ["live_rec1"]) pool e)
        ⟨.recorded, [], []⟩ h pool ∧ (.stopStream 1 "live" .withhold none, .ended ⟨true, true, []⟩) ∈ pool.returned ∧
      (pool.state.content.recordings["live_rec1"]?.map fun r => (r.status, r.hidden)) = some (.ready, false) :=
    Run.exists_of_follows endWithinForceStop (by decide +kernel)
  obtain ⟨row, hrow, hready⟩ := Option.map_eq_some_iff.mp hrow
  exact ⟨_, _, h, pool, .stopStream 1 "live" .withhold none, _, row, recorded_open.1, recorded_open.2, run, rfl, hreturned, rfl, by simp, rfl, hrow,
    (Prod.ext_iff.mp hready).1, (Prod.ext_iff.mp hready).2⟩

end MatrixMedia.Broadcast
