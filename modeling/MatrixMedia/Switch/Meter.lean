import MatrixMedia.Switch.Subscriptions
import Mathlib.Algebra.BigOperators.Group.Multiset.Basic
import Mathlib.Algebra.Order.BigOperators.Group.Multiset
import Mathlib.Algebra.Order.Ring.Nat

/-!
# The egress meter of the switch

A report adds the counters of the registered viewers to the bytes of those that are gone. The
account here has the same sum with what is between the two: the viewers that were taken out of the
map and not yet folded in. Packets add to it, and removals only move bytes within it.

`egress_conserved` is about steps that do not overlap. A viewer has one counter, which is billed to
its last programme, and a viewer that is displaced is not folded in; so it needs that a viewer with
bytes is neither displaced nor switched to another programme (`bytes_move`).
`meter_runs_forward` is about polls while packets are written. It needs that no removal overlaps a
poll: the list of the viewers and the bytes of those that are gone are copied one after the other
(`meter_runs_backwards`).
-/

namespace MatrixMedia.Switch
open Lib Lib.Interaction SwitchState Multiset Totals Table
open Std (TreeMap)

/-! ## Accounts -/

/-- What a reading says of one source. -/
def partOf (src : String) (reading : String × Nat) : Nat := if reading.1 = src then reading.2 else 0

def Totals.of (totals : Totals) (src : String) : Nat := (totals[src]?).getD 0

theorem Totals.of_add {src} (hsrc : src ≠ "") (totals : Totals) (reading : String × Nat) :
    (totals.add reading).of src = totals.of src + partOf src reading := by
  unfold add partOf
  split
  · rename_i hempty
    rcases hempty with hnone | hzero
    · rw [if_neg (by rw [hnone]; exact hsrc.symm), Nat.add_zero]
    · rw [hzero]
      simp
  · unfold of
    rw [getElem?_insert]
    split
    · rename_i heq
      rw [heq]
      rfl
    · rfl

namespace SwitchState

/-- What these viewers have for a source. -/
def shares (s : SwitchState) (src : String) (refs : Multiset Nat) : Nat := (refs.map fun ref => partOf src (s.reading ref)).sum

/-- What a report over the registered viewers has for a source. -/
def billed (s : SwitchState) (src : String) : Nat := (s.egressSnapshot s.viewerRefs).of src

/-- What was written while the source was the billing source. -/
def writtenFor (s : SwitchState) (src : String) : Nat := (s.written.map (partOf src)).sum

/-- All that was written. -/
def writtenInAll (s : SwitchState) : Nat := (s.written.map Prod.snd).sum

section
variable {s s' : SwitchState} {src : String}

theorem writtenFor_le : s.writtenFor src ≤ s.writtenInAll := by
  refine List.sum_le_sum fun x _ => ?_
  unfold partOf
  split
  · exact Nat.le_refl _
  · exact Nat.zero_le _

theorem int64_of_lt {n : Nat} (h : n < 2 ^ 63) : int64 n = n := by
  have h : (n : Int) < 9223372036854775808 := Int.ofNat_lt.mpr h
  refine Int.bmod_eq_of_le ?_ ?_
  · show -((18446744073709551616 : Int) / 2) ≤ n
    omega
  · show (n : Int) < ((18446744073709551616 : Int) + 1) / 2
    omega

theorem shares_cons (ref : Nat) (refs : Multiset Nat) : s.shares src (ref ::ₘ refs) = partOf src (s.reading ref) + s.shares src refs := by
  simp [shares]

theorem shares_add (refs refs' : Multiset Nat) : s.shares src (refs + refs') = s.shares src refs + s.shares src refs' := by
  unfold shares
  rw [map_add, sum_add]

variable {refs : Multiset Nat}

theorem shares_congr (h : ∀ ref ∈ refs, partOf src (s'.reading ref) = partOf src (s.reading ref)) :
    s'.shares src refs = s.shares src refs :=
  congrArg sum (map_congr rfl h)

theorem shares_mono (h : ∀ ref, partOf src (s.reading ref) ≤ partOf src (s'.reading ref)) :
    s.shares src refs ≤ s'.shares src refs :=
  sum_map_le_sum_map _ _ fun ref _ => h ref

/-- What a report says, from the copy of the closed totals on. -/
theorem of_readings (hsrc : src ≠ "") (refs : List Nat) (totals : Totals) :
    (refs.foldl (fun totals ref => totals.add (s.reading ref)) totals).of src = totals.of src + s.shares src refs := by
  induction refs generalizing totals with
  | nil => rfl
  | cons ref refs ih =>
    rw [List.foldl_cons, ih, of_add hsrc, ← cons_coe, shares_cons, Nat.add_assoc]

theorem reading_writeTrack (s : SwitchState) (ref size x : Nat) : (s.writeTrack ref size).reading x =
    if x = ref then ((s.reading ref).1, (s.reading ref).2 + (size + s.overhead)) else s.reading x := by
  unfold reading writeTrack setViewer
  by_cases hx : x = ref
  · simp [hx]
  · simp [hx]

theorem partOf_add (b : String) (m n : Nat) : partOf src (b, m + n) = partOf src (b, m) + partOf src (b, n) := by
  unfold partOf
  split <;> rfl

theorem shares_writeTrack_of_notMem {ref} (size : Nat) (h : ref ∉ refs) :
    (s.writeTrack ref size).shares src refs = s.shares src refs := by
  refine shares_congr fun x hx => ?_
  rw [reading_writeTrack, if_neg]
  rintro rfl
  exact h hx

/-- A packet counts once for a viewer of the list. -/
theorem shares_writeTrack_of_mem {ref} (size : Nat) (hnodup : refs.Nodup) (h : ref ∈ refs) :
    (s.writeTrack ref size).shares src refs = s.shares src refs + partOf src ((s.reading ref).1, size + s.overhead) := by
  obtain ⟨rest, rfl⟩ := exists_cons_of_mem h
  have hrest := (nodup_cons.mp hnodup).1
  rw [shares_cons, shares_cons, shares_writeTrack_of_notMem size hrest, reading_writeTrack, if_pos rfl, partOf_add]
  exact Nat.add_right_comm _ _ _

theorem shares_writeTrack_le (ref size : Nat) (hnodup : refs.Nodup) :
    (s.writeTrack ref size).shares src refs ≤ s.shares src refs + partOf src ((s.reading ref).1, size + s.overhead) := by
  by_cases h : ref ∈ refs
  · exact Nat.le_of_eq (shares_writeTrack_of_mem size hnodup h)
  · rw [shares_writeTrack_of_notMem size h]
    exact Nat.le_add_right _ _

theorem writtenFor_writeTrack (ref size : Nat) :
    (s.writeTrack ref size).writtenFor src = s.writtenFor src + partOf src ((s.reading ref).1, size + s.overhead) := by
  show ((((s.reading ref).1, size + s.overhead) :: s.written).map (partOf src)).sum = _
  rw [List.map_cons, List.sum_cons, Nat.add_comm]
  rfl

end

end SwitchState

/-! ## Stages -/

/-- The request leaves the counters and the map of the viewers alone. -/
def SilentCall : SwitchRequest → Prop
  | .closeViewer _ | .unsubscribe _ | .activate _ _ | .subscribe _ _ | .keepSubscription _ _ => True
  | _ => False

inductive Metering where
  /-- Before its first request. -/
  | fresh
  | idle
  /-- A removal that has not read the counter. -/
  | taken (ref : Nat)
  | folding (reading : String × Nat)
  /-- A poll with its list of the viewers. -/
  | listed (refs : List Nat)
  | reading (refs : List Nat) (totals : Totals)

/-- The viewer that is out of the map with its counter. -/
def Metering.refs : Metering → Multiset Nat
  | .taken ref => {ref}
  | _ => 0

/-- What is in no counter and not yet with those that are gone. -/
def Metering.folded (src : String) : Metering → Nat
  | .folding r => partOf src r
  | _ => 0

/-- It returns no report. -/
def Ending (p : Task SwitchOutcome) : Prop := p.Ends SilentCall fun a => a = .done

def AtFold (reading : String × Nat) (p : Task SwitchOutcome) : Prop := ∃ next, p = .call (.recordClosed reading) next ∧ Ending (next ())

def AtRead (ref : Nat) (p : Task SwitchOutcome) : Prop := ∃ next, p = .call (.reading ref) next ∧ ∀ reading, AtFold reading (next reading)

def AtReport (refs : List Nat) (totals : Totals) (p : Task SwitchOutcome) : Prop :=
  p = (readViewers refs totals).bind fun totals => .ret (.report totals)

def Metering.Stands (k : SwitchJob) (p : Task SwitchOutcome) : Metering → Prop
  | .fresh => p = k.program
  | .idle => Ending p
  | .taken ref => p.Leads SilentCall (AtRead ref)
  | .folding r => AtFold r p
  | .listed refs => ∃ next, p = .call .closedEgress next ∧ ∀ totals, AtReport refs totals (next totals)
  | .reading refs totals => AtReport refs totals p

/-! ## The account -/

/-- The viewers whose counters are not with those that are gone. -/
def liveRefs (s : SwitchState) (notes : Multiset (SwitchJob × Metering)) : Multiset Nat :=
  (s.viewerRefs : Multiset Nat) + (notes.map fun n => n.2.refs).sum

def account (s : SwitchState) (notes : Multiset (SwitchJob × Metering)) (src : String) : Nat :=
  of s.closedEgress src + s.shares src (liveRefs s notes) + (notes.map fun n => n.2.folded src).sum

section
variable {s s' : SwitchState} {notes : Multiset (SwitchJob × Metering)} {k : SwitchJob} {t t' : Metering} {src : String} {ref : Nat}

theorem account_cons : account s ((k, t) ::ₘ notes) src = account s notes src + (s.shares src t.refs + t.folded src) := by
  unfold account liveRefs
  simp only [map_cons, sum_cons, shares_add]
  omega

/-- Nothing that the account is about changes. -/
structure SameMeter (s s' : SwitchState) : Prop where
  viewers : s'.viewers = s.viewers
  closed : s'.closedEgress = s.closedEgress
  written : s'.written = s.written
  parts : ∀ src ref, partOf src (s'.reading ref) = partOf src (s.reading ref)

theorem SameMeter.account (h : SameMeter s s') : account s' notes src = account s notes src := by
  unfold Switch.account liveRefs viewerRefs
  rw [h.viewers, h.closed, shares_congr fun ref _ => h.parts src ref]

theorem SameMeter.refl (s : SwitchState) : SameMeter s s := ⟨rfl, rfl, rfl, fun _ _ => rfl⟩

theorem SameMeter.trans {s''} (h : SameMeter s s') (h' : SameMeter s' s'') : SameMeter s s'' :=
  ⟨h'.viewers.trans h.viewers, h'.closed.trans h.closed, h'.written.trans h.written, fun src ref => (h'.parts src ref).trans (h.parts src ref)⟩

/-- The fields of a viewer that are not metered change. -/
theorem sameMeter_setViewer {v : Viewer} (hbilling : v.billingSource = (s.viewerObjects ref).billingSource)
    (hbytes : v.egressBytes = (s.viewerObjects ref).egressBytes) : SameMeter s (s.setViewer ref v) := by
  refine ⟨rfl, rfl, rfl, fun src x => congrArg (partOf src) ?_⟩
  unfold reading setViewer
  by_cases hx : x = ref
  · simp only [hx, Function.update_self, hbilling, hbytes]
  · simp only [Function.update_of_ne hx]

theorem sameMeter_setSource (src : Nat) (x : Source) : SameMeter s (s.setSource src x) := ⟨rfl, rfl, rfl, fun _ _ => rfl⟩

theorem sameMeter_release (s : SwitchState) (ref : Nat) : SameMeter s (s.release ref) := by
  unfold release
  split
  · exact (sameMeter_setSource _ _).trans (sameMeter_setViewer rfl rfl)
  · exact .refl s

variable {id : String} {q : SwitchRequest}

theorem sameMeter_silent (hq : SilentCall q) : SameMeter s (s.request q ()).1 := by
  cases q with
  | closeViewer ref =>
    simp only [request, closeViewer]
    split
    · exact .refl s
    · exact sameMeter_setViewer rfl rfl
  | unsubscribe sub => exact sameMeter_setSource _ _
  | activate ref src =>
    simp only [request, activate]
    split
    · have hset : SameMeter s (s.setViewer ref { s.viewerObjects ref with pendingSource := none }) := sameMeter_setViewer rfl rfl
      exact hset.trans (sameMeter_release _ ref)
    · exact .refl s
  | subscribe src ref => exact sameMeter_setSource _ _
  | keepSubscription ref sub => exact sameMeter_setViewer rfl rfl
  | _ => exact hq.elim

theorem sameMeter_detachSource (s : SwitchState) (ref : Nat) : SameMeter s (s.detachSource ref) :=
  (sameMeter_release s ref).trans (sameMeter_setViewer rfl rfl)

theorem sameMeter_detachAll (s : SwitchState) (id : String) (refs : List Nat) : SameMeter s (s.detachAll id refs) := by
  induction refs generalizing s with
  | nil => exact .refl s
  | cons ref refs ih =>
    unfold detachAll
    rw [List.foldl_cons]
    split
    · exact (sameMeter_detachSource s ref).trans (ih _)
    · exact ih s

theorem sameMeter_removeSource (s : SwitchState) (id : String) (want : Option Nat) : SameMeter s (s.removeSource id want) := by
  unfold removeSource
  split
  · exact .refl s
  · split
    · exact .refl s
    · rename_i src hsrc hwant
      have hstopped : SameMeter s { s.setSource src { s.sourceObjects src with stopped := true } with sources := s.sources.erase id } :=
        ⟨rfl, rfl, rfl, fun _ _ => rfl⟩
      exact hstopped.trans (sameMeter_detachAll _ id _)

/-! ### Steps of the account -/

theorem viewerRefs_take (h : s.viewers[id]? = some ref) :
    (s.viewerRefs : Multiset Nat) = ref ::ₘ (({ s with viewers := s.viewers.erase id } : SwitchState).viewerRefs : Multiset Nat) := by
  rw [cons_coe, coe_eq_coe]
  exact (toList_perm_cons_erase h).map Prod.snd

/-- A viewer is taken out of the map. -/
theorem account_take (h : s.viewers[id]? = some ref) :
    account { s with viewers := s.viewers.erase id } ((k, .taken ref) ::ₘ notes) src = account s ((k, .fresh) ::ₘ notes) src := by
  rw [account_cons, account_cons]
  unfold account liveRefs
  rw [viewerRefs_take h, cons_add, shares_cons]
  show of s.closedEgress src + shares s src _ + _ + (partOf src (s.reading ref) + 0 + 0) = _ + (partOf src (s.reading ref) + shares s src _) + _ + 0
  omega

/-- Its counter is folded in. -/
theorem account_fold (hsrc : src ≠ "") (reading : String × Nat) :
    account (s.recordClosedViewerEgress reading) ((k, .idle) ::ₘ notes) src = account s ((k, .folding reading) ::ₘ notes) src := by
  rw [account_cons, account_cons]
  show of (add s.closedEgress reading) src + s.shares src (liveRefs s notes) + _ + 0 = _ + (0 + partOf src reading)
  rw [of_add hsrc]
  unfold account
  omega

/-- With nothing in flight a report is the account. -/
theorem billed_eq (hsrc : src ≠ "") : s.billed src = account s 0 src := by
  rw [billed, egressSnapshot, of_readings hsrc]
  unfold account liveRefs
  rw [map_zero, map_zero, sum_zero, sum_zero, add_zero, add_zero]

/-! ## Polls -/

def SwitchJob.polls : SwitchJob → Bool
  | .handleEgress _ => true
  | _ => false

def SwitchJob.takes : SwitchJob → Bool
  | .removeViewer .. => true
  | _ => false

def SwitchOutcome.totals : SwitchOutcome → Option Totals
  | .report totals => some totals
  | .done => none

/-- Newest first. -/
def reports (returned : List (SwitchJob × SwitchOutcome)) : List Totals := returned.filterMap fun x => x.2.totals

/-- Where a poll is, given the reports before it. -/
def Metering.Ok (s : SwitchState) (reported : List Totals) (k : SwitchJob) : Metering → Prop
  | .fresh => True
  | .idle | .taken _ | .folding _ => k.polls = false
  | .listed refs => k.polls = true ∧ refs = s.viewerRefs
  | .reading refs totals => k.polls = true ∧ ∃ before, s.viewerRefs = before ++ refs ∧ ∀ src ≠ "",
      totals.of src ≤ of s.closedEgress src + s.shares src before ∧ ∀ r ∈ reported, r.of src ≤ totals.of src + s.shares src refs

theorem Metering.Ok.of_silent {reported} (h : t.Ok s reported k) (hk : k.polls = false) : t.Ok s' reported k := by
  cases t with
  | fresh | idle | taken | folding => exact h
  | listed | reading =>
    obtain ⟨hpolls, -⟩ := h
    rw [hk] at hpolls
    cases hpolls

theorem Metering.Ok.of_poll {reported} (h : t.Ok s reported k) (hk : k.polls = true) :
    t.refs = 0 ∧ ∀ src, t.folded src = 0 := by
  cases t with
  | fresh | listed | reading => exact ⟨rfl, fun _ => rfl⟩
  | idle | taken | folding => cases hk.symm.trans h

/-- **One step of a removal or a poll** past its first request; polls find what was reported. -/
theorem meter_request (notes : Multiset (SwitchJob × Metering)) (reported : List Totals)
    {next} (hstands : t.Stands k (.call q next)) (hfresh : t ≠ .fresh) :
    ∃ t', t'.Stands k (next (s.request q ()).2) ∧ t' ≠ .fresh ∧ t'.refs ≤ t.refs ∧
      (s.request q ()).1.viewers = s.viewers ∧ (s.request q ()).1.written = s.written ∧
      (∀ src ≠ "", account (s.request q ()).1 ((k, t') ::ₘ notes) src = account s ((k, t) ::ₘ notes) src) ∧
      ((k.polls = true → ∀ src ≠ "", ∀ r ∈ reported, r.of src ≤ of s.closedEgress src + s.shares src s.viewerRefs) →
        t.Ok s reported k → t'.Ok (s.request q ()).1 reported k) := by
  cases t with
  | fresh => exact absurd rfl hfresh
  | idle =>
    cases hstands with
    | here hret =>
      obtain ⟨a, heq, -⟩ := hret
      cases heq
    | call hq hnext =>
      have hs := sameMeter_silent (s := s) hq
      exact ⟨.idle, hnext _, Metering.noConfusion, le_refl _, hs.viewers, hs.written, fun src _ => hs.account, fun _ hok => hok⟩
  | taken ref =>
    cases hstands with
    | call hq hnext =>
      have hs := sameMeter_silent (s := s) hq
      exact ⟨.taken ref, hnext _, Metering.noConfusion, le_refl _, hs.viewers, hs.written, fun src _ => hs.account, fun _ hok => hok⟩
    | here hread =>
      obtain ⟨next', heq, hfold⟩ := hread
      cases heq
      refine ⟨.folding (s.reading ref), hfold _, Metering.noConfusion, zero_le _, rfl, rfl, fun src _ => ?_, fun _ hok => hok⟩
      rw [account_cons, account_cons]
      show account s notes src + (0 + partOf src (s.reading ref)) = account s notes src + (partOf src (s.reading ref) + 0 + 0)
      omega
  | folding r =>
    obtain ⟨next', heq, hend⟩ := hstands
    cases heq
    exact ⟨.idle, hend, Metering.noConfusion, le_refl _, rfl, rfl, fun src hsrc => account_fold hsrc r, fun _ hok => hok⟩
  | listed refs =>
    obtain ⟨next', heq, hreport⟩ := hstands
    cases heq
    refine ⟨.reading refs s.closedEgress, hreport _, Metering.noConfusion, le_refl _, rfl, rfl,
      fun src _ => (by rw [account_cons, account_cons]; rfl), fun hreported hok => ?_⟩
    obtain ⟨hpolls, rfl⟩ := hok
    exact ⟨hpolls, [], rfl, fun src hsrc => ⟨Nat.le_add_right _ _, hreported hpolls src hsrc⟩⟩
  | reading refs totals =>
    cases refs with
    | nil => cases hstands
    | cons ref refs =>
      cases hstands
      refine ⟨.reading refs (totals.add (s.reading ref)), rfl, Metering.noConfusion, le_refl _, rfl, rfl,
        fun src _ => (by rw [account_cons, account_cons]; rfl), fun _ hok => ?_⟩
      obtain ⟨hpolls, before, hrefs, hbounds⟩ := hok
      refine ⟨hpolls, before ++ [ref], by rw [List.append_assoc]; exact hrefs, fun src hsrc => ?_⟩
      obtain ⟨hupper, hlower⟩ := hbounds src hsrc
      rw [of_add hsrc]
      refine ⟨?_, fun r hr => ?_⟩
      · have hcons : s.shares src (before ++ [ref] : List Nat) = s.shares src before + partOf src (s.reading ref) := by
          rw [← coe_add, shares_add]
          rfl
        show _ ≤ of s.closedEgress src + s.shares src (before ++ [ref] : List Nat)
        rw [hcons]
        omega
      · have hr := hlower r hr
        rw [← cons_coe, shares_cons] at hr
        show _ ≤ _ + s.shares src refs
        omega

/-- A task that has returned holds no bytes. -/
theorem Metering.Stands.returned {a} (h : t.Stands k (.ret a)) :
    t.refs = 0 ∧ (∀ src, t.folded src = 0) ∧ ((t = .idle ∧ a = .done) ∨ ∃ totals, t = .reading [] totals ∧ a = .report totals) := by
  cases t with
  | fresh => cases k <;> cases h
  | idle =>
    cases h with
    | here hret =>
      obtain ⟨a', heq, hdone⟩ := hret
      cases heq
      exact ⟨rfl, fun _ => rfl, .inl ⟨rfl, hdone⟩⟩
  | taken ref =>
    cases h with
    | here hread =>
      obtain ⟨next, heq, -⟩ := hread
      cases heq
  | folding r | listed refs =>
    obtain ⟨next, heq, -⟩ := h
    cases heq
  | reading refs totals =>
    cases refs with
    | nil =>
      cases h
      exact ⟨rfl, fun _ => rfl, .inr ⟨totals, rfl, rfl⟩⟩
    | cons ref refs => cases h

/-- The first request of a removal. -/
theorem removeViewer_first {n want next}
    (hprogram : .call q next = (SwitchJob.removeViewer n id want).program) :
    ((s.request q ()).1 = s ∧ Metering.idle.Stands (.removeViewer n id want) (next (s.request q ()).2)) ∨
    ∃ ref, s.viewers[id]? = some ref ∧ (s.request q ()).1 = { s with viewers := s.viewers.erase id } ∧
      (Metering.taken ref).Stands (.removeViewer n id want) (next (s.request q ()).2) := by
  cases hprogram
  rcases s.request_takeViewer id want with htake | ⟨ref, hviewer, htake⟩
  · rw [htake]
    exact .inl ⟨rfl, Prog.Ends.ret rfl⟩
  · rw [htake]
    refine .inr ⟨ref, hviewer, rfl, .call trivial fun sub => ?_⟩
    have hread : ∀ p : Task Unit, p = .ret () → ((p.bind fun _ => foldEgress ref).bind fun _ => .ret .done).Leads SilentCall (AtRead ref) := by
      rintro p rfl
      exact .here ⟨_, rfl, fun r => ⟨_, rfl, Prog.Ends.ret rfl⟩⟩
    cases sub with
    | none => exact hread _ rfl
    | some sub => exact .call trivial fun _ => hread _ rfl

/-- The first request of a poll. -/
theorem handleEgress_first {n next} (hprogram : .call q next = (SwitchJob.handleEgress n).program) :
    (s.request q ()).1 = s ∧ (Metering.listed s.viewerRefs).Stands (.handleEgress n) (next (s.request q ()).2) := by
  cases hprogram
  exact ⟨rfl, _, rfl, fun _ => rfl⟩

/-! ## Polls while packets are written -/

structure PollInv (s : SwitchState) (returned : List (SwitchJob × SwitchOutcome)) (notes : Multiset (SwitchJob × Metering)) : Prop where
  distinct : (liveRefs s notes).Nodup
  bound : ∀ src ≠ "", account s notes src ≤ s.writtenFor src
  reported : ∀ r ∈ reports returned, ∀ src ≠ "", r.of src ≤ account s notes src
  increasing : (reports returned).Pairwise fun a b => ∀ src ≠ "", b.of src ≤ a.of src
  kinds : ∀ n ∈ notes, n.1.polls = true ∨ n.1.takes = true
  /-- A poll is in flight alone. -/
  alone : ∀ n ∈ notes, n.1.polls = true → notes.card = 1
  stages : ∀ n ∈ notes, n.2.Ok s (reports returned) n.1

section
variable {returned : List (SwitchJob × SwitchOutcome)}

section
variable (h : PollInv s returned ((k, t) ::ₘ notes))
include h

theorem PollInv.stage : t.Ok s (reports returned) k := h.stages _ (mem_cons_self _ _)

/-- One job acts: what it does is within the account. -/
theorem PollInv.restage (hviewers : liveRefs s' ((k, t') ::ₘ notes) ≤ liveRefs s ((k, t) ::ₘ notes))
    (hwritten : s'.written = s.written) (haccount : ∀ src ≠ "", account s' ((k, t') ::ₘ notes) src = account s ((k, t) ::ₘ notes) src)
    (hstage : t'.Ok s' (reports returned) k) : PollInv s' returned ((k, t') ::ₘ notes) := by
  obtain ⟨-, hstages⟩ := forall_mem_cons.mp h.stages
  obtain ⟨hkind, hkinds⟩ := forall_mem_cons.mp h.kinds
  have hwrittenFor : ∀ src, s'.writtenFor src = s.writtenFor src := by
    intro src
    unfold writtenFor
    rw [hwritten]
  refine ⟨nodup_of_le hviewers h.distinct, fun src hsrc => ?_, fun r hr src hsrc => ?_, h.increasing,
    forall_mem_cons.mpr ⟨hkind, hkinds⟩, ?_, forall_mem_cons.mpr ⟨hstage, fun n hn => ?_⟩⟩
  · rw [haccount src hsrc, hwrittenFor]
    exact h.bound src hsrc
  · rw [haccount src hsrc]
    exact h.reported r hr src hsrc
  · have halone := forall_mem_cons.mp h.alone
    rw [card_cons] at halone ⊢
    exact forall_mem_cons.mpr halone
  · cases hpolls : n.1.polls with
    | false => exact (hstages n hn).of_silent hpolls
    | true =>
      -- a poll beside this job
      obtain rfl := eq_zero_of_card_cons (h.alone n (mem_cons_of_mem hn) hpolls).le
      exact absurd hn (notMem_zero _)

/-- While a poll is in flight, everything is with the registered viewers and those that are gone. -/
theorem PollInv.account_poll (hk : k.polls = true) (ht : t.refs = 0 ∧ ∀ src, t.folded src = 0) (src : String) :
    account s ((k, t) ::ₘ notes) src = of s.closedEgress src + s.shares src s.viewerRefs := by
  obtain rfl := eq_zero_of_card_cons (h.alone _ (mem_cons_self _ _) hk).le
  rw [account_cons, ht.1, ht.2]
  unfold account liveRefs
  simp [shares]

/-- **One step of one job.** -/
theorem PollInv.request {q next}
    (hstands : t.Stands k (.call q next)) :
    ∃ t', t'.Stands k (next (s.request q ()).2) ∧ PollInv (s.request q ()).1 returned ((k, t') ::ₘ notes) := by
  by_cases hfresh : t = .fresh
  · subst hfresh
    have hsame : ∀ t', t'.refs = 0 → (∀ src, t'.folded src = 0) → t'.Ok s (reports returned) k → PollInv s returned ((k, t') ::ₘ notes) := by
      intro t' hrefs hfolded hstage
      refine h.restage ?_ rfl (fun src _ => ?_) hstage
      · unfold liveRefs
        simp only [map_cons, sum_cons, hrefs]
        exact le_refl _
      · rw [account_cons, account_cons, hrefs, hfolded]
        rfl
    rcases h.kinds _ (mem_cons_self _ _) with hpolls | htakes
    · cases k with
      | handleEgress n =>
        obtain ⟨hstate, hlisted⟩ := handleEgress_first (s := s) hstands
        refine ⟨_, hlisted, ?_⟩
        rw [hstate]
        exact hsame (.listed s.viewerRefs) rfl (fun _ => rfl) ⟨rfl, rfl⟩
      | _ => cases hpolls
    · cases k with
      | removeViewer n id want =>
        rcases removeViewer_first (s := s) hstands with ⟨hstate, hidle⟩ | ⟨ref, hviewer, hstate, htaken⟩
        · refine ⟨_, hidle, ?_⟩
          rw [hstate]
          exact hsame .idle rfl (fun _ => rfl) rfl
        · refine ⟨_, htaken, ?_⟩
          rw [hstate]
          refine h.restage ?_ rfl (fun src _ => account_take hviewer) rfl
          unfold liveRefs
          simp only [map_cons, sum_cons]
          rw [viewerRefs_take hviewer, cons_add, ← singleton_add ref]
          exact le_of_eq (by rw [show Metering.refs (.taken ref) = {ref} from rfl, show Metering.refs .fresh = 0 from rfl, zero_add]; exact add_left_comm _ _ _)
      | _ => cases htakes
  · obtain ⟨t', hstands', -, hrefs, hviewers, hwritten, haccount, hok⟩ := meter_request notes (reports returned) hstands hfresh
    refine ⟨t', hstands', h.restage ?_ hwritten haccount (hok (fun hpolls src hsrc r hr => ?_) h.stage)⟩
    · unfold liveRefs viewerRefs
      simp only [map_cons, sum_cons]
      rw [hviewers]
      exact add_le_add_right (add_le_add_left hrefs _) _
    · rw [← h.account_poll hpolls (h.stage.of_poll hpolls) src]
      exact h.reported r hr src hsrc

theorem PollInv.finish {a} (hstands : t.Stands k (.ret a)) :
    PollInv s ((k, a) :: returned) notes := by
  obtain ⟨hrefs, hfolded, hcase⟩ := hstands.returned
  have haccount : ∀ src, account s notes src = account s ((k, t) ::ₘ notes) src := by
    intro src
    rw [account_cons, hrefs, hfolded]
    rfl
  have hdistinct : (liveRefs s notes).Nodup := by
    have hdistinct := h.distinct
    unfold liveRefs at hdistinct ⊢
    simp only [map_cons, sum_cons, hrefs, zero_add] at hdistinct
    exact hdistinct
  have hkinds : ∀ n ∈ notes, n.1.polls = true ∨ n.1.takes = true := fun n hn => h.kinds n (mem_cons_of_mem hn)
  have hbound : ∀ src ≠ "", account s notes src ≤ s.writtenFor src := fun src hsrc => haccount src ▸ h.bound src hsrc
  have hreported : ∀ r ∈ reports returned, ∀ src ≠ "", r.of src ≤ account s notes src :=
    fun r hr src hsrc => haccount src ▸ h.reported r hr src hsrc
  rcases hcase with ⟨rfl, rfl⟩ | ⟨totals, rfl, rfl⟩
  · refine ⟨hdistinct, hbound, hreported, h.increasing, hkinds, fun n hn hpolls => ?_, fun n hn => h.stages n (mem_cons_of_mem hn)⟩
    obtain rfl := eq_zero_of_card_cons (h.alone n (mem_cons_of_mem hn) hpolls).le
    exact absurd hn (notMem_zero _)
  · obtain ⟨hpolls, before, hviewers, hbounds⟩ := h.stage
    obtain rfl := eq_zero_of_card_cons (h.alone _ (mem_cons_self _ _) hpolls).le
    rw [List.append_nil] at hviewers
    refine ⟨hdistinct, hbound, List.forall_mem_cons.mpr ⟨fun src hsrc => ?_, hreported⟩,
      List.pairwise_cons.mpr ⟨fun r hr src hsrc => (hbounds src hsrc).2 r hr, h.increasing⟩, hkinds,
      fun n hn => absurd hn (notMem_zero _), fun n hn => absurd hn (notMem_zero _)⟩
    rw [haccount, h.account_poll hpolls ⟨rfl, fun _ => rfl⟩, hviewers]
    exact (hbounds src hsrc).1

end

theorem partOf_writeTrack_le (src : String) (ref size x : Nat) : partOf src (s.reading x) ≤ partOf src ((s.writeTrack ref size).reading x) := by
  rw [reading_writeTrack]
  split
  · rename_i heq
    rw [heq, partOf_add]
    exact Nat.le_add_right _ _
  · exact Nat.le_refl _

theorem PollInv.packet (h : PollInv s returned notes) (ref size : Nat) : PollInv (s.writeTrack ref size) returned notes := by
  have hmore : ∀ src, account s notes src ≤ account (s.writeTrack ref size) notes src := by
    intro src
    have hshares : s.shares src (liveRefs s notes) ≤ (s.writeTrack ref size).shares src (liveRefs s notes) :=
      shares_mono (partOf_writeTrack_le src ref size)
    show of s.closedEgress src + _ + _ ≤ of s.closedEgress src + (s.writeTrack ref size).shares src (liveRefs s notes) + _
    omega
  refine ⟨h.distinct, fun src hsrc => ?_, fun r hr src hsrc => Nat.le_trans (h.reported r hr src hsrc) (hmore src), h.increasing, h.kinds, h.alone,
    fun n hn => ?_⟩
  · have hbound := h.bound src hsrc
    have hshares : (s.writeTrack ref size).shares src (liveRefs s notes) ≤ _ := shares_writeTrack_le ref size h.distinct
    rw [writtenFor_writeTrack]
    show of s.closedEgress src + (s.writeTrack ref size).shares src (liveRefs s notes) + _ ≤ _
    unfold account at hbound
    omega
  · have hok := h.stages n hn
    cases hcase : n.2 with
    | fresh => trivial
    | idle | taken | folding | listed =>
      rw [hcase] at hok
      exact hok
    | reading refs totals =>
      rw [hcase] at hok
      obtain ⟨hpolls, before, hviewers, hbounds⟩ := hok
      refine ⟨hpolls, before, hviewers, fun src hsrc => ?_⟩
      obtain ⟨hupper, hlower⟩ := hbounds src hsrc
      have hbefore : s.shares src before ≤ (s.writeTrack ref size).shares src before := shares_mono (partOf_writeTrack_le src ref size)
      have hrefs : s.shares src refs ≤ (s.writeTrack ref size).shares src refs := shares_mono (partOf_writeTrack_le src ref size)
      refine ⟨Nat.le_trans hupper (Nat.add_le_add_left hbefore _), fun r hr => Nat.le_trans (hlower r hr) (Nat.add_le_add_left hrefs _)⟩

end

end

/-- Polls one after the other, and removals. -/
def PollRuns (pool : SwitchPool) : SwitchEvent → Prop
  | .start k => k.takes = true ∨ (k.polls = true ∧ ∀ x ∈ pool.running, x.1.polls = false)
  | .request _ _ | .move _ => True
  | .die => False

/-- No removal overlaps a poll. -/
def RemovalsApart (pool : SwitchPool) : SwitchEvent → Prop :=
  Event.Starts fun k => (k.polls = true → ∀ x ∈ pool.running, x.1.takes = false) ∧ (k.takes = true → ∀ x ∈ pool.running, x.1.polls = false)

instance decidablePollRuns (pool : SwitchPool) : (e : SwitchEvent) → Decidable (PollRuns pool e)
  | .start _ => instDecidableOr
  | .request _ _ | .move _ => isTrue trivial
  | .die => isFalse not_false

instance decidableRemovalsApart (pool : SwitchPool) (e : SwitchEvent) : Decidable (RemovalsApart pool e) :=
  inferInstanceAs (Decidable (Event.Starts _ e))

/-- The stages of the polls and removals in flight. -/
def pollOutline : Outline switchService SwitchJob.program (fun pool e => PollRuns pool e ∧ RemovalsApart pool e) Metering where
  stands := fun k p t => t.Stands k p
  inv := fun s returned notes => PollInv s returned notes
  start := by
    intro pool k notes hinv hjobs hok
    obtain ⟨hkind, hpolls, htakes⟩ := hok
    have hzero : k.polls = true → notes = 0 := by
      intro hk
      refine eq_zero_of_forall_notMem fun n hn => ?_
      obtain ⟨x, hx, heq⟩ := Outline.mem_running hjobs hn
      rcases hkind with hkind | ⟨-, hkind⟩
      · cases k with
        | handleEgress n => cases hkind
        | _ => cases hk
      · rcases hinv.kinds n hn with hn | hn
        · rw [← heq, hkind x hx] at hn
          cases hn
        · rw [← heq, hpolls hk x hx] at hn
          cases hn
    refine ⟨.fresh, rfl, ?_, fun src hsrc => ?_, fun r hr src hsrc => ?_, hinv.increasing,
      forall_mem_cons.mpr ⟨hkind.symm.imp_left And.left, hinv.kinds⟩, forall_mem_cons.mpr ⟨fun hk => ?_, fun n hn hk => ?_⟩,
      forall_mem_cons.mpr ⟨trivial, hinv.stages⟩⟩
    · have hdistinct := hinv.distinct
      unfold liveRefs at hdistinct ⊢
      simp only [map_cons, sum_cons]
      rwa [show Metering.refs .fresh = 0 from rfl, zero_add]
    · rw [account_cons]
      exact hinv.bound src hsrc
    · rw [account_cons]
      exact hinv.reported r hr src hsrc
    · rw [hzero hk]
      rfl
    · obtain ⟨x, hx, heq⟩ := Outline.mem_running hjobs hn
      rcases hkind with hkind | ⟨-, hkind⟩
      · rw [← heq, htakes hkind x hx] at hk
        cases hk
      · rw [← heq, hkind x hx] at hk
        cases hk
  request := by
    intro pool place k q next fate t notes hstands hinv hjobs hplace hok
    exact hinv.request hstands
  finish := by
    intro s returned k a t notes hstands hinv
    exact hinv.finish hstands
  move := by
    intro pool m notes hinv hok
    cases m with
    | packet src ref size => exact hinv.packet ref size
  die := by
    intro pool notes hinv hok
    exact hok.1.elim

/-- **The meter never runs backwards**: of two polls that have returned the later one reports at
least as much for every source, and none reports more than was written. No removal overlaps a poll, and
what was written fits an `int64`. -/
theorem meter_runs_forward (s₀ : SwitchState) (hdistinct : s₀.viewerRefs.Nodup)
    (hstart : ∀ src ≠ "", s₀.billed src = s₀.writtenFor src) (h : List SwitchEvent) (pool : SwitchPool)
    (run : Run switchStep (fun _ pool e => PollRuns pool e ∧ RemovalsApart pool e) ⟨s₀, [], []⟩ h pool)
    (small : pool.state.writtenInAll < 2 ^ 63) :
    ((reports pool.returned).Pairwise fun later earlier => ∀ src ≠ "", int64 (earlier.of src) ≤ int64 (later.of src)) ∧
    ∀ r ∈ reports pool.returned, ∀ src ≠ "", int64 (r.of src) ≤ pool.state.writtenFor src := by
  have hinit : PollInv s₀ [] 0 := by
    refine ⟨?_, fun src hsrc => ?_, nofun, .nil, fun _ hn => absurd hn (notMem_zero _),
      fun _ hn => absurd hn (notMem_zero _), fun _ hn => absurd hn (notMem_zero _)⟩
    · unfold liveRefs
      rw [map_zero, sum_zero, add_zero]
      exact hdistinct
    · rw [← hstart src hsrc, billed_eq hsrc]
  obtain ⟨notes, -, -, hinv⟩ := (Outline.sound_start (O := pollOutline) hinit).run run
  have hbound : ∀ r ∈ reports pool.returned, ∀ src ≠ "", r.of src ≤ pool.state.writtenFor src := fun r hr src hsrc =>
    Nat.le_trans (hinv.reported r hr src hsrc) (hinv.bound src hsrc)
  have hexact {r} (hr : r ∈ reports pool.returned) {src} (hsrc : src ≠ "") : int64 (r.of src) = r.of src :=
    int64_of_lt (Nat.lt_of_le_of_lt (Nat.le_trans (hbound r hr src hsrc) writtenFor_le) small)
  refine ⟨hinv.increasing.imp_of_mem fun {later earlier} hlater hearlier hle src hsrc => ?_, fun r hr src hsrc => ?_⟩
  · rw [hexact hearlier hsrc, hexact hlater hsrc]
    exact Int.ofNat_le.mpr (hle src hsrc)
  · rw [hexact hr hsrc]
    exact Int.ofNat_le.mpr (hbound r hr src hsrc)

/-- `bob` is switched to the programme. -/
def SwitchState.watching : SwitchState := (((empty.addSource "stream-a").addViewer "bob").1.switchViewer "bob" "stream-a").1

/-- A poll, the removal of the viewer, and a poll. -/
def pollsAroundRemoval : List SwitchEvent :=
  ([.move (.packet 0 0 100), .start (.handleEgress 1), .request 0 (), .request 0 (), .request 0 ()] : List SwitchEvent) ++
  ([.start (.removeViewer 2 "bob" none), .request 0 (), .request 0 (), .request 0 (), .request 0 ()] : List SwitchEvent) ++
  ([.start (.handleEgress 3), .request 0 (), .request 0 ()] : List SwitchEvent)

theorem watching_balanced : watching.viewerRefs = [0] ∧ watching.written = [] ∧
    watching.reading 0 = ("stream-a", 0) ∧ watching.closedEgress.toList = [] := by
  decide +kernel

theorem watching_start {src} (hsrc : src ≠ "") :
    watching.billed src = watching.writtenFor src := by
  obtain ⟨hrefs, hwritten, hreading, hclosed⟩ := watching_balanced
  have hnone : of watching.closedEgress src = 0 := by
    unfold of
    cases hentry : watching.closedEgress[src]? with
    | none => rfl
    | some n =>
      have hmem := mem_toList.mpr hentry
      rw [hclosed] at hmem
      cases hmem
  rw [billed, egressSnapshot, of_readings hsrc, hnone, hrefs]
  unfold writtenFor shares
  rw [hwritten, map_coe, sum_coe, List.map_cons, hreading]
  unfold partOf
  simp

theorem meter_runs_forward_bob : ∃ h pool, Run switchStep (fun _ pool e => PollRuns pool e ∧ RemovalsApart pool e) ⟨.watching, [], []⟩ h pool ∧
    (reports pool.returned).map (·.of "stream-a") = [138, 138] ∧ 138 ≤ (pool.state.writtenFor "stream-a" : Int) := by
  apply Run.exists_and_of_follows (P := fun pool => (reports pool.returned).map (·.of "stream-a") = [138, 138] ∧
    pool.state.writtenInAll < 2 ^ 63) pollsAroundRemoval (by decide +kernel)
  rintro h pool run ⟨hreports, small⟩
  obtain ⟨-, hbound⟩ := meter_runs_forward .watching (by rw [watching_balanced.1]; decide) (fun src hsrc => watching_start hsrc) _ _ run small
  refine ⟨hreports, ?_⟩
  have hmem : 138 ∈ (reports pool.returned).map (·.of "stream-a") := by rw [hreports]; decide
  obtain ⟨r, hr, heq⟩ := List.mem_map.mp hmem
  have hle := hbound r hr "stream-a" (by decide)
  rwa [heq] at hle

/-- A poll between the deletion of a viewer and the fold of its counter. -/
def polledBeforeFold : List SwitchEvent :=
  ([.move (.packet 0 0 100), .start (.handleEgress 1), .request 0 (), .request 0 (), .request 0 ()] : List SwitchEvent) ++
  ([.start (.removeViewer 2 "bob" none), .request 0 (), .start (.handleEgress 3), .request 0 (), .request 0 ()] : List SwitchEvent)

/-- A removal between the list of the viewers and the bytes of those that are gone. -/
def removedInPoll : List SwitchEvent :=
  ([.move (.packet 0 0 100), .start (.handleEgress 1), .request 0 (), .start (.removeViewer 2 "bob" none)] : List SwitchEvent) ++
  List.replicate 6 (.request 0 ())

/-- One poll reports less than the one before it, and in another run one reports more than was written. -/
theorem meter_runs_backwards : ∃ s₀ : SwitchState, s₀.viewerRefs.Nodup ∧
    (∀ src ≠ "", s₀.billed src = s₀.writtenFor src) ∧
    (∃ h pool, Run switchStep (fun _ pool e => PollRuns pool e) ⟨s₀, [], []⟩ h pool ∧
      (reports pool.returned).map (·.of "stream-a") = [0, 138]) ∧
    (∃ h pool, Run switchStep (fun _ pool e => PollRuns pool e) ⟨s₀, [], []⟩ h pool ∧
      (reports pool.returned).map (·.of "stream-a") = [276] ∧ pool.state.writtenFor "stream-a" = 138) := by
  exact ⟨.watching, by rw [watching_balanced.1]; decide, fun src hsrc => watching_start hsrc,
    Run.exists_of_follows polledBeforeFold (by decide +kernel), Run.exists_of_follows removedInPoll (by decide +kernel)⟩

/-! ## Steps that do not overlap -/

/-- Jobs and packets one after the other; a packet goes to a viewer that is subscribed. -/
def InTurn (pool : SwitchPool) : SwitchEvent → Prop
  | .start _ => pool.running.isEmpty = true
  | .request _ _ => True
  | .move (.packet src ref _) => pool.running.isEmpty = true ∧ pool.state.Receives src ref
  | .die => False

/-- The bytes of a viewer stay with whom they were written for: one that is displaced has none to
bill, and one that is switched to a programme has none or is billed to that programme already. -/
def KeepsBytes (s : SwitchState) : SwitchJob → Prop
  | .addViewer _ id => ∀ ref ∈ s.viewers[id]?, (s.reading ref).1 = "" ∨ (s.reading ref).2 = 0
  | .switchViewer _ viewerId sourceId => isProgrammeSourceID sourceId = true → ∀ ref ∈ s.viewers[viewerId]?,
      (s.reading ref).1 = sourceId ∨ (s.reading ref).2 = 0
  | _ => True

instance decidableInTurn (pool : SwitchPool) : (e : SwitchEvent) → Decidable (InTurn pool e)
  | .start _ => instDecidableEqBool _ _
  | .request _ _ => isTrue trivial
  | .move (.packet ..) => instDecidableAnd
  | .die => isFalse not_false

instance decidableKeepsBytes (s : SwitchState) : (k : SwitchJob) → Decidable (KeepsBytes s k)
  | .addViewer _ id => inferInstanceAs (Decidable (∀ ref ∈ s.viewers[id]?, _))
  | .switchViewer .. => inferInstanceAs (Decidable (_ → _))
  | .addSource _ _ | .removeSource .. | .removeViewer .. | .handleEgress _ => isTrue trivial

section
variable {s s' : SwitchState} {notes : Multiset (SwitchJob × Metering)} {k : SwitchJob} {t t' : Metering} {src : String} {ref : Nat}

theorem partOf_zero (billing : String) : partOf src (billing, 0) = 0 := by
  unfold partOf
  split <;> rfl

theorem viewerRefs_nodup (h : TablesOk s) : s.viewerRefs.Nodup := by
  refine List.Nodup.map_on (fun x hx y hy heq => ?_) (nodup_toList s.viewers)
  obtain ⟨id, ref⟩ := x
  obtain ⟨id', ref'⟩ := y
  cases heq
  have hid := (h.viewers id ref (mem_toList.mp hx)).2
  have hid' := (h.viewers id' ref (mem_toList.mp hy)).2
  rw [← hid, ← hid']

theorem mem_viewerRefs {id : String} (h : s.viewers[id]? = some ref) : ref ∈ s.viewerRefs := List.mem_map.mpr ⟨_, mem_toList.mpr h, rfl⟩

theorem lt_of_mem_viewerRefs (h : TablesOk s) (href : ref ∈ s.viewerRefs) : ref < s.nextViewer := by
  obtain ⟨⟨id, ref'⟩, hx, rfl⟩ := List.mem_map.mp href
  exact (h.viewers id ref' (mem_toList.mp hx)).1

/-- A new viewer has no bytes, and no other object changes. -/
theorem reading_addViewer (id : String) (x : Nat) : (s.addViewer id).1.reading x = if x = s.nextViewer then ("", 0) else s.reading x := by
  unfold SwitchState.reading SwitchState.addViewer
  by_cases hx : x = s.nextViewer
  · simp [hx, Viewer.new]
  · simp [hx]

/-- A registration leaves what the registered viewers have. -/
theorem shares_addViewer (hsrc : src ≠ "") (htables : TablesOk s) {n id} (hkeeps : KeepsBytes s (.addViewer n id)) :
    (s.addViewer id).1.shares src (s.addViewer id).1.viewerRefs = s.shares src s.viewerRefs := by
  have hsame : ∀ refs, (∀ ref ∈ refs, ref ∈ s.viewerRefs) → (s.addViewer id).1.shares src (s.nextViewer ::ₘ refs) = s.shares src refs := by
    intro refs hrefs
    rw [shares_cons, reading_addViewer, if_pos rfl, partOf_zero, Nat.zero_add]
    refine shares_congr fun ref href => ?_
    rw [reading_addViewer, if_neg (Nat.ne_of_lt (lt_of_mem_viewerRefs htables (hrefs ref href)))]
  cases hviewer : s.viewers[id]? with
  | none =>
    have hrefs : ((s.addViewer id).1.viewerRefs : Multiset Nat) = s.nextViewer ::ₘ (s.viewerRefs : Multiset Nat) := by
      rw [cons_coe, coe_eq_coe]
      exact (toList_insert_perm s.nextViewer hviewer).map Prod.snd
    rw [hrefs]
    exact hsame _ fun ref href => href
  | some old =>
    have hrefs : ((s.addViewer id).1.viewerRefs : Multiset Nat) =
        s.nextViewer ::ₘ (({ s with viewers := s.viewers.erase id } : SwitchState).viewerRefs : Multiset Nat) := by
      rw [cons_coe, coe_eq_coe]
      exact (toList_insert_perm_erase s.viewers id s.nextViewer).map Prod.snd
    have hold : partOf src (s.reading old) = 0 := by
      unfold partOf
      rcases hkeeps old hviewer with hnone | hzero
      · rw [if_neg (by rw [hnone]; exact hsrc.symm)]
      · rw [hzero, ite_self]
    rw [hrefs, hsame, viewerRefs_take hviewer, shares_cons, hold, Nat.zero_add]
    intro ref href
    rw [← mem_coe, viewerRefs_take hviewer]
    exact mem_cons_of_mem href

theorem sameMeter_switchTo {sourceId} (obj : Nat)
    (hkeeps : isProgrammeSourceID sourceId = true → (s.reading ref).1 = sourceId ∨ (s.reading ref).2 = 0) :
    SameMeter s (s.switchTo ref sourceId obj).1 := by
  unfold switchTo
  split
  · exact .refl s
  · refine (sameMeter_release s ref).trans ⟨rfl, rfl, rfl, fun src x => ?_⟩
    have hreading := (sameMeter_release s ref).parts src x
    by_cases hx : x = ref
    · subst hx
      unfold reading setViewer
      simp only [Function.update_self, viewerObjects_release_self]
      split
      · rename_i hprogramme
        rcases hkeeps hprogramme with hsame | hzero
        · rw [show (s.viewerObjects x).billingSource = sourceId from hsame]
        · rw [show (s.viewerObjects x).egressBytes = 0 from hzero, partOf_zero, partOf_zero]
      · rfl
    · unfold reading setViewer
      simp only [Function.update_of_ne hx]

theorem sameMeter_switchViewer {n viewerId sourceId} (hkeeps : KeepsBytes s (.switchViewer n viewerId sourceId)) :
    SameMeter s (s.switchViewer viewerId sourceId).1 := by
  rcases s.switchViewer_cases viewerId sourceId with ⟨e, hswitch⟩ | ⟨ref, obj, hviewer, -, hswitch⟩
  · rw [hswitch]
    exact .refl s
  · rw [hswitch]
    exact sameMeter_switchTo obj fun hprogramme => hkeeps hprogramme ref hviewer

/-- Every byte is in the account of the source that it was written for. -/
structure BillInv (s : SwitchState) (notes : Multiset (SwitchJob × Metering)) : Prop where
  alone : notes.card ≤ 1
  balance : ∀ src ≠ "", account s notes src = s.writtenFor src
  keeps : ∀ n ∈ notes, n.2 = .fresh → KeepsBytes s n.1

theorem BillInv.restage (h : BillInv s ((k, t) ::ₘ notes)) (hwritten : s'.written = s.written) (hfresh : t' ≠ .fresh)
    (haccount : ∀ src ≠ "", account s' ((k, t') ::ₘ notes) src = account s ((k, t) ::ₘ notes) src) : BillInv s' ((k, t') ::ₘ notes) := by
  obtain rfl := eq_zero_of_card_cons h.alone
  refine ⟨h.alone, fun src hsrc => ?_, fun n hn ht => ?_⟩
  · rw [haccount src hsrc, h.balance src hsrc]
    unfold writtenFor
    rw [hwritten]
  · rcases mem_cons.mp hn with rfl | hn
    · exact absurd ht hfresh
    · exact absurd hn (notMem_zero _)

theorem BillInv.same (h : BillInv s ((k, .fresh) ::ₘ notes)) (hs : SameMeter s s') {t'} (hfresh : t' ≠ .fresh)
    (ht : t'.refs = 0 ∧ ∀ src, t'.folded src = 0) : BillInv s' ((k, t') ::ₘ notes) := by
  refine h.restage hs.written hfresh fun src _ => ?_
  rw [account_cons, account_cons, hs.account, ht.1, ht.2]
  rfl

theorem close_ends (ref : Nat) : (close ref).Ends SilentCall fun _ => True := by
  refine .call trivial fun sub => ?_
  cases sub with
  | none => exact Prog.Ends.ret trivial
  | some sub => exact .call trivial fun _ => Prog.Ends.ret trivial

theorem activateSource_ends (ref obj : Nat) : (activateSource ref obj).Ends SilentCall fun _ => True := by
  refine .call trivial fun pending => ?_
  cases pending with
  | false => exact Prog.Ends.ret trivial
  | true => exact .call trivial fun _ => .call trivial fun _ => Prog.Ends.ret trivial

/-- The first request of a job. -/
theorem BillInv.first (h : BillInv s ((k, .fresh) ::ₘ notes)) (htables : TablesOk s) {q next}
    (hprogram : .call q next = k.program) :
    ∃ t', t'.Stands k (next (s.request q ()).2) ∧ BillInv (s.request q ()).1 ((k, t') ::ₘ notes) := by
  have hkeeps := h.keeps _ (mem_cons_self _ _) rfl
  have hidle : Metering.idle.refs = 0 ∧ ∀ src, Metering.idle.folded src = 0 := ⟨rfl, fun _ => rfl⟩
  cases k with
  | addSource n id =>
    cases hprogram
    have hs : SameMeter s (s.addSource id) := ⟨rfl, rfl, rfl, fun _ _ => rfl⟩
    exact ⟨.idle, Prog.Ends.ret rfl, h.same hs Metering.noConfusion hidle⟩
  | removeSource n id want =>
    cases hprogram
    exact ⟨.idle, Prog.Ends.ret rfl, h.same (sameMeter_removeSource s id want) Metering.noConfusion hidle⟩
  | addViewer n id =>
    cases hprogram
    refine ⟨.idle, ?_, h.restage rfl Metering.noConfusion fun src hsrc => ?_⟩
    · show Ending (Prog.bind _ _)
      cases (s.request (.addViewer id) ()).2 with
      | none => exact Prog.Ends.ret rfl
      | some old => exact (close_ends old).bind fun _ _ => Prog.Ends.ret rfl
    · obtain rfl := eq_zero_of_card_cons h.alone
      have hshares := shares_addViewer hsrc htables hkeeps
      rw [account_cons, account_cons, ← billed_eq hsrc, ← billed_eq hsrc]
      unfold billed egressSnapshot
      rw [of_readings hsrc, of_readings hsrc]
      exact congrArg (of s.closedEgress src + · + 0) hshares
  | removeViewer n id want =>
    rcases removeViewer_first (s := s) hprogram with ⟨hstate, hidle'⟩ | ⟨ref, hviewer, hstate, htaken⟩
    · refine ⟨_, hidle', ?_⟩
      rw [hstate]
      exact h.same (.refl s) Metering.noConfusion hidle
    · refine ⟨_, htaken, ?_⟩
      rw [hstate]
      exact h.restage rfl Metering.noConfusion fun src _ => account_take hviewer
  | switchViewer n viewerId sourceId =>
    cases hprogram
    refine ⟨.idle, ?_, h.same (sameMeter_switchViewer hkeeps) Metering.noConfusion hidle⟩
    show Ending (Prog.bind _ _)
    rcases (s.request (.switchViewer viewerId sourceId) ()).2 with e | _ | ⟨ref, obj⟩
    · exact Prog.Ends.ret rfl
    · exact Prog.Ends.ret rfl
    · exact (activateSource_ends ref obj).bind fun _ _ => Prog.Ends.ret rfl
  | handleEgress n =>
    obtain ⟨hstate, hlisted⟩ := handleEgress_first (s := s) hprogram
    refine ⟨_, hlisted, ?_⟩
    rw [hstate]
    exact h.same (.refl s) Metering.noConfusion ⟨rfl, fun _ => rfl⟩

/-- **One step of the job in flight.** -/
theorem BillInv.request (h : BillInv s ((k, t) ::ₘ notes)) (htables : TablesOk s) {q next}
    (hstands : t.Stands k (.call q next)) :
    ∃ t', t'.Stands k (next (s.request q ()).2) ∧ BillInv (s.request q ()).1 ((k, t') ::ₘ notes) := by
  by_cases hfresh : t = .fresh
  · subst hfresh
    exact h.first htables hstands
  · obtain ⟨t', hstands', hfresh', -, -, hwritten, haccount, -⟩ := meter_request notes [] hstands hfresh
    exact ⟨t', hstands', h.restage hwritten hfresh' haccount⟩

theorem BillInv.finish {a} (h : BillInv s ((k, t) ::ₘ notes)) (hstands : t.Stands k (.ret a)) : BillInv s notes := by
  obtain ⟨hrefs, hfolded, -⟩ := hstands.returned
  obtain rfl := eq_zero_of_card_cons h.alone
  refine ⟨Nat.zero_le 1, fun src hsrc => ?_, fun n hn => h.keeps n (mem_cons_of_mem hn)⟩
  rw [← h.balance src hsrc, account_cons, hrefs, hfolded]
  rfl

/-- A packet to a registered viewer. -/
theorem BillInv.packet (h : BillInv s 0) (htables : TablesOk s) (href : s.Registered ref) (size : Nat) : BillInv (s.writeTrack ref size) 0 := by
  refine ⟨h.alone, fun src hsrc => ?_, fun _ hn => absurd hn (notMem_zero _)⟩
  rw [writtenFor_writeTrack, ← h.balance src hsrc, ← billed_eq hsrc, ← billed_eq hsrc]
  unfold billed egressSnapshot
  rw [of_readings hsrc, of_readings hsrc, Nat.add_assoc]
  have hnodup : ((s.viewerRefs : Multiset Nat)).Nodup := viewerRefs_nodup htables
  exact congrArg (of s.closedEgress src + ·) (shares_writeTrack_of_mem size hnodup (mem_viewerRefs href))

end

/-- Events of a job that is in flight alone; packets come between jobs. -/
def Billed (pool : SwitchPool) : SwitchEvent → Prop
  | .start k => pool.running.isEmpty = true ∧ KeepsBytes pool.state k
  | .request _ _ => TablesOk pool.state
  | .move _ | .die => False

/-- The stage of the job in flight. -/
def billOutline : Outline switchService SwitchJob.program Billed Metering where
  stands := fun k p t => t.Stands k p
  inv := fun s _ notes => BillInv s notes
  start := by
    intro pool k notes hinv hjobs hok
    obtain ⟨hturn, hkeeps⟩ := hok
    have hzero : notes = 0 := by
      rw [List.isEmpty_iff.mp hturn] at hjobs
      exact map_eq_zero.mp hjobs
    subst hzero
    refine ⟨.fresh, rfl, by simp, fun src hsrc => ?_, forall_mem_cons.mpr ⟨fun _ => hkeeps, hinv.keeps⟩⟩
    rw [account_cons]
    exact hinv.balance src hsrc
  request := by
    intro pool place k q next fate t notes hstands hinv hjobs hplace hok
    exact hinv.request hok hstands
  finish := by
    intro s returned k a t notes hstands hinv
    exact hinv.finish hstands
  move := by
    intro pool m notes hinv hok
    exact hok.elim
  die := by
    intro pool notes hinv hok
    exact hok.elim

/-- Jobs one after the other, none of which moves bytes. -/
def BilledInTurn (pool : SwitchPool) (e : SwitchEvent) : Prop := InTurn pool e ∧ e.Starts (KeepsBytes pool.state)

instance decidableBilledInTurn (pool : SwitchPool) (e : SwitchEvent) : Decidable (BilledInTurn pool e) := instDecidableAnd

section
variable {pool₀ pool : SwitchPool} {h : List SwitchEvent}

theorem InTurn.apart {e} (hturn : InTurn pool e) : JobsApart pool e := by
  cases e with
  | start k =>
    intro x hx
    rw [List.isEmpty_iff.mp hturn] at hx
    cases hx
  | request | move => trivial
  | die => exact hturn.elim

/-- The wiring and the bills go together. -/
theorem billed_step {e} (hwires : wiringOutline.Sound pool) (hbills : billOutline.Sound pool) (hok : BilledInTurn pool e) :
    billOutline.Sound (switchStep pool e) := by
  obtain ⟨hturn, hkeeps⟩ := hok
  cases e with
  | start k => exact hbills.step ⟨hturn, hkeeps⟩
  | request place fate =>
    obtain ⟨notes, -, -, hwired⟩ := hwires
    exact hbills.step hwired.tables
  | die => exact hturn.elim
  | move m =>
    obtain ⟨src, ref, size⟩ := m
    obtain ⟨hquiet, hreceives⟩ := hturn
    have hquiet := List.isEmpty_iff.mp hquiet
    have hwired : WireInv pool.state 0 := hwires.quiet hquiet
    have hregistered : pool.state.Registered ref := by
      obtain ⟨href, -⟩ := hwired.tables.keys src _ ref hreceives
      rcases hwired.settled ref href with ⟨n, hn, -⟩ | ⟨-, -, hnone⟩ | ⟨-, hregistered, -⟩
      · exact absurd hn (notMem_zero _)
      · exact ((hnone src).mp hreceives).elim
      · exact hregistered
    have hinv : BillInv (pool.state.writeTrack ref size) 0 := BillInv.packet (hbills.quiet hquiet) hwired.tables hregistered size
    exact ⟨[], hquiet.symm, nofun, hinv⟩

/-- Only packets are written. -/
theorem written_request (s : SwitchState) (q : SwitchRequest) : (s.request q ()).1.written = s.written := by
  have hsilent : ∀ q, SilentCall q → (s.request q ()).1.written = s.written := fun _ hq => (sameMeter_silent hq).written
  cases q with
  | closeViewer | unsubscribe | activate | subscribe | keepSubscription => exact hsilent _ trivial
  | addSource | addViewer | viewerRefs | closedEgress | reading | recordClosed => rfl
  | removeSource id want => exact (sameMeter_removeSource s id want).written
  | takeViewer id want =>
    simp only [SwitchState.request, SwitchState.takeViewer]
    split
    · rfl
    · split <;> rfl
  | switchViewer viewerId sourceId =>
    show (s.switchViewer viewerId sourceId).1.written = s.written
    rcases s.switchViewer_cases viewerId sourceId with ⟨e, hswitch⟩ | ⟨ref, obj, -, -, hswitch⟩
    · rw [hswitch]
    · rw [hswitch, switchTo]
      split
      · rfl
      · exact (sameMeter_release s ref).written

theorem writtenFor_step (pool : SwitchPool) (e : SwitchEvent) (src : String) : pool.state.writtenFor src ≤ (switchStep pool e).state.writtenFor src := by
  rcases poolStep_state switchService SwitchJob.program pool e with hstate | ⟨q, fate, hstate⟩ | ⟨⟨obj, ref, size⟩, hstate⟩
  · exact Nat.le_of_eq (congrArg (writtenFor · src) hstate).symm
  · refine Nat.le_of_eq ?_
    unfold writtenFor switchStep
    rw [hstate]
    exact congrArg (fun written => (List.map (partOf src) written).sum) (written_request pool.state q).symm
  · unfold switchStep
    rw [hstate]
    exact Nat.le.intro (writtenFor_writeTrack ref size).symm

theorem isProgramme_ne {src} (h : isProgrammeSourceID src = true) : src ≠ "" := by
  rintro rfl
  exact absurd h (by decide)

/-- The invariants hold along a run of jobs in turn. -/
theorem billed_run (hwires : wiringOutline.Sound pool₀) (hbills : billOutline.Sound pool₀)
    (run : Run switchStep (fun _ pool e => BilledInTurn pool e) pool₀ h pool) : wiringOutline.Sound pool ∧ billOutline.Sound pool :=
  run.invariant (I := fun _ pool => wiringOutline.Sound pool ∧ billOutline.Sound pool) ⟨hwires, hbills⟩
    fun _ _ _ _ hok hsound => ⟨hsound.1.step hok.1.apart, billed_step hsound.1 hsound.2 hok⟩

end

/-- **The meter conserves bytes**: with nothing in flight a report has for each programme exactly what
was written while it was billed, and a later report has no less. The jobs are those of `KeepsBytes`, and
what was written fits an `int64`. -/
theorem egress_conserved (s₀ : SwitchState) (hwired : WireInv s₀ 0)
    (hstart : ∀ src ≠ "", s₀.billed src = s₀.writtenFor src) (h h' : List SwitchEvent) (pool pool' : SwitchPool)
    (run : Run switchStep (fun _ pool e => BilledInTurn pool e) ⟨s₀, [], []⟩ h pool) (hquiet : pool.running = [])
    (run' : Run switchStep (fun _ pool e => BilledInTurn pool e) pool h' pool') (hquiet' : pool'.running = [])
    (small : pool'.state.writtenInAll < 2 ^ 63) :
    ∀ src, isProgrammeSourceID src = true →
      int64 (pool.state.billed src) = pool.state.writtenFor src ∧
      int64 (pool.state.billed src) ≤ int64 (pool'.state.billed src) := by
  have hinit : BillInv s₀ 0 :=
    ⟨Nat.zero_le _, fun src hsrc => (billed_eq hsrc).symm.trans (hstart src hsrc), fun _ hn => absurd hn (notMem_zero _)⟩
  obtain ⟨hwires, hbills⟩ := billed_run (Outline.sound_start (O := wiringOutline) hwired) (Outline.sound_start (O := billOutline) hinit) run
  obtain ⟨-, hbills'⟩ := billed_run hwires hbills run'
  have hbalance : ∀ {pool : SwitchPool}, billOutline.Sound pool → pool.running = [] → ∀ src ≠ "",
      pool.state.billed src = pool.state.writtenFor src :=
    fun hsound hquiet src hsrc => (billed_eq hsrc).trans (BillInv.balance (hsound.quiet hquiet) src hsrc)
  have hmore : ∀ src, pool.state.writtenFor src ≤ pool'.state.writtenFor src := fun src =>
    run'.invariant (I := fun _ pool' => pool.state.writtenFor src ≤ pool'.state.writtenFor src) (Nat.le_refl _)
      fun _ pool' e _ _ hle => Nat.le_trans hle (writtenFor_step pool' e src)
  intro src hprogramme
  have hsrc := isProgramme_ne hprogramme
  have hlater : pool'.state.writtenFor src < 2 ^ 63 := Nat.lt_of_le_of_lt writtenFor_le small
  rw [hbalance hbills hquiet src hsrc, hbalance hbills' hquiet' src hsrc, int64_of_lt hlater, int64_of_lt (Nat.lt_of_le_of_lt (hmore src) hlater)]
  exact ⟨rfl, Int.ofNat_le.mpr (hmore src)⟩

/-- `bob` watches the programme, then an advertisement, and leaves. -/
def watchAndLeave : List SwitchEvent :=
  watchProgramme ++ ([.move (.packet 0 0 100), .start (.addSource 4 "ad-1"), .request 0 (), .start (.switchViewer 5 "bob" "ad-1")] : List SwitchEvent) ++
  (List.replicate 4 (.request 0 ()) : List SwitchEvent) ++ ([.move (.packet 1 0 50)] : List SwitchEvent)

def leave : List SwitchEvent := .start (.removeViewer 6 "bob" none) :: List.replicate 5 (.request 0 ())

theorem egress_conserved_bob : ∃ h h' pool pool', Run switchStep (fun _ pool e => BilledInTurn pool e) ⟨.empty, [], []⟩ h pool ∧
    Run switchStep (fun _ pool e => BilledInTurn pool e) pool h' pool' ∧ int64 (pool.state.billed "stream-a") = 226 ∧
    226 ≤ int64 (pool'.state.billed "stream-a") := by
  obtain ⟨h, pool, run, hquiet, hwritten, h', pool', run', hquiet', small⟩ : ∃ h pool,
      Run switchStep (fun _ pool e => BilledInTurn pool e) ⟨.empty, [], []⟩ h pool ∧ pool.running = [] ∧
      pool.state.writtenFor "stream-a" = 226 ∧ ∃ h' pool', Run switchStep (fun _ pool e => BilledInTurn pool e) pool h' pool' ∧
        pool'.running = [] ∧ pool'.state.writtenInAll < 2 ^ 63 :=
    Run.exists_of_follows watchAndLeave ⟨by decide +kernel, by decide +kernel, by decide +kernel, Run.exists_of_follows leave (by decide +kernel)⟩
  obtain ⟨hexact, hmore⟩ := egress_conserved .empty wired_empty (fun _ _ => rfl) _ _ _ _ run hquiet run' hquiet' small "stream-a" (by decide)
  have hexact : int64 (pool.state.billed "stream-a") = 226 := by rw [hexact, hwritten]; rfl
  exact ⟨h, h', pool, pool', run, run', hexact, hexact ▸ hmore⟩

def watchPacket : List SwitchEvent := watchProgramme ++ ([.move (.packet 0 0 100)] : List SwitchEvent)

/-- `bob` is switched to another programme. -/
def changeProgramme : List SwitchEvent :=
  ([.start (.addSource 4 "stream-b"), .request 0 (), .start (.switchViewer 5 "bob" "stream-b")] : List SwitchEvent) ++
  (List.replicate 4 (.request 0 ()) : List SwitchEvent)

/-- `bob` joins again. -/
def rejoin : List SwitchEvent := .start (.addViewer 4 "bob") :: List.replicate 3 (.request 0 ())

/-- What was billed to a programme is billed to the next one after a switch, and to none after its
viewer has joined again. -/
theorem bytes_move : ∃ h pool, Run switchStep (fun _ pool e => InTurn pool e) ⟨.empty, [], []⟩ h pool ∧ pool.running = [] ∧
    pool.state.billed "stream-a" = 138 ∧
    (∃ h' pool', Run switchStep (fun _ pool e => InTurn pool e) pool h' pool' ∧ pool'.running = [] ∧
      pool'.state.billed "stream-a" = 0 ∧ pool'.state.billed "stream-b" = 138) ∧
    ∃ h' pool', Run switchStep (fun _ pool e => InTurn pool e) pool h' pool' ∧ pool'.running = [] ∧
      pool'.state.billed "stream-a" = 0 := by
  have hwatch : Follows switchStep (fun _ pool e => InTurn pool e) [] ⟨.empty, [], []⟩ watchPacket := by decide +kernel
  exact ⟨_, _, Run.start.follow hwatch, by decide +kernel, by decide +kernel,
    Run.exists_of_follows changeProgramme (by decide +kernel), Run.exists_of_follows rejoin (by decide +kernel)⟩

end MatrixMedia.Switch
