import MatrixMedia.Lib.Run
import Mathlib.Data.List.Basic
import Mathlib.Logic.Function.Iterate

/-!
# The queue of Matrix reports (`run_sync` in `mm-api/src/moderation.rs`)

A sync asks the homeserver for a page of event reports and inserts each, leaving out those the table has. The
homeserver's list is part of the state: reports are filed at its end, each under an id of its own.
-/

namespace MatrixMedia.Moderation
open Lib List

/-- `SynapseEventReport`. -/
structure EventReport where
  id : Int
  roomId : Option String
  eventId : Option String
  userId : Option String
  sender : Option String
  reason : Option String

/-- `NewReport`, and a row of `mm_moderation_reports` as far as the sync writes it. -/
structure NewReport where
  source : String
  targetType : String
  targetId : String
  roomId : Option String
  reportedUserId : Option String
  reporterId : Option String
  reason : String
  details : Option String
  synapseReportId : Option Int

/-- Synapse's `event_reports` with `dir=f`. -/
def eventReports (filed : List EventReport) (offset : Option Nat) (limit : Nat) : List EventReport :=
  (filed.drop (offset.getD 0)).take limit

/-- `fetch_event_reports`: the request has no offset. -/
def fetchEventReports (filed : List EventReport) (limit : Nat) : List EventReport := eventReports filed none limit

/-- Under the partial unique index on `(source, synapse_report_id)`. -/
def NewReport.conflicts (r row : NewReport) : Bool :=
  r.synapseReportId.isSome && row.source == r.source && row.synapseReportId == r.synapseReportId

/-- `insert_report`, with whether a row was inserted. -/
def insertReport (rows : List NewReport) (r : NewReport) : List NewReport × Bool :=
  if rows.any r.conflicts then (rows, false) else (rows ++ [r], true)

/-- What `run_sync` inserts for a report. -/
def newReport (r : EventReport) : NewReport where
  source := "matrix"
  targetType := "event"
  targetId := r.eventId.getD ""
  roomId := r.roomId
  reportedUserId := r.sender
  reporterId := r.userId
  reason := r.reason.getD "(none)"
  details := none
  synapseReportId := some r.id

/-- A turn of the loop of `run_sync`, over the table and `inserted`. -/
def syncReport (acc : List NewReport × Nat) (r : EventReport) : List NewReport × Nat :=
  let (rows, isNew) := insertReport acc.1 (newReport r)
  (rows, if isNew then acc.2 + 1 else acc.2)

structure Queue where
  filed : List EventReport
  rows : List NewReport

/-- `run_sync`: the table it leaves, and its result. -/
def runSync (q : Queue) : Queue × Nat :=
  let (rows, inserted) := (fetchEventReports q.filed 100).foldl syncReport (q.rows, 0)
  ({ q with rows }, inserted)

inductive Event where
  | file (r : EventReport)
  | sync

def step (q : Queue) : Event → Queue
  | .file r => { q with filed := q.filed ++ [r] }
  | .sync => (runSync q).1

/-- A report is filed under an id of its own. -/
def Fresh (_ : List Event) (q : Queue) : Event → Prop
  | .file r => r.id ∉ q.filed.map (·.id)
  | .sync => True

instance : ∀ h q e, Decidable (Fresh h q e)
  | _, q, .file r => inferInstanceAs (Decidable (r.id ∉ q.filed.map (·.id)))
  | _, _, .sync => isTrue trivial

/-- The rows of a report. -/
def rowsOf (rows : List NewReport) (id : Int) : Nat :=
  rows.countP fun row => row.source == "matrix" && row.synapseReportId == some id

variable {rows : List NewReport} {r : EventReport} {id : Int} {q : Queue} {h : List Event}

/-- Before anything is synced: rows of other sources only. -/
def Initial (q : Queue) : Prop := q.filed = [] ∧ ∀ id, rowsOf q.rows id = 0

theorem rowsOf_insert : rowsOf (insertReport rows (newReport r)).1 id =
    if id = r.id ∧ rowsOf rows r.id = 0 then 1 else rowsOf rows id := by
  have hany : rows.any (newReport r).conflicts = true ↔ rowsOf rows r.id ≠ 0 := by
    rw [any_eq_true, ← Nat.pos_iff_ne_zero, rowsOf, countP_pos_iff]
    rfl
  rw [insertReport]
  by_cases hr : rowsOf rows r.id = 0
  · rw [if_neg (mt hany.mp (not_not.mpr hr)), rowsOf, countP_append, ← rowsOf]
    by_cases hid : id = r.id
    · subst hid
      simp [hr, newReport]
    · simp [hr, hid, newReport, Ne.symm hid]
  · rw [if_pos (hany.mpr hr), if_neg fun hc => hr hc.2]

/-- The index keeps a second row out. -/
theorem once_insert (once : ∀ id, rowsOf rows id ≤ 1) (id : Int) : rowsOf (insertReport rows (newReport r)).1 id ≤ 1 := by
  rw [rowsOf_insert]
  split
  · exact Nat.le_refl 1
  · exact once id

/-- A sync stores every report of its page once. -/
theorem rowsOf_runSync (once : ∀ id, rowsOf q.rows id ≤ 1) (hr : r ∈ fetchEventReports q.filed 100) :
    rowsOf (runSync q).1.rows r.id = 1 := by
  show rowsOf ((fetchEventReports q.filed 100).foldl syncReport (q.rows, 0)).1 r.id = 1
  refine foldl_of_mem (P := fun acc : List NewReport × Nat => ∀ id, rowsOf acc.1 id ≤ 1) (Q := fun acc => rowsOf acc.1 r.id = 1)
    hr (fun acc j hacc => once_insert hacc) (fun acc j hacc => ?_) (fun acc hacc => ?_) once
  · refine rowsOf_insert.trans ?_
    split
    · rfl
    · exact hacc
  · refine rowsOf_insert.trans ?_
    have := hacc r.id
    split <;> omega

/-- Rows are of reports of the first page, one for each at most. -/
structure Synced (q : Queue) : Prop where
  once : ∀ id, rowsOf q.rows id ≤ 1
  first : ∀ id, rowsOf q.rows id ≠ 0 → id ∈ (q.filed.take 100).map (·.id)

theorem Synced.sync (hq : Synced q) : Synced (runSync q).1 := by
  refine List.foldlRecOn (motive := fun acc : List NewReport × Nat => Synced { q with rows := acc.1 }) (fetchEventReports q.filed 100)
    syncReport hq fun acc hacc r hr => ⟨once_insert hacc.once, fun id hid => ?_⟩
  rw [show rowsOf (syncReport acc r).1 id = _ from rowsOf_insert] at hid
  split at hid
  · rename_i hc
    exact hc.1 ▸ mem_map_of_mem hr
  · exact hacc.first id hid

theorem synced_of_run {q₀ : Queue} (h₀ : Initial q₀) (run : Run step Fresh q₀ h q) : Synced q := by
  refine Run.invariant (I := fun _ q => Synced q) ⟨fun id => h₀.2 id ▸ Nat.zero_le 1, fun id hid => absurd (h₀.2 id) hid⟩
    (fun h q e _ _ hq => ?_) run
  cases e with
  | file r =>
    refine ⟨hq.once, fun id hid => ?_⟩
    exact map_subset _ (take_append .. ▸ subset_append_left _ _) (hq.first id hid)
  | sync => exact hq.sync

/-- Further syncs. -/
theorem Synced.syncs (hq : Synced q) (n : Nat) :
    Synced ((fun q => (runSync q).1)^[n] q) ∧ ((fun q => (runSync q).1)^[n] q).filed = q.filed := by
  induction n with
  | zero => exact ⟨hq, rfl⟩
  | succ n ih =>
    rw [Function.iterate_succ_apply']
    exact ⟨ih.1.sync, ih.2⟩

/-- **While a page holds them all, every report gets its row.** -/
theorem every_report_queued {q₀ : Queue} (h₀ : Initial q₀) (run : Run step Fresh q₀ h q) (fits : q.filed.length ≤ 100)
    (hr : r ∈ q.filed) : rowsOf ((fun q => (runSync q).1)^[q.filed.length] q).rows r.id = 1 := by
  obtain ⟨n, hn⟩ := Nat.exists_eq_succ_of_ne_zero (Nat.ne_of_gt (length_pos_of_mem hr))
  obtain ⟨hq, hfiled⟩ := (synced_of_run h₀ run).syncs n
  rw [hn, Function.iterate_succ_apply']
  refine rowsOf_runSync hq.once ?_
  rwa [hfiled, fetchEventReports, eventReports, Option.getD_none, drop_zero, take_of_length_le fits]

/-- A report, by its id. -/
def report (id : Nat) : EventReport := ⟨id, none, none, none, none, none⟩

theorem every_report_queued_seven : ∃ h q, Run step Fresh ⟨[], []⟩ h q ∧ q.filed.map (·.id) = [7, 8, 9] ∧
    ∀ r ∈ q.filed, rowsOf ((fun q => (runSync q).1)^[3] q).rows r.id = 1 := by
  apply Run.exists_and_of_follows (P := fun q => q.filed.map (·.id) = [7, 8, 9])
    [.file (report 7), .sync, .file (report 8), .file (report 9), .sync] (by decide +kernel)
  intro h q run hq
  have three : q.filed.length = 3 := by simpa using congrArg length hq
  refine ⟨hq, fun r hr => ?_⟩
  rw [← three]
  exact every_report_queued ⟨rfl, fun _ => rfl⟩ run (by omega) hr

/-- The hundred-and-first report is not stored, however often the sync runs. -/
theorem report_beyond_page_lost : ∃ h q, Run step Fresh ⟨[], []⟩ h q ∧ q.filed.length = 101 ∧ 100 ∈ q.filed.map (·.id) ∧
    rowsOf ((fun q => (runSync q).1)^[q.filed.length] q).rows 100 = 0 := by
  refine Run.exists_and_of_follows (P := fun q => q.filed.map (·.id) = (List.range 101).map Nat.cast)
    ((List.range 101).map fun id => Event.file (report id)) (by decide +kernel) fun h q run hq => ⟨?_, ?_, ?_⟩
  · simpa using congrArg List.length hq
  · exact hq ▸ by decide +kernel
  · obtain ⟨hsynced, hfiled⟩ := (synced_of_run ⟨rfl, fun _ => rfl⟩ run).syncs q.filed.length
    by_contra hne
    have := hsynced.first 100 hne
    rw [hfiled, map_take, hq] at this
    exact absurd this (by decide +kernel)

end MatrixMedia.Moderation
