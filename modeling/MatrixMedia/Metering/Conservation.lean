import MatrixMedia.Metering.Runs

/-!
# Nothing lost across restarts

In a run where everything succeeds, counters only grow within an epoch and each restart
brings a fresh epoch. As long as the stored rows still form a baseline, a poll in a later
epoch bills every source up to a sub-megabyte remainder (`nothing_lost`): what is billed
for a source is exactly where its baseline stands (`Settled.exact`). Rows are only ever
upserted, so the row of a source that is missing from, or still under a megabyte in, the
new epoch keeps the old epoch; the rows then disagree, `baseline_snapshot` gives none,
and the next poll moves every baseline without billing anything.
-/

namespace MatrixMedia.Metering

open Lib Lib.Text Lib.Chrono List

/-- The epochs a history observed, newest first. -/
def epochs (h : List Poll) : List String := h.filterMap fun i => i.snapshot?.map EgressSnapshot.epoch

/-- The run has observed an epoch before this one. -/
def LaterEpoch (h : List Poll) (epoch : String) : Prop := ∃ first ∈ (epochs h).getLast?, first ≠ epoch

instance (h : List Poll) (epoch : String) : Decidable (LaterEpoch h epoch) :=
  inferInstanceAs (Decidable (∃ first ∈ (epochs h).getLast?, _))

/-- A source `stream-<id>` whose broadcast has a payer. -/
def hasPayer (io : PollIo) (source : String) : Bool :=
  match broadcastIdForSource source with
  | none => false
  | some id =>
    match io.payer id with
    | .ok (some _) => true
    | _ => false

/-- A poll in which every operation succeeds, of a node that keeps its promises. -/
structure Healthy (h : List Poll) (i : Poll) : Prop where
  answered : i.snapshot?.isSome
  committed : i.io.commit = .committed
  payers : ∀ cur ∈ i.snapshot?, ∀ sc ∈ cur.bytes.toList, hasPayer i.io sc.1 = true
  nonneg : ∀ cur ∈ i.snapshot?, ∀ sc ∈ cur.bytes.toList, 0 ≤ sc.2
  /-- Counters never decrease within an epoch. -/
  monotone : ∀ cur ∈ i.snapshot?, ∀ sc ∈ cur.bytes.toList, ∀ c ∈ reported h cur.epoch sc.1, c ≤ sc.2
  /-- A change of epoch is a change to one that was never seen. -/
  fresh : ∀ cur ∈ i.snapshot?, (epochs h).head? = some cur.epoch ∨ cur.epoch ∉ epochs h

instance (h : List Poll) (i : Poll) : Decidable (Healthy h i) :=
  decidable_of_iff (_ ∧ _ ∧ _ ∧ _ ∧ _ ∧ _)
    ⟨fun ⟨a, b, c, d, e, f⟩ => ⟨a, b, c, d, e, f⟩, fun ⟨a, b, c, d, e, f⟩ => ⟨a, b, c, d, e, f⟩⟩

/-- After a poll in a later epoch, each source of the reading is billed up to a
sub-megabyte remainder. -/
def NothingLost (n : String) : List Poll → MeteringDb → Prop
  | [], _ => True
  | i :: h, db => ∀ cur ∈ i.snapshot?, LaterEpoch h cur.epoch → ∀ sc ∈ cur.bytes.toList,
      db.billed n cur.epoch sc.1 ≤ sc.2 ∧ sc.2 - 1000000 < db.billed n cur.epoch sc.1

/-- In a later epoch the stored rows form a baseline: there are some, and all are of one
epoch. An epoch never holds the separator of the idempotency key; `newEgressEpoch` of
mm-switch makes it of hex or base-36 digits. -/
def Baselined (n : String) (h : List Poll) (db : MeteringDb) (i : Poll) : Prop :=
  ∀ cur ∈ i.snapshot?, ':' ∉ cur.epoch.toList ∧
    (LaterEpoch h cur.epoch → (baselineSnapshot (db.baselinesForNode n)).isSome)

instance (n : String) (h : List Poll) (db : MeteringDb) (i : Poll) : Decidable (Baselined n h db i) :=
  inferInstanceAs (Decidable (∀ cur ∈ i.snapshot?, _))

/-! ## Keys -/

/-- Within a node, the key of a usage event tells its epoch, source and counter apart. -/
theorem usageIdempotencyKey_inj {n e s e' s' : String} {c c'} (he : ':' ∉ e.toList) (he' : ':' ∉ e'.toList)
    (h : usageIdempotencyKey n e s c = usageIdempotencyKey n e' s' c') : e = e' ∧ s = s' ∧ c = c' := by
  have hchars : e.toList ++ ':' :: (s.toList ++ ':' :: (toString c).toList) =
      e'.toList ++ ':' :: (s'.toList ++ ':' :: (toString c').toList) := by
    have := congrArg String.toList h
    simpa [usageIdempotencyKey, String.toList_append] using this
  obtain ⟨hepoch, hrest⟩ := append_cons_inj he he' hchars
  obtain ⟨hsource, hcounter⟩ := append_cons_inj_right (colon_notMem_toString c) (colon_notMem_toString c') hrest
  exact ⟨String.toList_inj.mp hepoch, String.toList_inj.mp hsource,
    toString_int_injective (String.toList_inj.mp hcounter)⟩

/-! ## The invariant -/

/-- What the tables of node `n` hold after a healthy history. -/
structure Settled (n : String) (h : List Poll) (db : MeteringDb) : Prop where
  separable : ∀ e ∈ epochs h, ':' ∉ e.toList
  /-- A row holds a counter value that was reported in its epoch. -/
  rows : ∀ (s : String) (r : BaselineRow), (db.rowsOf n)[s]? = some r →
    r.epoch ∈ epochs h ∧ r.cumulativeBytes ∈ reported h r.epoch s
  events : ∀ e ∈ db.events.rows, e.mmNodeId = n ∧ e.interval.epoch ∈ epochs h ∧
    e.key = usageIdempotencyKey n e.interval.epoch e.interval.source e.interval.cumulativeBytes
  /-- A source billed in the current epoch has a row there, at or above every event. -/
  latest : ∀ e ∈ db.events.rows, (epochs h).head? = some e.interval.epoch →
    ∃ r, (db.rowsOf n)[e.interval.source]? = some r ∧ r.epoch = e.interval.epoch ∧
      e.interval.cumulativeBytes ≤ r.cumulativeBytes
  /-- In a later epoch, what is billed is where the baseline stands. -/
  exact : ∀ e ∈ (epochs h).head?, LaterEpoch h e → ∀ s, db.billed n e s = position e (db.rowsOf n)[s]?

theorem Settled.start (n : String) : Settled n [] .empty where
  separable := by intro e he; cases he
  rows := by
    intro s r hr
    rw [show (MeteringDb.empty.rowsOf n)[s]? = none from rfl] at hr
    cases hr
  events := by intro e he; cases he
  latest := by intro e he; cases he
  exact := by intro e he; cases he

/-! ## One healthy poll -/

section Step

variable {n : String} {h : List Poll} {db : MeteringDb} {i : Poll} {cur : EgressSnapshot}

theorem epochs_cons (hi : i.snapshot? = some cur) : epochs (i :: h) = cur.epoch :: epochs h := by
  simp [epochs, hi]

theorem laterEpoch_cons (hi : i.snapshot? = some cur) :
    LaterEpoch (i :: h) cur.epoch ↔ LaterEpoch h cur.epoch := by
  unfold LaterEpoch
  rw [epochs_cons hi, getLast?_cons]
  cases (epochs h).getLast? with
  | none | some => simp

/-- A poll that is answered and commits writes what its reading carries. -/
theorem poll_committed (hi : i.snapshot? = some cur) (hcommit : i.io.commit = .committed)
    (hnonneg : ∀ sc ∈ cur.bytes.toList, 0 ≤ sc.2) : poll n db i = writePoll db n i.now cur i.io.payer := by
  obtain ⟨reading, hreading, rfl⟩ := Option.map_eq_some_iff.mp hi
  have hread : i.io.baselineRead = none ∧ i.io.egress = .ok reading := by
    unfold PollIo.reading? at hreading
    split at hreading
    · rename_i hnone hok
      cases hreading
      exact ⟨hnone, hok⟩
    · cases hreading
  have hnonneg : ∀ sc ∈ pollAdvanced db n i.now (.ofSwitchEgress reading) i.io.payer, 0 ≤ sc.2 := by
    rintro ⟨s, c⟩ hsc
    exact hnonneg (s, c) (Table.mem_toList.mpr (mem_pollAdvanced.mp hsc).1)
  show (pollNode db {} n i.now i.io).1 = _
  rw [pollNode_answered db {} n i.now hread.1 hread.2, hcommit, recordInterval_committed _ _ _ _ _ hnonneg]
  rfl

theorem keys_distinct (hcolon : ':' ∉ cur.epoch.toList) :
    (((pollIntervals db n i.now cur i.io.payer).map (UsageEvent.mk n)).map UsageEvent.key).Nodup := by
  rw [map_map]
  refine List.Nodup.map_on ?_ (nodup_pollIntervals.of_map _)
  intro a ha b hb hkey
  obtain ⟨u, -, hu⟩ := mem_pollIntervals ha
  obtain ⟨v, -, hv⟩ := mem_pollIntervals hb
  have hsame : a.idempotencyKey = b.idempotencyKey := hkey
  rw [hu.key, hv.key, hu.epoch, hv.epoch] at hsame
  exact inj_on_of_nodup_map nodup_pollIntervals ha hb (usageIdempotencyKey_inj hcolon hcolon hsame).2.1

/-- A source that has a payer is held back only below a megabyte. -/
theorem Healthy.held_lt (hh : Healthy h i) (hi : i.snapshot? = some cur) {s c bytes}
    (hc : cur.bytes[s]? = some c) (hd : (dispose n cur i.now i.io.payer ⟨s, bytes⟩).interval? = none) : bytes < 1000000 := by
  have hpayer := hh.payers cur hi (s, c) (Table.mem_toList.mpr hc)
  unfold hasPayer at hpayer
  split at hpayer
  · cases hpayer
  · rename_i id hid
    split at hpayer
    · rename_i who hwho
      exact dispose_held (u := ⟨s, bytes⟩) hid hwho hd
    · cases hpayer

section
variable (hs : Settled n h db)
include hs

/-- A baseline never stands above a healthy reading. -/
theorem position_le_reading (hh : Healthy h i) (hi : i.snapshot? = some cur) {s : String}
    {c : Int} (hc : cur.bytes[s]? = some c) : position cur.epoch (db.rowsOf n)[s]? ≤ c := by
  have hmem : (s, c) ∈ cur.bytes.toList := Table.mem_toList.mpr hc
  have hnonneg : 0 ≤ c := hh.nonneg cur hi (s, c) hmem
  cases hrow : (db.rowsOf n)[s]? with
  | none => exact hnonneg
  | some r =>
    by_cases hepoch : r.epoch = cur.epoch
    · rw [position_of_eq hepoch]
      exact hh.monotone cur hi (s, c) hmem _ (hepoch ▸ (hs.rows s r hrow).2)
    · rw [position_of_ne hepoch]
      exact hnonneg

/-- Before a poll in a later epoch, what is billed there is where the baseline stands:
nothing in a fresh epoch. -/
theorem Settled.billed_eq_position (hh : Healthy h i) (hi : i.snapshot? = some cur)
    (hlater : LaterEpoch h cur.epoch) (s : String) :
    db.billed n cur.epoch s = position cur.epoch (db.rowsOf n)[s]? := by
  rcases hh.fresh cur hi with hhead | hnew
  · exact hs.exact cur.epoch hhead hlater s
  · have hbilled : db.billed n cur.epoch s = 0 := by
      refine Ledger.total_eq_zero fun e he => ?_
      rw [Bool.eq_false_iff]
      intro hsel
      exact hnew ((ofSource_iff.mp hsel).2.1 ▸ (hs.events e he).2.1)
    rw [hbilled]
    cases hrow : (db.rowsOf n)[s]? with
    | none => rfl
    | some r =>
      have hne : r.epoch ≠ cur.epoch := fun hepoch => hnew (hepoch ▸ (hs.rows s r hrow).1)
      rw [position_of_ne hne]

/-- A poll that bills against a baseline finds all its keys free. -/
theorem Settled.keys_fresh (hh : Healthy h i) (hi : i.snapshot? = some cur)
    (hcolon : ':' ∉ cur.epoch.toList) {iv} (hiv : iv ∈ pollIntervals db n i.now cur i.io.payer) :
    (UsageEvent.mk n iv).key ∉ db.events.rows.map UsageEvent.key := by
  intro hmem
  obtain ⟨e, he, hkey⟩ := mem_map.mp hmem
  obtain ⟨u, hu, hbills⟩ := mem_pollIntervals hiv
  obtain ⟨-, hseen, hekey⟩ := hs.events e he
  have hsame : usageIdempotencyKey n e.interval.epoch e.interval.source e.interval.cumulativeBytes =
      usageIdempotencyKey n cur.epoch iv.source iv.cumulativeBytes := by
    rw [← hekey, ← hbills.epoch, ← hbills.key]
    exact hkey
  obtain ⟨hepoch, hsource, hcum⟩ := usageIdempotencyKey_inj (hs.separable _ hseen) hcolon hsame
  have hhead : (epochs h).head? = some cur.epoch :=
    (hh.fresh cur hi).resolve_right fun hnew => hnew (hepoch ▸ hseen)
  obtain ⟨r, hr, hrepoch, hle⟩ := hs.latest e he (hepoch ▸ hhead)
  obtain ⟨p, c, hp, hc, hbytes, -⟩ := mem_usage.mp hu
  -- The event's row is the base of the delta, and the delta is at least a megabyte.
  have hbase : base p cur u.source = r.cumulativeBytes := by
    rw [base_eq_position hp, ← hbills.source, ← hsource, hr, position_of_eq (hrepoch.trans hepoch)]
  have hcounter : iv.cumulativeBytes = c := by
    rw [hbills.cumulative, Std.TreeMap.getD_eq_getD_getElem?, hc]
    rfl
  have := hbills.megabyte
  omega

/-- **One source of a healthy poll in a later epoch.** -/
theorem Settled.source (hh : Healthy h i) (hi : i.snapshot? = some cur)
    (hb : Baselined n h db i) (hlater : LaterEpoch h cur.epoch) (s : String) :
    (writePoll db n i.now cur i.io.payer).billed n cur.epoch s =
        position cur.epoch ((writePoll db n i.now cur i.io.payer).rowsOf n)[s]? ∧
      ∀ c, cur.bytes[s]? = some c →
        (writePoll db n i.now cur i.io.payer).billed n cur.epoch s ≤ c ∧
        c - 1000000 < (writePoll db n i.now cur i.io.payer).billed n cur.epoch s := by
  obtain ⟨hcolon, hbaselined⟩ := hb cur hi
  obtain ⟨p, hp⟩ := Option.isSome_iff_exists.mp (hbaselined hlater)
  have hbefore := hs.billed_eq_position hh hi hlater s
  have hbase : base p cur s = position cur.epoch (db.rowsOf n)[s]? := base_eq_position hp s
  have hafter := billed_writePoll_of_fresh (s := s) (keys_distinct hcolon)
    (fun iv hiv => hs.keys_fresh hh hi hcolon hiv) cur.epoch
  have step := source_step db n i.now cur i.io.payer s
  rw [hafter]
  generalize ((writePoll db n i.now cur i.io.payer).rowsOf n)[s]? = row at step ⊢
  generalize written db n i.now cur i.io.payer cur.epoch s = bytes at step ⊢
  cases step with
  | absent hc =>
    refine ⟨by omega, fun c hc' => ?_⟩
    rw [hc] at hc'
    cases hc'
  | @held q c hq hc hlt hd =>
    obtain rfl : q = p := Option.some.inj (hq.symm.trans hp)
    have hsub : c - base q cur s < 1000000 := hh.held_lt hi hc hd
    refine ⟨by omega, fun c' hc' => ?_⟩
    obtain rfl : c' = c := Option.some.inj (hc'.symm.trans hc)
    omega
  | @idle c hadv hc hle =>
    have hidle := hle p hp
    have hcounter := position_le_reading hs hh hi hc
    refine ⟨?_, fun c' hc' => ?_⟩
    · rw [position_here]
      omega
    · obtain rfl : c' = c := Option.some.inj (hc'.symm.trans hc)
      omega
  | @billed q c hadv hq hc hmega =>
    obtain rfl : q = p := Option.some.inj (hq.symm.trans hp)
    refine ⟨?_, fun c' hc' => ?_⟩
    · rw [position_here]
      omega
    · obtain rfl : c' = c := Option.some.inj (hc'.symm.trans hc)
      omega

/-- A row of the current epoch only moves up. -/
theorem Settled.row_advances (hh : Healthy h i) (hi : i.snapshot? = some cur) {s : String}
    {r : BaselineRow} (hr : (db.rowsOf n)[s]? = some r) (hepoch : r.epoch = cur.epoch) :
    ∃ r', ((writePoll db n i.now cur i.io.payer).rowsOf n)[s]? = some r' ∧ r'.epoch = cur.epoch ∧
      r.cumulativeBytes ≤ r'.cumulativeBytes := by
  rcases source_cases db n i.now cur i.io.payer s with ⟨hrow, -⟩ | ⟨c, -, hc, hrow, -⟩
  · exact ⟨r, hrow.trans hr, hepoch, Int.le_refl _⟩
  · refine ⟨_, hrow, rfl, ?_⟩
    have := position_le_reading hs hh hi hc
    rwa [hr, position_of_eq hepoch] at this

/-- **One healthy poll keeps the tables settled.** -/
theorem Settled.poll (hh : Healthy h i) (hb : Baselined n h db i) :
    Settled n (i :: h) (poll n db i) ∧ NothingLost n (i :: h) (poll n db i) := by
  obtain ⟨cur, hi⟩ := Option.isSome_iff_exists.mp hh.answered
  obtain ⟨hcolon, -⟩ := hb cur hi
  have hepochs := epochs_cons (h := h) hi
  rw [poll_committed hi hh.committed (hh.nonneg cur hi)]
  refine ⟨⟨?_, ?_, ?_, ?_, ?_⟩, ?_⟩
  · intro e he
    rw [hepochs] at he
    rcases mem_cons.mp he with rfl | he
    · exact hcolon
    · exact hs.separable e he
  · intro s r hr
    rw [hepochs]
    rcases source_cases db n i.now cur i.io.payer s with ⟨hrow, -⟩ | ⟨c, -, hc, hrow, -⟩
    · obtain ⟨hseen, hreported⟩ := hs.rows s r (hrow ▸ hr)
      exact ⟨mem_cons_of_mem _ hseen, mem_reported_cons hreported⟩
    · obtain rfl : r = ⟨cur.epoch, c, i.now⟩ := Option.some.inj (hr.symm.trans hrow)
      exact ⟨mem_cons_self, mem_reported_head hi hc⟩
  · intro e he
    rw [hepochs]
    rcases Ledger.mem_postAll he with hold | hnew
    · obtain ⟨hnode, hseen, hkey⟩ := hs.events e hold
      exact ⟨hnode, mem_cons_of_mem _ hseen, hkey⟩
    · obtain ⟨iv, hiv, rfl⟩ := mem_map.mp hnew
      obtain ⟨u, -, hbills⟩ := mem_pollIntervals hiv
      exact ⟨rfl, by rw [hbills.epoch]; exact mem_cons_self, hbills.key⟩
  · intro e he hhead
    rw [hepochs, head?_cons, Option.some_inj] at hhead
    rcases Ledger.mem_postAll he with hold | hnew
    · -- An old event of this epoch: the epoch is not fresh, so its row is the latest.
      have hseen := (hs.events e hold).2.1
      have hcurrent : (epochs h).head? = some cur.epoch :=
        (hh.fresh cur hi).resolve_right fun hnot => hnot (hhead ▸ hseen)
      obtain ⟨r, hr, hrepoch, hle⟩ := hs.latest e hold (hhead ▸ hcurrent)
      obtain ⟨r', hr', hepoch', hle'⟩ := hs.row_advances hh hi hr (hrepoch.trans hhead.symm)
      exact ⟨r', hr', hepoch'.trans hhead, Int.le_trans hle hle'⟩
    · obtain ⟨iv, hiv, rfl⟩ := mem_map.mp hnew
      obtain ⟨u, hu, hbills⟩ := mem_pollIntervals hiv
      obtain ⟨p, c, -, hc, -⟩ := mem_usage.mp hu
      have hcounter : iv.cumulativeBytes = c := by
        rw [hbills.cumulative, Std.TreeMap.getD_eq_getD_getElem?, hc]
        rfl
      rw [← hbills.source] at hc
      exact ⟨_, rowsOf_writePoll_of_mem (mem_pollAdvanced.mpr ⟨hc, .inl ⟨iv, hiv, rfl⟩⟩), hbills.epoch.symm,
        Int.le_of_eq hcounter⟩
  · intro e he hlater s
    rw [hepochs, head?_cons, Option.mem_some_iff] at he
    subst he
    exact (hs.source hh hi hb ((laterEpoch_cons hi).mp hlater) s).1
  · intro cur' hcur' hlater sc hsc
    obtain rfl : cur = cur' := Option.some.inj (hi.symm.trans hcur')
    exact (hs.source hh hi hb hlater sc.1).2 sc.2 (Table.mem_toList.mp hsc)

end

end Step

/-- **Nothing is lost across restarts** in a run whose stored rows form a baseline at
each poll of a later epoch. -/
theorem nothing_lost (n : String) {h : List Poll} {db : MeteringDb}
    (run : Run (poll n) (fun h db i => Healthy h i ∧ Baselined n h db i) .empty h db) : NothingLost n h db := by
  refine (run.invariant (I := fun h db => Settled n h db ∧ NothingLost n h db) ⟨.start n, trivial⟩ ?_).2
  rintro h db i - ⟨hh, hb⟩ ⟨hs, -⟩
  exact hs.poll hh hb

/-- Two sources over a restart; both come back over a megabyte. -/
def cleanRestart : List Poll :=
  [ answeredPoll "e2" [("stream-a", 5500000), ("stream-b", 2000000), ("stream-c", 7000000)],
    answeredPoll "e2" [("stream-a", 5000000), ("stream-b", 2000000)],
    answeredPoll "e1" [("stream-a", 3000000), ("stream-b", 9000000)] ]

theorem nothing_lost_cleanRestart : NothingLost "node" cleanRestart (pollAll "node" cleanRestart) ∧
    (pollAll "node" cleanRestart).billed "node" "e2" "stream-a" = 5000000 ∧
    (pollAll "node" cleanRestart).billed "node" "e2" "stream-c" = 7000000 :=
  ⟨nothing_lost "node" (.next (.next (.next .start (by decide +kernel)) (by decide +kernel)) (by decide +kernel)),
    by decide +kernel, by decide +kernel⟩

/-- Two sources over a restart; only one of them comes back. -/
def staleRestart : List Poll :=
  [ answeredPoll "e2" [("stream-a", 10000000)],
    answeredPoll "e2" [("stream-a", 5000000)],
    answeredPoll "e1" [("stream-a", 3000000), ("stream-b", 9000000)] ]

/-- The row of the source that did not come back hides the baseline: of 10 MB in the new
epoch only 5 MB are billed. -/
theorem staleRestart_loses :
    Run (poll "node") (fun h _ i => Healthy h i) .empty staleRestart (pollAll "node" staleRestart) ∧
    (pollAll "node" staleRestart).billed "node" "e2" "stream-a" = 5000000 ∧
    ¬ NothingLost "node" staleRestart (pollAll "node" staleRestart) := by
  have hbilled : (pollAll "node" staleRestart).billed "node" "e2" "stream-a" = 5000000 := by decide +kernel
  refine ⟨.next (.next (.next .start (by decide +kernel)) (by decide +kernel)) (by decide +kernel), hbilled, ?_⟩
  intro hlost
  have hlast : 10000000 - 1000000 < (pollAll "node" staleRestart).billed "node" "e2" "stream-a" :=
    (hlost _ rfl (by decide +kernel) ("stream-a", 10000000) (by decide +kernel)).2
  omega

end MatrixMedia.Metering
