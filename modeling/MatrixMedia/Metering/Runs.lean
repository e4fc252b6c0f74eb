import MatrixMedia.Lib.Run
import MatrixMedia.Metering.Poll

/-!
# Runs of the meter over one node

A run is a sequence of `sweep_egress` calls that poll one node, from empty tables. What
the node reported so far is read off the history. `no_double_billing` is the bound on
what is billed: it follows from one invariant, that the baseline row of a source is never
below what has been billed for it in the row's epoch. The invariant breaks where a
counter goes backwards, since `advanced` then moves the row below usage already billed.
-/

namespace MatrixMedia.Metering
open Lib Lib.Text Lib.Chrono

/-- One `sweep_egress` call: the time and what its I/O answers. -/
structure Poll where
  now : DateTime
  io : PollIo

/-- The tables after a sweep over the one node `n`. -/
def poll (n : String) (db : MeteringDb) (i : Poll) : MeteringDb := (sweepEgress db [(n, i.io)] i.now).1

/-- The snapshot of the reading a poll got. -/
def Poll.snapshot? (i : Poll) : Option EgressSnapshot := i.io.reading?.map .ofSwitchEgress

/-- The counter values the node reported for a source in an epoch, newest first. -/
def reported (h : List Poll) (epoch source : String) : List Int :=
  h.filterMap fun i => (i.snapshot?.filter fun cur => cur.epoch == epoch).bind fun cur => cur.bytes[source]?

/-- The largest counter value reported for a source in an epoch; a counter starts at zero. -/
def peak (h : List Poll) (epoch source : String) : Int := (reported h epoch source).foldr max 0

variable {c : Int} {source epoch : String} {h : List Poll}

theorem mem_reported : c ∈ reported h epoch source ↔
    ∃ i ∈ h, ∃ cur, i.snapshot? = some cur ∧ cur.epoch = epoch ∧ cur.bytes[source]? = some c := by
  simp only [reported, List.mem_filterMap, Option.bind_eq_some_iff, Option.filter_eq_some_iff, beq_iff_eq, and_assoc]

theorem mem_reported_cons {i}
    (hc : c ∈ reported h epoch source) : c ∈ reported (i :: h) epoch source := by
  obtain ⟨j, hj, hrest⟩ := mem_reported.mp hc
  exact mem_reported.mpr ⟨j, List.mem_cons_of_mem _ hj, hrest⟩

theorem mem_reported_head {i : Poll} {cur}
    (hi : i.snapshot? = some cur) (hc : cur.bytes[source]? = some c) :
    c ∈ reported (i :: h) cur.epoch source :=
  mem_reported.mpr ⟨i, List.mem_cons_self, cur, hi, rfl, hc⟩

theorem le_peak (hc : c ∈ reported h epoch source) :
    c ≤ peak h epoch source := by
  unfold peak
  generalize reported h epoch source = l at hc ⊢
  induction l with
  | nil => cases hc
  | cons a l ih =>
    rw [List.foldr_cons]
    rcases List.mem_cons.mp hc with rfl | hc
    · exact Int.le_max_left ..
    · exact Int.le_trans (ih hc) (Int.le_max_right ..)

theorem peak_le_cons (h : List Poll) (i : Poll) (epoch source : String) :
    peak h epoch source ≤ peak (i :: h) epoch source := by
  unfold peak reported
  rw [List.filterMap_cons]
  split
  · exact Int.le_refl _
  · exact Int.le_max_right ..

/-! ## What a poll can do -/

/-- A poll leaves the tables alone or writes what its reading carries. -/
theorem poll_cases (n : String) (db : MeteringDb) (i : Poll) : poll n db i = db ∨
    ∃ cur, i.snapshot? = some cur ∧ (∀ sc ∈ pollAdvanced db n i.now cur i.io.payer, 0 ≤ sc.2) ∧
      poll n db i = writePoll db n i.now cur i.io.payer := by
  rcases pollNode_cases db {} n i.now i.io with h | ⟨reading, hread, hnonneg, h⟩
  · exact .inl h
  · exact .inr ⟨.ofSwitchEgress reading, by rw [Poll.snapshot?, hread]; rfl, hnonneg, h⟩

/-- Where a baseline row stands in an epoch. -/
def position (epoch : String) : Option BaselineRow → Int
  | some r => if r.epoch = epoch then r.cumulativeBytes else 0
  | none => 0

theorem position_of_eq {r : BaselineRow} (h : r.epoch = epoch) :
    position epoch (some r) = r.cumulativeBytes := if_pos h

theorem position_of_ne {r : BaselineRow} (h : r.epoch ≠ epoch) : position epoch (some r) = 0 :=
  if_neg h

@[simp] theorem position_here (epoch : String) (c : Int) (t : DateTime) : position epoch (some ⟨epoch, c, t⟩) = c :=
  if_pos rfl

/-- A delta is always taken from the source's position in the reading's epoch. -/
theorem base_eq_position {db : MeteringDb} {n p current}
    (hp : baselineSnapshot (db.baselinesForNode n) = some p) (s : String) :
    base p current s = position current.epoch (db.rowsOf n)[s]? := by
  obtain ⟨hepoch, hbytes⟩ := baselineSnapshot_eq_some hp
  unfold position base
  rw [Std.TreeMap.getD_eq_getD_getElem?, hbytes s]
  cases hrow : (db.rowsOf n)[s]? with
  | none => simp
  | some r => simp [hepoch s r hrow]

/-! ## No double billing -/

/-- Usage recorded for a source in an epoch never exceeds the largest counter the node
reported for it there. -/
def NoDoubleBilling (n : String) (h : List Poll) (db : MeteringDb) : Prop :=
  ∀ epoch source, db.billed n epoch source ≤ peak h epoch source

/-- A source that was billed in the reading's epoch has its baseline row in that epoch,
and not above the reading. -/
def Forward (n : String) (db : MeteringDb) (i : Poll) : Prop :=
  ∀ cur ∈ i.snapshot?, ∀ sc ∈ cur.bytes.toList, 0 < db.billed n cur.epoch sc.1 →
    ∃ r ∈ (db.rowsOf n)[sc.1]?, r.epoch = cur.epoch ∧ r.cumulativeBytes ≤ sc.2

instance (n : String) (db : MeteringDb) (i : Poll) : Decidable (Forward n db i) :=
  inferInstanceAs (Decidable (∀ cur ∈ i.snapshot?, _))

/-- No baseline row is below what was billed in its epoch. -/
def RowsCover (n : String) (db : MeteringDb) : Prop :=
  ∀ (s : String) (r : BaselineRow), (db.rowsOf n)[s]? = some r → db.billed n r.epoch s ≤ r.cumulativeBytes

section Step
variable {n : String} {db : MeteringDb} {i : Poll} {cur : EgressSnapshot}

variable {c : Int} {s : String}

theorem Forward.row (hforward : Forward n db i) (hi : i.snapshot? = some cur)
    (hc : cur.bytes[s]? = some c) (hpos : 0 < db.billed n cur.epoch s) :
    ∃ r, (db.rowsOf n)[s]? = some r ∧ r.epoch = cur.epoch ∧ r.cumulativeBytes ≤ c :=
  hforward cur hi (s, c) (Table.mem_toList.mpr hc) hpos

/-- Where a reading is compared with a baseline, everything billed lies below it. -/
theorem billed_le_base (hcover : RowsCover n db) (hforward : Forward n db i) (hi : i.snapshot? = some cur)
    (hc : cur.bytes[s]? = some c) {p}
    (hp : baselineSnapshot (db.baselinesForNode n) = some p) : db.billed n cur.epoch s ≤ base p cur s := by
  rw [base_eq_position hp]
  by_contra hlt
  cases hrow : (db.rowsOf n)[s]? with
  | none =>
    rw [hrow, position] at hlt
    obtain ⟨r, hr, -⟩ := hforward.row hi hc (by omega)
    rw [hrow] at hr
    cases hr
  | some r =>
    by_cases hepoch : r.epoch = cur.epoch
    · rw [hrow, position_of_eq hepoch] at hlt
      exact hlt (hepoch ▸ hcover s r hrow)
    · rw [hrow, position_of_ne hepoch] at hlt
      obtain ⟨r', hr', hepoch', -⟩ := hforward.row hi hc (by omega)
      rw [hrow] at hr'
      cases hr'
      exact hepoch hepoch'

/-- A source whose baseline moves to `c` has at most `c` billed afterwards. -/
theorem billed_le_reading (hcover : RowsCover n db) (hforward : Forward n db i) (hi : i.snapshot? = some cur)
    (hc : cur.bytes[s]? = some c) (hnonneg : 0 ≤ c)
    (hwritten : written db n i.now cur i.io.payer cur.epoch s = 0 ∨
      ∃ p, baselineSnapshot (db.baselinesForNode n) = some p ∧
        written db n i.now cur i.io.payer cur.epoch s = c - base p cur s) :
    (writePoll db n i.now cur i.io.payer).billed n cur.epoch s ≤ c := by
  have hle : (writePoll db n i.now cur i.io.payer).billed n cur.epoch s ≤
      db.billed n cur.epoch s + written db n i.now cur i.io.payer cur.epoch s := billed_writePoll_le cur.epoch
  rcases hwritten with hzero | ⟨p, hp, hdelta⟩
  · by_cases hpos : 0 < db.billed n cur.epoch s
    · obtain ⟨r, hr, hepoch, hcum⟩ := hforward.row hi hc hpos
      have := hcover s r hr
      rw [hepoch] at this
      omega
    · omega
  · have := billed_le_base hcover hforward hi hc hp
    omega

/-- **One poll.** Both halves of the invariant survive a poll whose reading moves forward. -/
theorem poll_cover {h} (hforward : Forward n db i)
    (hinv : RowsCover n db ∧ NoDoubleBilling n h db) :
    RowsCover n (poll n db i) ∧ NoDoubleBilling n (i :: h) (poll n db i) := by
  obtain ⟨hcover, hbound⟩ := hinv
  rcases poll_cases n db i with heq | ⟨cur, hi, hnonneg, heq⟩
  · rw [heq]
    exact ⟨hcover, fun epoch source => Int.le_trans (hbound epoch source) (peak_le_cons h i epoch source)⟩
  rw [heq]
  have hle : ∀ s epoch, (writePoll db n i.now cur i.io.payer).billed n epoch s ≤
      db.billed n epoch s + written db n i.now cur i.io.payer epoch s := fun s epoch => billed_writePoll_le epoch
  have hother : ∀ s epoch, epoch ≠ cur.epoch →
      (writePoll db n i.now cur i.io.payer).billed n epoch s ≤ db.billed n epoch s := by
    intro s epoch hne
    have := hle s epoch
    rw [written_of_ne hne] at this
    omega
  refine ⟨fun s r hr => ?_, fun epoch source => ?_⟩
  · rcases source_cases db n i.now cur i.io.payer s with ⟨hrow, hzero⟩ | ⟨c, hadv, hc, hrow, hwritten⟩
    · have hold := hcover s r (hrow ▸ hr)
      by_cases hepoch : r.epoch = cur.epoch
      · have := hle s r.epoch
        rw [hepoch] at this hold ⊢
        omega
      · exact Int.le_trans (hother s r.epoch hepoch) hold
    · obtain rfl : r = ⟨cur.epoch, c, i.now⟩ := Option.some.inj (hr.symm.trans hrow)
      exact billed_le_reading hcover hforward hi hc (hnonneg (s, c) hadv) hwritten
  · have hold := Int.le_trans (hbound epoch source) (peak_le_cons h i epoch source)
    by_cases hepoch : epoch = cur.epoch
    · subst hepoch
      rcases source_cases db n i.now cur i.io.payer source with ⟨-, hzero⟩ | ⟨c, hadv, hc, -, hwritten⟩
      · have := hle source cur.epoch
        omega
      · exact Int.le_trans (billed_le_reading hcover hforward hi hc (hnonneg (source, c) hadv) hwritten)
          (le_peak (mem_reported_head hi hc))
    · exact Int.le_trans (hother source epoch hepoch) hold

end Step

/-- **No double billing.** In a run whose readings move forward, whatever fails and is
repeated, nothing is billed twice. -/
theorem no_double_billing (n : String) {h : List Poll} {db : MeteringDb}
    (run : Run (poll n) (fun _ db i => Forward n db i) .empty h db) : NoDoubleBilling n h db := by
  refine (run.invariant (I := fun h db => RowsCover n db ∧ NoDoubleBilling n h db) ⟨?_, ?_⟩ ?_).2
  · intro s r hr
    rw [show (MeteringDb.empty.rowsOf n)[s]? = none from rfl] at hr
    cases hr
  · intro epoch source
    exact Int.le_refl 0
  · intro h db i _ hforward hinv
    exact poll_cover hforward hinv

/-- A poll in which everything succeeds and every broadcast has a payer. -/
def answeredPoll (epoch : String) (counters : List (String × Int)) : Poll where
  now := 0
  io :=
    { baselineRead := none
      egress := .ok ⟨epoch, 0, 28, counters.map fun sc => ⟨sc.1, sc.2⟩⟩
      payer := fun _ => .ok (some ("user", "tenant"))
      commit := .committed }

/-- The tables after a history of polls from the start. -/
def pollAll (n : String) (h : List Poll) : MeteringDb := h.foldr (fun i db => poll n db i) .empty

/-- A restart between two billed readings, with a repeated poll whose commit was lost. -/
def restartHistory : List Poll :=
  [ answeredPoll "e2" [("stream-a", 4000000)],
    answeredPoll "e1" [("stream-a", 9000000)],
    { (answeredPoll "e1" [("stream-a", 9000000)]) with
      io := { (answeredPoll "e1" [("stream-a", 9000000)]).io with commit := .unacknowledged "timeout" } },
    answeredPoll "e1" [("stream-a", 1000000)] ]

theorem no_double_billing_restart : NoDoubleBilling "node" restartHistory (pollAll "node" restartHistory) ∧
    (pollAll "node" restartHistory).billed "node" "e1" "stream-a" = 8000000 ∧
    (pollAll "node" restartHistory).billed "node" "e2" "stream-a" = 4000000 :=
  ⟨no_double_billing "node" (.next (.next (.next (.next .start (by decide +kernel)) (by decide +kernel))
    (by decide +kernel)) (by decide +kernel)), by decide +kernel, by decide +kernel⟩

/-- A counter that goes from 10 MB back to 5 MB and on to 12 MB. -/
def backwardsHistory : List Poll :=
  [ answeredPoll "e1" [("stream-a", 12000000)],
    answeredPoll "e1" [("stream-a", 5000000)],
    answeredPoll "e1" [("stream-a", 10000000)],
    answeredPoll "e1" [("stream-a", 0)] ]

/-- After a backwards reading the same bytes are billed again: 17 MB for a counter that
never passed 12 MB. -/
theorem backwards_bills_twice :
    Run (poll "node") (fun _ _ _ => True) .empty backwardsHistory (pollAll "node" backwardsHistory) ∧
    (pollAll "node" backwardsHistory).billed "node" "e1" "stream-a" = 17000000 ∧
    peak backwardsHistory "e1" "stream-a" = 12000000 ∧
    ¬ NoDoubleBilling "node" backwardsHistory (pollAll "node" backwardsHistory) := by
  have hbilled : (pollAll "node" backwardsHistory).billed "node" "e1" "stream-a" = 17000000 := by decide +kernel
  have hpeak : peak backwardsHistory "e1" "stream-a" = 12000000 := by decide +kernel
  refine ⟨.next (.next (.next (.next .start trivial) trivial) trivial) trivial, hbilled, hpeak, ?_⟩
  intro hbound
  have := hbound "e1" "stream-a"
  omega

end MatrixMedia.Metering
