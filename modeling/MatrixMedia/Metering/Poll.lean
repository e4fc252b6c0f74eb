import MatrixMedia.Lib.Table
import MatrixMedia.Metering.Model

/-!
# What one poll does

`pollNode_cases` says it once: a poll leaves the tables alone, or its transaction took
effect and the tables are `writePoll`. `source_step` then says what that write does to
one source of the node: its new baseline row, and the bytes its interval carries. Every
run result of the meter is an induction over these two.
-/

namespace MatrixMedia.Metering
open Lib Lib.Text Lib.Chrono UsageEvent Table List

/-! ## The delta -/

/-- The counter position the delta subtracts: the stored one within an epoch, zero
across a restart. -/
def base (previous current : EgressSnapshot) (source : String) : Int :=
  if previous.epoch = current.epoch then previous.bytes.getD source 0 else 0

theorem base_of_eq {previous current : EgressSnapshot} (h : previous.epoch = current.epoch) (source : String) :
    base previous current source = previous.bytes.getD source 0 := if_pos h

theorem base_of_ne {previous current : EgressSnapshot} (h : previous.epoch ≠ current.epoch) (source : String) :
    base previous current source = 0 := if_neg h

theorem mem_usage {previous current u} :
    u ∈ (egressDelta previous current).usage ↔ ∃ p c, previous = some p ∧ current.bytes[u.source]? = some c ∧
      u.bytes = c - base p current u.source ∧ 0 < u.bytes := by
  obtain ⟨s, b⟩ := u
  cases previous with
  | none => simp [egressDelta]
  | some p =>
    by_cases he : p.epoch = current.epoch
    · simp only [egressDelta, he, bne_self_eq_false, Bool.false_eq_true, if_false, mem_filterMap]
      constructor
      · rintro ⟨⟨t, c⟩, hmem, hu⟩
        split at hu
        · cases hu
        · split at hu
          · rename_i hpos
            cases hu
            exact ⟨p, c, rfl, mem_toList.mp hmem, by rw [base_of_eq he], hpos⟩
          · cases hu
      · rintro ⟨q, c, hq, hc, hb, hpos⟩
        cases hq
        rw [base_of_eq he] at hb
        have hle : ¬ c < p.bytes.getD s 0 := by omega
        have hlt : 0 < c - p.bytes.getD s 0 := by omega
        exact ⟨(s, c), mem_toList.mpr hc, by rw [if_neg hle, if_pos hlt, hb]⟩
    · simp only [egressDelta, bne_iff_ne, ne_eq, he, not_false_eq_true, if_true, mem_map, mem_filter,
        decide_eq_true_eq]
      constructor
      · rintro ⟨⟨t, c⟩, ⟨hmem, hpos⟩, hu⟩
        cases hu
        exact ⟨p, c, rfl, mem_toList.mp hmem, by rw [base_of_ne he]; omega, hpos⟩
      · rintro ⟨q, c, hq, hc, hb, hpos⟩
        cases hq
        rw [base_of_ne he] at hb
        exact ⟨(s, c), ⟨mem_toList.mpr hc, by simp only; omega⟩, by rw [hb, Int.sub_zero]⟩

theorem map_filterMap_sublist {α β γ : Type} {f : α → Option β} {g : β → γ} {k : α → γ}
    (h : ∀ a b, f a = some b → g b = k a) (l : List α) : ((l.filterMap f).map g).Sublist (l.map k) := by
  induction l with
  | nil => exact List.Sublist.refl _
  | cons a l ih =>
    cases hf : f a with
    | none =>
      rw [filterMap_cons_none hf]
      exact ih.cons _
    | some b =>
      rw [filterMap_cons_some hf, map_cons, map_cons, h a b hf]
      exact ih.cons_cons _

/-- A source appears in the usage of a reading at most once. -/
theorem nodup_usage (previous : Option EgressSnapshot) (current : EgressSnapshot) :
    ((egressDelta previous current).usage.map Usage.source).Nodup := by
  have hkeys := nodup_keys current.bytes
  cases previous with
  | none => exact nodup_nil
  | some p =>
    by_cases he : p.epoch = current.epoch
    · simp only [egressDelta, he, bne_self_eq_false, Bool.false_eq_true, if_false]
      refine (map_filterMap_sublist ?_ _).nodup hkeys
      rintro ⟨s, c⟩ u hu
      split at hu
      · cases hu
      · split at hu
        · cases hu
          rfl
        · cases hu
    · simp only [egressDelta, bne_iff_ne, ne_eq, he, not_false_eq_true, if_true, map_map]
      exact (filter_sublist.map _).nodup hkeys

/-! ## The stored baseline -/

theorem baselineSnapshot_eq_some {db : MeteringDb} {n p}
    (h : baselineSnapshot (db.baselinesForNode n) = some p) :
    (∀ (s : String) (r : BaselineRow), (db.rowsOf n)[s]? = some r → r.epoch = p.epoch) ∧
      ∀ s : String, p.bytes[s]? = ((db.rowsOf n)[s]?).map BaselineRow.cumulativeBytes := by
  have hsource : (db.baselinesForNode n).map EgressBaseline.source = (db.rowsOf n).toList.map Prod.fst := by
    rw [MeteringDb.baselinesForNode, map_map]
    rfl
  have hnodup : ((db.baselinesForNode n).map EgressBaseline.source).Nodup := hsource ▸ nodup_keys _
  have hmem : ∀ (s : String) (r : BaselineRow), (db.rowsOf n)[s]? = some r →
      (⟨s, r.epoch, r.cumulativeBytes, r.observedAt⟩ : EgressBaseline) ∈ db.baselinesForNode n := fun s r hr =>
    mem_map.mpr ⟨(s, r), mem_toList.mpr hr, rfl⟩
  generalize db.baselinesForNode n = rows at h hsource hnodup hmem
  cases rows with
  | nil => cases h
  | cons first rest =>
    rw [baselineSnapshot] at h
    split at h
    · cases h
    · rename_i hmixed
      cases h
      have hsame : ∀ r ∈ first :: rest, r.epoch = first.epoch := by
        intro r hr
        by_contra hne
        exact hmixed (any_eq_true.mpr ⟨r, hr, by simpa using hne⟩)
      refine ⟨fun s r hr => hsame _ (hmem s r hr), fun s => ?_⟩
      cases hrow : (db.rowsOf n)[s]? with
      | some r =>
        exact getElem?_foldl_insert_of_mem EgressBaseline.source EgressBaseline.cumulativeBytes hnodup
          (hmem s r hrow) ∅
      | none =>
        have hs : s ∉ (first :: rest).map EgressBaseline.source := by
          rw [hsource]
          intro hin
          obtain ⟨⟨t, r⟩, htr, rfl⟩ := mem_map.mp hin
          rw [mem_toList.mp htr] at hrow
          cases hrow
        rw [getElem?_foldl_insert_of_notMem EgressBaseline.source EgressBaseline.cumulativeBytes hs]
        rfl

/-! ## The write -/

theorem insertIntervals_eq (n : String) (events : Ledger key) (written : Recorded)
    (intervals : List EgressInterval) :
    (insertIntervals n events written intervals).1 = events.postAll (intervals.map (mk n)) := by
  induction intervals generalizing events written with
  | nil => rfl
  | cons iv rest ih =>
    rw [insertIntervals]
    split
    · rename_i hdup
      rw [ih, map_cons, Ledger.postAll_cons, show events.post ⟨n, iv⟩ = events from dif_pos hdup]
    · rw [ih, map_cons, Ledger.postAll_cons]

section Write
variable (db : MeteringDb) (n : String) (now : DateTime) (current : EgressSnapshot)
  (payer : String → Except MeteringDbError (Option (String × String)))

/-- The usage a poll derives from the stored rows and the reading. -/
def pollUsage : List Usage := (egressDelta (baselineSnapshot (db.baselinesForNode n)) current).usage

/-- The intervals it bills. -/
def pollIntervals : List EgressInterval := intervalsOf n current now payer (pollUsage db n current)

/-- The positions it advances. -/
def pollAdvanced : List (String × Int) :=
  advancedOf current (pollUsage db n current) (pollIntervals db n now current payer)

/-- The tables after the transaction of a poll took effect. -/
def writePoll : MeteringDb :=
  ⟨db.baselines.insert n (upsertPositions current.epoch now (db.rowsOf n) (pollAdvanced db n now current payer)),
    db.events.postAll ((pollIntervals db n now current payer).map (mk n))⟩

end Write

theorem recordInterval_cases (db : MeteringDb) (n epoch : String) (now : DateTime) (intervals : List EgressInterval)
    (positions : List (String × Int)) (commit : CommitOutcome) :
    (db.recordInterval n epoch now intervals positions commit).1 = db ∨
      (∀ sc ∈ positions, 0 ≤ sc.2) ∧ (db.recordInterval n epoch now intervals positions commit).1 =
        ⟨db.baselines.insert n (upsertPositions epoch now (db.rowsOf n) positions),
          db.events.postAll (intervals.map (mk n))⟩ := by
  unfold MeteringDb.recordInterval
  split
  · exact .inl rfl
  · rename_i hcheck
    have hnonneg : ∀ sc ∈ positions, 0 ≤ sc.2 := by
      intro sc hsc
      by_contra hneg
      exact hcheck (any_eq_true.mpr ⟨sc, hsc, by simpa using hneg⟩)
    cases commit with
    | committed => exact .inr ⟨hnonneg, by rw [← insertIntervals_eq n db.events ⟨0, 0⟩]⟩
    | rolledBack m => exact .inl rfl
    | unacknowledged m => exact .inr ⟨hnonneg, by rw [← insertIntervals_eq n db.events ⟨0, 0⟩]⟩

theorem recordInterval_committed (db : MeteringDb) (n epoch : String) (now : DateTime)
    (intervals : List EgressInterval) {positions} (hnonneg : ∀ sc ∈ positions, 0 ≤ sc.2) :
    (db.recordInterval n epoch now intervals positions .committed).1 =
      ⟨db.baselines.insert n (upsertPositions epoch now (db.rowsOf n) positions),
        db.events.postAll (intervals.map (mk n))⟩ := by
  have hcheck : ¬ positions.any (fun p => p.2 < 0) = true := by
    intro hany
    obtain ⟨sc, hsc, hneg⟩ := any_eq_true.mp hany
    have := hnonneg sc hsc
    have := of_decide_eq_true hneg
    omega
  rw [MeteringDb.recordInterval, if_neg hcheck, ← insertIntervals_eq n db.events ⟨0, 0⟩]

/-- A poll whose node answered leaves what its `record_interval` call left. -/
theorem pollNode_answered (db : MeteringDb) (sweep : MeteringSweep) (n : String) (now : DateTime) {io : PollIo}
    {reading} (hread : io.baselineRead = none) (hegress : io.egress = .ok reading) :
    (pollNode db sweep n now io).1 =
      (db.recordInterval n (EgressSnapshot.ofSwitchEgress reading).epoch now
        (pollIntervals db n now (.ofSwitchEgress reading) io.payer)
        (pollAdvanced db n now (.ofSwitchEgress reading) io.payer) io.commit).1 := by
  simp only [pollNode, hread, hegress, pollAdvanced, pollIntervals, pollUsage]
  split <;> rename_i hrecord <;> rw [hrecord]

/-- Everything a poll can do to the tables. -/
theorem pollNode_cases (db : MeteringDb) (sweep : MeteringSweep) (n : String) (now : DateTime) (io : PollIo) :
    (pollNode db sweep n now io).1 = db ∨
      ∃ reading, io.reading? = some reading ∧
        (∀ sc ∈ pollAdvanced db n now (.ofSwitchEgress reading) io.payer, 0 ≤ sc.2) ∧
        (pollNode db sweep n now io).1 = writePoll db n now (.ofSwitchEgress reading) io.payer := by
  cases hread : io.baselineRead with
  | some e => exact .inl (by simp only [pollNode, hread])
  | none =>
    cases hegress : io.egress with
    | error e => exact .inl (by simp only [pollNode, hread, hegress])
    | ok reading =>
      rw [pollNode_answered db sweep n now hread hegress]
      rcases recordInterval_cases db n (EgressSnapshot.ofSwitchEgress reading).epoch now
        (pollIntervals db n now (.ofSwitchEgress reading) io.payer)
        (pollAdvanced db n now (.ofSwitchEgress reading) io.payer) io.commit with h | ⟨hnonneg, h⟩
      · exact .inl h
      · exact .inr ⟨reading, by simp only [PollIo.reading?, hread, hegress], hnonneg, h⟩

/-! ## The intervals of a poll -/

theorem bytesToMilliGb_eq_zero {bytes} : bytesToMilliGb bytes = 0 ↔ bytes < 1000000 := by
  unfold bytesToMilliGb
  split <;> omega

/-- What a billed usage puts in the interval that the meter relies on later. -/
structure Bills (n : String) (current : EgressSnapshot) (u : Usage) (iv : EgressInterval) : Prop where
  source : iv.source = u.source
  bytes : iv.bytes = u.bytes
  epoch : iv.epoch = current.epoch
  cumulative : iv.cumulativeBytes = current.bytes.getD u.source 0
  key : iv.idempotencyKey = usageIdempotencyKey n iv.epoch iv.source iv.cumulativeBytes
  megabyte : 1000000 ≤ u.bytes

section Dispose
variable {n : String} {current : EgressSnapshot} {now : DateTime}
  {payer : String → Except MeteringDbError (Option (String × String))} {u : Usage}

theorem Bills.of_dispose {iv} (h : (dispose n current now payer u).interval? = some iv) :
    Bills n current u iv := by
  unfold dispose at h
  split at h
  · cases h
  · split at h
    · dsimp only at h
      split at h
      · cases h
      · rename_i hmilli
        cases h
        exact ⟨rfl, rfl, rfl, rfl, rfl, by rw [bytesToMilliGb_eq_zero] at hmilli; omega⟩
    · cases h
    · cases h

/-- A source with a payer is held back only below a megabyte. -/
theorem dispose_held {id who} (hid : broadcastIdForSource u.source = some id)
    (hpayer : payer id = .ok (some who)) (h : (dispose n current now payer u).interval? = none) :
    u.bytes < 1000000 := by
  unfold dispose at h
  rw [hid] at h
  simp only [hpayer] at h
  split at h
  · rename_i hmilli
    exact bytesToMilliGb_eq_zero.mp hmilli
  · cases h

end Dispose

section Intervals
variable {db : MeteringDb} {n : String} {now : DateTime} {current : EgressSnapshot}
  {payer : String → Except MeteringDbError (Option (String × String))}

theorem mem_pollIntervals {iv} (h : iv ∈ pollIntervals db n now current payer) :
    ∃ u ∈ pollUsage db n current, Bills n current u iv := by
  obtain ⟨u, hu, hiv⟩ := mem_filterMap.mp h
  exact ⟨u, hu, .of_dispose hiv⟩

theorem nodup_pollIntervals : ((pollIntervals db n now current payer).map EgressInterval.source).Nodup := by
  refine (map_filterMap_sublist (k := Usage.source) ?_ _).nodup (nodup_usage _ current)
  intro u iv hiv
  exact (Bills.of_dispose hiv).source

/-- A source of the reading moves its baseline when it is billed or has no usage. -/
theorem mem_pollAdvanced {s c} : (s, c) ∈ pollAdvanced db n now current payer ↔
    current.bytes[s]? = some c ∧ ((∃ iv ∈ pollIntervals db n now current payer, iv.source = s) ∨
      ∀ u ∈ pollUsage db n current, u.source ≠ s) := by
  simp only [pollAdvanced, advancedOf, mem_filter, mem_toList, Bool.or_eq_true, any_eq_true,
    beq_iff_eq, Bool.not_eq_true', any_eq_false]

theorem nodup_pollAdvanced : ((pollAdvanced db n now current payer).map Prod.fst).Nodup :=
  (filter_sublist.map _).nodup (nodup_keys current.bytes)

/-- The row of a source after the write: the reading where the baseline moved. -/
theorem rowsOf_writePoll_of_mem {s c} (h : (s, c) ∈ pollAdvanced db n now current payer) :
    ((writePoll db n now current payer).rowsOf n)[s]? = some ⟨current.epoch, c, now⟩ := by
  rw [MeteringDb.rowsOf, writePoll, Std.TreeMap.getD_insert_self]
  exact getElem?_foldl_insert_of_mem Prod.fst (fun p => (⟨current.epoch, p.2, now⟩ : BaselineRow))
    nodup_pollAdvanced h _

/-- Elsewhere it is the row it was. -/
theorem rowsOf_writePoll_of_notMem {s} (h : ∀ c, (s, c) ∉ pollAdvanced db n now current payer) :
    ((writePoll db n now current payer).rowsOf n)[s]? = (db.rowsOf n)[s]? := by
  rw [MeteringDb.rowsOf, writePoll, Std.TreeMap.getD_insert_self]
  refine getElem?_foldl_insert_of_notMem Prod.fst (fun p => (⟨current.epoch, p.2, now⟩ : BaselineRow)) ?_ _
  intro hin
  obtain ⟨⟨t, c⟩, htc, rfl⟩ := mem_map.mp hin
  exact h c htc

end Intervals

/-! ## What a write does to one source -/

/-- The events of one source of a node in one epoch. -/
def ofSource (n epoch source : String) (e : UsageEvent) : Bool :=
  e.mmNodeId == n && e.interval.epoch == epoch && e.interval.source == source

/-- The bytes of the usage events recorded for a source of a node in an epoch. -/
def MeteringDb.billed (db : MeteringDb) (n epoch source : String) : Int :=
  db.events.total (fun e => e.interval.bytes) (ofSource n epoch source)

/-- The bytes a write bills for a source in an epoch, when all its keys are fresh. -/
def written (db : MeteringDb) (n : String) (now : DateTime) (current : EgressSnapshot)
    (payer : String → Except MeteringDbError (Option (String × String))) (epoch source : String) : Int :=
  Ledger.batchTotal (fun e : UsageEvent => e.interval.bytes) (ofSource n epoch source)
    ((pollIntervals db n now current payer).map (mk n))

/-- What a poll does to one source of the reading: `row` is its baseline row afterwards
and `bytes` what is billed for it. -/
inductive SourceMove (db : MeteringDb) (n : String) (now : DateTime) (current : EgressSnapshot)
    (payer : String → Except MeteringDbError (Option (String × String))) (s : String) :
    Option BaselineRow → Int → Prop where
  | absent : current.bytes[s]? = none → SourceMove db n now current payer s (db.rowsOf n)[s]? 0
  /-- Usage that is under a megabyte or has no payer stays where it was. -/
  | held {p : EgressSnapshot} {c : Int} : baselineSnapshot (db.baselinesForNode n) = some p →
      current.bytes[s]? = some c → base p current s < c →
      (dispose n current now payer ⟨s, c - base p current s⟩).interval? = none →
      SourceMove db n now current payer s (db.rowsOf n)[s]? 0
  /-- No usage: the baseline follows the reading, wherever that is. -/
  | idle {c : Int} : (s, c) ∈ pollAdvanced db n now current payer → current.bytes[s]? = some c →
      (∀ p, baselineSnapshot (db.baselinesForNode n) = some p → c ≤ base p current s) →
      SourceMove db n now current payer s (some ⟨current.epoch, c, now⟩) 0
  | billed {p : EgressSnapshot} {c : Int} : (s, c) ∈ pollAdvanced db n now current payer →
      baselineSnapshot (db.baselinesForNode n) = some p → current.bytes[s]? = some c → 1000000 ≤ c - base p current s →
      SourceMove db n now current payer s (some ⟨current.epoch, c, now⟩) (c - base p current s)

section Move
variable {db : MeteringDb} {n : String} {now : DateTime} {current : EgressSnapshot}
  {payer : String → Except MeteringDbError (Option (String × String))} {s : String}

theorem ofSource_iff {epoch e} : ofSource n epoch s e = true ↔
    e.mmNodeId = n ∧ e.interval.epoch = epoch ∧ e.interval.source = s := by
  simp [ofSource, and_assoc]

/-- A write bills nothing in another epoch. -/
theorem written_of_ne {epoch} (h : epoch ≠ current.epoch) : written db n now current payer epoch s = 0 := by
  refine Ledger.batchTotal_eq_zero fun e he => ?_
  obtain ⟨iv, hiv, rfl⟩ := mem_map.mp he
  obtain ⟨u, -, hbills⟩ := mem_pollIntervals hiv
  rw [Bool.eq_false_iff]
  intro hsel
  exact h ((ofSource_iff.mp hsel).2.1 ▸ hbills.epoch)

theorem written_eq_zero (h : ∀ iv ∈ pollIntervals db n now current payer, iv.source ≠ s) :
    written db n now current payer current.epoch s = 0 := by
  refine Ledger.batchTotal_eq_zero fun e he => ?_
  obtain ⟨iv, hiv, rfl⟩ := mem_map.mp he
  rw [Bool.eq_false_iff]
  intro hsel
  exact h iv hiv (ofSource_iff.mp hsel).2.2

/-- A source is billed by at most one interval of a poll. -/
theorem written_eq_bytes {iv} (h : iv ∈ pollIntervals db n now current payer) :
    written db n now current payer current.epoch iv.source = iv.bytes := by
  have hnodup : (pollIntervals db n now current payer).Nodup := nodup_pollIntervals.of_map _
  have hinj : Function.Injective (mk n) := fun a b hab => (mk.inj hab).2
  obtain ⟨u, -, hbills⟩ := mem_pollIntervals h
  refine Ledger.batchTotal_eq_of_unique (a := ⟨n, iv⟩) (mem_map_of_mem h)
    (ofSource_iff.mpr ⟨rfl, hbills.epoch, rfl⟩) (hnodup.map hinj) ?_
  intro e he hsel
  obtain ⟨iv', hiv', rfl⟩ := mem_map.mp he
  rw [inj_on_of_nodup_map nodup_pollIntervals hiv' h (ofSource_iff.mp hsel).2.2]

theorem source_step_of_usage {u} (hu : u ∈ pollUsage db n current) :
    SourceMove db n now current payer u.source ((writePoll db n now current payer).rowsOf n)[u.source]?
      (written db n now current payer current.epoch u.source) := by
  obtain ⟨p, c, hp, hc, hbytes, hpos⟩ := mem_usage.mp hu
  cases hd : (dispose n current now payer u).interval? with
  | none =>
    have hno : ∀ iv ∈ pollIntervals db n now current payer, iv.source ≠ u.source := by
      intro iv hiv hsource
      obtain ⟨u', hu', hd'⟩ := mem_filterMap.mp hiv
      have hsame : u' = u :=
        inj_on_of_nodup_map (nodup_usage _ current) hu' hu ((Bills.of_dispose hd').source ▸ hsource)
      rw [hsame, hd] at hd'
      cases hd'
    rw [written_eq_zero hno, rowsOf_writePoll_of_notMem]
    · refine .held hp hc (by omega) ?_
      rw [← hbytes]
      exact hd
    · intro c' hadv
      rcases (mem_pollAdvanced.mp hadv).2 with ⟨iv, hiv, hsource⟩ | hnone
      · exact hno iv hiv hsource
      · exact hnone u hu rfl
  | some iv =>
    have hiv : iv ∈ pollIntervals db n now current payer := mem_filterMap.mpr ⟨u, hu, hd⟩
    have hbills := Bills.of_dispose hd
    have hwritten := written_eq_bytes hiv
    have hmega := hbills.megabyte
    rw [hbills.source, hbills.bytes, hbytes] at hwritten
    have hadv : (u.source, c) ∈ pollAdvanced db n now current payer :=
      mem_pollAdvanced.mpr ⟨hc, .inl ⟨iv, hiv, hbills.source⟩⟩
    rw [hwritten, rowsOf_writePoll_of_mem hadv]
    exact .billed hadv hp hc (by omega)

theorem source_step_of_noUsage {c} (hc : current.bytes[s]? = some c)
    (hnone : ∀ u ∈ pollUsage db n current, u.source ≠ s) :
    SourceMove db n now current payer s ((writePoll db n now current payer).rowsOf n)[s]?
      (written db n now current payer current.epoch s) := by
  have hno : ∀ iv ∈ pollIntervals db n now current payer, iv.source ≠ s := by
    intro iv hiv
    obtain ⟨u, hu, hbills⟩ := mem_pollIntervals hiv
    exact hbills.source ▸ hnone u hu
  have hadv : (s, c) ∈ pollAdvanced db n now current payer := mem_pollAdvanced.mpr ⟨hc, .inr hnone⟩
  rw [written_eq_zero hno, rowsOf_writePoll_of_mem hadv]
  refine .idle hadv hc fun p hp => ?_
  by_contra hlt
  exact hnone ⟨s, c - base p current s⟩ (mem_usage.mpr ⟨p, c, hp, hc, rfl, by simp only; omega⟩) rfl

section
variable (db n now current payer s)

/-- **One source through one write.** -/
theorem source_step : SourceMove db n now current payer s ((writePoll db n now current payer).rowsOf n)[s]?
      (written db n now current payer current.epoch s) := by
  by_cases husage : ∃ u ∈ pollUsage db n current, u.source = s
  · obtain ⟨u, hu, rfl⟩ := husage
    exact source_step_of_usage hu
  · have hnone : ∀ u ∈ pollUsage db n current, u.source ≠ s := fun u hu hs => husage ⟨u, hu, hs⟩
    cases hc : current.bytes[s]? with
    | some c => exact source_step_of_noUsage hc hnone
    | none =>
      have hno : ∀ iv ∈ pollIntervals db n now current payer, iv.source ≠ s := by
        intro iv hiv
        obtain ⟨u, hu, hbills⟩ := mem_pollIntervals hiv
        exact hbills.source ▸ hnone u hu
      rw [written_eq_zero hno, rowsOf_writePoll_of_notMem]
      · exact .absent hc
      · intro c hadv
        rw [(mem_pollAdvanced.mp hadv).1] at hc
        cases hc

/-- A source keeps its row and is not billed, or its row becomes the reading. -/
theorem source_cases : ((writePoll db n now current payer).rowsOf n)[s]? = (db.rowsOf n)[s]? ∧
        written db n now current payer current.epoch s = 0 ∨
      ∃ c, (s, c) ∈ pollAdvanced db n now current payer ∧ current.bytes[s]? = some c ∧
        ((writePoll db n now current payer).rowsOf n)[s]? = some ⟨current.epoch, c, now⟩ ∧
        (written db n now current payer current.epoch s = 0 ∨
          ∃ p, baselineSnapshot (db.baselinesForNode n) = some p ∧
            written db n now current payer current.epoch s = c - base p current s) := by
  have step := source_step db n now current payer s
  generalize ((writePoll db n now current payer).rowsOf n)[s]? = row at step ⊢
  generalize written db n now current payer current.epoch s = bytes at step ⊢
  cases step with
  | absent | held => exact .inl ⟨rfl, rfl⟩
  | idle hadv hc hle => exact .inr ⟨_, hadv, hc, rfl, .inl rfl⟩
  | billed hadv hp hc hmega => exact .inr ⟨_, hadv, hc, rfl, .inr ⟨_, hp, rfl⟩⟩

end

/-- A write whose keys are all fresh bills exactly what it carries. -/
theorem billed_writePoll_of_fresh
    (hdistinct : (((pollIntervals db n now current payer).map (mk n)).map key).Nodup)
    (hfresh : ∀ iv ∈ pollIntervals db n now current payer,
      (mk n iv).key ∉ db.events.rows.map key) (epoch : String) :
    (writePoll db n now current payer).billed n epoch s =
      db.billed n epoch s + written db n now current payer epoch s := by
  refine Ledger.total_postAll_of_fresh hdistinct fun e he => ?_
  obtain ⟨iv, hiv, rfl⟩ := mem_map.mp he
  exact hfresh iv hiv

/-- Whatever keys were taken, a write bills at most what it carries. -/
theorem billed_writePoll_le (epoch : String) : (writePoll db n now current payer).billed n epoch s ≤
    db.billed n epoch s + written db n now current payer epoch s := by
  refine Ledger.total_postAll_le fun e he => ?_
  obtain ⟨iv, hiv, rfl⟩ := mem_map.mp he
  obtain ⟨u, -, hbills⟩ := mem_pollIntervals hiv
  have := hbills.megabyte
  have := hbills.bytes
  simp only
  omega

end Move

end MatrixMedia.Metering
