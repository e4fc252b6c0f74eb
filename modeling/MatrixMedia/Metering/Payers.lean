import MatrixMedia.Metering.Conservation

/-!
# Bytes that nobody could pay for

`sweep_egress` moves the baseline of a source that it bills and of one without usage. A source with
usage and no payer is neither: its baseline stays, and the first poll with a payer bills everything
since (`unpaid_billed_later`). So what the first payer is billed for is decided by how far the baseline
lies behind the counter after the last poll without one: less than a megabyte or not.
-/

namespace MatrixMedia.Metering
open Lib

/-- What a poll read for a source; a source that is not reported has delivered nothing. -/
def Poll.counter (i : Poll) (source : String) : Int := (i.snapshot?.bind fun cur => cur.bytes[source]?).getD 0

def lastCounter (h : List Poll) (source : String) : Int := (h.head?.map fun i => i.counter source).getD 0

/-- A poll in this epoch whose reads and writes succeed, with counters that do not decrease. -/
def InEpoch (epoch : String) (h : List Poll) (i : Poll) : Prop :=
  (∃ cur ∈ i.snapshot?, cur.epoch = epoch ∧ ∀ sc ∈ cur.bytes.toList, 0 ≤ sc.2) ∧ i.io.commit = .committed ∧
    ∀ prev ∈ h.head?, ∀ cur ∈ prev.snapshot?, ∀ sc ∈ cur.bytes.toList, sc.2 ≤ i.counter sc.1

instance (epoch : String) (h : List Poll) (i : Poll) : Decidable (InEpoch epoch h i) := instDecidableAnd

section
variable {n s epoch : String} {h : List Poll} {db : MeteringDb} {i : Poll} {c₀ : Int}

theorem counter_of_snapshot {cur : EgressSnapshot} (hi : i.snapshot? = some cur) : i.counter s = (cur.bytes[s]?).getD 0 := by
  simp [Poll.counter, hi]

theorem InEpoch.counter_nonneg (hin : InEpoch epoch h i) : 0 ≤ i.counter s := by
  obtain ⟨⟨cur, hi, -, hnonneg⟩, -⟩ := hin
  rw [counter_of_snapshot hi]
  cases hc : cur.bytes[s]? with
  | none => exact Int.le_refl _
  | some c => exact hnonneg (s, c) (Table.mem_toList.mpr hc)

theorem InEpoch.lastCounter_le (hin : InEpoch epoch h i) : lastCounter h s ≤ i.counter s := by
  have hnonneg : 0 ≤ i.counter s := hin.counter_nonneg
  cases h with
  | nil => exact hnonneg
  | cons prev h =>
    show prev.counter s ≤ i.counter s
    unfold Poll.counter at hnonneg ⊢
    cases hcur : prev.snapshot? with
    | none => exact hnonneg
    | some cur =>
      simp only [Option.bind_some]
      cases hc : cur.bytes[s]? with
      | none => exact hnonneg
      | some c => exact hin.2.2 prev rfl cur hcur (s, c) (Table.mem_toList.mpr hc)

/-- What a poll in the epoch does to a source: its row stays and nothing is billed, or the row becomes
the counter and the bytes above the old row may be billed. -/
theorem InEpoch.poll_source (hin : InEpoch epoch h i) :
    (poll n db i).billed n epoch s ≤ db.billed n epoch s ∧ ((poll n db i).rowsOf n)[s]? = (db.rowsOf n)[s]? ∨
    position epoch ((poll n db i).rowsOf n)[s]? = i.counter s ∧ ((poll n db i).billed n epoch s ≤ db.billed n epoch s ∨
      (poll n db i).billed n epoch s ≤ db.billed n epoch s + (i.counter s - position epoch (db.rowsOf n)[s]?)) := by
  obtain ⟨⟨cur, hi, rfl, hnonneg⟩, hcommit, -⟩ := hin
  rw [poll_committed hi hcommit hnonneg]
  have hle : (writePoll db n i.now cur i.io.payer).billed n cur.epoch s ≤ _ := billed_writePoll_le cur.epoch
  rcases source_cases db n i.now cur i.io.payer s with ⟨hrow, hzero⟩ | ⟨c, -, hc, hrow, hwritten⟩
  · exact .inl ⟨by omega, hrow⟩
  · have hcounter : i.counter s = c := by rw [counter_of_snapshot hi, hc]; rfl
    rw [hrow, position_here, hcounter]
    refine .inr ⟨rfl, ?_⟩
    rcases hwritten with hzero | ⟨p, hp, hdelta⟩
    · exact .inl (by omega)
    · rw [base_eq_position hp] at hdelta
      exact .inr (by omega)

/-- A source's row never stands above its counter. -/
theorem position_le_lastCounter (run : Run (poll n) (fun h _ i => InEpoch epoch h i) .empty h db) :
    position epoch (db.rowsOf n)[s]? ≤ lastCounter h s := by
  induction run with
  | start => exact Int.le_refl _
  | @next h db i _ hin ih =>
    have hgrows : lastCounter h s ≤ i.counter s := hin.lastCounter_le
    show _ ≤ i.counter s
    rcases hin.poll_source with ⟨-, hrow⟩ | ⟨hrow, -⟩
    · rw [hrow]
      omega
    · exact Int.le_of_eq hrow

/-- Within an epoch of a node, a key tells its source. -/
theorem usageIdempotencyKey_source {s' : String} {c c'} (h : usageIdempotencyKey n epoch s c = usageIdempotencyKey n epoch s' c') :
    s = s' := by
  have hchars : s.toList ++ ':' :: (toString c).toList = s'.toList ++ ':' :: (toString c').toList := by
    simpa [usageIdempotencyKey, String.toList_append] using congrArg String.toList h
  exact String.toList_inj.mp
    (Text.append_cons_inj_right (Text.colon_notMem_toString c) (Text.colon_notMem_toString c') hchars).1

/-- No event is of the source. -/
def Unbilled (n s epoch : String) (db : MeteringDb) : Prop :=
  ∀ e ∈ db.events.rows, e.interval.source ≠ s ∧ e.key = usageIdempotencyKey n epoch e.interval.source e.interval.cumulativeBytes

theorem Unbilled.billed_eq_zero (h : Unbilled n s epoch db) : db.billed n epoch s = 0 := by
  refine Ledger.total_eq_zero fun e he => Bool.eq_false_iff.mpr fun hsel => ?_
  exact (h e he).1 (ofSource_iff.mp hsel).2.2

/-- Who is billed has a payer. -/
theorem hasPayer_of_interval {cur : EgressSnapshot} {iv : EgressInterval} (hiv : iv ∈ pollIntervals db n i.now cur i.io.payer) :
    hasPayer i.io iv.source = true := by
  obtain ⟨u, -, hu⟩ := List.mem_filterMap.mp hiv
  rw [(Bills.of_dispose hu).source, hasPayer]
  unfold dispose at hu
  cases hid : broadcastIdForSource u.source with
  | none =>
    simp only [hid] at hu
    cases hu
  | some id =>
    simp only [hid] at hu
    cases hpayer : i.io.payer id with
    | error e =>
      simp only [hpayer] at hu
      cases hu
    | ok who =>
      simp only [hpayer] at hu
      cases who with
      | none => cases hu
      | some who => simp only [hpayer]

/-- A poll without a payer bills the source nothing. -/
theorem Unbilled.poll (h : Unbilled n s epoch db) {before} (hin : InEpoch epoch before i) (hunpaid : hasPayer i.io s = false) :
    Unbilled n s epoch (poll n db i) := by
  obtain ⟨⟨cur, hi, rfl, hnonneg⟩, hcommit, -⟩ := hin
  rw [poll_committed hi hcommit hnonneg]
  intro e he
  rcases Ledger.mem_postAll he with hold | hnew
  · exact h e hold
  · obtain ⟨iv, hiv, rfl⟩ := List.mem_map.mp hnew
    obtain ⟨u, -, hbills⟩ := mem_pollIntervals hiv
    refine ⟨fun hsource => ?_, hbills.epoch ▸ hbills.key⟩
    have hpays := hasPayer_of_interval hiv
    rw [hsource, hunpaid] at hpays
    cases hpays

/-- The poll once more, now that the broadcast of the source has a payer. -/
def paid (id : String) (i : Poll) : Poll :=
  { i with io := { i.io with payer := fun id' => .ok (if id' = id then some ("payer", "eur") else none) } }

theorem paid_source {id s' : String} (hid : broadcastIdForSource s = some id) (hpays : hasPayer (paid id i).io s' = true) : s' = s := by
  unfold hasPayer at hpays
  split at hpays
  · cases hpays
  · rename_i id' hid'
    have hname {x y} (h : broadcastIdForSource x = some y) : x = "stream-" ++ y :=
      Text.stripPrefix_eq_some.mp (Option.filter_eq_some_iff.mp h).1
    by_cases heq : id' = id
    · rw [hname hid', hname hid, heq]
    · simp [paid, heq] at hpays

/-- That poll bills all that lies between the source's row and its counter. -/
theorem Unbilled.billed_paid {id} (h : Unbilled n s epoch db) {before} (hin : InEpoch epoch before i) (hid : broadcastIdForSource s = some id)
    (hbaseline : (baselineSnapshot (db.baselinesForNode n)).isSome) (hmega : 1000000 ≤ i.counter s - position epoch (db.rowsOf n)[s]?)
    (hposition : 0 ≤ position epoch (db.rowsOf n)[s]?) :
    (Metering.poll n db (paid id i)).billed n epoch s = i.counter s - position epoch (db.rowsOf n)[s]? := by
  obtain ⟨⟨cur, hi, rfl, hnonneg⟩, hcommit, -⟩ := hin
  have honly : ∀ iv ∈ pollIntervals db n i.now cur (paid id i).io.payer, iv.source = s := fun iv hiv =>
    paid_source hid (hasPayer_of_interval (i := paid id i) hiv)
  rw [poll_committed (i := paid id i) hi hcommit hnonneg, billed_writePoll_of_fresh, h.billed_eq_zero, Int.zero_add]
  · obtain ⟨p, hp⟩ := Option.isSome_iff_exists.mp hbaseline
    rw [counter_of_snapshot hi, ← base_eq_position hp] at hmega
    rw [← base_eq_position hp] at hposition
    rw [counter_of_snapshot hi, ← base_eq_position hp]
    have step := source_step db n (paid id i).now cur (paid id i).io.payer s
    generalize ((writePoll db n (paid id i).now cur (paid id i).io.payer).rowsOf n)[s]? = row at step
    generalize written db n (paid id i).now cur (paid id i).io.payer cur.epoch s = bytes at step ⊢
    cases step with
    | absent hc =>
      rw [hc, Option.getD_none] at hmega
      omega
    | held hq hc _ hd =>
      obtain rfl := Option.some.inj (hq.symm.trans hp)
      rw [hc, Option.getD_some] at hmega
      have hpays : (paid id i).io.payer id = .ok (some ("payer", "eur")) := by simp [paid]
      have := dispose_held (u := ⟨s, _⟩) hid hpays hd
      dsimp only at this
      omega
    | idle _ hc hle =>
      rw [hc, Option.getD_some] at hmega
      have := hle p hp
      omega
    | billed _ hq hc _ =>
      obtain rfl := Option.some.inj (hq.symm.trans hp)
      rw [hc, Option.getD_some]
  · rw [List.map_map]
    refine List.Nodup.map_on (fun a ha b hb _ => ?_) (nodup_pollIntervals.of_map _)
    exact List.inj_on_of_nodup_map nodup_pollIntervals ha hb ((honly a ha).trans (honly b hb).symm)
  · intro iv hiv hmem
    obtain ⟨e, he, hkey⟩ := List.mem_map.mp hmem
    obtain ⟨u, -, hbills⟩ := mem_pollIntervals hiv
    obtain ⟨hother, hform⟩ := h e he
    refine hother ?_
    rw [hform, show (UsageEvent.mk n iv).key = iv.idempotencyKey from rfl, hbills.key, hbills.epoch] at hkey
    exact (usageIdempotencyKey_source hkey).trans (honly iv hiv)

/-- The rows of the node are of the epoch. -/
def RowsIn (n epoch : String) (db : MeteringDb) : Prop :=
  ∀ (s : String) (r : BaselineRow), (db.rowsOf n)[s]? = some r → r.epoch = epoch ∧ 0 ≤ r.cumulativeBytes

theorem RowsIn.position_nonneg (h : RowsIn n epoch db) : 0 ≤ position epoch (db.rowsOf n)[s]? := by
  cases hrow : (db.rowsOf n)[s]? with
  | none => exact Int.le_refl _
  | some r =>
    obtain ⟨hepoch, hnonneg⟩ := h s r hrow
    rwa [position_of_eq hepoch]

theorem RowsIn.poll (h : RowsIn n epoch db) {before} (hin : InEpoch epoch before i) : RowsIn n epoch (poll n db i) := by
  obtain ⟨⟨cur, hi, rfl, hnonneg⟩, hcommit, -⟩ := hin
  rw [poll_committed hi hcommit hnonneg]
  intro s r hr
  rcases source_cases db n i.now cur i.io.payer s with ⟨hrow, -⟩ | ⟨c, -, hc, hrow, -⟩
  · exact h s r (hrow ▸ hr)
  · obtain rfl := Option.some.inj (hr.symm.trans hrow)
    exact ⟨rfl, hnonneg (s, c) (Table.mem_toList.mpr hc)⟩

/-- They form a baseline as soon as there is one. -/
theorem RowsIn.baselined (h : RowsIn n epoch db) {r} (hrow : (db.rowsOf n)[s]? = some r) :
    (baselineSnapshot (db.baselinesForNode n)).isSome := by
  have hmem : ⟨s, r.epoch, r.cumulativeBytes, r.observedAt⟩ ∈ db.baselinesForNode n :=
    List.mem_map.mpr ⟨(s, r), Table.mem_toList.mpr hrow, rfl⟩
  have hsame : ∀ b ∈ db.baselinesForNode n, b.epoch = epoch := by
    intro b hb
    obtain ⟨⟨t, r⟩, ht, rfl⟩ := List.mem_map.mp hb
    exact (h t r (Table.mem_toList.mp ht)).1
  generalize db.baselinesForNode n = rows at hmem hsame ⊢
  cases rows with
  | nil => cases hmem
  | cons first rest =>
    rw [baselineSnapshot, if_neg]
    · rfl
    · intro hany
      obtain ⟨b, hb, hne⟩ := List.any_eq_true.mp hany
      simp [hsame b hb, hsame first List.mem_cons_self] at hne

/-- A source whose row lies behind its counter after a poll was held back, so there was a baseline. -/
theorem RowsIn.behind (h : RowsIn n epoch db) {before} (hin : InEpoch epoch before i)
    (hbehind : position epoch ((Metering.poll n db i).rowsOf n)[s]? < i.counter s) :
    (baselineSnapshot ((Metering.poll n db i).baselinesForNode n)).isSome := by
  have hrows := h.poll hin
  have hnonneg' : 0 ≤ position epoch ((Metering.poll n db i).rowsOf n)[s]? := hrows.position_nonneg
  obtain ⟨⟨cur, hi, rfl, hnonneg⟩, hcommit, -⟩ := hin
  rw [counter_of_snapshot hi] at hbehind
  rw [poll_committed hi hcommit hnonneg] at hrows hbehind hnonneg' ⊢
  have step := source_step db n i.now cur i.io.payer s
  generalize hrow : ((writePoll db n i.now cur i.io.payer).rowsOf n)[s]? = row at step hbehind hnonneg'
  generalize written db n i.now cur i.io.payer cur.epoch s = bytes at step
  cases step with
  | absent hc =>
    rw [hc, Option.getD_none] at hbehind
    omega
  | held hp =>
    cases hstored : db.baselinesForNode n with
    | nil => exact nomatch hstored ▸ hp
    | cons first rest =>
      obtain ⟨⟨t, r⟩, ht, -⟩ := List.mem_map.mp (hstored ▸ List.mem_cons_self : first ∈ db.baselinesForNode n)
      rcases source_cases db n i.now cur i.io.payer t with ⟨hkept, -⟩ | ⟨c, -, -, hmoved, -⟩
      · exact hrows.baselined (hkept.trans (Table.mem_toList.mp ht))
      · exact hrows.baselined hmoved
  | idle | billed => exact hrows.baselined hrow

end

/-- **Bytes delivered while nobody could pay are not billed later**, but for less than a megabyte,
exactly if less than a megabyte of the source's counter lies above its baseline after the last poll
without a payer. -/
theorem unpaid_not_billed {n s epoch id : String} {before : List Poll} {last : Poll} {db : MeteringDb}
    (hid : broadcastIdForSource s = some id) (run : Run (poll n) (fun h _ i => InEpoch epoch h i) .empty (last :: before) db)
    (hunpaid : ∀ i ∈ last :: before, hasPayer i.io s = false) :
    (∀ after db', Run (poll n) (fun h _ i => InEpoch epoch h i) .empty (after ++ last :: before) db' →
      db'.billed n epoch s < lastCounter (after ++ last :: before) s - last.counter s + 1000000) ↔
    last.counter s - position epoch (db.rowsOf n)[s]? < 1000000 := by
  have hunbilled {h : List Poll} {db : MeteringDb} (run : Run (poll n) (fun h _ i => InEpoch epoch h i) .empty h db)
      (hunpaid : ∀ i ∈ h, hasPayer i.io s = false) : Unbilled n s epoch db ∧ RowsIn n epoch db := by
    induction run with
    | start => exact ⟨nofun, nofun⟩
    | next _ hin ih =>
      obtain ⟨hhead, hrest⟩ := List.forall_mem_cons.mp hunpaid
      exact ⟨(ih hrest).1.poll hin hhead, (ih hrest).2.poll hin⟩
  obtain ⟨hnone, hrows⟩ := hunbilled run hunpaid
  constructor
  · intro hbound
    refine Int.not_le.mp fun hmega => ?_
    have hbaseline : (baselineSnapshot (db.baselinesForNode n)).isSome := by
      cases run with
      | next run hin => exact (hunbilled run fun i hi => hunpaid i (List.mem_cons_of_mem _ hi)).2.behind (s := s) hin (by omega)
    have hin : InEpoch epoch (last :: before) (paid id last) := by
      cases run with
      | next _ hin =>
        refine ⟨hin.1, hin.2.1, fun prev hprev cur hcur sc hsc => ?_⟩
        cases hprev
        rw [counter_of_snapshot (i := paid id last) hcur, Table.mem_toList.mp hsc]
        exact Int.le_refl _
    have hbilled := hbound [paid id last] _ (.next run hin)
    have hcounter : lastCounter ([paid id last] ++ last :: before) s = last.counter s := rfl
    rw [hnone.billed_paid (by cases run; assumption) hid hbaseline hmega hrows.position_nonneg] at hbilled
    omega
  · intro hless after db' run'
    -- What is billed from here on lies between this baseline and the one it has then.
    suffices h : db'.billed n epoch s ≤ position epoch (db'.rowsOf n)[s]? - position epoch (db.rowsOf n)[s]? by
      have := position_le_lastCounter (s := s) run'
      omega
    induction after generalizing db' with
    | nil =>
      obtain rfl : db' = db := by rw [← run.eq_foldr, ← run'.eq_foldr]; rfl
      rw [hnone.billed_eq_zero]
      omega
    | cons i after ih =>
      cases run' with
      | next run' hin =>
        have hbilled := ih _ run'
        have hposition := Int.le_trans (position_le_lastCounter (s := s) run') hin.lastCounter_le
        rcases hin.poll_source with ⟨hle, hrow⟩ | ⟨hrow, hle⟩
        · rw [hrow]
          omega
        · rw [hrow]
          omega

/-- A poll of one source; its broadcast has a payer or not. -/
def countedPoll (payer : Option (String × String)) (bytes : Int) : Poll :=
  ⟨0, none, .ok ⟨"e1", 0, 28, [⟨"stream-a", bytes⟩]⟩, fun _ => .ok payer, .committed⟩

theorem unpaid_not_billed_quiet : hasPayer (countedPoll none 5400000).io "stream-a" = false ∧ ∀ after db',
    Run (poll "node") (fun h _ i => InEpoch "e1" h i) .empty (after ++ [countedPoll none 5400000, countedPoll none 5000000]) db' →
      db'.billed "node" "e1" "stream-a" < lastCounter (after ++ [countedPoll none 5400000, countedPoll none 5000000]) "stream-a" -
        (countedPoll none 5400000).counter "stream-a" + 1000000 :=
  have run : Run (poll "node") (fun h _ i => InEpoch "e1" h i) .empty [countedPoll none 5400000, countedPoll none 5000000] _ :=
    .next (.next .start (by decide +kernel)) (by decide +kernel)
  ⟨by decide +kernel, (unpaid_not_billed (by decide +kernel : broadcastIdForSource "stream-a" = some "a") run (by decide +kernel)).mpr (by decide +kernel)⟩

/-- Five megabytes are delivered without a payer and one with: six are billed. -/
theorem unpaid_billed_later :
    Run (poll "node") (fun h _ i => InEpoch "e1" h i) .empty
      [countedPoll (some ("user", "eur")) 6000000, countedPoll none 5000000, countedPoll none 0]
      (pollAll "node" [countedPoll (some ("user", "eur")) 6000000, countedPoll none 5000000, countedPoll none 0]) ∧
    (pollAll "node" [countedPoll (some ("user", "eur")) 6000000, countedPoll none 5000000, countedPoll none 0]).billed
      "node" "e1" "stream-a" = 6000000 :=
  ⟨.next (.next (.next .start (by decide +kernel)) (by decide +kernel)) (by decide +kernel), by decide +kernel⟩

end MatrixMedia.Metering
