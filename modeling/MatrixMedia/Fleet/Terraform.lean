import MatrixMedia.Fleet.Rewanted

/-!
# What Terraform is told after a teardown

A tick deletes the desired row of a node before its machine, and renders the file from
the desired table afterwards, so the file should never name a machine that was destroyed.
The render goes through the shrink guard: when a broadcast ends that had more than the
allowed share of the file, the write is refused and the file keeps naming its destroyed
nodes (`refused_render_names_destroyed`). `file_clean` is the law for the ticks that stay
within the guard whenever they tear down a node the file names. The planning loop needs
one lemma, `survives_planned`: which rows are still there when every live broadcast has
replaced its own.
-/

namespace MatrixMedia.Fleet
open Lib Lib.Chrono List

/-- The file names no node whose teardown succeeded. -/
def FileClean (w : World) : Prop := ∀ id, .tornDown id ∈ w.trace → w.file.entry id = none

/-- Every database, provider and file operation of the step succeeds, and the census lists
each broadcast once. -/
def Succeeds : FleetStep → Prop
  | .tick _ _ io => io.AllOk ∧ ∀ live, io.liveBroadcasts = .ok live →
      (live.map fun bc => bc.1.broadcastId).Nodup ∧ ∀ bc ∈ live, bc.2.upsert = .done
  | .report _ _ => True
  | _ => False

/-! ## The rows a tick leaves -/

/-- The broadcasts a tick plans. -/
def plannedBy (mode : FleetMode) (live : List (LiveBroadcast × PlanIo)) : List (LiveBroadcast × PlanIo) :=
  if mode = .on then live else []

/-- Will this tick leave a desired row under this name? Either a plan wants the node, or its
row is there, its broadcast did not end, and no plan replaces the rows of its broadcast. -/
def survives (r : FleetRunner) (w : World) (mode : FleetMode) (live : List (LiveBroadcast × PlanIo)) (id : NodeId) :
    Bool :=
  (plannedBy mode live).any (fun bc => ((r.wantIds w.loadNodes bc).getD []).contains id) ||
    match w.desired[id]? with
    | none => false
    | some row => !endsNow w live id && (plannedBy mode live).all fun bc =>
        (r.wantIds w.loadNodes bc).isNone || row.broadcastId != some bc.1.broadcastId

section PlanLoop
variable {r : FleetRunner} {nodes : List ObservedNode} {id : NodeId}

/-- A row that no later plan removes: there is one, and its broadcast is not planned any more. -/
def SafeRow (r : FleetRunner) (nodes : List ObservedNode) (id : NodeId) (rest : List (LiveBroadcast × PlanIo))
    (w : World) : Prop :=
  ∃ row, w.desired[id]? = some row ∧
    ∀ bc ∈ rest, (r.wantIds nodes bc).isSome → row.broadcastId ≠ some bc.1.broadcastId

/-- One round of the planning loop, over a node that is safe or still to be planned. -/
theorem planRound_keeps {bc rest}
    (hdistinct : ∀ bc' ∈ rest, bc'.1.broadcastId ≠ bc.1.broadcastId) (hdone : bc.2.upsert = .done) {w}
    (now : DateTime)
    (h : (∃ bc' ∈ bc :: rest, id ∈ (r.wantIds nodes bc').getD []) ∨ SafeRow r nodes id (bc :: rest) w) :
    (∃ bc' ∈ rest, id ∈ (r.wantIds nodes bc').getD []) ∨
      SafeRow r nodes id rest (r.planOne w bc.1 nodes now bc.2).1 := by
  cases hids : r.wantIds nodes bc with
  | none =>
    have hsame : (r.planOne w bc.1 nodes now bc.2).1 = w := by
      rcases planOne_cases r w bc nodes now with hsame | ⟨ids, hsome, -⟩
      · exact hsame
      · rw [hids] at hsome
        cases hsome
    rw [hsame]
    rcases h with ⟨bc', hmem, hid⟩ | ⟨row, hrow, hothers⟩
    · rcases mem_cons.mp hmem with rfl | hmem
      · rw [hids] at hid
        cases hid
      · exact .inl ⟨bc', hmem, hid⟩
    · exact .inr ⟨row, hrow, fun bc' hmem => hothers bc' (mem_cons_of_mem _ hmem)⟩
  | some ids =>
    have hreplaces := planOne_done r w nodes now hids hdone
    by_cases hid : id ∈ ids
    · -- The plan wrote the row: it now belongs to this broadcast, and no later one is the same.
      obtain ⟨row, hrow, hb⟩ := hreplaces.written id hid
      refine .inr ⟨row, hrow, ?_⟩
      intro bc' hmem _ hsame
      rw [hb] at hsame
      exact hdistinct bc' hmem (Option.some.inj hsame).symm
    · rcases h with ⟨bc', hmem, hwanted⟩ | ⟨row, hrow, hothers⟩
      · rcases mem_cons.mp hmem with rfl | hmem
        · rw [hids] at hwanted
          exact absurd hwanted hid
        · exact .inl ⟨bc', hmem, hwanted⟩
      · have hother := hothers bc mem_cons_self (by rw [hids]; rfl)
        refine .inr ⟨row, ?_, fun bc' hmem => hothers bc' (mem_cons_of_mem _ hmem)⟩
        rw [hreplaces.others id hid, hrow]
        simp [hother]

theorem planLoop_keeps {live : List (LiveBroadcast × PlanIo)}
    (hdistinct : (live.map fun bc => bc.1.broadcastId).Nodup) (hdone : ∀ bc ∈ live, bc.2.upsert = .done)
    (now : DateTime) (acc : World × TickReport)
    (h : (∃ bc ∈ live, id ∈ (r.wantIds nodes bc).getD []) ∨ SafeRow r nodes id live acc.1) :
    ((live.foldl (r.planAll nodes now) acc).1.desired[id]?).isSome := by
  induction live generalizing acc with
  | nil =>
    rcases h with ⟨bc, hbc, -⟩ | ⟨row, hrow, -⟩
    · cases hbc
    · rw [foldl_nil, hrow]
      rfl
  | cons bc rest ih =>
    obtain ⟨hnew, hrest⟩ := nodup_cons.mp hdistinct
    rw [foldl_cons]
    refine ih hrest (fun bc' hmem => hdone bc' (mem_cons_of_mem _ hmem)) _ ?_
    rw [planAll_fst]
    refine planRound_keeps ?_ (hdone bc mem_cons_self) now h
    intro bc' hmem hsame
    exact hnew (mem_map.mpr ⟨bc', hmem, hsame⟩)

end PlanLoop

variable {ids : List NodeId} {live : List (LiveBroadcast × PlanIo)} {acc : World × TickReport} {mode : FleetMode} {io : TickIo}
  {w : World} {threshold : Rat}

/-- A surviving name has a row after the tick's teardowns and plans. -/
theorem survives_planned {r : FleetRunner}
    (hdistinct : (live.map fun bc => bc.1.broadcastId).Nodup) (hdone : ∀ bc ∈ live, bc.2.upsert = .done)
    (now : DateTime)
    (hothers : ∀ id, endsNow w live id = false → acc.1.desired[id]? = w.desired[id]?)
    {id} (h : survives r w mode live id = true) :
    (((plannedBy mode live).foldl (r.planAll w.loadNodes now) acc).1.desired[id]?).isSome := by
  have hsub : (plannedBy mode live).Sublist live := by
    unfold plannedBy
    split
    · exact List.Sublist.refl _
    · exact nil_sublist _
  refine planLoop_keeps ((hsub.map _).nodup hdistinct) (fun bc hbc => hdone bc (hsub.subset hbc)) now acc ?_
  rcases Bool.or_eq_true_iff.mp h with hwanted | hrow
  · obtain ⟨bc, hbc, hid⟩ := any_eq_true.mp hwanted
    exact .inl ⟨bc, hbc, contains_iff_mem.mp hid⟩
  · right
    split at hrow
    · cases hrow
    · rename_i row hfound
      rw [Bool.and_eq_true, Bool.not_eq_true', all_eq_true] at hrow
      refine ⟨row, (hothers id hrow.1).trans hfound, ?_⟩
      intro bc hbc hplanned hsame
      have hfree := hrow.2 bc hbc
      rw [hsame, Option.isNone_eq_false_iff.mpr hplanned] at hfree
      simp at hfree

/-! ## The guard -/

/-- The names of the file that this tick lets go of. -/
def letGo (r : FleetRunner) (w : World) (mode : FleetMode) (live : List (LiveBroadcast × PlanIo)) (current : Tfvars) :
    List NodeId :=
  current.keys.filter fun id => !survives r w mode live id

/-- A tick that tears down a node the file names lets go of no more names than the guard allows. -/
def WithinGuard (r : FleetRunner) (threshold : Rat) (w : World) (mode : FleetMode)
    (live : List (LiveBroadcast × PlanIo)) : Prop :=
  ∀ current, w.file = .present current → (∃ id ∈ current.keys, endsNow w live id = true) →
    (letGo r w mode live current).length ≤ current.size * threshold

/-- A guarded render writes the desired set, or refuses a shrink and leaves the file. -/
theorem render_guarded {r : FleetRunner} (hr : r.tfvars = some threshold)
    (hreload : io.reload = none) (hwrite : io.write = none) (acc : World × TickReport)
    (hreadable : ∀ message, acc.1.file ≠ .unparsable message) :
    (r.renderTfvars acc false io).1.file = .present (Tfvars.fromRows acc.1.loadAll) ∨
      (r.renderTfvars acc false io).1.file = acc.1.file ∧ ∃ current, acc.1.file.readCurrent = .ok current ∧
        isShrink threshold current (Tfvars.fromRows acc.1.loadAll) = true := by
  unfold FleetRunner.renderTfvars TfFile.write
  simp only [hr, hreload, hwrite, Bool.false_eq_true, if_false]
  cases hcurrent : acc.1.file.readCurrent with
  | error e =>
    cases hfile : acc.1.file with
    | unparsable message => exact absurd hfile (hreadable message)
    | absent | present =>
      rw [hfile] at hcurrent
      cases hcurrent
  | ok current =>
    dsimp only
    by_cases hshrink : isShrink threshold current (Tfvars.fromRows acc.1.loadAll) = true
    · rw [if_pos hshrink]
      exact .inr ⟨rfl, current, rfl, hshrink⟩
    · rw [if_neg hshrink]
      exact .inl rfl

/-- A write that removes only names the tick lets go of passes the guard. -/
theorem isShrink_eq_false {current next : Tfvars} {gone}
    (hgone : ∀ id, next.contains id = false → gone id = true)
    (hwithin : (current.keys.filter gone).length ≤ current.size * threshold) :
    isShrink threshold current next = false := by
  have hle : (removedNames current next).length ≤ (current.keys.filter gone).length := by
    rw [removedNames, ← countP_eq_length_filter, ← countP_eq_length_filter]
    refine countP_mono_left ?_
    intro id _ hid
    exact hgone id (by simpa using hid)
  unfold isShrink
  rw [Bool.and_eq_false_iff]
  right
  rw [decide_eq_false_iff_not, Rat.not_lt]
  exact Rat.le_trans (Rat.natCast_le_natCast.mpr hle) hwithin

/-! ## Runs of ticks -/

/-- Has a teardown of this node succeeded? -/
def wasTornDown (trace : List Effect) (id : NodeId) : Bool := trace.contains (.tornDown id)

/-- The condition on a tick that is not Off and knows what is live: its plans want nothing
again that was torn down before or is torn down now, and it stays within the guard. -/
def KeepsFileClean (r : FleetRunner) (threshold : Rat) (w : World) : FleetStep → Prop
  | .tick mode _ io => mode ≠ .off → ∀ live, io.liveBroadcasts = .ok live →
      (mode = .on → Calm r w live fun id => wasTornDown w.trace id || endsNow w live id) ∧
        WithinGuard r threshold w mode live
  | _ => True

/-- What every tick keeps: a torn-down node has its row, is not desired and is not in the file. -/
structure TornApart (w : World) : Prop where
  readable : ∀ message, w.file ≠ .unparsable message
  known : ∀ id, .tornDown id ∈ w.trace → (w.nodes[id]?).isSome
  undesired : ∀ id, .tornDown id ∈ w.trace → w.desired[id]? = none
  clean : FileClean w

/-- The same, before the render: only what was torn down earlier is known not to be in the file. -/
structure TornRows (w w' : World) (ids : List NodeId) : Prop where
  file : w'.file = w.file
  known : ∀ id, .tornDown id ∈ w'.trace → (w'.nodes[id]?).isSome
  undesired : ∀ id, .tornDown id ∈ w'.trace → w'.desired[id]? = none
  torn : ∀ id, .tornDown id ∈ w'.trace → .tornDown id ∈ w.trace ∨ id ∈ ids

/-- Tearing down nodes that may be reaped, every operation succeeding. -/
theorem TornApart.after_drain (h : TornApart w) (now : DateTime)
    (hio : TeardownsOk io.teardown) (sel : ObservedNode → Bool) (hsel : ∀ n, sel n = true → n.isReapableNow = true)
    (report : TickReport) :
    TornRows w (drain w now io sel report).1 ((w.loadNodes.filter sel).map ObservedNode.mmNodeId) := by
  have hdrained := foldl_drained (tearDown_tearsDown now io.teardown) (w.loadNodes.filter sel) (w, report)
  have htorn : ∀ id, .tornDown id ∈ (drain w now io sel report).1.trace →
      .tornDown id ∈ w.trace ∨ id ∈ (w.loadNodes.filter sel).map ObservedNode.mmNodeId :=
    fun id => hdrained.torn (.inr rfl)
  refine ⟨hdrained.file, ?_, ?_, htorn⟩
  · intro id hid
    rcases htorn id hid with hold | hnew
    · exact hdrained.known id (h.known id hold)
    · exact hdrained.known id (selected_known w sel id hnew)
  · intro id hid
    rcases htorn id hid with hold | hnew
    · exact hdrained.gone id (h.undesired id hold)
    · obtain ⟨n, hn, rfl⟩ := mem_map.mp hnew
      have hreapable := (isReapableNow_iff.mp (hsel n (mem_filter.mp hn).2)).1
      exact drain_torn hio hn (by rw [hreapable]; rfl) _

/-- Planning what no plan wants again. -/
theorem TornRows.planned {r : FleetRunner} {nodes now}
    (h : TornRows w acc.1 ids)
    (hfresh : ∀ bc ∈ live, ∀ want, r.wantIds nodes bc = some want → ∀ id ∈ want, .tornDown id ∉ acc.1.trace) :
    TornRows w (live.foldl (r.planAll nodes now) acc).1 ids := by
  have hloop := planLoop_induction (P := fun w' => TornRows w w' ids ∧
    ∀ id, Effect.tornDown id ∈ w'.trace → Effect.tornDown id ∈ acc.1.trace) r nodes now live acc
    ⟨h, fun _ hid => hid⟩ ?_
  · exact hloop.1
  · intro w₁ bc want w₂ hbc hwant hreplaces ⟨hrows, hback⟩
    have hold : ∀ id, Effect.tornDown id ∈ w₂.trace → Effect.tornDown id ∈ w₁.trace :=
      fun id => hreplaces.old_effect fun _ => Effect.noConfusion
    refine ⟨⟨hreplaces.file.trans hrows.file, ?_, ?_, fun id hid => hrows.torn id (hold id hid)⟩,
      fun id hid => hback id (hold id hid)⟩
    · intro id hid
      rw [hreplaces.nodes]
      exact hrows.known id (hold id hid)
    · intro id hid
      have hunwanted : id ∉ want := fun hmem => hfresh bc hbc want hwant id hmem (hback id (hold id hid))
      rw [hreplaces.others id hunwanted, hrows.undesired id (hold id hid)]
      rfl

/-- A node without a desired row is not in the rendered map. -/
theorem entry_fromRows_none {id} (h : w.desired[id]? = none) :
    (TfFile.present (Tfvars.fromRows w.loadAll)).entry id = none := by
  show (Tfvars.fromRows w.loadAll)[id]? = none
  rw [getElem?_fromRows, h]
  rfl

/-- A render that wrote the desired set. -/
theorem TornRows.written {r : FleetRunner} {allowShrink}
    (h : TornRows w acc.1 ids)
    (hfile : (r.renderTfvars acc allowShrink io).1.file = .present (Tfvars.fromRows acc.1.loadAll)) :
    TornApart (r.renderTfvars acc allowShrink io).1 := by
  obtain ⟨hdesired, hnodes, htrace⟩ := renderTfvars_frame r acc allowShrink io
  refine ⟨?_, ?_, ?_, ?_⟩
  · intro message
    rw [hfile]
    exact TfFile.noConfusion
  · rw [htrace, hnodes]
    exact h.known
  · rw [htrace, hdesired]
    exact h.undesired
  · intro id hid
    rw [htrace] at hid
    rw [hfile]
    exact entry_fromRows_none (h.undesired id hid)

/-- A render that was refused, when the file names nothing that was torn down just now. -/
theorem TornRows.refused {r : FleetRunner} {allowShrink}
    (h : TornRows w acc.1 ids) (hw : TornApart w) (hids : ∀ id ∈ ids, w.file.entry id = none)
    (hfile : (r.renderTfvars acc allowShrink io).1.file = acc.1.file) :
    TornApart (r.renderTfvars acc allowShrink io).1 := by
  obtain ⟨hdesired, hnodes, htrace⟩ := renderTfvars_frame r acc allowShrink io
  rw [h.file] at hfile
  refine ⟨?_, ?_, ?_, ?_⟩
  · rw [hfile]
    exact hw.readable
  · rw [htrace, hnodes]
    exact h.known
  · rw [htrace, hdesired]
    exact h.undesired
  · intro id hid
    rw [htrace] at hid
    rw [hfile]
    rcases h.torn id hid with hold | hnew
    · exact hw.clean id hold
    · exact hids id hnew

theorem mem_keys_of_entry {current : Tfvars} {id} (h : (TfFile.present current).entry id ≠ none) :
    id ∈ current.keys := by
  rw [Std.TreeMap.mem_keys, Std.TreeMap.mem_iff_isSome_getElem?]
  exact Option.isSome_iff_ne_none.mpr h

/-- A guarded tick after its teardowns and plans. -/
theorem render_tornApart {r : FleetRunner} (hr : r.tfvars = some threshold)
    (hw : TornApart w) (hio : io.AllOk)
    (hguard : WithinGuard r threshold w mode live)
    (hrows : TornRows w acc.1
      ((w.loadNodes.filter (isEnded w.desired (live.map fun bc => bc.1.broadcastId))).map ObservedNode.mmNodeId))
    (hsurvive : ∀ id, survives r w mode live id = true → (acc.1.desired[id]?).isSome) :
    TornApart (r.renderTfvars acc false io).1 := by
  rcases render_guarded hr hio.reload hio.write acc (hrows.file ▸ hw.readable) with
    hfile | ⟨hfile, current, hcurrent, hshrink⟩
  · exact hrows.written hfile
  · refine hrows.refused hw ?_ hfile
    intro id hid
    -- Were the ended node in the file, the tick would be within the guard, and not refused.
    by_contra hentry
    cases hold : w.file with
    | absent =>
      rw [hold] at hentry
      exact hentry rfl
    | unparsable message => exact hw.readable message hold
    | present names =>
      rw [hrows.file, hold] at hcurrent
      obtain rfl : names = current := Except.ok.inj hcurrent
      rw [hold] at hentry
      have hwithin := hguard names hold ⟨id, mem_keys_of_entry hentry, contains_iff_mem.mpr hid⟩
      rw [isShrink_eq_false ?_ hwithin] at hshrink
      · cases hshrink
      · intro k hk
        rw [Bool.not_eq_true', ← Bool.not_eq_true]
        intro hsurvives
        obtain ⟨row, hrow⟩ := Option.isSome_iff_exists.mp (hsurvive k hsurvives)
        rw [Std.TreeMap.contains_eq_isSome_getElem?, getElem?_fromRows, hrow] at hk
        cases hk

theorem tick_tornApart {r : FleetRunner} (hr : r.tfvars = some threshold)
    (hw : TornApart w) {now} (hok : Succeeds (.tick mode now io))
    (hkeeps : KeepsFileClean r threshold w (.tick mode now io)) : TornApart (r.tick w mode now io).1 := by
  obtain ⟨hio, hcensus⟩ := hok
  rcases tick_cases r w mode now io with heq | ⟨report, -, heq⟩ | ⟨live, report, hmode, hlive, heq⟩
  · rwa [heq]
  · rw [heq]
    exact (hw.after_drain now hio.teardown _ (fun _ h => h) report).written (render_allowed hr hio.reload hio.write _)
  · rw [heq]
    obtain ⟨hdistinct, hdone⟩ := hcensus live hlive
    obtain ⟨hcalm, hguard⟩ := hkeeps hmode live hlive
    have hdrain := hw.after_drain now hio.teardown
      (isEnded w.desired (live.map fun bc => bc.1.broadcastId)) (fun n h => isEnded_reapable h) report
    refine render_tornApart hr hw hio hguard (hdrain.planned ?_) ?_
    · intro bc hbc want hwant id hid htorn
      by_cases hon : mode = .on
      · rw [if_pos hon] at hbc
        exact Calm.unwanted Effect.tornDown (hcalm hon) hw.known hbc hwant hid (hdrain.torn id htorn)
      · rw [if_neg hon] at hbc
        cases hbc
    · intro id hsurvives
      refine survives_planned hdistinct hdone now ?_ hsurvives
      intro id' hends
      refine (foldl_drained (tearDown_tearsDown now io.teardown) _ (w, report)).others id' ?_
      rw [endsNow, ← Bool.not_eq_true, contains_iff_mem] at hends
      exact hends

/-- **Terraform is never told to want a destroyed machine**, in every run of ticks and
reports that stays calm and within the guard. -/
theorem file_clean {r : FleetRunner} {threshold : Rat} (hr : r.tfvars = some threshold) {w₀ : World}
    (hstart : w₀.trace = []) (hreadable : ∀ message, w₀.file ≠ .unparsable message) {h : List FleetStep} {w : World}
    (run : Run (fleetStep r) (fun _ w step => Succeeds step ∧ KeepsFileClean r threshold w step) w₀ h w) :
    FileClean w := by
  have hnone : ∀ id, Effect.tornDown id ∉ w₀.trace := by
    intro id hid
    rw [hstart] at hid
    cases hid
  refine (run.invariant (I := fun _ w => TornApart w) ⟨hreadable, fun id hid => absurd hid (hnone id),
    fun id hid => absurd hid (hnone id), fun id hid => absurd hid (hnone id)⟩ ?_).clean
  rintro h w step - ⟨hok, hkeeps⟩ hw
  cases step with
  | tick mode now io => exact tick_tornApart hr hw hok hkeeps
  | sweepDeadlines | sweepOrphans => exact hok.elim
  | report id row =>
    exact ⟨hw.readable, fun id' hid' => Table.isSome_insert id row (hw.known id' hid'), hw.undesired, hw.clean⟩

/-- Broadcasts `a` and `b` with one Healthy node each. -/
def twoWorld : World :=
  { servingWorld 10 with
    desired := (servingWorld 10).desired.insert "bc-a-fanout-0" { servingDesired with broadcastId := some "a" }
    nodes := (servingWorld 10).nodes.insert "bc-a-fanout-0" { servingRow 10 with providerId := some "srv-1" } }

/-- A tick in which everything succeeds while these broadcasts are on air, with 10 viewers each. -/
def onAirIo (broadcasts : List String) : TickIo :=
  { quietIo with liveBroadcasts := .ok (broadcasts.map fun b => (⟨b, 10⟩, ⟨.ok fundedBilling, .ok true, .done⟩)) }

theorem onAirIo_succeeds {broadcasts : List String} (hdistinct : broadcasts.Nodup) (mode : FleetMode)
    (now : DateTime) : Succeeds (.tick mode now (onAirIo broadcasts)) := by
  refine ⟨⟨rfl, rfl, fun _ => ⟨rfl, rfl, rfl⟩, rfl, rfl⟩, ?_⟩
  rintro live ⟨⟩
  refine ⟨?_, ?_⟩
  · rw [map_map]
    exact hdistinct.map fun a b h => h
  · intro bc hbc
    obtain ⟨b, -, rfl⟩ := mem_map.mp hbc
    rfl

/-- One of the two broadcasts ends: half of the file goes, which the guard allows. -/
def oneEnded : World :=
  fleetStep renderingRunner (fleetStep renderingRunner twoWorld (.tick .on (seconds 60) (onAirIo ["a", "b"])))
    (.tick .on (seconds 120) (onAirIo ["a"]))

theorem file_clean_one_ended : FileClean oneEnded ∧ .tornDown "bc-b-fanout-0" ∈ oneEnded.trace ∧
    (oneEnded.file.entry "bc-a-fanout-0").isSome = true := by
  have run : Run (fleetStep renderingRunner)
      (fun _ w step => Succeeds step ∧ KeepsFileClean renderingRunner (1 / 2) w step) twoWorld
      [.tick .on (seconds 120) (onAirIo ["a"]), .tick .on (seconds 60) (onAirIo ["a", "b"])] oneEnded := by
    refine .next (.next .start ⟨onAirIo_succeeds (by decide) _ _, ?_⟩) ⟨onAirIo_succeeds (by decide) _ _, ?_⟩
    · rintro - live ⟨⟩
      refine ⟨fun _ => by decide +kernel, ?_⟩
      intro current hfile
      cases hfile
    · rintro - live ⟨⟩
      refine ⟨fun _ => by decide +kernel, ?_⟩
      intro current hfile _
      obtain rfl := TfFile.present.inj hfile
      decide +kernel
  exact ⟨file_clean rfl rfl (fun message => TfFile.noConfusion) run, by decide +kernel, by decide +kernel⟩

/-- The only broadcast on air ends. -/
def allEnded : World :=
  fleetStep renderingRunner (fleetStep renderingRunner (servingWorld 10) (.tick .on (seconds 60) (onAirIo ["b"])))
    (.tick .on (seconds 120) (onAirIo []))

/-- Its node is destroyed, the guard refuses the empty file, and Terraform still wants the node. -/
theorem refused_render_names_destroyed :
    Succeeds (.tick .on (seconds 60) (onAirIo ["b"])) ∧ Succeeds (.tick .on (seconds 120) (onAirIo [])) ∧
    .tornDown "bc-b-fanout-0" ∈ allEnded.trace ∧ (allEnded.file.entry "bc-b-fanout-0").isSome = true ∧
    ¬ FileClean allEnded := by
  have htorn : Effect.tornDown "bc-b-fanout-0" ∈ allEnded.trace := by decide +kernel
  have hnamed : (allEnded.file.entry "bc-b-fanout-0").isSome = true := by decide +kernel
  refine ⟨onAirIo_succeeds (by decide) _ _, onAirIo_succeeds (by decide) _ _, htorn, hnamed, ?_⟩
  intro hclean
  rw [hclean _ htorn] at hnamed
  cases hnamed

end MatrixMedia.Fleet
