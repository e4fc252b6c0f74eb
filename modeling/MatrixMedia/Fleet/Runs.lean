import MatrixMedia.Fleet.Tick

/-!
# Runs of the fleet loops, and what they destroy

A run is any sequence of runner ticks, sweeps and node reports over the shared tables.
`only_reapable_destroyed`: every call of `provider.destroy` is for a machine whose row is
rented and not Gone, or for a listed instance of no row that is old enough. The teardown
paths rest on the selectors, since a loop reaches each node with its row as it was read
(`foldl_teardown_induction`); the orphan path rests on the rows read before the listing.
-/

namespace MatrixMedia.Fleet
open Lib Lib.Chrono ObservedNode List

inductive FleetStep where
  | tick (mode : FleetMode) (now : DateTime) (io : TickIo)
  | sweepDeadlines (increment : BillingIncrement) (now : DateTime) (loadNodes : Option String)
      (io : NodeId → TeardownIo)
  | sweepOrphans (now : DateTime) (minAge : Duration) (io : OrphanIo)
  /-- A node's row is written: it registers, or reports a new state. -/
  | report (id : NodeId) (row : NodeRow)

section
variable (r : FleetRunner)

def fleetStep (w : World) : FleetStep → World
  | .tick mode now io => (r.tick w mode now io).1
  | .sweepDeadlines increment now loadNodes io => (sweepDeadlines w increment now loadNodes io).1
  | .sweepOrphans now minAge io => (sweepOrphans w now minAge io).1
  | .report id row => { w with nodes := w.nodes.insert id row }

/-! ## The shape of a tick -/

/-- The world after tearing down the nodes `sel` selects. -/
def drain (w : World) (now : DateTime) (io : TickIo) (sel : ObservedNode → Bool) (report : TickReport) :
    World × TickReport :=
  (w.loadNodes.filter sel).foldl (tearDown now io.teardown) (w, report)

/-- Everything a tick can do: nothing, the kill switch, or releasing ended broadcasts and,
in mode On, planning the live ones. -/
theorem tick_cases (w : World) (mode : FleetMode) (now : DateTime) (io : TickIo) :
    (r.tick w mode now io).1 = w ∨
    (∃ report, mode = .off ∧
      (r.tick w mode now io).1 = (r.renderTfvars (drain w now io isReapableNow report) true io).1) ∨
    ∃ live report, mode ≠ .off ∧ io.liveBroadcasts = .ok live ∧
      (r.tick w mode now io).1 = (r.renderTfvars
        ((if mode = .on then live else []).foldl (r.planAll w.loadNodes now)
          (drain w now io (isEnded w.desired (live.map fun bc => bc.1.broadcastId)) report)) false io).1 := by
  unfold FleetRunner.tick
  cases io.loadNodes with
  | some e => exact .inl rfl
  | none =>
    cases io.loadAll with
    | some e => exact .inl rfl
    | none =>
      cases mode with
      | off => exact .inr (.inl ⟨_, rfl, rfl⟩)
      | on | frozen =>
        cases hlive : io.liveBroadcasts with
        | error e => exact .inl rfl
        | ok live => exact .inr (.inr ⟨live, _, by decide, rfl, rfl⟩)

theorem nodup_selected (w : World) (sel : ObservedNode → Bool) :
    ((w.loadNodes.filter sel).map mmNodeId).Nodup :=
  (filter_sublist.map _).nodup (nodup_loadNodes w)

/-- A property that planning cannot break survives the planning loop. -/
theorem planLoop_induction (nodes : List ObservedNode) (now : DateTime) {P : World → Prop}
    (live : List (LiveBroadcast × PlanIo)) (acc : World × TickReport) (init : P acc.1)
    (step : ∀ w bc ids w', bc ∈ live → r.wantIds nodes bc = some ids → Replaces w bc.1.broadcastId ids w' → P w → P w') :
    P (live.foldl (r.planAll nodes now) acc).1 := by
  refine List.foldlRecOn (motive := fun x : World × TickReport => P x.1) live _ init ?_
  intro acc' hP bc hbc
  rw [planAll_fst]
  rcases planOne_cases r acc'.1 bc nodes now with hsame | ⟨ids, hids, hreplaces⟩
  · rwa [hsame]
  · exact step _ bc ids _ hbc hids hreplaces hP

/-! ## Only reapable machines are destroyed -/

/-- No two node rows hold one provider id. -/
def UniqueProviders (w : World) : Prop :=
  ∀ m ∈ w.loadNodes, ∀ n ∈ w.loadNodes, ∀ p, m.providerId = some p → n.providerId = some p → m = n

/-- The call is for a machine whose one row is rented and not Gone. -/
def CallsReapable (c : DestroyCall) : Prop :=
  ∃ n ∈ c.nodes, n.providerId = some c.providerId ∧ n.ownership = .rented ∧ n.state ≠ .gone ∧
    ∀ m ∈ c.nodes, m.providerId = some c.providerId → m = n

/-- The call is for an instance of no row, listed with a known creation time at least
`minAge` in the past. -/
def CallsOrphan (c : DestroyCall) : Prop :=
  (∀ m ∈ c.nodes, m.providerId ≠ some c.providerId) ∧
    ∃ h ∈ c.listed, h.providerId = c.providerId ∧ ∃ t, h.createdAt = some t ∧ t ≤ c.now ∧ c.minAge ≤ c.now - t

/-- Every destroy call so far was for a machine we may destroy. -/
def AllJustified (trace : List Effect) : Prop := ∀ c, .destroy c ∈ trace → CallsReapable c ∨ CallsOrphan c

/-- Node rows that differ in nothing but their state. -/
def SameButState (w w' : World) : Prop :=
  ∀ id : NodeId, (w'.nodes[id]?).map (fun row => { row with state := .gone }) =
    (w.nodes[id]?).map (fun row => { row with state := .gone })

theorem SameButState.of_tearsDown {w w' t now} (h : TearsDown w t now w') :
    SameButState w w' := by
  intro id
  by_cases hid : id = t.mmNodeId
  · subst hid
    rcases h.node with heq | ⟨row, state, hrow, heq⟩
    · rw [heq]
    · rw [heq, hrow]
      rfl
  · rw [h.nodes id hid]

/-- The provider id of a row outlives every teardown. -/
theorem SameButState.observed {w w' : World} (h : SameButState w w') {n : ObservedNode} (hn : n ∈ w'.loadNodes) :
    ∃ m ∈ w.loadNodes, m.mmNodeId = n.mmNodeId ∧ m.providerId = n.providerId := by
  obtain ⟨row', hrow', hof⟩ := mem_loadNodes.mp hn
  have hsame := h n.mmNodeId
  rw [hrow', Option.map_some] at hsame
  obtain ⟨row, hrow, hforget⟩ := Option.map_eq_some_iff.mp hsame.symm
  have hprovider : row.providerId = row'.providerId := (congrArg NodeRow.providerId hforget :)
  refine ⟨_, mem_loadNodes_of_row hrow, rfl, ?_⟩
  rw [← hof]
  simp only [ofRow, hprovider]

theorem SameButState.unique {w w'} (h : SameButState w w') (hunique : UniqueProviders w) :
    UniqueProviders w' := by
  intro m hm n hn p hmp hnp
  obtain ⟨m₀, hm₀, hmid, hmprovider⟩ := h.observed hm
  obtain ⟨n₀, hn₀, hnid, hnprovider⟩ := h.observed hn
  have hsame := hunique m₀ hm₀ n₀ hn₀ p (hmprovider.trans hmp) (hnprovider.trans hnp)
  apply loadNodes_inj hm hn
  rw [← hmid, ← hnid, hsame]

/-- A loop that tears down reapable nodes of the table it read makes only justified calls. -/
theorem foldl_teardown_justified {ρ : Type} {f now}
    (hf : ∀ acc n, TearsDown acc.1 n.teardownTarget now (f acc n).1) (w : World) (sel : ObservedNode → Bool)
    (hsel : ∀ n, sel n = true → n.ownership = .rented ∧ n.state ≠ .gone) (report : ρ) (hunique : UniqueProviders w)
    (htrace : AllJustified w.trace) :
    SameButState w ((w.loadNodes.filter sel).foldl f (w, report)).1 ∧
      AllJustified ((w.loadNodes.filter sel).foldl f (w, report)).1.trace := by
  refine foldl_teardown_induction (P := fun w' => SameButState w w' ∧ AllJustified w'.trace) hf
    (nodup_selected w sel) (w, report) ⟨fun _ => rfl, htrace⟩ ?_
  intro acc n hn hnode _ ⟨hsame, hjustified⟩
  obtain ⟨hloaded, hselected⟩ := mem_filter.mp hn
  obtain ⟨hrented, hstate⟩ := hsel n hselected
  have hstep := hf acc n
  refine ⟨fun id => (SameButState.of_tearsDown hstep id).trans (hsame id), ?_⟩
  intro c hc
  obtain ⟨effects, htr, heffects⟩ := hstep.trace
  rw [htr, mem_append] at hc
  rcases hc with hnew | hold
  · left
    cases heffects _ hnew with
    | @called providerId hprovider =>
      -- The row is as the loop read it, so the observed node is still in the table.
      have hhere : n ∈ acc.1.loadNodes := by
        obtain ⟨row, hrow, hof⟩ := mem_loadNodes.mp hloaded
        exact mem_loadNodes.mpr ⟨row, hnode.trans hrow, hof⟩
      refine ⟨n, hhere, hprovider, hrented, hstate, ?_⟩
      intro m hm hmp
      exact hsame.unique hunique m hm n hhere providerId hmp hprovider
  · exact hjustified c hold

theorem isReapableNow_iff {n : ObservedNode} :
    n.isReapableNow = true ↔ n.ownership = .rented ∧ n.state ≠ .gone := by
  rw [isReapableNow, Bool.and_eq_true, bne_iff_ne]
  cases n.ownership <;> simp [Ownership.isReapable]

theorem isEnded_reapable {desired live} {n : ObservedNode}
    (h : isEnded desired live n = true) : n.isReapableNow = true := by
  unfold isEnded at h
  split at h
  · cases h
  · exact (Bool.and_eq_true _ _ ▸ h).2

theorem tick_justified (w : World) (mode : FleetMode) (now : DateTime) (io : TickIo)
    (hunique : UniqueProviders w) (htrace : AllJustified w.trace) :
    SameButState w (r.tick w mode now io).1 ∧ AllJustified (r.tick w mode now io).1.trace := by
  have hdrain : ∀ sel report,
      (∀ n, sel n = true → n.isReapableNow = true) →
      SameButState w (drain w now io sel report).1 ∧ AllJustified (drain w now io sel report).1.trace :=
    fun sel report hsel => foldl_teardown_justified (tearDown_tearsDown now io.teardown) w sel
      (fun n hn => isReapableNow_iff.mp (hsel n hn)) report hunique htrace
  have hrender : ∀ acc allowShrink,
      SameButState w acc.1 ∧ AllJustified acc.1.trace →
      SameButState w (r.renderTfvars acc allowShrink io).1 ∧
        AllJustified (r.renderTfvars acc allowShrink io).1.trace := by
    intro acc allowShrink ⟨hsame, hjustified⟩
    obtain ⟨-, hnodes, htr⟩ := renderTfvars_frame r acc allowShrink io
    refine ⟨fun id => ?_, by rw [htr]; exact hjustified⟩
    rw [hnodes]
    exact hsame id
  rcases tick_cases r w mode now io with heq | ⟨report, -, heq⟩ | ⟨live, report, -, -, heq⟩
  · rw [heq]
    exact ⟨fun _ => rfl, htrace⟩
  · rw [heq]
    exact hrender _ _ (hdrain _ report fun _ h => h)
  · rw [heq]
    apply hrender
    refine planLoop_induction (P := fun w' => SameButState w w' ∧ AllJustified w'.trace) r w.loadNodes now _ _ (hdrain _ report fun _ h => isEnded_reapable h) ?_
    intro w₁ bc ids w₂ _ _ hreplaces ⟨hsame, hjustified⟩
    refine ⟨fun id => by rw [hreplaces.nodes]; exact hsame id, ?_⟩
    intro c hc
    obtain ⟨effects, htr, heffects⟩ := hreplaces.trace
    rw [htr, mem_append] at hc
    rcases hc with hnew | hold
    · obtain ⟨id, -, hwrote⟩ := heffects _ hnew
      cases hwrote
    · exact hjustified c hold

theorem sweepDeadlines_justified (w : World) (increment : BillingIncrement) (now : DateTime)
    (loadNodes : Option String) (io : NodeId → TeardownIo) (hunique : UniqueProviders w)
    (htrace : AllJustified w.trace) :
    SameButState w (sweepDeadlines w increment now loadNodes io).1 ∧
      AllJustified (sweepDeadlines w increment now loadNodes io).1.trace := by
  cases loadNodes with
  | some e => exact ⟨fun _ => rfl, htrace⟩
  | none =>
    refine foldl_teardown_justified (sweepOne_tearsDown increment now io) w _ ?_ {} hunique htrace
    intro n hn
    simp only [Bool.and_eq_true, bne_iff_ne] at hn
    refine ⟨?_, hn.1.2⟩
    have hreapable := hn.1.1
    cases hown : n.ownership <;> simp [hown, Ownership.isReapable] at hreapable
    rfl

/-- The orphan sweep leaves the tables alone, and calls only for orphans. -/
theorem sweepOrphans_justified (w : World) (now : DateTime) (minAge : Duration) (io : OrphanIo)
    (htrace : AllJustified w.trace) :
    (sweepOrphans w now minAge io).1.nodes = w.nodes ∧ AllJustified (sweepOrphans w now minAge io).1.trace := by
  unfold sweepOrphans
  cases io.loadNodes with
  | some e => exact ⟨rfl, htrace⟩
  | none =>
    cases hlist : io.list with
    | error e => exact ⟨rfl, htrace⟩
    | ok listed =>
      dsimp only
      refine List.foldlRecOn (motive := fun x : World × SweepReport => x.1.nodes = w.nodes ∧ AllJustified x.1.trace) _ _
        ⟨rfl, htrace⟩ ?_
      intro acc ⟨hnodes, hjustified⟩ id hid
      obtain ⟨hat, hunknown⟩ := mem_filter.mp hid
      obtain ⟨handle, hhandle, hpid⟩ := mem_map.mp hat
      obtain ⟨hlisted, hold⟩ := mem_filter.mp hhandle
      have horphan : CallsOrphan ⟨id, acc.1.loadNodes, listed, now, minAge⟩ := by
        constructor
        · intro m hm hmp
          have hload : acc.1.loadNodes = w.loadNodes := by rw [World.loadNodes, World.loadNodes, hnodes]
          rw [Bool.not_eq_true', contains_eq_any_beq, any_eq_false] at hunknown
          exact hunknown id (mem_filterMap.mpr ⟨m, hload ▸ hm, hmp⟩) (beq_self_eq_true id)
        · refine ⟨handle, hlisted, hpid, ?_⟩
          unfold oldEnough at hold
          split at hold
          · rename_i t ht
            simp only [Bool.and_eq_true, decide_eq_true_eq] at hold
            exact ⟨t, ht, hold.2, hold.1⟩
          · cases hold
      have hlogged : AllJustified (acc.1.log (.destroy ⟨id, acc.1.loadNodes, listed, now, minAge⟩)).trace := by
        intro c hc
        rcases mem_cons.mp hc with heq | hc
        · cases heq
          exact .inr horphan
        · exact hjustified c hc
      unfold destroyOrphan
      dsimp only
      split
      · exact ⟨hnodes, hlogged⟩
      · exact ⟨hnodes, hlogged⟩

/-- Reports keep the provider ids of the node table unique. -/
def KeepsProvidersUnique (_ : List FleetStep) (w : World) : FleetStep → Prop
  | .report id row => UniqueProviders { w with nodes := w.nodes.insert id row }
  | _ => True

/-- **Only reapable machines are destroyed**, and an orphan sweep that cannot read our
nodes or the listing destroys nothing. -/
theorem only_reapable_destroyed {w₀ : World} (hstart : w₀.trace = [])
    (hunique : UniqueProviders w₀) :
    (∀ h w, Run (fleetStep r) KeepsProvidersUnique w₀ h w → AllJustified w.trace) ∧
      ∀ w now minAge io, (io.loadNodes ≠ none ∨ ∃ e, io.list = .error e) →
        (sweepOrphans w now minAge io).1.trace = w.trace := by
  constructor
  · intro h w run
    refine (run.invariant (I := fun _ w => UniqueProviders w ∧ AllJustified w.trace) ⟨hunique, ?_⟩ ?_).2
    · intro c hc
      rw [hstart] at hc
      cases hc
    · rintro h w step - hadmitted ⟨hunique, htrace⟩
      cases step with
      | tick mode now io =>
        obtain ⟨hsame, hjustified⟩ := tick_justified r w mode now io hunique htrace
        exact ⟨hsame.unique hunique, hjustified⟩
      | sweepDeadlines increment now loadNodes io =>
        obtain ⟨hsame, hjustified⟩ := sweepDeadlines_justified w increment now loadNodes io hunique htrace
        exact ⟨hsame.unique hunique, hjustified⟩
      | sweepOrphans now minAge io =>
        obtain ⟨hnodes, hjustified⟩ := sweepOrphans_justified w now minAge io htrace
        exact ⟨SameButState.unique (fun id => congrArg (Option.map _ ·[id]?) hnodes) hunique, hjustified⟩
      | report id row => exact ⟨hadmitted, htrace⟩
  · rintro w now minAge io (hread | ⟨e, hlist⟩)
    · unfold sweepOrphans
      cases hload : io.loadNodes with
      | none => exact absurd hload hread
      | some e => rfl
    · unfold sweepOrphans
      cases io.loadNodes with
      | none => simp only [hlist]
      | some e => rfl

end

/-- An orphan that has run for an hour. -/
def orphanIo : OrphanIo := ⟨none, .ok [⟨"srv-0", none, some 0⟩, ⟨"srv-9", none, some 0⟩], fun _ => .ok ()⟩

/-- The orphan sweep finds `srv-9`, the kill switch tears down `srv-0`. -/
theorem only_reapable_destroyed_both :
    AllJustified (fleetStep renderingRunner (fleetStep renderingRunner (servingWorld 200)
      (.sweepOrphans (seconds 3600) (seconds 600) orphanIo)) (.tick .off (seconds 3700) quietIo)).trace ∧
    ((fleetStep renderingRunner (fleetStep renderingRunner (servingWorld 200)
      (.sweepOrphans (seconds 3600) (seconds 600) orphanIo)) (.tick .off (seconds 3700) quietIo)).trace.filterMap
        fun e => match e with
          | .destroy c => some c.providerId
          | _ => none) = ["srv-0", "srv-9"] := by
  have hunique : UniqueProviders (servingWorld 200) := by
    intro m hm n hn p _ _
    have hload : (servingWorld 200).loadNodes = [ofRow "bc-b-fanout-0" (servingRow 200)] := by
      decide +kernel
    rw [hload, mem_singleton] at hm hn
    rw [hm, hn]
  exact ⟨(only_reapable_destroyed renderingRunner rfl hunique).1 _ _ (.next (.next .start trivial) trivial),
    by decide +kernel⟩

end MatrixMedia.Fleet
