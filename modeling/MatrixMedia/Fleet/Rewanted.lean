import MatrixMedia.Fleet.Runs

/-!
# Torn-down nodes stay torn down

Once a teardown has deleted a node's desired row, no later plan should want the node
again. A plan re-states every fan-out node that is not Gone, including one that a failed
teardown left Destroying, and orders the transcode node under one fixed id. Where no
planned broadcast has such a node (`Calm`), a torn-down id is never written again
(`never_rewanted`): new ordinals are past every ordinal in the node table, and node rows
are never deleted.
-/

namespace MatrixMedia.Fleet
open Lib Lib.Text Lib.Chrono Lib.U32 List

/-! ## The orphan sweep -/

/-- The orphan sweep touches no table. -/
theorem sweepOrphans_drained (w : World) (now : DateTime) (minAge : Duration) (io : OrphanIo) :
    Drained w [] (sweepOrphans w now minAge io).1 := by
  have hrefl : Drained w [] w :=
    ⟨rfl, fun _ h => h, fun _ h => h, fun _ _ => rfl, [], rfl, nofun⟩
  unfold sweepOrphans
  cases io.loadNodes with
  | some e => exact hrefl
  | none =>
    cases io.list with
    | error e => exact hrefl
    | ok listed =>
      dsimp only
      refine List.foldlRecOn (motive := fun x : World × SweepReport => Drained w [] x.1) _ _ hrefl ?_
      intro acc hdrained id _
      refine hdrained.trans ?_
      have hcall : Drained acc.1 [] (acc.1.log (.destroy ⟨id, acc.1.loadNodes, listed, now, minAge⟩)) := by
        refine ⟨rfl, fun _ h => h, fun _ h => h, fun _ _ => rfl, [_], rfl, ?_⟩
        intro e he
        exact .inr ⟨_, mem_singleton.mp he⟩
      unfold destroyOrphan
      dsimp only
      split
      · exact hcall
      · exact hcall

/-! ## Which plans want a torn node again -/

/-- Planning from `obs` wants no node of `torn` again: it has no such fan-out node that is
not Gone, would not order such a transcode node, and its ordinals stay clear of `u32::MAX`. -/
structure CalmPlan (policy : FleetPolicy) (torn : NodeId → Bool) (obs : FleetObservation) : Prop where
  kept : ∀ n ∈ obs.nodes, n.flavor = .fanout → n.state ≠ .gone → torn n.id = false
  transcode : PassesGates obs → obs.transcodeEnabled = true → obs.hasTranscodeNode = false →
    torn (transcodeId obs.broadcastId) = false
  ordinals : OrdinalsFit obs policy.maxFanoutNodesPerBroadcast.toNat

instance (policy : FleetPolicy) (torn : NodeId → Bool) (obs : FleetObservation) :
    Decidable (CalmPlan policy torn obs) :=
  decidable_of_iff (_ ∧ _ ∧ _)
    ⟨fun ⟨a, b, c⟩ => ⟨a, b, c⟩, fun ⟨a, b, c⟩ => ⟨a, b, c⟩⟩

/-- No live broadcast that can be planned wants a node of `torn` again. -/
def Calm (r : FleetRunner) (w : World) (live : List (LiveBroadcast × PlanIo)) (torn : NodeId → Bool) : Prop :=
  ∀ bc ∈ live, ∀ obs ∈ planObservation w.loadNodes bc, CalmPlan r.policy torn obs

instance (r : FleetRunner) (w : World) (live : List (LiveBroadcast × PlanIo)) (torn : NodeId → Bool) :
    Decidable (Calm r w live torn) :=
  inferInstanceAs (Decidable (∀ bc ∈ live, _))

theorem startsWith_fanoutId (broadcastId : String) (o : UInt32) :
    startsWith (broadcastStem broadcastId) (fanoutId broadcastId o) = true := by
  refine startsWith_iff.mpr ⟨"fanout-" ++ o.toNat.repr, ?_⟩
  apply String.toList_inj.mp
  simp [fanoutId, fanoutStem, broadcastStem, String.toList_append]

variable {live : List (LiveBroadcast × PlanIo)} {r : FleetRunner} {ids : List NodeId} {id : NodeId} {w : World}

theorem mem_nodesForBroadcast {broadcastId} (hknown : (w.nodes[id]?).isSome)
    (hstem : startsWith (broadcastStem broadcastId) id = true) :
    ∃ n ∈ nodesForBroadcast w.loadNodes broadcastId, n.id = id := by
  obtain ⟨row, hrow⟩ := Option.isSome_iff_exists.mp hknown
  exact ⟨_, mem_map.mpr ⟨_, mem_filter.mpr ⟨mem_loadNodes_of_row hrow, hstem⟩, rfl⟩, rfl⟩

/-- A calm plan wants no torn node, if every torn node still has its row. -/
theorem wantIds_not_torn {torn}
    (hcalm : Calm r w live torn) (hknown : ∀ id, torn id = true → (w.nodes[id]?).isSome)
    {bc} (hbc : bc ∈ live) (hids : r.wantIds w.loadNodes bc = some ids)
    (hid : id ∈ ids) : torn id = false := by
  obtain ⟨obs, hobs, hb, hnodes, rfl⟩ := wantIds_eq_some hids
  have hplan := hcalm bc hbc obs hobs
  obtain ⟨d, hd, rfl⟩ := mem_map.mp hid
  rcases mem_plan.mp hd with hkept | ⟨hgates, hfanout | htranscode⟩
  · obtain ⟨n, hn, hflavor, hstate, rfl⟩ := mem_keptNodes.mp hkept
    exact hplan.kept n hn hflavor hstate
  · obtain ⟨j, hj, rfl⟩ := mem_orderFanout.mp hfanout
    rw [toNat_min] at hj
    have hroom := room_le obs r.policy
    -- A torn node is in the node table under its id, so its ordinal has been counted.
    by_contra htorn
    have hrow := hknown _ (Bool.not_eq_false _ ▸ htorn)
    obtain ⟨n, hn, hnid⟩ := mem_nodesForBroadcast hrow (startsWith_fanoutId _ _)
    rw [hb, ← hnodes] at hn
    exact ordered_fresh hplan.ordinals (by omega) r.policy.maxFanoutNodesPerBroadcast.toNat_lt hn hnid
  · obtain ⟨henabled, hnone, rfl⟩ := mem_orderedTranscode.mp htranscode
    exact hplan.transcode hgates henabled hnone

/-- The nodes a loop selects from the table have rows. -/
theorem selected_known (w : World) (sel : ObservedNode → Bool) (id : NodeId)
    (hid : id ∈ (w.loadNodes.filter sel).map ObservedNode.mmNodeId) : (w.nodes[id]?).isSome := by
  obtain ⟨n, hn, rfl⟩ := mem_map.mp hid
  obtain ⟨row, hrow, -⟩ := mem_loadNodes.mp (mem_filter.mp hn).1
  rw [hrow]
  rfl

/-- Does this tick tear the node down because its broadcast ended? -/
def endsNow (w : World) (live : List (LiveBroadcast × PlanIo)) (id : NodeId) : Bool :=
  ((w.loadNodes.filter (isEnded w.desired (live.map fun bc => bc.1.broadcastId))).map ObservedNode.mmNodeId).contains id

/-- In a calm tick, no plan wants a node that bears the mark already or that the tick tears down. -/
theorem Calm.unwanted (mark : NodeId → Effect)
    (hcalm : Calm r w live fun id => w.trace.contains (mark id) || endsNow w live id)
    (hknown : ∀ id, mark id ∈ w.trace → (w.nodes[id]?).isSome) {bc} (hbc : bc ∈ live)
    (hids : r.wantIds w.loadNodes bc = some ids) (hid : id ∈ ids) :
    ¬ (mark id ∈ w.trace ∨
      id ∈ (w.loadNodes.filter (isEnded w.desired (live.map fun bc => bc.1.broadcastId))).map ObservedNode.mmNodeId) := by
  have hfresh := wantIds_not_torn hcalm ?_ hbc hids hid
  · rw [Bool.or_eq_false_iff, endsNow] at hfresh
    rintro (hold | hnew)
    · rw [contains_iff_mem.mpr hold] at hfresh
      cases hfresh.1
    · rw [contains_iff_mem.mpr hnew] at hfresh
      cases hfresh.2
  · intro id htorn
    rcases Bool.or_eq_true_iff.mp htorn with hold | hnew
    · exact hknown id (contains_iff_mem.mp hold)
    · exact selected_known w _ id (contains_iff_mem.mp hnew)

/-! ## The trace -/

/-- No desired row was written for a node after a teardown deleted its row. -/
def NeverRewanted : List Effect → Prop
  | [] => True
  | .wroteDesired node :: past => .droppedDesired node ∉ past ∧ NeverRewanted past
  | _ :: past => NeverRewanted past

instance NeverRewanted.instDecidable : (trace : List Effect) → Decidable (NeverRewanted trace)
  | [] => isTrue trivial
  | .wroteDesired _ :: past =>
    have := NeverRewanted.instDecidable past
    inferInstanceAs (Decidable (_ ∧ _))
  | .droppedDesired _ :: past => NeverRewanted.instDecidable past
  | .destroy _ :: past => NeverRewanted.instDecidable past
  | .tornDown _ :: past => NeverRewanted.instDecidable past

/-- Has a teardown deleted the desired row of this node? -/
def wasDropped (trace : List Effect) (id : NodeId) : Bool := trace.contains (.droppedDesired id)

theorem NeverRewanted.of_drain {past effects}
    (heffects : ∀ e ∈ effects, DrainEffect ids e) (h : NeverRewanted past) : NeverRewanted (effects ++ past) := by
  induction effects with
  | nil => exact h
  | cons e effects ih =>
    have hrest := ih fun e' he' => heffects e' (mem_cons_of_mem _ he')
    rcases heffects e mem_cons_self with ⟨id, -, rfl | rfl⟩ | ⟨call, rfl⟩
    · exact hrest
    · exact hrest
    · exact hrest

theorem NeverRewanted.of_writes {past effects}
    (heffects : ∀ e ∈ effects, ∃ id ∈ ids, e = .wroteDesired id) (hids : ∀ id ∈ ids, .droppedDesired id ∉ past)
    (h : NeverRewanted past) : NeverRewanted (effects ++ past) := by
  induction effects with
  | nil => exact h
  | cons e effects ih =>
    have hrest := fun e' he' => heffects e' (mem_cons_of_mem _ he')
    obtain ⟨id, hid, rfl⟩ := heffects e mem_cons_self
    refine ⟨?_, ih hrest⟩
    intro hdropped
    rcases mem_append.mp hdropped with hnew | hold
    · obtain ⟨id', -, heq⟩ := hrest _ hnew
      cases heq
    · exact hids id hid hold

/-- What every step keeps: nothing was wanted again, and what was torn down has its row. -/
structure NothingRewanted (w : World) : Prop where
  never : NeverRewanted w.trace
  known : ∀ id, .droppedDesired id ∈ w.trace → (w.nodes[id]?).isSome

theorem NothingRewanted.of_drained {w' : World} (h : NothingRewanted w) (hd : Drained w ids w')
    (hids : ∀ id ∈ ids, (w.nodes[id]?).isSome) : NothingRewanted w' ∧
      ∀ id, .droppedDesired id ∈ w'.trace → .droppedDesired id ∈ w.trace ∨ id ∈ ids := by
  have hdropped : ∀ id, Effect.droppedDesired id ∈ w'.trace → Effect.droppedDesired id ∈ w.trace ∨ id ∈ ids :=
    fun id => hd.torn (.inl rfl)
  refine ⟨⟨?_, ?_⟩, hdropped⟩
  · obtain ⟨effects, htrace, heffects⟩ := hd.trace
    rw [htrace]
    exact h.never.of_drain heffects
  · intro id hid
    rcases hdropped id hid with hold | hnew
    · exact hd.known id (h.known id hold)
    · exact hd.known id (hids id hnew)

/-- The plans of an On tick want nothing again that was torn down before or is torn down now. -/
def CalmStep (r : FleetRunner) (_ : List FleetStep) (w : World) : FleetStep → Prop
  | .tick .on _ io =>
    match io.liveBroadcasts with
    | .ok live => Calm r w live fun id => wasDropped w.trace id || endsNow w live id
    | .error _ => True
  | _ => True

/-- The planning loop, when no plan wants what was torn down. -/
theorem planLoop_nothingRewanted {nodes} (now : DateTime)
    {acc} (h : NothingRewanted acc.1)
    (hfresh : ∀ bc ∈ live, ∀ ids, r.wantIds nodes bc = some ids → ∀ id ∈ ids, .droppedDesired id ∉ acc.1.trace) :
    NothingRewanted (live.foldl (r.planAll nodes now) acc).1 := by
  have hloop := planLoop_induction (P := fun w => NothingRewanted w ∧
    ∀ id, Effect.droppedDesired id ∈ w.trace → Effect.droppedDesired id ∈ acc.1.trace) r nodes now live acc
    ⟨h, fun _ hid => hid⟩ ?_
  · exact hloop.1
  · intro w bc ids w' hbc hids hreplaces ⟨hnothing, hback⟩
    have hdropped : ∀ id, Effect.droppedDesired id ∈ w'.trace → Effect.droppedDesired id ∈ w.trace :=
      fun id => hreplaces.old_effect fun _ => Effect.noConfusion
    refine ⟨⟨?_, ?_⟩, fun id hid => hback id (hdropped id hid)⟩
    · obtain ⟨effects, htrace, heffects⟩ := hreplaces.trace
      rw [htrace]
      exact hnothing.never.of_writes heffects fun id hid hold => hfresh bc hbc ids hids id hid (hback id hold)
    · intro id hid
      rw [hreplaces.nodes]
      exact hnothing.known id (hdropped id hid)

theorem tick_nothingRewanted {h mode now io} (hcalm : CalmStep r h w (.tick mode now io)) (hw : NothingRewanted w) :
    NothingRewanted (r.tick w mode now io).1 := by
  have hdrain : ∀ sel report,
      NothingRewanted (drain w now io sel report).1 ∧
        ∀ id, .droppedDesired id ∈ (drain w now io sel report).1.trace →
          .droppedDesired id ∈ w.trace ∨ id ∈ (w.loadNodes.filter sel).map ObservedNode.mmNodeId :=
    fun sel report => hw.of_drained (foldl_drained (tearDown_tearsDown now io.teardown) _ (w, report))
      (selected_known w sel)
  have hrender : ∀ acc allowShrink, NothingRewanted acc.1 →
      NothingRewanted (r.renderTfvars acc allowShrink io).1 := by
    intro acc allowShrink hacc
    obtain ⟨-, hnodes, htrace⟩ := renderTfvars_frame r acc allowShrink io
    exact ⟨htrace ▸ hacc.never, by rw [htrace, hnodes]; exact hacc.known⟩
  rcases tick_cases r w mode now io with heq | ⟨report, -, heq⟩ | ⟨live, report, -, hlive, heq⟩
  · rwa [heq]
  · rw [heq]
    exact hrender _ _ (hdrain _ report).1
  · rw [heq]
    apply hrender
    obtain ⟨hnothing, hdropped⟩ := hdrain (isEnded w.desired (live.map fun bc => bc.1.broadcastId)) report
    by_cases hmode : mode = .on
    · subst hmode
      rw [if_pos rfl]
      simp only [CalmStep, hlive] at hcalm
      refine planLoop_nothingRewanted now hnothing ?_
      intro bc hbc ids hids id hid hdrop
      exact Calm.unwanted Effect.droppedDesired hcalm hw.known hbc hids hid (hdropped id hdrop)
    · rw [if_neg hmode]
      exact hnothing

/-- **A torn-down node is never desired again**, in every run whose On ticks are calm. -/
theorem never_rewanted (r : FleetRunner) {w₀ : World} (hstart : w₀.trace = []) {h : List FleetStep} {w : World}
    (run : Run (fleetStep r) (CalmStep r) w₀ h w) : NeverRewanted w.trace := by
  refine (run.invariant (I := fun _ w => NothingRewanted w) ⟨?_, ?_⟩ ?_).never
  · rw [hstart]
    trivial
  · intro id hid
    rw [hstart] at hid
    cases hid
  · rintro h w step - hcalm hw
    cases step with
    | tick mode now io => exact tick_nothingRewanted hcalm hw
    | sweepDeadlines increment now loadNodes io =>
      cases loadNodes with
      | some e => exact hw
      | none =>
        exact (hw.of_drained (foldl_drained (sweepOne_tearsDown increment now io) _ (w, {}))
          (selected_known w _)).1
    | sweepOrphans now minAge io =>
      exact (hw.of_drained (sweepOrphans_drained w now minAge io) nofun).1
    | report id row => exact ⟨hw.never, fun id' hid' => Table.isSome_insert id row (hw.known id' hid')⟩

/-- A tick of broadcast `b` with 200 viewers, in which everything succeeds. -/
def liveIo : TickIo :=
  { quietIo with liveBroadcasts := .ok [(⟨"b", 200⟩, ⟨.ok fundedBilling, .ok true, .done⟩)] }

/-- The broadcast ends and its node is torn down; when it is back on air, a new node is ordered. -/
def endedWorld : World := fleetStep renderingRunner (servingWorld 200) (.tick .on (seconds 60) quietIo)

theorem never_rewanted_back_on_air :
    NeverRewanted (fleetStep renderingRunner endedWorld (.tick .on (seconds 120) liveIo)).trace ∧
    .droppedDesired "bc-b-fanout-0" ∈ endedWorld.trace ∧
    .wroteDesired "bc-b-fanout-1" ∈ (fleetStep renderingRunner endedWorld (.tick .on (seconds 120) liveIo)).trace := by
  have hfirst : Calm renderingRunner (servingWorld 200) [] fun id =>
      wasDropped (servingWorld 200).trace id || endsNow (servingWorld 200) [] id := by decide +kernel
  have hsecond : Calm renderingRunner endedWorld [(⟨"b", 200⟩, ⟨.ok fundedBilling, .ok true, .done⟩)] fun id =>
      wasDropped endedWorld.trace id ||
        endsNow endedWorld [(⟨"b", 200⟩, ⟨.ok fundedBilling, .ok true, .done⟩)] id := by decide +kernel
  exact ⟨never_rewanted renderingRunner rfl (.next (.next .start hfirst) hsecond), by decide +kernel, by decide +kernel⟩

/-- The deadline sweep reaps the node of a broadcast that is still on air, and the provider fails. -/
def reapedWorld : World :=
  fleetStep renderingRunner (servingWorld 200) (.sweepDeadlines .perHour (seconds 14400) none fun _ =>
    ⟨.done, .error (.transient "timeout"), .done⟩)

/-- The failed teardown leaves the node Destroying, and the next tick wants it again. -/
theorem failed_teardown_rewanted :
    .droppedDesired "bc-b-fanout-0" ∈ reapedWorld.trace ∧
    reapedWorld.desired.contains "bc-b-fanout-0" = false ∧
    (fleetStep renderingRunner reapedWorld (.tick .on (seconds 14401) liveIo)).desired.contains "bc-b-fanout-0" = true ∧
    ¬ NeverRewanted (fleetStep renderingRunner reapedWorld (.tick .on (seconds 14401) liveIo)).trace := by
  decide +kernel

end MatrixMedia.Fleet
