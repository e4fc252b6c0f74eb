import MatrixMedia.Fleet.Teardown

/-!
# What planning and rendering do

One lemma for each operation, so that the results about runs never unfold them.
`Replaces` is the desired set after a broadcast's set has been replaced, `wantIds` the
ids that a plan of a broadcast lists, and `renderTfvars_frame` says that a render touches
the file only.
-/

namespace MatrixMedia.Fleet
open Lib Lib.Chrono DesiredNode List

/-! ## Replacing the desired set of a broadcast -/

/-- The world after the desired set of broadcast `b` became `ids`. -/
structure Replaces (w : World) (b : String) (ids : List NodeId) (w' : World) : Prop where
  file : w'.file = w.file
  nodes : w'.nodes = w.nodes
  written : ∀ id ∈ ids, ∃ row, w'.desired[id]? = some row ∧ row.broadcastId = some b
  others : ∀ id, id ∉ ids → w'.desired[id]? = (w.desired[id]?).filter fun row => !(row.broadcastId == some b)
  trace : ∃ effects, w'.trace = effects ++ w.trace ∧ ∀ e ∈ effects, ∃ id ∈ ids, e = .wroteDesired id

/-- A replacement adds nothing to the trace but its writes. -/
theorem Replaces.old_effect {w w' : World} {b ids} (h : Replaces w b ids w') {e}
    (hwrite : ∀ id, e ≠ .wroteDesired id) (he : e ∈ w'.trace) : e ∈ w.trace := by
  obtain ⟨effects, htrace, heffects⟩ := h.trace
  rw [htrace, mem_append] at he
  rcases he with hnew | hold
  · obtain ⟨id, -, heq⟩ := heffects e hnew
    exact absurd heq (hwrite id)
  · exact hold

/-- Writing rows of one broadcast, on top of what a replacement already did. -/
theorem foldl_upsertDesired {b} (rows : List (NodeId × DesiredRow))
    (hrows : ∀ row ∈ rows, row.2.broadcastId = some b) (w : World) :
    (rows.foldl World.upsertDesired w).file = w.file ∧ (rows.foldl World.upsertDesired w).nodes = w.nodes ∧
      (∀ id ∈ rows.map Prod.fst, ∃ row, (rows.foldl World.upsertDesired w).desired[id]? = some row ∧
        row.broadcastId = some b) ∧
      (∀ id, id ∉ rows.map Prod.fst → (rows.foldl World.upsertDesired w).desired[id]? = w.desired[id]?) ∧
      ∃ effects, (rows.foldl World.upsertDesired w).trace = effects ++ w.trace ∧
        ∀ e ∈ effects, ∃ id ∈ rows.map Prod.fst, e = .wroteDesired id := by
  induction rows generalizing w with
  | nil =>
    refine ⟨rfl, rfl, ?_, fun _ _ => rfl, [], rfl, ?_⟩
    · intro id hid
      cases hid
    · intro e he
      cases he
  | cons r rows ih =>
    obtain ⟨hfile, hnodes, hin, hout, effects, htrace, heffects⟩ :=
      ih (fun row hrow => hrows row (mem_cons_of_mem _ hrow)) (w.upsertDesired r)
    have hhere : ∃ row, (w.upsertDesired r).desired[r.1]? = some row ∧ row.broadcastId = some b :=
      ⟨_, (Table.getElem?_insert _ _ _ _).trans (if_pos rfl), hrows r mem_cons_self⟩
    refine ⟨hfile, hnodes, ?_, ?_, effects ++ [.wroteDesired r.1], ?_, ?_⟩
    · intro id hid
      by_cases hrest : id ∈ rows.map Prod.fst
      · exact hin id hrest
      · rw [map_cons, mem_cons, or_iff_left hrest] at hid
        subst hid
        obtain ⟨row, hrow, hb⟩ := hhere
        exact ⟨row, (hout _ hrest).trans hrow, hb⟩
    · intro id hid
      rw [map_cons, mem_cons, not_or] at hid
      exact (hout id hid.2).trans ((Table.getElem?_insert _ _ _ _).trans (if_neg (Ne.symm hid.1)))
    · rw [foldl_cons, htrace, append_assoc]
      rfl
    · intro e he
      rcases mem_append.mp he with he | he
      · obtain ⟨id, hid, rfl⟩ := heffects e he
        exact ⟨id, mem_cons_of_mem _ hid, rfl⟩
      · rw [mem_singleton] at he
        exact ⟨r.1, mem_cons_self, he⟩

/-- A desired node whose deadline and ownership agree becomes a row of its broadcast. -/
theorem toRow_ok {d : DesiredNode} (now : DateTime)
    (h : d.destroyAfterSecs.isSome = d.ownership.requiresDestroyDeadline) :
    ∃ row, d.toRow now = .ok row ∧ row.broadcastId = some d.broadcastId := by
  unfold toRow
  split
  · rename_i ho hd
    rw [ho, hd] at h
    cases h
  · rename_i ho hd
    rw [ho, hd] at h
    cases h
  · exact ⟨_, rfl, rfl⟩
  · exact ⟨_, rfl, rfl⟩

theorem desiredRows_ok (desired : List DesiredNode) (now : DateTime) {b}
    (hdeadline : ∀ d ∈ desired, d.destroyAfterSecs.isSome = d.ownership.requiresDestroyDeadline)
    (hb : ∀ d ∈ desired, d.broadcastId = b) :
    ∃ rows, desiredRows desired now = .ok rows ∧ rows.map Prod.fst = desired.map mmNodeId ∧
      ∀ row ∈ rows, row.2.broadcastId = some b := by
  induction desired with
  | nil => exact ⟨[], rfl, rfl, nofun⟩
  | cons d desired ih =>
    obtain ⟨rows, hrows, hids, hall⟩ := ih (fun d hd => hdeadline d (mem_cons_of_mem _ hd))
      (fun d hd => hb d (mem_cons_of_mem _ hd))
    obtain ⟨row, hrow, hbroadcast⟩ := toRow_ok now (hdeadline d mem_cons_self)
    refine ⟨(d.mmNodeId, row) :: rows, ?_, by rw [map_cons, map_cons, hids], ?_⟩
    · unfold desiredRows at hrows ⊢
      rw [mapM_cons, hrow, hrows]
      rfl
    · intro r hr
      rcases mem_cons.mp hr with rfl | hr
      · rw [hbroadcast, hb d mem_cons_self]
      · exact hall r hr

/-- Every node of a plan belongs to its broadcast and carries a deadline exactly when it
is rented, so a plan is never refused. -/
theorem plan_wellFormed {obs : FleetObservation} {policy} {d : DesiredNode} (h : d ∈ plan obs policy) :
    d.broadcastId = obs.broadcastId ∧ d.destroyAfterSecs.isSome = d.ownership.requiresDestroyDeadline := by
  rcases mem_plan.mp h with hkept | ⟨-, hfanout | htranscode⟩
  · obtain ⟨n, -, -, -, rfl⟩ := mem_keptNodes.mp hkept
    refine ⟨rfl, ?_⟩
    unfold keep
    cases n.ownership.requiresDestroyDeadline <;> simp
  · obtain ⟨j, -, rfl⟩ := mem_orderFanout.mp hfanout
    exact ⟨rfl, rfl⟩
  · obtain ⟨-, -, rfl⟩ := mem_orderedTranscode.mp htranscode
    exact ⟨rfl, rfl⟩

/-- `upsert_for_broadcast` of a plan: the set is replaced, or nothing happened. -/
theorem upsert_plan (w : World) (obs : FleetObservation) (policy : FleetPolicy) (now : DateTime) (out : DbOutcome) :
    (out.applied = true → Replaces w obs.broadcastId ((plan obs policy).map mmNodeId)
        (w.upsertForBroadcast obs.broadcastId (plan obs policy) now out).1) ∧
      (out.applied = false → (w.upsertForBroadcast obs.broadcastId (plan obs policy) now out).1 = w) := by
  obtain ⟨rows, hrows, hids, hall⟩ := desiredRows_ok (plan obs policy) now
    (fun d hd => (plan_wellFormed hd).2) (fun d hd => (plan_wellFormed hd).1)
  unfold World.upsertForBroadcast
  rw [hrows]
  dsimp only
  refine ⟨fun happlied => ?_, fun hfailed => by rw [hfailed]; rfl⟩
  rw [happlied, if_pos rfl]
  obtain ⟨hfile, hnodes, hin, hout, effects, htrace, heffects⟩ := foldl_upsertDesired rows hall
    (w.deleteUndesired obs.broadcastId ((plan obs policy).map mmNodeId))
  rw [hids] at hin hout heffects
  refine ⟨hfile, hnodes, hin, fun id hid => ?_, effects, htrace, heffects⟩
  rw [hout id hid, World.deleteUndesired, Std.TreeMap.getElem?_filter']
  have hkeep : ((plan obs policy).map mmNodeId).contains id = false := by
    rw [contains_eq_any_beq, any_eq_false]
    intro x hx hbeq
    exact hid (beq_iff_eq.mp hbeq ▸ hx)
  simp only [hkeep, Bool.or_false]

section
variable (r : FleetRunner)

/-- A `plan_one` whose questions were answered leaves what its upsert left. -/
theorem planOne_answered (w : World) (bc : LiveBroadcast) (nodes : List ObservedNode)
    (now : DateTime) {io : PlanIo} {billing programmeIsLive}
    (hquote : io.quote = .ok billing) (hprogramme : io.programmeIsLive = .ok programmeIsLive) :
    (r.planOne w bc nodes now io).1 = (w.upsertForBroadcast bc.broadcastId
      (plan (observationOf bc billing programmeIsLive nodes) r.policy) now io.upsert).1 := by
  simp only [FleetRunner.planOne, hquote, hprogramme]
  split <;> rename_i h <;> rw [h]

/-- The node ids a tick plans for a live broadcast, if its quote and programme are known. -/
def FleetRunner.wantIds (nodes : List ObservedNode) (bc : LiveBroadcast × PlanIo) :
    Option (List NodeId) :=
  match bc.2.quote, bc.2.programmeIsLive with
  | .ok billing, .ok programmeIsLive =>
    some ((plan (observationOf bc.1 billing programmeIsLive nodes) r.policy).map mmNodeId)
  | _, _ => none

/-- The observation a tick plans a live broadcast from, if its quote and programme are known. -/
def planObservation (nodes : List ObservedNode) (bc : LiveBroadcast × PlanIo) : Option FleetObservation :=
  match bc.2.quote, bc.2.programmeIsLive with
  | .ok billing, .ok programmeIsLive => some (observationOf bc.1 billing programmeIsLive nodes)
  | _, _ => none

theorem wantIds_eq_some {r : FleetRunner} {nodes bc ids} (h : r.wantIds nodes bc = some ids) :
    ∃ obs, planObservation nodes bc = some obs ∧ obs.broadcastId = bc.1.broadcastId ∧
      obs.nodes = nodesForBroadcast nodes bc.1.broadcastId ∧ ids = (plan obs r.policy).map mmNodeId := by
  unfold FleetRunner.wantIds at h
  split at h
  · rename_i billing programmeIsLive hquote hprogramme
    cases h
    exact ⟨_, by simp only [planObservation, hquote, hprogramme], rfl, rfl, rfl⟩
  · cases h

/-- `plan_one` replaces the broadcast's desired set by its plan, or does nothing. -/
theorem planOne_cases (w : World) (bc : LiveBroadcast × PlanIo) (nodes : List ObservedNode)
    (now : DateTime) : (r.planOne w bc.1 nodes now bc.2).1 = w ∨
      ∃ ids, r.wantIds nodes bc = some ids ∧
        Replaces w bc.1.broadcastId ids (r.planOne w bc.1 nodes now bc.2).1 := by
  cases hquote : bc.2.quote with
  | error e => exact .inl (by simp only [FleetRunner.planOne, hquote])
  | ok billing =>
    cases hprogramme : bc.2.programmeIsLive with
    | error e => exact .inl (by simp only [FleetRunner.planOne, hquote, hprogramme])
    | ok programmeIsLive =>
      rw [planOne_answered r w bc.1 nodes now hquote hprogramme]
      have hupsert := upsert_plan w (observationOf bc.1 billing programmeIsLive nodes) r.policy now bc.2.upsert
      cases happlied : bc.2.upsert.applied with
      | false => exact .inl (hupsert.2 happlied)
      | true => exact .inr ⟨_, by simp only [FleetRunner.wantIds, hquote, hprogramme], hupsert.1 happlied⟩

/-- A `plan_one` whose questions were answered and whose transaction committed. -/
theorem planOne_done (w : World) {bc} (nodes : List ObservedNode)
    (now : DateTime) {ids} (hids : r.wantIds nodes bc = some ids) (hdone : bc.2.upsert = .done) :
    Replaces w bc.1.broadcastId ids (r.planOne w bc.1 nodes now bc.2).1 := by
  unfold FleetRunner.wantIds at hids
  split at hids
  · rename_i billing programmeIsLive hquote hprogramme
    cases hids
    rw [planOne_answered r w bc.1 nodes now hquote hprogramme, hdone]
    exact (upsert_plan w (observationOf bc.1 billing programmeIsLive nodes) r.policy now .done).1 rfl
  · cases hids

theorem planAll_fst (nodes : List ObservedNode) (now : DateTime) (acc : World × TickReport)
    (bc : LiveBroadcast × PlanIo) : (r.planAll nodes now acc bc).1 = (r.planOne acc.1 bc.1 nodes now bc.2).1 := by
  unfold FleetRunner.planAll
  split <;> rename_i h <;> rw [h]

/-! ## Rendering -/

theorem renderTfvars_frame (acc : World × TickReport) (allowShrink : Bool) (io : TickIo) :
    (r.renderTfvars acc allowShrink io).1.desired = acc.1.desired ∧
      (r.renderTfvars acc allowShrink io).1.nodes = acc.1.nodes ∧
      (r.renderTfvars acc allowShrink io).1.trace = acc.1.trace := by
  unfold FleetRunner.renderTfvars
  split
  · exact ⟨rfl, rfl, rfl⟩
  · split
    · exact ⟨rfl, rfl, rfl⟩
    · split <;> exact ⟨rfl, rfl, rfl⟩

end

end MatrixMedia.Fleet
