import MatrixMedia.Fleet.Growth
import MatrixMedia.Fleet.Steps

/-!
# One tick

What a plan keeps (`plan_keeps_iff`): only fan-out nodes, so a running node of another
flavor loses its desired row. What the kill switch removes (`off_tick_iff`): the drain
walks the observed nodes, so a rented desired row without a rented, non-Gone node row
survives it and stays in the file.
-/

namespace MatrixMedia.Fleet
open Lib Lib.Text Lib.Chrono Lib.U32 ObservedNode

/-! ## What a plan keeps -/

/-- A running node appears in the plan. -/
def Appears (n : FleetNode) (want : List DesiredNode) : Prop := ∃ d ∈ want, d.mmNodeId = n.id ∧ d.flavor = n.flavor

instance (n : FleetNode) (want : List DesiredNode) : Decidable (Appears n want) :=
  inferInstanceAs (Decidable (∃ d ∈ want, _))

/-- A running fan-out node is kept in every branch. -/
theorem appears_of_fanout {obs : FleetObservation} (policy : FleetPolicy) {n} (hn : n ∈ obs.nodes)
    (hstate : n.state ≠ .gone) (hflavor : n.flavor = .fanout) : Appears n (plan obs policy) :=
  ⟨_, mem_plan.mpr (.inl (mem_keptNodes.mpr ⟨n, hn, hflavor, hstate, rfl⟩)), rfl, rfl⟩

/-- Nothing else that runs is: a running transcode node keeps the ladder from being
ordered, and no other flavor is ever planned. -/
theorem fanout_of_appears {obs : FleetObservation} {policy n} (hn : n ∈ obs.nodes)
    (hstate : n.state ≠ .gone) (happears : Appears n (plan obs policy)) : n.flavor = .fanout := by
  obtain ⟨d, hd, -, hflavor⟩ := happears
  rcases mem_plan.mp hd with hkept | ⟨-, hfanout | htranscode⟩
  · obtain ⟨m, -, hm, -, rfl⟩ := mem_keptNodes.mp hkept
    exact hflavor.symm.trans hm
  · obtain ⟨j, -, rfl⟩ := mem_orderFanout.mp hfanout
    exact hflavor.symm
  · obtain ⟨-, hnone, rfl⟩ := mem_orderedTranscode.mp htranscode
    have hhas : obs.hasTranscodeNode = true := by
      refine List.any_eq_true.mpr ⟨n, hn, ?_⟩
      simp [← hflavor, hstate, DesiredNode.transcode]
    rw [hnone] at hhas
    cases hhas

/-- **A tick drops no running node**, exactly as far as the running nodes are fan-out
nodes; then `plan_one` deletes the desired row of none of them. -/
theorem plan_keeps_iff (obs : FleetObservation) (policy : FleetPolicy) :
    ((∀ n ∈ obs.nodes, n.state ≠ .gone → Appears n (plan obs policy)) ↔
      ∀ n ∈ obs.nodes, n.state ≠ .gone → n.flavor = .fanout) ∧
    ∀ (r : FleetRunner) (w : World) (bc : LiveBroadcast × PlanIo) (now : DateTime),
      (∀ n ∈ nodesForBroadcast w.loadNodes bc.1.broadcastId, n.state ≠ .gone → n.flavor = .fanout) →
      ∀ n ∈ nodesForBroadcast w.loadNodes bc.1.broadcastId, n.state ≠ .gone → w.desired.contains n.id = true →
        (r.planOne w bc.1 w.loadNodes now bc.2).1.desired.contains n.id = true := by
  refine ⟨⟨fun h n hn hstate => fanout_of_appears hn hstate (h n hn hstate),
    fun h n hn hstate => appears_of_fanout policy hn hstate (h n hn hstate)⟩, ?_⟩
  intro r w bc now hall n hn hstate hrow
  rcases planOne_cases r w bc w.loadNodes now with hsame | ⟨ids, hids, hreplaces⟩
  · rwa [hsame]
  · obtain ⟨obs, -, -, hnodes, rfl⟩ := wantIds_eq_some hids
    rw [← hnodes] at hn hall
    obtain ⟨d, hd, hid, -⟩ := appears_of_fanout r.policy hn hstate (hall n hn hstate)
    obtain ⟨row, hwritten, -⟩ := hreplaces.written n.id (hid ▸ List.mem_map_of_mem hd)
    rw [Std.TreeMap.contains_eq_isSome_getElem?, hwritten]
    rfl

theorem plan_keeps_serving : (servingWorld 200).desired.contains "bc-b-fanout-0" = true ∧
    (FleetRunner.planOne ⟨conservative "eu-ams" "small", none⟩ (servingWorld 200) ⟨"b", 200⟩
      (servingWorld 200).loadNodes 0 ⟨.ok ⟨0, 0, false⟩, .ok false, .done⟩).1.desired.contains "bc-b-fanout-0" = true :=
  ⟨by decide +kernel, (plan_keeps_iff (observationOf ⟨"b", 200⟩ ⟨0, 0, false⟩ false (servingWorld 200).loadNodes)
    (conservative "eu-ams" "small")).2 ⟨conservative "eu-ams" "small", none⟩ (servingWorld 200)
    (⟨"b", 200⟩, ⟨.ok ⟨0, 0, false⟩, .ok false, .done⟩) 0 (by decide +kernel)
    ⟨"bc-b-fanout-0", .fanout, .rented, .healthy, 250, 200⟩ (by decide +kernel) (by decide) (by decide +kernel)⟩

/-- A transcode node that serves broadcast `b`. -/
def transcodeWorld : World :=
  ⟨(∅ : Std.TreeMap NodeId DesiredRow).insert "bc-b-transcode" { servingDesired with flavor := .transcode },
    (∅ : Std.TreeMap NodeId NodeRow).insert "bc-b-transcode" { servingRow 0 with flavor := .transcode }, .absent, []⟩

/-- A Healthy transcode node is in no plan, and its desired row is deleted. -/
theorem plan_drops_transcode :
    let obs := observationOf ⟨"b", 10⟩ ⟨1000, 100, true⟩ true transcodeWorld.loadNodes
    let policy := conservative "eu-ams" "small"
    (∃ n ∈ obs.nodes, n.state ≠ .gone ∧ ∀ d ∈ plan obs policy, d.mmNodeId ≠ n.id) ∧
    transcodeWorld.desired.contains "bc-b-transcode" = true ∧
    (FleetRunner.planOne ⟨policy, none⟩ transcodeWorld ⟨"b", 10⟩ transcodeWorld.loadNodes 0
      ⟨.ok ⟨1000, 100, true⟩, .ok true, .done⟩).1.desired.contains "bc-b-transcode" = false := by
  refine ⟨by decide +kernel, by decide +kernel, by decide +kernel⟩

/-! ## The kill switch -/

/-- Every teardown of a tick succeeds. -/
def TeardownsOk (io : NodeId → TeardownIo) : Prop :=
  ∀ id, (io id).deleteRow = .done ∧ (io id).destroy = .ok () ∧ (io id).setState = .done

/-- Every store, provider and file operation of a tick succeeds. -/
structure TickIo.AllOk (io : TickIo) : Prop where
  loadNodes : io.loadNodes = none
  loadAll : io.loadAll = none
  teardown : TeardownsOk io.teardown
  reload : io.reload = none
  write : io.write = none

section Drain
variable {now : DateTime} {io : NodeId → TeardownIo} {nodes : List ObservedNode}

/-- The nodes a loop tears down lose their desired rows. -/
theorem drain_torn (hio : TeardownsOk io) {n} (hn : n ∈ nodes)
    (hreapable : n.ownership.isReapable = true) (acc : World × TickReport) :
    (nodes.foldl (tearDown now io) acc).1.desired[n.mmNodeId]? = none := by
  refine foldl_of_mem (P := fun _ => True) (Q := fun x : World × TickReport => x.1.desired[n.mmNodeId]? = none) hn
    (fun _ _ => id) ?_ ?_ trivial
  · intro acc' m hnone
    exact (tearDown_tearsDown now io acc' m).desired_none hnone
  · intro acc' _
    obtain ⟨hdelete, hdestroy, hset⟩ := hio n.mmNodeId
    have hok := teardown_ok (w := acc'.1) (t := n.teardownTarget) now hreapable hdelete hdestroy hset
    unfold tearDown
    split <;> rename_i heq <;> rw [heq] at hok
    · exact hok.2.1
    · cases hok.1

end Drain

/-- The entry of a node in what Terraform reads. -/
def TfFile.entry (file : TfFile) (id : NodeId) : Option TfNode :=
  match file with
  | .present current => current[id]?
  | _ => none

/-- The rendered map holds exactly the desired rows. -/
theorem getElem?_fromRows (w : World) (id : NodeId) :
    (Tfvars.fromRows w.loadAll)[id]? = (w.desired[id]?).map TfNode.ofRow := by
  unfold Tfvars.fromRows World.loadAll
  cases hrow : w.desired[id]? with
  | some row =>
    exact Table.getElem?_foldl_insert_of_mem Prod.fst (fun r : NodeId × DesiredRow => TfNode.ofRow r.2)
      (Table.nodup_keys w.desired) (Table.mem_toList.mpr hrow) ∅
  | none =>
    refine Table.getElem?_foldl_insert_of_notMem Prod.fst (fun r : NodeId × DesiredRow => TfNode.ofRow r.2) ?_ ∅
    intro hmem
    obtain ⟨⟨id', row⟩, hin, rfl⟩ := List.mem_map.mp hmem
    rw [Table.mem_toList.mp hin] at hrow
    cases hrow

/-- A render past the guard leaves the desired set in the file. -/
theorem render_allowed {r : FleetRunner} {threshold} (hr : r.tfvars = some threshold) {io : TickIo}
    (hreload : io.reload = none) (hwrite : io.write = none) (acc : World × TickReport) :
    (r.renderTfvars acc true io).1.file = .present (Tfvars.fromRows acc.1.loadAll) := by
  unfold FleetRunner.renderTfvars TfFile.write
  simp only [hr, hreload, hwrite, if_true]

theorem asStr_rented {o : Ownership} : o.asStr = "rented" ↔ o = .rented := by
  cases o <;> decide

/-- No rented node is desired, and Terraform is told of none. -/
structure NothingRented (w : World) : Prop where
  desired : ∀ (id : NodeId) (row : DesiredRow), w.desired[id]? = some row → row.ownership ≠ .rented
  file : ∀ (id : NodeId) (node : TfNode), w.file.entry id = some node → node.ownership ≠ "rented"

/-- The row of the node that a kill switch would tear down. -/
def ReapableRow (w : World) (id : NodeId) : Prop :=
  ∃ row, w.nodes[id]? = some row ∧ row.ownership = .rented ∧ row.state ≠ .gone

theorem mem_reapable_iff {w : World} {id} :
    id ∈ (w.loadNodes.filter isReapableNow).map mmNodeId ↔ ReapableRow w id := by
  simp only [List.mem_map, List.mem_filter]
  constructor
  · rintro ⟨n, ⟨hn, hreapable⟩, rfl⟩
    obtain ⟨row, hrow, hof⟩ := mem_loadNodes.mp hn
    rw [← hof] at hreapable
    refine ⟨row, hrow, ?_⟩
    simp only [isReapableNow, ofRow, Bool.and_eq_true, bne_iff_ne] at hreapable
    refine ⟨?_, hreapable.2⟩
    cases hown : row.ownership <;> simp [hown, Ownership.isReapable] at hreapable
    rfl
  · rintro ⟨row, hrow, hown, hstate⟩
    refine ⟨_, ⟨mem_loadNodes_of_row hrow, ?_⟩, rfl⟩
    simp [isReapableNow, ofRow, hown, hstate, Ownership.isReapable]

/-- **The kill switch.** After an Off tick in which everything succeeds nothing rented is
left, exactly when every rented desired row had a rented node row that was not Gone. -/
theorem off_tick_iff {r : FleetRunner} {threshold : Rat} (hr : r.tfvars = some threshold) (w : World) (now : DateTime)
    {io : TickIo} (hio : io.AllOk) : NothingRented (r.tick w .off now io).1 ↔
      ∀ (id : NodeId) (row : DesiredRow), w.desired[id]? = some row → row.ownership = .rented → ReapableRow w id := by
  have htick : (r.tick w .off now io).1 =
      (r.renderTfvars ((w.loadNodes.filter isReapableNow).foldl (tearDown now io.teardown)
        (w, { mode := FleetMode.off.text, nodesObserved := w.loadNodes.length })) true io).1 := by
    simp only [FleetRunner.tick, hio.loadNodes, hio.loadAll]
  rw [htick]
  generalize hacc : (w.loadNodes.filter isReapableNow).foldl (tearDown now io.teardown)
    (w, { mode := FleetMode.off.text, nodesObserved := w.loadNodes.length }) = acc
  have hdesired := (renderTfvars_frame r acc true io).1
  have hfile := render_allowed hr hio.reload hio.write acc
  have htorn : ∀ id, ReapableRow w id → acc.1.desired[id]? = none := by
    intro id hid
    obtain ⟨n, hn, rfl⟩ := List.mem_map.mp (mem_reapable_iff.mpr hid)
    have hreapable := (Bool.and_eq_true _ _ ▸ (List.mem_filter.mp hn).2).1
    rw [← hacc]
    exact drain_torn hio.teardown hn hreapable _
  have hkept : ∀ id, ¬ ReapableRow w id → acc.1.desired[id]? = w.desired[id]? := by
    intro id hid
    rw [← hacc]
    exact (foldl_drained (tearDown_tearsDown now io.teardown) _ _).others id fun hmem => hid (mem_reapable_iff.mp hmem)
  constructor
  · intro hnothing id row hrow hrented
    by_contra hnode
    exact hnothing.desired id row (by rw [hdesired, hkept id hnode, hrow]) hrented
  · intro hall
    have hclean : ∀ (id : NodeId) (row : DesiredRow), acc.1.desired[id]? = some row → row.ownership ≠ .rented := by
      intro id row hrow hrented
      by_cases hnode : ReapableRow w id
      · rw [htorn id hnode] at hrow
        cases hrow
      · exact hnode (hall id row (hkept id hnode ▸ hrow) hrented)
    refine ⟨fun id row hrow => hclean id row (hdesired ▸ hrow), ?_⟩
    intro id node hentry hrented
    rw [hfile] at hentry
    have hentry : (Tfvars.fromRows acc.1.loadAll)[id]? = some node := hentry
    rw [getElem?_fromRows] at hentry
    obtain ⟨row, hrow, rfl⟩ := Option.map_eq_some_iff.mp hentry
    exact hclean id row hrow (asStr_rented.mp hrented)

/-- A tick whose outside answers everything and reports no live broadcast. -/
def quietIo : TickIo := ⟨none, none, .ok [], fun _ => ⟨.done, .ok (), .done⟩, none, none⟩

theorem quietIo_allOk : quietIo.AllOk := ⟨rfl, rfl, fun _ => ⟨rfl, rfl, rfl⟩, rfl, rfl⟩

/-- A runner that renders for Terraform, with the default threshold. -/
def renderingRunner : FleetRunner := ⟨conservative "eu-ams" "small", some (1 / 2)⟩

theorem off_tick_serving : (servingWorld 200).desired.contains "bc-b-fanout-0" = true ∧
    NothingRented (renderingRunner.tick (servingWorld 200) .off 0 quietIo).1 := by
  refine ⟨by decide +kernel, (off_tick_iff rfl (servingWorld 200) 0 quietIo_allOk).mpr ?_⟩
  intro id row hrow _
  have hid : id = "bc-b-fanout-0" := by
    have hmem := Table.mem_toList.mpr hrow
    rw [show (servingWorld 200).desired.toList = [("bc-b-fanout-0", servingDesired)] from rfl,
      List.mem_singleton] at hmem
    exact congrArg Prod.fst hmem
  rw [hid]
  exact ⟨servingRow 200, rfl, rfl, by decide⟩

/-- A rented node that was ordered and has not registered. -/
def unregisteredWorld : World := { servingWorld 0 with nodes := ∅ }

/-- The kill switch leaves an ordered, unregistered node desired and in the file. -/
theorem off_tick_keeps_unregistered : quietIo.AllOk ∧
    (renderingRunner.tick unregisteredWorld .off 0 quietIo).1.desired.contains "bc-b-fanout-0" = true ∧
    ((renderingRunner.tick unregisteredWorld .off 0 quietIo).1.file.entry "bc-b-fanout-0").map TfNode.ownership =
      some "rented" ∧
    ¬ NothingRented (renderingRunner.tick unregisteredWorld .off 0 quietIo).1 := by
  have hfile : ((renderingRunner.tick unregisteredWorld .off 0 quietIo).1.file.entry "bc-b-fanout-0").map
      TfNode.ownership = some "rented" := by decide +kernel
  refine ⟨quietIo_allOk, by decide +kernel, hfile, ?_⟩
  intro hnothing
  obtain ⟨node, hentry, hrented⟩ := Option.map_eq_some_iff.mp hfile
  exact hnothing.file _ node hentry hrented

end MatrixMedia.Fleet
