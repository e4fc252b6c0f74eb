import MatrixMedia.Fleet.Runner
import MatrixMedia.Lib.Run

/-!
# What a teardown does

`TearsDown` is everything one teardown can do: it touches one node row and one desired
row, and adds only its own effects to the trace. The loops of the runner and of the
sweeps tear down one node after the other. `Drained` is what such a loop leaves, whatever
came of its calls, and `foldl_teardown_induction` is the rule for what holds all along.
-/

namespace MatrixMedia.Fleet
open Lib Lib.Chrono ObservedNode List

/-! ## Reading the node table -/

variable {ids : List NodeId} {w' : World} {t : TeardownTarget} {n : ObservedNode}

theorem mem_loadNodes {w : World} :
    n ∈ w.loadNodes ↔ ∃ row, w.nodes[n.mmNodeId]? = some row ∧ ofRow n.mmNodeId row = n := by
  rw [World.loadNodes, mem_map]
  constructor
  · rintro ⟨⟨id, row⟩, hmem, rfl⟩
    exact ⟨row, Table.mem_toList.mp hmem, rfl⟩
  · rintro ⟨row, hrow, hn⟩
    exact ⟨(n.mmNodeId, row), Table.mem_toList.mpr hrow, hn⟩

theorem mem_loadNodes_of_row {w : World} {id row} (h : w.nodes[id]? = some row) :
    ofRow id row ∈ w.loadNodes :=
  mem_loadNodes.mpr ⟨row, h, rfl⟩

/-- A node id names one observed node. -/
theorem loadNodes_inj {w : World} {m} (hm : m ∈ w.loadNodes) (hn : n ∈ w.loadNodes)
    (hid : m.mmNodeId = n.mmNodeId) : m = n := by
  obtain ⟨r, hr, hm'⟩ := mem_loadNodes.mp hm
  obtain ⟨r', hr', hn'⟩ := mem_loadNodes.mp hn
  rw [← hid] at hr' hn'
  obtain rfl : r = r' := Option.some.inj (hr.symm.trans hr')
  exact hm'.symm.trans hn'

theorem nodup_loadNodes (w : World) : (w.loadNodes.map mmNodeId).Nodup := by
  rw [World.loadNodes, map_map]
  exact Table.nodup_keys w.nodes

/-! ## Teardown -/

section Frame
variable (w : World) (id node : NodeId) (state : NodeState) (out : DbOutcome)

theorem getElem?_setNodeState_of_ne (h : node ≠ id) : (w.setNodeState node state out).nodes[id]? = w.nodes[id]? := by
  unfold World.setNodeState
  split
  · split
    · rw [Table.getElem?_insert, if_neg h]
    · rfl
  · rfl

theorem setNodeState_nodes : (w.setNodeState node state out).nodes[node]? = w.nodes[node]? ∨
    ∃ row, w.nodes[node]? = some row ∧
      (w.setNodeState node state out).nodes[node]? = some { row with state := state } := by
  unfold World.setNodeState
  split
  · split
    · rename_i row hrow
      exact .inr ⟨row, hrow, by rw [Table.getElem?_insert, if_pos rfl]⟩
    · exact .inl rfl
  · exact .inl rfl

@[simp] theorem setNodeState_desired : (w.setNodeState node state out).desired = w.desired := by
  unfold World.setNodeState
  split
  · split <;> rfl
  · rfl

@[simp] theorem setNodeState_file : (w.setNodeState node state out).file = w.file := by
  unfold World.setNodeState
  split
  · split <;> rfl
  · rfl

@[simp] theorem setNodeState_trace : (w.setNodeState node state out).trace = w.trace := by
  unfold World.setNodeState
  split
  · split <;> rfl
  · rfl

@[simp] theorem deleteDesired_nodes : (w.deleteDesired node out).nodes = w.nodes := by
  unfold World.deleteDesired
  split <;> rfl

@[simp] theorem deleteDesired_file : (w.deleteDesired node out).file = w.file := by
  unfold World.deleteDesired
  split <;> rfl

theorem getElem?_deleteDesired_of_ne (h : node ≠ id) : (w.deleteDesired node out).desired[id]? = w.desired[id]? := by
  unfold World.deleteDesired
  split
  · exact (Table.getElem?_erase _ _ _).trans (if_neg h)
  · rfl

theorem deleteDesired_cases : w.deleteDesired node out = w ∨ w.desired.contains node = true ∧
    (w.deleteDesired node out).desired[node]? = none ∧
      (w.deleteDesired node out).trace = .droppedDesired node :: w.trace := by
  unfold World.deleteDesired
  split
  · rename_i h
    rw [Bool.and_eq_true] at h
    exact .inr ⟨h.2, (Table.getElem?_erase _ _ _).trans (if_pos rfl), rfl⟩
  · exact .inl rfl

/-- A DELETE that took effect leaves no row. -/
theorem deleteDesired_applied (h : out.applied = true) : (w.deleteDesired node out).desired[node]? = none := by
  unfold World.deleteDesired
  rw [h, Bool.true_and]
  split
  · exact (Table.getElem?_erase _ _ _).trans (if_pos rfl)
  · rename_i hno
    rw [Std.TreeMap.contains_eq_isSome_getElem?] at hno
    simpa using hno

end Frame

/-- An effect that tearing down `t` may leave in the trace. -/
inductive TeardownEffect (w : World) (t : TeardownTarget) (now : DateTime) : Effect → Prop where
  | dropped : w.desired.contains t.mmNodeId = true → TeardownEffect w t now (.droppedDesired t.mmNodeId)
  | called {providerId : String} : t.providerId = some providerId →
      TeardownEffect w t now (.destroy ⟨providerId, w.loadNodes, [], now, 0⟩)
  | tornDown : TeardownEffect w t now (.tornDown t.mmNodeId)

/-- Everything a teardown of `t` can do to the world. -/
structure TearsDown (w : World) (t : TeardownTarget) (now : DateTime) (w' : World) : Prop where
  file : w'.file = w.file
  nodes : ∀ id, id ≠ t.mmNodeId → w'.nodes[id]? = w.nodes[id]?
  node : w'.nodes[t.mmNodeId]? = w.nodes[t.mmNodeId]? ∨
    ∃ row state, w.nodes[t.mmNodeId]? = some row ∧ w'.nodes[t.mmNodeId]? = some { row with state := state }
  desired : ∀ id, id ≠ t.mmNodeId → w'.desired[id]? = w.desired[id]?
  row : w'.desired[t.mmNodeId]? = w.desired[t.mmNodeId]? ∨ w'.desired[t.mmNodeId]? = none
  trace : ∃ effects, w'.trace = effects ++ w.trace ∧ ∀ e ∈ effects, TeardownEffect w t now e

theorem TearsDown.refl (w : World) (t : TeardownTarget) (now : DateTime) : TearsDown w t now w :=
  ⟨rfl, fun _ _ => rfl, .inl rfl, fun _ _ => rfl, .inl rfl, [], rfl, nofun⟩

theorem tearsDown_deleteDesired (w : World) (t : TeardownTarget) (now : DateTime) (out : DbOutcome) :
    TearsDown w t now (w.deleteDesired t.mmNodeId out) where
  file := deleteDesired_file ..
  nodes := fun _ _ => by rw [deleteDesired_nodes]
  node := .inl (by rw [deleteDesired_nodes])
  desired := fun id h => getElem?_deleteDesired_of_ne w id t.mmNodeId out (Ne.symm h)
  row := by
    rcases deleteDesired_cases w t.mmNodeId out with h | ⟨-, h, -⟩
    · exact .inl (by rw [h])
    · exact .inr h
  trace := by
    rcases deleteDesired_cases w t.mmNodeId out with h | ⟨hrow, -, h⟩
    · exact ⟨[], by rw [h]; rfl, nofun⟩
    · refine ⟨[.droppedDesired t.mmNodeId], h, ?_⟩
      intro e he
      rw [mem_singleton] at he
      exact he ▸ .dropped hrow

/-- Recording one more effect of the teardown. -/
theorem TearsDown.log {w now e} (h : TearsDown w t now w')
    (he : TeardownEffect w t now e) : TearsDown w t now (w'.log e) where
  file := h.file
  nodes := h.nodes
  node := h.node
  desired := h.desired
  row := h.row
  trace := by
    obtain ⟨effects, htrace, hall⟩ := h.trace
    refine ⟨e :: effects, congrArg (e :: ·) htrace, ?_⟩
    intro e' he'
    rcases mem_cons.mp he' with rfl | he'
    · exact he
    · exact hall e' he'

/-- Recording the outcome on the node's row. -/
theorem TearsDown.setNodeState {w now} (h : TearsDown w t now w')
    (hnodes : w'.nodes = w.nodes) (state : NodeState) (out : DbOutcome) :
    TearsDown w t now (w'.setNodeState t.mmNodeId state out) where
  file := by rw [setNodeState_file, h.file]
  nodes := fun id hid => (getElem?_setNodeState_of_ne w' id _ state out (Ne.symm hid)).trans (h.nodes id hid)
  node := by
    rcases setNodeState_nodes w' t.mmNodeId state out with heq | ⟨row, hrow, heq⟩
    · exact .inl (heq.trans (by rw [hnodes]))
    · exact .inr ⟨row, state, hnodes ▸ hrow, heq⟩
  desired := fun id hid => by rw [setNodeState_desired, h.desired id hid]
  row := by rw [setNodeState_desired]; exact h.row
  trace := by rw [setNodeState_trace]; exact h.trace

theorem TearsDown.finish {w now} (h : TearsDown w t now w')
    (hnodes : w'.nodes = w.nodes) (out : DbOutcome) :
    TearsDown w t now (w'.finishTeardown t.mmNodeId out).1 := by
  have hset := h.setNodeState hnodes .gone out
  unfold World.finishTeardown
  dsimp only
  split
  · exact hset
  · exact hset.log .tornDown

theorem TearsDown.fail {w now} (h : TearsDown w t now w')
    (hnodes : w'.nodes = w.nodes) (source : ProviderError) (out : DbOutcome) :
    TearsDown w t now (w'.failTeardown t.mmNodeId source out).1 := by
  have hset := h.setNodeState hnodes .destroying out
  unfold World.failTeardown
  dsimp only
  split
  · exact hset
  · exact hset

theorem teardown_tearsDown (w : World) (t : TeardownTarget) (now : DateTime) (io : TeardownIo) :
    TearsDown w t now (w.teardown t now io).1 := by
  have hdeleted := tearsDown_deleteDesired w t now io.deleteRow
  have hnodes := deleteDesired_nodes w t.mmNodeId io.deleteRow
  have hload : (w.deleteDesired t.mmNodeId io.deleteRow).loadNodes = w.loadNodes := by
    rw [World.loadNodes, World.loadNodes, hnodes]
  unfold World.teardown
  split
  · exact TearsDown.refl w t now
  · dsimp only
    split
    · exact hdeleted
    · split
      · exact hdeleted.finish hnodes io.setState
      · rename_i providerId hprovider
        have hcalled := hdeleted.log (.called hprovider)
        rw [hload]
        split
        · exact hcalled.finish hnodes io.setState
        · exact hcalled.fail hnodes _ io.setState

/-- A teardown of a reapable node in which everything succeeds. -/
theorem teardown_ok {w : World} (now : DateTime) {io : TeardownIo}
    (hreapable : t.ownership.isReapable = true) (hdelete : io.deleteRow = .done) (hdestroy : io.destroy = .ok ())
    (hset : io.setState = .done) :
    (w.teardown t now io).2 = .ok () ∧ (w.teardown t now io).1.desired[t.mmNodeId]? = none ∧
      Effect.tornDown t.mmNodeId ∈ (w.teardown t now io).1.trace := by
  have hgone := deleteDesired_applied w t.mmNodeId .done rfl
  unfold World.teardown
  rw [hreapable, hdelete, hdestroy, hset]
  simp only [Bool.not_true, Bool.false_eq_true, if_false, DbOutcome.error?]
  split
  · exact ⟨rfl, by simpa [World.finishTeardown, World.log, DbOutcome.error?] using hgone, mem_cons_self⟩
  · exact ⟨rfl, by simpa [World.finishTeardown, World.log, DbOutcome.error?] using hgone, mem_cons_self⟩

/-- A desired row that is gone stays gone. -/
theorem TearsDown.desired_none {w : World} {now : DateTime} (h : TearsDown w t now w')
    {id : NodeId} (hnone : w.desired[id]? = none) : w'.desired[id]? = none := by
  by_cases hid : id = t.mmNodeId
  · subst hid
    rcases h.row with heq | heq
    · exact heq.trans hnone
    · exact heq
  · exact (h.desired id hid).trans hnone

/-- Node rows are never deleted. -/
theorem TearsDown.node_isSome {w : World} {now : DateTime} (h : TearsDown w t now w')
    {id : NodeId} (hsome : (w.nodes[id]?).isSome) : (w'.nodes[id]?).isSome := by
  by_cases hid : id = t.mmNodeId
  · subst hid
    rcases h.node with heq | ⟨row, state, -, heq⟩
    · rwa [heq]
    · rw [heq]
      rfl
  · rwa [h.nodes id hid]

/-! ## Loops of teardowns -/

section Loop
variable {ρ : Type} {f : World × ρ → ObservedNode → World × ρ} {now : DateTime} {nodes : List ObservedNode}

/-- A loop that tears down distinct nodes: when the loop reaches a node, its rows are as
they were at the start. -/
theorem foldl_teardown_induction (hf : ∀ acc n, TearsDown acc.1 n.teardownTarget now (f acc n).1)
    (hnodup : (nodes.map mmNodeId).Nodup) {P : World → Prop} (acc : World × ρ) (init : P acc.1)
    (step : ∀ acc' n, n ∈ nodes → acc'.1.nodes[n.mmNodeId]? = acc.1.nodes[n.mmNodeId]? →
      acc'.1.desired[n.mmNodeId]? = acc.1.desired[n.mmNodeId]? → P acc'.1 → P (f acc' n).1) :
    P (nodes.foldl f acc).1 := by
  -- Generalised over the part of the loop that is left: its nodes are untouched.
  have main : ∀ rest acc', rest ⊆ nodes →
      (rest.map mmNodeId).Nodup →
      (∀ n ∈ rest, acc'.1.nodes[n.mmNodeId]? = acc.1.nodes[n.mmNodeId]? ∧
        acc'.1.desired[n.mmNodeId]? = acc.1.desired[n.mmNodeId]?) →
      P acc'.1 → P (rest.foldl f acc').1 := by
    intro rest
    induction rest with
    | nil => intro acc' _ _ _ hP; exact hP
    | cons n rest ih =>
      intro acc' hsub hdistinct huntouched hP
      obtain ⟨hn, hrest⟩ := nodup_cons.mp hdistinct
      obtain ⟨hnode, hdesired⟩ := huntouched n mem_cons_self
      refine ih (f acc' n) (fun m hm => hsub (mem_cons_of_mem _ hm)) hrest ?_
        (step acc' n (hsub mem_cons_self) hnode hdesired hP)
      intro m hm
      have hne : m.mmNodeId ≠ n.teardownTarget.mmNodeId := by
        intro heq
        have hsame : m.mmNodeId = n.mmNodeId := heq
        exact hn (hsame ▸ mem_map_of_mem hm)
      obtain ⟨hmnode, hmdesired⟩ := huntouched m (mem_cons_of_mem _ hm)
      exact ⟨((hf acc' n).nodes _ hne).trans hmnode, ((hf acc' n).desired _ hne).trans hmdesired⟩
  exact main nodes acc (List.Subset.refl _) hnodup (fun n _ => ⟨rfl, rfl⟩) init

end Loop

theorem tearDown_tearsDown (now : DateTime) (io : NodeId → TeardownIo) (acc : World × TickReport) (n : ObservedNode) :
    TearsDown acc.1 n.teardownTarget now (tearDown now io acc n).1 := by
  have h := teardown_tearsDown acc.1 n.teardownTarget now (io n.mmNodeId)
  unfold tearDown
  split <;> rename_i heq <;> rw [heq] at h <;> exact h

theorem sweepOne_tearsDown (increment : BillingIncrement) (now : DateTime) (io : NodeId → TeardownIo)
    (acc : World × SweepReport) (n : ObservedNode) :
    TearsDown acc.1 n.teardownTarget now (sweepOne increment now io acc n).1 := by
  have h := teardown_tearsDown acc.1 n.teardownTarget now (io n.mmNodeId)
  unfold sweepOne
  dsimp only
  split
  · exact TearsDown.refl ..
  · split <;> rename_i heq <;> rw [heq] at h <;> exact h

/-! ## What loops of teardowns do to the tables -/

/-- An effect of tearing down nodes of `ids`. -/
def DrainEffect (ids : List NodeId) (e : Effect) : Prop :=
  (∃ id ∈ ids, e = .droppedDesired id ∨ e = .tornDown id) ∨ ∃ call, e = .destroy call

/-- Everything a loop of teardowns of `ids` can do to the world. -/
structure Drained (w : World) (ids : List NodeId) (w' : World) : Prop where
  file : w'.file = w.file
  known : ∀ id : NodeId, (w.nodes[id]?).isSome → (w'.nodes[id]?).isSome
  gone : ∀ id : NodeId, w.desired[id]? = none → w'.desired[id]? = none
  others : ∀ id, id ∉ ids → w'.desired[id]? = w.desired[id]?
  trace : ∃ effects, w'.trace = effects ++ w.trace ∧ ∀ e ∈ effects, DrainEffect ids e

theorem TearsDown.drained {w : World} {now : DateTime}
    (h : TearsDown w n.teardownTarget now w') (hn : n.mmNodeId ∈ ids) : Drained w ids w' where
  file := h.file
  known := fun _ => h.node_isSome
  gone := fun _ => h.desired_none
  others := by
    intro id hid
    apply h.desired
    rintro rfl
    exact hid hn
  trace := by
    obtain ⟨effects, htrace, heffects⟩ := h.trace
    refine ⟨effects, htrace, ?_⟩
    intro e he
    cases heffects e he with
    | dropped _ => exact .inl ⟨n.mmNodeId, hn, .inl rfl⟩
    | called _ => exact .inr ⟨_, rfl⟩
    | tornDown => exact .inl ⟨n.mmNodeId, hn, .inr rfl⟩

theorem Drained.trans {w₁ w₂ w₃} (h : Drained w₁ ids w₂) (h' : Drained w₂ ids w₃) :
    Drained w₁ ids w₃ where
  file := h'.file.trans h.file
  known := fun id hid => h'.known id (h.known id hid)
  gone := fun id hid => h'.gone id (h.gone id hid)
  others := fun id hid => (h'.others id hid).trans (h.others id hid)
  trace := by
    obtain ⟨effects, htrace, heffects⟩ := h.trace
    obtain ⟨effects', htrace', heffects'⟩ := h'.trace
    refine ⟨effects' ++ effects, by rw [htrace', htrace, append_assoc], ?_⟩
    intro e he
    rcases mem_append.mp he with he | he
    · exact heffects' e he
    · exact heffects e he

/-- Only nodes of `ids` are newly dropped or torn down. -/
theorem Drained.torn {w} (h : Drained w ids w') {e id}
    (htorn : e = .droppedDesired id ∨ e = .tornDown id) (he : e ∈ w'.trace) : e ∈ w.trace ∨ id ∈ ids := by
  obtain ⟨effects, htrace, heffects⟩ := h.trace
  rw [htrace, mem_append] at he
  rcases he with hnew | hold
  · right
    rcases heffects e hnew with ⟨id', hid', hdone⟩ | ⟨call, hcall⟩
    · grind
    · grind
  · exact .inl hold

theorem foldl_drained {ρ : Type} {f now}
    (hf : ∀ acc n, TearsDown acc.1 n.teardownTarget now (f acc n).1) (nodes : List ObservedNode) (acc : World × ρ) :
    Drained acc.1 (nodes.map mmNodeId) (nodes.foldl f acc).1 := by
  refine List.foldlRecOn (motive := fun x : World × ρ => Drained acc.1 (nodes.map mmNodeId) x.1) nodes f
    ⟨rfl, fun _ h => h, fun _ h => h, fun _ _ => rfl, [], rfl, nofun⟩ ?_
  intro acc' hdrained n hn
  exact hdrained.trans ((hf acc' n).drained (mem_map_of_mem hn))

end MatrixMedia.Fleet
