import MatrixMedia.Fleet.Replan

/-!
# The ids of a plan

The ids of a plan are those of nodes that it keeps, ordinals past every ordinal of the observation,
and one fixed id for a transcode node. They are fresh exactly if an order that runs past the last
ordinal comes upon no name that is taken, and the fixed id is not taken either (`NamesFree`). A
broadcast's second transcode node has the id of its first (`planned_id_reused`).
-/

namespace MatrixMedia.Fleet

open Lib.Text Lib.U32 DesiredNode List

/-- The node's name is not free: it had it and is gone, or the plan keeps it. -/
def Taken (n : FleetNode) : Prop := n.state = .gone ∨ n.flavor = .fanout

instance (n : FleetNode) : Decidable (Taken n) := inferInstanceAs (Decidable (_ ∨ _))

/-- There are names left for what is ordered: the order does not run past `2 ^ 32` and on to the ordinal of a name that is
taken, and the name of a transcode node that is ordered is free. -/
structure NamesFree (obs : FleetObservation) (policy : FleetPolicy) : Prop where
  ordinals : ∀ last ∈ ordinals obs.nodes obs.broadcastId, ∀ n ∈ obs.nodes, Taken n →
    ∀ o : UInt32, n.id = fanoutId obs.broadcastId o → last.toNat + orderSize obs policy < o.toNat + 2 ^ 32
  transcode : obs.transcodeEnabled = true → obs.hasTranscodeNode = false → ∀ n ∈ obs.nodes, Taken n → n.id ≠ transcodeId obs.broadcastId

section

variable {obs : FleetObservation} {policy : FleetPolicy} {n : FleetNode} {o : UInt32}

theorem orderSize_lt (obs : FleetObservation) (policy : FleetPolicy) : orderSize obs policy < 2 ^ 32 :=
  Nat.lt_of_le_of_lt (Nat.min_le_left ..) (wanted obs policy).toNat_lt

theorem nodup_orderFanout (broadcastId : String) {count : Nat} {ordinal : UInt32} (h : count < 2 ^ 32) :
    ((orderFanout broadcastId policy count ordinal).map mmNodeId).Nodup := by
  induction count generalizing ordinal with
  | zero => exact nodup_nil
  | succ count ih =>
    rw [orderFanout, map_cons, nodup_cons]
    refine ⟨fun hmem => ?_, ih (by omega)⟩
    obtain ⟨d, hd, hid⟩ := mem_map.mp hmem
    obtain ⟨j, hj, rfl⟩ := mem_orderFanout.mp hd
    have hnum := congrArg UInt32.toNat (fanoutId_injective hid)
    rw [UInt32.toNat_add, UInt32.toNat_add, UInt32.toNat_ofNat', UInt32.toNat_one] at hnum
    have := ordinal.toNat_lt
    omega

theorem nodup_keptIds (hdistinct : (obs.nodes.map FleetNode.id).Nodup) : ((keptNodes obs policy).map mmNodeId).Nodup := by
  have hsub : ((keptNodes obs policy).map mmNodeId).Sublist (obs.nodes.map FleetNode.id) := by
    rw [keptNodes, map_map]
    exact (filter_sublist (l := obs.nodes)).map FleetNode.id
  exact hdistinct.sublist hsub

/-- An order comes upon the ordinal of a node exactly if it runs that far past `2 ^ 32`. -/
theorem id_mem_orderedIds (hn : n ∈ obs.nodes) (hid : n.id = fanoutId obs.broadcastId o) :
    n.id ∈ (orderedFanout obs policy).map mmNodeId ↔ ∃ last ∈ ordinals obs.nodes obs.broadcastId, o.toNat + 2 ^ 32 ≤ last.toNat + orderSize obs policy := by
  have hsize := orderSize_lt obs policy
  have hmem := mem_ordinals_of_id hn hid
  obtain ⟨m, hmax⟩ := Option.isSome_iff_exists.mp (isSome_max?_of_mem hmem)
  obtain ⟨hm, hle⟩ := max?_eq_some_iff.mp hmax
  have hfirst : firstOrdinal obs = (m.toNat + 1) % 2 ^ 32 := by
    rw [firstOrdinal, nextFreeOrdinal, hmax]
    exact UInt32.toNat_add m 1
  have hom := UInt32.le_iff_toNat_le.mp (hle o hmem)
  have hlt := m.toNat_lt
  rw [mem_orderedIds, hid]
  constructor
  · rintro ⟨j, hj, heq⟩
    have hnum := congrArg UInt32.toNat (fanoutId_injective heq)
    rw [UInt32.toNat_ofNat', hfirst] at hnum
    exact ⟨m, hm, by omega⟩
  · rintro ⟨last, hlast, hpast⟩
    have hlm := UInt32.le_iff_toNat_le.mp (hle last hlast)
    refine ⟨o.toNat + 2 ^ 32 - (m.toNat + 1), by omega, congrArg _ (UInt32.toNat_inj.mp ?_)⟩
    rw [UInt32.toNat_ofNat', hfirst]
    omega

/-- What is ordered has no name that is taken. -/
theorem namesFree_iff : NamesFree obs policy ↔
    ∀ n ∈ obs.nodes, Taken n → n.id ∉ (orderedFanout obs policy).map mmNodeId ∧ n.id ∉ (orderedTranscode obs policy).map mmNodeId := by
  constructor
  · refine fun h n hn htaken => ⟨fun hmem => ?_, fun hmem => ?_⟩
    · obtain ⟨j, -, hid⟩ := mem_orderedIds.mp hmem
      obtain ⟨last, hlast, hpast⟩ := (id_mem_orderedIds hn hid).mp hmem
      have := h.ordinals last hlast n hn htaken _ hid
      omega
    · obtain ⟨d, hd, hid⟩ := mem_map.mp hmem
      obtain ⟨henabled, hnone, rfl⟩ := mem_orderedTranscode.mp hd
      exact h.transcode henabled hnone n hn htaken hid.symm
  · refine fun h => ⟨fun last hlast n hn htaken o hid => ?_, fun henabled hnone n hn htaken hid => ?_⟩
    · exact Nat.not_le.mp fun hpast => (h n hn htaken).1 ((id_mem_orderedIds hn hid).mpr ⟨last, hlast, hpast⟩)
    · exact (h n hn htaken).2 (mem_map.mpr ⟨_, mem_orderedTranscode.mpr ⟨henabled, hnone, rfl⟩, hid.symm⟩)

theorem planIds_eq (hgates : PassesGates obs) : planIds obs policy =
    (keptNodes obs policy).map mmNodeId ++ (orderedFanout obs policy).map mmNodeId ++ (orderedTranscode obs policy).map mmNodeId := by
  rw [planIds, plan_eq, if_pos hgates, map_append, map_append]

theorem mem_keptIds {id} : id ∈ (keptNodes obs policy).map mmNodeId ↔ ∃ n ∈ obs.nodes, n.flavor = .fanout ∧ n.state ≠ .gone ∧ n.id = id := by
  simp only [mem_map, mem_keptNodes]
  constructor
  · rintro ⟨_, ⟨n, hn, hflavor, hstate, rfl⟩, rfl⟩
    exact ⟨n, hn, hflavor, hstate, rfl⟩
  · rintro ⟨n, hn, hflavor, hstate, rfl⟩
    exact ⟨_, ⟨n, hn, hflavor, hstate, rfl⟩, rfl⟩

theorem nodup_planIds (hgates : PassesGates obs) (h : NamesFree obs policy) (hdistinct : (obs.nodes.map FleetNode.id).Nodup) :
    (planIds obs policy).Nodup := by
  have hfree := namesFree_iff.mp h
  have hordered : ((orderedFanout obs policy).map mmNodeId).Nodup := nodup_orderFanout _ (UInt32.toNat_lt _)
  rw [planIds_eq hgates]
  refine List.Nodup.append (List.Nodup.append (nodup_keptIds hdistinct) hordered fun id hid hmem => ?_) ?_ fun id hid hmem => ?_
  · obtain ⟨n, hn, hflavor, -, rfl⟩ := mem_keptIds.mp hid
    exact (hfree n hn (.inr hflavor)).1 hmem
  · unfold orderedTranscode
    split
    · exact nodup_singleton _
    · exact nodup_nil
  · rcases mem_append.mp hid with hid | hid
    · obtain ⟨n, hn, hflavor, -, rfl⟩ := mem_keptIds.mp hid
      exact (hfree n hn (.inr hflavor)).2 hmem
    · obtain ⟨j, -, rfl⟩ := mem_orderedIds.mp hid
      obtain ⟨d, hd, heq⟩ := mem_map.mp hmem
      obtain ⟨-, -, rfl⟩ := mem_orderedTranscode.mp hd
      exact fanoutId_ne_transcodeId _ _ heq.symm

end

/-- **Planned ids are fresh**, that is, distinct, and one that is not that of a node which is still there is that of no node
at all, gone ones included: exactly if a gate is closed or there are names left. -/
theorem planned_ids_fresh (obs : FleetObservation) (policy : FleetPolicy) (hdistinct : (obs.nodes.map FleetNode.id).Nodup) :
    ((planIds obs policy).Nodup ∧
      ∀ id ∈ planIds obs policy, (∀ n ∈ obs.nodes, n.state ≠ .gone → n.id ≠ id) → ∀ n ∈ obs.nodes, n.id ≠ id) ↔
    (PassesGates obs → NamesFree obs policy) := by
  constructor
  · rintro ⟨hnodup, hfresh⟩ hgates
    rw [planIds_eq hgates] at hnodup hfresh
    have hnew {n : FleetNode} (hn : n ∈ obs.nodes) (htaken : Taken n)
        (hmem : n.id ∈ (orderedFanout obs policy).map mmNodeId ∨ n.id ∈ (orderedTranscode obs policy).map mmNodeId) : False := by
      by_cases hgone : n.state = .gone
      · refine hfresh n.id ?_ (fun other hother hstate hid => ?_) n hn rfl
        · rcases hmem with hmem | hmem <;> simp [hmem]
        · cases inj_on_of_nodup_map hdistinct hother hn hid
          exact hstate hgone
      · have hkept : n.id ∈ (keptNodes obs policy).map mmNodeId := mem_keptIds.mpr ⟨n, hn, htaken.resolve_left hgone, hgone, rfl⟩
        rw [List.append_assoc] at hnodup
        exact (nodup_append.mp hnodup).2.2 _ hkept _ (mem_append.mpr hmem) rfl
    exact namesFree_iff.mpr fun n hn htaken => ⟨fun hmem => hnew hn htaken (.inl hmem), fun hmem => hnew hn htaken (.inr hmem)⟩
  · intro hfree
    by_cases hgates : PassesGates obs
    · refine ⟨nodup_planIds hgates (hfree hgates) hdistinct, fun id hid hnew n hn heq => ?_⟩
      have hgone : n.state = .gone := by_contra fun hstate => hnew n hn hstate heq
      obtain ⟨hfanout, htranscode⟩ := namesFree_iff.mp (hfree hgates) n hn (.inl hgone)
      rw [planIds_eq hgates, mem_append, mem_append, mem_keptIds, ← heq] at hid
      rcases hid with (⟨kept, hkept, -, hstate, hid⟩ | hid) | hid
      · exact hnew kept hkept hstate (hid.trans heq)
      · exact hfanout hid
      · exact htranscode hid
    · rw [planIds, plan_eq, if_neg hgates]
      refine ⟨nodup_keptIds hdistinct, fun id hid hnew => ?_⟩
      obtain ⟨n, hn, -, hstate, hid⟩ := mem_keptIds.mp hid
      exact absurd hid (hnew n hn hstate)

/-- Broadcast `b` with this audience and these nodes, live and paid for. -/
def liveObs (viewers : UInt32) (nodes : List FleetNode) : FleetObservation := ⟨"b", true, true, viewers, 1000, 100, nodes⟩

def goneNode (id : NodeId) (flavor : NodeFlavor) : FleetNode := ⟨id, flavor, .rented, .gone, 250, 0⟩

/-- The last ordinal is used up, and the order starts from zero again, where nothing is taken. -/
theorem planned_ids_fresh_gone :
    (planIds (liveObs 300 [goneNode (fanoutId "b" 4294967295) .fanout]) (conservative "eu-ams" "small")).Nodup ∧
    planIds (liveObs 300 [goneNode (fanoutId "b" 4294967295) .fanout]) (conservative "eu-ams" "small") =
      ["bc-b-fanout-0", "bc-b-fanout-1", "bc-b-transcode"] := by
  refine ⟨((planned_ids_fresh _ _ (by decide)).mpr fun _ => ⟨?_, ?_⟩).1, by decide +kernel⟩
  · intro last hlast n hn _ o hid
    cases mem_singleton.mp hn
    have := last.toNat_lt
    have hsize : orderSize (liveObs 300 [goneNode (fanoutId "b" 4294967295) .fanout]) (conservative "eu-ams" "small") = 2 := by decide +kernel
    have hid : fanoutId "b" 4294967295 = fanoutId "b" o := hid
    cases fanoutId_injective hid
    show _ < 4294967295 + 2 ^ 32
    omega
  · decide

/-- The id of a gone transcode node is handed out again, and so is that of a fan-out node when the
ordinals have run out. -/
theorem planned_id_reused : ∃ obs obs' : FleetObservation, ∃ policy : FleetPolicy,
    (obs.nodes = [goneNode (transcodeId "b") .transcode] ∧ transcodeId "b" ∈ planIds obs policy) ∧
    (obs'.nodes = [goneNode (fanoutId "b" 0) .fanout, goneNode (fanoutId "b" 4294967295) .fanout] ∧ fanoutId "b" 0 ∈ planIds obs' policy) :=
  ⟨liveObs 0 [goneNode (transcodeId "b") .transcode],
    liveObs 100 [goneNode (fanoutId "b" 0) .fanout, goneNode (fanoutId "b" 4294967295) .fanout], conservative "eu-ams" "small",
    ⟨rfl, by decide +kernel⟩, ⟨rfl, by decide +kernel⟩⟩

end MatrixMedia.Fleet
