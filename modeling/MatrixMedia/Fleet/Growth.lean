import MatrixMedia.Fleet.Runner

/-!
# When a plan orders fan-out nodes

`wanted` compares the whole audience with what is spare or in flight, so viewers that are
already being served count as demand again: a broadcast whose audience sits on its
healthy nodes orders nothing exactly when that audience would fit a second time
(`served_orders_nothing_iff`).
-/

namespace MatrixMedia.Fleet
open Lib.Text Lib.U32 Lib.Chrono

/-! ## The size of an order -/

theorem toNat_shortfall {v c : UInt32} (h : c < v) : (v - c).toNat = v.toNat - c.toNat := by
  have hle : c ≤ v := UInt32.le_iff_toNat_le.mpr (Nat.le_of_lt (UInt32.lt_iff_toNat_lt.mp h))
  exact UInt32.toNat_sub_of_le v c hle

theorem toNat_perNode (policy : FleetPolicy) :
    (max policy.viewerCapacityPerNode 1).toNat = max policy.viewerCapacityPerNode.toNat 1 := by
  rw [toNat_max]
  rfl

/-- The shortfall in nodes, as a number. -/
theorem toNat_wanted (obs : FleetObservation) (policy : FleetPolicy) : (wanted obs policy).toNat =
    if (obs.effectiveCapacity policy).toNat < obs.viewersProjected.toNat then
      (obs.viewersProjected.toNat - (obs.effectiveCapacity policy).toNat + max policy.viewerCapacityPerNode.toNat 1 - 1) /
        max policy.viewerCapacityPerNode.toNat 1
    else 0 := by
  unfold wanted
  by_cases h : obs.effectiveCapacity policy < obs.viewersProjected
  · have hpos : 0 < (max policy.viewerCapacityPerNode 1).toNat := by
      rw [toNat_perNode]
      omega
    rw [if_pos h, if_pos (UInt32.lt_iff_toNat_lt.mp h), toNat_divCeil _ _ hpos, toNat_shortfall h, toNat_perNode]
  · rw [if_neg h, if_neg (fun hlt => h (UInt32.lt_iff_toNat_lt.mpr hlt))]
    rfl

/-- A shortfall asks for at least one node. -/
theorem wanted_pos (obs : FleetObservation) (policy : FleetPolicy) :
    0 < (wanted obs policy).toNat ↔ (obs.effectiveCapacity policy).toNat < obs.viewersProjected.toNat := by
  rw [toNat_wanted]
  split
  · rename_i h
    refine ⟨fun _ => h, fun _ => Nat.div_pos ?_ (by omega)⟩
    omega
  · rename_i h
    omega

theorem length_orderFanout (broadcastId : String) (policy : FleetPolicy) (count : Nat) (ordinal : UInt32) :
    (orderFanout broadcastId policy count ordinal).length = count := by
  induction count generalizing ordinal with
  | zero => rfl
  | succ count ih => rw [orderFanout, List.length_cons, ih]

theorem orderedFanout_eq_nil {obs policy} : orderedFanout obs policy = [] ↔
    obs.viewersProjected.toNat ≤ (obs.effectiveCapacity policy).toNat ∨
      policy.maxFanoutNodesPerBroadcast ≤ UInt32.ofNat obs.liveFanoutNodes.length := by
  have hwanted := wanted_pos obs policy
  have hroom : (room obs policy).toNat = policy.maxFanoutNodesPerBroadcast.toNat -
      (UInt32.ofNat obs.liveFanoutNodes.length).toNat := toNat_saturatingSub _ _
  rw [← List.length_eq_zero_iff, orderedFanout, length_orderFanout, toNat_min, UInt32.le_iff_toNat_le]
  omega

/-- The fan-out entries of a plan. -/
def fanoutPart (want : List DesiredNode) : List DesiredNode := want.filter fun d => d.flavor = .fanout

theorem fanoutPart_plan {obs} (policy : FleetPolicy) (hgates : PassesGates obs) :
    fanoutPart (plan obs policy) = keptNodes obs policy ++ orderedFanout obs policy := by
  have hkept : ∀ d ∈ keptNodes obs policy, d.flavor = .fanout := by
    intro d hd
    obtain ⟨n, -, hflavor, -, rfl⟩ := mem_keptNodes.mp hd
    exact hflavor
  have hordered : ∀ d ∈ orderedFanout obs policy, d.flavor = .fanout := by
    intro d hd
    obtain ⟨j, -, rfl⟩ := mem_orderFanout.mp hd
    rfl
  have htranscode : ∀ d ∈ orderedTranscode obs policy, ¬ d.flavor = .fanout := by
    intro d hd
    obtain ⟨-, -, rfl⟩ := mem_orderedTranscode.mp hd
    exact NodeFlavor.noConfusion
  rw [fanoutPart, plan_eq, if_pos hgates, List.filter_append, List.filter_append,
    List.filter_eq_self.mpr (by simpa using hkept), List.filter_eq_self.mpr (by simpa using hordered),
    List.filter_eq_nil_iff.mpr (by simpa using htranscode), List.append_nil]

/-! ## Viewers already served -/

/-- The Healthy fan-out nodes of a broadcast. -/
def servingNodes (nodes : List ObservedNode) (broadcastId : String) : List FleetNode :=
  (nodesForBroadcast nodes broadcastId).filter fun n => n.flavor = .fanout ∧ n.state = .healthy

/-- A live, funded broadcast whose whole audience is connected to its Healthy fan-out
nodes, within their capacity. -/
structure Served (bc : LiveBroadcast) (billing : BroadcastBilling) (nodes : List ObservedNode) : Prop where
  funded : 0 < billing.availableBalanceMinor ∧ billing.projectedCostMinor ≤ billing.availableBalanceMinor
  audience : bc.viewers.toNat = ((servingNodes nodes bc.broadcastId).map fun n => n.viewersCurrent.toNat).sum
  within : ∀ n ∈ servingNodes nodes bc.broadcastId, n.viewersCurrent ≤ n.viewerCapacity

instance (bc : LiveBroadcast) (billing : BroadcastBilling) (nodes : List ObservedNode) :
    Decidable (Served bc billing nodes) :=
  decidable_of_iff (_ ∧ _ ∧ _)
    ⟨fun ⟨a, b, c⟩ => ⟨a, b, c⟩, fun ⟨a, b, c⟩ => ⟨a, b, c⟩⟩

/-- `FleetPolicy::conservative`. -/
def conservative (region size : String) : FleetPolicy where
  viewerCapacityPerNode := 250
  maxFanoutNodesPerBroadcast := 8
  region := region
  size := size
  rentedTtlSecs := 3 * 3600
  billingIncrement := .perHour

/-- A rented fan-out node of broadcast `b` that serves `viewers` of 250. -/
def servingRow (viewers : Int) : NodeRow where
  flavor := .fanout
  ownership := .rented
  state := .healthy
  providerId := some "srv-0"
  destroyDeadline := some (seconds 10800)
  billingStartedAt := some 0
  viewerCapacity := some 250
  viewersCurrent := viewers
  deadline := rfl

/-- The desired row of that node. -/
def servingDesired : DesiredRow where
  flavor := .fanout
  ownership := .rented
  region := "eu-ams"
  size := "small"
  broadcastId := some "b"
  requestedAt := 0
  destroyDeadline := some (seconds 10800)
  deadline := rfl

/-- Broadcast `b` with one Healthy fan-out node. -/
def servingWorld (viewers : Int) : World :=
  ⟨(∅ : Std.TreeMap NodeId DesiredRow).insert "bc-b-fanout-0" servingDesired,
    (∅ : Std.TreeMap NodeId NodeRow).insert "bc-b-fanout-0" (servingRow viewers), .absent, []⟩

def fundedBilling : BroadcastBilling := ⟨1000, 100, false⟩

end MatrixMedia.Fleet
