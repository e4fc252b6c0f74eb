import MatrixMedia.Fleet.FreshIds

/-!
# How much a plan orders

`plan` computes in `u32`, and addition wraps there in a release build. `planChecked` is the same
computation with the checks of a debug build, so that a step which overflows has no result.
`plan_orders_right_amount` says for which observations and policies the planner keeps what it
documents: the ceiling, the gates, an order that covers the audience and is not one node too many,
and no step that overflows. Two nodes are enough to leave that range (`capacity_wraps`).
-/

namespace MatrixMedia.Fleet
open Lib.U32

/-! ## The checked computation -/

def checkedDivCeil (a b : UInt32) : Option UInt32 := if a % b = 0 then some (a / b) else checkedAdd (a / b) 1

def nextFreeOrdinalChecked (allNodes : List FleetNode) (broadcastId : String) : Option UInt32 :=
  match (ordinals allNodes broadcastId).max? with
  | none => some 0
  | some m => checkedAdd m 1

/-- The ordinal is advanced after the last node too. -/
def orderFanoutChecked (broadcastId : String) (policy : FleetPolicy) : Nat → UInt32 → Option (List DesiredNode)
  | 0, _ => some []
  | count + 1, ordinal =>
    (checkedAdd ordinal 1).bind fun next =>
      (orderFanoutChecked broadcastId policy count next).map (DesiredNode.fanout broadcastId ordinal policy :: ·)

/-- `plan`, or nothing when a step overflows. -/
def planChecked (obs : FleetObservation) (policy : FleetPolicy) : Option (List DesiredNode) :=
  let existing := obs.liveFanoutNodes
  let keep := existing.map fun n => DesiredNode.keep n obs.broadcastId policy
  if !obs.programmeIsLive then some keep
  else if obs.availableBalanceMinor ≤ 0 ∨ obs.availableBalanceMinor < obs.projectedCostMinor then some keep
  else
    (checkedSum ((obs.nodes.filter fun n => n.flavor.servesWebrtcViewers).map (effectiveSlots policy))).bind fun capacity =>
      let out :=
        if capacity < obs.viewersProjected then
          let shortfall := obs.viewersProjected - capacity
          let perNode := max policy.viewerCapacityPerNode 1
          (checkedDivCeil shortfall perNode).bind fun wanted =>
          (nextFreeOrdinalChecked obs.nodes obs.broadcastId).bind fun ordinal =>
            let room := saturatingSub policy.maxFanoutNodesPerBroadcast (UInt32.ofNat existing.length)
            let toAdd := min wanted room
            (orderFanoutChecked obs.broadcastId policy toAdd.toNat ordinal).map (keep ++ ·)
        else some keep
      out.map fun out => if obs.transcodeEnabled ∧ !obs.hasTranscodeNode then out ++ [DesiredNode.transcode obs.broadcastId policy] else out

/-- The fan-out nodes that the audience still needs, one viewer a node if the policy has room for none. -/
def needed (obs : FleetObservation) (policy : FleetPolicy) : Nat :=
  nodesFor policy.viewerCapacityPerNode.toNat obs.viewersProjected.toNat (capacitySum obs policy)

/-- For an audience that the nodes have no room for: the nodes can be counted, or the ceiling is below what is left of their
number; the ordinals last for the order and one more; and a node has room for someone, or there are not all of them under the
ceiling. -/
structure OrderFits (obs : FleetObservation) (policy : FleetPolicy) : Prop where
  nodes : obs.liveFanoutNodes.length < 2 ^ 32 ∨ policy.maxFanoutNodesPerBroadcast.toNat ≤ obs.liveFanoutNodes.length % 2 ^ 32
  ordinals : ∀ o ∈ ordinals obs.nodes obs.broadcastId,
    o.toNat + 1 + min (needed obs policy) (policy.maxFanoutNodesPerBroadcast.toNat - obs.liveFanoutNodes.length) < 2 ^ 32
  perNode : 0 < policy.viewerCapacityPerNode.toNat ∨ policy.maxFanoutNodesPerBroadcast.toNat < obs.liveFanoutNodes.length + needed obs policy

/-- The capacity that there is can be added up, and an order fits if there has to be one. -/
structure Fits (obs : FleetObservation) (policy : FleetPolicy) : Prop where
  capacity : capacitySum obs policy < 2 ^ 32
  order : capacitySum obs policy < obs.viewersProjected.toNat → OrderFits obs policy

section
variable {obs : FleetObservation} {policy : FleetPolicy}

/-- Rounding up does not overflow. -/
theorem checkedDivCeil_eq (a : UInt32) {b : UInt32} (hb : 0 < b.toNat) : checkedDivCeil a b = some (divCeil a b) := by
  unfold checkedDivCeil divCeil
  split
  · rfl
  · rename_i hmod
    refine checkedAdd_eq ?_
    rw [UInt32.toNat_div, UInt32.toNat_one]
    exact div_add_one_lt hmod hb

theorem orderFanoutChecked_eq (broadcastId : String) (count : Nat) (ordinal : UInt32) : orderFanoutChecked broadcastId policy count ordinal =
    if ordinal.toNat + count < 2 ^ 32 then some (orderFanout broadcastId policy count ordinal) else none := by
  induction count generalizing ordinal with
  | zero => exact (if_pos ordinal.toNat_lt).symm
  | succ count ih =>
    rw [orderFanoutChecked]
    by_cases hnext : ordinal.toNat + (1 : UInt32).toNat < 2 ^ 32
    · rw [checkedAdd_eq hnext, Option.bind_some, ih, UInt32.toNat_add, Nat.mod_eq_of_lt hnext, UInt32.toNat_one, Nat.add_assoc, Nat.add_comm 1]
      split <;> rfl
    · rw [checkedAdd, if_neg hnext, if_neg (by rw [UInt32.toNat_one] at hnext; omega)]
      rfl

/-- The ordinals of an order are counted without overflow exactly if they last for it and one more. -/
theorem orderChecked_eq (obs : FleetObservation) (policy : FleetPolicy) {count : Nat} (hcount : count < 2 ^ 32) :
    ((nextFreeOrdinalChecked obs.nodes obs.broadcastId).bind (orderFanoutChecked obs.broadcastId policy count) =
      some (orderFanout obs.broadcastId policy count (nextFreeOrdinal obs.nodes obs.broadcastId)) ∧
        ∀ o ∈ ordinals obs.nodes obs.broadcastId, o.toNat + 1 + count < 2 ^ 32) ∨
    ((nextFreeOrdinalChecked obs.nodes obs.broadcastId).bind (orderFanoutChecked obs.broadcastId policy count) = none ∧
        ¬∀ o ∈ ordinals obs.nodes obs.broadcastId, o.toNat + 1 + count < 2 ^ 32) := by
  unfold nextFreeOrdinalChecked nextFreeOrdinal
  cases hmax : (ordinals obs.nodes obs.broadcastId).max? with
  | none =>
    rw [List.max?_eq_none_iff.mp hmax]
    refine .inl ⟨?_, fun _ ho => by cases ho⟩
    rw [Option.bind_some, orderFanoutChecked_eq, if_pos (by simpa using hcount)]
  | some m =>
    obtain ⟨hmem, hle⟩ := List.max?_eq_some_iff.mp hmax
    have hall : (∀ o ∈ ordinals obs.nodes obs.broadcastId, o.toNat + 1 + count < 2 ^ 32) ↔ m.toNat + 1 + count < 2 ^ 32 :=
      ⟨fun h => h m hmem, fun h o ho => by
        have := UInt32.le_iff_toNat_le.mp (hle o ho)
        omega⟩
    rw [hall]
    by_cases hnext : m.toNat + (1 : UInt32).toNat < 2 ^ 32
    · have hnum : (m + 1).toNat = m.toNat + 1 := (UInt32.toNat_add m 1).trans (Nat.mod_eq_of_lt hnext)
      simp only [checkedAdd_eq hnext, Option.bind_some, orderFanoutChecked_eq, hnum]
      by_cases hfits : m.toNat + 1 + count < 2 ^ 32
      · exact .inl ⟨if_pos hfits, hfits⟩
      · exact .inr ⟨if_neg hfits, hfits⟩
    · simp only [checkedAdd, if_neg hnext]
      exact .inr ⟨rfl, by rw [UInt32.toNat_one] at hnext; omega⟩

/-- Past the gates no step overflows exactly if the capacity can be added up and the ordinals last. -/
theorem planChecked_iff (hgates : PassesGates obs) : planChecked obs policy = some (plan obs policy) ↔
    capacitySum obs policy < 2 ^ 32 ∧ (capacitySum obs policy < obs.viewersProjected.toNat →
      ∀ o ∈ ordinals obs.nodes obs.broadcastId, o.toNat + 1 + orderSize obs policy < 2 ^ 32) := by
  obtain ⟨hlive, hpos, hcost⟩ := hgates
  have hclosed : ¬(obs.availableBalanceMinor ≤ 0 ∨ obs.availableBalanceMinor < obs.projectedCostMinor) := by omega
  have hperNode : 0 < (max policy.viewerCapacityPerNode 1).toNat := by
    rw [toNat_perNode]
    omega
  unfold planChecked plan
  simp only [hlive, Bool.not_true, Bool.false_eq_true, if_false, if_neg hclosed]
  rw [checkedSum_eq]
  by_cases hsum : capacitySum obs policy < 2 ^ 32
  · have hshort : capacitySum obs policy < obs.viewersProjected.toNat ↔ obs.effectiveCapacity policy < obs.viewersProjected := by
      rw [UInt32.lt_iff_toNat_lt, toNat_effectiveCapacity, Nat.mod_eq_of_lt hsum]
    rw [if_pos (show (List.map UInt32.toNat _).sum < 2 ^ 32 from hsum), Option.bind_some, hshort]
    by_cases h : obs.effectiveCapacity policy < obs.viewersProjected
    · have hsize : (min (divCeil (obs.viewersProjected - obs.effectiveCapacity policy) (max policy.viewerCapacityPerNode 1))
          (saturatingSub policy.maxFanoutNodesPerBroadcast (UInt32.ofNat obs.liveFanoutNodes.length))).toNat = orderSize obs policy := by
        rw [toNat_min, orderSize, wanted, if_pos h, room]
      have hcapacity : sum (List.map (effectiveSlots policy) (List.filter (fun n => n.flavor.servesWebrtcViewers) obs.nodes)) =
        obs.effectiveCapacity policy := rfl
      simp only [hcapacity, if_pos h, checkedDivCeil_eq _ hperNode, Option.bind_some, hsize]
      have hkeep : ((nextFreeOrdinalChecked obs.nodes obs.broadcastId).bind fun ordinal =>
          (orderFanoutChecked obs.broadcastId policy (orderSize obs policy) ordinal).map
            (obs.liveFanoutNodes.map (fun n => DesiredNode.keep n obs.broadcastId policy) ++ ·)) =
          ((nextFreeOrdinalChecked obs.nodes obs.broadcastId).bind (orderFanoutChecked obs.broadcastId policy (orderSize obs policy))).map
            (obs.liveFanoutNodes.map (fun n => DesiredNode.keep n obs.broadcastId policy) ++ ·) := by
        cases nextFreeOrdinalChecked obs.nodes obs.broadcastId <;> rfl
      rw [hkeep]
      rcases orderChecked_eq obs policy (orderSize_lt obs policy) with ⟨hsome, hfits⟩ | ⟨hnone, hfits⟩
      · rw [hsome]
        simp only [Option.map_some, true_iff]
        exact ⟨hsum, fun _ => hfits⟩
      · rw [hnone]
        simp only [Option.map_none, reduceCtorEq, false_iff]
        exact fun hboth => hfits (hboth.2 h)
    · rw [if_neg (show ¬sum _ < _ from h), if_neg h]
      simp only [Option.map_some, true_iff]
      exact ⟨hsum, fun h' => absurd h' h⟩
  · rw [if_neg (show ¬(List.map UInt32.toNat _).sum < 2 ^ 32 from hsum)]
    simp only [Option.bind_none, reduceCtorEq, false_iff]
    exact fun h => hsum h.1

/-! ## Amounts -/

theorem length_keptNodes (obs : FleetObservation) (policy : FleetPolicy) : (keptNodes obs policy).length = obs.liveFanoutNodes.length :=
  List.length_map ..

theorem fanoutPart_kept (obs : FleetObservation) (policy : FleetPolicy) : fanoutPart (keptNodes obs policy) = keptNodes obs policy := by
  refine List.filter_eq_self.mpr fun d hd => ?_
  obtain ⟨n, -, hflavor, -, rfl⟩ := mem_keptNodes.mp hd
  exact decide_eq_true hflavor

/-- How many fan-out nodes a plan has beside those that it keeps. -/
def addedFanout (obs : FleetObservation) (policy : FleetPolicy) : Nat := (fanoutPart (plan obs policy)).length - obs.liveFanoutNodes.length

theorem length_fanoutPart (hgates : PassesGates obs) : (fanoutPart (plan obs policy)).length = obs.liveFanoutNodes.length + orderSize obs policy := by
  rw [fanoutPart_plan policy hgates, List.length_append, length_keptNodes, orderedFanout, length_orderFanout, toNat_min]
  rfl

theorem toNat_wanted_needed (hcapacity : capacitySum obs policy < 2 ^ 32) : (wanted obs policy).toNat = needed obs policy := by
  rw [toNat_wanted_eq, toNat_effectiveCapacity, Nat.mod_eq_of_lt hcapacity]
  rfl

/-- The order is the smallest that covers the audience, if a node has room for someone. -/
theorem needed_exact (hperNode : 0 < policy.viewerCapacityPerNode.toNat) :
    obs.viewersProjected.toNat ≤ capacitySum obs policy + needed obs policy * policy.viewerCapacityPerNode.toNat ∧
    (0 < needed obs policy → capacitySum obs policy + (needed obs policy - 1) * policy.viewerCapacityPerNode.toNat < obs.viewersProjected.toNat) := by
  have hle : ∀ k, needed obs policy ≤ k ↔ obs.viewersProjected.toNat ≤ capacitySum obs policy + k * policy.viewerCapacityPerNode.toNat := by
    intro k
    rw [needed, nodesFor_le_iff, Nat.max_eq_left hperNode]
  refine ⟨(hle _).mp (Nat.le_refl _), fun hsome => Nat.not_le.mp fun hcovers => ?_⟩
  have := (hle _).mpr hcovers
  omega

theorem toNat_room (obs : FleetObservation) (policy : FleetPolicy) :
    (room obs policy).toNat = policy.maxFanoutNodesPerBroadcast.toNat - obs.liveFanoutNodes.length % 2 ^ 32 := by
  rw [room, toNat_saturatingSub, UInt32.toNat_ofNat']

/-- Where an order fits, the ceiling's room is what it should be. -/
theorem OrderFits.toNat_room (h : OrderFits obs policy) :
    (room obs policy).toNat = policy.maxFanoutNodesPerBroadcast.toNat - obs.liveFanoutNodes.length := by
  have hlt := policy.maxFanoutNodesPerBroadcast.toNat_lt
  have hle := Nat.mod_le obs.liveFanoutNodes.length (2 ^ 32)
  rw [Fleet.toNat_room]
  rcases h.nodes with hnodes | hceiling
  · rw [Nat.mod_eq_of_lt hnodes]
  · omega

theorem orderSize_eq_zero (hshort : ¬capacitySum obs policy < obs.viewersProjected.toNat) (hcapacity : capacitySum obs policy < 2 ^ 32) :
    orderSize obs policy = 0 := by
  have hnone : needed obs policy = 0 := if_neg hshort
  rw [orderSize, toNat_wanted_needed hcapacity, hnone, Nat.zero_min]

end

/-- **A plan orders the right amount**: no step overflows; there are at most as many fan-out nodes as the
ceiling allows or as there were; nothing is added unless both gates pass; and if the ceiling leaves room
for what is wanted, the order covers the audience and one node less would not. This holds exactly where a gate is closed or
the numbers fit. -/
theorem plan_orders_right_amount (obs : FleetObservation) (policy : FleetPolicy) :
    (planChecked obs policy = some (plan obs policy) ∧
      (fanoutPart (plan obs policy)).length ≤ max policy.maxFanoutNodesPerBroadcast.toNat obs.liveFanoutNodes.length ∧
      (¬PassesGates obs → plan obs policy = keptNodes obs policy) ∧
      (PassesGates obs → (wanted obs policy).toNat ≤ (room obs policy).toNat →
        obs.viewersProjected.toNat ≤ capacitySum obs policy + addedFanout obs policy * policy.viewerCapacityPerNode.toNat ∧
        (0 < addedFanout obs policy →
          capacitySum obs policy + (addedFanout obs policy - 1) * policy.viewerCapacityPerNode.toNat < obs.viewersProjected.toNat))) ↔
    (PassesGates obs → Fits obs policy) := by
  have hceiling := policy.maxFanoutNodesPerBroadcast.toNat_lt
  by_cases hgates : PassesGates obs
  · have hadded : addedFanout obs policy = orderSize obs policy := by
      rw [addedFanout, length_fanoutPart hgates]
      omega
    simp only [planChecked_iff hgates, length_fanoutPart hgates, hadded, hgates, not_true_eq_false, false_implies, true_implies, true_and]
    constructor
    · rintro ⟨⟨hcapacity, hordinals⟩, hle, hamount⟩
      have hwanted := toNat_wanted_needed hcapacity
      refine ⟨hcapacity, fun hshort => ?_⟩
      have hpos : 0 < needed obs policy := nodesFor_pos hshort
      have hnodes : obs.liveFanoutNodes.length < 2 ^ 32 ∨ policy.maxFanoutNodesPerBroadcast.toNat ≤ obs.liveFanoutNodes.length % 2 ^ 32 := by
        rw [orderSize, hwanted, toNat_room] at hle
        omega
      have hroom : (room obs policy).toNat = policy.maxFanoutNodesPerBroadcast.toNat - obs.liveFanoutNodes.length := by
        rw [toNat_room]
        omega
      refine ⟨hnodes, ?_, ?_⟩
      · rw [← hroom, ← hwanted]
        exact hordinals hshort
      · by_contra hnone
        have hall : needed obs policy ≤ policy.maxFanoutNodesPerBroadcast.toNat - obs.liveFanoutNodes.length := by omega
        have hcovers := (hamount (by rw [hwanted, hroom]; exact hall)).1
        rw [show policy.viewerCapacityPerNode.toNat = 0 by omega, Nat.mul_zero] at hcovers
        omega
    · rintro ⟨hcapacity, horder⟩
      have hwanted := toNat_wanted_needed hcapacity
      by_cases hshort : capacitySum obs policy < obs.viewersProjected.toNat
      · have hfits := horder hshort
        have hroom := hfits.toNat_room
        have hsize : orderSize obs policy = min (needed obs policy) (policy.maxFanoutNodesPerBroadcast.toNat - obs.liveFanoutNodes.length) := by
          rw [orderSize, hwanted, hroom]
        refine ⟨⟨hcapacity, fun _ => ?_⟩, ?_, fun hall => ?_⟩
        · rw [hsize]
          exact hfits.ordinals
        · omega
        · rw [hwanted, hroom] at hall
          rw [hsize, Nat.min_eq_left hall]
          refine needed_exact ?_
          have := hfits.perNode
          have : 0 < needed obs policy := nodesFor_pos hshort
          omega
      · rw [orderSize_eq_zero hshort hcapacity]
        exact ⟨⟨hcapacity, fun h => absurd h hshort⟩, Nat.le_max_right _ _, fun _ => ⟨by omega, fun h => absurd h (Nat.lt_irrefl 0)⟩⟩
  · have hplan : plan obs policy = keptNodes obs policy := by rw [plan_eq, if_neg hgates]
    have hchecked : planChecked obs policy = some (keptNodes obs policy) := by
      unfold planChecked
      split
      · rfl
      · rename_i hlive
        refine if_pos ?_
        by_contra hopen
        exact hgates ⟨by simpa using hlive, by omega, by omega⟩
    simp only [hgates, false_implies, iff_true, hchecked, hplan, fanoutPart_kept, length_keptNodes, and_true, true_and, implies_true]
    exact Nat.le_max_right _ _

/-- A healthy fan-out node of broadcast `b` that serves nobody. -/
def idleNode (ordinal capacity : UInt32) : FleetNode := ⟨fanoutId "b" ordinal, .fanout, .rented, .healthy, capacity, 0⟩

theorem plan_orders_right_amount_idle : Fits (liveObs 700 [idleNode 0 250]) (conservative "eu-ams" "small") ∧
    700 ≤ 250 + addedFanout (liveObs 700 [idleNode 0 250]) (conservative "eu-ams" "small") * 250 ∧
    addedFanout (liveObs 700 [idleNode 0 250]) (conservative "eu-ams" "small") = 2 := by
  have hfits : Fits (liveObs 700 [idleNode 0 250]) (conservative "eu-ams" "small") :=
    ⟨by decide +kernel, fun _ => ⟨by decide +kernel, List.forall_iff_forall_mem.mp (by decide +kernel), by decide +kernel⟩⟩
  obtain ⟨-, -, -, hamount⟩ := (plan_orders_right_amount _ _).mpr fun _ => hfits
  exact ⟨hfits, (hamount (by decide) (by decide +kernel)).1, by decide +kernel⟩

/-- The spare slots of two nodes are 2 ^ 32, which overflows; where it wraps, a node is ordered for an
audience that they have room for. -/
theorem capacity_wraps : ∃ (obs : FleetObservation) (policy : FleetPolicy), PassesGates obs ∧ obs.viewersProjected.toNat = 100 ∧
    capacitySum obs policy = 2 ^ 32 ∧ planChecked obs policy = none ∧ addedFanout obs policy = 1 :=
  ⟨liveObs 100 [idleNode 0 2147483648, idleNode 1 2147483648], conservative "eu-ams" "small", by decide, by decide, by decide +kernel,
    by decide +kernel, by decide +kernel⟩

end MatrixMedia.Fleet
