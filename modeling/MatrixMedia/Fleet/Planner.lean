import MatrixMedia.Lib.Text
import MatrixMedia.Fleet.Types

/-!
# The capacity planner (`mm-core/src/fleet/planner.rs`)

`plan` maps an observation of one broadcast to the complete set of nodes that should
exist for it. After the definitions come the facts the rest of the fleet relies on:
`plan_eq` cuts a plan into the nodes it keeps, the fan-out nodes it orders and the
transcode node it orders; `notMem_ordered` says that an ordered ordinal is past every
ordinal the observation knows.
-/

namespace MatrixMedia.Fleet
open Lib.Text Lib.U32

/-- Operator-set limits and shapes. -/
structure FleetPolicy where
  viewerCapacityPerNode : UInt32
  maxFanoutNodesPerBroadcast : UInt32
  region : String
  size : String
  rentedTtlSecs : UInt32
  billingIncrement : BillingIncrement

/-- Everything the planner is allowed to know. -/
structure FleetObservation where
  broadcastId : String
  programmeIsLive : Bool
  transcodeEnabled : Bool
  viewersProjected : UInt32
  availableBalanceMinor : Int
  projectedCostMinor : Int
  nodes : List FleetNode

section
variable (obs : FleetObservation)

def FleetObservation.hasTranscodeNode : Bool :=
  obs.nodes.any fun n => n.flavor = .transcode ∧ n.state ≠ .gone

/-- Viewer slots of one node that are available or already paid for. -/
def effectiveSlots (policy : FleetPolicy) (n : FleetNode) : UInt32 :=
  match n.state with
  | .healthy => n.headroom
  | .requested | .booting => if n.viewerCapacity = 0 then policy.viewerCapacityPerNode else n.viewerCapacity
  | _ => 0

/-- Viewer slots available or already paid for and on the way. -/
def FleetObservation.effectiveCapacity (policy : FleetPolicy) : UInt32 :=
  sum ((obs.nodes.filter fun n => n.flavor.servesWebrtcViewers).map (effectiveSlots policy))

/-- Fan-out nodes we already want, whatever their state. -/
def FleetObservation.liveFanoutNodes : List FleetNode :=
  obs.nodes.filter fun n => n.flavor = .fanout ∧ n.state ≠ .gone

/-- One row of `mm_fleet_desired`, minus the timestamp only a clock can supply. -/
structure DesiredNode where
  mmNodeId : NodeId
  flavor : NodeFlavor
  ownership : Ownership
  region : String
  size : String
  broadcastId : String
  destroyAfterSecs : Option UInt32
deriving DecidableEq

def fanoutStem (broadcastId : String) : String := "bc-" ++ broadcastId ++ "-fanout-"

def fanoutId (broadcastId : String) (ordinal : UInt32) : NodeId := fanoutStem broadcastId ++ ordinal.toNat.repr

def transcodeId (broadcastId : String) : NodeId := "bc-" ++ broadcastId ++ "-transcode"

def DesiredNode.fanout (broadcastId : String) (ordinal : UInt32) (policy : FleetPolicy) : DesiredNode where
  mmNodeId := fanoutId broadcastId ordinal
  flavor := .fanout
  ownership := .rented
  region := policy.region
  size := policy.size
  broadcastId := broadcastId
  destroyAfterSecs := some policy.rentedTtlSecs

def DesiredNode.transcode (broadcastId : String) (policy : FleetPolicy) : DesiredNode where
  mmNodeId := transcodeId broadcastId
  flavor := .transcode
  ownership := .rented
  region := policy.region
  size := policy.size
  broadcastId := broadcastId
  destroyAfterSecs := some policy.rentedTtlSecs

/-- An existing node re-stated as desired. -/
def DesiredNode.keep (node : FleetNode) (broadcastId : String) (policy : FleetPolicy) : DesiredNode where
  mmNodeId := node.id
  flavor := node.flavor
  ownership := node.ownership
  region := policy.region
  size := policy.size
  broadcastId := broadcastId
  destroyAfterSecs := if node.ownership.requiresDestroyDeadline then some policy.rentedTtlSecs else none

/-- The ordinals a broadcast has ever used. -/
def ordinals (allNodes : List FleetNode) (broadcastId : String) : List UInt32 :=
  (allNodes.filterMap fun n => stripPrefix (fanoutStem broadcastId) n.id).filterMap parseU32

/-- One past the highest ordinal this broadcast has ever used, across every node state. -/
def nextFreeOrdinal (allNodes : List FleetNode) (broadcastId : String) : UInt32 :=
  match (ordinals allNodes broadcastId).max? with
  | none => 0
  | some m => m + 1

/-- The loop that orders `count` fan-out nodes from `ordinal` on. -/
def orderFanout (broadcastId : String) (policy : FleetPolicy) : Nat → UInt32 → List DesiredNode
  | 0, _ => []
  | count + 1, ordinal => DesiredNode.fanout broadcastId ordinal policy :: orderFanout broadcastId policy count (ordinal + 1)

/-- The complete set of nodes that should exist for this broadcast. -/
def plan (policy : FleetPolicy) : List DesiredNode :=
  let existing := obs.liveFanoutNodes
  let keep := existing.map fun n => DesiredNode.keep n obs.broadcastId policy
  -- Gate 1: only live programme content promotes.
  if !obs.programmeIsLive then keep
  -- Gate 2: the wallet must cover the projected cost.
  else if obs.availableBalanceMinor ≤ 0 ∨ obs.availableBalanceMinor < obs.projectedCostMinor then keep
  else
    let capacity := obs.effectiveCapacity policy
    let out :=
      if capacity < obs.viewersProjected then
        let shortfall := obs.viewersProjected - capacity
        let perNode := max policy.viewerCapacityPerNode 1
        let wanted := divCeil shortfall perNode
        let room := saturatingSub policy.maxFanoutNodesPerBroadcast (UInt32.ofNat existing.length)
        let toAdd := min wanted room
        keep ++ orderFanout obs.broadcastId policy toAdd.toNat (nextFreeOrdinal obs.nodes obs.broadcastId)
      else keep
    if obs.transcodeEnabled ∧ !obs.hasTranscodeNode then out ++ [DesiredNode.transcode obs.broadcastId policy]
    else out

end

/-! ## The three parts of a plan -/

section Parts
variable (obs : FleetObservation) (policy : FleetPolicy)

/-- The existing nodes a plan re-states. -/
def keptNodes : List DesiredNode := obs.liveFanoutNodes.map fun n => DesiredNode.keep n obs.broadcastId policy

/-- Both gates let the broadcast grow. -/
def PassesGates : Prop :=
  obs.programmeIsLive = true ∧ 0 < obs.availableBalanceMinor ∧ obs.projectedCostMinor ≤ obs.availableBalanceMinor

instance : Decidable (PassesGates obs) :=
  inferInstanceAs (Decidable (_ ∧ _))

/-- Fan-out nodes the shortfall asks for. -/
def wanted : UInt32 :=
  if obs.effectiveCapacity policy < obs.viewersProjected then
    divCeil (obs.viewersProjected - obs.effectiveCapacity policy) (max policy.viewerCapacityPerNode 1)
  else 0

/-- Fan-out nodes the ceiling still allows. -/
def room : UInt32 := saturatingSub policy.maxFanoutNodesPerBroadcast (UInt32.ofNat obs.liveFanoutNodes.length)

/-- Fan-out nodes a plan that passes the gates orders. -/
def orderedFanout : List DesiredNode :=
  orderFanout obs.broadcastId policy (min (wanted obs policy) (room obs policy)).toNat
    (nextFreeOrdinal obs.nodes obs.broadcastId)

/-- The transcode node it orders, if any. -/
def orderedTranscode : List DesiredNode :=
  if obs.transcodeEnabled ∧ !obs.hasTranscodeNode then [DesiredNode.transcode obs.broadcastId policy] else []

end Parts

theorem plan_eq (obs : FleetObservation) (policy : FleetPolicy) : plan obs policy =
    if PassesGates obs then keptNodes obs policy ++ orderedFanout obs policy ++ orderedTranscode obs policy
    else keptNodes obs policy := by
  by_cases hgates : PassesGates obs
  · obtain ⟨hlive, hpos, hcost⟩ := hgates
    have hclosed : ¬ (obs.availableBalanceMinor ≤ 0 ∨ obs.availableBalanceMinor < obs.projectedCostMinor) := by
      omega
    rw [if_pos ⟨hlive, hpos, hcost⟩]
    unfold plan orderedFanout orderedTranscode wanted room keptNodes
    rw [hlive, Bool.not_true, if_neg Bool.false_ne_true, if_neg hclosed]
    by_cases hshort : obs.effectiveCapacity policy < obs.viewersProjected
    · simp only [if_pos hshort]
      split <;> simp
    · have hzero : (min 0 (saturatingSub policy.maxFanoutNodesPerBroadcast
          (UInt32.ofNat obs.liveFanoutNodes.length))).toNat = 0 := by
        rw [toNat_min]
        simp
      simp only [if_neg hshort, hzero, orderFanout, List.append_nil]
      split <;> simp
  · rw [if_neg hgates]
    unfold plan keptNodes
    by_cases hlive : obs.programmeIsLive = true
    · have hclosed : obs.availableBalanceMinor ≤ 0 ∨ obs.availableBalanceMinor < obs.projectedCostMinor := by
        by_contra hopen
        exact hgates ⟨hlive, by omega, by omega⟩
      rw [hlive, Bool.not_true, if_neg Bool.false_ne_true, if_pos hclosed]
    · rw [Bool.eq_false_iff.mpr hlive, Bool.not_false, if_pos rfl]

variable {count : Nat} {broadcastId : String} {d : DesiredNode}

theorem mem_keptNodes {obs policy} :
    d ∈ keptNodes obs policy ↔ ∃ n ∈ obs.nodes, n.flavor = .fanout ∧ n.state ≠ .gone ∧
      DesiredNode.keep n obs.broadcastId policy = d := by
  simp only [keptNodes, FleetObservation.liveFanoutNodes, List.mem_map, List.mem_filter, decide_eq_true_eq, and_assoc]

theorem mem_orderFanout {policy ordinal} : d ∈ orderFanout broadcastId policy count ordinal ↔
      ∃ j < count, d = DesiredNode.fanout broadcastId (ordinal + UInt32.ofNat j) policy := by
  induction count generalizing ordinal with
  | zero => simp [orderFanout]
  | succ count ih =>
    rw [orderFanout, List.mem_cons, ih]
    constructor
    · rintro (rfl | ⟨j, hj, rfl⟩)
      · exact ⟨0, by omega, by rw [show UInt32.ofNat 0 = 0 from rfl, UInt32.add_zero]⟩
      · refine ⟨j + 1, by omega, ?_⟩
        rw [UInt32.ofNat_add, UInt32.add_assoc, UInt32.add_comm (UInt32.ofNat j)]
        rfl
    · rintro ⟨j, hj, rfl⟩
      cases j with
      | zero => exact .inl (by rw [show UInt32.ofNat 0 = 0 from rfl, UInt32.add_zero])
      | succ j =>
        refine .inr ⟨j, by omega, ?_⟩
        rw [UInt32.ofNat_add, UInt32.add_assoc, UInt32.add_comm (UInt32.ofNat j)]
        rfl

theorem mem_orderedTranscode {obs policy} :
    d ∈ orderedTranscode obs policy ↔
      obs.transcodeEnabled = true ∧ obs.hasTranscodeNode = false ∧ d = .transcode obs.broadcastId policy := by
  unfold orderedTranscode
  split
  · rename_i h
    simp only [Bool.not_eq_true'] at h
    simp [h.1, h.2]
  · rename_i h
    simp only [Bool.not_eq_true', not_and] at h
    constructor
    · intro hd
      cases hd
    · rintro ⟨henabled, hnone, -⟩
      exact absurd hnone (h henabled)

/-- Everything a plan can hold. -/
theorem mem_plan {obs policy} :
    d ∈ plan obs policy ↔ d ∈ keptNodes obs policy ∨
      PassesGates obs ∧ (d ∈ orderedFanout obs policy ∨ d ∈ orderedTranscode obs policy) := by
  rw [plan_eq]
  by_cases hgates : PassesGates obs
  · simp [hgates]
  · simp [hgates]

theorem room_le (obs : FleetObservation) (policy : FleetPolicy) :
    (room obs policy).toNat ≤ policy.maxFanoutNodesPerBroadcast.toNat := by
  rw [room, toNat_saturatingSub]
  omega

/-! ## Node ids -/

theorem mem_ordinals {nodes o} :
    o ∈ ordinals nodes broadcastId ↔
      ∃ n ∈ nodes, ∃ text, n.id = fanoutStem broadcastId ++ text ∧ parseU32 text = some o := by
  simp only [ordinals, List.mem_filterMap, stripPrefix_eq_some]
  constructor
  · rintro ⟨text, ⟨n, hn, hid⟩, hparse⟩
    exact ⟨n, hn, text, hid, hparse⟩
  · rintro ⟨n, hn, text, hid, hparse⟩
    exact ⟨text, ⟨n, hn, hid⟩, hparse⟩

/-- A node under a generated id has its ordinal counted. -/
theorem mem_ordinals_of_id {nodes o n}
    (hn : n ∈ nodes) (hid : n.id = fanoutId broadcastId o) : o ∈ ordinals nodes broadcastId :=
  mem_ordinals.mpr ⟨n, hn, o.toNat.repr, hid, parseU32_repr o⟩

theorem fanoutId_injective {a b} (h : fanoutId broadcastId a = fanoutId broadcastId b) :
    a = b := by
  have hchars := congrArg String.toList h
  rw [fanoutId, fanoutId, String.toList_append, String.toList_append] at hchars
  exact UInt32.toNat_inj.mp (repr_injective (String.toList_inj.mp (List.append_cancel_left hchars)))

theorem fanoutId_ne_transcodeId (broadcastId : String) (o : UInt32) :
    fanoutId broadcastId o ≠ transcodeId broadcastId := by
  intro h
  have hchars := congrArg String.toList h
  simp only [fanoutId, fanoutStem, transcodeId, String.toList_append, List.append_assoc] at hchars
  have htail := List.append_cancel_left (List.append_cancel_left hchars)
  have hfirst := congrArg (fun l => l[1]?) htail
  exact absurd hfirst (by simp)

/-- Ordinals that leave room for `count` more below `2 ^ 32`. -/
def OrdinalsFit (obs : FleetObservation) (count : Nat) : Prop :=
  ∀ o ∈ ordinals obs.nodes obs.broadcastId, o.toNat + 1 + count ≤ 2 ^ 32

instance (obs : FleetObservation) (count : Nat) : Decidable (OrdinalsFit obs count) :=
  -- Over the list: `UInt32` is finite, and searching all of it is not what is meant.
  List.decidableBAll (fun o : UInt32 => o.toNat + 1 + count ≤ 2 ^ 32) (ordinals obs.nodes obs.broadcastId)

/-- The next ordinal is one past the highest one, or zero when there is none. -/
theorem toNat_nextFreeOrdinal (nodes : List FleetNode) (broadcastId : String)
    (hfit : ∀ o ∈ ordinals nodes broadcastId, o.toNat + 1 < 2 ^ 32) :
    (∀ o ∈ ordinals nodes broadcastId, o.toNat < (nextFreeOrdinal nodes broadcastId).toNat) ∧
      ((nextFreeOrdinal nodes broadcastId).toNat = 0 ∨
        ∃ o ∈ ordinals nodes broadcastId, (nextFreeOrdinal nodes broadcastId).toNat = o.toNat + 1) := by
  unfold nextFreeOrdinal
  cases hmax : (ordinals nodes broadcastId).max? with
  | none =>
    rw [List.max?_eq_none_iff] at hmax
    rw [hmax]
    refine ⟨?_, .inl rfl⟩
    intro o ho
    cases ho
  | some m =>
    obtain ⟨hmem, hle⟩ := List.max?_eq_some_iff.mp hmax
    have hnext : (m + 1).toNat = m.toNat + 1 := by
      rw [UInt32.toNat_add, UInt32.toNat_one, Nat.mod_eq_of_lt (hfit m hmem)]
    refine ⟨fun o ho => ?_, .inr ⟨m, hmem, hnext⟩⟩
    have := UInt32.le_iff_toNat_le.mp (hle o ho)
    simp only [hnext]
    omega

/-- An ordered ordinal, as a number. -/
theorem toNat_ordered {obs j} (hfit : OrdinalsFit obs count) (hj : j < count)
    (hcount : count < 2 ^ 32) :
    (nextFreeOrdinal obs.nodes obs.broadcastId + UInt32.ofNat j).toNat =
      (nextFreeOrdinal obs.nodes obs.broadcastId).toNat + j := by
  have hnext := toNat_nextFreeOrdinal obs.nodes obs.broadcastId fun o ho => by
    have := hfit o ho
    omega
  have hroom : (nextFreeOrdinal obs.nodes obs.broadcastId).toNat + j < 2 ^ 32 := by
    rcases hnext.2 with hzero | ⟨o, ho, heq⟩
    · omega
    · have := hfit o ho
      omega
  rw [UInt32.toNat_add, UInt32.toNat_ofNat', Nat.mod_eq_of_lt (show j < 2 ^ 32 by omega), Nat.mod_eq_of_lt hroom]

/-- A generated id is never one the observation already has, in any state. -/
theorem ordered_fresh {obs j} (hfit : OrdinalsFit obs count) (hj : j < count)
    (hcount : count < 2 ^ 32) {n} (hn : n ∈ obs.nodes) :
    n.id ≠ fanoutId obs.broadcastId (nextFreeOrdinal obs.nodes obs.broadcastId + UInt32.ofNat j) := by
  intro hid
  have hmem := mem_ordinals_of_id hn hid
  have hlt := (toNat_nextFreeOrdinal obs.nodes obs.broadcastId fun o ho => by
    have := hfit o ho
    omega).1 _ hmem
  rw [toNat_ordered hfit hj hcount] at hlt
  omega

end MatrixMedia.Fleet
