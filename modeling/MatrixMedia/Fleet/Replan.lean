import MatrixMedia.Fleet.Growth

/-!
# Re-planning while an order is in flight

An order is a run of consecutive ordinals. When some of its nodes have registered, the
next plan starts after the highest registered one, so the same ids come out exactly when
the registered nodes are the first ones of the order and the second shortfall is the first
one less what registered (`replan_same_iff`).
-/

namespace MatrixMedia.Fleet
open Lib.Text Lib.U32 DesiredNode List

/-- Nodes of an order that have registered and are still on their way. -/
structure Registered (obs : FleetObservation) (policy : FleetPolicy) (reg : List FleetNode) : Prop where
  ordered : ∀ n ∈ reg, n.id ∈ (orderedFanout obs policy).map mmNodeId
  distinct : (reg.map FleetNode.id).Nodup
  fanout : ∀ n ∈ reg, n.flavor = .fanout
  inFlight : ∀ n ∈ reg, n.state = .requested ∨ n.state = .booting
  capacity : ∀ n ∈ reg, n.viewerCapacity = 0 ∨ n.viewerCapacity = policy.viewerCapacityPerNode

instance (obs : FleetObservation) (policy : FleetPolicy) (reg : List FleetNode) :
    Decidable (Registered obs policy reg) :=
  decidable_of_iff (_ ∧ _ ∧ _ ∧ _ ∧ _)
    ⟨fun ⟨a, b, c, d, e⟩ => ⟨a, b, c, d, e⟩, fun ⟨a, b, c, d, e⟩ => ⟨a, b, c, d, e⟩⟩

section
variable (obs : FleetObservation) (policy : FleetPolicy)

/-- The node ids of a plan. -/
def planIds : List NodeId :=
  (plan obs policy).map mmNodeId

/-- The capacity sum, before it wraps. -/
def capacitySum : Nat :=
  (((obs.nodes.filter fun n => n.flavor.servesWebrtcViewers).map (effectiveSlots policy)).map UInt32.toNat).sum

theorem toNat_effectiveCapacity :
    (obs.effectiveCapacity policy).toNat = capacitySum obs policy % 2 ^ 32 := toNat_sum _

/-- How many fan-out nodes a plan that passes the gates orders. -/
def orderSize : Nat :=
  min (wanted obs policy).toNat (room obs policy).toNat

/-- The ordinal an order starts from, as a number. -/
def firstOrdinal : Nat := (nextFreeOrdinal obs.nodes obs.broadcastId).toNat

/-- The id of the node at an offset of the order. -/
def orderedId (j : Nat) : NodeId :=
  fanoutId obs.broadcastId (UInt32.ofNat (firstOrdinal obs + j))

theorem mem_orderedIds {obs policy id} :
    id ∈ (orderedFanout obs policy).map mmNodeId ↔ ∃ j < orderSize obs policy, id = orderedId obs j := by
  have hid : ∀ j, nextFreeOrdinal obs.nodes obs.broadcastId + UInt32.ofNat j =
      UInt32.ofNat (firstOrdinal obs + j) := by
    intro j
    rw [firstOrdinal, UInt32.ofNat_add, UInt32.ofNat_toNat]
  simp only [mem_map, orderedFanout, mem_orderFanout, toNat_min, orderSize, orderedId]
  constructor
  · rintro ⟨d, ⟨j, hj, rfl⟩, rfl⟩
    exact ⟨j, hj, by rw [← hid]; rfl⟩
  · rintro ⟨j, hj, rfl⟩
    exact ⟨_, ⟨j, hj, rfl⟩, by rw [← hid]; rfl⟩

/-- The ids of the nodes a plan keeps or orders outside the fan-out. -/
def otherIds : List NodeId :=
  (keptNodes obs policy ++ orderedTranscode obs policy).map mmNodeId

end

theorem mem_planIds {obs policy} (hgates : PassesGates obs) {id} :
    id ∈ planIds obs policy ↔ id ∈ otherIds obs policy ∨ ∃ j < orderSize obs policy, id = orderedId obs j := by
  rw [← mem_orderedIds, planIds, otherIds, plan_eq, if_pos hgates]
  simp only [map_append, mem_append]
  exact or_right_comm

/-- Ordinals in use, and twice the ceiling past them, stay below `2 ^ 32`. -/
structure OrdinalsClear (obs : FleetObservation) (policy : FleetPolicy) : Prop where
  used : OrdinalsFit obs (2 * policy.maxFanoutNodesPerBroadcast.toNat + 1)
  ceiling : 2 * policy.maxFanoutNodesPerBroadcast.toNat + 1 < 2 ^ 32

/-! ## The second observation -/

section Next
variable {obs : FleetObservation} {policy : FleetPolicy} {reg nodes : List FleetNode}

/-- The observation after the registrations. -/
def nextObs (obs : FleetObservation) (nodes : List FleetNode) : FleetObservation := { obs with nodes := nodes }

theorem mem_next (hperm : nodes.Perm (obs.nodes ++ reg)) {n} : n ∈ nodes ↔ n ∈ obs.nodes ∨ n ∈ reg := by
  rw [hperm.mem_iff, mem_append]

/-- An in-flight node of the order brings the policy's capacity. -/
theorem slots_registered (hreg : Registered obs policy reg) {n} (hn : n ∈ reg) :
    effectiveSlots policy n = policy.viewerCapacityPerNode := by
  have hslots : effectiveSlots policy n =
      if n.viewerCapacity = 0 then policy.viewerCapacityPerNode else n.viewerCapacity := by
    unfold effectiveSlots
    rcases hreg.inFlight n hn with h | h <;> rw [h]
  rw [hslots]
  rcases hreg.capacity n hn with h | h
  · rw [if_pos h]
  · split
    · rfl
    · exact h

variable (hreg : Registered obs policy reg) (hperm : nodes.Perm (obs.nodes ++ reg))
include hreg hperm

theorem liveFanout_next :
    (nextObs obs nodes).liveFanoutNodes.length = obs.liveFanoutNodes.length + reg.length := by
  have hself : reg.filter (fun n => n.flavor = .fanout ∧ n.state ≠ .gone) = reg := by
    refine filter_eq_self.mpr fun n hn => ?_
    rcases hreg.inFlight n hn with h | h <;> simp [hreg.fanout n hn, h]
  have hfilter := (hperm.filter fun n => n.flavor = .fanout ∧ n.state ≠ .gone).length_eq
  rw [filter_append, length_append, hself] at hfilter
  exact hfilter

theorem capacitySum_next :
    capacitySum (nextObs obs nodes) policy =
      capacitySum obs policy + reg.length * policy.viewerCapacityPerNode.toNat := by
  have hself : reg.filter (fun n => n.flavor.servesWebrtcViewers) = reg :=
    filter_eq_self.mpr fun n hn => by simp [hreg.fanout n hn, NodeFlavor.servesWebrtcViewers]
  have hslots : (reg.map (effectiveSlots policy)).map UInt32.toNat =
      List.replicate reg.length policy.viewerCapacityPerNode.toNat := by
    rw [map_map, eq_replicate_iff]
    refine ⟨by simp, fun b hb => ?_⟩
    obtain ⟨n, hn, rfl⟩ := mem_map.mp hb
    exact congrArg UInt32.toNat (slots_registered hreg hn)
  have hsum := (((hperm.filter fun n => n.flavor.servesWebrtcViewers).map (effectiveSlots policy)).map
    UInt32.toNat).sum_eq
  rw [filter_append, hself, map_append, map_append, hslots, sum_append,
    sum_replicate_nat] at hsum
  exact hsum

theorem hasTranscodeNode_next :
    (nextObs obs nodes).hasTranscodeNode = obs.hasTranscodeNode := by
  rw [Bool.eq_iff_iff, FleetObservation.hasTranscodeNode, FleetObservation.hasTranscodeNode, any_eq_true,
    any_eq_true]
  constructor
  · rintro ⟨n, hn, hflavor⟩
    rcases (mem_next hperm).mp hn with hold | hnew
    · exact ⟨n, hold, hflavor⟩
    · rw [hreg.fanout n hnew] at hflavor
      simp at hflavor
  · rintro ⟨n, hn, hflavor⟩
    exact ⟨n, (mem_next hperm).mpr (.inl hn), hflavor⟩

/-- The second plan keeps what the first kept, and the registered nodes. -/
theorem mem_otherIds_next {id} :
    id ∈ otherIds (nextObs obs nodes) policy ↔ id ∈ otherIds obs policy ∨ id ∈ reg.map FleetNode.id := by
  have htranscode : orderedTranscode (nextObs obs nodes) policy = orderedTranscode obs policy := by
    unfold orderedTranscode
    rw [hasTranscodeNode_next hreg hperm]
    rfl
  simp only [otherIds, map_append, mem_append, htranscode]
  have hkept : id ∈ (keptNodes (nextObs obs nodes) policy).map mmNodeId ↔
      id ∈ (keptNodes obs policy).map mmNodeId ∨ id ∈ reg.map FleetNode.id := by
    simp only [mem_map, mem_keptNodes]
    constructor
    · rintro ⟨d, ⟨n, hn, hflavor, hstate, rfl⟩, rfl⟩
      rcases (mem_next hperm).mp hn with hold | hnew
      · exact .inl ⟨_, ⟨n, hold, hflavor, hstate, rfl⟩, rfl⟩
      · exact .inr ⟨n, hnew, rfl⟩
    · rintro (⟨d, ⟨n, hn, hflavor, hstate, rfl⟩, rfl⟩ | ⟨n, hn, rfl⟩)
      · exact ⟨_, ⟨n, (mem_next hperm).mpr (.inl hn), hflavor, hstate, rfl⟩, rfl⟩
      · refine ⟨_, ⟨n, (mem_next hperm).mpr (.inr hn), hreg.fanout n hn, ?_, rfl⟩, rfl⟩
        rcases hreg.inFlight n hn with h | h <;> rw [h] <;> decide
  rw [hkept]
  exact or_right_comm

end Next

/-! ## The second order -/

theorem ceil_le_iff {x p k} (hp : 0 < p) : (x + p - 1) / p ≤ k ↔ x ≤ k * p := by
  rw [Nat.div_le_iff_le_mul_add_pred hp, Nat.mul_comm]
  omega

/-- The nodes a shortfall of `x` viewers asks for, `p` viewers a node. -/
def nodesFor (p v c : Nat) : Nat := if c < v then (v - c + max p 1 - 1) / max p 1 else 0

theorem nodesFor_le_iff {p v c k} : nodesFor p v c ≤ k ↔ v ≤ c + k * max p 1 := by
  unfold nodesFor
  split
  · rw [ceil_le_iff (by omega)]
    omega
  · refine ⟨fun _ => ?_, fun _ => Nat.zero_le k⟩
    exact Nat.le_trans (by omega) (Nat.le_add_right c _)

theorem nodesFor_pos {p v c} (h : c < v) : 0 < nodesFor p v c := by
  rcases Nat.eq_zero_or_pos (nodesFor p v c) with hzero | hpos
  · have := nodesFor_le_iff.mp (Nat.le_of_eq hzero)
    omega
  · exact hpos

/-- Each registered node takes one off the shortfall, as long as the sum does not wrap. -/
theorem nodesFor_registered {p v c s} (hp : 1 ≤ p) :
    nodesFor p v (c + s * p) = nodesFor p v c - s := by
  have hmax : max p 1 = p := by omega
  apply Nat.le_antisymm
  · have hfirst := nodesFor_le_iff.mp (Nat.le_refl (nodesFor p v c))
    rw [nodesFor_le_iff, hmax]
    rw [hmax] at hfirst
    rcases Nat.le_total s (nodesFor p v c) with hle | hle
    · rw [Nat.sub_mul]
      have := Nat.mul_le_mul_right p hle
      omega
    · have := Nat.mul_le_mul_right p hle
      omega
  · have hsecond := nodesFor_le_iff.mp (Nat.le_refl (nodesFor p v (c + s * p)))
    have hgoal : nodesFor p v c ≤ nodesFor p v (c + s * p) + s := by
      rw [nodesFor_le_iff, hmax, Nat.add_mul]
      rw [hmax] at hsecond
      omega
    omega

/-- The second order is the rest of the first, exactly when nothing or the ceiling
decided, or the policy's capacity counts and its sum does not wrap. -/
theorem rest_of_order_iff {v c p r s} (hv : v < 2 ^ 32) (hp : p < 2 ^ 32)
    (hs : s ≤ min (nodesFor p v c) r) (hc : c < 2 ^ 32) :
    min (nodesFor p v ((c + s * p) % 2 ^ 32)) (r - s) = min (nodesFor p v c) r - s ↔
      s = 0 ∨ r ≤ nodesFor p v c ∨ 1 ≤ p ∧ c + s * p < 2 ^ 32 := by
  rcases Nat.eq_zero_or_pos s with hzero | hpos
  · subst hzero
    rw [Nat.zero_mul, Nat.add_zero, Nat.mod_eq_of_lt hc]
    omega
  rcases Nat.eq_zero_or_pos p with hp0 | hp1
  · subst hp0
    rw [Nat.mul_zero, Nat.add_zero, Nat.mod_eq_of_lt hc]
    omega
  rcases Nat.lt_or_ge (c + s * p) (2 ^ 32) with hfit | hwrap
  · rw [Nat.mod_eq_of_lt hfit, nodesFor_registered hp1]
    omega
  -- The sum wraps: the registered nodes are the whole order, yet capacity reads as nearly none.
  · have hmax : max p 1 = p := by omega
    have hmul : (s - 1) * p + p = s * p := by
      rw [← Nat.succ_mul, Nat.succ_eq_add_one, Nat.sub_add_cancel hpos]
    have hlast : ¬ nodesFor p v c ≤ s - 1 := by omega
    rw [nodesFor_le_iff, hmax] at hlast
    have hall : nodesFor p v c ≤ s := by
      rw [nodesFor_le_iff, hmax]
      omega
    have hmod : (c + s * p) % 2 ^ 32 = c + s * p - 2 ^ 32 := by
      rw [Nat.mod_eq_sub_mod hwrap, Nat.mod_eq_of_lt (by omega)]
    have hshort : 0 < nodesFor p v ((c + s * p) % 2 ^ 32) := nodesFor_pos (by omega)
    omega

/-- A set of offsets below `m` and the interval after it make up an interval exactly when
the set has no gap and the interval ends where it should. -/
theorem offsets_cover_iff {J : Nat → Prop} {m t t' : Nat} (below : ∀ j, J j → j < m) (hm : m ≤ t) :
    (∀ j, j < t ↔ J j ∨ m ≤ j ∧ j < m + t') ↔ (∀ j < m, J j) ∧ t' = t - m := by
  constructor
  · intro h
    refine ⟨fun j hj => ?_, ?_⟩
    · rcases (h j).mp (by omega) with hJ | hrest
      · exact hJ
      · omega
    · have hend := h t
      have hnext := h (m + t')
      have hno : ¬ J (m + t') := fun hJ => by
        have := below _ hJ
        omega
      by_contra hne
      rcases Nat.lt_or_ge t' (t - m) with hlt | hge
      · rcases hnext.mp (by omega) with hJ | hrest
        · exact hno hJ
        · omega
      · have := hend.mpr (.inr (by omega))
        omega
  · rintro ⟨hfull, rfl⟩ j
    constructor
    · intro hj
      rcases Nat.lt_or_ge j m with hlt | hge
      · exact .inl (hfull j hlt)
      · exact .inr (by omega)
    · rintro (hJ | hrest)
      · have := below j hJ
        omega
      · omega

/-! ## Which ids come out -/

section Same
variable {obs : FleetObservation} {policy : FleetPolicy} {reg nodes : List FleetNode}

theorem orderSize_le (obs : FleetObservation) (policy : FleetPolicy) :
    orderSize obs policy ≤ policy.maxFanoutNodesPerBroadcast.toNat :=
  Nat.le_trans (Nat.min_le_right ..) (room_le obs policy)

theorem OrdinalsClear.lt_first (hclear : OrdinalsClear obs policy) {o : UInt32}
    (ho : o ∈ ordinals obs.nodes obs.broadcastId) : o.toNat < firstOrdinal obs :=
  (toNat_nextFreeOrdinal _ _ fun o ho => by
    have := hclear.used o ho
    omega).1 o ho

theorem OrdinalsClear.first_le (hclear : OrdinalsClear obs policy) :
    firstOrdinal obs + (2 * policy.maxFanoutNodesPerBroadcast.toNat + 1) ≤ 2 ^ 32 := by
  have hceiling := hclear.ceiling
  have hnext := (toNat_nextFreeOrdinal obs.nodes obs.broadcastId fun o ho => by
    have := hclear.used o ho
    omega).2
  unfold firstOrdinal
  rcases hnext with hzero | ⟨o, ho, heq⟩
  · omega
  · have := hclear.used o ho
    omega

theorem orderedId_inj {j k} (hj : firstOrdinal obs + j < 2 ^ 32) (hk : firstOrdinal obs + k < 2 ^ 32)
    (h : orderedId obs j = orderedId obs k) : j = k := by
  have hnum := congrArg UInt32.toNat (fanoutId_injective h)
  rw [UInt32.toNat_ofNat', UInt32.toNat_ofNat', Nat.mod_eq_of_lt hj, Nat.mod_eq_of_lt hk] at hnum
  omega

/-- An ordered id is none of the others a plan holds. -/
theorem orderedId_notMem_otherIds (hclear : OrdinalsClear obs policy) {j} (hj : firstOrdinal obs + j < 2 ^ 32) :
    orderedId obs j ∉ otherIds obs policy := by
  intro hmem
  rw [otherIds, map_append, mem_append] at hmem
  rcases hmem with hkept | htranscode
  · obtain ⟨d, hd, hid⟩ := mem_map.mp hkept
    obtain ⟨n, hn, -, -, rfl⟩ := mem_keptNodes.mp hd
    have hlt := hclear.lt_first (mem_ordinals_of_id hn hid)
    rw [UInt32.toNat_ofNat', Nat.mod_eq_of_lt hj] at hlt
    omega
  · obtain ⟨d, hd, hid⟩ := mem_map.mp htranscode
    obtain ⟨-, -, rfl⟩ := mem_orderedTranscode.mp hd
    exact fanoutId_ne_transcodeId _ _ hid.symm

/-- Which offsets of the order have registered. -/
def RegisteredAt (obs : FleetObservation) (policy : FleetPolicy) (reg : List FleetNode) (j : Nat) : Prop :=
  j < orderSize obs policy ∧ orderedId obs j ∈ reg.map FleetNode.id

section
variable (hclear : OrdinalsClear obs policy) (hreg : Registered obs policy reg) (hperm : nodes.Perm (obs.nodes ++ reg))
include hclear hreg hperm

/-- The ordinals after the registrations. -/
theorem mem_ordinals_next {x : UInt32} : x ∈ ordinals nodes obs.broadcastId ↔
      x ∈ ordinals obs.nodes obs.broadcastId ∨ ∃ j, RegisteredAt obs policy reg j ∧ x.toNat = firstOrdinal obs + j := by
  have hsize := orderSize_le obs policy
  have hfirst := hclear.first_le
  constructor
  · intro hx
    obtain ⟨n, hn, text, hid, hparse⟩ := mem_ordinals.mp hx
    rcases (mem_next hperm).mp hn with hold | hnew
    · exact .inl (mem_ordinals.mpr ⟨n, hold, text, hid, hparse⟩)
    · obtain ⟨j, hj, hordered⟩ := mem_orderedIds.mp (hreg.ordered n hnew)
      refine .inr ⟨j, ⟨hj, hordered ▸ mem_map_of_mem hnew⟩, ?_⟩
      have htext : text = (UInt32.ofNat (firstOrdinal obs + j)).toNat.repr := by
        have hchars := congrArg String.toList (hid.symm.trans hordered)
        rw [orderedId, fanoutId, String.toList_append, String.toList_append] at hchars
        exact String.toList_inj.mp (append_cancel_left hchars)
      rw [htext, parseU32_repr] at hparse
      cases hparse
      rw [UInt32.toNat_ofNat', Nat.mod_eq_of_lt (by omega)]
  · rintro (hold | ⟨j, ⟨hj, hmem⟩, hx⟩)
    · obtain ⟨n, hn, hrest⟩ := mem_ordinals.mp hold
      exact mem_ordinals.mpr ⟨n, (mem_next hperm).mpr (.inl hn), hrest⟩
    · obtain ⟨n, hn, hid⟩ := mem_map.mp hmem
      have hxid : x = UInt32.ofNat (firstOrdinal obs + j) := by rw [← hx, UInt32.ofNat_toNat]
      exact mem_ordinals_of_id ((mem_next hperm).mpr (.inr hn)) (hid.trans (by rw [hxid]; rfl))

/-- The second order starts above every ordinal then in use, and right after one of them. -/
theorem nextFree_next :
    (∀ o ∈ ordinals nodes obs.broadcastId, o.toNat < firstOrdinal (nextObs obs nodes)) ∧
      (firstOrdinal (nextObs obs nodes) = 0 ∨
        ∃ o ∈ ordinals nodes obs.broadcastId, firstOrdinal (nextObs obs nodes) = o.toNat + 1) := by
  have hsize := orderSize_le obs policy
  have hfirst := hclear.first_le
  apply toNat_nextFreeOrdinal nodes obs.broadcastId
  intro x hx
  rcases (mem_ordinals_next hclear hreg hperm).mp hx with hold | ⟨j, hj, heq⟩
  · have := hclear.used x hold
    omega
  · have := hj.1
    omega

theorem first_le_next : firstOrdinal obs ≤ firstOrdinal (nextObs obs nodes) := by
  have hfit : ∀ o ∈ ordinals obs.nodes obs.broadcastId, o.toNat + 1 < 2 ^ 32 := fun o ho => by
    have := hclear.used o ho
    omega
  rcases (toNat_nextFreeOrdinal _ _ hfit).2 with hzero | ⟨o, ho, heq⟩
  · exact Nat.le_trans (Nat.le_of_eq hzero) (Nat.zero_le _)
  · have := (nextFree_next hclear hreg hperm).1 o ((mem_ordinals_next hclear hreg hperm).mpr (.inl ho))
    exact Nat.le_trans (Nat.le_of_eq heq) this

/-- The second order starts `m` after the first, one past the last registered node. -/
theorem first_next :
    ∃ m, firstOrdinal (nextObs obs nodes) = firstOrdinal obs + m ∧ m ≤ orderSize obs policy ∧
      (∀ j, RegisteredAt obs policy reg j → j < m) ∧ (m = 0 ∨ RegisteredAt obs policy reg (m - 1)) := by
  have hsize := orderSize_le obs policy
  have hfirst := hclear.first_le
  have hle := first_le_next hclear hreg hperm
  obtain ⟨hbelow, hlast⟩ := nextFree_next hclear hreg hperm
  refine ⟨firstOrdinal (nextObs obs nodes) - firstOrdinal obs, by omega, ?_⟩
  have hreached : ∀ j, RegisteredAt obs policy reg j → firstOrdinal obs + j < firstOrdinal (nextObs obs nodes) := by
    intro j hj
    have hnum : (UInt32.ofNat (firstOrdinal obs + j)).toNat = firstOrdinal obs + j := by
      rw [UInt32.toNat_ofNat', Nat.mod_eq_of_lt (by have := hj.1; omega)]
    have := hbelow _ ((mem_ordinals_next hclear hreg hperm).mpr (.inr ⟨j, hj, hnum⟩))
    rwa [hnum] at this
  have hend : firstOrdinal (nextObs obs nodes) = firstOrdinal obs ∨
      ∃ j, RegisteredAt obs policy reg j ∧ firstOrdinal (nextObs obs nodes) = firstOrdinal obs + j + 1 := by
    rcases hlast with hzero | ⟨x, hx, heq⟩
    · left
      omega
    · rcases (mem_ordinals_next hclear hreg hperm).mp hx with hold | ⟨j, hj, hxj⟩
      · left
        have := hclear.lt_first hold
        omega
      · right
        exact ⟨j, hj, by omega⟩
  refine ⟨?_, fun j hj => ?_, ?_⟩
  · rcases hend with heq | ⟨j, hj, heq⟩
    · omega
    · have := hj.1
      omega
  · have := hreached j hj
    omega
  · rcases hend with heq | ⟨j, hj, heq⟩
    · exact .inl (by omega)
    · refine .inr ?_
      rwa [heq, show firstOrdinal obs + j + 1 - firstOrdinal obs - 1 = j by omega]

end

/-- The two plans hold the same ids exactly when the registered offsets and the second
order cover the first. -/
theorem sameIds_iff_cover (hgates : PassesGates obs) (hclear : OrdinalsClear obs policy)
    (hreg : Registered obs policy reg) (hperm : nodes.Perm (obs.nodes ++ reg)) {m}
    (hfirst : firstOrdinal (nextObs obs nodes) = firstOrdinal obs + m) (hm : m ≤ orderSize obs policy) :
    (∀ id, id ∈ planIds (nextObs obs nodes) policy ↔ id ∈ planIds obs policy) ↔
      ∀ j, j < orderSize obs policy ↔
        RegisteredAt obs policy reg j ∨ m ≤ j ∧ j < m + orderSize (nextObs obs nodes) policy := by
  have hgates' : PassesGates (nextObs obs nodes) := hgates
  have hsize := orderSize_le obs policy
  have hsize' := orderSize_le (nextObs obs nodes) policy
  have hbound := hclear.first_le
  have hid : ∀ i, orderedId (nextObs obs nodes) i = orderedId obs (m + i) := by
    intro i
    rw [orderedId, orderedId, hfirst, Nat.add_assoc]
    rfl
  have hmem : ∀ id, id ∈ planIds (nextObs obs nodes) policy ↔
      (id ∈ otherIds obs policy ∨ id ∈ reg.map FleetNode.id) ∨
        ∃ i < orderSize (nextObs obs nodes) policy, id = orderedId obs (m + i) := by
    intro id
    rw [mem_planIds hgates', mem_otherIds_next hreg hperm]
    simp only [hid]
  constructor
  · intro hsame j
    constructor
    · intro hj
      have hin := (hmem _).mp ((hsame _).mpr ((mem_planIds hgates).mpr (.inr ⟨j, hj, rfl⟩)))
      rcases hin with (hother | hregistered) | ⟨i, hi, heq⟩
      · exact absurd hother (orderedId_notMem_otherIds hclear (by omega))
      · exact .inl ⟨hj, hregistered⟩
      · have := orderedId_inj (by omega) (by omega) heq
        exact .inr (by omega)
    · rintro (hregistered | ⟨hge, hlt⟩)
      · exact hregistered.1
      · have hin : orderedId obs j ∈ planIds (nextObs obs nodes) policy :=
          (hmem _).mpr (.inr ⟨j - m, by omega, by rw [Nat.add_sub_cancel' hge]⟩)
        rcases (mem_planIds hgates).mp ((hsame _).mp hin) with hother | ⟨k, hk, heq⟩
        · exact absurd hother (orderedId_notMem_otherIds hclear (by omega))
        · have := orderedId_inj (by omega) (by omega) heq
          omega
  · intro hcover id
    rw [hmem, mem_planIds hgates]
    constructor
    · rintro ((hother | hregistered) | ⟨i, hi, rfl⟩)
      · exact .inl hother
      · obtain ⟨n, hn, rfl⟩ := mem_map.mp hregistered
        exact .inr (mem_orderedIds.mp (hreg.ordered n hn))
      · exact .inr ⟨m + i, (hcover _).mpr (.inr (by omega)), rfl⟩
    · rintro (hother | ⟨j, hj, rfl⟩)
      · exact .inl (.inl hother)
      · rcases (hcover j).mp hj with hregistered | ⟨hge, hlt⟩
        · exact .inl (.inr hregistered.2)
        · exact .inr ⟨j - m, by omega, by rw [Nat.add_sub_cancel' hge]⟩

/-- When the first `m` nodes of an order are the registered ones, there are `m` of them. -/
theorem length_registered (hclear : OrdinalsClear obs policy) (hreg : Registered obs policy reg) {m}
    (hm : m ≤ orderSize obs policy) (below : ∀ j, RegisteredAt obs policy reg j → j < m)
    (hfull : ∀ j < m, RegisteredAt obs policy reg j) : reg.length = m := by
  have hsize := orderSize_le obs policy
  have hbound := hclear.first_le
  have hnodup : ((List.range m).map (orderedId obs)).Nodup := by
    refine List.Nodup.map_on ?_ nodup_range
    intro j hj k hk heq
    rw [mem_range] at hj hk
    exact orderedId_inj (by omega) (by omega) heq
  have hperm : (reg.map FleetNode.id).Perm ((List.range m).map (orderedId obs)) := by
    rw [perm_ext_iff_of_nodup hreg.distinct hnodup]
    intro id
    constructor
    · intro hid
      obtain ⟨n, hn, rfl⟩ := mem_map.mp hid
      obtain ⟨j, hj, heq⟩ := mem_orderedIds.mp (hreg.ordered n hn)
      have := below j ⟨hj, heq ▸ hid⟩
      exact mem_map.mpr ⟨j, mem_range.mpr this, heq.symm⟩
    · intro hid
      obtain ⟨j, hj, rfl⟩ := mem_map.mp hid
      exact (hfull j (mem_range.mp hj)).2
  simpa using hperm.length_eq

theorem length_le_orderSize (hreg : Registered obs policy reg) :
    reg.length ≤ orderSize obs policy := by
  have hsub : reg.map FleetNode.id ⊆ (List.range (orderSize obs policy)).map (orderedId obs) := by
    intro id hid
    obtain ⟨n, hn, rfl⟩ := mem_map.mp hid
    obtain ⟨j, hj, heq⟩ := mem_orderedIds.mp (hreg.ordered n hn)
    exact mem_map.mpr ⟨j, mem_range.mpr hj, heq.symm⟩
  simpa using (subperm_of_subset hreg.distinct hsub).length_le

theorem toNat_wanted_eq (obs : FleetObservation) (policy : FleetPolicy) : (wanted obs policy).toNat =
    nodesFor policy.viewerCapacityPerNode.toNat obs.viewersProjected.toNat (obs.effectiveCapacity policy).toNat :=
  toNat_wanted obs policy

/-- The ceiling has as much less room as nodes registered. -/
theorem room_next (hreg : Registered obs policy reg) (hperm : nodes.Perm (obs.nodes ++ reg))
    (hlen : reg.length ≤ (room obs policy).toNat) :
    (room (nextObs obs nodes) policy).toNat = (room obs policy).toNat - reg.length := by
  have hmax := policy.maxFanoutNodesPerBroadcast.toNat_lt
  rw [room, room, toNat_saturatingSub, toNat_saturatingSub, liveFanout_next hreg hperm, UInt32.toNat_ofNat',
    UInt32.toNat_ofNat'] at *
  rcases Nat.eq_zero_or_pos reg.length with hzero | hpos
  · rw [hzero]
    omega
  · have hmod := Nat.mod_lt obs.liveFanoutNodes.length (show 0 < 2 ^ 32 by decide)
    rw [Nat.add_mod, Nat.mod_eq_of_lt (show reg.length < 2 ^ 32 by omega), Nat.mod_eq_of_lt (by omega)]
    omega

end Same

/-- The registered nodes are the first ones of the order. -/
def FirstOfOrder (obs : FleetObservation) (policy : FleetPolicy) (reg : List FleetNode) : Prop :=
  ∀ k < orderSize obs policy, orderedId obs k ∈ reg.map FleetNode.id →
    ∀ j < k, orderedId obs j ∈ reg.map FleetNode.id

instance (obs : FleetObservation) (policy : FleetPolicy) (reg : List FleetNode) :
    Decidable (FirstOfOrder obs policy reg) :=
  inferInstanceAs (Decidable (∀ k < orderSize obs policy, orderedId obs k ∈ reg.map FleetNode.id →
    ∀ j < k, orderedId obs j ∈ reg.map FleetNode.id))

/-- **Re-planning while an order is in flight** gives the same ids exactly when the
registered nodes are the first ones of the order, and either none registered, the ceiling
decided its size, or each registered node counts with a capacity of its own. -/
theorem replan_same_iff {obs : FleetObservation} {policy : FleetPolicy} {reg nodes : List FleetNode}
    (hgates : PassesGates obs) (hsum : capacitySum obs policy < 2 ^ 32) (hclear : OrdinalsClear obs policy)
    (hreg : Registered obs policy reg) (hperm : nodes.Perm (obs.nodes ++ reg)) :
    (∀ id, id ∈ planIds (nextObs obs nodes) policy ↔ id ∈ planIds obs policy) ↔
      FirstOfOrder obs policy reg ∧
        (reg = [] ∨ room obs policy ≤ wanted obs policy ∨
          0 < policy.viewerCapacityPerNode ∧
            capacitySum obs policy + reg.length * policy.viewerCapacityPerNode.toNat < 2 ^ 32) := by
  obtain ⟨m, hfirst, hm, below, hlast⟩ := first_next hclear hreg hperm
  have hlen := length_le_orderSize hreg
  have hroom := room_next hreg hperm (Nat.le_trans hlen (Nat.min_le_right ..))
  have hfull : (∀ j < m, RegisteredAt obs policy reg j) ↔ FirstOfOrder obs policy reg := by
    constructor
    · intro hall k hk hmem j hj
      exact (hall j (Nat.lt_trans hj (below k ⟨hk, hmem⟩))).2
    · intro hinitial j hj
      rcases hlast with hzero | ⟨hlt, hmem⟩
      · omega
      · refine ⟨by omega, ?_⟩
        rcases Nat.lt_or_ge j (m - 1) with hjm | hjm
        · exact hinitial (m - 1) hlt hmem j hjm
        · rwa [show j = m - 1 by omega]
  have hcapacity : (obs.effectiveCapacity policy).toNat = capacitySum obs policy := by
    rw [toNat_effectiveCapacity, Nat.mod_eq_of_lt hsum]
  have hsecond : orderSize (nextObs obs nodes) policy =
      min (nodesFor policy.viewerCapacityPerNode.toNat obs.viewersProjected.toNat
        ((capacitySum obs policy + reg.length * policy.viewerCapacityPerNode.toNat) % 2 ^ 32))
        ((room obs policy).toNat - reg.length) := by
    rw [orderSize, toNat_wanted_eq, toNat_effectiveCapacity, capacitySum_next hreg hperm, hroom]
    rfl
  have horder : orderSize obs policy =
      min (nodesFor policy.viewerCapacityPerNode.toNat obs.viewersProjected.toNat (capacitySum obs policy))
        (room obs policy).toNat := by
    rw [orderSize, toNat_wanted_eq, hcapacity]
  have hrest := rest_of_order_iff obs.viewersProjected.toNat_lt policy.viewerCapacityPerNode.toNat_lt
    (horder ▸ hlen) hsum
  rw [← hsecond, ← horder] at hrest
  rw [sameIds_iff_cover hgates hclear hreg hperm hfirst hm, offsets_cover_iff below hm, hfull]
  refine and_congr_right fun hinitial => ?_
  have hcount : reg.length = m := length_registered hclear hreg hm below (hfull.mpr hinitial)
  rw [← hcount, hrest, length_eq_zero_iff, UInt32.le_iff_toNat_le, toNat_wanted_eq, hcapacity,
    UInt32.lt_iff_toNat_lt]
  rfl

/-- 700 viewers and no node yet: an order of three. -/
def growingObs : FleetObservation := ⟨"b", true, false, 700, 1000, 100, []⟩

/-- Node `ordinal` of that order, booting, its capacity not reported yet. -/
def bootingNode (ordinal : UInt32) : FleetNode := ⟨fanoutId "b" ordinal, .fanout, .rented, .booting, 0, 0⟩

theorem ordinalsClear_growing : OrdinalsClear growingObs (conservative "eu-ams" "small") :=
  ⟨by decide +kernel, by decide +kernel⟩

theorem replan_same_first : Registered growingObs (conservative "eu-ams" "small") [bootingNode 0] ∧
    ∀ id, id ∈ planIds (nextObs growingObs [bootingNode 0]) (conservative "eu-ams" "small") ↔
      id ∈ planIds growingObs (conservative "eu-ams" "small") :=
  ⟨by decide +kernel, (replan_same_iff (by decide +kernel) (by decide +kernel) ordinalsClear_growing
    (by decide +kernel) (List.Perm.refl _)).mpr ⟨by decide +kernel, .inr (.inr (by decide +kernel))⟩⟩

/-- The second node of the order registers first: the next plan drops the first one and
orders a fourth. -/
theorem replan_drops_first :
    PassesGates growingObs ∧ capacitySum growingObs (conservative "eu-ams" "small") < 2 ^ 32 ∧
    Registered growingObs (conservative "eu-ams" "small") [bootingNode 1] ∧
    planIds growingObs (conservative "eu-ams" "small") = ["bc-b-fanout-0", "bc-b-fanout-1", "bc-b-fanout-2"] ∧
    planIds (nextObs growingObs [bootingNode 1]) (conservative "eu-ams" "small") =
      ["bc-b-fanout-1", "bc-b-fanout-2", "bc-b-fanout-3"] ∧
    ¬ ∀ id, id ∈ planIds (nextObs growingObs [bootingNode 1]) (conservative "eu-ams" "small") ↔
      id ∈ planIds growingObs (conservative "eu-ams" "small") := by
  have hfirst : planIds growingObs (conservative "eu-ams" "small") =
      ["bc-b-fanout-0", "bc-b-fanout-1", "bc-b-fanout-2"] := by decide +kernel
  have hsecond : planIds (nextObs growingObs [bootingNode 1]) (conservative "eu-ams" "small") =
      ["bc-b-fanout-1", "bc-b-fanout-2", "bc-b-fanout-3"] := by decide +kernel
  refine ⟨by decide +kernel, by decide +kernel, by decide +kernel, hfirst, hsecond, ?_⟩
  intro hsame
  have hdropped := (hsame "bc-b-fanout-0").mpr (by rw [hfirst]; decide)
  rw [hsecond] at hdropped
  exact absurd hdropped (by decide)

end MatrixMedia.Fleet
